import EspMqtt.Ledger

/-! The entries that the calls of the API make. -/
namespace EspMqtt
open World Ledger Relation

namespace World

/-! What the small operations leave alone. -/

theorem ledger_tick (w : World) : w.tick.2.ledger = w.ledger := by
  obtain ⟨n,l,h⟩ := w.tick_eq
  rw [h]
  rfl

theorem ledger_askMqtt5 (w : World) : w.askMqtt5.2.ledger = w.ledger := by
  obtain ⟨a,l,h⟩ := w.askMqtt5_eq
  rw [h]
  rfl

theorem ledger_recordWrite (w : World) (s : Site) (f : Bool) :
    (w.recordWrite s f).ledger = {w.ledger with wire := w.chunk s f :: w.ledger.wire} := by
  have hmarks : (if w.isCut f then Mark.cut s :: w.marks else w.marks).filterMap Mark.settings =
      w.marks.filterMap Mark.settings := by
    split <;> rfl
  have hopen : w.writeOutcome.2.2.isOpen = w.transport.isOpen := writeLoop_isOpen _ _ _
  change {w.ledger with
    isOpen := w.writeOutcome.2.2.isOpen
    wire := w.chunk s f :: w.wire
    configured := (if w.isCut f then Mark.cut s :: w.marks else w.marks).filterMap Mark.settings} = _
  rw [hmarks, hopen]
  rfl

end World

/-- A handler does what calls of the API do. -/
def Handler.Calls (H : Handler) : Prop := ∀ v : World, ReflTransGen ApiMove v.ledger (H v).ledger

variable {H : Handler} {w : World}

/-- An event, and then its handler. -/
theorem dispatchEventWithMsgid_calls (hH : H.Calls) (w : World) :
    ∃ e : MqttEvent, (e.id = w.event.id ∧ e.msgId = w.receivedId w.rx.inBufferLength) ∧
      ReflTransGen ApiMove (w.ledger.raise e) (dispatchEventWithMsgid H w).ledger := by
  refine ⟨{w.event with msgId := w.receivedId w.rx.inBufferLength}, ⟨rfl,rfl⟩, ?_⟩
  exact hH {w with
    event := {w.event with msgId := w.receivedId w.rx.inBufferLength}
    events := {w.event with msgId := w.receivedId w.rx.inBufferLength} :: w.events}

theorem dispatchTransportError_calls (hH : H.Calls) (w : World) :
    ReflTransGen ApiMove w.ledger (dispatchTransportError H w).ledger := by
  obtain ⟨e,he,hmoves⟩ := dispatchEventWithMsgid_calls hH {w with event :=
    {w.event with id := .error, errorHandle := some ⟨.tcpTransport, 0, 0, 0⟩}}
  exact ReflTransGen.head (.event e (Or.inl he.1)) hmoves

theorem espMqttWrite_ok {s : Site} {f : Bool} (h : (espMqttWrite H s f w).1 = true) :
    (espMqttWrite H s f w).2 = w.recordWrite s f ∧ w.writeOutcome.1 = .ok := by
  unfold espMqttWrite at h ⊢
  dsimp only at h ⊢
  split at h
  · rename_i hok
    exact ⟨rfl, hok⟩
  · exact absurd h (by simp)
  · exact absurd h (by simp)

theorem espMqttWrite_calls (hH : H.Calls) (s : Site) (f : Bool) (w : World)
    (hs : s = .resend → w.ledger.Resends (w.chunk s f) := by exact fun h => absurd h (by decide)) :
    ReflTransGen ApiMove w.ledger (espMqttWrite H s f w).2.ledger := by
  have hwrite : ReflTransGen ApiMove w.ledger (w.recordWrite s f).ledger := by
    rw [ledger_recordWrite]
    exact .single (.write _ rfl hs)
  unfold espMqttWrite
  dsimp only
  split
  · exact hwrite
  · exact hwrite
  · exact hwrite.trans (dispatchTransportError_calls hH ((w.recordWrite s f).inCut (w.isCut f)))

/-- The books behind an abort, with the event it raises. -/
theorem espMqttAbortConnection_raises (hH : H.Calls) (w : World) :
    ∃ e : MqttEvent, e.id = .disconnected ∧
      ReflTransGen ApiMove (w.ledger.aborted.raise e) (espMqttAbortConnection H w).ledger := by
  unfold espMqttAbortConnection
  extract_lets +onlyGivenNames outbox v t
  have ht : t.2.ledger = _ := ledger_tick _
  obtain ⟨e,he,hmoves⟩ := dispatchEventWithMsgid_calls hH {t.2 with
    reconnectTick := t.1, state := .waitReconnect, waitForPingResp := false
    aborts := (w.events.length, w.state) :: t.2.aborts
    event := {t.2.event with id := .disconnected}}
  refine ⟨e, he.1, ?_⟩
  have hbooks : {t.2.ledger with state := .waitReconnect} = w.ledger.aborted := by
    rw [ht]
    rfl
  rw [← hbooks]
  exact hmoves

theorem espMqttAbortConnection_calls (hH : H.Calls) (w : World)
    (hs : w.ledger.Up) :
    ReflTransGen ApiMove w.ledger (espMqttAbortConnection H w).ledger := by
  obtain ⟨e,he,hmoves⟩ := espMqttAbortConnection_raises hH w
  exact .head (.abort hs) (.head (.event e (Or.inr he)) hmoves)

/-! A publish on the wire. -/

/-- More chunks on the wire, and nothing else. -/
def Wrote (L L' : Ledger) : Prop := ∃ cs, L' = {L with wire := cs ++ L.wire}

theorem Wrote.trans {L L' L'' : Ledger} (h : Wrote L L') (h' : Wrote L' L'') : Wrote L L'' := by
  obtain ⟨cs,rfl⟩ := h
  obtain ⟨ds,rfl⟩ := h'
  exact ⟨ds ++ cs, by rw [List.append_assoc]⟩

theorem espMqttWrite_wrote {s : Site} {f : Bool} (h : (espMqttWrite H s f w).1 = true) :
    Wrote w.ledger (espMqttWrite H s f w).2.ledger := by
  rw [(espMqttWrite_ok h).1, ledger_recordWrite]
  exact ⟨[_], rfl⟩

theorem restLoop_calls (hH : H.Calls) (d : CData) (k : ℕ) (remaining current : ℤ) (w : World)
    (hup : w.ledger.Up) :
    ReflTransGen ApiMove w.ledger (restLoop H d k remaining current w).2.ledger ∧
    ((restLoop H d k remaining current w).1 = true →
      Wrote w.ledger (restLoop H d k remaining current w).2.ledger) := by
  induction k generalizing remaining current w with
  | zero => exact ⟨.refl, fun _ => ⟨[], rfl⟩⟩
  | succ k ih =>
    unfold restLoop
    split
    · dsimp only
      generalize hv : w.refill _ = v
      have hledger : v.ledger = w.ledger := by
        rw [← hv]
        rfl
      rw [← hledger] at hup ⊢
      have hwrote := espMqttWrite_wrote (H := H) (w := v) (s := .publish) (f := false)
      have hcalls := espMqttWrite_calls hH .publish false v
      generalize espMqttWrite H .publish false v = r at hwrote hcalls ⊢
      obtain ⟨ok,u⟩ := r
      cases ok with
      | true =>
        obtain ⟨h1,h2⟩ := ih (remaining-u.dataSent) (current+u.dataSent) u.clearFragments
          (hup.task (api_taskMoves hcalls))
        exact ⟨hcalls.trans h1, fun hok => (hwrote rfl).trans (h2 hok)⟩
      | false =>
        exact ⟨hcalls.trans (espMqttAbortConnection_calls hH u (hup.task (api_taskMoves hcalls))),
          fun hok => absurd hok (by simp)⟩
    · exact ⟨.refl, fun _ => ⟨[], rfl⟩⟩

theorem sendPublish_calls (hH : H.Calls) (d : CData) (len : ℤ) (w : World) (hup : w.ledger.Up) :
    ReflTransGen ApiMove w.ledger (sendPublish H d len w).2.ledger ∧
    ((sendPublish H d len w).1 = true → Wrote w.ledger (sendPublish H d len w).2.ledger) := by
  unfold sendPublish
  dsimp only
  generalize hv : w.inChunk _ = v
  have hledger : v.ledger = w.ledger := by
    rw [← hv]
    rfl
  rw [← hledger] at hup ⊢
  have hwrote := espMqttWrite_wrote (H := H) (w := v) (s := .publish) (f := true)
  have hcalls := espMqttWrite_calls hH .publish true v
  generalize espMqttWrite H .publish true v = r at hwrote hcalls ⊢
  obtain ⟨ok,u⟩ := r
  cases ok with
  | true =>
    obtain ⟨h1,h2⟩ := restLoop_calls hH d (len-u.dataSent).toNat (len-u.dataSent) u.dataSent
      (u.clearFragments.inChunk w.inFirstChunk) (hup.task (api_taskMoves hcalls))
    exact ⟨hcalls.trans h1, fun hok => (hwrote rfl).trans (h2 hok)⟩
  | false =>
    exact ⟨hcalls.trans (espMqttAbortConnection_calls hH u (hup.task (api_taskMoves hcalls))),
      fun hok => absurd hok (by simp)⟩

/-! A call composes its packet and stores it. -/

theorem appendMessageId_ne (c : Connection) (acc : List UInt8) :
    (appendMessageId c acc 0).2.1 = none ∨ (appendMessageId c acc 0).1 ≠ 0 := by
  unfold appendMessageId
  dsimp only
  split
  · exact Or.inl rfl
  · exact Or.inr (Nat.one_le_iff_ne_zero.mp (messageId_range c).1)

theorem composeNumbered_id (w : World) (type : MsgType) (qos retain : ℕ)
    (h : (w.composeNumbered type qos retain).2.nothingComposed = false) :
    (w.composeNumbered type qos retain).1 = 0 ↔ qos = 0 := by
  unfold composeNumbered at h ⊢
  dsimp only at h ⊢
  generalize w.composeMqtt5 type qos retain = r at h ⊢
  split at h
  · rename_i hd
    rw [if_pos hd]
    have hdrawn := (messageId_range r.2.connection).1
    exact ⟨fun hz => absurd hz (by omega), fun hz => absurd hd.1 (by omega)⟩
  · rename_i hd
    have hdata : r.2.connection.outboundMessage.data ≠ [] := by simpa [nothingComposed] using h
    rw [if_neg hd]
    refine ⟨fun _ => ?_, fun _ => rfl⟩
    by_contra hq
    exact hd ⟨Nat.pos_of_ne_zero hq, Or.inr hdata⟩

theorem mqttMsgPublish_id (c : Connection) (topic : Option (List UInt8)) (d : CData) (len : ℤ)
    (qos retain : ℕ) (h : (mqttMsgPublish c topic d len qos retain).2.outboundMessage.data ≠ []) :
    (mqttMsgPublish c topic d len qos retain).1 = 0 ↔ qos = 0 := by
  unfold mqttMsgPublish at h ⊢
  split at h
  · exact absurd rfl h
  · exact absurd rfl h
  · split at h
    · exact absurd rfl h
    · rename_i acc _
      split at h
      · exact absurd rfl h
      · rename_i hnull
        rw [if_neg hnull]
        by_cases hq : 0 < qos
        · have hdrawn := appendMessageId_ne c acc
          rw [if_pos hq] at h ⊢
          dsimp only at h ⊢
          generalize appendMessageId c acc 0 = r at h hdrawn ⊢
          obtain ⟨id,appended,c'⟩ := r
          cases appended with
          | none => exact absurd rfl h
          | some acc' =>
            have hid : id ≠ 0 := hdrawn.resolve_left (by simp)
            exact ⟨fun hz => absurd hz hid, fun hz => absurd hq (by omega)⟩
        · rw [if_neg hq]
          exact ⟨fun _ => by omega, fun _ => rfl⟩

/-- A PUBLISH has an identifier unless its QoS is 0. -/
theorem makePublish_id (w : World) (topic : Option (List UInt8)) (d : CData) (len : ℤ)
    (qos retain : ℕ) (id : ℕ) (h : (w.makePublish topic d len qos retain).1 = some id) :
    id = 0 ↔ qos = 0 := by
  unfold makePublish at h
  by_cases hv : w.isV5 = true
  · simp only [if_pos hv] at h
    split at h
    · exact absurd h (by simp)
    · rename_i hn
      rw [Option.some.injEq] at h
      rw [← h]
      exact composeNumbered_id w .publish qos retain (eq_false_of_ne_true hn)
  · simp only [if_neg hv] at h
    split at h
    · exact absurd h (by simp)
    · rename_i hn
      rw [Option.some.injEq] at h
      rw [← h]
      exact mqttMsgPublish_id w.connection topic d len qos retain fun hnil => hn (by
        simpa [nothingComposed, World.publishing, World.arising] using hnil)

/-- The DUP bit of a packet is clear, where there is one. -/
def FirstSending (data : List UInt8) : Prop := mqttGetDup (data.headD 0) = 0

theorem mqttGetDup_headerByte (type : MsgType) (qos retain : ℕ) :
    mqttGetDup (headerByte type 0 qos retain) = 0 := by
  -- bit 3 of the byte
  have hall : ∀ n : Fin 256, n.val/8%2 = 0 → mqttGetDup (UInt8.ofNat n.val) = 0 := by decide +kernel
  have hcode : type.code < 16 := by cases type <;> decide
  unfold headerByte
  apply hall ⟨_, _⟩
  · dsimp only
    omega
  · omega

theorem firstSending_nil : FirstSending [] := by
  unfold FirstSending
  decide

theorem FirstSending.of_headerByte {data : List UInt8} {type : MsgType} {qos retain : ℕ}
    (h : data = [] ∨ ∃ rest, data = headerByte type 0 qos retain :: rest) : FirstSending data := by
  rcases h with rfl | ⟨rest,rfl⟩
  · exact firstSending_nil
  · exact mqttGetDup_headerByte type qos retain

theorem FirstSending.append {data : List UInt8} (h : FirstSending data) (rest : List UInt8)
    (hdata : data ≠ []) : FirstSending (data ++ rest) := by
  cases data with
  | nil => exact absurd rfl hdata
  | cons b bs => exact h

theorem finiMessage_first (type : MsgType) (c : Connection) (qos retain : ℕ) (body : List UInt8) :
    FirstSending (finiMessage c type 0 qos retain body).outboundMessage.data := by
  unfold finiMessage
  dsimp only
  split
  · exact firstSending_nil
  · exact .of_headerByte (Or.inr ⟨_, rfl⟩)

theorem mqttMsgPublish_first (c : Connection) (topic : Option (List UInt8)) (d : CData) (len : ℤ)
    (qos retain : ℕ) : FirstSending (mqttMsgPublish c topic d len qos retain).2.outboundMessage.data := by
  unfold mqttMsgPublish
  split
  · exact firstSending_nil
  · exact firstSending_nil
  · split
    · exact firstSending_nil
    · split
      · exact firstSending_nil
      · dsimp only
        split
        · exact firstSending_nil
        · exact finiMessage_first .publish _ qos retain _

theorem makePublish_first (w : World) (topic : Option (List UInt8)) (d : CData) (len : ℤ)
    (qos retain : ℕ) :
    FirstSending (w.makePublish topic d len qos retain).2.connection.outboundMessage.data := by
  rw [makePublish_eq]
  split
  · obtain ⟨c,hm,hdata⟩ := w.composeNumbered_core .publish qos retain
    have hc : ((w.composeNumbered .publish qos retain).2.publishing d.isNull len).connection =
        c := congrArg Core.connection hm
    rw [hc]
    exact .of_headerByte hdata
  · exact mqttMsgPublish_first w.connection topic d len qos retain

theorem makePublish_ledger (w : World) (topic : Option (List UInt8)) (d : CData) (len : ℤ)
    (qos retain : ℕ) : (w.makePublish topic d len qos retain).2.ledger =
      {w.ledger with origin := ⟨w.calls, w.connections, d.isNull⟩} := by
  rw [makePublish_eq]
  split
  · obtain ⟨a,l,h⟩ := w.askMqtt5_eq
    unfold composeNumbered composeMqtt5
    rw [h]
    rfl
  · rfl

/-- The books of `L` with one more packet, for a call that has begun. -/
def Ledger.storeNow (L : Ledger) (x : OutboxItem) : Ledger :=
  {L with
    origin := x.origin
    outbox := ⟨L.outbox.size+x.buffer.length, L.outbox.list ++ [x], L.outbox.nextHandle+1⟩
    stored := (x, L.outbox.idsInUse) :: L.stored}

/-- A stored packet as `mqtt_enqueue` makes it. -/
structure Stored (w : World) (x : OutboxItem) : Prop where
  handle : x.handle = w.outbox.nextHandle
  call : x.origin.call = w.calls
  pending : x.pending = .queued
  buffer : x.buffer ≠ []
  dup : mqttGetDup (x.buffer.headD 0) = 0

/-- A PUBLISH composed: it is stored, or nothing is. -/
theorem enqueuePublish_ledger (w : World) (topic : Option (List UInt8)) (d : CData) (len : ℤ)
    (qos retain : ℕ) (store : Bool) (r : Option ℕ × World)
    (hr : w.mqttClientEnqueuePublish topic d len qos retain store = r) :
    (∃ o, r.2.ledger = {w.ledger with origin := o} ∧ (r.1.isSome → qos = 0 ∧ store = false)) ∨
    ∃ x, Stored w x ∧ r.1 = some x.msgId ∧ x.msgType = some .publish ∧ x.msgQos = qos ∧
      (x.msgId = 0 ↔ qos = 0) ∧ r.2.ledger = w.ledger.storeNow x := by
  have hmake := makePublish_ledger w topic d len qos retain
  have hcomposed := w.makePublish_composed topic d len qos retain
  have hnothing := w.makePublish_none_iff topic d len qos retain
  have hnumber := makePublish_id w topic d len qos retain
  have hfirst := makePublish_first w topic d len qos retain
  unfold mqttClientEnqueuePublish at hr
  generalize w.makePublish topic d len qos retain = m at hr hmake hcomposed hnothing hnumber hfirst
  obtain ⟨id,u⟩ := m
  cases id with
  | none =>
    subst hr
    exact Or.inl ⟨_, hmake, fun h => absurd h (by simp)⟩
  | some id =>
    have hdata : u.connection.outboundMessage.data ≠ [] := by
      intro hnil
      have hnone := hnothing.mpr (by simp [nothingComposed, hnil])
      exact absurd hnone (by simp)
    -- something is composed, and it is a PUBLISH
    have htype : u.outboundType = some .publish := hcomposed.resolve_left hdata
    dsimp only at hr hmake
    split at hr
    -- what the books get from an item made of this message, whatever is behind its data
    · have hbooks (rest : List UInt8) (l : List (OutboxItem × List ℕ)) (o : Outbox) (x : OutboxItem)
          (hx : x = ⟨u.outbox.nextHandle, u.connection.outboundMessage.data ++ rest, id,
            u.outboundType, qos, x.tick, .queued, u.origin⟩)
          (ho : o = ⟨u.outbox.size+x.buffer.length, u.outbox.list ++ [x], u.outbox.nextHandle+1⟩)
          (hl : l = (x, u.outbox.idsInUse) :: u.stored) :
          Stored w x ∧ some id = some x.msgId ∧ x.msgType = some .publish ∧ x.msgQos = qos ∧
            (x.msgId = 0 ↔ qos = 0) ∧
            {u.ledger with outbox := o, stored := l} = w.ledger.storeNow x := by
        have hbox : u.outbox = w.outbox := congrArg Ledger.outbox hmake
        have horigin : u.origin = ⟨w.calls, w.connections, d.isNull⟩ := congrArg Ledger.origin hmake
        have hstored : u.stored = w.stored := congrArg Ledger.stored hmake
        rw [hbox, horigin, htype] at hx
        refine ⟨⟨?_, ?_, ?_, ?_, ?_⟩, ?_, ?_, ?_, ?_, ?_⟩
        · rw [hx]
        · rw [hx]
        · rw [hx]
        · rw [hx]
          exact fun hnil => hdata (List.append_eq_nil_iff.mp hnil).1
        · rw [hx]
          exact hfirst.append rest hdata
        · rw [hx]
        · rw [hx]
        · rw [hx]
        · rw [hx]
          exact hnumber id rfl
        · rw [hmake, ho, hl, hbox, hstored]
          have hxo : x.origin = ⟨w.calls, w.connections, d.isNull⟩ := congrArg OutboxItem.origin hx
          unfold Ledger.storeNow
          rw [hxo]
          rfl
      split at hr
      · obtain ⟨ok,n,t,a,o,l,heq,hno,hyes⟩ := World.mqttEnqueue_eq {u with
          pendingMsgType := u.outboundType, pendingMsgId := id, pendingPublishQos := qos} []
        rw [heq] at hr
        subst hr
        cases ok with
        | false =>
          rw [(hno rfl).1, (hno rfl).2]
          exact Or.inl ⟨_, hmake, fun h => absurd h (by simp)⟩
        | true =>
          obtain ⟨x,hx,ho,hl⟩ := hyes rfl
          exact Or.inr ⟨x, hbooks [] l o x (by rw [hx]) ho hl⟩
      · generalize d.slice _ _ = rest at hr
        obtain ⟨ok,n,t,a,o,l,heq,hno,hyes⟩ := World.mqttEnqueue_eq {u with
          pendingMsgType := u.outboundType, pendingMsgId := id, pendingPublishQos := qos} rest
        rw [heq] at hr
        subst hr
        cases ok with
        | false =>
          rw [(hno rfl).1, (hno rfl).2]
          exact Or.inl ⟨⟨w.calls, w.connections, d.isNull⟩, hmake, fun h => absurd h (by simp)⟩
        | true =>
          obtain ⟨x,hx,ho,hl⟩ := hyes rfl
          exact Or.inr ⟨x, hbooks rest l o x (by rw [hx]) ho hl⟩
    · rename_i hstore
      subst hr
      rw [not_or] at hstore
      exact Or.inl ⟨_, hmake, fun _ => ⟨by omega, by simpa using hstore.2⟩⟩

/-- The beginning of a call that brings no settings. -/
theorem beginCall_ledger (w : World) (c : ApiCall) (seen : ℕ) (hc : ∀ s, c ≠ .setConfig s) :
    (w.beginCall c seen).ledger = {w.ledger with calls := w.calls+1} := by
  cases c with
  | setConfig s => exact absurd rfl (hc s)
  | _ => rfl

/-- What follows once every byte is out, in the books. -/
theorem published_ledger (w : World) (x : OutboxItem) (qos : ℕ) (hq : 0 < qos)
    (horigin : w.origin = x.origin) :
    ∃ tick, (w.published x.msgId qos).ledger = w.ledger.publishSent x tick := by
  unfold published
  rw [if_pos hq]
  extract_lets +onlyGivenNames v
  have hv : v.ledger = {w.ledger with sendPublishPacketCount :=
      if w.isV5 then w.sendPublishPacketCount+1 else w.sendPublishPacketCount} ∧
      v.origin = w.origin := by
    dsimp only [v]
    by_cases hv5 : w.isV5 = true
    · rw [if_pos hv5, if_pos hv5]
      exact ⟨rfl,rfl⟩
    · rw [if_neg hv5, if_neg hv5]
      exact ⟨rfl,rfl⟩
  clear_value v
  have ht := ledger_tick (v.noteTraffic (.sent v.origin.call x.msgId))
  generalize (v.noteTraffic (.sent v.origin.call x.msgId)).tick = t at ht ⊢
  refine ⟨t.1, ?_⟩
  change {t.2.ledger with
    outbox := (t.2.ledger.outbox.setTick x.msgId t.1).setPending x.msgId .transmitted} = _
  rw [ht]
  change {v.ledger with
    outbox := (v.ledger.outbox.setTick x.msgId t.1).setPending x.msgId .transmitted
    traffic := .sent v.origin.call x.msgId :: v.ledger.traffic} = _
  rw [hv.1, hv.2, horigin]
  rfl

theorem espMqttClientPublish_calls (hH : H.Calls) (w : World) (topic : Option (List UInt8)) (d : CData)
    (len : ℤ) (qos retain seen : ℕ) :
    ReflTransGen ApiMove w.ledger (espMqttClientPublish H topic d len qos retain
      (w.beginCall (.publish topic d len qos retain) seen)).2.ledger := by
  have hbegin := beginCall_ledger w (.publish topic d len qos retain) seen (fun s => by simp)
  have hcalls : (w.beginCall (.publish topic d len qos retain) seen).calls = w.calls+1 := rfl
  unfold espMqttClientPublish
  generalize w.beginCall (.publish topic d len qos retain) seen = v at hbegin hcalls ⊢
  have hidle : ReflTransGen ApiMove w.ledger v.ledger := by
    rw [hbegin]
    exact .single (.call w.origin)
  split
  · exact hidle
  · dsimp only
    split
    · exact hidle
    · generalize hr : v.mqttClientEnqueuePublish topic d (effectiveLen d len) qos retain false = r
      have hbooks := enqueuePublish_ledger v topic d (effectiveLen d len) qos retain false r hr
      obtain ⟨id,u⟩ := r
      -- composed and perhaps stored
      have hstored : ReflTransGen ApiMove w.ledger u.ledger := by
        rcases hbooks with ⟨o,hu,-⟩ | ⟨x,hx,-,ht,hq,hid,hu⟩
        · rw [hu, hbegin]
          exact .single (.call o)
        · rw [hu, hbegin]
          have hbox : v.outbox = w.outbox := congrArg Ledger.outbox hbegin
          exact .single (.publish x ⟨by rw [hx.handle, hbox]; rfl, hx.call.trans hcalls, hx.pending, hx.buffer⟩ ht
            (by rw [hq]; exact hid) hx.dup)
      cases id with
      | none => exact hstored
      | some id =>
        dsimp only
        split
        · exact hstored
        · rename_i hc
          have hconn : u.state = .connected := by simpa using hc
          split
          · exact hstored
          · rename_i hover
            obtain ⟨hsend,hok⟩ := sendPublish_calls hH d (effectiveLen d len) u (Or.inl hconn)
            generalize sendPublish H d (effectiveLen d len) u = r at hsend hok ⊢
            obtain ⟨ok,u'⟩ := r
            cases ok with
            | false => exact hstored.trans hsend
            | true =>
              -- all is written: nothing else has happened since the item was stored
              have hwrote := hok rfl
              refine (hstored.trans hsend).trans ?_
              by_cases hq : 0 < qos
              · rcases hbooks with ⟨o,-,hno⟩ | ⟨x,hx,hid,ht,hqos,-,hu⟩
                · have := (hno rfl).1
                  omega
                · obtain ⟨cs,hcs⟩ := hwrote
                  dsimp only at hcs hid hu
                  rw [Option.some.injEq] at hid
                  subst hid
                  have horigin : u'.origin = x.origin := by
                    rw [show u'.origin = u'.ledger.origin from rfl, hcs, hu]
                    rfl
                  obtain ⟨tick,htick⟩ := published_ledger u' x qos hq horigin
                  rw [htick]
                  refine .single (.published x tick ?_ hx.pending ht (by omega) ?_ ?_)
                  · rw [hcs, hu]
                    exact List.mem_append_right _ (List.mem_singleton.mpr rfl)
                  · rw [hcs]
                    exact Or.inl hconn
                  · rw [hcs]
                    intro hv
                    by_contra hle
                    exact hover ⟨hv, hq, Nat.le_of_not_lt hle⟩
              -- a QoS 0 message is not stored, so there is nothing to mark
              · have hsame : u'.published id qos = u' := by
                  unfold published
                  rw [if_neg hq]
                dsimp only
                rw [hsame]

theorem espMqttClientEnqueue_calls (w : World) (topic : Option (List UInt8)) (d : CData)
    (len : ℤ) (qos retain : ℕ) (store : Bool) (seen : ℕ) :
    ReflTransGen ApiMove w.ledger (espMqttClientEnqueue topic d len qos retain store
      (w.beginCall (.enqueue topic d len qos retain store) seen)).2.ledger := by
  have hbegin := beginCall_ledger w (.enqueue topic d len qos retain store) seen (fun s => by simp)
  have hcalls : (w.beginCall (.enqueue topic d len qos retain store) seen).calls = w.calls+1 := rfl
  unfold espMqttClientEnqueue
  generalize w.beginCall (.enqueue topic d len qos retain store) seen = v at hbegin hcalls ⊢
  split
  · rw [hbegin]
    exact .single (.call w.origin)
  · generalize hr : v.mqttClientEnqueuePublish topic d (effectiveLen d len) qos retain store = r
    have hbooks := enqueuePublish_ledger v topic d (effectiveLen d len) qos retain store r hr
    obtain ⟨id,u⟩ := r
    have hstored : ReflTransGen ApiMove w.ledger u.ledger := by
      rcases hbooks with ⟨o,hu,-⟩ | ⟨x,hx,-,ht,hq,hid,hu⟩
      · rw [hu, hbegin]
        exact .single (.call o)
      · rw [hu, hbegin]
        have hbox : v.outbox = w.outbox := congrArg Ledger.outbox hbegin
        exact .single (.publish x ⟨by rw [hx.handle, hbox]; rfl, hx.call.trans hcalls, hx.pending, hx.buffer⟩ ht
          (by rw [hq]; exact hid) hx.dup)
    cases id <;> exact hstored

theorem composeRequest_ledger (w : World) (type : MsgType) (seen : ℕ)
    (build : Connection → ℕ × Connection) : (w.composeRequest type seen build).ledger =
      {w.ledger with origin := ⟨w.calls, seen, true⟩} ∧
    (w.composeRequest type seen build).pendingPublishQos = w.pendingPublishQos := by
  unfold composeRequest
  by_cases hv : w.isV5 = true
  · simp only [if_pos hv]
    unfold composeNumbered composeMqtt5
    obtain ⟨a,l,h⟩ := w.askMqtt5_eq
    rw [h]
    exact ⟨rfl,rfl⟩
  · simp only [if_neg hv]
    exact ⟨rfl,rfl⟩

theorem Request.id_ne {c : ApiCall} {s : Site} {type : MsgType} {build : Connection → ℕ × Connection}
    (hreq : Request c s type build) (e : Connection) (h : (build e).2.outboundMessage.data ≠ []) :
    (build e).1 ≠ 0 := by
  have hdrawn := appendMessageId_ne e []
  cases hreq with
  | subscribe topics =>
    dsimp only [mqttMsgSubscribe] at h ⊢
    exact hdrawn.resolve_left fun hnone => h (by rw [hnone]; rfl)
  | unsubscribe topic =>
    unfold mqttMsgUnsubscribe at h ⊢
    split at h
    · exact absurd rfl h
    · exact absurd rfl h
    · exact hdrawn.resolve_left fun hnone => h (by dsimp only; rw [hnone]; rfl)

/-- A request that could be composed has an identifier. -/
theorem composeRequest_id {c : ApiCall} {s : Site} {type : MsgType}
    {build : Connection → ℕ × Connection} (hreq : Request c s type build) (w : World) (seen : ℕ)
    (h : (w.composeRequest type seen build).connection.outboundMessage.data ≠ []) :
    (w.composeRequest type seen build).pendingMsgId ≠ 0 := by
  unfold composeRequest at h ⊢
  by_cases hv : w.isV5 = true
  · simp only [if_pos hv] at h ⊢
    have hdata : (w.composeNumbered type 1 0).2.connection.outboundMessage.data ≠ [] := h
    have hid := composeNumbered_id w type 1 0 (by simpa [nothingComposed] using hdata)
    exact fun hz => absurd (hid.mp hz) (by decide)
  · simp only [if_neg hv] at h ⊢
    exact hreq.id_ne w.connection h

/-- A request stored, marked and written. -/
theorem storeAndSend_calls (hH : H.Calls) {c : ApiCall} {s : Site} {type : MsgType}
    {build : Connection → ℕ × Connection} (hreq : Request c s type build) (w : World) (seen : ℕ) :
    ReflTransGen ApiMove w.ledger (storeAndSend H s
      ((w.beginCall c seen).resetPendingMessage.composeRequest type seen build)).2.ledger := by
  have hcomposed := composeRequest_composed hreq (w.beginCall c seen).resetPendingMessage seen
  have hnumber := composeRequest_id hreq (w.beginCall c seen).resetPendingMessage seen
  obtain ⟨hbooks,hqos⟩ := composeRequest_ledger (w.beginCall c seen).resetPendingMessage type seen build
  generalize (w.beginCall c seen).resetPendingMessage.composeRequest type seen build = v
    at hcomposed hnumber hbooks hqos ⊢
  have hv : v.ledger = {w.ledger with calls := w.calls+1, origin := ⟨w.calls+1, seen, true⟩} := by
    rw [hbooks]
    have hbegin := beginCall_ledger w c seen (fun s => by cases hreq <;> simp)
    change {(w.beginCall c seen).ledger with origin := ⟨(w.beginCall c seen).calls, seen, true⟩} = _
    rw [hbegin]
    rfl
  have hcall : ReflTransGen ApiMove w.ledger v.ledger := by
    rw [hv]
    exact .single (.call _)
  unfold storeAndSend
  split
  · exact hcall
  · rename_i hsome
    have hdata : v.connection.outboundMessage.data ≠ [] := by simpa [nothingComposed] using hsome
    have htype : v.outboundType = some type := hcomposed.resolve_left hdata
    obtain ⟨ok,n,t,a,o,l,heq,hno,hyes⟩ :=
      World.mqttEnqueue_eq {v with pendingMsgType := v.outboundType} []
    rw [heq]
    cases ok with
    | false =>
      rw [(hno rfl).1, (hno rfl).2]
      exact hcall
    | true =>
      obtain ⟨x,hx,ho,hl⟩ := hyes rfl
      have hbox : v.outbox = w.outbox := congrArg Ledger.outbox hv
      have horigin : v.origin = ⟨w.calls+1, seen, true⟩ := congrArg Ledger.origin hv
      have hold : v.stored = w.stored := congrArg Ledger.stored hv
      have hfresh : w.ledger.Fresh x := by
        rw [hx]
        exact ⟨congrArg Outbox.nextHandle hbox, congrArg Provenance.call horigin, rfl,
          by simpa using hdata⟩
      -- stored and marked at once, before the request is written
      have hmarked : ReflTransGen ApiMove w.ledger {v with
          now := n, ticks := t, allocs := a, pendingMsgType := v.outboundType, stored := l
          outbox := o.setPending v.pendingMsgId .transmitted}.ledger := by
        refine .single ?_
        have hmove := ApiMove.request x hfresh (by rw [hx]; cases hreq <;> simp [htype])
          (by rw [hx]; exact hqos) (by rw [hx]; exact hnumber hdata)
        have hxid : x.msgId = v.pendingMsgId := by rw [hx]
        have hxo : x.origin = ⟨w.calls+1, seen, true⟩ := by
          rw [hx]
          exact horigin
        have hend : {v.ledger with stored := l, outbox := o.setPending v.pendingMsgId .transmitted} =
            {w.ledger.store x with
              outbox := (w.ledger.store x).outbox.setPending x.msgId .transmitted} := by
          rw [hv, hl, ho, hold, hxid, hbox]
          unfold Ledger.store
          rw [hxo]
          rfl
        rw [← hend] at hmove
        exact hmove
      dsimp only
      have hwrite := espMqttWrite_calls hH s true {v with
          now := n, ticks := t, allocs := a, pendingMsgType := v.outboundType, stored := l
          outbox := o.setPending v.pendingMsgId .transmitted}
        (fun hs => absurd hs (by cases hreq <;> decide))
      generalize espMqttWrite H s true _ = r at hwrite ⊢
      obtain ⟨ok,u⟩ := r
      cases ok <;> exact hmarked.trans hwrite

/-- Every call makes entries of the API. -/
theorem apiBody_calls (hH : H.Calls) (c : ApiCall) (seen : ℕ) (w : World) :
    ReflTransGen ApiMove w.ledger (apiBody H c seen w).2.ledger := by
  have hcall (hc : ∀ s, c ≠ .setConfig s) :
      ReflTransGen ApiMove w.ledger (w.beginCall c seen).ledger := by
    rw [beginCall_ledger w c seen hc]
    exact .single (.call w.origin)
  unfold apiBody
  cases c with
  | publish topic d len qos retain => exact espMqttClientPublish_calls hH w topic d len qos retain seen
  | enqueue topic d len qos retain store =>
    exact espMqttClientEnqueue_calls w topic d len qos retain store seen
  | subscribe topics =>
    dsimp only [espMqttClientSubscribe]
    split
    · exact hcall fun s => by simp
    · exact storeAndSend_calls hH (.subscribe topics) w seen
  | unsubscribe topic => exact storeAndSend_calls hH (.unsubscribe topic) w seen
  | disconnect => exact hcall fun s => by simp
  | reconnect =>
    dsimp only [espMqttClientReconnect]
    split
    · exact hcall fun s => by simp
    · exact hcall fun s => by simp
  | setConfig s => exact .single (.setConfig s)

theorem apiCall_calls (hH : H.Calls) (c : ApiCall) (w : World) :
    ReflTransGen ApiMove w.ledger (apiCall H c w).2.ledger := by
  unfold apiCall
  split
  · exact .refl
  · exact apiBody_calls hH c w.connections w

/-- So do the handlers, however deep their calls nest. -/
theorem handlerAt_calls (n : ℕ) : (handlerAt n).Calls :=
  handlerAt_induction (R := fun v u => ReflTransGen ApiMove v.ledger u.ledger) (fun _ => .refl)
    (fun h h' => h.trans h') (fun _ _ => .refl) (fun _ hH c w => apiCall_calls hH c w) n

end EspMqtt
