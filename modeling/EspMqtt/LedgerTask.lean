import EspMqtt.Library.KeyedList
import EspMqtt.LedgerApi
import EspMqtt.RunRules

/-! The entries that the worker makes, and with them those of every run. -/
namespace EspMqtt
open World Ledger Relation

variable {H : Handler} {w : World}

/-- An event of the worker, and then its handler. -/
theorem raise_task (hH : H.Calls) (w : World) (he : w.event.id = .error ∨ w.event.id = .disconnected ∨
    w.event.id = .connected ∨ w.event.id = .data ∨ w.event.id = .other) :
    ReflTransGen TaskMove w.ledger (dispatchEventWithMsgid H w).ledger := by
  obtain ⟨e,heq,hmoves⟩ := dispatchEventWithMsgid_calls hH w
  rw [← heq.1] at he
  exact .head (.event e he) (api_taskMoves hmoves)

/-- What is missing in an outbox that has not changed. -/
theorem Ledger.depart_self (L : Ledger) (reason : Removal) : L.depart reason L.outbox = L := by
  have hnone : (L.outbox.list.filter fun x => !L.outbox.list.any fun y => y.handle == x.handle) = [] :=
    KeyedList.missing_self L.outbox.list
  unfold Ledger.depart
  rw [hnone]
  rfl

/-! What is received. -/

theorem ledger_read (w : World) (n : ℕ) :
    {w with transport := (espTransportRead w.transport n).2}.ledger = w.ledger := by
  change {w.ledger with isOpen := (espTransportRead w.transport n).2.isOpen} = w.ledger
  rw [espTransportRead_isOpen]
  rfl

theorem ledger_received (w : World) (rx : RxState) :
    {w with transport := (mqttMessageReceive w.transport w.rx).2.1, rx := rx}.ledger = w.ledger := by
  change {w.ledger with isOpen := (mqttMessageReceive w.transport w.rx).2.1.isOpen} = w.ledger
  rw [mqttMessageReceive_isOpen]
  rfl

theorem ledger_hasTimedOut (w : World) (lastTick timeout : ℕ) :
    (w.hasTimedOut lastTick timeout).2.ledger = w.ledger := w.ledger_tick

theorem ledger_publishParts (w : World) : w.publishParts.2.ledger = w.ledger := by
  unfold publishParts
  split
  · exact w.ledger_askMqtt5
  · split
    · rfl
    · dsimp only
      split <;> rfl

theorem deliverRest_task (hH : H.Calls) (totalLen k readLen offset : ℕ) (w : World) :
    ReflTransGen TaskMove w.ledger (deliverRest H totalLen k readLen offset w).2.ledger := by
  induction k generalizing readLen offset w with
  | zero => exact .refl
  | succ k ih =>
    unfold deliverRest
    split
    · have hread := ledger_read w (min w.rx.inBufferLength (totalLen-readLen))
      generalize espTransportRead w.transport (min w.rx.inBufferLength (totalLen-readLen)) = r at hread ⊢
      obtain ⟨res,t⟩ := r
      dsimp only at hread ⊢
      rw [← hread]
      cases res with
      | bytes bs =>
        dsimp only
        refine .trans ?_ (ih _ _ _)
        exact .head (.event _ (by simp)) (api_taskMoves (hH {w with
          transport := t
          rx := {w.rx with inBuffer := ByteBuffer.splice w.rx.inBuffer 0 bs}
          event := {w.event with
            id := .data, data := some bs, dataLen := bs.length, currentDataOffset := offset
            topic := none, topicLen := 0}
          events := {w.event with
            id := .data, data := some bs, dataLen := bs.length, currentDataOffset := offset
            topic := none, topicLen := 0} :: w.events}))
      | timeout => exact .refl
      | fin => exact api_taskMoves (dispatchTransportError_calls hH {w with transport := t})
      | error => exact api_taskMoves (dispatchTransportError_calls hH {w with transport := t})
    · exact .refl

theorem deliverPublish_task (hH : H.Calls) (w : World) :
    ReflTransGen TaskMove w.ledger (World.deliverPublish H w).2.ledger := by
  unfold World.deliverPublish
  have hparts := ledger_publishParts w
  generalize w.publishParts = p at hparts ⊢
  obtain ⟨parts,v⟩ := p
  dsimp only at hparts ⊢
  rw [← hparts]
  cases parts with
  | none => exact .refl
  | some parts =>
    obtain ⟨topic,offset,len⟩ := parts
    dsimp only
    generalize hu : ({v with event := _} : World) = u
    have hbooks : u.ledger = v.ledger := by
      rw [← hu]
      rfl
    have hid : u.event.id = .data := by
      rw [← hu]
    have hraise : ReflTransGen TaskMove v.ledger (dispatchEvent H u).ledger := by
      rw [← hbooks]
      exact .head (.event u.event (by simp [hid])) (api_taskMoves (hH {u with
        events := u.event :: u.events}))
    exact hraise.trans (deliverRest_task hH _ _ _ _ _)

/-- `remove_initiator_message` in the books: the item goes, or nothing does. What has been
received is untouched, and with it the identifier that the event is to have. -/
theorem removeInitiatorMessage_ledger (w : World) (type : MsgType) (msgId : ℕ) :
    (∃ x : OutboxItem, x.msgId = msgId ∧
      w.outbox.list.find? (fun i => i.msgId == x.msgId && i.msgType == some type) = some x ∧
      ∃ v, w.removeInitiatorMessage type msgId = (true, v) ∧
        (∀ e : MqttEvent, e.msgId = w.receivedId w.rx.inBufferLength →
          v.ledger = {w.ledger.depart (.acked (ackEvent type)) (w.outbox.delete x.msgId type).2 with
            strayAcks := w.ledger.strayed x e}) ∧
        v.isV5 = w.isV5 ∧ v.rx = w.rx) ∨
    (w.outbox.list.find? (fun i => i.msgId == msgId && i.msgType == some type) = none ∧
      (w.removeInitiatorMessage type msgId).1 = false ∧
      (w.removeInitiatorMessage type msgId).2.ledger = w.ledger) := by
  unfold removeInitiatorMessage Outbox.delete Outbox.removeFirst
  cases hf : w.outbox.list.find? (fun i => i.msgId == msgId && i.msgType == some type) with
  | none =>
    refine Or.inr ⟨rfl, rfl, ?_⟩
    dsimp only
    rw [if_neg (by simp)]
    exact w.ledger.depart_self _
  | some x =>
    have hid : x.msgId = msgId := by
      have hp := List.find?_some hf
      simp only [Bool.and_eq_true, beq_iff_eq] at hp
      exact hp.1
    refine Or.inl ⟨x, hid, ?_, _, rfl, fun e he => ?_, rfl, rfl⟩
    · rw [hid]
      exact hf
    · have hstray : (if true = true ∧ w.receivedId w.rx.inBufferLength ≠ msgId then w.strayAcks+1
          else w.strayAcks) = w.ledger.strayed x e := by
        unfold Ledger.strayed
        rw [he, hid]
        by_cases hsame : w.receivedId w.rx.inBufferLength = msgId
        · rw [if_pos (congrArg Nat.cast hsame), if_neg fun h => h.2 hsame]
          rfl
        · rw [if_neg fun h => hsame (Int.ofNat_inj.mp h), if_pos ⟨rfl,hsame⟩]
          rfl
      rw [hid, hf]
      dsimp only
      rw [← hstray]
      rfl

theorem World.rx_askMqtt5 (w : World) : w.askMqtt5.2.rx = w.rx := by
  obtain ⟨a,l,h⟩ := w.askMqtt5_eq
  rw [h]

/-- The identifier of an event depends on nothing but the buffer. -/
theorem receivedId_eq {v w : World} (h5 : v.isV5 = w.isV5) (hrx : v.rx = w.rx) :
    (v.receivedId v.rx.inBufferLength : ℤ) = w.receivedId w.rx.inBufferLength := by
  unfold receivedId
  rw [h5, hrx]

theorem finishPublish_task (hH : H.Calls) (msgId : ℕ) (w : World) (hs : w.state = .connected) :
    ReflTransGen TaskMove w.ledger (finishPublish H msgId w).ledger := by
  unfold finishPublish
  rcases removeInitiatorMessage_ledger w .publish msgId with ⟨x,rfl,hx,v,hr,hbooks,h5,hrx⟩ | ⟨hx,hok,hr⟩
  · rw [hr]
    dsimp only
    generalize hu : (if (v.noteTraffic (.acked x.msgId)).isV5 then
        {v.noteTraffic (.acked x.msgId) with
          sendPublishPacketCount := (v.noteTraffic (.acked x.msgId)).sendPublishPacketCount-1}
      else v.noteTraffic (.acked x.msgId)) = u
    have hcounted : u.ledger = {v.ledger.note (.acked x.msgId) with sendPublishPacketCount :=
        if v.ledger.isV5 then v.ledger.sendPublishPacketCount-1 else v.ledger.sendPublishPacketCount} := by
      rw [← hu]
      change (if v.isV5 then _ else _ : World).ledger = {v.ledger.note (.acked x.msgId) with
        sendPublishPacketCount := if v.isV5 then v.sendPublishPacketCount-1 else v.sendPublishPacketCount}
      split <;> rfl
    have hsame : u.isV5 = v.isV5 ∧ u.rx = v.rx := by
      rw [← hu]
      split <;> exact ⟨rfl,rfl⟩
    unfold dispatchPlain
    obtain ⟨e,he,hmoves⟩ := dispatchEventWithMsgid_calls hH {u with event :=
      {u.event with id := .published}}
    have hid : e.msgId = w.receivedId w.rx.inBufferLength :=
      he.2.trans (receivedId_eq (hsame.1.trans h5) (hsame.2.trans hrx))
    have hend : ({u with event := {u.event with id := .published}} : World).ledger = u.ledger := rfl
    rw [hend, hcounted, hbooks e hid] at hmoves
    exact .head (.finished x e hs hx he.1) (api_taskMoves hmoves)
  · generalize w.removeInitiatorMessage .publish msgId = r at hok hr ⊢
    obtain ⟨ok,v⟩ := r
    subst hok
    change ReflTransGen TaskMove w.ledger (v.ledger.note (.acked msgId))
    rw [hr]
    exact .single (.unknown msgId hs hx)

/-- A SUBACK that has found its request. -/
theorem deliverSuback_task (hH : H.Calls) (w v : World) (x : OutboxItem)
    (hx : w.outbox.list.find? (fun i => i.msgId == x.msgId && i.msgType == some .subscribe) = some x)
    (hbooks : ∀ e : MqttEvent, e.msgId = w.receivedId w.rx.inBufferLength →
      v.ledger = {w.ledger.depart (.acked .subscribed) (w.outbox.delete x.msgId .subscribe).2 with
        strayAcks := w.ledger.strayed x e})
    (h5 : v.isV5 = w.isV5) (hrx : v.rx = w.rx) :
    ReflTransGen TaskMove w.ledger (deliverSuback H v).2.ledger := by
  unfold deliverSuback
  extract_lets +onlyGivenNames a r
  have hr : r.2.ledger = v.ledger ∧ r.2.rx = v.rx := by
    dsimp only [r]
    split
    · exact ⟨v.ledger_askMqtt5, v.rx_askMqtt5⟩
    · exact ⟨rfl,rfl⟩
  clear_value r
  split
  · change ReflTransGen TaskMove w.ledger {r.2.ledger with emptySubacks := r.2.ledger.emptySubacks+1}
    rw [hr.1, hbooks {r.2.event with msgId := w.receivedId w.rx.inBufferLength} rfl]
    exact .single (.unreported x _ hx)
  · dsimp only
    generalize hu : ({r.2 with event := _} : World) = u
    have hub : u.ledger = r.2.ledger ∧ u.rx = r.2.rx := by
      rw [← hu]
      exact ⟨rfl,rfl⟩
    have hid : u.event.id = .subscribed := by
      rw [← hu]
    obtain ⟨e,he,hmoves⟩ := dispatchEventWithMsgid_calls hH u
    have hmsgId : e.msgId = w.receivedId w.rx.inBufferLength :=
      he.2.trans (receivedId_eq ((congrArg Ledger.isV5 (hub.1.trans hr.1)).trans h5)
        ((hub.2.trans hr.2).trans hrx))
    rw [hub.1, hr.1, hbooks e hmsgId] at hmoves
    exact .head (.answered .subscribe x e (Or.inl rfl) hx (he.1.trans hid)) (api_taskMoves hmoves)

/-- An UNSUBACK that has found its request. -/
theorem unsuback_task (hH : H.Calls) (w v : World) (x : OutboxItem)
    (hx : w.outbox.list.find? (fun i => i.msgId == x.msgId && i.msgType == some .unsubscribe) = some x)
    (hbooks : ∀ e : MqttEvent, e.msgId = w.receivedId w.rx.inBufferLength →
      v.ledger = {w.ledger.depart (.acked .unsubscribed) (w.outbox.delete x.msgId .unsubscribe).2 with
        strayAcks := w.ledger.strayed x e})
    (h5 : v.isV5 = w.isV5) (hrx : v.rx = w.rx) :
    ReflTransGen TaskMove w.ledger (dispatchPlain H .unsubscribed v).ledger := by
  unfold dispatchPlain
  obtain ⟨e,he,hmoves⟩ := dispatchEventWithMsgid_calls hH {v with event :=
    {v.event with id := .unsubscribed}}
  have hmsgId : e.msgId = w.receivedId w.rx.inBufferLength := he.2.trans (receivedId_eq h5 hrx)
  have hend : ({v with event := {v.event with id := .unsubscribed}} : World).ledger = v.ledger := rfl
  rw [hend, hbooks e hmsgId] at hmoves
  exact .head (.answered .unsubscribe x e (Or.inr rfl) hx he.1) (api_taskMoves hmoves)

theorem compose_ledger (w : World) (type : MsgType) (qos : ℕ) (build : Connection → Connection) :
    (w.compose type qos build).ledger =
      {w.ledger with origin := ⟨w.calls, w.connections, true⟩} := by
  unfold compose
  split
  · unfold composeMqtt5
    obtain ⟨a,l,h⟩ := w.askMqtt5_eq
    rw [h]
    rfl
  · rfl

/-- A reply: composed, and what `before` does, and written. -/
theorem reply_task (hH : H.Calls) (s : Site) (type : MsgType) (qos : ℕ)
    (build : Connection → Connection) (before : World → World)
    (hbefore : ∀ v, ReflTransGen TaskMove v.ledger (before v).ledger) (w : World)
    (hs : s ≠ .resend := by decide) :
    ReflTransGen TaskMove w.ledger (reply H s type qos build before w).2.ledger := by
  have hcomposed : ReflTransGen TaskMove w.ledger (w.compose type qos build).ledger := by
    rw [compose_ledger]
    exact .single (.origin _)
  unfold reply
  dsimp only
  generalize w.compose type qos build = v at hcomposed ⊢
  split
  · exact hcomposed
  · exact (hcomposed.trans (hbefore v)).trans (api_taskMoves (espMqttWrite_calls hH s true (before v)
      fun hr => absurd hr hs))

theorem processMessage_task (hH : H.Calls) (w : World) (hs : w.state = .connected) :
    ReflTransGen TaskMove w.ledger (processMessage H w).2.ledger := by
  unfold processMessage
  extract_lets +onlyGivenNames type qos msgId
  clear_value type qos msgId
  split
  · rcases removeInitiatorMessage_ledger w .subscribe msgId with ⟨x,rfl,hx,u,hr,hbooks,h5,hrx⟩ | ⟨-,hok,hr⟩
    · rw [hr]
      exact deliverSuback_task hH w u x hx hbooks h5 hrx
    · generalize w.removeInitiatorMessage .subscribe msgId = r at hok hr ⊢
      obtain ⟨ok,u⟩ := r
      subst hok
      exact hr ▸ .refl
  · rcases removeInitiatorMessage_ledger w .unsubscribe msgId with ⟨x,rfl,hx,u,hr,hbooks,h5,hrx⟩ | ⟨-,hok,hr⟩
    · rw [hr]
      exact unsuback_task hH w u x hx hbooks h5 hrx
    · generalize w.removeInitiatorMessage .unsubscribe msgId = r at hok hr ⊢
      obtain ⟨ok,u⟩ := r
      subst hok
      exact hr ▸ .refl
  · have hdelivered := deliverPublish_task hH w
    generalize World.deliverPublish H w = r at hdelivered ⊢
    obtain ⟨ok,u⟩ := r
    cases ok with
    | false => exact hdelivered
    | true =>
      dsimp only at hdelivered ⊢
      split
      · exact hdelivered.trans (reply_task hH .puback .puback 0 _ id (fun _ => .refl) u)
      · split
        · exact hdelivered.trans (reply_task hH .pubrec .pubrec 0 _ id (fun _ => .refl) u)
        · exact hdelivered
  · exact finishPublish_task hH msgId w hs
  · exact reply_task hH .pubrel .pubrel 1 _ _ (fun u => .single (.acknowledged msgId)) w
  · exact reply_task hH .pubcomp .pubcomp 0 _ id (fun _ => .refl) w
  · exact finishPublish_task hH msgId w hs
  · have ht := ledger_tick {w with waitForPingResp := false}
    change ReflTransGen TaskMove w.ledger {w with waitForPingResp := false}.tick.2.ledger
    rw [ht]
    exact .refl
  · split
    · exact raise_task hH {w with event := {w.event with id := .disconnected}} (by simp)
    · exact .refl
  · exact .refl

theorem mqttProcessReceive_task (hH : H.Calls) (w : World) (hs : w.state = .connected) :
    ReflTransGen TaskMove w.ledger (mqttProcessReceive H w).2.ledger := by
  unfold mqttProcessReceive
  extract_lets +onlyGivenNames previous r v
  have hv : v.ledger = w.ledger := ledger_received w r.2.2
  have hvs : v.state = .connected := (congrArg Ledger.state hv).trans hs
  rw [← hv]
  clear_value v
  split
  · exact .refl
  · exact .refl
  · exact api_taskMoves (dispatchTransportError_calls hH v)
  · have hmessage := processMessage_task hH v hvs
    dsimp only
    generalize processMessage H v = m at hmessage ⊢
    obtain ⟨ok,u⟩ := m
    cases ok <;> exact hmessage

/-! What is sent from the outbox. -/

/-- A write that comes to an end through an open transport, or has nothing to send. -/
theorem isOpen_of_writeOutcome (h : w.writeOutcome.1 = .ok) :
    w.connection.outboundMessage.data = [] ∨ w.transport.isOpen = true := by
  by_cases ho : w.transport.isOpen = true
  · exact Or.inr ho
  · have hsent : w.writeOutcome.2.1 = w.connection.outboundMessage.data.length :=
      writeLoop_ok _ _ _ (Nat.le_refl _) h
    have hnone : w.writeOutcome.2.1 = 0 := writeLoop_closed _ _ _ (by simpa using ho)
    exact Or.inl (List.length_eq_zero_iff.mp (hsent.symm.trans hnone))

/-- The DUP bit is set in the stored copy of a PUBLISH that was sent before. -/
def World.resendOutbox (w : World) (x : OutboxItem) : Outbox :=
  if (x.msgType == some .publish && decide (0 < x.msgQos) && x.pending == .transmitted) = true then
    w.outbox.setDup x.handle
  else w.outbox

/-- A packet that went out again, whole. -/
structure Resent (w : World) (x : OutboxItem) (v : World) : Prop where
  books : ∃ c : Chunk, v.ledger = {w.ledger with
      origin := x.origin, outbox := w.resendOutbox x, wire := c :: w.wire} ∧
    c.sent = c.data.length ∧ c.origin = x.origin ∧
    (x.pending = .queued → c.data = x.buffer ∧ (x.buffer = [] ∨ w.transport.isOpen = true))
  msgId : v.pendingMsgId = x.msgId
  msgType : v.pendingMsgType = x.msgType
  qos : v.pendingPublishQos = x.msgQos

/-- What is written is the stored copy, as it stands by then. -/
theorem resends_of_resendOutbox {x : OutboxItem} (hx : x ∈ w.outbox.list)
    (hp : x.pending = .queued ∨ x.pending = .transmitted) {L : Ledger} {c : Chunk}
    (hbox : L.outbox = w.resendOutbox x) (horigin : c.origin = x.origin)
    (hdata : c.data = if x.isRepeat then mqttSetDup x.buffer else x.buffer) : L.Resends c := by
  unfold Ledger.Resends
  rw [hbox]
  unfold World.resendOutbox
  split
  · rename_i hd
    have hrepeat : x.isRepeat = true := hd
    rcases Outbox.modifyFirst_mem (p := fun i => i.handle == x.handle)
      (f := fun i => {i with buffer := mqttSetDup i.buffer}) hx with hy | hy
    · exact ⟨x, hy, hp, horigin, hdata⟩
    · refine ⟨_, hy, hp, horigin, hdata.trans ?_⟩
      have hrepeat' : ({x with buffer := mqttSetDup x.buffer} : OutboxItem).isRepeat = true := hrepeat
      rw [if_pos hrepeat, if_pos hrepeat', mqttSetDup_twice]
  · exact ⟨x, hx, hp, horigin, hdata⟩

theorem mqttResendQueued_task (hH : H.Calls) (x : OutboxItem) (w : World) (hx : x ∈ w.outbox.list)
    (hp : x.pending = .queued ∨ x.pending = .transmitted) :
    (ReflTransGen TaskMove w.ledger (mqttResendQueued H x w).2.ledger ∨
      ∃ v, ReflTransGen TaskMove w.ledger v.ledger ∧
        (mqttResendQueued H x w).2 = espMqttAbortConnection H v) ∧
    ((mqttResendQueued H x w).1 = true → Resent w x (mqttResendQueued H x w).2) := by
  unfold mqttResendQueued
  extract_lets +onlyGivenNames dup v u
  have hu : u.ledger = {w.ledger with origin := x.origin, outbox := w.resendOutbox x} ∧
      u.pendingMsgId = x.msgId ∧ u.pendingMsgType = x.msgType ∧ u.pendingPublishQos = x.msgQos ∧
      u.transport = w.transport ∧
      u.connection.outboundMessage.data = if x.isRepeat then mqttSetDup x.buffer else x.buffer := by
    dsimp only [u, v]
    unfold World.resendOutbox
    by_cases hd : dup = true
    · have hd' : x.isRepeat = true := hd
      rw [if_pos hd, if_pos hd, if_pos hd, if_pos hd']
      exact ⟨rfl, rfl, rfl, rfl, rfl, rfl⟩
    · have hd' : ¬ x.isRepeat = true := hd
      rw [if_neg hd, if_neg hd, if_neg hd, if_neg hd']
      exact ⟨rfl, rfl, rfl, rfl, rfl, rfl⟩
  have hqueued (hq : x.pending = .queued) : u.connection.outboundMessage.data = x.buffer := by
    rw [hu.2.2.2.2.2, if_neg]
    unfold OutboxItem.isRepeat
    rw [hq]
    simp
  have hloaded : ReflTransGen TaskMove w.ledger u.ledger := by
    rw [hu.1]
    refine .head (.origin x.origin) ?_
    unfold World.resendOutbox
    split
    · rename_i hd
      exact .single (.dup x.handle ⟨x, hx, rfl, hd⟩)
    · exact .refl
  clear_value u
  have hcalls := espMqttWrite_calls hH .resend true u fun _ =>
    resends_of_resendOutbox hx hp (congrArg Ledger.outbox hu.1) (congrArg Ledger.origin hu.1) hu.2.2.2.2.2
  have hwritten := espMqttWrite_ok (H := H) (w := u) (s := .resend) (f := true)
  generalize espMqttWrite H .resend true u = r at hcalls hwritten ⊢
  obtain ⟨ok,u'⟩ := r
  cases ok with
  | false =>
    exact ⟨Or.inr ⟨u', hloaded.trans (api_taskMoves hcalls), rfl⟩, fun h => absurd h (by simp)⟩
  | true =>
    refine ⟨Or.inl (hloaded.trans (api_taskMoves hcalls)), fun _ => ?_⟩
    obtain ⟨heq,hok⟩ := hwritten rfl
    dsimp only at heq ⊢
    rw [heq]
    refine ⟨⟨u.chunk .resend true, ?_, ?_, ?_, fun hp => ⟨hqueued hp, ?_⟩⟩, hu.2.1, hu.2.2.1,
      hu.2.2.2.1⟩
    · rw [ledger_recordWrite, hu.1]
      rfl
    · exact writeLoop_ok _ _ _ (Nat.le_refl _) hok
    · exact congrArg Ledger.origin hu.1
    · have hopen := isOpen_of_writeOutcome hok
      rw [hqueued hp, hu.2.2.2.2.1] at hopen
      exact hopen

/-- Either way the worker goes on in the books. -/
theorem resend_moves (hH : H.Calls) (x : OutboxItem) (w : World) (hx : x ∈ w.outbox.list)
    (hp : x.pending = .queued ∨ x.pending = .transmitted) :
    ReflTransGen Move w.ledger (mqttResendQueued H x w).2.ledger := by
  rcases (mqttResendQueued_task hH x w hx hp).1 with h | ⟨v,h,heq⟩
  · exact task_moves h
  · obtain ⟨e,he,hmoves⟩ := espMqttAbortConnection_raises hH v
    rw [heq]
    exact (task_moves h).trans (.head .abort (.head (.task (.event e (by simp [he])))
      (task_moves (api_taskMoves hmoves))))

theorem espMqttAbortConnection_moves (hH : H.Calls) (w : World) :
    ReflTransGen Move w.ledger (espMqttAbortConnection H w).ledger := by
  obtain ⟨e,he,hmoves⟩ := espMqttAbortConnection_raises hH w
  exact .head .abort (.head (.task (.event e (by simp [he]))) (task_moves (api_taskMoves hmoves)))

/-- The item that is to be sent next is queued, and there is quota for it. -/
theorem nextQueued_spec {x : OutboxItem} (h : w.nextQueued = some x) :
    x ∈ w.outbox.list ∧ x.pending = .queued ∧
      (x.msgType = some .publish → 0 < x.msgQos → w.ledger.HasQuota) := by
  unfold nextQueued at h
  split at h
  · simp at h
  · rename_i y hy
    have hqueued : y.pending = .queued := by simpa using List.find?_some hy
    split at h
    · unfold queuedQos0 at h
      obtain ⟨hget,hf⟩ := Option.filter_eq_some_iff.mp h
      simp only [Bool.and_eq_true, beq_iff_eq] at hf
      exact ⟨List.mem_of_find?_eq_some hget, hf.1.1, fun _ hq => absurd hf.2 (by omega)⟩
    · rename_i hno
      rw [Option.some.injEq] at h
      subst h
      refine ⟨List.mem_of_find?_eq_some hy, hqueued, fun ht hq hv => ?_⟩
      by_contra hle
      exact hno ⟨hv, Nat.le_of_not_lt hle, ht, hq⟩

theorem sendQueued_moves (hH : H.Calls) (x : OutboxItem) (w : World) (h : w.nextQueued = some x)
    (hup : w.ledger.Up) : ReflTransGen Move w.ledger (sendQueued H x w).ledger := by
  obtain ⟨hx,hqueued,hquota⟩ := nextQueued_spec h
  have hmoves := resend_moves hH x w hx (Or.inl hqueued)
  have hresent := (mqttResendQueued_task hH x w hx (Or.inl hqueued)).2
  unfold sendQueued
  generalize mqttResendQueued H x w = r at hmoves hresent ⊢
  obtain ⟨ok,v⟩ := r
  cases ok with
  | false => exact hmoves
  | true =>
    refine hmoves.trans ?_
    obtain ⟨⟨c,hbooks,hsent,horigin,hwire⟩,hid,htype,hqos⟩ := hresent rfl
    obtain ⟨hdata,hopen⟩ := hwire hqueued
    have hbox : w.resendOutbox x = w.outbox := by
      unfold World.resendOutbox
      rw [if_neg (by simp [hqueued])]
    rw [hbox] at hbooks
    have hmem : x ∈ v.ledger.outbox.list := by
      rw [hbooks]
      exact hx
    dsimp only at hbooks hid htype hqos hmem ⊢
    -- a QoS 0 message is deleted once it is out, the others are marked
    split
    · rename_i hzero
      exact .single (.task (.sentQos0 x hmem (htype.symm.trans hzero.1) (hqos.symm.trans hzero.2)
        ⟨c, by rw [hbooks]; exact List.mem_cons_self, hdata, hsent, horigin⟩))
    · rename_i hnot
      by_cases hp : v.pendingMsgType = some .publish
      · -- a PUBLISH with QoS 1 or 2
        have hpub : x.msgType = some .publish := htype.symm.trans hp
        have hq : 0 < x.msgQos := by
          rw [← hqos]
          exact Nat.pos_of_ne_zero fun hz => hnot ⟨hp,hz⟩
        rw [if_pos hp]
        have ht := ledger_tick (v.noteTraffic (.sent v.origin.call v.pendingMsgId))
        have hkept : (v.noteTraffic (.sent v.origin.call v.pendingMsgId)).tick.2.pendingMsgId = x.msgId ∧
            (v.noteTraffic (.sent v.origin.call v.pendingMsgId)).tick.2.pendingMsgType = some .publish := by
          obtain ⟨n,l,hn⟩ := World.tick_eq (v.noteTraffic (.sent v.origin.call v.pendingMsgId))
          rw [hn]
          exact ⟨hid,hp⟩
        generalize (v.noteTraffic (.sent v.origin.call v.pendingMsgId)).tick = t at ht hkept ⊢
        rw [hkept.1]
        have hvo : v.origin = x.origin := congrArg Ledger.origin hbooks
        rw [hvo, hid] at ht
        have hsaved : {t.2.ledger with
            outbox := (t.2.ledger.outbox.setTick x.msgId t.1).setPending x.msgId .transmitted
            sendPublishPacketCount := if t.2.ledger.isV5 then t.2.ledger.sendPublishPacketCount+1
              else t.2.ledger.sendPublishPacketCount} = v.ledger.publishSent x t.1 := by
          rw [ht]
          rfl
        have hmove : Move v.ledger (v.ledger.publishSent x t.1) := by
          refine .task (.api (.published x t.1 hmem hqueued hpub hq ?_ ?_))
          · rw [hbooks]
            exact Or.inr ⟨hup, hopen⟩
          · rw [hbooks]
            exact hquota hpub hq
        rw [← hsaved] at hmove
        -- only a v5 client counts what it has out
        split
        · rename_i hv
          have hv5 : t.2.ledger.isV5 = true := hv.2
          rw [if_pos hv5] at hmove
          exact .single hmove
        · rename_i hv
          have hv5 : ¬ t.2.ledger.isV5 = true := fun h5 => hv ⟨hkept.2, h5⟩
          rw [if_neg hv5] at hmove
          exact .single hmove
      -- a request
      · rw [if_neg hp]
        have ht := ledger_tick v
        have hkept : v.tick.2.pendingMsgId = x.msgId ∧ v.tick.2.pendingMsgType ≠ some .publish := by
          obtain ⟨n,l,hn⟩ := v.tick_eq
          rw [hn]
          exact ⟨hid,hp⟩
        generalize v.tick = t at ht hkept ⊢
        rw [hkept.1, if_neg (fun hc => hkept.2 hc.1)]
        have hmove := Move.task (TaskMove.sentRequest x t.1 hmem (fun hpub => hp (htype.trans hpub)))
        rw [← ht] at hmove ⊢
        exact .single hmove

/-- The periodic retransmission. -/
theorem retransmit_moves (hH : H.Calls) (w : World) :
    ReflTransGen Move w.ledger (retransmit H w).ledger := by
  unfold retransmit
  extract_lets +onlyGivenNames t t' v u
  have hv : v.ledger = w.ledger := w.ledger_tick
  rw [← hv]
  clear_value v
  have hu : ReflTransGen Move v.ledger u.ledger := by
    dsimp only [u]
    split
    · rename_i x hx
      unfold overdue at hx
      have hfound := Option.eq_some_of_filter_eq_some hx
      have hmem : x ∈ v.outbox.list := List.mem_of_find?_eq_some hfound
      have hpending : x.pending = .transmitted := by simpa using List.find?_some hfound
      have hmoves := resend_moves hH x v hmem (Or.inr hpending)
      have hresent := (mqttResendQueued_task hH x v hmem (Or.inr hpending)).2
      generalize mqttResendQueued H x v = r at hmoves hresent ⊢
      split
      · rename_i hc
        obtain ⟨⟨c,hbooks,-⟩,-⟩ := hresent hc.1
        -- the stored copy may have its DUP bit set by now
        obtain ⟨y,hy,hyp,hyt,hyq,hyo,hyid⟩ : ∃ y ∈ (v.resendOutbox x).list, y.pending = .transmitted ∧
            y.msgType = some .publish ∧ 0 < y.msgQos ∧ y.origin = x.origin ∧ y.msgId = x.msgId := by
          unfold World.resendOutbox
          split
          · rcases Outbox.modifyFirst_mem (p := fun i => i.handle == x.handle)
              (f := fun i => {i with buffer := mqttSetDup i.buffer}) hmem with hy | hy
            · exact ⟨x, hy, hpending, hc.2.1, hc.2.2, rfl, rfl⟩
            · exact ⟨_, hy, hpending, hc.2.1, hc.2.2, rfl, rfl⟩
          · exact ⟨x, hmem, hpending, hc.2.1, hc.2.2, rfl, rfl⟩
        refine hmoves.tail ?_
        have hmove := Move.task (TaskMove.resent (L := r.2.ledger) y (by rw [hbooks]; exact hy) hyp hyt hyq)
        rw [hyo, hyid] at hmove
        exact hmove
      · exact hmoves
    · exact .refl
  clear_value u
  split
  · rename_i x hx
    refine hu.trans ?_
    unfold mqttResendPubrel
    extract_lets +onlyGivenNames y r
    have hy : ReflTransGen Move u.ledger y.ledger := .single (.task (.origin x.origin))
    have hreply : ReflTransGen Move y.ledger r.2.ledger :=
      task_moves (reply_task hH .resendPubrel .pubrel 1 _ id (fun _ => .refl) y)
    clear_value r
    split
    · exact (hy.trans hreply).trans (espMqttAbortConnection_moves hH r.2)
    · exact hy.trans hreply
  · exact hu

theorem taskSend_moves (hH : H.Calls) (w : World) (hup : w.ledger.Up) :
    ReflTransGen Move w.ledger (taskSend H w).ledger := by
  unfold taskSend
  split
  · rename_i x hx
    exact sendQueued_moves hH x w hx hup
  · have ht := ledger_hasTimedOut w w.lastRetransmit w.config.messageRetransmitTimeout
    generalize w.hasTimedOut w.lastRetransmit w.config.messageRetransmitTimeout = r at ht ⊢
    obtain ⟨timedOut,v⟩ := r
    dsimp only at ht
    rw [← ht]
    cases timedOut with
    | true => exact retransmit_moves hH v
    | false => exact .refl

/-! What expires. -/

theorem deleteExpiredLoop_moves (hH : H.Calls) (k : ℕ) (w : World) :
    ReflTransGen Move w.ledger (deleteExpiredLoop H k w).ledger := by
  induction k generalizing w with
  | zero => exact .refl
  | succ k ih =>
    unfold deleteExpiredLoop
    rw [← w.ledger_tick]
    dsimp only [Outbox.deleteSingleExpired, Outbox.removeFirst]
    generalize hp : (fun i : OutboxItem =>
      decide ((w.tick.2.config.outboxExpiredTimeoutMs : ℤ) < (w.tick.1 : ℤ)-i.tick)) = p
    generalize w.tick.2 = v
    cases hf : v.outbox.list.find? p with
    | none => exact .refl
    | some x =>
      dsimp only [Option.map_some]
      refine .trans ?_ (ih _)
      generalize hu : ({World.depart v .expired _ with event := _} : World) = u
      have hbooks : u.ledger = v.ledger.depart .expired (v.outbox.removeFirst p).2 := by
        rw [← hu]
        unfold Outbox.removeFirst
        rw [hf]
        rfl
      have hid : u.event.id = .deleted := by
        rw [← hu]
      have hmsgId : u.event.msgId = x.msgId := by
        rw [← hu]
      have hmove := TaskMove.expired (L := v.ledger) p x u.event hf hid hmsgId
      have hraised : {u with events := u.event :: u.events}.ledger =
          (v.ledger.depart .expired (v.outbox.removeFirst p).2).raise u.event := by
        rw [← hbooks]
        rfl
      have hhandler := hH {u with events := u.event :: u.events}
      rw [hraised] at hhandler
      exact .head (.task hmove) (task_moves (api_taskMoves hhandler))

theorem mqttDeleteExpiredMessages_moves (hH : H.Calls) (w : World) :
    ReflTransGen Move w.ledger (mqttDeleteExpiredMessages H w).ledger := by
  unfold mqttDeleteExpiredMessages
  split
  · exact deleteExpiredLoop_moves hH _ w
  · rename_i hr
    have hreport : w.tick.2.ledger.reportDeleted = false := by
      rw [ledger_tick]
      exact eq_false_of_ne_true hr
    rw [← w.ledger_tick]
    exact .single (.task (.expiredAll _ hreport))

/-! Connecting. -/

theorem connackLoop_ledger (started k : ℕ) (w : World) :
    (connackLoop started k w).2.ledger = w.ledger := by
  induction k generalizing w with
  | zero => rfl
  | succ k ih =>
    unfold connackLoop
    extract_lets +onlyGivenNames r v
    have hv : v.ledger = w.ledger := ledger_received w r.2.2
    clear_value v
    rw [← hv]
    split
    · have ht := v.ledger_tick
      dsimp only
      split
      · exact (ih _).trans ht
      · exact ht
    · rfl

/-- The answer to a CONNECT: the connection counts as open once the state says so. -/
theorem acceptConnack_moves (hH : H.Calls) (w : World) (hs : w.state ≠ .connected) :
    ((acceptConnack H w).1 = false → ReflTransGen Move w.ledger (acceptConnack H w).2.ledger) ∧
    ((acceptConnack H w).1 = true →
      ReflTransGen Move w.ledger {(acceptConnack H w).2 with state := .connected}.ledger) := by
  unfold acceptConnack
  split
  · exact ⟨fun _ => .refl, fun h => absurd h (by simp)⟩
  · split
    · rename_i hv5
      extract_lets +onlyGivenNames a b rx info v
      have hv : v.ledger = {w.ledger with receiveMaximum := a.1.receiveMaximum % 65536} := by
        have hparsed : v.ledger = {a.2.ledger with receiveMaximum := a.1.receiveMaximum % 65536} := rfl
        have hasked : a.2.ledger = w.ledger := w.ledger_askMqtt5
        rw [hparsed, hasked]
      have hlt : a.1.receiveMaximum % 65536 < 65536 := Nat.mod_lt _ (by decide)
      clear_value v
      split
      · refine ⟨fun h => absurd h (by simp), fun _ => .single ?_⟩
        have hmove := Move.opened (L := w.ledger) (a.1.receiveMaximum % 65536) hlt hv5
        have hend : {v.ledger with
            traffic := .opened v.ledger.receiveMaximum :: v.ledger.traffic, sendPublishPacketCount := 0
            outbox := requeueLoop v.ledger.outbox.list.length v.ledger.outbox
            state := .connected} = {w.ledger.note (.opened (a.1.receiveMaximum % 65536)) with
              receiveMaximum := a.1.receiveMaximum % 65536
              sendPublishPacketCount := 0
              outbox := requeueLoop w.ledger.outbox.list.length w.ledger.outbox
              state := .connected} := by
          rw [hv]
          rfl
        rw [← hend] at hmove
        exact hmove
      · refine ⟨fun _ => ?_, fun h => absurd h (by simp)⟩
        have hrefused := Move.refused (L := w.ledger) (a.1.receiveMaximum % 65536) hlt hs
        rw [← hv] at hrefused
        refine .head hrefused (task_moves ?_)
        exact raise_task hH {v with event :=
          {v.event with id := .error, errorHandle := some ⟨.connectionRefused, a.1.connectRspCode, 0, 0⟩}}
          (by simp)
    · rename_i hv5
      dsimp only
      split
      · exact ⟨fun h => absurd h (by simp), fun _ => .single (.openedV3 (eq_false_of_ne_true hv5))⟩
      · refine ⟨fun _ => task_moves ?_, fun h => absurd h (by simp)⟩
        exact raise_task hH {w with
          rx := {w.rx with inBufferReadLen := 0}
          event := {w.event with
            id := .error
            errorHandle := some ⟨.connectionRefused, mqttGetConnectReturnCode w.rx.inBuffer, 0, 0⟩}}
          (by simp)

theorem espMqttConnect_moves (hH : H.Calls) (w : World) (hs : w.state = .init) :
    ((espMqttConnect H w).1 = false → ReflTransGen Move w.ledger (espMqttConnect H w).2.ledger) ∧
    ((espMqttConnect H w).1 = true →
      ReflTransGen Move w.ledger {(espMqttConnect H w).2 with state := .connected}.ledger) := by
  unfold espMqttConnect
  extract_lets +onlyGivenNames v r b rx u
  have hv : v.ledger = w.ledger := rfl
  have hreply : ReflTransGen TaskMove v.ledger r.2.ledger :=
    reply_task hH .connect .connect 0 (mqttMsgConnect · v.information)
      (fun w => {w with pendingMsgType := some .connect, pendingMsgId := 0}) (fun _ => .refl) v
  rw [hv] at hreply
  have hu : u.ledger = r.2.ledger := rfl
  have hinit : u.state ≠ .connected := by
    have hstate : u.state = .init := by
      rcases taskMoves_state hreply with h | ⟨h,-⟩
      · exact h.trans hs
      · exact absurd (hs.symm.trans h) (by decide)
    rw [hstate]
    decide
  rw [← hu] at hreply
  split
  · refine ⟨fun _ => ?_, fun h => absurd h (by simp)⟩
    rw [hu] at hreply
    exact task_moves hreply
  · have htick := u.ledger_tick
    dsimp only
    generalize u.tick = t at htick ⊢
    have hwait := (connackLoop_ledger t.1 (t.2.transport.reads.length+1) t.2).trans htick
    generalize connackLoop t.1 (t.2.transport.reads.length+1) t.2 = c at hwait ⊢
    obtain ⟨res,x⟩ := c
    dsimp only at hwait
    rw [← hwait] at hreply
    have hx : x.state ≠ .connected := fun h => hinit ((congrArg Ledger.state hwait).symm.trans h)
    cases res with
    | message =>
      have haccept := acceptConnack_moves hH x hx
      exact ⟨fun h => (task_moves hreply).trans (haccept.1 h),
        fun h => (task_moves hreply).trans (haccept.2 h)⟩
    | failure =>
      refine ⟨fun _ => ?_, fun h => absurd h (by simp)⟩
      exact task_moves (hreply.trans (api_taskMoves (dispatchTransportError_calls hH x)))
    | nothing => exact ⟨fun _ => task_moves hreply, fun h => absurd h (by simp)⟩
    | midMessageTimeout => exact ⟨fun _ => task_moves hreply, fun h => absurd h (by simp)⟩

theorem espTransportConnect_isOpen (t : Transport) :
    (espTransportConnect t).2.isOpen = ((espTransportConnect t).1 || t.isOpen) := by
  unfold espTransportConnect
  split <;> simp

/-- Connecting, from the first event to the last. -/
theorem taskInit_moves (hH : H.Calls) (w : World) (hs : w.state = .init) :
    ReflTransGen Move w.ledger (taskInit H w).ledger := by
  unfold taskInit
  extract_lets +onlyGivenNames w1 created w2
  have hbooks : w2.ledger = w.ledger := rfl
  have hinit : w2.state = .init := hs
  rw [← hbooks]
  clear_value w2 created
  split
  · exact task_moves (raise_task hH {w2 with event :=
      {w2.event with id := .error, errorHandle := some ⟨.tcpTransport, 0, 0, 0⟩}} (by simp))
  · have hplain : ReflTransGen TaskMove w2.ledger (dispatchPlain H .other w2).ledger :=
      raise_task hH {w2 with event := {w2.event with id := .other}} (by simp)
    have hstate : (dispatchPlain H .other w2).state = .init := by
      rcases taskMoves_state hplain with h | ⟨h,-⟩
      · exact h.trans hinit
      · exact absurd (hinit.symm.trans h) (by decide)
    generalize dispatchPlain H .other w2 = v at hplain hstate ⊢
    refine (task_moves hplain).trans ?_
    have hopen := espTransportConnect_isOpen v.transport
    dsimp only
    generalize espTransportConnect v.transport = c at hopen ⊢
    obtain ⟨ok,t⟩ := c
    cases ok with
    | false =>
      have hclosed : {v with transport := t}.ledger = v.ledger := by
        change {v.ledger with isOpen := t.isOpen} = v.ledger
        rw [show t.isOpen = v.transport.isOpen from hopen]
        rfl
      have herror := task_moves (api_taskMoves (dispatchTransportError_calls hH {v with transport := t}))
      rw [hclosed] at herror
      exact herror.trans (espMqttAbortConnection_moves hH _)
    | true =>
      have hconnecting : Move v.ledger
          {v with transport := t, connections := v.connections+1}.ledger := by
        have hmove := Move.connecting (L := v.ledger) hstate
        rw [show true = t.isOpen from hopen.symm] at hmove
        exact hmove
      have hconnect := espMqttConnect_moves hH
        {v with transport := t, connections := v.connections+1} hstate
      refine .head hconnecting ?_
      dsimp only
      generalize espMqttConnect H {v with transport := t, connections := v.connections+1} = r
        at hconnect ⊢
      obtain ⟨ok,u⟩ := r
      cases ok with
      | false => exact (hconnect.1 rfl).trans (espMqttAbortConnection_moves hH u)
      | true =>
        refine (hconnect.2 rfl).trans ?_
        have hraise := task_moves (raise_task hH {u with
          state := .connected, event := {u.event with id := .connected}} (by simp))
        dsimp only
        generalize hd : dispatchPlain H .connected {u with state := .connected} = d
        change ReflTransGen Move _ d.tick.2.tick.2.ledger
        rw [ledger_tick, ledger_tick, ← hd]
        exact hraise

/-! A pass of the worker. -/

theorem sendDisconnectMsg_task (hH : H.Calls) (w : World) :
    ReflTransGen TaskMove w.ledger (sendDisconnectMsg H w).ledger :=
  reply_task hH .disconnect .disconnect 0 _ id (fun _ => .refl) w

theorem processKeepalive_moves (hH : H.Calls) (w : World) :
    ReflTransGen Move w.ledger (processKeepalive H w).2.ledger := by
  unfold processKeepalive
  split
  · exact .refl
  · dsimp only
    split
    · have ht := ledger_hasTimedOut w w.keepaliveTick (w.information.keepalive*1000)
      generalize w.hasTimedOut w.keepaliveTick (w.information.keepalive*1000) = r at ht ⊢
      obtain ⟨timedOut,v⟩ := r
      rw [← ht]
      cases timedOut with
      | true => exact espMqttAbortConnection_moves hH v
      | false => exact .refl
    · have ht := ledger_hasTimedOut w w.keepaliveTick (w.information.keepalive*1000/2)
      generalize w.hasTimedOut w.keepaliveTick (w.information.keepalive*1000/2) = r at ht ⊢
      obtain ⟨timedOut,v⟩ := r
      rw [← ht]
      cases timedOut with
      | false => exact .refl
      | true =>
        dsimp only
        have hping : Move v.ledger
            ({v with connection := mqttMsgPingreq v.connection}.arising v.connections true).ledger :=
          .task (.origin _)
        generalize {v with connection := mqttMsgPingreq v.connection}.arising v.connections true = u
          at hping ⊢
        refine .head hping ?_
        split
        · exact espMqttAbortConnection_moves hH u
        · have hwrite := task_moves (api_taskMoves (espMqttWrite_calls hH .ping true u))
          generalize espMqttWrite H .ping true u = r at hwrite ⊢
          obtain ⟨ok,x⟩ := r
          cases ok with
          | true => exact hwrite
          | false => exact hwrite.trans (espMqttAbortConnection_moves hH x)

theorem taskUpkeep_moves (hH : H.Calls) (w : World) :
    ReflTransGen Move w.ledger (taskUpkeep H w).ledger := by
  have hkeep := processKeepalive_moves hH w
  unfold taskUpkeep
  generalize processKeepalive H w = r at hkeep ⊢
  obtain ⟨ok,v⟩ := r
  cases ok with
  | false => exact hkeep
  | true =>
    refine hkeep.trans ?_
    dsimp only
    split
    · exact .refl
    · have ht := ledger_hasTimedOut v v.refreshConnectionTick v.config.refreshConnectionAfterMs
      generalize v.hasTimedOut v.refreshConnectionTick v.config.refreshConnectionAfterMs = r at ht ⊢
      obtain ⟨timedOut,u⟩ := r
      rw [← ht]
      cases timedOut with
      | true => exact (espMqttAbortConnection_moves hH u).tail (.moved .init (Or.inl rfl))
      | false => exact .refl

theorem taskConnected_moves (hH : H.Calls) (w : World) (hs : w.state = .connected) :
    ReflTransGen Move w.ledger (taskConnected H w).ledger := by
  unfold taskConnected
  split
  · have hbye := task_moves (sendDisconnectMsg_task hH {w with disconnectBit := false})
    exact hbye.trans (espMqttAbortConnection_moves hH _)
  · have hreceive := mqttProcessReceive_task hH w hs
    generalize mqttProcessReceive H w = r at hreceive ⊢
    obtain ⟨ok,v⟩ := r
    cases ok with
    | false => exact (task_moves hreceive).trans (espMqttAbortConnection_moves hH v)
    | true =>
      have hup : v.ledger.Up := Up.task (Or.inl hs) hreceive
      refine (task_moves hreceive).trans ?_
      dsimp only
      generalize hd : (if v.lastRetransmit = 0 then {v.tick.2 with lastRetransmit := v.tick.1} else v) = u
      have hu : u.ledger = v.ledger := by
        rw [← hd]
        split
        · exact v.ledger_tick
        · rfl
      rw [← hu] at hup ⊢
      exact (taskSend_moves hH u hup).trans (taskUpkeep_moves hH _)

theorem taskWaitReconnect_moves (w : World) :
    ReflTransGen Move w.ledger w.taskWaitReconnect.2.ledger := by
  unfold taskWaitReconnect
  split
  · exact .single (.moved .init (Or.inl rfl))
  · split
    · dsimp only
      split
      · have ht : w.tick.2.tick.2.ledger = w.ledger := (ledger_tick _).trans w.ledger_tick
        have hmove := Move.moved (L := w.tick.2.tick.2.ledger) .init (Or.inl rfl)
        rw [← ht]
        exact .single hmove
      · rw [w.ledger_tick]
    · exact .refl

theorem taskWork_moves (hH : H.Calls) (w : World) :
    ReflTransGen Move w.ledger (Rules.taskWork H w).ledger := by
  have hloop : ReflTransGen Move w.ledger (runEventLoop H w).ledger := by
    unfold runEventLoop
    split
    · exact .refl
    · refine task_moves (.head (.event {w.event with id := .other} (by simp)) (api_taskMoves ?_))
      exact hH {w with
        userEvents := w.userEvents-1, event := {w.event with id := .other}
        events := {w.event with id := .other} :: w.events}
  have hexpire := hloop.trans (mqttDeleteExpiredMessages_moves hH _)
  unfold Rules.taskWork
  generalize mqttDeleteExpiredMessages H (runEventLoop H w) = v at hexpire ⊢
  refine hexpire.trans ?_
  dsimp only
  split
  · exact .refl
  · rename_i hs
    exact taskInit_moves hH v hs
  · rename_i hs
    exact taskConnected_moves hH v hs
  · exact taskWaitReconnect_moves v

/-- Every step of a run makes entries. -/
theorem step_moves (hH : H.Calls) (w : World) (s : ClientStep) :
    ReflTransGen Move w.ledger (w.step H s).ledger := by
  cases s with
  | check c =>
    dsimp only [World.step]
    split <;> exact .refl
  | body i =>
    dsimp only [World.step]
    split
    · exact .refl
    · rename_i c seen _
      exact task_moves (api_taskMoves (apiBody_calls hH c seen
        {w with admitted := w.admitted.eraseIdx i}))
  | start created =>
    dsimp only [World.step]
    unfold espMqttClientStart
    split
    · exact .refl
    · split
      · exact .single (.moved .init (Or.inl rfl))
      · exact .single (.moved .disconnected (Or.inr rfl))
  | stop =>
    dsimp only [World.step]
    unfold espMqttClientStop
    split
    · dsimp only
      split
      · exact (task_moves (sendDisconnectMsg_task hH w)).tail (.moved .disconnected (Or.inr rfl))
      · exact .single (.moved .disconnected (Or.inr rfl))
    · exact .refl
  | stopped =>
    dsimp only [World.step]
    split <;> exact .refl
  | customEvent => exact .refl
  | task pollError =>
    dsimp only [World.step]
    rcases taskStep_cases H pollError w with heq | heq | ⟨-,p,v,-,heq,hv⟩
    · rw [heq]
    · rw [heq]
      exact .single .exits
    · rw [heq]
      change ReflTransGen Move w.ledger v.ledger
      rcases hv with rfl | rfl | rfl
      · exact .refl
      · exact taskWork_moves hH w
      · exact espMqttAbortConnection_moves hH w

/-- The books of every run are kept by the entries. -/
theorem run_moves (s : Settings) (incremental : Bool) (e : Environment) (n : ℕ)
    (ss : List ClientStep) : ReflTransGen Move (clientInit s incremental e).ledger
      (clientRun s incremental e n ss).ledger :=
  steps_induction (handlerAt n)
    (fun w => ReflTransGen Move (clientInit s incremental e).ledger w.ledger)
    (fun w st h => h.trans (step_moves (handlerAt_calls n) w st)) ss _ .refl

end EspMqtt
