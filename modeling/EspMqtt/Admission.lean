import EspMqtt.PacketIds

/-! How far a call of the API gets: its tests, the packet it composes, the memory
to store it and the transport that is to take it. -/
namespace EspMqtt
open World Ledger Relation

namespace World

/-- The calls that bring a packet. -/
def brings : ApiCall → Bool
  | .publish .. | .enqueue .. | .subscribe _ | .unsubscribe _ => true
  | .disconnect | .reconnect | .setConfig _ => false

/-- The calls whose packet is a request, not a message. -/
def isRequest : ApiCall → Bool
  | .subscribe _ | .unsubscribe _ => true
  | _ => false

/-- The tests a call makes behind the lock, on its way to the outbox. -/
def passes (w : World) : ApiCall → Bool
  | .publish _ d len qos retain =>
    !(w.isV5 && !w.publishCheck qos retain) &&
      !(decide (0 < qos) && w.overLimit (effectiveLen d len))
  | .enqueue _ _ _ qos retain _ => !(w.isV5 && !w.publishCheck qos retain)
  | .subscribe topics => !(w.isV5 && decide (w.maxQos < (topics.map Prod.snd).foldl max 0))
  | _ => true

/-- The call's packet goes into the outbox. -/
def stores : ApiCall → Bool
  | .publish _ _ _ qos _ => decide (0 < qos)
  | .enqueue _ _ _ qos _ store => decide (0 < qos) || store
  | .subscribe _ | .unsubscribe _ => true
  | _ => false

/-- The call has composed its packet; `seen` is the connection that was up when it
made its first tests. -/
def composed (w : World) (c : ApiCall) (seen : ℕ) : World :=
  let w := w.beginCall c seen
  match c with
  | .publish topic d len qos retain => (w.makePublish topic d (effectiveLen d len) qos retain).2
  | .enqueue topic d len qos retain _ => (w.makePublish topic d (effectiveLen d len) qos retain).2
  | .subscribe topics =>
    w.resetPendingMessage.composeRequest .subscribe seen (mqttMsgSubscribe · topics)
  | .unsubscribe topic =>
    w.resetPendingMessage.composeRequest .unsubscribe seen (mqttMsgUnsubscribe · topic)
  | _ => w

/-- The part of the payload that does not fit the buffer. -/
def beyond (u : World) (d : CData) (len : ℤ) : List UInt8 :=
  if u.connection.outboundMessage.fragmentedMsgTotalLength = 0 then []
  else d.slice u.dataSent (len-u.dataSent).toNat

/-- The encoded packet as it is stored. -/
def packet (w : World) (c : ApiCall) (seen : ℕ) : List UInt8 :=
  let u := w.composed c seen
  if u.nothingComposed || !stores c then []
  else
    u.connection.outboundMessage.data ++
    match c with
    | .publish _ d len _ _ | .enqueue _ d len _ _ _ => u.beyond d (effectiveLen d len)
    | _ => []

/-- There is memory for an outbox item and for its packet. -/
def hasMemory (w : World) : Bool := (w.allocs.take 2).all id

/-- The transport takes writes of these lengths one after the other. -/
def takes : Transport → List ℕ → Bool
  | _, [] => true
  | t, n :: ns =>
    match writeLoop n t n with
    | (.ok, _, t) => takes t ns
    | _ => false

/-- The lengths of the pieces in which the rest of a payload is sent. -/
def pieces (bufferLength : ℕ) : ℕ → ℤ → List ℕ
  | 0, _ => []
  | k+1, remaining =>
    if 0 < remaining then
      let n := min bufferLength remaining.toNat
      n :: pieces bufferLength k (remaining-Int.bmod n (2^32))
    else []

/-- The lengths of the writes a call makes. -/
def writes (w : World) (c : ApiCall) (seen : ℕ) : List ℕ :=
  let u := w.composed c seen
  u.connection.outboundMessage.data.length ::
  match c with
  | .publish _ d len _ _ =>
    pieces u.connection.bufferLength (effectiveLen d len-u.dataSent).toNat (effectiveLen d len-u.dataSent)
  | _ => []

/-- The call goes on to send its packet. -/
def sends (w : World) : ApiCall → Bool
  | .publish _ _ _ qos _ => decide (w.state = .connected) &&
      !(w.isV5 && decide (0 < qos) && decide (w.receiveMaximum ≤ w.sendPublishPacketCount))
  | .subscribe _ | .unsubscribe _ => true
  | _ => false

/-! Frames. -/

theorem makePublish_frame (w : World) (topic : Option (List UInt8)) (d : CData) (len : ℤ)
    (qos retain : ℕ) : ∃ l c o b, (w.makePublish topic d len qos retain).2 =
      {w with mqtt5 := l, connection := c, origin := o, behind := b} := by
  rw [makePublish_eq]
  split
  · obtain ⟨a,l,h⟩ := w.askMqtt5_eq
    unfold composeNumbered composeMqtt5
    rw [h]
    exact ⟨l, _, _, _, rfl⟩
  · exact ⟨w.mqtt5, _, _, _, rfl⟩

theorem composeRequest_frame (w : World) (type : MsgType) (seen : ℕ)
    (build : Connection → ℕ × Connection) : ∃ l c o i, w.composeRequest type seen build =
      {w with mqtt5 := l, connection := c, origin := o, pendingMsgId := i} := by
  unfold composeRequest
  by_cases hv : w.isV5 = true
  · simp only [if_pos hv]
    obtain ⟨a,l,h⟩ := w.askMqtt5_eq
    unfold composeNumbered composeMqtt5
    rw [h]
    exact ⟨l, _, _, _, rfl⟩
  · simp only [if_neg hv]
    exact ⟨w.mqtt5, _, _, _, rfl⟩

/-- Storing succeeds when there is memory. -/
theorem mqttEnqueue_ok (w : World) (rest : List UInt8) : (w.mqttEnqueue rest).1 = w.hasMemory := by
  obtain ⟨n,t,ht⟩ := w.tick_eq
  unfold mqttEnqueue hasMemory
  rw [ht]
  rcases ha : w.allocs with _ | ⟨a, _ | ⟨b,l⟩⟩
  · simp [alloc, Outbox.enqueue]
  · cases a <;> simp [alloc, Outbox.enqueue]
  · cases a <;> cases b <;> simp [alloc, Outbox.enqueue]

/-! What the transport makes of a call. -/

theorem espMqttWrite_fst (H : Handler) (s : Site) (f : Bool) (w : World) :
    (espMqttWrite H s f w).1 = (w.writeOutcome.1 == .ok) := by
  unfold espMqttWrite
  cases w.writeOutcome.1 <;> rfl

/-- A write of the outbound message, and then others. -/
theorem takes_write (H : Handler) (s : Site) (f : Bool) (w : World) (ns : List ℕ) :
    takes w.transport (w.connection.outboundMessage.data.length :: ns) =
      ((espMqttWrite H s f w).1 && takes w.writeOutcome.2.2 ns) := by
  rw [espMqttWrite_fst]
  change (match w.writeOutcome with
    | (.ok, _, t) => takes t ns
    | _ => false) = _
  generalize w.writeOutcome = r
  obtain ⟨status,n,t⟩ := r
  cases status <;> rfl

theorem restLoop_fst (H : Handler) (d : CData) (k : ℕ) (remaining current : ℤ) (w : World)
    (hoff : w.connection.outboundMessage.fragmentedMsgDataOffset = 0) :
    (restLoop H d k remaining current w).1 = takes w.transport (pieces w.connection.bufferLength k remaining) := by
  induction k generalizing remaining current w with
  | zero => rfl
  | succ k ih =>
    unfold restLoop pieces
    split
    · dsimp only
      generalize hv : w.refill _ = v
      have hdata : v.connection.outboundMessage.data.length = min w.connection.bufferLength remaining.toNat := by
        rw [← hv]
        exact CData.slice_length d current _
      have htransport : v.transport = w.transport := by
        rw [← hv]
        rfl
      have hbuffer : v.connection.bufferLength = w.connection.bufferLength := by
        rw [← hv]
        rfl
      have hvoff : v.connection.outboundMessage.fragmentedMsgDataOffset = 0 := by
        rw [← hv]
        exact hoff
      have htakes := takes_write H .publish false v
        (pieces w.connection.bufferLength k
          (remaining-Int.bmod (min w.connection.bufferLength remaining.toNat : ℕ) (2^32)))
      rw [hdata, htransport] at htakes
      rw [htakes]
      have hok := espMqttWrite_ok (H := H) (w := v) (s := .publish) (f := false)
      generalize espMqttWrite H .publish false v = r at hok ⊢
      obtain ⟨ok,u⟩ := r
      cases ok with
      | false => rfl
      | true =>
        obtain ⟨hu,-⟩ := hok rfl
        dsimp only at hu ⊢
        subst hu
        have hsent : (v.recordWrite .publish false).dataSent =
            Int.bmod (min w.connection.bufferLength remaining.toNat : ℕ) (2^32) := by
          change Int.bmod ((v.connection.outboundMessage.data.length : ℤ)-
            v.connection.outboundMessage.fragmentedMsgDataOffset) (2^32) = _
          rw [hdata, hvoff, Int.sub_zero]
        rw [ih _ _ _ rfl, hsent, Bool.true_and]
        change takes v.writeOutcome.2.2 (pieces v.connection.bufferLength k _) = _
        rw [hbuffer]
    · rfl

/-- A publish goes out when the transport takes all its pieces. -/
theorem sendPublish_fst (H : Handler) (d : CData) (len : ℤ) (w : World) :
    (sendPublish H d len w).1 = takes w.transport (w.connection.outboundMessage.data.length ::
      pieces w.connection.bufferLength (len-w.dataSent).toNat (len-w.dataSent)) := by
  unfold sendPublish
  dsimp only
  generalize hv : w.inChunk _ = v
  have hsame : v.transport = w.transport ∧ v.connection = w.connection := by
    rw [← hv]
    exact ⟨rfl,rfl⟩
  have hsent : v.dataSent = w.dataSent := by
    unfold dataSent
    rw [hsame.2]
  have htakes := takes_write H .publish true v
    (pieces v.connection.bufferLength (len-v.dataSent).toNat (len-v.dataSent))
  rw [hsent, hsame.1, hsame.2] at htakes
  rw [htakes]
  have hok := espMqttWrite_ok (H := H) (w := v) (s := .publish) (f := true)
  generalize espMqttWrite H .publish true v = r at hok ⊢
  obtain ⟨ok,u⟩ := r
  cases ok with
  | false => rfl
  | true =>
    obtain ⟨hu,-⟩ := hok rfl
    dsimp only at hu ⊢
    subst hu
    have hu : (v.recordWrite .publish true).dataSent = w.dataSent := hsent
    have hb : ((v.recordWrite .publish true).clearFragments.inChunk w.inFirstChunk).connection.bufferLength =
        w.connection.bufferLength := by
      change v.connection.bufferLength = _
      rw [hsame.2]
    rw [restLoop_fst H d _ _ _ _ rfl, hu, hb, Bool.true_and]
    rfl

/-! Storing. -/

/-- What a PUBLISH composed into `u` leaves behind when it is to be stored. -/
structure Enqueued (w u : World) (rest : List UInt8) (store : Bool) (r : Option ℕ × World) : Prop where
  transport : r.2.transport = w.transport
  data : r.2.connection.outboundMessage.data = u.connection.outboundMessage.data
  dataSent : r.2.dataSent = u.dataSent
  bufferLength : r.2.connection.bufferLength = u.connection.bufferLength
  outcome : r.1.isSome = (!u.nothingComposed && (!store || w.hasMemory))
  unstored : (r.1.isSome && store) = false → r.2.outbox = w.outbox
  stored : (r.1.isSome && store) = true → ∃ x : OutboxItem, x.buffer = u.connection.outboundMessage.data ++ rest ∧
    x.origin.call = w.calls ∧ x.msgType = some .publish ∧ r.1 = some x.msgId ∧
    r.2.outbox = ⟨w.outbox.size+x.buffer.length, w.outbox.list ++ [x], w.outbox.nextHandle+1⟩

/-- Both ways of storing a composed PUBLISH: `rest` is what the buffer does not hold. -/
theorem enqueued_of_store {w u : World} {rest : List UInt8} {r : Option ℕ × World} (id qos : ℕ)
    (hframe : ∃ l c o b, u = {w with mqtt5 := l, connection := c, origin := o, behind := b})
    (hcall : u.origin.call = w.calls) (hfull : u.nothingComposed = false)
    (htype : u.outboundType = some .publish)
    (hid : r.1 = if ({u with pendingMsgType := u.outboundType, pendingMsgId := id
                             pendingPublishQos := qos}.mqttEnqueue rest).1 then some id else none)
    (hworld : ∃ n m, r.2 = {({u with pendingMsgType := u.outboundType, pendingMsgId := id
                                     pendingPublishQos := qos}.mqttEnqueue rest).2.setTotalLength n with
      marks := m}) : Enqueued w u rest true r := by
  obtain ⟨l,c,o,b,hu⟩ := hframe
  obtain ⟨k,m,hr⟩ := hworld
  have hallocs : u.allocs = w.allocs := by rw [hu]
  have hbox : u.outbox = w.outbox := by rw [hu]
  obtain ⟨ok,n,t,a,o',l',heq,hno,hyes⟩ := World.mqttEnqueue_eq {u with
    pendingMsgType := u.outboundType, pendingMsgId := id, pendingPublishQos := qos} rest
  have hok := mqttEnqueue_ok {u with
    pendingMsgType := u.outboundType, pendingMsgId := id, pendingPublishQos := qos} rest
  rw [heq] at hok hid hr
  have hmem : ok = w.hasMemory := by
    rw [show ok = _ from hok]
    unfold hasMemory
    rw [← hallocs]
  have hout : r.1.isSome = ok := by
    rw [hid]
    cases ok <;> rfl
  refine ⟨?_, by rw [hr]; rfl, by rw [hr]; rfl, by rw [hr]; rfl, ?_, fun h => ?_, fun h => ?_⟩
  · rw [hr, hu]
    rfl
  · rw [hout, hfull, hmem]
    rfl
  · rw [hout, Bool.and_true] at h
    rw [hr]
    exact (hno h).1.trans hbox
  · rw [hout, Bool.and_true] at h
    obtain ⟨x,hx,ho,-⟩ := hyes h
    refine ⟨x, by rw [hx], by rw [hx]; exact hcall, by rw [hx]; exact htype, ?_, ?_⟩
    · rw [hid, h, hx]
      rfl
    · rw [hr, ← hbox]
      exact ho

theorem enqueuePublish_enqueued (w : World) (topic : Option (List UInt8)) (d : CData) (len : ℤ)
    (qos retain : ℕ) (store : Bool) :
    Enqueued w (w.makePublish topic d len qos retain).2
      ((w.makePublish topic d len qos retain).2.beyond d len) (decide (0 < qos) || store)
      (w.mqttClientEnqueuePublish topic d len qos retain store) := by
  have hframe := w.makePublish_frame topic d len qos retain
  have hcall : (w.makePublish topic d len qos retain).2.origin.call = w.calls :=
    congrArg (fun L : Ledger => L.origin.call) (makePublish_ledger w topic d len qos retain)
  have hcomposed := w.makePublish_composed topic d len qos retain
  have hnone : (w.makePublish topic d len qos retain).1.isSome =
      !(w.makePublish topic d len qos retain).2.nothingComposed := by
    unfold makePublish
    dsimp only
    generalize World.publishing _ _ _ = u
    cases hn : u.nothingComposed <;> simp [hn]
  unfold mqttClientEnqueuePublish
  generalize w.makePublish topic d len qos retain = m at hframe hcall hcomposed hnone ⊢
  obtain ⟨id,u⟩ := m
  dsimp only at hframe hcall hcomposed hnone ⊢
  cases id with
  | none =>
    obtain ⟨l,c,o,b,hu⟩ := hframe
    have hempty : u.nothingComposed = true := by simpa using hnone.symm
    refine ⟨?_, rfl, rfl, rfl, ?_, fun _ => ?_, fun h => absurd h (by simp)⟩
    · rw [hu]
    · rw [hempty]
      rfl
    · rw [hu]
  | some id =>
    have hfull : u.nothingComposed = false := by simpa using hnone.symm
    have htype : u.outboundType = some .publish :=
      hcomposed.resolve_left (by simpa [nothingComposed] using hfull)
    dsimp only
    by_cases hstore : 0 < qos ∨ store = true
    · have hs : (decide (0 < qos) || store) = true := by simpa using hstore
      rw [if_pos hstore, hs]
      by_cases hfrag : u.connection.outboundMessage.fragmentedMsgTotalLength = 0
      · -- the whole packet is in the buffer
        have hrest : u.beyond d len = [] := if_pos hfrag
        rw [if_pos hfrag, hrest]
        refine enqueued_of_store id qos hframe hcall hfull htype rfl ?_
        generalize World.mqttEnqueue _ _ = e
        exact ⟨e.2.connection.outboundMessage.fragmentedMsgTotalLength, e.2.marks, rfl⟩
      · -- the buffer holds the head, and a failure is marked
        have hrest : u.beyond d len = d.slice u.dataSent (len-u.dataSent).toNat := if_neg hfrag
        rw [if_neg hfrag, hrest]
        have hcut : {u with
            pendingMsgType := u.outboundType, pendingMsgId := id, pendingPublishQos := qos}.dataSent =
          u.dataSent := rfl
        rw [hcut]
        refine enqueued_of_store id qos hframe hcall hfull htype ?_ ?_
        · split <;> rfl
        · generalize World.mqttEnqueue _ _ = e
          split
          · exact ⟨0, e.2.marks, rfl⟩
          · exact ⟨e.2.connection.outboundMessage.fragmentedMsgTotalLength, _, rfl⟩
    · have hs : (decide (0 < qos) || store) = false := by simpa using hstore
      rw [if_neg hstore, hs]
      obtain ⟨l,c,o,b,hu⟩ := hframe
      refine ⟨by rw [hu], rfl, rfl, rfl, ?_, fun _ => by rw [hu],
        fun h => absurd h (by simp)⟩
      rw [hfull]
      rfl

/-- The identifier a publish reports is the one of its packet. -/
theorem enqueuePublish_id (w : World) (topic : Option (List UInt8)) (d : CData) (len : ℤ)
    (qos retain : ℕ) (store : Bool) (id : ℕ)
    (h : (w.mqttClientEnqueuePublish topic d len qos retain store).1 = some id) : id = 0 ↔ qos = 0 := by
  have hnumber := makePublish_id w topic d len qos retain
  unfold mqttClientEnqueuePublish at h
  generalize w.makePublish topic d len qos retain = m at h hnumber
  obtain ⟨made,u⟩ := m
  cases made with
  | none => exact absurd h (by simp)
  | some made =>
    have hsame : made = id := by
      dsimp only at h
      split at h
      · split at h
        · split at h
          · exact Option.some.inj h
          · exact absurd h (by simp)
        · split at h
          · exact Option.some.inj h
          · exact absurd h (by simp)
      · exact Option.some.inj h
    exact hsame ▸ hnumber made rfl

/-! What sending keeps, whether it succeeds or not. -/

/-- A predicate that writing a publish and aborting preserve. -/
structure Sound (H : Handler) (P : World → Prop) : Prop where
  wrote : ∀ v f, P v → P (v.recordWrite .publish f)
  connection : ∀ v c, P v → P {v with connection := c}
  inCut : ∀ v b, P v → P (v.inCut b)
  inChunk : ∀ v b, P v → P (v.inChunk b)
  error : ∀ v, P v → P (dispatchTransportError H v)
  abort : ∀ v, P v → P (espMqttAbortConnection H v)

theorem Sound.write {H : Handler} {P : World → Prop} (hP : Sound H P) (f : Bool) (w : World)
    (h : P w) : P (espMqttWrite H .publish f w).2 := by
  have hrecord := hP.wrote w f h
  unfold espMqttWrite
  dsimp only
  split
  · exact hrecord
  · exact hrecord
  · exact hP.inCut _ _ (hP.error _ (hP.inCut _ _ hrecord))

theorem Sound.rest {H : Handler} {P : World → Prop} (hP : Sound H P) (d : CData) (k : ℕ)
    (remaining current : ℤ) (w : World) (h : P w) : P (restLoop H d k remaining current w).2 := by
  induction k generalizing remaining current w with
  | zero => exact h
  | succ k ih =>
    unfold restLoop
    split
    · dsimp only
      have hwrite := hP.write false (w.refill (d.slice current
        (min w.connection.bufferLength remaining.toNat))) (hP.connection w _ h)
      generalize espMqttWrite H .publish false _ = r at hwrite ⊢
      obtain ⟨ok,u⟩ := r
      cases ok with
      | true => exact ih _ _ _ (hP.connection u _ hwrite)
      | false => exact hP.abort u hwrite
    · exact h

theorem Sound.send {H : Handler} {P : World → Prop} (hP : Sound H P) (d : CData) (len : ℤ) (w : World)
    (h : P w) : P (sendPublish H d len w).2 := by
  unfold sendPublish
  dsimp only
  have hwrite := hP.write true (w.inChunk
    (decide (w.connection.outboundMessage.fragmentedMsgTotalLength ≠ 0))) (hP.inChunk w _ h)
  generalize espMqttWrite H .publish true _ = r at hwrite ⊢
  obtain ⟨ok,u⟩ := r
  cases ok with
  | true => exact hP.rest d _ _ _ _ (hP.inChunk _ _ (hP.connection u _ hwrite))
  | false => exact hP.inChunk _ _ (hP.abort u hwrite)

/-! The end of a call. -/

/-- The call has composed its packet and, if that is to be stored, stored it. -/
structure Prepared (w : World) (c : ApiCall) (seen : ℕ) (v : World) : Prop where
  passed : w.passes c = true
  composed : (w.composed c seen).nothingComposed = false
  memory : stores c = true → w.hasMemory = true
  calls : v.calls = w.calls+1
  unstored : stores c = false → v.outbox = w.outbox
  stored : stores c = true → ∃ x : OutboxItem, x.buffer = w.packet c seen ∧ x.origin.call = w.calls+1 ∧
    (x.msgType = some .publish ∨ isRequest c = true) ∧
    v.outbox.size = w.outbox.size+x.buffer.length ∧ v.outbox.labels = w.outbox.labels ++ [x.label]

/-- How a call ends: it is refused; it leaves its packet to the worker; its packet
goes out; or the transport does not take all of it. -/
inductive Outcome (H : Handler) (w : World) (c : ApiCall) (seen : ℕ) (r : ℤ × World) : Prop
  | refused (hr : r.1 < 0) (ho : r.2.outbox = w.outbox)
      (hwhy : w.passes c = true → (w.composed c seen).nothingComposed = true ∨
        stores c = true ∧ w.hasMemory = false)
  | kept (v : World) (hv : Prepared w c seen v) (hs : w.sends c = false) (hr : 0 ≤ r.1 ↔ stores c = true)
      (ho : r.2.outbox = v.outbox)
  | sent (v : World) (hv : Prepared w c seen v) (hs : w.sends c = true)
      (ht : takes w.transport (w.writes c seen) = true) (hr : 0 ≤ r.1)
      (hl : r.2.outbox.labels = v.outbox.labels) (hz : r.2.outbox.size = v.outbox.size)
  | failed (v : World) (hv : Prepared w c seen v) (hs : w.sends c = true)
      (ht : takes w.transport (w.writes c seen) = false) (hr : r.1 < 0)
      (hcalls : H.Calls → ReflTransGen ApiMove v.ledger r.2.ledger)
      (hidle : H = id → (∀ y ∈ v.outbox.list, y.msgType = some .publish → y ∈ r.2.outbox.list) ∧
        (isRequest c = true → r.2.outbox = v.outbox))

theorem dispatch_idle (w : World) : (dispatchEventWithMsgid id w).outbox = w.outbox := rfl

/-- Without handlers an abort keeps every PUBLISH. -/
theorem abort_idle (w : World) {y : OutboxItem} (hy : y ∈ w.outbox.list) (ht : y.msgType = some .publish) :
    y ∈ (espMqttAbortConnection id w).outbox.list := by
  have hbox : (espMqttAbortConnection id w).outbox = w.sessionOutbox := by
    unfold espMqttAbortConnection
    extract_lets +onlyGivenNames outbox b t
    rw [dispatch_idle]
    exact congrArg Ledger.outbox (ledger_tick _)
  rw [hbox]
  unfold sessionOutbox
  split
  · refine List.mem_filter.mpr ⟨List.mem_filter.mpr ⟨hy, ?_⟩, ?_⟩ <;> simp [ht]
  · exact hy

/-- Without handlers a PUBLISH that is stored stays stored. -/
theorem sound_idle {y : OutboxItem} (ht : y.msgType = some .publish) :
    Sound id fun v => y ∈ v.outbox.list where
  wrote _ _ h := h
  connection _ _ h := h
  inCut _ _ h := h
  inChunk _ _ h := h
  error v h := by
    have hbox := dispatch_idle {v with event :=
      {v.event with id := .error, errorHandle := some ⟨.tcpTransport, 0, 0, 0⟩}}
    exact hbox ▸ h
  abort v h := abort_idle v h ht

theorem published_outbox (w : World) (id qos : ℕ) :
    (w.published id qos).outbox.labels = w.outbox.labels ∧
    (w.published id qos).outbox.size = w.outbox.size := by
  unfold published
  split
  · extract_lets +onlyGivenNames u t
    have hu : u.outbox = w.outbox := by
      dsimp only [u]
      split <;> rfl
    obtain ⟨n,l,hn⟩ := World.tick_eq (u.noteTraffic (.sent u.origin.call id))
    have ht : t.2.outbox = w.outbox := by
      dsimp only [t]
      rw [hn]
      exact hu
    have hsize : t.2.outbox.size = w.outbox.size := by rw [ht]
    refine ⟨?_, hsize⟩
    rw [Outbox.setPending_labels, Outbox.setTick_labels, ht]
  · exact ⟨rfl,rfl⟩

/-- When all is sent nobody has been called in between. -/
theorem restLoop_quiet (H : Handler) (d : CData) (k : ℕ) (remaining current : ℤ) (w : World)
    (h : (restLoop H d k remaining current w).1 = true) :
    (restLoop H d k remaining current w).2.outbox = w.outbox := by
  induction k generalizing remaining current w with
  | zero => rfl
  | succ k ih =>
    unfold restLoop at h ⊢
    split at h
    · rename_i hpos
      rw [if_pos hpos]
      dsimp only at h ⊢
      have hok := espMqttWrite_ok (H := H) (w := w.refill (d.slice current
        (min w.connection.bufferLength remaining.toNat))) (s := .publish) (f := false)
      generalize espMqttWrite H .publish false _ = r at h hok ⊢
      obtain ⟨ok,u⟩ := r
      cases ok with
      | true =>
        obtain ⟨hu,-⟩ := hok rfl
        have hsame : u.outbox = w.outbox := by
          rw [show u = _ from hu]
          rfl
        exact (ih _ _ _ h).trans hsame
      | false => exact absurd h (by simp)
    · rename_i hpos
      rw [if_neg hpos]

theorem sendPublish_quiet (H : Handler) (d : CData) (len : ℤ) (w : World)
    (h : (sendPublish H d len w).1 = true) : (sendPublish H d len w).2.outbox = w.outbox := by
  unfold sendPublish at h ⊢
  dsimp only at h ⊢
  have hok := espMqttWrite_ok (H := H) (w := w.inChunk
    (decide (w.connection.outboundMessage.fragmentedMsgTotalLength ≠ 0))) (s := .publish) (f := true)
  generalize espMqttWrite H .publish true _ = r at h hok ⊢
  obtain ⟨ok,u⟩ := r
  cases ok with
  | true =>
    obtain ⟨hu,-⟩ := hok rfl
    have hsame : u.outbox = w.outbox := by
      rw [show u = _ from hu]
      rfl
    exact (restLoop_quiet H d _ _ _ _ h).trans hsame
  | false => exact absurd h (by simp)

/-- A PUBLISH that could not be composed, or not be stored. -/
theorem refused_publish {w : World} {c : ApiCall} {seen : ℕ} {topic : Option (List UInt8)} {d : CData} {len : ℤ}
    {qos retain : ℕ} {store : Bool}
    (hcomposed : w.composed c seen = ((w.beginCall c seen).makePublish topic d (effectiveLen d len)
      qos retain).2)
    (hstores : stores c = (decide (0 < qos) || store)) {v : World}
    (he : (w.beginCall c seen).mqttClientEnqueuePublish topic d (effectiveLen d len) qos retain
      store = (none, v)) : v.outbox = w.outbox ∧
      ((w.composed c seen).nothingComposed = true ∨ stores c = true ∧ w.hasMemory = false) := by
  have henq := enqueuePublish_enqueued (w.beginCall c seen) topic d (effectiveLen d len) qos
    retain store
  rw [he, ← hcomposed, ← hstores] at henq
  refine ⟨henq.unstored rfl, ?_⟩
  have hmemory : (w.beginCall c seen).hasMemory = w.hasMemory := rfl
  have hout := henq.outcome
  rw [hmemory] at hout
  cases hn : (w.composed c seen).nothingComposed with
  | true => exact Or.inl rfl
  | false =>
    rw [hn] at hout
    simpa using hout.symm

/-- A PUBLISH that could be composed, and stored if it is to be. -/
theorem prepared_publish {w : World} {c : ApiCall} {seen : ℕ} {topic : Option (List UInt8)} {d : CData} {len : ℤ}
    {qos retain : ℕ} {store : Bool} (hpasses : w.passes c = true)
    (hcomposed : w.composed c seen = ((w.beginCall c seen).makePublish topic d (effectiveLen d len)
      qos retain).2)
    (hstores : stores c = (decide (0 < qos) || store))
    (hpacket : stores c = true → (w.composed c seen).nothingComposed = false → w.packet c seen =
      (w.composed c seen).connection.outboundMessage.data ++ (w.composed c seen).beyond d (effectiveLen d len))
    {id : ℕ} {v : World}
    (he : (w.beginCall c seen).mqttClientEnqueuePublish topic d (effectiveLen d len) qos retain
      store = (some id, v)) : Prepared w c seen v := by
  have henq := enqueuePublish_enqueued (w.beginCall c seen) topic d (effectiveLen d len) qos
    retain store
  have hbooks := enqueuePublish_ledger (w.beginCall c seen) topic d (effectiveLen d len) qos
    retain store _ rfl
  rw [he] at henq hbooks
  rw [← hcomposed, ← hstores] at henq
  have hout := henq.outcome
  have hsome : (some id).isSome = true := rfl
  rw [hsome] at hout
  have hfull : (w.composed c seen).nothingComposed = false := by
    cases hn : (w.composed c seen).nothingComposed with
    | false => rfl
    | true => simp [hn] at hout
  refine ⟨hpasses, hfull, fun hs => ?_, ?_, fun hs => ?_, fun hs => ?_⟩
  · rw [hfull, hs] at hout
    exact hout.symm
  · rcases hbooks with ⟨o,hl,-⟩ | ⟨x,-,-,-,-,-,hl⟩ <;> exact congrArg Ledger.calls hl
  · exact henq.unstored (by simp [hs])
  · obtain ⟨x,hbuffer,hcall,htype,-,hbox⟩ := henq.stored (by simp [hs])
    have hbox' : v.outbox = ⟨w.outbox.size+x.buffer.length, w.outbox.list ++ [x],
      w.outbox.nextHandle+1⟩ := hbox
    refine ⟨x, hbuffer.trans (hpacket hs hfull).symm, hcall, Or.inl htype, by rw [hbox'], ?_⟩
    rw [hbox']
    exact List.map_append

/-! The two calls that bring a PUBLISH. -/

section Publishing

variable {w v : World} {topic : Option (List UInt8)} {d : CData} {len : ℤ} {qos retain seen : ℕ}

theorem passes_publish : w.passes (.publish topic d len qos retain) = true ↔
    ¬ (w.isV5 = true ∧ w.publishCheck qos retain = false) ∧
      ¬ (0 < qos ∧ w.overLimit (effectiveLen d len) = true) := by
  simp only [passes, Bool.and_eq_true, Bool.not_eq_true', ← Bool.not_eq_true, decide_eq_true_eq]

theorem passes_enqueue {store : Bool} : w.passes (.enqueue topic d len qos retain store) = true ↔
    ¬ (w.isV5 = true ∧ w.publishCheck qos retain = false) := by
  simp only [passes, Bool.and_eq_true, Bool.not_eq_true', ← Bool.not_eq_true]

theorem sends_publish : w.sends (.publish topic d len qos retain) = true ↔ w.state = .connected ∧
    ¬ (w.isV5 = true ∧ 0 < qos ∧ w.receiveMaximum ≤ w.sendPublishPacketCount) := by
  simp only [sends, Bool.and_eq_true, Bool.not_eq_true', ← Bool.not_eq_true, decide_eq_true_eq, and_assoc]

/-- What is stored is the packet composed and the rest of the payload. -/
theorem packet_publish (h : stores (.publish topic d len qos retain) = true)
    (hn : (w.composed (.publish topic d len qos retain) seen).nothingComposed = false) :
    w.packet (.publish topic d len qos retain) seen =
      (w.composed (.publish topic d len qos retain) seen).connection.outboundMessage.data ++
        (w.composed (.publish topic d len qos retain) seen).beyond d (effectiveLen d len) := by
  unfold packet
  simp [h, hn]

theorem packet_enqueue {store : Bool} (h : stores (.enqueue topic d len qos retain store) = true)
    (hn : (w.composed (.enqueue topic d len qos retain store) seen).nothingComposed = false) :
    w.packet (.enqueue topic d len qos retain store) seen =
      (w.composed (.enqueue topic d len qos retain store) seen).connection.outboundMessage.data ++
        (w.composed (.enqueue topic d len qos retain store) seen).beyond d (effectiveLen d len) := by
  unfold packet
  simp [h, hn]

/-- What is read of the session after storing is as it was before the call. -/
theorem enqueuePublish_session {c : ApiCall} (hc : ∀ s, c ≠ .setConfig s) {store : Bool} {id : Option ℕ}
    (he : (w.beginCall c seen).mqttClientEnqueuePublish topic d len qos retain store = (id, v)) :
    v.state = w.state ∧ v.isV5 = w.isV5 ∧ v.receiveMaximum = w.receiveMaximum ∧
      v.sendPublishPacketCount = w.sendPublishPacketCount := by
  have hbooks := enqueuePublish_ledger (w.beginCall c seen) topic d len qos retain store _ rfl
  rw [he, beginCall_ledger w c seen hc] at hbooks
  have hsame : v.ledger.state = w.ledger.state ∧ v.ledger.isV5 = w.ledger.isV5 ∧
      v.ledger.receiveMaximum = w.ledger.receiveMaximum ∧
      v.ledger.sendPublishPacketCount = w.ledger.sendPublishPacketCount := by
    rcases hbooks with ⟨o,hl,-⟩ | ⟨x,-,-,-,-,-,hl⟩ <;> rw [hl] <;> exact ⟨rfl,rfl,rfl,rfl⟩
  exact hsame

/-- A PUBLISH that the session lets out: all pieces are taken, or the connection is given up. -/
theorem sendPublish_outcome (H : Handler) (id : ℕ)
    (hp : Prepared w (.publish topic d len qos retain) seen v)
    (hs : w.sends (.publish topic d len qos retain) = true) (hup : v.state = .connected)
    {rest : List UInt8} {store : Bool} {o : Option ℕ}
    (henq : Enqueued (w.beginCall (.publish topic d len qos retain) seen)
      (w.composed (.publish topic d len qos retain) seen) rest store (o, v))
    {ok : Bool} {u : World} (hsend : sendPublish H d (effectiveLen d len) v = (ok, u)) :
    Outcome H w (.publish topic d len qos retain) seen
      (if ok = true then ((id : ℤ), u.published id qos) else cannotPublish (-1) u) := by
  generalize hc : ApiCall.publish topic d len qos retain = c at hp hs henq ⊢
  have htakes : (sendPublish H d (effectiveLen d len) v).1 = takes w.transport (w.writes c seen) := by
    rw [sendPublish_fst, henq.transport, henq.data, henq.dataSent, henq.bufferLength]
    have hwrites : w.writes c seen = (w.composed c seen).connection.outboundMessage.data.length ::
        pieces (w.composed c seen).connection.bufferLength
          (effectiveLen d len-(w.composed c seen).dataSent).toNat
          (effectiveLen d len-(w.composed c seen).dataSent) := by
      rw [← hc]
      rfl
    rw [hwrites]
    rfl
  have hcalls := fun hH : H.Calls => (sendPublish_calls hH d (effectiveLen d len) v (Or.inl hup)).1
  have hsound := fun (P : World → Prop) (hP : Sound H P) (h : P v) => hP.send d (effectiveLen d len) v h
  have hquiet := sendPublish_quiet H d (effectiveLen d len) v
  rw [hsend] at htakes hcalls hsound hquiet
  cases ok with
  | true =>
    have hbox : u.outbox = v.outbox := hquiet rfl
    obtain ⟨h1,h2⟩ := published_outbox u id qos
    exact .sent v hp hs htakes.symm (Int.natCast_nonneg id) (h1.trans (by rw [hbox]))
      (h2.trans (by rw [hbox]))
  | false =>
    refine .failed v hp hs htakes.symm (by simp [cannotPublish]) hcalls
      (fun hid => ⟨fun y hy ht => ?_, fun hreq => ?_⟩)
    · -- the abort clears requests only
      subst hid
      exact hsound _ (sound_idle ht) hy
    · rw [← hc] at hreq
      exact absurd hreq (by simp [isRequest])

end Publishing

theorem publish_outcome (H : Handler) (w : World) (topic : Option (List UInt8)) (d : CData) (len : ℤ)
    (qos retain seen : ℕ) : Outcome H w (.publish topic d len qos retain) seen
      (apiBody H (.publish topic d len qos retain) seen w) := by
  have hbody : apiBody H (.publish topic d len qos retain) seen w = espMqttClientPublish H topic d len
      qos retain (w.beginCall (.publish topic d len qos retain) seen) := rfl
  have hv5 : (w.beginCall (.publish topic d len qos retain) seen).isV5 = w.isV5 := rfl
  have hcheck : (w.beginCall (.publish topic d len qos retain) seen).publishCheck qos retain =
      w.publishCheck qos retain := rfl
  have hlimit : (w.beginCall (.publish topic d len qos retain) seen).overLimit (effectiveLen d len) =
      w.overLimit (effectiveLen d len) := rfl
  have hcomposed : w.composed (.publish topic d len qos retain) seen =
      ((w.beginCall (.publish topic d len qos retain) seen).makePublish topic d (effectiveLen d len)
        qos retain).2 := rfl
  have hstores : stores (.publish topic d len qos retain) = (decide (0 < qos) || false) :=
    (Bool.or_false _).symm
  rw [hbody]
  unfold espMqttClientPublish
  rw [hv5, hcheck]
  by_cases h1 : w.isV5 = true ∧ w.publishCheck qos retain = false
  · rw [if_pos h1]
    exact .refused (by simp) rfl fun ha => absurd h1 (passes_publish.mp ha).1
  · rw [if_neg h1]
    dsimp only
    rw [hlimit]
    by_cases h2 : 0 < qos ∧ w.overLimit (effectiveLen d len) = true
    · rw [if_pos h2]
      exact .refused (by simp) rfl fun ha => absurd h2 (passes_publish.mp ha).2
    · rw [if_neg h2]
      -- all tests are passed: the message is composed, and stored if its QoS is not 0
      have ha := (@passes_publish w topic d len qos retain).mpr ⟨h1,h2⟩
      have henq := enqueuePublish_enqueued (w.beginCall (.publish topic d len qos retain) seen) topic d
        (effectiveLen d len) qos retain false
      rw [← hcomposed] at henq
      generalize he : (w.beginCall (.publish topic d len qos retain) seen).mqttClientEnqueuePublish topic d
        (effectiveLen d len) qos retain false = e at henq ⊢
      obtain ⟨id,v⟩ := e
      cases id with
      | none =>
        obtain ⟨hbox,hwhy⟩ := refused_publish hcomposed hstores he
        exact .refused (by simp) hbox fun _ => hwhy
      | some id =>
        have hp : Prepared w (.publish topic d len qos retain) seen v :=
          prepared_publish ha hcomposed hstores packet_publish he
        obtain ⟨hstate,hv,hmax,hcount⟩ := enqueuePublish_session (by simp) he
        have hsends := @sends_publish w topic d len qos retain
        dsimp only
        by_cases h3 : v.state = .connected
        · rw [if_neg (not_not.mpr h3)]
          by_cases h4 : v.isV5 = true ∧ 0 < qos ∧ v.receiveMaximum ≤ v.sendPublishPacketCount
          · -- the quota is used up, so the stored packet is left to the worker
            rw [if_pos h4]
            have hs : w.sends (.publish topic d len qos retain) = false := by
              refine eq_false_of_ne_true fun h => (hsends.mp h).2 ?_
              rwa [hv, hmax, hcount] at h4
            exact .kept v hp hs ⟨fun _ => decide_eq_true h4.2.1, fun _ => Int.natCast_nonneg id⟩ rfl
          · rw [if_neg h4]
            have hs : w.sends (.publish topic d len qos retain) = true := by
              refine hsends.mpr ⟨hstate.symm.trans h3, ?_⟩
              rwa [hv, hmax, hcount] at h4
            generalize hsend : sendPublish H d (effectiveLen d len) v = r
            obtain ⟨ok,u⟩ := r
            have hout := sendPublish_outcome H id hp hs h3 henq hsend
            cases ok with
            | true => exact hout
            | false => exact hout
        · rw [if_pos h3]
          have hs : w.sends (.publish topic d len qos retain) = false :=
            eq_false_of_ne_true fun h => h3 (hstate.trans (hsends.mp h).1)
          refine .kept v hp hs ?_ rfl
          rw [hstores, Bool.or_false, decide_eq_true_eq]
          by_cases hq : 0 < qos
          · simp only [cannotPublish, hq, iff_true]
            exact Int.natCast_nonneg id
          · simp [cannotPublish, hq]

theorem enqueue_outcome (H : Handler) (w : World) (topic : Option (List UInt8)) (d : CData) (len : ℤ)
    (qos retain : ℕ) (store : Bool) (seen : ℕ) : Outcome H w (.enqueue topic d len qos retain store) seen
      (apiBody H (.enqueue topic d len qos retain store) seen w) := by
  have hbody : apiBody H (.enqueue topic d len qos retain store) seen w = espMqttClientEnqueue topic d
      len qos retain store (w.beginCall (.enqueue topic d len qos retain store) seen) := rfl
  have hv5 : (w.beginCall (.enqueue topic d len qos retain store) seen).isV5 = w.isV5 := rfl
  have hcheck : (w.beginCall (.enqueue topic d len qos retain store) seen).publishCheck qos retain =
      w.publishCheck qos retain := rfl
  have hcomposed : w.composed (.enqueue topic d len qos retain store) seen =
      ((w.beginCall (.enqueue topic d len qos retain store) seen).makePublish topic d
        (effectiveLen d len) qos retain).2 := rfl
  have hstores : stores (.enqueue topic d len qos retain store) = (decide (0 < qos) || store) := rfl
  rw [hbody]
  unfold espMqttClientEnqueue
  rw [hv5, hcheck]
  by_cases h1 : w.isV5 = true ∧ w.publishCheck qos retain = false
  · rw [if_pos h1]
    exact .refused (by simp) rfl fun ha => absurd h1 (passes_enqueue.mp ha)
  · rw [if_neg h1]
    have ha := (@passes_enqueue w topic d len qos retain store).mpr h1
    have hnumber := enqueuePublish_id (w.beginCall (.enqueue topic d len qos retain store) seen) topic d
      (effectiveLen d len) qos retain store
    generalize he : (w.beginCall (.enqueue topic d len qos retain store) seen).mqttClientEnqueuePublish
      topic d (effectiveLen d len) qos retain store = e at hnumber ⊢
    obtain ⟨id,v⟩ := e
    cases id with
    | none =>
      obtain ⟨hbox,hwhy⟩ := refused_publish hcomposed hstores he
      exact .refused (by simp) hbox fun _ => hwhy
    | some id =>
      have hp : Prepared w (.enqueue topic d len qos retain store) seen v :=
        prepared_publish ha hcomposed hstores packet_enqueue he
      refine .kept v hp rfl ?_ rfl
      have hid : id = 0 ↔ qos = 0 := hnumber id rfl
      -- -1 is returned just when nothing is stored
      have hzero : (id = 0 ∧ store = false) ↔ ¬ stores (.enqueue topic d len qos retain store) = true := by
        rw [hstores, hid]
        simp [Nat.pos_iff_ne_zero]
      dsimp only
      by_cases hs : stores (.enqueue topic d len qos retain store) = true
      · rw [if_neg (fun hz => hzero.mp hz hs)]
        exact ⟨fun _ => hs, fun _ => Int.natCast_nonneg id⟩
      · rw [if_pos (hzero.mpr hs)]
        exact ⟨fun h => absurd h (by simp), fun h => absurd h hs⟩

theorem write_idle (s : Site) (f : Bool) (w : World) : (espMqttWrite id s f w).2.outbox = w.outbox := by
  unfold espMqttWrite
  dsimp only
  split
  · rfl
  · rfl
  · exact dispatch_idle {(w.recordWrite s f).inCut (w.isCut f) with event :=
      {w.event with id := .error, errorHandle := some ⟨.tcpTransport, 0, 0, 0⟩}}

/-- A request that is composed: stored, marked as sent and written. -/
theorem request_outcome (H : Handler) (w : World) {c : ApiCall} {s : Site} {type : MsgType}
    {build : Connection → ℕ × Connection} (hreq : Request c s type build) (seen : ℕ)
    (hpasses : w.passes c = true) :
    Outcome H w c seen (storeAndSend H s (w.composed c seen)) := by
  have hcomposed : w.composed c seen = (w.beginCall c seen).resetPendingMessage.composeRequest
      type seen build := by
    cases hreq <;> rfl
  have hstores : stores c = true := by cases hreq <;> rfl
  have hrequest : isRequest c = true := by cases hreq <;> rfl
  have hsends : w.sends c = true := by cases hreq <;> rfl
  have hwrites : w.writes c seen = [(w.composed c seen).connection.outboundMessage.data.length] := by
    cases hreq <;> rfl
  have hpacket : (w.composed c seen).nothingComposed = false →
      w.packet c seen = (w.composed c seen).connection.outboundMessage.data := by
    intro hn
    unfold packet
    cases hreq <;> simp [hn, stores]
  obtain ⟨l,e,o,i,hframe⟩ := (w.beginCall c seen).resetPendingMessage.composeRequest_frame
    type seen build
  obtain ⟨hbooks,-⟩ := composeRequest_ledger (w.beginCall c seen).resetPendingMessage type
    seen build
  rw [← hcomposed] at hframe hbooks
  have hcall : (w.composed c seen).origin.call = w.calls+1 := by
    have h := congrArg (fun L : Ledger => L.origin.call) hbooks
    exact h
  generalize hu : w.composed c seen = u at hframe hcall hwrites hpacket ⊢
  have hbox : u.outbox = w.outbox := by rw [hframe]; rfl
  have hcalls : u.calls = w.calls+1 := by rw [hframe]; rfl
  have htransport : u.transport = w.transport := by rw [hframe]; rfl
  have hallocs : u.allocs = w.allocs := by rw [hframe]; rfl
  -- a request is marked as sent before it is written, so a failed write leaves it marked
  unfold storeAndSend
  by_cases hn : u.nothingComposed = true
  · rw [if_pos hn]
    exact .refused (by simp) hbox fun _ => Or.inl (hu ▸ hn)
  · rw [if_neg hn]
    rw [Bool.not_eq_true] at hn
    obtain ⟨ok,n,t,a,o',l',heq,hno,hyes⟩ :=
      World.mqttEnqueue_eq {u with pendingMsgType := u.outboundType} []
    have hok := mqttEnqueue_ok {u with pendingMsgType := u.outboundType} []
    rw [heq] at hok
    have hmem : ok = w.hasMemory := by
      rw [show ok = _ from hok]
      unfold hasMemory
      rw [← hallocs]
    rw [heq]
    cases ok with
    | false => exact .refused (by simp) ((hno rfl).1.trans hbox) fun _ => Or.inr ⟨hstores, hmem.symm⟩
    | true =>
      dsimp only
      generalize hv : {u with
        now := n, ticks := t, allocs := a, pendingMsgType := u.outboundType, stored := l'
        outbox := o'.setPending u.pendingMsgId .transmitted} = v
      have hp : Prepared w c seen v := by
        refine ⟨hpasses, by rw [hu]; exact hn, fun _ => hmem.symm, ?_, fun h => ?_, fun _ => ?_⟩
        · rw [← hv]
          exact hcalls
        · rw [hstores] at h
          exact absurd h (by simp)
        · obtain ⟨x,hx,ho,-⟩ := hyes rfl
          refine ⟨x, ?_, by rw [hx]; exact hcall, Or.inr hrequest, ?_, ?_⟩
          · rw [hx, hpacket hn]
            exact List.append_nil _
          · rw [← hv]
            change o'.size = _
            rw [ho, ← hbox]
          · rw [← hv]
            rw [Outbox.setPending_labels, ho, ← hbox]
            exact List.map_append
      have hdata : v.connection.outboundMessage.data = u.connection.outboundMessage.data := by
        rw [← hv]
      have htransport' : v.transport = w.transport := by
        rw [← hv]
        exact htransport
      have htakes := takes_write H s true v []
      rw [hdata, htransport', ← hwrites] at htakes
      have hok := espMqttWrite_ok (H := H) (w := v) (s := s) (f := true)
      have hmoves := fun hH : H.Calls => espMqttWrite_calls hH s true v
        (fun hs => absurd hs (by cases hreq <;> decide))
      have hidle : H = id → (espMqttWrite H s true v).2.outbox = v.outbox := by
        rintro rfl
        exact write_idle s true v
      generalize espMqttWrite H s true v = r at htakes hok hmoves hidle ⊢
      obtain ⟨ok,z⟩ := r
      cases ok with
      | false =>
        refine .failed v hp hsends htakes (by simp) hmoves fun hid => ⟨fun y hy _ => ?_, fun _ => hidle hid⟩
        exact (hidle hid).symm ▸ hy
      | true =>
        obtain ⟨hz,-⟩ := hok rfl
        have hzbox : z.outbox = v.outbox := by
          rw [show z = _ from hz]
          rfl
        refine .sent v hp hsends htakes (Int.natCast_nonneg _) ?_ ?_
        · rw [hzbox]
        · rw [hzbox]

/-- Every call that brings a packet ends in one of these ways. -/
theorem call_outcome (H : Handler) (w : World) {c : ApiCall} (hc : brings c = true) (seen : ℕ) :
    Outcome H w c seen (apiBody H c seen w) := by
  cases c with
  | publish topic d len qos retain => exact publish_outcome H w topic d len qos retain seen
  | enqueue topic d len qos retain store => exact enqueue_outcome H w topic d len qos retain store seen
  | subscribe topics =>
    change Outcome H w _ seen (espMqttClientSubscribe H topics seen (w.beginCall (.subscribe topics) seen))
    unfold espMqttClientSubscribe
    dsimp only
    split
    · rename_i hqos
      refine .refused (by simp) rfl fun ha => ?_
      rw [passes, Bool.not_eq_true', Bool.and_eq_false_iff] at ha
      rcases ha with ha | ha
      · exact absurd (hqos.1.symm.trans ha) (by simp)
      · exact absurd hqos.2 (of_decide_eq_false ha)
    · rename_i hqos
      refine request_outcome H w (.subscribe topics) seen ?_
      rw [passes, Bool.not_eq_true', Bool.and_eq_false_imp]
      exact fun h5 => decide_eq_false fun hlt => hqos ⟨h5,hlt⟩
  | unsubscribe topic => exact request_outcome H w (.unsubscribe topic) seen rfl
  | disconnect => exact absurd hc (by simp [brings])
  | reconnect => exact absurd hc (by simp [brings])
  | setConfig s => exact absurd hc (by simp [brings])

end World

end EspMqtt
