import EspMqtt.Admission
import EspMqtt.Mqtt5RoundTrip

/-! What `mqtt_client_enqueue_publish` stores: the whole PUBLISH, in a small output buffer
as in a large one. -/
namespace EspMqtt
open World

/-! The outbound message and what is not in it. -/

/-- The packet is in the outbound message, or it goes on with what is behind the part of
the payload that the message has. -/
def CompletesTo (m : OutMessage) (d : CData) (len : ℤ) (packet : List UInt8) : Prop :=
  (m.fragmentedMsgTotalLength = 0 ∧ m.data = packet) ∨
  (m.fragmentedMsgTotalLength ≠ 0 ∧ m.data ≠ [] ∧ ∃ k : ℕ,
    (m.data.length : ℤ)-m.fragmentedMsgDataOffset = k ∧ k ≤ len ∧ len < 2^31 ∧
    m.data ++ d.slice k (len-k).toNat = packet)

/-- A packet cut at the end of the buffer, and the rest of its payload. -/
theorem cut_append (front : List UInt8) {d : CData} {head : List UInt8} {n : ℕ} {len : ℤ}
    (hhead : 5+head.length ≤ n) (hlong : n ≤ 5+head.length+len.toNat) :
    front ++ (head ++ d.slice 0 len.toNat).take (n-5) ++
      d.slice (n-(5+head.length) : ℕ) (len-(n-(5+head.length) : ℕ)).toNat =
        front ++ (head ++ d.slice 0 len.toNat) := by
  have hsplit := d.slice_append 0 (n-(5+head.length)) (len.toNat-(n-(5+head.length)))
  rw [show n-(5+head.length)+(len.toNat-(n-(5+head.length))) = len.toNat by omega, zero_add]
    at hsplit
  have hrest : (len-(n-(5+head.length) : ℕ)).toNat = len.toNat-(n-(5+head.length)) := by omega
  rw [take_payload hhead hlong, hrest, List.append_assoc, List.append_assoc, hsplit]

theorem publish_completes {c : Connection} {topic : List UInt8} {d : CData} {len : ℤ}
    {qos retain : ℕ} (hc : c.outboundMessage.fragmentedMsgTotalLength = 0)
    (hrange : (Outgoing.publish topic d len qos retain).InRange)
    (hhead : 5+(publishHead topic qos (c.publishId qos).1).length ≤ c.bufferLength) :
    let r := mqttMsgPublish c (some topic) d len qos retain
    let p := calledPublish topic d len qos retain (c.publishId qos).1
    r.1 = (c.publishId qos).1 ∧
    (p.body.length < 128^4 → CompletesTo r.2.outboundMessage d len p.encoding) ∧
    (¬ p.body.length < 128^4 → r.2.outboundMessage.data = []) := by
  intro r p
  obtain ⟨hid,hfits,hcut,hnone⟩ := publish_composed hc hrange
  obtain ⟨-,-,hlen,-,hqos,-,hint⟩ := hrange
  have hbody : p.body.length = (publishHead topic qos (c.publishId qos).1).length+len.toNat :=
    publish_body_length topic d len qos retain (c.publishId qos).1
  have hsame : (Outgoing.publish topic d len qos retain).body (c.publishId qos).1 = p.body := rfl
  have hfirst : (Outgoing.publish topic d len qos retain).first = p.firstByte :=
    headerByte_publish topic d len qos retain _ hqos
  refine ⟨hid hhead, fun hshort => ?_, fun hbig => ?_⟩
  · by_cases hroom : 5+p.body.length ≤ c.bufferLength
    · obtain ⟨hdata,htotal⟩ := hfits ⟨hroom,hshort⟩
      refine Or.inl ⟨htotal, ?_⟩
      rw [hdata, hfirst, hsame]
      rfl
    · have hlong : c.bufferLength < 5+p.body.length := not_le.mp hroom
      have hle : c.bufferLength ≤
          5+(publishHead topic qos (c.publishId qos).1).length+len.toNat := by omega
      obtain ⟨hdata,htotal,hoff⟩ := hcut ⟨hhead, hlong, hshort⟩
      right
      refine ⟨by rw [htotal]; omega, by rw [hdata]; exact List.cons_ne_nil _ _, _,
        by rw [hoff, Int.ofNat_sub hhead], by omega, by omega, ?_⟩
      rw [hdata, Outgoing.cut, hfirst, hsame]
      exact cut_append (p.firstByte :: Base128.encode 3 p.body.length) hhead hle
  · exact hnone (fun h => hbig h.2) fun h => hbig h.2.2

theorem publish5_completes {s : Composer} {c : Connection} (hs : s.Sound c)
    {topic : Option (List UInt8)} {d : CData} {len : ℤ} {qos retain : ℕ}
    {property : Option PublishProperty} {respInfo : Option (List UInt8)}
    (htopic : (given topic).isSome ∨ (property.map PublishProperty.topicAlias).getD 0 ≠ 0)
    (hd : 0 ≤ len) (hnull : d.isNull = true → len = 0)
    (hint : 5+(((Outgoing5.publish topic d len qos retain property respInfo).body 0).length : ℤ) < 2^31)
    (hhead : 5+(publishHead5 topic qos (c.publishId qos).1 property respInfo).length ≤
      c.bufferLength) :
    let q := Outgoing5.publish topic d len qos retain property respInfo
    let r := q.composeIn s
    r.1 = (c.publishId qos).1 ∧
    ((q.body (c.publishId qos).1).length < 128^4 →
      CompletesTo r.2.connection.outboundMessage d len (q.bytes (c.publishId qos).1)) ∧
    (¬ (q.body (c.publishId qos).1).length < 128^4 → r.2.connection.outboundMessage.data = []) := by
  intro q r
  obtain ⟨hid,hfits,hcut,hnone⟩ := publish_composed5 hs htopic hd hnull hint
  have hbody : (q.body (c.publishId qos).1).length = (publishHead5 topic qos (c.publishId qos).1 property respInfo).length+len.toNat :=
    publish_body5_length topic d len qos retain (c.publishId qos).1 property respInfo
  have hshort' : 5+((q.body (c.publishId qos).1).length : ℤ) < 2^31 := by
    rw [body5_length_eq q (c.publishId qos).1 0]
    exact hint
  refine ⟨hid hhead, fun hshort => ?_, fun hbig => ?_⟩
  · by_cases hroom : 5+(q.body (c.publishId qos).1).length ≤ c.bufferLength
    · obtain ⟨hdata,htotal⟩ := hfits ⟨hroom,hshort⟩
      exact Or.inl ⟨htotal,hdata⟩
    · have hlong : c.bufferLength < 5+(q.body (c.publishId qos).1).length := not_le.mp hroom
      have hle : c.bufferLength ≤
          5+(publishHead5 topic qos (c.publishId qos).1 property respInfo).length+len.toNat := by omega
      obtain ⟨hdata,htotal,hoff⟩ := hcut ⟨hhead, hlong, hshort⟩
      right
      refine ⟨by rw [htotal]; omega, by rw [hdata]; exact List.cons_ne_nil _ _, _,
        by rw [hoff, Int.ofNat_sub hhead], by omega, by omega, ?_⟩
      rw [hdata]
      exact cut_append (q.first :: Base128.encode 3 (q.body (c.publishId qos).1).length) hhead hle
  · exact hnone (fun h => hbig h.2) fun h => hbig h.2.2

/-! The stored item. -/

/-- The packets that `v` has stored behind those of `w`. -/
def World.storedSince (w v : World) : List (List UInt8) :=
  (v.outbox.list.drop w.outbox.list.length).map OutboxItem.buffer

theorem storedSince_self (w : World) : w.storedSince w = [] := by
  simp [World.storedSince]

/-- `mqtt_enqueue` stores the outbound message and what it is given, if there is memory. -/
theorem mqttEnqueue_stored (w : World) (rest : List UInt8) :
    w.storedSince (w.mqttEnqueue rest).2 =
      if w.hasMemory then [w.connection.outboundMessage.data ++ rest] else [] := by
  have hok := mqttEnqueue_ok w rest
  obtain ⟨ok,n,t,a,o,l,heq,hno,hyes⟩ := w.mqttEnqueue_eq rest
  rw [heq] at hok ⊢
  rw [← hok]
  cases ok with
  | false =>
    rw [(hno rfl).1]
    exact storedSince_self w
  | true =>
    obtain ⟨x,rfl,rfl,-⟩ := hyes rfl
    simp [World.storedSince]

/-- A message composed, in whatever part, is stored as a whole. -/
theorem enqueuePublish_stored {w v : World} {topic : Option (List UInt8)} {d : CData} {len : ℤ}
    {qos retain id : ℕ} {store : Bool} {packet : List UInt8}
    (hmake : w.makePublish topic d len qos retain = (some id, v)) (hout : v.outbox = w.outbox)
    (hallocs : v.allocs = w.allocs) (h : CompletesTo v.connection.outboundMessage d len packet) :
    w.storedSince (w.mqttClientEnqueuePublish topic d len qos retain store).2 =
      if (0 < qos ∨ store = true) ∧ w.hasMemory then [packet] else [] := by
  have hsince (u : World) : w.storedSince u = v.storedSince u := by
    unfold World.storedSince
    rw [hout]
  have hmem : v.hasMemory = w.hasMemory := by
    unfold World.hasMemory
    rw [hallocs]
  unfold mqttClientEnqueuePublish
  rw [hmake]
  dsimp only
  by_cases hs : 0 < qos ∨ store = true
  · rw [if_pos hs, hsince, ← hmem]
    simp only [hs, true_and]
    -- either the buffer holds the whole packet, or the payload goes on from byte `k`
    rcases h with ⟨h1,h2⟩ | ⟨h1,-,k,h2,h3,h4,h5⟩
    · rw [if_pos h1]
      have hstored := mqttEnqueue_stored {v with
        pendingMsgType := v.outboundType, pendingMsgId := id, pendingPublishQos := qos} []
      rw [List.append_nil] at hstored
      rw [← h2]
      exact hstored
    · have hsent : v.dataSent = k := by
        unfold World.dataSent OutMessage.dataSent
        rw [h2]
        exact Int.bmod_eq_of_le (by omega) (by omega)
      rw [if_neg h1]
      have hdata : World.dataSent {v with
          pendingMsgType := v.outboundType, pendingMsgId := id, pendingPublishQos := qos} = k := hsent
      have hstored := mqttEnqueue_stored {v with
        pendingMsgType := v.outboundType, pendingMsgId := id, pendingPublishQos := qos}
        (d.slice k (len-k).toNat)
      rw [hdata, ← h5]
      split <;> exact hstored
  · rw [if_neg hs, hsince]
    simp only [hs, false_and, if_false]
    exact storedSince_self v

/-! A v5 client whose encoder is `mqtt5_msg_publish` on a buffer. -/

/-- What the encoder answers the client. -/
def publishAnswer (q : Outgoing5) (s : Composer) : Mqtt5Answer :=
  let r := q.composeIn s
  let m := r.2.connection.outboundMessage
  {World.mqtt5Default with
    encoded := if m.data = [] then none else some m.data.tail
    fragmentedMsgTotalLength := m.fragmentedMsgTotalLength
    fragmentedMsgDataOffset := m.fragmentedMsgDataOffset
    msgId := r.1}

/-- The client with the connection and the buffer of `s`, where `q` is encoded next. -/
def World.encodingIn (w : World) (q : Outgoing5) (s : Composer) : World :=
  {w with connection := s.connection, mqtt5 := publishAnswer q s :: w.mqtt5}

theorem messageId_outboundMessage (c : Connection) (m : OutMessage) (messageId : ℕ) :
    (Connection.messageId {c with outboundMessage := m} messageId).1 = (c.messageId messageId).1 := by
  unfold Connection.messageId
  split
  · rfl
  · dsimp only
    split <;> rfl

/-- The codec's answer is the encoder's outbound message, with its type byte in front. -/
theorem composeNumbered_encoding (w : World) (q : Outgoing5) (s : Composer) {qos retain : ℕ}
    (hfirst : ∀ b bs, (q.composeIn s).2.connection.outboundMessage.data = b :: bs →
      b = headerByte .publish 0 qos retain) :
    let m := (q.composeIn s).2.connection.outboundMessage
    let e := (w.encodingIn q s).composeNumbered .publish qos retain
    e.2.connection.outboundMessage = m ∧ e.2.outbox = w.outbox ∧ e.2.allocs = w.allocs ∧
      (m.data ≠ [] → e.1 = (s.connection.publishId qos).1) := by
  intro m e
  have hdata : ((publishAnswer q s).encoded.map (headerByte .publish 0 qos retain :: ·)).getD [] =
      m.data := by
    change ((if m.data = [] then none else some m.data.tail).map _).getD [] = _
    cases hm : m.data with
    | nil => rfl
    | cons b bs =>
      rw [hfirst b bs hm]
      rfl
  have hcomposed : ((w.encodingIn q s).composeMqtt5 .publish qos retain) =
      ((q.composeIn s).1, {w with connection := {s.connection with outboundMessage := m}}) := by
    unfold composeMqtt5
    change (_, {w with connection := {s.connection with outboundMessage :=
      ⟨((publishAnswer q s).encoded.map _).getD [], _, _⟩}}) = _
    rw [hdata]
    rfl
  have he : e = (w.encodingIn q s).composeNumbered .publish qos retain := rfl
  unfold composeNumbered at he
  rw [hcomposed] at he
  dsimp only at he
  -- the client draws the identifier itself, once more than the codec
  by_cases hq : 0 < qos ∧ ((q.composeIn s).1 ≠ 0 ∨ m.data ≠ [])
  · rw [if_pos hq] at he
    rw [he]
    refine ⟨(messageId_frame _ 0).1, rfl, rfl, fun _ => ?_⟩
    have hid : s.connection.publishId qos = s.connection.messageId 0 := if_pos hq.1
    rw [hid]
    exact messageId_outboundMessage s.connection m 0
  · rw [if_neg hq] at he
    rw [he]
    refine ⟨rfl, rfl, rfl, fun hne => ?_⟩
    have hid : s.connection.publishId qos = (0, s.connection) :=
      if_neg fun hpos => hq ⟨hpos, Or.inr hne⟩
    rw [hid]

/-- What there is of a packet begins as it does. -/
theorem CompletesTo.head_eq {m : OutMessage} {d : CData} {len : ℤ} {first : UInt8}
    {rest : List UInt8} (h : CompletesTo m d len (first :: rest)) {b : UInt8} {bs : List UInt8}
    (hm : m.data = b :: bs) : b = first := by
  rcases h with ⟨-,h⟩ | ⟨-,-,k,-,-,-,h⟩
  · rw [hm] at h
    exact (List.cons.inj h).1
  · rw [hm, List.cons_append] at h
    exact (List.cons.inj h).1

theorem CompletesTo.data_ne {m : OutMessage} {d : CData} {len : ℤ} {first : UInt8}
    {rest : List UInt8} (h : CompletesTo m d len (first :: rest)) : m.data ≠ [] := by
  rcases h with ⟨-,h⟩ | ⟨-,h,-⟩
  · rw [h]
    exact List.cons_ne_nil _ _
  · exact h

/-- A message that cannot be composed is not stored. -/
theorem enqueuePublish_refused {w v : World} {topic : Option (List UInt8)} {d : CData} {len : ℤ}
    {qos retain : ℕ} (store : Bool) (hmake : w.makePublish topic d len qos retain = (none, v))
    (hout : v.outbox = w.outbox) :
    w.storedSince (w.mqttClientEnqueuePublish topic d len qos retain store).2 = [] := by
  unfold mqttClientEnqueuePublish
  rw [hmake]
  dsimp only
  unfold World.storedSince
  rw [hout, List.drop_length, List.map_nil]

/-- The call stores its packet: it asks for that, the packet has a Remaining Length, and
there is memory. -/
def World.Storable (w : World) (qos : ℕ) (store : Bool) (bodyLength : ℕ) : Prop :=
  (0 < qos ∨ store = true) ∧ bodyLength < 128^4 ∧ w.hasMemory = true

instance (w : World) (qos : ℕ) (store : Bool) (bodyLength : ℕ) :
    Decidable (w.Storable qos store bodyLength) := inferInstanceAs (Decidable (_ ∧ _))

/-- From what `make_publish` leaves to what is stored. -/
theorem stored_of_made {w : World} {topic : Option (List UInt8)} {d : CData} {len : ℤ}
    {qos retain n : ℕ} (id : ℕ) (store : Bool) {packet : List UInt8}
    (hout : (w.makePublish topic d len qos retain).2.outbox = w.outbox)
    (hallocs : (w.makePublish topic d len qos retain).2.allocs = w.allocs)
    (hyes : n < 128^4 → (w.makePublish topic d len qos retain).1 = some id ∧
      CompletesTo (w.makePublish topic d len qos retain).2.connection.outboundMessage d len packet)
    (hno : ¬ n < 128^4 → (w.makePublish topic d len qos retain).1 = none) :
    w.storedSince (w.mqttClientEnqueuePublish topic d len qos retain store).2 =
      if w.Storable qos store n then [packet] else [] := by
  generalize hmake : w.makePublish topic d len qos retain = r at hout hallocs hyes hno
  obtain ⟨ret,v⟩ := r
  unfold World.Storable
  by_cases hn : n < 128^4
  · obtain ⟨hret,hcomp⟩ := hyes hn
    have hret' : ret = some id := hret
    rw [hret'] at hmake
    rw [enqueuePublish_stored hmake hout hallocs hcomp]
    simp only [hn, true_and]
  · have hret : ret = none := hno hn
    rw [hret] at hmake
    rw [enqueuePublish_refused store hmake hout]
    simp only [hn, false_and, and_false, if_false]

theorem publish_stored {w : World} (hv : w.isV5 = false) {topic : List UInt8} {d : CData} {len : ℤ}
    {qos retain : ℕ} (store : Bool) (hc : w.connection.outboundMessage.fragmentedMsgTotalLength = 0)
    (hrange : (Outgoing.publish topic d len qos retain).InRange)
    (hhead : 5+(publishHead topic qos (w.connection.publishId qos).1).length ≤
      w.connection.bufferLength) :
    let p := calledPublish topic d len qos retain (w.connection.publishId qos).1
    w.storedSince (w.mqttClientEnqueuePublish (some topic) d len qos retain store).2 =
      if w.Storable qos store p.body.length then [p.encoding] else [] := by
  intro p
  obtain ⟨hid,hyes,hno⟩ := publish_completes hc hrange hhead
  have hmake : w.makePublish (some topic) d len qos retain =
      let e := mqttMsgPublish w.connection (some topic) d len qos retain
      let v := World.publishing {w with connection := e.2} d.isNull len
      if e.2.outboundMessage.data.isEmpty then (none, v) else (some e.1, v) := by
    unfold makePublish
    simp only [hv, Bool.false_eq_true, if_false]
    rfl
  have hframe : (w.makePublish (some topic) d len qos retain).2 = World.publishing {w with connection :=
      (mqttMsgPublish w.connection (some topic) d len qos retain).2} d.isNull len := by
    rw [hmake]
    dsimp only
    split <;> rfl
  apply stored_of_made (w.connection.publishId qos).1 store
  · rw [hframe]
    rfl
  · rw [hframe]
    rfl
  -- a Remaining Length of four bytes is enough
  · intro hn
    have hcomp := hyes hn
    have hne := hcomp.data_ne
    rw [hframe]
    refine ⟨?_, hcomp⟩
    rw [hmake]
    dsimp only
    rw [if_neg (by simpa using hne), hid]
  · intro hn
    have hempty := hno hn
    rw [hmake]
    dsimp only
    rw [hempty]
    rfl

theorem publish5_stored {w : World} (hv : w.isV5 = true) {s : Composer}
    (hs : s.Sound s.connection) {topic : Option (List UInt8)} {d : CData} {len : ℤ} {qos retain : ℕ}
    (store : Bool) {property : Option PublishProperty} {respInfo : Option (List UInt8)}
    (htopic : (given topic).isSome ∨ (property.map PublishProperty.topicAlias).getD 0 ≠ 0)
    (hd : 0 ≤ len) (hnull : d.isNull = true → len = 0)
    (hint : 5+(((Outgoing5.publish topic d len qos retain property respInfo).body 0).length : ℤ) < 2^31)
    (hhead : 5+(publishHead5 topic qos (s.connection.publishId qos).1 property respInfo).length ≤
      s.connection.bufferLength) :
    let q := Outgoing5.publish topic d len qos retain property respInfo
    let id := (s.connection.publishId qos).1
    let v := w.encodingIn q s
    v.storedSince (v.mqttClientEnqueuePublish topic d len qos retain store).2 =
      if w.Storable qos store (q.body id).length then [q.bytes id] else [] := by
  intro q id v
  obtain ⟨-,hyes,hno⟩ := publish5_completes hs htopic hd hnull hint hhead
  -- the codec answers without the type byte, which the client puts in front again
  have hfirst : ∀ b bs, (q.composeIn s).2.connection.outboundMessage.data = b :: bs →
      b = headerByte .publish 0 qos retain := by
    intro b bs hb
    by_cases hn : (q.body id).length < 128^4
    · exact (hyes hn).head_eq hb
    · rw [hno hn] at hb
      exact absurd hb.symm (List.cons_ne_nil b bs)
  obtain ⟨h1,h2,h3,h4⟩ := composeNumbered_encoding w q s hfirst
  have hmake : v.makePublish topic d len qos retain =
      let e := v.composeNumbered .publish qos retain
      let u := e.2.publishing d.isNull len
      if e.2.connection.outboundMessage.data.isEmpty then (none, u) else (some e.1, u) := by
    have hv' : v.isV5 = true := hv
    unfold makePublish
    simp only [hv', if_true]
    rfl
  have hframe : (v.makePublish topic d len qos retain).2 =
      (v.composeNumbered .publish qos retain).2.publishing d.isNull len := by
    rw [hmake]
    dsimp only
    split <;> rfl
  change _ = if v.Storable qos store (q.body id).length then [q.bytes id] else []
  apply stored_of_made id store
  · rw [hframe]
    exact h2
  · rw [hframe]
    exact h3
  · intro hn
    have hcomp := hyes hn
    have hne := hcomp.data_ne
    refine ⟨?_, ?_⟩
    · rw [hmake]
      dsimp only
      rw [h1, if_neg (by simpa using hne), h4 hne]
    · rw [hframe]
      change CompletesTo (v.composeNumbered .publish qos retain).2.connection.outboundMessage d len _
      rw [h1]
      exact hcomp
  · intro hn
    have hempty := hno hn
    rw [hmake]
    dsimp only
    rw [h1, hempty]
    rfl

/-- What a call stores does not depend on the output buffer: two connections that draw the
same identifier, with no fragment left over and room for the header (and the properties)
of the message, store the same bytes, and these are the whole packet. -/
theorem stored_copy_independent (w : World) (d : CData) (len : ℤ) (qos retain id : ℕ) (store : Bool) :
    (∀ (topic : List UInt8) (c₁ c₂ : Connection), w.isV5 = false →
      (Outgoing.publish topic d len qos retain).InRange →
      (∀ c ∈ [c₁, c₂], c.outboundMessage.fragmentedMsgTotalLength = 0 ∧ (c.publishId qos).1 = id ∧
        5+(publishHead topic qos id).length ≤ c.bufferLength) →
      let p := calledPublish topic d len qos retain id
      let stored (c : Connection) : List (List UInt8) := {w with connection := c}.storedSince
        ({w with connection := c}.mqttClientEnqueuePublish (some topic) d len qos retain store).2
      stored c₁ = stored c₂ ∧
      stored c₁ = if w.Storable qos store p.body.length then [p.encoding] else []) ∧
    (∀ (topic : Option (List UInt8)) (property : Option PublishProperty)
        (respInfo : Option (List UInt8)) (s₁ s₂ : Composer), w.isV5 = true →
      let q := Outgoing5.publish topic d len qos retain property respInfo
      ((given topic).isSome ∨ (property.map PublishProperty.topicAlias).getD 0 ≠ 0) →
      0 ≤ len → (d.isNull = true → len = 0) → 5+((q.body 0).length : ℤ) < 2^31 →
      (∀ s ∈ [s₁, s₂], s.Sound s.connection ∧ (s.connection.publishId qos).1 = id ∧
        5+(publishHead5 topic qos id property respInfo).length ≤ s.connection.bufferLength) →
      let stored (s : Composer) : List (List UInt8) := (w.encodingIn q s).storedSince
        ((w.encodingIn q s).mqttClientEnqueuePublish topic d len qos retain store).2
      stored s₁ = stored s₂ ∧
      stored s₁ = (if w.Storable qos store (q.body id).length then [q.bytes id] else []) ∧
      (q.InRange → (q.body id).length < 128^4 →
        Wire5.decode (q.bytes id) = some (q.packet id))) := by
  -- each of the two stores the packet, which names neither of them
  constructor
  · intro topic c₁ c₂ hv hrange hc p stored
    have hone : ∀ c ∈ [c₁, c₂],
        stored c = if w.Storable qos store p.body.length then [p.encoding] else [] := by
      intro c hmem
      obtain ⟨htotal,hid,hhead⟩ := hc c hmem
      rw [← hid] at hhead
      have hstored := publish_stored (w := {w with connection := c}) hv store htotal hrange hhead
      dsimp only at hstored
      rw [hid] at hstored
      exact hstored
    have h1 := hone c₁ List.mem_cons_self
    have h2 := hone c₂ (List.mem_cons_of_mem _ List.mem_cons_self)
    exact ⟨h1.trans h2.symm, h1⟩
  · intro topic property respInfo s₁ s₂ hv q htopic hd hnull hint hs stored
    have hone : ∀ s ∈ [s₁, s₂],
        stored s = if w.Storable qos store (q.body id).length then [q.bytes id] else [] := by
      intro s hmem
      obtain ⟨hsound,hid,hhead⟩ := hs s hmem
      rw [← hid] at hhead
      have hstored := publish5_stored hv hsound store htopic hd hnull hint hhead
      dsimp only at hstored
      rw [hid] at hstored
      exact hstored
    have h1 := hone s₁ List.mem_cons_self
    have h2 := hone s₂ (List.mem_cons_of_mem _ List.mem_cons_self)
    refine ⟨h1.trans h2.symm, h1, fun hrange hlen => ?_⟩
    have hdrawn := publishId_range s₁.connection qos
    rw [(hs s₁ List.mem_cons_self).2.1] at hdrawn
    rw [Outgoing5.bytes, Wire5.decode_framed _ _ hlen]
    exact decodeBody_outgoing5 hrange hdrawn hlen

/-- A publish with a topic alias. -/
def aliasProperty : PublishProperty := ⟨false, 0, 3, none, none, none, none⟩

/-- Ten bytes of buffer are too few for the payload, 64 are enough; with a property it is fourteen. -/
theorem stored_copy_two_buffers :
    let w := smallConnected
    let w5 := {w with information := v5Settings.information}
    let q := Outgoing5.publish (some [0x74]) zeroData 5 1 0 (some aliasProperty) none
    let stored (n : ℕ) : List (List UInt8) :=
      {w with connection := (freshComposer n).connection}.storedSince
        ({w with connection := (freshComposer n).connection}.mqttClientEnqueuePublish (some [0x74])
          zeroData 5 1 0 false).2
    let stored5 (n : ℕ) : List (List UInt8) :=
      (w5.encodingIn q (freshComposer n)).storedSince
        ((w5.encodingIn q (freshComposer n)).mqttClientEnqueuePublish (some [0x74]) zeroData 5 1 0 false).2
    (stored 10 = stored 64 ∧ stored 10 = [(calledPublish [0x74] zeroData 5 1 0 1).encoding]) ∧
    stored5 14 = stored5 64 ∧ stored5 14 = [q.bytes 1] := by
  have hall := stored_copy_independent smallConnected zeroData 5 1 0 1 false
  have hall5 := stored_copy_independent {smallConnected with information := v5Settings.information}
    zeroData 5 1 0 1 false
  have h := hall.1 [0x74] (freshComposer 10).connection (freshComposer 64).connection (by decide +kernel)
    ⟨by decide, by decide, by decide, by decide, by decide, by decide, by decide⟩ (by decide +kernel)
  have h5 := hall5.2 (some [0x74]) (some aliasProperty) none (freshComposer 14) (freshComposer 64)
    (by decide +kernel) (by decide +kernel) (by decide) (by decide) (by decide +kernel) (fun s hs => ?_)
  · exact ⟨⟨h.1, h.2.trans (if_pos (by decide +kernel))⟩, h5.1, h5.2.1.trans (if_pos (by decide +kernel))⟩
  · rcases List.mem_cons.mp hs with rfl | hs
    · exact ⟨⟨rfl, rfl, by simp [freshComposer]⟩, by decide +kernel, by decide +kernel⟩
    · rw [List.mem_singleton] at hs
      subst hs
      exact ⟨⟨rfl, rfl, by simp [freshComposer]⟩, by decide +kernel, by decide +kernel⟩

end EspMqtt
