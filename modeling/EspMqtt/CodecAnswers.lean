import EspMqtt.AckPackets
import EspMqtt.ControlPackets
import EspMqtt.ServerCapabilities
import EspMqtt.StoredCopy

/-! A v5 client asks its codec and is answered. Here the answers are those of the functions of
`mqtt5_msg.c`, on the bytes that the client has in its buffers: of a CONNACK, of a SUBACK, and of
the packets it composes. -/
namespace EspMqtt
open World

/-! A CONNACK. -/

namespace World

/-- The codec answers what `esp_mqtt5_parse_connack` makes of the packet in the input buffer. -/
structure AnswersConnack (w : World) (h : Handshake) : Prop where
  buffer : h.buffer = w.rx.inBuffer
  len : h.len = w.rx.inBufferReadLen
  accepted : (w.askMqtt5.1.connackParsed = true ∧ w.askMqtt5.1.connectRspCode = 0) ↔ h.after.ok = true
  code : w.askMqtt5.1.connectRspCode = h.after.reasonCode
  keepalive : w.askMqtt5.1.serverKeepalive.getD w.information.keepalive = h.after.info.keepalive
  receiveMaximum : w.askMqtt5.1.receiveMaximum = h.after.info.server.receiveMaximum
  maxQos : w.askMqtt5.1.maxQos = h.after.info.server.maxQos
  retainAvailable : w.askMqtt5.1.retainAvailable = h.after.info.server.retainAvailable

end World

/-- What it answers is there for every CONNACK that is parsed. -/
def connackAnswer (h : Handshake) : Mqtt5Answer :=
  {World.mqtt5Default with
    connackParsed := h.after.ok
    connectRspCode := h.after.reasonCode
    serverKeepalive := some h.after.info.keepalive
    receiveMaximum := h.after.info.server.receiveMaximum
    maxQos := h.after.info.server.maxQos
    retainAvailable := h.after.info.server.retainAvailable}

/-- An accepted CONNACK has the reason code 0. -/
theorem Handshake.reasonCode (h : Handshake) (hok : h.after.ok = true) : h.after.reasonCode = 0 := by
  obtain ⟨r,-,hafter⟩ := Option.map_eq_some_iff.mp h.parses
  rw [← hafter] at hok ⊢
  split at hok
  · rename_i hboth
    rw [if_pos hboth]
    exact hboth.2
  · exact absurd hok (by simp)

theorem connackAnswer_answers {w : World} {h : Handshake} (hbuffer : h.buffer = w.rx.inBuffer)
    (hlen : h.len = w.rx.inBufferReadLen) :
    {w with mqtt5 := connackAnswer h :: w.mqtt5}.AnswersConnack h where
  buffer := hbuffer
  len := hlen
  accepted := ⟨fun hboth => hboth.1, fun hok => ⟨hok, by
    change (h.after.reasonCode : ℤ) = 0
    rw [h.reasonCode hok]
    rfl⟩⟩
  code := rfl
  keepalive := rfl
  receiveMaximum := rfl
  maxQos := rfl
  retainAvailable := rfl

/-- The receive maximum is that of this CONNACK, whatever came before. -/
theorem Handshake.receiveMaximum (h : Handshake) (hok : h.after.ok = true)
    {ps : List (ConnackId × PropertyValue)} (hps : h.Carries ps) :
    h.after.info.server.receiveMaximum = (carriedServer ps).receiveMaximum := by
  have hget := ServerResp.get_assignAll ps hps.takes .receiveMaximum
  have hsame : h.after.info.server.get .receiveMaximum = (carriedServer ps).get .receiveMaximum := by
    rw [h.server hok hps]
    unfold carriedServer
    by_cases hm : Mentions ps .receiveMaximum
    · exact (hget _).2 hm _
    · rw [(hget _).1 hm, (hget _).1 hm]
      rfl
  exact CapabilityValue.number.inj hsame

/-- The client accepts just what the parser accepts, and then keeps the limits that the parser has
taken out of the CONNACK; the limit on what is in flight is the one this packet carries. -/
theorem acceptConnack_answers (H : Handler) {w : World} {h : Handshake} (hv : w.isV5 = true)
    (htype : mqttGetType (w.rx.inBuffer.getD 0 0) = some .connack) (ha : w.AnswersConnack h) :
    (acceptConnack H w).1 = h.after.ok ∧
    (h.after.ok = true → ∀ ps, h.Carries ps → ∀ v, (acceptConnack H w).2 = v →
      v.receiveMaximum = (carriedServer ps).receiveMaximum % 65536 ∧
      v.maxQos = h.after.info.server.maxQos ∧ v.retainAvailable = h.after.info.server.retainAvailable ∧
      v.information.keepalive = h.after.info.keepalive ∧ v.sendPublishPacketCount = 0 ∧
      v.traffic = .opened v.receiveMaximum :: w.traffic) := by
  obtain ⟨a,l,hask⟩ := w.askMqtt5_eq
  have haccepted := ha.accepted
  have hkeepalive := ha.keepalive
  have hreceive := ha.receiveMaximum
  have hqos := ha.maxQos
  have hretain := ha.retainAvailable
  rw [hask] at haccepted hkeepalive hreceive hqos hretain
  unfold acceptConnack
  rw [if_neg (not_not_intro htype), if_pos hv, hask]
  dsimp only
  by_cases hok : h.after.ok = true
  · -- the Receive Maximum is reset by every CONNACK, so it is the one that this packet carries
    rw [if_pos (haccepted.mpr hok)]
    refine ⟨hok.symm, fun _ ps hps v hvdef => ?_⟩
    rw [← hvdef]
    refine ⟨?_, hqos, hretain, hkeepalive, rfl, rfl⟩
    rw [← h.receiveMaximum hok hps, ← hreceive]
    rfl
  · rw [if_neg (fun hboth => hok (haccepted.mp hboth))]
    exact ⟨by simpa using hok, fun hyes => absurd hyes hok⟩

/-! A SUBACK. -/

/-- The bytes that `mqtt5_get_suback_data` points at. -/
def AckData.bytes (r : AckData) (packet : List UInt8) : List UInt8 :=
  match r.data with
  | none => []
  | some offset => (packet.drop offset).take r.length

/-- Where the reason codes of a SUBACK begin: behind its property block. -/
def CompletePacket.codesOffset (p : CompletePacket) : ℕ :=
  (p.sectionAt p.idEnd).start+(p.sectionAt p.idEnd).length

/-- The codec answers what `mqtt5_get_suback_data` finds in the packet. -/
def World.AnswersSuback (w : World) (p : CompletePacket) : Prop :=
  ∃ fuel allocs r, mqtt5GetSubackData fuel p.bytes p.bytes.length allocs = .returned r ∧
    w.askMqtt5.1.subackData = r.bytes p.bytes

/-- What `mqtt5_get_suback_data` returns are all reason codes or none. -/
theorem CompletePacket.subackData_bytes {p : CompletePacket} {fuel : ℕ} {allocs : List Bool} {r : AckData}
    (hr : mqtt5GetSubackData fuel p.bytes p.bytes.length allocs = .returned r) :
    r.bytes p.bytes = [] ∨ r.bytes p.bytes = p.bytes.drop p.codesOffset := by
  rcases p.subackData_cases fuel allocs with herr | ⟨-,hcall⟩
  · rw [herr] at hr
    cases hr
    exact Or.inl rfl
  · obtain ⟨list,-,rfl⟩ := Access.bind_returned_eq.mp (hcall.symm.trans hr)
    rw [subackRest]
    split
    · right
      change (p.bytes.drop p.codesOffset).take (p.bytes.length-p.codesOffset) = _
      exact List.take_of_length_le (List.length_drop).le
    · exact Or.inl rfl

/-- The SUBSCRIBED event of a v5 client has all reason codes of the SUBACK for its data, and an error
where one of them refuses; a SUBACK without codes has no event. -/
theorem deliverSuback_answers (H : Handler) {w : World} {p : CompletePacket} (hv : w.isV5 = true)
    (ha : w.AnswersSuback p) :
    (deliverSuback H w).1 = false ∧ (deliverSuback H w).2.events = w.events ∨
    (deliverSuback H w).1 = true ∧ p.codesOffset < p.bytes.length ∧
      ∃ u : World, (deliverSuback H w).2 = dispatchEventWithMsgid H u ∧ u.event.id = .subscribed ∧
        u.event.data = some (p.bytes.drop p.codesOffset) ∧
        (u.event.errorHandle.map ErrorCodes.errorType = some .subscribeFailed ↔
          ∃ c ∈ p.bytes.drop p.codesOffset, 0x80 ≤ c.toNat) := by
  obtain ⟨fuel,allocs,r,hr,hdata⟩ := ha
  obtain ⟨a,l,hask⟩ := w.askMqtt5_eq
  rw [hask] at hdata
  unfold deliverSuback
  rw [if_pos hv, hask]
  dsimp only at hdata ⊢
  by_cases hnone : a.subackData = []
  · rw [if_pos hnone]
    exact Or.inl ⟨rfl, rfl⟩
  · rw [if_neg hnone]
    have hcodes : a.subackData = p.bytes.drop p.codesOffset := by
      rw [hdata] at hnone ⊢
      exact (CompletePacket.subackData_bytes hr).resolve_left hnone
    refine Or.inr ⟨rfl, ?_, _, rfl, rfl, congrArg some hcodes, ?_⟩
    · by_contra hpast
      apply hnone
      rw [hcodes]
      exact List.drop_eq_nil_of_le (not_lt.mp hpast)
    · have hany : a.subackData.any (fun c => decide (0x80 ≤ c.toNat)) = true ↔
          ∃ c ∈ a.subackData, 0x80 ≤ c.toNat := by simp only [List.any_eq_true, decide_eq_true_eq]
      rw [← hcodes, ← hany]
      change some (if a.subackData.any (fun c => decide (0x80 ≤ c.toNat)) then ErrorType.subscribeFailed
        else .none) = some .subscribeFailed ↔ _
      cases a.subackData.any fun c => decide (0x80 ≤ c.toNat) <;> decide

/-! The packets a v5 client composes. -/

/-- A packet composed by the v5 codec announces the bytes it has, and where it is the beginning of a
PUBLISH, those that follow. -/
theorem Outgoing5.announces {q : Outgoing5} {s : Composer} (hs : s.Sound s.connection)
    (h16 : 16 ≤ s.connection.bufferLength)
    (hc : s.connection.outboundMessage.fragmentedMsgTotalLength = 0) (hrange : q.InRange) :
    let r := q.composeIn s
    let m := r.2.connection.outboundMessage
    (q.Fragmented s.connection.bufferLength r.1 →
      Announces (5+(q.body r.1).length-s.connection.bufferLength : ℕ) m.data) ∧
    (¬ q.Fragmented s.connection.bufferLength r.1 → Announces 0 m.data) := by
  intro r m
  obtain ⟨hwhole,hcut,hnone⟩ := compose5_spec hs h16 hc hrange
  have hawaits {n : ℕ} {part : List UInt8} (hshort : (q.body r.1).length < 128^4)
      (hn : (q.body r.1).length = part.length+n) :
      Awaits n (q.first :: (Base128.encode 3 (q.body r.1).length ++ part)) := by
    refine ⟨_, _, part, rfl, Base128.isField_encode 3 _ hshort, Base128.encode_length_le 3 _, ?_⟩
    rw [Base128.value_encode 3 _ hshort, hn]
  refine ⟨fun hfragmented _ => ?_, fun hnot hne => ?_⟩
  · obtain ⟨-,hdata,-⟩ := hcut hfragmented
    rw [show m.data = _ from hdata, Int.toNat_natCast]
    have hparts : s.connection.bufferLength < 5+(q.body r.1).length ∧ (q.body r.1).length < 128^4 := by
      cases q with
      | publish => exact hfragmented.2
      | _ => exact hfragmented.elim
    apply hawaits hparts.2
    change (q.body r.1).length = ((q.body r.1).take _).length+(5+(q.body r.1).length-_)
    rw [List.length_take]
    omega
  · by_cases hfits : q.Fits s.connection.bufferLength r.1
    · rw [show m.data = _ from (hwhole hfits).2]
      exact hawaits hfits.2 (Nat.add_zero _).symm
    · exact absurd (hnone hfits hnot) hne

/-- The client composes what the codec has composed, and so does its packet announce its length. -/
theorem compose_announces {w : World} {q : Outgoing5} {s : Composer} {type : MsgType} {qos : ℕ}
    (build : Connection → Connection) (hv : w.isV5 = true) (hs : s.Sound s.connection)
    (h16 : 16 ≤ s.connection.bufferLength)
    (hc : s.connection.outboundMessage.fragmentedMsgTotalLength = 0) (hrange : q.InRange)
    (hfirst : q.first = headerByte type 0 qos 0)
    (hwhole : ∀ id, ¬ q.Fragmented s.connection.bufferLength id) :
    ((w.encodingIn q s).compose type qos build).connection.outboundMessage.data =
      (q.composeIn s).2.connection.outboundMessage.data ∧
    Announces 0 ((w.encodingIn q s).compose type qos build).connection.outboundMessage.data := by
  obtain ⟨hfits,-,hnone⟩ := compose5_spec hs h16 hc hrange
  have hdata : ((w.encodingIn q s).compose type qos build).connection.outboundMessage.data =
      (q.composeIn s).2.connection.outboundMessage.data := by
    have hv' : (w.encodingIn q s).isV5 = true := hv
    unfold compose
    rw [if_pos hv']
    change ((if (q.composeIn s).2.connection.outboundMessage.data = [] then none
      else some (q.composeIn s).2.connection.outboundMessage.data.tail).map _).getD [] = _
    by_cases hroom : q.Fits s.connection.bufferLength (q.composeIn s).1
    · have hne : q.bytes (q.composeIn s).1 ≠ [] := List.cons_ne_nil _ _
      rw [(hfits hroom).2, if_neg hne]
      change headerByte type 0 qos 0 :: _ = q.first :: _
      rw [← hfirst]
      rfl
    · rw [hnone hroom (hwhole _)]
      rfl
  refine ⟨hdata, ?_⟩
  rw [hdata]
  exact (Outgoing5.announces hs h16 hc hrange).2 (hwhole _)

end EspMqtt
