import EspMqtt.Framing

/-! What the accessors of `mqtt_msg` read off a buffer that holds the beginning
of a PUBLISH packet. -/
namespace EspMqtt
open Wire

theorem firstByte_fields (p : Publish) (h : p.qos ≤ 2) :
    mqttGetType p.firstByte = some .publish ∧ mqttGetQos p.firstByte = p.qos ∧
    mqttGetDup p.firstByte = (if p.dup then 1 else 0) ∧
    mqttGetRetain p.firstByte = (if p.retain then 1 else 0) := by
  have hall : ∀ (q : Fin 3) (d r : Bool),
      let b := UInt8.ofNat (48+(if d then 8 else 0)+2*q.val+(if r then 1 else 0))
      mqttGetType b = some .publish ∧ mqttGetQos b = q.val ∧
      mqttGetDup b = (if d then 1 else 0) ∧ mqttGetRetain b = (if r then 1 else 0) := by decide
  exact hall ⟨p.qos, by omega⟩ p.dup p.retain

theorem be16_u16 {buffer : List UInt8} {i n : ℕ} (hn : n < 65536)
    (h0 : buffer.getD i 0 = (u16 n).getD 0 0) (h1 : buffer.getD (i+1) 0 = (u16 n).getD 1 0) :
    be16 buffer i = n := by
  unfold be16
  rw [h0, h1]
  simp only [u16, List.getD_cons_zero, List.getD_cons_succ, UInt8.toNat_ofNat']
  omega

/-- Behind the fixed header stands the body. -/
theorem Wire.Frame.getD_body (f : Frame) (j : ℕ) :
    f.bytes.getD (f.headerLength+j) 0 = f.body.getD j 0 := by
  unfold Frame.bytes Frame.headerLength
  rw [show 1+f.lens.length+j = (f.lens.length+j)+1 by omega, List.getD_cons_succ,
    List.getD_append_right _ _ _ _ (by omega)]
  congr 1
  omega

/-- The buffer holds at least the variable header of PUBLISH `p`, and nothing
that is not part of the packet, in its first `r` bytes. -/
structure HoldsPublish (f : Frame) (p : Publish) (buffer : List UInt8) (r : ℕ) : Prop where
  publish : IsPublish f p
  seen : buffer.take r = f.bytes.take r
  header : f.headerLength+p.variableHeader.length ≤ r
  le : r ≤ f.bytes.length

namespace HoldsPublish

variable {f : Frame} {p : Publish} {buffer : List UInt8} {r : ℕ}

theorem getD_body (h : HoldsPublish f p buffer r) {j : ℕ} (hj : f.headerLength+j < r) :
    buffer.getD (f.headerLength+j) 0 = p.body.getD j 0 := by
  rw [ByteBuffer.getD_of_take_eq buffer f.bytes r _ 0 hj h.seen, f.getD_body, h.publish.body]

theorem getD_first (h : HoldsPublish f p buffer r) : buffer.getD 0 0 = p.firstByte := by
  have hpos : 0 < r := by
    have h1 := h.header
    have h2 := f.two_le_headerLength
    omega
  rw [ByteBuffer.getD_of_take_eq buffer f.bytes r 0 0 hpos h.seen, ← h.publish.first]
  rfl

/-- A run of body bytes, read from the buffer. -/
theorem slice (h : HoldsPublish f p buffer r) (j n : ℕ) (hj : f.headerLength+j+n ≤ r) :
    (buffer.drop (f.headerLength+j)).take n = (p.body.drop j).take n := by
  have h1 : (buffer.drop (f.headerLength+j)).take n =
      ((buffer.take r).drop (f.headerLength+j)).take n := by
    rw [List.drop_take, List.take_take, Nat.min_eq_left (by omega)]
  have h2 : f.bytes.drop (f.headerLength+j) = p.body.drop j := by
    rw [← List.drop_drop, ← h.publish.body]
    congr 1
    unfold Frame.bytes Frame.headerLength
    rw [Nat.add_comm 1, List.drop_succ_cons, List.drop_left]
  rw [h1, h.seen, List.drop_take, List.take_take, Nat.min_eq_left (by omega), h2]

theorem topic_length (h : HoldsPublish f p buffer r) :
    be16 buffer f.headerLength = p.topic.length := by
  have hl := h.header
  rw [p.variableHeader_length] at hl
  have h0 := h.getD_body (j := 0) (by omega)
  have h1 := h.getD_body (j := 1) (by omega)
  refine be16_u16 h.publish.wellFormed.topic_length ?_ ?_
  · simpa [Publish.body, Publish.variableHeader, u16] using h0
  · simpa [Publish.body, Publish.variableHeader, u16] using h1

theorem skip (h : HoldsPublish f p buffer r) (k i : ℕ) (h1 : 1 ≤ i) (hi : i < f.headerLength)
    (hk : f.headerLength ≤ i+k) : skipRemainingLength buffer k i = f.headerLength := by
  have hh := h.header
  induction k generalizing i with
  | zero => omega
  | succ k ih =>
    unfold skipRemainingLength
    have hb := ByteBuffer.getD_of_take_eq buffer f.bytes r i 0 (by omega) h.seen
    rw [hb]
    by_cases hlast : i+1 = f.headerLength
    · have hs := f.header_stops
      rw [← hlast, Nat.add_sub_cancel] at hs
      rw [if_pos (Base128.high_bit_clear_iff _ |>.mpr hs)]
      exact hlast
    · have hc := f.header_continues i h1 (by omega)
      rw [if_neg (fun hz => by have := (Base128.high_bit_clear_iff _).mp hz; omega)]
      exact ih (i+1) (by omega) (by omega) (by omega)

/-- A topic has at least one byte, so the accessors see something behind its length. -/
theorem beyond (h : HoldsPublish f p buffer r) (ht : 1 ≤ p.topic.length) :
    f.headerLength+2 < r := by
  have hl := h.header
  rw [p.variableHeader_length] at hl
  omega

/-- `mqtt_get_publish_topic` finds the topic. -/
theorem getPublishTopic (h : HoldsPublish f p buffer r) (hr : f.headerLength+2 < r) :
    mqttGetPublishTopic buffer r = some (f.headerLength+2, p.topic.length) := by
  have hl := h.header
  have htwo := f.two_le_headerLength
  rw [p.variableHeader_length] at hl
  unfold mqttGetPublishTopic
  rw [h.skip (r-1) 1 (by omega) (by omega) (by omega)]
  dsimp only
  rw [h.topic_length, if_neg (by omega), if_neg (by omega)]

/-- `mqtt_get_publish_data` finds the payload bytes among the first `r`. -/
theorem getPublishData (h : HoldsPublish f p buffer r) (hr : f.headerLength+2 < r) :
    mqttGetPublishData buffer r =
      (if r = f.headerLength+p.variableHeader.length then none
        else some (f.headerLength+p.variableHeader.length),
       r-(f.headerLength+p.variableHeader.length)) := by
  have hl := h.header
  have hle := h.le
  have hv := p.variableHeader_length
  have hbl : f.bytes.length = f.headerLength+(p.variableHeader.length+p.payload.length) := by
    rw [f.bytes_length, h.publish.body, Publish.body, List.length_append]
  have htot := mqttGetTotalLength_frame f buffer r (by omega) h.seen
  unfold mqttGetTotalLength at htot
  simp only [Prod.mk.injEq] at htot
  have hq : mqttGetQos (buffer.getD 0 0) = p.qos := by
    rw [h.getD_first]
    exact (firstByte_fields p h.publish.wellFormed.qos_le).2.1
  unfold mqttGetPublishData
  dsimp only
  rw [htot.2, h.topic_length, hq, show (totalLengthLoop buffer r 4 1 0).1+f.headerLength =
    f.bytes.length by rw [← htot.1, htot.2]]
  by_cases hqos : 0 < p.qos
  · simp only [if_pos hqos] at hv
    rw [if_neg (by omega), if_neg (by omega)]
    by_cases hall : r = f.headerLength+p.variableHeader.length
    · rw [if_pos ⟨hqos, by omega⟩, if_pos hall, hall, Nat.sub_self]
    · rw [if_neg (by omega), if_pos hqos, if_neg (by omega), if_neg hall]
      split
      · exact Prod.ext (congrArg some (by omega)) (by dsimp only; omega)
      · exact Prod.ext (congrArg some (by omega)) (by dsimp only; omega)
  · simp only [if_neg hqos] at hv
    rw [if_neg (by omega)]
    by_cases hall : r = f.headerLength+p.variableHeader.length
    · rw [if_pos (by omega), if_pos hall, hall, Nat.sub_self]
    · rw [if_neg (by omega), if_neg (fun hh => hqos hh.1), if_neg hqos, if_neg (by omega),
        if_neg hall]
      split
      · exact Prod.ext (congrArg some (by omega)) (by dsimp only; omega)
      · exact Prod.ext (congrArg some (by omega)) (by dsimp only; omega)

/-- `mqtt_get_id` finds the identifier, or 0 for QoS 0; the length it is told may be the
packet's. -/
theorem getId (h : HoldsPublish f p buffer r) {n : ℕ} (hn : r ≤ n) (hr : f.headerLength+2 < n) :
    mqttGetId buffer n = p.id := by
  have hl := h.header
  have htwo := f.two_le_headerLength
  have hv := p.variableHeader_length
  have hwf := h.publish.wellFormed
  obtain ⟨hty,hq,-,-⟩ := firstByte_fields p hwf.qos_le
  unfold mqttGetId
  rw [if_neg (by omega), h.getD_first, hty]
  dsimp only
  rw [h.skip (n-1) 1 (by omega) (by omega) (by omega), h.topic_length, hq, if_neg (by omega),
    if_neg (by omega)]
  by_cases hqos : 0 < p.qos
  · simp only [if_pos hqos] at hv
    rw [if_pos hqos, if_neg (by omega)]
    have hb : p.body = (u16 p.topic.length ++ p.topic) ++ (u16 p.id ++ p.payload) := by
      simp only [Publish.body, Publish.variableHeader, if_pos hqos, List.append_assoc]
    have hlen : (u16 p.topic.length ++ p.topic).length = 2+p.topic.length := by simp
    have hget (j : ℕ) (hj : j < 2) :
        buffer.getD (f.headerLength+2+p.topic.length+j) 0 = (u16 p.id).getD j 0 := by
      have := h.getD_body (j := 2+p.topic.length+j) (by omega)
      rw [show f.headerLength+(2+p.topic.length+j) = f.headerLength+2+p.topic.length+j by omega,
        hb, List.getD_append_right _ _ _ _ (by omega), hlen,
        show 2+p.topic.length+j-(2+p.topic.length) = j by omega,
        List.getD_append _ _ _ _ (by simpa using hj)] at this
      exact this
    exact be16_u16 (hwf.id_range hqos).2 (hget 0 (by omega)) (hget 1 (by omega))
  · rw [if_neg hqos]
    exact (hwf.qos_zero (by omega)).2.symm

/-- The topic bytes. -/
theorem topic_slice (h : HoldsPublish f p buffer r) :
    (buffer.drop (f.headerLength+2)).take p.topic.length = p.topic := by
  have hl := h.header
  rw [p.variableHeader_length] at hl
  rw [h.slice 2 p.topic.length (by omega), Publish.body, Publish.variableHeader]
  simp [u16]

/-- The payload bytes. -/
theorem payload_slice (h : HoldsPublish f p buffer r) :
    (buffer.drop (f.headerLength+p.variableHeader.length)).take
      (r-(f.headerLength+p.variableHeader.length)) =
      p.payload.take (r-(f.headerLength+p.variableHeader.length)) := by
  have hl := h.header
  rw [h.slice p.variableHeader.length _ (by omega), Publish.body, List.drop_left]

end HoldsPublish

end EspMqtt
