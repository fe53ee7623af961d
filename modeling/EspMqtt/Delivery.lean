import EspMqtt.FifoRefinement
import EspMqtt.ReceivePublish

/-! From the wire to the owner: the DATA events of `deliver_publish`, through
`on_event`, to `emqtt_poll`. -/
namespace EspMqtt
open Wire

def publishInfo (p : Publish) : MessageInfo :=
  ⟨p.topic, p.payload.length, p.id, p.qos, p.retain, p.dup⟩

/-- The storage of `p` with its first bytes `d` in place. -/
def partialMessage (p : Publish) (d : List UInt8) : OwnedMessage :=
  ⟨publishInfo p, d ++ List.replicate (p.payload.length-d.length) 0, p.payload.length⟩

/-- What the runtime can take: QoS 0 or 1, a valid topic name, a bounded
payload. -/
structure Deliverable (p : Publish) : Prop where
  wellFormed : p.WellFormed
  qos : p.qos ≤ 1
  topic : emqttTopicValid (some p.topic) p.topic.length false = true
  payload : p.payload.length ≤ emqttPayloadMax

theorem splice_zeros (d c : List UInt8) (n : ℕ) :
    ByteBuffer.splice (d ++ List.replicate n 0) d.length c =
      d ++ c ++ List.replicate (n-c.length) 0 := by
  unfold ByteBuffer.splice
  rw [List.take_left, List.drop_append, List.drop_eq_nil_of_le (by omega), List.nil_append,
    List.drop_replicate, Nat.add_sub_cancel_left]

/-- No event of `p` is malformed. -/
theorem publishEvent_sound {p : Publish} (hp : Deliverable p) (topic : Option (List UInt8))
    (topicLen : ℕ) (data : List UInt8) (offset : ℕ)
    (h : offset+data.length ≤ p.payload.length) :
    fragmentMalformed p.payload.length
      ((publishHeader p).event topic topicLen data offset).fragment = false := by
  have hq := hp.qos
  have hl := hp.payload
  have hid0 := hp.wellFormed.qos_zero
  have hid1 := hp.wellFormed.id_range
  have hdata : (decide ((data.length : ℤ) ≠ 0) &&
      (if 0 < data.length then some data else none).isNone) = false := by
    by_cases hz : 0 < data.length
    · simp [hz]
    · simp [show data = [] by simpa using hz]
  have hid : ((p.qos : ℤ) == 1 && (p.id : ℤ) == 0) = false ∧
      ((p.qos : ℤ) == 0 && (p.id : ℤ) != 0) = false ∧ p.id ≤ 65535 := by
    rcases Nat.eq_zero_or_pos p.qos with hz | hz
    · have := (hid0 hz).2
      refine ⟨by simp [hz], by simp [this], by omega⟩
    · have := hid1 hz
      refine ⟨?_, ?_, by omega⟩
      · rw [Bool.and_eq_false_iff]
        right
        rw [beq_eq_false_iff_ne]
        omega
      · rw [Bool.and_eq_false_iff]
        left
        rw [beq_eq_false_iff_ne]
        omega
  simp only [fragmentMalformed, DataHeader.event, MqttEvent.fragment, publishHeader,
    hid.1, hid.2.1, Bool.or_false, Bool.or_eq_false_iff]
  and_intros
  all_goals first | exact hdata | (apply decide_eq_false; omega)

/-- The bytes an event carries are the ones it was made with. -/
theorem publishEvent_bytes (h : DataHeader) (topic : Option (List UInt8)) (topicLen : ℕ)
    (data : List UInt8) (offset : ℕ) :
    bytesAt (h.event topic topicLen data offset).fragment.data
      (h.event topic topicLen data offset).fragment.dataLength.toNat = data := by
  simp only [DataHeader.event, MqttEvent.fragment, Int.toNat_natCast]
  by_cases hz : 0 < data.length
  · rw [if_pos hz]
    exact bytesAt_some data _ rfl
  · have hn : data = [] := by simpa using hz
    subst hn
    rfl

/-- The first piece. -/
theorem receiveInto_first {p : Publish} (hp : Deliverable p) (d : List UInt8)
    (hd : d.length ≤ p.payload.length) (rc : ReceiveState) (hrc : rc.active = false) :
    emqttReceiveInto rc (freshMessage p.payload.length).info
      (freshMessage p.payload.length).payload (freshMessage p.payload.length).info.length
      ((publishHeader p).event (some p.topic) p.topic.length d 0).fragment =
    if d.length = p.payload.length then
      (.complete, ⟨d.length,false⟩, publishInfo p, (partialMessage p d).payload)
    else (.more, ⟨d.length,true⟩, publishInfo p, (partialMessage p d).payload) := by
  have hb := publishEvent_bytes (publishHeader p) (some p.topic) p.topic.length d 0
  have hfirst : receiveFirst ((publishHeader p).event (some p.topic) p.topic.length d 0).fragment =
      some (publishInfo p) := by
    simp only [receiveFirst, DataHeader.event, MqttEvent.fragment, publishHeader, publishInfo,
      Int.toNat_natCast, hp.topic, bytesAt_some p.topic _ rfl]
    simp
  have hcont : fragmentContinues 0 (publishInfo p)
      ((publishHeader p).event (some p.topic) p.topic.length d 0).fragment = true := by
    simp [fragmentContinues, DataHeader.event, MqttEvent.fragment, publishHeader, publishInfo]
  have hs := splice_zeros [] d p.payload.length
  simp only [List.nil_append, List.length_nil] at hs
  have hm := publishEvent_sound hp (some p.topic) p.topic.length d 0 (by omega)
  simp only [freshMessage, emqttReceiveInto, hm, hrc, hfirst, hb, Bool.false_eq_true, if_false,
    Option.map_some, hcont, if_true, hs, partialMessage]
  simp only [DataHeader.event, MqttEvent.fragment, Int.toNat_natCast, Nat.zero_add, publishInfo]

/-- A later piece, which is never empty. -/
theorem receiveInto_next {p : Publish} (hp : Deliverable p) (d c : List UInt8) (hc : c ≠ [])
    (hd : d.length+c.length ≤ p.payload.length) :
    emqttReceiveInto ⟨d.length,true⟩ (partialMessage p d).info (partialMessage p d).payload
      (partialMessage p d).info.length ((publishHeader p).event none 0 c d.length).fragment =
    if (d ++ c).length = p.payload.length then
      (.complete, ⟨(d ++ c).length,false⟩, publishInfo p, (partialMessage p (d ++ c)).payload)
    else (.more, ⟨(d ++ c).length,true⟩, publishInfo p, (partialMessage p (d ++ c)).payload) := by
  have hb := publishEvent_bytes (publishHeader p) none 0 c d.length
  have htop : topicRepeats (publishInfo p).topic
      ((publishHeader p).event none 0 c d.length).fragment = true := by
    simp [topicRepeats, DataHeader.event, MqttEvent.fragment]
  have hcont : fragmentContinues d.length (publishInfo p)
      ((publishHeader p).event none 0 c d.length).fragment = true := by
    simp [fragmentContinues, DataHeader.event, MqttEvent.fragment, publishHeader, publishInfo, hc]
  have hs := splice_zeros d c (p.payload.length-d.length)
  rw [Nat.sub_sub, ← List.length_append] at hs
  have hm := publishEvent_sound hp none 0 c d.length hd
  simp only [publishInfo] at htop hcont
  simp only [partialMessage, publishInfo, emqttReceiveInto, hm, htop, hb, Bool.false_eq_true,
    if_false, if_true, hcont, hs]
  simp only [DataHeader.event, MqttEvent.fragment, Int.toNat_natCast, List.length_append]

def messageNotice (p : Publish) (now : ℤ) : Notice :=
  { kind := .message, messageId := p.id, slot := none, brokerCode := 0, tlsFlags := 0
    arrivedUs := now, error := .none, suback := [] }

/-- The unbounded runtime with the first bytes `d` of `p` received. -/
def Ideal.delivering (p : Publish) (d : List UInt8) (sent : List Sent) : Ideal :=
  ⟨⟨d.length,true⟩, some (partialMessage p d), sent⟩

/-- The unbounded runtime when `p` is complete. -/
def Ideal.delivered (p : Publish) (d : List UInt8) (now : ℤ) (sent : List Sent) : Ideal :=
  ⟨⟨d.length,false⟩, none, sent ++ [(messageNotice p now, some (partialMessage p d))]⟩

theorem ideal_first {p : Publish} (hp : Deliverable p) (i : Ideal) (hm : i.message = none)
    (ha : i.receiver.active = false) (d : List UInt8) (hd : d.length ≤ p.payload.length)
    (now : ℤ) :
    i.event ((publishHeader p).event (some p.topic) p.topic.length d 0) now =
      if d.length = p.payload.length then .delivered p d now i.sent
      else .delivering p d i.sent := by
  have hr := receiveInto_first hp d hd i.receiver ha
  have hl := hp.payload
  have hrange : ¬ ((p.payload.length : ℤ) < 0 ∨ (emqttPayloadMax : ℤ) < p.payload.length) := by
    omega
  have ht : ((publishHeader p).event (some p.topic) p.topic.length d 0).totalDataLen =
      p.payload.length := rfl
  have hdata (n : Notice) : i.data ((publishHeader p).event (some p.topic) p.topic.length d 0) n =
      i.fragment ((publishHeader p).event (some p.topic) p.topic.length d 0) n
        (freshMessage p.payload.length) := by
    unfold Ideal.data
    rw [hm]
    dsimp only
    rw [ht, if_neg hrange, Int.toNat_natCast]
  refine (hdata _).trans ?_
  unfold Ideal.fragment
  by_cases hfull : d.length = p.payload.length
  · rw [if_pos hfull] at hr ⊢
    rw [hr]
    rfl
  · rw [if_neg hfull] at hr ⊢
    rw [hr]
    rfl

theorem ideal_next {p : Publish} (hp : Deliverable p) (d c : List UInt8) (hc : c ≠ [])
    (hd : d.length+c.length ≤ p.payload.length) (sent : List Sent) (now : ℤ) :
    (Ideal.delivering p d sent).event ((publishHeader p).event none 0 c d.length) now =
      if (d ++ c).length = p.payload.length then .delivered p (d ++ c) now sent
      else .delivering p (d ++ c) sent := by
  have hr := receiveInto_next hp d c hc hd
  change Ideal.fragment _ _ _ (partialMessage p d) = _
  unfold Ideal.fragment
  rw [show (Ideal.delivering p d sent).receiver = ⟨d.length,true⟩ from rfl]
  by_cases hfull : (d ++ c).length = p.payload.length
  · rw [if_pos hfull] at hr ⊢
    rw [hr]
    rfl
  · rw [if_neg hfull] at hr ⊢
    rw [hr]
    rfl

/-- DATA events that bring the unbounded runtime from `i` to `j`, at whatever
times they come, without completing a message. -/
def QuietTo : Ideal → List MqttEvent → Ideal → Prop
  | i, [], j => i = j
  | i, e :: es, j =>
    e.id = .data ∧ ∃ i', (∀ now, i.event e now = i') ∧ i'.sent = i.sent ∧ QuietTo i' es j

theorem QuietTo.sent {i j : Ideal} {es : List MqttEvent} (h : QuietTo i es j) :
    j.sent = i.sent := by
  induction es generalizing i with
  | nil => exact congrArg Ideal.sent (Eq.symm h)
  | cons e es ih =>
    obtain ⟨-,i',-,h2,h3⟩ := h
    exact (ih h3).trans h2

/-- All pieces but the last one are quiet, and the last one completes `p`. -/
structure Completes (i : Ideal) (p : Publish) (es : List MqttEvent) (e : MqttEvent) (j : Ideal) :
    Prop where
  quiet : QuietTo i es j
  data : e.id = .data
  last : ∀ now, j.event e now = .delivered p p.payload now i.sent

theorem pieces_complete {p : Publish} (hp : Deliverable p) (sent : List Sent)
    (c : List UInt8) (later : List (List UInt8)) (d : List UInt8)
    (hne : ∀ b ∈ c :: later, b ≠ []) (hd : d ++ (c :: later).flatten = p.payload) :
    ∃ es e j, (publishHeader p).pieces d.length (c :: later) = es ++ [e] ∧
      Completes (.delivering p d sent) p es e j := by
  induction later generalizing c d with
  | nil =>
    have hdc : d ++ c = p.payload := by simpa using hd
    refine ⟨[], _, .delivering p d sent, rfl, rfl, rfl, fun now => ?_⟩
    have hlen := congrArg List.length hdc
    rw [List.length_append] at hlen
    rw [ideal_next hp d c (hne c List.mem_cons_self) (by omega) sent now, hdc, if_pos rfl]
    rfl
  | cons c' later ih =>
    have hlen := congrArg List.length hd
    have hc' := List.length_pos_of_ne_nil (hne c' (by simp))
    simp only [List.flatten_cons, List.length_append] at hlen
    obtain ⟨es,e,j,h1,h2⟩ := ih c' (d ++ c) (fun b hb => hne b (List.mem_cons_of_mem _ hb))
      (by rw [← hd]; simp)
    refine ⟨(publishHeader p).event none 0 c d.length :: es, e, j, ?_, ⟨rfl, ?_⟩, h2.data,
      h2.last⟩
    · rw [List.length_append] at h1
      rw [List.cons_append, ← h1]
      rfl
    · refine ⟨.delivering p (d ++ c) sent, fun now => ?_, rfl, h2.quiet⟩
      rw [ideal_next hp d c (hne c List.mem_cons_self) (by omega) sent now,
        if_neg (by rw [List.length_append]; omega)]

theorem publishEvents_complete {p : Publish} (hp : Deliverable p) (i : Ideal)
    (hm : i.message = none) (ha : i.receiver.active = false) (first : List UInt8)
    (later : List (List UInt8)) (hne : ∀ b ∈ later, b ≠ [])
    (hd : p.payload = first ++ later.flatten) :
    ∃ es e j, publishEvents p first later = es ++ [e] ∧ Completes i p es e j := by
  have hlen := congrArg List.length hd
  rw [List.length_append] at hlen
  have hone := ideal_first hp i hm ha first (by omega)
  cases later with
  | nil =>
    have hf : first = p.payload := by simpa using hd.symm
    subst hf
    refine ⟨[], _, i, rfl, rfl, rfl, fun now => ?_⟩
    rw [hone now, if_pos rfl]
  | cons c later =>
    have hc := List.length_pos_of_ne_nil (hne c (by simp))
    simp only [List.flatten_cons, List.length_append] at hlen
    obtain ⟨es,e,j,h1,h2⟩ := pieces_complete hp i.sent c later first hne hd.symm
    refine ⟨_ :: es, e, j, by rw [publishEvents, h1]; rfl, ⟨rfl, ?_⟩, h2.data, h2.last⟩
    refine ⟨.delivering p first i.sent, fun now => ?_, rfl, h2.quiet⟩
    rw [hone now, if_neg (by omega)]

end EspMqtt
