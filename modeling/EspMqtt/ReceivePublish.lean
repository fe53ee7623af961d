import EspMqtt.DeliverPublish

/-! Receiving a PUBLISH of any size: `mqtt_message_receive` hands it out with
at least its variable header in the buffer. -/
namespace EspMqtt
open Wire

/-- The Remaining Length loop never brings the count above six. -/
theorem remainingLengthLoop_le (k : ℕ) (t : Transport) (s : RxState) (h : s.inBufferReadLen < 6) :
    (remainingLengthLoop k t s).2.2.inBufferReadLen ≤ 6 := by
  induction k generalizing t s with
  | zero => exact Nat.le_of_lt h
  | succ k ih =>
    rw [remainingLengthLoop]
    rcases espTransportRead_cases t 1 with ⟨bs,he,-,hle,-⟩ | ⟨hno,-⟩
    · rw [← Prod.eta (espTransportRead t 1), he]
      dsimp only
      split
      · rename_i hgo
        exact ih _ _ hgo.1
      · simp only [RxState.store_readLen]
        omega
    · generalize espTransportRead t 1 = o at hno
      obtain ⟨r,t'⟩ := o
      cases r with
      | bytes bs => exact absurd rfl (hno bs)
      | timeout => exact Nat.le_of_lt h
      | fin => exact Nat.le_of_lt h
      | error => exact Nat.le_of_lt h

theorem receiveRemainingLength_le (t : Transport) (s : RxState) :
    (receiveRemainingLength t s).2.2.inBufferReadLen ≤ max 6 s.inBufferReadLen := by
  unfold receiveRemainingLength
  split
  · rename_i hgo
    have := remainingLengthLoop_le 6 t s (by omega)
    omega
  · dsimp only
    omega

theorem receiveFirstByte_le (t : Transport) (s : RxState) :
    (receiveFirstByte t s).2.2.inBufferReadLen ≤ max 1 s.inBufferReadLen := by
  unfold receiveFirstByte
  split
  · rename_i hz
    rcases espTransportRead_cases t 1 with ⟨bs,he,-,hle,-⟩ | ⟨hno,-⟩
    · rw [← Prod.eta (espTransportRead t 1), he]
      dsimp only
      split
      · simp only [RxState.store_readLen]
        omega
      · dsimp only
        omega
    · generalize espTransportRead t 1 = o at hno
      obtain ⟨r,t'⟩ := o
      cases r with
      | bytes bs => exact absurd rfl (hno bs)
      | timeout => exact Nat.le_max_right _ _
      | fin => exact Nat.le_max_right _ _
      | error => exact Nat.le_max_right _ _
  · exact Nat.le_max_right _ _

/-- The topic length stage of a PUBLISH larger than the buffer. -/
theorem receiveTopicLength_ok (f : Frame) (rest : List UInt8) (t : Transport) (s : RxState)
    (h : Partway f.bytes rest t s) (hh : f.headerLength ≤ s.inBufferReadLen)
    (hlong : f.headerLength+4 ≤ f.bytes.length) :
    StageOk f rest (f.headerLength+2) s (receiveTopicLength f.headerLength t s) ∧
    (receiveTopicLength f.headerLength t s).2.2.messageLength = s.messageLength ∧
    (receiveTopicLength f.headerLength t s).2.2.inBufferReadLen ≤
      max (f.headerLength+4) s.inBufferReadLen ∧
    ((receiveTopicLength f.headerLength t s).1 ≠ none →
      (receiveTopicLength f.headerLength t s).2.2.inBufferReadLen < f.headerLength+2) := by
  unfold receiveTopicLength
  split
  · rename_i hlt
    rcases h.read (s.inBufferReadLen-f.headerLength+2) (by omega) with
      ⟨he,hp⟩ | ⟨bs,he,hne,hle,hp⟩
    · rw [← Prod.eta (espTransportRead t (s.inBufferReadLen-f.headerLength+2)), he]
      exact ⟨⟨hp, Nat.le_refl _, rfl, Or.inl ⟨Or.inr rfl, by dsimp only; omega⟩⟩, rfl,
        Nat.le_max_right _ _, fun _ => hlt⟩
    · rw [← Prod.eta (espTransportRead t (s.inBufferReadLen-f.headerLength+2)), he]
      have hr : (s.store bs).inBufferReadLen = s.inBufferReadLen+bs.length := rfl
      dsimp only
      split
      · rename_i hshort
        exact ⟨⟨hp, by dsimp only; omega, rfl, Or.inl ⟨Or.inl rfl, by dsimp only; omega⟩⟩, rfl,
          by dsimp only; omega, fun _ => hshort⟩
      · exact ⟨⟨hp, by dsimp only; omega, rfl, Or.inr ⟨rfl, by dsimp only; omega⟩⟩, rfl,
          by dsimp only; omega, fun hh => absurd rfl hh⟩
  · rename_i hge
    exact ⟨⟨h, Nat.le_refl _, rfl, Or.inr ⟨rfl, by dsimp only; omega⟩⟩, rfl,
      Nat.le_max_right _ _, fun hh => absurd rfl hh⟩

/-- A PUBLISH with a topic never runs on: the byte before its last one is the
low byte of a topic length of 1, if the packet is that short at all. -/
theorem publish_not_runsOn {f : Frame} {p : Publish} (h : IsPublish f p)
    (ht : 1 ≤ p.topic.length) : ¬ RunsOn f := by
  rintro ⟨hshort,-,hprev,-⟩
  have hlen := f.bytes_length
  have htwo := f.two_le_headerLength
  have hb : f.body.length = p.variableHeader.length+p.payload.length := by
    rw [h.body, Publish.body, List.length_append]
  have hv := p.variableHeader_length
  have hone : p.topic.length = 1 := by omega
  rw [show f.bytes.length-2 = f.headerLength+1 by omega, f.getD_body, h.body] at hprev
  simp [Publish.body, Publish.variableHeader, u16, hone] at hprev

/-- What the admission test compares with the buffer: the two bytes of the topic length are
not in it. -/
def admittedLength (f : Frame) (p : Publish) : ℕ :=
  f.headerLength+p.topic.length+(if 0 < p.qos then 2 else 0)

theorem admittedLength_add_two (f : Frame) (p : Publish) :
    admittedLength f p+2 = f.headerLength+p.variableHeader.length := by
  rw [admittedLength, p.variableHeader_length]
  omega

/-- One call inside a PUBLISH larger than the buffer: the reader stays before the end of the
buffer, or fills it, or refuses the packet by the admission test. -/
theorem mqttMessageReceive_oversized {f : Frame} {p : Publish} (hpub : IsPublish f p)
    (rest : List UInt8) (t : Transport) (s : RxState)
    (h : Partway f.bytes rest t s) (hlt : s.inBufferReadLen < s.inBufferLength)
    (hbig : s.inBufferLength < f.bytes.length) (h9 : 9 ≤ s.inBufferLength) :
    Partway f.bytes rest (mqttMessageReceive t s).2.1 (mqttMessageReceive t s).2.2 ∧
    (mqttMessageReceive t s).2.2.inBufferLength = s.inBufferLength ∧
    ((((mqttMessageReceive t s).1 = .nothing ∨ (mqttMessageReceive t s).1 = .midMessageTimeout) ∧
        (mqttMessageReceive t s).2.2.inBufferReadLen < s.inBufferLength) ∨
      ((mqttMessageReceive t s).1 = .message ∧ admittedLength f p ≤ s.inBufferLength ∧
        (mqttMessageReceive t s).2.2.inBufferReadLen = s.inBufferLength ∧
        (mqttMessageReceive t s).2.2.messageLength = f.bytes.length) ∨
      ((mqttMessageReceive t s).1 = .failure ∧ s.inBufferLength < admittedLength f p)) := by
  have hh5 := f.headerLength_le
  have hruns : ¬ RunsOn f := fun hruns => by
    have hshort := hruns.1
    omega
  obtain ⟨ha,ha'⟩ := receiveFirstByte_ok f rest t {s with messageLength := 0}
    (h.withMessageLength 0) (by dsimp only; omega)
  have hale := receiveFirstByte_le t {s with messageLength := 0}
  unfold mqttMessageReceive
  generalize receiveFirstByte t {s with messageLength := 0} = a at ha ha' hale
  obtain ⟨ra,ta,sa⟩ := a
  dsimp only at hale
  have habl : sa.inBufferLength = s.inBufferLength := ha.bufferLength
  rcases ha.result with ⟨hres,-⟩ | ⟨hres,hlo⟩
  · rcases hres with hres | hres <;> dsimp only at hres <;> subst hres
    · exact ⟨ha.partway, habl, Or.inl ⟨Or.inl rfl, by dsimp only; omega⟩⟩
    · exact ⟨ha.partway, habl, Or.inl ⟨Or.inr rfl, by dsimp only; omega⟩⟩
  dsimp only at hres
  subst hres
  have hb := receiveRemainingLength_ok f hruns rest ta sa ha.partway hlo (ha' rfl)
  have hble := receiveRemainingLength_le ta sa
  dsimp only
  generalize receiveRemainingLength ta sa = b at hb hble
  obtain ⟨rb,tb,sb⟩ := b
  dsimp only at hble
  have hbl : sb.inBufferLength = s.inBufferLength := hb.bufferLength.trans habl
  rcases hb.result with ⟨hres,-⟩ | ⟨hres,hlo'⟩
  · rcases hres with hres | hres <;> dsimp only at hres <;> subst hres
    · exact ⟨hb.partway, hbl, Or.inl ⟨Or.inl rfl, by dsimp only; omega⟩⟩
    · exact ⟨hb.partway, hbl, Or.inl ⟨Or.inr rfl, by dsimp only; omega⟩⟩
  dsimp only at hres hlo'
  subst hres
  have htot := mqttGetTotalLength_frame f sb.inBuffer sb.inBufferReadLen hlo' hb.partway.seen
  have hfirst : sb.inBuffer.getD 0 0 = p.firstByte := by
    have htwo := f.two_le_headerLength
    rw [ByteBuffer.getD_of_take_eq sb.inBuffer f.bytes sb.inBufferReadLen 0 0 (by omega)
      hb.partway.seen, ← hpub.first]
    rfl
  obtain ⟨hty,hq,-,-⟩ := firstByte_fields p hpub.wellFormed.qos_le
  dsimp only [receiveRest]
  rw [htot]
  dsimp only
  rw [if_pos (by omega), hfirst, hty, if_pos rfl]
  -- the topic length, then the rest of the buffer
  obtain ⟨hc,hcm,hcle,hcn⟩ := receiveTopicLength_ok f rest tb
    {sb with messageLength := f.bytes.length} (hb.partway.withMessageLength _) hlo' (by omega)
  unfold receiveOversized
  generalize receiveTopicLength f.headerLength tb {sb with messageLength := f.bytes.length} = c
    at hc hcm hcle hcn
  obtain ⟨rc,tc,sc⟩ := c
  dsimp only at hcm hcle hcn
  have hcl : sc.inBufferLength = s.inBufferLength := hc.bufferLength.trans hbl
  rcases hc.result with ⟨hres,-⟩ | ⟨hres,hlo''⟩
  · rcases hres with hres | hres <;> dsimp only at hres <;> subst hres
    · exact ⟨hc.partway, hcl, Or.inl ⟨Or.inl rfl, by have := hcn (by simp); dsimp only; omega⟩⟩
    · exact ⟨hc.partway, hcl, Or.inl ⟨Or.inr rfl, by have := hcn (by simp); dsimp only; omega⟩⟩
  dsimp only at hres hlo''
  subst hres
  have hseen := hc.partway.seen
  dsimp only at hseen
  have htopic : be16 sc.inBuffer f.headerLength = p.topic.length := by
    have hget (j : ℕ) (hj : j < 2) :
        sc.inBuffer.getD (f.headerLength+j) 0 = (u16 p.topic.length).getD j 0 := by
      rw [ByteBuffer.getD_of_take_eq sc.inBuffer f.bytes sc.inBufferReadLen _ 0 (by omega) hseen,
        f.getD_body, hpub.body, Publish.body, Publish.variableHeader, List.append_assoc,
        List.append_assoc, List.getD_append _ _ _ _ (by simpa using hj)]
    exact be16_u16 hpub.wellFormed.topic_length (hget 0 (by omega)) (hget 1 (by omega))
  have hfirst' : sc.inBuffer.getD 0 0 = p.firstByte := by
    rw [ByteBuffer.getD_of_take_eq sc.inBuffer f.bytes sc.inBufferReadLen 0 0 (by omega) hseen,
      ← hpub.first]
    rfl
  dsimp only
  rw [htopic, hfirst', hq, hcl]
  by_cases hfull : s.inBufferLength < admittedLength f p
  · have hrefused : s.inBufferLength < f.headerLength+p.topic.length+(if 0 < p.qos then 2 else 0) :=
      hfull
    rw [if_pos hrefused]
    exact ⟨hc.partway, hcl, Or.inr (Or.inr ⟨rfl, hfull⟩)⟩
  · have hadmitted : ¬ s.inBufferLength <
        f.headerLength+p.topic.length+(if 0 < p.qos then 2 else 0) := hfull
    rw [if_neg hadmitted]
    obtain ⟨g1,g2,g3,g4⟩ := receiveUpTo_partway hc.partway s.inBufferLength
      (by dsimp only; omega) (by omega)
    dsimp only at g1 g2 g3 g4
    refine ⟨g1, g2.trans hcl, ?_⟩
    rcases g4 with ⟨g4,g5⟩ | ⟨g4,g5⟩
    · exact Or.inl ⟨g4, by omega⟩
    · exact Or.inr (Or.inl ⟨g4, by omega, by omega, g3.trans hcm⟩)

/-- Successive calls that end with a packet handed out. -/
inductive Receives : Transport → RxState → Transport → RxState → Prop
  | done (t s t' s') (h : mqttMessageReceive t s = (.message, t', s')) : Receives t s t' s'
  | more (t s t1 s1 t' s' r) (h : mqttMessageReceive t s = (r, t1, s1))
    (hr : r = .nothing ∨ r = .midMessageTimeout) (hn : Receives t1 s1 t' s') : Receives t s t' s'

theorem Receives.now {t : Transport} {s : RxState} {o : Recv × Transport × RxState}
    (ho : mqttMessageReceive t s = o) (h : o.1 = .message) : Receives t s o.2.1 o.2.2 :=
  .done _ _ _ _ (ho.trans (Prod.ext h rfl))

theorem Receives.later {t t' : Transport} {s s' : RxState} {o : Recv × Transport × RxState}
    (ho : mqttMessageReceive t s = o) (h : o.1 = .midMessageTimeout)
    (hn : Receives o.2.1 o.2.2 t' s') : Receives t s t' s' :=
  .more _ _ _ _ _ _ _ (ho.trans (Prod.ext h rfl)) (Or.inr rfl) hn

/-- However the stream is cut, a PUBLISH is handed out with its variable header
in the buffer and what does not fit still on the wire. -/
theorem receives_publish {f : Frame} {p : Publish} (hpub : IsPublish f p)
    (ht : 1 ≤ p.topic.length) (rest : List UInt8) {t t' : Transport} {s s' : RxState}
    (h : Partway f.bytes rest t s)
    (hlt : s.inBufferReadLen < min s.inBufferLength f.bytes.length) (h9 : 9 ≤ s.inBufferLength)
    (hroom : 5+p.variableHeader.length ≤ s.inBufferLength) (hrec : Receives t s t' s') :
    Partway f.bytes rest t' s' ∧ s'.inBufferLength = s.inBufferLength ∧
    s'.inBufferReadLen = min s.inBufferLength f.bytes.length ∧
    s'.messageLength = f.bytes.length := by
  have hone (t : Transport) (s0 : RxState) (h : Partway f.bytes rest t s0)
      (hbl : s0.inBufferLength = s.inBufferLength)
      (hlt : s0.inBufferReadLen < min s.inBufferLength f.bytes.length) :
      Partway f.bytes rest (mqttMessageReceive t s0).2.1 (mqttMessageReceive t s0).2.2 ∧
      (mqttMessageReceive t s0).2.2.inBufferLength = s.inBufferLength ∧
      ((((mqttMessageReceive t s0).1 = .nothing ∨
          (mqttMessageReceive t s0).1 = .midMessageTimeout) ∧
        (mqttMessageReceive t s0).2.2.inBufferReadLen < min s.inBufferLength f.bytes.length) ∨
      ((mqttMessageReceive t s0).1 = .message ∧
        (mqttMessageReceive t s0).2.2.inBufferReadLen = min s.inBufferLength f.bytes.length ∧
        (mqttMessageReceive t s0).2.2.messageLength = f.bytes.length)) := by
    by_cases hfit : f.bytes.length ≤ s.inBufferLength
    · rw [Nat.min_eq_right hfit] at hlt ⊢
      obtain ⟨g1,g2,g3⟩ := mqttMessageReceive_fits f (publish_not_runsOn hpub ht) rest t s0 h hlt
        (by omega)
      exact ⟨g1, g2.trans hbl, g3⟩
    · rw [Nat.min_eq_left (by omega)] at hlt ⊢
      have hadmitted := admittedLength_add_two f p
      have hh := f.headerLength_le
      obtain ⟨g1,g2,g3⟩ := mqttMessageReceive_oversized hpub rest t s0 h (by omega) (by omega)
        (by omega)
      rw [hbl] at g2 g3
      refine ⟨g1, g2, ?_⟩
      rcases g3 with g3 | ⟨g3,-,g4⟩ | ⟨-,g3⟩
      · exact Or.inl g3
      · exact Or.inr ⟨g3, g4⟩
      · omega
  have hgen : ∀ t0 s0 t2 s2, Receives t0 s0 t2 s2 → Partway f.bytes rest t0 s0 →
      s0.inBufferLength = s.inBufferLength →
      s0.inBufferReadLen < min s.inBufferLength f.bytes.length →
      Partway f.bytes rest t2 s2 ∧ s2.inBufferLength = s.inBufferLength ∧
      s2.inBufferReadLen = min s.inBufferLength f.bytes.length ∧
      s2.messageLength = f.bytes.length := by
    intro t0 s0 t2 s2 hr
    induction hr with
    | done t0 s0 t2 s2 he =>
      intro hp hbl hl
      obtain ⟨g1,g2,g3⟩ := hone t0 s0 hp hbl hl
      rw [he] at g1 g2 g3
      rcases g3 with ⟨g3 | g3,-⟩ | ⟨-,g4,g5⟩
      · cases g3
      · cases g3
      · exact ⟨g1,g2,g4,g5⟩
    | more t0 s0 t1 s1 t2 s2 r he hr hn ih =>
      intro hp hbl hl
      obtain ⟨g1,g2,g3⟩ := hone t0 s0 hp hbl hl
      rw [he] at g1 g2 g3
      rcases g3 with ⟨-,g4⟩ | ⟨g3,-⟩
      · exact ih g1 g2 g4
      · rcases hr with rfl | rfl <;> cases g3
  exact hgen t s t' s' hrec h rfl hlt

end EspMqtt
