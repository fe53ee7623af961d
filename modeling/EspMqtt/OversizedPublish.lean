import EspMqtt.ReceivePublish
import EspMqtt.FramingRuns

/-! The admission of a PUBLISH that is larger than the input buffer: which of them
`mqtt_message_receive` hands out, and what the accessors then find. -/
namespace EspMqtt
open Wire

/-- Successive calls up to the one that hands a packet out or gives up. -/
inductive Concludes : Transport → RxState → Recv → Transport → RxState → Prop
  | done (t s r t' s') (h : mqttMessageReceive t s = (r, t', s'))
    (hr : r = .message ∨ r = .failure) : Concludes t s r t' s'
  | more (t s t1 s1 r t' s' q) (h : mqttMessageReceive t s = (q, t1, s1))
    (hq : q = .nothing ∨ q = .midMessageTimeout) (hn : Concludes t1 s1 r t' s') :
    Concludes t s r t' s'

/-- The variable header is among the bytes received, and the accessors read it off them:
another buffer with the same bytes received gives the same topic, payload length and identifier,
which are the packet's. -/
structure AdmittedWhole (f : Frame) (p : Publish) (s : RxState) : Prop where
  inside : f.headerLength+p.variableHeader.length ≤ s.inBufferReadLen
  fits : s.inBufferReadLen ≤ s.inBufferLength
  topic : ∀ b, b.take s.inBufferReadLen = s.inBuffer.take s.inBufferReadLen →
    mqttGetPublishTopic b s.inBufferReadLen = some (f.headerLength+2, p.topic.length) ∧
      (b.drop (f.headerLength+2)).take p.topic.length = p.topic
  payload : ∀ b, b.take s.inBufferReadLen = s.inBuffer.take s.inBufferReadLen →
    (mqttGetPublishData b s.inBufferReadLen).2+s.messageLength-s.inBufferReadLen = p.payload.length
  id : ∀ b, b.take s.inBufferReadLen = s.inBuffer.take s.inBufferReadLen →
    mqttGetId b s.messageLength = p.id

/-- Whatever the transport lets through at a time, the packet is handed out with its whole header
or, where the buffer has no room for it, refused. -/
def AdmitsOnlyWhole (f : Frame) (p : Publish) (bufferLength : ℕ) : Prop :=
  ∀ rest t s r t' s', Partway f.bytes rest t s → s.inBufferReadLen = 0 →
    s.inBufferLength = bufferLength → Concludes t s r t' s' →
    (r = .message ∧ AdmittedWhole f p s') ∨
    (r = .failure ∧ bufferLength < f.headerLength+p.variableHeader.length)

/-- How the calls on an oversized PUBLISH end. -/
theorem concludes_oversized {f : Frame} {p : Publish} (hpub : IsPublish f p) {rest : List UInt8}
    {t t' : Transport} {s s' : RxState} {r : Recv} (hc : Concludes t s r t' s')
    (h : Partway f.bytes rest t s) (hlt : s.inBufferReadLen < s.inBufferLength)
    (hbig : s.inBufferLength < f.bytes.length) (h9 : 9 ≤ s.inBufferLength) :
    (r = .message ∧ admittedLength f p ≤ s.inBufferLength ∧ Partway f.bytes rest t' s' ∧
      s'.inBufferLength = s.inBufferLength ∧ s'.inBufferReadLen = s.inBufferLength ∧
      s'.messageLength = f.bytes.length) ∨
    (r = .failure ∧ s.inBufferLength < admittedLength f p) := by
  induction hc with
  | done t s r t' s' he hr =>
    obtain ⟨g1,g2,g3⟩ := mqttMessageReceive_oversized hpub rest t s h hlt hbig h9
    rw [he] at g1 g2 g3
    dsimp only at g1 g2 g3
    rcases g3 with ⟨g3,-⟩ | ⟨g3,g4,g5,g6⟩ | g3
    · rcases hr with rfl | rfl
      · simp at g3
      · simp at g3
    · exact Or.inl ⟨g3, g4, g1, g2, g5, g6⟩
    · exact Or.inr g3
  | more t s t1 s1 r t' s' q he hq hn ih =>
    obtain ⟨g1,g2,g3⟩ := mqttMessageReceive_oversized hpub rest t s h hlt hbig h9
    rw [he] at g1 g2 g3
    dsimp only at g1 g2 g3
    rcases g3 with ⟨-,g3⟩ | ⟨g3,-⟩ | ⟨g3,-⟩
    · rw [← g2] at hbig h9 g3 ⊢
      exact ih g1 g3 hbig h9
    · rcases hq with rfl | rfl
      · simp at g3
      · simp at g3
    · rcases hq with rfl | rfl
      · simp at g3
      · simp at g3

/-- A buffer filled up with the beginning of the packet holds all that the accessors need. -/
theorem admittedWhole_of_partway {f : Frame} {p : Publish} (hpub : IsPublish f p)
    {rest : List UInt8} {t : Transport} {s : RxState} (h : Partway f.bytes rest t s)
    (hfull : s.inBufferReadLen = s.inBufferLength) (hml : s.messageLength = f.bytes.length)
    (h9 : 9 ≤ s.inBufferLength) (hroom : f.headerLength+p.variableHeader.length ≤ s.inBufferLength) :
    AdmittedWhole f p s := by
  have hh := f.headerLength_le
  have hlen : f.bytes.length = f.headerLength+(p.variableHeader.length+p.payload.length) := by
    rw [f.bytes_length, hpub.body, Publish.body, List.length_append]
  have hle := h.le
  have hholds (b : List UInt8) (hb : b.take s.inBufferReadLen = s.inBuffer.take s.inBufferReadLen) :
      HoldsPublish f p b s.inBufferReadLen :=
    ⟨hpub, hb.trans h.seen, by omega, hle⟩
  refine ⟨by omega, by omega, fun b hb => ?_, fun b hb => ?_, fun b hb => ?_⟩
  · exact ⟨(hholds b hb).getPublishTopic (by omega), (hholds b hb).topic_slice⟩
  · rw [(hholds b hb).getPublishData (by omega), hml]
    dsimp only
    omega
  · exact (hholds b hb).getId (by omega) (by omega)

/-- Where the admission test lets the packet through, there is a schedule that fills the buffer
with it: byte by byte over the fixed header, then the topic length, then the rest. -/
theorem oversized_concludes {f : Frame} {p : Publish} (hpub : IsPublish f p) {bufferLength : ℕ}
    (h9 : 9 ≤ bufferLength) (hbig : bufferLength < f.bytes.length) :
    ∃ t s r t' s', Partway f.bytes [] t s ∧ s.inBufferReadLen = 0 ∧
      s.inBufferLength = bufferLength ∧ Concludes t s r t' s' := by
  have hh := f.headerLength_le
  let t : Transport := ⟨true, f.bytes,
    List.replicate f.headerLength (.chunk 0) ++ [.chunk 1, .chunk bufferLength], [], []⟩
  let s : RxState := ⟨[], bufferLength, 0, 0⟩
  have hcalm : Calm t := by
    refine ⟨rfl, fun c hc => ?_⟩
    rcases List.mem_append.mp hc with hc | hc
    · exact Or.inr ⟨0, (List.mem_replicate.mp hc).2⟩
    · rcases List.mem_cons.mp hc with rfl | hc
      · exact Or.inr ⟨1, rfl⟩
      · exact Or.inr ⟨bufferLength, List.mem_singleton.mp hc⟩
  have hstart : Partway f.bytes [] t s := ⟨hcalm, by simp [s], by simp [s], rfl, by simp [t, s]⟩
  obtain ⟨t1,s1,hcall,hreads,hread,hbl,hp⟩ := mqttMessageReceive_header f [] t s _ hstart rfl rfl
  -- behind the fixed header the call does not wait any more
  have hbl1 : s1.inBufferLength = bufferLength := hbl
  have hdone : (receiveRest t1 s1).1 = .message ∨ (receiveRest t1 s1).1 = .failure := by
    have htwo := f.two_le_headerLength
    have htot := mqttGetTotalLength_frame f s1.inBuffer s1.inBufferReadLen (by omega) hp.seen
    have hfirst : s1.inBuffer.getD 0 0 = p.firstByte := by
      rw [ByteBuffer.getD_of_take_eq s1.inBuffer f.bytes s1.inBufferReadLen 0 0 (by omega) hp.seen,
        ← hpub.first]
      rfl
    obtain ⟨hty,-⟩ := firstByte_fields p hpub.wellFormed.qos_le
    have hp1 := hp.withMessageLength f.bytes.length
    -- the two bytes of the topic length
    obtain ⟨bs,hbytes,hcount,hreads2,hp2⟩ := hp1.read_chunk
      (s1.inBufferReadLen-f.headerLength+2) 1 _ hreads (by omega) (by dsimp only; omega)
    have hcount2 : bs.length = 2 := by omega
    -- and as many as the buffer has room for
    obtain ⟨cs,hbytes3,hcount3,-,-⟩ := hp2.read_chunk
      (bufferLength-(f.headerLength+2)) bufferLength [] hreads2 (by omega) (by
        rw [RxState.store_readLen, hcount2]
        dsimp only
        omega)
    have htopic : receiveTopicLength f.headerLength t1 {s1 with messageLength := f.bytes.length} =
        (none, (espTransportRead t1 (s1.inBufferReadLen-f.headerLength+2)).2,
          {s1 with messageLength := f.bytes.length}.store bs) := by
      unfold receiveTopicLength
      dsimp only
      rw [if_pos (by omega), ← Prod.eta (espTransportRead t1 (s1.inBufferReadLen-f.headerLength+2)),
        hbytes]
      dsimp only
      rw [if_neg (by rw [RxState.store_readLen, hcount2]; dsimp only; omega)]
    dsimp only [receiveRest]
    rw [htot]
    dsimp only
    rw [if_pos (by omega), hfirst, hty, if_pos rfl]
    unfold receiveOversized
    rw [htopic]
    have hread2 : ({s1 with messageLength := f.bytes.length}.store bs : RxState).inBufferReadLen =
        f.headerLength+2 := by
      rw [RxState.store_readLen, hcount2]
      dsimp only
      omega
    have hbl2 : ({s1 with messageLength := f.bytes.length}.store bs : RxState).inBufferLength =
        bufferLength := hbl1
    dsimp only
    rw [hbl2]
    generalize f.headerLength+be16 _ _+_ = admitted
    -- the admission test either refuses, or the buffer is filled
    by_cases hfull : bufferLength < admitted
    · rw [if_pos hfull]
      exact Or.inr rfl
    · rw [if_neg hfull]
      unfold receiveUpTo
      rw [hread2, if_pos (by omega),
        ← Prod.eta (espTransportRead (espTransportRead t1 (s1.inBufferReadLen-f.headerLength+2)).2
          (bufferLength-(f.headerLength+2))), hbytes3]
      dsimp only
      rw [if_neg (by rw [RxState.store_readLen, hread2, hcount3]; omega)]
      exact Or.inl rfl
  exact ⟨t, s, (receiveRest t1 s1).1, (receiveRest t1 s1).2.1, (receiveRest t1 s1).2.2, hstart, rfl,
    rfl, .done _ _ _ _ _ hcall hdone⟩

/-- The admission is exact unless the header is one or two bytes longer than the buffer. -/
theorem oversized_admission_iff {f : Frame} {p : Publish} (hpub : IsPublish f p) {bufferLength : ℕ}
    (h9 : 9 ≤ bufferLength) (hbig : bufferLength < f.bytes.length) :
    AdmitsOnlyWhole f p bufferLength ↔
      f.headerLength+p.variableHeader.length ≤ bufferLength ∨
      bufferLength+2 < f.headerLength+p.variableHeader.length := by
  have hadm := admittedLength_add_two f p
  constructor
  · intro h
    -- two bytes are missing in what the test counts: the schedule runs into exactly that edge
    by_contra hedge
    obtain ⟨t,s,r,t',s',hstart,hzero,hbl,hc⟩ := oversized_concludes hpub h9 hbig
    have hend := concludes_oversized hpub hc hstart (by omega) (by omega) (by omega)
    rcases h [] t s r t' s' hstart hzero hbl hc with ⟨hmsg,hwhole⟩ | ⟨hfail,-⟩
    · have hin := hwhole.inside
      have hfits := hwhole.fits
      rcases hend with ⟨-,-,-,hlen,-⟩ | ⟨hfail,-⟩
      · omega
      · rw [hmsg] at hfail
        cases hfail
    · rcases hend with ⟨hmsg,-⟩ | ⟨-,hrefused⟩
      · rw [hfail] at hmsg
        cases hmsg
      · omega
  · intro hcond rest t s r t' s' hstart hzero hbl hc
    rcases concludes_oversized hpub hc hstart (by omega) (by omega) (by omega) with
      ⟨hmsg,hadmitted,hp,hlen,hfull,hml⟩ | ⟨hfail,hrefused⟩
    · exact Or.inl ⟨hmsg, admittedWhole_of_partway hpub hp (by omega) hml (by omega) (by omega)⟩
    · exact Or.inr ⟨hfail, by omega⟩

/-- A QoS 1 PUBLISH of fourteen bytes, ten of them before the payload. -/
def tightPublish : Publish := ⟨[0x61, 0x62, 0x63, 0x64], [1, 2, 3, 4], 1, false, false, 0x1234⟩

theorem firstByteOk_qosOne : FirstByteOk 0x32 := by
  decide

def tightFrame : Frame where
  first := 0x32
  lens := [12]
  body := tightPublish.body
  first_ok := firstByteOk_qosOne
  lens_ok := by decide
  lens_le := by decide
  body_length := by decide

theorem tightFrame_isPublish : IsPublish tightFrame tightPublish where
  wellFormed :=
    { qos_le := by decide
      topic_length := by decide
      qos_zero := fun h => absurd h (by decide)
      id_range := fun _ => by decide }
  first := by decide
  body := rfl

/-- A buffer of ten bytes just holds the header. -/
theorem oversized_admission_ten : AdmitsOnlyWhole tightFrame tightPublish 10 :=
  (oversized_admission_iff tightFrame_isPublish (by decide) (by decide)).mpr (by decide)

/-- A buffer of nine bytes does not hold the low byte of the identifier, and the packet is handed
out all the same. -/
theorem oversized_admission_nine_fails : ¬ AdmitsOnlyWhole tightFrame tightPublish 9 := by
  intro h
  let t : Transport := ⟨true, tightFrame.bytes,
    [.chunk 0, .chunk 0, .chunk 1, .chunk 8], [], []⟩
  let s : RxState := ⟨List.replicate 9 0, 9, 0, 0⟩
  have hcalm : Calm t := by
    refine ⟨rfl, fun c hc => ?_⟩
    simp only [t, List.mem_cons, List.not_mem_nil, or_false] at hc
    rcases hc with rfl | rfl | rfl | rfl
    · exact Or.inr ⟨0, rfl⟩
    · exact Or.inr ⟨0, rfl⟩
    · exact Or.inr ⟨1, rfl⟩
    · exact Or.inr ⟨8, rfl⟩
  have hstart : Partway tightFrame.bytes [] t s := ⟨hcalm, by simp [s], by simp [s], rfl, rfl⟩
  have hmsg : (mqttMessageReceive t s).1 = .message := by decide +kernel
  have hread : (mqttMessageReceive t s).2.2.inBufferReadLen = 9 := by decide +kernel
  rcases h [] t s .message _ _ hstart rfl rfl
    (.done _ _ _ _ _ (Prod.ext hmsg rfl) (Or.inl rfl)) with ⟨-,hwhole⟩ | ⟨hfail,-⟩
  · have hin := hwhole.inside
    rw [hread] at hin
    exact absurd hin (by decide)
  · cases hfail

end EspMqtt
