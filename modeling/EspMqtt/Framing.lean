import EspMqtt.Receive
import EspMqtt.Wire

/-! What `mqtt_message_receive` makes of a stream of whole packets, however the
transport cuts it. A call may leave a packet half read; the next call finds out
where it was from `in_buffer_read_len` and the last byte read. -/
namespace EspMqtt
open Wire

theorem mqttHasValidMsgHdr_of_firstByteOk (b : UInt8) (h : FirstByteOk b) :
    mqttHasValidMsgHdr b = true := by
  have hall : ∀ n : Fin 256, FirstByteOk (UInt8.ofNat n.val) →
      mqttHasValidMsgHdr (UInt8.ofNat n.val) = true := by decide +kernel
  have hb := hall ⟨b.toNat, b.toNat_lt⟩
  simp only [UInt8.ofNat_toNat] at hb
  exact hb h

/-- The length loop reads a field off the buffer wherever it starts. -/
theorem totalLengthLoop_field (buffer lens : List UInt8) (length k i t : ℕ)
    (hf : Base128.IsField lens) (hk : lens.length ≤ k) (hi : 1 ≤ i) (hl : i+lens.length ≤ length)
    (hb : ∀ j, j < lens.length → buffer.getD (i+j) 0 = lens.getD j 0) :
    totalLengthLoop buffer length k i t =
      (t+Base128.value lens*2^(7*(i-1)), i+lens.length) := by
  induction lens generalizing k i t with
  | nil => exact False.elim hf
  | cons b bs ih =>
    obtain ⟨k,rfl⟩ : ∃ m, k = m+1 := ⟨k-1, by simp only [List.length_cons] at hk; omega⟩
    simp only [List.length_cons] at hk hl
    have h0 : buffer.getD i 0 = b := by simpa using hb 0 (by simp)
    simp only [totalLengthLoop, h0, Base128.high_bit_clear_iff, Base128.low_bits,
      if_pos (show i < length by omega)]
    cases bs with
    | nil =>
      have hs : b.toNat < 128 := hf
      simp only [if_pos hs, Base128.value, List.length_cons, List.length_nil, Nat.mul_zero,
        Nat.add_zero]
    | cons c bs =>
      have hc : ¬ b.toNat < 128 := by have := hf.1; omega
      have hb' : ∀ j, j < (c :: bs).length → buffer.getD (i+1+j) 0 = (c :: bs).getD j 0 := by
        intro j hj
        have := hb (j+1) (by simpa using hj)
        rwa [List.getD_cons_succ, show i+(j+1) = i+1+j by omega] at this
      rw [if_neg hc, ih k (i+1) _ hf.2 (by simpa using hk) (by omega)
        (by simp only [List.length_cons] at hl ⊢; omega) hb']
      have hp : 2^(7*(i+1-1)) = 128*2^(7*(i-1)) := by
        rw [show 7*(i+1-1) = 7+7*(i-1) by omega, pow_add]
        norm_num
      refine Prod.ext ?_ (by simp only [List.length_cons]; omega)
      simp only [hp, Base128.value]
      ring

/-- With the header in the buffer `mqtt_get_total_length` is right, and it does
not look behind the header. -/
theorem mqttGetTotalLength_frame (f : Frame) (buffer : List UInt8) (r : ℕ)
    (hr : f.headerLength ≤ r) (hb : buffer.take r = f.bytes.take r) :
    mqttGetTotalLength buffer r = (f.bytes.length, f.headerLength) := by
  have hloop := totalLengthLoop_field buffer f.lens r 4 1 0 f.lens_ok f.lens_le (Nat.le_refl 1)
    (by unfold Frame.headerLength at hr; omega)
    (by
      intro j hj
      rw [ByteBuffer.getD_of_take_eq buffer f.bytes r (1+j) 0
        (by unfold Frame.headerLength at hr; omega) hb]
      exact f.getD_lens j hj)
  unfold mqttGetTotalLength
  rw [hloop, f.bytes_length, f.body_length, Frame.headerLength]
  simp only [Nat.sub_self, Nat.mul_zero, pow_zero, Nat.mul_one, Nat.zero_add]
  exact Prod.ext (Nat.add_comm _ _) rfl

/-- A transport that is up and whose reads time out or hand over data. -/
structure Calm (t : Transport) : Prop where
  isOpen : t.isOpen = true
  reads : ∀ c ∈ t.reads, c = .timeout ∨ ∃ k, c = .chunk k

/-- The reader is inside packet `p`, with `rest` behind it on the wire: what is
in the buffer is a prefix of `p`, and nothing else has been consumed. -/
structure Partway (p rest : List UInt8) (t : Transport) (s : RxState) : Prop where
  calm : Calm t
  le : s.inBufferReadLen ≤ p.length
  room : s.inBufferReadLen ≤ s.inBuffer.length
  seen : s.inBuffer.take s.inBufferReadLen = p.take s.inBufferReadLen
  ahead : t.stream = p.drop s.inBufferReadLen ++ rest

theorem Calm.read {t : Transport} (h : Calm t) (n : ℕ) :
    Calm (espTransportRead t n).2 ∧
    ((espTransportRead t n).1 = .timeout ∨ ∃ bs, (espTransportRead t n).1 = .bytes bs) := by
  obtain ⟨ho,hr⟩ := h
  unfold espTransportRead
  rw [if_pos ho]
  split
  · exact ⟨⟨ho,hr⟩, Or.inl rfl⟩
  · rename_i rs he
    rw [he] at hr
    exact ⟨⟨ho, fun c hc => hr c (List.mem_cons_of_mem _ hc)⟩, Or.inl rfl⟩
  · rename_i rs he
    rw [he] at hr
    rcases hr _ List.mem_cons_self with h | ⟨k,h⟩ <;> cases h
  · rename_i rs he
    rw [he] at hr
    rcases hr _ List.mem_cons_self with h | ⟨k,h⟩ <;> cases h
  · rename_i k rs he
    rw [he] at hr
    have hr' : ∀ c ∈ rs, c = .timeout ∨ ∃ k, c = .chunk k :=
      fun c hc => hr c (List.mem_cons_of_mem _ hc)
    dsimp only
    split
    · exact ⟨⟨ho,hr'⟩, Or.inl rfl⟩
    · exact ⟨⟨ho,hr'⟩, Or.inr ⟨_,rfl⟩⟩

/-- A read that asks for no more than the packet still holds stays inside it. -/
theorem Partway.read {p rest : List UInt8} {t : Transport} {s : RxState}
    (h : Partway p rest t s) (n : ℕ) (hn : s.inBufferReadLen+n ≤ p.length) :
    ((espTransportRead t n).1 = .timeout ∧ Partway p rest (espTransportRead t n).2 s) ∨
    (∃ bs, (espTransportRead t n).1 = .bytes bs ∧ bs ≠ [] ∧ bs.length ≤ n ∧
      Partway p rest (espTransportRead t n).2 (s.store bs)) := by
  obtain ⟨hc,ht⟩ := h.calm.read n
  rcases espTransportRead_cases t n with ⟨bs,he,hne,hle,hst⟩ | ⟨hno,hst⟩
  · refine Or.inr ⟨bs, he, hne, hle, ?_⟩
    have hbs : bs = (p.drop s.inBufferReadLen).take bs.length := by
      have hd : bs ++ (espTransportRead t n).2.stream = p.drop s.inBufferReadLen ++ rest := by
        rw [← hst]; exact h.ahead
      have := congrArg (List.take bs.length) hd
      rwa [List.take_left, List.take_append_of_le_length (by rw [List.length_drop]; omega)] at this
    refine ⟨hc, ?_, ?_, ?_, ?_⟩
    · simp only [RxState.store]; omega
    · exact ByteBuffer.le_splice_length _ _ _ h.room
    · simp only [RxState.store]
      rw [ByteBuffer.take_splice _ _ _ h.room, h.seen]
      conv_lhs => rw [hbs]
      exact ByteBuffer.take_drop_append _ _ _
    · have hd : bs ++ (espTransportRead t n).2.stream = p.drop s.inBufferReadLen ++ rest := by
        rw [← hst]; exact h.ahead
      have := congrArg (List.drop bs.length) hd
      rw [List.drop_left, List.drop_append_of_le_length (by rw [List.length_drop]; omega),
        List.drop_drop] at this
      exact this
  · rcases ht with ht | ⟨bs,hb⟩
    · exact Or.inl ⟨ht, hc, h.le, h.room, h.seen, by rw [hst]; exact h.ahead⟩
    · exact absurd hb (hno bs)

/-- A short packet whose last two bytes are body bytes with the high bit set:
resumed before its last byte, the reader takes both for Remaining Length bytes
and reads on. -/
def RunsOn (f : Frame) : Prop :=
  f.bytes.length < 6 ∧ 2 ≤ f.body.length ∧
  128 ≤ (f.bytes.getD (f.bytes.length-2) 0).toNat ∧
  128 ≤ (f.bytes.getD (f.bytes.length-1) 0).toNat

instance (f : Frame) : Decidable (RunsOn f) := by unfold RunsOn; infer_instance

theorem Partway.lastContinues_iff {p rest : List UInt8} {t : Transport} {s : RxState}
    (h : Partway p rest t s) (h1 : 1 ≤ s.inBufferReadLen) :
    s.lastContinues = true ↔ 128 ≤ (p.getD (s.inBufferReadLen-1) 0).toNat := by
  have hg := ByteBuffer.getD_of_take_eq s.inBuffer p s.inBufferReadLen (s.inBufferReadLen-1) 0
    (by omega) h.seen
  simp only [RxState.lastContinues, hg, bne_iff_ne, ne_eq, Base128.high_bit_clear_iff, not_lt]

@[simp] theorem RxState.store_readLen (s : RxState) (bs : List UInt8) :
    (s.store bs).inBufferReadLen = s.inBufferReadLen+bs.length := rfl

@[simp] theorem RxState.store_bufferLength (s : RxState) (bs : List UInt8) :
    (s.store bs).inBufferLength = s.inBufferLength := rfl

/-- Where the loop reads on, the packet has another byte. -/
theorem loop_stays_inside (f : Frame) (hf : ¬ RunsOn f) (r : ℕ) (h1 : 1 ≤ r)
    (hlt : r < f.bytes.length)
    (hin : r < f.headerLength ∨ (r < 6 ∧ 128 ≤ (f.bytes.getD (r-1) 0).toNat))
    (hr : r+1 < 6) (hc : 128 ≤ (f.bytes.getD r 0).toNat) :
    r+1 < f.bytes.length := by
  have hn := f.bytes_length
  have hstop := f.header_stops
  by_contra hge
  have hlen : f.bytes.length = r+1 := by omega
  rcases Nat.lt_trichotomy (r+1) f.headerLength with h | h | h
  · omega
  · rw [← h, Nat.add_sub_cancel] at hstop
    omega
  · have hrh : r ≠ f.headerLength := by
      rintro rfl
      rcases hin with h' | ⟨-,h'⟩ <;> omega
    have hprev : 128 ≤ (f.bytes.getD (r-1) 0).toNat := by
      rcases hin with h' | ⟨-,h'⟩
      · omega
      · exact h'
    apply hf
    refine ⟨by omega, by omega, ?_, ?_⟩
    · rw [hlen, show r+1-2 = r-1 by omega]; exact hprev
    · rw [hlen, Nat.add_sub_cancel]; exact hc

/-- The Remaining Length loop stays inside the packet and does not stop before
the end of the fixed header. -/
theorem remainingLengthLoop_partway (f : Frame) (hf : ¬ RunsOn f) (rest : List UInt8)
    (k : ℕ) (t : Transport) (s : RxState) (h : Partway f.bytes rest t s)
    (h1 : 1 ≤ s.inBufferReadLen) (hlt : s.inBufferReadLen < f.bytes.length)
    (hin : s.inBufferReadLen < f.headerLength ∨
      (s.inBufferReadLen < 6 ∧ 128 ≤ (f.bytes.getD (s.inBufferReadLen-1) 0).toNat))
    (hk : 6 ≤ s.inBufferReadLen+k) :
    Partway f.bytes rest (remainingLengthLoop k t s).2.1 (remainingLengthLoop k t s).2.2 ∧
    s.inBufferReadLen ≤ (remainingLengthLoop k t s).2.2.inBufferReadLen ∧
    (remainingLengthLoop k t s).2.2.inBufferLength = s.inBufferLength ∧
    (((remainingLengthLoop k t s).1 = some .midMessageTimeout ∧
        (remainingLengthLoop k t s).2.2.inBufferReadLen < f.bytes.length) ∨
      ((remainingLengthLoop k t s).1 = none ∧
        f.headerLength ≤ (remainingLengthLoop k t s).2.2.inBufferReadLen)) := by
  induction k generalizing t s with
  | zero =>
    have := f.headerLength_le
    omega
  | succ k ih =>
    rcases h.read 1 (by omega) with ⟨he,hp⟩ | ⟨bs,he,hne,hle,hp⟩
    · have hx : remainingLengthLoop (k+1) t s =
          (some .midMessageTimeout, (espTransportRead t 1).2, s) := by
        rw [remainingLengthLoop, ← Prod.eta (espTransportRead t 1), he]; rfl
      rw [hx]
      exact ⟨hp, Nat.le_refl _, rfl, Or.inl ⟨rfl,hlt⟩⟩
    · have hbl : bs.length = 1 := by
        have := List.length_pos_of_ne_nil hne
        omega
      have hr : (s.store bs).inBufferReadLen = s.inBufferReadLen+1 := by
        rw [RxState.store_readLen, hbl]
      have hcont := hp.lastContinues_iff (by omega)
      rw [hr, Nat.add_sub_cancel] at hcont
      have hx : remainingLengthLoop (k+1) t s =
          if (s.store bs).inBufferReadLen < 6 ∧ (s.store bs).lastContinues = true then
            remainingLengthLoop k (espTransportRead t 1).2 (s.store bs)
          else (none, (espTransportRead t 1).2, s.store bs) := by
        rw [remainingLengthLoop, ← Prod.eta (espTransportRead t 1), he]
      rw [hx]
      by_cases hgo : (s.store bs).inBufferReadLen < 6 ∧ (s.store bs).lastContinues = true
      · rw [if_pos hgo]
        obtain ⟨hl6,hc⟩ := hgo
        have hins := loop_stays_inside f hf s.inBufferReadLen h1 hlt hin (by omega) (hcont.mp hc)
        obtain ⟨g1,g2,g3,g4⟩ := ih (espTransportRead t 1).2 (s.store bs) hp (by omega)
          (by omega) (Or.inr ⟨hl6, by rw [hr, Nat.add_sub_cancel]; exact hcont.mp hc⟩) (by omega)
        exact ⟨g1, by omega, g3, g4⟩
      · rw [if_neg hgo]
        dsimp only
        refine ⟨hp, by omega, rfl, Or.inr ⟨rfl, ?_⟩⟩
        -- a loop that stopped inside the header would have stopped at a continuing byte
        by_contra hshort
        have hh := f.headerLength_le
        apply hgo
        refine ⟨by omega, hcont.mpr ?_⟩
        exact f.header_continues s.inBufferReadLen h1 (by omega)

theorem Partway.withMessageLength {p rest : List UInt8} {t : Transport} {s : RxState}
    (h : Partway p rest t s) (m : ℕ) : Partway p rest t {s with messageLength := m} :=
  ⟨h.calm, h.le, h.room, h.seen, h.ahead⟩

/-- A stage that is done leaves the reader inside the packet with at least `lo`
bytes; one that gives up leaves it before the end. -/
structure StageOk (f : Frame) (rest : List UInt8) (lo : ℕ) (s : RxState)
    (o : Option Recv × Transport × RxState) : Prop where
  partway : Partway f.bytes rest o.2.1 o.2.2
  grows : s.inBufferReadLen ≤ o.2.2.inBufferReadLen
  bufferLength : o.2.2.inBufferLength = s.inBufferLength
  result : ((o.1 = some .nothing ∨ o.1 = some .midMessageTimeout) ∧
      o.2.2.inBufferReadLen < f.bytes.length) ∨
    (o.1 = none ∧ lo ≤ o.2.2.inBufferReadLen)

theorem receiveFirstByte_ok (f : Frame) (rest : List UInt8) (t : Transport) (s : RxState)
    (h : Partway f.bytes rest t s) (hlt : s.inBufferReadLen < f.bytes.length) :
    StageOk f rest 1 s (receiveFirstByte t s) ∧
    ((receiveFirstByte t s).1 = none →
      (receiveFirstByte t s).2.2.inBufferReadLen < f.bytes.length) := by
  unfold receiveFirstByte
  by_cases hz : s.inBufferReadLen = 0
  · rw [if_pos hz]
    rcases h.read 1 (by omega) with ⟨he,hp⟩ | ⟨bs,he,hne,hle,hp⟩
    · rw [← Prod.eta (espTransportRead t 1), he]
      exact ⟨⟨hp, Nat.le_refl _, rfl, Or.inl ⟨Or.inl rfl,hlt⟩⟩, fun hn => by cases hn⟩
    · have hbl : bs.length = 1 := by
        have := List.length_pos_of_ne_nil hne
        omega
      obtain ⟨b,rfl⟩ := List.length_eq_one_iff.mp hbl
      have hb : b = f.first := by
        have hs := hp.seen
        simp only [RxState.store, hz, ByteBuffer.splice, Frame.bytes] at hs
        simpa using hs
      rw [← Prod.eta (espTransportRead t 1), he]
      have hv : mqttHasValidMsgHdr ([b].getD 0 0) = true := by
        rw [hb]; exact mqttHasValidMsgHdr_of_firstByteOk _ f.first_ok
      simp only [hv, if_true]
      have hlen := f.bytes_length
      have htwo := f.two_le_headerLength
      refine ⟨⟨hp, ?_, rfl, Or.inr ⟨rfl,?_⟩⟩, fun _ => ?_⟩ <;>
        simp only [RxState.store_readLen, List.length_singleton] <;> omega
  · rw [if_neg hz]
    exact ⟨⟨h, Nat.le_refl _, rfl, Or.inr ⟨rfl, by dsimp only; omega⟩⟩, fun _ => hlt⟩

theorem receiveRemainingLength_ok (f : Frame) (hf : ¬ RunsOn f) (rest : List UInt8)
    (t : Transport) (s : RxState) (h : Partway f.bytes rest t s) (h1 : 1 ≤ s.inBufferReadLen)
    (hlt : s.inBufferReadLen < f.bytes.length) :
    StageOk f rest f.headerLength s (receiveRemainingLength t s) := by
  have hcont := h.lastContinues_iff h1
  have htwo := f.two_le_headerLength
  unfold receiveRemainingLength
  by_cases hgo : s.inBufferReadLen = 1 ∨ (s.inBufferReadLen < 6 ∧ s.lastContinues = true)
  · rw [if_pos hgo]
    obtain ⟨g1,g2,g3,g4⟩ := remainingLengthLoop_partway f hf rest 6 t s h h1 hlt
      (by
        rcases hgo with hr | ⟨hr,hc⟩
        · exact Or.inl (by omega)
        · exact Or.inr ⟨hr, hcont.mp hc⟩) (by omega)
    refine ⟨g1, g2, g3, ?_⟩
    rcases g4 with ⟨ha,hb⟩ | hb
    · exact Or.inl ⟨Or.inr ha,hb⟩
    · exact Or.inr hb
  · rw [if_neg hgo]
    refine ⟨h, Nat.le_refl _, rfl, Or.inr ⟨rfl,?_⟩⟩
    dsimp only
    by_contra hshort
    have hle := f.headerLength_le
    push Not at hgo
    have hc := f.header_continues (s.inBufferReadLen-1) (by omega) (by omega)
    exact absurd (hcont.mpr hc) (hgo.2 (by omega))

theorem receiveUpTo_partway {p rest : List UInt8} {t : Transport} {s : RxState}
    (h : Partway p rest t s) (n : ℕ) (hr : s.inBufferReadLen ≤ n) (hn : n ≤ p.length) :
    Partway p rest (receiveUpTo n t s).2.1 (receiveUpTo n t s).2.2 ∧
    (receiveUpTo n t s).2.2.inBufferLength = s.inBufferLength ∧
    (receiveUpTo n t s).2.2.messageLength = s.messageLength ∧
    ((((receiveUpTo n t s).1 = .nothing ∨ (receiveUpTo n t s).1 = .midMessageTimeout) ∧
        (receiveUpTo n t s).2.2.inBufferReadLen < n) ∨
      ((receiveUpTo n t s).1 = .message ∧ (receiveUpTo n t s).2.2.inBufferReadLen = n)) := by
  unfold receiveUpTo
  by_cases hlt : s.inBufferReadLen < n
  · rw [if_pos hlt]
    rcases h.read (n-s.inBufferReadLen) (by omega) with ⟨he,hp⟩ | ⟨bs,he,hne,hle,hp⟩
    · rw [← Prod.eta (espTransportRead t (n-s.inBufferReadLen)), he]
      exact ⟨hp, rfl, rfl, Or.inl ⟨Or.inr rfl,hlt⟩⟩
    · rw [← Prod.eta (espTransportRead t (n-s.inBufferReadLen)), he]
      dsimp only
      by_cases hm : (s.store bs).inBufferReadLen < n
      · rw [if_pos hm]
        exact ⟨hp, rfl, rfl, Or.inl ⟨Or.inl rfl,hm⟩⟩
      · rw [if_neg hm]
        refine ⟨hp, rfl, rfl, Or.inr ⟨rfl,?_⟩⟩
        simp only [RxState.store_readLen] at hm ⊢
        omega
  · rw [if_neg hlt]
    exact ⟨h, rfl, rfl, Or.inr ⟨rfl, by dsimp only; omega⟩⟩

/-- One call inside a packet that fits the buffer: the packet is handed out
whole, or the reader stays before its end. -/
theorem mqttMessageReceive_fits (f : Frame) (hf : ¬ RunsOn f) (rest : List UInt8)
    (t : Transport) (s : RxState) (h : Partway f.bytes rest t s)
    (hlt : s.inBufferReadLen < f.bytes.length) (hfit : f.bytes.length ≤ s.inBufferLength) :
    Partway f.bytes rest (mqttMessageReceive t s).2.1 (mqttMessageReceive t s).2.2 ∧
    (mqttMessageReceive t s).2.2.inBufferLength = s.inBufferLength ∧
    ((((mqttMessageReceive t s).1 = .nothing ∨ (mqttMessageReceive t s).1 = .midMessageTimeout) ∧
        (mqttMessageReceive t s).2.2.inBufferReadLen < f.bytes.length) ∨
      ((mqttMessageReceive t s).1 = .message ∧
        (mqttMessageReceive t s).2.2.inBufferReadLen = f.bytes.length ∧
        (mqttMessageReceive t s).2.2.messageLength = f.bytes.length)) := by
  obtain ⟨ha,ha'⟩ := receiveFirstByte_ok f rest t {s with messageLength := 0}
    (h.withMessageLength 0) hlt
  unfold mqttMessageReceive
  generalize receiveFirstByte t {s with messageLength := 0} = a at ha ha'
  obtain ⟨ra,ta,sa⟩ := a
  rcases ha.result with ⟨hres,hend⟩ | ⟨hres,hlo⟩
  · rcases hres with hres | hres <;> dsimp only at hres <;> subst hres
    · exact ⟨ha.partway, ha.bufferLength, Or.inl ⟨Or.inl rfl,hend⟩⟩
    · exact ⟨ha.partway, ha.bufferLength, Or.inl ⟨Or.inr rfl,hend⟩⟩
  · dsimp only at hres
    subst hres
    have hb := receiveRemainingLength_ok f hf rest ta sa ha.partway hlo (ha' rfl)
    dsimp only
    generalize receiveRemainingLength ta sa = b at hb
    obtain ⟨rb,tb,sb⟩ := b
    have hbl : sb.inBufferLength = s.inBufferLength := hb.bufferLength.trans ha.bufferLength
    rcases hb.result with ⟨hres,hend⟩ | ⟨hres,hlo'⟩
    · rcases hres with hres | hres <;> dsimp only at hres <;> subst hres
      · exact ⟨hb.partway, hbl, Or.inl ⟨Or.inl rfl,hend⟩⟩
      · exact ⟨hb.partway, hbl, Or.inl ⟨Or.inr rfl,hend⟩⟩
    · dsimp only at hres
      subst hres
      have htot := mqttGetTotalLength_frame f sb.inBuffer sb.inBufferReadLen hlo' hb.partway.seen
      have hup := receiveUpTo_partway (hb.partway.withMessageLength f.bytes.length)
        f.bytes.length hb.partway.le (Nat.le_refl _)
      dsimp only [receiveRest]
      rw [htot]
      dsimp only
      rw [if_neg (by omega)]
      obtain ⟨g1,g2,g3,g4⟩ := hup
      refine ⟨g1, g2.trans hbl, ?_⟩
      rcases g4 with g4 | ⟨g4,g5⟩
      · exact Or.inl g4
      · exact Or.inr ⟨g4,g5,g3⟩

end EspMqtt
