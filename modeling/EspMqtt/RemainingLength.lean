import EspMqtt.OversizedPublish
import EspMqtt.ConnackDecision

/-! The Remaining Length field of an inbound packet. Five places scan it, with different
limits; here is what they find in the packets that `mqtt_message_receive` hands out. -/
namespace EspMqtt

/-! The field on the wire. -/

/-- Byte `j` has the continuation bit set. -/
def Goes (st : List UInt8) (j : ℕ) : Prop := st.getD j 0 &&& 0x80 ≠ 0

instance (st : List UInt8) (j : ℕ) : Decidable (Goes st j) :=
  inferInstanceAs (Decidable (_ ≠ _))

/-- All four bytes behind the first one have it. -/
def Runaway (st : List UInt8) : Prop := ∀ j ∈ [1, 2, 3, 4], Goes st j

instance (st : List UInt8) : Decidable (Runaway st) := inferInstanceAs (Decidable (∀ j ∈ _, _))

/-- The end of the fixed header, with a field of at most four bytes. -/
def fieldEnd (st : List UInt8) : ℕ := (totalLengthLoop st 5 4 1 0).2

/-- The length of the packet by its field. -/
def packetLength (st : List UInt8) : ℕ := (totalLengthLoop st 5 4 1 0).1+fieldEnd st

/-- What the reader takes before it looks at the length: a fifth byte if the fourth one
continues. -/
def lengthBytesRead (st : List UInt8) : ℕ := if Runaway st then 6 else fieldEnd st

theorem Runaway.goes {st : List UInt8} (h : Runaway st) {j : ℕ} (h1 : 1 ≤ j) (h4 : j ≤ 4) :
    Goes st j := by
  apply h
  rw [List.mem_cons, List.mem_cons, List.mem_cons, List.mem_singleton]
  omega

theorem goes_before (st : List UInt8) {j : ℕ} (h1 : 1 ≤ j) (hj : j+1 < fieldEnd st) : Goes st j :=
  totalLengthLoop_before st 5 4 1 0 h1 hj

theorem fieldEnd_le_five (st : List UInt8) : fieldEnd st ≤ 5 := (totalLengthLoop_range st 5 4 1 0).2.1

theorem fieldEnd_stops (st : List UInt8) (h : fieldEnd st < 5) :
    ¬ Goes st (fieldEnd st-1) ∧ 2 ≤ fieldEnd st := by
  obtain ⟨hlow,hlt⟩ := totalLengthLoop_stop st 5 4 1 0 h h
  exact ⟨fun hgoes => hgoes hlow, hlt⟩

theorem two_le_fieldEnd (st : List UInt8) : 2 ≤ fieldEnd st := by
  by_cases h : fieldEnd st < 5
  · exact (fieldEnd_stops st h).2
  · omega

theorem fieldEnd_le_of_stop {st : List UInt8} {j : ℕ} (h1 : 1 ≤ j) (hstop : ¬ Goes st j) :
    fieldEnd st ≤ j+1 := by
  by_contra hlt
  exact hstop (goes_before st h1 (by omega))

theorem Runaway.fieldEnd {st : List UInt8} (h : Runaway st) : fieldEnd st = 5 := by
  have hle := fieldEnd_le_five st
  by_contra hne
  obtain ⟨hstop,htwo⟩ := fieldEnd_stops st (by omega)
  exact hstop (h.goes (by omega) (by omega))

/-- A field that does not run away ends in a byte without the bit. -/
theorem not_goes_fieldEnd {st : List UInt8} (h : ¬ Runaway st) : ¬ Goes st (fieldEnd st-1) := by
  by_cases hlt : fieldEnd st < 5
  · exact (fieldEnd_stops st hlt).1
  · have hle := fieldEnd_le_five st
    intro hgoes
    apply h
    intro j hj
    have hrange : 1 ≤ j ∧ j ≤ 4 := by
      simp only [List.mem_cons, List.not_mem_nil, or_false] at hj
      omega
    by_cases hlast : j = 4
    · have hfive : fieldEnd st-1 = 4 := by omega
      rwa [hlast, ← hfive]
    · exact goes_before st hrange.1 (by omega)

theorem fieldEnd_le_lengthBytesRead (st : List UInt8) : fieldEnd st ≤ lengthBytesRead st := by
  have hle := fieldEnd_le_five st
  unfold lengthBytesRead
  split
  · omega
  · exact le_rfl

/-- Where the loop over the length bytes stops, they are all there. -/
theorem lengthBytesRead_le {st : List UInt8} {n : ℕ} (h2 : 2 ≤ n) (hn : 6 ≤ n ∨ ¬ Goes st (n-1)) :
    lengthBytesRead st ≤ n := by
  have hle := fieldEnd_le_five st
  unfold lengthBytesRead
  split
  · rename_i hrun
    rcases hn with hn | hn
    · exact hn
    · by_contra hlt
      exact hn (hrun.goes (by omega) (by omega))
  · rcases hn with hn | hn
    · omega
    · have hend := fieldEnd_le_of_stop (by omega) hn
      omega

/-! The reader on an arbitrary stream. -/

/-- `n` bytes of `st` are counted in the buffer, the others are still to come, and the first one
has passed its check. -/
structure Tracks (st : List UInt8) (l : ℕ) (t : Transport) (s : RxState) : Prop where
  le : s.inBufferReadLen ≤ st.length
  room : s.inBufferReadLen ≤ s.inBuffer.length
  seen : s.inBuffer.take s.inBufferReadLen = st.take s.inBufferReadLen
  ahead : t.stream = st.drop s.inBufferReadLen
  length : s.inBufferLength = l
  valid : 0 < s.inBufferReadLen → mqttHasValidMsgHdr (st.getD 0 0) = true

namespace Tracks

variable {st : List UInt8} {l : ℕ} {t : Transport} {s : RxState}

theorem getD (h : Tracks st l t s) {j : ℕ} (hj : j < s.inBufferReadLen) :
    s.inBuffer.getD j 0 = st.getD j 0 :=
  ByteBuffer.getD_of_take_eq s.inBuffer st s.inBufferReadLen j 0 hj h.seen

theorem withMessageLength (h : Tracks st l t s) (m : ℕ) : Tracks st l t {s with messageLength := m} :=
  ⟨h.le, h.room, h.seen, h.ahead, h.length, h.valid⟩

theorem lastContinues_iff (h : Tracks st l t s) (h1 : 1 ≤ s.inBufferReadLen) :
    s.lastContinues = true ↔ Goes st (s.inBufferReadLen-1) := by
  unfold RxState.lastContinues Goes
  rw [h.getD (by omega), bne_iff_ne]

/-- A read counts the next bytes of the stream, or none. -/
theorem read (h : Tracks st l t s) (n : ℕ) :
    (∃ bs, (espTransportRead t n).1 = .bytes bs ∧ bs ≠ [] ∧ bs.length ≤ n ∧
      bs.getD 0 0 = st.getD s.inBufferReadLen 0 ∧
      (0 < s.inBufferReadLen ∨ mqttHasValidMsgHdr (bs.getD 0 0) = true →
        Tracks st l (espTransportRead t n).2 (s.store bs))) ∨
    ((∀ bs, (espTransportRead t n).1 ≠ .bytes bs) ∧ Tracks st l (espTransportRead t n).2 s) := by
  rcases espTransportRead_cases t n with ⟨bs,hres,hne,hle,hsplit⟩ | ⟨hno,hsame⟩
  · left
    have hahead : st.drop s.inBufferReadLen = bs ++ (espTransportRead t n).2.stream := by
      rw [← h.ahead]
      exact hsplit
    -- the stream is what is counted, then this read, then the rest
    have hst : st = st.take s.inBufferReadLen ++ (bs ++ (espTransportRead t n).2.stream) := by
      rw [← hahead, List.take_append_drop]
    have hlen : (st.take s.inBufferReadLen).length = s.inBufferReadLen := by
      rw [List.length_take]
      have := h.le
      omega
    have hpos := List.length_pos_of_ne_nil hne
    have hfirst : bs.getD 0 0 = st.getD s.inBufferReadLen 0 := by
      conv_rhs => rw [hst]
      rw [List.getD_append_right _ _ _ _ (by omega), hlen, Nat.sub_self,
        List.getD_append _ _ _ _ hpos]
    refine ⟨bs, hres, hne, hle, hfirst, fun hvalid => ?_⟩
    have htotal : s.inBufferReadLen+bs.length ≤ st.length := by
      have hcount := congrArg List.length hahead
      rw [List.length_drop, List.length_append] at hcount
      omega
    refine ⟨htotal, ByteBuffer.le_splice_length _ _ _ h.room, ?_, ?_, h.length, fun _ => ?_⟩
    · simp only [RxState.store]
      rw [ByteBuffer.take_splice _ _ _ h.room, h.seen, List.take_add, hahead, List.take_left]
    · simp only [RxState.store]
      rw [← List.drop_drop, hahead, List.drop_left]
    -- the first byte counted is valid if it was before, or if it is this one
    · rcases hvalid with hvalid | hvalid
      · exact h.valid hvalid
      · by_cases hz : s.inBufferReadLen = 0
        · rwa [hfirst, hz] at hvalid
        · exact h.valid (by omega)
  · right
    exact ⟨hno, h.le, h.room, h.seen, hsame.trans h.ahead, h.length, h.valid⟩

/-- The loop of `mqtt_get_total_length`, told any length that covers the field. -/
theorem totalLength (h : Tracks st l t s) (hread : fieldEnd st ≤ s.inBufferReadLen) {n : ℕ}
    (hn : fieldEnd st ≤ n) :
    totalLengthLoop s.inBuffer n 4 1 0 = totalLengthLoop st 5 4 1 0 := by
  apply totalLengthLoop_extend
  · intro j hj
    exact h.getD (lt_of_lt_of_le hj hread)
  · exact hn
  · by_cases hlt : fieldEnd st < 5
    · obtain ⟨hstop,htwo⟩ := fieldEnd_stops st hlt
      exact Or.inr ⟨htwo, not_not.mp hstop⟩
    · have hle := fieldEnd_le_five st
      exact Or.inl (by unfold fieldEnd at hle hlt; omega)

end Tracks

/-- A stage gives up, or goes on with at least `lo` bytes counted. -/
def StageTracks (st : List UInt8) (l lo : ℕ) (s : RxState) (o : Option Recv × Transport × RxState) :
    Prop :=
  (∃ r, o.1 = some r ∧ r ≠ .message ∧ (r ≠ .failure → Tracks st l o.2.1 o.2.2)) ∨
  (o.1 = none ∧ Tracks st l o.2.1 o.2.2 ∧ lo ≤ o.2.2.inBufferReadLen ∧
    s.inBufferReadLen ≤ o.2.2.inBufferReadLen ∧ o.2.2.messageLength = s.messageLength)

namespace Tracks

variable {st : List UInt8} {l : ℕ} {t : Transport} {s : RxState}

/-- A read that brings nothing ends the stage. -/
theorem gives_up (h : Tracks st l t s) {res : ReadResult} (hno : ∀ bs, res ≠ .bytes bs) (mid : Bool) :
    handleTransportReadError mid res ≠ .message ∧
    (handleTransportReadError mid res ≠ .failure → Tracks st l t s) := by
  cases res with
  | bytes bs => exact absurd rfl (hno bs)
  | timeout =>
    refine ⟨?_, fun _ => h⟩
    cases mid <;> simp [handleTransportReadError]
  | fin => exact ⟨by simp [handleTransportReadError], fun hf => absurd rfl hf⟩
  | error => exact ⟨by simp [handleTransportReadError], fun hf => absurd rfl hf⟩

theorem firstByte (h : Tracks st l t s) : StageTracks st l 1 s (receiveFirstByte t s) := by
  unfold receiveFirstByte
  split
  · rename_i hz
    rcases h.read 1 with ⟨bs,hres,hne,hle,hfirst,htracks⟩ | ⟨hno,htracks⟩
    · rw [← Prod.eta (espTransportRead t 1), hres]
      dsimp only
      split
      · rename_i hvalid
        have hpos := List.length_pos_of_ne_nil hne
        refine Or.inr ⟨rfl, htracks (Or.inr hvalid), ?_, ?_, rfl⟩
        · rw [RxState.store_readLen]
          omega
        · rw [RxState.store_readLen]
          omega
      · exact Or.inl ⟨.failure, rfl, by decide, fun hf => absurd rfl hf⟩
    · generalize espTransportRead t 1 = o at hno htracks
      obtain ⟨res,t'⟩ := o
      obtain ⟨hmsg,hkeep⟩ := htracks.gives_up hno false
      cases res with
      | bytes bs => exact absurd rfl (hno bs)
      | timeout => exact Or.inl ⟨_, rfl, hmsg, hkeep⟩
      | fin => exact Or.inl ⟨_, rfl, hmsg, hkeep⟩
      | error => exact Or.inl ⟨_, rfl, hmsg, hkeep⟩
  · rename_i hz
    exact Or.inr ⟨rfl, h, Nat.one_le_iff_ne_zero.mpr hz, le_rfl, rfl⟩

theorem lengthLoop (k : ℕ) (h : Tracks st l t s) (h1 : 1 ≤ s.inBufferReadLen)
    (h6 : s.inBufferReadLen < 6) (hk : 6 ≤ s.inBufferReadLen+k) :
    StageTracks st l (lengthBytesRead st) s (remainingLengthLoop k t s) := by
  -- the fuel `k` always covers the bytes still allowed
  induction k generalizing t s with
  | zero => omega
  | succ k ih =>
    rw [remainingLengthLoop]
    rcases h.read 1 with ⟨bs,hres,hne,hle,-,htracks⟩ | ⟨hno,htracks⟩
    · rw [← Prod.eta (espTransportRead t 1), hres]
      have hnext := htracks (Or.inl h1)
      have hpos := List.length_pos_of_ne_nil hne
      have hread : (s.store bs).inBufferReadLen = s.inBufferReadLen+1 := by
        rw [RxState.store_readLen]
        omega
      have hlast := hnext.lastContinues_iff (by omega)
      dsimp only
      by_cases hgo : (s.store bs).inBufferReadLen < 6 ∧ (s.store bs).lastContinues = true
      · rw [if_pos hgo]
        rcases ih hnext (by omega) hgo.1 (by omega) with hstop | ⟨hnone,htr,hlo,hgrow,hml⟩
        · exact Or.inl hstop
        · exact Or.inr ⟨hnone, htr, hlo, by omega, hml⟩
      · rw [if_neg hgo]
        refine Or.inr ⟨rfl, hnext, ?_, by dsimp only; omega, rfl⟩
        apply lengthBytesRead_le
        · dsimp only
          omega
        · by_cases hsix : 6 ≤ (s.store bs).inBufferReadLen
          · exact Or.inl hsix
          · exact Or.inr fun hgoes => hgo ⟨by omega, hlast.mpr hgoes⟩
    · generalize espTransportRead t 1 = o at hno htracks
      obtain ⟨res,t'⟩ := o
      obtain ⟨hmsg,hkeep⟩ := htracks.gives_up hno true
      cases res with
      | bytes bs => exact absurd rfl (hno bs)
      | timeout => exact Or.inl ⟨_, rfl, hmsg, hkeep⟩
      | fin => exact Or.inl ⟨_, rfl, hmsg, hkeep⟩
      | error => exact Or.inl ⟨_, rfl, hmsg, hkeep⟩

/-- The length stage does not go on before the field is in. -/
theorem remainingLength (h : Tracks st l t s) (h1 : 1 ≤ s.inBufferReadLen) :
    StageTracks st l (lengthBytesRead st) s (receiveRemainingLength t s) := by
  have hlast := h.lastContinues_iff h1
  unfold receiveRemainingLength
  by_cases hgo : s.inBufferReadLen = 1 ∨ (s.inBufferReadLen < 6 ∧ s.lastContinues = true)
  · rw [if_pos hgo]
    exact h.lengthLoop 6 h1 (by omega) (by omega)
  · rw [if_neg hgo]
    rw [not_or, not_and] at hgo
    refine Or.inr ⟨rfl, h, ?_, le_rfl, rfl⟩
    apply lengthBytesRead_le
    · dsimp only
      omega
    · by_cases hsix : 6 ≤ s.inBufferReadLen
      · exact Or.inl hsix
      · exact Or.inr fun hgoes => hgo.2 (by omega) (hlast.mpr hgoes)

theorem upTo (h : Tracks st l t s) (h1 : 0 < s.inBufferReadLen) (n : ℕ) :
    ((receiveUpTo n t s).1 ≠ .failure → Tracks st l (receiveUpTo n t s).2.1 (receiveUpTo n t s).2.2) ∧
    ((receiveUpTo n t s).1 = .message → n ≤ (receiveUpTo n t s).2.2.inBufferReadLen ∧
      s.inBufferReadLen ≤ (receiveUpTo n t s).2.2.inBufferReadLen ∧
      (receiveUpTo n t s).2.2.messageLength = s.messageLength) := by
  unfold receiveUpTo
  split
  · rename_i hlt
    rcases h.read (n-s.inBufferReadLen) with ⟨bs,hres,-,hle,-,htracks⟩ | ⟨hno,htracks⟩
    · rw [← Prod.eta (espTransportRead t (n-s.inBufferReadLen)), hres]
      have hread : (s.store bs).inBufferReadLen = s.inBufferReadLen+bs.length := rfl
      dsimp only
      split
      · exact ⟨fun _ => htracks (Or.inl h1), fun hm => absurd hm (by simp)⟩
      · rename_i hfull
        exact ⟨fun _ => htracks (Or.inl h1), fun _ => ⟨by dsimp only; omega, by dsimp only; omega, rfl⟩⟩
    · generalize espTransportRead t (n-s.inBufferReadLen) = o at hno htracks
      obtain ⟨res,t'⟩ := o
      obtain ⟨hmsg,hkeep⟩ := htracks.gives_up hno true
      cases res with
      | bytes bs => exact absurd rfl (hno bs)
      | timeout => exact ⟨hkeep, fun hm => absurd hm hmsg⟩
      | fin => exact ⟨hkeep, fun hm => absurd hm hmsg⟩
      | error => exact ⟨hkeep, fun hm => absurd hm hmsg⟩
  · exact ⟨fun _ => h, fun _ => ⟨by dsimp only; omega, le_rfl, rfl⟩⟩

theorem topicLength (h : Tracks st l t s) (h1 : 0 < s.inBufferReadLen) (fixed : ℕ) :
    StageTracks st l (fixed+2) s (receiveTopicLength fixed t s) := by
  unfold receiveTopicLength
  split
  · rename_i hlt
    rcases h.read (s.inBufferReadLen-fixed+2) with ⟨bs,hres,-,hle,-,htracks⟩ | ⟨hno,htracks⟩
    · rw [← Prod.eta (espTransportRead t (s.inBufferReadLen-fixed+2)), hres]
      have hread : (s.store bs).inBufferReadLen = s.inBufferReadLen+bs.length := rfl
      dsimp only
      split
      · exact Or.inl ⟨.nothing, rfl, by decide, fun _ => htracks (Or.inl h1)⟩
      · rename_i hfull
        exact Or.inr ⟨rfl, htracks (Or.inl h1), by dsimp only; omega, by dsimp only; omega, rfl⟩
    · generalize espTransportRead t (s.inBufferReadLen-fixed+2) = o at hno htracks
      obtain ⟨res,t'⟩ := o
      obtain ⟨hmsg,hkeep⟩ := htracks.gives_up hno true
      cases res with
      | bytes bs => exact absurd rfl (hno bs)
      | timeout => exact Or.inl ⟨_, rfl, hmsg, hkeep⟩
      | fin => exact Or.inl ⟨_, rfl, hmsg, hkeep⟩
      | error => exact Or.inl ⟨_, rfl, hmsg, hkeep⟩
  · exact Or.inr ⟨rfl, h, by dsimp only; omega, le_rfl, rfl⟩

end Tracks

/-- What the admission test computes for a PUBLISH that is larger than the buffer. -/
def admittedHeader (st : List UInt8) : ℕ :=
  fieldEnd st+be16 st (fieldEnd st)+(if 0 < mqttGetQos (st.getD 0 0) then 2 else 0)

/-- With `n` bytes counted the packet at the front of `st` can be handed out: all of it is there,
or it is a PUBLISH that passes the admission test and fills the buffer. -/
def HandedOut (st : List UInt8) (l n : ℕ) : Prop :=
  lengthBytesRead st ≤ n ∧ ((packetLength st ≤ l ∧ packetLength st ≤ n) ∨
    (l < packetLength st ∧ mqttGetType (st.getD 0 0) = some .publish ∧ admittedHeader st ≤ l ∧
      fieldEnd st+2 ≤ n ∧ l ≤ n))

instance (st : List UInt8) (l n : ℕ) : Decidable (HandedOut st l n) :=
  inferInstanceAs (Decidable (_ ∧ (_ ∧ _ ∨ _ ∧ _ ∧ _ ∧ _ ∧ _)))

namespace Tracks

variable {st : List UInt8} {l : ℕ} {t : Transport} {s : RxState}

theorem oversized (h : Tracks st l t s) (hn : lengthBytesRead st ≤ s.inBufferReadLen)
    (hbig : l < packetLength st) (hpub : mqttGetType (st.getD 0 0) = some .publish) :
    ((receiveOversized (fieldEnd st) t s).1 ≠ .failure →
      Tracks st l (receiveOversized (fieldEnd st) t s).2.1 (receiveOversized (fieldEnd st) t s).2.2) ∧
    ((receiveOversized (fieldEnd st) t s).1 = .message →
      HandedOut st l (receiveOversized (fieldEnd st) t s).2.2.inBufferReadLen ∧
      (receiveOversized (fieldEnd st) t s).2.2.messageLength = s.messageLength) := by
  have htwo := two_le_fieldEnd st
  have hfield := fieldEnd_le_lengthBytesRead st
  have hstage := h.topicLength (by omega) (fieldEnd st)
  unfold receiveOversized
  generalize receiveTopicLength (fieldEnd st) t s = o at hstage
  obtain ⟨r,t1,s1⟩ := o
  rcases hstage with ⟨r',hr,hmsg,hkeep⟩ | ⟨hr,htr,hlo,hgrow,hml⟩
  · dsimp only at hr hkeep
    subst hr
    exact ⟨hkeep, fun hm => absurd hm hmsg⟩
  · dsimp only at hr htr hlo hgrow hml
    subst hr
    have htopic : be16 s1.inBuffer (fieldEnd st) = be16 st (fieldEnd st) := by
      unfold be16
      rw [htr.getD (by omega), htr.getD (by omega)]
    have hfirst : s1.inBuffer.getD 0 0 = st.getD 0 0 := htr.getD (by omega)
    dsimp only
    rw [htopic, hfirst, htr.length]
    by_cases hfull : l < admittedHeader st
    · have hrefused : l < fieldEnd st+be16 st (fieldEnd st)+
          (if 0 < mqttGetQos (st.getD 0 0) then 2 else 0) := hfull
      rw [if_pos hrefused]
      exact ⟨fun hf => absurd rfl hf, fun hm => absurd hm (by simp)⟩
    · have hadmitted : ¬ l < fieldEnd st+be16 st (fieldEnd st)+
          (if 0 < mqttGetQos (st.getD 0 0) then 2 else 0) := hfull
      rw [if_neg hadmitted]
      obtain ⟨hkeep,hmsg⟩ := htr.upTo (by omega) l
      refine ⟨hkeep, fun hm => ?_⟩
      obtain ⟨g1,g2,g3⟩ := hmsg hm
      exact ⟨⟨by omega, Or.inr ⟨hbig, hpub, by omega, by omega, g1⟩⟩, g3.trans hml⟩

theorem rest (h : Tracks st l t s) (hn : lengthBytesRead st ≤ s.inBufferReadLen) :
    ((receiveRest t s).1 ≠ .failure → Tracks st l (receiveRest t s).2.1 (receiveRest t s).2.2) ∧
    ((receiveRest t s).1 = .message → HandedOut st l (receiveRest t s).2.2.inBufferReadLen ∧
      (receiveRest t s).2.2.messageLength = packetLength st) := by
  have htwo := two_le_fieldEnd st
  have hfield := fieldEnd_le_lengthBytesRead st
  have hloop := h.totalLength (n := s.inBufferReadLen) (by omega) (by omega)
  have hlength : mqttGetTotalLength s.inBuffer s.inBufferReadLen = (packetLength st, fieldEnd st) := by
    unfold mqttGetTotalLength
    rw [hloop]
    rfl
  have hfirst : s.inBuffer.getD 0 0 = st.getD 0 0 := h.getD (by omega)
  have hset := h.withMessageLength (packetLength st)
  dsimp only [receiveRest]
  rw [hlength]
  dsimp only
  rw [hfirst]
  by_cases hbig : l < packetLength st
  · rw [if_pos (by rw [h.length]; exact hbig)]
    by_cases hpub : mqttGetType (st.getD 0 0) = some .publish
    · rw [if_pos hpub]
      exact hset.oversized hn hbig hpub
    · rw [if_neg hpub]
      exact ⟨fun hf => absurd rfl hf, fun hm => absurd hm (by simp)⟩
  · rw [if_neg (by rw [h.length]; exact hbig)]
    obtain ⟨hkeep,hmsg⟩ := hset.upTo (by dsimp only; omega) (packetLength st)
    refine ⟨hkeep, fun hm => ?_⟩
    obtain ⟨g1,g2,g3⟩ := hmsg hm
    dsimp only at g2
    exact ⟨⟨by omega, Or.inl ⟨by omega, g1⟩⟩, g3⟩

/-- One call. -/
theorem call (h : Tracks st l t s) :
    ((mqttMessageReceive t s).1 ≠ .failure →
      Tracks st l (mqttMessageReceive t s).2.1 (mqttMessageReceive t s).2.2) ∧
    ((mqttMessageReceive t s).1 = .message →
      HandedOut st l (mqttMessageReceive t s).2.2.inBufferReadLen ∧
      (mqttMessageReceive t s).2.2.messageLength = packetLength st) := by
  have hfirst := (h.withMessageLength 0).firstByte
  unfold mqttMessageReceive
  generalize receiveFirstByte t {s with messageLength := 0} = a at hfirst
  obtain ⟨ra,ta,sa⟩ := a
  rcases hfirst with ⟨r,hr,hmsg,hkeep⟩ | ⟨hr,htr,hlo,-,-⟩
  · dsimp only at hr hkeep
    subst hr
    exact ⟨hkeep, fun hm => absurd hm hmsg⟩
  · dsimp only at hr htr hlo
    subst hr
    have hlength := htr.remainingLength hlo
    dsimp only
    generalize receiveRemainingLength ta sa = b at hlength
    obtain ⟨rb,tb,sb⟩ := b
    rcases hlength with ⟨r,hr,hmsg,hkeep⟩ | ⟨hr,htr,hlo,-,-⟩
    · dsimp only at hr hkeep
      subst hr
      exact ⟨hkeep, fun hm => absurd hm hmsg⟩
    · dsimp only at hr htr hlo
      subst hr
      exact htr.rest hlo

end Tracks

/-- Any number of calls. -/
theorem Concludes.tracks {st : List UInt8} {l : ℕ} {t t' : Transport} {s s' : RxState} {r : Recv}
    (hc : Concludes t s r t' s') (h : Tracks st l t s) (hr : r = .message) :
    Tracks st l t' s' ∧ HandedOut st l s'.inBufferReadLen ∧ s'.messageLength = packetLength st := by
  induction hc with
  | done t s r t' s' he hend =>
    obtain ⟨hkeep,hmsg⟩ := h.call
    rw [he] at hkeep hmsg
    exact ⟨hkeep (by rw [hr]; simp), hmsg hr⟩
  | more t s t1 s1 r t' s' q he hq hn ih =>
    obtain ⟨hkeep,-⟩ := h.call
    rw [he] at hkeep
    apply ih (hkeep ?_) hr
    rcases hq with rfl | rfl
    · simp
    · simp

/-! What the scans find in a packet that has been handed out. -/

/-- Every place that looks for the end of the fixed header finds `h`. -/
structure HeaderAgrees (s : RxState) (h : ℕ) : Prop where
  totalLength : (mqttGetTotalLength s.inBuffer s.inBufferReadLen).2 = h
  -- `mqtt_get_publish_topic`, and `mqtt_get_id` in `deliver_publish`
  publishTopic : skipRemainingLength s.inBuffer (s.inBufferReadLen-1) 1 = h
  publishData : (totalLengthLoop s.inBuffer s.inBufferReadLen 4 1 0).2 = h
  -- `mqtt_get_id` of a PUBLISH, told the length of the packet
  getId : skipRemainingLength s.inBuffer (s.messageLength-1) 1 = h
  -- `mqtt_get_id` of an acknowledgement, which wants a field of one byte
  getAckId : s.inBuffer.getD 1 0 &&& 0x80 = 0 → h = 2
  variableLen : 1+(getVariableLen s.inBuffer 1 s.inBufferReadLen).2 = h
  -- `mqtt5_get_id`
  variableLenId : 1+(getVariableLen s.inBuffer 1 s.messageLength).2 = h

theorem skipRemainingLength_fieldEnd {b st : List UInt8} (hrun : ¬ Runaway st)
    (hb : ∀ j < fieldEnd st, b.getD j 0 = st.getD j 0) (k i : ℕ) (h1 : 1 ≤ i)
    (hi : i < fieldEnd st) (hk : fieldEnd st ≤ i+k) : skipRemainingLength b k i = fieldEnd st := by
  induction k generalizing i with
  | zero => omega
  | succ k ih =>
    unfold skipRemainingLength
    rw [hb i hi]
    by_cases hlast : i+1 = fieldEnd st
    · have hstop := not_goes_fieldEnd hrun
      rw [← hlast, Nat.add_sub_cancel] at hstop
      rw [if_pos (not_not.mp hstop), hlast]
    · have hgoes := goes_before st h1 (show i+1 < fieldEnd st by omega)
      rw [if_neg hgoes]
      exact ih (i+1) (by omega) (by omega) (by omega)

namespace Tracks

variable {st : List UInt8} {l : ℕ} {t : Transport} {s : RxState}

theorem variableLen (h : Tracks st l t s) (hrun : ¬ Runaway st)
    (hread : fieldEnd st ≤ s.inBufferReadLen) {n : ℕ} (hn : fieldEnd st ≤ n) :
    1+(getVariableLen s.inBuffer 1 n).2 = fieldEnd st := by
  have htwo := two_le_fieldEnd st
  have hloop : variableLenLoop s.inBuffer n 4 0 1 0 = totalLengthLoop st 5 4 1 0 :=
    (totalLengthLoop_eq_variable s.inBuffer n 4 1 0 le_rfl).symm.trans (h.totalLength hread hn)
  have hend : (totalLengthLoop st 5 4 1 0).2 = fieldEnd st := rfl
  have hstop := not_goes_fieldEnd hrun
  unfold getVariableLen
  rw [hloop]
  dsimp only
  rw [hend, h.getD (by omega), if_neg (fun hfour => hstop hfour.2.2)]
  dsimp only
  omega

/-- All scans agree on a packet whose field has an end. -/
theorem headerAgrees (h : Tracks st l t s) (hrun : ¬ Runaway st)
    (hread : fieldEnd st ≤ s.inBufferReadLen) (hml : s.messageLength = packetLength st) :
    HeaderAgrees s (fieldEnd st) := by
  have htwo := two_le_fieldEnd st
  have hlong : fieldEnd st ≤ s.messageLength := by
    rw [hml]
    exact Nat.le_add_left _ _
  have hb (j : ℕ) (hj : j < fieldEnd st) : s.inBuffer.getD j 0 = st.getD j 0 :=
    h.getD (lt_of_lt_of_le hj hread)
  have hloop := h.totalLength hread hread
  refine ⟨?_, ?_, ?_, ?_, fun hlow => ?_, h.variableLen hrun hread hread,
    h.variableLen hrun hread hlong⟩
  · unfold mqttGetTotalLength
    rw [hloop]
    rfl
  · exact skipRemainingLength_fieldEnd hrun hb _ 1 le_rfl (by omega) (by omega)
  · rw [hloop]
    rfl
  · exact skipRemainingLength_fieldEnd hrun hb _ 1 le_rfl (by omega) (by omega)
  · rw [hb 1 (by omega)] at hlow
    have hend := @fieldEnd_le_of_stop st 1 le_rfl fun hgoes => hgoes hlow
    omega

end Tracks

/-- Whatever the transport does with this stream, a packet that is handed out has a length field of
at most four bytes, and all scans agree on its end. -/
def RefusesMalformed (st : List UInt8) (l : ℕ) : Prop :=
  ∀ t s t' s', s.inBufferReadLen = 0 → s.inBufferLength = l → t.stream = st →
    Concludes t s .message t' s' →
    ¬ Runaway (s'.inBuffer.take s'.inBufferReadLen) ∧ ∃ h, HeaderAgrees s' h

/-- Four continuing bytes do not keep the packet at the front of this stream from being handed out:
its first byte is valid, and it is there and fits, or is a PUBLISH that is admitted. -/
def RunawayAccepted (st : List UInt8) (l : ℕ) : Prop :=
  Runaway st ∧ mqttHasValidMsgHdr (st.getD 0 0) = true ∧ HandedOut st l st.length

instance (st : List UInt8) (l : ℕ) : Decidable (RunawayAccepted st l) :=
  inferInstanceAs (Decidable (_ ∧ _ ∧ _))

theorem HandedOut.mono {st : List UInt8} {l n n' : ℕ} (h : HandedOut st l n) (hn : n ≤ n') :
    HandedOut st l n' := by
  obtain ⟨hbytes,hrest⟩ := h
  refine ⟨by omega, ?_⟩
  rcases hrest with ⟨h1,h2⟩ | ⟨h1,h2,h3,h4,h5⟩
  · exact Or.inl ⟨h1, by omega⟩
  · exact Or.inr ⟨h1, h2, h3, by omega, by omega⟩

namespace Tracks

variable {st : List UInt8} {l : ℕ} {t : Transport} {s : RxState}

theorem start (hz : s.inBufferReadLen = 0) (hl : s.inBufferLength = l) (hst : t.stream = st) :
    Tracks st l t s :=
  ⟨by omega, by omega, by rw [hz, List.take_zero, List.take_zero], by rw [hz, hst, List.drop_zero], hl,
    fun hpos => absurd hpos (by omega)⟩

/-- The bytes counted run away only if the stream does. -/
theorem runaway_of_take (h : Tracks st l t s) (hrun : Runaway (s.inBuffer.take s.inBufferReadLen)) :
    Runaway st := by
  intro j hj
  have hgoes := hrun j hj
  have hin : j < s.inBufferReadLen := by
    by_contra hout
    apply hgoes
    rw [List.getD_eq_default _ _ (by rw [List.length_take]; omega)]
    rfl
  unfold Goes at hgoes
  rwa [h.seen, ByteBuffer.getD_of_take_eq (st.take s.inBufferReadLen) st s.inBufferReadLen j 0 hin
    (by rw [List.take_take, Nat.min_self])] at hgoes

/-- A read that the environment serves with data. -/
theorem read_chunk (h : Tracks st l t s) (ho : t.isOpen = true) {k : ℕ} {rs : List ReadChoice}
    (ht : t.reads = .chunk k :: rs) {n : ℕ} (hn : 0 < n) (hmore : s.inBufferReadLen < st.length)
    (hvalid : mqttHasValidMsgHdr (st.getD 0 0) = true) :
    ∃ bs, (espTransportRead t n).1 = .bytes bs ∧
      bs.length = min (k+1) (min n (st.length-s.inBufferReadLen)) ∧
      (espTransportRead t n).2.reads = rs ∧ (espTransportRead t n).2.isOpen = true ∧
      bs.getD 0 0 = st.getD s.inBufferReadLen 0 ∧
      Tracks st l (espTransportRead t n).2 (s.store bs) := by
  have hlen : t.stream.length = st.length-s.inBufferReadLen := by rw [h.ahead, List.length_drop]
  have hx : espTransportRead t n = (.bytes (t.stream.take (min (k+1) (min n t.stream.length))),
      {t with reads := rs, stream := t.stream.drop (min (k+1) (min n t.stream.length))}) := by
    simp only [espTransportRead, ho, ht, if_true]
    rw [if_neg (by omega)]
  rcases h.read n with ⟨bs,hres,hne,hle,hfirst,htracks⟩ | ⟨hno,-⟩
  · refine ⟨bs, hres, ?_, by rw [hx], by rw [hx]; exact ho, hfirst, htracks ?_⟩
    · rw [hx] at hres
      rw [← ReadResult.bytes.inj hres, List.length_take, hlen]
      omega
    · by_cases hz : s.inBufferReadLen = 0
      · right
        rw [hfirst, hz]
        exact hvalid
      · exact Or.inl (by omega)
  · rw [hx] at hno
    exact absurd rfl (hno _)

/-- Byte by byte the loop takes five bytes of a field that runs away. -/
theorem lengthLoop_runaway (h : Tracks st l t s) (hrun : Runaway st) (hlong : 6 ≤ st.length)
    (hvalid : mqttHasValidMsgHdr (st.getD 0 0) = true) (ho : t.isOpen = true)
    (h1 : 1 ≤ s.inBufferReadLen) {m k : ℕ} (hm : s.inBufferReadLen+m+1 = 6) (hk : m < k)
    {rs : List ReadChoice} (ht : t.reads = List.replicate (m+1) (.chunk 0) ++ rs) :
    (remainingLengthLoop k t s).1 = none ∧ (remainingLengthLoop k t s).2.1.reads = rs ∧
    (remainingLengthLoop k t s).2.1.isOpen = true ∧
    (remainingLengthLoop k t s).2.2.inBufferReadLen = 6 ∧
    Tracks st l (remainingLengthLoop k t s).2.1 (remainingLengthLoop k t s).2.2 := by
  -- `m` bytes are missing after the next one; every byte read goes on, so only the bound of six stops
  induction m generalizing k t s with
  | zero =>
    obtain ⟨k,rfl⟩ : ∃ j, k = j+1 := ⟨k-1, by omega⟩
    obtain ⟨bs,hres,hcount,hreads,hopen,-,htr⟩ := h.read_chunk ho ht (n := 1) (by omega) (by omega)
      hvalid
    have hread : (s.store bs).inBufferReadLen = 6 := by
      rw [RxState.store_readLen, hcount]
      omega
    have hx : remainingLengthLoop (k+1) t s = (none, (espTransportRead t 1).2, s.store bs) := by
      rw [remainingLengthLoop, ← Prod.eta (espTransportRead t 1), hres]
      dsimp only
      rw [if_neg (by omega)]
    rw [hx]
    exact ⟨rfl, hreads, hopen, hread, htr⟩
  | succ m ih =>
    obtain ⟨k,rfl⟩ : ∃ j, k = j+1 := ⟨k-1, by omega⟩
    obtain ⟨bs,hres,hcount,hreads,hopen,-,htr⟩ := h.read_chunk ho ht (n := 1) (by omega) (by omega)
      hvalid
    have hread : (s.store bs).inBufferReadLen = s.inBufferReadLen+1 := by
      rw [RxState.store_readLen, hcount]
      omega
    -- the byte just read continues the field
    have hlast : (s.store bs).lastContinues = true := by
      rw [htr.lastContinues_iff (by omega), hread, Nat.add_sub_cancel]
      exact hrun.goes h1 (by omega)
    have hx : remainingLengthLoop (k+1) t s =
        remainingLengthLoop k (espTransportRead t 1).2 (s.store bs) := by
      rw [remainingLengthLoop, ← Prod.eta (espTransportRead t 1), hres]
      dsimp only
      rw [if_pos ⟨by omega, hlast⟩]
    rw [hx]
    exact ih htr hopen (by omega) (by omega) (by omega) hreads

/-- With room for the bytes and one more read, a packet or the buffer is filled. -/
theorem upTo_chunk (h : Tracks st l t s) (ho : t.isOpen = true) {rs : List ReadChoice}
    (ht : t.reads = .chunk st.length :: rs) (hvalid : mqttHasValidMsgHdr (st.getD 0 0) = true)
    {n : ℕ} (hn : n ≤ st.length) : (receiveUpTo n t s).1 = .message := by
  unfold receiveUpTo
  by_cases hlt : s.inBufferReadLen < n
  · obtain ⟨bs,hres,hcount,-⟩ := h.read_chunk ho ht (n := n-s.inBufferReadLen) (by omega) (by omega)
      hvalid
    rw [if_pos hlt, ← Prod.eta (espTransportRead t (n-s.inBufferReadLen)), hres]
    dsimp only
    rw [if_neg (by rw [RxState.store_readLen, hcount]; omega)]
  · rw [if_neg hlt]

/-- Behind the length bytes such a packet is handed out with two reads at most. -/
theorem rest_runaway (h : Tracks st l t s) (hacc : RunawayAccepted st l) (ho : t.isOpen = true)
    (hread : s.inBufferReadLen = 6) {rs : List ReadChoice}
    (ht : t.reads = .chunk st.length :: .chunk st.length :: rs) : (receiveRest t s).1 = .message := by
  obtain ⟨hrun,hvalid,hlong,hfits⟩ := hacc
  have hend := hrun.fieldEnd
  have hloop := h.totalLength (n := s.inBufferReadLen) (by omega) (by omega)
  -- the fifth length byte ends the loop, so the total is one of five bytes
  have hlength : mqttGetTotalLength s.inBuffer s.inBufferReadLen = (packetLength st, 5) := by
    unfold mqttGetTotalLength
    rw [hloop]
    exact Prod.ext rfl hend
  have hfirst : s.inBuffer.getD 0 0 = st.getD 0 0 := h.getD (by omega)
  have hset := h.withMessageLength (packetLength st)
  dsimp only [receiveRest]
  rw [hlength]
  dsimp only
  rw [hfirst]
  -- either the whole packet fits, or it is a PUBLISH whose header does
  rcases hfits with ⟨hsmall,hall⟩ | ⟨hbig,hpub,hadm,hseven,hfull⟩
  · rw [if_neg (by rw [h.length]; omega)]
    exact hset.upTo_chunk ho ht hvalid hall
  · rw [if_pos (by rw [h.length]; exact hbig), if_pos hpub]
    obtain ⟨bs,hres,hcount,hreads,hopen,-,htr⟩ := hset.read_chunk ho ht
      (n := s.inBufferReadLen-5+2) (by omega) (by dsimp only; omega) hvalid
    have hstore : ({s with messageLength := packetLength st}.store bs : RxState).inBufferReadLen =
        6+bs.length := by
      rw [RxState.store_readLen]
      dsimp only
      omega
    have hseen : 7 ≤ ({s with messageLength := packetLength st}.store bs : RxState).inBufferReadLen := by
      rw [hstore, hcount]
      dsimp only
      omega
    -- one read brings the two bytes of the topic length
    have htopic : receiveTopicLength 5 t {s with messageLength := packetLength st} =
        (none, (espTransportRead t (s.inBufferReadLen-5+2)).2,
          {s with messageLength := packetLength st}.store bs) := by
      unfold receiveTopicLength
      dsimp only
      rw [if_pos (by omega), ← Prod.eta (espTransportRead t (s.inBufferReadLen-5+2)), hres]
      dsimp only
      rw [if_neg (by omega)]
    have hbe : be16 ({s with messageLength := packetLength st}.store bs : RxState).inBuffer 5 =
        be16 st 5 := by
      unfold be16
      rw [htr.getD (by omega), htr.getD (by omega)]
    have hzero : ({s with messageLength := packetLength st}.store bs : RxState).inBuffer.getD 0 0 =
        st.getD 0 0 := htr.getD (by omega)
    have hfit : ¬ l < 5+be16 st 5+(if 0 < mqttGetQos (st.getD 0 0) then 2 else 0) := by
      unfold admittedHeader at hadm
      rw [hend] at hadm
      omega
    unfold receiveOversized
    rw [htopic]
    dsimp only
    rw [hbe, hzero, htr.length, if_neg hfit]
    exact htr.upTo_chunk hopen hreads hvalid hfull

end Tracks

/-- There is a schedule for every such packet. -/
theorem runaway_concludes {st : List UInt8} {l : ℕ} (h : RunawayAccepted st l) :
    ∃ t s t' s', s.inBufferReadLen = 0 ∧ s.inBufferLength = l ∧ t.stream = st ∧
      Concludes t s .message t' s' := by
  have hlong : 6 ≤ st.length := by
    have hbytes := h.2.2.1
    unfold lengthBytesRead at hbytes
    rwa [if_pos h.1] at hbytes
  -- six bytes one by one, then two reads that take all there is
  let t : Transport := ⟨true, st, .chunk 0 :: (List.replicate (4+1) (.chunk 0) ++
    [.chunk st.length, .chunk st.length]), [], []⟩
  let s : RxState := ⟨[], l, 0, 0⟩
  have hstart : Tracks st l t s := Tracks.start rfl rfl rfl
  obtain ⟨bs,hres,hcount,hreads,hopen,hfirst,htr⟩ :=
    hstart.read_chunk rfl (n := 1) rfl (by omega) (by dsimp only [s]; omega) h.2.1
  have hone : (s.store bs).inBufferReadLen = 1 := by
    rw [RxState.store_readLen, hcount]
    dsimp only [s]
    omega
  have hbyte : receiveFirstByte t s = (none, (espTransportRead t 1).2, s.store bs) := by
    have hvalid : mqttHasValidMsgHdr (bs.getD 0 0) = true := by
      rw [hfirst]
      exact h.2.1
    unfold receiveFirstByte
    rw [if_pos rfl, ← Prod.eta (espTransportRead t 1), hres]
    dsimp only
    rw [if_pos hvalid]
  obtain ⟨g1,g2,g3,g4,g5⟩ := htr.lengthLoop_runaway h.1 hlong h.2.1 hopen (by omega)
    (m := 4) (k := 6) (by omega) (by omega) hreads
  -- the first two stages are done after six reads
  have hcall : mqttMessageReceive t s = receiveRest
      (remainingLengthLoop 6 (espTransportRead t 1).2 (s.store bs)).2.1
      (remainingLengthLoop 6 (espTransportRead t 1).2 (s.store bs)).2.2 := by
    have hlength : receiveRemainingLength (espTransportRead t 1).2 (s.store bs) =
        remainingLengthLoop 6 (espTransportRead t 1).2 (s.store bs) := by
      unfold receiveRemainingLength
      rw [if_pos (Or.inl hone)]
    have hs : ({s with messageLength := 0} : RxState) = s := rfl
    unfold mqttMessageReceive
    rw [hs, hbyte]
    dsimp only
    rw [hlength, ← Prod.eta (remainingLengthLoop 6 (espTransportRead t 1).2 (s.store bs)), g1]
  have hmsg := g5.rest_runaway h g3 g4 g2
  rw [← hcall] at hmsg
  exact ⟨t, s, _, _, rfl, rfl, rfl, .done _ _ _ _ _ (Prod.ext hmsg rfl) (Or.inl rfl)⟩

/-- The reader refuses malformed length fields unless a packet with one is otherwise acceptable. -/
theorem remaining_length_refused_iff (st : List UInt8) (l : ℕ) :
    RefusesMalformed st l ↔ ¬ RunawayAccepted st l := by
  -- a packet of the exception is handed out by some schedule; otherwise the bytes counted cannot run away
  constructor
  · intro h hacc
    obtain ⟨t,s,t',s',hz,hl,hst,hc⟩ := runaway_concludes hacc
    obtain ⟨htr,hout,-⟩ := hc.tracks (Tracks.start hz hl hst) rfl
    obtain ⟨hnot,-⟩ := h t s t' s' hz hl hst hc
    have hsix : 6 ≤ s'.inBufferReadLen := by
      have hbytes := hout.1
      unfold lengthBytesRead at hbytes
      rwa [if_pos hacc.1] at hbytes
    -- the buffer holds the same four continuing bytes as the stream
    apply hnot
    intro j hj
    have hrange : j ≤ 4 := by
      simp only [List.mem_cons, List.not_mem_nil, or_false] at hj
      omega
    have hgoes := hacc.1 j hj
    unfold Goes at hgoes ⊢
    rwa [htr.seen, ByteBuffer.getD_of_take_eq (st.take s'.inBufferReadLen) st s'.inBufferReadLen j 0
      (by omega) (by rw [List.take_take, Nat.min_self])]
  · intro hno t s t' s' hz hl hst hc
    obtain ⟨htr,hout,hml⟩ := hc.tracks (Tracks.start hz hl hst) rfl
    have hfield := fieldEnd_le_lengthBytesRead st
    have htwo := two_le_fieldEnd st
    have hbytes := hout.1
    have hrun : ¬ Runaway st := fun hrun =>
      hno ⟨hrun, htr.valid (by omega), hout.mono htr.le⟩
    exact ⟨fun htake => hrun (htr.runaway_of_take htake), _, htr.headerAgrees hrun (by omega) hml⟩

/-- A PINGRESP with four continuing length bytes is handed out. -/
theorem remaining_length_pingresp_accepted :
    ¬ RefusesMalformed [0xd0, 0x80, 0x80, 0x80, 0x80, 0x00] 1024 := by
  intro h
  let t : Transport := ⟨true, [0xd0, 0x80, 0x80, 0x80, 0x80, 0x00], List.replicate 6 (.chunk 0), [], []⟩
  let s : RxState := ⟨List.replicate 16 0, 1024, 0, 0⟩
  have hmsg : (mqttMessageReceive t s).1 = .message := by decide +kernel
  have hrun : Runaway ((mqttMessageReceive t s).2.2.inBuffer.take
      (mqttMessageReceive t s).2.2.inBufferReadLen) := by decide +kernel
  exact (h t s _ _ rfl rfl rfl (.done _ _ _ _ _ (Prod.ext hmsg rfl) (Or.inl rfl))).1 hrun

end EspMqtt
