import Mathlib.Data.List.GetD
import EspMqtt.Receive

/-! What `mqtt_message_receive` returns, and what it leaves, depends on the bytes it
has counted and on the transport, not on what else stands in `in_buffer`. -/
namespace EspMqtt

/-- `in_buffer` with the bytes `seen` counted, and behind them what is left of `stale`. -/
def RxState.holding (seen stale : List UInt8) (length messageLength : ℕ) : RxState :=
  ⟨seen ++ stale.drop seen.length, length, messageLength, seen.length⟩

namespace RxState

variable (seen stale : List UInt8) (l m : ℕ)

@[simp] theorem holding_readLen : (holding seen stale l m).inBufferReadLen = seen.length := rfl

@[simp] theorem holding_length : (holding seen stale l m).inBufferLength = l := rfl

theorem holding_store (bs : List UInt8) : (holding seen stale l m).store bs = holding (seen ++ bs) stale l m := by
  have hsplice : ByteBuffer.splice (seen ++ stale.drop seen.length) seen.length bs =
      seen ++ bs ++ stale.drop (seen ++ bs).length := by
    unfold ByteBuffer.splice
    rw [List.take_left, List.drop_append, List.drop_drop, List.length_append]
    simp
  unfold holding store
  dsimp only
  rw [hsplice, List.length_append]

theorem holding_getD {i : ℕ} (hi : i < seen.length) :
    (holding seen stale l m).inBuffer.getD i 0 = seen.getD i 0 := List.getD_append _ _ _ _ hi

/-- The last byte counted has its high bit set. -/
def Continues (seen : List UInt8) : Prop := seen.getD (seen.length-1) 0 &&& 0x80 ≠ 0

theorem holding_lastContinues (hne : seen ≠ []) :
    (holding seen stale l m).lastContinues = true ↔ Continues seen := by
  have hpos := List.length_pos_of_ne_nil hne
  unfold lastContinues Continues
  rw [holding_readLen, holding_getD seen stale l m (by omega), bne_iff_ne]

end RxState
open RxState (holding)

theorem espTransportRead_bytes {t t' : Transport} {n : ℕ} {bs : List UInt8}
    (h : espTransportRead t n = (.bytes bs, t')) : bs ≠ [] ∧ bs.length ≤ n := by
  rcases espTransportRead_cases t n with ⟨bs',hres,hne,hle,-⟩ | ⟨hno,-⟩
  · rw [h] at hres
    rw [ReadResult.bytes.inj hres]
    exact ⟨hne, hle⟩
  · rw [h] at hno
    exact absurd rfl (hno bs)

/-! The length of a packet. -/

theorem totalLengthLoop_agree {b b' : List UInt8} {length : ℕ}
    (h : ∀ j < length, b.getD j 0 = b'.getD j 0) (k i n : ℕ) :
    totalLengthLoop b length k i n = totalLengthLoop b' length k i n := by
  induction k generalizing i n with
  | zero => rfl
  | succ k ih =>
    unfold totalLengthLoop
    by_cases hi : i < length
    · rw [if_pos hi, if_pos hi, h i hi]
      dsimp only
      rw [ih]
    · rw [if_neg hi, if_neg hi]

theorem mqttGetTotalLength_holding (seen stale : List UInt8) (l m : ℕ) :
    mqttGetTotalLength (holding seen stale l m).inBuffer seen.length = mqttGetTotalLength seen seen.length := by
  unfold mqttGetTotalLength
  rw [totalLengthLoop_agree (fun j hj => RxState.holding_getD seen stale l m hj)]

/-- The loop stands where it is or goes on, by at most `k` bytes. -/
theorem totalLengthLoop_range (b : List UInt8) (length k i n : ℕ) :
    i ≤ (totalLengthLoop b length k i n).2 ∧ (totalLengthLoop b length k i n).2 ≤ i+k ∧
    (i ≤ length → (totalLengthLoop b length k i n).2 ≤ length) := by
  induction k generalizing i n with
  | zero => exact ⟨le_rfl, le_rfl, id⟩
  | succ k ih =>
    unfold totalLengthLoop
    dsimp only
    split
    · rename_i hi
      split
      · exact ⟨Nat.le_succ i, by omega, fun _ => hi⟩
      · have hnext := ih (i+1) (n+(b.getD i 0 &&& 0x7f).toNat*2^(7*(i-1)))
        exact ⟨by omega, by omega, fun _ => hnext.2.2 hi⟩
    · exact ⟨le_rfl, by omega, id⟩

/-- What it has left behind continues, but for the byte it stopped at. -/
theorem totalLengthLoop_before (b : List UInt8) (length k i n : ℕ) {j : ℕ} (hi : i ≤ j)
    (hj : j+1 < (totalLengthLoop b length k i n).2) : b.getD j 0 &&& 0x80 ≠ 0 := by
  induction k generalizing i n with
  | zero =>
    unfold totalLengthLoop at hj
    omega
  | succ k ih =>
    unfold totalLengthLoop at hj
    dsimp only at hj
    split at hj
    · split at hj
      · dsimp only at hj
        omega
      · rename_i hhigh
        rcases Nat.eq_or_lt_of_le hi with rfl | hlt
        · exact hhigh
        · exact ih (i+1) _ hlt hj
    · dsimp only at hj
      omega

/-- A loop that has not come to its bounds stopped at a byte without the high bit. -/
theorem totalLengthLoop_stop (b : List UInt8) (length k i n : ℕ)
    (hk : (totalLengthLoop b length k i n).2 < i+k) (hl : (totalLengthLoop b length k i n).2 < length) :
    b.getD ((totalLengthLoop b length k i n).2-1) 0 &&& 0x80 = 0 ∧ i < (totalLengthLoop b length k i n).2 := by
  induction k generalizing i n with
  | zero =>
    unfold totalLengthLoop at hk
    omega
  | succ k ih =>
    unfold totalLengthLoop at hk hl ⊢
    dsimp only at hk hl ⊢
    split at hk
    · rename_i hi
      rw [if_pos hi] at hl
      rw [if_pos hi]
      split at hk
      · rename_i hlow
        rw [if_pos hlow]
        exact ⟨hlow, Nat.lt_succ_self i⟩
      · rename_i hhigh
        rw [if_neg hhigh] at hl
        rw [if_neg hhigh]
        have hnext := ih (i+1) _ (by omega) hl
        exact ⟨hnext.1, by omega⟩
    · rename_i hi
      rw [if_neg hi] at hl
      dsimp only at hl
      omega

/-- Once it has stopped, more bytes or fewer behind the field make no difference. -/
theorem totalLengthLoop_extend {b b' : List UInt8} {length length' : ℕ} (k i n : ℕ)
    (hb : ∀ j < (totalLengthLoop b length k i n).2, b'.getD j 0 = b.getD j 0)
    (hl : (totalLengthLoop b length k i n).2 ≤ length')
    (hstop : (totalLengthLoop b length k i n).2 = i+k ∨
      (i < (totalLengthLoop b length k i n).2 ∧
        b.getD ((totalLengthLoop b length k i n).2-1) 0 &&& 0x80 = 0)) :
    totalLengthLoop b' length' k i n = totalLengthLoop b length k i n := by
  induction k generalizing i n with
  | zero => rfl
  | succ k ih =>
    have hrange := totalLengthLoop_range b length k (i+1) (n+(b.getD i 0 &&& 0x7f).toNat*2^(7*(i-1)))
    unfold totalLengthLoop at hb hl hstop ⊢
    dsimp only at hb hl hstop ⊢
    by_cases hi : i < length
    · rw [if_pos hi] at hb hl hstop
      rw [if_pos hi]
      by_cases hlow : b.getD i 0 &&& 0x80 = 0
      · rw [if_pos hlow] at hb hl
        dsimp only at hb hl
        rw [if_pos (by omega), hb i (Nat.lt_succ_self i), if_pos hlow, if_pos hlow]
      · rw [if_neg hlow] at hb hl hstop
        rw [if_pos (by omega), hb i (by omega), if_neg hlow, if_neg hlow]
        apply ih _ _ hb hl
        rcases hstop with hfull | ⟨-,hlast⟩
        · left
          omega
        · right
          refine ⟨?_, hlast⟩
          by_contra hnot
          have heq : (totalLengthLoop b length k (i+1) (n+(b.getD i 0 &&& 0x7f).toNat*2^(7*(i-1)))).2-1 = i := by
            omega
          rw [heq] at hlast
          exact hlow hlast
    · rw [if_neg hi] at hstop
      dsimp only at hstop
      omega

/-! The stages of the reader. Each lemma says: there is one outcome, whatever `stale` is. -/

/-- The first byte: a wrong one ends the call, and otherwise it is counted, or nothing
was there. -/
theorem receiveFirstByte_holding (t : Transport) (seen : List UInt8) (l m : ℕ) :
    (∀ stale, (receiveFirstByte t (holding seen stale l m)).1 = some .failure) ∨
    ∃ o t' bs, (∀ stale, receiveFirstByte t (holding seen stale l m) = (o, t', holding (seen ++ bs) stale l m)) ∧
      ((o = none ∧ ((seen = [] ∧ bs.length = 1) ∨ (seen ≠ [] ∧ bs = []))) ∨
        (o = some .nothing ∧ seen = [] ∧ bs = [])) := by
  by_cases hseen : seen = []
  · subst hseen
    have hzero (stale : List UInt8) : (holding [] stale l m).inBufferReadLen = 0 := rfl
    generalize hread : espTransportRead t 1 = r
    obtain ⟨res,t'⟩ := r
    cases res with
    | bytes bs =>
      obtain ⟨hne,hle⟩ := espTransportRead_bytes hread
      have hone : bs.length = 1 := by
        have hpos := List.length_pos_of_ne_nil hne
        omega
      by_cases hvalid : mqttHasValidMsgHdr (bs.getD 0 0) = true
      · right
        refine ⟨none, t', bs, fun stale => ?_, Or.inl ⟨rfl, Or.inl ⟨rfl, hone⟩⟩⟩
        unfold receiveFirstByte
        rw [if_pos (hzero stale), hread]
        dsimp only
        rw [if_pos hvalid, RxState.holding_store]
      · left
        intro stale
        unfold receiveFirstByte
        rw [if_pos (hzero stale), hread]
        dsimp only
        rw [if_neg hvalid]
    | timeout =>
      right
      refine ⟨some .nothing, t', [], fun stale => ?_, Or.inr ⟨rfl, rfl, rfl⟩⟩
      unfold receiveFirstByte
      rw [if_pos (hzero stale), hread]
      rfl
    | fin =>
      left
      intro stale
      unfold receiveFirstByte
      rw [if_pos (hzero stale), hread]
      rfl
    | error =>
      left
      intro stale
      unfold receiveFirstByte
      rw [if_pos (hzero stale), hread]
      rfl
  · right
    refine ⟨none, t, [], fun stale => ?_, Or.inl ⟨rfl, Or.inr ⟨hseen, rfl⟩⟩⟩
    have hpos := List.length_pos_of_ne_nil hseen
    unfold receiveFirstByte
    rw [if_neg (by rw [RxState.holding_readLen]; omega), List.append_nil]

/-- What the loop over the length bytes has added when it goes on to the rest of the
packet: bytes with the high bit up to the last one, and that one without it or the sixth. -/
structure LengthBytes (seen bs : List UInt8) : Prop where
  added : bs ≠ []
  short : (seen ++ bs).length ≤ 6
  high : ∀ j, seen.length ≤ j → j+1 < (seen ++ bs).length → (seen ++ bs).getD j 0 &&& 0x80 ≠ 0
  ends : (seen ++ bs).length = 6 ∨ ¬ RxState.Continues (seen ++ bs)

theorem remainingLengthLoop_holding (k : ℕ) (t : Transport) (seen : List UInt8) (l m : ℕ)
    (hshort : seen.length < 6) (hk : 6 ≤ seen.length+k) :
    ∃ o t' bs, (∀ stale, remainingLengthLoop k t (holding seen stale l m) = (o, t', holding (seen ++ bs) stale l m)) ∧
      ((o = none ∧ LengthBytes seen bs) ∨ (o = some .midMessageTimeout ∨ o = some .failure)) := by
  -- the fuel covers the bytes up to six
  induction k generalizing t seen with
  | zero => omega
  | succ k ih =>
    generalize hread : espTransportRead t 1 = r
    obtain ⟨res,t'⟩ := r
    cases res with
    | bytes bs =>
      obtain ⟨hne,hle⟩ := espTransportRead_bytes hread
      have hone : bs.length = 1 := by
        have hpos := List.length_pos_of_ne_nil hne
        omega
      have hlen : (seen ++ bs).length = seen.length+1 := by rw [List.length_append, hone]
      have happ : seen ++ bs ≠ [] := by simp [hne]
      have hloop (stale : List UInt8) : remainingLengthLoop (k+1) t (holding seen stale l m) =
          if (seen ++ bs).length < 6 ∧ (holding (seen ++ bs) stale l m).lastContinues then
            remainingLengthLoop k t' (holding (seen ++ bs) stale l m)
          else (none, t', holding (seen ++ bs) stale l m) := by
        rw [remainingLengthLoop, hread]
        dsimp only
        rw [RxState.holding_store, RxState.holding_readLen]
      by_cases hgo : (seen ++ bs).length < 6 ∧ RxState.Continues (seen ++ bs)
      · obtain ⟨o,u,cs,hrun,hout⟩ := ih t' (seen ++ bs) hgo.1 (by omega)
        refine ⟨o, u, bs ++ cs, fun stale => ?_, ?_⟩
        · rw [hloop, if_pos ⟨hgo.1, (RxState.holding_lastContinues _ stale l m happ).mpr hgo.2⟩, hrun,
            List.append_assoc]
        · rcases hout with ⟨hnone,hbytes⟩ | hstop
          · left
            refine ⟨hnone, by simp [hne], ?_, ?_, ?_⟩
            · rw [← List.append_assoc]
              exact hbytes.short
            · intro j hj hlt
              rw [← List.append_assoc] at hlt ⊢
              rcases Nat.eq_or_lt_of_le hj with rfl | hgt
              · -- the byte this round has read
                have hlast := hgo.2
                unfold RxState.Continues at hlast
                rw [hlen, Nat.add_sub_cancel] at hlast
                rwa [List.getD_append _ _ _ _ (by omega)]
              · exact hbytes.high j (by omega) hlt
            · rw [← List.append_assoc]
              exact hbytes.ends
          · exact Or.inr hstop
      · refine ⟨none, t', bs, fun stale => ?_, Or.inl ⟨rfl, hne, by omega, fun j hj hlt => by omega, ?_⟩⟩
        · rw [hloop, if_neg (by rwa [RxState.holding_lastContinues _ stale l m happ])]
        · by_cases hsix : (seen ++ bs).length = 6
          · exact Or.inl hsix
          · exact Or.inr fun hc => hgo ⟨by omega, hc⟩
    | timeout =>
      refine ⟨some .midMessageTimeout, t', [], fun stale => ?_, Or.inr (Or.inl rfl)⟩
      rw [remainingLengthLoop, hread, List.append_nil]
      rfl
    | fin =>
      refine ⟨some .failure, t', [], fun stale => ?_, Or.inr (Or.inr rfl)⟩
      rw [remainingLengthLoop, hread, List.append_nil]
      rfl
    | error =>
      refine ⟨some .failure, t', [], fun stale => ?_, Or.inr (Or.inr rfl)⟩
      rw [remainingLengthLoop, hread, List.append_nil]
      rfl

/-- The stage is left alone, or it begins behind the first byte or behind one with the
high bit. -/
theorem receiveRemainingLength_holding (t : Transport) (seen : List UInt8) (l m : ℕ) (hne : seen ≠ []) :
    ∃ o t' bs, (∀ stale, receiveRemainingLength t (holding seen stale l m) = (o, t', holding (seen ++ bs) stale l m)) ∧
      ((o = none ∧ ((bs = [] ∧ seen.length ≠ 1) ∨
        ((seen.length = 1 ∨ RxState.Continues seen) ∧ LengthBytes seen bs))) ∨
        (o = some .midMessageTimeout ∨ o = some .failure)) := by
  by_cases hgo : seen.length = 1 ∨ (seen.length < 6 ∧ RxState.Continues seen)
  · obtain ⟨o,t',bs,hrun,hout⟩ := remainingLengthLoop_holding 6 t seen l m (by omega) (by omega)
    refine ⟨o, t', bs, fun stale => ?_, ?_⟩
    · unfold receiveRemainingLength
      rw [if_pos (by rwa [RxState.holding_readLen, RxState.holding_lastContinues _ _ _ _ hne]), hrun]
    · rcases hout with ⟨hnone,hbytes⟩ | hstop
      · exact Or.inl ⟨hnone, Or.inr ⟨hgo.imp_right And.right, hbytes⟩⟩
      · exact Or.inr hstop
  · refine ⟨none, t, [], fun stale => ?_, Or.inl ⟨rfl, Or.inl ⟨rfl, fun h => hgo (Or.inl h)⟩⟩⟩
    unfold receiveRemainingLength
    rw [if_neg (by rwa [RxState.holding_readLen, RxState.holding_lastContinues _ _ _ _ hne]), List.append_nil]

theorem receiveUpTo_holding (n : ℕ) (t : Transport) (seen : List UInt8) (l m : ℕ) :
    ∃ r t' bs, (∀ stale, receiveUpTo n t (holding seen stale l m) = (r, t', holding (seen ++ bs) stale l m)) ∧
      (r = .message → n ≤ (seen ++ bs).length ∧ (bs = [] ∨ (seen ++ bs).length = n)) ∧
      (r = .nothing → (seen ++ bs).length < n) := by
  by_cases hlt : seen.length < n
  · generalize hread : espTransportRead t (n-seen.length) = r
    obtain ⟨res,t'⟩ := r
    cases res with
    | bytes bs =>
      have hopen (stale : List UInt8) : receiveUpTo n t (holding seen stale l m) =
          if (seen ++ bs).length < n then (.nothing, t', holding (seen ++ bs) stale l m)
          else (.message, t', holding (seen ++ bs) stale l m) := by
        unfold receiveUpTo
        rw [RxState.holding_readLen, if_pos hlt, hread]
        dsimp only
        rw [RxState.holding_store, RxState.holding_readLen]
      obtain ⟨-,hle⟩ := espTransportRead_bytes hread
      have hlen : (seen ++ bs).length = seen.length+bs.length := List.length_append
      by_cases hmore : (seen ++ bs).length < n
      · refine ⟨.nothing, t', bs, fun stale => ?_, fun h => absurd h (by simp), fun _ => hmore⟩
        rw [hopen]
        exact if_pos hmore
      · refine ⟨.message, t', bs, fun stale => ?_, fun _ => ⟨by omega, Or.inr (by omega)⟩,
          fun h => absurd h (by simp)⟩
        rw [hopen]
        exact if_neg hmore
    | timeout =>
      refine ⟨.midMessageTimeout, t', [], fun stale => ?_, fun h => absurd h (by simp), fun h => absurd h (by simp)⟩
      unfold receiveUpTo
      rw [RxState.holding_readLen, if_pos hlt, hread, List.append_nil]
      rfl
    | fin =>
      refine ⟨.failure, t', [], fun stale => ?_, fun h => absurd h (by simp), fun h => absurd h (by simp)⟩
      unfold receiveUpTo
      rw [RxState.holding_readLen, if_pos hlt, hread, List.append_nil]
      rfl
    | error =>
      refine ⟨.failure, t', [], fun stale => ?_, fun h => absurd h (by simp), fun h => absurd h (by simp)⟩
      unfold receiveUpTo
      rw [RxState.holding_readLen, if_pos hlt, hread, List.append_nil]
      rfl
  · refine ⟨.message, t, [], fun stale => ?_, fun _ => ⟨?_, Or.inl rfl⟩, fun h => absurd h (by simp)⟩
    · unfold receiveUpTo
      rw [RxState.holding_readLen, if_neg hlt, List.append_nil]
    · rw [List.append_nil]
      omega

theorem receiveTopicLength_holding (h : ℕ) (t : Transport) (seen : List UInt8) (l m : ℕ) :
    ∃ o t' bs, (∀ stale, receiveTopicLength h t (holding seen stale l m) = (o, t', holding (seen ++ bs) stale l m)) ∧
      (o = none → h+2 ≤ (seen ++ bs).length) := by
  by_cases hlt : seen.length < h+2
  · generalize hread : espTransportRead t (seen.length-h+2) = r
    obtain ⟨res,t'⟩ := r
    cases res with
    | bytes bs =>
      have hopen (stale : List UInt8) : receiveTopicLength h t (holding seen stale l m) =
          if (seen ++ bs).length < h+2 then (some .nothing, t', holding (seen ++ bs) stale l m)
          else (none, t', holding (seen ++ bs) stale l m) := by
        unfold receiveTopicLength
        rw [RxState.holding_readLen, if_pos hlt, hread]
        dsimp only
        rw [RxState.holding_store, RxState.holding_readLen]
      by_cases hmore : (seen ++ bs).length < h+2
      · refine ⟨some .nothing, t', bs, fun stale => ?_, fun hn => absurd hn (by simp)⟩
        rw [hopen]
        exact if_pos hmore
      · refine ⟨none, t', bs, fun stale => ?_, fun _ => by omega⟩
        rw [hopen]
        exact if_neg hmore
    | timeout =>
      refine ⟨some .midMessageTimeout, t', [], fun stale => ?_, fun hn => absurd hn (by simp)⟩
      unfold receiveTopicLength
      rw [RxState.holding_readLen, if_pos hlt, hread, List.append_nil]
      rfl
    | fin =>
      refine ⟨some .failure, t', [], fun stale => ?_, fun hn => absurd hn (by simp)⟩
      unfold receiveTopicLength
      rw [RxState.holding_readLen, if_pos hlt, hread, List.append_nil]
      rfl
    | error =>
      refine ⟨some .failure, t', [], fun stale => ?_, fun hn => absurd hn (by simp)⟩
      unfold receiveTopicLength
      rw [RxState.holding_readLen, if_pos hlt, hread, List.append_nil]
      rfl
  · refine ⟨none, t, [], fun stale => ?_, fun _ => ?_⟩
    · unfold receiveTopicLength
      rw [RxState.holding_readLen, if_neg hlt, List.append_nil]
    · rw [List.append_nil]
      omega

/-- A PUBLISH that does not fit the buffer. -/
theorem receiveOversized_holding (h : ℕ) (t : Transport) (seen : List UInt8) (l m : ℕ) (hne : seen ≠ []) :
    ∃ r t' bs, ∀ stale, receiveOversized h t (holding seen stale l m) = (r, t', holding (seen ++ bs) stale l m) := by
  obtain ⟨o,t1,bs,htopic,hlong⟩ := receiveTopicLength_holding h t seen l m
  have hpos := List.length_pos_of_ne_nil hne
  have hlen : (seen ++ bs).length = seen.length+bs.length := List.length_append
  cases o with
  | some r =>
    refine ⟨r, t1, bs, fun stale => ?_⟩
    unfold receiveOversized
    rw [htopic]
  | none =>
    have hbound := hlong rfl
    obtain ⟨r,t2,cs,hup,-⟩ := receiveUpTo_holding l t1 (seen ++ bs) l m
    -- both the topic length and the QoS have been counted
    have hhead (stale : List UInt8) : be16 (holding (seen ++ bs) stale l m).inBuffer h = be16 (seen ++ bs) h ∧
        (holding (seen ++ bs) stale l m).inBuffer.getD 0 0 = (seen ++ bs).getD 0 0 := by
      refine ⟨?_, RxState.holding_getD _ stale l m (by omega)⟩
      unfold be16
      rw [RxState.holding_getD _ stale l m (by omega), RxState.holding_getD _ stale l m (by omega)]
    have hopen (stale : List UInt8) : receiveOversized h t (holding seen stale l m) =
        if l < h+be16 (seen ++ bs) h+(if 0 < mqttGetQos ((seen ++ bs).getD 0 0) then 2 else 0) then
          (.failure, t1, holding (seen ++ bs) stale l m)
        else receiveUpTo l t1 (holding (seen ++ bs) stale l m) := by
      unfold receiveOversized
      rw [htopic]
      dsimp only
      rw [(hhead stale).1, (hhead stale).2, RxState.holding_length]
    by_cases hfit : l < h+be16 (seen ++ bs) h+(if 0 < mqttGetQos ((seen ++ bs).getD 0 0) then 2 else 0)
    · refine ⟨.failure, t1, bs, fun stale => ?_⟩
      rw [hopen, if_pos hfit]
    · refine ⟨r, t2, bs ++ cs, fun stale => ?_⟩
      rw [hopen, if_neg hfit, hup, List.append_assoc]

/-- Type, as the reader sees it. -/
def IsPublishPacket (seen : List UInt8) : Prop := mqttGetType (seen.getD 0 0) = some .publish

instance (seen : List UInt8) : Decidable (IsPublishPacket seen) :=
  inferInstanceAs (Decidable (mqttGetType (seen.getD 0 0) = some .publish))

/-- Packet length by the bytes counted so far. -/
def totalLength (seen : List UInt8) : ℕ := (mqttGetTotalLength seen seen.length).1

/-- Fixed header length by the bytes counted so far. -/
def fixedHeaderLength (seen : List UInt8) : ℕ := (mqttGetTotalLength seen seen.length).2

theorem receiveRest_holding (t : Transport) (seen : List UInt8) (l m : ℕ) (hne : seen ≠ []) :
    ∃ r t' bs, (∀ stale, receiveRest t (holding seen stale l m) =
        (r, t', holding (seen ++ bs) stale l (totalLength seen))) ∧
      (¬ IsPublishPacket seen → (r = .message → totalLength seen ≤ (seen ++ bs).length ∧
        (bs = [] ∨ (seen ++ bs).length = totalLength seen)) ∧
        (r = .nothing → (seen ++ bs).length < totalLength seen)) := by
  have hpos := List.length_pos_of_ne_nil hne
  have hopen (stale : List UInt8) : receiveRest t (holding seen stale l m) =
      if l < totalLength seen then
        if IsPublishPacket seen then
          receiveOversized (fixedHeaderLength seen) t (holding seen stale l (totalLength seen))
        else (.failure, t, holding seen stale l (totalLength seen))
      else receiveUpTo (totalLength seen) t (holding seen stale l (totalLength seen)) := by
    have hlength := mqttGetTotalLength_holding seen stale l m
    have htype := RxState.holding_getD seen stale l m hpos
    unfold receiveRest
    rw [RxState.holding_readLen, hlength]
    dsimp only
    rw [htype]
    rfl
  by_cases hfit : l < totalLength seen
  · by_cases hpub : IsPublishPacket seen
    · obtain ⟨r,t',bs,hrun⟩ := receiveOversized_holding (fixedHeaderLength seen) t seen l (totalLength seen) hne
      refine ⟨r, t', bs, fun stale => ?_, fun hnot => absurd hpub hnot⟩
      rw [hopen, if_pos hfit, if_pos hpub, hrun]
    · refine ⟨.failure, t, [], fun stale => ?_, fun _ => ⟨fun h => absurd h (by simp), fun h => absurd h (by simp)⟩⟩
      rw [hopen, if_pos hfit, if_neg hpub, List.append_nil]
  · obtain ⟨r,t',bs,hrun,hout⟩ := receiveUpTo_holding (totalLength seen) t seen l (totalLength seen)
    refine ⟨r, t', bs, fun stale => ?_, fun _ => hout⟩
    rw [hopen, if_neg hfit, hrun]

/-! What is known of a packet while it is read. -/

/-- The length field is in: it has ended, or it has taken its four bytes. -/
def HeaderRead (seen : List UInt8) : Prop :=
  fixedHeaderLength seen = 5 ∨
    (1 < fixedHeaderLength seen ∧ seen.getD (fixedHeaderLength seen-1) 0 &&& 0x80 = 0)

/-- Four bytes have not been enough for the length field. -/
def Unterminated (seen : List UInt8) : Prop :=
  fixedHeaderLength seen = 5 ∧ seen.getD 4 0 &&& 0x80 ≠ 0

theorem fixedHeaderLength_range (seen : List UInt8) :
    1 ≤ fixedHeaderLength seen ∧ fixedHeaderLength seen ≤ 5 ∧ fixedHeaderLength seen ≤ totalLength seen ∧
    (1 ≤ seen.length → fixedHeaderLength seen ≤ seen.length) := by
  obtain ⟨hlo,hhi,hin⟩ := totalLengthLoop_range seen seen.length 4 1 0
  exact ⟨hlo, hhi, Nat.le_add_left _ _, hin⟩

theorem fixedHeaderLength_stop (seen : List UInt8) (hk : fixedHeaderLength seen < 5)
    (hl : fixedHeaderLength seen < seen.length) :
    seen.getD (fixedHeaderLength seen-1) 0 &&& 0x80 = 0 ∧ 1 < fixedHeaderLength seen :=
  totalLengthLoop_stop seen seen.length 4 1 0 hk hl

theorem HeaderRead.length {seen : List UInt8} (h : HeaderRead seen) :
    2 ≤ fixedHeaderLength seen ∧ fixedHeaderLength seen ≤ seen.length := by
  obtain ⟨-,-,-,hin⟩ := fixedHeaderLength_range seen
  have htwo : 2 ≤ fixedHeaderLength seen := by
    rcases h with h | h
    · omega
    · exact h.1
  refine ⟨htwo, hin ?_⟩
  by_contra hempty
  have hz : seen.length = 0 := by omega
  have hone : fixedHeaderLength seen = 1 := by
    unfold fixedHeaderLength mqttGetTotalLength
    rw [hz]
    rfl
  omega

/-- Nothing that comes behind it changes the length. -/
theorem HeaderRead.agree {seen seen' : List UInt8} (h : HeaderRead seen)
    (hb : ∀ j < fixedHeaderLength seen, seen'.getD j 0 = seen.getD j 0)
    (hl : fixedHeaderLength seen ≤ seen'.length) :
    mqttGetTotalLength seen' seen'.length = mqttGetTotalLength seen seen.length := by
  unfold mqttGetTotalLength
  rw [totalLengthLoop_extend 4 1 0 hb hl h]

theorem HeaderRead.append {seen : List UInt8} (h : HeaderRead seen) (bs : List UInt8) :
    totalLength (seen ++ bs) = totalLength seen ∧ fixedHeaderLength (seen ++ bs) = fixedHeaderLength seen ∧
    HeaderRead (seen ++ bs) := by
  obtain ⟨htwo,hle⟩ := h.length
  have hget (j : ℕ) (hj : j < fixedHeaderLength seen) : (seen ++ bs).getD j 0 = seen.getD j 0 :=
    List.getD_append _ _ _ _ (by omega)
  have hsame := h.agree hget (by rw [List.length_append]; omega)
  have hfixed : fixedHeaderLength (seen ++ bs) = fixedHeaderLength seen := congrArg Prod.snd hsame
  refine ⟨congrArg Prod.fst hsame, hfixed, ?_⟩
  unfold HeaderRead
  rw [hfixed, hget _ (by omega)]
  exact h

/-- With the length field in: not past the end of the packet, unless it is a short one
whose length field does not end, or whose second byte behind the header has the high bit. -/
structure Ready (seen : List UInt8) : Prop where
  header : HeaderRead seen
  inside : seen.length ≤ totalLength seen ∨ (seen.length ≤ 6 ∧ (Unterminated seen ∨
    (fixedHeaderLength seen+2 ≤ totalLength seen ∧ seen.getD (fixedHeaderLength seen+1) 0 &&& 0x80 ≠ 0)))

/-- Between two calls, inside a packet. -/
structure Midway (seen : List UInt8) : Prop where
  header : HeaderRead seen
  more : seen.length < totalLength seen

/-- The first length bytes of a packet. -/
theorem LengthBytes.ready {seen bs : List UInt8} (h : LengthBytes seen bs) (hone : seen.length = 1) :
    Ready (seen ++ bs) := by
  have hlen : (seen ++ bs).length = seen.length+bs.length := List.length_append
  have hpos := List.length_pos_of_ne_nil h.added
  have hshort := h.short
  obtain ⟨hlo,hhi,htotal,hin⟩ := fixedHeaderLength_range (seen ++ bs)
  have hin := hin (by omega)
  have hstop : fixedHeaderLength (seen ++ bs) = 5 ∨ fixedHeaderLength (seen ++ bs) = (seen ++ bs).length := by
    by_contra hnot
    obtain ⟨hlow,hgt⟩ := fixedHeaderLength_stop (seen ++ bs) (by omega) (by omega)
    exact h.high _ (by omega) (by omega) hlow
  by_cases hfive : fixedHeaderLength (seen ++ bs) = 5
  · refine ⟨Or.inl hfive, ?_⟩
    by_cases hsix : (seen ++ bs).length = 6
    · exact Or.inr ⟨hshort, Or.inl ⟨hfive, h.high 4 (by omega) (by omega)⟩⟩
    · left
      omega
  · have heq := hstop.resolve_left hfive
    refine ⟨Or.inr ⟨by omega, ?_⟩, Or.inl (by omega)⟩
    have hend := h.ends.resolve_left (by omega)
    unfold RxState.Continues at hend
    rw [not_not, ← heq] at hend
    exact hend

/-- Resumed behind a byte with the high bit, the loop reads on as if it were the length
field, and may leave the packet. -/
theorem LengthBytes.resumed {seen bs : List UInt8} (h : LengthBytes seen bs) (hmid : Midway seen)
    (hc : RxState.Continues seen) : Ready (seen ++ bs) := by
  obtain ⟨htotal,hfixed,hheader⟩ := hmid.header.append bs
  obtain ⟨htwo,hle⟩ := hmid.header.length
  have hmore := hmid.more
  have hshort := h.short
  have hlen : (seen ++ bs).length = seen.length+bs.length := List.length_append
  refine ⟨hheader, ?_⟩
  by_cases hover : (seen ++ bs).length ≤ totalLength (seen ++ bs)
  · exact Or.inl hover
  · right
    refine ⟨hshort, ?_⟩
    have hhigh (j : ℕ) (hj : seen.length ≤ j+1) (hlt : j+1 < (seen ++ bs).length) :
        (seen ++ bs).getD j 0 &&& 0x80 ≠ 0 := by
      by_cases hin : seen.length ≤ j
      · exact h.high j hin hlt
      · have hlast : j = seen.length-1 := by omega
        rw [List.getD_append _ _ _ _ (by omega), hlast]
        exact hc
    have hprev := hhigh (totalLength seen-2) (by omega) (by omega)
    have hlast := hhigh (totalLength seen-1) (by omega) (by omega)
    by_cases hun : Unterminated (seen ++ bs)
    · exact Or.inl hun
    · right
      -- the header ends in a byte without the high bit, so the two high ones are behind it
      have hlow : (seen ++ bs).getD (fixedHeaderLength seen-1) 0 &&& 0x80 = 0 := by
        rw [← hfixed]
        rcases hheader with hfive | ⟨-,hlow⟩
        · by_contra hne
          rw [hfive] at hne
          exact hun ⟨hfive, hne⟩
        · exact hlow
      have hbehind : fixedHeaderLength seen+2 ≤ totalLength seen := by
        by_contra hnot
        have heq : totalLength seen-2 = fixedHeaderLength seen-1 := by omega
        rw [heq] at hprev
        exact hprev hlow
      rw [hfixed, htotal]
      refine ⟨hbehind, ?_⟩
      have hwhere : fixedHeaderLength seen+1 = totalLength seen-1 ∨
          fixedHeaderLength seen+1 = totalLength seen-2 := by omega
      rcases hwhere with heq | heq
      · rwa [heq]
      · rwa [heq]

theorem IsPublishPacket.append {seen : List UInt8} (h : IsPublishPacket seen) (hne : seen ≠ []) (bs : List UInt8) :
    IsPublishPacket (seen ++ bs) := by
  unfold IsPublishPacket
  rw [List.getD_append _ _ _ _ (List.length_pos_of_ne_nil hne)]
  exact h

/-- What has been counted when a call begins. -/
def Between (seen : List UInt8) : Prop := seen = [] ∨ (seen ≠ [] ∧ IsPublishPacket seen) ∨ Midway seen

/-- What has been counted when a packet other than a PUBLISH is handed out. -/
structure Whole (seen : List UInt8) : Prop where
  ready : Ready seen
  covers : totalLength seen ≤ seen.length

/-- Before the rest of a packet is read its length is known. -/
theorem ready_of_stages {seen bs cs : List UInt8} (hseen : Between seen)
    (hfirst : (seen = [] ∧ bs.length = 1) ∨ (seen ≠ [] ∧ bs = []))
    (hlength : (cs = [] ∧ (seen ++ bs).length ≠ 1) ∨
      (((seen ++ bs).length = 1 ∨ RxState.Continues (seen ++ bs)) ∧ LengthBytes (seen ++ bs) cs)) :
    IsPublishPacket (seen ++ bs ++ cs) ∨ Ready (seen ++ bs ++ cs) := by
  rcases hfirst with ⟨rfl,hone⟩ | ⟨hne,rfl⟩
  · right
    rw [List.nil_append] at hlength ⊢
    rcases hlength with ⟨-,hnot⟩ | ⟨-,hbytes⟩
    · exact absurd hone hnot
    · exact hbytes.ready hone
  · rw [List.append_nil] at hlength ⊢
    rcases hseen with hnil | ⟨-,hpub⟩ | hmid
    · exact absurd hnil hne
    · exact Or.inl (hpub.append hne cs)
    · right
      have hlong := hmid.header.length
      rcases hlength with ⟨rfl,-⟩ | ⟨hone | hc,hbytes⟩
      · rw [List.append_nil]
        exact ⟨hmid.header, Or.inl (Nat.le_of_lt hmid.more)⟩
      · omega
      · exact hbytes.resumed hmid hc

/-! The stages of `mqtt_message_receive`: one that has an answer ends it. -/

theorem mqttMessageReceive_first {t t1 : Transport} {s s1 : RxState} {r : Recv}
    (h : receiveFirstByte t {s with messageLength := 0} = (some r, t1, s1)) :
    mqttMessageReceive t s = (r, t1, s1) := by
  unfold mqttMessageReceive
  rw [h]

theorem mqttMessageReceive_length {t t1 t2 : Transport} {s s1 s2 : RxState} {r : Recv}
    (h : receiveFirstByte t {s with messageLength := 0} = (none, t1, s1))
    (h' : receiveRemainingLength t1 s1 = (some r, t2, s2)) : mqttMessageReceive t s = (r, t2, s2) := by
  unfold mqttMessageReceive
  rw [h]
  dsimp only
  rw [h']

theorem mqttMessageReceive_rest {t t1 t2 : Transport} {s s1 s2 : RxState}
    (h : receiveFirstByte t {s with messageLength := 0} = (none, t1, s1))
    (h' : receiveRemainingLength t1 s1 = (none, t2, s2)) : mqttMessageReceive t s = receiveRest t2 s2 := by
  unfold mqttMessageReceive
  rw [h]
  dsimp only
  rw [h']

/-- One call of `mqtt_message_receive`. -/
theorem mqttMessageReceive_holding (t : Transport) (seen : List UInt8) (l : ℕ) (hseen : Between seen) :
    (∀ stale m, (mqttMessageReceive t (holding seen stale l m)).1 = .failure) ∨
    ∃ r t' seen' m', (∀ stale m, mqttMessageReceive t (holding seen stale l m) = (r, t', holding seen' stale l m')) ∧
      (r = .message → IsPublishPacket seen' ∨ (Whole seen' ∧ m' = totalLength seen')) ∧
      (r = .nothing → Between seen') := by
  rcases receiveFirstByte_holding t seen l 0 with hfail | ⟨o,t1,bs,hfirst,hout⟩
  · left
    intro stale m
    have hf := hfail stale
    generalize hx : receiveFirstByte t (holding seen stale l 0) = x at hf
    obtain ⟨o,t1,s1⟩ := x
    dsimp only at hf
    subst hf
    rw [mqttMessageReceive_first (s := holding seen stale l m) hx]
  -- the first byte is there, or the read has timed out before it
  · right
    rcases hout with ⟨rfl,hbyte⟩ | ⟨rfl,rfl,rfl⟩
    · have hne : seen ++ bs ≠ [] := by
        rcases hbyte with ⟨rfl,hone⟩ | ⟨hne,-⟩
        · rw [List.nil_append]
          exact List.ne_nil_of_length_pos (by omega)
        · simp [hne]
      obtain ⟨o,t2,cs,hlength,hout⟩ := receiveRemainingLength_holding t1 (seen ++ bs) l 0 hne
      rcases hout with ⟨rfl,hcs⟩ | hstop
      · have hready := ready_of_stages hseen hbyte hcs
        have hne2 : seen ++ bs ++ cs ≠ [] := List.append_ne_nil_of_left_ne_nil hne cs
        obtain ⟨r,t3,ds,hrest,hend⟩ := receiveRest_holding t2 (seen ++ bs ++ cs) l 0 hne2
        refine ⟨r, t3, seen ++ bs ++ cs ++ ds, totalLength (seen ++ bs ++ cs), fun stale m => ?_, ?_⟩
        · rw [mqttMessageReceive_rest (s := holding seen stale l m) (hfirst stale) (hlength stale)]
          exact hrest stale
        -- a PUBLISH may be handed out with a part of its bytes, other packets only whole
        · by_cases hpub : IsPublishPacket (seen ++ bs ++ cs)
          · have hpub' := hpub.append hne2 ds
            exact ⟨fun _ => Or.inl hpub', fun _ => Or.inr (Or.inl ⟨List.append_ne_nil_of_left_ne_nil hne2 ds, hpub'⟩)⟩
          · have hready := hready.resolve_left hpub
            obtain ⟨htotal,hfixed,hheader⟩ := hready.header.append ds
            obtain ⟨hmessage,hnothing⟩ := hend hpub
            refine ⟨fun hr => Or.inr ⟨⟨⟨hheader, ?_⟩, ?_⟩, htotal.symm⟩, fun hr => Or.inr (Or.inr ⟨hheader, ?_⟩)⟩
            · rcases (hmessage hr).2 with rfl | hexact
              · rw [List.append_nil]
                exact hready.inside
              · left
                omega
            · rw [htotal]
              exact (hmessage hr).1
            · rw [htotal]
              exact hnothing hr
      · have hgive : ∃ r, o = some r ∧ r ≠ .message ∧ r ≠ .nothing := by
          rcases hstop with rfl | rfl
          · exact ⟨_, rfl, by decide, by decide⟩
          · exact ⟨_, rfl, by decide, by decide⟩
        obtain ⟨r,rfl,hr1,hr2⟩ := hgive
        refine ⟨r, t2, seen ++ bs ++ cs, 0, fun stale m => ?_, fun h => absurd h hr1, fun h => absurd h hr2⟩
        exact mqttMessageReceive_length (s := holding seen stale l m) (hfirst stale) (hlength stale)
    · exact ⟨.nothing, t1, [], 0, fun stale m => mqttMessageReceive_first (s := holding _ stale l m)
        (hfirst stale), fun h => absurd h (by decide), fun _ => Or.inl rfl⟩

end EspMqtt
