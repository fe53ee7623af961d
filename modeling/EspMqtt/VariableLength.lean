import EspMqtt.Framing
import EspMqtt.Mqtt5PublishRead

/-! The variable-length integers of `mqtt5_msg.c` and `mqtt_msg.c`: two encoders and two decoders
that were written separately. -/
namespace EspMqtt

/-- The loop of `get_variable_len` with every read checked: `none` is a read outside the bytes
there are. -/
def variableLenLoopAt (buffer : List UInt8) (bufferLength : ℕ) : ℕ → ℕ → ℕ → ℕ → Option (ℕ × ℕ)
  | 0, _, i, len => some (len, i)
  | k+1, shift, i, len =>
    if i < bufferLength then
      buffer[i]?.bind fun b =>
        let len := len+(b &&& 0x7f).toNat*2^(7*shift)
        if b &&& 0x80 = 0 then some (len, i+1)
        else variableLenLoopAt buffer bufferLength k (shift+1) (i+1) len
    else some (len, i)

/-- `get_variable_len`; the byte before the cursor is looked at only when four bytes were read. -/
def getVariableLenAt (buffer : List UInt8) (offset bufferLength : ℕ) : Option (ℕ × ℕ) :=
  (variableLenLoopAt buffer bufferLength 4 0 offset 0).bind fun r =>
    -- `&&` looks at the byte only if the rest holds
    if r.2-offset = 4 ∧ r.2 ≤ bufferLength then
      buffer[r.2-1]?.map fun last => if last &&& 0x80 ≠ 0 then (0, 0) else (r.1, r.2-offset)
    else some (r.1, r.2-offset)

section Reads
variable {buffer : List UInt8} {offset bufferLength : ℕ}

/-- As long as `buffer_length` bytes are there, no read leaves them. -/
theorem variableLenLoopAt_eq (hlen : bufferLength ≤ buffer.length) : ∀ (k shift i len : ℕ),
    variableLenLoopAt (buffer.take bufferLength) bufferLength k shift i len =
      some (variableLenLoop buffer bufferLength k shift i len)
  | 0, _, _, _ => rfl
  | k+1, shift, i, len => by
    rw [variableLenLoopAt, variableLenLoop]
    by_cases hi : i < bufferLength
    · have hread : (buffer.take bufferLength)[i]? = some (buffer.getD i 0) := by
        rw [List.getElem?_take_of_lt hi, List.getElem?_eq_getElem (by omega), List.getD_eq_getElem]
      rw [if_pos hi, if_pos hi, hread, Option.bind_some]
      dsimp only
      rw [variableLenLoopAt_eq hlen]
      split <;> rfl
    · rw [if_neg hi, if_neg hi]

theorem getVariableLenAt_eq (hlen : bufferLength ≤ buffer.length) :
    getVariableLenAt (buffer.take bufferLength) offset bufferLength =
      some (getVariableLen buffer offset bufferLength) := by
  obtain ⟨hlow,-⟩ := variableLenLoop_range buffer bufferLength 4 0 offset 0
  rw [getVariableLenAt, variableLenLoopAt_eq hlen, Option.bind_some, getVariableLen]
  generalize variableLenLoop buffer bufferLength 4 0 offset 0 = r at hlow ⊢
  by_cases hfour : r.2-offset = 4 ∧ r.2 ≤ bufferLength
  · have hread : (buffer.take bufferLength)[r.2-1]? = some (buffer.getD (r.2-1) 0) := by
      rw [List.getElem?_take_of_lt (by omega), List.getElem?_eq_getElem (by omega), List.getD_eq_getElem]
    rw [if_pos hfour, hread, Option.map_some]
    split
    · rename_i hgoes
      rw [if_pos ⟨hfour.1, hfour.2, hgoes⟩]
    · rename_i hstops
      rw [if_neg fun h => hstops h.2.2]
  · rw [if_neg hfour, if_neg fun h => hfour ⟨h.1, h.2.1⟩]

/-- Bytes that all continue are all read. -/
theorem variableLenLoop_continues : ∀ (k shift i len : ℕ),
    (∀ j < k, i+j < bufferLength ∧ buffer.getD (i+j) 0 &&& 0x80 ≠ 0) →
      (variableLenLoop buffer bufferLength k shift i len).2 = i+k
  | 0, _, _, _, _ => rfl
  | k+1, shift, i, len, h => by
    obtain ⟨hi,hgoes⟩ := h 0 (Nat.succ_pos k)
    rw [Nat.add_zero] at hi hgoes
    -- one byte is read and the others are where they were
    have ih := variableLenLoop_continues k (shift+1) (i+1)
      (len+(buffer.getD i 0 &&& 0x7f).toNat*2^(7*shift)) fun j hj => by
        have hnext := h (j+1) (Nat.succ_lt_succ hj)
        rwa [← Nat.add_assoc, Nat.add_right_comm] at hnext
    rw [variableLenLoop, if_pos hi]
    dsimp only
    rw [if_neg hgoes, ih]
    omega

/-- A field that does not end within four bytes counts as none. -/
theorem getVariableLen_overlong
    (h : ∀ j < 4, offset+j < bufferLength ∧ buffer.getD (offset+j) 0 &&& 0x80 ≠ 0) :
    getVariableLen buffer offset bufferLength = (0, 0) := by
  have hend : (variableLenLoop buffer bufferLength 4 0 offset 0).2 = offset+4 :=
    variableLenLoop_continues 4 0 offset 0 h
  obtain ⟨hlast,hgoes⟩ := h 3 (by decide)
  rw [getVariableLen, hend, if_pos]
  refine ⟨by omega, by omega, ?_⟩
  have hindex : offset+4-1 = offset+3 := by omega
  rwa [hindex]

theorem getVariableLen_le_four (buffer : List UInt8) (offset bufferLength : ℕ) :
    (getVariableLen buffer offset bufferLength).2 ≤ 4 := by
  obtain ⟨hlow,hhigh,-⟩ := variableLenLoop_range buffer bufferLength 4 0 offset 0
  rw [getVariableLen]
  split
  · exact Nat.zero_le 4
  · omega

end Reads

/-- Two encoders and two decoders agree on every number below 2^28, which takes the fewest bytes
it can.  The decoder of `mqtt5_msg.c` stays inside every buffer and takes at most four bytes, and
none of a field that goes on behind them. -/
theorem variable_length_codec :
    (∀ n < 2^28,
      Base128.Shortest (generateVariableLen 5 n) n ∧ (generateVariableLen 5 n).length ≤ 4 ∧
      encodedLens 5 n = generateVariableLen 5 n ∧
      (∀ (front rest : List UInt8) (bufferLength : ℕ),
        front.length+(generateVariableLen 5 n).length ≤ bufferLength →
        bufferLength ≤ (front ++ generateVariableLen 5 n ++ rest).length →
          getVariableLenAt ((front ++ generateVariableLen 5 n ++ rest).take bufferLength) front.length
            bufferLength = some (n, (generateVariableLen 5 n).length)) ∧
      ∀ (first : UInt8) (rest : List UInt8) (length : ℕ),
        1+(generateVariableLen 5 n).length ≤ length →
          mqttGetTotalLength (first :: (generateVariableLen 5 n ++ rest)) length =
            (n+(1+(generateVariableLen 5 n).length), 1+(generateVariableLen 5 n).length)) ∧
    ∀ (buffer : List UInt8) (offset bufferLength : ℕ), bufferLength ≤ buffer.length →
      ∃ n k, getVariableLenAt (buffer.take bufferLength) offset bufferLength = some (n, k) ∧ k ≤ 4 ∧
        ((∀ j < 4, offset+j < bufferLength ∧ buffer.getD (offset+j) 0 &&& 0x80 ≠ 0) → k = 0) := by
  constructor
  · intro n hn
    have hn : n < 128^4 := by omega
    have hfield := Base128.isField_encode 3 n hn
    have hfour := Base128.encode_length_le 3 n
    rw [generateVariableLen_encode hn]
    refine ⟨Base128.shortest_encode 3 n hn, hfour, encodedLens_encode 3 n 5 hn (by decide), ?_, ?_⟩
    · intro front rest bufferLength hlow hhigh
      have hat : (front ++ Base128.encode 3 n ++ rest).drop front.length = Base128.encode 3 n ++ rest := by
        rw [List.append_assoc, List.drop_left]
      rw [getVariableLenAt_eq hhigh, getVariableLen_encode hn hat hlow]
    · intro first rest length hlength
      -- the decoder of 3.1.1 is told where the bytes are, one by one
      have hbytes : ∀ j < (Base128.encode 3 n).length,
          (first :: (Base128.encode 3 n ++ rest)).getD (1+j) 0 = (Base128.encode 3 n).getD j 0 := by
        intro j hj
        rw [Nat.add_comm, List.getD_cons_succ, List.getD_append _ _ _ _ hj]
      rw [mqttGetTotalLength, totalLengthLoop_field _ _ length 4 1 0 hfield hfour le_rfl hlength hbytes,
        Base128.value_encode 3 n hn]
      simp
  · intro buffer offset bufferLength hlen
    refine ⟨(getVariableLen buffer offset bufferLength).1, (getVariableLen buffer offset bufferLength).2,
      getVariableLenAt_eq hlen, getVariableLen_le_four buffer offset bufferLength, fun h => ?_⟩
    rw [getVariableLen_overlong h]

end EspMqtt
