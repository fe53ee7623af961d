import Mathlib.Tactic

/-! Little-endian base-128 integers with a continuation bit in every byte but
the last, over an arbitrary bound on the number of bytes. -/
namespace Base128

theorem high_bit_clear_iff (b : UInt8) : b &&& 0x80 = 0 ↔ b.toNat < 128 := by
  have hall : ∀ n : Fin 256, UInt8.ofNat n.val &&& 0x80 = 0 ↔ n.val < 128 := by decide +kernel
  have hb := hall ⟨b.toNat, b.toNat_lt⟩
  simpa only [UInt8.ofNat_toNat] using hb

theorem low_bits (b : UInt8) : (b &&& 0x7f).toNat = b.toNat % 128 := by
  have hall : ∀ n : Fin 256, (UInt8.ofNat n.val &&& 0x7f).toNat = n.val % 128 := by decide +kernel
  have hb := hall ⟨b.toNat, b.toNat_lt⟩
  simpa only [UInt8.ofNat_toNat] using hb

/-- A complete field: every byte but the last continues, the last one stops. -/
def IsField : List UInt8 → Prop
  | [] => False
  | [b] => b.toNat < 128
  | b :: c :: bs => 128 ≤ b.toNat ∧ IsField (c :: bs)

/-- The number a field stands for. -/
def value : List UInt8 → ℕ
  | [] => 0
  | b :: bs => b.toNat % 128 + 128*value bs

/-- The shortest field of at most `k+1` bytes for a number below `128^(k+1)`. -/
def encode : ℕ → ℕ → List UInt8
  | 0, n => [UInt8.ofNat (n % 128)]
  | k+1, n => if n < 128 then [UInt8.ofNat n] else UInt8.ofNat (n % 128+128) :: encode k (n/128)

instance isFieldDecidable : (bs : List UInt8) → Decidable (IsField bs)
  | [] => inferInstanceAs (Decidable False)
  | [b] => inferInstanceAs (Decidable (b.toNat < 128))
  | b :: c :: bs =>
    haveI := isFieldDecidable (c :: bs)
    inferInstanceAs (Decidable (128 ≤ b.toNat ∧ IsField (c :: bs)))

theorem IsField.ne_nil {bs : List UInt8} (h : IsField bs) : bs ≠ [] := by
  rintro rfl
  exact h

theorem IsField.length_pos {bs : List UInt8} (h : IsField bs) : 0 < bs.length :=
  List.length_pos_of_ne_nil h.ne_nil

/-- Inside a field the bytes before the last continue. -/
theorem IsField.continues {bs : List UInt8} (h : IsField bs) (i : ℕ) (hi : i+1 < bs.length) :
    128 ≤ (bs.getD i 0).toNat := by
  induction bs generalizing i with
  | nil => simp only [List.length_nil] at hi; omega
  | cons b bs ih =>
    cases bs with
    | nil => simp only [List.length_cons, List.length_nil] at hi; omega
    | cons c bs =>
      cases i with
      | zero => exact h.1
      | succ i => exact ih h.2 i (by simpa only [List.length_cons, Nat.add_lt_add_iff_right] using hi)

/-- The last byte of a field stops it. -/
theorem IsField.stops {bs : List UInt8} (h : IsField bs) :
    (bs.getD (bs.length-1) 0).toNat < 128 := by
  induction bs with
  | nil => exact False.elim h
  | cons b bs ih =>
    cases bs with
    | nil => exact h
    | cons c bs => exact ih h.2

theorem encode_length_le (k n : ℕ) : (encode k n).length ≤ k+1 := by
  induction k generalizing n with
  | zero => exact Nat.le_refl 1
  | succ k ih =>
    unfold encode
    split
    · simp only [List.length_cons, List.length_nil]; omega
    · simp only [List.length_cons]; exact Nat.succ_le_succ (ih (n/128))

theorem isField_cons {b : UInt8} {bs : List UInt8} (hb : 128 ≤ b.toNat) (h : IsField bs) :
    IsField (b :: bs) := by
  cases bs with
  | nil => exact False.elim h
  | cons c bs => exact ⟨hb, h⟩

theorem isField_encode (k n : ℕ) (hn : n < 128^(k+1)) : IsField (encode k n) := by
  induction k generalizing n with
  | zero =>
    simp only [encode, IsField, UInt8.toNat_ofNat']
    omega
  | succ k ih =>
    unfold encode
    split
    · simp only [IsField, UInt8.toNat_ofNat']; omega
    · apply isField_cons
      · rw [UInt8.toNat_ofNat']; omega
      · exact ih (n/128) (by rw [Nat.div_lt_iff_lt_mul (by decide)]; rwa [pow_succ] at hn)

theorem value_encode (k n : ℕ) (hn : n < 128^(k+1)) : value (encode k n) = n := by
  induction k generalizing n with
  | zero =>
    simp only [encode, value, UInt8.toNat_ofNat']
    omega
  | succ k ih =>
    unfold encode
    split
    · simp only [value, UInt8.toNat_ofNat']; omega
    · have hv := ih (n/128) (by rw [Nat.div_lt_iff_lt_mul (by decide)]; rwa [pow_succ] at hn)
      simp only [value, hv, UInt8.toNat_ofNat']
      omega

/-- No field of so many bytes stands for a number of more digits. -/
theorem value_lt (bs : List UInt8) : value bs < 128^bs.length := by
  induction bs with
  | nil => exact Nat.one_pos
  | cons b bs ih =>
    have hb : b.toNat % 128 < 128 := Nat.mod_lt _ (by decide)
    rw [value, List.length_cons, pow_succ]
    omega

/-- A number of at most `m+1` digits takes at most as many bytes. -/
theorem encode_length_le_of_lt (k : ℕ) {n m : ℕ} (hn : n < 128^(m+1)) : (encode k n).length ≤ m+1 := by
  induction k generalizing n m with
  | zero => exact Nat.le_add_left 1 m
  | succ k ih =>
    unfold encode
    split
    · exact Nat.le_add_left 1 m
    · rename_i hbig
      cases m with
      | zero => exact absurd hn hbig
      | succ m =>
        rw [List.length_cons]
        exact Nat.succ_le_succ (ih (by rw [Nat.div_lt_iff_lt_mul (by decide)]; rwa [pow_succ] at hn))

/-- The field for a number that takes the fewest bytes. -/
structure Shortest (bs : List UInt8) (n : ℕ) : Prop where
  field : IsField bs
  value : value bs = n
  shortest : ∀ other, IsField other → Base128.value other = n → bs.length ≤ other.length

theorem shortest_encode (k n : ℕ) (hn : n < 128^(k+1)) : Shortest (encode k n) n := by
  refine ⟨isField_encode k n hn, value_encode k n hn, fun other hother hvalue => ?_⟩
  obtain ⟨m,hm⟩ : ∃ m, other.length = m+1 := ⟨other.length-1, by have := hother.length_pos; omega⟩
  rw [hm]
  apply encode_length_le_of_lt
  rw [← hm, ← hvalue]
  exact value_lt other

/-- No field is a proper beginning of another one. -/
theorem IsField.prefix_free {as bs xs ys : List UInt8} (ha : IsField as) (hb : IsField bs)
    (h : as ++ xs = bs ++ ys) : as = bs ∧ xs = ys := by
  induction as generalizing bs with
  | nil => exact False.elim ha
  | cons a as ih =>
    cases bs with
    | nil => exact False.elim hb
    | cons b bs =>
      simp only [List.cons_append, List.cons.injEq] at h
      obtain ⟨rfl,h⟩ := h
      cases as with
      | nil =>
        cases bs with
        | nil => exact ⟨rfl,h⟩
        | cons c bs =>
          have h1 : a.toNat < 128 := ha
          have h2 := hb.1
          omega
      | cons c as =>
        cases bs with
        | nil =>
          have h1 : a.toNat < 128 := hb
          have h2 := ha.1
          omega
        | cons e bs =>
          obtain ⟨h1,h2⟩ := ih ha.2 hb.2 h
          exact ⟨by rw [h1], h2⟩

end Base128
