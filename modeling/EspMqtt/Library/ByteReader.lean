import EspMqtt.Library.Base128
import Mathlib.Data.List.TakeDrop

/-! Readers over a list of bytes: each takes what it reads off the front, or
fails. With every reader comes the lemma that it undoes the way the thing is
written. -/
namespace ByteReader

/-- What is read, and what is left. -/
abbrev Reader (α : Type) := List UInt8 → Option (α × List UInt8)

def byte : Reader UInt8
  | [] => none
  | b :: bs => some (b, bs)

/-- Two bytes, most significant first. -/
def word : Reader ℕ
  | a :: b :: bs => some (a.toNat*256+b.toNat, bs)
  | _ => none

/-- A number in `k` bytes, most significant first. -/
def bigEndian : ℕ → ℕ → List UInt8
  | 0, _ => []
  | k+1, n => UInt8.ofNat (n/256^k) :: bigEndian k n

/-- A number of `k` bytes, most significant first. -/
def number : ℕ → Reader ℕ
  | 0, bs => some (0, bs)
  | _+1, [] => none
  | k+1, b :: bs => (number k bs).map fun (n, bs) => (b.toNat*256^k+n, bs)

/-- Exactly `n` bytes. -/
def bytes (n : ℕ) : Reader (List UInt8) := fun bs =>
  if bs.length < n then none else some (bs.take n, bs.drop n)

/-- A run of bytes behind its length in two bytes. -/
def counted : Reader (List UInt8) := fun bs => (word bs).bind fun (n, bs) => bytes n bs

/-- A base-128 number of at most `k` bytes. -/
def base128 : ℕ → Reader ℕ
  | 0, _ => none
  | _+1, [] => none
  | k+1, b :: bs =>
    if b.toNat < 128 then some (b.toNat, bs)
    else (base128 k bs).map fun (n, bs) => (b.toNat-128+128*n, bs)

/-- Read `r` if it is there. -/
def optional {α : Type} (present : Bool) (r : Reader α) : Reader (Option α) := fun bs =>
  if present then (r bs).map fun (a, bs) => (some a, bs) else some (none, bs)

/-- Read `r` until nothing is left, at most `k` times. -/
def many {α : Type} (r : Reader α) : ℕ → List UInt8 → Option (List α)
  | _, [] => some []
  | 0, _ :: _ => none
  | k+1, b :: bs => (r (b :: bs)).bind fun (a, bs) => (many r k bs).map (a :: ·)

@[simp] theorem byte_cons (b : UInt8) (bs : List UInt8) : byte (b :: bs) = some (b, bs) := rfl

theorem word_append (n : ℕ) (hn : n < 65536) (bs : List UInt8) :
    word (UInt8.ofNat (n/256) :: UInt8.ofNat (n % 256) :: bs) = some (n, bs) := by
  simp only [word, UInt8.toNat_ofNat', Option.some.injEq, Prod.mk.injEq, and_true]
  omega

@[simp] theorem bigEndian_length (k n : ℕ) : (bigEndian k n).length = k := by
  induction k with
  | zero => rfl
  | succ k ih => rw [bigEndian, List.length_cons, ih]

/-- The highest of `k+1` digits, and the others. -/
theorem leading_digit (k n : ℕ) : n/256^k % 256*256^k+n % 256^k = n % 256^(k+1) := by
  rw [Nat.mod_pow_succ]
  ring

theorem number_bigEndian (k n : ℕ) (bs : List UInt8) :
    number k (bigEndian k n ++ bs) = some (n % 256^k, bs) := by
  induction k with
  | zero => rw [pow_zero, Nat.mod_one]; rfl
  | succ k ih =>
    rw [bigEndian, List.cons_append, number, ih, Option.map_some, UInt8.toNat_ofNat']
    exact congrArg (fun m => some (m, bs)) (leading_digit k n)

theorem bytes_append (s bs : List UInt8) : bytes s.length (s ++ bs) = some (s, bs) := by
  unfold bytes
  rw [if_neg (by simp), List.take_left, List.drop_left]

theorem counted_append (s : List UInt8) (hs : s.length < 65536) (bs : List UInt8) :
    counted (UInt8.ofNat (s.length/256) :: UInt8.ofNat (s.length % 256) :: (s ++ bs)) =
      some (s, bs) := by
  unfold counted
  rw [word_append _ hs]
  exact bytes_append s bs

theorem base128_encode (k n : ℕ) (hn : n < 128^(k+1)) (bs : List UInt8) :
    base128 (k+1) (Base128.encode k n ++ bs) = some (n, bs) := by
  induction k generalizing n with
  | zero =>
    have hval : (UInt8.ofNat (n % 128)).toNat = n := by rw [UInt8.toNat_ofNat']; omega
    have hlt : (UInt8.ofNat (n % 128)).toNat < 128 := by omega
    rw [Base128.encode, List.singleton_append, base128, if_pos hlt, hval]
  | succ k ih =>
    unfold Base128.encode
    by_cases hs : n < 128
    · have hval : (UInt8.ofNat n).toNat = n := by rw [UInt8.toNat_ofNat']; omega
      have hlt : (UInt8.ofNat n).toNat < 128 := by omega
      rw [if_pos hs, List.singleton_append, base128, if_pos hlt, hval]
    · have hge : ¬ (UInt8.ofNat (n % 128+128)).toNat < 128 := by rw [UInt8.toNat_ofNat']; omega
      have hd : n/128 < 128^(k+1) := by
        rw [Nat.div_lt_iff_lt_mul (by decide)]
        rwa [pow_succ] at hn
      rw [if_neg hs, List.cons_append, base128, if_neg hge, ih _ hd]
      simp only [Option.map_some, UInt8.toNat_ofNat', Option.some.injEq, Prod.mk.injEq, and_true]
      omega

/-- A list whose items are written one after another is read back whole. -/
theorem many_map {α β : Type} (r : Reader β) (write : α → List UInt8) (f : α → β) (as : List α) (k : ℕ)
    (hr : ∀ a ∈ as, ∀ bs, r (write a ++ bs) = some (f a, bs)) (hne : ∀ a ∈ as, write a ≠ [])
    (hk : as.length ≤ k) : many r k (as.flatMap write) = some (as.map f) := by
  induction as generalizing k with
  | nil => cases k <;> rfl
  | cons a as ih =>
    cases k with
    | zero => simp at hk
    | succ k =>
      have hread := hr a List.mem_cons_self (as.flatMap write)
      have hrest := ih k (fun x hx => hr x (List.mem_cons_of_mem _ hx))
        (fun x hx => hne x (List.mem_cons_of_mem _ hx)) (Nat.le_of_succ_le_succ hk)
      cases hw : write a ++ as.flatMap write with
      | nil => exact absurd (List.append_eq_nil_iff.mp hw).1 (hne a List.mem_cons_self)
      | cons b bs =>
        rw [hw] at hread
        rw [List.flatMap_cons, hw, many, hread]
        simp only [Option.bind_some, hrest, Option.map_some, List.map_cons]

theorem many_flatMap {α : Type} (r : Reader α) (write : α → List UInt8) (as : List α) (k : ℕ)
    (hr : ∀ a ∈ as, ∀ bs, r (write a ++ bs) = some (a, bs)) (hne : ∀ a ∈ as, write a ≠ [])
    (hk : as.length ≤ k) : many r k (as.flatMap write) = some as := by
  have h := many_map r write id as k hr hne hk
  rwa [List.map_id] at h

end ByteReader
