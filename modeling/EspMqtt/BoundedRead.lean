import Mathlib.Data.List.Basic
import Mathlib.Data.List.Range
import Mathlib.Tactic

/-! Loops and conditions over memory that is read one element at a time.  A read
outside the memory is `none`, and so is everything that depends on it. -/
namespace EspMqtt

namespace BoundedRead

/-- `left && right`, where `right` is looked at only when it matters. -/
@[simp] theorem andM_some (a : Bool) (right : Option Bool) :
    (some a <&&> right) = if a then right else some false := by
  cases a <;> rfl

/-- `left || right`, where `right` is looked at only when it matters. -/
@[simp] theorem orM_some (a : Bool) (right : Option Bool) :
    (some a <||> right) = if a then some true else right := by
  cases a <;> rfl

/-- Both sides read what they need. -/
theorem andM_read (a b : Bool) : (some a <&&> some b) = some (a && b) := by
  cases a <;> rfl

theorem orM_read (a b : Bool) : (some a <||> some b) = some (a || b) := by
  cases a <;> rfl

/-- `for (; n > 0; --n, ++i) if (!ok(i)) return false; return true;` -/
def forAll (ok : ℕ → Option Bool) : ℕ → ℕ → Option Bool
  | 0, _ => some true
  | n+1, i => ok i <&&> forAll ok n (i+1)

/-- A loop none of whose rounds reads outside the memory ends with a verdict. -/
theorem forAll_eq {ok : ℕ → Option Bool} {p : ℕ → Bool} :
    ∀ {n i : ℕ}, (∀ j, i ≤ j → j < i+n → ok j = some (p j)) →
      forAll ok n i = some ((List.range' i n).all p)
  | 0, i, _ => rfl
  | n+1, i, h => by
    have hround : ok i = some (p i) := h i le_rfl (by omega)
    have hrest : forAll ok n (i+1) = some ((List.range' (i+1) n).all p) :=
      forAll_eq fun j hj hjn => h j (by omega) (by omega)
    rw [forAll, hround, hrest, andM_some, List.range'_succ, List.all_cons]
    cases p i <;> rfl

theorem forAll_zero {ok : ℕ → Option Bool} {p : ℕ → Bool} {n : ℕ}
    (h : ∀ j, j < n → ok j = some (p j)) : forAll ok n 0 = some ((List.range n).all p) := by
  rw [List.range_eq_range']
  exact forAll_eq fun j _ hj => h j (by omega)

end BoundedRead

end EspMqtt
