import Mathlib.Data.List.Nodup
import Mathlib.Data.List.Perm.Basic

/-! Lists whose elements are told apart by a key, and what a shorter list lacks. -/
namespace KeyedList
variable {α κ : Type*} [BEq κ] [LawfulBEq κ] (key : α → κ)

/-- The elements of `l` whose key does not occur in `l'`. -/
def missing (l l' : List α) : List α := l.filter fun x => !l'.any fun y => key y == key x

variable {key}

theorem mem_missing {l l' : List α} {x : α} :
    x ∈ missing key l l' ↔ x ∈ l ∧ ∀ y ∈ l', key y ≠ key x := by
  simp [missing]

/-- Nothing is missing in the list itself. -/
theorem missing_self (l : List α) : missing key l l = [] := by
  rw [List.eq_nil_iff_forall_not_mem]
  intro x hx
  exact (mem_missing.mp hx).2 x (mem_missing.mp hx).1 rfl

/-- What is kept and what is missing make up the whole list. -/
theorem perm_append_missing {l l' : List α} (hl : (l.map key).Nodup) (hs : l'.Sublist l) :
    l.Perm (l' ++ missing key l l') := by
  have hkept : (l.filter fun x => l'.any fun y => key y == key x) = l' := by
    induction hs with
    | slnil => rfl
    | cons a h ih =>
      rw [List.map_cons, List.nodup_cons] at hl
      rw [List.filter_cons_of_neg, ih hl.2]
      rw [List.any_eq_true]
      rintro ⟨y,hy,hkey⟩
      exact hl.1 (beq_iff_eq.mp hkey ▸ List.mem_map_of_mem (h.subset hy))
    | cons_cons a h ih =>
      rw [List.map_cons, List.nodup_cons] at hl
      rw [List.filter_cons_of_pos (by simp)]
      congr 1
      refine (List.filter_congr fun x hx => ?_).trans (ih hl.2)
      -- an element behind `a` has another key
      have hne : (key a == key x) = false :=
        beq_false_of_ne fun heq => hl.1 (heq ▸ List.mem_map_of_mem hx)
      rw [List.any_cons, hne, Bool.false_or]
  have hsplit := List.filter_append_perm (fun x => l'.any fun y => key y == key x) l
  rw [hkept] at hsplit
  exact hsplit.symm

/-- One element taken out is the one that is missing. -/
theorem missing_append {l₁ l₂ : List α} {x : α} (hl : ((l₁ ++ x :: l₂).map key).Nodup) :
    missing key (l₁ ++ x :: l₂) (l₁ ++ l₂) = [x] := by
  have hperm := perm_append_missing hl
    (List.Sublist.append (List.Sublist.refl l₁) (List.sublist_cons_self x l₂))
  have hone : (l₁ ++ l₂ ++ [x]).Perm (l₁ ++ l₂ ++ missing key (l₁ ++ x :: l₂) (l₁ ++ l₂)) := by
    refine List.Perm.trans ?_ hperm
    rw [List.append_assoc]
    exact List.Perm.append_left l₁ List.perm_append_comm
  exact (List.singleton_perm.mp ((List.perm_append_left_iff _).mp hone)).symm

end KeyedList
