import Mathlib.Algebra.BigOperators.Group.List.Basic
import Mathlib.Data.List.Nodup
import Mathlib.Tactic

/-! Lists in order of arrival: the oldest element that answers a description, what is left when
it goes, and what stays in place when it changes. -/
namespace OldestMatch
variable {α β : Type*} {p : α → Bool} {l l' : List α} {x : α}

/-- `x` answers the description and nothing before it does; `l'` is what is left without it. -/
def Takes (p : α → Bool) (l : List α) (x : α) (l' : List α) : Prop :=
  ∃ l₁ l₂, l = l₁ ++ x :: l₂ ∧ p x = true ∧ (∀ y ∈ l₁, p y = false) ∧ l' = l₁ ++ l₂

/-- `x` answers the description, nothing before it does, and `f x` stands in its place. -/
def Changes (p : α → Bool) (f : α → α) (l : List α) (x : α) (l' : List α) : Prop :=
  ∃ l₁ l₂, l = l₁ ++ x :: l₂ ∧ p x = true ∧ (∀ y ∈ l₁, p y = false) ∧ l' = l₁ ++ f x :: l₂

/-- The oldest match, if there is one. -/
def Oldest (p : α → Bool) (l : List α) : Option α → Prop
  | none => ∀ y ∈ l, p y = false
  | some x => ∃ l₁ l₂, l = l₁ ++ x :: l₂ ∧ p x = true ∧ ∀ y ∈ l₁, p y = false

theorem find?_oldest (p : α → Bool) (l : List α) : Oldest p l (l.find? p) := by
  cases h : l.find? p with
  | none =>
    intro y hy
    simpa using List.find?_eq_none.mp h y hy
  | some x =>
    obtain ⟨hp,l₁,l₂,hl,hnot⟩ := List.find?_eq_some_iff_append.mp h
    exact ⟨l₁, l₂, hl, hp, fun y hy => by simpa using hnot y hy⟩

namespace Takes

theorem sublist (h : Takes p l x l') : l'.Sublist l := by
  obtain ⟨l₁,l₂,rfl,-,-,rfl⟩ := h
  exact List.Sublist.append (List.Sublist.refl l₁) (List.sublist_cons_self x l₂)

theorem mem (h : Takes p l x l') : x ∈ l := by
  obtain ⟨l₁,l₂,rfl,-,-,-⟩ := h
  simp

/-- The weights left are those there were, less the weight of what went. -/
theorem sum {M : Type*} [AddCommMonoid M] (h : Takes p l x l') (weight : α → M) :
    (l.map weight).sum = weight x + (l'.map weight).sum := by
  obtain ⟨l₁,l₂,rfl,-,-,rfl⟩ := h
  simp only [List.map_append, List.map_cons, List.sum_append, List.sum_cons]
  rw [← add_assoc, ← add_assoc, add_comm (l₁.map weight).sum]

end Takes

namespace Changes
variable {f : α → α}

theorem mem (h : Changes p f l x l') : x ∈ l := by
  obtain ⟨l₁,l₂,rfl,-,-,-⟩ := h
  simp

/-- What the change does not touch is what it was. -/
theorem map_eq (h : Changes p f l x l') {view : α → β} (hview : view (f x) = view x) :
    l'.map view = l.map view := by
  obtain ⟨l₁,l₂,rfl,-,-,rfl⟩ := h
  simp only [List.map_append, List.map_cons, hview]

/-- An element afterwards is the changed one or one that was there. -/
theorem mem_after (h : Changes p f l x l') {y : α} (hy : y ∈ l') : y = f x ∨ y ∈ l := by
  obtain ⟨l₁,l₂,rfl,-,-,rfl⟩ := h
  rcases List.mem_append.mp hy with hy | hy
  · exact Or.inr (List.mem_append_left _ hy)
  · rcases List.mem_cons.mp hy with hy | hy
    · exact Or.inl hy
    · exact Or.inr (List.mem_append_right _ (List.mem_cons_of_mem _ hy))

end Changes

end OldestMatch
