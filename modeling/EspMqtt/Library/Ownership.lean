import Mathlib.Data.Multiset.AddSub
import Mathlib.Tactic

/-! Programs that allocate and free: what is undefined in them, and who has to free what.  An
allocation may be refused.  Freeing what is not allocated is undefined, and so is anything the
program says is. -/
namespace Ownership
variable {σ α β : Type}

/-- The blocks that are allocated, each under the number of the call that allocated it. -/
structure Heap where
  calls : ℕ
  live : Multiset ℕ
  nodup : live.Nodup
  old : ∀ b ∈ live, b < calls

namespace Heap

def empty : Heap := ⟨0, 0, Multiset.nodup_zero, fun _ h => absurd h (Multiset.notMem_zero _)⟩

/-- An allocation that is answered. -/
def push (h : Heap) : Heap where
  calls := h.calls+1
  live := h.calls ::ₘ h.live
  nodup := Multiset.nodup_cons.mpr ⟨fun hmem => Nat.lt_irrefl _ (h.old _ hmem), h.nodup⟩
  old := by
    intro b hb
    rcases Multiset.mem_cons.mp hb with rfl | hb
    · exact Nat.lt_succ_self _
    · exact Nat.lt_succ_of_lt (h.old b hb)

/-- One that is refused. -/
def refuse (h : Heap) : Heap where
  calls := h.calls+1
  live := h.live
  nodup := h.nodup
  old := fun b hb => Nat.lt_succ_of_lt (h.old b hb)

def erase (h : Heap) (b : ℕ) : Heap where
  calls := h.calls
  live := h.live.erase b
  nodup := h.nodup.erase b
  old := fun b' hb => h.old b' (Multiset.mem_of_mem_erase hb)

@[simp] theorem push_live (h : Heap) : h.push.live = h.calls ::ₘ h.live := rfl

@[simp] theorem refuse_live (h : Heap) : h.refuse.live = h.live := rfl

@[simp] theorem erase_live (h : Heap) (b : ℕ) : (h.erase b).live = h.live.erase b := rfl

end Heap

/-- Which allocations are answered, by what they are for and the number of the call. -/
abbrev Supply (σ : Type) := σ → ℕ → Bool

/-- A program; `none` is undefined behaviour. -/
def Prog (σ α : Type) := Supply σ → Heap → Option (α × Heap)

namespace Prog

instance : Monad (Prog σ) where
  pure a := fun _ h => some (a, h)
  bind p f := fun mem h => (p mem h).bind fun r => f r.1 mem r.2

/-- Behaviour the language says nothing about. -/
def undefined : Prog σ α := fun _ _ => none

/-- `malloc`, `calloc`; the number of the block, or `NULL`. -/
def alloc (site : σ) : Prog σ (Option ℕ) := fun mem h =>
  if mem site h.calls then some (some h.calls, h.push) else some (none, h.refuse)

/-- `free`. -/
def free : Option ℕ → Prog σ Unit
  | none => pure ()
  | some b => fun _ h => if b ∈ h.live then some ((), h.erase b) else none

/-- An access to a block. -/
def touch (b : ℕ) : Prog σ Unit := fun _ h => if b ∈ h.live then some ((), h) else none

def freeAll : List (Option ℕ) → Prog σ Unit
  | [] => pure ()
  | p :: ps => do
    free p
    freeAll ps

/-- The parts of a function, one after another until one of them gives up with an error. -/
def inOrder {γ ε : Type} : List (γ → Prog σ (Option ε × γ)) → γ → Prog σ (Option ε × γ)
  | [], c => pure (none, c)
  | part :: parts, c => do
    let r ← part c
    match r.1 with
    | none => inOrder parts r.2
    | some err => pure (some err, r.2)

theorem bind_run (p : Prog σ α) (f : α → Prog σ β) (mem : Supply σ) (h : Heap) :
    (p >>= f) mem h = (p mem h).bind fun r => f r.1 mem r.2 := rfl

theorem inOrder_append_run {γ ε : Type} (parts parts' : List (γ → Prog σ (Option ε × γ))) (c : γ)
    (mem : Supply σ) (h : Heap) :
    inOrder (parts ++ parts') c mem h = (inOrder parts c mem h).bind fun r =>
      match r.1.1 with
      | none => inOrder parts' r.1.2 mem r.2
      | some err => some ((some err, r.1.2), r.2) := by
  induction parts generalizing c h with
  | nil => rfl
  | cons part parts ih =>
    change (part c mem h).bind _ = ((part c mem h).bind _).bind _
    rw [Option.bind_assoc]
    congr 1
    funext r
    cases hr : r.1.1 with
    | none => simp only [hr]; exact ih r.1.2 r.2
    | some err => simp only [hr]; rfl

@[simp] theorem pure_run (a : α) (mem : Supply σ) (h : Heap) :
    (pure a : Prog σ α) mem h = some (a, h) := rfl

end Prog

/-- The block behind a pointer. -/
def held : Option ℕ → Multiset ℕ
  | none => 0
  | some b => {b}

@[simp] theorem held_none : held none = 0 := rfl

@[simp] theorem held_some (b : ℕ) : held (some b) = {b} := rfl

/-- The blocks behind a list of pointers. -/
def holds (ps : List (Option ℕ)) : Multiset ℕ := (ps.map held).sum

@[simp] theorem holds_nil : holds [] = 0 := rfl

@[simp] theorem holds_cons (p : Option ℕ) (ps : List (Option ℕ)) : holds (p :: ps) = held p+holds ps := by
  rw [holds, List.map_cons, List.sum_cons, ← holds]

@[simp] theorem holds_append (ps qs : List (Option ℕ)) : holds (ps ++ qs) = holds ps+holds qs := by
  rw [holds, List.map_append, List.sum_append, ← holds, ← holds]

/-- Run by the owner of `own`, whatever else is allocated, the program is defined, leaves that alone
and ends with what `Q` says about its result and about what is owned then. -/
def Spec (mem : Supply σ) (own : Multiset ℕ) (p : Prog σ α) (Q : α → Multiset ℕ → Prop) : Prop :=
  ∀ (h : Heap) (rest : Multiset ℕ), h.live = own+rest →
    ∃ a h' own', p mem h = some (a, h') ∧ h'.live = own'+rest ∧ Q a own'

/-- How parts of a function end: what is owned then and what holds, what its error is and what is
reached without one. -/
structure Ended {γ ε : Type} (owns : γ → Multiset ℕ) (I D : γ → Prop) (F : ε → Prop) (r : Option ε × γ)
    (o : Multiset ℕ) : Prop where
  own : o = owns r.2
  kept : I r.2
  error : ∀ err ∈ r.1, F err
  reached : r.1 = none → D r.2

theorem Ended.mono {γ ε : Type} {owns : γ → Multiset ℕ} {I J D E : γ → Prop} {F : ε → Prop}
    {r : Option ε × γ} {o : Multiset ℕ} (h : Ended owns I D F r o) (hI : ∀ d, I d → J d) (hD : ∀ d, D d → E d) :
    Ended owns J E F r o :=
  ⟨h.own, hI _ h.kept, h.error, fun hnone => hD _ (h.reached hnone)⟩

namespace Spec
variable {mem : Supply σ} {own : Multiset ℕ} {p : Prog σ α} {Q R : α → Multiset ℕ → Prop}

theorem pure {a : α} (h : Q a own) : Spec mem own (pure a) Q :=
  fun heap _ hlive => ⟨a, heap, own, rfl, hlive, h⟩

theorem bind {f : α → Prog σ β} {S : β → Multiset ℕ → Prop} (hp : Spec mem own p Q)
    (hf : ∀ a own', Q a own' → Spec mem own' (f a) S) : Spec mem own (p >>= f) S := by
  intro heap rest hlive
  obtain ⟨a,heap₁,own₁,hrun,hlive₁,hQ⟩ := hp heap rest hlive
  obtain ⟨b,heap₂,own₂,hrun₂,hlive₂,hS⟩ := hf a own₁ hQ heap₁ rest hlive₁
  refine ⟨b, heap₂, own₂, ?_, hlive₂, hS⟩
  rw [Prog.bind_run, hrun]
  exact hrun₂

theorem mono (hp : Spec mem own p Q) (h : ∀ a own', Q a own' → R a own') : Spec mem own p R := by
  intro heap rest hlive
  obtain ⟨a,heap',own',hrun,hlive',hQ⟩ := hp heap rest hlive
  exact ⟨a, heap', own', hrun, hlive', h a own' hQ⟩

/-- What else the caller owns is what it was. -/
theorem frame (more : Multiset ℕ) (hp : Spec mem own p Q) :
    Spec mem (own+more) p fun a own' => ∃ o, own' = o+more ∧ Q a o := by
  intro heap rest hlive
  obtain ⟨a,heap',own',hrun,hlive',hQ⟩ := hp heap (more+rest) (by rw [hlive, add_assoc])
  exact ⟨a, heap', own'+more, hrun, by rw [hlive', add_assoc], own', rfl, hQ⟩

/-- An allocation is answered, or the supply refuses one for this. -/
theorem alloc {site : σ} {Q : Option ℕ → Multiset ℕ → Prop} (hyes : ∀ b, Q (some b) (b ::ₘ own))
    (hno : (∃ n, mem site n = false) → Q none own) : Spec mem own (Prog.alloc site) Q := by
  intro heap rest hlive
  unfold Prog.alloc
  split
  · refine ⟨_, _, heap.calls ::ₘ own, rfl, ?_, hyes heap.calls⟩
    rw [Heap.push_live, hlive, Multiset.cons_add]
  · rename_i hrefused
    exact ⟨_, _, own, rfl, hlive, hno ⟨heap.calls, Bool.eq_false_of_not_eq_true hrefused⟩⟩

/-- What is owned after an allocation. -/
theorem alloc_held {site : σ} : Spec mem own (Prog.alloc site) fun p o => o = held p+own := by
  apply alloc
  · intro b
    rw [held_some, Multiset.singleton_add]
  · intro _
    rw [held_none, zero_add]

/-- An allocation that is never refused. -/
theorem alloc_given {site : σ} {Q : Option ℕ → Multiset ℕ → Prop} (hmem : ∀ n, mem site n = true)
    (hyes : ∀ b, Q (some b) (b ::ₘ own)) : Spec mem own (Prog.alloc site) Q := by
  apply alloc hyes
  rintro ⟨n,hn⟩
  rw [hmem n] at hn
  cases hn

theorem free {q : Option ℕ} {Q : Unit → Multiset ℕ → Prop} (h : Q () own) :
    Spec mem (held q+own) (Prog.free q) Q := by
  cases q with
  | none =>
    rw [held_none, zero_add]
    exact pure h
  | some b =>
    intro heap rest hlive
    have hmem : b ∈ heap.live := by
      rw [hlive, add_assoc]
      exact Multiset.mem_add.mpr (Or.inl (Multiset.mem_singleton_self b))
    refine ⟨(), heap.erase b, own, ?_, ?_, h⟩
    · exact if_pos hmem
    · rw [Heap.erase_live, hlive, held_some, add_assoc, Multiset.singleton_add, Multiset.erase_cons_head]

theorem touch {b : ℕ} {Q : Unit → Multiset ℕ → Prop} (hb : b ∈ own) (h : Q () own) :
    Spec mem own (Prog.touch b) Q := by
  intro heap rest hlive
  have hmem : b ∈ heap.live := by
    rw [hlive]
    exact Multiset.mem_add.mpr (Or.inl hb)
  exact ⟨(), heap, own, if_pos hmem, hlive, h⟩

/-- Freeing a list of pointers. -/
theorem freeAll {ps : List (Option ℕ)} {Q : Unit → Multiset ℕ → Prop} (h : Q () own) :
    Spec mem (holds ps+own) (Prog.freeAll ps) Q := by
  induction ps with
  | nil =>
    rw [holds_nil, zero_add]
    exact pure h
  | cons q ps ih =>
    rw [holds_cons, add_assoc]
    exact bind (Q := fun _ own' => own' = holds ps+own) (free rfl) fun _ _ he => he ▸ ih

section Parts
variable {γ ε : Type} {parts parts' : List (γ → Prog σ (Option ε × γ))} {owns : γ → Multiset ℕ}
  {I J D E : γ → Prop} {F : ε → Prop} {c : γ}

/-- What every part keeps and owns, all of them do. -/
theorem inOrder (h : ∀ part ∈ parts, ∀ c, I c → Spec mem (owns c) (part c) (Ended owns I I F)) (hc : I c) :
    Spec mem (owns c) (Prog.inOrder parts c) (Ended owns I I F) := by
  induction parts generalizing c with
  | nil => exact pure ⟨rfl, hc, nofun, fun _ => hc⟩
  | cons part parts ih =>
    refine bind (h part (List.mem_cons_self ..) c hc) ?_
    rintro ⟨err,d⟩ own' ⟨rfl,hd,herr,-⟩
    cases err with
    | none => exact ih (fun part hpart => h part (List.mem_cons_of_mem _ hpart)) hd
    | some err => exact pure ⟨rfl, hd, herr, fun _ => hd⟩

/-- Two runs of parts. -/
theorem inOrder_append (h : Spec mem (owns c) (Prog.inOrder parts c) (Ended owns I D F))
    (h' : ∀ d, I d → D d → Spec mem (owns d) (Prog.inOrder parts' d) (Ended owns J E F))
    (hJ : ∀ d, I d → J d) :
    Spec mem (owns c) (Prog.inOrder (parts ++ parts') c) (Ended owns J E F) := by
  intro heap rest hlive
  obtain ⟨⟨err,d⟩,heap₁,own₁,hrun,hlive₁,rfl,hI,herr,hD⟩ := h heap rest hlive
  rw [Prog.inOrder_append_run, hrun]
  cases err with
  | none => exact h' d hI (hD rfl) heap₁ rest hlive₁
  | some err =>
    exact ⟨(some err, d), heap₁, owns d, rfl, hlive₁, rfl, hJ d hI, herr, nofun⟩

theorem inOrder_single {part : γ → Prog σ (Option ε × γ)}
    (h : Spec mem (owns c) (part c) (Ended owns I D F)) :
    Spec mem (owns c) (Prog.inOrder [part] c) (Ended owns I D F) := by
  apply bind h
  rintro ⟨err,d⟩ own' ⟨rfl,hI,herr,hD⟩
  cases err with
  | none => exact pure ⟨rfl, hI, herr, fun _ => hD rfl⟩
  | some err => exact pure ⟨rfl, hI, herr, nofun⟩

end Parts

/-- The first program run on a heap with nothing else in it. -/
theorem run (hp : Spec mem 0 p Q) (h : Heap) (hempty : h.live = 0) :
    ∃ a h', p mem h = some (a, h') ∧ Q a h'.live := by
  obtain ⟨a,h',own',hrun,hlive,hQ⟩ := hp h 0 (by rw [hempty, add_zero])
  rw [add_zero] at hlive
  exact ⟨a, h', hrun, hlive ▸ hQ⟩

end Spec

end Ownership
