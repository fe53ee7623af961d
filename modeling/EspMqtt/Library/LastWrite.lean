import Mathlib.Logic.Function.Basic
import Mathlib.Data.List.Basic
import Mathlib.Tactic

/-! A file of registers and steps that each write one register.  What a register holds in the
end is what the last step for it wrote. -/
namespace LastWrite
variable {σ κ ν : Type*} [DecidableEq κ] (key : σ → κ) (write : σ → (κ → ν) → ν)

/-- The file after a sequence of steps; what a step writes may depend on the file. -/
def run (file : κ → ν) (steps : List σ) : κ → ν :=
  steps.foldl (fun file s => Function.update file (key s) (write s file)) file

variable {key write} {file : κ → ν}

theorem run_append (a b : List σ) : run key write file (a ++ b) = run key write (run key write file a) b := by
  rw [run, List.foldl_append]
  rfl

theorem run_untouched {steps : List σ} {k : κ} (h : ∀ s ∈ steps, key s ≠ k) : run key write file steps k = file k := by
  induction steps generalizing file with
  | nil => rfl
  | cons s steps ih =>
    obtain ⟨hs,hsteps⟩ := List.forall_mem_cons.mp h
    calc run key write file (s :: steps) k
        = run key write (Function.update file (key s) (write s file)) steps k := rfl
      _ = Function.update file (key s) (write s file) k := ih hsteps
      _ = file k := Function.update_of_ne (Ne.symm hs) _ _

/-- What the last step for a register writes is what it holds in the end. -/
theorem run_last {a b : List σ} {s : σ} (hlast : ∀ s' ∈ b, key s' ≠ key s) :
    run key write file (a ++ s :: b) (key s) = write s (run key write file a) := by
  rw [run_append]
  calc run key write (run key write file a) (s :: b) (key s)
      = run key write (Function.update (run key write file a) (key s) (write s (run key write file a))) b (key s) := rfl
    _ = Function.update (run key write file a) (key s) (write s (run key write file a)) (key s) :=
        run_untouched hlast
    _ = write s (run key write file a) := Function.update_self ..

/-- A register that is written at all is written a last time. -/
theorem exists_last {k : κ} : ∀ {steps : List σ}, (∃ s ∈ steps, key s = k) →
    ∃ a s b, steps = a ++ s :: b ∧ key s = k ∧ ∀ s' ∈ b, key s' ≠ k
  | [], h => by simp at h
  | s :: steps, h => by
    by_cases hlater : ∃ s' ∈ steps, key s' = k
    · obtain ⟨a,s',b,rfl,hk,hlast⟩ := exists_last hlater
      exact ⟨s :: a, s', b, rfl, hk, hlast⟩
    · have hs : key s = k := by
        obtain ⟨s',hs',hk⟩ := h
        rcases List.mem_cons.mp hs' with rfl | hs'
        · exact hk
        · exact absurd ⟨s', hs', hk⟩ hlater
      exact ⟨[], s, steps, rfl, hs, fun s' hs' hk => hlater ⟨s', hs', hk⟩⟩

/-- The file is what it was exactly when every last write writes what was there. -/
theorem run_eq_iff {steps : List σ} : run key write file steps = file ↔
    ∀ a s b, steps = a ++ s :: b → (∀ s' ∈ b, key s' ≠ key s) → write s (run key write file a) = file (key s) := by
  constructor
  · rintro h a s b rfl hlast
    have hfinal : run key write file (a ++ s :: b) (key s) = write s (run key write file a) := run_last hlast
    rw [← hfinal, h]
  · intro h
    funext k
    by_cases htouched : ∃ s ∈ steps, key s = k
    · obtain ⟨a,s,b,rfl,rfl,hlast⟩ := exists_last htouched
      rw [run_last hlast]
      exact h a s b rfl hlast
    · exact run_untouched fun s hs hk => htouched ⟨s, hs, hk⟩

end LastWrite
