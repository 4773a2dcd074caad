/-
Machines: states and actions that a state may or may not allow. A run may be restricted to actions that meet
a condition in the state they are taken in; what one step preserves holds in every state such runs reach.
-/
import Mathlib.Tactic.SplitIfs

namespace Accelerator.Interact

/-- A machine: the state after an action, if the state allows it. -/
structure Machine (σ α : Type) where
  step : σ → α → Option σ

namespace Machine

section Runs

variable {σ α : Type} (M : Machine σ α)

/-- The states that actions lead to from `s₀` when each meets the condition. -/
inductive Reach (P : σ → α → Prop) (s₀ : σ) : σ → Prop
  | init : Reach P s₀ s₀
  | step {s s' : σ} {a : α} : Reach P s₀ s → P s a → M.step s a = some s' → Reach P s₀ s'

/-- The state after a list of actions, as long as each passes a test. -/
def runIf (p : σ → α → Bool) : σ → List α → Option σ
  | s, [] => some s
  | s, a :: as => if p s a then (M.step s a).bind fun s' => runIf p s' as else none

variable {M} {P : σ → α → Prop} {s₀ s : σ}

theorem Reach.invariant {I : σ → Prop} (h : M.Reach P s₀ s) (h₀ : I s₀)
    (hstep : ∀ s a s', I s → P s a → M.step s a = some s' → I s') : I s := by
  induction h with
  | init => exact h₀
  | step _ hP hs ih => exact hstep _ _ _ ih hP hs

/-- A run may be taken to meet what an invariant adds to its condition. -/
theorem Reach.mono_of_invariant {I : σ → Prop} {Q : σ → α → Prop} (h : M.Reach P s₀ s) (h₀ : I s₀)
    (hstep : ∀ s a s', I s → P s a → M.step s a = some s' → I s') (hPQ : ∀ s a, I s → P s a → Q s a) :
    M.Reach Q s₀ s := by
  induction h with
  | init => exact .init
  | step h hP hs ih => exact .step ih (hPQ _ _ (h.invariant h₀ hstep) hP) hs

theorem Reach.mono {Q : σ → α → Prop} (h : M.Reach P s₀ s) (hPQ : ∀ s a, P s a → Q s a) : M.Reach Q s₀ s :=
  h.mono_of_invariant (I := fun _ => True) trivial (fun _ _ _ _ _ _ => trivial) fun s a _ => hPQ s a

theorem reach_of_runIf {p : σ → α → Bool} {s' : σ} {as : List α} (h : M.Reach (fun s a => p s a = true) s₀ s)
    (hr : M.runIf p s as = some s') : M.Reach (fun s a => p s a = true) s₀ s' := by
  induction as generalizing s with
  | nil =>
    cases hr
    exact h
  | cons a as ih =>
    rw [runIf] at hr
    split_ifs at hr with hp
    obtain ⟨s₁, hs, hr⟩ := Option.bind_eq_some_iff.1 hr
    exact ih (h.step hp hs) hr

end Runs

end Machine

end Accelerator.Interact
