/-
Two accounts of the same events, kept side by side. What is known of a program by one account and by the
other is known by both together, and a system whose replies one account justifies may keep the other as
well.
-/
import Accelerator.Interact.System

namespace Accelerator.Interact

section Beside

variable {σ Op Note α γ δ ω ι : Type} {Res : Op → Type}

/-- Both accounts after an event. -/
def beside (next₁ : γ → Event σ Op Res Note → γ) (next₂ : δ → Event σ Op Res Note → δ) (g : γ × δ)
    (e : Event σ Op Res Note) : γ × δ := (next₁ g.1 e, next₂ g.2 e)

variable {next₁ : γ → Event σ Op Res Note → γ} {next₂ : δ → Event σ Op Res Note → δ}
  {allow₁ : γ → (o : Op) → Res o → Prop} {allow₂ : δ → (o : Op) → Res o → Prop}

/-- The first account says which replies are possible; the second may count on less. -/
theorem Prog.wp_beside (hallow : ∀ g d o r, allow₁ g o r → allow₂ d o r) {ok : σ → γ → Op → Prop}
    {ok' : σ → δ → Op → Prop} {Q₁ : α → σ → γ → Prop} {Q₂ : α → σ → δ → Prop} {p : Prog σ Op Res Note α} {s : σ} {g : γ}
    {d : δ} (h₁ : p.wp (account next₁ allow₁) ok Q₁ s g) (h₂ : p.wp (account next₂ allow₂) ok' Q₂ s d) :
    p.wp (account (beside next₁ next₂) fun g => allow₁ g.1) (fun s g => ok s g.1)
      (fun a s g => Q₁ a s g.1 ∧ Q₂ a s g.2) s (g, d) := by
  induction p generalizing s g d with
  | pure a => exact ⟨h₁, h₂⟩
  | get k ih => exact ih s h₁ h₂
  | set s' k ih => exact ih h₁ h₂
  | note n k ih => exact ih h₁ h₂
  | call o k ih =>
    refine ⟨h₁.1, ?_⟩
    rintro r _ ⟨ha, rfl⟩
    exact ih r (h₁.2 r _ ⟨ha, rfl⟩) (h₂.2 r _ ⟨hallow _ _ _ _ ha, rfl⟩)

/-- What justifies the replies by one account justifies them beside another. -/
theorem System.Justifies.beside [DecidableEq ι] {env : ι → Env σ Op Res Note ω} {ok : σ → γ → Op → Prop} {w₀ : ω} {g₀ : γ}
    {Rel : ω → (ι → γ) → Prop} (J : Justifies next₁ env ok allow₁ w₀ g₀ Rel)
    (next₂ : δ → Event σ Op Res Note → δ) (d₀ : δ) :
    Justifies (Interact.beside next₁ next₂) env (fun s g => ok s g.1) (fun g => allow₁ g.1) w₀ (g₀, d₀)
      fun w H => Rel w (Prod.fst ∘ H) where
  start := J.start
  note := by
    intro w H h i s n
    rw [Function.comp_update]
    exact J.note h i s n
  reply := by
    intro w H h i s o r w' ho hr
    obtain ⟨ha, h'⟩ := J.reply h ho hr
    refine ⟨ha, ?_⟩
    rw [Function.comp_update]
    exact h'

end Beside

end Accelerator.Interact
