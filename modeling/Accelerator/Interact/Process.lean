/-
Looping processes. A process runs its body again and again until the body asks to stop, and then
its cleanup. Its states are where it waits: between two rounds (`idle`), at a call of the body
(`busy`), at a call of the cleanup (`closing`), or at the end (`ended`); what a program does between
two calls belongs to the step that ended the first of them. `Reach` is reachability over these
states, and `reach_holds` carries an invariant of the rounds to every state in between.
-/
import Accelerator.Interact.Prog
import Mathlib.Logic.Relation

namespace Accelerator.Interact

section Process

variable {σ Op Note α γ : Type} {Res : Op → Type}

/-! ## Running to the next call -/

/-- Where a program stops by itself: at its result, or at a call. -/
inductive Head (σ Op : Type) (Res : Op → Type) (Note α : Type) where
  | done (a : α)
  | wait (o : Op) (k : Res o → Prog σ Op Res Note α)

/-- Run a program up to its next call, with the states it leaves. -/
def Prog.settle (E : Env σ Op Res Note γ) :
    Prog σ Op Res Note α → σ → γ → σ × γ × Head σ Op Res Note α
  | .pure a, s, g => (s, g, .done a)
  | .get k, s, g => (k s).settle E s g
  | .set s' k, _, g => k.settle E s' g
  | .note n k, s, g => k.settle E s (E.note s g n)
  | .call o k, s, g => (s, g, .wait o k)

/-- What is owed at a head of a program that is to establish `Q`. -/
def Head.Owes (E : Env σ Op Res Note γ) (ok : σ → γ → Op → Prop) (Q : α → σ → γ → Prop) :
    σ → γ → Head σ Op Res Note α → Prop
  | s, g, .done a => Q a s g
  | s, g, .wait o k => ok s g o ∧ ∀ r g', E.step s g o r g' → (k r).wp E ok Q s g'

theorem Prog.settle_read {E : Env σ Op Res Note γ} {f : σ → Prog σ Op Res Note α} {s : σ} {g : γ} :
    (Prog.read >>= f).settle E s g = (f s).settle E s g := rfl

theorem Prog.owes_settle {E : Env σ Op Res Note γ} {ok : σ → γ → Op → Prop} {Q : α → σ → γ → Prop}
    {p : Prog σ Op Res Note α} {s : σ} {g : γ} (h : p.wp E ok Q s g) :
    (p.settle E s g).2.2.Owes E ok Q (p.settle E s g).1 (p.settle E s g).2.1 := by
  induction p generalizing s g with
  | pure a => exact h
  | get k ih => exact ih s h
  | set s' k ih => exact ih h
  | note n k ih => exact ih h
  | call o k ih => exact h

/-! ## Processes -/

/-- A body that is repeated while it returns `true`, and a cleanup for when it does not. -/
structure Process (σ Op : Type) (Res : Op → Type) (Note : Type) where
  body : Prog σ Op Res Note Bool
  cleanup : Prog σ Op Res Note Unit

/-- Where a process waits. -/
inductive Stage (σ Op : Type) (Res : Op → Type) (Note : Type) where
  | idle
  | busy (o : Op) (k : Res o → Prog σ Op Res Note Bool)
  | closing (o : Op) (k : Res o → Prog σ Op Res Note Unit)
  | ended

/-- Where a program waits that begins with a call. -/
def Stage.first : Prog σ Op Res Note Bool → Stage σ Op Res Note
  | .call o k => .busy o k
  | _ => .ended

/-- A process with its private state and the state of its environment. -/
structure Conf (σ Op : Type) (Res : Op → Type) (Note γ : Type) where
  state : σ
  env : γ
  stage : Stage σ Op Res Note

/-- The call a process waits for. -/
def Conf.pending (c : Conf σ Op Res Note γ) : Option Op :=
  match c.stage with
  | .busy o _ => some o
  | .closing o _ => some o
  | _ => none

/-- A process between two rounds. -/
def Conf.isIdle (c : Conf σ Op Res Note γ) : Bool :=
  match c.stage with
  | .idle => true
  | _ => false

/-- A process in its cleanup. -/
def Conf.isClosing (c : Conf σ Op Res Note γ) : Bool :=
  match c.stage with
  | .closing _ _ => true
  | _ => false

/-- A process that has ended. -/
def Conf.isEnded (c : Conf σ Op Res Note γ) : Bool :=
  match c.stage with
  | .ended => true
  | _ => false

theorem Conf.stage_of_isEnded {c : Conf σ Op Res Note γ} (h : c.isEnded = true) : c.stage = .ended := by
  unfold Conf.isEnded at h
  split at h
  · assumption
  · cases h

namespace Process

variable (E : Env σ Op Res Note γ) (P : Process σ Op Res Note)

/-- Continue with a program of the cleanup. -/
def leave (p : Prog σ Op Res Note Unit) (s : σ) (g : γ) : Conf σ Op Res Note γ :=
  match p.settle E s g with
  | (s', g', .done _) => ⟨s', g', .ended⟩
  | (s', g', .wait o k) => ⟨s', g', .closing o k⟩

/-- Continue with a program of the body; at its end the next round or the cleanup follows. -/
def enter (p : Prog σ Op Res Note Bool) (s : σ) (g : γ) : Conf σ Op Res Note γ :=
  match p.settle E s g with
  | (s', g', .done true) => ⟨s', g', .idle⟩
  | (s', g', .done false) => leave E P.cleanup s' g'
  | (s', g', .wait o k) => ⟨s', g', .busy o k⟩

/-- The process that has no rounds. -/
def none : Process σ Op Res Note := ⟨pure false, pure ()⟩

/-- One step: a round begins, or a pending call is answered. -/
inductive Step : Conf σ Op Res Note γ → Conf σ Op Res Note γ → Prop where
  | round (s : σ) (g : γ) : Step ⟨s, g, .idle⟩ (enter E P P.body s g)
  | reply {s : σ} {g g' : γ} {o : Op} {k : Res o → Prog σ Op Res Note Bool} {r : Res o} :
      E.step s g o r g' → Step ⟨s, g, .busy o k⟩ (enter E P (k r) s g')
  | closing {s : σ} {g g' : γ} {o : Op} {k : Res o → Prog σ Op Res Note Unit} {r : Res o} :
      E.step s g o r g' → Step ⟨s, g, .closing o k⟩ (leave E (k r) s g')

/-- Reachability from a first state of the round. -/
def Reach (s₀ : σ) (g₀ : γ) (c : Conf σ Op Res Note γ) : Prop :=
  Relation.ReflTransGen (Step E P) ⟨s₀, g₀, .idle⟩ c

/-! ## Invariants -/

/-- What each stage carries, for a round invariant `Idle`, a condition `Leave` for the cleanup to
start from, a condition `Ended` for the end, and the calls `ok` permits. -/
def Holds (ok : σ → γ → Op → Prop) (Idle Leave Ended : σ → γ → Prop) : Conf σ Op Res Note γ → Prop
  | ⟨s, g, .idle⟩ => Idle s g
  | ⟨s, g, .busy o k⟩ => ok s g o ∧ ∀ r g', E.step s g o r g' →
      (k r).wp E ok (fun b s g => if b then Idle s g else Leave s g) s g'
  | ⟨s, g, .closing o k⟩ => ok s g o ∧ ∀ r g', E.step s g o r g' →
      (k r).wp E ok (fun _ s g => Ended s g) s g'
  | ⟨s, g, .ended⟩ => Ended s g

variable {E P} {ok : σ → γ → Op → Prop} {Idle Leave Ended : σ → γ → Prop}

/-- What a process that holds its invariants says of a pending call, between two rounds and at its end. -/
theorem Holds.call {c : Conf σ Op Res Note γ} (h : Holds E ok Idle Leave Ended c) {o : Op} (ho : c.pending = some o) :
    ok c.state c.env o := by
  obtain ⟨s, g, stage⟩ := c
  cases stage with
  | idle => cases ho
  | busy o' k => cases ho; exact h.1
  | closing o' k => cases ho; exact h.1
  | ended => cases ho

theorem Holds.round {c : Conf σ Op Res Note γ} (h : Holds E ok Idle Leave Ended c) (hi : c.isIdle = true) :
    Idle c.state c.env := by
  obtain ⟨s, g, stage⟩ := c
  cases stage with
  | idle => exact h
  | _ => cases hi

theorem Holds.over {c : Conf σ Op Res Note γ} (h : Holds E ok Idle Leave Ended c) (he : c.stage = .ended) :
    Ended c.state c.env := by
  obtain ⟨s, g, stage⟩ := c
  cases he
  exact h

theorem holds_leave {p : Prog σ Op Res Note Unit} {s : σ} {g : γ}
    (h : p.wp E ok (fun _ s g => Ended s g) s g) : Holds E ok Idle Leave Ended (leave E p s g) := by
  have hs := Prog.owes_settle h
  unfold leave
  split <;> rename_i heq <;> rw [heq] at hs
  · exact hs
  · exact hs

theorem holds_enter (hc : ∀ s g, Leave s g → P.cleanup.wp E ok (fun _ s g => Ended s g) s g)
    {p : Prog σ Op Res Note Bool} {s : σ} {g : γ}
    (h : p.wp E ok (fun b s g => if b then Idle s g else Leave s g) s g) :
    Holds E ok Idle Leave Ended (enter E P p s g) := by
  have hs := Prog.owes_settle h
  unfold enter
  split <;> rename_i heq <;> rw [heq] at hs
  · exact hs
  · exact holds_leave (hc _ _ hs)
  · exact hs

/-- When one round keeps the invariant whatever the environment replies, and the cleanup ends as it
should, steps keep what every stage asks. -/
theorem steps_holds (hb : ∀ s g, Idle s g →
      P.body.wp E ok (fun b s g => if b then Idle s g else Leave s g) s g)
    (hc : ∀ s g, Leave s g → P.cleanup.wp E ok (fun _ s g => Ended s g) s g)
    {c₀ c : Conf σ Op Res Note γ} (h₀ : Holds E ok Idle Leave Ended c₀)
    (h : Relation.ReflTransGen (Step E P) c₀ c) : Holds E ok Idle Leave Ended c := by
  induction h with
  | refl => exact h₀
  | tail _ hs ih =>
    cases hs with
    | round s g => exact holds_enter hc (hb s g ih)
    | reply hr => exact holds_enter hc (ih.2 _ _ hr)
    | closing hr => exact holds_leave (ih.2 _ _ hr)

/-- When the invariant also holds at the start, every reachable state carries what its stage asks. -/
theorem reach_holds (hb : ∀ s g, Idle s g →
      P.body.wp E ok (fun b s g => if b then Idle s g else Leave s g) s g)
    (hc : ∀ s g, Leave s g → P.cleanup.wp E ok (fun _ s g => Ended s g) s g)
    {s₀ : σ} {g₀ : γ} (h₀ : Idle s₀ g₀) {c : Conf σ Op Res Note γ} (h : Reach E P s₀ g₀ c) :
    Holds E ok Idle Leave Ended c := by
  have h₀ : Holds E ok Idle Leave Ended ⟨s₀, g₀, .idle⟩ := h₀
  exact steps_holds hb hc h₀ h

/-- What a body may end in, with another round to follow, can be reached. -/
theorem steps_round {Q : σ → γ → Prop} {s : σ} {g : γ} (h : P.body.may E (fun b s g => b = true ∧ Q s g) s g) :
    ∃ s' g', Relation.ReflTransGen (Step E P) ⟨s, g, .idle⟩ ⟨s', g', .idle⟩ ∧ Q s' g' := by
  have henter : ∀ {p : Prog σ Op Res Note Bool} {s : σ} {g : γ}, p.may E (fun b s g => b = true ∧ Q s g) s g →
      ∃ s' g', Relation.ReflTransGen (Step E P) (enter E P p s g) ⟨s', g', .idle⟩ ∧ Q s' g' := by
    intro p
    induction p with
    | pure b =>
      intro s g h
      obtain ⟨rfl, hQ⟩ : b = true ∧ Q s g := h
      exact ⟨s, g, .refl, hQ⟩
    | get k ih => exact fun {s g} h => ih s (s := s) (g := g) h
    | set s' k ih => exact fun {s g} h => ih (s := s') (g := g) h
    | note n k ih => exact fun {s g} h => ih (s := s) (g := E.note s g n) h
    | call o k ih =>
      intro s g h
      obtain ⟨r, g₁, hr, h⟩ := h
      obtain ⟨s', g', hs, hQ⟩ := ih r h
      exact ⟨s', g', .head (.reply hr) hs, hQ⟩
  obtain ⟨s', g', hs, hQ⟩ := henter h
  exact ⟨s', g', .head (.round s g) hs, hQ⟩

/-- In the cleanup only calls of the cleanup are pending. -/
theorem reach_cleanup (hc : ∀ s g, P.cleanup.wp E ok (fun _ _ _ => True) s g) {s₀ : σ} {g₀ : γ} {c : Conf σ Op Res Note γ}
    (h : Reach E P s₀ g₀ c) (hcl : c.isClosing = true) :
    Holds E ok (fun _ _ => True) (fun _ _ => True) (fun _ _ => True) c := by
  have henter : ∀ (p : Prog σ Op Res Note Bool) (s : σ) (g : γ), (enter E P p s g).isClosing = true →
      Holds E ok (fun _ _ => True) (fun _ _ => True) (fun _ _ => True) (enter E P p s g) := by
    intro p s g hs
    unfold enter at hs ⊢
    split at hs
    · cases hs
    · exact holds_leave (hc _ _)
    · cases hs
  induction h with
  | refl => cases hcl
  | tail _ hs ih =>
    cases hs with
    | round s g => exact henter _ _ _ hcl
    | reply hr => exact henter _ _ _ hcl
    | closing hr => exact holds_leave ((ih rfl).2 _ _ hr)

end Process

end Process

/-! ## Accounts -/

/-- What happened at a call or a note, with the private state at that moment. -/
inductive Event (σ Op : Type) (Res : Op → Type) (Note : Type) where
  | call (s : σ) (o : Op) (r : Res o)
  | note (s : σ) (n : Note)

section Account

variable {σ Op Note α γ : Type} {Res : Op → Type}

/-- The environment that keeps an account of the events, and that may reply whatever `allow` permits
by that account. -/
def account (next : γ → Event σ Op Res Note → γ) (allow : γ → (o : Op) → Res o → Prop) :
    Env σ Op Res Note γ where
  step s g o r g' := allow g o r ∧ g' = next g (.call s o r)
  note s g n := next g (.note s n)

variable {next : γ → Event σ Op Res Note → γ} {allow : γ → (o : Op) → Res o → Prop}
  {ok : σ → γ → Op → Prop}

theorem Prog.wp_perform_account (o : Op) (Q : Res o → σ → γ → Prop) (s : σ) (g : γ) :
    (Prog.perform o : Prog σ Op Res Note (Res o)).wp (account next allow) ok Q s g ↔
      ok s g o ∧ ∀ r, allow g o r → Q r s (next g (.call s o r)) := by
  rw [Prog.wp_perform]
  refine and_congr_right fun _ => forall_congr' fun r => ?_
  constructor
  · intro h ha
    exact h _ ⟨ha, rfl⟩
  · rintro h _ ⟨ha, rfl⟩
    exact h ha

section Keep

variable {R : γ → Prop} (hnote : ∀ s g n, R g → R (next g (.note s n)))

include hnote

theorem Prog.settle_keeps (p : Prog σ Op Res Note α) (s : σ) (g : γ) (h : R g) :
    R (p.settle (account next allow) s g).2.1 := by
  induction p generalizing s g with
  | pure a => exact h
  | get k ih => exact ih s s g h
  | set s' k ih => exact ih s' g h
  | note n k ih => exact ih s _ (hnote s g n h)
  | call o k ih => exact h

theorem Process.leave_keeps (p : Prog σ Op Res Note Unit) (s : σ) (g : γ) (h : R g) :
    R (leave (account next allow) p s g).env := by
  have hs : R (p.settle (account next allow) s g).2.1 := p.settle_keeps hnote s g h
  unfold leave
  split <;> rename_i heq <;> rw [heq] at hs <;> exact hs

theorem Process.enter_keeps (P : Process σ Op Res Note) (p : Prog σ Op Res Note Bool) (s : σ) (g : γ) (h : R g) :
    R (enter (account next allow) P p s g).env := by
  have hs : R (p.settle (account next allow) s g).2.1 := p.settle_keeps hnote s g h
  unfold enter
  split <;> rename_i heq <;> rw [heq] at hs
  · exact hs
  · exact leave_keeps hnote _ _ _ hs
  · exact hs

/-- A step keeps what notes keep of an account and the reply it takes keeps. -/
theorem Process.step_keeps {P : Process σ Op Res Note} {c c' : Conf σ Op Res Note γ}
    (hs : Step (account next allow) P c c') (h : R c.env)
    (hcall : ∀ o r, c.pending = some o → allow c.env o r → R (next c.env (.call c.state o r))) : R c'.env := by
  cases hs with
  | round s g => exact enter_keeps hnote P _ _ _ h
  | reply hr =>
    obtain ⟨ha, rfl⟩ := hr
    exact enter_keeps hnote P _ _ _ (hcall _ _ rfl ha)
  | closing hr =>
    obtain ⟨ha, rfl⟩ := hr
    exact leave_keeps hnote _ _ _ (hcall _ _ rfl ha)

end Keep

end Account

end Accelerator.Interact
