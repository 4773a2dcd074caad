/-
Programs that interact with an environment. A program keeps private state, emits notes that never
fail, and makes calls whose reply the environment chooses. `wp` says what holds after a program on
every reply the environment may give, and at the same time that every call it makes is permitted
where it is made; `Runs` is the relation of complete runs, and `wp_runs` connects the two.
-/
import Mathlib.Logic.Basic

namespace Accelerator.Interact

/-- A program over private state `σ`, calls `Op` with replies `Res`, and notes `Note`. -/
inductive Prog (σ Op : Type) (Res : Op → Type) (Note α : Type) where
  | pure (a : α)
  | get (k : σ → Prog σ Op Res Note α)
  | set (s : σ) (k : Prog σ Op Res Note α)
  | note (n : Note) (k : Prog σ Op Res Note α)
  | call (o : Op) (k : Res o → Prog σ Op Res Note α)

/-- An environment with state `γ`: the replies it may give to a call and what it makes of a note.
Both may depend on the private state of the program at that moment. -/
structure Env (σ Op : Type) (Res : Op → Type) (Note γ : Type) where
  step : σ → γ → (o : Op) → Res o → γ → Prop
  note : σ → γ → Note → γ

section Basic

variable {σ Op Note α β γ : Type} {Res : Op → Type}

namespace Prog

protected def bind : Prog σ Op Res Note α → (α → Prog σ Op Res Note β) → Prog σ Op Res Note β
  | .pure a, f => f a
  | .get k, f => .get fun s => (k s).bind f
  | .set s k, f => .set s (k.bind f)
  | .note n k, f => .note n (k.bind f)
  | .call o k, f => .call o fun r => (k r).bind f

instance : Monad (Prog σ Op Res Note) where
  pure := .pure
  bind := .bind

/-- The private state. -/
def read : Prog σ Op Res Note σ := .get .pure

/-- Change the private state. -/
def modify (f : σ → σ) : Prog σ Op Res Note Unit := .get fun s => .set (f s) (.pure ())

/-- Emit a note. -/
def tell (n : Note) : Prog σ Op Res Note Unit := .note n (.pure ())

/-- Make a call and return its reply. -/
def perform (o : Op) : Prog σ Op Res Note (Res o) := .call o .pure

/-! ## What holds on every reply -/

/-- `p.wp E ok Q s g`: started in `s` and `g`, every call of `p` is made where `ok` permits it,
and whatever `E` replies, `p` ends where `Q` holds. -/
def wp (E : Env σ Op Res Note γ) (ok : σ → γ → Op → Prop) :
    Prog σ Op Res Note α → (α → σ → γ → Prop) → σ → γ → Prop
  | .pure a, Q, s, g => Q a s g
  | .get k, Q, s, g => (k s).wp E ok Q s g
  | .set s' k, Q, _, g => k.wp E ok Q s' g
  | .note n k, Q, s, g => k.wp E ok Q s (E.note s g n)
  | .call o k, Q, s, g => ok s g o ∧ ∀ r g', E.step s g o r g' → (k r).wp E ok Q s g'

variable {E : Env σ Op Res Note γ} {ok : σ → γ → Op → Prop}

@[simp] theorem wp_pure (a : α) (Q : α → σ → γ → Prop) (s : σ) (g : γ) :
    (pure a : Prog σ Op Res Note α).wp E ok Q s g ↔ Q a s g := Iff.rfl

@[simp] theorem wp_read (Q : σ → σ → γ → Prop) (s : σ) (g : γ) :
    (read : Prog σ Op Res Note σ).wp E ok Q s g ↔ Q s s g := Iff.rfl

@[simp] theorem wp_modify (f : σ → σ) (Q : Unit → σ → γ → Prop) (s : σ) (g : γ) :
    (modify f : Prog σ Op Res Note Unit).wp E ok Q s g ↔ Q () (f s) g := Iff.rfl

@[simp] theorem wp_tell (n : Note) (Q : Unit → σ → γ → Prop) (s : σ) (g : γ) :
    (tell n : Prog σ Op Res Note Unit).wp E ok Q s g ↔ Q () s (E.note s g n) := Iff.rfl

@[simp] theorem wp_perform (o : Op) (Q : Res o → σ → γ → Prop) (s : σ) (g : γ) :
    (perform o : Prog σ Op Res Note (Res o)).wp E ok Q s g ↔
      ok s g o ∧ ∀ r g', E.step s g o r g' → Q r s g' := Iff.rfl

@[simp] theorem wp_bind (p : Prog σ Op Res Note α) (f : α → Prog σ Op Res Note β)
    (Q : β → σ → γ → Prop) (s : σ) (g : γ) :
    (p >>= f).wp E ok Q s g ↔ p.wp E ok (fun a s g => (f a).wp E ok Q s g) s g := by
  show (p.bind f).wp E ok Q s g ↔ _
  induction p generalizing s g with
  | pure a => rfl
  | get k ih => exact ih s s g
  | set s' k ih => exact ih s' g
  | note n k ih => exact ih s (E.note s g n)
  | call o k ih =>
    refine and_congr_right fun _ => forall_congr' fun r => forall_congr' fun g' => ?_
    exact imp_congr_right fun _ => ih r s g'

/-- A program establishes everything its postcondition gives. -/
theorem wp_mono {p : Prog σ Op Res Note α} {Q Q' : α → σ → γ → Prop} {s : σ} {g : γ}
    (h : p.wp E ok Q s g) (hQ : ∀ a s g, Q a s g → Q' a s g) : p.wp E ok Q' s g := by
  induction p generalizing s g with
  | pure a => exact hQ a s g h
  | get k ih => exact ih s h
  | set s' k ih => exact ih h
  | note n k ih => exact ih h
  | call o k ih => exact ⟨h.1, fun r g' hr => ih r (h.2 r g' hr)⟩

/-- What is permitted may be relaxed. -/
theorem wp_permit {ok' : σ → γ → Op → Prop} {p : Prog σ Op Res Note α} {Q : α → σ → γ → Prop} {s : σ} {g : γ}
    (h : p.wp E ok Q s g) (hok : ∀ s g o, ok s g o → ok' s g o) : p.wp E ok' Q s g := by
  induction p generalizing s g with
  | pure a => exact h
  | get k ih => exact ih s h
  | set s' k ih => exact ih h
  | note n k ih => exact ih h
  | call o k ih => exact ⟨hok s g o h.1, fun r g' hr => ih r (h.2 r g' hr)⟩

/-! ## What holds on some replies -/

/-- `p.may E Q s g`: started in `s` and `g`, there are replies of `E` on which `p` ends where `Q` holds. -/
def may (E : Env σ Op Res Note γ) : Prog σ Op Res Note α → (α → σ → γ → Prop) → σ → γ → Prop
  | .pure a, Q, s, g => Q a s g
  | .get k, Q, s, g => (k s).may E Q s g
  | .set s' k, Q, _, g => k.may E Q s' g
  | .note n k, Q, s, g => k.may E Q s (E.note s g n)
  | .call o k, Q, s, g => ∃ r g', E.step s g o r g' ∧ (k r).may E Q s g'

@[simp] theorem may_read (Q : σ → σ → γ → Prop) (s : σ) (g : γ) :
    (read : Prog σ Op Res Note σ).may E Q s g ↔ Q s s g := Iff.rfl

@[simp] theorem may_modify (f : σ → σ) (Q : Unit → σ → γ → Prop) (s : σ) (g : γ) :
    (modify f : Prog σ Op Res Note Unit).may E Q s g ↔ Q () (f s) g := Iff.rfl

@[simp] theorem may_bind (p : Prog σ Op Res Note α) (f : α → Prog σ Op Res Note β)
    (Q : β → σ → γ → Prop) (s : σ) (g : γ) :
    (p >>= f).may E Q s g ↔ p.may E (fun a s g => (f a).may E Q s g) s g := by
  show (p.bind f).may E Q s g ↔ _
  induction p generalizing s g with
  | pure a => rfl
  | get k ih => exact ih s s g
  | set s' k ih => exact ih s' g
  | note n k ih => exact ih s (E.note s g n)
  | call o k ih =>
    refine exists_congr fun r => exists_congr fun g' => ?_
    exact and_congr_right fun _ => ih r s g'

theorem may_mono {p : Prog σ Op Res Note α} {Q Q' : α → σ → γ → Prop} {s : σ} {g : γ}
    (h : p.may E Q s g) (hQ : ∀ a s g, Q a s g → Q' a s g) : p.may E Q' s g := by
  induction p generalizing s g with
  | pure a => exact hQ a s g h
  | get k ih => exact ih s h
  | set s' k ih => exact ih h
  | note n k ih => exact ih h
  | call o k ih =>
    obtain ⟨r, g', hr, h⟩ := h
    exact ⟨r, g', hr, ih r h⟩

/-! ## Whatever is replied -/

/-- The environment that may reply anything. -/
def anyReply : Env σ Op Res Note Unit where
  step _ _ _ _ _ := True
  note _ _ _ := ()

/-- `p.always Q s`: started in `s`, `p` ends where `Q` holds, on any replies at all. -/
def always (Q : α → σ → Prop) (p : Prog σ Op Res Note α) (s : σ) : Prop :=
  p.wp anyReply (fun _ _ _ => True) (fun a s _ => Q a s) s ()

theorem always_bind (p : Prog σ Op Res Note α) (f : α → Prog σ Op Res Note β) (Q : β → σ → Prop) (s : σ) :
    (p >>= f).always Q s ↔ p.always (fun a s => (f a).always Q s) s := wp_bind p f _ s ()

theorem always_read {f : σ → Prog σ Op Res Note α} {Q : α → σ → Prop} {s : σ} :
    (read >>= f).always Q s ↔ (f s).always Q s := Iff.rfl

theorem always_modify {f : σ → σ} {k : Unit → Prog σ Op Res Note α} {Q : α → σ → Prop} {s : σ} :
    (modify f >>= k).always Q s ↔ (k ()).always Q (f s) := Iff.rfl

theorem always_mono {p : Prog σ Op Res Note α} {Q Q' : α → σ → Prop} {s : σ} (h : p.always Q s)
    (hQ : ∀ a s, Q a s → Q' a s) : p.always Q' s := wp_mono h fun a s _ => hQ a s

/-- What holds on any replies holds in any environment, besides whatever else does. -/
theorem wp_always {p : Prog σ Op Res Note α} {Q : α → σ → Prop} {Q' : α → σ → γ → Prop} {s : σ} {g : γ}
    (h : p.wp E ok Q' s g) (ha : p.always Q s) : p.wp E ok (fun a s g => Q' a s g ∧ Q a s) s g := by
  induction p generalizing s g with
  | pure a => exact ⟨h, ha⟩
  | get k ih => exact ih s h ha
  | set s' k ih => exact ih h ha
  | note n k ih => exact ih h ha
  | call o k ih => exact ⟨h.1, fun r g' hr => ih r (h.2 r g' hr) (ha.2 r () trivial)⟩

/-! ## Footprints -/

/-- `p.Acts ok tells I s`: started in `s`, `p` makes only calls that `ok` permits and emits only notes that `tells`
permits, and `I` holds of its state at each call and at its end, on any replies at all. -/
def Acts (ok : σ → Op → Prop) (tells : Note → Prop) (I : σ → Prop) : Prog σ Op Res Note α → σ → Prop
  | .pure _, s => I s
  | .get k, s => (k s).Acts ok tells I s
  | .set s' k, _ => k.Acts ok tells I s'
  | .note n k, s => tells n ∧ k.Acts ok tells I s
  | .call o k, s => (I s ∧ ok s o) ∧ ∀ r, (k r).Acts ok tells I s

/-- The same from every state with `I`. -/
def Within (ok : σ → Op → Prop) (tells : Note → Prop) (I : σ → Prop) (p : Prog σ Op Res Note α) : Prop :=
  ∀ s, I s → p.Acts ok tells I s

section Footprints

variable {ok : σ → Op → Prop} {tells : Note → Prop} {I : σ → Prop}

theorem within_pure (a : α) : (pure a : Prog σ Op Res Note α).Within ok tells I := fun _ h => h

theorem within_modify {f : σ → σ} (h : ∀ s, I s → I (f s)) :
    (modify f : Prog σ Op Res Note Unit).Within ok tells I := fun s hs => h s hs

theorem within_tell {n : Note} (h : tells n) : (tell n : Prog σ Op Res Note Unit).Within ok tells I :=
  fun _ hs => ⟨h, hs⟩

theorem within_perform {o : Op} (h : ∀ s, I s → ok s o) :
    (perform o : Prog σ Op Res Note (Res o)).Within ok tells I := fun s hs => ⟨⟨hs, h s hs⟩, fun _ => hs⟩

/-- A program that begins with reading the state. -/
theorem within_read {f : σ → Prog σ Op Res Note α} (hf : ∀ s, I s → (f s).Acts ok tells I s) :
    (read >>= f).Within ok tells I := fun s hs => hf s hs

theorem Within.bind {p : Prog σ Op Res Note α} {f : α → Prog σ Op Res Note β} (hp : p.Within ok tells I)
    (hf : ∀ a, (f a).Within ok tells I) : (p >>= f).Within ok tells I := by
  intro s hs
  have h := hp s hs
  clear hp hs
  show (p.bind f).Acts ok tells I s
  induction p generalizing s with
  | pure a => exact hf a s h
  | get k ih => exact ih s s h
  | set s' k ih => exact ih s' h
  | note n k ih => exact ⟨h.1, ih s h.2⟩
  | call o k ih => exact ⟨h.1, fun r => ih r s (h.2 r)⟩

theorem Acts.mono {ok' : σ → Op → Prop} {tells' : Note → Prop} {I' : σ → Prop} {p : Prog σ Op Res Note α} {s : σ}
    (h : p.Acts ok tells I s) (hI : ∀ s, I s → I' s) (hok : ∀ s o, I s → ok s o → ok' s o)
    (htells : ∀ n, tells n → tells' n) : p.Acts ok' tells' I' s := by
  induction p generalizing s with
  | pure a => exact hI s h
  | get k ih => exact ih s h
  | set s' k ih => exact ih h
  | note n k ih => exact ⟨htells n h.1, ih h.2⟩
  | call o k ih => exact ⟨⟨hI s h.1.1, hok s o h.1.1 h.1.2⟩, fun r => ih r (h.2 r)⟩

/-- In an environment that permits the calls a program makes, and in which they and its notes leave `J` as it is. -/
theorem Acts.wp {E : Env σ Op Res Note γ} {ok' : σ → γ → Op → Prop} {J : γ → Prop} {p : Prog σ Op Res Note α} {s : σ}
    {g : γ} {Q : α → σ → γ → Prop} (h : p.Acts ok tells I s)
    (hcall : ∀ s g o, I s → J g → ok s o → ok' s g o ∧ ∀ r g', E.step s g o r g' → J g')
    (hnote : ∀ s g n, tells n → J g → J (E.note s g n)) (hg : J g) (hQ : ∀ a s g, I s → J g → Q a s g) :
    p.wp E ok' Q s g := by
  induction p generalizing s g with
  | pure a => exact hQ a s g h hg
  | get k ih => exact ih s h hg
  | set s' k ih => exact ih h hg
  | note n k ih => exact ih h.2 (hnote s g n h.1 hg)
  | call o k ih =>
    obtain ⟨ho, hstep⟩ := hcall s g o h.1.1 hg h.1.2
    exact ⟨ho, fun r g' hr => ih r (h.2 r) (hstep r g' hr)⟩

theorem Acts.always {p : Prog σ Op Res Note α} {s : σ} (h : p.Acts ok tells I s) : p.always (fun _ => I) s :=
  h.wp (J := fun _ => True) (fun _ _ _ _ _ _ => ⟨trivial, fun _ _ _ => trivial⟩) (fun _ _ _ _ h => h) trivial
    fun _ _ _ hs _ => hs

end Footprints

/-! ## Complete runs -/

/-- `p.Runs E s g a s' g'`: some sequence of replies of `E` takes `p` from `s` and `g` to its
result `a`, ending in `s'` and `g'`. -/
inductive Runs (E : Env σ Op Res Note γ) :
    Prog σ Op Res Note α → σ → γ → α → σ → γ → Prop where
  | pure (a : α) (s : σ) (g : γ) : Runs E (.pure a) s g a s g
  | get {k : σ → Prog σ Op Res Note α} {s : σ} {g : γ} {a : α} {s' : σ} {g' : γ} :
      Runs E (k s) s g a s' g' → Runs E (.get k) s g a s' g'
  | set {t : σ} {k : Prog σ Op Res Note α} {s : σ} {g : γ} {a : α} {s' : σ} {g' : γ} :
      Runs E k t g a s' g' → Runs E (.set t k) s g a s' g'
  | note {n : Note} {k : Prog σ Op Res Note α} {s : σ} {g : γ} {a : α} {s' : σ} {g' : γ} :
      Runs E k s (E.note s g n) a s' g' → Runs E (.note n k) s g a s' g'
  | call {o : Op} {k : Res o → Prog σ Op Res Note α} {s : σ} {g : γ} {r : Res o} {g₁ : γ} {a : α}
      {s' : σ} {g' : γ} :
      E.step s g o r g₁ → Runs E (k r) s g₁ a s' g' → Runs E (.call o k) s g a s' g'

/-- What `wp` establishes holds at the end of every complete run. -/
theorem wp_runs {p : Prog σ Op Res Note α} {Q : α → σ → γ → Prop} {s : σ} {g : γ} {a : α} {s' : σ}
    {g' : γ} (hr : p.Runs E s g a s' g') (h : p.wp E ok Q s g) : Q a s' g' := by
  induction hr with
  | pure a s g => exact h
  | get _ ih => exact ih h
  | set _ ih => exact ih h
  | note _ ih => exact ih h
  | call hs _ ih => exact ih (h.2 _ _ hs)

/-- Run a program on replies that are given by a function, as long as there are any. -/
def follow (E : Env σ Op Res Note γ) (reply : σ → γ → (o : Op) → Option (Res o × γ)) :
    Prog σ Op Res Note α → σ → γ → Option (α × σ × γ)
  | .pure a, s, g => some (a, s, g)
  | .get k, s, g => (k s).follow E reply s g
  | .set s' k, _, g => k.follow E reply s' g
  | .note n k, s, g => k.follow E reply s (E.note s g n)
  | .call o k, s, g => (reply s g o).bind fun x => (k x.1).follow E reply s x.2

/-- Replies that the environment may give lead to a complete run. -/
theorem follow_runs {reply : σ → γ → (o : Op) → Option (Res o × γ)}
    (hr : ∀ s g o r g', reply s g o = some (r, g') → E.step s g o r g') {p : Prog σ Op Res Note α} {s : σ} {g : γ}
    {a : α} {s' : σ} {g' : γ} (h : p.follow E reply s g = some (a, s', g')) : p.Runs E s g a s' g' := by
  induction p generalizing s g with
  | pure b => cases h; exact .pure ..
  | get k ih => exact .get (ih s h)
  | set t k ih => exact .set (ih h)
  | note n k ih => exact .note (ih h)
  | call o k ih =>
    obtain ⟨⟨r, g₁⟩, hx, h⟩ := Option.bind_eq_some_iff.1 h
    exact .call (hr _ _ _ _ _ hx) (ih r h)

end Prog

end Basic

end Accelerator.Interact
