/-
Systems of processes over one shared world. Any number of copies of a process, indexed by `ι`, take
turns in any order; each step of a thread is a step of the process in the shared environment, and
every thread keeps an account of its own events. `project` turns a run of the system into a run of
each of its threads in an environment that knows only that thread's account, as long as a relation
between the world and the accounts justifies every reply the world gives. The relation may count on
what `ok` says of the calls the threads make.
-/
import Accelerator.Interact.Process
import Mathlib.Logic.Function.Basic

namespace Accelerator.Interact

section System

variable {σ Op Note ω ι γ : Type} {Res : Op → Type}

/-- The shared environment of one thread, which also keeps the thread's account. -/
def shared (next : γ → Event σ Op Res Note → γ) (env : ι → Env σ Op Res Note ω) (i : ι) :
    Env σ Op Res Note (ω × γ) where
  step s g o r g' := (env i).step s g.1 o r g'.1 ∧ g'.2 = next g.2 (.call s o r)
  note s g n := ((env i).note s g.1 n, next g.2 (.note s n))

/-- A system state: the world and the threads. -/
structure System (σ Op : Type) (Res : Op → Type) (Note ω ι γ : Type) where
  world : ω
  thread : ι → Conf σ Op Res Note γ

namespace System

variable [DecidableEq ι]

/-- The thread `i` as a process in the shared environment. -/
def view (S : System σ Op Res Note ω ι γ) (i : ι) :
    Conf σ Op Res Note (ω × γ) :=
  ⟨(S.thread i).state, (S.world, (S.thread i).env), (S.thread i).stage⟩

/-- The system after thread `i` moved to `c`. -/
def put (S : System σ Op Res Note ω ι γ) (i : ι)
    (c : Conf σ Op Res Note (ω × γ)) : System σ Op Res Note ω ι γ :=
  ⟨c.env.1, Function.update S.thread i ⟨c.state, c.env.2, c.stage⟩⟩

/-- The accounts of the threads. -/
def accounts (S : System σ Op Res Note ω ι γ) (i : ι) : γ := (S.thread i).env

variable (next : γ → Event σ Op Res Note → γ) (env : ι → Env σ Op Res Note ω) (P : Process σ Op Res Note)

/-- One step of the system: one step of one thread. -/
inductive Step : System σ Op Res Note ω ι γ → System σ Op Res Note ω ι γ → Prop where
  | thread (S : System σ Op Res Note ω ι γ) (i : ι)
      {c : Conf σ Op Res Note (ω × γ)} :
      Process.Step (shared next env i) P (S.view i) c → Step S (S.put i c)

/-- The system in which every thread is about to begin its first round. -/
def start (w₀ : ω) (s₀ : σ) (g₀ : γ) : System σ Op Res Note ω ι γ := ⟨w₀, fun _ => ⟨s₀, g₀, .idle⟩⟩

/-- The system in which every thread is at the first call of a program of its own. -/
def launch (p : ι → Prog σ Op Res Note Bool) (w₀ : ω) (s₀ : σ) (g₀ : γ) : System σ Op Res Note ω ι γ :=
  ⟨w₀, fun i => ⟨s₀, g₀, .first (p i)⟩⟩

/-- Reachability from the start. -/
def Reach (w₀ : ω) (s₀ : σ) (g₀ : γ) (S : System σ Op Res Note ω ι γ) : Prop :=
  Relation.ReflTransGen (Step next env P) (start w₀ s₀ g₀) S

/-! ## Projection to one thread -/

/-- A relation between a world and the accounts of the threads that holds from the start on, is kept
by notes and by replies to calls that are `ok`, and justifies every reply by what `allow` says of the
thread's own account. -/
structure Justifies (ok : σ → γ → Op → Prop) (allow : γ → (o : Op) → Res o → Prop) (w₀ : ω) (g₀ : γ)
    (Rel : ω → (ι → γ) → Prop) : Prop where
  start : Rel w₀ fun _ => g₀
  note : ∀ {w H}, Rel w H → ∀ i s n, Rel ((env i).note s w n) (Function.update H i (next (H i) (.note s n)))
  reply : ∀ {w H}, Rel w H → ∀ {i s o r w'}, ok s (H i) o → (env i).step s w o r w' →
    allow (H i) o r ∧ Rel w' (Function.update H i (next (H i) (.call s o r)))

variable {next env P} {ok : σ → γ → Op → Prop} {allow : γ → (o : Op) → Res o → Prop} {w₀ : ω} {g₀ : γ}
  {Rel : ω → (ι → γ) → Prop}

theorem settle_shared {α : Type} (J : Justifies next env ok allow w₀ g₀ Rel) {i : ι} (p : Prog σ Op Res Note α)
    (s : σ) (w : ω) (H : ι → γ) (h : Rel w H) :
    let c := p.settle (shared next env i) s (w, H i)
    Rel c.2.1.1 (Function.update H i c.2.1.2) ∧
      p.settle (account next allow) s (H i) = (c.1, c.2.1.2, c.2.2) := by
  induction p generalizing s w H with
  | pure a => exact ⟨by simpa [Prog.settle] using h, rfl⟩
  | get k ih => exact ih s s w H h
  | set s' k ih => exact ih s' w H h
  | note n k ih =>
    have := ih s _ _ (J.note h i s n)
    simp only [Function.update_self, Function.update_idem] at this
    exact this
  | call o k ih => exact ⟨by simpa [Prog.settle] using h, rfl⟩

theorem leave_shared (J : Justifies next env ok allow w₀ g₀ Rel) (i : ι) (p : Prog σ Op Res Note Unit) (s : σ)
    (w : ω) (H : ι → γ) (h : Rel w H) :
    let c := Process.leave (shared next env i) p s (w, H i)
    Rel c.env.1 (Function.update H i c.env.2) ∧
      Process.leave (account next allow) p s (H i) = ⟨c.state, c.env.2, c.stage⟩ := by
  obtain ⟨hr, hs⟩ := settle_shared J p s w H h
  unfold Process.leave
  rw [hs]
  rcases hp : p.settle (shared next env i) s (w, H i) with ⟨s', ⟨w', h'⟩, hd⟩
  rw [hp] at hr
  cases hd <;> exact ⟨hr, rfl⟩

theorem enter_shared (J : Justifies next env ok allow w₀ g₀ Rel) (i : ι) (p : Prog σ Op Res Note Bool) (s : σ)
    (w : ω) (H : ι → γ) (h : Rel w H) :
    let c := Process.enter (shared next env i) P p s (w, H i)
    Rel c.env.1 (Function.update H i c.env.2) ∧
      Process.enter (account next allow) P p s (H i) = ⟨c.state, c.env.2, c.stage⟩ := by
  obtain ⟨hr, hs⟩ := settle_shared J p s w H h
  unfold Process.enter
  rw [hs]
  rcases hp : p.settle (shared next env i) s (w, H i) with ⟨s', ⟨w', h'⟩, hd⟩
  rw [hp] at hr
  cases hd with
  | wait o k => exact ⟨hr, rfl⟩
  | done b =>
    cases b with
    | true => exact ⟨hr, rfl⟩
    | false =>
      have := leave_shared J i P.cleanup s' w' (Function.update H i h') hr
      simpa only [Function.update_self, Function.update_idem] using this

/-- One step of the system keeps the relation and is a step of the thread that moved. -/
theorem step_project (J : Justifies next env ok allow w₀ g₀ Rel) {S T : System σ Op Res Note ω ι γ}
    (hs : Step next env P S T) (h : Rel S.world S.accounts)
    (hok : ∀ i o, (S.thread i).pending = some o → ok (S.thread i).state (S.thread i).env o) :
    Rel T.world T.accounts ∧ ∀ j, T.thread j = S.thread j ∨
      Process.Step (account next allow) P (S.thread j) (T.thread j) := by
  cases hs with | @thread i c₀ hp => ?_
  generalize hv : S.view i = v at hp
  have hst : (S.thread i).state = v.state := by rw [← hv]; rfl
  have hsg : (S.thread i).stage = v.stage := by rw [← hv]; rfl
  have hen : v.env = (S.world, S.accounts i) := by rw [← hv]; rfl
  have key : ∀ c : Conf σ Op Res Note (ω × γ),
      Rel c.env.1 (Function.update S.accounts i c.env.2) →
      Process.Step (account next allow) P (S.thread i) ⟨c.state, c.env.2, c.stage⟩ →
      Rel (S.put i c).world (S.put i c).accounts ∧ ∀ j, (S.put i c).thread j = S.thread j ∨
        Process.Step (account next allow) P (S.thread j) ((S.put i c).thread j) := by
    intro c hr hc
    have hh : (S.put i c).accounts = Function.update S.accounts i c.env.2 := by
      funext j
      by_cases hj : j = i
      · subst hj; simp [accounts, put]
      · simp [accounts, put, hj]
    refine ⟨by rw [hh]; exact hr, fun j => ?_⟩
    by_cases hj : j = i
    · subst hj; right; simpa [put] using hc
    · left; simp [put, hj]
  have hthread : S.thread i = ⟨v.state, S.accounts i, v.stage⟩ := by rw [← hst, ← hsg]; rfl
  have hcall : ∀ o, Conf.pending ⟨v.state, S.accounts i, v.stage⟩ = some o → ok v.state (S.accounts i) o := by
    intro o ho
    have := hok i o (by rw [hthread]; exact ho)
    rwa [hst] at this
  cases hp with
  | round s g =>
    simp only at hen; subst hen
    obtain ⟨hr, he⟩ := enter_shared (P := P) J i P.body s S.world S.accounts h
    refine key _ hr ?_
    rw [hthread, ← he]
    exact .round _ _
  | @reply s g g' o k r hr =>
    simp only at hen; subst hen
    obtain ⟨w', h'⟩ := g'
    obtain ⟨hw, rfl⟩ := hr
    obtain ⟨ha, hrel⟩ := J.reply h (hcall o rfl) hw
    have := enter_shared (P := P) J i (k r) s w' _ hrel
    simp only [Function.update_self, Function.update_idem] at this
    obtain ⟨hr', he⟩ := this
    refine key _ hr' ?_
    rw [hthread, ← he]
    exact .reply ⟨ha, rfl⟩
  | @closing s g g' o k r hr =>
    simp only at hen; subst hen
    obtain ⟨w', h'⟩ := g'
    obtain ⟨hw, rfl⟩ := hr
    obtain ⟨ha, hrel⟩ := J.reply h (hcall o rfl) hw
    have := leave_shared J i (k r) s w' _ hrel
    simp only [Function.update_self, Function.update_idem] at this
    obtain ⟨hr', he⟩ := this
    refine key _ hr' ?_
    rw [hthread, ← he]
    exact .closing ⟨ha, rfl⟩

/-- Steps of the system keep the relation, and are steps of every thread by itself in the environment
that knows only its own account, in which its calls are `ok`. -/
theorem steps_project (J : Justifies next env ok allow w₀ g₀ Rel) {S T : System σ Op Res Note ω ι γ}
    (h : Relation.ReflTransGen (Step next env P) S T) (hS : Rel S.world S.accounts)
    (hok : ∀ i c, Relation.ReflTransGen (Process.Step (account next allow) P) (S.thread i) c →
      ∀ o, c.pending = some o → ok c.state c.env o) :
    Rel T.world T.accounts ∧
      ∀ i, Relation.ReflTransGen (Process.Step (account next allow) P) (S.thread i) (T.thread i) := by
  induction h with
  | refl => exact ⟨hS, fun _ => .refl⟩
  | tail _ hs ih =>
    obtain ⟨hr, ht⟩ := step_project J hs ih.1 fun i => hok i _ (ih.2 i)
    refine ⟨hr, fun i => ?_⟩
    rcases ht i with he | he
    · rw [he]; exact ih.2 i
    · exact (ih.2 i).tail he

/-- In every reachable system state the relation holds, and every thread is in a state it can
reach by itself in the environment that knows only its own account. -/
theorem project (J : Justifies next env ok allow w₀ g₀ Rel) {s₀ : σ} {S : System σ Op Res Note ω ι γ}
    (h : Reach next env P w₀ s₀ g₀ S)
    (hok : ∀ c, Process.Reach (account next allow) P s₀ g₀ c → ∀ o, c.pending = some o → ok c.state c.env o) :
    Rel S.world S.accounts ∧ ∀ i, Process.Reach (account next allow) P s₀ g₀ (S.thread i) :=
  steps_project J h J.start fun _ => hok

/-! ## Scripts -/

/-- The environments in which a reply decides the world after it, or is impossible. -/
def replies (answer : ι → ω → (o : Op) → Res o → Option ω) (note : ω → Note → ω) (i : ι) : Env σ Op Res Note ω where
  step _ w o r w' := answer i w o r = some w'
  note _ w n := note w n

section Script

variable (next : γ → Event σ Op Res Note → γ) (answer : ι → ω → (o : Op) → Res o → Option ω)
  (note : ω → Note → ω) (P : Process σ Op Res Note)

/-- A thread that is idle begins its next round. -/
def wake (S : System σ Op Res Note ω ι γ) (i : ι) : System σ Op Res Note ω ι γ :=
  match (S.thread i).stage with
  | .idle => S.put i (Process.enter (shared next (replies answer note) i) P P.body (S.view i).state (S.view i).env)
  | _ => S

/-- Thread `i` is given a reply to its pending call, if there is one that is possible. -/
def tell (S : System σ Op Res Note ω ι γ) (i : ι) (reply : ω → (o : Op) → Option (Res o)) :
    Option (System σ Op Res Note ω ι γ) :=
  match (S.thread i).stage with
  | .busy o k => do
    let r ← reply S.world o
    let w ← answer i S.world o r
    return S.put i (Process.enter (shared next (replies answer note) i) P (k r) (S.thread i).state
      (w, next (S.thread i).env (.call (S.thread i).state o r)))
  | .closing o k => do
    let r ← reply S.world o
    let w ← answer i S.world o r
    return S.put i (Process.leave (shared next (replies answer note) i) (k r) (S.thread i).state
      (w, next (S.thread i).env (.call (S.thread i).state o r)))
  | _ => none

/-- The system after a list of replies, each to the next call of a thread; an impossible one is left
out. -/
def play (S : System σ Op Res Note ω ι γ) (script : List (ι × (ω → (o : Op) → Option (Res o)))) :
    System σ Op Res Note ω ι γ :=
  script.foldl (fun S e => ((S.wake next answer note P e.1).tell next answer note P e.1 e.2).getD S) S

variable {next answer note P} {S : System σ Op Res Note ω ι γ}

theorem steps_wake (S : System σ Op Res Note ω ι γ) (i : ι) :
    Relation.ReflTransGen (Step next (replies answer note) P) S (S.wake next answer note P i) := by
  unfold wake
  split
  · rename_i hs
    refine .single (.thread S i ?_)
    have : S.view i = ⟨(S.view i).state, (S.view i).env, .idle⟩ := by rw [← hs]; rfl
    rw [this]
    exact .round _ _
  · exact .refl

theorem step_tell {T : System σ Op Res Note ω ι γ} {i : ι} {reply : ω → (o : Op) → Option (Res o)}
    (ht : S.tell next answer note P i reply = some T) : Step next (replies answer note) P S T := by
  unfold tell at ht
  split at ht
  · rename_i o k hs
    obtain ⟨r, -, ht⟩ := Option.bind_eq_some_iff.1 ht
    obtain ⟨w, hw, ⟨⟩⟩ := Option.bind_eq_some_iff.1 ht
    refine .thread S i ?_
    have : S.view i = ⟨(S.thread i).state, (S.world, (S.thread i).env), .busy o k⟩ := by rw [← hs]; rfl
    rw [this]
    exact .reply ⟨hw, rfl⟩
  · rename_i o k hs
    obtain ⟨r, -, ht⟩ := Option.bind_eq_some_iff.1 ht
    obtain ⟨w, hw, ⟨⟩⟩ := Option.bind_eq_some_iff.1 ht
    refine .thread S i ?_
    have : S.view i = ⟨(S.thread i).state, (S.world, (S.thread i).env), .closing o k⟩ := by rw [← hs]; rfl
    rw [this]
    exact .closing ⟨hw, rfl⟩
  · cases ht

/-- A thread that begins a round leaves the others alone. -/
theorem wake_thread (S : System σ Op Res Note ω ι γ) {i j : ι} (hj : j ≠ i) :
    (S.wake next answer note P i).thread j = S.thread j := by
  unfold wake
  split
  · exact Function.update_of_ne hj _ _
  · rfl

/-- So does a thread that is given a reply. -/
theorem tell_thread {T : System σ Op Res Note ω ι γ} {i j : ι} {reply : ω → (o : Op) → Option (Res o)}
    (ht : S.tell next answer note P i reply = some T) (hj : j ≠ i) : T.thread j = S.thread j := by
  unfold tell at ht
  split at ht
  · obtain ⟨r, -, ht⟩ := Option.bind_eq_some_iff.1 ht
    obtain ⟨w, -, ⟨⟩⟩ := Option.bind_eq_some_iff.1 ht
    exact Function.update_of_ne hj _ _
  · obtain ⟨r, -, ht⟩ := Option.bind_eq_some_iff.1 ht
    obtain ⟨w, -, ⟨⟩⟩ := Option.bind_eq_some_iff.1 ht
    exact Function.update_of_ne hj _ _
  · cases ht

/-- A script leads from a state to one that can be reached from it. -/
theorem steps_play (S : System σ Op Res Note ω ι γ) (script : List (ι × (ω → (o : Op) → Option (Res o)))) :
    Relation.ReflTransGen (Step next (replies answer note) P) S (S.play next answer note P script) := by
  induction script generalizing S with
  | nil => exact .refl
  | cons e script ih =>
    refine .trans ?_ (ih _)
    simp only
    cases ht : (S.wake next answer note P e.1).tell next answer note P e.1 e.2 with
    | none => exact .refl
    | some T => exact (steps_wake S e.1).tail (step_tell ht)

end Script

end System

end System

end Accelerator.Interact
