/-
Checkouts from a healthy server (`gateway/reset.go`). Where no call fails and no command raises a warning, `checkout`
returns the first connection it is handed, whatever the session before left on it, exactly if the baseline can be
restored: its isolation level is one of the four, and the names of its character set and its collation are plain. With
any other baseline every checkout destroys two connections.
-/
import Accelerator.Gateway.Reset

namespace Accelerator.Gateway

open Interact Strings Upstream

/-! ## The server -/

/-- A baseline that `resetConnection` sends commands for. -/
def restorable (baseline : Metadata) : Bool :=
  normalizeResetIsolation baseline.transactionIsolation ∈ isolationLevels &&
    (safeResetIdentifier baseline.characterSet && safeResetIdentifier baseline.collation)

/-- A reply without an error, after which there is no warning; an older server may not know the newer name of the
isolation level. No command leaves a database, so where the baseline has none, no session that is handed out has one. -/
def Pool.Healthy (baseline : Metadata) (g : Pool) : (o : Op) → Res o → Prop
  | .databaseConn, r => ∃ c, r = .ok c ∧ (baseline.database = [] → (g.on c).database.getD [] = [])
  | .resetExec c _, r => r = .ok () ∧ (g.on c).warnings = 0
  | .querySession c, r => (∃ row, r = .ok row) ∧ (g.on c).warnings = 0
  | .queryIsolation c name, r => (∃ level, r = .ok level ∧ (g.on c).warnings = 0) ∨
      name = .transactionIsolation ∧ ∃ state message text, r = .error ⟨.mysql 1193 state message, text⟩
  | .queryWarnings _, r => ∃ n, r = .ok n
  | _, _ => True

def healthy (baseline : Metadata) : Env ClientSession Op Res Note Pool where
  step _ g o r g' := g.Step o r g' ∧ g'.Healthy baseline o r
  note := server.note

/-- From the pool `g` on, every call of `p` is replied to, and whatever the replies, `p` ends where `Q` holds. -/
def Lands {α : Type} (baseline : Metadata) (p : M α) (Q : α → Pool → Prop) (g : Pool) : Prop :=
  ∀ s, p.wp (healthy baseline) (fun s g o => ∃ r g', (healthy baseline).step s g o r g') (fun a _ g => Q a g) s g

section Lands

variable {baseline : Metadata} {g : Pool} {c : Conn} {α β : Type}

theorem Lands.pure {a : α} {Q : α → Pool → Prop} (h : Q a g) : Lands baseline (Pure.pure a) Q g := fun _ => h

theorem Lands.bind {p : M α} {f : α → M β} {Q : β → Pool → Prop}
    (h : Lands baseline p (fun a g => Lands baseline (f a) Q g) g) : Lands baseline (p >>= f) Q g := fun s =>
  (Prog.wp_bind ..).2 (Prog.wp_mono (h s) fun _ s _ h => h s)

theorem Lands.mono {p : M α} {Q Q' : α → Pool → Prop} (h : Lands baseline p Q g) (hQ : ∀ a g, Q a g → Q' a g) :
    Lands baseline p Q' g := fun s => Prog.wp_mono (h s) fun a _ g => hQ a g

theorem Lands.call {o : Op} {Q : Res o → Pool → Prop} (hreply : ∃ r g', g.Step o r g' ∧ g'.Healthy baseline o r)
    (h : ∀ r g', g.Step o r g' → g'.Healthy baseline o r → Q r g') : Lands baseline (call o) Q g :=
  fun _ => ⟨hreply, fun r g' hs => h r g' hs.1 hs.2⟩

/-! ## The reset -/

theorem apply_warnings (x : ServerSession) (command : ResetCommand) : (command.apply x).warnings = 0 := by
  cases command <;> rfl

/-- A value that a quoted string holds as it is. -/
def ResetCommand.Plain : ResetCommand → Prop
  | .timeZone value | .sqlMode value => .chr '\\' ∉ value
  | _ => True

theorem effect_eq {x y : ServerSession} {command : ResetCommand} (h : command.Effect x y) (hplain : command.Plain)
    (hwarnings : y.warnings = 0) : y = command.apply x := by
  cases command with
  | timeZone value | sqlMode value =>
    obtain ⟨hread, h⟩ := h
    rw [hread hplain, hwarnings] at h
    exact h
  | _ =>
    have h : y = _ := h
    rw [hwarnings] at h
    exact h

theorem Pool.put_quiet (hz : (g.on c).warnings = 0) : g.put c ((g.on c).warn 0) = g := by
  rw [ServerSession.warn, ← hz]
  exact g.put_on c

theorem lands_requireNoResetWarnings (hz : (g.on c).warnings = 0) :
    Lands baseline (requireNoResetWarnings c) (fun r g' => r = .ok () ∧ g' = g) g := by
  refine .bind (.call ⟨.ok (g.on c).warnings, g, ⟨rfl, rfl⟩, _, rfl⟩ fun r g' hs hok => ?_)
  obtain ⟨n, rfl⟩ := hok
  obtain ⟨rfl, rfl⟩ := hs
  have hzero : (g'.on (Via.conn c).connection).warnings = 0 := hz
  simp only [hzero, ne_eq, not_true_eq_false, if_false]
  exact .pure ⟨rfl, rfl⟩

/-- The commands do what they say, one after the other. -/
theorem lands_runResetCommands {commands : List ResetCommand} (hplain : ∀ command ∈ commands, command.Plain) (stage : Nat) :
    Lands baseline (runResetCommands c stage commands)
      (fun r g' => r = .ok () ∧ g' = g.put c (commands.foldl ResetCommand.apply (g.on c))) g := by
  induction commands generalizing stage g with
  | nil => exact .pure ⟨rfl, (g.put_on c).symm⟩
  | cons command rest ih =>
    obtain ⟨hcommand, hrest⟩ := List.forall_mem_cons.1 hplain
    refine .bind (.call ⟨.ok (), _, ⟨_, command.effect_apply _, rfl⟩, rfl, ?_⟩ fun r g' hs hok => ?_)
    · rw [Pool.on_put]
      exact apply_warnings _ _
    obtain ⟨rfl, hwarnings⟩ := hok
    obtain ⟨x, heff, rfl⟩ := hs
    rw [Pool.on_put] at hwarnings
    obtain rfl := effect_eq heff hcommand hwarnings
    have hnext : ∀ stage, Lands baseline (runResetCommands c stage rest) (fun r g' => r = .ok () ∧
        g' = g.put c ((command :: rest).foldl ResetCommand.apply (g.on c))) (g.put c (command.apply (g.on c))) := by
      intro stage
      refine (ih hrest stage).mono ?_
      rintro r g' ⟨hr, hg⟩
      rw [Pool.on_put, Pool.put_put] at hg
      exact ⟨hr, hg⟩
    by_cases hstage : stage > 0
    · simp only [hstage, if_true]
      refine .bind ((lands_requireNoResetWarnings (by rw [Pool.on_put]; exact hwarnings)).mono ?_)
      rintro r _ ⟨rfl, rfl⟩
      exact hnext _
    · simp only [hstage, if_false]
      exact hnext _

/-- What the commands leave. -/
theorem restored_resetCommands {level : Text} {x : ServerSession}
    (hlevel : normalizeResetIsolation level = normalizeResetIsolation baseline.transactionIsolation)
    (hdatabase : baseline.database = [] → x.database.getD [] = []) :
    Restored baseline ((resetCommands baseline level).foldl ResetCommand.apply x) := by
  unfold resetCommands
  by_cases hd : baseline.database = []
  · simp only [hd, ne_eq, not_true_eq_false, if_false]
    exact ⟨⟨rfl, (hdatabase hd).trans hd.symm, rfl, rfl, rfl, rfl, hlevel⟩, rfl, rfl, rfl⟩
  · simp only [hd, ne_eq, not_false_eq_true, if_true]
    exact ⟨⟨rfl, rfl, rfl, rfl, rfl, rfl, hlevel⟩, rfl, rfl, rfl⟩

theorem lands_queryIsolation {name : IsolationVariable} {Q : Except GoError Text → Pool → Prop}
    (hanswer : ∀ level, normalizeResetIsolation level = normalizeResetIsolation (g.on c).isolation →
      Q (.ok level) (g.put c ((g.on c).warn 0)))
    (hunknown : name = .transactionIsolation → ∀ n state message text,
      Q (.error ⟨.mysql 1193 state message, text⟩) (g.put c ((g.on c).warn n))) :
    Lands baseline (call (.queryIsolation c name)) Q g := by
  refine .call ⟨.ok _, _, ⟨rfl, 0, rfl⟩, .inl ⟨_, rfl, by rw [Pool.on_put]; rfl⟩⟩ fun r g' hs hok => ?_
  rcases hok with ⟨level, rfl, hm⟩ | ⟨hname, state, message, text, rfl⟩
  · obtain ⟨hlevel, m, rfl⟩ := hs
    rw [Pool.on_put] at hm
    obtain rfl : m = 0 := hm
    exact hanswer level hlevel
  · obtain ⟨n, rfl⟩ := hs
    exact hunknown hname n state message text

theorem lands_readIsolation {Q : Except GoError Text → Pool → Prop}
    (hQ : ∀ level, normalizeResetIsolation level = normalizeResetIsolation (g.on c).isolation →
      Q (.ok level) (g.put c ((g.on c).warn 0))) : Lands baseline (readIsolation c) Q g := by
  refine .bind (lands_queryIsolation (fun level hlevel => .pure (hQ level hlevel)) fun _ n state message text => ?_)
  -- the older name is known, and the query for it leaves no warning either
  refine lands_queryIsolation (fun level hlevel => ?_) (by rintro ⟨⟩)
  rw [Pool.on_put] at hlevel ⊢
  rw [Pool.put_put]
  exact hQ level hlevel

theorem lands_verifyReset (hx : Restored baseline (g.on c)) :
    Lands baseline (verifyReset c baseline) (fun r g' => r = .ok () ∧ g' = g) g := by
  have hsame : g.put c ((g.on c).warn 0) = g := Pool.put_quiet hx.warnings
  refine .bind (.call ⟨.ok (g.on c).row, _, ⟨rfl, 0, rfl⟩, ⟨_, rfl⟩, by rw [Pool.on_put]; rfl⟩ fun r g' hs hok => ?_)
  obtain ⟨⟨row, rfl⟩, hm⟩ := hok
  obtain ⟨rfl, m, rfl⟩ := hs
  rw [Pool.on_put] at hm
  obtain rfl : m = 0 := hm
  rw [hsame]
  refine .bind (lands_readIsolation fun level hlevel => ?_)
  have hmatches : matchesBaseline baseline (g.on c).row level = true := by
    simp [matchesBaseline, ServerSession.row, hx.autocommit, hx.database, hx.charset, hx.collation, hx.sqlMode, hx.timeZone,
      hlevel, hx.isolation]
  simp only [hmatches, if_true, hsame]
  exact lands_requireNoResetWarnings hx.warnings

theorem normalizeResetIsolation_level : ∀ level ∈ isolationLevels, normalizeResetIsolation level = level := by
  decide +kernel

theorem lands_resetConnection (hr : restorable baseline = true) (htimeZone : .chr '\\' ∉ baseline.timeZone)
    (hsqlMode : .chr '\\' ∉ baseline.sqlMode) (hdatabase : baseline.database = [] → (g.on c).database.getD [] = []) :
    Lands baseline (resetConnection c baseline)
      (fun r g' => r = .ok () ∧ ∃ x, Restored baseline x ∧ g' = g.put c x) g := by
  rw [restorable, Bool.and_eq_true, Bool.and_eq_true, decide_eq_true_eq] at hr
  obtain ⟨hlevel, hcharset, hcollation⟩ := hr
  have hplain : ∀ command ∈ resetCommands baseline (normalizeResetIsolation baseline.transactionIsolation), command.Plain := by
    intro command hcommand
    simp only [resetCommands, List.mem_append, List.mem_cons, List.not_mem_nil, or_false] at hcommand
    rcases hcommand with ((rfl | rfl) | hcommand) | rfl | rfl | rfl | rfl | rfl
    case inl.inr =>
      split at hcommand
      · rw [List.mem_singleton.1 hcommand]
        trivial
      · cases hcommand
    case inr.inr.inl => exact htimeZone
    case inr.inr.inr.inl => exact hsqlMode
    all_goals trivial
  have hrestored := restored_resetCommands (normalizeResetIsolation_level _ hlevel) hdatabase
  unfold resetConnection resetIsolation
  rw [if_pos hlevel, hcharset, hcollation]
  refine .bind ((lands_runResetCommands hplain 0).mono ?_)
  rintro r _ ⟨rfl, rfl⟩
  refine (lands_verifyReset (by rwa [Pool.on_put])).mono ?_
  rintro r _ ⟨rfl, rfl⟩
  exact ⟨rfl, _, hrestored, rfl⟩

/-- With a baseline that cannot be restored no command is sent. -/
theorem resetConnection_refuses (hr : restorable baseline = false) (c : Conn) :
    ∃ e, resetConnection c baseline = Pure.pure (.error e) := by
  unfold resetConnection resetIsolation
  by_cases hlevel : normalizeResetIsolation baseline.transactionIsolation ∈ isolationLevels
  · rw [restorable, decide_eq_true hlevel, Bool.true_and, Bool.and_eq_false_iff] at hr
    rw [if_pos hlevel]
    refine ⟨_, if_pos ?_⟩
    rcases hr with hr | hr <;> simp [hr]
  · rw [if_neg hlevel]
    exact ⟨_, rfl⟩

/-! ## The checkout -/

theorem fresh_physical (l : List Conn) : ∃ n, ∀ d ∈ l, d.physical < n := by
  induction l with
  | nil => exact ⟨0, List.forall_mem_nil _⟩
  | cons d l ih =>
    obtain ⟨n, hn⟩ := ih
    refine ⟨n + d.physical + 1, List.forall_mem_cons.2 ⟨by omega, fun e he => ?_⟩⟩
    have := hn e he
    omega

/-- A connection is handed out. -/
theorem lands_databaseConn {Q : Except GoError Conn → Pool → Prop}
    (h : ∀ c x, (baseline.database = [] → x.database.getD [] = []) →
      Q (.ok c) { g.put c x with taken := c :: g.taken, held := c :: g.held }) : Lands baseline (call .databaseConn) Q g := by
  obtain ⟨n, hn⟩ := fresh_physical (g.held ++ g.discarded)
  refine .call ⟨.ok ⟨n, 0⟩, _, ⟨fun d hd => Nat.ne_of_lt (hn d hd), { g.on ⟨n, 0⟩ with database := none }, rfl⟩,
    _, rfl, fun _ => ?_⟩ fun r g' hs hok => ?_
  · exact congrArg (fun x => x.database.getD []) (Pool.on_put g ⟨n, 0⟩ _)
  · obtain ⟨c, rfl, hdatabase⟩ := hok
    obtain ⟨-, x, rfl⟩ := hs
    refine h c x fun hd => ?_
    rw [← Pool.on_put g c x]
    exact hdatabase hd

/-- On a healthy server a checkout returns the first connection it is handed, restored, and destroys none; with a baseline
that cannot be restored it fails, and two connections are destroyed. -/
theorem checkout_keeps_connections (svc : Service) (htimeZone : .chr '\\' ∉ svc.baseline.timeZone)
    (hsqlMode : .chr '\\' ∉ svc.baseline.sqlMode) (g : Pool) :
    Lands svc.baseline (checkout svc) (fun r g' => if restorable svc.baseline then
      ∃ c, r = .ok c ∧ Restored svc.baseline (g'.on c) ∧ g'.taken = c :: g.taken ∧ g'.discarded = g.discarded ∧
        g'.resetDiscards = g.resetDiscards
      else (∃ e, r = .error e) ∧ g'.discarded.length = g.discarded.length + 2 ∧
        g'.resetDiscards = g.resetDiscards + 2) g := by
  cases hr : restorable svc.baseline with
  | true =>
    refine .bind (lands_databaseConn fun c x hdatabase => .bind ?_)
    refine (lands_resetConnection hr htimeZone hsqlMode fun hd => ?_).mono ?_
    · exact (congrArg (fun x => x.database.getD []) (Pool.on_put g c x)).trans (hdatabase hd)
    · rintro r _ ⟨rfl, y, hy, rfl⟩
      exact .pure ⟨c, rfl, by rwa [Pool.on_put], rfl, rfl, rfl⟩
  | false =>
    -- one attempt, and what it leaves
    have hattempt : ∀ (e : GoError) (attempts : Nat) (g : Pool) (Q : Except GoError Conn → Pool → Prop),
        (∀ e g', g'.discarded.length = g.discarded.length + 1 → g'.resetDiscards = g.resetDiscards + 1 →
          Lands svc.baseline (checkoutLoop svc e attempts) Q g') →
        Lands svc.baseline (checkoutLoop svc e (attempts + 1)) Q g := by
      intro e attempts g Q hnext
      refine .bind (lands_databaseConn fun c x _ => ?_)
      obtain ⟨e', he'⟩ := resetConnection_refuses hr c
      simp only [he']
      refine .bind (.pure (.bind (.call ⟨(), _, rfl, trivial⟩ fun u g' hs _ => .bind fun s => ?_)))
      have hs : g' = _ := hs
      exact hnext e' { g' with resetDiscards := g'.resetDiscards + 1 } (by rw [hs]; rfl) (by rw [hs]; rfl)
    refine hattempt _ 1 g _ fun e g₁ hd₁ hn₁ => hattempt e 0 g₁ _ fun e g₂ hd₂ hn₂ => .pure ⟨⟨_, rfl⟩, ?_, ?_⟩
    · omega
    · omega

theorem checkout_keeps_connections_dirty : restorable sampleService.baseline = true ∧
    Lands sampleService.baseline (checkout sampleService)
      (fun r g => ∃ c, r = .ok c ∧ g.taken = [c] ∧ g.resetDiscards = 0) dirtyPool := by
  have hr : restorable sampleService.baseline = true := by decide +kernel
  refine ⟨hr, ?_⟩
  refine (checkout_keeps_connections sampleService (by decide) (by decide) dirtyPool).mono fun r g h => ?_
  rw [if_pos hr] at h
  obtain ⟨c, hr, -, htaken, -, hdiscards⟩ := h
  exact ⟨c, hr, htaken, hdiscards⟩

end Lands

end Accelerator.Gateway
