/-
The reset of a checked out connection (`gateway/reset.go`) against a model of the server: what each
reset command does to the session behind a connection, what the verification queries report of it, and
what becomes of the connections that fail. Commands, queries and connection attempts may fail at any
time, and a command that failed may have done anything to its session.
-/
import Accelerator.Gateway.Checkout
import Mathlib.Logic.Function.Basic

namespace Accelerator.Gateway

open Interact Strings Upstream

/-! ## The server -/

/-- The state of an upstream session. -/
structure ServerSession where
  openTransaction : Bool
  autocommit : Bool
  database : Option Text
  charset : Text
  collation : Text
  timeZone : Text
  sqlMode : Text
  isolation : Text
  readOnly : Bool
  warnings : Nat
  deriving DecidableEq

/-- What the server reads in a quoted string: a backslash there begins an escape. -/
def Reads (value actual : Text) : Prop := .chr '\\' ∉ value → actual = value

/-- What a reset command does to a session; it leaves any number of warnings. -/
def ResetCommand.Effect (x y : ServerSession) : ResetCommand → Prop
  | .rollback => y = { x with openTransaction := false, warnings := y.warnings }
  -- turning autocommit on commits what was begun without it
  | .autocommit => y = { x with
      openTransaction := x.openTransaction && x.autocommit, autocommit := true, warnings := y.warnings }
  | .useDatabase database => y = { x with database := some database, warnings := y.warnings }
  | .setNames charset collation => y = { x with charset, collation, warnings := y.warnings }
  | .timeZone value => Reads value y.timeZone ∧ y = { x with timeZone := y.timeZone, warnings := y.warnings }
  | .sqlMode value => Reads value y.sqlMode ∧ y = { x with sqlMode := y.sqlMode, warnings := y.warnings }
  | .isolation level => y = { x with isolation := level, warnings := y.warnings }
  | .readWrite => y = { x with readOnly := false, warnings := y.warnings }

/-- The session with another number of warnings. -/
def ServerSession.warn (x : ServerSession) (n : Nat) : ServerSession := { x with warnings := n }

/-- What the verification query reports. -/
def ServerSession.row (x : ServerSession) : SessionRow :=
  ⟨x.database, if x.autocommit then 1 else 0, x.charset, x.collation, x.sqlMode, x.timeZone⟩

/-- The sessions behind the physical connections, the connections that were taken from the pool, are
held, were destroyed and were returned, and the service's counter. -/
structure Pool where
  session : Nat → ServerSession
  taken : List Conn
  held : List Conn
  discarded : List Conn
  returned : List Conn
  resetDiscards : Nat

/-- The pool with a changed session behind a connection. -/
def Pool.put (g : Pool) (c : Conn) (x : ServerSession) : Pool :=
  { g with session := Function.update g.session c.physical x }

/-- The session behind a connection. -/
def Pool.on (g : Pool) (c : Conn) : ServerSession := g.session c.physical

/-- The replies of the pool and of the server. A connection that was destroyed is never handed out
again; one that is handed out may be in any state; queries change nothing but the warnings. -/
def Pool.Step (g : Pool) : (o : Op) → Res o → Pool → Prop
  | .databaseConn, .ok c, g' => (∀ d ∈ g.held ++ g.discarded, d.physical ≠ c.physical) ∧
      ∃ x, g' = { g.put c x with taken := c :: g.taken, held := c :: g.held }
  | .resetExec c command, .ok _, g' => ∃ x, command.Effect (g.on c) x ∧ g' = g.put c x
  | .resetExec c _, .error _, g' => ∃ x, g' = g.put c x
  | .querySession c, .ok row, g' => row = (g.on c).row ∧ ∃ n, g' = g.put c ((g.on c).warn n)
  | .querySession c, .error _, g' => ∃ n, g' = g.put c ((g.on c).warn n)
  | .queryIsolation c _, .ok level, g' =>
      normalizeResetIsolation level = normalizeResetIsolation (g.on c).isolation ∧
      ∃ n, g' = g.put c ((g.on c).warn n)
  | .queryIsolation c _, .error _, g' => ∃ n, g' = g.put c ((g.on c).warn n)
  | .queryWarnings via, .ok n, g' => n = (g.on via.connection).warnings ∧ g' = g
  | .queryWarnings via, .error _, g' => ∃ n, g' = g.put via.connection ((g.on via.connection).warn n)
  | .discardConn c, _, g' => g' = { g with held := g.held.erase c, discarded := c :: g.discarded }
  | .closeConn c, _, g' => g' = { g with held := g.held.erase c, returned := c :: g.returned }
  | _, _, g' => g' = g

/-- The environment of a checkout. -/
def server : Env ClientSession Op Res Note Pool where
  step _ g o r g' := g.Step o r g'
  note _ g
    | .resetDiscards => { g with resetDiscards := g.resetDiscards + 1 }
    | _ => g

/-! ## Rules -/

/-- From the pool `g` on, `p` ends where `Q` holds, whatever the server replies. -/
def Leads {α : Type} (p : M α) (Q : α → Pool → Prop) (g : Pool) : Prop :=
  ∀ s, p.wp server (fun _ _ _ => True) (fun a _ g => Q a g) s g

section Rules

variable {g : Pool} {c : Conn} {baseline : Metadata}

@[simp] theorem Pool.on_put (g : Pool) (c : Conn) (x : ServerSession) : (g.put c x).on c = x := by
  simp [Pool.on, Pool.put]

@[simp] theorem Pool.put_put (g : Pool) (c : Conn) (x y : ServerSession) : (g.put c x).put c y = g.put c y := by
  simp [Pool.put]

@[simp] theorem Pool.put_on (g : Pool) (c : Conn) : g.put c (g.on c) = g := by
  simp [Pool.put, Pool.on]

theorem ServerSession.warn_warn (x : ServerSession) (n m : Nat) : (x.warn n).warn m = x.warn m := rfl

theorem Leads.pure {α : Type} {a : α} {Q : α → Pool → Prop} (h : Q a g) : Leads (Pure.pure a) Q g := fun _ => h

theorem Leads.bind {α β : Type} {p : M α} {f : α → M β} {Q : β → Pool → Prop}
    (h : Leads p (fun a g => Leads (f a) Q g) g) : Leads (p >>= f) Q g := fun s =>
  (Prog.wp_bind ..).2 (Prog.wp_mono (h s) fun _ s _ h => h s)

theorem Leads.mono {α : Type} {p : M α} {Q Q' : α → Pool → Prop} (h : Leads p Q g) (hQ : ∀ a g, Q a g → Q' a g) :
    Leads p Q' g := fun s => Prog.wp_mono (h s) fun a _ g => hQ a g

theorem Leads.call {o : Op} {Q : Res o → Pool → Prop} (h : ∀ r g', g.Step o r g' → Q r g') : Leads (call o) Q g :=
  fun _ => ⟨trivial, h⟩

theorem Leads.discards {Q : Unit → Pool → Prop} (h : Q () { g with resetDiscards := g.resetDiscards + 1 }) :
    Leads (Prog.tell .resetDiscards) Q g := fun _ => h

theorem leads_requireNoResetWarnings {Q : Except GoError Unit → Pool → Prop}
    (hQ : ∀ r n, (r = .ok () → n = (g.on c).warnings ∧ n = 0) → Q r (g.put c ((g.on c).warn n))) :
    Leads (requireNoResetWarnings c) Q g := by
  refine .bind (.call fun r g' hs => ?_)
  cases r with
  | error e =>
    obtain ⟨n, rfl⟩ := hs
    exact .pure (hQ _ n (by simp))
  | ok n =>
    obtain ⟨rfl, rfl⟩ := hs
    have hself : g'.put c ((g'.on c).warn (g'.on c).warnings) = g' := g'.put_on c
    by_cases hz : (g'.on c).warnings = 0
    · simp only [Via.connection, hz, ne_eq, not_true_eq_false, if_false]
      exact .pure (hself ▸ hQ (.ok ()) _ fun _ => ⟨rfl, hz⟩)
    · simp only [Via.connection, hz, ne_eq, not_false_eq_true, if_true]
      exact .pure (hself ▸ hQ (.error _) _ (by simp))

/-- The commands one after the other. -/
def Effects : List ResetCommand → ServerSession → ServerSession → Prop
  | [], x, y => y = x
  | command :: rest, x, z => ∃ y, command.Effect x y ∧ Effects rest y z

theorem leads_runResetCommands {Q : Except GoError Unit → Pool → Prop} (commands : List ResetCommand) (stage : Nat)
    (hQ : ∀ r x, (r = .ok () → Effects commands (g.on c) x) → Q r (g.put c x)) :
    Leads (runResetCommands c stage commands) Q g := by
  induction commands generalizing stage g with
  | nil => exact .pure (by simpa using hQ (.ok ()) (g.on c) fun _ => rfl)
  | cons command rest ih =>
    refine .bind (.call fun r g' hs => ?_)
    cases r with
    | error e =>
      obtain ⟨x, rfl⟩ := hs
      exact .pure (hQ _ x (by simp))
    | ok u =>
      obtain ⟨x, heff, rfl⟩ := hs
      have hrest : ∀ stage, Leads (runResetCommands c stage rest) Q (g.put c x) := fun stage =>
        ih stage fun r y hy => by
          rw [Pool.put_put]
          exact hQ r y fun hr => ⟨x, heff, by simpa using hy hr⟩
      by_cases hstage : stage > 0
      · simp only [hstage, if_true]
        refine .bind (leads_requireNoResetWarnings fun r n hn => ?_)
        cases r with
        | error e => exact .pure (by simpa using hQ (.error (stageError (stage + 1) e)) _ (by simp))
        | ok u =>
          obtain ⟨rfl, -⟩ := hn rfl
          exact ((g.put c x).put_on c).symm ▸ hrest _
      · simp only [hstage, if_false]
        exact hrest _

theorem leads_readIsolation {Q : Except GoError Text → Pool → Prop}
    (hQ : ∀ r n, (∀ level, r = .ok level →
      normalizeResetIsolation level = normalizeResetIsolation (g.on c).isolation) → Q r (g.put c ((g.on c).warn n))) :
    Leads (readIsolation c) Q g := by
  refine .bind (.call fun r g' hs => ?_)
  cases r with
  | ok level =>
    obtain ⟨hlevel, n, rfl⟩ := hs
    exact .pure (hQ _ n (by rintro _ ⟨⟩; exact hlevel))
  | error e =>
    obtain ⟨n, rfl⟩ := hs
    have hfail := hQ (.error e) n (by simp)
    -- the older name of the variable is asked for on a session that has not changed
    have hretry : Leads (call (.queryIsolation c .txIsolation)) Q (g.put c ((g.on c).warn n)) := by
      refine .call fun r g' hs => ?_
      cases r with
      | ok level =>
        obtain ⟨hlevel, m, rfl⟩ := hs
        rw [Pool.on_put] at hlevel
        simpa [ServerSession.warn_warn] using hQ (.ok level) m (by rintro _ ⟨⟩; exact hlevel)
      | error e =>
        obtain ⟨m, rfl⟩ := hs
        simpa [ServerSession.warn_warn] using hQ (.error e) m (by simp)
    obtain ⟨cause, message⟩ := e
    simp only
    split
    · exact hretry
    · exact .pure hfail

/-- The session agrees with the baseline in what the verification compares. -/
structure Verified (baseline : Metadata) (x : ServerSession) : Prop where
  autocommit : x.autocommit = true
  database : x.database.getD [] = baseline.database
  charset : x.charset = baseline.characterSet
  collation : x.collation = baseline.collation
  sqlMode : x.sqlMode = baseline.sqlMode
  timeZone : x.timeZone = baseline.timeZone
  isolation : normalizeResetIsolation x.isolation = normalizeResetIsolation baseline.transactionIsolation

/-- A session without a trace of the one before. -/
structure Restored (baseline : Metadata) (x : ServerSession) : Prop extends Verified baseline x where
  openTransaction : x.openTransaction = false
  readOnly : x.readOnly = false
  warnings : x.warnings = 0

theorem Verified.of_matches {x : ServerSession} {level : Text} (h : matchesBaseline baseline x.row level = true)
    (hl : normalizeResetIsolation level = normalizeResetIsolation x.isolation) : Verified baseline x := by
  simp only [matchesBaseline, Bool.and_eq_true, decide_eq_true_eq] at h
  obtain ⟨⟨⟨⟨⟨⟨hdb, hauto⟩, hcs⟩, hcol⟩, hmode⟩, htz⟩, hiso⟩ := h
  refine ⟨?_, hdb, hcs, hcol, hmode, htz, hl.symm.trans hiso⟩
  by_contra hn
  have hauto : (if x.autocommit = true then (1 : Int) else 0) = 1 := hauto
  rw [if_neg hn] at hauto
  cases hauto

theorem leads_verifyReset {Q : Except GoError Unit → Pool → Prop}
    (hQ : ∀ r n, (r = .ok () → Verified baseline (g.on c) ∧ n = 0) → Q r (g.put c ((g.on c).warn n))) :
    Leads (verifyReset c baseline) Q g := by
  refine .bind (.call fun r g' hs => ?_)
  cases r with
  | error e =>
    obtain ⟨n, rfl⟩ := hs
    exact .pure (hQ _ n (by simp))
  | ok row =>
    obtain ⟨rfl, n, rfl⟩ := hs
    refine .bind (leads_readIsolation fun r m hlevel => ?_)
    rw [Pool.on_put, Pool.put_put] at *
    cases r with
    | error e => exact .pure (hQ _ m (by simp))
    | ok level =>
      by_cases hm : matchesBaseline baseline (g.on c).row level = true
      · simp only [hm, if_true]
        refine leads_requireNoResetWarnings fun r k hk => ?_
        rw [Pool.on_put, Pool.put_put]
        exact hQ r k fun hr => ⟨.of_matches hm (hlevel level rfl), (hk hr).2⟩
      · simp only [hm]
        exact .pure (hQ _ m (by simp))

theorem effect_openTransaction {x y : ServerSession} {command : ResetCommand} (h : command.Effect x y)
    (hx : x.openTransaction = false) : y.openTransaction = false := by
  cases command with
  | autocommit => rw [show y = _ from h]; simp [hx]
  | rollback => rw [show y = _ from h]
  | timeZone value | sqlMode value => rw [h.2]; exact hx
  | _ => rw [show y = _ from h]; exact hx

theorem effects_openTransaction {x y : ServerSession} {commands : List ResetCommand} (h : Effects commands x y)
    (hx : x.openTransaction = false) : y.openTransaction = false := by
  induction commands generalizing x with
  | nil => rw [show y = x from h]; exact hx
  | cons command rest ih =>
    obtain ⟨z, hz, hrest⟩ := h
    exact ih hrest (effect_openTransaction hz hx)

theorem effects_append {commands rest : List ResetCommand} {x z : ServerSession} (h : Effects (commands ++ rest) x z) :
    ∃ y, Effects commands x y ∧ Effects rest y z := by
  induction commands generalizing x with
  | nil => exact ⟨x, rfl, h⟩
  | cons command commands ih =>
    obtain ⟨w, hw, h⟩ := h
    obtain ⟨y, hy, hrest⟩ := ih h
    exact ⟨y, ⟨w, hw, hy⟩, hrest⟩

/-- The first command ends the transaction, and the last one allows writes. -/
theorem effects_resetCommands {isolation : Text} {x y : ServerSession}
    (h : Effects (resetCommands baseline isolation) x y) : y.openTransaction = false ∧ y.readOnly = false := by
  constructor
  · obtain ⟨z, hz, hrest⟩ := h
    refine effects_openTransaction hrest ?_
    rw [show z = _ from hz]
  · have hlast : ∃ pre, resetCommands baseline isolation = pre ++ [.readWrite] :=
      ⟨[.rollback, .autocommit] ++ (if baseline.database ≠ [] then [.useDatabase baseline.database] else []) ++
        [.setNames baseline.characterSet baseline.collation, .timeZone baseline.timeZone, .sqlMode baseline.sqlMode,
          .isolation isolation], by simp [resetCommands]⟩
    obtain ⟨pre, hpre⟩ := hlast
    rw [hpre] at h
    obtain ⟨z, -, w, hw, he⟩ := effects_append h
    rw [show y = w from he, show w = _ from hw]

/-- A reset that succeeds leaves nothing of the session before. -/
theorem leads_resetConnection {Q : Except GoError Unit → Pool → Prop}
    (hQ : ∀ r x, (r = .ok () → Restored baseline x) → Q r (g.put c x)) : Leads (resetConnection c baseline) Q g := by
  have hfail : ∀ e, Q (.error e) g := fun e => by simpa using hQ (.error e) (g.on c) (by simp)
  unfold resetConnection
  cases resetIsolation baseline.transactionIsolation with
  | error e => exact .pure (hfail e)
  | ok isolation =>
    simp only
    split
    · exact .pure (hfail _)
    · refine .bind (leads_runResetCommands _ 0 fun r x hx => ?_)
      cases r with
      | error e => exact .pure (hQ _ x (by simp))
      | ok u =>
        obtain ⟨htx, hro⟩ := effects_resetCommands (hx rfl)
        refine leads_verifyReset fun r n hverified => ?_
        rw [Pool.on_put] at hverified ⊢
        rw [Pool.put_put]
        refine hQ r _ fun hr => ?_
        obtain ⟨hv, rfl⟩ := hverified hr
        exact ⟨⟨hv.autocommit, hv.database, hv.charset, hv.collation, hv.sqlMode, hv.timeZone, hv.isolation⟩, htx, hro, rfl⟩

/-! ## The checkout -/

/-- What a checkout leaves: a connection that it returns is restored, every other one that it took is
destroyed and counted, and none goes back to the pool. -/
structure CheckedOut (baseline : Metadata) (g : Pool) (r : Except GoError Conn) (g' : Pool) : Prop where
  restored : ∀ c, r = .ok c → Restored baseline (g'.on c)
  held : g'.held = r.toOption.toList ++ g.held
  returned : g'.returned = g.returned
  discarded : ∃ ds, g'.discarded = ds ++ g.discarded ∧ g'.taken = r.toOption.toList ++ ds ++ g.taken ∧
    g'.resetDiscards = g.resetDiscards + ds.length

theorem leads_checkoutLoop (svc : Service) (lastError : GoError) (attempts : Nat) :
    Leads (checkoutLoop svc lastError attempts) (CheckedOut svc.baseline g) g := by
  induction attempts generalizing g lastError with
  | zero => exact .pure ⟨by simp, rfl, rfl, [], rfl, rfl, rfl⟩
  | succ attempts ih =>
    refine .bind (.call fun r g' hs => ?_)
    cases r with
    | error e =>
      cases hs
      exact ih e
    | ok c =>
      obtain ⟨-, x, rfl⟩ := hs
      refine .bind (leads_resetConnection fun r y hy => ?_)
      cases r with
      | ok u =>
        refine .pure ⟨?_, rfl, rfl, [], rfl, rfl, rfl⟩
        rintro _ ⟨⟩
        rw [Pool.on_put]
        exact hy rfl
      | error e =>
        refine .bind (.call fun u g' hs => ?_)
        cases hs
        -- one connection less, and one more in the count
        refine .bind (.discards ((ih e).mono fun r g' h => ?_))
        obtain ⟨ds, hd, ht, hn⟩ := h.discarded
        refine ⟨h.restored, ?_, h.returned, ds ++ [c], ?_, ?_, ?_⟩
        · rw [h.held]; simp [Pool.put]
        · rw [hd]; simp [Pool.put]
        · rw [ht]; simp [Pool.put]
        · rw [hn]
          simp only [Pool.put, List.length_append, List.length_singleton]
          omega

/-- Whatever fails, and whatever the sessions of the pool were left in: a connection that `checkout`
returns is restored to the baseline, and every other one it took is destroyed and counted. -/
theorem checkout_restores (svc : Service) (g : Pool) : Leads (checkout svc) (CheckedOut svc.baseline g) g :=
  leads_checkoutLoop svc _ 2

end Rules

/-! ## A run -/

/-- The session after a reset command that raises no warning. -/
def ResetCommand.apply (x : ServerSession) : ResetCommand → ServerSession
  | .rollback => { x with openTransaction := false, warnings := 0 }
  | .autocommit => { x with openTransaction := x.openTransaction && x.autocommit, autocommit := true, warnings := 0 }
  | .useDatabase database => { x with database := some database, warnings := 0 }
  | .setNames charset collation => { x with charset, collation, warnings := 0 }
  | .timeZone value => { x with timeZone := value, warnings := 0 }
  | .sqlMode value => { x with sqlMode := value, warnings := 0 }
  | .isolation level => { x with isolation := level, warnings := 0 }
  | .readWrite => { x with readOnly := false, warnings := 0 }

theorem ResetCommand.effect_apply (x : ServerSession) (command : ResetCommand) : command.Effect x (command.apply x) := by
  cases command with
  | timeZone value | sqlMode value => exact ⟨fun _ => rfl, rfl⟩
  | _ => rfl

/-- A server with one connection, on which nothing fails. -/
def soundServer (g : Pool) : (o : Op) → Option (Res o × Pool)
  | .databaseConn =>
    if ∀ d ∈ g.held ++ g.discarded, d.physical ≠ 0 then
      some (.ok ⟨0, 0⟩, { g.put ⟨0, 0⟩ (g.on ⟨0, 0⟩) with taken := ⟨0, 0⟩ :: g.taken, held := ⟨0, 0⟩ :: g.held })
    else none
  | .resetExec c command => some (.ok (), g.put c (command.apply (g.on c)))
  | .querySession c => some (.ok (g.on c).row, g.put c ((g.on c).warn 0))
  | .queryIsolation c _ => some (.ok (g.on c).isolation, g.put c ((g.on c).warn 0))
  | .queryWarnings via => some (.ok (g.on via.connection).warnings, g)
  | _ => none

theorem soundServer_step (g : Pool) (o : Op) (r : Res o) (g' : Pool) (h : soundServer g o = some (r, g')) :
    g.Step o r g' := by
  cases o with
  | databaseConn =>
    obtain ⟨hd, he⟩ := Option.ite_none_right_eq_some.1 h
    cases he
    exact ⟨hd, _, rfl⟩
  | resetExec c command => cases h; exact ⟨_, command.effect_apply _, rfl⟩
  | querySession c => cases h; exact ⟨rfl, _, rfl⟩
  | queryIsolation c name => cases h; exact ⟨rfl, _, rfl⟩
  | queryWarnings via => cases h; exact ⟨rfl, rfl⟩
  | _ => cases h

/-- A pool whose session was left in a transaction, without autocommit, in another database, character
set and mode, and read-only. -/
def dirtyPool : Pool where
  session _ := ⟨true, false, some (text "other"), text "latin1", text "latin1_bin", text "+01:00", text "ANSI",
    text "SERIALIZABLE", true, 3⟩
  taken := []
  held := []
  discarded := []
  returned := []
  resetDiscards := 0

/-- A run of `checkout` on the dirty pool. -/
theorem checkout_restores_dirty : ∃ s' g',
    (checkout sampleService).Runs server (newSession sampleService) dirtyPool (.ok ⟨0, 0⟩) s' g' ∧
    Restored sampleService.baseline (g'.on ⟨0, 0⟩) := by
  have h : ((checkout sampleService).follow server (fun _ => soundServer) (newSession sampleService) dirtyPool).map
      (·.1) = some (.ok ⟨0, 0⟩) := by decide +kernel
  obtain ⟨⟨r, s', g'⟩, hf, rfl⟩ := Option.map_eq_some_iff.1 h
  have hr := Prog.follow_runs (fun _ => soundServer_step) hf
  exact ⟨s', g', hr, (Prog.wp_runs hr (checkout_restores _ _ _)).restored _ rfl⟩

end Accelerator.Gateway
