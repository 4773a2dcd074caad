/-
The life of the process: the lifecycle manager (`lifecycle/state.go`), the health endpoints that read it
(`control/health.go`) and `App.Run` (`app/app.go`), which opens the services, serves until it is told to stop and
drains them. `Run` is a program whose calls may turn out either way; the state that the endpoints can see is that
of the manager at any of them.
-/
import Accelerator.App.Modes
import Accelerator.Interact.System
import Accelerator.Upstream.Types

namespace Accelerator.App

open Interact Strings Settings Upstream

/-! ## The lifecycle -/

inductive State where
  | starting
  | ready
  | draining
  | stopped
  | failed
  deriving DecidableEq, Repr

def State.text : State → String
  | .starting => "starting"
  | .ready => "ready"
  | .draining => "draining"
  | .stopped => "stopped"
  | .failed => "failed"

/-- `lifecycle.allowed`. -/
def allowed (current next : State) : Bool :=
  if current = next then true
  else
    match current with
    | .starting => next = .ready || next = .draining || next = .failed || next = .stopped
    | .ready => next = .draining || next = .failed
    | .draining => next = .stopped || next = .failed
    | .failed => next = .draining || next = .stopped
    | .stopped => false

/-- `lifecycle.Snapshot`, with the time in nanoseconds. -/
structure Snapshot where
  state : State
  since : Int
  reason : String
  deriving DecidableEq, Repr

/-- `Manager.Transition`. -/
def Snapshot.transition (m : Snapshot) (next : State) (reason : String) (now : Int) : Except GoError Snapshot :=
  if allowed m.state next then .ok ⟨next, now, reason⟩
  else .error ⟨.plain, lit "illegal lifecycle transition from " ++ lit m.state.text ++ lit " to " ++ lit next.text⟩

/-- `GET /livez`. -/
def livez (m : Snapshot) : Nat := if m.state ≠ .stopped then 200 else 503

/-- `GET /readyz`. -/
def readyz (m : Snapshot) : Nat := if m.state = .ready then 200 else 503

/-! ## The program -/

/-- The fields of the `App` that change. -/
structure AppState where
  state : Snapshot
  /-- The channel `ready` is closed. -/
  ready : Bool
  adminAddr : Text
  /-- What `Run` returned. -/
  result : Option (Except GoError Unit)

/-- `New`. -/
def newApp (now : Int) : AppState := ⟨⟨.starting, now, ""⟩, false, [], none⟩

/-- Why `server.Serve` returns. -/
inductive Served where
  | nothing
  | serverClosed
  | failed (err : GoError)
  deriving DecidableEq, Repr

/-- The `select` of `Run`. -/
inductive Wake where
  | done
  | served (result : Served)
  deriving DecidableEq, Repr

/-- The calls of `Run`. Times are in nanoseconds. -/
inductive Call where
  /-- `time.Now()` -/
  | now
  /-- `os.MkdirAll` -/
  | mkdirAll (path : Text)
  /-- `upstream.New` -/
  | newConnector
  /-- `gateway.New` or `relay.New` -/
  | newService (service : Service) (connectLimit : Int)
  /-- `trafficService.Start` -/
  | startService
  /-- `trafficService.Shutdown` -/
  | shutdownService (timeout : Int)
  /-- `net.Listen` -/
  | listen (address : Text)
  /-- `runtime.Start` and `go func() { serveResult <- server.Serve(listener) }()` -/
  | serve
  /-- `listener.Close` -/
  | closeListener
  | select
  /-- `server.Shutdown` -/
  | shutdownServer (timeout : Int)
  /-- `server.Close` -/
  | closeServer
  deriving DecidableEq, Repr

abbrev Call.Res : Call → Type
  | .now => Int
  | .mkdirAll _ | .newConnector | .newService _ _ | .startService | .shutdownService _ | .shutdownServer _ =>
    Except GoError Unit
  | .listen _ => Except GoError Text
  | .select => Wake
  | .serve | .closeListener | .closeServer => Unit

/-- The log. -/
inductive Info where
  | acceleratorReady
  | serviceReady
  | acceleratorStopped

abbrev M := Prog AppState Call Call.Res Info

def call (o : Call) : M o.Res := Prog.perform o

/-- `a.state.Transition(next, reason, time.Now())`. -/
def transition (next : State) (reason : String) : M (Option GoError) := do
  let now ← call .now
  let a ← Prog.read
  match a.state.transition next reason now with
  | .error e => return some e
  | .ok m =>
    Prog.modify fun a => { a with state := m }
    return none

/-- `Config.UpstreamDurations`: the connect, read, write and health timeouts. -/
def upstreamDurations (lib : Library) (cfg : Config) : Except Text (Int × Int × Int × Int) := do
  let connect ← boundedDuration lib cfg.upstream.connectTimeout
  let read ← boundedDuration lib cfg.upstream.readTimeout
  let write ← boundedDuration lib cfg.upstream.writeTimeout
  let health ← boundedDuration lib cfg.upstream.healthTimeout
  return (connect, read, write, health)

/-- A failure: the transition is attempted, and the error returned. -/
def fail {α : Type} (reason : String) (e : GoError) : M (Except GoError α) := do
  let _ ← transition .failed reason
  return .error e

/-- The first part of `Run`: the traffic service is made and started, if the upstream is enabled. -/
def openService (lib : Library) (cfg : Config) : M (Except GoError (Option Service)) :=
  match service cfg with
  | none => return .ok none
  | some service => do
    match upstreamDurations lib cfg with
    | .error e => fail "parse upstream duration" ⟨.plain, toBytes e⟩
    | .ok (connectLimit, _) =>
      match ← call .newConnector with
      | .error e => fail "configure upstream" e
      | .ok _ =>
        match ← call (.newService service connectLimit) with
        | .error e => fail "configure mysql service" e
        | .ok _ =>
          match ← call .startService with
          | .error e => fail "open mysql relay" e
          | .ok _ => return .ok (some service)

/-- The end of `Run`. -/
def finish : M (Except GoError Unit) := do
  match ← transition .stopped "shutdown complete" with
  | some e => return .error e
  | none =>
    Prog.tell .acceleratorStopped
    return .ok ()

/-- The last part of `Run`: the admin server is shut down, and then the traffic service. -/
def drain (lib : Library) (cfg : Config) (traffic : Option Service) : M (Except GoError Unit) := do
  let timeout := (cfg.shutdownDuration lib).toOption.getD 0
  match ← call (.shutdownServer timeout) with
  | .error e =>
    let _ ← transition .failed "graceful shutdown failed"
    call .closeServer
    return .error e
  | .ok _ =>
    if traffic.isSome then
      match ← call (.shutdownService timeout) with
      | .error e => if e.cause ≠ .canceled then fail "relay shutdown failed" e else finish
      | .ok _ => finish
    else finish

/-- `Run` when the admin server was started. -/
def serveUntilDone (lib : Library) (cfg : Config) (traffic : Option Service) : M (Except GoError Unit) := do
  match ← transition .ready "foundation services ready" with
  | some e =>
    call .closeListener
    return .error e
  | none =>
    Prog.modify fun a => { a with ready := true }
    Prog.tell .acceleratorReady
    if traffic.isSome then Prog.tell .serviceReady
    match ← call .select with
    | .done =>
      let _ ← transition .draining "shutdown requested"
      drain lib cfg traffic
    | .served (.failed e) => fail "admin server failed" e
    | .served _ =>
      let _ ← transition .draining "admin server stopped"
      drain lib cfg traffic

/-- `Run` when the traffic service was started. -/
def serveAdmin (lib : Library) (cfg : Config) (traffic : Option Service) : M (Except GoError Unit) := do
  match ← call (.listen cfg.server.adminListen) with
  | .error e =>
    if traffic.isSome then
      let _ ← call (.shutdownService (2 * second))
    fail "open admin listener" e
  | .ok address =>
    Prog.modify fun a => { a with adminAddr := address }
    let _ ← call .now
    call .serve
    serveUntilDone lib cfg traffic

/-- `App.Run`. -/
def run (lib : Library) (cfg : Config) : M (Except GoError Unit) := do
  match ← call (.mkdirAll cfg.server.dataDir) with
  | .error e => fail "create data directory" e
  | .ok _ =>
    match ← openService lib cfg with
    | .error e => return .error e
    | .ok traffic => serveAdmin lib cfg traffic

/-- The process: it runs the app once. -/
def process (lib : Library) (cfg : Config) : Process AppState Call Call.Res Info where
  body := do
    let r ← run lib cfg
    Prog.modify fun a => { a with result := some r }
    return false
  cleanup := pure ()

/-! ## What is seen of a run -/

/-- What the calls of `Run` have shown: the states the manager was in, the latest first, and what became of the
services. -/
structure Seen where
  visited : List State := []
  /-- The traffic service was started, and was shut down. -/
  started : Bool := false
  stopped : Bool := false
  /-- The admin server was started. -/
  serving : Bool := false
  /-- The admin server failed, while it served or when it was shut down. -/
  adminFailed : Bool := false
  deriving DecidableEq, Repr

/-- The states of the manager up to now. -/
def Seen.states (g : Seen) (s : State) : List State := if g.visited.head? = some s then g.visited else s :: g.visited

/-- What a reply shows of the services. -/
def Seen.reply (g : Seen) : (o : Call) → o.Res → Seen
  | .startService, .ok _ => { g with started := true }
  | .shutdownService _, _ => { g with stopped := true }
  | .serve, _ => { g with serving := true }
  | .select, .served (.failed _) => { g with adminFailed := true }
  | .shutdownServer _, .error _ => { g with adminFailed := true }
  | _, _ => g

def Seen.next (g : Seen) : Event AppState Call Call.Res Info → Seen
  | .call a o r => { g.reply o r with visited := g.states a.state.state }
  | .note _ _ => g

/-- The states a process goes through. -/
def courses : List (List State) :=
  [[.starting, .failed], [.starting, .ready, .failed], [.starting, .ready, .draining, .failed],
   [.starting, .ready, .draining, .stopped]]

/-- What is seen of a run with the state the manager is in now. -/
def progress (a : AppState) (g : Seen) : Seen := { g with visited := g.states a.state.state }

/-- What can be seen at any time: when the process is ready its services are up. -/
structure Visible (traffic : Bool) (p : Seen) : Prop where
  course : ∃ full ∈ courses, p.visited.reverse <+: full
  ready : p.visited.head? = some .ready → p.serving = true ∧ p.started = traffic ∧ p.stopped = false
  live : p.visited.head? ≠ some .stopped

/-- What `Run` leaves when it returns. -/
structure Returned (ok : Bool) (p : Seen) : Prop where
  course : p.visited.reverse ∈ courses
  result : p.visited.head? = some (if ok then .stopped else .failed)
  service : p.started = true → (p.stopped = false ↔ p.adminFailed = true)

/-! ## The program, call by call -/

section Program

variable {traffic started stopped serving adminFailed : Bool} {a : AppState} {g p : Seen}

theorem states_head (g : Seen) (s : State) : (g.states s).head? = some s := by
  unfold Seen.states
  split
  · assumption
  · rfl

theorem progress_next (hp : progress a g = p) (o : Call) (r : o.Res) : progress a (g.next (.call a o r)) = p.reply o r := by
  have hstates : Seen.states (g.next (.call a o r)) a.state.state = g.states a.state.state := by
    show (if (g.states a.state.state).head? = some a.state.state then g.states a.state.state else _) = _
    rw [if_pos (states_head _ _)]
  subst hp
  unfold progress
  rw [hstates]
  cases o with
  | startService => cases r <;> rfl
  | select =>
    rcases r with _ | (_ | _ | e) <;> rfl
  | shutdownServer t => cases r <;> rfl
  | _ => rfl

/-- The environment of `Run`: anything may be replied. -/
def world : Env AppState Call Call.Res Info Seen := account Seen.next fun _ _ _ => True

/-- What holds after a program of which every call is seen in good order. -/
def Shows {α : Type} (traffic : Bool) (m : M α) (Q : α → Seen → Prop) (a : AppState) (g : Seen) : Prop :=
  m.wp world (fun a g _ => Visible traffic (progress a g)) (fun r a g => Q r (progress a g)) a g

theorem shows_call {α : Type} {Q : α → Seen → Prop} {o : Call} {k : o.Res → M α} (hp : progress a g = p)
    (hv : Visible traffic p) (hk : ∀ r g', progress a g' = p.reply o r → Shows traffic (k r) Q a g') :
    Shows traffic (call o >>= k) Q a g := by
  unfold Shows call
  rw [Prog.wp_bind, world, Prog.wp_perform_account]
  refine ⟨by rw [hp]; exact hv, fun r _ => ?_⟩
  exact hk r _ (progress_next hp o r)

/-- A transition that is allowed and goes somewhere else. -/
theorem shows_transition {α : Type} {Q : α → Seen → Prop} {s next : State} {reason : String} {k : Option GoError → M α}
    (hp : progress a g = p) (hlast : p.visited.head? = some s) (hv : Visible traffic p) (hallowed : allowed s next = true)
    (hne : s ≠ next) (hk : ∀ a' g', progress a' g' = { p with visited := next :: p.visited } → Shows traffic (k none) Q a' g') :
    Shows traffic (transition next reason >>= k) Q a g := by
  have hs : (g.states a.state.state).head? = some s := by
    rw [← hlast, ← hp]
    rfl
  have hstate : a.state.state = s := Option.some.inj ((states_head _ _).symm.trans hs)
  unfold Shows
  rw [Prog.wp_bind]
  have hnow : Visible traffic (progress a g) := by
    rw [hp]
    exact hv
  refine ⟨hnow, ?_⟩
  rintro now _ ⟨-, rfl⟩
  have htransition : a.state.transition next reason now = .ok ⟨next, now, reason⟩ := by
    rw [Snapshot.transition, hstate, if_pos hallowed]
  show Prog.wp _ _ (match a.state.transition next reason now with
    | .error e => pure (some e)
    | .ok m => Prog.modify (fun a => { a with state := m }) >>= fun _ => pure none) _ a _
  rw [htransition]
  refine hk _ _ ?_
  -- the state before was seen when the time was read, and the new one is another
  have hcourse : Seen.states (g.next (.call a .now now)) next = next :: p.visited := by
    show (if (g.states a.state.state).head? = some next then g.states a.state.state
      else next :: g.states a.state.state) = _
    rw [hs, if_neg (by simpa using hne), ← hp]
    rfl
  subst hp
  rw [progress, hcourse]
  rfl

theorem visible_starting (started stopped serving adminFailed : Bool) :
    Visible traffic ⟨[.starting], started, stopped, serving, adminFailed⟩ :=
  ⟨⟨[.starting, .failed], by decide, by simp⟩, by rintro ⟨⟩, by simp⟩

theorem visible_ready (adminFailed : Bool) : Visible traffic ⟨[.ready, .starting], traffic, false, true, adminFailed⟩ :=
  ⟨⟨[.starting, .ready, .failed], by decide, by simp⟩, fun _ => ⟨rfl, rfl, rfl⟩, by simp⟩

theorem visible_draining (started stopped serving adminFailed : Bool) :
    Visible traffic ⟨[.draining, .ready, .starting], started, stopped, serving, adminFailed⟩ :=
  ⟨⟨[.starting, .ready, .draining, .failed], by decide, by simp⟩, by rintro ⟨⟩, by simp⟩

theorem visible_failed (started stopped serving adminFailed : Bool) :
    Visible traffic ⟨[.failed, .draining, .ready, .starting], started, stopped, serving, adminFailed⟩ :=
  ⟨⟨[.starting, .ready, .draining, .failed], by decide, by simp⟩, by rintro ⟨⟩, by simp⟩

/-- What `Run` returns. -/
def Returns (r : Except GoError Unit) (p : Seen) : Prop := Returned r.isOk p

theorem shows_finish (hp : progress a g = ⟨[.draining, .ready, .starting], started, stopped, serving, false⟩)
    (hs : started = true → stopped = true) : Shows traffic finish Returns a g := by
  refine shows_transition hp rfl (visible_draining ..) rfl (by decide) fun a' g' hp' => ?_
  show Returns (.ok ()) (progress a' g')
  rw [hp']
  exact ⟨by simp [courses], rfl, fun h => by simp [hs h]⟩

/-- A failure while the services are drained. -/
theorem returns_failed {e : GoError} (hp : progress a g = ⟨[.failed, .draining, .ready, .starting], started, stopped, serving,
    adminFailed⟩) (hs : started = true → (stopped = false ↔ adminFailed = true)) : Returns (.error e) (progress a g) := by
  rw [hp]
  exact ⟨by simp [courses], rfl, hs⟩

theorem shows_drain (lib : Library) (cfg : Config) {service : Option Service}
    (hp : progress a g = ⟨[.draining, .ready, .starting], service.isSome, false, serving, false⟩) :
    Shows traffic (drain lib cfg service) Returns a g := by
  refine shows_call hp (visible_draining ..) fun r g₁ h₁ => ?_
  cases r with
  | error e =>
    refine shows_transition h₁ rfl (visible_draining ..) rfl (by decide) fun a₂ g₂ h₂ => ?_
    exact shows_call h₂ (visible_failed ..) fun _ g₃ h₃ => returns_failed h₃ fun _ => ⟨fun _ => rfl, fun _ => rfl⟩
  | ok u =>
    cases service with
    | none => exact shows_finish h₁ (by rintro ⟨⟩)
    | some s =>
      refine shows_call h₁ (visible_draining ..) fun r g₂ h₂ => ?_
      cases r with
      | ok u => exact shows_finish h₂ fun _ => rfl
      | error e =>
        simp only
        split
        · refine shows_transition h₂ rfl (visible_draining ..) rfl (by decide) fun a₃ g₃ h₃ => ?_
          exact returns_failed h₃ fun _ => by simp [Seen.reply]
        · exact shows_finish h₂ fun _ => rfl

/-- From ready on, the services are drained. -/
theorem shows_stop (lib : Library) (cfg : Config) {service : Option Service} {reason : String}
    (hp : progress a g = ⟨[.ready, .starting], service.isSome, false, true, false⟩) :
    Shows service.isSome (transition .draining reason >>= fun _ => drain lib cfg service) Returns a g :=
  shows_transition hp rfl (visible_ready _) rfl (by decide) fun _ _ h => shows_drain lib cfg h

theorem shows_serveUntilDone (lib : Library) (cfg : Config) {service : Option Service} (hs : service.isSome = traffic)
    (hp : progress a g = ⟨[.starting], service.isSome, false, true, false⟩) :
    Shows traffic (serveUntilDone lib cfg service) Returns a g := by
  subst hs
  refine shows_transition hp rfl (visible_starting ..) rfl (by decide) fun a₁ g₁ h₁ => ?_
  have h₂ : progress { a₁ with ready := true } g₁ = ⟨[.ready, .starting], service.isSome, false, true, false⟩ := h₁
  have hselect : Shows service.isSome (call .select >>= fun w => match w with
      | .done => transition .draining "shutdown requested" >>= fun _ => drain lib cfg service
      | .served (.failed e) => fail "admin server failed" e
      | .served _ => transition .draining "admin server stopped" >>= fun _ => drain lib cfg service) Returns
      { a₁ with ready := true } g₁ := by
    refine shows_call h₂ (visible_ready _) fun w g₃ h₃ => ?_
    rcases w with _ | (_ | _ | e)
    · exact shows_stop lib cfg h₃
    · exact shows_stop lib cfg h₃
    · exact shows_stop lib cfg h₃
    · refine shows_transition h₃ rfl (visible_ready _) rfl (by decide) fun a₄ g₄ h₄ => ?_
      show Returns (.error e) (progress a₄ g₄)
      rw [h₄]
      exact ⟨by simp [courses, Seen.reply], rfl, fun _ => by simp [Seen.reply]⟩
  cases service with
  | none => exact hselect
  | some s => exact hselect

/-- A failure before the process is ready, with no traffic service left. -/
theorem shows_fail {α : Type} {Q : Except GoError α → Seen → Prop} {reason : String} {e : GoError}
    (hp : progress a g = ⟨[.starting], started, stopped, serving, false⟩)
    (hQ : Q (.error e) ⟨[.failed, .starting], started, stopped, serving, false⟩) :
    Shows traffic (fail reason e) Q a g := by
  refine shows_transition hp rfl (visible_starting ..) rfl (by decide) fun a' g' hp' => ?_
  show Q (.error e) (progress a' g')
  rw [hp']
  exact hQ

theorem returned_early (h : started = true → stopped = true) :
    Returned false ⟨[.failed, .starting], started, stopped, serving, false⟩ :=
  ⟨by simp [courses], rfl, fun hs => by simp [h hs]⟩

theorem shows_serveAdmin (lib : Library) (cfg : Config) {service : Option Service} (hs : service.isSome = traffic)
    (hp : progress a g = ⟨[.starting], service.isSome, false, false, false⟩) :
    Shows traffic (serveAdmin lib cfg service) Returns a g := by
  refine shows_call hp (visible_starting ..) fun r g₁ h₁ => ?_
  cases r with
  | error e =>
    cases service with
    | none => exact shows_fail h₁ (returned_early (by rintro ⟨⟩))
    | some s =>
      refine shows_call h₁ (visible_starting ..) fun _ g₂ h₂ => ?_
      exact shows_fail h₂ (returned_early fun _ => rfl)
  | ok address =>
    refine shows_call (a := { a with adminAddr := address }) h₁ (visible_starting ..) fun _ g₂ h₂ => ?_
    exact shows_call h₂ (visible_starting ..) fun _ g₃ h₃ => shows_serveUntilDone lib cfg hs h₃

theorem shows_openService (lib : Library) (cfg : Config)
    (hp : progress a g = ⟨[.starting], false, false, false, false⟩) :
    Shows traffic (openService lib cfg) (fun r p => match r with
      | .error e => Returns (.error e) p
      | .ok s => s = service cfg ∧ p = ⟨[.starting], s.isSome, false, false, false⟩) a g := by
  have hearly : ∀ {e : GoError}, Returns (.error e) ⟨[.failed, .starting], false, false, false, false⟩ :=
    returned_early (by rintro ⟨⟩)
  unfold openService
  cases hservice : service cfg with
  | none => exact ⟨rfl, hp⟩
  | some s =>
    simp only
    cases hd : upstreamDurations lib cfg with
    | error e => exact shows_fail hp hearly
    | ok d =>
      refine shows_call hp (visible_starting ..) fun r g₁ h₁ => ?_
      cases r with
      | error e => exact shows_fail h₁ hearly
      | ok u =>
        refine shows_call h₁ (visible_starting ..) fun r g₂ h₂ => ?_
        cases r with
        | error e => exact shows_fail h₂ hearly
        | ok u =>
          refine shows_call h₂ (visible_starting ..) fun r g₃ h₃ => ?_
          cases r with
          | error e => exact shows_fail h₃ hearly
          | ok u => exact ⟨rfl, h₃⟩

theorem shows_run (lib : Library) (cfg : Config) (hp : progress a g = ⟨[.starting], false, false, false, false⟩) :
    Shows (service cfg).isSome (run lib cfg) Returns a g := by
  refine shows_call hp (visible_starting ..) fun r g₁ h₁ => ?_
  cases r with
  | error e => exact shows_fail h₁ (returned_early (by rintro ⟨⟩))
  | ok u =>
    unfold Shows
    rw [Prog.wp_bind]
    refine Prog.wp_mono (shows_openService lib cfg h₁) fun r a₂ g₂ hr => ?_
    cases r with
    | error e => exact hr
    | ok s =>
      obtain ⟨rfl, h₂⟩ := hr
      exact shows_serveAdmin lib cfg rfl h₂

end Program

/-! ## Every run -/

/-- In every state of the process its progress is as it should be. -/
theorem reach_shows {lib : Library} {cfg : Config} {now : Int} {c : Conf AppState Call Call.Res Info Seen}
    (h : Process.Reach world (process lib cfg) (newApp now) {} c) :
    (c.stage ≠ .ended ∧ Visible (service cfg).isSome (progress c.state c.env)) ∨
      (c.stage = .ended ∧ ∃ r, c.state.result = some r ∧ Returns r (progress c.state c.env)) := by
  have hh : Process.Holds world (fun a g _ => Visible (service cfg).isSome (progress a g))
      (fun a g => a = newApp now ∧ g = {}) (fun a g => ∃ r, a.result = some r ∧ Returns r (progress a g))
      (fun a g => ∃ r, a.result = some r ∧ Returns r (progress a g)) c := by
    refine Process.reach_holds ?_ (fun _ _ h => h) ⟨rfl, rfl⟩ h
    rintro _ _ ⟨rfl, rfl⟩
    rw [process, Prog.wp_bind]
    refine Prog.wp_mono (shows_run lib cfg rfl) fun r a g hr => ?_
    exact ⟨r, rfl, hr⟩
  obtain ⟨a, g, stage⟩ := c
  cases stage with
  | idle =>
    obtain ⟨rfl, rfl⟩ := hh
    exact .inl ⟨by rintro ⟨⟩, visible_starting ..⟩
  | busy o k => exact .inl ⟨by rintro ⟨⟩, hh.1⟩
  | closing o k => exact .inl ⟨by rintro ⟨⟩, hh.1⟩
  | ended => exact .inr ⟨rfl, hh⟩

/-- Whatever the calls of `Run` return, the manager goes through one of four courses. Whenever the process is ready
the admin server was started and the traffic service, if there is one, is started and not shut down; it is live until
`Run` has returned nil. An error is returned exactly when the process has failed, and on a started traffic service
`Shutdown` was never called exactly if it was the admin server that failed. -/
theorem run_course {lib : Library} {cfg : Config} {now : Int} {c : Conf AppState Call Call.Res Info Seen}
    (h : Process.Reach world (process lib cfg) (newApp now) {} c) :
    (∃ full ∈ courses, (c.env.states c.state.state.state).reverse <+: full) ∧
    (readyz c.state.state = 200 → c.env.serving = true ∧ c.env.started = (service cfg).isSome ∧ c.env.stopped = false) ∧
    (livez c.state.state = 503 ↔ c.stage = .ended ∧ ∃ u, c.state.result = some (.ok u)) ∧
    (c.stage = .ended → (c.env.states c.state.state.state).reverse ∈ courses ∧
      (∃ r, c.state.result = some r ∧ c.state.state.state = if r.isOk then .stopped else .failed) ∧
      (c.env.started = true → (c.env.stopped = false ↔ c.env.adminFailed = true))) := by
  have hlast : (progress c.state c.env).visited.head? = some c.state.state.state := states_head _ _
  have hlive : livez c.state.state = 503 ↔ c.state.state.state = .stopped := by
    unfold livez
    split_ifs with hs <;> simp_all
  rw [hlive]
  rcases reach_shows h with ⟨hend, hv⟩ | ⟨hend, r, hr, hret⟩
  · have hne : c.state.state.state ≠ .stopped := fun hs => hv.live (by rw [hlast, hs])
    refine ⟨hv.course, fun hready => hv.ready ?_, ⟨fun hs => absurd hs hne, fun he => absurd he.1 hend⟩,
      fun he => absurd he hend⟩
    have hstate : c.state.state.state = .ready := by
      unfold readyz at hready
      split at hready
      · assumption
      · cases hready
    rw [hlast, hstate]
  · have hstate : c.state.state.state = if r.isOk then .stopped else .failed :=
      Option.some.inj (hlast.symm.trans hret.result)
    refine ⟨⟨_, hret.course, List.prefix_rfl⟩, ?_, ?_, fun _ => ⟨hret.course, ⟨r, hr, hstate⟩, hret.service⟩⟩
    · intro hready
      rw [readyz, hstate] at hready
      cases hok : r.isOk <;> simp [hok] at hready
    · rw [hstate, hr]
      cases r with
      | ok u => simp [hend, Except.isOk, Except.toBool]
      | error e => simp [Except.isOk, Except.toBool]

/-- Every call succeeds, and the `select` ends as given. -/
def smooth (wake : Wake) : Unit → (o : Call) → Option o.Res
  | _, .now => some 0
  | _, .mkdirAll _ => some (.ok ())
  | _, .newConnector => some (.ok ())
  | _, .newService _ _ => some (.ok ())
  | _, .startService => some (.ok ())
  | _, .shutdownService _ => some (.ok ())
  | _, .listen address => some (.ok address)
  | _, .serve => some ()
  | _, .closeListener => some ()
  | _, .select => some wake
  | _, .shutdownServer _ => some (.ok ())
  | _, .closeServer => some ()

/-- The default configuration with a traffic service. -/
def withService : Config := { default with upstream := { default.upstream with enabled := true } }

/-- A run of `k` calls, with the traffic service. -/
def sampleRun (lib : Library) (wake : Wake) (k : Nat) : Conf AppState Call Call.Res Info Seen :=
  (System.play Seen.next (fun _ _ _ _ => some ()) (fun w _ => w) (process lib withService)
    (System.start () (newApp 0) {}) (List.replicate k ((), smooth wake))).thread ()

theorem reach_sampleRun (lib : Library) (wake : Wake) (k : Nat) :
    Process.Reach world (process lib withService) (newApp 0) {} (sampleRun lib wake k) := by
  have J : System.Justifies Seen.next (System.replies (fun (_ : Unit) (_ : Unit) _ _ => some ()) fun w _ => w)
      (fun _ _ _ => True) (fun _ _ _ => True) () ({} : Seen) (fun _ _ => True) :=
    ⟨trivial, fun _ _ _ _ => trivial, fun _ _ _ _ _ _ _ _ => ⟨trivial, trivial⟩⟩
  exact (System.project J (System.steps_play _ _) fun _ _ _ _ => trivial).2 ()

/-- The admin server fails, and the traffic service is not shut down. -/
theorem run_course_sample : ∃ c : Conf AppState Call Call.Res Info Seen, c.state.state.state = .failed ∧
    c.env.started = true ∧ c.env.stopped = false ∧
      (c.env.started = true → (c.env.stopped = false ↔ c.env.adminFailed = true)) := by
  let lib : Library := ⟨fun _ => none, fun f unit scale => f * unit / scale⟩
  let wake : Wake := .served (.failed ⟨.plain, []⟩)
  have hend : (sampleRun lib wake 20).isEnded = true := by decide +kernel
  exact ⟨sampleRun lib wake 20, by decide +kernel, by decide +kernel, by decide +kernel,
    ((run_course (reach_sampleRun lib wake 20)).2.2.2 (Conf.stage_of_isEnded hend)).2.2⟩

end Accelerator.App
