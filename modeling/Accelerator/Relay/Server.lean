/-
The transparent relay (`relay/relay.go`): the accept loop, the goroutine that waits for the context, `stop` and
one handler for each client, as a machine whose actions are the statements of the goroutines in any order. The
listener, the context, the dialer and the two copies of a handler are not known, except that a dial whose
context is done at its start fails.
-/
import Accelerator.Interact.Machine
import Accelerator.Settings.Config
import Accelerator.Upstream.Types
import Mathlib.Data.List.Perm.Basic

namespace Accelerator.Relay

open Strings Upstream Interact Settings

/-! ## The server -/

structure Config where
  listenAddress : Text
  upstreamAddress : Text
  maxConnections : Int64
  dialTimeout : Int64
  deriving DecidableEq, Repr

/-- What `New` has checked of a `Server`. -/
structure Server where
  config : Config
  maxConnections_pos : 0 < config.maxConnections

def new (config : Config) : Except Text Server :=
  match splitHostPort config.listenAddress with
  | .error e => .error (text "relay listen address: " ++ e.text)
  | .ok _ =>
    match splitHostPort config.upstreamAddress with
    | .error e => .error (text "relay upstream address: " ++ e.text)
    | .ok _ =>
      if h : config.maxConnections ≤ 0 then .error (text "relay max connections must be positive")
      else if config.dialTimeout ≤ 0 then .error (text "relay dial timeout must be positive")
      else .ok ⟨config, Int64.not_le.1 h⟩

/-- The capacity of `sem`. -/
def Server.limit (server : Server) : Nat := server.config.maxConnections.toInt.toNat

/-! ## What the goroutines share -/

/-- A client, numbered as it was accepted, or the upstream connection that was dialled for it. -/
inductive Conn where
  | client (n : Nat)
  | upstream (n : Nat)
  deriving DecidableEq, Repr

structure Shared where
  /-- `s.listener` is set. -/
  listening : Bool
  listenerClosed : Bool
  conns : List Conn
  sem : Nat
  wg : Nat
  done : Bool
  runErr : Option GoError
  active : Int
  accepted : UInt64
  rejected : UInt64
  dialErrors : UInt64
  relayErrors : UInt64
  /-- The context of `Start` is done. -/
  cancelled : Bool
  /-- How many clients were accepted. -/
  arrived : Nat
  /-- The connections that were closed, by anyone. -/
  closed : List Conn
  deriving DecidableEq, Repr

def Shared.shut (g : Shared) (c : Conn) : Shared := { g with closed := c :: g.closed }

def Shared.track (g : Shared) (c : Conn) (add : Bool) : Shared :=
  { g with conns := if add then g.conns.insert c else g.conns.filter (· ≠ c) }

def Shared.setRunError (g : Shared) (e : GoError) : Shared :=
  { g with runErr := g.runErr.orElse fun _ => some e }

/-! ## A client that is in the semaphore -/

/-- The statement that is next for a client, from those of the accept loop before the `go` to the deferred ones of
`handle`, which run last first. -/
inductive Stage where
  /-- `s.accepted.Add(1)` -/
  | accepting
  /-- `s.active.Add(1)` -/
  | activating
  /-- `s.track(client, true)` -/
  | tracking
  /-- `s.wg.Add(1)` -/
  | counting
  /-- `go s.handle(ctx, client)` -/
  | launching
  /-- `dialer.DialContext(ctx, ...)` is called. -/
  | dial
  | dialing
  /-- `s.dialErrors.Add(1)` -/
  | dialFailed
  /-- `s.track(upstream, true)` -/
  | trackingUpstream
  /-- The copies run; `firstErr := <-result`. -/
  | relaying
  /-- `client.Close()` -/
  | closingClient
  /-- `upstream.Close()` -/
  | closingUpstream
  /-- `secondErr := <-result`, and the count of errors. -/
  | second
  /-- `s.track(upstream, false)` -/
  | untrackingUpstream
  /-- The deferred `upstream.Close()`. -/
  | closingUpstreamAgain
  /-- `s.track(client, false)` -/
  | untracking
  /-- The deferred `client.Close()`. -/
  | closingClientAgain
  /-- `s.active.Add(-1)` -/
  | deactivating
  /-- `<-s.sem` -/
  | releasing
  /-- `s.wg.Done()` -/
  | finishing
  | gone
  deriving DecidableEq, Repr

structure Job where
  conn : Nat
  stage : Stage
  deriving DecidableEq, Repr

/-- The next statement for a client; `free` is whether the mutex is free, and `ok` whether a dial succeeds and the
copies end without an error that counts. -/
def Job.next (free ok : Bool) (j : Job) (g : Shared) : Option (Job × Shared) :=
  match j.stage with
  | .accepting => some ({ j with stage := .activating }, { g with accepted := g.accepted + 1 })
  | .activating => some ({ j with stage := .tracking }, { g with active := g.active + 1 })
  | .tracking => if free then some ({ j with stage := .counting }, g.track (.client j.conn) true) else none
  | .counting => some ({ j with stage := .launching }, { g with wg := g.wg + 1 })
  | .launching => some ({ j with stage := .dial }, g)
  | .dial => some ({ j with stage := if g.cancelled then .dialFailed else .dialing }, g)
  | .dialing => some ({ j with stage := if ok then .trackingUpstream else .dialFailed }, g)
  | .dialFailed => some ({ j with stage := .untracking }, { g with dialErrors := g.dialErrors + 1 })
  | .trackingUpstream => if free then some ({ j with stage := .relaying }, g.track (.upstream j.conn) true) else none
  | .relaying => some ({ j with stage := .closingClient }, g)
  | .closingClient => some ({ j with stage := .closingUpstream }, g.shut (.client j.conn))
  | .closingUpstream => some ({ j with stage := .second }, g.shut (.upstream j.conn))
  | .second =>
    some ({ j with stage := .untrackingUpstream }, { g with relayErrors := if ok then g.relayErrors else g.relayErrors + 1 })
  | .untrackingUpstream =>
    if free then some ({ j with stage := .closingUpstreamAgain }, g.track (.upstream j.conn) false) else none
  | .closingUpstreamAgain => some ({ j with stage := .untracking }, g.shut (.upstream j.conn))
  | .untracking => if free then some ({ j with stage := .closingClientAgain }, g.track (.client j.conn) false) else none
  | .closingClientAgain => some ({ j with stage := .deactivating }, g.shut (.client j.conn))
  | .deactivating => some ({ j with stage := .releasing }, { g with active := g.active - 1 })
  | .releasing => if 0 < g.sem then some ({ j with stage := .finishing }, { g with sem := g.sem - 1 }) else none
  | .finishing => if 0 < g.wg then some ({ j with stage := .gone }, { g with wg := g.wg - 1 }) else none
  | .gone => none

/-! ## The other goroutines -/

/-- The accept loop. -/
inductive Loop where
  /-- `Start` was not called. -/
  | idle
  | accept
  /-- At the `select`. -/
  | accepted (c : Nat)
  | admitting (j : Job)
  /-- `s.rejected.Add(1)` -/
  | rejecting (c : Nat)
  /-- `client.Close()` -/
  | dropping (c : Nat)
  /-- `s.setRunError(...)` -/
  | failed (e : GoError)
  /-- `s.stop()` -/
  | stopping
  /-- The deferred `close(s.done)`. -/
  | closing
  | returned
  deriving DecidableEq, Repr

/-- The client that was accepted and has no place in the semaphore yet. -/
def Loop.holds : Loop → Option Nat
  | .accepted c | .rejecting c | .dropping c => some c
  | _ => none

def Loop.job : Loop → Option Job
  | .admitting j => some j
  | _ => none

/-- What `stopOnce` has run of `stop`. -/
inductive Stop where
  | idle
  /-- `s.mu.Lock()` -/
  | locking
  /-- `s.listener.Close()` -/
  | locked
  /-- In the loop over the table. -/
  | closing (rest : List Conn)
  | done
  deriving DecidableEq, Repr

/-- `stop()` is called: the first caller runs it. -/
def Stop.call : Stop → Stop
  | .idle => .locking
  | stop => stop

/-- The goroutine of `Start` that waits for the context or for the end of the accept loop. -/
inductive Watcher where
  | idle
  | watching
  | gone
  deriving DecidableEq, Repr

structure Relaying where
  shared : Shared
  loop : Loop
  stop : Stop
  watcher : Watcher
  /-- The goroutines of the handlers, in the order they were started in. -/
  handlers : List Job
  deriving DecidableEq, Repr

/-- `stop` does not hold the mutex. -/
def Relaying.free (s : Relaying) : Bool :=
  match s.stop with
  | .locked | .closing _ => false
  | _ => true

def Relaying.jobs (s : Relaying) : List Job := s.handlers ++ s.loop.job.toList

/-- The next statement of the accept loop where there is only one. -/
def Relaying.loopNext (s : Relaying) : Option Relaying :=
  match s.loop with
  | .admitting j =>
    (j.next s.free true s.shared).map fun (j', g) =>
      if j.stage = .launching then { s with shared := g, loop := .accept, handlers := s.handlers ++ [j'] }
      else { s with shared := g, loop := .admitting j' }
  | .rejecting c => some { s with shared := { s.shared with rejected := s.shared.rejected + 1 }, loop := .dropping c }
  | .dropping c => some { s with shared := s.shared.shut (.client c), loop := .accept }
  | .failed e => some { s with shared := s.shared.setRunError (e.wrap (lit "accept relay client: ")), loop := .stopping }
  | .stopping =>
    match s.stop with
    | .idle => some { s with stop := .locking }
    | .done => some { s with loop := .closing }
    | _ => none
  | .closing => some { s with shared := { s.shared with done := true }, loop := .returned }
  | _ => none

inductive Action where
  | start
  | cancel
  | accept
  /-- `Accept` fails because the listener is closed. -/
  | acceptClosed
  | acceptError (e : GoError)
  /-- `case s.sem <- struct{}{}` -/
  | acquire
  /-- `default` -/
  | reject
  | loop
  /-- `Shutdown` calls `stop`. -/
  | shutdown
  /-- `case <-ctx.Done()` -/
  | watchContext
  /-- `case <-s.done` -/
  | watchDone
  | lock
  /-- The listener is closed, and the table is gone through in this order. -/
  | sweep (order : List Conn)
  | close
  | handler (i : Nat) (ok : Bool)
  deriving DecidableEq, Repr

def step (limit : Nat) (s : Relaying) : Action → Option Relaying
  | .start =>
    if s.loop = .idle then
      some { s with shared := { s.shared with listening := true }, loop := .accept, watcher := .watching }
    else none
  | .cancel => some { s with shared := { s.shared with cancelled := true } }
  | .accept =>
    if s.loop = .accept ∧ s.shared.listenerClosed = false then
      some { s with shared := { s.shared with arrived := s.shared.arrived + 1 }, loop := .accepted s.shared.arrived }
    else none
  | .acceptClosed => if s.loop = .accept ∧ s.shared.listenerClosed then some { s with loop := .closing } else none
  | .acceptError e => if s.loop = .accept then some { s with loop := .failed e } else none
  | .acquire =>
    match s.loop with
    | .accepted c =>
      if s.shared.sem < limit then
        some { s with shared := { s.shared with sem := s.shared.sem + 1 }, loop := .admitting ⟨c, .accepting⟩ }
      else none
    | _ => none
  | .reject =>
    match s.loop with
    | .accepted c => if s.shared.sem < limit then none else some { s with loop := .rejecting c }
    | _ => none
  | .loop => s.loopNext
  | .shutdown => some { s with stop := s.stop.call }
  | .watchContext =>
    if s.watcher = .watching ∧ s.shared.cancelled then some { s with watcher := .gone, stop := s.stop.call } else none
  | .watchDone => if s.watcher = .watching ∧ s.shared.done then some { s with watcher := .gone } else none
  | .lock => if s.stop = .locking then some { s with stop := .locked } else none
  | .sweep order =>
    if s.stop = .locked ∧ order.Perm s.shared.conns then
      some { s with
        shared := { s.shared with listenerClosed := s.shared.listenerClosed || s.shared.listening }
        stop := .closing order }
    else none
  | .close =>
    match s.stop with
    | .closing (c :: rest) => some { s with shared := s.shared.shut c, stop := .closing rest }
    | .closing [] => some { s with stop := .done }
    | _ => none
  | .handler i ok =>
    (s.handlers[i]?).bind fun j => (j.next s.free ok s.shared).map fun (j', g) =>
      { s with shared := g, handlers := s.handlers.set i j' }

/-- The goroutines of a relay. -/
def Server.relaying (server : Server) : Machine Relaying Action := ⟨step server.limit⟩

/-- A new relay. -/
def initial : Relaying where
  shared := {
    listening := false
    listenerClosed := false
    conns := []
    sem := 0
    wg := 0
    done := false
    runErr := none
    active := 0
    accepted := 0
    rejected := 0
    dialErrors := 0
    relayErrors := 0
    cancelled := false
    arrived := 0
    closed := [] }
  loop := .idle
  stop := .idle
  watcher := .idle
  handlers := []

end Accelerator.Relay
