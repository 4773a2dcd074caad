/-
`Server.Serve` (`protocol/mysql/listener.go`): the goroutine that accepts, the one that closes everything when
the context is done, and one goroutine for each connection, as a machine whose actions are the statements of
the goroutines in any order. The listener, the context and the handlers are not known: `Accept` may return
anything at any time, the context may be cancelled at any time, and a handler may return at any time.
-/
import Accelerator.Interact.Machine
import Accelerator.Upstream.Types
import Mathlib.Data.List.Perm.Basic

namespace Accelerator.Listener

open Strings Upstream Interact

/-! ## The server -/

structure ListenerConfig where
  maxConnections : Int64
  maxMessageBytes : Int64
  idleTimeout : Int64
  deriving DecidableEq, Repr

def ListenerConfig.validate (c : ListenerConfig) : Option GoError :=
  if c.maxConnections ≤ 0 ∨ c.maxMessageBytes ≤ 0 ∨ c.idleTimeout ≤ 0 then
    some (errorsNew "mysql listener limits must be positive")
  else none

/-- What `NewServer` has checked of a `Server`. -/
structure Server where
  config : ListenerConfig
  valid : config.validate = none

def newServer (config : ListenerConfig) (hasHandler : Bool) : Except GoError Server :=
  match h : config.validate with
  | some e => .error e
  | none => if hasHandler then .ok ⟨config, h⟩ else .error (errorsNew "mysql listener handler is required")

/-- The capacity of the channel of tokens. -/
def Server.limit (server : Server) : Nat := server.config.maxConnections.toInt.toNat

/-! ## What the goroutines share -/

/-- The fields of the `Server` and the variables of `Serve`. Connections are numbered as they are accepted. -/
structure Shared where
  nextID : UInt64
  active : Int
  rejected : UInt64
  connections : List Nat
  /-- How many tokens are in the channel. -/
  tokens : Nat
  /-- The counter of the wait group. -/
  wait : Nat
  /-- `serveContext` is done. -/
  cancelled : Bool
  /-- The channel `closed` is closed. -/
  finished : Bool
  accepted : Nat
  /-- The connections that were closed, by anyone. -/
  closed : List Nat
  listenerClosed : Bool
  deriving DecidableEq, Repr

/-- A connection is closed. -/
def Shared.shut (g : Shared) (c : Nat) : Shared := { g with closed := c :: g.closed }

/-! ## A connection that has a token -/

/-- Where a connection with a token is: the statement that is next for it, from the statements of `Serve` before
the `go` to the deferred ones of its handler, which run last first. -/
inductive Stage where
  /-- `s.nextID.Add(1)` -/
  | taken
  /-- `s.addConnection(connection)` -/
  | named
  /-- `s.active.Add(1)` -/
  | added
  /-- `wait.Add(1)` -/
  | counted
  /-- `go func() ...` -/
  | awaited
  /-- `s.handler.Handle(serveContext, client)` and `s.onError(info, err)` -/
  | running
  /-- `connection.Close()` -/
  | closing
  /-- `s.removeConnection(connection)` -/
  | removing
  /-- `s.active.Add(-1)` -/
  | uncounting
  /-- `<-tokens` -/
  | releasing
  /-- `wait.Done()` -/
  | finishing
  | gone
  deriving DecidableEq, Repr

/-- A connection with its ID. -/
structure Job where
  conn : Nat
  id : UInt64
  stage : Stage
  deriving DecidableEq, Repr

/-- The next statement for a connection; `free` is whether the mutex is free. A receive from the empty channel
blocks, and so does, here, a `Done` that would be one too many. -/
def Job.next (free : Bool) (j : Job) (g : Shared) : Option (Job × Shared) :=
  match j.stage with
  | .taken => some ({ j with id := g.nextID + 1, stage := .named }, { g with nextID := g.nextID + 1 })
  | .named =>
    if free then some ({ j with stage := .added }, { g with connections := g.connections.insert j.conn }) else none
  | .added => some ({ j with stage := .counted }, { g with active := g.active + 1 })
  | .counted => some ({ j with stage := .awaited }, { g with wait := g.wait + 1 })
  | .awaited => some ({ j with stage := .running }, g)
  | .running => some ({ j with stage := .closing }, g)
  | .closing => some ({ j with stage := .removing }, g.shut j.conn)
  | .removing =>
    if free then
      some ({ j with stage := .uncounting }, { g with connections := g.connections.filter (· ≠ j.conn) })
    else none
  | .uncounting => some ({ j with stage := .releasing }, { g with active := g.active - 1 })
  | .releasing => if 0 < g.tokens then some ({ j with stage := .finishing }, { g with tokens := g.tokens - 1 }) else none
  | .finishing => if 0 < g.wait then some ({ j with stage := .gone }, { g with wait := g.wait - 1 }) else none
  | .gone => none

/-! ## Closing everything -/

/-- `listener.Close()` and `closeActive()`, which both goroutines run: the mutex is held while the connections of
the table are closed. -/
inductive Sweep where
  | closeListener
  | lock
  | closing (rest : List Nat)
  | swept
  deriving DecidableEq, Repr

def Sweep.holdsLock : Sweep → Bool
  | .closing _ => true
  | _ => false

/-- The next statement, except for the lock. -/
def Sweep.next (g : Shared) : Sweep → Option (Sweep × Shared)
  | .closeListener => some (.lock, { g with listenerClosed := true })
  | .closing (c :: rest) => some (.closing rest, g.shut c)
  | .closing [] => some (.swept, g)
  | _ => none

/-! ## The goroutine that accepts -/

/-- The deferred calls of `Serve`. -/
inductive Unwind where
  | cancel
  /-- The sweep, and then `wait.Wait()`. -/
  | sweep (w : Sweep)
  /-- `close(closed)` -/
  | closeChannel
  /-- The first `defer cancel()`. -/
  | cancelAgain
  deriving DecidableEq, Repr

/-- Where the goroutine of `Serve` is. -/
inductive Loop where
  | accepting
  /-- In the `select` after a temporary error. -/
  | waiting
  /-- At the `select` for a token. -/
  | accepted (c : Nat)
  /-- `s.rejected.Add(1)` -/
  | rejecting (c : Nat)
  /-- `connection.Close()`, and then the next `Accept`. -/
  | dropping (c : Nat)
  /-- `connection.Close()`, and then the return. -/
  | refusing (c : Nat)
  | registering (j : Job)
  | unwinding (u : Unwind) (result : Option GoError)
  | returned (result : Option GoError)
  deriving DecidableEq, Repr

/-- The connection that has no token yet. -/
def Loop.holds : Loop → Option Nat
  | .accepted c | .rejecting c | .dropping c | .refusing c => some c
  | _ => none

/-- The connection that has a token and no handler yet. -/
def Loop.job : Loop → Option Job
  | .registering j => some j
  | _ => none

def Loop.holdsLock : Loop → Bool
  | .unwinding (.sweep w) _ => w.holdsLock
  | _ => false

/-- The goroutine that waits for the context or for the end of `Serve`. -/
inductive Closer where
  | watching
  | sweep (w : Sweep)
  deriving DecidableEq, Repr

def Closer.holdsLock : Closer → Bool
  | .sweep w => w.holdsLock
  | _ => false

structure Serving where
  shared : Shared
  loop : Loop
  /-- In milliseconds. -/
  backoff : Nat
  closer : Closer
  /-- The goroutines of the handlers, in the order they were started in. -/
  handlers : List Job
  deriving DecidableEq, Repr

def Serving.free (s : Serving) : Bool := !s.loop.holdsLock && !s.closer.holdsLock

/-- The connections that were given a token, in the order they were given it in. -/
def Serving.jobs (s : Serving) : List Job := s.handlers ++ s.loop.job.toList

/-- Why `Accept` fails. -/
inductive AcceptError where
  | closed
  | temporary
  | other (e : GoError)
  deriving DecidableEq, Repr

def nextBackoff (backoff : Nat) : Nat :=
  let backoff := if backoff = 0 then 5 else backoff * 2
  if backoff > 1000 then 1000 else backoff

/-- The state after `Accept` failed. -/
def Serving.acceptFailed (s : Serving) (e : AcceptError) : Serving :=
  if s.shared.cancelled ∨ e = .closed then { s with loop := .unwinding .cancel none }
  else
    match e with
    | .temporary => { s with loop := .waiting, backoff := nextBackoff s.backoff }
    | .other e => { s with loop := .unwinding .cancel (some e) }
    | .closed => s

/-- The next statement of `Serve` where there is only one. -/
def Serving.serveNext (s : Serving) : Option Serving :=
  match s.loop with
  | .rejecting c => some { s with shared := { s.shared with rejected := s.shared.rejected + 1 }, loop := .dropping c }
  | .dropping c => some { s with shared := s.shared.shut c, loop := .accepting }
  | .refusing c => some { s with shared := s.shared.shut c, loop := .unwinding .cancel none }
  | .registering j =>
    (j.next s.free s.shared).map fun (j', g) =>
      if j.stage = .awaited then { s with shared := g, loop := .accepting, handlers := s.handlers ++ [j'] }
      else { s with shared := g, loop := .registering j' }
  | .unwinding .cancel e =>
    some { s with shared := { s.shared with cancelled := true }, loop := .unwinding (.sweep .closeListener) e }
  | .unwinding (.sweep .swept) e => if s.shared.wait = 0 then some { s with loop := .unwinding .closeChannel e } else none
  | .unwinding (.sweep w) e =>
    (w.next s.shared).map fun (w', g) => { s with shared := g, loop := .unwinding (.sweep w') e }
  | .unwinding .closeChannel e =>
    some { s with shared := { s.shared with finished := true }, loop := .unwinding .cancelAgain e }
  | .unwinding .cancelAgain e =>
    some { s with shared := { s.shared with cancelled := true }, loop := .returned e }
  | _ => none

/-- The actions of all goroutines, and of the context. -/
inductive Action where
  | cancel
  | accept
  | acceptError (e : AcceptError)
  /-- `case <-time.After(backoff)` -/
  | retry
  /-- `case <-serveContext.Done()`, after a temporary error. -/
  | giveUp
  /-- `case tokens <- struct{}{}` -/
  | take
  /-- `case <-serveContext.Done()`, with a connection. -/
  | refuse
  /-- `default` -/
  | reject
  | serve
  /-- `closeActive` gets the mutex, and will go through the table in this order. -/
  | serveLock (order : List Nat)
  /-- `case <-serveContext.Done()`, of the goroutine that closes. -/
  | watchContext
  /-- `case <-closed` -/
  | watchClosed
  | close
  | closeLock (order : List Nat)
  | handler (i : Nat)
  /-- A handler closes its connection. -/
  | hangUp (i : Nat)
  deriving DecidableEq, Repr

def step (limit : Nat) (s : Serving) : Action → Option Serving
  | .cancel => some { s with shared := { s.shared with cancelled := true } }
  | .accept =>
    if s.loop = .accepting then
      some { s with
        shared := { s.shared with accepted := s.shared.accepted + 1 }
        loop := .accepted s.shared.accepted
        backoff := 0 }
    else none
  | .acceptError e => if s.loop = .accepting then some (s.acceptFailed e) else none
  | .retry => if s.loop = .waiting then some { s with loop := .accepting } else none
  | .giveUp =>
    if s.loop = .waiting ∧ s.shared.cancelled then some { s with loop := .unwinding .cancel none } else none
  | .take =>
    match s.loop with
    | .accepted c =>
      if s.shared.tokens < limit then
        some { s with shared := { s.shared with tokens := s.shared.tokens + 1 }, loop := .registering ⟨c, 0, .taken⟩ }
      else none
    | _ => none
  | .refuse =>
    match s.loop with
    | .accepted c => if s.shared.cancelled then some { s with loop := .refusing c } else none
    | _ => none
  | .reject =>
    match s.loop with
    | .accepted c =>
      if s.shared.tokens < limit ∨ s.shared.cancelled then none else some { s with loop := .rejecting c }
    | _ => none
  | .serve => s.serveNext
  | .serveLock order =>
    match s.loop with
    | .unwinding (.sweep .lock) e =>
      if s.free ∧ order.Perm s.shared.connections then
        some { s with loop := .unwinding (.sweep (.closing order)) e }
      else none
    | _ => none
  | .watchContext =>
    if s.closer = .watching ∧ s.shared.cancelled then some { s with closer := .sweep .closeListener } else none
  | .watchClosed => if s.closer = .watching ∧ s.shared.finished then some { s with closer := .sweep .swept } else none
  | .close =>
    match s.closer with
    | .sweep w => (w.next s.shared).map fun (w', g) => { s with shared := g, closer := .sweep w' }
    | .watching => none
  | .closeLock order =>
    if s.closer = .sweep .lock ∧ s.free ∧ order.Perm s.shared.connections then
      some { s with closer := .sweep (.closing order) }
    else none
  | .handler i =>
    (s.handlers[i]?).bind fun j => (j.next s.free s.shared).map fun (j', g) =>
      { s with shared := g, handlers := s.handlers.set i j' }
  | .hangUp i =>
    (s.handlers[i]?).bind fun j =>
      if j.stage = .running then some { s with shared := s.shared.shut j.conn } else none

/-- The goroutines of a call of `Serve`. -/
def Server.serving (server : Server) : Machine Serving Action := ⟨step server.limit⟩

/-- The start of `Serve` on a server that serves nothing. -/
def start (hasListener : Bool) (nextID rejected : UInt64) : Serving where
  shared := {
    nextID, rejected
    active := 0
    connections := []
    tokens := 0
    wait := 0
    cancelled := false
    finished := false
    accepted := 0
    closed := []
    listenerClosed := false }
  loop := if hasListener then .accepting else .returned (some (errorsNew "mysql listener is required"))
  backoff := 0
  closer := if hasListener then .watching else .sweep .swept
  handlers := []

end Accelerator.Listener
