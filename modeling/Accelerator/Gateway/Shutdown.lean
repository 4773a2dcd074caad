/-
Starting and stopping the gateway (`Service.Start` and `Service.Shutdown`, `gateway/gateway.go`). Any number of
calls of both, the goroutines of `Server.Serve` and the sessions that its handlers run take their steps in any
order: the pool is closed at most once, and only when every session has ended and given its connections back.
-/
import Accelerator.Protocol.Serving
import Accelerator.Gateway.Sharing

namespace Accelerator.Gateway

open Interact Strings Upstream

/-! ## The calls -/

/-- Where a call of `Start` is: the statement that is next. -/
inductive Start where
  /-- `net.Listen` -/
  | listen
  /-- The section under the mutex. -/
  | register
  /-- `cancel()` and `listener.Close()`, when there is a listener already. -/
  | discard
  /-- `go func() { s.done <- s.server.Serve(ctx, listener) }()` -/
  | launch
  | returned (err : Option GoError)
  deriving DecidableEq, Repr

/-- Where a call of `Shutdown` is. It goes by the `cancel` and the `listener` that it read, which are known by
the call of `Start` that made them. -/
inductive Shutdown where
  /-- The section under the mutex. -/
  | read
  /-- `cancel()` -/
  | cancel (cancel listener : Option Nat)
  /-- `listener.Close()` -/
  | close (listener : Option Nat)
  | select
  /-- `s.database.Close()`, after this was received. -/
  | closeDatabase (err : Option GoError)
  | stopped (err : Option GoError)
  /-- `return ctx.Err()` -/
  | expired (err : GoError)
  deriving DecidableEq, Repr

/-- The pool is about to be closed. -/
def Shutdown.isClosing : Shutdown → Bool
  | .closeDatabase _ => true
  | _ => false

def Shutdown.isStopped : Shutdown → Bool
  | .stopped _ => true
  | _ => false

/-! ## The service -/

/-- A service from its first call on, with as many handlers as `ι` has sessions for. -/
structure Lifetime (ι : Type) where
  listener : Option Nat
  cancel : Option Nat
  starts : List Start
  shutdowns : List Shutdown
  /-- The contexts that are done and the listeners that were closed, by their calls of `Start`. -/
  cancelled : List Nat
  closed : List Nat
  /-- The goroutines of `Serve`, when they were started. -/
  serving : Option Listener.Serving
  /-- The result of `Serve` was sent. -/
  sent : Bool
  /-- The channel `done`, which has room for one result. -/
  done : Option (Option GoError)
  /-- How often the pool was closed. -/
  closes : Nat
  sessions : Sessions ι
  /-- The clients that were admitted: their handlers run a session. -/
  admitted : ι → Bool

/-- What the goroutines and the world do. -/
inductive Act (ι : Type) where
  | callStart
  /-- The next statement of a call of `Start`; `err` is what `net.Listen` returns. -/
  | start (k : Nat) (err : Option GoError)
  /-- The parent of a context is done. -/
  | parent (k : Nat)
  | callShutdown
  /-- The next statement of a call of `Shutdown`; `err` is what `s.database.Close` returns. -/
  | shutdown (k : Nat) (err : Option GoError)
  /-- `case <-ctx.Done()` -/
  | expire (k : Nat) (err : GoError)
  | serve (a : Listener.Action)
  /-- `s.done <- ...` -/
  | send
  /-- The client of handler `i` is authenticated. -/
  | enter (i : ι)
  /-- Session `i` begins its next round. -/
  | round (i : ι)
  /-- Session `i` is given a reply. -/
  | reply (i : ι) (reply : Reply ι)

namespace Lifetime

section Steps

variable {ι : Type}

/-- The next statement of call `k` of `Start`. -/
def startNext (g : Lifetime ι) (k : Nat) (err : Option GoError) : Start → Option (Lifetime ι)
  | .listen =>
    match err with
    | some e => some { g with starts := g.starts.set k (.returned (some (e.wrap (lit "open pooled mysql listener: ")))) }
    | none => some { g with starts := g.starts.set k .register }
  | .register =>
    if g.listener.isSome then some { g with starts := g.starts.set k .discard }
    else some { g with listener := some k, cancel := some k, starts := g.starts.set k .launch }
  | .discard => some { g with
      cancelled := k :: g.cancelled
      closed := k :: g.closed
      starts := g.starts.set k (.returned (some (errorsNew "pooled mysql listener already started"))) }
  | .launch =>
    if g.serving.isNone then
      some { g with serving := some (Listener.start true 0 0), starts := g.starts.set k (.returned none) }
    else none
  | .returned _ => none

/-- The next statement of call `k` of `Shutdown`, but for the case of the context. -/
def shutdownNext (g : Lifetime ι) (k : Nat) (err : Option GoError) : Shutdown → Option (Lifetime ι)
  | .read => some { g with shutdowns := g.shutdowns.set k (.cancel g.cancel g.listener) }
  | .cancel cancel listener => some { g with
      cancelled := cancel.toList ++ g.cancelled
      shutdowns := g.shutdowns.set k (.close listener) }
  | .close listener => some { g with
      closed := listener.toList ++ g.closed
      shutdowns := g.shutdowns.set k .select }
  | .select =>
    match g.done with
    | some e => some { g with done := none, shutdowns := g.shutdowns.set k (.closeDatabase e) }
    | none => none
  | .closeDatabase e => some { g with closes := g.closes + 1, shutdowns := g.shutdowns.set k (.stopped (e.or err)) }
  | .stopped _ | .expired _ => none

end Steps

variable {n : Nat}

/-- Session `i` has ended. -/
def ended (g : Lifetime (Fin n)) (i : Fin n) : Bool := (g.sessions.thread i).isEnded

/-- Handler `i` is in `handleClient`. -/
def handling (g : Lifetime (Fin n)) (i : Nat) : Bool :=
  match g.serving with
  | some s => (s.handlers[i]?).any fun j => j.stage = .running
  | none => false

/-- The handler of a client that was admitted returns when its session has ended; one whose client was not may
return at any time. -/
def mayReturn (g : Lifetime (Fin n)) (i : Nat) : Bool :=
  if h : i < n then !g.admitted ⟨i, h⟩ || g.ended ⟨i, h⟩ else true

/-- What `Serve` may do in the service. Its context is done when that of the call of `Start` is, `Accept` says that
the listener is closed only if it is, and there are sessions for the handlers. -/
def mayServe (g : Lifetime (Fin n)) (s : Listener.Serving) : Listener.Action → Bool
  | .cancel => g.cancel.any fun k => g.cancelled.contains k
  | .acceptError .closed => s.shared.listenerClosed || g.listener.any fun k => g.closed.contains k
  | .serve =>
    match s.loop with
    | .registering j => j.stage ≠ .awaited || s.handlers.length < n
    | _ => true
  | .handler i => !g.handling i || g.mayReturn i
  | _ => true

/-- The service after a step, if the step is possible. -/
def step (server : Listener.Server) (svc : Service) (limits : Limits) (g : Lifetime (Fin n)) :
    Act (Fin n) → Option (Lifetime (Fin n))
  | .callStart => some { g with starts := g.starts ++ [.listen] }
  | .start k err => (g.starts[k]?).bind (g.startNext k err)
  | .parent k => if k < g.starts.length then some { g with cancelled := k :: g.cancelled } else none
  | .callShutdown => some { g with shutdowns := g.shutdowns ++ [.read] }
  | .shutdown k err => (g.shutdowns[k]?).bind (g.shutdownNext k err)
  | .expire k err =>
    if g.shutdowns[k]? = some .select then some { g with shutdowns := g.shutdowns.set k (.expired err) } else none
  | .serve a =>
    g.serving.bind fun s => if g.mayServe s a then
      (Listener.step server.limit s a).map fun s' => { g with serving := some s' } else none
  | .send =>
    match g.serving, g.done with
    | some s, none =>
      match s.loop with
      | .returned e => if g.sent then none else some { g with sent := true, done := some e }
      | _ => none
    | _, _ => none
  | .enter i => if g.handling i && !g.admitted i then some { g with admitted := Function.update g.admitted i true } else none
  | .round i =>
    if g.handling i && g.admitted i then
      some { g with sessions := g.sessions.wake Ledger.next (fun i w => w.answer limits i) World.note (handleClient svc) i }
    else none
  | .reply i reply =>
    if g.handling i && g.admitted i then
      (g.sessions.tell Ledger.next (fun i w => w.answer limits i) World.note (handleClient svc) i reply).map
        fun sessions => { g with sessions := sessions }
    else none

/-- The service that `New` returns. -/
def fresh (svc : Service) (n : Nat) : Lifetime (Fin n) where
  listener := none
  cancel := none
  starts := []
  shutdowns := []
  cancelled := []
  closed := []
  serving := none
  sent := false
  done := none
  closes := 0
  sessions := System.start (World.fresh (Fin n)) (newSession svc) {}
  admitted := fun _ => false

def machine (server : Listener.Server) (svc : Service) (limits : Limits) (n : Nat) : Machine (Lifetime (Fin n)) (Act (Fin n)) :=
  ⟨step server svc limits⟩

/-- The states of a service, whatever is called and in whatever order. -/
def Reaches (server : Listener.Server) (svc : Service) (limits : Limits) (g : Lifetime (Fin n)) : Prop :=
  (machine server svc limits n).Reach (fun _ _ => True) (fresh svc n) g

end Lifetime

/-! ## What the steps of `Serve` keep -/

section Serving

variable {limit : Nat} {s s' : Listener.Serving}

theorem acceptFailed_handlers (s : Listener.Serving) (e : Listener.AcceptError) : (s.acceptFailed e).handlers = s.handlers := by
  unfold Listener.Serving.acceptFailed
  split
  · rfl
  · cases e <;> rfl

theorem serveNext_handlers (h : s.serveNext = some s') : ∃ new, s'.handlers = s.handlers ++ new := by
  unfold Listener.Serving.serveNext at h
  have hsame : s'.handlers = s.handlers → ∃ new, s'.handlers = s.handlers ++ new := fun he => ⟨[], by simp [he]⟩
  split at h
  case h_4 j hloop =>
    obtain ⟨⟨j', g⟩, -, rfl⟩ := Option.map_eq_some_iff.1 h
    dsimp only
    split
    · exact ⟨[j'], rfl⟩
    · exact ⟨[], (List.append_nil _).symm⟩
  case h_6 =>
    obtain ⟨-, he⟩ := Option.ite_none_right_eq_some.1 h
    cases he
    exact hsame rfl
  case h_7 =>
    obtain ⟨x, -, rfl⟩ := Option.map_eq_some_iff.1 h
    exact hsame rfl
  all_goals first | (cases h; exact hsame rfl) | cases h

/-- Only its own steps change a handler; a new one may be started. -/
theorem step_handlers {a : Listener.Action} (ha : ∀ i, a ≠ .handler i) (h : Listener.step limit s a = some s') :
    ∃ new, s'.handlers = s.handlers ++ new := by
  have hsame : s'.handlers = s.handlers → ∃ new, s'.handlers = s.handlers ++ new := fun he => ⟨[], by simp [he]⟩
  cases a with
  | handler i => exact absurd rfl (ha i)
  | serve => exact serveNext_handlers h
  | acceptError e =>
    obtain ⟨-, he⟩ := Option.ite_none_right_eq_some.1 h
    cases he
    exact hsame (acceptFailed_handlers s e)
  | close =>
    simp only [Listener.step] at h
    split at h
    · obtain ⟨x, -, rfl⟩ := Option.map_eq_some_iff.1 h
      exact hsame rfl
    · cases h
  | hangUp i =>
    obtain ⟨j, -, h⟩ := Option.bind_eq_some_iff.1 h
    obtain ⟨-, he⟩ := Option.ite_none_right_eq_some.1 h
    cases he
    exact hsame rfl
  | _ =>
    simp only [Listener.step] at h
    repeat' split at h
    all_goals first | (cases h; exact hsame rfl) | cases h

/-- When `Serve` has returned it does nothing more. -/
theorem step_returned {a : Listener.Action} {e : Option GoError} (hs : s.loop = .returned e)
    (h : Listener.step limit s a = some s') : s'.loop = .returned e := by
  by_cases ha : a.others = true
  · rw [Listener.loop_of_others ha h, hs]
  · cases a <;> first | exact absurd rfl ha | simp [Listener.step, Listener.Serving.serveNext, hs] at h

end Serving

/-! ## The invariant -/

namespace Lifetime

variable {n : Nat} {server : Listener.Server} {svc : Service} {limits : Limits} {g g' : Lifetime (Fin n)} {a : Act (Fin n)}

/-- `Serve` is started once, by the call of `Start` that set the listener. -/
structure Launched (g : Lifetime (Fin n)) : Prop where
  registered : ∀ k : Nat, g.starts[k]? = some Start.launch ∨ g.starts[k]? = some (Start.returned none) → g.listener = some k
  launch : ∀ k : Nat, g.starts[k]? = some Start.launch → g.serving = none
  listener : g.serving.isSome → g.listener.isSome

/-- The result of `Serve` is sent once, when it has returned, and received once. -/
structure Reported (g : Lifetime (Fin n)) : Prop where
  sent : g.sent = true → ∃ s e, g.serving = some s ∧ s.loop = .returned e
  count : g.done.toList.length + g.shutdowns.countP Shutdown.isClosing + g.closes = g.sent.toNat
  stopped : g.shutdowns.countP Shutdown.isStopped = g.closes

/-- Sessions run in handlers. -/
structure Attended (server : Listener.Server) (svc : Service) (limits : Limits) (g : Lifetime (Fin n)) : Prop where
  serving : ∀ s, g.serving = some s → Listener.Inv server.limit 0 s
  sessions : g.sessions.Reachable svc limits
  waiting : ∀ i, g.admitted i = false → g.sessions.thread i = ⟨newSession svc, {}, .idle⟩
  running : ∀ i, g.admitted i = true → g.ended i = false → g.handling i = true

section Launched

/-- A step after which no further call is at its launch or past it. -/
theorem Launched.of_back (hL : Launched g) (hback : ∀ (k : Nat) (st : Start), st = .launch ∨ st = .returned none →
      g'.starts[k]? = some st → g.starts[k]? = some st) (hl : g'.listener = g.listener)
    (hv : g'.serving.isSome = g.serving.isSome) : Launched g' := by
  constructor
  · intro k hk
    rw [hl]
    exact hL.registered k (hk.imp (hback k _ (.inl rfl)) (hback k _ (.inr rfl)))
  · intro k hk
    have := hL.launch k (hback k _ (.inl rfl) hk)
    rw [← Option.not_isSome_iff_eq_none, hv, this]
    exact Bool.false_ne_true
  · rw [hl, hv]
    exact hL.listener

/-- A step of call `k` of `Start` to a stage in which it has no listener to serve. -/
theorem Launched.quiet (hL : Launched g) {k : Nat} {st : Start} (hst : st ≠ .launch ∧ st ≠ .returned none)
    (hs : g'.starts = g.starts.set k st) (hl : g'.listener = g.listener) (hv : g'.serving = g.serving) : Launched g' := by
  refine hL.of_back ?_ hl (by rw [hv])
  intro j x hx hj
  rw [hs, List.getElem?_set] at hj
  split_ifs at hj
  · obtain rfl := Option.some.inj hj
    exact (hx.elim hst.1 hst.2).elim
  · exact hj

/-- The steps that leave the calls of `Start` alone. -/
theorem Launched.same (hL : Launched g) (hs : g'.starts = g.starts) (hl : g'.listener = g.listener)
    (hv : g'.serving.isSome = g.serving.isSome) : Launched g' :=
  hL.of_back (fun k st _ hk => by rw [← hs]; exact hk) hl hv

theorem Launched.call (hL : Launched g) : Launched { g with starts := g.starts ++ [.listen] } := by
  refine hL.of_back ?_ rfl rfl
  intro k st hst hk
  rcases Nat.lt_or_ge k g.starts.length with hlt | hge
  · rwa [List.getElem?_append_left hlt] at hk
  · rw [List.getElem?_append_right hge, List.getElem?_singleton] at hk
    split_ifs at hk
    obtain rfl := Option.some.inj hk
    rcases hst with ⟨⟨⟩⟩ | ⟨⟨⟩⟩

theorem Launched.start {k : Nat} {err : Option GoError} (hL : Launched g)
    (h : (g.starts[k]?).bind (g.startNext k err) = some g') : Launched g' := by
  obtain ⟨st, hk, h⟩ := Option.bind_eq_some_iff.1 h
  have hlt : k < g.starts.length := (List.getElem?_eq_some_iff.1 hk).1
  cases st with
  | listen =>
    cases err with
    | some e => cases h; exact hL.quiet ⟨by rintro ⟨⟩, by rintro ⟨⟩⟩ rfl rfl rfl
    | none => cases h; exact hL.quiet ⟨by rintro ⟨⟩, by rintro ⟨⟩⟩ rfl rfl rfl
  | register =>
    simp only [startNext] at h
    split at h
    · cases h
      exact hL.quiet ⟨by rintro ⟨⟩, by rintro ⟨⟩⟩ rfl rfl rfl
    · rename_i hnone
      cases h
      -- no call has a listener, and so none is at its launch or past it
      have hlistener : g.listener = none := by simpa using hnone
      have hserving : g.serving = none := by
        by_contra hs
        have := hL.listener (Option.isSome_iff_ne_none.2 hs)
        rw [hlistener] at this
        cases this
      have hfirst : ∀ (j : Nat) (x : Start), x = .launch ∨ x = .returned none → g.starts[j]? ≠ some x := by
        rintro j x hx hj
        have := hL.registered j (by rcases hx with rfl | rfl <;> simp [hj])
        rw [hlistener] at this
        cases this
      constructor
      · intro j hj
        by_cases hjk : k = j
        · rw [hjk]
        · simp only [List.getElem?_set_ne hjk] at hj
          exact (hj.elim (hfirst j _ (.inl rfl)) (hfirst j _ (.inr rfl))).elim
      · exact fun _ _ => hserving
      · exact fun _ => rfl
  | discard => cases h; exact hL.quiet ⟨by rintro ⟨⟩, by rintro ⟨⟩⟩ rfl rfl rfl
  | launch =>
    obtain ⟨-, he⟩ := Option.ite_none_right_eq_some.1 h
    cases he
    have hlistener := hL.registered k (.inl hk)
    constructor
    · intro j hj
      by_cases hjk : k = j
      · rw [← hjk]
        exact hlistener
      · simp only [List.getElem?_set_ne hjk] at hj
        exact hL.registered j hj
    · intro j hj
      by_cases hjk : k = j
      · subst hjk
        simp only [List.getElem?_set_self hlt] at hj
        cases hj
      · simp only [List.getElem?_set_ne hjk] at hj
        exact absurd (Option.some.inj (hlistener.symm.trans (hL.registered j (.inl hj)))) hjk
    · exact fun _ => by rw [hlistener]; rfl
  | returned e => cases h

end Launched

/-- What a call of `Start` does to the rest. -/
theorem startNext_frame {k : Nat} {err : Option GoError} {st : Start} (h : g.startNext k err st = some g') :
    (g'.shutdowns = g.shutdowns ∧ g'.done = g.done ∧ g'.closes = g.closes ∧ g'.sent = g.sent) ∧
    (g'.sessions = g.sessions ∧ g'.admitted = g.admitted) ∧
    (g'.serving = g.serving ∨ g.serving = none ∧ g'.serving = some (Listener.start true 0 0)) := by
  cases st with
  | listen => cases err <;> cases h <;> exact ⟨⟨rfl, rfl, rfl, rfl⟩, ⟨rfl, rfl⟩, .inl rfl⟩
  | register =>
    simp only [startNext] at h
    split at h <;> cases h <;> exact ⟨⟨rfl, rfl, rfl, rfl⟩, ⟨rfl, rfl⟩, .inl rfl⟩
  | discard => cases h; exact ⟨⟨rfl, rfl, rfl, rfl⟩, ⟨rfl, rfl⟩, .inl rfl⟩
  | launch =>
    obtain ⟨hnone, he⟩ := Option.ite_none_right_eq_some.1 h
    cases he
    exact ⟨⟨rfl, rfl, rfl, rfl⟩, ⟨rfl, rfl⟩, .inr ⟨Option.isNone_iff_eq_none.1 hnone, rfl⟩⟩
  | returned e => cases h

/-- What a call of `Shutdown` does to the rest. -/
theorem shutdownNext_frame {k : Nat} {err : Option GoError} {x : Shutdown} (h : g.shutdownNext k err x = some g') :
    (g'.starts = g.starts ∧ g'.listener = g.listener ∧ g'.serving = g.serving) ∧
    g'.sessions = g.sessions ∧ g'.admitted = g.admitted := by
  cases x with
  | select =>
    simp only [shutdownNext] at h
    split at h <;> cases h
    exact ⟨⟨rfl, rfl, rfl⟩, rfl, rfl⟩
  | stopped e => cases h
  | expired e => cases h
  | _ => cases h; exact ⟨⟨rfl, rfl, rfl⟩, rfl, rfl⟩

section Reported

/-- A step of a call of `Shutdown` that neither receives the result nor closes the pool. -/
theorem Reported.quiet (hR : Reported g) {k : Nat} {x y : Shutdown} (hk : g.shutdowns[k]? = some x)
    (hx : x.isClosing = false ∧ x.isStopped = false) (hy : y.isClosing = false ∧ y.isStopped = false)
    (hs : g'.shutdowns = g.shutdowns.set k y) (hd : g'.done = g.done) (hc : g'.closes = g.closes)
    (hv : g'.serving = g.serving) (hsent : g'.sent = g.sent) : Reported g' := by
  have hclosing := countP_set_add Shutdown.isClosing (y := y) hk
  have hstopped := countP_set_add Shutdown.isStopped (y := y) hk
  rw [hx.1, hy.1] at hclosing
  rw [hx.2, hy.2] at hstopped
  have hcount := hR.count
  have hR' := hR.stopped
  refine ⟨by rw [hsent, hv]; exact hR.sent, ?_, ?_⟩
  · rw [hs, hd, hc, hsent]
    omega
  · rw [hs, hc]
    omega

theorem Reported.shutdown {k : Nat} {err : Option GoError} (hR : Reported g)
    (h : (g.shutdowns[k]?).bind (g.shutdownNext k err) = some g') : Reported g' := by
  obtain ⟨x, hk, h⟩ := Option.bind_eq_some_iff.1 h
  have hcount := hR.count
  have hstop := hR.stopped
  cases x with
  | read => cases h; exact hR.quiet hk ⟨rfl, rfl⟩ ⟨rfl, rfl⟩ rfl rfl rfl rfl rfl
  | cancel c l => cases h; exact hR.quiet hk ⟨rfl, rfl⟩ ⟨rfl, rfl⟩ rfl rfl rfl rfl rfl
  | close l => cases h; exact hR.quiet hk ⟨rfl, rfl⟩ ⟨rfl, rfl⟩ rfl rfl rfl rfl rfl
  | select =>
    simp only [shutdownNext] at h
    split at h
    · rename_i e hdone
      cases h
      have hclosing := countP_set_add Shutdown.isClosing (y := .closeDatabase e) hk
      have hstopped := countP_set_add Shutdown.isStopped (y := .closeDatabase e) hk
      simp only [Shutdown.isClosing, Shutdown.isStopped, Bool.toNat_true, Bool.toNat_false] at hclosing hstopped
      rw [hdone] at hcount
      refine ⟨hR.sent, ?_, ?_⟩
      · simp only [Option.toList_none, Option.toList_some, List.length_nil, List.length_singleton] at hcount ⊢
        omega
      · show List.countP _ (g.shutdowns.set k _) = g.closes
        omega
    · cases h
  | closeDatabase e =>
    cases h
    have hclosing := countP_set_add Shutdown.isClosing (y := .stopped (e.or err)) hk
    have hstopped := countP_set_add Shutdown.isStopped (y := .stopped (e.or err)) hk
    simp only [Shutdown.isClosing, Shutdown.isStopped, Bool.toNat_true, Bool.toNat_false] at hclosing hstopped
    refine ⟨hR.sent, ?_, ?_⟩
    · show g.done.toList.length + List.countP _ (g.shutdowns.set k _) + (g.closes + 1) = g.sent.toNat
      omega
    · show List.countP _ (g.shutdowns.set k _) = g.closes + 1
      omega
  | stopped e => cases h
  | expired e => cases h

/-- The steps that leave the calls of `Shutdown` alone. -/
theorem Reported.same (hR : Reported g) (hs : g'.shutdowns = g.shutdowns) (hd : g'.done = g.done) (hc : g'.closes = g.closes)
    (hsent : g'.sent = g.sent) (hv : ∀ s e, g.serving = some s → s.loop = .returned e →
      ∃ s', g'.serving = some s' ∧ s'.loop = .returned e) : Reported g' := by
  refine ⟨?_, by rw [hs, hd, hc, hsent]; exact hR.count, by rw [hs, hc]; exact hR.stopped⟩
  intro h
  rw [hsent] at h
  obtain ⟨s, e, hse, he⟩ := hR.sent h
  obtain ⟨s', hs', he'⟩ := hv s e hse he
  exact ⟨s', e, hs', he'⟩

end Reported

section Attended

/-- The steps that leave the sessions and the handlers alone. -/
theorem Attended.same (hA : Attended server svc limits g) (hv : g'.serving = g.serving) (hs : g'.sessions = g.sessions)
    (ha : g'.admitted = g.admitted) : Attended server svc limits g' := by
  have hended : ∀ i, g'.ended i = g.ended i := fun i => by rw [ended, ended, hs]
  have hhandling : ∀ i, g'.handling i = g.handling i := fun i => by rw [handling, handling, hv]
  constructor
  · rw [hv]
    exact hA.serving
  · rw [hs]
    exact hA.sessions
  · rw [hs, ha]
    exact hA.waiting
  · intro i
    rw [ha, hended, hhandling]
    exact hA.running i

/-- Before `Serve` is started no session runs. -/
theorem Attended.launch (hA : Attended server svc limits g) (hnone : g.serving = none)
    (hv : g'.serving = some (Listener.start true 0 0)) (hs : g'.sessions = g.sessions) (ha : g'.admitted = g.admitted) :
    Attended server svc limits g' := by
  constructor
  · intro s hse
    obtain rfl := Option.some.inj (hv.symm.trans hse)
    exact Listener.inv_start _ _ _ _
  · rw [hs]
    exact hA.sessions
  · rw [hs, ha]
    exact hA.waiting
  · intro i hi hend
    rw [ha] at hi
    rw [ended, hs] at hend
    have hrun := hA.running i hi hend
    rw [handling, hnone] at hrun
    cases hrun

/-- A handler that is at work stays so, but for its own step. -/
theorem handling_of_step {s s' : Listener.Serving} {a : Listener.Action} (hv : g.serving = some s)
    (h : Listener.step server.limit s a = some s') {i : Nat} (hi : g.handling i = true) (ha : a ≠ .handler i) :
    handling { g with serving := some s' } i = true := by
  simp only [handling, hv, Option.any_eq_true] at hi
  obtain ⟨j, hj, hrun⟩ := hi
  simp only [handling, Option.any_eq_true]
  refine ⟨j, ?_, hrun⟩
  by_cases hh : ∃ k, a = .handler k
  · obtain ⟨k, rfl⟩ := hh
    obtain ⟨x, -, h⟩ := Option.bind_eq_some_iff.1 h
    obtain ⟨y, -, rfl⟩ := Option.map_eq_some_iff.1 h
    have hki : k ≠ i := by
      rintro rfl
      exact ha rfl
    simp only [List.getElem?_set_ne hki]
    exact hj
  · obtain ⟨new, hnew⟩ := step_handlers (fun k hk => hh ⟨k, hk⟩) h
    rw [hnew, List.getElem?_append_left (List.getElem?_eq_some_iff.1 hj).1]
    exact hj

theorem Attended.serve (hA : Attended server svc limits g) {s s' : Listener.Serving} {a : Listener.Action}
    (hv : g.serving = some s) (hmay : g.mayServe s a = true) (h : Listener.step server.limit s a = some s') :
    Attended server svc limits { g with serving := some s' } := by
  refine ⟨?_, hA.sessions, hA.waiting, ?_⟩
  · rintro _ ⟨⟩
    exact (hA.serving s hv).move (Listener.move_of_step h)
  · intro i hadm hend
    have hrun := hA.running i hadm hend
    refine handling_of_step hv h hrun ?_
    rintro rfl
    -- its session has not ended, and so the handler does not return
    have hno : g.mayReturn i = false := by
      rw [mayReturn, dif_pos i.isLt]
      show (!g.admitted i || g.ended i) = false
      rw [hadm, show g.ended i = false from hend]
      rfl
    simp only [mayServe, hrun, hno] at hmay
    cases hmay

/-- A step of session `i`, whose handler is at work. -/
theorem Attended.session (hA : Attended server svc limits g) {i : Fin n} (hrun : g.handling i = true)
    (hadm : g.admitted i = true) {S : Sessions (Fin n)} (hS : S.Reachable svc limits)
    (hother : ∀ j ≠ i, S.thread j = g.sessions.thread j) : Attended server svc limits { g with sessions := S } := by
  refine ⟨hA.serving, hS, ?_, ?_⟩
  · intro j hj
    have hji : j ≠ i := by
      rintro rfl
      rw [show g.admitted j = false from hj] at hadm
      cases hadm
    show S.thread j = _
    rw [hother j hji]
    exact hA.waiting j hj
  · intro j hj hend
    by_cases hji : j = i
    · rw [hji]
      exact hrun
    · refine hA.running j hj ?_
      rw [← hend, ended, ended, ← hother j hji]

theorem Attended.enter (hA : Attended server svc limits g) {i : Fin n} (hrun : g.handling i = true) :
    Attended server svc limits { g with admitted := Function.update g.admitted i true } := by
  refine ⟨hA.serving, hA.sessions, ?_, ?_⟩
  · intro j hj
    by_cases hji : j = i
    · subst hji
      simp at hj
    · exact hA.waiting j (by simpa [hji] using hj)
  · intro j hj hend
    by_cases hji : j = i
    · rw [hji]
      exact hrun
    · exact hA.running j (by simpa [hji] using hj) hend

end Attended

/-! ## Every run -/

/-- What holds of a service after any steps. -/
structure Inv (server : Listener.Server) (svc : Service) (limits : Limits) (g : Lifetime (Fin n)) : Prop
    extends Launched g, Reported g, Attended server svc limits g

theorem inv_fresh (server : Listener.Server) (svc : Service) (limits : Limits) (n : Nat) :
    Inv server svc limits (fresh svc n) := by
  refine ⟨⟨?_, ?_, ?_⟩, ⟨?_, rfl, rfl⟩, ⟨?_, .refl, fun _ _ => rfl, ?_⟩⟩
  · intro k hk
    simp [fresh] at hk
  · exact fun _ _ => rfl
  · rintro ⟨⟩
  · rintro ⟨⟩
  · rintro s ⟨⟩
  · rintro i ⟨⟩

theorem Inv.step (hI : Inv server svc limits g) (h : Lifetime.step server svc limits g a = some g') :
    Inv server svc limits g' := by
  have hL := hI.toLaunched
  have hR := hI.toReported
  have hA := hI.toAttended
  cases a with
  | callStart =>
    cases h
    exact ⟨hL.call, hR.same rfl rfl rfl rfl fun s e hs he => ⟨s, hs, he⟩, hA.same rfl rfl rfl⟩
  | start k err =>
    have hL' := hL.start h
    obtain ⟨st, -, h⟩ := Option.bind_eq_some_iff.1 h
    obtain ⟨⟨hs, hd, hc, hsent⟩, ⟨hsessions, hadm⟩, hv⟩ := startNext_frame h
    refine ⟨hL', hR.same hs hd hc hsent fun s e hse he => ?_, ?_⟩
    · rcases hv with hv | ⟨hnone, -⟩
      · exact ⟨s, hv.trans hse, he⟩
      · rw [hnone] at hse
        cases hse
    · rcases hv with hv | ⟨hnone, hv⟩
      · exact hA.same hv hsessions hadm
      · exact hA.launch hnone hv hsessions hadm
  | parent k =>
    obtain ⟨-, he⟩ := Option.ite_none_right_eq_some.1 h
    cases he
    exact ⟨hL.same rfl rfl rfl, hR.same rfl rfl rfl rfl fun s e hs he => ⟨s, hs, he⟩, hA.same rfl rfl rfl⟩
  | callShutdown =>
    cases h
    refine ⟨hL.same rfl rfl rfl, ⟨hR.sent, ?_, ?_⟩, hA.same rfl rfl rfl⟩
    · simpa [Shutdown.isClosing] using hR.count
    · simpa [Shutdown.isStopped] using hR.stopped
  | shutdown k err =>
    have hR' := hR.shutdown h
    obtain ⟨x, -, h⟩ := Option.bind_eq_some_iff.1 h
    obtain ⟨⟨hs, hl, hv⟩, hsessions, hadm⟩ := shutdownNext_frame h
    exact ⟨hL.same hs hl (by rw [hv]), hR', hA.same hv hsessions hadm⟩
  | expire k err =>
    obtain ⟨hk, he⟩ := Option.ite_none_right_eq_some.1 h
    cases he
    exact ⟨hL.same rfl rfl rfl, hR.quiet hk ⟨rfl, rfl⟩ ⟨rfl, rfl⟩ rfl rfl rfl rfl rfl, hA.same rfl rfl rfl⟩
  | serve b =>
    obtain ⟨s, hs, h⟩ := Option.bind_eq_some_iff.1 h
    obtain ⟨hmay, h⟩ := Option.ite_none_right_eq_some.1 h
    obtain ⟨s', hs', rfl⟩ := Option.map_eq_some_iff.1 h
    refine ⟨hL.same rfl rfl ?_, hR.same rfl rfl rfl rfl ?_, hA.serve hs hmay hs'⟩
    · rw [hs]
      rfl
    · intro s₀ e hs₀ he
      obtain rfl := Option.some.inj (hs.symm.trans hs₀)
      exact ⟨s', rfl, step_returned he hs'⟩
  | send =>
    simp only [Lifetime.step] at h
    split at h
    · rename_i s hs hdone
      split at h
      · rename_i e hloop
        obtain ⟨hsent, he⟩ := Option.ite_none_left_eq_some.1 h
        cases he
        refine ⟨hL.same rfl rfl rfl, ⟨fun _ => ⟨s, e, hs, hloop⟩, ?_, hR.stopped⟩, hA.same rfl rfl rfl⟩
        have hcount := hR.count
        rw [hdone, Bool.eq_false_iff.2 hsent] at hcount
        simp only [Option.toList_none, Option.toList_some, List.length_nil, List.length_singleton, Bool.toNat_false,
          Bool.toNat_true] at hcount ⊢
        omega
      · cases h
    · cases h
  | enter i =>
    obtain ⟨hmay, he⟩ := Option.ite_none_right_eq_some.1 h
    cases he
    rw [Bool.and_eq_true] at hmay
    exact ⟨hL.same rfl rfl rfl, hR.same rfl rfl rfl rfl fun s e hs he => ⟨s, hs, he⟩, hA.enter hmay.1⟩
  | round i =>
    obtain ⟨hmay, he⟩ := Option.ite_none_right_eq_some.1 h
    cases he
    rw [Bool.and_eq_true] at hmay
    refine ⟨hL.same rfl rfl rfl, hR.same rfl rfl rfl rfl fun s e hs he => ⟨s, hs, he⟩, ?_⟩
    exact hA.session hmay.1 hmay.2 (.trans hA.sessions (System.steps_wake _ i)) fun j hj => System.wake_thread _ hj
  | reply i reply =>
    obtain ⟨hmay, h⟩ := Option.ite_none_right_eq_some.1 h
    obtain ⟨S, hS, rfl⟩ := Option.map_eq_some_iff.1 h
    rw [Bool.and_eq_true] at hmay
    refine ⟨hL.same rfl rfl rfl, hR.same rfl rfl rfl rfl fun s e hs he => ⟨s, hs, he⟩, ?_⟩
    exact hA.session hmay.1 hmay.2 (.tail hA.sessions (System.step_tell hS)) fun j hj => System.tell_thread hS hj

theorem Reaches.inv (h : g.Reaches server svc limits) : Inv server svc limits g :=
  Machine.Reach.invariant h (inv_fresh server svc limits n) fun _ _ _ hI _ hs => hI.step hs

/-- A session that was not admitted, or has ended, holds no connection. -/
theorem Inv.leased (hI : Inv server svc limits g) {i : Fin n} (hi : g.admitted i = true → g.ended i = true) :
    g.sessions.world.leased i = [] := by
  obtain ⟨hagree, hreach⟩ := sessions_project hI.sessions
  rw [hagree.leased i]
  show (g.sessions.thread i).env.held = []
  cases hadm : g.admitted i with
  | false => rw [hI.waiting i hadm]
  | true =>
    have hE := reachable_ended (hreach i) (Conf.stage_of_isEnded (hi hadm))
    rw [hE.held, hE.pinnedConnection]
    rfl

/-- When the result of `Serve` is known every session has ended. -/
theorem Inv.over (hI : Inv server svc limits g) (hsent : g.sent = true) :
    (∃ s e, g.serving = some s ∧ s.loop = .returned e ∧ Listener.Served s) ∧
      ∀ i, g.admitted i = true → g.ended i = true := by
  obtain ⟨s, e, hs, he⟩ := hI.sent hsent
  have hserved := (hI.serving s hs).served he
  refine ⟨⟨s, e, hs, he, hserved⟩, ?_⟩
  intro i hadm
  by_contra hend
  have hrun := hI.running i hadm (Bool.eq_false_iff.2 hend)
  simp only [handling, hs, Option.any_eq_true] at hrun
  obtain ⟨j, hj, hstage⟩ := hrun
  have hgone := hserved.handlers j (List.mem_of_getElem? hj)
  simp [hgone] at hstage

end Lifetime

/-- However calls of `Start` and `Shutdown`, the goroutines of `Serve` and the sessions are interleaved, `Serve` is
started once, the pool is closed once at most, by the one call of `Shutdown` that does not give up, and when it is
about to be closed every handler has returned, every session has ended and no connection is checked out. -/
theorem pool_closed_after_sessions {n : Nat} {server : Listener.Server} {svc : Service} {limits : Limits}
    {g : Lifetime (Fin n)} (h : g.Reaches server svc limits) :
    (∀ k : Nat, g.starts[k]? = some .launch → g.serving = none) ∧
    g.closes ≤ 1 ∧ g.shutdowns.countP Shutdown.isStopped = g.closes ∧
    ((∃ e, .closeDatabase e ∈ g.shutdowns) ∨ 0 < g.closes →
      (∃ s e, g.serving = some s ∧ s.loop = .returned e ∧ Listener.Served s) ∧
      ∀ i, g.sessions.world.leased i = [] ∧ (g.admitted i = true → g.ended i = true)) := by
  have hI := h.inv
  have hcount := hI.count
  have hsent : g.sent.toNat ≤ 1 := Bool.toNat_le _
  refine ⟨hI.launch, by omega, hI.stopped, ?_⟩
  intro hclose
  have hpos : 0 < g.shutdowns.countP Shutdown.isClosing + g.closes := by
    rcases hclose with ⟨e, he⟩ | hpos
    · have := List.countP_pos_iff.2 ⟨_, he, (rfl : Shutdown.isClosing (.closeDatabase e) = true)⟩
      omega
    · omega
  have hs : g.sent = true := by
    cases hg : g.sent with
    | true => rfl
    | false =>
      rw [hg] at hcount
      simp only [Bool.toNat_false] at hcount
      omega
  obtain ⟨hserved, hend⟩ := hI.over hs
  exact ⟨hserved, fun i => ⟨hI.leased (hend i), hend i⟩⟩

/-- The client hangs up. -/
def hangsUp {ι : Type} : Reply ι
  | _, .readMessage => some (.error ⟨.plain, lit "EOF"⟩)
  | _, _ => none

/-- Session 0 is given `k` obliging replies. -/
def obliged (k : Nat) : List (Act (Fin 1)) := List.replicate k (.reply 0 (obliging sampleService sampleLimits))

/-- A client is admitted, begins a transaction and hangs up. -/
def visit : List (Act (Fin 1)) :=
  Listener.admitting.map Act.serve ++ (.enter 0 :: .round 0 :: .reply 0 (sends (comQuery "begin")) :: obliged 22) ++
    (.round 0 :: .reply 0 hangsUp :: obliged 4) ++ List.replicate 6 (Act.serve (.handler 0))

/-- The service is started, visited and stopped. -/
def startAndStop : List (Act (Fin 1)) :=
  .callStart :: .start 0 none :: .start 0 none :: .start 0 none :: visit ++
    [.callShutdown, .shutdown 0 none, .shutdown 0 none, .shutdown 0 none, .serve .cancel, .serve (.acceptError .closed),
      .serve .serve, .serve .serve, .serve (.serveLock []), .serve .serve, .serve .serve, .serve .serve, .serve .serve,
      .send, .shutdown 0 none, .shutdown 0 none]

theorem pool_closed_after_sessions_sample : ∃ g : Lifetime (Fin 1), g.closes = 1 ∧ g.admitted 0 = true ∧
    g.sessions.world.leased 0 = [] := by
  have hrun : ((Lifetime.machine Listener.pairServer sampleService sampleLimits 1).runIf (fun _ _ => true)
      (Lifetime.fresh sampleService 1) startAndStop).any (fun g => g.closes = 1 ∧ g.admitted 0) = true := by
    decide +kernel
  obtain ⟨g, hg, hc⟩ := (Option.any_eq_true _ _).1 hrun
  have hreach : g.Reaches Listener.pairServer sampleService sampleLimits :=
    Machine.Reach.mono (Machine.reach_of_runIf .init hg) fun _ _ _ => trivial
  obtain ⟨hone, hadm⟩ := of_decide_eq_true hc
  exact ⟨g, hone, hadm, (((pool_closed_after_sessions hreach).2.2.2 (.inr (by omega))).2 0).1⟩

end Accelerator.Gateway
