/-
What holds while `Server.Serve` runs and when it returns. A connection that was given a token is followed from
stage to stage; the counters and the table of the server are read off the stages of all of them, in every state
that the goroutines can reach together.
-/
import Accelerator.Interact.Roster
import Accelerator.Protocol.Listener
import Mathlib.Algebra.Group.Nat.Defs

namespace Accelerator.Listener

open Upstream Interact

/-! ## Stages -/

namespace Stage

/-- The handler was started. -/
def launched : Stage → Bool
  | .taken | .named | .added | .counted | .awaited => false
  | _ => true

def holdsToken : Stage → Bool
  | .finishing | .gone => false
  | _ => true

/-- In the table. -/
def listed : Stage → Bool
  | .added | .counted | .awaited | .running | .closing | .removing => true
  | _ => false

/-- Counted as active. -/
def active : Stage → Bool
  | .counted | .awaited | .running | .closing | .removing | .uncounting => true
  | _ => false

/-- Counted by the wait group. -/
def waited : Stage → Bool
  | .awaited | .running | .closing | .removing | .uncounting | .releasing | .finishing => true
  | _ => false

/-- The handler has closed the connection. -/
def closed : Stage → Bool
  | .removing | .uncounting | .releasing | .finishing | .gone => true
  | _ => false

theorem active_holdsToken {stage : Stage} (h : stage.active = true) : stage.holdsToken = true := by
  revert h
  cases stage <;> decide

/-- A handler that the wait group does not wait for is gone. -/
theorem eq_gone {stage : Stage} (hl : stage.launched = true) (hw : stage.waited = false) : stage = .gone := by
  revert hl hw
  cases stage <;> decide

end Stage

/-! ## What a step does -/

/-- A connection with a token is a job. -/
def crew : Crew Job := ⟨Job.conn, fun j => j.stage.launched, fun j => j.stage.listed⟩

/-- `Serve` and its handlers, with the table of the server. -/
def Serving.roster (s : Serving) : Roster Job :=
  ⟨s.shared.accepted, s.loop.holds, s.loop.job, s.handlers, fun c => c ∈ s.shared.connections⟩

/-- What the next statement of a connection does. -/
structure Advance (j : Job) (g : Shared) (j' : Job) (g' : Shared) : Prop where
  conn : j'.conn = j.conn
  accepted : g'.accepted = g.accepted
  kept : ∀ c ∈ g.closed, c ∈ g'.closed
  launched : j'.stage.launched = (j.stage.launched || j.stage = .awaited)
  tokens : g'.tokens + j.stage.holdsToken.toNat = g.tokens + j'.stage.holdsToken.toNat
  tokens_le : g'.tokens ≤ g.tokens
  active : g'.active + j.stage.active.toNat = g.active + j'.stage.active.toNat
  wait : g'.wait + j.stage.waited.toNat = g.wait + j'.stage.waited.toNat
  wait_le : j.stage.launched = true → g'.wait ≤ g.wait
  spared : ∀ c, c ≠ j.conn → (c ∈ g'.connections ↔ c ∈ g.connections)
  listed : (j.conn ∈ g.connections ↔ j.stage.listed = true) → (j.conn ∈ g'.connections ↔ j'.stage.listed = true)
  closed : j'.stage.closed = true → j.stage.closed = true ∨ j.conn ∈ g'.closed
  named : j'.stage ≠ .taken
  nextID : g'.nextID = g.nextID + if j.stage = .taken then 1 else 0
  id : j'.id = if j.stage = .taken then g.nextID + 1 else j.id

attribute [simp] Stage.launched Stage.holdsToken Stage.active Stage.waited Stage.listed Stage.closed

theorem Job.next_advance {free : Bool} {j j' : Job} {g g' : Shared} (h : j.next free g = some (j', g')) :
    Advance j g j' g' := by
  obtain ⟨c, id, stage⟩ := j
  cases stage with
  | taken => cases h; constructor <;> simp
  | named =>
    obtain ⟨-, he⟩ := Option.ite_none_right_eq_some.1 h
    cases he
    constructor <;> simp +contextual
  | added => cases h; constructor <;> simp
  | counted => cases h; constructor <;> simp
  | awaited => cases h; constructor <;> simp
  | running => cases h; constructor <;> simp
  | closing => cases h; constructor <;> simp +contextual [Shared.shut]
  | removing =>
    obtain ⟨-, he⟩ := Option.ite_none_right_eq_some.1 h
    cases he
    constructor <;> simp +contextual
  | uncounting => cases h; constructor <;> simp
  | releasing =>
    obtain ⟨hpos, he⟩ := Option.ite_none_right_eq_some.1 h
    cases he
    constructor <;> simp
    omega
  | finishing =>
    obtain ⟨hpos, he⟩ := Option.ite_none_right_eq_some.1 h
    cases he
    constructor <;> simp
    omega
  | gone => cases h

theorem Advance.crew {j j' : Job} {g g' : Shared} (ha : Advance j g j' g') :
    Listener.crew.Advances (fun c => c ∈ g.connections) j (fun c => c ∈ g'.connections) j' :=
  ⟨ha.conn, ha.spared, ha.listed⟩

/-- `Serve` is past `wait.Wait()`. -/
def Loop.past : Loop → Bool
  | .unwinding .closeChannel _ | .unwinding .cancelAgain _ | .returned _ => true
  | _ => false

/-- A step that leaves the connections with a token as they are. `Serve` lets go of one without a token only
when it is closed. -/
structure Quiet (s s' : Serving) : Prop where
  nextID : s'.shared.nextID = s.shared.nextID
  active : s'.shared.active = s.shared.active
  connections : s'.shared.connections = s.shared.connections
  tokens : s'.shared.tokens = s.shared.tokens
  wait : s'.shared.wait = s.shared.wait
  accepted : s'.shared.accepted = s.shared.accepted
  closed : ∀ c ∈ s.shared.closed, c ∈ s'.shared.closed
  handlers : s'.handlers = s.handlers
  job : s'.loop.job = s.loop.job
  holds : ∀ c, s.loop.holds = some c → s'.loop.holds = some c ∨ c ∈ s'.shared.closed
  held : ∀ c, s'.loop.holds = some c → s.loop.holds = some c
  past : s'.loop.past = true → s.loop.past = true ∨ s.shared.wait = 0

/-- The steps of the machine. -/
inductive Move (limit : Nat) (s : Serving) : Serving → Prop
  | quiet {s' : Serving} : Quiet s s' → Move limit s s'
  | accept : s.loop = .accepting → Move limit s { s with
      shared := { s.shared with accepted := s.shared.accepted + 1 }
      loop := .accepted s.shared.accepted
      backoff := 0 }
  | take {c : Nat} : s.loop = .accepted c → s.shared.tokens < limit → Move limit s { s with
      shared := { s.shared with tokens := s.shared.tokens + 1 }
      loop := .registering ⟨c, 0, .taken⟩ }
  | goes {j j' : Job} {s' : Serving} : s.roster.Goes crew j j' s'.roster → Advance j s.shared j' s'.shared →
      (s'.loop.past = true → s.loop.past = true ∧ j ∈ s.handlers) → Move limit s s'

section Inversion

variable {limit : Nat} {s s' : Serving}

/-- A step that changes where `Serve` is and, of what is shared, only flags. -/
theorem Quiet.of_loop {loop loop' : Loop} {g : Shared} {backoff : Nat} {closer : Closer} (hg : g = { s.shared with
      rejected := g.rejected, cancelled := g.cancelled, finished := g.finished, listenerClosed := g.listenerClosed })
    (hloop : s.loop = loop) (hjob : loop'.job = loop.job) (hholds : loop'.holds = loop.holds)
    (hpast : loop'.past = true → loop.past = true ∨ s.shared.wait = 0) :
    Quiet s ⟨g, loop', backoff, closer, s.handlers⟩ := by
  subst hloop
  rw [hg]
  exact ⟨rfl, rfl, rfl, rfl, rfl, rfl, fun _ h => h, rfl, hjob, fun c h => .inl (hholds ▸ h),
    fun c h => hholds ▸ h, hpast⟩

/-- A step that closes a connection; `Serve` may let go of it. -/
theorem Quiet.of_shut {loop : Loop} {closer : Closer} (c : Nat) (hjob : loop.job = s.loop.job)
    (hholds : loop.holds = s.loop.holds ∨ s.loop.holds = some c ∧ loop.holds = none)
    (hpast : loop.past = true → s.loop.past = true) :
    Quiet s ⟨s.shared.shut c, loop, s.backoff, closer, s.handlers⟩ := by
  refine ⟨rfl, rfl, rfl, rfl, rfl, rfl, fun _ h => List.mem_cons_of_mem _ h, rfl, hjob, ?_, ?_, fun h => .inl (hpast h)⟩
  · intro d hd
    rcases hholds with hholds | ⟨hc, -⟩
    · exact .inl (hholds ▸ hd)
    · obtain rfl := Option.some.inj (hc.symm.trans hd)
      exact .inr (List.mem_cons_self ..)
  · intro d hd
    rcases hholds with hholds | ⟨-, hnone⟩
    · exact hholds ▸ hd
    · rw [hnone] at hd
      cases hd

theorem Sweep.next_cases {w w' : Sweep} {g g' : Shared} (h : w.next g = some (w', g')) :
    g' = { g with listenerClosed := g'.listenerClosed } ∨ ∃ c, g' = g.shut c := by
  cases w with
  | closeListener => cases h; exact .inl rfl
  | lock => cases h
  | closing rest =>
    rcases rest with _ | ⟨c, rest⟩
    · cases h; exact .inl rfl
    · cases h; exact .inr ⟨c, rfl⟩
  | swept => cases h

theorem Quiet.of_sweep {loop : Loop} {closer : Closer} {w w' : Sweep} {g : Shared} (h : w.next s.shared = some (w', g))
    (hjob : loop.job = s.loop.job) (hholds : loop.holds = s.loop.holds) (hpast : loop.past = true → s.loop.past = true) :
    Quiet s ⟨g, loop, s.backoff, closer, s.handlers⟩ := by
  rcases Sweep.next_cases h with hg | ⟨c, rfl⟩
  · refine .of_loop ?_ rfl hjob hholds fun h => .inl (hpast h)
    rw [hg]
  · exact .of_shut c hjob (.inl hholds) hpast

/-- A statement of `Serve` on the connection it registers. -/
theorem move_of_registering {j j' : Job} {g : Shared} (hloop : s.loop = .registering j)
    (hnext : j.next s.free s.shared = some (j', g)) :
    Move limit s (if j.stage = .awaited then { s with shared := g, loop := .accepting, handlers := s.handlers ++ [j'] }
      else { s with shared := g, loop := .registering j' }) := by
  have ha := Job.next_advance hnext
  have hlaunched : crew.launched j' = (crew.launched j || j.stage = .awaited) := ha.launched
  have hjob : s.roster.job = some j := by rw [Serving.roster, hloop]; rfl
  have hheld : none = s.roster.held := by rw [Serving.roster, hloop]; rfl
  split_ifs with hstage
  · refine .goes ⟨ha.accepted, hheld, .launches hjob rfl rfl ?_⟩ ha nofun
    rw [hlaunched, decide_eq_true hstage, Bool.or_true]
  · refine .goes ⟨ha.accepted, hheld, .registers hjob rfl rfl fun h => ?_⟩ ha nofun
    rw [hlaunched, h, decide_eq_false hstage]
    rfl

theorem move_of_serveNext (h : s.serveNext = some s') : Move limit s s' := by
  unfold Serving.serveNext at h
  split at h <;> rename_i hloop
  · cases h; exact .quiet (.of_loop rfl hloop rfl rfl nofun)
  · cases h; exact .quiet (.of_shut _ (by rw [hloop]; rfl) (.inr (by rw [hloop]; exact ⟨rfl, rfl⟩)) nofun)
  · cases h; exact .quiet (.of_shut _ (by rw [hloop]; rfl) (.inr (by rw [hloop]; exact ⟨rfl, rfl⟩)) nofun)
  · obtain ⟨⟨j', g⟩, hnext, rfl⟩ := Option.map_eq_some_iff.1 h
    exact move_of_registering hloop hnext
  · cases h; exact .quiet (.of_loop rfl hloop rfl rfl nofun)
  · split_ifs at h with hwait
    cases h
    exact .quiet (.of_loop rfl hloop rfl rfl fun _ => .inr hwait)
  · obtain ⟨⟨w', g⟩, hnext, rfl⟩ := Option.map_eq_some_iff.1 h
    exact .quiet (.of_sweep hnext (by rw [hloop]; rfl) (by rw [hloop]; rfl) nofun)
  · cases h; exact .quiet (.of_loop rfl hloop rfl rfl .inl)
  · cases h; exact .quiet (.of_loop rfl hloop rfl rfl .inl)
  · cases h

theorem quiet_acceptFailed (hloop : s.loop = .accepting) (e : AcceptError) : Quiet s (s.acceptFailed e) := by
  unfold Serving.acceptFailed
  split_ifs
  · exact .of_loop rfl hloop rfl rfl nofun
  · cases e with
    | closed => exact .of_loop rfl rfl rfl rfl .inl
    | temporary => exact .of_loop rfl hloop rfl rfl nofun
    | other e => exact .of_loop rfl hloop rfl rfl nofun

theorem move_of_step {a : Action} (h : step limit s a = some s') : Move limit s s' := by
  cases a with
  | cancel => cases h; exact .quiet (.of_loop rfl rfl rfl rfl .inl)
  | accept =>
    obtain ⟨hloop, he⟩ := Option.ite_none_right_eq_some.1 h
    cases he
    exact .accept hloop
  | acceptError e =>
    obtain ⟨hloop, he⟩ := Option.ite_none_right_eq_some.1 h
    cases he
    exact .quiet (quiet_acceptFailed hloop e)
  | retry =>
    obtain ⟨hloop, he⟩ := Option.ite_none_right_eq_some.1 h
    cases he
    exact .quiet (.of_loop rfl hloop rfl rfl nofun)
  | giveUp =>
    obtain ⟨⟨hloop, -⟩, he⟩ := Option.ite_none_right_eq_some.1 h
    cases he
    exact .quiet (.of_loop rfl hloop rfl rfl nofun)
  | take =>
    simp only [step] at h
    split at h
    · rename_i c hloop
      obtain ⟨hlt, he⟩ := Option.ite_none_right_eq_some.1 h
      cases he
      exact .take hloop hlt
    · cases h
  | refuse =>
    simp only [step] at h
    split at h
    · rename_i c hloop
      obtain ⟨-, he⟩ := Option.ite_none_right_eq_some.1 h
      cases he
      exact .quiet (.of_loop rfl hloop rfl rfl nofun)
    · cases h
  | reject =>
    simp only [step] at h
    split at h
    · rename_i c hloop
      obtain ⟨-, he⟩ := Option.ite_none_left_eq_some.1 h
      cases he
      exact .quiet (.of_loop rfl hloop rfl rfl nofun)
    · cases h
  | serve => exact move_of_serveNext h
  | serveLock order =>
    simp only [step] at h
    split at h
    · rename_i e hloop
      obtain ⟨-, he⟩ := Option.ite_none_right_eq_some.1 h
      cases he
      exact .quiet (.of_loop rfl hloop rfl rfl nofun)
    · cases h
  | watchContext =>
    obtain ⟨-, he⟩ := Option.ite_none_right_eq_some.1 h
    cases he
    exact .quiet (.of_loop rfl rfl rfl rfl .inl)
  | watchClosed =>
    obtain ⟨-, he⟩ := Option.ite_none_right_eq_some.1 h
    cases he
    exact .quiet (.of_loop rfl rfl rfl rfl .inl)
  | close =>
    simp only [step] at h
    split at h
    · obtain ⟨⟨w', g⟩, hnext, rfl⟩ := Option.map_eq_some_iff.1 h
      exact .quiet (.of_sweep hnext rfl rfl id)
    · cases h
  | closeLock order =>
    obtain ⟨-, he⟩ := Option.ite_none_right_eq_some.1 h
    cases he
    exact .quiet (.of_loop rfl rfl rfl rfl .inl)
  | handler i =>
    obtain ⟨j, hj, h⟩ := Option.bind_eq_some_iff.1 h
    obtain ⟨⟨j', g⟩, hnext, rfl⟩ := Option.map_eq_some_iff.1 h
    have ha := Job.next_advance hnext
    have hlaunched : j.stage.launched = true → j'.stage.launched = true := fun h => by rw [ha.launched, h]; rfl
    exact .goes ⟨ha.accepted, rfl, .handles hj rfl rfl hlaunched⟩ ha fun h => ⟨h, List.mem_of_getElem? hj⟩
  | hangUp i =>
    obtain ⟨j, hj, h⟩ := Option.bind_eq_some_iff.1 h
    obtain ⟨-, he⟩ := Option.ite_none_right_eq_some.1 h
    cases he
    exact .quiet (.of_shut _ rfl (.inl rfl) id)

end Inversion

/-! ## The connections with a token -/

/-- What is shared, read off the stages of the connections with a token; `first` is the counter of IDs at the
start. -/
structure Books (limit : Nat) (first : UInt64) (g : Shared) (jobs : List Job) : Prop where
  tokens : g.tokens = jobs.countP (·.stage.holdsToken)
  limit : g.tokens ≤ limit
  active : g.active = jobs.countP (·.stage.active)
  wait : g.wait = jobs.countP (·.stage.waited)
  closed : ∀ j ∈ jobs, j.stage.closed = true → j.conn ∈ g.closed
  nextID : g.nextID = first + .ofNat (jobs.countP (·.stage ≠ .taken))
  ids : ∀ i j, jobs[i]? = some j → j.stage ≠ .taken → j.id = first + .ofNat (i + 1)

section Books

variable {limit : Nat} {first : UInt64} {g g' : Shared} {jobs : List Job} {i : Nat} {j j' : Job}

theorem Books.nextID_advance (hb : Books limit first g jobs) (hj : jobs[i]? = some j) (ha : Advance j g j' g') :
    g'.nextID = first + .ofNat ((jobs.set i j').countP (·.stage ≠ .taken)) := by
  have h := countP_set_add (·.stage ≠ .taken) (y := j') hj
  simp only [ne_eq, ha.named, not_false_eq_true, decide_true, Bool.toNat_true] at h
  rw [ha.nextID, hb.nextID, UInt64.add_assoc]
  by_cases ht : j.stage = .taken
  · simp only [ht, not_true_eq_false, decide_false, Bool.toNat_false, Nat.add_zero] at h
    rw [if_pos ht, h, UInt64.ofNat_add]
    rfl
  · simp only [ht, not_false_eq_true, decide_true, Bool.toNat_true, Nat.add_right_cancel_iff] at h
    rw [if_neg ht, UInt64.add_zero]
    exact congrArg (fun n => first + UInt64.ofNat n) h.symm

/-- IDs are given in the order of the tokens: the last connection gets its ID when all others have theirs. -/
theorem Books.ids_advance (hb : Books limit first g jobs) (hj : jobs[i]? = some j) (ha : Advance j g j' g')
    (hlast : j.stage = .taken → jobs.countP (·.stage ≠ .taken) = i) (k : Nat) (x : Job)
    (hx : (jobs.set i j')[k]? = some x) (hstage : x.stage ≠ .taken) : x.id = first + .ofNat (k + 1) := by
  rw [List.getElem?_set] at hx
  by_cases hik : i = k
  · subst hik
    rw [if_pos rfl, if_pos (List.getElem?_eq_some_iff.1 hj).1] at hx
    obtain rfl := Option.some.inj hx
    rw [ha.id]
    by_cases ht : j.stage = .taken
    · rw [if_pos ht, hb.nextID, hlast ht, UInt64.add_assoc, UInt64.ofNat_add]
      rfl
    · rw [if_neg ht]
      exact hb.ids _ j hj ht
  · rw [if_neg hik] at hx
    exact hb.ids k x hx hstage

theorem Books.advance (hb : Books limit first g jobs) (hj : jobs[i]? = some j) (ha : Advance j g j' g')
    (hlast : j.stage = .taken → jobs.countP (·.stage ≠ .taken) = i) : Books limit first g' (jobs.set i j') := by
  -- each counter goes up and down with the stages that count in it
  have hcount := fun p => countP_set_add p (y := j') hj
  constructor
  case tokens =>
    have h := hcount (·.stage.holdsToken)
    have ht := ha.tokens
    have hb := hb.tokens
    omega
  case limit => exact ha.tokens_le.trans hb.limit
  case active =>
    have h := hcount (·.stage.active)
    have ht := ha.active
    have hb := hb.active
    omega
  case wait =>
    have h := hcount (·.stage.waited)
    have ht := ha.wait
    have hb := hb.wait
    omega
  case closed =>
    intro x hx hclosed
    rcases List.mem_or_eq_of_mem_set hx with hx | rfl
    · exact ha.kept _ (hb.closed x hx hclosed)
    · rw [ha.conn]
      rcases ha.closed hclosed with h | h
      · exact ha.kept _ (hb.closed j (List.mem_of_getElem? hj) h)
      · exact h
  case nextID => exact hb.nextID_advance hj ha
  case ids => exact hb.ids_advance hj ha hlast

/-- A connection gets a token. -/
theorem Books.enter {c : Nat} (hb : Books limit first g jobs) (hlt : g.tokens < limit) :
    Books limit first { g with tokens := g.tokens + 1 } (jobs ++ [⟨c, 0, .taken⟩]) := by
  constructor
  case tokens => simp [hb.tokens, Stage.holdsToken]
  case limit => exact hlt
  case active => simp [hb.active, Stage.active]
  case wait => simp [hb.wait, Stage.waited]
  case closed =>
    intro x hx hclosed
    rcases List.mem_append.1 hx with hx | hx
    · exact hb.closed x hx hclosed
    · rw [List.mem_singleton.1 hx] at hclosed
      cases hclosed
  case nextID => simp [hb.nextID]
  case ids =>
    intro i x hx hstage
    rw [List.getElem?_append] at hx
    split_ifs at hx with hi
    · exact hb.ids i x hx hstage
    · have hx := List.mem_of_getElem? hx
      obtain rfl := List.mem_singleton.1 hx
      exact absurd rfl hstage

/-- Steps that do not concern the connections with a token. -/
theorem Books.of_eq (hb : Books limit first g jobs) (hnext : g'.nextID = g.nextID)
    (hactive : g'.active = g.active) (htokens : g'.tokens = g.tokens)
    (hwait : g'.wait = g.wait) (hclosed : ∀ c ∈ g.closed, c ∈ g'.closed) : Books limit first g' jobs where
  tokens := htokens.trans hb.tokens
  limit := htokens ▸ hb.limit
  active := hactive.trans hb.active
  wait := hwait.trans hb.wait
  closed j hj h := hclosed _ (hb.closed j hj h)
  nextID := hnext.trans hb.nextID
  ids := hb.ids

end Books

/-! ## The invariant -/

structure Inv (limit : Nat) (first : UInt64) (s : Serving) : Prop where
  tidy : s.roster.Tidy crew
  books : Books limit first s.shared s.jobs
  fate : ∀ c < s.shared.accepted, s.loop.holds = some c ∨ (∃ j ∈ s.jobs, j.conn = c) ∨ c ∈ s.shared.closed
  past : s.loop.past = true → s.shared.wait = 0

section Invariant

variable {limit : Nat} {first : UInt64} {s s' : Serving}

/-- No connection is registered, and so those with a token are those with a handler. -/
theorem jobs_of_job_none (h : s.loop.job = none) : s.jobs = s.handlers := Roster.jobs_of_none (r := s.roster) h

theorem inv_start (limit : Nat) (hasListener : Bool) (nextID rejected : UInt64) :
    Inv limit nextID (start hasListener nextID rejected) := by
  have hjobs : (start hasListener nextID rejected).jobs = [] := by cases hasListener <;> rfl
  constructor
  case tidy =>
    have hjobs : (start hasListener nextID rejected).roster.jobs = [] := hjobs
    constructor
    case held => cases hasListener <;> nofun
    case enrolled => cases hasListener <;> nofun
    case launched => nofun
    case table => nofun
    all_goals rw [hjobs]; simp
  case books =>
    rw [hjobs]
    constructor <;> simp [start]
  case fate => nofun
  case past => exact fun _ => rfl

theorem Stage.ne_taken {stage : Stage} (h : stage.launched = true) : stage ≠ .taken := by
  rintro rfl
  cases h

theorem Inv.launched (hi : Inv limit first s) {j : Job} (hj : j ∈ s.handlers) : j.stage.launched = true :=
  hi.tidy.launched j hj

/-- When a connection is given its ID, all that have a handler have theirs. -/
theorem Inv.last_taken (hi : Inv limit first s) {i : Nat} {j : Job} (hj : s.jobs[i]? = some j)
    (hin : i < s.handlers.length → j ∈ s.handlers) (ht : j.stage = .taken) : s.jobs.countP (·.stage ≠ .taken) = i := by
  have hne : ∀ x ∈ s.handlers, x.stage ≠ .taken := fun x hx => Stage.ne_taken (hi.launched hx)
  have hge : s.handlers.length ≤ i := Nat.le_of_not_lt fun hlt => hne j (hin hlt) ht
  rw [Serving.jobs, List.getElem?_append_right hge] at hj
  obtain ⟨hlen, hget⟩ := List.getElem?_eq_some_iff.1 hj
  cases hjob : s.loop.job with
  | none =>
    rw [hjob] at hlen
    exact absurd hlen (Nat.not_lt_zero _)
  | some x =>
    have hx : x = j := by
      have hmem := List.mem_of_getElem? hj
      rw [hjob] at hmem
      exact (List.mem_singleton.1 hmem).symm
    subst hx
    have hi : i = s.handlers.length := by
      rw [hjob] at hlen
      have : i - s.handlers.length < 1 := hlen
      omega
    rw [Serving.jobs, hjob, List.countP_append, List.countP_eq_length.2 (by simpa using hne), hi]
    simp [ht]

theorem Inv.of_quiet (hi : Inv limit first s) (hq : Quiet s s') : Inv limit first s' := by
  have hjobs : s'.jobs = s.jobs := by rw [Serving.jobs, Serving.jobs, hq.handlers, hq.job]
  refine ⟨hi.tidy.keep ?_ hq.held, ?_, fun c hc => ?_, fun h => ?_⟩
  · simp only [Serving.roster, hq.accepted, hq.job, hq.handlers, hq.connections]
  · rw [hjobs]
    exact hi.books.of_eq hq.nextID hq.active hq.tokens hq.wait hq.closed
  · rw [hjobs]
    rcases hi.fate c (hq.accepted ▸ hc) with h | h | h
    · exact (hq.holds c h).imp_right .inr
    · exact .inr (.inl h)
    · exact .inr (.inr (hq.closed c h))
  · rw [hq.wait]
    exact (hq.past h).elim hi.past id

theorem Inv.of_accept (hi : Inv limit first s) (hloop : s.loop = .accepting) :
    Inv limit first { s with
      shared := { s.shared with accepted := s.shared.accepted + 1 }
      loop := .accepted s.shared.accepted
      backoff := 0 } := by
  have hnone : s.loop.job = none := by rw [hloop]; rfl
  have hjobs := jobs_of_job_none hnone
  refine ⟨?_, ?_, fun c hc => ?_, nofun⟩
  · have h := hi.tidy.arrive
    simp only [Serving.roster, hnone] at h
    exact h
  · rw [jobs_of_job_none rfl]
    exact (hjobs ▸ hi.books).of_eq rfl rfl rfl rfl fun _ h => h
  · rw [jobs_of_job_none rfl]
    rcases Nat.lt_succ_iff_lt_or_eq.1 hc with hc | rfl
    · rcases hi.fate c hc with h | h | h
      · rw [hloop] at h
        cases h
      · exact .inr (.inl (hjobs ▸ h))
      · exact .inr (.inr h)
    · exact .inl rfl

/-- A connection that was accepted gets one of the tokens that are left. -/
theorem Inv.of_take {c : Nat} (hi : Inv limit first s) (hloop : s.loop = .accepted c) (hlt : s.shared.tokens < limit) :
    Inv limit first { s with
      shared := { s.shared with tokens := s.shared.tokens + 1 }
      loop := .registering ⟨c, 0, .taken⟩ } := by
  have hnone : s.loop.job = none := by rw [hloop]; rfl
  have hjobs := jobs_of_job_none hnone
  refine ⟨?_, ?_, fun d hd => ?_, nofun⟩
  · exact hi.tidy.enroll (j := ⟨c, 0, .taken⟩) (by rw [Serving.roster, hloop]; rfl) hnone rfl rfl
  · exact hjobs ▸ hi.books.enter hlt
  · rcases hi.fate d hd with h | ⟨j, hj, h⟩ | h
    · rw [hloop] at h
      obtain rfl := Option.some.inj h
      exact .inr (.inl ⟨_, List.mem_append_right _ (List.mem_singleton_self _), rfl⟩)
    · exact .inr (.inl ⟨j, List.mem_append_left _ (hjobs ▸ hj), h⟩)
    · exact .inr (.inr h)

/-- The invariant after a connection went on, wherever it is kept. -/
theorem Inv.of_goes {j j' : Job} (hi : Inv limit first s) (hg : s.roster.Goes crew j j' s'.roster)
    (ha : Advance j s.shared j' s'.shared) (hpast : s'.loop.past = true → s.loop.past = true ∧ j ∈ s.handlers) :
    Inv limit first s' := by
  refine ⟨hi.tidy.goes hg ha.crew, ?_, fun c hc => ?_, fun h => ?_⟩
  · obtain ⟨i, hj, hjobs, hin⟩ := hg.place
    have hjobs : s'.jobs = s.jobs.set i j' := hjobs
    rw [hjobs]
    exact hi.books.advance hj ha (hi.last_taken hj hin)
  · rw [ha.accepted] at hc
    have hheld : s'.loop.holds = s.loop.holds := hg.held
    have hmem : (∃ x ∈ s'.jobs, x.conn = c) ↔ ∃ x ∈ s.jobs, x.conn = c := hg.exists_iff ha.conn c
    rw [hheld, hmem]
    rcases hi.fate c hc with h | h | h
    · exact .inl h
    · exact .inr (.inl h)
    · exact .inr (.inr (ha.kept c h))
  · obtain ⟨hp, hj⟩ := hpast h
    have hwait := hi.past hp
    have hle := ha.wait_le (hi.launched hj)
    omega

theorem Inv.move (hi : Inv limit first s) (hm : Move limit s s') : Inv limit first s' := by
  cases hm with
  | quiet hq => exact hi.of_quiet hq
  | accept hloop => exact hi.of_accept hloop
  | take hloop hlt => exact hi.of_take hloop hlt
  | goes hg ha hpast => exact hi.of_goes hg ha hpast

end Invariant

/-! ## Every run -/

/-- The states that a call of `Serve` can reach. -/
def Server.Reaches (server : Server) (hasListener : Bool) (nextID rejected : UInt64) (s : Serving) : Prop :=
  server.serving.Reach (fun _ _ => True) (start hasListener nextID rejected) s

section Runs

variable {server : Server} {hasListener : Bool} {nextID rejected : UInt64} {s : Serving}

theorem Server.Reaches.inv (h : server.Reaches hasListener nextID rejected s) : Inv server.limit nextID s :=
  Machine.Reach.invariant h (inv_start ..) fun _ _ _ hi _ hs => hi.move (move_of_step hs)

theorem mem_jobs {j : Job} : j ∈ s.jobs ↔ j ∈ s.handlers ∨ s.loop.job = some j := Roster.mem_jobs (r := s.roster)

theorem Server.Reaches.run {s' : Serving} (h : server.Reaches hasListener nextID rejected s) {as : List Action}
    (hr : server.serving.runIf (fun _ _ => true) s as = some s') : server.Reaches hasListener nextID rejected s' := by
  refine Machine.Reach.mono (P := fun _ _ => true = true) ?_ fun _ _ _ => trivial
  exact Machine.reach_of_runIf (Machine.Reach.mono h fun _ _ _ => rfl) hr

end Runs

/-- The connection that `Serve` is about to close. -/
def Loop.refuses : Loop → Option Nat
  | .rejecting c | .dropping c | .refusing c => some c
  | _ => none

/-- Where an accepted connection is: with `Serve`, which has not yet decided or not yet done what it decided;
closed, with no handler; or with one handler. -/
inductive Fate (s : Serving) (c : Nat) : Prop
  | pending : s.loop.holds = some c ∨ (∃ j, s.loop.job = some j ∧ j.conn = c) → (∀ j ∈ s.handlers, j.conn ≠ c) → Fate s c
  | closed : c ∈ s.shared.closed → (∀ j ∈ s.handlers, j.conn ≠ c) → Fate s c
  | handled : (∃! j, j ∈ s.handlers ∧ j.conn = c) → Fate s c

/-- The actions of the context, of the goroutine that closes and of the handlers. -/
def Action.others : Action → Bool
  | .cancel | .watchContext | .watchClosed | .close | .closeLock _ | .handler _ | .hangUp _ => true
  | _ => false

/-- `Serve` gives a connection up only when all tokens are taken or the context is done, and then does nothing else
before it is closed. -/
structure Decides (limit : Nat) (s s' : Serving) : Prop where
  accepted : ∀ c, s.loop = .accepted c → s'.loop = .accepted c ∨ s'.loop = .registering ⟨c, 0, .taken⟩ ∨
    s'.loop = .rejecting c ∧ s.jobs.countP (·.stage.holdsToken) = limit ∨
    s'.loop = .refusing c ∧ s.shared.cancelled = true
  refused : ∀ c, s.loop.refuses = some c → s'.loop.refuses = some c ∨ c ∈ s'.shared.closed

/-- When `Serve` has returned. -/
structure Served (s : Serving) : Prop where
  handlers : ∀ j ∈ s.handlers, j.stage = .gone
  closed : ∀ c < s.shared.accepted, c ∈ s.shared.closed
  connections : s.shared.connections = []
  active : s.shared.active = 0

section Results

variable {limit : Nat} {first : UInt64} {s s' : Serving}

theorem Inv.fate_of_accepted (hi : Inv limit first s) {c : Nat} (hc : c < s.shared.accepted) : Fate s c := by
  by_cases hh : ∃ j ∈ s.handlers, j.conn = c
  · obtain ⟨j, hj, rfl⟩ := hh
    refine .handled ⟨j, ⟨hj, rfl⟩, ?_⟩
    rintro j' ⟨hj', he⟩
    exact hi.tidy.unique (mem_jobs.2 (.inl hj)) (mem_jobs.2 (.inl hj')) he
  · have hno : ∀ j ∈ s.handlers, j.conn ≠ c := fun j hj he => hh ⟨j, hj, he⟩
    rcases hi.fate c hc with h | ⟨j, hj, he⟩ | h
    · exact .pending (.inl h) hno
    · rcases mem_jobs.1 hj with hj | hj
      · exact absurd he (hno j hj)
      · exact .pending (.inr ⟨j, hj, he⟩) hno
    · exact .closed h hno

theorem Inv.served (hi : Inv limit first s) {e : Option GoError} (hloop : s.loop = .returned e) : Served s := by
  have hjobs := jobs_of_job_none (s := s) (by rw [hloop]; rfl)
  have hwait := hi.past (by rw [hloop]; rfl)
  have hgone : ∀ j ∈ s.handlers, j.stage = .gone := by
    intro j hj
    have hcount := hi.books.wait
    rw [hwait, hjobs, eq_comm, List.countP_eq_zero] at hcount
    exact Stage.eq_gone (hi.launched hj) (by simpa using hcount j hj)
  have hb := hjobs ▸ hi.books
  refine ⟨hgone, ?_, ?_, ?_⟩
  · intro c hc
    rcases hi.fate c hc with h | ⟨j, hj, rfl⟩ | h
    · rw [hloop] at h
      cases h
    · rw [hjobs] at hj
      exact hb.closed j hj (by rw [hgone j hj]; rfl)
    · exact h
  · rw [List.eq_nil_iff_forall_not_mem]
    intro c hc
    obtain ⟨j, hj, rfl⟩ := hi.tidy.table c hc
    have hlisted : j.stage.listed = true := (hi.tidy.listed j hj).1 hc
    have hj : j ∈ s.jobs := hj
    rw [hgone j (hjobs ▸ hj)] at hlisted
    cases hlisted
  · have hzero : s.handlers.countP (·.stage.active) = 0 := by
      rw [List.countP_eq_zero]
      intro j hj
      rw [hgone j hj]
      decide
    rw [hb.active, hzero]
    rfl

/-- The other goroutines do not move `Serve`. -/
theorem loop_of_others {a : Action} (ha : a.others = true) (h : step limit s a = some s') : s'.loop = s.loop := by
  cases a with
  | cancel => cases h; rfl
  | watchContext => obtain ⟨-, he⟩ := Option.ite_none_right_eq_some.1 h; cases he; rfl
  | watchClosed => obtain ⟨-, he⟩ := Option.ite_none_right_eq_some.1 h; cases he; rfl
  | close =>
    simp only [step] at h
    split at h
    · obtain ⟨x, -, rfl⟩ := Option.map_eq_some_iff.1 h
      rfl
    · cases h
  | closeLock order => obtain ⟨-, he⟩ := Option.ite_none_right_eq_some.1 h; cases he; rfl
  | handler i =>
    obtain ⟨j, -, h⟩ := Option.bind_eq_some_iff.1 h
    obtain ⟨x, -, rfl⟩ := Option.map_eq_some_iff.1 h
    rfl
  | hangUp i =>
    obtain ⟨j, -, h⟩ := Option.bind_eq_some_iff.1 h
    obtain ⟨-, he⟩ := Option.ite_none_right_eq_some.1 h
    cases he
    rfl
  | _ => cases ha

theorem Loop.refuses_eq_some {loop : Loop} {c : Nat} (h : loop.refuses = some c) :
    loop = .rejecting c ∨ loop = .dropping c ∨ loop = .refusing c := by
  cases loop with
  | rejecting d => exact .inl (congrArg _ (Option.some.inj h))
  | dropping d => exact .inr (.inl (congrArg _ (Option.some.inj h)))
  | refusing d => exact .inr (.inr (congrArg _ (Option.some.inj h)))
  | _ => cases h

/-- A connection that is given up leaves `Serve` one thing to do. -/
theorem serveNext_of_refuses {c : Nat} {a : Action} (hc : s.loop.refuses = some c) (ha : a.others = false)
    (h : step limit s a = some s') : a = .serve := by
  rcases Loop.refuses_eq_some hc with hloop | hloop | hloop <;>
    cases a <;> simp_all [step, Action.others]

theorem Inv.decides (hi : Inv limit first s) {a : Action} (h : step limit s a = some s') : Decides limit s s' := by
  cases ha : a.others with
  | true =>
    have hloop := loop_of_others ha h
    exact ⟨fun c hc => .inl (hloop.trans hc), fun c hc => .inl (hloop ▸ hc)⟩
  | false =>
    refine ⟨fun c hloop => ?_, fun c hc => ?_⟩
    · cases a with
      | take =>
        simp only [step, hloop] at h
        obtain ⟨-, he⟩ := Option.ite_none_right_eq_some.1 h
        cases he
        exact .inr (.inl rfl)
      | refuse =>
        simp only [step, hloop] at h
        obtain ⟨hcancelled, he⟩ := Option.ite_none_right_eq_some.1 h
        cases he
        exact .inr (.inr (.inr ⟨rfl, hcancelled⟩))
      | reject =>
        simp only [step, hloop] at h
        obtain ⟨hfull, he⟩ := Option.ite_none_left_eq_some.1 h
        cases he
        refine .inr (.inr (.inl ⟨rfl, ?_⟩))
        rw [← hi.books.tokens]
        exact Nat.le_antisymm hi.books.limit (Nat.le_of_not_lt fun hlt => hfull (.inl hlt))
      | _ => simp [step, hloop, Serving.serveNext, Action.others] at h ha
    · rcases Loop.refuses_eq_some hc with hloop | hloop | hloop
      · obtain rfl := serveNext_of_refuses hc ha h
        simp only [step, Serving.serveNext, hloop] at h
        cases h
        exact .inl rfl
      · obtain rfl := serveNext_of_refuses hc ha h
        simp only [step, Serving.serveNext, hloop] at h
        cases h
        exact .inr (List.mem_cons_self ..)
      · obtain rfl := serveNext_of_refuses hc ha h
        simp only [step, Serving.serveNext, hloop] at h
        cases h
        exact .inr (List.mem_cons_self ..)

/-- IDs come again only after the counter has gone all the way round. -/
theorem Inv.id_apart (hi : Inv limit first s) {i k : Nat} {j j' : Job} (hj : s.handlers[i]? = some j)
    (hj' : s.handlers[k]? = some j') (hlt : i < k) (he : j.id = j'.id) : i + 2 ^ 64 ≤ k := by
  have hid : ∀ i j, s.handlers[i]? = some j → j.id = first + .ofNat (i + 1) := by
    intro i j hj
    have hget : s.jobs[i]? = some j := by
      rw [Serving.jobs, List.getElem?_append_left (List.getElem?_eq_some_iff.1 hj).1]
      exact hj
    exact hi.books.ids i j hget (Stage.ne_taken (hi.launched (List.mem_of_getElem? hj)))
  rw [hid i j hj, hid k j' hj', UInt64.add_right_inj] at he
  have hmod := congrArg UInt64.toNat he
  simp only [UInt64.toNat_ofNat'] at hmod
  omega

end Results

/-- In every state of every call of `Serve`: the handlers that run and the active connections are within the
limit; an accepted connection is closed at once, for the limit or the context, or registered and given to one
handler; two handlers have the same ID only if 2^64 connections were given one in between; and when `Serve`
has returned nothing is left. -/
theorem serve_within_limit (server : Server) (hasListener : Bool) (nextID rejected : UInt64) (s : Serving)
    (h : server.Reaches hasListener nextID rejected s) :
    (s.handlers.countP (·.stage.holdsToken) ≤ server.limit ∧ 0 ≤ s.shared.active ∧ s.shared.active ≤ server.limit) ∧
    (∀ c < s.shared.accepted, Fate s c) ∧
    (∀ j ∈ s.handlers, j.stage = .running → j.conn ∈ s.shared.connections) ∧
    (∀ a s', server.serving.step s a = some s' → Decides server.limit s s') ∧
    (∀ i k j j', s.handlers[i]? = some j → s.handlers[k]? = some j' → i < k → j.id = j'.id → i + 2 ^ 64 ≤ k) ∧
    (∀ e, s.loop = .returned e → Served s) := by
  have hi := h.inv
  have hb := hi.books
  refine ⟨⟨?_, ?_, ?_⟩, fun c hc => hi.fate_of_accepted hc, ?_, fun a s' hs => hi.decides hs,
    fun i k j j' => hi.id_apart, fun e => hi.served⟩
  · calc s.handlers.countP (·.stage.holdsToken)
        ≤ s.jobs.countP (·.stage.holdsToken) := (List.sublist_append_left ..).countP_le
      _ = s.shared.tokens := hb.tokens.symm
      _ ≤ server.limit := hb.limit
  · rw [hb.active]
    exact Int.natCast_nonneg _
  · have hle : s.jobs.countP (·.stage.active) ≤ s.jobs.countP (·.stage.holdsToken) :=
      List.countP_mono_left fun j _ hj => Stage.active_holdsToken hj
    have htokens := hb.tokens
    have hlimit := hb.limit
    have hactive := hb.active
    omega
  · intro j hj hstage
    exact (hi.tidy.listed j (mem_jobs.2 (.inl hj))).2 (by show j.stage.listed = true; rw [hstage]; rfl)

/-- A server for two connections. -/
def pairServer : Server := ⟨⟨2, 1, 1⟩, by decide⟩

/-- The actions that accept a connection and start its handler. -/
def admitting : List Action := [.accept, .take, .serve, .serve, .serve, .serve, .serve]

/-- The context is done while a handler runs. -/
theorem serve_within_limit_cancelled : ∃ s, pairServer.Reaches true 0 0 s ∧ s.loop = .returned none ∧
    s.shared.accepted = 1 ∧ Served s := by
  let as : List Action := admitting ++ [.cancel, .watchContext, .close, .closeLock [0], .close, .close,
    .acceptError .closed, .serve, .serve, .serveLock [0], .serve, .serve] ++ List.replicate 6 (.handler 0) ++
    [.serve, .serve, .serve]
  have h : (pairServer.serving.runIf (fun _ _ => true) (start true 0 0) as).map (fun s => (s.loop, s.shared.accepted)) =
      some (.returned none, 1) := by decide +kernel
  obtain ⟨s, hrun, he⟩ := Option.map_eq_some_iff.1 h
  obtain ⟨hloop, haccepted⟩ := Prod.mk.inj he
  have hreach : pairServer.Reaches true 0 0 s := Server.Reaches.run .init hrun
  exact ⟨s, hreach, hloop, haccepted, (serve_within_limit _ _ _ _ s hreach).2.2.2.2.2 none hloop⟩

/-! ## The counter goes round -/

/-- `Serve` is at `Accept`, and nobody closes anything. -/
structure Steady (s : Serving) : Prop where
  loop : s.loop = .accepting
  closer : s.closer = .watching

section Round

variable {s : Serving}

/-- The state after one more connection was accepted. -/
def Serving.admitted (s : Serving) : Serving :=
  { s with
    shared := { s.shared with
      accepted := s.shared.accepted + 1
      tokens := s.shared.tokens + 1
      nextID := s.shared.nextID + 1
      connections := s.shared.connections.insert s.shared.accepted
      active := s.shared.active + 1
      wait := s.shared.wait + 1 }
    backoff := 0
    handlers := s.handlers ++ [⟨s.shared.accepted, s.shared.nextID + 1, .running⟩] }

theorem Steady.admits (hs : Steady s) (hlt : s.shared.tokens < pairServer.limit) :
    pairServer.serving.runIf (fun _ _ => true) s admitting = some s.admitted := by
  obtain ⟨g, loop, backoff, closer, handlers⟩ := s
  obtain ⟨hloop, hcloser⟩ := hs
  dsimp only at hloop hcloser hlt
  subst hloop hcloser
  simp [admitting, Machine.runIf, Server.serving, step, hlt, Serving.serveNext, Job.next, Serving.free,
    Loop.holdsLock, Closer.holdsLock, Serving.admitted]

/-- The state after the last handler returned. -/
def Serving.left (s : Serving) : Serving :=
  { s.admitted with
    shared := { s.admitted.shared with
      closed := s.shared.accepted :: s.shared.closed
      connections := s.admitted.shared.connections.filter (· ≠ s.shared.accepted)
      active := s.shared.active + 1 - 1
      tokens := s.shared.tokens
      wait := s.shared.wait }
    handlers := s.handlers ++ [⟨s.shared.accepted, s.shared.nextID + 1, .gone⟩] }

theorem Steady.leaves (hs : Steady s) :
    pairServer.serving.runIf (fun _ _ => true) s.admitted (List.replicate 6 (.handler s.handlers.length)) =
      some s.left := by
  obtain ⟨g, loop, backoff, closer, handlers⟩ := s
  obtain ⟨hloop, hcloser⟩ := hs
  dsimp only at hloop hcloser
  subst hloop hcloser
  simp [List.replicate, Machine.runIf, Server.serving, step, Serving.admitted, Serving.left, Job.next, Serving.free,
    Loop.holdsLock, Closer.holdsLock, Shared.shut]

/-- A first connection stays while `n` others come and go. -/
theorem steady_rounds (n : Nat) : ∃ s, pairServer.Reaches true 0 0 s ∧ Steady s ∧ s.shared.tokens = 1 ∧
    s.shared.nextID = .ofNat (n + 1) ∧ s.handlers.length = n + 1 ∧ s.handlers[0]? = some ⟨0, 1, .running⟩ := by
  induction n with
  | zero =>
    have hstart : Steady (start true 0 0) := ⟨rfl, rfl⟩
    have hreach : pairServer.Reaches true 0 0 (start true 0 0) := .init
    exact ⟨_, hreach.run (hstart.admits (by decide)), ⟨rfl, rfl⟩, rfl, rfl, rfl, rfl⟩
  | succ n ih =>
    obtain ⟨s, hreach, hsteady, htokens, hnext, hlength, hfirst⟩ := ih
    have hlt : s.shared.tokens < pairServer.limit := by rw [htokens]; decide
    refine ⟨s.left, (hreach.run (hsteady.admits hlt)).run hsteady.leaves, ⟨hsteady.loop, hsteady.closer⟩, htokens,
      ?_, ?_, ?_⟩
    · rw [UInt64.ofNat_add (n + 1), ← hnext]
      rfl
    · show (s.handlers ++ [_]).length = _
      rw [List.length_append, hlength]
      rfl
    · show (s.handlers ++ [_])[0]? = _
      rw [List.getElem?_append_left (by omega)]
      exact hfirst

end Round

/-- Two handlers run with one ID. -/
theorem id_comes_again : ∃ s, pairServer.Reaches true 0 0 s ∧ ∃ (i k : Nat) (j j' : Job), s.handlers[i]? = some j ∧
    s.handlers[k]? = some j' ∧ i ≠ k ∧ j.stage = .running ∧ j'.stage = .running ∧ j.id = j'.id := by
  obtain ⟨s, hreach, hsteady, htokens, hnext, hlength, hfirst⟩ := steady_rounds (2 ^ 64 - 1)
  have hlt : s.shared.tokens < pairServer.limit := by rw [htokens]; decide
  have hfirst' : s.admitted.handlers[0]? = some ⟨0, 1, .running⟩ := by
    show (s.handlers ++ [_])[0]? = _
    rw [List.getElem?_append_left (by omega)]
    exact hfirst
  have hlast : s.admitted.handlers[s.handlers.length]? = some ⟨s.shared.accepted, s.shared.nextID + 1, .running⟩ :=
    List.getElem?_concat_length
  refine ⟨s.admitted, hreach.run (hsteady.admits hlt), 0, s.handlers.length, _, _, hfirst', hlast, ?_, rfl, rfl, ?_⟩
  · omega
  · show (1 : UInt64) = s.shared.nextID + 1
    rw [hnext]
    decide

end Accelerator.Listener
