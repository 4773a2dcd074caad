/-
`stop` and the clients of the relay. `stop` goes through the table once, and `Accept` and `track` are two
statements of another goroutine: a client that was accepted and not yet tracked is not closed. Its handler
fails if the context is done by then, and otherwise dials and relays as if nothing had happened. In runs in
which `stop` does not meet such a client, or meets it with the context done, no client is forgotten.
-/
import Accelerator.Interact.Roster
import Accelerator.Relay.Server

namespace Accelerator.Relay

open Interact

/-! ## Stages -/

namespace Stage

/-- The client was tracked. -/
@[simp]
def tracked : Stage → Bool
  | .accepting | .activating | .tracking => false
  | _ => true

/-- The handler was started. -/
@[simp]
def launched : Stage → Bool
  | .accepting | .activating | .tracking | .counting | .launching => false
  | _ => true

/-- The handler will return whatever happens: its dial failed, or one of its copies ended. -/
@[simp]
def ending : Stage → Bool
  | .dialFailed | .closingClient | .closingUpstream | .second | .untrackingUpstream | .closingUpstreamAgain
  | .untracking | .closingClientAgain | .deactivating | .releasing | .finishing | .gone => true
  | _ => false

/-- The client was tracked and its dial has not begun. -/
@[simp]
def early : Stage → Bool
  | .counting | .launching | .dial => true
  | _ => false

/-- The client is in the table. -/
@[simp]
def listed : Stage → Bool
  | .accepting | .activating | .tracking | .closingClientAgain | .deactivating | .releasing | .finishing | .gone => false
  | _ => true

theorem listed_of_not_ending {stage : Stage} (ht : stage.tracked = true) (he : stage.ending = false) :
    stage.listed = true := by
  revert ht he
  cases stage <;> decide

theorem tracked_of_launched {stage : Stage} (h : stage.launched = true) : stage.tracked = true := by
  revert h
  cases stage <;> decide

theorem eq_dial {stage : Stage} (hl : stage.launched = true) (he : stage.early = true) : stage = .dial := by
  revert hl he
  cases stage <;> decide

end Stage

/-! ## The sweep -/

/-- The listener is closed, and the table is or was gone through. -/
def Stop.swept : Stop → Bool
  | .closing _ | .done => true
  | _ => false

/-- What is still to be closed. -/
def Stop.rest : Stop → List Conn
  | .closing rest => rest
  | _ => []

/-- The accept loop has a client that is not tracked and may yet be. -/
def Loop.untracked : Loop → Bool
  | .accepted _ => true
  | .admitting j => !j.stage.tracked
  | _ => false

theorem Loop.untracked_admitting {j : Job} : (Loop.admitting j).untracked = true ↔ ¬j.stage.tracked = true := by
  rw [Loop.untracked, Bool.not_eq_true', Bool.not_eq_true]

/-- The client is closed or is about to be, or its handler returns anyway. -/
def Told (g : Shared) (rest : List Conn) (j : Job) : Prop :=
  .client j.conn ∈ g.closed ∨ .client j.conn ∈ rest ∨ j.stage.ending = true ∨
    g.cancelled = true ∧ j.stage.early = true

/-- A client was forgotten: `stop` is through, the accept loop has returned, and the client is tracked and open,
while its handler neither returns anyway nor dials with a context that is done. -/
def Stranded (s : Relaying) : Prop :=
  s.stop = .done ∧ s.loop = .returned ∧ ∃ c, .client c ∈ s.shared.conns ∧ .client c ∉ s.shared.closed ∧
    ¬∃ j ∈ s.handlers, j.conn = c ∧
      (j.stage.ending = true ∨ s.shared.cancelled = true ∧ (j.stage = .dial ∨ j.stage = .dialing))

/-- The sweep misses nobody: the relay was started and the accept loop has no untracked client, or the context is
done. -/
def Spares (s : Relaying) : Action → Prop
  | .sweep _ => s.shared.cancelled = true ∨ s.shared.listening = true ∧ s.loop.untracked = false
  | _ => True

/-! ## What a step does -/

/-- A client in the semaphore is a job. -/
def crew : Crew Job := ⟨Job.conn, fun j => j.stage.launched, fun j => j.stage.listed⟩

/-- The accept loop and its handlers, with the clients of the table. -/
def Relaying.roster (s : Relaying) : Roster Job :=
  ⟨s.shared.arrived, s.loop.holds, s.loop.job, s.handlers, fun c => .client c ∈ s.shared.conns⟩

/-- What the next statement of a client does. -/
structure Advance (free : Bool) (j : Job) (g : Shared) (j' : Job) (g' : Shared) : Prop where
  conn : j'.conn = j.conn
  arrived : g'.arrived = g.arrived
  cancelled : g'.cancelled = g.cancelled
  listenerClosed : g'.listenerClosed = g.listenerClosed
  closed : ∀ c ∈ g.closed, c ∈ g'.closed
  launched : j'.stage.launched = (j.stage.launched || j.stage = .launching)
  spared : ∀ c, c ≠ j.conn → (.client c ∈ g'.conns ↔ .client c ∈ g.conns)
  listed : (.client j.conn ∈ g.conns ↔ j.stage.listed = true) → (.client j.conn ∈ g'.conns ↔ j'.stage.listed = true)
  told : ∀ rest, Told g rest j → Told g' rest j'
  tracked : j'.stage.tracked = true → j.stage.tracked = true ∨ free = true ∧ j'.stage.early = true
  kept : j.stage.tracked = true → j'.stage.tracked = true

theorem Job.next_advance {free ok : Bool} {j j' : Job} {g g' : Shared} (h : j.next free ok g = some (j', g')) :
    Advance free j g j' g' := by
  obtain ⟨c, stage⟩ := j
  cases stage with
  | accepting => cases h; constructor <;> simp [Told]
  | activating => cases h; constructor <;> simp [Told]
  | tracking =>
    obtain ⟨hfree, he⟩ := Option.ite_none_right_eq_some.1 h
    cases he
    constructor <;> simp +contextual [Told, Shared.track, hfree]
    exact fun rest h => h.imp_right .inl
  | counting => cases h; constructor <;> simp [Told]
  | launching => cases h; constructor <;> simp [Told]
  | dial =>
    cases h
    -- With the context done the dial fails, and otherwise the client is closed or about to be.
    constructor <;> cases hc : g.cancelled <;> simp +contextual [Told, hc]
  | dialing => cases h; constructor <;> cases ok <;> simp +contextual [Told]
  | dialFailed => cases h; constructor <;> simp [Told]
  | trackingUpstream =>
    obtain ⟨hfree, he⟩ := Option.ite_none_right_eq_some.1 h
    cases he
    constructor <;> simp +contextual [Told, Shared.track]
  | relaying => cases h; constructor <;> simp [Told]
  | closingClient => cases h; constructor <;> simp +contextual [Told, Shared.shut]
  | closingUpstream => cases h; constructor <;> simp +contextual [Told, Shared.shut]
  | second => cases h; constructor <;> simp [Told]
  | untrackingUpstream =>
    obtain ⟨hfree, he⟩ := Option.ite_none_right_eq_some.1 h
    cases he
    constructor <;> simp +contextual [Told, Shared.track]
  | closingUpstreamAgain => cases h; constructor <;> simp +contextual [Told, Shared.shut]
  | untracking =>
    obtain ⟨hfree, he⟩ := Option.ite_none_right_eq_some.1 h
    cases he
    constructor <;> simp +contextual [Told, Shared.track]
  | closingClientAgain => cases h; constructor <;> simp +contextual [Told, Shared.shut]
  | deactivating => cases h; constructor <;> simp [Told]
  | releasing =>
    obtain ⟨-, he⟩ := Option.ite_none_right_eq_some.1 h
    cases he
    constructor <;> simp [Told]
  | finishing =>
    obtain ⟨-, he⟩ := Option.ite_none_right_eq_some.1 h
    cases he
    constructor <;> simp [Told]
  | gone => cases h

theorem Advance.crew {free : Bool} {j j' : Job} {g g' : Shared} (ha : Advance free j g j' g') :
    Relay.crew.Advances (fun c => .client c ∈ g.conns) j (fun c => .client c ∈ g'.conns) j' :=
  ⟨ha.conn, ha.spared, ha.listed⟩

/-- A step that concerns no client in the semaphore. -/
structure Quiet (s s' : Relaying) : Prop where
  handlers : s'.handlers = s.handlers
  job : s'.loop.job = s.loop.job
  conns : s'.shared.conns = s.shared.conns
  arrived : s'.shared.arrived = s.shared.arrived
  closed : ∀ c ∈ s.shared.closed, c ∈ s'.shared.closed
  cancelled : s.shared.cancelled = true → s'.shared.cancelled = true
  listenerClosed : s'.shared.listenerClosed = s.shared.listenerClosed
  holds : ∀ c, s'.loop.holds = some c → s.loop.holds = some c
  untracked : s'.loop.untracked = true → s.loop.untracked = true
  swept : s'.stop.swept = true → s.stop.swept = true
  rest : ∀ c ∈ s.stop.rest, c ∈ s'.stop.rest ∨ c ∈ s'.shared.closed

inductive Move (s : Relaying) : Action → Relaying → Prop
  | quiet {a : Action} {s' : Relaying} : Quiet s s' → Move s a s'
  | accept : s.loop = .accept → s.shared.listenerClosed = false → Move s .accept { s with
      shared := { s.shared with arrived := s.shared.arrived + 1 }
      loop := .accepted s.shared.arrived }
  | acquire {c : Nat} : s.loop = .accepted c → Move s .acquire { s with
      shared := { s.shared with sem := s.shared.sem + 1 }
      loop := .admitting ⟨c, .accepting⟩ }
  | goes {a : Action} {j j' : Job} {s' : Relaying} : s.roster.Goes crew j j' s'.roster →
      Advance s.free j s.shared j' s'.shared → s'.stop = s.stop →
      (s'.loop.untracked = true → s.loop.untracked = true) →
      (j.stage.tracked = false → s.loop.untracked = true ∨ j ∈ s.handlers) → Move s a s'
  | sweep {order : List Conn} : order.Perm s.shared.conns → Move s (.sweep order) { s with
      shared := { s.shared with listenerClosed := s.shared.listenerClosed || s.shared.listening }
      stop := .closing order }

section Inversion

variable {limit : Nat} {s s' : Relaying}

theorem Stop.swept_call {stop : Stop} (h : stop.call.swept = true) : stop.swept = true := by
  cases stop <;> exact h

theorem Stop.rest_call (stop : Stop) : stop.call.rest = stop.rest := by
  cases stop <;> rfl

/-- A step of the accept loop between two statements that have no client in the semaphore. -/
theorem Quiet.of_loop {loop : Loop} {g : Shared} {watcher : Watcher} (hconns : g.conns = s.shared.conns)
    (harrived : g.arrived = s.shared.arrived) (hclosed : ∀ c ∈ s.shared.closed, c ∈ g.closed)
    (hcancelled : s.shared.cancelled = true → g.cancelled = true)
    (hlistener : g.listenerClosed = s.shared.listenerClosed) (hjob : loop.job = s.loop.job)
    (hholds : ∀ c, loop.holds = some c → s.loop.holds = some c)
    (huntracked : loop.untracked = true → s.loop.untracked = true) :
    Quiet s ⟨g, loop, s.stop, watcher, s.handlers⟩ :=
  ⟨rfl, hjob, hconns, harrived, hclosed, hcancelled, hlistener, hholds, huntracked, id, fun _ h => .inl h⟩

/-- One that closes and cancels nothing. -/
theorem Quiet.of_step {loop loop' : Loop} {g : Shared} {watcher : Watcher}
    (hg : g = { s.shared with
      listening := g.listening, done := g.done, runErr := g.runErr, accepted := g.accepted, rejected := g.rejected })
    (hloop : s.loop = loop) (hjob : loop'.job = loop.job) (hholds : ∀ c, loop'.holds = some c → loop.holds = some c)
    (huntracked : loop'.untracked = true → loop.untracked = true) : Quiet s ⟨g, loop', s.stop, watcher, s.handlers⟩ := by
  subst hloop
  rw [hg]
  exact .of_loop rfl rfl (fun _ h => h) id rfl hjob hholds huntracked

/-- A call of `stop`. -/
theorem Quiet.of_call {watcher : Watcher} : Quiet s ⟨s.shared, s.loop, s.stop.call, watcher, s.handlers⟩ :=
  ⟨rfl, rfl, rfl, rfl, fun _ h => h, id, rfl, fun _ h => h, id, Stop.swept_call,
    fun _ h => .inl ((Stop.rest_call s.stop).symm ▸ h)⟩

/-- A statement of the accept loop on its client. -/
theorem move_of_admitting {j j' : Job} {g : Shared} (hloop : s.loop = .admitting j)
    (hnext : j.next s.free true s.shared = some (j', g)) :
    Move s .loop (if j.stage = .launching then { s with shared := g, loop := .accept, handlers := s.handlers ++ [j'] }
      else { s with shared := g, loop := .admitting j' }) := by
  have ha := Job.next_advance hnext
  have hlaunched : crew.launched j' = (crew.launched j || j.stage = .launching) := ha.launched
  have hjob : s.roster.job = some j := by rw [Relaying.roster, hloop]; rfl
  have hheld : none = s.roster.held := by rw [Relaying.roster, hloop]; rfl
  have huntracked : j.stage.tracked = false → s.loop.untracked = true := fun ht => by
    rw [hloop, Loop.untracked_admitting, ht]
    exact Bool.false_ne_true
  split_ifs with hstage
  · refine .goes ⟨ha.arrived, hheld, .launches hjob rfl rfl ?_⟩ ha rfl nofun fun ht => .inl (huntracked ht)
    rw [hlaunched, decide_eq_true hstage, Bool.or_true]
  · refine .goes ⟨ha.arrived, hheld, .registers hjob rfl rfl fun h => ?_⟩ ha rfl ?_ fun ht => .inl (huntracked ht)
    · rw [hlaunched, h, decide_eq_false hstage]
      rfl
    · intro hu
      rw [hloop, Loop.untracked_admitting]
      exact fun ht => Loop.untracked_admitting.1 hu (ha.kept ht)

theorem move_of_loopNext (h : s.loopNext = some s') : Move s .loop s' := by
  unfold Relaying.loopNext at h
  split at h <;> rename_i hloop
  · obtain ⟨⟨j', g⟩, hnext, rfl⟩ := Option.map_eq_some_iff.1 h
    exact move_of_admitting hloop hnext
  · cases h
    exact .quiet (.of_step rfl hloop rfl (fun _ h => h) nofun)
  · cases h
    exact .quiet (.of_loop rfl rfl (fun _ h => List.mem_cons_of_mem _ h) id rfl (by rw [hloop]; rfl) nofun nofun)
  · cases h
    exact .quiet (.of_step rfl hloop rfl nofun nofun)
  · split at h <;> rename_i hstop
    · cases h
      have hcall : s.stop.call = .locking := by rw [hstop]; rfl
      have hq : Quiet s ⟨s.shared, s.loop, s.stop.call, s.watcher, s.handlers⟩ := .of_call
      rw [hcall] at hq
      exact .quiet hq
    · cases h
      exact .quiet (.of_step rfl hloop rfl nofun nofun)
    · cases h
  · cases h
    exact .quiet (.of_step rfl hloop rfl nofun nofun)
  · cases h

theorem move_of_step {a : Action} (h : step limit s a = some s') : Move s a s' := by
  cases a with
  | start =>
    obtain ⟨hloop, he⟩ := Option.ite_none_right_eq_some.1 h
    cases he
    exact .quiet (.of_step rfl hloop rfl nofun nofun)
  | cancel =>
    cases h
    exact .quiet (.of_loop rfl rfl (fun _ h => h) (fun _ => rfl) rfl rfl (fun _ h => h) id)
  | accept =>
    obtain ⟨⟨hloop, hopen⟩, he⟩ := Option.ite_none_right_eq_some.1 h
    cases he
    exact .accept hloop hopen
  | acceptClosed =>
    obtain ⟨⟨hloop, -⟩, he⟩ := Option.ite_none_right_eq_some.1 h
    cases he
    exact .quiet (.of_step rfl hloop rfl nofun nofun)
  | acceptError e =>
    obtain ⟨hloop, he⟩ := Option.ite_none_right_eq_some.1 h
    cases he
    exact .quiet (.of_step rfl hloop rfl nofun nofun)
  | acquire =>
    simp only [step] at h
    split at h
    · rename_i c hloop
      obtain ⟨-, he⟩ := Option.ite_none_right_eq_some.1 h
      cases he
      exact .acquire hloop
    · cases h
  | reject =>
    simp only [step] at h
    split at h
    · rename_i c hloop
      obtain ⟨-, he⟩ := Option.ite_none_left_eq_some.1 h
      cases he
      exact .quiet (.of_step rfl hloop rfl (fun _ h => h) nofun)
    · cases h
  | loop => exact move_of_loopNext h
  | shutdown =>
    cases h
    exact .quiet .of_call
  | watchContext =>
    obtain ⟨-, he⟩ := Option.ite_none_right_eq_some.1 h
    cases he
    exact .quiet .of_call
  | watchDone =>
    obtain ⟨-, he⟩ := Option.ite_none_right_eq_some.1 h
    cases he
    exact .quiet (.of_step rfl rfl rfl (fun _ h => h) id)
  | lock =>
    obtain ⟨hstop, he⟩ := Option.ite_none_right_eq_some.1 h
    cases he
    exact .quiet ⟨rfl, rfl, rfl, rfl, fun _ h => h, id, rfl, fun _ h => h, id, nofun, by rw [hstop]; nofun⟩
  | sweep order =>
    obtain ⟨⟨-, hperm⟩, he⟩ := Option.ite_none_right_eq_some.1 h
    cases he
    exact .sweep hperm
  | close =>
    simp only [step] at h
    split at h
    · rename_i c rest hstop
      cases h
      refine .quiet ⟨rfl, rfl, rfl, rfl, fun _ h => List.mem_cons_of_mem _ h, id, rfl, fun _ h => h, id, ?_, ?_⟩
      · rw [hstop]
        exact id
      · rw [hstop]
        intro d hd
        rcases List.mem_cons.1 hd with rfl | hd
        · exact .inr (List.mem_cons_self ..)
        · exact .inl hd
    · rename_i hstop
      cases h
      refine .quiet ⟨rfl, rfl, rfl, rfl, fun _ h => h, id, rfl, fun _ h => h, id, ?_, ?_⟩
      · rw [hstop]
        exact id
      · rw [hstop]
        nofun
    · cases h
  | handler i ok =>
    obtain ⟨j, hj, h⟩ := Option.bind_eq_some_iff.1 h
    obtain ⟨⟨j', g⟩, hnext, rfl⟩ := Option.map_eq_some_iff.1 h
    have ha := Job.next_advance hnext
    have hlaunched : j.stage.launched = true → j'.stage.launched = true := fun h => by rw [ha.launched, h]; rfl
    exact .goes ⟨ha.arrived, rfl, .handles hj rfl rfl hlaunched⟩ ha rfl id fun _ => .inr (List.mem_of_getElem? hj)

end Inversion

/-! ## The invariant -/

structure Inv (s : Relaying) : Prop where
  tidy : s.roster.Tidy crew
  late : s.stop.swept = true →
    s.shared.cancelled = true ∨ s.shared.listenerClosed = true ∧ s.loop.untracked = false
  told : s.stop.swept = true → ∀ j ∈ s.jobs, j.stage.tracked = true → Told s.shared s.stop.rest j

section Invariant

variable {s s' : Relaying}

theorem jobs_of_job_none (h : s.loop.job = none) : s.jobs = s.handlers := Roster.jobs_of_none (r := s.roster) h

theorem inv_initial : Inv initial := by
  refine ⟨?_, nofun, nofun⟩
  constructor <;> simp [initial, Relaying.roster, Roster.jobs, Loop.job, Loop.holds]

theorem Inv.quiet (hi : Inv s) (hq : Quiet s s') : Inv s' := by
  have hjobs : s'.jobs = s.jobs := by rw [Relaying.jobs, Relaying.jobs, hq.handlers, hq.job]
  refine ⟨hi.tidy.keep ?_ hq.holds, fun hs => ?_, fun hs j hj ht => ?_⟩
  · simp only [Relaying.roster, hq.arrived, hq.job, hq.handlers, hq.conns]
  · refine (hi.late (hq.swept hs)).imp hq.cancelled fun ⟨hl, hu⟩ => ⟨hq.listenerClosed ▸ hl, ?_⟩
    cases hu' : s'.loop.untracked with
    | false => rfl
    | true => rw [hq.untracked hu'] at hu; cases hu
  · rcases hi.told (hq.swept hs) j (hjobs ▸ hj) ht with h | h | h | ⟨hc, he⟩
    · exact .inl (hq.closed _ h)
    · exact (hq.rest _ h).elim (fun h => .inr (.inl h)) .inl
    · exact .inr (.inr (.inl h))
    · exact .inr (.inr (.inr ⟨hq.cancelled hc, he⟩))

/-- The invariant after a client went on, wherever it is kept. -/
theorem Inv.of_goes {j j' : Job} (hi : Inv s) (hg : s.roster.Goes crew j j' s'.roster)
    (ha : Advance s.free j s.shared j' s'.shared) (hstop : s'.stop = s.stop)
    (huntracked : s'.loop.untracked = true → s.loop.untracked = true)
    (huntracked' : j.stage.tracked = false → s.loop.untracked = true ∨ j ∈ s.handlers) : Inv s' := by
  refine ⟨hi.tidy.goes hg ha.crew, fun hs => ?_, fun hs x hx ht => ?_⟩
  · rw [hstop] at hs
    refine (hi.late hs).imp (ha.cancelled ▸ ·) fun ⟨hl, hu⟩ => ⟨ha.listenerClosed ▸ hl, ?_⟩
    cases hu' : s'.loop.untracked with
    | false => rfl
    | true => rw [huntracked hu'] at hu; cases hu
  · rw [hstop] at hs ⊢
    rcases hg.cases_mem hi.tidy hx with rfl | ⟨hx, -⟩
    · cases htracked : j.stage.tracked with
      | true => exact ha.told _ (hi.told hs j hg.mem htracked)
      | false =>
        -- A client tracked now that the sweep has begun: the context was done then.
        rcases hi.late hs with hc | ⟨-, hu⟩
        · rcases ha.tracked ht with h | ⟨-, he⟩
          · rw [htracked] at h
            cases h
          · exact .inr (.inr (.inr ⟨ha.cancelled ▸ hc, he⟩))
        · rcases huntracked' htracked with h | h
          · rw [h] at hu
            cases hu
          · rw [Stage.tracked_of_launched (hi.tidy.launched j h)] at htracked
            cases htracked
    · rcases hi.told hs x hx ht with h | h | h | ⟨hc, he⟩
      · exact .inl (ha.closed _ h)
      · exact .inr (.inl h)
      · exact .inr (.inr (.inl h))
      · exact .inr (.inr (.inr ⟨ha.cancelled ▸ hc, he⟩))

/-- A client waits at the listener: it is in no table yet. -/
theorem Inv.of_accept (hi : Inv s) (hloop : s.loop = .accept) (hopen : s.shared.listenerClosed = false) :
    Inv { s with shared := { s.shared with arrived := s.shared.arrived + 1 }, loop := .accepted s.shared.arrived } := by
  have hnone : s.loop.job = none := by rw [hloop]; rfl
  have hjobs := jobs_of_job_none hnone
  refine ⟨?_, fun hs => ?_, ?_⟩
  · have h := hi.tidy.arrive
    simp only [Relaying.roster, hnone] at h
    exact h
  · rcases hi.late hs with hc | ⟨hl, -⟩
    · exact .inl hc
    · rw [hopen] at hl
      cases hl
  · rw [jobs_of_job_none rfl, ← hjobs]
    exact hi.told

theorem Inv.of_acquire {c : Nat} (hi : Inv s) (hloop : s.loop = .accepted c) :
    Inv { s with shared := { s.shared with sem := s.shared.sem + 1 }, loop := .admitting ⟨c, .accepting⟩ } := by
  have hnone : s.loop.job = none := by rw [hloop]; rfl
  have hjobs := jobs_of_job_none hnone
  refine ⟨?_, fun hs => ?_, fun hs x hx ht => ?_⟩
  · exact hi.tidy.enroll (j := ⟨c, .accepting⟩) (by rw [Relaying.roster, hloop]; rfl) hnone rfl rfl
  · rcases hi.late hs with hc | ⟨-, hu⟩
    · exact .inl hc
    · rw [hloop] at hu
      cases hu
  · rcases List.mem_append.1 hx with hx | hx
    · exact hi.told hs x (hjobs ▸ hx) ht
    · obtain rfl := List.mem_singleton.1 hx
      cases ht

/-- The sweep takes every client of the table, and by `Spares` the others are told by the context. -/
theorem Inv.of_sweep {order : List Conn} (hi : Inv s) (hp : Spares s (.sweep order)) (hperm : order.Perm s.shared.conns) :
    Inv { s with
      shared := { s.shared with listenerClosed := s.shared.listenerClosed || s.shared.listening }
      stop := .closing order } := by
  refine ⟨hi.tidy, fun _ => ?_, fun _ j hj ht => ?_⟩
  · refine hp.imp id fun ⟨hl, hu⟩ => ⟨?_, hu⟩
    rw [hl, Bool.or_true]
  · cases he : j.stage.ending with
    | true => exact .inr (.inr (.inl he))
    | false => exact .inr (.inl (hperm.mem_iff.2 ((hi.tidy.listed j hj).2 (Stage.listed_of_not_ending ht he))))

theorem Inv.move {a : Action} (hi : Inv s) (hp : Spares s a) (hm : Move s a s') : Inv s' := by
  cases hm with
  | quiet hq => exact hi.quiet hq
  | accept hloop hopen => exact hi.of_accept hloop hopen
  | acquire hloop => exact hi.of_acquire hloop
  | goes hg ha hstop huntracked huntracked' => exact hi.of_goes hg ha hstop huntracked huntracked'
  | sweep hperm => exact hi.of_sweep hp hperm

end Invariant

/-! ## Every run -/

/-- When `stop` is through, a client in the table is closed, or its handler returns anyway. -/
theorem Inv.not_stranded {s : Relaying} (hi : Inv s) : ¬Stranded s := by
  rintro ⟨hstop, hloop, c, hc, hopen, hno⟩
  have hjobs := jobs_of_job_none (s := s) (by rw [hloop]; rfl)
  obtain ⟨j, hj, rfl⟩ := hi.tidy.table c hc
  have hj : j ∈ s.jobs := hj
  rw [hjobs] at hj
  have hlaunched : j.stage.launched = true := hi.tidy.launched j hj
  rcases hi.told (by rw [hstop]; rfl) j (hjobs ▸ hj) (Stage.tracked_of_launched hlaunched) with h | h | h | ⟨hcancel, he⟩
  · exact hopen h
  · rw [hstop] at h
    cases h
  · exact hno ⟨j, hj, rfl, .inl h⟩
  · exact hno ⟨j, hj, rfl, .inr ⟨hcancel, .inl (Stage.eq_dial hlaunched he)⟩⟩

/-- In every run in which the sweep misses nobody, no client is forgotten. -/
theorem stop_strands_nobody (server : Server) (s : Relaying) (h : server.relaying.Reach Spares initial s) :
    ¬Stranded s :=
  (h.invariant inv_initial fun _ _ _ hi hp hs => hi.move hp (move_of_step hs)).not_stranded

/-- A relay for one client. -/
def soleServer : Server := ⟨⟨[], [], 1, 1⟩, by decide⟩

/-- The actions that accept a client and give it a place in the semaphore. -/
def admitted : List Action := [.accept, .acquire, .loop, .loop]

instance (s : Relaying) (a : Action) : Decidable (Spares s a) := by
  cases a <;> unfold Spares <;> infer_instance

/-- `stop` after the client was tracked. -/
theorem stop_strands_nobody_tracked : ∃ s, soleServer.relaying.Reach Spares initial s ∧ s.stop = .done ∧
    s.loop = .returned ∧ s.handlers = [⟨0, .relaying⟩] ∧ ¬Stranded s := by
  let as : List Action := [.start] ++ admitted ++ [.loop, .loop, .loop, .handler 0 true, .handler 0 true, .handler 0 true,
    .shutdown, .lock, .sweep [.upstream 0, .client 0], .close, .close, .close, .acceptClosed, .loop]
  have h : (soleServer.relaying.runIf (fun s a => decide (Spares s a)) initial as).map
      (fun s => (s.stop, s.loop, s.handlers)) = some (.done, .returned, [⟨0, .relaying⟩]) := by decide +kernel
  obtain ⟨s, hrun, he⟩ := Option.map_eq_some_iff.1 h
  obtain ⟨hstop, he⟩ := Prod.mk.inj he
  obtain ⟨hloop, hhandlers⟩ := Prod.mk.inj he
  have hreach : soleServer.relaying.Reach Spares initial s :=
    (Machine.reach_of_runIf .init hrun).mono fun _ _ h => of_decide_eq_true h
  exact ⟨s, hreach, hstop, hloop, hhandlers, stop_strands_nobody _ s hreach⟩

/-- `Shutdown` sweeps between `Accept` and `track`: the client is tracked afterwards and relayed, with nobody left to
close it. -/
theorem stop_misses_untracked : ∃ s, soleServer.relaying.Reach (fun _ _ => True) initial s ∧ Stranded s := by
  let as : List Action := [.start] ++ admitted ++ [.shutdown, .lock, .sweep [], .close, .loop, .loop, .loop,
    .handler 0 true, .handler 0 true, .handler 0 true, .acceptClosed, .loop]
  have h : (soleServer.relaying.runIf (fun _ _ => true) initial as).map
      (fun s => (s.stop, s.loop, s.shared.conns, s.shared.closed, s.handlers)) =
      some (.done, .returned, [.upstream 0, .client 0], [], [⟨0, .relaying⟩]) := by decide +kernel
  obtain ⟨s, hrun, he⟩ := Option.map_eq_some_iff.1 h
  obtain ⟨hstop, he⟩ := Prod.mk.inj he
  obtain ⟨hloop, he⟩ := Prod.mk.inj he
  obtain ⟨hconns, he⟩ := Prod.mk.inj he
  obtain ⟨hclosed, hhandlers⟩ := Prod.mk.inj he
  have hreach : soleServer.relaying.Reach (fun _ _ => True) initial s :=
    (Machine.reach_of_runIf (p := fun _ _ => true) .init hrun).mono fun _ _ _ => trivial
  refine ⟨s, hreach, hstop, hloop, 0, ?_, ?_, ?_⟩
  · rw [hconns]
    decide
  · rw [hclosed]
    decide
  · rw [hhandlers]
    rintro ⟨j, hj, -, hend⟩
    obtain rfl := List.mem_singleton.1 hj
    simp at hend

end Accelerator.Relay
