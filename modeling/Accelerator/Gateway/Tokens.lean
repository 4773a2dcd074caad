/-
Admission tokens across sessions. The admission channel holds the tokens of the sessions' ledgers and
nothing else, and the service's counter of pinned connections counts their pins; what one session
holds is known from its own invariant. A read outside a transaction gives its token back before its
connection, so that for a moment there are more connections checked out than tokens.
-/
import Accelerator.Gateway.Sharing
import Mathlib.Algebra.Order.BigOperators.Group.Finset
import Mathlib.Algebra.BigOperators.Ring.Finset

namespace Accelerator.Gateway

open Interact Strings Engine Upstream

/-! ## The counters and the ledgers -/

section Counts

variable {ι : Type} [DecidableEq ι] [Fintype ι] {limits : Limits} {w w' : World ι} {H : ι → Ledger}

/-- The admission channel and the counter of pins are the sums of what the ledgers say. -/
structure Counts (limits : Limits) (w : World ι) (H : ι → Ledger) : Prop where
  admission : (w.admission : Int) = ∑ i, ((H i).tokens : Int)
  pinned : w.pinned = ∑ i, (H i).pins
  within : w.admission ≤ limits.maxUpstreamConnections

/-- A step of session `i` that moves both sides by the same amounts. -/
theorem Counts.step (h : Counts limits w H) {i : ι} {L : Ledger} {k l : Int}
    (hw : (w'.admission : Int) = w.admission + k) (hL : (L.tokens : Int) = (H i).tokens + k)
    (hp : w'.pinned = w.pinned + l) (hLp : L.pins = (H i).pins + l)
    (hle : w'.admission ≤ limits.maxUpstreamConnections) : Counts limits w' (Function.update H i L) := by
  refine ⟨?_, ?_, hle⟩
  · rw [hw, h.admission]
    exact (sum_update (g := fun L : Ledger => (L.tokens : Int)) hL).symm
  · rw [hp, h.pinned]
    exact (sum_update (g := fun L : Ledger => L.pins) hLp).symm

theorem Counts.same (h : Counts limits w H) {i : ι} {L : Ledger} (hw : w'.admission = w.admission)
    (hL : L.tokens = (H i).tokens) (hp : w'.pinned = w.pinned) (hLp : L.pins = (H i).pins) :
    Counts limits w' (Function.update H i L) :=
  h.step (k := 0) (l := 0) (by rw [hw, add_zero]) (by rw [hL, add_zero]) (by rw [hp, add_zero]) (by rw [hLp, add_zero])
    (hw ▸ h.within)

/-- A token more, when there is room for it. -/
theorem Counts.take (h : Counts limits w H) {i : ι} {L : Ledger} (hw : w'.admission = w.admission + 1)
    (hL : L.tokens = (H i).tokens + 1) (hp : w'.pinned = w.pinned) (hLp : L.pins = (H i).pins)
    (hlt : w.admission < limits.maxUpstreamConnections) : Counts limits w' (Function.update H i L) :=
  h.step (k := 1) (l := 0) (by rw [hw]; rfl) (by rw [hL]; rfl) (by rw [hp, add_zero]) (by rw [hLp, add_zero])
    (by rw [hw]; exact hlt)

/-- A reply keeps the sums, given that a session releases only a token it has. -/
theorem Counts.reply (h : Counts limits w H) {i : ι} (s : ClientSession) {o : Op} {r : Res o}
    (ho : o = .releaseAdmission → 0 < (H i).tokens) (ha : w.answer limits i o r = some w') :
    Counts limits w' (Function.update H i ((H i).reply s o r)) := by
  cases o with
  | tryAdmission =>
    obtain ⟨hr, ⟨⟩⟩ := Option.ite_none_right_eq_some.1 ha
    cases r with
    | false => exact h.same rfl rfl rfl rfl
    | true => exact h.take rfl rfl rfl rfl (of_decide_eq_true hr.symm)
  | awaitAdmission =>
    cases r with
    | error e => cases ha; exact h.same rfl rfl rfl rfl
    | ok u =>
      obtain ⟨hlt, ⟨⟩⟩ := Option.ite_none_right_eq_some.1 ha
      exact h.take rfl rfl rfl rfl hlt
  | releaseAdmission =>
    obtain ⟨hpos, ⟨⟩⟩ := Option.ite_none_right_eq_some.1 ha
    have htok := ho rfl
    -- both subtractions are of naturals, and neither stops at zero
    refine h.step (k := -1) (l := 0) ?_ ?_ (add_zero _).symm (add_zero _).symm ((Nat.sub_le _ _).trans h.within)
    · show ((w.admission - 1 : Nat) : Int) = w.admission + -1
      omega
    · show (((H i).tokens - 1 : Nat) : Int) = (H i).tokens + -1
      omega
  | databaseConn =>
    cases r with
    | error e => cases ha; exact h.same rfl rfl rfl rfl
    | ok c =>
      obtain ⟨-, ⟨⟩⟩ := Option.ite_none_right_eq_some.1 ha
      exact h.same rfl rfl rfl rfl
  | beginTx c =>
    cases r with
    | error e => cases ha; exact h.same rfl rfl rfl rfl
    | ok t =>
      obtain ⟨-, ⟨⟩⟩ := Option.ite_none_right_eq_some.1 ha
      exact h.same rfl rfl rfl rfl
  | prepare via q =>
    cases r with
    | error e => cases ha; exact h.same rfl rfl rfl rfl
    | ok st =>
      obtain ⟨-, ⟨⟩⟩ := Option.ite_none_right_eq_some.1 ha
      exact h.same rfl rfl rfl rfl
  | commit t =>
    obtain ⟨-, ⟨⟩⟩ := Option.ite_none_right_eq_some.1 ha
    cases r <;> exact h.same rfl rfl rfl rfl
  | rollback | txStmt | tryQueue | leaveQueue | addQueuedBytes =>
    obtain ⟨-, ⟨⟩⟩ := Option.ite_none_right_eq_some.1 ha
    exact h.same rfl rfl rfl rfl
  | panic => cases r
  | _ => cases ha; exact h.same rfl rfl rfl rfl

/-- The counters follow the ledgers of sessions whose calls are good. -/
theorem counts_justifies (limits : Limits) : System.Justifies Ledger.next (World.env limits) Good allow (World.fresh ι)
    ({} : Ledger) fun w H => Agrees w H ∧ Counts limits w H where
  start := by
    refine ⟨.fresh, ?_, ?_, Nat.zero_le _⟩
    · simp [World.fresh]
    · simp [World.fresh]
  note := by
    rintro w H ⟨hA, hC⟩ i s n
    refine ⟨(world_justifies limits).note hA i s n, ?_⟩
    cases n with
    | pinned delta => exact hC.step (k := 0) (l := delta) (add_zero _).symm (add_zero _).symm rfl rfl hC.within
    | _ => exact hC.same rfl rfl rfl rfl
  reply := by
    rintro w H ⟨hA, hC⟩ i s o r w' hg ha
    obtain ⟨hallow, hA'⟩ := hA.reply s ha
    exact ⟨hallow, hA', hC.reply s hg.release ha⟩

theorem sessions_counts {svc : Service} {S : Sessions ι} (h : S.Reachable svc limits) :
    Counts limits S.world S.accounts :=
  (System.project (counts_justifies limits) h fun _ hc _ ho => reachable_good hc ho).1.2

end Counts

/-! ## What a session holds -/

/-- The session is pinned. -/
def Pinned (c : Conf ClientSession Op Res Note Ledger) : Prop := c.state.pinnedConnection.isSome = true

/-- The command that the session is answering, or its cleanup, has a token that is not that of the pin. -/
def HoldsToken (c : Conf ClientSession Op Res Note Ledger) : Prop :=
  c.state.pinnedConnection.isSome.toNat < c.env.tokens

instance (c : Conf ClientSession Op Res Note Ledger) : Decidable (Pinned c) :=
  inferInstanceAs (Decidable (_ = true))

instance (c : Conf ClientSession Op Res Note Ledger) : Decidable (HoldsToken c) :=
  inferInstanceAs (Decidable (_ < _))

section Session

variable {svc : Service} {c : Conf ClientSession Op Res Note Ledger}

/-- A pin has a token, and there is at most one more. -/
theorem reachable_tokens (h : Reachable svc c) :
    c.state.pinnedConnection.isSome.toNat ≤ c.env.tokens ∧
      c.env.tokens ≤ c.state.pinnedConnection.isSome.toNat + 1 := by
  obtain ⟨k, cs, n, hB, -⟩ := reachable_base h
  have htok : c.env.tokens + k = n + k + c.state.pinnedRelease.toNat := hB.tokens
  have hle : c.env.tokens + k ≤ c.state.pinnedConnection.isSome.toNat + 1 := hB.stock.2.1
  have hrel : c.state.pinnedConnection.isSome.toNat ≤ c.state.pinnedRelease.toNat := by
    cases hp : c.state.pinnedConnection.isSome with
    | false => exact Nat.zero_le _
    | true => rw [hB.release hp]
  omega

theorem toNat_pinned (c : Conf ClientSession Op Res Note Ledger) :
    c.state.pinnedConnection.isSome.toNat = if Pinned c then 1 else 0 := by
  by_cases hp : Pinned c
  · rw [if_pos hp, show c.state.pinnedConnection.isSome = true from hp]
    rfl
  · rw [if_neg hp, show c.state.pinnedConnection.isSome = false from Bool.eq_false_iff.2 hp]
    rfl

/-- The tokens of a session, counted by what they are for. -/
theorem tokens_eq (h : Reachable svc c) :
    c.env.tokens = (if Pinned c then 1 else 0) + if HoldsToken c then 1 else 0 := by
  obtain ⟨hle, hlt⟩ := reachable_tokens h
  rw [← toNat_pinned]
  by_cases ht : HoldsToken c
  · have ht' : c.state.pinnedConnection.isSome.toNat < c.env.tokens := ht
    rw [if_pos ht]
    omega
  · have ht' : ¬ c.state.pinnedConnection.isSome.toNat < c.env.tokens := ht
    rw [if_neg ht]
    omega

/-- Between two commands only the pin has a token. -/
theorem idle_tokens (h : Reachable svc c) (hi : c.isIdle = true) : ¬ HoldsToken c := by
  have hI := reachable_idle h hi
  unfold HoldsToken
  rw [hI.at'.tokens, hI.at'.releases]
  omega

/-- A session that has ended holds nothing. -/
theorem ended_tokens (h : Reachable svc c) (he : c.stage = .ended) :
    c.env.tokens = 0 ∧ c.state.pinnedConnection = none := by
  have hE := reachable_ended h he
  refine ⟨?_, hE.pinnedConnection⟩
  rw [hE.tokens, hE.pinnedRelease]
  rfl

end Session

/-! ## Conservation -/

section Conservation

variable {ι : Type} [DecidableEq ι] [Fintype ι] {svc : Service} {limits : Limits} {S : Sessions ι}

/-- The sessions that are pinned. -/
def Sessions.pinned (S : Sessions ι) : Finset ι := Finset.univ.filter fun i => Pinned (S.thread i)

/-- The sessions with a token beside that of the pin. -/
def Sessions.holding (S : Sessions ι) : Finset ι := Finset.univ.filter fun i => HoldsToken (S.thread i)

/-- Token conservation, for any number of sessions and any interleaving, whatever upstream and the
clients do: the admission channel holds a token for each pinned session and one for each command
that has one beside, the counter of pins is right, a command has no token of its own at its end,
every release takes a token that was acquired, and closed sessions leave nothing. -/
theorem token_conservation (h : S.Reachable svc limits) :
    S.world.admission = S.pinned.card + S.holding.card ∧ S.world.pinned = S.pinned.card ∧
    (∀ i, (S.thread i).env.tokens =
      (if Pinned (S.thread i) then 1 else 0) + if HoldsToken (S.thread i) then 1 else 0) ∧
    (∀ i, (S.thread i).isIdle = true ∨ (S.thread i).stage = .ended → ¬ HoldsToken (S.thread i)) ∧
    (∀ i, (S.thread i).pending = some .releaseAdmission → 0 < (S.thread i).env.tokens) ∧
    ((∀ i, (S.thread i).stage = .ended) → S.world.admission = 0 ∧ S.world.pinned = 0) := by
  have ht := (sessions_project h).2
  have hC := sessions_counts h
  have hadm : S.world.admission = S.pinned.card + S.holding.card := by
    have hsum : S.world.admission = ∑ i, (S.thread i).env.tokens := by exact_mod_cast hC.admission
    rw [hsum, Sessions.pinned, Sessions.holding, Finset.card_filter, Finset.card_filter, ← Finset.sum_add_distrib]
    exact Finset.sum_congr rfl fun i _ => tokens_eq (ht i)
  have hpin : S.world.pinned = S.pinned.card := by
    rw [hC.pinned, Sessions.pinned, Finset.natCast_card_filter]
    refine Finset.sum_congr rfl fun i _ => ?_
    obtain ⟨k, cs, n, hB, -⟩ := reachable_base (ht i)
    show (S.thread i).env.pins = _
    rw [hB.stock.2.2.1, toNat_pinned]
    push_cast
    rfl
  refine ⟨hadm, hpin, fun i => tokens_eq (ht i), fun i hi => ?_, fun i hi => (reachable_good (ht i) hi).release rfl,
    fun hall => ?_⟩
  · rcases hi with hi | hi
    · exact idle_tokens (ht i) hi
    · unfold HoldsToken
      rw [(ended_tokens (ht i) hi).1]
      exact Nat.not_lt_zero _
  · have hnone : S.pinned = ∅ := Finset.filter_eq_empty_iff.2 fun i _ hp => by
      have hp : (S.thread i).state.pinnedConnection.isSome = true := hp
      rw [(ended_tokens (ht i) (hall i)).2] at hp
      cases hp
    have hfree : S.holding = ∅ := Finset.filter_eq_empty_iff.2 fun i _ hp => by
      have hp : _ < (S.thread i).env.tokens := hp
      rw [(ended_tokens (ht i) (hall i)).1] at hp
      exact Nat.not_lt_zero _ hp
    rw [hadm, hpin, hnone, hfree]
    exact ⟨rfl, rfl⟩

/-- One session in a transaction and one that has just been given a token for its statement. -/
def oneBegan : List (Bool × Reply Bool) :=
  asks false (comQuery "BEGIN") 22 ++ asks true (comQuery "INSERT INTO t VALUES (1)") 1

theorem token_conservation_two :
    (Sessions.sample oneBegan).world.admission =
      (Sessions.sample oneBegan).pinned.card + (Sessions.sample oneBegan).holding.card ∧
    (Sessions.sample oneBegan).world.admission = 2 ∧ (Sessions.sample oneBegan).pinned.card = 1 := by
  refine ⟨(token_conservation (Sessions.reachable_sample oneBegan)).1, ?_⟩
  decide +kernel

/-! ## Coverage -/

/-- The session is answering a read outside a transaction, and is about to close the connection it used. -/
def ClosesLate (c : Conf ClientSession Op Res Note Ledger) : Prop :=
  (∃ d, c.pending = some (.closeConn d)) ∧ ∃ r, c.env.log.request = some r ∧ r.ReadsAlone

/-- A session has a token for each connection it holds, except when it closes late. -/
theorem held_le_tokens {c : Conf ClientSession Op Res Note Ledger} (h : Reachable svc c) (hc : ¬ ClosesLate c) :
    c.env.held.length ≤ c.env.tokens := by
  obtain ⟨k, cs, n, hB, hk⟩ := reachable_base h
  have hk : k = 0 := hk.resolve_right fun hk => hc hk.2
  subst hk
  have htok : c.env.tokens = n + c.state.pinnedRelease.toNat := hB.tokens
  have hle : cs.length ≤ n := hB.stock.1
  have hheld : c.env.held = cs ++ c.state.pinnedConnection.toList := hB.held
  rw [hheld, htok, List.length_append]
  cases hp : c.state.pinnedConnection with
  | none => simp only [Option.toList_none, List.length_nil]; omega
  | some d =>
    rw [hB.release (by rw [hp]; rfl)]
    simp only [Option.toList_some, List.length_singleton, Bool.toNat_true]
    omega

/-- The tokens cover the connections, and a session that asks the pool for a connection finds one that nobody has. -/
structure Sessions.Covered (limits : Limits) (S : Sessions ι) : Prop where
  tokens : ∑ i, (S.world.leased i).length ≤ S.world.admission
  room : ∀ i, (S.thread i).pending = some .databaseConn →
    ∑ j, (S.world.leased j).length < limits.maxUpstreamConnections

theorem covered_of_timely (h : S.Reachable svc limits) (hlate : ∀ i, ¬ ClosesLate (S.thread i)) : S.Covered limits := by
  obtain ⟨hA, ht⟩ := sessions_project h
  have hC := sessions_counts h
  have hsum : S.world.admission = ∑ i, (S.thread i).env.tokens := by exact_mod_cast hC.admission
  have hle : ∀ i ∈ Finset.univ, (S.world.leased i).length ≤ (S.thread i).env.tokens := fun i _ => by
    rw [hA.leased i]
    exact held_le_tokens (ht i) (hlate i)
  refine ⟨hsum ▸ Finset.sum_le_sum hle, fun i hi => ?_⟩
  have hlt : (S.world.leased i).length < (S.thread i).env.tokens := by
    rw [hA.leased i]
    exact (reachable_good (ht i) hi).room rfl
  calc ∑ j, (S.world.leased j).length < ∑ j, (S.thread j).env.tokens :=
        Finset.sum_lt_sum hle ⟨i, Finset.mem_univ i, hlt⟩
    _ = S.world.admission := hsum.symm
    _ ≤ limits.maxUpstreamConnections := hC.within

/-- No session was last sent a text read outside a transaction. -/
def Sessions.Unread (S : Sessions ι) : Prop := ∀ i r, (S.thread i).env.log.request = some r → ¬ r.ReadsAlone

/-- A step after which no session was last sent such a read. -/
def Sessions.StepUnread (svc : Service) (limits : Limits) (S S' : Sessions ι) : Prop :=
  System.Step Ledger.next (World.env limits) (handleClient svc) S S' ∧ S'.Unread

/-- In every state of a run in which no session is sent a text read outside a transaction the tokens cover the
connections. -/
theorem tokens_cover_run (h : Relation.ReflTransGen (Sessions.StepUnread svc limits)
    (System.start (World.fresh ι) (newSession svc) {}) S) : S.Covered limits := by
  have hrun : S.Reachable svc limits ∧ S.Unread := by
    induction h with
    | refl =>
      refine ⟨.refl, fun i r (hr : none = some r) => ?_⟩
      cases hr
    | tail _ hstep ih => exact ⟨ih.1.tail hstep.1, hstep.2⟩
  refine covered_of_timely hrun.1 ?_
  rintro i ⟨-, r, hr, hread⟩
  exact hrun.2 i r hr hread

/-- As long as no session is about to close the connection of a read whose token it has given back, the
tokens cover the connections, and a session that asks the pool for a connection does not have to wait
for another session's. -/
theorem tokens_cover_connections (h : S.Reachable svc limits) (hlate : ∀ i, ¬ ClosesLate (S.thread i)) :
    ∑ i, (S.world.leased i).length ≤ S.world.admission ∧
    ∀ i, (S.thread i).pending = some .databaseConn →
      ∑ j, (S.world.leased j).length < limits.maxUpstreamConnections := by
  have hcovered := covered_of_timely h hlate
  exact ⟨hcovered.tokens, hcovered.room⟩

theorem tokens_cover_connections_two :
    (∀ i, ¬ ClosesLate ((Sessions.sample oneBegan).thread i)) ∧
    ((Sessions.sample oneBegan).thread true).pending = some .databaseConn ∧
    ∑ i, ((Sessions.sample oneBegan).world.leased i).length < sampleLimits.maxUpstreamConnections := by
  have hlate : ∀ i, ¬ ClosesLate ((Sessions.sample oneBegan).thread i) := by
    have hpending : ∀ i, ((Sessions.sample oneBegan).thread i).pending = some .databaseConn ∨
        ((Sessions.sample oneBegan).thread i).pending = none := by decide +kernel
    rintro i ⟨⟨d, hd⟩, -⟩
    rcases hpending i with hp | hp
    · rw [hp] at hd; cases hd
    · rw [hp] at hd; cases hd
  have hconn : ((Sessions.sample oneBegan).thread true).pending = some .databaseConn := by decide +kernel
  exact ⟨hlate, hconn, (tokens_cover_connections (Sessions.reachable_sample oneBegan) hlate).2 true hconn⟩

/-- A read whose token is back and whose connection is not. -/
def readEnds : List (Bool × Reply Bool) := asks false (comQuery "SELECT 1") 26

/-- The same, while a session that is pinned by a prepared handle runs a read of its own. -/
def readEndsBeside : List (Bool × Reply Bool) :=
  asks true (comStmtPrepare "SELECT 1") 22 ++ readEnds ++ asks true (comQuery "SELECT 1") 1

/-- After the read there is a connection checked out and no token; and another session, that was given the
free token, asks the pool for a connection when all it may open are checked out. -/
theorem read_closes_late :
    (∃ S : Sessions Bool, S.Reachable sampleService sampleLimits ∧ S.world.admission = 0 ∧
      ∑ i, (S.world.leased i).length = 1) ∧
    ∃ S : Sessions Bool, S.Reachable sampleService sampleLimits ∧ (S.thread true).pending = some .databaseConn ∧
      ∑ i, (S.world.leased i).length = sampleLimits.maxUpstreamConnections := by
  constructor
  · exact ⟨_, Sessions.reachable_sample readEnds, by decide +kernel⟩
  · exact ⟨_, Sessions.reachable_sample readEndsBeside, by decide +kernel⟩

end Conservation

end Accelerator.Gateway
