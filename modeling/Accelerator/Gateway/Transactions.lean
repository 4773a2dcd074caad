/-
The transactions of a client, over whole runs: where the statements of an open transaction go, when
the logical state and the transaction agree, which statements are never sent inside one, and what an
OK reply means.
-/
import Accelerator.Gateway.Sharing
import Mathlib.Data.Fintype.Basic

namespace Accelerator.Gateway

open Interact Strings Engine Upstream

variable {svc : Service}

/-! ## Affinity -/

/-- The open transaction is the session's own: everything the session sends goes through it. -/
theorem sends_through {c : Conf ClientSession Op Res Note Ledger} (h : Reachable svc c) {t : Tx}
    (htx : c.state.tx = some t) {o : Op} {via : Via} (ho : c.pending = some o) (hs : o.sends? = some via) :
    via = .tx t := by
  rcases (reachable_good h ho).through via hs with hv | ⟨hn, -⟩
  · rw [htx] at hv
    cases via with
    | conn c => cases hv
    | tx u => cases hv; rfl
  · rw [htx] at hn; cases hn

/-- From its begin to its end, an unfinished transaction is the open one of its session (or is just
being undone); an open transaction lives on the pinned connection of its session, everything the session
sends goes through it, and no other session works on that connection. -/
theorem transaction_affinity {ι : Type} [DecidableEq ι] [Fintype ι] {limits : Limits} {S : Sessions ι}
    (h : S.Reachable svc limits) (i : ι) :
    (∀ t ∈ (S.thread i).env.log.begun, t ∉ (S.thread i).env.log.finished →
      (S.thread i).state.tx = some t ∨ (S.thread i).pending = some (.rollback t)) ∧
    ∀ t, (S.thread i).state.tx = some t →
      (S.thread i).state.pinnedConnection = some t.conn ∧
      (∀ o via, (S.thread i).pending = some o → o.sends? = some via → via = .tx t) ∧
      ∀ j, j ≠ i → ∀ o c, (S.thread j).pending = some o → o.connection? = some c →
        c.physical ≠ t.conn.physical := by
  obtain ⟨hw, ht⟩ := sessions_project h
  refine ⟨fun t hb hf => reachable_begun (ht i) hb hf, fun t htx => ?_⟩
  obtain ⟨k, cs, n, hB, -⟩ := reachable_base (ht i)
  have hp := hB.pinned t htx
  refine ⟨hp, fun o via ho hs => sends_through (ht i) htx ho hs, fun j hj o c ho hc => ?_⟩
  have hmine : t.conn ∈ S.world.leased i := by
    rw [hw.leased]
    show t.conn ∈ (S.thread i).env.held
    rw [hB.held, hp]
    simp
  have htheirs : c ∈ S.world.leased j := by
    rw [hw.leased]
    exact (reachable_good (ht j) ho).owned c hc
  exact hw.apart j i hj c htheirs _ hmine

/-- Two sessions in transactions of their own, both at a statement. -/
def twoTransactions : List (Fin 2 × Reply (Fin 2)) :=
  asks 0 (comQuery "BEGIN") 22 ++ asks 1 (comQuery "BEGIN") 22 ++
    asks 0 (comQuery "INSERT INTO t VALUES (1)") 0 ++ asks 1 (comQuery "SELECT 1") 0

theorem transaction_affinity_two :
    ((Sessions.sample twoTransactions).thread 0).pending =
      some (.exec (.tx ⟨0, ⟨0, 0⟩⟩) (text "INSERT INTO t VALUES (1)")) ∧
    ((Sessions.sample twoTransactions).thread 0).state.pinnedConnection = some ⟨0, 0⟩ ∧
    ∀ o c, ((Sessions.sample twoTransactions).thread 1).pending = some o → o.connection? = some c → c.physical ≠ 0 := by
  have htx : ((Sessions.sample twoTransactions).thread 0).state.tx = some ⟨0, ⟨0, 0⟩⟩ := by decide +kernel
  obtain ⟨hp, -, hj⟩ := (transaction_affinity (Sessions.reachable_sample twoTransactions) 0).2 _ htx
  exact ⟨by decide +kernel, hp, hj 1 (by decide)⟩

/-! ## The logical state -/

/-- The logical state agrees with the transaction, and is not poisoned. -/
def ClientSession.Agrees (s : ClientSession) : Prop :=
  (s.tx.isSome ↔ s.state.inTransaction = true) ∧ s.state.poisoned = false

/-- Between two commands the logical state agrees with the transaction exactly if no rollback was left in
doubt by upstream, and as long as none was, every status that is sent says whether a transaction is
open. -/
theorem agrees_iff_no_failed_rollback {c : Conf ClientSession Op Res Note Ledger} (h : Reachable svc c) :
    (c.isIdle = true → (c.state.Agrees ↔ c.env.log.rollbackFailed = false)) ∧
    (c.env.log.rollbackFailed = false → ∀ sequence p status, c.pending = some (.writeMessage sequence p) →
      p.status? = some status → (status &&& serverStatusInTransaction ≠ 0 ↔ c.state.tx.isSome)) := by
  refine ⟨fun hi => ?_, fun hr sequence p status ho hp => ?_⟩
  · have hS := (reachable_idle h hi).ready.toSteady
    constructor
    · exact fun ha => hS.poisoned ▸ ha.2
    · exact fun hr => ⟨by rw [hS.agree hr], hS.poisoned.trans hr⟩
  · exact ((reachable_good h ho).reply sequence p rfl).2.1 status hp hr

/-- A session that has been told of its transaction. -/
theorem agrees_after_begin :
    ((Sessions.sample (asks (0 : Fin 1) (comQuery "BEGIN") 22)).thread 0).state.Agrees ∧
    (3 &&& serverStatusInTransaction ≠ 0 ↔
      ((Sessions.sample (asks (0 : Fin 1) (comQuery "BEGIN") 21)).thread 0).state.tx.isSome) := by
  constructor
  · exact ((agrees_iff_no_failed_rollback (Sessions.reachable_sample_thread _ 0)).1 (by decide +kernel)).2
      (by decide +kernel)
  · exact (agrees_iff_no_failed_rollback (Sessions.reachable_sample_thread _ 0)).2 (by decide +kernel) 1 (.ok 0 0 3 0) 3
      (by decide +kernel) rfl

/-- A session whose rollback failed upstream. -/
def failedRollback : List (Fin 1 × Reply (Fin 1)) :=
  asks alone (comQuery "BEGIN") 22 ++ asks alone (comQuery "ROLLBACK") 0 ++ [(alone, failsRollback)] ++
    List.replicate 5 (alone, obliging sampleService sampleLimits)

/-- After a failed rollback the session waits for its next command with the transaction gone, the
logical state still in it, and poisoned. -/
theorem failed_rollback_disagrees : ∃ c, Reachable sampleService c ∧ c.isIdle = true ∧ c.state.tx = none ∧
    c.state.state.inTransaction = true ∧ c.state.state.poisoned = true :=
  ⟨_, Sessions.reachable_sample_thread failedRollback 0, by decide +kernel, by decide +kernel, by decide +kernel,
    by decide +kernel⟩

/-! ## DDL -/

/-- No DDL is sent with a transaction open, unless the command being answered executes a handle whose
text is DDL while a transaction is open or autocommit is off, and gets past the checks of its packet. -/
theorem no_ddl_in_transaction {c : Conf ClientSession Op Res Note Ledger} (h : Reachable svc c)
    (hr : ∀ r, c.env.log.request = some r → ¬ r.ExecutesDDL) {o : Op} (ho : c.pending = some o) {q : Text}
    (hq : o.text? = some q) (hd : (classifySQL q).kind = .ddl) : c.state.tx = none := by
  rw [← Option.not_isSome_iff_eq_none]
  intro htx
  obtain ⟨r, hreq, hex⟩ := (reachable_good h ho).text q hq htx hd
  exact hr r hreq hex

theorem Request.not_executesDDL {r : Request} (h : r.handle? = none) : ¬ r.ExecutesDDL := by
  rintro ⟨-, p, hp, -⟩
  rw [h] at hp; cases hp

/-- A DDL text that is executed outside a transaction. -/
theorem no_ddl_in_transaction_text :
    ((Sessions.sample (asks (0 : Fin 1) (comQuery "CREATE TABLE t (a INT)") 20)).thread 0).pending =
      some (.exec (.conn ⟨0, 0⟩) (text "CREATE TABLE t (a INT)")) ∧
    ((Sessions.sample (asks (0 : Fin 1) (comQuery "CREATE TABLE t (a INT)") 20)).thread 0).state.tx = none := by
  generalize hc : (Sessions.sample (asks (0 : Fin 1) (comQuery "CREATE TABLE t (a INT)") 20)).thread 0 = c
  have ho : c.pending = some (.exec (.conn ⟨0, 0⟩) (text "CREATE TABLE t (a INT)")) ∧
      c.env.log.request.map (·.handle?.isNone) = some true := by rw [← hc]; decide +kernel
  refine ⟨ho.1, no_ddl_in_transaction (hc ▸ Sessions.reachable_sample_thread _ 0) (fun r hr => ?_) ho.1 rfl
    (by decide +kernel)⟩
  rw [hr] at ho
  exact Request.not_executesDDL (Option.isNone_iff_eq_none.1 (Option.some.inj ho.2))

/-- A DDL handle that was prepared before the transaction is executed in it. -/
def preparedDDL : List (Fin 1 × Reply (Fin 1)) :=
  asks alone (comStmtPrepare "CREATE TABLE t (a INT)") 22 ++ asks alone (comQuery "BEGIN") 2 ++
    asks alone (comStmtExecute 1) 1

theorem prepared_ddl_in_transaction : ∃ c o q, Reachable sampleService c ∧ c.pending = some o ∧ o.text? = some q ∧
    o.executes? = some q ∧ (classifySQL q).kind = .ddl ∧ c.state.tx.isSome := by
  have h : ((Sessions.sample preparedDDL).thread 0).pending =
        some (.stmtExec ⟨⟨0, 0⟩, some ⟨0, ⟨0, 0⟩⟩, text "CREATE TABLE t (a INT)"⟩ []) ∧
      ((Sessions.sample preparedDDL).thread 0).state.tx.isSome := by decide +kernel
  exact ⟨_, _, _, Sessions.reachable_sample_thread preparedDDL 0, h.1, rfl, rfl, by decide +kernel, h.2⟩

/-! ## Replies -/

/-- What is true of a session that has not yet told a lie. -/
structure Honest (c : Conf ClientSession Op Res Note Ledger) : Prop where
  /-- An OK to the end of an open transaction: upstream has committed it, and it was counted. -/
  commit : ∀ sequence p r st t, c.pending = some (.writeMessage sequence p) → p.isOK = true →
    c.env.log.request = some r → r.statement? = some st → st.kind = .commit ∨ st.kind = .autocommitOn →
    r.before.tx = some t → t ∈ c.env.log.committed ∧ c.env.log.generation = c.env.log.confirmed
  /-- After a failed commit the session ends without another word. -/
  failed : c.env.log.commitFailed = true → c.isIdle = false ∧ c.pending ≠ some .readMessage ∧
    ∀ sequence p, c.pending ≠ some (.writeMessage sequence p)
  /-- An OK to a write or DDL text: its execution succeeded. -/
  text : ∀ sequence p r st, c.pending = some (.writeMessage sequence p) → p.isOK = true →
    c.env.log.request = some r → r.statement? = some st → st.kind = .write ∨ st.kind = .ddl →
    (st.sql, true) ∈ c.env.log.executed
  /-- An OK to the execution of a write or DDL handle: it succeeded. -/
  handle : ∀ sequence p r ps, c.pending = some (.writeMessage sequence p) → p.isOK = true →
    c.env.log.request = some r → r.handle? = some ps → (classifySQL ps.query).kind ≠ .read →
    (ps.query, true) ∈ c.env.log.executed
  /-- A command executes one statement at most. -/
  once : c.env.log.executed.length ≤ 1 ∧
    ∀ o q, c.pending = some o → o.executes? = some q → c.env.log.executed = []

theorem reachable_honest {c : Conf ClientSession Op Res Note Ledger} (h : Reachable svc c) : Honest c := by
  obtain ⟨k, cs, n, hB, -⟩ := reachable_base h
  have hok : ∀ {sequence p r}, c.pending = some (.writeMessage sequence p) → p.isOK = true →
      c.env.log.request = some r → r.Earned c.env.log := fun ho hp hr =>
    ((reachable_good h ho).reply _ _ rfl).2.2 hp _ hr
  refine ⟨fun sequence p r st t ho hp hr hst hk ht => ⟨(hok ho hp hr).commit st t hst hk ht, hB.counted⟩, fun hf => ?_,
    fun sequence p r st ho hp hr hst hk => (hok ho hp hr).statement st hst hk,
    fun sequence p r ps ho hp hr hps hk => (hok ho hp hr).handle ps hps hk,
    hB.once, fun o q ho hq => (reachable_good h ho).once q hq⟩
  refine ⟨?_, fun ho => ?_, fun sequence p ho => ?_⟩
  · rw [Bool.eq_false_iff]
    intro hi
    have := (reachable_idle h hi).ready.alive
    rw [hf] at this; cases this
  · have := (reachable_good h ho).reads rfl
    rw [hf] at this; cases this
  · have := ((reachable_good h ho).reply sequence p rfl).1
    rw [hf] at this; cases this

/-- No false success and no hidden retry, in any number of sessions; and the commit counter of the
service is the number of commits upstream has confirmed. -/
theorem sessions_honest {ι : Type} [DecidableEq ι] [Fintype ι] {limits : Limits} {S : Sessions ι}
    (h : S.Reachable svc limits) : S.world.commitGeneration = S.world.confirmed ∧ ∀ i, Honest (S.thread i) := by
  obtain ⟨hw, ht⟩ := sessions_project h
  refine ⟨?_, fun i => reachable_honest (ht i)⟩
  rw [hw.generation, hw.confirmed]
  refine Finset.sum_congr rfl fun i _ => ?_
  obtain ⟨k, cs, n, hB, -⟩ := reachable_base (ht i)
  exact hB.counted

/-- One session commits while the other executes a write. -/
def commitAndWrite : List (Fin 2 × Reply (Fin 2)) :=
  asks 0 (comQuery "BEGIN") 22 ++ asks 0 (comQuery "COMMIT") 5 ++ asks 1 (comQuery "INSERT INTO t VALUES (1)") 22

/-- The first is about to be told that its commit, and the second that its write succeeded. -/
theorem sessions_honest_two :
    (Sessions.sample commitAndWrite).world.commitGeneration = (Sessions.sample commitAndWrite).world.confirmed ∧
    (Sessions.sample commitAndWrite).world.confirmed = 1 ∧
    ⟨0, ⟨0, 0⟩⟩ ∈ ((Sessions.sample commitAndWrite).thread 0).env.log.committed ∧
    (text "INSERT INTO t VALUES (1)", true) ∈ ((Sessions.sample commitAndWrite).thread 1).env.log.executed := by
  obtain ⟨hgen, hh⟩ := sessions_honest (Sessions.reachable_sample commitAndWrite)
  refine ⟨hgen, by decide +kernel, ?_, ?_⟩
  · have hc := hh 0
    have h : ((Sessions.sample commitAndWrite).thread 0).pending = some (.writeMessage 1 (.ok 0 0 2 0)) ∧
        (((Sessions.sample commitAndWrite).thread 0).env.log.request.bind fun r => r.statement?.map (·.kind)) =
          some .commit ∧
        (((Sessions.sample commitAndWrite).thread 0).env.log.request.bind (·.before.tx)) = some ⟨0, ⟨0, 0⟩⟩ := by
      decide +kernel
    generalize (Sessions.sample commitAndWrite).thread 0 = c at hc h ⊢
    obtain ⟨ho, hst, htx⟩ := h
    obtain ⟨r, hr, hst⟩ := Option.bind_eq_some_iff.1 hst
    obtain ⟨st, hst, hk⟩ := Option.map_eq_some_iff.1 hst
    rw [hr] at htx
    exact (hc.commit _ _ r st _ ho rfl hr hst (.inl hk) htx).1
  · have hc := hh 1
    have h : ((Sessions.sample commitAndWrite).thread 1).pending = some (.writeMessage 1 (.ok 0 0 2 0)) ∧
        (((Sessions.sample commitAndWrite).thread 1).env.log.request.bind Request.statement?) =
          some { kind := .write, sql := text "INSERT INTO t VALUES (1)" } := by decide +kernel
    generalize (Sessions.sample commitAndWrite).thread 1 = c at hc h ⊢
    obtain ⟨r, hr, hst⟩ := Option.bind_eq_some_iff.1 h.2
    exact hc.text _ _ r _ h.1 rfl hr hst (.inl rfl)

end Accelerator.Gateway
