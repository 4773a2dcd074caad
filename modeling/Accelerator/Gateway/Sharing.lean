/-
Sessions that share one service: its admission and queue channels, its counters, and the pool of
upstream connections. The pool never hands out a connection that is checked out, and transactions are
numbered. Every session of the system behaves as one that knows only its own ledger.
-/
import Accelerator.Interact.System
import Accelerator.Gateway.Safety
import Mathlib.Algebra.BigOperators.Group.Finset.Basic

namespace Accelerator.Gateway

open Interact Strings Upstream

/-! ## The shared world -/

/-- The configured capacities. -/
structure Limits where
  maxUpstreamConnections : Nat
  maxQueuedRequests : Nat

/-- What the sessions share: the connections each has checked out, how many checkouts and
transactions there were, how many commits upstream has confirmed, the service's commit counter, the
state of its admission control, and its counter of pinned connections. -/
structure World (ι : Type) where
  leased : ι → List Conn
  leases : Nat
  transactions : Nat
  confirmed : Nat
  commitGeneration : Nat
  admission : Nat
  queue : Nat
  queuedBytes : Int
  waiting : Int
  pinned : Int

/-- The world before the first command. -/
def World.fresh (ι : Type) : World ι := ⟨fun _ => [], 0, 0, 0, 0, 0, 0, 0, 0, 0⟩

section World

variable {ι : Type} [DecidableEq ι] [Fintype ι]

/-- The world after a reply to session `i`, if the reply is possible. A send to a full channel fails
or waits, a checkout takes a connection nobody holds, and a transaction is known by its number. -/
def World.answer (limits : Limits) (i : ι) (w : World ι) : (o : Op) → Res o → Option (World ι)
  | .tryAdmission, r =>
    if r = decide (w.admission < limits.maxUpstreamConnections) then
      some { w with admission := w.admission + r.toNat } else none
  | .awaitAdmission, .ok _ =>
    if w.admission < limits.maxUpstreamConnections then some { w with admission := w.admission + 1 } else none
  | .releaseAdmission, _ => if 0 < w.admission then some { w with admission := w.admission - 1 } else none
  | .tryQueue, r =>
    if r = decide (w.queue < limits.maxQueuedRequests) then some { w with queue := w.queue + r.toNat } else none
  | .leaveQueue, _ => if 0 < w.queue then some { w with queue := w.queue - 1 } else none
  | .addQueuedBytes delta, r => if r = w.queuedBytes + delta then some { w with queuedBytes := r } else none
  | .addWaiting delta, _ => some { w with waiting := w.waiting + delta }
  | .databaseConn, .ok c =>
    if (∀ j, ∀ d ∈ w.leased j, d.physical ≠ c.physical) ∧ c.lease = w.leases then
      some { w with leased := Function.update w.leased i (c :: w.leased i), leases := w.leases + 1 } else none
  | .closeConn c, _ => some { w with leased := Function.update w.leased i ((w.leased i).erase c) }
  | .discardConn c, _ => some { w with leased := Function.update w.leased i ((w.leased i).erase c) }
  | .beginTx c, .ok t =>
    if t.conn = c ∧ t.id = w.transactions then some { w with transactions := w.transactions + 1 } else none
  | .commit t, r =>
    if t.id < w.transactions then some { w with confirmed := w.confirmed + (succeeded r).toNat } else none
  | .rollback t, _ => if t.id < w.transactions then some w else none
  | .prepare via q, .ok st => if st = ⟨via.connection, via.transaction, q⟩ then some w else none
  | .txStmt t st, r => if r = ⟨t.conn, some t, st.query⟩ then some w else none
  | _, _ => some w

/-- The world after a note. -/
def World.note (w : World ι) : Note → World ι
  | .commitGeneration => { w with commitGeneration := w.commitGeneration + 1 }
  | .pinned delta => { w with pinned := w.pinned + delta }
  | _ => w

/-- The environment of session `i`. -/
def World.env (limits : Limits) : ι → Env ClientSession Op Res Note (World ι) :=
  System.replies (fun i w => w.answer limits i) World.note

/-- The systems of sessions. -/
abbrev Sessions (ι : Type) := System ClientSession Op Res Note (World ι) ι Ledger

/-- Reachability: any number of sessions, in any order of their steps. -/
def Sessions.Reachable (svc : Service) (limits : Limits) (S : Sessions ι) : Prop :=
  System.Reach Ledger.next (World.env limits) (handleClient svc) (World.fresh ι) (newSession svc) {} S

/-! ## The world and the ledgers -/

/-- The world agrees with the ledgers of the sessions. -/
structure Agrees (w : World ι) (H : ι → Ledger) : Prop where
  leased : ∀ i, w.leased i = (H i).held
  apart : ∀ i j, i ≠ j → ∀ c ∈ w.leased i, ∀ d ∈ w.leased j, c.physical ≠ d.physical
  finished : ∀ i, ∀ t ∈ (H i).log.finished, t.id < w.transactions
  confirmed : w.confirmed = ∑ i, (H i).log.confirmed
  generation : w.commitGeneration = ∑ i, (H i).log.generation

/-- A sum over the accounts after one of them changed. -/
theorem sum_update {γ N : Type} [AddCommMonoid N] {g : γ → N} {H : ι → γ} {i : ι} {L : γ} {k : N}
    (h : g L = g (H i) + k) : ∑ j, g (Function.update H i L j) = ∑ j, g (H j) + k := by
  rw [← Finset.add_sum_erase _ _ (Finset.mem_univ i), ← Finset.add_sum_erase _ (fun j => g (H j)) (Finset.mem_univ i),
    Function.update_self, h]
  have hrest : ∑ j ∈ Finset.univ.erase i, g (Function.update H i L j) = ∑ j ∈ Finset.univ.erase i, g (H j) :=
    Finset.sum_congr rfl fun j hj => by rw [Function.update_of_ne (Finset.ne_of_mem_erase hj)]
  rw [hrest, add_right_comm]

/-- A step of session `i` that leaves what it holds as it is. -/
theorem Agrees.quiet {w w' : World ι} {H : ι → Ledger} (h : Agrees w H) {i : ι} {L : Ledger} {k l : Nat}
    (hw : w'.leased = w.leased) (ht : w.transactions ≤ w'.transactions) (hc : w'.confirmed = w.confirmed + k)
    (hg : w'.commitGeneration = w.commitGeneration + l) (hL : L.held = (H i).held)
    (hf : ∀ t ∈ L.log.finished, t ∈ (H i).log.finished ∨ t.id < w.transactions)
    (hLc : L.log.confirmed = (H i).log.confirmed + k) (hLg : L.log.generation = (H i).log.generation + l) :
    Agrees w' (Function.update H i L) := by
  refine ⟨fun j => ?_, ?_, fun j t htj => ?_, ?_, ?_⟩
  · rw [hw, h.leased]
    by_cases hj : j = i
    · subst hj; rw [Function.update_self, hL]
    · rw [Function.update_of_ne hj]
  · rw [hw]; exact h.apart
  · by_cases hj : j = i
    · subst hj
      rw [Function.update_self] at htj
      rcases hf t htj with ht' | ht'
      · exact (h.finished j t ht').trans_le ht
      · exact ht'.trans_le ht
    · rw [Function.update_of_ne hj] at htj
      exact (h.finished j t htj).trans_le ht
  · rw [hc, h.confirmed]; exact (sum_update (g := fun L : Ledger => L.log.confirmed) hLc).symm
  · rw [hg, h.generation]; exact (sum_update (g := fun L : Ledger => L.log.generation) hLg).symm

/-- A step of session `i` that changes only what it holds, to connections that are nobody else's. -/
theorem Agrees.holds {w : World ι} {H : ι → Ledger} (h : Agrees w H) {i : ι} {cs : List Conn} {n : Nat}
    {L : Ledger} (hL : L.held = cs) (hl : L.log = (H i).log)
    (hcs : ∀ c ∈ cs, c ∈ w.leased i ∨ ∀ j, ∀ d ∈ w.leased j, d.physical ≠ c.physical) :
    Agrees { w with leased := Function.update w.leased i cs, leases := n } (Function.update H i L) := by
  refine ⟨fun j => ?_, fun j j' hne c hc d hd => ?_, fun j t ht => ?_, ?_, ?_⟩
  · by_cases hj : j = i
    · subst hj; simp [hL]
    · simp [hj, h.leased]
  · by_cases hj : j = i
    · subst hj
      simp only [Function.update_self, Function.update_of_ne (Ne.symm hne)] at hc hd
      rcases hcs c hc with hc | hc
      · exact h.apart j j' hne c hc d hd
      · exact (hc j' d hd).symm
    · simp only [Function.update_of_ne hj] at hc
      by_cases hj' : j' = i
      · subst hj'
        simp only [Function.update_self] at hd
        rcases hcs d hd with hd | hd
        · exact h.apart j j' hne c hc d hd
        · exact hd j c hc
      · simp only [Function.update_of_ne hj'] at hd
        exact h.apart j j' hne c hc d hd
  · by_cases hj : j = i
    · subst hj
      rw [Function.update_self, hl] at ht
      exact h.finished j t ht
    · rw [Function.update_of_ne hj] at ht
      exact h.finished j t ht
  · rw [h.confirmed]
    exact (sum_update (g := fun L : Ledger => L.log.confirmed) (k := 0) (by rw [hl]; rfl)).symm
  · rw [h.generation]
    exact (sum_update (g := fun L : Ledger => L.log.generation) (k := 0) (by rw [hl]; rfl)).symm

omit [DecidableEq ι] in
theorem Agrees.fresh : Agrees (World.fresh ι) fun _ => ({} : Ledger) := by
  refine ⟨fun _ => rfl, ?_, ?_, ?_, ?_⟩
  · intro i j _ c hc; cases hc
  · intro i t ht; cases ht
  · simp [World.fresh]
  · simp [World.fresh]

/-- What session `i` is told is what its own ledger allows, and the world still agrees. -/
theorem Agrees.reply {limits : Limits} {w w' : World ι} {H : ι → Ledger} (h : Agrees w H) {i : ι} (s : ClientSession)
    {o : Op} {r : Res o} (ha : w.answer limits i o r = some w') :
    allow (H i) o r ∧ Agrees w' (Function.update H i ((H i).reply s o r)) := by
  have same : ∀ {w'} {L : Ledger}, w'.leased = w.leased → w'.transactions = w.transactions →
      w'.confirmed = w.confirmed → w'.commitGeneration = w.commitGeneration → L.held = (H i).held →
      L.log.finished = (H i).log.finished → L.log.confirmed = (H i).log.confirmed →
      L.log.generation = (H i).log.generation → Agrees w' (Function.update H i L) :=
    fun h₁ h₂ h₃ h₄ h₅ h₆ h₇ h₈ => h.quiet (k := 0) (l := 0) h₁ h₂.ge h₃ h₄ h₅ (fun t ht => .inl (h₆ ▸ ht)) h₇ h₈
  -- a connection is given back, whether it is reused or not
  have fewer : ∀ c, Agrees { w with leased := Function.update w.leased i ((w.leased i).erase c) }
      (Function.update H i ((H i).giveUp c)) := fun c => by
    refine h.holds (n := w.leases) ?_ rfl fun d hd => .inl (List.mem_of_mem_erase hd)
    rw [h.leased i]
    rfl
  have done : ∀ t : Tx, t.id < w.transactions → ∀ u ∈ t :: (H i).log.finished,
      u ∈ (H i).log.finished ∨ u.id < w.transactions := fun t ht u hu => by
    rcases List.mem_cons.1 hu with rfl | hu
    · exact .inr ht
    · exact .inl hu
  cases o with
  | databaseConn =>
    cases r with
    | error e => cases ha; exact ⟨trivial, same rfl rfl rfl rfl rfl rfl rfl rfl⟩
    | ok c =>
      obtain ⟨⟨hfresh, -⟩, ⟨⟩⟩ := Option.ite_none_right_eq_some.1 ha
      refine ⟨fun d hd => hfresh i d (by rw [h.leased]; exact hd), ?_⟩
      have hnew : ∀ d ∈ c :: w.leased i, d ∈ w.leased i ∨ ∀ j, ∀ d' ∈ w.leased j, d'.physical ≠ d.physical := by
        intro d hd
        rcases List.mem_cons.1 hd with rfl | hd
        · exact .inr hfresh
        · exact .inl hd
      exact h.holds (n := w.leases + 1) (by rw [h.leased i]; rfl) rfl hnew
  | closeConn c => cases ha; exact ⟨trivial, fewer c⟩
  | discardConn c => cases ha; exact ⟨trivial, fewer c⟩
  | beginTx c =>
    cases r with
    | error e => cases ha; exact ⟨trivial, same rfl rfl rfl rfl rfl rfl rfl rfl⟩
    | ok t =>
      obtain ⟨⟨hc, hid⟩, ⟨⟩⟩ := Option.ite_none_right_eq_some.1 ha
      refine ⟨⟨hc, fun hm => ?_⟩, ?_⟩
      · have := h.finished i t hm
        omega
      · exact h.quiet (k := 0) (l := 0) rfl (Nat.le_succ _) rfl rfl rfl (fun t ht => .inl ht) rfl rfl
  | commit t =>
    obtain ⟨ht, ⟨⟩⟩ := Option.ite_none_right_eq_some.1 ha
    cases r with
    | error e => exact ⟨trivial, h.quiet (k := 0) (l := 0) rfl le_rfl rfl rfl rfl (done t ht) rfl rfl⟩
    | ok x => exact ⟨trivial, h.quiet (k := 1) (l := 0) rfl le_rfl rfl rfl rfl (done t ht) rfl rfl⟩
  | rollback t =>
    obtain ⟨ht, ⟨⟩⟩ := Option.ite_none_right_eq_some.1 ha
    exact ⟨trivial, h.quiet (k := 0) (l := 0) rfl le_rfl rfl rfl rfl (done t ht) rfl rfl⟩
  | prepare via q =>
    cases r with
    | error e => cases ha; exact ⟨trivial, same rfl rfl rfl rfl rfl rfl rfl rfl⟩
    | ok st =>
      obtain ⟨hst, ⟨⟩⟩ := Option.ite_none_right_eq_some.1 ha
      refine ⟨hst, ?_⟩
      simp only [Ledger.reply, Log.reply]
      split <;> exact same rfl rfl rfl rfl rfl rfl rfl rfl
  | txStmt t st =>
    obtain ⟨hst, ⟨⟩⟩ := Option.ite_none_right_eq_some.1 ha
    exact ⟨hst, same rfl rfl rfl rfl rfl rfl rfl rfl⟩
  | tryAdmission =>
    obtain ⟨-, ⟨⟩⟩ := Option.ite_none_right_eq_some.1 ha
    cases r <;> exact ⟨trivial, same rfl rfl rfl rfl rfl rfl rfl rfl⟩
  | awaitAdmission =>
    cases r with
    | error e => cases ha; exact ⟨trivial, same rfl rfl rfl rfl rfl rfl rfl rfl⟩
    | ok x =>
      obtain ⟨-, ⟨⟩⟩ := Option.ite_none_right_eq_some.1 ha
      exact ⟨trivial, same rfl rfl rfl rfl rfl rfl rfl rfl⟩
  | readMessage => cases r <;> cases ha <;> exact ⟨trivial, same rfl rfl rfl rfl rfl rfl rfl rfl⟩
  | releaseAdmission | tryQueue | leaveQueue | addQueuedBytes =>
    obtain ⟨-, ⟨⟩⟩ := Option.ite_none_right_eq_some.1 ha
    exact ⟨trivial, same rfl rfl rfl rfl rfl rfl rfl rfl⟩
  | panic => cases r
  | _ => cases ha; exact ⟨trivial, same rfl rfl rfl rfl rfl rfl rfl rfl⟩

/-- The ledgers justify what the world replies. -/
theorem world_justifies (limits : Limits) :
    System.Justifies Ledger.next (World.env limits) (fun _ _ _ => True) allow (World.fresh ι) ({} : Ledger) Agrees where
  start := .fresh
  note := by
    intro w H h i s n
    cases n with
    | commitGeneration =>
      exact h.quiet (k := 0) (l := 1) rfl le_rfl rfl rfl rfl (fun t ht => .inl ht) rfl rfl
    | _ => exact h.quiet (k := 0) (l := 0) rfl le_rfl rfl rfl rfl (fun t ht => .inl ht) rfl rfl
  reply := by
    intro w H h i s o r w' _ ha
    exact h.reply s ha

/-- In every reachable state of the system the world agrees with the ledgers, and each session is in a
state it can reach by itself. -/
theorem sessions_project {svc : Service} {limits : Limits} {S : Sessions ι} (h : S.Reachable svc limits) :
    Agrees S.world S.accounts ∧ ∀ i, Gateway.Reachable svc (S.thread i) :=
  System.project (world_justifies limits) h fun _ _ _ _ => trivial

/-! ## Scripts -/

/-- What a session is told next. -/
abbrev Reply (ι : Type) := World ι → (o : Op) → Option (Res o)

/-- Room for two connections. -/
def sampleLimits : Limits := ⟨2, 2⟩

/-- An upstream on which everything succeeds; the client sends nothing by itself. -/
def obliging (svc : Service) (limits : Limits) : Reply ι
  | _, .readMessage => none
  | _, .writeMessage sequence _ => some (.ok (sequence + 1))
  | w, .tryAdmission => some (decide (w.admission < limits.maxUpstreamConnections))
  | w, .tryQueue => some (decide (w.queue < limits.maxQueuedRequests))
  | w, .addQueuedBytes delta => some (w.queuedBytes + delta)
  | _, .addWaiting _ => some ()
  | _, .awaitAdmission => some (.ok ())
  | _, .leaveQueue => some ()
  | _, .releaseAdmission => some ()
  | w, .databaseConn => some (.ok ⟨w.leases, w.leases⟩)
  | _, .closeConn _ => some ()
  | _, .discardConn _ => some ()
  | _, .resetExec _ _ => some (.ok ())
  | _, .querySession _ => some (.ok ⟨some svc.baseline.database, 1, svc.baseline.characterSet, svc.baseline.collation,
      svc.baseline.sqlMode, svc.baseline.timeZone⟩)
  | _, .queryIsolation _ _ => some (.ok svc.baseline.transactionIsolation)
  | _, .exec _ _ => some (.ok ⟨0, 0⟩)
  | _, .query _ _ => some (.ok ⟨.ok [], [], none, none⟩)
  | _, .queryWarnings _ => some (.ok 0)
  | _, .prepare via q => some (.ok ⟨via.connection, via.transaction, q⟩)
  | w, .beginTx c => some (.ok ⟨w.transactions, c⟩)
  | _, .commit _ => some (.ok ())
  | _, .rollback _ => some (.ok ())
  | _, .cancelTx => some ()
  | _, .txStmt t st => some ⟨t.conn, some t, st.query⟩
  | _, .stmtExec _ _ => some (.ok ⟨0, 0⟩)
  | _, .stmtQuery _ _ => some (.ok ⟨.ok [], [], none, none⟩)
  | _, .stmtClose _ => some ()
  | _, .beforeCommitResponse => some (.ok ())
  | _, .panic => none

/-- The client sends a command. -/
def sends (payload : Bytes) : Reply ι
  | _, .readMessage => some (.ok { payload })
  | _, _ => none

/-- A COM_QUERY. -/
def comQuery (q : String) : Bytes := commandQuery :: lit q

/-- A COM_STMT_PREPARE. -/
def comStmtPrepare (q : String) : Bytes := commandStmtPrepare :: lit q

/-- A COM_STMT_EXECUTE of handle `id` without parameters. -/
def comStmtExecute (id : UInt8) : Bytes := [commandStmtExecute, id, 0, 0, 0, 0, 1, 0, 0, 0]

/-- Session `i` receives a command and `n` obliging replies. -/
def asks (i : ι) (payload : Bytes) (n : Nat) : List (ι × Reply ι) :=
  (i, sends payload) :: List.replicate n (i, obliging sampleService sampleLimits)

/-- The session of a run with only one. -/
def alone : Fin 1 := ⟨0, Nat.one_pos⟩

/-- An error that the server reports, with the text of the driver. The connection stays open. -/
def serverError (number : Nat) (sqlState message : String) : GoError :=
  ⟨.mysql number (lit sqlState) (lit message), lit s!"Error {number} ({sqlState}): {message}"⟩

/-- A rollback fails and leaves the transaction in doubt. -/
def failsRollback : Reply ι
  | _, .rollback _ => some (.error (serverError 1181 "HY000" "Got error 149 during ROLLBACK"))
  | _, _ => none

/-- The sessions of the sample service after a script. -/
def Sessions.sample (script : List (ι × Reply ι)) : Sessions ι :=
  System.play Ledger.next (fun i w => w.answer sampleLimits i) World.note (handleClient sampleService)
    (System.start (World.fresh ι) (newSession sampleService) {}) script

theorem Sessions.reachable_sample (script : List (ι × Reply ι)) :
    (Sessions.sample script).Reachable sampleService sampleLimits := by
  unfold Sessions.sample
  exact System.steps_play _ script

theorem Sessions.reachable_sample_thread (script : List (ι × Reply ι)) (i : ι) :
    Gateway.Reachable sampleService ((Sessions.sample script).thread i) :=
  (sessions_project (Sessions.reachable_sample script)).2 i

end World

end Accelerator.Gateway
