/-
The rules of COM_QUERY: the ends of a transaction, executions and result sets, and the switch over
the statement kinds. Every one of them ends `Done`: with nothing held beside the pin, and ready for
the next command unless the session is to end.
-/
import Accelerator.Engine.Resend
import Accelerator.Gateway.Rules

namespace Accelerator.Gateway

open Interact Strings Engine Upstream Session

/-! ## The frame of a command -/

/-- How a command ends: an error ends the session. -/
structure Done (svc : Service) (r : Except GoError Unit) (s : ClientSession) (L : Ledger) : Prop where
  at' : At svc [] 0 s L
  ready : succeeded r = true → Ready s L

theorem Done.of_ready {svc : Service} {s : ClientSession} {L : Ledger} (hA : At svc [] 0 s L) (hR : Ready s L)
    (r : Except GoError Unit) : Done svc r s L := ⟨hA, fun _ => hR⟩

/-- A command that ends with a reply. -/
theorem Does.done {ks : List Call} {p : M (Except GoError Unit)} {svc : Service} {s : ClientSession} {L : Ledger}
    (h : Does ks [] p) (hk : ks.all replying.contains = true) (hA : At svc [] 0 s L) (hR : Ready s L)
    (hE : ks.contains .ok = true → ∀ r, L.log.request = some r → r.Earned L.log) : Safe p (Done svc) s L :=
  h.answers hk hA hR hE (.of_ready hA hR)

/-- How a command begins. -/
structure Serving (svc : Service) (r : Request) (s : ClientSession) (L : Ledger) : Prop where
  at' : At svc [] 0 s L
  ready : Ready s L
  request : L.log.request = some r
  before : r.before = s
  executed : L.log.executed = []

section Frame

variable {svc : Service} {s : ClientSession} {L : Ledger} {r : Request}

/-- What the request has earned, whoever asks for it. -/
theorem Serving.earned (hV : Serving svc r s L) {l : Log} (hl : l.request = L.log.request) (hE : r.Earned l) :
    ∀ r', l.request = some r' → r'.Earned l := by
  intro r' hr'
  cases Option.some.inj (hr'.symm.trans (hl.trans hV.request))
  exact hE

theorem Request.handle?_of_statement? {st : Statement} (h : r.statement? = some st) : r.handle? = none := by
  unfold Request.statement? at h
  unfold Request.handle?
  cases hp : r.message.payload with
  | nil => simp
  | cons command rest =>
    rw [hp] at h
    simp only at h
    split at h
    · rename_i hc
      rw [if_neg]
      subst hc
      rintro ⟨hh, _⟩
      exact absurd (Option.some.inj hh) (by decide)
    · cases h

/-- What a text statement has to have done for its OK. -/
theorem Request.Earned.of_statement {l : Log} {st : Statement} (h : r.statement? = some st)
    (hc : st.kind = .commit ∨ st.kind = .autocommitOn → ∀ t, r.before.tx = some t → t ∈ l.committed)
    (he : st.kind = .write ∨ st.kind = .ddl → (st.sql, true) ∈ l.executed) : r.Earned l := by
  refine ⟨fun st' t h' hk ht => ?_, fun st' h' hk => ?_, fun p hp => ?_⟩
  · rw [h] at h'; cases h'; exact hc hk t ht
  · rw [h] at h'; cases h'; exact he hk
  · rw [Request.handle?_of_statement? h] at hp; cases hp

/-- A command that neither commits nor executes owes nothing. -/
theorem Request.Earned.of_none {l : Log} (h : r.statement? = none) (hh : r.handle? = none) : r.Earned l :=
  ⟨by simp [h], by simp [h], by simp [hh]⟩

end Frame

/-! ## The ends of a transaction -/

section Ends

variable {svc : Service} {s : ClientSession} {L : Ledger} {t : Tx}

/-- A statement through the open transaction. -/
theorem Good.onTransaction {o : Op} (hA : At svc [] 0 s L) (htx : s.tx = some t) (hc : o.connection? = some t.conn)
    (hs : o.sends? = some (.tx t))
    (ht : ∀ q, o.text? = some q → (classifySQL q).kind = .ddl → ∃ r, L.log.request = some r ∧ r.ExecutesDDL)
    (he : ∀ q, o.executes? = some q → L.log.executed = []) : Good s L o := by
  have hm : t.conn ∈ L.held := by rw [hA.held, hA.pinned t htx]; exact List.mem_cons_self
  exact .sends hA.toBase hA.begun hc hm hs htx.symm (fun q hq _ => ht q hq) he

/-- The state from which `finishTransaction` starts. -/
theorem At.finishing (hA : At svc [] 0 s L) (htx : s.tx = some t) (st : Logical) (failing : Bool) (l : Log)
    (hpr : st.prepared = s.state.prepared) (hb : st.baseline = s.state.baseline)
    (hbegun : l.begun = L.log.begun) (hfin : l.finished = t :: L.log.finished)
    (hcount : l.generation = l.confirmed) (hexec : l.executed = L.log.executed) :
    Finishing svc t { s with state := st }
      { L with doubt := if failing then some t.conn else L.doubt, log := l } := by
  have hp := hA.pinned t htx
  refine ⟨⟨by simp, hA.release, by simp, hA.held, hA.tokens, by simp, hcount, ?_, le_rfl, hA.stock.2.1,
    hA.stock.2.2.1, hA.toBase.doubts hp failing⟩, ?_, ?_, hb.trans hA.baseline, ?_, ?_⟩
  · simpa only [hexec] using hA.once
  · intro t' ht' hf
    simp only [hbegun, hfin, List.mem_cons, not_or] at ht' hf
    have := hA.begun t' ht' hf.2
    rw [htx] at this; exact absurd (Option.some.inj this).symm hf.1
  · rw [show ({ s with state := st } : ClientSession).pinnedConnection = s.pinnedConnection from rfl, hp]; rfl
  · intro id hid
    show id ∈ st.prepared
    rw [hpr]; exact hA.keys id hid
  · intro id p hl
    have := hA.handles id p hl
    rwa [htx] at this

theorem Finished.tables {s' : ClientSession} {L' : Ledger} (h : Finished svc s L s' L') {k : Nat}
    (hT : Tables s k) : Tables s' k ∧ Justified s' := by
  refine ⟨⟨by rw [h.next]; exact hT.next, by rw [h.state]; exact hT.ids, fun id hid => ?_⟩, h.justified hT.live⟩
  rw [h.state] at hid
  exact (h.prepared id).2 (hT.live id hid)

/-- What is left to be known of a finished transaction for the session to go on. -/
theorem Finished.ready {s' : ClientSession} {L' : Ledger} (h : Finished svc s L s' L')
    (hS : Steady { s with tx := none } L) : Ready s' L' := by
  refine ⟨hS.congr h.state h.tx h.prepared h.next (by rw [h.log]) (by rw [h.log]) (by rw [h.log]) (by rw [h.log]),
    fun hk => ?_⟩
  exact h.justified (hS.tables (by rwa [h.log] at hk)).live

/-- The session after `Apply` ended its transaction. -/
theorem Steady.ended (h : Steady s L) (st : Logical) (doubt : Option Conn) (l : Log) (hi : st.inTransaction = false)
    (hpr : st.prepared = s.state.prepared) (hq : st.poisoned = s.state.poisoned)
    (hc : l.commitFailed = false) (hr : l.rollbackFailed = L.log.rollbackFailed)
    (hk : l.prepares = L.log.prepares) (hcl : l.collided = L.log.collided) :
    Steady { s with state := st, tx := none } { L with doubt := doubt, log := l } := by
  refine ⟨hc, hq.trans (h.poisoned.trans hr.symm), fun _ => hi, fun hl => ?_,
    fun hl id hid => h.live (hcl ▸ hl) id (hpr ▸ hid)⟩
  obtain ⟨h1, h2, h3⟩ := h.tables (hk ▸ hl)
  refine ⟨h1.trans hk.symm, fun id hid => ?_, fun id hid => h3 id (hpr ▸ hid)⟩
  have := h2 id (hpr ▸ hid)
  rwa [← hk] at this

/-- A statement that the logical state accepts. -/
theorem safe_applyState {kind : StatementKind} {Q : Post (Option GoError)} (hk : (s.state.apply kind).2 = none)
    (hQ : Q none { s with state := (s.state.apply kind).1 } L) : Safe (applyState kind) Q s L := by
  unfold applyState
  simpa only [safe_bind, safe_read, safe_modify, safe_pure, hk] using hQ

/-- The hook before the reply to a commit. -/
theorem safe_beforeCommitResponse {Q : Post (Except GoError Unit)} (hA : At svc [] 0 s L) (hQ : ∀ r, Q r s L) :
    Safe (call .beforeCommitResponse) Q s L :=
  .call (.quiet hA.toBase hA.begun rfl (by simp) (by simp) (by simp) (by simp [Op.admits]) (by simp) (by simp)) fun r _ => hQ r

/-- The exit of a commit that upstream did not confirm. -/
theorem safe_failCommit {e : GoError} (hA : At svc [] 0 s L) (htx : s.tx = some t) :
    Safe (do finishTransaction; poison; return .error e) (Done svc) s
      { L with
        doubt := some t.conn
        log := { L.log with finished := t :: L.log.finished, commitFailed := true } } := by
  have hF := hA.finishing htx s.state true { L.log with finished := t :: L.log.finished, commitFailed := true } rfl rfl
    rfl rfl hA.counted rfl
  simp only [poison, safe_bind, safe_modify]
  refine safe_finishTransaction hF fun s' L' h => ?_
  exact ⟨h.at'.setState rfl rfl rfl, by simp [succeeded]⟩

/-- The log after a confirmed commit of `t` was counted. -/
def Log.confirm (l : Log) (t : Tx) : Log :=
  { l with
    finished := t :: l.finished, confirmed := l.confirmed + 1
    committed := t :: l.committed, generation := l.generation + 1 }

theorem At.confirming (hA : At svc [] 0 s L) (htx : s.tx = some t) (st : Logical)
    (hpr : st.prepared = s.state.prepared) (hb : st.baseline = s.state.baseline) :
    Finishing svc t { s with state := st } { L with log := L.log.confirm t } :=
  hA.finishing htx st false _ hpr hb rfl rfl (congrArg (· + 1) hA.counted) rfl

/-- The OK of a statement that ends the open transaction is earned by the commit. -/
theorem Serving.commits {r : Request} (hV : Serving svc r s L) {st : Statement} (hst : r.statement? = some st)
    (hk : st.kind = .commit ∨ st.kind = .autocommitOn) {l : Log} (h : ∀ t, s.tx = some t → t ∈ l.committed)
    (hl : l.request = L.log.request) : ∀ r', l.request = some r' → r'.Earned l :=
  hV.earned hl (.of_statement hst (fun _ => hV.before ▸ h) (by rcases hk with hk | hk <;> simp [hk]))

theorem safe_commit {r : Request} (hV : Serving svc r s L) {st : Statement} (hst : r.statement? = some st)
    (hk : st.kind = .commit) : Safe commit (Done svc) s L := by
  have hA := hV.at'
  unfold commit
  rw [safe_bind, safe_read]
  cases htx : s.tx with
  | none => exact safe_writeOK hA hV.ready (hV.commits hst (.inl hk) (by simp [htx]) rfl) (.of_ready hA hV.ready)
  | some t =>
    simp only
    rw [safe_bind]
    refine .call (.onTransaction hA htx rfl rfl (by simp [Op.text?]) (by simp [Op.executes?])) fun x _ => ?_
    cases x with
    | error e => exact safe_failCommit hA htx
    | ok u =>
      simp only [safe_bind]
      refine safe_applyState rfl ?_
      simp only [safe_bind, safe_tell]
      refine safe_finishTransaction (hA.confirming htx _ rfl rfl) fun s' L' h =>
        safe_beforeCommitResponse h.at' fun x => ?_
      have hl : L'.log = L.log.confirm t := h.log
      have hR := h.ready (hV.ready.toSteady.ended _ L.doubt (L.log.confirm t) rfl rfl rfl hV.ready.alive rfl rfl rfl)
      cases x with
      | error e => exact ⟨h.at', by simp [succeeded]⟩
      | ok u =>
        refine safe_writeOK h.at' hR ?_ (.of_ready h.at' hR)
        rw [hl]
        exact hV.commits hst (.inl hk) (by simp [htx, Log.confirm]) rfl

/-- The end of `SET AUTOCOMMIT=1`, for a session without a transaction. -/
theorem safe_enableAutocommit (hA : At svc [] 0 s L) (htx : s.tx = none) (hc : L.log.commitFailed = false)
    (hq : s.state.poisoned = L.log.rollbackFailed)
    (hT : L.log.prepares < 2 ^ 32 → Tables s L.log.prepares ∧ Justified s)
    (hlive : L.log.collided = false → ∀ id ∈ s.state.prepared, id ∈ s.prepared)
    (hE : ∀ r, L.log.request = some r → r.Earned L.log) : Safe enableAutocommit (Done svc) s L := by
  unfold enableAutocommit
  rw [safe_bind]
  refine safe_applyState rfl ?_
  have hA' : At svc [] 0 { s with state := (s.state.apply .autocommitOn).1 } L := by
    refine ⟨hA.toBase.congr rfl rfl rfl, hA.begun, hA.cancel, hA.releases, ?_, hA.baseline, hA.keys, hA.hold, hA.handles⟩
    simp [htx]
  have hR : Ready { s with state := (s.state.apply .autocommitOn).1 } L := by
    refine ⟨⟨hc, hq, fun _ => ?_, fun hk => ?_, hlive⟩, fun hk => (hT hk).2⟩
    · simp [htx, Logical.apply]
    · obtain ⟨h1, h2, h3⟩ := (hT hk).1
      exact ⟨h1, h2, h3⟩
  exact safe_writeOK hA' hR hE (.of_ready hA' hR)

theorem safe_autocommitOn {r : Request} (hV : Serving svc r s L) {st : Statement} (hst : r.statement? = some st)
    (hk : st.kind = .autocommitOn) : Safe autocommitOn (Done svc) s L := by
  have hA := hV.at'
  unfold autocommitOn
  rw [safe_bind, safe_read]
  cases htx : s.tx with
  | none =>
    exact safe_enableAutocommit hA htx hV.ready.alive hV.ready.poisoned
      (fun hk => ⟨hV.ready.tables hk, hV.ready.justified hk⟩) hV.ready.live
      (hV.commits hst (.inr hk) (by simp [htx]) rfl)
  | some t =>
    simp only
    rw [safe_bind]
    refine .call (.onTransaction hA htx rfl rfl (by simp [Op.text?]) (by simp [Op.executes?])) fun x _ => ?_
    cases x with
    | error e => exact safe_failCommit hA htx
    | ok u =>
      simp only [safe_bind, safe_tell]
      refine safe_finishTransaction (hA.confirming htx s.state rfl rfl) fun s' L' h =>
        safe_beforeCommitResponse h.at' fun x => ?_
      have hl : L'.log = L.log.confirm t := h.log
      cases x with
      | error e => exact ⟨h.at', by simp [succeeded]⟩
      | ok u =>
        refine safe_enableAutocommit h.at' h.tx (hl ▸ hV.ready.alive) ?_ (fun hk' => ?_) (fun hc id hid => ?_) ?_
        · rw [h.state, hl]; exact hV.ready.poisoned
        · rw [hl] at hk' ⊢
          obtain ⟨h1, h2, h3⟩ := hV.ready.tables hk'
          exact h.tables ⟨h1, h2, h3⟩
        · rw [hl] at hc
          rw [h.state] at hid
          exact (h.prepared id).2 (hV.ready.live hc id hid)
        · rw [hl]
          exact hV.commits hst (.inr hk) (by simp [htx, Log.confirm]) rfl

/-- The log after `t` was rolled back, or not. -/
def Log.rollBack (l : Log) (t : Tx) (r : Except GoError Unit) : Log :=
  { l with finished := t :: l.finished, rollbackFailed := l.rollbackFailed || inDoubt r }

/-- The ledger after `t` was rolled back, or not. -/
def Ledger.rollBack (L : Ledger) (t : Tx) (r : Except GoError Unit) : Ledger :=
  { L with doubt := if inDoubt r then some t.conn else L.doubt, log := L.log.rollBack t r }

/-- A rollback that ended the transaction. -/
theorem safe_rolledBack {x : Except GoError Unit} (hA : At svc [] 0 s L) (hR : Ready s L) (htx : s.tx = some t)
    (hx : inDoubt x = false) (hE : ∀ r, (L.log.rollBack t x).request = some r → r.Earned (L.log.rollBack t x)) :
    Safe rolledBack (Done svc) s (L.rollBack t x) := by
  unfold rolledBack
  rw [safe_bind]
  refine safe_applyState rfl ?_
  simp only [safe_bind]
  have hF := hA.finishing htx (s.state.apply .rollback).1 (inDoubt x) (L.log.rollBack t x) rfl rfl rfl rfl hA.counted
    rfl
  refine safe_finishTransaction hF fun s' L' h => ?_
  have hl : L'.log = L.log.rollBack t x := h.log
  have hS := hR.toSteady.ended (s.state.apply .rollback).1 (L.rollBack t x).doubt (L.log.rollBack t x) rfl rfl rfl hR.alive
    (by simp [Log.rollBack, hx]) rfl rfl
  refine safe_writeOK h.at' (h.ready hS) ?_ (.of_ready h.at' (h.ready hS))
  rw [hl]
  exact hE

/-- A rollback that left the transaction in doubt: the session goes on, poisoned. -/
theorem safe_failRollback {e : GoError} (hA : At svc [] 0 s L) (hR : Ready s L) (htx : s.tx = some t)
    (hx : inDoubt (.error e) = true) :
    Safe (do finishTransaction; poison; writeSQLError e) (Done svc) s
      (L.rollBack t (.error e)) := by
  have hF := hA.finishing htx s.state (inDoubt (.error e)) (L.log.rollBack t (.error e)) rfl rfl rfl rfl hA.counted rfl
  simp only [poison, safe_bind, safe_modify]
  refine safe_finishTransaction hF fun s' L' h => ?_
  have hl : L'.log = L.log.rollBack t (.error e) := h.log
  have hA' : At svc [] 0 { s' with state := s'.state.poison } L' := h.at'.setState rfl rfl rfl
  have hR' : Ready { s' with state := s'.state.poison } L' := by
    have hT : L'.log.prepares < 2 ^ 32 → Tables s' L'.log.prepares ∧ Justified s' := fun hk => by
      rw [hl] at hk ⊢
      obtain ⟨h1, h2, h3⟩ := hR.tables hk
      exact h.tables ⟨h1, h2, h3⟩
    refine ⟨⟨hl ▸ hR.alive, by simp [hl, Log.rollBack, hx, Logical.poison], by simp [hl, Log.rollBack, hx], fun hk => ?_,
      fun hc id hid => ?_⟩, fun hk => (hT hk).2⟩
    · obtain ⟨h1, h2, h3⟩ := (hT hk).1
      exact ⟨h1, h2, h3⟩
    · rw [hl] at hc
      have hid : id ∈ s'.state.prepared := hid
      rw [h.state] at hid
      exact (h.prepared id).2 (hR.live hc id hid)
  exact safe_writeSQLError hA' hR'.alive (.of_ready hA' hR')

theorem safe_rollback {r : Request} (hV : Serving svc r s L) (hE : ∀ l, r.Earned l) :
    Safe rollback (Done svc) s L := by
  have hA := hV.at'
  unfold rollback
  rw [safe_bind, safe_read]
  cases htx : s.tx with
  | none => exact safe_writeOK hA hV.ready (hV.earned rfl (hE _)) (.of_ready hA hV.ready)
  | some t =>
    simp only
    rw [safe_bind]
    refine .call (.onTransaction hA htx rfl rfl (by simp [Op.text?]) (by simp [Op.executes?])) fun x _ => ?_
    cases x with
    | ok u => exact safe_rolledBack hA hV.ready htx rfl (hV.earned rfl (hE _))
    | error e =>
      simp only
      split
      · rename_i hcause
        exact safe_failRollback hA hV.ready htx (by simpa [inDoubt] using hcause)
      · rename_i hcause
        exact safe_rolledBack hA hV.ready htx (by simpa [inDoubt] using hcause) (hV.earned rfl (hE _))

end Ends

/-! ## Statements -/

/-- The session after the result of a statement was recorded, or not. -/
def Like (s s' : ClientSession) : Prop := s' = s ∨ ∃ w i, s' = { s with state := s.state.setResult w i }

/-- The ledger after a statement was executed. -/
def Ledger.ran (L : Ledger) (q : Text) (b : Bool) : Ledger :=
  { L with log := { L.log with executed := (q, b) :: L.log.executed } }

section Statements

variable {svc : Service} {cs : List Conn} {n : Nat} {s s' : ClientSession} {L : Ledger} {via : Via}

theorem At.like (h : At svc cs n s L) (hs : Like s s') : At svc cs n s' L := by
  rcases hs with rfl | ⟨w, i, rfl⟩
  · exact h
  · exact h.setState rfl rfl rfl

theorem Ready.like (h : Ready s L) (hs : Like s s') : Ready s' L := by
  rcases hs with rfl | ⟨w, i, rfl⟩
  · exact h
  · exact h.setState rfl rfl rfl

theorem At.ran (h : At svc cs n s L) (he : L.log.executed = []) (q : Text) (b : Bool) :
    At svc cs n s (L.ran q b) :=
  h.of_base ⟨h.pinned, h.release, h.unfinished, h.held, h.tokens, h.side, h.counted, by simp [Ledger.ran, he],
    h.stock⟩ rfl rfl

theorem Ready.ran (h : Ready s L) (q : Text) (b : Bool) : Ready s (L.ran q b) :=
  ⟨h.toSteady.congr rfl rfl (fun _ => Iff.rfl) rfl rfl rfl rfl rfl, h.justified⟩

/-- Where the statements of the session go: through its transaction, or on a connection it holds. -/
structure Route (s : ClientSession) (L : Ledger) (via : Via) : Prop where
  held : via.connection ∈ L.held
  tx : via.transaction = s.tx

theorem At.route {t : Tx} (h : At svc cs n s L) (htx : s.tx = some t) : Route s L (.tx t) := by
  refine ⟨?_, htx.symm⟩
  show t.conn ∈ L.held
  rw [h.held, h.pinned t htx]
  simp

theorem warningsQuery_kind : (classifySQL warningsQuery).kind = .warningCount := by decide +kernel

theorem safe_readWarningCount {Q : Post (Except GoError Nat)} (hA : At svc cs n s L) (hv : Route s L via)
    (hQ : ∀ r, Q r s L) : Safe (readWarningCount via) Q s L := by
  unfold readWarningCount
  rw [safe_bind]
  refine .call (.sends hA.toBase hA.begun rfl hv.held rfl hv.tx ?_ (by simp [Op.executes?])) fun r _ => ?_
  · rintro _ ⟨⟩ _ hk
    rw [warningsQuery_kind] at hk; cases hk
  · cases r with
    | error e => exact hQ _
    | ok count => exact hQ _

theorem safe_execOn {q : Text} {Q : Post (Except GoError (Result × Nat))} (hA : At svc cs n s L) (hv : Route s L via)
    (he : L.log.executed = []) (hq : s.tx.isSome → (classifySQL q).kind ≠ .ddl)
    (herr : ∀ e b, Q (.error e) s (L.ran q b)) (hok : ∀ x, Q (.ok x) s (L.ran q true)) :
    Safe (execOn via q) Q s L := by
  unfold execOn
  rw [safe_bind]
  refine .call (.sends hA.toBase hA.begun rfl hv.held rfl hv.tx ?_ fun _ _ => he) fun r _ => ?_
  · rintro _ ⟨⟩ htx hk
    exact absurd hk (hq htx)
  · cases r with
    | error e => exact herr e false
    | ok result =>
      simp only [safe_bind]
      refine safe_readWarningCount (hA.ran he q true) ⟨hv.held, hv.tx⟩ fun r => ?_
      cases r with
      | error e => exact herr e true
      | ok warnings => exact hok _

theorem safe_replyResult {x : Except GoError (Result × Nat)} {Q : Post (Except GoError Unit)} (hA : At svc cs n s L)
    (hR : Ready s L) (hE : succeeded x = true → ∀ r, L.log.request = some r → r.Earned L.log)
    (hQ : ∀ r s', Like s s' → Q r s' L) : Safe (replyResult x) Q s L := by
  unfold replyResult
  cases x with
  | error e => exact safe_writeSQLError hA hR.alive fun r => hQ r s (.inl rfl)
  | ok x =>
    obtain ⟨result, warnings⟩ := x
    have hs : Like s { s with state := s.state.setResult warnings result.lastInsertId.toNat } := .inr ⟨_, _, rfl⟩
    exact safe_writeOK (hA.like hs) (hR.like hs) (hE rfl) fun r => hQ r _ hs

/-- A statement and its reply. -/
theorem safe_execReply {q : Text} {Q : Post (Except GoError Unit)} (hA : At svc cs n s L) (hR : Ready s L)
    (hv : Route s L via) (he : L.log.executed = []) (hq : s.tx.isSome → (classifySQL q).kind ≠ .ddl)
    (hE : ∀ r, (L.ran q true).log.request = some r → r.Earned (L.ran q true).log)
    (hQ : ∀ r s' b, Like s s' → Q r s' (L.ran q b)) :
    Safe (execOn via q) (fun x s L => Safe (replyResult x) Q s L) s L := by
  refine safe_execOn hA hv he hq (fun e b => ?_) fun x => ?_
  · exact safe_replyResult (hA.ran he q b) (hR.ran q b) (by simp [succeeded]) fun r s' => hQ r s' b
  · exact safe_replyResult (hA.ran he q true) (hR.ran q true) (fun _ => hE) fun r s' => hQ r s' true

theorem Free.like (h : Free s L) (hs : Like s s') : Free s' L := by
  rcases hs with rfl | ⟨w, i, rfl⟩
  · exact h
  · exact h

/-- The connection goes back, and then the token. -/
theorem safe_closeRelease {α : Type} {c : Conn} {r : α} {Q : Post α} (hA : At svc [] 0 s L) (hf : Free s L)
    (hc : c ∉ L.held) (hQ : Q r s L) :
    Safe (do call (.closeConn c); call .releaseAdmission; return r) Q s (L.grant.lease c) := by
  have hA₁ := hA.grant hf
  have hA₂ := hA₁.lease hf Nat.zero_lt_one c
  have hne : L.grant.doubt ≠ some c := hA.toBase.doubt_ne hc
  simp only [safe_bind]
  refine .call (.gives hA₂.toBase hA₂.begun rfl List.mem_cons_self rfl rfl ?_) fun _ _ => ?_
  · rintro _ ⟨⟩ hd; exact absurd hd hne
  · show Safe (call .releaseAdmission) _ s ((L.grant.lease c).giveUp c)
    rw [L.grant.giveUp_lease hne]
    exact safe_releaseAdmission hA₁.toBase hA₁.begun (Nat.succ_pos _) hQ

/-- The token goes back, and then the connection: in between the read holds one without a token. -/
theorem safe_releaseClose {α : Type} {c : Conn} {r : α} {Q : Post α} (hA : At svc [] 0 s L) (hf : Free s L)
    (hc : c ∉ L.held) (hl : ∃ r, L.log.request = some r ∧ r.ReadsAlone) (hQ : Q r s L) :
    Safe (do call .releaseAdmission; call (.closeConn c); return r) Q s (L.grant.lease c) := by
  have hA₂ := (hA.grant hf).lease hf Nat.zero_lt_one c
  have hne : L.doubt ≠ some c := hA.toBase.doubt_ne hc
  obtain ⟨q, hq, ha⟩ := hl
  simp only [safe_bind]
  refine safe_releaseAdmission hA₂.toBase hA₂.begun (Nat.succ_pos _) ?_
  refine .call (.late (L := L.lease c) hA₂.toBase hA.begun List.mem_cons_self hq ha hne) fun _ _ => ?_
  show Q r s ((L.lease c).giveUp c)
  rw [L.giveUp_lease hne]
  exact hQ

/-- A statement outside a transaction is refused without a token or a connection, or goes on with both. -/
theorem safe_withConnection {q : Text} {body : Conn → M (Except GoError Unit)} (hA : At svc [] 0 s L) (hR : Ready s L)
    (hf : Free s L) (hbody : ∀ c, c ∉ L.held → Safe (body c) (Done svc) s (L.grant.lease c)) :
    Safe (withConnection svc q body) (Done svc) s L := by
  unfold withConnection
  rw [safe_bind]
  refine safe_acquire hA hf ?_ fun e => safe_writeSQLError hA hR.alive (.of_ready hA hR)
  have hA₁ := hA.grant hf
  simp only
  rw [safe_bind]
  refine safe_checkout hA₁ hf Nat.zero_lt_one hbody fun e => ?_
  simp only
  rw [safe_bind]
  refine safe_writeSQLError hA₁ hR.alive fun r => ?_
  rw [safe_bind]
  exact safe_releaseAdmission hA₁.toBase hA₁.begun (Nat.succ_pos _) (.of_ready hA hR r)

/-- `exec`, through the transaction or over a connection of its own. -/
theorem safe_exec {q : Text} {transactional : Bool} (hA : At svc [] 0 s L) (hR : Ready s L)
    (he : L.log.executed = []) (ht : transactional = true → s.tx.isSome ∧ (classifySQL q).kind ≠ .ddl)
    (hf : transactional = false → Free s L) (hE : ∀ r, (L.ran q true).log.request = some r →
      r.Earned (L.ran q true).log) :
    Safe (exec svc q transactional) (Done svc) s L := by
  have hdone : ∀ r s' b, Like s s' → Done svc r s' (L.ran q b) := fun r s' b hs =>
    .of_ready ((hA.ran he q b).like hs) ((hR.ran q b).like hs) r
  unfold exec
  cases transactional with
  | true =>
    obtain ⟨htx, hq⟩ := ht rfl
    obtain ⟨t, htx⟩ := Option.isSome_iff_exists.1 htx
    simp only [if_true]
    rw [safe_bind, safe_read, htx]
    simp only
    rw [safe_bind]
    exact safe_execReply hA hR (hA.route htx) he (fun _ => hq) hE hdone
  | false =>
    have hf := hf rfl
    simp only [Bool.false_eq_true, if_false]
    refine safe_withConnection hA hR hf fun c hc => ?_
    have hv : Route s (L.grant.lease c) (.conn c) := ⟨List.mem_cons_self, hf.1.symm⟩
    have hgive : ∀ r s' b, Like s s' → Safe (do call (.closeConn c); call .releaseAdmission; return r) (Done svc) s'
        ((L.grant.lease c).ran q b) := fun r s' b hs =>
      safe_closeRelease ((hA.ran he q b).like hs) (hf.like hs) hc (hdone r s' b hs)
    rw [safe_bind]
    have hrun := safe_execReply ((hA.grant hf).lease hf Nat.zero_lt_one c) (hR.of_log rfl) hv he (by simp [hf.1]) hE hgive
    exact hrun.mono fun x s L h => (safe_bind _ _ _).2 h

end Statements

/-! ## Result sets -/

section Rows

variable {svc : Service} {cs : List Conn} {n : Nat} {s : ClientSession} {L : Ledger}

theorem safe_finishRows {sequence : UInt8} {via : Via} {Q : Post (Except GoError Unit)} (hA : At svc cs n s L)
    (hR : Ready s L) (hv : Route s L via) (hQ : ∀ r s', Like s s' → Q r s' L) :
    Safe (finishRows sequence via) Q s L := by
  unfold finishRows
  rw [safe_bind]
  refine safe_readWarningCount hA hv fun r => ?_
  cases r with
  | error e => exact (writeSQLErrorAt_does _ _).refuses hA hR.alive fun r => hQ r s (.inl rfl)
  | ok warnings =>
    have hs : Like s { s with state := s.state.setResult warnings 0 } := .inr ⟨_, _, rfl⟩
    simp only [safe_bind, safe_modify]
    refine (writeEOF_does _ _).answers rfl (hA.like hs) (hR.like hs) (by rintro ⟨⟩) fun r => ?_
    cases r with
    | error e => exact hQ _ _ hs
    | ok next => exact hQ _ _ hs

/-- A program that finds out where statements go and changes nothing. -/
def Routes (source : M Via) (s : ClientSession) (L : Ledger) : Prop :=
  ∀ Q : Via → ClientSession → Ledger → Prop, (∀ via, Route s L via → Q via s L) → Safe source Q s L

theorem safe_sendBody {encode : List Value → Except GoError Packet} {source : M Via} {rows : Rows} {sequence : UInt8}
    {Q : Post (Except GoError Unit)} (hA : At svc cs n s L) (hR : Ready s L)
    (henc : ∀ values p, encode values = .ok p → p.isRow = true) (hs : Routes source s L)
    (hQ : ∀ r s', Like s s' → Q r s' L) : Safe (sendBody encode source rows sequence) Q s L := by
  unfold sendBody
  rw [safe_bind]
  refine (writeRows_does henc _ _).answers rfl hA hR (by rintro ⟨⟩) fun r => ?_
  cases r with
  | error r => exact hQ _ _ (.inl rfl)
  | ok sequence =>
    simp only
    split
    · exact (writeSQLErrorAt_does _ _).refuses hA hR.alive fun r => hQ r s (.inl rfl)
    · split
      · exact (writeSQLErrorAt_does _ _).refuses hA hR.alive fun r => hQ r s (.inl rfl)
      · rw [safe_bind]
        exact hs _ fun via hv => safe_finishRows hA hR hv hQ

/-- A result set is sent without a trace in the session but its warnings. -/
theorem safe_sendRows {database : Text} {encode : List Column → List Value → Except GoError Packet} {source : M Via}
    {rows : Rows} {Q : Post (Except GoError Unit)} (hA : At svc cs n s L) (hR : Ready s L)
    (henc : ∀ columns values p, encode columns values = .ok p → p.isRow = true) (hs : Routes source s L)
    (hQ : ∀ r s', Like s s' → Q r s' L) : Safe (sendRows database encode source rows) Q s L := by
  unfold sendRows
  cases rows.columns with
  | error e => exact safe_writeSQLError hA hR.alive fun r => hQ r s (.inl rfl)
  | ok columns =>
    simp only
    rw [safe_bind]
    refine (does_call rfl rfl : Does [.packet] [] _).answers rfl hA hR (by rintro ⟨⟩) fun r => ?_
    cases r with
    | error e => exact hQ _ _ (.inl rfl)
    | ok sequence =>
      simp only
      rw [safe_bind]
      refine (writeDefinitions_does _ _ _).answers rfl hA hR (by rintro ⟨⟩) fun r => ?_
      cases r with
      | error e => exact hQ _ _ (.inl rfl)
      | ok sequence =>
        simp only
        rw [safe_bind]
        refine (writeEOF_does _ _).answers rfl hA hR (by rintro ⟨⟩) fun r => ?_
        cases r with
        | error e => exact hQ _ _ (.inl rfl)
        | ok sequence => exact safe_sendBody hA hR (henc columns) hs hQ

theorem safe_rowsOn {via : Via} {q : Text} {Q : Post (Except GoError Unit)} (hA : At svc cs n s L) (hR : Ready s L)
    (hv : Route s L via) (hq : s.tx.isSome → (classifySQL q).kind ≠ .ddl) (hQ : ∀ r s', Like s s' → Q r s' L) :
    Safe (rowsOn svc via q) Q s L := by
  unfold rowsOn
  rw [safe_bind]
  refine .call (.sends hA.toBase hA.begun rfl hv.held rfl hv.tx ?_ (by simp [Op.executes?])) fun r _ => ?_
  · rintro _ ⟨⟩ htx hk
    exact absurd hk (hq htx)
  · cases r with
    | error e => exact safe_writeSQLError hA hR.alive fun r => hQ r s (.inl rfl)
    | ok rows => exact safe_sendRows hA hR encodeText_row (fun Q h => h via hv) hQ

theorem safe_rows {q : Text} (hA : At svc [] 0 s L) (hR : Ready s L) (hq : (classifySQL q).kind ≠ .ddl)
    (hf : s.tx = none → Free s L) (hl : s.tx = none → ∃ r, L.log.request = some r ∧ r.ReadsAlone) :
    Safe (rows svc q) (Done svc) s L := by
  have hdone : ∀ r s', Like s s' → Done svc r s' L := fun r s' hs => .of_ready (hA.like hs) (hR.like hs) r
  unfold rows
  rw [safe_bind, safe_read]
  cases htx : s.tx with
  | some t =>
    exact safe_rowsOn hA hR (hA.route htx) (fun _ => hq) hdone
  | none =>
    have hf := hf htx
    refine safe_withConnection hA hR hf fun c hc => ?_
    have hv : Route s (L.grant.lease c) (.conn c) := ⟨List.mem_cons_self, htx.symm⟩
    have hA₁ := (hA.grant hf).lease hf Nat.zero_lt_one c
    rw [safe_bind]
    refine safe_rowsOn hA₁ (hR.of_log rfl) hv (by simp [htx]) fun r s' hs => ?_
    exact safe_releaseClose (hA.like hs) (hf.like hs) hc (hl htx) (hdone r s' hs)

end Rows

/-! ## The statement kinds -/

section Query

variable {svc : Service} {s : ClientSession} {L : Ledger} {r : Request}

theorem safe_initDatabase {database : Text} (hV : Serving svc r s L) (hE : ∀ l, r.Earned l) :
    Safe (initDatabase svc database) (Done svc) s L := by
  unfold initDatabase
  split
  · exact safe_writeError hV.at' hV.ready.alive (.of_ready hV.at' hV.ready)
  · rename_i hne
    simp only [not_or] at hne
    rw [safe_bind, safe_read, safe_bind, safe_modify]
    simp only [Logical.selectDatabase, hne.1, if_false]
    have hA : At svc [] 0 { s with state := { s.state with database } } L := hV.at'.setState rfl rfl rfl
    have hR : Ready { s with state := { s.state with database } } L := hV.ready.setState rfl rfl rfl
    exact safe_writeOK hA hR (hV.earned rfl (hE _)) (.of_ready hA hR)

/-- A statement that changes the logical state only. -/
theorem safe_localStatement {kind : StatementKind} {code : Nat} {state message : String} (hV : Serving svc r s L)
    (hk : (s.state.apply kind).2 = none) (hi : (s.state.apply kind).1.inTransaction = s.state.inTransaction)
    (hE : ∀ l, r.Earned l) : Safe (localStatement kind code state message) (Done svc) s L := by
  unfold localStatement
  rw [safe_bind]
  refine safe_applyState hk ?_
  have hA := hV.at'.setState hi (Logical.apply_prepared s.state kind) (Logical.apply_baseline s.state kind)
  have hR := hV.ready.setState hi (Logical.apply_prepared s.state kind) (Logical.apply_poisoned s.state kind)
  exact safe_writeOK hA hR (hV.earned rfl (hE _)) (.of_ready hA hR)

/-- A text statement outside a transaction may use a connection of its own. -/
theorem Serving.free {st : Statement} (hV : Serving svc r s L) (hst : r.statement? = some st) (htx : s.tx = none)
    (hk : st.kind = .ddl ∨ ((st.kind = .read ∨ st.kind = .write) ∧ s.state.autocommit = true)) : Free s L := by
  refine ⟨htx, ?_⟩
  cases hp : s.pinnedConnection with
  | none => exact .inl rfl
  | some c =>
    refine .inr ⟨r, hV.request, ?_, ?_, st, hst, ?_⟩
    · rw [hV.before]; exact htx
    · rw [hV.before, hp]; rfl
    · rw [hV.before]; exact hk

/-- A write or a read: with autocommit off it first begins a transaction. -/
theorem safe_implicit {k : M (Except GoError Unit)} (hV : Serving svc r s L)
    (hk : ∀ s' L', At svc [] 0 s' L' → Ready s' L' → Keeps L.log L'.log →
      (s'.tx = none → s' = s ∧ L' = L ∧ s.state.autocommit = true) → Safe k (Done svc) s' L') :
    Safe (do
      match ← ensureImplicitTransaction svc with
      | .error e => writeSQLError e
      | .ok _ => k) (Done svc) s L := by
  rw [safe_bind]
  refine safe_ensureImplicitTransaction hV.at' hV.ready (fun e s' L' h => ?_) (fun _ s' L' h => ?_) fun htx hauto => ?_
  · exact safe_writeSQLError h.at' h.ready.alive (.of_ready h.at' h.ready)
  · refine hk s' L' h.at' h.ready h.keeps fun htx => ?_
    have := h.tx
    rw [htx] at this; cases this
  · exact hk s L hV.at' hV.ready .rfl fun _ => ⟨rfl, rfl, hauto⟩

theorem safe_query {q : Text} (hV : Serving svc r s L) (hst : r.statement? = some (classifySQL q)) :
    Safe (query svc q) (Done svc) s L := by
  have hA := hV.at'
  have hR := hV.ready
  have hE : (classifySQL q).kind ∉ [.commit, .autocommitOn, .write, .ddl] → ∀ l, r.Earned l := fun h l => by
    simp only [List.mem_cons, List.not_mem_nil, or_false, not_or] at h
    exact .of_statement hst (by simp [h.1, h.2.1]) (by simp [h.2.2])
  unfold query
  cases hk : (classifySQL q).kind with
  | empty => simpa only [hk] using safe_writeError hA hR.alive (.of_ready hA hR)
  | unsupported =>
    simp only [hk, safe_bind, safe_tell]
    exact safe_writeError hA hR.alive (.of_ready hA hR)
  | «begin» =>
    simp only [hk]
    rw [safe_bind, safe_read]
    split
    · exact safe_writeError hA hR.alive (.of_ready hA hR)
    · rename_i htx
      rw [safe_bind]
      refine safe_begin hA hR (by simpa using htx) fun x s' L' h => ?_
      cases x with
      | error e => exact safe_writeSQLError h.at' h.ready.alive (.of_ready h.at' h.ready)
      | ok u =>
        exact safe_writeOK h.at' h.ready (hV.earned h.keeps.request (hE (by simp [hk]) _)) (.of_ready h.at' h.ready)
  | commit => simpa only [hk] using safe_commit hV hst hk
  | rollback => simpa only [hk] using safe_rollback hV (hE (by simp [hk]))
  | autocommitOff => simpa only [hk] using safe_localStatement hV rfl rfl (hE (by simp [hk]))
  | autocommitOn => simpa only [hk] using safe_autocommitOn hV hst hk
  | setNames => simpa only [hk] using safe_localStatement hV rfl rfl (hE (by simp [hk]))
  | useDatabase =>
    simp only [hk]
    split
    · exact safe_initDatabase hV (hE (by simp [hk]))
    · exact safe_writeError hA hR.alive (.of_ready hA hR)
  | warningCount => simpa only [hk] using (warningCount_does svc).done rfl hA hR (by rintro ⟨⟩)
  | savepoint =>
    -- `Apply` refuses it outside a transaction, and the client is told so either way
    have hi : (s.state.apply .savepoint).1.inTransaction = s.state.inTransaction := by
      simp only [Logical.apply]; split <;> rfl
    have hA' := hA.setState hi (Logical.apply_prepared s.state .savepoint) (Logical.apply_baseline s.state .savepoint)
    have hR' := hR.setState hi (Logical.apply_prepared s.state .savepoint) (Logical.apply_poisoned s.state .savepoint)
    simp only [hk, applyState, safe_bind, safe_read, safe_modify, safe_pure]
    split
    · exact safe_writeError hA' hR'.alive (.of_ready hA' hR')
    · rename_i htx
      simp only [Bool.or_eq_true, Option.isNone_iff_eq_none, not_or] at htx
      refine safe_exec hA' hR' hV.executed (fun _ => ⟨?_, classifySQL_resent (by simp [hk])⟩) (by simp)
        (hV.earned rfl (hE (by simp [hk]) _))
      exact Option.isSome_iff_ne_none.2 htx.2
  | ddl =>
    simp only [hk]
    rw [safe_bind, safe_read]
    split
    · exact safe_writeError hA hR.alive (.of_ready hA hR)
    · rename_i htx
      refine safe_exec hA hR hV.executed (by simp) (fun _ => hV.free hst (by simpa using htx) (.inl hk)) ?_
      exact hV.earned rfl (.of_statement hst (by simp [hk]) fun _ => List.mem_cons_self)
  | write =>
    simp only [hk]
    refine safe_implicit hV fun s' L' hA' hR' hkeep hnone => ?_
    rw [safe_bind, safe_read]
    refine safe_exec hA' hR' (hkeep.executed.trans hV.executed)
      (fun htx => ⟨htx, classifySQL_resent (by simp [hk])⟩) (fun htx => ?_) ?_
    · obtain ⟨rfl, rfl, hauto⟩ := hnone (by simpa using htx)
      exact hV.free hst (by simpa using htx) (.inr ⟨.inr hk, hauto⟩)
    · exact hV.earned hkeep.request (.of_statement hst (by simp [hk]) fun _ => List.mem_cons_self)
  | read =>
    simp only [hk]
    refine safe_implicit hV fun s' L' hA' hR' hkeep hnone => ?_
    -- a read outside a transaction gives its token back before its connection
    refine safe_rows hA' hR' (classifySQL_resent (by simp [hk])) (fun htx => ?_) fun htx => ?_
    · obtain ⟨rfl, rfl, hauto⟩ := hnone htx
      exact hV.free hst htx (.inr ⟨.inl hk, hauto⟩)
    · obtain ⟨rfl, rfl, hauto⟩ := hnone htx
      exact ⟨r, hV.request, by rw [hV.before]; exact htx, by rw [hV.before]; exact hauto, _, hst, hk⟩

end Query

end Accelerator.Gateway
