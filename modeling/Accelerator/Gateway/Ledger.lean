/-
The account of a client session: which connections and admission tokens it holds, which transactions
it began and finished, which command it is answering and what it has executed for it. `allow` is
what is assumed of `database/sql`: a connection is handed out to one owner at a time, a transaction
is new and lives on the connection it was begun on, and a statement belongs to the connection or
transaction it was prepared in. Every other reply, success or failure, is arbitrary.
-/
import Accelerator.Gateway.Client

namespace Accelerator.Gateway

open Interact Strings Engine Upstream
open Protocol (Message)

/-! ## What a call is about -/

/-- The connection a call works on. -/
def Op.connection? : Op → Option Conn
  | .closeConn c | .discardConn c | .resetExec c _ | .querySession c | .queryIsolation c _ | .beginTx c => some c
  | .exec via _ | .query via _ | .queryWarnings via | .prepare via _ => some via.connection
  | .commit t | .rollback t | .txStmt t _ => some t.conn
  | .stmtExec st _ | .stmtQuery st _ | .stmtClose st => some st.conn
  | _ => none

/-- What a call that sends a statement upstream sends it through. -/
def Op.sends? : Op → Option Via
  | .resetExec c _ | .querySession c | .queryIsolation c _ | .beginTx c => some (.conn c)
  | .exec via _ | .query via _ | .queryWarnings via | .prepare via _ => some via
  | .commit t | .rollback t | .txStmt t _ => some (.tx t)
  | .stmtExec st _ | .stmtQuery st _ => some st.via
  | _ => none

/-- What is not sent through a transaction is sent on the connection the call works on. -/
theorem Op.connection_of_sends (o : Op) {via : Via} (h : o.sends? = some via) :
    o.connection? = some via.connection ∨ ∃ t, via = .tx t := by
  cases via with
  | tx t => exact .inr ⟨t, rfl⟩
  | conn c =>
    left
    cases o with
    | stmtExec st a | stmtQuery st a =>
      obtain ⟨d, tx, q⟩ := st
      cases tx <;> cases h
      rfl
    | _ => cases h <;> rfl

/-- The text of the statement a call sends upstream. -/
def Op.text? : Op → Option Text
  | .resetExec _ command => some command.text
  | .querySession _ => some verifyQuery
  | .queryIsolation _ name => some name.query
  | .exec _ q | .query _ q | .prepare _ q => some q
  | .queryWarnings _ => some warningsQuery
  | .stmtExec st _ | .stmtQuery st _ | .txStmt _ st => some st.query
  | _ => none

/-- The text a call executes as a write, a DDL or a savepoint statement. -/
def Op.executes? : Op → Option Text
  | .exec _ q => some q
  | .stmtExec st _ => some st.query
  | _ => none

/-- The steps of `Service.acquire`. -/
def Op.admits : Op → Bool
  | .tryAdmission | .tryQueue | .addQueuedBytes _ | .addWaiting _ | .awaitAdmission | .leaveQueue => true
  | _ => false

/-! ## Requests -/

/-- A command together with the session that received it. -/
structure Request where
  before : ClientSession
  message : Message

/-- The classified text of a COM_QUERY. -/
def Request.statement? (r : Request) : Option Statement :=
  match r.message.payload with
  | command :: rest => if command = commandQuery then some (classifySQL (ofBytes rest)) else none
  | [] => none

/-- The live handle a COM_STMT_EXECUTE names. -/
def Request.handle? (r : Request) : Option PreparedStatement :=
  if r.message.payload.head? = some commandStmtExecute ∧ 10 ≤ r.message.payload.length then
    r.before.prepared.lookup (handleID r.message.payload)
  else none

/-- A COM_STMT_PREPARE. -/
def Request.isPrepare (r : Request) : Bool := r.message.payload.head? = some commandStmtPrepare

/-- A text statement that is sent over a second connection: one outside a transaction, to a session
that is pinned by its prepared handles. -/
def Request.Detours (r : Request) : Prop :=
  r.before.tx = none ∧ r.before.pinnedConnection.isSome ∧ ∃ st, r.statement? = some st ∧
    (st.kind = .ddl ∨ ((st.kind = .read ∨ st.kind = .write) ∧ r.before.state.autocommit = true))

/-- A text read outside a transaction, for which a connection is checked out and given back. -/
def Request.ReadsAlone (r : Request) : Prop :=
  r.before.tx = none ∧ r.before.state.autocommit = true ∧ ∃ st, r.statement? = some st ∧ st.kind = .read

/-- What `executePrepared` checks before it executes a handle: no cursor is asked for, its long data was not too
much, and its arguments can be decoded. -/
def Request.Passes (r : Request) (p : PreparedStatement) : Prop :=
  r.message.payload[5]? = some 0 ∧ p.longDataError = none ∧
    ∃ arguments, (decodeArguments p r.message.payload).2 = .ok arguments

/-- An execution of a DDL handle with a transaction open, or with one about to be begun for it. -/
def Request.ExecutesDDL (r : Request) : Prop :=
  (r.before.tx.isSome ∨ r.before.state.autocommit = false) ∧
    ∃ p, r.handle? = some p ∧ (classifySQL p.query).kind = .ddl ∧ r.Passes p

/-! ## The ledger -/

/-- What a session did: over its life, and for the command it is answering. -/
structure Log where
  begun : List Tx := []
  finished : List Tx := []
  confirmed : Nat := 0
  generation : Nat := 0
  prepares : Nat := 0
  collided : Bool := false
  commitFailed : Bool := false
  rollbackFailed : Bool := false
  request : Option Request := none
  executed : List (Text × Bool) := []
  committed : List Tx := []

/-- What a session holds and did: the connections it has checked out, its admission tokens, what it added
to the service's counter of pinned connections, and the connection it holds on which a commit or a
rollback failed. -/
structure Ledger where
  held : List Conn := []
  tokens : Nat := 0
  pins : Int := 0
  doubt : Option Conn := none
  log : Log := {}

/-- Whether an error was returned. -/
def succeeded {α : Type} : Except GoError α → Bool
  | .ok _ => true
  | .error _ => false

/-- A rollback that failed with the transaction still in doubt. -/
def inDoubt : Except GoError Unit → Bool
  | .ok _ => false
  | .error e => e.cause ≠ .txDone

/-- The log after a reply. -/
def Log.reply (l : Log) (s : ClientSession) : (o : Op) → Res o → Log
  | .readMessage, .ok message => { l with request := some ⟨s, message⟩, executed := [], committed := [] }
  | .exec _ q, r => { l with executed := (q, succeeded r) :: l.executed }
  | .stmtExec st _, r => { l with executed := (st.query, succeeded r) :: l.executed }
  | .prepare _ _, .ok _ =>
    if l.request.any (·.isPrepare) then
      { l with
        prepares := l.prepares + 1
        collided := l.collided || decide (nextID s.nextPreparedID ∈ s.state.prepared) }
    else l
  | .beginTx _, .ok t => { l with begun := t :: l.begun }
  | .commit t, .ok _ =>
    { l with finished := t :: l.finished, confirmed := l.confirmed + 1, committed := t :: l.committed }
  | .commit t, .error _ => { l with finished := t :: l.finished, commitFailed := true }
  | .rollback t, r => { l with finished := t :: l.finished, rollbackFailed := l.rollbackFailed || inDoubt r }
  | _, _ => l

/-- The ledger after a connection went back to the pool or was destroyed. -/
def Ledger.giveUp (L : Ledger) (c : Conn) : Ledger :=
  { L with held := L.held.erase c, doubt := if L.doubt = some c then none else L.doubt }

/-- The ledger after a reply. -/
def Ledger.reply (L : Ledger) (s : ClientSession) (o : Op) (r : Res o) : Ledger :=
  let L := { L with log := L.log.reply s o r }
  match o, r with
  | .tryAdmission, true => { L with tokens := L.tokens + 1 }
  | .awaitAdmission, .ok _ => { L with tokens := L.tokens + 1 }
  | .releaseAdmission, _ => { L with tokens := L.tokens - 1 }
  | .databaseConn, .ok c => { L with held := c :: L.held }
  | .closeConn c, _ => L.giveUp c
  | .discardConn c, _ => L.giveUp c
  | .commit t, .error _ => { L with doubt := some t.conn }
  | .rollback t, r => { L with doubt := if inDoubt r then some t.conn else L.doubt }
  | _, _ => L

/-- The ledger after an event. -/
def Ledger.next (L : Ledger) : Event ClientSession Op Res Note → Ledger
  | .call s o r => L.reply s o r
  | .note _ .commitGeneration => { L with log := { L.log with generation := L.log.generation + 1 } }
  | .note _ (.pinned delta) => { L with pins := L.pins + delta }
  | .note _ _ => L

/-- What is assumed of the replies of `database/sql`. -/
def allow (L : Ledger) : (o : Op) → Res o → Prop
  | .databaseConn, .ok c => ∀ d ∈ L.held, d.physical ≠ c.physical
  | .beginTx c, .ok t => t.conn = c ∧ t ∉ L.log.finished
  | .prepare via q, .ok st => st = ⟨via.connection, via.transaction, q⟩
  | .txStmt t st, r => r = ⟨t.conn, some t, st.query⟩
  | _, _ => True

instance (L : Ledger) (o : Op) (r : Res o) : Decidable (allow L o r) := by
  unfold allow
  split <;> infer_instance

/-- The environment of a session. -/
def upstream : Env ClientSession Op Res Note Ledger := account Ledger.next allow

/-- Reachability of a session's states. -/
def Reachable (svc : Service) : Conf ClientSession Op Res Note Ledger → Prop :=
  Process.Reach upstream (handleClient svc) (newSession svc) {}

end Accelerator.Gateway
