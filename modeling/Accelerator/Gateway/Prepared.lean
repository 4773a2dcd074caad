/-
Prepared statements (`gateway/prepared.go`): the handlers of COM_STMT_PREPARE, COM_STMT_EXECUTE,
COM_STMT_SEND_LONG_DATA, COM_STMT_RESET and COM_STMT_CLOSE. A handle outlives the transaction it was
prepared in; its statement is prepared again, or bound to the open transaction, when it is executed.
-/
import Accelerator.Gateway.Session

namespace Accelerator.Gateway

open Interact Strings Engine Upstream Session
open Protocol (ColumnDefinition defaultCharsetID)

/-! ## Preparing -/

/-- The scanner of `countPreparedParameters`: the open quote, and whether the next byte is escaped. -/
def countParametersFrom : Option UInt8 → Bool → Bytes → Nat
  | _, _, [] => 0
  | some quote, true, _ :: rest => countParametersFrom (some quote) false rest
  | some quote, false, current :: rest =>
    if current = 0x5c ∧ quote ≠ 0x60 then countParametersFrom (some quote) true rest
    else if current = quote then countParametersFrom none false rest
    else countParametersFrom (some quote) false rest
  | none, escaped, current :: rest =>
    if current = 0x27 ∨ current = 0x22 ∨ current = 0x60 then countParametersFrom (some current) escaped rest
    else if current = 0x3f then countParametersFrom none escaped rest + 1
    else countParametersFrom none escaped rest

def countPreparedParameters (query : Text) : Nat := countParametersFrom none false (toBytes query)

example : countPreparedParameters (text "SELECT ?, '?\\'?', `?`, ?") = 2 := by decide +kernel

/-- The connection that is used outside a transaction. Its nil is never checked. -/
def currentVia : M Via := do
  let s ← Prog.read
  match s.tx with
  | some tx => return .tx tx
  | none =>
    match s.pinnedConnection with
    | some connection => return .conn connection
    | none => panic

def prepareOnCurrentConnection (query : Text) : M (Except GoError Stmt) := do
  let via ← currentVia
  call (.prepare via query)

/-- The next handle: zero is skipped. -/
def nextID (id : UInt32) : UInt32 := if id + 1 = 0 then id + 1 + 1 else id + 1

theorem nextID_ne_zero (id : UInt32) : nextID id ≠ 0 := by
  unfold nextID
  split
  · rename_i h; rw [h]; decide
  · assumption

/-- The definition that is sent for each parameter. -/
def parameterDefinition : ColumnDefinition :=
  { name := lit "?", charset := defaultCharsetID, length := 1024, type := columnTypeVarString }

/-- A fresh handle. -/
def newPrepared (query : Text) (statement : Stmt) (transactionBound : Bool) : PreparedStatement where
  query := query
  parameterCount := countPreparedParameters query
  parameterTypes := fun _ => ⟨0, false⟩
  longData := ∅
  longDataBytes := 0
  longDataError := none
  statement := some statement
  transactionBound := transactionBound

/-- The reply to a prepare. -/
def replyPrepared (id : UInt32) (parameterCount : Nat) : M (Except GoError Unit) :=
  writePackets 1 <|
    (fun _ => .prepareOK id 0 (parameterCount % 65536) 0) ::
      List.replicate parameterCount (fun _ => .columnDefinition parameterDefinition) ++
      (if parameterCount > 0 then [fun s => .eof s.status 0] else [])

/-- Enter a prepared statement into the tables of the session and reply. -/
def registerPrepared (query : Text) (statement : Stmt) : M (Except GoError Unit) := do
  Prog.modify fun s => { s with nextPreparedID := nextID s.nextPreparedID }
  let s ← Prog.read
  let id := s.nextPreparedID
  Prog.modify fun s => { s with prepared := s.prepared.insert id (newPrepared query statement s.tx.isSome) }
  match s.state.addPrepared id with
  | (_, some e) =>
    call (.stmtClose statement)
    Prog.modify fun s => { s with prepared := s.prepared.erase id }
    writeSQLError e
  | (state, none) =>
    Prog.modify fun s => { s with state }
    replyPrepared id (countPreparedParameters query)

/-- The part of `prepare` after the session is pinned. -/
def preparePinned (query : Text) : M (Except GoError Unit) := do
  match ← prepareOnCurrentConnection query with
  | .error e =>
    let s ← Prog.read
    if s.state.prepared = ∅ ∧ s.tx = none then
      releasePinnedConnection true
      writeSQLError e
    else writeSQLError e
  | .ok prepared => registerPrepared query prepared

/-- `clientSession.prepare`. -/
def prepare (svc : Service) (query : Text) : M (Except GoError Unit) := do
  let statement := classifySQL query
  if statement.kind ≠ .read ∧ statement.kind ≠ .write ∧ statement.kind ≠ .ddl then
    writeError 1 1295 (lit "HY000") (lit "statement is not supported by the pooled prepared path")
  else
    let s ← Prog.read
    if statement.kind = .ddl ∧ s.tx.isSome then
      writeError 1 1235 (lit "42000") (lit "prepared DDL is refused inside a transaction")
    else
      match ← ensurePinnedConnection svc "prepared_statement" with
      | .error e => writeSQLError e
      | .ok _ => preparePinned statement.sql

/-! ## Executing -/

/-- `binary.LittleEndian.Uint32(payload[1:5])` of a payload that long. -/
def handleID (payload : Bytes) : UInt32 := UInt32.ofNat (littleEndian ((payload.drop 1).take 4))

/-- Store a changed handle. -/
def putHandle (id : UInt32) (p : PreparedStatement) : M Unit :=
  Prog.modify fun s => { s with prepared := s.prepared.insert id p }

/-- The handle with a statement to execute: one that was invalidated is prepared again. -/
def freshStatement (id : UInt32) (p : PreparedStatement) : M (Except GoError (Stmt × Bool)) := do
  let s ← Prog.read
  match p.statement with
  | some statement =>
    if p.transactionBound && s.tx.isNone then
      call (.stmtClose statement)
      match ← prepareOnCurrentConnection p.query with
      | .error e => return .error e
      | .ok statement =>
        putHandle id { p with statement := some statement, transactionBound := s.tx.isSome }
        return .ok (statement, s.tx.isSome)
    else return .ok (statement, p.transactionBound)
  | none =>
    match ← prepareOnCurrentConnection p.query with
    | .error e => return .error e
    | .ok statement =>
      putHandle id { p with statement := some statement, transactionBound := s.tx.isSome }
      return .ok (statement, s.tx.isSome)

/-- `statementForExecution`: the statement to run, and whether it is only for this execution. -/
def statementForExecution (id : UInt32) (p : PreparedStatement) : M (Except GoError (Stmt × Bool)) := do
  match ← freshStatement id p with
  | .error e => return .error e
  | .ok (statement, transactionBound) =>
    let s ← Prog.read
    match s.tx with
    | some tx =>
      if !transactionBound then
        let bound ← call (.txStmt tx statement)
        return .ok (bound, true)
      else return .ok (statement, false)
    | none => return .ok (statement, false)

def execPrepared (statement : Stmt) (arguments : List Argument) : M (Except GoError Unit) := do
  match ← call (.stmtExec statement arguments) with
  | .error e => writeSQLError e
  | .ok result =>
    let source ← currentVia
    match ← readWarningCount source with
    | .error e => writeSQLError e
    | .ok warnings => replyResult (.ok (result, warnings))

/-- A row of a binary result set. -/
def encodeBinary (svc : Service) (columns : List Column) (values : List Value) : Except GoError Packet :=
  match svc.binaryPreparedRow values
      (columns.map fun c => columnDefinition c.name svc.database c.type) (columns.map (·.type)) with
  | .ok payload => .ok (.binaryRow payload)
  | .error e => .error e

def queryPrepared (svc : Service) (statement : Stmt) (arguments : List Argument) : M (Except GoError Unit) := do
  match ← call (.stmtQuery statement arguments) with
  | .error e => writeSQLError e
  | .ok rows => sendRows svc.database (encodeBinary svc) currentVia rows

/-- Run a statement in the way its text asks for. -/
def runPrepared (svc : Service) (query : Text) (statement : Stmt) (arguments : List Argument) :
    M (Except GoError Unit) :=
  if (classifySQL query).kind = .read then queryPrepared svc statement arguments
  else execPrepared statement arguments

/-- The deferred close of a statement that was bound for one execution. -/
def closeTemporary (temporary : Bool) (statement : Stmt) : M Unit :=
  if temporary then call (.stmtClose statement) else return

/-- The part of `executePrepared` after the implicit transaction. -/
def runHandle (svc : Service) (id : UInt32) (p : PreparedStatement) (arguments : List Argument) :
    M (Except GoError Unit) := do
  match ← statementForExecution id p with
  | .error e => writeSQLError e
  | .ok (statement, temporary) =>
    let r ← runPrepared svc p.query statement arguments
    closeTemporary temporary statement
    return r

/-- The part of `executePrepared` after the arguments are decoded. -/
def executeHandle (svc : Service) (id : UInt32) (p : PreparedStatement) (arguments : List Argument) :
    M (Except GoError Unit) := do
  match ← ensureImplicitTransaction svc with
  | .error e => writeSQLError e
  | .ok _ => runHandle svc id p arguments

/-- `executePrepared`. -/
def executePrepared (svc : Service) (payload : Bytes) : M (Except GoError Unit) := do
  if h : payload.length < 10 then writeError 1 1835 (lit "HY000") (lit "malformed prepared execute packet")
  else
    let id := handleID payload
    let s ← Prog.read
    match s.prepared.lookup id with
    | none => writeError 1 1243 (lit "HY000") (lit "unknown prepared statement handle")
    | some p =>
      if payload[5] ≠ 0 then
        writeError 1 1235 (lit "42000") (lit "prepared cursors are not supported in pooled mode")
      else if p.longDataError.isSome then
        putHandle id p.clearLongData
        writeError 1 1153 (lit "08S01") (lit "prepared long data exceeds the configured bound")
      else
        let (p, decoded) := decodeArguments p payload
        putHandle id p.clearLongData
        match decoded with
        | .error (.error e) => writeError 1 1835 (lit "HY000") e.message
        | .error .panic => panic
        | .ok arguments => executeHandle svc id p.clearLongData arguments

/-! ## Long data, reset and close -/

def maxPreparedLongData : Nat := 16777216

/-- Take in a chunk of long data, or remember that it was too much. -/
def PreparedStatement.addLongData (p : PreparedStatement) (parameter : UInt16) (chunk : Bytes) :
    PreparedStatement :=
  if p.longDataBytes + chunk.length > maxPreparedLongData then
    { p with longDataError := some (errorsNew "prepared long data limit exceeded") }
  else
    { p with
      longData := p.longData.insert parameter ((p.longData.lookup parameter).getD [] ++ chunk)
      longDataBytes := p.longDataBytes + chunk.length }

/-- `sendPreparedLongData`. -/
def sendPreparedLongData (payload : Bytes) : M (Except GoError Unit) := do
  if payload.length < 7 then writeError 1 1835 (lit "HY000") (lit "malformed prepared long-data packet")
  else
    let id := handleID payload
    let parameter := UInt16.ofNat (littleEndian ((payload.drop 5).take 2))
    let s ← Prog.read
    match s.prepared.lookup id with
    | none => writeError 1 1243 (lit "HY000") (lit "unknown prepared statement handle or parameter")
    | some p =>
      if parameter.toNat ≥ p.parameterCount then
        writeError 1 1243 (lit "HY000") (lit "unknown prepared statement handle or parameter")
      else
        putHandle id (p.addLongData parameter (payload.drop 7))
        return .ok ()

/-- `resetPrepared`. -/
def resetPrepared (payload : Bytes) : M (Except GoError Unit) := do
  if payload.length < 5 then writeError 1 1835 (lit "HY000") (lit "malformed prepared reset packet")
  else
    let s ← Prog.read
    match s.prepared.lookup (handleID payload) with
    | none => writeError 1 1243 (lit "HY000") (lit "unknown prepared statement handle")
    | some p =>
      putHandle (handleID payload) p.clearLongData
      writeOK 0 0 0

/-- Delete a handle from both tables. -/
def dropHandle (id : UInt32) : M Unit :=
  Prog.modify fun s => { s with prepared := s.prepared.erase id, state := s.state.removePrepared id }

/-- `closePrepared`. -/
def closePrepared (payload : Bytes) : M (Except GoError Unit) := do
  if payload.length < 5 then return .ok ()
  else
    let id := handleID payload
    let s ← Prog.read
    match s.prepared.lookup id with
    | none => return .ok ()
    | some p =>
      closeStatement p.statement
      dropHandle id
      let s ← Prog.read
      if s.prepared.keys = [] ∧ s.tx = none then
        releasePinnedConnection false
        return .ok ()
      else return .ok ()

def closeHandles : List UInt32 → M Unit
  | [] => return
  | id :: ids => do
    let s ← Prog.read
    match s.prepared.lookup id with
    | none => closeHandles ids
    | some p =>
      closeStatement p.statement
      dropHandle id
      closeHandles ids

def closeAllPrepared : M Unit := do
  let s ← Prog.read
  closeHandles s.prepared.keys

end Accelerator.Gateway
