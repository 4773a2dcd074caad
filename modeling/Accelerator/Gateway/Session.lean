/-
The client session (`gateway/gateway.go`): replies, the pinned connection, the begin and the end of
transactions, and the text statements of COM_QUERY.
-/
import Accelerator.Gateway.Checkout

namespace Accelerator.Gateway

open Interact Strings Engine Upstream Session
open Protocol (ColumnDefinition columnFlagNotNull columnFlagUnsigned columnFlagBinary)

/-- A nil dereference or an index outside its bounds. -/
def panic {α : Type} : M α := .call .panic fun e => e.elim

/-! ## Replies -/

def serverStatusInTransaction : UInt16 := 0x0001
def serverStatusAutocommit : UInt16 := 0x0002

/-- `clientSession.status`. -/
def ClientSession.status (s : ClientSession) : UInt16 :=
  (if s.state.autocommit then serverStatusAutocommit else 0) |||
    (if s.state.inTransaction then serverStatusInTransaction else 0)

/-- `clientSession.write`. -/
def write (sequence : UInt8) (packet : Packet) : M (Except GoError UInt8) :=
  call (.writeMessage sequence packet)

def maxErrorMessageBytes : Nat := 2048

def writeError (sequence : UInt8) (code : Nat) (state message : Bytes) : M (Except GoError Unit) := do
  match ← call (.writeMessage sequence (.err code state (message.take maxErrorMessageBytes))) with
  | .ok _ => return .ok ()
  | .error e => return .error e

/-- `mysqlError`: the code, state and message a client is sent for an error. -/
def mysqlError (e : GoError) : Nat × Bytes × Bytes :=
  match e.cause with
  | .mysql number state message =>
    if state.all (· == 0) then (number, lit "HY000", message) else (number, state, message)
  | .deadlineExceeded | .canceled => (3024, lit "HY000", lit "query deadline exceeded")
  | .queueFull => (1040, lit "08004", errQueueFull.message)
  | _ => (1105, lit "HY000", e.message)

def writeSQLErrorAt (sequence : UInt8) (e : GoError) : M (Except GoError Unit) := do
  Prog.tell .queryErrors
  let (code, state, message) := mysqlError e
  writeError sequence code state message

def writeSQLError (e : GoError) : M (Except GoError Unit) := writeSQLErrorAt 1 e

/-- The OK packet at sequence 1 with the session's status. -/
def writeOK (affectedRows lastInsertID warnings : Nat) : M (Except GoError Unit) := do
  let s ← Prog.read
  match ← write 1 (.ok affectedRows lastInsertID s.status warnings) with
  | .ok _ => return .ok ()
  | .error e => return .error e

/-! ## The pinned connection -/

def ensurePinnedConnection (svc : Service) (reason : String) : M (Except GoError Bool) := do
  let s ← Prog.read
  if s.pinnedConnection.isSome then return .ok false
  else
    match ← acquire svc 0 with
    | .error e => return .error e
    | .ok _ =>
      match ← checkout svc with
      | .error e =>
        call .releaseAdmission
        return .error e
      | .ok connection =>
        Prog.modify fun s => { s with pinnedConnection := some connection, pinnedRelease := true }
        Prog.tell (.pinned 1)
        Prog.tell (.recordPin (text reason))
        return .ok true

/-- The second half of `releasePinnedConnection`: the admission token goes back. -/
def releasePin : M Unit := do
  let s ← Prog.read
  if s.pinnedRelease then
    call .releaseAdmission
    Prog.modify fun s => { s with pinnedRelease := false }
  else return

def releasePinnedConnection (discard : Bool) : M Unit := do
  let s ← Prog.read
  match s.pinnedConnection with
  | some c =>
    if discard then call (.discardConn c) else call (.closeConn c)
    Prog.modify fun s => { s with pinnedConnection := none }
    Prog.tell (.pinned (-1))
    releasePin
  | none => releasePin

/-! ## Prepared handles at the end of a transaction -/

/-- Close a statement if there is one. -/
def closeStatement : Option Stmt → M Unit
  | some statement => call (.stmtClose statement)
  | none => return

def invalidateHandles : List UInt32 → M Unit
  | [] => return
  | id :: ids => do
    let s ← Prog.read
    match s.prepared.lookup id with
    | none => invalidateHandles ids
    | some p =>
      if p.transactionBound then
        closeStatement p.statement
        Prog.modify fun s =>
          { s with prepared := s.prepared.insert id { p with statement := none, transactionBound := false } }
        invalidateHandles ids
      else invalidateHandles ids

def invalidateTransactionPrepared : M Unit := do
  let s ← Prog.read
  invalidateHandles s.prepared.keys

/-! ## Transactions -/

/-- Release the pin that a failed `begin` created. -/
def undoPin (created : Bool) : M Unit := if created then releasePinnedConnection false else return

/-- The part of `begin` after the session is pinned. -/
def beginPinned (created : Bool) : M (Except GoError Unit) := do
  let s ← Prog.read
  match s.pinnedConnection with
  | none => panic
  | some connection =>
    match ← call (.beginTx connection) with
    | .error e =>
      call .cancelTx
      undoPin created
      return .error e
    | .ok tx =>
      let s ← Prog.read
      match s.state.apply .begin with
      | (state, some e) =>
        Prog.modify fun s => { s with state }
        let _ ← call (.rollback tx)
        call .cancelTx
        undoPin created
        return .error e
      | (state, none) =>
        Prog.modify fun s => { s with state, tx := some tx, txCancel := true }
        return .ok ()

def «begin» (svc : Service) : M (Except GoError Unit) := do
  match ← ensurePinnedConnection svc "transaction" with
  | .error e => return .error e
  | .ok created => beginPinned created

def ensureImplicitTransaction (svc : Service) : M (Except GoError Unit) := do
  let s ← Prog.read
  if !s.state.autocommit && s.tx.isNone then «begin» svc else return .ok ()

/-- Call `txCancel` if it is set, and clear it. -/
def cancelTransaction : M Unit := do
  let s ← Prog.read
  if s.txCancel then
    call .cancelTx
    Prog.modify fun s => { s with txCancel := false }
  else return

def finishTransaction : M Unit := do
  Prog.modify fun s => { s with tx := none }
  invalidateTransactionPrepared
  cancelTransaction
  let s ← Prog.read
  if s.state.prepared = ∅ then releasePinnedConnection false else return

/-- Apply a statement to the logical state. -/
def applyState (kind : StatementKind) : M (Option GoError) := do
  let s ← Prog.read
  Prog.modify fun s => { s with state := (s.state.apply kind).1 }
  return (s.state.apply kind).2

/-- `state.Poison`. -/
def poison : M Unit := Prog.modify fun s => { s with state := s.state.poison }

def commit : M (Except GoError Unit) := do
  let s ← Prog.read
  match s.tx with
  | none => writeOK 0 0 0
  | some tx =>
    match ← call (.commit tx) with
    | .error e =>
      finishTransaction
      poison
      return .error e
    | .ok _ =>
      match ← applyState .commit with
      | some e =>
        finishTransaction
        return .error e
      | none =>
        Prog.tell .commitGeneration
        finishTransaction
        match ← call .beforeCommitResponse with
        | .error e => return .error e
        | .ok _ => writeOK 0 0 0

/-- The part of `rollback` after upstream has ended the transaction. -/
def rolledBack : M (Except GoError Unit) := do
  match ← applyState .rollback with
  | some e =>
    finishTransaction
    return .error e
  | none =>
    finishTransaction
    writeOK 0 0 0

def rollback : M (Except GoError Unit) := do
  let s ← Prog.read
  match s.tx with
  | none => writeOK 0 0 0
  | some tx =>
    match ← call (.rollback tx) with
    | .error e =>
      if e.cause ≠ .txDone then
        finishTransaction
        poison
        writeSQLError e
      else rolledBack
    | .ok _ => rolledBack

/-- The last part of `SET AUTOCOMMIT=1`, after the open transaction was committed. -/
def enableAutocommit : M (Except GoError Unit) := do
  match ← applyState .autocommitOn with
  | some _ => writeError 1 1192 (lit "25000") (lit "invalid autocommit transition")
  | none => writeOK 0 0 0

/-- The `SET AUTOCOMMIT=1` branch of `clientSession.query`. -/
def autocommitOn : M (Except GoError Unit) := do
  let s ← Prog.read
  match s.tx with
  | none => enableAutocommit
  | some tx =>
    match ← call (.commit tx) with
    | .error e =>
      finishTransaction
      poison
      return .error e
    | .ok _ =>
      Prog.tell .commitGeneration
      finishTransaction
      match ← call .beforeCommitResponse with
      | .error e => return .error e
      | .ok _ => enableAutocommit

/-! ## Statements -/

def readWarningCount (source : Via) : M (Except GoError Nat) := do
  match ← call (.queryWarnings source) with
  | .error e => return .error (e.wrap (lit "read warning count: "))
  | .ok count => return .ok (min count 65535)

/-- The reply to an executed statement. -/
def replyResult (r : Except GoError (Result × Nat)) : M (Except GoError Unit) := do
  match r with
  | .error e => writeSQLError e
  | .ok (result, warnings) =>
    Prog.modify fun s => { s with state := s.state.setResult warnings result.lastInsertId.toNat }
    writeOK result.rowsAffected.toNat result.lastInsertId.toNat warnings

/-- Execute a statement and read its warnings. -/
def execOn (via : Via) (query : Text) : M (Except GoError (Result × Nat)) := do
  match ← call (.exec via query) with
  | .error e => return .error e
  | .ok result =>
    match ← readWarningCount via with
    | .error e => return .error e
    | .ok warnings => return .ok (result, warnings)

/-- How `exec` and `rows` come by a token and a connection for a statement outside a transaction. -/
def withConnection (svc : Service) (query : Text) (body : Conn → M (Except GoError Unit)) : M (Except GoError Unit) := do
  match ← acquire svc (toBytes query).length with
  | .error e => writeSQLError e
  | .ok _ =>
    match ← checkout svc with
    | .error e =>
      let r ← writeSQLError e
      call .releaseAdmission
      return r
    | .ok connection => body connection

/-- `clientSession.exec`. The deferred close and release follow the reply. -/
def exec (svc : Service) (query : Text) (transactional : Bool) : M (Except GoError Unit) := do
  if transactional then
    let s ← Prog.read
    match s.tx with
    | none => panic
    | some tx =>
      let r ← execOn (.tx tx) query
      replyResult r
  else
    withConnection svc query fun connection => do
      let r ← execOn (.conn connection) query
      let r ← replyResult r
      call (.closeConn connection)
      call .releaseAdmission
      return r

/-! ## Result sets -/

/-- Write column definitions from a sequence number on; the next sequence number. -/
def writeDefinitions (database : Text) : UInt8 → List Column → M (Except GoError UInt8)
  | sequence, [] => return .ok sequence
  | sequence, c :: cs => do
    match ← write sequence (.columnDefinition (columnDefinition c.name database c.type)) with
    | .error e => return .error e
    | .ok next => writeDefinitions database next cs

/-- Write rows from a sequence number on: the next sequence number, or what the handler returns
instead of going on. -/
def writeRows (encode : List Value → Except GoError Packet) :
    UInt8 → List (Except GoError (List Value)) → M (Except (Except GoError Unit) UInt8)
  | sequence, [] => return .ok sequence
  | sequence, .error e :: _ => do
    let r ← writeSQLErrorAt sequence e
    return .error r
  | sequence, .ok values :: rest => do
    match encode values with
    | .error e =>
      let r ← writeSQLErrorAt sequence e
      return .error r
    | .ok packet =>
      match ← write sequence packet with
      | .error e => return .error (.error e)
      | .ok next => writeRows encode next rest

/-- The EOF packet with the session's status. -/
def writeEOF (sequence : UInt8) (warnings : Nat) : M (Except GoError UInt8) := do
  let s ← Prog.read
  write sequence (.eof s.status warnings)

/-- The end of a result set: the warnings are read where the rows came from, and recorded. -/
def finishRows (sequence : UInt8) (source : Via) : M (Except GoError Unit) := do
  match ← readWarningCount source with
  | .error e => writeSQLErrorAt sequence e
  | .ok warnings =>
    Prog.modify fun s => { s with state := s.state.setResult warnings 0 }
    match ← writeEOF sequence warnings with
    | .error e => return .error e
    | .ok _ => return .ok ()

/-- The rows of a result set after its header, and its end. -/
def sendBody (encode : List Value → Except GoError Packet) (source : M Via) (rows : Rows)
    (sequence : UInt8) : M (Except GoError Unit) := do
  match ← writeRows encode sequence rows.rows with
  | .error r => return r
  | .ok sequence =>
    match rows.err with
    | some e => writeSQLErrorAt sequence e
    | none =>
      match rows.closeErr with
      | some e => writeSQLErrorAt sequence e
      | none =>
        let source ← source
        finishRows sequence source

/-- What `rows` and `queryPrepared` do with an open result set: they differ in how a row is encoded
and in where the warnings are read. -/
def sendRows (database : Text) (encode : List Column → List Value → Except GoError Packet)
    (source : M Via) (rows : Rows) : M (Except GoError Unit) := do
  match rows.columns with
  | .error e => writeSQLError e
  | .ok columns =>
    match ← write 1 (.columnCount columns.length) with
    | .error e => return .error e
    | .ok sequence =>
      match ← writeDefinitions database sequence columns with
      | .error e => return .error e
      | .ok sequence =>
        match ← writeEOF sequence 0 with
        | .error e => return .error e
        | .ok sequence => sendBody (encode columns) source rows sequence

/-- A row of a text result set. -/
def encodeText (columns : List Column) (values : List Value) : Except GoError Packet :=
  .ok (.textRow (List.zipWith (fun v (c : Column) => textValue v c.type.databaseTypeName) values columns))

/-- Query and send the result set. -/
def rowsOn (svc : Service) (via : Via) (query : Text) : M (Except GoError Unit) := do
  match ← call (.query via query) with
  | .error e => writeSQLError e
  | .ok rows => sendRows svc.database encodeText (pure via) rows

/-- `clientSession.rows`. The release is deferred after the close, so it runs first. -/
def rows (svc : Service) (query : Text) : M (Except GoError Unit) := do
  let s ← Prog.read
  match s.tx with
  | some tx => rowsOn svc (.tx tx) query
  | none =>
    withConnection svc query fun connection => do
      let r ← rowsOn svc (.conn connection) query
      call .releaseAdmission
      call (.closeConn connection)
      return r

/-! ## COM_QUERY -/

def initDatabase (svc : Service) (database : Text) : M (Except GoError Unit) := do
  if database = [] ∨ database ≠ svc.database then
    writeError 1 1049 (lit "42000") (lit "unknown or unconfigured database")
  else
    let s ← Prog.read
    Prog.modify fun s => { s with state := (s.state.selectDatabase database).1 }
    match (s.state.selectDatabase database).2 with
    | some _ => writeError 1 1049 (lit "42000") (lit "invalid database state")
    | none => writeOK 0 0 0

def rejectionReason (reason : Text) : Text :=
  if contains reason (text "multiple statements") then text "multi_statement"
  else if contains reason (text "temporary") then text "temporary_object"
  else if contains reason (text "user variables") then text "user_variable"
  else if contains reason (text "connection-state") || contains reason (text "connection-local") then
    text "connection_state"
  else if contains reason (text "stored") || contains reason (text "multi-result") then
    text "stored_or_multi_result"
  else if contains reason (text "SET") then text "session_setting"
  else if contains reason (text "common table") then text "cte_unclassified"
  else text "unsupported_statement"

/-- The column of the local answer to `SHOW COUNT(*) WARNINGS`. -/
def warningColumn (database : Text) : ColumnDefinition :=
  { schema := toBytes database, name := lit "COUNT(*)", originalName := lit "COUNT(*)", charset := 63, length := 21,
    type := columnTypeLongLong, flags := columnFlagNotNull ||| columnFlagUnsigned ||| columnFlagBinary }

/-- Write packets one after the other, each computed from the session. -/
def writePackets : UInt8 → List (ClientSession → Packet) → M (Except GoError Unit)
  | _, [] => return .ok ()
  | sequence, p :: ps => do
    let s ← Prog.read
    match ← write sequence (p s) with
    | .error e => return .error e
    | .ok next => writePackets next ps

def warningCount (svc : Service) : M (Except GoError Unit) :=
  writePackets 1
    [fun _ => .columnCount 1, fun _ => .columnDefinition (warningColumn svc.database),
     fun s => .eof s.status 0, fun s => .textRow [some (lit (toString s.state.warnings))],
     fun s => .eof s.status 0]

/-- Apply a statement that changes the logical state only, and answer. -/
def localStatement (kind : StatementKind) (code : Nat) (state : String) (message : String) :
    M (Except GoError Unit) := do
  match ← applyState kind with
  | some _ => writeError 1 code (lit state) (lit message)
  | none => writeOK 0 0 0

/-- `clientSession.query`. -/
def query (svc : Service) (query : Text) : M (Except GoError Unit) := do
  let statement := classifySQL query
  match statement.kind with
  | .empty => writeError 1 1065 (lit "42000") (lit "query was empty")
  | .unsupported =>
    Prog.tell (.recordRejection (rejectionReason statement.reason))
    writeError 1 1235 (lit "42000") (toBytes statement.reason)
  | .begin =>
    let s ← Prog.read
    if s.tx.isSome then writeError 1 1192 (lit "25000") (lit "transaction is already active")
    else
      match ← «begin» svc with
      | .error e => writeSQLError e
      | .ok _ => writeOK 0 0 0
  | .commit => commit
  | .rollback => rollback
  | .autocommitOff => localStatement .autocommitOff 1192 "25000" "invalid autocommit transition"
  | .autocommitOn => autocommitOn
  | .setNames => localStatement .setNames 1235 "42000" "invalid charset transition"
  | .useDatabase =>
    match fields statement.sql with
    | [_, name] => initDatabase svc (trim name (text "`"))
    | _ => writeError 1 1064 (lit "42000") (lit "invalid USE statement")
  | .warningCount => warningCount svc
  | .savepoint =>
    let e ← applyState .savepoint
    let s ← Prog.read
    if e.isSome || s.tx.isNone then
      writeError 1 1305 (lit "42000") (lit "savepoint requires an active transaction")
    else exec svc statement.sql true
  | .ddl =>
    let s ← Prog.read
    if s.tx.isSome then
      writeError 1 1235 (lit "42000") (lit "implicit-commit DDL is refused inside a pooled transaction")
    else exec svc statement.sql false
  | .write =>
    match ← ensureImplicitTransaction svc with
    | .error e => writeSQLError e
    | .ok _ =>
      let s ← Prog.read
      exec svc statement.sql s.tx.isSome
  | .read =>
    match ← ensureImplicitTransaction svc with
    | .error e => writeSQLError e
    | .ok _ => rows svc statement.sql

end Accelerator.Gateway
