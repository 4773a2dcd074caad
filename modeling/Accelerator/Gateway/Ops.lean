/-
The interface of a client session: the calls it makes (on its client, on the admission and queue
channels, on the connection pool and on upstream connections, transactions and statements), the
counters it advances, the packets it writes, and its own state. A handler is a program over this
interface; the replies to its calls are chosen by the environment.
-/
import Accelerator.Interact.Process
import Accelerator.Session.Logical
import Accelerator.Gateway.Columns

namespace Accelerator.Gateway

open Interact Strings Engine Upstream Session
open Protocol (ColumnDefinition Message)

/-! ## Packets -/

/-- The payloads of `protocol/mysql/response.go`, by their arguments. -/
inductive Packet where
  | ok (affectedRows lastInsertID : Nat) (status : UInt16) (warnings : Nat)
  | err (code : Nat) (sqlState message : Bytes)
  | eof (status : UInt16) (warnings : Nat)
  | columnCount (count : Nat)
  | columnDefinition (definition : ColumnDefinition)
  | textRow (cells : List (Option Bytes))
  | binaryRow (payload : Bytes)
  | prepareOK (id : UInt32) (columns parameters warnings : Nat)
  deriving DecidableEq, Repr

/-- The server status a packet carries. -/
def Packet.status? : Packet → Option UInt16
  | .ok _ _ status _ => some status
  | .eof status _ => some status
  | _ => none

/-- The OK packets. -/
def Packet.isOK : Packet → Bool
  | .ok .. => true
  | _ => false

/-! ## Reset commands -/

/-- A command of `resetConnection`. -/
inductive ResetCommand where
  | rollback
  | autocommit
  | useDatabase (database : Text)
  | setNames (charset collation : Text)
  | timeZone (value : Text)
  | sqlMode (value : Text)
  | isolation (level : Text)
  | readWrite
  deriving DecidableEq, Repr

def quoteResetIdentifier (value : Text) : Text :=
  text "`" ++ replaceAll value (text "`") (text "``") ++ text "`"

def quoteResetString (value : Text) : Text :=
  text "'" ++ replaceAll value (text "'") (text "''") ++ text "'"

/-- The text of a reset command. -/
def ResetCommand.text : ResetCommand → Text
  | .rollback => Strings.text "ROLLBACK"
  | .autocommit => Strings.text "SET autocommit=1"
  | .useDatabase database => Strings.text "USE " ++ quoteResetIdentifier database
  | .setNames charset collation => Strings.text "SET NAMES " ++ charset ++ Strings.text " COLLATE " ++ collation
  | .timeZone value => Strings.text "SET SESSION time_zone = " ++ quoteResetString value
  | .sqlMode value => Strings.text "SET SESSION sql_mode = " ++ quoteResetString value
  | .isolation level => Strings.text "SET SESSION TRANSACTION ISOLATION LEVEL " ++ level
  | .readWrite => Strings.text "SET SESSION TRANSACTION READ WRITE"

/-- The row of the verification query; `DATABASE()` may be NULL. -/
structure SessionRow where
  database : Option Text
  autocommit : Int
  charset : Text
  collation : Text
  sqlMode : Text
  timeZone : Text
  deriving DecidableEq, Repr

/-- The two spellings of the isolation variable. -/
inductive IsolationVariable where
  | transactionIsolation
  | txIsolation
  deriving DecidableEq, Repr

def IsolationVariable.query : IsolationVariable → Text
  | .transactionIsolation => Strings.text "SELECT @@transaction_isolation"
  | .txIsolation => Strings.text "SELECT @@tx_isolation"

def verifyQuery : Text :=
  text "SELECT DATABASE(), @@autocommit, @@character_set_connection, @@collation_connection, @@sql_mode, @@time_zone"

def warningsQuery : Text := text "SHOW COUNT(*) WARNINGS"

/-! ## Calls -/

inductive Op where
  -- the client
  | readMessage
  | writeMessage (sequence : UInt8) (packet : Packet)
  -- `Service.acquire` and its release
  | tryAdmission
  | tryQueue
  | addQueuedBytes (delta : Int)
  | addWaiting (delta : Int)
  | awaitAdmission
  | leaveQueue
  | releaseAdmission
  -- the pool
  | databaseConn
  | closeConn (c : Conn)
  | discardConn (c : Conn)
  -- the reset of a checked out connection
  | resetExec (c : Conn) (command : ResetCommand)
  | querySession (c : Conn)
  | queryIsolation (c : Conn) (name : IsolationVariable)
  -- statements
  | exec (on : Via) (query : Text)
  | query (on : Via) (query : Text)
  | queryWarnings (on : Via)
  | prepare (on : Via) (query : Text)
  -- transactions
  | beginTx (c : Conn)
  | commit (t : Tx)
  | rollback (t : Tx)
  | cancelTx
  -- prepared statements
  | txStmt (t : Tx) (statement : Stmt)
  | stmtExec (statement : Stmt) (arguments : List Argument)
  | stmtQuery (statement : Stmt) (arguments : List Argument)
  | stmtClose (statement : Stmt)
  -- the test hook, and a run-time panic
  | beforeCommitResponse
  | panic
  deriving DecidableEq

/-- The replies to a call. Nothing is ever returned from a panic. -/
abbrev Res : Op → Type
  | .readMessage => Except GoError Message
  | .writeMessage _ _ => Except GoError UInt8
  | .tryAdmission => Bool
  | .tryQueue => Bool
  | .addQueuedBytes _ => Int
  | .addWaiting _ => Unit
  | .awaitAdmission => Except GoError Unit
  | .leaveQueue => Unit
  | .releaseAdmission => Unit
  | .databaseConn => Except GoError Conn
  | .closeConn _ => Unit
  | .discardConn _ => Unit
  | .resetExec _ _ => Except GoError Unit
  | .querySession _ => Except GoError SessionRow
  | .queryIsolation _ _ => Except GoError Text
  | .exec _ _ => Except GoError Result
  | .query _ _ => Except GoError Rows
  | .queryWarnings _ => Except GoError Nat
  | .prepare _ _ => Except GoError Stmt
  | .beginTx _ => Except GoError Tx
  | .commit _ => Except GoError Unit
  | .rollback _ => Except GoError Unit
  | .cancelTx => Unit
  | .txStmt _ _ => Stmt
  | .stmtExec _ _ => Except GoError Result
  | .stmtQuery _ _ => Except GoError Rows
  | .stmtClose _ => Unit
  | .beforeCommitResponse => Except GoError Unit
  | .panic => Empty

/-- Updates of the service's counters and reason tables. -/
inductive Note where
  | pinned (delta : Int)
  | queryErrors
  | resetDiscards
  | commitGeneration
  | recordPin (reason : Text)
  | recordRejection (reason : Text)
  deriving DecidableEq, Repr

/-! ## The session -/

/-- `clientSession`. The two function fields are modelled by whether they are set: `txCancel` cancels
the transaction's context, `pinnedRelease` gives the pin's admission token back. -/
structure ClientSession where
  state : Logical
  tx : Option Tx
  txCancel : Bool
  pinnedConnection : Option Conn
  pinnedRelease : Bool
  prepared : AList fun _ : UInt32 => PreparedStatement
  nextPreparedID : UInt32

/-- What a session uses of the service: the configured database, the queue's byte limit, the
baseline of every connection, and the binary row encoder. -/
structure Service where
  database : Text
  maxQueuedBytes : Int
  baseline : Metadata
  binaryPreparedRow : List Value → List ColumnDefinition → List ColumnType → Except GoError Bytes

/-- A service over a database `app`. -/
def sampleService : Service where
  database := text "app"
  maxQueuedBytes := 1024
  baseline := ⟨text "app", text "utf8mb4", text "utf8mb4_bin", [], text "SYSTEM", text "REPEATABLE-READ"⟩
  binaryPreparedRow _ _ _ := .ok []

/-- The session `handleClient` creates after authentication. -/
def newSession (svc : Service) : ClientSession where
  state := .new { database := svc.database, charset := text "utf8mb4" }
  tx := none
  txCancel := false
  pinnedConnection := none
  pinnedRelease := false
  prepared := ∅
  nextPreparedID := 0

instance : Inhabited ClientSession := ⟨newSession sampleService⟩

/-- Handlers. -/
abbrev M := Prog ClientSession Op Res Note

/-- Make a call. -/
def call (o : Op) : M (Res o) := .perform o

end Accelerator.Gateway
