/-
How a session comes by a connection: `Service.acquire` takes an admission token, waiting in the
bounded queue if it must, and `Service.checkout` (`gateway/reset.go`) takes a connection from the
pool and restores the baseline on it before anything else is sent there. A connection whose reset
fails is discarded, and one more is tried.
-/
import Accelerator.Gateway.Ops

namespace Accelerator.Gateway

open Interact Strings Upstream

/-! ## Admission -/

def errQueueFull : GoError := ⟨.queueFull, lit "accelerator request queue is full"⟩

/-- The wait in the queue: the deferred undo runs whatever the wait returns. -/
def awaitToken (requestBytes : Int) : M (Except GoError Unit) := do
  call (.addWaiting 1)
  let r ← call .awaitAdmission
  call (.addWaiting (-1))
  let _ ← call (.addQueuedBytes (-requestBytes))
  call .leaveQueue
  return r

/-- `Service.acquire`. On success the caller holds one token of the admission channel. -/
def acquire (svc : Service) (requestBytes : Int) : M (Except GoError Unit) := do
  if ← call .tryAdmission then return .ok ()
  else
    let requestBytes := if requestBytes < 0 then 0 else requestBytes
    if requestBytes > svc.maxQueuedBytes then return .error errQueueFull
    else
      if ← call .tryQueue then
        if requestBytes > 0 then
          let queued ← call (.addQueuedBytes requestBytes)
          if queued > svc.maxQueuedBytes then
            let _ ← call (.addQueuedBytes (-requestBytes))
            call .leaveQueue
            return .error errQueueFull
          else awaitToken requestBytes
        else awaitToken requestBytes
      else return .error errQueueFull

/-! ## The reset -/

def normalizeResetIsolation (value : Text) : Text :=
  join (fields (replaceAll (toUpper value) (text "-") (text " "))) (text " ")

def isolationLevels : List Text :=
  [text "READ UNCOMMITTED", text "READ COMMITTED", text "REPEATABLE READ", text "SERIALIZABLE"]

/-- `%q` of a printable text. -/
def quoted (value : Text) : Text :=
  text "\"" ++ replaceAll (replaceAll value (text "\\") (text "\\\\")) (text "\"") (text "\\\"") ++ text "\""

def resetIsolation (value : Text) : Except GoError Text :=
  if normalizeResetIsolation value ∈ isolationLevels then .ok (normalizeResetIsolation value)
  else .error ⟨.plain, lit "unsupported transaction isolation baseline " ++ toBytes (quoted value)⟩

def safeResetRune : Sym → Bool
  | .chr c => c == '_' || ('a' ≤ c && c ≤ 'z') || ('A' ≤ c && c ≤ 'Z') || ('0' ≤ c && c ≤ '9')
  | .bad _ => false

def safeResetIdentifier (value : Text) : Bool := !value.isEmpty && value.all safeResetRune

/-- The commands of `resetConnection`, in order. -/
def resetCommands (baseline : Metadata) (isolation : Text) : List ResetCommand :=
  [.rollback, .autocommit] ++
  (if baseline.database ≠ [] then [.useDatabase baseline.database] else []) ++
  [.setNames baseline.characterSet baseline.collation, .timeZone baseline.timeZone,
   .sqlMode baseline.sqlMode, .isolation isolation, .readWrite]

def requireNoResetWarnings (c : Conn) : M (Except GoError Unit) := do
  match ← call (.queryWarnings (.conn c)) with
  | .error e => return .error e
  | .ok warnings =>
    if warnings ≠ 0 then return .error ⟨.plain, lit s!"reset command returned {warnings} warnings"⟩
    else return .ok ()

def stageError (stage : Nat) (e : GoError) : GoError := e.wrap (lit s!"reset stage {stage}: ")

/-- The command loop. Warnings are not read after the first command, whose diagnostics may still be
those of the statement before. -/
def runResetCommands (c : Conn) (stage : Nat) : List ResetCommand → M (Except GoError Unit)
  | [] => return .ok ()
  | command :: rest => do
    match ← call (.resetExec c command) with
    | .error e => return .error (stageError (stage + 1) e)
    | .ok _ =>
      if stage > 0 then
        match ← requireNoResetWarnings c with
        | .error e => return .error (stageError (stage + 1) e)
        | .ok _ => runResetCommands c (stage + 1) rest
      else runResetCommands c (stage + 1) rest

/-- The isolation level of a connection, under whichever name the server knows it. -/
def readIsolation (c : Conn) : M (Except GoError Text) := do
  match ← call (.queryIsolation c .transactionIsolation) with
  | .ok level => return .ok level
  | .error e =>
    match e.cause with
    | .mysql 1193 _ _ => call (.queryIsolation c .txIsolation)
    | _ => return .error e

/-- The comparison at the end of `verifyReset`. -/
def matchesBaseline (baseline : Metadata) (row : SessionRow) (isolation : Text) : Bool :=
  row.database.getD [] = baseline.database && row.autocommit = 1 && row.charset = baseline.characterSet &&
  row.collation = baseline.collation && row.sqlMode = baseline.sqlMode && row.timeZone = baseline.timeZone &&
  normalizeResetIsolation isolation = normalizeResetIsolation baseline.transactionIsolation

def verifyReset (c : Conn) (baseline : Metadata) : M (Except GoError Unit) := do
  match ← call (.querySession c) with
  | .error e => return .error e
  | .ok row =>
    match ← readIsolation c with
    | .error e => return .error e
    | .ok isolation =>
      if matchesBaseline baseline row isolation then requireNoResetWarnings c
      else return .error (errorsNew "upstream session did not match the canonical baseline after reset")

def resetConnection (c : Conn) (baseline : Metadata) : M (Except GoError Unit) := do
  match resetIsolation baseline.transactionIsolation with
  | .error e => return .error e
  | .ok isolation =>
    if !safeResetIdentifier baseline.characterSet || !safeResetIdentifier baseline.collation then
      return .error (errorsNew "unsafe character baseline returned by upstream")
    else
      match ← runResetCommands c 0 (resetCommands baseline isolation) with
      | .error e => return .error e
      | .ok _ => verifyReset c baseline

/-- The attempts of `Service.checkout`. -/
def checkoutLoop (svc : Service) (lastError : GoError) : Nat → M (Except GoError Conn)
  | 0 => return .error (lastError.wrap (lit "reset upstream connection: "))
  | attempts + 1 => do
    match ← call .databaseConn with
    | .error e => checkoutLoop svc e attempts
    | .ok c =>
      match ← resetConnection c svc.baseline with
      | .ok _ => return .ok c
      | .error e =>
        call (.discardConn c)
        Prog.tell .resetDiscards
        checkoutLoop svc e attempts

/-- `Service.checkout`. -/
def checkout (svc : Service) : M (Except GoError Conn) := checkoutLoop svc (errorsNew "") 2

end Accelerator.Gateway
