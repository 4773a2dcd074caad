/-
The command loop of `Service.handleClient` (`gateway/gateway.go`) after authentication: a client
session is a process whose round reads one command and answers it, and whose cleanup is `close`.
-/
import Accelerator.Gateway.Prepared

namespace Accelerator.Gateway

open Interact Strings Engine Upstream Session

/-! ## The end of a session -/

/-- Roll the open transaction back, whatever comes of it. -/
def abandonTransaction : M Unit := do
  let s ← Prog.read
  match s.tx with
  | some tx =>
    let _ ← call (.rollback tx)
    Prog.modify fun s => { s with tx := none }
  | none => return

/-- `clientSession.close`. -/
def close : M Unit := do
  abandonTransaction
  cancelTransaction
  closeAllPrepared
  releasePinnedConnection true
  Prog.modify fun s => { s with state := s.state.disconnect }

/-! ## Commands -/

def commandQuit : UInt8 := 0x01
def commandInitDB : UInt8 := 0x02
def commandQuery : UInt8 := 0x03
def commandPing : UInt8 := 0x0e
def commandStmtPrepare : UInt8 := 0x16
def commandStmtExecute : UInt8 := 0x17
def commandStmtSendLongData : UInt8 := 0x18
def commandStmtClose : UInt8 := 0x19
def commandStmtReset : UInt8 := 0x1a
def commandStmtFetch : UInt8 := 0x1c

/-- The switch on the command byte; the arguments are the text after the byte, or the payload. -/
def dispatch (svc : Service) (command : UInt8) (rest : Bytes) : M (Except GoError Unit) := do
  if command = commandPing then writeOK 0 0 0
  else if command = commandInitDB then initDatabase svc (ofBytes rest)
  else if command = commandQuery then query svc (ofBytes rest)
  else if command = commandStmtPrepare then prepare svc (ofBytes rest)
  else if command = commandStmtExecute then executePrepared svc (command :: rest)
  else if command = commandStmtSendLongData then sendPreparedLongData (command :: rest)
  else if command = commandStmtClose then closePrepared (command :: rest)
  else if command = commandStmtReset then resetPrepared (command :: rest)
  else if command = commandStmtFetch then
    Prog.tell (.recordRejection (text "prepared_cursor"))
    writeError 1 1235 (lit "42000") (lit "prepared cursors are not supported in pooled mode")
  else
    Prog.tell (.recordRejection (text "unknown_command"))
    writeError 1 1047 (lit "08S01") (lit "command is not supported in pooled mode")

/-- The commands that have a handler. -/
def servedCommands : List UInt8 :=
  [commandPing, commandInitDB, commandQuery, commandStmtPrepare, commandStmtExecute, commandStmtSendLongData,
   commandStmtClose, commandStmtReset]

/-- What a command leads to. -/
theorem dispatch_cases {svc : Service} {rest : Bytes} {motive : UInt8 → M (Except GoError Unit) → Prop}
    (ping : motive commandPing (writeOK 0 0 0))
    (initDB : motive commandInitDB (initDatabase svc (ofBytes rest)))
    (query : motive commandQuery (query svc (ofBytes rest)))
    (prepare : motive commandStmtPrepare (prepare svc (ofBytes rest)))
    (execute : motive commandStmtExecute (executePrepared svc (commandStmtExecute :: rest)))
    (sendLongData : motive commandStmtSendLongData (sendPreparedLongData (commandStmtSendLongData :: rest)))
    (close : motive commandStmtClose (closePrepared (commandStmtClose :: rest)))
    (reset : motive commandStmtReset (resetPrepared (commandStmtReset :: rest)))
    (refused : ∀ command reason code state message, command ∉ servedCommands →
      motive command (Prog.tell (.recordRejection reason) >>= fun _ => writeError 1 code state message))
    (command : UInt8) : motive command (dispatch svc command rest) := by
  unfold dispatch
  refine iteInduction (fun h => by rw [h]; exact ping) fun hping => ?_
  refine iteInduction (fun h => by rw [h]; exact initDB) fun hinit => ?_
  refine iteInduction (fun h => by rw [h]; exact query) fun hquery => ?_
  refine iteInduction (fun h => by rw [h]; exact prepare) fun hprepare => ?_
  refine iteInduction (fun h => by rw [h]; exact execute) fun hexecute => ?_
  refine iteInduction (fun h => by rw [h]; exact sendLongData) fun hdata => ?_
  refine iteInduction (fun h => by rw [h]; exact close) fun hclose => ?_
  refine iteInduction (fun h => by rw [h]; exact reset) fun hreset => ?_
  have hother : command ∉ servedCommands := by
    simp [servedCommands, hping, hinit, hquery, hprepare, hexecute, hdata, hclose, hreset]
  exact iteInduction (fun _ => refused _ _ _ _ _ hother) fun _ => refused _ _ _ _ _ hother

/-- One round of the command loop: whether the session goes on. -/
def serveCommand (svc : Service) : M Bool := do
  match ← call .readMessage with
  | .error _ => return false
  | .ok message =>
    match message.payload with
    | [] => return false
    | command :: rest =>
      if message.sequence ≠ 0 ∨ command = commandQuit then return false
      else
        match ← dispatch svc command rest with
        | .ok _ => return true
        | .error _ => return false

/-- A client session. -/
def handleClient (svc : Service) : Process ClientSession Op Res Note where
  body := serveCommand svc
  cleanup := close

end Accelerator.Gateway
