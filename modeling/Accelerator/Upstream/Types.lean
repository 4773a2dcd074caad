/-
What the gateway handles of `database/sql` and of the MySQL driver: errors, connections,
transactions and statements, results and rows, and the server metadata captured at start-up. A
transaction knows the connection it was begun on, a statement the connection or transaction it was
prepared in; `lease` tells one checkout of a physical connection from the next.
-/
import Accelerator.Strings.Basic

namespace Accelerator.Upstream

open Strings

/-- The bytes of a string literal. -/
def lit (s : String) : Bytes := toBytes (text s)

/-! ## Errors -/

/-- What `errors.Is` and `errors.As` can find in an error. -/
inductive Cause where
  | txDone
  | mysql (number : Nat) (sqlState message : Bytes)
  | deadlineExceeded
  | canceled
  | queueFull
  | illegalTransition
  | plain
  deriving DecidableEq, Repr

/-- An error value: its cause and its text. -/
structure GoError where
  cause : Cause
  message : Bytes
  deriving DecidableEq, Repr

/-- `fmt.Errorf("...: %w", err)`: the cause stays, the text grows. -/
def GoError.wrap (pre : Bytes) (e : GoError) : GoError := { e with message := pre ++ e.message }

/-- `errors.New`. -/
def errorsNew (s : String) : GoError := ⟨.plain, lit s⟩

/-- How a Go function can fail: with an error it returns, or with a run-time panic. -/
inductive Fault (ε : Type) where
  | error (e : ε)
  | panic
  deriving DecidableEq, Repr

/-- `b[i]`. -/
def index {ε : Type} (b : Bytes) (i : Nat) : Except (Fault ε) UInt8 :=
  match b[i]? with
  | some x => .ok x
  | none => .error .panic

/-- `b[i:j]`. -/
def slice {ε : Type} (b : Bytes) (i j : Nat) : Except (Fault ε) Bytes :=
  if i ≤ j ∧ j ≤ b.length then .ok ((b.drop i).take (j - i)) else .error .panic

/-! ## Handles -/

/-- A `*sql.Conn`: one checkout of a physical connection. -/
structure Conn where
  physical : Nat
  lease : Nat
  deriving DecidableEq, Repr

/-- A `*sql.Tx`. -/
structure Tx where
  id : Nat
  conn : Conn
  deriving DecidableEq, Repr

/-- A `*sql.Stmt`: where it was prepared, and its text. -/
structure Stmt where
  conn : Conn
  tx : Option Tx
  query : Text
  deriving DecidableEq, Repr

/-- What a query can be sent through. -/
inductive Via where
  | conn (c : Conn)
  | tx (t : Tx)
  deriving DecidableEq, Repr

/-- The connection behind a query interface. -/
def Via.connection : Via → Conn
  | .conn c => c
  | .tx t => t.conn

/-- The transaction behind a query interface. -/
def Via.transaction : Via → Option Tx
  | .conn _ => none
  | .tx t => some t

/-- What a prepared statement runs through. -/
def Stmt.via (st : Stmt) : Via :=
  match st.tx with
  | some t => .tx t
  | none => .conn st.conn

theorem Stmt.transaction_via (st : Stmt) : st.via.transaction = st.tx := by
  obtain ⟨c, tx, q⟩ := st
  cases tx <;> rfl

/-! ## Results -/

/-- `sql.Result`; the errors of its two methods are discarded by the callers. -/
structure Result where
  rowsAffected : Int
  lastInsertId : Int
  deriving DecidableEq, Repr

/-- A calendar date and time of day, the fields of a `time.Time` in UTC. -/
@[ext]
structure Time where
  year : Int
  month : Nat
  day : Nat
  hour : Nat
  minute : Nat
  second : Nat
  nanosecond : Nat
  deriving DecidableEq, Repr

/-- A value the driver delivers for a column. A float carries the text `fmt.Sprint` gives it. -/
inductive Value where
  | null
  | bytes (b : Bytes)
  | string (b : Bytes)
  | time (t : Time)
  | bool (b : Bool)
  | int (i : Int)
  | uint (n : Nat)
  | float (sprint : Bytes)
  deriving DecidableEq, Repr

/-- `*sql.ColumnType`. -/
structure ColumnType where
  databaseTypeName : Text
  length : Option Int
  nullable : Option Bool
  decimalSize : Option (Int × Int)
  deriving DecidableEq, Repr

/-- A column of a result set. -/
structure Column where
  name : Text
  type : ColumnType
  deriving DecidableEq, Repr

/-- `*sql.Rows` together with all it is going to deliver: the columns, or the error of `Columns` or
`ColumnTypes`; the rows, each scanned or with the error of `Scan`; the error of `Err` and of
`Close`. -/
structure Rows where
  columns : Except GoError (List Column)
  rows : List (Except GoError (List Value))
  err : Option GoError
  closeErr : Option GoError

/-! ## Metadata -/

/-- The part of `upstream.Metadata` that a reset restores. -/
structure Metadata where
  database : Text
  characterSet : Text
  collation : Text
  sqlMode : Text
  timeZone : Text
  transactionIsolation : Text
  deriving DecidableEq, Repr

end Accelerator.Upstream
