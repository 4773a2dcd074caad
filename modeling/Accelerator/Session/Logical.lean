/-
`session.Logical`: the state categories the gateway records for every client, and the transitions a
classified statement makes on them.
-/
import Accelerator.Engine.Classify
import Accelerator.Upstream.Types
import Mathlib.Data.Finset.Basic
import Mathlib.Data.Finset.Card

namespace Accelerator.Session

open Strings Engine Upstream

inductive ReuseState where
  | multiplexable | replayable | pinned | poisoned
  deriving DecidableEq, Repr

inductive PinReason where
  | none | transaction | autocommitOff | prepared | userVariable | temporary | lock | poisoned
  deriving DecidableEq, Repr

structure Baseline where
  database : Text
  isolation : Text := []
  charset : Text
  collation : Text := []
  timeZone : Text := []
  sqlMode : Text := []
  deriving DecidableEq, Repr

structure Logical where
  baseline : Baseline
  database : Text
  autocommit : Bool
  inTransaction : Bool
  isolation : Text
  readOnly : Bool
  charset : Text
  collation : Text
  timeZone : Text
  sqlMode : Text
  warnings : Nat
  lastInsertID : Nat
  prepared : Finset UInt32
  userVariables : Bool
  temporaryState : Bool
  lockRisk : Bool
  poisoned : Bool
  deriving DecidableEq

namespace Logical

/-- `Logical.Reset`: everything but the baseline back to its first value. -/
def reset (s : Logical) : Logical where
  baseline := s.baseline
  database := s.baseline.database
  autocommit := true
  inTransaction := false
  isolation := s.baseline.isolation
  readOnly := false
  charset := s.baseline.charset
  collation := s.baseline.collation
  timeZone := s.baseline.timeZone
  sqlMode := s.baseline.sqlMode
  warnings := 0
  lastInsertID := 0
  prepared := ∅
  userVariables := false
  temporaryState := false
  lockRisk := false
  poisoned := false

/-- The zero `Logical` that `NewLogical` resets. -/
def zero (b : Baseline) : Logical where
  baseline := b
  database := []
  autocommit := false
  inTransaction := false
  isolation := []
  readOnly := false
  charset := []
  collation := []
  timeZone := []
  sqlMode := []
  warnings := 0
  lastInsertID := 0
  prepared := ∅
  userVariables := false
  temporaryState := false
  lockRisk := false
  poisoned := false

/-- `session.NewLogical`. -/
def new (b : Baseline) : Logical := (zero b).reset

/-- An error that wraps `ErrIllegalTransition`. -/
def illegal (what : String) : GoError :=
  ⟨.illegalTransition, lit "illegal logical session transition: " ++ lit what⟩

/-- `Logical.Apply`: the state after a statement, and the error if the transition is illegal. The
result of the previous statement is forgotten in any case. Every kind the classifier can produce has
its branch, so the branch for unknown kinds is never taken. -/
def apply (s : Logical) (kind : StatementKind) : Logical × Option GoError :=
  let s := { s with warnings := 0, lastInsertID := 0 }
  match kind with
  | .read | .write | .ddl | .warningCount => (s, none)
  | .begin =>
    if s.inTransaction then (s, some (illegal "transaction already active"))
    else ({ s with inTransaction := true }, none)
  | .commit | .rollback => ({ s with inTransaction := false }, none)
  | .savepoint => if s.inTransaction then (s, none) else (s, some (illegal "savepoint outside transaction"))
  | .autocommitOff => ({ s with autocommit := false }, none)
  | .autocommitOn => ({ s with autocommit := true, inTransaction := false }, none)
  | .setNames => ({ s with charset := text "utf8mb4" }, none)
  | .useDatabase => (s, none)
  | .empty => (s, some (illegal "empty"))
  | .unsupported => (s, some (illegal "unsupported"))

def selectDatabase (s : Logical) (database : Text) : Logical × Option GoError :=
  if database = [] then (s, some (illegal "database is empty")) else ({ s with database }, none)

def setResult (s : Logical) (warnings lastInsertID : Nat) : Logical := { s with warnings, lastInsertID }

def addPrepared (s : Logical) (id : UInt32) : Logical × Option GoError :=
  if id = 0 then (s, some (illegal "prepared statement id is zero"))
  else if id ∈ s.prepared then (s, some (illegal "prepared statement id already exists"))
  else ({ s with prepared := insert id s.prepared }, none)

def removePrepared (s : Logical) (id : UInt32) : Logical := { s with prepared := s.prepared.erase id }

def poison (s : Logical) : Logical := { s with poisoned := true }

/-- `Logical.Reuse`: whether the state can live on a shared connection, and why not. -/
def reuse (s : Logical) : ReuseState × PinReason :=
  if s.poisoned then (.poisoned, .poisoned)
  else if s.inTransaction then (.pinned, .transaction)
  else if !s.autocommit then (.pinned, .autocommitOff)
  else if s.prepared.card > 0 then (.pinned, .prepared)
  else if s.userVariables then (.pinned, .userVariable)
  else if s.temporaryState then (.pinned, .temporary)
  else if s.lockRisk then (.pinned, .lock)
  else if s.database ≠ s.baseline.database ∨ s.isolation ≠ s.baseline.isolation ∨ s.readOnly ∨
      s.charset ≠ s.baseline.charset ∨ s.collation ≠ s.baseline.collation ∨
      s.timeZone ≠ s.baseline.timeZone ∨ s.sqlMode ≠ s.baseline.sqlMode then (.replayable, .none)
  else (.multiplexable, .none)

/-- `Logical.Disconnect`. -/
def disconnect (s : Logical) : Logical := s.reset

/-! ## Facts about the transitions -/

@[simp] theorem apply_baseline (s : Logical) (k : StatementKind) : (s.apply k).1.baseline = s.baseline := by
  cases k <;> simp only [apply] <;> split <;> rfl

@[simp] theorem apply_prepared (s : Logical) (k : StatementKind) : (s.apply k).1.prepared = s.prepared := by
  cases k <;> simp only [apply] <;> split <;> rfl

@[simp] theorem apply_poisoned (s : Logical) (k : StatementKind) : (s.apply k).1.poisoned = s.poisoned := by
  cases k <;> simp only [apply] <;> split <;> rfl

/-- A begin is refused exactly inside a transaction. -/
theorem apply_begin (s : Logical) : (∃ e, (s.apply .begin).2 = some e ∧ s.inTransaction = true) ∨
    ((s.apply .begin).2 = none ∧ (s.apply .begin).1.inTransaction = true) := by
  cases h : s.inTransaction with
  | true => exact .inl ⟨illegal "transaction already active", by simp [apply, h], rfl⟩
  | false => exact .inr ⟨by simp [apply, h], by simp [apply, h]⟩

/-- A state with an open transaction or a live prepared handle is not reusable. -/
theorem reuse_of_pinned {s : Logical} (h : s.inTransaction = true ∨ s.prepared.Nonempty) :
    s.reuse.1 = .pinned ∨ s.reuse.1 = .poisoned := by
  unfold reuse
  split
  · exact .inr rfl
  · split
    · exact .inl rfl
    · split
      · exact .inl rfl
      · rcases h with h | h
        · contradiction
        · rw [if_pos (Finset.card_pos.2 h)]
          exact .inl rfl

end Logical

end Accelerator.Session
