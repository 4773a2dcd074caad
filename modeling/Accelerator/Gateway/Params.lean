/-
The parameters of prepared statements (`gateway/prepared.go`): the statement record, the arguments
of a COM_STMT_EXECUTE packet and their binary decoder. Reading outside a payload is a `panic`, which
is kept apart from the errors the decoder returns.
-/
import Accelerator.Upstream.Types
import Accelerator.Wire.Endian
import Mathlib.Algebra.Group.Int.Defs
import Mathlib.Algebra.Group.Nat.Defs
import Mathlib.Data.List.AList

namespace Accelerator.Gateway

open Strings Upstream

/-! ## Reading payloads -/

abbrev Checked := Except (Fault GoError)

/-- `errors.New(s)` as the result of a decoder. -/
def reject {α : Type} (s : String) : Checked α := .error (.error (errorsNew s))

/-- `binary.LittleEndian.UintN`. -/
def littleEndian (b : Bytes) : Nat := Wire.leNat b

/-- The two's complement reading of an unsigned value of `bits` bits. -/
def signed (bits n : Nat) : Int := if n < 2 ^ (bits - 1) then n else (n : Int) - 2 ^ bits

/-! ## Field types -/

def columnTypeDecimal : UInt8 := 0x00
def columnTypeTiny : UInt8 := 0x01
def columnTypeShort : UInt8 := 0x02
def columnTypeLong : UInt8 := 0x03
def columnTypeFloat : UInt8 := 0x04
def columnTypeDouble : UInt8 := 0x05
def columnTypeNull : UInt8 := 0x06
def columnTypeTimestamp : UInt8 := 0x07
def columnTypeLongLong : UInt8 := 0x08
def columnTypeInt24 : UInt8 := 0x09
def columnTypeDate : UInt8 := 0x0a
def columnTypeTime : UInt8 := 0x0b
def columnTypeDateTime : UInt8 := 0x0c
def columnTypeYear : UInt8 := 0x0d

/-! ## Calendar dates -/

/-- Days from 1970-01-01 to a date of the proleptic Gregorian calendar, months 1 to 12. -/
def daysFromCivil (year month day : Int) : Int :=
  let y := if month ≤ 2 then year - 1 else year
  let era := y / 400
  let yoe := y - era * 400
  let mp := if month > 2 then month - 3 else month + 9
  let doy := (153 * mp + 2) / 5 + day - 1
  era * 146097 + (yoe * 365 + yoe / 4 - yoe / 100 + doy) - 719468

/-- The date that many days after 1970-01-01. -/
def civilFromDays (days : Int) : Int × Int × Int :=
  let z := days + 719468
  let era := z / 146097
  let doe := z - era * 146097
  let yoe := (doe - doe / 1460 + doe / 36524 - doe / 146096) / 365
  let doy := doe - (365 * yoe + yoe / 4 - yoe / 100)
  let mp := (5 * doy + 2) / 153
  let month := if mp < 10 then mp + 3 else mp - 9
  (if month ≤ 2 then yoe + era * 400 + 1 else yoe + era * 400, month, doy - (153 * mp + 2) / 5 + 1)

/-- `time.Date` in UTC: fields outside their range carry into the next larger one. -/
def timeDate (year month day hour minute second nanosecond : Int) : Time :=
  let second := second + nanosecond / 1000000000
  let minute := minute + second / 60
  let hour := hour + minute / 60
  let days := daysFromCivil (year + (month - 1) / 12) ((month - 1) % 12 + 1) 1 + (day - 1) + hour / 24
  let (y, m, d) := civilFromDays days
  { year := y, month := m.toNat, day := d.toNat, hour := (hour % 24).toNat, minute := (minute % 60).toNat,
    second := (second % 60).toNat, nanosecond := (nanosecond % 1000000000).toNat }

example : timeDate 2024 2 30 24 0 0 1000000000 = ⟨2024, 3, 2, 0, 0, 1, 0⟩ := by decide

/-! ## Arguments -/

/-- An argument of an execute. `nil` is the nil interface, `bytes none` a nil byte slice. -/
inductive Argument where
  | nil
  | int (i : Int)
  | uint (n : Nat)
  | float32 (bits : Nat)
  | float64 (bits : Nat)
  | time (t : Time)
  | bytes (b : Option Bytes)
  deriving DecidableEq, Repr

/-- `append([]byte(nil), v...)`, which is the nil slice when `v` is empty. -/
def appendNil (v : Bytes) : Argument := .bytes (if v = [] then none else some v)

/-- What the driver binds as SQL NULL: nil, and a nil byte slice. -/
def Argument.isNull : Argument → Bool
  | .nil => true
  | .bytes none => true
  | _ => false

structure ParameterType where
  fieldType : UInt8
  unsigned : Bool
  deriving DecidableEq, Repr

/-- `preparedStatement`; the type array always has one entry for each parameter. -/
structure PreparedStatement where
  query : Text
  parameterCount : Nat
  parameterTypes : Fin parameterCount → ParameterType
  longData : AList fun _ : UInt16 => Bytes
  longDataBytes : Nat
  longDataError : Option GoError
  statement : Option Stmt
  transactionBound : Bool

def PreparedStatement.clearLongData (p : PreparedStatement) : PreparedStatement :=
  { p with longData := ∅, longDataBytes := 0, longDataError := none }

/-! ## Values -/

/-- An unsigned integer of `size` bytes at a position, and the position after it. -/
def readLength (payload : Bytes) (position size : Nat) (truncated : String) : Checked (Nat × Nat) :=
  if payload.length - position < size then reject truncated
  else do
    let b ← slice payload position (position + size)
    return (littleEndian b, position + size)

/-- The switch of `readPreparedLengthEncoded` on the first byte: the length and the position after
the prefix. -/
def lengthPrefix (payload : Bytes) (position : Nat) (first : UInt8) : Checked (Nat × Nat) :=
  if first = 0xfc then readLength payload position 2 "length-encoded uint16 is truncated"
  else if first = 0xfd then readLength payload position 3 "length-encoded uint24 is truncated"
  else if first = 0xfe then readLength payload position 8 "length-encoded uint64 is truncated"
  else if first ≥ 0xfb then reject "invalid length-encoded prefix"
  else .ok (first.toNat, position)

/-- `readPreparedLengthEncoded`: the bytes of a length-encoded value and the position after it. -/
def readPreparedLengthEncoded (payload : Bytes) (position : Nat) : Checked (Bytes × Nat) :=
  if position ≥ payload.length then reject "length-encoded value is truncated"
  else do
    let first ← index payload position
    let (length, position) ← lengthPrefix payload (position + 1) first
    if length > payload.length - position then reject "length-encoded bytes are truncated"
    else do
      let b ← slice payload position (position + length)
      return (b, position + length)

/-- The hour, minute and second of a temporal value of that length. -/
def readClock (payload : Bytes) (position length : Nat) : Checked (Nat × Nat × Nat) :=
  if length ≥ 7 then do
    let hour ← index payload (position + 4)
    let minute ← index payload (position + 5)
    let second ← index payload (position + 6)
    return (hour.toNat, minute.toNat, second.toNat)
  else .ok (0, 0, 0)

/-- The microseconds of a temporal value of that length. -/
def readMicroseconds (payload : Bytes) (position length : Nat) : Checked Nat :=
  if length = 11 then do
    let b ← slice payload (position + 7) (position + 11)
    return littleEndian b
  else .ok 0

/-- `decodePreparedDateTime`. -/
def decodePreparedDateTime (payload : Bytes) (position : Nat) : Checked (Argument × Nat) := do
  if position ≥ payload.length then reject "temporal length is truncated"
  else
    let length := (← index payload position).toNat
    let position := position + 1
    if length = 0 then return (.bytes (some (lit "0000-00-00")), position)
    else if (length ≠ 4 ∧ length ≠ 7 ∧ length ≠ 11) ∨ payload.length - position < length then
      reject "temporal value is malformed"
    else
      let year := littleEndian (← slice payload position (position + 2))
      let month := (← index payload (position + 2)).toNat
      let day := (← index payload (position + 3)).toNat
      let (hour, minute, second) ← readClock payload position length
      let microseconds ← readMicroseconds payload position length
      return (.time (timeDate year month day hour minute second (microseconds * 1000)), position + length)

/-- `fmt.Sprintf("%0wd", n)`. -/
def padded (width n : Nat) : Bytes :=
  let digits := lit (toString n)
  List.replicate (width - digits.length) 48 ++ digits

/-- The fraction of a TIME value of that length. -/
def readFraction (payload : Bytes) (position length : Nat) : Checked Bytes :=
  if length = 12 then do
    let b ← slice payload (position + 8) (position + 12)
    return lit "." ++ padded 6 (littleEndian b)
  else .ok []

/-- `decodePreparedTime`. -/
def decodePreparedTime (payload : Bytes) (position : Nat) : Checked (Argument × Nat) := do
  if position ≥ payload.length then reject "time length is truncated"
  else
    let length := (← index payload position).toNat
    let position := position + 1
    if length = 0 then return (.bytes (some (lit "00:00:00")), position)
    else if (length ≠ 8 ∧ length ≠ 12) ∨ payload.length - position < length then
      reject "time value is malformed"
    else
      let negative := (← index payload position) ≠ 0
      let days := littleEndian (← slice payload (position + 1) (position + 5))
      let hours := days * 24 + (← index payload (position + 5)).toNat
      let minute := (← index payload (position + 6)).toNat
      let second := (← index payload (position + 7)).toNat
      let fraction ← readFraction payload position length
      let value := padded 2 hours ++ lit ":" ++ padded 2 minute ++ lit ":" ++ padded 2 second ++ fraction
      return (.bytes (some (if negative then lit "-" ++ value else value)), position + length)

/-- The closure `require` of `decodePreparedParameter`. -/
def require (payload : Bytes) (position size : Nat) : Checked Bytes :=
  if payload.length - position < size then reject "value is truncated"
  else slice payload position (position + size)

/-- An integer parameter of `size` bytes. -/
def decodeInteger (payload : Bytes) (position size : Nat) (unsigned : Bool) : Checked (Argument × Nat) := do
  let raw := littleEndian (← require payload position size)
  return (if unsigned then .uint raw else .int (signed (8 * size) raw), position + size)

/-- `decodePreparedParameter`. -/
def decodePreparedParameter (payload : Bytes) (position : Nat) (type : ParameterType) :
    Checked (Argument × Nat) := do
  if type.fieldType = columnTypeNull then return (.nil, position)
  else if type.fieldType = columnTypeTiny then decodeInteger payload position 1 type.unsigned
  else if type.fieldType = columnTypeShort ∨ type.fieldType = columnTypeYear then
    decodeInteger payload position 2 type.unsigned
  else if type.fieldType = columnTypeLong ∨ type.fieldType = columnTypeInt24 then
    decodeInteger payload position 4 type.unsigned
  else if type.fieldType = columnTypeLongLong then decodeInteger payload position 8 type.unsigned
  else if type.fieldType = columnTypeFloat then
    let value ← require payload position 4
    return (.float32 (littleEndian value), position + 4)
  else if type.fieldType = columnTypeDouble then
    let value ← require payload position 8
    return (.float64 (littleEndian value), position + 8)
  else if type.fieldType = columnTypeDate ∨ type.fieldType = columnTypeDateTime ∨
      type.fieldType = columnTypeTimestamp then
    decodePreparedDateTime payload position
  else if type.fieldType = columnTypeTime then decodePreparedTime payload position
  else
    let (value, next) ← readPreparedLengthEncoded payload position
    return (appendNil value, next)

/-! ## The execute packet -/

/-- The error of parameter `i`. -/
def parameterError (i : Nat) : Fault GoError → Fault GoError
  | .error e => .error (e.wrap (lit s!"prepared parameter {i}: "))
  | .panic => .panic

/-- Parameter `i`, whose null bit is known: its value is nil, its long data, or read from a position
on. -/
def decodeArgument (p : PreparedStatement) (types : Fin p.parameterCount → ParameterType) (payload : Bytes)
    (i position : Nat) (null : Bool) : Checked (Argument × Nat) :=
  if null then .ok (.nil, position)
  else
    match p.longData.lookup (UInt16.ofNat i) with
    | some value => .ok (appendNil value, position)
    | none =>
      if hi : i < p.parameterCount then
        match decodePreparedParameter payload position (types ⟨i, hi⟩) with
        | .ok r => .ok r
        | .error f => .error (parameterError i f)
      else .error .panic

/-- The loop over the parameters `i`, `i + 1`, … from a position on. -/
def decodeFrom (p : PreparedStatement) (types : Fin p.parameterCount → ParameterType) (payload nulls : Bytes)
    (i position : Nat) : Nat → Checked (List Argument × Nat)
  | 0 => return ([], position)
  | more + 1 => do
    let bits ← index nulls (i / 8)
    let (argument, next) ← decodeArgument p types payload i position (bits.toNat.testBit (i % 8))
    let (rest, position) ← decodeFrom p types payload nulls (i + 1) next more
    return (argument :: rest, position)

/-- The types an execute uses: the array it brings, or the remembered one. -/
def readTypes (p : PreparedStatement) (payload : Bytes) (position : Nat) (newTypes : UInt8) :
    Checked ((Fin p.parameterCount → ParameterType) × Nat) :=
  if newTypes ≠ 0 then
    if h : payload.length < position + 2 * p.parameterCount then
      reject "prepared execute type array is truncated"
    else
      .ok (fun i =>
        ⟨payload[position + 2 * i.val], payload[position + 2 * i.val + 1] &&& 0x80 != 0⟩,
        position + 2 * p.parameterCount)
  else if ∃ i, (p.parameterTypes i).fieldType = 0 then
    reject "prepared execute omitted its first type array"
  else .ok (p.parameterTypes, position)

/-- The null bitmap, the types and the position of the first value. -/
def readHeader (p : PreparedStatement) (payload : Bytes) :
    Checked (Bytes × (Fin p.parameterCount → ParameterType) × Nat) :=
  let nullBytes := (p.parameterCount + 7) / 8
  if payload.length < 10 + nullBytes + 1 then reject "prepared execute null bitmap is truncated"
  else do
    let nulls ← slice payload 10 (10 + nullBytes)
    let newTypes ← index payload (10 + nullBytes)
    let (types, position) ← readTypes p payload (10 + nullBytes + 1) newTypes
    return (nulls, types, position)

/-- The values after the header. -/
def decodeValues (p : PreparedStatement) (types : Fin p.parameterCount → ParameterType) (payload nulls : Bytes)
    (position : Nat) : Checked (List Argument) := do
  let (arguments, position) ← decodeFrom p types payload nulls 0 position p.parameterCount
  if position ≠ payload.length then reject "prepared execute contains trailing value bytes"
  else return arguments

/-- `preparedStatement.decodeArguments`: the statement with the types it now remembers, and the
arguments. -/
def decodeArguments (p : PreparedStatement) (payload : Bytes) : PreparedStatement × Checked (List Argument) :=
  if p.parameterCount = 0 then (p, .ok [])
  else
    match readHeader p payload with
    | .error f => (p, .error f)
    | .ok (nulls, types, position) =>
      ({ p with parameterTypes := types }, decodeValues p types payload nulls position)

end Accelerator.Gateway
