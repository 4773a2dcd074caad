/-
The execute packet as a format (`preparedStatement.decodeArguments`). `ExecutePacket` says which payloads
are well formed and which arguments they carry; the decoder accepts those and no others. A value is read
from the bytes at its position on and nothing else, so that the same values mean the same behind a type
array and behind the flag that asks for the remembered one, unless one of the remembered types is the byte
that stands for no type yet.
-/
import Accelerator.Gateway.BinaryValues

namespace Accelerator.Gateway

open Strings Upstream Wire

/-! ## Reading from a position on -/

section Anchored

variable {α β γ : Type}

/-- A position behind `k` more bytes. -/
def moved (k : Nat) (x : α × Nat) : α × Nat := (x.1, k + x.2)

/-- What is read at a position depends on the bytes from there on only. -/
def Anchored (f : Bytes → Nat → Checked (α × Nat)) : Prop :=
  ∀ before l i, f (before ++ l) (before.length + i) = (f l i).map (moved before.length)

variable (before l : Bytes) (i j : Nat)

theorem index_moved : (index (before ++ l) (before.length + i) : Checked UInt8) = index l i := by
  unfold index
  rw [List.getElem?_append_right (Nat.le_add_right _ _), Nat.add_sub_cancel_left]

theorem slice_moved :
    (slice (before ++ l) (before.length + i) (before.length + j) : Checked Bytes) = slice l i j := by
  unfold slice
  rw [drop_before, Nat.add_sub_add_left]
  refine if_congr ?_ rfl rfl
  rw [List.length_append]
  omega

theorem left_moved : (before ++ l).length - (before.length + i) = l.length - i := by
  rw [List.length_append, Nat.add_sub_add_left]

theorem behind_moved : before.length + i ≥ (before ++ l).length ↔ i ≥ l.length := by
  rw [List.length_append]
  omega

theorem map_bind (g : β → γ) (c : Checked α) (f : α → Checked β) :
    (c >>= f).map g = c >>= fun a => (f a).map g := by
  cases c <;> rfl

theorem bind_map (g : α → β) (c : Checked α) (f : β → Checked γ) : c.map g >>= f = c >>= fun a => f (g a) := by
  cases c <;> rfl

theorem map_reject (g : α → β) (s : String) : (reject s : Checked α).map g = reject s := rfl

theorem anchored_readLength (size : Nat) (truncated : String) :
    Anchored fun payload position => readLength payload position size truncated := by
  intro before l i
  simp only [readLength, Nat.add_assoc, left_moved, slice_moved, apply_ite (Except.map _), map_reject, map_bind]
  rfl

theorem anchored_lengthPrefix (first : UInt8) :
    Anchored fun payload position => lengthPrefix payload position first := by
  intro before l i
  have h := fun size truncated => anchored_readLength size truncated before l i
  simp only at h
  simp only [lengthPrefix, h, apply_ite (Except.map _), map_reject]
  rfl

theorem anchored_readPreparedLengthEncoded : Anchored readPreparedLengthEncoded := by
  intro before l i
  have h := fun first => anchored_lengthPrefix first before l (i + 1)
  simp only at h
  unfold readPreparedLengthEncoded
  simp only [behind_moved, index_moved, Nat.add_assoc, h, bind_map, moved, left_moved, slice_moved,
    apply_ite (Except.map _), map_reject, map_bind]
  rfl

theorem anchored_decodePreparedDateTime : Anchored decodePreparedDateTime := by
  intro before l i
  have hclock : ∀ k length, readClock (before ++ l) (before.length + k) length = readClock l k length := by
    intro k length
    simp only [readClock, Nat.add_assoc, index_moved]
  have hmicroseconds : ∀ k length,
      readMicroseconds (before ++ l) (before.length + k) length = readMicroseconds l k length := by
    intro k length
    simp only [readMicroseconds, Nat.add_assoc, slice_moved]
  unfold decodePreparedDateTime
  simp only [behind_moved, left_moved, index_moved, slice_moved, hclock, hmicroseconds, Nat.add_assoc,
    apply_ite (Except.map _), map_reject, map_bind]
  rfl

theorem anchored_decodePreparedTime : Anchored decodePreparedTime := by
  intro before l i
  have hfraction : ∀ k length, readFraction (before ++ l) (before.length + k) length = readFraction l k length := by
    intro k length
    simp only [readFraction, Nat.add_assoc, slice_moved]
  unfold decodePreparedTime
  simp only [behind_moved, left_moved, index_moved, slice_moved, hfraction, Nat.add_assoc,
    apply_ite (Except.map _), map_reject, map_bind]
  rfl

theorem require_moved (size : Nat) : require (before ++ l) (before.length + i) size = require l i size := by
  simp only [require, Nat.add_assoc, left_moved, slice_moved]

theorem anchored_decodeInteger (size : Nat) (unsigned : Bool) :
    Anchored fun payload position => decodeInteger payload position size unsigned := by
  intro before l i
  simp only [decodeInteger, require_moved, map_bind, Nat.add_assoc]
  rfl

theorem anchored_decodePreparedParameter (type : ParameterType) :
    Anchored fun payload position => decodePreparedParameter payload position type := by
  intro before l i
  have hinteger := fun size => anchored_decodeInteger size type.unsigned before l i
  simp only at hinteger
  simp only [decodePreparedParameter, hinteger, anchored_decodePreparedDateTime before l i,
    anchored_decodePreparedTime before l i, anchored_readPreparedLengthEncoded before l i, require_moved, Nat.add_assoc,
    apply_ite (Except.map _), map_bind, bind_map]
  rfl

variable {p : PreparedStatement} {types : Fin p.parameterCount → ParameterType}

theorem anchored_decodeArgument (parameter : Nat) (null : Bool) :
    Anchored fun payload position => decodeArgument p types payload parameter position null := by
  intro before l i
  have hvalue := fun type => anchored_decodePreparedParameter type before l i
  simp only at hvalue
  simp only [decodeArgument, hvalue]
  split
  · rfl
  split
  · rfl
  split
  · cases decodePreparedParameter l i (types ⟨parameter, _⟩) <;> rfl
  · rfl

/-- The loop over the parameters reads from its position on. -/
theorem anchored_decodeFrom (nulls : Bytes) (more : Nat) : ∀ parameter,
    Anchored fun payload position => decodeFrom p types payload nulls parameter position more := by
  induction more with
  | zero =>
    intro parameter before l i
    rfl
  | succ more ih =>
    intro parameter before l i
    have hargument := fun null => @anchored_decodeArgument p types parameter null before l i
    have hrest := fun next => ih (parameter + 1) before l next
    simp only at hargument hrest
    simp only [decodeFrom, hargument, bind_map, moved, hrest, map_bind]
    rfl

end Anchored

/-! ## The parts of a packet -/

section Parts

variable {p : PreparedStatement} {header nulls pairs values : Bytes}

/-- The types in an array of (type, flags) pairs. -/
def typesOf (n : Nat) (pairs : Bytes) (i : Fin n) : ParameterType :=
  ⟨byteAt pairs (2 * i), byteAt pairs (2 * i + 1) &&& 0x80 != 0⟩

/-- Some values and nothing behind them. -/
def decodeAll (p : PreparedStatement) (types : Fin p.parameterCount → ParameterType) (nulls values : Bytes) :
    Checked (List Argument) := do
  let (arguments, position) ← decodeFrom p types values nulls 0 0 p.parameterCount
  if position ≠ values.length then reject "prepared execute contains trailing value bytes" else return arguments

theorem decodeValues_eq (types : Fin p.parameterCount → ParameterType) (before nulls values : Bytes) :
    decodeValues p types (before ++ values) nulls before.length = decodeAll p types nulls values := by
  have h := @anchored_decodeFrom p types nulls p.parameterCount 0 before values 0
  simp only [Nat.add_zero] at h
  simp only [decodeValues, decodeAll, h, bind_map, moved, List.length_append, ne_eq, Nat.add_left_cancel_iff]

theorem readHeader_eq (hheader : header.length = 10) (hnulls : nulls.length = (p.parameterCount + 7) / 8) (flag : UInt8)
    (rest : Bytes) :
    readHeader p (header ++ (nulls ++ flag :: rest)) =
      (readTypes p (header ++ (nulls ++ flag :: rest)) (10 + (p.parameterCount + 7) / 8 + 1) flag).map
        fun x => (nulls, x.1, x.2) := by
  have hslice : (slice (header ++ (nulls ++ flag :: rest)) 10 (10 + (p.parameterCount + 7) / 8) : Checked Bytes) = .ok nulls := by
    rw [← hheader, ← hnulls]
    exact slice_before header nulls (flag :: rest)
  have hflag : (index (header ++ (nulls ++ flag :: rest)) (10 + (p.parameterCount + 7) / 8) : Checked UInt8) = .ok flag := by
    rw [← hheader, ← hnulls, index_moved]
    exact index_moved nulls (flag :: rest) 0
  unfold readHeader
  simp only
  rw [if_neg (by simp only [List.length_append, List.length_cons]; omega), hslice, hflag]
  rfl

/-- A packet that brings a type array. -/
theorem decodeArguments_array (hn : p.parameterCount ≠ 0) (hheader : header.length = 10)
    (hnulls : nulls.length = (p.parameterCount + 7) / 8) (hpairs : pairs.length = 2 * p.parameterCount) {flag : UInt8}
    (hflag : flag ≠ 0) :
    decodeArguments p (header ++ (nulls ++ flag :: (pairs ++ values))) =
      ({ p with parameterTypes := typesOf p.parameterCount pairs },
        decodeAll p (typesOf p.parameterCount pairs) nulls values) := by
  have hsplit : header ++ (nulls ++ flag :: (pairs ++ values)) = (header ++ (nulls ++ [flag])) ++ (pairs ++ values) := by
    simp
  have hlen : (header ++ (nulls ++ [flag])).length = 10 + (p.parameterCount + 7) / 8 + 1 := by
    simp [hheader, hnulls, Nat.add_assoc]
  have htypes : readTypes p (header ++ (nulls ++ flag :: (pairs ++ values))) (10 + (p.parameterCount + 7) / 8 + 1) flag =
      .ok (typesOf p.parameterCount pairs, 10 + (p.parameterCount + 7) / 8 + 1 + 2 * p.parameterCount) := by
    have hle : ¬(header ++ (nulls ++ flag :: (pairs ++ values))).length <
        10 + (p.parameterCount + 7) / 8 + 1 + 2 * p.parameterCount := by
      simp only [List.length_append, List.length_cons]
      omega
    have hbyte : ∀ k, k < 2 * p.parameterCount →
        byteAt (header ++ (nulls ++ flag :: (pairs ++ values))) (10 + (p.parameterCount + 7) / 8 + 1 + k) =
          byteAt pairs k := by
      intro k hk
      rw [hsplit, ← hlen, byteAt_before, byteAt, byteAt, List.getD_eq_getElem?_getD, List.getD_eq_getElem?_getD,
        List.getElem?_append_left (by omega)]
    unfold readTypes
    rw [if_pos hflag, dif_neg hle]
    refine congrArg (fun t => Except.ok (t, _)) (funext fun i => ?_)
    have hi := i.isLt
    simp only [typesOf]
    rw [← byteAt_eq, ← byteAt_eq, hbyte _ (by omega), Nat.add_assoc, hbyte _ (by omega)]
  have hvalues := decodeValues_eq (p := p) (typesOf p.parameterCount pairs) (header ++ (nulls ++ [flag]) ++ pairs) nulls
    values
  rw [List.length_append, hlen, hpairs, List.append_assoc, ← hsplit] at hvalues
  unfold decodeArguments
  rw [if_neg hn, readHeader_eq hheader hnulls, htypes]
  exact congrArg (Prod.mk _) hvalues

/-- A packet that asks for the remembered types. -/
theorem decodeArguments_remembered (hn : p.parameterCount ≠ 0) (hheader : header.length = 10)
    (hnulls : nulls.length = (p.parameterCount + 7) / 8) :
    decodeArguments p (header ++ (nulls ++ 0 :: values)) =
      (p, if ∃ i, (p.parameterTypes i).fieldType = 0 then reject "prepared execute omitted its first type array"
        else decodeAll p p.parameterTypes nulls values) := by
  have hsplit : header ++ (nulls ++ 0 :: values) = (header ++ (nulls ++ [0])) ++ values := by simp
  have hlen : (header ++ (nulls ++ [0])).length = 10 + (p.parameterCount + 7) / 8 + 1 := by
    simp [hheader, hnulls, Nat.add_assoc]
  have hvalues := decodeValues_eq (p := p) p.parameterTypes (header ++ (nulls ++ [0])) nulls values
  rw [hlen, ← hsplit] at hvalues
  unfold decodeArguments
  rw [if_neg hn, readHeader_eq hheader hnulls, readTypes, if_neg (by simp)]
  by_cases hzero : ∃ i, (p.parameterTypes i).fieldType = 0
  · rw [if_pos hzero, if_pos hzero]
    rfl
  · rw [if_neg hzero, if_neg hzero]
    exact congrArg (Prod.mk _) hvalues

end Parts

/-! ## Values on the wire -/

/-- Nil and empty byte slices are one value. -/
def Argument.filled : Argument → Argument
  | .bytes none => .bytes (some [])
  | a => a

theorem filled_appendNil (s : Bytes) : (appendNil s).filled = .bytes (some s) := by
  unfold appendNil
  split
  · rename_i h
    rw [h]
    rfl
  · rfl

/-- The integer some bytes encode, by their number and by the sign flag. -/
def integerOf (unsigned : Bool) (b : Bytes) : Argument :=
  if unsigned then .uint (littleEndian b) else .int (signed (8 * b.length) (littleEndian b))

/-- The bytes in front of a length-encoded string of that length. -/
inductive LengthHead (n : Nat) : Bytes → Prop where
  | byte {b : UInt8} : ¬b ≥ 0xfb → b.toNat = n → LengthHead n [b]
  | two {b : Bytes} : b.length = 2 → littleEndian b = n → LengthHead n (0xfc :: b)
  | three {b : Bytes} : b.length = 3 → littleEndian b = n → LengthHead n (0xfd :: b)
  | eight {b : Bytes} : b.length = 8 → littleEndian b = n → LengthHead n (0xfe :: b)

/-- The text of the duration that eight or twelve bytes encode. -/
def durationText (b : Bytes) : Bytes :=
  timeText (byteAt b 0 ≠ 0) (littleEndian ((b.drop 1).take 4) * 24 + (byteAt b 5).toNat) (byteAt b 6).toNat
    (byteAt b 7).toNat (if b.length = 12 then lit "." ++ padded 6 (littleEndian ((b.drop 8).take 4)) else [])

/-- How the values of a field type are laid out. -/
inductive Format where
  | null
  | integer (size : Nat)
  | float
  | double
  | date
  | time
  | string
  deriving DecidableEq, Repr

/-- The layout of a field type. Every type byte has one: those that are not listed are strings. -/
def format (fieldType : UInt8) : Format :=
  if fieldType = columnTypeNull then .null
  else if fieldType = columnTypeTiny then .integer 1
  else if fieldType = columnTypeShort ∨ fieldType = columnTypeYear then .integer 2
  else if fieldType = columnTypeLong ∨ fieldType = columnTypeInt24 then .integer 4
  else if fieldType = columnTypeLongLong then .integer 8
  else if fieldType = columnTypeFloat then .float
  else if fieldType = columnTypeDouble then .double
  else if fieldType = columnTypeDate ∨ fieldType = columnTypeDateTime ∨ fieldType = columnTypeTimestamp then .date
  else if fieldType = columnTypeTime then .time
  else .string

/-- The values of a layout: their bytes and the argument these encode. Which time the fields of a date and a
time of day stand for, if any, is left to `calendar`. -/
inductive WireValue (calendar : Time → Time → Prop) (unsigned : Bool) : Format → Bytes → Argument → Prop where
  | null : WireValue calendar unsigned .null [] .nil
  | integer {size : Nat} {b : Bytes} : b.length = size →
      WireValue calendar unsigned (.integer size) b (integerOf unsigned b)
  | float {b : Bytes} : b.length = 4 → WireValue calendar unsigned .float b (.float32 (littleEndian b))
  | double {b : Bytes} : b.length = 8 → WireValue calendar unsigned .double b (.float64 (littleEndian b))
  | zeroDate : WireValue calendar unsigned .date [0] (.bytes (some (lit "0000-00-00")))
  | date {length : UInt8} {b : Bytes} {t : Time} : length ∈ [4, 7, 11] → b.length = length.toNat →
      calendar (encodedTime (length :: b) 0) t → WireValue calendar unsigned .date (length :: b) (.time t)
  | zeroTime : WireValue calendar unsigned .time [0] (.bytes (some (lit "00:00:00")))
  | time {length : UInt8} {b : Bytes} : length ∈ [8, 12] → b.length = length.toNat →
      WireValue calendar unsigned .time (length :: b) (.bytes (some (durationText b)))
  | string {head s : Bytes} : LengthHead s.length head →
      WireValue calendar unsigned .string (head ++ s) (.bytes (some s))

/-- The decoder takes from the front of a list what is a value there, and nothing else. -/
def Takes (f : Bytes → Nat → Checked (Argument × Nat)) (G : Bytes → Argument → Prop) : Prop :=
  ∀ l n a, (∃ a', f l 0 = .ok (a', n) ∧ a'.filled = a) ↔ n ≤ l.length ∧ G (l.take n) a

section Takes

/-- Fields stand for what `time.Date` makes of them. -/
def goDate (t t' : Time) : Prop := t' = normalised t

variable {unsigned : Bool}

/-- The values of a layout of fixed size. -/
theorem takes_sized {f : Bytes → Nat → Checked (Argument × Nat)} {size : Nat} {value : Bytes → Argument}
    {G : Bytes → Argument → Prop}
    (hf : ∀ l, f l 0 = if l.length < size then reject "value is truncated" else .ok (value (l.take size), size))
    (hvalue : ∀ b, (value b).filled = value b) (hG : ∀ b a, G b a ↔ b.length = size ∧ a = value b) : Takes f G := by
  intro l n a
  rw [hf, hG]
  split
  · rename_i hlt
    constructor
    · rintro ⟨a', h, -⟩
      cases h
    · rintro ⟨hn, hlen, -⟩
      rw [List.length_take] at hlen
      omega
  · rename_i hle
    constructor
    · rintro ⟨a', h, ha⟩
      cases h
      exact ⟨by omega, List.length_take_of_le (by omega), by rw [← ha, hvalue]⟩
    · rintro ⟨hn, hlen, rfl⟩
      rw [List.length_take_of_le hn] at hlen
      subst hlen
      exact ⟨_, rfl, hvalue _⟩

theorem require_zero (l : Bytes) (size : Nat) :
    require l 0 size = if l.length < size then reject "value is truncated" else .ok (l.take size) := by
  unfold require
  rw [Nat.sub_zero]
  split
  · rfl
  · rw [Nat.zero_add, slice_eq (Nat.zero_le _) (by omega)]
    rfl

theorem takes_decodeInteger (size : Nat) :
    Takes (fun l i => decodeInteger l i size unsigned) (WireValue goDate unsigned (.integer size)) := by
  refine @takes_sized _ size
    (fun b => if unsigned then .uint (littleEndian b) else .int (signed (8 * size) (littleEndian b))) _
    (fun l => ?_) (fun b => by cases unsigned <;> rfl) fun b a => ?_
  · unfold decodeInteger
    rw [require_zero]
    split
    · rfl
    · simp only [bind, Except.bind, pure, Except.pure, Nat.zero_add]
  · constructor
    · intro h
      cases h with
      | integer h => exact ⟨h, by rw [← h]; rfl⟩
    · rintro ⟨rfl, rfl⟩
      exact .integer rfl

theorem takes_float : Takes (fun l i => do return (Argument.float32 (littleEndian (← require l i 4)), i + 4))
    (WireValue goDate unsigned .float) := by
  refine @takes_sized _ 4 (fun b => .float32 (littleEndian b)) _ (fun l => ?_) (fun _ => rfl) fun b a => ?_
  · simp only [require_zero]
    split <;> rfl
  · constructor
    · intro h
      cases h with
      | float h => exact ⟨h, rfl⟩
    · rintro ⟨h, rfl⟩
      exact .float h

theorem takes_double : Takes (fun l i => do return (Argument.float64 (littleEndian (← require l i 8)), i + 8))
    (WireValue goDate unsigned .double) := by
  refine @takes_sized _ 8 (fun b => .float64 (littleEndian b)) _ (fun l => ?_) (fun _ => rfl) fun b a => ?_
  · simp only [require_zero]
    split <;> rfl
  · constructor
    · intro h
      cases h with
      | double h => exact ⟨h, rfl⟩
    · rintro ⟨h, rfl⟩
      exact .double h

/-! A value with its length in front is read from as many bytes as that, and what follows does not matter. -/

theorem byteAt_take {l : Bytes} {i n : Nat} (h : i < n) : byteAt (l.take n) i = byteAt l i := by
  unfold byteAt
  rw [List.getD_eq_getElem?_getD, List.getD_eq_getElem?_getD, List.getElem?_take_of_lt h]

theorem slice_take {l : Bytes} {i k n : Nat} (h : i + k ≤ n) : ((l.take n).drop i).take k = (l.drop i).take k := by
  rw [List.drop_take, List.take_take, Nat.min_eq_left (by omega)]

theorem encodedTime_take {length : UInt8} (hlen : length ∈ [4, 7, 11]) (rest : Bytes) :
    encodedTime (length :: rest.take length.toNat) 0 = encodedTime (length :: rest) 0 := by
  have hbyte : ∀ i, i < length.toNat → byteAt (length :: rest.take length.toNat) (0 + 1 + i) =
      byteAt (length :: rest) (0 + 1 + i) := by
    intro i hi
    rw [← List.take_succ_cons, byteAt_take (by omega)]
  have hslice : ∀ i k, i + k ≤ length.toNat → ((length :: rest.take length.toNat).drop (0 + 1 + i)).take k =
      ((length :: rest).drop (0 + 1 + i)).take k := by
    intro i k hk
    rw [← List.take_succ_cons, slice_take (by omega)]
  have hfirst : ∀ l : Bytes, byteAt (length :: l) 0 = length := fun _ => rfl
  have hyear := hslice 0 2
  simp only [List.mem_cons, List.not_mem_nil, or_false] at hlen
  unfold encodedTime
  simp only [hfirst]
  rcases hlen with rfl | rfl | rfl
  · rw [hbyte 2 (by decide), hbyte 3 (by decide), hyear (by decide)]
    rfl
  · rw [hbyte 2 (by decide), hbyte 3 (by decide), hbyte 4 (by decide), hbyte 5 (by decide), hbyte 6 (by decide),
      hyear (by decide)]
    rfl
  · rw [hbyte 2 (by decide), hbyte 3 (by decide), hbyte 4 (by decide), hbyte 5 (by decide), hbyte 6 (by decide),
      hyear (by decide), hslice 7 4 (by decide)]

theorem durationText_take {length : UInt8} (hlen : length ∈ [8, 12]) {rest : Bytes} (hle : length.toNat ≤ rest.length) :
    durationText (rest.take length.toNat) = timeText (byteAt rest 0 ≠ 0)
      (littleEndian ((rest.drop 1).take 4) * 24 + (byteAt rest 5).toNat) (byteAt rest 6).toNat (byteAt rest 7).toNat
      (if length = 12 then lit "." ++ padded 6 (littleEndian ((rest.drop 8).take 4)) else []) := by
  have hbig : 8 ≤ length.toNat := by
    simp only [List.mem_cons, List.not_mem_nil, or_false] at hlen
    rcases hlen with rfl | rfl <;> decide
  unfold durationText
  rw [byteAt_take (by omega), byteAt_take (by omega), byteAt_take (by omega), byteAt_take (by omega),
    slice_take (by omega), List.length_take_of_le hle]
  simp only [List.mem_cons, List.not_mem_nil, or_false] at hlen
  rcases hlen with rfl | rfl
  · rfl
  · rw [slice_take (by decide)]
    rfl

theorem take_eq_cons {b x : UInt8} {l bs : Bytes} {n : Nat} (h : (b :: l).take n = x :: bs) :
    b = x ∧ ∃ k, n = k + 1 ∧ l.take k = bs := by
  cases n with
  | zero => cases h
  | succ k =>
    rw [List.take_succ_cons, List.cons.injEq] at h
    exact ⟨h.1, k, rfl, h.2⟩

/-- The values that have their length in front, with a short form for the zero value. -/
theorem takes_counted {f : Bytes → Nat → Checked (Argument × Nat)} {lengths : List UInt8} {zero : Argument}
    {value : Bytes → Argument} {G : Bytes → Argument → Prop} (hnil : ∃ e, f [] 0 = .error e)
    (hzero : ∀ rest, f (0 :: rest) 0 = .ok (zero, 1))
    (hok : ∀ length rest, length ∈ lengths → length.toNat ≤ rest.length →
      f (length :: rest) 0 = .ok (value (length :: rest.take length.toNat), length.toNat + 1))
    (hbad : ∀ length rest, length ≠ 0 → ¬(length ∈ lengths ∧ length.toNat ≤ rest.length) →
      ∃ e, f (length :: rest) 0 = .error e)
    (hfilled : zero.filled = zero) (hfilled' : ∀ b, (value b).filled = value b)
    (hG : ∀ b a, G b a ↔ b = [0] ∧ a = zero ∨
      ∃ length rest, b = length :: rest ∧ length ∈ lengths ∧ rest.length = length.toNat ∧ a = value b) : Takes f G := by
  intro l n a
  rw [hG]
  cases l with
  | nil =>
    obtain ⟨e, he⟩ := hnil
    rw [he]
    constructor
    · rintro ⟨a', h, -⟩
      cases h
    · rintro ⟨-, ⟨h, -⟩ | ⟨length, rest, h, -⟩⟩ <;> simp at h
  | cons length rest =>
    constructor
    · rintro ⟨a', h, rfl⟩
      by_cases hz : length = 0
      · rw [hz, hzero] at h
        cases h
        exact ⟨by simp, .inl ⟨by rw [hz]; rfl, hfilled⟩⟩
      by_cases hmem : length ∈ lengths ∧ length.toNat ≤ rest.length
      · rw [hok length rest hmem.1 hmem.2] at h
        cases h
        refine ⟨by rw [List.length_cons]; omega, .inr ⟨length, rest.take length.toNat, rfl, hmem.1, ?_, hfilled' _⟩⟩
        exact List.length_take_of_le hmem.2
      · obtain ⟨e, he⟩ := hbad length rest hz hmem
        rw [he] at h
        cases h
    · rintro ⟨hn, ⟨h, rfl⟩ | ⟨length', rest', h, hmem, hlen, rfl⟩⟩
      · obtain ⟨rfl, k, rfl, hk⟩ := take_eq_cons h
        have hk := congrArg List.length hk
        rw [List.length_take_of_le (by simpa using hn)] at hk
        exact ⟨_, by rw [hzero, hk]; rfl, hfilled⟩
      · obtain ⟨rfl, k, rfl, rfl⟩ := take_eq_cons h
        rw [List.length_take_of_le (by simpa using hn)] at hlen
        subst hlen
        exact ⟨_, hok length rest hmem (by simpa using hn), hfilled' _⟩

theorem takes_decodePreparedDateTime :
    Takes decodePreparedDateTime (WireValue goDate unsigned .date) := by
  refine @takes_counted _ [4, 7, 11] _ (fun b => .time (normalised (encodedTime b 0))) _
    ⟨_, rfl⟩ (fun rest => rfl) (fun length rest hmem hle => ?_) (fun length rest hz hbad => ?_) rfl (fun _ => rfl)
    fun b a => ?_
  · have hholds : HoldsTemporal (length :: rest) 0 := ⟨by simp, hmem, by
      show 0 + 1 + length.toNat ≤ (length :: rest).length
      rw [List.length_cons]
      omega⟩
    rw [decodePreparedDateTime_eq hholds, encodedTime_take hmem]
    exact congrArg (fun n => Except.ok (_, n)) (by
      show 0 + 1 + length.toNat = _
      omega)
  · unfold decodePreparedDateTime
    refine ⟨.error (errorsNew "temporal value is malformed"), ?_⟩
    have hpos : length.toNat ≠ 0 := fun h => hz (UInt8.toNat_inj.1 h)
    rw [if_neg (by simp), index_eq (by simp)]
    simp only [bind, Except.bind]
    show (if length.toNat = 0 then _ else _) = _
    rw [if_neg hpos, if_pos]
    · rfl
    · show (length.toNat ≠ 4 ∧ length.toNat ≠ 7 ∧ length.toNat ≠ 11) ∨ (length :: rest).length - (0 + 1) < length.toNat
      rw [List.length_cons]
      simp only [List.mem_cons, List.not_mem_nil, or_false, ← UInt8.toNat_inj, UInt8.reduceToNat] at hbad
      omega
  · constructor
    · intro h
      cases h with
      | zeroDate => exact .inl ⟨rfl, rfl⟩
      | date hmem hlen ht =>
        cases ht
        exact .inr ⟨_, _, rfl, hmem, hlen, rfl⟩
    · rintro (⟨rfl, rfl⟩ | ⟨length, rest, rfl, hmem, hlen, rfl⟩)
      · exact .zeroDate
      · exact .date hmem hlen rfl

theorem takes_decodePreparedTime : Takes decodePreparedTime (WireValue goDate unsigned .time) := by
  refine @takes_counted _ [8, 12] _ (fun b => .bytes (some (durationText b.tail))) _
    ⟨_, rfl⟩ (fun rest => rfl) (fun length rest hmem hle => ?_) (fun length rest hz hbad => ?_) rfl (fun _ => rfl)
    fun b a => ?_
  · have h := @decodePreparedTime_before [] _ _ (by simpa using hmem) hle
    rw [List.tail_cons, durationText_take hmem hle]
    exact h.trans (congrArg (fun n => Except.ok (_, n)) (by rw [List.length_nil]; omega))
  · unfold decodePreparedTime
    refine ⟨.error (errorsNew "time value is malformed"), ?_⟩
    have hpos : length.toNat ≠ 0 := fun h => hz (UInt8.toNat_inj.1 h)
    rw [if_neg (by simp), index_eq (by simp)]
    simp only [bind, Except.bind]
    show (if length.toNat = 0 then _ else _) = _
    rw [if_neg hpos, if_pos]
    · rfl
    · show (length.toNat ≠ 8 ∧ length.toNat ≠ 12) ∨ (length :: rest).length - (0 + 1) < length.toNat
      rw [List.length_cons]
      simp only [List.mem_cons, List.not_mem_nil, or_false, ← UInt8.toNat_inj, UInt8.reduceToNat] at hbad
      omega
  · constructor
    · intro h
      cases h with
      | zeroTime => exact .inl ⟨rfl, rfl⟩
      | time hmem hlen => exact .inr ⟨_, _, rfl, hmem, hlen, rfl⟩
    · rintro (⟨rfl, rfl⟩ | ⟨length, rest, rfl, hmem, hlen, rfl⟩)
      · exact .zeroTime
      · exact .time hmem hlen

/-! ### Length-encoded strings -/

theorem readLength_ok {first : UInt8} {rest : Bytes} {size m k : Nat} {truncated : String} :
    readLength (first :: rest) 1 size truncated = .ok (m, k) ↔
      size ≤ rest.length ∧ k = size + 1 ∧ littleEndian (rest.take size) = m := by
  unfold readLength
  rw [List.length_cons, Nat.add_sub_cancel]
  split
  · rename_i hlt
    constructor
    · intro h
      cases h
    · rintro ⟨hle, -⟩
      omega
  · rename_i hle
    rw [slice_eq (by omega) (by rw [List.length_cons]; omega), Nat.add_sub_cancel_left, List.drop_succ_cons, List.drop_zero]
    constructor
    · intro h
      cases h
      exact ⟨by omega, by omega, rfl⟩
    · rintro ⟨-, rfl, rfl⟩
      rw [Nat.add_comm 1 size]
      rfl

theorem lengthHead_two {m : Nat} {b : Bytes} : LengthHead m (0xfc :: b) ↔ b.length = 2 ∧ littleEndian b = m :=
  ⟨fun h => by cases h with
    | byte h => exact absurd (by decide) h
    | two h h' => exact ⟨h, h'⟩, fun h => .two h.1 h.2⟩

theorem lengthHead_three {m : Nat} {b : Bytes} : LengthHead m (0xfd :: b) ↔ b.length = 3 ∧ littleEndian b = m :=
  ⟨fun h => by cases h with
    | byte h => exact absurd (by decide) h
    | three h h' => exact ⟨h, h'⟩, fun h => .three h.1 h.2⟩

theorem lengthHead_eight {m : Nat} {b : Bytes} : LengthHead m (0xfe :: b) ↔ b.length = 8 ∧ littleEndian b = m :=
  ⟨fun h => by cases h with
    | byte h => exact absurd (by decide) h
    | eight h h' => exact ⟨h, h'⟩, fun h => .eight h.1 h.2⟩

theorem lengthHead_byte {m : Nat} {first : UInt8} {b : Bytes} (h₁ : first ≠ 0xfc) (h₂ : first ≠ 0xfd)
    (h₃ : first ≠ 0xfe) : LengthHead m (first :: b) ↔ ¬first ≥ 0xfb ∧ b = [] ∧ first.toNat = m := by
  constructor
  · intro h
    cases h with
    | byte h h' => exact ⟨h, rfl, h'⟩
    | two => exact absurd rfl h₁
    | three => exact absurd rfl h₂
    | eight => exact absurd rfl h₃
  · rintro ⟨h, rfl, h'⟩
    exact .byte h h'

/-- A length with a byte in front that gives its size. -/
theorem readLength_head {first : UInt8} {rest : Bytes} {size m k : Nat} {truncated : String}
    (hhead : ∀ b, LengthHead m (first :: b) ↔ b.length = size ∧ littleEndian b = m) :
    readLength (first :: rest) 1 size truncated = .ok (m, k) ↔
      k ≤ (first :: rest).length ∧ LengthHead m ((first :: rest).take k) := by
  rw [readLength_ok]
  constructor
  · rintro ⟨hle, rfl, hm⟩
    exact ⟨by rw [List.length_cons]; omega, (hhead _).2 ⟨List.length_take_of_le hle, hm⟩⟩
  · rintro ⟨hk, h⟩
    cases k with
    | zero => cases h
    | succ k =>
      rw [List.length_cons] at hk
      obtain ⟨hlen, hm⟩ := (hhead _).1 h
      rw [List.length_take_of_le (by omega)] at hlen
      subst hlen
      exact ⟨by omega, rfl, hm⟩

theorem lengthPrefix_ok {first : UInt8} {rest : Bytes} {m k : Nat} :
    lengthPrefix (first :: rest) 1 first = .ok (m, k) ↔
      k ≤ (first :: rest).length ∧ LengthHead m ((first :: rest).take k) := by
  unfold lengthPrefix
  split
  · rename_i h
    subst h
    exact readLength_head fun _ => lengthHead_two
  split
  · rename_i h
    subst h
    exact readLength_head fun _ => lengthHead_three
  split
  · rename_i h
    subst h
    exact readLength_head fun _ => lengthHead_eight
  rename_i h₁ h₂ h₃
  split
  · rename_i hge
    constructor
    · intro h
      cases h
    · rintro ⟨-, h⟩
      cases k with
      | zero => cases h
      | succ k => exact absurd hge ((lengthHead_byte h₁ h₂ h₃).1 h).1
  · rename_i hlt
    constructor
    · intro h
      cases h
      exact ⟨by simp, .byte hlt rfl⟩
    · rintro ⟨hk, h⟩
      cases k with
      | zero => cases h
      | succ k =>
        obtain ⟨-, hnil, hm⟩ := (lengthHead_byte h₁ h₂ h₃).1 h
        have hlen := congrArg List.length hnil
        rw [List.length_take_of_le (by simpa using hk)] at hlen
        rw [hm, hlen]
        rfl

theorem readPreparedLengthEncoded_ok {l s : Bytes} {n : Nat} :
    readPreparedLengthEncoded l 0 = .ok (s, n) ↔
      n ≤ l.length ∧ ∃ head, LengthHead s.length head ∧ l.take n = head ++ s := by
  cases l with
  | nil =>
    constructor
    · intro h
      cases h
    · rintro ⟨-, head, hhead, h⟩
      rw [List.take_nil] at h
      rw [(List.append_eq_nil_iff.1 h.symm).1] at hhead
      cases hhead
  | cons first rest =>
    have hfirst : (index (first :: rest) 0 : Checked UInt8) = .ok first := rfl
    unfold readPreparedLengthEncoded
    rw [if_neg (by simp), hfirst]
    simp only [bind, Except.bind, Nat.zero_add]
    constructor
    · intro h
      cases hhead₁ : lengthPrefix (first :: rest) 1 first with
      | error e =>
        rw [hhead₁] at h
        cases h
      | ok x =>
        obtain ⟨m, k⟩ := x
        obtain ⟨hk, hhead⟩ := lengthPrefix_ok.1 hhead₁
        rw [hhead₁] at h
        simp only at h
        split at h
        · cases h
        · rename_i hle
          rw [slice_eq (by omega) (by omega), Nat.add_sub_cancel_left] at h
          cases h
          have hlen : (((first :: rest).drop k).take m).length = m := by
            rw [List.length_take_of_le (by rw [List.length_drop]; omega)]
          refine ⟨by omega, (first :: rest).take k, by rwa [hlen], List.take_add⟩
    · rintro ⟨hn, head, hhead, hsplit⟩
      have hlen := congrArg List.length hsplit
      rw [List.length_take_of_le hn, List.length_append] at hlen
      have htake : (first :: rest).take head.length = head := by
        have h := congrArg (List.take head.length) hsplit
        rwa [List.take_take, Nat.min_eq_left (by omega), List.take_left] at h
      have hdrop : ((first :: rest).drop head.length).take s.length = s := by
        have h := congrArg (List.drop head.length) hsplit
        rwa [List.drop_take, List.drop_left, show n - head.length = s.length by omega] at h
      have hhead₁ : lengthPrefix (first :: rest) 1 first = .ok (s.length, head.length) :=
        lengthPrefix_ok.2 ⟨by omega, by rwa [htake]⟩
      rw [hhead₁]
      simp only
      rw [if_neg (by omega), slice_eq (by omega) (by omega), Nat.add_sub_cancel_left, hdrop, hlen]
      rfl

theorem takes_string : Takes (fun l i => do
      let x ← readPreparedLengthEncoded l i
      return (appendNil x.1, x.2)) (WireValue goDate unsigned .string) := by
  intro l n a
  constructor
  · rintro ⟨a', h, rfl⟩
    cases hread : readPreparedLengthEncoded l 0 with
    | error e =>
      simp only [hread] at h
      cases h
    | ok x =>
      simp only [hread] at h
      cases h
      obtain ⟨hn, head, hhead, hsplit⟩ := readPreparedLengthEncoded_ok.1 hread
      refine ⟨hn, ?_⟩
      rw [hsplit, filled_appendNil]
      exact .string hhead
  · rintro ⟨hn, h⟩
    generalize hb : l.take n = b at h
    cases h with
    | @string head s hhead =>
      simp only [readPreparedLengthEncoded_ok.2 ⟨hn, head, hhead, hb⟩]
      exact ⟨_, rfl, filled_appendNil s⟩

/-- The decoder and the format are chosen by the same tests. -/
theorem takes_ite {c : Prop} [Decidable c] {unsigned : Bool} {f g : Bytes → Nat → Checked (Argument × Nat)}
    {F G : Format} (hf : Takes f (WireValue goDate unsigned F)) (hg : Takes g (WireValue goDate unsigned G)) :
    Takes (fun l i => if c then f l i else g l i) (WireValue goDate unsigned (if c then F else G)) := by
  split_ifs
  · exact hf
  · exact hg

theorem takes_null : Takes (fun _ i => .ok (.nil, i)) (WireValue goDate unsigned .null) := by
  intro l n a
  constructor
  · rintro ⟨a', h, rfl⟩
    cases h
    exact ⟨Nat.zero_le _, .null⟩
  · rintro ⟨hn, h⟩
    generalize hb : l.take n = b at h
    cases h with
    | null =>
      have hlen := congrArg List.length hb
      rw [List.length_take_of_le hn] at hlen
      exact ⟨.nil, by rw [hlen]; rfl, rfl⟩

/-- A value is accepted where one of its type stands, and is what these bytes encode. -/
theorem takes_decodePreparedParameter (type : ParameterType) :
    Takes (fun l i => decodePreparedParameter l i type) (WireValue goDate type.unsigned (format type.fieldType)) := by
  unfold decodePreparedParameter format
  refine takes_ite takes_null <| takes_ite ?_ <| takes_ite ?_ <| takes_ite ?_ <| takes_ite ?_ <| takes_ite ?_ <|
    takes_ite ?_ <| takes_ite ?_ <| takes_ite ?_ ?_
  · exact takes_decodeInteger 1
  · exact takes_decodeInteger 2
  · exact takes_decodeInteger 4
  · exact takes_decodeInteger 8
  · exact takes_float
  · exact takes_double
  · exact takes_decodePreparedDateTime
  · exact takes_decodePreparedTime
  · exact takes_string

end Takes

/-! ## Packets -/

section Packets

/-- The values of some parameters in a row, from parameter `i` on. -/
inductive WireValues (parameter : Nat → Bytes → Argument → Prop) : Nat → Bytes → List Argument → Prop where
  | nil (i : Nat) : WireValues parameter i [] []
  | cons {i : Nat} {b bs : Bytes} {a : Argument} {as : List Argument} : parameter i b a →
      WireValues parameter (i + 1) bs as → WireValues parameter i (b ++ bs) (a :: as)

/-- The null bit of parameter `i` in a bitmap. -/
def bitmapBit (nulls : Bytes) (i : Nat) : Bool := (byteAt nulls (i / 8)).toNat.testBit (i % 8)

/-- Parameter `i` of a packet: the bytes it takes, and its argument. -/
inductive WireParameter (calendar : Time → Time → Prop) (long : Nat → Option Bytes) (nulls pairs : Bytes) (i : Nat) :
    Bytes → Argument → Prop where
  | null : bitmapBit nulls i = true → WireParameter calendar long nulls pairs i [] .nil
  | long {value : Bytes} : bitmapBit nulls i = false → long i = some value →
      WireParameter calendar long nulls pairs i [] (.bytes (some value))
  | value {b : Bytes} {a : Argument} : bitmapBit nulls i = false → long i = none →
      WireValue calendar (byteAt pairs (2 * i + 1) &&& 0x80 != 0) (format (byteAt pairs (2 * i))) b a →
      WireParameter calendar long nulls pairs i b a

/-- The execute packets of a statement with `n` parameters that bring a type array: ten bytes of header, the
null bitmap, the flag, the pairs of a type and its flags, and the values, with nothing behind them. -/
inductive ExecutePacket (calendar : Time → Time → Prop) (long : Nat → Option Bytes) (n : Nat) :
    Bytes → List Argument → Prop where
  | mk {header nulls pairs values : Bytes} {flag : UInt8} {arguments : List Argument} : header.length = 10 →
      nulls.length = (n + 7) / 8 → flag ≠ 0 → pairs.length = 2 * n → arguments.length = n →
      WireValues (WireParameter calendar long nulls pairs) 0 values arguments →
      ExecutePacket calendar long n (header ++ (nulls ++ flag :: (pairs ++ values))) arguments

/-- The long data the decoder finds for parameter `i`, which it looks up by the number's last 16 bits. -/
def PreparedStatement.found (p : PreparedStatement) (i : Nat) : Option Bytes := p.longData.lookup (UInt16.ofNat i)

variable {p : PreparedStatement} {nulls pairs : Bytes}

theorem takes_decodeArgument {i : Nat} (hi : i < p.parameterCount) :
    Takes (fun l position => decodeArgument p (typesOf p.parameterCount pairs) l i position (bitmapBit nulls i))
      (WireParameter goDate p.found nulls pairs i) := by
  intro l n a
  have hempty : ∀ {a' : Argument}, n ≤ l.length → l.take n = [] → (.ok (a', 0) : Checked (Argument × Nat)) = .ok (a', n) := by
    intro a' hn hb
    have hlen := congrArg List.length hb
    rw [List.length_take_of_le hn] at hlen
    rw [hlen]
    rfl
  unfold decodeArgument
  cases hbit : bitmapBit nulls i with
  | true =>
    simp only [if_true]
    constructor
    · rintro ⟨a', h, rfl⟩
      cases h
      exact ⟨Nat.zero_le _, .null hbit⟩
    · rintro ⟨hn, h⟩
      generalize hb : l.take n = b at h
      cases h with
      | null => exact ⟨.nil, hempty hn hb, rfl⟩
      | long h => rw [hbit] at h; cases h
      | value h => rw [hbit] at h; cases h
  | false =>
    simp only [Bool.false_eq_true, if_false]
    cases hlong : p.longData.lookup (UInt16.ofNat i) with
    | some value =>
      simp only
      constructor
      · rintro ⟨a', h, rfl⟩
        cases h
        rw [filled_appendNil]
        exact ⟨Nat.zero_le _, .long hbit hlong⟩
      · rintro ⟨hn, h⟩
        generalize hb : l.take n = b at h
        cases h with
        | null h => rw [hbit] at h; cases h
        | long _ h =>
          rw [PreparedStatement.found, hlong] at h
          cases h
          exact ⟨_, hempty hn hb, filled_appendNil value⟩
        | value _ h => rw [PreparedStatement.found, hlong] at h; cases h
    | none =>
      have htakes := takes_decodePreparedParameter (typesOf p.parameterCount pairs ⟨i, hi⟩) l n a
      simp only [dif_pos hi] at htakes ⊢
      constructor
      · rintro ⟨a', h, rfl⟩
        cases hvalue : decodePreparedParameter l 0 (typesOf p.parameterCount pairs ⟨i, hi⟩) with
        | error f => rw [hvalue] at h; cases h
        | ok r =>
          rw [hvalue] at h
          cases h
          obtain ⟨hn, hw⟩ := htakes.1 ⟨_, hvalue, rfl⟩
          exact ⟨hn, .value hbit hlong hw⟩
      · rintro ⟨hn, h⟩
        generalize l.take n = b at h htakes
        cases h with
        | null h => rw [hbit] at h; cases h
        | long _ h => rw [PreparedStatement.found, hlong] at h; cases h
        | value _ _ hw =>
          obtain ⟨a', h, ha⟩ := htakes.2 ⟨hn, hw⟩
          exact ⟨a', by rw [h], ha⟩

/-- The loop accepts the values of the remaining parameters. -/
theorem decodeFrom_ok (hnulls : nulls.length = (p.parameterCount + 7) / 8) (more : Nat) {i n : Nat} {l : Bytes}
    {as : List Argument} (hm : i + more = p.parameterCount) :
    (∃ as', decodeFrom p (typesOf p.parameterCount pairs) l nulls i 0 more = .ok (as', n) ∧ as'.map Argument.filled = as) ↔
      n ≤ l.length ∧ as.length = more ∧ WireValues (WireParameter goDate p.found nulls pairs) i (l.take n) as := by
  -- on the parameters that are left; the bytes are always those from the current position on
  induction more generalizing i n l as with
  | zero =>
    constructor
    · rintro ⟨as', h, rfl⟩
      cases h
      exact ⟨Nat.zero_le _, rfl, .nil i⟩
    · rintro ⟨hn, hlen, h⟩
      rw [List.length_eq_zero_iff] at hlen
      subst hlen
      generalize hb : l.take n = b at h
      cases h
      have hlen := congrArg List.length hb
      rw [List.length_take_of_le hn] at hlen
      exact ⟨[], by rw [hlen]; rfl, rfl⟩
  | succ more ih =>
    have hi : i < p.parameterCount := by omega
    have hindex : (index nulls (i / 8) : Checked UInt8) = .ok (byteAt nulls (i / 8)) := index_eq (by omega)
    have htakes := @takes_decodeArgument p nulls pairs i hi l
    have hmoved : ∀ next, next ≤ l.length → decodeFrom p (typesOf p.parameterCount pairs) l nulls (i + 1) next more =
        (decodeFrom p (typesOf p.parameterCount pairs) (l.drop next) nulls (i + 1) 0 more).map (moved next) := by
      intro next hnext
      have h := @anchored_decodeFrom p (typesOf p.parameterCount pairs) nulls more (i + 1) (l.take next)
        (l.drop next) 0
      simp only [List.take_append_drop, List.length_take_of_le hnext, Nat.add_zero] at h
      exact h
    unfold decodeFrom
    rw [hindex]
    have hbit : (byteAt nulls (i / 8)).toNat.testBit (i % 8) = bitmapBit nulls i := rfl
    simp only [bind, Except.bind, hbit]
    constructor
    · rintro ⟨as', h, rfl⟩
      cases hfirst : decodeArgument p (typesOf p.parameterCount pairs) l i 0 (bitmapBit nulls i) with
      | error f =>
        rw [hfirst] at h
        cases h
      | ok x =>
        obtain ⟨a, next⟩ := x
        obtain ⟨hnext, ha⟩ := (htakes next a.filled).1 ⟨a, hfirst, rfl⟩
        rw [hfirst] at h
        simp only [hmoved next hnext] at h
        cases hrest : decodeFrom p (typesOf p.parameterCount pairs) (l.drop next) nulls (i + 1) 0 more with
        | error f =>
          rw [hrest] at h
          cases h
        | ok y =>
          obtain ⟨rest, k⟩ := y
          obtain ⟨hk, hlen, hvalues⟩ := (ih (by omega)).1 ⟨rest, hrest, rfl⟩
          rw [hrest] at h
          cases h
          rw [List.length_drop] at hk
          refine ⟨by simp only [moved]; omega, by simpa [moved] using hlen, ?_⟩
          rw [moved, List.take_add]
          exact .cons ha hvalues
    · rintro ⟨hn, hlen, h⟩
      generalize hb : l.take n = b at h
      cases h with
      | nil => cases hlen
      | @cons _ b bs a as ha hvalues =>
        have hsum := congrArg List.length hb
        rw [List.length_take_of_le hn, List.length_append] at hsum
        have htake : l.take b.length = b := by
          have h := congrArg (List.take b.length) hb
          rwa [List.take_take, Nat.min_eq_left (by omega), List.take_left] at h
        have hdrop : (l.drop b.length).take bs.length = bs := by
          have h := congrArg (List.drop b.length) hb
          rwa [List.drop_take, List.drop_left, show n - b.length = bs.length by omega] at h
        obtain ⟨a', hfirst, rfl⟩ := (htakes b.length a).2 ⟨by omega, by rwa [htake]⟩
        obtain ⟨rest, hrest, rfl⟩ := (ih (i := i + 1) (l := l.drop b.length) (n := bs.length) (by omega)).2
          ⟨by rw [List.length_drop]; omega, by simpa using hlen, by rwa [hdrop]⟩
        refine ⟨a' :: rest, ?_, rfl⟩
        simp only at hfirst
        simp only [hfirst, hmoved b.length (by omega), hrest, Except.map, moved]
        rw [hsum]
        rfl

/-- A payload that is long enough for a type array. -/
theorem exists_parts {payload : Bytes} {k m : Nat} (h : 10 + k + 1 + m ≤ payload.length) :
    ∃ header nulls flag pairs values, payload = header ++ (nulls ++ flag :: (pairs ++ values)) ∧ header.length = 10 ∧
      nulls.length = k ∧ pairs.length = m ∧ payload[10 + k]? = some flag := by
  have hflag : 10 + k < payload.length := by omega
  refine ⟨payload.take 10, (payload.drop 10).take k, payload[10 + k], (payload.drop (10 + k + 1)).take m,
    (payload.drop (10 + k + 1)).drop m, ?_, ?_, ?_, ?_, List.getElem?_eq_getElem hflag⟩
  · rw [List.take_append_drop, List.getElem_cons_drop, ← List.drop_drop, List.take_append_drop, List.take_append_drop]
  · exact List.length_take_of_le (by omega)
  · exact List.length_take_of_le (by rw [List.length_drop]; omega)
  · exact List.length_take_of_le (by rw [List.length_drop]; omega)

/-- A payload that is too short for the null bitmap. -/
theorem decodeArguments_truncated (hn : p.parameterCount ≠ 0) {payload : Bytes}
    (hlen : payload.length < 10 + (p.parameterCount + 7) / 8 + 1) :
    decodeArguments p payload = (p, reject "prepared execute null bitmap is truncated") := by
  unfold decodeArguments readHeader
  rw [if_neg hn]
  simp only [if_pos hlen]
  rfl

/-- A payload that is too short for the type array it announces. -/
theorem decodeArguments_short (hn : p.parameterCount ≠ 0) {payload : Bytes} (hflag : payload[flagPosition p]? ≠ some 0)
    (hlen : payload.length < 10 + (p.parameterCount + 7) / 8 + 1 + 2 * p.parameterCount) :
    ∃ e, (decodeArguments p payload).2 = .error e := by
  by_cases hshort : payload.length < 10 + (p.parameterCount + 7) / 8 + 1
  · rw [decodeArguments_truncated hn hshort]
    exact ⟨_, rfl⟩
  · obtain ⟨header, nulls, flag, pairs, values, rfl, hheader, hnulls, hpairs, hat⟩ :=
      exists_parts (k := (p.parameterCount + 7) / 8) (m := 0) (Nat.le_of_not_lt hshort)
    have hne : flag ≠ 0 := by
      rintro rfl
      exact hflag hat
    refine ⟨.error (errorsNew "prepared execute type array is truncated"), ?_⟩
    unfold decodeArguments
    rw [if_neg hn, readHeader_eq hheader hnulls, readTypes, if_pos hne, dif_pos hlen]
    rfl

/-- The decoder accepts the packets of the format and no others, and takes the arguments from them. -/
theorem decodeArguments_ok (hn : p.parameterCount ≠ 0) {payload : Bytes} (hflag : payload[flagPosition p]? ≠ some 0)
    {as : List Argument} :
    (∃ as', (decodeArguments p payload).2 = .ok as' ∧ as'.map Argument.filled = as) ↔
      ExecutePacket goDate p.found p.parameterCount payload as := by
  -- the check behind the loop leaves no bytes over
  have hall : ∀ {nulls pairs values : Bytes}, nulls.length = (p.parameterCount + 7) / 8 →
      ((∃ as', decodeAll p (typesOf p.parameterCount pairs) nulls values = .ok as' ∧ as'.map Argument.filled = as) ↔
        as.length = p.parameterCount ∧ WireValues (WireParameter goDate p.found nulls pairs) 0 values as) := by
    intro nulls pairs values hnulls
    have hloop := @decodeFrom_ok p nulls pairs hnulls p.parameterCount 0 values.length values as (Nat.zero_add _)
    rw [List.take_length] at hloop
    unfold decodeAll
    constructor
    · rintro ⟨as', h, has⟩
      cases hfrom : decodeFrom p (typesOf p.parameterCount pairs) values nulls 0 0 p.parameterCount with
      | error f =>
        rw [hfrom] at h
        cases h
      | ok x =>
        obtain ⟨arguments, position⟩ := x
        rw [hfrom] at h
        simp only [bind, Except.bind] at h
        split at h
        · cases h
        · rename_i hposition
          cases h
          rw [not_not.1 hposition] at hfrom
          exact (hloop.1 ⟨as', hfrom, has⟩).2
    · rintro ⟨hlen, hvalues⟩
      obtain ⟨as', hfrom, has⟩ := hloop.2 ⟨Nat.le_refl _, hlen, hvalues⟩
      refine ⟨as', ?_, has⟩
      rw [hfrom]
      simp only [bind, Except.bind, ne_eq, not_true_eq_false, if_false]
      rfl
  constructor
  · rintro ⟨as', h, has⟩
    by_cases hlen : 10 + (p.parameterCount + 7) / 8 + 1 + 2 * p.parameterCount ≤ payload.length
    · obtain ⟨header, nulls, flag, pairs, values, rfl, hheader, hnulls, hpairs, hat⟩ := exists_parts hlen
      have hne : flag ≠ 0 := by
        rintro rfl
        exact hflag hat
      rw [decodeArguments_array hn hheader hnulls hpairs hne] at h
      obtain ⟨hlen, hvalues⟩ := (hall hnulls).1 ⟨as', h, has⟩
      exact .mk hheader hnulls hne hpairs hlen hvalues
    · obtain ⟨e, he⟩ := decodeArguments_short hn hflag (by omega)
      rw [he] at h
      cases h
  · rintro ⟨hheader, hnulls, hflag', hpairs, hlen, hvalues⟩
    rw [decodeArguments_array hn hheader hnulls hpairs hflag']
    exact (hall hnulls).2 ⟨hlen, hvalues⟩

/-- A packet of which the parts are known. -/
theorem executePacket_iff {calendar : Time → Time → Prop} {long : Nat → Option Bytes} {n : Nat}
    {header nulls pairs values : Bytes} {flag : UInt8} {as : List Argument} (hheader : header.length = 10)
    (hnulls : nulls.length = (n + 7) / 8) (hpairs : pairs.length = 2 * n) :
    ExecutePacket calendar long n (header ++ (nulls ++ flag :: (pairs ++ values))) as ↔
      flag ≠ 0 ∧ as.length = n ∧ WireValues (WireParameter calendar long nulls pairs) 0 values as := by
  constructor
  · intro h
    generalize hpayload : header ++ (nulls ++ flag :: (pairs ++ values)) = payload at h
    obtain ⟨hheader', hnulls', hflag, hpairs', hlen, hvalues⟩ := h
    have hrest := (List.append_inj hpayload (hheader.trans hheader'.symm)).2
    obtain ⟨rfl, htail⟩ := List.append_inj hrest (hnulls.trans hnulls'.symm)
    obtain ⟨rfl, hbody⟩ := List.cons.inj htail
    obtain ⟨rfl, rfl⟩ := List.append_inj hbody (hpairs.trans hpairs'.symm)
    exact ⟨hflag, hlen, hvalues⟩
  · rintro ⟨hflag, hlen, hvalues⟩
    exact .mk hheader hnulls hflag hpairs hlen hvalues

/-! ## Exactness -/

/-- The long data of parameter `i`. Only the numbers below 65536 can be sent with a chunk. -/
def PreparedStatement.longDataAt (p : PreparedStatement) (i : Nat) : Option Bytes :=
  if i < 65536 then p.longData.lookup (UInt16.ofNat i) else none

/-- Fields stand for themselves, and only where they are a date of the calendar and a time of day. -/
def properDate (t t' : Time) : Prop := IsCalendar t ∧ t' = t

/-- Fields stand for themselves, whatever they are. -/
def fieldDate (t t' : Time) : Prop := t' = t

theorem goDate_of_proper {t t' : Time} (h : properDate t t') : goDate t t' := by
  obtain ⟨hcal, rfl⟩ := h
  exact (timeDate_eq hcal).symm

section Mono

variable {calendar calendar' : Time → Time → Prop} {long long' : Nat → Option Bytes} {n : Nat}

theorem WireValue.mono {unsigned : Bool} {layout : Format} {b : Bytes} {a : Argument}
    (h : WireValue calendar unsigned layout b a) (hcal : ∀ t t', a = .time t' → calendar t t' → calendar' t t') :
    WireValue calendar' unsigned layout b a := by
  cases h with
  | null => exact .null
  | integer h => exact .integer h
  | float h => exact .float h
  | double h => exact .double h
  | zeroDate => exact .zeroDate
  | date hmem hlen ht => exact .date hmem hlen (hcal _ _ rfl ht)
  | zeroTime => exact .zeroTime
  | time hmem hlen => exact .time hmem hlen
  | string h => exact .string h

theorem WireValues.mono {P P' : Nat → Bytes → Argument → Prop} {i : Nat} {b : Bytes} {as : List Argument}
    (h : WireValues P i b as) (hP : ∀ j, j < i + as.length → ∀ b, ∀ a ∈ as, P j b a → P' j b a) :
    WireValues P' i b as := by
  induction h with
  | nil i => exact .nil i
  | @cons i b bs a as hfirst _ ih =>
    rw [List.length_cons] at hP
    refine .cons (hP i (by omega) b a List.mem_cons_self hfirst) (ih fun j hj b a ha => ?_)
    exact hP j (by omega) b a (List.mem_cons_of_mem _ ha)

theorem ExecutePacket.mono {payload : Bytes} {as : List Argument} (h : ExecutePacket calendar long n payload as)
    (hcal : ∀ t t', .time t' ∈ as → calendar t t' → calendar' t t') (hlong : ∀ i < n, long i = long' i) :
    ExecutePacket calendar' long' n payload as := by
  obtain ⟨hheader, hnulls, hflag, hpairs, hlen, hvalues⟩ := h
  refine .mk hheader hnulls hflag hpairs hlen (hvalues.mono fun i hi b a ha h => ?_)
  have hl := hlong i (by omega)
  cases h with
  | null hbit => exact .null hbit
  | long hbit h => exact .long hbit (hl ▸ h)
  | value hbit h hvalue => exact .value hbit (hl ▸ h) (hvalue.mono fun t t' hat => hcal t t' (hat ▸ ha))

/-- What `time.Date` makes of an argument. -/
def Argument.normalise : Argument → Argument
  | .time t => .time (normalised t)
  | a => a

theorem WireValue.fields {unsigned : Bool} {layout : Format} {b : Bytes} {a : Argument}
    (h : WireValue goDate unsigned layout b a) : ∃ a', WireValue fieldDate unsigned layout b a' ∧ a = a'.normalise := by
  cases h with
  | null => exact ⟨_, .null, rfl⟩
  | integer h =>
    refine ⟨_, .integer h, ?_⟩
    unfold integerOf
    split <;> rfl
  | float h => exact ⟨_, .float h, rfl⟩
  | double h => exact ⟨_, .double h, rfl⟩
  | zeroDate => exact ⟨_, .zeroDate, rfl⟩
  | date hmem hlen ht => exact ⟨_, .date hmem hlen rfl, congrArg Argument.time ht⟩
  | zeroTime => exact ⟨_, .zeroTime, rfl⟩
  | time hmem hlen => exact ⟨_, .time hmem hlen, rfl⟩
  | string h => exact ⟨_, .string h, rfl⟩

theorem WireValues.fields {as : List Argument} {nulls pairs b : Bytes} {i : Nat}
    (h : WireValues (WireParameter goDate long nulls pairs) i b as) :
    ∃ fields, WireValues (WireParameter fieldDate long nulls pairs) i b fields ∧ as = fields.map Argument.normalise := by
  induction h with
  | nil i => exact ⟨[], .nil i, rfl⟩
  | @cons i b bs a as hfirst _ ih =>
    obtain ⟨fields, hfields, rfl⟩ := ih
    suffices hvalue : ∃ a', WireParameter fieldDate long nulls pairs i b a' ∧ a = a'.normalise by
      obtain ⟨a', ha', rfl⟩ := hvalue
      exact ⟨a' :: fields, .cons ha' hfields, rfl⟩
    cases hfirst with
    | null hbit => exact ⟨.nil, .null hbit, rfl⟩
    | long hbit hl => exact ⟨_, .long hbit hl, rfl⟩
    | value hbit hl hvalue =>
      obtain ⟨a', ha', rfl⟩ := hvalue.fields
      exact ⟨a', .value hbit hl ha', rfl⟩

/-- A packet that is accepted is one of the format with the fields as they are. -/
theorem ExecutePacket.fields {payload : Bytes} {as : List Argument} (h : ExecutePacket goDate long n payload as) :
    ∃ fields, ExecutePacket fieldDate long n payload fields ∧ as = fields.map Argument.normalise := by
  obtain ⟨hheader, hnulls, hflag, hpairs, hlen, hvalues⟩ := h
  obtain ⟨fields, hfields, rfl⟩ := hvalues.fields
  rw [List.length_map] at hlen
  exact ⟨fields, .mk hheader hnulls hflag hpairs hlen hfields, rfl⟩

end Mono

theorem found_eq (hlong : ∀ i < p.parameterCount, 65536 ≤ i → p.found i = none) {i : Nat} (hi : i < p.parameterCount) :
    p.found i = p.longDataAt i := by
  unfold PreparedStatement.longDataAt
  split_ifs with h
  · rfl
  · exact hlong i hi (by omega)

/-- Arguments that are dates of the calendar are left as they are. -/
theorem map_normalise {as : List Argument} (h : ∀ t, .time t ∈ as → IsCalendar t) : as.map Argument.normalise = as := by
  refine List.map_congr_left (g := id) (fun a ha => ?_) |>.trans (List.map_id as)
  cases a with
  | time t => exact congrArg Argument.time (timeDate_eq (h t ha))
  | _ => rfl

section Wide

theorem WireValues.of_nil {P : Nat → Bytes → Argument → Prop} {i : Nat} {b : Bytes} {as : List Argument}
    (h : WireValues P i b as) (hb : b = []) {j : Nat} (hj : j < as.length) : ∃ a, P (i + j) [] a := by
  induction h generalizing j with
  | nil i => cases hj
  | @cons i b bs a as hfirst _ ih =>
    obtain ⟨rfl, rfl⟩ := List.append_eq_nil_iff.1 hb
    cases j with
    | zero => exact ⟨a, hfirst⟩
    | succ j =>
      rw [List.length_cons] at hj
      obtain ⟨a', h⟩ := ih rfl (j := j) (by omega)
      exact ⟨a', by rwa [show i + (j + 1) = i + 1 + j by omega]⟩

/-- A statement with `8 * m + 1` parameters and long data for the first. -/
def wideStatement (m : Nat) : PreparedStatement :=
  sampleStatement (8 * m + 1) ((∅ : AList fun _ : UInt16 => Bytes).insert 0 [1])

/-- The bitmap in which all parameters but the last are null. -/
def wideNulls (m : Nat) : Bytes := List.replicate m 0xff ++ [0]

/-- An execute packet with this bitmap, the type TINY everywhere, and no values. -/
def widePacket (m : Nat) : Bytes :=
  List.replicate 10 0 ++ (wideNulls m ++ 1 :: (List.replicate (2 * (8 * m + 1)) 1 ++ []))

theorem bitmapBit_wideNulls (m i : Nat) : bitmapBit (wideNulls m) i = decide (i < 8 * m) := by
  have hones : ∀ j < 8, (0xff : UInt8).toNat.testBit j = true := by decide
  have hzeros : ∀ j < 8, (0 : UInt8).toNat.testBit j = false := by decide
  have hmod := Nat.mod_lt i (show 0 < 8 by decide)
  unfold bitmapBit byteAt wideNulls
  rw [List.getD_eq_getElem?_getD]
  by_cases hi : i < 8 * m
  · rw [List.getElem?_append_left (by rw [List.length_replicate]; omega), List.getElem?_replicate_of_lt (by omega),
      Option.getD_some, hones _ hmod, decide_eq_true hi]
  · rw [List.getElem?_append_right (by rw [List.length_replicate]; omega), List.length_replicate, decide_eq_false hi]
    cases i / 8 - m with
    | zero => exact hzeros _ hmod
    | succ k => exact hzeros _ hmod

theorem length_wideNulls (m : Nat) : (wideNulls m).length = (8 * m + 1 + 7) / 8 := by
  rw [wideNulls, List.length_append, List.length_replicate, List.length_singleton]
  omega

theorem widePacket_accepted {m : Nat} (hm : UInt16.ofNat (8 * m) = 0) :
    ∃ as, (decodeArguments (wideStatement m) (widePacket m)).2 = .ok as := by
  have hlong : (wideStatement m).found (8 * m) = some [1] := by
    rw [PreparedStatement.found, hm]
    exact AList.lookup_insert _
  have hvalues : ∀ k ≤ 8 * m, WireValues (WireParameter goDate (wideStatement m).found (wideNulls m)
      (List.replicate (2 * (8 * m + 1)) 1)) (8 * m - k) [] (List.replicate k .nil ++ [.bytes (some [1])]) := by
    intro k hk
    induction k with
    | zero => exact .cons (b := []) (.long (by rw [bitmapBit_wideNulls]; simp) hlong) (.nil _)
    | succ k ih =>
      rw [List.replicate_succ, List.cons_append]
      refine .cons (b := []) (.null (by rw [bitmapBit_wideNulls, decide_eq_true]; omega)) ?_
      rw [show 8 * m - (k + 1) + 1 = 8 * m - k by omega]
      exact ih (by omega)
  have hpacket := hvalues (8 * m) (Nat.le_refl _)
  rw [Nat.sub_self] at hpacket
  have hflag : (widePacket m)[flagPosition (wideStatement m)]? = some 1 := by
    have hlen : (List.replicate 10 (0 : UInt8) ++ wideNulls m).length = flagPosition (wideStatement m) := by
      rw [List.length_append, List.length_replicate, length_wideNulls]
      rfl
    rw [widePacket, ← List.append_assoc, ← hlen, List.getElem?_append_right (Nat.le_refl _), Nat.sub_self]
    rfl
  have hwide : ExecutePacket goDate (wideStatement m).found (8 * m + 1) (widePacket m) _ :=
    .mk List.length_replicate (length_wideNulls m) (by decide) List.length_replicate
      (by rw [List.length_append, List.length_replicate, List.length_singleton]) hpacket
  obtain ⟨as, h, -⟩ := (decodeArguments_ok (Nat.succ_ne_zero _) (by rw [hflag]; decide)).2 hwide
  exact ⟨as, h⟩

theorem widePacket_malformed {m : Nat} (hm : 65536 ≤ 8 * m) {calendar : Time → Time → Prop} {as : List Argument} :
    ¬ExecutePacket calendar (wideStatement m).longDataAt (8 * m + 1) (widePacket m) as := by
  intro h
  rw [widePacket, executePacket_iff List.length_replicate (length_wideNulls m) List.length_replicate] at h
  obtain ⟨-, hlen, hvalues⟩ := h
  obtain ⟨a, h⟩ := hvalues.of_nil rfl (j := 8 * m) (by omega)
  rw [Nat.zero_add] at h
  have hbit := bitmapBit_wideNulls m (8 * m)
  rw [decide_eq_false (Nat.lt_irrefl _)] at hbit
  cases h with
  | null h =>
    rw [hbit] at h
    cases h
  | long _ h =>
    rw [PreparedStatement.longDataAt, if_neg (by omega)] at h
    cases h
  | value _ _ h =>
    have htype : byteAt (List.replicate (2 * (8 * m + 1)) 1) (2 * (8 * m)) = 1 := by
      rw [byteAt, List.getD_eq_getElem?_getD, List.getElem?_replicate_of_lt (by omega), Option.getD_some]
    rw [htype] at h
    cases h with
    | integer h => cases h

end Wide

end Packets

/-! ## Remembered types -/

section Remembered

variable {p : PreparedStatement} {types : Fin p.parameterCount → ParameterType} {header nulls pairs values : Bytes}

/-- The errors of the loop name a parameter. -/
theorem decodeFrom_error {l : Bytes} {i position more : Nat} {e : GoError}
    (h : decodeFrom p types l nulls i position more = .error (.error e)) :
    ∃ (j : Nat) (e' : GoError), e = GoError.wrap (lit s!"prepared parameter {j}: ") e' := by
  induction more generalizing i position with
  | zero => cases h
  | succ more ih =>
    unfold decodeFrom at h
    cases hbits : index nulls (i / 8) with
    | error f =>
      rw [hbits] at h
      cases h
      unfold index at hbits
      split at hbits <;> cases hbits
    | ok bits =>
      rw [hbits] at h
      simp only [bind, Except.bind] at h
      cases hargument : decodeArgument p types l i position (bits.toNat.testBit (i % 8)) with
      | ok x =>
        simp only [hargument] at h
        cases hrest : decodeFrom p types l nulls (i + 1) x.2 more with
        | ok y =>
          rw [hrest] at h
          cases h
        | error f =>
          rw [hrest] at h
          cases h
          exact ih hrest
      | error f =>
        rw [hargument] at h
        cases h
        unfold decodeArgument at hargument
        split at hargument
        · cases hargument
        split at hargument
        · cases hargument
        split at hargument
        · split at hargument
          · cases hargument
          · rename_i f _
            cases f with
            | panic => cases hargument
            | error e' =>
              cases hargument
              exact ⟨i, e', rfl⟩
        · cases hargument

/-- No error of the values is the one for a missing type array. -/
theorem decodeAll_ne : decodeAll p types nulls values ≠ reject "prepared execute omitted its first type array" := by
  intro h
  unfold decodeAll at h
  cases hfrom : decodeFrom p types values nulls 0 0 p.parameterCount with
  | ok x =>
    rw [hfrom] at h
    simp only [bind, Except.bind] at h
    split at h
    · exact absurd h (by decide +kernel)
    · cases h
  | error f =>
    rw [hfrom] at h
    cases h
    obtain ⟨j, e', he⟩ := decodeFrom_error hfrom
    have hmessage := congrArg (fun e => e.message.take 19) he
    have hwrapped : (GoError.wrap (lit s!"prepared parameter {j}: ") e').message.take 19 = lit "prepared parameter " := by
      have hlit : ∀ t : String, lit ("prepared parameter " ++ t) = lit "prepared parameter " ++ lit t := by
        intro t
        unfold lit text toBytes
        rw [String.toList_append, List.map_append, List.flatMap_append]
      show (lit ("prepared parameter " ++ toString j ++ ": ") ++ e'.message).take 19 = _
      rw [String.append_assoc, hlit, List.append_assoc]
      exact List.take_left' (by decide +kernel)
    rw [hwrapped] at hmessage
    exact absurd hmessage (by decide +kernel)

/-- The remembered types do as well as the array they are from, unless it has the type byte zero. -/
theorem decodeArguments_remembered_iff (htypes : p.parameterTypes = typesOf p.parameterCount pairs)
    (hpairs : pairs.length = 2 * p.parameterCount) (hheader : header.length = 10)
    (hnulls : nulls.length = (p.parameterCount + 7) / 8) {flag : UInt8} (hflag : flag ≠ 0) :
    (decodeArguments p (header ++ (nulls ++ 0 :: values))).2 =
        (decodeArguments p (header ++ (nulls ++ flag :: (pairs ++ values)))).2 ↔
      ∀ i < p.parameterCount, byteAt pairs (2 * i) ≠ 0 := by
  by_cases hn : p.parameterCount = 0
  · unfold decodeArguments
    rw [if_pos hn, if_pos hn, hn]
    exact iff_of_true rfl fun i hi => absurd hi (Nat.not_lt_zero i)
  · rw [decodeArguments_remembered hn hheader hnulls, decodeArguments_array hn hheader hnulls hpairs hflag, htypes]
    by_cases hzero : ∃ i, (typesOf p.parameterCount pairs i).fieldType = 0
    · rw [if_pos hzero]
      obtain ⟨i, hi⟩ := hzero
      exact iff_of_false decodeAll_ne.symm fun h => h i i.isLt hi
    · rw [if_neg hzero]
      exact iff_of_true rfl fun i hi h => hzero ⟨⟨i, hi⟩, h⟩

end Remembered

end Accelerator.Gateway
