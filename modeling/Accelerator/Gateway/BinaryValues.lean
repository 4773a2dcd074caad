/-
Binary result values (`gateway/prepared.go`): the encoder of a column value, what a client reads from the
bytes with the decoder of parameters, and what it reads from the text of the same value. Whatever the encoder
accepts, both readings are the value.
-/
import Accelerator.Gateway.Temporal
import Accelerator.Protocol.Response

namespace Accelerator.Gateway

open Strings Upstream Wire
open Protocol (appendLengthEncodedBytes ColumnDefinition)

/-! ## The encoder -/

/-- Why a value has no binary form. -/
inductive EncodeError where
  | number (e : NumError)
  | temporal (e : ParseError)
  | plain (e : GoError)
  deriving DecidableEq, Repr

/-- The text that is parsed as a date: a byte string itself, otherwise `fmt.Sprint` of the value. A time is
not printed to be parsed again. -/
def sprint : Value → Bytes
  | .null => lit "<nil>"
  | .bytes b => b
  | .string b => b
  | .time _ => []
  | .bool b => if b then lit "true" else lit "false"
  | .int i => lit (toString i)
  | .uint n => lit (toString n)
  | .float sprint => sprint

/-- The loop over the layouts. -/
def parseTimestamp (s : Bytes) : Except ParseError Time :=
  match parseInLocation dateLayout s with
  | .ok t => .ok t
  | .error _ => parseInLocation (dateLayout ++ clockLayout) s

/-- The bytes of a date, or of a date and time. -/
def temporalBytes (parsed : Time) (fieldType : UInt8) : Bytes :=
  let date := leBytes 2 (parsed.year % 65536).toNat ++ [.ofNat parsed.month, .ofNat parsed.day]
  let clock := [.ofNat parsed.hour, .ofNat parsed.minute, .ofNat parsed.second]
  if fieldType = columnTypeDate then 4 :: date
  else if parsed.nanosecond ≠ 0 then 11 :: (date ++ clock ++ leBytes 4 (parsed.nanosecond / 1000))
  else 7 :: (date ++ clock)

def encodePreparedDateTimeResult (value : Value) (fieldType : UInt8) : Except EncodeError Bytes :=
  match value with
  | .time t => .ok (temporalBytes t fieldType)
  | value =>
    match parseTimestamp (sprint value) with
    | .ok t => .ok (temporalBytes t fieldType)
    | .error e => .error (.temporal e)

/-- A numeral without a sign, of so many bits. -/
def requireUint (s : Bytes) (bitSize : Nat) : Except EncodeError Nat := (parseUint s bitSize).mapError .number

/-- The fraction of a TIME text, after the first period. -/
def timeFraction (value : Bytes) : Except EncodeError Nat :=
  match value.dropWhile (· != 46) with
  | [] => .ok 0
  | _ :: fraction => requireUint (places 6 fraction) 32

/-- The bytes of a duration. -/
def timeBytes (negative : Bool) (hours minute second microseconds : Nat) : Bytes :=
  let fields := (if negative then 1 else 0) ::
    (leBytes 4 (hours / 24) ++ [.ofNat (hours % 24), .ofNat minute, .ofNat second])
  if microseconds ≠ 0 then 12 :: (fields ++ leBytes 4 microseconds) else 8 :: fields

def encodePreparedTimeResult (value : Bytes) : Except EncodeError Bytes :=
  let negative := value.head? = some 45
  let value := if negative then value.tail else value
  match (value.takeWhile (· != 46)).splitOn 58 with
  | [hours, minute, second] => do
    let hours ← requireUint hours 32
    let minute ← requireUint minute 8
    let second ← requireUint second 8
    let microseconds ← timeFraction value
    return timeBytes negative hours minute second microseconds
  | _ => .error (.plain (errorsNew "invalid TIME result"))

/-- An integer of `size` bytes: its text is parsed in the range of the type, then cut to the bytes. -/
def encodeInteger (s : Bytes) (unsigned : Bool) (size : Nat) : Except EncodeError Bytes :=
  if unsigned then (parseUint s (8 * size)).mapError .number |>.map (leBytes size)
  else (parseInt s (8 * size)).mapError .number |>.map fun i => leBytes size (i % 256 ^ size).toNat

section Encoder

-- `strconv.ParseFloat`, which gives the bits of a float of 32 or 64 bits
variable (parseFloat : Bytes → Nat → Except NumError Nat)

def encodePreparedResultValue (value : Value) (definition : ColumnDefinition) (databaseType : Text) :
    Except EncodeError Bytes :=
  let s := (textValue value databaseType).getD []
  if definition.type = columnTypeTiny then encodeInteger s definition.unsigned 1
  else if definition.type = columnTypeShort ∨ definition.type = columnTypeYear then
    encodeInteger s definition.unsigned 2
  else if definition.type = columnTypeLong ∨ definition.type = columnTypeInt24 then
    encodeInteger s definition.unsigned 4
  else if definition.type = columnTypeLongLong then encodeInteger s definition.unsigned 8
  else if definition.type = columnTypeFloat then (parseFloat s 32).mapError .number |>.map (leBytes 4)
  else if definition.type = columnTypeDouble then (parseFloat s 64).mapError .number |>.map (leBytes 8)
  else if definition.type = columnTypeDate ∨ definition.type = columnTypeDateTime ∨
      definition.type = columnTypeTimestamp then
    encodePreparedDateTimeResult value definition.type
  else if definition.type = columnTypeTime then encodePreparedTimeResult s
  else .ok (appendLengthEncodedBytes [] s)

end Encoder

/-! ## What a client reads -/

/-- A value as the client has it. -/
inductive Reading where
  | number (i : Int)
  | bytes (b : Bytes)
  | date (year : Int) (month day : Nat)
  | dateTime (year : Int) (month day : Nat) (clock : Clock)
  | time (negative : Bool) (clock : Clock)
  deriving DecidableEq, Repr

/-- The bytes of an integer type. -/
def integerSize (type : UInt8) : Option Nat :=
  if type = columnTypeTiny then some 1
  else if type = columnTypeShort ∨ type = columnTypeYear then some 2
  else if type = columnTypeLong ∨ type = columnTypeInt24 then some 4
  else if type = columnTypeLongLong then some 8
  else none

def Time.clock (t : Time) : Clock := ⟨t.hour, t.minute, t.second, t.nanosecond / 1000⟩

/-- The date of a temporal column, with the time of day unless it is a DATE. -/
def temporalReading (type : UInt8) (year : Int) (month day : Nat) (clock : Clock) : Reading :=
  if type = columnTypeDate then .date year month day else .dateTime year month day clock

/-- A decoded value of a column. -/
def Argument.reading (type : UInt8) : Argument → Option Reading
  | .int i => some (.number i)
  | .uint n => some (.number n)
  | .time t => some (temporalReading type t.year t.month t.day (Time.clock t))
  | .bytes b =>
    if type = columnTypeTime then (durationOf (b.getD [])).map fun d => .time d.1 d.2
    else some (.bytes (b.getD []))
  | _ => none

/-- A text in a column that holds dates. -/
def readTemporal (type : UInt8) (s : Bytes) : Option Reading :=
  (datePart s).bind fun d =>
    if type = columnTypeDate then some (.date d.1 d.2.1 d.2.2)
    else (clockPart s).map fun c => .dateTime d.1 d.2.1 d.2.2 c

/-- A text in a column that holds times. -/
def readDuration (s : Bytes) : Option Reading := (durationOf s).map fun d => .time d.1 d.2

def isTemporal (type : UInt8) : Prop :=
  type = columnTypeDate ∨ type = columnTypeDateTime ∨ type = columnTypeTimestamp

instance (type : UInt8) : Decidable (isTemporal type) := inferInstanceAs (Decidable (_ ∨ _))

/-- The kinds of columns: numbers, dates, times, and strings of bytes. -/
def byKind {α : Type} (type : UInt8) (number temporal time bytes : α) : α :=
  if (integerSize type).isSome then number
  else if isTemporal type then temporal
  else if type = columnTypeTime then time
  else bytes

/-- A text under the type of its column. -/
def readText (type : UInt8) (s : Bytes) : Option Reading :=
  byKind type ((numeral s).map .number) (readTemporal type s) (readDuration s) (some (.bytes s))

/-- The number a value is. -/
def numberOf : Value → Option Int
  | .int i => some i
  | .uint n => some n
  | .bool b => some (if b then 1 else 0)
  | .bytes s => numeral s
  | .string s => numeral s
  | .float s => numeral s
  | _ => none

/-- The date a value is, with its time of day unless the column is a DATE. -/
def temporalOf (type : UInt8) : Value → Option Reading
  | .time t => some (temporalReading type t.year t.month t.day (Time.clock t))
  | value => readTemporal type (sprint value)

/-- The duration a value is. -/
def durationValue (databaseType : Text) : Value → Option Reading
  | .time t => some (.time false (Time.clock t))
  | value => (textValue value databaseType).bind readDuration

/-- What a value of a column is, whichever way it is sent. -/
def readingOf (type : UInt8) (databaseType : Text) (value : Value) : Option Reading :=
  byKind type ((numberOf value).map .number) (temporalOf type value) (durationValue databaseType value)
    ((textValue value databaseType).map .bytes)

section Kinds

variable {α : Type} {type : UInt8} {size : Nat} {number temporal time bytes : α}

theorem byKind_number (h : integerSize type = some size) : byKind type number temporal time bytes = number := by
  unfold byKind
  rw [h]
  exact if_pos rfl

theorem byKind_temporal (h : isTemporal type) : byKind type number temporal time bytes = temporal := by
  unfold byKind
  rcases h with rfl | rfl | rfl <;> rfl

theorem byKind_time : byKind columnTypeTime number temporal time bytes = time := rfl

theorem byKind_bytes (h : isLengthEncoded type) : byKind type number temporal time bytes = bytes := by
  simp only [isLengthEncoded, List.mem_cons, List.not_mem_nil, or_false, not_or] at h
  obtain ⟨-, h₂, h₃, h₄, h₅, h₆, h₇, -, -, h₁₀, h₁₁, h₁₂, h₁₃⟩ := h
  have hsize : integerSize type = none := by
    unfold integerSize
    simp only [h₂, h₃, h₄, h₅, h₆, h₇, or_self, if_false]
  unfold byKind isTemporal
  simp only [hsize, h₁₀, h₁₁, h₁₂, h₁₃, Option.isSome_none, Bool.false_eq_true, or_self, if_false]

/-- The kinds are all there are, floats and NULL apart. -/
theorem type_cases (hfloat : type ≠ columnTypeFloat) (hdouble : type ≠ columnTypeDouble)
    (hnull : type ≠ columnTypeNull) :
    (∃ size, integerSize type = some size) ∨ isTemporal type ∨ type = columnTypeTime ∨ isLengthEncoded type := by
  unfold integerSize isTemporal isLengthEncoded
  simp only [List.mem_cons, List.not_mem_nil, or_false, not_or]
  split_ifs
  · exact .inl ⟨_, rfl⟩
  · exact .inl ⟨_, rfl⟩
  · exact .inl ⟨_, rfl⟩
  · exact .inl ⟨_, rfl⟩
  · right
    tauto

end Kinds

/-! ## Decoding at a position -/

/-- Wherever the bytes stand in a payload, the decoder takes them for the value. -/
def Decodes (type : ParameterType) (b : Bytes) (a : Argument) : Prop :=
  ∀ before after, decodePreparedParameter (before ++ (b ++ after)) before.length type =
    .ok (a, before.length + b.length)

section Decoding

variable {before after b : Bytes} {type : UInt8} {unsigned : Bool} {size n : Nat}

theorem drop_before (before l : Bytes) (i : Nat) : (before ++ l).drop (before.length + i) = l.drop i := by
  rw [List.drop_append, List.drop_of_length_le (by omega), Nat.add_sub_cancel_left, List.nil_append]

theorem byteAt_before (before l : Bytes) (i : Nat) : byteAt (before ++ l) (before.length + i) = byteAt l i := by
  unfold byteAt
  rw [List.getD_eq_getElem?_getD, List.getD_eq_getElem?_getD, List.getElem?_append_right (by omega),
    Nat.add_sub_cancel_left]

theorem slice_before (before b after : Bytes) :
    (slice (before ++ (b ++ after)) before.length (before.length + b.length) : Checked Bytes) = .ok b := by
  rw [slice_eq (by omega) (by simp), Nat.add_sub_cancel_left, List.drop_left, List.take_left]

theorem decodeInteger_before (h : n < 256 ^ size) :
    decodeInteger (before ++ (leBytes size n ++ after)) before.length size unsigned =
      .ok (if unsigned then .uint n else .int (signed (8 * size) n), before.length + size) := by
  have hslice := slice_before before (leBytes size n) after
  rw [length_leBytes] at hslice
  unfold decodeInteger require
  rw [if_neg (by simp), hslice]
  simp only [bind, Except.bind, pure, Except.pure, littleEndian_eq, leNat_leBytes, Nat.mod_eq_of_lt h]

theorem decodePreparedParameter_integer (h : integerSize type = some size) (payload : Bytes) (position : Nat) :
    decodePreparedParameter payload position ⟨type, unsigned⟩ = decodeInteger payload position size unsigned := by
  unfold integerSize at h
  split at h
  · rename_i ht
    subst ht
    cases h
    rfl
  split at h
  · rename_i ht
    cases h
    rcases ht with rfl | rfl <;> rfl
  split at h
  · rename_i ht
    cases h
    rcases ht with rfl | rfl <;> rfl
  split at h
  · rename_i ht
    subst ht
    cases h
    rfl
  · cases h

/-- The two's complement reading of a number in range is the number. -/
theorem signed_emod {bits : Nat} {i : Int} (hb : 0 < bits) (h₀ : -2 ^ (bits - 1) ≤ i) (h₁ : i < 2 ^ (bits - 1)) :
    signed bits (i % 2 ^ bits).toNat = i := by
  obtain ⟨k, rfl⟩ : ∃ k, bits = k + 1 := ⟨bits - 1, by omega⟩
  rw [Nat.add_sub_cancel] at h₀ h₁
  have hcast : ((2 ^ k : Nat) : Int) = 2 ^ k := by push_cast; rfl
  have hdouble : (2 : Int) ^ (k + 1) = 2 * 2 ^ k := by rw [Int.pow_succ, Int.mul_comm]
  unfold signed
  rw [Nat.add_sub_cancel, hdouble]
  generalize (2 : Int) ^ k = m at *
  by_cases hi : 0 ≤ i
  · rw [Int.emod_eq_of_lt hi (by omega), if_pos (by omega), Int.toNat_of_nonneg hi]
  · have hmod : i % (2 * m) = i + 2 * m := by
      rw [← Int.add_emod_right, Int.emod_eq_of_lt (by omega) (by omega)]
    rw [hmod, if_neg (by omega), Int.toNat_of_nonneg (by omega)]
    omega

/-- An encoded integer is read back as the number of its text. -/
theorem decodes_integer {s : Bytes} (ht : integerSize type = some size) (hs : 0 < size)
    (h : encodeInteger s unsigned size = .ok b) :
    ∃ a i, Decodes ⟨type, unsigned⟩ b a ∧ numeral s = some i ∧ a.reading type = some (.number i) := by
  have hpow : (2 : Nat) ^ (8 * size) = 256 ^ size := by rw [Nat.pow_mul]
  unfold encodeInteger at h
  cases unsigned with
  | true =>
    simp only [if_true] at h
    obtain ⟨n, hn, rfl⟩ := ok_of_map h
    obtain ⟨hnat, hlt⟩ := parseUint_eq_ok.1 (ok_of_mapError hn)
    rw [hpow] at hlt
    refine ⟨.uint n, n, fun before after => ?_, numeral_of_natural hnat, rfl⟩
    rw [decodePreparedParameter_integer ht, decodeInteger_before hlt, length_leBytes]
    rfl
  | false =>
    simp only [Bool.false_eq_true, if_false] at h
    obtain ⟨i, hi, rfl⟩ := ok_of_map h
    obtain ⟨hnum, h₀, h₁⟩ := parseInt_eq_ok (ok_of_mapError hi)
    have hcast : (256 : Int) ^ size = 2 ^ (8 * size) := by rw [Int.pow_mul]; rfl
    have hpos : (0 : Int) < 256 ^ size := Int.pow_pos (by omega)
    have hlt : (i % 256 ^ size).toNat < 256 ^ size := by
      have hmod := Int.emod_lt_of_pos i hpos
      have hcast' : ((256 ^ size : Nat) : Int) = 256 ^ size := by push_cast; rfl
      omega
    refine ⟨.int i, i, fun before after => ?_, hnum, rfl⟩
    rw [decodePreparedParameter_integer ht, decodeInteger_before hlt, length_leBytes, hcast,
      signed_emod (by omega) h₀ h₁]
    rfl

theorem encodedTime_before (l : Bytes) : encodedTime (before ++ l) before.length = encodedTime l 0 := by
  have hbyte : ∀ i, byteAt (before ++ l) (before.length + 1 + i) = byteAt l (0 + 1 + i) := fun i => by
    rw [Nat.add_assoc, byteAt_before, Nat.zero_add]
  have hdrop : ∀ i, (before ++ l).drop (before.length + 1 + i) = l.drop (0 + 1 + i) := fun i => by
    rw [Nat.add_assoc, drop_before, Nat.zero_add]
  have hbyte₀ := byteAt_before before l 0
  have hdrop₀ := hdrop 0
  rw [Nat.add_zero] at hbyte₀ hdrop₀
  unfold encodedTime
  simp only [hbyte, hdrop, hbyte₀, hdrop₀, Nat.add_zero]

theorem holdsTemporal_before {l : Bytes} (h : HoldsTemporal l 0) : HoldsTemporal (before ++ l) before.length := by
  obtain ⟨hp, hlen, hle⟩ := h
  have hbyte := byteAt_before before l 0
  rw [Nat.add_zero] at hbyte
  unfold HoldsTemporal
  rw [hbyte, List.length_append]
  exact ⟨by omega, hlen, by omega⟩

theorem decodePreparedParameter_temporal (h : isTemporal type) (payload : Bytes) (position : Nat) :
    decodePreparedParameter payload position ⟨type, unsigned⟩ = decodePreparedDateTime payload position := by
  rcases h with rfl | rfl | rfl <;> rfl

/-- Bytes that encode a time of the calendar are decoded to it. -/
theorem decodes_temporal {t : Time} {length : UInt8} (ht : isTemporal type) (hmem : length ∈ [4, 7, 11])
    (hlen : b.length = length.toNat) (htime : ∀ after, encodedTime (length :: (b ++ after)) 0 = t)
    (hcal : IsCalendar t) : Decodes ⟨type, unsigned⟩ (length :: b) (.time t) := by
  intro before after
  have hbyte : byteAt (length :: (b ++ after)) 0 = length := rfl
  have hbyte' := byteAt_before before (length :: (b ++ after)) 0
  have hholds : HoldsTemporal (length :: (b ++ after)) 0 := by
    refine ⟨by simp, by rwa [hbyte], ?_⟩
    simp only [hbyte, List.length_cons, List.length_append, hlen]
    omega
  rw [Nat.add_zero] at hbyte'
  rw [List.cons_append, decodePreparedParameter_temporal ht, decodePreparedDateTime_eq (holdsTemporal_before hholds),
    encodedTime_before, htime, normalised, timeDate_eq hcal, hbyte', hbyte, List.length_cons, hlen, Nat.add_assoc,
    Nat.add_comm 1]

theorem littleEndian_leBytes (h : n < 256 ^ size) : littleEndian (leBytes size n) = n := by
  rw [littleEndian_eq, leNat_leBytes, Nat.mod_eq_of_lt h]

theorem toNat_ofNat_byte (h : n < 256) : (UInt8.ofNat n).toNat = n := UInt8.toNat_ofNat_of_lt h

/-- The bytes of a year. -/
theorem littleEndian_year {year : Int} (h₀ : 0 ≤ year) (h₁ : year < 10000) :
    (littleEndian (leBytes 2 (year % 65536).toNat) : Int) = year := by
  rw [littleEndian_leBytes (by omega)]
  omega

theorem nanosecond_of_short {length : UInt8} (h : length.toNat ≠ 11) (l : Bytes) :
    (encodedTime (length :: l) 0).nanosecond = 0 := by
  show (if length.toNat = 11 then _ else 0) * 1000 = 0
  rw [if_neg h, Nat.zero_mul]

/-- An encoded date or date and time is decoded to the same, down to the microsecond. -/
theorem decodes_temporalBytes {t : Time} (ht : isTemporal type) (hcal : IsCalendar t) (h₀ : 0 ≤ t.year)
    (h₁ : t.year < 10000) :
    ∃ t' : Time, Decodes ⟨type, unsigned⟩ (temporalBytes t type) (.time t') ∧
      temporalReading type t'.year t'.month t'.day (Time.clock t') =
        temporalReading type t.year t.month t.day (Time.clock t) := by
  obtain ⟨hdate, hh, hmi, hs, hn⟩ := hcal
  have hyear := littleEndian_year h₀ h₁
  have hmonth := toNat_ofNat_byte (show t.month < 256 by have := hdate.month_le; omega)
  have hdays : daysIn t.year t.month ≤ 31 := by
    unfold daysIn
    split_ifs <;> omega
  have hday := toNat_ofNat_byte (show t.day < 256 by have := hdate.day_le; omega)
  have hhour := toNat_ofNat_byte (show t.hour < 256 by omega)
  have hminute := toNat_ofNat_byte (show t.minute < 256 by omega)
  have hsecond := toNat_ofNat_byte (show t.second < 256 by omega)
  unfold temporalBytes
  by_cases htype : type = columnTypeDate
  · rw [if_pos htype]
    refine ⟨⟨t.year, t.month, t.day, 0, 0, 0, 0⟩, decodes_temporal ht (by simp) rfl (fun after => ?_)
      ⟨hdate, show 0 < 24 by omega, show 0 < 60 by omega, show 0 < 60 by omega, show 0 < 1000000000 by omega⟩, ?_⟩
    · exact Time.ext hyear hmonth hday rfl rfl rfl (nanosecond_of_short (by decide) _)
    · simp only [temporalReading, if_pos htype]
  rw [if_neg htype]
  by_cases hnano : t.nanosecond ≠ 0
  · rw [if_pos hnano]
    have hmicro : littleEndian (leBytes 4 (t.nanosecond / 1000)) = t.nanosecond / 1000 :=
      littleEndian_leBytes (by omega)
    refine ⟨{ t with nanosecond := t.nanosecond / 1000 * 1000 }, decodes_temporal ht (by simp) rfl (fun after => ?_)
      ⟨hdate, hh, hmi, hs, show t.nanosecond / 1000 * 1000 < 1000000000 by omega⟩, ?_⟩
    · exact Time.ext hyear hmonth hday hhour hminute hsecond (congrArg (· * 1000) hmicro)
    · simp only [temporalReading, if_neg htype, Time.clock]
      rw [Nat.mul_div_cancel _ (by omega)]
  · rw [if_neg hnano]
    refine ⟨t, decodes_temporal ht (by simp) rfl (fun after => ?_) ⟨hdate, hh, hmi, hs, hn⟩, rfl⟩
    exact Time.ext hyear hmonth hday hhour hminute hsecond
      ((nanosecond_of_short (by decide) _).trans (not_not.1 hnano).symm)

theorem index_before {l : Bytes} {i : Nat} (h : i < l.length) :
    (index (before ++ l) (before.length + i) : Checked UInt8) = .ok (byteAt l i) := by
  rw [index_eq (by rw [List.length_append]; omega), byteAt_before]

theorem slice_from {l : Bytes} {i j : Nat} (h : i ≤ j) (hj : j ≤ l.length) :
    (slice (before ++ l) (before.length + i) (before.length + j) : Checked Bytes) = .ok ((l.drop i).take (j - i)) := by
  rw [slice_eq (by omega) (by rw [List.length_append]; omega), drop_before, Nat.add_sub_add_left]

/-- The text of a decoded duration. -/
def timeText (negative : Bool) (hours minute second : Nat) (fraction : Bytes) : Bytes :=
  let value := padded 2 hours ++ lit ":" ++ padded 2 minute ++ lit ":" ++ padded 2 second ++ fraction
  if negative then lit "-" ++ value else value

/-- The fields of a duration on the wire, eight bytes or twelve. -/
theorem decodePreparedTime_before {l : Bytes} {length : UInt8} (hlen : length = 8 ∨ length = 12)
    (hl : l.length ≥ length.toNat) :
    decodePreparedTime (before ++ length :: l) before.length =
      .ok (.bytes (some (timeText (byteAt l 0 ≠ 0)
        (littleEndian ((l.drop 1).take 4) * 24 + (byteAt l 5).toNat) (byteAt l 6).toNat (byteAt l 7).toNat
        (if length = 12 then lit "." ++ padded 6 (littleEndian ((l.drop 8).take 4)) else []))),
        before.length + 1 + length.toNat) := by
  have hsize : 8 ≤ l.length := by rcases hlen with rfl | rfl <;> simp at hl <;> omega
  have hbyte : ∀ i, i < l.length →
      (index (before ++ length :: l) (before.length + 1 + i) : Checked UInt8) = .ok (byteAt l i) := by
    intro i hi
    rw [Nat.add_assoc, index_before (by rw [List.length_cons]; omega), Nat.add_comm 1 i]
    rfl
  have hslice : ∀ i j, i ≤ j → j ≤ l.length →
      (slice (before ++ length :: l) (before.length + 1 + i) (before.length + 1 + j) : Checked Bytes) =
        .ok ((l.drop i).take (j - i)) := by
    intro i j hi hj
    rw [Nat.add_assoc, Nat.add_assoc, slice_from (by omega) (by rw [List.length_cons]; omega), Nat.add_sub_add_left,
      Nat.add_comm 1 i, List.drop_succ_cons]
  have hfirst : (index (before ++ length :: l) before.length : Checked UInt8) = .ok length := index_before (i := 0) (by simp)
  have hzero := hbyte 0 (by omega)
  rw [Nat.add_zero] at hzero
  have hfraction : readFraction (before ++ length :: l) (before.length + 1) length.toNat =
      .ok (if length = 12 then lit "." ++ padded 6 (littleEndian ((l.drop 8).take 4)) else []) := by
    unfold readFraction
    rcases hlen with rfl | rfl
    · rfl
    · rw [if_pos rfl, hslice 8 12 (by omega) hl]
      rfl
  unfold decodePreparedTime
  rw [if_neg (by simp), hfirst]
  simp only [bind, Except.bind]
  rw [if_neg (by rcases hlen with rfl | rfl <;> decide),
    if_neg (by rcases hlen with rfl | rfl <;> simp at hl ⊢ <;> omega), hzero, hslice 1 5 (by omega) (by omega),
    hbyte 5 (by omega), hbyte 6 (by omega), hbyte 7 (by omega), hfraction]
  simp only [pure, Except.pure, timeText, decide_eq_true_eq]

theorem durationOf_timeText {negative : Bool} {hours minute second us : Nat} {fraction : Bytes}
    (hmark : ∀ x ∈ fraction.head?, (x == 46) = true) (hus : fractionOf fraction.tail = some us) :
    durationOf (timeText negative hours minute second fraction) =
      some (negative, ⟨hours, minute, second, us⟩) := by
  have hclock := clockOf_printed (fun x => digit_ne_period) rfl (i := hours) (j := minute) (k := second) hmark hus
  have hlit : lit "-" = [45] := by decide
  unfold timeText
  cases negative with
  | true =>
    rw [if_pos rfl, hlit, List.singleton_append, durationOf, hclock]
    rfl
  | false =>
    rw [if_neg (by simp)]
    have hhead : ∀ x ∈ (padded 2 hours ++ lit ":" ++ padded 2 minute ++ lit ":" ++ padded 2 second ++
        fraction).head?, isDigit x = true := by
      simp only [List.append_assoc]
      exact (head_of_natural (natural_padded 2 hours)).2
    unfold durationOf
    split
    · rename_i heq
      rw [heq] at hhead
      cases hhead 45 rfl
    · rw [hclock]
      rfl

/-- An encoded duration is decoded to a text that denotes it. -/
theorem decodes_timeBytes {negative : Bool} {hours minute second us : Nat} (hh : hours < 2 ^ 32) (hm : minute < 256)
    (hs : second < 256) (hus : us < 1000000) :
    ∃ a, Decodes ⟨columnTypeTime, unsigned⟩ (timeBytes negative hours minute second us) a ∧
      a.reading columnTypeTime = some (.time negative ⟨hours, minute, second, us⟩) := by
  have hhours : littleEndian (leBytes 4 (hours / 24)) * 24 + (UInt8.ofNat (hours % 24)).toNat = hours := by
    rw [littleEndian_leBytes (by omega), toNat_ofNat_byte (by omega)]
    omega
  have hminute := toNat_ofNat_byte hm
  have hsecond := toNat_ofNat_byte hs
  have hsign : decide ((if negative then 1 else 0 : UInt8) ≠ 0) = negative := by cases negative <;> rfl
  have hreading : ∀ {fraction : Bytes}, (∀ x ∈ fraction.head?, (x == 46) = true) →
      fractionOf fraction.tail = some us →
      Argument.reading columnTypeTime (.bytes (some (timeText negative hours minute second fraction))) =
        some (.time negative ⟨hours, minute, second, us⟩) := by
    intro fraction hmark hus
    rw [Argument.reading, if_pos rfl, Option.getD_some, durationOf_timeText hmark hus]
    rfl
  unfold timeBytes
  by_cases hzero : us ≠ 0
  · have hlit : lit "." = [46] := by decide
    have hmicro : littleEndian (leBytes 4 us) = us := littleEndian_leBytes (by omega)
    rw [if_pos hzero]
    refine ⟨.bytes (some (timeText negative hours minute second (46 :: padded 6 us))), fun before after => ?_,
      hreading (fun x hx => by cases hx; rfl) (by rw [List.tail_cons]; exact fractionOf_padded hus)⟩
    refine (decodePreparedTime_before (.inr rfl) (by simp; omega)).trans ?_
    show Except.ok (Argument.bytes (some (timeText (decide ((if negative then 1 else 0 : UInt8) ≠ 0))
      (littleEndian (leBytes 4 (hours / 24)) * 24 + (UInt8.ofNat (hours % 24)).toNat) (UInt8.ofNat minute).toNat
      (UInt8.ofNat second).toNat (lit "." ++ padded 6 (littleEndian (leBytes 4 us))))), before.length + 1 + 12) = _
    rw [hsign, hhours, hminute, hsecond, hmicro, hlit, List.singleton_append]
    rfl
  · rw [if_neg hzero]
    refine ⟨.bytes (some (timeText negative hours minute second [])), fun before after => ?_,
      hreading (by simp) (by rw [not_not.1 hzero]; decide)⟩
    refine (decodePreparedTime_before (.inl rfl) (by simp; omega)).trans ?_
    show Except.ok (Argument.bytes (some (timeText (decide ((if negative then 1 else 0 : UInt8) ≠ 0))
      (littleEndian (leBytes 4 (hours / 24)) * 24 + (UInt8.ofNat (hours % 24)).toNat) (UInt8.ofNat minute).toNat
      (UInt8.ofNat second).toNat [])), before.length + 1 + 8) = _
    rw [hsign, hhours, hminute, hsecond]
    rfl

theorem readLength_before {first : UInt8} {truncated : String} (h : n < 256 ^ size) :
    readLength (before ++ first :: (leBytes size n ++ after)) (before.length + 1) size truncated =
      .ok (n, before.length + (first :: leBytes size n).length) := by
  have hslice := slice_before (before ++ [first]) (leBytes size n) after
  simp only [List.append_assoc, List.singleton_append, List.length_append, List.length_singleton, length_leBytes]
    at hslice
  unfold readLength
  rw [if_neg (by simp; omega), hslice]
  simp only [bind, Except.bind, pure, Except.pure, littleEndian_leBytes h, List.length_cons, length_leBytes,
    Nat.add_assoc, Nat.add_comm 1]

/-- The length in front of a string is read back. -/
theorem lengthPrefix_before (before after : Bytes) (h : n < 2 ^ 64) : ∃ first tail, lenencInt n = first :: tail ∧
    lengthPrefix (before ++ (first :: tail ++ after)) (before.length + 1) first =
      .ok (n, before.length + (lenencInt n).length) := by
  unfold lenencInt
  split_ifs with h₁ h₂ h₃
  · have hn : (UInt8.ofNat n).toNat = n := toNat_ofNat_byte (by omega)
    have hne : ∀ {m : UInt8}, 0xfb ≤ m.toNat → UInt8.ofNat n ≠ m := fun hm => ofNat_ne_of_small h₁ hm
    refine ⟨_, _, rfl, ?_⟩
    unfold lengthPrefix
    rw [if_neg (hne (by decide)), if_neg (hne (by decide)), if_neg (hne (by decide)), if_neg, hn]
    · rfl
    · rw [ge_iff_le, UInt8.le_iff_toNat_le, hn]
      exact Nat.not_le.2 h₁
  · exact ⟨_, _, rfl, readLength_before (by omega)⟩
  · exact ⟨_, _, rfl, readLength_before (by omega)⟩
  · exact ⟨_, _, rfl, readLength_before (by omega)⟩

theorem readPreparedLengthEncoded_before {s : Bytes} (h : s.length < 2 ^ 64) :
    readPreparedLengthEncoded (before ++ (appendLengthEncodedBytes [] s ++ after)) before.length =
      .ok (s, before.length + (appendLengthEncodedBytes [] s).length) := by
  obtain ⟨first, tail, hlenenc, hlength⟩ := lengthPrefix_before before (s ++ after) h
  rw [Protocol.appendLengthEncodedBytes_eq [] h, List.nil_append, lenencBytes, List.append_assoc]
  have hslice := slice_before (before ++ lenencInt s.length) s after
  rw [List.append_assoc, List.length_append] at hslice
  have hfirst : (index (before ++ (lenencInt s.length ++ (s ++ after))) before.length : Checked UInt8) = .ok first := by
    rw [hlenenc]
    exact index_before (i := 0) (by simp)
  rw [← hlenenc] at hlength
  unfold readPreparedLengthEncoded
  rw [if_neg (by simp [hlenenc]), hfirst]
  simp only [bind, Except.bind, hlength]
  rw [if_neg (by simp; omega), hslice, List.length_append, Nat.add_assoc]
  rfl

theorem decodePreparedParameter_bytes (h : isLengthEncoded type) (payload : Bytes) (position : Nat) :
    decodePreparedParameter payload position ⟨type, unsigned⟩ = (do
      let x ← readPreparedLengthEncoded payload position
      return (appendNil x.1, x.2)) := by
  simp only [isLengthEncoded, List.mem_cons, List.not_mem_nil, or_false, not_or] at h
  obtain ⟨h₁, h₂, h₃, h₄, h₅, h₆, h₇, h₈, h₉, h₁₀, h₁₁, h₁₂, h₁₃⟩ := h
  unfold decodePreparedParameter
  simp only [h₁, h₂, h₃, h₄, h₅, h₆, h₇, h₈, h₉, h₁₀, h₁₁, h₁₂, h₁₃, or_self, if_false]

/-- A string is decoded byte for byte. -/
theorem decodes_bytes {s : Bytes} (ht : isLengthEncoded type) (h : s.length < 2 ^ 64) :
    Decodes ⟨type, unsigned⟩ (appendLengthEncodedBytes [] s) (appendNil s) ∧
      (appendNil s).reading type = some (.bytes s) := by
  refine ⟨fun before after => ?_, ?_⟩
  · rw [decodePreparedParameter_bytes ht, readPreparedLengthEncoded_before h]
    rfl
  · have htime : type ≠ columnTypeTime := by
      rintro rfl
      simp [isLengthEncoded] at ht
    rw [appendNil, Argument.reading, if_neg htime]
    by_cases hs : s = []
    · rw [if_pos hs, hs]
      rfl
    · rw [if_neg hs]
      rfl

end Decoding

/-! ## Encoded texts -/

section Encoded

variable {s b : Bytes} {n bitSize : Nat}

theorem requireUint_ok (h : requireUint s bitSize = .ok n) : natural s = some n ∧ n < 2 ^ bitSize :=
  parseUint_eq_ok.1 (ok_of_mapError h)

theorem timeFraction_ok (h : timeFraction s = .ok n) :
    fractionOf ((s.dropWhile (· != 46)).drop 1) = some n ∧ n < 1000000 := by
  unfold timeFraction at h
  split at h
  · rename_i hnil
    cases h
    rw [hnil]
    exact ⟨by decide, by decide⟩
  · rename_i c fraction hcons
    rw [hcons]
    have hnat := (requireUint_ok h).1
    have hlt := digitsFrom_lt (natural_eq_some.1 hnat).2.1
    rw [(natural_eq_some.1 hnat).2.2, length_places] at hlt
    exact ⟨hnat, hlt⟩

/-- What `encodePreparedTimeResult` accepts denotes a duration, of which it writes the fields. -/
theorem encodePreparedTimeResult_ok (h : encodePreparedTimeResult s = .ok b) :
    ∃ negative hours minute second us, b = timeBytes negative hours minute second us ∧ hours < 2 ^ 32 ∧
      minute < 256 ∧ second < 256 ∧ us < 1000000 ∧
      durationOf s = some (negative, ⟨hours, minute, second, us⟩) := by
  have hsign : ∀ clock, (clockOf (· == 46) (if s.head? = some 45 then s.tail else s)) = some clock →
      durationOf s = some (decide (s.head? = some 45), clock) := by
    intro clock hclock
    unfold durationOf
    split
    · rw [if_pos List.head?_cons, List.tail_cons] at hclock
      rw [hclock]
      rfl
    · rename_i hne
      have hhead : ¬s.head? = some 45 := fun hh => hne _ (List.eq_cons_of_mem_head? hh)
      rw [if_neg hhead] at hclock
      rw [hclock, Option.map_some, decide_eq_false hhead]
  unfold encodePreparedTimeResult at h
  simp only at h
  generalize (if s.head? = some 45 then s.tail else s) = value at h hsign
  split at h
  · rename_i hours minute second hsplit
    obtain ⟨i, hi, h⟩ := ok_of_bind h
    obtain ⟨j, hj, h⟩ := ok_of_bind h
    obtain ⟨k, hk, h⟩ := ok_of_bind h
    obtain ⟨us, hus, h⟩ := ok_of_bind h
    cases h
    obtain ⟨hhours, hh⟩ := requireUint_ok hi
    obtain ⟨hminute, hm⟩ := requireUint_ok hj
    obtain ⟨hsecond, hs⟩ := requireUint_ok hk
    obtain ⟨hfraction, hlt⟩ := timeFraction_ok hus
    refine ⟨_, i, j, k, us, rfl, hh, hm, hs, hlt, hsign _ ?_⟩
    have hsplit' : (value.takeWhile fun c => !(c == 46)).splitOn 58 = [hours, minute, second] := hsplit
    have hfraction' : fractionOf ((value.dropWhile fun c => !(c == 46)).drop 1) = some us := hfraction
    unfold clockOf
    simp only [hsplit', hfraction', hhours, hminute, hsecond]
    rfl
  · cases h

end Encoded

/-! ## Values -/

/-- A value the driver delivers: its text is a slice, so that an `int` holds its length, and a time is one of
the calendar in the years that MySQL has. -/
structure Deliverable (value : Value) : Prop where
  slice : ∀ databaseType s, textValue value databaseType = some s → s.length < 2 ^ 63
  time : ∀ t, value = .time t → IsCalendar t ∧ 0 ≤ t.year ∧ t.year < 10000

section Values

variable {value : Value} {databaseType : Text} {s b : Bytes} {t : Time} {type : UInt8}

theorem exists_text (h : value ≠ .null) : ∃ s, textValue value databaseType = some s := by
  cases value with
  | null => exact absurd rfl h
  | time t =>
    simp only [textValue]
    split_ifs <;> exact ⟨_, rfl⟩
  | _ => exact ⟨_, rfl⟩

/-- A text that begins with a digit and goes on with something else is no numeral. -/
theorem numeral_eq_none {x : UInt8} (hhead : ∀ c ∈ s.head?, isDigit c = true) (hx : x ∈ s) (hd : isDigit x = false) :
    numeral s = none := by
  have hnat : natural s = none := by
    cases hs : natural s with
    | none => rfl
    | some n => exact absurd hx (not_mem_of_natural hs hd)
  unfold numeral
  split
  · cases hhead 43 rfl
  · cases hhead 45 rfl
  · rw [hnat]
    rfl

/-- A printed date begins with a digit and has a dash, whatever follows. -/
theorem dateText_head (h₀ : 0 ≤ t.year) (rest : Bytes) :
    (∀ c ∈ (dateText t ++ rest).head?, isDigit c = true) ∧ 45 ∈ dateText t ++ rest := by
  rw [dateText_eq h₀, List.append_assoc]
  refine ⟨(head_of_natural (natural_padded 4 _)).2, ?_⟩
  rw [List.mem_append]
  exact .inr (by simp)

/-- A printed time of day begins with a digit and has a colon. -/
theorem clockText_head : (∀ c ∈ (clockText t).head?, isDigit c = true) ∧ 58 ∈ clockText t := by
  have hlit : lit ":" = [58] := by decide
  simp only [clockText, List.append_assoc, hlit, List.singleton_append]
  refine ⟨(head_of_natural (natural_padded 2 _)).2, ?_⟩
  rw [List.mem_append]
  exact .inr (by simp)

/-- The text of a time is no numeral. -/
theorem numeral_time (h : textValue (.time t) databaseType = some s) (h₀ : 0 ≤ t.year) : numeral s = none := by
  simp only [textValue] at h
  split_ifs at h
  · obtain rfl := Option.some.inj h
    obtain ⟨hhead, hmem⟩ := dateText_head h₀ []
    rw [List.append_nil] at hhead hmem
    exact numeral_eq_none hhead hmem rfl
  · obtain rfl := Option.some.inj h
    exact numeral_eq_none clockText_head.1 clockText_head.2 rfl
  · obtain rfl := Option.some.inj h
    rw [List.append_assoc]
    obtain ⟨hhead, hmem⟩ := dateText_head h₀ (lit " " ++ clockText t)
    exact numeral_eq_none hhead hmem rfl

/-- The number a text denotes is the number of the value. -/
theorem numberOf_text {i : Int} (h : textValue value databaseType = some s) (hn : numeral s = some i)
    (hd : Deliverable value) : numberOf value = some i := by
  cases value with
  | null => cases h
  | bytes b =>
    cases h
    exact hn
  | string b =>
    cases h
    exact hn
  | float b =>
    cases h
    exact hn
  | bool b =>
    cases h
    cases b <;> exact hn
  | int j =>
    cases h
    rw [lit, numeral_toString] at hn
    exact hn
  | uint m =>
    cases h
    rw [lit, numeral_of_natural (natural_toString m)] at hn
    exact hn
  | time t =>
    rw [numeral_time h (hd.time t rfl).2.1] at hn
    cases hn

theorem durationOf_clockText (h : t.nanosecond < 1000000000) : durationOf (clockText t) = some (false, Time.clock t) := by
  have hclock := clockOf_clockText (fun x => digit_ne_period) rfl rfl h
  unfold durationOf
  split
  · rename_i heq
    have hhead := (clockText_head (t := t)).1
    rw [heq] at hhead
    cases hhead 45 rfl
  · rw [hclock]
    rfl

/-- The first field of a text goes on at least to its first separator. -/
theorem splitOn_head {x : UInt8} {a : Bytes} (ha : x ∉ a) (rest : Bytes) :
    ∃ h t, (a ++ rest).splitOn x = (a ++ h) :: t := by
  unfold List.splitOn
  induction a with
  | nil => exact List.exists_cons_of_ne_nil (List.splitOnP_ne_nil _ _)
  | cons c a ih =>
    rw [List.mem_cons, not_or] at ha
    obtain ⟨h, t, ih⟩ := ih ha.2
    refine ⟨h, t, ?_⟩
    rw [List.cons_append, List.splitOnP_cons_eq_if_modifyHead, ih, if_neg (by simpa using Ne.symm ha.1)]
    rfl

/-- A date in front of a time of day makes it no duration. -/
theorem durationOf_date (h₀ : 0 ≤ t.year) (rest : Bytes) : durationOf (dateText t ++ rest) = none := by
  obtain ⟨hhead, -⟩ := dateText_head h₀ rest
  have hfree : ∀ x ∈ dateText t, x = 45 ∨ isDigit x = true := by
    intro x hx
    rw [dateText_eq h₀] at hx
    have hdigit : ∀ {w n}, x ∈ padded w n → isDigit x = true := fun {w n} hx =>
      List.all_eq_true.1 (natural_eq_some.1 (natural_padded w n)).2.1 x hx
    simp only [List.mem_append, List.mem_cons] at hx
    rcases hx with hx | hx | hx | hx | hx
    · exact .inr (hdigit hx)
    · exact .inl hx
    · exact .inr (hdigit hx)
    · exact .inl hx
    · exact .inr (hdigit hx)
  have hclock : clockOf (· == 46) (dateText t ++ rest) = none := by
    obtain ⟨h, fields, hsplit⟩ := splitOn_head (x := 58) (a := dateText t)
      (fun hmem => by rcases hfree _ hmem with h | h <;> cases h) (rest.takeWhile fun c => !(c == 46))
    have htake : (dateText t ++ rest).takeWhile (fun c => !(c == 46)) =
        dateText t ++ rest.takeWhile fun c => !(c == 46) := by
      refine List.takeWhile_append_of_pos fun x hx => ?_
      rcases hfree x hx with rfl | h
      · rfl
      · rw [digit_ne_period h]
        rfl
    unfold clockOf
    simp only [htake, hsplit]
    split
    · rename_i hours minutes seconds heq
      have hnone : natural hours = none := by
        cases hn : natural hours with
        | none => rfl
        | some n =>
          have hmem := (dateText_head h₀ h).2
          rw [(List.cons.inj heq).1] at hmem
          exact absurd hmem (not_mem_of_natural hn rfl)
      rw [hnone]
      rfl
    · rfl
  unfold durationOf
  split
  · rename_i heq
    rw [heq] at hhead
    cases hhead 45 rfl
  · rw [hclock]
    rfl

theorem temporalOf_of_ne (h : ∀ t, value = .time t → False) :
    temporalOf type value = readTemporal type (sprint value) := by
  cases value with
  | time t => exact (h t rfl).elim
  | _ => rfl

theorem durationValue_of_ne (h : ∀ t, value = .time t → False) :
    durationValue databaseType value = (textValue value databaseType).bind readDuration := by
  cases value with
  | time t => exact (h t rfl).elim
  | _ => rfl

/-- A time whose text denotes a duration is printed as a time of day, the same. -/
theorem durationOf_time {negative : Bool} {clock : Clock} (hs : textValue (.time t) databaseType = some s)
    (h : durationOf s = some (negative, clock)) (hcal : IsCalendar t) (h₀ : 0 ≤ t.year) :
    negative = false ∧ clock = Time.clock t := by
  simp only [textValue] at hs
  split_ifs at hs
  · obtain rfl := Option.some.inj hs
    have hnone := durationOf_date h₀ []
    rw [List.append_nil, h] at hnone
    cases hnone
  · obtain rfl := Option.some.inj hs
    rw [durationOf_clockText hcal.nanosecond_lt] at h
    cases h
    exact ⟨rfl, rfl⟩
  · obtain rfl := Option.some.inj hs
    rw [List.append_assoc, durationOf_date h₀] at h
    cases h

/-- What `parseTimestamp` accepts denotes the time. -/
theorem denotes_parseTimestamp (h : parseTimestamp s = .ok t) : Denotes s t := by
  unfold parseTimestamp at h
  split at h
  · rename_i t' hdate
    cases h
    exact denotes_date hdate
  · exact denotes_dateTime h

theorem Denotes.reading (h : Denotes s t) :
    readTemporal type s = some (temporalReading type t.year t.month t.day (Time.clock t)) := by
  have hyear : ((t.year.toNat : Nat) : Int) = t.year := Int.toNat_of_nonneg h.year_nonneg
  simp only [readTemporal, temporalReading, h.date, h.clock, Option.bind_some, Option.map_some, hyear]
  split_ifs <;> rfl

section Results

variable {parseFloat : Bytes → Nat → Except NumError Nat} {definition : ColumnDefinition} {size : Nat}

theorem encode_integer (h : integerSize definition.type = some size) :
    0 < size ∧ encodePreparedResultValue parseFloat value definition databaseType =
      encodeInteger ((textValue value databaseType).getD []) definition.unsigned size := by
  unfold integerSize at h
  unfold encodePreparedResultValue
  by_cases h₁ : definition.type = columnTypeTiny
  · rw [if_pos h₁] at h
    cases h
    exact ⟨by omega, if_pos h₁⟩
  rw [if_neg h₁] at h ⊢
  by_cases h₂ : definition.type = columnTypeShort ∨ definition.type = columnTypeYear
  · rw [if_pos h₂] at h
    cases h
    exact ⟨by omega, if_pos h₂⟩
  rw [if_neg h₂] at h ⊢
  by_cases h₃ : definition.type = columnTypeLong ∨ definition.type = columnTypeInt24
  · rw [if_pos h₃] at h
    cases h
    exact ⟨by omega, if_pos h₃⟩
  rw [if_neg h₃] at h ⊢
  by_cases h₄ : definition.type = columnTypeLongLong
  · rw [if_pos h₄] at h
    cases h
    exact ⟨by omega, if_pos h₄⟩
  rw [if_neg h₄] at h
  cases h

theorem encode_temporal (h : isTemporal definition.type) :
    encodePreparedResultValue parseFloat value definition databaseType =
      encodePreparedDateTimeResult value definition.type := by
  unfold encodePreparedResultValue
  rcases h with h | h | h <;> rw [h] <;> rfl

theorem encode_time (h : definition.type = columnTypeTime) :
    encodePreparedResultValue parseFloat value definition databaseType =
      encodePreparedTimeResult ((textValue value databaseType).getD []) := by
  unfold encodePreparedResultValue
  rw [h]
  rfl

theorem encode_bytes (h : isLengthEncoded definition.type) :
    encodePreparedResultValue parseFloat value definition databaseType =
      .ok (appendLengthEncodedBytes [] ((textValue value databaseType).getD [])) := by
  simp only [isLengthEncoded, List.mem_cons, List.not_mem_nil, or_false, not_or] at h
  obtain ⟨h₁, h₂, h₃, h₄, h₅, h₆, h₇, h₈, h₉, h₁₀, h₁₁, h₁₂, h₁₃⟩ := h
  unfold encodePreparedResultValue
  simp only [h₂, h₃, h₄, h₅, h₆, h₇, h₈, h₉, h₁₀, h₁₁, h₁₂, h₁₃, or_self, if_false]

theorem encoded_temporal {b : Bytes} {unsigned : Bool} (h : encodePreparedDateTimeResult value type = .ok b)
    (ht : isTemporal type) (hd : Deliverable value) :
    ∃ a r, Decodes ⟨type, unsigned⟩ b a ∧ a.reading type = some r ∧ temporalOf type value = some r := by
  unfold encodePreparedDateTimeResult at h
  split at h
  · rename_i t
    cases h
    obtain ⟨hcal, h₀, h₁⟩ := hd.time t rfl
    obtain ⟨t', hdecodes, hreading⟩ := decodes_temporalBytes ht hcal h₀ h₁
    exact ⟨.time t', _, hdecodes, congrArg some hreading, rfl⟩
  · rename_i hne
    split at h
    · rename_i t hparse
      cases h
      have hdenotes := denotes_parseTimestamp hparse
      obtain ⟨t', hdecodes, hreading⟩ :=
        decodes_temporalBytes ht hdenotes.calendar hdenotes.year_nonneg hdenotes.year_lt
      refine ⟨.time t', _, hdecodes, congrArg some hreading, ?_⟩
      rw [temporalOf_of_ne hne, hdenotes.reading]
    · cases h

theorem encoded_time {b : Bytes} {unsigned : Bool} (h : encodePreparedTimeResult s = .ok b)
    (hs : textValue value databaseType = some s) (hd : Deliverable value) :
    ∃ a r, Decodes ⟨columnTypeTime, unsigned⟩ b a ∧ a.reading columnTypeTime = some r ∧
      durationValue databaseType value = some r := by
  obtain ⟨negative, hours, minute, second, us, rfl, hh, hm, hsec, hus, hduration⟩ := encodePreparedTimeResult_ok h
  obtain ⟨a, hdecodes, hreading⟩ := decodes_timeBytes hh hm hsec hus
  refine ⟨a, _, hdecodes, hreading, ?_⟩
  by_cases htime : ∃ t, value = .time t
  · obtain ⟨t, rfl⟩ := htime
    obtain ⟨hcal, h₀, -⟩ := hd.time t rfl
    have hclock := durationOf_time hs hduration hcal h₀
    rw [durationValue, hclock.1, hclock.2]
  · rw [durationValue_of_ne fun t ht => htime ⟨t, ht⟩, hs, Option.bind_some, readDuration, hduration]
    rfl

/-- Whatever the encoder accepts, the client reads the value from the bytes. -/
theorem encoded_value {b : Bytes} (h : encodePreparedResultValue parseFloat value definition databaseType = .ok b)
    (hv : value ≠ .null) (hd : Deliverable value) (hfloat : definition.type ≠ columnTypeFloat)
    (hdouble : definition.type ≠ columnTypeDouble) (hnull : definition.type ≠ columnTypeNull) :
    ∃ a r, Decodes ⟨definition.type, definition.unsigned⟩ b a ∧ a.reading definition.type = some r ∧
      readingOf definition.type databaseType value = some r := by
  obtain ⟨s, hs⟩ : ∃ s, textValue value databaseType = some s := exists_text hv
  unfold readingOf
  rcases type_cases hfloat hdouble hnull with ⟨size, hsize⟩ | htemporal | htime | hbytes
  · obtain ⟨hpos, hencode⟩ := encode_integer hsize
    rw [hencode, hs] at h
    obtain ⟨a, i, hdecodes, hnumeral, hreading⟩ := decodes_integer hsize hpos h
    refine ⟨a, .number i, hdecodes, hreading, ?_⟩
    rw [byKind_number hsize, numberOf_text hs hnumeral hd]
    rfl
  · rw [encode_temporal htemporal] at h
    rw [byKind_temporal htemporal]
    exact encoded_temporal h htemporal hd
  · rw [encode_time htime, hs] at h
    rw [htime, byKind_time]
    exact encoded_time h hs hd
  · rw [encode_bytes hbytes, hs] at h
    cases h
    rw [byKind_bytes hbytes, hs]
    obtain ⟨hdecodes, hreading⟩ := decodes_bytes hbytes (Nat.lt_trans (hd.slice _ _ hs) (by decide))
    exact ⟨_, _, hdecodes, hreading, rfl⟩

end Results

/-! ## Texts -/

theorem type_columnDefinition (name database : Text) (column : ColumnType) :
    (columnDefinition name database column).type = mysqlColumnType (toUpper column.databaseTypeName) := by
  unfold columnDefinition
  simp only
  split_ifs <;> rfl

/-- No column is of the type NULL. -/
theorem mysqlColumnType_ne_null (name : Text) : mysqlColumnType name ≠ columnTypeNull := by
  unfold mysqlColumnType
  simp only
  split
  · rename_i names type hfind
    have hmem := List.mem_of_find?_eq_some hfind
    have htable : ∀ entry ∈ columnTypeNames, entry.2 ≠ columnTypeNull := by decide
    exact htable _ hmem
  · decide

/-- Both printed forms of a date denote it. -/
theorem datePart_text (hcal : IsCalendar t) (h₀ : 0 ≤ t.year) (h₁ : t.year < 10000) (ht : type = columnTypeDate)
    (hs : s = dateText t ∨ s = dateText t ++ lit " " ++ clockText t) :
    readTemporal type s = some (temporalReading type t.year t.month t.day (Time.clock t)) := by
  rcases hs with rfl | rfl
  · obtain ⟨hpart, -⟩ := datePart_append (space_not_mem_dateText h₀) (show ∀ c ∈ ([] : Bytes).head?, c = 32 by simp)
    rw [List.append_nil, dateOf_dateText h₀] at hpart
    have hyear : ((t.year.toNat : Nat) : Int) = t.year := Int.toNat_of_nonneg h₀
    simp only [readTemporal, temporalReading, hpart, Option.bind_some, if_pos ht, hyear]
  · exact (denotes_text hcal h₀ h₁).reading

theorem numeral_text {i : Int} (hs : textValue value databaseType = some s) (h : numberOf value = some i) :
    numeral s = some i := by
  cases value with
  | bytes b =>
    cases hs
    exact h
  | string b =>
    cases hs
    exact h
  | float b =>
    cases hs
    exact h
  | bool b =>
    cases hs
    cases b <;> exact h
  | int j =>
    cases hs
    cases h
    exact numeral_toString _
  | uint m =>
    cases hs
    cases h
    exact numeral_of_natural (natural_toString m)
  | _ => cases h

/-- The text that is parsed as a date is the text that is sent, a bool apart, which is neither. -/
theorem readTemporal_text {r : Reading} (hs : textValue value databaseType = some s) (hne : ∀ t, value ≠ .time t)
    (h : readTemporal type (sprint value) = some r) : readTemporal type s = some r := by
  cases value with
  | null => cases hs
  | time t => exact absurd rfl (hne t)
  | bool b =>
    have hnone : datePart (sprint (.bool b)) = none := by cases b <;> decide
    rw [readTemporal, hnone] at h
    cases h
  | _ =>
    cases hs
    exact h

/-- A client that has the text of a date reads the date from it. -/
theorem readTemporal_time (hs : textValue (.time t) databaseType = some s)
    (ht : isTemporal (mysqlColumnType (toUpper databaseType))) (hcal : IsCalendar t) (h₀ : 0 ≤ t.year)
    (h₁ : t.year < 10000) :
    readTemporal (mysqlColumnType (toUpper databaseType)) s =
      some (temporalReading (mysqlColumnType (toUpper databaseType)) t.year t.month t.day (Time.clock t)) := by
  simp only [textValue] at hs
  split_ifs at hs with hdate htime
  · obtain rfl := Option.some.inj hs
    exact datePart_text hcal h₀ h₁ (by rw [hdate]; decide) (.inl rfl)
  · rw [htime] at ht
    exact absurd ht (by decide)
  · obtain rfl := Option.some.inj hs
    exact (denotes_text hcal h₀ h₁).reading

/-- A client that has the text of a value reads the value from it. A text in a TIME column has to denote a
time. -/
theorem read_text {r : Reading} (hs : textValue value databaseType = some s)
    (hr : readingOf (mysqlColumnType (toUpper databaseType)) databaseType value = some r) (hd : Deliverable value)
    (hduration : mysqlColumnType (toUpper databaseType) = columnTypeTime → ∃ d, durationOf s = some d) :
    readText (mysqlColumnType (toUpper databaseType)) s = some r := by
  unfold readText byKind
  unfold readingOf byKind at hr
  split_ifs at hr ⊢ with hinteger htemporal htime
  · obtain ⟨i, hi, rfl⟩ := Option.map_eq_some_iff.1 hr
    rw [numeral_text hs hi]
    rfl
  · by_cases hv : ∃ t, value = .time t
    · obtain ⟨t, rfl⟩ := hv
      obtain ⟨hcal, h₀, h₁⟩ := hd.time t rfl
      rw [readTemporal_time hs htemporal hcal h₀ h₁, ← hr]
      rfl
    · rw [temporalOf_of_ne fun t ht => hv ⟨t, ht⟩] at hr
      exact readTemporal_text hs (fun t ht => hv ⟨t, ht⟩) hr
  · obtain ⟨⟨negative, clock⟩, hd'⟩ := hduration htime
    by_cases hv : ∃ t, value = .time t
    · obtain ⟨t, rfl⟩ := hv
      obtain ⟨hcal, h₀, -⟩ := hd.time t rfl
      obtain ⟨rfl, rfl⟩ := durationOf_time hs hd' hcal h₀
      rw [readDuration, hd', ← hr]
      rfl
    · rw [durationValue_of_ne fun t ht => hv ⟨t, ht⟩, hs] at hr
      exact hr
  · rw [hs] at hr
    exact hr

end Values

end Accelerator.Gateway
