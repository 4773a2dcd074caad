/-
Temporal values on their way from the server to the client. `upstream.New` sets `ParseTime`, with which the
driver delivers a date as a `time.Time` and the zero date as `time.Time{}`, which is also midnight of
0001-01-01. Both renderers keep all other values apart.
-/
import Accelerator.Gateway.BinaryRows

namespace Accelerator.Gateway

open Strings Upstream

/-! ## What the server has -/

/-- A date and time of day, to the microsecond. A DATE is at midnight. -/
@[ext]
structure Moment (type : UInt8) where
  time : Time
  calendar : IsCalendar time
  year_nonneg : 0 ≤ time.year
  year_lt : time.year < 10000
  microseconds : time.nanosecond % 1000 = 0
  midnight : type = columnTypeDate → Time.clock time = ⟨0, 0, 0, 0⟩

/-- A value of a temporal column: 0000-00-00, or a moment. -/
inductive ServerTime (type : UInt8) where
  | zero
  | moment (m : Moment type)

/-- `time.Time{}`. -/
def zeroTime (type : UInt8) : Moment type where
  time := ⟨1, 1, 1, 0, 0, 0, 0⟩
  calendar := ⟨⟨by decide, by decide, by decide, by decide⟩, by decide, by decide, by decide, by decide⟩
  year_nonneg := by decide
  year_lt := by decide
  microseconds := rfl
  midnight _ := rfl

/-- The `time.Time` the driver delivers under `ParseTime`. -/
def ServerTime.delivered {type : UInt8} : ServerTime type → Moment type
  | .zero => zeroTime type
  | .moment m => m

/-! ## What the client is shown -/

section Shown

variable (parseFloat : Bytes → Nat → Except NumError Nat) (name database : Text) (column : ColumnType)

/-- The type of the column in its definition. -/
def columnType : UInt8 := (columnDefinition name database column).type

variable (v : ServerTime (columnType name database column))

/-- In a row of a query. -/
def shownAsText : Option Reading :=
  (textValue (.time v.delivered.time) column.databaseTypeName).bind (readText (columnType name database column))

/-- In a row of a prepared statement. -/
def shownAsBinary : Option Reading :=
  (encodePreparedResultValue parseFloat (.time v.delivered.time) (columnDefinition name database column)
    column.databaseTypeName).toOption.bind fun b =>
      (decodePreparedParameter b 0 ⟨columnType name database column,
        (columnDefinition name database column).unsigned⟩).toOption.bind fun r =>
          r.1.reading (columnType name database column)

end Shown

section Apart

variable {parseFloat : Bytes → Nat → Except NumError Nat} {name database : Text} {column : ColumnType}

/-- The fields of a moment, as far as its column has them. -/
def Moment.reading {type : UInt8} (m : Moment type) : Reading :=
  temporalReading type m.time.year m.time.month m.time.day (Time.clock m.time)

theorem Moment.eq_of_reading {type : UInt8} {m n : Moment type} (h : m.reading = n.reading) : m = n := by
  have hm := m.microseconds
  have hn := n.microseconds
  -- the clock of a DATE is not shown, and is midnight
  obtain ⟨hyear, hmonth, hday, hclock⟩ : m.time.year = n.time.year ∧ m.time.month = n.time.month ∧
      m.time.day = n.time.day ∧ Time.clock m.time = Time.clock n.time := by
    unfold Moment.reading temporalReading at h
    split_ifs at h with htype
    · obtain ⟨hyear, hmonth, hday⟩ := Reading.date.inj h
      exact ⟨hyear, hmonth, hday, (m.midnight htype).trans (n.midnight htype).symm⟩
    · exact Reading.dateTime.inj h
  obtain ⟨hhour, hminute, hsecond, hmicro⟩ := Clock.mk.inj hclock
  exact Moment.ext (Time.ext hyear hmonth hday hhour hminute hsecond (by omega))

variable (ht : isTemporal (columnType name database column)) (v : ServerTime (columnType name database column))
include ht

theorem shownAsText_eq : shownAsText name database column v = some v.delivered.reading := by
  have htype := type_columnDefinition name database column
  obtain ⟨s, hs⟩ : ∃ s, textValue (.time v.delivered.time) column.databaseTypeName = some s :=
    exists_text (by rintro ⟨⟩)
  have hread := readTemporal_time hs (htype ▸ ht) v.delivered.calendar v.delivered.year_nonneg v.delivered.year_lt
  rw [← htype] at hread
  rw [shownAsText, hs, Option.bind_some, readText, byKind_temporal ht]
  exact hread

theorem shownAsBinary_eq : shownAsBinary parseFloat name database column v = some v.delivered.reading := by
  obtain ⟨t, hdecodes, hreading⟩ := @decodes_temporalBytes _ (columnDefinition name database column).unsigned _ ht
    v.delivered.calendar v.delivered.year_nonneg v.delivered.year_lt
  have hdecode := hdecodes [] []
  simp only [List.nil_append, List.append_nil, List.length_nil] at hdecode
  have hencode : encodePreparedResultValue parseFloat (.time v.delivered.time) (columnDefinition name database column)
      column.databaseTypeName = .ok (temporalBytes v.delivered.time (columnType name database column)) :=
    encode_temporal ht
  rw [shownAsBinary, hencode]
  show (decodePreparedParameter _ 0 _).toOption.bind _ = _
  rw [hdecode]
  exact congrArg some hreading

/-- Two values of a temporal column are shown apart, both ways, unless one is the zero date and the other is
midnight of 0001-01-01. -/
theorem temporal_values_apart_iff (w : ServerTime (columnType name database column)) (hne : v ≠ w) :
    (shownAsText name database column v ≠ shownAsText name database column w ∧
        shownAsBinary parseFloat name database column v ≠ shownAsBinary parseFloat name database column w) ↔
      ¬(v.delivered = zeroTime _ ∧ w.delivered = zeroTime _) := by
  rw [shownAsText_eq ht, shownAsText_eq ht, shownAsBinary_eq ht, shownAsBinary_eq ht, and_self]
  constructor
  · rintro happart ⟨hv, hw⟩
    exact happart (by rw [hv, hw])
  · intro hpair hshown
    have hsame := Moment.eq_of_reading (Option.some.inj hshown)
    cases v with
    | zero => exact hpair ⟨rfl, hsame.symm⟩
    | moment m =>
      cases w with
      | zero => exact hpair ⟨hsame, rfl⟩
      | moment n => exact hne (congrArg _ hsame)

end Apart

def dateTimeColumn : ColumnType := ⟨text "DATETIME", none, none, none⟩

def firstOfMarch : Moment (columnType [] [] dateTimeColumn) where
  time := ⟨2024, 3, 1, 12, 30, 0, 500000⟩
  calendar := ⟨⟨by decide, by decide, by decide, by decide⟩, by decide, by decide, by decide, by decide⟩
  year_nonneg := by decide
  year_lt := by decide
  microseconds := rfl
  midnight := by decide

theorem temporal_values_apart_iff_march :
    shownAsText [] [] dateTimeColumn .zero ≠ shownAsText [] [] dateTimeColumn (.moment firstOfMarch) ∧
      shownAsBinary noFloats [] [] dateTimeColumn .zero ≠
        shownAsBinary noFloats [] [] dateTimeColumn (.moment firstOfMarch) := by
  refine (temporal_values_apart_iff (by decide) .zero (.moment firstOfMarch) nofun).2 ?_
  rintro ⟨-, hsame⟩
  exact absurd (congrArg (fun m : Moment _ => m.time.year) hsame) (by decide)

/-- 0000-00-00 00:00:00 and 0001-01-01 00:00:00 are both shown as the latter. -/
theorem zero_date_shown_as_year_one :
    ∃ v w : ServerTime (columnType [] [] dateTimeColumn), v ≠ w ∧
      shownAsText [] [] dateTimeColumn v = shownAsText [] [] dateTimeColumn w ∧
      shownAsBinary noFloats [] [] dateTimeColumn v = shownAsBinary noFloats [] [] dateTimeColumn w ∧
      shownAsText [] [] dateTimeColumn v = some (.dateTime 1 1 1 ⟨0, 0, 0, 0⟩) ∧
      shownAsBinary noFloats [] [] dateTimeColumn v = some (.dateTime 1 1 1 ⟨0, 0, 0, 0⟩) :=
  ⟨.zero, .moment (zeroTime _), nofun, rfl, rfl, by decide +kernel, by decide +kernel⟩

end Accelerator.Gateway
