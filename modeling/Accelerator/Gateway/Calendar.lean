/-
Calendar dates and times of day. Days and dates are inverse to each other, so that `time.Date` keeps the
fields it is given exactly when they are a date and a time of day, and turns any other combination into a
different one. The decoder of temporal parameters does not look at the fields.
-/
import Accelerator.Gateway.Decode

namespace Accelerator.Gateway

open Strings Upstream

/-! ## Dates -/

def isLeap (year : Int) : Prop := year % 4 = 0 ∧ (year % 100 ≠ 0 ∨ year % 400 = 0)

instance (year : Int) : Decidable (isLeap year) := inferInstanceAs (Decidable (_ ∧ _))

def daysIn (year month : Int) : Int :=
  if month = 2 then if isLeap year then 29 else 28
  else if month = 4 ∨ month = 6 ∨ month = 9 ∨ month = 11 then 30
  else 31

/-- A date of the proleptic Gregorian calendar. -/
structure IsDate (year month day : Int) : Prop where
  month_pos : 1 ≤ month
  month_le : month ≤ 12
  day_pos : 1 ≤ day
  day_le : day ≤ daysIn year month

/-! ## Years that begin in March -/

/-- Year `yoe` of an era has a day `doy`, counted from the first of March. -/
def InYear (yoe doy : Int) : Prop :=
  0 ≤ doy ∧ (doy ≤ 364 ∨ doy = 365 ∧ yoe % 4 = 3 ∧ (yoe % 100 ≠ 99 ∨ yoe = 399))

/-- The days of an era before day `doy` of year `yoe`. -/
def dayOfEra (yoe doy : Int) : Int := yoe * 365 + yoe / 4 - yoe / 100 + doy

/-- The year of an era a day lies in, as `civilFromDays` computes it. -/
def yearOfEra (doe : Int) : Int := (doe - doe / 1460 + doe / 36524 - doe / 146096) / 365

section Era

variable {yoe doy : Int}

theorem dayOfEra_bounds (h₀ : 0 ≤ yoe) (h₁ : yoe < 400) (hd : InYear yoe doy) :
    0 ≤ dayOfEra yoe doy ∧ dayOfEra yoe doy < 146097 := by
  obtain ⟨hd₀, hd₁⟩ := hd
  unfold dayOfEra
  omega

/-- The three corrections of the computed year cancel: with `c` centuries, `q` leap cycles and `s` years
the divisions leave `365` days for each year. -/
theorem yearOfEra_dayOfEra (h₀ : 0 ≤ yoe) (h₁ : yoe < 400) (hd : InYear yoe doy) :
    yearOfEra (dayOfEra yoe doy) = yoe := by
  obtain ⟨hd₀, hd₁⟩ := hd
  obtain ⟨c, q, s, hyoe, hc₀, hc₁, hq₀, hq₁, hs₀, hs₁⟩ : ∃ c q s, yoe = 100 * c + 4 * q + s ∧ 0 ≤ c ∧ c ≤ 3 ∧
      0 ≤ q ∧ q ≤ 24 ∧ 0 ≤ s ∧ s ≤ 3 := ⟨yoe / 100, yoe % 100 / 4, yoe % 4, by omega⟩
  have hdoe : dayOfEra yoe doy = 36524 * c + 1461 * q + 365 * s + doy := by
    unfold dayOfEra
    omega
  have hlast : doy = 365 → s = 3 ∧ (q = 24 → c = 3) := by omega
  have hdoy : doy ≤ 365 := by omega
  unfold yearOfEra
  generalize dayOfEra yoe doy = doe at hdoe ⊢
  clear hd₁ h₀ h₁
  have hcentury : doe / 36524 - doe / 146096 = c := by
    by_cases hend : c = 3 ∧ q = 24 ∧ s = 3 ∧ doy = 365
    · obtain ⟨rfl, rfl, rfl, rfl⟩ := hend
      subst hdoe
      decide
    · have h₁ : doe / 36524 = c := by omega
      have h₂ : doe / 146096 = 0 := by omega
      omega
  have hcycle : doe / 1460 = 25 * c + q + (24 * c + q + 365 * s + doy) / 1460 := by omega
  generalize he : (24 * c + q + 365 * s + doy) / 1460 = e at hcycle
  have hnum : doe - doe / 1460 + doe / 36524 - doe / 146096 = 365 * yoe + (doy - e) := by omega
  have hle : 0 ≤ doy - e ∧ doy - e ≤ 364 := by omega
  rw [hnum]
  omega

end Era

/-! ## Days and dates -/

/-- The date of day `doy` of the year from March that begins in a calendar year. -/
def dateInYear (year doy : Int) : Int × Int × Int :=
  let mp := (5 * doy + 2) / 153
  let month := if mp < 10 then mp + 3 else mp - 9
  (if month ≤ 2 then year + 1 else year, month, doy - (153 * mp + 2) / 5 + 1)

section Civil

variable {yoe doy year month day : Int}

theorem civilFromDays_dayOfEra (era : Int) (h₀ : 0 ≤ yoe) (h₁ : yoe < 400) (hd : InYear yoe doy) :
    civilFromDays (era * 146097 + dayOfEra yoe doy - 719468) = dateInYear (yoe + era * 400) doy := by
  have hbounds := dayOfEra_bounds h₀ h₁ hd
  have hera : (era * 146097 + dayOfEra yoe doy) / 146097 = era := by omega
  have hdoe : era * 146097 + dayOfEra yoe doy - era * 146097 = dayOfEra yoe doy := by omega
  have hdoy : dayOfEra yoe doy - (365 * yoe + yoe / 4 - yoe / 100) = doy := by
    unfold dayOfEra
    omega
  have hyear := yearOfEra_dayOfEra h₀ h₁ hd
  unfold yearOfEra at hyear
  unfold civilFromDays dateInYear
  simp only [Int.sub_add_cancel, hera, hdoe, hyear, hdoy]

/-- The year from March a date lies in, and the month of that year. -/
theorem inYear_of_isDate {y mp : Int} (h : IsDate year month day) (hy : (if month ≤ 2 then year - 1 else year) = y)
    (hmp : (if month > 2 then month - 3 else month + 9) = mp) :
    InYear (y - y / 400 * 400) ((153 * mp + 2) / 5 + day - 1) ∧
      day ≤ (153 * (mp + 1) + 2) / 5 - (153 * mp + 2) / 5 := by
  obtain ⟨hm₀, hm₁, hd₀, hd₁⟩ := h
  unfold daysIn isLeap at hd₁
  unfold InYear
  have hm : month = 1 ∨ month = 2 ∨ month = 3 ∨ month = 4 ∨ month = 5 ∨ month = 6 ∨ month = 7 ∨ month = 8 ∨
      month = 9 ∨ month = 10 ∨ month = 11 ∨ month = 12 := by omega
  rcases hm with rfl | rfl | rfl | rfl | rfl | rfl | rfl | rfl | rfl | rfl | rfl | rfl <;>
    simp only [Int.reduceEq, Int.reduceLE, Int.reduceGT, or_false, or_true, reduceIte] at hd₁ hy hmp <;> omega

theorem civilFromDays_daysFromCivil (h : IsDate year month day) :
    civilFromDays (daysFromCivil year month day) = (year, month, day) := by
  unfold daysFromCivil
  simp only
  generalize hy : (if month ≤ 2 then year - 1 else year) = y
  generalize hmp : (if month > 2 then month - 3 else month + 9) = mp
  obtain ⟨hin, hday⟩ := inYear_of_isDate h hy hmp
  have hdate := civilFromDays_dayOfEra (y / 400) (by omega) (by omega) hin
  unfold dayOfEra at hdate
  obtain ⟨hm₀, hm₁, hd₀, -⟩ := h
  have hmonth : (5 * ((153 * mp + 2) / 5 + day - 1) + 2) / 153 = mp := by omega
  rw [hdate]
  unfold dateInYear
  simp only [hmonth, Prod.mk.injEq]
  omega

end Civil

/-! ## Times -/

/-- The fields are a calendar date and a time of day. -/
structure IsCalendar (t : Time) : Prop where
  date : IsDate t.year t.month t.day
  hour_lt : t.hour < 24
  minute_lt : t.minute < 60
  second_lt : t.second < 60
  nanosecond_lt : t.nanosecond < 1000000000

/-- The day of the month only counts on. -/
theorem daysFromCivil_add (year month day : Int) :
    daysFromCivil year month 1 + (day - 1) = daysFromCivil year month day := by
  unfold daysFromCivil
  simp only
  omega

/-- `time.Date` keeps fields that are a date and a time of day. -/
theorem timeDate_eq {t : Time} (h : IsCalendar t) :
    timeDate t.year t.month t.day t.hour t.minute t.second t.nanosecond = t := by
  obtain ⟨hdate, hh, hmi, hs, hn⟩ := h
  have hmonth₀ := hdate.month_pos
  have hmonth₁ := hdate.month_le
  unfold timeDate
  have h₁ : (t.second : Int) + (t.nanosecond : Int) / 1000000000 = t.second := by omega
  have h₂ : (t.minute : Int) + (t.second : Int) / 60 = t.minute := by omega
  have h₃ : (t.hour : Int) + (t.minute : Int) / 60 = t.hour := by omega
  have h₄ : (t.hour : Int) / 24 = 0 := by omega
  have h₅ : t.year + ((t.month : Int) - 1) / 12 = t.year := by omega
  have h₆ : ((t.month : Int) - 1) % 12 + 1 = t.month := by omega
  simp only [h₁, h₂, h₃, h₄, h₅, h₆, Int.add_zero, daysFromCivil_add, civilFromDays_daysFromCivil hdate,
    Int.toNat_natCast]
  obtain ⟨year, month, day, hour, minute, second, nanosecond⟩ := t
  simp only [Time.mk.injEq, true_and] at hh hmi hs hn ⊢
  omega

/-! ## Temporal parameters -/

/-- The payload has a value of length 4, 7 or 11 at a position. -/
def HoldsTemporal (payload : Bytes) (position : Nat) : Prop :=
  position < payload.length ∧ byteAt payload position ∈ [4, 7, 11] ∧
    position + 1 + (byteAt payload position).toNat ≤ payload.length

instance (payload : Bytes) (position : Nat) : Decidable (HoldsTemporal payload position) :=
  inferInstanceAs (Decidable (_ ∧ _))

/-- The fields a temporal value at a position encodes; those its length leaves out are zero. -/
def encodedTime (payload : Bytes) (position : Nat) : Time :=
  let length := (byteAt payload position).toNat
  let field := fun offset => (byteAt payload (position + 1 + offset)).toNat
  { year := littleEndian ((payload.drop (position + 1)).take 2)
    month := field 2
    day := field 3
    hour := if length ≥ 7 then field 4 else 0
    minute := if length ≥ 7 then field 5 else 0
    second := if length ≥ 7 then field 6 else 0
    nanosecond := (if length = 11 then littleEndian ((payload.drop (position + 1 + 7)).take 4) else 0) * 1000 }

/-- `time.Date` of the fields of a time. -/
def normalised (t : Time) : Time :=
  timeDate t.year t.month t.day t.hour t.minute t.second t.nanosecond

section Decoding

variable {payload : Bytes} {position i j length : Nat}

theorem index_eq (h : i < payload.length) : (index payload i : Checked UInt8) = .ok (byteAt payload i) := by
  unfold index byteAt
  simp [h]

theorem slice_eq (h : i ≤ j) (hj : j ≤ payload.length) :
    (slice payload i j : Checked Bytes) = .ok ((payload.drop i).take (j - i)) := by
  unfold slice
  exact if_pos ⟨h, hj⟩

theorem readClock_eq (h : position + length ≤ payload.length) :
    readClock payload position length = .ok (if length ≥ 7 then (byteAt payload (position + 4)).toNat else 0,
      if length ≥ 7 then (byteAt payload (position + 5)).toNat else 0,
      if length ≥ 7 then (byteAt payload (position + 6)).toNat else 0) := by
  unfold readClock
  by_cases hl : length ≥ 7
  · simp only [if_pos hl]
    rw [index_eq (by omega), index_eq (by omega), index_eq (by omega)]
    rfl
  · simp only [if_neg hl]

theorem readMicroseconds_eq (h : position + length ≤ payload.length) :
    readMicroseconds payload position length =
      .ok (if length = 11 then littleEndian ((payload.drop (position + 7)).take 4) else 0) := by
  unfold readMicroseconds
  by_cases hl : length = 11
  · simp only [if_pos hl]
    rw [slice_eq (by omega) (by omega)]
    simp only [Nat.add_sub_add_left, Nat.reduceSub]
    rfl
  · simp only [if_neg hl]

/-- A complete value of length 4, 7 or 11 is always accepted, as `time.Date` of its fields. -/
theorem decodePreparedDateTime_eq (h : HoldsTemporal payload position) :
    decodePreparedDateTime payload position = .ok (.time (normalised (encodedTime payload position)),
      position + 1 + (byteAt payload position).toNat) := by
  obtain ⟨hp, hlen, hle⟩ := h
  have hlength : (byteAt payload position).toNat = 4 ∨ (byteAt payload position).toNat = 7 ∨
      (byteAt payload position).toNat = 11 := by
    simp only [List.mem_cons, List.not_mem_nil, or_false] at hlen
    rcases hlen with h | h | h <;> simp [h]
  unfold decodePreparedDateTime encodedTime normalised
  rw [if_neg (by omega), index_eq hp]
  simp only [bind, Except.bind]
  rw [if_neg (by omega), if_neg (by omega), slice_eq (by omega) (by omega), index_eq (by omega), index_eq (by omega),
    readClock_eq hle, readMicroseconds_eq hle]
  simp only [Nat.add_sub_cancel_left, pure, Except.pure, Int.natCast_mul]
  rfl

/-- A decoded temporal value: the time has the fields that are encoded, and fields that are not a date and a
time of day are an error. -/
def KeepsFields (payload : Bytes) (position : Nat) : Prop :=
  (∀ value next, decodePreparedDateTime payload position = .ok (value, next) →
    byteAt payload position ∈ [4, 7, 11] → value = .time (encodedTime payload position)) ∧
  (HoldsTemporal payload position → ¬IsCalendar (encodedTime payload position) →
    ∃ e, decodePreparedDateTime payload position = .error (.error e))

/-- The decoder accepts nothing of these lengths but complete values. -/
theorem holdsTemporal_of_accepted {value : Argument} {next : Nat}
    (h : decodePreparedDateTime payload position = .ok (value, next)) (hlen : byteAt payload position ∈ [4, 7, 11]) :
    HoldsTemporal payload position := by
  unfold decodePreparedDateTime at h
  by_cases hp : position ≥ payload.length
  · rw [if_pos hp] at h
    cases h
  rw [if_neg hp, index_eq (by omega)] at h
  simp only [bind, Except.bind] at h
  refine ⟨by omega, hlen, ?_⟩
  by_contra hle
  have hpos : (byteAt payload position).toNat ≠ 0 := by
    simp only [List.mem_cons, List.not_mem_nil, or_false] at hlen
    rcases hlen with h | h | h <;> simp [h]
  rw [if_neg hpos, if_pos (by omega)] at h
  cases h

/-- Temporal parameters keep their fields where these are a date and a time of day, and only there: no other
combination is rejected. -/
theorem temporal_fields_kept_iff (payload : Bytes) (position : Nat) :
    KeepsFields payload position ↔
      (HoldsTemporal payload position → IsCalendar (encodedTime payload position)) := by
  constructor
  · rintro ⟨-, hreject⟩ hholds
    by_contra hcal
    obtain ⟨e, he⟩ := hreject hholds hcal
    rw [decodePreparedDateTime_eq hholds] at he
    cases he
  · intro hcal
    refine ⟨fun value next hok hlen => ?_, fun hholds hnot => absurd (hcal hholds) hnot⟩
    have hholds := holdsTemporal_of_accepted hok hlen
    rw [decodePreparedDateTime_eq hholds, normalised, timeDate_eq (hcal hholds)] at hok
    cases hok
    rfl

/-- The 31st of February 2024 is accepted as the 2nd of March. -/
theorem temporal_february_31 :
    decodePreparedDateTime [4, 0xe8, 0x07, 2, 31] 0 = .ok (.time ⟨2024, 3, 2, 0, 0, 0, 0⟩, 5) ∧
      encodedTime [4, 0xe8, 0x07, 2, 31] 0 = ⟨2024, 2, 31, 0, 0, 0, 0⟩ ∧
      ¬KeepsFields [4, 0xe8, 0x07, 2, 31] 0 := by
  refine ⟨by decide, by decide, fun h => ?_⟩
  have hvalue := h.1 (.time ⟨2024, 3, 2, 0, 0, 0, 0⟩) 5 (by decide) (by decide)
  exact absurd hvalue (by decide)

end Decoding

end Accelerator.Gateway
