/-
Dates and times as text: how a client reads the text of a temporal value, and the parser of Go's `time`
package for the two layouts that `gateway/prepared.go` uses. What the parser accepts is what the client reads.
-/
import Accelerator.Gateway.Calendar
import Accelerator.Gateway.Columns
import Accelerator.Strings.Decimal

namespace Accelerator.Gateway

open Strings Upstream

/-! ## What a text denotes -/

/-- A time of day or a duration, to the microsecond. -/
structure Clock where
  hours : Nat
  minutes : Nat
  seconds : Nat
  microseconds : Nat
  deriving DecidableEq, Repr

/-- The fraction of a second in microseconds: its first six places. -/
def fractionOf (fraction : Bytes) : Option Nat := natural (places 6 fraction)

/-- The clock a text `h:m:s` denotes, with a fraction behind a mark. -/
def clockOf (mark : UInt8 → Bool) (s : Bytes) : Option Clock :=
  let fraction := (s.dropWhile fun c => !mark c).drop 1
  match (s.takeWhile fun c => !mark c).splitOn 58 with
  | [hours, minutes, seconds] => do
    return ⟨← natural hours, ← natural minutes, ← natural seconds, ← fractionOf fraction⟩
  | _ => none

/-- The signed duration a TIME text denotes. -/
def durationOf : Bytes → Option (Bool × Clock)
  | 45 :: s => (clockOf (· == 46) s).map (true, ·)
  | s => (clockOf (· == 46) s).map (false, ·)

/-- The date a text `y-m-d` denotes. -/
def dateOf (s : Bytes) : Option (Nat × Nat × Nat) :=
  match s.splitOn 45 with
  | [year, month, day] => do return (← natural year, ← natural month, ← natural day)
  | _ => none

def commaOrPeriod (c : UInt8) : Bool := c == 46 || c == 44

/-- The date in a text, whether a time of day follows it or not. -/
def datePart (s : Bytes) : Option (Nat × Nat × Nat) := dateOf (s.takeWhile (· != 32))

/-- The time of day in a text, midnight when there is none. -/
def clockPart (s : Bytes) : Option Clock :=
  let clock := (s.dropWhile (· != 32)).dropWhile (· == 32)
  if clock = [] then some ⟨0, 0, 0, 0⟩ else clockOf commaOrPeriod clock

theorem digit_ne_mark {c : UInt8} (h : isDigit c = true) : commaOrPeriod c = false := by
  rw [commaOrPeriod, Bool.or_eq_false_iff, beq_eq_false_iff_ne, beq_eq_false_iff_ne]
  constructor <;> rintro rfl <;> cases h

theorem digit_ne_period {c : UInt8} (h : isDigit c = true) : (c == 46) = false := by
  rw [beq_eq_false_iff_ne]
  rintro rfl
  cases h

section Composed

variable {a b c rest : Bytes} {i j k : Nat}

theorem not_mem_of_natural {x : UInt8} (h : natural a = some i) (hx : isDigit x = false) : x ∉ a := by
  intro hmem
  have hall := (natural_eq_some.1 h).2.1
  rw [List.all_eq_true] at hall
  rw [hall x hmem] at hx
  cases hx

/-- A list is cut where its first part ends, if the second begins with a stop. -/
theorem span_append {p : UInt8 → Bool} (ha : ∀ x ∈ a, p x = true) (hb : ∀ x ∈ b.head?, p x = false) :
    (a ++ b).takeWhile p = a ∧ (a ++ b).dropWhile p = b := by
  rw [List.takeWhile_append_of_pos ha, List.dropWhile_append_of_pos ha]
  cases b with
  | nil => simp
  | cons x b => simp [hb x rfl]

theorem splitOn_three {x : UInt8} (ha : natural a = some i) (hb : natural b = some j) (hc : natural c = some k)
    (hx : isDigit x = false) : (a ++ x :: (b ++ x :: c)).splitOn x = [a, b, c] := by
  have hfree : ∀ {s : Bytes} {n : Nat}, natural s = some n → ∀ y ∈ s, (y == x) = false := by
    intro s n hs y hy
    have hne := not_mem_of_natural hs hx
    rw [beq_eq_false_iff_ne]
    rintro rfl
    exact hne hy
  unfold List.splitOn
  rw [List.splitOnP_append_cons_of_forall_mem (hfree ha) x (by simp),
    List.splitOnP_append_cons_of_forall_mem (hfree hb) x (by simp), List.splitOnP_eq_singleton (hfree hc)]

theorem dateOf_fields (ha : natural a = some i) (hb : natural b = some j) (hc : natural c = some k) :
    dateOf (a ++ 45 :: (b ++ 45 :: c)) = some (i, j, k) := by
  unfold dateOf
  rw [splitOn_three ha hb hc rfl]
  simp [ha, hb, hc]

/-- The clock of three numerals, with or without a fraction. -/
theorem clockOf_fields {mark : UInt8 → Bool} (ha : natural a = some i) (hb : natural b = some j)
    (hc : natural c = some k) (hdigit : ∀ x, isDigit x = true → mark x = false) (hcolon : mark 58 = false)
    (hrest : ∀ x ∈ rest.head?, mark x = true) {us : Nat} (hus : fractionOf rest.tail = some us) :
    clockOf mark (a ++ 58 :: (b ++ 58 :: c) ++ rest) = some ⟨i, j, k, us⟩ := by
  have hnat : ∀ {s : Bytes} {n : Nat}, natural s = some n → ∀ x ∈ s, mark x = false := fun hs x hx =>
    hdigit x (List.all_eq_true.1 (natural_eq_some.1 hs).2.1 x hx)
  have hplain : ∀ x ∈ a ++ 58 :: (b ++ 58 :: c), (!mark x) = true := by
    intro x hx
    simp only [List.mem_append, List.mem_cons] at hx
    rcases hx with hx | rfl | hx | rfl | hx
    · rw [hnat ha x hx]; rfl
    · rw [hcolon]; rfl
    · rw [hnat hb x hx]; rfl
    · rw [hcolon]; rfl
    · rw [hnat hc x hx]; rfl
  obtain ⟨htake, hdrop⟩ := span_append hplain (b := rest) fun x hx => by rw [hrest x hx]; rfl
  unfold clockOf
  simp only [htake, hdrop]
  rw [splitOn_three ha hb hc rfl]
  simp [ha, hb, hc, hus]

end Composed

/-! ## `time.Parse` -/

/-- The elements of the layouts `2006-01-02` and `2006-01-02 15:04:05.999999`. -/
inductive Std where
  | longYear
  | zeroMonth
  | zeroDay
  | hour
  | zeroMinute
  | zeroSecond
  | fracSecond9
  deriving DecidableEq, Repr

/-- Why a value does not match a layout. -/
inductive ParseError where
  | mismatch
  | outOfRange (field : String)
  | extraText
  deriving DecidableEq, Repr

/-- `skip(value, prefix)`; the text before an element of the layouts is at most one byte, and a space stands
for a run of them. -/
def skip (value : Bytes) : Option UInt8 → Option Bytes
  | none => some value
  | some c =>
    if c = 32 then
      if value.head? = none ∨ value.head? = some 32 then some (value.dropWhile (· == 32)) else none
    else if value.head? = some c then some value.tail
    else none

/-- `getnum`: one digit or two, always two when it is fixed. -/
def getnum (fixed : Bool) : Bytes → Option (Nat × Bytes)
  | [] => none
  | [a] => if !isDigit a || fixed then none else some (digitsFrom 0 [a], [])
  | a :: b :: s =>
    if !isDigit a then none
    else if !isDigit b then
      if fixed then none else some (digitsFrom 0 [a], b :: s)
    else some (digitsFrom 0 [a, b], s)

/-- The year of a layout. Its first byte is a digit, so that `atoi` sees no sign. -/
def getyear (s : Bytes) : Option (Nat × Bytes) :=
  if s.length < 4 then none else (natural (s.take 4)).map (·, s.drop 4)

/-- The nanoseconds of a fraction: `parseNanoseconds` on all its digits, of which nine count. -/
def getfraction : Bytes → Nat × Bytes
  | mark :: digit :: s =>
    if commaOrPeriod mark && isDigit digit then
      let digits := (digit :: s).takeWhile isDigit
      (digitsFrom 0 (digits.take 9) * 10 ^ (9 - digits.length), (digit :: s).dropWhile isDigit)
    else (0, mark :: digit :: s)
  | s => (0, s)

/-- A field that has to be below a bound. -/
def ranged (field : String) (low bound : Nat) (parsed : Option (Nat × Bytes)) : Except ParseError (Nat × Bytes) :=
  match parsed with
  | none => .error .mismatch
  | some (n, rest) => if n < low ∨ bound ≤ n then .error (.outOfRange field) else .ok (n, rest)

/-- Put a parsed field into the time under construction. -/
def setField (set : Nat → Time) (parsed : Except ParseError (Nat × Bytes)) : Except ParseError (Time × Bytes) :=
  parsed.map fun p => (set p.1, p.2)

/-- The switch of `parse` on the element. -/
def parseStd (t : Time) (value : Bytes) : Std → Except ParseError (Time × Bytes)
  | .longYear =>
    match getyear value with
    | none => .error .mismatch
    | some (year, rest) => .ok ({ t with year }, rest)
  | .zeroMonth => setField (fun month => { t with month }) (ranged "month" 1 13 (getnum true value))
  | .zeroDay =>
    match getnum true value with
    | none => .error .mismatch
    | some (day, rest) => .ok ({ t with day }, rest)
  | .hour => setField (fun hour => { t with hour }) (ranged "hour" 0 24 (getnum false value))
  | .zeroMinute => setField (fun minute => { t with minute }) (ranged "minute" 0 60 (getnum true value))
  | .zeroSecond => setField (fun second => { t with second }) (ranged "second" 0 60 (getnum true value))
  | .fracSecond9 => .ok ({ t with nanosecond := (getfraction value).1 }, (getfraction value).2)

/-- The end of `parse`: nothing is left, and the month has the day. -/
def parseDone (t : Time) (value : Bytes) : Except ParseError Time :=
  if value ≠ [] then .error .extraText
  else if t.day < 1 ∨ (t.day : Int) > daysIn t.year t.month then .error (.outOfRange "day")
  else .ok (timeDate t.year t.month t.day t.hour t.minute t.second t.nanosecond)

/-- The loop of `parse` over the elements of a layout, each with the text before it. -/
def parseLayout (t : Time) (value : Bytes) : List (Option UInt8 × Std) → Except ParseError Time
  | [] => parseDone t value
  | (before, std) :: layout =>
    match skip value before with
    | none => .error .mismatch
    | some value => do
      let (t, value) ← parseStd t value std
      parseLayout t value layout

/-- `2006-01-02`. -/
def dateLayout : List (Option UInt8 × Std) := [(none, .longYear), (some 45, .zeroMonth), (some 45, .zeroDay)]

/-- `15:04:05.999999`, after a space. -/
def clockLayout : List (Option UInt8 × Std) :=
  [(some 32, .hour), (some 58, .zeroMinute), (some 58, .zeroSecond), (none, .fracSecond9)]

/-- `time.ParseInLocation(layout, value, time.UTC)`. -/
def parseInLocation (layout : List (Option UInt8 × Std)) (value : Bytes) : Except ParseError Time :=
  parseLayout ⟨0, 0, 0, 0, 0, 0, 0⟩ value layout

example : parseInLocation dateLayout (lit "2024-02-29") = .ok ⟨2024, 2, 29, 0, 0, 0, 0⟩ := by decide

example : parseInLocation dateLayout (lit "2023-02-29") = .error (.outOfRange "day") := by decide

example : parseInLocation (dateLayout ++ clockLayout) (lit "2024-02-29  7:08:09,5") =
    .ok ⟨2024, 2, 29, 7, 8, 9, 500000000⟩ := by decide

/-! ## What the parser accepts -/

/-- A text begins with a numeral. -/
def OpensWith (s : Bytes) (n : Nat) (rest : Bytes) : Prop := ∃ d, s = d ++ rest ∧ natural d = some n

section Accepted

variable {s rest value : Bytes} {n : Nat} {t t' : Time}

theorem natural_of_all (h : s.all isDigit) (hne : s ≠ []) : natural s = some (digitsFrom 0 s) :=
  natural_eq_some.2 ⟨hne, h, rfl⟩

theorem opensWith_getyear (h : getyear s = some (n, rest)) : OpensWith s n rest ∧ n < 10000 := by
  unfold getyear at h
  split at h
  · cases h
  obtain ⟨m, hm, hpair⟩ := Option.map_eq_some_iff.1 h
  cases hpair
  have hlt := digitsFrom_lt (natural_eq_some.1 hm).2.1
  rw [(natural_eq_some.1 hm).2.2, List.length_take, Nat.min_eq_left (by omega)] at hlt
  exact ⟨⟨s.take 4, (List.take_append_drop ..).symm, hm⟩, hlt⟩

theorem opensWith_getnum {fixed : Bool} (h : getnum fixed s = some (n, rest)) : OpensWith s n rest := by
  unfold getnum at h
  split at h
  · cases h
  · rename_i a
    split at h
    · cases h
    rename_i ha
    cases h
    simp only [Bool.or_eq_true, Bool.not_eq_true', not_or, Bool.not_eq_false] at ha
    exact ⟨[a], rfl, natural_of_all (by simp [ha.1]) (by simp)⟩
  · rename_i a b s
    split at h
    · cases h
    rename_i ha
    simp only [Bool.not_eq_true', Bool.not_eq_false] at ha
    split at h
    · split at h
      · cases h
      cases h
      exact ⟨[a], rfl, natural_of_all (by simp [ha]) (by simp)⟩
    rename_i hb
    simp only [Bool.not_eq_true', Bool.not_eq_false] at hb
    cases h
    exact ⟨[a, b], rfl, natural_of_all (by simp [ha, hb]) (by simp)⟩

theorem opensWith_ranged {field : String} {low bound : Nat} {fixed : Bool}
    (h : ranged field low bound (getnum fixed s) = .ok (n, rest)) : OpensWith s n rest ∧ low ≤ n ∧ n < bound := by
  unfold ranged at h
  split at h
  · cases h
  rename_i m rest' hnum
  split at h
  · cases h
  cases h
  exact ⟨opensWith_getnum hnum, by omega⟩

/-- A fraction that nothing follows: what is counted of it are its first nine places. -/
theorem fractionOf_getfraction (h : getfraction s = (n, [])) :
    fractionOf s.tail = some (n / 1000) ∧ n < 1000000000 ∧ ∀ c ∈ s.head?, commaOrPeriod c = true := by
  unfold getfraction at h
  split at h
  · rename_i mark digit s
    split at h
    · rename_i hmark
      simp only [Bool.and_eq_true] at hmark
      simp only [Prod.mk.injEq] at h
      obtain ⟨hn, hrest⟩ := h
      have hall : (digit :: s).all isDigit := by
        rw [List.all_eq_true]
        exact List.dropWhile_eq_nil_iff.1 hrest
      have hself : (digit :: s).takeWhile isDigit = digit :: s :=
        List.takeWhile_eq_self_iff.2 (List.all_eq_true.1 hall)
      rw [hself, ← digitsFrom_places] at hn
      have hlt := digitsFrom_lt (all_places 9 hall)
      rw [length_places, hn] at hlt
      refine ⟨?_, hlt, fun c hc => ?_⟩
      · have hdiv : n / 1000 = digitsFrom 0 (places 6 (digit :: s)) := hn ▸ digitsFrom_places_div 6 3 hall
        have hne : places 6 (digit :: s) ≠ [] := by
          rw [← List.length_pos_iff, length_places]
          decide
        rw [fractionOf, List.tail_cons, natural_of_all (all_places 6 hall) hne, ← hdiv]
      · cases hc
        exact hmark.1
    · cases h
  · cases h
    exact ⟨by decide, by decide, by simp⟩

theorem parseLayout_cons {before : Option UInt8} {std : Std} {layout : List (Option UInt8 × Std)}
    (h : parseLayout t value ((before, std) :: layout) = .ok t') :
    ∃ v t₁ rest, skip value before = some v ∧ parseStd t v std = .ok (t₁, rest) ∧
      parseLayout t₁ rest layout = .ok t' := by
  unfold parseLayout at h
  split at h
  · cases h
  rename_i v hskip
  obtain ⟨⟨t₁, rest⟩, hstd, h⟩ := ok_of_bind h
  exact ⟨v, t₁, rest, hskip, hstd, h⟩

theorem skip_byte {c : UInt8} (h : skip value (some c) = some rest) (hc : c ≠ 32) : value = c :: rest := by
  simp only [skip, if_neg hc] at h
  split at h
  · rename_i hhead
    cases h
    exact List.eq_cons_of_mem_head? hhead
  · cases h

theorem skip_space (h : skip value (some 32) = some rest) :
    rest = value.dropWhile (· == 32) ∧ ∀ c ∈ value.head?, c = 32 := by
  simp only [skip, if_true] at h
  split at h
  · rename_i hhead
    cases h
    refine ⟨rfl, fun c hc => ?_⟩
    rcases hhead with hnone | hsome
    · rw [hnone] at hc
      cases hc
    · rw [hsome] at hc
      cases hc
      rfl
  · cases h

theorem parseDone_nil (h : parseDone t value = .ok t') : value = [] := by
  unfold parseDone at h
  split at h
  · cases h
  · rename_i hvalue
    exact not_not.1 hvalue

/-- The end of the parser keeps fields that are within their ranges. -/
theorem parseDone_ok (h : parseDone t value = .ok t') (hm₀ : 1 ≤ t.month) (hm₁ : t.month < 13) (hh : t.hour < 24)
    (hmi : t.minute < 60) (hs : t.second < 60) (hn : t.nanosecond < 1000000000) : t' = t ∧ IsCalendar t := by
  unfold parseDone at h
  split at h
  · cases h
  split at h
  · cases h
  rename_i hday
  have hcal : IsCalendar t := ⟨⟨by omega, by omega, by omega, by omega⟩, hh, hmi, hs, hn⟩
  cases h
  exact ⟨timeDate_eq hcal, hcal⟩

theorem parseStd_longYear (h : parseStd t s .longYear = .ok (t', rest)) :
    ∃ year : Nat, (OpensWith s year rest ∧ year < 10000) ∧ t' = { t with year := year } := by
  simp only [parseStd] at h
  split at h
  · cases h
  rename_i year rest' hyear
  cases h
  exact ⟨year, opensWith_getyear hyear, rfl⟩

theorem parseStd_zeroDay (h : parseStd t s .zeroDay = .ok (t', rest)) :
    ∃ day, OpensWith s day rest ∧ t' = { t with day := day } := by
  simp only [parseStd] at h
  split at h
  · cases h
  rename_i day rest' hday
  cases h
  exact ⟨day, opensWith_getnum hday, rfl⟩

/-- A field with a range. -/
theorem setField_ranged {field : String} {low bound : Nat} {fixed : Bool} {set : Nat → Time}
    (h : setField set (ranged field low bound (getnum fixed s)) = .ok (t', rest)) :
    ∃ n, OpensWith s n rest ∧ low ≤ n ∧ n < bound ∧ t' = set n := by
  obtain ⟨⟨n, rest'⟩, hn, heq⟩ := ok_of_map h
  cases heq
  obtain ⟨hopens, hlow, hbound⟩ := opensWith_ranged hn
  exact ⟨n, hopens, hlow, hbound, rfl⟩

theorem parseStd_zeroMonth (h : parseStd t s .zeroMonth = .ok (t', rest)) :
    ∃ month, OpensWith s month rest ∧ 1 ≤ month ∧ month < 13 ∧ t' = { t with month := month } :=
  setField_ranged h

theorem parseStd_hour (h : parseStd t s .hour = .ok (t', rest)) :
    ∃ hour, OpensWith s hour rest ∧ 0 ≤ hour ∧ hour < 24 ∧ t' = { t with hour := hour } :=
  setField_ranged h

theorem parseStd_zeroMinute (h : parseStd t s .zeroMinute = .ok (t', rest)) :
    ∃ minute, OpensWith s minute rest ∧ 0 ≤ minute ∧ minute < 60 ∧ t' = { t with minute := minute } :=
  setField_ranged h

theorem parseStd_zeroSecond (h : parseStd t s .zeroSecond = .ok (t', rest)) :
    ∃ second, OpensWith s second rest ∧ 0 ≤ second ∧ second < 60 ∧ t' = { t with second := second } :=
  setField_ranged h

/-- The fields of a date at the front of a text. -/
theorem parseLayout_date {layout : List (Option UInt8 × Std)}
    (h : parseLayout ⟨0, 0, 0, 0, 0, 0, 0⟩ value (dateLayout ++ layout) = .ok t') :
    ∃ (year month day : Nat) (date rest : Bytes), value = date ++ rest ∧ dateOf date = some (year, month, day) ∧
      32 ∉ date ∧ year < 10000 ∧ 1 ≤ month ∧ month < 13 ∧
      parseLayout ⟨year, month, day, 0, 0, 0, 0⟩ rest layout = .ok t' := by
  obtain ⟨v₁, t₁, w₁, hskip₁, hstd₁, h⟩ := parseLayout_cons h
  obtain ⟨v₂, t₂, w₂, hskip₂, hstd₂, h⟩ := parseLayout_cons h
  obtain ⟨v₃, t₃, w₃, hskip₃, hstd₃, h⟩ := parseLayout_cons h
  obtain ⟨year, ⟨⟨a, ha, hyear⟩, hlt⟩, rfl⟩ := parseStd_longYear hstd₁
  obtain ⟨month, ⟨b, hb, hmonth⟩, hm₀, hm₁, rfl⟩ := parseStd_zeroMonth hstd₂
  obtain ⟨day, ⟨c, hc, hday⟩, rfl⟩ := parseStd_zeroDay hstd₃
  have hvalue : value = a ++ 45 :: (b ++ 45 :: c) ++ w₃ := by
    have hdash₁ := skip_byte hskip₂ (by decide)
    have hdash₂ := skip_byte hskip₃ (by decide)
    cases hskip₁
    simp only [ha, hdash₁, hb, hdash₂, hc, List.append_assoc, List.cons_append]
  refine ⟨year, month, day, a ++ 45 :: (b ++ 45 :: c), w₃, hvalue, dateOf_fields hyear hmonth hday, ?_, hlt, hm₀,
    hm₁, h⟩
  simp only [List.mem_append, List.mem_cons, not_or]
  exact ⟨not_mem_of_natural hyear rfl, by decide, not_mem_of_natural hmonth rfl, by decide,
    not_mem_of_natural hday rfl⟩

/-- A parsed time has the fields that the text denotes. -/
structure Denotes (s : Bytes) (t : Time) : Prop where
  date : datePart s = some (t.year.toNat, t.month, t.day)
  clock : clockPart s = some ⟨t.hour, t.minute, t.second, t.nanosecond / 1000⟩
  calendar : IsCalendar t
  year_nonneg : 0 ≤ t.year
  year_lt : t.year < 10000

/-- The fields of a time of day at the end of a text. -/
theorem parseLayout_clock (h : parseLayout t value clockLayout = .ok t') (hm₀ : 1 ≤ t.month) (hm₁ : t.month < 13) :
    (∀ c ∈ value.head?, c = 32) ∧ value.dropWhile (· == 32) ≠ [] ∧
      clockOf commaOrPeriod (value.dropWhile (· == 32)) =
        some ⟨t'.hour, t'.minute, t'.second, t'.nanosecond / 1000⟩ ∧
      t' = { t with hour := t'.hour, minute := t'.minute, second := t'.second, nanosecond := t'.nanosecond } ∧
      IsCalendar t' := by
  obtain ⟨v₁, t₁, w₁, hskip₁, hstd₁, h⟩ := parseLayout_cons h
  obtain ⟨v₂, t₂, w₂, hskip₂, hstd₂, h⟩ := parseLayout_cons h
  obtain ⟨v₃, t₃, w₃, hskip₃, hstd₃, h⟩ := parseLayout_cons h
  obtain ⟨v₄, t₄, w₄, hskip₄, hstd₄, h⟩ := parseLayout_cons h
  obtain ⟨hour, ⟨a, ha, hhour⟩, -, hh, rfl⟩ := parseStd_hour hstd₁
  obtain ⟨minute, ⟨b, hb, hminute⟩, -, hmi, rfl⟩ := parseStd_zeroMinute hstd₂
  obtain ⟨second, ⟨c, hc, hsecond⟩, -, hs, rfl⟩ := parseStd_zeroSecond hstd₃
  obtain ⟨hdrop, hhead⟩ := skip_space hskip₁
  cases hskip₄
  cases hstd₄
  have hfrac : getfraction w₃ = ((getfraction w₃).1, []) := Prod.ext rfl (parseDone_nil h)
  obtain ⟨hus, hn, hmark⟩ := fractionOf_getfraction hfrac
  obtain ⟨rfl, hcal⟩ := parseDone_ok h hm₀ hm₁ hh hmi hs hn
  have hclock : value.dropWhile (· == 32) = a ++ 58 :: (b ++ 58 :: c) ++ w₃ := by
    rw [← hdrop, ha, skip_byte hskip₂ (by decide), hb, skip_byte hskip₃ (by decide), hc]
    simp only [List.append_assoc, List.cons_append]
  refine ⟨hhead, ?_, ?_, rfl, hcal⟩
  · rw [hclock]
    simp
  · rw [hclock]
    exact clockOf_fields hhour hminute hsecond (fun x => digit_ne_mark) rfl hmark hus

/-- A date in front of the end of a text or of a space. -/
theorem datePart_append {date : Bytes} (hspace : 32 ∉ date) (hrest : ∀ c ∈ rest.head?, c = 32) :
    datePart (date ++ rest) = dateOf date ∧ (date ++ rest).dropWhile (· != 32) = rest := by
  have hne : ∀ x ∈ date, (x != 32) = true := fun x hx => bne_iff_ne.2 fun h => hspace (h ▸ hx)
  obtain ⟨htake, hdrop⟩ := span_append hne (b := rest) fun x hx => by simp [hrest x hx]
  exact ⟨by rw [datePart, htake], hdrop⟩

theorem denotes_date (h : parseInLocation dateLayout s = .ok t) : Denotes s t := by
  obtain ⟨year, month, day, date, rest, rfl, hdate, hspace, hlt, hm₀, hm₁, h⟩ :=
    parseLayout_date (show parseLayout _ s (dateLayout ++ []) = _ from h)
  obtain rfl := parseDone_nil h
  obtain ⟨rfl, hcal⟩ := parseDone_ok h hm₀ hm₁ (show 0 < 24 by omega) (show 0 < 60 by omega)
    (show 0 < 60 by omega) (show 0 < 1000000000 by omega)
  obtain ⟨hpart, hdrop⟩ := datePart_append hspace (show ∀ c ∈ ([] : Bytes).head?, c = 32 by simp)
  refine ⟨by rw [hpart, hdate]; rfl, ?_, hcal, Int.natCast_nonneg _, Int.ofNat_lt.2 hlt⟩
  rw [clockPart, hdrop, if_pos List.dropWhile_nil]
  simp only [Nat.zero_div]

theorem denotes_dateTime (h : parseInLocation (dateLayout ++ clockLayout) s = .ok t) : Denotes s t := by
  obtain ⟨year, month, day, date, rest, rfl, hdate, hspace, hlt, hm₀, hm₁, h⟩ := parseLayout_date h
  obtain ⟨hhead, hne, hclock, ht, hcal⟩ := parseLayout_clock h hm₀ hm₁
  obtain ⟨hpart, hdrop⟩ := datePart_append hspace hhead
  refine ⟨?_, ?_, hcal, ?_, ?_⟩
  · rw [hpart, hdate, ht]
    rfl
  · rw [clockPart, hdrop, if_neg hne]
    exact hclock
  · rw [ht]
    exact Int.natCast_nonneg _
  · rw [ht]
    exact Int.ofNat_lt.2 hlt

end Accepted

/-! ## Printed times -/

section Printed

variable {t : Time} {n width : Nat}

theorem natural_padded (width n : Nat) : natural (padded width n) = some n :=
  natural_zeros _ (natural_toString n)

theorem length_padded (hw : 0 < width) (h : n < 10 ^ width) : (padded width n).length = width := by
  have hle : (lit (toString n)).length ≤ width := (length_toString_le hw).2 h
  simp only [padded, List.length_append, List.length_replicate]
  omega

/-- A text that begins with a numeral begins with a digit. -/
theorem head_of_natural {s rest : Bytes} (h : natural s = some n) :
    s ++ rest ≠ [] ∧ ∀ x ∈ (s ++ rest).head?, isDigit x = true := by
  obtain ⟨hne, hall, -⟩ := natural_eq_some.1 h
  obtain ⟨c, s, rfl⟩ := List.exists_cons_of_ne_nil hne
  refine ⟨by simp, fun x hx => ?_⟩
  cases hx
  exact List.all_eq_true.1 hall _ (by simp)

/-- Six printed places are the fraction. -/
theorem fractionOf_padded (h : n < 1000000) : fractionOf (padded 6 n) = some n := by
  have hlen := length_padded (show 0 < 6 by omega) h
  rw [fractionOf, places_eq, hlen, List.take_of_length_le (by omega), Nat.sub_self, List.replicate_zero,
    List.append_nil]
  exact natural_padded 6 n

/-- A printed clock, with or without a fraction. -/
theorem clockOf_printed {mark : UInt8 → Bool} (hdigit : ∀ x, isDigit x = true → mark x = false)
    (hcolon : mark 58 = false) {i j k us : Nat} {rest : Bytes} (hrest : ∀ x ∈ rest.head?, mark x = true)
    (hus : fractionOf rest.tail = some us) :
    clockOf mark (padded 2 i ++ lit ":" ++ padded 2 j ++ lit ":" ++ padded 2 k ++ rest) = some ⟨i, j, k, us⟩ := by
  have hform : padded 2 i ++ lit ":" ++ padded 2 j ++ lit ":" ++ padded 2 k ++ rest =
      padded 2 i ++ 58 :: (padded 2 j ++ 58 :: padded 2 k) ++ rest := by
    have hlit : lit ":" = [58] := by decide
    simp only [hlit, List.append_assoc, List.cons_append, List.nil_append]
  rw [hform]
  exact clockOf_fields (natural_padded 2 i) (natural_padded 2 j) (natural_padded 2 k) hdigit hcolon hrest hus

theorem clockOf_clockText {mark : UInt8 → Bool} (hdigit : ∀ x, isDigit x = true → mark x = false)
    (hcolon : mark 58 = false) (hperiod : mark 46 = true) (hn : t.nanosecond < 1000000000) :
    clockOf mark (clockText t) = some ⟨t.hour, t.minute, t.second, t.nanosecond / 1000⟩ := by
  have hlit : lit "." = [46] := by decide
  have hus : fractionOf (46 :: padded 6 (t.nanosecond / 1000)).tail = some (t.nanosecond / 1000) := by
    rw [List.tail_cons]
    exact fractionOf_padded (by omega)
  unfold clockText
  rw [List.append_assoc _ (lit "."), hlit, List.singleton_append]
  refine clockOf_printed hdigit hcolon (fun x hx => ?_) hus
  cases hx
  exact hperiod

theorem dateText_eq (h : 0 ≤ t.year) :
    dateText t = padded 4 t.year.toNat ++ 45 :: (padded 2 t.month ++ 45 :: padded 2 t.day) := by
  have hlit : lit "-" = [45] := by decide
  have habs : t.year.natAbs = t.year.toNat := by omega
  simp only [dateText, yearText, if_neg (show ¬t.year < 0 by omega), habs, hlit, List.append_assoc, List.cons_append,
    List.nil_append]

theorem dateOf_dateText (h : 0 ≤ t.year) : dateOf (dateText t) = some (t.year.toNat, t.month, t.day) := by
  rw [dateText_eq h]
  exact dateOf_fields (natural_padded 4 _) (natural_padded 2 _) (natural_padded 2 _)

theorem space_not_mem_dateText (h : 0 ≤ t.year) : 32 ∉ dateText t := by
  rw [dateText_eq h]
  simp only [List.mem_append, List.mem_cons, not_or]
  exact ⟨not_mem_of_natural (natural_padded 4 _) rfl, by decide, not_mem_of_natural (natural_padded 2 _) rfl,
    by decide, not_mem_of_natural (natural_padded 2 _) rfl⟩

/-- The printed date and time of day denote the time. -/
theorem denotes_text (hcal : IsCalendar t) (h₀ : 0 ≤ t.year) (h₁ : t.year < 10000) :
    Denotes (dateText t ++ lit " " ++ clockText t) t := by
  have hlit : lit " " = [32] := by decide
  have hhead : ∀ c ∈ ([32] ++ clockText t).head?, c = 32 := by
    rintro c hc
    cases hc
    rfl
  obtain ⟨hne, hdigit⟩ : clockText t ≠ [] ∧ ∀ x ∈ (clockText t).head?, isDigit x = true := by
    simp only [clockText, List.append_assoc]
    exact head_of_natural (natural_padded 2 _)
  have hspace : ∀ x ∈ (clockText t).head?, (x == 32) = false := by
    intro x hx
    rw [beq_eq_false_iff_ne]
    rintro rfl
    cases hdigit _ hx
  obtain ⟨hpart, hdrop⟩ := datePart_append (space_not_mem_dateText h₀) hhead
  have hclock := (span_append (a := [32]) (by simp) hspace).2
  rw [hlit, List.append_assoc]
  refine ⟨by rw [hpart, dateOf_dateText h₀], ?_, hcal, h₀, h₁⟩
  rw [clockPart, hdrop, hclock, if_neg hne]
  exact clockOf_clockText (fun x => digit_ne_mark) rfl rfl hcal.nanosecond_lt

end Printed

end Accelerator.Gateway
