/-
Decimal numerals in byte strings: the number a run of digits denotes, the bytes a number is printed with,
and the parsers of Go's `strconv`, which accept exactly the numerals in the range of their type.
-/
import Accelerator.Strings.Basic
import Mathlib.Algebra.Group.Int.Defs
import Mathlib.Algebra.Group.Nat.Defs
import Mathlib.Data.Option.Basic

namespace Accelerator.Strings

/-! ## Numerals -/

def isDigit (c : UInt8) : Bool := 48 ≤ c && c ≤ 57

/-- The number that digits denote, after those that denote `n`. -/
def digitsFrom (n : Nat) (s : Bytes) : Nat := s.foldl (fun n c => n * 10 + (c.toNat - 48)) n

/-- The number a numeral without a sign denotes. -/
def natural (s : Bytes) : Option Nat := if s ≠ [] ∧ s.all isDigit then some (digitsFrom 0 s) else none

/-- The number a numeral with an optional sign denotes. -/
def numeral : Bytes → Option Int
  | 43 :: s => (natural s).map fun n : Nat => (n : Int)
  | 45 :: s => (natural s).map fun n : Nat => -(n : Int)
  | s => (natural s).map fun n : Nat => (n : Int)

section Numerals

variable {s t : Bytes} {n : Nat}

theorem natural_eq_some : natural s = some n ↔ s ≠ [] ∧ s.all isDigit ∧ digitsFrom 0 s = n := by
  unfold natural
  by_cases h : s ≠ [] ∧ s.all isDigit
  · rw [if_pos h]
    simp [h]
  · rw [if_neg h]
    simp only [reduceCtorEq, false_iff]
    tauto

theorem digitsFrom_append (n : Nat) (s t : Bytes) : digitsFrom n (s ++ t) = digitsFrom (digitsFrom n s) t :=
  List.foldl_append

theorem digitsFrom_cons (n : Nat) (c : UInt8) (s : Bytes) :
    digitsFrom n (c :: s) = digitsFrom (n * 10 + (c.toNat - 48)) s := List.foldl_cons ..

/-- Digits only make a number larger. -/
theorem le_digitsFrom (n : Nat) (s : Bytes) : n ≤ digitsFrom n s := by
  induction s generalizing n with
  | nil => exact le_refl n
  | cons c s ih =>
    rw [digitsFrom_cons]
    exact le_trans (by omega) (ih _)

theorem digitsFrom_replicate_zero (k : Nat) : digitsFrom 0 (List.replicate k 48) = 0 := by
  induction k with
  | zero => rfl
  | succ k ih => exact ih

/-- Leading zeros do not count. -/
theorem natural_zeros (k : Nat) (h : natural s = some n) : natural (List.replicate k 48 ++ s) = some n := by
  obtain ⟨hs, hall, hn⟩ := natural_eq_some.1 h
  refine natural_eq_some.2 ⟨by simp [hs], ?_, ?_⟩
  · rw [List.all_append, hall, Bool.and_true, List.all_eq_true]
    rintro c hc
    rw [List.eq_of_mem_replicate hc]
    rfl
  · rw [digitsFrom_append, digitsFrom_replicate_zero, hn]

end Numerals

/-! ## Fractions -/

/-- The first `k` places of a decimal fraction. -/
def places (k : Nat) (s : Bytes) : Bytes := (s ++ List.replicate k 48).take k

section Fractions

variable {s : Bytes}

theorem digitsFrom_eq (n : Nat) (s : Bytes) : digitsFrom n s = n * 10 ^ s.length + digitsFrom 0 s := by
  induction s generalizing n with
  | nil => simp [digitsFrom]
  | cons c s ih =>
    rw [digitsFrom_cons, digitsFrom_cons, ih, ih (0 * 10 + _), List.length_cons, Nat.pow_succ', Nat.add_mul,
      Nat.zero_mul, Nat.zero_add, Nat.mul_assoc, Nat.add_assoc]

theorem digitsFrom_lt (h : s.all isDigit) : digitsFrom 0 s < 10 ^ s.length := by
  induction s with
  | nil => decide
  | cons c s ih =>
    rw [List.all_cons, Bool.and_eq_true] at h
    have hc : c.toNat ≤ 57 := by
      have := h.1
      simp only [isDigit, Bool.and_eq_true, decide_eq_true_eq, UInt8.le_iff_toNat_le] at this
      exact this.2
    have hlt := ih h.2
    have hmul : (c.toNat - 48) * 10 ^ s.length ≤ 9 * 10 ^ s.length := Nat.mul_le_mul_right _ (by omega)
    rw [digitsFrom_cons, digitsFrom_eq, List.length_cons, Nat.pow_succ', Nat.zero_mul, Nat.zero_add]
    omega

theorem places_eq (k : Nat) (s : Bytes) : places k s = s.take k ++ List.replicate (k - s.length) 48 := by
  rw [places, List.take_append, List.take_replicate, Nat.min_eq_left (Nat.sub_le ..)]

theorem length_places (k : Nat) (s : Bytes) : (places k s).length = k := by
  simp [places]

theorem all_places (k : Nat) (h : s.all isDigit) : (places k s).all isDigit := by
  rw [places_eq, List.all_append, Bool.and_eq_true, List.all_eq_true, List.all_eq_true]
  refine ⟨fun c hc => List.all_eq_true.1 h c (List.mem_of_mem_take hc), fun c hc => ?_⟩
  rw [List.eq_of_mem_replicate hc]
  rfl

theorem digitsFrom_places (k : Nat) (s : Bytes) :
    digitsFrom 0 (places k s) = digitsFrom 0 (s.take k) * 10 ^ (k - s.length) := by
  rw [places_eq, digitsFrom_append, digitsFrom_eq, digitsFrom_replicate_zero, List.length_replicate, Nat.add_zero]

/-- Fewer places are the same fraction, rounded down. -/
theorem digitsFrom_places_div (k l : Nat) (h : s.all isDigit) :
    digitsFrom 0 (places (k + l) s) / 10 ^ l = digitsFrom 0 (places k s) := by
  have hsplit : places (k + l) s = places k s ++ (places (k + l) s).drop k := by
    have htake : (places (k + l) s).take k = places k s := by
      rw [places, places, List.take_take, Nat.min_eq_left (Nat.le_add_right ..), List.take_append, List.take_append,
        List.take_replicate, List.take_replicate]
      congr 2
      omega
    rw [← htake, List.take_append_drop]
  have hlen : ((places (k + l) s).drop k).length = l := by simp [length_places]
  have hlt : digitsFrom 0 ((places (k + l) s).drop k) < 10 ^ l := by
    have hall := all_places (k + l) h
    rw [hsplit, List.all_append, Bool.and_eq_true] at hall
    have := digitsFrom_lt hall.2
    rwa [hlen] at this
  rw [hsplit, digitsFrom_append, digitsFrom_eq, hlen, Nat.mul_comm, Nat.mul_add_div (Nat.pow_pos (by omega)),
    Nat.div_eq_of_lt hlt, Nat.add_zero]

end Fractions

/-! ## Parsers -/

inductive NumError where
  | errRange
  | errSyntax
  deriving DecidableEq, Repr

/-- The loop of `strconv.ParseUint` in base 10. A product that leaves 64 bits is above every `maxVal`. -/
def parseUintFrom (maxVal n : Nat) : Bytes → Except NumError Nat
  | [] => .ok n
  | c :: s =>
    if isDigit c then
      let n₁ := n * 10 + (c.toNat - 48)
      if n₁ > maxVal then .error .errRange else parseUintFrom maxVal n₁ s
    else .error .errSyntax

/-- `strconv.ParseUint(s, 10, bitSize)`. -/
def parseUint (s : Bytes) (bitSize : Nat) : Except NumError Nat :=
  if s = [] then .error .errSyntax else parseUintFrom (2 ^ bitSize - 1) 0 s

/-- The part of `strconv.ParseInt` after the sign. A number that `ParseUint` finds too large is at least the
cutoff. -/
def parseIntSigned (neg : Bool) (s : Bytes) (bitSize : Nat) : Except NumError Int := do
  let un ← parseUint s bitSize
  if !neg && un ≥ 2 ^ (bitSize - 1) then .error .errRange
  else if neg && un > 2 ^ (bitSize - 1) then .error .errRange
  else return if neg then -un else un

/-- `strconv.ParseInt(s, 10, bitSize)`. -/
def parseInt (s : Bytes) (bitSize : Nat) : Except NumError Int :=
  match s with
  | 43 :: s => parseIntSigned false s bitSize
  | 45 :: s => parseIntSigned true s bitSize
  | s => parseIntSigned false s bitSize

section Results

variable {ε δ α β : Type} {x : Except ε α} {a : α} {b : β}

theorem ok_of_bind {f : α → Except ε β} (h : x >>= f = .ok b) : ∃ a, x = .ok a ∧ f a = .ok b := by
  cases x with
  | error e => cases h
  | ok a => exact ⟨a, rfl, h⟩

theorem ok_of_map {f : α → β} (h : x.map f = .ok b) : ∃ a, x = .ok a ∧ f a = b := by
  cases x with
  | error e => cases h
  | ok a =>
    cases h
    exact ⟨a, rfl, rfl⟩

theorem ok_of_mapError {f : ε → δ} (h : x.mapError f = .ok a) : x = .ok a := by
  cases x with
  | error e => cases h
  | ok a =>
    cases h
    rfl

end Results

section Parsers

variable {s : Bytes} {n maxVal bitSize : Nat}

theorem parseUintFrom_eq_ok (n : Nat) (hn : n ≤ maxVal) {m : Nat} :
    parseUintFrom maxVal n s = .ok m ↔ s.all isDigit ∧ digitsFrom n s = m ∧ m ≤ maxVal := by
  induction s generalizing n with
  | nil =>
    rw [parseUintFrom, digitsFrom, List.foldl_nil, Except.ok.injEq]
    constructor
    · rintro rfl
      exact ⟨rfl, rfl, hn⟩
    · exact fun h => h.2.1
  | cons c s ih =>
    rw [parseUintFrom, digitsFrom_cons, List.all_cons, Bool.and_eq_true]
    generalize hm : n * 10 + (c.toNat - 48) = n₁
    have hle := le_digitsFrom n₁ s
    by_cases hc : isDigit c
    · rw [if_pos hc]
      by_cases hmax : n₁ > maxVal
      · rw [if_pos hmax]
        simp only [reduceCtorEq, false_iff]
        omega
      · rw [if_neg hmax, ih _ (by omega)]
        simp [hc]
    · rw [if_neg hc]
      simp [hc]

/-- `ParseUint` accepts the numerals without a sign that fit. -/
theorem parseUint_eq_ok : parseUint s bitSize = .ok n ↔ natural s = some n ∧ n < 2 ^ bitSize := by
  have hpos := Nat.two_pow_pos bitSize
  unfold parseUint
  by_cases hs : s = []
  · simp [hs, natural]
  · rw [if_neg hs, parseUintFrom_eq_ok 0 (Nat.zero_le _), natural_eq_some]
    simp only [ne_eq, hs, not_false_eq_true, true_and]
    rw [and_assoc]
    exact and_congr_right fun _ => and_congr_right fun _ => by omega

theorem parseIntSigned_eq_ok {neg : Bool} {i : Int} (h : parseIntSigned neg s bitSize = .ok i) :
    ((natural s).map fun n : Nat => if neg then -(n : Int) else (n : Int)) = some i ∧
      -2 ^ (bitSize - 1) ≤ i ∧ i < 2 ^ (bitSize - 1) := by
  have hpos := Nat.two_pow_pos (bitSize - 1)
  obtain ⟨un, hun, h⟩ := ok_of_bind h
  rw [(parseUint_eq_ok.1 hun).1]
  have hcast : ((2 ^ (bitSize - 1) : Nat) : Int) = 2 ^ (bitSize - 1) := by push_cast; rfl
  rw [← hcast]
  split at h
  · cases h
  split at h
  · cases h
  rename_i h₁ h₂
  cases h
  cases neg with
  | false =>
    simp only [Bool.not_false, Bool.true_and, decide_eq_true_eq] at h₁
    refine ⟨rfl, ?_, ?_⟩ <;> simp only [Bool.false_eq_true, if_false] <;> omega
  | true =>
    simp only [Bool.true_and, decide_eq_true_eq] at h₂
    refine ⟨rfl, ?_, ?_⟩ <;> simp only [if_true] <;> omega

/-- `ParseInt` accepts only numerals that fit. -/
theorem parseInt_eq_ok {i : Int} (h : parseInt s bitSize = .ok i) :
    numeral s = some i ∧ -2 ^ (bitSize - 1) ≤ i ∧ i < 2 ^ (bitSize - 1) := by
  unfold parseInt at h
  split at h
  · exact parseIntSigned_eq_ok h
  · exact parseIntSigned_eq_ok h
  · rename_i hplus hminus
    have hnumeral : numeral s = (natural s).map fun n : Nat => (n : Int) := by
      unfold numeral
      split
      · exact (hplus _ rfl).elim
      · exact (hminus _ rfl).elim
      · rfl
    rw [hnumeral]
    exact parseIntSigned_eq_ok h

end Parsers

/-! ## Printed numbers -/

theorem isDigit_of_char {c : Char} (h : c.isDigit) :
    48 ≤ c.toNat ∧ c.toNat ≤ 57 ∧ String.utf8EncodeChar c = [UInt8.ofNat c.toNat] := by
  simp only [Char.isDigit, ge_iff_le, Bool.and_eq_true, decide_eq_true_eq, UInt32.le_iff_toNat_le] at h
  have h₀ : 48 ≤ c.toNat := h.1
  have h₁ : c.toNat ≤ 57 := h.2
  refine ⟨h₀, h₁, ?_⟩
  have hval : c.val.toNat = c.toNat := rfl
  simp only [String.utf8EncodeChar, hval]
  rw [if_pos (by omega)]

theorem isDigit_ofNat {n : Nat} (h₀ : 48 ≤ n) (h₁ : n ≤ 57) : isDigit (UInt8.ofNat n) ∧ (UInt8.ofNat n).toNat = n := by
  have hn : (UInt8.ofNat n).toNat = n := by
    rw [UInt8.toNat_ofNat']
    omega
  refine ⟨?_, hn⟩
  simp only [isDigit, Bool.and_eq_true, decide_eq_true_eq, UInt8.le_iff_toNat_le, hn]
  exact ⟨h₀, h₁⟩

/-- A run of digit characters is encoded with one byte for each. -/
theorem toBytes_chars {cs : List Char} (h : ∀ c ∈ cs, c.isDigit) :
    toBytes (cs.map .chr) = cs.map fun c => UInt8.ofNat c.toNat := by
  induction cs with
  | nil => rfl
  | cons c cs ih =>
    have hc := (isDigit_of_char (h c (by simp))).2.2
    rw [List.map_cons, toBytes, List.flatMap_cons]
    simp only [Sym.bytes, hc, List.map_cons, List.singleton_append, List.cons.injEq, true_and]
    exact ih fun c hc => h c (by simp [hc])

theorem digitsFrom_chars {cs : List Char} (h : ∀ c ∈ cs, c.isDigit) (n : Nat) :
    digitsFrom n (cs.map fun c => UInt8.ofNat c.toNat) = Nat.ofDigitChars 10 cs n := by
  induction cs generalizing n with
  | nil => rfl
  | cons c cs ih =>
    obtain ⟨h₀, h₁, -⟩ := isDigit_of_char (h c (by simp))
    rw [List.map_cons, digitsFrom_cons, Nat.ofDigitChars_cons, (isDigit_ofNat h₀ h₁).2,
      ih fun c hc => h c (by simp [hc]), Nat.mul_comm]
    rfl

/-- A number is printed with its digits. -/
theorem toBytes_toString (n : Nat) :
    toBytes (text (toString n)) = (Nat.toDigits 10 n).map fun c => UInt8.ofNat c.toNat := by
  have hlist : (toString n).toList = Nat.toDigits 10 n := by simp
  rw [text, hlist]
  exact toBytes_chars fun c hc => Nat.isDigit_of_mem_toDigits (by omega) (by omega) hc

theorem length_toString_le {n k : Nat} (hk : 0 < k) : (toBytes (text (toString n))).length ≤ k ↔ n < 10 ^ k := by
  rw [toBytes_toString, List.length_map]
  exact Nat.length_toDigits_le_iff (by omega) hk

theorem natural_toString (n : Nat) : natural (toBytes (text (toString n))) = some n := by
  have hdigits : ∀ c ∈ Nat.toDigits 10 n, c.isDigit :=
    fun c hc => Nat.isDigit_of_mem_toDigits (by omega) (by omega) hc
  rw [toBytes_toString, natural_eq_some]
  refine ⟨?_, ?_, ?_⟩
  · simp
  · simp only [List.all_map, List.all_eq_true]
    intro c hc
    obtain ⟨h₀, h₁, -⟩ := isDigit_of_char (hdigits c hc)
    exact (isDigit_ofNat h₀ h₁).1
  · rw [digitsFrom_chars hdigits, Nat.ofDigitChars_toDigits (by omega) (by omega)]

/-- A numeral without a sign denotes the same with and without one allowed. -/
theorem numeral_of_natural {s : Bytes} {n : Nat} (h : natural s = some n) : numeral s = some (n : Int) := by
  obtain ⟨hne, hall, -⟩ := natural_eq_some.1 h
  unfold numeral
  split
  · simp [isDigit] at hall
  · simp [isDigit] at hall
  · rw [h]
    rfl

theorem numeral_toString (i : Int) : numeral (toBytes (text (toString i))) = some i := by
  cases i with
  | ofNat n => exact numeral_of_natural (natural_toString n)
  | negSucc n =>
    have hminus : toBytes (text (toString (Int.negSucc n))) = 45 :: toBytes (text (toString (n + 1))) := by
      have happend : toString (Int.negSucc n) = "-" ++ toString (n + 1) := rfl
      rw [happend, text, String.toList_append, List.map_append, toBytes, List.flatMap_append]
      rfl
    rw [hminus, numeral, natural_toString]
    rfl

end Accelerator.Strings
