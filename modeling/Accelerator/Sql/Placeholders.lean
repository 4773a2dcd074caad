/-
The placeholders of a statement, and a reader that looks for them by matching quotes alone. The two run side
by side over the pieces the lexer reads: the reader counts marks in comments, and a quote in a comment puts it
out of step, so that it takes placeholders for the inside of a string.
-/
import Accelerator.Sql.Statements

namespace Accelerator.Sql

open Strings

/-! ## Matching quotes -/

/-- Where the reader stands: outside, or inside a string with the quote that closes it, and whether behind a
backslash. -/
abbrev Quoting := Option (Sym × Bool)

def Quoting.next : Quoting → Sym → Quoting
  | none, c => if isQuote c then some (c, false) else none
  | some (q, true), _ => some (q, false)
  | some (q, false), c =>
    if c = .chr '\\' ∧ q ≠ .chr '`' then some (q, true)
    else if c = q then none
    else some (q, false)

/-- Where the reader stands behind a text. -/
def Quoting.behind (s : Quoting) (t : Text) : Quoting := t.foldl Quoting.next s

/-- The character of a placeholder. -/
def mark : Sym := .chr '?'

/-- The marks outside strings. -/
def marks : Quoting → Text → Nat
  | _, [] => 0
  | s, c :: cs => (if s = none ∧ c = mark then 1 else 0) + marks (s.next c) cs

theorem marks_append (s : Quoting) (a b : Text) : marks s (a ++ b) = marks s a + marks (s.behind a) b := by
  induction a generalizing s with
  | nil => exact (Nat.zero_add _).symm
  | cons c a ih =>
    rw [List.cons_append, marks, marks, ih, Nat.add_assoc]
    rfl

/-- Text without quotes leaves the reader outside, and all its marks are counted. -/
theorem marks_plain {t : Text} (hq : ∀ c ∈ t, ¬isQuote c) :
    Quoting.behind none t = none ∧ marks none t = t.count mark := by
  induction t with
  | nil => exact ⟨rfl, rfl⟩
  | cons c t ih =>
    obtain ⟨hbehind, hmarks⟩ := ih fun d hd => hq d (List.mem_cons_of_mem c hd)
    have hnext : Quoting.next none c = none := if_neg (hq c List.mem_cons_self)
    refine ⟨?_, ?_⟩
    · show Quoting.behind (Quoting.next none c) t = none
      rw [hnext, hbehind]
    · rw [marks, hnext, hmarks, List.count_cons, Nat.add_comm]
      simp

/-- Inside a string nothing is counted up to its end. -/
theorem marks_skipQuoted (q : Sym) (escaped : Bool) (t : Text) :
    ∃ read, t = read ++ skipQuoted q escaped t ∧ marks (some (q, escaped)) read = 0 ∧
      (Quoting.behind (some (q, escaped)) read = none ∨ skipQuoted q escaped t = []) := by
  have step : ∀ {s s' : Quoting} {c : Sym} {cs rest : Text}, s ≠ none → s.next c = s' →
      (∃ read, cs = read ++ rest ∧ marks s' read = 0 ∧ (s'.behind read = none ∨ rest = [])) →
      ∃ read, c :: cs = read ++ rest ∧ marks s read = 0 ∧ (s.behind read = none ∨ rest = []) := by
    rintro s s' c cs rest hs rfl ⟨read, rfl, hmarks, hend⟩
    exact ⟨c :: read, rfl, by rw [marks, if_neg fun h => hs h.1, hmarks], hend⟩
  fun_induction skipQuoted q escaped t with
  | case1 escaped => exact ⟨[], rfl, rfl, .inr rfl⟩
  | case2 c cs ih => exact step (by simp) rfl ih
  | case3 c cs h ih => exact step (by simp) (if_pos h) ih
  | case4 cs h =>
    have hclose : Quoting.next (some (q, false)) q = none := (if_neg h).trans (if_pos rfl)
    exact step (by simp) hclose ⟨[], rfl, rfl, .inl rfl⟩
  | case5 c cs h h' ih => exact step (by simp) ((if_neg h).trans (if_neg h')) ih

/-! ## The pieces of a statement -/

/-- What a step of the lexer reads, and the token, if it is one. -/
structure Stretch where
  lexeme : Option Lexeme
  read : Text

/-- The steps of `lexFrom`. -/
def readFrom : Nat → Bool → Text → List Stretch
  | 0, _, _ => []
  | _, _, [] => []
  | fuel + 1, executable, c :: cs =>
    let s := scan executable c cs
    ⟨s.lexeme, (c :: cs).take ((c :: cs).length - s.rest.length)⟩ :: readFrom fuel s.executable s.rest

/-- The tokens of a statement and what stands between them. -/
def stretches (t : Text) : List Stretch := readFrom t.length false t

/-- The number of placeholders the server finds. -/
def placeholders (t : Text) : Nat := (lexemes t).count (.symbol mark)

example : placeholders (text "SELECT ?, '?' /* ? */, `?` -- ?\n, ?") = 2 := by decide +kernel

section Stretches

variable {executable : Bool} {c : Sym} {cs : Text}

/-- A step reads a piece off the front. -/
theorem take_append_rest (executable : Bool) (c : Sym) (cs : Text) :
    (c :: cs).take ((c :: cs).length - (scan executable c cs).rest.length) ++ (scan executable c cs).rest = c :: cs := by
  obtain ⟨x, hx⟩ := (scan_suffix executable c cs).trans (List.suffix_cons c cs)
  rw [← hx, List.length_append, Nat.add_sub_cancel, List.take_left]

/-- The piece in front of the rest is the one that is read. -/
theorem read_eq {x : Text} (h : c :: cs = x ++ (scan executable c cs).rest) :
    (c :: cs).take ((c :: cs).length - (scan executable c cs).rest.length) = x := by
  have hread := take_append_rest executable c cs
  exact List.append_cancel_right (hread.trans h)

theorem count_readFrom (n : Nat) (executable : Bool) (t : Text) :
    ((lexFrom n executable t).map Token.lexeme).count (.symbol mark) =
      (readFrom n executable t).countP fun r => r.lexeme = some (.symbol mark) := by
  induction n generalizing executable t with
  | zero => rfl
  | succ n ih =>
    rcases t with _ | ⟨c, cs⟩
    · rfl
    rw [lexFrom, readFrom, List.map_append, List.count_append, List.countP_cons, ih, Nat.add_comm]
    congr 1
    cases (scan executable c cs).lexeme with
    | none => rfl
    | some l => by_cases hl : l = .symbol mark <;> simp [hl]

/-- What a token that is no comment can hold. -/
theorem scan_piece (executable : Bool) (c : Sym) (cs : Text) :
    (scan executable c cs).lexeme = none ∨
    (isQuote c ∧ (scan executable c cs).lexeme ≠ some (.symbol mark) ∧
      (scan executable c cs).rest = skipQuoted c false cs) ∨
    ∃ x, c :: cs = x ++ (scan executable c cs).rest ∧ (∀ d ∈ x, ¬isQuote d) ∧
      ((scan executable c cs).lexeme = some (.symbol mark) ∨ mark ∉ x) := by
  unfold scan
  split_ifs with hblank hline hblock hexec hclose hquote hat hsys hword
  · exact .inl rfl
  · exact .inl rfl
  · exact .inl rfl
  · exact .inl rfl
  · exact .inl rfl
  · exact .inr (.inl ⟨hquote, by simp, rfl⟩)
  · obtain ⟨t, rfl⟩ := List.head?_eq_some_iff.1 hsys
    exact .inr (.inr ⟨text "@@", by rw [hat]; rfl, by decide, .inr (by decide)⟩)
  · exact .inr (.inr ⟨text "@", by rw [hat]; rfl, by decide, .inr (by decide)⟩)
  · refine .inr (.inr ⟨c :: cs.takeWhile isWordSym, by simp, fun d hd hq => ?_, .inr fun hmark => ?_⟩)
    · have hd : isWordSym d = true := by
        rcases List.mem_cons.1 hd with rfl | hd
        · exact hword
        · exact List.mem_takeWhile_imp hd
      rcases hq with rfl | rfl | rfl <;> cases hd
    · rcases List.mem_cons.1 hmark with rfl | hmark
      · cases hword
      · cases List.mem_takeWhile_imp hmark
  · refine .inr (.inr ⟨[c], rfl, fun d hd => List.mem_singleton.1 hd ▸ hquote, ?_⟩)
    by_cases hc : c = mark
    · exact .inl (by rw [hc])
    · exact .inr fun hmark => hc (List.mem_singleton.1 hmark).symm

end Stretches

/-! ## Side by side -/

/-- The marks between the tokens. -/
def commentMarks (rs : List Stretch) : Nat := ((rs.filter (·.lexeme.isNone)).flatMap (·.read)).count mark

theorem commentMarks_eq_zero {rs : List Stretch} :
    commentMarks rs = 0 ↔ ∀ r ∈ rs, r.lexeme = none → mark ∉ r.read := by
  simp [commentMarks, List.count_eq_zero]

theorem commentMarks_cons (r : Stretch) (rs : List Stretch) :
    commentMarks (r :: rs) = (if r.lexeme = none then r.read.count mark else 0) + commentMarks rs := by
  unfold commentMarks
  by_cases hl : r.lexeme = none
  · simp [hl]
  · simp [hl]

/-- From outside, the reader counts a placeholder and the marks of a comment without quotes, and is outside again
behind what was read, unless that is the end. -/
theorem scan_outside (executable : Bool) (c : Sym) (cs : Text) :
    ∃ x, c :: cs = x ++ (scan executable c cs).rest ∧
      (((scan executable c cs).lexeme = none → ∀ d ∈ x, ¬isQuote d) →
        marks none x = (if (scan executable c cs).lexeme = some (.symbol mark) then 1 else 0) +
            (if (scan executable c cs).lexeme = none then x.count mark else 0) ∧
          (Quoting.behind none x = none ∨ (scan executable c cs).rest = [])) := by
  rcases scan_piece executable c cs with hnone | ⟨hquote, hlexeme, hrest⟩ | ⟨x, hx, hplain, hmark⟩
  · -- a comment or white space
    refine ⟨_, (take_append_rest executable c cs).symm, fun h => ?_⟩
    obtain ⟨hbehind, hmarks⟩ := marks_plain (h hnone)
    exact ⟨by rw [hmarks, hnone, if_neg nofun, if_pos rfl, Nat.zero_add], .inl hbehind⟩
  · -- a string or a quoted identifier: the reader is inside until the lexer is done with it
    obtain ⟨read, hread, hmarks, hend⟩ := marks_skipQuoted c false cs
    have hnext : Quoting.next none c = some (c, false) := if_pos hquote
    have hne : c ≠ mark := by
      rintro rfl
      revert hquote
      decide
    refine ⟨c :: read, by rw [hrest, List.cons_append, ← hread], fun h => ⟨?_, ?_⟩⟩
    · have hsome : (scan executable c cs).lexeme ≠ none := fun hnone => h hnone c List.mem_cons_self hquote
      rw [marks, if_neg fun h => hne h.2, hnext, hmarks, if_neg hlexeme, if_neg hsome]
    · rw [hrest]
      show Quoting.behind (Quoting.next none c) read = none ∨ _
      rw [hnext]
      exact hend
  · obtain ⟨hbehind, hmarks⟩ := marks_plain hplain
    refine ⟨x, hx, fun _ => ⟨?_, .inl hbehind⟩⟩
    rw [hmarks]
    by_cases hl : (scan executable c cs).lexeme = some (.symbol mark)
    · obtain ⟨rfl, hcs⟩ := scan_symbol hl
      have hx : x = [mark] := List.append_cancel_right (hx.symm.trans (by rw [hcs]; rfl))
      simp [hl, hx]
    · rw [if_neg hl, List.count_eq_zero.2 (hmark.resolve_left hl), ite_self]

/-- Where no comment holds a quote, the reader counts the placeholders and the marks of the comments. -/
theorem marks_eq_add {t : Text} (h : ∀ r ∈ stretches t, r.lexeme = none → ∀ c ∈ r.read, ¬isQuote c) :
    marks none t = placeholders t + commentMarks (stretches t) := by
  rw [placeholders, lexemes, lex, count_readFrom]
  unfold stretches at h ⊢
  suffices hz : ∀ n executable (t : Text), t.length ≤ n →
      (∀ r ∈ readFrom n executable t, r.lexeme = none → ∀ c ∈ r.read, ¬isQuote c) →
      marks none t = (readFrom n executable t).countP (fun r => r.lexeme = some (.symbol mark)) +
        commentMarks (readFrom n executable t) from hz t.length false t le_rfl h
  intro n
  induction n with
  | zero =>
    intro executable t hn _
    rw [List.eq_nil_of_length_eq_zero (Nat.le_zero.1 hn)]
    rfl
  | succ n ih =>
    intro executable t hn h
    rcases t with _ | ⟨c, cs⟩
    · rfl
    have hrest := (scan_suffix executable c cs).length_le
    rw [List.length_cons] at hn
    obtain ⟨x, hx, hpiece⟩ := scan_outside executable c cs
    simp only [readFrom, List.forall_mem_cons, read_eq hx] at h ⊢
    obtain ⟨hmarks, hbehind⟩ := hpiece h.1
    have hlater : marks (Quoting.behind none x) (scan executable c cs).rest = marks none (scan executable c cs).rest := by
      rcases hbehind with hbehind | hnil
      · rw [hbehind]
      · rw [hnil]
        rfl
    rw [hx, marks_append, hlater, ih _ _ (by omega) h.2, hmarks, List.countP_cons, commentMarks_cons]
    simp only [decide_eq_true_eq]
    omega

/-- Then its number is that of the server exactly if no comment holds a mark either. -/
theorem marks_eq_placeholders_iff {t : Text} (h : ∀ r ∈ stretches t, r.lexeme = none → ∀ c ∈ r.read, ¬isQuote c) :
    marks none t = placeholders t ↔ ∀ r ∈ stretches t, r.lexeme = none → mark ∉ r.read := by
  rw [marks_eq_add h, ← commentMarks_eq_zero]
  omega

end Accelerator.Sql
