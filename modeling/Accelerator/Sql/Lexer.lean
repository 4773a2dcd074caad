/-
How a MySQL or MariaDB server splits a statement into tokens, under the default `sql_mode`. White
space and ordinary comments separate tokens, an executable comment `/*! … */` is read as code, and
string literals and quoted identifiers are opaque. A token remembers where in the text it begins and
where it ends, so that what the server reads can be compared with tests on the text itself.
-/
import Accelerator.Strings.Search

namespace Accelerator.Sql

open Strings

/-! ## Characters -/

/-- White space between tokens. Outside ASCII nothing is white space to the server. -/
def isBlank : Sym → Bool
  | .chr c => c.toNat = 0x20 || (0x09 ≤ c.toNat && c.toNat ≤ 0x0d)
  | .bad _ => false

def isDigit : Sym → Bool
  | .chr c => 0x30 ≤ c.toNat && c.toNat ≤ 0x39
  | .bad _ => false

/-- The characters of keywords, names and numbers: ASCII letters and digits, the dollar sign, the
underscore, and every byte outside ASCII. -/
def isWordSym : Sym → Bool
  | .chr c =>
    isDigit (.chr c) || (0x41 ≤ c.toNat && c.toNat ≤ 0x5a) || (0x61 ≤ c.toNat && c.toNat ≤ 0x7a) ||
      c = '$' || c = '_' || 0x80 ≤ c.toNat
  | .bad _ => true

/-- Keywords and function names are compared by their ASCII letters only. -/
def keyUpper : Sym → Sym
  | .chr c => .chr (if 'a' ≤ c ∧ c ≤ 'z' then Char.ofNat (c.toNat - 32) else c)
  | .bad b => .bad b

/-- The server's folding keeps what a character is: below the letters it changes nothing, and it stays in ASCII
or outside. -/
theorem keyUpper_chr (c : Char) : keyUpper (.chr c) = .chr c ∨
    (0x61 ≤ c.toNat ∧ c.toNat ≤ 0x7a ∧ ∃ d : Char, keyUpper (.chr c) = .chr d ∧ d.toNat = c.toNat - 32) := by
  rw [keyUpper]
  split_ifs with hl
  · simp only [char_le_iff] at hl
    have hlo : 0x61 ≤ c.toNat := hl.1
    have hhi : c.toNat ≤ 0x7a := hl.2
    exact .inr ⟨hlo, hhi, _, rfl, toNat_ofNat (by simp only [Nat.isValidChar]; omega)⟩
  · exact .inl rfl

theorem isSpace_keyUpper (c : Sym) : (keyUpper c).isSpace = c.isSpace := by
  cases c with
  | bad b => rfl
  | chr c =>
    rcases keyUpper_chr c with h | ⟨hlo, hhi, d, h, hd⟩
    · rw [h]
    · rw [h, Bool.eq_iff_iff]
      simp only [Sym.isSpace, isSpaceRune, Bool.or_eq_true, Bool.and_eq_true, decide_eq_true_eq]
      omega

theorem keyUpper_low {c : Sym} {d : Char} (hd : d.toNat < 0x41) : keyUpper c = .chr d ↔ c = .chr d := by
  cases c with
  | bad b => exact ⟨nofun, nofun⟩
  | chr c =>
    rcases keyUpper_chr c with h | ⟨hlo, hhi, d', h, hd'⟩
    · rw [h]
    · rw [h, Sym.chr.injEq, Sym.chr.injEq]
      constructor
      · rintro rfl
        omega
      · rintro rfl
        omega

/-! ## Scanning -/

/-- What follows the closing quote `q`; `escaped` says that a backslash stands before. -/
def skipQuoted (q : Sym) : Bool → Text → Text
  | _, [] => []
  | true, _ :: cs => skipQuoted q false cs
  | false, c :: cs =>
    if c = .chr '\\' ∧ q ≠ .chr '`' then skipQuoted q true cs
    else if c = q then cs
    else skipQuoted q false cs

/-- After a dash: a second one opens a comment when white space, a control character or the end
follows. -/
def opensDashComment (cs : Text) : Bool :=
  cs.head? = some (.chr '-') &&
    match cs.tail.head? with
    | none => true
    | some (.chr c) => isBlank (.chr c) || c.toNat < 0x20 || c.toNat = 0x7f
    | some (.bad _) => false

/-- What follows the version number of an executable comment, five or six digits. -/
def dropVersion (cs : Text) : Text :=
  let digits := (cs.takeWhile isDigit).length
  if 5 ≤ digits then cs.drop (min 6 digits) else cs

inductive Lexeme where
  | word (w : Text)
  | literal
  | userVariable
  | systemVariable
  | symbol (c : Sym)
  deriving DecidableEq, Repr

/-- One step of the lexer: what was read, if it is a token, whether an executable comment is open,
and what is left. -/
structure Scan where
  lexeme : Option Lexeme
  executable : Bool
  rest : Text

/-- Read the text `c :: cs`. -/
def scan (executable : Bool) (c : Sym) (cs : Text) : Scan :=
  if isBlank c then ⟨none, executable, cs⟩
  else if c = .chr '#' ∨ (c = .chr '-' ∧ opensDashComment cs) then
    ⟨none, executable, (after (text "\n") cs).getD []⟩
  else if c = .chr '/' ∧ cs.head? = some (.chr '*') then
    if cs.tail.head? = some (.chr '!') then ⟨none, true, dropVersion (cs.drop 2)⟩
    else ⟨none, executable, (after (text "*/") cs.tail).getD []⟩
  else if executable ∧ c = .chr '*' ∧ cs.head? = some (.chr '/') then ⟨none, false, cs.tail⟩
  else if c = .chr '\'' ∨ c = .chr '"' ∨ c = .chr '`' then
    ⟨some .literal, executable, skipQuoted c false cs⟩
  else if c = .chr '@' then
    if cs.head? = some (.chr '@') then ⟨some .systemVariable, executable, cs.tail⟩
    else ⟨some .userVariable, executable, cs⟩
  else if isWordSym c then
    ⟨some (.word ((c :: cs.takeWhile isWordSym).map keyUpper)), executable, cs.dropWhile isWordSym⟩
  else ⟨some (.symbol c), executable, cs⟩

/-- A token: the text from its first character on, what it is, and the text after it. -/
structure Token where
  start : Text
  lexeme : Lexeme
  rest : Text
  deriving DecidableEq

/-- The loop of the lexer. A step reads at least one character, so the length is fuel enough. -/
def lexFrom : Nat → Bool → Text → List Token
  | 0, _, _ => []
  | _, _, [] => []
  | fuel + 1, executable, c :: cs =>
    let s := scan executable c cs
    (s.lexeme.map (⟨c :: cs, ·, s.rest⟩)).toList ++ lexFrom fuel s.executable s.rest

/-- The tokens of a statement. -/
def lex (t : Text) : List Token := lexFrom t.length false t

/-- What the tokens of a statement are. -/
def lexemes (t : Text) : List Lexeme := (lex t).map Token.lexeme

example : lexemes (text "SELECT /* a */ @@x, 'b''c' -- d") =
    [.word (text "SELECT"), .systemVariable, .word (text "X"), .symbol (.chr ','), .literal, .literal] := by
  decide +kernel

example : lexemes (text "get_lock/*!50000(*/1)") =
    [.word (text "GET_LOCK"), .symbol (.chr '('), .word (text "1"), .symbol (.chr ')')] := by
  decide +kernel

/-! ## What a step reads -/

theorem skipQuoted_split (q : Sym) (escaped : Bool) (t : Text) :
    skipQuoted q escaped t = [] ∨ ∃ x, t = x ++ q :: skipQuoted q escaped t := by
  fun_induction skipQuoted q escaped t with
  | case1 => exact .inl rfl
  | case2 c cs ih => exact ih.imp_right fun ⟨x, hx⟩ => ⟨c :: x, by rw [List.cons_append, ← hx]⟩
  | case3 c cs h ih => exact ih.imp_right fun ⟨x, hx⟩ => ⟨c :: x, by rw [List.cons_append, ← hx]⟩
  | case4 cs h => exact .inr ⟨[], rfl⟩
  | case5 c cs h h' ih => exact ih.imp_right fun ⟨x, hx⟩ => ⟨c :: x, by rw [List.cons_append, ← hx]⟩

theorem skipQuoted_suffix (q : Sym) (escaped : Bool) (t : Text) : skipQuoted q escaped t <:+ t := by
  rcases skipQuoted_split q escaped t with h | ⟨x, hx⟩
  · rw [h]; exact List.nil_suffix
  · exact ⟨x ++ [q], by rw [List.append_assoc]; exact hx.symm⟩

theorem dropVersion_suffix (t : Text) : dropVersion t <:+ t := by
  simp only [dropVersion]
  split
  · exact List.drop_suffix ..
  · exact List.suffix_refl _

/-- What a step can read. -/
theorem scan_cases {motive : Scan → Prop} {executable : Bool} {c : Sym} {cs : Text}
    (blank : isBlank c = true → motive ⟨none, executable, cs⟩)
    (line : c = .chr '#' ∨ (c = .chr '-' ∧ opensDashComment cs = true) →
      motive ⟨none, executable, (after (text "\n") cs).getD []⟩)
    (opening : c = .chr '/' ∧ cs.head? = some (.chr '*') → cs.tail.head? = some (.chr '!') →
      motive ⟨none, true, dropVersion (cs.drop 2)⟩)
    (block : c = .chr '/' ∧ cs.head? = some (.chr '*') → motive ⟨none, executable, (after (text "*/") cs.tail).getD []⟩)
    (closing : c = .chr '*' ∧ cs.head? = some (.chr '/') → motive ⟨none, false, cs.tail⟩)
    (literal : c = .chr '\'' ∨ c = .chr '"' ∨ c = .chr '`' →
      motive ⟨some .literal, executable, skipQuoted c false cs⟩)
    (systemVariable : c = .chr '@' → cs.head? = some (.chr '@') → motive ⟨some .systemVariable, executable, cs.tail⟩)
    (userVariable : c = .chr '@' → cs.head? ≠ some (.chr '@') → motive ⟨some .userVariable, executable, cs⟩)
    (word : c ≠ .chr '@' →
      motive ⟨some (.word ((c :: cs.takeWhile isWordSym).map keyUpper)), executable, cs.dropWhile isWordSym⟩)
    (symbol : c ≠ .chr '@' → motive ⟨some (.symbol c), executable, cs⟩) : motive (scan executable c cs) := by
  unfold scan
  refine iteInduction blank fun _ => iteInduction line fun _ => iteInduction (fun h => ?_) fun _ => ?_
  · exact iteInduction (opening h) fun _ => block h
  refine iteInduction (fun h => closing h.2) fun _ => iteInduction literal fun _ => iteInduction (fun h => ?_) fun h => ?_
  · exact iteInduction (systemVariable h) (userVariable h)
  · exact iteInduction (fun _ => word h) fun _ => symbol h

/-- A step leaves less than it was given. -/
theorem scan_suffix (executable : Bool) (c : Sym) (cs : Text) : (scan executable c cs).rest <:+ cs := by
  apply scan_cases (motive := fun r => r.rest <:+ cs)
  case blank => exact fun _ => List.suffix_refl _
  case line => exact fun _ => getD_after_suffix ..
  case opening => exact fun _ _ => (dropVersion_suffix _).trans (List.drop_suffix ..)
  case block => exact fun _ => (getD_after_suffix ..).trans (List.tail_suffix _)
  case closing => exact fun _ => List.tail_suffix _
  case literal => exact fun _ => skipQuoted_suffix ..
  case systemVariable => exact fun _ _ => List.tail_suffix _
  case userVariable => exact fun _ _ => List.suffix_refl _
  case word => exact fun _ => List.dropWhile_suffix _
  case symbol => exact fun _ => List.suffix_refl _

theorem not_isBlank_of_isWordSym {c : Sym} (h : isWordSym c = true) : ¬isBlank c = true := by
  intro hb
  cases c with
  | bad b => cases hb
  | chr c =>
    simp only [isBlank, Bool.or_eq_true, Bool.and_eq_true, decide_eq_true_eq] at hb
    simp only [isWordSym, isDigit, Bool.or_eq_true, Bool.and_eq_true, decide_eq_true_eq] at h
    rcases h with ((((h | h) | h) | rfl) | rfl) | h <;> first | omega | (revert hb; decide)

theorem ne_of_isWordSym {c : Sym} (h : isWordSym c = true) (d : Char) (hd : isWordSym (.chr d) = false) :
    c ≠ .chr d := by
  rintro rfl
  rw [h] at hd
  cases hd

/-- A character of words begins one. -/
theorem scan_wordSym (executable : Bool) {c : Sym} (h : isWordSym c = true) (cs : Text) :
    scan executable c cs =
      ⟨some (.word ((c :: cs.takeWhile isWordSym).map keyUpper)), executable, cs.dropWhile isWordSym⟩ := by
  have hblank := not_isBlank_of_isWordSym h
  have hne := ne_of_isWordSym h
  have hhash := hne '#' rfl
  have hdash := hne '-' rfl
  have hslash := hne '/' rfl
  have hstar := hne '*' rfl
  have hsingle := hne '\'' rfl
  have hdouble := hne '"' rfl
  have hback := hne '`' rfl
  have hat := hne '@' rfl
  simp only [scan, hblank, hhash, hdash, hslash, hstar, hsingle, hdouble, hback, hat, h, false_and, and_false,
    or_self, if_true, if_false, Bool.false_eq_true]

/-- A word stands in the text with its own letters. -/
theorem scan_word {executable : Bool} {c : Sym} {cs w : Text}
    (h : (scan executable c cs).lexeme = some (.word w)) :
    ∃ raw, c :: cs = raw ++ (scan executable c cs).rest ∧ raw.map keyUpper = w := by
  revert h
  apply scan_cases (motive := fun r => r.lexeme = some (.word w) → ∃ raw, c :: cs = raw ++ r.rest ∧ raw.map keyUpper = w)
   
  case word =>
    rintro - ⟨⟩
    exact ⟨c :: cs.takeWhile isWordSym, by simp, rfl⟩
  all_goals
    intros
    simp at *

theorem scan_symbol {executable : Bool} {c d : Sym} {cs : Text}
    (h : (scan executable c cs).lexeme = some (.symbol d)) : c = d ∧ (scan executable c cs).rest = cs := by
  revert h
  apply scan_cases (motive := fun r => r.lexeme = some (.symbol d) → c = d ∧ r.rest = cs)
  case symbol =>
    rintro - ⟨⟩
    exact ⟨rfl, rfl⟩
  all_goals
    intros
    simp at *

/-! ## The loop -/

theorem lexFrom_fuel {n : Nat} {executable : Bool} {t : Text} (h : t.length ≤ n) :
    lexFrom n executable t = lexFrom t.length executable t := by
  induction n using Nat.strong_induction_on generalizing executable t with
  | _ n ih =>
    rcases t with _ | ⟨c, cs⟩
    · cases n <;> rfl
    rcases n with _ | n
    · simp at h
    have hs := (scan_suffix executable c cs).length_le
    have hcs : cs.length ≤ n := by simpa using h
    rw [lexFrom, List.length_cons, lexFrom, ih n (by omega) (hs.trans hcs)]
    rcases Nat.lt_or_ge cs.length (n + 1) with hlt | hge
    · rw [ih cs.length hlt hs]
    · omega

/-- A token was read by a step of the loop, at a place of the text. -/
structure Token.At (t : Token) (v : Text) : Prop where
  suffix : t.start <:+ v
  read : ∃ executable c cs, t.start = c :: cs ∧ (scan executable c cs).lexeme = some t.lexeme ∧
    t.rest = (scan executable c cs).rest

theorem lexFrom_at {n : Nat} {executable : Bool} {v : Text} {t : Token} (h : t ∈ lexFrom n executable v) :
    t.At v := by
  induction n generalizing executable v with
  | zero => cases h
  | succ n ih =>
    rcases v with _ | ⟨c, cs⟩
    · cases h
    simp only [lexFrom, List.mem_append, Option.mem_toList, Option.map_eq_some_iff] at h
    rcases h with ⟨l, hl, rfl⟩ | h
    · exact ⟨List.suffix_refl _, executable, c, cs, rfl, hl, rfl⟩
    · obtain ⟨hsuffix, hread⟩ := ih h
      exact ⟨hsuffix.trans ((scan_suffix ..).trans (List.suffix_cons ..)), hread⟩

theorem Token.At.word {t : Token} {v w : Text} (h : t.At v) (hw : t.lexeme = .word w) :
    ∃ raw, t.start = raw ++ t.rest ∧ raw.map keyUpper = w := by
  obtain ⟨executable, c, cs, hstart, hl, hrest⟩ := h.read
  rw [hstart, hrest]
  exact scan_word (hw ▸ hl)

theorem Token.At.symbol {t : Token} {v : Text} {d : Sym} (h : t.At v) (hd : t.lexeme = .symbol d) :
    t.start = d :: t.rest := by
  obtain ⟨executable, c, cs, hstart, hl, hrest⟩ := h.read
  obtain ⟨rfl, hcs⟩ := scan_symbol (hd ▸ hl)
  rw [hstart, hrest, hcs]

/-- A step that reads no token and leaves executable comments closed can be left out. -/
theorem lexemes_skip {c : Sym} {cs : Text} (hl : (scan false c cs).lexeme = none)
    (he : (scan false c cs).executable = false) : lexemes (c :: cs) = lexemes (scan false c cs).rest := by
  rw [lexemes, lex, List.length_cons, lexFrom, hl, he, lexFrom_fuel (scan_suffix ..).length_le]
  rfl

theorem lexemes_blank {sp : Text} (h : ∀ c ∈ sp, isBlank c = true) (t : Text) : lexemes (sp ++ t) = lexemes t := by
  induction sp with
  | nil => rfl
  | cons c sp ih =>
    have hc := h c (List.mem_cons_self ..)
    have hs : scan false c (sp ++ t) = ⟨none, false, sp ++ t⟩ := by rw [scan, if_pos hc]
    rw [List.cons_append, lexemes_skip (by rw [hs]) (by rw [hs]), hs]
    exact ih fun d hd => h d (List.mem_cons_of_mem _ hd)

/-! ## User variables -/

/-- The at-signs left over when pairs are removed. -/
def LoneAt (t : Text) : Prop := .chr '@' ∈ replaceAll t (text "@@") []

theorem loneAt_nil : ¬ LoneAt [] := by simp [LoneAt, replaceAll, replaceFrom]

theorem loneAt_cons {c : Sym} (hc : c ≠ .chr '@') (t : Text) : LoneAt (c :: t) ↔ LoneAt t := by
  have : (text "@@").isPrefixOf (c :: t) = false := by simp [text, List.isPrefixOf, Ne.symm hc]
  simp [LoneAt, replaceAll, replaceFrom, this, Ne.symm hc]

theorem loneAt_pair (t : Text) : LoneAt (.chr '@' :: .chr '@' :: t) ↔ LoneAt t := by
  have : (text "@@").isPrefixOf (.chr '@' :: .chr '@' :: t) = true := by simp [text]
  simp only [LoneAt, replaceAll, replaceFrom, this, if_true, List.nil_append]
  rfl

theorem loneAt_single {t : Text} (h : t.head? ≠ some (.chr '@')) : LoneAt (.chr '@' :: t) := by
  have : (text "@@").isPrefixOf (.chr '@' :: t) = false := by
    cases t with
    | nil => rfl
    | cons c t =>
      have hc : Sym.chr '@' ≠ c := fun hc => h (by rw [hc]; rfl)
      simp [text, List.isPrefixOf, hc]
  simp [LoneAt, replaceAll, replaceFrom, this]

/-- The three shapes a text with an at-sign has: the induction of the lemmas below. -/
theorem loneAt_induct {motive : Text → Prop} (nil : motive [])
    (other : ∀ c t, c ≠ .chr '@' → motive t → motive (c :: t))
    (pair : ∀ t, motive t → motive (.chr '@' :: .chr '@' :: t))
    (single : ∀ t, t.head? ≠ some (.chr '@') → motive (.chr '@' :: t)) (t : Text) : motive t := by
  induction hn : t.length using Nat.strong_induction_on generalizing t with
  | _ n ih =>
    subst hn
    rcases t with _ | ⟨c, t⟩
    · exact nil
    by_cases hc : c = .chr '@'
    · subst hc
      rcases t with _ | ⟨d, t⟩
      · exact single [] (by simp)
      by_cases hd : d = .chr '@'
      · subst hd
        have hlt : t.length < (Sym.chr '@' :: .chr '@' :: t).length := by
          simp only [List.length_cons]
          omega
        exact pair t (ih t.length hlt t rfl)
      · exact single _ (by simpa using hd)
    · exact other c t hc (ih t.length (by simp) t rfl)

/-- A pair is not torn by what ends in another character. -/
theorem loneAt_append {t : Text} (h : LoneAt t) (x : Text) (hx : x.getLast? ≠ some (.chr '@')) : LoneAt (x ++ t) := by
  induction x using loneAt_induct with
  | nil => exact h
  | other c x hc ih =>
    rw [List.cons_append, loneAt_cons hc]
    refine ih ?_
    cases x with
    | nil => simp
    | cons d x => simpa using hx
  | pair x ih =>
    rw [List.cons_append, List.cons_append, loneAt_pair]
    refine ih ?_
    cases x with
    | nil => simp
    | cons d x => simpa using hx
  | single x hs =>
    cases x with
    | nil => exact absurd rfl hx
    | cons d x => exact loneAt_single hs

theorem dropVersion_split (t : Text) : ∃ ds, t = ds ++ dropVersion t ∧ .chr '@' ∉ ds := by
  simp only [dropVersion]
  split
  · refine ⟨_, (List.take_append_drop ..).symm, fun h => ?_⟩
    have hpre : t.take (min 6 (t.takeWhile isDigit).length) <+: t.takeWhile isDigit :=
      List.prefix_of_prefix_length_le (List.take_prefix ..) (List.takeWhile_prefix _) (by
        rw [List.length_take]; omega)
    cases List.mem_takeWhile_imp (hpre.subset h)
  · exact ⟨[], rfl, by simp⟩

theorem getLast?_ne_of_not_mem {x : Text} {c : Sym} (h : c ∉ x) : x.getLast? ≠ some c :=
  fun hl => h (List.mem_of_getLast? hl)

/-- Where no at-sign stands alone, no step reads a user variable or tears a pair. -/
theorem scan_not_loneAt (executable : Bool) {c : Sym} {cs : Text} (h : ¬ LoneAt (c :: cs)) :
    ¬ LoneAt (scan executable c cs).rest ∧ (scan executable c cs).lexeme ≠ some .userVariable := by
  have drop : ∀ x {rest : Text}, c :: cs = x ++ rest → x.getLast? ≠ some (.chr '@') → ¬ LoneAt rest :=
    fun x _ hx hl hr => h (hx ▸ loneAt_append hr x hl)
  have past : ∀ y p {t : Text}, p.getLast? ≠ some (.chr '@') → p ≠ [] → c :: cs = y ++ t →
      ¬ LoneAt ((after p t).getD []) := by
    intro y p t hp hne hy
    cases ha : after p t with
    | none => exact loneAt_nil
    | some rest =>
      obtain ⟨x, hx⟩ := after_split ha
      refine drop (y ++ x ++ p) (by rw [hy, hx]; simp) ?_
      rwa [List.getLast?_append_of_ne_nil _ hne]
  apply scan_cases (motive := fun r => ¬LoneAt r.rest ∧ r.lexeme ≠ some .userVariable)
  case blank =>
    intro hblank
    refine ⟨drop [c] rfl ?_, by simp⟩
    rintro ⟨⟩
    cases hblank
  case line => exact fun _ => ⟨past [c] _ (by decide) (by decide) rfl, by simp⟩
  case opening =>
    rintro ⟨rfl, hcs⟩ hexec
    obtain ⟨t, rfl⟩ := List.head?_eq_some_iff.1 hcs
    obtain ⟨t, rfl⟩ := List.head?_eq_some_iff.1 hexec
    obtain ⟨ds, hds, hdigits⟩ := dropVersion_split t
    refine ⟨drop (text "/*!" ++ ds) (by rw [List.append_assoc]; exact congrArg (text "/*!" ++ ·) hds) ?_, by simp⟩
    refine getLast?_ne_of_not_mem fun hmem => ?_
    rcases List.mem_append.1 hmem with hmem | hmem
    · revert hmem; decide
    · exact hdigits hmem
  case block =>
    rintro ⟨rfl, hcs⟩
    obtain ⟨t, rfl⟩ := List.head?_eq_some_iff.1 hcs
    exact ⟨past (text "/*") _ (by decide) (by decide) rfl, by simp⟩
  case closing =>
    rintro ⟨rfl, hcs⟩
    obtain ⟨t, rfl⟩ := List.head?_eq_some_iff.1 hcs
    exact ⟨drop (text "*/") rfl (by decide), by simp⟩
  case literal =>
    intro hquote
    have hc : c ≠ .chr '@' := by rintro rfl; revert hquote; decide
    refine ⟨?_, by simp⟩
    rcases skipQuoted_split c false cs with hr | ⟨x, hx⟩
    · rw [hr]; exact loneAt_nil
    · refine drop (c :: x ++ [c]) (by rw [List.append_assoc]; exact congrArg (c :: ·) hx) ?_
      rw [List.getLast?_append_of_ne_nil _ (by simp)]
      simpa using hc
  case systemVariable =>
    rintro rfl hsys
    obtain ⟨t, rfl⟩ := List.head?_eq_some_iff.1 hsys
    exact ⟨fun hr => h ((loneAt_pair t).2 hr), by simp⟩
  case userVariable =>
    rintro rfl hsys
    exact absurd (loneAt_single hsys) h
  case word =>
    intro hat
    refine ⟨drop (c :: cs.takeWhile isWordSym) (by simp) (getLast?_ne_of_not_mem ?_), by simp⟩
    rintro (_ | ⟨_, hmem⟩)
    · exact hat rfl
    · cases List.mem_takeWhile_imp hmem
  case symbol =>
    intro hat
    exact ⟨drop [c] rfl (by simpa using hat), by simp⟩

theorem lexFrom_not_loneAt {n : Nat} {executable : Bool} {t : Text} (h : ¬ LoneAt t) :
    .userVariable ∉ (lexFrom n executable t).map Token.lexeme := by
  induction n generalizing executable t with
  | zero => simp [lexFrom]
  | succ n ih =>
    rcases t with _ | ⟨c, cs⟩
    · simp [lexFrom]
    obtain ⟨hrest, hl⟩ := scan_not_loneAt executable h
    simp only [lexFrom, List.map_append, List.mem_append, not_or]
    refine ⟨fun hmem => hl ?_, ih hrest⟩
    simpa using hmem

/-- A user variable needs an at-sign that no pair contains. -/
theorem loneAt_of_userVariable {t : Text} (h : .userVariable ∈ lexemes t) : LoneAt t :=
  by_contra fun hn => lexFrom_not_loneAt hn h

end Accelerator.Sql
