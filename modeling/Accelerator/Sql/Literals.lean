/-
String literals and quoted identifiers with the values they denote, as a server in the default `sql_mode` reads
them. A quote inside is written twice. In a string a backslash changes the meaning of the character after it; in an
identifier it is a character like others, but not all characters are permitted.
-/
import Accelerator.Sql.Statements

namespace Accelerator.Sql

open Strings

/-! ## Reading -/

/-- The escapes that stand for another character: NUL, backspace, line feed, carriage return, tab and Control-Z. -/
def escapes : List (Sym × Sym) :=
  [(.chr '0', .chr '\x00'), (.chr 'b', .chr '\x08'), (.chr 'n', .chr '\n'), (.chr 'r', .chr '\x0d'),
   (.chr 't', .chr '\t'), (.chr 'Z', .chr '\x1a')]

def isWildcard (c : Sym) : Bool := c = .chr '%' || c = .chr '_'

/-- What a backslash and the character after it denote. Before a wildcard the backslash stays, and before any other
character it is left out. -/
def unescape (c : Sym) : Text := if isWildcard c then [.chr '\\', c] else [(escapes.lookup c).getD c]

/-- Read what follows the opening quote `q` of a string: its value and the text after the closing quote. -/
def readString (q : Sym) : Text → Option (Text × Text)
  | [] => none
  | c :: cs =>
    if c = .chr '\\' then
      match cs with
      | [] => none
      | d :: ds => (readString q ds).map fun r => (unescape d ++ r.1, r.2)
    else if c = q then
      match cs with
      | [] => some ([], [])
      | d :: ds => if d = q then (readString q ds).map fun r => (q :: r.1, r.2) else some ([], d :: ds)
    else (readString q cs).map fun r => (c :: r.1, r.2)

/-- The characters permitted in quoted identifiers: those of the Basic Multilingual Plane but NUL. -/
def permitted : Sym → Bool
  | .chr c => 0 < c.toNat && c.toNat < 0x10000
  | .bad _ => false

/-- Read what follows the opening backquote of an identifier. -/
def readIdentifier : Text → Option (Text × Text)
  | [] => none
  | c :: cs =>
    if c = .chr '`' then
      match cs with
      | [] => some ([], [])
      | d :: ds => if d = .chr '`' then (readIdentifier ds).map fun r => (d :: r.1, r.2) else some ([], d :: ds)
    else if permitted c then (readIdentifier cs).map fun r => (c :: r.1, r.2)
    else none

/-- What a statement is made of. -/
inductive Atom where
  | string (value : Text)
  | identifier (value : Text)
  | other (lexeme : Lexeme)
  deriving DecidableEq, Repr

/-- One step: what was read, if it is not white space or a comment, whether an executable comment is open, and what
is left. There is no step where a literal is not closed or not permitted. -/
def readAtom (executable : Bool) (c : Sym) (cs : Text) : Option (Option Atom × Bool × Text) :=
  if c = .chr '\'' ∨ c = .chr '"' then (readString c cs).map fun r => (some (.string r.1), executable, r.2)
  else if c = .chr '`' then (readIdentifier cs).map fun r => (some (.identifier r.1), executable, r.2)
  else
    let s := scan executable c cs
    some (s.lexeme.map .other, s.executable, s.rest)

/-- The loop. A step reads at least one character, so the length is fuel enough. -/
def atomsFrom : Nat → Bool → Text → Option (List Atom)
  | 0, _, _ => some []
  | _, _, [] => some []
  | fuel + 1, executable, c :: cs =>
    (readAtom executable c cs).bind fun r => (atomsFrom fuel r.2.1 r.2.2).map (r.1.toList ++ ·)

/-- The atoms of a text, if all its literals can be read. -/
def atoms (t : Text) : Option (List Atom) := atomsFrom t.length false t

example : atoms (text "SET x = 'a''\\n\\%'") =
    some [.other (.word (text "SET")), .other (.word (text "X")), .other (.symbol (.chr '=')),
      .string (text "a'\n\\%")] := by decide +kernel

/-! ## Steps -/

section Characters

variable {q c : Sym} {t : Text}

theorem readString_other (hc : c ≠ .chr '\\') (hq : c ≠ q) :
    readString q (c :: t) = (readString q t).map fun r => (c :: r.1, r.2) := by
  rw [readString.eq_def]
  simp only [if_neg hc, if_neg hq]

theorem readString_escape : readString q (.chr '\\' :: c :: t) =
    (readString q t).map fun r => (unescape c ++ r.1, r.2) := by
  rw [readString.eq_def]
  simp only [if_true]

theorem readString_pair (hq : q ≠ .chr '\\') :
    readString q (q :: q :: t) = (readString q t).map fun r => (q :: r.1, r.2) := by
  rw [readString.eq_def]
  simp only [if_neg hq, if_true]

theorem readString_close (hq : q ≠ .chr '\\') (ht : t.head? ≠ some q) : readString q (q :: t) = some ([], t) := by
  rw [readString.eq_def]
  simp only [if_neg hq, if_true]
  cases t with
  | nil => rfl
  | cons d ds =>
    have hd : d ≠ q := fun h => ht (congrArg some h)
    simp only [if_neg hd]

theorem readIdentifier_other (hc : c ≠ .chr '`') : readIdentifier (c :: t) =
    if permitted c then (readIdentifier t).map fun r => (c :: r.1, r.2) else none := by
  rw [readIdentifier.eq_def]
  simp only [if_neg hc]

theorem readIdentifier_pair : readIdentifier (.chr '`' :: .chr '`' :: t) =
    (readIdentifier t).map fun r => (.chr '`' :: r.1, r.2) := by
  rw [readIdentifier.eq_def]
  simp only [if_true]

end Characters

/-- What is read behind a first character leaves less. -/
theorem length_of_map {f : Text × Text → Text × Text} {o : Option (Text × Text)} {n m : Nat} {r : Text × Text}
    (h : o.map f = some r) (hf : ∀ x, (f x).2 = x.2) (ho : ∀ x, o = some x → x.2.length ≤ n) (hn : n ≤ m) :
    r.2.length ≤ m := by
  obtain ⟨x, hx, rfl⟩ := Option.map_eq_some_iff.1 h
  rw [hf]
  exact (ho x hx).trans hn

theorem length_readString (q : Sym) (t : Text) :
    ∀ r, readString q t = some r → r.2.length ≤ t.length := by
  fun_induction readString q t with
  | case1 => exact nofun
  | case2 => exact nofun
  | case3 d ds ih =>
    intro r h
    exact length_of_map h (fun _ => rfl) ih ((Nat.le_succ _).trans (Nat.le_succ _))
  | case4 hc =>
    rintro r ⟨⟩
    exact Nat.zero_le _
  | case5 hc ds ih =>
    intro r h
    exact length_of_map h (fun _ => rfl) ih ((Nat.le_succ _).trans (Nat.le_succ _))
  | case6 hc d ds hd =>
    rintro r ⟨⟩
    exact Nat.le_succ _
  | case7 c cs hc hq ih =>
    intro r h
    exact length_of_map h (fun _ => rfl) ih (Nat.le_succ _)

theorem length_readIdentifier (t : Text) : ∀ r, readIdentifier t = some r → r.2.length ≤ t.length := by
  fun_induction readIdentifier t with
  | case1 => exact nofun
  | case2 =>
    rintro r ⟨⟩
    exact Nat.zero_le _
  | case3 ds ih =>
    intro r h
    exact length_of_map h (fun _ => rfl) ih ((Nat.le_succ _).trans (Nat.le_succ _))
  | case4 d ds hd =>
    rintro r ⟨⟩
    exact Nat.le_succ _
  | case5 c cs hc hp ih =>
    intro r h
    exact length_of_map h (fun _ => rfl) ih (Nat.le_succ _)
  | case6 => exact nofun

theorem length_readAtom {executable : Bool} {c : Sym} {cs : Text} {r : Option Atom × Bool × Text}
    (h : readAtom executable c cs = some r) : r.2.2.length ≤ cs.length := by
  unfold readAtom at h
  split_ifs at h
  · obtain ⟨x, hx, rfl⟩ := Option.map_eq_some_iff.1 h
    exact length_readString c cs x hx
  · obtain ⟨x, hx, rfl⟩ := Option.map_eq_some_iff.1 h
    exact length_readIdentifier cs x hx
  · cases h
    exact (scan_suffix executable c cs).length_le

theorem atomsFrom_fuel {n : Nat} {executable : Bool} {t : Text} (h : t.length ≤ n) :
    atomsFrom n executable t = atomsFrom t.length executable t := by
  induction n using Nat.strong_induction_on generalizing executable t with
  | _ n ih =>
    rcases t with _ | ⟨c, cs⟩
    · cases n <;> rfl
    rcases n with _ | n
    · cases h
    have hcs : cs.length ≤ n := Nat.le_of_succ_le_succ h
    rw [atomsFrom, List.length_cons, atomsFrom]
    cases hr : readAtom executable c cs with
    | none => rfl
    | some r =>
      have hle := length_readAtom hr
      simp only [Option.bind_some]
      rw [ih n (Nat.lt_succ_self n) (hle.trans hcs), ih cs.length (Nat.lt_succ_of_le hcs) hle]

/-- One step that leaves executable comments closed. -/
theorem atoms_cons {c : Sym} {cs rest : Text} {o : Option Atom} (h : readAtom false c cs = some (o, false, rest)) :
    atoms (c :: cs) = (atoms rest).map (o.toList ++ ·) := by
  rw [atoms, List.length_cons, atomsFrom, h]
  simp only [Option.bind_some]
  rw [atomsFrom_fuel (length_readAtom h)]
  rfl

/-- What is not a quote is read by the lexer. -/
theorem readAtom_scan {executable : Bool} {c : Sym} (hc : ¬ isQuote c) (cs : Text) :
    readAtom executable c cs = some ((scan executable c cs).lexeme.map .other, (scan executable c cs).executable,
      (scan executable c cs).rest) := by
  obtain ⟨hsingle, hdouble, hback⟩ : c ≠ .chr '\'' ∧ c ≠ .chr '"' ∧ c ≠ .chr '`' := by
    simpa only [isQuote, not_or] using hc
  rw [readAtom, if_neg (not_or.2 ⟨hsingle, hdouble⟩), if_neg hback]

theorem atoms_blank {c : Sym} (h : isBlank c = true) (t : Text) : atoms (c :: t) = atoms t := by
  have hquote : ¬ isQuote c := by
    rintro (rfl | rfl | rfl) <;> cases h
  have hread : readAtom false c t = some (none, false, t) := by
    rw [readAtom_scan hquote, scan, if_pos h]
    rfl
  rw [atoms_cons hread]
  exact Option.map_id_apply

/-- A word, up to a character that does not belong to it. -/
theorem atoms_word {w t : Text} (hne : w ≠ []) (hw : ∀ c ∈ w, isWordSym c = true)
    (ht : ∀ c ∈ t.head?, isWordSym c = false) :
    atoms (w ++ t) = (atoms t).map (.other (.word (w.map keyUpper)) :: ·) := by
  obtain ⟨c, cs, rfl⟩ := List.exists_cons_of_ne_nil hne
  have hc : isWordSym c = true := hw c (List.mem_cons_self ..)
  have hcs : ∀ d ∈ cs, isWordSym d = true := fun d hd => hw d (List.mem_cons_of_mem _ hd)
  have htake : t.takeWhile isWordSym = [] := by
    cases t with
    | nil => rfl
    | cons d t => rw [List.takeWhile_cons_of_neg (by rw [ht d rfl]; decide)]
  have hdrop : t.dropWhile isWordSym = t := by
    cases t with
    | nil => rfl
    | cons d t => rw [List.dropWhile_cons_of_neg (by rw [ht d rfl]; decide)]
  have hquote : ¬ isQuote c := by
    rintro (rfl | rfl | rfl) <;> cases hc
  have hread : readAtom false c (cs ++ t) =
      some (some (.other (.word ((c :: cs).map keyUpper))), false, t) := by
    rw [readAtom_scan hquote, scan_wordSym false hc, List.takeWhile_append_of_pos hcs,
      List.dropWhile_append_of_pos hcs, htake, hdrop, List.append_nil]
    rfl
  rw [List.cons_append, atoms_cons hread]
  rfl

theorem atoms_word_blank {w t : Text} (hne : w ≠ []) (hw : ∀ c ∈ w, isWordSym c = true) :
    atoms (w ++ .chr ' ' :: t) = (atoms t).map (.other (.word (w.map keyUpper)) :: ·) := by
  rw [atoms_word hne hw (by rintro c ⟨⟩; rfl), atoms_blank rfl]

/-! ## Quotes written twice -/

/-- A text with every quote written twice. -/
def doubled (q : Sym) (v : Text) : Text := v.flatMap fun c => if c = q then [q, q] else [c]

theorem replaceAll_quote (q : Sym) (v : Text) : replaceAll v [q] [q, q] = doubled q v := by
  unfold replaceAll doubled
  induction v with
  | nil => rfl
  | cons c cs ih =>
    rw [replaceFrom, List.flatMap_cons]
    by_cases hc : c = q
    · rw [if_pos (by rw [hc]; simp), if_pos hc, ← ih]
      rfl
    · rw [if_neg (by simpa using Ne.symm hc), if_neg hc, ← ih]
      rfl

section Doubled

variable {q c : Sym} {v w : Text}

theorem doubled_quote : doubled q (q :: v) = q :: q :: doubled q v := by
  rw [doubled, List.flatMap_cons, if_pos rfl]
  rfl

theorem doubled_other (hc : c ≠ q) : doubled q (c :: v) = c :: doubled q v := by
  rw [doubled, List.flatMap_cons, if_neg hc]
  rfl

/-- An identifier between backquotes is its name, if all its characters are permitted. -/
theorem readIdentifier_doubled (v : Text) :
    readIdentifier (doubled (.chr '`') v ++ [.chr '`']) = if v.all permitted then some (v, []) else none := by
  induction v with
  | nil => rfl
  | cons c cs ih =>
    rw [List.all_cons]
    by_cases hc : c = .chr '`'
    · subst hc
      have hp : permitted (.chr '`') = true := by decide
      rw [doubled_quote, List.cons_append, List.cons_append, readIdentifier_pair, ih, hp, Bool.true_and]
      split_ifs <;> rfl
    · rw [doubled_other hc, List.cons_append, readIdentifier_other hc, ih]
      cases permitted c
      · rfl
      · rw [Bool.true_and, if_pos rfl]
        split_ifs <;> rfl

/-- Every backslash stands before a wildcard, where it stays. -/
def backslashesKept : Text → Bool
  | [] => true
  | c :: cs => (c ≠ .chr '\\' || cs.head?.any isWildcard) && backslashesKept cs

theorem backslashesKept_other (hc : c ≠ .chr '\\') : backslashesKept (c :: v) = backslashesKept v := by
  rw [backslashesKept, decide_eq_true hc]
  rfl

theorem backslashesKept_escape (hc : c ≠ .chr '\\') :
    backslashesKept (.chr '\\' :: c :: v) = (isWildcard c && backslashesKept v) := by
  rw [backslashesKept, backslashesKept_other hc]
  rfl

/-- After an escaped quote the quotes that are left are paired the wrong way. What is read is not longer than the
text. -/
theorem readString_odd (hq : q ≠ .chr '\\') (v : Text) :
    ∀ r, readString q (q :: (doubled q v ++ [q])) = some r → r.1.length ≤ v.length := by
  induction v with
  | nil =>
    intro r h
    have hnone : readString q (q :: q :: []) = none := readString_pair hq
    rw [show q :: (doubled q [] ++ [q]) = q :: q :: [] from rfl, hnone] at h
    cases h
  | cons c cs ih =>
    intro r h
    by_cases hc : c = q
    · subst hc
      rw [doubled_quote, List.cons_append, List.cons_append, readString_pair hq] at h
      obtain ⟨x, hx, rfl⟩ := Option.map_eq_some_iff.1 h
      exact Nat.succ_le_succ (ih x hx)
    · rw [doubled_other hc, List.cons_append, readString_close hq (by simpa using hc)] at h
      cases h
      exact Nat.zero_le _

/-- The shapes of a text around its backslashes. -/
theorem escape_induct {motive : Text → Prop} (nil : motive []) (lone : motive [.chr '\\'])
    (escape : ∀ d ds, motive ds → motive (.chr '\\' :: d :: ds))
    (other : ∀ c cs, c ≠ .chr '\\' → motive cs → motive (c :: cs)) (v : Text) : motive v := by
  induction v using List.twoStepInduction with
  | nil => exact nil
  | singleton c =>
    by_cases hc : c = .chr '\\'
    · exact hc ▸ lone
    · exact other c [] hc nil
  | cons_cons c d v ih₂ ih₁ =>
    by_cases hc : c = .chr '\\'
    · exact hc ▸ escape d v ih₂
    · exact other c (d :: v) hc (ih₁ d)

theorem length_unescape (c : Sym) : (unescape c).length ≤ 2 ∧ ((unescape c).length = 2 → isWildcard c = true) := by
  unfold unescape
  split_ifs with hc
  · exact ⟨Nat.le_refl _, fun _ => hc⟩
  · exact ⟨Nat.le_succ _, nofun⟩

variable (hq : q ≠ .chr '\\') (hw : isWildcard q = false)
include hq hw

/-- What is read between the quotes is not longer than the text, and as long only if the backslashes stay. -/
theorem readString_length (v : Text) : ∀ r, readString q (doubled q v ++ [q]) = some r →
    r.1.length ≤ v.length ∧ (r.1.length = v.length → backslashesKept v = true) := by
  induction v using escape_induct with
  | nil =>
    intro r h
    rw [show doubled q [] ++ [q] = q :: [] from rfl, readString_close (t := []) hq nofun] at h
    cases h
    exact ⟨Nat.le_refl _, fun _ => rfl⟩
  | lone =>
    intro r h
    rw [doubled_other hq.symm, show doubled q [] = [] from rfl, List.cons_append, List.nil_append,
      readString_escape] at h
    cases h
  | escape d ds ih =>
    intro r h
    rw [doubled_other hq.symm] at h
    obtain ⟨htwo, hwild⟩ := length_unescape d
    by_cases hd : d = q
    · subst hd
      rw [doubled_quote, List.cons_append, List.cons_append, readString_escape] at h
      obtain ⟨x, hx, rfl⟩ := Option.map_eq_some_iff.1 h
      have hle := readString_odd hq ds x hx
      have hone : (unescape d).length ≠ 2 := fun h => by
        rw [hwild h] at hw
        cases hw
      simp only [List.length_append, List.length_cons]
      exact ⟨by omega, fun hlen => by omega⟩
    · rw [doubled_other hd, List.cons_append, List.cons_append, readString_escape] at h
      obtain ⟨x, hx, rfl⟩ := Option.map_eq_some_iff.1 h
      obtain ⟨hle, hkept⟩ := ih x hx
      simp only [List.length_append, List.length_cons]
      refine ⟨by omega, fun hlen => ?_⟩
      have hd' : isWildcard d = true := hwild (by omega)
      have hne : d ≠ .chr '\\' := by
        rintro rfl
        cases hd'
      rw [backslashesKept_escape hne, hd', hkept (by omega)]
      rfl
  | other c cs hc ih =>
    intro r h
    rw [backslashesKept_other hc]
    have hread : ∃ x, readString q (doubled q cs ++ [q]) = some x ∧ (c :: x.1, x.2) = r := by
      by_cases hcq : c = q
      · subst hcq
        rw [doubled_quote, List.cons_append, List.cons_append, readString_pair hq] at h
        exact Option.map_eq_some_iff.1 h
      · rw [doubled_other hcq, List.cons_append, readString_other hc hcq] at h
        exact Option.map_eq_some_iff.1 h
    obtain ⟨x, hx, rfl⟩ := hread
    obtain ⟨hle, hkept⟩ := ih x hx
    exact ⟨Nat.succ_le_succ hle, fun h => hkept (Nat.succ_injective h)⟩

theorem readString_doubled {v : Text} (hv : backslashesKept v = true) :
    readString q (doubled q v ++ [q]) = some (v, []) := by
  revert hv
  induction v using escape_induct with
  | nil => exact fun _ => readString_close (t := []) hq nofun
  | lone => exact nofun
  | escape d ds ih =>
    intro hkept
    by_cases hd : d = .chr '\\'
    · subst hd
      rw [backslashesKept] at hkept
      cases hkept
    · rw [backslashesKept_escape hd, Bool.and_eq_true] at hkept
      have hdq : d ≠ q := by
        rintro rfl
        rw [hw] at hkept
        cases hkept.1
      rw [doubled_other hq.symm, doubled_other hdq, List.cons_append, List.cons_append, readString_escape, ih hkept.2,
        unescape, if_pos hkept.1]
      rfl
  | other c cs hc ih =>
    intro hkept
    rw [backslashesKept_other hc] at hkept
    by_cases hcq : c = q
    · subst hcq
      rw [doubled_quote, List.cons_append, List.cons_append, readString_pair hq, ih hkept]
      rfl
    · rw [doubled_other hcq, List.cons_append, readString_other hc hcq, ih hkept]
      rfl

/-- A string with its quotes written twice denotes the text exactly when the backslashes of the text stay. -/
theorem readString_doubled_iff (v : Text) :
    (∃ rest, readString q (doubled q v ++ [q]) = some (v, rest)) ↔ backslashesKept v = true := by
  constructor
  · rintro ⟨rest, h⟩
    exact (readString_length hq hw v (v, rest) h).2 rfl
  · intro hv
    exact ⟨[], readString_doubled hq hw hv⟩

end Doubled

/-! ## Literals as atoms -/

theorem atoms_string_iff (v : Text) :
    atoms (.chr '\'' :: (doubled (.chr '\'') v ++ [.chr '\''])) = some [.string v] ↔ backslashesKept v = true := by
  have hread : ∀ r, readString (.chr '\'') (doubled (.chr '\'') v ++ [.chr '\'']) = r →
      readAtom false (.chr '\'') (doubled (.chr '\'') v ++ [.chr '\'']) =
        r.map fun r => (some (.string r.1), false, r.2) := by
    rintro r rfl
    rw [readAtom, if_pos (.inl rfl)]
  rw [← readString_doubled_iff (q := .chr '\'') (by decide) (by decide)]
  constructor
  · intro h
    cases hr : readString (.chr '\'') (doubled (.chr '\'') v ++ [.chr '\'']) with
    | none =>
      rw [atoms, List.length_cons, atomsFrom, hread _ hr] at h
      cases h
    | some r =>
      rw [atoms_cons (hread _ hr)] at h
      obtain ⟨x, -, hx⟩ := Option.map_eq_some_iff.1 h
      cases hx
      exact ⟨r.2, rfl⟩
  · intro h
    have hr := readString_doubled (q := .chr '\'') (by decide) (by decide)
      ((readString_doubled_iff (by decide) (by decide) v).1 h)
    rw [atoms_cons (hread _ hr)]
    rfl

theorem atoms_identifier_iff (v : Text) :
    atoms (.chr '`' :: (doubled (.chr '`') v ++ [.chr '`'])) = some [.identifier v] ↔ v.all permitted = true := by
  have hread : readAtom false (.chr '`') (doubled (.chr '`') v ++ [.chr '`']) =
      if v.all permitted then some (some (.identifier v), false, []) else none := by
    rw [readAtom, if_neg (by decide), if_pos rfl, readIdentifier_doubled]
    split_ifs <;> rfl
  by_cases hv : v.all permitted = true
  · rw [if_pos hv] at hread
    rw [atoms_cons hread]
    exact iff_of_true rfl hv
  · rw [if_neg hv] at hread
    rw [atoms, List.length_cons, atomsFrom, hread]
    exact iff_of_false nofun hv

/-! ## Literals and statements -/

/-- The rest of a quoted text after its next quote: nothing, or a shorter one of the same kind. -/
def Closes (q : Sym) (P : Text → Prop) (v : Text) : Prop :=
  skipQuoted q false (doubled q v ++ [q]) = [] ∨
    ∃ y, skipQuoted q false (doubled q v ++ [q]) = q :: (doubled q y ++ [q]) ∧ P y ∧ y.length < v.length

section Closes

variable {q c : Sym} {P : Text → Prop} {v cs : Text}

theorem Closes.longer (h : Closes q P cs)
    (hskip : skipQuoted q false (doubled q v ++ [q]) = skipQuoted q false (doubled q cs ++ [q]))
    (hlen : cs.length ≤ v.length) : Closes q P v := by
  rcases h with h | ⟨y, h, hy, hlt⟩
  · exact .inl (hskip.trans h)
  · exact .inr ⟨y, hskip.trans h, hy, Nat.lt_of_lt_of_le hlt hlen⟩

theorem closes_quote (hq : q = .chr '\\' → q = .chr '`') (hP : P cs) : Closes q P (q :: cs) := by
  refine .inr ⟨cs, ?_, hP, Nat.lt_succ_self _⟩
  rw [doubled_quote, List.cons_append, List.cons_append, skipQuoted, if_neg (fun h => h.2 (hq h.1)), if_pos rfl]

theorem closes_identifier (v : Text) : Closes (.chr '`') (fun _ => True) v := by
  induction v with
  | nil => exact .inl rfl
  | cons c cs ih =>
    by_cases hc : c = .chr '`'
    · subst hc
      exact closes_quote (fun _ => rfl) trivial
    · refine ih.longer ?_ (Nat.le_succ _)
      rw [doubled_other hc, List.cons_append, skipQuoted, if_neg (fun h => h.2 rfl), if_neg hc]

theorem closes_string (v : Text) (hv : backslashesKept v = true) :
    Closes (.chr '\'') (backslashesKept · = true) v := by
  induction v using escape_induct with
  | nil => exact .inl rfl
  | lone => cases hv
  | escape d ds ih =>
    by_cases hd : d = .chr '\\'
    · subst hd
      rw [backslashesKept] at hv
      cases hv
    · rw [backslashesKept_escape hd, Bool.and_eq_true] at hv
      have hdq : d ≠ .chr '\'' := by
        rintro rfl
        cases hv.1
      refine (ih hv.2).longer ?_ ((Nat.le_succ _).trans (Nat.le_succ _))
      rw [doubled_other (by decide), doubled_other hdq, List.cons_append, List.cons_append, skipQuoted,
        if_pos ⟨rfl, by decide⟩, skipQuoted]
  | other c cs hc ih =>
    rw [backslashesKept_other hc] at hv
    by_cases hcq : c = .chr '\''
    · subst hcq
      exact closes_quote (by decide) hv
    · refine (ih hv).longer ?_ (Nat.le_succ _)
      rw [doubled_other hcq, List.cons_append, skipQuoted, if_neg (fun h => hc h.1), if_neg hcq]

/-- A literal has nothing but content. -/
theorem pieces_literal (hq : isQuote q) (hP : ∀ v, P v → Closes q P v) (v : Text) (hv : P v) :
    ∀ p ∈ pieces (q :: (doubled q v ++ [q])), p = .content := by
  induction hn : v.length using Nat.strong_induction_on generalizing v with
  | _ n ih =>
    have hpiece : piece q (doubled q v ++ [q]) = (.content, skipQuoted q false (doubled q v ++ [q])) := by
      rcases hq with rfl | rfl | rfl <;> rfl
    rw [pieces_cons, hpiece]
    refine List.forall_mem_cons.2 ⟨rfl, ?_⟩
    rcases hP v hv with h | ⟨y, h, hy, hlt⟩
    · rw [h]
      exact nofun
    · rw [h]
      exact ih y.length (hn ▸ hlt) y hy rfl

end Closes

/-- The characters that do not begin a comment, a literal or another statement. -/
def isPlain (c : Sym) : Bool := c ∉ text "#-/;'\"`"

theorem pieces_plain {p : Text} (hp : ∀ c ∈ p, isPlain c = true) (t : Text) :
    pieces (p ++ t) = p.map (fun c => if isBlank c then .blank else .content) ++ pieces t := by
  induction p with
  | nil => rfl
  | cons c cs ih =>
    have hc : c ∉ text "#-/;'\"`" := of_decide_eq_true (hp c (List.mem_cons_self ..))
    have hpiece : piece c (cs ++ t) = (if isBlank c then .blank else .content, cs ++ t) := by
      by_cases hb : isBlank c = true
      · rw [piece, if_pos hb, if_pos hb]
      rw [if_neg hb]
      rcases piece_cases c (cs ++ t) with ⟨hblank, -⟩ | ⟨hmem, -⟩ | ⟨rfl, -⟩ | ⟨hquote, -⟩ | ⟨-, h⟩
      · exact absurd hblank hb
      · exact absurd (List.mem_append_left (text ";'\"`") hmem) hc
      · exact absurd (by decide) hc
      · rcases hquote with rfl | rfl | rfl <;> exact absurd (by decide) hc
      · exact h
    rw [List.cons_append, pieces_cons, hpiece, ih fun d hd => hp d (List.mem_cons_of_mem _ hd)]
    rfl

/-- Plain text with something to read in it, and behind it content only. -/
theorem statements_plain {p t : Text} (hp : ∀ c ∈ p, isPlain c = true) (hword : ∃ c ∈ p, isBlank c = false)
    (ht : ∀ x ∈ pieces t, x = .content) : statements (p ++ t) = 1 := by
  have hpieces := pieces_plain hp t
  have hnone : ∀ x ∈ pieces (p ++ t), (x == .separator) = false := by
    intro x hx
    rw [hpieces, List.mem_append] at hx
    rcases hx with hx | hx
    · obtain ⟨c, -, rfl⟩ := List.mem_map.1 hx
      split_ifs <;> decide
    · rw [ht x hx]
      decide
  have hcontent : .content ∈ pieces (p ++ t) := by
    obtain ⟨c, hc, hb⟩ := hword
    rw [hpieces, List.mem_append]
    exact .inl (List.mem_map.2 ⟨c, hc, by rw [hb]; rfl⟩)
  rw [statements, parts, List.splitOn, List.splitOnP_eq_singleton hnone, List.countP_singleton,
    if_pos (List.contains_iff_mem.2 hcontent)]

end Accelerator.Sql
