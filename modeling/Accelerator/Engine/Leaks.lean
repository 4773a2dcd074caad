/-
Which statements with per-connection state or side effects `ClassifySQL` lets through to a shared
connection. The classifier tests the upper-cased text for fragments; the server reads tokens. For each
first word this module says in which spellings the fragments are enough, and proves that a statement so
spelled is free of the refused constructs when it is forwarded.
-/
import Accelerator.Engine.Resend
import Accelerator.Sql.Lexer
import Mathlib.Data.List.Chain

namespace Accelerator.Engine

open Strings Sql

/-! ## Refused constructs -/

/-- The constructs the support contract says are refused. -/
inductive Construct where
  | userVariable | lock | temporary | file | returning
  deriving DecidableEq, Repr

def lockWords : List Text := [text "GET_LOCK", text "RELEASE_LOCK", text "IS_FREE_LOCK", text "IS_USED_LOCK"]
def fileWords : List Text := [text "OUTFILE", text "DUMPFILE"]

/-- The statements about accounts and roles, by the words they begin with: their at-signs stand between a user
and a host. -/
def accountFronts : List (List Text) :=
  [[text "CREATE", text "USER"], [text "CREATE", text "OR", text "REPLACE", text "USER"], [text "ALTER", text "USER"],
   [text "DROP", text "USER"], [text "RENAME", text "USER"], [text "CREATE", text "ROLE"],
   [text "CREATE", text "OR", text "REPLACE", text "ROLE"], [text "DROP", text "ROLE"], [text "SHOW", text "GRANTS"],
   [text "SHOW", text "CREATE", text "USER"]]

def NamesAccounts (ls : List Lexeme) : Prop := ∃ front ∈ accountFronts, front.map Lexeme.word <+: ls

instance (ls : List Lexeme) : Decidable (NamesAccounts ls) :=
  inferInstanceAs (Decidable (∃ front ∈ accountFronts, front.map Lexeme.word <+: ls))

/-- Behind `DEFINER = name`, the tokens being given from the last one back. -/
def followsDefiner : List Lexeme → Bool
  | .word _ :: .symbol c :: .word w :: _ => c = .chr '=' && w = text "DEFINER"
  | .literal :: .symbol c :: .word w :: _ => c = .chr '=' && w = text "DEFINER"
  | _ => false

/-- One of the tokens is the at-sign of a variable; `before` are those before them, from the last one back. -/
def namesVariable (before : List Lexeme) : List Lexeme → Bool
  | [] => false
  | l :: ls => (l = .userVariable && !followsDefiner before) || namesVariable (l :: before) ls

def explainWords : List Text := [text "EXPLAIN", text "DESC", text "DESCRIBE"]

/-- What may stand between `EXPLAIN` and the statement that is explained. -/
def explainOptions : List Lexeme :=
  [.word (text "EXTENDED"), .word (text "PARTITIONS"), .word (text "ANALYZE"), .word (text "FORMAT"),
   .symbol (.chr '='), .word (text "JSON"), .word (text "TRADITIONAL"), .word (text "TREE")]

/-- The statement itself, or the one it explains. -/
def explained (ls : List Lexeme) : List Lexeme :=
  if ∃ w ∈ explainWords, ls.head? = some (.word w) then ls.tail.dropWhile (explainOptions.contains ·) else ls

/-- The tokens of a statement contain the construct. -/
def Construct.In : Construct → List Lexeme → Prop
  | .userVariable, ls => ¬NamesAccounts ls ∧ namesVariable [] ls = true
  | .lock, ls => ∃ w ∈ lockWords, [.word w, .symbol (.chr '(')] <:+: ls
  | .temporary, ls =>
    [.word (text "CREATE"), .word (text "TEMPORARY")] <:+: ls ∨
      [.word (text "CREATE"), .word (text "OR"), .word (text "REPLACE"), .word (text "TEMPORARY")] <:+: ls
  | .file, ls => ∃ w ∈ fileWords, [.word (text "INTO"), .word w] <:+: ls
  | .returning, ls => (∃ w ∈ writeWords, (explained ls).head? = some (.word w)) ∧ .word (text "RETURNING") ∈ ls

instance : ∀ (k : Construct) (ls : List Lexeme), Decidable (k.In ls)
  | .userVariable, ls => inferInstanceAs (Decidable (¬NamesAccounts ls ∧ _ = true))
  | .lock, ls => inferInstanceAs (Decidable (∃ w ∈ lockWords, _ <:+: ls))
  | .temporary, ls => inferInstanceAs (Decidable (_ <:+: ls ∨ _ <:+: ls))
  | .file, ls => inferInstanceAs (Decidable (∃ w ∈ fileWords, _ <:+: ls))
  | .returning, ls => inferInstanceAs (Decidable ((∃ w ∈ writeWords, (explained ls).head? = some (.word w)) ∧ _ ∈ ls))

example : ¬Construct.userVariable.In (lexemes (text "CREATE DEFINER = u@localhost VIEW v AS SELECT 1")) := by
  decide +kernel

/-- The kinds that are sent to a connection of the shared pool. -/
def sharedKinds : List StatementKind := [.read, .write, .ddl]

/-- The text whose words the classifier looks at. -/
def visible (q : Text) : Text := stripLeadingComments (trimStatement q)

/-! ## Spellings the classifier sees through -/

/-- Two tokens that follow one another. -/
def Adjacent (v : Text) (t u : Token) : Prop := [t, u] <:+: lex v

/-- One space stands before the token. -/
def Spaced (v : Text) (t : Token) : Prop := .chr ' ' :: t.start <:+ v

/-- The token is one of the words. -/
def Among (ws : List Text) (t : Token) : Prop := ∃ w ∈ ws, t.lexeme = .word w

/-- Behind the words of a read: the parenthesis of a lock function follows its name at once, a file is introduced by
single spaces, and there is neither `TEMPORARY` nor, in what is explained, `RETURNING`. -/
def TameRead (v : Text) : Prop :=
  (lex v).IsChain (fun t u =>
    (Among lockWords t → u.lexeme = .symbol (.chr '(') → u.start = t.rest) ∧
    (t.lexeme = .word (text "INTO") → Among fileWords u → Spaced v t ∧ t.rest = .chr ' ' :: u.start)) ∧
  .word (text "TEMPORARY") ∉ lexemes v ∧
  (firstWord (toUpper v) ∈ explainWords → .word (text "RETURNING") ∉ lexemes v)

/-- Behind the words of a write: there is no at-sign, no name of a lock function, no `OUTFILE`, `DUMPFILE` or
`TEMPORARY`, and `RETURNING` stands after a space. -/
def TameWrite (v : Text) : Prop :=
  .userVariable ∉ lexemes v ∧ (∀ w ∈ lockWords ++ fileWords ++ [text "TEMPORARY"], .word w ∉ lexemes v) ∧
  ∀ t ∈ lex v, t.lexeme = .word (text "RETURNING") → Spaced v t

/-- `CREATE` and `TEMPORARY` are the first two words, with nothing but white space around them. -/
def PlainTemporary (v : Text) (t u : Token) : Prop :=
  t.start = v ∧ (t.rest ≠ u.start ∧ t.rest.dropWhile isBlank = u.start) ∧ ∀ c ∈ u.rest.head?, isBlank c = true

/-- Behind the words of DDL: an at-sign stands in a statement about accounts only, there is no name of a lock function,
no `OUTFILE` or `DUMPFILE`, and `TEMPORARY` follows nothing but a plain `CREATE`. -/
def TameDdl (v : Text) : Prop :=
  (.userVariable ∈ lexemes v → NamesAccounts (lexemes v)) ∧ (∀ w ∈ lockWords ++ fileWords, .word w ∉ lexemes v) ∧
  (lex v).IsChain fun t u => u.lexeme = .word (text "TEMPORARY") →
    t.lexeme = .word (text "CREATE") ∧ PlainTemporary v t u

/-- The comments the loop of `stripLeadingComments` cuts are ordinary ones with ASCII white space
between them. -/
def plainComments : Nat → Text → Bool
  | 0, _ => true
  | fuel + 1, value =>
    match comment? value with
    | none => true
    | some (p, body) =>
      match after p body with
      | none => true
      | some rest =>
        !(p == text "*/" && body.head? == some (.chr '!')) && (rest.takeWhile Sym.isSpace).all isBlank &&
          plainComments fuel (trimSpace rest)

/-- The front is plain, and what follows is spelled in the way its first word asks for. -/
def Tame (q : Text) : Prop :=
  plainComments (trimStatement q).length (trimStatement q) = true ∧
  (firstWord (toUpper (visible q)) ∈ readWords → TameRead (visible q)) ∧
  (firstWord (toUpper (visible q)) ∈ writeWords → TameWrite (visible q)) ∧
  (firstWord (toUpper (visible q)) ∈ ddlWords → TameDdl (visible q))

/-! ## Upper case -/

/-- No upper-case form outside ASCII falls on an at-sign or below. -/
theorem upperRanges_high : ∀ e ∈ upperRanges, 0x41 ≤ (e.1 : Int) + e.2.2.2 ∧ (e.2.1 : Int) + e.2.2.2 < 0x110000 ∧
    ((e.2.1 : Int) + e.2.2.2 < 0xd800 ∨ 0xe000 ≤ (e.1 : Int) + e.2.2.2) := by
  decide +kernel

theorem upperRune_high {c : Char} (h : 0x80 ≤ c.toNat) : 0x41 ≤ (upperRune c).toNat := by
  rw [upperRune, if_neg (by omega)]
  split
  · rename_i lo hi stride d hf
    have hmem := upperRanges_high _ (List.mem_of_find?_eq_some hf)
    have hrange := List.find?_some hf
    simp only [Bool.and_eq_true, decide_eq_true_eq] at hrange hmem
    have hv : (c.toNat + d : Int).toNat.isValidChar := by simp only [Nat.isValidChar]; omega
    have hn := toNat_ofNat hv
    omega
  · omega

/-- A letter the server folds by ASCII is folded to the same by `strings.ToUpper`. -/
theorem upper_of_keyUpper {c : Sym} {d : Char} (h : keyUpper c = .chr d) (hd : d.toNat < 0x80) : c.upper = .chr d := by
  cases c with
  | bad b => cases h
  | chr c =>
    simp only [keyUpper, Sym.chr.injEq] at h
    rw [Sym.upper, upperRune]
    split_ifs at h with hl
    · rw [if_pos (by simp only [char_le_iff] at hl; simp at hl; omega), if_pos hl, h]
    · rw [h, if_pos (by omega), if_neg (h ▸ hl)]

def isAscii : Sym → Bool
  | .chr c => c.toNat < 0x80
  | .bad _ => false

theorem toUpper_of_keyUpper {raw w : Text} (h : raw.map keyUpper = w) (hw : w.all isAscii = true) :
    toUpper raw = w := by
  subst h
  refine List.map_congr_left fun c hc => ?_
  have ha := List.all_eq_true.1 hw _ (List.mem_map_of_mem hc)
  cases hk : keyUpper c with
  | bad b => rw [hk] at ha; cases ha
  | chr d =>
    rw [hk] at ha
    exact upper_of_keyUpper hk (of_decide_eq_true ha)

/-- Below the letters upper case changes nothing. -/
theorem upper_eq_low {c : Sym} {d : Char} (h : c.upper = .chr d) (hd : d.toNat < 0x41) : c = .chr d := by
  cases c with
  | bad b =>
    simp only [Sym.upper, Sym.chr.injEq] at h
    subst h
    exact absurd hd (by decide)
  | chr c =>
    simp only [Sym.upper, Sym.chr.injEq] at h ⊢
    by_cases hc : 0x80 ≤ c.toNat
    · have := upperRune_high hc
      rw [h] at this
      omega
    · rw [upperRune, if_pos (by omega)] at h
      split_ifs at h with hl
      · simp only [char_le_iff] at hl
        have hv : (c.toNat - 32).isValidChar := by simp only [Nat.isValidChar]; omega
        have hn := toNat_ofNat hv
        rw [h] at hn
        simp at hl
        omega
      · exact h

theorem loneAt_toUpper {t : Text} (h : LoneAt t) : LoneAt (toUpper t) := by
  have hat : (Sym.chr '@').upper = .chr '@' := by decide
  induction t using loneAt_induct with
  | nil => exact h
  | other c t hc ih =>
    rw [toUpper, List.map_cons, loneAt_cons fun hu => hc (upper_eq_low hu (by decide))]
    exact ih ((loneAt_cons hc t).1 h)
  | pair t ih =>
    rw [toUpper, List.map_cons, List.map_cons, hat, loneAt_pair]
    exact ih ((loneAt_pair t).1 h)
  | single t hs =>
    rw [toUpper, List.map_cons, hat]
    refine loneAt_single fun hu => hs ?_
    cases t with
    | nil => cases hu
    | cons c t => rw [List.head?_cons, upper_eq_low (Option.some.inj hu) (by decide)]

/-! ## Fragments and tokens -/

/-- A fragment stands in the upper-cased text when it stands at some place of it. -/
theorem contains_toUpper {v u p : Text} (rest : Text) (hu : u <:+ v) (h : toUpper u = p ++ rest) :
    contains (toUpper v) p = true := by
  refine contains_iff.2 (List.infix_iff_prefix_suffix.2 ⟨toUpper u, ?_, hu.map _⟩)
  rw [h]
  exact List.prefix_append ..

theorem adjacent_of_infix {v : Text} {a b : Lexeme} (h : [a, b] <:+: lexemes v) :
    ∃ t u, Adjacent v t u ∧ t.lexeme = a ∧ u.lexeme = b := by
  obtain ⟨x, y, h⟩ := h
  obtain ⟨l, l', hl, hx, -⟩ := List.map_eq_append_iff.1 h.symm
  obtain ⟨l₁, l₂, rfl, -, hx⟩ := List.map_eq_append_iff.1 hx
  obtain ⟨t, l₃, rfl, ht, hx⟩ := List.map_eq_cons_iff.1 hx
  obtain ⟨u, l₄, rfl, hu, hx⟩ := List.map_eq_cons_iff.1 hx
  rw [List.map_eq_nil_iff.1 hx] at hl
  exact ⟨t, u, ⟨l₁, l', hl.symm⟩, ht, hu⟩

theorem Adjacent.chain {v : Text} {t u : Token} {R : Token → Token → Prop} (h : Adjacent v t u) (hR : (lex v).IsChain R) :
    R t u := List.isChain_pair.1 <| List.IsChain.infix hR h

theorem Adjacent.at {v : Text} {t u : Token} (h : Adjacent v t u) : t.At v ∧ u.At v :=
  ⟨lexFrom_at (h.subset (by simp)), lexFrom_at (h.subset (by simp))⟩

/-- A word in the text, upper-cased. -/
theorem toUpper_word {v w : Text} {t : Token} (h : t.At v) (hl : t.lexeme = .word w) (hw : w.all isAscii = true) :
    toUpper t.start = w ++ toUpper t.rest := by
  obtain ⟨raw, hstart, hraw⟩ := h.word hl
  rw [hstart, toUpper, List.map_append]
  exact congrArg (· ++ _) (toUpper_of_keyUpper hraw hw)

/-! ## Reads -/

theorem unsafeReadReason_nil {upper : Text} (h : unsafeReadReason upper = []) :
    (∀ p ∈ unsafeFragments, contains upper p ≠ true) ∧ ¬ LoneAt upper := by
  unfold unsafeReadReason at h
  split at h
  · exact absurd h (by decide)
  rename_i hfrag
  split at h
  · exact absurd h (by decide)
  rename_i hat
  refine ⟨fun p hp hc => hfrag (List.any_eq_true.2 ⟨p, hp, hc⟩), fun hl => hat (contains_iff.2 ?_)⟩
  exact (List.singleton_infix_iff _ _).2 hl

theorem lock_seen {v w : Text} {t u : Token} (h : Adjacent v t u) (hw : w ∈ lockWords) (ht : t.lexeme = .word w)
    (hu : u.lexeme = .symbol (.chr '(')) (htight : u.start = t.rest) :
    ∃ p ∈ unsafeFragments, contains (toUpper v) p = true := by
  have hfrag : ∀ w ∈ lockWords, w.all isAscii = true ∧ w ++ text "(" ∈ unsafeFragments := by decide
  obtain ⟨hta, hua⟩ := h.at
  refine ⟨_, (hfrag w hw).2, contains_toUpper (toUpper u.rest) hta.suffix ?_⟩
  rw [toUpper_word hta ht (hfrag w hw).1, ← htight, hua.symbol hu, List.append_assoc]
  rfl

theorem file_seen {v w : Text} {t u : Token} (h : Adjacent v t u) (ht : t.lexeme = .word (text "INTO"))
    (hw : w ∈ fileWords) (hu : u.lexeme = .word w) (hs : Spaced v t) (hsp : t.rest = .chr ' ' :: u.start) :
    ∃ p ∈ unsafeFragments, contains (toUpper v) p = true := by
  have hfrag : ∀ w ∈ fileWords, w.all isAscii = true ∧ text " INTO " ++ w ∈ unsafeFragments := by decide
  obtain ⟨hta, hua⟩ := h.at
  refine ⟨_, (hfrag w hw).2, contains_toUpper (toUpper u.rest) hs ?_⟩
  have hcons : ∀ x : Text, toUpper (.chr ' ' :: x) = .chr ' ' :: toUpper x := fun _ => rfl
  rw [hcons, toUpper_word hta ht (by decide), hsp, hcons, toUpper_word hua hu (hfrag w hw).1]
  rfl

theorem mem_of_namesVariable {before ls : List Lexeme} (h : namesVariable before ls = true) : .userVariable ∈ ls := by
  induction ls generalizing before with
  | nil => cases h
  | cons l ls ih =>
    simp only [namesVariable, Bool.or_eq_true, Bool.and_eq_true, decide_eq_true_eq] at h
    rcases h with ⟨rfl, -⟩ | h
    · exact List.mem_cons_self
    · exact List.mem_cons_of_mem _ (ih h)

theorem temporary_mem {ls : List Lexeme} (h : Construct.temporary.In ls) : .word (text "TEMPORARY") ∈ ls := by
  rcases h with h | h
  · exact h.subset (by simp)
  · exact h.subset (by simp)

theorem explained_of_head {ls : List Lexeme} (h : ∀ w ∈ explainWords, ls.head? ≠ some (.word w)) : explained ls = ls :=
  if_neg fun ⟨w, hw, hh⟩ => h w hw hh

/-- A read that is so spelled and is forwarded has no refused construct. -/
theorem read_clean {v : Text} (hsafe : unsafeReadReason (toUpper v) = []) (htame : TameRead v)
    (hhead : firstWord (toUpper v) ∉ explainWords →
      ∀ w ∈ writeWords ++ explainWords, (lexemes v).head? ≠ some (.word w)) (k : Construct) : ¬k.In (lexemes v) := by
  obtain ⟨hfrag, hat⟩ := unsafeReadReason_nil hsafe
  obtain ⟨hchain, htemp, hret⟩ := htame
  intro hk
  cases k with
  | userVariable => exact hat (loneAt_toUpper (loneAt_of_userVariable (mem_of_namesVariable hk.2)))
  | lock =>
    obtain ⟨w, hw, hk⟩ := hk
    obtain ⟨t, u, hadj, ht, hu⟩ := adjacent_of_infix hk
    obtain ⟨p, hp, hc⟩ := lock_seen hadj hw ht hu ((hadj.chain hchain).1 ⟨w, hw, ht⟩ hu)
    exact hfrag p hp hc
  | temporary => exact htemp (temporary_mem hk)
  | file =>
    obtain ⟨w, hw, hk⟩ := hk
    obtain ⟨t, u, hadj, ht, hu⟩ := adjacent_of_infix hk
    obtain ⟨hs, hrest⟩ := (hadj.chain hchain).2 ht ⟨w, hw, hu⟩
    obtain ⟨p, hp, hc⟩ := file_seen hadj ht hw hu hs hrest
    exact hfrag p hp hc
  | returning =>
    obtain ⟨⟨w, hw, hk⟩, hmem⟩ := hk
    by_cases hex : firstWord (toUpper v) ∈ explainWords
    · exact hret hex hmem
    · have hhead := hhead hex
      rw [explained_of_head fun w hw => hhead w (List.mem_append_right _ hw)] at hk
      exact hhead w (List.mem_append_left _ hw) hk

/-! ## Writes -/

theorem returning_seen {v : Text} {t : Token} (h : t ∈ lex v) (ht : t.lexeme = .word (text "RETURNING"))
    (hs : Spaced v t) : contains (toUpper v) (text " RETURNING") = true := by
  refine contains_toUpper (toUpper t.rest) hs ?_
  have hcons : toUpper (.chr ' ' :: t.start) = .chr ' ' :: toUpper t.start := rfl
  rw [hcons, toUpper_word (lexFrom_at h) ht (by decide)]
  rfl

/-- A write that is so spelled and is forwarded has no refused construct. -/
theorem write_clean {v : Text} (hr : contains (toUpper v) (text " RETURNING") = false) (htame : TameWrite v)
    (k : Construct) : ¬k.In (lexemes v) := by
  obtain ⟨hvariable, hwords, hspaced⟩ := htame
  intro hk
  cases k with
  | userVariable => exact hvariable (mem_of_namesVariable hk.2)
  | lock =>
    obtain ⟨w, hw, hk⟩ := hk
    exact hwords w (List.mem_append_left _ (List.mem_append_left _ hw)) (hk.subset (by simp))
  | temporary => exact hwords _ (by simp) (temporary_mem hk)
  | file =>
    obtain ⟨w, hw, hk⟩ := hk
    exact hwords w (List.mem_append_left _ (List.mem_append_right _ hw)) (hk.subset (by simp))
  | returning =>
    obtain ⟨t, ht, hl⟩ := List.mem_map.1 hk.2
    rw [returning_seen ht hl (hspaced t ht hl)] at hr
    cases hr

/-! ## Definitions -/

theorem isSpace_of_isBlank {c : Sym} (h : isBlank c = true) : c.isSpace = true := by
  cases c with
  | bad b => cases h
  | chr c =>
    simp only [isBlank, Sym.isSpace, isSpaceRune, Bool.or_eq_true, Bool.and_eq_true, decide_eq_true_eq] at h ⊢
    omega

theorem temporary_seen {v : Text} {t u : Token} (h : Adjacent v t u) (ht : t.lexeme = .word (text "CREATE"))
    (hu : u.lexeme = .word (text "TEMPORARY")) (hp : PlainTemporary v t u) :
    ∃ more, fields (toUpper v) = text "CREATE" :: text "TEMPORARY" :: more := by
  obtain ⟨hstart, ⟨hgap, hdrop⟩, hend⟩ := hp
  obtain ⟨hta, hua⟩ := h.at
  generalize hsp : t.rest.takeWhile isBlank = sp
  have hrest : t.rest = sp ++ u.start := by rw [← hsp, ← hdrop, List.takeWhile_append_dropWhile]
  have hblank : ∀ c ∈ sp, isBlank c = true := fun c hc => List.mem_takeWhile_imp (hsp ▸ hc)
  have hne : sp ≠ [] := by
    rintro rfl
    exact hgap hrest
  have hspace : ∀ c ∈ toUpper sp, c.isSpace = true := by
    intro c hc
    obtain ⟨d, hd, rfl⟩ := List.mem_map.1 hc
    exact upper_isSpace (isSpace_of_isBlank (hblank d hd))
  have hv : toUpper v = text "CREATE" ++ (toUpper sp ++ (text "TEMPORARY" ++ toUpper u.rest)) := by
    rw [← hstart, toUpper_word hta ht (by decide), hrest, ← toUpper_word hua hu (by decide)]
    simp [toUpper]
  refine ⟨fields (toUpper u.rest), ?_⟩
  rw [hv, fields_word (by decide) (by decide), fields_blank hspace, fields_word (by decide) (by decide)]
  · intro c hc
    obtain ⟨d, hd, rfl⟩ : ∃ d ∈ u.rest.head?, d.upper = c := by
      simpa [toUpper] using hc
    exact upper_isSpace (isSpace_of_isBlank (hend d hd))
  · cases sp with
    | nil => exact absurd rfl hne
    | cons d sp =>
      rintro c ⟨⟩
      exact hspace _ (List.mem_cons_self ..)

/-- A DDL statement that is so spelled and is forwarded has no refused construct. -/
theorem ddl_clean {v : Text} (ht : ∀ more, fields (toUpper v) ≠ text "CREATE" :: text "TEMPORARY" :: more)
    (htame : TameDdl v) (hhead : ∀ w ∈ writeWords ++ explainWords, (lexemes v).head? ≠ some (.word w)) (k : Construct) :
    ¬k.In (lexemes v) := by
  obtain ⟨haccounts, hwords, hchain⟩ := htame
  intro hk
  cases k with
  | userVariable => exact hk.1 (haccounts (mem_of_namesVariable hk.2))
  | lock =>
    obtain ⟨w, hw, hk⟩ := hk
    exact hwords w (List.mem_append_left _ hw) (hk.subset (by simp))
  | temporary =>
    rcases hk with hk | ⟨x, y, hk⟩
    · obtain ⟨t, u, hadj, hcreate, htemp⟩ := adjacent_of_infix hk
      obtain ⟨more, hf⟩ := temporary_seen hadj hcreate htemp (hadj.chain hchain htemp).2
      exact ht more hf
    · -- behind `OR REPLACE` it does not follow `CREATE`
      have hk : [.word (text "REPLACE"), .word (text "TEMPORARY")] <:+: lexemes v :=
        ⟨x ++ [.word (text "CREATE"), .word (text "OR")], y, by rw [← hk]; simp⟩
      obtain ⟨t, u, hadj, hreplace, htemp⟩ := adjacent_of_infix hk
      have hcreate := (hadj.chain hchain htemp).1
      rw [hreplace] at hcreate
      exact absurd hcreate (by decide)
  | file =>
    obtain ⟨w, hw, hk⟩ := hk
    exact hwords w (List.mem_append_right _ hw) (hk.subset (by simp))
  | returning =>
    obtain ⟨⟨w, hw, hk⟩, -⟩ := hk
    rw [explained_of_head fun w hw => hhead w (List.mem_append_right _ hw)] at hk
    exact hhead w (List.mem_append_left _ hw) hk

/-! ## The first word and the first token -/

theorem lexemes_head {c : Sym} (h : isWordSym c = true) (cs : Text) :
    (lexemes (c :: cs)).head? = some (.word ((c :: cs.takeWhile isWordSym).map keyUpper)) := by
  rw [lexemes, lex, List.length_cons, lexFrom, scan_wordSym false h]
  rfl

theorem prefix_firstWord {w : Text} (hw : ∀ c ∈ w, c.isSpace = false) (hne : w ≠ []) (t : Text) :
    w <+: firstWord (w ++ t) := by
  cases w with
  | nil => exact absurd rfl hne
  | cons c w =>
    have hall : ∀ d ∈ c :: w, (!d.isSpace) = true := fun d hd => by rw [hw d hd]; rfl
    have hc : ¬ c.isSpace = true := by simp [hw c (List.mem_cons_self ..)]
    rw [firstWord, List.cons_append, List.dropWhile_cons_of_neg hc, ← List.cons_append,
      List.takeWhile_append_of_pos hall]
    exact List.prefix_append ..

/-- Outside words upper case changes nothing. -/
theorem upper_of_not_wordSym {c : Sym} (h : isWordSym c = false) : c.upper = c := by
  cases c with
  | bad b => cases h
  | chr c =>
    simp only [isWordSym, Bool.or_eq_false_iff, Bool.and_eq_false_iff, decide_eq_false_iff_not] at h
    rw [Sym.upper, upperRune, if_pos (by omega), if_neg]
    rw [char_le_iff, char_le_iff]
    simp
    omega

/-- The words of reads and of DDL: they begin with a letter, and no other word of a write or of an explanation
begins them. -/
theorem otherWords_plain : ∀ r ∈ readWords ++ ddlWords, r ∉ explainWords →
    r.head?.any isWordSym = true ∧ ∀ w ∈ writeWords ++ explainWords, ¬ w <+: r := by
  decide

theorem head_not_write {v : Text} (htrim : v.dropWhile Sym.isSpace = v)
    (hr : firstWord (toUpper v) ∈ readWords ++ ddlWords) (hex : firstWord (toUpper v) ∉ explainWords) :
    ∀ w ∈ writeWords ++ explainWords, (lexemes v).head? ≠ some (.word w) := by
  intro w hw hhead
  obtain ⟨hletter, hpre⟩ := otherWords_plain _ hr hex
  have hwrite : ∀ w ∈ writeWords ++ explainWords, w ≠ [] ∧ w.all isAscii = true ∧ ∀ c ∈ w, c.isSpace = false := by decide
  obtain ⟨hne, hascii, hspace⟩ := hwrite w hw
  rcases v with _ | ⟨c, cs⟩
  · cases hhead
  cases hc : isWordSym c with
  | true =>
    rw [lexemes_head hc] at hhead
    have hup := toUpper_of_keyUpper (Lexeme.word.inj (Option.some.inj hhead)) hascii
    have hv : toUpper (c :: cs) = w ++ toUpper (cs.dropWhile isWordSym) := by
      rw [← hup, toUpper, toUpper, toUpper, ← List.map_append, List.cons_append, List.takeWhile_append_dropWhile]
    rw [hv] at hpre
    exact hpre w hw (prefix_firstWord hspace hne _)
  | false =>
    have hns : ¬ c.isSpace = true := by
      intro hs
      have := congrArg List.length htrim
      have hle := (List.dropWhile_suffix Sym.isSpace (l := cs)).length_le
      rw [List.dropWhile_cons_of_pos hs, List.length_cons] at this
      omega
    obtain ⟨d, hd, hword⟩ := Option.any_eq_true _ _ |>.1 hletter
    have hcons : toUpper (c :: cs) = c :: toUpper cs := by rw [toUpper, List.map_cons, upper_of_not_wordSym hc]; rfl
    rw [hcons, firstWord, List.dropWhile_cons_of_neg hns, List.takeWhile_cons_of_pos (by simpa using hns)] at hd
    cases hd
    rw [hc] at hword
    cases hword

/-! ## Comments at the front -/

theorem opensDashComment_of_dashSpace {t : Text} (h : t = [] ∨ dashSpace t.head? = true) :
    opensDashComment (.chr '-' :: t) = true := by
  rcases h with rfl | h
  · rfl
  rcases t with _ | ⟨c | b, t⟩
  · rfl
  · simp only [dashSpace, List.head?_cons, Bool.or_eq_true, decide_eq_true_eq] at h
    rcases h with ((rfl | rfl) | rfl) | rfl <;> rfl
  · cases h

/-- A comment the classifier cuts is skipped by the server, unless it is executable. -/
theorem lexemes_comment {value p body rest : Text} (hc : comment? value = some (p, body))
    (ha : after p body = some rest) (hp : ¬ (p = text "*/" ∧ body.head? = some (.chr '!'))) :
    lexemes value = lexemes rest := by
  have line : ∀ c cs, c = .chr '#' ∨ (c = .chr '-' ∧ opensDashComment cs = true) →
      after (text "\n") (c :: cs) = some rest → lexemes (c :: cs) = lexemes rest := by
    intro c cs hopen hafter
    have hblank : ¬ isBlank c = true := by rcases hopen with rfl | ⟨rfl, -⟩ <;> decide
    have hcs : after (text "\n") cs = some rest := by
      rw [after, if_neg] at hafter
      · exact hafter
      · rcases hopen with rfl | ⟨rfl, -⟩ <;> simp [text, List.isPrefixOf]
    have hs : scan false c cs = ⟨none, false, rest⟩ := by
      rw [scan, if_neg hblank, if_pos hopen, hcs]
      rfl
    rw [lexemes_skip (by rw [hs]) (by rw [hs]), hs]
  rcases value with _ | ⟨a, _ | ⟨b, t⟩⟩
  · cases hc
  · rw [comment?_single] at hc
    split at hc
    · cases hc
      exact line a [] (.inl ‹_›) ha
    · cases hc
  · rw [comment?_pair] at hc
    split at hc
    · rename_i hopen
      obtain ⟨rfl, rfl⟩ := hopen
      cases hc
      have hbang : body.head? ≠ some (.chr '!') := fun h => hp ⟨rfl, h⟩
      have hs : scan false (.chr '/') (.chr '*' :: body) = ⟨none, false, rest⟩ := by
        rw [scan, if_neg (by decide), if_neg (by simp), if_pos ⟨rfl, rfl⟩, List.tail_cons, if_neg hbang, ha]
        rfl
      rw [lexemes_skip (by rw [hs]) (by rw [hs]), hs]
    split at hc
    · rename_i hopen
      cases hc
      refine line a (b :: t) ?_ ha
      rcases hopen with hhash | ⟨hdash, rfl, ht⟩
      · exact .inl hhash
      · exact .inr ⟨hdash, opensDashComment_of_dashSpace ht⟩
    · cases hc

/-- No white space at the end. -/
def RightTrimmed (t : Text) : Prop := ∀ c ∈ t.getLast?, c.isSpace = false

theorem RightTrimmed.suffix {t u : Text} (h : RightTrimmed t) (hu : u <:+ t) : RightTrimmed u := by
  obtain ⟨x, rfl⟩ := hu
  intro c hc
  refine h c ?_
  rw [List.getLast?_append_of_ne_nil _ (by rintro rfl; cases hc)]
  exact hc

theorem rdropWhile_of_rightTrimmed {t : Text} (h : RightTrimmed t) : t.rdropWhile Sym.isSpace = t := by
  refine List.rdropWhile_eq_self_iff.2 fun hl => ?_
  rw [h _ (List.getLast?_eq_getLast_of_ne_nil hl)]
  exact Bool.false_ne_true

theorem rightTrimmed_rdropWhile (t : Text) : RightTrimmed (t.rdropWhile Sym.isSpace) := by
  intro c hc
  have hl : t.rdropWhile Sym.isSpace ≠ [] := by rintro hl; rw [hl] at hc; cases hc
  have hn := List.rdropWhile_last_not Sym.isSpace _ hl
  rw [List.getLast?_eq_getLast_of_ne_nil hl] at hc
  cases hc
  exact Bool.eq_false_iff.2 hn

theorem rightTrimmed_trimSpace (t : Text) : RightTrimmed (trimSpace t) := rightTrimmed_rdropWhile _

theorem comment?_suffix {value p body : Text} (h : comment? value = some (p, body)) : body <:+ value := by
  unfold comment? at h
  split at h
  · cases h; exact List.drop_suffix ..
  split at h
  · cases h; exact List.suffix_refl _
  split at h
  · cases h; exact List.suffix_refl _
  · cases h

/-- The server reads the same tokens before and after plain comments are cut. -/
theorem lexemes_plainComments {fuel : Nat} {value : Text} (ht : RightTrimmed value)
    (hp : plainComments fuel value = true) (hne : stripCommentsLoop fuel value ≠ []) :
    lexemes value = lexemes (stripCommentsLoop fuel value) := by
  induction fuel generalizing value with
  | zero => rfl
  | succ fuel ih =>
    rw [stripCommentsLoop_succ] at hne ⊢
    rw [plainComments] at hp
    cases hc : comment? value with
    | none => rfl
    | some x =>
      obtain ⟨p, body⟩ := x
      simp only [hc] at hne hp ⊢
      cases ha : after p body with
      | none => simp only [ha] at hne; exact absurd rfl hne
      | some rest =>
        simp only [ha, Bool.and_eq_true] at hne hp ⊢
        obtain ⟨⟨hbang, hblank⟩, hloop⟩ := hp
        obtain ⟨x, hx⟩ := after_split ha
        have hrest : RightTrimmed rest := ht.suffix (List.IsSuffix.trans ⟨x ++ p, hx.symm⟩ (comment?_suffix hc))
        have htrim : trimSpace rest = rest.dropWhile Sym.isSpace :=
          rdropWhile_of_rightTrimmed (hrest.suffix (List.dropWhile_suffix _))
        have hskip : lexemes rest = lexemes (trimSpace rest) := by
          rw [htrim]
          conv_lhs => rw [← List.takeWhile_append_dropWhile (p := Sym.isSpace) (l := rest)]
          exact lexemes_blank (List.all_eq_true.1 hblank) _
        have hplain : ¬ (p = text "*/" ∧ body.head? = some (.chr '!')) := by
          rintro ⟨rfl, hb⟩
          rw [hb] at hbang
          exact absurd hbang (by decide)
        rw [lexemes_comment hc ha hplain, hskip]
        exact ih (rightTrimmed_trimSpace rest) hloop hne

theorem dropWhile_stripCommentsLoop {fuel : Nat} {value : Text} (h : value.dropWhile Sym.isSpace = value) :
    (stripCommentsLoop fuel value).dropWhile Sym.isSpace = stripCommentsLoop fuel value := by
  induction fuel generalizing value with
  | zero => exact h
  | succ fuel ih =>
    rw [stripCommentsLoop_succ]
    cases comment? value with
    | none => exact h
    | some x =>
      obtain ⟨p, body⟩ := x
      simp only
      cases after p body with
      | none => rfl
      | some rest => exact ih (dropWhile_trimSpace rest)

/-! ## What is forwarded -/

/-- What is known of a statement sent to a shared connection, by its kind. -/
theorem shared_cases {q : Text} (h : (classifySQL q).kind ∈ sharedKinds) :
    (classifySQL q).sql = trimStatement q ∧ visible q ≠ [] ∧
    (((classifySQL q).kind = .read ∧ firstWord (toUpper (visible q)) ∈ readWords ∧
        unsafeReadReason (toUpper (visible q)) = []) ∨
      ((classifySQL q).kind = .write ∧ firstWord (toUpper (visible q)) ∈ writeWords ∧
        contains (toUpper (visible q)) (text " RETURNING") = false) ∨
      ((classifySQL q).kind = .ddl ∧ firstWord (toUpper (visible q)) ∈ ddlWords ∧
        ∀ more, fields (toUpper (visible q)) ≠ text "CREATE" :: text "TEMPORARY" :: more)) := by
  obtain ⟨first, more, hf, hq⟩ := classifySQL_words (q := q)
    (by rintro hk; rw [hk] at h; exact absurd h (by decide))
    (by rintro hk; rw [hk] at h; exact absurd h (by decide))
  change fields (toUpper (visible q)) = _ at hf
  change _ = classifyWords (trimStatement q) (toUpper (visible q)) _ _ at hq
  have hne : visible q ≠ [] := by
    rintro hv
    rw [hv] at hf
    cases hf
  refine ⟨by rw [hq, classifyWords_sql], hne, ?_⟩
  rw [hq] at h ⊢
  rw [← fields_head hf]
  revert h
  refine classifyWords_cases (motive := fun st => st.kind ∈ sharedKinds →
    (st.kind = .read ∧ _) ∨ (st.kind = .write ∧ _) ∨ (st.kind = .ddl ∧ _)) ?_ ?_ ?_ ?_ ?_
  · exact fun hr hs _ => .inl ⟨rfl, hr, hs⟩
  · exact fun hw hn _ => .inr (.inl ⟨rfl, hw, hn⟩)
  · refine fun hd hn _ => .inr (.inr ⟨rfl, hd, fun rest hrest => hn ?_⟩)
    rw [hf] at hrest
    rw [hrest]
    exact ⟨by simp, by simp [isWord]⟩
  · exact fun _ h => absurd h (by simp [sharedKinds])
  · rintro kind reason hk h
    exact absurd ((by decide : ∀ k ∈ sharedKinds, k ∈ forwardedKinds) kind h) hk

/-- Behind a plain front the server reads the tokens of the visible text. -/
theorem lexemes_visible {q : Text} (hp : plainComments (trimStatement q).length (trimStatement q) = true)
    (hne : visible q ≠ []) : lexemes (trimStatement q) = lexemes (visible q) := by
  have hself : trimSpace (trimStatement q) = trimStatement q := trimSpace_idempotent _
  have hv : visible q = stripCommentsLoop (trimStatement q).length (trimStatement q) := by
    rw [visible, stripLeadingComments, hself]
  rw [hv] at hne ⊢
  exact lexemes_plainComments (rightTrimmed_trimSpace _) hp hne

theorem dropWhile_visible (q : Text) : (visible q).dropWhile Sym.isSpace = visible q :=
  dropWhile_stripCommentsLoop (dropWhile_trimSpace _)

theorem head_of_dropWhile {t : Text} (h : t.dropWhile Sym.isSpace = t) : ∀ c ∈ t.head?, c.isSpace = false := by
  intro c hc
  have hnot := List.head?_dropWhile_not Sym.isSpace t
  rw [h, Option.mem_def.1 hc] at hnot
  exact hnot

section Decidable

instance (v : Text) (t : Token) : Decidable (Spaced v t) := inferInstanceAs (Decidable (_ <:+ _))

instance (ws : List Text) (t : Token) : Decidable (Among ws t) := inferInstanceAs (Decidable (∃ w ∈ ws, t.lexeme = .word w))

instance (v : Text) (t u : Token) : Decidable (PlainTemporary v t u) := inferInstanceAs (Decidable (_ ∧ _ ∧ _))

instance (v : Text) : Decidable (TameRead v) := inferInstanceAs (Decidable (_ ∧ _ ∧ (_ → _)))

instance (v : Text) : Decidable (TameWrite v) := inferInstanceAs (Decidable (_ ∧ _ ∧ _))

instance (v : Text) : Decidable (TameDdl v) := inferInstanceAs (Decidable ((_ → _) ∧ _ ∧ _))

instance (q : Text) : Decidable (Tame q) := inferInstanceAs (Decidable (_ ∧ (_ → _) ∧ (_ → _) ∧ (_ → _)))

end Decidable

/-- The statement is sent to a shared connection with the construct in it. -/
def Forwards (k : Construct) (q : String) : Prop :=
  (classifySQL (text q)).kind ∈ sharedKinds ∧ k.In (lexemes (classifySQL (text q)).sql)

instance (k : Construct) (q : String) : Decidable (Forwards k q) :=
  inferInstanceAs (Decidable (_ ∧ k.In (lexemes (classifySQL (text q)).sql)))

end Accelerator.Engine
