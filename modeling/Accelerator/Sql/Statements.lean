/-
The statements of a query text, as a server in the default `sql_mode` splits it: at the semicolons outside
strings, quoted identifiers and comments. A part that has nothing but white space and comments is no
statement.
-/
import Accelerator.Sql.Lexer

namespace Accelerator.Sql

open Strings

/-- What a step of the splitter reads. -/
inductive Piece where
  | blank
  | comment
  | separator
  | content
  deriving DecidableEq, Repr

def isQuote (c : Sym) : Prop := c = .chr '\'' ∨ c = .chr '"' ∨ c = .chr '`'

instance (c : Sym) : Decidable (isQuote c) := inferInstanceAs (Decidable (_ ∨ _))

/-- Read the text `c :: cs`. A doubled quote closes a string and opens another one, which hides the same. -/
def piece (c : Sym) (cs : Text) : Piece × Text :=
  if isBlank c then (.blank, cs)
  else if c = .chr '#' ∨ (c = .chr '-' ∧ opensDashComment cs) then (.comment, (after (text "\n") cs).getD [])
  else if c = .chr '/' ∧ cs.head? = some (.chr '*') then (.comment, (after (text "*/") cs.tail).getD [])
  else if c = .chr ';' then (.separator, cs)
  else if isQuote c then (.content, skipQuoted c false cs)
  else (.content, cs)

/-- The loop of the splitter. A step reads at least one character, so the length is fuel enough. -/
def piecesFrom : Nat → Text → List Piece
  | 0, _ => []
  | _, [] => []
  | fuel + 1, c :: cs => (piece c cs).1 :: piecesFrom fuel (piece c cs).2

def pieces (t : Text) : List Piece := piecesFrom t.length t

/-- The parts between the semicolons at top level. -/
def parts (t : Text) : List (List Piece) := (pieces t).splitOn .separator

/-- The number of parts with more than white space and comments. -/
def statements (t : Text) : Nat := (parts t).countP (·.contains .content)

example : statements (text "SELECT ';' /* ; */ -- ;\n ; # x") = 1 := by decide +kernel

example : statements (text "SELECT 1 /* ' */; DROP TABLE t") = 2 := by decide +kernel

/-! ## Steps -/

/-- What a piece can be. -/
theorem piece_cases (c : Sym) (cs : Text) :
    (isBlank c = true ∧ piece c cs = (.blank, cs)) ∨
    (c ∈ text "#-/" ∧ (piece c cs).1 = .comment) ∨
    (c = .chr ';' ∧ piece c cs = (.separator, cs)) ∨
    (isQuote c ∧ piece c cs = (.content, skipQuoted c false cs)) ∨
    (¬isQuote c ∧ piece c cs = (.content, cs)) := by
  unfold piece
  split_ifs with hblank hline hblock hsemi hquote
  · exact .inl ⟨hblank, rfl⟩
  · refine .inr (.inl ⟨?_, rfl⟩)
    rcases hline with rfl | ⟨rfl, -⟩ <;> decide
  · refine .inr (.inl ⟨?_, rfl⟩)
    rw [hblock.1]
    decide
  · exact .inr (.inr (.inl ⟨hsemi, rfl⟩))
  · exact .inr (.inr (.inr (.inl ⟨hquote, rfl⟩)))
  · exact .inr (.inr (.inr (.inr ⟨hquote, rfl⟩)))

theorem piece_suffix (c : Sym) (cs : Text) : (piece c cs).2 <:+ cs := by
  unfold piece
  split_ifs
  · exact List.suffix_refl _
  · exact getD_after_suffix ..
  · exact (getD_after_suffix ..).trans (List.tail_suffix _)
  · exact List.suffix_refl _
  · exact skipQuoted_suffix ..
  · exact List.suffix_refl _

theorem piecesFrom_fuel {n : Nat} {t : Text} (h : t.length ≤ n) : piecesFrom n t = pieces t := by
  unfold pieces
  induction n using Nat.strong_induction_on generalizing t with
  | _ n ih =>
    rcases t with _ | ⟨c, cs⟩
    · cases n <;> rfl
    rcases n with _ | n
    · simp at h
    have hs := (piece_suffix c cs).length_le
    rw [List.length_cons] at h
    rw [piecesFrom, List.length_cons, piecesFrom, ih n (by omega) (by omega), ih cs.length (by omega) hs]

theorem pieces_cons (c : Sym) (cs : Text) : pieces (c :: cs) = (piece c cs).1 :: pieces (piece c cs).2 := by
  rw [pieces, List.length_cons, piecesFrom, piecesFrom_fuel (piece_suffix c cs).length_le]

/-! ## One statement -/

theorem pieces_blank {sp : Text} (h : ∀ c ∈ sp, isBlank c = true) (t : Text) :
    pieces (sp ++ t) = List.replicate sp.length .blank ++ pieces t := by
  induction sp with
  | nil => rfl
  | cons c sp ih =>
    have hs : piece c (sp ++ t) = (.blank, sp ++ t) := by rw [piece, if_pos (h c (List.mem_cons_self ..))]
    rw [List.cons_append, pieces_cons, hs, ih fun d hd => h d (List.mem_cons_of_mem _ hd)]
    rfl

/-- Content stands in front of the first semicolon only. -/
def ContentFirst (l : List Piece) : Prop := ∃ xs ys, l = xs ++ ys ∧ .separator ∉ xs ∧ .content ∉ ys

theorem ContentFirst.cons {p : Piece} {l : List Piece} (hp : p ≠ .separator) (h : ContentFirst l) :
    ContentFirst (p :: l) := by
  obtain ⟨xs, ys, rfl, hxs, hys⟩ := h
  refine ⟨p :: xs, ys, rfl, ?_, hys⟩
  rw [List.mem_cons, not_or]
  exact ⟨hp.symm, hxs⟩

theorem mem_of_mem_splitOnP {α : Type*} {p : α → Bool} {l part : List α} {a : α} (hpart : part ∈ l.splitOnP p)
    (ha : a ∈ part) : a ∈ l := by
  induction l generalizing part with
  | nil =>
    rw [List.splitOnP_nil, List.mem_singleton] at hpart
    rwa [hpart] at ha
  | cons b l ih =>
    rw [List.splitOnP_cons_eq_if_modifyHead] at hpart
    split_ifs at hpart with hb
    · rcases List.mem_cons.1 hpart with rfl | hpart
      · cases ha
      · exact List.mem_cons_of_mem _ (ih hpart ha)
    · obtain ⟨first, rest, hsplit⟩ := List.exists_cons_of_ne_nil (List.splitOnP_ne_nil p l)
      rw [hsplit, List.modifyHead_cons] at hpart
      rcases List.mem_cons.1 hpart with rfl | hpart
      · rcases List.mem_cons.1 ha with rfl | ha
        · exact List.mem_cons_self ..
        · exact List.mem_cons_of_mem _ (ih (hsplit ▸ List.mem_cons_self ..) ha)
      · exact List.mem_cons_of_mem _ (ih (hsplit ▸ List.mem_cons_of_mem _ hpart) ha)

theorem splitOn_append_head {xs : List Piece} (h : .separator ∉ xs) (ys : List Piece) :
    (xs ++ ys).splitOn .separator = (ys.splitOn .separator).modifyHead (xs ++ ·) := by
  induction xs with
  | nil => exact (congrFun List.modifyHead_id _).symm
  | cons x xs ih =>
    rw [List.mem_cons, not_or] at h
    simp only [List.splitOn] at ih ⊢
    rw [List.cons_append, List.splitOnP_cons_eq_if_modifyHead, ih h.2, if_neg (by simpa using Ne.symm h.1),
      List.modifyHead_modifyHead]
    rfl

theorem statements_le_one {t : Text} (h : ContentFirst (pieces t)) : statements t ≤ 1 := by
  obtain ⟨xs, ys, heq, hxs, hys⟩ := h
  rw [statements, parts, heq, splitOn_append_head hxs]
  obtain ⟨first, rest, hsplit⟩ := List.exists_cons_of_ne_nil (List.splitOnP_ne_nil (· == Piece.separator) ys)
  have hnone : rest.countP (·.contains .content) = 0 := by
    rw [List.countP_eq_zero]
    intro part hpart hc
    have hmem : part ∈ ys.splitOnP (· == .separator) := hsplit ▸ List.mem_cons_of_mem _ hpart
    exact hys (mem_of_mem_splitOnP hmem (List.contains_iff_mem.1 hc))
  rw [List.splitOn, hsplit, List.modifyHead_cons, List.countP_cons, hnone]
  split_ifs <;> omega

end Accelerator.Sql
