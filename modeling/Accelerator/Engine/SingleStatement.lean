/-
The refusal of texts with several statements (`engine/classify.go`). The scanner matches quotes but knows no
comments, except those right after a semicolon, so that a quote in a comment hides the semicolons up to the
next quote. Where the comments in front of the first semicolon have no quotes, or only pairs of them, it finds
every second statement.
-/
import Accelerator.Engine.Leaks
import Accelerator.Sql.Statements

namespace Accelerator.Engine

open Strings Sql

/-! ## What the scanner takes for quoted -/

/-- The inside of a string that `q` closes. -/
inductive Inside (q : Char) : Text → Prop
  | nil : Inside q []
  | char {c : Sym} {t : Text} : c ≠ .chr q → (c = .chr '\\' → q = '`') → Inside q t → Inside q (c :: t)
  | escape {c : Sym} {t : Text} : q ≠ '`' → Inside q t → Inside q (.chr '\\' :: c :: t)

/-- A text that ends outside quotes, comments not being told apart: characters that are no quotes, and
complete strings. -/
inductive Unquoted : Text → Prop
  | nil : Unquoted []
  | char {c : Sym} {t : Text} : ¬isQuote c → Unquoted t → Unquoted (c :: t)
  | string {q : Char} {b t : Text} : isQuote (.chr q) → Inside q b → Unquoted t →
      Unquoted (.chr q :: (b ++ .chr q :: t))

section Scanner

variable {q : Char} {a b t rest : Text}

/-- The scanner leaves a string at its end. -/
theorem scanStatements_inside (hq : isQuote (.chr q)) (h : Inside q b) :
    scanStatements (some q) false (b ++ .chr q :: rest) = scanStatements none false rest := by
  induction h with
  | nil =>
    have hne : ¬(Sym.chr q = .chr '\\' ∧ q ≠ '`') := by
      rintro ⟨h, -⟩
      rw [h] at hq
      revert hq
      decide
    rw [List.nil_append, scanStatements, if_neg hne, if_pos rfl]
  | @char c t hc hesc _ ih =>
    have hne : ¬(c = .chr '\\' ∧ q ≠ '`') := fun h => h.2 (hesc h.1)
    rw [List.cons_append, scanStatements, if_neg hne, if_neg hc, ih]
  | @escape c t hq' _ ih =>
    rw [List.cons_append, List.cons_append, scanStatements, if_pos ⟨rfl, hq'⟩, scanStatements, ih]

/-- A string after which the scanner finds something is complete. -/
theorem inside_of_scan (h : scanStatements (some q) false t = true) :
    ∃ b rest, t = b ++ .chr q :: rest ∧ Inside q b ∧ scanStatements none false rest = true := by
  induction hn : t.length using Nat.strong_induction_on generalizing t with
  | _ n ih =>
    rcases t with _ | ⟨c, cs⟩
    · cases h
    rw [scanStatements] at h
    split_ifs at h with hesc hclose
    · rcases cs with _ | ⟨d, cs⟩
      · cases h
      rw [scanStatements] at h
      obtain ⟨b, rest, rfl, hb, hrest⟩ := ih cs.length (by simp at hn; omega) h rfl
      exact ⟨c :: d :: b, rest, rfl, hesc.1 ▸ .escape hesc.2 hb, hrest⟩
    · exact ⟨[], cs, by rw [hclose, List.nil_append], .nil, h⟩
    · obtain ⟨b, rest, rfl, hb, hrest⟩ := ih cs.length (by simp at hn; omega) h rfl
      have hq : c = .chr '\\' → q = '`' := fun hc => by_contra fun hq => hesc ⟨hc, hq⟩
      exact ⟨c :: b, rest, rfl, .char hclose hq hb, hrest⟩

theorem scanStatements_cons {c : Sym} (hc : ¬isQuote c) :
    scanStatements none false (c :: t) = true ↔
      (c = .chr ';' ∧ stripLeadingComments t ≠ []) ∨ scanStatements none false t = true := by
  unfold isQuote at hc
  rw [not_or, not_or] at hc
  rw [scanStatements, if_neg hc.1, if_neg hc.2.1, if_neg hc.2.2]
  split_ifs with hsemi
  · simp [hsemi]
  · simp [hsemi]

theorem scanStatements_quote (hq : isQuote (.chr q)) :
    scanStatements none false (.chr q :: t) = scanStatements (some q) false t := by
  rcases hq with h | h | h <;> cases h <;> rfl

/-- What the scanner finds after an unquoted text it finds in the whole. -/
theorem scanStatements_unquoted (h : Unquoted a) (hrest : scanStatements none false rest = true) :
    scanStatements none false (a ++ rest) = true := by
  induction h with
  | nil => exact hrest
  | char hc _ ih => exact (scanStatements_cons hc).2 (.inr ih)
  | @string q b t hq hb _ ih =>
    rw [List.cons_append, List.append_assoc, List.cons_append, scanStatements_quote hq,
      scanStatements_inside hq hb, ih]

theorem semicolon_of_scan (h : scanStatements none false t = true) :
    ∃ a rest, t = a ++ .chr ';' :: rest ∧ Unquoted a ∧ stripLeadingComments rest ≠ [] := by
  induction hn : t.length using Nat.strong_induction_on generalizing t with
  | _ n ih =>
    rcases t with _ | ⟨c, cs⟩
    · cases h
    by_cases hc : isQuote c
    · obtain ⟨q, rfl⟩ : ∃ q, c = .chr q := by
        rcases hc with hc | hc | hc <;> exact ⟨_, hc⟩
      rw [scanStatements_quote hc] at h
      obtain ⟨b, cs, rfl, hb, h⟩ := inside_of_scan h
      obtain ⟨a, rest, rfl, ha, hrest⟩ := ih cs.length (by simp at hn; omega) h rfl
      exact ⟨.chr q :: (b ++ .chr q :: a), rest, by simp, .string hc hb ha, hrest⟩
    rcases (scanStatements_cons hc).1 h with ⟨rfl, hrest⟩ | h
    · exact ⟨[], cs, rfl, .nil, hrest⟩
    · obtain ⟨a, rest, rfl, ha, hrest⟩ := ih cs.length (by simp at hn; omega) h rfl
      exact ⟨c :: a, rest, rfl, .char hc ha, hrest⟩

/-- The scanner finds a semicolon outside quotes with more than comments after it, or nothing. -/
theorem hasMultipleStatements_iff (t : Text) :
    hasMultipleStatements t = true ↔
      ∃ a rest, t = a ++ .chr ';' :: rest ∧ Unquoted a ∧ stripLeadingComments rest ≠ [] := by
  unfold hasMultipleStatements
  constructor
  · exact semicolon_of_scan
  · rintro ⟨a, rest, rfl, ha, hrest⟩
    exact scanStatements_unquoted ha ((scanStatements_cons (by decide)).2 (.inl ⟨rfl, hrest⟩))

end Scanner

/-! ## What is cut after a semicolon -/

theorem opensDashComment_append {t sp : Text} (h : t = [] ∨ dashSpace t.head? = true)
    (hs : ∀ c ∈ sp, isBlank c = true) : opensDashComment (.chr '-' :: (t ++ sp)) = true := by
  rcases t with _ | ⟨c, t⟩
  · rcases sp with _ | ⟨c | b, sp⟩
    · rfl
    · have hc := hs (.chr c) (List.mem_cons_self ..)
      simp [opensDashComment, hc]
    · cases hs (.bad b) (List.mem_cons_self ..)
  · have hc := opensDashComment_of_dashSpace (t := c :: t) h
    exact hc

/-- Trimming takes white space off both ends. -/
theorem trimSpace_split (t : Text) :
    ∃ a b, t = a ++ (trimSpace t ++ b) ∧ (∀ c ∈ a, c.isSpace = true) ∧ ∀ c ∈ b, c.isSpace = true := by
  refine ⟨t.takeWhile Sym.isSpace, (t.dropWhile Sym.isSpace).rtakeWhile Sym.isSpace, ?_, fun c hc => ?_, fun c hc => ?_⟩
  · rw [trimSpace, List.rdropWhile_append_rtakeWhile, List.takeWhile_append_dropWhile]
  · exact List.mem_takeWhile_imp hc
  · exact List.mem_rtakeWhile_imp hc

/-- A comment the classifier cuts is one for the server, and ends in the same place. -/
theorem piece_comment {value p body sp cs : Text} {c : Sym} (hc : comment? value = some (p, body))
    (hs : ∀ c ∈ sp, isBlank c = true) (hv : value ++ sp = c :: cs) :
    piece c cs = (.comment, (after p (body ++ sp)).getD []) := by
  have line : ∀ c cs, c = .chr '#' ∨ (c = .chr '-' ∧ opensDashComment cs = true) →
      piece c cs = (.comment, (after (text "\n") (c :: cs)).getD []) := by
    intro c cs hopen
    have hblank : ¬ isBlank c = true := by rcases hopen with rfl | ⟨rfl, -⟩ <;> decide
    have hafter : after (text "\n") (c :: cs) = after (text "\n") cs := by
      rw [after, if_neg]
      rcases hopen with rfl | ⟨rfl, -⟩ <;> simp [text, List.isPrefixOf]
    rw [piece, if_neg hblank, if_pos hopen, hafter]
  rcases value with _ | ⟨a, _ | ⟨b, t⟩⟩
  · cases hc
  · rw [comment?_single] at hc
    split_ifs at hc with hopen
    cases hc
    cases hv
    exact line c sp (.inl hopen)
  · rw [comment?_pair] at hc
    cases hv
    split_ifs at hc with hopen hopen'
    · obtain ⟨rfl, rfl⟩ := hopen
      cases hc
      rw [piece, if_neg (by decide), if_neg (by simp), if_pos ⟨rfl, rfl⟩]
      rfl
    · cases hc
      refine line c (b :: (t ++ sp)) ?_
      rcases hopen' with hhash | ⟨hdash, rfl, ht⟩
      · exact .inl hhash
      · exact .inr ⟨hdash, opensDashComment_append ht hs⟩

theorem pieces_comment {value p body sp : Text} (hc : comment? value = some (p, body))
    (hs : ∀ c ∈ sp, isBlank c = true) :
    pieces (value ++ sp) = .comment :: pieces ((after p (body ++ sp)).getD []) := by
  cases hv : value ++ sp with
  | nil =>
    rw [(List.append_eq_nil_iff.1 hv).1] at hc
    cases hc
  | cons c cs => rw [pieces_cons, piece_comment hc hs hv]

/-- What `stripLeadingComments` cuts off completely has no content for the server. -/
theorem content_of_stripCommentsLoop {fuel : Nat} {value sp : Text} (hfuel : value.length ≤ fuel)
    (hs : ∀ c ∈ sp, isBlank c = true) (hv : ∀ c ∈ value, c.isSpace = true → isBlank c = true)
    (h : stripCommentsLoop fuel value = []) : .content ∉ pieces (value ++ sp) := by
  have hblank : ∀ sp : Text, (∀ c ∈ sp, isBlank c = true) → Piece.content ∉ pieces sp := by
    intro sp hs
    have := pieces_blank hs []
    rw [List.append_nil] at this
    rw [this, show pieces [] = [] from rfl, List.append_nil]
    simp
  induction fuel generalizing value sp with
  | zero =>
    cases List.eq_nil_of_length_eq_zero (Nat.le_zero.1 hfuel)
    exact hblank sp hs
  | succ fuel ih =>
    rw [stripCommentsLoop_succ] at h
    cases hc : comment? value with
    | none =>
      simp only [hc] at h
      cases h
      exact hblank sp hs
    | some x =>
      obtain ⟨p, body⟩ := x
      rw [pieces_comment hc hs, List.mem_cons, not_or]
      refine ⟨by decide, ?_⟩
      cases ha : after p body with
      | none =>
        -- The comment runs to the end, or to a line break behind the trimmed text.
        exact hblank _ fun c hc => hs c ((after_append_none ha sp).mem hc)
      | some rest =>
        simp only [hc, ha] at h
        obtain ⟨hp, hbody⟩ := comment?_some hc
        have hlen := length_after ha
        have hplen := List.length_pos_iff.2 hp
        have hsuf : rest <:+ value := (show rest <:+ body from by
          obtain ⟨x, hx⟩ := after_split ha
          exact ⟨x ++ p, hx.symm⟩).trans (comment?_suffix hc)
        obtain ⟨a, b, hsplit, hfront, hback⟩ := trimSpace_split rest
        have hrest : ∀ c ∈ rest, c.isSpace = true → isBlank c = true := fun c hc => hv c (hsuf.mem hc)
        have hmem : ∀ c, c ∈ a ∨ c ∈ trimSpace rest ∨ c ∈ b → c ∈ rest := by
          intro c hc
          rw [hsplit]
          simpa using hc
        rw [after_append hp ha, Option.getD_some, hsplit, List.append_assoc, List.append_assoc,
          pieces_blank fun c hc => hrest c (hmem c (.inl hc)) (hfront c hc), List.mem_append, not_or]
        refine ⟨by simp, ih ((length_trimSpace rest).trans (by omega)) ?_ ?_ h⟩
        · intro c hc
          rcases List.mem_append.1 hc with hc | hc
          · exact hrest c (hmem c (.inr (.inr hc))) (hback c hc)
          · exact hs c hc
        · exact fun c hc => hrest c (hmem c (.inr (.inl hc)))

theorem content_of_stripLeadingComments {t : Text} (hb : ∀ c ∈ t, c.isSpace = true → isBlank c = true)
    (h : stripLeadingComments t = []) : .content ∉ pieces t := by
  obtain ⟨a, b, hsplit, hfront, hback⟩ := trimSpace_split t
  have hmem : ∀ c, c ∈ a ∨ c ∈ trimSpace t ∨ c ∈ b → c ∈ t := by
    intro c hc
    rw [hsplit]
    simpa using hc
  rw [hsplit, pieces_blank fun c hc => hb c (hmem c (.inl hc)) (hfront c hc), List.mem_append, not_or]
  refine ⟨by simp, content_of_stripCommentsLoop le_rfl ?_ ?_ h⟩
  · exact fun c hc => hb c (hmem c (.inr (.inr hc))) (hback c hc)
  · exact fun c hc => hb c (hmem c (.inr (.inl hc)))

/-! ## Quotes in comments -/

/-- The quotes in each comment in front of the first semicolon at top level are paired. -/
inductive Paired : Text → Prop
  | nil : Paired []
  | separator {cs : Text} : Paired (.chr ';' :: cs)
  | comment {c : Sym} {x cs : Text} : (piece c cs).1 = .comment → cs = x ++ (piece c cs).2 → Unquoted x →
      Paired (piece c cs).2 → Paired (c :: cs)
  | step {c : Sym} {cs : Text} : (piece c cs).1 = .blank ∨ (piece c cs).1 = .content → Paired (piece c cs).2 →
      Paired (c :: cs)

/-- No comment in front of the first semicolon at top level has a quote. -/
inductive Quiet : Text → Prop
  | nil : Quiet []
  | separator {cs : Text} : Quiet (.chr ';' :: cs)
  | comment {c : Sym} {x cs : Text} : (piece c cs).1 = .comment → cs = x ++ (piece c cs).2 →
      (∀ d ∈ x, ¬isQuote d) → Quiet (piece c cs).2 → Quiet (c :: cs)
  | step {c : Sym} {cs : Text} : (piece c cs).1 = .blank ∨ (piece c cs).1 = .content → Quiet (piece c cs).2 →
      Quiet (c :: cs)

theorem Unquoted.of_plain {x : Text} (h : ∀ d ∈ x, ¬isQuote d) : Unquoted x := by
  induction x with
  | nil => exact .nil
  | cons c x ih =>
    rw [List.forall_mem_cons] at h
    exact .char h.1 (ih h.2)

theorem Quiet.paired {t : Text} (h : Quiet t) : Paired t := by
  induction h with
  | nil => exact .nil
  | separator => exact .separator
  | comment hp hcs hx _ ih => exact .comment hp hcs (.of_plain hx) ih
  | step hp _ ih => exact .step hp ih

/-- The server's strings are the scanner's. -/
theorem skipQuoted_inside (q : Char) (t : Text) :
    skipQuoted (.chr q) false t = [] ∨ ∃ b, Inside q b ∧ t = b ++ .chr q :: skipQuoted (.chr q) false t := by
  induction hn : t.length using Nat.strong_induction_on generalizing t with
  | _ n ih =>
    rcases t with _ | ⟨c, cs⟩
    · exact .inl rfl
    rw [skipQuoted]
    split_ifs with hesc hclose
    · have hq : q ≠ '`' := fun hq => hesc.2 (hq ▸ rfl)
      rcases cs with _ | ⟨d, cs⟩
      · exact .inl rfl
      rw [skipQuoted]
      refine (ih cs.length (by simp at hn; omega) cs rfl).imp_right ?_
      rintro ⟨b, hb, heq⟩
      exact ⟨c :: d :: b, hesc.1 ▸ .escape hq hb, by rw [List.cons_append, List.cons_append, ← heq]⟩
    · exact .inr ⟨[], .nil, by rw [hclose, List.nil_append]⟩
    · refine (ih cs.length (by simp at hn; omega) cs rfl).imp_right ?_
      rintro ⟨b, hb, heq⟩
      have hq : c = .chr '\\' → q = '`' := fun hc => by_contra fun hq => hesc ⟨hc, fun h => hq (Sym.chr.inj h)⟩
      exact ⟨c :: b, .char hclose hq hb, by rw [List.cons_append, ← heq]⟩

/-- The scanner has nothing to find in the rest of a text in which it finds nothing. -/
theorem scan_rest {x rest : Text} (hx : Unquoted x) (h : scanStatements none false (x ++ rest) = false) :
    scanStatements none false rest = false := by
  by_contra hrest
  rw [scanStatements_unquoted hx (by simpa using hrest)] at h
  cases h

theorem not_isQuote_of_isBlank {c : Sym} (h : isBlank c = true) : ¬isQuote c := by
  rintro (rfl | rfl | rfl) <;> cases h

theorem commentOpeners_plain : ∀ c ∈ text "#-/", ¬isQuote c := by decide

/-- Where the quotes of comments are paired and white space is ASCII, the scanner finds every second statement. -/
theorem contentFirst_of_paired {t : Text} (hb : ∀ c ∈ t, c.isSpace = true → isBlank c = true) (hq : Paired t)
    (h : hasMultipleStatements t = false) : ContentFirst (pieces t) := by
  unfold hasMultipleStatements at h
  have single {c : Sym} (hc : ¬isQuote c) : Unquoted [c] := .char hc .nil
  induction hq with
  | nil => exact ⟨[], [], rfl, List.not_mem_nil, List.not_mem_nil⟩
  | @separator cs =>
    -- the scanner looks behind a semicolon for anything but comments
    have hstrip : stripLeadingComments cs = [] := by
      by_contra hne
      rw [(scanStatements_cons (by decide)).2 (.inl ⟨rfl, hne⟩)] at h
      cases h
    have hcontent := content_of_stripLeadingComments (fun d hd => hb d (List.mem_cons_of_mem _ hd)) hstrip
    exact ⟨[], .separator :: pieces cs, by rw [pieces_cons]; rfl, List.not_mem_nil, by simpa using hcontent⟩
  | @comment c x cs hp hcs hx _ ih =>
    have hblanks := fun d hd => hb d (List.mem_cons_of_mem c ((piece_suffix c cs).mem hd))
    rw [pieces_cons, hp]
    refine (ih hblanks ?_).cons (by decide)
    have hc : ¬isQuote c := by
      obtain ⟨-, heq⟩ | ⟨hc, -⟩ | ⟨-, heq⟩ | ⟨-, heq⟩ | ⟨-, heq⟩ := piece_cases c cs
      any_goals rw [heq] at hp; cases hp
      exact commentOpeners_plain c hc
    rw [hcs] at h
    exact scan_rest (.char hc hx) h
  | @step c cs hp _ ih =>
    have hblanks := fun d hd => hb d (List.mem_cons_of_mem c ((piece_suffix c cs).mem hd))
    rw [pieces_cons]
    obtain ⟨hc, heq⟩ | ⟨-, heq⟩ | ⟨-, heq⟩ | ⟨hc, heq⟩ | ⟨hc, heq⟩ := piece_cases c cs
    · rw [heq] at ih hblanks ⊢
      exact (ih hblanks (scan_rest (single (not_isQuote_of_isBlank hc)) h)).cons nofun
    · rcases hp with hp | hp <;> · rw [hp] at heq; cases heq
    · rcases hp with hp | hp <;> · rw [heq] at hp; cases hp
    · rw [heq] at ih hblanks ⊢
      refine ContentFirst.cons nofun ?_
      obtain ⟨q, rfl⟩ : ∃ q, c = .chr q := by
        rcases hc with hc | hc | hc <;> exact ⟨_, hc⟩
      -- behind a string that is not closed there is nothing
      rcases skipQuoted_inside q cs with hnil | ⟨b, hb, hcs⟩
      · rw [hnil]
        exact ⟨[], [], rfl, List.not_mem_nil, List.not_mem_nil⟩
      · refine ih hblanks (scan_rest (x := .chr q :: (b ++ [.chr q])) (.string hc hb .nil) ?_)
        rw [hcs] at h
        simpa using h
    · rw [heq] at ih hblanks ⊢
      exact (ih hblanks (scan_rest (single hc) h)).cons nofun

/-! ## One statement -/

theorem statements_of_quiet {t : Text} (hb : ∀ c ∈ t, c.isSpace = true → isBlank c = true) (hq : Quiet t)
    (h : hasMultipleStatements t = false) : statements t ≤ 1 :=
  statements_le_one (contentFirst_of_paired hb hq.paired h)

theorem statements_of_quiet_comments :
    hasMultipleStatements (text "1/*a*/;#") = false ∧ statements (text "1/*a*/;#") ≤ 1 := by
  have hq : Quiet (text "1/*a*/;#") := by
    refine .step (.inr (by decide +kernel)) ?_
    exact .comment (x := text "*a*/") (by decide +kernel) (by decide +kernel) (by decide) .separator
  exact ⟨by decide +kernel, statements_of_quiet (by decide +kernel) hq (by decide +kernel)⟩

end Accelerator.Engine
