/-
The layout of a query text: the runs of white space between its pieces, and the case of its letters. A text
that is laid out anew keeps its form, in which every run is one space and every letter is raised. What a test
of the text can tell from its form it tells of every layout.
-/
import Accelerator.Sql.Statements
import Accelerator.Strings.Fields

namespace Accelerator.Sql

open Strings

/-! ## Layouts -/

/-- The white space a layout is made of. -/
def isGap (c : Sym) : Bool := ([.chr ' ', .chr '\t', .chr '\r', .chr '\n'] : Text).contains c

/-- `Relaid t t'`: `t'` has other runs of white space where `t` has some outside quotes and comments, and other
letter case outside quotes. -/
inductive Relaid : Text → Text → Prop
  | nil : Relaid [] []
  | gap {g g' rest rest' : Text} : g ≠ [] → g' ≠ [] → (∀ c ∈ g, isGap c = true) → (∀ c ∈ g', isGap c = true) →
      Relaid rest rest' → Relaid (g ++ rest) (g' ++ rest')
  | read {c : Sym} {cs k k' rest' : Text} : isGap c = false → c :: cs = k ++ (piece c cs).2 →
      k'.map keyUpper = k.map keyUpper → (isQuote c → k' = k) → Relaid (piece c cs).2 rest' →
      Relaid (c :: cs) (k' ++ rest')

theorem Relaid.eq_nil {t t' : Text} (h : Relaid t t') (ht : t = []) : t' = [] := by
  cases h with
  | nil => rfl
  | gap hne => exact absurd (List.append_eq_nil_iff.1 ht).1 hne
  | read => cases ht

theorem Relaid.refl (t : Text) : Relaid t t := by
  induction hn : t.length using Nat.strong_induction_on generalizing t with
  | _ n ih =>
    subst hn
    rcases t with _ | ⟨c, cs⟩
    · exact .nil
    cases hc : isGap c with
    | true =>
      have hg : ∀ d ∈ [c], isGap d = true := fun d hd => List.mem_singleton.1 hd ▸ hc
      exact .gap (List.cons_ne_nil c []) (List.cons_ne_nil c []) hg hg (ih cs.length (by simp) cs rfl)
    | false =>
      obtain ⟨x, hx⟩ := piece_suffix c cs
      have hlen := (piece_suffix c cs).length_le
      have hsplit : c :: cs = (c :: x) ++ (Sql.piece c cs).2 := by rw [List.cons_append, hx]
      have hrest := ih _ (by rw [List.length_cons]; omega) (Sql.piece c cs).2 rfl
      have hread := Relaid.read hc hsplit rfl (fun _ => rfl) hrest
      rwa [← hsplit] at hread

theorem isGap_iff {c : Sym} : isGap c = true ↔ c = .chr ' ' ∨ c = .chr '\t' ∨ c = .chr '\r' ∨ c = .chr '\n' := by
  simp [isGap]

theorem isSpace_of_isGap {c : Sym} (h : isGap c = true) : c.isSpace = true := by
  rcases isGap_iff.1 h with rfl | rfl | rfl | rfl <;> decide

theorem isGap_keyUpper (c : Sym) : isGap (keyUpper c) = isGap c := by
  rw [Bool.eq_iff_iff, isGap_iff, isGap_iff]
  rw [keyUpper_low (by decide), keyUpper_low (by decide), keyUpper_low (by decide), keyUpper_low (by decide)]

theorem piece_wordSym {c : Sym} (h : isWordSym c = true) (cs : Text) : piece c cs = (.content, cs) := by
  have hne := ne_of_isWordSym h
  have hquote : ¬isQuote c := by
    rintro (hq | hq | hq)
    all_goals exact hne _ rfl hq
  rw [piece, if_neg (not_isBlank_of_isWordSym h), if_neg, if_neg, if_neg (hne _ rfl), if_neg hquote]
  · exact fun hopen => hne _ rfl hopen.1
  · rintro (hopen | hopen)
    · exact hne _ rfl hopen
    · exact hne _ rfl hopen.1

theorem isGap_of_isWordSym {c : Sym} (h : isWordSym c = true) : isGap c = false := by
  rw [← Bool.not_eq_true, isGap_iff]
  rintro (hc | hc | hc | hc)
  all_goals exact ne_of_isWordSym h _ rfl hc

/-- A word may be written in either case. -/
theorem Relaid.word {w w' t t' : Text} (hw : ∀ c ∈ w, isWordSym c = true) (hkey : w'.map keyUpper = w.map keyUpper)
    (h : Relaid t t') : Relaid (w ++ t) (w' ++ t') := by
  induction w generalizing w' with
  | nil =>
    rw [List.map_nil, List.map_eq_nil_iff] at hkey
    subst hkey
    exact h
  | cons c w ih =>
    rcases w' with _ | ⟨c', w'⟩
    · cases hkey
    rw [List.map_cons, List.map_cons, List.cons.injEq] at hkey
    have hc := hw c List.mem_cons_self
    have hpiece := piece_wordSym hc (w ++ t)
    have htail := ih (fun d hd => hw d (List.mem_cons_of_mem _ hd)) hkey.2
    have hread : Relaid (c :: (w ++ t)) ([c'] ++ (w' ++ t')) := by
      refine .read (k := [c]) (isGap_of_isWordSym hc) ?_ ?_ ?_ ?_
      · rw [hpiece]
        rfl
      · rw [List.map_singleton, List.map_singleton, hkey.1]
      · rintro (hq | hq | hq)
        all_goals exact absurd hq (ne_of_isWordSym hc _ rfl)
      · rw [hpiece]
        exact htail
    exact hread

/-- A word and the white space behind it. -/
theorem Relaid.words (w w' g g' : Text) {t t' : Text}
    (hw : (∀ c ∈ w, isWordSym c = true) ∧ w'.map keyUpper = w.map keyUpper)
    (hg : (g ≠ [] ∧ ∀ c ∈ g, isGap c = true) ∧ g' ≠ [] ∧ ∀ c ∈ g', isGap c = true) (h : Relaid t t') :
    Relaid (w ++ (g ++ t)) (w' ++ (g' ++ t')) :=
  .word hw.1 hw.2 (.gap hg.1.1 hg.2.1 hg.1.2 hg.2.2 h)

/-! ## Forms -/

/-- One space in front, unless there is one. -/
def gapBefore (t : Text) : Text := if t.head? = some (.chr ' ') then t else .chr ' ' :: t

/-- Every run of white space squeezed to one space. -/
def squeeze : Text → Text
  | [] => []
  | c :: cs => if isGap c then gapBefore (squeeze cs) else c :: squeeze cs

/-- What is left of a text without its layout. -/
def form (t : Text) : Text := squeeze (t.map keyUpper)

theorem squeeze_gap {c : Sym} (h : isGap c = true) (t : Text) : squeeze (c :: t) = gapBefore (squeeze t) := by
  rw [squeeze, if_pos h]

theorem squeeze_cons {c : Sym} (h : isGap c = false) (t : Text) : squeeze (c :: t) = c :: squeeze t := by
  rw [squeeze, if_neg (by rw [h]; decide)]

theorem gapBefore_cases (t : Text) : gapBefore t = t ∨ gapBefore t = .chr ' ' :: t := by
  rw [gapBefore]
  split_ifs
  · exact .inl rfl
  · exact .inr rfl

theorem head?_gapBefore (t : Text) : (gapBefore t).head? = some (.chr ' ') := by
  rw [gapBefore]
  split_ifs with h
  · exact h
  · rfl

theorem squeeze_gaps {g : Text} (hne : g ≠ []) (hg : ∀ c ∈ g, isGap c = true) (t : Text) :
    squeeze (g ++ t) = gapBefore (squeeze t) := by
  induction g with
  | nil => exact absurd rfl hne
  | cons c g ih =>
    rw [List.cons_append, squeeze_gap (hg c List.mem_cons_self)]
    cases g with
    | nil => rfl
    | cons d g =>
      rw [ih (List.cons_ne_nil d g) fun e he => hg e (List.mem_cons_of_mem _ he), gapBefore, if_pos (head?_gapBefore _)]

theorem squeeze_append_congr (a : Text) {t t' : Text} (h : squeeze t = squeeze t') :
    squeeze (a ++ t) = squeeze (a ++ t') := by
  induction a with
  | nil => exact h
  | cons c a ih => rw [List.cons_append, List.cons_append, squeeze, squeeze, ih]

theorem form_append (a t : Text) : form (a ++ t) = squeeze (a.map keyUpper ++ t.map keyUpper) := by
  rw [form, List.map_append]

theorem map_keyUpper_gaps {g : Text} (hg : ∀ c ∈ g, isGap c = true) : ∀ c ∈ g.map keyUpper, isGap c = true := by
  intro c hc
  obtain ⟨d, hd, rfl⟩ := List.mem_map.1 hc
  rw [isGap_keyUpper]
  exact hg d hd

/-- A layout does not change the form. -/
theorem Relaid.form_eq {t t' : Text} (h : Relaid t t') : form t = form t' := by
  induction h with
  | nil => rfl
  | @gap g g' rest rest' hne hne' hg hg' _ ih =>
    have hgap : ∀ g : Text, g ≠ [] → (∀ c ∈ g, isGap c = true) → ∀ t, form (g ++ t) = gapBefore (form t) := by
      intro g hne hg t
      rw [form_append, squeeze_gaps (by simpa using hne) (map_keyUpper_gaps hg)]
      rfl
    rw [hgap g hne hg, hgap g' hne' hg', ih]
  | @read c cs k k' rest' _ hsplit hkey _ _ ih =>
    rw [hsplit, form_append, form_append, hkey]
    exact squeeze_append_congr _ ih

/-! ## Squeezing -/

theorem head?_squeeze (t : Text) :
    (squeeze t).head? = t.head?.map fun c => if isGap c then .chr ' ' else c := by
  cases t with
  | nil => rfl
  | cons c t =>
    cases hc : isGap c with
    | true => simp [squeeze_gap hc, head?_gapBefore, hc]
    | false => simp [squeeze_cons hc, hc]

theorem head?_squeeze_solid {d : Sym} (hd : isGap d = false) (t : Text) :
    (squeeze t).head? = some d ↔ t.head? = some d := by
  rw [head?_squeeze, Option.map_eq_some_iff]
  constructor
  · rintro ⟨c, hc, heq⟩
    split_ifs at heq with hg
    · rw [← heq] at hd
      exact absurd hd (by decide)
    · rw [hc, heq]
  · intro h
    exact ⟨d, h, by rw [hd]; rfl⟩

theorem head?_squeeze_gap (t : Text) : (squeeze t).head? = some (.chr ' ') ↔ t.head?.any isGap = true := by
  rw [head?_squeeze, Option.map_eq_some_iff, Option.any_eq_true]
  refine exists_congr fun c => and_congr_right fun _ => ?_
  constructor
  · intro heq
    split_ifs at heq with hg
    · exact hg
    · rw [heq]
      decide
  · exact fun hg => if_pos hg

/-- A run of white space is not squeezed into what stands apart from it. -/
theorem squeeze_append {a b : Text} (h : (∀ c ∈ a.getLast?, isGap c = false) ∨ ∀ c ∈ b.head?, isGap c = false) :
    squeeze (a ++ b) = squeeze a ++ squeeze b := by
  induction a with
  | nil => rfl
  | cons c a ih =>
    have htail : squeeze (a ++ b) = squeeze a ++ squeeze b := by
      refine ih (h.imp_left fun h d hd => h d ?_)
      rw [List.getLast?_cons, Option.mem_def.1 hd]
      rfl
    cases hc : isGap c with
    | false => rw [List.cons_append, squeeze_cons hc, squeeze_cons hc, htail, List.cons_append]
    | true =>
      rw [List.cons_append, squeeze_gap hc, squeeze_gap hc, htail]
      rcases a with _ | ⟨d, a⟩
      · -- the run ends the first text, so the second one begins with no gap
        have hb : ∀ e ∈ b.head?, isGap e = false := by
          rcases h with h | h
          · rw [h c rfl] at hc
            cases hc
          · exact h
        have hhead : (squeeze b).head? ≠ some (.chr ' ') := by
          rw [Ne, head?_squeeze_gap, Option.any_eq_true]
          rintro ⟨e, he, hgap⟩
          rw [hb e he] at hgap
          cases hgap
        rw [show squeeze [] = [] from rfl, List.nil_append, gapBefore, if_neg hhead]
        rfl
      · have hhead : (squeeze (d :: a) ++ squeeze b).head? = (squeeze (d :: a)).head? := by
          have hne : squeeze (d :: a) ≠ [] := by
            intro hnil
            have := head?_squeeze (d :: a)
            rw [hnil] at this
            cases this
          exact List.head?_append_of_ne_nil _ hne
        rw [gapBefore, gapBefore, hhead]
        split_ifs <;> rfl

theorem mem_squeeze {t : Text} {c : Sym} (h : c ∈ squeeze t) : c = .chr ' ' ∨ c ∈ t := by
  induction t with
  | nil => cases h
  | cons d t ih =>
    have htail : c ∈ squeeze t → c = .chr ' ' ∨ c ∈ d :: t := fun h => (ih h).imp_right (List.mem_cons_of_mem d)
    cases hd : isGap d with
    | false =>
      rw [squeeze_cons hd, List.mem_cons] at h
      rcases h with rfl | h
      · exact .inr List.mem_cons_self
      · exact htail h
    | true =>
      rw [squeeze_gap hd] at h
      rcases gapBefore_cases (squeeze t) with hgap | hgap
      · rw [hgap] at h
        exact htail h
      · rw [hgap, List.mem_cons] at h
        exact h.elim .inl htail

theorem getLast?_squeeze {t : Text} (h : ∀ c ∈ t.getLast?, isGap c = false) : (squeeze t).getLast? = t.getLast? := by
  rcases List.eq_nil_or_concat t with rfl | ⟨x, c, rfl⟩
  · rfl
  · rw [List.concat_eq_append] at h ⊢
    have hc : isGap c = false := h c (by rw [List.getLast?_concat]; rfl)
    rw [squeeze_append (.inr fun d hd => by cases hd; exact hc), squeeze_cons hc]
    simp [squeeze]

/-- Squeezing and a map that keeps the white space apart can change places. -/
theorem map_squeeze {f : Sym → Sym} (hf : ∀ c, isGap (f c) = isGap c) (hspace : f (.chr ' ') = .chr ' ') (t : Text) :
    (squeeze t).map f = squeeze (t.map f) := by
  induction t with
  | nil => rfl
  | cons c t ih =>
    rw [List.map_cons]
    cases hc : isGap c with
    | false => rw [squeeze_cons hc, squeeze_cons (by rw [hf, hc]), List.map_cons, ih]
    | true =>
      have hhead : (squeeze (t.map f)).head? = some (.chr ' ') ↔ (squeeze t).head? = some (.chr ' ') := by
        rw [head?_squeeze_gap, head?_squeeze_gap, List.head?_map, Option.any_map]
        simp only [hf]
      rw [squeeze_gap hc, squeeze_gap (by rw [hf, hc]), gapBefore, gapBefore]
      by_cases h : (squeeze t).head? = some (.chr ' ')
      · rw [if_pos h, if_pos (hhead.2 h), ih]
      · rw [if_neg h, if_neg fun h' => h (hhead.1 h'), List.map_cons, hspace, ih]

/-! ## What a squeezed text shows -/

theorem fields_gapBefore (t : Text) : fields (gapBefore t) = fields t := by
  rcases gapBefore_cases t with h | h
  · rw [h]
  · rw [h, fields_cons_space (by decide)]

theorem squeeze_solid {w : Text} (hw : ∀ c ∈ w, isGap c = false) (t : Text) : squeeze (w ++ t) = w ++ squeeze t := by
  induction w with
  | nil => rfl
  | cons c w ih =>
    rw [List.cons_append, squeeze_cons (hw c List.mem_cons_self), ih fun d hd => hw d (List.mem_cons_of_mem _ hd)]
    rfl

/-- The words of a text do not depend on the white space between them. -/
theorem fields_squeeze (t : Text) : fields (squeeze t) = fields t := by
  induction t using words_induct with
  | nil => rfl
  | space c t hc ih =>
    rw [fields_cons_space hc]
    cases hg : isGap c with
    | true => rw [squeeze_gap hg, fields_gapBefore, ih]
    | false => rw [squeeze_cons hg, fields_cons_space hc, ih]
  | word w t hne hw ht ih =>
    have hsolid : ∀ c ∈ w, isGap c = false := by
      intro c hc
      rw [← Bool.not_eq_true]
      intro hg
      exact absurd (isSpace_of_isGap hg) (by rw [hw c hc]; decide)
    have hhead : ∀ c ∈ (squeeze t).head?, c.isSpace = true := by
      intro c hc
      rw [head?_squeeze, Option.mem_def, Option.map_eq_some_iff] at hc
      obtain ⟨d, hd, rfl⟩ := hc
      split_ifs
      · decide
      · exact ht d hd
    rw [squeeze_solid hsolid, fields_word hne hw hhead, fields_word hne hw ht, ih]

theorem prefix_squeeze {p : Text} (hp : ∀ c ∈ p, isGap c = false) (t : Text) : p <+: squeeze t ↔ p <+: t := by
  induction p generalizing t with
  | nil => exact iff_of_true List.nil_prefix List.nil_prefix
  | cons a p ih =>
    have ha := hp a List.mem_cons_self
    cases t with
    | nil => exact Iff.rfl
    | cons c t =>
      cases hc : isGap c with
      | false =>
        rw [squeeze_cons hc, List.cons_prefix_cons, List.cons_prefix_cons, ih fun d hd => hp d (List.mem_cons_of_mem _ hd)]
      | true =>
        refine iff_of_false ?_ ?_
        · intro hpre
          have hhead := head?_squeeze (c :: t)
          obtain ⟨s, hs⟩ := hpre
          rw [← hs, List.cons_append, List.head?_cons, List.head?_cons, Option.map_some, if_pos hc] at hhead
          cases hhead
          exact absurd ha (by decide)
        · rw [List.cons_prefix_cons]
          rintro ⟨rfl, -⟩
          rw [ha] at hc
          cases hc

theorem not_prefix_gap {p : Text} (hne : p ≠ []) (hp : ∀ c ∈ p, isGap c = false) {c : Sym} (hc : isGap c = true)
    (t : Text) : ¬p <+: c :: t := by
  intro hpre
  rcases p with _ | ⟨a, p⟩
  · exact hne rfl
  · rw [List.cons_prefix_cons] at hpre
    rw [← hpre.1, hp a List.mem_cons_self] at hc
    cases hc

/-- A fragment without white space stands in a text whatever the runs between the words. -/
theorem infix_squeeze {p : Text} (hne : p ≠ []) (hp : ∀ c ∈ p, isGap c = false) (t : Text) :
    p <:+: squeeze t ↔ p <:+: t := by
  induction t with
  | nil => exact Iff.rfl
  | cons c t ih =>
    cases hc : isGap c with
    | false =>
      have hpre := prefix_squeeze hp (c :: t)
      rw [squeeze_cons hc] at hpre ⊢
      rw [List.infix_cons_iff, List.infix_cons_iff, hpre]
      exact or_congr_right ih
    | true =>
      have hgap : p <:+: gapBefore (squeeze t) ↔ p <:+: squeeze t := by
        rcases gapBefore_cases (squeeze t) with h | h
        · rw [h]
        · rw [h, List.infix_cons_iff, or_iff_right (not_prefix_gap hne hp (by decide) _)]
      rw [squeeze_gap hc, hgap, List.infix_cons_iff, or_iff_right (not_prefix_gap hne hp hc t)]
      exact ih

theorem loneAt_gapBefore (t : Text) : LoneAt (gapBefore t) ↔ LoneAt t := by
  rcases gapBefore_cases t with h | h
  · rw [h]
  · rw [h, loneAt_cons (by decide)]

theorem loneAt_squeeze (t : Text) : LoneAt (squeeze t) ↔ LoneAt t := by
  induction t using loneAt_induct with
  | nil => exact Iff.rfl
  | other c t hc ih =>
    rw [loneAt_cons hc]
    cases hg : isGap c with
    | true => rw [squeeze_gap hg, loneAt_gapBefore, ih]
    | false => rw [squeeze_cons hg, loneAt_cons hc, ih]
  | pair t ih => rw [squeeze_cons (by decide), squeeze_cons (by decide), loneAt_pair, loneAt_pair, ih]
  | single t ht =>
    rw [squeeze_cons (by decide)]
    refine iff_of_true (loneAt_single ?_) (loneAt_single ht)
    rw [Ne, head?_squeeze_solid (by decide)]
    exact ht

theorem filter_squeeze (t : Text) : (squeeze t).filter (fun c => !isGap c) = t.filter fun c => !isGap c := by
  induction t with
  | nil => rfl
  | cons c t ih =>
    cases hc : isGap c with
    | false => rw [squeeze_cons hc, List.filter_cons, List.filter_cons, ih]
    | true =>
      rw [squeeze_gap hc, List.filter_cons_of_neg (by rw [hc]; decide), ← ih]
      rcases gapBefore_cases (squeeze t) with h | h
      · rw [h]
      · rw [h, List.filter_cons_of_neg (by decide)]

/-! ## What a form shows -/

/-- A fragment of signs below the letters, without white space. -/
def isSign : Sym → Bool
  | .chr c => c.toNat < 0x41 && !isGap (.chr c)
  | .bad _ => false

theorem keyUpper_sign {d : Sym} (hd : isSign d = true) (c : Sym) : keyUpper c = d ↔ c = d := by
  cases d with
  | bad b => cases hd
  | chr d =>
    simp only [isSign, Bool.and_eq_true, decide_eq_true_eq] at hd
    exact keyUpper_low hd.1

theorem isGap_of_isSign {d : Sym} (hd : isSign d = true) : isGap d = false := by
  cases d with
  | bad b => cases hd
  | chr d =>
    simp only [isSign, Bool.and_eq_true, Bool.not_eq_true'] at hd
    exact hd.2

theorem prefix_form {p : Text} (hp : ∀ d ∈ p, isSign d = true) (t : Text) : p <+: form t ↔ p <+: t := by
  rw [form, prefix_squeeze fun d hd => isGap_of_isSign (hp d hd), prefix_map_iff fun d hd => keyUpper_sign (hp d hd)]

theorem form_sign {p : Text} (hp : ∀ d ∈ p, isSign d = true) (t : Text) : form (p ++ t) = p ++ form t := by
  have hself : p.map keyUpper = p := by
    conv_rhs => rw [← List.map_id p]
    exact List.map_congr_left fun d hd => (keyUpper_sign (hp d hd) d).2 rfl
  rw [form_append, hself, squeeze_solid fun d hd => isGap_of_isSign (hp d hd)]
  rfl

theorem form_eq_nil {t : Text} : form t = [] ↔ t = [] := by
  constructor
  · intro h
    have hhead := head?_squeeze (t.map keyUpper)
    rw [show squeeze (t.map keyUpper) = [] from h] at hhead
    cases t with
    | nil => rfl
    | cons c t => cases hhead
  · rintro rfl
    rfl

/-- White space in front is seen in the form. -/
theorem head?_form {f : Sym → Bool} (hkey : ∀ c, f (keyUpper c) = f c) (hgap : ∀ c, isGap c = true → f c = true)
    (t : Text) : (form t).head?.any f = t.head?.any f := by
  rw [form, head?_squeeze, List.head?_map]
  cases t.head? with
  | none => rfl
  | some c =>
    rw [Option.map_some, Option.map_some, Option.any_some, Option.any_some, ← hkey c]
    split_ifs with hc
    · rw [hgap _ (by decide), hgap _ hc]
    · rfl

end Accelerator.Sql
