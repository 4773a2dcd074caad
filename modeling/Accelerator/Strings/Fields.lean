/-
The words `strings.Fields` finds. A text is read as words and white space in turn, so that what is said
of a text can be shown word by word (`words_induct`).
-/
import Accelerator.Strings.Basic

namespace Accelerator.Strings

theorem splitOnP_head (t : Text) : ∃ rest, t.splitOnP Sym.isSpace = (t.takeWhile fun c => !c.isSpace) :: rest := by
  induction t with
  | nil => exact ⟨[], rfl⟩
  | cons c t ih =>
    obtain ⟨rest, ih⟩ := ih
    rw [List.splitOnP_cons_eq_if_modifyHead]
    cases hc : c.isSpace with
    | true => exact ⟨t.splitOnP Sym.isSpace, by simp [hc]⟩
    | false => exact ⟨rest, by simp [hc, ih]⟩

/-! ## Steps -/

theorem fields_cons_space {c : Sym} (hc : c.isSpace = true) (t : Text) : fields (c :: t) = fields t := by
  simp [fields, List.splitOnP_cons_eq_if_modifyHead, hc]

theorem fields_word {w rest : Text} (hne : w ≠ []) (hw : ∀ c ∈ w, c.isSpace = false)
    (hr : ∀ c ∈ rest.head?, c.isSpace = true) : fields (w ++ rest) = w :: fields rest := by
  cases rest with
  | nil => simp [fields, List.splitOnP_eq_singleton hw, hne]
  | cons c rest =>
    have hc := hr c rfl
    rw [fields_cons_space hc, fields, List.splitOnP_append_cons_of_forall_mem hw c hc]
    simp [fields, hne]

theorem fields_blank {sp : Text} (h : ∀ c ∈ sp, c.isSpace = true) (t : Text) : fields (sp ++ t) = fields t := by
  induction sp with
  | nil => rfl
  | cons c sp ih =>
    rw [List.cons_append, fields_cons_space (h c (List.mem_cons_self ..))]
    exact ih fun d hd => h d (List.mem_cons_of_mem _ hd)

/-- White space separates. -/
theorem fields_append_space {c : Sym} (hc : c.isSpace = true) (a b : Text) :
    fields (a ++ c :: b) = fields a ++ fields b := by
  rw [fields, List.splitOnP_append_cons _ _ hc, List.filter_append]
  rfl

/-! ## Word by word -/

theorem words_induct {motive : Text → Prop} (nil : motive [])
    (space : ∀ c t, c.isSpace = true → motive t → motive (c :: t))
    (word : ∀ w t, w ≠ [] → (∀ c ∈ w, c.isSpace = false) → (∀ c ∈ t.head?, c.isSpace = true) → motive t →
      motive (w ++ t)) (t : Text) : motive t := by
  induction hn : t.length using Nat.strong_induction_on generalizing t with
  | _ n ih =>
    rcases t with _ | ⟨c, cs⟩
    · exact nil
    cases hc : c.isSpace with
    | true => exact space c cs hc (ih cs.length (by simp at hn; omega) cs rfl)
    | false =>
      have hlen := (List.dropWhile_suffix (fun d : Sym => !d.isSpace) (l := cs)).length_le
      rw [← List.takeWhile_append_dropWhile (p := fun d => !d.isSpace) (l := c :: cs)]
      refine word _ _ ?_ ?_ ?_ (ih _ ?_ _ rfl)
      · simp [hc]
      · intro d hd
        simpa using List.mem_takeWhile_imp hd
      · intro d hd
        have hnot := List.head?_dropWhile_not (fun d : Sym => !d.isSpace) (c :: cs)
        rw [Option.mem_def.1 hd] at hnot
        simpa using hnot
      · simp only [List.dropWhile_cons, hc, Bool.not_false, if_true, List.length_cons] at hn ⊢
        omega

theorem fields_ne_nil {t first : Text} {more : List Text} (h : fields t = first :: more) : first ≠ [] := by
  have : first ∈ fields t := h ▸ List.mem_cons_self ..
  simpa using (List.mem_filter.1 this).2

theorem space_of_fields_nil {t : Text} (h : fields t = []) : ∀ c ∈ t, c.isSpace = true := by
  induction t using words_induct with
  | nil => simp
  | space c t hc ih =>
    rw [fields_cons_space hc] at h
    exact List.forall_mem_cons.2 ⟨hc, ih h⟩
  | word w t hne hw ht ih =>
    rw [fields_word hne hw ht] at h
    cases h

/-- A word is a non-empty part of the text without white space. -/
theorem mem_fields {t w : Text} (h : w ∈ fields t) : w ≠ [] ∧ ∀ c ∈ w, c ∈ t ∧ c.isSpace = false := by
  induction t using words_induct with
  | nil => cases h
  | space c t hc ih =>
    rw [fields_cons_space hc] at h
    exact ⟨(ih h).1, fun d hd => ⟨List.mem_cons_of_mem _ ((ih h).2 d hd).1, ((ih h).2 d hd).2⟩⟩
  | word x t hne hx ht ih =>
    rw [fields_word hne hx ht] at h
    rcases List.mem_cons.1 h with rfl | h
    · exact ⟨hne, fun d hd => ⟨List.mem_append_left _ hd, hx d hd⟩⟩
    · exact ⟨(ih h).1, fun d hd => ⟨List.mem_append_right _ ((ih h).2 d hd).1, ((ih h).2 d hd).2⟩⟩

/-- The words hold everything but the white space. -/
theorem flatten_fields (t : Text) : (fields t).flatten = t.filter fun c => !c.isSpace := by
  induction t using words_induct with
  | nil => rfl
  | space c t hc ih => rw [fields_cons_space hc, ih, List.filter_cons_of_neg (by simp [hc])]
  | word w t hne hw ht ih =>
    have hself : w.filter (fun c => !c.isSpace) = w := List.filter_eq_self.2 fun c hc => by simp [hw c hc]
    rw [fields_word hne hw ht, List.flatten_cons, ih, List.filter_append, hself]

end Accelerator.Strings
