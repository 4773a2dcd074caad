/-
A prepared statement is classified twice: when it is prepared, and, from the text that was stored, each time it
is executed. A semicolon at the end of the stored text, which only a quote in a comment can leave there, is cut
the second time. What was refused for the semicolon's sake is then seen: the warning count, and a temporary
object.
-/
import Accelerator.Engine.SingleStatement

namespace Accelerator.Engine

open Strings Sql

/-! ## Several statements -/

/-- What is behind a semicolon is not emptied by one more semicolon. -/
theorem stripLeadingComments_append_ne {t sp : Text} (hs : ∀ c ∈ sp, c.isSpace = true)
    (h : stripLeadingComments t ≠ []) : stripLeadingComments (t ++ sp ++ text ";") ≠ [] := by
  obtain ⟨sp', hs', htrim⟩ := trimSpace_cut t hs
  have hcut := stripCommentsLoop_cut (trimSpace t ++ sp' ++ text ";").length (trimSpace t).length hs' le_rfl le_rfl
  rw [stripLeadingComments, htrim]
  rcases hcut with ⟨sp'', -, hcut⟩ | ⟨hnil, -⟩
  · simp only [hcut]
    simp [text]
  · exact absurd hnil h

/-- A text with one semicolon more at its end has no fewer statements. -/
theorem hasMultipleStatements_cut {t sp : Text} (hs : ∀ c ∈ sp, c.isSpace = true)
    (h : hasMultipleStatements (t ++ sp ++ text ";") = false) : hasMultipleStatements t = false := by
  rw [← Bool.not_eq_true] at h ⊢
  refine fun ht => h ?_
  obtain ⟨a, rest, rfl, ha, hrest⟩ := (hasMultipleStatements_iff t).1 ht
  refine (hasMultipleStatements_iff _).2 ⟨a, rest ++ sp ++ text ";", by simp, ha, ?_⟩
  exact stripLeadingComments_append_ne hs hrest

theorem hasMultipleStatements_trimStatement {q : Text} (h : hasMultipleStatements (trimSpace q) = false) :
    hasMultipleStatements (trimStatement q) = false := by
  rcases trimStatement_cut q with hsame | ⟨sp, hs, hcut⟩
  · rw [hsame]
    exact h
  · rw [hcut] at h
    exact hasMultipleStatements_cut hs h

/-! ## Tests on a longer text -/

theorem loneAt_append_right {t y : Text} (h : LoneAt t) (hy : y.head? ≠ some (.chr '@')) : LoneAt (t ++ y) := by
  induction t using loneAt_induct with
  | nil => exact absurd h loneAt_nil
  | other c t hc ih =>
    rw [List.cons_append]
    exact (loneAt_cons hc _).2 (ih ((loneAt_cons hc t).1 h))
  | pair t ih =>
    rw [List.cons_append, List.cons_append]
    exact (loneAt_pair _).2 (ih ((loneAt_pair t).1 h))
  | single t ht =>
    refine loneAt_single ?_
    cases t with
    | nil => exact hy
    | cons c t => exact ht

/-- The statements that show what is local to a connection. -/
def sessionShows : List Text := [text "SHOW WARNINGS", text "SHOW ERRORS", text "SHOW STATUS", text "SHOW SESSION"]

theorem unsafeReadReason_eq_nil_iff (u : Text) :
    unsafeReadReason u = [] ↔ (∀ p ∈ unsafeFragments, ¬p <:+: u) ∧ ¬LoneAt u ∧ ∀ p ∈ sessionShows, ¬p <+: u := by
  have hat : contains (replaceAll u (text "@@") []) (text "@") = true ↔ LoneAt u := by
    rw [contains_iff]
    exact List.singleton_infix_iff _ _
  have hfragments : unsafeFragments.any (contains u) = true ↔ ∃ p ∈ unsafeFragments, p <:+: u := by
    simp only [List.any_eq_true, contains_iff]
  have hshows : (hasPrefix u (text "SHOW WARNINGS") || hasPrefix u (text "SHOW ERRORS") ||
      hasPrefix u (text "SHOW STATUS") || hasPrefix u (text "SHOW SESSION")) = true ↔
      ∃ p ∈ sessionShows, p <+: u := by
    simp only [hasPrefix, Bool.or_eq_true, List.isPrefixOf_iff_prefix, sessionShows, List.mem_cons, List.not_mem_nil,
      or_false, exists_eq_or_imp, exists_eq_left, or_assoc]
  unfold unsafeReadReason
  simp only [hfragments, hshows]
  split_ifs with h₁ h₂ h₃
  · exact iff_of_false (by decide) fun h => by obtain ⟨p, hp, hin⟩ := h₁; exact h.1 p hp hin
  · exact iff_of_false (by decide) fun h => h.2.1 (hat.1 h₂)
  · exact iff_of_false (by decide) fun h => by obtain ⟨p, hp, hin⟩ := h₃; exact h.2.2 p hp hin
  · refine iff_of_true rfl ⟨fun p hp hin => h₁ ⟨p, hp, hin⟩, fun hl => h₂ (hat.2 hl), fun p hp hin => h₃ ⟨p, hp, hin⟩⟩

/-- A read that is safe with more text behind it is safe. -/
theorem unsafeReadReason_append {u y : Text} (hy : y.head? ≠ some (.chr '@')) (h : unsafeReadReason (u ++ y) = []) :
    unsafeReadReason u = [] := by
  obtain ⟨hfragments, hat, hshows⟩ := (unsafeReadReason_eq_nil_iff _).1 h
  refine (unsafeReadReason_eq_nil_iff u).2 ⟨fun p hp hin => ?_, fun hl => hat (loneAt_append_right hl hy), ?_⟩
  · exact hfragments p hp (hin.trans (List.prefix_append u y).isInfix)
  · exact fun p hp hpre => hshows p hp (hpre.trans (List.prefix_append u y))

/-! ## The kinds by their words -/

section Kinds

variable {trimmed upper : Text} {words : List Text} {first : Text}

theorem not_forwarded {kind k : StatementKind} (hk : kind ∉ forwardedKinds) (h : kind = k) : k ∉ forwardedKinds := h ▸ hk

theorem classifyWords_read_iff :
    (classifyWords trimmed upper words first).kind = .read ↔
      first ∈ readWords ∧ join words (text " ") ≠ text "SHOW COUNT(*) WARNINGS" ∧ unsafeReadReason upper = [] := by
  constructor
  · intro h
    have hr : first ∈ readWords := by
      revert h
      refine classifyWords_cases (motive := fun st => st.kind = .read → first ∈ readWords) ?_ ?_ ?_ ?_ ?_
      · exact fun hr _ _ => hr
      · rintro - - ⟨⟩
      · rintro - - ⟨⟩
      · rintro - ⟨⟩
      · exact fun _ _ hk h => absurd (by decide) (not_forwarded hk h)
    rw [classifyWords, if_pos hr] at h
    split_ifs at h with hjoin hunsafe
    exact ⟨hr, hjoin, not_not.1 hunsafe⟩
  · rintro ⟨hr, hjoin, hunsafe⟩
    rw [classifyWords, if_pos hr, if_neg hjoin, if_neg (not_not.2 hunsafe)]

theorem classifyWords_write_iff :
    (classifyWords trimmed upper words first).kind = .write ↔
      first ∈ writeWords ∧ contains upper (text " RETURNING") = false := by
  constructor
  · refine classifyWords_cases (motive := fun st => st.kind = .write → first ∈ writeWords ∧ _) ?_ ?_ ?_ ?_ ?_
    · rintro - - ⟨⟩
    · exact fun hw hn _ => ⟨hw, hn⟩
    · rintro - - ⟨⟩
    · rintro - ⟨⟩
    · exact fun _ _ hk h => absurd (by decide) (not_forwarded hk h)
  · rintro ⟨hw, hn⟩
    have hr : first ∉ readWords := (by decide : ∀ w ∈ writeWords, w ∉ readWords) first hw
    rw [classifyWords, if_neg hr, if_pos hw, if_neg (by rw [hn]; decide)]

theorem classifyWords_ddl_iff :
    (classifyWords trimmed upper words first).kind = .ddl ↔
      first ∈ ddlWords ∧ ¬isWord words 1 "TEMPORARY" = true := by
  have hlength : isWord words 1 "TEMPORARY" = true → words.length > 1 := by
    intro h
    by_contra hlen
    rw [isWord, List.getElem?_eq_none (by omega)] at h
    cases h
  constructor
  · refine classifyWords_cases (motive := fun st => st.kind = .ddl → first ∈ ddlWords ∧ _) ?_ ?_ ?_ ?_ ?_
    · rintro - - ⟨⟩
    · rintro - - ⟨⟩
    · exact fun hd hn _ => ⟨hd, fun h => hn ⟨hlength h, h⟩⟩
    · rintro - ⟨⟩
    · exact fun _ _ hk h => absurd (by decide) (not_forwarded hk h)
  · rintro ⟨hd, hn⟩
    obtain ⟨hr, hw⟩ := (by decide : ∀ w ∈ ddlWords, w ∉ readWords ∧ w ∉ writeWords) first hd
    rw [classifyWords, if_neg hr, if_neg hw, if_pos hd, if_neg fun h => hn h.2]

end Kinds

/-! ## Classifying the stored text -/

/-- The words of the statements that are prepared. -/
theorem preparedWords_plain : ∀ w ∈ readWords ++ writeWords ++ ddlWords, .chr ';' ∉ w ∧ w.head? ≠ some (.chr '-') := by
  decide

/-- The stored text begins with the same word, and the text that was classified goes on with nothing but white
space and a semicolon. -/
theorem visible_again {q first : Text} {more : List Text} (hf : fields (toUpper (visible q)) = first :: more)
    (hsemi : .chr ';' ∉ first) (hdash : first.head? ≠ some (.chr '-')) :
    ∃ more' y, fields (toUpper (visible (trimStatement q))) = first :: more' ∧
      toUpper (visible q) = toUpper (visible (trimStatement q)) ++ y ∧ y.head? ≠ some (.chr '@') := by
  rcases trimStatement_cut (trimStatement q) with hsame | ⟨sp, hs, hcut⟩
  · have hvisible : visible (trimStatement q) = visible q := by
      rw [visible, hsame, trimSpace_trimStatement]
      rfl
    rw [hvisible]
    refine ⟨more, [], hf, (List.append_nil _).symm, fun h => ?_⟩
    cases h
  rw [trimSpace_trimStatement] at hcut
  rcases stripLeadingComments_cut hs (trimSpace_trimStatement q) (trimSpace_trimStatement _) hcut with
    ⟨sp', hs', he⟩ | ⟨-, he | he⟩
  · have he : visible q = visible (trimStatement q) ++ sp' ++ text ";" := he
    have hspace : ∀ c ∈ toUpper sp', c.isSpace = true := by
      intro c hc
      obtain ⟨d, hd, rfl⟩ := List.mem_map.1 hc
      exact upper_isSpace (hs' d hd)
    have hupper : toUpper (visible q) = toUpper (visible (trimStatement q)) ++ (toUpper sp' ++ text ";") := by
      rw [he, toUpper, List.map_append, List.map_append, List.append_assoc]
      rfl
    have hhead : (toUpper sp' ++ text ";").head? ≠ some (.chr '@') := by
      cases hup : toUpper sp' with
      | nil => decide
      | cons c rest =>
        rintro ⟨⟩
        rw [hup] at hspace
        cases hspace _ List.mem_cons_self
    cases hw : fields (toUpper (visible (trimStatement q))) with
    | nil =>
      -- nothing but the semicolon would be left
      refine absurd ?_ hsemi
      rw [hupper, fields_blank (space_of_fields_nil hw), fields_blank hspace] at hf
      rw [← (List.cons.inj hf).1]
      decide
    | cons first' more' =>
      have hne := fields_head hw ▸ fields_ne_nil hw
      have hfirst : first' = first := by
        rw [fields_head hw]
        exact firstWord_cut hs' (by rw [← he, fields_head hf]) hsemi hne
      exact ⟨more', _, by rw [hfirst], hupper, hhead⟩
  · have he : visible q = [] := he
    rw [he] at hf
    cases hf
  · obtain ⟨rest, hrest⟩ := List.head?_eq_some_iff.1 he
    have hrest : visible q = .chr '-' :: rest := hrest
    rw [fields_head hf, hrest] at hdash
    exact absurd rfl hdash

theorem classifySQL_of_words {q first : Text} {more : List Text} (hm : hasMultipleStatements (trimSpace q) = false)
    (hf : fields (toUpper (visible q)) = first :: more) :
    classifySQL q = classifyWords (trimStatement q) (toUpper (visible q)) (first :: more) first := by
  have hvisible : visible q ≠ [] := by
    rintro hv
    rw [hv] at hf
    cases hf
  have hne : trimSpace q ≠ [] := by
    intro hq
    refine hvisible ?_
    rw [visible, trimStatement, hq]
    rfl
  rw [visible] at hf hvisible
  rw [classifySQL, if_neg hne, if_neg (by rw [hm]; decide)]
  simp only
  rw [if_neg hvisible, hf]
  rfl

theorem hasMultipleStatements_of_kind {q : Text} (he : (classifySQL q).kind ≠ .empty)
    (hu : (classifySQL q).kind ≠ .unsupported) : hasMultipleStatements (trimSpace q) = false := by
  rw [← Bool.not_eq_true]
  intro hm
  rw [classifySQL] at he hu
  split_ifs at he hu with hnil
  · exact he rfl
  · exact hu rfl

/-- One more semicolon, once it is cut, uncovers the warning count or a temporary object. -/
def Uncovers (q : Text) : Prop :=
  ((classifySQL q).kind = .read ∧
    join (fields (toUpper (visible (trimStatement q)))) (text " ") = text "SHOW COUNT(*) WARNINGS") ∨
  ((classifySQL q).kind = .ddl ∧ isWord (fields (toUpper (visible (trimStatement q)))) 1 "TEMPORARY" = true)

instance (q : Text) : Decidable (Uncovers q) := inferInstanceAs (Decidable (_ ∨ _))

/-- The stored text of a statement that is prepared is of the kind of the statement, unless it uncovers
another one, and then it never is; so it is executed as a read exactly if it was prepared as one. -/
theorem stored_kind_iff (q : Text)
    (h : (classifySQL q).kind = .read ∨ (classifySQL q).kind = .write ∨ (classifySQL q).kind = .ddl) :
    ((classifySQL (classifySQL q).sql).kind = (classifySQL q).kind ∧
      ((classifySQL (classifySQL q).sql).kind = .read ↔ (classifySQL q).kind = .read)) ↔ ¬Uncovers q := by
  have he : (classifySQL q).kind ≠ .empty := by rcases h with h | h | h <;> rw [h] <;> decide
  have hu : (classifySQL q).kind ≠ .unsupported := by rcases h with h | h | h <;> rw [h] <;> decide
  obtain ⟨first, more, hf, hq⟩ := classifySQL_words he hu
  have hsql : (classifySQL q).sql = trimStatement q := by rw [hq, classifyWords_sql]
  have hword : first ∈ readWords ++ writeWords ++ ddlWords := by
    rw [hq, classifyWords_read_iff, classifyWords_write_iff, classifyWords_ddl_iff] at h
    simp only [List.mem_append]
    rcases h with h | h | h
    · exact .inl (.inl h.1)
    · exact .inl (.inr h.1)
    · exact .inr h.1
  obtain ⟨hsemi, hdash⟩ := preparedWords_plain first hword
  obtain ⟨more', y, hf', hy, hhead⟩ := visible_again hf hsemi hdash
  have hsingle := hasMultipleStatements_trimStatement (hasMultipleStatements_of_kind he hu)
  rw [← trimSpace_trimStatement] at hsingle
  have hq' := classifySQL_of_words hsingle hf'
  have hq : classifySQL q = classifyWords (trimStatement q) (toUpper (visible (trimStatement q)) ++ y) (first :: more) first := by
    rw [← hy]
    exact hq
  rw [hsql, Uncovers, hf']
  rcases h with h | h | h
  · have hread := h
    rw [hq, classifyWords_read_iff] at hread
    have hkind : (classifySQL (trimStatement q)).kind = .read ↔
        join (first :: more') (text " ") ≠ text "SHOW COUNT(*) WARNINGS" := by
      rw [hq', classifyWords_read_iff]
      exact ⟨fun h => h.2.1, fun hjoin => ⟨hread.1, hjoin, unsafeReadReason_append hhead hread.2.2⟩⟩
    rw [h, hkind]
    simp
  · have hwrite := h
    rw [hq, classifyWords_write_iff] at hwrite
    have hkind : (classifySQL (trimStatement q)).kind = .write := by
      rw [hq', classifyWords_write_iff]
      refine ⟨hwrite.1, ?_⟩
      rw [← Bool.not_eq_true, contains_iff]
      intro hin
      have hlong := contains_iff.2 (hin.trans (List.prefix_append _ y).isInfix)
      rw [hwrite.2] at hlong
      cases hlong
    rw [h, hkind]
    simp
  · have hddl := h
    rw [hq, classifyWords_ddl_iff] at hddl
    have hkind : (classifySQL (trimStatement q)).kind = .ddl ↔ ¬isWord (first :: more') 1 "TEMPORARY" = true := by
      rw [hq', classifyWords_ddl_iff]
      exact and_iff_right hddl.1
    have hread : (classifySQL (trimStatement q)).kind ≠ .read := by
      rw [hq', ne_eq, classifyWords_read_iff]
      exact fun h => (by decide : ∀ w ∈ ddlWords, w ∉ readWords) first hddl.1 h.1
    rw [h, hkind]
    simp [hread]

theorem stored_kind_iff_read :
    (classifySQL (text "SELECT ';' ;")).kind = .read ∧
      (classifySQL (classifySQL (text "SELECT ';' ;")).sql).kind = (classifySQL (text "SELECT ';' ;")).kind :=
  ⟨by decide +kernel, ((stored_kind_iff (text "SELECT ';' ;") (.inl (by decide +kernel))).2 (by decide +kernel)).1⟩

/-- A quote in a comment hides two semicolons: what is prepared as a read is executed as the warning count, and
what is prepared as DDL is refused. -/
theorem stored_kind_differs :
    (classifySQL (text "/* ' */ SHOW COUNT(*) WARNINGS;;")).kind = .read ∧
      (classifySQL (classifySQL (text "/* ' */ SHOW COUNT(*) WARNINGS;;")).sql).kind = .warningCount ∧
    (classifySQL (text "/* ' */ CREATE TEMPORARY;;")).kind = .ddl ∧
      (classifySQL (classifySQL (text "/* ' */ CREATE TEMPORARY;;")).sql).kind = .unsupported := by
  decide +kernel

end Accelerator.Engine
