/-
The text the gateway sends upstream is the trimmed one, and what it does with it later is decided by
classifying it again. A semicolon at its end, which only an unfinished quote can leave there, would be
cut a second time; the first word, and with it the kind, stays what it was.
-/
import Accelerator.Engine.Classify
import Accelerator.Sql.Lexer
import Accelerator.Strings.Fields

namespace Accelerator.Engine

open Strings Sql

/-! ## First words -/

/-- The first word of a text. -/
def firstWord (t : Text) : Text := (t.dropWhile Sym.isSpace).takeWhile fun c => !c.isSpace

theorem fields_head {t first : Text} {more : List Text} (h : fields t = first :: more) : first = firstWord t := by
  induction t with
  | nil => simp [fields] at h
  | cons c t ih =>
    cases hc : c.isSpace with
    | true =>
      rw [fields_cons_space hc] at h
      rw [ih h, firstWord, firstWord, List.dropWhile_cons_of_pos hc]
    | false =>
      obtain ⟨rest, hr⟩ := splitOnP_head (c :: t)
      rw [fields, hr] at h
      simp only [List.takeWhile_cons, hc, Bool.not_false, if_true, List.filter_cons, List.isEmpty_cons,
        List.cons.injEq] at h
      simp [firstWord, hc, ← h.1]

/-- White space is its own upper case. -/
theorem upperRune_space {c : Char} (h : isSpaceRune c = true) : upperRune c = c := by
  have key : ∀ n, c.toNat = n → upperRune (Char.ofNat n) = Char.ofNat n → upperRune c = c := by
    rintro n rfl hn
    rwa [Char.ofNat_toNat] at hn
  simp only [isSpaceRune, Bool.or_eq_true, Bool.and_eq_true, decide_eq_true_eq] at h
  generalize hn : c.toNat = n at h
  have hmem : n ∈ [0x09, 0x0a, 0x0b, 0x0c, 0x0d, 0x20, 0x85, 0xa0, 0x1680, 0x2000, 0x2001, 0x2002, 0x2003, 0x2004,
      0x2005, 0x2006, 0x2007, 0x2008, 0x2009, 0x200a, 0x2028, 0x2029, 0x202f, 0x205f, 0x3000] := by
    simp only [List.mem_cons, List.not_mem_nil, or_false]
    omega
  refine key n hn ?_
  clear hn key h
  revert n
  decide +kernel

theorem upper_isSpace {c : Sym} (h : c.isSpace = true) : c.upper.isSpace = true := by
  cases c with
  | chr c =>
    simp only [Sym.upper, Sym.isSpace] at h ⊢
    rw [upperRune_space h]
    exact h
  | bad b => cases h

/-- Cutting a semicolon and the white space before it leaves the first word, unless it ends in the
semicolon or nothing is left. -/
theorem firstWord_cut {t sp first : Text} (hs : ∀ c ∈ sp, c.isSpace = true)
    (hf : firstWord (toUpper (t ++ sp ++ text ";")) = first) (hsemi : .chr ';' ∉ first)
    (hne : firstWord (toUpper t) ≠ []) : firstWord (toUpper t) = first := by
  subst hf
  have hup : toUpper (t ++ sp ++ text ";") = toUpper t ++ (toUpper sp ++ text ";") := by
    simp [toUpper, text, Sym.upper, upperRune]
  rw [hup] at hsemi ⊢
  generalize toUpper t = b at *
  have hb : b.dropWhile Sym.isSpace ≠ [] := by
    intro h; rw [firstWord, h] at hne; exact hne rfl
  have hd : (b ++ (toUpper sp ++ text ";")).dropWhile Sym.isSpace =
      b.dropWhile Sym.isSpace ++ (toUpper sp ++ text ";") := by
    rw [List.dropWhile_append, if_neg (by simpa using hb)]
  have hw : firstWord (b ++ (toUpper sp ++ text ";")) = (b.dropWhile Sym.isSpace ++ (toUpper sp ++ text ";")).takeWhile
      fun c => !c.isSpace := by rw [firstWord, hd]
  rw [hw, List.takeWhile_append] at hsemi ⊢
  split at hsemi
  · rename_i hall
    rw [if_pos hall]
    cases sp with
    | nil =>
      refine absurd ?_ hsemi
      simp [toUpper, text, Sym.isSpace, isSpaceRune]
    | cons c sp =>
      have hc := upper_isSpace (hs c (List.mem_cons_self ..))
      have heq := (List.takeWhile_prefix _).eq_of_length hall
      simpa only [toUpper, List.map_cons, List.cons_append, List.takeWhile_cons, hc, Bool.not_true, Bool.false_eq_true,
        if_false, List.append_nil, firstWord] using heq
  · rename_i hall
    rw [if_neg hall, firstWord]

/-! ## Comments -/

/-- The comment at the front of a text: what ends it, and where to look for that. -/
def comment? (value : Text) : Option (Text × Text) :=
  if hasPrefix value (text "/*") then some (text "*/", value.drop 2)
  else if hasPrefix value (text "#") then some (text "\n", value)
  else if hasPrefix value (text "--") && (value.length == 2 || dashSpace (value.drop 2).head?) then
    some (text "\n", value)
  else none

/-- One round of the loop. -/
theorem stripCommentsLoop_succ (fuel : Nat) (value : Text) :
    stripCommentsLoop (fuel + 1) value =
      match comment? value with
      | none => value
      | some (p, body) =>
        match after p body with
        | none => []
        | some rest => stripCommentsLoop fuel (trimSpace rest) := by
  rw [stripCommentsLoop, comment?]
  split
  · rename_i h; subst h; rfl
  split
  · rfl
  split
  · rfl
  split <;> rfl

theorem comment?_pair (a b : Sym) (t : Text) : comment? (a :: b :: t) =
    if a = .chr '/' ∧ b = .chr '*' then some (text "*/", t)
    else if a = .chr '#' ∨ (a = .chr '-' ∧ b = .chr '-' ∧ (t = [] ∨ dashSpace t.head? = true)) then
      some (text "\n", a :: b :: t)
    else none := by
  simp only [comment?, hasPrefix, text, String.reduceToList, List.map_cons, List.map_nil, List.isPrefixOf,
    Bool.and_true, Bool.and_eq_true, Bool.or_eq_true, beq_iff_eq, List.length_cons, List.drop_succ_cons, List.drop_zero]
  grind

theorem comment?_single (a : Sym) : comment? [a] = if a = .chr '#' then some (text "\n", [a]) else none := by
  simp only [comment?, hasPrefix, text, String.reduceToList, List.map_cons, List.map_nil, List.isPrefixOf,
    Bool.and_false, Bool.false_and, Bool.and_true, beq_iff_eq]
  grind

/-- A comment at the front of a text is still one when a space or a semicolon follows, unless the text
is a bare double dash; and no other text becomes one. -/
theorem comment?_append {t : Text} {c : Sym} (y : Text) (hc : c.isSpace = true ∨ c = .chr ';') :
    t = text "--" ∨ comment? (t ++ c :: y) = (comment? t).map fun x => (x.1, x.2 ++ c :: y) := by
  have h1 : c ≠ .chr '*' := by rintro rfl; revert hc; decide
  have h2 : c ≠ .chr '-' := by rintro rfl; revert hc; decide
  have h3 : c ≠ .chr '#' := by rintro rfl; revert hc; decide
  have h4 : c ≠ .chr '/' := by rintro rfl; revert hc; decide
  have h5 : text "--" = [.chr '-', .chr '-'] := by rfl
  rw [h5]
  rcases t with _ | ⟨a, _ | ⟨b, t⟩⟩
  · right
    cases y with
    | nil => rw [List.nil_append, comment?_single, if_neg h3]; rfl
    | cons d y => rw [List.nil_append, comment?_pair]; simp [h2, h3, h4, comment?, hasPrefix, text]
  · right
    rw [List.cons_append, List.nil_append, comment?_pair, comment?_single]
    grind
  · rw [List.cons_append, List.cons_append, comment?_pair, comment?_pair]
    cases t with
    | nil =>
      by_cases hd : a = .chr '-' ∧ b = .chr '-'
      · left; rw [hd.1, hd.2]
      · right; grind
    | cons d t => right; simp only [List.cons_append, List.head?_cons, reduceCtorEq]; grind

theorem comment?_some {value p body : Text} (h : comment? value = some (p, body)) :
    p ≠ [] ∧ body.length ≤ value.length := by
  unfold comment? at h
  split at h
  · cases h; exact ⟨by decide, by simp⟩
  split at h
  · cases h; exact ⟨by decide, le_rfl⟩
  split at h
  · cases h; exact ⟨by decide, le_rfl⟩
  · cases h

theorem length_trimSpace (t : Text) : (trimSpace t).length ≤ t.length :=
  (List.rdropWhile_prefix _ _).length_le.trans (List.dropWhile_suffix _).length_le

/-- Trimming a text that ends in white space and a semicolon. -/
theorem trimSpace_cut (x : Text) {sp : Text} (hs : ∀ c ∈ sp, c.isSpace = true) :
    ∃ sp', (∀ c ∈ sp', c.isSpace = true) ∧ trimSpace (x ++ sp ++ text ";") = trimSpace x ++ sp' ++ text ";" := by
  have hsemi : ∀ t : Text, (t ++ text ";").rdropWhile Sym.isSpace = t ++ text ";" := fun t => by
    rw [show text ";" = [.chr ';'] from rfl, List.rdropWhile_concat_neg]
    decide
  have hrd : ∀ t : Text, (∀ c ∈ t, c.isSpace = true) → t.dropWhile Sym.isSpace = [] := fun t ht =>
    List.dropWhile_eq_nil_iff.2 ht
  by_cases hx : ∀ c ∈ x, c.isSpace = true
  · refine ⟨[], by simp, ?_⟩
    have hall : ∀ c ∈ x ++ sp, c.isSpace = true := by
      intro c hc
      rcases List.mem_append.1 hc with hc | hc
      · exact hx c hc
      · exact hs c hc
    rw [trimSpace, trimSpace, List.dropWhile_append, hrd _ hall, hrd _ hx]
    rfl
  · have hne : x.dropWhile Sym.isSpace ≠ [] := fun h => hx (List.dropWhile_eq_nil_iff.1 h)
    refine ⟨(x.dropWhile Sym.isSpace).rtakeWhile Sym.isSpace ++ sp, fun c hc => ?_, ?_⟩
    · rcases List.mem_append.1 hc with hc | hc
      · exact List.mem_rtakeWhile_imp hc
      · exact hs c hc
    · rw [trimSpace, List.append_assoc, List.dropWhile_append, if_neg (by simpa using hne), ← List.append_assoc, hsemi,
        trimSpace, ← List.append_assoc _ _ sp, List.rdropWhile_append_rtakeWhile]

/-- A space or a semicolon opens no comment. -/
theorem comment?_semicolon {sp : Text} (hs : ∀ c ∈ sp, c.isSpace = true) : comment? (sp ++ text ";") = none := by
  cases sp with
  | nil => decide
  | cons c sp =>
    rcases @comment?_append [] c (sp ++ text ";") (.inl (hs c List.mem_cons_self)) with h | h
    · cases h
    · exact h

/-- The loop behind a comment that is not closed before white space and a semicolon. -/
theorem stripCommentsLoop_semicolon (n : Nat) {p body sp : Text} (hs : ∀ c ∈ sp, c.isSpace = true)
    (ha : after p body = none) :
    after p (body ++ (sp ++ text ";")) = none ∨ ∃ rest, after p (body ++ (sp ++ text ";")) = some rest ∧
      (stripCommentsLoop n (trimSpace rest) = [] ∨
        ∃ sp', (∀ c ∈ sp', c.isSpace = true) ∧ stripCommentsLoop n (trimSpace rest) = sp' ++ text ";") := by
  have hsuffix := after_append_none ha (sp ++ text ";")
  cases hrest : after p (body ++ (sp ++ text ";")) with
  | none => exact .inl rfl
  | some rest =>
    rw [hrest, Option.getD_some, show text ";" = [.chr ';'] from rfl, List.suffix_concat_iff] at hsuffix
    refine .inr ⟨rest, rfl, ?_⟩
    rcases hsuffix with rfl | ⟨sp', rfl, hsp⟩
    · left
      cases n <;> rfl
    · obtain ⟨sp'', hs'', htrim⟩ := @trimSpace_cut [] sp' fun c hc => hs c (hsp.mem hc)
      have htrim : trimSpace (sp' ++ [.chr ';']) = sp'' ++ text ";" := htrim
      refine .inr ⟨sp'', hs'', ?_⟩
      rw [htrim]
      cases n with
      | zero => rfl
      | succ n => rw [stripCommentsLoop_succ, comment?_semicolon hs'']

/-- The loop on a text that ends in a semicolon, and on the text without it: what is left differs by the
semicolon, or nothing is left of the shorter text and nothing or two dashes of the longer one. -/
theorem stripCommentsLoop_cut (n m : Nat) {w sp : Text} (hs : ∀ c ∈ sp, c.isSpace = true)
    (hn : (w ++ sp ++ text ";").length ≤ n) (hm : w.length ≤ m) :
    (∃ sp', (∀ c ∈ sp', c.isSpace = true) ∧
      stripCommentsLoop n (w ++ sp ++ text ";") = stripCommentsLoop m w ++ sp' ++ text ";") ∨
    (stripCommentsLoop m w = [] ∧ (stripCommentsLoop n (w ++ sp ++ text ";") = [] ∨
      (stripCommentsLoop n (w ++ sp ++ text ";")).head? = some (.chr '-'))) := by
  induction n generalizing m w sp with
  | zero => simp [text] at hn
  | succ n ih =>
    rw [List.append_assoc] at hn ⊢
    -- an open comment may end in the white space, and only the semicolon is left
    have hopen : ∀ p body, after p body = none → stripCommentsLoop m w = [] →
        comment? (w ++ (sp ++ text ";")) = some (p, body ++ (sp ++ text ";")) →
        (∃ sp', (∀ c ∈ sp', c.isSpace = true) ∧
          stripCommentsLoop (n + 1) (w ++ (sp ++ text ";")) = stripCommentsLoop m w ++ sp' ++ text ";") ∨
        (stripCommentsLoop m w = [] ∧ (stripCommentsLoop (n + 1) (w ++ (sp ++ text ";")) = [] ∨
          (stripCommentsLoop (n + 1) (w ++ (sp ++ text ";"))).head? = some (.chr '-'))) := by
      intro p body ha hnil hcomment
      rw [stripCommentsLoop_succ n, hcomment, hnil]
      simp only
      rcases stripCommentsLoop_semicolon n hs ha with hnone | ⟨rest, hrest, hend⟩
      · simp only [hnone]
        exact .inr ⟨trivial, .inl trivial⟩
      · simp only [hrest]
        rcases hend with hend | ⟨sp', hs', hend⟩
        · exact .inr ⟨trivial, .inl hend⟩
        · exact .inl ⟨sp', hs', hend⟩
    rcases m with _ | m
    · cases List.length_eq_zero_iff.1 (Nat.le_zero.1 hm)
      refine .inl ⟨sp, hs, ?_⟩
      rw [List.nil_append, stripCommentsLoop_succ, comment?_semicolon hs]
      rfl
    obtain ⟨c, y, hy, hc⟩ : ∃ c y, sp ++ text ";" = c :: y ∧ (c.isSpace = true ∨ c = .chr ';') := by
      cases sp with
      | nil => exact ⟨_, _, rfl, .inr rfl⟩
      | cons c sp => exact ⟨c, _, rfl, .inl (hs c (List.mem_cons_self ..))⟩
    rcases comment?_append (t := w) y hc with rfl | hcomment
    · have hnil : stripCommentsLoop (m + 1) (text "--") = [] := by
        rw [stripCommentsLoop_succ]
        rfl
      cases hdash : comment? (text "--" ++ (sp ++ text ";")) with
      | none =>
        refine .inr ⟨hnil, .inr ?_⟩
        rw [stripCommentsLoop_succ, hdash]
        rfl
      | some x =>
        refine hopen (text "\n") (text "--") (by decide) hnil ?_
        have hform : text "--" ++ (sp ++ text ";") = .chr '-' :: .chr '-' :: (sp ++ text ";") := rfl
        rw [hform, comment?_pair, if_neg (by decide)] at hdash ⊢
        split_ifs at hdash ⊢
        rfl
    rw [← hy] at hcomment
    cases hw : comment? w with
    | none =>
      rw [hw, Option.map_none] at hcomment
      refine .inl ⟨sp, hs, ?_⟩
      rw [stripCommentsLoop_succ, stripCommentsLoop_succ, hcomment, hw, List.append_assoc]
    | some x =>
      obtain ⟨p, body⟩ := x
      obtain ⟨hp, hlen⟩ := comment?_some hw
      rw [hw, Option.map_some] at hcomment
      cases ha : after p body with
      | none =>
        refine hopen p body ha ?_ hcomment
        rw [stripCommentsLoop_succ, hw]
        simp only [ha]
      | some x =>
        have hx := length_after ha
        have hpos := List.length_pos_iff.2 hp
        obtain ⟨sp', hs', htrim⟩ := trimSpace_cut x hs
        have hrest := after_append hp ha (sp ++ text ";")
        rw [stripCommentsLoop_succ n, stripCommentsLoop_succ m, hcomment, hw]
        simp only [hrest, ha, ← List.append_assoc x, htrim]
        refine ih m hs' ?_ ?_
        · rw [← htrim]
          have := length_trimSpace (x ++ sp ++ text ";")
          simp only [List.length_append] at hn this ⊢
          omega
        · have := length_trimSpace x
          omega

theorem dropWhile_trimSpace (t : Text) : (trimSpace t).dropWhile Sym.isSpace = trimSpace t := by
  obtain ⟨z, hz⟩ := List.rdropWhile_prefix Sym.isSpace (t.dropWhile Sym.isSpace)
  change trimSpace t ++ z = _ at hz
  cases hc : trimSpace t with
  | nil => rfl
  | cons c t' =>
    have hd := List.dropWhile_idempotent Sym.isSpace t
    rw [← hz, hc, List.cons_append, List.dropWhile_cons] at hd
    split at hd
    · have := congrArg List.length hd
      have hle := (List.dropWhile_suffix Sym.isSpace (l := t' ++ z)).length_le
      simp only [List.length_cons] at this
      omega
    · rename_i hn
      rw [List.dropWhile_cons_of_neg hn]

theorem trimSpace_idempotent (t : Text) : trimSpace (trimSpace t) = trimSpace t := by
  rw [trimSpace, dropWhile_trimSpace, trimSpace, List.rdropWhile_idempotent]

/-- Of a trimmed query at most white space and a semicolon are cut. -/
theorem trimStatement_cut (q : Text) :
    trimStatement q = trimSpace q ∨
      ∃ sp, (∀ c ∈ sp, c.isSpace = true) ∧ trimSpace q = trimStatement q ++ sp ++ text ";" := by
  by_cases hend : (text ";").isSuffixOf (trimSpace q) = true
  · obtain ⟨w, hw⟩ := List.isSuffixOf_iff_suffix.1 hend
    obtain ⟨sp, hs, htrim⟩ := @trimSpace_cut w [] (by simp)
    rw [List.append_nil, hw, trimSpace_idempotent] at htrim
    refine .inr ⟨sp, hs, ?_⟩
    have hcut : trimStatement q = trimSpace w := by
      rw [trimStatement, trimSuffix, if_pos hend, ← hw]
      simp
    rw [hcut]
    exact htrim
  · left
    rw [trimStatement, trimSuffix, if_neg hend, trimSpace_idempotent]

theorem trimSpace_trimStatement (q : Text) : trimSpace (trimStatement q) = trimStatement q := trimSpace_idempotent _

/-- What is visible of a statement, and of the same without a semicolon at its end. -/
theorem stripLeadingComments_cut {t t' sp : Text} (hs : ∀ c ∈ sp, c.isSpace = true) (ht : trimSpace t = t)
    (ht' : trimSpace t' = t') (hcut : t = t' ++ sp ++ text ";") :
    (∃ sp', (∀ c ∈ sp', c.isSpace = true) ∧
      stripLeadingComments t = stripLeadingComments t' ++ sp' ++ text ";") ∨
    (stripLeadingComments t' = [] ∧
      (stripLeadingComments t = [] ∨ (stripLeadingComments t).head? = some (.chr '-'))) := by
  have hloop := stripCommentsLoop_cut (t' ++ sp ++ text ";").length t'.length hs le_rfl le_rfl
  rw [← hcut] at hloop
  rw [stripLeadingComments, stripLeadingComments, ht, ht']
  exact hloop

/-! ## Classifying again -/

/-- The words a statement that may be sent in a transaction begins with. -/
def transactionalWords : List Text :=
  readWords ++ writeWords ++ [text "ROLLBACK", text "SAVEPOINT", text "RELEASE"]

theorem transactionalWords_plain : ∀ w ∈ transactionalWords, w ∉ ddlWords ∧ .chr ';' ∉ w := by decide

/-- The kinds of statement that are sent upstream as they are. -/
def forwardedKinds : List StatementKind := [.read, .write, .ddl, .savepoint]

/-- The switch by what it forwards. -/
theorem classifyWords_cases {trimmed upper : Text} {words : List Text} {first : Text} {motive : Statement → Prop}
    (read : first ∈ readWords → unsafeReadReason upper = [] → motive { kind := .read, sql := trimmed })
    (write : first ∈ writeWords → contains upper (text " RETURNING") = false → motive { kind := .write, sql := trimmed })
    (ddl : first ∈ ddlWords → ¬(words.length > 1 ∧ isWord words 1 "TEMPORARY" = true) →
      motive { kind := .ddl, sql := trimmed })
    (savepoint : first = text "ROLLBACK" ∨ first = text "SAVEPOINT" ∨ first = text "RELEASE" →
      motive { kind := .savepoint, sql := trimmed })
    (other : ∀ kind reason, kind ∉ forwardedKinds → motive { kind, sql := trimmed, reason }) :
    motive (classifyWords trimmed upper words first) := by
  unfold classifyWords
  refine iteInduction (fun hr => ?_) fun _ => iteInduction (fun hw => ?_) fun _ => iteInduction (fun hd => ?_) fun _ => ?_
  · exact iteInduction (fun _ => other _ _ (by decide)) fun _ =>
      iteInduction (fun _ => other _ _ (by decide)) fun hu => read hr (not_not.1 hu)
  · exact iteInduction (fun _ => other _ _ (by decide)) fun hn => write hw (Bool.eq_false_iff.2 hn)
  · exact iteInduction (fun _ => other _ _ (by decide)) fun hn => ddl hd hn
  refine iteInduction (fun _ => ?_) fun _ => iteInduction (fun _ => ?_) fun _ => iteInduction (fun _ => ?_) fun _ =>
    iteInduction (fun hr => ?_) fun _ => ?_
  iterate 3 exact iteInduction (fun _ => other _ _ (by decide)) fun _ => other _ _ (by decide)
  · exact iteInduction (fun _ => savepoint (.inl hr)) fun _ =>
      iteInduction (fun _ => other _ _ (by decide)) fun _ => other _ _ (by decide)
  refine iteInduction (fun hs => savepoint (.inr hs)) fun _ => iteInduction (fun _ => other _ _ (by decide)) fun _ =>
    iteInduction (fun _ => ?_) fun _ => ?_
  · unfold classifySet
    exact iteInduction (fun _ => other _ _ (by decide)) fun _ => iteInduction (fun _ => other _ _ (by decide)) fun _ =>
      iteInduction (fun _ => other _ _ (by decide)) fun _ => iteInduction (fun _ => other _ _ (by decide)) fun _ =>
        other _ _ (by decide)
  · exact iteInduction (fun _ => other _ _ (by decide)) fun _ => iteInduction (fun _ => other _ _ (by decide)) fun _ =>
      other _ _ (by decide)

theorem classifyWords_sql (trimmed upper : Text) (words : List Text) (first : Text) :
    (classifyWords trimmed upper words first).sql = trimmed :=
  classifyWords_cases (motive := fun st => st.sql = trimmed) (fun _ _ => rfl) (fun _ _ => rfl) (fun _ _ => rfl)
    (fun _ => rfl) fun _ _ _ => rfl

theorem classifyWords_transactional {trimmed upper : Text} {words : List Text} {first : Text} :
    (classifyWords trimmed upper words first).kind ∈ forwardedKinds →
      if (classifyWords trimmed upper words first).kind = .ddl then first ∈ ddlWords else first ∈ transactionalWords := by
  refine classifyWords_cases (motive := fun st => st.kind ∈ forwardedKinds →
    if st.kind = .ddl then first ∈ ddlWords else first ∈ transactionalWords)
    (fun h _ _ => ?_) (fun h _ _ => ?_) (fun h _ _ => ?_) (fun h _ => ?_) fun _ _ h h' => absurd h' h
  · simp [transactionalWords, h]
  · simp [transactionalWords, h]
  · simpa using h
  · simp [transactionalWords, h]

/-- A statement that is neither empty nor refused at once is classified by its words. -/
theorem classifySQL_words {q : Text} (he : (classifySQL q).kind ≠ .empty) (hu : (classifySQL q).kind ≠ .unsupported) :
    ∃ first more, fields (toUpper (stripLeadingComments (trimStatement q))) = first :: more ∧
      classifySQL q =
        classifyWords (trimStatement q) (toUpper (stripLeadingComments (trimStatement q))) (first :: more) first := by
  unfold classifySQL at he hu ⊢
  split
  · rename_i h; rw [if_pos h] at he; exact absurd rfl he
  rename_i h; rw [if_neg h] at he hu
  split
  · rename_i h; rw [if_pos h] at hu; exact absurd rfl hu
  rename_i h; rw [if_neg h] at he hu
  simp only at he hu ⊢
  split
  · rename_i h; rw [if_pos h] at he; exact absurd rfl he
  rename_i h; rw [if_neg h] at he hu
  cases hf : fields (toUpper (stripLeadingComments (trimStatement q))) with
  | nil => rw [hf] at he; exact absurd rfl he
  | cons first more => exact ⟨first, more, rfl, rfl⟩

/-- A statement that is classified again is not DDL if it was forwarded as something else. -/
theorem classifySQL_resent {q : Text}
    (h : (classifySQL q).kind = .read ∨ (classifySQL q).kind = .write ∨ (classifySQL q).kind = .savepoint) :
    (classifySQL (classifySQL q).sql).kind ≠ .ddl := by
  intro hd
  obtain ⟨first, more, hf, hq⟩ := classifySQL_words (q := q) (by rcases h with h | h | h <;> simp [h])
    (by rcases h with h | h | h <;> simp [h])
  rw [hq, classifyWords_sql] at hd
  obtain ⟨first', more', hf', hq'⟩ := classifySQL_words (q := trimStatement q) (by simp [hd]) (by simp [hd])
  have hword : first ∈ transactionalWords := by
    rw [hq] at h
    have := classifyWords_transactional (by rcases h with h | h | h <;> rw [h] <;> decide)
    rwa [if_neg (by rcases h with h | h | h <;> rw [h] <;> decide)] at this
  have hword' : first' ∈ ddlWords := by
    rw [hq'] at hd
    have := classifyWords_transactional (by rw [hd]; decide)
    rwa [if_pos hd] at this
  obtain ⟨hddl, hsemi⟩ := transactionalWords_plain first hword
  refine hddl ((?_ : first' = first) ▸ hword')
  rcases trimStatement_cut (trimStatement q) with hsame | ⟨sp, hs, hcut⟩
  · rw [hsame, trimSpace_trimStatement, hf] at hf'
    exact (List.cons.inj hf').1.symm
  rw [trimSpace_trimStatement] at hcut
  rcases stripLeadingComments_cut hs (trimSpace_trimStatement q) (trimSpace_trimStatement _) hcut with
    ⟨sp', hs', he⟩ | ⟨he, -⟩
  · have hne := fields_head hf' ▸ fields_ne_nil hf'
    rw [fields_head hf']
    exact firstWord_cut hs' (by rw [← he, fields_head hf]) hsemi hne
  · rw [he] at hf'
    cases hf'

end Accelerator.Engine
