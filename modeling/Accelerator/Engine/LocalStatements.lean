/-
The statements the gateway answers itself: the transaction words, `SET AUTOCOMMIT` and `SET NAMES`
(`engine/classify.go`). No server checks them, so the classifier ought to recognise them exactly. Their grammar
is given here by words and white space. The classifier takes more: letters and white space outside ASCII, a
`SET AUTOCOMMIT` with its words broken up, run together or repeated, and unmatched quotes around the name of
the character set. Everything else it accepts is in the grammar.
-/
import Accelerator.Engine.Leaks

namespace Accelerator.Engine

open Strings Sql

/-! ## The grammar -/

/-- The kinds of statement that are answered without the server. -/
def localKinds : List StatementKind := [.begin, .commit, .rollback, .autocommitOn, .autocommitOff, .setNames]

/-- A text that has the given words, in letters of either case, with white space between them, which may be
missing around an equals sign. -/
inductive Phrase : List Text → Text → Prop
  | last {w s : Text} : s.map keyUpper = w → Phrase [w] s
  | next {w w' s gap t : Text} {ws : List Text} : s.map keyUpper = w → (∀ c ∈ gap, isBlank c = true) →
      (gap = [] → w = text "=" ∨ w' = text "=") → Phrase (w' :: ws) t → Phrase (w :: w' :: ws) (s ++ (gap ++ t))

/-- The ways to write the left side of a `SET AUTOCOMMIT`. -/
def targets : List (List Text) :=
  [[text "SET", text "AUTOCOMMIT"], [text "SET", text "SESSION", text "AUTOCOMMIT"],
   [text "SET", text "@@AUTOCOMMIT"], [text "SET", text "@@SESSION.AUTOCOMMIT"]]

/-- The values that switch autocommit on or off. -/
def switches : StatementKind → List Text
  | .autocommitOn => [text "1", text "ON"]
  | .autocommitOff => [text "0", text "OFF"]
  | _ => []

/-- The statements of each kind that is answered locally. -/
def phrases : StatementKind → List (List Text)
  | .begin => [[text "BEGIN"], [text "BEGIN", text "WORK"], [text "START", text "TRANSACTION"]]
  | .commit => [[text "COMMIT"], [text "COMMIT", text "WORK"]]
  | .rollback => [[text "ROLLBACK"], [text "ROLLBACK", text "WORK"]]
  | .autocommitOn => targets.flatMap fun target => (switches .autocommitOn).map fun v => target ++ [text "=", v]
  | .autocommitOff => targets.flatMap fun target => (switches .autocommitOff).map fun v => target ++ [text "=", v]
  | .setNames =>
    [text "UTF8MB4", text "'UTF8MB4'", text "\"UTF8MB4\""].map fun name => [text "SET", text "NAMES", name]
  | _ => []

/-- The text is a statement of the kind, as the grammar has it. -/
def Written (k : StatementKind) (v : Text) : Prop := ∃ ws ∈ phrases k, Phrase ws v

/-! ## Spellings -/

/-- The equals sign as a word of its own. -/
def spaceEquals (t : Text) : Text := t.flatMap fun c => if c = .chr '=' then text " = " else [c]

/-- The words of a statement, the equals sign among them. -/
def spelledWords (v : Text) : List Text := fields (spaceEquals (toUpper v))

/-- In a `SET` of autocommit the name stands in one word right behind `SET` or `SET SESSION`, and the value in
one word at the end. -/
def unbroken (k : StatementKind) (words : List Text) : Bool :=
  (isWord words 1 "AUTOCOMMIT" || isWord words 1 "@@AUTOCOMMIT" || isWord words 1 "@@SESSION.AUTOCOMMIT" ||
    (isWord words 1 "SESSION" && isWord words 2 "AUTOCOMMIT")) &&
  words.getLast?.any fun v => (switches k).contains v

def isNameQuote (c : Sym) : Bool := (text "'\"").contains c

/-- A name has the same quotes in front and behind, and at most one. -/
def paired (name : Text) : Bool :=
  name.takeWhile isNameQuote == name.rtakeWhile isNameQuote && (name.takeWhile isNameQuote).length ≤ 1

/-- The words are unbroken or paired where the classifier does not see to it. -/
def wellSpelled (words : List Text) : StatementKind → Bool
  | .autocommitOn => unbroken .autocommitOn words
  | .autocommitOff => unbroken .autocommitOff words
  | .setNames => words[2]?.any paired
  | _ => true

/-- A well spelled statement in ASCII. -/
def regular (k : StatementKind) (v : Text) : Bool := v.all isAscii && wellSpelled (spelledWords v) k

/-! ## Letters -/

theorem upper_of_ascii {c : Sym} (h : isAscii c = true) : c.upper = keyUpper c := by
  cases c with
  | bad b => cases h
  | chr c =>
    have hc : c.toNat < 0x80 := of_decide_eq_true h
    rw [Sym.upper, upperRune, if_pos hc, keyUpper]

theorem toUpper_of_ascii {t : Text} (h : ∀ c ∈ t, isAscii c = true) : toUpper t = t.map keyUpper :=
  List.map_congr_left fun c hc => upper_of_ascii (h c hc)

theorem isSpace_of_ascii {c : Sym} (h : isAscii c = true) : c.isSpace = isBlank c := by
  cases c with
  | bad b => cases h
  | chr c =>
    have hc : c.toNat < 0x80 := of_decide_eq_true h
    rw [Bool.eq_iff_iff]
    simp only [Sym.isSpace, isSpaceRune, isBlank, Bool.or_eq_true, Bool.and_eq_true, decide_eq_true_eq]
    omega

theorem isAscii_of_isBlank {c : Sym} (h : isBlank c = true) : isAscii c = true := by
  cases c with
  | bad b => cases h
  | chr c =>
    simp only [isBlank, isAscii, Bool.or_eq_true, Bool.and_eq_true, decide_eq_true_eq] at h ⊢
    omega

theorem isAscii_keyUpper (c : Sym) : isAscii (keyUpper c) = isAscii c := by
  cases c with
  | bad b => rfl
  | chr c =>
    rcases keyUpper_chr c with h | ⟨hlo, hhi, d, h, hd⟩
    · rw [h]
    · rw [h, isAscii, isAscii, decide_eq_true (by omega), decide_eq_true (by omega)]

/-! ## The equals sign -/

theorem spaceEquals_append (a b : Text) : spaceEquals (a ++ b) = spaceEquals a ++ spaceEquals b :=
  List.flatMap_append

theorem spaceEquals_equals (t : Text) : spaceEquals (.chr '=' :: t) = text " = " ++ spaceEquals t := rfl

theorem spaceEquals_cons {c : Sym} (hc : c ≠ .chr '=') (t : Text) : spaceEquals (c :: t) = c :: spaceEquals t := by
  rw [spaceEquals, List.flatMap_cons, if_neg hc]
  rfl

theorem spaceEquals_plain {t : Text} (h : .chr '=' ∉ t) : spaceEquals t = t := by
  induction t with
  | nil => rfl
  | cons c t ih =>
    rw [List.mem_cons, not_or] at h
    rw [spaceEquals_cons (Ne.symm h.1), ih h.2]

theorem fields_equals (t : Text) : fields (text " = " ++ t) = text "=" :: fields t := by
  change fields (.chr ' ' :: (text "=" ++ .chr ' ' :: t)) = _
  rw [fields_cons_space rfl, fields_append_space rfl]
  rfl

/-- In front of white space or an equals sign the words end. -/
theorem fields_spaceEquals_append {a b : Text} (hb : ∀ c ∈ b.head?, c.isSpace = true ∨ c = .chr '=') :
    fields (spaceEquals (a ++ b)) = fields (spaceEquals a) ++ fields (spaceEquals b) := by
  rw [spaceEquals_append]
  rcases b with _ | ⟨c, b⟩
  · exact (congrArg fields (List.append_nil _)).trans (List.append_nil _).symm
  · by_cases hc : c = .chr '='
    · subst hc
      rw [spaceEquals_equals]
      change fields (spaceEquals a ++ .chr ' ' :: (text "= " ++ spaceEquals b)) = _
      rw [fields_append_space rfl]
      rfl
    · have hspace : c.isSpace = true := (hb c rfl).resolve_right hc
      rw [spaceEquals_cons hc, fields_append_space hspace, fields_cons_space hspace]

/-- The words around an equals sign, from the words at white space. -/
theorem fields_spaceEquals (t : Text) :
    fields (spaceEquals t) = (fields t).flatMap fun w => fields (spaceEquals w) := by
  induction t using words_induct with
  | nil => rfl
  | space c t hc ih =>
    have hne : c ≠ .chr '=' := by
      rintro rfl
      cases hc
    rw [spaceEquals_cons hne, fields_cons_space hc, fields_cons_space hc, ih]
  | word w t hne hw ht ih =>
    rw [fields_word hne hw ht, fields_spaceEquals_append fun c hc => .inl (ht c hc), ih, List.flatMap_cons]

/-- A word is the equals sign or has none. -/
theorem mem_fields_spaceEquals {t w : Text} (h : w ∈ fields (spaceEquals t)) : w = text "=" ∨ .chr '=' ∉ w := by
  -- what stands in front of the rest of the text is the beginning of a word
  suffices key : ∀ start : Text, .chr '=' ∉ start → ∀ w ∈ fields (start ++ spaceEquals t), w = text "=" ∨ .chr '=' ∉ w from
    key [] List.not_mem_nil w h
  clear h w
  induction t with
  | nil =>
    intro start hstart w hw
    rw [show spaceEquals [] = [] from rfl, List.append_nil] at hw
    exact .inr fun he => hstart ((mem_fields hw).2 _ he).1
  | cons c t ih =>
    intro start hstart w hw
    by_cases hc : c = .chr '='
    · rw [hc, spaceEquals_equals] at hw
      change w ∈ fields (start ++ .chr ' ' :: (text "=" ++ .chr ' ' :: spaceEquals t)) at hw
      rw [fields_append_space rfl, fields_append_space rfl, List.mem_append, List.mem_append] at hw
      rcases hw with hw | hw | hw
      · exact .inr fun he => hstart ((mem_fields hw).2 _ he).1
      · exact .inl (List.mem_singleton.1 hw)
      · exact ih [] List.not_mem_nil w hw
    · rw [spaceEquals_cons hc, List.append_cons] at hw
      refine ih (start ++ [c]) ?_ w hw
      rw [List.mem_append, List.mem_singleton, not_or]
      exact ⟨hstart, Ne.symm hc⟩

/-- Setting the equals sign apart adds white space only. -/
theorem flatten_fields_spaceEquals (t : Text) :
    (fields (spaceEquals t)).flatten = t.filter fun c => !c.isSpace := by
  rw [flatten_fields]
  induction t with
  | nil => rfl
  | cons c t ih =>
    by_cases hc : c = .chr '='
    · subst hc
      rw [spaceEquals_equals, List.filter_append, ih]
      rfl
    · rw [spaceEquals_cons hc, List.filter_cons, List.filter_cons, ih]

/-! ## Phrases and words -/

theorem spelledWords_equals (t : Text) : spelledWords (.chr '=' :: t) = text "=" :: spelledWords t :=
  fields_equals _

/-- White space in front adds no words. -/
theorem spelledWords_blank {gap : Text} (h : ∀ c ∈ gap, c.isSpace = true) (t : Text) :
    spelledWords (gap ++ t) = spelledWords t := by
  have hspace : ∀ c ∈ toUpper gap, c.isSpace = true := by
    intro c hc
    obtain ⟨d, hd, rfl⟩ := List.mem_map.1 hc
    exact upper_isSpace (h d hd)
  have hplain : .chr '=' ∉ toUpper gap := fun he => by cases hspace _ he
  rw [spelledWords, toUpper, List.map_append, spaceEquals_append]
  change fields (spaceEquals (toUpper gap) ++ _) = _
  rw [spaceEquals_plain hplain, fields_blank hspace]
  rfl

theorem spelledWords_append {a b : Text} (hb : ∀ c ∈ b.head?, c.isSpace = true ∨ c = .chr '=') :
    spelledWords (a ++ b) = spelledWords a ++ spelledWords b := by
  rw [spelledWords, toUpper, List.map_append]
  refine fields_spaceEquals_append fun c hc => ?_
  rw [List.head?_map, Option.mem_def, Option.map_eq_some_iff] at hc
  obtain ⟨d, hd, rfl⟩ := hc
  rcases hb d hd with hspace | rfl
  · exact .inl (upper_isSpace hspace)
  · exact .inr rfl

/-- A word of the grammar. -/
def Plain (w : Text) : Prop := (∀ c ∈ w, isAscii c = true) ∧ fields (spaceEquals w) = [w]

instance (w : Text) : Decidable (Plain w) := inferInstanceAs (Decidable (_ ∧ _))

theorem Plain.spelled {w s : Text} (hw : Plain w) (h : s.map keyUpper = w) :
    (∀ c ∈ s, isAscii c = true) ∧ spelledWords s = [w] := by
  subst h
  have hs : ∀ c ∈ s, isAscii c = true := by
    intro c hc
    rw [← isAscii_keyUpper]
    exact hw.1 _ (List.mem_map_of_mem hc)
  refine ⟨hs, ?_⟩
  rw [spelledWords, toUpper_of_ascii hs]
  exact hw.2

theorem equals_of_keyUpper {s : Text} (h : s.map keyUpper = text "=") : s = text "=" := by
  rcases s with _ | ⟨c, _ | ⟨d, s⟩⟩
  · cases h
  · have hc : keyUpper c = .chr '=' := (List.cons.inj h).1
    rw [(keyUpper_low (by decide)).1 hc]
    rfl
  · cases (List.cons.inj h).2

theorem Phrase.begins {w t : Text} {ws : List Text} (h : Phrase (w :: ws) t) :
    ∃ s r, t = s ++ r ∧ s.map keyUpper = w := by
  cases h with
  | last hs => exact ⟨t, [], (List.append_nil t).symm, hs⟩
  | next hs _ _ _ => exact ⟨_, _, rfl, hs⟩

theorem Phrase.ne_nil {ws : List Text} {t : Text} (h : Phrase ws t) : ws ≠ [] := by
  cases h with
  | last _ => exact List.cons_ne_nil _ _
  | next _ _ _ _ => exact List.cons_ne_nil _ _

theorem Phrase.head_equals {t : Text} {ws : List Text} (h : Phrase (text "=" :: ws) t) : t.head? = some (.chr '=') := by
  obtain ⟨s, r, rfl, hs⟩ := h.begins
  rw [equals_of_keyUpper hs]
  rfl

/-- A phrase is in ASCII, and its words are those the classifier would see if the equals sign were set apart. -/
theorem Phrase.spelled {ws : List Text} {v : Text} (h : Phrase ws v) (hws : ∀ w ∈ ws, Plain w) :
    (∀ c ∈ v, isAscii c = true) ∧ spelledWords v = ws := by
  induction h with
  | last hs => exact (hws _ List.mem_cons_self).spelled hs
  | @next w w' s gap t ws hs hgap hglue ht ih =>
    rw [List.forall_mem_cons] at hws
    obtain ⟨hsascii, hsword⟩ := hws.1.spelled hs
    obtain ⟨htascii, htwords⟩ := ih hws.2
    refine ⟨?_, ?_⟩
    · intro c hc
      rcases List.mem_append.1 hc with hc | hc
      · exact hsascii c hc
      rcases List.mem_append.1 hc with hc | hc
      · exact isAscii_of_isBlank (hgap c hc)
      · exact htascii c hc
    have hspace : ∀ c ∈ gap, c.isSpace = true := fun c hc => isSpace_of_isBlank (hgap c hc)
    rcases gap with _ | ⟨c, gap⟩
    · rw [List.nil_append]
      rcases hglue rfl with rfl | rfl
      · rw [equals_of_keyUpper hs, ← htwords]
        exact spelledWords_equals t
      · rw [spelledWords_append, hsword, htwords]
        · rfl
        · rw [ht.head_equals]
          rintro c ⟨⟩
          exact .inr rfl
    · rw [spelledWords_append, spelledWords_blank hspace, hsword, htwords]
      · rfl
      · rintro d ⟨⟩
        exact .inl (hspace _ List.mem_cons_self)

/-- A text in front of white space or an equals sign that has neither is one word. -/
theorem spelledWords_word {s : Text} (hne : s ≠ []) (hascii : ∀ c ∈ s, isAscii c = true)
    (hs : ∀ c ∈ s, c.isSpace = false ∧ c ≠ .chr '=') : spelledWords s = [s.map keyUpper] := by
  have hplain : .chr '=' ∉ s.map keyUpper := by
    intro he
    obtain ⟨c, hc, he⟩ := List.mem_map.1 he
    exact (hs c hc).2 ((keyUpper_low (by decide)).1 he)
  have hspace : ∀ c ∈ s.map keyUpper, c.isSpace = false := by
    intro c hc
    obtain ⟨d, hd, rfl⟩ := List.mem_map.1 hc
    rw [isSpace_keyUpper]
    exact (hs d hd).1
  have hword := @fields_word _ [] (by simpa using hne) hspace nofun
  rw [List.append_nil] at hword
  rw [spelledWords, toUpper_of_ascii hascii, spaceEquals_plain hplain, hword]
  rfl

/-- The first word of a text, the equals sign being one of its own. -/
theorem word_split {c : Sym} {cs : Text} (hascii : ∀ d ∈ c :: cs, isAscii d = true) (hc : c.isSpace = false) :
    ∃ s r, c :: cs = s ++ r ∧ s ≠ [] ∧ spelledWords (s ++ r) = s.map keyUpper :: spelledWords r ∧
      (s.map keyUpper = text "=" ∨ ∀ d ∈ r.head?, d.isSpace = true ∨ d = .chr '=') := by
  by_cases he : c = .chr '='
  · subst he
    exact ⟨[.chr '='], cs, rfl, List.cons_ne_nil _ _, spelledWords_equals cs, .inl rfl⟩
  let inWord : Sym → Bool := fun d => !d.isSpace && d != .chr '='
  have hinWord : inWord c = true := by simp [inWord, hc, he]
  have hsplit := List.takeWhile_append_dropWhile (p := inWord) (l := c :: cs)
  have hne : (c :: cs).takeWhile inWord ≠ [] := by simp [hinWord]
  have hr : ∀ d ∈ ((c :: cs).dropWhile inWord).head?, d.isSpace = true ∨ d = .chr '=' := by
    intro d hd
    have hnot := List.head?_dropWhile_not inWord (c :: cs)
    rw [Option.mem_def.1 hd] at hnot
    simp only [inWord, Bool.and_eq_false_iff, Bool.not_eq_false', bne_eq_false_iff_eq] at hnot
    exact hnot
  refine ⟨_, _, hsplit.symm, hne, ?_, .inr hr⟩
  rw [spelledWords_append hr, spelledWords_word hne]
  · rfl
  · exact fun d hd => hascii d (List.takeWhile_subset _ hd)
  · intro d hd
    have := List.mem_takeWhile_imp hd
    simp only [inWord, Bool.and_eq_true, Bool.not_eq_true', bne_iff_ne] at this
    exact this

/-- Every trimmed text in ASCII is a phrase of its words. -/
theorem phrase_spelledWords {v : Text} (hne : v ≠ []) (hascii : ∀ c ∈ v, isAscii c = true)
    (hhead : ∀ c ∈ v.head?, c.isSpace = false) (htrim : RightTrimmed v) : Phrase (spelledWords v) v := by
  induction hn : v.length using Nat.strong_induction_on generalizing v with
  | _ n ih =>
    obtain ⟨c, cs, rfl⟩ := List.exists_cons_of_ne_nil hne
    obtain ⟨s, r, hv, hs, hwords, hglue⟩ := word_split hascii (hhead c rfl)
    rw [hv] at hascii htrim hn ⊢
    rw [hwords]
    have hgap : ∀ d ∈ r.takeWhile Sym.isSpace, d.isSpace = true := fun d hd => List.mem_takeWhile_imp hd
    have hr := List.takeWhile_append_dropWhile (p := Sym.isSpace) (l := r)
    have hrascii : ∀ d ∈ r, isAscii d = true := fun d hd => hascii d (List.mem_append_right _ hd)
    have hrtrim : RightTrimmed r := htrim.suffix (List.suffix_append s r)
    by_cases ht : r.dropWhile Sym.isSpace = []
    · -- white space at the end of the text has been trimmed
      have hnil : r = [] := by
        rw [ht, List.append_nil] at hr
        rcases List.eq_nil_or_concat r with hnil | ⟨x, d, hlast⟩
        · exact hnil
        · have hd : d ∈ r.takeWhile Sym.isSpace := by
            rw [hr, hlast]
            simp
          have hnot := hrtrim d (by rw [hlast]; simp)
          rw [hgap d hd] at hnot
          cases hnot
      rw [hnil, List.append_nil]
      exact .last rfl
    · have hlen := (List.dropWhile_suffix Sym.isSpace (l := r)).length_le
      have hslen := List.length_pos_iff.2 hs
      have hhead' : ∀ d ∈ (r.dropWhile Sym.isSpace).head?, d.isSpace = false := by
        intro d hd
        have hnot := List.head?_dropWhile_not Sym.isSpace r
        rw [Option.mem_def.1 hd] at hnot
        exact hnot
      have hphrase := ih _ (by rw [List.length_append] at hn; omega) ht
        (fun d hd => hrascii d ((List.dropWhile_suffix _).mem hd)) hhead' (hrtrim.suffix (List.dropWhile_suffix _)) rfl
      have hsame : spelledWords r = spelledWords (r.dropWhile Sym.isSpace) := by
        conv_lhs => rw [← hr]
        exact spelledWords_blank hgap _
      obtain ⟨w', ws, hw'⟩ := List.exists_cons_of_ne_nil hphrase.ne_nil
      rw [hw'] at hphrase
      rw [hsame, hw', ← hr]
      refine .next rfl (fun d hd => ?_) (fun hnil => ?_) hphrase
      · rw [← isSpace_of_ascii (hrascii d (List.takeWhile_subset _ hd))]
        exact hgap d hd
      · refine hglue.imp_right fun hopen => ?_
        rw [hnil, List.nil_append] at hr
        obtain ⟨d, t, hdt⟩ := List.exists_cons_of_ne_nil ht
        rw [hdt] at hr hhead' hw'
        have hd : d = .chr '=' := (hopen d (by rw [← hr]; rfl)).resolve_left (by rw [hhead' d rfl]; decide)
        rw [hd, spelledWords_equals] at hw'
        exact (List.cons.inj hw').1.symm

/-! ## What the classifier accepts -/

/-- What `ClassifySQL` requires of the words and the text of a statement it has answered locally. -/
inductive Accepted (upper : Text) : StatementKind → List Text → Prop
  | transaction {k : StatementKind} {ws : List Text} : k ∈ [.begin, .commit, .rollback] → ws ∈ phrases k →
      Accepted upper k ws
  | autocommit {k : StatementKind} {value : Text} {more : List Text} : value ∈ switches k →
      compactSet upper = text "AUTOCOMMIT=" ++ value → Accepted upper k (text "SET" :: more)
  | names {name : Text} : trim name (text "'\"") = text "UTF8MB4" →
      Accepted upper .setNames [text "SET", text "NAMES", name]

section Acceptance

variable {trimmed upper first : Text} {more : List Text}

theorem bareOrWork_cases (h : bareOrWork (first :: more) = true) :
    first :: more = [first] ∨ first :: more = [first, text "WORK"] := by
  rcases more with _ | ⟨second, _ | ⟨third, more⟩⟩
  · exact .inl rfl
  · refine .inr ?_
    simp only [bareOrWork, isWord] at h
    simpa using h
  · simp [bareOrWork] at h

theorem classifySet_cases {motive : Statement → Prop}
    (accepted : ∀ k, Accepted upper k (text "SET" :: more) → motive { kind := k, sql := trimmed })
    (other : ∀ k reason, k ∉ localKinds → motive { kind := k, sql := trimmed, reason }) :
    motive (classifySet trimmed upper (text "SET" :: more)) := by
  unfold classifySet
  refine iteInduction (fun hon => accepted _ ?_) fun _ => iteInduction (fun hoff => accepted _ ?_) fun _ =>
    iteInduction (fun hnames => accepted _ ?_) fun _ =>
      iteInduction (fun _ => other _ _ (by decide)) fun _ => other _ _ (by decide)
  · rcases hon with hon | hon
    · exact .autocommit (List.mem_cons_self ..) hon
    · exact .autocommit (List.mem_cons_of_mem _ (List.mem_cons_self ..)) hon
  · rcases hoff with hoff | hoff
    · exact .autocommit (List.mem_cons_self ..) hoff
    · exact .autocommit (List.mem_cons_of_mem _ (List.mem_cons_self ..)) hoff
  · obtain ⟨hlen, hname, htrim⟩ := hnames
    obtain ⟨second, third, rfl⟩ : ∃ second third, more = [second, third] :=
      List.length_eq_two.1 (by simpa using hlen)
    have hsecond : second = text "NAMES" := by simpa [isWord] using hname
    rw [hsecond]
    exact .names (Option.some.inj htrim)

/-- The switch by what is answered locally. -/
theorem classifyWords_localCases {motive : Statement → Prop}
    (accepted : ∀ k, Accepted upper k (first :: more) → motive { kind := k, sql := trimmed })
    (other : ∀ k reason, k ∉ localKinds → motive { kind := k, sql := trimmed, reason }) :
    motive (classifyWords trimmed upper (first :: more) first) := by
  unfold classifyWords
  refine iteInduction (fun _ => ?_) fun _ => iteInduction (fun _ => ?_) fun _ => iteInduction (fun _ => ?_) fun _ => ?_
  · exact iteInduction (fun _ => other _ _ (by decide)) fun _ =>
      iteInduction (fun _ => other _ _ (by decide)) fun _ => other _ _ (by decide)
  · exact iteInduction (fun _ => other _ _ (by decide)) fun _ => other _ _ (by decide)
  · exact iteInduction (fun _ => other _ _ (by decide)) fun _ => other _ _ (by decide)
  refine iteInduction (fun hbegin => ?_) fun _ => iteInduction (fun hstart => ?_) fun _ =>
    iteInduction (fun hcommit => ?_) fun _ => iteInduction (fun hrollback => ?_) fun _ => ?_
  · refine iteInduction (fun hwork => accepted _ (.transaction (by decide) ?_)) fun _ => other _ _ (by decide)
    rcases bareOrWork_cases hwork with hw | hw <;> rw [hw, hbegin] <;> decide
  · refine iteInduction (fun hwork => accepted _ (.transaction (by decide) ?_)) fun _ => other _ _ (by decide)
    obtain ⟨second, rfl⟩ : ∃ second, more = [second] := List.length_eq_one_iff.1 (by simpa using hwork.1)
    have hsecond : second = text "TRANSACTION" := by simpa [isWord] using hwork.2
    rw [hstart, hsecond]
    decide
  · refine iteInduction (fun hwork => accepted _ (.transaction (by decide) ?_)) fun _ => other _ _ (by decide)
    rcases bareOrWork_cases hwork with hw | hw <;> rw [hw, hcommit] <;> decide
  · refine iteInduction (fun _ => other _ _ (by decide)) fun _ =>
      iteInduction (fun hwork => accepted _ (.transaction (by decide) ?_)) fun _ => other _ _ (by decide)
    rcases bareOrWork_cases hwork with hw | hw <;> rw [hw, hrollback] <;> decide
  refine iteInduction (fun _ => other _ _ (by decide)) fun _ => iteInduction (fun _ => other _ _ (by decide)) fun _ =>
    iteInduction (fun hset => ?_) fun _ => iteInduction (fun _ => other _ _ (by decide)) fun _ =>
      iteInduction (fun _ => other _ _ (by decide)) fun _ => other _ _ (by decide)
  rw [hset] at accepted ⊢
  exact classifySet_cases accepted other

theorem classifyWords_accepted (h : (classifyWords trimmed upper (first :: more) first).kind ∈ localKinds) :
    Accepted upper (classifyWords trimmed upper (first :: more) first).kind (first :: more) := by
  revert h
  exact classifyWords_localCases (motive := fun st => st.kind ∈ localKinds → Accepted upper st.kind (first :: more))
    (fun _ ha _ => ha) fun _ _ hk h => absurd h hk

end Acceptance

/-! ## Words of accepted statements -/

theorem phrases_plain (k : StatementKind) : ∀ ws ∈ phrases k, ∀ w ∈ ws, Plain w := by
  cases k <;> decide

/-- Words without an equals sign stay as they are. -/
theorem spelledWords_of_fields {v : Text} {ws : List Text} (hf : fields (toUpper v) = ws)
    (hws : ∀ w ∈ ws, fields (spaceEquals w) = [w]) : spelledWords v = ws := by
  rw [spelledWords, fields_spaceEquals, hf, List.flatMap_congr hws]
  simp

/-- A trimmed text is in the grammar when it is in ASCII and has the words. -/
theorem written_iff {v : Text} (hne : v ≠ []) (hhead : ∀ c ∈ v.head?, c.isSpace = false) (htrim : RightTrimmed v)
    (k : StatementKind) : Written k v ↔ (∀ c ∈ v, isAscii c = true) ∧ spelledWords v ∈ phrases k := by
  constructor
  · rintro ⟨ws, hws, hphrase⟩
    obtain ⟨hascii, hwords⟩ := hphrase.spelled (phrases_plain k ws hws)
    exact ⟨hascii, hwords ▸ hws⟩
  · rintro ⟨hascii, hwords⟩
    exact ⟨_, hwords, phrase_spelledWords hne hascii hhead htrim⟩

/-! ## Autocommit -/

/-- The prefixes `ClassifySQL` cuts off a `SET`. -/
def cutScope (compact : Text) : Text :=
  trimPrefix (trimPrefix (trimPrefix (trimPrefix compact (text "SETSESSION")) (text "SET@@SESSION.")) (text "SET@@"))
    (text "SET")

theorem mem_trimPrefix {t p : Text} {c : Sym} (h : c ∈ t) : c ∈ p ∨ c ∈ trimPrefix t p := by
  unfold trimPrefix
  split_ifs with hp
  · obtain ⟨x, rfl⟩ := List.isPrefixOf_iff_prefix.1 hp
    rw [List.drop_left]
    exact List.mem_append.1 h
  · exact .inr h

theorem switches_plain (k : StatementKind) : ∀ value ∈ switches k,
    value ≠ [] ∧ (∀ c ∈ text "AUTOCOMMIT=" ++ value, c.isSpace = false) ∧
      ∀ l ∈ switches k, l <:+ value → l = value := by
  cases k <;> decide

/-- The switch values and what surrounds them have no white space, so none is left in the text. -/
theorem no_space_of_cutScope {compact value : Text} {k : StatementKind} (hv : value ∈ switches k)
    (h : cutScope compact = text "AUTOCOMMIT=" ++ value) : ∀ c ∈ compact, c.isSpace = false := by
  intro c hc
  rcases mem_trimPrefix (p := text "SETSESSION") hc with hc | hc
  · exact (by decide : ∀ c ∈ text "SETSESSION", c.isSpace = false) c hc
  rcases mem_trimPrefix (p := text "SET@@SESSION.") hc with hc | hc
  · exact (by decide : ∀ c ∈ text "SET@@SESSION.", c.isSpace = false) c hc
  rcases mem_trimPrefix (p := text "SET@@") hc with hc | hc
  · exact (by decide : ∀ c ∈ text "SET@@", c.isSpace = false) c hc
  rcases mem_trimPrefix (p := text "SET") hc with hc | hc
  · exact (by decide : ∀ c ∈ text "SET", c.isSpace = false) c hc
  · exact (switches_plain k value hv).2.1 c (h ▸ hc)

/-- What is compared is the words run together. -/
theorem cutScope_words {v value : Text} {k : StatementKind} (hv : value ∈ switches k)
    (h : compactSet (toUpper v) = text "AUTOCOMMIT=" ++ value) :
    cutScope (spelledWords v).flatten = text "AUTOCOMMIT=" ++ value := by
  let blank : Sym → Bool := fun c => ([.chr ' ', .chr '\t', .chr '\r', .chr '\n'] : Text).contains c
  have hblank : ∀ c, blank c = true → c.isSpace = true := by
    intro c hc
    exact (by decide : ∀ c ∈ ([.chr ' ', .chr '\t', .chr '\r', .chr '\n'] : Text), c.isSpace = true) c
      (List.contains_iff_mem.1 hc)
  have hspace := @no_space_of_cutScope ((toUpper v).filter fun c => !blank c) value k hv h
  rw [spelledWords, flatten_fields_spaceEquals]
  have hsame : ((toUpper v).filter fun c => !c.isSpace) = (toUpper v).filter fun c => !blank c := by
    refine List.filter_congr fun c hc => ?_
    cases hb : blank c with
    | true => rw [hblank c hb]
    | false => rw [hspace c (List.mem_filter.2 ⟨hc, by rw [hb]; rfl⟩)]
  rw [hsame]
  exact h

/-- An equals sign and a value that is a word of its own. -/
theorem value_words {r : List Text} {value : Text} {k : StatementKind} (hv : value ∈ switches k)
    (hr : ∀ w ∈ r, w ≠ [] ∧ (w = text "=" ∨ .chr '=' ∉ w)) (hflat : r.flatten = text "=" ++ value)
    (hlast : ∃ l ∈ r.getLast?, l ∈ switches k) : r = [text "=", value] := by
  obtain ⟨hne, -, hshort⟩ := switches_plain k value hv
  rcases r with _ | ⟨w, r⟩
  · cases hflat
  rw [List.forall_mem_cons] at hr
  obtain ⟨c, w', rfl⟩ := List.exists_cons_of_ne_nil hr.1.1
  have hc : c = .chr '=' := (List.cons.inj hflat).1
  have hw : c :: w' = text "=" := hr.1.2.resolve_right fun h => h (hc ▸ List.mem_cons_self ..)
  rw [hw] at hflat hlast ⊢
  have hflat : r.flatten = value := List.append_cancel_left hflat
  rcases List.eq_nil_or_concat r with rfl | ⟨start, l, rfl⟩
  · exact absurd hflat.symm hne
  obtain ⟨l', hl', hswitch⟩ := hlast
  have hl : l' = l := by
    rw [List.concat_eq_append, ← List.cons_append, List.getLast?_concat] at hl'
    exact (Option.some.inj hl').symm
  rw [List.concat_eq_append, List.flatten_append, List.flatten_singleton] at hflat
  have hvalue := hshort l (hl ▸ hswitch) ⟨_, hflat⟩
  have hempty : start.flatten = [] := by
    rw [hvalue] at hflat
    simpa using hflat
  have hstart : start = [] := by
    rw [List.eq_nil_iff_forall_not_mem]
    intro w hw
    exact (hr.2 w (by simp [hw])).1 (List.flatten_eq_nil_iff.1 hempty w hw)
  rw [hstart, hvalue]
  rfl

theorem unbroken_phrases (k : StatementKind) (hk : k = .autocommitOn ∨ k = .autocommitOff) :
    ∀ ws ∈ phrases k, unbroken k ws = true := by
  rcases hk with rfl | rfl <;> decide

/-- An accepted `SET` of autocommit is in the grammar, white space and case apart, when nothing in it is
broken. -/
theorem unbroken_iff {v value : Text} {more : List Text} {k : StatementKind} (hv : value ∈ switches k)
    (hf : fields (toUpper v) = text "SET" :: more) (h : compactSet (toUpper v) = text "AUTOCOMMIT=" ++ value) :
    spelledWords v ∈ phrases k ↔ unbroken k (spelledWords v) = true := by
  have hk : k = .autocommitOn ∨ k = .autocommitOff := by
    cases k
    case autocommitOn => exact .inl rfl
    case autocommitOff => exact .inr rfl
    all_goals cases hv
  have hphrase : ∀ target ∈ targets, target ++ [text "=", value] ∈ phrases k := by
    intro target ht
    rcases hk with rfl | rfl <;> exact List.mem_flatMap.2 ⟨target, ht, List.mem_map.2 ⟨value, hv, rfl⟩⟩
  refine ⟨unbroken_phrases k hk _, fun hunbroken => ?_⟩
  have hwords : ∀ w ∈ spelledWords v, w ≠ [] ∧ (w = text "=" ∨ .chr '=' ∉ w) :=
    fun w hw => ⟨(mem_fields hw).1, mem_fields_spaceEquals hw⟩
  have hflat := cutScope_words hv h
  obtain ⟨rest, hrest⟩ : ∃ rest, spelledWords v = text "SET" :: rest := by
    rw [spelledWords, fields_spaceEquals, hf]
    exact ⟨_, rfl⟩
  rw [hrest] at hflat hunbroken hwords ⊢
  rw [List.forall_mem_cons] at hwords
  rw [unbroken, Bool.and_eq_true] at hunbroken
  obtain ⟨hname, hlast⟩ := hunbroken
  -- what follows the name is the equals sign and the value
  have tail : ∀ target r : List Text, rest = target ++ r →
      cutScope (text "SET" :: rest).flatten = text "AUTOCOMMIT" ++ r.flatten → rest = target ++ [text "=", value] := by
    intro target r hr hcut
    rw [hcut] at hflat
    have hr' : r.flatten = text "=" ++ value := @List.append_cancel_left _ (text "AUTOCOMMIT") _ _ hflat
    have hne : r ≠ [] := by
      rintro rfl
      cases hr'
    rw [hr, ← List.cons_append, List.getLast?_append_of_ne_nil _ hne, Option.any_eq_true] at hlast
    obtain ⟨l, hl, hswitch⟩ := hlast
    rw [hr] at hwords ⊢
    congr 1
    exact value_words hv (fun w hw => hwords.2 w (List.mem_append_right _ hw)) hr'
      ⟨l, hl, List.contains_iff_mem.1 hswitch⟩
  rcases rest with _ | ⟨second, r⟩
  · cases hname
  simp only [isWord, List.getElem?_cons_succ, List.getElem?_cons_zero, Bool.or_eq_true, Bool.and_eq_true, beq_iff_eq,
    Option.some.injEq] at hname
  rcases hname with ((rfl | rfl) | rfl) | ⟨rfl, hname⟩
  · rw [tail [text "AUTOCOMMIT"] r rfl rfl]
    exact hphrase [text "SET", text "AUTOCOMMIT"] (by decide)
  · rw [tail [text "@@AUTOCOMMIT"] r rfl rfl]
    exact hphrase [text "SET", text "@@AUTOCOMMIT"] (by decide)
  · rw [tail [text "@@SESSION.AUTOCOMMIT"] r rfl rfl]
    exact hphrase [text "SET", text "@@SESSION.AUTOCOMMIT"] (by decide)
  · rcases r with _ | ⟨third, r⟩
    · cases hname
    obtain rfl : third = text "AUTOCOMMIT" := Option.some.inj hname
    rw [tail [text "SESSION", text "AUTOCOMMIT"] r rfl rfl]
    exact hphrase [text "SET", text "SESSION", text "AUTOCOMMIT"] (by decide)

/-! ## The character set -/

/-- An accepted name is the character set between quotes. -/
theorem name_split {name : Text} (h : trim name (text "'\"") = text "UTF8MB4") :
    ∃ a b, name = a ++ (text "UTF8MB4" ++ b) ∧ (∀ c ∈ a, isNameQuote c = true) ∧ ∀ c ∈ b, isNameQuote c = true := by
  change (name.dropWhile isNameQuote).rdropWhile isNameQuote = _ at h
  refine ⟨name.takeWhile isNameQuote, (name.dropWhile isNameQuote).rtakeWhile isNameQuote, ?_, ?_, ?_⟩
  · rw [← h, List.rdropWhile_append_rtakeWhile, List.takeWhile_append_dropWhile]
  · exact fun c hc => List.mem_takeWhile_imp hc
  · exact fun c hc => List.mem_rtakeWhile_imp hc

/-- The quotes of an accepted name are a pair when nothing but the name, or the name in one pair of quotes, is
there. -/
theorem paired_iff {name : Text} (h : trim name (text "'\"") = text "UTF8MB4") :
    paired name = true ↔ name ∈ [text "UTF8MB4", text "'UTF8MB4'", text "\"UTF8MB4\""] := by
  constructor
  · intro hp
    obtain ⟨a, b, rfl, ha, hb⟩ := name_split h
    have hfront : (a ++ (text "UTF8MB4" ++ b)).takeWhile isNameQuote = a := by
      rw [List.takeWhile_append_of_pos ha]
      exact List.append_nil a
    have hback : (a ++ (text "UTF8MB4" ++ b)).rtakeWhile isNameQuote = b := by
      rw [← List.append_assoc, List.rtakeWhile, List.reverse_append,
        List.takeWhile_append_of_pos fun c hc => hb c (List.mem_reverse.1 hc), List.reverse_append,
        List.reverse_reverse, List.reverse_append]
      rfl
    rw [paired, hfront, hback, Bool.and_eq_true, beq_iff_eq, decide_eq_true_eq] at hp
    obtain ⟨rfl, hlen⟩ := hp
    rcases a with _ | ⟨c, _ | ⟨d, a⟩⟩
    · decide
    · have hc : c = .chr '\'' ∨ c = .chr '"' := by simpa [isNameQuote, text] using ha c List.mem_cons_self
      rcases hc with rfl | rfl <;> decide
    · simp at hlen
  · intro hname
    exact (by decide : ∀ name ∈ [text "UTF8MB4", text "'UTF8MB4'", text "\"UTF8MB4\""], paired name = true) name hname

theorem fields_name {name : Text} (h : trim name (text "'\"") = text "UTF8MB4") (hspace : ∀ c ∈ name, c.isSpace = false) :
    fields (spaceEquals name) = [name] := by
  obtain ⟨a, b, rfl, ha, hb⟩ := name_split h
  have hplain : .chr '=' ∉ a ++ (text "UTF8MB4" ++ b) := by
    have hquote : isNameQuote (.chr '=') = false := by decide
    rw [List.mem_append, List.mem_append, not_or, not_or]
    refine ⟨fun he => ?_, by decide, fun he => ?_⟩
    · rw [ha _ he] at hquote
      cases hquote
    · rw [hb _ he] at hquote
      cases hquote
  have hword := @fields_word (a ++ (text "UTF8MB4" ++ b)) [] (by simp [text]) hspace nofun
  rw [List.append_nil] at hword
  rw [spaceEquals_plain hplain, hword]
  rfl

/-! ## Recognition -/

theorem rightTrimmed_stripCommentsLoop {fuel : Nat} {value : Text} (h : RightTrimmed value) :
    RightTrimmed (stripCommentsLoop fuel value) := by
  induction fuel generalizing value with
  | zero => exact h
  | succ fuel ih =>
    rw [stripCommentsLoop_succ]
    cases comment? value with
    | none => exact h
    | some x =>
      simp only
      cases after x.1 x.2 with
      | none => exact nofun
      | some rest => exact ih (rightTrimmed_trimSpace rest)

/-- The statement is one of its kind in the grammar exactly when its spelling is regular. -/
theorem written_iff_regular {v : Text} {ws : List Text} {k : StatementKind} (hne : v ≠ [])
    (hhead : ∀ c ∈ v.head?, c.isSpace = false) (htrim : RightTrimmed v) (hf : fields (toUpper v) = ws)
    (h : Accepted (toUpper v) k ws) : Written k v ↔ regular k v = true := by
  have hascii : (∀ c ∈ v, isAscii c = true) ↔ v.all isAscii = true := List.all_eq_true.symm
  rw [written_iff hne hhead htrim, hascii, regular, Bool.and_eq_true]
  refine and_congr_right fun _ => ?_
  cases h with
  | transaction hk hws =>
    have hwords := spelledWords_of_fields hf fun w hw => (phrases_plain k ws hws w hw).2
    rw [hwords]
    refine iff_of_true hws ?_
    exact (by decide : ∀ k ∈ [.begin, .commit, .rollback], ∀ ws ∈ phrases k, wellSpelled ws k = true) k hk ws hws
  | autocommit hv hcompact =>
    rw [unbroken_iff hv hf hcompact]
    cases k
    case autocommitOn => rfl
    case autocommitOff => rfl
    all_goals cases hv
  | @names name htrim =>
    have hspace : ∀ c ∈ name, c.isSpace = false := fun c hc => ((mem_fields (t := toUpper v) (by rw [hf]; simp)).2 c hc).2
    have hwords : spelledWords v = [text "SET", text "NAMES", name] := by
      refine spelledWords_of_fields hf ?_
      simp only [List.forall_mem_cons]
      exact ⟨by decide, by decide, fields_name htrim hspace, nofun⟩
    rw [hwords]
    change _ ↔ paired name = true
    rw [paired_iff htrim]
    simp only [phrases, List.mem_map, List.cons.injEq, true_and, and_true, exists_eq_right]

/-- A statement the gateway answers itself is, leading comments and a semicolon at its end aside, in the grammar
of its kind exactly when it is in ASCII, the words of a `SET` of autocommit are neither broken up nor run together
nor repeated, and the quotes around a character set are a pair. -/
theorem local_statement_written_iff (q : Text) (h : (classifySQL q).kind ∈ localKinds) :
    Written (classifySQL q).kind (visible q) ↔ regular (classifySQL q).kind (visible q) = true := by
  have he : (classifySQL q).kind ≠ .empty := fun he => absurd (he ▸ h) (by decide)
  have hu : (classifySQL q).kind ≠ .unsupported := fun hu => absurd (hu ▸ h) (by decide)
  obtain ⟨first, more, hf, hq⟩ := classifySQL_words he hu
  rw [hq] at h ⊢
  have hne : visible q ≠ [] := by
    intro hnil
    rw [visible] at hnil
    rw [hnil] at hf
    cases hf
  refine written_iff_regular hne ?_ ?_ hf (classifyWords_accepted h)
  · exact head_of_dropWhile (dropWhile_visible q)
  · exact rightTrimmed_stripCommentsLoop (rightTrimmed_trimSpace _)

theorem local_statement_written_iff_set :
    (classifySQL (text "/* pool */ set @@session.autocommit =\tOFF;")).kind = .autocommitOff ∧
      Written (classifySQL (text "/* pool */ set @@session.autocommit =\tOFF;")).kind
        (visible (text "/* pool */ set @@session.autocommit =\tOFF;")) :=
  ⟨by decide +kernel, (local_statement_written_iff _ (by decide +kernel)).2 (by decide +kernel)⟩

/-- The classifier takes a broken word, a scope that runs into the name, unmatched quotes and a letter outside
ASCII for statements of the grammar. -/
theorem local_statements_misread :
    ((classifySQL (text "SET AUTO COMMIT=1")).kind = .autocommitOn ∧
      ¬Written .autocommitOn (visible (text "SET AUTO COMMIT=1"))) ∧
    ((classifySQL (text "SET SESSIONAUTOCOMMIT=0")).kind = .autocommitOff ∧
      ¬Written .autocommitOff (visible (text "SET SESSIONAUTOCOMMIT=0"))) ∧
    ((classifySQL (text "SET NAMES 'utf8mb4\"")).kind = .setNames ∧
      ¬Written .setNames (visible (text "SET NAMES 'utf8mb4\""))) ∧
    ((classifySQL (text "BEGıN")).kind = .begin ∧ ¬Written .begin (visible (text "BEGıN"))) := by
  have hodd : ∀ k v, (v.all isAscii && (phrases k).contains (spelledWords v)) = false → ¬Written k v := by
    rintro k v hv ⟨ws, hws, hphrase⟩
    obtain ⟨hascii, hwords⟩ := hphrase.spelled (phrases_plain k ws hws)
    rw [List.all_eq_true.2 hascii, hwords, List.contains_iff_mem.2 hws] at hv
    cases hv
  exact ⟨⟨by decide +kernel, hodd _ _ (by decide +kernel)⟩, ⟨by decide +kernel, hodd _ _ (by decide +kernel)⟩,
    ⟨by decide +kernel, hodd _ _ (by decide +kernel)⟩, ⟨by decide +kernel, hodd _ _ (by decide +kernel)⟩⟩

end Accelerator.Engine
