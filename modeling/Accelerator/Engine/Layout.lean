/-
What the classifier makes of a layout. The words, the comments in front and the fragments without white space
are found in every layout of a query, so a kind can be read off the form of its text. Four tests read the spaces
themselves: the two file exports, the diagnostic `SHOW` statements, `RETURNING`, and the search for a second
statement, which reads comments as text. They alone tell one layout from another.
-/
import Accelerator.Engine.Reclassify
import Accelerator.Sql.Layout

namespace Accelerator.Engine

open Strings Sql

/-! ## Comments in a form -/

theorem dashSpace_eq (o : Option Sym) : dashSpace o = o.any isGap := by
  rcases o with _ | c | b
  · rfl
  · simp [dashSpace, isGap, Bool.or_assoc]
  · rfl

/-- The length of the opening in which the end of a comment is not searched. -/
def openingLength (p : Text) : Nat := if p = text "*/" then 2 else 0

theorem comment?_shape {t p body : Text} (h : comment? t = some (p, body)) :
    (p = text "*/" ∨ p = text "\n") ∧ openingLength p ≤ t.length ∧ body = t.drop (openingLength p) := by
  unfold comment? at h
  split_ifs at h with hblock hhash hdash
  · cases h
    exact ⟨.inl rfl, (List.isPrefixOf_iff_prefix.1 hblock).length_le, rfl⟩
  · cases h
    exact ⟨.inr rfl, Nat.zero_le _, rfl⟩
  · cases h
    exact ⟨.inr rfl, Nat.zero_le _, rfl⟩

/-- A comment at the front is seen in the form. -/
theorem comment?_form (t : Text) : (comment? (form t)).map Prod.fst = (comment? t).map Prod.fst := by
  have hpre : ∀ p : Text, (∀ d ∈ p, isSign d = true) → hasPrefix (form t) p = hasPrefix t p := by
    intro p hp
    rw [hasPrefix, hasPrefix, Bool.eq_iff_iff, List.isPrefixOf_iff_prefix, List.isPrefixOf_iff_prefix, prefix_form hp]
  have hdash : (hasPrefix t (text "--") && ((form t).length == 2 || dashSpace ((form t).drop 2).head?)) =
      (hasPrefix t (text "--") && (t.length == 2 || dashSpace (t.drop 2).head?)) := by
    cases h : hasPrefix t (text "--") with
    | false => rfl
    | true =>
      obtain ⟨r, rfl⟩ := List.isPrefixOf_iff_prefix.1 h
      have hlen : ∀ x : Text, ((text "--" ++ x).length == 2) = x.isEmpty := by
        intro x
        cases x <;> simp [text]
      have hdrop : ∀ x : Text, (text "--" ++ x).drop 2 = x := fun _ => rfl
      have hempty : (form r).isEmpty = r.isEmpty := by
        rw [Bool.eq_iff_iff, List.isEmpty_iff, List.isEmpty_iff, form_eq_nil]
      rw [form_sign (by decide), hlen, hlen, hdrop, hdrop, dashSpace_eq, dashSpace_eq,
        head?_form isGap_keyUpper fun _ h => h, hempty]
  unfold comment?
  rw [hpre _ (by decide), hpre _ (by decide), hpre _ (by decide), hdash]
  split_ifs <;> rfl

theorem comment?_space {c : Sym} (hc : c.isSpace = true) (t : Text) : comment? (c :: t) = none := by
  rcases @comment?_append [] c t (.inl hc) with h | h
  · cases h
  · exact h

/-! ## The front -/

/-- `Front t w`: what is left of `t` when the white space and the comments in front are cut is `w`. -/
inductive Front : Text → Text → Prop
  | stop {t : Text} : comment? t = none → (∀ c ∈ t.head?, c.isSpace = false) → Front t t
  | space {c : Sym} {t w : Text} : c.isSpace = true → Front t w → Front (c :: t) w
  | comment {t p body w : Text} : comment? t = some (p, body) → Front ((after p body).getD []) w → Front t w

theorem length_getD_after {t p body : Text} (hc : comment? t = some (p, body)) :
    ((after p body).getD []).length < t.length := by
  obtain ⟨hp, hbody⟩ := comment?_some hc
  have hpos := List.length_pos_iff.2 hp
  cases ha : after p body with
  | none =>
    cases t with
    | nil => cases hc
    | cons c t => simp
  | some rest =>
    have hlen := length_after ha
    rw [Option.getD_some]
    omega

theorem front_exists (t : Text) : ∃ w, Front t w := by
  induction hn : t.length using Nat.strong_induction_on generalizing t with
  | _ n ih =>
    subst hn
    cases hc : comment? t with
    | some x =>
      obtain ⟨p, body⟩ := x
      obtain ⟨w, hw⟩ := ih _ (length_getD_after hc) _ rfl
      exact ⟨w, .comment hc hw⟩
    | none =>
      rcases t with _ | ⟨c, t⟩
      · exact ⟨[], .stop hc fun c hc => by cases hc⟩
      cases hs : c.isSpace with
      | true =>
        obtain ⟨w, hw⟩ := ih t.length (by simp) t rfl
        exact ⟨w, .space hs hw⟩
      | false => exact ⟨c :: t, .stop hc fun d hd => by cases hd; exact hs⟩

theorem Front.of_space {c : Sym} {t w : Text} (hc : c.isSpace = true) (h : Front (c :: t) w) : Front t w := by
  cases h with
  | stop _ hhead =>
    rw [hhead c rfl] at hc
    cases hc
  | space _ h => exact h
  | comment hcomment _ =>
    rw [comment?_space hc] at hcomment
    cases hcomment

theorem Front.of_spaces {sp t w : Text} (hs : ∀ c ∈ sp, c.isSpace = true) (h : Front (sp ++ t) w) : Front t w := by
  induction sp with
  | nil => exact h
  | cons c sp ih => exact ih (fun d hd => hs d (List.mem_cons_of_mem _ hd)) (h.of_space (hs c List.mem_cons_self))

theorem Front.spaces {sp t w : Text} (hs : ∀ c ∈ sp, c.isSpace = true) (h : Front t w) : Front (sp ++ t) w := by
  induction sp with
  | nil => exact h
  | cons c sp ih => exact .space (hs c List.mem_cons_self) (ih fun d hd => hs d (List.mem_cons_of_mem _ hd))

theorem Front.of_comment {t p body w : Text} (hc : comment? t = some (p, body)) (h : Front t w) :
    Front ((after p body).getD []) w := by
  cases h with
  | stop hnone _ =>
    rw [hc] at hnone
    cases hnone
  | space hspace _ =>
    rw [comment?_space hspace] at hc
    cases hc
  | comment hcomment h =>
    rw [hc] at hcomment
    cases hcomment
    exact h

theorem Front.of_stop {t w : Text} (hc : comment? t = none) (hhead : ∀ c ∈ t.head?, c.isSpace = false)
    (h : Front t w) : w = t := by
  cases h with
  | stop _ _ => rfl
  | @space c t w hspace _ =>
    rw [hhead c rfl] at hspace
    cases hspace
  | comment hcomment _ =>
    rw [hc] at hcomment
    cases hcomment

/-! ## Fronts of two layouts -/

theorem keyUpper_ending {p : Text} (hp : p = text "*/" ∨ p = text "\n") : ∀ d ∈ p, ∀ c, keyUpper c = d ↔ c = d := by
  intro d hd c
  rcases hp with rfl | rfl
  · rcases List.mem_pair.1 hd with rfl | rfl
    · exact keyUpper_low (by decide)
    · exact keyUpper_low (by decide)
  · cases List.mem_singleton.1 hd
    exact keyUpper_low (by decide)

theorem piece_snd_comment {c : Sym} {cs p body : Text} (hc : comment? (c :: cs) = some (p, body)) :
    (piece c cs).2 = (after p body).getD [] := by
  rw [@piece_comment _ p body [] cs c hc (by simp) (List.append_nil _), List.append_nil]

/-- A comment in front of a query ends in front of the same rest in every layout. -/
theorem comment_relaid {c : Sym} {cs k k' rest' p body : Text} (hc : comment? (c :: cs) = some (p, body))
    (hsplit : c :: cs = k ++ (piece c cs).2) (hkey : k'.map keyUpper = k.map keyUpper)
    (hrest : Relaid (piece c cs).2 rest') (hform : form (c :: cs) = form (k' ++ rest')) :
    ∃ body', comment? (k' ++ rest') = some (p, body') ∧ (after p body').getD [] = rest' := by
  have hpiece := piece_snd_comment hc
  have hopen := comment?_form (c :: cs)
  rw [hform, comment?_form, hc] at hopen
  obtain ⟨⟨p', body'⟩, hc', hp⟩ := Option.map_eq_some_iff.1 hopen
  cases hp
  refine ⟨body', hc', ?_⟩
  obtain ⟨hending, hlen, hbody⟩ := comment?_shape hc
  obtain ⟨-, -, hbody'⟩ := comment?_shape hc'
  generalize openingLength p = n at hlen hbody hbody'
  generalize (piece c cs).2 = rest at hsplit hrest hpiece
  -- the opening lies inside the comment, so both searches run in the comment and then in the rest
  have hk : n ≤ k.length := by
    have hsuffix := (getD_after_suffix p body).length_le
    have htotal := congrArg List.length hsplit
    rw [← hpiece, hbody, List.length_drop] at hsuffix
    rw [List.length_append] at htotal
    omega
  have hk' : n ≤ k'.length := by
    have := congrArg List.length hkey
    rw [List.length_map, List.length_map] at this
    omega
  rw [hsplit, List.drop_append_of_le_length hk] at hbody
  rw [List.drop_append_of_le_length hk'] at hbody'
  have hmap := after_map (keyUpper_ending hending)
  have hinside : (after p (k'.drop n)).map (List.map keyUpper) = (after p (k.drop n)).map (List.map keyUpper) := by
    rw [← hmap, ← hmap, List.map_drop, List.map_drop, hkey]
  have hpne : p ≠ [] := (comment?_some hc).1
  cases ha : after p body with
  | none =>
    rw [ha, Option.getD_none] at hpiece
    subst hpiece
    cases hrest.eq_nil rfl
    rw [List.append_nil] at hbody hbody'
    rw [← hbody, ha, Option.map_none, Option.map_eq_none_iff] at hinside
    rw [hbody', hinside, Option.getD_none]
  | some r =>
    rw [ha, Option.getD_some] at hpiece
    subst hpiece
    rw [hbody] at ha
    rw [after_eq_nil hpne ha, Option.map_some, Option.map_eq_some_iff] at hinside
    obtain ⟨r', hr', hnil⟩ := hinside
    rw [List.map_nil, List.map_eq_nil_iff] at hnil
    subst hnil
    rw [hbody', after_append hpne hr', Option.getD_some, List.nil_append]

theorem piece_of_isSpace {c : Sym} (hc : c.isSpace = true) (cs : Text) : (piece c cs).2 = cs := by
  have hne : ∀ d : Char, isSpaceRune d = false → c ≠ .chr d := by
    rintro d hd rfl
    rw [Sym.isSpace, hd] at hc
    cases hc
  rcases piece_cases c cs with ⟨-, h⟩ | ⟨h, -⟩ | ⟨-, h⟩ | ⟨h, -⟩ | ⟨-, h⟩
  · rw [h]
  · exfalso
    rcases List.mem_cons.1 h with h | h
    · exact hne _ (by decide) h
    · rcases List.mem_pair.1 h with h | h
      · exact hne _ (by decide) h
      · exact hne _ (by decide) h
  · rw [h]
  · rcases h with h | h | h
    all_goals exact absurd h (hne _ (by decide))
  · rw [h]

/-- Two layouts of a query leave two layouts of one text behind their fronts. -/
theorem front_relaid {q q' w : Text} (h : Relaid q q') (hw : Front q w) : ∃ w', Front q' w' ∧ form w = form w' := by
  induction h generalizing w with
  | nil => exact ⟨w, hw, rfl⟩
  | gap _ _ hg hg' _ ih =>
    obtain ⟨w', hw', hform⟩ := ih (hw.of_spaces fun c hc => isSpace_of_isGap (hg c hc))
    exact ⟨w', hw'.spaces fun c hc => isSpace_of_isGap (hg' c hc), hform⟩
  | @read c cs k k' rest' hgap hsplit hkey hquote hrest ih =>
    have hform := (Relaid.read hgap hsplit hkey hquote hrest).form_eq
    cases hs : c.isSpace with
    | true =>
      -- white space outside a layout is read alone, and stays as it is
      rw [piece_of_isSpace hs] at hsplit ih
      have hk : [c] = k := List.append_cancel_right (show [c] ++ cs = k ++ cs from hsplit)
      obtain ⟨w', hw', hw''⟩ := ih (hw.of_space hs)
      refine ⟨w', hw'.spaces fun d hd => ?_, hw''⟩
      have hmem : keyUpper d ∈ k'.map keyUpper := List.mem_map_of_mem hd
      rw [hkey, ← hk, List.map_singleton, List.mem_singleton] at hmem
      rw [← isSpace_keyUpper, hmem, isSpace_keyUpper, hs]
    | false =>
      cases hc : comment? (c :: cs) with
      | some x =>
        obtain ⟨p, body⟩ := x
        obtain ⟨body', hc', hrest'⟩ := comment_relaid hc hsplit hkey hrest hform
        rw [piece_snd_comment hc] at ih
        obtain ⟨w', hw', hw''⟩ := ih (hw.of_comment hc)
        exact ⟨w', .comment hc' (hrest' ▸ hw'), hw''⟩
      | none =>
        have hstop := hw.of_stop hc fun d hd => by cases hd; exact hs
        subst hstop
        refine ⟨k' ++ rest', .stop ?_ ?_, hform⟩
        · have hnone := comment?_form (c :: cs)
          rwa [hform, comment?_form, hc, Option.map_none, Option.map_eq_none_iff] at hnone
        · have hhead := head?_form isSpace_keyUpper (fun _ => isSpace_of_isGap) (c :: cs)
          rw [hform, head?_form isSpace_keyUpper fun _ => isSpace_of_isGap, List.head?_cons, Option.any_some, hs,
            Option.any_eq_false] at hhead
          exact hhead

/-! ## The end -/

/-- `Closing t z`: behind `t`, trimming cuts `z`, the white space and one semicolon. -/
inductive Closing (t : Text) : Text → Prop
  | blank {sp : Text} : (∀ c ∈ sp, c.isSpace = true) → t.getLast? ≠ some (.chr ';') → Closing t sp
  | semicolon {sp sp' : Text} : (∀ c ∈ sp, c.isSpace = true) → (∀ c ∈ sp', c.isSpace = true) →
      Closing t (sp ++ .chr ';' :: sp')

/-- A text without the white space at its end and one semicolon. -/
def stripEnd (w : Text) : Text := (trimSuffix (w.rdropWhile Sym.isSpace) (text ";")).rdropWhile Sym.isSpace

/-- What `stripLeadingComments` leaves of a text that begins with no white space and no comment: a bare double
dash is a comment once it ends the text. -/
def ending (w : Text) : Text := if stripEnd w = text "--" then [] else stripEnd w

theorem rdropWhile_append_spaces {t sp : Text} (ht : RightTrimmed t) (hs : ∀ c ∈ sp, c.isSpace = true) :
    (t ++ sp).rdropWhile Sym.isSpace = t := by
  induction sp using List.reverseRecOn with
  | nil => rw [List.append_nil, rdropWhile_of_rightTrimmed ht]
  | append_singleton sp c ih =>
    rw [← List.append_assoc, List.rdropWhile_concat_pos _ _ _ (hs c (by simp))]
    exact ih fun d hd => hs d (List.mem_append_left _ hd)

theorem trimSuffix_semicolon (t : Text) : trimSuffix (t ++ [.chr ';']) (text ";") = t := by
  have hsuffix : (text ";").isSuffixOf (t ++ [.chr ';']) = true := List.isSuffixOf_iff_suffix.2 ⟨t, rfl⟩
  rw [trimSuffix, if_pos hsuffix, List.length_append]
  exact List.take_left

theorem trimSuffix_of_ne {t : Text} (h : t.getLast? ≠ some (.chr ';')) : trimSuffix t (text ";") = t := by
  rw [trimSuffix, if_neg]
  intro hsuffix
  obtain ⟨x, rfl⟩ := List.isSuffixOf_iff_suffix.1 hsuffix
  exact h (by simp [text])

theorem stripEnd_append {t z : Text} (ht : RightTrimmed t) (hz : Closing t z) : stripEnd (t ++ z) = t := by
  cases hz with
  | blank hs hne => rw [stripEnd, rdropWhile_append_spaces ht hs, trimSuffix_of_ne hne, rdropWhile_of_rightTrimmed ht]
  | @semicolon sp sp' hs hs' =>
    have hlast : RightTrimmed (t ++ sp ++ [.chr ';']) := by
      intro c hc
      rw [List.getLast?_concat] at hc
      cases hc
      decide
    rw [stripEnd, show t ++ (sp ++ .chr ';' :: sp') = (t ++ sp ++ [.chr ';']) ++ sp' by simp,
      rdropWhile_append_spaces hlast hs', trimSuffix_semicolon, rdropWhile_append_spaces ht hs]

theorem rdropWhile_split (t : Text) :
    ∃ sp, (∀ c ∈ sp, c.isSpace = true) ∧ t = t.rdropWhile Sym.isSpace ++ sp :=
  ⟨t.rtakeWhile Sym.isSpace, fun _ hc => List.mem_rtakeWhile_imp hc, List.rdropWhile_append_rtakeWhile.symm⟩

theorem stripEnd_split (w : Text) : RightTrimmed (stripEnd w) ∧ ∃ z, w = stripEnd w ++ z ∧ Closing (stripEnd w) z := by
  refine ⟨rightTrimmed_rdropWhile _, ?_⟩
  obtain ⟨sp', hs', hw⟩ := rdropWhile_split w
  have htrimmed := rightTrimmed_rdropWhile w
  rw [stripEnd]
  generalize w.rdropWhile Sym.isSpace = v at *
  subst hw
  by_cases hlast : v.getLast? = some (.chr ';')
  · obtain ⟨x, rfl⟩ := List.getLast?_eq_some_iff.1 hlast
    obtain ⟨sp, hs, hx⟩ := rdropWhile_split x
    rw [trimSuffix_semicolon]
    refine ⟨sp ++ .chr ';' :: sp', ?_, .semicolon hs hs'⟩
    rw [← List.append_assoc _ sp, ← hx, List.append_assoc]
    rfl
  · rw [trimSuffix_of_ne hlast, rdropWhile_of_rightTrimmed htrimmed]
    exact ⟨sp', rfl, .blank hs' hlast⟩

/-! ## Cutting at both ends -/

theorem stripCommentsLoop_fuel {n : Nat} {value : Text} (h : value.length ≤ n) :
    stripCommentsLoop n value = stripCommentsLoop value.length value := by
  induction n using Nat.strong_induction_on generalizing value with
  | _ n ih =>
    rcases value with _ | ⟨c, cs⟩
    · cases n <;> rfl
    rcases n with _ | n
    · cases h
    rw [List.length_cons] at h ⊢
    rw [stripCommentsLoop_succ, stripCommentsLoop_succ]
    cases hc : comment? (c :: cs) with
    | none => rfl
    | some x =>
      obtain ⟨p, body⟩ := x
      have hlt := length_getD_after hc
      dsimp only
      cases ha : after p body with
      | none => rfl
      | some rest =>
        have hle := length_trimSpace rest
        rw [ha, Option.getD_some, List.length_cons] at hlt
        dsimp only
        rw [ih n (by omega) (by omega), ih cs.length (by omega) (by omega)]

theorem stripLeadingComments_space {c : Sym} (hc : c.isSpace = true) (t : Text) :
    stripLeadingComments (c :: t) = stripLeadingComments t := by
  have htrim : trimSpace (c :: t) = trimSpace t := by rw [trimSpace, trimSpace, List.dropWhile_cons_of_pos hc]
  rw [stripLeadingComments, stripLeadingComments, htrim]

theorem trimSpace_of_trimmed {t : Text} (ht : RightTrimmed t) (hhead : ∀ c ∈ t.head?, c.isSpace = false) :
    trimSpace t = t := by
  have hfront : t.dropWhile Sym.isSpace = t := by
    cases t with
    | nil => rfl
    | cons c t =>
      have hc := hhead c rfl
      rw [List.dropWhile_cons_of_neg (by rw [hc]; decide)]
  rw [trimSpace, hfront, rdropWhile_of_rightTrimmed ht]

theorem stripLeadingComments_stop {t : Text} (ht : RightTrimmed t) (hhead : ∀ c ∈ t.head?, c.isSpace = false)
    (hc : comment? t = none) : stripLeadingComments t = t := by
  rw [stripLeadingComments, trimSpace_of_trimmed ht hhead]
  cases t with
  | nil => rfl
  | cons c t => rw [List.length_cons, stripCommentsLoop_succ, hc]

theorem stripLeadingComments_comment {t p body : Text} (ht : RightTrimmed t) (hc : comment? t = some (p, body)) :
    stripLeadingComments t = ((after p body).map stripLeadingComments).getD [] := by
  rcases t with _ | ⟨c, t⟩
  · cases hc
  have hhead : ∀ d ∈ (c :: t).head?, d.isSpace = false := by
    intro d hd
    cases hd
    rw [← Bool.not_eq_true]
    intro hs
    rw [comment?_space hs] at hc
    cases hc
  have hlt := length_getD_after hc
  rw [stripLeadingComments, trimSpace_of_trimmed ht hhead, List.length_cons, stripCommentsLoop_succ, hc]
  dsimp only
  cases ha : after p body with
  | none => rfl
  | some rest =>
    have hle := length_trimSpace rest
    rw [ha, Option.getD_some, List.length_cons] at hlt
    exact stripCommentsLoop_fuel (by omega)

theorem Closing.suffix {t u z : Text} (hz : Closing t z) (hu : u <:+ t) : Closing u z := by
  cases hz with
  | semicolon hs hs' => exact .semicolon hs hs'
  | blank hs hne =>
    refine .blank hs fun hlast => hne ?_
    obtain ⟨x, rfl⟩ := hu
    rw [List.getLast?_append_of_ne_nil _ (by rintro rfl; cases hlast)]
    exact hlast

/-- What stands behind a part of the end is an end. -/
theorem Closing.behind {t z z' : Text} (hz : Closing t z) (h : z' <:+ z) : Closing [] z' := by
  cases hz with
  | blank hs _ => exact .blank (fun c hc => hs c (h.mem hc)) (by simp)
  | @semicolon sp sp' hs hs' =>
    induction sp with
    | nil =>
      rcases List.suffix_cons_iff.1 h with rfl | h
      · exact .semicolon hs hs'
      · exact .blank (fun c hc => hs' c (h.mem hc)) (by simp)
    | cons c sp ih =>
      rcases List.suffix_cons_iff.1 h with rfl | h
      · exact .semicolon hs hs'
      · exact ih (fun d hd => hs d (List.mem_cons_of_mem _ hd)) h

theorem Closing.head {t z : Text} {c : Sym} (hz : Closing t (c :: z)) : c.isSpace = true ∨ c = .chr ';' := by
  generalize hcz : c :: z = y at hz
  cases hz with
  | blank hs _ => exact .inl (hs c (hcz ▸ List.mem_cons_self))
  | @semicolon sp sp' hs hs' =>
    rcases sp with _ | ⟨d, sp⟩
    · cases hcz
      exact .inr rfl
    · cases hcz
      exact .inl (hs c List.mem_cons_self)

theorem ending_nil {z : Text} (hz : Closing [] z) : ending z = [] := by
  have h := stripEnd_append (t := []) (fun c hc => by cases hc) hz
  rw [List.nil_append] at h
  rw [ending, h]
  rfl

/-- A comment in front of a text and its end is one in front of the text, unless the text is a bare double dash. -/
theorem comment?_closing {t z : Text} (hz : Closing t z) :
    t = text "--" ∨ comment? (t ++ z) = (comment? t).map fun x => (x.1, x.2 ++ z) := by
  rcases z with _ | ⟨c, z⟩
  · right
    rw [List.append_nil]
    cases comment? t with
    | none => rfl
    | some x => rw [Option.map_some, List.append_nil]
  · exact comment?_append z hz.head

/-- Cutting comments from a text, and cutting them in front of its end first. -/
theorem stripLeadingComments_front {u w t z : Text} (h : Front u w) (hu : u = t ++ z) (ht : RightTrimmed t)
    (hz : Closing t z) : stripLeadingComments t = ending w := by
  induction h generalizing t z with
  | @stop u hnone hhead =>
    subst hu
    rcases t with _ | ⟨c, t⟩
    · exact (ending_nil hz).symm
    rw [ending, stripEnd_append ht hz]
    rcases comment?_closing hz with hdash | hcomment
    · rw [if_pos hdash, hdash]
      decide
    · rw [hnone, eq_comm, Option.map_eq_none_iff] at hcomment
      rw [stripLeadingComments_stop ht hhead hcomment, if_neg]
      rintro hdash
      rw [hdash] at hcomment
      exact absurd hcomment (by decide)
  | @space c u w hc hfront ih =>
    rcases t with _ | ⟨d, t⟩
    · rw [List.nil_append] at hu
      subst hu
      exact ih rfl ht (hz.behind (List.suffix_cons c u))
    · cases hu
      rw [stripLeadingComments_space hc]
      exact ih rfl (ht.suffix (List.suffix_cons _ _)) (hz.suffix (List.suffix_cons _ _))
  | @comment u p body w hc hfront ih =>
    subst hu
    have hdead : (after p body).getD [] <:+ z → [] = ending w := fun hsuffix =>
      ih (t := []) rfl (fun c hc => by cases hc) (hz.behind hsuffix)
    rcases comment?_closing hz with rfl | hcomment
    · -- a double dash hides the end up to a line break
      refine Eq.trans (by decide) (hdead ?_)
      rw [show text "--" ++ z = .chr '-' :: .chr '-' :: z from rfl, comment?_pair, if_neg (by decide)] at hc
      split_ifs at hc
      cases hc
      exact after_append_none (t := text "--") (by decide) z
    · rw [hc, eq_comm, Option.map_eq_some_iff] at hcomment
      obtain ⟨⟨p, body⟩, hct, hbody⟩ := hcomment
      cases hbody
      rw [stripLeadingComments_comment ht hct]
      cases ha : after p body with
      | none => exact hdead (after_append_none ha z)
      | some rest =>
        have hp := (comment?_some hct).1
        have hsuffix : rest <:+ t := by
          have hrest := getD_after_suffix p body
          rw [ha, Option.getD_some] at hrest
          exact hrest.trans (comment?_suffix hct)
        rw [Option.map_some, Option.getD_some]
        exact ih (by rw [after_append hp ha, Option.getD_some]) (ht.suffix hsuffix) (hz.suffix hsuffix)

/-- The visible text of a query, from its front and its end. -/
theorem visible_front {q w : Text} (h : Front q w) : visible q = ending w := by
  obtain ⟨a, b, hq, ha, hb⟩ := trimSpace_split q
  by_cases hlast : (trimSpace q).getLast? = some (.chr ';')
  · obtain ⟨s, hs⟩ := List.getLast?_eq_some_iff.1 hlast
    have htrim : trimStatement q = trimSpace s := by rw [trimStatement, hs, trimSuffix_semicolon]
    obtain ⟨a', b', hs', ha', hb'⟩ := trimSpace_split s
    have hsplit : q = a ++ (a' ++ (trimSpace s ++ (b' ++ .chr ';' :: b))) := by
      calc q = a ++ (trimSpace q ++ b) := hq
        _ = a ++ (s ++ .chr ';' :: b) := by rw [hs, List.append_assoc]; rfl
        _ = a ++ ((a' ++ (trimSpace s ++ b')) ++ .chr ';' :: b) := by rw [← hs']
        _ = a ++ (a' ++ (trimSpace s ++ (b' ++ .chr ';' :: b))) := by simp only [List.append_assoc]
    rw [hsplit] at h
    rw [visible, htrim]
    exact stripLeadingComments_front ((h.of_spaces ha).of_spaces ha') rfl (rightTrimmed_trimSpace s) (.semicolon hb' hb)
  · have htrim : trimStatement q = trimSpace q := by rw [trimStatement, trimSuffix_of_ne hlast, trimSpace_idempotent]
    rw [hq] at h
    rw [visible, htrim]
    exact stripLeadingComments_front (h.of_spaces ha) rfl (rightTrimmed_trimSpace q) (.blank hb hlast)

/-! ## Forms of ends -/

theorem rightTrimmed_gap {t : Text} (ht : RightTrimmed t) : ∀ c ∈ (t.map keyUpper).getLast?, isGap c = false := by
  intro c hc
  rw [List.getLast?_map, Option.mem_def, Option.map_eq_some_iff] at hc
  obtain ⟨d, hd, rfl⟩ := hc
  rw [isGap_keyUpper, ← Bool.not_eq_true]
  intro hgap
  have hsolid := ht d hd
  rw [isSpace_of_isGap hgap] at hsolid
  cases hsolid

theorem getLast?_form {t : Text} (ht : RightTrimmed t) : (form t).getLast? = t.getLast?.map keyUpper := by
  rw [form, getLast?_squeeze (rightTrimmed_gap ht), List.getLast?_map]

theorem RightTrimmed.form {t : Text} (ht : RightTrimmed t) : RightTrimmed (form t) := by
  intro c hc
  rw [getLast?_form ht, Option.mem_def, Option.map_eq_some_iff] at hc
  obtain ⟨d, hd, rfl⟩ := hc
  rw [isSpace_keyUpper]
  exact ht d hd

theorem isSpace_form {sp : Text} (hs : ∀ c ∈ sp, c.isSpace = true) : ∀ c ∈ form sp, c.isSpace = true := by
  intro c hc
  rcases mem_squeeze hc with rfl | hc
  · decide
  · obtain ⟨d, hd, rfl⟩ := List.mem_map.1 hc
    rw [isSpace_keyUpper]
    exact hs d hd

theorem Closing.form {t z : Text} (ht : RightTrimmed t) (hz : Closing t z) : Closing (form t) (form z) := by
  cases hz with
  | blank hs hne =>
    refine .blank (isSpace_form hs) ?_
    rw [getLast?_form ht]
    intro hlast
    obtain ⟨d, hd, hkey⟩ := Option.map_eq_some_iff.1 hlast
    rw [keyUpper_low (by decide)] at hkey
    exact hne (hkey ▸ hd)
  | @semicolon sp sp' hs hs' =>
    have hsplit : Sql.form (sp ++ .chr ';' :: sp') = Sql.form sp ++ .chr ';' :: Sql.form sp' := by
      have hsign := form_sign (p := [.chr ';']) (by decide) sp'
      rw [form_append, squeeze_append (.inr fun c hc => by cases hc; decide)]
      exact congrArg _ hsign
    rw [hsplit]
    exact .semicolon (isSpace_form hs) (isSpace_form hs')

theorem form_stripEnd (w : Text) : form (stripEnd w) = stripEnd (form w) := by
  obtain ⟨ht, z, hw, hz⟩ := stripEnd_split w
  have hform : form w = form (stripEnd w) ++ form z := by
    conv_lhs => rw [hw]
    rw [form_append, squeeze_append (.inl (rightTrimmed_gap ht))]
    rfl
  rw [hform, stripEnd_append ht.form (hz.form ht)]

theorem form_dashes {t : Text} : form t = text "--" ↔ t = text "--" := by
  constructor
  · intro h
    obtain ⟨r, rfl⟩ := (prefix_form (p := text "--") (by decide) t).1 ⟨[], by rw [h, List.append_nil]⟩
    rw [form_sign (by decide), List.append_right_eq_self, form_eq_nil] at h
    rw [h, List.append_nil]
  · rintro rfl
    decide

theorem form_ending {w w' : Text} (h : form w = form w') : form (ending w) = form (ending w') := by
  have hstrip : form (stripEnd w) = form (stripEnd w') := by rw [form_stripEnd, form_stripEnd, h]
  have hdash : stripEnd w = text "--" ↔ stripEnd w' = text "--" := by rw [← form_dashes, hstrip, form_dashes]
  rw [ending, ending]
  by_cases hd : stripEnd w = text "--"
  · rw [if_pos hd, if_pos (hdash.1 hd)]
  · rw [if_neg hd, if_neg fun hd' => hd (hdash.2 hd'), hstrip]

/-- The visible texts of two layouts are layouts of one text. -/
theorem form_visible {q q' : Text} (h : Relaid q q') : form (visible q) = form (visible q') := by
  obtain ⟨w, hw⟩ := front_exists q
  obtain ⟨w', hw', hform⟩ := front_relaid h hw
  rw [visible_front hw, visible_front hw']
  exact form_ending hform

/-! ## Kinds -/

/-- The unsafe fragments without a space. -/
def solidFragments : List Text :=
  [text "GET_LOCK(", text "RELEASE_LOCK(", text "IS_FREE_LOCK(", text "IS_USED_LOCK(",
   text "LAST_INSERT_ID(", text "FOUND_ROWS(", text "ROW_COUNT(", text "CONNECTION_ID(", text "SQL_CALC_FOUND_ROWS"]

def spacedFragments : List Text := [text " INTO OUTFILE", text " INTO DUMPFILE"]

/-- The tests of a read that do not look for a space. -/
def solidTests (upper : Text) : Bool :=
  solidFragments.any (contains upper) || contains (replaceAll upper (text "@@") []) (text "@")

/-- The tests of a read that do. -/
def spacedTests (upper : Text) : Bool :=
  spacedFragments.any (contains upper) || sessionShows.any (hasPrefix upper)

/-- The kind of a statement by its upper-cased text, without the tests that look for a space. -/
def kindOfForm (upper : Text) : StatementKind :=
  let words := fields upper
  let first := words.headD []
  if words = [] then .empty
  else if first ∈ readWords then
    if join words (text " ") = text "SHOW COUNT(*) WARNINGS" then .warningCount
    else if solidTests upper then .unsupported
    else .read
  else if first ∈ writeWords then .write
  else (classifyWords [] upper words first).kind

/-- A test that looks for a space refuses the statement. -/
def SpacesRefuse (upper : Text) : Prop :=
  let words := fields upper
  let first := words.headD []
  (first ∈ readWords ∧ join words (text " ") ≠ text "SHOW COUNT(*) WARNINGS" ∧ spacedTests upper = true) ∨
  (first ∈ writeWords ∧ contains upper (text " RETURNING") = true)

instance (upper : Text) : Decidable (SpacesRefuse upper) := inferInstanceAs (Decidable (_ ∨ _))

/-- The kind of a query, whatever its layout, when no test on its spelling refuses it. -/
def layoutKind (q : Text) : StatementKind := kindOfForm (toUpper (visible q))

/-- A query refused by a test that reads its spelling: the search for a second statement, or one that looks for a
space. -/
def SpellingRefuses (q : Text) : Prop :=
  hasMultipleStatements (trimSpace q) = true ∨ SpacesRefuse (toUpper (visible q))

instance (q : Text) : Decidable (SpellingRefuses q) := inferInstanceAs (Decidable (_ ∨ _))

theorem unsafeReadReason_ne_nil_iff (u : Text) :
    unsafeReadReason u ≠ [] ↔ solidTests u = true ∨ spacedTests u = true := by
  have hfragments : unsafeFragments.any (contains u) = (solidFragments.any (contains u) || spacedFragments.any (contains u)) := by
    rw [show unsafeFragments = solidFragments ++ spacedFragments from rfl, List.any_append]
  have hshows : (hasPrefix u (text "SHOW WARNINGS") || hasPrefix u (text "SHOW ERRORS") ||
      hasPrefix u (text "SHOW STATUS") || hasPrefix u (text "SHOW SESSION")) = sessionShows.any (hasPrefix u) := by
    simp only [sessionShows, List.any_cons, List.any_nil, Bool.or_false, Bool.or_assoc]
  unfold unsafeReadReason solidTests spacedTests
  rw [hfragments, hshows]
  cases solidFragments.any (contains u) <;> cases spacedFragments.any (contains u) <;>
    cases contains (replaceAll u (text "@@") []) (text "@") <;> cases sessionShows.any (hasPrefix u) <;> decide

theorem readWords_not_write : ∀ w ∈ readWords, w ∉ writeWords := by decide

/-- Apart from reads and writes, a kind depends on the words and on the compact text of a `SET`. -/
theorem classifyWords_kind_congr {trimmed trimmed' upper upper' first : Text} {words : List Text}
    (hr : first ∉ readWords) (hw : first ∉ writeWords) (hc : compactSet upper = compactSet upper') :
    (classifyWords trimmed upper words first).kind = (classifyWords trimmed' upper' words first).kind := by
  simp only [classifyWords, if_neg hr, if_neg hw, classifySet, hc, apply_ite Statement.kind]

theorem classifyWords_kind (trimmed : Text) {upper first : Text} {more : List Text}
    (hf : fields upper = first :: more) :
    (classifyWords trimmed upper (first :: more) first).kind =
      if SpacesRefuse upper then .unsupported else kindOfForm upper := by
  unfold SpacesRefuse kindOfForm
  simp only [hf, List.headD_cons, if_neg (List.cons_ne_nil first more)]
  by_cases hr : first ∈ readWords
  · have hw := readWords_not_write first hr
    rw [classifyWords, if_pos hr, if_pos hr]
    by_cases hj : join (first :: more) (text " ") = text "SHOW COUNT(*) WARNINGS"
    · simp [hj, hw]
    · simp only [hj, hr, hw, if_false, unsafeReadReason_ne_nil_iff, true_and, false_and, or_false, not_false_iff, ne_eq]
      cases solidTests upper <;> cases spacedTests upper <;> rfl
  · by_cases hw : first ∈ writeWords
    · rw [classifyWords, if_neg hr, if_pos hw, if_neg hr, if_pos hw]
      simp only [hr, hw, false_and, true_and, false_or]
      split_ifs <;> rfl
    · simp only [hr, hw, false_and, or_self, if_false]
      exact classifyWords_kind_congr hr hw rfl

/-- The classifier, as the tests on spelling and the others. -/
theorem classifySQL_kind (q : Text) :
    (classifySQL q).kind = if SpellingRefuses q then .unsupported else layoutKind q := by
  by_cases hm : hasMultipleStatements (trimSpace q) = true
  · have hne : trimSpace q ≠ [] := by
      intro h
      rw [h] at hm
      cases hm
    have hspelling : SpellingRefuses q := .inl hm
    rw [if_pos hspelling, classifySQL, if_neg hne, if_pos hm]
  · have hspelling : SpellingRefuses q ↔ SpacesRefuse (toUpper (visible q)) := or_iff_right hm
    rw [if_congr hspelling rfl rfl]
    cases hf : fields (toUpper (visible q)) with
    | cons first more => rw [classifySQL_of_words (Bool.eq_false_iff.2 hm) hf, classifyWords_kind _ hf, layoutKind]
    | nil =>
      have hempty : (classifySQL q).kind = .empty := by
        rw [visible] at hf
        simp only [classifySQL, hf, if_neg hm, ite_self]
      have hnot : ¬SpacesRefuse (toUpper (visible q)) := by
        rw [SpacesRefuse, hf]
        rintro (h | h)
        · exact absurd h.1 (by decide)
        · exact absurd h.1 (by decide)
      rw [hempty, if_neg hnot, layoutKind, kindOfForm, hf, if_pos rfl]

/-! ## The kind of a form -/

theorem contains_squeeze {p : Text} (hne : p ≠ []) (hp : ∀ c ∈ p, isGap c = false) (t : Text) :
    contains (squeeze t) p = contains t p := by
  rw [Bool.eq_iff_iff, contains_iff, contains_iff, infix_squeeze hne hp]

theorem solidFragments_solid : ∀ p ∈ solidFragments, p ≠ [] ∧ ∀ c ∈ p, isGap c = false := by decide

theorem solidTests_squeeze (u : Text) : solidTests (squeeze u) = solidTests u := by
  have hfragments : solidFragments.any (contains (squeeze u)) = solidFragments.any (contains u) := by
    rw [Bool.eq_iff_iff, List.any_eq_true, List.any_eq_true]
    refine exists_congr fun p => and_congr_right fun hp => ?_
    obtain ⟨hne, hsolid⟩ := solidFragments_solid p hp
    rw [contains_squeeze hne hsolid]
  have hat : ∀ t : Text, contains (replaceAll t (text "@@") []) (text "@") = true ↔ LoneAt t := by
    intro t
    rw [contains_iff]
    exact List.singleton_infix_iff _ _
  rw [solidTests, solidTests, hfragments]
  congr 1
  rw [Bool.eq_iff_iff, hat, hat, loneAt_squeeze]

theorem compactSet_squeeze (u : Text) : compactSet (squeeze u) = compactSet u := by
  have hfilter := filter_squeeze u
  unfold isGap at hfilter
  rw [compactSet, compactSet, hfilter]

theorem kindOfForm_squeeze (u : Text) : kindOfForm (squeeze u) = kindOfForm u := by
  unfold kindOfForm
  simp only [fields_squeeze, solidTests_squeeze]
  by_cases hr : (fields u).headD [] ∈ readWords
  · simp only [if_pos hr]
  · by_cases hw : (fields u).headD [] ∈ writeWords
    · simp only [if_neg hr, if_pos hw]
    · have hkind : (classifyWords [] (squeeze u) (fields u) ((fields u).headD [])).kind =
          (classifyWords [] u (fields u) ((fields u).headD [])).kind :=
        classifyWords_kind_congr hr hw (compactSet_squeeze u)
      simp only [if_neg hr, if_neg hw, hkind]

theorem isGap_upper (c : Sym) : isGap c.upper = isGap c := by
  rw [Bool.eq_iff_iff]
  constructor
  · intro h
    rcases isGap_iff.1 h with h | h | h | h
    all_goals
      rw [upper_eq_low h (by decide)]
      decide
  · intro h
    rcases isGap_iff.1 h with rfl | rfl | rfl | rfl <;> decide

theorem upper_keyUpper (c : Sym) : (keyUpper c).upper = c.upper := by
  cases c with
  | bad b => rfl
  | chr c =>
    rcases keyUpper_chr c with h | ⟨hlo, hhi, d, h, hd⟩
    · rw [h]
    · have hself : keyUpper (.chr d) = .chr d := by
        rcases keyUpper_chr d with hself | ⟨hlo', -⟩
        · exact hself
        · omega
      rw [h, upper_of_keyUpper h (by omega), upper_of_keyUpper hself (by omega)]

theorem squeeze_toUpper (v : Text) : squeeze (toUpper v) = toUpper (form v) := by
  have hupper : toUpper v = (v.map keyUpper).map Sym.upper := by
    rw [toUpper, List.map_map]
    exact List.map_congr_left fun c _ => (upper_keyUpper c).symm
  rw [hupper, ← map_squeeze isGap_upper (by decide)]
  rfl

theorem layoutKind_relaid {q q' : Text} (h : Relaid q q') : layoutKind q = layoutKind q' := by
  rw [layoutKind, layoutKind, ← kindOfForm_squeeze, squeeze_toUpper, form_visible h, ← squeeze_toUpper,
    kindOfForm_squeeze]

/-- Two layouts of a query are of one kind exactly when they are refused in every layout, or the tests on their
spelling agree. -/
theorem layout_kind_iff {q q' : Text} (h : Relaid q q') :
    (classifySQL q).kind = (classifySQL q').kind ↔
      layoutKind q = .unsupported ∨ (SpellingRefuses q ↔ SpellingRefuses q') := by
  rw [classifySQL_kind, classifySQL_kind, ← layoutKind_relaid h]
  by_cases hq : SpellingRefuses q
  · by_cases hq' : SpellingRefuses q'
    · simp [hq, hq']
    · simp [hq, hq', eq_comm]
  · by_cases hq' : SpellingRefuses q'
    · simp [hq, hq']
    · simp [hq, hq']

theorem layout_kind_iff_read :
    (classifySQL (text "select 1")).kind = (classifySQL (text "SELECT\r\n\t1")).kind ∧
      ¬SpellingRefuses (text "select 1") := by
  have hrelaid : Relaid (text "select 1") (text "SELECT\r\n\t1") :=
    .words (text "select") (text "SELECT") (text " ") (text "\r\n\t") (by decide) (by decide) (.refl (text "1"))
  exact ⟨(layout_kind_iff hrelaid).2 (.inr (by decide +kernel)), by decide +kernel⟩

/-- The query `q'` is a layout of the query `q`, and of another kind. -/
def KindChanges (q q' : String) (kind kind' : StatementKind) : Prop :=
  Relaid (text q) (text q') ∧ (classifySQL (text q)).kind = kind ∧ (classifySQL (text q')).kind = kind' ∧ kind ≠ kind'

/-- A tab for a space lets a refused statement through to a shared connection, and a line break behind a comment
gets a read refused. -/
theorem layout_changes_kind :
    KindChanges "SHOW WARNINGS" "SHOW\tWARNINGS" .unsupported .read ∧
    KindChanges "SELECT 1 INTO OUTFILE 'x'" "SELECT 1\tINTO OUTFILE 'x'" .unsupported .read ∧
    KindChanges "DELETE FROM t RETURNING a" "DELETE FROM t\tRETURNING a" .unsupported .write ∧
    KindChanges "/* ; -- */ SELECT 1" "/* ; -- */\nSELECT 1" .read .unsupported := by
  refine ⟨⟨?_, by decide +kernel⟩, ⟨?_, by decide +kernel⟩, ⟨?_, by decide +kernel⟩, ?_, by decide +kernel⟩
  · exact .words (text "SHOW") (text "SHOW") (text " ") (text "\t") (by decide) (by decide) (.refl (text "WARNINGS"))
  · refine .words (text "SELECT") (text "SELECT") (text " ") (text " ") (by decide) (by decide) ?_
    exact .words (text "1") (text "1") (text " ") (text "\t") (by decide) (by decide) (.refl (text "INTO OUTFILE 'x'"))
  · refine .words (text "DELETE") (text "DELETE") (text " ") (text " ") (by decide) (by decide) ?_
    refine .words (text "FROM") (text "FROM") (text " ") (text " ") (by decide) (by decide) ?_
    exact .words (text "t") (text "t") (text " ") (text "\t") (by decide) (by decide) (.refl (text "RETURNING a"))
  · have hgap : Relaid (text " SELECT 1") (text "\nSELECT 1") :=
      @Relaid.gap (text " ") (text "\n") _ _ (by decide) (by decide) (by decide) (by decide) (.refl (text "SELECT 1"))
    exact @Relaid.read (.chr '/') (text "* ; -- */ SELECT 1") (text "/* ; -- */") (text "/* ; -- */") _ (by decide)
      (by decide) rfl (fun _ => rfl) hgap

end Accelerator.Engine
