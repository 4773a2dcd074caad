/-
Searching a text for a fragment: what follows its first occurrence, and what becomes of it when more text is
appended.
-/
import Accelerator.Strings.Basic

namespace Accelerator.Strings

theorem after_split {p t rest : Text} (h : after p t = some rest) : ∃ x, t = x ++ p ++ rest := by
  induction t with
  | nil =>
    simp only [after, List.isEmpty_iff, Option.ite_none_right_eq_some, Option.some.injEq] at h
    exact ⟨[], by simp [h.1, ← h.2]⟩
  | cons c t ih =>
    simp only [after] at h
    split at h
    · rename_i hp
      obtain ⟨z, hz⟩ := List.isPrefixOf_iff_prefix.1 hp
      cases h
      exact ⟨[], by rw [← hz]; simp⟩
    · obtain ⟨x, hx⟩ := ih h
      exact ⟨c :: x, by rw [hx]; simp⟩

theorem getD_after_suffix (p t : Text) : (after p t).getD [] <:+ t := by
  cases h : after p t with
  | none => exact List.nil_suffix
  | some rest =>
    obtain ⟨x, hx⟩ := after_split h
    exact ⟨x ++ p, hx.symm⟩

theorem length_after {p t rest : Text} (h : after p t = some rest) : rest.length + p.length ≤ t.length := by
  obtain ⟨x, hx⟩ := after_split h
  rw [hx, List.length_append, List.length_append]
  omega

/-- What follows the first occurrence does not depend on what is appended. -/
theorem after_append {p t rest : Text} (hp : p ≠ []) (h : after p t = some rest) (y : Text) :
    after p (t ++ y) = some (rest ++ y) := by
  induction t with
  | nil => simp [after, hp] at h
  | cons c t ih =>
    have hlen : p.length ≤ (c :: t).length := by have := length_after h; omega
    simp only [after] at h
    rw [List.cons_append, after]
    split at h
    · rename_i hpre
      obtain ⟨z, hz⟩ := List.isPrefixOf_iff_prefix.1 hpre
      have : p.isPrefixOf (c :: (t ++ y)) = true :=
        List.isPrefixOf_iff_prefix.2 ⟨z ++ y, by rw [← List.append_assoc, hz]; rfl⟩
      rw [if_pos this]
      cases h
      rw [← List.cons_append, ← hz]
      simp
    · rename_i hpre
      have : ¬ p.isPrefixOf (c :: (t ++ y)) = true := fun hc => hpre <| List.isPrefixOf_iff_prefix.2 <|
        List.prefix_of_prefix_length_le (List.isPrefixOf_iff_prefix.1 hc) (List.prefix_append (c :: t) y) hlen
      rw [if_neg this]
      exact ih h

theorem after_none {p t : Text} (h : after p t = none) : ¬p <:+: t := by
  induction t with
  | nil =>
    intro hp
    rw [after, List.infix_nil.1 hp] at h
    cases h
  | cons c t ih =>
    rw [after] at h
    split_ifs at h with hpre
    rw [List.infix_cons_iff, not_or]
    exact ⟨fun hp => hpre (List.isPrefixOf_iff_prefix.2 hp), ih h⟩

/-- A fragment that does not stand in a text ends in what is appended to it. -/
theorem after_append_none {p t : Text} (h : after p t = none) (y : Text) : (after p (t ++ y)).getD [] <:+ y := by
  cases hy : after p (t ++ y) with
  | none => exact List.nil_suffix
  | some rest =>
    rw [Option.getD_some]
    obtain ⟨x, hx⟩ := after_split hy
    by_contra hrest
    have hlen : y.length < rest.length := by
      by_contra hle
      exact hrest (List.suffix_of_suffix_length_le ⟨x ++ p, hx.symm⟩ (List.suffix_append t y) (by omega))
    have hpre : x ++ p <+: t := by
      refine List.prefix_of_prefix_length_le ⟨rest, hx.symm⟩ (List.prefix_append t y) ?_
      have := congrArg List.length hx
      simp only [List.length_append] at this ⊢
      omega
    exact after_none h ((List.suffix_append x p).isInfix.trans hpre.isInfix)

/-- A map that tells the elements of the fragment from all others does not move it. -/
theorem prefix_map_iff {f : Sym → Sym} {p : Text} (hf : ∀ d ∈ p, ∀ c, f c = d ↔ c = d) (t : Text) :
    p <+: t.map f ↔ p <+: t := by
  induction p generalizing t with
  | nil => exact iff_of_true List.nil_prefix List.nil_prefix
  | cons d p ih =>
    cases t with
    | nil => exact Iff.rfl
    | cons c t =>
      rw [List.map_cons, List.cons_prefix_cons, List.cons_prefix_cons, eq_comm, hf d List.mem_cons_self, eq_comm,
        ih fun e he => hf e (List.mem_cons_of_mem _ he)]

theorem after_map {f : Sym → Sym} {p : Text} (hf : ∀ d ∈ p, ∀ c, f c = d ↔ c = d) (t : Text) :
    after p (t.map f) = (after p t).map (List.map f) := by
  induction t with
  | nil =>
    rw [List.map_nil, after]
    split_ifs <;> rfl
  | cons c t ih =>
    have hpre : p.isPrefixOf ((c :: t).map f) = p.isPrefixOf (c :: t) := by
      rw [Bool.eq_iff_iff, List.isPrefixOf_iff_prefix, List.isPrefixOf_iff_prefix, prefix_map_iff hf]
    rw [List.map_cons] at hpre ⊢
    rw [after, after, hpre]
    split_ifs
    · rw [Option.map_some, List.map_drop, List.map_cons]
    · exact ih

/-- A fragment that ends a text for the first time. -/
theorem after_eq_nil {p b rest : Text} (hp : p ≠ []) (h : after p (b ++ rest) = some rest) : after p b = some [] := by
  cases hb : after p b with
  | some r =>
    rw [after_append hp hb, Option.some.injEq, List.append_left_eq_self] at h
    rw [h]
  | none =>
    obtain ⟨x, hx⟩ := after_split h
    have hpb : p <:+: b := ⟨x, [], by rw [List.append_nil]; exact (List.append_cancel_right hx).symm⟩
    exact absurd hpb (after_none hb)

theorem contains_iff {t p : Text} : contains t p = true ↔ p <:+: t := by
  simp only [contains, List.any_eq_true, List.mem_tails, List.isPrefixOf_iff_prefix, List.infix_iff_prefix_suffix]
  exact ⟨fun ⟨u, hu, hp⟩ => ⟨u, hp, hu⟩, fun ⟨u, hp, hu⟩ => ⟨u, hu, hp⟩⟩

end Accelerator.Strings
