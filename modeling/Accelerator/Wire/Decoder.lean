/-
Decoders: they take a value from the front of a list, or fail. `Reads d b a` is that `d` takes `a` from
`b` whatever follows, and a decoder is `Local` if all it ever takes is taken so. A decoder that is local
up to the end of the list is `Tight`: what it accepts it accepts neither with more behind it nor cut short.
-/
import Mathlib.Control.Lawful
import Mathlib.Data.List.Basic

namespace Accelerator.Wire

/-- A decoder of lists over `β`. -/
abbrev Decoder (β : Type) := StateT (List β) Option

namespace Decoder

variable {α γ β : Type}

/-! ## Decoders -/

/-- The first symbol. -/
def next : Decoder β β
  | [] => none
  | b :: bs => some (b, bs)

/-- The first `n` symbols. -/
def take (n : Nat) : Decoder β (List β) := fun bs =>
  if n ≤ bs.length then some (bs.take n, bs.drop n) else none

/-- The symbols before the first `z`, which is dropped. -/
def upTo [DecidableEq β] (z : β) : Decoder β (List β)
  | [] => none
  | b :: bs => if b = z then some ([], bs) else (upTo z bs).map fun (x, rest) => (b :: x, rest)

/-- `n` values. -/
def many (d : Decoder β α) : Nat → Decoder β (List α)
  | 0 => pure []
  | n + 1 => do
    let a ← d
    let as ← many d n
    pure (a :: as)

/-- The end of the list. -/
def eof : Decoder β Unit
  | [] => some ((), [])
  | _ :: _ => none

/-- Values up to the end of the list, in at most `n` rounds. -/
def all (d : Decoder β α) : Nat → List β → Option (List α)
  | 0, _ => none
  | n + 1, bs =>
    if bs = [] then some []
    else (d bs).bind fun r => (all d n r.2).map (r.1 :: ·)

/-- The value of a whole list. -/
def whole (d : Decoder β α) (bs : List β) : Option α :=
  match d bs with
  | some (a, []) => some a
  | _ => none

/-! ## What a decoder reads -/

/-- `d` takes `a` from `b`, whatever follows. -/
def Reads (d : Decoder β α) (b : List β) (a : α) : Prop := ∀ rest, d (b ++ rest) = some (a, rest)

section Reads

variable {d : Decoder β α} {f : α → Decoder β γ} {b e : List β} {a : α} {c : γ}

theorem bind_apply (d : Decoder β α) (f : α → Decoder β γ) (bs : List β) :
    (d >>= f) bs = (d bs).bind fun r => f r.1 r.2 := rfl

theorem Reads.pure (a : α) : Reads (Pure.pure a : Decoder β α) [] a := fun _ => rfl

theorem Reads.bind (hd : Reads d b a) (hf : Reads (f a) e c) : Reads (d >>= f) (b ++ e) c := by
  intro rest
  rw [List.append_assoc, bind_apply, hd]
  exact hf rest

theorem Reads.apply_bind (hd : Reads d b a) (f : α → Decoder β γ) (rest : List β) :
    (d >>= f) (b ++ rest) = f a rest := by
  rw [bind_apply, hd]
  rfl

theorem Reads.bind_nil (hd : Reads d b a) (hf : Reads (f a) [] c) : Reads (d >>= f) b c := by
  intro rest
  rw [hd.apply_bind]
  exact hf rest

theorem Reads.map (hd : Reads d b a) (g : α → γ) : Reads (d >>= fun x => Pure.pure (g x)) b (g a) :=
  hd.bind_nil (Reads.pure _)

/-- A check that holds takes nothing. -/
theorem Reads.check {p : Prop} [Decidable p] (hp : p) {d : Unit → Decoder β α} (hd : Reads (d ()) b a) :
    Reads (guard p >>= d) b a := by
  intro rest
  rw [guard, if_pos hp]
  exact hd rest

theorem reads_next (x : β) : Reads next [x] x := fun _ => rfl

theorem reads_take {n : Nat} (hb : b.length = n) : Reads (take n) b b := by
  intro rest
  rw [take, ← hb, if_pos (by simp), List.take_left, List.drop_left]

theorem take_eq_some {n : Nat} {bs rest : List β} (h : take n bs = some (b, rest)) :
    b.length = n ∧ bs = b ++ rest := by
  unfold take at h
  split at h
  · rename_i hle
    cases h
    exact ⟨List.length_take_of_le hle, (List.take_append_drop n bs).symm⟩
  · cases h

theorem bind_eq_some {bs rest : List β} (h : (d >>= f) bs = some (c, rest)) :
    ∃ a mid, d bs = some (a, mid) ∧ f a mid = some (c, rest) := by
  rw [bind_apply, Option.bind_eq_some_iff] at h
  obtain ⟨⟨a, mid⟩, ha, hc⟩ := h
  exact ⟨a, mid, ha, hc⟩

theorem reads_upTo [DecidableEq β] {z : β} (hz : z ∉ b) : Reads (upTo z) (b ++ [z]) b := by
  intro rest
  induction b with
  | nil => simp [upTo]
  | cons x b ih =>
    rw [List.mem_cons, not_or] at hz
    simp only [List.cons_append, upTo, if_neg (Ne.symm hz.1), ih hz.2, Option.map_some]

/-- Values that are read one by one are read in a row. -/
theorem Reads.many {e : α → List β} {as : List α} (h : ∀ a ∈ as, Reads d (e a) a) :
    Reads (many d as.length) (as.flatMap e) as := by
  induction as with
  | nil => exact Reads.pure []
  | cons a as ih =>
    have hrest := ih fun x hx => h x (List.mem_cons_of_mem a hx)
    rw [List.flatMap_cons]
    exact (h a List.mem_cons_self).bind (hrest.map (a :: ·))

/-- Values that are read one by one, each from something, are read up to the end. -/
theorem Reads.all {e : α → List β} {as : List α} (h : ∀ a ∈ as, Reads d (e a) a) (he : ∀ a ∈ as, e a ≠ []) {n : Nat}
    (hn : (as.flatMap e).length < n) : all d n (as.flatMap e) = some as := by
  induction as generalizing n with
  | nil =>
    obtain ⟨n, rfl⟩ : ∃ k, n = k + 1 := ⟨n - 1, by omega⟩
    rfl
  | cons a as ih =>
    obtain ⟨n, rfl⟩ : ∃ k, n = k + 1 := ⟨n - 1, by omega⟩
    have hpos := List.length_pos_of_ne_nil (he a List.mem_cons_self)
    have hne : e a ++ as.flatMap e ≠ [] := List.append_ne_nil_of_left_ne_nil (he a List.mem_cons_self) _
    rw [List.flatMap_cons, List.length_append] at hn
    rw [List.flatMap_cons, Decoder.all, if_neg hne, h a List.mem_cons_self, Option.bind_some,
      ih (fun x hx => h x (List.mem_cons_of_mem a hx)) (fun x hx => he x (List.mem_cons_of_mem a hx)) (by omega)]
    rfl

theorem Reads.whole (h : Reads d b a) : d.whole b = some a := by
  have h := h []
  rw [List.append_nil] at h
  simp only [Decoder.whole, h]

end Reads

/-! ## Local decoders -/

/-- What `d` takes does not depend on what follows it. -/
def Local (d : Decoder β α) : Prop :=
  ∀ bs a rest, d bs = some (a, rest) → ∃ used, bs = used ++ rest ∧ Reads d used a

section Local

variable {d : Decoder β α} {f : α → Decoder β γ}

theorem Local.pure (a : α) : Local (Pure.pure a : Decoder β α) := by
  rintro bs x rest ⟨⟩
  exact ⟨[], rfl, Reads.pure a⟩

theorem Local.failure : Local (failure : Decoder β α) := by
  rintro bs x rest ⟨⟩

theorem Local.bind (hd : Local d) (hf : ∀ a, Local (f a)) : Local (d >>= f) := by
  intro bs c rest h
  obtain ⟨a, mid, ha, hc⟩ := bind_eq_some h
  obtain ⟨used, rfl, hused⟩ := hd bs a mid ha
  obtain ⟨used', rfl, hused'⟩ := hf a mid c rest hc
  exact ⟨used ++ used', (List.append_assoc _ _ _).symm, hused.bind hused'⟩

theorem local_guard (p : Prop) [Decidable p] : Local (guard p : Decoder β Unit) := by
  unfold guard
  split
  · exact Local.pure ()
  · exact Local.failure

theorem local_lift (v : Option α) : Local (liftM v : Decoder β α) := by
  cases v with
  | none => exact Local.failure
  | some a => exact Local.pure a

theorem Local.next : Local (next : Decoder β β) := by
  intro bs a rest h
  cases bs with
  | nil => cases h
  | cons b bs =>
    cases h
    exact ⟨[a], rfl, reads_next a⟩

theorem Local.take (n : Nat) : Local (take n : Decoder β (List β)) := by
  intro bs a rest h
  unfold Decoder.take at h
  split at h
  · rename_i hn
    cases h
    exact ⟨bs.take n, (List.take_append_drop n bs).symm, reads_take (List.length_take_of_le hn)⟩
  · cases h

theorem Local.upTo [DecidableEq β] (z : β) : Local (upTo z) := by
  intro bs a rest h
  suffices ∃ used, z ∉ used ∧ a = used ∧ bs = used ++ [z] ++ rest by
    obtain ⟨used, hz, rfl, rfl⟩ := this
    exact ⟨a ++ [z], rfl, reads_upTo hz⟩
  induction bs generalizing a with
  | nil => cases h
  | cons b bs ih =>
    rw [Decoder.upTo] at h
    split at h
    · rename_i hb
      cases h
      exact ⟨[], List.not_mem_nil, rfl, by rw [hb]; rfl⟩
    · rename_i hb
      rw [Option.map_eq_some_iff] at h
      obtain ⟨⟨x, r⟩, hx, h⟩ := h
      cases h
      obtain ⟨used, hz, rfl, rfl⟩ := ih x hx
      refine ⟨b :: x, ?_, rfl, rfl⟩
      rw [List.mem_cons, not_or]
      exact ⟨Ne.symm hb, hz⟩

/-- A local decoder that needs a symbol takes one. -/
theorem Local.length_lt (hd : Local d) (hnil : d [] = none) {bs rest : List β} {a : α} (h : d bs = some (a, rest)) :
    rest.length < bs.length := by
  obtain ⟨used, rfl, hused⟩ := hd bs a rest h
  cases used with
  | nil =>
    have h := hused []
    rw [List.append_nil, hnil] at h
    cases h
  | cons x used =>
    rw [List.length_append, List.length_cons]
    omega

/-- A decoder that takes everything there is, and takes nothing with more behind it. -/
def Tight (d : Decoder β α) : Prop :=
  ∀ bs a rest, d bs = some (a, rest) → rest = [] ∧ ∀ s ≠ [], d (bs ++ s) = none

theorem tight_eof : Tight (eof : Decoder β Unit) := by
  intro bs a rest h
  cases bs with
  | nil =>
    cases h
    refine ⟨rfl, fun s hs => ?_⟩
    obtain ⟨x, s, rfl⟩ := List.exists_cons_of_ne_nil hs
    rfl
  | cons b bs => cases h

theorem Tight.pure_after (hd : Tight d) (g : α → γ) : Tight (d >>= fun a => Pure.pure (g a)) := by
  intro bs c rest h
  obtain ⟨a, mid, ha, hc⟩ := bind_eq_some h
  cases hc
  obtain ⟨rfl, hs⟩ := hd bs a _ ha
  refine ⟨rfl, fun s hne => ?_⟩
  rw [bind_apply, hs s hne]
  rfl

/-- What is read first does not depend on what follows. -/
theorem Local.tight (hd : Local d) (hf : ∀ a, Tight (f a)) : Tight (d >>= f) := by
  intro bs c rest h
  obtain ⟨a, mid, ha, hc⟩ := bind_eq_some h
  obtain ⟨used, rfl, hused⟩ := hd bs a mid ha
  obtain ⟨rfl, hs⟩ := hf a mid c rest hc
  refine ⟨rfl, fun s hne => ?_⟩
  rw [List.append_assoc, hused.apply_bind]
  exact hs s hne

end Local

/-! ## What holds of every value -/

/-- Every value the decoder takes satisfies `P`. -/
def Gives (P : α → Prop) (d : Decoder β α) : Prop := ∀ bs a rest, d bs = some (a, rest) → P a

theorem Gives.pure {P : α → Prop} {a : α} (h : P a) : Gives P (Pure.pure a : Decoder β α) := by
  rintro bs _ rest ⟨⟩
  exact h

theorem Gives.bind {P : γ → Prop} (d : Decoder β α) {f : α → Decoder β γ} (h : ∀ a, Gives P (f a)) :
    Gives P (d >>= f) := by
  intro bs c rest hc
  obtain ⟨r, -, hr⟩ := Option.bind_eq_some_iff.1 hc
  exact h r.1 r.2 c rest hr

end Decoder

end Accelerator.Wire
