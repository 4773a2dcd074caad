/-
The handshake parser against its grammar. A cursor program simulates a decoder: it ends without a fault,
leaves the cursor inside the payload, and returns what the decoder takes from the bytes that remain. The
parser simulates the grammar of protocol 4.1, so that it is total on every payload, reads back every
well-formed response, and accepts none with bytes added or missing.
-/
import Accelerator.Protocol.Handshake
import Accelerator.Protocol.Response

namespace Accelerator.Protocol

open Strings Upstream Wire Wire.Decoder

/-! ## Cursors and decoders -/

/-- The cursor is inside its data. -/
def ByteCursor.Valid (c : ByteCursor) : Prop := c.offset ≤ c.data.length

/-- What remains to be read. -/
def ByteCursor.rest (c : ByteCursor) : Bytes := c.data.drop c.offset

/-- The results of a method with a flag. -/
inductive Flagged {α : Type} : α × Bool → Option α → Prop where
  | ok (a : α) : Flagged (a, true) (some a)
  | failed (a : α) : Flagged (a, false) none

/-- The results of a method with an error. -/
inductive Checked {α : Type} : α × Option GoError → Option α → Prop where
  | ok (a : α) : Checked (a, none) (some a)
  | failed (a : α) : Checked (a, some errMalformedHandshake) none

/-- `m` ends where `Q` holds of its result and of the cursor. -/
def Ends {β : Type} (m : Scan β) (c : ByteCursor) (Q : β → ByteCursor → Prop) : Prop :=
  ∃ b c', m c = .ok (b, c') ∧ c'.Valid ∧ Q b c'

/-- On every cursor `m` does what `d` does on the bytes that remain; `R` compares the results. -/
def Simulates {α β : Type} (R : β → Option α → Prop) (m : Scan β) (d : Decoder UInt8 α) : Prop :=
  ∀ c : ByteCursor, c.Valid → Ends m c fun b c' =>
    R b ((d c.rest).map Prod.fst) ∧ ∀ a rest, d c.rest = some (a, rest) → c'.rest = rest

section Rules

variable {α α' β β' : Type} {R : β → Option α → Prop} {R' : β' → Option α' → Prop} {m : Scan β} {d : Decoder UInt8 α}
  {k : β → Scan β'} {f : α → Decoder UInt8 α'} {c : ByteCursor} {Q : β → ByteCursor → Prop}
  {Q' : β' → ByteCursor → Prop}

theorem Ends.pure (b : β) (hc : c.Valid) (h : Q b c) : Ends (Pure.pure b) c Q := ⟨b, c, rfl, hc, h⟩

theorem Ends.bind (hm : Ends m c Q) (hk : ∀ b c', c'.Valid → Q b c' → Ends (k b) c' Q') : Ends (m >>= k) c Q' := by
  obtain ⟨b, c₁, hm, hc₁, hQ⟩ := hm
  obtain ⟨b', c₂, hk, hc₂, hQ'⟩ := hk b c₁ hc₁ hQ
  refine ⟨b', c₂, ?_, hc₂, hQ'⟩
  have hbind : (m >>= k) c = (m c).bind fun r => k r.1 r.2 := rfl
  rw [hbind, hm]
  exact hk

/-- An expression that is in range has its value. -/
theorem lift_ok {γ : Type} {x : Ranged γ} {v : γ} (hx : x = .ok v) (k : γ → Scan β) (c : ByteCursor) :
    (liftM x >>= k) c = k v c := by
  subst hx
  rfl

theorem Simulates.pure {b : β} {a : α} (h : R b (some a)) : Simulates R (Pure.pure b) (Pure.pure a) := by
  intro c hc
  refine Ends.pure b hc ⟨h, ?_⟩
  rintro x rest ⟨⟩
  rfl

theorem Simulates.failure {b : β} (h : R b none) : Simulates R (Pure.pure b) (failure : Decoder UInt8 α) := by
  intro c hc
  refine Ends.pure b hc ⟨h, ?_⟩
  rintro x rest ⟨⟩

/-- One after the other. Where the decoder fails, the program may go on, as long as its result is one
of a failure. -/
theorem Simulates.bind (hm : Simulates R m d)
    (hk : ∀ b a bs rest, d bs = some (a, rest) → R b (some a) → Simulates R' (k b) (f a))
    (hfail : ∀ b c, c.Valid → R b none → Ends (k b) c fun b' _ => R' b' none) :
    Simulates R' (m >>= k) (d >>= f) := by
  intro c hc
  refine (hm c hc).bind fun b c' hc' hb => ?_
  obtain ⟨hR, hrest⟩ := hb
  cases hd : d c.rest with
  | none =>
    have hnone : (d >>= f) c.rest = none := by rw [bind_apply, hd]; rfl
    rw [hd] at hR
    obtain ⟨b', c₂, hrun, hc₂, hR'⟩ := hfail b c' hc' hR
    refine ⟨b', c₂, hrun, hc₂, ?_⟩
    rw [hnone]
    exact ⟨hR', by rintro a rest ⟨⟩⟩
  | some r =>
    obtain ⟨a, rest⟩ := r
    have hsome : (d >>= f) c.rest = f a c'.rest := by rw [bind_apply, hd, hrest a rest hd]; rfl
    rw [hd] at hR
    rw [hsome]
    exact hk b a c.rest rest hd hR c' hc'

/-- A check between two steps. -/
theorem Simulates.check {p : Prop} [Decidable p] {x : Scan β} {e : Unit → Decoder UInt8 α}
    (ht : p → Simulates R x (e ())) (hf : ¬p → ∀ c, c.Valid → Ends x c fun b _ => R b none) :
    Simulates R x (guard p >>= e) := by
  by_cases hp : p
  · rw [guard, if_pos hp]
    exact ht hp
  · intro c hc
    rw [guard, if_neg hp]
    obtain ⟨b, c', hrun, hc', hR⟩ := hf hp c hc
    refine ⟨b, c', hrun, hc', hR, ?_⟩
    rintro a rest ⟨⟩

/-- A flag turned into an error. -/
theorem Simulates.checked {m : Scan (α × Bool)} {k : α × Bool → Scan (α × Option GoError)} (hm : Simulates Flagged m d)
    (hok : ∀ a, k (a, true) = Pure.pure (a, none))
    (hfail : ∀ a, ∃ b, k (a, false) = Pure.pure (b, some errMalformedHandshake)) : Simulates Checked (m >>= k) d := by
  rw [← bind_pure d]
  refine hm.bind ?_ ?_
  · rintro _ a bs rest - ⟨⟩
    rw [hok]
    exact .pure (.ok a)
  · rintro ⟨a, ok⟩ c hc ⟨⟩
    obtain ⟨b, hb⟩ := hfail a
    rw [hb]
    exact Ends.pure _ hc (.failed b)

end Rules

/-! ## The methods of the cursor -/

namespace ByteCursor

variable {c : ByteCursor}

theorem Valid.remaining (hc : c.Valid) : c.remaining = c.rest.length := by
  have : c.offset ≤ c.data.length := hc
  rw [ByteCursor.remaining, rest, List.length_drop]
  omega

/-- The cursor moved on. -/
theorem rest_advance (c : ByteCursor) (n : Nat) :
    ({ c with offset := c.offset + n } : ByteCursor).rest = c.rest.drop n := by
  rw [rest, rest, List.drop_drop]

theorem Valid.advance (hc : c.Valid) {n : Nat} (hn : n ≤ c.rest.length) :
    ({ c with offset := c.offset + n } : ByteCursor).Valid := by
  have : c.offset ≤ c.data.length := hc
  rw [rest, List.length_drop] at hn
  show c.offset + n ≤ c.data.length
  omega

theorem slice_rest (hc : c.Valid) {n : Nat} (hn : n ≤ c.rest.length) :
    (slice c.data c.offset (c.offset + n) : Ranged Bytes) = .ok (c.rest.take n) := by
  have h : c.offset + n ≤ c.data.length := hc.advance hn
  rw [slice, if_pos ⟨Nat.le_add_right _ _, h⟩, Nat.add_sub_cancel_left]
  rfl

/-- Whether there are `n` bytes, and what taking them leaves. -/
theorem bytes_eq (hc : c.Valid) (n : Nat) :
    bytes n c = if n ≤ c.rest.length then .ok ((c.rest.take n, true), { c with offset := c.offset + n })
      else .ok (([], false), c) := by
  have hrem := hc.remaining
  show (if (n : Int) < 0 ∨ (n : Int) > c.remaining then _ else _ : Scan _) c = _
  by_cases hn : n ≤ c.rest.length
  · rw [if_neg (by omega), if_pos hn]
    rw [Int.toNat_natCast, lift_ok (slice_rest hc hn)]
    rfl
  · rw [if_pos (by omega), if_neg hn]
    rfl

theorem simulates_bytes (n : Nat) : Simulates Flagged (bytes n) (take n) := by
  intro c hc
  unfold Ends
  rw [bytes_eq hc]
  by_cases hn : n ≤ c.rest.length
  · rw [if_pos hn]
    refine ⟨_, _, rfl, hc.advance hn, ?_⟩
    rw [take, if_pos hn]
    refine ⟨.ok _, ?_⟩
    rintro a rest ⟨⟩
    exact rest_advance c n
  · rw [if_neg hn]
    refine ⟨_, _, rfl, hc, ?_⟩
    rw [take, if_neg hn]
    exact ⟨.failed _, by rintro a rest ⟨⟩⟩

theorem simulates_byte : Simulates Flagged byte next := by
  intro c hc
  have hrem := hc.remaining
  show Ends (if c.remaining < 1 then _ else _) c _
  cases hrest : c.rest with
  | nil =>
    rw [hrest] at hrem
    rw [if_pos (by simp [hrem])]
    exact Ends.pure _ hc ⟨.failed _, by rintro a rest ⟨⟩⟩
  | cons b bs =>
    have hlen : 1 ≤ c.rest.length := by rw [hrest]; simp
    rw [if_neg (by omega)]
    have hindex : (index c.data c.offset : Ranged UInt8) = .ok b := by
      have h : c.data[c.offset]? = some b := by rw [← List.head?_drop]; exact congrArg List.head? hrest
      rw [index, h]
    refine ⟨(b, true), { c with offset := c.offset + 1 }, ?_, hc.advance hlen, .ok b, ?_⟩
    · rw [lift_ok hindex]
      rfl
    · rintro a rest ⟨⟩
      rw [rest_advance, hrest]
      rfl

theorem simulates_uint32 : Simulates Flagged uint32 readUint32 := by
  intro c hc
  have hrem := hc.remaining
  show Ends (if c.remaining < 4 then _ else _) c _
  by_cases hn : 4 ≤ c.rest.length
  · have hread : readUint32 c.rest = some (.ofNat (leNat (c.rest.take 4)), c.rest.drop 4) := by
      show ((take 4 c.rest).bind _).bind _ = _
      rw [take, if_pos hn]
      rfl
    rw [if_neg (by omega), hread]
    refine ⟨(.ofNat (leNat (c.rest.take 4)), true), { c with offset := c.offset + 4 }, ?_, hc.advance hn, .ok _, ?_⟩
    · rw [lift_ok (slice_rest hc hn)]
      rfl
    · rintro a rest ⟨⟩
      exact rest_advance c 4
  · have hread : readUint32 c.rest = none := by
      show ((take 4 c.rest).bind _).bind _ = _
      rw [take, if_neg hn]
      rfl
    rw [if_pos (by omega), hread]
    exact Ends.pure _ hc ⟨.failed _, by rintro a rest ⟨⟩⟩

/-- The result of `skip`. -/
def Skipped (ok : Bool) (o : Option Bytes) : Prop := ok = o.isSome

theorem simulates_skip (n : Nat) : Simulates Skipped (skip n) (take n) := by
  intro c hc
  have hrem := hc.remaining
  show Ends (if (n : Int) < 0 ∨ (n : Int) > c.remaining then _ else _) c _
  by_cases hn : n ≤ c.rest.length
  · rw [if_neg (by omega), take, if_pos hn]
    refine ⟨true, { c with offset := c.offset + n }, rfl, hc.advance hn, rfl, ?_⟩
    rintro a rest ⟨⟩
    exact rest_advance c n
  · rw [if_pos (by omega), take, if_neg hn]
    exact Ends.pure _ hc ⟨rfl, by rintro a rest ⟨⟩⟩

/-- The loop looks at the bytes from `i` on; those before it are already part of the value. -/
theorem findNull_eq (rounds i : Nat) (hi : c.offset ≤ i) (hlen : i ≤ c.data.length)
    (hr : c.data.length < i + rounds) :
    (∀ x rest, upTo 0 (c.data.drop i) = some (x, rest) → ∃ c', findNull rounds i c =
      .ok (((c.data.drop c.offset).take (i - c.offset) ++ x, true), c') ∧ c'.Valid ∧ c'.rest = rest) ∧
    (upTo 0 (c.data.drop i) = none → findNull rounds i c = .ok (([], false), c)) := by
  induction rounds generalizing i with
  | zero => omega
  | succ rounds ih =>
    by_cases hlt : i < c.data.length
    · -- the byte at `i` ends the value, or is its next one
      have hdrop := List.drop_eq_getElem_cons hlt
      have hindex : (index c.data i : Ranged UInt8) = .ok c.data[i] := by rw [index, List.getElem?_eq_getElem hlt]
      have hstep : findNull (rounds + 1) i c = (if c.data[i] = 0 then (do
          let value ← (slice c.data c.offset i : Ranged Bytes)
          set { c with offset := i + 1 }
          return (value, true)) else findNull rounds (i + 1) : Scan _) c := by
        show (if i < c.data.length then _ else _ : Scan _) c = _
        rw [if_pos hlt, lift_ok hindex]
      rw [hstep, hdrop, upTo]
      by_cases hz : c.data[i] = 0
      · have hslice : (slice c.data c.offset i : Ranged Bytes) = .ok ((c.data.drop c.offset).take (i - c.offset)) := by
          rw [slice, if_pos ⟨hi, hlen⟩]
        rw [if_pos hz, if_pos hz, lift_ok hslice]
        refine ⟨?_, by rintro ⟨⟩⟩
        rintro x rest ⟨⟩
        refine ⟨{ c with offset := i + 1 }, ?_, hlt, rfl⟩
        rw [List.append_nil]
        rfl
      · obtain ⟨hsome, hnone⟩ := ih (i + 1) (by omega) hlt (by omega)
        have htake : (c.data.drop c.offset).take (i + 1 - c.offset) =
            (c.data.drop c.offset).take (i - c.offset) ++ [c.data[i]] := by
          have hk : i - c.offset < (c.data.drop c.offset).length := by rw [List.length_drop]; omega
          rw [Nat.sub_add_comm hi, List.take_succ_eq_append_getElem hk, List.getElem_drop]
          simp only [Nat.add_sub_cancel' hi]
        rw [if_neg hz, if_neg hz]
        constructor
        · intro x rest h
          obtain ⟨⟨y, rest'⟩, hy, h⟩ := Option.map_eq_some_iff.1 h
          cases h
          obtain ⟨c', hrun, hc', hrest⟩ := hsome y _ hy
          refine ⟨c', ?_, hc', hrest⟩
          rw [hrun, htake, List.append_assoc]
          rfl
        · intro h
          exact hnone (Option.map_eq_none_iff.1 h)
    · have hnil : c.data.drop i = [] := List.drop_eq_nil_of_le (by omega)
      rw [hnil]
      refine ⟨by rintro x rest ⟨⟩, fun _ => ?_⟩
      show (if i < c.data.length then _ else _ : Scan _) c = _
      rw [if_neg hlt]
      rfl

theorem simulates_nullTerminated : Simulates Flagged nullTerminated (upTo 0) := by
  intro c hc
  obtain ⟨hsome, hnone⟩ := findNull_eq (c.data.length + 1) c.offset le_rfl hc (by omega)
  show Ends (findNull (c.data.length + 1) c.offset) c _
  change ∀ x rest, upTo 0 c.rest = _ → _ at hsome
  change upTo 0 c.rest = _ → _ at hnone
  cases hd : upTo 0 c.rest with
  | none => exact ⟨_, c, hnone hd, hc, .failed _, by rintro a rest ⟨⟩⟩
  | some r =>
    obtain ⟨x, rest⟩ := r
    obtain ⟨c', hrun, hc', hrest⟩ := hsome x rest hd
    rw [Nat.sub_self, List.take_zero, List.nil_append] at hrun
    refine ⟨_, c', hrun, hc', .ok x, ?_⟩
    rintro a rest ⟨⟩
    exact hrest

/-- The results of `lenEncodedInt`. -/
def CheckedInt (r : UInt64 × Option GoError) (o : Option Nat) : Prop := Checked (r.1.toNat, r.2) o

/-- Bytes put together by shifts are their little-endian number. -/
theorem toNat_three (a b c : UInt8) :
    (a.toUInt64 ||| b.toUInt64 <<< 8 ||| c.toUInt64 <<< 16).toNat = leNat [a, b, c] := by
  have ha := a.toNat_lt
  have hb := b.toNat_lt
  have hc := c.toNat_lt
  have h8 : (b.toUInt64 <<< 8).toNat = 2 ^ 8 * b.toNat := by
    rw [UInt64.toNat_shiftLeft, Nat.shiftLeft_eq, UInt8.toNat_toUInt64]
    change b.toNat * 2 ^ 8 % 2 ^ 64 = _
    omega
  have h16 : (c.toUInt64 <<< 16).toNat = 2 ^ 16 * c.toNat := by
    rw [UInt64.toNat_shiftLeft, Nat.shiftLeft_eq, UInt8.toNat_toUInt64]
    change c.toNat * 2 ^ 16 % 2 ^ 64 = _
    omega
  have hlow : a.toNat ||| 2 ^ 8 * b.toNat = 2 ^ 8 * b.toNat + a.toNat := by
    rw [Nat.or_comm, ← Nat.two_pow_add_eq_or_of_lt ha]
  rw [UInt64.toNat_or, UInt64.toNat_or, h8, h16, UInt8.toNat_toUInt64, hlow, Nat.or_comm,
    ← Nat.two_pow_add_eq_or_of_lt (by omega)]
  simp only [leNat_cons]
  change _ = a.toNat + 256 * (b.toNat + 256 * (c.toNat + 256 * 0))
  omega

/-- A fixed number of bytes behind the first one. -/
theorem simulates_width {n : Nat} {k : Bytes × Bool → Scan (UInt64 × Option GoError)}
    (hk : ∀ value : Bytes, value.length = n → Simulates CheckedInt (k (value, true)) (pure (leNat value)))
    (hfail : ∀ value, k (value, false) = pure (0, some errMalformedHandshake)) :
    Simulates CheckedInt (bytes n >>= k) (readLE n) := by
  refine (simulates_bytes n).bind ?_ ?_
  · rintro _ value bs rest hd ⟨⟩
    exact hk value (take_eq_some hd).1
  · rintro ⟨value, ok⟩ c hc ⟨⟩
    rw [hfail]
    exact Ends.pure _ hc (.failed _)

/-- A width of up to eight bytes fits. -/
theorem checked_leNat {value : Bytes} (h : value.length ≤ 8) :
    CheckedInt (.ofNat (leNat value), none) (some (leNat value)) := by
  have hlt : leNat value < 2 ^ 64 :=
    Nat.lt_of_lt_of_le (leNat_lt value) (Nat.pow_le_pow_right (by decide) h)
  have hval : (UInt64.ofNat (leNat value)).toNat = leNat value := UInt64.toNat_ofNat_of_lt hlt
  rw [CheckedInt, hval]
  exact .ok _

theorem simulates_lenEncodedInt : Simulates CheckedInt lenEncodedInt readLenencInt := by
  refine simulates_byte.bind ?_ ?_
  · rintro _ first bs rest hd ⟨⟩
    show Simulates CheckedInt (if first = 0xfc then _ else _) _
    by_cases h₁ : first = 0xfc
    · rw [if_pos h₁, if_pos h₁]
      exact simulates_width (n := 2) (fun value hv => .pure (checked_leNat (by omega))) fun _ => rfl
    rw [if_neg h₁, if_neg h₁]
    by_cases h₂ : first = 0xfd
    · rw [if_pos h₂, if_pos h₂]
      refine simulates_width (n := 3) (fun value hv => ?_) fun _ => rfl
      obtain ⟨a, b, c, rfl⟩ := List.length_eq_three.1 hv
      refine Simulates.pure (b := (a.toUInt64 ||| b.toUInt64 <<< 8 ||| c.toUInt64 <<< 16, none)) ?_
      rw [CheckedInt, toNat_three]
      exact .ok _
    rw [if_neg h₂, if_neg h₂]
    by_cases h₃ : first = 0xfe
    · rw [if_pos h₃, if_pos h₃]
      exact simulates_width (n := 8) (fun value hv => .pure (checked_leNat (by omega))) fun _ => rfl
    rw [if_neg h₃, if_neg h₃]
    by_cases h₄ : first = 0xfb ∨ first = 0xff
    · rw [if_pos h₄, if_pos h₄]
      exact .failure (.failed _)
    · rw [if_neg h₄, if_neg h₄]
      refine .pure ?_
      rw [CheckedInt, UInt8.toNat_toUInt64]
      exact .ok _
  · rintro _ c hc ⟨⟩
    exact Ends.pure _ hc (.failed _)

end ByteCursor

/-- A string with its length in front; the length is an `int`. -/
def readString : Decoder UInt8 Bytes := do
  let n ← readLenencInt
  guard (n < 2 ^ 63)
  take n

theorem ByteCursor.simulates_lenEncodedBytes : Simulates Checked lenEncodedBytes readString := by
  refine simulates_lenEncodedInt.bind ?_ ?_
  · rintro ⟨length, err⟩ n bs rest hd hn
    obtain ⟨rfl, rfl⟩ : n = length.toNat ∧ err = none := by
      cases hn
      exact ⟨rfl, rfl⟩
    refine .check (fun hlt => ?_) fun hge c hc => ?_
    · refine fun c hc => ?_
      have hrem := hc.remaining
      show Ends (if (length.toNat : Int) > c.remaining ∨ length.toNat > 2 ^ 63 - 1 then _ else _) c _
      by_cases hn : length.toNat ≤ c.rest.length
      · rw [if_neg (by omega), take, if_pos hn]
        have hbytes := (bytes_eq hc length.toNat).trans (if_pos hn)
        refine ⟨(c.rest.take length.toNat, none), { c with offset := c.offset + length.toNat }, ?_, hc.advance hn,
          .ok _, ?_⟩
        · show (bytes length.toNat c).bind _ = _
          rw [hbytes]
          rfl
        · rintro a rest ⟨⟩
          exact rest_advance c length.toNat
      · rw [if_pos (.inl (by omega)), take, if_neg hn]
        exact Ends.pure _ hc ⟨.failed _, by rintro a rest ⟨⟩⟩
    · show Ends (if (length.toNat : Int) > c.remaining ∨ length.toNat > 2 ^ 63 - 1 then _ else _) c _
      rw [if_pos (.inr (by omega))]
      exact Ends.pure _ hc (.failed _)
  · rintro ⟨length, err⟩ c hc hn
    obtain rfl : err = some errMalformedHandshake := by
      cases hn
      rfl
    exact Ends.pure _ hc (.failed _)

/-! ## The grammar -/

/-- The auth response, in the form the client announced. -/
def readAuth (client : Capability) : Decoder UInt8 Bytes :=
  if client.has clientPluginAuthLenencClientData then readString
  else if client.has clientSecureConnection then do
    let length ← next
    take length.toNat
  else upTo 0

def readPair : Decoder UInt8 (Bytes × Bytes) := do
  let key ← readString
  let value ← readString
  guard (key.length ≠ 0)
  pure (key, value)

/-- The map that pairs make: a later one replaces an earlier one. -/
def Attributes.ofPairs (attributes : Attributes) (pairs : List (Bytes × Bytes)) : Attributes :=
  pairs.foldl (fun m p => m.insert p.1 p.2) attributes

def readPairs (limit : Int) : Decoder UInt8 (List (Bytes × Bytes)) := do
  let b ← readString
  guard ((b.length : Int) ≤ limit)
  liftM (all readPair (b.length + 1) b)

namespace Handshake

variable (h : Handshake)

def readEnd (response : HandshakeResponse) : Decoder UInt8 HandshakeResponse := do
  eof
  pure (if response.authPlugin = [] then { response with authPlugin := h.config.authPlugin } else response)

def readAttributes (client : Capability) (response : HandshakeResponse) : Decoder UInt8 HandshakeResponse :=
  if client.has clientConnectAttrs then do
    let pairs ← readPairs h.config.maxAttributesBytes.toInt
    h.readEnd { response with attributes := response.attributes.ofPairs pairs }
  else h.readEnd response

def readPlugin (client : Capability) (response : HandshakeResponse) : Decoder UInt8 HandshakeResponse :=
  if client.has clientPluginAuth then do
    let authPlugin ← upTo 0
    h.readAttributes client { response with authPlugin }
  else h.readAttributes client response

def readDatabase (client : Capability) (response : HandshakeResponse) : Decoder UInt8 HandshakeResponse :=
  if client.has clientConnectWithDB then do
    let database ← upTo 0
    h.readPlugin client { response with database }
  else h.readPlugin client response

def readFields (client : Capability) (response : HandshakeResponse) : Decoder UInt8 HandshakeResponse := do
  let username ← upTo 0
  let authResponse ← readAuth client
  h.readDatabase client { response with username, authResponse }

/-- The response before its fields are read. -/
def opened (client : Capability) (maxPacket : UInt32) (charset : UInt8) : HandshakeResponse where
  clientCapabilities := client
  negotiated := client &&& h.config.capabilities
  maxPacketBytes := maxPacket
  charsetID := charset

/-- Capabilities, packet size and charset, and the filler behind them. -/
def readHead : Decoder UInt8 (Capability × UInt32 × UInt8) := do
  let client ← readUint32
  let maxPacket ← readUint32
  let charset ← next
  let _ ← take 23
  pure (client, maxPacket, charset)

/-- What is made of the bytes behind the fixed part. -/
def restMeaning (client : Capability) (maxPacket : UInt32) (charset : UInt8) (rest : Bytes) : ParseResult :=
  match h.validateCapabilities client charset with
  | some e => refused e
  | none =>
    if rest = [] ∧ client.has clientSSL then
      if !h.config.capabilities.has clientSSL then refused (errUnsupportedCapability (lit "tls"))
      else ({ h.opened client maxPacket charset with wantsTLS := true }, none)
    else
      match h.readFields client (h.opened client maxPacket charset) rest with
      | some (response, _) => (response, none)
      | none => refused errMalformedHandshake

/-- What is made of a payload. -/
def meaning (payload : Bytes) : ParseResult :=
  match readHead payload with
  | some ((client, maxPacket, charset), rest) => h.restMeaning client maxPacket charset rest
  | none => refused errMalformedHandshake

end Handshake

/-! ## The parser simulates the grammar -/

/-- The results of the parser. -/
inductive Verdict : ParseResult → Option HandshakeResponse → Prop where
  | ok (r : HandshakeResponse) : Verdict (r, none) (some r)
  | failed : Verdict (refused errMalformedHandshake) none

section Parser

open ByteCursor

theorem simulates_parseAuth (client : Capability) : Simulates Checked (parseAuth client) (readAuth client) := by
  unfold parseAuth readAuth
  split
  · exact simulates_lenEncodedBytes
  split
  · refine simulates_byte.bind ?_ ?_
    · rintro _ length bs rest hd ⟨⟩
      exact (simulates_bytes length.toNat).checked (fun _ => rfl) fun a => ⟨a, rfl⟩
    · rintro _ c hc ⟨⟩
      exact Ends.pure _ hc (.failed _)
  · exact simulates_nullTerminated.checked (fun _ => rfl) fun _ => ⟨[], rfl⟩

theorem local_readString : Local readString :=
  local_readLenencInt.bind fun n => (local_guard _).bind fun _ => Local.take n

theorem local_readPair : Local readPair :=
  local_readString.bind fun _ => local_readString.bind fun _ => (local_guard _).bind fun _ => Local.pure _

/-- The loop reads pairs up to the end of its bytes. -/
theorem parsePairs_eq (rounds : Nat) (attributes : Attributes) {c : ByteCursor} (hc : c.Valid)
    (hr : c.rest.length < rounds) :
    Ends (parsePairs rounds attributes) c fun r _ => r = (all readPair rounds c.rest).map attributes.ofPairs := by
  induction rounds generalizing attributes c with
  | zero => omega
  | succ rounds ih =>
    have hrem := hc.remaining
    show Ends (if c.remaining > 0 then _ else _) c _
    by_cases hnil : c.rest = []
    · rw [if_neg (by rw [hrem, hnil]; decide), all, if_pos hnil]
      exact Ends.pure _ hc rfl
    · have hpos := List.length_pos_of_ne_nil hnil
      rw [if_pos (by omega), all, if_neg hnil]
      refine Ends.bind (simulates_lenEncodedBytes c hc) ?_
      rintro ⟨key, keyErr⟩ c₁ hc₁ ⟨hkey, hrest₁⟩
      refine Ends.bind (simulates_lenEncodedBytes c₁ hc₁) ?_
      rintro ⟨value, valueErr⟩ c₂ hc₂ ⟨hvalue, hrest₂⟩
      show Ends (if keyErr ≠ none ∨ valueErr ≠ none ∨ key.length = 0 then _ else _) c₂ _
      have hpair : readPair c.rest = (readString c.rest).bind fun r => (readString r.2).bind fun r' =>
          (guard (r.1.length ≠ 0) >>= fun _ => pure (r.1, r'.1) : Decoder UInt8 _) r'.2 := rfl
      cases hd₁ : readString c.rest with
      | none =>
        rw [hd₁] at hkey
        cases hkey
        rw [if_pos (.inl (by simp)), hpair, hd₁]
        exact Ends.pure _ hc₂ rfl
      | some r₁ =>
        obtain ⟨k, rest₁⟩ := r₁
        obtain rfl := hrest₁ k rest₁ hd₁
        rw [hd₁] at hkey
        cases hkey
        cases hd₂ : readString c₁.rest with
        | none =>
          rw [hd₂] at hvalue
          cases hvalue
          rw [if_pos (.inr (.inl (by simp))), hpair, hd₁, Option.bind_some, hd₂]
          exact Ends.pure _ hc₂ rfl
        | some r₂ =>
          obtain ⟨v, rest₂⟩ := r₂
          obtain rfl := hrest₂ v rest₂ hd₂
          rw [hd₂] at hvalue
          cases hvalue
          by_cases hempty : k.length = 0
          · rw [if_pos (.inr (.inr hempty)), hpair, hd₁, Option.bind_some, hd₂, Option.bind_some, guard,
              if_neg (not_not.2 hempty)]
            exact Ends.pure _ hc₂ rfl
          · have hread : readPair c.rest = some ((k, v), c₂.rest) := by
              rw [hpair, hd₁, Option.bind_some, hd₂, Option.bind_some, guard, if_pos hempty]
              rfl
            have hlt := local_readPair.length_lt rfl hread
            obtain ⟨r, c₃, hrun, hc₃, hr₃⟩ := ih (attributes.insert k v) hc₂ (by omega)
            rw [if_neg (by rintro (h | h | h) <;> first | exact h rfl | exact hempty h), hread, Option.bind_some]
            refine ⟨r, c₃, hrun, hc₃, ?_⟩
            rw [hr₃, Option.map_map]
            rfl

variable (h : Handshake) (client : Capability)

theorem simulates_parseEnd (response : HandshakeResponse) :
    Simulates Verdict (h.parseEnd response) (h.readEnd response) := by
  intro c hc
  have hrem := hc.remaining
  show Ends (if c.remaining ≠ 0 then _ else _) c _
  cases hrest : c.rest with
  | cons b bs =>
    rw [hrest, List.length_cons] at hrem
    rw [if_pos (by omega)]
    exact Ends.pure _ hc ⟨.failed, by rintro a rest ⟨⟩⟩
  | nil =>
    rw [hrest] at hrem
    rw [if_neg (fun hne => hne hrem)]
    have hread : h.readEnd response [] = some (if response.authPlugin = [] then
        { response with authPlugin := h.config.authPlugin } else response, []) := rfl
    rw [hread]
    split
    · refine Ends.pure _ hc ⟨.ok _, ?_⟩
      rintro a rest ⟨⟩
      exact hrest
    · refine Ends.pure _ hc ⟨.ok _, ?_⟩
      rintro a rest ⟨⟩
      exact hrest

/-- A field that the response may lack. -/
theorem simulates_field {x : Scan (Bytes × Bool)} {d : Decoder UInt8 Bytes} (hx : Simulates Flagged x d)
    {k : Bytes × Bool → Scan ParseResult} {f : Bytes → Decoder UInt8 HandshakeResponse}
    (hk : ∀ a, Simulates Verdict (k (a, true)) (f a))
    (hfail : ∀ a, k (a, false) = pure (refused errMalformedHandshake)) : Simulates Verdict (x >>= k) (d >>= f) := by
  refine hx.bind ?_ ?_
  · rintro _ a bs rest - ⟨⟩
    exact hk a
  · rintro ⟨a, ok⟩ c hc ⟨⟩
    rw [hfail]
    exact Ends.pure _ hc .failed

theorem simulates_parseAttributes (response : HandshakeResponse) :
    Simulates Verdict (h.parseAttributes client response) (h.readAttributes client response) := by
  unfold Handshake.parseAttributes Handshake.readAttributes
  split
  · rw [readPairs, bind_assoc]
    refine simulates_lenEncodedBytes.bind ?_ ?_
    · rintro _ b bs rest - ⟨⟩
      rw [bind_assoc]
      show Simulates Verdict (if none ≠ none ∨ (b.length : Int) > h.config.maxAttributesBytes.toInt then _ else _) _
      refine .check (fun hle => ?_) fun hgt c hc => ?_
      · rw [if_neg (by rintro (hne | hgt); exact hne rfl; omega)]
        -- the loop runs on a cursor of its own
        obtain ⟨r, c', hrun, -, hr⟩ := parsePairs_eq (b.length + 1) response.attributes (c := ⟨b, 0⟩)
          (Nat.zero_le _) (Nat.lt_succ_self _)
        have hk : ∀ (k : Option Attributes × ByteCursor → Scan ParseResult),
            (liftM ((parsePairs (b.length + 1) response.attributes).run ⟨b, 0⟩) >>= k) = k (r, c') :=
          fun k => funext fun c => lift_ok hrun k c
        refine (hk _).symm ▸ ?_
        change r = (all readPair (b.length + 1) b).map response.attributes.ofPairs at hr
        cases hall : all readPair (b.length + 1) b with
        | none =>
          rw [hall] at hr
          subst hr
          exact .failure .failed
        | some pairs =>
          rw [hall] at hr
          subst hr
          exact simulates_parseEnd h _
      · rw [if_pos (.inr (by omega))]
        exact Ends.pure _ hc .failed
    · rintro _ c hc ⟨⟩
      exact Ends.pure _ hc .failed
  · exact simulates_parseEnd h response

theorem simulates_parsePlugin (response : HandshakeResponse) :
    Simulates Verdict (h.parsePlugin client response) (h.readPlugin client response) := by
  unfold Handshake.parsePlugin Handshake.readPlugin
  split
  · exact simulates_field simulates_nullTerminated (fun a => simulates_parseAttributes h client _) fun _ => rfl
  · exact simulates_parseAttributes h client response

theorem simulates_parseDatabase (response : HandshakeResponse) :
    Simulates Verdict (h.parseDatabase client response) (h.readDatabase client response) := by
  unfold Handshake.parseDatabase Handshake.readDatabase
  split
  · exact simulates_field simulates_nullTerminated (fun a => simulates_parsePlugin h client _) fun _ => rfl
  · exact simulates_parsePlugin h client response

theorem simulates_parseFields (response : HandshakeResponse) :
    Simulates Verdict (h.parseFields client response) (h.readFields client response) := by
  refine simulates_field simulates_nullTerminated (fun username => ?_) fun _ => rfl
  refine (simulates_parseAuth client).bind ?_ ?_
  · rintro _ auth bs rest - ⟨⟩
    exact simulates_parseDatabase h client _
  · rintro _ c hc ⟨⟩
    exact Ends.pure _ hc .failed

theorem parseRest_eq (maxPacket : UInt32) (charset : UInt8) {c : ByteCursor} (hc : c.Valid) :
    Ends (h.parseRest client maxPacket charset) c fun r _ => r = h.restMeaning client maxPacket charset c.rest := by
  unfold Handshake.parseRest Handshake.restMeaning
  cases h.validateCapabilities client charset with
  | some e => exact Ends.pure _ hc rfl
  | none =>
    have hrem : c.remaining = 0 ↔ c.rest = [] := by
      rw [hc.remaining, Int.natCast_eq_zero, List.length_eq_zero_iff]
    show Ends (if c.remaining = 0 ∧ client.has clientSSL then _ else _) c _
    simp only [hrem]
    split
    · split
      · exact Ends.pure _ hc rfl
      · exact Ends.pure _ hc rfl
    · obtain ⟨r, c', hrun, hc', hr, -⟩ := simulates_parseFields h client (h.opened client maxPacket charset) c hc
      refine ⟨r, c', hrun, hc', ?_⟩
      cases hd : h.readFields client (h.opened client maxPacket charset) c.rest with
      | none =>
        rw [hd] at hr
        cases hr
        rfl
      | some x =>
        rw [hd] at hr
        cases hr
        rfl

/-- A step that the decoder takes, and what the program makes of its failure. -/
theorem Ends.step {α β γ : Type} {R : β → Option α → Prop} {x : Scan β} {d : Decoder UInt8 α} {k : β → Scan γ}
    {Q : γ → ByteCursor → Prop} {c : ByteCursor} (hx : Simulates R x d) (hc : c.Valid)
    (hk : ∀ b a rest, d c.rest = some (a, rest) → R b (some a) → ∀ c', c'.Valid → c'.rest = rest → Ends (k b) c' Q)
    (hfail : d c.rest = none → ∀ b, R b none → ∀ c', c'.Valid → Ends (k b) c' Q) : Ends (x >>= k) c Q := by
  refine (hx c hc).bind fun b c' hc' hb => ?_
  cases hd : d c.rest with
  | none =>
    rw [hd] at hb
    exact hfail hd b hb.1 c' hc'
  | some r =>
    rw [hd] at hb
    exact hk b r.1 r.2 hd hb.1 c' hc' (hb.2 r.1 r.2 rfl)

theorem meaning_none {payload : Bytes} (hhead : Handshake.readHead payload = none) :
    h.meaning payload = refused errMalformedHandshake := by rw [Handshake.meaning, hhead]

theorem meaning_some {payload rest : Bytes} {maxPacket : UInt32} {charset : UInt8}
    (hhead : Handshake.readHead payload = some ((client, maxPacket, charset), rest)) :
    h.meaning payload = h.restMeaning client maxPacket charset rest := by rw [Handshake.meaning, hhead]

theorem parseCursor_eq (payload : Bytes) :
    Ends h.parseCursor ⟨payload, 0⟩ fun r _ => r = h.meaning payload := by
  have hhead : Handshake.readHead payload = (readUint32 payload).bind fun r₁ => (readUint32 r₁.2).bind fun r₂ =>
      (next r₂.2).bind fun r₃ => (take 23 r₃.2).bind fun r₄ => some ((r₁.1, r₂.1, r₃.1), r₄.2) := rfl
  refine .step simulates_uint32 (Nat.zero_le _) ?_ ?_
  swap
  · rintro hd _ ⟨⟩ c hc
    change readUint32 payload = none at hd
    rw [hd] at hhead
    exact Ends.pure _ hc (meaning_none h hhead).symm
  rintro _ client rest₁ hd₁ ⟨⟩ c₁ hc₁ rfl
  change readUint32 payload = _ at hd₁
  rw [hd₁, Option.bind_some] at hhead
  refine .step simulates_uint32 hc₁ ?_ ?_
  swap
  · rintro hd _ ⟨⟩ c hc
    rw [hd] at hhead
    exact Ends.pure _ hc (meaning_none h hhead).symm
  rintro _ maxPacket rest₂ hd₂ ⟨⟩ c₂ hc₂ rfl
  rw [hd₂, Option.bind_some] at hhead
  refine .step simulates_byte hc₂ ?_ ?_
  swap
  · rintro hd _ ⟨⟩ c hc
    rw [hd] at hhead
    exact Ends.pure _ hc (meaning_none h hhead).symm
  rintro _ charset rest₃ hd₃ ⟨⟩ c₃ hc₃ rfl
  rw [hd₃, Option.bind_some] at hhead
  refine .step (simulates_skip 23) hc₃ ?_ ?_
  swap
  · rintro hd ok hok c hc
    obtain rfl : ok = false := hok
    rw [hd] at hhead
    exact Ends.pure _ hc (meaning_none h hhead).symm
  rintro ok filler rest₄ hd₄ hok c₄ hc₄ rfl
  obtain rfl : ok = true := hok
  rw [hd₄, Option.bind_some] at hhead
  rw [meaning_some h client hhead]
  exact parseRest_eq h client maxPacket charset hc₄

theorem length_of_readUint32 {bs rest : Bytes} {v : UInt32} (hd : readUint32 bs = some (v, rest)) :
    bs.length = 4 + rest.length := by
  obtain ⟨n, mid, hn, hv⟩ := bind_eq_some hd
  obtain ⟨b, mid', hb, hn⟩ := bind_eq_some hn
  cases hn
  cases hv
  obtain ⟨hlen, rfl⟩ := take_eq_some hb
  rw [List.length_append, hlen]

theorem length_of_readHead {payload rest : Bytes} {x : Capability × UInt32 × UInt8}
    (hhead : Handshake.readHead payload = some (x, rest)) : payload.length = 32 + rest.length := by
  obtain ⟨client, rest₁, h₁, hhead⟩ := bind_eq_some hhead
  obtain ⟨maxPacket, rest₂, h₂, hhead⟩ := bind_eq_some hhead
  obtain ⟨charset, rest₃, h₃, hhead⟩ := bind_eq_some hhead
  obtain ⟨filler, rest₄, h₄, hhead⟩ := bind_eq_some hhead
  cases hhead
  have hlen₁ := length_of_readUint32 h₁
  have hlen₂ := length_of_readUint32 h₂
  have hlen₃ : rest₂.length = 1 + rest₃.length := by
    cases rest₂ with
    | nil => cases h₃
    | cons b bs =>
      cases h₃
      rw [List.length_cons, Nat.add_comm]
  obtain ⟨hlen₄, rfl⟩ := take_eq_some h₄
  rw [List.length_append] at hlen₃
  omega

/-- The parser makes of every payload what the grammar says, without a fault. -/
theorem parseResponse_eq (payload : Bytes) : h.parseResponse payload = .ok (h.meaning payload) := by
  rw [Handshake.parseResponse]
  split
  · rename_i hshort
    cases hhead : Handshake.readHead payload with
    | none => rw [meaning_none h hhead]
    | some r =>
      have := length_of_readHead hhead
      omega
  · obtain ⟨r, c, hrun, -, rfl⟩ := parseCursor_eq h payload
    show (h.parseCursor ⟨payload, 0⟩).map _ = _
    rw [hrun]
    rfl

end Parser

/-! ## Responses and their encoding -/

/-- A handshake response as the client has it. -/
structure Login where
  clientCapabilities : Capability
  maxPacketBytes : UInt32
  charsetID : UInt8
  username : Bytes
  authResponse : Bytes
  database : Bytes
  authPlugin : Bytes
  attributes : List (Bytes × Bytes)
  deriving DecidableEq, Repr

def pairBytes (p : Bytes × Bytes) : Bytes := lenencBytes p.1 ++ lenencBytes p.2

namespace Login

variable (l : Login)

/-- The fixed part of the encoding in protocol 4.1. -/
def head : Bytes :=
  leBytes 4 l.clientCapabilities.toNat ++ leBytes 4 l.maxPacketBytes.toNat ++ [l.charsetID] ++ List.replicate 23 0

def authBytes : Bytes :=
  if l.clientCapabilities.has clientPluginAuthLenencClientData then lenencBytes l.authResponse
  else if l.clientCapabilities.has clientSecureConnection then UInt8.ofNat l.authResponse.length :: l.authResponse
  else l.authResponse ++ [0]

/-- The fields behind the fixed part. -/
def fields : Bytes :=
  (l.username ++ [0]) ++ (l.authBytes ++
    ((if l.clientCapabilities.has clientConnectWithDB then l.database ++ [0] else []) ++
      ((if l.clientCapabilities.has clientPluginAuth then l.authPlugin ++ [0] else []) ++
        if l.clientCapabilities.has clientConnectAttrs then lenencBytes (l.attributes.flatMap pairBytes) else [])))

def encode : Bytes := l.head ++ l.fields

/-- The responses a client can mean: strings without the byte that ends them, a plugin, attributes
with keys and within the limit, and nothing where the capability is missing. The length of the auth
response is that of a slice, and a byte where it is written as one. -/
structure WellFormed (h : Handshake) (l : Login) : Prop where
  accepted : h.validateCapabilities l.clientCapabilities l.charsetID = none
  username : 0 ∉ l.username
  database : 0 ∉ l.database
  authPlugin : 0 ∉ l.authPlugin
  authPlugin_ne : l.authPlugin ≠ []
  auth_lt : l.authResponse.length < 2 ^ 63
  auth_le : l.clientCapabilities.has clientPluginAuthLenencClientData = false → l.authResponse.length ≤ 255
  keys : ∀ p ∈ l.attributes, p.1 ≠ []
  fits : ((l.attributes.flatMap pairBytes).length : Int) ≤ h.config.maxAttributesBytes.toInt
  no_database : l.clientCapabilities.has clientConnectWithDB = false → l.database = []
  no_attributes : l.clientCapabilities.has clientConnectAttrs = false → l.attributes = []

/-- The response that should be read. -/
def response (h : Handshake) : HandshakeResponse where
  clientCapabilities := l.clientCapabilities
  negotiated := l.clientCapabilities &&& h.config.capabilities
  maxPacketBytes := l.maxPacketBytes
  charsetID := l.charsetID
  username := l.username
  authResponse := l.authResponse
  database := l.database
  authPlugin := l.authPlugin
  attributes := Attributes.ofPairs ∅ l.attributes

end Login

section Login

variable {h : Handshake} {l : Login}

theorem reads_head (l : Login) :
    Reads Handshake.readHead l.head (l.clientCapabilities, l.maxPacketBytes, l.charsetID) := by
  simp only [Login.head, List.append_assoc]
  refine (reads_uint32 _).bind ((reads_uint32 _).bind ((reads_next _).bind ?_))
  exact (reads_take (by simp)).map fun _ => _

theorem reads_string {b : Bytes} (hb : b.length < 2 ^ 63) : Reads readString (lenencBytes b) b :=
  (reads_lenencInt (by omega)).bind (.check hb (reads_take rfl))

theorem reads_pair {p : Bytes × Bytes} (hkey : p.1 ≠ []) (hlen : (pairBytes p).length < 2 ^ 63) :
    Reads readPair (pairBytes p) p := by
  simp only [pairBytes, lenencBytes, List.length_append] at hlen
  have hkey' : p.1.length ≠ 0 := fun h0 => hkey (List.eq_nil_of_length_eq_zero h0)
  exact (reads_string (by omega)).bind ((reads_string (by omega)).bind_nil (.check hkey' (.pure _)))

/-- Clients that are accepted announce all that is required. -/
theorem has_of_accepted (hv : h.validateCapabilities l.clientCapabilities l.charsetID = none) :
    l.clientCapabilities.has clientSecureConnection = true ∧ l.clientCapabilities.has clientPluginAuth = true := by
  have hrequired : l.clientCapabilities &&& (clientProtocol41 ||| clientSecureConnection ||| clientPluginAuth) =
      clientProtocol41 ||| clientSecureConnection ||| clientPluginAuth := by
    by_contra hne
    rw [Handshake.validateCapabilities, if_pos hne] at hv
    cases hv
  -- a flag among the required ones is one of the client's
  have hflag : ∀ flag : Capability, flag ≠ 0 →
      (clientProtocol41 ||| clientSecureConnection ||| clientPluginAuth) &&& flag = flag →
      l.clientCapabilities.has flag = true := by
    intro flag hne hsub
    rw [Capability.has, ← hsub, ← UInt32.and_assoc, hrequired, hsub]
    exact decide_eq_true hne
  exact ⟨hflag _ (by decide) (by decide), hflag _ (by decide) (by decide)⟩

theorem reads_auth (hl : l.WellFormed h) : Reads (readAuth l.clientCapabilities) l.authBytes l.authResponse := by
  unfold readAuth Login.authBytes
  split
  · exact reads_string hl.auth_lt
  rename_i hlenenc
  have hle := hl.auth_le (Bool.not_eq_true _ ▸ hlenenc)
  have hlen : (UInt8.ofNat l.authResponse.length).toNat = l.authResponse.length :=
    UInt8.toNat_ofNat_of_lt (by change _ < 256; omega)
  rw [if_pos (has_of_accepted hl.accepted).1, if_pos (has_of_accepted hl.accepted).1]
  exact (reads_next _).bind (reads_take hlen.symm)

theorem reads_pairs (hl : l.WellFormed h) :
    Reads (readPairs h.config.maxAttributesBytes.toInt) (lenencBytes (l.attributes.flatMap pairBytes)) l.attributes := by
  have hmax := h.config.maxAttributesBytes.toInt_lt
  have hfits := hl.fits
  have hne : ∀ p : Bytes × Bytes, pairBytes p ≠ [] := by
    intro p
    obtain ⟨b, bs, hb, -⟩ := head_lenencInt p.1.length
    simp [pairBytes, lenencBytes, hb]
  have hpair : ∀ p ∈ l.attributes, Reads readPair (pairBytes p) p := by
    intro p hp
    have hle : (pairBytes p).length ≤ (l.attributes.flatMap pairBytes).length :=
      (List.sublist_flatten_of_mem (List.mem_map_of_mem hp)).length_le
    exact reads_pair (hl.keys p hp) (by omega)
  have hall := Reads.all hpair (fun p _ => hne p) (Nat.lt_succ_self _)
  refine (reads_string (by omega)).bind_nil (.check hl.fits ?_)
  rw [hall]
  exact .pure _

/-- The fields are read back. -/
theorem readFields_fields (hl : l.WellFormed h) :
    h.readFields l.clientCapabilities (h.opened l.clientCapabilities l.maxPacketBytes l.charsetID) l.fields =
      some (l.response h, []) := by
  obtain ⟨-, hplugin⟩ := has_of_accepted hl.accepted
  rw [Login.fields, Handshake.readFields, (reads_upTo hl.username).apply_bind, (reads_auth hl).apply_bind]
  -- what the client did not announce is empty in the response as in the encoding
  have hend : ∀ response : HandshakeResponse, response.authPlugin ≠ [] → h.readEnd response [] = some (response, []) := by
    intro response hne
    show some ((if response.authPlugin = [] then _ else response), []) = _
    rw [if_neg hne]
  have hattributes : ∀ response : HandshakeResponse, response.authPlugin = l.authPlugin → response.attributes = ∅ →
      h.readAttributes l.clientCapabilities response (if l.clientCapabilities.has clientConnectAttrs then
        lenencBytes (l.attributes.flatMap pairBytes) else []) =
      some ({ response with attributes := Attributes.ofPairs ∅ l.attributes }, []) := by
    intro response hname hempty
    unfold Handshake.readAttributes
    cases hbit : l.clientCapabilities.has clientConnectAttrs with
    | true =>
      rw [if_pos rfl, if_pos rfl, ← List.append_nil (lenencBytes _), (reads_pairs hl).apply_bind, hempty]
      exact hend _ (hname ▸ hl.authPlugin_ne)
    | false =>
      rw [if_neg Bool.false_ne_true, if_neg Bool.false_ne_true, hl.no_attributes hbit,
        hend _ (hname ▸ hl.authPlugin_ne), Attributes.ofPairs, List.foldl_nil, ← hempty]
  have hname : ∀ response : HandshakeResponse, response.attributes = ∅ →
      h.readPlugin l.clientCapabilities response ((if l.clientCapabilities.has clientPluginAuth then
        l.authPlugin ++ [0] else []) ++ if l.clientCapabilities.has clientConnectAttrs then
          lenencBytes (l.attributes.flatMap pairBytes) else []) =
      some ({ response with authPlugin := l.authPlugin, attributes := Attributes.ofPairs ∅ l.attributes }, []) := by
    intro response hempty
    rw [Handshake.readPlugin, if_pos hplugin, if_pos hplugin, (reads_upTo hl.authPlugin).apply_bind]
    exact hattributes _ rfl hempty
  unfold Handshake.readDatabase
  cases hbit : l.clientCapabilities.has clientConnectWithDB with
  | true =>
    rw [if_pos rfl, if_pos rfl, (reads_upTo hl.database).apply_bind]
    exact hname _ rfl
  | false =>
    rw [if_neg Bool.false_ne_true, if_neg Bool.false_ne_true, List.nil_append]
    refine (hname _ rfl).trans ?_
    rw [Login.response, hl.no_database hbit]
    rfl

theorem tight_readFields (h : Handshake) (client : Capability) (response : HandshakeResponse) :
    Tight (h.readFields client response) := by
  have hend : ∀ response, Tight (h.readEnd response) := fun response => tight_eof.pure_after _
  have hattributes : ∀ response, Tight (h.readAttributes client response) := by
    intro response
    unfold Handshake.readAttributes
    split
    · refine Local.tight ?_ fun _ => hend _
      refine local_readString.bind fun b => (local_guard _).bind fun _ => ?_
      exact local_lift _
    · exact hend _
  have hplugin : ∀ response, Tight (h.readPlugin client response) := by
    intro response
    unfold Handshake.readPlugin
    split
    · exact (Local.upTo 0).tight fun _ => hattributes _
    · exact hattributes _
  have hdatabase : ∀ response, Tight (h.readDatabase client response) := by
    intro response
    unfold Handshake.readDatabase
    split
    · exact (Local.upTo 0).tight fun _ => hplugin _
    · exact hplugin _
  have hauth : Local (readAuth client) := by
    unfold readAuth
    split
    · exact local_readString
    split
    · exact Local.next.bind fun n => Local.take _
    · exact Local.upTo 0
  exact (Local.upTo 0).tight fun _ => hauth.tight fun _ => hdatabase _

/-- The fields leave the request for TLS as it was. -/
theorem gives_readFields (h : Handshake) (client : Capability) (response : HandshakeResponse) :
    Gives (fun r => r.wantsTLS = response.wantsTLS) (h.readFields client response) := by
  have hend : ∀ r : HandshakeResponse, r.wantsTLS = response.wantsTLS →
      Gives (fun r => r.wantsTLS = response.wantsTLS) (h.readEnd r) := by
    intro r hr
    refine .bind _ fun _ => .pure ?_
    split
    · exact hr
    · exact hr
  have hattributes : ∀ r : HandshakeResponse, r.wantsTLS = response.wantsTLS →
      Gives (fun r => r.wantsTLS = response.wantsTLS) (h.readAttributes client r) := by
    intro r hr
    unfold Handshake.readAttributes
    split
    · exact .bind _ fun _ => hend _ hr
    · exact hend _ hr
  have hplugin : ∀ r : HandshakeResponse, r.wantsTLS = response.wantsTLS →
      Gives (fun r => r.wantsTLS = response.wantsTLS) (h.readPlugin client r) := by
    intro r hr
    unfold Handshake.readPlugin
    split
    · exact .bind _ fun _ => hattributes _ hr
    · exact hattributes _ hr
  refine .bind _ fun username => .bind _ fun auth => ?_
  unfold Handshake.readDatabase
  split
  · exact .bind _ fun _ => hplugin _ rfl
  · exact hplugin _ rfl

/-- A request for TLS names no plugin. -/
theorem authPlugin_of_wantsTLS {h : Handshake} {payload : Bytes} {response : HandshakeResponse}
    (hp : h.parseResponse payload = .ok (response, none)) (ht : response.wantsTLS = true) :
    response.authPlugin = [] := by
  rw [parseResponse_eq, Except.ok.injEq] at hp
  cases hhead : Handshake.readHead payload with
  | none =>
    rw [meaning_none h hhead] at hp
    cases hp
  | some x =>
    obtain ⟨⟨client, maxPacket, charset⟩, rest⟩ := x
    rw [meaning_some h client hhead, Handshake.restMeaning] at hp
    split at hp
    · cases hp
    split at hp
    · split at hp
      · cases hp
      · cases hp
        rfl
    split at hp
    · rename_i r _ hr
      cases hp
      have hgives : response.wantsTLS = false := gives_readFields h client _ _ _ _ hr
      rw [ht] at hgives
      cases hgives
    · cases hp

/-- Of several pairs with one key the last one counts. -/
theorem lookup_ofPairs (attributes : Attributes) (pairs : List (Bytes × Bytes)) (key : Bytes) :
    (attributes.ofPairs pairs).lookup key = (pairs.reverse.lookup key).or (attributes.lookup key) := by
  induction pairs generalizing attributes with
  | nil => rfl
  | cons p pairs ih =>
    obtain ⟨k, v⟩ := p
    rw [List.reverse_cons, List.lookup_append, Option.or_assoc]
    refine (ih (attributes.insert k v)).trans (congrArg _ ?_)
    rcases eq_or_ne key k with rfl | hne
    · simp
    · have hbeq : (key == k) = false := beq_false_of_ne hne
      simp [AList.lookup_insert_ne hne, List.lookup_cons, hbeq]

theorem length_head (l : Login) : l.head.length = 32 := by
  simp [Login.head]

theorem meaning_encode (hl : l.WellFormed h) (rest : Bytes) :
    h.meaning (l.head ++ rest) = if rest = [] ∧ l.clientCapabilities.has clientSSL then
      if !h.config.capabilities.has clientSSL then refused (errUnsupportedCapability (lit "tls"))
      else ({ h.opened l.clientCapabilities l.maxPacketBytes l.charsetID with wantsTLS := true }, none)
    else ((h.readFields l.clientCapabilities (h.opened l.clientCapabilities l.maxPacketBytes l.charsetID) rest).map
      fun r => (r.1, none)).getD (refused errMalformedHandshake) := by
  rw [meaning_some h _ (reads_head l rest), Handshake.restMeaning, hl.accepted]
  show (if rest = [] ∧ l.clientCapabilities.has clientSSL then _ else _) = _
  split
  · rfl
  · cases h.readFields l.clientCapabilities (h.opened l.clientCapabilities l.maxPacketBytes l.charsetID) rest <;> rfl

/-- An error comes with no response. -/
theorem meaning_whole (h : Handshake) (payload : Bytes) :
    (h.meaning payload).2 ≠ none → (h.meaning payload).1 = {} := by
  unfold Handshake.meaning
  split
  · unfold Handshake.restMeaning
    split
    · exact fun _ => rfl
    split
    · split
      · exact fun _ => rfl
      · exact fun hne => absurd rfl hne
    split
    · exact fun hne => absurd rfl hne
    · exact fun _ => rfl
  · exact fun _ => rfl

theorem fields_ne_nil (l : Login) : l.fields ≠ [] := by
  simp [Login.fields]

/-- Bytes that are not the fields of a response, behind its fixed part, are refused. -/
theorem parse_refused (hl : l.WellFormed h) {rest : Bytes}
    (hrest : h.readFields l.clientCapabilities (h.opened l.clientCapabilities l.maxPacketBytes l.charsetID) rest = none)
    (hssl : ¬(rest = [] ∧ l.clientCapabilities.has clientSSL)) :
    h.parseResponse (l.head ++ rest) = .ok (refused errMalformedHandshake) := by
  rw [parseResponse_eq, meaning_encode hl, if_neg hssl, hrest]
  rfl

end Login

/-- The parser reads every well-formed response back, refuses it with bytes added or missing, and on any
payload whatever ends inside it, with a whole response or with none. -/
theorem handshake_parsed :
    (∀ (config : HandshakeConfig) (random : Except GoError Bytes) (h : Handshake), newHandshake config random = .ok h →
      ∀ l : Login, l.WellFormed h →
        (∃ response, h.parseResponse l.encode = .ok (response, none) ∧
          response = { l.response h with attributes := response.attributes } ∧
          ∀ key, response.attributes.lookup key = l.attributes.reverse.lookup key) ∧
        (∀ s ≠ [], ∃ e, h.parseResponse (l.encode ++ s) = .ok ({}, some e)) ∧
        (∀ n < l.encode.length, ¬(n = 32 ∧ l.clientCapabilities.has clientSSL) →
          ∃ e, h.parseResponse (l.encode.take n) = .ok ({}, some e)) ∧
        (l.clientCapabilities.has clientSSL → h.config.capabilities.has clientSSL →
          ∃ response, h.parseResponse (l.encode.take 32) = .ok (response, none) ∧ response.wantsTLS = true)) ∧
    ∀ (h : Handshake) (payload : Bytes), ∃ response err, h.parseResponse payload = .ok (response, err) ∧
      (err ≠ none → response = {}) := by
  constructor
  · intro config random h _ l hl
    have htight := tight_readFields h l.clientCapabilities (h.opened l.clientCapabilities l.maxPacketBytes l.charsetID)
    obtain ⟨-, hlonger⟩ := htight l.fields _ _ (readFields_fields hl)
    have htake : ∀ m, l.encode.take (32 + m) = l.head ++ l.fields.take m := by
      intro m
      rw [Login.encode, ← length_head l, List.take_length_add_append]
    refine ⟨⟨l.response h, ?_, rfl, fun key => ?_⟩, fun s hs => ⟨errMalformedHandshake, ?_⟩,
      fun n hn hssl => ⟨errMalformedHandshake, ?_⟩, fun hssl hserver => ?_⟩
    · rw [parseResponse_eq, Login.encode, meaning_encode hl, if_neg fun hnil => fields_ne_nil l hnil.1,
        readFields_fields hl]
      rfl
    · refine (lookup_ofPairs ∅ l.attributes key).trans ?_
      rw [AList.lookup_empty, Option.or_none]
    · rw [Login.encode, List.append_assoc]
      exact parse_refused hl (hlonger s hs) fun hnil => fields_ne_nil l (List.append_eq_nil_iff.1 hnil.1).1
    · by_cases h32 : n < 32
      · rw [Handshake.parseResponse, if_pos (by rw [List.length_take]; omega)]
        rfl
      · -- had the shorter one been accepted, the whole response would not be
        obtain ⟨m, rfl⟩ := Nat.exists_eq_add_of_le (Nat.le_of_not_lt h32)
        rw [htake]
        refine parse_refused hl ?_ ?_
        · cases hd : h.readFields l.clientCapabilities
              (h.opened l.clientCapabilities l.maxPacketBytes l.charsetID) (l.fields.take m) with
          | none => rfl
          | some r =>
            have hdrop : l.fields.drop m ≠ [] := by
              rw [Login.encode, List.length_append, length_head] at hn
              exact List.ne_nil_of_length_pos (by rw [List.length_drop]; omega)
            have hnone := (htight _ _ _ hd).2 _ hdrop
            rw [List.take_append_drop, readFields_fields hl] at hnone
            cases hnone
        · rintro ⟨hnil, hbit⟩
          have hm : m = 0 := by
            by_contra hm
            have := List.length_pos_of_ne_nil (fields_ne_nil l)
            have hlen := congrArg List.length hnil
            rw [List.length_take, List.length_nil] at hlen
            omega
          exact hssl ⟨by omega, hbit⟩
    · have hzero := htake 0
      rw [List.take_zero, Nat.add_zero] at hzero
      refine ⟨{ h.opened l.clientCapabilities l.maxPacketBytes l.charsetID with wantsTLS := true }, ?_, rfl⟩
      rw [hzero, parseResponse_eq, meaning_encode hl, if_pos ⟨rfl, hssl⟩, hserver]
      rfl
  · intro h payload
    exact ⟨(h.meaning payload).1, (h.meaning payload).2, parseResponse_eq h payload, meaning_whole h payload⟩

/-- A login with an attribute given twice. -/
def sampleLogin : Login where
  clientCapabilities := defaultServerCapabilities ||| clientFoundRows
  maxPacketBytes := 1024
  charsetID := 45
  username := lit "app_user"
  authResponse := [1, 2, 3]
  database := lit "app"
  authPlugin := lit "caching_sha2_password"
  attributes := [(lit "_pid", lit "1"), (lit "_pid", lit "2")]

def sampleHandshake : Handshake := ⟨defaultHandshakeConfig 1, List.replicate 20 7⟩

/-- The login is read back with the later attribute, and refused when it is cut short or goes on. -/
theorem handshake_parsed_sample : newHandshake (defaultHandshakeConfig 1) (.ok (List.replicate 20 7)) = .ok sampleHandshake ∧
    sampleLogin.WellFormed sampleHandshake ∧
    (∃ response, sampleHandshake.parseResponse sampleLogin.encode = .ok (response, none) ∧
      response.username = lit "app_user" ∧ response.attributes.lookup (lit "_pid") = some (lit "2")) ∧
    (∃ e, sampleHandshake.parseResponse (sampleLogin.encode ++ [0]) = .ok ({}, some e)) ∧
    ∃ e, sampleHandshake.parseResponse (sampleLogin.encode.take 40) = .ok ({}, some e) := by
  have hnew : newHandshake (defaultHandshakeConfig 1) (.ok (List.replicate 20 7)) = .ok sampleHandshake := by decide
  have hwf : sampleLogin.WellFormed sampleHandshake := by
    constructor <;> decide
  obtain ⟨⟨response, hparse, heq, hlookup⟩, hsuffix, hcut, -⟩ :=
    handshake_parsed.1 (defaultHandshakeConfig 1) (.ok (List.replicate 20 7)) sampleHandshake hnew sampleLogin hwf
  refine ⟨hnew, hwf, ⟨response, hparse, by rw [heq]; rfl, ?_⟩, hsuffix [0] (by decide), ?_⟩
  · rw [hlookup]
    decide
  · exact hcut 40 (by decide) (by decide)

end Accelerator.Protocol
