/-
Length-encoded numbers and strings: a number below 251 is one byte, a larger one is a byte that gives
its width and then the number itself; a string has its length in front. The bytes 0xfb and 0xff begin
no number.
-/
import Accelerator.Wire.Decoder
import Accelerator.Wire.Endian

namespace Accelerator.Wire

open Decoder

def lenencInt (n : Nat) : List UInt8 :=
  if n < 0xfb then [UInt8.ofNat n]
  else if n ≤ 0xffff then 0xfc :: leBytes 2 n
  else if n ≤ 0xffffff then 0xfd :: leBytes 3 n
  else 0xfe :: leBytes 8 n

def lenencBytes (b : List UInt8) : List UInt8 := lenencInt b.length ++ b

/-! ## Reading -/

/-- A number of `w` bytes. -/
def readLE (w : Nat) : Decoder UInt8 Nat := do
  let b ← take w
  pure (leNat b)

def readLenencInt : Decoder UInt8 Nat := do
  let first ← next
  if first = 0xfc then readLE 2
  else if first = 0xfd then readLE 3
  else if first = 0xfe then readLE 8
  else if first = 0xfb ∨ first = 0xff then failure
  else pure first.toNat

def readLenencBytes : Decoder UInt8 (List UInt8) := do
  let n ← readLenencInt
  take n

theorem reads_leBytes {w n : Nat} (hn : n < 256 ^ w) : Reads (readLE w) (leBytes w n) n := by
  have h := (reads_take (length_leBytes w n)).map leNat
  rw [leNat_leBytes, Nat.mod_eq_of_lt hn] at h
  exact h

theorem ofNat_ne_of_small {n : Nat} (hn : n < 0xfb) {m : UInt8} (hm : 0xfb ≤ m.toNat) : UInt8.ofNat n ≠ m := by
  rintro rfl
  rw [UInt8.toNat_ofNat'] at hm
  omega

/-- A number of up to eight bytes is read back. -/
theorem reads_lenencInt {n : Nat} (hn : n < 2 ^ 64) : Reads readLenencInt (lenencInt n) n := by
  unfold lenencInt
  split_ifs with h₁ h₂ h₃
  · have hn : (UInt8.ofNat n).toNat = n := UInt8.toNat_ofNat_of_lt (by change n < 256; omega)
    have hne : ∀ {m : UInt8}, 0xfb ≤ m.toNat → UInt8.ofNat n ≠ m := fun hm => ofNat_ne_of_small h₁ hm
    intro rest
    rw [readLenencInt, bind_apply, reads_next, Option.bind_some, if_neg (hne (by decide)),
      if_neg (hne (by decide)), if_neg (hne (by decide)),
      if_neg (not_or.2 ⟨hne (by decide), hne (by decide)⟩), hn]
    rfl
  · exact (reads_next 0xfc).bind (reads_leBytes (by omega))
  · exact (reads_next 0xfd).bind (reads_leBytes (by omega))
  · exact (reads_next 0xfe).bind (reads_leBytes (by omega))

theorem reads_lenencBytes {b : List UInt8} (hb : b.length < 2 ^ 64) :
    Reads readLenencBytes (lenencBytes b) b := (reads_lenencInt hb).bind (reads_take rfl)

theorem local_readLE (w : Nat) : Local (readLE w) := (Local.take w).bind fun _ => Local.pure _

theorem local_readLenencInt : Local readLenencInt := by
  refine Local.next.bind fun first => ?_
  split_ifs
  · exact local_readLE 2
  · exact local_readLE 3
  · exact local_readLE 8
  · exact Local.failure
  · exact Local.pure _

/-! ## First bytes -/

/-- The first byte of a number: 0xfe stands only in front of more than three bytes of length, and the
two bytes that begin no number are not written. -/
theorem head_lenencInt (n : Nat) : ∃ b bs, lenencInt n = b :: bs ∧ b ≠ 0xfb ∧ b ≠ 0xff ∧
    (b = 0xfe → 0xffffff < n) := by
  unfold lenencInt
  split_ifs with h₁ h₂ h₃
  · exact ⟨_, _, rfl, ofNat_ne_of_small h₁ (by decide), ofNat_ne_of_small h₁ (by decide),
      fun h => absurd h (ofNat_ne_of_small h₁ (by decide))⟩
  · exact ⟨_, _, rfl, by decide, by decide, fun h => absurd h (by decide)⟩
  · exact ⟨_, _, rfl, by decide, by decide, fun h => absurd h (by decide)⟩
  · exact ⟨_, _, rfl, by decide, by decide, fun _ => by omega⟩

end Accelerator.Wire
