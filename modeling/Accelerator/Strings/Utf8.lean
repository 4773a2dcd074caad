/-
UTF-8: an ASCII character is its own byte, and every other byte of a text lies outside ASCII. What looks for
ASCII bytes in a string may therefore read its characters instead.
-/
import Accelerator.Strings.Basic

namespace Accelerator.Strings

def Sym.isAscii : Sym → Bool
  | .chr c => c.toNat < 0x80
  | .bad _ => false

/-- A byte that is part of no rune lies outside ASCII, where a text is read from bytes. -/
def Sym.Proper : Sym → Prop
  | .chr _ => True
  | .bad b => 0x80 ≤ b.toNat

theorem utf8EncodeChar_ascii {c : Char} (h : c.toNat < 0x80) : String.utf8EncodeChar c = [UInt8.ofNat c.toNat] := by
  unfold String.utf8EncodeChar
  exact if_pos (show c.val.toNat ≤ 127 by have : c.val.toNat < 128 := h; omega)

/-- The bytes of ASCII characters tell them apart. -/
theorem asciiByte_inj {c d : Char} (hc : c.toNat < 0x80) (hd : d.toNat < 0x80) :
    UInt8.ofNat c.toNat = UInt8.ofNat d.toNat ↔ c = d := by
  rw [← UInt8.toNat_inj, UInt8.toNat_ofNat', UInt8.toNat_ofNat', Nat.mod_eq_of_lt (show c.toNat < 2 ^ 8 by omega),
    Nat.mod_eq_of_lt (show d.toNat < 2 ^ 8 by omega), Char.toNat_inj]

theorem utf8EncodeChar_high {c : Char} (h : 0x80 ≤ c.toNat) :
    String.utf8EncodeChar c ≠ [] ∧ ∀ b ∈ String.utf8EncodeChar c, 0x80 ≤ b.toNat := by
  have h : 0x80 ≤ c.val.toNat := h
  unfold String.utf8EncodeChar
  simp only
  generalize c.val.toNat = v at h
  rw [if_neg (by omega)]
  split_ifs <;>
    simp only [ne_eq, reduceCtorEq, not_false_eq_true, List.mem_cons, List.not_mem_nil, or_false, forall_eq_or_imp,
      forall_eq, UInt8.toNat_ofNat', true_and] <;> omega

/-- The bytes of a character outside ASCII. -/
theorem Sym.bytes_high {s : Sym} (hs : s.Proper) (h : s.isAscii = false) :
    s.bytes ≠ [] ∧ ∀ b ∈ s.bytes, 0x80 ≤ b.toNat := by
  cases s with
  | chr c => exact utf8EncodeChar_high (Nat.not_lt.1 (of_decide_eq_false h))
  | bad b =>
    refine ⟨List.cons_ne_nil _ _, fun x hx => ?_⟩
    rw [List.mem_singleton.1 hx]
    exact hs

theorem decodeRune_ascii {b : UInt8} (h : b.toNat < 0x80) (bs : Bytes) :
    decodeRune (b :: bs) = some (Char.ofNat b.toNat) := by
  have hvalid : b.toNat.isValidChar := .inl (by omega)
  have hbyte : String.utf8EncodeChar (Char.ofNat b.toNat) = [b] := by
    rw [utf8EncodeChar_ascii (by rw [toNat_ofNat hvalid]; exact h), toNat_ofNat hvalid, UInt8.ofNat_toNat]
  have hdecode := @ByteArray.utf8DecodeChar?_utf8EncodeChar_append bs.toByteArray (Char.ofNat b.toNat)
  rw [hbyte, ← List.toByteArray_append] at hdecode
  exact hdecode

theorem proper_ofBytesAux (fuel : Nat) (b : Bytes) : ∀ s ∈ ofBytesAux fuel b, s.Proper := by
  induction fuel generalizing b with
  | zero => simp [ofBytesAux]
  | succ fuel ih =>
    cases b with
    | nil => simp [ofBytesAux]
    | cons x bs =>
      intro s hs
      simp only [ofBytesAux] at hs
      split at hs
      · rcases List.mem_cons.1 hs with rfl | hs
        · trivial
        · exact ih _ s hs
      · rename_i hnone
        rcases List.mem_cons.1 hs with rfl | hs
        · refine Nat.not_lt.1 fun hx => ?_
          rw [decodeRune_ascii hx] at hnone
          cases hnone
        · exact ih _ s hs

theorem proper_ofBytes (b : Bytes) : ∀ s ∈ ofBytes b, s.Proper := proper_ofBytesAux _ b

end Accelerator.Strings
