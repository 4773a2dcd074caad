/-
Lower case and the comparison of texts without regard to case (`strings.ToLower`, `strings.EqualFold`). Lower
case is a mapping of characters and equality under folding is membership in an orbit, and they differ: the
dotted capital I is an i in lower case and folds to nothing, the long s folds to s and is a lower case letter
itself.
-/
import Accelerator.Strings.Basic

namespace Accelerator.Strings

/-! ## Lower case -/

/-- The simple lower-case mappings of Unicode 15 outside ASCII: first, last, stride, distance. -/
def lowerRanges : List (Nat × Nat × Nat × Int) :=
  [(192, 214, 1, 32), (216, 222, 1, 32), (256, 302, 2, 1), (304, 304, 1, -199), (306, 310, 2, 1),
   (313, 327, 2, 1), (330, 374, 2, 1), (376, 376, 1, -121), (377, 381, 2, 1), (385, 385, 1, 210),
   (386, 388, 2, 1), (390, 390, 1, 206), (391, 391, 1, 1), (393, 394, 1, 205), (395, 395, 1, 1),
   (398, 398, 1, 79), (399, 399, 1, 202), (400, 400, 1, 203), (401, 401, 1, 1), (403, 403, 1, 205),
   (404, 404, 1, 207), (406, 406, 1, 211), (407, 407, 1, 209), (408, 408, 1, 1), (412, 412, 1, 211),
   (413, 413, 1, 213), (415, 415, 1, 214), (416, 420, 2, 1), (422, 422, 1, 218), (423, 423, 1, 1),
   (425, 425, 1, 218), (428, 428, 1, 1), (430, 430, 1, 218), (431, 431, 1, 1), (433, 434, 1, 217),
   (435, 437, 2, 1), (439, 439, 1, 219), (440, 440, 1, 1), (444, 444, 1, 1), (452, 452, 1, 2),
   (453, 453, 1, 1), (455, 455, 1, 2), (456, 456, 1, 1), (458, 458, 1, 2), (459, 475, 2, 1),
   (478, 494, 2, 1), (497, 497, 1, 2), (498, 500, 2, 1), (502, 502, 1, -97), (503, 503, 1, -56),
   (504, 542, 2, 1), (544, 544, 1, -130), (546, 562, 2, 1), (570, 570, 1, 10795), (571, 571, 1, 1),
   (573, 573, 1, -163), (574, 574, 1, 10792), (577, 577, 1, 1), (579, 579, 1, -195), (580, 580, 1, 69),
   (581, 581, 1, 71), (582, 590, 2, 1), (880, 882, 2, 1), (886, 886, 1, 1), (895, 895, 1, 116),
   (902, 902, 1, 38), (904, 906, 1, 37), (908, 908, 1, 64), (910, 911, 1, 63), (913, 929, 1, 32),
   (931, 939, 1, 32), (975, 975, 1, 8), (984, 1006, 2, 1), (1012, 1012, 1, -60), (1015, 1015, 1, 1),
   (1017, 1017, 1, -7), (1018, 1018, 1, 1), (1021, 1023, 1, -130), (1024, 1039, 1, 80),
   (1040, 1071, 1, 32), (1120, 1152, 2, 1), (1162, 1214, 2, 1), (1216, 1216, 1, 15), (1217, 1229, 2, 1),
   (1232, 1326, 2, 1), (1329, 1366, 1, 48), (4256, 4293, 1, 7264), (4295, 4295, 1, 7264),
   (4301, 4301, 1, 7264), (5024, 5103, 1, 38864), (5104, 5109, 1, 8), (7312, 7354, 1, -3008),
   (7357, 7359, 1, -3008), (7680, 7828, 2, 1), (7838, 7838, 1, -7615), (7840, 7934, 2, 1),
   (7944, 7951, 1, -8), (7960, 7965, 1, -8), (7976, 7983, 1, -8), (7992, 7999, 1, -8), (8008, 8013, 1, -8),
   (8025, 8031, 2, -8), (8040, 8047, 1, -8), (8072, 8079, 1, -8), (8088, 8095, 1, -8), (8104, 8111, 1, -8),
   (8120, 8121, 1, -8), (8122, 8123, 1, -74), (8124, 8124, 1, -9), (8136, 8139, 1, -86),
   (8140, 8140, 1, -9), (8152, 8153, 1, -8), (8154, 8155, 1, -100), (8168, 8169, 1, -8),
   (8170, 8171, 1, -112), (8172, 8172, 1, -7), (8184, 8185, 1, -128), (8186, 8187, 1, -126),
   (8188, 8188, 1, -9), (8486, 8486, 1, -7517), (8490, 8490, 1, -8383), (8491, 8491, 1, -8262),
   (8498, 8498, 1, 28), (8544, 8559, 1, 16), (8579, 8579, 1, 1), (9398, 9423, 1, 26),
   (11264, 11311, 1, 48), (11360, 11360, 1, 1), (11362, 11362, 1, -10743), (11363, 11363, 1, -3814),
   (11364, 11364, 1, -10727), (11367, 11371, 2, 1), (11373, 11373, 1, -10780), (11374, 11374, 1, -10749),
   (11375, 11375, 1, -10783), (11376, 11376, 1, -10782), (11378, 11378, 1, 1), (11381, 11381, 1, 1),
   (11390, 11391, 1, -10815), (11392, 11490, 2, 1), (11499, 11501, 2, 1), (11506, 11506, 1, 1),
   (42560, 42604, 2, 1), (42624, 42650, 2, 1), (42786, 42798, 2, 1), (42802, 42862, 2, 1),
   (42873, 42875, 2, 1), (42877, 42877, 1, -35332), (42878, 42886, 2, 1), (42891, 42891, 1, 1),
   (42893, 42893, 1, -42280), (42896, 42898, 2, 1), (42902, 42920, 2, 1), (42922, 42922, 1, -42308),
   (42923, 42923, 1, -42319), (42924, 42924, 1, -42315), (42925, 42925, 1, -42305),
   (42926, 42926, 1, -42308), (42928, 42928, 1, -42258), (42929, 42929, 1, -42282),
   (42930, 42930, 1, -42261), (42931, 42931, 1, 928), (42932, 42946, 2, 1), (42948, 42948, 1, -48),
   (42949, 42949, 1, -42307), (42950, 42950, 1, -35384), (42951, 42953, 2, 1), (42960, 42960, 1, 1),
   (42966, 42968, 2, 1), (42997, 42997, 1, 1), (65313, 65338, 1, 32), (66560, 66599, 1, 40),
   (66736, 66771, 1, 40), (66928, 66938, 1, 39), (66940, 66954, 1, 39), (66956, 66962, 1, 39),
   (66964, 66965, 1, 39), (68736, 68786, 1, 64), (71840, 71871, 1, 32), (93760, 93791, 1, 32),
   (125184, 125217, 1, 34)]

/-- `unicode.ToLower`. -/
def lowerRune (c : Char) : Char :=
  if c.toNat < 0x80 then
    if 'A' ≤ c ∧ c ≤ 'Z' then Char.ofNat (c.toNat + 32) else c
  else
    match lowerRanges.find? fun (lo, hi, stride, _) =>
        lo ≤ c.toNat && c.toNat ≤ hi && (c.toNat - lo) % stride == 0 with
    | some (_, _, _, d) => Char.ofNat (c.toNat + d).toNat
    | none => c

/-- The lower-case form of one element; `strings.ToLower` writes U+FFFD for a stray byte. -/
def Sym.lower : Sym → Sym
  | .chr c => .chr (lowerRune c)
  | .bad _ => .chr (Char.ofNat 0xfffd)

/-- `strings.ToLower`. -/
def toLower (t : Text) : Text := t.map Sym.lower

example : toLower (text "Requ\u0130red") = text "required" := by decide +kernel

/-! ## Folding -/

/-- Whether `unicode.SimpleFold` leads from the ASCII character `d` to `c`: the same letter in the other case,
the Kelvin sign for a k, the long s for an s. -/
def folds (c d : Char) : Bool :=
  c = d || ('A' ≤ c && c ≤ 'Z' && d.toNat = c.toNat + 32) || ('A' ≤ d && d ≤ 'Z' && c.toNat = d.toNat + 32) ||
    (c.toNat = 0x212a && (d = 'k' || d = 'K')) || (c.toNat = 0x17f && (d = 's' || d = 'S'))

/-- `strings.EqualFold` with an ASCII text on the right. -/
def equalFold : Text → Text → Bool
  | [], [] => true
  | .chr c :: s, .chr d :: t => folds c d && equalFold s t
  | _, _ => false

example : equalFold (text "Requ\u0130red") (text "required") = false := by decide +kernel

/-- The letters whose capital is the only other character that folds to them or has them as lower case. -/
def isPlainLetter (d : Char) : Bool := 'a' ≤ d && d ≤ 'z' && d ≠ 'i' && d ≠ 'k' && d ≠ 's'

/-- Outside ASCII only the dotted capital I and the Kelvin sign have an ASCII letter as lower case. -/
theorem lowerRanges_high : ∀ e ∈ lowerRanges,
    e = (0x130, 0x130, 1, -199) ∨ e = (0x212a, 0x212a, 1, -8383) ∨
      (0x80 ≤ (e.1 : Int) + e.2.2.2 ∧ (e.2.1 : Int) + e.2.2.2 < 0x110000 ∧
        ((e.2.1 : Int) + e.2.2.2 < 0xd800 ∨ 0xe000 ≤ (e.1 : Int) + e.2.2.2)) := by
  decide +kernel

theorem lowerRune_high {c : Char} (h : 0x80 ≤ c.toNat) :
    lowerRune c = 'i' ∨ lowerRune c = 'k' ∨ 0x80 ≤ (lowerRune c).toNat := by
  rw [lowerRune, if_neg (by omega)]
  split
  · rename_i lo hi stride d hf
    have hrange := List.find?_some hf
    simp only [Bool.and_eq_true, decide_eq_true_eq] at hrange
    rcases lowerRanges_high _ (List.mem_of_find?_eq_some hf) with heq | heq | hmem
    · cases heq
      rw [show c.toNat = 0x130 by omega]
      exact .inl rfl
    · cases heq
      rw [show c.toNat = 0x212a by omega]
      exact .inr (.inl rfl)
    · simp only at hmem
      have hv : (c.toNat + d : Int).toNat.isValidChar := by simp only [Nat.isValidChar]; omega
      have hn := toNat_ofNat hv
      omega
  · exact .inr (.inr h)

theorem lowerRune_ascii {c : Char} (h : c.toNat < 0x80) :
    (lowerRune c).toNat = if 65 ≤ c.toNat ∧ c.toNat ≤ 90 then c.toNat + 32 else c.toNat := by
  have hA : ('A' : Char).toNat = 65 := rfl
  have hZ : ('Z' : Char).toNat = 90 := rfl
  rw [lowerRune, if_pos h]
  simp only [char_le_iff, hA, hZ]
  split_ifs with hc
  · exact toNat_ofNat (by simp only [Nat.isValidChar]; omega)
  · rfl

theorem lowerRune_plain {c d : Char} (hd : isPlainLetter d = true) : lowerRune c = d ↔ folds c d = true := by
  have hA : ('A' : Char).toNat = 65 := rfl
  have hZ : ('Z' : Char).toNat = 90 := rfl
  have ha : ('a' : Char).toNat = 97 := rfl
  have hz : ('z' : Char).toNat = 122 := rfl
  simp only [isPlainLetter, Bool.and_eq_true, decide_eq_true_eq, char_le_iff, ha, hz] at hd
  obtain ⟨⟨⟨⟨hlo, hhi⟩, hi⟩, hk⟩, hs⟩ := hd
  have hK : d ≠ 'K' := by rintro rfl; revert hlo; decide
  have hS : d ≠ 'S' := by rintro rfl; revert hlo; decide
  simp only [folds, Bool.or_eq_true, Bool.and_eq_true, decide_eq_true_eq, char_le_iff, hA, hZ, hk, hs, hK, hS, or_false,
    and_false]
  rcases Nat.lt_or_ge c.toNat 0x80 with hc | hc
  · have hl := lowerRune_ascii hc
    rw [← Char.toNat_inj, hl, ← Char.toNat_inj]
    split_ifs <;> omega
  · have hne : c ≠ d := by rintro rfl; omega
    constructor
    · rintro rfl
      rcases lowerRune_high hc with h | h | h
      · exact absurd h hi
      · exact absurd h hk
      · omega
    · rintro ((h | h) | h)
      · exact absurd h hne
      · omega
      · omega

theorem toLower_eq_iff {t w : Text} (hw : ∀ c ∈ w, ∃ d, c = .chr d ∧ isPlainLetter d = true) :
    toLower t = w ↔ equalFold t w = true := by
  induction w generalizing t with
  | nil => cases t <;> simp [toLower, equalFold]
  | cons c w ih =>
    rw [List.forall_mem_cons] at hw
    obtain ⟨⟨d, rfl, hd⟩, hw⟩ := hw
    rcases t with _ | ⟨c | b, t⟩
    · simp [toLower, equalFold]
    · rw [equalFold, Bool.and_eq_true, ← ih hw, ← lowerRune_plain hd]
      simp [toLower, Sym.lower]
    · have hne : Char.ofNat 0xfffd ≠ d := by rintro rfl; revert hd; decide
      simp [toLower, Sym.lower, equalFold, hne]

end Accelerator.Strings
