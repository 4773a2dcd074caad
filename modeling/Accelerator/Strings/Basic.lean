/-
Text as the Go standard library sees it. A string of bytes is the sequence of its runes, where a
byte that begins no valid UTF-8 encoding stands for itself; `ofBytes` reads bytes this way and loses
nothing (`toBytes_ofBytes`). Over such sequences the functions of the `strings` package are
functions on lists: `trimSpace`, `fields`, `toUpper`, `contains`, `replaceAll` and the others
follow the documented behaviour of their Go namesakes, Unicode white space and case included.
-/
import Mathlib.Data.List.DropRight
import Mathlib.Data.List.Infix

namespace Accelerator.Strings

/-- One element of a string: a rune, or a byte that is part of no rune. -/
inductive Sym where
  | chr (c : Char)
  | bad (b : UInt8)
  deriving DecidableEq, Repr

/-- A byte string as the sequence of its runes. -/
abbrev Text := List Sym

instance : LawfulBEq Text := inferInstance

/-- A byte string. -/
abbrev Bytes := List UInt8

/-- The text of a string literal. -/
def text (s : String) : Text := s.toList.map .chr

/-! ## Bytes -/

/-- The bytes of one element. -/
def Sym.bytes : Sym → Bytes
  | .chr c => String.utf8EncodeChar c
  | .bad b => [b]

/-- The bytes of a text, in UTF-8. -/
def toBytes (t : Text) : Bytes := t.flatMap Sym.bytes

/-- The rune at the front of a byte string, if its first bytes encode one. -/
def decodeRune (b : Bytes) : Option Char := b.toByteArray.utf8DecodeChar? 0

/-- Read at most `fuel` elements off a byte string. -/
def ofBytesAux : Nat → Bytes → Text
  | 0, _ => []
  | _, [] => []
  | fuel + 1, b :: bs =>
    match decodeRune (b :: bs) with
    | some c => .chr c :: ofBytesAux fuel ((b :: bs).drop c.utf8Size)
    | none => .bad b :: ofBytesAux fuel bs

/-- The text of a byte string, as `range` enumerates it. -/
def ofBytes (b : Bytes) : Text := ofBytesAux b.length b

theorem decodeRune_eq_some {b : Bytes} {c : Char} (h : decodeRune b = some c) :
    String.utf8EncodeChar c ++ b.drop c.utf8Size = b := by
  have he := congrArg (fun a : ByteArray => a.data.toList) (ByteArray.eq_of_utf8DecodeChar?_eq_some h)
  simp only [ByteArray.data_append, Array.toList_append] at he
  simp at he
  rw [List.take_of_length_le (by simp)] at he
  exact he.symm

theorem toBytes_ofBytesAux (fuel : Nat) (b : Bytes) (h : b.length ≤ fuel) :
    toBytes (ofBytesAux fuel b) = b := by
  induction fuel generalizing b with
  | zero =>
    have : b = [] := List.length_eq_zero_iff.1 (by omega)
    subst this; rfl
  | succ fuel ih =>
    cases b with
    | nil => rfl
    | cons x bs =>
      simp only [ofBytesAux]
      split
      · rename_i c hc
        have hp := c.utf8Size_pos
        have hl : ((x :: bs).drop c.utf8Size).length ≤ fuel := by
          simp only [List.length_drop, List.length_cons] at h ⊢; omega
        show String.utf8EncodeChar c ++ toBytes (ofBytesAux fuel ((x :: bs).drop c.utf8Size)) = x :: bs
        rw [ih _ hl]
        exact decodeRune_eq_some hc
      · show x :: toBytes (ofBytesAux fuel bs) = x :: bs
        rw [ih bs (by simpa using h)]

/-- Reading bytes as text loses nothing. -/
theorem toBytes_ofBytes (b : Bytes) : toBytes (ofBytes b) = b := toBytes_ofBytesAux _ b le_rfl

/-! ## White space and case -/

theorem char_le_iff (c d : Char) : c ≤ d ↔ c.toNat ≤ d.toNat := UInt32.le_iff_toNat_le

theorem toNat_ofNat {n : Nat} (h : n.isValidChar) : (Char.ofNat n).toNat = n := by
  rw [Char.ofNat, dif_pos h]
  rfl

/-- `unicode.IsSpace`. -/
def isSpaceRune (c : Char) : Bool :=
  let n := c.toNat
  (0x09 ≤ n && n ≤ 0x0d) || n = 0x20 || n = 0x85 || n = 0xa0 || n = 0x1680 ||
    (0x2000 ≤ n && n ≤ 0x200a) || n = 0x2028 || n = 0x2029 || n = 0x202f || n = 0x205f || n = 0x3000

/-- White space; a stray byte is not. -/
def Sym.isSpace : Sym → Bool
  | .chr c => isSpaceRune c
  | .bad _ => false

/-- The simple upper-case mappings of Unicode 15 outside ASCII: first, last, stride, distance. -/
def upperRanges : List (Nat × Nat × Nat × Int) :=
  [(181, 181, 1, 743), (224, 246, 1, -32), (248, 254, 1, -32), (255, 255, 1, 121), (257, 303, 2, -1),
   (305, 305, 1, -232), (307, 311, 2, -1), (314, 328, 2, -1), (331, 375, 2, -1), (378, 382, 2, -1),
   (383, 383, 1, -300), (384, 384, 1, 195), (387, 389, 2, -1), (392, 392, 1, -1), (396, 396, 1, -1),
   (402, 402, 1, -1), (405, 405, 1, 97), (409, 409, 1, -1), (410, 410, 1, 163), (414, 414, 1, 130),
   (417, 421, 2, -1), (424, 424, 1, -1), (429, 429, 1, -1), (432, 432, 1, -1), (436, 438, 2, -1),
   (441, 441, 1, -1), (445, 445, 1, -1), (447, 447, 1, 56), (453, 453, 1, -1), (454, 454, 1, -2),
   (456, 456, 1, -1), (457, 457, 1, -2), (459, 459, 1, -1), (460, 460, 1, -2), (462, 476, 2, -1),
   (477, 477, 1, -79), (479, 495, 2, -1), (498, 498, 1, -1), (499, 499, 1, -2), (501, 501, 1, -1),
   (505, 543, 2, -1), (547, 563, 2, -1), (572, 572, 1, -1), (575, 576, 1, 10815), (578, 578, 1, -1),
   (583, 591, 2, -1), (592, 592, 1, 10783), (593, 593, 1, 10780), (594, 594, 1, 10782), (595, 595, 1, -210),
   (596, 596, 1, -206), (598, 599, 1, -205), (601, 601, 1, -202), (603, 603, 1, -203), (604, 604, 1, 42319),
   (608, 608, 1, -205), (609, 609, 1, 42315), (611, 611, 1, -207), (613, 613, 1, 42280),
   (614, 614, 1, 42308), (616, 616, 1, -209), (617, 617, 1, -211), (618, 618, 1, 42308),
   (619, 619, 1, 10743), (620, 620, 1, 42305), (623, 623, 1, -211), (625, 625, 1, 10749),
   (626, 626, 1, -213), (629, 629, 1, -214), (637, 637, 1, 10727), (640, 640, 1, -218),
   (642, 642, 1, 42307), (643, 643, 1, -218), (647, 647, 1, 42282), (648, 648, 1, -218), (649, 649, 1, -69),
   (650, 651, 1, -217), (652, 652, 1, -71), (658, 658, 1, -219), (669, 669, 1, 42261), (670, 670, 1, 42258),
   (837, 837, 1, 84), (881, 883, 2, -1), (887, 887, 1, -1), (891, 893, 1, 130), (940, 940, 1, -38),
   (941, 943, 1, -37), (945, 961, 1, -32), (962, 962, 1, -31), (963, 971, 1, -32), (972, 972, 1, -64),
   (973, 974, 1, -63), (976, 976, 1, -62), (977, 977, 1, -57), (981, 981, 1, -47), (982, 982, 1, -54),
   (983, 983, 1, -8), (985, 1007, 2, -1), (1008, 1008, 1, -86), (1009, 1009, 1, -80), (1010, 1010, 1, 7),
   (1011, 1011, 1, -116), (1013, 1013, 1, -96), (1016, 1016, 1, -1), (1019, 1019, 1, -1),
   (1072, 1103, 1, -32), (1104, 1119, 1, -80), (1121, 1153, 2, -1), (1163, 1215, 2, -1),
   (1218, 1230, 2, -1), (1231, 1231, 1, -15), (1233, 1327, 2, -1), (1377, 1414, 1, -48),
   (4304, 4346, 1, 3008), (4349, 4351, 1, 3008), (5112, 5117, 1, -8), (7296, 7296, 1, -6254),
   (7297, 7297, 1, -6253), (7298, 7298, 1, -6244), (7299, 7300, 1, -6242), (7301, 7301, 1, -6243),
   (7302, 7302, 1, -6236), (7303, 7303, 1, -6181), (7304, 7304, 1, 35266), (7545, 7545, 1, 35332),
   (7549, 7549, 1, 3814), (7566, 7566, 1, 35384), (7681, 7829, 2, -1), (7835, 7835, 1, -59),
   (7841, 7935, 2, -1), (7936, 7943, 1, 8), (7952, 7957, 1, 8), (7968, 7975, 1, 8), (7984, 7991, 1, 8),
   (8000, 8005, 1, 8), (8017, 8023, 2, 8), (8032, 8039, 1, 8), (8048, 8049, 1, 74), (8050, 8053, 1, 86),
   (8054, 8055, 1, 100), (8056, 8057, 1, 128), (8058, 8059, 1, 112), (8060, 8061, 1, 126),
   (8064, 8071, 1, 8), (8080, 8087, 1, 8), (8096, 8103, 1, 8), (8112, 8113, 1, 8), (8115, 8115, 1, 9),
   (8126, 8126, 1, -7205), (8131, 8131, 1, 9), (8144, 8145, 1, 8), (8160, 8161, 1, 8), (8165, 8165, 1, 7),
   (8179, 8179, 1, 9), (8526, 8526, 1, -28), (8560, 8575, 1, -16), (8580, 8580, 1, -1),
   (9424, 9449, 1, -26), (11312, 11359, 1, -48), (11361, 11361, 1, -1), (11365, 11365, 1, -10795),
   (11366, 11366, 1, -10792), (11368, 11372, 2, -1), (11379, 11379, 1, -1), (11382, 11382, 1, -1),
   (11393, 11491, 2, -1), (11500, 11502, 2, -1), (11507, 11507, 1, -1), (11520, 11557, 1, -7264),
   (11559, 11559, 1, -7264), (11565, 11565, 1, -7264), (42561, 42605, 2, -1), (42625, 42651, 2, -1),
   (42787, 42799, 2, -1), (42803, 42863, 2, -1), (42874, 42876, 2, -1), (42879, 42887, 2, -1),
   (42892, 42892, 1, -1), (42897, 42899, 2, -1), (42900, 42900, 1, 48), (42903, 42921, 2, -1),
   (42933, 42947, 2, -1), (42952, 42954, 2, -1), (42961, 42961, 1, -1), (42967, 42969, 2, -1),
   (42998, 42998, 1, -1), (43859, 43859, 1, -928), (43888, 43967, 1, -38864), (65345, 65370, 1, -32),
   (66600, 66639, 1, -40), (66776, 66811, 1, -40), (66967, 66977, 1, -39), (66979, 66993, 1, -39),
   (66995, 67001, 1, -39), (67003, 67004, 1, -39), (68800, 68850, 1, -64), (71872, 71903, 1, -32),
   (93792, 93823, 1, -32), (125218, 125251, 1, -34)]

/-- `unicode.ToUpper`. -/
def upperRune (c : Char) : Char :=
  if c.toNat < 0x80 then
    if 'a' ≤ c ∧ c ≤ 'z' then Char.ofNat (c.toNat - 32) else c
  else
    match upperRanges.find? fun (lo, hi, stride, _) =>
        lo ≤ c.toNat && c.toNat ≤ hi && (c.toNat - lo) % stride == 0 with
    | some (_, _, _, d) => Char.ofNat (c.toNat + d).toNat
    | none => c

/-- The upper-case form of one element; `strings.ToUpper` writes U+FFFD for a stray byte. -/
def Sym.upper : Sym → Sym
  | .chr c => .chr (upperRune c)
  | .bad _ => .chr (Char.ofNat 0xfffd)

/-- `strings.ToUpper`. -/
def toUpper (t : Text) : Text := t.map Sym.upper

/-- `strings.TrimSpace`. -/
def trimSpace (t : Text) : Text := (t.dropWhile Sym.isSpace).rdropWhile Sym.isSpace

/-- `strings.Fields`. -/
def fields (t : Text) : List Text := (t.splitOnP Sym.isSpace).filter fun w => !w.isEmpty

/-- `strings.Join`. -/
def join (ws : List Text) (sep : Text) : Text := (ws.intersperse sep).flatten

/-! ## Searching and cutting -/

/-- `strings.HasPrefix`. -/
def hasPrefix (t p : Text) : Bool := p.isPrefixOf t

/-- `strings.TrimPrefix`. -/
def trimPrefix (t p : Text) : Text := if hasPrefix t p then t.drop p.length else t

/-- `strings.TrimSuffix`. -/
def trimSuffix (t p : Text) : Text := if p.isSuffixOf t then t.take (t.length - p.length) else t

/-- `strings.Trim`: the elements of `cut` removed from both ends. -/
def trim (t cut : Text) : Text := (t.dropWhile (cut.contains ·)).rdropWhile (cut.contains ·)

/-- `strings.Contains`. -/
def contains (t p : Text) : Bool := t.tails.any (p.isPrefixOf ·)

/-- What follows the first occurrence of `p`, the text after `strings.Index`. -/
def after (p : Text) : Text → Option Text
  | [] => if p.isEmpty then some [] else none
  | c :: cs => if p.isPrefixOf (c :: cs) then some ((c :: cs).drop p.length) else after p cs

/-- `strings.ReplaceAll` for a non-empty `old`; `skip` counts what is left of an occurrence. -/
def replaceFrom (old new : Text) : Nat → Text → Text
  | _, [] => []
  | skip + 1, _ :: cs => replaceFrom old new skip cs
  | 0, c :: cs =>
    if old.isPrefixOf (c :: cs) then new ++ replaceFrom old new (old.length - 1) cs
    else c :: replaceFrom old new 0 cs

@[inherit_doc replaceFrom]
def replaceAll (t old new : Text) : Text := replaceFrom old new 0 t

end Accelerator.Strings
