/-
The decoder of execute packets stays inside its payload: whatever the client sends, decoding ends
with arguments or with an error, never with a panic. `Ends` carries at the same time what is known of
an accepted result.
-/
import Accelerator.Gateway.Params
import Accelerator.Wire.Endian

namespace Accelerator.Gateway

open Strings Upstream Wire

theorem littleEndian_eq (bs : Bytes) : littleEndian bs = leNat bs := rfl

/-! ## Results without panics -/

/-- No panic, and a result that is accepted satisfies `P`. -/
def Ends {α : Type} (P : α → Prop) : Checked α → Prop
  | .ok a => P a
  | .error (.error _) => True
  | .error .panic => False

section Reading

variable {α β : Type} {P : α → Prop} {payload : Bytes}

theorem Ends.bind {P : β → Prop} {c : Checked α} {f : α → Checked β} (h : Ends (fun a => Ends P (f a)) c) :
    Ends P (c >>= f) := by
  cases c with
  | ok a => exact h
  | error e => cases e <;> exact h

theorem Ends.mono {Q : α → Prop} {c : Checked α} (h : Ends P c) (hPQ : ∀ a, P a → Q a) : Ends Q c := by
  cases c with
  | ok a => exact hPQ a h
  | error e => cases e <;> exact h

theorem ends_index {P : UInt8 → Prop} {i : Nat} (h : i < payload.length) (hP : P payload[i]) :
    Ends P (index payload i) := by
  unfold index
  rw [List.getElem?_eq_getElem h]
  exact hP

theorem ends_slice {P : Bytes → Prop} {i j : Nat} (h : i ≤ j ∧ j ≤ payload.length)
    (hP : P ((payload.drop i).take (j - i))) : Ends P (slice payload i j) := by
  unfold slice
  rw [if_pos h]
  exact hP

/-! ## Sizes on the wire -/

/-- The byte at a position, or zero behind the end. -/
def byteAt (payload : Bytes) (position : Nat) : UInt8 := payload.getD position 0

/-- The bytes that tell the length of a length-encoded value, by their first. -/
def prefixSize (first : UInt8) : Nat :=
  if first = 0xfc then 3 else if first = 0xfd then 4 else if first = 0xfe then 9 else 1

/-- The length that a length-encoded value announces. -/
def announcedLength (payload : Bytes) (position : Nat) : Nat :=
  let first := byteAt payload position
  if prefixSize first = 1 then first.toNat
  else littleEndian ((payload.drop (position + 1)).take (prefixSize first - 1))

/-- The field types whose values are length-encoded strings. -/
def isLengthEncoded (fieldType : UInt8) : Prop :=
  fieldType ∉ [columnTypeNull, columnTypeTiny, columnTypeShort, columnTypeYear, columnTypeLong, columnTypeInt24,
    columnTypeLongLong, columnTypeFloat, columnTypeDouble, columnTypeDate, columnTypeDateTime, columnTypeTimestamp,
    columnTypeTime]

/-- The bytes an inline value of a type takes. -/
def wireSize (payload : Bytes) (position : Nat) (fieldType : UInt8) : Nat :=
  if fieldType = columnTypeNull then 0
  else if fieldType = columnTypeTiny then 1
  else if fieldType = columnTypeShort ∨ fieldType = columnTypeYear then 2
  else if fieldType = columnTypeLong ∨ fieldType = columnTypeInt24 then 4
  else if fieldType = columnTypeLongLong then 8
  else if fieldType = columnTypeFloat then 4
  else if fieldType = columnTypeDouble then 8
  else if fieldType = columnTypeDate ∨ fieldType = columnTypeDateTime ∨ fieldType = columnTypeTimestamp then
    1 + (byteAt payload position).toNat
  else if fieldType = columnTypeTime then 1 + (byteAt payload position).toNat
  else prefixSize (byteAt payload position) + announcedLength payload position

theorem byteAt_eq {i : Nat} (h : i < payload.length) : byteAt payload i = payload[i] := by
  simp [byteAt, h]

/-! ## Length-encoded values -/

theorem ends_readLength {position size : Nat} {truncated : String} (hs : 0 < size) :
    Ends (fun x => x = (littleEndian ((payload.drop position).take size), position + size) ∧
      position + size ≤ payload.length) (readLength payload position size truncated) := by
  unfold readLength
  split
  · trivial
  · refine .bind (ends_slice (by omega) ⟨?_, by omega⟩)
    rw [Nat.add_sub_cancel_left]

theorem ends_lengthPrefix {position : Nat} (hp : position < payload.length) :
    Ends (fun x => x = (announcedLength payload position, position + prefixSize (byteAt payload position)) ∧
      x.2 ≤ payload.length) (lengthPrefix payload (position + 1) payload[position]) := by
  have hb := byteAt_eq hp
  have hlong : ∀ {size : Nat} {truncated : String}, 0 < size → prefixSize (byteAt payload position) = size + 1 →
      Ends (fun x => x = (announcedLength payload position, position + prefixSize (byteAt payload position)) ∧
        x.2 ≤ payload.length) (readLength payload (position + 1) size truncated) := fun hs hsize =>
    (ends_readLength hs).mono fun x hx => by
      obtain ⟨rfl, hle⟩ := hx
      rw [announcedLength, if_neg (by omega), hsize]
      exact ⟨by simp only [Nat.add_sub_cancel, Prod.mk.injEq, true_and]; omega, hle⟩
  unfold lengthPrefix
  split
  · rename_i h; exact hlong (by omega) (by simp [prefixSize, hb, h])
  split
  · rename_i h; exact hlong (by omega) (by simp [prefixSize, hb, h])
  split
  · rename_i h; exact hlong (by omega) (by simp [prefixSize, hb, h])
  split
  · trivial
  · have hone : prefixSize (byteAt payload position) = 1 := by simp_all [prefixSize]
    rw [announcedLength, if_pos hone, hone, hb]
    exact ⟨rfl, hp⟩

/-- An accepted length-encoded value has the length it announces. -/
theorem ends_readPreparedLengthEncoded {position : Nat} :
    Ends (fun x => x.1.length = announcedLength payload position ∧
      x.2 = position + (prefixSize (byteAt payload position) + announcedLength payload position))
      (readPreparedLengthEncoded payload position) := by
  unfold readPreparedLengthEncoded
  split
  · trivial
  · refine .bind (ends_index (by omega) (.bind ((ends_lengthPrefix (by omega)).mono fun x hx => ?_)))
    obtain ⟨rfl, hle⟩ := hx
    simp only at hle ⊢
    split
    · trivial
    · refine .bind (ends_slice (by omega) ⟨?_, by omega⟩)
      simp only [List.length_take, List.length_drop]
      omega

/-! ## Values -/

theorem ends_readClock {P : Nat × Nat × Nat → Prop} {position length : Nat} (hl : position + length ≤ payload.length)
    (hP : ∀ x, P x) : Ends P (readClock payload position length) := by
  unfold readClock
  split
  · exact .bind (ends_index (by omega) (.bind (ends_index (by omega) (.bind (ends_index (by omega) (hP _))))))
  · exact hP _

theorem ends_readMicroseconds {P : Nat → Prop} {position length : Nat} (hl : position + length ≤ payload.length)
    (hP : ∀ x, P x) : Ends P (readMicroseconds payload position length) := by
  unfold readMicroseconds
  split
  · exact .bind (ends_slice (by omega) (hP _))
  · exact hP _

theorem ends_readFraction {P : Bytes → Prop} {position length : Nat} (hl : position + length ≤ payload.length)
    (hP : ∀ x, P x) : Ends P (readFraction payload position length) := by
  unfold readFraction
  split
  · exact .bind (ends_slice (by omega) (hP _))
  · exact hP _

/-- A value that is not null and takes `size` bytes. -/
def Valued (position size : Nat) (x : Argument × Nat) : Prop := x.1.isNull = false ∧ x.2 = position + size

theorem ends_decodePreparedDateTime {position : Nat} :
    Ends (Valued position (1 + (byteAt payload position).toNat)) (decodePreparedDateTime payload position) := by
  unfold decodePreparedDateTime
  split
  · trivial
  · refine .bind (ends_index (by omega) ?_)
    rw [byteAt_eq (by omega)]
    generalize payload[position].toNat = length
    simp only
    split
    · rename_i h; exact ⟨rfl, by simp [h]⟩
    · split
      · trivial
      · rename_i hlen
        refine .bind (ends_slice (by omega) (.bind (ends_index (by omega) (.bind (ends_index (by omega) ?_)))))
        refine .bind (ends_readClock (by omega) fun _ => .bind (ends_readMicroseconds (by omega) fun _ => ⟨rfl, ?_⟩))
        exact Nat.add_assoc ..

theorem ends_decodePreparedTime {position : Nat} :
    Ends (Valued position (1 + (byteAt payload position).toNat)) (decodePreparedTime payload position) := by
  unfold decodePreparedTime
  split
  · trivial
  · refine .bind (ends_index (by omega) ?_)
    rw [byteAt_eq (by omega)]
    generalize payload[position].toNat = length
    simp only
    split
    · rename_i h; exact ⟨rfl, by simp [h]⟩
    · split
      · trivial
      · rename_i hlen
        refine .bind (ends_index (by omega) (.bind (ends_slice (by omega) (.bind (ends_index (by omega) ?_)))))
        refine .bind (ends_index (by omega) (.bind (ends_index (by omega) ?_)))
        exact .bind (ends_readFraction (by omega) fun _ => ⟨rfl, Nat.add_assoc ..⟩)

theorem ends_require {P : Bytes → Prop} {position size : Nat} (hs : 0 < size) (hP : ∀ b, P b) :
    Ends P (require payload position size) := by
  unfold require
  split
  · trivial
  · exact ends_slice (by omega) (hP _)

theorem ends_decodeInteger {position size : Nat} {unsigned : Bool} (hs : 0 < size) :
    Ends (Valued position size) (decodeInteger payload position size unsigned) := by
  unfold decodeInteger
  refine .bind (ends_require hs fun b => ⟨?_, rfl⟩)
  cases unsigned <;> rfl

/-- When an inline value is null: its type says so, or it is an empty length-encoded string. -/
def InlineNull (payload : Bytes) (position : Nat) (fieldType : UInt8) : Prop :=
  fieldType = columnTypeNull ∨ (isLengthEncoded fieldType ∧ announcedLength payload position = 0)

/-- What an accepted inline value is. -/
def Inline (payload : Bytes) (position : Nat) (fieldType : UInt8) (x : Argument × Nat) : Prop :=
  (x.1.isNull = true ↔ InlineNull payload position fieldType) ∧ x.2 = position + wireSize payload position fieldType

/-- A value of a type that is neither NULL nor length-encoded. -/
theorem Ends.inline {position size : Nat} {fieldType : UInt8} {c : Checked (Argument × Nat)}
    (h : Ends (Valued position size) c) (hn : fieldType ≠ columnTypeNull) (hl : ¬isLengthEncoded fieldType)
    (hs : wireSize payload position fieldType = size) : Ends (Inline payload position fieldType) c :=
  h.mono fun x hx => ⟨by simp [hx.1, InlineNull, hn, hl], by rw [hs]; exact hx.2⟩

theorem ends_decodePreparedParameter {position : Nat} {type : ParameterType} :
    Ends (Inline payload position type.fieldType) (decodePreparedParameter payload position type) := by
  obtain ⟨fieldType, unsigned⟩ := type
  unfold decodePreparedParameter
  simp only
  by_cases h0 : fieldType = columnTypeNull
  · rw [if_pos h0]
    exact ⟨iff_of_true rfl (.inl h0), by simp [wireSize, h0]⟩
  rw [if_neg h0]
  by_cases h1 : fieldType = columnTypeTiny
  · subst h1; exact (ends_decodeInteger (by omega)).inline h0 (by simp [isLengthEncoded]) rfl
  rw [if_neg h1]
  by_cases h2 : fieldType = columnTypeShort ∨ fieldType = columnTypeYear
  · rw [if_pos h2]
    refine (ends_decodeInteger (by omega)).inline h0 ?_ ?_ <;> rcases h2 with rfl | rfl <;>
      first | rfl | simp [isLengthEncoded]
  rw [if_neg h2]
  by_cases h3 : fieldType = columnTypeLong ∨ fieldType = columnTypeInt24
  · rw [if_pos h3]
    refine (ends_decodeInteger (by omega)).inline h0 ?_ ?_ <;> rcases h3 with rfl | rfl <;>
      first | rfl | simp [isLengthEncoded]
  rw [if_neg h3]
  by_cases h4 : fieldType = columnTypeLongLong
  · subst h4; exact (ends_decodeInteger (by omega)).inline h0 (by simp [isLengthEncoded]) rfl
  rw [if_neg h4]
  by_cases h5 : fieldType = columnTypeFloat
  · subst h5
    exact Ends.inline (.bind (ends_require (by omega) fun _ => ⟨rfl, rfl⟩)) h0 (by simp [isLengthEncoded]) rfl
  rw [if_neg h5]
  by_cases h6 : fieldType = columnTypeDouble
  · subst h6
    exact Ends.inline (.bind (ends_require (by omega) fun _ => ⟨rfl, rfl⟩)) h0 (by simp [isLengthEncoded]) rfl
  rw [if_neg h6]
  by_cases h7 : fieldType = columnTypeDate ∨ fieldType = columnTypeDateTime ∨ fieldType = columnTypeTimestamp
  · rw [if_pos h7]
    refine ends_decodePreparedDateTime.inline h0 ?_ ?_ <;> rcases h7 with rfl | rfl | rfl <;>
      first | rfl | simp [isLengthEncoded]
  rw [if_neg h7]
  by_cases h8 : fieldType = columnTypeTime
  · subst h8; exact ends_decodePreparedTime.inline h0 (by simp [isLengthEncoded]) rfl
  rw [if_neg h8]
  -- what is left are the length-encoded types
  have hl : isLengthEncoded fieldType := by simp_all [isLengthEncoded]
  have hsize : wireSize payload position fieldType =
      prefixSize (byteAt payload position) + announcedLength payload position := by
    simp [wireSize, h0, h1, h2, h3, h4, h5, h6, h7, h8]
  refine .bind (ends_readPreparedLengthEncoded.mono fun x hx => ⟨?_, hx.2.trans (by rw [hsize])⟩)
  simp only [InlineNull, h0, hl, true_and, false_or, ← hx.1, List.length_eq_zero_iff, appendNil]
  split <;> simp_all [Argument.isNull]

/-! ## The packet -/

section Packet

variable (p : PreparedStatement) (payload : Bytes)

/-- The null bit of parameter `i`. -/
def nullBit (i : Nat) : Bool := (byteAt payload (10 + i / 8)).toNat.testBit (i % 8)

/-- Where the flag stands that tells whether a type array follows. -/
def flagPosition : Nat := 10 + (p.parameterCount + 7) / 8

/-- The type of parameter `i`: from the array in the packet, or the remembered one. -/
def wireType (i : Fin p.parameterCount) : UInt8 :=
  if byteAt payload (flagPosition p) ≠ 0 then byteAt payload (flagPosition p + 1 + 2 * i)
  else (p.parameterTypes i).fieldType

/-- Where the values begin. -/
def firstValue : Nat :=
  flagPosition p + 1 + if byteAt payload (flagPosition p) ≠ 0 then 2 * p.parameterCount else 0

/-- When parameter `i`, whose inline value would be at a position, is bound as null. -/
def BoundNull (i : Fin p.parameterCount) (position : Nat) : Prop :=
  nullBit payload i = true ∨
    match p.longData.lookup (UInt16.ofNat i) with
    | some value => value = []
    | none => InlineNull payload position (wireType p payload i)

/-- The bytes parameter `i` takes of the payload. -/
def parameterSize (i : Fin p.parameterCount) (position : Nat) : Nat :=
  if nullBit payload i = true ∨ (p.longData.lookup (UInt16.ofNat i)).isSome then 0
  else wireSize payload position (wireType p payload i)

/-- Where the inline value of parameter `i` begins, if it has one. -/
def valuePosition : Nat → Nat
  | 0 => firstValue p payload
  | i + 1 => valuePosition i + if hi : i < p.parameterCount then parameterSize p payload ⟨i, hi⟩ (valuePosition i) else 0

/-- Arguments `i`, `i + 1`, … are null as `BoundNull` says. -/
def Arguments (i : Nat) : List Argument → Prop
  | [] => i = p.parameterCount
  | a :: rest => (∃ hi : i < p.parameterCount,
      (a.isNull = true ↔ BoundNull p payload ⟨i, hi⟩ (valuePosition p payload i))) ∧ Arguments (i + 1) rest

end Packet

variable {p : PreparedStatement} {types : Fin p.parameterCount → ParameterType} {nulls : Bytes}

/-- What is read of the head of an accepted packet. -/
structure Header (p : PreparedStatement) (payload nulls : Bytes) (types : Fin p.parameterCount → ParameterType) : Prop where
  length : nulls.length = (p.parameterCount + 7) / 8
  nulls : ∀ i, i < nulls.length → byteAt nulls i = byteAt payload (10 + i)
  types : ∀ i, (types i).fieldType = wireType p payload i

theorem Header.nullBit (h : Header p payload nulls types) {i : Nat} (hi : i < p.parameterCount) :
    (byteAt nulls (i / 8)).toNat.testBit (i % 8) = Gateway.nullBit payload i := by
  have := h.length
  rw [Gateway.nullBit, h.nulls _ (by omega)]

theorem ends_decodeArgument {i position : Nat} (hH : Header p payload nulls types) (hi : i < p.parameterCount) :
    Ends (fun x => (x.1.isNull = true ↔ BoundNull p payload ⟨i, hi⟩ position) ∧
        x.2 = position + parameterSize p payload ⟨i, hi⟩ position)
      (decodeArgument p types payload i position (nullBit payload i)) := by
  unfold decodeArgument BoundNull parameterSize
  cases nullBit payload i with
  | true => simp [Ends, Argument.isNull]
  | false =>
    simp only [Bool.false_eq_true, if_false, false_or]
    cases p.longData.lookup (UInt16.ofNat i) with
    | some value =>
      refine ⟨?_, by simp⟩
      show (appendNil value).isNull = true ↔ value = []
      unfold appendNil
      split <;> simp_all [Argument.isNull]
    | none =>
      simp only [hi, dif_pos, Option.isSome_none, Bool.false_eq_true, if_false, ← hH.types]
      have h := @ends_decodePreparedParameter payload position (types ⟨i, hi⟩)
      cases hd : decodePreparedParameter payload position (types ⟨i, hi⟩) with
      | ok x => rw [hd] at h; exact h
      | error e => rw [hd] at h; cases e <;> exact h

theorem ends_decodeFrom (hH : Header p payload nulls types) (more : Nat) {i : Nat} (hm : i + more = p.parameterCount) :
    Ends (fun x => Arguments p payload i x.1) (decodeFrom p types payload nulls i (valuePosition p payload i) more) := by
  induction more generalizing i with
  | zero => exact hm
  | succ more ih =>
    have hi : i < p.parameterCount := by omega
    have hlen : i / 8 < nulls.length := by rw [hH.length]; omega
    unfold decodeFrom
    refine .bind (ends_index hlen (.bind ?_))
    rw [← byteAt_eq hlen, hH.nullBit hi]
    refine (ends_decodeArgument hH hi).mono fun x hx => ?_
    obtain ⟨a, next⟩ := x
    have hnext : next = valuePosition p payload (i + 1) := by rw [valuePosition, dif_pos hi]; exact hx.2
    subst hnext
    exact .bind ((ih (by omega)).mono fun y hy => ⟨⟨hi, hx.1⟩, hy⟩)

theorem ends_readTypes {newTypes : UInt8} (hn : newTypes = byteAt payload (flagPosition p)) :
    Ends (fun x => (∀ i, (x.1 i).fieldType = wireType p payload i) ∧ x.2 = firstValue p payload)
      (readTypes p payload (flagPosition p + 1) newTypes) := by
  unfold readTypes
  split
  · rename_i hflag
    rw [hn] at hflag
    split
    · trivial
    · rename_i hlen
      refine ⟨fun i => ?_, by rw [firstValue, if_pos hflag]⟩
      have hi := i.isLt
      rw [wireType, if_pos hflag, byteAt_eq (by omega)]
  · rename_i hflag
    rw [hn] at hflag
    split
    · trivial
    · exact ⟨fun i => by rw [wireType, if_neg hflag], by rw [firstValue, if_neg hflag]⟩

theorem ends_readHeader :
    Ends (fun x => Header p payload x.1 x.2.1 ∧ x.2.2 = firstValue p payload) (readHeader p payload) := by
  unfold readHeader
  simp only
  split
  · trivial
  · rename_i hlen
    refine .bind (ends_slice (by omega) (.bind (ends_index (by omega) (.bind ?_))))
    refine (ends_readTypes (byteAt_eq (by rw [flagPosition]; omega)).symm).mono fun x hx => ?_
    have hl : ((payload.drop 10).take (10 + (p.parameterCount + 7) / 8 - 10)).length = (p.parameterCount + 7) / 8 := by
      simp only [List.length_take, List.length_drop]
      omega
    refine ⟨⟨hl, fun i hi => ?_, hx.1⟩, hx.2⟩
    have hi : i < (p.parameterCount + 7) / 8 := hl ▸ hi
    rw [byteAt_eq (by rwa [hl]), byteAt_eq (by omega)]
    simp

/-- Decoding never panics, and the arguments it accepts are null as `BoundNull` says. -/
theorem ends_decodeArguments (p : PreparedStatement) (payload : Bytes) :
    Ends (Arguments p payload 0) (decodeArguments p payload).2 := by
  unfold decodeArguments
  split
  · rename_i h; exact h.symm
  · have h := @ends_readHeader payload p
    cases hr : readHeader p payload with
    | error e => rw [hr] at h; cases e <;> exact h
    | ok x =>
      obtain ⟨nulls, types, position⟩ := x
      rw [hr] at h
      obtain ⟨hH, rfl⟩ := h
      refine .bind ((ends_decodeFrom (i := 0) hH _ (Nat.zero_add _)).mono fun x hx => ?_)
      obtain ⟨arguments, last⟩ := x
      simp only
      split
      · trivial
      · exact hx

/-- Decoding changes nothing of a statement but the types it remembers. -/
theorem decodeArguments_fst (p : PreparedStatement) (payload : Bytes) :
    ∃ types, (decodeArguments p payload).1 = { p with parameterTypes := types } := by
  unfold decodeArguments
  split
  · exact ⟨p.parameterTypes, rfl⟩
  · split
    · exact ⟨p.parameterTypes, rfl⟩
    · rename_i types _ _; exact ⟨types, rfl⟩

/-! ## Nulls -/

/-- The parameters that are bound as null exactly when the client says so: an empty value is not, nor is
long data for a parameter of type NULL. -/
def Faithful (p : PreparedStatement) (payload : Bytes) (i : Fin p.parameterCount) : Prop :=
  nullBit payload i = true ∨
    match p.longData.lookup (UInt16.ofNat i) with
    | some value => value = [] ↔ wireType p payload i = columnTypeNull
    | none => ¬(isLengthEncoded (wireType p payload i) ∧ announcedLength payload (valuePosition p payload i) = 0)

theorem boundNull_iff_faithful (i : Fin p.parameterCount) :
    (BoundNull p payload i (valuePosition p payload i) ↔
      nullBit payload i = true ∨ wireType p payload i = columnTypeNull) ↔ Faithful p payload i := by
  unfold BoundNull Faithful InlineNull
  cases nullBit payload i with
  | true => simp
  | false =>
    simp only [Bool.false_eq_true, false_or]
    cases p.longData.lookup (UInt16.ofNat i) with
    | some value => exact Iff.rfl
    | none =>
      have hne : isLengthEncoded (wireType p payload i) → wireType p payload i ≠ columnTypeNull := fun hl he =>
        hl (by rw [he]; exact List.mem_cons_self)
      simp only [or_iff_left_iff_imp]
      exact ⟨fun h hl => hne hl.1 (h hl), fun h hl => absurd hl h⟩

theorem Arguments.get {i : Nat} {args : List Argument} (h : Arguments p payload i args) :
    i + args.length = p.parameterCount ∧ ∀ j (hj : i + j < p.parameterCount), ∃ a, args[j]? = some a ∧
      (a.isNull = true ↔ BoundNull p payload ⟨i + j, hj⟩ (valuePosition p payload (i + j))) := by
  induction args generalizing i with
  | nil => exact ⟨h, fun j hj => absurd hj (by rw [← show i = p.parameterCount from h]; omega)⟩
  | cons a rest ih =>
    obtain ⟨⟨hi, ha⟩, hrest⟩ := h
    obtain ⟨hlen, hget⟩ := ih hrest
    refine ⟨by rw [List.length_cons]; omega, fun j hj => ?_⟩
    cases j with
    | zero => exact ⟨a, rfl, ha⟩
    | succ j =>
      obtain ⟨b, hb, hn⟩ := hget j (by omega)
      refine ⟨b, by rwa [List.getElem?_cons_succ], ?_⟩
      simpa only [Nat.add_right_comm, Nat.add_assoc, Nat.add_comm 1 j] using hn

/-- In an accepted packet, a parameter is bound as null exactly when its bit is set or its type is NULL,
if and only if it is `Faithful`. -/
theorem null_iff_faithful {args : List Argument} (h : (decodeArguments p payload).2 = .ok args) :
    args.length = p.parameterCount ∧ ∀ i : Fin p.parameterCount, ∃ a, args[i.val]? = some a ∧
      ((a.isNull = true ↔ nullBit payload i = true ∨ wireType p payload i = columnTypeNull) ↔
        Faithful p payload i) := by
  have hA := ends_decodeArguments p payload
  rw [h] at hA
  obtain ⟨hlen, hget⟩ := Arguments.get hA
  refine ⟨by omega, fun i => ?_⟩
  obtain ⟨a, ha, hn⟩ := hget i (by omega)
  refine ⟨a, ha, ?_⟩
  rw [hn]
  simp only [Nat.zero_add]
  exact boundNull_iff_faithful i

/-- A statement with `n` parameters, of which no types are known yet. -/
def sampleStatement (n : Nat) (longData : AList fun _ : UInt16 => Bytes) : PreparedStatement where
  query := []
  parameterCount := n
  parameterTypes _ := ⟨0, false⟩
  longData := longData
  longDataBytes := 0
  longDataError := none
  statement := none
  transactionBound := false

/-- An execute packet whose null bitmap is one byte and that brings its types. -/
def samplePacket (nulls : UInt8) (types values : Bytes) : Bytes :=
  [0x17, 1, 0, 0, 0, 0, 1, 0, 0, 0, nulls, 1] ++ types ++ values

/-- A string and a null: the string is bound as the client says. -/
theorem null_iff_faithful_pair : ∃ a,
    (decodeArguments (sampleStatement 2 ∅) (samplePacket 2 [0xfd, 0, 0xfd, 0] [1, 0x61])).2 = .ok [a, .nil] ∧
    (a.isNull = true ↔ nullBit (samplePacket 2 [0xfd, 0, 0xfd, 0] [1, 0x61]) 0 = true ∨
      wireType (sampleStatement 2 ∅) (samplePacket 2 [0xfd, 0, 0xfd, 0] [1, 0x61]) ⟨0, by decide⟩ = columnTypeNull) := by
  have h : (decodeArguments (sampleStatement 2 ∅) (samplePacket 2 [0xfd, 0, 0xfd, 0] [1, 0x61])).2 =
      .ok [.bytes (some [0x61]), .nil] := by decide +kernel
  obtain ⟨a, ha, hiff⟩ := (null_iff_faithful h).2 ⟨0, by decide⟩
  cases ha
  refine ⟨_, h, hiff.2 (.inr ?_)⟩
  show ¬(isLengthEncoded _ ∧ _)
  rintro ⟨-, h0⟩
  exact absurd h0 (by decide +kernel)

/-- An empty string and an empty piece of long data are bound as null, though neither the null bit nor the
type says so; and long data for a parameter of type NULL is not. -/
theorem empty_value_is_null :
    let string := samplePacket 0 [0xfd, 0] [0]
    let empty := sampleStatement 1 ((∅ : AList fun _ : UInt16 => Bytes).insert 0 [])
    let blob := samplePacket 0 [0xfc, 0] []
    let long := sampleStatement 1 ((∅ : AList fun _ : UInt16 => Bytes).insert 0 [0x61])
    let null := samplePacket 0 [columnTypeNull, 0] []
    ((decodeArguments (sampleStatement 1 ∅) string).2 = .ok [.bytes none] ∧ nullBit string 0 = false ∧
      wireType (sampleStatement 1 ∅) string ⟨0, by decide⟩ ≠ columnTypeNull) ∧
    ((decodeArguments empty blob).2 = .ok [.bytes none] ∧ nullBit blob 0 = false ∧
      wireType empty blob ⟨0, by decide⟩ ≠ columnTypeNull) ∧
    ((decodeArguments long null).2 = .ok [.bytes (some [0x61])] ∧
      wireType long null ⟨0, by decide⟩ = columnTypeNull) ∧
    Argument.isNull (.bytes none) = true ∧ Argument.isNull (.bytes (some [0x61])) = false := by
  decide +kernel

end Reading

end Accelerator.Gateway
