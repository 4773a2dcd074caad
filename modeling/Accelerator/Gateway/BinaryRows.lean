/-
Binary result rows (`gateway/prepared.go`): the row encoder with its bitmap of NULL positions, and a client
that reads a row with the decoder of parameters. A row that is encoded is read back, and is the row that the
same values give as text.
-/
import Accelerator.Gateway.BinaryValues
import Accelerator.Gateway.Prepared
import Mathlib.Data.Nat.Bitwise

namespace Accelerator.Gateway

open Strings Upstream Wire
open Protocol (ColumnDefinition defaultCharsetID)

/-! ## Rows -/

/-- `payload[1+bit/8] |= 1 << uint(bit%8)`, for the bit of a column. -/
def setNull (payload : Bytes) (index : Nat) : Bytes :=
  let bit := index + 2
  payload.modify (1 + bit / 8) (· ||| 1 <<< UInt8.ofNat (bit % 8))

section Encoder

-- `strconv.ParseFloat`
variable (parseFloat : Bytes → Nat → Except NumError Nat) (definitions : List ColumnDefinition)
  (types : List ColumnType)

/-- One value, with the column at its index. -/
def encodeCell (index : Nat) (value : Value) : Except (Fault EncodeError) Bytes :=
  match definitions[index]?, types[index]? with
  | some definition, some type =>
    (encodePreparedResultValue parseFloat value definition type.databaseTypeName).mapError .error
  | _, _ => .error .panic

/-- The loop of `binaryPreparedRow`. -/
def appendValues (payload : Bytes) (index : Nat) : List Value → Except (Fault EncodeError) Bytes
  | [] => .ok payload
  | value :: values =>
    if value = .null then appendValues (setNull payload index) (index + 1) values
    else do
      let encoded ← encodeCell parseFloat definitions types index value
      appendValues (payload ++ encoded) (index + 1) values

end Encoder

def binaryPreparedRow (parseFloat : Bytes → Nat → Except NumError Nat) (values : List Value)
    (definitions : List ColumnDefinition) (types : List ColumnType) : Except (Fault EncodeError) Bytes :=
  let nullBytes := (values.length + 7 + 2) / 8
  appendValues parseFloat definitions types (List.replicate (1 + nullBytes) 0) 0 values

/-! ## A client -/

/-- The null bit of a column. -/
def columnNull (payload : Bytes) (index : Nat) : Bool :=
  (byteAt payload (1 + (index + 2) / 8)).toNat.testBit ((index + 2) % 8)

/-- The cells from a position on, one for each column: NULL, or a value with the type of the column. Nothing
is left behind the last one. -/
def readCells (definitions : List ColumnDefinition) (payload : Bytes) (index position : Nat) :
    Nat → Option (List (Option Argument))
  | 0 => if position = payload.length then some [] else none
  | count + 1 =>
    if columnNull payload index then
      (readCells definitions payload (index + 1) position count).map (none :: ·)
    else do
      let definition ← definitions[index]?
      match decodePreparedParameter payload position ⟨definition.type, definition.unsigned⟩ with
      | .ok (a, next) => (readCells definitions payload (index + 1) next count).map (some a :: ·)
      | .error _ => none

/-- A binary row of `count` columns: a zero byte, the bitmap, and the cells. -/
def readBinaryRow (definitions : List ColumnDefinition) (count : Nat) (payload : Bytes) :
    Option (List (Option Argument)) :=
  if payload.head? = some 0 then readCells definitions payload 0 (1 + (count + 7 + 2) / 8) count else none

/-! ## The bitmap -/

section Bitmap

variable {payload rest : Bytes} {index j : Nat}

theorem length_setNull (payload : Bytes) (index : Nat) : (setNull payload index).length = payload.length :=
  List.length_modify ..

theorem byteAt_setNull (payload : Bytes) (index j : Nat) (h : 1 + (index + 2) / 8 < payload.length) :
    byteAt (setNull payload index) j = if 1 + (index + 2) / 8 = j then
      byteAt payload j ||| 1 <<< UInt8.ofNat ((index + 2) % 8) else byteAt payload j := by
  unfold byteAt setNull
  rw [List.getD_eq_getElem?_getD, List.getD_eq_getElem?_getD, List.getElem?_modify]
  by_cases hj : 1 + (index + 2) / 8 = j
  · subst hj
    rw [List.getElem?_eq_getElem h]
    simp
  · simp [hj]

/-- The bitmap follows the first byte. -/
theorem head_setNull (payload : Bytes) (index : Nat) : (setNull payload index).head? = payload.head? := by
  rw [List.head?_eq_getElem?, List.head?_eq_getElem?, setNull, List.getElem?_modify]
  simp

/-- Setting a bit of the bitmap leaves what follows it. -/
theorem setNull_append (h : 1 + (index + 2) / 8 < payload.length) :
    setNull (payload ++ rest) index = setNull payload index ++ rest := by
  unfold setNull
  rw [List.modify_eq_take_drop, List.modify_eq_take_drop, List.take_append_of_le_length (by omega),
    List.drop_append_of_le_length (by omega), List.append_assoc]
  obtain ⟨b, l, hl⟩ := List.exists_cons_of_ne_nil (List.ne_nil_of_length_pos
    (show 0 < (payload.drop (1 + (index + 2) / 8)).length by rw [List.length_drop]; omega))
  rw [hl]
  rfl

theorem byteAt_append (h : j < payload.length) : byteAt (payload ++ rest) j = byteAt payload j := by
  unfold byteAt
  rw [List.getD_append _ _ _ _ h]

theorem columnNull_append (h : 1 + (index + 2) / 8 < payload.length) :
    columnNull (payload ++ rest) index = columnNull payload index := by
  unfold columnNull
  rw [byteAt_append h]

theorem testBit_shift : ∀ k l : Fin 8, ((1 : UInt8) <<< UInt8.ofNat k).toNat.testBit l = decide (k = l) := by
  decide

/-- Setting the bit of a column makes that column NULL and no other. -/
theorem columnNull_setNull (h : 1 + (index + 2) / 8 < payload.length) :
    columnNull (setNull payload index) j = true ↔ columnNull payload j = true ∨ index = j := by
  unfold columnNull
  rw [byteAt_setNull _ _ _ h]
  by_cases hbyte : 1 + (index + 2) / 8 = 1 + (j + 2) / 8
  · have hbit := testBit_shift ⟨(index + 2) % 8, by omega⟩ ⟨(j + 2) % 8, by omega⟩
    simp only [Fin.mk.injEq] at hbit
    rw [if_pos hbyte, UInt8.toNat_or, Nat.testBit_or, hbit, Bool.or_eq_true, decide_eq_true_eq]
    exact or_congr_right (by omega)
  · rw [if_neg hbyte]
    refine ⟨.inl, fun h => h.resolve_right ?_⟩
    rintro rfl
    exact hbyte rfl

end Bitmap

/-! ## Encoded rows -/

section Rows

variable {parseFloat : Bytes → Nat → Except NumError Nat} {definitions : List ColumnDefinition}
  {types : List ColumnType}

/-- The bytes behind the bitmap are the values that are not NULL, one after the other. -/
def Encodes (parseFloat : Bytes → Nat → Except NumError Nat) (definitions : List ColumnDefinition)
    (types : List ColumnType) (index : Nat) : List Value → Bytes → Prop
  | [], rest => rest = []
  | value :: values, rest =>
    if value = .null then Encodes parseFloat definitions types (index + 1) values rest
    else ∃ b rest', rest = b ++ rest' ∧ encodeCell parseFloat definitions types index value = .ok b ∧
      Encodes parseFloat definitions types (index + 1) values rest'

theorem nullAt_cons (value : Value) (values : List Value) (index j : Nat) :
    (index ≤ j ∧ (value :: values)[j - index]? = some .null) ↔
      (index = j ∧ value = .null) ∨ (index + 1 ≤ j ∧ values[j - (index + 1)]? = some .null) := by
  rcases Nat.lt_trichotomy j index with hlt | rfl | hgt
  · constructor <;> rintro _ <;> omega
  · simp
  · obtain ⟨k, rfl⟩ : ∃ k, j = index + 1 + k := ⟨j - index - 1, by omega⟩
    rw [show index + 1 + k - index = k + 1 by omega, Nat.add_sub_cancel_left, List.getElem?_cons_succ]
    constructor
    · rintro ⟨-, h⟩
      exact .inr ⟨by omega, h⟩
    · rintro (⟨h, -⟩ | ⟨-, h⟩)
      · omega
      · exact ⟨by omega, h⟩

/-- What the loop makes of a bitmap and the values before an index. -/
theorem appendValues_ok {values : List Value} {index : Nat} {bitmap body payload : Bytes}
    (h : appendValues parseFloat definitions types (bitmap ++ body) index values = .ok payload)
    (hfits : 1 + (index + values.length + 1) / 8 < bitmap.length) :
    ∃ bitmap' rest, payload = bitmap' ++ (body ++ rest) ∧ bitmap'.length = bitmap.length ∧
      bitmap'.head? = bitmap.head? ∧
      (∀ j, columnNull bitmap' j = true ↔
        columnNull bitmap j = true ∨ (index ≤ j ∧ values[j - index]? = some .null)) ∧
      Encodes parseFloat definitions types index values rest := by
  induction values generalizing index bitmap body with
  | nil =>
    cases h
    exact ⟨bitmap, [], by simp, rfl, rfl, by simp, rfl⟩
  | cons value values ih =>
    rw [List.length_cons] at hfits
    unfold appendValues at h
    by_cases hnull : value = .null
    · rw [if_pos hnull, setNull_append (by omega)] at h
      obtain ⟨bitmap', rest, hpayload, hlen, hhead, hbits, henc⟩ := ih h (by rw [length_setNull]; omega)
      refine ⟨bitmap', rest, hpayload, hlen.trans (length_setNull ..), hhead.trans (head_setNull ..), fun j => ?_, ?_⟩
      · rw [hbits, columnNull_setNull (by omega), nullAt_cons, or_assoc]
        simp only [hnull, and_true]
      · rw [Encodes, if_pos hnull]
        exact henc
    · rw [if_neg hnull] at h
      obtain ⟨b, hb, h⟩ := ok_of_bind h
      rw [List.append_assoc] at h
      obtain ⟨bitmap', rest, hpayload, hlen, hhead, hbits, henc⟩ := ih h (by omega)
      refine ⟨bitmap', b ++ rest, by rw [hpayload, List.append_assoc], hlen, hhead, fun j => ?_, ?_⟩
      · rw [hbits, nullAt_cons]
        simp only [hnull, and_false, false_or]
      · rw [Encodes, if_neg hnull]
        exact ⟨b, rest, rfl, hb, henc⟩

/-- A cell is NULL where the value is, and otherwise something that holds of the value. -/
def CellHolds (P : Nat → Value → Argument → Prop) (index : Nat) (value : Value) (cell : Option Argument) : Prop :=
  (value = .null ∧ cell = none) ∨ (value ≠ .null ∧ ∃ a, cell = some a ∧ P index value a)

/-- The cells of a row hold of its values, one by one, from an index on. -/
def RowHolds (P : Nat → Value → Argument → Prop) (index : Nat) (values : List Value)
    (cells : List (Option Argument)) : Prop :=
  cells.length = values.length ∧
    ∀ k v, values[k]? = some v → ∃ cell, cells[k]? = some cell ∧ CellHolds P (index + k) v cell

section Reading

variable {P : Nat → Value → Argument → Prop}

theorem RowHolds.cons {value : Value} {values : List Value} {cell : Option Argument} {cells : List (Option Argument)}
    {index : Nat} (hcell : CellHolds P index value cell) (h : RowHolds P (index + 1) values cells) :
    RowHolds P index (value :: values) (cell :: cells) := by
  refine ⟨by rw [List.length_cons, List.length_cons, h.1], fun k v hv => ?_⟩
  cases k with
  | zero =>
    cases hv
    exact ⟨cell, rfl, hcell⟩
  | succ k =>
    obtain ⟨cell', hcell', hholds⟩ := h.2 k v hv
    rw [Nat.add_assoc, Nat.add_comm 1 k] at hholds
    exact ⟨cell', hcell', hholds⟩

/-- The client finds the values where the encoder put them. -/
theorem readCells_encodes {values : List Value} {index : Nat} {before rest : Bytes}
    (henc : Encodes parseFloat definitions types index values rest)
    (hbits : ∀ k v, values[k]? = some v → (columnNull (before ++ rest) (index + k) = true ↔ v = .null))
    (hvalue : ∀ k v b, values[k]? = some v → v ≠ .null →
      encodeCell parseFloat definitions types (index + k) v = .ok b → ∃ definition a,
        definitions[index + k]? = some definition ∧ Decodes ⟨definition.type, definition.unsigned⟩ b a ∧
          P (index + k) v a) :
    ∃ cells, readCells definitions (before ++ rest) index before.length values.length = some cells ∧
      RowHolds P index values cells := by
  induction values generalizing index before rest with
  | nil =>
    cases henc
    exact ⟨[], by simp [readCells], rfl, by simp⟩
  | cons value values ih =>
    have hbits' : ∀ k v, values[k]? = some v →
        (columnNull (before ++ rest) (index + 1 + k) = true ↔ v = .null) := by
      intro k v hv
      have hnext := hbits (k + 1) v hv
      rwa [Nat.add_comm k, ← Nat.add_assoc] at hnext
    have hvalue' : ∀ k v b, values[k]? = some v → v ≠ .null →
        encodeCell parseFloat definitions types (index + 1 + k) v = .ok b → ∃ definition a,
          definitions[index + 1 + k]? = some definition ∧
            Decodes ⟨definition.type, definition.unsigned⟩ b a ∧ P (index + 1 + k) v a := by
      intro k v b hv
      have hnext := hvalue (k + 1) v b hv
      rwa [Nat.add_comm k, ← Nat.add_assoc] at hnext
    have hbit := hbits 0 value rfl
    rw [Nat.add_zero] at hbit
    rw [Encodes] at henc
    rw [List.length_cons, readCells]
    by_cases hnull : value = .null
    · rw [if_pos hnull] at henc
      obtain ⟨cells, hcells, hholds⟩ := ih henc hbits' hvalue'
      refine ⟨none :: cells, ?_, hholds.cons (.inl ⟨hnull, rfl⟩)⟩
      rw [if_pos (hbit.2 hnull), hcells]
      rfl
    · rw [if_neg hnull] at henc
      obtain ⟨b, rest, rfl, hb, henc⟩ := henc
      obtain ⟨definition, a, hdefinition, hdecodes, ha⟩ := hvalue 0 value b rfl hnull hb
      rw [Nat.add_zero] at hdefinition ha
      have happend : before ++ (b ++ rest) = (before ++ b) ++ rest := (List.append_assoc ..).symm
      rw [happend] at hbits'
      obtain ⟨cells, hcells, hholds⟩ := ih henc hbits' hvalue'
      refine ⟨some a :: cells, ?_, hholds.cons (.inr ⟨hnull, a, rfl, ha⟩)⟩
      rw [← happend, List.length_append] at hcells
      rw [if_neg fun h => hnull (hbit.1 h), hdefinition]
      simp only [bind, Option.bind, hdecodes before rest, hcells, Option.map]

/-- An encoded row is read back, whatever holds of its values. -/
theorem binaryPreparedRow_read {values : List Value} {payload : Bytes}
    (h : binaryPreparedRow parseFloat values definitions types = .ok payload)
    (hvalue : ∀ k v b, values[k]? = some v → v ≠ .null →
      encodeCell parseFloat definitions types k v = .ok b → ∃ definition a,
        definitions[k]? = some definition ∧ Decodes ⟨definition.type, definition.unsigned⟩ b a ∧ P k v a) :
    ∃ cells, readBinaryRow definitions values.length payload = some cells ∧ RowHolds P 0 values cells := by
  unfold binaryPreparedRow at h
  simp only at h
  generalize hbitmap : List.replicate (1 + (values.length + 7 + 2) / 8) (0 : UInt8) = bitmap at h
  have hlength : bitmap.length = 1 + (values.length + 7 + 2) / 8 := by rw [← hbitmap, List.length_replicate]
  rw [← List.append_nil bitmap] at h
  obtain ⟨bitmap', rest, rfl, hlen, hhead, hbits, henc⟩ := appendValues_ok h (by omega)
  rw [List.nil_append]
  have hzero : ∀ j, columnNull bitmap j = false := by
    intro j
    have hbyte : byteAt bitmap (1 + (j + 2) / 8) = 0 := by
      unfold byteAt
      rw [← hbitmap, List.getD_eq_getElem?_getD, List.getElem?_replicate]
      split_ifs <;> rfl
    rw [columnNull, hbyte, UInt8.toNat_zero, Nat.zero_testBit]
  have hread : ∃ cells, readCells definitions (bitmap' ++ rest) 0 bitmap'.length values.length = some cells ∧
      RowHolds P 0 values cells := by
    refine readCells_encodes henc (fun k v hv => ?_) fun k v b hv hne hb => ?_
    · have hk := (List.getElem?_eq_some_iff.1 hv).1
      rw [Nat.zero_add, columnNull_append (by omega), hbits, hzero]
      simp [hv]
    · rw [Nat.zero_add] at hb ⊢
      exact hvalue k v b hv hne hb
  obtain ⟨cells, hcells, hholds⟩ := hread
  refine ⟨cells, ?_, hholds⟩
  have hfirst : (bitmap' ++ rest).head? = some 0 := by
    rw [List.head?_append, hhead, ← hbitmap, Nat.add_comm 1, List.replicate_succ]
    rfl
  rw [readBinaryRow, if_pos hfirst, ← hlength, ← hlen, hcells]

end Reading

/-! ## What the client has -/

/-- The decoded value is the value of the column. -/
def SameValue (definitions : List ColumnDefinition) (types : List ColumnType) (index : Nat) (value : Value)
    (a : Argument) : Prop :=
  ∃ definition type r, definitions[index]? = some definition ∧ types[index]? = some type ∧
    a.reading definition.type = some r ∧ readingOf definition.type type.databaseTypeName value = some r

theorem encodeCell_ok {index : Nat} {value : Value} {b : Bytes}
    (h : encodeCell parseFloat definitions types index value = .ok b) :
    ∃ definition type, definitions[index]? = some definition ∧ types[index]? = some type ∧
      encodePreparedResultValue parseFloat value definition type.databaseTypeName = .ok b := by
  unfold encodeCell at h
  split at h
  · rename_i definition type hdefinition htype
    exact ⟨definition, type, hdefinition, htype, ok_of_mapError h⟩
  · cases h

/-- A binary row that is encoded is read back: the payload is used up, the NULL positions are the same, and
every other cell is the value of its column. No column is of the types FLOAT and DOUBLE, and one of the type
NULL holds nothing else. -/
theorem binary_row_read_back (parseFloat : Bytes → Nat → Except NumError Nat) (values : List Value)
    (definitions : List ColumnDefinition) (types : List ColumnType) (payload : Bytes)
    (hfloat : ∀ d ∈ definitions, d.type ≠ columnTypeFloat ∧ d.type ≠ columnTypeDouble)
    (hnull : ∀ (k : Nat) (v : Value) (d : ColumnDefinition), values[k]? = some v → definitions[k]? = some d →
      d.type = columnTypeNull → v = .null)
    (hvalues : ∀ v ∈ values, Deliverable v)
    (h : binaryPreparedRow parseFloat values definitions types = .ok payload) :
    ∃ cells, readBinaryRow definitions values.length payload = some cells ∧
      RowHolds (SameValue definitions types) 0 values cells := by
  refine binaryPreparedRow_read h fun k v b hv hne hb => ?_
  obtain ⟨definition, type, hdefinition, htype, hencode⟩ := encodeCell_ok hb
  obtain ⟨hf, hd⟩ := hfloat definition (List.mem_of_getElem? hdefinition)
  have hn : definition.type ≠ columnTypeNull := fun hn => hne (hnull k v definition hv hdefinition hn)
  obtain ⟨a, r, hdecodes, hreading, hvalue⟩ :=
    encoded_value hencode hne (hvalues v (List.mem_of_getElem? hv)) hf hd hn
  exact ⟨definition, a, hdefinition, hdecodes, definition, type, r, hdefinition, htype, hreading, hvalue⟩

/-- A definition with a name, a type and flags. -/
def sampleColumn (name : String) (type : UInt8) (flags : UInt16) : ColumnDefinition :=
  { name := lit name, charset := defaultCharsetID, length := 1024, type, flags }

/-- A parser of floats that accepts nothing. -/
def noFloats (_ : Bytes) (_ : Nat) : Except NumError Nat := .error .errSyntax

def sampleDefinitions : List ColumnDefinition :=
  [sampleColumn "a" columnTypeShort 0, sampleColumn "b" columnTypeTime 0, sampleColumn "c" columnTypeDate 0]

def sampleTypes : List ColumnType :=
  [⟨text "SMALLINT", none, none, none⟩, ⟨text "TIME", none, none, none⟩, ⟨text "DATE", none, none, none⟩]

def sampleValues : List Value := [.int (-5), .string (lit "-26:03:04"), .null]

theorem sampleValues_deliverable : ∀ v ∈ sampleValues, Deliverable v := by
  intro v hv
  simp only [sampleValues, List.mem_cons, List.not_mem_nil, or_false] at hv
  rcases hv with rfl | rfl | rfl
  · exact ⟨fun _ s hs => by cases hs; decide, fun t ht => by cases ht⟩
  · exact ⟨fun _ s hs => by cases hs; decide, fun t ht => by cases ht⟩
  · exact ⟨(fun _ _ hs => nomatch hs), (fun _ ht => nomatch ht)⟩

theorem binary_row_read_back_three :
    ∃ cells, readBinaryRow sampleDefinitions sampleValues.length [0, 16, 0xfb, 0xff, 8, 1, 1, 0, 0, 0, 2, 3, 4] =
        some cells ∧ RowHolds (SameValue sampleDefinitions sampleTypes) 0 sampleValues cells := by
  refine binary_row_read_back noFloats sampleValues sampleDefinitions sampleTypes _ (by decide)
    (fun k v d _ hd hn => ?_) sampleValues_deliverable (by decide)
  have hmem := List.mem_of_getElem? hd
  simp only [sampleDefinitions, List.mem_cons, List.not_mem_nil, or_false] at hmem
  rcases hmem with rfl | rfl | rfl <;> cases hn

/-- A value in a column of the type NULL is written, and not read. -/
theorem null_column_not_read :
    binaryPreparedRow noFloats [.string (lit "x")] [sampleColumn "a" columnTypeNull 0]
        [⟨text "NULL", none, none, none⟩] = .ok [0, 0, 1, 120] ∧
      readBinaryRow [sampleColumn "a" columnTypeNull 0] 1 [0, 0, 1, 120] = none := by
  decide

/-! ## The same as text -/

/-- What a client has of a cell of a binary row, `some none` for NULL. -/
def cellReading (type : UInt8) : Option Argument → Option (Option Reading)
  | none => some none
  | some a => (a.reading type).map some

/-- What a client has of a cell of a text row. -/
def textReading (type : UInt8) : Option Bytes → Option (Option Reading)
  | none => some none
  | some s => (readText type s).map some

/-- The type of a column in its definition. -/
def Column.fieldType (database : Text) (column : Column) : UInt8 :=
  (columnDefinition column.name database column.type).type

/-- A text in a TIME column that is encoded denotes a time. -/
theorem durationOf_encoded {value : Value} {definition : ColumnDefinition} {databaseType : Text} {s b : Bytes}
    (h : encodePreparedResultValue parseFloat value definition databaseType = .ok b)
    (hs : textValue value databaseType = some s) (ht : definition.type = columnTypeTime) :
    ∃ d, durationOf s = some d := by
  rw [encode_time ht, hs] at h
  obtain ⟨_, _, _, _, _, _, _, _, _, _, hduration⟩ := encodePreparedTimeResult_ok h
  exact ⟨_, hduration⟩

/-- The decoded value is what the text of the value is read as. -/
def SameText (database : Text) (columns : List Column) (index : Nat) (value : Value) (a : Argument) : Prop :=
  ∀ column, columns[index]? = some column → ∃ s r, textValue value column.type.databaseTypeName = some s ∧
    a.reading (Column.fieldType database column) = some r ∧ readText (Column.fieldType database column) s = some r

theorem encodeCell_same {database : Text} {columns : List Column}
    (hfloat : ∀ c ∈ columns, Column.fieldType database c ≠ columnTypeFloat ∧
      Column.fieldType database c ≠ columnTypeDouble)
    {index : Nat} {value : Value} {b : Bytes} (hd : Deliverable value) (hne : value ≠ .null)
    (hb : encodeCell parseFloat (columns.map fun c => columnDefinition c.name database c.type)
      (columns.map (·.type)) index value = .ok b) :
    ∃ definition a, (columns.map fun c => columnDefinition c.name database c.type)[index]? = some definition ∧
      Decodes ⟨definition.type, definition.unsigned⟩ b a ∧ SameText database columns index value a := by
  obtain ⟨definition, type, hdefinition, htype, hencode⟩ := encodeCell_ok hb
  rw [List.getElem?_map] at hdefinition htype
  obtain ⟨column, hcolumn, rfl⟩ := Option.map_eq_some_iff.1 hdefinition
  rw [hcolumn] at htype
  cases htype
  have htype := type_columnDefinition column.name database column.type
  obtain ⟨hf, hdouble⟩ := hfloat column (List.mem_of_getElem? hcolumn)
  have hnull : (columnDefinition column.name database column.type).type ≠ columnTypeNull := by
    rw [htype]
    exact mysqlColumnType_ne_null _
  obtain ⟨a, r, hdecodes, hreading, hvalue⟩ := encoded_value hencode hne hd hf hdouble hnull
  obtain ⟨s, hs⟩ : ∃ s, textValue value column.type.databaseTypeName = some s := exists_text hne
  refine ⟨_, a, by rw [List.getElem?_map, hcolumn]; rfl, hdecodes, fun column' hcolumn' => ?_⟩
  cases hcolumn.symm.trans hcolumn'
  refine ⟨s, r, hs, hreading, ?_⟩
  rw [htype] at hvalue
  rw [Column.fieldType, htype]
  exact read_text hs hvalue hd fun ht => durationOf_encoded hencode hs (htype.trans ht)

/-- A client reads the same from a row of a prepared statement as from the row that a text query gives for the
same values. -/
theorem binary_row_same_as_text (parseFloat : Bytes → Nat → Except NumError Nat) (database : Text)
    (columns : List Column) (values : List Value) (payload : Bytes)
    (hfloat : ∀ c ∈ columns, Column.fieldType database c ≠ columnTypeFloat ∧
      Column.fieldType database c ≠ columnTypeDouble)
    (hvalues : ∀ v ∈ values, Deliverable v)
    (h : binaryPreparedRow parseFloat values (columns.map fun c => columnDefinition c.name database c.type)
      (columns.map (·.type)) = .ok payload) :
    ∃ cells, readBinaryRow (columns.map fun c => columnDefinition c.name database c.type) values.length payload =
        some cells ∧ cells.length = values.length ∧
      ∀ (k : Nat) (v : Value) (column : Column), values[k]? = some v → columns[k]? = some column → ∃ cell r, cells[k]? = some cell ∧
        cellReading (Column.fieldType database column) cell = some r ∧
        textReading (Column.fieldType database column) (textValue v column.type.databaseTypeName) = some r := by
  obtain ⟨cells, hcells, hlen, hholds⟩ := binaryPreparedRow_read h
    fun k v b hv hne hb => encodeCell_same hfloat (hvalues v (List.mem_of_getElem? hv)) hne hb
  refine ⟨cells, hcells, hlen, fun k v column hv hcolumn => ?_⟩
  obtain ⟨cell, hcell, hcases⟩ := hholds k v hv
  rw [Nat.zero_add] at hcases
  rcases hcases with ⟨rfl, rfl⟩ | ⟨-, a, rfl, hsame⟩
  · exact ⟨none, none, hcell, rfl, rfl⟩
  · obtain ⟨s, r, hs, ha, hr⟩ := hsame column hcolumn
    refine ⟨some a, some r, hcell, ?_, ?_⟩
    · rw [cellReading, ha]
      rfl
    · rw [hs, textReading, hr]
      rfl

def sampleColumns : List Column :=
  [⟨text "a", ⟨text "SMALLINT", none, none, none⟩⟩, ⟨text "b", ⟨text "TIME", none, none, none⟩⟩,
    ⟨text "c", ⟨text "DATE", none, none, none⟩⟩]

theorem binary_row_same_as_text_three :
    ∃ cells, readBinaryRow (sampleColumns.map fun c => columnDefinition c.name [] c.type) sampleValues.length
        [0, 16, 0xfb, 0xff, 8, 1, 1, 0, 0, 0, 2, 3, 4] = some cells ∧ cells.length = sampleValues.length ∧
      ∀ (k : Nat) (v : Value) (column : Column), sampleValues[k]? = some v → sampleColumns[k]? = some column →
        ∃ cell r, cells[k]? = some cell ∧ cellReading (Column.fieldType [] column) cell = some r ∧
          textReading (Column.fieldType [] column) (textValue v column.type.databaseTypeName) = some r :=
  binary_row_same_as_text noFloats [] sampleColumns sampleValues _ (by decide +kernel) sampleValues_deliverable
    (by decide +kernel)

/-! ## The handler -/

/-- Columns for all values leave no index out of range. -/
theorem appendValues_ne_panic {values : List Value} {payload : Bytes} {index : Nat}
    (hd : index + values.length ≤ definitions.length) (ht : index + values.length ≤ types.length) :
    appendValues parseFloat definitions types payload index values ≠ .error .panic := by
  induction values generalizing payload index with
  | nil => rintro ⟨⟩
  | cons value values ih =>
    rw [List.length_cons] at hd ht
    unfold appendValues
    split_ifs
    · exact ih (by omega) (by omega)
    · have hcell : encodeCell parseFloat definitions types index value ≠ .error .panic := by
        unfold encodeCell
        rw [List.getElem?_eq_getElem (by omega), List.getElem?_eq_getElem (by omega)]
        simp only
        cases encodePreparedResultValue parseFloat value _ _ <;> rintro ⟨⟩
      cases hb : encodeCell parseFloat definitions types index value with
      | ok b => exact ih (by omega) (by omega)
      | error e =>
        rintro ⟨⟩
        exact hcell hb

/-- The encoder as a session uses it, with the texts of its errors. -/
def rowEncoder (parseFloat : Bytes → Nat → Except NumError Nat) (render : Fault EncodeError → GoError) (values : List Value)
    (definitions : List ColumnDefinition) (types : List ColumnType) : Except GoError Bytes :=
  (binaryPreparedRow parseFloat values definitions types).mapError render

/-- A row a prepared statement sends is encoded from the definitions that were sent before it, and encoding it
does not panic. -/
theorem encodeBinary_encodes {svc : Service} {render : Fault EncodeError → GoError} {columns : List Column} {values : List Value}
    (hsvc : svc.binaryPreparedRow = rowEncoder parseFloat render) (hlen : values.length = columns.length) :
    binaryPreparedRow parseFloat values (columns.map fun c => columnDefinition c.name svc.database c.type)
        (columns.map (·.type)) ≠ .error .panic ∧
      ∀ packet, encodeBinary svc columns values = .ok packet → ∃ payload, packet = .binaryRow payload ∧
        binaryPreparedRow parseFloat values (columns.map fun c => columnDefinition c.name svc.database c.type)
          (columns.map (·.type)) = .ok payload := by
  refine ⟨appendValues_ne_panic (by simp [hlen]) (by simp [hlen]), fun packet h => ?_⟩
  unfold encodeBinary at h
  rw [hsvc] at h
  split at h
  · rename_i payload hpayload
    cases h
    exact ⟨payload, rfl, ok_of_mapError hpayload⟩
  · cases h

end Rows

end Accelerator.Gateway
