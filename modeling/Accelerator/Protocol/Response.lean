/-
Response payloads (`protocol/mysql/response.go`), and the stream of messages that `rows` writes for a
text result set (`gateway/gateway.go`). A MySQL client reads such a stream message by message: it takes
the number of columns from the first one, tells the end of the rows from a row by the first byte and the
length, and NULL from a value by the first byte of the cell.
-/
import Accelerator.Protocol.Codec
import Accelerator.Wire.LengthEncoded

namespace Accelerator.Protocol

open Strings Upstream Wire Wire.Decoder

/-! ## Payloads -/

def defaultCharsetID : UInt16 := 45

structure ColumnDefinition where
  schema : Bytes := []
  table : Bytes := []
  originalTable : Bytes := []
  name : Bytes := []
  originalName : Bytes := []
  charset : UInt16 := 0
  length : UInt32 := 0
  type : UInt8 := 0
  flags : UInt16 := 0
  decimals : UInt8 := 0
  deriving DecidableEq, Repr

def columnFlagNotNull : UInt16 := 0x0001
def columnFlagUnsigned : UInt16 := 0x0020
def columnFlagBinary : UInt16 := 0x0080

def ColumnDefinition.unsigned (d : ColumnDefinition) : Bool := d.flags &&& columnFlagUnsigned ≠ 0

/-- `binary.LittleEndian.AppendUint16`. -/
def appendUint16 (target : Bytes) (value : UInt16) : Bytes := target ++ leBytes 2 value.toNat

/-- `binary.LittleEndian.AppendUint32`. -/
def appendUint32 (target : Bytes) (value : UInt32) : Bytes := target ++ leBytes 4 value.toNat

/-- `binary.LittleEndian.AppendUint64`. -/
def appendUint64 (target : Bytes) (value : UInt64) : Bytes := target ++ leBytes 8 value.toNat

def appendLengthEncodedInteger (target : Bytes) (value : UInt64) : Bytes :=
  if value < 0xfb then target ++ [value.toUInt8]
  else if value ≤ 0xffff then appendUint16 (target ++ [0xfc]) value.toUInt16
  else if value ≤ 0xffffff then
    target ++ [0xfd, value.toUInt8, (value >>> 8).toUInt8, (value >>> 16).toUInt8]
  else appendUint64 (target ++ [0xfe]) value

def appendLengthEncodedBytes (target value : Bytes) : Bytes :=
  appendLengthEncodedInteger target (.ofNat value.length) ++ value

def okPayload (affectedRows lastInsertID : UInt64) (status warnings : UInt16) : Bytes :=
  let payload := [0x00]
  let payload := appendLengthEncodedInteger payload affectedRows
  let payload := appendLengthEncodedInteger payload lastInsertID
  let payload := appendUint16 payload status
  appendUint16 payload warnings

def errorPayload (code : UInt16) (sqlState message : Bytes) : Bytes :=
  let sqlState := if sqlState.length ≠ 5 then lit "HY000" else sqlState
  let payload := [0xff]
  let payload := appendUint16 payload code
  payload ++ lit "#" ++ sqlState ++ message

def prepareOKPayload (statementID : UInt32) (columns parameters warnings : UInt16) : Bytes :=
  let payload := [0x00]
  let payload := appendUint32 payload statementID
  let payload := appendUint16 payload columns
  let payload := appendUint16 payload parameters
  let payload := payload ++ [0x00]
  appendUint16 payload warnings

def eofPayload (status warnings : UInt16) : Bytes :=
  let payload := [0xfe]
  let payload := appendUint16 payload warnings
  appendUint16 payload status

def columnCountPayload (count : UInt64) : Bytes := appendLengthEncodedInteger [] count

def columnDefinitionPayload (column : ColumnDefinition) : Bytes :=
  let charset := if column.charset = 0 then defaultCharsetID else column.charset
  let length := if column.length = 0 then 1024 else column.length
  let payload := appendLengthEncodedBytes [] (lit "def")
  let payload := appendLengthEncodedBytes payload column.schema
  let payload := appendLengthEncodedBytes payload column.table
  let payload := appendLengthEncodedBytes payload column.originalTable
  let payload := appendLengthEncodedBytes payload column.name
  let payload := appendLengthEncodedBytes payload column.originalName
  let payload := payload ++ [0x0c]
  let payload := appendUint16 payload charset
  let payload := appendUint32 payload length
  let payload := payload ++ [column.type]
  let payload := appendUint16 payload column.flags
  payload ++ [column.decimals, 0x00, 0x00]

/-- The loop of `TextRowPayload`; a flag that is missing is not set. -/
def appendTextRow (payload : Bytes) : List Bytes → List Bool → Bytes
  | [], _ => payload
  | value :: values, nulls =>
    if nulls.headD false then appendTextRow (payload ++ [0xfb]) values nulls.tail
    else appendTextRow (appendLengthEncodedBytes payload value) values nulls.tail

def textRowPayload (values : List Bytes) (nulls : List Bool) : Bytes := appendTextRow [] values nulls

/-! ## The result set -/

/-- The row of the given cells, `none` for NULL: `textValue` returns no bytes and sets the flag. -/
def rowPayload (cells : List (Option Bytes)) : Bytes :=
  textRowPayload (cells.map fun cell => cell.getD []) (cells.map Option.isNone)

/-- The payloads `rows` writes, in order. -/
def resultSetPayloads (columns : List ColumnDefinition) (rows : List (List (Option Bytes)))
    (status endStatus warnings : UInt16) : List Bytes :=
  [columnCountPayload (.ofNat columns.length)] ++ columns.map columnDefinitionPayload ++
    [eofPayload status 0] ++ rows.map rowPayload ++ [eofPayload endStatus warnings]

/-- Write messages one after the other up to the first error, each at the sequence number the one
before it returned. -/
def Codec.writeMessages (c : Codec) (w : Writer) (sequence : UInt8) : List Bytes → Writer × UInt8 × Option GoError
  | [] => (w, sequence, none)
  | payload :: payloads =>
    match c.writeMessage w sequence payload with
    | (w, next, some e) => (w, next, some e)
    | (w, next, none) => writeMessages c w next payloads

/-- The messages of `rows`. -/
def Codec.writeResultSet (c : Codec) (w : Writer) (columns : List ColumnDefinition)
    (rows : List (List (Option Bytes))) (status endStatus warnings : UInt16) : Writer × UInt8 × Option GoError :=
  c.writeMessages w 1 (resultSetPayloads columns rows status endStatus warnings)

/-! ## The client -/

def isEOF (payload : Bytes) : Bool := payload.head? = some 0xfe ∧ payload.length < 9

def isERR (payload : Bytes) : Bool := payload.head? = some 0xff

def readUint16 : Decoder UInt8 UInt16 := do
  let n ← readLE 2
  pure (.ofNat n)

def readUint32 : Decoder UInt8 UInt32 := do
  let n ← readLE 4
  pure (.ofNat n)

/-- Warnings and status of an EOF packet. -/
def readEOF : Decoder UInt8 (UInt16 × UInt16) := do
  let _ ← next
  let warnings ← readUint16
  let status ← readUint16
  pure (status, warnings)

def readDefinition : Decoder UInt8 ColumnDefinition := do
  let catalog ← readLenencBytes
  guard (catalog = lit "def")
  let schema ← readLenencBytes
  let table ← readLenencBytes
  let originalTable ← readLenencBytes
  let name ← readLenencBytes
  let originalName ← readLenencBytes
  let fixed ← next
  guard (fixed = 0x0c)
  let charset ← readUint16
  let length ← readUint32
  let type ← next
  let flags ← readUint16
  let decimals ← next
  let filler ← take 2
  guard (filler = [0, 0])
  pure { schema, table, originalTable, name, originalName, charset, length, type, flags, decimals }

def readCell : Decoder UInt8 (Option Bytes) := fun bs =>
  if bs.head? = some 0xfb then some (none, bs.tail)
  else (readLenencBytes >>= fun value => pure (some value)) bs

/-- A client: its connection, and the sequence number it expects next. -/
abbrev Client := StateT (Reader × UInt8) Option

structure ResultSet where
  columns : List ColumnDefinition
  rows : List (List (Option Bytes))
  status : UInt16
  warnings : UInt16
  deriving DecidableEq, Repr

/-- The next message, if it has the expected number. -/
def Codec.receive (c : Codec) : Client Bytes := fun (r, expected) =>
  match c.readMessage r with
  | (r, .ok m) => if m.sequence = expected then some (m.payload, (r, m.nextSequence)) else none
  | (_, .error _) => none

/-- The next message as a whole. -/
def Codec.receiveAs {α : Type} (c : Codec) (d : Decoder UInt8 α) : Client α := do
  let payload ← c.receive
  d.whole payload

def Codec.receiveDefinitions (c : Codec) : Nat → Client (List ColumnDefinition)
  | 0 => pure []
  | n + 1 => do
    let column ← c.receiveAs readDefinition
    let columns ← c.receiveDefinitions n
    pure (column :: columns)

/-- Rows up to the EOF packet. An error packet ends the result set, too, and there is none then. -/
def Codec.receiveRows (c : Codec) (width : Nat) : Nat → Client (List (List (Option Bytes)) × UInt16 × UInt16)
  | 0 => failure
  | rounds + 1 => do
    let payload ← c.receive
    if isERR payload then failure
    else if isEOF payload then
      let last ← readEOF.whole payload
      pure ([], last)
    else
      let row ← (many readCell width).whole payload
      let (rows, last) ← c.receiveRows width rounds
      pure (row :: rows, last)

/-- A result set. A column count of zero is an OK packet. A row takes at least a byte of the stream, so
that the rounds do not run out. -/
def Codec.receiveResultSet (c : Codec) : Client ResultSet := do
  let count ← c.receiveAs readLenencInt
  guard (count ≠ 0)
  let columns ← c.receiveDefinitions count
  let payload ← c.receive
  guard (isEOF payload)
  let (r, _) ← get
  let (rows, status, warnings) ← c.receiveRows count (r.data.length + 1)
  pure { columns, rows, status, warnings }

/-! ## Payloads as they are read -/

theorem appendLengthEncodedInteger_eq (target : Bytes) (value : UInt64) :
    appendLengthEncodedInteger target value = target ++ lenencInt value.toNat := by
  have hbyte : ∀ v : UInt64, v.toUInt8 = UInt8.ofNat v.toNat := fun _ => rfl
  unfold appendLengthEncodedInteger lenencInt
  simp only [UInt64.lt_iff_toNat_lt, UInt64.le_iff_toNat_le, UInt64.reduceToNat]
  split_ifs with h₁ h₂ h₃
  · rw [hbyte]
  · have hlow : value.toUInt16.toNat = value.toNat := by
      rw [UInt64.toNat_toUInt16]
      omega
    rw [appendUint16, hlow, List.append_assoc]
    rfl
  · have h8 : (value >>> 8).toNat = value.toNat / 256 := by
      rw [UInt64.toNat_shiftRight, Nat.shiftRight_eq_div_pow]
      rfl
    have h16 : (value >>> 16).toNat = value.toNat / 256 / 256 := by
      rw [UInt64.toNat_shiftRight, Nat.shiftRight_eq_div_pow, Nat.div_div_eq_div_mul]
      rfl
    rw [hbyte, hbyte, hbyte, h8, h16]
    rfl
  · rw [appendUint64, List.append_assoc]
    rfl

theorem appendLengthEncodedBytes_eq (target : Bytes) {value : Bytes} (h : value.length < 2 ^ 64) :
    appendLengthEncodedBytes target value = target ++ lenencBytes value := by
  have hlen : (UInt64.ofNat value.length).toNat = value.length := UInt64.toNat_ofNat_of_lt h
  rw [appendLengthEncodedBytes, appendLengthEncodedInteger_eq, hlen, lenencBytes, List.append_assoc]

/-- A string takes at least its own length. -/
theorem length_appendLengthEncodedBytes (target value : Bytes) :
    target.length + value.length ≤ (appendLengthEncodedBytes target value).length := by
  rw [appendLengthEncodedBytes, appendLengthEncodedInteger_eq]
  simp only [List.length_append]
  omega

theorem reads_uint16 (v : UInt16) : Reads readUint16 (leBytes 2 v.toNat) v := by
  have h := (reads_leBytes (w := 2) (n := v.toNat) v.toNat_lt).map UInt16.ofNat
  rw [UInt16.ofNat_toNat] at h
  exact h

theorem reads_uint32 (v : UInt32) : Reads readUint32 (leBytes 4 v.toNat) v := by
  have h := (reads_leBytes (w := 4) (n := v.toNat) v.toNat_lt).map UInt32.ofNat
  rw [UInt32.ofNat_toNat] at h
  exact h

/-- The definition a client sees: the two defaults are filled in. -/
def ColumnDefinition.shown (column : ColumnDefinition) : ColumnDefinition :=
  { column with
    charset := if column.charset = 0 then defaultCharsetID else column.charset
    length := if column.length = 0 then 1024 else column.length }

theorem reads_definition (column : ColumnDefinition) (h : (columnDefinitionPayload column).length < 2 ^ 63) :
    Reads readDefinition (columnDefinitionPayload column) column.shown := by
  -- every string is shorter than the payload
  have hdef : (lit "def").length < 2 ^ 64 := by decide
  obtain ⟨hschema, htable, horiginalTable, hname, horiginalName⟩ : column.schema.length < 2 ^ 64 ∧
      column.table.length < 2 ^ 64 ∧ column.originalTable.length < 2 ^ 64 ∧ column.name.length < 2 ^ 64 ∧
      column.originalName.length < 2 ^ 64 := by
    simp only [columnDefinitionPayload, appendUint16, appendUint32, List.length_append] at h
    generalize appendLengthEncodedBytes [] (lit "def") = p at h
    have h₁ := length_appendLengthEncodedBytes p column.schema
    generalize appendLengthEncodedBytes p column.schema = p at h h₁
    have h₂ := length_appendLengthEncodedBytes p column.table
    generalize appendLengthEncodedBytes p column.table = p at h h₂
    have h₃ := length_appendLengthEncodedBytes p column.originalTable
    generalize appendLengthEncodedBytes p column.originalTable = p at h h₃
    have h₄ := length_appendLengthEncodedBytes p column.name
    generalize appendLengthEncodedBytes p column.name = p at h h₄
    have h₅ := length_appendLengthEncodedBytes p column.originalName
    omega
  unfold columnDefinitionPayload
  simp only [appendLengthEncodedBytes_eq, appendUint16, appendUint32, List.append_assoc, List.nil_append,
    hdef, hschema, htable, horiginalTable, hname, horiginalName]
  refine (reads_lenencBytes hdef).bind (.check rfl ?_)
  refine (reads_lenencBytes hschema).bind ((reads_lenencBytes htable).bind ?_)
  refine (reads_lenencBytes horiginalTable).bind ((reads_lenencBytes hname).bind ?_)
  refine (reads_lenencBytes horiginalName).bind ((reads_next 0x0c).bind (.check rfl ?_))
  refine (reads_uint16 _).bind ((reads_uint32 _).bind ((reads_next _).bind ?_))
  refine (reads_uint16 _).bind ((reads_next column.decimals).bind (e := [0, 0]) ?_)
  refine (reads_take rfl).bind (b := [0, 0]) (e := []) (.check rfl ?_)
  exact Reads.pure _

theorem reads_eof (status warnings : UInt16) : Reads readEOF (eofPayload status warnings) (status, warnings) := by
  simp only [eofPayload, appendUint16, List.append_assoc]
  exact (reads_next 0xfe).bind ((reads_uint16 warnings).bind ((reads_uint16 status).map (·, warnings)))

theorem isEOF_eofPayload (status warnings : UInt16) : isEOF (eofPayload status warnings) = true := by
  simp [isEOF, eofPayload, appendUint16]

/-! ## Rows -/

/-- A cell on the wire. -/
def cellBytes : Option Bytes → Bytes
  | none => [0xfb]
  | some value => lenencBytes value

/-- A row takes at least the length of each of its cells. -/
theorem appendTextRow_length (payload : Bytes) (cells : List (Option Bytes)) :
    payload.length ≤ (appendTextRow payload (cells.map fun cell => cell.getD []) (cells.map Option.isNone)).length ∧
      ∀ value, some value ∈ cells →
        value.length ≤ (appendTextRow payload (cells.map fun cell => cell.getD []) (cells.map Option.isNone)).length := by
  induction cells generalizing payload with
  | nil => exact ⟨le_rfl, fun value h => absurd h List.not_mem_nil⟩
  | cons cell cells ih =>
    cases cell with
    | none =>
      obtain ⟨hle, hmem⟩ := ih (payload ++ [0xfb])
      rw [List.length_append] at hle
      refine ⟨Nat.le_of_add_right_le hle, fun value h => hmem value ?_⟩
      exact List.mem_of_ne_of_mem (by rintro ⟨⟩) h
    | some b =>
      obtain ⟨hle, hmem⟩ := ih (appendLengthEncodedBytes payload b)
      have hb := length_appendLengthEncodedBytes payload b
      refine ⟨Nat.le_trans (by omega) hle, fun value h => ?_⟩
      rcases List.mem_cons.1 h with h | h
      · cases h
        exact Nat.le_trans (by omega) hle
      · exact hmem value h

theorem appendTextRow_eq (payload : Bytes) {cells : List (Option Bytes)}
    (h : ∀ value, some value ∈ cells → value.length < 2 ^ 64) :
    appendTextRow payload (cells.map fun cell => cell.getD []) (cells.map Option.isNone) =
      payload ++ cells.flatMap cellBytes := by
  induction cells generalizing payload with
  | nil => simp [appendTextRow]
  | cons cell cells ih =>
    have ih := fun p => ih p fun value hv => h value (List.mem_cons_of_mem cell hv)
    rw [List.flatMap_cons, ← List.append_assoc, ← ih]
    cases cell with
    | none => rfl
    | some b =>
      rw [cellBytes, ← appendLengthEncodedBytes_eq payload (h b List.mem_cons_self)]
      rfl

theorem length_le_rowPayload {cells : List (Option Bytes)} {value : Bytes} (h : some value ∈ cells) :
    value.length ≤ (rowPayload cells).length := (appendTextRow_length [] cells).2 value h

/-- The cells of a row within the codec's limits. -/
theorem rowPayload_eq {cells : List (Option Bytes)} (h : (rowPayload cells).length < 2 ^ 63) :
    (∀ value, some value ∈ cells → value.length < 2 ^ 64) ∧ rowPayload cells = cells.flatMap cellBytes := by
  have hcells : ∀ value, some value ∈ cells → value.length < 2 ^ 64 := by
    intro value hv
    have := length_le_rowPayload hv
    omega
  exact ⟨hcells, appendTextRow_eq [] hcells⟩

theorem reads_cell {cell : Option Bytes} (h : ∀ value, cell = some value → value.length < 2 ^ 64) :
    Reads readCell (cellBytes cell) cell := by
  intro rest
  cases cell with
  | none => rfl
  | some value =>
    obtain ⟨b, bs, hb, hne, -, -⟩ := head_lenencInt value.length
    have hhead : (cellBytes (some value) ++ rest).head? = some b := by
      simp [cellBytes, lenencBytes, hb]
    rw [readCell, hhead, if_neg (fun h => hne (Option.some.inj h))]
    exact (reads_lenencBytes (h value rfl)).map some rest

/-- A row is read back. -/
theorem reads_row {cells : List (Option Bytes)} (h : (rowPayload cells).length < 2 ^ 63) :
    Reads (many readCell cells.length) (rowPayload cells) cells := by
  obtain ⟨hcells, hrow⟩ := rowPayload_eq h
  rw [hrow]
  refine Reads.many fun cell hcell => reads_cell ?_
  rintro value rfl
  exact hcells value hcell

/-- A row with a first cell is neither an error packet nor the end of the rows: a length of more than
three bytes is the only number that begins with 0xfe, and then the cell alone is longer than any EOF packet. -/
theorem row_not_end {cells : List (Option Bytes)} (hne : cells ≠ []) (h : (rowPayload cells).length < 2 ^ 63) :
    isEOF (rowPayload cells) = false ∧ isERR (rowPayload cells) = false := by
  obtain ⟨cell, cells, rfl⟩ := List.exists_cons_of_ne_nil hne
  obtain ⟨hcells, hrow⟩ := rowPayload_eq h
  cases cell with
  | none =>
    rw [hrow]
    exact ⟨rfl, rfl⟩
  | some value =>
    have hlen := length_le_rowPayload (List.mem_cons_self (a := some value) (l := cells))
    obtain ⟨b, bs, hb, -, herr, hlong⟩ := head_lenencInt value.length
    have hhead : (rowPayload (some value :: cells)).head? = some b := by
      simp [hrow, cellBytes, lenencBytes, hb]
    constructor
    · rw [isEOF, hhead, decide_eq_false_iff_not]
      rintro ⟨heq, hshort⟩
      have := hlong (Option.some.inj heq)
      omega
    · rw [isERR, hhead, decide_eq_false_iff_not]
      exact fun heq => herr (Option.some.inj heq)

/-! ## Streams of messages -/

/-- The number of frames of a message. -/
def Codec.frameCount (c : Codec) (payload : Bytes) : Nat := payload.length / c.framePayload + 1

/-- Messages on the wire, numbered one after the other. -/
def Codec.wire (c : Codec) : UInt8 → List Bytes → Bytes
  | _, [] => []
  | sequence, p :: ps =>
    frames c.framePayload (p.length / c.framePayload) sequence p ++
      c.wire (sequence + UInt8.ofNat (c.frameCount p)) ps

/-- The number of frames of some messages. -/
def Codec.frameTotal (c : Codec) (payloads : List Bytes) : Nat := (payloads.map c.frameCount).sum

section Stream

variable {c : Codec} {α γ : Type} {x : Client α} {f : α → Client γ} {ps qs : List Bytes} {p : Bytes} {a : α} {b : γ}

theorem sequence_add_add (s : UInt8) (m n : Nat) :
    s + UInt8.ofNat m + UInt8.ofNat n = s + UInt8.ofNat (m + n) := by
  rw [UInt8.ofNat_add, UInt8.add_assoc]

theorem Codec.frameTotal_cons (p : Bytes) (ps : List Bytes) :
    c.frameTotal (p :: ps) = c.frameCount p + c.frameTotal ps := List.sum_cons

theorem Codec.frameTotal_append (ps qs : List Bytes) :
    c.frameTotal (ps ++ qs) = c.frameTotal ps + c.frameTotal qs := by
  rw [Codec.frameTotal, List.map_append, List.sum_append]
  rfl

theorem Codec.wire_append (s : UInt8) (ps qs : List Bytes) :
    c.wire s (ps ++ qs) = c.wire s ps ++ c.wire (s + UInt8.ofNat (c.frameTotal ps)) qs := by
  induction ps generalizing s with
  | nil => simp [Codec.wire, Codec.frameTotal]
  | cons p ps ih =>
    simp only [List.cons_append, Codec.wire, ih, Codec.frameTotal_cons, sequence_add_add, List.append_assoc]

theorem Codec.length_le_wire (s : UInt8) (ps : List Bytes) : ps.length ≤ (c.wire s ps).length := by
  induction ps generalizing s with
  | nil => exact Nat.zero_le _
  | cons p ps ih =>
    have := ih (s + UInt8.ofNat (c.frameCount p))
    have hpos : ∀ q, 0 < (frames c.framePayload q s p).length := by
      intro q
      cases q <;> simp [frames, frame]
    have := hpos (p.length / c.framePayload)
    simp only [Codec.wire, List.length_append, List.length_cons]
    omega

theorem Codec.writeMessages_append {w w' : Writer} {s s' : UInt8} (h : c.writeMessages w s ps = (w', s', none))
    (qs : List Bytes) : c.writeMessages w s (ps ++ qs) = c.writeMessages w' s' qs := by
  induction ps generalizing w s with
  | nil =>
    cases h
    rfl
  | cons p ps ih =>
    rw [Codec.writeMessages] at h
    rw [List.cons_append, Codec.writeMessages]
    rcases hp : c.writeMessage w s p with ⟨w₁, s₁, _ | e⟩
    · rw [hp] at h
      exact ih h
    · rw [hp] at h
      cases h

/-- Nothing is written after an error. -/
theorem Codec.writeMessages_append_error {w w' : Writer} {s s' : UInt8} {e : GoError}
    (h : c.writeMessages w s ps = (w', s', some e)) (qs : List Bytes) :
    c.writeMessages w s (ps ++ qs) = (w', s', some e) := by
  induction ps generalizing w s with
  | nil => cases h
  | cons p ps ih =>
    rw [Codec.writeMessages] at h
    rw [List.cons_append, Codec.writeMessages]
    rcases hp : c.writeMessage w s p with ⟨w₁, s₁, _ | e⟩
    · rw [hp] at h
      exact ih h
    · rw [hp] at h
      exact h

theorem Codec.writeMessages_singleton (w : Writer) (s : UInt8) (p : Bytes) :
    c.writeMessages w s [p] = c.writeMessage w s p := by
  rw [Codec.writeMessages]
  rcases c.writeMessage w s p with ⟨w₁, s₁, _ | e⟩ <;> rfl

/-- The messages are written. -/
theorem Codec.writeMessages_accepts {w : Writer} (hw : w.Accepts) (s : UInt8)
    (hp : ∀ p ∈ ps, p.length ≤ c.maxMessageBytes) :
    ∃ w', c.writeMessages w s ps = (w', s + UInt8.ofNat (c.frameTotal ps), none) ∧
      w'.written = w.written ++ c.wire s ps := by
  induction ps generalizing w s with
  | nil => exact ⟨w, by simp [Codec.writeMessages, Codec.frameTotal], by simp [Codec.wire]⟩
  | cons p ps ih =>
    obtain ⟨w₁, hwrite, hout, hw₁⟩ := Codec.writeMessage_accepts hw s (hp p List.mem_cons_self)
    obtain ⟨w₂, hwrite₂, hout₂⟩ := ih hw₁ (s + UInt8.ofNat (c.frameCount p)) fun q hq =>
      hp q (List.mem_cons_of_mem p hq)
    refine ⟨w₂, ?_, ?_⟩
    · rw [Codec.frameTotal_cons, ← sequence_add_add, ← hwrite₂, Codec.writeMessages, hwrite]
      rfl
    · rw [hout₂, hout, Codec.wire, List.append_assoc]

/-- A client program takes the messages `ps` from the stream and makes `a` of them, whatever follows. -/
def Codec.Takes (c : Codec) (x : Client α) (ps : List Bytes) (a : α) : Prop :=
  ∀ (r : Reader) (s : UInt8) (rest : Bytes), r.Delivers → r.data = c.wire s ps ++ rest →
    ∃ r', x (r, s) = some (a, (r', s + UInt8.ofNat (c.frameTotal ps))) ∧ r'.data = rest ∧ r'.Delivers

theorem Codec.Takes.pure (a : α) : c.Takes (Pure.pure a) [] a := by
  intro r s rest hr hd
  have hs : s + UInt8.ofNat (c.frameTotal []) = s := UInt8.add_zero s
  exact ⟨r, by rw [hs]; rfl, hd, hr⟩

theorem Codec.Takes.bind (hx : c.Takes x ps a) (hf : c.Takes (f a) qs b) : c.Takes (x >>= f) (ps ++ qs) b := by
  intro r s rest hr hd
  rw [Codec.wire_append, List.append_assoc] at hd
  obtain ⟨r₁, hx, hd₁, hr₁⟩ := hx r s _ hr hd
  obtain ⟨r₂, hf, hd₂, hr₂⟩ := hf r₁ _ rest hr₁ hd₁
  refine ⟨r₂, ?_, hd₂, hr₂⟩
  have hbind : (x >>= f) (r, s) = (x (r, s)).bind fun y => f y.1 y.2 := rfl
  rw [hbind, hx, Option.bind_some, hf, sequence_add_add, Codec.frameTotal_append]

theorem Codec.Takes.bind_nil (hx : c.Takes x ps a) (hf : c.Takes (f a) [] b) : c.Takes (x >>= f) ps b := by
  have h := hx.bind hf
  rwa [List.append_nil] at h

/-- A check that holds takes no message. -/
theorem Codec.Takes.check {q : Prop} [Decidable q] (hq : q) {x : Unit → Client α} (hx : c.Takes (x ()) ps a) :
    c.Takes (guard q >>= x) ps a := by
  rw [guard, if_pos hq]
  exact (Codec.Takes.pure ()).bind hx

/-- A value computed from what was received. -/
theorem Codec.Takes.value {v : Option α} (hv : v = some a) : c.Takes (liftM v) [] a := by
  subst hv
  exact Codec.Takes.pure a

/-- What a program does may depend on its stream. -/
theorem Codec.Takes.get {x : Reader × UInt8 → Client α}
    (h : ∀ r s rest, r.data = c.wire s ps ++ rest → c.Takes (x (r, s)) ps a) :
    c.Takes (MonadState.get >>= x) ps a := fun r s rest hr hd => h r s rest hd r s rest hr hd

theorem Codec.takes_receive (hp : p.length ≤ c.maxMessageBytes) : c.Takes c.receive [p] p := by
  intro r s rest hr hd
  rw [Codec.wire, Codec.wire, List.append_nil] at hd
  obtain ⟨r', hread, hd', hr'⟩ := Codec.readMessage_delivers hr s hp hd
  refine ⟨r', ?_, hd', hr'⟩
  simp only [Codec.receive, hread, if_true, Codec.frameTotal_cons]
  rfl

theorem Codec.takes_receiveAs {d : Decoder UInt8 α} (hd : Reads d p a) (hp : p.length ≤ c.maxMessageBytes) :
    c.Takes (c.receiveAs d) [p] a := (Codec.takes_receive hp).bind (.value hd.whole)

end Stream

/-! ## The result set read back -/

section ResultSet

variable {c : Codec} {columns : List ColumnDefinition} {rows : List (List (Option Bytes))}

theorem Codec.takes_definitions
    (h : ∀ p ∈ columns.map columnDefinitionPayload, p.length ≤ c.maxMessageBytes) :
    c.Takes (c.receiveDefinitions columns.length) (columns.map columnDefinitionPayload)
      (columns.map ColumnDefinition.shown) := by
  have hmax := c.max_lt
  induction columns with
  | nil => exact .pure []
  | cons column columns ih =>
    have hp := h _ List.mem_cons_self
    have hcolumn := Codec.takes_receiveAs (c := c) (reads_definition column (by omega)) hp
    have hrest := ih fun q hq => h q (List.mem_cons_of_mem _ hq)
    exact hcolumn.bind (hrest.bind_nil (.pure _))

theorem Codec.takes_rows {width rounds : Nat} (hwidth : 0 < width) (hrows : ∀ row ∈ rows, row.length = width)
    (h : ∀ p ∈ rows.map rowPayload, p.length ≤ c.maxMessageBytes) (hrounds : rows.length < rounds)
    (status warnings : UInt16) (hend : (eofPayload status warnings).length ≤ c.maxMessageBytes) :
    c.Takes (c.receiveRows width rounds) (rows.map rowPayload ++ [eofPayload status warnings])
      (rows, status, warnings) := by
  have hmax := c.max_lt
  induction rows generalizing rounds with
  | nil =>
    obtain ⟨rounds, rfl⟩ : ∃ k, rounds = k + 1 := ⟨rounds - 1, by omega⟩
    refine (Codec.takes_receive hend).bind_nil ?_
    rw [if_neg (by rintro ⟨⟩), if_pos (isEOF_eofPayload status warnings)]
    exact (Codec.Takes.value (reads_eof status warnings).whole).bind_nil (.pure _)
  | cons row rows ih =>
    obtain ⟨rounds, rfl⟩ : ∃ k, rounds = k + 1 := ⟨rounds - 1, by rw [List.length_cons] at hrounds; omega⟩
    have hp := h _ List.mem_cons_self
    have hlen := hrows row List.mem_cons_self
    have hne : row ≠ [] := by
      rintro rfl
      rw [List.length_nil] at hlen
      omega
    -- a row packet is not taken for the end of the rows
    obtain ⟨heof, herr⟩ := row_not_end hne (by omega)
    have hrounds' : rows.length < rounds := by
      rw [List.length_cons] at hrounds
      omega
    have hrest := ih (fun r hr => hrows r (List.mem_cons_of_mem _ hr))
      (fun q hq => h q (List.mem_cons_of_mem _ hq)) hrounds'
    refine (Codec.takes_receive hp).bind ?_
    rw [if_neg (by simp [herr]), if_neg (by simp [heof])]
    have hrow := (reads_row (show (rowPayload row).length < 2 ^ 63 by omega)).whole
    rw [hlen] at hrow
    exact (Codec.Takes.value hrow).bind (hrest.bind_nil (.pure _))

/-- A client makes the result set of the messages `rows` writes. The number of columns is the length of
a slice. -/
theorem Codec.takes_resultSet (status endStatus warnings : UInt16) (hne : columns ≠ [])
    (hcount : columns.length < 2 ^ 63) (hrows : ∀ row ∈ rows, row.length = columns.length)
    (hlimit : ∀ p ∈ resultSetPayloads columns rows status endStatus warnings, p.length ≤ c.maxMessageBytes) :
    c.Takes c.receiveResultSet (resultSetPayloads columns rows status endStatus warnings)
      ⟨columns.map ColumnDefinition.shown, rows, endStatus, warnings⟩ := by
  have hpos : 0 < columns.length := List.length_pos_of_ne_nil hne
  simp only [resultSetPayloads, List.append_assoc] at hlimit ⊢
  simp only [List.forall_mem_append, List.forall_mem_singleton] at hlimit
  obtain ⟨hfirst, hdefinitions, heof, hbody, hend⟩ := hlimit
  have hcount' : (UInt64.ofNat columns.length).toNat = columns.length :=
    UInt64.toNat_ofNat_of_lt (Nat.lt_trans hcount (by decide))
  have hread : Reads readLenencInt (columnCountPayload (.ofNat columns.length)) columns.length := by
    rw [columnCountPayload, appendLengthEncodedInteger_eq, List.nil_append, hcount']
    exact reads_lenencInt (by omega)
  refine (Codec.takes_receiveAs hread hfirst).bind (.check (by omega) ?_)
  refine (Codec.takes_definitions hdefinitions).bind ((Codec.takes_receive heof).bind ?_)
  refine .check (isEOF_eofPayload status 0) (.get fun r s rest hd => ?_)
  have hrounds : rows.length < r.data.length + 1 := by
    have := Codec.length_le_wire (c := c) s (rows.map rowPayload ++ [eofPayload endStatus warnings])
    rw [hd]
    simp only [List.length_append, List.length_map] at this ⊢
    omega
  exact (Codec.takes_rows hpos hrows hbody hrounds endStatus warnings hend).bind_nil (.pure _)

end ResultSet

/-- The result set of `rows` is read back as it is: the columns with their defaults filled in, the rows
in their order, under consecutive sequence numbers; and no row is taken for the end of the rows or for
an error. The number of columns is the length of a slice. -/
theorem result_set_read_back (c : Codec) (columns : List ColumnDefinition) (rows : List (List (Option Bytes)))
    (status endStatus warnings : UInt16) (hne : columns ≠ []) (hcount : columns.length < 2 ^ 63)
    (hrows : ∀ row ∈ rows, row.length = columns.length)
    (hlimit : ∀ p ∈ resultSetPayloads columns rows status endStatus warnings, p.length ≤ c.maxMessageBytes) :
    (∀ w : Writer, w.Accepts → ∃ w' b next,
      c.writeResultSet w columns rows status endStatus warnings = (w', next, none) ∧
      w'.written = w.written ++ b ∧
      next = 1 + UInt8.ofNat (c.frameTotal (resultSetPayloads columns rows status endStatus warnings)) ∧
      ∀ (r : Reader) (rest : Bytes), r.Delivers → r.data = b ++ rest → ∃ r',
        c.receiveResultSet (r, 1) =
          some (⟨columns.map ColumnDefinition.shown, rows, endStatus, warnings⟩, (r', next)) ∧
        r'.data = rest) ∧
    ∀ row ∈ rows, isEOF (rowPayload row) = false ∧ isERR (rowPayload row) = false := by
  have hmax := c.max_lt
  refine ⟨fun w hw => ?_, fun row hrow => ?_⟩
  · obtain ⟨w', hwrite, hout⟩ := Codec.writeMessages_accepts hw 1 hlimit
    refine ⟨w', _, _, hwrite, hout, rfl, fun r rest hr hd => ?_⟩
    obtain ⟨r', hread, hrest, -⟩ :=
      Codec.takes_resultSet status endStatus warnings hne hcount hrows hlimit r 1 rest hr hd
    exact ⟨r', hread, hrest⟩
  · have hp : (rowPayload row).length ≤ c.maxMessageBytes := by
      refine hlimit _ ?_
      simp only [resultSetPayloads, List.mem_append, List.mem_map]
      exact .inl (.inr ⟨row, hrow, rfl⟩)
    refine row_not_end ?_ (by omega)
    rintro rfl
    exact hne (List.eq_nil_of_length_eq_zero (hrows [] hrow).symm)

/-- A codec with short frames, so that a column definition takes several. -/
def shortFrames : Codec := ⟨64, 16, by decide, by decide, by decide, by decide⟩

/-- A column with neither charset nor length. -/
def answerColumn : ColumnDefinition where
  schema := lit "app"
  table := []
  originalTable := []
  name := lit "answer"
  originalName := lit "answer"
  charset := 0
  length := 0
  type := 0x08
  flags := 0
  decimals := 0

/-- A value, a NULL and an empty string, one frame each after the header's five. -/
theorem result_set_read_back_answer :
    (∃ w' r', shortFrames.writeResultSet ⟨[], bytewise, 0⟩ [answerColumn] [[some (lit "42")], [none], [some []]] 2 2 0 =
        (w', 10, none) ∧
      shortFrames.receiveResultSet (⟨w'.written ++ [7], bytewise, 0⟩, 1) =
        some (⟨[{ answerColumn with charset := 45, length := 1024 }], [[some (lit "42")], [none], [some []]], 2, 0⟩,
          (r', 10)) ∧
      r'.data = [7]) ∧
    isEOF (rowPayload [none]) = false := by
  obtain ⟨hread, hrow⟩ := result_set_read_back shortFrames [answerColumn] [[some (lit "42")], [none], [some []]]
    2 2 0 (by decide) (by decide) (by decide) (by decide)
  obtain ⟨w', b, next, hwrite, hout, hnext, hread⟩ := hread ⟨[], bytewise, 0⟩ fun _ => ⟨1, by decide, rfl⟩
  obtain rfl : next = 10 := hnext.trans (by decide)
  obtain ⟨r', hread, hrest⟩ := hread ⟨w'.written ++ [7], bytewise, 0⟩ [7] (fun _ => ⟨1, rfl⟩)
    (by rw [hout]; rfl)
  exact ⟨⟨w', r', hwrite, hread, hrest⟩, (hrow [none] (by decide)).1⟩

end Accelerator.Protocol
