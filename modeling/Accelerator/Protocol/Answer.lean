/-
How a client reads the reply to a command from the bytes of its connection. It tells an OK packet, an error and a
result set apart by the first byte of a message and the end of the rows from a row by its first byte and its length,
and it counts messages by their sequence numbers. What it makes of the payloads of `protocol/mysql/response.go` is
what was put into them.
-/
import Accelerator.Protocol.Response

namespace Accelerator.Protocol

open Strings Upstream Wire Wire.Decoder

/-! ## The client -/

/-- What an error packet tells. -/
structure ErrorReply where
  code : UInt16
  sqlState : Bytes
  message : Bytes
  deriving DecidableEq, Repr

/-- The end of the rows of a result set. -/
inductive Ending where
  | eof (status warnings : UInt16)
  | error (e : ErrorReply)
  deriving DecidableEq, Repr

/-- What a client makes of a reply. Rows stay as they came: which encoding they have depends on the command. -/
inductive Answer where
  | ok (affectedRows lastInsertID : Nat) (status warnings : UInt16)
  | error (e : ErrorReply)
  | rows (columns : List ColumnDefinition) (rows : List Bytes) (last : Ending)
  | prepared (id : UInt32) (parameters columns : List ColumnDefinition) (warnings : UInt16)
  deriving DecidableEq, Repr

def readOK : Decoder UInt8 Answer := do
  let header ← next
  guard (header = 0x00)
  let affectedRows ← readLenencInt
  let lastInsertID ← readLenencInt
  let status ← readUint16
  let warnings ← readUint16
  pure (.ok affectedRows lastInsertID status warnings)

/-- The code and the SQL state of an error packet. -/
def readErrorHeader : Decoder UInt8 (UInt16 × Bytes) := do
  let header ← next
  guard (header = 0xff)
  let code ← readUint16
  let marker ← next
  guard (marker = 35)
  let sqlState ← take 5
  pure (code, sqlState)

/-- An error packet: the message is what is left. -/
def readError (payload : Bytes) : Option ErrorReply :=
  (readErrorHeader payload).map fun ((code, sqlState), message) => ⟨code, sqlState, message⟩

/-- Handle, columns, parameters and warnings of the reply to a prepare. -/
def readPrepareOK : Decoder UInt8 (UInt32 × UInt16 × UInt16 × UInt16) := do
  let header ← next
  guard (header = 0x00)
  let id ← readUint32
  let columns ← readUint16
  let parameters ← readUint16
  let filler ← next
  guard (filler = 0x00)
  let warnings ← readUint16
  pure (id, columns, parameters, warnings)

/-- Column definitions and the EOF packet behind them; there is none behind none. -/
def Codec.receiveBlock (c : Codec) (n : Nat) : Client (List ColumnDefinition) :=
  if n = 0 then pure []
  else do
    let definitions ← c.receiveDefinitions n
    let payload ← c.receive
    guard (isEOF payload)
    pure definitions

/-- Rows up to the packet that ends them. -/
def Codec.receiveBody (c : Codec) : Nat → Client (List Bytes × Ending)
  | 0 => failure
  | rounds + 1 => do
    let payload ← c.receive
    if isERR payload then
      let e ← readError payload
      pure ([], .error e)
    else if isEOF payload then
      let (status, warnings) ← readEOF.whole payload
      pure ([], .eof status warnings)
    else
      let (rows, last) ← c.receiveBody rounds
      pure (payload :: rows, last)

/-- The reply to a COM_STMT_PREPARE or to another command. A row takes at least a byte of the stream, so that the
rounds do not run out. -/
def Codec.receiveAnswer (c : Codec) (prepare : Bool) : Client Answer := do
  let payload ← c.receive
  if isERR payload then
    let e ← readError payload
    pure (.error e)
  else if prepare then
    let (id, columns, parameters, warnings) ← readPrepareOK.whole payload
    let parameters ← c.receiveBlock parameters.toNat
    let columns ← c.receiveBlock columns.toNat
    pure (.prepared id parameters columns warnings)
  else if payload.head? = some 0x00 then readOK.whole payload
  else
    let count ← readLenencInt.whole payload
    let columns ← c.receiveBlock count
    let (r, _) ← get
    let (rows, last) ← c.receiveBody (r.data.length + 1)
    pure (.rows columns rows last)

/-! ## Payloads as they are read -/

theorem reads_ok (affectedRows lastInsertID : UInt64) (status warnings : UInt16) :
    Reads readOK (okPayload affectedRows lastInsertID status warnings)
      (.ok affectedRows.toNat lastInsertID.toNat status warnings) := by
  simp only [okPayload, appendLengthEncodedInteger_eq, appendUint16, List.append_assoc]
  refine (reads_next 0x00).bind (.check rfl ?_)
  refine (reads_lenencInt affectedRows.toNat_lt).bind ((reads_lenencInt lastInsertID.toNat_lt).bind ?_)
  exact (reads_uint16 status).bind ((reads_uint16 warnings).map _)

/-- The SQL state that is sent. -/
def shownState (sqlState : Bytes) : Bytes := if sqlState.length ≠ 5 then lit "HY000" else sqlState

theorem length_shownState (sqlState : Bytes) : (shownState sqlState).length = 5 := by
  unfold shownState
  split
  · rfl
  · rename_i h
    exact not_not.1 h

theorem readError_errorPayload (code : UInt16) (sqlState message : Bytes) :
    readError (errorPayload code sqlState message) = some ⟨code, shownState sqlState, message⟩ := by
  have hheader : Reads readErrorHeader ([0xff] ++ (leBytes 2 code.toNat ++ ([35] ++ shownState sqlState)))
      (code, shownState sqlState) := by
    refine (reads_next 0xff).bind (.check rfl ((reads_uint16 code).bind ?_))
    exact (reads_next 35).bind (.check rfl ((reads_take (length_shownState sqlState)).map _))
  have hpayload : errorPayload code sqlState message =
      ([0xff] ++ (leBytes 2 code.toNat ++ ([35] ++ shownState sqlState))) ++ message := by
    simp only [errorPayload, appendUint16, List.append_assoc]
    rfl
  rw [readError, hpayload, hheader]
  rfl

theorem isERR_errorPayload (code : UInt16) (sqlState message : Bytes) :
    isERR (errorPayload code sqlState message) = true := by
  simp [isERR, errorPayload, appendUint16]

theorem reads_prepareOK (id : UInt32) (columns parameters warnings : UInt16) :
    Reads readPrepareOK (prepareOKPayload id columns parameters warnings) (id, columns, parameters, warnings) := by
  simp only [prepareOKPayload, appendUint16, appendUint32, List.append_assoc]
  refine (reads_next 0x00).bind (.check rfl ((reads_uint32 id).bind ((reads_uint16 columns).bind ?_)))
  exact (reads_uint16 parameters).bind ((reads_next 0x00).bind (.check rfl ((reads_uint16 warnings).map _)))

/-! ## Replies as they are read -/

section Takes

variable {c : Codec}

/-- The messages of a block of definitions. -/
def blockPayloads (definitions : List ColumnDefinition) (status warnings : UInt16) : List Bytes :=
  if definitions = [] then [] else definitions.map columnDefinitionPayload ++ [eofPayload status warnings]

theorem Codec.takes_block {definitions : List ColumnDefinition} (status warnings : UInt16)
    (h : ∀ p ∈ blockPayloads definitions status warnings, p.length ≤ c.maxMessageBytes) :
    c.Takes (c.receiveBlock definitions.length) (blockPayloads definitions status warnings)
      (definitions.map ColumnDefinition.shown) := by
  unfold blockPayloads at h ⊢
  unfold Codec.receiveBlock
  by_cases hd : definitions = []
  · subst hd
    exact .pure []
  · rw [if_neg hd] at h ⊢
    rw [if_neg fun hz => hd (List.eq_nil_of_length_eq_zero hz)]
    simp only [List.forall_mem_append, List.forall_mem_singleton] at h
    refine (Codec.takes_definitions h.1).bind ((Codec.takes_receive h.2).bind_nil ?_)
    exact .check (isEOF_eofPayload status warnings) (.pure _)

/-- A message that ends the rows. -/
inductive EndsRows : Bytes → Ending → Prop
  | eof (status warnings : UInt16) : EndsRows (eofPayload status warnings) (.eof status warnings)
  | error (code : UInt16) (sqlState message : Bytes) :
      EndsRows (errorPayload code sqlState message) (.error ⟨code, shownState sqlState, message⟩)

/-- A message that is neither an error nor the end of the rows. -/
def GoesOn (payload : Bytes) : Prop := isERR payload = false ∧ isEOF payload = false

theorem Codec.takes_body {rows : List Bytes} {last : Bytes} {ending : Ending} {rounds : Nat}
    (hrows : ∀ p ∈ rows, GoesOn p) (hlast : EndsRows last ending)
    (h : ∀ p ∈ rows ++ [last], p.length ≤ c.maxMessageBytes) (hrounds : rows.length < rounds) :
    c.Takes (c.receiveBody rounds) (rows ++ [last]) (rows, ending) := by
  induction rows generalizing rounds with
  | nil =>
    obtain ⟨rounds, rfl⟩ : ∃ k, rounds = k + 1 := ⟨rounds - 1, by omega⟩
    refine (Codec.takes_receive (h last List.mem_cons_self)).bind_nil ?_
    cases hlast with
    | eof status warnings =>
      rw [if_neg (by rintro ⟨⟩), if_pos (isEOF_eofPayload status warnings)]
      exact (Codec.Takes.value (reads_eof status warnings).whole).bind_nil (.pure _)
    | error code sqlState message =>
      rw [if_pos (isERR_errorPayload code sqlState message)]
      exact (Codec.Takes.value (readError_errorPayload code sqlState message)).bind_nil (.pure _)
  | cons row rows ih =>
    obtain ⟨rounds, rfl⟩ : ∃ k, rounds = k + 1 := ⟨rounds - 1, by rw [List.length_cons] at hrounds; omega⟩
    obtain ⟨herr, heof⟩ := hrows row List.mem_cons_self
    have hrest := ih (fun p hp => hrows p (List.mem_cons_of_mem _ hp))
      (fun p hp => h p (List.mem_cons_of_mem _ hp)) (Nat.lt_of_succ_lt_succ hrounds)
    refine (Codec.takes_receive (h row List.mem_cons_self)).bind ?_
    rw [if_neg (by simp [herr]), if_neg (by simp [heof])]
    exact hrest.bind_nil (.pure _)

theorem Codec.takes_error (prepare : Bool) {code : UInt16} {sqlState message : Bytes}
    (h : (errorPayload code sqlState message).length ≤ c.maxMessageBytes) :
    c.Takes (c.receiveAnswer prepare) [errorPayload code sqlState message]
      (.error ⟨code, shownState sqlState, message⟩) := by
  refine (Codec.takes_receive h).bind_nil ?_
  rw [if_pos (isERR_errorPayload code sqlState message)]
  exact (Codec.Takes.value (readError_errorPayload code sqlState message)).bind_nil (.pure _)

theorem Codec.takes_ok {affectedRows lastInsertID : UInt64} {status warnings : UInt16}
    (h : (okPayload affectedRows lastInsertID status warnings).length ≤ c.maxMessageBytes) :
    c.Takes (c.receiveAnswer false) [okPayload affectedRows lastInsertID status warnings]
      (.ok affectedRows.toNat lastInsertID.toNat status warnings) := by
  have hhead : (okPayload affectedRows lastInsertID status warnings).head? = some 0x00 := by
    simp [okPayload, appendLengthEncodedInteger_eq, appendUint16]
  refine (Codec.takes_receive h).bind_nil ?_
  rw [if_neg (by simp [isERR, hhead]), if_neg Bool.false_ne_true, if_pos hhead]
  exact .value (reads_ok affectedRows lastInsertID status warnings).whole

/-- A number of columns other than zero is neither an error nor an OK packet. -/
theorem head_columnCount {n : Nat} (hn : n ≠ 0) (hlt : n < 2 ^ 64) :
    isERR (columnCountPayload (.ofNat n)) = false ∧ (columnCountPayload (.ofNat n)).head? ≠ some 0x00 := by
  have hnat : (UInt64.ofNat n).toNat = n := UInt64.toNat_ofNat_of_lt hlt
  rw [columnCountPayload, appendLengthEncodedInteger_eq, List.nil_append, hnat]
  obtain ⟨b, bs, hb, -, herr, -⟩ := head_lenencInt n
  constructor
  · rw [isERR, hb, decide_eq_false_iff_not]
    exact fun h => herr (Option.some.inj h)
  · unfold lenencInt at *
    split
    · rename_i hsmall
      simp only [List.head?_cons, ne_eq, Option.some.injEq]
      intro hz
      have := congrArg UInt8.toNat hz
      rw [UInt8.toNat_ofNat_of_lt' (Nat.lt_trans hsmall (by decide))] at this
      exact hn this
    · split
      · simp
      · split <;> simp

/-- The messages of a result set, with rows in any encoding. -/
def rowsPayloads (columns : List ColumnDefinition) (status warnings : UInt16) (rows : List Bytes) (last : Bytes) :
    List Bytes :=
  columnCountPayload (.ofNat columns.length) :: blockPayloads columns status warnings ++ (rows ++ [last])

theorem Codec.takes_result {columns : List ColumnDefinition} {status warnings : UInt16} {rows : List Bytes} {last : Bytes}
    {ending : Ending} (hne : columns ≠ []) (hcount : columns.length < 2 ^ 63) (hrows : ∀ p ∈ rows, GoesOn p)
    (hlast : EndsRows last ending) (h : ∀ p ∈ rowsPayloads columns status warnings rows last, p.length ≤ c.maxMessageBytes) :
    c.Takes (c.receiveAnswer false) (rowsPayloads columns status warnings rows last)
      (.rows (columns.map ColumnDefinition.shown) rows ending) := by
  have hz : columns.length ≠ 0 := fun hz => hne (List.eq_nil_of_length_eq_zero hz)
  have hlt : columns.length < 2 ^ 64 := by omega
  obtain ⟨herr, hhead⟩ := head_columnCount hz hlt
  have hread : Reads readLenencInt (columnCountPayload (.ofNat columns.length)) columns.length := by
    have hnat : (UInt64.ofNat columns.length).toNat = columns.length := UInt64.toNat_ofNat_of_lt hlt
    rw [columnCountPayload, appendLengthEncodedInteger_eq, List.nil_append, hnat]
    exact reads_lenencInt hlt
  rw [rowsPayloads, List.cons_append, List.forall_mem_cons, List.forall_mem_append] at h
  obtain ⟨hfirst, hblock, hbody⟩ := h
  refine (Codec.takes_receive (p := columnCountPayload (.ofNat columns.length)) hfirst).bind ?_
  rw [if_neg (by simp [herr]), if_neg Bool.false_ne_true, if_neg hhead]
  refine (Codec.Takes.value hread.whole).bind ((Codec.takes_block status warnings hblock).bind ?_)
  refine .get fun r s rest hd => ?_
  have hrounds : rows.length < r.data.length + 1 := by
    have := Codec.length_le_wire (c := c) s (rows ++ [last])
    rw [hd]
    simp only [List.length_append, List.length_cons, List.length_nil] at this ⊢
    omega
  exact (Codec.takes_body hrows hlast hbody hrounds).bind_nil (.pure _)

/-- The messages of the reply to a prepare. -/
def preparedPayloads (id : UInt32) (parameters columns : List ColumnDefinition)
    (warnings status₁ warnings₁ status₂ warnings₂ : UInt16) : List Bytes :=
  prepareOKPayload id (.ofNat columns.length) (.ofNat parameters.length) warnings ::
    blockPayloads parameters status₁ warnings₁ ++ blockPayloads columns status₂ warnings₂

theorem Codec.takes_prepared {id : UInt32} {parameters columns : List ColumnDefinition}
    {warnings status₁ warnings₁ status₂ warnings₂ : UInt16} (hparameters : parameters.length < 65536)
    (hcolumns : columns.length < 65536)
    (h : ∀ p ∈ preparedPayloads id parameters columns warnings status₁ warnings₁ status₂ warnings₂,
      p.length ≤ c.maxMessageBytes) :
    c.Takes (c.receiveAnswer true) (preparedPayloads id parameters columns warnings status₁ warnings₁ status₂ warnings₂)
      (.prepared id (parameters.map ColumnDefinition.shown) (columns.map ColumnDefinition.shown) warnings) := by
  have herr : isERR (prepareOKPayload id (.ofNat columns.length) (.ofNat parameters.length) warnings) = false := by
    simp [isERR, prepareOKPayload, appendUint16, appendUint32]
  simp only [preparedPayloads, List.cons_append, List.forall_mem_cons, List.forall_mem_append] at h
  obtain ⟨hfirst, hblock₁, hblock₂⟩ := h
  have h₁ := Codec.takes_block status₁ warnings₁ hblock₁
  have h₂ := Codec.takes_block status₂ warnings₂ hblock₂
  rw [← UInt16.toNat_ofNat_of_lt' hparameters] at h₁
  rw [← UInt16.toNat_ofNat_of_lt' hcolumns] at h₂
  refine (Codec.takes_receive hfirst).bind ?_
  rw [if_neg (by simp [herr]), if_pos rfl]
  refine (Codec.Takes.value (reads_prepareOK _ _ _ _).whole).bind ?_
  exact h₁.bind (h₂.bind_nil (.pure _))

end Takes

end Accelerator.Protocol
