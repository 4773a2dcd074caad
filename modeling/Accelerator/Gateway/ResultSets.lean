/-
Result sets on the wire: packets as payloads, and the handler of a query over a client that is behind
the packet codec. The handler writes the messages of the protocol's result set, so that the client reads
the rows upstream returned.
-/
import Accelerator.Gateway.Session
import Accelerator.Protocol.Response

namespace Accelerator.Gateway

open Interact Strings Upstream Protocol

/-! ## Packets as payloads -/

def Packet.payload : Packet → Bytes
  | .ok affectedRows lastInsertID status warnings =>
    okPayload (.ofNat affectedRows) (.ofNat lastInsertID) status (.ofNat warnings)
  | .err code sqlState message => errorPayload (.ofNat code) sqlState message
  | .eof status warnings => eofPayload status (.ofNat warnings)
  | .columnCount count => columnCountPayload (.ofNat count)
  | .columnDefinition definition => columnDefinitionPayload definition
  | .textRow cells => rowPayload cells
  | .binaryRow payload => payload
  | .prepareOK id columns parameters warnings =>
    prepareOKPayload id (.ofNat columns) (.ofNat parameters) (.ofNat warnings)

/-! ## A client behind the codec -/

/-- What a write returns. -/
def written : Writer × UInt8 × Option GoError → Except GoError UInt8
  | (_, next, none) => .ok next
  | (_, _, some e) => .error e

/-- The client's connection is a writer behind the codec; the query for the warnings counts `n`, and all
other replies are free. -/
def overCodec (c : Codec) (n : Nat) : Env ClientSession Op Res Note Writer where
  step _ w o r w' :=
    match o, r with
    | .writeMessage sequence p, r => r = written (c.writeMessage w sequence p.payload) ∧
        w' = (c.writeMessage w sequence p.payload).1
    | .queryWarnings _, r => w' = w ∧ r = .ok n
    | _, _ => w' = w
  note _ w _ := w

/-- Any call may be made. -/
def anyCall : ClientSession → Writer → Op → Prop := fun _ _ _ => True

section Writes

variable {c : Codec} {n : Nat} {s : ClientSession} {w : Writer}

/-- A packet is one message. -/
theorem write_over {sequence : UInt8} {p : Packet} {b : Bytes} (hb : p.payload = b)
    {Q : Except GoError UInt8 → ClientSession → Writer → Prop}
    (h : Q (written (c.writeMessages w sequence [b])) s (c.writeMessages w sequence [b]).1) :
    (write sequence p).wp (overCodec c n) anyCall Q s w := by
  rw [Codec.writeMessages_singleton, ← hb] at h
  refine ⟨trivial, ?_⟩
  rintro r w' ⟨rfl, rfl⟩
  exact h

/-- The definitions of columns. -/
def definitions (database : Text) (columns : List Column) : List ColumnDefinition :=
  columns.map fun column => columnDefinition column.name database column.type

/-- The payload of a column's definition. -/
def definitionPayload (database : Text) (column : Column) : Bytes :=
  columnDefinitionPayload (columnDefinition column.name database column.type)

theorem writeDefinitions_over (database : Text) {sequence : UInt8} {columns : List Column}
    {Q : Except GoError UInt8 → ClientSession → Writer → Prop}
    (h : Q (written (c.writeMessages w sequence (columns.map (definitionPayload database)))) s
      (c.writeMessages w sequence (columns.map (definitionPayload database))).1) :
    (writeDefinitions database sequence columns).wp (overCodec c n) anyCall Q s w := by
  induction columns generalizing w sequence with
  | nil => exact h
  | cons column columns ih =>
    rw [List.map_cons, ← List.singleton_append] at h
    rw [writeDefinitions, Prog.wp_bind]
    refine write_over (b := definitionPayload database column) rfl ?_
    rcases hp : c.writeMessages w sequence [definitionPayload database column] with ⟨w₁, next, _ | e⟩
    · rw [Codec.writeMessages_append hp] at h
      exact ih h
    · rw [Codec.writeMessages_append_error hp] at h
      exact h

/-- The cells of a row of values. -/
def textCells (columns : List Column) (values : List Value) : List (Option Bytes) :=
  List.zipWith (fun v (column : Column) => textValue v column.type.databaseTypeName) values columns

theorem writeRows_over {columns : List Column} {sequence : UInt8} {rows : List (List Value)}
    {Q : Except (Except GoError Unit) UInt8 → ClientSession → Writer → Prop}
    (h : Q ((written (c.writeMessages w sequence (rows.map fun row => rowPayload (textCells columns row)))).mapError
        Except.error) s
      (c.writeMessages w sequence (rows.map fun row => rowPayload (textCells columns row))).1) :
    (writeRows (encodeText columns) sequence (rows.map Except.ok)).wp (overCodec c n) anyCall Q s w := by
  induction rows generalizing w sequence with
  | nil => exact h
  | cons row rows ih =>
    rw [List.map_cons, ← List.singleton_append] at h
    rw [List.map_cons, writeRows, encodeText]
    show (write sequence (.textRow (textCells columns row)) >>= _).wp _ _ _ _ _
    rw [Prog.wp_bind]
    refine write_over (b := rowPayload (textCells columns row)) rfl ?_
    rcases hp : c.writeMessages w sequence [rowPayload (textCells columns row)] with ⟨w₁, next, _ | e⟩
    · rw [Codec.writeMessages_append hp] at h
      exact ih h
    · rw [Codec.writeMessages_append_error hp] at h
      exact h

theorem writeEOF_over {sequence : UInt8} (warnings : Nat) {Q : Except GoError UInt8 → ClientSession → Writer → Prop}
    (h : Q (written (c.writeMessages w sequence [eofPayload s.status (.ofNat warnings)])) s
      (c.writeMessages w sequence [eofPayload s.status (.ofNat warnings)]).1) :
    (writeEOF sequence warnings).wp (overCodec c n) anyCall Q s w := by
  rw [writeEOF, Prog.wp_bind, Prog.wp_read]
  exact write_over rfl h

end Writes

/-! ## The handler -/

/-- What the handler returns. -/
def outcome : Writer × UInt8 × Option GoError → Except GoError Unit
  | (_, _, none) => .ok ()
  | (_, _, some e) => .error e

section Handler

variable {c : Codec} {n : Nat} {s : ClientSession} {w : Writer}

/-- The handler ends as the messages `ps` end. -/
def EndsAs (c : Codec) (w : Writer) (sequence : UInt8) (ps : List Bytes) (r : Except GoError Unit)
    (_ : ClientSession) (w' : Writer) : Prop :=
  r = outcome (c.writeMessages w sequence ps) ∧ w' = (c.writeMessages w sequence ps).1

theorem finishRows_over (sequence : UInt8) (via : Via) :
    (finishRows sequence via).wp (overCodec c n) anyCall
      (EndsAs c w sequence [eofPayload s.status (.ofNat (min n 65535))]) s w := by
  rw [finishRows, Prog.wp_bind, readWarningCount, Prog.wp_bind]
  refine ⟨trivial, ?_⟩
  rintro r w' ⟨rfl, rfl⟩
  refine (Prog.wp_bind _ _ _ _ _).2 ((Prog.wp_bind _ _ _ _ _).2 (writeEOF_over (min n 65535) ?_))
  -- recording the warnings leaves the status as it was
  have hstatus : ClientSession.status ((fun s => { s with state := s.state.setResult (min n 65535) 0 }) s) = s.status := rfl
  rw [hstatus]
  rcases hout : c.writeMessages w' sequence [eofPayload s.status (.ofNat (min n 65535))] with ⟨w₁, next, _ | e⟩
  · exact ⟨by rw [hout]; rfl, by rw [hout]⟩
  · exact ⟨by rw [hout]; rfl, by rw [hout]⟩

/-- Messages before the last ones: after them the handler goes on, and it stops at the first error. -/
theorem EndsAs.append {w₁ : Writer} {sequence next : UInt8} {qs ps : List Bytes}
    (hq : c.writeMessages w sequence qs = (w₁, next, none)) {r : Except GoError Unit} {s' : ClientSession}
    {w' : Writer} (h : EndsAs c w₁ next ps r s' w') : EndsAs c w sequence (qs ++ ps) r s' w' := by
  rw [EndsAs, Codec.writeMessages_append hq]
  exact h

theorem EndsAs.stop {w₁ : Writer} {sequence next : UInt8} {qs : List Bytes} {e : GoError}
    (hq : c.writeMessages w sequence qs = (w₁, next, some e)) (ps : List Bytes) :
    EndsAs c w sequence (qs ++ ps) (.error e) s w₁ := by
  rw [EndsAs, Codec.writeMessages_append_error hq]
  exact ⟨rfl, rfl⟩

variable {database : Text} {columns : List Column} {values : List (List Value)} {rows : Rows} {via : Via}

theorem sendBody_over (hrows : rows.rows = values.map Except.ok) (herr : rows.err = none)
    (hclose : rows.closeErr = none) (sequence : UInt8) :
    (sendBody (encodeText columns) (pure via) rows sequence).wp (overCodec c n) anyCall
      (EndsAs c w sequence ((values.map fun row => rowPayload (textCells columns row)) ++
        [eofPayload s.status (.ofNat (min n 65535))])) s w := by
  rw [sendBody, hrows, Prog.wp_bind]
  refine writeRows_over ?_
  rcases hout : c.writeMessages w sequence (values.map fun row => rowPayload (textCells columns row)) with
    ⟨w₁, next, _ | e⟩
  · rw [herr, hclose]
    exact Prog.wp_mono (finishRows_over next via) fun r s' w' h => h.append hout
  · exact EndsAs.stop hout _

/-- The messages of the result set: both of its ends carry the session's status, and the last one the warnings. -/
def answer (database : Text) (columns : List Column) (values : List (List Value)) (status : UInt16) (n : Nat) : List Bytes :=
  resultSetPayloads (definitions database columns) (values.map (textCells columns)) status status (.ofNat (min n 65535))

theorem answer_eq (status : UInt16) :
    answer database columns values status n = [columnCountPayload (.ofNat columns.length)] ++
      (columns.map (definitionPayload database) ++ ([eofPayload status (.ofNat 0)] ++
        ((values.map fun row => rowPayload (textCells columns row)) ++ [eofPayload status (.ofNat (min n 65535))]))) := by
  simp only [answer, resultSetPayloads, definitions, List.append_assoc, List.map_map, List.length_map]
  rfl

/-- The handler writes the messages of the result set, and stops at the first error. -/
theorem sendRows_over (hcolumns : rows.columns = .ok columns) (hrows : rows.rows = values.map Except.ok)
    (herr : rows.err = none) (hclose : rows.closeErr = none) :
    (sendRows database encodeText (pure via) rows).wp (overCodec c n) anyCall
      (EndsAs c w 1 (answer database columns values s.status n)) s w := by
  rw [answer_eq, sendRows, hcolumns]
  refine (Prog.wp_bind _ _ _ _ _).2 (write_over (b := columnCountPayload (.ofNat columns.length)) rfl ?_)
  rcases hcount : c.writeMessages w 1 [columnCountPayload (.ofNat columns.length)] with ⟨w₁, next₁, _ | e⟩
  swap
  · exact EndsAs.stop hcount _
  refine (Prog.wp_bind _ _ _ _ _).2 (writeDefinitions_over database ?_)
  rcases hdefs : c.writeMessages w₁ next₁ (columns.map (definitionPayload database)) with ⟨w₂, next₂, _ | e⟩
  swap
  · exact (EndsAs.stop hdefs _).append hcount
  refine (Prog.wp_bind _ _ _ _ _).2 (writeEOF_over 0 ?_)
  rcases heof : c.writeMessages w₂ next₂ [eofPayload s.status (.ofNat 0)] with ⟨w₃, next₃, _ | e⟩
  swap
  · exact ((EndsAs.stop heof _).append hdefs).append hcount
  exact Prog.wp_mono (sendBody_over hrows herr hclose next₃) fun r s' w' h =>
    ((h.append heof).append hdefs).append hcount

end Handler

/-- Two rows of a number and a string, with a NULL in each. -/
def sampleRows : Rows where
  columns := .ok [⟨text "a", ⟨text "BIGINT", none, none, none⟩⟩, ⟨text "b", ⟨text "VARCHAR", none, none, none⟩⟩]
  rows := [.ok [.int 7, .null], .ok [.null, .bytes (lit "x")]]
  err := none
  closeErr := none

end Accelerator.Gateway
