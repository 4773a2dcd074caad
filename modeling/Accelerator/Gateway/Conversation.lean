/-
The dialogue of a session on the wire. The packets a session writes go through the codec with the sequence numbers it
gives them; a client that knows only the commands it has sent and the bytes it receives reads for each command the
reply the session wrote for it, and its stream is then at the reply to the next.
-/
import Accelerator.Gateway.BinaryRows
import Accelerator.Gateway.ResultSets
import Accelerator.Gateway.Turns
import Accelerator.Protocol.Answer

namespace Accelerator.Gateway

open Interact Strings Engine Upstream Session
open Protocol (Codec Answer Ending Reader Writer ColumnDefinition)

/-! ## Replies and their packets -/

/-- Column definitions and the EOF packet behind them. -/
def block (definitions : List ColumnDefinition) (status : UInt16) (warnings : Nat) : List Packet :=
  if definitions = [] then [] else definitions.map Packet.columnDefinition ++ [.eof status warnings]

/-- How a packet ends the rows. -/
inductive Packet.Ends : Packet → Ending → Prop
  | eof (status : UInt16) (warnings : Nat) : Ends (.eof status warnings) (.eof status (.ofNat warnings))
  | error (code : Nat) (sqlState message : Bytes) :
      Ends (.err code sqlState message) (.error ⟨.ofNat code, Protocol.shownState sqlState, message⟩)

/-- What the packets of a reply to a prepare or to another command mean. -/
inductive Means : Bool → List Packet → Answer → Prop
  | ok (affectedRows lastInsertID : Nat) (status : UInt16) (warnings : Nat) :
      Means false [.ok affectedRows lastInsertID status warnings]
        (.ok (affectedRows % 2 ^ 64) (lastInsertID % 2 ^ 64) status (.ofNat warnings))
  | error (prepare : Bool) (code : Nat) (sqlState message : Bytes) :
      Means prepare [.err code sqlState message] (.error ⟨.ofNat code, Protocol.shownState sqlState, message⟩)
  | rows {columns : List ColumnDefinition} {rows : List Packet} {last : Packet} {ending : Ending} (status : UInt16)
      (warnings : Nat) : columns ≠ [] → (∀ p ∈ rows, p.isRow = true) → last.Ends ending →
      Means false (.columnCount columns.length :: block columns status warnings ++ (rows ++ [last]))
        (.rows (columns.map ColumnDefinition.shown) (rows.map Packet.payload) ending)
  | prepared {parameters columns : List ColumnDefinition} (id : UInt32) (warnings : Nat) (status₁ : UInt16)
      (warnings₁ : Nat) (status₂ : UInt16) (warnings₂ : Nat) :
      Means true (.prepareOK id columns.length parameters.length warnings ::
          block parameters status₁ warnings₁ ++ block columns status₂ warnings₂)
        (.prepared id (parameters.map ColumnDefinition.shown) (columns.map ColumnDefinition.shown) (.ofNat warnings))

theorem readDefinitions_eq_some {n : Nat} {ps rest : List Packet} (h : readDefinitions n ps = some rest) :
    ∃ definitions : List ColumnDefinition, definitions.length = n ∧ ps = definitions.map Packet.columnDefinition ++ rest := by
  induction n generalizing ps with
  | zero =>
    cases h
    exact ⟨[], rfl, rfl⟩
  | succ n ih =>
    cases ps with
    | nil => cases h
    | cons p ps =>
      cases p with
      | columnDefinition d =>
        obtain ⟨definitions, hlen, hps⟩ := ih h
        exact ⟨d :: definitions, congrArg (· + 1) hlen, congrArg (Packet.columnDefinition d :: ·) hps⟩
      | _ => cases h

theorem readBlock_eq_some {n : Nat} {ps rest : List Packet} (h : readBlock n ps = some rest) :
    ∃ definitions status warnings, definitions.length = n ∧ ps = block definitions status warnings ++ rest := by
  unfold readBlock at h
  split at h
  · rename_i hn
    cases h
    exact ⟨[], 0, 0, hn.symm, rfl⟩
  · rename_i hn
    split at h
    · rename_i status warnings rest' hd
      cases h
      obtain ⟨definitions, hlen, rfl⟩ := readDefinitions_eq_some hd
      refine ⟨definitions, status, warnings, hlen, ?_⟩
      rw [block, if_neg (by rintro rfl; exact hn hlen.symm), List.append_assoc]
      rfl
    · cases h

theorem readRows_eq_some {ps rest : List Packet} (h : readRows ps = some rest) :
    ∃ rows last ending, (∀ p ∈ rows, p.isRow = true) ∧ Packet.Ends last ending ∧ ps = rows ++ last :: rest := by
  induction ps with
  | nil => cases h
  | cons p ps ih =>
    have hrow : p.isRow = true → readRows ps = some rest → ∃ rows last ending, (∀ p ∈ rows, p.isRow = true) ∧
        Packet.Ends last ending ∧ p :: ps = rows ++ last :: rest := by
      intro hp h
      obtain ⟨rows, last, ending, hrows, hlast, rfl⟩ := ih h
      exact ⟨p :: rows, last, ending, List.forall_mem_cons.2 ⟨hp, hrows⟩, hlast, rfl⟩
    cases p with
    | textRow cells => exact hrow rfl h
    | binaryRow payload => exact hrow rfl h
    | eof status warnings =>
      cases h
      exact ⟨[], _, _, List.forall_mem_nil _, .eof status warnings, rfl⟩
    | err code sqlState message =>
      cases h
      exact ⟨[], _, _, List.forall_mem_nil _, .error code sqlState message, rfl⟩
    | _ => cases h

/-- A complete response means something, unless it is a column count of zero. -/
theorem means_of_complete {prepare : Bool} {ps : List Packet} (h : Complete prepare ps) (hcount : .columnCount 0 ∉ ps) :
    ∃ a, Means prepare ps a := by
  have h : readResponse prepare (ps ++ []) = some [] := h []
  rw [List.append_nil] at h
  cases ps with
  | nil => cases h
  | cons p ps =>
    cases p with
    | err code sqlState message =>
      cases h
      exact ⟨_, .error prepare code sqlState message⟩
    | ok affectedRows lastInsertID status warnings =>
      cases prepare with
      | true => cases h
      | false =>
        cases h
        exact ⟨_, .ok affectedRows lastInsertID status warnings⟩
    | prepareOK id columns parameters warnings =>
      cases prepare with
      | false => cases h
      | true =>
        obtain ⟨rest, h₁, h₂⟩ := Option.bind_eq_some_iff.1 (h : (readBlock parameters ps).bind _ = some [])
        obtain ⟨ds₁, status₁, warnings₁, rfl, rfl⟩ := readBlock_eq_some h₁
        obtain ⟨ds₂, status₂, warnings₂, rfl, rfl⟩ := readBlock_eq_some h₂
        rw [List.append_nil]
        exact ⟨_, .prepared id warnings status₁ warnings₁ status₂ warnings₂⟩
    | columnCount n =>
      cases prepare with
      | true => cases h
      | false =>
        by_cases hn : n = 0
        · subst hn
          exact absurd List.mem_cons_self hcount
        · have h : (if n = 0 then some ps else (readBlock n ps).bind readRows) = some [] := h
          rw [if_neg hn] at h
          obtain ⟨rest, h₁, h₂⟩ := Option.bind_eq_some_iff.1 h
          obtain ⟨columns, status, warnings, rfl, rfl⟩ := readBlock_eq_some h₁
          obtain ⟨rows, last, ending, hrows, hlast, rfl⟩ := readRows_eq_some h₂
          exact ⟨_, .rows status warnings (by rintro rfl; exact hn rfl) hrows hlast⟩
    | _ => cases h

/-! ## On the wire -/

section Wire

variable {c : Codec}

theorem block_payload (definitions : List ColumnDefinition) (status : UInt16) (warnings : Nat) :
    (block definitions status warnings).map Packet.payload =
      Protocol.blockPayloads definitions status (.ofNat warnings) := by
  unfold block Protocol.blockPayloads
  by_cases hd : definitions = []
  · rw [if_pos hd, if_pos hd]
    rfl
  · rw [if_neg hd, if_neg hd, List.map_append, List.map_map]
    rfl

theorem Packet.Ends.payload {last : Packet} {ending : Ending} (h : last.Ends ending) :
    Protocol.EndsRows last.payload ending := by
  cases h with
  | eof status warnings => exact .eof status (.ofNat warnings)
  | error code sqlState message => exact .error (.ofNat code) sqlState message

/-- The session encodes binary rows as `binaryPreparedRow` does. -/
def Service.Binary (svc : Service) : Prop := ∃ parseFloat, ∀ values definitions types payload,
  svc.binaryPreparedRow values definitions types = .ok payload →
    Gateway.binaryPreparedRow parseFloat values definitions types = .ok payload

theorem head_binaryPreparedRow {parseFloat : Bytes → Nat → Except NumError Nat} {values : List Value}
    {definitions : List ColumnDefinition} {types : List ColumnType} {payload : Bytes}
    (h : binaryPreparedRow parseFloat values definitions types = .ok payload) : payload.head? = some 0 := by
  unfold binaryPreparedRow at h
  simp only at h
  rw [← List.append_nil (List.replicate _ _)] at h
  obtain ⟨bitmap, rest, rfl, hlen, hhead, -, -⟩ := appendValues_ok h (by rw [List.length_replicate]; omega)
  rw [List.head?_append, hhead, Nat.add_comm, List.replicate_succ]
  rfl

/-- A row is not taken for the end of the rows. -/
theorem goesOn_row {svc : Service} (hb : svc.Binary) {p : Packet} {x : Bool} (hrow : p.isRow = true) (hfits : p.Fits svc x)
    (hlen : p.payload.length ≤ c.maxMessageBytes) : Protocol.GoesOn p.payload := by
  have hmax := c.max_lt
  cases p with
  | textRow cells =>
    cases cells with
    | nil => exact ⟨rfl, rfl⟩
    | cons cell cells =>
      have hlt : (Protocol.rowPayload (cell :: cells)).length < 2 ^ 63 := by
        have : (Protocol.rowPayload (cell :: cells)).length ≤ c.maxMessageBytes := hlen
        omega
      exact (Protocol.row_not_end (List.cons_ne_nil cell cells) hlt).symm
  | binaryRow payload =>
    have hhead : payload.head? = some 0 := by
      obtain ⟨parseFloat, hencode⟩ := hb
      obtain ⟨values, definitions, types, h⟩ := hfits
      exact head_binaryPreparedRow (hencode _ _ _ _ h)
    constructor
    · simp [Protocol.isERR, Packet.payload, hhead]
    · simp [Protocol.isEOF, Packet.payload, hhead]
  | _ => cases hrow

/-- A client reads what the packets mean. -/
theorem takes_means {svc : Service} (hb : svc.Binary) {prepare : Bool} {ps : List Packet} {a : Answer}
    (hm : Means prepare ps a) {x : Bool} (hfits : ∀ p ∈ ps, p.Fits svc x) (hcount : ∀ n, .columnCount n ∈ ps → n < 2 ^ 63)
    (hlen : ∀ p ∈ ps, p.payload.length ≤ c.maxMessageBytes) :
    c.Takes (c.receiveAnswer prepare) (ps.map Packet.payload) a := by
  have hlen' : ∀ b ∈ ps.map Packet.payload, b.length ≤ c.maxMessageBytes := by
    simpa using hlen
  cases hm with
  | ok affectedRows lastInsertID status warnings =>
    have htake := Codec.takes_ok (c := c) (hlen _ List.mem_cons_self :
      (Protocol.okPayload (.ofNat affectedRows) (.ofNat lastInsertID) status (.ofNat warnings)).length ≤ _)
    rwa [UInt64.toNat_ofNat', UInt64.toNat_ofNat'] at htake
  | error _ code sqlState message => exact Codec.takes_error prepare (hlen _ List.mem_cons_self)
  | @rows columns rows last ending status warnings hne hrows hlast =>
    have hps : (Packet.columnCount columns.length :: block columns status warnings ++ (rows ++ [last])).map Packet.payload =
        Protocol.rowsPayloads columns status (.ofNat warnings) (rows.map Packet.payload) last.payload := by
      simp only [List.map_append, List.map_cons, List.map_nil, block_payload, Protocol.rowsPayloads]
      rfl
    rw [hps] at hlen' ⊢
    have hgo : ∀ b ∈ rows.map Packet.payload, Protocol.GoesOn b := by
      rw [List.forall_mem_map]
      intro p hp
      have hin : p ∈ Packet.columnCount columns.length :: block columns status warnings ++ (rows ++ [last]) := by
        simp [hp]
      exact goesOn_row hb (hrows p hp) (hfits p hin) (hlen p hin)
    exact Codec.takes_result hne (hcount _ List.mem_cons_self) hgo hlast.payload hlen'
  | @prepared parameters columns id warnings status₁ warnings₁ status₂ warnings₂ =>
    have hps : (Packet.prepareOK id columns.length parameters.length warnings ::
        block parameters status₁ warnings₁ ++ block columns status₂ warnings₂).map Packet.payload =
        Protocol.preparedPayloads id parameters columns (.ofNat warnings) status₁ (.ofNat warnings₁) status₂
          (.ofNat warnings₂) := by
      simp only [List.map_append, List.map_cons, block_payload, Protocol.preparedPayloads]
      rfl
    obtain ⟨hcolumns, hparameters⟩ : columns.length < 65536 ∧ parameters.length < 65536 := hfits _ List.mem_cons_self
    rw [hps] at hlen' ⊢
    exact Codec.takes_prepared hparameters hcolumns hlen'

/-- The packets of a session go through the codec as the session numbers them, up to the first that is not written. -/
def deliver (c : Codec) (w : Writer) : List (UInt8 × Packet) → Writer × Option GoError
  | [] => (w, none)
  | (sequence, p) :: rest =>
    match c.writeMessage w sequence p.payload with
    | (w, _, some e) => (w, some e)
    | (w, _, none) => deliver c w rest

/-- A client that has sent the commands reads a reply for each that has one, from sequence number 1 on. -/
def converse (c : Codec) : List Bytes → Reader → Option (List (Option Answer) × Reader)
  | [], r => some ([], r)
  | command :: commands, r =>
    if isSilent command then (converse c commands r).map fun x => (none :: x.1, x.2)
    else
      match c.receiveAnswer (isPrepareCommand command) (r, 1) with
      | none => none
      | some (a, (r, _)) => (converse c commands r).map fun x => (some a :: x.1, x.2)

/-- What a client should hear of an exchange. -/
def Exchange.Heard (e : Exchange) : Option Answer → Prop
  | none => e.silent = true
  | some a => e.silent = false ∧ Means e.isPrepare e.packets a

/-- The bytes of a reply. -/
def Exchange.wire (c : Codec) (e : Exchange) : Bytes := c.wire 1 (e.packets.map Packet.payload)

theorem deliver_append {frames : Packet → Nat} (hframes : ∀ p, frames p = c.frameCount p.payload) {w : Writer}
    (hw : w.Accepts) {s : UInt8} {sent : List (UInt8 × Packet)} (hnumbered : Numbered frames s sent)
    (hlen : ∀ x ∈ sent, x.2.payload.length ≤ c.maxMessageBytes) (more : List (UInt8 × Packet)) :
    ∃ w', deliver c w (sent ++ more) = deliver c w' more ∧ w'.Accepts ∧
      w'.written = w.written ++ c.wire s (sent.map fun x => x.2.payload) := by
  induction sent generalizing w s with
  | nil => exact ⟨w, rfl, hw, (List.append_nil _).symm⟩
  | cons x sent ih =>
    obtain ⟨sequence, p⟩ := x
    obtain ⟨rfl, hrest⟩ := hnumbered
    obtain ⟨w₁, hwrite, hout, hw₁⟩ := Codec.writeMessage_accepts hw sequence (hlen _ List.mem_cons_self)
    rw [hframes] at hrest
    obtain ⟨w₂, hdeliver, hw₂, hout₂⟩ := ih hw₁ hrest fun y hy => hlen y (List.mem_cons_of_mem _ hy)
    refine ⟨w₂, ?_, hw₂, ?_⟩
    · rw [List.cons_append, deliver, hwrite]
      exact hdeliver
    · rw [hout₂, hout, List.map_cons, Codec.wire, List.append_assoc]

/-- The replies are read one after the other. -/
theorem converse_reads {es : List Exchange}
    (h : ∀ e ∈ es, if e.silent = true then e.sent = []
      else ∃ a, Means e.isPrepare e.packets a ∧ c.Takes (c.receiveAnswer e.isPrepare) (e.packets.map Packet.payload) a) :
    ∃ answers, List.Forall₂ Exchange.Heard es answers ∧
      ∀ (r : Reader) (rest : Bytes), r.Delivers → r.data = es.flatMap (Exchange.wire c) ++ rest →
        ∃ r', converse c (es.map (·.payload)) r = some (answers, r') ∧ r'.data = rest := by
  induction es with
  | nil => exact ⟨[], .nil, fun r rest _ hd => ⟨r, rfl, hd⟩⟩
  | cons e es ih =>
    obtain ⟨answers, hheard, hread⟩ := ih fun e' he' => h e' (List.mem_cons_of_mem _ he')
    have he := h e List.mem_cons_self
    by_cases hs : e.silent = true
    · -- nothing is written and nothing is read
      rw [if_pos hs] at he
      refine ⟨none :: answers, .cons hs hheard, fun r rest hr hd => ?_⟩
      have hempty : e.wire c = [] := by rw [Exchange.wire, Exchange.packets_of_sent he]; rfl
      rw [List.flatMap_cons, hempty, List.nil_append] at hd
      obtain ⟨r', hconverse, hd'⟩ := hread r rest hr hd
      refine ⟨r', ?_, hd'⟩
      rw [List.map_cons, converse, if_pos (c := isSilent e.payload = true) hs, hconverse]
      rfl
    · rw [if_neg hs] at he
      obtain ⟨a, hmeans, htakes⟩ := he
      refine ⟨some a :: answers, .cons ⟨Bool.eq_false_iff.2 hs, hmeans⟩ hheard, fun r rest hr hd => ?_⟩
      rw [List.flatMap_cons, List.append_assoc] at hd
      obtain ⟨r₁, hfirst, hd₁, hr₁⟩ := htakes r 1 _ hr hd
      obtain ⟨r', hconverse, hd'⟩ := hread r₁ rest hr₁ hd₁
      refine ⟨r', ?_, hd'⟩
      have hfirst : c.receiveAnswer (isPrepareCommand e.payload) (r, 1) = some (a, (r₁, _)) := hfirst
      rw [List.map_cons, converse, if_neg (c := isSilent e.payload = true) hs, hfirst]
      simp only [hconverse, Option.map_some]

/-- The packets of exchanges are delivered one exchange after the other. -/
theorem deliver_exchanges {frames : Packet → Nat} (hframes : ∀ p, frames p = c.frameCount p.payload) {w : Writer}
    (hw : w.Accepts) {es : List Exchange} (hnumbered : ∀ e ∈ es, Numbered frames 1 e.sent)
    (hlen : ∀ e ∈ es, ∀ p ∈ e.packets, p.payload.length ≤ c.maxMessageBytes) :
    ∃ w', deliver c w (es.flatMap (·.sent)) = (w', none) ∧
      w'.written = w.written ++ es.flatMap (Exchange.wire c) := by
  induction es generalizing w with
  | nil => exact ⟨w, rfl, (List.append_nil _).symm⟩
  | cons e es ih =>
    obtain ⟨w₁, hdeliver, hw₁, hout⟩ := deliver_append hframes hw (hnumbered e List.mem_cons_self)
      (fun x hx => hlen e List.mem_cons_self x.2 (List.mem_map_of_mem hx)) (es.flatMap (·.sent))
    obtain ⟨w₂, hrest, hout₂⟩ := ih hw₁ (fun e' he' => hnumbered e' (List.mem_cons_of_mem _ he'))
      fun e' he' => hlen e' (List.mem_cons_of_mem _ he')
    refine ⟨w₂, ?_, ?_⟩
    · rw [List.flatMap_cons, hdeliver, hrest]
    · rw [hout₂, hout, List.flatMap_cons, List.append_assoc, Exchange.wire, Exchange.packets, List.map_map]
      rfl

end Wire

/-- At every moment of every run the packets of the commands that are over, all of them regular and within the limits
of the codec, are bytes from which a client reads for each command the reply that was written for it, and nothing
else. The number of columns is the length of a slice. -/
theorem conversation_read_back {svc : Service} {c : Codec} {conf : Conf ClientSession Op Res Note Talk} (hb : svc.Binary)
    (h : InDialogue svc (fun p => c.frameCount p.payload) conf) (hregular : ∀ e ∈ finished conf, e.irregular = false)
    (hlen : ∀ e ∈ finished conf, ∀ p ∈ e.packets, p.payload.length ≤ c.maxMessageBytes)
    (hcount : ∀ e ∈ finished conf, ∀ n, .columnCount n ∈ e.packets → n < 2 ^ 63) {w : Writer} (hw : w.Accepts) :
    ∃ w' b answers, deliver c w ((finished conf).reverse.flatMap (·.sent)) = (w', none) ∧
      w'.written = w.written ++ b ∧ List.Forall₂ Exchange.Heard (finished conf).reverse answers ∧
      ∀ (r : Reader) (rest : Bytes), r.Delivers → r.data = b ++ rest → ∃ r',
        converse c ((finished conf).reverse.map (·.payload)) r = some (answers, r') ∧ r'.data = rest := by
  have hfits : ∀ e ∈ finished conf, ∀ p ∈ e.packets, p.Fits svc e.irregular := by
    intro e he p hp
    obtain ⟨x, hx, rfl⟩ := List.mem_map.1 hp
    exact (finished_sound h e he).fits x hx
  have hanswered : ∀ e ∈ (finished conf).reverse, if e.silent = true then e.sent = []
      else ∃ a, Means e.isPrepare e.packets a ∧ c.Takes (c.receiveAnswer e.isPrepare) (e.packets.map Packet.payload) a := by
    intro e he
    have he := List.mem_reverse.1 he
    have hcorrect := (finished_proper h e he).2 (hregular e he)
    unfold Exchange.Correct at hcorrect
    split
    · rename_i hs
      rwa [if_pos hs] at hcorrect
    · rename_i hs
      rw [if_neg hs] at hcorrect
      -- a column count of zero belongs to an irregular command
      have hzero : .columnCount 0 ∉ e.packets := fun hm => by
        have : e.irregular = true := hfits e he _ hm rfl
        rw [hregular e he] at this
        cases this
      obtain ⟨a, ha⟩ := means_of_complete hcorrect hzero
      exact ⟨a, ha, takes_means hb ha (hfits e he) (hcount e he) (hlen e he)⟩
  obtain ⟨answers, hheard, hread⟩ := converse_reads hanswered
  obtain ⟨w', hdeliver, hout⟩ := deliver_exchanges (fun _ => rfl) hw
    (fun e he => (finished_sound h e (List.mem_reverse.1 he)).numbered) fun e he => hlen e (List.mem_reverse.1 he)
  exact ⟨w', _, answers, hdeliver, hout, hheard, hread⟩

/-- The sample service with the encoder of binary rows; no column has a floating-point type there. -/
def binaryService : Service :=
  { sampleService with
    binaryPreparedRow := fun values definitions types =>
      (binaryPreparedRow (fun _ _ => .error .errSyntax) values definitions types).mapError fun _ => ⟨.plain, []⟩ }

theorem binaryService_binary : binaryService.Binary := by
  refine ⟨fun _ _ => .error .errSyntax, fun values definitions types payload h => ?_⟩
  revert h
  show (Except.mapError _ (binaryPreparedRow _ values definitions types)) = _ → _
  cases binaryPreparedRow (fun _ _ => .error .errSyntax) values definitions types with
  | error e => rintro ⟨⟩
  | ok b =>
    rintro ⟨⟩
    rfl

/-- Messages of one frame each. -/
def wholeFrames : Codec := ⟨4096, 4096, by decide, by decide, by decide, by decide⟩

/-- The dialogue of a session behind the codec. -/
def wiredDialogue (script : List (Fin 1 × Reply (Fin 1))) : Conf ClientSession Op Res Note Talk :=
  (System.play Talk.next (fun _ => framedReply fun p => wholeFrames.frameCount p.payload) (fun w _ => w)
    (handleClient binaryService) (System.start (World.fresh (Fin 1)) (newSession binaryService) []) script).thread alone

theorem inDialogue_wired (script : List (Fin 1 × Reply (Fin 1))) :
    InDialogue binaryService (fun p => wholeFrames.frameCount p.payload) (wiredDialogue script) :=
  inDialogue_play _ _ script

/-- A ping, the closing of a handle and a local result set. -/
def pingAndWarnings : List (Fin 1 × Reply (Fin 1)) :=
  asks alone [commandPing] 1 ++ asks alone [commandStmtClose, 1, 0, 0, 0] 0 ++
    asks alone (comQuery "show count(*) warnings") 5

/-- The number of columns a packet announces. -/
def Packet.announced : Packet → Nat
  | .columnCount n => n
  | _ => 0

theorem conversation_read_back_warnings :
    (finished (wiredDialogue pingAndWarnings)).map (·.packets.length) = [5, 0, 1] ∧ ∃ b answers r',
      converse wholeFrames ((finished (wiredDialogue pingAndWarnings)).reverse.map (·.payload))
        ⟨b, Protocol.bytewise, 0⟩ = some (answers, r') ∧ r'.data = [] ∧
      List.Forall₂ Exchange.Heard (finished (wiredDialogue pingAndWarnings)).reverse answers := by
  have hregular : ∀ e ∈ finished (wiredDialogue pingAndWarnings), e.irregular = false := by decide +kernel
  have hlen : ∀ e ∈ finished (wiredDialogue pingAndWarnings), ∀ p ∈ e.packets, p.payload.length ≤ 4096 := by
    decide +kernel
  have hcount : ∀ e ∈ finished (wiredDialogue pingAndWarnings), ∀ p ∈ e.packets, p.announced ≤ 1 := by decide +kernel
  obtain ⟨w', b, answers, -, -, hheard, hread⟩ := conversation_read_back binaryService_binary
    (inDialogue_wired pingAndWarnings) hregular hlen (fun e he n hn => Nat.lt_of_le_of_lt (hcount e he _ hn) (by decide))
    (w := ⟨[], fun _ => .ok 4096, 0⟩) fun _ => ⟨4096, by decide, rfl⟩
  obtain ⟨r', hconverse, hrest⟩ := hread ⟨b, Protocol.bytewise, 0⟩ [] (fun _ => ⟨1, rfl⟩) (List.append_nil b).symm
  exact ⟨by decide +kernel, b, answers, r', hconverse, hrest, hheard⟩

end Accelerator.Gateway
