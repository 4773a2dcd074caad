/-
The dialogue of a session with its client: the commands it reads and the packets it writes for each.
`readResponse` is how a MySQL client reads one response from the packets it receives; the rules say of
every handler which packets it writes, at which sequence numbers, and what the reply to a statement
that was executed is, whatever upstream does.
-/
import Accelerator.Gateway.Footprint

namespace Accelerator.Gateway

open Interact Strings Engine Upstream Session
open Protocol (ColumnDefinition)

/-! ## What a client reads -/

/-- Skip `n` column definitions. -/
def readDefinitions : Nat → List Packet → Option (List Packet)
  | 0, ps => some ps
  | n + 1, .columnDefinition _ :: ps => readDefinitions n ps
  | _, _ => none

/-- Skip a block of `n` definitions and the EOF behind it; there is no EOF behind none. -/
def readBlock (n : Nat) (ps : List Packet) : Option (List Packet) :=
  if n = 0 then some ps
  else
    match readDefinitions n ps with
    | some (.eof .. :: rest) => some rest
    | _ => none

/-- Skip rows up to the EOF or the error that ends them. -/
def readRows : List Packet → Option (List Packet)
  | .textRow _ :: ps => readRows ps
  | .binaryRow _ :: ps => readRows ps
  | .eof .. :: ps => some ps
  | .err .. :: ps => some ps
  | _ => none

/-- Skip one response, to a COM_STMT_PREPARE or to another command. A column count of zero is the byte
of an OK packet, and is read as one. -/
def readResponse (prepare : Bool) : List Packet → Option (List Packet)
  | .err .. :: ps => some ps
  | .ok .. :: ps => if prepare then none else some ps
  | .prepareOK _ columns parameters _ :: ps =>
    if prepare then (readBlock parameters ps).bind (readBlock columns) else none
  | .columnCount n :: ps => if prepare then none else if n = 0 then some ps else (readBlock n ps).bind readRows
  | _ => none

/-- Packets that are one response, whatever follows them. -/
def Complete (prepare : Bool) (ps : List Packet) : Prop := ∀ rest, readResponse prepare (ps ++ rest) = some rest

section Complete

theorem readDefinitions_append (defs : List ColumnDefinition) (rest : List Packet) :
    readDefinitions defs.length (defs.map Packet.columnDefinition ++ rest) = some rest := by
  induction defs with
  | nil => rfl
  | cons d defs ih => exact ih

theorem readBlock_append {defs : List ColumnDefinition} (hd : defs ≠ []) (status : UInt16) (warnings : Nat)
    (rest : List Packet) :
    readBlock defs.length (defs.map Packet.columnDefinition ++ .eof status warnings :: rest) = some rest := by
  have hn : defs.length ≠ 0 := fun h => hd (List.length_eq_zero_iff.1 h)
  simp only [readBlock, if_neg hn, readDefinitions_append]

/-- The packets that end a result set. -/
def Packet.isEnd : Packet → Bool
  | .eof .. | .err .. => true
  | _ => false

/-- The error packets. -/
def Packet.isErr : Packet → Bool
  | .err .. => true
  | _ => false

theorem readRows_append {rows : List Packet} (hr : ∀ p ∈ rows, p.isRow = true) {last : Packet}
    (hl : last.isEnd = true) (rest : List Packet) : readRows (rows ++ last :: rest) = some rest := by
  induction rows with
  | nil => cases last <;> first | rfl | cases hl
  | cons p rows ih =>
    have hp := hr p List.mem_cons_self
    have ih := ih fun q hq => hr q (List.mem_cons_of_mem p hq)
    cases p <;> first | exact ih | cases hp

theorem complete_err (prepare : Bool) (code : Nat) (state message : Bytes) :
    Complete prepare [.err code state message] := fun _ => rfl

theorem complete_ok (affectedRows lastInsertID : Nat) (status : UInt16) (warnings : Nat) :
    Complete false [.ok affectedRows lastInsertID status warnings] := fun _ => rfl

/-- A result set with at least one column. -/
theorem complete_resultSet {defs : List ColumnDefinition} (hd : defs ≠ []) (status : UInt16) (warnings : Nat)
    {rows : List Packet} (hr : ∀ p ∈ rows, p.isRow = true) {last : Packet} (hl : last.isEnd = true) :
    Complete false
      (.columnCount defs.length :: defs.map Packet.columnDefinition ++ .eof status warnings :: rows ++ [last]) := by
  intro rest
  have hn : defs.length ≠ 0 := fun h => hd (List.length_eq_zero_iff.1 h)
  simp only [List.cons_append, List.append_assoc, List.nil_append, readResponse, Bool.false_eq_true, if_false, if_neg hn,
    readBlock_append hd, Option.bind_some, readRows_append hr hl]

/-- A prepare-OK block. -/
theorem complete_prepared (id : UInt32) (warnings : Nat) (defs : List ColumnDefinition) (status : UInt16)
    (w : Nat) : Complete true (.prepareOK id 0 defs.length warnings :: defs.map Packet.columnDefinition ++
      if defs = [] then [] else [.eof status w]) := by
  intro rest
  by_cases hd : defs = []
  · subst hd
    rfl
  · simp only [if_neg hd, List.cons_append, List.append_assoc, List.nil_append, readResponse, if_true,
      readBlock_append hd, Option.bind_some]
    rfl

/-- A result set without columns reads as an OK packet with more behind it. -/
theorem not_complete_bare (p : Packet) (ps : List Packet) : ¬Complete false (.columnCount 0 :: p :: ps) := by
  intro h
  have h := h []
  simp [readResponse] at h

/-- OK packets and errors are responses by themselves. -/
theorem Complete.single {ps : List Packet} (h : Complete false ps) (hp : ∀ p ∈ ps, p.isOK = true ∨ p.isErr = true) :
    ∃ p, ps = [p] := by
  cases ps with
  | nil => cases h []
  | cons p ps =>
    have h : readResponse false (p :: ps ++ []) = some [] := h []
    rw [List.append_nil] at h
    refine ⟨p, ?_⟩
    rcases hp p List.mem_cons_self with hp | hp
    · cases p <;> first | exact congrArg (_ :: ·) (Option.some.inj h) | cases hp
    · cases p <;> first | exact congrArg (_ :: ·) (Option.some.inj h) | cases hp

theorem readDefinitions_replicate {k n : Nat} (hk : k ≤ n) (d : ColumnDefinition) (rest : List Packet) :
    readDefinitions k (List.replicate n (Packet.columnDefinition d) ++ rest) =
      some (List.replicate (n - k) (Packet.columnDefinition d) ++ rest) := by
  have h := readDefinitions_append (List.replicate k d)
    (List.replicate (n - k) (Packet.columnDefinition d) ++ rest)
  rwa [List.length_replicate, List.map_replicate, ← List.append_assoc, List.replicate_append_replicate,
    Nat.add_sub_cancel' hk] at h

/-- A prepare-OK packet that announces fewer definitions than follow it. -/
theorem not_complete_prepared (id : UInt32) (warnings : Nat) {k n : Nat} (hk : k < n) (d : ColumnDefinition)
    (rest : List Packet) :
    ¬Complete true (.prepareOK id 0 k warnings :: List.replicate n (Packet.columnDefinition d) ++ rest) := by
  intro h
  obtain ⟨m, hm⟩ := Nat.exists_eq_succ_of_ne_zero (Nat.sub_pos_of_lt hk).ne'
  have h : (readBlock k (List.replicate n (Packet.columnDefinition d) ++ rest ++ [])).bind (readBlock 0) = some [] :=
    h []
  have hlong : List.replicate n (Packet.columnDefinition d) ++ rest ++ [] ≠ [] := by
    obtain ⟨n, rfl⟩ := Nat.exists_eq_succ_of_ne_zero (Nat.lt_of_le_of_lt (Nat.zero_le k) hk).ne'
    exact List.cons_ne_nil _ _
  by_cases hz : k = 0
  · subst hz
    exact hlong (Option.some.inj h)
  · rw [readBlock, if_neg hz, List.append_assoc, readDefinitions_replicate hk.le, hm] at h
    cases h

end Complete

/-! ## Exchanges -/

/-- The commands that have no response. -/
def isSilent (payload : Bytes) : Bool :=
  payload.head? = some commandStmtClose || payload.head? = some commandStmtSendLongData

/-- A COM_STMT_PREPARE. -/
def isPrepareCommand (payload : Bytes) : Bool := payload.head? = some commandStmtPrepare

/-- A command and the session that received it, the packets written for it with their sequence numbers,
whether it met one of the cases that are not answered as the protocol asks, whether upstream confirmed
the execution of its statement, and whether the warnings could not be read after that. -/
structure Exchange where
  payload : Bytes
  before : ClientSession
  sent : List (UInt8 × Packet) := []
  irregular : Bool := false
  executed : Bool := false
  warningsFailed : Bool := false

/-- The exchanges of a session, the current one first. -/
abbrev Talk := List Exchange

namespace Exchange

/-- The commands that have no response. -/
def silent (e : Exchange) : Bool := isSilent e.payload

/-- A COM_STMT_PREPARE. -/
def isPrepare (e : Exchange) : Bool := isPrepareCommand e.payload

/-- The command and the session that received it. -/
def request (e : Exchange) : Bytes × ClientSession := (e.payload, e.before)

/-- The packets written for the command. -/
def packets (e : Exchange) : List Packet := e.sent.map Prod.snd

/-- The command was answered as the protocol asks. -/
def Correct (e : Exchange) : Prop := if e.silent then e.sent = [] else Complete e.isPrepare e.packets

/-- The command was answered as the protocol asks, unless it met an irregular case. -/
def Proper (e : Exchange) : Prop := e.Correct ↔ e.irregular = false

/-- The exchange with more packets. -/
def pushAll (e : Exchange) (l : List (UInt8 × Packet)) : Exchange := { e with sent := e.sent ++ l }

/-- The exchange with one more packet. -/
def push (e : Exchange) (sequence : UInt8) (p : Packet) : Exchange := e.pushAll [(sequence, p)]

@[simp] theorem packets_pushAll (e : Exchange) (l : List (UInt8 × Packet)) :
    (e.pushAll l).packets = e.packets ++ l.map Prod.snd := List.map_append ..

@[simp] theorem pushAll_pushAll (e : Exchange) (l l' : List (UInt8 × Packet)) :
    (e.pushAll l).pushAll l' = e.pushAll (l ++ l') := by
  simp [pushAll]

@[simp] theorem isPrepare_pushAll (e : Exchange) (l : List (UInt8 × Packet)) :
    (e.pushAll l).isPrepare = e.isPrepare := rfl

theorem packets_of_sent {e : Exchange} (h : e.sent = []) : e.packets = [] := by rw [packets, h, List.map_nil]

end Exchange

/-- The long data of a parameter of a live handle. -/
def longDataOK (s : ClientSession) (payload : Bytes) : Bool :=
  7 ≤ payload.length &&
    match s.prepared.lookup (handleID payload) with
    | some p => (UInt16.ofNat (littleEndian ((payload.drop 5).take 2))).toNat < p.parameterCount
    | none => false

/-- Long data for which there is no place. -/
def strayData (s : ClientSession) (payload : Bytes) : Bool :=
  payload.head? = some commandStmtSendLongData && !longDataOK s payload

/-- A statement with more parameters than a prepare-OK packet can count, and a handle that is free. -/
def uncountable (s : ClientSession) (query : Text) : Bool :=
  65536 ≤ countPreparedParameters query && nextID s.nextPreparedID ∉ s.state.prepared

/-- A result without columns. -/
def bare (rows : Rows) : Bool :=
  match rows.columns with
  | .ok [] => true
  | _ => false

/-- The exchange after the execution of its statement. -/
def Exchange.execute (e : Exchange) : Except GoError Result → Exchange
  | .ok _ => { e with executed := true }
  | .error _ => e

/-- The exchange after its statement was queried. -/
def Exchange.query (e : Exchange) : Except GoError Rows → Exchange
  | .ok rows => { e with irregular := e.irregular || bare rows }
  | .error _ => e

theorem Exchange.execute_request (e : Exchange) (r : Except GoError Result) : (e.execute r).request = e.request := by
  cases r <;> rfl

theorem Exchange.query_request (e : Exchange) (r : Except GoError Rows) : (e.query r).request = e.request := by
  cases r <;> rfl

/-- The exchange after the warnings were read. -/
def Exchange.warn (e : Exchange) : Except GoError Nat → Exchange
  | .ok _ => e
  | .error _ => { e with warningsFailed := e.warningsFailed || e.executed }

theorem Exchange.warn_request (e : Exchange) (r : Except GoError Nat) : (e.warn r).request = e.request := by
  cases r <;> rfl

/-- The exchange after its statement was prepared. -/
def Exchange.prepare (e : Exchange) (s : ClientSession) (query : Text) : Except GoError Stmt → Exchange
  | .ok _ => { e with irregular := e.irregular || (e.isPrepare && uncountable s query) }
  | .error _ => e

/-- The exchange that begins with a command. -/
def Exchange.begin (s : ClientSession) (payload : Bytes) : Exchange :=
  { payload, before := s, irregular := strayData s payload }

/-- Change the current exchange. -/
def Talk.change (f : Exchange → Exchange) : Talk → Talk
  | e :: past => f e :: past
  | [] => []

/-- The exchanges after an event. -/
def Talk.next (g : Talk) : Event ClientSession Op Res Note → Talk
  | .call s .readMessage (.ok message) => .begin s message.payload :: g
  | .call _ (.writeMessage sequence p) _ => g.change (·.push sequence p)
  | .call _ (.exec _ _) r => g.change (·.execute r)
  | .call _ (.stmtExec _ _) r => g.change (·.execute r)
  | .call _ (.query _ _) r => g.change (·.query r)
  | .call _ (.stmtQuery _ _) r => g.change (·.query r)
  | .call _ (.queryWarnings _) r => g.change (·.warn r)
  | .call s (.prepare _ q) r => g.change (·.prepare s q r)
  | _ => g

/-- What is assumed of the codec: a packet takes as many sequence numbers as it has frames. -/
def framed (frames : Packet → Nat) (_ : Talk) : (o : Op) → Res o → Prop
  | .writeMessage sequence p, .ok next => next = sequence + UInt8.ofNat (frames p)
  | _, _ => True

/-- The environment of a dialogue: any client and any upstream. -/
def talking (frames : Packet → Nat) : Env ClientSession Op Res Note Talk := account Talk.next (framed frames)

/-- The sequence number after some packets. -/
def nextSequence (frames : Packet → Nat) (sent : List (UInt8 × Packet)) : UInt8 :=
  sent.foldl (fun n x => n + UInt8.ofNat (frames x.2)) 1

/-- Packets numbered one after the other. -/
def Numbered (frames : Packet → Nat) : UInt8 → List (UInt8 × Packet) → Prop
  | _, [] => True
  | n, (sequence, p) :: rest => sequence = n ∧ Numbered frames (n + UInt8.ofNat (frames p)) rest

/-- What may be written after an execution: an OK packet, or an error if the warnings could not be read. -/
def Exchange.mayWrite (e : Exchange) (p : Packet) : Bool := if e.warningsFailed then p.isErr else p.isOK

/-- The service encodes binary rows as this one. -/
def Service.Encodes (svc : Service) (payload : Bytes) : Prop :=
  ∃ values definitions types, svc.binaryPreparedRow values definitions types = .ok payload

/-- A packet that fits an exchange which is irregular or not: numbers of definitions are not cut off, and only an
irregular command has a result without columns. -/
def Packet.Fits (svc : Service) (irregular : Bool) : Packet → Prop
  | .columnCount n => n = 0 → irregular = true
  | .binaryRow payload => svc.Encodes payload
  | .prepareOK _ columns parameters _ => columns < 65536 ∧ parameters < 65536
  | _ => True

theorem Packet.Fits.mono {svc : Service} {x y : Bool} (hxy : x = true → y = true) {p : Packet} (h : p.Fits svc x) :
    p.Fits svc y := by
  cases p with
  | columnCount n => exact fun hn => hxy (h hn)
  | _ => exact h

/-- What is true of a call in an exchange. -/
structure Polite (svc : Service) (frames : Packet → Nat) (e : Exchange) (o : Op) : Prop where
  numbered : ∀ sequence p, o = .writeMessage sequence p → sequence = nextSequence frames e.sent
  answers : ∀ sequence p, o = .writeMessage sequence p → e.silent = true → e.irregular = true
  confirms : ∀ sequence p, o = .writeMessage sequence p → e.executed = true → e.mayWrite p = true
  fits : ∀ sequence p, o = .writeMessage sequence p → p.Fits svc e.irregular
  executes : ∀ q, o.executes? = some q →
    e.sent = [] ∧ e.silent = false ∧ e.isPrepare = false ∧ e.irregular = false ∧ e.warningsFailed = false
  queries : (∃ via q, o = .query via q) ∨ (∃ st a, o = .stmtQuery st a) → e.executed = false
  warns : ∀ via, o = .queryWarnings via → e.executed = true → e.sent = []

/-- What is true of a call in the current exchange; when a command is read, those before it are over. -/
structure PoliteAt (svc : Service) (frames : Packet → Nat) (_ : ClientSession) (g : Talk) (o : Op) : Prop where
  current : ∀ e past, g = e :: past → Polite svc frames e o
  reads : o = .readMessage → ∀ e ∈ g, e.Proper

/-! ## The rules -/

/-- The exchange `e` has become one with `Q`, and it is still the current one. -/
def Becomes {α : Type} (e : Exchange) (past : Talk) (Q : α → Exchange → Prop) (a : α) (_ : ClientSession) (g : Talk) :
    Prop := ∃ e', g = e' :: past ∧ e'.request = e.request ∧ Q a e'

/-- Whatever the session and upstream do, the program turns the exchange `e` into one with `Q`. -/
def Speaks {α : Type} (svc : Service) (frames : Packet → Nat) (p : M α) (e : Exchange) (Q : α → Exchange → Prop) : Prop :=
  ∀ s past, p.wp (talking frames) (PoliteAt svc frames) (Becomes e past Q) s (e :: past)

/-- The calls that leave an exchange as it is: reading the warnings does if nothing was executed, and
preparing if that is not what the command is for. -/
def Call.mute (executed preparing : Bool) : Call → Bool
  | .read | .ok | .error | .packet | .run | .rows => false
  | .warnings => !executed
  | .prepare => !preparing
  | _ => true

section Speaks

variable {svc : Service} {frames : Packet → Nat} {α β : Type} {e : Exchange}

theorem speaks_pure {a : α} {Q : α → Exchange → Prop} (h : Q a e) : Speaks svc frames (pure a) e Q :=
  fun _ _ => ⟨e, rfl, rfl, h⟩

theorem speaks_bind {p : M α} {f : α → M β} {Q : β → Exchange → Prop}
    (h : Speaks svc frames p e fun a e' => Speaks svc frames (f a) e' Q) : Speaks svc frames (p >>= f) e Q := by
  intro s past
  refine (Prog.wp_bind p f _ s _).2 (Prog.wp_mono (h s past) ?_)
  rintro a s' _ ⟨e', rfl, hp, h'⟩
  refine Prog.wp_mono (h' s' past) ?_
  rintro b _ _ ⟨e'', rfl, hp', h''⟩
  exact ⟨e'', rfl, hp'.trans hp, h''⟩

theorem speaks_read {f : ClientSession → M β} {Q : β → Exchange → Prop} (h : ∀ s, Speaks svc frames (f s) e Q) :
    Speaks svc frames (Prog.read >>= f) e Q := fun s past => h s s past

theorem speaks_modify {f : ClientSession → ClientSession} {k : Unit → M β} {Q : β → Exchange → Prop}
    (h : Speaks svc frames (k ()) e Q) : Speaks svc frames (Prog.modify f >>= k) e Q := fun s past => h (f s) past

theorem speaks_tell {n : Note} {k : Unit → M β} {Q : β → Exchange → Prop} (h : Speaks svc frames (k ()) e Q) :
    Speaks svc frames (Prog.tell n >>= k) e Q := by
  intro s past
  have := h s past
  cases n <;> exact this

theorem Speaks.mono {p : M α} {Q Q' : α → Exchange → Prop} (h : Speaks svc frames p e Q) (hQ : ∀ a e', Q a e' → Q' a e') :
    Speaks svc frames p e Q' := by
  intro s past
  refine Prog.wp_mono (h s past) ?_
  rintro a s' _ ⟨e', rfl, hp, h'⟩
  exact ⟨e', rfl, hp, hQ a e' h'⟩

/-- A call that neither writes nor runs a statement. -/
theorem Polite.of_other {o : Op} (hw : ∀ sequence p, o ≠ .writeMessage sequence p) (hx : o.executes? = none)
    (hq : ∀ via q, o ≠ .query via q) (hs : ∀ st a, o ≠ .stmtQuery st a)
    (hn : ∀ via, o = .queryWarnings via → e.executed = true → e.sent = []) : Polite svc frames e o where
  numbered n p h := absurd h (hw n p)
  answers n p h := absurd h (hw n p)
  confirms n p h := absurd h (hw n p)
  fits n p h := absurd h (hw n p)
  executes q h := by rw [hx] at h; cases h
  queries := by
    rintro (⟨via, q, h⟩ | ⟨st, a, h⟩)
    · exact absurd h (hq via q)
    · exact absurd h (hs st a)
  warns := hn

theorem write_not_mute (x y : Bool) (sequence : UInt8) (p : Packet) :
    (Op.writeMessage sequence p).kind.mute x y ≠ true := by
  cases p <;> exact Bool.false_ne_true

theorem Polite.of_mute {o : Op} (h : o.kind.mute e.executed e.isPrepare = true) : Polite svc frames e o := by
  refine .of_other ?_ ?_ ?_ ?_ ?_
  · rintro sequence p rfl
    exact write_not_mute _ _ sequence p h
  · cases o <;> first | rfl | cases h
  · rintro _ _ rfl
    cases h
  · rintro _ _ rfl
    cases h
  · rintro via rfl hx
    rw [hx] at h
    cases h

theorem PoliteAt.of_mute {o : Op} (h : o.kind.mute e.executed e.isPrepare = true) (s : ClientSession) (past : Talk) :
    PoliteAt svc frames s (e :: past) o where
  current := by rintro _ _ ⟨⟩; exact .of_mute h
  reads := by rintro rfl; cases h

theorem Talk.next_mute {o : Op} (h : o.kind.mute e.executed e.isPrepare = true) (past : Talk) (s : ClientSession)
    (r : Res o) : Talk.next (e :: past) (.call s o r) = e :: past := by
  cases o with
  | queryWarnings via =>
    cases r with
    | ok n => rfl
    | error x =>
      have h : e.executed = false := Bool.not_eq_eq_eq_not.1 h
      have hw : (e.warningsFailed || e.executed) = e.warningsFailed := by rw [h, Bool.or_false]
      show { e with warningsFailed := e.warningsFailed || e.executed } :: past = e :: past
      rw [hw]
  | prepare via q =>
    cases r with
    | error x => rfl
    | ok st =>
      have h : e.isPrepare = false := Bool.not_eq_eq_eq_not.1 h
      have hi : (e.irregular || (e.isPrepare && uncountable s q)) = e.irregular := by
        rw [h, Bool.false_and, Bool.or_false]
      show { e with irregular := e.irregular || (e.isPrepare && uncountable s q) } :: past = e :: past
      rw [hi]
  | writeMessage sequence p => exact (write_not_mute _ _ sequence p h).elim
  | _ => first | rfl | cases h

/-- A program that only makes such calls leaves the exchange as it is, and does to the session what its footprint
allows. -/
theorem Does.wp_mute {cs : List Call} {ps : List Part} {p : M α} {Q : α → ClientSession → Talk → Prop} {s : ClientSession}
    {past : Talk} {ok : ClientSession → Talk → Op → Prop} (hp : Does cs ps p)
    (hc : cs.all (Call.mute e.executed e.isPrepare) = true)
    (hok : ∀ s o, o.kind.mute e.executed e.isPrepare = true → ok s (e :: past) o)
    (hQ : ∀ a s', Touches ps s s' → Q a s' (e :: past)) : p.wp (talking frames) ok Q s (e :: past) := by
  refine (hp.acts s).wp (J := (· = e :: past)) ?_ ?_ rfl ?_
  · rintro s _ o - rfl ho
    have hm := List.all_eq_true.1 hc _ (List.contains_iff_mem.1 ho.kind)
    refine ⟨hok s o hm, ?_⟩
    rintro r _ ⟨-, rfl⟩
    exact Talk.next_mute hm past s r
  · rintro s _ n - rfl
    cases n <;> rfl
  · rintro a s _ hs rfl
    exact hQ a s hs

theorem speaks_does {cs : List Call} {ps : List Part} {p : M α} {Q : α → Exchange → Prop} (hp : Does cs ps p)
    (hc : cs.all (Call.mute e.executed e.isPrepare) = true) (hQ : ∀ a, Q a e) : Speaks svc frames p e Q :=
  fun _ past => hp.wp_mute hc (fun s _ h => .of_mute h s past) fun a _ _ => ⟨e, rfl, rfl, hQ a⟩

/-- A call. -/
theorem speaks_call {o : Op} {Q : Res o → Exchange → Prop} (ho : Polite svc frames e o) (hr : o ≠ .readMessage)
    {f : Res o → Exchange} (hf : ∀ past s r, Talk.next (e :: past) (.call s o r) = f r :: past) (hp : ∀ r, (f r).request = e.request)
    (hQ : ∀ r, framed frames [] o r → Q r (f r)) : Speaks svc frames (call o) e Q := by
  intro s past
  refine ⟨⟨?_, fun h => absurd h hr⟩, ?_⟩
  · rintro _ _ ⟨⟩
    exact ho
  · rintro r _ ⟨hr, rfl⟩
    refine ⟨f r, hf past s r, hp r, hQ r ?_⟩
    cases o <;> exact hr

theorem Polite.write {sequence : UInt8} {p : Packet} (hn : sequence = nextSequence frames e.sent)
    (hb : e.silent = true → e.irregular = true) (hx : e.executed = true → e.mayWrite p = true)
    (hfits : p.Fits svc e.irregular) : Polite svc frames e (.writeMessage sequence p) where
  numbered := by rintro _ _ ⟨⟩; exact hn
  answers := by rintro _ _ ⟨⟩; exact hb
  confirms := by rintro _ _ ⟨⟩; exact hx
  fits := by rintro _ _ ⟨⟩; exact hfits
  executes := by rintro q ⟨⟩
  queries := by rintro (⟨_, _, ⟨⟩⟩ | ⟨_, _, ⟨⟩⟩)
  warns := by rintro via ⟨⟩

theorem nextSequence_push (sequence : UInt8) (p : Packet) :
    nextSequence frames (e.push sequence p).sent = nextSequence frames e.sent + UInt8.ofNat (frames p) := by
  simp [nextSequence, Exchange.push, Exchange.pushAll]

/-- Write a packet at the next sequence number. -/
theorem speaks_write {sequence : UInt8} {p : Packet} {Q : Except GoError UInt8 → Exchange → Prop}
    (hn : sequence = nextSequence frames e.sent) (hb : e.silent = true → e.irregular = true)
    (hx : e.executed = true → e.mayWrite p = true) (hfits : p.Fits svc e.irregular)
    (herr : ∀ x, Q (.error x) (e.push sequence p))
    (hok : ∀ next, next = nextSequence frames (e.push sequence p).sent → Q (.ok next) (e.push sequence p)) :
    Speaks svc frames (call (.writeMessage sequence p)) e Q := by
  refine speaks_call (.write hn hb hx hfits) (by rintro ⟨⟩) (f := fun _ => e.push sequence p) (fun _ _ _ => rfl)
    (fun _ => rfl) fun r hr => ?_
  cases r with
  | error x => exact herr x
  | ok next =>
    have hr : next = sequence + UInt8.ofNat (frames p) := hr
    exact hok next (by rw [hr, hn, nextSequence_push])

end Speaks

end Accelerator.Gateway
