/-
The responses of the handlers: every handler but those of COM_STMT_CLOSE and COM_STMT_SEND_LONG_DATA
writes one complete response, or the session ends. Three cases are not answered as the protocol asks:
long data for which there is no handle or no parameter, a prepare with more parameters than its reply
can count, and a statement whose result has no columns.
-/
import Accelerator.Gateway.Dialogue

namespace Accelerator.Gateway

open Interact Strings Engine Upstream Session
open Protocol (ColumnDefinition)

/-! ## Replies -/

/-- If the handler goes on to the next command, the one it served was answered. -/
def Answered (r : Except GoError Unit) (e : Exchange) : Prop := r = .ok () → e.Proper

/-- A command with a response of which nothing was written yet. -/
structure Exchange.Unsaid (e : Exchange) (prepare : Bool) : Prop where
  sent : e.sent = []
  spoken : e.silent = false
  prepare : e.isPrepare = prepare

/-- Such a command, other than a prepare, before its statement was executed or queried. -/
structure Exchange.Plain (e : Exchange) : Prop extends e.Unsaid false where
  regular : e.irregular = false
  executed : e.executed = false
  unwarned : e.warningsFailed = false

/-- The program answers every plain command. -/
def Replies (svc : Service) (frames : Packet → Nat) (p : M (Except GoError Unit)) : Prop :=
  ∀ e : Exchange, e.Plain → Speaks svc frames p e Answered

section Replies

variable {svc : Service} {frames : Packet → Nat} {α : Type} {e : Exchange}

theorem Exchange.Unsaid.audible {x : Bool} (h : e.Unsaid x) : e.silent = true → e.irregular = true := fun hs => by
  rw [h.spoken] at hs
  cases hs

theorem Exchange.Unsaid.first {x : Bool} (h : e.Unsaid x) : 1 = nextSequence frames e.sent := by
  rw [h.sent]
  rfl

theorem Exchange.unexecuted {P : Prop} (h : e.executed = false) : e.executed = true → P := fun hx => by
  rw [h] at hx
  cases hx

theorem answered_error (x : GoError) (e : Exchange) : Answered (.error x) e := fun h => by cases h

/-- Packets are an answer if they are complete where the command is regular, and only there. -/
theorem answered_pushAll {x : Bool} {r : Except GoError Unit} {l : List (UInt8 × Packet)} (he : e.Unsaid x)
    (hl : Complete x (l.map Prod.snd) ↔ e.irregular = false) : Answered r (e.pushAll l) := by
  intro _
  have hspoken : ¬(e.pushAll l).silent = true := by
    rw [show (e.pushAll l).silent = false from he.spoken]
    exact Bool.false_ne_true
  rw [Exchange.Proper, Exchange.Correct, if_neg hspoken,
    Exchange.packets_pushAll, Exchange.packets_of_sent he.sent, Exchange.isPrepare_pushAll, he.prepare, List.nil_append]
  exact hl

/-- One packet is an answer to a regular command if it is a response by itself. -/
theorem answered_push {x : Bool} {r : Except GoError Unit} {sequence : UInt8} {p : Packet} (he : e.Unsaid x)
    (hi : e.irregular = false) (hp : Complete x [p]) : Answered r (e.push sequence p) :=
  answered_pushAll he ⟨fun _ => hi, fun _ => hp⟩

theorem writeError_speaks {sequence : UInt8} {code : Nat} {state message : Bytes}
    {Q : Except GoError Unit → Exchange → Prop} (hn : sequence = nextSequence frames e.sent)
    (hb : e.silent = true → e.irregular = true) (hx : e.executed = true → e.warningsFailed = true)
    (hQ : ∀ r message, Q r (e.push sequence (.err code state message))) :
    Speaks svc frames (writeError sequence code state message) e Q := by
  have hw : ∀ message, e.executed = true → e.mayWrite (.err code state message) = true := fun message h => by
    rw [Exchange.mayWrite, hx h]
    rfl
  refine speaks_bind (speaks_write hn hb (hw _) trivial ?_ ?_)
  · exact fun x => speaks_pure (hQ _ _)
  · exact fun next _ => speaks_pure (hQ _ _)

theorem writeSQLErrorAt_speaks {sequence : UInt8} {x : GoError} {Q : Except GoError Unit → Exchange → Prop}
    (hn : sequence = nextSequence frames e.sent) (hb : e.silent = true → e.irregular = true)
    (hx : e.executed = true → e.warningsFailed = true)
    (hQ : ∀ r code state message, Q r (e.push sequence (.err code state message))) :
    Speaks svc frames (writeSQLErrorAt sequence x) e Q :=
  speaks_tell (writeError_speaks hn hb hx fun r => hQ r _ _)

/-- An error is the answer to a regular command for which nothing was written. -/
theorem refuse_speaks {x : Bool} {code : Nat} {state message : Bytes} (he : e.Unsaid x) (hi : e.irregular = false)
    (hx : e.executed = true → e.warningsFailed = true) :
    Speaks svc frames (writeError 1 code state message) e Answered :=
  writeError_speaks he.first he.audible hx fun _ _ => answered_push he hi (complete_err _ _ _ _)

theorem fail_speaks {x : Bool} {error : GoError} (he : e.Unsaid x) (hi : e.irregular = false)
    (hx : e.executed = true → e.warningsFailed = true) : Speaks svc frames (writeSQLError error) e Answered :=
  writeSQLErrorAt_speaks he.first he.audible hx fun _ _ _ _ => answered_push he hi (complete_err _ _ _ _)

theorem writeOK_speaks {affectedRows lastInsertID warnings : Nat} (he : e.Unsaid false) (hi : e.irregular = false)
    (hx : e.warningsFailed = false) : Speaks svc frames (writeOK affectedRows lastInsertID warnings) e Answered := by
  have hdone : ∀ (r : Except GoError Unit) (status : UInt16),
      Answered r (e.push 1 (.ok affectedRows lastInsertID status warnings)) := fun r status =>
    answered_push he hi (complete_ok _ _ _ _)
  have hw : ∀ status, e.executed = true → e.mayWrite (.ok affectedRows lastInsertID status warnings) = true :=
    fun status _ => by
      rw [Exchange.mayWrite, hx]
      rfl
  refine speaks_read fun s => speaks_bind (speaks_write he.first he.audible (hw _) trivial ?_ ?_)
  · exact fun x => speaks_pure (hdone _ _)
  · exact fun next _ => speaks_pure (hdone _ _)

theorem refuse_replies (code : Nat) (state message : Bytes) : Replies svc frames (writeError 1 code state message) :=
  fun _ h => refuse_speaks h.toUnsaid h.regular (Exchange.unexecuted h.executed)

theorem fail_replies (x : GoError) : Replies svc frames (writeSQLError x) :=
  fun _ h => fail_speaks h.toUnsaid h.regular (Exchange.unexecuted h.executed)

theorem writeOK_replies (affectedRows lastInsertID warnings : Nat) :
    Replies svc frames (writeOK affectedRows lastInsertID warnings) :=
  fun _ h => writeOK_speaks h.toUnsaid h.regular h.unwarned

/-- A session that ends need not answer. -/
theorem stop_replies (x : GoError) : Replies svc frames (pure (.error x)) := fun _ _ => speaks_pure (answered_error x _)

theorem Replies.read {f : ClientSession → M (Except GoError Unit)} (h : ∀ s, Replies svc frames (f s)) :
    Replies svc frames (Prog.read >>= f) := fun e he => speaks_read fun s => h s e he

theorem Replies.modify {f : ClientSession → ClientSession} {k : Unit → M (Except GoError Unit)}
    (h : Replies svc frames (k ())) : Replies svc frames (Prog.modify f >>= k) := fun e he => speaks_modify (h e he)

theorem Replies.tell {n : Note} {k : Unit → M (Except GoError Unit)} (h : Replies svc frames (k ())) :
    Replies svc frames (Prog.tell n >>= k) := fun e he => speaks_tell (h e he)

/-- What comes before the reply. -/
theorem Replies.after {cs : List Call} {ps : List Part} {p : M α} {k : α → M (Except GoError Unit)} (hp : Does cs ps p)
    (hc : cs.all (Call.mute false false) = true) (hk : ∀ a, Replies svc frames (k a)) : Replies svc frames (p >>= k) :=
  fun e he => speaks_bind (speaks_does hp (by rw [he.executed, he.prepare]; exact hc) fun a => hk a e he)

theorem Replies.call {o : Op} {k : Res o → M (Except GoError Unit)} (ho : o.kind.mute false false = true)
    (hs : o.status? = none) (hk : ∀ a, Replies svc frames (k a)) : Replies svc frames (call o >>= k) :=
  .after (does_call (List.elem_cons_self ..) hs : Does [o.kind] [] _) (by rw [List.all_cons, ho]; rfl) hk

/-- Calls that follow the reply. -/
theorem speaks_call_quiet {β : Type} {o : Op} {k : Res o → M β} {Q : β → Exchange → Prop}
    (ho : ∀ x y, o.kind.mute x y = true) (hs : o.status? = none) (hk : ∀ a, Speaks svc frames (k a) e Q) :
    Speaks svc frames (Gateway.call o >>= k) e Q :=
  speaks_bind (speaks_does (does_call (List.elem_cons_self ..) hs : Does [o.kind] [] _) (by rw [List.all_cons, ho]; rfl) hk)

end Replies

/-! ## Statements -/

section Statements

variable {svc : Service} {frames : Packet → Nat} {e : Exchange}

theorem commit_replies : Replies svc frames commit := by
  refine .read fun s => ?_
  split
  · exact writeOK_replies 0 0 0
  · refine .call rfl rfl fun r => ?_
    cases r with
    | error x => exact .after finishTransaction_does rfl fun _ => .modify (stop_replies x)
    | ok u =>
      refine .after (applyState_does .commit) rfl fun r => ?_
      cases r with
      | some x => exact .after finishTransaction_does rfl fun _ => stop_replies x
      | none =>
        refine .tell (.after finishTransaction_does rfl fun _ => .call rfl rfl fun r => ?_)
        cases r with
        | error x => exact stop_replies x
        | ok u => exact writeOK_replies 0 0 0

theorem rolledBack_replies : Replies svc frames rolledBack := by
  refine .after (applyState_does .rollback) rfl fun r => ?_
  cases r with
  | some x => exact .after finishTransaction_does rfl fun _ => stop_replies x
  | none => exact .after finishTransaction_does rfl fun _ => writeOK_replies 0 0 0

theorem rollback_replies : Replies svc frames rollback := by
  refine .read fun s => ?_
  split
  · exact writeOK_replies 0 0 0
  · refine .call rfl rfl fun r => ?_
    cases r with
    | error x =>
      simp only
      split
      · exact .after finishTransaction_does rfl fun _ => .modify (fail_replies x)
      · exact rolledBack_replies
    | ok u => exact rolledBack_replies

theorem localStatement_replies (kind : StatementKind) (code : Nat) (state message : String) :
    Replies svc frames (localStatement kind code state message) := by
  refine .after (applyState_does kind) rfl fun r => ?_
  cases r with
  | some x => exact refuse_replies _ _ _
  | none => exact writeOK_replies 0 0 0

theorem enableAutocommit_replies : Replies svc frames enableAutocommit := localStatement_replies _ _ _ _

theorem autocommitOn_replies : Replies svc frames autocommitOn := by
  refine .read fun s => ?_
  split
  · exact enableAutocommit_replies
  · refine .call rfl rfl fun r => ?_
    cases r with
    | error x => exact .after finishTransaction_does rfl fun _ => .modify (stop_replies x)
    | ok u =>
      refine .tell (.after finishTransaction_does rfl fun _ => .call rfl rfl fun r => ?_)
      cases r with
      | error x => exact stop_replies x
      | ok u => exact enableAutocommit_replies

theorem initDatabase_replies (svc : Service) (database : Text) : Replies svc frames (initDatabase svc database) := by
  unfold initDatabase
  split
  · exact refuse_replies _ _ _
  · refine .read fun s => .modify ?_
    split
    · exact refuse_replies _ _ _
    · exact writeOK_replies 0 0 0

/-- An exchange that differs in what upstream did only. -/
theorem Exchange.Unsaid.of_eq {x : Bool} {e' : Exchange} (h : e.Unsaid x) (hs : e'.sent = e.sent)
    (hp : e'.payload = e.payload) : e'.Unsaid x where
  sent := hs.trans h.sent
  spoken := by rw [silent, hp]; exact h.spoken
  prepare := by rw [isPrepare, hp]; exact h.prepare

theorem Exchange.Plain.polite (he : e.Plain) {o : Op} (hw : ∀ sequence p, o ≠ .writeMessage sequence p) :
    Polite svc frames e o where
  numbered n p h := absurd h (hw n p)
  answers n p h := absurd h (hw n p)
  confirms n p h := absurd h (hw n p)
  fits n p h := absurd h (hw n p)
  executes _ _ := ⟨he.sent, he.spoken, he.prepare, he.regular, he.unwarned⟩
  queries _ := he.executed
  warns _ _ _ := he.sent

theorem speaks_exec {via : Via} {q : Text} {Q : Except GoError Result → Exchange → Prop} (he : e.Plain)
    (hQ : ∀ r, Q r (e.execute r)) : Speaks svc frames (Gateway.call (.exec via q)) e Q :=
  speaks_call (he.polite (by rintro _ _ ⟨⟩)) (by rintro ⟨⟩) (f := e.execute) (fun _ _ _ => rfl) e.execute_request
    fun r _ => hQ r

theorem speaks_stmtExec {st : Stmt} {a : List Argument} {Q : Except GoError Result → Exchange → Prop} (he : e.Plain)
    (hQ : ∀ r, Q r (e.execute r)) : Speaks svc frames (Gateway.call (.stmtExec st a)) e Q :=
  speaks_call (he.polite (by rintro _ _ ⟨⟩)) (by rintro ⟨⟩) (f := e.execute) (fun _ _ _ => rfl) e.execute_request
    fun r _ => hQ r

theorem speaks_query {via : Via} {q : Text} {Q : Except GoError Rows → Exchange → Prop} (he : e.Plain)
    (hQ : ∀ r, Q r (e.query r)) : Speaks svc frames (Gateway.call (.query via q)) e Q :=
  speaks_call (he.polite (by rintro _ _ ⟨⟩)) (by rintro ⟨⟩) (f := e.query) (fun _ _ _ => rfl) e.query_request
    fun r _ => hQ r

theorem speaks_stmtQuery {st : Stmt} {a : List Argument} {Q : Except GoError Rows → Exchange → Prop} (he : e.Plain)
    (hQ : ∀ r, Q r (e.query r)) : Speaks svc frames (Gateway.call (.stmtQuery st a)) e Q :=
  speaks_call (he.polite (by rintro _ _ ⟨⟩)) (by rintro ⟨⟩) (f := e.query) (fun _ _ _ => rfl) e.query_request
    fun r _ => hQ r

theorem readWarningCount_speaks {via : Via} {Q : Except GoError Nat → Exchange → Prop}
    (hs : e.executed = true → e.sent = [])
    (herr : ∀ x, Q (.error x) { e with warningsFailed := e.warningsFailed || e.executed })
    (hok : ∀ n, Q (.ok n) e) : Speaks svc frames (readWarningCount via) e Q := by
  have hp : Polite svc frames e (.queryWarnings via) :=
    .of_other (by rintro _ _ ⟨⟩) rfl (by rintro _ _ ⟨⟩) (by rintro _ _ ⟨⟩) fun _ _ => hs
  refine speaks_bind (speaks_call hp (by rintro ⟨⟩) (f := e.warn) (fun _ _ _ => rfl) e.warn_request ?_)
  rintro (x | n) -
  · exact speaks_pure (herr _)
  · exact speaks_pure (hok _)

/-- A result is answered with an OK packet, a failure with an error: also if only the warnings could not
be read. -/
structure Exchange.Ran (e : Exchange) (failed : Bool) : Prop extends e.Unsaid false where
  regular : e.irregular = false
  fails : failed = true → e.executed = true → e.warningsFailed = true
  succeeds : failed = false → e.warningsFailed = false

/-- Whether there is no result. -/
def failed {α : Type} : Except GoError α → Bool
  | .ok _ => false
  | .error _ => true

theorem replyResult_speaks {r : Except GoError (Result × Nat)} (he : e.Ran (failed r)) :
    Speaks svc frames (replyResult r) e Answered := by
  cases r with
  | error x => exact fail_speaks he.toUnsaid he.regular (he.fails rfl)
  | ok y => exact speaks_modify (writeOK_speaks he.toUnsaid he.regular (he.succeeds rfl))

theorem execOn_speaks {via : Via} {q : Text} (he : e.Plain) :
    Speaks svc frames (execOn via q) e fun r e' => e'.Ran (failed r) := by
  refine speaks_bind (speaks_exec he fun r => ?_)
  cases r with
  | error x => exact speaks_pure ⟨he.toUnsaid, he.regular, fun _ => Exchange.unexecuted he.executed, fun h => by cases h⟩
  | ok result =>
    refine speaks_bind (readWarningCount_speaks (fun _ => he.sent) ?_ ?_)
    · exact fun x => speaks_pure ⟨he.toUnsaid.of_eq rfl rfl, he.regular, fun _ _ => Bool.or_true _, fun h => by cases h⟩
    · exact fun n => speaks_pure ⟨he.toUnsaid.of_eq rfl rfl, he.regular, (by rintro ⟨⟩), fun _ => he.unwarned⟩

theorem panic_replies : Replies svc frames panic :=
  fun _ _ s past => ⟨PoliteAt.of_mute (o := .panic) rfl s past, fun r => r.elim⟩

theorem withConnection_replies {q : Text} {body : Conn → M (Except GoError Unit)}
    (hbody : ∀ c, Replies svc frames (body c)) : Replies svc frames (withConnection svc q body) := by
  refine .after (acquire_does _) rfl fun r => ?_
  cases r with
  | error x => exact fail_replies x
  | ok u =>
    refine .after checkout_does rfl fun r => ?_
    cases r with
    | error x =>
      refine fun e he => speaks_bind ((fail_replies x e he).mono fun r e' h => ?_)
      exact speaks_call_quiet (fun _ _ => rfl) rfl fun _ => speaks_pure h
    | ok c => exact hbody c

theorem exec_replies (svc : Service) (q : Text) (transactional : Bool) :
    Replies svc frames (exec svc q transactional) := by
  cases transactional with
  | true =>
    refine .read fun s => ?_
    split
    · exact panic_replies
    · exact fun e he => speaks_bind ((execOn_speaks he).mono fun r e' h => replyResult_speaks h)
  | false =>
    refine withConnection_replies fun c e he => speaks_bind ((execOn_speaks he).mono fun r e' h => ?_)
    refine speaks_bind ((replyResult_speaks h).mono fun r e' h => ?_)
    exact speaks_call_quiet (fun _ _ => rfl) rfl fun _ => speaks_call_quiet (fun _ _ => rfl) rfl fun _ => speaks_pure h

end Statements

/-! ## Result sets -/

section ResultSets

variable {svc : Service} {frames : Packet → Nat} {e : Exchange}

/-- More packets of a response are written, from a sequence number on. -/
structure Exchange.Sending (frames : Packet → Nat) (e : Exchange) (sequence : UInt8) : Prop where
  numbered : sequence = nextSequence frames e.sent
  spoken : e.silent = false
  executed : e.executed = false

theorem Exchange.Sending.audible {sequence : UInt8} (h : e.Sending frames sequence) :
    e.silent = true → e.irregular = true := fun hs => by
  rw [h.spoken] at hs
  cases hs

theorem Exchange.Unsaid.sending {x : Bool} (h : e.Unsaid x) (hx : e.executed = false) : e.Sending frames 1 :=
  ⟨h.first, h.spoken, hx⟩

theorem speaks_send {sequence : UInt8} {p : Packet} {Q : Except GoError UInt8 → Exchange → Prop}
    (he : e.Sending frames sequence) (hfits : p.Fits svc e.irregular) (herr : ∀ x, Q (.error x) (e.push sequence p))
    (hok : ∀ next, (e.push sequence p).Sending frames next → Q (.ok next) (e.push sequence p)) :
    Speaks svc frames (write sequence p) e Q :=
  speaks_write he.numbered he.audible (Exchange.unexecuted he.executed) hfits herr fun next hn =>
    hok next ⟨hn, he.spoken, he.executed⟩

theorem writeDefinitions_speaks {database : Text} {columns : List Column} {sequence : UInt8}
    (he : e.Sending frames sequence) :
    Speaks svc frames (writeDefinitions database sequence columns) e fun r e' => ∀ next, r = .ok next →
      e'.Sending frames next ∧ ∃ l, e' = e.pushAll l ∧ l.map Prod.snd =
        (columns.map fun c => columnDefinition c.name database c.type).map Packet.columnDefinition := by
  induction columns generalizing sequence e with
  | nil =>
    refine speaks_pure ?_
    rintro _ ⟨⟩
    exact ⟨he, [], by simp [Exchange.pushAll], rfl⟩
  | cons c columns ih =>
    refine speaks_bind (speaks_send he trivial ?_ fun next he' => ?_)
    · exact fun x => speaks_pure fun _ h => by cases h
    · refine (ih he').mono fun r e' h next hr => ?_
      obtain ⟨he', l, rfl, hl⟩ := h next hr
      refine ⟨he', (sequence, .columnDefinition (columnDefinition c.name database c.type)) :: l, ?_, ?_⟩
      · rw [Exchange.push, Exchange.pushAll_pushAll]
        rfl
      · rw [List.map_cons, hl]
        rfl

/-- Rows and the EOF or the error that ends them were written. -/
def RowsEnd (e e' : Exchange) : Prop :=
  ∃ l rows last, e' = e.pushAll l ∧ l.map Prod.snd = rows ++ [last] ∧ (∀ p ∈ rows, p.isRow = true) ∧ last.isEnd = true

theorem rowsEnd_push {sequence : UInt8} {p : Packet} (hp : p.isEnd = true) : RowsEnd e (e.push sequence p) :=
  ⟨[(sequence, p)], [], p, rfl, rfl, List.forall_mem_nil _, hp⟩

/-- Rows before the end. -/
theorem RowsEnd.after {l : List (UInt8 × Packet)} {e' : Exchange} (h : RowsEnd (e.pushAll l) e')
    (hl : ∀ p ∈ l.map Prod.snd, p.isRow = true) : RowsEnd e e' := by
  obtain ⟨l', rows, last, rfl, hl', hr, hlast⟩ := h
  refine ⟨l ++ l', l.map Prod.snd ++ rows, last, Exchange.pushAll_pushAll .., ?_, ?_, hlast⟩
  · rw [List.map_append, hl', List.append_assoc]
  · intro p hp
    rcases List.mem_append.1 hp with hp | hp
    · exact hl p hp
    · exact hr p hp

theorem speaks_failAt {sequence : UInt8} {x : GoError} (he : e.Sending frames sequence) :
    Speaks svc frames (writeSQLErrorAt sequence x) e fun _ e' => RowsEnd e e' :=
  writeSQLErrorAt_speaks he.numbered he.audible (Exchange.unexecuted he.executed) fun _ _ _ _ => rowsEnd_push rfl

/-- What `writeRows` has written: rows, or rows and their end if the handler does not go on. -/
def Rowed (frames : Packet → Nat) (e : Exchange) : Except (Except GoError Unit) UInt8 → Exchange → Prop
  | .ok next, e' => e'.Sending frames next ∧ ∃ l, e' = e.pushAll l ∧ ∀ p ∈ l.map Prod.snd, p.isRow = true
  | .error r, e' => r = .ok () → RowsEnd e e'

/-- The rows that an encoder makes. -/
def EncodesRows (svc : Service) (encode : List Value → Except GoError Packet) : Prop :=
  ∀ values p, encode values = .ok p → p.isRow = true ∧ p.Fits svc false

theorem encodesRows_text (columns : List Column) : EncodesRows svc (encodeText columns) := by
  rintro values _ ⟨⟩
  exact ⟨rfl, trivial⟩

theorem encodesRows_binary (columns : List Column) : EncodesRows svc (encodeBinary svc columns) := by
  intro values p h
  unfold encodeBinary at h
  split at h
  · rename_i payload hpayload
    cases h
    exact ⟨rfl, _, _, _, hpayload⟩
  · cases h

theorem writeRows_speaks {encode : List Value → Except GoError Packet} (henc : EncodesRows svc encode)
    {rows : List (Except GoError (List Value))} {sequence : UInt8} (he : e.Sending frames sequence) :
    Speaks svc frames (writeRows encode sequence rows) e (Rowed frames e) := by
  induction rows generalizing sequence e with
  | nil => exact speaks_pure ⟨he, [], by simp [Exchange.pushAll], List.forall_mem_nil _⟩
  | cons row rows ih =>
    have herr : ∀ x, Speaks svc frames (writeSQLErrorAt sequence x >>= fun r => pure (.error r)) e (Rowed frames e) :=
      fun x => speaks_bind ((speaks_failAt he).mono fun r e' h => speaks_pure fun _ => h)
    cases row with
    | error x => exact herr x
    | ok values =>
      unfold writeRows
      cases hp : encode values with
      | error x => exact herr x
      | ok p =>
        refine speaks_bind (speaks_send he ((henc values p hp).2.mono (by rintro ⟨⟩)) ?_ fun next he' => ?_)
        · exact fun x => speaks_pure fun h => by cases h
        · have hrow : ∀ q ∈ [p], q.isRow = true := by
            intro q hq
            rw [List.mem_singleton.1 hq]
            exact (henc values p hp).1
          refine (ih he').mono fun r e' h => ?_
          rcases r with r | next
          · exact fun hr => (h hr).after hrow
          · obtain ⟨he', l, rfl, hl⟩ := h
            refine ⟨he', (sequence, p) :: l, Exchange.pushAll_pushAll .., fun q hq => ?_⟩
            rcases List.mem_cons.1 hq with rfl | hq
            · exact hrow _ (List.mem_singleton.2 rfl)
            · exact hl q hq

theorem finishRows_speaks {sequence : UInt8} {source : Via} (he : e.Sending frames sequence) :
    Speaks svc frames (finishRows sequence source) e fun r e' => r = .ok () → RowsEnd e e' := by
  refine speaks_bind (readWarningCount_speaks (Exchange.unexecuted he.executed) (fun x => ?_) fun n => ?_)
  · have hw : (e.warningsFailed || e.executed) = e.warningsFailed := by rw [he.executed, Bool.or_false]
    rw [hw]
    exact (speaks_failAt he).mono fun _ _ h _ => h
  · refine speaks_modify (speaks_bind (speaks_read fun s => speaks_send he trivial ?_ fun next _ => ?_))
    · exact fun x => speaks_pure fun h => by cases h
    · exact speaks_pure fun _ => rowsEnd_push rfl

theorem sendBody_speaks {encode : List Value → Except GoError Packet} (henc : EncodesRows svc encode) {source : M Via}
    (hsource : Does [.panic] [] source) {rows : Rows} {sequence : UInt8} (he : e.Sending frames sequence) :
    Speaks svc frames (sendBody encode source rows sequence) e fun r e' => r = .ok () → RowsEnd e e' := by
  refine speaks_bind ((writeRows_speaks henc he).mono fun r e' h => ?_)
  rcases r with r | next
  · exact speaks_pure h
  · obtain ⟨he', l, rfl, hl⟩ := h
    have hfail : ∀ x, Speaks svc frames (writeSQLErrorAt next x) (e.pushAll l) fun r e' => r = .ok () → RowsEnd e e' :=
      fun x => (speaks_failAt he').mono fun _ _ h _ => h.after hl
    simp only
    split
    · exact hfail _
    · split
      · exact hfail _
      · refine speaks_bind (speaks_does hsource rfl fun via => ?_)
        exact (finishRows_speaks he').mono fun r e' h hr => (h hr).after hl

/-- A result set is one response, unless it has no columns. -/
theorem sendRows_speaks {database : Text} {encode : List Column → List Value → Except GoError Packet}
    (henc : ∀ columns, EncodesRows svc (encode columns)) {source : M Via} (hsource : Does [.panic] [] source)
    {rows : Rows} (he : e.Unsaid false) (hx : e.executed = false) (hi : e.irregular = bare rows) :
    Speaks svc frames (sendRows database encode source rows) e Answered := by
  unfold sendRows
  split
  · rename_i x hcolumns
    exact fail_speaks he (by rw [hi, bare, hcolumns]) (Exchange.unexecuted hx)
  · rename_i columns hcolumns
    have hcount : columns.length = 0 → e.irregular = true := fun hz => by
      rw [hi, bare, hcolumns, List.eq_nil_of_length_eq_zero hz]
    refine speaks_bind (speaks_send (he.sending hx) hcount ?_ fun n₁ h₁ => ?_)
    · exact fun x => speaks_pure (answered_error x _)
    · refine speaks_bind ((writeDefinitions_speaks h₁).mono fun r e' h => ?_)
      rcases r with x | n₂
      · exact speaks_pure (answered_error x _)
      · obtain ⟨h₂, l, rfl, hl⟩ := h n₂ rfl
        refine speaks_bind (speaks_read fun s => speaks_send h₂ trivial ?_ fun n₃ h₃ => ?_)
        · exact fun x => speaks_pure (answered_error x _)
        · refine (sendBody_speaks (henc columns) hsource h₃).mono fun r e' h hr => ?_
          obtain ⟨l', rows', last, rfl, hl', hrows, hlast⟩ := h hr
          simp only [Exchange.push, Exchange.pushAll_pushAll]
          refine answered_pushAll he ?_ hr
          simp only [List.map_append, List.map_cons, List.map_nil, hl, hl', hi, bare, hcolumns]
          cases columns with
          | nil =>
            refine ⟨fun h => ?_, fun h => by cases h⟩
            exact (not_complete_bare _ _ h).elim
          | cons c columns =>
            refine ⟨fun _ => rfl, fun _ => ?_⟩
            have hdefs : ((c :: columns).map fun c => columnDefinition c.name database c.type) ≠ [] :=
              List.cons_ne_nil _ _
            simpa using complete_resultSet hdefs s.status 0 hrows hlast

theorem Exchange.Plain.query_irregular (he : e.Plain) (rows : Rows) : (e.query (.ok rows)).irregular = bare rows := by
  show (e.irregular || bare rows) = bare rows
  rw [he.regular, Bool.false_or]

theorem rowsOn_replies (svc : Service) (via : Via) (q : Text) : Replies svc frames (rowsOn svc via q) := by
  refine fun e he => speaks_bind (speaks_query he fun r => ?_)
  cases r with
  | error x => exact fail_replies x e he
  | ok rows =>
    exact sendRows_speaks encodesRows_text (does_pure via) (he.toUnsaid.of_eq rfl rfl) he.executed
      (he.query_irregular rows)

theorem rows_replies (svc : Service) (q : Text) : Replies svc frames (rows svc q) := by
  refine .read fun s => ?_
  split
  · exact rowsOn_replies svc _ q
  · refine withConnection_replies fun c e he => speaks_bind ((rowsOn_replies svc _ q e he).mono fun r e' h => ?_)
    exact speaks_call_quiet (fun _ _ => rfl) rfl fun _ => speaks_call_quiet (fun _ _ => rfl) rfl fun _ => speaks_pure h

/-- Packets that are written one after the other see one session: nothing changes it in between. -/
theorem writePackets_speaks {ps : List (ClientSession → Packet)} {sequence : UInt8} (he : e.Sending frames sequence)
    (hfits : ∀ p ∈ ps, ∀ s, (p s).Fits svc e.irregular) :
    Speaks svc frames (writePackets sequence ps) e fun r e' => r = .ok () →
      ∃ s l, e' = e.pushAll l ∧ l.map Prod.snd = ps.map fun p => p s := by
  intro s past
  suffices h : (writePackets sequence ps).wp (talking frames) (PoliteAt svc frames) (Becomes e past fun r e' => r = .ok () →
      ∃ l, e' = e.pushAll l ∧ l.map Prod.snd = ps.map fun p => p s) s (e :: past) by
    refine Prog.wp_mono h ?_
    rintro r _ _ ⟨e', rfl, hp, h⟩
    exact ⟨e', rfl, hp, fun hr => ⟨s, h hr⟩⟩
  induction ps generalizing sequence e with
  | nil => exact ⟨e, rfl, rfl, fun _ => ⟨[], by simp [Exchange.pushAll], rfl⟩⟩
  | cons p ps ih =>
    refine ⟨⟨?_, fun h => by cases h⟩, ?_⟩
    · rintro _ _ ⟨⟩
      exact .write he.numbered he.audible (Exchange.unexecuted he.executed) (hfits p List.mem_cons_self s)
    · rintro (x | next) _ ⟨hr, rfl⟩
      · exact ⟨_, rfl, rfl, fun h => by cases h⟩
      · have hr : next = sequence + UInt8.ofNat (frames (p s)) := hr
        have hn : next = nextSequence frames (e.push sequence (p s)).sent := by rw [hr, he.numbered, nextSequence_push]
        refine Prog.wp_mono (ih ⟨hn, he.spoken, he.executed⟩ fun q hq => hfits q (List.mem_cons_of_mem p hq)) ?_
        rintro r _ _ ⟨e', rfl, hp, h⟩
        refine ⟨e', rfl, hp, fun hr => ?_⟩
        obtain ⟨l, rfl, hl⟩ := h hr
        exact ⟨(sequence, p s) :: l, Exchange.pushAll_pushAll .., by rw [List.map_cons, hl]; rfl⟩

theorem warningCount_replies (svc : Service) : Replies svc frames (warningCount svc) := by
  intro e he
  refine (writePackets_speaks (he.toUnsaid.sending he.executed) (by simp [Packet.Fits])).mono fun r e' h hr => ?_
  obtain ⟨s, l, rfl, hl⟩ := h hr
  refine answered_pushAll he.toUnsaid ⟨fun _ => he.regular, fun _ => ?_⟩ hr
  have hrow : ∀ p ∈ [Packet.textRow [some (lit (toString s.state.warnings))]], p.isRow = true :=
    fun p hp => by rw [List.mem_singleton.1 hp]; rfl
  rw [hl]
  exact complete_resultSet (List.cons_ne_nil (warningColumn svc.database) []) s.status 0 hrow
    (rfl : (Packet.eof s.status 0).isEnd = true)

/-- COM_QUERY. -/
theorem query_replies (svc : Service) (q : Text) : Replies svc frames (query svc q) := by
  unfold query
  dsimp only
  split
  · exact refuse_replies _ _ _
  · exact .tell (refuse_replies _ _ _)
  · refine .read fun s => ?_
    split
    · exact refuse_replies _ _ _
    · refine .after begin_does rfl fun r => ?_
      cases r with
      | error x => exact fail_replies x
      | ok u => exact writeOK_replies 0 0 0
  · exact commit_replies
  · exact rollback_replies
  · exact localStatement_replies _ _ _ _
  · exact autocommitOn_replies
  · exact localStatement_replies _ _ _ _
  · split
    · exact initDatabase_replies svc _
    · exact refuse_replies _ _ _
  · exact warningCount_replies svc
  · refine .after (applyState_does .savepoint) rfl fun r => .read fun s => ?_
    split
    · exact refuse_replies _ _ _
    · exact exec_replies svc _ true
  · refine .read fun s => ?_
    split
    · exact refuse_replies _ _ _
    · exact exec_replies svc _ false
  · refine .after ensureImplicitTransaction_does rfl fun r => ?_
    cases r with
    | error x => exact fail_replies x
    | ok u => exact .read fun s => exec_replies svc _ _
  · refine .after ensureImplicitTransaction_does rfl fun r => ?_
    cases r with
    | error x => exact fail_replies x
    | ok u => exact rows_replies svc _

end ResultSets

/-! ## Prepared statements -/

section Prepared

variable {svc : Service} {frames : Packet → Nat} {e : Exchange}

theorem execPrepared_replies (st : Stmt) (a : List Argument) : Replies svc frames (execPrepared st a) := by
  refine fun e he => speaks_bind (speaks_stmtExec he fun r => ?_)
  cases r with
  | error x => exact fail_replies x e he
  | ok result =>
    refine speaks_bind (speaks_does currentVia_does rfl fun via =>
      speaks_bind (readWarningCount_speaks ?_ (fun x => ?_) fun n => ?_))
    · exact fun _ => he.sent
    · exact fail_speaks (he.toUnsaid.of_eq rfl rfl) he.regular fun _ => Bool.or_true _
    · exact speaks_modify (writeOK_speaks (he.toUnsaid.of_eq rfl rfl) he.regular he.unwarned)

theorem queryPrepared_replies (svc : Service) (st : Stmt) (a : List Argument) :
    Replies svc frames (queryPrepared svc st a) := by
  refine fun e he => speaks_bind (speaks_stmtQuery he fun r => ?_)
  cases r with
  | error x => exact fail_replies x e he
  | ok rows =>
    exact sendRows_speaks encodesRows_binary currentVia_does (he.toUnsaid.of_eq rfl rfl) he.executed
      (he.query_irregular rows)

theorem runHandle_replies (svc : Service) (id : UInt32) (p : PreparedStatement) (a : List Argument) :
    Replies svc frames (runHandle svc id p a) := by
  refine .after (statementForExecution_does id p) rfl fun r => ?_
  cases r with
  | error x => exact fail_replies x
  | ok y =>
    obtain ⟨st, temporary⟩ := y
    have hrun : Replies svc frames (runPrepared svc p.query st a) := by
      unfold runPrepared
      split
      · exact queryPrepared_replies svc st a
      · exact execPrepared_replies st a
    refine fun e he => speaks_bind ((hrun e he).mono fun r e' h => ?_)
    exact speaks_bind (speaks_does (closeTemporary_does temporary st) rfl fun _ => speaks_pure h)

/-- COM_STMT_EXECUTE. -/
theorem executePrepared_replies (svc : Service) (payload : Bytes) : Replies svc frames (executePrepared svc payload) := by
  unfold executePrepared
  split
  · exact refuse_replies _ _ _
  · refine .read fun s => ?_
    split
    · exact refuse_replies _ _ _
    · split
      · exact refuse_replies _ _ _
      · split
        · exact .modify (refuse_replies _ _ _)
        · refine .modify ?_
          split
          · exact refuse_replies _ _ _
          · exact panic_replies
          · refine .after ensureImplicitTransaction_does rfl fun r => ?_
            cases r with
            | error x => exact fail_replies x
            | ok u => exact runHandle_replies svc _ _ _

theorem resetPrepared_replies (payload : Bytes) : Replies svc frames (resetPrepared payload) := by
  unfold resetPrepared
  split
  · exact refuse_replies _ _ _
  · refine .read fun s => ?_
    split
    · exact refuse_replies _ _ _
    · exact .modify (writeOK_replies 0 0 0)

theorem replyPrepared_writes {id : UInt32} {n : Nat} (he : e.Sending frames 1) :
    Speaks svc frames (replyPrepared id n) e fun r e' => r = .ok () → ∃ s l, e' = e.pushAll l ∧ l.map Prod.snd =
      ((fun _ => .prepareOK id 0 (n % 65536) 0) :: List.replicate n (fun _ => .columnDefinition parameterDefinition) ++
        if n > 0 then [fun s => .eof s.status 0] else [] : List (ClientSession → Packet)).map fun p => p s := by
  refine writePackets_speaks he ?_
  -- the number of parameters is cut off where it is announced
  simp only [List.cons_append, List.forall_mem_cons, List.forall_mem_append]
  refine ⟨fun _ => ⟨by decide, Nat.mod_lt _ (by decide)⟩, fun p hp => ?_, fun p hp => ?_⟩
  · rw [(List.mem_replicate.1 hp).2]
    exact fun _ => trivial
  · split at hp
    · rw [List.mem_singleton.1 hp]
      exact fun _ => trivial
    · cases hp

theorem replyPrepared_speaks {id : UInt32} {n : Nat} (he : e.Unsaid true) (hx : e.executed = false)
    (hi : e.irregular = decide (65536 ≤ n)) : Speaks svc frames (replyPrepared id n) e Answered := by
  refine (replyPrepared_writes (he.sending hx)).mono fun r e' h hr => ?_
  obtain ⟨s, l, rfl, hl⟩ := h hr
  refine answered_pushAll he ?_ hr
  rw [hl, hi, decide_eq_false_iff_not, Nat.not_le]
  simp only [List.map_append, List.map_cons, List.map_replicate]
  by_cases hn : n < 65536
  · refine iff_of_true ?_ hn
    have hc := complete_prepared id 0 (List.replicate n parameterDefinition) s.status 0
    by_cases hz : n = 0
    · subst hz
      exact hc
    · have hlist : List.replicate n parameterDefinition ≠ [] := fun h => hz ((List.replicate_eq_nil_iff _).1 h)
      rw [if_neg hlist, List.length_replicate, List.map_replicate] at hc
      simpa [Nat.mod_eq_of_lt hn, Nat.pos_of_ne_zero hz] using hc
  · refine iff_of_false (not_complete_prepared id 0 ?_ parameterDefinition _) hn
    exact Nat.lt_of_lt_of_le (Nat.mod_lt n (by decide)) (Nat.not_lt.1 hn)

theorem registerPrepared_speaks {q : Text} {st : Stmt} {s : ClientSession} {past : Talk} (he : e.Unsaid true)
    (hx : e.executed = false) (hi : e.irregular = uncountable s q) :
    (registerPrepared q st).wp (talking frames) (PoliteAt svc frames) (Becomes e past Answered) s (e :: past) := by
  unfold registerPrepared
  simp only [Prog.wp_bind, Prog.wp_modify, Prog.wp_read, Logical.addPrepared, if_neg (nextID_ne_zero _)]
  by_cases hin : nextID s.nextPreparedID ∈ s.state.prepared
  · have hi : e.irregular = false := by rw [hi, uncountable]; simp [hin]
    rw [if_pos hin]
    refine speaks_call_quiet (o := .stmtClose st) (fun _ _ => rfl) rfl (fun _ => speaks_modify ?_) _ past
    exact fail_speaks he hi (Exchange.unexecuted hx)
  · have hi : e.irregular = decide (65536 ≤ countPreparedParameters q) := by rw [hi, uncountable]; simp [hin]
    rw [if_neg hin]
    exact speaks_modify (replyPrepared_speaks he hx hi) _ past

/-- A prepare may be made at any time. -/
theorem PoliteAt.prepare (s : ClientSession) (past : Talk) (via : Via) (q : Text) :
    PoliteAt svc frames s (e :: past) (.prepare via q) where
  current := by
    rintro _ _ ⟨⟩
    exact .of_other (by rintro _ _ ⟨⟩) rfl (by rintro _ _ ⟨⟩) (by rintro _ _ ⟨⟩) (by rintro _ ⟨⟩)
  reads := by rintro ⟨⟩

/-- COM_STMT_PREPARE, by what is left to do for it. -/
theorem prepare_talks {svc : Service} {q : Text} {ok : ClientSession → Talk → Op → Prop}
    {Q : Except GoError Unit → ClientSession → Talk → Prop} {s : ClientSession} {past : Talk} (he : e.Unsaid true)
    (hx : e.executed = false) (hok : ∀ s o, o.kind.mute e.executed e.isPrepare = true → ok s (e :: past) o)
    (hprepare : ∀ s via q, ok s (e :: past) (.prepare via q))
    (hrefuse : ∀ code state message s', Touches [.pin] s s' →
      (writeError 1 code state message).wp (talking frames) ok Q s' (e :: past))
    (hregister : (classifySQL q).kind ∈ [.read, .write, .ddl] → ∀ st s', Touches [.pin] s s' →
      (registerPrepared (classifySQL q).sql st).wp (talking frames) ok Q s'
        (e.prepare s' (classifySQL q).sql (.ok st) :: past)) :
    (prepare svc q).wp (talking frames) ok Q s (e :: past) := by
  have hmute : pinning.all (Call.mute e.executed e.isPrepare) = true := by
    rw [hx, he.prepare]
    rfl
  refine prepare_wp (J := (· = e :: past)) ?_ ?_ rfl ?_ ?_
  · rintro s' _ o ho rfl
    have hm := List.all_eq_true.1 hmute _ (List.contains_iff_mem.1 ho.kind)
    refine ⟨hok s' o hm, ?_⟩
    rintro r _ ⟨-, rfl⟩
    exact Talk.next_mute hm past s' r
  · rintro s' _ n rfl
    cases n <;> rfl
  · rintro code state message s' _ hs rfl
    exact hrefuse code state message s' hs
  · rintro hkind via s' _ hs rfl
    refine ⟨hprepare s' via _, ?_, ?_⟩
    · rintro x _ ⟨-, rfl⟩
      rfl
    · rintro st _ ⟨-, rfl⟩
      exact hregister hkind st s' hs

theorem prepare_speaks {svc : Service} {q : Text} (he : e.Unsaid true) (hx : e.executed = false)
    (hi : e.irregular = false) : Speaks svc frames (prepare svc q) e Answered := by
  intro s past
  refine prepare_talks he hx (fun s _ h => .of_mute h s past) (fun s => .prepare s past)
    (fun _ _ _ s' _ => refuse_speaks he hi (Exchange.unexecuted hx) s' past) fun _ st s' _ => ?_
  refine registerPrepared_speaks (e := e.prepare s' _ (.ok st)) (he.of_eq rfl rfl) hx ?_
  show (e.irregular || (e.isPrepare && uncountable s' _)) = uncountable s' _
  rw [hi, he.prepare, Bool.false_or, Bool.true_and]

/-- COM_STMT_SEND_LONG_DATA: an error is written if there is no place for the data. -/
theorem sendPreparedLongData_speaks {payload : Bytes} {s : ClientSession} {past : Talk} (hs : e.sent = [])
    (hsilent : e.silent = true) (hx : e.executed = false) (hi : e.irregular = !longDataOK s payload) :
    (sendPreparedLongData payload).wp (talking frames) (PoliteAt svc frames) (Becomes e past Answered) s (e :: past) := by
  have hrefuse : ∀ {code : Nat} {state message : Bytes}, longDataOK s payload = false →
      Speaks svc frames (writeError 1 code state message) e Answered := by
    intro code state message hlong
    have hi : e.irregular = true := by rw [hi, hlong]; rfl
    refine writeError_speaks (by rw [hs]; rfl) (fun _ => hi) (Exchange.unexecuted hx) fun r message _ => ?_
    refine iff_of_false ?_ ?_
    · rw [Exchange.Correct, if_pos (c := (e.push 1 _).silent = true) hsilent]
      exact List.append_ne_nil_of_right_ne_nil _ (List.cons_ne_nil _ _)
    · show e.irregular ≠ false
      rw [hi]
      decide
  unfold sendPreparedLongData
  split
  · rename_i hlen
    exact hrefuse (by simp [longDataOK, Nat.not_le.2 hlen]) s past
  · rename_i hlen
    rw [Prog.wp_bind, Prog.wp_read]
    split
    · rename_i hp
      exact hrefuse (by simp [longDataOK, hp]) s past
    · rename_i p hp
      have hlong : longDataOK s payload = (decide (7 ≤ payload.length) &&
          decide ((UInt16.ofNat (littleEndian ((payload.drop 5).take 2))).toNat < p.parameterCount)) := by
        rw [longDataOK, hp]
      split
      · rename_i hcount
        exact hrefuse (by rw [hlong, decide_eq_false (Nat.not_lt.2 hcount), Bool.and_false]) s past
      · rename_i hcount
        have hi : e.irregular = false := by
          rw [hi, hlong, decide_eq_true (Nat.not_lt.1 hlen), decide_eq_true (Nat.not_le.1 hcount)]
          rfl
        refine ⟨e, rfl, rfl, fun _ => iff_of_true ?_ hi⟩
        rw [Exchange.Correct, if_pos hsilent]
        exact hs

/-- COM_STMT_CLOSE. -/
theorem closePrepared_speaks {payload : Bytes} (hs : e.sent = []) (hsilent : e.silent = true)
    (hi : e.irregular = false) : Speaks svc frames (closePrepared payload) e Answered := by
  refine speaks_does (closePrepared_does payload) rfl fun r _ => iff_of_true ?_ hi
  rw [Exchange.Correct, if_pos hsilent]
  exact hs

end Prepared

end Accelerator.Gateway
