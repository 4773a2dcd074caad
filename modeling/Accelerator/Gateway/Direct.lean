/-
The session a client is given. `Direct` is a session on a connection of one's own, seen by its work: the
statements it sends, in order, each by itself or in a transaction that is committed or undone as a whole.
The gateway borrows connections and transactions from a pool; in any number of interleaved sessions, with
any outcome upstream, the work each of them has done is what a session of its own does with the same
commands when it answers the same of them with an error. A command that is not answered so was done.
-/
import Accelerator.Interact.Beside
import Accelerator.Gateway.Sharing

namespace Accelerator.Gateway

open Interact Strings Engine Upstream Session

/-! ## A session on a connection of one's own -/

/-- What became of a unit of work, by the answer to its COMMIT or ROLLBACK; `unknown` if there was none. -/
inductive Outcome where
  | committed
  | undone
  | unknown
  deriving DecidableEq, Repr

/-- The statements of one unit in the order they were sent, each with whether it succeeded. -/
structure Work where
  statements : List (Text × Bool)
  outcome : Outcome
  deriving DecidableEq, Repr

/-- What a client asks for: a statement in text, the execution of a handle by its text, or something that
is none of the database's business. -/
inductive Command where
  | query (statement : Statement)
  | execute (text : Text)
  | other
  deriving DecidableEq, Repr

/-- A command, and whether it was answered with an error. -/
structure Turn where
  command : Command
  refused : Bool := false
  deriving DecidableEq, Repr

/-- A session: its mode, the statements of the open transaction, and the work done before, the latest first. -/
structure Direct where
  autocommit : Bool := true
  current : Option (List (Text × Bool)) := none
  past : List Work := []
  deriving DecidableEq, Repr

/-- The commands that end an open transaction. -/
def Command.ends : Command → Bool
  | .query st => st.kind = .commit || st.kind = .rollback || st.kind = .autocommitOn
  | _ => false

/-- The commands that set the mode. -/
def Command.switches : Command → Bool
  | .query st => st.kind = .autocommitOff || st.kind = .autocommitOn
  | _ => false

/-- The statement a command runs. -/
def Command.runs? : Command → Option Text
  | .query st =>
    if st.kind = .read ∨ st.kind = .write ∨ st.kind = .ddl ∨ st.kind = .savepoint then some st.sql else none
  | .execute q => some q
  | .other => none

/-- The commands that begin a transaction for themselves when autocommit is off. -/
def Command.begins : Command → Bool
  | .query st => st.kind = .read || st.kind = .write
  | .execute _ => true
  | .other => false

/-- The commands that ask the database for something: to run a statement, or to begin a transaction. -/
def Command.asks : Command → Bool
  | .query st => (Command.query st).runs?.isSome || st.kind = .begin
  | .execute _ => true
  | .other => false

namespace Direct

/-- The open transaction has ended; one without statements has done no work. -/
def finish (d : Direct) (statements : List (Text × Bool)) (outcome : Outcome) : Direct :=
  { d with current := none, past := if statements = [] then d.past else ⟨statements, outcome⟩ :: d.past }

/-- A statement was run: in the open transaction, or by itself. -/
def run (d : Direct) (q : Text) (ok : Bool) : Direct :=
  match d.current with
  | some statements => { d with current := some (statements ++ [(q, ok)]) }
  | none => { d with past := ⟨[(q, ok)], .committed⟩ :: d.past }

/-- An empty transaction was begun. -/
def opened (d : Direct) : Direct := { d with current := some [] }

/-- Whether a command's statement may be run as things are: in a transaction everything but DDL texts, by
itself a DDL text, and with autocommit on what would otherwise begin a transaction. -/
def Admits (d : Direct) (c : Command) : Prop :=
  match d.current with
  | some _ => ∀ st, c = .query st → st.kind ≠ .ddl
  | none => (∃ st, c = .query st ∧ st.kind = .ddl) ∨ (d.autocommit = true ∧ c.begins = true)

/-- What a session does with a command that it answers with an error (`refused`) or not. -/
inductive Step (d : Direct) : Command → Bool → Direct → Prop
  /-- Nothing, if it is answered with an error or asks the database for nothing. -/
  | nothing {c : Command} {refused : Bool} : (c.ends = true → d.current = none) → c.switches = false →
      (refused = true ∨ c.asks = false) → Step d c refused d
  | opens {st : Statement} : st.kind = .begin → d.current = none → Step d (.query st) false d.opened
  | commits {st : Statement} {l : List (Text × Bool)} : st.kind = .commit → d.current = some l →
      Step d (.query st) false (d.finish l .committed)
  | rollsBack {st : Statement} {l : List (Text × Bool)} {refused : Bool} : st.kind = .rollback → d.current = some l →
      Step d (.query st) refused (d.finish l (if refused then .unknown else .undone))
  | turnsOff {st : Statement} : st.kind = .autocommitOff → Step d (.query st) false { d with autocommit := false }
  | turnsOn {st : Statement} : st.kind = .autocommitOn → d.current = none →
      Step d (.query st) false { d with autocommit := true }
  | commitsAndTurnsOn {st : Statement} {l : List (Text × Bool)} : st.kind = .autocommitOn → d.current = some l →
      Step d (.query st) false { d.finish l .committed with autocommit := true }
  /-- A statement that failed is answered with an error; one that succeeded may be, if its result cannot be had. -/
  | runs {c : Command} {q : Text} {ok refused : Bool} : c.runs? = some q → d.Admits c → (ok = false → refused = true) →
      Step d c refused (d.run q ok)
  /-- The statement for which a transaction was begun was not sent. -/
  | begins {c : Command} : c.begins = true → d.autocommit = false → d.current = none → Step d c true d.opened
  | beginsAndRuns {c : Command} {q : Text} {ok refused : Bool} : c.begins = true → c.runs? = some q →
      d.autocommit = false → d.current = none → (ok = false → refused = true) → Step d c refused (d.opened.run q ok)

/-- The session after some commands, the latest first. -/
inductive Run : List Turn → Direct → Prop
  | start : Run [] {}
  | step {ts : List Turn} {t : Turn} {d d' : Direct} : Run ts d → Step d t.command t.refused d' → Run (t :: ts) d'

/-- What the last command of a session may have done: the outcome of its commit may not be known, and the
mode may not have been set after it. The session ends without an answer then. -/
inductive Last (d : Direct) : Command → Bool → Direct → Prop
  | step {c : Command} {refused : Bool} {d' : Direct} : Step d c refused d' → Last d c refused d'
  | lost {st : Statement} {l : List (Text × Bool)} : st.kind = .commit ∨ st.kind = .autocommitOn → d.current = some l →
      Last d (.query st) false (d.finish l .unknown)
  | committed {st : Statement} {l : List (Text × Bool)} : st.kind = .autocommitOn → d.current = some l →
      Last d (.query st) false (d.finish l .committed)

/-- The session when it is left, after some commands. -/
inductive Tried : List Turn → Direct → Prop
  | done {ts : List Turn} {d : Direct} : Run ts d → Tried ts d
  | last {ts : List Turn} {t : Turn} {d d' : Direct} : Run ts d → Last d t.command t.refused d' → Tried (t :: ts) d'

/-- The work of a session that was left: an open transaction is not committed. -/
def Leaves (d : Direct) (past : List Work) : Prop :=
  (d.current = none ∧ past = d.past) ∨ ∃ l o, d.current = some l ∧ o ≠ .committed ∧ past = (d.finish l o).past

end Direct

/-! ## What a session of the gateway sends -/

/-- The command of a request. -/
def Request.command (r : Request) : Command :=
  match r.statement?, r.handle? with
  | some st, _ => .query st
  | none, some p => .execute p.query
  | none, none => .other

/-- What a session was asked for and how it answered, the latest first, and what it has sent: the statements of
the open transaction and the work before it. -/
structure History where
  turns : List Turn := []
  current : Option (List (Text × Bool)) := none
  past : List Work := []
  deriving DecidableEq

namespace History

/-- An error was written for the command that is being answered. -/
def refuse (h : History) : History :=
  match h.turns with
  | t :: ts => { h with turns := { t with refused := true } :: ts }
  | [] => h

/-- A statement was sent. -/
def sent (h : History) (via : Via) (q : Text) (ok : Bool) : History :=
  match via with
  | .tx _ => { h with current := some (h.current.getD [] ++ [(q, ok)]) }
  | .conn _ => { h with past := ⟨[(q, ok)], .committed⟩ :: h.past }

/-- The open transaction ended. -/
def finish (h : History) (outcome : Outcome) : History :=
  match h.current with
  | none => h
  | some [] => { h with current := none }
  | some l => { h with current := none, past := ⟨l, outcome⟩ :: h.past }

/-- A transaction was begun; one that was open is committed by that. -/
def start (h : History) : History := { h.finish .committed with current := some [] }

/-- The history after a reply. -/
def reply (h : History) (s : ClientSession) : (o : Op) → Res o → History
  | .readMessage, .ok message =>
    { h with turns := ⟨if message.sequence = 0 then Request.command ⟨s, message⟩ else .other, false⟩ :: h.turns }
  | .writeMessage _ p, _ => if p.kind = .error then h.refuse else h
  | .exec via q, r => h.sent via q (succeeded r)
  | .query via q, r => h.sent via q (succeeded r)
  | .stmtExec st _, r => h.sent st.via st.query (succeeded r)
  | .stmtQuery st _, r => h.sent st.via st.query (succeeded r)
  | .beginTx _, .ok _ => h.start
  | .commit _, r => h.finish (if succeeded r then .committed else .unknown)
  | .rollback _, r => h.finish (if inDoubt r then .unknown else .undone)
  | _, _ => h

/-- The history after an event. -/
def next (h : History) : Event ClientSession Op Res Note → History
  | .call s o r => h.reply s o r
  | .note _ _ => h

end History

/-- The session of its own that a session of the gateway stands for. -/
def view (s : ClientSession) (h : History) : Direct := ⟨s.state.autocommit, h.current, h.past⟩

/-- The same transaction and the same autocommit mode. -/
def Same (s s' : ClientSession) : Prop := s'.tx = s.tx ∧ s'.state.autocommit = s.state.autocommit

theorem Same.refl (s : ClientSession) : Same s s := ⟨rfl, rfl⟩

theorem Same.trans {s s' s'' : ClientSession} (h : Same s s') (h' : Same s' s'') : Same s s'' :=
  ⟨h'.1.trans h.1, h'.2.trans h.2⟩

/-- The session has a transaction exactly if one is open. -/
def Linked (s : ClientSession) (h : History) : Prop := s.tx.isSome = h.current.isSome

section View

variable {s s' : ClientSession} {h : History} {t : Tx}

theorem Linked.none (hl : Linked s h) (htx : s.tx = none) : h.current = none := by
  rw [Linked, htx] at hl
  exact Option.not_isSome_iff_eq_none.1 (by rw [← hl]; exact Bool.false_ne_true)

theorem Linked.some (hl : Linked s h) (htx : s.tx = some t) : ∃ l, h.current = some l := by
  rw [Linked, htx] at hl
  exact Option.isSome_iff_exists.1 hl.symm

theorem Linked.same (hl : Linked s h) (hs : Same s s') : Linked s' h := by
  rw [Linked, hs.1]
  exact hl

theorem view_same (hs : Same s s') : view s' h = view s h := by
  rw [view, hs.2]
  rfl

/-- A statement goes where the session's transaction says. -/
theorem view_sent (hl : Linked s h) {via : Via} (hv : via.transaction = s.tx) (q : Text) (ok : Bool) :
    view s (h.sent via q ok) = (view s h).run q ok ∧ Linked s (h.sent via q ok) := by
  cases via with
  | conn c =>
    have hc := hl.none hv.symm
    refine ⟨?_, hl⟩
    simp only [view, History.sent, Direct.run, hc]
  | tx t =>
    obtain ⟨l, hc⟩ := hl.some hv.symm
    refine ⟨?_, ?_⟩
    · simp only [view, History.sent, Direct.run, hc, Option.getD_some]
    · rw [Linked, ← hv]
      rfl

theorem view_finish {l : List (Text × Bool)} (hc : h.current = some l) (o : Outcome)
    (hs : s'.state.autocommit = s.state.autocommit) : view s' (h.finish o) = (view s h).finish l o := by
  cases l with
  | nil => simp only [view, History.finish, hc, Direct.finish, if_true, hs]
  | cons x l => simp only [view, History.finish, hc, Direct.finish, reduceCtorEq, if_false, hs]

theorem History.finish_current (h : History) (o : Outcome) : (h.finish o).current = Option.none := by
  unfold History.finish
  split <;> first | assumption | rfl

theorem History.finish_turns (h : History) (o : Outcome) : (h.finish o).turns = h.turns := by
  unfold History.finish
  split <;> rfl

theorem History.sent_turns (h : History) (via : Via) (q : Text) (ok : Bool) : (h.sent via q ok).turns = h.turns := by
  cases via <;> rfl

/-- With no transaction open, one is begun. -/
theorem History.start_of_none (hc : h.current = none) : h.start = { h with current := Option.some [] } := by
  simp only [History.start, History.finish, hc]

/-- A transaction that was begun and undone leaves no trace. -/
theorem History.start_finish (hc : h.current = none) (o : Outcome) : h.start.finish o = h := by
  rw [History.start_of_none hc]
  obtain ⟨turns, current, past⟩ := h
  simp only at hc
  subst hc
  rfl

end View

/-! ## Programs and the history -/

/-- What the replies say of statements: they belong where they were prepared, or to the transaction they
were bound to. -/
def bound : (o : Op) → Res o → Prop
  | .prepare via q, .ok st => st = ⟨via.connection, via.transaction, q⟩
  | .txStmt t st, r => r = ⟨t.conn, some t, st.query⟩
  | _, _ => True

/-- The environment of the history. -/
def working : Env ClientSession Op Res Note History := account History.next fun _ => bound

/-- What holds after a program, whatever is replied. -/
def Works {α : Type} (p : M α) (Q : α → ClientSession → History → Prop) (s : ClientSession) (h : History) : Prop :=
  p.wp working (fun _ _ _ => True) Q s h

section Works

variable {α β : Type} {Q : α → ClientSession → History → Prop} {s : ClientSession} {h : History}

theorem works_bind {p : M β} {f : β → M α} (hp : Works p (fun b => Works (f b) Q) s h) : Works (p >>= f) Q s h :=
  (Prog.wp_bind p f Q s h).2 hp

theorem works_call {o : Op} {Q : Res o → ClientSession → History → Prop} (hQ : ∀ r, bound o r → Q r s (h.reply s o r)) :
    Works (call o) Q s h := by
  refine ⟨trivial, ?_⟩
  rintro r _ ⟨hr, rfl⟩
  exact hQ r hr

theorem works_then {o : Op} {f : Res o → M α} (hQ : ∀ r, bound o r → Works (f r) Q s (h.reply s o r)) :
    Works (call o >>= f) Q s h := works_bind (works_call hQ)

theorem works_read {f : ClientSession → M α} (hf : Works (f s) Q s h) : Works (Prog.read >>= f) Q s h := hf

theorem works_modify {g : ClientSession → ClientSession} {f : Unit → M α} (hf : Works (f ()) Q (g s) h) :
    Works (Prog.modify g >>= f) Q s h := hf

theorem works_tell {n : Note} {f : Unit → M α} (hf : Works (f ()) Q s h) : Works (Prog.tell n >>= f) Q s h := hf

theorem works_panic : Works panic Q s h := ⟨trivial, fun r => r.elim⟩

/-- The calls that leave the history as it is: they run no statement for the client, begin or end no transaction
and write no error. -/
def Call.idles : Call → Bool
  | .read | .error | .run | .rows | .start | .commit | .rollback => false
  | _ => true

/-- A footprint without anything the history records. -/
def still (cs : List Call) (ps : List Part) : Bool := cs.all Call.idles && !ps.contains .tx && !ps.contains .mode

/-- A footprint with at most errors that are written. -/
def replies (cs : List Call) (ps : List Part) : Bool := still (cs.filter (· ≠ .error)) ps

theorem Touches.sameTx {ps : List Part} {s s' : ClientSession} (h : Touches ps s s')
    (hp : (!ps.contains .tx && !ps.contains .mode) = true) : Same s s' := by
  obtain ⟨ht, hm⟩ := Bool.and_eq_true_iff.1 hp
  exact ⟨h.same .tx (Bool.not_eq_eq_eq_not.1 ht), h.same .mode (Bool.not_eq_eq_eq_not.1 hm)⟩

theorem History.reply_idles (h : History) (s : ClientSession) {o : Op} (ho : o.kind.idles = true) (r : Res o) :
    h.reply s o r = h := by
  cases o with
  | writeMessage sequence p =>
    have hp : p.kind ≠ .error := by
      intro hp
      have : p.kind.idles = true := ho
      rw [hp] at this
      cases this
    exact if_neg hp
  | _ => first | rfl | cases ho

/-- A still program leaves the history, the transaction and the mode. -/
theorem Does.still {cs : List Call} {ps : List Part} {p : M α} (hp : Does cs ps p) (hq : still cs ps = true)
    (hQ : ∀ a s', Same s s' → Q a s' h) : Works p Q s h := by
  obtain ⟨⟨hc, ht⟩, hm⟩ : (cs.all Call.idles = true ∧ (!ps.contains .tx) = true) ∧ (!ps.contains .mode) = true := by
    simpa only [Gateway.still, Bool.and_eq_true] using hq
  refine (hp.acts s).wp (J := (· = h)) ?_ (fun _ _ _ _ hj => hj) rfl ?_
  · rintro s' _ o - rfl ho
    refine ⟨trivial, ?_⟩
    rintro r _ ⟨-, rfl⟩
    exact History.reply_idles _ s' (List.all_eq_true.1 hc _ (List.contains_iff_mem.1 ho.kind)) r
  · rintro a s' _ hs rfl
    exact hQ a s' (hs.sameTx (Bool.and_eq_true_iff.2 ⟨ht, hm⟩))

theorem Does.stillThen {cs : List Call} {ps : List Part} {p : M β} {f : β → M α} (hp : Does cs ps p)
    (hq : Gateway.still cs ps = true) (hf : ∀ a s', Same s s' → Works (f a) Q s' h) : Works (p >>= f) Q s h :=
  works_bind (hp.still hq hf)

/-- `finishTransaction` drops the transaction. -/
theorem works_finishTransaction {f : Unit → M α} (hf : ∀ s', s'.tx = none → s'.state.autocommit = s.state.autocommit →
    Works (f ()) Q s' h) : Works (finishTransaction >>= f) Q s h := by
  refine works_bind (works_modify (finish_does.still rfl fun _ s' hs => ?_))
  exact hf s' hs.1 hs.2

theorem works_applyState {kind : StatementKind} {f : Option GoError → M α}
    (hf : Works (f (s.state.apply kind).2) Q { s with state := (s.state.apply kind).1 } h) :
    Works (applyState kind >>= f) Q s h := hf

theorem apply_autocommit (l : Logical) (kind : StatementKind) (hoff : kind ≠ .autocommitOff) (hon : kind ≠ .autocommitOn) :
    (l.apply kind).1.autocommit = l.autocommit := by
  cases kind <;> first | contradiction | rfl | (simp only [Logical.apply]; split <;> rfl)

end Works

/-! ## Commands -/

/-- The command is being answered: the session did the step it does with it if the answer is an error, or is not. -/
structure Pends (c : Command) (d : Direct) (past : List Turn) (refused : Bool) (s : ClientSession) (h : History) : Prop where
  turns : h.turns = ⟨c, false⟩ :: past
  linked : Linked s h
  step : d.Step c refused (view s h)

/-- The command was served: the session did one step with it. -/
structure Served (c : Command) (d : Direct) (past : List Turn) (s : ClientSession) (h : History) : Prop where
  linked : Linked s h
  step : ∃ refused, h.turns = ⟨c, refused⟩ :: past ∧ d.Step c refused (view s h)

/-- The command was the last one. -/
structure Left (c : Command) (d : Direct) (past : List Turn) (s : ClientSession) (h : History) : Prop where
  linked : Linked s h
  last : ∃ refused, h.turns = ⟨c, refused⟩ :: past ∧ d.Last c refused (view s h)

/-- What a handler leaves: if it returns an error, the session ends. -/
def Serves (c : Command) (d : Direct) (past : List Turn) : Except GoError Unit → ClientSession → History → Prop
  | .ok _ => Served c d past
  | .error _ => Left c d past

/-- The session may run the statement of the command, or refuse it as things are. -/
structure Poised (c : Command) (d : Direct) (past : List Turn) (s : ClientSession) (h : History) : Prop
    extends Pends c d past true s h where
  runs : ∀ q ok refused, c.runs? = some q → (ok = false → refused = true) → d.Step c refused ((view s h).run q ok)

section Commands

variable {svc : Service} {c : Command} {d : Direct} {past : List Turn} {b : Bool} {s s' : ClientSession} {h : History}

theorem Served.serves (hv : Served c d past s h) (r : Except GoError Unit) : Serves c d past r s h := by
  cases r with
  | ok u => exact hv
  | error e =>
    obtain ⟨hl, refused, ht, hs⟩ := hv
    exact ⟨hl, refused, ht, .step hs⟩

theorem Served.same (hv : Served c d past s h) (hs : Same s s') : Served c d past s' h :=
  ⟨hv.linked.same hs, by rw [view_same hs]; exact hv.step⟩

theorem Pends.same (hv : Pends c d past b s h) (hs : Same s s') : Pends c d past b s' h :=
  ⟨hv.turns, hv.linked.same hs, by rw [view_same hs]; exact hv.step⟩

theorem Poised.same (hp : Poised c d past s h) (hs : Same s s') : Poised c d past s' h :=
  ⟨hp.toPends.same hs, by rw [view_same hs]; exact hp.runs⟩

/-- What follows the answer. -/
theorem Served.still (hv : Served c d past s h) {cs : List Call} {ps : List Part} {p : M (Except GoError Unit)}
    (hp : Does cs ps p) (hq : still cs ps = true) : Works p (Serves c d past) s h :=
  hp.still hq fun r _ hs => (hv.same hs).serves r

/-- The answer is no error. -/
theorem Pends.accept (hv : Pends c d past false s h) {cs : List Call} {ps : List Part} {p : M (Except GoError Unit)}
    (hp : Does cs ps p) (hq : still cs ps = true) : Works p (Serves c d past) s h :=
  Served.still ⟨hv.linked, false, hv.turns, hv.step⟩ hp hq

theorem Pends.refused (hv : Pends c d past true s h) : Served c d past s h.refuse := by
  have hr : h.refuse = { h with turns := ⟨c, true⟩ :: past } := by rw [History.refuse, hv.turns]
  rw [hr]
  exact ⟨hv.linked, true, rfl, hv.step⟩

/-- The answer is an error. -/
theorem Pends.writesError (hv : Pends c d past true s h) {sequence : UInt8} {code : Nat} {state message : Bytes}
    {Q : Except GoError Unit → ClientSession → History → Prop} (hQ : ∀ r h', Served c d past s h' → Q r s h') :
    Works (writeError sequence code state message) Q s h := by
  refine works_then fun r _ => ?_
  cases r with
  | ok next => exact hQ _ _ hv.refused
  | error e => exact hQ _ _ hv.refused

theorem Pends.refuse (hv : Pends c d past true s h) {sequence : UInt8} {code : Nat} {state message : Bytes} :
    Works (writeError sequence code state message) (Serves c d past) s h := hv.writesError fun r _ hs => hs.serves r

theorem Pends.fail (hv : Pends c d past true s h) {e : GoError} : Works (writeSQLError e) (Serves c d past) s h :=
  works_tell hv.refuse

/-- The answer may be an error or not. -/
theorem works_replies (hv : ∀ b, Pends c d past b s h) {cs : List Call} {ps : List Part} {α : Type} {p : M α}
    {Q : α → ClientSession → History → Prop} (hp : Does cs ps p) (hq : replies cs ps = true)
    (hQ : ∀ r s' h', Same s s' → Served c d past s' h' → Q r s' h') : Works p Q s h := by
  obtain ⟨⟨hc, ht⟩, hm⟩ : ((cs.filter (· ≠ .error)).all Call.idles = true ∧ (!ps.contains .tx) = true) ∧
      (!ps.contains .mode) = true := by
    simpa only [replies, Gateway.still, Bool.and_eq_true] using hq
  have hreply : ∀ {h' : History} {refused : Bool}, h' = { h with turns := ⟨c, refused⟩ :: past } →
      ∃ refused', h'.refuse = { h with turns := ⟨c, refused'⟩ :: past } := by
    rintro _ refused rfl
    exact ⟨true, rfl⟩
  -- all that is added to the history on the way is whether the command was refused
  refine (hp.acts s).wp (J := fun h' => ∃ refused, h' = { h with turns := ⟨c, refused⟩ :: past }) ?_
    (fun _ _ _ _ hj => hj) ⟨false, by rw [← (hv true).turns]⟩ ?_
  · rintro s' h' o - ⟨refused, hh⟩ ho
    refine ⟨trivial, ?_⟩
    rintro r _ ⟨-, rfl⟩
    show ∃ refused', h'.reply s' o r = _
    by_cases herror : o.kind = .error
    · cases o with
      | writeMessage sequence p =>
        rw [History.reply, if_pos (show p.kind = .error from herror)]
        exact hreply hh
      | _ => cases herror
    · have hmem : o.kind ∈ cs.filter (· ≠ .error) :=
        List.mem_filter.2 ⟨List.contains_iff_mem.1 ho.kind, decide_eq_true herror⟩
      rw [h'.reply_idles s' (List.all_eq_true.1 hc _ hmem)]
      exact ⟨refused, hh⟩
  · rintro r s' _ hs ⟨refused, rfl⟩
    have hsame := hs.sameTx (Bool.and_eq_true_iff.2 ⟨ht, hm⟩)
    refine hQ r s' _ hsame (Served.same ⟨(hv true).linked, refused, rfl, (hv refused).step⟩ hsame)

/-- The statement of the command was sent. -/
theorem Poised.sent (hp : Poised c d past s h) {q : Text} (hq : c.runs? = some q) (via : Via)
    (hv : via.transaction = s.tx) (ok refused : Bool) (hok : ok = false → refused = true) :
    Pends c d past refused s (h.sent via q ok) := by
  obtain ⟨hview, hlinked⟩ := view_sent hp.linked hv q ok
  exact ⟨(h.sent_turns _ _ _).trans hp.turns, hlinked, by rw [hview]; exact hp.runs q ok refused hq hok⟩

/-- Nothing was done. -/
theorem pends_nothing (ht : h.turns = ⟨c, false⟩ :: past) (hl : Linked s h) (hends : c.ends = true → s.tx = none)
    (hswitch : c.switches = false) (hasks : b = true ∨ c.asks = false) : Pends c (view s h) past b s h :=
  ⟨ht, hl, .nothing (fun he => hl.none (hends he)) hswitch hasks⟩

/-- The transaction has ended with a known outcome. -/
theorem finished_linked (o : Outcome) (htx : s.tx = none) : Linked s (h.finish o) := by
  rw [Linked, htx, h.finish_current]
  rfl

/-! ## Transactions -/

theorem works_begin {Q : Except GoError Unit → ClientSession → History → Prop} (htx : s.tx = none) (hl : Linked s h)
    (herror : ∀ e s', Same s s' → Q (.error e) s' h)
    (hok : ∀ s', s'.tx.isSome → s'.state.autocommit = s.state.autocommit → Q (.ok ()) s' { h with current := some [] }) :
    Works («begin» svc) Q s h := by
  have hc := hl.none htx
  -- whatever was begun is undone, and the pin it was given is released
  have hundo : ∀ {created e s₁}, Same s s₁ →
      Works (call .cancelTx >>= fun _ => undoPin created >>= fun _ => pure (.error e)) Q s₁ h := by
    intro created e s₁ h₁
    refine works_then fun _ _ => (undoPin_does created).stillThen rfl fun _ s₂ h₂ => herror e s₂ (h₁.trans h₂)
  refine (ensurePinnedConnection_does _).stillThen rfl fun r s₁ h₁ => ?_
  cases r with
  | error e => exact herror e s₁ h₁
  | ok created =>
    refine works_read ?_
    split
    · exact works_panic
    · refine works_then fun r _ => ?_
      cases r with
      | error e => exact hundo h₁
      | ok tx =>
        refine works_read ?_
        have hauto := apply_autocommit s₁.state .begin (by decide) (by decide)
        split
        · rename_i state e hstate
          rw [hstate] at hauto
          refine works_modify (works_then fun r _ => ?_)
          show Works _ Q _ (h.start.finish (if inDoubt r then .unknown else .undone))
          rw [History.start_finish hc]
          exact hundo ⟨h₁.1, hauto.trans h₁.2⟩
        · rename_i state hstate
          rw [hstate] at hauto
          show Q (.ok ()) _ h.start
          rw [History.start_of_none hc]
          exact hok _ rfl (hauto.trans h₁.2)

/-- A transaction is begun for the command if the mode asks for it. -/
theorem works_implicit {k : Except GoError Unit → M (Except GoError Unit)} (ht : h.turns = ⟨c, false⟩ :: past)
    (hb : c.begins = true) (hddl : ∀ st, c = .query st → st.kind ≠ .ddl) (hl : Linked s h)
    (herror : ∀ e, k (.error e) = writeSQLError e)
    (hok : ∀ s' h', s'.tx = s.tx ∨ s.tx = none → Poised c (view s h) past s' h' →
      Works (k (.ok ())) (Serves c (view s h) past) s' h') :
    Works (ensureImplicitTransaction svc >>= k) (Serves c (view s h) past) s h := by
  have hends : c.ends = false := by
    cases c with
    | query st =>
      simp only [Command.begins, Bool.or_eq_true, decide_eq_true_eq] at hb
      rcases hb with hb | hb <;> simp [Command.ends, hb]
    | _ => rfl
  have hswitch : c.switches = false := by
    cases c with
    | query st =>
      simp only [Command.begins, Bool.or_eq_true, decide_eq_true_eq] at hb
      rcases hb with hb | hb <;> simp [Command.switches, hb]
    | _ => rfl
  have hnothing : Pends c (view s h) past true s h :=
    pends_nothing ht hl (by rw [hends]; rintro ⟨⟩) hswitch (.inl rfl)
  refine works_bind (works_read ?_)
  split
  · rename_i hmode
    simp only [Bool.and_eq_true, Bool.not_eq_true', Option.isNone_iff_eq_none] at hmode
    obtain ⟨hauto, htx⟩ := hmode
    have hc := hl.none htx
    refine works_begin htx hl (fun e s' hs => ?_) fun s' htx' hauto' => ?_
    · rw [herror]
      exact (hnothing.same hs).fail
    have hview : view s' { h with current := some [] } = (view s h).opened := by
      rw [view, hauto']
      rfl
    refine hok s' _ (.inr htx) ⟨⟨ht, htx', ?_⟩, fun q ok refused hq hr => ?_⟩
    · rw [hview]
      exact .begins hb hauto hc
    · rw [hview]
      exact .beginsAndRuns hb hq hauto hc hr
  · rename_i hmode
    refine hok s h (.inl rfl) ⟨hnothing, fun q ok refused hq hr => .runs hq ?_ hr⟩
    -- a transaction is open, or the statement commits by itself
    show Direct.Admits (view s h) c
    unfold Direct.Admits
    split
    · exact hddl
    · rename_i hc
      have htx : s.tx = none := by
        have : s.tx.isSome = false := hl.trans (by rw [show h.current = none from hc]; rfl)
        exact Option.not_isSome_iff_eq_none.1 (by rw [this]; exact Bool.false_ne_true)
      right
      refine ⟨?_, hb⟩
      show s.state.autocommit = true
      simpa [htx] using hmode

/-- The end of a session whose commit failed. -/
theorem works_failCommit {st : Statement} {l : List (Text × Bool)} {e : GoError}
    (ht : h.turns = ⟨.query st, false⟩ :: past) (hk : st.kind = .commit ∨ st.kind = .autocommitOn)
    (hc : h.current = some l) :
    Works (finishTransaction >>= fun _ => poison >>= fun _ => pure (.error e))
      (Serves (.query st) (view s h) past) s (h.finish .unknown) := by
  refine works_finishTransaction fun s' htx hauto => works_modify ?_
  refine ⟨finished_linked _ htx, false, (h.finish_turns _).trans ht, ?_⟩
  have hview : view { s' with state := s'.state.poison } (h.finish .unknown) = (view s h).finish l .unknown :=
    view_finish hc _ hauto
  rw [hview]
  exact .lost hk hc

/-- The end of a transaction when none is open. -/
theorem works_unopened {st : Statement} (ht : h.turns = ⟨.query st, false⟩ :: past)
    (hk : st.kind = .commit ∨ st.kind = .rollback) (hl : Linked s h) (htx : s.tx = none) :
    Works (writeOK 0 0 0) (Serves (.query st) (view s h) past) s h := by
  have hnothing : Pends (.query st) (view s h) past false s h := by
    refine pends_nothing ht hl (fun _ => htx) ?_ (.inr ?_)
    · rcases hk with hk | hk <;> simp [Command.switches, hk]
    · rcases hk with hk | hk <;> simp [Command.asks, Command.runs?, hk]
  exact hnothing.accept (writeOK_does 0 0 0) rfl

theorem works_commit {st : Statement} (ht : h.turns = ⟨.query st, false⟩ :: past) (hk : st.kind = .commit)
    (hl : Linked s h) : Works commit (Serves (.query st) (view s h) past) s h := by
  refine works_read ?_
  split
  · rename_i htx
    exact works_unopened ht (.inl hk) hl htx
  · rename_i tx htx
    obtain ⟨l, hc⟩ := hl.some htx
    refine works_then fun r _ => ?_
    cases r with
    | error e => exact works_failCommit ht (.inl hk) hc
    | ok u =>
      refine works_applyState ?_
      have hauto := apply_autocommit s.state .commit (by decide) (by decide)
      refine works_tell (works_finishTransaction fun s' htx' hs => ?_)
      have hdone : Pends (.query st) (view s h) past false s' (h.finish .committed) := by
        refine ⟨(h.finish_turns _).trans ht, finished_linked _ htx', ?_⟩
        rw [view_finish hc _ (hs.trans hauto)]
        exact .commits hk hc
      refine hdone.accept (does_then rfl rfl fun r => (?_ : Does [.hook, .ok] [] _)) rfl
      cases r with
      | error e => exact does_pure _
      | ok u => exact (writeOK_does 0 0 0).mono rfl rfl

theorem works_rollback {st : Statement} (ht : h.turns = ⟨.query st, false⟩ :: past) (hk : st.kind = .rollback)
    (hl : Linked s h) : Works rollback (Serves (.query st) (view s h) past) s h := by
  refine works_read ?_
  split
  · rename_i htx
    exact works_unopened ht (.inr hk) hl htx
  · rename_i tx htx
    obtain ⟨l, hc⟩ := hl.some htx
    have hdone : ∀ (b : Bool) s', s'.tx = none → s'.state.autocommit = s.state.autocommit →
        Pends (.query st) (view s h) past b s' (h.finish (if b then .unknown else .undone)) := by
      intro b s' htx' hs
      refine ⟨(h.finish_turns _).trans ht, finished_linked _ htx', ?_⟩
      rw [view_finish hc _ hs]
      exact .rollsBack hk hc
    have hrolled : Works rolledBack (Serves (.query st) (view s h) past) s (h.finish .undone) := by
      refine works_applyState ?_
      have hauto := apply_autocommit s.state .rollback (by decide) (by decide)
      refine works_finishTransaction fun s' htx' hs => ?_
      exact (hdone false s' htx' (hs.trans hauto)).accept (writeOK_does 0 0 0) rfl
    refine works_then fun r _ => ?_
    cases r with
    | ok u => exact hrolled
    | error e =>
      show Works _ _ s (h.finish (if inDoubt (.error e) then .unknown else .undone))
      simp only
      split
      · rename_i hdoubt
        rw [show inDoubt (.error e) = true from decide_eq_true hdoubt]
        refine works_finishTransaction fun s' htx' hs => works_modify ?_
        exact (hdone true { s' with state := s'.state.poison } htx' hs).fail
      · rename_i hdoubt
        rw [show inDoubt (.error e) = false from decide_eq_false hdoubt]
        exact hrolled

theorem works_autocommitOn {st : Statement} (ht : h.turns = ⟨.query st, false⟩ :: past) (hk : st.kind = .autocommitOn)
    (hl : Linked s h) : Works autocommitOn (Serves (.query st) (view s h) past) s h := by
  -- the mode is set by the logical state, whatever comes before
  have henable : ∀ {s' h'}, (∀ s'', s''.tx = s'.tx → s''.state.autocommit = true →
      Pends (.query st) (view s h) past false s'' h') → Works enableAutocommit (Serves (.query st) (view s h) past) s' h' :=
    fun {s'} h' hdone =>
      works_applyState ((hdone { s' with state := (s'.state.apply .autocommitOn).1 } rfl rfl).accept (writeOK_does 0 0 0) rfl)
  refine works_read ?_
  split
  · rename_i htx
    refine henable fun s'' htx'' hs => ⟨ht, by rw [Linked, htx'']; exact hl, ?_⟩
    rw [show view s'' h = { view s h with autocommit := true } by simp only [view, hs]]
    exact .turnsOn hk (hl.none htx)
  · rename_i tx htx
    obtain ⟨l, hc⟩ := hl.some htx
    refine works_then fun r _ => ?_
    cases r with
    | error e => exact works_failCommit ht (.inr hk) hc
    | ok u =>
      show Works _ _ s (h.finish .committed)
      refine works_tell (works_finishTransaction fun s' htx' hauto => works_then fun r _ => ?_)
      show Works _ _ s' (h.finish .committed)
      cases r with
      | error e =>
        refine ⟨finished_linked _ htx', false, (h.finish_turns _).trans ht, ?_⟩
        rw [view_finish hc _ hauto]
        exact .committed hk hc
      | ok u =>
        refine henable fun s'' htx'' hs => ⟨(h.finish_turns _).trans ht, finished_linked _ (htx''.trans htx'), ?_⟩
        have hview : view s (h.finish .committed) = (view s h).finish l .committed := view_finish hc _ rfl
        rw [show view s'' (h.finish .committed) = { view s (h.finish .committed) with autocommit := true } by
          simp only [view, hs], hview]
        exact .commitsAndTurnsOn hk hc

/-! ## Statements -/

/-- A statement and its answer. -/
theorem works_execReply {via : Via} {q : Text} {Q : Except GoError Unit → ClientSession → History → Prop}
    (hd : ∀ ok b, (ok = false → b = true) → Pends c d past b s (h.sent via q ok))
    (hQ : ∀ r s' h', Same s s' → Served c d past s' h' → Q r s' h') :
    Works (execOn via q) (fun x => Works (replyResult x) Q) s h := by
  refine works_then fun r _ => ?_
  cases r with
  | error e => exact works_tell ((hd false true fun _ => rfl).writesError fun r h' => hQ r s h' (.refl s))
  | ok result =>
    have hany : ∀ b, Pends c d past b s (h.sent via q true) := fun b => hd true b (by rintro ⟨⟩)
    refine (readWarningCount_does via).stillThen rfl fun r s' hs => ?_
    have hlater : ∀ b, Pends c d past b s' (h.sent via q true) := fun b => (hany b).same hs
    have hreply : ∀ x, Works (replyResult x) Q s' (h.sent via q true) := fun x =>
      works_replies hlater (replyResult_does x) rfl fun r s'' h' hs' => hQ r s'' h' (hs.trans hs')
    cases r with
    | error e => exact hreply _
    | ok warnings => exact hreply _

/-- A statement that is refused for want of a connection is not sent. -/
theorem works_withConnection {q : Text} {body : Conn → M (Except GoError Unit)} (hp : Poised c d past s h)
    (hbody : ∀ connection s', Same s s' → Works (body connection) (Serves c d past) s' h) :
    Works (withConnection svc q body) (Serves c d past) s h := by
  refine (acquire_does _).stillThen rfl fun r s₁ h₁ => ?_
  cases r with
  | error e => exact (hp.same h₁).fail
  | ok u =>
    refine checkout_does.stillThen rfl fun r s₂ h₂ => ?_
    cases r with
    | error e =>
      refine works_bind (works_tell (((hp.same h₁).same h₂).writesError fun r h' hs => ?_))
      exact hs.still (does_then rfl rfl fun _ => does_pure r : Does [.release] [] _) rfl
    | ok connection => exact hbody connection s₂ (h₁.trans h₂)

theorem works_exec {q : Text} {transactional : Bool} (hp : Poised c d past s h) (hq : c.runs? = some q)
    (ht : transactional = s.tx.isSome) : Works (exec svc q transactional) (Serves c d past) s h := by
  cases transactional with
  | true =>
    refine works_read ?_
    split
    · exact works_panic
    · rename_i tx htx
      exact works_bind (works_execReply (hp.sent hq (.tx tx) htx.symm) fun r _ _ _ hs => hs.serves r)
  | false =>
    refine works_withConnection hp fun connection s' hs => ?_
    have htx : s'.tx = none := by
      rw [hs.1, ← Option.not_isSome_iff_eq_none, ← ht]
      exact Bool.false_ne_true
    have hrun := works_execReply ((hp.same hs).sent hq (.conn connection) htx.symm) (Q := fun r => Works
      (do call (.closeConn connection); call .releaseAdmission; return r) (Serves c d past)) fun r s' h' _ hs =>
        hs.still (does_then rfl rfl fun _ => does_then rfl rfl fun _ => does_pure r : Does [.close, .release] [] _) rfl
    exact works_bind (Prog.wp_mono hrun fun x s' h' hx => works_bind hx)

theorem works_rowsOn {via : Via} {q : Text} {Q : Except GoError Unit → ClientSession → History → Prop}
    (hd : ∀ ok b, (ok = false → b = true) → Pends c d past b s (h.sent via q ok))
    (hQ : ∀ r s' h', Served c d past s' h' → Q r s' h') : Works (rowsOn svc via q) Q s h := by
  refine works_then fun r _ => ?_
  cases r with
  | error e => exact works_tell ((hd false true fun _ => rfl).writesError fun r h' => hQ r s h')
  | ok rows =>
    refine works_replies (fun b => hd true b (by rintro ⟨⟩)) (sendRows_does encodeText_row (does_pure via) rows) rfl ?_
    exact fun r s' h' _ => hQ r s' h'

theorem works_rows {q : Text} (hp : Poised c d past s h) (hq : c.runs? = some q) :
    Works (rows svc q) (Serves c d past) s h := by
  refine works_read ?_
  split
  · rename_i tx htx
    exact works_rowsOn (hp.sent hq (.tx tx) htx.symm) fun r _ _ hs => hs.serves r
  · rename_i htx
    refine works_withConnection hp fun connection s' hs => ?_
    refine works_bind (works_rowsOn ((hp.same hs).sent hq _ (hs.1.trans htx).symm) fun r s' h' hs => ?_)
    exact hs.still (does_then rfl rfl fun _ => does_then rfl rfl fun _ => does_pure r : Does [.release, .close] [] _) rfl

/-- A statement that is run as things are. -/
theorem poised_now (ht : h.turns = ⟨c, false⟩ :: past) (hl : Linked s h) (hends : c.ends = false)
    (hswitch : c.switches = false) (ha : (view s h).Admits c) : Poised c (view s h) past s h :=
  ⟨pends_nothing ht hl (by rw [hends]; rintro ⟨⟩) hswitch (.inl rfl), fun _ _ _ hq hr => .runs hq ha hr⟩

theorem works_query (q : Text) (ht : h.turns = ⟨.query (classifySQL q), false⟩ :: past) (hl : Linked s h) :
    Works (query svc q) (Serves (.query (classifySQL q)) (view s h) past) s h := by
  generalize hst : classifySQL q = st at ht
  have hnothing : ∀ {b}, st.kind ∉ [.commit, .rollback, .autocommitOn, .autocommitOff] →
      (b = true ∨ (Command.query st).asks = false) → Pends (.query st) (view s h) past b s h := by
    simp only [List.mem_cons, List.not_mem_nil, or_false, not_or]
    rintro b ⟨hc, hr, hon, hoff⟩ hb
    refine pends_nothing ht hl ?_ (by simp [Command.switches, hon, hoff]) hb
    simp [Command.ends, hc, hr, hon]
  -- statements that the database is not asked for
  have hlocal : st.kind ∈ [.setNames, .useDatabase, .warningCount] → ∀ b, Pends (.query st) (view s h) past b s h := by
    intro hk b
    simp only [List.mem_cons, List.not_mem_nil, or_false] at hk
    rcases hk with hk | hk | hk <;>
      exact hnothing (by simp [hk]) (.inr (by simp [Command.asks, Command.runs?, hk]))
  unfold query
  simp only [hst]
  split
  case h_1 hk => exact (hnothing (by simp [hk]) (.inl rfl)).refuse
  case h_2 hk => exact works_tell (hnothing (by simp [hk]) (.inl rfl)).refuse
  case h_3 hk =>
    have hn : Pends (.query st) (view s h) past true s h := hnothing (by simp [hk]) (.inl rfl)
    refine works_read ?_
    split
    · exact hn.refuse
    · rename_i htx
      have htx := Option.not_isSome_iff_eq_none.1 htx
      refine works_bind (works_begin htx hl (fun e s' hs => (hn.same hs).fail) fun s' htx' hauto => ?_)
      have hview : view s' { h with current := some [] } = (view s h).opened := by
        rw [view, hauto]
        rfl
      have hv : Pends (.query st) (view s h) past false s' { h with current := some [] } :=
        ⟨ht, htx', by rw [hview]; exact .opens hk (hl.none htx)⟩
      exact hv.accept (writeOK_does 0 0 0) rfl
  case h_4 hk => exact works_commit ht hk hl
  case h_5 hk => exact works_rollback ht hk hl
  case h_6 hk =>
    have hv : Pends (.query st) (view s h) past false { s with state := (s.state.apply .autocommitOff).1 } h :=
      ⟨ht, hl, .turnsOff hk⟩
    exact works_applyState (hv.accept (writeOK_does 0 0 0) rfl)
  case h_7 hk => exact works_autocommitOn ht hk hl
  case h_8 hk =>
    have hs : Same s { s with state := (s.state.apply .setNames).1 } := ⟨rfl, rfl⟩
    exact works_applyState (((hlocal (by simp [hk]) false).same hs).accept (writeOK_does 0 0 0) rfl)
  case h_9 hk =>
    split
    · exact works_replies (hlocal (by simp [hk])) (initDatabase_does _) rfl fun r _ _ _ hs => hs.serves r
    · exact (hlocal (by simp [hk]) true).refuse
  case h_10 hk => exact (hlocal (by simp [hk]) false).accept (warningCount_does svc) rfl
  case h_11 hk =>
    -- a savepoint is applied to the logical state, and sent if there is a transaction
    have hauto := apply_autocommit s.state .savepoint (by decide) (by decide)
    have hs : Same s { s with state := (s.state.apply .savepoint).1 } := ⟨rfl, hauto⟩
    refine works_applyState (works_read ?_)
    split
    · exact ((hnothing (by simp [hk]) (.inl rfl)).same hs).refuse
    · rename_i htx
      simp only [Bool.or_eq_true, not_or, Option.isNone_iff_eq_none] at htx
      obtain ⟨t, ht'⟩ := Option.ne_none_iff_exists'.1 htx.2
      obtain ⟨l, hl'⟩ := hl.some ht'
      refine works_exec ((poised_now ht hl (by simp [Command.ends, hk]) (by simp [Command.switches, hk]) ?_).same hs)
        (by simp [Command.runs?, hk]) (by show true = s.tx.isSome; rw [ht']; rfl)
      rw [Direct.Admits, show (view s h).current = some l from hl']
      rintro _ ⟨⟩
      simp [hk]
  case h_12 hk =>
    refine works_read ?_
    split
    · exact (hnothing (by simp [hk]) (.inl rfl)).refuse
    · rename_i htx
      have htx := Option.not_isSome_iff_eq_none.1 htx
      refine works_exec (poised_now ht hl (by simp [Command.ends, hk]) (by simp [Command.switches, hk]) ?_)
        (by simp [Command.runs?, hk]) (by rw [htx]; rfl)
      rw [Direct.Admits, show (view s h).current = none from hl.none htx]
      exact .inl ⟨st, rfl, hk⟩
  case h_13 hk =>
    exact works_implicit ht (by simp [Command.begins, hk]) (by rintro _ ⟨⟩; simp [hk]) hl (fun _ => rfl)
      fun s' h' _ hp => works_read (works_exec hp (by simp [Command.runs?, hk]) rfl)
  case h_14 hk =>
    exact works_implicit ht (by simp [Command.begins, hk]) (by rintro _ ⟨⟩; simp [hk]) hl (fun _ => rfl)
      fun s' h' _ hp => works_rows hp (by simp [Command.runs?, hk])

end Commands

end Accelerator.Gateway
