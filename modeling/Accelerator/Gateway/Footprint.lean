/-
The footprints of the handlers: the kinds of calls each of them makes and the parts of the session it changes,
whatever is replied. Every handler is walked through once here. That it says nothing to the client, runs no
statement, keeps the transaction or tends the handles is read off its footprint where it is needed.
-/
import Accelerator.Gateway.Ledger

namespace Accelerator.Gateway

open Interact Strings Engine Upstream Session

/-! ## Kinds of calls -/

inductive Call where
  -- the client: a command is read; an OK packet, an error or another packet is written
  | read | ok | error | packet
  -- the steps of `acquire`, and the release
  | admission | release
  -- the pool, and the reset of its connections
  | connect | close | discard | reset
  -- statements
  | run | rows | warnings | prepare | bind | closeStatement
  -- transactions
  | start | commit | rollback | cancel
  | hook | panic
  -- a note that changes the number of pins or the commit generation
  | count
  deriving DecidableEq

def Packet.kind : Packet → Call
  | .ok .. => .ok
  | .err .. => .error
  | _ => .packet

def Op.kind : Op → Call
  | .readMessage => .read
  | .writeMessage _ p => p.kind
  | .tryAdmission | .tryQueue | .addQueuedBytes _ | .addWaiting _ | .awaitAdmission | .leaveQueue => .admission
  | .releaseAdmission => .release
  | .databaseConn => .connect
  | .closeConn _ => .close
  | .discardConn _ => .discard
  | .resetExec .. | .querySession _ | .queryIsolation .. => .reset
  | .exec .. | .stmtExec .. => .run
  | .query .. | .stmtQuery .. => .rows
  | .queryWarnings _ => .warnings
  | .prepare .. => .prepare
  | .txStmt .. => .bind
  | .stmtClose _ => .closeStatement
  | .beginTx _ => .start
  | .commit _ => .commit
  | .rollback _ => .rollback
  | .cancelTx => .cancel
  | .beforeCommitResponse => .hook
  | .panic => .panic

/-- The status a call tells the client. -/
def Op.status? : Op → Option UInt16
  | .writeMessage _ p => p.status?
  | _ => none

/-- A call of one of the kinds, which tells the client no status but the session's. -/
structure Makes (cs : List Call) (s : ClientSession) (o : Op) : Prop where
  kind : cs.contains o.kind = true
  status : ∀ st, o.status? = some st → st = s.status

/-- The notes that a session's account counts. -/
def Note.counted : Note → Bool
  | .pinned _ | .commitGeneration => true
  | _ => false

/-- A note that is not counted, or may be. -/
def Tells (cs : List Call) (n : Note) : Prop := (!n.counted || cs.contains .count) = true

theorem Makes.mono {cs cs' : List Call} {s : ClientSession} {o : Op} (h : Makes cs s o)
    (hc : cs.all cs'.contains = true) : Makes cs' s o :=
  ⟨List.all_eq_true.1 hc _ (List.contains_iff_mem.1 h.kind), h.status⟩

theorem Tells.mono {cs cs' : List Call} {n : Note} (h : Tells cs n) (hc : cs.all cs'.contains = true) : Tells cs' n := by
  rcases Bool.or_eq_true_iff.1 h with hn | hm
  · exact Bool.or_eq_true_iff.2 (.inl hn)
  · exact Bool.or_eq_true_iff.2 (.inr (List.all_eq_true.1 hc _ (List.contains_iff_mem.1 hm)))

/-! ## Parts of the session -/

/-- The same handle, perhaps with another statement upstream. -/
def PreparedStatement.Rebinds (p p' : PreparedStatement) : Prop :=
  ∃ statement bound, p' = { p with statement := statement, transactionBound := bound }

theorem PreparedStatement.Rebinds.refl (p : PreparedStatement) : p.Rebinds p := ⟨p.statement, p.transactionBound, rfl⟩

theorem PreparedStatement.Rebinds.trans {p p' p'' : PreparedStatement} (h : p.Rebinds p') (h' : p'.Rebinds p'') :
    p.Rebinds p'' := by
  obtain ⟨statement, bound, rfl⟩ := h
  obtain ⟨statement', bound', rfl⟩ := h'
  exact ⟨statement', bound', rfl⟩

/-- The session has the handles of `s₀`, perhaps with other statements upstream. -/
structure Tended (s₀ s : ClientSession) : Prop where
  logical : s.state.prepared = s₀.state.prepared
  handles : ∀ id, Option.Rel PreparedStatement.Rebinds (s₀.prepared.lookup id) (s.prepared.lookup id)

section Tended

variable {s₀ s s' : ClientSession}

theorem Tended.refl (s : ClientSession) : Tended s s where
  logical := rfl
  handles id := by
    cases s.prepared.lookup id with
    | none => exact .none
    | some p => exact .some (.refl p)

theorem Tended.lookup (h : Tended s₀ s) {id : UInt32} {p' : PreparedStatement} (hp : s.prepared.lookup id = some p') :
    ∃ p, s₀.prepared.lookup id = some p ∧ p.Rebinds p' := by
  have hid := h.handles id
  rw [hp] at hid
  generalize s₀.prepared.lookup id = o at hid ⊢
  cases hid with
  | some hr => exact ⟨_, rfl, hr⟩

theorem Tended.trans (h : Tended s₀ s) (h' : Tended s s') : Tended s₀ s' where
  logical := h'.logical.trans h.logical
  handles id := by
    have hid := h.handles id
    have hid' := h'.handles id
    generalize s.prepared.lookup id = o at hid hid'
    generalize s₀.prepared.lookup id = o₀ at hid ⊢
    generalize s'.prepared.lookup id = o' at hid' ⊢
    cases hid with
    | none => cases hid'; exact .none
    | some hr => cases hid' with | some hr' => exact .some (hr.trans hr')

/-- A handle may be given another statement. -/
theorem Tended.insert (h : Tended s₀ s) {id : UInt32} {p p' : PreparedStatement} (hp : s₀.prepared.lookup id = some p)
    (hr : p.Rebinds p') : Tended s₀ { s with prepared := s.prepared.insert id p' } where
  logical := h.logical
  handles id' := by
    show Option.Rel _ _ ((s.prepared.insert id p').lookup id')
    by_cases hid : id' = id
    · subst hid
      rw [AList.lookup_insert, hp]
      exact .some hr
    · rw [AList.lookup_insert_ne hid]
      exact h.handles id'

end Tended

/-- What a handler may change: the pin, `txCancel`, the transaction, the autocommit mode, the logical state, the upstream
statements of the handles, the handles themselves, and the counter of identifiers. -/
inductive Part where
  | pin | cancel | tx | mode | logical | statements | handles | ids
  deriving DecidableEq

def Part.same (s s' : ClientSession) : Part → Prop
  | .pin => s'.pinnedConnection = s.pinnedConnection ∧ s'.pinnedRelease = s.pinnedRelease
  | .cancel => s'.txCancel = s.txCancel
  | .tx => s'.tx = s.tx
  | .mode => s'.state.autocommit = s.state.autocommit
  | .logical => s'.state = s.state
  | .statements => s'.prepared = s.prepared
  | .handles => Tended s s'
  | .ids => s'.nextPreparedID = s.nextPreparedID

/-- Nothing but these parts was changed. -/
def Touches (ps : List Part) (s s' : ClientSession) : Prop := ∀ p : Part, ps.contains p = true ∨ p.same s s'

section Touches

variable {ps ps' : List Part} {s₀ s s' : ClientSession}

theorem Touches.refl (ps : List Part) (s : ClientSession) : Touches ps s s := fun p => .inr <| by
  cases p with
  | pin => exact ⟨rfl, rfl⟩
  | handles => exact .refl s
  | _ => rfl

theorem Touches.trans (h : Touches ps s₀ s) (h' : Touches ps s s') : Touches ps s₀ s' := by
  intro p
  rcases h p with hp | hp
  · exact .inl hp
  · refine (h' p).imp_right fun hp' => ?_
    cases p with
    | pin => exact ⟨hp'.1.trans hp.1, hp'.2.trans hp.2⟩
    | handles => exact Tended.trans hp hp'
    | _ => exact Eq.trans hp' hp

theorem Touches.mono (h : Touches ps s s') (hp : ps.all ps'.contains = true) : Touches ps' s s' := fun p =>
  (h p).imp_left fun hm => List.all_eq_true.1 hp _ (List.contains_iff_mem.1 hm)

/-- A part that is not among them is as it was. -/
theorem Touches.same (h : Touches ps s s') (p : Part) (hp : ps.contains p = false) : p.same s s' :=
  (h p).resolve_left (by rw [hp]; exact Bool.false_ne_true)

theorem Touches.eq (h : Touches [] s s') : s' = s := by
  obtain ⟨hpin, hrelease⟩ := h.same .pin rfl
  have hcancel := h.same .cancel rfl
  have htx := h.same .tx rfl
  have hstate := h.same .logical rfl
  have hprepared := h.same .statements rfl
  have hids := h.same .ids rfl
  obtain ⟨state, tx, txCancel, pinnedConnection, pinnedRelease, prepared, nextPreparedID⟩ := s
  obtain ⟨state', tx', txCancel', pinnedConnection', pinnedRelease', prepared', nextPreparedID'⟩ := s'
  cases hpin
  cases hrelease
  cases hcancel
  cases htx
  cases hstate
  cases hprepared
  cases hids
  rfl

theorem touches_pin {c : Option Conn} {b : Bool} (h : ps.contains .pin = true) :
    Touches ps s { s with pinnedConnection := c, pinnedRelease := b } := fun p => by
  cases p with
  | pin => exact .inl h
  | handles => exact .inr ⟨rfl, (Tended.refl s).handles⟩
  | _ => exact .inr rfl

theorem touches_cancel {b : Bool} (h : ps.contains .cancel = true) : Touches ps s { s with txCancel := b } := fun p => by
  cases p with
  | cancel => exact .inl h
  | pin => exact .inr ⟨rfl, rfl⟩
  | handles => exact .inr ⟨rfl, (Tended.refl s).handles⟩
  | _ => exact .inr rfl

theorem touches_tx {t : Option Tx} (h : ps.contains .tx = true) : Touches ps s { s with tx := t } := fun p => by
  cases p with
  | tx => exact .inl h
  | pin => exact .inr ⟨rfl, rfl⟩
  | handles => exact .inr ⟨rfl, (Tended.refl s).handles⟩
  | _ => exact .inr rfl

theorem touches_state {state : Logical} (h : ps.contains .logical = true) (hp : state.prepared = s.state.prepared)
    (hm : ps.contains .mode = true ∨ state.autocommit = s.state.autocommit) : Touches ps s { s with state } := fun p => by
  cases p with
  | logical => exact .inl h
  | mode => exact hm
  | pin => exact .inr ⟨rfl, rfl⟩
  | handles => exact .inr ⟨hp, (Tended.refl s).handles⟩
  | _ => exact .inr rfl

theorem touches_prepared {m : AList fun _ : UInt32 => PreparedStatement} (h : ps.contains .statements = true)
    (h' : ps.contains .handles = true) : Touches ps s { s with prepared := m } := fun p => by
  cases p with
  | statements => exact .inl h
  | handles => exact .inl h'
  | pin => exact .inr ⟨rfl, rfl⟩
  | _ => exact .inr rfl

/-- A handle is given another statement. -/
theorem Touches.rebind (h : Touches ps s₀ s) (hps : ps.contains .statements = true) {id : UInt32}
    {p p' : PreparedStatement} (hp : s₀.prepared.lookup id = some p) (hr : p.Rebinds p') :
    Touches ps s₀ { s with prepared := s.prepared.insert id p' } := fun part => by
  cases part with
  | statements => exact .inl hps
  | handles => exact (h .handles).imp_right fun ht => ht.insert hp hr
  | _ => exact h _

end Touches

/-! ## Footprints -/

/-- Whatever is replied, the program makes calls of the kinds `cs` only, and changes only the parts `ps` of the
session. -/
def Does {α : Type} (cs : List Call) (ps : List Part) (p : M α) : Prop := ∀ s₀, p.Within (Makes cs) (Tells cs) (Touches ps s₀)

section Rules

variable {α β : Type} {cs cs' : List Call} {ps ps' : List Part}

theorem does_pure (a : α) : Does cs ps (pure a : M α) := fun _ => Prog.within_pure a

theorem does_call {o : Op} (hk : cs.contains o.kind = true) (hs : o.status? = none) : Does cs ps (call o) := fun _ =>
  Prog.within_perform fun _ _ => ⟨hk, fun st h => by rw [hs] at h; cases h⟩

theorem does_panic (h : cs.contains .panic = true) : Does cs ps (panic : M α) := fun _ _ hs =>
  ⟨⟨hs, h, fun _ h => by cases h⟩, fun r => r.elim⟩

theorem Does.bind {p : M α} {f : α → M β} (hp : Does cs ps p) (hf : ∀ a, Does cs ps (f a)) : Does cs ps (p >>= f) :=
  fun s₀ => (hp s₀).bind fun a => hf a s₀

theorem does_then {o : Op} {f : Res o → M α} (hk : cs.contains o.kind = true) (hs : o.status? = none)
    (hf : ∀ r, Does cs ps (f r)) : Does cs ps (call o >>= f) := (does_call hk hs).bind hf

theorem does_read {f : ClientSession → M α} (hf : ∀ s, Does cs ps (f s)) : Does cs ps (Prog.read >>= f) := fun s₀ =>
  Prog.within_read fun s hs => hf s s₀ s hs

theorem does_modify {g : ClientSession → ClientSession} (hg : ∀ s, Touches ps s (g s)) :
    Does cs ps (Prog.modify g) := fun _ => Prog.within_modify fun s hs => hs.trans (hg s)

theorem does_change {g : ClientSession → ClientSession} {f : Unit → M α} (hg : ∀ s, Touches ps s (g s))
    (hf : Does cs ps (f ())) : Does cs ps (Prog.modify g >>= f) := (does_modify hg).bind fun _ => hf

theorem does_tell {n : Note} {f : Unit → M α} (hn : Tells cs n) (hf : Does cs ps (f ())) :
    Does cs ps (Prog.tell n >>= f) := fun s₀ => (Prog.within_tell hn).bind fun _ => hf s₀

theorem Does.acts {p : M α} (h : Does cs ps p) (s : ClientSession) : p.Acts (Makes cs) (Tells cs) (Touches ps s) s :=
  h s s (.refl ps s)

theorem Does.mono {p : M α} (h : Does cs ps p) (hc : cs.all cs'.contains = true) (hp : ps.all ps'.contains = true) :
    Does cs' ps' p := fun _ s hs =>
  (h.acts s).mono (fun _ h' => hs.trans (h'.mono hp)) (fun _ _ _ ho => ho.mono hc) fun _ hn => hn.mono hc

/-- A part of a program with a larger footprint. -/
theorem Does.then {p : M α} {f : α → M β} (h : Does cs ps p) (hc : cs.all cs'.contains = true)
    (hp : ps.all ps'.contains = true) (hf : ∀ a, Does cs' ps' (f a)) : Does cs' ps' (p >>= f) := (h.mono hc hp).bind hf

/-- A program that changes nothing keeps everything. -/
theorem Does.within {p : M α} (h : Does cs [] p) (hc : cs.all cs'.contains = true) (I : ClientSession → Prop) :
    p.Within (Makes cs') (Tells cs') I := fun s hs =>
  (h.acts s).mono (fun _ h' => by rw [h'.eq]; exact hs) (fun _ _ _ ho => ho.mono hc) fun _ hn => hn.mono hc

/-- What a program leaves of the handles. -/
theorem Does.tends {p : M α} (h : Does cs ps p) (hp : ps.contains .handles = false) {s₀ s : ClientSession}
    (hs : Tended s₀ s) : p.always (fun _ => Tended s₀) s :=
  Prog.always_mono (h.acts s).always fun _ _ h' => hs.trans (h'.same .handles hp)

end Rules

/-! ## Tokens and connections -/

section Connections

variable {svc : Service}

theorem awaitToken_does (bytes : Int) : Does [.admission] [] (awaitToken bytes) :=
  does_then rfl rfl fun _ => does_then rfl rfl fun _ => does_then rfl rfl fun _ => does_then rfl rfl fun _ =>
    does_then rfl rfl fun _ => does_pure _

theorem acquire_does (bytes : Int) : Does [.admission] [] (acquire svc bytes) := by
  refine does_then rfl rfl fun admitted => ?_
  cases admitted with
  | true => exact does_pure _
  | false =>
    simp only [Bool.false_eq_true, if_false]
    generalize (if bytes < 0 then (0 : Int) else bytes) = queuing
    split
    · exact does_pure _
    · refine does_then rfl rfl fun placed => ?_
      cases placed with
      | false => exact does_pure _
      | true =>
        simp only [if_true]
        split
        · refine does_then rfl rfl fun queued => ?_
          split
          · exact does_then rfl rfl fun _ => does_then rfl rfl fun _ => does_pure _
          · exact awaitToken_does _
        · exact awaitToken_does _

/-- The calls of the reset of a connection. -/
def Op.resets (c : Conn) : Op → Prop
  | .resetExec d _ | .querySession d | .queryIsolation d _ => d = c
  | .queryWarnings via => via = .conn c
  | _ => False

/-- The program works on the connection as the reset does, and leaves the session as it is. -/
def Resets {α : Type} (c : Conn) (p : M α) : Prop := ∀ I, p.Within (fun _ => Op.resets c) (fun _ => False) I

variable {c : Conn}

theorem resets_pure {α : Type} (a : α) : Resets c (pure a : M α) := fun _ => Prog.within_pure a

theorem resets_call {o : Op} (h : o.resets c) : Resets c (call o) := fun _ => Prog.within_perform fun _ _ => h

theorem Resets.bind {α β : Type} {p : M α} {f : α → M β} (hp : Resets c p) (hf : ∀ a, Resets c (f a)) :
    Resets c (p >>= f) := fun I => (hp I).bind fun a => hf a I

theorem resets_then {α : Type} {o : Op} {f : Res o → M α} (h : o.resets c) (hf : ∀ r, Resets c (f r)) :
    Resets c (call o >>= f) := (resets_call h).bind hf

theorem requireNoResetWarnings_resets : Resets c (requireNoResetWarnings c) := by
  refine resets_then rfl fun r => ?_
  cases r with
  | error e => exact resets_pure _
  | ok warnings =>
    simp only
    split
    · exact resets_pure _
    · exact resets_pure _

theorem runResetCommands_resets (commands : List ResetCommand) (stage : Nat) :
    Resets c (runResetCommands c stage commands) := by
  induction commands generalizing stage with
  | nil => exact resets_pure _
  | cons command rest ih =>
    refine resets_then rfl fun r => ?_
    cases r with
    | error e => exact resets_pure _
    | ok u =>
      simp only
      split
      · refine requireNoResetWarnings_resets.bind fun r => ?_
        cases r with
        | error e => exact resets_pure _
        | ok u => exact ih _
      · exact ih _

theorem readIsolation_resets : Resets c (readIsolation c) := by
  refine resets_then rfl fun r => ?_
  cases r with
  | ok level => exact resets_pure _
  | error e =>
    simp only
    split
    · exact resets_call rfl
    · exact resets_pure _

theorem resetConnection_resets (baseline : Metadata) : Resets c (resetConnection c baseline) := by
  unfold resetConnection
  split
  · exact resets_pure _
  · split
    · exact resets_pure _
    · refine (runResetCommands_resets _ 0).bind fun r => ?_
      cases r with
      | error e => exact resets_pure _
      | ok u =>
        refine resets_then rfl fun r => ?_
        cases r with
        | error e => exact resets_pure _
        | ok row =>
          refine readIsolation_resets.bind fun r => ?_
          cases r with
          | error e => exact resets_pure _
          | ok isolation =>
            simp only
            split
            · exact requireNoResetWarnings_resets
            · exact resets_pure _

theorem resetConnection_does (baseline : Metadata) : Does [.reset, .warnings] [] (resetConnection c baseline) := by
  refine fun s₀ s hs => (resetConnection_resets baseline _ s hs).mono (fun _ h => h) (fun _ o _ ho => ?_)
    fun _ h => h.elim
  cases o <;> first | exact ho.elim | exact ⟨rfl, fun _ h => by cases h⟩

theorem checkout_does : Does [.connect, .discard, .reset, .warnings] [] (checkout svc) := by
  have hloop : ∀ attempts e, Does [.connect, .discard, .reset, .warnings] [] (checkoutLoop svc e attempts) := by
    intro attempts
    induction attempts with
    | zero => exact fun e => does_pure _
    | succ attempts ih =>
      intro e
      refine does_then rfl rfl fun r => ?_
      cases r with
      | error e => exact ih e
      | ok c =>
        refine (resetConnection_does _).then rfl rfl fun r => ?_
        cases r with
        | ok u => exact does_pure _
        | error e => exact does_then rfl rfl fun _ => does_tell rfl (ih e)
  exact hloop 2 _

/-- What it takes to come by a connection. -/
def leasing : List Call := [.admission, .release, .connect, .discard, .reset, .warnings, .count]

theorem ensurePinnedConnection_does (reason : String) : Does leasing [.pin] (ensurePinnedConnection svc reason) := by
  refine does_read fun s => ?_
  split
  · exact does_pure _
  · refine (acquire_does 0).then rfl rfl fun r => ?_
    cases r with
    | error e => exact does_pure _
    | ok u =>
      refine checkout_does.then rfl rfl fun r => ?_
      cases r with
      | error e => exact does_then rfl rfl fun _ => does_pure _
      | ok c => exact does_change (fun _ => touches_pin rfl) (does_tell rfl (does_tell rfl (does_pure _)))

theorem releasePinnedConnection_does (discard : Bool) :
    Does [if discard then .discard else .close, .release, .count] [.pin] (releasePinnedConnection discard) := by
  have hpin : Does [.release] [.pin] releasePin := by
    refine does_read fun s => ?_
    split
    · exact does_then rfl rfl fun _ => does_modify fun _ => touches_pin rfl
    · exact does_pure ()
  cases discard with
  | true =>
    refine does_read fun s => (?_ : Does [.discard, .release, .count] [.pin] _)
    split
    · exact does_then rfl rfl fun _ => does_change (fun _ => touches_pin rfl) (does_tell rfl (hpin.mono rfl rfl))
    · exact hpin.mono rfl rfl
  | false =>
    refine does_read fun s => (?_ : Does [.close, .release, .count] [.pin] _)
    split
    · exact does_then rfl rfl fun _ => does_change (fun _ => touches_pin rfl) (does_tell rfl (hpin.mono rfl rfl))
    · exact hpin.mono rfl rfl

theorem undoPin_does (created : Bool) : Does [.close, .release, .count] [.pin] (undoPin created) := by
  cases created with
  | true => exact releasePinnedConnection_does false
  | false => exact does_pure ()

end Connections

/-! ## Replies -/

section Replies

/-- A packet that is neither OK nor an error, and carries the session's status or none. -/
def Plain (p : Packet) (s : ClientSession) : Prop := p.kind = .packet ∧ ∀ st, p.status? = some st → st = s.status

/-- The packet is computed from the session and written. -/
theorem does_write {cs : List Call} {ps : List Part} {sequence : UInt8} {p : ClientSession → Packet}
    (h : ∀ s, cs.contains (p s).kind = true ∧ ∀ st, (p s).status? = some st → st = s.status) :
    Does cs ps (Prog.read >>= fun s => write sequence (p s)) := fun _ =>
  Prog.within_read fun s hs => ⟨⟨hs, (h s).1, (h s).2⟩, fun _ => hs⟩

theorem writeError_does (sequence : UInt8) (code : Nat) (state message : Bytes) :
    Does [.error] [] (writeError sequence code state message) := by
  refine does_then rfl rfl fun r => ?_
  cases r with
  | ok next => exact does_pure _
  | error e => exact does_pure _

theorem writeSQLErrorAt_does (sequence : UInt8) (e : GoError) : Does [.error] [] (writeSQLErrorAt sequence e) :=
  does_tell rfl (writeError_does _ _ _ _)

theorem writeSQLError_does (e : GoError) : Does [.error] [] (writeSQLError e) := writeSQLErrorAt_does 1 e

theorem writeOK_does (affectedRows lastInsertID warnings : Nat) :
    Does [.ok] [] (writeOK affectedRows lastInsertID warnings) := by
  refine (does_write (p := fun s => .ok affectedRows lastInsertID s.status warnings) fun s => ⟨rfl, ?_⟩).bind fun r => ?_
  · rintro st ⟨⟩
    rfl
  · cases r with
    | ok next => exact does_pure _
    | error e => exact does_pure _

theorem writePackets_does {packets : List (ClientSession → Packet)} (h : ∀ p ∈ packets, ∀ s, Plain (p s) s)
    (sequence : UInt8) : Does [.packet] [] (writePackets sequence packets) := by
  induction packets generalizing sequence with
  | nil => exact does_pure _
  | cons p packets ih =>
    refine (does_write (p := p) fun s => ?_).bind fun r => ?_
    · obtain ⟨hk, hs⟩ := h p List.mem_cons_self s
      exact ⟨by rw [hk]; rfl, hs⟩
    · cases r with
      | error e => exact does_pure _
      | ok next => exact ih (fun q hq => h q (List.mem_cons_of_mem p hq)) next

theorem warningCount_does (svc : Service) : Does [.packet] [] (warningCount svc) := by
  refine writePackets_does ?_ 1
  simp [Plain, Packet.kind, Packet.status?]

theorem readWarningCount_does (source : Via) : Does [.warnings] [] (readWarningCount source) := by
  refine does_then rfl rfl fun r => ?_
  cases r with
  | error e => exact does_pure _
  | ok count => exact does_pure _

theorem replyResult_does (r : Except GoError (Result × Nat)) : Does [.ok, .error] [.logical] (replyResult r) := by
  cases r with
  | error e => exact (writeSQLError_does e).mono rfl rfl
  | ok x => exact does_change (fun _ => touches_state rfl rfl (.inr rfl)) ((writeOK_does _ _ _).mono rfl rfl)

theorem writeDefinitions_does (database : Text) (columns : List Column) (sequence : UInt8) :
    Does [.packet] [] (writeDefinitions database sequence columns) := by
  induction columns generalizing sequence with
  | nil => exact does_pure _
  | cons c columns ih =>
    refine does_then rfl rfl fun r => ?_
    cases r with
    | error e => exact does_pure _
    | ok next => exact ih next

/-- The rows of a result set. -/
def Packet.isRow : Packet → Bool
  | .textRow _ | .binaryRow _ => true
  | _ => false

theorem encodeText_row (columns : List Column) (values : List Value) (p : Packet)
    (h : encodeText columns values = .ok p) : p.isRow = true := by
  cases h
  rfl

theorem encodeBinary_row (svc : Service) (columns : List Column) (values : List Value) (p : Packet)
    (h : encodeBinary svc columns values = .ok p) : p.isRow = true := by
  unfold encodeBinary at h
  split at h
  · cases h
    rfl
  · cases h

theorem writeRows_does {encode : List Value → Except GoError Packet}
    (hencode : ∀ values p, encode values = .ok p → p.isRow = true) (rows : List (Except GoError (List Value)))
    (sequence : UInt8) : Does [.packet, .error] [] (writeRows encode sequence rows) := by
  have hstop : ∀ sequence e, Does [.packet, .error] [] (writeSQLErrorAt sequence e >>= fun r => pure (.error r) :
      M (Except (Except GoError Unit) UInt8)) := fun sequence e =>
    (writeSQLErrorAt_does sequence e).then rfl rfl fun _ => does_pure _
  induction rows generalizing sequence with
  | nil => exact does_pure _
  | cons row rows ih =>
    cases row with
    | error e => exact hstop sequence e
    | ok values =>
      unfold writeRows
      cases hp : encode values with
      | error e => exact hstop sequence e
      | ok packet =>
        have hrow := hencode values packet hp
        refine (does_call ?_ ?_).bind fun r => ?_
        · cases packet <;> first | rfl | cases hrow
        · cases packet <;> first | rfl | cases hrow
        · cases r with
          | error e => exact does_pure _
          | ok next => exact ih next

theorem writeEOF_does (sequence : UInt8) (warnings : Nat) : Does [.packet] [] (writeEOF sequence warnings) := by
  refine does_write (p := fun s => .eof s.status warnings) fun s => ⟨rfl, ?_⟩
  rintro st ⟨⟩
  rfl

theorem finishRows_does (sequence : UInt8) (source : Via) :
    Does [.packet, .error, .warnings] [.logical] (finishRows sequence source) := by
  refine (readWarningCount_does source).then rfl rfl fun r => ?_
  cases r with
  | error e => exact (writeSQLErrorAt_does sequence e).mono rfl rfl
  | ok warnings =>
    refine does_change (fun _ => touches_state rfl rfl (.inr rfl)) ((writeEOF_does _ _).then rfl rfl fun r => ?_)
    cases r with
    | error e => exact does_pure _
    | ok next => exact does_pure _

theorem sendBody_does {encode : List Value → Except GoError Packet}
    (hencode : ∀ values p, encode values = .ok p → p.isRow = true) {source : M Via} (hsource : Does [.panic] [] source)
    (rows : Rows) (sequence : UInt8) :
    Does [.packet, .error, .warnings, .panic] [.logical] (sendBody encode source rows sequence) := by
  refine (writeRows_does hencode rows.rows sequence).then rfl rfl fun r => ?_
  cases r with
  | error r => exact does_pure r
  | ok sequence =>
    cases rows.err with
    | some e => exact (writeSQLErrorAt_does sequence e).mono rfl rfl
    | none =>
      cases rows.closeErr with
      | some e => exact (writeSQLErrorAt_does sequence e).mono rfl rfl
      | none => exact hsource.then rfl rfl fun via => (finishRows_does sequence via).mono rfl rfl

theorem sendRows_does {database : Text} {encode : List Column → List Value → Except GoError Packet}
    (hencode : ∀ columns values p, encode columns values = .ok p → p.isRow = true) {source : M Via}
    (hsource : Does [.panic] [] source) (rows : Rows) :
    Does [.packet, .error, .warnings, .panic] [.logical] (sendRows database encode source rows) := by
  unfold sendRows
  cases rows.columns with
  | error e => exact (writeSQLError_does e).mono rfl rfl
  | ok columns =>
    refine does_then rfl rfl fun r => ?_
    cases r with
    | error e => exact does_pure _
    | ok sequence =>
      refine (writeDefinitions_does database columns sequence).then rfl rfl fun r => ?_
      cases r with
      | error e => exact does_pure _
      | ok sequence =>
        refine (writeEOF_does sequence 0).then rfl rfl fun r => ?_
        cases r with
        | error e => exact does_pure _
        | ok sequence => exact sendBody_does (hencode columns) hsource rows sequence

end Replies

/-! ## Transactions -/

section Transactions

variable {svc : Service}

/-- What the begin of a transaction calls. -/
def beginning : List Call := leasing ++ [.start, .rollback, .cancel, .close, .panic]

theorem begin_does : Does beginning [.pin, .tx, .cancel, .logical] («begin» svc) := by
  have hundo : ∀ {created : Bool} {e : GoError}, Does beginning [.pin, .tx, .cancel, .logical]
      (call .cancelTx >>= fun _ => undoPin created >>= fun _ => pure (.error e) : M (Except GoError Unit)) :=
    does_then rfl rfl fun _ => (undoPin_does _).then rfl rfl fun _ => does_pure _
  refine (ensurePinnedConnection_does _).then rfl rfl fun r => ?_
  cases r with
  | error e => exact does_pure _
  | ok created =>
    refine does_read fun s => ?_
    split
    · exact does_panic rfl
    · refine does_then rfl rfl fun r => ?_
      cases r with
      | error e => exact hundo
      | ok tx =>
        -- the logical state that is stored was computed from the session as it is
        refine fun s₀ => Prog.within_read fun s hs => ?_
        have hprepared := Logical.apply_prepared s.state .begin
        have hmode : (s.state.apply .begin).1.autocommit = s.state.autocommit := by
          simp only [Logical.apply]
          split <;> rfl
        split
        · rename_i state e happly
          rw [happly] at hprepared hmode
          have hs' : Touches _ s₀ { s with state } := hs.trans (touches_state rfl hprepared (.inr hmode))
          exact (does_then rfl rfl fun _ => hundo) s₀ _ hs'
        · rename_i state happly
          rw [happly] at hprepared hmode
          have hs' : Touches _ s₀ { s with state } := hs.trans (touches_state rfl hprepared (.inr hmode))
          exact (hs'.trans (touches_tx rfl)).trans (touches_cancel rfl)

theorem ensureImplicitTransaction_does : Does beginning [.pin, .tx, .cancel, .logical] (ensureImplicitTransaction svc) := by
  refine does_read fun s => ?_
  split
  · exact begin_does
  · exact does_pure _

theorem closeStatement_does (statement : Option Stmt) : Does [.closeStatement] [] (closeStatement statement) := by
  cases statement with
  | none => exact does_pure ()
  | some st => exact does_call rfl rfl

theorem invalidateHandles_does (ids : List UInt32) : Does [.closeStatement] [.statements] (invalidateHandles ids) := by
  induction ids with
  | nil => exact does_pure ()
  | cons id ids ih =>
    refine fun s₀ => Prog.within_read fun s hs => ?_
    split
    · exact ih s₀ s hs
    · rename_i p hp
      split
      · obtain ⟨p₀, hp₀, hr⟩ := (hs.same .handles rfl).lookup hp
        refine (((closeStatement_does _).mono rfl rfl s₀).bind fun _ => ?_) s hs
        refine Prog.Within.bind (Prog.within_modify fun s hs => ?_) fun _ => ih s₀
        exact hs.rebind rfl hp₀ (hr.trans ⟨none, false, rfl⟩)
      · exact ih s₀ s hs

theorem cancelTransaction_does : Does [.cancel] [.cancel] cancelTransaction := by
  refine does_read fun s => ?_
  split
  · exact does_then rfl rfl fun _ => does_modify fun _ => touches_cancel rfl
  · exact does_pure ()

/-- What the end of a transaction calls. -/
def finishing : List Call := [.closeStatement, .cancel, .close, .release, .count]

/-- `finishTransaction` after it has dropped the transaction. -/
theorem finish_does : Does finishing [.statements, .cancel, .pin] (invalidateTransactionPrepared >>= fun _ =>
    cancelTransaction >>= fun _ => Prog.read >>= fun s =>
      if s.state.prepared = ∅ then releasePinnedConnection false else pure ()) := by
  refine Does.bind (does_read fun s => (invalidateHandles_does _).mono rfl rfl) fun _ => ?_
  refine cancelTransaction_does.then rfl rfl fun _ => does_read fun s => ?_
  split
  · exact (releasePinnedConnection_does false).mono rfl rfl
  · exact does_pure ()

theorem finishTransaction_does : Does finishing [.tx, .statements, .cancel, .pin] finishTransaction :=
  does_change (fun _ => touches_tx rfl) (finish_does.mono rfl rfl)

theorem applyState_does (kind : StatementKind) : Does [] [.logical, .mode] (applyState kind) :=
  does_read fun _ => does_change (fun s => touches_state rfl (Logical.apply_prepared s.state kind) (.inl rfl)) (does_pure _)

theorem poison_does : Does [] [.logical] poison := does_modify fun _ => touches_state rfl rfl (.inr rfl)

/-- What a transaction that ends leaves changed. -/
def ended : List Part := [.tx, .statements, .cancel, .pin, .logical, .mode]

theorem commit_does : Does ([.ok, .commit, .hook] ++ finishing) ended commit := by
  refine does_read fun s => ?_
  split
  · exact (writeOK_does 0 0 0).mono rfl rfl
  · refine does_then rfl rfl fun r => ?_
    cases r with
    | error e => exact finishTransaction_does.then rfl rfl fun _ => poison_does.then rfl rfl fun _ => does_pure _
    | ok u =>
      refine (applyState_does .commit).then rfl rfl fun e => ?_
      cases e with
      | some e => exact finishTransaction_does.then rfl rfl fun _ => does_pure _
      | none =>
        refine does_tell rfl (finishTransaction_does.then rfl rfl fun _ => does_then rfl rfl fun r => ?_)
        cases r with
        | error e => exact does_pure _
        | ok u => exact (writeOK_does 0 0 0).mono rfl rfl

theorem rollback_does : Does ([.ok, .error, .rollback] ++ finishing) ended rollback := by
  have hrolled : Does ([.ok, .error, .rollback] ++ finishing) ended rolledBack := by
    refine (applyState_does .rollback).then rfl rfl fun e => ?_
    cases e with
    | some e => exact finishTransaction_does.then rfl rfl fun _ => does_pure _
    | none => exact finishTransaction_does.then rfl rfl fun _ => (writeOK_does 0 0 0).mono rfl rfl
  refine does_read fun s => ?_
  split
  · exact (writeOK_does 0 0 0).mono rfl rfl
  · refine does_then rfl rfl fun r => ?_
    cases r with
    | error e =>
      simp only
      split
      · exact finishTransaction_does.then rfl rfl fun _ => poison_does.then rfl rfl fun _ =>
          (writeSQLError_does e).mono rfl rfl
      · exact hrolled
    | ok u => exact hrolled

theorem localStatement_does (kind : StatementKind) (code : Nat) (state message : String) :
    Does [.ok, .error] [.logical, .mode] (localStatement kind code state message) := by
  refine (applyState_does kind).then rfl rfl fun e => ?_
  cases e with
  | some e => exact (writeError_does _ _ _ _).mono rfl rfl
  | none => exact (writeOK_does 0 0 0).mono rfl rfl

theorem autocommitOn_does : Does ([.ok, .error, .commit, .hook] ++ finishing) ended autocommitOn := by
  have henable : Does ([.ok, .error, .commit, .hook] ++ finishing) ended enableAutocommit :=
    (localStatement_does _ _ _ _).mono rfl rfl
  refine does_read fun s => ?_
  split
  · exact henable
  · refine does_then rfl rfl fun r => ?_
    cases r with
    | error e => exact finishTransaction_does.then rfl rfl fun _ => poison_does.then rfl rfl fun _ => does_pure _
    | ok u =>
      refine does_tell rfl (finishTransaction_does.then rfl rfl fun _ => does_then rfl rfl fun r => ?_)
      cases r with
      | error e => exact does_pure _
      | ok u => exact henable

end Transactions

/-! ## COM_QUERY -/

section Query

variable {svc : Service}

theorem execOn_does (via : Via) (query : Text) : Does [.run, .warnings] [] (execOn via query) := by
  refine does_then rfl rfl fun r => ?_
  cases r with
  | error e => exact does_pure _
  | ok result =>
    refine (readWarningCount_does via).then rfl rfl fun r => ?_
    cases r with
    | error e => exact does_pure _
    | ok warnings => exact does_pure _

theorem withConnection_does {cs : List Call} {ps : List Part} {query : Text} {body : Conn → M (Except GoError Unit)}
    (hc : (Call.error :: leasing).all cs.contains = true) (hbody : ∀ connection, Does cs ps (body connection)) :
    Does cs ps (withConnection svc query body) := by
  have hlease : ∀ {α : Type} {p : M α}, Does (.error :: leasing) [] p → Does cs ps p := fun h => h.mono hc rfl
  refine (hlease ((acquire_does _).mono rfl rfl)).bind fun r => ?_
  cases r with
  | error e => exact hlease ((writeSQLError_does e).mono rfl rfl)
  | ok u =>
    refine (hlease (checkout_does.mono rfl rfl)).bind fun r => ?_
    cases r with
    | error e => exact hlease ((writeSQLError_does e).then rfl rfl fun _ => does_then rfl rfl fun _ => does_pure _)
    | ok connection => exact hbody connection

theorem exec_does (query : Text) (transactional : Bool) :
    Does (leasing ++ [.ok, .error, .run, .close, .panic]) [.logical] (exec svc query transactional) := by
  cases transactional with
  | true =>
    refine does_read fun s => ?_
    split
    · exact does_panic rfl
    · exact (execOn_does _ query).then rfl rfl fun r => (replyResult_does r).mono rfl rfl
  | false =>
    refine withConnection_does rfl fun connection => ?_
    refine (execOn_does _ query).then rfl rfl fun r => (replyResult_does r).then rfl rfl fun _ => ?_
    exact does_then rfl rfl fun _ => does_then rfl rfl fun _ => does_pure _

theorem rowsOn_does (via : Via) (query : Text) :
    Does [.packet, .error, .warnings, .panic, .rows] [.logical] (rowsOn svc via query) := by
  refine does_then rfl rfl fun r => ?_
  cases r with
  | error e => exact (writeSQLError_does e).mono rfl rfl
  | ok rows => exact (sendRows_does encodeText_row (does_pure via) rows).mono rfl rfl

theorem rows_does (query : Text) :
    Does (leasing ++ [.packet, .error, .rows, .close, .panic]) [.logical] (rows svc query) := by
  refine does_read fun s => ?_
  split
  · exact (rowsOn_does _ query).mono rfl rfl
  · refine withConnection_does rfl fun connection => (rowsOn_does _ query).then rfl rfl fun _ => ?_
    exact does_then rfl rfl fun _ => does_then rfl rfl fun _ => does_pure _

theorem initDatabase_does (database : Text) : Does [.ok, .error] [.logical] (initDatabase svc database) := by
  have hselect : ∀ s : ClientSession, (s.state.selectDatabase database).1.prepared = s.state.prepared ∧
      (s.state.selectDatabase database).1.autocommit = s.state.autocommit := by
    intro s
    unfold Logical.selectDatabase
    split <;> exact ⟨rfl, rfl⟩
  unfold initDatabase
  split
  · exact (writeError_does _ _ _ _).mono rfl rfl
  · refine does_read fun s => does_change (fun s => touches_state rfl (hselect s).1 (.inr (hselect s).2)) ?_
    split
    · exact (writeError_does _ _ _ _).mono rfl rfl
    · exact (writeOK_does 0 0 0).mono rfl rfl

/-- What a text statement calls. -/
def querying : List Call :=
  beginning ++ finishing ++ [.ok, .error, .packet, .run, .rows, .commit, .hook]

theorem query_does (q : Text) : Does querying ended (query svc q) := by
  unfold query
  dsimp only
  split
  case h_1 => exact (writeError_does _ _ _ _).mono rfl rfl
  case h_2 => exact does_tell rfl ((writeError_does _ _ _ _).mono rfl rfl)
  case h_3 =>
    refine does_read fun s => ?_
    split
    · exact (writeError_does _ _ _ _).mono rfl rfl
    · refine begin_does.then rfl rfl fun r => ?_
      cases r with
      | error e => exact (writeSQLError_does e).mono rfl rfl
      | ok u => exact (writeOK_does 0 0 0).mono rfl rfl
  case h_4 => exact commit_does.mono rfl rfl
  case h_5 => exact rollback_does.mono rfl rfl
  case h_6 => exact (localStatement_does _ _ _ _).mono rfl rfl
  case h_7 => exact autocommitOn_does.mono rfl rfl
  case h_8 => exact (localStatement_does _ _ _ _).mono rfl rfl
  case h_9 =>
    split
    · exact (initDatabase_does _).mono rfl rfl
    · exact (writeError_does _ _ _ _).mono rfl rfl
  case h_10 => exact (warningCount_does svc).mono rfl rfl
  case h_11 =>
    refine (applyState_does .savepoint).then rfl rfl fun e => does_read fun s => ?_
    split
    · exact (writeError_does _ _ _ _).mono rfl rfl
    · exact (exec_does _ true).mono rfl rfl
  case h_12 =>
    refine does_read fun s => ?_
    split
    · exact (writeError_does _ _ _ _).mono rfl rfl
    · exact (exec_does _ false).mono rfl rfl
  case h_13 =>
    refine ensureImplicitTransaction_does.then rfl rfl fun r => ?_
    cases r with
    | error e => exact (writeSQLError_does e).mono rfl rfl
    | ok u => exact does_read fun s => (exec_does _ _).mono rfl rfl
  case h_14 =>
    refine ensureImplicitTransaction_does.then rfl rfl fun r => ?_
    cases r with
    | error e => exact (writeSQLError_does e).mono rfl rfl
    | ok u => exact (rows_does _).mono rfl rfl

end Query

/-! ## Prepared statements -/

section Prepared

variable {svc : Service}

theorem replyPrepared_does (id : UInt32) (parameterCount : Nat) :
    Does [.packet] [] (replyPrepared id parameterCount) := by
  refine writePackets_does (fun p hp => ?_) 1
  simp only [List.cons_append, List.mem_cons, List.mem_append, List.mem_replicate] at hp
  rcases hp with rfl | ⟨-, rfl⟩ | hp
  · exact fun s => ⟨rfl, by rintro st ⟨⟩⟩
  · exact fun s => ⟨rfl, by rintro st ⟨⟩⟩
  · split at hp
    · rw [List.mem_singleton.1 hp]
      exact fun s => ⟨rfl, by rintro st ⟨⟩; rfl⟩
    · cases hp

theorem currentVia_does : Does [.panic] [] currentVia := by
  refine does_read fun s => ?_
  split
  · exact does_pure _
  · split
    · exact does_pure _
    · exact does_panic rfl

theorem prepareOnCurrentConnection_does (query : Text) : Does [.panic, .prepare] [] (prepareOnCurrentConnection query) :=
  currentVia_does.then rfl rfl fun _ => does_call rfl rfl

/-- What a prepare calls. -/
def preparing : List Call := leasing ++ [.error, .packet, .prepare, .panic, .closeStatement]

theorem addPrepared_autocommit (l : Logical) (id : UInt32) : (l.addPrepared id).1.autocommit = l.autocommit := by
  unfold Logical.addPrepared
  split
  · rfl
  · split
    · rfl
    · rfl

theorem registerPrepared_does (query : Text) (statement : Stmt) :
    Does [.error, .packet, .closeStatement] [.ids, .statements, .handles, .logical] (registerPrepared query statement) := by
  refine does_change (fun s p => ?_) fun s₀ => Prog.within_read fun s hs => ?_
  · cases p with
    | pin => exact .inr ⟨rfl, rfl⟩
    | cancel | tx | mode => exact .inr rfl
    | _ => exact .inl rfl
  -- the table that is stored is the one that was read, so this is no change of any session's
  have hstore : ∀ s', Touches [.ids, .statements, .handles, .logical] s₀ s' →
      Touches [.ids, .statements, .handles, .logical] s₀ { s' with state := (s.state.addPrepared s.nextPreparedID).1 } := by
    intro s' hs' p
    cases p with
    | mode => exact .inr ((addPrepared_autocommit _ _).trans (hs.same .mode rfl))
    | pin | cancel | tx => exact hs' _
    | _ => exact .inl rfl
  refine Prog.Within.bind (does_modify (fun _ => touches_prepared rfl rfl) s₀) (fun _ => ?_) s hs
  split
  · exact does_then rfl rfl (fun _ => does_change (fun _ => touches_prepared rfl rfl) ((writeSQLError_does _).mono rfl rfl)) s₀
  · rename_i state hstate
    rw [hstate] at hstore
    exact Prog.Within.bind (Prog.within_modify hstore) fun _ => (replyPrepared_does _ _).mono rfl rfl s₀

theorem preparePinned_does (query : Text) :
    Does preparing [.pin, .ids, .statements, .handles, .logical] (preparePinned query) := by
  refine (prepareOnCurrentConnection_does query).then rfl rfl fun r => ?_
  cases r with
  | error e =>
    refine does_read fun s => ?_
    split
    · exact (releasePinnedConnection_does true).then rfl rfl fun _ => (writeSQLError_does e).mono rfl rfl
    · exact (writeSQLError_does e).mono rfl rfl
  | ok statement => exact (registerPrepared_does query statement).mono rfl rfl

theorem prepare_does (query : Text) : Does preparing [.pin, .ids, .statements, .handles, .logical] (prepare svc query) := by
  unfold prepare
  simp only
  split
  · exact (writeError_does _ _ _ _).mono rfl rfl
  · refine does_read fun s => ?_
    split
    · exact (writeError_does _ _ _ _).mono rfl rfl
    · refine (ensurePinnedConnection_does _).then rfl rfl fun r => ?_
      cases r with
      | error e => exact (writeSQLError_does e).mono rfl rfl
      | ok created => exact preparePinned_does _

/-- What is called before a prepare. -/
def pinning : List Call := leasing ++ [.panic]

/-- A prepare, by what is left to do for it: whatever the environment does while the session is being pinned keeps
`J`, and then the statement is registered, or refused with at most the pin changed. -/
theorem prepare_wp {γ : Type} {E : Env ClientSession Op Res Note γ} {ok : ClientSession → γ → Op → Prop} {J : γ → Prop}
    {Q : Except GoError Unit → ClientSession → γ → Prop} {q : Text} {s : ClientSession} {g : γ}
    (hcall : ∀ s g o, Makes pinning s o → J g → ok s g o ∧ ∀ r g', E.step s g o r g' → J g')
    (hnote : ∀ s g n, J g → J (E.note s g n)) (hg : J g)
    (hrefuse : ∀ code state message s' g', Touches [.pin] s s' → J g' → (writeError 1 code state message).wp E ok Q s' g')
    (hprepare : (classifySQL q).kind ∈ [.read, .write, .ddl] → ∀ via s' g', Touches [.pin] s s' → J g' →
      ok s' g' (.prepare via (classifySQL q).sql) ∧
      (∀ e g'', E.step s' g' (.prepare via (classifySQL q).sql) (.error e) g'' → J g'') ∧
      ∀ st g'', E.step s' g' (.prepare via (classifySQL q).sql) (.ok st) g'' →
        (registerPrepared (classifySQL q).sql st).wp E ok Q s' g'') :
    (prepare svc q).wp E ok Q s g := by
  -- what is called on the way
  have hpins : ∀ {α : Type} {cs : List Call} {p : M α} {Q' : α → ClientSession → γ → Prop} {s' : ClientSession} {g' : γ},
      Does cs [.pin] p → cs.all pinning.contains = true → Touches [.pin] s s' → J g' →
      (∀ a s'' g'', Touches [.pin] s s'' → J g'' → Q' a s'' g'') → p.wp E ok Q' s' g' := fun hp hc hs hj hQ =>
    ((hp.mono hc rfl).acts _).wp (fun s g o _ hj ho => hcall s g o ho hj) (fun s g n _ => hnote s g n) hj
      fun a s'' g'' hs' => hQ a s'' g'' (hs.trans hs')
  have hfail : ∀ e s' g', Touches [.pin] s s' → J g' → (writeSQLError e).wp E ok Q s' g' := fun e s' g' hs hj =>
    hrefuse _ _ _ s' _ hs (hnote s' g' _ hj)
  unfold prepare
  dsimp only
  split
  · exact hrefuse _ _ _ s g (.refl _ s) hg
  rename_i hkind
  have hkind : (classifySQL q).kind ∈ [.read, .write, .ddl] := by
    simpa only [List.mem_cons, List.not_mem_nil, or_false, ne_eq, ← not_or, not_not] using hkind
  rw [Prog.wp_bind, Prog.wp_read]
  split
  · exact hrefuse _ _ _ s g (.refl _ s) hg
  rw [Prog.wp_bind]
  refine hpins (ensurePinnedConnection_does _) rfl (.refl _ s) hg fun r s₁ g₁ h₁ hj₁ => ?_
  cases r with
  | error e => exact hfail e s₁ g₁ h₁ hj₁
  | ok created =>
    refine (Prog.wp_bind _ _ _ s₁ _).2 ((Prog.wp_bind _ _ _ s₁ _).2 ?_)
    refine hpins (currentVia_does.mono rfl rfl) (rfl : [Call.panic].all _ = true) h₁ hj₁ fun via s₂ g₂ h₂ hj₂ => ?_
    obtain ⟨hok, herror, hregister⟩ := hprepare hkind via s₂ g₂ h₂ hj₂
    refine ⟨hok, fun r g₃ hr => ?_⟩
    cases r with
    | ok st => exact hregister st g₃ hr
    | error e =>
      show Prog.wp _ _ (if s₂.state.prepared = ∅ ∧ s₂.tx = none then _ else _) _ s₂ g₃
      split
      · rw [Prog.wp_bind]
        exact hpins (releasePinnedConnection_does true) rfl h₂ (herror e g₃ hr) fun _ s₄ g₄ => hfail e s₄ g₄
      · exact hfail e s₂ g₃ h₂ (herror e g₃ hr)

/-- What it takes to have a statement to execute. -/
def rebinding : List Call := [.panic, .prepare, .bind, .closeStatement]

section Handle

variable {I : ClientSession → Prop} {id : UInt32} {p : PreparedStatement}

theorem freshStatement_within (hput : ∀ s p', p.Rebinds p' → I s → I { s with prepared := s.prepared.insert id p' }) :
    (freshStatement id p).Within (Makes rebinding) (Tells rebinding) I := by
  -- the statement is prepared again, and stored if that succeeds
  have hagain : ∀ {f : Except GoError Stmt → M (Except GoError (Stmt × Bool))}, (∀ e, f (.error e) = pure (.error e)) →
      (∀ statement, ∃ bound, f (.ok statement) =
        putHandle id { p with statement := some statement, transactionBound := bound } >>= fun _ =>
          pure (.ok (statement, bound))) →
      Prog.Within (Makes rebinding) (Tells rebinding) I (prepareOnCurrentConnection p.query >>= f) := by
    intro f herror hok
    refine ((prepareOnCurrentConnection_does _).within rfl I).bind fun r => ?_
    cases r with
    | error e =>
      rw [herror]
      exact Prog.within_pure _
    | ok statement =>
      obtain ⟨bound, hf⟩ := hok statement
      rw [hf]
      refine Prog.Within.bind (Prog.within_modify fun s hs => ?_) fun _ => Prog.within_pure _
      exact hput s _ ⟨some statement, bound, rfl⟩ hs
  refine Prog.within_read fun s hs => ?_
  split
  · split
    · exact ((closeStatement_does (some _)).within rfl I).bind (fun _ => hagain (fun _ => rfl) fun _ => ⟨_, rfl⟩) s hs
    · exact Prog.within_pure _ s hs
  · exact hagain (fun _ => rfl) (fun _ => ⟨_, rfl⟩) s hs

theorem statementForExecution_within
    (hput : ∀ s p', p.Rebinds p' → I s → I { s with prepared := s.prepared.insert id p' }) :
    (statementForExecution id p).Within (Makes rebinding) (Tells rebinding) I := by
  refine (freshStatement_within hput).bind fun r => ?_
  cases r with
  | error e => exact Prog.within_pure _
  | ok x =>
    refine (does_read fun s => ?_ : Does rebinding [] _).within rfl I
    split
    · split
      · exact does_then rfl rfl fun _ => does_pure _
      · exact does_pure _
    · exact does_pure _

/-- Whichever handle it is for. -/
theorem statementForExecution_does (id : UInt32) (p : PreparedStatement) :
    Does rebinding [.statements, .handles] (statementForExecution id p) := fun _ =>
  statementForExecution_within fun _ _ _ hs => hs.trans (touches_prepared rfl rfl)

end Handle

theorem closeTemporary_does (temporary : Bool) (statement : Stmt) :
    Does [.closeStatement] [] (closeTemporary temporary statement) := by
  cases temporary with
  | true => exact does_call rfl rfl
  | false => exact does_pure ()

/-- What the execution of a statement calls. -/
def executing : List Call := [.ok, .error, .packet, .run, .rows, .warnings, .panic]

theorem runPrepared_does (query : Text) (statement : Stmt) (arguments : List Argument) :
    Does executing [.logical] (runPrepared svc query statement arguments) := by
  unfold runPrepared
  split
  · refine does_then rfl rfl fun r => ?_
    cases r with
    | error e => exact (writeSQLError_does e).mono rfl rfl
    | ok rows => exact (sendRows_does (encodeBinary_row svc) currentVia_does rows).mono rfl rfl
  · refine does_then rfl rfl fun r => ?_
    cases r with
    | error e => exact (writeSQLError_does e).mono rfl rfl
    | ok result =>
      refine currentVia_does.then rfl rfl fun source => (readWarningCount_does source).then rfl rfl fun r => ?_
      cases r with
      | error e => exact (writeSQLError_does e).mono rfl rfl
      | ok warnings => exact (replyResult_does _).mono rfl rfl

/-- The execution of a handle the session has. -/
theorem executeHandle_within {s₀ : ClientSession} {id : UInt32} {p : PreparedStatement}
    (hp : s₀.prepared.lookup id = some p) (arguments : List Argument) :
    (executeHandle svc id p arguments).Within (Makes (beginning ++ rebinding ++ executing))
      (Tells (beginning ++ rebinding ++ executing)) (Touches [.pin, .tx, .cancel, .logical, .statements] s₀) := by
  refine (ensureImplicitTransaction_does.mono rfl rfl s₀).bind fun r => ?_
  cases r with
  | error e => exact (writeSQLError_does e).mono rfl rfl s₀
  | ok u =>
    refine Prog.Within.bind (fun s hs => (statementForExecution_within (fun s p' hr hs => ?_) s hs).mono (fun _ h => h)
      (fun _ _ _ h => h.mono rfl) fun _ h => h.mono rfl) fun r => ?_
    · exact Touches.rebind hs rfl hp hr
    cases r with
    | error e => exact (writeSQLError_does e).mono rfl rfl s₀
    | ok x =>
      refine ((runPrepared_does _ _ _).mono rfl rfl s₀).bind fun r => ?_
      exact ((closeTemporary_does _ _).mono rfl rfl s₀).bind fun _ => Prog.within_pure r

theorem putHandle_does (id : UInt32) (p : PreparedStatement) : Does [] [.statements, .handles] (putHandle id p) :=
  does_modify fun _ => touches_prepared rfl rfl

theorem dropHandle_does (id : UInt32) : Does [] [.statements, .handles, .logical] (dropHandle id) := by
  refine does_modify fun s part => ?_
  cases part with
  | pin => exact .inr ⟨rfl, rfl⟩
  | cancel | tx | mode | ids => exact .inr rfl
  | _ => exact .inl rfl

theorem sendPreparedLongData_does (payload : Bytes) :
    Does [.error] [.statements, .handles] (sendPreparedLongData payload) := by
  unfold sendPreparedLongData
  split
  · exact (writeError_does _ _ _ _).mono rfl rfl
  · refine does_read fun s => ?_
    split
    · exact (writeError_does _ _ _ _).mono rfl rfl
    · split
      · exact (writeError_does _ _ _ _).mono rfl rfl
      · exact (putHandle_does _ _).then rfl rfl fun _ => does_pure _

theorem resetPrepared_does (payload : Bytes) : Does [.ok, .error] [.statements, .handles] (resetPrepared payload) := by
  unfold resetPrepared
  split
  · exact (writeError_does _ _ _ _).mono rfl rfl
  · refine does_read fun s => ?_
    split
    · exact (writeError_does _ _ _ _).mono rfl rfl
    · exact (putHandle_does _ _).then rfl rfl fun _ => (writeOK_does 0 0 0).mono rfl rfl

theorem closePrepared_does (payload : Bytes) :
    Does [.closeStatement, .close, .release, .count] [.statements, .handles, .logical, .pin] (closePrepared payload) := by
  unfold closePrepared
  split
  · exact does_pure _
  · refine does_read fun s => ?_
    split
    · exact does_pure _
    · refine (closeStatement_does _).then rfl rfl fun _ => (dropHandle_does _).then rfl rfl fun _ => does_read fun s => ?_
      split
      · exact (releasePinnedConnection_does false).then rfl rfl fun _ => does_pure _
      · exact does_pure _

theorem closeAllPrepared_does : Does [.closeStatement] [.statements, .handles, .logical] closeAllPrepared := by
  have hloop : ∀ ids, Does [.closeStatement] [.statements, .handles, .logical] (closeHandles ids) := by
    intro ids
    induction ids with
    | nil => exact does_pure ()
    | cons id ids ih =>
      refine does_read fun s => ?_
      split
      · exact ih
      · exact (closeStatement_does _).then rfl rfl fun _ => (dropHandle_does _).then rfl rfl fun _ => ih
  exact does_read fun s => hloop _

end Prepared

/-! ## The end of a session -/

/-- What `close` calls: it discards the pinned connection. -/
def cleaning : List Call := [.rollback, .cancel, .closeStatement, .discard, .release, .count]

theorem close_acts (s : ClientSession) : close.Acts (Makes cleaning) (Tells cleaning) (fun _ => True) s := by
  have hdoes : ∀ {α : Type} {cs : List Call} {ps : List Part} {p : M α}, Does cs ps p → cs.all cleaning.contains = true →
      p.Within (Makes cleaning) (Tells cleaning) fun _ => True := fun h hc s _ =>
    (h.acts s).mono (fun _ _ => trivial) (fun _ _ _ ho => ho.mono hc) fun _ hn => hn.mono hc
  have habandon : Does cleaning [.tx] abandonTransaction := by
    refine does_read fun s => ?_
    split
    · exact does_then rfl rfl fun _ => does_modify fun _ => touches_tx rfl
    · exact does_pure ()
  refine ((hdoes habandon rfl).bind fun _ => (hdoes cancelTransaction_does rfl).bind fun _ => ?_) s trivial
  refine (hdoes closeAllPrepared_does rfl).bind fun _ => (hdoes (releasePinnedConnection_does true) rfl).bind fun _ => ?_
  exact Prog.within_modify fun _ _ => trivial

/-- In an environment that permits the calls of the cleanup. -/
theorem close_wp {γ : Type} {E : Env ClientSession Op Res Note γ} {ok : ClientSession → γ → Op → Prop}
    (h : ∀ s g o, Makes cleaning s o → ok s g o) (s : ClientSession) (g : γ) : close.wp E ok (fun _ _ _ => True) s g :=
  (close_acts s).wp (J := fun _ => True) (fun s g o _ _ ho => ⟨h s g o ho, fun _ _ _ => trivial⟩)
    (fun _ _ _ _ _ => trivial) trivial fun _ _ _ _ _ => trivial

end Accelerator.Gateway
