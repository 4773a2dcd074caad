/-
The sessions of the gateway refine sessions on connections of their own: the handlers of the prepared
statement commands, the rounds of a session and its end, and from these any interleaving of sessions.
-/
import Accelerator.Gateway.Direct

namespace Accelerator.Gateway

open Interact Strings Engine Upstream Session
open Protocol (Message)

section Commands

variable {svc : Service} {c : Command} {d : Direct} {past : List Turn} {s s' : ClientSession} {h : History}

/-! ## Prepared statements -/

theorem works_prepareOnCurrent {q : Text} {Q : Except GoError Stmt → ClientSession → History → Prop}
    (herror : ∀ e, Q (.error e) s h) (hok : ∀ st : Stmt, st.query = q → st.tx = s.tx → Q (.ok st) s h) :
    Works (prepareOnCurrentConnection q) Q s h := by
  have hcall : ∀ via : Via, via.transaction = s.tx → Works (call (.prepare via q)) Q s h := by
    intro via hv
    refine works_call fun r hr => ?_
    cases r with
    | error e => exact herror e
    | ok st =>
      have hr : st = ⟨via.connection, via.transaction, q⟩ := hr
      subst hr
      exact hok _ rfl hv
  refine works_bind (works_read ?_)
  split
  · rename_i tx htx
    exact hcall (.tx tx) htx.symm
  · rename_i htx
    split
    · exact hcall (.conn _) htx.symm
    · exact works_panic

/-- A command that is none of the database's business does nothing, whatever it answers. -/
theorem works_other {cs : List Call} {ps : List Part} {p : M (Except GoError Unit)} (ht : h.turns = ⟨.other, false⟩ :: past)
    (hl : Linked s h) (hp : Does cs ps p) (hq : replies cs ps = true) : Works p (Serves .other (view s h) past) s h :=
  works_replies (fun _ => pends_nothing ht hl (by rintro ⟨⟩) rfl (.inr rfl)) hp hq fun r _ _ _ hs => hs.serves r

theorem works_freshStatement {id : UInt32} {p : PreparedStatement} {pin : Option Conn}
    {Q : Except GoError (Stmt × Bool) → ClientSession → History → Prop} (hp : HandleOK s.tx pin p)
    (herror : ∀ e, Q (.error e) s h)
    (hok : ∀ (st : Stmt) b s', Same s s' → st.query = p.query → st.tx = (if b then s.tx else none) →
      Q (.ok (st, b)) s' h) : Works (freshStatement id p) Q s h := by
  refine works_read ?_
  cases hst : p.statement with
  | none =>
    refine works_bind (works_prepareOnCurrent (fun e => herror e) fun st hq htx => works_modify ?_)
    refine hok st s.tx.isSome _ ⟨rfl, rfl⟩ hq ?_
    cases hs : s.tx with
    | none => rw [htx, hs]; rfl
    | some t => rw [htx, hs]; rfl
  | some st =>
    simp only
    split
    · -- a bound statement belongs to an open transaction
      rename_i hb
      simp only [Bool.and_eq_true, Option.isNone_iff_eq_none] at hb
      have := (hp.bound hb.1).2
      rw [hb.2] at this
      cases this
    · obtain ⟨hq, -, htx⟩ := hp.statement st hst
      exact hok st _ s (Same.refl s) hq htx

theorem works_statementForExecution {id : UInt32} {p : PreparedStatement} {pin : Option Conn}
    {Q : Except GoError (Stmt × Bool) → ClientSession → History → Prop} (hp : HandleOK s.tx pin p)
    (herror : ∀ e, Q (.error e) s h)
    (hok : ∀ (st : Stmt) temporary s', Same s s' → st.query = p.query → st.via.transaction = s'.tx →
      Q (.ok (st, temporary)) s' h) : Works (statementForExecution id p) Q s h := by
  refine works_bind (works_freshStatement hp (fun e => herror e) fun st b s' hs hq htx => works_read ?_)
  split
  · rename_i tx htx'
    split
    · refine works_then fun r hr => ?_
      have hr : r = ⟨tx.conn, some tx, st.query⟩ := hr
      subst hr
      exact hok _ true s' hs hq htx'.symm
    · rename_i hb
      have hb : b = true := by simpa using hb
      refine hok st false s' hs hq ?_
      rw [Stmt.transaction_via, htx, hb, hs.1]
      rfl
  · rename_i htx'
    refine hok st false s' hs hq ?_
    rw [Stmt.transaction_via, htx, ← hs.1, htx']
    split <;> rfl

theorem works_runPrepared {q : Text} {st : Stmt} {arguments : List Argument} {k : Except GoError Unit → M (Except GoError Unit)}
    (hk : ∀ r, Does [.closeStatement] [] (k r))
    (hd : ∀ ok b, (ok = false → b = true) → Pends c d past b s (h.sent st.via st.query ok)) :
    Works (runPrepared svc q st arguments >>= k) (Serves c d past) s h := by
  have hany : ∀ b, Pends c d past b s (h.sent st.via st.query true) := fun b => hd true b (by rintro ⟨⟩)
  have hfail : ∀ e, Works (writeSQLError e) (fun r => Works (k r) (Serves c d past)) s (h.sent st.via st.query false) :=
    fun e => works_tell ((hd false true fun _ => rfl).writesError fun r _ hs => hs.still (hk r) rfl)
  refine works_bind ?_
  unfold runPrepared
  split
  · refine works_then fun r _ => ?_
    cases r with
    | error e => exact hfail e
    | ok rows =>
      exact works_replies hany (sendRows_does (encodeBinary_row svc) currentVia_does rows) rfl fun r _ _ _ hs =>
        hs.still (hk r) rfl
  · refine works_then fun r _ => ?_
    cases r with
    | error e => exact hfail e
    | ok result =>
      refine works_replies hany (currentVia_does.then rfl rfl fun via => (readWarningCount_does via).then rfl rfl fun r =>
        (?_ : Does [.ok, .error, .warnings, .panic] [.logical] _)) rfl fun r _ _ _ hs => hs.still (hk r) rfl
      cases r with
      | error e => exact (writeSQLError_does e).mono rfl rfl
      | ok warnings => exact (replyResult_does _).mono rfl rfl

/-- A handle stays good when a transaction is begun for its execution. -/
theorem HandleOK.begun {tx : Option Tx} {pin : Option Conn} {p : PreparedStatement} (hp : HandleOK s.tx pin p)
    (htx : tx = s.tx ∨ s.tx = none) : HandleOK tx pin p := by
  rcases htx with rfl | hnone
  · exact hp
  · have hb : p.transactionBound = false := by
      cases hb : p.transactionBound with
      | false => rfl
      | true =>
        have := (hp.bound hb).2
        rw [hnone] at this
        cases this
    constructor
    · intro st hst
      have := hp.statement st hst
      rw [hb] at this ⊢
      exact this
    · rw [hb]
      rintro ⟨⟩

theorem works_runHandle {id : UInt32} {p : PreparedStatement} {pin : Option Conn} {arguments : List Argument}
    (hp : Poised c d past s h) (hq : c.runs? = some p.query) (hok : HandleOK s.tx pin p) :
    Works (runHandle svc id p arguments) (Serves c d past) s h := by
  refine works_bind (works_statementForExecution hok (fun e => hp.fail) ?_)
  intro st temporary s' hs hst hvia
  have hsent := (hp.same hs).sent hq _ hvia
  rw [← hst] at hsent
  exact works_runPrepared (fun r => (closeTemporary_does _ _).bind fun _ => does_pure r) hsent

theorem works_executePrepared {payload : Bytes} (ht : h.turns = ⟨c, false⟩ :: past) (hl : Linked s h)
    (hc : ∀ st, c ≠ .query st) (hh : ∀ id p, s.prepared.lookup id = some p → HandleOK s.tx s.pinnedConnection p)
    (hlookup : 10 ≤ payload.length → ∀ p, s.prepared.lookup (handleID payload) = some p → c = .execute p.query) :
    Works (executePrepared svc payload) (Serves c (view s h) past) s h := by
  have hn : Pends c (view s h) past true s h := by
    cases c with
    | query st => exact absurd rfl (hc st)
    | _ => exact pends_nothing ht hl (by rintro ⟨⟩) rfl (.inl rfl)
  have hstored : ∀ m, Pends c (view s h) past true { s with prepared := m } h := fun _ => hn.same ⟨rfl, rfl⟩
  unfold executePrepared
  split
  · exact hn.refuse
  · rename_i hlen
    refine works_read ?_
    split
    · exact hn.refuse
    · rename_i p hp
      obtain rfl := hlookup (by omega) p hp
      split
      · exact hn.refuse
      · split
        · exact works_modify (hstored _).refuse
        · obtain ⟨types, hfst⟩ := decodeArguments_fst p payload
          simp only [hfst]
          refine works_modify ?_
          split
          · exact (hstored _).refuse
          · exact works_panic
          · -- storing the handle changes nothing that the commands after it can see
            have hok : HandleOK s.tx s.pinnedConnection { p with parameterTypes := types }.clearLongData :=
              (hh _ p hp).congr rfl rfl rfl
            refine works_implicit (c := .execute p.query) ht rfl (by rintro _ ⟨⟩) hl (fun _ => rfl) ?_
            intro s' h' htx hpoised
            exact works_runHandle hpoised rfl (hok.begun htx)

/-! ## Rounds -/

theorem Request.command_other {message : Message} {command : UInt8} {rest : Bytes}
    (hm : message.payload = command :: rest) (hq : command ≠ commandQuery) (he : command ≠ commandStmtExecute) :
    Request.command ⟨s, message⟩ = .other := by
  have hst : Request.statement? ⟨s, message⟩ = none := by
    simp only [Request.statement?, hm, hq, if_false]
  have hh : Request.handle? ⟨s, message⟩ = none := by
    simp [Request.handle?, hm, he]
  simp only [Request.command, hst, hh]

theorem Request.command_query {message : Message} {rest : Bytes} (hm : message.payload = commandQuery :: rest) :
    Request.command ⟨s, message⟩ = .query (classifySQL (ofBytes rest)) := by
  simp only [Request.command, Request.statement?, hm, if_true]

theorem Request.command_execute {message : Message} {rest : Bytes} (hm : message.payload = commandStmtExecute :: rest) :
    (∀ st, Request.command ⟨s, message⟩ ≠ .query st) ∧ (10 ≤ (commandStmtExecute :: rest).length →
      ∀ p, s.prepared.lookup (handleID (commandStmtExecute :: rest)) = some p →
        Request.command ⟨s, message⟩ = .execute p.query) := by
  have hst : Request.statement? ⟨s, message⟩ = none := by
    simp only [Request.statement?, hm]
    rfl
  constructor
  · intro st h
    rw [Request.command, hst] at h
    cases hh : Request.handle? ⟨s, message⟩ <;> rw [hh] at h <;> cases h
  · intro hlen p hp
    have hh : Request.handle? ⟨s, message⟩ = some p := by
      rw [Request.handle?, hm, if_pos ⟨rfl, hlen⟩]
      exact hp
    simp only [Request.command, hst, hh]

theorem works_dispatch {message : Message} {command : UInt8} {rest : Bytes} (hm : message.payload = command :: rest)
    (ht : h.turns = ⟨Request.command ⟨s, message⟩, false⟩ :: past) (hl : Linked s h)
    (hh : ∀ id p, s.prepared.lookup id = some p → HandleOK s.tx s.pinnedConnection p) :
    Works (dispatch svc command rest) (Serves (Request.command ⟨s, message⟩) (view s h) past) s h := by
  -- all but queries and executes run nothing of the client's
  have hother : ∀ {command : UInt8} {cs : List Call} {ps : List Part} {p : M (Except GoError Unit)}, command ≠ commandQuery →
      command ≠ commandStmtExecute → Does cs ps p → replies cs ps = true → message.payload = command :: rest →
      Works p (Serves (Request.command ⟨s, message⟩) (view s h) past) s h := by
    intro command cs ps p hq he hp hr hm
    rw [Request.command_other hm hq he] at ht ⊢
    exact works_other ht hl hp hr
  revert hm
  apply dispatch_cases (motive := fun command p => message.payload = command :: rest →
    Works p (Serves (Request.command ⟨s, message⟩) (view s h) past) s h)
  case ping => exact hother (by decide) (by decide) (writeOK_does _ _ _) rfl
  case initDB => exact hother (by decide) (by decide) (initDatabase_does _) rfl
  case query =>
    intro hm
    rw [Request.command_query hm] at ht ⊢
    exact works_query _ ht hl
  case prepare => exact hother (by decide) (by decide) (prepare_does _) rfl
  case execute =>
    intro hm
    obtain ⟨hc, hlookup⟩ := Request.command_execute (s := s) hm
    exact works_executePrepared ht hl hc hh hlookup
  case sendLongData => exact hother (by decide) (by decide) (sendPreparedLongData_does _) rfl
  case close => exact hother (by decide) (by decide) (closePrepared_does _) rfl
  case reset => exact hother (by decide) (by decide) (resetPrepared_does _) rfl
  case refused =>
    intro command reason code state text hserved
    have hdoes : Does [.error] [] (do Prog.tell (.recordRejection reason); writeError 1 code state text) :=
      does_tell rfl (writeError_does _ _ _ _)
    refine hother ?_ ?_ hdoes rfl
    · rintro rfl
      exact hserved (by decide)
    · rintro rfl
      exact hserved (by decide)

theorem works_serveCommand (hl : Linked s h) (hr : Direct.Run h.turns (view s h))
    (hh : ∀ id p, s.prepared.lookup id = some p → HandleOK s.tx s.pinnedConnection p) :
    Works (serveCommand svc) (fun b s h => Linked s h ∧
      if b then Direct.Run h.turns (view s h) else Direct.Tried h.turns (view s h)) s h := by
  refine works_then fun r _ => ?_
  cases r with
  | error e => exact ⟨hl, .done hr⟩
  | ok message =>
    generalize hc : (if message.sequence = 0 then Request.command ⟨s, message⟩ else .other) = c
    show Works _ _ s { h with
      turns := ⟨if message.sequence = 0 then Request.command ⟨s, message⟩ else .other, false⟩ :: h.turns }
    rw [hc]
    -- a message that is not served does nothing
    have hquit : c = .other → Direct.Tried (⟨c, false⟩ :: h.turns) (view s h) := by
      rintro rfl
      exact .last hr (.step (.nothing (by rintro ⟨⟩) rfl (.inr rfl)))
    simp only
    cases hp : message.payload with
    | nil =>
      refine ⟨hl, hquit ?_⟩
      rw [← hc]
      split
      · simp only [Request.command, Request.statement?, Request.handle?, hp]
        rfl
      · rfl
    | cons command rest =>
      simp only
      split
      · rename_i hend
        refine ⟨hl, hquit ?_⟩
        rw [← hc]
        split
        · rename_i hseq
          obtain rfl := hend.resolve_left (absurd hseq)
          exact Request.command_other hp (by decide) (by decide)
        · rfl
      · rename_i hgo
        have hseq : message.sequence = 0 := by simpa using (not_or.1 hgo).1
        rw [if_pos hseq] at hc
        subst hc
        have hl' : Linked s { h with turns := ⟨Request.command ⟨s, message⟩, false⟩ :: h.turns } := hl
        refine works_bind (Prog.wp_mono (works_dispatch hp rfl hl' hh) fun r s' h' hs => ?_)
        cases r with
        | ok u =>
          obtain ⟨hlinked, refused, hturns, hstep⟩ := hs
          refine ⟨hlinked, ?_⟩
          rw [if_pos rfl, hturns]
          exact .step hr hstep
        | error e =>
          obtain ⟨hlinked, refused, hturns, hlast⟩ := hs
          refine ⟨hlinked, ?_⟩
          rw [if_neg Bool.false_ne_true, hturns]
          exact .last hr hlast

/-- The work of a session that has ended. -/
def Settled (h : History) : Prop :=
  h.current = none ∧ ∃ d, Direct.Tried h.turns d ∧ d.Leaves h.past

theorem works_close (hl : Linked s h) (ht : Direct.Tried h.turns (view s h)) :
    Works close (fun _ _ => Settled) s h := by
  have hrest : ∀ s' h', Settled h' → Works (cancelTransaction >>= fun _ => closeAllPrepared >>= fun _ =>
      releasePinnedConnection true >>= fun _ => Prog.modify fun s => { s with state := s.state.disconnect })
      (fun _ _ => Settled) s' h' := by
    intro s' h' hs
    refine cancelTransaction_does.stillThen rfl fun _ _ _ => closeAllPrepared_does.stillThen rfl fun _ _ _ => ?_
    exact (releasePinnedConnection_does true).stillThen rfl fun _ _ _ => hs
  refine works_bind (works_read ?_)
  split
  · rename_i tx htx
    obtain ⟨l, hc⟩ := hl.some htx
    refine works_then fun r _ => ?_
    show Works _ _ s (h.finish (if inDoubt r then .unknown else .undone))
    -- what is left open is rolled back, or in doubt, and in no case committed
    generalize ho : (if inDoubt r then Outcome.unknown else Outcome.undone) = o
    have hne : o ≠ .committed := by
      rw [← ho]
      split <;> decide
    refine hrest _ _ ⟨h.finish_current o, view s h, ?_, .inr ⟨l, o, hc, hne, ?_⟩⟩
    · rw [h.finish_turns]
      exact ht
    · have hview : view s (h.finish o) = (view s h).finish l o := view_finish hc o rfl
      rw [← hview]
      rfl
  · rename_i htx
    exact hrest s h ⟨hl.none htx, view s h, ht, .inl ⟨hl.none htx, rfl⟩⟩

end Commands

/-! ## Sessions beside each other -/

/-- The ledger allows only what the history counts on. -/
theorem bound_of_allow (L : Ledger) (_ : History) (o : Op) (r : Res o) (h : allow L o r) : bound o r := by
  cases o with
  | prepare via q =>
    cases r with
    | ok st => exact h
    | error e => trivial
  | txStmt t st => exact h
  | _ => trivial

/-- Between rounds, by both records. -/
structure Refines (svc : Service) (s : ClientSession) (g : Ledger × History) : Prop where
  idle : Idle svc s g.1
  linked : Linked s g.2
  run : Direct.Run g.2.turns (view s g.2)

/-- A session that is left, by both records. -/
structure Leaving (svc : Service) (s : ClientSession) (g : Ledger × History) : Prop where
  at' : At svc [] 0 s g.1
  linked : Linked s g.2
  tried : Direct.Tried g.2.turns (view s g.2)

variable {ι : Type} [Fintype ι] [DecidableEq ι]

/-- Any number of sessions of one gateway, each with its ledger and its history. -/
abbrev Histories (ι : Type) := System ClientSession Op Res Note (World ι) ι (Ledger × History)

/-- The states that sessions over one pool and one budget can reach, from the start of the gateway. -/
def Histories.Reachable (svc : Service) (limits : Limits) (S : Histories ι) : Prop :=
  System.Reach (beside Ledger.next History.next) (World.env limits) (handleClient svc) (World.fresh ι) (newSession svc)
    ({}, {}) S

/-- Both records of a session, from its rounds to its end. -/
theorem histories_hold {svc : Service} {limits : Limits} {S : Histories ι} (h : S.Reachable svc limits) (i : ι) :
    Process.Holds (account (beside Ledger.next History.next) fun g => allow g.1) (fun s g => Good s g.1) (Refines svc)
      (Leaving svc) (fun s g => Ended svc s g.1 ∧ Settled g.2) (S.thread i) := by
  have hi := (System.project ((world_justifies limits).beside History.next {}) h fun _ _ _ _ => trivial).2 i
  refine Process.reach_holds ?_ ?_ ?_ hi
  · rintro s ⟨L, h⟩ hr
    have hround := Prog.wp_beside bound_of_allow (safe_serveCommand hr.idle)
      (works_serveCommand hr.linked hr.run hr.idle.at'.handles)
    refine Prog.wp_mono hround ?_
    rintro (_ | _) s g ⟨h₁, hl, h₂⟩
    · exact ⟨h₁, hl, h₂⟩
    · exact ⟨h₁, hl, h₂⟩
  · rintro s ⟨L, h⟩ hl
    exact Prog.wp_beside bound_of_allow (safe_close hl.at') (works_close hl.linked hl.tried)
  · exact ⟨idle_newSession svc, rfl, .start⟩

/-- In any interleaving of any number of sessions, whatever the database replies, the work of a session is the
work of a session on a connection of its own that was given the same commands and answered the same of them with
an error; when it has ended, a transaction it left open was not committed. -/
theorem sessions_refine_direct {svc : Service} {limits : Limits} {S : Histories ι} (h : S.Reachable svc limits) (i : ι) :
    ((S.thread i).isIdle = true →
      Direct.Run (S.thread i).env.2.turns (view (S.thread i).state (S.thread i).env.2)) ∧
    ((S.thread i).stage = .ended → Settled (S.thread i).env.2) := by
  have hh := histories_hold h i
  generalize S.thread i = c at hh
  obtain ⟨s, g, stage⟩ := c
  constructor
  · intro hi
    cases stage with
    | idle => exact hh.run
    | _ => cases hi
  · rintro rfl
    exact hh.2

/-- One session commits a transaction while another asks for statements of its own. -/
def besideEachOther : Histories Bool :=
  System.play (beside Ledger.next History.next) (fun i w => w.answer sampleLimits i) World.note
    (handleClient sampleService) (System.start (World.fresh Bool) (newSession sampleService) ({}, {}))
    (asks false (comQuery "begin") 40 ++ asks true (comQuery "do 1") 40 ++ asks false (comQuery "delete from t") 40 ++
      asks false (comQuery "commit") 40)

theorem sessions_refine_direct_sample :
    (besideEachOther.thread false).env.2.past = [⟨[(text "delete from t", true)], .committed⟩] ∧
    Direct.Run (besideEachOther.thread false).env.2.turns
      (view (besideEachOther.thread false).state (besideEachOther.thread false).env.2) := by
  have h : besideEachOther.Reachable sampleService sampleLimits := System.steps_play _ _
  exact ⟨by decide +kernel, (sessions_refine_direct h false).1 (by decide +kernel)⟩

end Accelerator.Gateway
