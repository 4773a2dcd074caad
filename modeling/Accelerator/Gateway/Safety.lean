/-
The safety of a client session: one round of the command loop keeps the invariant whatever the
client sends and upstream replies, the cleanup leaves nothing behind, and so every reachable state of
a session is one the invariant describes.
-/
import Accelerator.Gateway.PreparedRules

namespace Accelerator.Gateway

open Interact Strings Engine Upstream Session
open Protocol (Message)

/-! ## The cleanup -/

/-- What `close` leaves: nothing. -/
structure Ended (svc : Service) (s : ClientSession) (L : Ledger) : Prop extends Base [] 0 s L where
  begun : Begun s L
  tx : s.tx = none
  txCancel : s.txCancel = false
  pinnedConnection : s.pinnedConnection = none
  pinnedRelease : s.pinnedRelease = false
  prepared : s.prepared = ∅
  state : s.state = (newSession svc).state

/-- What holds while a session is closed: no transaction, and statements of the pinned connection. -/
structure Closing (svc : Service) (s : ClientSession) (L : Ledger) : Prop extends Base [] 0 s L where
  begun : Begun s L
  tx : s.tx = none
  baseline : s.state.baseline = (newSession svc).state.baseline
  statements : ∀ id p st, s.prepared.lookup id = some p → p.statement = some st → s.pinnedConnection = some st.conn

section Close

variable {svc : Service} {s : ClientSession} {L : Ledger}

theorem safe_abandonTransaction {Q : Post Unit} (hA : At svc [] 0 s L) (hQ : ∀ s' L', Closing svc s' L' → Q () s' L') :
    Safe abandonTransaction Q s L := by
  have hst : ∀ id p st, s.prepared.lookup id = some p → p.statement = some st → s.pinnedConnection = some st.conn :=
    fun id p st hl hs => ((hA.handles id p hl).statement st hs).2.1
  unfold abandonTransaction
  rw [safe_bind, safe_read]
  cases htx : s.tx with
  | none => exact hQ s L ⟨hA.toBase, hA.begun, htx, hA.baseline, hst⟩
  | some t =>
    simp only
    rw [safe_bind]
    refine .call (.onTransaction hA htx rfl rfl (by simp [Op.text?]) (by simp [Op.executes?])) fun x _ => ?_
    have hF := hA.finishing htx s.state (inDoubt x) (L.log.rollBack t x) rfl rfl rfl rfl hA.counted rfl
    exact hQ _ _ ⟨hF.base, hF.begun, rfl, hA.baseline, hst⟩

theorem Closing.drop (h : Closing svc s L) (id : UInt32) : Closing svc (s.drop id) L := by
  refine ⟨h.toBase.congr rfl rfl rfl, h.begun, h.tx, h.baseline, ?_⟩
  intro id' p st hl hs
  have hne : id' ≠ id := fun he => (AList.mem_erase.1 (mem_of_lookup hl)).1 he
  exact h.statements id' p st ((AList.lookup_erase_ne hne).symm.trans hl) hs

/-- The loop closes every handle it comes to. -/
theorem safe_closeHandles {Q : Post Unit} (ids : List UInt32) (h : Closing svc s L)
    (hQ : ∀ s', Closing svc s' L → s'.txCancel = s.txCancel → (∀ id, id ∈ s'.prepared → id ∈ s.prepared ∧ id ∉ ids) →
      Q () s' L) :
    Safe (closeHandles ids) Q s L := by
  induction ids generalizing s with
  | nil => exact hQ s h rfl fun id hid => ⟨hid, List.not_mem_nil⟩
  | cons id ids ih =>
    unfold closeHandles
    rw [safe_bind, safe_read]
    cases hl : s.prepared.lookup id with
    | none =>
      refine ih h fun s' h' hc hm => hQ s' h' hc fun id' hid' => ⟨(hm id' hid').1, ?_⟩
      rw [List.mem_cons, not_or]
      exact ⟨fun he => AList.lookup_eq_none.1 hl (he ▸ (hm id' hid').1), (hm id' hid').2⟩
    | some p =>
      simp only
      rw [safe_bind]
      refine safe_closeStatement h.toBase h.begun (fun st hst => ?_) ?_
      · rw [h.held, h.statements id p st hl hst]; simp
      rw [dropHandle, safe_bind, safe_modify]
      refine ih (h.drop id) fun s' h' hc hm => hQ s' h' hc fun id' hid' => ?_
      obtain ⟨hin, hnot⟩ := hm id' hid'
      obtain ⟨hne, hin⟩ := AList.mem_erase.1 hin
      exact ⟨hin, by rw [List.mem_cons, not_or]; exact ⟨hne, hnot⟩⟩

/-- A map without keys. -/
theorem eq_empty_of_notMem {α : Type} {β : α → Type} {m : AList β} (h : ∀ a, a ∉ m) : m = ∅ := by
  have hkeys : m.keys = [] := List.eq_nil_iff_forall_not_mem.2 fun a ha => h a ha
  exact AList.ext (List.map_eq_nil_iff.1 hkeys)

theorem safe_close (hA : At svc [] 0 s L) : Safe close (fun _ => Ended svc) s L := by
  unfold close
  rw [safe_bind]
  refine safe_abandonTransaction hA fun s₁ L₁ h₁ => ?_
  rw [safe_bind]
  refine safe_cancelTransaction h₁.toBase h₁.begun ?_
  have h₂ : Closing svc { s₁ with txCancel := false } L₁ :=
    ⟨h₁.toBase.congr rfl rfl rfl, h₁.begun, h₁.tx, h₁.baseline, h₁.statements⟩
  rw [closeAllPrepared, safe_bind, safe_bind, safe_read]
  refine safe_closeHandles _ h₂ fun s₃ h₃ hcancel hm => ?_
  rw [safe_bind]
  refine safe_releasePinnedConnection h₃.toBase h₃.begun h₃.tx (by simp) ?_
  rw [safe_modify]
  refine ⟨⟨?_, by simp [ClientSession.unpin], ?_, rfl, rfl, by simp, h₃.counted, h₃.once, Stock.clear (s := s₃)⟩,
    h₃.begun, h₃.tx, hcancel, rfl, rfl, eq_empty_of_notMem fun id hid => ?_, ?_⟩
  · simp [ClientSession.unpin, h₃.tx]
  · simp [ClientSession.unpin, h₃.tx]
  · exact (hm id hid).2 (AList.mem_keys.1 (hm id hid).1)
  · show Logical.new s₃.state.baseline = _
    rw [h₃.baseline]
    rfl

end Close

/-! ## The command loop -/

section Loop

variable {svc : Service} {s : ClientSession} {L : Ledger}

theorem safe_dispatch {message : Message} {command : UInt8} {rest : Bytes}
    (hV : Serving svc ⟨s, message⟩ s L) (hp : message.payload = command :: rest) :
    Safe (dispatch svc command rest) (Done svc) s L := by
  have hA := hV.at'
  have hR := hV.ready
  have hst : (⟨s, message⟩ : Request).statement? =
      if command = commandQuery then some (classifySQL (ofBytes rest)) else none := by
    simp only [Request.statement?, hp]
  have hprep : (⟨s, message⟩ : Request).isPrepare = decide (command = commandStmtPrepare) := by
    simp [Request.isPrepare, hp]
  have hh : (⟨s, message⟩ : Request).handle? =
      if command = commandStmtExecute ∧ 10 ≤ (command :: rest).length then
        s.prepared.lookup (handleID (command :: rest)) else none := by
    rw [Request.handle?, show message.payload = command :: rest from hp]
    simp only [List.head?_cons, Option.some.injEq]
  have hE : command ≠ commandQuery → command ≠ commandStmtExecute → ∀ l, (⟨s, message⟩ : Request).Earned l :=
    fun h1 h2 l => .of_none (by rw [hst, if_neg h1]) (by rw [hh, if_neg fun h => h2 h.1])
  revert hst hprep hh hE hp
  apply dispatch_cases (motive := fun command prog => message.payload = command :: rest →
    (⟨s, message⟩ : Request).statement? = (if command = commandQuery then some (classifySQL (ofBytes rest)) else none) →
    (⟨s, message⟩ : Request).isPrepare = decide (command = commandStmtPrepare) →
    (⟨s, message⟩ : Request).handle? = (if command = commandStmtExecute ∧ 10 ≤ (command :: rest).length then
      s.prepared.lookup (handleID (command :: rest)) else none) →
    (command ≠ commandQuery → command ≠ commandStmtExecute → ∀ l, (⟨s, message⟩ : Request).Earned l) →
    Safe prog (Done svc) s L)
  case ping =>
    intro _ _ _ _ hE
    exact safe_writeOK hA hR (hV.earned rfl (hE (by decide) (by decide) _)) (.of_ready hA hR)
  case initDB =>
    intro _ _ _ _ hE
    exact safe_initDatabase hV (hE (by decide) (by decide))
  case query =>
    intro _ hst _ _ _
    exact safe_query hV (by rw [hst, if_pos rfl])
  case prepare =>
    intro _ _ hprep _ _
    exact safe_prepare hV (hprep.trans (decide_eq_true rfl))
  case execute =>
    intro hp hst hprep hh _
    refine safe_executePrepared hV (hprep.trans (by decide)) (by rw [hst, if_neg (by decide)]) hp fun hlen => ?_
    rw [hh, if_pos ⟨rfl, hlen⟩]
  case sendLongData => exact fun _ _ _ _ _ => safe_sendPreparedLongData hA hR
  case close => exact fun _ _ _ _ _ => safe_closePrepared hA hR
  case reset =>
    intro _ _ _ _ hE
    exact safe_resetPrepared hV (hE (by decide) (by decide))
  case refused =>
    intro _ reason code state text _ _ _ _ _ _
    rw [safe_bind, safe_tell]
    exact safe_writeError hA hR.alive (.of_ready hA hR)

/-- What holds between two commands. -/
structure Idle (svc : Service) (s : ClientSession) (L : Ledger) : Prop where
  at' : At svc [] 0 s L
  ready : Ready s L

theorem Good.reading (hI : Idle svc s L) : Good s L .readMessage := by
  have hA := hI.at'
  refine ⟨⟨0, .inl rfl, [], 0, hA.toBase⟩, fun t h h' => .inl (hA.begun t h h'), by simp, by simp [Op.connection?],
    by simp [Op.sends?], by simp [Op.text?], by simp [Op.executes?], by simp [Op.admits], by simp,
    fun _ => hI.ready.alive, by simp, by simp, by simp, by simp⟩

theorem Idle.serving (hI : Idle svc s L) (message : Message) :
    Serving svc ⟨s, message⟩ s (L.reply s .readMessage (.ok message)) := by
  have hA := hI.at'
  refine ⟨hA.of_base ⟨hA.pinned, hA.release, hA.unfinished, hA.held, hA.tokens, by simp, hA.counted, Nat.zero_le _,
      le_rfl, hA.stock.2⟩ rfl rfl,
    ⟨hI.ready.toSteady.congr rfl rfl (fun _ => Iff.rfl) rfl rfl rfl rfl rfl, hI.ready.justified⟩, rfl, rfl, rfl⟩

/-- One round of the command loop. -/
theorem safe_serveCommand (hI : Idle svc s L) :
    Safe (serveCommand svc) (fun b s L => if b then Idle svc s L else At svc [] 0 s L) s L := by
  unfold serveCommand
  rw [safe_bind]
  refine .call (.reading hI) fun x _ => ?_
  cases x with
  | error e => exact hI.at'
  | ok message =>
    have hV := hI.serving message
    simp only
    cases hp : message.payload with
    | nil => exact hV.at'
    | cons command rest =>
      simp only
      split
      · exact hV.at'
      · rw [safe_bind]
        refine (safe_dispatch hV hp).mono fun x s' L' hD => ?_
        cases x with
        | ok u => exact ⟨hD.at', hD.ready rfl⟩
        | error e => exact hD.at'

theorem idle_newSession (svc : Service) : Idle svc (newSession svc) {} := by
  refine ⟨⟨⟨?_, ?_, ?_, rfl, rfl, by simp, rfl, Nat.zero_le _, le_rfl, Nat.zero_le _, rfl, ?_⟩, ?_, rfl, rfl, ?_, rfl,
    ?_, ?_, ?_⟩, ⟨⟨rfl, rfl, fun _ => rfl, fun _ => ⟨rfl, ?_, ?_⟩, fun _ => ?_⟩, ?_⟩⟩
  · rintro t ⟨⟩
  · rintro ⟨⟩
  · rintro t ⟨⟩
  · rintro c ⟨⟩
  · intro t ht; cases ht
  · rintro ⟨⟩
  · intro id hid; exact absurd hid (AList.notMem_empty id)
  · intro id hid; exact absurd hid (AList.notMem_empty id)
  · intro id p hl; cases hl
  · intro id hid; exact absurd hid (Finset.notMem_empty id)
  · intro id hid; exact absurd hid (Finset.notMem_empty id)
  · intro id hid; exact absurd hid (Finset.notMem_empty id)
  · rintro _ ⟨⟩

/-- Every reachable state of a session satisfies the invariant of its stage. -/
theorem reachable_holds {c : Conf ClientSession Op Res Note Ledger} (h : Reachable svc c) :
    Process.Holds upstream Good (Idle svc) (At svc [] 0) (Ended svc) c := by
  exact Process.reach_holds (P := handleClient svc) (fun s L hI => safe_serveCommand hI) (fun s L hA => safe_close hA)
    (idle_newSession svc) h

/-- Every call a session makes is good. -/
theorem reachable_good {c : Conf ClientSession Op Res Note Ledger} (h : Reachable svc c) {o : Op}
    (ho : c.pending = some o) : Good c.state c.env o :=
  (reachable_holds h).call ho

section Reachable

variable {c : Conf ClientSession Op Res Note Ledger}

theorem reachable_idle (h : Reachable svc c) (hi : c.isIdle = true) : Idle svc c.state c.env :=
  (reachable_holds h).round hi

/-- The books of a session, with the token a read is short of while it closes its connection. -/
theorem reachable_base (h : Reachable svc c) :
    ∃ k cs n, Base cs (n + k) c.state { c.env with tokens := c.env.tokens + k } ∧
      (k = 0 ∨ k = 1 ∧ (∃ d, c.pending = some (.closeConn d)) ∧ ∃ r, c.env.log.request = some r ∧ r.ReadsAlone) := by
  have hh := reachable_holds h
  obtain ⟨s, L, stage⟩ := c
  have hcall : ∀ {o : Op}, Good s L o → Conf.pending ⟨s, L, stage⟩ = some o →
      ∃ k cs n, Base cs (n + k) s { L with tokens := L.tokens + k } ∧
        (k = 0 ∨ k = 1 ∧ (∃ d, Conf.pending ⟨s, L, stage⟩ = some (.closeConn d)) ∧
          ∃ r, L.log.request = some r ∧ r.ReadsAlone) := by
    intro o hG ho
    obtain ⟨k, hk, cs, n, hB⟩ := hG.base
    refine ⟨k, cs, n, hB, hk.imp_right ?_⟩
    rintro ⟨hone, ⟨d, rfl⟩, hr⟩
    exact ⟨hone, ⟨d, ho⟩, hr⟩
  cases stage with
  | idle => exact ⟨0, [], 0, hh.at'.toBase, .inl rfl⟩
  | busy o k => exact hcall hh.1 rfl
  | closing o k => exact hcall hh.1 rfl
  | ended => exact ⟨0, [], 0, hh.toBase, .inl rfl⟩

theorem reachable_ended (h : Reachable svc c) (he : c.stage = .ended) : Ended svc c.state c.env :=
  (reachable_holds h).over he

/-- A transaction that was begun and is not finished is the open one, or is just being undone. -/
theorem reachable_begun (h : Reachable svc c) {t : Tx} (ht : t ∈ c.env.log.begun) (hf : t ∉ c.env.log.finished) :
    c.state.tx = some t ∨ c.pending = some (.rollback t) := by
  have hh := reachable_holds h
  obtain ⟨s, L, stage⟩ := c
  cases stage with
  | idle => exact .inl (hh.at'.begun t ht hf)
  | busy o k => exact (hh.1.begun t ht hf).imp_right (congrArg some)
  | closing o k => exact (hh.1.begun t ht hf).imp_right (congrArg some)
  | ended => exact .inl (hh.begun t ht hf)

end Reachable

end Loop

end Accelerator.Gateway
