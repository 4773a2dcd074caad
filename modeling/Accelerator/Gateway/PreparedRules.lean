/-
The rules of the prepared statement commands. The statement an execution runs belongs to the pinned
connection and to the open transaction, if there is one, however often the handle was prepared,
bound and invalidated before.
-/
import Accelerator.Gateway.Decode
import Accelerator.Gateway.TextRules

namespace Accelerator.Gateway

open Interact Strings Engine Upstream Session

/-! ## Handles -/

section Handles

variable {svc : Service} {cs : List Conn} {n : Nat} {s : ClientSession} {L : Ledger} {id : UInt32}
  {p p' : PreparedStatement}

theorem mem_of_lookup {m : AList fun _ : UInt32 => PreparedStatement} (h : m.lookup id = some p) : id ∈ m :=
  AList.lookup_isSome.1 (by rw [h]; rfl)

/-- Replace a handle. -/
theorem At.putHandle (h : At svc cs n s L) (hid : id ∈ s.prepared) (hp : HandleOK s.tx s.pinnedConnection p') :
    At svc cs n { s with prepared := s.prepared.insert id p' } L := by
  refine ⟨h.toBase.congr rfl rfl rfl, h.begun, h.cancel, h.releases, h.inTx, h.baseline, ?_, ?_, ?_⟩
  · intro id' hid'
    rcases AList.mem_insert _ |>.1 hid' with rfl | hid'
    · exact h.keys _ hid
    · exact h.keys _ hid'
  · exact fun _ _ => h.hold id hid
  · intro id' q hl
    by_cases he : id' = id
    · subst he
      rw [AList.lookup_insert] at hl; cases hl
      exact hp
    · rw [AList.lookup_insert_ne he] at hl
      exact h.handles id' q hl

theorem Ready.putHandle (h : Ready s L) (hid : id ∈ s.prepared) (p' : PreparedStatement) :
    Ready { s with prepared := s.prepared.insert id p' } L := by
  have hmem : ∀ id', id' ∈ s.prepared.insert id p' ↔ id' ∈ s.prepared := fun id' => by
    rw [AList.mem_insert]
    exact or_iff_right_of_imp fun he => he ▸ hid
  refine ⟨h.toSteady.congr rfl rfl hmem rfl rfl rfl rfl rfl, fun hk hp => ?_⟩
  rcases h.justified hk hp with htx | _
  · exact .inl htx
  · exact .inr ⟨id, (hmem id).2 hid⟩

theorem HandleOK.congr {tx : Option Tx} {pin : Option Conn} (h : HandleOK tx pin p) (hq : p'.query = p.query)
    (hs : p'.statement = p.statement) (hb : p'.transactionBound = p.transactionBound) : HandleOK tx pin p' :=
  ⟨by rw [hq, hs, hb]; exact h.statement, by rw [hs, hb]; exact h.bound⟩

end Handles

/-! ## Preparing -/

/-- The statement belongs to the pinned connection and to the transaction, if one is open. -/
structure Current (s : ClientSession) (q : Text) (st : Stmt) : Prop where
  query : st.query = q
  conn : s.pinnedConnection = some st.conn
  tx : st.tx = s.tx

/-- The ledger after a successful prepare for a request. -/
def Ledger.addPrepare (L : Ledger) (s : ClientSession) : Ledger :=
  { L with log := { L.log with
      prepares := L.log.prepares + 1
      collided := L.log.collided || decide (nextID s.nextPreparedID ∈ s.state.prepared) } }

section Prepare

variable {svc : Service} {s : ClientSession} {L : Ledger} {r : Request}

theorem routes_currentVia {cs : List Conn} {n : Nat} (hA : At svc cs n s L) (hp : s.pinnedConnection.isSome) :
    Routes currentVia s L := by
  intro Q hQ
  obtain ⟨c, hp⟩ := Option.isSome_iff_exists.1 hp
  unfold currentVia
  rw [safe_bind, safe_read]
  cases htx : s.tx with
  | some t =>
    refine hQ (.tx t) ⟨?_, htx.symm⟩
    show t.conn ∈ L.held
    rw [hA.held, hA.pinned t htx]; simp
  | none =>
    rw [hp]
    refine hQ (.conn c) ⟨?_, htx.symm⟩
    show c ∈ L.held
    rw [hA.held, hp]; simp

theorem Via.current {via : Via} (hA : At svc [] 0 s L) (hv : Route s L via) {q : Text} :
    Current s q ⟨via.connection, via.transaction, q⟩ := by
  refine ⟨rfl, ?_, hv.tx⟩
  have := hv.held
  rw [hA.held, List.nil_append, Option.mem_toList] at this
  exact this

theorem safe_prepareOnCurrentConnection {q : Text} {Q : Post (Except GoError Stmt)} (hA : At svc [] 0 s L)
    (hp : s.pinnedConnection.isSome) (hr : L.log.request = some r)
    (hq : s.tx.isSome → (classifySQL q).kind = .ddl → r.ExecutesDDL) (herr : ∀ e, Q (.error e) s L)
    (hok : ∀ st, Current s q st → Q (.ok st) s (if r.isPrepare then L.addPrepare s else L)) :
    Safe (prepareOnCurrentConnection q) Q s L := by
  unfold prepareOnCurrentConnection
  rw [safe_bind]
  refine routes_currentVia hA hp _ fun via hv => ?_
  refine .call (.sends hA.toBase hA.begun rfl hv.held rfl hv.tx ?_ (by simp [Op.executes?])) fun x hx => ?_
  · rintro _ ⟨⟩ htx hk
    exact ⟨r, hr, hq htx hk⟩
  · cases x with
    | error e => exact herr e
    | ok st =>
      have hst : st = ⟨via.connection, via.transaction, q⟩ := hx
      subst hst
      have hL : L.reply s (.prepare via q) (.ok ⟨via.connection, via.transaction, q⟩) =
          if r.isPrepare then L.addPrepare s else L := by
        cases hi : r.isPrepare <;> simp [Ledger.reply, Log.reply, hr, hi, Ledger.addPrepare]
      rw [hL]
      exact hok _ (Via.current hA hv)

theorem nextID_toNat {id : UInt32} (h : id.toNat + 1 < 2 ^ 32) : (nextID id).toNat = id.toNat + 1 := by
  have hadd : (id + 1).toNat = id.toNat + 1 := by
    rw [UInt32.toNat_add]
    exact Nat.mod_eq_of_lt h
  unfold nextID
  rw [if_neg]
  · exact hadd
  · intro h0
    rw [h0] at hadd
    simp at hadd

/-- A fresh handle. -/
theorem Current.handleOK {q : Text} {st : Stmt} (h : Current s q st) :
    HandleOK s.tx s.pinnedConnection (newPrepared q st s.tx.isSome) := by
  refine ⟨fun st' hst => ?_, fun hb => ⟨rfl, hb⟩⟩
  cases hst
  refine ⟨h.query, h.conn, h.tx.trans ?_⟩
  show s.tx = if s.tx.isSome = true then s.tx else none
  cases s.tx <;> rfl

/-- A new identifier that both tables accept. -/
theorem At.register (hA : At svc [] 0 s L) {q : Text} {st : Stmt} (hst : Current s q st) (id : UInt32) :
    At svc [] 0 { s with
      nextPreparedID := id, prepared := s.prepared.insert id (newPrepared q st s.tx.isSome)
      state := { s.state with prepared := insert id s.state.prepared } } L := by
  refine ⟨hA.toBase.congr rfl rfl rfl, hA.begun, hA.cancel, hA.releases, hA.inTx, hA.baseline, ?_, ?_, ?_⟩
  · intro id' hid'
    rcases AList.mem_insert _ |>.1 hid' with rfl | hid'
    · exact Finset.mem_insert_self _ _
    · exact Finset.mem_insert_of_mem (hA.keys id' hid')
  · intro _ _
    show s.pinnedConnection.isSome
    rw [hst.conn]; rfl
  · intro id' p hl
    by_cases he : id' = id
    · subst he
      rw [AList.lookup_insert] at hl; cases hl
      exact hst.handleOK
    · rw [AList.lookup_insert_ne he] at hl
      exact hA.handles id' p hl

theorem Tables.register {k : Nat} (hT : Tables s k) (hk : k + 1 < 2 ^ 32) {p : PreparedStatement} :
    Tables { s with
      nextPreparedID := nextID s.nextPreparedID, prepared := s.prepared.insert (nextID s.nextPreparedID) p
      state := { s.state with prepared := insert (nextID s.nextPreparedID) s.state.prepared } } (k + 1) := by
  have hn : (nextID s.nextPreparedID).toNat = k + 1 := by rw [nextID_toNat (by rw [hT.next]; exact hk), hT.next]
  refine ⟨hn, fun id hid => ?_, fun id hid => AList.mem_insert _ |>.2 ?_⟩
  · rcases Finset.mem_insert.1 hid with rfl | hid
    · rw [hn]; omega
    · have := hT.ids id hid; omega
  · exact (Finset.mem_insert.1 hid).imp_right (hT.live id)

/-- The next identifier is not in use as long as identifiers last. -/
theorem Tables.fresh {k : Nat} (hT : Tables s k) (hk : k + 1 < 2 ^ 32) :
    nextID s.nextPreparedID ∉ s.state.prepared := fun hm => by
  have := (hT.ids _ hm).2
  rw [nextID_toNat (by rw [hT.next]; exact hk), hT.next] at this
  omega

/-- An identifier that is still in use: the new handle is given up again. -/
theorem At.unregister (hA : At svc [] 0 s L) (hp : s.pinnedConnection.isSome) (id : UInt32) (p : PreparedStatement) :
    At svc [] 0 { s with nextPreparedID := id, prepared := (s.prepared.insert id p).erase id } L := by
  refine ⟨hA.toBase.congr rfl rfl rfl, hA.begun, hA.cancel, hA.releases, hA.inTx, hA.baseline, ?_, fun _ _ => hp, ?_⟩
  · intro id' hid'
    obtain ⟨hne, hid'⟩ := AList.mem_erase.1 hid'
    exact hA.keys id' ((AList.mem_insert _ |>.1 hid').resolve_left hne)
  · intro id' p' hl
    have hne : id' ≠ id := fun he => by
      have := mem_of_lookup hl
      exact (AList.mem_erase.1 this).1 he
    rw [AList.lookup_erase_ne hne, AList.lookup_insert_ne hne] at hl
    exact hA.handles id' p' hl

theorem safe_registerPrepared {q : Text} {st : Stmt} (hA : At svc [] 0 s L) (hS : Steady s L)
    (hst : Current s q st) : Safe (registerPrepared q st) (Done svc) s (L.addPrepare s) := by
  have hp : s.pinnedConnection.isSome := by rw [hst.conn]; rfl
  have hA₁ : At svc [] 0 s (L.addPrepare s) :=
    hA.of_base ⟨hA.pinned, hA.release, hA.unfinished, hA.held, hA.tokens, hA.side, hA.counted, hA.once, hA.stock⟩ rfl rfl
  have hT : ∀ {k}, k = (L.addPrepare s).log.prepares → k < 2 ^ 32 →
      Tables s L.log.prepares ∧ L.log.prepares + 1 < 2 ^ 32 := fun hk hlt => by
    subst hk
    exact ⟨hS.tables (Nat.lt_of_succ_lt hlt), hlt⟩
  unfold registerPrepared
  rw [safe_bind, safe_modify, safe_bind, safe_read]
  simp only
  rw [safe_bind, safe_modify]
  have hne := nextID_ne_zero s.nextPreparedID
  by_cases hin : nextID s.nextPreparedID ∈ s.state.prepared
  · -- the counter came around to an identifier in use
    simp only [Logical.addPrepared, hne, hin, if_true, if_false]
    rw [safe_bind]
    refine .call (.gives (c := st.conn) (hA₁.toBase.congr rfl rfl rfl) hA.begun rfl ?_ rfl rfl (by simp)) fun _ _ => ?_
    · show st.conn ∈ L.held
      rw [hA.held, hst.conn]; simp
    rw [safe_bind, safe_modify]
    have hA₂ := hA₁.unregister hp (nextID s.nextPreparedID) (newPrepared q st s.tx.isSome)
    refine safe_writeSQLError hA₂ hS.alive (.of_ready hA₂ ⟨⟨hS.alive, hS.poisoned, hS.agree, fun hk => ?_, ?_⟩,
      fun hk => ?_⟩)
    · exact absurd hin ((hT rfl hk).1.fresh (hT rfl hk).2)
    · intro hc
      have hc : (L.addPrepare s).log.collided = false := hc
      simp [Ledger.addPrepare, hin] at hc
    · exact absurd hin ((hT rfl hk).1.fresh (hT rfl hk).2)
  · simp only [Logical.addPrepared, hne, hin, if_false]
    rw [safe_bind, safe_modify]
    have hA₂ := hA₁.register hst (nextID s.nextPreparedID)
    refine (replyPrepared_does _ _).done rfl hA₂ ⟨⟨hS.alive, hS.poisoned, hS.agree, fun hk => ?_, fun hc id hid => ?_⟩,
      fun _ _ => .inr ⟨_, AList.mem_insert _ |>.2 (.inl rfl)⟩⟩ (by rintro ⟨⟩)
    · exact (hT rfl hk).1.register (hT rfl hk).2
    · have hc : L.log.collided = false := by simpa [Ledger.addPrepare, hin] using hc
      exact AList.mem_insert _ |>.2 ((Finset.mem_insert.1 hid).imp_right (hS.live hc id))

theorem safe_preparePinned {q : Text} (hA : At svc [] 0 s L) (hS : Steady s L) (hp : s.pinnedConnection.isSome)
    (hr : L.log.request = some r) (hprep : r.isPrepare = true) (hq : s.tx.isSome → (classifySQL q).kind ≠ .ddl) :
    Safe (preparePinned q) (Done svc) s L := by
  unfold preparePinned
  rw [safe_bind]
  refine safe_prepareOnCurrentConnection hA hp hr (fun htx hk => absurd hk (hq htx)) (fun e => ?_) fun st hst => ?_
  · simp only
    rw [safe_bind, safe_read]
    split
    · rename_i hempty
      have hid : ∀ id, id ∉ s.prepared := fun id hm => by
        have := hA.keys id hm
        rw [hempty.1] at this; simp at this
      rw [safe_bind]
      refine safe_releasePinnedConnection hA.toBase hA.begun hempty.2 (by simp) ?_
      have hA' := hA.unpin hempty.2 hid
      have hR' : Ready s.unpin L.clear :=
        ⟨hS.of_log rfl rfl rfl rfl rfl, fun _ => by simp [Justified, ClientSession.unpin]⟩
      exact safe_writeSQLError hA' hS.alive (.of_ready hA' hR')
    · rename_i hne
      refine safe_writeSQLError hA hS.alive (.of_ready hA ⟨hS, fun hk _ => ?_⟩)
      by_cases htx : s.tx = none
      · obtain ⟨id, hid⟩ := Finset.nonempty_iff_ne_empty.2 fun he => hne ⟨he, htx⟩
        exact .inr ⟨id, (hS.tables hk).live id hid⟩
      · exact .inl (Option.isSome_iff_ne_none.2 htx)
  · rw [hprep, if_pos rfl]
    exact safe_registerPrepared hA hS hst

theorem safe_prepare {q : Text} (hV : Serving svc r s L) (hprep : r.isPrepare = true) :
    Safe (prepare svc q) (Done svc) s L := by
  have hA := hV.at'
  have hR := hV.ready
  unfold prepare
  simp only
  split
  · exact safe_writeError hA hR.alive (.of_ready hA hR)
  · rename_i hkind
    rw [safe_bind, safe_read]
    split
    · exact safe_writeError hA hR.alive (.of_ready hA hR)
    · rename_i hddl
      have hq : s.tx.isSome → (classifySQL (classifySQL q).sql).kind ≠ .ddl := fun htx => by
        refine classifySQL_resent ?_
        by_contra hk
        simp only [not_or] at hk
        refine hkind ⟨hk.1, hk.2.1, fun hd => hddl ⟨hd, htx⟩⟩
      rw [safe_bind]
      refine safe_ensurePinnedConnection hA (fun hp => ?_) (fun hp c => ?_) fun _ e => ?_
      · exact safe_preparePinned hA hR.toSteady hp hV.request hprep hq
      · refine safe_preparePinned (hA.pin hp c) (hR.toSteady.of_log rfl rfl rfl rfl rfl) rfl hV.request hprep fun htx => ?_
        rw [show (s.pin c).tx = none from (hA.unpinned hp).1] at htx; cases htx
      · exact safe_writeSQLError hA hR.alive (.of_ready hA hR)

end Prepare

/-! ## Executing -/

section Execute

variable {svc : Service} {s : ClientSession} {L : Ledger} {r : Request} {id : UInt32} {p : PreparedStatement}

/-- The statement of a handle, as it is or prepared anew, belongs where a handle's statement does. -/
theorem safe_freshStatement {Q : Post (Except GoError (Stmt × Bool))} (hA : At svc [] 0 s L) (hR : Ready s L)
    (hl : s.prepared.lookup id = some p) (hr : L.log.request = some r) (hprep : r.isPrepare = false)
    (hq : s.tx.isSome → (classifySQL p.query).kind = .ddl → r.ExecutesDDL) (herr : ∀ e, Q (.error e) s L)
    (hok : ∀ s' st b, At svc [] 0 s' L → Ready s' L → s'.tx = s.tx → s'.pinnedConnection = s.pinnedConnection →
      HandleOK s.tx s.pinnedConnection { p with statement := some st, transactionBound := b } → Q (.ok (st, b)) s' L) :
    Safe (freshStatement id p) Q s L := by
  have hh := hA.handles id p hl
  unfold freshStatement
  rw [safe_bind, safe_read]
  cases hst : p.statement with
  | some st =>
    have hbound : (p.transactionBound && s.tx.isNone) = false := by
      cases hb : p.transactionBound with
      | false => rfl
      | true => simpa using (hh.bound hb).2
    simp only [hbound, Bool.false_eq_true, if_false]
    exact hok s st p.transactionBound hA hR rfl rfl (hh.congr rfl hst.symm rfl)
  | none =>
    simp only
    rw [safe_bind]
    have hm := mem_of_lookup hl
    refine safe_prepareOnCurrentConnection hA (hA.hold id hm) hr hq herr fun st hcur => ?_
    rw [hprep]
    simp only [Bool.false_eq_true, if_false]
    have hp' : HandleOK s.tx s.pinnedConnection { p with statement := some st, transactionBound := s.tx.isSome } :=
      hcur.handleOK.congr rfl rfl rfl
    rw [putHandle, safe_bind, safe_modify]
    exact hok _ st _ (hA.putHandle hm hp') (hR.putHandle hm _) rfl rfl hp'

/-- The statement that is executed is a current one. -/
theorem safe_statementForExecution {Q : Post (Except GoError (Stmt × Bool))} (hA : At svc [] 0 s L) (hR : Ready s L)
    (hl : s.prepared.lookup id = some p) (hr : L.log.request = some r) (hprep : r.isPrepare = false)
    (hq : s.tx.isSome → (classifySQL p.query).kind = .ddl → r.ExecutesDDL)
    (herr : ∀ e s', At svc [] 0 s' L → Ready s' L → Q (.error e) s' L)
    (hok : ∀ s' st b, At svc [] 0 s' L → Ready s' L → s'.tx = s.tx → Current s' p.query st → Q (.ok (st, b)) s' L) :
    Safe (statementForExecution id p) Q s L := by
  unfold statementForExecution
  rw [safe_bind]
  refine safe_freshStatement hA hR hl hr hprep hq (fun e => herr e s hA hR) fun s' st b hA' hR' htx hpin hh => ?_
  obtain ⟨hquery, hconn, hst⟩ := hh.statement st rfl
  rw [← hpin] at hconn
  simp only
  rw [safe_bind, safe_read]
  cases htx' : s'.tx with
  | none =>
    rw [← htx, htx'] at hst
    exact hok s' st false hA' hR' htx ⟨hquery, hconn, by rw [hst, htx']; split <;> rfl⟩
  | some t =>
    rw [← htx, htx'] at hst
    simp only
    split
    · -- a statement of the connection is bound to the transaction for this execution
      rw [safe_bind]
      have hmem : t.conn ∈ L.held := by rw [hA'.held, hA'.pinned t htx']; simp
      have hG : Good s' L (.txStmt t st) := by
        refine .sends hA'.toBase hA'.begun rfl hmem rfl htx'.symm ?_ (by simp [Op.executes?])
        rintro _ ⟨⟩ hsome hk
        exact ⟨r, hr, hq (htx ▸ hsome) (hquery ▸ hk)⟩
      refine .call hG fun x hx => ?_
      · have hx : x = ⟨t.conn, some t, st.query⟩ := hx
        subst hx
        exact hok s' _ true hA' hR' htx ⟨hquery, hA'.pinned t htx', htx'.symm⟩
    · rename_i hb
      have hb : b = true := by simpa using hb
      exact hok s' st false hA' hR' htx ⟨hquery, hconn, by rw [hst, hb, htx']; rfl⟩

/-- A current statement may be run. -/
theorem Current.sends {st : Stmt} {q : Text} {o : Op} (h : Current s q st) (hA : At svc [] 0 s L)
    (hr : L.log.request = some r) (hq : s.tx.isSome → (classifySQL q).kind = .ddl → r.ExecutesDDL)
    (hc : o.connection? = some st.conn) (hs : o.sends? = some st.via) (ht : o.text? = some st.query)
    (he : o.executes? = none ∨ L.log.executed = []) : Good s L o := by
  have hmem : st.conn ∈ L.held := by rw [hA.held, h.conn]; simp
  refine .sends hA.toBase hA.begun hc hmem hs (by rw [Stmt.transaction_via]; exact h.tx) ?_ ?_
  · rw [ht]
    rintro _ ⟨⟩ htx hk
    exact ⟨r, hr, hq htx (h.query ▸ hk)⟩
  · rcases he with he | he
    · simp [he]
    · exact fun _ _ => he

theorem safe_execPrepared {st : Stmt} {arguments : List Argument} {Q : Post (Except GoError Unit)}
    (hA : At svc [] 0 s L) (hR : Ready s L) (hst : Current s p.query st) (hr : L.log.request = some r)
    (he : L.log.executed = []) (hq : s.tx.isSome → (classifySQL p.query).kind = .ddl → r.ExecutesDDL)
    (hE : ∀ r, (L.ran p.query true).log.request = some r → r.Earned (L.ran p.query true).log)
    (hQ : ∀ r s' b, Like s s' → Q r s' (L.ran p.query b)) : Safe (execPrepared st arguments) Q s L := by
  have hran : ∀ b, L.ran st.query b = L.ran p.query b := fun b => by rw [hst.query]
  unfold execPrepared
  rw [safe_bind]
  refine .call (hst.sends hA hr hq rfl rfl rfl (.inr he)) fun x _ => ?_
  cases x with
  | error e =>
    show Safe (writeSQLError e) Q s (L.ran st.query false)
    rw [hran]
    exact safe_writeSQLError (hA.ran he _ _) hR.alive fun r => hQ r s false (.inl rfl)
  | ok result =>
    show Safe _ Q s (L.ran st.query true)
    rw [hran]
    have hA' := hA.ran he p.query true
    simp only
    rw [safe_bind]
    refine routes_currentVia hA' (by rw [hst.conn]; rfl) _ fun via hv => ?_
    rw [safe_bind]
    refine safe_readWarningCount hA' hv fun x => ?_
    cases x with
    | error e => exact safe_writeSQLError hA' hR.alive fun r => hQ r s true (.inl rfl)
    | ok warnings => exact safe_replyResult hA' (hR.ran _ _) (fun _ => hE) fun r s' => hQ r s' true

theorem safe_queryPrepared {st : Stmt} {q : Text} {arguments : List Argument} {Q : Post (Except GoError Unit)}
    (hA : At svc [] 0 s L) (hR : Ready s L) (hst : Current s q st) (hr : L.log.request = some r)
    (hq : s.tx.isSome → (classifySQL q).kind = .ddl → r.ExecutesDDL) (hQ : ∀ r s', Like s s' → Q r s' L) :
    Safe (queryPrepared svc st arguments) Q s L := by
  unfold queryPrepared
  rw [safe_bind]
  refine .call (hst.sends hA hr hq rfl rfl rfl (.inl rfl)) fun x _ => ?_
  cases x with
  | error e => exact safe_writeSQLError hA hR.alive fun r => hQ r s (.inl rfl)
  | ok rows =>
    exact safe_sendRows hA hR (encodeBinary_row svc) (routes_currentVia hA (by rw [hst.conn]; rfl)) hQ

/-- What an execution has to have done for its OK. -/
theorem Request.Earned.of_handle {l : Log} {p₀ : PreparedStatement} (hs : r.statement? = none)
    (hh : r.handle? = some p₀) (he : (p₀.query, true) ∈ l.executed) : r.Earned l := by
  refine ⟨by simp [hs], by simp [hs], fun p' hp' _ => ?_⟩
  rw [hh] at hp'; cases hp'
  exact he

theorem safe_closeTemporary {st : Stmt} {temporary : Bool} {Q : Post Unit} (hA : At svc [] 0 s L)
    (hst : s.pinnedConnection = some st.conn) (hQ : Q () s L) : Safe (closeTemporary temporary st) Q s L := by
  unfold closeTemporary
  split
  · refine .call (.gives (c := st.conn) hA.toBase hA.begun rfl ?_ rfl rfl (by simp)) fun _ _ => hQ
    rw [hA.held, hst]; simp
  · exact hQ

/-- What a request for the execution of a handle with this text is. -/
structure Executes (r : Request) (q : Text) : Prop where
  isPrepare : r.isPrepare = false
  statement : r.statement? = none
  handle : ∃ p, r.handle? = some p ∧ p.query = q ∧ r.Passes p

theorem safe_runPrepared {st : Stmt} {arguments : List Argument} {Q : Post (Except GoError Unit)}
    (hA : At svc [] 0 s L) (hR : Ready s L) (hst : Current s p.query st) (hr : L.log.request = some r)
    (hx : Executes r p.query) (he : L.log.executed = [])
    (hq : s.tx.isSome → (classifySQL p.query).kind = .ddl → r.ExecutesDDL)
    (hQ : ∀ x s' L', At svc [] 0 s' L' → Ready s' L' → Like s s' → Q x s' L') :
    Safe (runPrepared svc p.query st arguments) Q s L := by
  unfold runPrepared
  split
  · exact safe_queryPrepared hA hR hst hr hq fun x s' hs' => hQ x s' L (hA.like hs') (hR.like hs') hs'
  · refine safe_execPrepared hA hR hst hr he hq (fun r' hr' => ?_) fun x s' b hs' =>
      hQ x s' _ ((hA.ran he _ _).like hs') ((hR.ran _ _).like hs') hs'
    cases Option.some.inj (hr'.symm.trans hr)
    obtain ⟨p₀, hp₀, hquery, -⟩ := hx.handle
    exact .of_handle hx.statement hp₀ (hquery ▸ List.mem_cons_self)

theorem safe_runHandle {arguments : List Argument} (hA : At svc [] 0 s L) (hR : Ready s L)
    (hl : s.prepared.lookup id = some p) (hr : L.log.request = some r) (hx : Executes r p.query)
    (he : L.log.executed = []) (hq : s.tx.isSome → (classifySQL p.query).kind = .ddl → r.ExecutesDDL) :
    Safe (runHandle svc id p arguments) (Done svc) s L := by
  unfold runHandle
  rw [safe_bind]
  refine safe_statementForExecution hA hR hl hr hx.isPrepare hq (fun e s' hA' hR' => ?_)
    fun s' st b hA' hR' htx hst => ?_
  · exact safe_writeSQLError hA' hR'.alive (.of_ready hA' hR')
  · simp only
    rw [safe_bind]
    refine safe_runPrepared hA' hR' hst hr hx he (htx ▸ hq) fun x s'' L' hA'' hR'' hs => ?_
    have hpin : s''.pinnedConnection = some st.conn := by
      rcases hs with rfl | ⟨w, i, rfl⟩ <;> exact hst.conn
    rw [safe_bind]
    exact safe_closeTemporary hA'' hpin (.of_ready hA'' hR'' x)

theorem safe_executeHandle {arguments : List Argument} (hA : At svc [] 0 s L) (hR : Ready s L)
    (hl : s.prepared.lookup id = some p) (hr : L.log.request = some r) (hx : Executes r p.query)
    (he : L.log.executed = []) (htx : r.before.tx = s.tx)
    (hauto : r.before.state.autocommit = s.state.autocommit) :
    Safe (executeHandle svc id p arguments) (Done svc) s L := by
  have hq : s.tx.isSome ∨ s.state.autocommit = false → (classifySQL p.query).kind = .ddl → r.ExecutesDDL :=
    fun hopen hddl => by
      obtain ⟨p₀, hp₀, hquery, hpasses⟩ := hx.handle
      exact ⟨by rw [htx, hauto]; exact hopen, p₀, hp₀, by rw [hquery]; exact hddl, hpasses⟩
  unfold executeHandle
  rw [safe_bind]
  refine safe_ensureImplicitTransaction hA hR (fun e s' L' h => ?_) (fun hopen s' L' h => ?_) fun _ _ => ?_
  · exact safe_writeSQLError h.at' h.ready.alive (.of_ready h.at' h.ready)
  · exact safe_runHandle h.at' h.ready (h.prepared ▸ hl) (h.keeps.request.trans hr) hx (h.keeps.executed.trans he)
      fun _ => hq hopen
  · exact safe_runHandle hA hR hl hr hx he fun hsome => hq (.inl hsome)

theorem safe_executePrepared {payload : Bytes} (hV : Serving svc r s L) (hprep : r.isPrepare = false)
    (hs : r.statement? = none) (hpayload : r.message.payload = payload)
    (hh : 10 ≤ payload.length → r.handle? = s.prepared.lookup (handleID payload)) :
    Safe (executePrepared svc payload) (Done svc) s L := by
  have hA := hV.at'
  have hR := hV.ready
  have herr : ∀ {s' code state message}, At svc [] 0 s' L → Ready s' L →
      Safe (writeError 1 code state message) (Done svc) s' L := fun hA' hR' =>
    safe_writeError hA' hR'.alive (.of_ready hA' hR')
  unfold executePrepared
  split
  · exact herr hA hR
  · rename_i hlen
    have hh := hh (by omega)
    simp only
    rw [safe_bind, safe_read]
    cases hl : s.prepared.lookup (handleID payload) with
    | none => exact herr hA hR
    | some p =>
      rw [hl] at hh
      have hm := mem_of_lookup hl
      have hok := hA.handles _ _ hl
      simp only
      split
      · exact herr hA hR
      · rename_i hcursor
        split
        · rw [putHandle, safe_bind, safe_modify]
          exact herr (hA.putHandle hm (hok.congr rfl rfl rfl)) (hR.putHandle hm _)
        · rename_i hlong
          have hends := ends_decodeArguments p payload
          obtain ⟨types, hfst⟩ := decodeArguments_fst p payload
          rw [putHandle, safe_bind, safe_modify, hfst]
          have hok' : HandleOK s.tx s.pinnedConnection { p with parameterTypes := types }.clearLongData :=
            hok.congr rfl rfl rfl
          have hA' := hA.putHandle hm hok'
          have hR' := hR.putHandle hm { p with parameterTypes := types }.clearLongData
          cases hd : (decodeArguments p payload).2 with
          | error f =>
            rw [hd] at hends
            cases f with
            | panic => cases hends
            | error e => exact herr hA' hR'
          | ok arguments =>
            have hflags : payload[5]? = some 0 := by
              rw [List.getElem?_eq_getElem (by omega), not_not.1 hcursor]
            have hpasses : r.Passes p :=
              ⟨hpayload ▸ hflags, Option.not_isSome_iff_eq_none.1 hlong, arguments, hpayload ▸ hd⟩
            exact safe_executeHandle hA' hR' (AList.lookup_insert _) hV.request ⟨hprep, hs, p, hh, rfl, hpasses⟩
              hV.executed (by rw [hV.before]) (by rw [hV.before])

end Execute

/-! ## Long data, reset and close -/

section Handles

variable {svc : Service} {s : ClientSession} {L : Ledger} {r : Request}

theorem PreparedStatement.addLongData_fields (p : PreparedStatement) (parameter : UInt16) (chunk : Bytes) :
    (p.addLongData parameter chunk).query = p.query ∧ (p.addLongData parameter chunk).statement = p.statement ∧
      (p.addLongData parameter chunk).transactionBound = p.transactionBound := by
  unfold PreparedStatement.addLongData
  split <;> exact ⟨rfl, rfl, rfl⟩

theorem safe_sendPreparedLongData {payload : Bytes} (hA : At svc [] 0 s L) (hR : Ready s L) :
    Safe (sendPreparedLongData payload) (Done svc) s L := by
  unfold sendPreparedLongData
  split
  · exact safe_writeError hA hR.alive (.of_ready hA hR)
  · simp only
    rw [safe_bind, safe_read]
    cases hl : s.prepared.lookup (handleID payload) with
    | none => exact safe_writeError hA hR.alive (.of_ready hA hR)
    | some p =>
      simp only
      split
      · exact safe_writeError hA hR.alive (.of_ready hA hR)
      · have hm := mem_of_lookup hl
        obtain ⟨h1, h2, h3⟩ := p.addLongData_fields (UInt16.ofNat (littleEndian ((payload.drop 5).take 2)))
          (payload.drop 7)
        rw [putHandle, safe_bind, safe_modify]
        exact .of_ready (hA.putHandle hm ((hA.handles _ _ hl).congr h1 h2 h3)) (hR.putHandle hm _) _

theorem safe_resetPrepared {payload : Bytes} (hV : Serving svc r s L) (hE : ∀ l, r.Earned l) :
    Safe (resetPrepared payload) (Done svc) s L := by
  have hA := hV.at'
  have hR := hV.ready
  unfold resetPrepared
  split
  · exact safe_writeError hA hR.alive (.of_ready hA hR)
  · rw [safe_bind, safe_read]
    cases hl : s.prepared.lookup (handleID payload) with
    | none => exact safe_writeError hA hR.alive (.of_ready hA hR)
    | some p =>
      have hm := mem_of_lookup hl
      simp only
      rw [putHandle, safe_bind, safe_modify]
      have hok : HandleOK s.tx s.pinnedConnection p.clearLongData := (hA.handles _ _ hl).congr rfl rfl rfl
      have hA' := hA.putHandle hm hok
      have hR' := hR.putHandle hm p.clearLongData
      exact safe_writeOK hA' hR' (hV.earned rfl (hE _)) (.of_ready hA' hR')

/-- The session without a handle. -/
def ClientSession.drop (s : ClientSession) (id : UInt32) : ClientSession :=
  { s with prepared := s.prepared.erase id, state := s.state.removePrepared id }

theorem At.drop (hA : At svc [] 0 s L) (id : UInt32) : At svc [] 0 (s.drop id) L := by
  refine ⟨hA.toBase.congr rfl rfl rfl, hA.begun, hA.cancel, hA.releases, hA.inTx, hA.baseline, ?_, ?_, ?_⟩
  · intro id' hid'
    obtain ⟨hne, hid'⟩ := AList.mem_erase.1 hid'
    exact Finset.mem_erase.2 ⟨hne, hA.keys id' hid'⟩
  · intro id' hid'
    exact hA.hold id' (AList.mem_erase.1 hid').2
  · intro id' p hl
    have hne : id' ≠ id := fun he => (AList.mem_erase.1 (mem_of_lookup hl)).1 he
    exact hA.handles id' p ((AList.lookup_erase_ne hne).symm.trans hl)

theorem Steady.drop (hS : Steady s L) (id : UInt32) : Steady (s.drop id) L := by
  have hlive : (∀ id' ∈ s.state.prepared, id' ∈ s.prepared) →
      ∀ id' ∈ (s.drop id).state.prepared, id' ∈ (s.drop id).prepared := fun h id' hid' => by
    obtain ⟨hne, hid'⟩ := Finset.mem_erase.1 hid'
    exact AList.mem_erase.2 ⟨hne, h id' hid'⟩
  refine ⟨hS.alive, hS.poisoned, hS.agree, fun hk => ?_, fun hc => hlive (hS.live hc)⟩
  obtain ⟨h1, h2, h3⟩ := hS.tables hk
  exact ⟨h1, fun id' hid' => h2 id' (Finset.mem_of_mem_erase hid'), hlive h3⟩

theorem safe_closePrepared {payload : Bytes} (hA : At svc [] 0 s L) (hR : Ready s L) :
    Safe (closePrepared payload) (Done svc) s L := by
  unfold closePrepared
  split
  · exact .of_ready hA hR _
  · simp only
    rw [safe_bind, safe_read]
    cases hl : s.prepared.lookup (handleID payload) with
    | none => exact .of_ready hA hR _
    | some p =>
      have hA' := hA.drop (handleID payload)
      have hS' := hR.toSteady.drop (handleID payload)
      simp only
      rw [safe_bind]
      refine safe_closeStatement hA.toBase hA.begun (fun st hst => ?_) ?_
      · rw [hA.held, ((hA.handles _ _ hl).statement st hst).2.1]; simp
      rw [dropHandle, safe_bind, safe_modify, safe_bind, safe_read]
      show Safe _ (Done svc) (s.drop (handleID payload)) L
      split
      · rename_i hempty
        have hid : ∀ id, id ∉ (s.drop (handleID payload)).prepared := fun id hm => by
          have := AList.mem_keys.1 hm
          rw [show (s.drop (handleID payload)).prepared.keys = [] from hempty.1] at this
          cases this
        rw [safe_bind]
        refine safe_releasePinnedConnection hA'.toBase hA'.begun hempty.2 (fun _ => hid) ?_
        exact .of_ready (hA'.unpin hempty.2 hid)
          ⟨hS'.of_log rfl rfl rfl rfl rfl, fun _ => by simp [Justified, ClientSession.unpin]⟩ _
      · rename_i hne
        refine .of_ready hA' ⟨hS', fun _ _ => ?_⟩ _
        by_cases htx : s.tx = none
        · obtain ⟨id, hid⟩ := List.exists_mem_of_ne_nil _ fun he => hne ⟨he, htx⟩
          exact .inr ⟨id, AList.mem_keys.2 hid⟩
        · exact .inl (Option.isSome_iff_ne_none.2 htx)

end Handles

end Accelerator.Gateway
