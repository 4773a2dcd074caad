/-
One rule for each function that the commands share: replies, admission, checkout, the pin, and the
begin and the end of a transaction. A rule says in which state and with which ledger the function
ends, and its callers never look into the function.
-/
import Accelerator.Gateway.Invariant

namespace Accelerator.Gateway

open Interact Strings Engine Upstream Session

/-! ## Safe programs -/

/-- What is asked of a result, with the session and the ledger it leaves. -/
abbrev Post (α : Type) : Type := α → ClientSession → Ledger → Prop

/-- Every call of the program is good, and it ends where `Q` holds. -/
def Safe {α : Type} (p : M α) (Q : Post α) (s : ClientSession) (L : Ledger) : Prop :=
  p.wp upstream Good Q s L

section Safe

variable {α β : Type} {s : ClientSession} {L : Ledger}

@[simp] theorem safe_pure (a : α) (Q : Post α) : Safe (Pure.pure a : M α) Q s L ↔ Q a s L := Iff.rfl

@[simp] theorem safe_bind (p : M α) (f : α → M β) (Q : Post β) :
    Safe (p >>= f) Q s L ↔ Safe p (fun a s L => Safe (f a) Q s L) s L := Prog.wp_bind p f Q s L

@[simp] theorem safe_read (Q : Post ClientSession) : Safe Prog.read Q s L ↔ Q s s L := Iff.rfl

@[simp] theorem safe_modify (f : ClientSession → ClientSession) (Q : Post Unit) :
    Safe (Prog.modify f) Q s L ↔ Q () (f s) L := Iff.rfl

@[simp] theorem safe_tell (n : Note) (Q : Post Unit) : Safe (Prog.tell n) Q s L ↔ Q () s (L.next (.note s n)) :=
  Iff.rfl

theorem Safe.call {o : Op} {Q : Post (Res o)} (hg : Good s L o) (hQ : ∀ r, allow L o r → Q r s (L.reply s o r)) :
    Safe (call o) Q s L :=
  (Prog.wp_perform_account o Q s L).2 ⟨hg, hQ⟩

theorem Safe.mono {p : M α} {Q Q' : Post α} (h : Safe p Q s L) (hQ : ∀ a s L, Q a s L → Q' a s L) : Safe p Q' s L :=
  Prog.wp_mono h hQ

end Safe

/-! ## Replies -/

section Replies

variable {α : Type} {svc : Service} {cs : List Conn} {n : Nat} {s : ClientSession} {L : Ledger} {ks : List Call} {p : M α}
  {Q : Post α}

/-- The calls of a reply. -/
def replying : List Call := [.ok, .error, .packet]

/-- A program that writes packets and nothing else leaves the account as it is. -/
theorem Does.writes (h : Does ks [] p) (hk : ks.all replying.contains = true) (hA : At svc cs n s L)
    (ha : L.log.commitFailed = false)
    (hs : ∀ q : Packet, ks.contains q.kind = true → (∀ st, q.status? = some st → st = s.status) → StatusOK s L q)
    (hE : ks.contains .ok = true → ∀ r, L.log.request = some r → r.Earned L.log) (hQ : ∀ a, Q a s L) :
    Safe p Q s L := by
  refine (h.acts s).wp (J := (· = L)) ?_ ?_ rfl ?_
  · rintro s' _ o hs' rfl ⟨hkind, hstatus⟩
    have ho := List.all_eq_true.1 hk _ (List.contains_iff_mem.1 hkind)
    cases o with
    | writeMessage sequence q =>
      rw [hs'.eq] at hstatus ⊢
      refine ⟨.writes hA.toBase hA.begun ha (hs q hkind hstatus) fun hq => hE ?_, ?_⟩
      · cases q <;> first | exact hkind | cases hq
      · rintro r _ ⟨-, rfl⟩
        rfl
    | _ => cases ho
  · rintro s' _ m hm rfl
    have hcount : ks.contains .count = false := Bool.eq_false_iff.2 fun h =>
      absurd (List.all_eq_true.1 hk _ (List.contains_iff_mem.1 h)) (by decide)
    rw [Tells, hcount, Bool.or_false] at hm
    cases m <;> first | rfl | cases hm
  · rintro a s' _ hs' rfl
    rw [hs'.eq]
    exact hQ a

/-- An error may be written as long as no commit failed. -/
theorem Does.refuses (h : Does [.error] [] p) (hA : At svc cs n s L) (ha : L.log.commitFailed = false)
    (hQ : ∀ a, Q a s L) : Safe p Q s L := by
  refine h.writes rfl hA ha (fun q hk _ st hst => ?_) (by rintro ⟨⟩) hQ
  cases q with
  | err => cases hst
  | _ => cases hk

/-- The session's status may be told. -/
theorem Does.answers (h : Does ks [] p) (hk : ks.all replying.contains = true) (hA : At svc cs n s L) (hR : Ready s L)
    (hE : ks.contains .ok = true → ∀ r, L.log.request = some r → r.Earned L.log) (hQ : ∀ a, Q a s L) : Safe p Q s L :=
  h.writes hk hA hR.alive (fun _ _ hst => hR.statusOK hst) hE hQ

theorem safe_writeOK {affected insertID warnings : Nat} {Q : Post (Except GoError Unit)} (hA : At svc cs n s L)
    (hR : Ready s L) (hE : ∀ r, L.log.request = some r → r.Earned L.log) (hQ : ∀ r, Q r s L) :
    Safe (writeOK affected insertID warnings) Q s L :=
  (writeOK_does _ _ _).answers rfl hA hR (fun _ => hE) hQ

theorem safe_writeError {sequence : UInt8} {code : Nat} {state message : Bytes} {Q : Post (Except GoError Unit)}
    (hA : At svc cs n s L) (ha : L.log.commitFailed = false) (hQ : ∀ r, Q r s L) :
    Safe (writeError sequence code state message) Q s L :=
  (writeError_does _ _ _ _).refuses hA ha hQ

theorem safe_writeSQLError {e : GoError} {Q : Post (Except GoError Unit)} (hA : At svc cs n s L)
    (ha : L.log.commitFailed = false) (hQ : ∀ r, Q r s L) : Safe (writeSQLError e) Q s L :=
  (writeSQLError_does e).refuses hA ha hQ

end Replies

/-! ## Admission -/

section Admission

variable {svc : Service} {cs : List Conn} {n : Nat} {s : ClientSession} {L : Ledger}

/-- A step of `acquire` that takes no token. -/
theorem Good.admission {o : Op} (hA : At svc cs n s L) (hf : Free s L) (ho : o.admits = true) : Good s L o :=
  .quiet hA.toBase hA.begun (by cases o <;> simp_all [Op.admits, Op.connection?]) (by rintro rfl; cases ho)
    (by rintro _ _ rfl; cases ho) (by rintro rfl; cases ho) (fun _ => hf) (by rintro rfl; cases ho)
    (by rintro rfl; cases ho)

theorem safe_awaitToken {bytes : Int} {Q : Post (Except GoError Unit)} (hA : At svc [] 0 s L) (hf : Free s L)
    (hok : Q (.ok ()) s L.grant) (herr : ∀ e, Q (.error e) s L) : Safe (awaitToken bytes) Q s L := by
  have hg : ∀ {o : Op}, o.admits = true → Good s L o := fun h => .admission hA hf h
  have hg' : ∀ {o : Op}, o.admits = true → Good s L.grant o := fun h => .admission (hA.grant hf) hf h
  simp only [awaitToken, safe_bind]
  refine .call (hg rfl) fun _ _ => .call (hg rfl) fun r _ => ?_
  cases r with
  | error e => exact .call (hg rfl) fun _ _ => .call (hg rfl) fun _ _ => .call (hg rfl) fun _ _ => herr e
  | ok u => exact .call (hg' rfl) fun _ _ => .call (hg' rfl) fun _ _ => .call (hg' rfl) fun _ _ => hok

/-- `acquire` adds a token or leaves everything as it was. -/
theorem safe_acquire {bytes : Int} {Q : Post (Except GoError Unit)} (hA : At svc [] 0 s L) (hf : Free s L)
    (hok : Q (.ok ()) s L.grant) (herr : ∀ e, Q (.error e) s L) : Safe (acquire svc bytes) Q s L := by
  have hg : ∀ {o : Op}, o.admits = true → Good s L o := fun h => .admission hA hf h
  have hw : ∀ b, Safe (awaitToken b) Q s L := fun b => safe_awaitToken hA hf hok herr
  simp only [acquire, safe_bind]
  generalize (if bytes < 0 then 0 else bytes) = queuing
  refine .call (hg rfl) fun r _ => ?_
  cases r with
  | true => exact hok
  | false =>
    simp only [Bool.false_eq_true, if_false]
    split
    · exact herr _
    · rw [safe_bind]
      refine .call (hg rfl) fun r _ => ?_
      cases r with
      | false => exact herr _
      | true =>
        simp only [if_true]
        split
        · rw [safe_bind]
          refine .call (hg rfl) fun queued _ => ?_
          split
          · simp only [safe_bind]
            exact .call (hg rfl) fun _ _ => .call (hg rfl) fun _ _ => herr _
          · exact hw _
        · exact hw _

/-- A token goes back. -/
theorem safe_releaseAdmission {Q : Post Unit} (hB : Base cs n s L) (hb : Begun s L) (ht : 0 < L.tokens)
    (hQ : Q () s { L with tokens := L.tokens - 1 }) : Safe (call .releaseAdmission) Q s L :=
  .call (.quiet hB hb rfl (by simp) (by simp) (by simp) (by simp [Op.admits]) (fun _ => ht) (by simp)) fun _ _ => hQ

end Admission

/-! ## Checkout -/

section Checkout

variable {svc : Service} {cs : List Conn} {n : Nat} {s : ClientSession} {L : Ledger} {c : Conn}

/-- A statement on a connection outside any transaction. -/
theorem Good.onConnection {o : Op} (hB : Base cs n s L) (hb : Begun s L) (htx : s.tx = none) (hc : c ∈ L.held)
    (ho : o.connection? = some c) (hs : o.sends? = some (.conn c)) (he : o.executes? = none) : Good s L o :=
  .sends hB hb ho hc hs htx.symm (by simp [htx]) (by simp [he])

/-- The reset of a connection that is held leaves the account as it is. -/
theorem safe_resetConnection {baseline : Metadata} {Q : Post (Except GoError Unit)} (hB : Base cs n s L)
    (hb : Begun s L) (htx : s.tx = none) (hc : c ∈ L.held) (hQ : ∀ r, Q r s L) :
    Safe (resetConnection c baseline) Q s L := by
  refine (resetConnection_resets baseline (· = s) s rfl).wp (J := (· = L)) ?_ (fun _ _ _ h => h.elim) rfl ?_
  · rintro _ _ o rfl rfl ho
    have hgood : o.connection? = some c → o.sends? = some (.conn c) → o.executes? = none → Good _ _ o :=
      Good.onConnection hB hb htx hc
    refine ⟨?_, ?_⟩
    · cases o <;> first | exact ho.elim | cases ho; exact hgood rfl rfl rfl
    · rintro r _ ⟨-, rfl⟩
      cases o <;> first | exact ho.elim | rfl
  · rintro r _ _ rfl rfl
    exact hQ r

theorem safe_checkoutLoop {Q : Post (Except GoError Conn)} (hA : At svc cs n s L) (hf : Free s L) (hn : cs.length < n)
    (hok : ∀ c, c ∉ L.held → Q (.ok c) s (L.lease c)) (herr : ∀ e, Q (.error e) s L) (attempts : Nat)
    (lastError : GoError) : Safe (checkoutLoop svc lastError attempts) Q s L := by
  induction attempts generalizing lastError with
  | zero => exact herr _
  | succ attempts ih =>
    unfold checkoutLoop
    rw [safe_bind]
    refine .call (.quiet hA.toBase hA.begun rfl (by simp) (by simp) (by simp) (by simp [Op.admits]) (by simp)
      fun _ => hA.toBase.room hn) fun r hr => ?_
    cases r with
    | error e => exact ih e
    | ok c =>
      have hc : c ∉ L.held := fun h => hr c h rfl
      have hB := hA.toBase.lease hf hn c
      have hm : c ∈ (L.lease c).held := List.mem_cons_self
      simp only [safe_bind]
      refine safe_resetConnection hB hA.begun hf.1 hm fun r => ?_
      cases r with
      | ok u => exact hok c hc
      | error e =>
        simp only [safe_bind, safe_tell]
        refine .call (.gives hB hA.begun rfl hm rfl rfl (by simp)) fun _ _ => ?_
        show Safe (checkoutLoop svc e attempts) Q s ((L.lease c).giveUp c)
        -- the connection that could not be reset is gone again before the next attempt
        rw [L.giveUp_lease (hA.toBase.doubt_ne hc)]
        exact ih e

/-- `checkout` adds a connection or leaves everything as it was. -/
theorem safe_checkout {Q : Post (Except GoError Conn)} (hA : At svc cs n s L) (hf : Free s L) (hn : cs.length < n)
    (hok : ∀ c, c ∉ L.held → Q (.ok c) s (L.lease c)) (herr : ∀ e, Q (.error e) s L) : Safe (checkout svc) Q s L :=
  safe_checkoutLoop hA hf hn hok herr 2 _

end Checkout

/-! ## The pin -/

section Pin

variable {svc : Service} {s : ClientSession} {L : Ledger}

theorem safe_ensurePinnedConnection {reason : String} {Q : Post (Except GoError Bool)} (hA : At svc [] 0 s L)
    (hsame : s.pinnedConnection.isSome → Q (.ok false) s L)
    (hnew : s.pinnedConnection = none → ∀ c, Q (.ok true) (s.pin c) (L.takePin c))
    (herr : s.pinnedConnection = none → ∀ e, Q (.error e) s L) : Safe (ensurePinnedConnection svc reason) Q s L := by
  unfold ensurePinnedConnection
  rw [safe_bind, safe_read]
  cases hp : s.pinnedConnection with
  | some c => exact hsame (by rw [hp]; rfl)
  | none =>
    have hf := hA.free hp
    simp only [Option.isSome_none, Bool.false_eq_true, if_false, safe_bind]
    refine safe_acquire hA hf ?_ (herr hp)
    simp only [safe_bind]
    refine safe_checkout (hA.grant hf) hf Nat.zero_lt_one (fun c _ => hnew hp c) fun e => ?_
    simp only [safe_bind]
    exact safe_releaseAdmission (hA.grant hf).toBase hA.begun (Nat.succ_pos _) (herr hp e)

theorem safe_releasePin {Q : Post Unit} (hB : Base [] 0 s L) (hb : Begun s L)
    (hQ : Q () { s with pinnedRelease := false } { L with tokens := 0 }) : Safe releasePin Q s L := by
  unfold releasePin
  rw [safe_bind, safe_read]
  have htok := hB.tokens
  cases hr : s.pinnedRelease with
  | true =>
    rw [hr] at htok
    simp only [if_true, safe_bind, safe_modify]
    refine safe_releaseAdmission hB hb (by rw [htok]; exact Nat.one_pos) ?_
    rw [htok]; exact hQ
  | false =>
    rw [hr] at htok
    rw [← hr, ← show L.tokens = 0 from htok] at hQ
    exact hQ

/-- `releasePinnedConnection` leaves nothing held. -/
theorem safe_releasePinnedConnection {discard : Bool} {Q : Post Unit} (hB : Base [] 0 s L) (hb : Begun s L)
    (htx : s.tx = none) (hid : discard = false → ∀ id, id ∉ s.prepared) (hQ : Q () s.unpin L.clear) :
    Safe (releasePinnedConnection discard) Q s L := by
  unfold releasePinnedConnection
  rw [safe_bind, safe_read]
  have hheld := hB.held
  obtain ⟨-, htok, hpins, hdoubt⟩ := hB.stock
  cases hp : s.pinnedConnection with
  | none =>
    rw [hp] at hheld hpins hdoubt
    have hnone : L.doubt = none := Option.eq_none_iff_forall_not_mem.2 fun c hc => by cases hdoubt c hc
    have hs : { s with pinnedRelease := false } = s.unpin := by rw [ClientSession.unpin, ← hp]
    have hL : { L with tokens := 0 } = L.clear := by
      rw [Ledger.clear, ← hnone, ← show L.held = [] from hheld, ← show L.pins = 0 from hpins]
    exact safe_releasePin hB hb (by rw [hs, hL]; exact hQ)
  | some c =>
    rw [hp] at hheld hpins hdoubt
    have hm : c ∈ L.held := by rw [hheld]; exact List.mem_cons_self
    -- the token is still there when the connection is gone
    let L' : Ledger := { L with held := [], pins := 0, doubt := none }
    have hL : { L.giveUp c with pins := L.pins + -1 } = L' := by
      have hnone : (if L.doubt = some c then none else L.doubt) = none := by
        split
        · rfl
        · rename_i hne
          refine Option.eq_none_iff_forall_not_mem.2 fun d hd => hne ?_
          cases hdoubt d hd
          exact hd
      simp [Ledger.giveUp, L', hheld, hpins, hnone]
    have hB' : Base [] 0 { s with pinnedConnection := none } L' := by
      refine ⟨by simp [htx], by simp, by simp [htx], rfl, hB.tokens, by simp, hB.counted, hB.once, le_rfl, ?_, rfl,
        ?_⟩
      · show L.tokens ≤ 0 + 1
        rw [hB.tokens]
        have := s.pinnedRelease.toNat_le
        omega
      · rintro d ⟨⟩
    have hend : Safe releasePin Q { s with pinnedConnection := none } { L.giveUp c with pins := L.pins + -1 } := by
      rw [hL]
      exact safe_releasePin hB' hb hQ
    simp only
    cases discard with
    | true => exact .call (.gives hB hb rfl hm rfl rfl (by simp)) fun _ _ => hend
    | false => exact .call (.gives hB hb rfl hm rfl rfl fun _ _ _ => hid rfl) fun _ _ => hend

end Pin

/-! ## Beginning a transaction -/

/-- Two logs that agree on the command that is being answered and on the handles. -/
structure Keeps (l l' : Log) : Prop where
  request : l'.request = l.request
  executed : l'.executed = l.executed
  committed : l'.committed = l.committed
  prepares : l'.prepares = l.prepares
  collided : l'.collided = l.collided

theorem Keeps.rfl {l : Log} : Keeps l l := ⟨Eq.refl _, Eq.refl _, Eq.refl _, Eq.refl _, Eq.refl _⟩

section Begin

variable {svc : Service} {s : ClientSession} {L : Ledger}

/-- The end of a failed `begin`: a pin that was created for it is given up. -/
theorem safe_undoPin {created : Bool} {Q : Post Unit} (hA : At svc [] 0 s L) (htx : s.tx = none)
    (hid : created = true → ∀ id, id ∉ s.prepared)
    (hQ : ∀ s' L', At svc [] 0 s' L' → L'.log = L.log → s' = (if created then s.unpin else s) → Q () s' L') :
    Safe (undoPin created) Q s L := by
  unfold undoPin
  cases created with
  | true =>
    exact safe_releasePinnedConnection hA.toBase hA.begun htx (fun _ => hid rfl)
      (hQ _ _ (hA.unpin htx (hid rfl)) rfl rfl)
  | false => exact hQ _ _ hA rfl rfl

/-- What `begin` leaves, with or without a transaction. -/
structure Began (svc : Service) (opened : Bool) (s : ClientSession) (L : Ledger) (s' : ClientSession)
    (L' : Ledger) : Prop where
  at' : At svc [] 0 s' L'
  ready : Ready s' L'
  tx : s'.tx.isSome = opened
  prepared : s'.prepared = s.prepared
  keeps : Keeps L.log L'.log

/-- The session after `BeginTx` returned `t` and `Apply` accepted it. -/
theorem At.begins (hA : At svc [] 0 s L) (htx : s.tx = none) {t : Tx} (hp : s.pinnedConnection = some t.conn)
    (ht : t ∉ L.log.finished) {st : Logical} (hi : st.inTransaction = true)
    (hpr : st.prepared = s.state.prepared) (hb : st.baseline = s.state.baseline) :
    At svc [] 0 { s with state := st, tx := some t, txCancel := true }
      { L with log := { L.log with begun := t :: L.log.begun } } := by
  refine ⟨⟨?_, hA.release, ?_, hA.held, hA.tokens, by simp, hA.counted, hA.once, hA.stock⟩, ?_, rfl, hA.releases,
    fun _ => hi, hb.trans hA.baseline, by simpa only [hpr] using hA.keys, hA.hold, ?_⟩
  · rintro _ ⟨⟩; exact hp
  · rintro _ ⟨⟩; exact ht
  · intro t' ht' hf
    rcases List.mem_cons.1 ht' with rfl | ht'
    · rfl
    · have := hA.begun t' ht' hf
      rw [htx] at this; cases this
  · intro id p hl
    have h := hA.handles id p hl
    have hu : p.transactionBound = false := by
      cases hb : p.transactionBound with
      | false => rfl
      | true => have := (h.bound hb).2; rw [htx] at this; cases this
    exact h.unbound hu _

/-- The rollback that undoes a `BeginTx` which `Apply` refused. -/
theorem Good.undo (hA : At svc [] 0 s L) (htx : s.tx = none) {t : Tx} (hp : s.pinnedConnection = some t.conn)
    {st : Logical} : Good { s with state := st } { L with log := { L.log with begun := t :: L.log.begun } }
      (.rollback t) := by
  refine ⟨⟨0, .inl rfl, [], 0, hA.pinned, hA.release, hA.unfinished, hA.held, hA.tokens, by simp, hA.counted, hA.once, hA.stock⟩,
    ?_, by simp, ?_, ?_, by simp [Op.text?], by simp [Op.executes?], by simp [Op.admits], by simp, by simp, by simp,
    by simp, by simp, ?_⟩
  · intro t' ht' hf
    rcases List.mem_cons.1 ht' with rfl | ht'
    · exact .inr rfl
    · exact .inl (hA.begun t' ht' hf)
  · simp [Op.connection?, hA.held, hp]
  · exact fun _ _ => .inr ⟨htx, t, rfl⟩
  · rintro _ (⟨⟨⟩⟩ | ⟨⟨⟩⟩); exact hp

/-- The refused transaction is rolled back: nothing is left of it. -/
theorem At.undone (hA : At svc [] 0 s L) (htx : s.tx = none) {t : Tx} (hp : s.pinnedConnection = some t.conn)
    {st : Logical} (hpr : st.prepared = s.state.prepared) (hb : st.baseline = s.state.baseline) {failed failing : Bool} :
    At svc [] 0 { s with state := st }
      { L with
        doubt := if failing then some t.conn else L.doubt
        log := { L.log with
          begun := t :: L.log.begun, finished := t :: L.log.finished, rollbackFailed := failed } } := by
  refine ⟨⟨hA.pinned, hA.release, by simp [htx], hA.held, hA.tokens, by simp, hA.counted, hA.once,
    hA.stock.1, hA.stock.2.1, hA.stock.2.2.1, hA.toBase.doubts hp failing⟩, ?_, hA.cancel, hA.releases, by simp [htx],
    hb.trans hA.baseline, by simpa only [hpr] using hA.keys, hA.hold, hA.handles⟩
  intro t' ht' hf
  rcases List.mem_cons.1 ht' with rfl | ht'
  · exact absurd List.mem_cons_self hf
  · exact hA.begun t' ht' fun h => hf (List.mem_cons_of_mem _ h)

/-- The session is steady after the rollback of a refused transaction, since only a failed rollback
can have left the logical state in a transaction that is not open. -/
theorem Steady.undone (h : Steady s L) (htx : s.tx = none) (hin : s.state.inTransaction = true) {t : Tx}
    {st : Logical} (hpr : st.prepared = s.state.prepared) (hq : st.poisoned = s.state.poisoned)
    {r : Except GoError Unit} {doubt : Option Conn} : Steady { s with state := st }
      { L with
        doubt := doubt
        log := { L.log with
          begun := t :: L.log.begun, finished := t :: L.log.finished
          rollbackFailed := L.log.rollbackFailed || inDoubt r } } := by
  have hd : L.log.rollbackFailed = true := by
    by_contra hd
    have := h.agree (by simpa using hd)
    rw [hin, htx] at this; cases this
  refine ⟨h.alive, by simp [hq, h.poisoned, hd], by simp [hd], fun hl => ?_, by simpa only [hpr] using h.live⟩
  obtain ⟨h1, h2, h3⟩ := h.tables hl
  exact ⟨h1, by simpa only [hpr] using h2, by simpa only [hpr] using h3⟩

theorem Ready.begins (h : Steady s L) {t : Tx} {st : Logical} (hi : st.inTransaction = true)
    (hpr : st.prepared = s.state.prepared) (hq : st.poisoned = s.state.poisoned) :
    Ready { s with state := st, tx := some t, txCancel := true }
      { L with log := { L.log with begun := t :: L.log.begun } } := by
  refine ⟨⟨h.alive, hq.trans h.poisoned, fun _ => hi, fun hl => ?_, by simpa only [hpr] using h.live⟩,
    fun _ _ => .inl rfl⟩
  obtain ⟨h1, h2, h3⟩ := h.tables hl
  exact ⟨h1, by simpa only [hpr] using h2, by simpa only [hpr] using h3⟩

/-- The failed exits of `begin`, once nothing is left of the transaction. -/
theorem safe_abortBegin {created : Bool} {e : GoError} {Q : Post (Except GoError Unit)} (hA : At svc [] 0 s L)
    (hS : Steady s L) (htx : s.tx = none) (hid : created = true → ∀ id, id ∉ s.prepared)
    (hJ : created = false → L.log.prepares < 2 ^ 32 → Justified s)
    (hQ : ∀ s' L', Began svc false s L s' L' → Q (.error e) s' L') :
    Safe (do call .cancelTx; undoPin created; return .error e) Q s L := by
  simp only [safe_bind]
  refine .call (.quiet hA.toBase hA.begun rfl (by simp) (by simp) (by simp) (by simp [Op.admits]) (by simp) (by simp)) fun _ _ => ?_
  refine safe_undoPin hA htx hid fun s' L' hA' hl hs => hQ _ _ ?_
  cases created with
  | true =>
    subst hs
    exact ⟨hA', ⟨hS.of_log rfl rfl rfl rfl hl, by simp [Justified, ClientSession.unpin]⟩, by
      simp [ClientSession.unpin, htx], rfl, hl ▸ .rfl⟩
  | false =>
    subst hs
    exact ⟨hA', ⟨hS.of_log rfl rfl rfl rfl hl, hl ▸ hJ rfl⟩, by simp [htx], rfl, hl ▸ .rfl⟩

theorem safe_beginPinned {created : Bool} {Q : Post (Except GoError Unit)} (hA : At svc [] 0 s L) (hS : Steady s L)
    (htx : s.tx = none) (hp : s.pinnedConnection.isSome) (hid : created = true → ∀ id, id ∉ s.prepared)
    (hJ : created = false → L.log.prepares < 2 ^ 32 → Justified s)
    (hQ : ∀ r s' L', Began svc (succeeded r) s L s' L' → Q r s' L') : Safe (beginPinned created) Q s L := by
  obtain ⟨c, hp⟩ := Option.isSome_iff_exists.1 hp
  have hm : c ∈ L.held := by rw [hA.held, hp]; exact List.mem_cons_self
  unfold beginPinned
  rw [safe_bind, safe_read, hp]
  simp only [safe_bind]
  refine .call (.onConnection hA.toBase hA.begun htx hm rfl rfl rfl) fun r ht => ?_
  cases r with
  | error e => exact safe_abortBegin hA hS htx hid hJ (hQ (.error e))
  | ok t =>
    obtain ⟨rfl, hfin⟩ := ht
    have hpr := Logical.apply_prepared s.state .begin
    have hb := Logical.apply_baseline s.state .begin
    simp only [safe_bind, safe_read]
    rcases Logical.apply_begin s.state with ⟨e, he, hin⟩ | ⟨he, hin⟩
    · rw [← Prod.eta (s.state.apply .begin), he]
      simp only
      rw [safe_bind, safe_modify, safe_bind]
      refine .call (.undo hA htx hp) fun r _ => ?_
      refine safe_abortBegin (hA.undone htx hp hpr hb) (hS.undone htx hin hpr (Logical.apply_poisoned _ _)) htx hid hJ
        fun s' L' h => hQ _ _ _ ?_
      exact ⟨h.at', h.ready, h.tx, h.prepared, h.keeps.1, h.keeps.2, h.keeps.3, h.keeps.4, h.keeps.5⟩
    · rw [← Prod.eta (s.state.apply .begin), he]
      exact hQ _ _ _ ⟨hA.begins htx hp hfin hin hpr hb, .begins hS hin hpr (Logical.apply_poisoned _ _), rfl, rfl,
        rfl, rfl, rfl, rfl, rfl⟩

/-- `begin` opens a transaction, or fails and leaves none. -/
theorem safe_begin {Q : Post (Except GoError Unit)} (hA : At svc [] 0 s L) (hR : Ready s L) (htx : s.tx = none)
    (hQ : ∀ r s' L', Began svc (succeeded r) s L s' L' → Q r s' L') : Safe («begin» svc) Q s L := by
  unfold «begin»
  rw [safe_bind]
  refine safe_ensurePinnedConnection hA (fun hp => ?_) (fun hp c => ?_) fun _ e => ?_
  · exact safe_beginPinned hA hR.toSteady htx hp (by simp) (fun _ => hR.justified) hQ
  · refine safe_beginPinned (hA.pin hp c) (hR.toSteady.of_log rfl rfl rfl rfl rfl) htx rfl
      (fun _ => (hA.unpinned hp).2.2) (by simp) fun r s' L' h => hQ _ _ _ ?_
    exact ⟨h.at', h.ready, h.tx, h.prepared, h.keeps.1, h.keeps.2, h.keeps.3, h.keeps.4, h.keeps.5⟩
  · exact hQ _ _ _ ⟨hA, hR, by simp [htx, succeeded], rfl, .rfl⟩

/-- After `ensureImplicitTransaction` there is a transaction, unless none is needed. -/
theorem safe_ensureImplicitTransaction {Q : Post (Except GoError Unit)} (hA : At svc [] 0 s L) (hR : Ready s L)
    (herr : ∀ e s' L', Began svc false s L s' L' → Q (.error e) s' L')
    (hok : s.tx.isSome ∨ s.state.autocommit = false → ∀ s' L', Began svc true s L s' L' → Q (.ok ()) s' L')
    (hnone : s.tx = none → s.state.autocommit = true → Q (.ok ()) s L) :
    Safe (ensureImplicitTransaction svc) Q s L := by
  unfold ensureImplicitTransaction
  rw [safe_bind, safe_read]
  cases htx : s.tx with
  | some t => simpa using hok (.inl (by rw [htx]; rfl)) s L ⟨hA, hR, by rw [htx]; rfl, rfl, .rfl⟩
  | none =>
    cases hauto : s.state.autocommit with
    | true => simpa using hnone htx hauto
    | false =>
      refine safe_begin hA hR htx fun r s' L' h => ?_
      cases r with
      | error e => exact herr e s' L' h
      | ok u => exact hok (.inr hauto) s' L' h

end Begin

/-! ## Ending a transaction -/

section Finish

variable {svc : Service} {cs : List Conn} {n : Nat} {s : ClientSession} {L : Ledger}

theorem safe_closeStatement {statement : Option Stmt} {Q : Post Unit} (hB : Base cs n s L) (hb : Begun s L)
    (hm : ∀ st, statement = some st → st.conn ∈ L.held) (hQ : Q () s L) : Safe (closeStatement statement) Q s L := by
  cases statement with
  | none => exact hQ
  | some st => exact .call (.gives hB hb rfl (hm st rfl) rfl rfl (by simp)) fun _ _ => hQ

theorem safe_cancelTransaction {Q : Post Unit} (hB : Base cs n s L) (hb : Begun s L)
    (hQ : Q () { s with txCancel := false } L) : Safe cancelTransaction Q s L := by
  unfold cancelTransaction
  rw [safe_bind, safe_read]
  cases hc : s.txCancel with
  | true => exact .call (.quiet hB hb rfl (by simp) (by simp) (by simp) (by simp [Op.admits]) (by simp) (by simp)) fun _ _ => hQ
  | false => rw [← hc] at hQ; exact hQ

/-- The handles that are still bound are those the loop has not come to. -/
theorem safe_invalidateHandles {tx : Option Tx} {Q : Post Unit} (ids : List UInt32) (hB : Base cs n s L)
    (hb : Begun s L)
    (hh : ∀ id p, s.prepared.lookup id = some p →
      HandleOK tx s.pinnedConnection p ∧ (p.transactionBound = true → id ∈ ids))
    (hQ : ∀ m, (∀ id, id ∈ m ↔ id ∈ s.prepared) →
      (∀ id p, m.lookup id = some p → HandleOK none s.pinnedConnection p) → Q () { s with prepared := m } L) :
    Safe (invalidateHandles ids) Q s L := by
  induction ids generalizing s with
  | nil =>
    refine hQ s.prepared (fun _ => Iff.rfl) fun id p hl => ?_
    obtain ⟨h, hbound⟩ := hh id p hl
    exact h.unbound (by simpa using hbound) none
  | cons id ids ih =>
    unfold invalidateHandles
    rw [safe_bind, safe_read]
    cases hl : s.prepared.lookup id with
    | none =>
      refine ih hB hb (fun id' p hl' => ⟨(hh id' p hl').1, fun hbound => ?_⟩) hQ
      rcases List.mem_cons.1 ((hh id' p hl').2 hbound) with rfl | h
      · rw [hl] at hl'; cases hl'
      · exact h
    | some p =>
      simp only
      cases hbound : p.transactionBound with
      | false =>
        refine ih hB hb (fun id' p' hl' => ⟨(hh id' p' hl').1, fun hbound' => ?_⟩) hQ
        rcases List.mem_cons.1 ((hh id' p' hl').2 hbound') with rfl | h
        · rw [hl] at hl'; cases hl'; rw [hbound] at hbound'; cases hbound'
        · exact h
      | true =>
        simp only [if_true, safe_bind, safe_modify]
        have hm : ∀ st, p.statement = some st → st.conn ∈ L.held := fun st hst => by
          rw [hB.held, ((hh id p hl).1.statement st hst).2.1]; simp
        refine safe_closeStatement hB hb hm (ih (hB.congr rfl rfl rfl) hb (fun id' p' hl' => ?_) fun m hm' hok => ?_)
        · by_cases hid : id' = id
          · subst hid
            rw [AList.lookup_insert] at hl'; cases hl'
            exact ⟨⟨by simp, by simp⟩, by simp⟩
          · rw [AList.lookup_insert_ne hid] at hl'
            refine ⟨(hh id' p' hl').1, fun hbound' => ?_⟩
            exact (List.mem_cons.1 ((hh id' p' hl').2 hbound')).resolve_left hid
        · refine hQ m (fun id' => (hm' id').trans ?_) hok
          rw [AList.mem_insert]
          refine or_iff_right_of_imp ?_
          rintro rfl
          exact AList.lookup_isSome.1 (by rw [hl]; rfl)

/-- What holds when `finishTransaction` is called: `t` is over, and its traces are still there. -/
structure Finishing (svc : Service) (t : Tx) (s : ClientSession) (L : Ledger) : Prop where
  base : Base [] 0 { s with tx := none } L
  begun : Begun { s with tx := none } L
  pinned : s.pinnedConnection.isSome
  baseline : s.state.baseline = (newSession svc).state.baseline
  keys : ∀ id, id ∈ s.prepared → id ∈ s.state.prepared
  handles : ∀ id p, s.prepared.lookup id = some p → HandleOK (some t) s.pinnedConnection p

/-- What `finishTransaction` leaves. -/
structure Finished (svc : Service) (s : ClientSession) (L : Ledger) (s' : ClientSession) (L' : Ledger) : Prop where
  at' : At svc [] 0 s' L'
  tx : s'.tx = none
  state : s'.state = s.state
  next : s'.nextPreparedID = s.nextPreparedID
  log : L'.log = L.log
  prepared : ∀ id, id ∈ s'.prepared ↔ id ∈ s.prepared
  justified : (∀ id ∈ s.state.prepared, id ∈ s.prepared) → Justified s'

theorem safe_finishTransaction {t : Tx} {Q : Post Unit} (hF : Finishing svc t s L)
    (hQ : ∀ s' L', Finished svc s L s' L' → Q () s' L') : Safe finishTransaction Q s L := by
  simp only [finishTransaction, invalidateTransactionPrepared, safe_bind, safe_modify, safe_read]
  refine safe_invalidateHandles _ hF.base hF.begun (fun id p hl => ⟨hF.handles id p hl, fun _ => ?_⟩) fun m hm hok => ?_
  · exact AList.mem_keys.1 (AList.lookup_isSome.1 (by rw [hl]; rfl))
  refine safe_cancelTransaction (hF.base.congr rfl rfl rfl) hF.begun ?_
  have hrel : s.pinnedRelease = true := hF.base.release hF.pinned
  have hB : Base [] 0 { s with tx := none, txCancel := false, prepared := m } L :=
    hF.base.congr rfl rfl rfl
  have hA : At svc [] 0 { s with tx := none, txCancel := false, prepared := m } L :=
    ⟨hB, hF.begun, rfl, by rw [hrel]; exact hF.pinned.symm, by simp, hF.baseline,
      fun id h => hF.keys id ((hm id).1 h), fun _ _ => hF.pinned, hok⟩
  simp only
  split
  · rename_i hempty
    have hid : ∀ id, id ∉ m := fun id h => by
      have := hF.keys id ((hm id).1 h)
      rw [hempty] at this; simp at this
    refine safe_releasePinnedConnection hB hF.begun rfl (fun _ => hid) (hQ _ _ ?_)
    exact ⟨hA.unpin rfl hid, rfl, rfl, rfl, rfl, hm, by simp [Justified, ClientSession.unpin]⟩
  · rename_i hne
    obtain ⟨id, hid⟩ := Finset.nonempty_iff_ne_empty.2 hne
    exact hQ _ _ ⟨hA, rfl, rfl, rfl, rfl, hm, fun hlive _ => .inr ⟨id, (hm id).2 (hlive id hid)⟩⟩

end Finish

end Accelerator.Gateway
