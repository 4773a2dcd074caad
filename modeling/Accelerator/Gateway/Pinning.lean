/-
The pinned connection of a client, over whole runs: what a pinned session uses and holds, when a
session is pinned, what its prepared handles are bound to, and what is left of it at the end.
-/
import Accelerator.Gateway.Transactions

namespace Accelerator.Gateway

open Interact Strings Engine Upstream Session

variable {svc : Service} {c : Conf ClientSession Op Res Note Ledger}

/-! ## One connection and one token -/

/-- Unless the command being answered goes around the pin, a pinned session works on no other connection,
holds one token, and does not ask for a second. -/
theorem pinned_alone (h : Reachable svc c) (hr : ∀ r, c.env.log.request = some r → ¬ r.Detours) {pin : Conn}
    (hp : c.state.pinnedConnection = some pin) :
    c.env.tokens = 1 ∧ ∀ o, c.pending = some o →
      (∀ d, o.connection? = some d → d = pin) ∧ (∀ via, o.sends? = some via → via.connection = pin) ∧
      o.admits = false := by
  have hfree : ¬ Free c.state c.env := by
    rintro ⟨-, hn | ⟨r, hreq, hd⟩⟩
    · rw [hp] at hn; cases hn
    · exact hr r hreq hd
  obtain ⟨k, cs, n, hB, -⟩ := reachable_base h
  have hnone : cs = [] ∧ n + k = 0 := by
    by_contra hcn
    exact hfree (hB.side (by rwa [← not_and_or]))
  have hheld : c.env.held = [pin] := by rw [hB.held, hnone.1, hp]; rfl
  have htokens : c.env.tokens + k = n + k + c.state.pinnedRelease.toNat := hB.tokens
  rw [hB.release (by rw [hp]; rfl), Bool.toNat_true] at htokens
  refine ⟨by omega, fun o ho => ?_⟩
  have hG := reachable_good h ho
  have hown : ∀ d, o.connection? = some d → d = pin := fun d hd => by
    have := hG.owned d hd
    rwa [hheld, List.mem_singleton] at this
  refine ⟨hown, fun via hs => ?_, ?_⟩
  · rcases o.connection_of_sends hs with hd | ⟨t, rfl⟩
    · exact hown _ hd
    · -- through a transaction: the open one, or the one that is being undone
      rcases hG.through _ hs with ht | ⟨-, u, rfl⟩
      · exact Option.some.inj ((hB.pinned t ht.symm).symm.trans hp)
      · cases hs; exact hown _ rfl
  · rw [Bool.eq_false_iff]
    exact fun ha => hfree (hG.admits ha)

theorem Request.not_detours {r : Request} (h : r.before.tx.isSome) : ¬ r.Detours := by
  rintro ⟨hn, -⟩
  rw [hn] at h; cases h

/-- A statement in a transaction. -/
theorem pinned_alone_transaction :
    let c := (Sessions.sample (asks (0 : Fin 1) (comQuery "BEGIN") 22 ++ asks 0 (comQuery "SELECT 1") 0)).thread 0
    c.state.pinnedConnection = some ⟨0, 0⟩ ∧ c.pending = some (.query (.tx ⟨0, ⟨0, 0⟩⟩) (text "SELECT 1")) ∧
    c.env.tokens = 1 ∧ ∀ o, c.pending = some o → ∀ d, o.connection? = some d → d = ⟨0, 0⟩ := by
  have hR := Sessions.reachable_sample_thread (asks (0 : Fin 1) (comQuery "BEGIN") 22 ++ asks 0 (comQuery "SELECT 1") 0) 0
  have hc : ∃ c, (Sessions.sample (asks (0 : Fin 1) (comQuery "BEGIN") 22 ++ asks 0 (comQuery "SELECT 1") 0)).thread 0 = c ∧
      c.state.pinnedConnection = some ⟨0, 0⟩ ∧ c.pending = some (.query (.tx ⟨0, ⟨0, 0⟩⟩) (text "SELECT 1")) ∧
      c.env.log.request.map (·.before.tx.isSome) = some true := ⟨_, rfl, by decide +kernel⟩
  obtain ⟨c, rfl, hp, ho, hr⟩ := hc
  obtain ⟨ht, halone⟩ := pinned_alone hR (fun r hreq => by
    rw [hreq] at hr; exact Request.not_detours (Option.some.inj hr)) hp
  exact ⟨hp, ho, ht, fun o ho d hd => (halone o ho).1 d hd⟩

/-- A session that is pinned by a prepared handle queries on a second connection, with a second token; and
two of them, when there are two tokens, wait for each other. -/
theorem pinned_detour :
    (∃ c, Reachable sampleService c ∧ c.state.pinnedConnection = some ⟨0, 0⟩ ∧ c.env.tokens = 2 ∧
      c.pending = some (.query (.conn ⟨1, 1⟩) (text "SELECT 1"))) ∧
    ∃ S : Sessions (Fin 2), S.Reachable sampleService sampleLimits ∧ ∀ i,
      (S.thread i).state.pinnedConnection.isSome ∧ (S.thread i).env.tokens = 1 ∧
      (S.thread i).pending = some .awaitAdmission := by
  constructor
  · exact ⟨_, Sessions.reachable_sample_thread
      (asks (0 : Fin 1) (comStmtPrepare "SELECT 1") 22 ++ asks 0 (comQuery "SELECT 1") 20) 0, by decide +kernel⟩
  · exact ⟨_, Sessions.reachable_sample
      (asks (0 : Fin 2) (comStmtPrepare "SELECT 1") 22 ++ asks 1 (comStmtPrepare "SELECT 1") 22 ++
        asks 0 (comQuery "SELECT 1") 4 ++ asks 1 (comQuery "SELECT 1") 4), by decide +kernel⟩

/-! ## When a session is pinned -/

/-- Between two commands, as long as handle identifiers have not wrapped: a session is pinned exactly if
it has a transaction or a handle, its two handle tables have the same keys, its state says that it cannot
be shared, and `close` would leave nothing of it. -/
theorem pin_invariant (h : Reachable svc c) (hi : c.isIdle = true) (hk : c.env.log.prepares < 2 ^ 32) :
    (c.state.pinnedConnection.isSome ↔ c.state.pinnedRelease = true) ∧
    (c.state.pinnedConnection.isSome ↔ c.state.tx.isSome ∨ ∃ id, id ∈ c.state.prepared) ∧
    (c.state.tx.isSome ↔ c.state.txCancel = true) ∧
    (∀ id, id ∈ c.state.prepared ↔ id ∈ c.state.state.prepared) ∧
    (c.state.pinnedConnection.isSome → c.state.state.reuse.1 = .pinned ∨ c.state.state.reuse.1 = .poisoned) ∧
    Safe close (fun _ s L => s.tx = none ∧ s.txCancel = false ∧ s.pinnedConnection = none ∧
      s.pinnedRelease = false ∧ s.prepared = ∅ ∧ s.state = .new c.state.state.baseline ∧ L.held = [] ∧ L.tokens = 0)
      c.state c.env := by
  obtain ⟨hA, hR⟩ := reachable_idle h hi
  have hT := hR.tables hk
  have hpin : c.state.tx.isSome ∨ (∃ id, id ∈ c.state.prepared) → c.state.pinnedConnection.isSome := by
    rintro (ht | ⟨id, hid⟩)
    · obtain ⟨t, ht⟩ := Option.isSome_iff_exists.1 ht
      rw [hA.pinned t ht]; rfl
    · exact hA.hold id hid
  refine ⟨by rw [hA.releases], ⟨hR.justified hk, hpin⟩, by rw [hA.cancel], fun id => ⟨hA.keys id, hT.live id⟩, fun hp => ?_, ?_⟩
  · refine Logical.reuse_of_pinned ?_
    rcases hR.justified hk hp with ht | ⟨id, hid⟩
    · exact .inl (hA.inTx ht)
    · exact .inr ⟨id, hA.keys id hid⟩
  · refine (safe_close hA).mono fun _ s L hE => ?_
    refine ⟨hE.tx, hE.txCancel, hE.pinnedConnection, hE.pinnedRelease, hE.prepared, ?_, ?_, ?_⟩
    · rw [hE.state, hA.baseline]; rfl
    · rw [hE.held, hE.pinnedConnection]; rfl
    · rw [hE.tokens, hE.pinnedRelease]; rfl

/-- A session with a handle and a transaction. -/
def pinnedTwice : List (Fin 1 × Reply (Fin 1)) :=
  asks alone (comStmtPrepare "SELECT 1") 22 ++ asks alone (comQuery "BEGIN") 2

theorem pin_invariant_twice :
    (1 ∈ ((Sessions.sample pinnedTwice).thread 0).state.prepared ↔
      1 ∈ ((Sessions.sample pinnedTwice).thread 0).state.state.prepared) ∧
    1 ∈ ((Sessions.sample pinnedTwice).thread 0).state.prepared ∧
    ((Sessions.sample pinnedTwice).thread 0).state.tx.isSome := by
  have h := pin_invariant (Sessions.reachable_sample_thread pinnedTwice 0) (by decide +kernel) (by decide +kernel)
  exact ⟨h.2.2.2.1 1, by decide +kernel⟩

/-! ## Prepared handles -/

/-- Between two commands a handle that is bound has a statement of the open transaction, and the
statement of one that is not was prepared on the pinned connection. So no statement of a finished
transaction or of a connection that was given back is executed, and no nil is dereferenced. -/
theorem prepared_binding (h : Reachable svc c) :
    (c.isIdle = true → ∀ id p, c.state.prepared.lookup id = some p →
      (p.transactionBound = true → ∃ t st, c.state.tx = some t ∧ p.statement = some st ∧ st.tx = some t) ∧
      (p.transactionBound = false → ∀ st, p.statement = some st →
        c.state.pinnedConnection = some st.conn ∧ st.tx = none)) ∧
    (∀ st arguments, c.pending = some (.stmtExec st arguments) ∨ c.pending = some (.stmtQuery st arguments) →
      st.tx = c.state.tx ∧ (∀ t, st.tx = some t → t ∉ c.env.log.finished) ∧ st.conn ∈ c.env.held) ∧
    c.pending ≠ some .panic := by
  refine ⟨fun hi id p hl => ?_, fun st arguments ho => ?_, fun ho => (reachable_good h ho).noPanic rfl⟩
  · have hH := (reachable_idle h hi).at'.handles id p hl
    refine ⟨fun hb => ?_, fun hb st hst => ?_⟩
    · obtain ⟨hst, htx⟩ := hH.bound hb
      obtain ⟨st, hst⟩ := Option.isSome_iff_exists.1 hst
      obtain ⟨t, htx⟩ := Option.isSome_iff_exists.1 htx
      have := (hH.statement st hst).2.2
      rw [if_pos hb, htx] at this
      exact ⟨t, st, htx, hst, this⟩
    · obtain ⟨-, hp, ht⟩ := hH.statement st hst
      rw [hb] at ht
      exact ⟨hp, ht⟩
  · obtain ⟨k, cs, n, hB, -⟩ := reachable_base h
    have hG : ∃ o, Good c.state c.env o ∧ o.sends? = some st.via ∧ o.connection? = some st.conn ∧
        ∀ t, o ≠ .rollback t := by
      rcases ho with ho | ho
      · exact ⟨_, reachable_good h ho, rfl, rfl, by simp⟩
      · exact ⟨_, reachable_good h ho, rfl, rfl, by simp⟩
    obtain ⟨o, hG, hs, hc, hn⟩ := hG
    have htx : st.tx = c.state.tx := by
      rcases hG.through _ hs with hv | ⟨-, t, ht⟩
      · rwa [Stmt.transaction_via] at hv
      · exact absurd ht (hn t)
    exact ⟨htx, fun t ht => hB.unfinished t (htx ▸ ht), hG.owned _ hc⟩

/-- A handle that was prepared outside the transaction it is executed in. -/
theorem prepared_binding_rebound :
    let c := (Sessions.sample (pinnedTwice ++ asks 0 (comStmtExecute 1) 1)).thread 0
    c.pending = some (.stmtQuery ⟨⟨0, 0⟩, some ⟨0, ⟨0, 0⟩⟩, text "SELECT 1"⟩ []) ∧
    ⟨0, ⟨0, 0⟩⟩ ∉ c.env.log.finished ∧ ⟨0, 0⟩ ∈ c.env.held := by
  have ho : ((Sessions.sample (pinnedTwice ++ asks 0 (comStmtExecute 1) 1)).thread 0).pending =
      some (.stmtQuery ⟨⟨0, 0⟩, some ⟨0, ⟨0, 0⟩⟩, text "SELECT 1"⟩ []) := by decide +kernel
  obtain ⟨-, hf, hc⟩ := (prepared_binding (Sessions.reachable_sample_thread _ 0)).2.1 _ _ (.inr ho)
  exact ⟨ho, hf _ rfl, hc⟩

end Accelerator.Gateway
