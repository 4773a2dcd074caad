/-
Connections in doubt. When upstream returns an error to a commit, or to a rollback with the transaction
not known to be over, the session's connection is in doubt. It stays pinned until it is discarded as long
as the session has a prepared handle or is being closed; without a handle `finishTransaction` hands it
back to the pool.
-/
import Accelerator.Gateway.Sharing
import Mathlib.Data.Fintype.Basic

namespace Accelerator.Gateway

open Interact Strings Engine Upstream

/-! ## Sessions in doubt -/

section Doubt

variable {svc : Service} {c : Conf ClientSession Op Res Note Ledger} {d : Conn}

/-- The session has a prepared handle, or is being closed. -/
def Secured (c : Conf ClientSession Op Res Note Ledger) : Prop :=
  (∃ id, id ∈ c.state.prepared) ∨ c.isClosing = true

/-- A secured session does not hand the connection in doubt back. -/
theorem Secured.keeps (hs : Secured c) (h : Reachable svc c) (hd : c.env.doubt = some d) :
    c.pending ≠ some (.closeConn d) := by
  intro hp
  rcases hs with ⟨id, hid⟩ | hc
  · exact (reachable_good h hp).returns d rfl hd id hid
  · have hcalls := Process.reach_cleanup (P := handleClient svc) (close_wp fun _ _ _ h => h) h hc
    obtain ⟨s, L, stage⟩ := c
    cases stage with
    | closing o k =>
      cases hp
      cases hcalls.1.kind
    | _ => cases hc

/-- A commit or a rollback that leaves a transaction in doubt puts the pinned connection in doubt, and
nothing but its return to the pool or its destruction ends that. -/
theorem doubt_reply {L : Ledger} {s : ClientSession} {o : Op} (hG : Good s L o)
    (hB : ∀ d, L.doubt = some d → s.pinnedConnection = some d) (hd : L.doubt = some d) (r : Res o) :
    (L.reply s o r).doubt = some d ∨ o = .closeConn d ∨ o = .discardConn d := by
  have hgive : ∀ e, (L.giveUp e).doubt = some d ∨ e = d := by
    intro e
    unfold Ledger.giveUp
    by_cases he : L.doubt = some e
    · right
      rw [hd] at he
      exact (Option.some.inj he).symm
    · left
      rw [if_neg he]
      exact hd
  have hfail : ∀ t : Tx, s.pinnedConnection = some t.conn → t.conn = d := by
    intro t ht
    rw [hB d hd] at ht
    exact (Option.some.inj ht).symm
  cases o with
  | closeConn e => exact (hgive e).imp_right fun he => .inl (congrArg _ he)
  | discardConn e => exact (hgive e).imp_right fun he => .inr (congrArg _ he)
  | commit t =>
    left
    cases r with
    | ok u => exact hd
    | error e => exact congrArg some (hfail t (hG.finishes t (.inl rfl)))
  | rollback t =>
    left
    show (if inDoubt r then some t.conn else L.doubt) = some d
    split
    · exact congrArg some (hfail t (hG.finishes t (.inr rfl)))
    · exact hd
  | tryAdmission => left; cases r <;> exact hd
  | awaitAdmission => left; cases r <;> exact hd
  | databaseConn => left; cases r <;> exact hd
  | _ => exact .inl hd

/-- A connection in doubt is pinned, and in every session that has a prepared handle or is being closed
it stays in doubt and pinned until the step that discards it; a session that has ended has none. -/
theorem doubt_until_discard (h : Reachable svc c) (hd : c.env.doubt = some d) (hs : Secured c) :
    c.state.pinnedConnection = some d ∧ c.pending ≠ some (.closeConn d) ∧ c.stage ≠ .ended ∧
    ∀ c', Process.Step upstream (handleClient svc) c c' →
      (c'.env.doubt = some d ∧ c'.state.pinnedConnection = some d) ∨ c.pending = some (.discardConn d) := by
  have hpinned : ∀ {c : Conf ClientSession Op Res Note Ledger}, Reachable svc c → ∀ d, c.env.doubt = some d →
      c.state.pinnedConnection = some d := by
    intro c h d hd
    obtain ⟨k, cs, n, hB, -⟩ := reachable_base h
    exact hB.stock.2.2.2 d hd
  refine ⟨hpinned h d hd, hs.keeps h hd, fun he => ?_, fun c' hstep => ?_⟩
  · have := hpinned h d hd
    rw [(reachable_ended h he).pinnedConnection] at this
    cases this
  · by_cases hdiscard : c.pending = some (.discardConn d)
    · exact .inr hdiscard
    · left
      have hd' : c'.env.doubt = some d := by
        refine Process.step_keeps (R := fun L : Ledger => L.doubt = some d) ?_ hstep hd fun o r ho _ => ?_
        · intro s L n hL
          cases n <;> exact hL
        · rcases doubt_reply (reachable_good h ho) (hpinned h) hd r with hr | rfl | rfl
          · exact hr
          · exact absurd ho (hs.keeps h hd)
          · exact absurd ho hdiscard
      exact ⟨hd', hpinned (h.tail hstep) d hd'⟩

/-- The server fails to commit. -/
def failsCommit {ι : Type} : Reply ι
  | _, .commit _ => some (.error (serverError 1180 "HY000" "Got error 149 during COMMIT"))
  | _, _ => none

/-- A session that is in a transaction asks to end it, upstream fails, and `n` obliging replies follow. -/
def endFails (payload : Bytes) (failure : Reply (Fin 1)) (n : Nat) : List (Fin 1 × Reply (Fin 1)) :=
  asks alone (comQuery "BEGIN") 22 ++ asks alone payload 0 ++ (alone, failure) ::
    List.replicate n (alone, obliging sampleService sampleLimits)

/-- With a prepared handle the connection is kept, and discarded when the session is closed. -/
theorem doubt_until_discard_handle :
    let c := (Sessions.sample (asks alone (comStmtPrepare "SELECT 1") 22 ++
      endFails (comQuery "COMMIT") failsCommit 2)).thread alone
    c.env.doubt = some ⟨0, 0⟩ ∧ Secured c ∧ c.pending = some (.discardConn ⟨0, 0⟩) ∧
      c.state.pinnedConnection = some ⟨0, 0⟩ := by
  have hR := Sessions.reachable_sample_thread (asks alone (comStmtPrepare "SELECT 1") 22 ++
    endFails (comQuery "COMMIT") failsCommit 2) alone
  have hc : ∃ c, (Sessions.sample (asks alone (comStmtPrepare "SELECT 1") 22 ++
      endFails (comQuery "COMMIT") failsCommit 2)).thread alone = c ∧ c.env.doubt = some ⟨0, 0⟩ ∧
      c.isClosing = true ∧ c.pending = some (.discardConn ⟨0, 0⟩) := ⟨_, rfl, by decide +kernel⟩
  obtain ⟨c, rfl, hd, hclosing, hp⟩ := hc
  exact ⟨hd, .inr hclosing, hp, (doubt_until_discard hR hd (.inr hclosing)).1⟩

/-- Without one, a connection on which a commit or a rollback failed is handed back to the pool. -/
theorem doubtful_connection_returned :
    (∃ c, Reachable sampleService c ∧ c.env.log.commitFailed = true ∧ c.env.doubt = some ⟨0, 0⟩ ∧
      c.pending = some (.closeConn ⟨0, 0⟩)) ∧
    ∃ c, Reachable sampleService c ∧ c.env.log.rollbackFailed = true ∧ c.env.doubt = some ⟨0, 0⟩ ∧
      c.pending = some (.closeConn ⟨0, 0⟩) := by
  constructor
  · exact ⟨_, Sessions.reachable_sample_thread (endFails (comQuery "COMMIT") failsCommit 1) alone, by decide +kernel⟩
  · exact ⟨_, Sessions.reachable_sample_thread (endFails (comQuery "ROLLBACK") failsRollback 1) alone, by decide +kernel⟩

end Doubt

end Accelerator.Gateway
