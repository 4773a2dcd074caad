/-
The admission control of the service under any number of callers: `Service.acquire` takes a token at
once, or waits for one in a queue that is bounded in requests and in bytes, and undoes on every exit
what it did. The byte bound is checked after the bytes were added, so that the shared counter may
overshoot; what it admits never does.
-/
import Accelerator.Gateway.Sharing
import Mathlib.Algebra.BigOperators.Ring.Finset
import Mathlib.Algebra.Order.BigOperators.Group.Finset

namespace Accelerator.Gateway

open Interact Strings Upstream

/-! ## Shares -/

/-- What a caller has put into the admission control and not taken back: its tokens, its places in
the queue, its part of `queuedBytes` and of `waiting`, and as `accepted` the bytes that were within
the limit when they were added. -/
structure Share where
  tokens : Int := 0
  slots : Int := 0
  bytes : Int := 0
  waits : Int := 0
  accepted : Int := 0
  deriving DecidableEq, Repr

/-- The share after a reply. -/
def Share.reply (limit : Int) (g : Share) : (o : Op) → Res o → Share
  | .tryAdmission, r => { g with tokens := g.tokens + r.toNat }
  | .awaitAdmission, .ok _ => { g with tokens := g.tokens + 1 }
  | .releaseAdmission, _ => { g with tokens := g.tokens - 1 }
  | .tryQueue, r => { g with slots := g.slots + r.toNat }
  | .leaveQueue, _ => { g with slots := g.slots - 1 }
  | .addQueuedBytes delta, queued =>
    { g with
      bytes := g.bytes + delta
      accepted :=
        if delta ≤ 0 then min g.accepted (g.bytes + delta)
        else if queued ≤ limit then g.accepted + delta
        else g.accepted }
  | .addWaiting delta, _ => { g with waits := g.waits + delta }
  | _, _ => g

def Share.next (limit : Int) (g : Share) : Event ClientSession Op Res Note → Share
  | .call _ o r => g.reply limit o r
  | .note _ _ => g

/-! ## Callers -/

/-- A caller of `acquire`; a token it is given goes back some time. -/
def attempt (svc : Service) (requestBytes : Int) : M Bool := do
  match ← acquire svc requestBytes with
  | .error _ => return false
  | .ok _ =>
    call .releaseAdmission
    return false

/-- The size `acquire` accounts a request with. -/
def queuedSize (requestBytes : Int) : Int := if requestBytes < 0 then 0 else requestBytes

/-- The systems of callers. -/
abbrev Callers (ι : Type) := System ClientSession Op Res Note (World ι) ι Share

section Callers

variable {ι : Type} [DecidableEq ι] [Fintype ι]

/-- Reachability: any number of callers with requests of any size, in any order of their steps. -/
def Callers.Reachable (svc : Service) (limits : Limits) (requestBytes : ι → Int) (S : Callers ι) : Prop :=
  Relation.ReflTransGen (System.Step (Share.next svc.maxQueuedBytes) (World.env limits) .none)
    (System.launch (fun i => attempt svc (requestBytes i)) (World.fresh ι) (newSession svc) {}) S

/-! ## The world and the shares -/

/-- The counters and channels are the sums of the shares. -/
structure Tally (limit : Int) (limits : Limits) (w : World ι) (H : ι → Share) : Prop where
  admission : (w.admission : Int) = ∑ i, (H i).tokens
  queue : (w.queue : Int) = ∑ i, (H i).slots
  bytes : w.queuedBytes = ∑ i, (H i).bytes
  waiting : w.waiting = ∑ i, (H i).waits
  admits : w.admission ≤ limits.maxUpstreamConnections
  queues : w.queue ≤ limits.maxQueuedRequests
  covered : ∀ i, (H i).accepted ≤ (H i).bytes
  limited : 0 ≤ limit → ∑ i, (H i).accepted ≤ limit

variable {limit : Int} {limits : Limits} {w w' : World ι} {H : ι → Share} {i : ι} {L : Share}

/-- A step of caller `i` by which the world changes as its share does. -/
theorem Tally.step (h : Tally limit limits w H)
    (ha : (w'.admission : Int) - w.admission = L.tokens - (H i).tokens)
    (hq : (w'.queue : Int) - w.queue = L.slots - (H i).slots)
    (hb : w'.queuedBytes - w.queuedBytes = L.bytes - (H i).bytes)
    (hw : w'.waiting - w.waiting = L.waits - (H i).waits)
    (hadmits : w'.admission ≤ limits.maxUpstreamConnections) (hqueues : w'.queue ≤ limits.maxQueuedRequests)
    (hc : L.accepted ≤ L.bytes) (hl : L.accepted ≤ (H i).accepted ∨ w'.queuedBytes ≤ limit ∧
      L.accepted - (H i).accepted = L.bytes - (H i).bytes) :
    Tally limit limits w' (Function.update H i L) := by
  have sums : ∀ g : Share → Int, ∑ j, g (Function.update H i L j) = ∑ j, g (H j) + (g L - g (H i)) :=
    fun g => sum_update (by omega)
  refine ⟨?_, ?_, ?_, ?_, hadmits, hqueues, fun j => ?_, fun h0 => ?_⟩
  · rw [sums Share.tokens, ← h.admission]; omega
  · rw [sums Share.slots, ← h.queue]; omega
  · rw [sums Share.bytes, ← h.bytes]; omega
  · rw [sums Share.waits, ← h.waiting]; omega
  · by_cases hj : j = i
    · subst hj; rw [Function.update_self]; exact hc
    · rw [Function.update_of_ne hj]; exact h.covered j
  · have hsum := h.limited h0
    rw [sums Share.accepted]
    rcases hl with hl | ⟨hle, heq⟩
    · omega
    · -- what was accepted before is part of what was added before
      have hpart : ∑ j, (H j).accepted ≤ ∑ j, (H j).bytes := Finset.sum_le_sum fun j _ => h.covered j
      have := h.bytes
      omega

/-- A step that leaves the admission control as it is. -/
theorem Tally.same (h : Tally limit limits w H) (i : ι) (ha : w'.admission = w.admission) (hq : w'.queue = w.queue)
    (hb : w'.queuedBytes = w.queuedBytes) (hw : w'.waiting = w.waiting) :
    Tally limit limits w' (Function.update H i (H i)) := by
  rw [Function.update_eq_self]
  exact ⟨ha ▸ h.admission, hq ▸ h.queue, hb ▸ h.bytes, hw ▸ h.waiting, ha ▸ h.admits, hq ▸ h.queues, h.covered,
    h.limited⟩

theorem Tally.reply (h : Tally limit limits w H) {o : Op} {r : Res o} (ha : w.answer limits i o r = some w') :
    Tally limit limits w' (Function.update H i ((H i).reply limit o r)) := by
  have hc := h.covered i
  have hadmits := h.admits
  have hqueues := h.queues
  cases o with
  | tryAdmission =>
    obtain ⟨hr, ⟨⟩⟩ := Option.ite_none_right_eq_some.1 ha
    refine h.step ?_ (by simp [Share.reply]) (by simp [Share.reply]) (by simp [Share.reply]) ?_ hqueues hc (.inl le_rfl)
    · simp [Share.reply]
    · cases r with
      | false => exact hadmits
      | true => exact Nat.succ_le_of_lt (of_decide_eq_true hr.symm)
  | awaitAdmission =>
    cases r with
    | error e => cases ha; exact h.same i rfl rfl rfl rfl
    | ok x =>
      obtain ⟨hr, ⟨⟩⟩ := Option.ite_none_right_eq_some.1 ha
      exact h.step (by simp [Share.reply]) (by simp [Share.reply]) (by simp [Share.reply]) (by simp [Share.reply])
        (Nat.succ_le_of_lt hr) hqueues hc (.inl le_rfl)
  | releaseAdmission =>
    obtain ⟨hr, ⟨⟩⟩ := Option.ite_none_right_eq_some.1 ha
    exact h.step (by simp only [Share.reply]; omega) (by simp [Share.reply]) (by simp [Share.reply])
      (by simp [Share.reply]) (by simp only; omega) hqueues hc (.inl le_rfl)
  | tryQueue =>
    obtain ⟨hr, ⟨⟩⟩ := Option.ite_none_right_eq_some.1 ha
    refine h.step (by simp [Share.reply]) ?_ (by simp [Share.reply]) (by simp [Share.reply]) hadmits ?_ hc (.inl le_rfl)
    · simp [Share.reply]
    · cases r with
      | false => exact hqueues
      | true => exact Nat.succ_le_of_lt (of_decide_eq_true hr.symm)
  | leaveQueue =>
    obtain ⟨hr, ⟨⟩⟩ := Option.ite_none_right_eq_some.1 ha
    exact h.step (by simp [Share.reply]) (by simp only [Share.reply]; omega) (by simp [Share.reply])
      (by simp [Share.reply]) hadmits (by simp only; omega) hc (.inl le_rfl)
  | addQueuedBytes delta =>
    obtain ⟨hr, ⟨⟩⟩ := Option.ite_none_right_eq_some.1 ha
    subst hr
    refine h.step (by simp [Share.reply]) (by simp [Share.reply]) (by simp [Share.reply]) (by simp [Share.reply])
      hadmits hqueues ?_ ?_
    · simp only [Share.reply]
      split_ifs <;> omega
    · -- the new bytes count as accepted only if the counter, with all other bytes in it, is within the limit
      simp only [Share.reply]
      split_ifs with hneg hle
      · exact .inl (min_le_left _ _)
      · exact .inr ⟨hle, by omega⟩
      · exact .inl le_rfl
  | addWaiting delta =>
    cases ha
    exact h.step (by simp [Share.reply]) (by simp [Share.reply]) (by simp [Share.reply]) (by simp [Share.reply])
      hadmits hqueues hc (.inl le_rfl)
  | databaseConn | beginTx | prepare =>
    cases r with
    | error e => cases ha; exact h.same i rfl rfl rfl rfl
    | ok x =>
      obtain ⟨-, ⟨⟩⟩ := Option.ite_none_right_eq_some.1 ha
      exact h.same i rfl rfl rfl rfl
  | commit | rollback | txStmt =>
    obtain ⟨-, ⟨⟩⟩ := Option.ite_none_right_eq_some.1 ha
    exact h.same i rfl rfl rfl rfl
  | panic => cases r
  | _ => cases ha; exact h.same i rfl rfl rfl rfl

/-- The shares justify what the world replies. -/
theorem tally_justifies (limit : Int) (limits : Limits) :
    System.Justifies (Share.next limit) (World.env limits) (fun _ _ _ => True) (fun _ _ _ => True) (World.fresh ι)
      ({} : Share) (Tally limit limits) where
  start := by
    refine ⟨?_, ?_, ?_, ?_, Nat.zero_le _, Nat.zero_le _, fun _ => le_rfl, fun h0 => ?_⟩
    all_goals simp [World.fresh]
    exact h0
  note := by
    intro w H h i s n
    cases n <;> exact h.same i rfl rfl rfl rfl
  reply := by
    intro w H h i s o r w' _ ha
    exact ⟨trivial, h.reply ha⟩

end Callers

/-! ## One caller -/

/-- What a caller holds at any of its calls, for a request of that size. -/
structure Fair (size : Int) (g : Share) : Prop where
  tokens : g.tokens = 0 ∨ g.tokens = 1
  slots : g.slots = 0 ∨ g.slots = 1
  waits : g.waits = 0 ∨ g.waits = 1
  bytes : 0 ≤ g.bytes
  accepted : 0 ≤ g.accepted
  waiting : g.waits = 1 → g.accepted = size

/-- The environment of one caller: any reply at all. -/
abbrev anyReply (limit : Int) : Env ClientSession Op Res Note Share :=
  account (Share.next limit) fun _ _ _ => True

/-- What holds at a call of a caller. -/
def FairCall (size : Int) (_ : ClientSession) (g : Share) (o : Op) : Prop :=
  Fair size g ∧ (o = .tryAdmission → g = {})

section Caller

variable {limit size : Int} {s : ClientSession} {g : Share}

theorem fair_call {o : Op} {Q : Res o → ClientSession → Share → Prop} (hg : Fair size g) (ho : o ≠ .tryAdmission)
    (hQ : ∀ r, Q r s (g.reply limit o r)) : (call o).wp (anyReply limit) (FairCall size) Q s g :=
  (Prog.wp_perform_account ..).2 ⟨⟨hg, fun h => absurd h ho⟩, fun r _ => hQ r⟩

/-- The wait in the queue ends with a token or without one, and with nothing else. -/
theorem fair_awaitToken (hs : 0 ≤ size) {Q : Except GoError Unit → ClientSession → Share → Prop}
    (hok : Q (.ok ()) s { tokens := 1 }) (herr : ∀ e, Q (.error e) s {}) :
    (awaitToken size).wp (anyReply limit) (FairCall size) Q s { slots := 1, bytes := size, accepted := size } := by
  unfold awaitToken
  rw [Prog.wp_bind]
  refine fair_call ⟨.inl rfl, .inr rfl, .inl rfl, hs, hs, fun _ => rfl⟩ (by simp) fun _ => ?_
  rw [Prog.wp_bind]
  refine fair_call ⟨.inl rfl, .inr rfl, .inr rfl, hs, hs, fun _ => rfl⟩ (by simp) fun r => ?_
  -- the deferred undo, with or without a token
  have undo : ∀ t : Int, t = 0 ∨ t = 1 → Q r s { tokens := t } → Prog.wp (anyReply limit) (FairCall size) (do
      call (.addWaiting (-1))
      let _ ← call (.addQueuedBytes (-size))
      call .leaveQueue
      return r) Q s { tokens := t, slots := 1, bytes := size, waits := 1, accepted := size } := fun t ht hQ => by
    rw [Prog.wp_bind]
    refine fair_call ⟨ht, .inr rfl, .inr rfl, hs, hs, fun _ => rfl⟩ (by simp) fun _ => ?_
    rw [Prog.wp_bind]
    refine fair_call ⟨ht, .inr rfl, .inl rfl, hs, hs, fun _ => rfl⟩ (by simp) fun x => ?_
    have hg : ({ tokens := t, slots := 1, bytes := size, accepted := size } : Share).reply limit
        (.addQueuedBytes (-size)) x = { tokens := t, slots := 1 } := by
      simp [Share.reply, hs]
    rw [Prog.wp_bind]
    simp only [Share.reply, Int.reduceNeg, Int.reduceAdd] at hg ⊢
    rw [hg]
    exact fair_call ⟨ht, .inr rfl, .inl rfl, le_rfl, le_rfl, by simp⟩ (by simp) fun _ => hQ
  cases r with
  | error e => exact undo 0 (.inl rfl) (herr e)
  | ok x => exact undo 1 (.inr rfl) hok

/-- A successful `acquire` gives one token, a failed one nothing. -/
theorem fair_acquire (svc : Service) (requestBytes : Int) {Q : Except GoError Unit → ClientSession → Share → Prop}
    (hok : Q (.ok ()) s { tokens := 1 }) (herr : ∀ e, Q (.error e) s {}) :
    (acquire svc requestBytes).wp (anyReply svc.maxQueuedBytes) (FairCall (queuedSize requestBytes)) Q s {} := by
  have hs : 0 ≤ queuedSize requestBytes := by unfold queuedSize; split <;> omega
  have hnone : Fair (queuedSize requestBytes) {} := ⟨.inl rfl, .inl rfl, .inl rfl, le_rfl, le_rfl, by simp⟩
  have hslot : Fair (queuedSize requestBytes) { slots := 1 } :=
    ⟨.inl rfl, .inr rfl, .inl rfl, le_rfl, le_rfl, by simp⟩
  unfold acquire
  rw [Prog.wp_bind]
  refine (Prog.wp_perform_account ..).2 ⟨⟨hnone, fun _ => rfl⟩, fun taken _ => ?_⟩
  cases taken with
  | true => exact hok
  | false =>
    simp only [Bool.false_eq_true, if_false]
    rw [show (if requestBytes < 0 then 0 else requestBytes) = queuedSize requestBytes from rfl]
    generalize queuedSize requestBytes = size at hs hnone hslot
    split
    · exact herr _
    rw [Prog.wp_bind]
    refine fair_call hnone (by simp) fun pushed => ?_
    cases pushed with
    | false => exact herr _
    | true =>
      change Prog.wp _ _ (if size > 0 then _ else awaitToken size) _ _ ({ slots := 1 } : Share)
      split
      · rename_i hpos
        have hadd : ∀ queued, ({ slots := 1 } : Share).reply svc.maxQueuedBytes (.addQueuedBytes size) queued =
            { slots := 1, bytes := size, accepted := if queued ≤ svc.maxQueuedBytes then size else 0 } := fun queued => by
          simp [Share.reply, hpos]
        rw [Prog.wp_bind]
        refine fair_call hslot (by simp) fun queued => ?_
        rw [hadd]
        split
        · -- over the limit: the bytes are taken back
          rename_i hover
          rw [if_neg (Int.not_le.2 hover), Prog.wp_bind]
          refine fair_call ⟨.inl rfl, .inr rfl, .inl rfl, hs, le_rfl, by simp⟩ (by simp) fun queued => ?_
          have hsub : ({ slots := 1, bytes := size } : Share).reply svc.maxQueuedBytes (.addQueuedBytes (-size)) queued =
              { slots := 1 } := by simp [Share.reply, hs]
          rw [hsub, Prog.wp_bind]
          exact fair_call hslot (by simp) fun _ => herr _
        · rename_i hle
          rw [if_pos (Int.not_lt.1 hle)]
          exact fair_awaitToken hs hok herr
      · obtain rfl : size = 0 := by omega
        exact fair_awaitToken le_rfl hok herr

/-- A caller that is done holds nothing. -/
theorem fair_attempt (svc : Service) (requestBytes : Int) (s : ClientSession) :
    (attempt svc requestBytes).wp (anyReply svc.maxQueuedBytes) (FairCall (queuedSize requestBytes))
      (fun b _ g => b = false ∧ g = {}) s {} := by
  unfold attempt
  rw [Prog.wp_bind]
  refine fair_acquire svc requestBytes ?_ fun e => ⟨rfl, rfl⟩
  simp only
  rw [Prog.wp_bind]
  exact fair_call ⟨.inr rfl, .inl rfl, .inl rfl, le_rfl, le_rfl, by simp⟩ (by simp) fun _ => ⟨rfl, rfl⟩

end Caller

/-! ## Any number of callers -/

section Accounting

variable {ι : Type} [DecidableEq ι] [Fintype ι] {svc : Service} {limits : Limits} {requestBytes : ι → Int}
  {S : Callers ι}

/-- The sums, and what each caller holds: at a call what is fair, and nothing before its first and
after its last. -/
theorem callers_fair (h : S.Reachable svc limits requestBytes) :
    Tally svc.maxQueuedBytes limits S.world S.accounts ∧ ∀ i, Fair (queuedSize (requestBytes i)) (S.accounts i) ∧
      ((S.thread i).pending = none ∨ (S.thread i).pending = some .tryAdmission → S.accounts i = {}) := by
  obtain ⟨hT, ht⟩ := System.steps_project (tally_justifies svc.maxQueuedBytes limits) h
    (tally_justifies svc.maxQueuedBytes limits).start fun _ _ _ _ _ => trivial
  refine ⟨hT, fun i => ?_⟩
  have hstart : Process.Holds (anyReply svc.maxQueuedBytes) (FairCall (queuedSize (requestBytes i)))
      (fun _ _ => False) (fun _ g => g = {}) (fun _ g => g = {})
      ⟨newSession svc, {}, .first (attempt svc (requestBytes i))⟩ := by
    refine Prog.wp_mono (fair_attempt svc (requestBytes i) (newSession svc)) fun b s g hb => ?_
    rw [hb.1]
    exact hb.2
  have hi := Process.steps_holds (P := .none) (fun _ _ hf => hf.elim) (fun _ _ hg => hg) hstart (ht i)
  have hempty : Fair (queuedSize (requestBytes i)) {} := ⟨.inl rfl, .inl rfl, .inl rfl, le_rfl, le_rfl, by simp⟩
  have hacc : S.accounts i = (S.thread i).env := rfl
  rw [hacc]
  generalize S.thread i = c at hi ⊢
  obtain ⟨s, g, stage⟩ := c
  cases stage with
  | idle => exact hi.elim
  | ended => obtain rfl : g = {} := hi; exact ⟨hempty, fun _ => rfl⟩
  | busy o k =>
    obtain ⟨⟨hfair, hfirst⟩, -⟩ := hi
    exact ⟨hfair, fun ho => hfirst (Option.some.inj (ho.resolve_left (by simp [Conf.pending])))⟩
  | closing o k =>
    obtain ⟨⟨hfair, hfirst⟩, -⟩ := hi
    exact ⟨hfair, fun ho => hfirst (Option.some.inj (ho.resolve_left (by simp [Conf.pending])))⟩

/-- The admission control under any number of callers, in every state they reach: tokens, places in the
queue and waiting bytes are within their limits, no counter is negative, a caller that was refused or
cancelled (or has given its token back) holds nothing, and when no caller is between its first step and
its last, everything is zero again. -/
theorem admission_accounting (h : S.Reachable svc limits requestBytes) :
    S.world.admission ≤ limits.maxUpstreamConnections ∧
    (Finset.univ.filter fun i => (S.thread i).env.slots = 1).card ≤ limits.maxQueuedRequests ∧
    (0 ≤ svc.maxQueuedBytes →
      ∑ i with (S.thread i).env.waits = 1, queuedSize (requestBytes i) ≤ svc.maxQueuedBytes) ∧
    0 ≤ S.world.waiting ∧ 0 ≤ S.world.queuedBytes ∧
    (∀ i, (S.thread i).pending = none → (S.thread i).env.tokens = 0 ∧ (S.thread i).env.slots = 0) ∧
    ((∀ i, (S.thread i).pending = none ∨ (S.thread i).pending = some .tryAdmission) →
      S.world.waiting = 0 ∧ S.world.queuedBytes = 0 ∧ S.world.admission = 0 ∧ S.world.queue = 0) := by
  obtain ⟨hT, hF⟩ := callers_fair h
  refine ⟨hT.admits, ?_, fun h0 => ?_, ?_, ?_, fun i hi => ?_, fun hi => ?_⟩
  · -- every caller in the queue has one of its places
    have hcard : ((Finset.univ.filter fun i => (S.thread i).env.slots = 1).card : Int) = ∑ i, (S.accounts i).slots := by
      rw [Finset.natCast_card_filter]
      refine Finset.sum_congr rfl fun i _ => ?_
      show (if (S.accounts i).slots = 1 then (1 : Int) else 0) = (S.accounts i).slots
      rcases (hF i).1.slots with hz | hz <;> rw [hz] <;> rfl
    have := hT.queue
    have := hT.queues
    omega
  · calc ∑ i with (S.thread i).env.waits = 1, queuedSize (requestBytes i)
        = ∑ i with (S.thread i).env.waits = 1, (S.accounts i).accepted :=
          Finset.sum_congr rfl fun i hi => ((hF i).1.waiting (Finset.mem_filter.1 hi).2).symm
      _ ≤ ∑ i, (S.accounts i).accepted :=
          Finset.sum_le_sum_of_subset_of_nonneg (Finset.filter_subset _ _) fun i _ _ => (hF i).1.accepted
      _ ≤ svc.maxQueuedBytes := hT.limited h0
  · rw [hT.waiting]
    refine Finset.sum_nonneg fun i _ => ?_
    rcases (hF i).1.waits with hz | hz
    · rw [hz]
    · rw [hz]; decide
  · rw [hT.bytes]
    exact Finset.sum_nonneg fun i _ => (hF i).1.bytes
  · have := (hF i).2 (.inl hi)
    simp only [System.accounts] at this
    rw [this]
    exact ⟨rfl, rfl⟩
  · have hzero : ∀ i, S.accounts i = {} := fun i => (hF i).2 (hi i)
    have ha := hT.admission
    have hq := hT.queue
    have hb := hT.bytes
    have hw := hT.waiting
    simp only [hzero, Finset.sum_const_zero] at ha hq hb hw
    exact ⟨hw, hb, by exact_mod_cast ha, by exact_mod_cast hq⟩

end Accounting

/-- Two callers for one token: the first has taken it, the second waits with its five bytes. -/
def oneWaits : Callers Bool :=
  System.play (Share.next sampleService.maxQueuedBytes) (fun i w => w.answer ⟨1, 2⟩ i) World.note .none
    (System.launch (fun _ => attempt sampleService 5) (World.fresh Bool) (newSession sampleService) {})
    ((false, obliging sampleService ⟨1, 2⟩) :: List.replicate 4 (true, obliging sampleService ⟨1, 2⟩))

theorem admission_accounting_waits :
    oneWaits.world.admission = 1 ∧ oneWaits.world.waiting = 1 ∧ oneWaits.world.queuedBytes = 5 ∧
    oneWaits.world.admission ≤ 1 ∧
    ∑ i with (oneWaits.thread i).env.waits = 1, queuedSize 5 ≤ sampleService.maxQueuedBytes := by
  have h : oneWaits.Reachable sampleService ⟨1, 2⟩ fun _ => 5 := System.steps_play _ _
  obtain ⟨hadm, -, hbytes, -⟩ := admission_accounting h
  exact ⟨by decide +kernel, by decide +kernel, by decide +kernel, hadm, hbytes (by decide)⟩

end Accelerator.Gateway
