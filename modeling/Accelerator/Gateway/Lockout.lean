/-
How long a lockout lasts. `allowed`, `failure` and `success` are called in any order, for any hosts, while the
clock goes on; a failure may also be that of a connection which was let in before the lock. A host stays
locked out until its time unless its entry is evicted for that of another host, or one more failure of its
own finds the window over and starts a new entry.
-/
import Accelerator.Gateway.AuthLimit

namespace Accelerator.Gateway

open Strings Settings Interact

/-! ## Calls of the limiter -/

/-- The limiter and the clock. -/
structure LimiterState where
  clock : Int
  attempts : Attempts

inductive LimiterCall where
  | tick (now : Int)
  | allowed (remoteAddress : Text)
  | failure (remoteAddress : Text) (order : List (Sigma fun _ : Text => Attempt))
  | success (remoteAddress : Text)

namespace LimiterState

section Calls

variable (l : AuthLimiter) (h : Text) (T : Int) (s : LimiterState)

/-- One call, or a step of the clock. `evictOldest` may enumerate the map in any order. -/
def step : LimiterCall → Option LimiterState
  | .tick now => if s.clock ≤ now then some { s with clock := now } else none
  | .allowed remoteAddress => some { s with attempts := (l.allowed s.clock (authKey remoteAddress) s.attempts).2 }
  | .failure remoteAddress order =>
    if order.Perm s.attempts.entries then
      some { s with attempts := l.failure s.clock (authKey remoteAddress) order s.attempts }
    else none
  | .success remoteAddress => some { s with attempts := l.success (authKey remoteAddress) s.attempts }

def calls : Machine LimiterState LimiterCall := ⟨step l⟩

/-- What `allowed` answers for the host. -/
def Admits : Prop := (l.allowed s.clock h s.attempts).1 = true

instance : Decidable (s.Admits l h) := inferInstanceAs (Decidable (_ = _))

/-- A failure of the host now locks it. -/
def LocksNext : Prop := l.maxFailures ≤ (l.window? s.clock (s.attempts.lookup h)).failures + 1

instance : Decidable (s.LocksNext l h) := inferInstanceAs (Decidable (_ ≤ _))

/-- The failure of another host evicts the entry. -/
def Evicts (key : Text) (order : List (Sigma fun _ : Text => Attempt)) : Prop :=
  s.attempts.lookup key = none ∧ l.maxEntries ≤ s.attempts.entries.length ∧ oldestKey order = h

/-- The window of the host's entry is over, and one failure does not lock. -/
def Restarts : Prop := 1 < l.maxFailures ∧ ∃ a, s.attempts.lookup h = some a ∧ a.expired l s.clock

/-- Before the time, no failure evicts the entry of the host or starts a new one. -/
def Spared : LimiterCall → Prop
  | .failure remoteAddress order => s.clock < T →
      if authKey remoteAddress = h then ¬s.Restarts l h else ¬s.Evicts l h (authKey remoteAddress) order
  | _ => True

/-- Also, no login of the host succeeds. -/
def Undisturbed : LimiterCall → Prop
  | .success remoteAddress => authKey remoteAddress ≠ h
  | call => s.Spared l h T call

/-- The host is locked until that time at least. -/
def Locked : Prop := ∃ a t, s.attempts.lookup h = some a ∧ a.blockedUntil = some t ∧ T ≤ t

end Calls

section Lockout

variable {l : AuthLimiter} {h : Text} {T : Int} {s s' : LimiterState}

theorem blocked_of_locked {a : Attempt} {t : Int} (ht : a.blockedUntil = some t) (hle : T ≤ t)
    (hc : s.clock < T) : a.blocked s.clock = true := by
  rw [Attempt.blocked, ht]
  simp only [decide_eq_true_eq]
  omega

theorem not_admits_of_locked (hl : s.Locked h T) (hc : s.clock < T) : ¬s.Admits l h := by
  obtain ⟨a, t, ha, ht, hle⟩ := hl
  rw [Admits, AuthLimiter.allowed]
  simp only [ha, blocked_of_locked ht hle hc, if_true, Bool.false_eq_true, not_false_eq_true]

theorem Locked.allowed (hl : s.Locked h T) (hc : s.clock < T) (key : Text) :
    { s with attempts := (l.allowed s.clock key s.attempts).2 }.Locked h T := by
  obtain ⟨a, t, ha, ht, hle⟩ := hl
  by_cases hk : h = key
  · subst hk
    refine ⟨{ a with lastSeen := s.clock }, t, ?_, ht, hle⟩
    show (l.allowed s.clock h s.attempts).2.lookup h = _
    rw [AuthLimiter.allowed]
    simp only [ha, blocked_of_locked ht hle hc, if_true]
    exact AList.lookup_insert _
  · exact ⟨a, t, (Logins.allowed_lookup_ne hk).trans ha, ht, hle⟩

/-- A failure of the host itself. -/
theorem locked_failure_self {order : List (Sigma fun _ : Text => Attempt)} (hl : s.Locked h T)
    (hlock : T ≤ s.clock + l.lockout) (hr : ¬s.Restarts l h) :
    { s with attempts := l.failure s.clock h order s.attempts }.Locked h T := by
  obtain ⟨a, t, ha, ht, hle⟩ := hl
  have hentry : (l.failure s.clock h order s.attempts).lookup h =
      some (l.recorded s.clock (l.window? s.clock (some a))) := by
    rw [AuthLimiter.failure, AList.lookup_insert, ha]
  by_cases hnew : l.maxFailures ≤ (l.window? s.clock (some a)).failures + 1
  · exact ⟨_, s.clock + l.lockout, hentry, if_pos hnew, hlock⟩
  · refine ⟨_, t, hentry, ?_, hle⟩
    rw [AuthLimiter.recorded, if_neg hnew]
    by_cases hexpired : a.expired l s.clock
    · refine absurd ⟨?_, a, ha, hexpired⟩ hr
      rw [AuthLimiter.window?, if_pos hexpired] at hnew
      simp only at hnew
      omega
    · rw [AuthLimiter.window?, if_neg hexpired]
      exact ht

/-- A failure of another host. -/
theorem locked_failure_other {key : Text} {order : List (Sigma fun _ : Text => Attempt)} (hl : s.Locked h T)
    (hk : h ≠ key) (he : ¬s.Evicts l h key order) :
    { s with attempts := l.failure s.clock key order s.attempts }.Locked h T := by
  obtain ⟨a, t, ha, ht, hle⟩ := hl
  refine ⟨a, t, (Logins.failure_lookup_ne hk fun hfull hnone hold => ?_).trans ha, ht, hle⟩
  exact absurd ⟨hnone, hfull, hold⟩ he

/-- The new entry is that of one failure. -/
theorem admits_of_restarts {order : List (Sigma fun _ : Text => Attempt)} (hr : s.Restarts l h) :
    { s with attempts := l.failure s.clock h order s.attempts }.Admits l h := by
  obtain ⟨hmany, a, ha, hexpired⟩ := hr
  have hentry : (l.failure s.clock h order s.attempts).lookup h = some ⟨1, s.clock, none, s.clock⟩ := by
    rw [AuthLimiter.failure, AList.lookup_insert, ha, AuthLimiter.window?, if_pos hexpired, AuthLimiter.recorded,
      if_neg (Nat.not_le.2 hmany)]
  rw [Admits, AuthLimiter.allowed]
  simp only [hentry]
  split_ifs with hb
  · cases hb
  · rfl
  · rfl

theorem admits_of_evicts {key : Text} {order : List (Sigma fun _ : Text => Attempt)} (hk : h ≠ key)
    (he : s.Evicts l h key order) : { s with attempts := l.failure s.clock key order s.attempts }.Admits l h := by
  have hentry : (l.failure s.clock key order s.attempts).lookup h = none := by
    rw [AuthLimiter.failure, AList.lookup_insert_ne hk, AuthLimiter.evicted, if_pos ⟨he.1, he.2.1⟩, he.2.2,
      AList.lookup_erase]
  rw [Admits, AuthLimiter.allowed]
  simp only [hentry]

/-- Locked, or past the time of the lock. -/
structure Lasts (l : AuthLimiter) (h : Text) (T : Int) (s : LimiterState) : Prop where
  locked : s.clock < T → s.Locked h T
  again : T ≤ s.clock + l.lockout

theorem step_tick {now : Int} (hstep : (calls l).step s (.tick now) = some s') :
    s.clock ≤ now ∧ s' = { s with clock := now } := by
  have hstep : (if s.clock ≤ now then some { s with clock := now } else none) = some s' := hstep
  split_ifs at hstep with hle
  cases hstep
  exact ⟨hle, rfl⟩

theorem step_failure {remoteAddress : Text} {order : List (Sigma fun _ : Text => Attempt)}
    (hstep : (calls l).step s (.failure remoteAddress order) = some s') :
    s' = { s with attempts := l.failure s.clock (authKey remoteAddress) order s.attempts } := by
  have hstep : (if order.Perm s.attempts.entries then
    some { s with attempts := l.failure s.clock (authKey remoteAddress) order s.attempts } else none) = some s' :=
    hstep
  split_ifs at hstep
  cases hstep
  rfl

theorem Lasts.step (hs : s.Lasts l h T) {call : LimiterCall} (hu : s.Undisturbed l h T call)
    (hstep : (calls l).step s call = some s') : s'.Lasts l h T := by
  cases call with
  | tick now =>
    obtain ⟨hle, rfl⟩ := step_tick hstep
    have hagain := hs.again
    refine ⟨fun hc => hs.locked (Int.lt_of_le_of_lt hle hc), ?_⟩
    show T ≤ now + l.lockout
    omega
  | allowed remoteAddress =>
    cases hstep
    exact ⟨fun hc => (hs.locked hc).allowed hc _, hs.again⟩
  | failure remoteAddress order =>
    obtain rfl := step_failure hstep
    refine ⟨fun hc => ?_, hs.again⟩
    have hu := hu hc
    split_ifs at hu with hk
    · rw [hk]
      exact locked_failure_self (hs.locked hc) hs.again hu
    · exact locked_failure_other (hs.locked hc) (Ne.symm hk) hu
  | success remoteAddress =>
    cases hstep
    refine ⟨fun hc => ?_, hs.again⟩
    obtain ⟨a, t, ha, ht, hle⟩ := hs.locked hc
    exact ⟨a, t, (AList.lookup_erase_ne (Ne.symm hu)).trans ha, ht, hle⟩

theorem lasts_of_locksNext {remoteAddress : Text} {order : List (Sigma fun _ : Text => Attempt)}
    (hkey : authKey remoteAddress = h) (hlocks : s.LocksNext l h)
    (hstep : (calls l).step s (.failure remoteAddress order) = some s') : s'.Lasts l h (s.clock + l.lockout) := by
  obtain rfl := step_failure hstep
  refine ⟨fun _ => ?_, Int.le_refl _⟩
  rw [hkey]
  exact ⟨_, s.clock + l.lockout, AList.lookup_insert _, if_pos hlocks, Int.le_refl _⟩

/-- A failure of the host sets the end of its lockout. In every run after it in which no login of the host
succeeds and, before that time, no failure evicts its entry or starts a new one, every call of `allowed`
for it before that time is refused; and a failure that does either ends the lockout. -/
theorem lockout_lasts {s₀ s₁ : LimiterState} {remoteAddress : Text} {order : List (Sigma fun _ : Text => Attempt)}
    (hkey : authKey remoteAddress = h) (hlocks : s₀.LocksNext l h)
    (hlock : (calls l).step s₀ (.failure remoteAddress order) = some s₁)
    (hrun : (calls l).Reach (fun s call => s.Undisturbed l h (s₀.clock + l.lockout) call) s₁ s)
    (hbefore : s.clock < s₀.clock + l.lockout) :
    ¬s.Admits l h ∧ ∀ remoteAddress' order' s', (calls l).step s (.failure remoteAddress' order') = some s' →
      (¬s'.Admits l h ↔ s.Spared l h (s₀.clock + l.lockout) (.failure remoteAddress' order')) := by
  have hlasts : s.Lasts l h (s₀.clock + l.lockout) :=
    hrun.invariant (lasts_of_locksNext hkey hlocks hlock) fun s call s' hs hu hstep => hs.step hu hstep
  refine ⟨not_admits_of_locked (hlasts.locked hbefore) hbefore, fun remoteAddress' order' s' hstep => ⟨?_, ?_⟩⟩
  · obtain rfl := step_failure hstep
    intro hrefused _
    split_ifs with hk
    · rw [hk] at hrefused
      exact fun hr => hrefused (admits_of_restarts hr)
    · exact fun he => hrefused (admits_of_evicts (Ne.symm hk) he)
  · intro hspared
    have hundisturbed : s.Undisturbed l h (s₀.clock + l.lockout) (.failure remoteAddress' order') := hspared
    have hlasts' := hlasts.step hundisturbed hstep
    have hclock : s'.clock = s.clock := by rw [step_failure hstep]
    exact not_admits_of_locked (hlasts'.locked (hclock ▸ hbefore)) (hclock ▸ hbefore)

end Lockout

/-! ## A lockout that lasts, and two that do not -/

open Logins (attacker)

def stranger : Text := text "192.0.2.11:12345"

/-- The attacker's entry after that many failures at time 0. -/
def entry (failures : Nat) : Sigma fun _ : Text => Attempt := ⟨authKey attacker, failures, 0, none, 0⟩

/-- Four failures of the attacker at time 0, and the fifth connection is let in at 59 seconds. -/
def fourFailures : List LimiterCall :=
  [.failure attacker [], .failure attacker [entry 1], .failure attacker [entry 2], .failure attacker [entry 3],
    .tick (59 * second), .allowed attacker]

/-- The entry after the fifth failure: locked until 119 seconds. -/
def lockedEntry : Sigma fun _ : Text => Attempt :=
  ⟨authKey attacker, 5, 0, some (119 * second), 59 * second⟩

/-- The state before the fifth failure, the one after it, and the one after calls that pass a test. -/
def lockRun (l : AuthLimiter) (p : LimiterState → LimiterCall → Bool) (after : List LimiterCall) :
    Option (LimiterState × LimiterState × LimiterState) :=
  ((calls l).runIf (fun _ _ => true) ⟨0, ∅⟩ fourFailures).bind fun s₀ =>
    ((calls l).step s₀ (.failure attacker [entry 4])).bind fun s₁ =>
      ((calls l).runIf p s₁ after).map fun s => (s₀, s₁, s)

theorem lockRun_eq_some {l : AuthLimiter} {p : LimiterState → LimiterCall → Bool} {after : List LimiterCall}
    {r : LimiterState × LimiterState × LimiterState} (hr : lockRun l p after = some r) :
    (calls l).Reach (fun _ _ => True) ⟨0, ∅⟩ r.1 ∧ (calls l).step r.1 (.failure attacker [entry 4]) = some r.2.1 ∧
      (calls l).Reach (fun s call => p s call = true) r.2.1 r.2.2 := by
  obtain ⟨s₀, h₀, hr⟩ := Option.bind_eq_some_iff.1 hr
  obtain ⟨s₁, h₁, hr⟩ := Option.bind_eq_some_iff.1 hr
  obtain ⟨s, h₂, rfl⟩ := Option.map_eq_some_iff.1 hr
  exact ⟨(Machine.reach_of_runIf .init h₀).mono fun _ _ _ => trivial, h₁, Machine.reach_of_runIf .init h₂⟩

/-- Only other hosts fail, and the map has room for them. -/
def onlyOthers (l : AuthLimiter) (s : LimiterState) : LimiterCall → Bool
  | .failure remoteAddress _ => authKey remoteAddress ≠ authKey attacker && s.attempts.entries.length < l.maxEntries
  | .success _ => false
  | _ => true

theorem undisturbed_of_onlyOthers {l : AuthLimiter} {T : Int} {s : LimiterState} {call : LimiterCall}
    (hc : s.onlyOthers l call = true) : s.Undisturbed l (authKey attacker) T call := by
  cases call with
  | failure remoteAddress order =>
    obtain ⟨hk, hroom⟩ := Bool.and_eq_true_iff.1 hc
    intro _
    rw [if_neg (of_decide_eq_true hk)]
    exact fun he => absurd he.2.1 (Nat.not_le.2 (of_decide_eq_true hroom))
  | success remoteAddress => cases hc
  | _ => trivial

/-- A stranger fails, and at 118 seconds the attacker is still locked out. -/
theorem lockout_lasts_stranger :
    ∃ r ∈ lockRun newAuthLimiter (onlyOthers newAuthLimiter) [.failure stranger [lockedEntry], .tick (118 * second)],
      ¬r.2.2.Admits newAuthLimiter (authKey attacker) := by
  obtain ⟨r, hr, hlocks, hbefore⟩ : ∃ r ∈ lockRun newAuthLimiter (onlyOthers newAuthLimiter)
      [.failure stranger [lockedEntry], .tick (118 * second)],
      r.1.LocksNext newAuthLimiter (authKey attacker) ∧ r.2.2.clock < r.1.clock + newAuthLimiter.lockout := by
    decide +kernel
  obtain ⟨-, hlock, hrun⟩ := lockRun_eq_some hr
  exact ⟨r, hr, (lockout_lasts rfl hlocks hlock (hrun.mono fun _ _ hc => undisturbed_of_onlyOthers hc) hbefore).1⟩

def noSuccess (_ : LimiterState) : LimiterCall → Bool
  | .success _ => false
  | _ => true

/-- A run from the empty map in which the host is let in before the end of its lockout, though no login
succeeded. -/
def CutShort (l : AuthLimiter) (h : Text) : Prop :=
  ∃ s₀ s₁ s remoteAddress order, authKey remoteAddress = h ∧ (calls l).Reach (fun _ _ => True) ⟨0, ∅⟩ s₀ ∧
    s₀.LocksNext l h ∧ (calls l).step s₀ (.failure remoteAddress order) = some s₁ ∧
    (calls l).Reach (fun s call => noSuccess s call = true) s₁ s ∧ s.clock < s₀.clock + l.lockout ∧ s.Admits l h

theorem cutShort_of_lockRun {l : AuthLimiter} {after : List LimiterCall}
    (hr : ∃ r ∈ lockRun l noSuccess after, r.1.LocksNext l (authKey attacker) ∧
      r.2.2.clock < r.1.clock + l.lockout ∧ r.2.2.Admits l (authKey attacker)) : CutShort l (authKey attacker) := by
  obtain ⟨r, hr, hlocks, hearly, hadmits⟩ := hr
  obtain ⟨hstart, hlock, hrun⟩ := lockRun_eq_some hr
  exact ⟨r.1, r.2.1, r.2.2, attacker, _, rfl, hstart, hlocks, hlock, hrun, hearly, hadmits⟩

/-- At 60 seconds, with the window over, one more failure unlocks the attacker; and so does the failure of a
stranger when the map is full. -/
theorem lockouts_cut_short :
    CutShort newAuthLimiter (authKey attacker) ∧
      CutShort { newAuthLimiter with maxEntries := 1 } (authKey attacker) :=
  ⟨@cutShort_of_lockRun _ [.tick (60 * second), .failure attacker [lockedEntry]] (by decide +kernel),
    @cutShort_of_lockRun _ [.failure stranger [lockedEntry]] (by decide +kernel)⟩

end LimiterState

end Accelerator.Gateway
