/-
The limiter of failed logins (`gateway/auth_limit.go`) and the connections that go through it: `allowed`, the
check of the password, then `failure` or `success`, each on its own. Connections that pass `allowed` before
the failures of others are recorded are not held back by them, so the bound on failures in a window holds for
runs in which the connections between `allowed` and their record leave room.
-/
import Accelerator.Interact.Machine
import Accelerator.Settings.Config
import Mathlib.Data.List.AList

namespace Accelerator.Gateway

open Strings Settings Interact

/-! ## The limiter -/

/-- `authAttempt`. Times are in nanoseconds, and no time is the zero `time.Time`. -/
structure Attempt where
  failures : Nat
  windowStart : Int
  blockedUntil : Option Int
  lastSeen : Int
  deriving DecidableEq, Repr

/-- `authLimiter`, without the map. -/
structure AuthLimiter where
  maxFailures : Nat
  window : Int
  lockout : Int
  maxEntries : Nat
  deriving DecidableEq, Repr

/-- The limits of `newAuthLimiter`. -/
def newAuthLimiter : AuthLimiter where
  maxFailures := 5
  window := minute
  lockout := minute
  maxEntries := 4096

/-- The map of attempts by host. -/
abbrev Attempts := AList fun _ : Text => Attempt

def authKey (remoteAddress : Text) : Text :=
  match splitHostPort remoteAddress with
  | .ok (host, _) => if host ≠ [] then host else remoteAddress
  | .error _ => remoteAddress

def Attempt.blocked (a : Attempt) (now : Int) : Bool :=
  match a.blockedUntil with
  | none => false
  | some t => now < t

section Limiter

variable (l : AuthLimiter) (now : Int)

def Attempt.expired (a : Attempt) : Prop := l.window ≤ now - a.windowStart

instance (a : Attempt) : Decidable (a.expired l now) := inferInstanceAs (Decidable (_ ≤ _))

/-- `authLimiter.allowed`. -/
def AuthLimiter.allowed (key : Text) (attempts : Attempts) : Bool × Attempts :=
  match attempts.lookup key with
  | none => (true, attempts)
  | some attempt =>
    if attempt.blocked now then (false, attempts.insert key { attempt with lastSeen := now })
    else if attempt.expired l now then (true, attempts.erase key)
    else (true, attempts)

/-- The key `evictOldest` deletes, when the map is enumerated in this order. -/
def oldestKey (order : List (Sigma fun _ : Text => Attempt)) : Text :=
  (order.foldl (fun (oldest : Text × Int) e =>
    if oldest.1 = [] ∨ e.2.lastSeen < oldest.2 then (e.1, e.2.lastSeen) else oldest) ([], 0)).1

/-- The map after `failure` made room for a new entry. -/
def AuthLimiter.evicted (key : Text) (order : List (Sigma fun _ : Text => Attempt)) (attempts : Attempts) : Attempts :=
  if attempts.lookup key = none ∧ l.maxEntries ≤ attempts.entries.length then attempts.erase (oldestKey order)
  else attempts

/-- The attempt a failure is added to: a new one when there is none or its window is over. -/
def AuthLimiter.window? (attempt : Option Attempt) : Attempt :=
  match attempt with
  | none => ⟨0, now, none, now⟩
  | some a => if a.expired l now then ⟨0, now, none, now⟩ else a

def AuthLimiter.recorded (a : Attempt) : Attempt where
  failures := a.failures + 1
  windowStart := a.windowStart
  lastSeen := now
  blockedUntil := if l.maxFailures ≤ a.failures + 1 then some (now + l.lockout) else a.blockedUntil

/-- `authLimiter.failure`. -/
def AuthLimiter.failure (key : Text) (order : List (Sigma fun _ : Text => Attempt)) (attempts : Attempts) : Attempts :=
  (l.evicted key order attempts).insert key (l.recorded now (l.window? now (attempts.lookup key)))

end Limiter

/-- `authLimiter.success`. -/
def AuthLimiter.success (_l : AuthLimiter) (key : Text) (attempts : Attempts) : Attempts := attempts.erase key

/-! ## Connections -/

/-- How far a connection has come: before `allowed`, let through or not, after a check of the password that
passed or not, and after the outcome was recorded. -/
inductive LoginPhase where
  | connected | refused | admitted | accepted | rejected | recorded
  deriving DecidableEq, Repr

structure Login where
  remote : Text
  phase : LoginPhase
  deriving DecidableEq, Repr

def Login.host (c : Login) : Text := authKey c.remote

inductive LoginAction where
  | tick (now : Int)
  | connect (remote : Text)
  | allowed (i : Nat)
  | authenticate (i : Nat) (ok : Bool)
  | failure (i : Nat) (order : List (Sigma fun _ : Text => Attempt))
  | success (i : Nat)

/-- The limiter, the clock and the connections. Two histories are kept beside them: the hosts and times of the
checks that failed, and of the failures that open a window: those recorded for a host without an entry, and those
recorded over an entry whose window is over. -/
structure Logins where
  clock : Int
  attempts : Attempts
  conns : List Login
  failing : List (Text × Int)
  opened : List (Text × Int)

namespace Logins

def start (clock : Int) : Logins := ⟨clock, ∅, [], [], []⟩

/-- The connection `i`, if it is in the phase. -/
def at? (s : Logins) (i : Nat) (phase : LoginPhase) : Option Login := s.conns[i]?.filter fun c => c.phase = phase

def move (s : Logins) (i : Nat) (c : Login) (phase : LoginPhase) : List Login := s.conns.set i { c with phase }

/-- The connection calls `allowed`. -/
def askAllowed (l : AuthLimiter) (s : Logins) (i : Nat) (c : Login) : Logins :=
  let r := l.allowed s.clock c.host s.attempts
  { s with attempts := r.2, conns := s.move i c (if r.1 then .admitted else .refused) }

/-- The password is checked. -/
def checkPassword (s : Logins) (i : Nat) (c : Login) (ok : Bool) : Logins :=
  if ok then { s with conns := s.move i c .accepted }
  else { s with conns := s.move i c .rejected, failing := (c.host, s.clock) :: s.failing }

/-- A failure of the host is the first one of a window. -/
def OpensWindow (l : AuthLimiter) (s : Logins) (key : Text) : Prop :=
  ∀ a ∈ s.attempts.lookup key, a.expired l s.clock

instance (l : AuthLimiter) (s : Logins) (key : Text) : Decidable (s.OpensWindow l key) :=
  inferInstanceAs (Decidable (∀ _ ∈ _, _))

/-- The connection calls `failure`. -/
def recordFailure (l : AuthLimiter) (s : Logins) (i : Nat) (c : Login) (order : List (Sigma fun _ : Text => Attempt)) :
    Logins :=
  { s with
    attempts := l.failure s.clock c.host order s.attempts
    conns := s.move i c .recorded
    opened := if s.OpensWindow l c.host then (c.host, s.clock) :: s.opened else s.opened }

/-- The connection calls `success`. -/
def recordSuccess (l : AuthLimiter) (s : Logins) (i : Nat) (c : Login) : Logins :=
  { s with attempts := l.success c.host s.attempts, conns := s.move i c .recorded }

/-- One step of a connection, or of the clock. The enumeration of a map is in any order. -/
def step (l : AuthLimiter) (s : Logins) : LoginAction → Option Logins
  | .tick now => if s.clock ≤ now then some { s with clock := now } else none
  | .connect remote => some { s with conns := s.conns ++ [⟨remote, .connected⟩] }
  | .allowed i => (s.at? i .connected).map fun c => s.askAllowed l i c
  | .authenticate i ok => (s.at? i .admitted).map fun c => s.checkPassword i c ok
  | .failure i order =>
    if order.Perm s.attempts.entries then (s.at? i .rejected).map fun c => s.recordFailure l i c order else none
  | .success i => (s.at? i .accepted).map fun c => s.recordSuccess l i c

def machine (l : AuthLimiter) : Machine Logins LoginAction := ⟨step l⟩

end Logins

/-! ## One host -/

/-- What the limiter and the connections amount to for one host: its entry, as the failures and the start of
the window, the connections that were let in and not checked yet, those that failed the check and are not
recorded yet, and the times of the two histories. -/
@[ext]
structure HostLogins where
  clock : Int
  entry : Option (Nat × Int)
  admitted : Nat
  rejected : Nat
  failing : List Int
  opened : List Int

namespace HostLogins

section Steps

variable (l : AuthLimiter) (h : HostLogins)

/-- The entry, if its window is not over. -/
def live : Option (Nat × Int) := h.entry.filter fun e => h.clock - e.2 < l.window

/-- The failures in the current window. -/
def failures : Nat := (h.live l).elim 0 Prod.fst

/-- The entry after one more failure. -/
def nextEntry : Nat × Int := (h.live l).elim (1, h.clock) fun e => (e.1 + 1, e.2)

/-- A failure is recorded, and `n` are left. -/
def record (n : Nat) : HostLogins :=
  { h with
    rejected := n
    entry := some (h.nextEntry l)
    opened := if h.live l = none then h.clock :: h.opened else h.opened }

/-- The steps of one host. Connections are let in while there is room. -/
inductive Step : HostLogins → Prop
  | stutter : Step h
  | tick {now : Int} : h.clock ≤ now → Step { h with clock := now }
  | admitted : h.failures l + h.admitted + h.rejected < l.maxFailures →
      Step { h with entry := h.live l, admitted := h.admitted + 1 }
  | accepted {n : Nat} : h.admitted = n + 1 → Step { h with admitted := n }
  | rejected {n : Nat} : h.admitted = n + 1 →
      Step { h with admitted := n, rejected := h.rejected + 1, failing := h.clock :: h.failing }
  | recorded {n : Nat} : h.rejected = n + 1 → Step (h.record l n)

/-- Whether a failure falls into the window that was opened at `t₀`. -/
def inWindow (t₀ t : Int) : Bool := t₀ ≤ t && t < t₀ + l.window

/-- The failures in a window are recorded in its entry or about to be. Where no window is open, the failures of
this moment are about to be recorded. -/
structure Inv : Prop where
  room : h.failures l + h.admitted + h.rejected ≤ l.maxFailures
  past : ∀ t ∈ h.failing, t ≤ h.clock
  during : ∀ t₀ ∈ h.opened, h.clock < t₀ + l.window →
    ∃ n, h.entry = some (n, t₀) ∧ h.failing.countP (inWindow l t₀) ≤ n + h.rejected
  after : ∀ t₀ ∈ h.opened, t₀ + l.window ≤ h.clock → h.failing.countP (inWindow l t₀) ≤ l.maxFailures
  closed : h.live l = none → h.failing.countP (h.clock ≤ ·) ≤ h.rejected

end Steps

section Invariant

variable {l : AuthLimiter} {h : HostLogins}

theorem live_of_entry {e : Nat × Int} (he : h.entry = some e) (hw : h.clock - e.2 < l.window) :
    h.live l = some e := by
  simp [live, he, hw]

theorem entry_of_live {e : Nat × Int} (he : h.live l = some e) : h.entry = some e ∧ h.clock - e.2 < l.window := by
  simpa [live, Option.filter_eq_some_iff] using he

theorem failures_of_live {e : Nat × Int} (he : h.live l = some e) : h.failures l = e.1 := by
  rw [failures, he]
  rfl

/-- The failures in every window are within the bound. -/
theorem Inv.bounded (hi : h.Inv l) {t₀ : Int} (ht : t₀ ∈ h.opened) :
    h.failing.countP (inWindow l t₀) ≤ l.maxFailures := by
  by_cases hc : h.clock < t₀ + l.window
  · obtain ⟨n, he, hn⟩ := hi.during t₀ ht hc
    have hroom := hi.room
    rw [failures_of_live (live_of_entry he (by show h.clock - t₀ < l.window; omega))] at hroom
    simp only at hroom
    omega
  · exact hi.after t₀ ht (Int.not_lt.1 hc)

theorem Inv.tick (hi : h.Inv l) {now : Int} (hn : h.clock ≤ now) : { h with clock := now }.Inv l := by
  have hroom := hi.room
  refine ⟨?_, fun t ht => Int.le_trans (hi.past t ht) hn, fun t₀ ht hc => hi.during t₀ ht (Int.lt_of_le_of_lt hn hc),
    fun t₀ ht _ => hi.bounded ht, ?_⟩
  · -- A window that ends takes its failures with it.
    have hle : { h with clock := now }.failures l ≤ h.failures l := by
      rcases hl : { h with clock := now }.live l with _ | e
      · rw [failures, hl]
        exact Nat.zero_le _
      · obtain ⟨he, hw⟩ := entry_of_live hl
        simp only at he hw
        rw [failures_of_live hl, failures_of_live (live_of_entry he (by omega))]
    simp only
    omega
  · intro hl
    rcases Int.lt_or_eq_of_le hn with hlt | rfl
    · have hnone : h.failing.countP (now ≤ ·) = 0 := by
        rw [List.countP_eq_zero]
        intro t ht
        have := hi.past t ht
        simp only [decide_eq_true_eq]
        omega
      simp only [hnone]
      exact Nat.zero_le _
    · exact hi.closed hl

theorem Inv.admitted (hi : h.Inv l) (hroom : h.failures l + h.admitted + h.rejected < l.maxFailures) :
    { h with entry := h.live l, admitted := h.admitted + 1 }.Inv l := by
  have hlive : { h with entry := h.live l, admitted := h.admitted + 1 }.live l = h.live l := by
    simp [live, Option.filter_filter]
  refine ⟨?_, hi.past, ?_, hi.after, fun hl => hi.closed (hlive ▸ hl)⟩
  · rw [failures, hlive]
    simp only [failures] at hroom
    simp only
    omega
  · intro t₀ ht hc
    obtain ⟨n, he, hn⟩ := hi.during t₀ ht hc
    simp only at hc
    exact ⟨n, live_of_entry he (by show h.clock - t₀ < l.window; omega), hn⟩

theorem Inv.accepted (hi : h.Inv l) {n : Nat} (ha : h.admitted = n + 1) : { h with admitted := n }.Inv l := by
  refine ⟨?_, hi.past, hi.during, hi.after, hi.closed⟩
  have hroom := hi.room
  change h.failures l + n + h.rejected ≤ _
  omega

theorem Inv.rejected (hi : h.Inv l) {n : Nat} (ha : h.admitted = n + 1) :
    { h with admitted := n, rejected := h.rejected + 1, failing := h.clock :: h.failing }.Inv l := by
  refine ⟨?_, ?_, ?_, ?_, ?_⟩
  · have hroom := hi.room
    change h.failures l + n + (h.rejected + 1) ≤ _
    omega
  · exact List.forall_mem_cons.2 ⟨Int.le_refl _, hi.past⟩
  · intro t₀ ht hc
    obtain ⟨m, he, hm⟩ := hi.during t₀ ht hc
    refine ⟨m, he, ?_⟩
    simp only [List.countP_cons]
    split_ifs <;> omega
  · intro t₀ ht hend
    have hout : inWindow l t₀ h.clock = false := by
      simp only at hend
      simp [inWindow, hend]
    simp only [List.countP_cons, hout]
    exact hi.after t₀ ht hend
  · intro hl
    have := hi.closed hl
    rw [List.countP_cons_of_pos (by simp)]
    exact Nat.succ_le_succ this

theorem Inv.recorded (hw : 0 < l.window) (hi : h.Inv l) {n : Nat} (hr : h.rejected = n + 1) :
    (h.record l n).Inv l := by
  have hroom := hi.room
  rw [hr] at hroom
  -- The entry stands for a window that is not over.
  have hopen : h.clock - (h.nextEntry l).2 < l.window := by
    rcases hl : h.live l with _ | e
    · simpa [nextEntry, hl] using hw
    · simpa [nextEntry, hl] using (entry_of_live hl).2
  have hlive : (h.record l n).live l = some (h.nextEntry l) := live_of_entry rfl hopen
  have hfirst : (h.nextEntry l).1 = h.failures l + 1 := by
    rcases hl : h.live l with _ | e <;> simp [nextEntry, failures, hl]
  refine ⟨?_, hi.past, ?_, ?_, ?_⟩
  · rw [failures_of_live hlive, hfirst]
    simp only [record]
    omega
  · intro t₀ ht hc
    simp only [record] at hc ht ⊢
    by_cases hl : h.live l = none
    · rw [if_pos hl] at ht
      rcases List.mem_cons.1 ht with rfl | ht
      · refine ⟨1, by simp [nextEntry, hl], ?_⟩
        have hle : h.failing.countP (inWindow l h.clock) ≤ h.failing.countP (h.clock ≤ ·) :=
          List.countP_mono_left fun t _ ht => by simp only [inWindow, Bool.and_eq_true] at ht; exact ht.1
        have := hi.closed hl
        omega
      · -- no earlier window is open
        obtain ⟨m, hm, -⟩ := hi.during t₀ ht hc
        rw [live_of_entry hm (show h.clock - t₀ < l.window by omega)] at hl
        cases hl
    · rw [if_neg hl] at ht
      obtain ⟨m, hm, hle⟩ := hi.during t₀ ht hc
      have hl := live_of_entry hm (show h.clock - t₀ < l.window by omega)
      refine ⟨m + 1, by simp [nextEntry, hl], ?_⟩
      omega
  · intro t₀ ht hend
    simp only [record] at hend ht
    split_ifs at ht
    · rcases List.mem_cons.1 ht with rfl | ht
      · omega
      · exact hi.after t₀ ht hend
    · exact hi.after t₀ ht hend
  · intro hl
    rw [hlive] at hl
    cases hl

theorem Inv.step {h' : HostLogins} (hw : 0 < l.window) (hi : h.Inv l) (hs : h.Step l h') : h'.Inv l := by
  cases hs with
  | stutter => exact hi
  | tick hn => exact hi.tick hn
  | admitted hroom => exact hi.admitted hroom
  | accepted ha => exact hi.accepted ha
  | rejected ha => exact hi.rejected ha
  | recorded hr => exact hi.recorded hw hr

end Invariant

end HostLogins

/-! ## The limiter and one host -/

namespace Logins

/-- The failures and the start of the window of an entry. -/
def summary (a : Attempt) : Nat × Int := (a.failures, a.windowStart)

section Hosts

variable (l : AuthLimiter) (k : Text) (s : Logins)

/-- The connections of the host in a phase. -/
def inPhase (conns : List Login) (phase : LoginPhase) : Nat := conns.countP fun c => c.host = k ∧ c.phase = phase

/-- What concerns the host. -/
def host : HostLogins where
  clock := s.clock
  entry := (s.attempts.lookup k).map summary
  admitted := inPhase k s.conns .admitted
  rejected := inPhase k s.conns .rejected
  failing := (s.failing.filter (·.1 = k)).map Prod.snd
  opened := (s.opened.filter (·.1 = k)).map Prod.snd

/-- No login of the host succeeds, and its entry is not evicted. -/
def Spares : LoginAction → Prop
  | .success i => ∀ c, s.conns[i]? = some c → c.host ≠ k
  | .failure i order => ∀ c, s.conns[i]? = some c → l.maxEntries ≤ s.attempts.entries.length →
      s.attempts.lookup c.host = none → oldestKey order = k → s.attempts.lookup k = none
  | _ => True

/-- When the host is let in, the failures recorded in its current window and its connections that were let in
and not recorded are fewer than the bound. -/
def HasRoom : LoginAction → Prop
  | .allowed i => ∀ c, s.conns[i]? = some c → c.host = k → (l.allowed s.clock k s.attempts).1 = true →
      (s.host k).failures l + (s.host k).admitted + (s.host k).rejected < l.maxFailures
  | _ => True

/-- In every window that a failure of the host opened, the first or a later one, no more checks failed than the
bound. -/
def Bounded : Prop :=
  ∀ t₀, (k, t₀) ∈ s.opened →
    s.failing.countP (fun e => e.1 = k ∧ t₀ ≤ e.2 ∧ e.2 < t₀ + l.window) ≤ l.maxFailures

end Hosts

section Simulation

variable {l : AuthLimiter} {k key : Text} {now : Int} {attempts : Attempts} {s u : Logins} {i : Nat} {c : Login}

/-- A connection that changes its phase leaves one count and enters another. -/
theorem inPhase_move (hc : s.conns[i]? = some c) (phase p : LoginPhase) :
    inPhase k (s.move i c phase) p + (if c.host = k ∧ c.phase = p then 1 else 0) =
      inPhase k s.conns p + if c.host = k ∧ phase = p then 1 else 0 := by
  obtain ⟨hi, rfl⟩ := List.getElem?_eq_some_iff.1 hc
  have hpos : s.conns[i].host = k ∧ s.conns[i].phase = p → 0 < inPhase k s.conns p := fun h =>
    List.countP_pos_iff.2 ⟨s.conns[i], List.getElem_mem hi, by simpa using h⟩
  have hhost : { s.conns[i] with phase }.host = s.conns[i].host := rfl
  simp only [inPhase, move, List.countP_set hi, decide_eq_true_eq, hhost] at hpos ⊢
  by_cases h₁ : s.conns[i].host = k ∧ s.conns[i].phase = p
  · have := hpos h₁
    rw [if_pos h₁]
    omega
  · rw [if_neg h₁]
    omega

theorem allowed_lookup_ne (h : k ≠ key) : (l.allowed now key attempts).2.lookup k = attempts.lookup k := by
  unfold AuthLimiter.allowed
  split
  · rfl
  · split_ifs
    · exact AList.lookup_insert_ne h
    · exact AList.lookup_erase_ne h
    · rfl

theorem allowed_refused (h : (l.allowed now k attempts).1 = false) :
    ((l.allowed now k attempts).2.lookup k).map summary = (attempts.lookup k).map summary := by
  unfold AuthLimiter.allowed at h ⊢
  split
  · rfl
  · rename_i attempt ha
    simp only [ha] at h
    split_ifs at h ⊢
    rw [AList.lookup_insert, ha]
    rfl

theorem allowed_admitted (h : (l.allowed now k attempts).1 = true) :
    ((l.allowed now k attempts).2.lookup k).map summary =
      ((attempts.lookup k).map summary).filter fun e => now - e.2 < l.window := by
  unfold AuthLimiter.allowed at h ⊢
  split
  · rename_i ha
    simp [ha]
  · rename_i attempt ha
    simp only [ha] at h
    split_ifs at h ⊢ with hb he
    · have hnot : ¬now - attempt.windowStart < l.window := Int.not_lt.2 he
      rw [AList.lookup_erase, ha]
      simp [summary, Option.filter_some, hnot]
    · have hopen : now - attempt.windowStart < l.window := Int.not_le.1 he
      rw [ha]
      simp [summary, Option.filter_some, hopen]

theorem failure_lookup (order : List (Sigma fun _ : Text => Attempt)) :
    ((l.failure now k order attempts).lookup k).map summary =
      some ((((attempts.lookup k).map summary).filter fun e => now - e.2 < l.window).elim (1, now)
        fun e => (e.1 + 1, e.2)) := by
  unfold AuthLimiter.failure
  rw [AList.lookup_insert]
  cases ha : attempts.lookup k with
  | none => rfl
  | some attempt =>
    by_cases he : attempt.expired l now
    · have hnot : ¬now - attempt.windowStart < l.window := Int.not_lt.2 he
      simp [AuthLimiter.window?, AuthLimiter.recorded, summary, Option.filter_some, he, hnot]
    · have hopen : now - attempt.windowStart < l.window := Int.not_le.1 he
      simp [AuthLimiter.window?, AuthLimiter.recorded, summary, Option.filter_some, he, hopen]

theorem live_host_none_iff : (s.host k).live l = none ↔ s.OpensWindow l k := by
  unfold OpensWindow
  cases ha : s.attempts.lookup k with
  | none => simp [HostLogins.live, host, ha]
  | some a => simp [HostLogins.live, host, ha, summary, Option.filter_some, Attempt.expired]

theorem failure_lookup_ne {order : List (Sigma fun _ : Text => Attempt)} (h : k ≠ key)
    (hsp : l.maxEntries ≤ attempts.entries.length → attempts.lookup key = none → oldestKey order = k →
      attempts.lookup k = none) :
    (l.failure now key order attempts).lookup k = attempts.lookup k := by
  unfold AuthLimiter.failure
  rw [AList.lookup_insert_ne h, AuthLimiter.evicted]
  split_ifs with hfull
  · by_cases hk : oldestKey order = k
    · rw [hk, AList.lookup_erase, hsp hfull.2 hfull.1 hk]
    · exact AList.lookup_erase_ne (Ne.symm hk)
  · rfl

theorem inPhase_move_ne (hc : s.conns[i]? = some c) (hne : c.host ≠ k) (phase p : LoginPhase) :
    inPhase k (s.move i c phase) p = inPhase k s.conns p := by
  simpa [hne] using inPhase_move (k := k) hc phase p

/-- What another host does leaves this one as it was. -/
theorem host_other {phase : LoginPhase} (hc : s.conns[i]? = some c) (hne : c.host ≠ k) (hclock : u.clock = s.clock)
    (hconns : u.conns = s.move i c phase) (hlookup : u.attempts.lookup k = s.attempts.lookup k)
    (hfailing : u.failing = s.failing ∨ u.failing = (c.host, s.clock) :: s.failing)
    (hopened : u.opened = s.opened ∨ u.opened = (c.host, s.clock) :: s.opened) : u.host k = s.host k := by
  refine HostLogins.ext hclock (congrArg (Option.map summary) hlookup) ?_ ?_ ?_ ?_
  · exact (congrArg (inPhase k · .admitted) hconns).trans (inPhase_move_ne hc hne ..)
  · exact (congrArg (inPhase k · .rejected) hconns).trans (inPhase_move_ne hc hne ..)
  · rcases hfailing with h | h <;> simp [host, h, hne]
  · rcases hopened with h | h <;> simp [host, h, hne]

theorem at?_eq_some {phase : LoginPhase} : s.at? i phase = some c ↔ s.conns[i]? = some c ∧ c.phase = phase := by
  simp [at?, Option.filter_eq_some_iff]

theorem host_askAllowed (h : s.at? i .connected = some c) (hroom : s.HasRoom l k (.allowed i)) :
    (s.host k).Step l ((s.askAllowed l i c).host k) := by
  obtain ⟨hc, hphase⟩ := at?_eq_some.1 h
  by_cases hk : c.host = k
  · subst hk
    cases hok : (l.allowed s.clock c.host s.attempts).1 with
    | true =>
      have hcount := inPhase_move (k := c.host) hc .admitted
      have heq : (s.askAllowed l i c).host c.host =
          { s.host c.host with entry := (s.host c.host).live l, admitted := (s.host c.host).admitted + 1 } := by
        refine HostLogins.ext rfl (allowed_admitted hok) ?_ ?_ rfl rfl
        · simpa [askAllowed, host, hphase, hok] using hcount .admitted
        · simpa [askAllowed, host, hphase, hok] using hcount .rejected
      rw [heq]
      exact .admitted (hroom c hc rfl hok)
    | false =>
      have hcount := inPhase_move (k := c.host) hc .refused
      have heq : (s.askAllowed l i c).host c.host = s.host c.host := by
        refine HostLogins.ext rfl (allowed_refused hok) ?_ ?_ rfl rfl
        · simpa [askAllowed, host, hphase, hok] using hcount .admitted
        · simpa [askAllowed, host, hphase, hok] using hcount .rejected
      rw [heq]
      exact .stutter
  · rw [host_other (u := s.askAllowed l i c) hc hk rfl rfl (allowed_lookup_ne (Ne.symm hk)) (.inl rfl) (.inl rfl)]
    exact .stutter

theorem host_checkPassword (h : s.at? i .admitted = some c) (ok : Bool) :
    (s.host k).Step l ((s.checkPassword i c ok).host k) := by
  obtain ⟨hc, hphase⟩ := at?_eq_some.1 h
  cases ok with
  | true =>
    by_cases hk : c.host = k
    · subst hk
      have hcount := inPhase_move (k := c.host) hc .accepted
      have hn : (s.host c.host).admitted = inPhase c.host (s.move i c .accepted) .admitted + 1 := by
        simpa [host, hphase] using (hcount .admitted).symm
      have heq : (s.checkPassword i c true).host c.host =
          { s.host c.host with admitted := inPhase c.host (s.move i c .accepted) .admitted } := by
        refine HostLogins.ext rfl rfl rfl ?_ rfl rfl
        simpa [checkPassword, host, hphase] using hcount .rejected
      rw [heq]
      exact .accepted hn
    · rw [host_other (u := s.checkPassword i c true) hc hk rfl rfl rfl (.inl rfl) (.inl rfl)]
      exact .stutter
  | false =>
    by_cases hk : c.host = k
    · subst hk
      have hcount := inPhase_move (k := c.host) hc .rejected
      have hn : (s.host c.host).admitted = inPhase c.host (s.move i c .rejected) .admitted + 1 := by
        simpa [host, hphase] using (hcount .admitted).symm
      have heq : (s.checkPassword i c false).host c.host =
          { s.host c.host with
            admitted := inPhase c.host (s.move i c .rejected) .admitted
            rejected := (s.host c.host).rejected + 1
            failing := s.clock :: (s.host c.host).failing } := by
        refine HostLogins.ext rfl rfl rfl ?_ ?_ rfl
        · simpa [checkPassword, host, hphase] using hcount .rejected
        · simp [checkPassword, host]
      rw [heq]
      exact .rejected hn
    · rw [host_other (u := s.checkPassword i c false) hc hk rfl rfl rfl (.inr rfl) (.inl rfl)]
      exact .stutter

theorem host_recordFailure {order : List (Sigma fun _ : Text => Attempt)} (h : s.at? i .rejected = some c)
    (hsp : s.Spares l k (.failure i order)) : (s.host k).Step l ((s.recordFailure l i c order).host k) := by
  obtain ⟨hc, hphase⟩ := at?_eq_some.1 h
  by_cases hk : c.host = k
  · subst hk
    have hcount := inPhase_move (k := c.host) hc .recorded
    have hn : (s.host c.host).rejected = inPhase c.host (s.move i c .recorded) .rejected + 1 := by
      simpa [host, hphase] using (hcount .rejected).symm
    have heq : (s.recordFailure l i c order).host c.host =
        (s.host c.host).record l (inPhase c.host (s.move i c .recorded) .rejected) := by
      refine HostLogins.ext rfl (failure_lookup order) ?_ rfl rfl ?_
      · simpa [recordFailure, host, hphase, HostLogins.record] using hcount .admitted
      · by_cases hl : s.OpensWindow l c.host
        · rw [HostLogins.record, if_pos (live_host_none_iff.2 hl)]
          simp [recordFailure, host, hl]
        · rw [HostLogins.record, if_neg (mt live_host_none_iff.1 hl)]
          simp [recordFailure, host, hl]
    rw [heq]
    exact .recorded hn
  · have hopened : (s.recordFailure l i c order).opened = s.opened ∨
        (s.recordFailure l i c order).opened = (c.host, s.clock) :: s.opened := by
      rw [recordFailure]
      split_ifs
      · exact .inr rfl
      · exact .inl rfl
    rw [host_other (u := s.recordFailure l i c order) hc hk rfl rfl (failure_lookup_ne (Ne.symm hk) (hsp c hc))
      (.inl rfl) hopened]
    exact .stutter

/-- A step of the limiter and the connections is a step of each host. -/
theorem step_host {a : LoginAction} (h : step l s a = some u) (hsp : s.Spares l k a) (hroom : s.HasRoom l k a) :
    (s.host k).Step l (u.host k) := by
  cases a with
  | tick now =>
    rw [step] at h
    split_ifs at h with hn
    cases h
    exact .tick hn
  | connect remote =>
    cases h
    have heq : { s with conns := s.conns ++ [(⟨remote, .connected⟩ : Login)] }.host k = s.host k := by
      simp [host, inPhase]
    rw [heq]
    exact .stutter
  | allowed i =>
    obtain ⟨c, hc, rfl⟩ := Option.map_eq_some_iff.1 h
    exact host_askAllowed hc hroom
  | authenticate i ok =>
    obtain ⟨c, hc, rfl⟩ := Option.map_eq_some_iff.1 h
    exact host_checkPassword hc ok
  | failure i order =>
    rw [step] at h
    split_ifs at h
    obtain ⟨c, hc, rfl⟩ := Option.map_eq_some_iff.1 h
    exact host_recordFailure hc hsp
  | success i =>
    obtain ⟨c, hc, rfl⟩ := Option.map_eq_some_iff.1 h
    obtain ⟨hc, -⟩ := at?_eq_some.1 hc
    have hk := hsp c hc
    rw [host_other (u := s.recordSuccess l i c) hc hk rfl rfl (AList.lookup_erase_ne (Ne.symm hk)) (.inl rfl)
      (.inl rfl)]
    exact .stutter

end Simulation

/-! ## The bound -/

section Bound

variable {l : AuthLimiter} {k : Text} {s : Logins}

theorem host_start (clock : Int) : ((start clock).host k).Inv l where
  room := Nat.zero_le _
  past := nofun
  during := nofun
  after := nofun
  closed _ := Nat.le_refl _

theorem bounded_of_host (h : (s.host k).Inv l) : s.Bounded l k := by
  intro t₀ ht
  have hmem : t₀ ∈ (s.host k).opened := List.mem_map.2 ⟨(k, t₀), List.mem_filter.2 ⟨ht, by simp⟩, rfl⟩
  have hle := h.bounded hmem
  rw [host, List.countP_map, List.countP_filter] at hle
  refine Nat.le_trans (List.countP_mono_left fun e _ he => ?_) hle
  simpa [HostLogins.inWindow, and_comm, and_assoc] using he

/-- Nothing falls into an empty window. -/
theorem bounded_of_window_le (hw : l.window ≤ 0) : s.Bounded l k := by
  intro t₀ _
  rw [List.countP_eq_zero.2]
  · exact Nat.zero_le _
  · intro e _
    simp only [decide_eq_true_eq]
    omega

theorem host_inv_of_reach {clock : Int} (hw : 0 < l.window)
    (h : (machine l).Reach (fun s a => s.Spares l k a ∧ s.HasRoom l k a) (start clock) s) : (s.host k).Inv l := by
  refine h.invariant (I := fun s => (s.host k).Inv l) (host_start clock) ?_
  rintro s a u hi ⟨hsp, hroom⟩ hs
  exact hi.step hw (step_host hs hsp hroom)

/-- No more checks fail in a window than the limiter allows, in every run in which no login of the host
succeeds, its entry is not evicted, and the host is let in only while its recorded failures and the
connections on their way leave room. -/
theorem failures_bounded (l : AuthLimiter) (k : Text) (clock : Int) (s : Logins)
    (h : (machine l).Reach (fun s a => s.Spares l k a ∧ s.HasRoom l k a) (start clock) s) : s.Bounded l k := by
  rcases Int.lt_or_le 0 l.window with hw | hw
  · exact bounded_of_host (host_inv_of_reach hw h)
  · exact bounded_of_window_le hw

end Bound

/-! ## One connection at a time -/

/-- An entry with as many failures as are allowed is blocked for the lockout from the start of its window on. -/
def Locks (l : AuthLimiter) (now : Int) (a : Attempt) : Prop :=
  a.windowStart ≤ now ∧
    (l.maxFailures ≤ a.failures → ∃ t, a.blockedUntil = some t ∧ a.windowStart + l.lockout ≤ t)

def AllLock (l : AuthLimiter) (now : Int) (attempts : Attempts) : Prop :=
  ∀ k a, attempts.lookup k = some a → Locks l now a

/-- When the host asks, none of its connections is between `allowed` and the record of the outcome. -/
def Sequential (k : Text) (s : Logins) : LoginAction → Prop
  | .allowed i => ∀ c, s.conns[i]? = some c → c.host = k → inPhase k s.conns .admitted = 0 ∧
      inPhase k s.conns .rejected = 0
  | _ => True

section Sequential

variable {l : AuthLimiter} {k : Text} {now : Int} {attempts : Attempts} {a : Attempt} {s : Logins}

theorem AllLock.insert (h : AllLock l now attempts) (ha : Locks l now a) : AllLock l now (attempts.insert k a) := by
  intro key b hb
  by_cases hk : key = k
  · subst hk
    rw [AList.lookup_insert] at hb
    cases hb
    exact ha
  · rw [AList.lookup_insert_ne hk] at hb
    exact h key b hb

theorem AllLock.erase (h : AllLock l now attempts) : AllLock l now (attempts.erase k) := by
  intro key b hb
  by_cases hk : key = k
  · rw [hk, AList.lookup_erase] at hb
    cases hb
  · rw [AList.lookup_erase_ne hk] at hb
    exact h key b hb

theorem AllLock.allowed (h : AllLock l now attempts) : AllLock l now (l.allowed now k attempts).2 := by
  unfold AuthLimiter.allowed
  split
  · exact h
  · rename_i a ha
    split_ifs
    · exact h.insert (h k a ha)
    · exact h.erase
    · exact h

theorem locks_recorded (h : a.windowStart ≤ now) : Locks l now (l.recorded now a) := by
  refine ⟨h, fun hmax => ⟨now + l.lockout, if_pos hmax, ?_⟩⟩
  simp only [AuthLimiter.recorded]
  omega

theorem AllLock.failure {order : List (Sigma fun _ : Text => Attempt)} (h : AllLock l now attempts) :
    AllLock l now (l.failure now k order attempts) := by
  have hevicted : AllLock l now (l.evicted k order attempts) := by
    unfold AuthLimiter.evicted
    split_ifs
    · exact h.erase
    · exact h
  refine hevicted.insert (locks_recorded ?_)
  unfold AuthLimiter.window?
  split
  · exact Int.le_refl _
  · rename_i a ha
    split_ifs
    · exact Int.le_refl _
    · exact (h k a ha).1

theorem AllLock.step {u : Logins} {act : LoginAction} (h : AllLock l s.clock s.attempts)
    (hs : step l s act = some u) : AllLock l u.clock u.attempts := by
  cases act with
  | tick now =>
    rw [Logins.step] at hs
    split_ifs at hs with hn
    cases hs
    exact fun k a ha => ⟨Int.le_trans (h k a ha).1 hn, (h k a ha).2⟩
  | connect remote =>
    cases hs
    exact h
  | allowed i =>
    obtain ⟨c, -, rfl⟩ := Option.map_eq_some_iff.1 hs
    exact h.allowed
  | authenticate i ok =>
    obtain ⟨c, -, rfl⟩ := Option.map_eq_some_iff.1 hs
    cases ok <;> exact h
  | failure i order =>
    rw [Logins.step] at hs
    split_ifs at hs
    obtain ⟨c, -, rfl⟩ := Option.map_eq_some_iff.1 hs
    exact h.failure
  | success i =>
    obtain ⟨c, -, rfl⟩ := Option.map_eq_some_iff.1 hs
    exact h.erase

/-- A host that is let in has failed less often than allowed, when the lockout is as long as the window. -/
theorem failures_of_allowed (hlock : l.window ≤ l.lockout) (hmax : 0 < l.maxFailures)
    (h : AllLock l s.clock s.attempts) (hok : (l.allowed s.clock k s.attempts).1 = true) :
    (s.host k).failures l < l.maxFailures := by
  rcases hl : (s.host k).live l with _ | e
  · rw [HostLogins.failures, hl]
    exact hmax
  · rw [HostLogins.failures_of_live hl]
    obtain ⟨he, hopen⟩ := HostLogins.entry_of_live hl
    obtain ⟨a, ha, rfl⟩ := Option.map_eq_some_iff.1 he
    by_contra hfull
    -- The entry is blocked beyond its window, so the host is not let in.
    obtain ⟨t, ht, hle⟩ := (h k a ha).2 (Nat.not_lt.1 hfull)
    have hblocked : a.blocked s.clock = true := by
      have hopen : s.clock - a.windowStart < l.window := hopen
      simp only [Attempt.blocked, ht, decide_eq_true_eq]
      omega
    simp [AuthLimiter.allowed, ha, hblocked] at hok

theorem hasRoom_of_sequential (hlock : l.window ≤ l.lockout) (hmax : 0 < l.maxFailures) {act : LoginAction}
    (h : AllLock l s.clock s.attempts) (hseq : s.Sequential k act) : s.HasRoom l k act := by
  cases act with
  | allowed i =>
    intro c hc hk hok
    obtain ⟨hadmitted, hrejected⟩ := hseq c hc hk
    rw [show (s.host k).admitted = 0 from hadmitted, show (s.host k).rejected = 0 from hrejected]
    exact failures_of_allowed hlock hmax h hok
  | _ => trivial

/-- With one connection of a host at a time and a lockout as long as the window, the bound holds. -/
theorem failures_bounded_sequential (hlock : l.window ≤ l.lockout) (hmax : 0 < l.maxFailures) (clock : Int)
    (h : (machine l).Reach (fun s a => s.Spares l k a ∧ s.Sequential k a) (start clock) s) : s.Bounded l k := by
  have hr : (machine l).Reach (fun s a => s.Spares l k a ∧ s.HasRoom l k a) (start clock) s := by
    refine h.mono_of_invariant (I := fun s => AllLock l s.clock s.attempts) nofun ?_ ?_
    · exact fun s a u hi _ hs => hi.step hs
    · exact fun s a hi hP => ⟨hP.1, hasRoom_of_sequential hlock hmax hi hP.2⟩
  rcases Int.lt_or_le 0 l.window with hw | hw
  · exact bounded_of_host (host_inv_of_reach hw hr)
  · exact bounded_of_window_le hw

end Sequential

/-! ## A run that keeps the bound and one that breaks it -/

/-- Whether the map has room for a new entry and the login does not succeed. -/
def fewEntries (l : AuthLimiter) (s : Logins) : LoginAction → Bool
  | .success _ => false
  | _ => s.attempts.entries.length < l.maxEntries

theorem spares_of_fewEntries {l : AuthLimiter} {k : Text} {s : Logins} {a : LoginAction}
    (h : s.fewEntries l a = true) : s.Spares l k a := by
  cases a with
  | success i => cases h
  | failure i order =>
    intro c _ hfull
    exact absurd hfull (Nat.not_le.2 (of_decide_eq_true h))
  | _ => trivial

def attacker : Text := text "192.0.2.10:12345"

/-- Another host. -/
def bystander : Text := text "198.51.100.7:12345"

/-- The entries of the map when `n` failures of the attacker are recorded, all at time 0 and fewer than allowed. -/
def seen : Nat → List (Sigma fun _ : Text => Attempt)
  | 0 => []
  | n + 1 => [⟨authKey attacker, ⟨n + 1, 0, none, 0⟩⟩]

/-- Five connections of the attacker are let in before one is checked. All of them fail; four are recorded at once,
and the last one when the window is over, so that it opens another. -/
def five : List LoginAction :=
  List.replicate 5 (.connect attacker) ++ (List.range 5).map .allowed ++
    (List.range 5).map (.authenticate · false) ++ (List.range 4).map (fun i => .failure i (seen i)) ++
    [.tick minute, .failure 4 (seen 4)]

/-- Six connections of the attacker pass `allowed` before the first failure is recorded. -/
def crowd : List LoginAction :=
  List.replicate 6 (.connect attacker) ++ (List.range 6).map .allowed ++
    (List.range 6).map (.authenticate · false) ++ [.failure 0 []]

/-- The test for room: few entries, and room when the attacker asks. -/
def leavesRoom (l : AuthLimiter) (s : Logins) (a : LoginAction) : Bool :=
  s.fewEntries l a && match a with
    | .allowed _ => (s.host (authKey attacker)).failures l + (s.host (authKey attacker)).admitted +
        (s.host (authKey attacker)).rejected < l.maxFailures
    | _ => true

theorem failures_bounded_five :
    ∃ s, (machine newAuthLimiter).runIf (leavesRoom newAuthLimiter) (start 0) five = some s ∧
      (s.failing.length = 5 ∧ s.opened = [(authKey attacker, (minute : Int)), (authKey attacker, 0)]) ∧
      s.Bounded newAuthLimiter (authKey attacker) := by
  have hrun : ((machine newAuthLimiter).runIf (leavesRoom newAuthLimiter) (start 0) five).map
      (fun s => (s.failing.length, s.opened)) =
      some (5, [(authKey attacker, (minute : Int)), (authKey attacker, 0)]) := by decide +kernel
  obtain ⟨s, hs, hhistory⟩ := Option.map_eq_some_iff.1 hrun
  refine ⟨s, hs, Prod.mk.inj hhistory, failures_bounded newAuthLimiter (authKey attacker) 0 s ?_⟩
  refine (Machine.reach_of_runIf .init hs).mono fun s a h => ?_
  obtain ⟨hfew, hroom⟩ := Bool.and_eq_true_iff.1 h
  refine ⟨spares_of_fewEntries hfew, ?_⟩
  cases a with
  | allowed i => exact fun c _ _ _ => of_decide_eq_true hroom
  | _ => trivial

/-- Two connections of the bystander are under way while the attacker fails five times, one connection after the
other, and is then refused. -/
def oneByOne : List LoginAction :=
  [.connect bystander, .connect bystander, .allowed 0, .allowed 1] ++
    (List.range 5).flatMap (fun i =>
      [.connect attacker, .allowed (i + 2), .authenticate (i + 2) false, .failure (i + 2) (seen i)]) ++
    [.connect attacker, .allowed 7]

/-- The test for one connection at a time. -/
def inTurn (l : AuthLimiter) (s : Logins) (a : LoginAction) : Bool :=
  s.fewEntries l a && match a with
    | .allowed _ => inPhase (authKey attacker) s.conns .admitted = 0 && inPhase (authKey attacker) s.conns .rejected = 0
    | _ => true

theorem failures_bounded_sequential_five :
    ∃ s, (machine newAuthLimiter).runIf (inTurn newAuthLimiter) (start 0) oneByOne = some s ∧
      (s.failing.length = 5 ∧ inPhase (authKey bystander) s.conns .admitted = 2 ∧
        inPhase (authKey attacker) s.conns .refused = 1) ∧
      s.Bounded newAuthLimiter (authKey attacker) := by
  have hrun : ((machine newAuthLimiter).runIf (inTurn newAuthLimiter) (start 0) oneByOne).map (fun s =>
      (s.failing.length, inPhase (authKey bystander) s.conns .admitted, inPhase (authKey attacker) s.conns .refused)) =
      some (5, 2, 1) := by decide +kernel
  obtain ⟨s, hs, hcounts⟩ := Option.map_eq_some_iff.1 hrun
  simp only [Prod.mk.injEq] at hcounts
  refine ⟨s, hs, hcounts, failures_bounded_sequential (by decide) (by decide) 0 ?_⟩
  refine (Machine.reach_of_runIf .init hs).mono fun s a h => ?_
  obtain ⟨hfew, hturn⟩ := Bool.and_eq_true_iff.1 h
  refine ⟨spares_of_fewEntries hfew, ?_⟩
  cases a with
  | allowed i =>
    rintro c - -
    simpa using hturn
  | _ => trivial

/-- Six checks fail in the window of the first failure, where five are allowed. It is the only window, and no entry
was there before it. -/
theorem crowd_exceeds_bound :
    ∃ s, (machine newAuthLimiter).Reach (Spares newAuthLimiter (authKey attacker)) (start 0) s ∧
      s.opened = [(authKey attacker, 0)] ∧ ¬s.Bounded newAuthLimiter (authKey attacker) := by
  have hrun : ((machine newAuthLimiter).runIf (fewEntries newAuthLimiter) (start 0) crowd).map (fun s =>
      (s.opened, s.failing.countP fun e => e.1 = authKey attacker ∧ 0 ≤ e.2 ∧ e.2 < 0 + newAuthLimiter.window)) =
      some ([(authKey attacker, 0)], 6) := by decide +kernel
  obtain ⟨s, hs, hhistory⟩ := Option.map_eq_some_iff.1 hrun
  obtain ⟨hopened, hsix⟩ := Prod.mk.inj hhistory
  refine ⟨s, (Machine.reach_of_runIf .init hs).mono fun s a h => spares_of_fewEntries h, hopened, fun hb => ?_⟩
  have hle := hb 0 (by rw [hopened]; exact List.mem_singleton_self _)
  rw [hsix] at hle
  exact absurd hle (by decide)

end Logins

end Accelerator.Gateway
