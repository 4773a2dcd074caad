/-
The failed logins of the control interface (`control/auth.go`), counted by client. `failureKeyLocked` is to bound
the map: a client without an entry shares the entry "overflow" once the map is full. It shares it when the map
holds `maxLoginFailureClients` entries already, so the shared entry is one more than these.
-/
import Accelerator.Interact.Machine
import Accelerator.Settings.Config
import Mathlib.Data.List.AList

namespace Accelerator.Control

open Strings Settings Interact

/-! ## The inventory -/

/-- `loginFailures`. Times are in nanoseconds after the zero `time.Time`. -/
structure LoginFailures where
  count : Nat
  since : Int
  deriving DecidableEq, Repr

def LoginFailures.expired (entry : LoginFailures) (now : Int) : Prop := minute ≤ now - entry.since

instance (entry : LoginFailures) (now : Int) : Decidable (entry.expired now) := inferInstanceAs (Decidable (_ ≤ _))

def maxLoginFailureClients : Nat := 1024

/-- The key that clients share. -/
def overflow : Text := text "overflow"

/-- The map of failures by client. -/
abbrev Failures := AList fun _ : Text => LoginFailures

namespace Failures

def len (failures : Failures) : Nat := failures.entries.length

/-- What indexing the map gives: the zero value where there is no entry. -/
def entry (failures : Failures) (client : Text) : LoginFailures := (failures.lookup client).getD ⟨0, 0⟩

/-- The map without the entries that are over. -/
def purge (now : Int) (failures : Failures) : Failures :=
  ⟨failures.entries.filter fun e => ¬ e.2.expired now, failures.nodupKeys.sublist List.filter_sublist⟩

/-- `failureKeyLocked`: the key, and the map it leaves. -/
def failureKeyLocked (client : Text) (now : Int) (failures : Failures) : Text × Failures :=
  if client ∈ failures ∨ failures.len < maxLoginFailureClients - 1 then (client, failures)
  else if maxLoginFailureClients ≤ (failures.purge now).len then (overflow, failures.purge now)
  else (client, failures.purge now)

def rateLimited (client : Text) (now : Int) (failures : Failures) : Bool × Failures :=
  let r := failures.failureKeyLocked client now
  let entry := r.2.entry r.1
  if entry.expired now then (false, r.2.erase r.1) else (decide (5 ≤ entry.count), r.2)

def recordFailure (client : Text) (now : Int) (failures : Failures) : Failures :=
  let r := failures.failureKeyLocked client now
  let entry := r.2.entry r.1
  let entry := if entry.since = 0 ∨ entry.expired now then ⟨0, now⟩ else entry
  r.2.insert r.1 { entry with count := entry.count + 1 }

def clearFailures (client : Text) (failures : Failures) : Failures := failures.erase client

end Failures

/-- A call of one of the three methods, each of which holds the mutex throughout. -/
inductive AuthCall where
  | rateLimited (client : Text) (now : Int)
  | recordFailure (client : Text) (now : Int)
  | clearFailures (client : Text)
  deriving DecidableEq, Repr

/-- The map after a call. -/
def Failures.after (failures : Failures) : AuthCall → Failures
  | .rateLimited client now => (failures.rateLimited client now).2
  | .recordFailure client now => failures.recordFailure client now
  | .clearFailures client => failures.clearFailures client

/-- Calls by any clients at any times. -/
def inventory : Machine Failures AuthCall := ⟨fun failures call => some (failures.after call)⟩

namespace Failures

variable {failures failures' : Failures} {client : Text} {now : Int}

/-! ## What a call does to the size -/

/-- A map keeps its size when an entry is replaced. -/
theorem length_keys_insert {α : Type} {β : α → Type} [DecidableEq α] {s : AList β} {a : α} (h : a ∈ s) (b : β a) :
    (s.insert a b).keys.length = s.keys.length := by
  rw [AList.keys_insert]
  exact (List.perm_cons_erase h).length_eq.symm

theorem len_eq (failures : Failures) : failures.len = failures.keys.length := (List.length_map _).symm

theorem len_insert_of_mem (h : client ∈ failures) (e : LoginFailures) :
    len (failures.insert client e) = failures.len := by
  rw [len_eq, len_eq, length_keys_insert h]

theorem len_insert_of_notMem (h : client ∉ failures) (e : LoginFailures) :
    len (failures.insert client e) = failures.len + 1 := by
  rw [len, AList.entries_insert_of_notMem h]
  rfl

/-- One map has no entries but those of another. -/
def Within (failures' failures : Failures) : Prop := failures'.entries.Sublist failures.entries

theorem Within.len_le (h : failures'.Within failures) : failures'.len ≤ failures.len := List.Sublist.length_le h

theorem Within.eq_of_len (h : failures'.Within failures) (hlen : failures.len ≤ failures'.len) :
    failures' = failures := AList.ext (List.Sublist.eq_of_length_le h hlen)

theorem Within.mem (h : failures'.Within failures) (hmem : client ∈ failures') : client ∈ failures :=
  AList.keys_subset_keys_of_entries_subset_entries h.subset hmem

theorem within_purge : (failures.purge now).Within failures := List.filter_sublist

theorem within_erase : Within (failures.erase client) failures := List.kerase_sublist _ _

/-- The key a call uses, and the map it finds under it. -/
inductive Keyed (client : Text) (now : Int) (failures : Failures) : Text × Failures → Prop
  | kept : client ∈ failures ∨ failures.len < maxLoginFailureClients - 1 →
      Keyed client now failures (client, failures)
  | purged : client ∉ failures → (failures.purge now).len < maxLoginFailureClients →
      Keyed client now failures (client, failures.purge now)
  | shared : client ∉ failures → maxLoginFailureClients ≤ (failures.purge now).len →
      Keyed client now failures (overflow, failures.purge now)

theorem failureKeyLocked_spec (client : Text) (now : Int) (failures : Failures) :
    Keyed client now failures (failures.failureKeyLocked client now) := by
  unfold failureKeyLocked
  split_ifs with hkept hshared
  · exact .kept hkept
  · exact .shared (fun h => hkept (.inl h)) hshared
  · exact .purged (fun h => hkept (.inl h)) (Nat.lt_of_not_le hshared)

theorem Keyed.within {r : Text × Failures} (h : Keyed client now failures r) : r.2.Within failures := by
  cases h with
  | kept _ => exact List.Sublist.refl _
  | purged _ _ => exact within_purge
  | shared _ _ => exact within_purge

theorem within_rateLimited : (failures.rateLimited client now).2.Within failures := by
  have hwithin := (failureKeyLocked_spec client now failures).within
  unfold rateLimited
  simp only
  split_ifs
  · exact within_erase.trans hwithin
  · exact hwithin

theorem recordFailure_spec (client : Text) (now : Int) (failures : Failures) :
    ∃ r e, Keyed client now failures r ∧ failures.recordFailure client now = r.2.insert r.1 e :=
  ⟨_, _, failureKeyLocked_spec client now failures, rfl⟩

/-! ## The bound -/

/-- The map is full of failures of the last minute, none of them the client's and none of them shared. -/
def Crowded (client : Text) (now : Int) (failures : Failures) : Prop :=
  client ∉ failures ∧ maxLoginFailureClients ≤ (failures.purge now).len ∧ overflow ∉ failures.purge now

instance : Decidable (failures.Crowded client now) := inferInstanceAs (Decidable (_ ∧ _))

/-- A map within the bound leaves it exactly by a failure it is crowded for. -/
theorem len_recordFailure_iff (hlen : failures.len ≤ maxLoginFailureClients) :
    (failures.recordFailure client now).len ≤ maxLoginFailureClients ↔ ¬ failures.Crowded client now := by
  have hpurge : (failures.purge now).len ≤ failures.len := within_purge.len_le
  obtain ⟨r, e, hkeyed, hrecord⟩ := recordFailure_spec client now failures
  rw [hrecord]
  cases hkeyed with
  | kept hkept =>
    by_cases hmem : client ∈ failures
    · rw [len_insert_of_mem hmem]
      exact iff_of_true hlen fun h => h.1 hmem
    · have hroom : failures.len < 1024 - 1 := hkept.resolve_left hmem
      rw [len_insert_of_notMem hmem]
      refine iff_of_true ?_ fun h => ?_
      · change failures.len + 1 ≤ 1024
        omega
      · have hfull : 1024 ≤ (failures.purge now).len := h.2.1
        omega
  | purged hmem hroom =>
    have hmem' : client ∉ failures.purge now := fun h => hmem (within_purge.mem h)
    rw [len_insert_of_notMem hmem']
    exact iff_of_true hroom fun h => absurd h.2.1 (Nat.not_le.2 hroom)
  | shared hmem hfull =>
    by_cases hshared : overflow ∈ failures.purge now
    · rw [len_insert_of_mem hshared]
      exact iff_of_true (hpurge.trans hlen) fun h => h.2.2 hshared
    · rw [len_insert_of_notMem hshared]
      refine iff_of_false ?_ fun h => h ⟨hmem, hfull, hshared⟩
      omega

/-- No failure is recorded in a map that is crowded for it. -/
def Roomy (failures : Failures) : AuthCall → Prop
  | .recordFailure client now => ¬ failures.Crowded client now
  | _ => True

instance : ∀ call, Decidable (failures.Roomy call)
  | .rateLimited _ _ => .isTrue trivial
  | .recordFailure _ _ => inferInstanceAs (Decidable (¬ _))
  | .clearFailures _ => .isTrue trivial

theorem len_after_iff (hlen : failures.len ≤ maxLoginFailureClients) (call : AuthCall) :
    (failures.after call).len ≤ maxLoginFailureClients ↔ failures.Roomy call := by
  cases call with
  | rateLimited client now => exact iff_of_true (within_rateLimited.len_le.trans hlen) trivial
  | recordFailure client now => exact len_recordFailure_iff hlen
  | clearFailures client => exact iff_of_true (within_erase.len_le.trans hlen) trivial

/-! ## A crowd -/

/-- The name of the client `i`. -/
def crowdName (i : Nat) : Text := List.replicate i (.chr 'a')

/-- A failure of each of the first `n` clients, all at one time. -/
def crowd (n : Nat) : List AuthCall := (List.range n).map fun i => .recordFailure (crowdName i) 1

theorem crowd_succ (n : Nat) : crowd (n + 1) = crowd n ++ [.recordFailure (crowdName n) 1] := by
  rw [crowd, List.range_succ, List.map_append]
  rfl

theorem crowdName_inj {i j : Nat} (h : crowdName i = crowdName j) : i = j := by
  simpa [crowdName] using congrArg List.length h

theorem overflow_ne_crowdName (i : Nat) : overflow ≠ crowdName i := by
  intro h
  have hmem : Sym.chr 'o' ∈ crowdName i := h ▸ by decide
  cases List.eq_of_mem_replicate hmem

/-- Nothing but the clients before `n`, since the time of the crowd. -/
structure Crowd (n : Nat) (failures : Failures) : Prop where
  len : failures.len = n
  names : ∀ client ∈ failures, ∃ i < n, client = crowdName i
  fresh : ∀ e ∈ failures.entries, e.2.since = 1

theorem Crowd.purge {n : Nat} (h : Crowd n failures) : failures.purge 1 = failures := by
  apply AList.ext
  refine List.filter_eq_self.2 fun e he => ?_
  rw [decide_eq_true_eq, LoginFailures.expired, h.fresh e he]
  decide

theorem Crowd.crowdName_notMem {n : Nat} (h : Crowd n failures) : crowdName n ∉ failures := by
  intro hmem
  obtain ⟨i, hi, hname⟩ := h.names _ hmem
  exact absurd (crowdName_inj hname) (Nat.ne_of_gt hi)

theorem Crowd.overflow_notMem {n : Nat} (h : Crowd n failures) : overflow ∉ failures := by
  intro hmem
  obtain ⟨i, -, hname⟩ := h.names _ hmem
  exact overflow_ne_crowdName i hname

theorem Crowd.failureKeyLocked {n : Nat} (h : Crowd n failures) (hn : n < maxLoginFailureClients) :
    failures.failureKeyLocked (crowdName n) 1 = (crowdName n, failures) := by
  unfold Failures.failureKeyLocked
  rw [h.purge, h.len, if_neg (Nat.not_le.2 hn)]
  exact ite_self _

theorem Crowd.next {n : Nat} (h : Crowd n failures) (hn : n < maxLoginFailureClients) :
    Crowd (n + 1) (failures.recordFailure (crowdName n) 1) := by
  have hnone : failures.entry (crowdName n) = ⟨0, 0⟩ := by
    rw [entry, AList.lookup_eq_none.2 h.crowdName_notMem]
    rfl
  have hrecord : failures.recordFailure (crowdName n) 1 = failures.insert (crowdName n) ⟨1, 1⟩ := by
    unfold Failures.recordFailure
    rw [h.failureKeyLocked hn]
    simp only [hnone, true_or, if_true]
  rw [hrecord]
  refine ⟨?_, ?_, ?_⟩
  · rw [len_insert_of_notMem h.crowdName_notMem, h.len]
  · intro client hmem
    rcases (AList.mem_insert _).1 hmem with rfl | hmem
    · exact ⟨n, Nat.lt_succ_self n, rfl⟩
    · obtain ⟨i, hi, hname⟩ := h.names client hmem
      exact ⟨i, Nat.lt_succ_of_lt hi, hname⟩
  · rw [AList.entries_insert_of_notMem h.crowdName_notMem]
    exact List.forall_mem_cons.2 ⟨rfl, h.fresh⟩

theorem crowd_foldl : ∀ n ≤ maxLoginFailureClients, Crowd n ((crowd n).foldl after ∅)
  | 0, _ => ⟨rfl, fun _ h => absurd h (AList.notMem_empty _), fun _ h => absurd h List.not_mem_nil⟩
  | n + 1, hn => by
    rw [crowd_succ, List.foldl_append]
    exact (crowd_foldl n (Nat.le_of_succ_le hn)).next hn

/-- A crowd finds room as long as it is not too large. -/
theorem Crowd.roomy {n : Nat} (h : Crowd n failures) (hn : n < maxLoginFailureClients) (client : Text) :
    failures.Roomy (.recordFailure client 1) := by
  rintro ⟨-, hfull, -⟩
  rw [h.purge, h.len] at hfull
  exact absurd hn (Nat.not_lt.2 hfull)

theorem crowd_reach : ∀ n ≤ maxLoginFailureClients, inventory.Reach Roomy ∅ ((crowd n).foldl after ∅)
  | 0, _ => .init
  | n + 1, hn => by
    rw [crowd_succ, List.foldl_append]
    exact (crowd_reach n (Nat.le_of_succ_le hn)).step ((crowd_foldl n (Nat.le_of_succ_le hn)).roomy hn _) rfl

/-- A full map is crowded for one client more. -/
theorem Crowd.crowded (h : Crowd maxLoginFailureClients failures) :
    failures.Crowded (crowdName maxLoginFailureClients) 1 := by
  rw [Crowded, h.purge]
  exact ⟨h.crowdName_notMem, Nat.le_of_eq h.len.symm, h.overflow_notMem⟩

theorem Crowd.len_overfull (h : Crowd maxLoginFailureClients failures) :
    maxLoginFailureClients < (failures.recordFailure (crowdName maxLoginFailureClients) 1).len := by
  apply Nat.lt_of_not_le
  rw [len_recordFailure_iff (Nat.le_of_eq h.len), not_not]
  exact h.crowded

/-! ## The inventory in its bound -/

/-- As long as no failure meets a map that is crowded for it, the inventory stays within its bound; and the first
call that meets one takes it out of its bound. -/
theorem inventory_bounded_iff (h : inventory.Reach Roomy ∅ failures) :
    failures.len ≤ maxLoginFailureClients ∧
      ∀ call, (failures.after call).len ≤ maxLoginFailureClients ↔ failures.Roomy call := by
  have hlen : failures.len ≤ maxLoginFailureClients := by
    refine h.invariant (I := fun s => s.len ≤ maxLoginFailureClients) (Nat.zero_le _) ?_
    rintro s call s' hs hroomy ⟨⟩
    exact (len_after_iff hs call).2 hroomy
  exact ⟨hlen, len_after_iff hlen⟩

/-- The map fills up to its bound, and one client more takes it out of it. -/
theorem inventory_bounded_iff_full :
    len ((crowd maxLoginFailureClients).foldl after ∅) = maxLoginFailureClients ∧
    len ((crowd maxLoginFailureClients).foldl after ∅) ≤ maxLoginFailureClients ∧
    ¬ len (after ((crowd maxLoginFailureClients).foldl after ∅)
      (.recordFailure (crowdName maxLoginFailureClients) 1)) ≤ maxLoginFailureClients := by
  have hcrowd := crowd_foldl maxLoginFailureClients (Nat.le_refl _)
  obtain ⟨hlen, hnext⟩ := inventory_bounded_iff (crowd_reach maxLoginFailureClients (Nat.le_refl _))
  refine ⟨hcrowd.len, hlen, fun h => ?_⟩
  exact (hnext _).1 h hcrowd.crowded

/-- One client more than there is room for. -/
theorem inventory_overflows : maxLoginFailureClients < len ((crowd (maxLoginFailureClients + 1)).foldl after ∅) := by
  rw [crowd_succ, List.foldl_append]
  exact (crowd_foldl maxLoginFailureClients (Nat.le_refl _)).len_overfull

/-! ## One entry too many -/

/-- One entry above the bound, which is the shared one. -/
def Tight (failures : Failures) : Prop :=
  failures.len ≤ maxLoginFailureClients ∨ failures.len = maxLoginFailureClients + 1 ∧ overflow ∈ failures

theorem Tight.len_le (h : failures.Tight) : failures.len ≤ maxLoginFailureClients + 1 := by
  rcases h with h | ⟨h, -⟩ <;> omega

theorem Tight.within (h : failures.Tight) (hwithin : failures'.Within failures) : failures'.Tight := by
  have hle := hwithin.len_le
  by_cases hlen : failures'.len ≤ maxLoginFailureClients
  · exact .inl hlen
  · have hsame := hwithin.eq_of_len (h.len_le.trans (Nat.lt_of_not_le hlen))
    exact hsame ▸ h

theorem Tight.recordFailure (h : failures.Tight) (client : Text) (now : Int) :
    (failures.recordFailure client now).Tight := by
  obtain ⟨r, e, hkeyed, hrecord⟩ := recordFailure_spec client now failures
  have htight : r.2.Tight := h.within hkeyed.within
  rw [hrecord]
  by_cases hmem : r.1 ∈ r.2
  · -- an entry is replaced
    rw [Tight, len_insert_of_mem hmem]
    exact htight.imp_right fun h => ⟨h.1, (AList.mem_insert _).2 (.inr h.2)⟩
  · rw [Tight, len_insert_of_notMem hmem]
    cases hkeyed with
    | kept hkept =>
      have hroom : failures.len < 1024 - 1 := hkept.resolve_left hmem
      left
      change failures.len + 1 ≤ 1024
      omega
    | purged _ hroom => exact .inl hroom
    | shared _ hfull =>
      -- the shared entry is the one that is added
      refine .inr ⟨?_, (AList.mem_insert _).2 (.inl rfl)⟩
      have hle := htight.resolve_right fun h => hmem h.2
      exact congrArg (· + 1) (Nat.le_antisymm hle hfull)

/-- The inventory never holds more than one entry above its bound, and then the shared one. -/
theorem inventory_tight (h : inventory.Reach (fun _ _ => True) ∅ failures) :
    failures.len ≤ maxLoginFailureClients ∨
      failures.len = maxLoginFailureClients + 1 ∧ overflow ∈ failures := by
  refine h.invariant (I := Tight) (.inl (Nat.zero_le _)) ?_
  rintro s call s' hs - ⟨⟩
  cases call with
  | rateLimited client now => exact hs.within within_rateLimited
  | recordFailure client now => exact hs.recordFailure client now
  | clearFailures client => exact hs.within within_erase

/-- After the failures of one client more than there is room for, the shared entry is the one above the bound. -/
theorem inventory_tight_full : ∃ failures : Failures, maxLoginFailureClients < failures.len ∧
    (failures.len ≤ maxLoginFailureClients ∨
      failures.len = maxLoginFailureClients + 1 ∧ overflow ∈ failures) := by
  have hreach := (crowd_reach maxLoginFailureClients (Nat.le_refl _)).mono (Q := fun _ _ => True) fun _ _ _ => trivial
  have hcrowd := crowd_foldl maxLoginFailureClients (Nat.le_refl _)
  exact ⟨_, hcrowd.len_overfull,
    inventory_tight (hreach.step (a := .recordFailure (crowdName maxLoginFailureClients) 1) trivial rfl)⟩

end Failures

end Accelerator.Control
