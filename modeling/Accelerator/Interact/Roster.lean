/-
An accept loop and the handlers it starts. What arrives is numbered. The loop holds the last arrival until it lets it
go or enrolls it as a job; it takes the job some statements further and starts a handler, which takes it to its end. A
table says which of the jobs can be found from outside. Whatever the goroutines do in between, an arrival is one job at
most, and the table is the one of the jobs.
-/
import Mathlib.Data.List.Nodup

namespace Accelerator.Interact

/-! ## One element of a list is replaced -/

section Replace

variable {α β : Type} {l : List α} {i : Nat} {x y z : α}

theorem countP_set_add (p : α → Bool) (h : l[i]? = some x) :
    (l.set i y).countP p + (p x).toNat = l.countP p + (p y).toNat := by
  obtain ⟨hi, rfl⟩ := List.getElem?_eq_some_iff.1 h
  have hpos : p l[i] = true → 0 < l.countP p := fun hp => List.countP_pos_iff.2 ⟨_, List.getElem_mem hi, hp⟩
  rw [List.countP_set hi]
  cases hx : p l[i] with
  | false => cases p y <;> rfl
  | true =>
    have := hpos hx
    cases p y <;> simp <;> omega

theorem map_set_of_eq {f : α → β} (h : l[i]? = some x) (hf : f y = f x) : (l.set i y).map f = l.map f := by
  obtain ⟨hi, rfl⟩ := List.getElem?_eq_some_iff.1 h
  have hmap : i < (l.map f).length := by rwa [List.length_map]
  rw [List.map_set, hf, ← List.getElem_map f (h := hmap), List.set_getElem_self]

/-- The others differ from the one that was replaced. -/
theorem mem_set_of_nodup {f : α → β} (hn : (l.map f).Nodup) (h : l[i]? = some x) (hz : z ∈ l.set i y) :
    z = y ∨ z ∈ l ∧ f z ≠ f x := by
  obtain ⟨k, hz⟩ := List.getElem?_of_mem hz
  rw [List.getElem?_set] at hz
  by_cases hik : i = k
  · subst hik
    rw [if_pos rfl, if_pos (List.getElem?_eq_some_iff.1 h).1] at hz
    exact .inl (Option.some.inj hz).symm
  · rw [if_neg hik] at hz
    refine .inr ⟨List.mem_of_getElem? hz, fun he => hik ?_⟩
    have hi : i < (l.map f).length := by
      rw [List.length_map]
      exact (List.getElem?_eq_some_iff.1 h).1
    refine (List.getElem?_inj hi hn).1 ?_
    rw [List.getElem?_map, List.getElem?_map, h, hz]
    exact congrArg some he.symm

end Replace

/-! ## The loop and the handlers -/

/-- What is known of a job: the number of its arrival, whether its handler was started, and whether it is in the
table. -/
structure Crew (J : Type) where
  number : J → Nat
  launched : J → Bool
  listed : J → Bool

/-- An accept loop, with the arrival and the job it has, and its handlers. -/
structure Roster (J : Type) where
  arrived : Nat
  held : Option Nat
  job : Option J
  handlers : List J
  table : Nat → Prop

/-- A job went on: its own entry of the table follows it. -/
structure Crew.Advances {J : Type} (C : Crew J) (t : Nat → Prop) (j : J) (t' : Nat → Prop) (j' : J) : Prop where
  number : C.number j' = C.number j
  spared : ∀ c, c ≠ C.number j → (t' c ↔ t c)
  listed : (t (C.number j) ↔ C.listed j = true) → (t' (C.number j) ↔ C.listed j' = true)

namespace Roster

variable {J : Type} {C : Crew J} {r r' : Roster J} {j j' : J}

/-- The jobs in the order they were enrolled. -/
def jobs (r : Roster J) : List J := r.handlers ++ r.job.toList

theorem jobs_of_none (h : r.job = none) : r.jobs = r.handlers := by
  rw [jobs, h, Option.toList_none, List.append_nil]

theorem jobs_of_some (h : r.job = some j) : r.jobs = r.handlers ++ [j] := by
  rw [jobs, h, Option.toList_some]

theorem mem_jobs : j ∈ r.jobs ↔ j ∈ r.handlers ∨ r.job = some j := by
  rw [jobs, List.mem_append, Option.mem_toList]

/-- Who has a job before and after its next statement: the loop, which may start the handler with it, or the handler. -/
inductive Takes (C : Crew J) (r : Roster J) (j j' : J) (r' : Roster J) : Prop
  | registers : r.job = some j → r'.job = some j' → r'.handlers = r.handlers →
      (C.launched j = false → C.launched j' = false) → Takes C r j j' r'
  | launches : r.job = some j → r'.job = none → r'.handlers = r.handlers ++ [j'] → C.launched j' = true → Takes C r j j' r'
  | handles {i : Nat} : r.handlers[i]? = some j → r'.job = r.job → r'.handlers = r.handlers.set i j' →
      (C.launched j = true → C.launched j' = true) → Takes C r j j' r'

/-- A job went on. -/
structure Goes (C : Crew J) (r : Roster J) (j j' : J) (r' : Roster J) : Prop where
  arrived : r'.arrived = r.arrived
  held : r'.held = r.held
  takes : Takes C r j j' r'

/-- Wherever the job is kept, it is replaced in its place. -/
theorem Goes.place (h : Goes C r j j' r') : ∃ i, r.jobs[i]? = some j ∧ r'.jobs = r.jobs.set i j' ∧
    (i < r.handlers.length → j ∈ r.handlers) := by
  cases h.takes with
  | registers hj hj' hh _ =>
    refine ⟨r.handlers.length, ?_, ?_, fun h => absurd h (Nat.lt_irrefl _)⟩
    · rw [jobs_of_some hj, List.getElem?_concat_length]
    · rw [jobs_of_some hj, jobs_of_some hj', hh, List.set_append_right _ _ (Nat.le_refl _), Nat.sub_self]
      rfl
  | launches hj hj' hh _ =>
    refine ⟨r.handlers.length, ?_, ?_, fun h => absurd h (Nat.lt_irrefl _)⟩
    · rw [jobs_of_some hj, List.getElem?_concat_length]
    · rw [jobs_of_some hj, jobs_of_none hj', hh, List.set_append_right _ _ (Nat.le_refl _), Nat.sub_self]
      rfl
  | @handles i hj hj' hh _ =>
    have hi := (List.getElem?_eq_some_iff.1 hj).1
    refine ⟨i, ?_, ?_, fun _ => List.mem_of_getElem? hj⟩
    · rw [jobs, List.getElem?_append_left hi, hj]
    · rw [jobs, jobs, hj', hh, List.set_append_left _ _ hi]

/-- Every arrival is one job at most, and the table is the one of the jobs. -/
structure Tidy (C : Crew J) (r : Roster J) : Prop where
  nodup : (r.jobs.map C.number).Nodup
  bound : ∀ j ∈ r.jobs, C.number j < r.arrived
  held : ∀ c, r.held = some c → c < r.arrived ∧ ∀ j ∈ r.jobs, C.number j ≠ c
  launched : ∀ j ∈ r.handlers, C.launched j = true
  enrolled : ∀ j, r.job = some j → C.launched j = false
  listed : ∀ j ∈ r.jobs, r.table (C.number j) ↔ C.listed j = true
  table : ∀ c, r.table c → ∃ j ∈ r.jobs, C.number j = c

theorem Tidy.unique (h : Tidy C r) {j j' : J} (hj : j ∈ r.jobs) (hj' : j' ∈ r.jobs) (he : C.number j' = C.number j) :
    j' = j :=
  List.inj_on_of_nodup_map h.nodup hj' hj he

/-- At most the arrival is let go. -/
theorem Tidy.keep (h : Tidy C r) (hr : r' = { r with held := r'.held }) (hheld : ∀ c, r'.held = some c → r.held = some c) :
    Tidy C r' := by
  rw [hr]
  exact ⟨h.nodup, h.bound, fun c hc => h.held c (hheld c hc), h.launched, h.enrolled, h.listed, h.table⟩

theorem Tidy.arrive (h : Tidy C r) : Tidy C { r with arrived := r.arrived + 1, held := some r.arrived } where
  nodup := h.nodup
  bound j hj := Nat.lt_succ_of_lt (h.bound j hj)
  held := by
    rintro c ⟨⟩
    exact ⟨Nat.lt_succ_self _, fun j hj => Nat.ne_of_lt (h.bound j hj)⟩
  launched := h.launched
  enrolled := h.enrolled
  listed := h.listed
  table := h.table

theorem Tidy.enroll (h : Tidy C r) (hheld : r.held = some (C.number j)) (hjob : r.job = none)
    (hlaunched : C.launched j = false) (hlisted : C.listed j = false) : Tidy C { r with held := none, job := some j } := by
  obtain ⟨hlt, hne⟩ := h.held _ hheld
  have hjobs : ({ r with held := none, job := some j } : Roster J).jobs = r.jobs ++ [j] := by
    rw [jobs_of_some rfl, jobs_of_none hjob]
  have hmem : ∀ x ∈ r.jobs ++ [j], x ∈ r.jobs ∨ x = j := by simp
  constructor
  case nodup =>
    rw [hjobs, List.map_append, List.nodup_append]
    refine ⟨h.nodup, List.nodup_singleton _, fun a ha b hb => ?_⟩
    obtain ⟨x, hx, rfl⟩ := List.mem_map.1 ha
    obtain rfl := List.mem_singleton.1 hb
    exact hne x hx
  case bound =>
    rw [hjobs]
    intro x hx
    rcases hmem x hx with hx | rfl
    · exact h.bound x hx
    · exact hlt
  case held => nofun
  case launched => exact h.launched
  case enrolled =>
    rintro x ⟨⟩
    exact hlaunched
  case listed =>
    rw [hjobs]
    intro x hx
    rcases hmem x hx with hx | rfl
    · exact h.listed x hx
    · -- the table has no entry that is not some job's
      rw [hlisted]
      refine ⟨fun ht => ?_, nofun⟩
      obtain ⟨y, hy, he⟩ := h.table _ ht
      exact absurd he (hne y hy)
  case table =>
    rw [hjobs]
    intro c hc
    obtain ⟨x, hx, he⟩ := h.table c hc
    exact ⟨x, List.mem_append_left _ hx, he⟩

/-- The arrivals that are jobs stay the same. -/
theorem Goes.numbers (h : Goes C r j j' r') (hn : C.number j' = C.number j) :
    r'.jobs.map C.number = r.jobs.map C.number := by
  obtain ⟨i, hi, hjobs, -⟩ := h.place
  rw [hjobs, map_set_of_eq hi hn]

theorem Goes.exists_iff (h : Goes C r j j' r') (hn : C.number j' = C.number j) (c : Nat) :
    (∃ x ∈ r'.jobs, C.number x = c) ↔ ∃ x ∈ r.jobs, C.number x = c := by
  rw [← List.mem_map, ← List.mem_map, h.numbers hn]

theorem Goes.mem (h : Goes C r j j' r') : j ∈ r.jobs := by
  obtain ⟨i, hi, -⟩ := h.place
  exact List.mem_of_getElem? hi

/-- The other jobs are those of other arrivals. -/
theorem Goes.cases_mem (h : Goes C r j j' r') (ht : Tidy C r) {x : J} (hx : x ∈ r'.jobs) :
    x = j' ∨ x ∈ r.jobs ∧ C.number x ≠ C.number j := by
  obtain ⟨i, hi, hjobs, -⟩ := h.place
  rw [hjobs] at hx
  exact mem_set_of_nodup ht.nodup hi hx

theorem Tidy.goes (h : Tidy C r) (hg : Goes C r j j' r') (ha : C.Advances r.table j r'.table j') : Tidy C r' := by
  constructor
  case nodup => exact hg.numbers ha.number ▸ h.nodup
  case bound =>
    intro x hx
    rw [hg.arrived]
    rcases hg.cases_mem h hx with rfl | ⟨hx, -⟩
    · exact ha.number ▸ h.bound j hg.mem
    · exact h.bound x hx
  case held =>
    intro c hc
    rw [hg.held] at hc
    obtain ⟨hlt, hne⟩ := h.held c hc
    refine ⟨hg.arrived ▸ hlt, fun x hx he => ?_⟩
    obtain ⟨y, hy, he⟩ := (hg.exists_iff ha.number c).1 ⟨x, hx, he⟩
    exact hne y hy he
  case launched =>
    cases hg.takes with
    | registers _ _ hh _ => exact hh ▸ h.launched
    | launches _ _ hh hl =>
      intro x hx
      rw [hh] at hx
      rcases List.mem_append.1 hx with hx | hx
      · exact h.launched x hx
      · rw [List.mem_singleton.1 hx]
        exact hl
    | handles hj _ hh hl =>
      intro x hx
      rw [hh] at hx
      rcases List.mem_or_eq_of_mem_set hx with hx | rfl
      · exact h.launched x hx
      · exact hl (h.launched j (List.mem_of_getElem? hj))
  case enrolled =>
    cases hg.takes with
    | registers hj hj' _ hl =>
      intro x hx
      obtain rfl := Option.some.inj (hj'.symm.trans hx)
      exact hl (h.enrolled j hj)
    | launches _ hj' _ _ =>
      rw [hj']
      nofun
    | handles _ hj' _ _ => exact hj' ▸ h.enrolled
  case listed =>
    -- a job writes no entry of the table but its own
    intro x hx
    rcases hg.cases_mem h hx with rfl | ⟨hx, hne⟩
    · rw [ha.number]
      exact ha.listed (h.listed j hg.mem)
    · rw [ha.spared _ hne]
      exact h.listed x hx
  case table =>
    intro c hc
    rw [hg.exists_iff ha.number]
    by_cases he : c = C.number j
    · exact ⟨j, hg.mem, he.symm⟩
    · exact h.table c ((ha.spared c he).1 hc)

end Roster

end Accelerator.Interact
