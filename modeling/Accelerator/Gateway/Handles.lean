/-
The two handle tables of a session: `clientSession.prepared` and the handles of its logical state. They
have the same keys between any two commands, and preparing a statement leaves the live handles alone,
as long as no prepare is given the number of a handle that is still open. The counter of handles has 32
bits and skips zero only, so that a session that keeps a handle open long enough is given it again.
-/
import Accelerator.Gateway.Turns
import Accelerator.Wire.Endian

namespace Accelerator.Gateway

open Interact Strings Engine Upstream Session
open Wire

/-! ## Preparing -/

/-- The handle the next prepare is given is in neither table. -/
def ClientSession.HandleFree (s : ClientSession) : Prop :=
  nextID s.nextPreparedID ∉ s.prepared ∧ nextID s.nextPreparedID ∉ s.state.prepared

/-- The handles that were live when the command was received are as they were, and if an error was sent
both tables are. -/
structure Exchange.KeepsHandles (e : Exchange) (s : ClientSession) : Prop where
  live : ∀ id p, e.before.prepared.lookup id = some p → s.prepared.lookup id = some p
  logical : ∀ id ∈ e.before.state.prepared, id ∈ s.state.prepared
  refused : (∃ p ∈ e.packets, p.isErr = true) →
    s.prepared = e.before.prepared ∧ s.state.prepared = e.before.state.prepared

section Preparing

variable {frames : Packet → Nat} {e : Exchange} {past : Talk} {s : ClientSession}

/-- After a prepare that the session survives. -/
def Kept (past : Talk) (r : Except GoError Unit) (s : ClientSession) (g : Talk) : Prop :=
  r = .ok () → ∃ e, g = e :: past ∧ e.KeepsHandles s

/-- A session in which at most the pin was changed. -/
theorem Touches.keeps (h : Touches [.pin] e.before s) : e.KeepsHandles s := by
  have hprepared : s.prepared = e.before.prepared := h.same .statements rfl
  have hstate : s.state = e.before.state := h.same .logical rfl
  exact ⟨fun id p hp => by rw [hprepared]; exact hp, fun id hid => by rw [hstate]; exact hid,
    fun _ => ⟨hprepared, by rw [hstate]⟩⟩

theorem refuse_kept {code : Nat} {state message : Bytes} (hs : Touches [.pin] e.before s) :
    (writeError 1 code state message).wp (talking frames) (fun _ _ _ => True) (Kept past) s (e :: past) := by
  refine ⟨trivial, ?_⟩
  rintro (x | next) _ ⟨-, rfl⟩
  · exact fun h => by cases h
  · exact fun _ => ⟨_, rfl, Touches.keeps (e := e.push 1 _) hs⟩

theorem writePackets_kept {ps : List (ClientSession → Packet)} (hps : ∀ p ∈ ps, (p s).isErr = false)
    {sequence : UInt8} (he : ∀ p ∈ e.packets, p.isErr = false)
    (hlive : ∀ id p, e.before.prepared.lookup id = some p → s.prepared.lookup id = some p)
    (hlogical : ∀ id ∈ e.before.state.prepared, id ∈ s.state.prepared) :
    (writePackets sequence ps).wp (talking frames) (fun _ _ _ => True) (Kept past) s (e :: past) := by
  induction ps generalizing sequence e with
  | nil =>
    refine fun _ => ⟨e, rfl, hlive, hlogical, ?_⟩
    rintro ⟨p, hp, herr⟩
    rw [he p hp] at herr
    cases herr
  | cons p ps ih =>
    refine ⟨trivial, ?_⟩
    rintro (x | next) _ ⟨-, rfl⟩
    · exact fun h => by cases h
    · refine ih (e := e.push sequence (p s)) (fun q hq => hps q (List.mem_cons_of_mem p hq)) ?_ hlive hlogical
      intro q hq
      rw [Exchange.push, Exchange.packets_pushAll] at hq
      rcases List.mem_append.1 hq with hq | hq
      · exact he q hq
      · rw [List.mem_singleton.1 hq]
        exact hps p List.mem_cons_self

theorem replyPrepared_kept {id : UInt32} {n : Nat} (he : e.sent = [])
    (hlive : ∀ id p, e.before.prepared.lookup id = some p → s.prepared.lookup id = some p)
    (hlogical : ∀ id ∈ e.before.state.prepared, id ∈ s.state.prepared) :
    (replyPrepared id n).wp (talking frames) (fun _ _ _ => True) (Kept past) s (e :: past) := by
  refine writePackets_kept ?_ (by rw [Exchange.packets_of_sent he]; exact List.forall_mem_nil _) hlive hlogical
  intro p hp
  rcases List.mem_append.1 hp with hp | hp
  · rcases List.mem_cons.1 hp with rfl | hp
    · rfl
    · rw [List.eq_of_mem_replicate hp]
      rfl
  · split at hp
    · rw [List.mem_singleton.1 hp]
      rfl
    · cases hp

theorem registerPrepared_kept {q : Text} {st : Stmt} (he : e.sent = []) (hfree : e.before.HandleFree)
    (hs : Touches [.pin] e.before s) :
    (registerPrepared q st).wp (talking frames) (fun _ _ _ => True) (Kept past) s (e :: past) := by
  have hp : s.prepared = e.before.prepared := hs.same .statements rfl
  have hst : s.state = e.before.state := hs.same .logical rfl
  have hn : s.nextPreparedID = e.before.nextPreparedID := hs.same .ids rfl
  have hfree' : nextID s.nextPreparedID ∉ s.state.prepared := by rw [hst, hn]; exact hfree.2
  unfold registerPrepared
  simp only [Prog.wp_bind, Prog.wp_modify, Prog.wp_read, Logical.addPrepared, if_neg (nextID_ne_zero _), if_neg hfree']
  refine replyPrepared_kept he (fun id p hid => ?_) fun id hid => ?_
  · have hne : id ≠ nextID s.nextPreparedID := by
      rintro rfl
      rw [hn] at hid
      exact hfree.1 (AList.lookup_isSome.1 (by rw [hid]; rfl))
    show (s.prepared.insert _ _).lookup id = some p
    rw [AList.lookup_insert_ne hne, hp]
    exact hid
  · exact Finset.mem_insert_of_mem (by rw [hst]; exact hid)

/-- A prepare whose handle is free. -/
theorem prepare_kept (svc : Service) (q : Text) (he : e.Unsaid true) (hx : e.executed = false)
    (hfree : e.before.HandleFree) :
    (prepare svc q).wp (talking frames) (fun _ _ _ => True) (Kept past) e.before (e :: past) :=
  prepare_talks he hx (fun _ _ _ => trivial) (fun _ _ _ => trivial) (fun _ _ _ _ hs => refuse_kept hs) fun _ st s' hs =>
    registerPrepared_kept (e := e.prepare s' _ (.ok st)) he.sent hfree hs

end Preparing

/-! ## Every run -/

section Runs

variable {svc : Service} {frames : Packet → Nat}

/-- Between two commands: if the last one was a prepare whose handle was free, it left the handles alone. -/
def HandlesKept (s : ClientSession) (g : Talk) : Prop :=
  ∀ e past, g = e :: past → e.isPrepare = true → e.before.HandleFree → e.KeepsHandles s

theorem dialogue_kept {c : Conf ClientSession Op Res Note Talk} (h : InDialogue svc frames c) (hi : c.isIdle = true) :
    HandlesKept c.state c.env := by
  refine dialogue_keeps (by rintro _ _ ⟨⟩) (fun s g _ command rest => ?_) h hi
  by_cases hc : command = commandStmtPrepare ∧ s.HandleFree
  · obtain ⟨rfl, hfree⟩ := hc
    have he : (Exchange.begin s (commandStmtPrepare :: rest)).Unsaid true := ⟨rfl, rfl, rfl⟩
    refine Prog.wp_mono (prepare_kept svc (ofBytes rest) he rfl hfree) fun r s' g' h hr => ?_
    obtain ⟨e, rfl, he⟩ := h hr
    rintro _ _ ⟨⟩ _ _
    exact he
  · refine Prog.wp_mono (Prog.wp_permit (dispatch_speaks svc command rest s g) fun _ _ _ _ => trivial) ?_
    rintro r s' _ ⟨e, rfl, hp, -⟩ -
    rintro _ _ ⟨⟩ hprepare hfree
    obtain ⟨hpayload, hbefore⟩ := Prod.mk.inj hp
    rw [Exchange.isPrepare, hpayload] at hprepare
    rw [hbefore] at hfree
    exact absurd ⟨by simpa [isPrepareCommand, Exchange.begin] using hprepare, hfree⟩ hc

/-- Between any two commands of a run in which no prepare was given an open handle, the two tables have the
same keys. In any run, a prepare whose handle is free replaces and removes no live handle, and if it
answers with an error both tables are as they were. -/
theorem handle_tables (svc : Service) :
    (∀ c, Reachable svc c → c.isIdle = true → c.env.log.collided = false →
      ∀ id, id ∈ c.state.prepared ↔ id ∈ c.state.state.prepared) ∧
    ∀ frames c, InDialogue svc frames c → c.isIdle = true → ∀ e past, c.env = e :: past → e.isPrepare = true →
      e.before.HandleFree → e.KeepsHandles c.state := by
  refine ⟨fun c h hi hc id => ?_, fun frames c h hi => dialogue_kept h hi⟩
  have hI := reachable_idle h hi
  exact ⟨hI.at'.keys id, hI.ready.live hc id⟩

/-- A prepare. -/
def firstPrepare : List (Fin 1 × Reply (Fin 1)) := asks alone (comStmtPrepare "SELECT 1") 22

/-- The first prepare of a session. -/
theorem handle_tables_first :
    let c := (Sessions.sample firstPrepare).thread alone
    let d := dialogueOf firstPrepare
    (c.isIdle = true ∧ c.env.log.collided = false ∧ ∀ id, id ∈ c.state.prepared ↔ id ∈ c.state.state.prepared) ∧
      d.isIdle = true ∧ ∃ e, d.env = [e] ∧ e.isPrepare = true ∧ e.before.HandleFree ∧ e.KeepsHandles d.state := by
  have hc := Sessions.reachable_sample_thread firstPrepare alone
  have hd := inDialogue_of firstPrepare
  have hci : ((Sessions.sample firstPrepare).thread alone).isIdle = true ∧
    ((Sessions.sample firstPrepare).thread alone).env.log.collided = false := by
    decide +kernel
  have hdi : (dialogueOf firstPrepare).isIdle = true ∧
    ∃ e ∈ (dialogueOf firstPrepare).env,
      (dialogueOf firstPrepare).env.length = 1 ∧ e.isPrepare = true ∧
      nextID e.before.nextPreparedID ∉ e.before.prepared ∧ nextID e.before.nextPreparedID ∉ e.before.state.prepared := by
    decide +kernel
  obtain ⟨hdi, e, hm, hlen, hprepare, hfree⟩ := hdi
  obtain ⟨e', he'⟩ := List.length_eq_one_iff.1 hlen
  rw [he', List.mem_singleton] at hm
  subst hm
  refine ⟨⟨hci.1, hci.2, (handle_tables sampleService).1 _ hc hci.1 hci.2⟩, hdi, e, he', hprepare, hfree, ?_⟩
  exact (handle_tables sampleService).2 _ _ hd hdi e [] he' hprepare hfree

end Runs

/-! ## A handle that is kept open -/

section Wrap

/-- A session that is pinned and has handle 1 open, and that was given handle `k` last. -/
structure OneOpen (k : UInt32) (s : ClientSession) : Prop where
  next : s.nextPreparedID = k
  tx : s.tx = none
  pinned : s.pinnedConnection.isSome = true
  keys : s.prepared.keys = [1]
  logical : s.state.prepared = {1}

/-- A session that has handle `k` open besides. -/
structure TwoOpen (k : UInt32) (s : ClientSession) : Prop where
  next : s.nextPreparedID = k
  tx : s.tx = none
  pinned : s.pinnedConnection.isSome = true
  keys : s.prepared.keys = [k, 1]
  logical : s.state.prepared = {k, 1}

/-- Upstream prepares the statement. -/
theorem prepare_may {q : Text} (hq : (classifySQL q).kind = .read) {svc : Service} {frames : Packet → Nat}
    {s : ClientSession} {e : Exchange} {past : Talk} (htx : s.tx = none) (hpinned : s.pinnedConnection.isSome = true)
    {Q : Except GoError Unit → ClientSession → Talk → Prop}
    (hQ : ∀ e' st, e'.request = e.request → (registerPrepared (classifySQL q).sql st).may (talking frames) Q s (e' :: past)) :
    (prepare svc q).may (talking frames) Q s (e :: past) := by
  obtain ⟨c, hc⟩ := Option.isSome_iff_exists.1 hpinned
  unfold prepare
  dsimp only
  rw [if_neg (by rw [hq]; decide), Prog.may_bind, Prog.may_read, if_neg (by rw [hq]; rintro ⟨⟨⟩, -⟩), Prog.may_bind,
    ensurePinnedConnection, Prog.may_bind, Prog.may_read, if_pos hpinned]
  show (preparePinned _).may _ _ _ _
  rw [preparePinned, prepareOnCurrentConnection, currentVia, Prog.may_bind, Prog.may_bind, Prog.may_bind, Prog.may_read,
    htx, hc]
  exact ⟨.ok ⟨c, none, q⟩, _, ⟨trivial, rfl⟩, hQ _ _ rfl⟩

/-- A round that serves a command. -/
theorem serveCommand_may {svc : Service} {frames : Packet → Nat} {s : ClientSession} {g : Talk} (command : UInt8)
    (rest : Bytes) (hc : command ≠ commandQuit) {Q : ClientSession → Talk → Prop}
    (h : (dispatch svc command rest).may (talking frames) (fun r s g => r = .ok () ∧ Q s g) s
      (Exchange.begin s (command :: rest) :: g)) :
    (serveCommand svc).may (talking frames) (fun b s g => b = true ∧ Q s g) s g := by
  refine ⟨.ok { payload := command :: rest }, _, ⟨trivial, rfl⟩, ?_⟩
  show Prog.may _ (if (0 : UInt8) ≠ 0 ∨ command = commandQuit then _ else _) _ _ _
  rw [if_neg (by simp [hc])]
  refine (Prog.may_bind _ _ _ _ _).2 (Prog.may_mono h ?_)
  rintro r s' g' ⟨rfl, hQ⟩
  exact ⟨rfl, hQ⟩

/-- The statement that is prepared. -/
def selectOne : Text := ofBytes (lit "SELECT 1")

theorem selectOne_kind : (classifySQL selectOne).kind = .read := by decide +kernel

theorem selectOne_count : countPreparedParameters (classifySQL selectOne).sql = 0 := by decide +kernel

/-- A round in which upstream prepares the statement. -/
theorem selectOne_round {k : UInt32} {s : ClientSession} (h : OneOpen k s) {g : Talk} {Q : ClientSession → Talk → Prop}
    (hQ : ∀ e st, e.request = (comStmtPrepare "SELECT 1", s) → (registerPrepared (classifySQL selectOne).sql st).may
      (talking fun _ => 1) (fun r s g => r = .ok () ∧ Q s g) s (e :: g)) :
    (serveCommand sampleService).may (talking fun _ => 1) (fun b s g => b = true ∧ Q s g) s g := by
  refine serveCommand_may commandStmtPrepare (lit "SELECT 1") (by decide) ?_
  show (prepare sampleService selectOne).may _ _ _ _
  exact prepare_may selectOne_kind h.tx h.pinned hQ

theorem prepare_round {k : UInt32} {s : ClientSession} (h : OneOpen k s) (hk : nextID k ≠ 1) (g : Talk) :
    (serveCommand sampleService).may (talking fun _ => 1) (fun b s _ => b = true ∧ TwoOpen (nextID k) s) s g := by
  refine selectOne_round h fun e st _ => ?_
  have hfree : nextID s.nextPreparedID ∉ s.state.prepared := by
    rw [h.next, h.logical, Finset.mem_singleton]
    exact hk
  unfold registerPrepared
  simp only [Prog.may_bind, Prog.may_modify, Prog.may_read, Logical.addPrepared, if_neg (nextID_ne_zero _), if_neg hfree]
  rw [selectOne_count]
  refine ⟨.ok 2, _, ⟨rfl, rfl⟩, rfl, ?_⟩
  refine ⟨by rw [h.next], h.tx, h.pinned, ?_, ?_⟩
  · show (s.prepared.insert _ _).keys = _
    rw [AList.keys_insert, h.keys, h.next, List.erase_of_not_mem (by simpa using hk)]
  · show insert _ s.state.prepared = _
    rw [h.next, h.logical]

/-- A COM_STMT_CLOSE of a handle. -/
def comStmtClose (id : UInt32) : Bytes := commandStmtClose :: leBytes 4 id.toNat

theorem handleID_comStmtClose (id : UInt32) : handleID (comStmtClose id) = id := by
  have hlen : (leBytes 4 id.toNat).length ≤ 4 := by rw [length_leBytes]
  rw [handleID, comStmtClose, List.drop_one, List.tail_cons, List.take_of_length_le hlen, littleEndian_eq, leNat_leBytes,
    Nat.mod_eq_of_lt (show id.toNat < 256 ^ 4 from id.toNat_lt), UInt32.ofNat_toNat]

theorem close_round {k : UInt32} {s : ClientSession} (h : TwoOpen k s) (hk : k ≠ 1) (g : Talk) :
    (serveCommand sampleService).may (talking fun _ => 1) (fun b s _ => b = true ∧ OneOpen k s) s g := by
  refine serveCommand_may commandStmtClose (leBytes 4 k.toNat) (by decide) ?_
  show (closePrepared (comStmtClose k)).may _ _ _ _
  obtain ⟨p, hp⟩ : ∃ p, s.prepared.lookup k = some p :=
    Option.isSome_iff_exists.1 (AList.lookup_isSome.2 (by rw [AList.mem_keys, h.keys]; exact List.mem_cons_self))
  have hlen : ¬(comStmtClose k).length < 5 := by simp [comStmtClose]
  have hkeys : (s.prepared.erase k).keys = [1] := by rw [AList.keys_erase, h.keys, List.erase_cons_head]
  have hdone : OneOpen k { s with prepared := s.prepared.erase k, state := s.state.removePrepared k } := by
    refine ⟨h.next, h.tx, h.pinned, hkeys, ?_⟩
    show s.state.prepared.erase k = _
    rw [h.logical, Finset.erase_insert (by rw [Finset.mem_singleton]; exact hk)]
  unfold closePrepared
  rw [if_neg hlen, handleID_comStmtClose]
  simp only [Prog.may_bind, Prog.may_read, hp]
  cases p.statement with
  | none =>
    show Prog.may _ (if (s.prepared.erase k).keys = [] ∧ s.tx = none then _ else _) _ _ _
    rw [if_neg (by rw [hkeys]; rintro ⟨⟨⟩, -⟩)]
    exact ⟨rfl, hdone⟩
  | some st =>
    refine ⟨(), _, ⟨trivial, rfl⟩, ?_⟩
    show Prog.may _ (if (s.prepared.erase k).keys = [] ∧ s.tx = none then _ else _) _ _ _
    rw [if_neg (by rw [hkeys]; rintro ⟨⟨⟩, -⟩)]
    exact ⟨rfl, hdone⟩

/-- One more handle is given out and closed. -/
theorem open_close {k : UInt32} (hk : nextID k ≠ 1)
    (h : ∃ s g, InDialogue sampleService (fun _ => 1) ⟨s, g, .idle⟩ ∧ OneOpen k s) :
    ∃ s g, InDialogue sampleService (fun _ => 1) ⟨s, g, .idle⟩ ∧ OneOpen (nextID k) s := by
  obtain ⟨s, g, hr, h⟩ := h
  obtain ⟨s₁, g₁, hr₁, h₁⟩ := Process.steps_round (P := handleClient sampleService) (prepare_round h hk g)
  obtain ⟨s₂, g₂, hr₂, h₂⟩ := Process.steps_round (P := handleClient sampleService) (close_round h₁ hk g₁)
  exact ⟨s₂, g₂, (hr.trans hr₁).trans hr₂, h₂⟩

theorem first_open : ∃ s g, InDialogue sampleService (fun _ => 1) ⟨s, g, .idle⟩ ∧ OneOpen 1 s := by
  have hc : ∃ c, InDialogue sampleService (fun _ => 1) c ∧ c.isIdle = true ∧ c.state.nextPreparedID = 1 ∧
      c.state.tx = none ∧ c.state.pinnedConnection.isSome = true ∧ c.state.prepared.keys = [1] ∧
      c.state.state.prepared = {1} :=
    ⟨_, inDialogue_of firstPrepare, by decide +kernel⟩
  obtain ⟨⟨s, g, stage⟩, hr, hi, h1, h2, h3, h4, h5⟩ := hc
  cases stage with
  | idle => exact ⟨s, g, hr, h1, h2, h3, h4, h5⟩
  | _ => cases hi

/-- Handle 1 can be kept open while the counter goes on, as far as it counts. -/
theorem counter_runs (n : Nat) (hn : n + 1 < 2 ^ 32) :
    ∃ k s g, k.toNat = n + 1 ∧ InDialogue sampleService (fun _ => 1) ⟨s, g, .idle⟩ ∧ OneOpen k s := by
  induction n with
  | zero =>
    obtain ⟨s, g, h⟩ := first_open
    exact ⟨1, s, g, rfl, h⟩
  | succ n ih =>
    obtain ⟨k, s, g, hk, h⟩ := ih (by omega)
    have hnext : (nextID k).toNat = n + 1 + 1 := by rw [nextID_toNat (by omega), hk]
    have hne : nextID k ≠ 1 := by
      intro h1
      rw [h1] at hnext
      change 1 = n + 1 + 1 at hnext
      omega
    obtain ⟨s', g', h'⟩ := open_close hne ⟨s, g, h⟩
    exact ⟨nextID k, s', g', hnext, h'⟩

/-- A prepare that is given handle 1 again is refused, and handle 1 is lost. -/
theorem collide_round {k : UInt32} {s : ClientSession} (h : OneOpen k s) (hk : nextID k = 1) (g : Talk) :
    (serveCommand sampleService).may (talking fun _ => 1) (fun b s' g' => b = true ∧ ∃ e, g' = e :: g ∧
      e.request = (comStmtPrepare "SELECT 1", s) ∧ (∃ p ∈ e.packets, p.isErr = true) ∧
      1 ∉ s'.prepared ∧ 1 ∈ s'.state.prepared) s g := by
  refine selectOne_round h fun e st he => ?_
  have hone : (1 : UInt32) ∈ s.state.prepared := by
    rw [h.logical]
    exact Finset.mem_singleton_self 1
  unfold registerPrepared
  simp only [Prog.may_bind, Prog.may_modify, Prog.may_read, Logical.addPrepared, h.next, hk, if_pos hone,
    if_neg (show (1 : UInt32) ≠ 0 by decide)]
  refine ⟨(), _, ⟨trivial, rfl⟩, .ok 2, _, ⟨rfl, rfl⟩, rfl, _, rfl, he, ?_, ?_, hone⟩
  · exact ⟨_, List.mem_map.2 ⟨_, List.mem_append_right _ List.mem_cons_self, rfl⟩, rfl⟩
  · exact fun hm => (AList.mem_erase.1 hm).1 rfl

/-- After 2³² − 1 prepares a session that has kept its first handle open is given it again: it is told that
the prepare failed, and its live handle is gone from one table and not from the other. -/
theorem handle_lost :
    ∃ c, InDialogue sampleService (fun _ => 1) c ∧ c.isIdle = true ∧ ∃ e past, c.env = e :: past ∧
      e.isPrepare = true ∧ (∃ p ∈ e.packets, p.isErr = true) ∧ 1 ∈ e.before.prepared ∧
      1 ∉ c.state.prepared ∧ 1 ∈ c.state.state.prepared := by
  obtain ⟨k, s, g, hk, hr, h⟩ := counter_runs (2 ^ 32 - 2) (by decide)
  have hnext : nextID k = 1 := by
    have : k = 0xffffffff := UInt32.toNat_inj.1 (hk.trans rfl)
    subst this
    rfl
  obtain ⟨s', g', hr', e, rfl, he, herr, hlost, hkept⟩ :=
    Process.steps_round (P := handleClient sampleService) (collide_round h hnext g)
  obtain ⟨hpayload, hbefore⟩ := Prod.mk.inj he
  refine ⟨⟨s', e :: g, .idle⟩, hr.trans hr', rfl, e, g, rfl, ?_, herr, ?_, hlost, hkept⟩
  · rw [Exchange.isPrepare, hpayload]
    rfl
  · rw [show e.before = s from hbefore, AList.mem_keys, h.keys]
    exact List.mem_singleton_self 1

end Wrap

end Accelerator.Gateway
