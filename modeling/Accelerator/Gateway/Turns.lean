/-
The dialogue of a session over whole runs. Every command is answered by one complete response whose
packets are numbered from 1 on, except in the three irregular cases, so that a client that reads one
response for every command that has one reads each command's own. A statement that upstream executed
is answered with an OK packet, unless its warnings could not be read.
-/
import Accelerator.Gateway.Responses
import Accelerator.Gateway.Sharing

namespace Accelerator.Gateway

open Interact Strings Engine Upstream Session

/-! ## A round -/

section Dialogue

variable {frames : Packet → Nat}

theorem begin_plain {s : ClientSession} {command : UInt8} {rest : Bytes} (hprepare : command ≠ commandStmtPrepare)
    (hclose : command ≠ commandStmtClose) (hdata : command ≠ commandStmtSendLongData) :
    (Exchange.begin s (command :: rest)).Plain where
  sent := rfl
  spoken := by simp [Exchange.begin, Exchange.silent, isSilent, hclose, hdata]
  prepare := by simp [Exchange.begin, Exchange.isPrepare, isPrepareCommand, hprepare]
  regular := by simp [Exchange.begin, strayData, hdata]
  executed := rfl
  unwarned := rfl

theorem dispatch_speaks (svc : Service) (command : UInt8) (rest : Bytes) (s : ClientSession) (past : Talk) :
    (dispatch svc command rest).wp (talking frames) (PoliteAt svc frames)
      (Becomes (Exchange.begin s (command :: rest)) past Answered) s (Exchange.begin s (command :: rest) :: past) := by
  have hplain : ∀ command : UInt8, command ∉ [commandStmtPrepare, commandStmtClose, commandStmtSendLongData] →
      (Exchange.begin s (command :: rest)).Plain := by
    intro command hnot
    simp only [List.mem_cons, List.not_mem_nil, or_false, not_or] at hnot
    exact begin_plain hnot.1 hnot.2.1 hnot.2.2
  apply dispatch_cases (motive := fun command prog => prog.wp (talking frames) (PoliteAt svc frames)
      (Becomes (Exchange.begin s (command :: rest)) past Answered) s (Exchange.begin s (command :: rest) :: past))
  case ping => exact writeOK_replies 0 0 0 _ (hplain _ (by decide)) s past
  case initDB => exact initDatabase_replies svc _ _ (hplain _ (by decide)) s past
  case query => exact query_replies svc _ _ (hplain _ (by decide)) s past
  case prepare => exact prepare_speaks ⟨rfl, rfl, rfl⟩ rfl rfl s past
  case execute => exact executePrepared_replies svc _ _ (hplain _ (by decide)) s past
  case sendLongData => exact sendPreparedLongData_speaks rfl rfl rfl (Bool.true_and _)
  case close => exact closePrepared_speaks rfl rfl rfl s past
  case reset => exact resetPrepared_replies _ _ (hplain _ (by decide)) s past
  case refused =>
    intro command reason code state message hnot
    have hserved : ∀ c ∈ [commandStmtPrepare, commandStmtClose, commandStmtSendLongData], c ∈ servedCommands := by
      decide +kernel
    exact Replies.tell (refuse_replies _ _ _) _ (hplain command fun h => hnot (hserved command h)) s past

/-- A round of a dialogue ends the session, or serves a command in an exchange of its own. -/
theorem serveCommand_talks {svc : Service} {ok : ClientSession → Talk → Op → Prop} {J : ClientSession → Talk → Prop}
    {s : ClientSession} {g : Talk} (hread : ok s g .readMessage)
    (hserve : ∀ command rest, (dispatch svc command rest).wp (talking frames) ok (fun r s' g' => r = .ok () → J s' g') s
      (Exchange.begin s (command :: rest) :: g)) :
    (serveCommand svc).wp (talking frames) ok (fun b s g => if b then J s g else True) s g := by
  refine ⟨hread, ?_⟩
  rintro (x | ⟨sequence, _, _, payload⟩) _ ⟨-, rfl⟩
  · trivial
  cases payload with
  | nil => trivial
  | cons command rest =>
    show Prog.wp _ _ (if sequence ≠ 0 ∨ command = commandQuit then _ else _) _ s
      (Exchange.begin s (command :: rest) :: g)
    split
    · trivial
    · refine (Prog.wp_bind _ _ _ s _).2 (Prog.wp_mono (hserve command rest) fun r s' g' h => ?_)
      cases r with
      | error x => trivial
      | ok u => exact h rfl

/-- A round leaves every exchange answered, or the session ends. -/
theorem serveCommand_speaks (svc : Service) (s : ClientSession) (g : Talk) (hg : ∀ e ∈ g, e.Proper) :
    (serveCommand svc).wp (talking frames) (PoliteAt svc frames)
      (fun b _ g => if b then ∀ e ∈ g, e.Proper else True) s g := by
  refine serveCommand_talks (J := fun _ g => ∀ e ∈ g, e.Proper) ⟨fun e past _ => ?_, fun _ => hg⟩ fun command rest => ?_
  · exact .of_other (by rintro _ _ ⟨⟩) rfl (by rintro _ _ ⟨⟩) (by rintro _ _ ⟨⟩) (by rintro _ ⟨⟩)
  · refine Prog.wp_mono (dispatch_speaks svc command rest s g) ?_
    rintro r s' _ ⟨e, rfl, -, he⟩ hr
    exact List.forall_mem_cons.2 ⟨he hr, hg⟩

/-- The states a session can reach in its dialogue. -/
def InDialogue (svc : Service) (frames : Packet → Nat) (c : Conf ClientSession Op Res Note Talk) : Prop :=
  Process.Reach (talking frames) (handleClient svc) (newSession svc) [] c

variable {svc : Service} {c : Conf ClientSession Op Res Note Talk}

theorem dialogue_holds (h : InDialogue svc frames c) :
    Process.Holds (talking frames) (PoliteAt svc frames) (fun _ g => ∀ e ∈ g, e.Proper) (fun _ _ => True)
      (fun _ _ => True) c := by
  refine Process.reach_holds (serveCommand_speaks svc) (fun s g _ => ?_) (List.forall_mem_nil _) h
  refine close_wp (fun s g o ho => ⟨fun e past _ => .of_mute ?_, ?_⟩) s g
  · have hall : cleaning.all (Call.mute e.executed e.isPrepare) = true := rfl
    exact List.all_eq_true.1 hall _ (List.contains_iff_mem.1 ho.kind)
  · rintro rfl
    cases ho.kind

theorem dialogue_polite (h : InDialogue svc frames c) {o : Op} (ho : c.pending = some o) :
    PoliteAt svc frames c.state c.env o :=
  (dialogue_holds h).call ho

theorem dialogue_idle (h : InDialogue svc frames c) (hi : c.isIdle = true) : ∀ e ∈ c.env, e.Proper :=
  (dialogue_holds h).round hi

/-- What every served command keeps holds between any two commands of a dialogue. -/
theorem dialogue_keeps {J : ClientSession → Talk → Prop} (hstart : J (newSession svc) [])
    (hserve : ∀ s g, J s g → ∀ command rest, (dispatch svc command rest).wp (talking frames) (fun _ _ _ => True)
      (fun r s' g' => r = .ok () → J s' g') s (Exchange.begin s (command :: rest) :: g))
    (h : InDialogue svc frames c) (hi : c.isIdle = true) : J c.state c.env := by
  have hh : Process.Holds (talking frames) (fun _ _ _ => True) J (fun _ _ => True) (fun _ _ => True) c := by
    refine Process.reach_holds (fun s g hJ => serveCommand_talks trivial (hserve s g hJ)) (fun s g _ => ?_) hstart h
    exact close_wp (fun _ _ _ _ => trivial) s g
  exact hh.round hi

/-! ## Every exchange, at every moment -/

/-- What is true of an exchange from its first packet on. -/
structure Exchange.Sound (svc : Service) (frames : Packet → Nat) (e : Exchange) : Prop where
  numbered : Numbered frames 1 e.sent
  answers : e.silent = true → e.irregular = false → e.sent = []
  confirms : e.executed = true → ∀ x ∈ e.sent, e.mayWrite x.2 = true
  fits : ∀ x ∈ e.sent, x.2.Fits svc e.irregular
  regular : e.executed = true → e.silent = false ∧ e.isPrepare = false ∧ e.irregular = false

theorem numbered_append {n : UInt8} {l : List (UInt8 × Packet)} (h : Numbered frames n l) (p : Packet) :
    Numbered frames n (l ++ [(l.foldl (fun n x => n + UInt8.ofNat (frames x.2)) n, p)]) := by
  induction l generalizing n with
  | nil => exact ⟨rfl, trivial⟩
  | cons x l ih => exact ⟨h.1, ih h.2⟩

theorem Exchange.Sound.push {e : Exchange} (h : e.Sound svc frames) {sequence : UInt8} {p : Packet}
    (hp : Polite svc frames e (.writeMessage sequence p)) : (e.push sequence p).Sound svc frames where
  numbered := by
    rw [hp.numbered sequence p rfl]
    exact numbered_append h.numbered p
  answers hs hi := by
    rw [show (e.push sequence p).irregular = true from hp.answers sequence p rfl hs] at hi
    cases hi
  confirms hx x hm := by
    rcases List.mem_append.1 hm with hm | hm
    · exact h.confirms hx x hm
    · rw [List.mem_singleton.1 hm]
      exact hp.confirms sequence p rfl hx
  fits x hm := by
    rcases List.mem_append.1 hm with hm | hm
    · exact h.fits x hm
    · rw [List.mem_singleton.1 hm]
      exact hp.fits sequence p rfl
  regular := h.regular

theorem Exchange.Sound.execute {e : Exchange} (h : e.Sound svc frames) {o : Op} {q : Text} (ho : o.executes? = some q)
    (hp : Polite svc frames e o) (r : Except GoError Result) : (e.execute r).Sound svc frames := by
  cases r with
  | error x => exact h
  | ok result =>
    obtain ⟨hs, hspoken, hprepare, hi, -⟩ := hp.executes q ho
    refine ⟨h.numbered, h.answers, fun _ x hm => ?_, h.fits, fun _ => ⟨hspoken, hprepare, hi⟩⟩
    rw [show (e.execute (.ok result)).sent = [] from hs] at hm
    cases hm

/-- The packets fit also if the exchange becomes irregular. -/
theorem Exchange.Sound.fits_or {e : Exchange} (h : e.Sound svc frames) (b : Bool) :
    ∀ x ∈ e.sent, x.2.Fits svc (e.irregular || b) := fun x hm =>
  (h.fits x hm).mono fun hx => Bool.or_eq_true_iff.2 (.inl hx)

theorem Exchange.Sound.query {e : Exchange} (h : e.Sound svc frames) (hx : e.executed = false)
    (r : Except GoError Rows) : (e.query r).Sound svc frames := by
  cases r with
  | error x => exact h
  | ok rows =>
    refine ⟨h.numbered, fun hs hi => h.answers hs (Bool.or_eq_false_iff.1 hi).1, h.confirms, h.fits_or _, ?_⟩
    exact Exchange.unexecuted (e := e) hx

theorem Exchange.Sound.warn {e : Exchange} (h : e.Sound svc frames) {via : Via} (hp : Polite svc frames e (.queryWarnings via))
    (r : Except GoError Nat) : (e.warn r).Sound svc frames := by
  cases r with
  | ok n => exact h
  | error x =>
    refine ⟨h.numbered, h.answers, fun hx x hm => ?_, h.fits, h.regular⟩
    rw [show (e.warn (.error _)).sent = [] from hp.warns via rfl hx] at hm
    cases hm

theorem Exchange.Sound.prepare {e : Exchange} (h : e.Sound svc frames) (s : ClientSession) (q : Text)
    (r : Except GoError Stmt) : (e.prepare s q r).Sound svc frames := by
  cases r with
  | error x => exact h
  | ok st =>
    refine ⟨h.numbered, fun hs hi => h.answers hs (Bool.or_eq_false_iff.1 hi).1, h.confirms, h.fits_or _, fun hx => ?_⟩
    obtain ⟨hspoken, hprepare, hi⟩ := h.regular hx
    refine ⟨hspoken, hprepare, ?_⟩
    show (e.irregular || (e.isPrepare && uncountable s q)) = false
    rw [hi, hprepare]
    rfl

/-- Every exchange is sound, and those that are over were answered. -/
structure Talk.Sound (svc : Service) (frames : Packet → Nat) (g : Talk) : Prop where
  all : ∀ e ∈ g, e.Sound svc frames
  answered : ∀ e ∈ g.tail, e.Proper

theorem Talk.Sound.change {g : Talk} (h : g.Sound svc frames) {f : Exchange → Exchange}
    (hf : ∀ e past, g = e :: past → e.Sound svc frames → (f e).Sound svc frames) : (g.change f).Sound svc frames := by
  cases g with
  | nil => exact h
  | cons e past =>
    refine ⟨fun e' he' => ?_, h.answered⟩
    rcases List.mem_cons.1 he' with rfl | he'
    · exact hf e past rfl (h.all e List.mem_cons_self)
    · exact h.all e' (List.mem_cons_of_mem _ he')

theorem Talk.Sound.next {g : Talk} (h : g.Sound svc frames) {s : ClientSession} {o : Op} (ho : PoliteAt svc frames s g o)
    (r : Res o) : (Talk.next g (.call s o r)).Sound svc frames := by
  cases o with
  | readMessage =>
    cases r with
    | error x => exact h
    | ok message =>
      refine ⟨fun e he => ?_, ho.reads rfl⟩
      rcases List.mem_cons.1 he with rfl | he
      · exact ⟨trivial, fun _ _ => rfl, (by rintro ⟨⟩), List.forall_mem_nil _, (by rintro ⟨⟩)⟩
      · exact h.all e he
  | writeMessage sequence p => exact h.change fun e past hg he => he.push (ho.current e past hg)
  | exec via q => exact h.change fun e past hg he => he.execute rfl (ho.current e past hg) r
  | stmtExec st a => exact h.change fun e past hg he => he.execute rfl (ho.current e past hg) r
  | query via q =>
    exact h.change fun e past hg he => he.query ((ho.current e past hg).queries (.inl ⟨via, q, rfl⟩)) r
  | stmtQuery st a =>
    exact h.change fun e past hg he => he.query ((ho.current e past hg).queries (.inr ⟨st, a, rfl⟩)) r
  | queryWarnings via => exact h.change fun e past hg he => he.warn (ho.current e past hg) r
  | prepare via q => exact h.change fun e past hg he => he.prepare s q r
  | _ => exact h

theorem dialogue_sound (h : InDialogue svc frames c) : c.env.Sound svc frames := by
  induction h with
  | refl => exact ⟨List.forall_mem_nil _, List.forall_mem_nil _⟩
  | tail hr hs ih =>
    refine Process.step_keeps (R := Talk.Sound svc frames) ?_ hs ih fun o r ho _ => ih.next (dialogue_polite hr ho) r
    intro s g n hg
    cases n <;> exact hg

/-! ## What the client reads -/

/-- Read one response for every command that has one, in the order of the commands; what is read for each. -/
def readAll : List Bytes → List Packet → Option (List (List Packet))
  | [], [] => some []
  | [], _ :: _ => none
  | command :: commands, ps =>
    if isSilent command then (readAll commands ps).map ([] :: ·)
    else
      match readResponse (isPrepareCommand command) ps with
      | none => none
      | some rest => (readAll commands rest).map (ps.take (ps.length - rest.length) :: ·)

/-- Commands that were answered as the protocol asks are read with their own responses. -/
theorem readAll_correct {es : List Exchange} (h : ∀ e ∈ es, e.Correct) :
    readAll (es.map (·.payload)) (es.flatMap (·.packets)) = some (es.map (·.packets)) := by
  induction es with
  | nil => rfl
  | cons e es ih =>
    have ih := ih fun e' he' => h e' (List.mem_cons_of_mem e he')
    have he := h e List.mem_cons_self
    rw [List.map_cons, List.flatMap_cons, List.map_cons, readAll]
    by_cases hs : isSilent e.payload = true
    · rw [Exchange.Correct, if_pos (c := e.silent = true) hs] at he
      rw [if_pos hs, Exchange.packets_of_sent he, List.nil_append, ih]
      rfl
    · rw [Exchange.Correct, if_neg (c := e.silent = true) hs] at he
      rw [if_neg hs, show readResponse (isPrepareCommand e.payload) (e.packets ++ _) = some _ from he _]
      simp only [ih, Option.map_some, List.length_append, Nat.add_sub_cancel, List.take_left]

/-- The exchanges of a session that are over: all of them between two commands, else all but the last. -/
def finished (c : Conf ClientSession Op Res Note Talk) : Talk := if c.isIdle then c.env else c.env.tail

theorem finished_proper (h : InDialogue svc frames c) : ∀ e ∈ finished c, e.Proper := by
  unfold finished
  split
  · rename_i hi
    exact dialogue_idle h hi
  · exact (dialogue_sound h).answered

theorem finished_sound (h : InDialogue svc frames c) : ∀ e ∈ finished c, e.Sound svc frames := by
  intro e he
  refine (dialogue_sound h).all e ?_
  unfold finished at he
  split at he
  · exact he
  · exact List.mem_of_mem_tail he

/-- At every moment of every run the packets of each command are numbered from 1 on and a regular command
without a response has none; a command that is over was answered as the protocol asks exactly if it was
regular, and if all were, the client reads for each command what was written for it. -/
theorem response_per_command (h : InDialogue svc frames c) :
    (∀ e ∈ c.env, Numbered frames 1 e.sent ∧ (e.silent = true → e.irregular = false → e.sent = [])) ∧
    (∀ e ∈ finished c, e.Correct ↔ e.irregular = false) ∧
    ((∀ e ∈ finished c, e.irregular = false) →
      readAll ((finished c).reverse.map (·.payload)) ((finished c).reverse.flatMap (·.packets)) =
        some ((finished c).reverse.map (·.packets))) := by
  refine ⟨fun e he => ?_, finished_proper h, fun hregular => readAll_correct fun e he => ?_⟩
  · have hs := (dialogue_sound h).all e he
    exact ⟨hs.numbered, hs.answers⟩
  · have he := List.mem_reverse.1 he
    exact (finished_proper h e he).2 (hregular e he)

/-! ## Scripts -/

/-- A reply that `framed` permits. -/
def framedReply (frames : Packet → Nat) (w : World (Fin 1)) : (o : Op) → Res o → Option (World (Fin 1))
  | .writeMessage sequence p, .ok next => if next = sequence + UInt8.ofNat (frames p) then some w else none
  | _, _ => some w

theorem framed_of_reply {w w' : World (Fin 1)} {o : Op} {r : Res o} (h : framedReply frames w o r = some w') (g : Talk) :
    framed frames g o r := by
  cases o with
  | writeMessage sequence p =>
    cases r with
    | error x => trivial
    | ok next =>
      have h : (if next = sequence + UInt8.ofNat (frames p) then some w else none) = some w' := h
      split at h
      · assumption
      · cases h
  | _ => trivial

/-- A session that is answered so is in a dialogue. -/
theorem inDialogue_play (svc : Service) (frames : Packet → Nat) (script : List (Fin 1 × Reply (Fin 1))) :
    InDialogue svc frames ((System.play Talk.next (fun _ => framedReply frames) (fun w _ => w) (handleClient svc)
      (System.start (World.fresh (Fin 1)) (newSession svc) []) script).thread alone) := by
  have J : System.Justifies Talk.next (System.replies (fun _ : Fin 1 => framedReply frames) fun w _ => w)
      (fun _ _ _ => True) (framed frames) (World.fresh (Fin 1)) ([] : Talk) (fun _ _ => True) :=
    ⟨trivial, fun _ _ _ _ => trivial, fun _ _ _ _ _ _ _ h => ⟨framed_of_reply h _, trivial⟩⟩
  exact (System.project J (System.steps_play _ script) fun _ _ _ _ => trivial).2 alone

/-- The dialogue of a session of the sample service, with packets of one frame each. -/
def dialogueOf (script : List (Fin 1 × Reply (Fin 1))) : Conf ClientSession Op Res Note Talk :=
  (System.play Talk.next (fun _ => framedReply fun _ => 1) (fun w _ => w) (handleClient sampleService)
    (System.start (World.fresh (Fin 1)) (newSession sampleService) []) script).thread alone

theorem inDialogue_of (script : List (Fin 1 × Reply (Fin 1))) :
    InDialogue sampleService (fun _ => 1) (dialogueOf script) := inDialogue_play _ _ script

/-- A ping and an insert. -/
theorem response_per_command_insert :
    let c := dialogueOf (asks alone [commandPing] 1 ++ asks alone (comQuery "INSERT INTO t VALUES (1)") 25)
    (∀ e ∈ finished c, e.irregular = false) ∧
      readAll ((finished c).reverse.map (·.payload)) ((finished c).reverse.flatMap (·.packets)) =
        some ((finished c).reverse.map (·.packets)) ∧
      (finished c).reverse.map (·.packets) = [[.ok 0 0 2 0], [.ok 0 0 2 0]] := by
  have hR := inDialogue_of (asks alone [commandPing] 1 ++ asks alone (comQuery "INSERT INTO t VALUES (1)") 25)
  have hi : ∀ e ∈ finished (dialogueOf (asks alone [commandPing] 1 ++
    asks alone (comQuery "INSERT INTO t VALUES (1)") 25)), e.irregular = false := by decide +kernel
  exact ⟨hi, (response_per_command hR).2.2 hi, by decide +kernel⟩

/-- COM_STMT_SEND_LONG_DATA of a handle. -/
def comStmtSendLongData (id : UInt8) : Bytes := [commandStmtSendLongData, id, 0, 0, 0, 0, 0]

/-- Long data for a handle that does not exist is answered, and the client takes the answer for that of
its next command; a result without columns reads as an OK packet with two more behind it. -/
theorem responses_out_of_step :
    (∃ c, InDialogue sampleService (fun _ => 1) c ∧ c.isIdle = true ∧
      c.env.reverse.map (·.payload) = [comStmtSendLongData 1, [commandPing]] ∧
      (∃ e ∈ c.env, e.silent = true ∧ e.sent ≠ []) ∧
      readResponse false (c.env.reverse.flatMap (·.packets)) = some [.ok 0 0 2 0]) ∧
    ∃ c, InDialogue sampleService (fun _ => 1) c ∧ c.isIdle = true ∧
      c.env.reverse.map (·.payload) = [comQuery "SELECT 1"] ∧
      readResponse false (c.env.reverse.flatMap (·.packets)) = some [.eof 2 0, .eof 2 0] := by
  constructor
  · exact ⟨_, inDialogue_of (asks alone (comStmtSendLongData 1) 1 ++ asks alone [commandPing] 1), by decide +kernel⟩
  · exact ⟨_, inDialogue_of (asks alone (comQuery "SELECT 1") 27), by decide +kernel⟩

/-! ## Statements that were executed -/

/-- What is written for a statement that was executed. -/
theorem Exchange.Sound.packets_mayWrite {e : Exchange} (h : e.Sound svc frames) (hx : e.executed = true) :
    ∀ p ∈ e.packets, e.mayWrite p = true := by
  intro p hp
  obtain ⟨x, hm, rfl⟩ := List.mem_map.1 hp
  exact h.confirms hx x hm

/-- A statement that was executed has a reply of one packet. -/
theorem executed_single {e : Exchange} (hp : e.Proper) (hs : e.Sound svc frames) (hx : e.executed = true) :
    ∃ p, e.packets = [p] ∧ e.mayWrite p = true := by
  obtain ⟨hspoken, hprepare, hi⟩ := hs.regular hx
  have hc : e.Correct := hp.2 hi
  rw [Exchange.Correct, if_neg (by rw [hspoken]; decide), hprepare] at hc
  have hw := hs.packets_mayWrite hx
  obtain ⟨p, hp⟩ := hc.single fun p hm => by
    have := hw p hm
    unfold Exchange.mayWrite at this
    split at this
    · exact .inr this
    · exact .inl this
  exact ⟨p, hp, hw p (by rw [hp]; exact List.mem_singleton.2 rfl)⟩

/-- At every moment of every run nothing but OK packets was written for a statement that upstream executed
and whose warnings could be read. Once the command is over its reply is one OK packet exactly if they
could be. -/
theorem executed_confirmed (h : InDialogue svc frames c) :
    (∀ e ∈ c.env, e.executed = true → e.warningsFailed = false → ∀ p ∈ e.packets, p.isOK = true) ∧
    ∀ e ∈ finished c, e.executed = true → ((∃ p, e.packets = [p] ∧ p.isOK = true) ↔ e.warningsFailed = false) := by
  refine ⟨fun e he hx hw p hp => ?_, fun e he hx => ?_⟩
  · have := ((dialogue_sound h).all e he).packets_mayWrite hx p hp
    rwa [Exchange.mayWrite, hw] at this
  · obtain ⟨p, hp, hw⟩ := executed_single (finished_proper h e he) (finished_sound h e he) hx
    unfold Exchange.mayWrite at hw
    cases hf : e.warningsFailed with
    | false =>
      rw [hf] at hw
      exact iff_of_true ⟨p, hp, hw⟩ rfl
    | true =>
      rw [hf] at hw
      refine iff_of_false ?_ (by decide)
      rintro ⟨q, hq, hok⟩
      cases hp.symm.trans hq
      cases p with
      | ok => cases hw
      | _ => cases hok

/-- An insert whose warnings are read. -/
theorem executed_confirmed_insert :
    let c := dialogueOf (asks alone (comQuery "INSERT INTO t VALUES (1)") 25)
    ∃ e ∈ finished c, e.executed = true ∧ e.warningsFailed = false ∧ ∃ p, e.packets = [p] ∧ p.isOK = true := by
  have hR := inDialogue_of (asks alone (comQuery "INSERT INTO t VALUES (1)") 25)
  have he : ∃ e ∈ finished (dialogueOf (asks alone (comQuery "INSERT INTO t VALUES (1)") 25)),
      e.executed = true ∧ e.warningsFailed = false := by decide +kernel
  obtain ⟨e, hm, hx, hw⟩ := he
  exact ⟨e, hm, hx, hw, ((executed_confirmed hR).2 e hm hx).2 hw⟩

/-- The warnings cannot be read. -/
def failsWarnings : Reply (Fin 1)
  | _, .queryWarnings _ => some (.error ⟨.deadlineExceeded, lit "context deadline exceeded"⟩)
  | _, _ => none

/-- An insert succeeds, its warnings cannot be read, and the client is told that it failed. -/
theorem executed_denied :
    ∃ c, InDialogue sampleService (fun _ => 1) c ∧ c.isIdle = true ∧ ∃ e ∈ c.env, e.executed = true ∧
      e.packets = [.err 3024 (lit "HY000") (lit "query deadline exceeded")] :=
  ⟨_, inDialogue_of (asks alone (comQuery "INSERT INTO t VALUES (1)") 21 ++ (alone, failsWarnings) ::
    List.replicate 3 (alone, obliging sampleService sampleLimits)), by decide +kernel⟩

end Dialogue

end Accelerator.Gateway
