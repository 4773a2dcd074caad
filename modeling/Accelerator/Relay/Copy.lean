/-
`handle` and `copyStream` of the relay (`relay/relay.go`): two copies between two connections, each direction of
which its peer can end on its own. The handler waits for the end of one copy and then closes both connections.
What a copy has not written by then is lost; what it has written is delivered, since no peer resets its
connection and nothing else fails.
-/
import Accelerator.Interact.Machine
import Accelerator.Strings.Basic

namespace Accelerator.Relay

open Strings Interact

/-! ## One direction -/

/-- Where a `copyStream` is. -/
inductive Copy where
  | reading
  /-- These bytes were read and are not written yet. -/
  | writing (rest : Bytes)
  /-- `counter.Add(...)` -/
  | counting
  /-- `tcp.CloseWrite()` -/
  | closingWrite
  /-- `result <- err` -/
  | reporting
  | ended
  deriving DecidableEq, Repr

/-- What was read and not written. -/
def Copy.pending : Copy → Bytes
  | .writing rest => rest
  | _ => []

/-- From a peer through its connection, the copy and the other connection to the other peer. -/
structure Direction where
  /-- What the peer will send before it ends its stream. -/
  unsent : Bytes
  /-- The peer has ended its stream. -/
  shut : Bool
  /-- What was sent and not read. -/
  flight : Bytes
  copy : Copy
  delivered : Bytes
  /-- The other peer was sent the end of the stream. -/
  shutWrite : Bool
  counter : UInt64
  deriving DecidableEq, Repr

/-- The size of the buffer of a copy. -/
def copyBuffer : Nat := 32 * 1024

/-- What the peer and the copy of a direction do. -/
inductive Transfer where
  | send (n : Nat)
  | shut
  | read (n : Nat)
  /-- The read returns the end of the stream. -/
  | eof
  /-- The read fails because the handler has closed the connection. -/
  | readClosed
  | write (n : Nat)
  | writeClosed
  | copy
  deriving DecidableEq, Repr

/-- A step of a direction; the flags say whether the handler has closed the connection it comes from and the one it
goes to. -/
def Direction.step (sourceClosed destinationClosed : Bool) (d : Direction) : Transfer → Option Direction
  | .send n =>
    if d.unsent = [] then none
    else some { d with unsent := d.unsent.drop (n + 1), flight := d.flight ++ d.unsent.take (n + 1) }
  | .shut => if d.unsent = [] ∧ d.shut = false then some { d with shut := true } else none
  | .read n =>
    if d.copy = .reading ∧ sourceClosed = false ∧ d.flight ≠ [] ∧ n + 1 ≤ copyBuffer then
      some { d with flight := d.flight.drop (n + 1), copy := .writing (d.flight.take (n + 1)) }
    else none
  | .eof =>
    if d.copy = .reading ∧ sourceClosed = false ∧ d.flight = [] ∧ d.shut then some { d with copy := .counting } else none
  | .readClosed => if d.copy = .reading ∧ sourceClosed then some { d with copy := .counting } else none
  | .write n =>
    match d.copy with
    | .writing rest =>
      if destinationClosed then none
      else some { d with
        delivered := d.delivered ++ rest.take (n + 1)
        copy := if rest.length ≤ n + 1 then .reading else .writing (rest.drop (n + 1)) }
    | _ => none
  | .writeClosed =>
    match d.copy with
    | .writing _ => if destinationClosed then some { d with copy := .counting } else none
    | _ => none
  | .copy =>
    match d.copy with
    | .counting => some { d with copy := .closingWrite, counter := d.counter + .ofNat d.delivered.length }
    | .closingWrite => some { d with copy := .reporting, shutWrite := true }
    | .reporting => some { d with copy := .ended }
    | _ => none

/-! ## The handler -/

/-- From the start of the copies on. -/
inductive Handler where
  /-- `firstErr := <-result` -/
  | first
  /-- `client.Close()` -/
  | closeClient
  /-- `upstream.Close()` -/
  | closeUpstream
  /-- `secondErr := <-result` -/
  | second
  | finished
  deriving DecidableEq, Repr

structure Session where
  /-- From the client to the database. -/
  up : Direction
  /-- From the database to the client. -/
  down : Direction
  handler : Handler
  clientClosed : Bool
  upstreamClosed : Bool
  deriving DecidableEq, Repr

/-- How many results the copies have sent. -/
def Session.results (s : Session) : Nat :=
  (if s.up.copy = .ended then 1 else 0) + if s.down.copy = .ended then 1 else 0

inductive SessionAction where
  | up (t : Transfer)
  | down (t : Transfer)
  | handler
  deriving DecidableEq, Repr

def Session.handlerNext (s : Session) : Option Session :=
  match s.handler with
  | .first => if 1 ≤ s.results then some { s with handler := .closeClient } else none
  | .closeClient => some { s with handler := .closeUpstream, clientClosed := true }
  | .closeUpstream => some { s with handler := .second, upstreamClosed := true }
  | .second => if 2 ≤ s.results then some { s with handler := .finished } else none
  | .finished => none

def Session.step (s : Session) : SessionAction → Option Session
  | .up t => (s.up.step s.clientClosed s.upstreamClosed t).map fun d => { s with up := d }
  | .down t => (s.down.step s.upstreamClosed s.clientClosed t).map fun d => { s with down := d }
  | .handler => s.handlerNext

def session : Machine Session SessionAction := ⟨Session.step⟩

/-- A direction before anything is sent. -/
def opened (bytes : Bytes) : Direction := ⟨bytes, false, [], .reading, [], false, 0⟩

/-- The two connections are open, and the peers will send these bytes before they end their streams. -/
def connected (client database : Bytes) : Session := ⟨opened client, opened database, .first, false, false⟩

/-! ## What is delivered -/

/-- Everything was delivered. -/
def Delivered (client database : Bytes) (s : Session) : Prop :=
  s.up.delivered = client ∧ s.down.delivered = database

/-- A peer ends its stream only when what the other peer sends has been delivered to it. -/
def HearsOut (client database : Bytes) (s : Session) : SessionAction → Prop
  | .up .shut => s.down.delivered = database
  | .down .shut => s.up.delivered = client
  | _ => True

/-- A direction on its way: as long as its destination is open, nothing is lost. -/
structure Carries (bytes : Bytes) (destinationClosed : Bool) (d : Direction) : Prop where
  pre : d.delivered <+: bytes
  whole : destinationClosed = false → d.delivered ++ (d.copy.pending ++ (d.flight ++ d.unsent)) = bytes
  sent : d.shut = true → d.unsent = []

/-- The copy reads and writes no more. -/
def Copy.over : Copy → Bool
  | .reading | .writing _ => false
  | _ => true

section Directions

variable {bytes : Bytes} {sourceClosed destinationClosed : Bool} {d d' : Direction} {t : Transfer}

theorem carries_opened (bytes : Bytes) : Carries bytes false (opened bytes) :=
  ⟨List.nil_prefix, fun _ => rfl, nofun⟩

/-- What a step does to the bytes of a direction. -/
theorem Direction.step_bytes (h : d.step sourceClosed destinationClosed t = some d') :
    (d'.delivered = d.delivered ∧ d'.copy.pending ++ (d'.flight ++ d'.unsent) =
      d.copy.pending ++ (d.flight ++ d.unsent)) ∨
    (destinationClosed = true ∧ d'.delivered = d.delivered) ∨
    (destinationClosed = false ∧ d'.delivered ++ (d'.copy.pending ++ (d'.flight ++ d'.unsent)) =
      d.delivered ++ (d.copy.pending ++ (d.flight ++ d.unsent)) ∧ d.delivered <+: d'.delivered) := by
  cases t with
  | send n =>
    obtain ⟨-, he⟩ := Option.ite_none_left_eq_some.1 h
    cases he
    refine .inl ⟨rfl, ?_⟩
    rw [List.append_assoc, List.take_append_drop]
  | shut =>
    obtain ⟨-, he⟩ := Option.ite_none_right_eq_some.1 h
    cases he
    exact .inl ⟨rfl, rfl⟩
  | read n =>
    obtain ⟨⟨hcopy, -, -, -⟩, he⟩ := Option.ite_none_right_eq_some.1 h
    cases he
    refine .inl ⟨rfl, ?_⟩
    rw [hcopy]
    show d.flight.take (n + 1) ++ (d.flight.drop (n + 1) ++ d.unsent) = [] ++ (d.flight ++ d.unsent)
    rw [← List.append_assoc, List.take_append_drop, List.nil_append]
  | eof =>
    obtain ⟨⟨hcopy, -, -, -⟩, he⟩ := Option.ite_none_right_eq_some.1 h
    cases he
    refine .inl ⟨rfl, ?_⟩
    rw [hcopy]
    rfl
  | readClosed =>
    obtain ⟨⟨hcopy, -⟩, he⟩ := Option.ite_none_right_eq_some.1 h
    cases he
    refine .inl ⟨rfl, ?_⟩
    rw [hcopy]
    rfl
  | write n =>
    simp only [Direction.step] at h
    split at h
    · rename_i rest hcopy
      obtain ⟨hopen, he⟩ := Option.ite_none_left_eq_some.1 h
      cases he
      refine .inr (.inr ⟨by simpa using hopen, ?_, List.prefix_append ..⟩)
      rw [hcopy]
      have hpending : (if rest.length ≤ n + 1 then Copy.reading else .writing (rest.drop (n + 1))).pending =
          rest.drop (n + 1) := by
        split_ifs with hle
        · exact (List.drop_eq_nil_of_le hle).symm
        · rfl
      rw [hpending, List.append_assoc, ← List.append_assoc (rest.take _), List.take_append_drop]
      rfl
    · cases h
  | writeClosed =>
    simp only [Direction.step] at h
    split at h
    · obtain ⟨hclosed, he⟩ := Option.ite_none_right_eq_some.1 h
      cases he
      exact .inr (.inl ⟨hclosed, rfl⟩)
    · cases h
  | copy =>
    simp only [Direction.step] at h
    split at h
    · rename_i hcopy
      cases h
      refine .inl ⟨rfl, ?_⟩
      rw [hcopy]
      rfl
    · rename_i hcopy
      cases h
      refine .inl ⟨rfl, ?_⟩
      rw [hcopy]
      rfl
    · rename_i hcopy
      cases h
      refine .inl ⟨rfl, ?_⟩
      rw [hcopy]
      rfl
    · cases h

theorem Direction.step_shut (h : d.step sourceClosed destinationClosed t = some d') (hd : d.shut = true → d.unsent = []) :
    d'.shut = true → d'.unsent = [] := by
  cases t with
  | send n =>
    obtain ⟨hunsent, he⟩ := Option.ite_none_left_eq_some.1 h
    cases he
    exact fun hshut => absurd (hd hshut) hunsent
  | shut =>
    obtain ⟨⟨hunsent, -⟩, he⟩ := Option.ite_none_right_eq_some.1 h
    cases he
    exact fun _ => hunsent
  | read n | eof | readClosed =>
    obtain ⟨-, he⟩ := Option.ite_none_right_eq_some.1 h
    cases he
    exact hd
  | write n | writeClosed | copy =>
    simp only [Direction.step] at h
    grind

theorem Carries.step (hd : Carries bytes destinationClosed d) (h : d.step sourceClosed destinationClosed t = some d') :
    Carries bytes destinationClosed d' := by
  have hsent := Direction.step_shut h hd.sent
  rcases Direction.step_bytes h with ⟨hdelivered, hrest⟩ | ⟨hclosed, hdelivered⟩ | ⟨hopen, hwhole, -⟩
  · exact ⟨hdelivered ▸ hd.pre, fun hopen => by rw [hdelivered, hrest]; exact hd.whole hopen, hsent⟩
  · exact ⟨hdelivered ▸ hd.pre, fun hopen => by simp [hclosed] at hopen, hsent⟩
  · have hwhole' := hwhole.trans (hd.whole hopen)
    exact ⟨hwhole' ▸ List.prefix_append .., fun _ => hwhole', hsent⟩

/-- What was delivered in full stays so. -/
theorem Carries.delivered_step (hd : Carries bytes destinationClosed d)
    (h : d.step sourceClosed destinationClosed t = some d') (he : d.delivered = bytes) : d'.delivered = bytes := by
  have hgrows : d.delivered <+: d'.delivered := by
    rcases Direction.step_bytes h with ⟨hdelivered, -⟩ | ⟨-, hdelivered⟩ | ⟨-, -, hgrows⟩
    · rw [hdelivered]
    · rw [hdelivered]
    · exact hgrows
  rw [he] at hgrows
  exact (hd.step h).pre.eq_of_length_le hgrows.length_le

/-- Only `shut` ends the stream of a peer. -/
theorem Direction.shut_step (h : d.step sourceClosed destinationClosed t = some d') (hs : d'.shut = true) :
    d.shut = true ∨ t = .shut := by
  cases t <;> simp only [Direction.step] at h <;> grind

/-- A direction whose peer has sent everything and whose copy waits for the end of the stream. -/
theorem Carries.delivered_of_idle (hd : Carries bytes false d) (hcopy : d.copy = .reading)
    (hunsent : d.unsent = []) (hflight : d.flight = []) : d.delivered = bytes := by
  have hwhole := hd.whole rfl
  rw [hcopy, hflight, hunsent] at hwhole
  simpa [Copy.pending] using hwhole

/-- A copy reads and writes no more when it has met a connection that the handler closed, or the end of the stream:
then it has delivered everything. -/
theorem Carries.over_step (hd : Carries bytes destinationClosed d)
    (h : d.step sourceClosed destinationClosed t = some d') (ho : d'.copy.over = true) :
    d.copy.over = true ∨ sourceClosed = true ∨ destinationClosed = true ∨ (d.shut = true ∧ d.delivered = bytes) := by
  have hover : d.copy.over = true ∨ sourceClosed = true ∨ destinationClosed = true ∨
      (d.copy = .reading ∧ d.flight = [] ∧ d.shut = true) := by
    cases t <;> simp only [Direction.step] at h <;> grind [Copy.over]
  refine hover.imp id (Or.imp id fun hrest => ?_)
  by_cases hclosed : destinationClosed = true
  · exact .inl hclosed
  · obtain ⟨hcopy, hflight, hshut⟩ := hrest.resolve_left hclosed
    rw [Bool.not_eq_true] at hclosed
    exact .inr ⟨hshut, (hclosed ▸ hd).delivered_of_idle hcopy (hd.sent hshut) hflight⟩

/-- A copy that has not ended can go on, or waits for a peer that has sent everything to end its stream. -/
theorem Direction.moves (hcopy : d.copy ≠ .ended) :
    (∃ t d', t ≠ .shut ∧ d.step sourceClosed destinationClosed t = some d') ∨
      (d.copy = .reading ∧ sourceClosed = false ∧ d.unsent = [] ∧ d.flight = [] ∧ d.shut = false) := by
  cases hc : d.copy with
  | reading =>
    by_cases hclosed : sourceClosed = true
    · exact .inl ⟨.readClosed, _, nofun, if_pos ⟨hc, hclosed⟩⟩
    · rw [Bool.not_eq_true] at hclosed
      by_cases hunsent : d.unsent = []
      · by_cases hflight : d.flight = []
        · by_cases hshut : d.shut = true
          · exact .inl ⟨.eof, _, nofun, if_pos ⟨hc, hclosed, hflight, hshut⟩⟩
          · exact .inr ⟨rfl, hclosed, hunsent, hflight, by simpa using hshut⟩
        · exact .inl ⟨.read 0, _, nofun, if_pos ⟨hc, hclosed, hflight, by decide⟩⟩
      · exact .inl ⟨.send 0, _, nofun, if_neg hunsent⟩
  | writing rest =>
    left
    cases destinationClosed with
    | true => exact ⟨.writeClosed, { d with copy := .counting }, nofun, by simp [Direction.step, hc]⟩
    | false => exact ⟨.write 0, _, nofun, by simp only [Direction.step, hc]; rfl⟩
  | counting => exact .inl ⟨.copy, _, nofun, by simp only [Direction.step, hc]; rfl⟩
  | closingWrite => exact .inl ⟨.copy, _, nofun, by simp only [Direction.step, hc]; rfl⟩
  | reporting => exact .inl ⟨.copy, _, nofun, by simp only [Direction.step, hc]; rfl⟩
  | ended => exact absurd hc hcopy

end Directions

/-! ## The handler's runs -/

/-- The connections that the handler has closed. -/
structure Session.Inv (client database : Bytes) (s : Session) : Prop where
  up : Carries client s.upstreamClosed s.up
  down : Carries database s.clientClosed s.down
  clientClosed : s.clientClosed = true ↔ s.handler ≠ .first ∧ s.handler ≠ .closeClient
  upstreamClosed : s.upstreamClosed = true ↔ s.handler = .second ∨ s.handler = .finished

/-- Where the peers hear each other out: a peer that has ended its stream was delivered everything, and once a copy
is over or the handler goes on everything is delivered. -/
structure Heard (client database : Bytes) (s : Session) : Prop where
  up : s.up.shut = true → s.down.delivered = database
  down : s.down.shut = true → s.up.delivered = client
  ended : s.up.copy.over = true ∨ s.down.copy.over = true ∨ s.handler ≠ .first → Delivered client database s

section Runs

variable {client database : Bytes} {s s' : Session} {a : SessionAction}

theorem inv_connected (client database : Bytes) : (connected client database).Inv client database :=
  ⟨carries_opened client, carries_opened database, by simp [connected], by simp [connected]⟩

theorem Session.Inv.step (hi : s.Inv client database) (h : s.step a = some s') : s'.Inv client database := by
  cases a with
  | up t =>
    obtain ⟨d, hd, rfl⟩ := Option.map_eq_some_iff.1 h
    exact ⟨hi.up.step hd, hi.down, hi.clientClosed, hi.upstreamClosed⟩
  | down t =>
    obtain ⟨d, hd, rfl⟩ := Option.map_eq_some_iff.1 h
    exact ⟨hi.up, hi.down.step hd, hi.clientClosed, hi.upstreamClosed⟩
  | handler =>
    have hup := hi.upstreamClosed
    have hclient := hi.clientClosed
    simp only [Session.step, Session.handlerNext] at h
    split at h <;> rename_i hhandler
    · obtain ⟨-, he⟩ := Option.ite_none_right_eq_some.1 h
      cases he
      exact ⟨hi.up, hi.down, by simpa [hhandler] using hclient, by simpa [hhandler] using hup⟩
    · cases h
      exact ⟨hi.up, ⟨hi.down.pre, nofun, hi.down.sent⟩, by simp, by simpa [hhandler] using hup⟩
    · cases h
      exact ⟨⟨hi.up.pre, nofun, hi.up.sent⟩, hi.down, by simpa [hhandler] using hclient, by simp⟩
    · obtain ⟨-, he⟩ := Option.ite_none_right_eq_some.1 h
      cases he
      exact ⟨hi.up, hi.down, by simpa [hhandler] using hclient, by simpa [hhandler] using hup⟩
    · cases h

theorem Session.Inv.reach {P : Session → SessionAction → Prop} (hi : s.Inv client database)
    (h : session.Reach P s s') : s'.Inv client database :=
  h.invariant hi fun _ _ _ hi _ hs => hi.step hs

/-- A closed connection means that the handler went on. -/
theorem Session.Inv.not_first (hi : s.Inv client database) (h : s.clientClosed = true ∨ s.upstreamClosed = true) :
    s.handler ≠ .first := by
  rcases h with h | h
  · exact (hi.clientClosed.1 h).1
  · intro hfirst
    have hlate := hi.upstreamClosed.1 h
    rw [hfirst] at hlate
    simp at hlate

theorem heard_connected (client database : Bytes) : Heard client database (connected client database) :=
  ⟨nofun, nofun, fun h => by simp [connected, opened, Copy.over] at h⟩

theorem Heard.step (hi : s.Inv client database) (hh : Heard client database s) (hp : HearsOut client database s a)
    (h : s.step a = some s') : Heard client database s' := by
  cases a with
  | up t =>
    obtain ⟨d, hd, rfl⟩ := Option.map_eq_some_iff.1 h
    have hkeeps := hi.up.delivered_step hd
    refine ⟨fun hshut => ?_, fun hshut => hkeeps (hh.down hshut), fun hover => ?_⟩
    · -- a stream that ends in this step ends by the condition
      rcases Direction.shut_step hd hshut with hbefore | rfl
      · exact hh.up hbefore
      · exact hp
    · have hdone : Delivered client database s → Delivered client database { s with up := d } :=
        fun h => ⟨hkeeps h.1, h.2⟩
      rcases hover with hover | hover
      · -- a copy ends with its stream, or because the handler has closed a side
        rcases hi.up.over_step hd hover with hover | hclosed | hclosed | ⟨hshut, hall⟩
        · exact hdone (hh.ended (.inl hover))
        · exact hdone (hh.ended (.inr (.inr (hi.not_first (.inl hclosed)))))
        · exact hdone (hh.ended (.inr (.inr (hi.not_first (.inr hclosed)))))
        · exact hdone ⟨hall, hh.up hshut⟩
      · exact hdone (hh.ended (.inr hover))
  | down t =>
    obtain ⟨d, hd, rfl⟩ := Option.map_eq_some_iff.1 h
    have hkeeps := hi.down.delivered_step hd
    refine ⟨fun hshut => hkeeps (hh.up hshut), fun hshut => ?_, fun hover => ?_⟩
    · rcases Direction.shut_step hd hshut with hbefore | rfl
      · exact hh.down hbefore
      · exact hp
    · have hdone : Delivered client database s → Delivered client database { s with down := d } :=
        fun h => ⟨h.1, hkeeps h.2⟩
      rcases hover with hover | hover | hover
      · exact hdone (hh.ended (.inl hover))
      · rcases hi.down.over_step hd hover with hover | hclosed | hclosed | ⟨hshut, hall⟩
        · exact hdone (hh.ended (.inr (.inl hover)))
        · exact hdone (hh.ended (.inr (.inr (hi.not_first (.inr hclosed)))))
        · exact hdone (hh.ended (.inr (.inr (hi.not_first (.inl hclosed)))))
        · exact hdone ⟨hh.down hshut, hall⟩
      · exact hdone (hh.ended (.inr (.inr hover)))
  | handler =>
    -- the handler goes on from its first wait when a copy has ended
    have hended : 1 ≤ s.results → Delivered client database s := by
      intro hresults
      unfold Session.results at hresults
      by_cases hup : s.up.copy = .ended
      · exact hh.ended (.inl (by rw [hup]; rfl))
      · by_cases hdown : s.down.copy = .ended
        · exact hh.ended (.inr (.inl (by rw [hdown]; rfl)))
        · simp [hup, hdown] at hresults
    simp only [Session.step, Session.handlerNext] at h
    split at h <;> rename_i hhandler
    · obtain ⟨hresults, he⟩ := Option.ite_none_right_eq_some.1 h
      cases he
      exact ⟨hh.up, hh.down, fun _ => hended hresults⟩
    · cases h
      exact ⟨hh.up, hh.down, fun _ => hh.ended (.inr (.inr (by simp [hhandler])))⟩
    · cases h
      exact ⟨hh.up, hh.down, fun _ => hh.ended (.inr (.inr (by simp [hhandler])))⟩
    · obtain ⟨-, he⟩ := Option.ite_none_right_eq_some.1 h
      cases he
      exact ⟨hh.up, hh.down, fun _ => hh.ended (.inr (.inr (by simp [hhandler])))⟩
    · cases h

theorem heard_reach (h : session.Reach (HearsOut client database) (connected client database) s) :
    s.Inv client database ∧ Heard client database s := by
  refine h.invariant (I := fun s => s.Inv client database ∧ Heard client database s)
    ⟨inv_connected client database, heard_connected client database⟩ ?_
  rintro s a s' ⟨hi, hh⟩ hp hs
  exact ⟨hi.step hs, hh.step hi hp hs⟩

theorem step_up {t : Transfer} {d : Direction} (h : s.up.step s.clientClosed s.upstreamClosed t = some d)
    (ht : t ≠ .shut) : ∃ a s', HearsOut client database s a ∧ s.step a = some s' := by
  refine ⟨.up t, { s with up := d }, ?_, by simp [Session.step, h]⟩
  cases t <;> trivial

theorem step_down {t : Transfer} {d : Direction} (h : s.down.step s.upstreamClosed s.clientClosed t = some d)
    (ht : t ≠ .shut) : ∃ a s', HearsOut client database s a ∧ s.step a = some s' := by
  refine ⟨.down t, { s with down := d }, ?_, by simp [Session.step, h]⟩
  cases t <;> trivial

/-- Until the handler has finished something can happen that the peers wait for. -/
theorem Session.Inv.progress (hi : s.Inv client database) (h : s.handler ≠ .finished) :
    ∃ a s', HearsOut client database s a ∧ s.step a = some s' := by
  have hhandler : ∀ s', s.handlerNext = some s' → ∃ a s', HearsOut client database s a ∧ s.step a = some s' :=
    fun s' hs => ⟨.handler, s', trivial, hs⟩
  have hup := @Direction.moves s.clientClosed s.upstreamClosed s.up
  have hdown := @Direction.moves s.upstreamClosed s.clientClosed s.down
  cases hs : s.handler with
  | closeClient => exact hhandler _ (by rw [Session.handlerNext, hs])
  | closeUpstream => exact hhandler _ (by rw [Session.handlerNext, hs])
  | finished => exact absurd hs h
  | first =>
    have hclient : s.clientClosed = false := by simpa [hs] using hi.clientClosed
    have hupstream : s.upstreamClosed = false := by simpa [hs] using hi.upstreamClosed
    by_cases hended : 1 ≤ s.results
    · exact hhandler _ (by rw [Session.handlerNext, hs]; exact if_pos hended)
    · have hnot : s.up.copy ≠ .ended ∧ s.down.copy ≠ .ended := by
        constructor <;> intro he <;> simp [Session.results, he] at hended
      rcases hup hnot.1 with ⟨t, d, ht, hd⟩ | ⟨hcopy, -, hunsent, hflight, hshut⟩
      · exact step_up hd ht
      · rcases hdown hnot.2 with ⟨t, d, ht, hd⟩ | ⟨hcopy', -, hunsent', hflight', -⟩
        · exact step_down hd ht
        · -- both copies wait and both directions are delivered: the client may end its stream
          refine ⟨.up .shut, { s with up := { s.up with shut := true } }, ?_, ?_⟩
          · exact (hclient ▸ hi.down).delivered_of_idle hcopy' hunsent' hflight'
          · simp [Session.step, Direction.step, hunsent, hshut]
  | second =>
    have hclient : s.clientClosed = true := by simpa [hs] using hi.clientClosed
    have hupstream : s.upstreamClosed = true := by simpa [hs] using hi.upstreamClosed
    by_cases hended : 2 ≤ s.results
    · exact hhandler _ (by rw [Session.handlerNext, hs]; exact if_pos hended)
    · by_cases hnot : s.up.copy = .ended
      · have hnot' : s.down.copy ≠ .ended := by
          intro he
          simp [Session.results, hnot, he] at hended
        rcases hdown hnot' with ⟨t, d, ht, hd⟩ | ⟨-, hopen, -⟩
        · exact step_down hd ht
        · rw [hupstream] at hopen
          cases hopen
      · rcases hup hnot with ⟨t, d, ht, hd⟩ | ⟨-, hopen, -⟩
        · exact step_up hd ht
        · rw [hclient] at hopen
          cases hopen

end Runs

/-- What the relay delivers is a prefix of what was sent. Where neither peer ends its stream before it was delivered
everything, all of it is delivered once the handler has finished, and the handler is not stuck before. -/
theorem relay_delivers (client database : Bytes) (s : Session) :
    (session.Reach (fun _ _ => True) (connected client database) s →
      s.up.delivered <+: client ∧ s.down.delivered <+: database) ∧
    (session.Reach (HearsOut client database) (connected client database) s →
      (s.handler = .finished → Delivered client database s) ∧
      (s.handler ≠ .finished → ∃ a s', HearsOut client database s a ∧ session.step s a = some s')) := by
  refine ⟨fun h => ?_, fun h => ?_⟩
  · have hi := (inv_connected client database).reach h
    exact ⟨hi.up.pre, hi.down.pre⟩
  · obtain ⟨hi, hh⟩ := heard_reach h
    exact ⟨fun hfinished => hh.ended (.inr (.inr (by simp [hfinished]))), hi.progress⟩

instance (client database : Bytes) (s : Session) (a : SessionAction) : Decidable (HearsOut client database s a) := by
  unfold HearsOut
  split <;> infer_instance

/-- The end of a copy. -/
def ending (f : Transfer → SessionAction) : List SessionAction := [f .eof, f .copy, f .copy, f .copy]

/-- A client that waits for the answer before it ends its stream. -/
theorem relay_delivers_answer : ∃ s, session.Reach (HearsOut [1] [2, 3]) (connected [1] [2, 3]) s ∧ s.handler = .finished ∧
    Delivered [1] [2, 3] s := by
  let as : List SessionAction := [.up (.send 0), .up (.read 0), .up (.write 0), .down (.send 1), .down (.read 1),
    .down (.write 0), .down (.write 0), .down .shut, .up .shut] ++ ending .up ++ ending .down ++
    [.handler, .handler, .handler, .handler]
  have h : (session.runIf (fun s a => decide (HearsOut [1] [2, 3] s a)) (connected [1] [2, 3]) as).map (·.handler) =
      some .finished := by decide +kernel
  obtain ⟨s, hrun, hfinished⟩ := Option.map_eq_some_iff.1 h
  have hreach : session.Reach (HearsOut [1] [2, 3]) (connected [1] [2, 3]) s :=
    (Machine.reach_of_runIf .init hrun).mono fun _ _ h => of_decide_eq_true h
  exact ⟨s, hreach, hfinished, ((relay_delivers [1] [2, 3] s).2 hreach).1 hfinished⟩

/-- A client that ends its stream after the request: the answer is on its way when the handler closes both
connections. -/
theorem half_close_loses_answer : ∃ s, session.Reach (fun _ _ => True) (connected [1] [2, 3]) s ∧
    s.handler = .finished ∧ s.up.delivered = [1] ∧ s.down.delivered = [] := by
  let as : List SessionAction := [.up (.send 0), .up .shut, .up (.read 0), .up (.write 0)] ++ ending .up ++
    [.down (.send 1), .down .shut, .handler, .handler, .handler, .down .readClosed, .down .copy, .down .copy,
      .down .copy, .handler]
  have h : (session.runIf (fun _ _ => true) (connected [1] [2, 3]) as).map
      (fun s => (s.handler, s.up.delivered, s.down.delivered)) = some (.finished, [1], []) := by decide +kernel
  obtain ⟨s, hrun, he⟩ := Option.map_eq_some_iff.1 h
  obtain ⟨hfinished, he⟩ := Prod.mk.inj he
  obtain ⟨hup, hdown⟩ := Prod.mk.inj he
  have hreach : session.Reach (fun _ _ => True) (connected [1] [2, 3]) s :=
    (Machine.reach_of_runIf (p := fun _ _ => true) .init hrun).mono fun _ _ _ => trivial
  exact ⟨s, hreach, hfinished, hup, hdown⟩

end Accelerator.Relay
