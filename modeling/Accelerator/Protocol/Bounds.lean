/-
The bounds of `ReadMessage` (`protocol/mysql/codec.go`) on any stream, finite or not. The loop goes on after a full
frame only, and the payload held so far is limited, so the room left shrinks by a full frame each round. Every round
is logged with what it took from the stream.
-/
import Accelerator.Protocol.Codec

namespace Accelerator.Protocol

open Strings Upstream Wire

/-! ## Streams -/

namespace Source

variable {σ : Type}

theorem fill_spec (S : Source σ) {rounds : Nat} {s : σ} {n : Nat} {got : Bytes} (hle : got.length ≤ n)
    (hn : n - got.length ≤ rounds) :
    (S.fill rounds s n got).2.1.length ≤ n ∧
      ((S.fill rounds s n got).2.2 = none ↔ (S.fill rounds s n got).2.1.length = n) := by
  induction rounds generalizing s got with
  | zero =>
    refine ⟨hle, iff_of_true rfl ?_⟩
    change got.length = n
    omega
  | succ rounds ih =>
    unfold fill
    split_ifs with hlt
    · have hread := S.length_le s (n - got.length) (by omega)
      have hlen : (got ++ (S.read s (n - got.length)).2.1).length ≤ n := by
        rw [List.length_append]
        omega
      cases herr : (S.read s (n - got.length)).2.2 with
      | none =>
        have hpos := S.delivers s (n - got.length) (by omega) herr
        simp only [herr]
        refine ih hlen ?_
        rw [List.length_append]
        omega
      | some e =>
        simp only [herr]
        refine ⟨hlen, ?_⟩
        split_ifs with hfull
        · exact iff_of_true rfl (Nat.le_antisymm hlen hfull)
        · exact iff_of_false not_false fun h => hfull (Nat.le_of_eq h.symm)
    · exact ⟨hle, iff_of_true rfl (Nat.le_antisymm hle (Nat.le_of_not_lt hlt))⟩

/-- No more is read than the buffer holds, and there is no error exactly when the buffer is full. -/
theorem readFull_spec (S : Source σ) (s : σ) (n : Nat) :
    (S.readFull s n).2.1.length ≤ n ∧ ((S.readFull s n).2.2 = none ↔ (S.readFull s n).2.1.length = n) :=
  S.fill_spec (Nat.zero_le n) (Nat.le_refl _)

/-- The stream with a record of everything it delivered. -/
def recorded (S : Source σ) : Source (σ × Bytes) where
  read s n := (((S.read s.1 n).1, s.2 ++ (S.read s.1 n).2.1), (S.read s.1 n).2)
  length_le s n := S.length_le s.1 n
  delivers s n := S.delivers s.1 n

theorem fill_recorded (S : Source σ) (rounds : Nat) (s : σ) (n : Nat) (b got : Bytes) :
    S.recorded.fill rounds (s, b ++ got) n got =
      (((S.fill rounds s n got).1, b ++ (S.fill rounds s n got).2.1), (S.fill rounds s n got).2) := by
  induction rounds generalizing s got with
  | zero => rfl
  | succ rounds ih =>
    unfold fill
    split_ifs with hlt
    · have hread : S.recorded.read (s, b ++ got) (n - got.length) =
          (((S.read s (n - got.length)).1, b ++ got ++ (S.read s (n - got.length)).2.1),
            (S.read s (n - got.length)).2) := rfl
      rw [hread]
      cases herr : (S.read s (n - got.length)).2.2 with
      | none =>
        simp only [herr]
        rw [List.append_assoc]
        exact ih _ _
      | some e => simp only [herr, List.append_assoc]
    · rfl

theorem readFull_recorded (S : Source σ) (s : σ) (b : Bytes) (n : Nat) :
    S.recorded.readFull (s, b) n = (((S.readFull s n).1, b ++ (S.readFull s n).2.1), (S.readFull s n).2) := by
  have h := S.fill_recorded n s n b []
  rwa [List.append_nil] at h

end Source

/-! ## What a round can do -/

/-- The bytes a round took from the stream. -/
def Round.taken (r : Round) : Bytes := r.header ++ r.payload

/-- The length a header announces. -/
def Round.length (r : Round) : Nat := leNat (r.header.take 3)

/-- What a round can do, by its end. -/
inductive Rounded (c : Codec) (start : Nat) : Round → RoundEnd → Prop
  | cut {header : Bytes} {e : GoError} : header.length < headerBytes →
      Rounded c start ⟨start, header, start, []⟩ (.done (.error e))
  | disorder {header : Bytes} {got want : UInt8} :
      Rounded c start ⟨start, header, start, []⟩ (.done (.error (errSequence got want)))
  | tooLarge {header : Bytes} :
      Rounded c start ⟨start, header, start, []⟩ (.done (.error errMessageTooLarge))
  | broken {header payload : Bytes} {length : Nat} {e : GoError} : leNat (header.take 3) = length →
      start + length ≤ c.maxMessageBytes → payload.length ≤ length →
      Rounded c start ⟨start, header, start + length, payload⟩ (.done (.error e))
  | last {header payload : Bytes} {length : Nat} {m : Message} : leNat (header.take 3) = length →
      start + length ≤ c.maxMessageBytes → payload.length = length →
      Rounded c start ⟨start, header, start + length, payload⟩ (.done (.ok m))
  | more {header payload : Bytes} {length : Nat} {m : Message} {expected : UInt8} : leNat (header.take 3) = length →
      start + length ≤ c.maxMessageBytes → payload.length = length → c.framePayload ≤ length →
      m.payload.length = start + length →
      Rounded c start ⟨start, header, start + length, payload⟩ (.more m expected)

section Loop

variable {σ : Type} {c : Codec} {S : Source σ}

theorem Codec.round_spec (c : Codec) (S : Source σ) (s : σ) (m : Message) (expected : UInt8) :
    Rounded c m.payload.length (c.round S s m expected).1 (c.round S s m expected).2.2 := by
  obtain ⟨hle, hfull⟩ := S.readFull_spec s headerBytes
  unfold Codec.round
  generalize S.readFull s headerBytes = r at hle hfull ⊢
  obtain ⟨s₁, header, err⟩ := r
  cases err with
  | some e =>
    refine .cut (Nat.lt_of_le_of_ne hle fun h => ?_)
    cases hfull.2 h
  | none =>
    simp only
    -- the first frame gives the sequence number only
    have hpayload : (if m.frames = 0 then { m with sequence := header.getD 3 0 } else m).payload = m.payload := by
      split_ifs <;> rfl
    generalize (if m.frames = 0 then { m with sequence := header.getD 3 0 } else m) = m₁ at hpayload ⊢
    generalize (if m.frames = 0 then header.getD 3 0 else expected) = want
    obtain ⟨hle₂, hfull₂⟩ := S.readFull_spec s₁ (leNat (header.take 3))
    generalize S.readFull s₁ (leNat (header.take 3)) = p at hle₂ hfull₂ ⊢
    obtain ⟨s₂, payload, err₂⟩ := p
    cases err₂ with
    | some e =>
      simp only
      split_ifs with hseq hlarge
      · exact .disorder
      · exact .tooLarge
      · exact .broken rfl (by omega) hle₂
    | none =>
      have hlen : payload.length = leNat (header.take 3) := hfull₂.1 rfl
      simp only
      split_ifs with hseq hlarge hshort
      · exact .disorder
      · exact .tooLarge
      · exact .last rfl (by omega) hlen
      · refine .more rfl (by omega) hlen (Nat.le_of_not_lt hshort) ?_
        rw [hpayload, List.length_append, hlen]

/-! ## Bounds -/

/-- A frame that does not fit into the message. -/
def Round.Exceeds (r : Round) (limit : Nat) : Prop := r.header.length = headerBytes ∧ limit < r.start + r.length

/-- The bounds of a run that begins with `start` bytes of payload: on the headers it reads, on the payload it reads
and on the payload it holds. A frame that does not fit is refused with none of its payload read. -/
structure Bounded (c : Codec) (start : Nat) (log : List Round) (result : Except GoError Message) : Prop where
  headers : log.length ≤ (c.maxMessageBytes - start) / c.framePayload + 1
  payload : start + (log.map fun r => r.payload.length).sum ≤ c.maxMessageBytes
  held : ∀ r ∈ log, r.held ≤ c.maxMessageBytes
  refused : ∀ r ∈ log, r.Exceeds c.maxMessageBytes → log.getLast? = some r ∧ r.payload = [] ∧
    (result = .error errMessageTooLarge ∨ ∃ got want, result = .error (errSequence got want))

/-- A round that returns. -/
theorem Rounded.bounded {start : Nat} {r : Round} {result : Except GoError Message}
    (h : Rounded c start r (.done result)) (hstart : start ≤ c.maxMessageBytes) : Bounded c start [r] result := by
  have hone : 1 ≤ (c.maxMessageBytes - start) / c.framePayload + 1 := Nat.le_add_left _ _
  have hfits : ∀ {header payload : Bytes} {length : Nat}, leNat (header.take 3) = length →
      start + length ≤ c.maxMessageBytes →
      ¬ Round.Exceeds ⟨start, header, start + length, payload⟩ c.maxMessageBytes := by
    rintro header payload length rfl hroom ⟨-, hlt⟩
    exact absurd hlt (Nat.not_lt.2 hroom)
  cases h with
  | cut hcut =>
    refine ⟨hone, hstart, List.forall_mem_singleton.2 hstart, List.forall_mem_singleton.2 fun h => ?_⟩
    exact absurd h.1 (Nat.ne_of_lt hcut)
  | disorder =>
    refine ⟨hone, hstart, List.forall_mem_singleton.2 hstart, List.forall_mem_singleton.2 fun _ => ?_⟩
    exact ⟨rfl, rfl, .inr ⟨_, _, rfl⟩⟩
  | tooLarge =>
    refine ⟨hone, hstart, List.forall_mem_singleton.2 hstart, List.forall_mem_singleton.2 fun _ => ?_⟩
    exact ⟨rfl, rfl, .inl rfl⟩
  | broken hlength hroom hle =>
    refine ⟨hone, ?_, List.forall_mem_singleton.2 hroom, List.forall_mem_singleton.2 fun h => ?_⟩
    · rw [List.map_singleton, List.sum_singleton]
      exact Nat.le_trans (Nat.add_le_add_left hle start) hroom
    · exact absurd h (hfits hlength hroom)
  | last hlength hroom heq =>
    refine ⟨hone, ?_, List.forall_mem_singleton.2 hroom, List.forall_mem_singleton.2 fun h => ?_⟩
    · rw [List.map_singleton, List.sum_singleton, heq]
      exact hroom
    · exact absurd h (hfits hlength hroom)

/-- A full frame leaves room for one full frame less. -/
theorem Codec.room_after {start length : Nat} (hroom : start + length ≤ c.maxMessageBytes)
    (hfull : c.framePayload ≤ length) :
    (c.maxMessageBytes - (start + length)) / c.framePayload + 1 ≤ (c.maxMessageBytes - start) / c.framePayload := by
  rw [← Nat.add_div_right _ c.frame_pos]
  exact Nat.div_le_div_right (by omega)

/-- A full frame takes its part of the room, and the rest of the run has what is left. -/
theorem Bounded.cons {start length : Nat} {header payload : Bytes} {log : List Round}
    {result : Except GoError Message} (hlength : leNat (header.take 3) = length)
    (hroom : start + length ≤ c.maxMessageBytes) (heq : payload.length = length) (hfull : c.framePayload ≤ length)
    (hlog : log ≠ []) (h : Bounded c (start + length) log result) :
    Bounded c start (⟨start, header, start + length, payload⟩ :: log) result := by
  refine ⟨?_, ?_, ?_, ?_⟩
  · rw [List.length_cons]
    exact Nat.succ_le_succ (h.headers.trans (Codec.room_after hroom hfull))
  · rw [List.map_cons, List.sum_cons, heq, ← Nat.add_assoc]
    exact h.payload
  · exact List.forall_mem_cons.2 ⟨hroom, h.held⟩
  · refine List.forall_mem_cons.2 ⟨?_, fun r hr hexceeds => ?_⟩
    · rintro ⟨-, hlt⟩
      subst hlength
      exact absurd hlt (Nat.not_lt.2 hroom)
    · obtain ⟨hlast, hrest⟩ := h.refused r hr hexceeds
      exact ⟨by rw [List.getLast?_cons_of_ne_nil hlog, hlast], hrest⟩

/-- The room that is left for full frames bounds the rounds, so the loop returns. -/
theorem Codec.rounds_bounded (c : Codec) (S : Source σ) (n : Nat) (s : σ) (m : Message) (expected : UInt8)
    (hm : m.payload.length ≤ c.maxMessageBytes)
    (hn : (c.maxMessageBytes - m.payload.length) / c.framePayload < n) :
    ∃ log s' result, c.rounds S n s m expected = (log, s', some result) ∧ log ≠ [] ∧
      Bounded c m.payload.length log result := by
  induction n generalizing s m expected with
  | zero => cases hn
  | succ n ih =>
    have hspec := c.round_spec S s m expected
    rcases hround : c.round S s m expected with ⟨r, s₁, done⟩
    rw [hround] at hspec
    cases done with
    | done result =>
      exact ⟨[r], s₁, result, Codec.rounds_done hround, nofun, Rounded.bounded hspec hm⟩
    | more m' expected' =>
      cases hspec with
      | @more header payload length _ _ hlength hroom heq hfull hm' =>
        have hn' : (c.maxMessageBytes - m'.payload.length) / c.framePayload < n := by
          rw [hm']
          exact Nat.lt_of_lt_of_le (Codec.room_after hroom hfull) (Nat.le_of_lt_succ hn)
        obtain ⟨log, s', result, hrun, hlog, hbounded⟩ := ih s₁ m' expected' (hm' ▸ hroom) hn'
        refine ⟨_ :: log, s', result, ?_, List.cons_ne_nil _ _, .cons hlength hroom heq hfull hlog (hm' ▸ hbounded)⟩
        rw [Codec.rounds_more hround, hrun]

/-- The rounds that `readMessage` allows are enough: what it returns is what a round returned. -/
theorem Codec.readMessage_rounds (c : Codec) (r : Reader) :
    ∃ log r' result, c.rounds Reader.source c.roundLimit r {} 0 = (log, r', some result) ∧
      c.readMessage r = (r', result) := by
  obtain ⟨log, r', result, hrun, -⟩ := c.rounds_bounded Reader.source c.roundLimit r {} 0 (Nat.zero_le _)
    (Nat.lt_succ_self _)
  refine ⟨log, r', result, hrun, ?_⟩
  rw [Codec.readMessage, hrun]

/-- A run that returned is not changed by rounds that are left. -/
theorem Codec.rounds_mono {n k : Nat} {s : σ} {m : Message} {expected : UInt8}
    (h : (c.rounds S n s m expected).2.2 ≠ none) (hk : n ≤ k) :
    c.rounds S k s m expected = c.rounds S n s m expected := by
  induction n generalizing s m expected k with
  | zero => exact absurd rfl h
  | succ n ih =>
    obtain ⟨k, rfl⟩ : ∃ j, k = j + 1 := ⟨k - 1, by omega⟩
    rcases hround : c.round S s m expected with ⟨r, s₁, result | ⟨m', expected'⟩⟩
    · rw [Codec.rounds_done hround, Codec.rounds_done hround]
    · rw [Codec.rounds_more hround] at h
      rw [Codec.rounds_more hround, Codec.rounds_more hround, ih h (Nat.le_of_succ_le_succ hk)]

/-! ## The log is what was read -/

theorem Codec.round_recorded (s : σ) (b : Bytes) (m : Message) (expected : UInt8) :
    c.round S.recorded (s, b) m expected =
      ((c.round S s m expected).1, ((c.round S s m expected).2.1, b ++ (c.round S s m expected).1.taken),
        (c.round S s m expected).2.2) := by
  unfold Codec.round
  simp only [Source.readFull_recorded]
  generalize S.readFull s headerBytes = r
  obtain ⟨s₁, header, err⟩ := r
  cases err with
  | some e => simp only [Round.taken, List.append_nil]
  | none =>
    simp only
    generalize S.readFull s₁ (leNat (header.take 3)) = p
    obtain ⟨s₂, payload, err₂⟩ := p
    cases err₂ <;> simp only <;> split_ifs <;> simp only [Round.taken, List.append_nil, List.append_assoc]

/-- Nothing is taken from the stream but what the log has. -/
theorem Codec.rounds_recorded (n : Nat) (s : σ) (b : Bytes) (m : Message) (expected : UInt8) :
    c.rounds S.recorded n (s, b) m expected =
      ((c.rounds S n s m expected).1,
        ((c.rounds S n s m expected).2.1, b ++ (c.rounds S n s m expected).1.flatMap Round.taken),
        (c.rounds S n s m expected).2.2) := by
  induction n generalizing s b m expected with
  | zero =>
    change ([], (s, b), none) = ([], (s, b ++ []), none)
    rw [List.append_nil]
  | succ n ih =>
    have hrecorded := c.round_recorded (S := S) s b m expected
    rcases hround : c.round S s m expected with ⟨r, s₁, result | ⟨m', expected'⟩⟩
    · rw [hround] at hrecorded
      rw [Codec.rounds_done hround, Codec.rounds_done hrecorded, List.flatMap_singleton]
    · rw [hround] at hrecorded
      rw [Codec.rounds_more hround, Codec.rounds_more hrecorded, ih, List.flatMap_cons, List.append_assoc]

end Loop

/-! ## Every stream -/

/-- Whatever the stream delivers, `ReadMessage` returns after at most `⌊maxMessageBytes / framePayload⌋ + 1` rounds,
each with one header. It reads at most `maxMessageBytes` of payload, and never holds more; a frame that would exceed
this is refused with none of its payload read. All that is taken from the stream is in the log. -/
theorem readMessage_within_bounds {σ : Type} (S : Source σ) (s : σ) {maxMessageBytes framePayload : Int64} {c : Codec}
    (h : newCodec maxMessageBytes framePayload = .ok c) :
    ∃ log s' result,
      (∀ n : Nat, maxMessageBytes.toInt / framePayload.toInt < n → c.rounds S n s {} 0 = (log, s', some result)) ∧
      (∀ n : Nat, maxMessageBytes.toInt / framePayload.toInt < n →
        c.rounds S.recorded n (s, []) {} 0 = (log, (s', log.flatMap Round.taken), some result)) ∧
      log.length ≤ maxMessageBytes.toInt / framePayload.toInt + 1 ∧
      (log.map fun r => r.payload.length).sum ≤ maxMessageBytes.toInt ∧
      (∀ r ∈ log, r.held ≤ maxMessageBytes.toInt) ∧
      ∀ r ∈ log, r.header.length = headerBytes → maxMessageBytes.toInt < r.start + r.length →
        log.getLast? = some r ∧ r.payload = [] ∧
          (result = .error errMessageTooLarge ∨ ∃ got want, result = .error (errSequence got want)) := by
  obtain ⟨hmax, hframe⟩ := newCodec_ok h
  have hdiv : maxMessageBytes.toInt / framePayload.toInt = (c.maxMessageBytes / c.framePayload : Nat) := by
    rw [← hmax, ← hframe]
    rfl
  obtain ⟨log, s', result, hrun, -, hbounded⟩ := c.rounds_bounded S (c.maxMessageBytes / c.framePayload + 1) s {} 0
    (Nat.zero_le _) (Nat.lt_succ_self _)
  have hall : ∀ n : Nat, maxMessageBytes.toInt / framePayload.toInt < n →
      c.rounds S n s {} 0 = (log, s', some result) := by
    intro n hn
    rw [Codec.rounds_mono (by rw [hrun]; exact nofun) (by omega : c.maxMessageBytes / c.framePayload + 1 ≤ n), hrun]
  refine ⟨log, s', result, hall, fun n hn => ?_, ?_, ?_, fun r hr => ?_, fun r hr hheader hlt => ?_⟩
  · rw [Codec.rounds_recorded, hall n hn, List.nil_append]
  · have hheaders : log.length ≤ c.maxMessageBytes / c.framePayload + 1 := hbounded.headers
    omega
  · have hpayload : 0 + (log.map fun r => r.payload.length).sum ≤ c.maxMessageBytes := hbounded.payload
    omega
  · have hheld := hbounded.held r hr
    omega
  · exact hbounded.refused r hr ⟨hheader, by omega⟩

/-- A stream without end: frames of three bytes, numbered from 0 on. The state is the place in it. -/
def endless : Source Nat where
  read i n := (i + n, (List.range n).map fun j =>
    if (i + j) % 7 = 0 then 3 else if (i + j) % 7 = 3 then UInt8.ofNat ((i + j) / 7) else 0, none)
  length_le i n _ := by simp
  delivers i n hn _ := by simpa using hn

/-- With room for seven bytes the third frame of three is refused, after its header. -/
theorem readMessage_within_bounds_endless :
    ∃ c log, newCodec 7 3 = .ok c ∧ log.length ≤ 3 ∧
      ∀ n : Nat, 2 < n → c.rounds endless n 0 {} 0 = (log, 18, some (.error errMessageTooLarge)) := by
  obtain ⟨c, hc, hthird⟩ : ∃ c, newCodec 7 3 = .ok c ∧
      (c.rounds endless 3 0 {} 0).2 = (18, some (.error errMessageTooLarge)) := ⟨_, rfl, rfl⟩
  obtain ⟨log, s', result, hall, -, hlength, -⟩ := readMessage_within_bounds endless 0 hc
  have hdiv : (7 : Int64).toInt / (3 : Int64).toInt = 2 := by decide
  rw [hdiv] at hall hlength
  rw [hall 3 (by decide)] at hthird
  cases hthird
  exact ⟨c, log, hc, by omega, fun n hn => hall n (by omega)⟩

end Accelerator.Protocol
