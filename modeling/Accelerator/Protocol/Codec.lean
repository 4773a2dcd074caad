/-
The packet codec (`protocol/mysql/codec.go`): messages are cut into frames of a fixed size, the last
one shorter than the others and perhaps empty, each with its length and sequence number in front.
Readers and writers may split what passes through them in any way.
-/
import Accelerator.Upstream.Types
import Accelerator.Wire.Endian

namespace Accelerator.Protocol

open Strings Upstream Wire

def headerBytes : Nat := 4
def maxFramePayload : Nat := 2 ^ 24 - 1

/-! ## Errors -/

def errEOF : GoError := errorsNew "EOF"
def errUnexpectedEOF : GoError := errorsNew "unexpected EOF"
def errShortWrite : GoError := errorsNew "short write"
def errMessageTooLarge : GoError := errorsNew "mysql message exceeds configured limit"
def errInvalidCodec : GoError := errorsNew "invalid mysql codec limits"

/-- `fmt.Errorf("%w: got %d want %d", ErrSequence, got, want)`. -/
def errSequence (got want : UInt8) : GoError :=
  errorsNew s!"mysql packet sequence mismatch: got {got} want {want}"

/-! ## Readers and writers -/

/-- An `io.Reader` over states of any kind: a call delivers bytes, not more than were asked for, perhaps with an
error. Without an error it delivers a byte at least. -/
structure Source (σ : Type) where
  read : σ → Nat → σ × Bytes × Option GoError
  length_le : ∀ s n, 0 < n → (read s n).2.1.length ≤ n
  delivers : ∀ s n, 0 < n → (read s n).2.2 = none → 0 < (read s n).2.1.length

namespace Source

variable {σ : Type}

/-- The loop of `io.ReadAtLeast`. Every round delivers a byte or is the last one, so that `n` rounds are enough. -/
def fill (S : Source σ) : Nat → σ → Nat → Bytes → σ × Bytes × Option GoError
  | 0, s, _, got => (s, got, none)
  | rounds + 1, s, n, got =>
    if got.length < n then
      let r := S.read s (n - got.length)
      let got := got ++ r.2.1
      match r.2.2 with
      | none => fill S rounds r.1 n got
      | some e =>
        (r.1, got, if n ≤ got.length then none else some (if e = errEOF ∧ got ≠ [] then errUnexpectedEOF else e))
    else (s, got, none)

/-- `io.ReadFull` into a buffer of `n` bytes: the bytes that were read into it, and the error. -/
def readFull (S : Source σ) (s : σ) (n : Nat) : σ × Bytes × Option GoError := S.fill n s n []

end Source

/-- A reader: the bytes to come, and what each call of `Read` does. It fails, or it delivers that many bytes, at least
one and not more than were asked for. -/
structure Reader where
  data : Bytes
  plan : Nat → Except GoError Nat
  calls : Nat

def Reader.read (r : Reader) (n : Nat) : Reader × Bytes × Option GoError :=
  match r.plan r.calls with
  | .error e => ({ r with calls := r.calls + 1 }, [], some e)
  | .ok k =>
    if r.data = [] then ({ r with calls := r.calls + 1 }, [], some errEOF)
    else
      let m := max 1 (min k n)
      ({ r with data := r.data.drop m, calls := r.calls + 1 }, r.data.take m, none)

theorem Reader.read_spec (r : Reader) {n : Nat} (hn : 0 < n) :
    (r.read n).2.1.length ≤ n ∧ ((r.read n).2.2 = none → 0 < (r.read n).2.1.length) := by
  unfold Reader.read
  cases r.plan r.calls with
  | error e => exact ⟨Nat.zero_le n, nofun⟩
  | ok k =>
    simp only
    split_ifs with hdata
    · exact ⟨Nat.zero_le n, nofun⟩
    · have hpos : 0 < r.data.length := List.length_pos_of_ne_nil hdata
      rw [List.length_take]
      omega

/-- A reader is a stream. -/
def Reader.source : Source Reader where
  read := Reader.read
  length_le r _ hn := (r.read_spec hn).1
  delivers r _ hn := (r.read_spec hn).2

/-- An `io.Writer`: the bytes it took, and what each call of `Write` does. It fails, or it takes that
many bytes. -/
structure Writer where
  written : Bytes
  plan : Nat → Except GoError Nat
  calls : Nat

def Writer.write (w : Writer) (data : Bytes) : Writer × Except GoError Nat :=
  match w.plan w.calls with
  | .error e => ({ w with calls := w.calls + 1 }, .error e)
  | .ok k =>
    ({ w with written := w.written ++ data.take k, calls := w.calls + 1 }, .ok (min k data.length))

/-- The loop of `writeAll`. Every round takes a byte or is the last one. -/
def Writer.drain : Nat → Writer → Bytes → Writer × Option GoError
  | 0, w, _ => (w, none)
  | rounds + 1, w, data =>
    if data = [] then (w, none)
    else
      match w.write data with
      | (w, .error e) => (w, some e)
      | (w, .ok 0) => (w, some errShortWrite)
      | (w, .ok taken) => drain rounds w (data.drop taken)

def Writer.writeAll (w : Writer) (data : Bytes) : Writer × Option GoError := Writer.drain data.length w data

/-! ## The codec -/

/-- One logical message, assembled from frames. -/
structure Message where
  sequence : UInt8 := 0
  nextSequence : UInt8 := 0
  frames : Nat := 0
  payload : Bytes := []
  deriving DecidableEq, Repr

/-- `Codec`, with the limits that `newCodec` checks. -/
structure Codec where
  maxMessageBytes : Nat
  framePayload : Nat
  max_pos : 0 < maxMessageBytes
  max_lt : maxMessageBytes < 2 ^ 63
  frame_pos : 0 < framePayload
  frame_le : framePayload ≤ maxFramePayload

def newCodec (maxMessageBytes framePayload : Int64) : Except GoError Codec :=
  if h : maxMessageBytes.toInt ≤ 0 ∨ framePayload.toInt ≤ 0 ∨ framePayload.toInt > maxFramePayload then
    .error errInvalidCodec
  else
    .ok {
      maxMessageBytes := maxMessageBytes.toInt.toNat
      framePayload := framePayload.toInt.toNat
      max_pos := by omega
      max_lt := by have := maxMessageBytes.toInt_lt; omega
      frame_pos := by omega
      frame_le := by omega }

/-- `NewCodec`. -/
def Codec.new (maxMessageBytes : Int64) : Except GoError Codec := newCodec maxMessageBytes (.ofNat maxFramePayload)

/-- What a round of `ReadMessage` did: the payload held when it began, the header, the payload held after room was
made for more, and what was read into that room. -/
structure Round where
  start : Nat
  header : Bytes
  held : Nat
  payload : Bytes
  deriving DecidableEq, Repr

/-- A round returns, or the loop goes on. -/
inductive RoundEnd where
  | done (result : Except GoError Message)
  | more (message : Message) (expected : UInt8)

section Loop

variable {σ : Type}

/-- The body of the loop of `ReadMessage`. -/
def Codec.round (c : Codec) (S : Source σ) (s : σ) (message : Message) (expected : UInt8) : Round × σ × RoundEnd :=
  let start := message.payload.length
  let r := S.readFull s headerBytes
  let header := r.2.1
  match r.2.2 with
  | some e => (⟨start, header, start, []⟩, r.1, .done (.error e))
  | none =>
    let length := leNat (header.take 3)
    let sequence := header.getD 3 0
    let expected := if message.frames = 0 then sequence else expected
    let message := if message.frames = 0 then { message with sequence } else message
    if sequence ≠ expected then (⟨start, header, start, []⟩, r.1, .done (.error (errSequence sequence expected)))
    else if (length : Int) > c.maxMessageBytes - start then
      (⟨start, header, start, []⟩, r.1, .done (.error errMessageTooLarge))
    else
      let p := S.readFull r.1 length
      let round := ⟨start, header, start + length, p.2.1⟩
      match p.2.2 with
      | some e => (round, p.1, .done (.error e))
      | none =>
        let message := { message with payload := message.payload ++ p.2.1, frames := message.frames + 1 }
        let expected := expected + 1
        if length < c.framePayload then (round, p.1, .done (.ok { message with nextSequence := expected }))
        else (round, p.1, .more message expected)

/-- The rounds, with their log. Without a result the loop is still going on. -/
def Codec.rounds (c : Codec) (S : Source σ) : Nat → σ → Message → UInt8 → List Round × σ × Option (Except GoError Message)
  | 0, s, _, _ => ([], s, none)
  | n + 1, s, message, expected =>
    match c.round S s message expected with
    | (r, s, .done result) => ([r], s, some result)
    | (r, s, .more message expected) =>
      let rest := rounds c S n s message expected
      (r :: rest.1, rest.2)

end Loop

/-- The rounds that the room for full frames allows. -/
def Codec.roundLimit (c : Codec) : Nat := c.maxMessageBytes / c.framePayload + 1

/-- A round that does not end the loop takes a full frame, so that the rounds never run out. -/
def Codec.readMessage (c : Codec) (r : Reader) : Reader × Except GoError Message :=
  match c.rounds Reader.source c.roundLimit r {} 0 with
  | (_, r, some result) => (r, result)
  | (_, r, none) => (r, .error errEOF)

def writeFrame (w : Writer) (sequence : UInt8) (payload : Bytes) : Writer × Option GoError :=
  if payload.length > maxFramePayload then (w, some errMessageTooLarge)
  else
    let header := (leBytes headerBytes payload.length).set 3 sequence
    match w.writeAll header with
    | (w, some e) => (w, some e)
    | (w, none) => w.writeAll payload

/-- The frame after the loop of `WriteMessage`. -/
def writeLast (w : Writer) (sequence : UInt8) (remaining : Bytes) : Writer × UInt8 × Option GoError :=
  match writeFrame w sequence remaining with
  | (w, some e) => (w, sequence, some e)
  | (w, none) => (w, sequence + 1, none)

/-- The loop of `WriteMessage`. A frame takes a byte at least, so that the rounds are enough. -/
def Codec.writeFrames (c : Codec) : Nat → Writer → UInt8 → Bytes → Writer × UInt8 × Option GoError
  | 0, w, sequence, remaining => writeLast w sequence remaining
  | rounds + 1, w, sequence, remaining =>
    if remaining.length ≥ c.framePayload then
      match writeFrame w sequence (remaining.take c.framePayload) with
      | (w, some e) => (w, sequence, some e)
      | (w, none) => writeFrames c rounds w (sequence + 1) (remaining.drop c.framePayload)
    else writeLast w sequence remaining

def Codec.writeMessage (c : Codec) (w : Writer) (sequence : UInt8) (payload : Bytes) :
    Writer × UInt8 × Option GoError :=
  if payload.length > c.maxMessageBytes then (w, sequence, some errMessageTooLarge)
  else c.writeFrames payload.length w sequence payload

/-! ## Streams that do not fail -/

/-- No call of `Read` fails before the data ends. -/
def Reader.Delivers (r : Reader) : Prop := ∀ k, ∃ n, r.plan k = .ok n

/-- No call of `Write` fails, and each takes a byte at least. -/
def Writer.Accepts (w : Writer) : Prop := ∀ k, ∃ n, 0 < n ∧ w.plan k = .ok n

section Streams

variable {r r' : Reader} {w : Writer} {n : Nat} {b rest g : Bytes}

theorem Reader.fill_delivers (hr : r.Delivers) (rounds : Nat) (hd : r.data = b ++ rest)
    (hn : g.length + b.length = n) (hk : b.length ≤ rounds) :
    ∃ calls, source.fill rounds r n g = ({ r with data := rest, calls }, g ++ b, none) := by
  induction rounds generalizing r b g with
  | zero =>
    obtain rfl : b = [] := List.eq_nil_of_length_eq_zero (by omega)
    obtain rfl : r.data = rest := hd
    exact ⟨r.calls, by simp [Source.fill]⟩
  | succ rounds ih =>
    by_cases hb : b = []
    · subst hb
      obtain rfl : r.data = rest := hd
      simp only [List.length_nil, Nat.add_zero] at hn
      exact ⟨r.calls, by simp [Source.fill, hn]⟩
    · -- one call delivers a first part of what is missing
      have hpos : 0 < b.length := List.length_pos_of_ne_nil hb
      obtain ⟨k, hplan⟩ := hr r.calls
      have hne : r.data ≠ [] := by rw [hd]; simp [hb]
      have hlt : g.length < n := by omega
      generalize hm : max 1 (min k (n - g.length)) = m
      have hmle : m ≤ b.length := by omega
      have hm1 : 0 < m := by omega
      have hread : source.read r (n - g.length) =
          ({ r with data := b.drop m ++ rest, calls := r.calls + 1 }, b.take m, none) := by
        simp only [source, Reader.read, hplan, hne, if_false, hm]
        rw [hd, List.take_append_of_le_length hmle, List.drop_append_of_le_length hmle]
      obtain ⟨calls, hih⟩ := ih (r := { r with data := b.drop m ++ rest, calls := r.calls + 1 })
        (b := b.drop m) (g := g ++ b.take m) hr rfl (by simp; omega) (by simp; omega)
      refine ⟨calls, ?_⟩
      simp only [Source.fill, hlt, if_true, hread, hih, List.append_assoc, List.take_append_drop]

/-- A buffer is filled with what comes first, however the reader splits it. -/
theorem Reader.readFull_delivers (hr : r.Delivers) (hd : r.data = b ++ rest) (hb : b.length = n) :
    ∃ calls, source.readFull r n = ({ r with data := rest, calls }, b, none) := by
  obtain ⟨calls, h⟩ := Reader.fill_delivers (g := []) hr n hd (by simpa using hb) (by omega)
  exact ⟨calls, h⟩

theorem Reader.fill_ok {rounds : Nat} (h : source.fill rounds r n g = (r', b, none)) (hn : n - g.length ≤ rounds)
    (hle : g.length ≤ n) : b.length = n ∧ ∃ chunk, b = g ++ chunk ∧ r.data = chunk ++ r'.data := by
  induction rounds generalizing r g with
  | zero =>
    simp only [Source.fill, Prod.mk.injEq, and_true] at h
    obtain ⟨rfl, rfl⟩ := h
    exact ⟨by omega, [], by simp, by simp⟩
  | succ rounds ih =>
    unfold Source.fill at h
    split at h
    · rename_i hlt
      cases hplan : r.plan r.calls with
      | error e => simp [source, Reader.read, hplan, Nat.not_le.2 hlt] at h
      | ok k =>
        by_cases hne : r.data = []
        · simp [source, Reader.read, hplan, hne, Nat.not_le.2 hlt] at h
        · generalize hm : max 1 (min k (n - g.length)) = m
          have hpos : 0 < r.data.length := List.length_pos_of_ne_nil hne
          simp only [source, Reader.read, hplan, hne, if_false, hm] at h
          obtain ⟨hlen, chunk, rfl, hdata⟩ := ih h (by simp; omega) (by simp; omega)
          refine ⟨hlen, r.data.take m ++ chunk, by simp, ?_⟩
          rw [List.append_assoc, ← hdata, List.take_append_drop]
    · rename_i hge
      simp only [Prod.mk.injEq, and_true] at h
      obtain ⟨rfl, rfl⟩ := h
      exact ⟨by omega, [], by simp, by simp⟩

/-- What a filled buffer holds was taken from the front of the stream. -/
theorem Reader.readFull_ok (h : source.readFull r n = (r', b, none)) : b.length = n ∧ r.data = b ++ r'.data := by
  obtain ⟨hlen, chunk, rfl, hdata⟩ := Reader.fill_ok h (by simp) (by simp)
  exact ⟨hlen, hdata⟩

theorem Writer.drain_accepts (hw : w.Accepts) (rounds : Nat) (hk : b.length ≤ rounds) :
    ∃ calls, Writer.drain rounds w b = ({ w with written := w.written ++ b, calls }, none) := by
  induction rounds generalizing w b with
  | zero =>
    obtain rfl : b = [] := List.eq_nil_of_length_eq_zero (by omega)
    exact ⟨w.calls, by simp [Writer.drain]⟩
  | succ rounds ih =>
    by_cases hb : b = []
    · exact ⟨w.calls, by simp [Writer.drain, hb]⟩
    · have hpos : 0 < b.length := List.length_pos_of_ne_nil hb
      obtain ⟨k, hk0, hplan⟩ := hw w.calls
      obtain ⟨m, hm⟩ : ∃ m, min k b.length = m + 1 := ⟨min k b.length - 1, by omega⟩
      have htake : b.take k = b.take (m + 1) := by rw [← hm, List.take_eq_take_min]
      obtain ⟨calls, hih⟩ := ih (w := { w with written := w.written ++ b.take (m + 1), calls := w.calls + 1 })
        (b := b.drop (m + 1)) hw (by simp; omega)
      refine ⟨calls, ?_⟩
      simp only [Writer.drain, hb, if_false, Writer.write, hplan, hm, htake, hih, List.append_assoc,
        List.take_append_drop]

/-- Everything is written, however the writer splits it. -/
theorem Writer.writeAll_accepts (hw : w.Accepts) (b : Bytes) :
    ∃ calls, w.writeAll b = ({ w with written := w.written ++ b, calls }, none) :=
  Writer.drain_accepts hw b.length le_rfl

end Streams

/-! ## Frames -/

/-- A frame on the wire. -/
def frame (sequence : UInt8) (payload : Bytes) : Bytes := leBytes 3 payload.length ++ sequence :: payload

/-- A message on the wire: `q` full frames and the last one. -/
def frames (size : Nat) : Nat → UInt8 → Bytes → Bytes
  | 0, sequence, payload => frame sequence payload
  | q + 1, sequence, payload =>
    frame sequence (payload.take size) ++ frames size q (sequence + 1) (payload.drop size)

/-- The message after one more frame. -/
def Message.add (m : Message) (sequence : UInt8) (chunk : Bytes) : Message where
  sequence := if m.frames = 0 then sequence else m.sequence
  nextSequence := m.nextSequence
  frames := m.frames + 1
  payload := m.payload ++ chunk

theorem sequence_add_succ (sequence : UInt8) (n : Nat) :
    sequence + 1 + UInt8.ofNat n = sequence + UInt8.ofNat (n + 1) := by
  rw [UInt8.ofNat_add, UInt8.add_assoc, UInt8.add_comm 1]
  rfl

section Frames

variable {c : Codec} {w : Writer} {r r' : Reader} {sequence expected : UInt8} {payload chunk rest : Bytes}
  {m m' : Message} {q : Nat}

theorem writeFrame_accepts (hw : w.Accepts) (sequence : UInt8) (payload : Bytes)
    (hp : payload.length ≤ maxFramePayload) :
    ∃ calls, writeFrame w sequence payload =
      ({ w with written := w.written ++ frame sequence payload, calls }, none) := by
  have hheader : (leBytes headerBytes payload.length).set 3 sequence = leBytes 3 payload.length ++ [sequence] := by
    simp [headerBytes, leBytes]
  obtain ⟨k, hk⟩ := Writer.writeAll_accepts hw (leBytes 3 payload.length ++ [sequence])
  obtain ⟨calls, hcalls⟩ := Writer.writeAll_accepts
    (w := { w with written := w.written ++ (leBytes 3 payload.length ++ [sequence]), calls := k }) hw payload
  refine ⟨calls, ?_⟩
  rw [writeFrame, if_neg (Nat.not_lt.2 hp)]
  simp only [hheader, hk, hcalls]
  simp [frame]

/-- The writing loop writes the frames of what is left. -/
theorem Codec.writeFrames_accepts (hw : w.Accepts) (rounds : Nat) (sequence : UInt8)
    (hp : payload.length ≤ rounds) (hq : payload.length / c.framePayload = q) :
    ∃ calls, c.writeFrames rounds w sequence payload =
      ({ w with written := w.written ++ frames c.framePayload q sequence payload, calls },
        sequence + UInt8.ofNat (q + 1), none) := by
  have hle := c.frame_le
  induction rounds generalizing w sequence payload q with
  | zero =>
    obtain rfl : payload = [] := List.eq_nil_of_length_eq_zero (by omega)
    obtain rfl : 0 = q := by simpa using hq
    obtain ⟨calls, h⟩ := writeFrame_accepts hw sequence [] (Nat.zero_le _)
    exact ⟨calls, by simp [Codec.writeFrames, writeLast, h, frames]⟩
  | succ rounds ih =>
    by_cases hfull : c.framePayload ≤ payload.length
    · have hpos := c.frame_pos
      obtain ⟨q, rfl⟩ : ∃ q', q = q' + 1 := ⟨_, by rw [← hq, Nat.div_eq_sub_div hpos hfull]⟩
      have hq' : (payload.drop c.framePayload).length / c.framePayload = q := by
        rw [Nat.div_eq_sub_div hpos hfull] at hq
        simpa using hq
      obtain ⟨k, h⟩ := writeFrame_accepts hw sequence (payload.take c.framePayload) (by simp; omega)
      obtain ⟨calls, hih⟩ := ih
        (w := { w with written := w.written ++ frame sequence (payload.take c.framePayload), calls := k })
        hw (sequence + 1) (by simp; omega) hq'
      refine ⟨calls, ?_⟩
      simp only [Codec.writeFrames, ge_iff_le, hfull, if_true, h, hih, frames, List.append_assoc, sequence_add_succ]
    · obtain rfl : 0 = q := by rw [← hq, Nat.div_eq_of_lt (by omega)]
      obtain ⟨calls, h⟩ := writeFrame_accepts hw sequence payload (by omega)
      exact ⟨calls, by simp [Codec.writeFrames, writeLast, h, frames, hfull]⟩

theorem Codec.rounds_done {σ : Type} {S : Source σ} {n : Nat} {s s' : σ} {m : Message} {expected : UInt8} {x : Round}
    {result : Except GoError Message} (h : c.round S s m expected = (x, s', .done result)) :
    c.rounds S (n + 1) s m expected = ([x], s', some result) := by
  rw [Codec.rounds, h]

theorem Codec.rounds_more {σ : Type} {S : Source σ} {n : Nat} {s s' : σ} {m m' : Message} {expected expected' : UInt8}
    {x : Round} (h : c.round S s m expected = (x, s', .more m' expected')) :
    c.rounds S (n + 1) s m expected =
      (x :: (c.rounds S n s' m' expected').1, (c.rounds S n s' m' expected').2) := by
  rw [Codec.rounds, h]

/-- How a round ends that took a frame. -/
def Codec.after (c : Codec) (m : Message) (sequence : UInt8) (chunk : Bytes) : RoundEnd :=
  if chunk.length < c.framePayload then .done (.ok { m.add sequence chunk with nextSequence := sequence + 1 })
  else .more (m.add sequence chunk) (sequence + 1)

/-- One round of the reading loop takes one frame. -/
theorem Codec.round_frame (hr : r.Delivers) (hd : r.data = frame sequence chunk ++ rest)
    (hc : chunk.length ≤ maxFramePayload) (hm : m.payload.length + chunk.length ≤ c.maxMessageBytes)
    (he : m.frames = 0 ∨ expected = sequence) :
    ∃ x calls, c.round Reader.source r m expected = (x, { r with data := rest, calls }, c.after m sequence chunk) := by
  have hlen : leNat (leBytes 3 chunk.length) = chunk.length := by
    rw [leNat_leBytes, Nat.mod_eq_of_lt]
    exact Nat.lt_of_le_of_lt hc (by decide)
  have hsplit : r.data = (leBytes 3 chunk.length ++ [sequence]) ++ (chunk ++ rest) := by rw [hd]; simp [frame]
  obtain ⟨k, hk⟩ := Reader.readFull_delivers hr hsplit (n := headerBytes) (by simp [headerBytes])
  obtain ⟨calls, hcalls⟩ := Reader.readFull_delivers
    (r := { r with data := chunk ++ rest, calls := k }) hr rfl (rfl : chunk.length = _)
  have htake : (leBytes 3 chunk.length ++ [sequence]).take 3 = leBytes 3 chunk.length := by
    rw [List.take_append_of_le_length (by simp)]
    exact List.take_of_length_le (by simp)
  have hget : (leBytes 3 chunk.length ++ [sequence]).getD 3 0 = sequence := by simp [leBytes]
  have hroom : ¬ (chunk.length : Int) > c.maxMessageBytes - m.payload.length := by omega
  refine ⟨⟨m.payload.length, leBytes 3 chunk.length ++ [sequence], m.payload.length + chunk.length, chunk⟩, calls, ?_⟩
  simp only [Codec.round, hk, htake, hget, hlen]
  -- the first frame gives the sequence number, and every later one is checked against it
  by_cases h0 : m.frames = 0
  · simp only [h0, if_true, ne_eq, not_true_eq_false, if_false, hroom, hcalls, Codec.after, Message.add]
    split_ifs <;> rfl
  · obtain rfl := he.resolve_left h0
    simp only [h0, ne_eq, not_true_eq_false, if_false, hroom, hcalls, Codec.after, Message.add]
    split_ifs <;> rfl

/-- The reading loop takes the frames of a message, and nothing after them. -/
theorem Codec.rounds_delivers (hr : r.Delivers) (rounds : Nat)
    (hd : r.data = frames c.framePayload q sequence payload ++ rest)
    (hq : payload.length / c.framePayload = q) (hk : q < rounds)
    (hm : m.payload.length + payload.length ≤ c.maxMessageBytes) (he : m.frames = 0 ∨ expected = sequence) :
    ∃ log calls, c.rounds Reader.source rounds r m expected =
      (log, { r with data := rest, calls },
        some (.ok { sequence := if m.frames = 0 then sequence else m.sequence
                    nextSequence := sequence + UInt8.ofNat (q + 1)
                    frames := m.frames + (q + 1)
                    payload := m.payload ++ payload })) := by
  have hle := c.frame_le
  have hpos := c.frame_pos
  -- on the full frames; the last one is short, and empty if the payload fills the others
  induction q generalizing rounds r m sequence expected payload with
  | zero =>
    obtain ⟨rounds, rfl⟩ : ∃ k, rounds = k + 1 := ⟨rounds - 1, by omega⟩
    have hlt : payload.length < c.framePayload := (Nat.div_eq_zero_iff_lt hpos).1 hq
    obtain ⟨x, calls, h⟩ := Codec.round_frame hr hd (by omega) hm he
    rw [Codec.after, if_pos hlt] at h
    exact ⟨[x], calls, Codec.rounds_done h⟩
  | succ q ih =>
    obtain ⟨rounds, rfl⟩ : ∃ k, rounds = k + 1 := ⟨rounds - 1, by omega⟩
    have hfull : c.framePayload ≤ payload.length := by
      by_contra hlt
      rw [Nat.div_eq_of_lt (by omega)] at hq
      omega
    have hq' : (payload.drop c.framePayload).length / c.framePayload = q := by
      rw [Nat.div_eq_sub_div hpos hfull] at hq
      simpa using hq
    rw [frames, List.append_assoc] at hd
    obtain ⟨x, k, h⟩ := Codec.round_frame (c := c) hr hd (by simp; omega) (by simp; omega) he
    obtain ⟨log, calls, hih⟩ := ih
      (r := { r with
        data := frames c.framePayload q (sequence + 1) (payload.drop c.framePayload) ++ rest, calls := k })
      (m := m.add sequence (payload.take c.framePayload)) hr rounds rfl hq' (by omega)
      (by simp [Message.add]; omega) (.inr rfl)
    have hlast : ¬ (payload.take c.framePayload).length < c.framePayload := by simp; omega
    rw [Codec.after, if_neg hlast] at h
    refine ⟨x :: log, calls, ?_⟩
    rw [Codec.rounds_more h, hih]
    simp only [Message.add, Nat.add_eq_zero_iff, one_ne_zero, and_false, if_false, List.append_assoc,
      List.take_append_drop, sequence_add_succ]
    simp only [Prod.mk.injEq, Option.some.injEq, Except.ok.injEq, Message.mk.injEq, true_and, and_true]
    omega

/-- What a round took that did not fail. -/
theorem Codec.round_took {x : Round} {done : RoundEnd} (h : c.round Reader.source r m expected = (x, r', done))
    (hdone : ∀ e, done ≠ .done (.error e)) :
    ∃ sequence chunk, r.data = frame sequence chunk ++ r'.data ∧ (m.frames = 0 ∨ expected = sequence) ∧
      chunk.length ≤ maxFramePayload ∧ m.payload.length + chunk.length ≤ c.maxMessageBytes ∧
      done = c.after m sequence chunk := by
  unfold Codec.round at h
  rcases hheader : Reader.source.readFull r headerBytes with ⟨r₀, header, _ | e⟩
  swap
  · simp only [hheader, Prod.mk.injEq] at h
    exact absurd h.2.2.symm (hdone e)
  obtain ⟨hlen, hdata⟩ := Reader.readFull_ok hheader
  obtain ⟨a, b, d, sequence, rfl⟩ : ∃ a b d s, header = [a, b, d, s] := List.length_eq_four.1 hlen
  have htake : leBytes 3 (leNat [a, b, d]) = [a, b, d] := leBytes_leNat [a, b, d]
  have hlt : leNat [a, b, d] < 256 ^ 3 := leNat_lt [a, b, d]
  simp only [hheader, List.take_succ_cons, List.take_zero, List.getD_cons_succ, List.getD_cons_zero] at h
  -- the sequence number is the expected one, or the first
  have hexp : m.frames = 0 ∨ expected = sequence := by
    by_cases h0 : m.frames = 0
    · exact .inl h0
    · by_contra hne
      rw [if_neg h0, if_pos (fun he => hne (.inr he.symm))] at h
      exact hdone _ (congrArg (·.2.2) h).symm
  have hwant : (if m.frames = 0 then sequence else expected) = sequence := by
    by_cases h0 : m.frames = 0
    · rw [if_pos h0]
    · rw [if_neg h0, hexp.resolve_left h0]
  have hfirst : (if m.frames = 0 then { m with sequence } else m) =
      { m with sequence := if m.frames = 0 then sequence else m.sequence } := by
    split_ifs <;> rfl
  simp only [hwant, hfirst, ne_eq, not_true_eq_false, if_false] at h
  split at h
  · exact absurd (congrArg (·.2.2) h).symm (hdone _)
  rename_i hroom
  rcases hchunk : Reader.source.readFull r₀ (leNat [a, b, d]) with ⟨r₁, chunk, _ | e⟩
  swap
  · simp only [hchunk, Prod.mk.injEq] at h
    exact absurd h.2.2.symm (hdone e)
  obtain ⟨hclen, hcdata⟩ := Reader.readFull_ok hchunk
  have hframe : r.data = frame sequence chunk ++ r₁.data := by
    rw [hdata, hcdata, frame, hclen, htake]
    simp
  have hmax : chunk.length ≤ maxFramePayload := by
    rw [hclen]
    exact Nat.le_of_lt_succ hlt
  simp only [hchunk] at h
  split at h <;> rename_i hshort <;> cases h
  · exact ⟨sequence, chunk, hframe, hexp, hmax, by omega, by rw [Codec.after, hclen, if_pos hshort]; rfl⟩
  · exact ⟨sequence, chunk, hframe, hexp, hmax, by omega, by rw [Codec.after, hclen, if_neg hshort]; rfl⟩

/-- What a successful read took is the message on the wire, if no frame can be longer than a full one. -/
theorem Codec.rounds_took (hc : c.framePayload = maxFramePayload) (rounds : Nat) {log : List Round}
    (h : c.rounds Reader.source rounds r m expected = (log, r', some (.ok m'))) :
    ∃ sequence payload, (m.frames = 0 ∨ expected = sequence) ∧
      r.data = frames c.framePayload (payload.length / c.framePayload) sequence payload ++ r'.data ∧
      m'.sequence = (if m.frames = 0 then sequence else m.sequence) ∧ m'.payload = m.payload ++ payload ∧
      m'.payload.length ≤ c.maxMessageBytes := by
  have hpos := c.frame_pos
  induction rounds generalizing r m expected log with
  | zero => simp [Codec.rounds] at h
  | succ rounds ih =>
    rcases hround : c.round Reader.source r m expected with ⟨x, r₁, result | ⟨m₁, expected₁⟩⟩
    · rw [Codec.rounds_done hround] at h
      cases h
      obtain ⟨sequence, chunk, hdata, hexp, -, hroom, hafter⟩ := Codec.round_took hround nofun
      unfold Codec.after at hafter
      split at hafter
      · rename_i hshort
        cases hafter
        refine ⟨sequence, chunk, hexp, ?_, rfl, rfl, by simpa [Message.add] using hroom⟩
        rw [Nat.div_eq_of_lt hshort]
        exact hdata
      · cases hafter
    · rw [Codec.rounds_more hround] at h
      obtain ⟨sequence, chunk, hdata, hexp, hle, -, hafter⟩ := Codec.round_took hround nofun
      unfold Codec.after at hafter
      split at hafter
      · cases hafter
      · rename_i hfull
        cases hafter
        have hsize : chunk.length = c.framePayload := by omega
        obtain ⟨s', payload, hexp', hdata', hseq, hpay, hmax⟩ := ih (Prod.ext rfl (Prod.mk.inj h).2)
        obtain rfl : sequence + 1 = s' := hexp'.resolve_left (by simp [Message.add])
        refine ⟨sequence, chunk ++ payload, hexp, ?_, by simpa [Message.add] using hseq,
          by simpa [Message.add] using hpay, hmax⟩
        have hdiv : (chunk ++ payload).length / c.framePayload = payload.length / c.framePayload + 1 := by
          rw [List.length_append, hsize, Nat.add_comm, Nat.add_div_right _ hpos]
        rw [hdata, hdata', hdiv, frames, ← hsize, List.take_left, List.drop_left, List.append_assoc]

end Frames

/-! ## The round trip -/

section Messages

variable {c : Codec} {w : Writer} {r r' : Reader} {payload rest : Bytes} {m : Message}

/-- A message within the limit is written as its frames. -/
theorem Codec.writeMessage_accepts (hw : w.Accepts) (start : UInt8) (hp : payload.length ≤ c.maxMessageBytes) :
    ∃ w', c.writeMessage w start payload = (w', start + UInt8.ofNat (payload.length / c.framePayload + 1), none) ∧
      w'.written = w.written ++ frames c.framePayload (payload.length / c.framePayload) start payload ∧
      w'.Accepts := by
  obtain ⟨calls, h⟩ := Codec.writeFrames_accepts (c := c) hw payload.length start le_rfl rfl
  refine ⟨{ w with
    written := w.written ++ frames c.framePayload (payload.length / c.framePayload) start payload, calls },
    ?_, rfl, hw⟩
  rw [Codec.writeMessage, if_neg (by omega), h]

/-- The frames of a message are read back as the message. -/
theorem Codec.readMessage_delivers (hr : r.Delivers) (start : UInt8) (hp : payload.length ≤ c.maxMessageBytes)
    (hd : r.data = frames c.framePayload (payload.length / c.framePayload) start payload ++ rest) :
    ∃ r', c.readMessage r =
        (r', .ok ⟨start, start + UInt8.ofNat (payload.length / c.framePayload + 1),
          payload.length / c.framePayload + 1, payload⟩) ∧
      r'.data = rest ∧ r'.Delivers := by
  have hq : payload.length / c.framePayload < c.roundLimit := Nat.lt_succ_of_le (Nat.div_le_div_right hp)
  obtain ⟨log, calls, h⟩ := Codec.rounds_delivers (c := c) (m := {}) hr _ hd rfl hq (by simpa using hp) (.inl rfl)
  refine ⟨{ r with data := rest, calls }, ?_, rfl, hr⟩
  rw [Codec.readMessage, h]
  simp

/-- A message that was read was the result of the rounds. -/
theorem Codec.readMessage_ok (h : c.readMessage r = (r', .ok m)) :
    ∃ log, c.rounds Reader.source c.roundLimit r {} 0 = (log, r', some (.ok m)) := by
  unfold Codec.readMessage at h
  rcases hrun : c.rounds Reader.source c.roundLimit r {} 0 with ⟨log, r₁, _ | result⟩
  · rw [hrun] at h
    cases h
  · rw [hrun] at h
    cases h
    exact ⟨log, rfl⟩

theorem newCodec_ok {maxMessageBytes framePayload : Int64} (h : newCodec maxMessageBytes framePayload = .ok c) :
    (c.maxMessageBytes : Int) = maxMessageBytes.toInt ∧ (c.framePayload : Int) = framePayload.toInt := by
  unfold newCodec at h
  split at h
  · cases h
  · cases h
    simp only
    omega

end Messages

/-- What is written is read back, however writer and reader split it; and with frames of the largest
size, what was read is written as it was. -/
theorem codec_round_trip :
    (∀ (maxMessageBytes framePayload : Int64) (c : Codec), newCodec maxMessageBytes framePayload = .ok c →
      ∀ (start : UInt8) (payload rest : Bytes), payload.length ≤ maxMessageBytes.toInt →
      ∀ w : Writer, w.Accepts → ∃ (w' : Writer) (b : Bytes) (frames : Nat) (next : UInt8),
        c.writeMessage w start payload = (w', next, none) ∧ w'.written = w.written ++ b ∧
        (frames : Int) = payload.length / framePayload.toInt + 1 ∧ next = start + UInt8.ofNat frames ∧
        ∀ r : Reader, r.Delivers → r.data = b ++ rest → ∃ r',
          c.readMessage r = (r', .ok ⟨start, next, frames, payload⟩) ∧ r'.data = rest) ∧
    (∀ (maxMessageBytes : Int64) (c : Codec), Codec.new maxMessageBytes = .ok c →
      ∀ (r r' : Reader) (m : Message), c.readMessage r = (r', .ok m) →
      ∃ b, r.data = b ++ r'.data ∧ ∀ w : Writer, w.Accepts → ∃ w' next,
        c.writeMessage w m.sequence m.payload = (w', next, none) ∧ w'.written = w.written ++ b) := by
  constructor
  · intro maxMessageBytes framePayload c hc start payload rest hp w hw
    obtain ⟨hmax, hsize⟩ := newCodec_ok hc
    have hp' : payload.length ≤ c.maxMessageBytes := by omega
    obtain ⟨w', hwrite, hout, -⟩ := Codec.writeMessage_accepts hw start hp'
    refine ⟨w', _, payload.length / c.framePayload + 1, _, hwrite, hout, ?_, rfl, fun r hr hd => ?_⟩
    · rw [← hsize]
      push_cast
      rfl
    · obtain ⟨r', hread, hrest, -⟩ := Codec.readMessage_delivers hr start hp' hd
      exact ⟨r', hread, hrest⟩
  · intro maxMessageBytes c hc r r' m hread
    have hsize : c.framePayload = maxFramePayload := by
      have := (newCodec_ok hc).2
      rw [show (Int64.ofNat maxFramePayload).toInt = maxFramePayload by decide] at this
      exact_mod_cast this
    obtain ⟨log, hrun⟩ := Codec.readMessage_ok hread
    obtain ⟨sequence, payload, -, hdata, hseq, hpay, hmax⟩ := Codec.rounds_took hsize _ hrun
    simp only [if_true, List.nil_append] at hseq hpay
    refine ⟨_, hdata, fun w hw => ?_⟩
    obtain ⟨w', hwrite, hout, -⟩ := Codec.writeMessage_accepts hw sequence (hpay ▸ hmax)
    exact ⟨w', _, by rw [hseq, hpay]; exact hwrite, hout⟩

/-- A reader or writer that passes one byte at a time. -/
def bytewise : Nat → Except GoError Nat := fun _ => .ok 1

/-- Seven bytes in frames of three, from sequence number 255 on: two full frames and a short one. And
a message of one byte, read and written again. -/
theorem codec_round_trip_seven :
    (∃ c w' r', newCodec 16 3 = .ok c ∧
      c.writeMessage ⟨[], bytewise, 0⟩ 255 [1, 2, 3, 4, 5, 6, 7] = (w', 2, none) ∧
      c.readMessage ⟨w'.written ++ [9], bytewise, 0⟩ = (r', .ok ⟨255, 2, 3, [1, 2, 3, 4, 5, 6, 7]⟩) ∧
      r'.data = [9]) ∧
    ∃ c w' next, Codec.new 16 = .ok c ∧
      (c.readMessage ⟨[1, 0, 0, 7, 42, 5], bytewise, 0⟩).2 = .ok ⟨7, 8, 1, [42]⟩ ∧
      c.writeMessage ⟨[], bytewise, 0⟩ 7 [42] = (w', next, none) ∧ w'.written = [1, 0, 0, 7, 42] := by
  constructor
  · obtain ⟨c, hc⟩ : ∃ c, newCodec 16 3 = .ok c := ⟨_, rfl⟩
    obtain ⟨w', b, frames, next, hwrite, hout, hframes, hnext, hread⟩ :=
      codec_round_trip.1 16 3 c hc 255 [1, 2, 3, 4, 5, 6, 7] [9] (by decide) ⟨[], bytewise, 0⟩ fun _ =>
        ⟨1, by decide, rfl⟩
    obtain rfl : frames = 3 := by
      have h : (([1, 2, 3, 4, 5, 6, 7] : Bytes).length : Int) / (3 : Int64).toInt + 1 = 3 := by decide
      omega
    obtain ⟨r', hread, hrest⟩ := hread ⟨w'.written ++ [9], bytewise, 0⟩ (fun _ => ⟨1, rfl⟩) (by rw [hout]; rfl)
    exact ⟨c, w', r', hc, by rw [hwrite, hnext]; rfl, by rw [hread, hnext]; rfl, hrest⟩
  · obtain ⟨c, hc, hread, hleft⟩ : ∃ c, Codec.new 16 = .ok c ∧
        (c.readMessage ⟨[1, 0, 0, 7, 42, 5], bytewise, 0⟩).2 = .ok ⟨7, 8, 1, [42]⟩ ∧
        (c.readMessage ⟨[1, 0, 0, 7, 42, 5], bytewise, 0⟩).1.data = [5] := ⟨_, rfl, by decide, by decide⟩
    obtain ⟨b, hb, hwrite⟩ := codec_round_trip.2 16 c hc ⟨[1, 0, 0, 7, 42, 5], bytewise, 0⟩
      (c.readMessage ⟨[1, 0, 0, 7, 42, 5], bytewise, 0⟩).1 ⟨7, 8, 1, [42]⟩ (Prod.ext rfl hread)
    obtain ⟨w', next, hw, hout⟩ := hwrite ⟨[], bytewise, 0⟩ fun _ => ⟨1, by decide, rfl⟩
    refine ⟨c, w', next, hc, hread, hw, ?_⟩
    have hb : [1, 0, 0, 7, 42] ++ [5] = b ++ [5] := by rw [hleft] at hb; exact hb
    rw [hout, ← List.append_cancel_right hb]
    rfl

end Accelerator.Protocol
