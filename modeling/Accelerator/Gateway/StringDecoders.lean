/-
Length-encoded numbers and strings have one encoder and two decoders of strings, the cursor of the handshake
(`protocol/mysql/handshake.go`) and the reader of execute packets (`gateway/prepared.go`). Both follow the same
decoder of lists, at every position of every payload, so they accept the same strings and end in the same place.
-/
import Accelerator.Gateway.Decode
import Accelerator.Protocol.Login

namespace Accelerator.Gateway

open Strings Upstream Wire Wire.Decoder
open Protocol (ByteCursor Scan Simulates appendLengthEncodedInteger appendLengthEncodedBytes)

/-- A Go slice: its length is an `int`. -/
def IsSlice (b : Bytes) : Prop := b.length < 2 ^ 63

instance (b : Bytes) : Decidable (IsSlice b) := inferInstanceAs (Decidable (_ < _))

/-! ## Following a decoder -/

/-- A reader of payloads at a position ends as the decoder does on the bytes from there on: it fails, or it has
the value and the position after it. -/
inductive Follows {α : Type} (d : Decoder UInt8 α) (payload : Bytes) (position : Nat) : Option (α × Nat) → Prop
  | fails : d (payload.drop position) = none → Follows d payload position none
  | takes {a : α} {n : Nat} : n ≤ payload.length → d (payload.drop position) = some (a, payload.drop n) →
      Follows d payload position (some (a, n))

section Follows

variable {α β : Type} {d d' : Decoder UInt8 α} {payload : Bytes} {position : Nat} {o o' : Option (α × Nat)}

theorem Follows.unique (h : Follows d payload position o) (h' : Follows d payload position o') : o = o' := by
  cases h with
  | fails hd =>
    cases h' with
    | fails _ => rfl
    | takes _ hd' =>
      rw [hd] at hd'
      cases hd'
  | @takes a n hn hd =>
    cases h' with
    | fails hd' =>
      rw [hd] at hd'
      cases hd'
    | @takes a' n' hn' hd' =>
      rw [hd, Option.some.injEq, Prod.mk.injEq] at hd'
      have hlen := congrArg List.length hd'.2
      rw [List.length_drop, List.length_drop] at hlen
      obtain rfl : n = n' := by omega
      rw [hd'.1]

theorem Follows.congr (h : Follows d payload position o)
    (hd : d (payload.drop position) = d' (payload.drop position)) : Follows d' payload position o := by
  cases h with
  | fails hnone => exact .fails (hd ▸ hnone)
  | takes hn hsome => exact .takes hn (hd ▸ hsome)

/-- What is read behind the first value. -/
theorem Follows.after {e : α → Decoder UInt8 β} {a : α} {n : Nat} {o : Option (β × Nat)}
    (hd : d (payload.drop position) = some (a, payload.drop n)) (h : Follows (e a) payload n o) :
    Follows (d >>= e) payload position o := by
  have hstep : (d >>= e) (payload.drop position) = e a (payload.drop n) := by
    rw [bind_apply, hd]
    rfl
  cases h with
  | fails he => exact .fails (hstep.trans he)
  | takes hm he => exact .takes hm (hstep.trans he)

end Follows

/-! ## The reader of execute packets -/

section Prepared

variable {α β : Type} {payload : Bytes} {position : Nat}

/-- A reader that ends without a panic and follows a decoder. -/
def ReadsAs (d : Decoder UInt8 α) (payload : Bytes) (position : Nat) (x : Checked (α × Nat)) : Prop :=
  x ≠ .error .panic ∧ Follows d payload position x.toOption

theorem ReadsAs.reject {d : Decoder UInt8 α} (h : d (payload.drop position) = none) (s : String) :
    ReadsAs d payload position (Gateway.reject s) := ⟨nofun, .fails h⟩

theorem ReadsAs.ok {d : Decoder UInt8 α} {a : α} {n : Nat} (hn : n ≤ payload.length)
    (h : d (payload.drop position) = some (a, payload.drop n)) : ReadsAs d payload position (.ok (a, n)) :=
  ⟨nofun, .takes hn h⟩

theorem slice_drop {n : Nat} (h : n ≤ (payload.drop position).length) (hp : position ≤ payload.length) :
    (slice payload position (position + n) : Checked Bytes) = .ok ((payload.drop position).take n) := by
  rw [List.length_drop] at h
  rw [slice, if_pos (by omega), Nat.add_sub_cancel_left]

/-- One after the other: where the first reader ended, the second begins. -/
theorem ReadsAs.bind {d : Decoder UInt8 α} {e : α → Decoder UInt8 β} {x : Checked (α × Nat)}
    {f : α × Nat → Checked (β × Nat)} (hx : ReadsAs d payload position x)
    (hf : ∀ a n, n ≤ payload.length → ReadsAs (e a) payload n (f (a, n))) :
    ReadsAs (d >>= e) payload position (x >>= f) := by
  obtain ⟨hpanic, hx⟩ := hx
  rcases x with (s | _) | ⟨a, n⟩
  · cases hx with
    | fails hd =>
      refine ⟨nofun, .fails ?_⟩
      rw [bind_apply, hd]
      rfl
  · exact absurd rfl hpanic
  · cases hx with
    | takes hn hd =>
      obtain ⟨hpanic, hf⟩ := hf a n hn
      exact ⟨hpanic, hf.after hd⟩

theorem readsAs_index (hp : position < payload.length) {f : UInt8 → Checked (β × Nat)} {e : UInt8 → Decoder UInt8 β}
    (hf : ∀ first, ReadsAs (e first) payload (position + 1) (f first)) :
    ReadsAs (next >>= e) payload position (index payload position >>= f) := by
  have hindex : (index payload position : Checked UInt8) = .ok payload[position] := by rw [index, List.getElem?_eq_getElem hp]
  have hnext : next (payload.drop position) = some (payload[position], payload.drop (position + 1)) := by
    rw [List.drop_eq_getElem_cons hp]
    rfl
  obtain ⟨hpanic, hf⟩ := hf payload[position]
  rw [hindex]
  exact ⟨hpanic, hf.after hnext⟩

theorem readsAs_readLength (hp : position ≤ payload.length) (size : Nat) (truncated : String) :
    ReadsAs (readLE size) payload position (readLength payload position size truncated) := by
  unfold readLength
  have hlen : (payload.drop position).length = payload.length - position := List.length_drop
  split
  · apply ReadsAs.reject
    rw [readLE, bind_apply, take, if_neg (by omega)]
    rfl
  · rw [slice_drop (by omega) hp]
    change ReadsAs _ _ _ (.ok (littleEndian _, _))
    rw [littleEndian_eq]
    apply ReadsAs.ok
    · omega
    · rw [readLE, bind_apply, take, if_pos (by omega), List.drop_drop]
      rfl

/-- Of the bytes from 0xfb on, those that give no width begin no number. -/
theorem reserved_iff {first : UInt8} (h₁ : first ≠ 0xfc) (h₂ : first ≠ 0xfd) (h₃ : first ≠ 0xfe) :
    first ≥ 0xfb ↔ first = 0xfb ∨ first = 0xff := by
  have hlt := first.toNat_lt
  simp only [ne_eq, ge_iff_le, UInt8.le_iff_toNat_le, ← UInt8.toNat_inj, UInt8.reduceToNat] at *
  omega

theorem readsAs_lengthPrefix (hp : position ≤ payload.length) (first : UInt8) :
    ReadsAs (if first = 0xfc then readLE 2 else if first = 0xfd then readLE 3 else if first = 0xfe then readLE 8
      else if first = 0xfb ∨ first = 0xff then failure else pure first.toNat) payload position
      (lengthPrefix payload position first) := by
  unfold lengthPrefix
  split_ifs with h₁ h₂ h₃ h₄ h₅ h₅
  · exact readsAs_readLength hp ..
  · exact readsAs_readLength hp ..
  · exact readsAs_readLength hp ..
  · exact .reject rfl _
  · exact absurd ((reserved_iff h₁ h₂ h₃).2 h₄) h₅
  · exact absurd ((reserved_iff h₁ h₂ h₃).1 h₅) h₄
  · exact .ok hp rfl

theorem readsAs_readPreparedLengthEncoded (payload : Bytes) (position : Nat) :
    ReadsAs readLenencBytes payload position (readPreparedLengthEncoded payload position) := by
  unfold readPreparedLengthEncoded
  split
  · rename_i hp
    apply ReadsAs.reject
    rw [List.drop_eq_nil_of_le hp]
    rfl
  · rename_i hp
    have hlt : position < payload.length := Nat.lt_of_not_le hp
    have hassoc : readLenencBytes = next >>= fun first => (if first = 0xfc then readLE 2 else if first = 0xfd then readLE 3
        else if first = 0xfe then readLE 8 else if first = 0xfb ∨ first = 0xff then failure else pure first.toNat) >>=
          take := by
      rw [readLenencBytes, readLenencInt, bind_assoc]
    rw [hassoc]
    refine readsAs_index hlt fun first => (readsAs_lengthPrefix hlt first).bind fun length n hn => ?_
    have hlen : (payload.drop n).length = payload.length - n := List.length_drop
    simp only
    split
    · apply ReadsAs.reject
      rw [take, if_neg (by omega)]
    · rw [slice_drop (by omega) hn]
      apply ReadsAs.ok
      · omega
      · rw [take, if_pos (by omega), List.drop_drop]

end Prepared

/-! ## The cursor -/

section Cursor

variable {α β : Type}

/-- A program that leaves the data of the cursor as they are. -/
def KeepsData (m : Scan α) : Prop := ∀ c r, m c = .ok r → r.2.data = c.data

theorem KeepsData.pure (a : α) : KeepsData (Pure.pure a : Scan α) := by
  rintro c r ⟨⟩
  rfl

theorem KeepsData.bind {m : Scan α} {k : α → Scan β} (hm : KeepsData m) (hk : ∀ a, KeepsData (k a)) :
    KeepsData (m >>= k) := by
  intro c r h
  change (m c).bind (fun x => k x.1 x.2) = .ok r at h
  cases hrun : m c with
  | error e =>
    rw [hrun] at h
    cases h
  | ok x =>
    rw [hrun] at h
    exact (hk x.1 x.2 r h).trans (hm c x hrun)

theorem KeepsData.lift {x : Protocol.Ranged α} : KeepsData (liftM x : Scan α) := by
  intro c r h
  cases x with
  | error e => cases h
  | ok a =>
    cases h
    rfl

theorem keepsData_get : KeepsData (get : Scan ByteCursor) := by
  rintro c r ⟨⟩
  rfl

theorem keepsData_byte : KeepsData ByteCursor.byte := by
  intro c r h
  change (if c.remaining < 1 then pure (0, false) else liftM (index c.data c.offset : Protocol.Ranged UInt8) >>= fun value => do
    set { c with offset := c.offset + 1 }
    return (value, true) : Scan (UInt8 × Bool)) c = .ok r at h
  split_ifs at h
  · cases h
    rfl
  · cases hindex : (index c.data c.offset : Protocol.Ranged UInt8) with
    | error e =>
      rw [hindex] at h
      cases h
    | ok value =>
      rw [hindex] at h
      cases h
      rfl

theorem keepsData_bytes (length : Int) : KeepsData (ByteCursor.bytes length) := by
  intro c r h
  change (if length < 0 ∨ length > c.remaining then pure ([], false)
    else liftM (slice c.data c.offset (c.offset + length.toNat) : Protocol.Ranged Bytes) >>= fun value => do
      set { c with offset := c.offset + length.toNat }
      return (value, true) : Scan (Bytes × Bool)) c = .ok r at h
  split_ifs at h
  · cases h
    rfl
  · cases hslice : (slice c.data c.offset (c.offset + length.toNat) : Protocol.Ranged Bytes) with
    | error e =>
      rw [hslice] at h
      cases h
    | ok value =>
      rw [hslice] at h
      cases h
      rfl

theorem keepsData_lenEncodedInt : KeepsData ByteCursor.lenEncodedInt := by
  refine keepsData_byte.bind fun x => ?_
  simp only
  split_ifs
  · exact .pure _
  · refine (keepsData_bytes 2).bind fun x => ?_
    split_ifs <;> exact .pure _
  · refine (keepsData_bytes 3).bind fun x => ?_
    split_ifs
    · exact .pure _
    · exact KeepsData.lift.bind fun _ => KeepsData.lift.bind fun _ => KeepsData.lift.bind fun _ => .pure _
  · refine (keepsData_bytes 8).bind fun x => ?_
    split_ifs <;> exact .pure _
  · exact .pure _
  · exact .pure _

theorem keepsData_lenEncodedBytes : KeepsData ByteCursor.lenEncodedBytes := by
  refine keepsData_lenEncodedInt.bind fun x => ?_
  simp only
  split_ifs
  · exact .pure _
  · refine keepsData_get.bind fun c => ?_
    split_ifs
    · exact .pure _
    · refine (keepsData_bytes _).bind fun x => ?_
      split_ifs <;> exact .pure _

/-- What a caller of a method with an error sees: nothing, or the value and the offset after it. -/
def decoded (r : (α × Option GoError) × ByteCursor) : Option (α × Nat) :=
  if r.1.2 = none then some (r.1.1, r.2.offset) else none

/-- A method that simulates a decoder follows it. -/
theorem follows_of_simulates {m : Scan (α × Option GoError)} {d : Decoder UInt8 α}
    (hm : Simulates Protocol.Checked m d) (hdata : KeepsData m) {c : ByteCursor} (hc : c.Valid) :
    ∃ r, m c = .ok r ∧ Follows d c.data c.offset (decoded r) := by
  obtain ⟨b, c', hrun, hc', hchecked, hrest⟩ := hm c hc
  have hsame : c'.data = c.data := hdata c _ hrun
  refine ⟨(b, c'), hrun, ?_⟩
  cases hd : d c.rest with
  | none =>
    rw [hd] at hchecked
    cases hchecked
    exact .fails hd
  | some x =>
    obtain ⟨a, rest⟩ := x
    rw [hd] at hchecked
    cases hchecked
    have hdrop : c.data.drop c'.offset = rest := by
      rw [← hsame]
      exact hrest a rest hd
    refine .takes (hsame ▸ hc') ?_
    rw [hdrop]
    exact hd

/-- On a slice the limit of an `int` is no further limit. -/
theorem readString_slice {b : Bytes} (hb : IsSlice b) : Protocol.readString b = readLenencBytes b := by
  rw [Protocol.readString, readLenencBytes, bind_apply, bind_apply]
  cases h : readLenencInt b with
  | none => rfl
  | some x =>
    obtain ⟨n, rest⟩ := x
    obtain ⟨used, hused, -⟩ := local_readLenencInt b n rest h
    have hrest : rest.length < 2 ^ 63 := by
      rw [IsSlice, hused, List.length_append] at hb
      omega
    change (guard (n < 2 ^ 63) >>= fun _ => take n : Decoder UInt8 Bytes) rest = take n rest
    by_cases hn : n < 2 ^ 63
    · rw [guard, if_pos hn]
      rfl
    · rw [guard, if_neg hn, take, if_neg (by omega)]
      rfl

end Cursor

/-! ## Agreement -/

/-- At every position of a slice the cursor follows the decoder of strings. -/
theorem follows_lenEncodedBytes {data : Bytes} (hdata : IsSlice data) (position : Nat) :
    ∃ r, ByteCursor.lenEncodedBytes ⟨data, position⟩ = .ok r ∧ Follows readLenencBytes data position (decoded r) := by
  by_cases hp : position ≤ data.length
  · obtain ⟨r, hrun, hfollows⟩ := follows_of_simulates ByteCursor.simulates_lenEncodedBytes keepsData_lenEncodedBytes
      (c := ⟨data, position⟩) hp
    refine ⟨r, hrun, hfollows.congr (readString_slice ?_)⟩
    rw [IsSlice, List.length_drop]
    exact Nat.lt_of_le_of_lt (Nat.sub_le _ _) hdata
  · -- behind the end not even the first byte is there
    have hbyte : ByteCursor.byte ⟨data, position⟩ = .ok ((0, false), ⟨data, position⟩) := by
      change (if ByteCursor.remaining ⟨data, position⟩ < 1 then _ else _ : Scan _) _ = _
      have hnone : ByteCursor.remaining ⟨data, position⟩ < 1 := by
        change (data.length : Int) - position < 1
        omega
      rw [if_pos hnone]
      rfl
    refine ⟨(([], some Protocol.errMalformedHandshake), ⟨data, position⟩), ?_, .fails ?_⟩
    · change ((ByteCursor.byte ⟨data, position⟩).bind _).bind _ = _
      rw [hbyte]
      rfl
    · rw [List.drop_eq_nil_of_le (by omega)]
      rfl

/-- The decoder of an encoding ends behind it. -/
theorem follows_encoded {α : Type} {d : Decoder UInt8 α} {b : Bytes} {a : α} (hd : Decoder.Reads d b a) (rest : Bytes) :
    Follows d (b ++ rest) 0 (some (a, b.length)) := by
  refine .takes ?_ ?_
  · rw [List.length_append]
    omega
  · rw [List.drop_zero, List.drop_left]
    exact hd rest

/-- What is decoded gives the whole result, as the data stay. -/
theorem eq_of_decoded {α : Type} {r : (α × Option GoError) × ByteCursor} {a : α} {n : Nat} {data : Bytes}
    (h : decoded r = some (a, n)) (hdata : r.2.data = data) : r = ((a, none), ⟨data, n⟩) := by
  obtain ⟨⟨value, err⟩, ⟨d, offset⟩⟩ := r
  rw [decoded] at h
  split_ifs at h with herr
  cases h
  cases herr
  cases hdata
  rfl

/-- The cursor reads back every number that is written. -/
theorem lenEncodedInt_appendLengthEncodedInteger (v : UInt64) (rest : Bytes) :
    ByteCursor.lenEncodedInt ⟨appendLengthEncodedInteger [] v ++ rest, 0⟩ =
      .ok ((v, none), ⟨appendLengthEncodedInteger [] v ++ rest, (appendLengthEncodedInteger [] v).length⟩) := by
  have hreads : readLenencInt (appendLengthEncodedInteger [] v ++ rest) = some (v.toNat, rest) := by
    rw [Protocol.appendLengthEncodedInteger_eq, List.nil_append]
    exact reads_lenencInt v.toNat_lt rest
  generalize appendLengthEncodedInteger [] v = enc at hreads ⊢
  obtain ⟨⟨value, err⟩, ⟨data, offset⟩, hrun, hvalid, hchecked, hrest⟩ :=
    ByteCursor.simulates_lenEncodedInt ⟨enc ++ rest, 0⟩ (Nat.zero_le _)
  obtain rfl : data = enc ++ rest := keepsData_lenEncodedInt _ _ hrun
  change Protocol.Checked (value.toNat, err) ((readLenencInt (enc ++ rest)).map Prod.fst) at hchecked
  rw [hreads] at hchecked
  obtain ⟨hvalue, rfl⟩ : value.toNat = v.toNat ∧ err = none := by
    generalize value.toNat = n at hchecked
    cases hchecked
    exact ⟨rfl, rfl⟩
  obtain rfl : value = v := UInt64.toNat_inj.1 hvalue
  -- the offset is where the rest begins
  have hlen := congrArg List.length (hrest _ rest hreads)
  change ((enc ++ rest).drop offset).length = rest.length at hlen
  change offset ≤ (enc ++ rest).length at hvalid
  rw [List.length_drop, List.length_append] at hlen
  rw [List.length_append] at hvalid
  obtain rfl : offset = enc.length := by omega
  exact hrun

/-- Both decoders of strings read back every string that is written. -/
theorem decoders_appendLengthEncodedBytes {b rest : Bytes} (h : IsSlice (appendLengthEncodedBytes [] b ++ rest)) :
    ByteCursor.lenEncodedBytes ⟨appendLengthEncodedBytes [] b ++ rest, 0⟩ =
        .ok ((b, none), ⟨appendLengthEncodedBytes [] b ++ rest, (appendLengthEncodedBytes [] b).length⟩) ∧
      readPreparedLengthEncoded (appendLengthEncodedBytes [] b ++ rest) 0 =
        .ok (b, (appendLengthEncodedBytes [] b).length) := by
  have hreads : Decoder.Reads readLenencBytes (appendLengthEncodedBytes [] b) b := by
    have hb : b.length < 2 ^ 64 := by
      rw [IsSlice, Protocol.appendLengthEncodedBytes, List.length_append, List.length_append] at h
      omega
    rw [Protocol.appendLengthEncodedBytes_eq [] hb, List.nil_append]
    exact reads_lenencBytes hb
  have hfollows := follows_encoded hreads rest
  constructor
  · obtain ⟨r, hrun, hr⟩ := follows_lenEncodedBytes h 0
    rw [hrun, eq_of_decoded (hr.unique hfollows) (keepsData_lenEncodedBytes _ _ hrun)]
  · obtain ⟨-, hr⟩ := readsAs_readPreparedLengthEncoded (appendLengthEncodedBytes [] b ++ rest) 0
    have hsome := hr.unique hfollows
    cases hrun : readPreparedLengthEncoded (appendLengthEncodedBytes [] b ++ rest) 0 with
    | error e =>
      rw [hrun] at hsome
      cases hsome
    | ok x =>
      rw [hrun] at hsome
      cases hsome
      rfl

/-- At every position of every slice the two decoders of strings end alike and inside the slice. -/
theorem decoders_agree {data : Bytes} (hdata : IsSlice data) (position : Nat) :
    ∃ r, ByteCursor.lenEncodedBytes ⟨data, position⟩ = .ok r ∧
      readPreparedLengthEncoded data position ≠ .error .panic ∧
      decoded r = (readPreparedLengthEncoded data position).toOption ∧
      ∀ x, decoded r = some x → x.2 ≤ data.length := by
  obtain ⟨r, hrun, hr⟩ := follows_lenEncodedBytes hdata position
  obtain ⟨hpanic, hr'⟩ := readsAs_readPreparedLengthEncoded data position
  refine ⟨r, hrun, hpanic, hr.unique hr', ?_⟩
  rintro x hx
  rw [hx] at hr
  cases hr with
  | takes hn _ => exact hn

/-- One encoder, two agreeing decoders: what is written is read back with nothing else taken, and on any bytes from
any position on the cursor and the reader of execute packets both fail, or both have the same string and the same
end, which lies inside the bytes. -/
theorem length_encoded_agreement :
    (∀ (v : UInt64) (rest : Bytes), ByteCursor.lenEncodedInt ⟨appendLengthEncodedInteger [] v ++ rest, 0⟩ =
        .ok ((v, none), ⟨appendLengthEncodedInteger [] v ++ rest, (appendLengthEncodedInteger [] v).length⟩)) ∧
      (∀ b rest : Bytes, IsSlice (appendLengthEncodedBytes [] b ++ rest) →
        ByteCursor.lenEncodedBytes ⟨appendLengthEncodedBytes [] b ++ rest, 0⟩ =
            .ok ((b, none), ⟨appendLengthEncodedBytes [] b ++ rest, (appendLengthEncodedBytes [] b).length⟩) ∧
          readPreparedLengthEncoded (appendLengthEncodedBytes [] b ++ rest) 0 =
            .ok (b, (appendLengthEncodedBytes [] b).length)) ∧
      ∀ (data : Bytes) (position : Nat), IsSlice data →
        ∃ r, ByteCursor.lenEncodedBytes ⟨data, position⟩ = .ok r ∧
          readPreparedLengthEncoded data position ≠ .error .panic ∧
          decoded r = (readPreparedLengthEncoded data position).toOption ∧
          ∀ x, decoded r = some x → x.2 ≤ data.length := by
  refine ⟨lenEncodedInt_appendLengthEncodedInteger, ?_, ?_⟩
  · intro b rest h
    exact decoders_appendLengthEncodedBytes h
  · intro data position hdata
    exact decoders_agree hdata position

/-- A string of two bytes behind its length, and the length 2^64 - 1 with nothing behind it. -/
theorem length_encoded_agreement_bytes :
    readPreparedLengthEncoded (appendLengthEncodedBytes [] [7, 9] ++ [1]) 0 = .ok ([7, 9], 3) ∧
      ∃ r, ByteCursor.lenEncodedBytes ⟨[0xfe, 0xff, 0xff, 0xff, 0xff, 0xff, 0xff, 0xff, 0xff], 0⟩ = .ok r ∧
        decoded r = none := by
  refine ⟨(length_encoded_agreement.2.1 [7, 9] [1] (by decide)).2, ?_⟩
  obtain ⟨r, hrun, -, hsame, -⟩ :=
    length_encoded_agreement.2.2 [0xfe, 0xff, 0xff, 0xff, 0xff, 0xff, 0xff, 0xff, 0xff] 0 (by decide)
  refine ⟨r, hrun, hsame.trans ?_⟩
  decide

end Accelerator.Gateway
