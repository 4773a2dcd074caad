/-
The handles of a session over its commands. A handle changes by the packets that name it: chunks of long
data, resets and executes. `Chronicle` says so of a whole dialogue; from it follow what a handle has
buffered at any time, when an execute clears its buffers, and which types it remembers.
-/
import Accelerator.Gateway.Execute
import Accelerator.Gateway.Turns

namespace Accelerator.Gateway

open Interact Strings Engine Upstream Session
open Wire

/-! ## The packets of a handle -/

/-- The packets that change what a handle holds. -/
inductive HandlePacket where
  | longData (parameter : UInt16) (chunk : Bytes)
  | reset
  | execute (payload : Bytes)

/-- The packet for a handle that the payload of a command is, if it is one. -/
def handlePacket (id : UInt32) (payload : Bytes) : Option HandlePacket :=
  if handleID payload ≠ id then none
  else if payload.head? = some commandStmtSendLongData ∧ 7 ≤ payload.length then
    some (.longData (UInt16.ofNat (littleEndian ((payload.drop 5).take 2))) (payload.drop 7))
  else if payload.head? = some commandStmtReset ∧ 5 ≤ payload.length then some .reset
  else if payload.head? = some commandStmtExecute ∧ 10 ≤ payload.length then some (.execute payload)
  else none

/-- What a handle is after a packet. -/
def PreparedStatement.receive (p : PreparedStatement) : HandlePacket → PreparedStatement
  | .longData parameter chunk => if parameter.toNat ≥ p.parameterCount then p else p.addLongData parameter chunk
  | .reset => p.clearLongData
  | .execute payload =>
    if byteAt payload 5 ≠ 0 then p
    else if p.longDataError.isSome then p.clearLongData
    else (decodeArguments p payload).1.clearLongData

/-- What a handle is after a command. -/
def PreparedStatement.after (p : PreparedStatement) (id : UInt32) (payload : Bytes) : PreparedStatement :=
  ((handlePacket id payload).map p.receive).getD p

/-- A session before a command and after it. -/
structure Passed (s : ClientSession) (payload : Bytes) (s' : ClientSession) : Prop where
  /-- Every handle was there before, or is new. -/
  handles : ∀ id p', s'.prepared.lookup id = some p' →
    (∃ p, s.prepared.lookup id = some p ∧ (p.after id payload).Rebinds p') ∨
    (s.prepared.lookup id = none ∧ ∃ q st bound, (newPrepared q st bound).Rebinds p')
  /-- A handle that is named by a packet stays. -/
  stays : ∀ id, handlePacket id payload ≠ none → (s.prepared.lookup id).isSome = true →
    (s'.prepared.lookup id).isSome = true
  /-- The logical state knows all handles. -/
  known : ∀ id ∈ s'.prepared, id ∈ s'.state.prepared

section Passed

variable {s s₁ s' : ClientSession} {payload : Bytes} {id : UInt32} {p : PreparedStatement}

/-- The logical state knows all handles. -/
def Known (s : ClientSession) : Prop := ∀ id ∈ s.prepared, id ∈ s.state.prepared

theorem Tended.known (h : Tended s s') (hs : Known s) : Known s' := by
  intro id hid
  obtain ⟨p', hp'⟩ := Option.isSome_iff_exists.1 (AList.lookup_isSome.2 hid)
  obtain ⟨p, hp, -⟩ := h.lookup hp'
  rw [h.logical]
  exact hs id (AList.lookup_isSome.1 (by rw [hp]; rfl))

theorem Tended.isSome (h : Tended s s') (hid : (s.prepared.lookup id).isSome = true) :
    (s'.prepared.lookup id).isSome = true := by
  have hrel := h.handles id
  generalize s.prepared.lookup id = o at hrel hid
  generalize s'.prepared.lookup id = o' at hrel ⊢
  cases hrel with
  | none => cases hid
  | some => rfl

theorem after_of_none (h : handlePacket id payload = none) : p.after id payload = p := by
  rw [PreparedStatement.after, h]
  rfl

theorem after_of_some {packet : HandlePacket} (h : handlePacket id payload = some packet) :
    p.after id payload = p.receive packet := by
  rw [PreparedStatement.after, h]
  rfl

/-- A command that leaves the handles alone. -/
theorem passed_of_tended (h : Tended s s') (hs : Known s)
    (hnone : ∀ id p, s.prepared.lookup id = some p → (p.after id payload) = p) : Passed s payload s' where
  handles id p' hp' := by
    obtain ⟨p, hp, hr⟩ := h.lookup hp'
    exact .inl ⟨p, hp, by rwa [hnone id p hp]⟩
  stays id _ hid := h.isSome hid
  known := h.known hs

/-- A command that changes one handle as the packet for it asks. -/
theorem passed_of_put (hp : s.prepared.lookup id = some p) (hid : handleID payload = id)
    (h : Tended { s with prepared := s.prepared.insert id (p.after id payload) } s') (hs : Known s) :
    Passed s payload s' where
  handles id' p' hp' := by
    obtain ⟨p₁, hp₁, hr⟩ := h.lookup hp'
    have hp₁ : (s.prepared.insert id (p.after id payload)).lookup id' = some p₁ := hp₁
    by_cases heq : id' = id
    · subst heq
      rw [AList.lookup_insert] at hp₁
      cases hp₁
      exact .inl ⟨p, hp, hr⟩
    · rw [AList.lookup_insert_ne heq] at hp₁
      refine .inl ⟨p₁, hp₁, ?_⟩
      rwa [after_of_none (by rw [handlePacket, if_pos]; rw [hid]; exact Ne.symm heq)]
  stays id' hne hsome := by
    refine h.isSome ?_
    show ((s.prepared.insert id (p.after id payload)).lookup id').isSome = true
    by_cases heq : id' = id
    · rw [heq, AList.lookup_insert]
      rfl
    · rwa [AList.lookup_insert_ne heq]
  known := by
    refine h.known fun id' hid' => ?_
    rcases AList.mem_insert _ |>.1 hid' with rfl | hmem
    · exact hs id' (AList.lookup_isSome.1 (by rw [hp]; rfl))
    · exact hs id' hmem

/-- A command that names no handle for a packet, but adds or removes one. -/
theorem passed_of_change (hnone : ∀ id, handlePacket id payload = none)
    (hhandles : ∀ id p₁, s₁.prepared.lookup id = some p₁ → (∃ p, s.prepared.lookup id = some p ∧ p.Rebinds p₁) ∨
      (s.prepared.lookup id = none ∧ ∃ q st bound, p₁ = newPrepared q st bound))
    (hknown : Known s₁) (h : Tended s₁ s') : Passed s payload s' where
  handles id p' hp' := by
    obtain ⟨p₁, hp₁, hr⟩ := h.lookup hp'
    rcases hhandles id p₁ hp₁ with ⟨p, hp, hr₀⟩ | ⟨hfree, q, st, bound, rfl⟩
    · exact .inl ⟨p, hp, by rw [after_of_none (hnone id)]; exact hr₀.trans hr⟩
    · exact .inr ⟨hfree, q, st, bound, hr⟩
  stays id h := absurd (hnone id) h
  known := h.known hknown

/-- A handle that is there before and after a command. -/
theorem Passed.rebinds (h : Passed s payload s') {p' : PreparedStatement} (hp : s.prepared.lookup id = some p)
    (hp' : s'.prepared.lookup id = some p') : (p.after id payload).Rebinds p' := by
  rcases h.handles id p' hp' with ⟨p₀, hp₀, hr⟩ | ⟨hfree, -⟩
  · cases hp.symm.trans hp₀
    exact hr
  · cases hp.symm.trans hfree

end Passed

/-! ## Commands -/

section Commands

variable {s : ClientSession} {payload : Bytes}

theorem always_passed {α : Type} {cs : List Call} {ps : List Part} {prog : M α} (h : Does cs ps prog)
    (hp : ps.contains .handles = false) (hs : Known s)
    (hnone : ∀ id p, s.prepared.lookup id = some p → (p.after id payload) = p) :
    prog.always (fun _ => Passed s payload) s :=
  Prog.always_mono (h.tends hp (.refl s)) fun _ _ h => passed_of_tended h hs hnone

/-- A refusal, of a packet that leaves the handle it names as it was. -/
theorem always_refused (hs : Known s) {sequence : UInt8} {code : Nat} {state message : Bytes}
    (hsame : ∀ p, s.prepared.lookup (handleID payload) = some p → p.after (handleID payload) payload = p) :
    (writeError sequence code state message).always (fun _ => Passed s payload) s := by
  refine always_passed (writeError_does _ _ _ _) rfl hs fun id p hp => ?_
  by_cases hid : handleID payload = id
  · subst hid
    exact hsame p hp
  · exact after_of_none (if_pos hid)

/-- The refusal of a packet that names no handle. -/
theorem always_unknown (hs : Known s) (hnone : s.prepared.lookup (handleID payload) = none) {sequence : UInt8}
    {code : Nat} {state message : Bytes} :
    (writeError sequence code state message).always (fun _ => Passed s payload) s :=
  always_refused hs fun p hp => by rw [hp] at hnone; cases hnone

/-- A program that first stores the changed handle. -/
theorem always_put {α : Type} {prog : M α} {id : UInt32} {p p₁ : PreparedStatement}
    (hp : s.prepared.lookup id = some p) (hid : handleID payload = id) (hp₁ : p.after id payload = p₁)
    (h : prog.always (fun _ => Tended { s with prepared := s.prepared.insert id p₁ })
      { s with prepared := s.prepared.insert id p₁ }) (hs : Known s) :
    (putHandle id p₁ >>= fun _ => prog).always (fun _ => Passed s payload) s := by
  subst hp₁
  exact Prog.always_mono h fun _ _ h => passed_of_put hp hid h hs

theorem handlePacket_other {command : UInt8} {rest : Bytes} {id : UInt32} (h₁ : command ≠ commandStmtSendLongData)
    (h₂ : command ≠ commandStmtReset) (h₃ : command ≠ commandStmtExecute) :
    handlePacket id (command :: rest) = none := by
  unfold handlePacket
  simp [h₁, h₂, h₃]

theorem handlePacket_longData {id : UInt32} (hc : payload.head? = some commandStmtSendLongData) :
    handlePacket id payload = if handleID payload = id ∧ 7 ≤ payload.length then
      some (.longData (UInt16.ofNat (littleEndian ((payload.drop 5).take 2))) (payload.drop 7)) else none := by
  unfold handlePacket
  rw [hc]
  by_cases hid : handleID payload = id <;> by_cases hlen : 7 ≤ payload.length <;>
    simp [hid, hlen, commandStmtSendLongData, commandStmtReset, commandStmtExecute]

theorem handlePacket_reset {id : UInt32} (hc : payload.head? = some commandStmtReset) :
    handlePacket id payload = if handleID payload = id ∧ 5 ≤ payload.length then some .reset else none := by
  unfold handlePacket
  rw [hc]
  by_cases hid : handleID payload = id <;> by_cases hlen : 5 ≤ payload.length <;>
    simp [hid, hlen, commandStmtSendLongData, commandStmtReset, commandStmtExecute]

theorem handlePacket_execute {id : UInt32} (hc : payload.head? = some commandStmtExecute) :
    handlePacket id payload = if handleID payload = id ∧ 10 ≤ payload.length then some (.execute payload) else none := by
  unfold handlePacket
  rw [hc]
  by_cases hid : handleID payload = id <;> by_cases hlen : 10 ≤ payload.length <;>
    simp [hid, hlen, commandStmtSendLongData, commandStmtReset, commandStmtExecute]

theorem handlePacket_eq_execute {id : UInt32} (h : handlePacket id payload = some (.execute payload)) :
    handleID payload = id ∧ 10 ≤ payload.length := by
  unfold handlePacket at h
  split_ifs at h with hid hdata hreset hexecute
  · cases h
  · cases h
  · exact ⟨not_not.1 hid, hexecute.2⟩

theorem handlePacket_execute_payload {id : UInt32} {payload' : Bytes} (h : handlePacket id payload = some (.execute payload')) :
    payload' = payload := by
  unfold handlePacket at h
  split_ifs at h
  · cases h
  · cases h
  · cases h
    rfl

theorem sendPreparedLongData_passed (hs : Known s) (hc : payload.head? = some commandStmtSendLongData) :
    (sendPreparedLongData payload).always (fun _ => Passed s payload) s := by
  have hpacket := fun id => @handlePacket_longData payload id hc
  unfold sendPreparedLongData
  split
  · rename_i hlen
    refine always_refused hs fun p _ => after_of_none ?_
    rw [hpacket, if_neg fun h => by omega]
  · rename_i hlen
    dsimp only
    rw [Prog.always_read]
    split
    · rename_i hnone
      exact always_unknown hs hnone
    · rename_i p hp
      have hafter : p.after (handleID payload) payload = p.receive _ :=
        after_of_some (by rw [hpacket, if_pos ⟨rfl, by omega⟩])
      split
      · rename_i hcount
        refine always_refused hs fun p' hp' => ?_
        rw [hp] at hp'
        cases hp'
        rw [hafter, PreparedStatement.receive, if_pos hcount]
      · rename_i hcount
        refine always_put hp rfl ?_ (.refl _) hs
        rw [hafter, PreparedStatement.receive, if_neg hcount]

theorem resetPrepared_passed (hs : Known s) (hc : payload.head? = some commandStmtReset) :
    (resetPrepared payload).always (fun _ => Passed s payload) s := by
  have hpacket := fun id => @handlePacket_reset payload id hc
  unfold resetPrepared
  split
  · rename_i hlen
    refine always_refused hs fun p _ => after_of_none ?_
    rw [hpacket, if_neg fun h => by omega]
  · rename_i hlen
    rw [Prog.always_read]
    split
    · rename_i hnone
      exact always_unknown hs hnone
    · rename_i p hp
      refine always_put hp rfl ?_ ((writeOK_does 0 0 0).tends rfl (.refl _)) hs
      exact after_of_some (by rw [hpacket, if_pos ⟨rfl, by omega⟩])

theorem executePrepared_passed (svc : Service) (hs : Known s) (hc : payload.head? = some commandStmtExecute) :
    (executePrepared svc payload).always (fun _ => Passed s payload) s := by
  have hpacket := fun id => @handlePacket_execute payload id hc
  unfold executePrepared
  split
  · rename_i hlen
    refine always_refused hs fun p _ => after_of_none ?_
    rw [hpacket, if_neg fun h => by omega]
  · rename_i hlen
    dsimp only
    rw [Prog.always_read]
    split
    · rename_i hnone
      exact always_unknown hs hnone
    · rename_i p hp
      have hafter : p.after (handleID payload) payload = p.receive (.execute payload) :=
        after_of_some (by rw [hpacket, if_pos ⟨rfl, by omega⟩])
      rw [PreparedStatement.receive, byteAt_eq (by omega)] at hafter
      split
      · rename_i hcursor
        refine always_refused hs fun p' hp' => ?_
        rw [hp] at hp'
        cases hp'
        rw [hafter, if_pos hcursor]
      rename_i hcursor
      rw [if_neg hcursor] at hafter
      split
      · rename_i herror
        exact always_put hp rfl (by rw [hafter, if_pos herror]) ((writeError_does _ _ _ _).tends rfl (.refl _)) hs
      · rename_i herror
        rw [if_neg herror] at hafter
        generalize decodeArguments p payload = d at hafter ⊢
        obtain ⟨p₁, decoded⟩ := d
        refine always_put hp rfl hafter ?_ hs
        rcases decoded with (e | _) | arguments
        · exact (writeError_does _ _ _ _).tends rfl (.refl _)
        · exact (does_panic rfl : Does [.panic] [] _).tends rfl (.refl _)
        · refine Prog.always_mono (executeHandle_within (AList.lookup_insert _) arguments _ (.refl _ _)).always ?_
          exact fun _ _ h => h.same .handles rfl

theorem lookup_erase_eq_some {l : AList fun _ : UInt32 => PreparedStatement} {id id' : UInt32} {p : PreparedStatement}
    (h : (l.erase id').lookup id = some p) : id ≠ id' ∧ l.lookup id = some p := by
  by_cases hid : id = id'
  · subst hid
    rw [AList.lookup_erase] at h
    cases h
  · rw [AList.lookup_erase_ne hid] at h
    exact ⟨hid, h⟩

theorem closePrepared_passed (hs : Known s) (hc : payload.head? = some commandStmtClose) :
    (closePrepared payload).always (fun _ => Passed s payload) s := by
  have hnone : ∀ id, handlePacket id payload = none := by
    intro id
    obtain ⟨rest, rfl⟩ : ∃ rest, payload = commandStmtClose :: rest := by
      cases payload with
      | nil => cases hc
      | cons b rest => cases hc; exact ⟨rest, rfl⟩
    exact handlePacket_other (by decide) (by decide) (by decide)
  unfold closePrepared
  split
  · exact always_passed (does_pure _ : Does [] [] _) rfl hs fun id p _ => after_of_none (hnone id)
  dsimp only
  rw [Prog.always_read]
  split
  · exact always_passed (does_pure _ : Does [] [] _) rfl hs fun id p _ => after_of_none (hnone id)
  rename_i p hp
  refine (Prog.always_bind _ _ _ _).2 (Prog.always_mono ((closeStatement_does _).tends rfl (.refl s)) fun _ s₁ h₁ => ?_)
  -- the handle is dropped, and the rest leaves the others alone
  let s₂ : ClientSession := { s₁ with
    prepared := s₁.prepared.erase (handleID payload), state := s₁.state.removePrepared (handleID payload) }
  have herased : ∀ id p₂, s₂.prepared.lookup id = some p₂ →
      id ≠ handleID payload ∧ s₁.prepared.lookup id = some p₂ := fun _ _ h => lookup_erase_eq_some h
  have hpassed : ∀ s', Tended s₂ s' → Passed s payload s' := by
    refine fun s' h => passed_of_change hnone (fun id p₂ hp₂ => .inl (h₁.lookup (herased id p₂ hp₂).2)) ?_ h
    intro id hid
    obtain ⟨p₂, hp₂⟩ := Option.isSome_iff_exists.1 (AList.lookup_isSome.2 hid)
    obtain ⟨hne, hp₂⟩ := herased id p₂ hp₂
    exact Finset.mem_erase.2 ⟨hne, h₁.known hs id (AList.lookup_isSome.1 (by rw [hp₂]; rfl))⟩
  show Prog.always _ (if s₂.prepared.keys = [] ∧ s₂.tx = none then _ else _) s₂
  split
  · have hrelease := (releasePinnedConnection_does false).bind fun _ => does_pure (.ok () : Except GoError Unit)
    exact Prog.always_mono (hrelease.tends rfl (.refl s₂)) fun _ s' h => hpassed s' h
  · exact hpassed s₂ (.refl s₂)

theorem registerPrepared_passed {s₀ : ClientSession} {q : Text} {st : Stmt} (h : Tended s₀ s) (hs : Known s₀)
    (hnone : ∀ id, handlePacket id payload = none) :
    (registerPrepared q st).always (fun _ => Passed s₀ payload) s := by
  let id := nextID s.nextPreparedID
  have hid : id ≠ 0 := nextID_ne_zero _
  let s₁ : ClientSession := { s with
    nextPreparedID := id, prepared := s.prepared.insert id (newPrepared q st s.tx.isSome) }
  by_cases htaken : id ∈ s.state.prepared
  · -- the number is taken: the new handle is dropped again, and the old one with it
    let s₂ : ClientSession := { s₁ with prepared := s₁.prepared.erase id }
    have herased : ∀ id' p₂, s₂.prepared.lookup id' = some p₂ → s.prepared.lookup id' = some p₂ := by
      intro id' p₂ hp₂
      obtain ⟨hne, hp₂⟩ := lookup_erase_eq_some hp₂
      exact (AList.lookup_insert_ne hne).symm.trans hp₂
    have hpassed : ∀ s', Tended s₂ s' → Passed s₀ payload s' := by
      refine fun s' h' => passed_of_change hnone (fun id' p₂ hp₂ => .inl (h.lookup (herased id' p₂ hp₂))) ?_ h'
      intro id' hid'
      obtain ⟨p₂, hp₂⟩ := Option.isSome_iff_exists.1 (AList.lookup_isSome.2 hid')
      exact h.known hs id' (AList.lookup_isSome.1 (by rw [herased id' p₂ hp₂]; rfl))
    have hadd : s₁.state.addPrepared id = (s₁.state, some (Logical.illegal "prepared statement id already exists")) := by
      rw [Logical.addPrepared, if_neg hid, if_pos htaken]
    have hend : (writeSQLError (Logical.illegal "prepared statement id already exists")).always
        (fun _ => Passed s₀ payload) s₂ :=
      Prog.always_mono ((writeSQLError_does _).tends rfl (.refl s₂)) fun _ s' h' => hpassed s' h'
    unfold registerPrepared
    rw [Prog.always_modify, Prog.always_read]
    dsimp only
    rw [Prog.always_modify, hadd]
    exact ⟨trivial, fun _ _ _ => hend⟩
  · let s₂ : ClientSession := { s₁ with state := { s₁.state with prepared := insert id s₁.state.prepared } }
    have hfree : id ∉ s₀.prepared := fun hmem => htaken (by rw [h.logical]; exact hs id hmem)
    have hpassed : ∀ s', Tended s₂ s' → Passed s₀ payload s' := by
      refine fun s' h' => passed_of_change hnone (fun id' p₂ hp₂ => ?_) (fun id' hid' => ?_) h'
      · by_cases heq : id' = id
        · subst heq
          have hp₂ : (s.prepared.insert id (newPrepared q st s.tx.isSome)).lookup id = some p₂ := hp₂
          rw [AList.lookup_insert] at hp₂
          cases hp₂
          exact .inr ⟨AList.lookup_eq_none.2 hfree, q, st, s.tx.isSome, rfl⟩
        · exact .inl (h.lookup ((AList.lookup_insert_ne heq).symm.trans hp₂))
      · rcases AList.mem_insert _ |>.1 hid' with rfl | hmem
        · exact Finset.mem_insert_self _ _
        · exact Finset.mem_insert_of_mem (h.known hs id' hmem)
    have hadd : s₁.state.addPrepared id = ({ s₁.state with prepared := insert id s₁.state.prepared }, none) := by
      rw [Logical.addPrepared, if_neg hid, if_neg htaken]
    unfold registerPrepared
    rw [Prog.always_modify, Prog.always_read]
    dsimp only
    rw [Prog.always_modify, hadd]
    exact Prog.always_mono ((replyPrepared_does _ _).tends rfl (.refl s₂)) fun _ s' h' => hpassed s' h'

theorem prepare_passed (svc : Service) (q : Text) (hs : Known s) (hnone : ∀ id, handlePacket id payload = none) :
    (prepare svc q).always (fun _ => Passed s payload) s := by
  have htended : ∀ {s'}, Touches [.pin] s s' → Tended s s' := fun h => h.same .handles rfl
  refine prepare_wp (J := fun _ => True) (fun _ _ _ _ _ => ⟨trivial, fun _ _ _ => trivial⟩) (fun _ _ _ _ => trivial) trivial
    ?_ ?_
  · intro code state message s' _ h _
    refine Prog.always_mono ((writeError_does 1 code state message).tends rfl (htended h)) fun _ _ h' => ?_
    exact passed_of_tended h' hs fun id p _ => after_of_none (hnone id)
  · exact fun _ _ s' _ h _ => ⟨trivial, fun _ _ _ => trivial, fun _ _ _ => registerPrepared_passed (htended h) hs hnone⟩

/-- Whatever command is received and whatever is replied. -/
theorem dispatch_passed (svc : Service) (command : UInt8) (rest : Bytes) (hs : Known s) :
    (dispatch svc command rest).always (fun _ => Passed s (command :: rest)) s := by
  have hother : ∀ {command : UInt8} {cs : List Call} {ps : List Part} {prog : M (Except GoError Unit)},
      command ≠ commandStmtSendLongData ∧ command ≠ commandStmtReset ∧ command ≠ commandStmtExecute →
      Does cs ps prog → ps.contains .handles = false → prog.always (fun _ => Passed s (command :: rest)) s :=
    fun h hprog hp => always_passed hprog hp hs fun _ _ _ => after_of_none (handlePacket_other h.1 h.2.1 h.2.2)
  refine dispatch_cases (motive := fun command prog => prog.always (fun _ => Passed s (command :: rest)) s)
    (hother (by decide) (writeOK_does 0 0 0) rfl) (hother (by decide) (initDatabase_does _) rfl)
    (hother (by decide) (query_does _) rfl) ?_ (executePrepared_passed svc hs rfl) (sendPreparedLongData_passed hs rfl)
    (closePrepared_passed hs rfl) (resetPrepared_passed hs rfl) ?_ command
  · exact prepare_passed svc _ hs fun _ => handlePacket_other (by decide) (by decide) (by decide)
  · intro command reason code state message hnot
    refine hother ⟨?_, ?_, ?_⟩ (does_tell rfl (writeError_does _ _ _ _)) rfl
    all_goals
      rintro rfl
      exact hnot (by decide)

end Commands

/-! ## Whole dialogues -/

/-- Every command of a dialogue found the session as the one before left it. -/
inductive Chronicle : ClientSession → Talk → Prop where
  | start {s : ClientSession} : s.prepared = ∅ → Chronicle s []
  | next {e : Exchange} {past : Talk} {s : ClientSession} : Chronicle e.before past → Passed e.before e.payload s →
      Chronicle s (e :: past)

theorem Chronicle.known {s : ClientSession} {g : Talk} (h : Chronicle s g) : Known s := by
  cases h with
  | start h =>
    intro id hid
    rw [h] at hid
    exact absurd hid (AList.notMem_empty id)
  | next _ h => exact h.known

section Dialogue

variable {svc : Service} {frames : Packet → Nat}

theorem chronicle_of_dialogue {c : Conf ClientSession Op Res Note Talk} (h : InDialogue svc frames c)
    (hi : c.isIdle = true) : Chronicle c.state c.env := by
  refine dialogue_keeps (.start rfl) (fun s g h command rest => ?_) h hi
  have hwp := Prog.wp_permit (@dispatch_speaks frames svc command rest s g) fun _ _ _ _ => trivial
  refine Prog.wp_mono (Prog.wp_always hwp (dispatch_passed svc command rest h.known)) ?_
  rintro r s' _ ⟨⟨e, rfl, hrequest, -⟩, hpassed⟩ -
  obtain ⟨hpayload, hbefore⟩ := Prod.mk.inj hrequest
  refine .next (by rw [hbefore]; exact h) ?_
  rw [hpayload, hbefore]
  exact hpassed

end Dialogue

/-! ## Buffers -/

/-- The bytes in some buffers. -/
def buffered (longData : AList fun _ : UInt16 => Bytes) : Nat := (longData.entries.map fun x => x.2.length).sum

/-- The bytes of some chunks. -/
def chunkBytes (chunks : List (UInt16 × Bytes)) : Nat := (chunks.map fun x => x.2.length).sum

/-- The chunks for a parameter put together, if there are any. -/
def joined (parameter : UInt16) (chunks : List (UInt16 × Bytes)) : Option Bytes :=
  if ∃ x ∈ chunks, x.1 = parameter then some ((chunks.filter fun x => x.1 = parameter).flatMap Prod.snd) else none

/-- The chunks since the buffers were last cleared, after one more packet. -/
def PreparedStatement.recorded (p : PreparedStatement) (chunks : List (UInt16 × Bytes)) :
    HandlePacket → List (UInt16 × Bytes)
  | .longData parameter chunk => if parameter.toNat ≥ p.parameterCount then chunks else chunks ++ [(parameter, chunk)]
  | .reset => []
  | .execute payload => if byteAt payload 5 ≠ 0 then chunks else []

/-- The chunks sent for a handle since its buffers were last cleared, the oldest first. -/
def chunksSent (id : UInt32) : Talk → List (UInt16 × Bytes)
  | [] => []
  | e :: past =>
    match e.before.prepared.lookup id, handlePacket id e.payload with
    | none, _ => []
    | some _, none => chunksSent id past
    | some p, some packet => p.recorded (chunksSent id past) packet

/-- A handle and the chunks sent for it since its buffers were last cleared. -/
structure Buffers (p : PreparedStatement) (chunks : List (UInt16 × Bytes)) : Prop where
  counted : p.longDataBytes = buffered p.longData
  bounded : p.longDataBytes ≤ maxPreparedLongData
  /-- Without an error nothing is missing. -/
  whole : p.longDataError = none →
    (∀ parameter, p.longData.lookup parameter = joined parameter chunks) ∧ p.longDataBytes = chunkBytes chunks
  /-- With one there were too many. -/
  exceeded : p.longDataError ≠ none → maxPreparedLongData < chunkBytes chunks

section Buffers

variable {p p' : PreparedStatement} {chunks : List (UInt16 × Bytes)}

theorem joined_append (parameter parameter' : UInt16) (chunk : Bytes) :
    joined parameter (chunks ++ [(parameter', chunk)]) =
      if parameter' = parameter then some ((joined parameter chunks).getD [] ++ chunk) else joined parameter chunks := by
  unfold joined
  by_cases h : parameter' = parameter
  · subst h
    rw [if_pos ⟨(parameter', chunk), by simp, rfl⟩, if_pos rfl]
    by_cases hany : ∃ x ∈ chunks, x.1 = parameter'
    · rw [if_pos hany]
      simp
    · have hnone : chunks.filter (fun x => x.1 = parameter') = [] := by
        rw [List.filter_eq_nil_iff]
        intro x hx hp
        exact hany ⟨x, hx, by simpa using hp⟩
      rw [if_neg hany]
      simp [hnone]
  · have hany : (∃ x ∈ chunks ++ [(parameter', chunk)], x.1 = parameter) ↔ ∃ x ∈ chunks, x.1 = parameter := by
      constructor
      · rintro ⟨x, hx, hp⟩
        rcases List.mem_append.1 hx with hx | hx
        · exact ⟨x, hx, hp⟩
        · rw [List.mem_singleton.1 hx] at hp
          exact absurd hp h
      · rintro ⟨x, hx, hp⟩
        exact ⟨x, List.mem_append_left _ hx, hp⟩
    rw [if_neg h]
    refine if_congr hany ?_ rfl
    simp [h]

theorem chunkBytes_append (parameter : UInt16) (chunk : Bytes) :
    chunkBytes (chunks ++ [(parameter, chunk)]) = chunkBytes chunks + chunk.length := by
  simp [chunkBytes]

/-- Replacing a buffer by a longer one. -/
theorem buffered_insert (longData : AList fun _ : UInt16 => Bytes) (parameter : UInt16) (chunk : Bytes) :
    buffered (longData.insert parameter ((longData.lookup parameter).getD [] ++ chunk)) =
      buffered longData + chunk.length := by
  have herase : ∀ entries : List (Sigma fun _ : UInt16 => Bytes), entries.NodupKeys →
      ((entries.kerase parameter).map fun x => x.2.length).sum + ((entries.dlookup parameter).getD []).length =
        (entries.map fun x => x.2.length).sum := by
    intro entries hnodup
    induction entries with
    | nil => rfl
    | cons x entries ih =>
      obtain ⟨k, v⟩ := x
      by_cases hk : parameter = k
      · subst hk
        simp
        omega
      · have ih := ih (List.nodupKeys_cons.1 hnodup).2
        rw [List.kerase_cons_ne hk, List.dlookup_cons_ne _ _ hk]
        simp only [List.map_cons, List.sum_cons]
        omega
  have h := herase longData.entries longData.nodupKeys
  unfold buffered
  rw [AList.entries_insert]
  simp only [List.map_cons, List.sum_cons, List.length_append]
  have hlookup : longData.lookup parameter = longData.entries.dlookup parameter := rfl
  rw [hlookup]
  omega

theorem buffers_clear (p : PreparedStatement) : Buffers p.clearLongData [] where
  counted := rfl
  bounded := Nat.zero_le _
  whole _ := ⟨fun _ => rfl, rfl⟩
  exceeded h := absurd rfl h

theorem Buffers.rebinds (h : Buffers p chunks) (hr : p.Rebinds p') : Buffers p' chunks := by
  obtain ⟨statement, bound, rfl⟩ := hr
  exact ⟨h.counted, h.bounded, h.whole, h.exceeded⟩

theorem Buffers.addLongData (h : Buffers p chunks) (parameter : UInt16) (chunk : Bytes) :
    Buffers (p.addLongData parameter chunk) (chunks ++ [(parameter, chunk)]) := by
  unfold PreparedStatement.addLongData
  split
  · rename_i hfull
    refine ⟨h.counted, h.bounded, fun herror => (by cases herror), fun _ => ?_⟩
    rw [chunkBytes_append]
    by_cases herror : p.longDataError = none
    · rw [← (h.whole herror).2]
      exact hfull
    · have := h.exceeded herror
      omega
  · rename_i hroom
    refine ⟨?_, by simpa using hroom, fun herror => ⟨fun parameter' => ?_, ?_⟩, fun herror => ?_⟩
    · rw [buffered_insert, ← h.counted]
    · rw [joined_append]
      by_cases hp : parameter = parameter'
      · subst hp
        rw [if_pos rfl, AList.lookup_insert, (h.whole herror).1]
      · rw [if_neg hp, AList.lookup_insert_ne (Ne.symm hp), (h.whole herror).1]
    · rw [chunkBytes_append, (h.whole herror).2]
    · have := h.exceeded herror
      rw [chunkBytes_append]
      omega

/-- One packet. -/
theorem Buffers.receive (h : Buffers p chunks) (packet : HandlePacket) :
    Buffers (p.receive packet) (p.recorded chunks packet) := by
  cases packet with
  | longData parameter chunk =>
    show Buffers (if parameter.toNat ≥ p.parameterCount then _ else _) (if parameter.toNat ≥ p.parameterCount then _ else _)
    split
    · exact h
    · exact h.addLongData parameter chunk
  | reset => exact buffers_clear p
  | execute payload =>
    show Buffers (if byteAt payload 5 ≠ 0 then _ else _) (if byteAt payload 5 ≠ 0 then _ else _)
    split
    · exact h
    · split
      · exact buffers_clear p
      · exact buffers_clear _

/-- Every packet of a dialogue. -/
theorem Chronicle.buffers {s : ClientSession} {g : Talk} (h : Chronicle s g) {id : UInt32}
    (hp : s.prepared.lookup id = some p) : Buffers p (chunksSent id g) := by
  induction h generalizing p with
  | start h =>
    rw [h] at hp
    cases hp
  | @next e past s _ hpassed ih =>
    unfold chunksSent
    rcases hpassed.handles id p hp with ⟨p₀, hp₀, hr⟩ | ⟨hfree, q, st, bound, hr⟩
    · rw [hp₀]
      cases hpacket : handlePacket id e.payload with
      | none =>
        rw [after_of_none hpacket] at hr
        exact (ih hp₀).rebinds hr
      | some packet =>
        rw [after_of_some hpacket] at hr
        exact ((ih hp₀).receive packet).rebinds hr
    · rw [hfree]
      exact (buffers_clear (newPrepared q st bound)).rebinds hr

end Buffers

/-! ## Long data is bounded and whole -/

section LongData

variable {svc : Service} {frames : Packet → Nat} {c : Conf ClientSession Op Res Note Talk} {id : UInt32}
  {p : PreparedStatement}

/-- The error for long data that was too much. -/
def tooLong : Op := .writeMessage 1 (.err 1153 (lit "08S01") ((lit "prepared long data exceeds the configured bound").take
  maxErrorMessageBytes))

/-- The first call of an execute that finds the error. -/
theorem settle_executePrepared {E : Env ClientSession Op Res Note Talk} {s : ClientSession} {g : Talk} {payload : Bytes}
    (hpacket : handlePacket id payload = some (.execute payload)) (hp : s.prepared.lookup id = some p)
    (hcursor : byteAt payload 5 = 0) (herror : p.longDataError.isSome = true) :
    ∃ k, ((executePrepared svc payload).settle E s g).2.2 = .wait tooLong k := by
  obtain ⟨rfl, hlen⟩ := handlePacket_eq_execute hpacket
  rw [byteAt_eq (by omega)] at hcursor
  unfold executePrepared
  rw [dif_neg (by omega)]
  dsimp only
  rw [Prog.settle_read, hp]
  simp only [hcursor, ne_eq, not_true_eq_false, if_false, herror, if_true]
  exact ⟨_, rfl⟩

/-- A chunk for the first parameter of a handle. -/
def comLongData (chunk : Bytes) : Bytes := comStmtSendLongData 1 ++ chunk

/-- An execute of the first handle with these flags, and a TINY for its parameter. -/
def comExecuteTiny (flags : UInt8) (value : Bytes) : Bytes :=
  [commandStmtExecute, 1, 0, 0, 0, flags, 1, 0, 0, 0] ++ ([0] ++ 1 :: ([columnTypeTiny, 0] ++ value))

/-- A prepare and two chunks. -/
def twoChunks : List (Fin 1 × Reply (Fin 1)) :=
  asks alone (comStmtPrepare "SELECT ?") 24 ++ asks alone (comLongData [1, 2]) 0 ++ asks alone (comLongData [3]) 0

/-- The chunks sent for a handle since its last execute or reset, the oldest first. -/
def chunksSince (id : UInt32) : Talk → List (UInt16 × Bytes)
  | [] => []
  | e :: past =>
    match e.before.prepared.lookup id, handlePacket id e.payload with
    | none, _ => []
    | some _, none => chunksSince id past
    | some _, some .reset => []
    | some _, some (.execute _) => []
    | some p, some (.longData parameter chunk) => p.recorded (chunksSince id past) (.longData parameter chunk)

/-- The handle has no long data and no error of it. -/
def PreparedStatement.Empty (p : PreparedStatement) : Prop := p.longData = ∅ ∧ p.longDataError = none

/-- An execute without cursor flags, or of a handle that has no long data. -/
def Exchange.Clears (e : Exchange) (id : UInt32) : Prop :=
  handlePacket id e.payload = some (.execute e.payload) → ∀ p, e.before.prepared.lookup id = some p →
    byteAt e.payload 5 = 0 ∨ p.Empty

theorem receive_execute_empty_iff {payload : Bytes} :
    (p.receive (.execute payload)).Empty ↔ byteAt payload 5 = 0 ∨ p.Empty := by
  show (if byteAt payload 5 ≠ 0 then _ else _ : PreparedStatement).Empty ↔ _
  split
  · rename_i hcursor
    exact ⟨.inr, fun h => h.resolve_left hcursor⟩
  · rename_i hcursor
    refine iff_of_true ?_ (.inl (not_not.1 hcursor))
    split
    · exact ⟨rfl, rfl⟩
    · exact ⟨rfl, rfl⟩

theorem PreparedStatement.Rebinds.empty_iff {p p' : PreparedStatement} (h : p.Rebinds p') : p'.Empty ↔ p.Empty := by
  obtain ⟨statement, bound, rfl⟩ := h
  exact Iff.rfl

/-- A handle without long data was sent none. -/
theorem Buffers.nil_of_empty {chunks : List (UInt16 × Bytes)} (h : Buffers p chunks) (he : p.Empty) : chunks = [] := by
  cases chunks with
  | nil => rfl
  | cons x chunks =>
    have hjoined := (h.whole he.2).1 x.1
    rw [he.1, joined, if_pos ⟨x, List.mem_cons_self, rfl⟩] at hjoined
    cases hjoined

/-- While all executes clear the buffers, these hold the chunks since the last execute or reset. -/
theorem Chronicle.chunksSent_eq {s : ClientSession} {g : Talk} (h : Chronicle s g) (hclears : ∀ e ∈ g, e.Clears id) :
    chunksSent id g = chunksSince id g := by
  induction h with
  | start => rfl
  | @next e past s hpast _ ih =>
    have ih := ih fun e' he' => hclears e' (List.mem_cons_of_mem e he')
    have hclear := hclears e List.mem_cons_self
    unfold chunksSent chunksSince
    cases hp : e.before.prepared.lookup id with
    | none => rfl
    | some p =>
      cases hpacket : handlePacket id e.payload with
      | none => exact ih
      | some packet =>
        cases packet with
        | longData parameter chunk => simp only [ih]
        | reset => rfl
        | execute payload =>
          have hsame := handlePacket_execute_payload hpacket
          subst hsame
          show (if byteAt e.payload 5 ≠ 0 then chunksSent id past else []) = []
          split
          · rename_i hcursor
            exact (hpast.buffers hp).nil_of_empty ((hclear hpacket p hp).resolve_left hcursor)
          · rfl

/-- After an execute of a live handle, in any run, the handle has no long data and no error of it if and only
if the execute has no cursor flags, or there was neither before. And in a run in which this is so of every
execute of the handle, the next execute that gets to its arguments sees the chunks sent since the last
execute or reset and no others. -/
theorem longData_cleared_iff (h : InDialogue svc frames c) (hi : c.isIdle = true) :
    (∀ e past p, c.env = e :: past → e.before.prepared.lookup id = some p →
      handlePacket id e.payload = some (.execute e.payload) →
      ((∃ p', c.state.prepared.lookup id = some p' ∧ p'.Empty) ↔ byteAt e.payload 5 = 0 ∨ p.Empty)) ∧
    ((∀ e ∈ c.env, e.Clears id) → ∀ p, c.state.prepared.lookup id = some p → p.longDataError = none →
      ∀ parameter, p.longData.lookup parameter = joined parameter (chunksSince id c.env)) := by
  have hc := chronicle_of_dialogue h hi
  refine ⟨fun e past p henv hp hpacket => ?_, fun hclears p hp herror parameter => ?_⟩
  · rw [henv] at hc
    cases hc with
    | next hpast hpassed =>
      obtain ⟨p', hp'⟩ := Option.isSome_iff_exists.1
        (hpassed.stays id (by rw [hpacket]; exact Option.some_ne_none _) (by rw [hp]; rfl))
      have hreceived : (p.receive (.execute e.payload)).Rebinds p' := by
        have hr := hpassed.rebinds hp hp'
        rwa [after_of_some hpacket] at hr
      rw [← receive_execute_empty_iff, ← hreceived.empty_iff]
      constructor
      · rintro ⟨p'', hp'', hempty⟩
        rw [hp'] at hp''
        cases hp''
        exact hempty
      · exact fun hempty => ⟨p', hp', hempty⟩
  · rw [← hc.chunksSent_eq hclears]
    exact ((hc.buffers hp).whole herror).1 parameter

/-- A prepare, a chunk and an execute. -/
def chunkExecuted : List (Fin 1 × Reply (Fin 1)) :=
  asks alone (comStmtPrepare "SELECT ?") 24 ++ asks alone (comLongData [1]) 0 ++ asks alone (comExecuteTiny 0 []) 5

/-- An execute without cursor flags clears the chunk before it. -/
theorem longData_cleared_iff_execute :
    let c := dialogueOf chunkExecuted
    ∃ p', c.state.prepared.lookup 1 = some p' ∧ p'.Empty := by
  have hR := inDialogue_of chunkExecuted
  have hrun : (dialogueOf chunkExecuted).isIdle = true ∧
    (dialogueOf chunkExecuted).env.head?.map
        (fun e => ((e.before.prepared.lookup 1).isSome, e.payload)) = some (true, comExecuteTiny 0 []) := by
    decide +kernel
  obtain ⟨hi, hlast⟩ := hrun
  obtain ⟨e, he, hfields⟩ := Option.map_eq_some_iff.1 hlast
  obtain ⟨past, henv⟩ := List.head?_eq_some_iff.1 he
  obtain ⟨hsome, hpayload⟩ := Prod.mk.inj hfields
  obtain ⟨p, hp⟩ := Option.isSome_iff_exists.1 hsome
  refine ((longData_cleared_iff hR hi).1 e past p henv hp ?_).2 (.inl ?_)
  · rw [hpayload]
    rfl
  · rw [hpayload]
    rfl

/-- An execute that asks for a cursor is refused and leaves the chunk before it. The chunk that is sent
again with the next execute is then the second half of what that binds. -/
theorem longData_survives_cursor :
    ∃ c, InDialogue sampleService (fun _ => 1) c ∧ c.isIdle = true ∧
      c.env.reverse.map (·.payload) =
        [comStmtPrepare "SELECT ?", comLongData [1], comExecuteTiny 1 [], comLongData [1]] ∧
      (c.state.prepared.lookup 1).map (fun p => (p.longData.lookup 0, p.longDataError)) = some (some [1, 1], none) :=
  ⟨_, inDialogue_of (asks alone (comStmtPrepare "SELECT ?") 24 ++ asks alone (comLongData [1]) 0 ++
    asks alone (comExecuteTiny 1 []) 1 ++ asks alone (comLongData [1]) 0), by decide +kernel⟩

/-! ## Types are remembered -/

/-- The payload has a type array for the parameters of the statement. -/
def PreparedStatement.Brings (p : PreparedStatement) (payload pairs : Bytes) : Prop :=
  ∃ header nulls values flag, header.length = 10 ∧ nulls.length = (p.parameterCount + 7) / 8 ∧ flag ≠ (0 : UInt8) ∧
    pairs.length = 2 * p.parameterCount ∧ payload = header ++ (nulls ++ flag :: (pairs ++ values))

/-- The types of the statement are those of the array. -/
def PreparedStatement.Remembers (p : PreparedStatement) (pairs : Bytes) : Prop :=
  pairs.length = 2 * p.parameterCount ∧ p.parameterTypes = typesOf p.parameterCount pairs

/-- The command is an execute of the handle whose flag announces a type array. -/
def Exchange.SendsTypes (e : Exchange) (id : UInt32) (p : PreparedStatement) : Prop :=
  handlePacket id e.payload = some (.execute e.payload) ∧ ∃ flag ≠ (0 : UInt8), e.payload[flagPosition p]? = some flag

theorem PreparedStatement.Rebinds.remembers {p p' : PreparedStatement} {pairs : Bytes} (h : p.Rebinds p') (hp : p.Remembers pairs) :
    p'.Remembers pairs := by
  obtain ⟨statement, bound, rfl⟩ := h
  exact hp

/-- Without a type array the types stay. -/
theorem decodeArguments_keeps {payload : Bytes} (h : ¬∃ flag ≠ (0 : UInt8), payload[flagPosition p]? = some flag) :
    (decodeArguments p payload).1 = p := by
  by_cases hn : p.parameterCount = 0
  · unfold decodeArguments
    rw [if_pos hn]
  by_cases hlen : payload.length < 10 + (p.parameterCount + 7) / 8 + 1
  · rw [decodeArguments_truncated hn hlen]
  · obtain ⟨header, nulls, flag, pairs, values, rfl, hheader, hnulls, -, hat⟩ :=
      exists_parts (k := (p.parameterCount + 7) / 8) (m := 0) (Nat.le_of_not_lt hlen)
    by_cases hflag : flag = 0
    · rw [hflag, decodeArguments_remembered hn hheader hnulls]
    · exact absurd ⟨flag, hflag, hat⟩ h

/-- With one they are its own. -/
theorem remembers_decodeArguments {payload pairs : Bytes} (h : p.Brings payload pairs) :
    (decodeArguments p payload).1.Remembers pairs := by
  obtain ⟨header, nulls, values, flag, hheader, hnulls, hflag, hpairs, rfl⟩ := h
  by_cases hn : p.parameterCount = 0
  · unfold decodeArguments
    rw [if_pos hn]
    refine ⟨hpairs, funext fun i => absurd i.isLt ?_⟩
    show ¬i.val < p.parameterCount
    omega
  · rw [decodeArguments_array hn hheader hnulls hpairs hflag]
    exact ⟨hpairs, rfl⟩

/-- A packet that sends no types. -/
theorem remembers_receive {pairs : Bytes} (hp : p.Remembers pairs) {packet : HandlePacket}
    (h : ∀ payload, packet = .execute payload → ¬∃ flag ≠ (0 : UInt8), payload[flagPosition p]? = some flag) :
    (p.receive packet).Remembers pairs := by
  cases packet with
  | longData parameter chunk =>
    show (if parameter.toNat ≥ p.parameterCount then _ else _ : PreparedStatement).Remembers pairs
    split
    · exact hp
    · unfold PreparedStatement.addLongData
      split <;> exact hp
  | reset => exact hp
  | execute payload =>
    show (if byteAt payload 5 ≠ 0 then _ else _ : PreparedStatement).Remembers pairs
    split
    · exact hp
    · split
      · exact hp
      · rw [decodeArguments_keeps (h payload rfl)]
        exact hp

/-- The types of the last array that was sent, as long as the handle is open. -/
theorem Chronicle.remembers {s : ClientSession} {later past : Talk} {e : Exchange} {pairs : Bytes} {p' : PreparedStatement}
    (h : Chronicle s (later ++ e :: past)) (hp : e.before.prepared.lookup id = some p)
    (hafter : (p.after id e.payload).Remembers pairs)
    (hlater : ∀ e' ∈ later, ∃ p₁, e'.before.prepared.lookup id = some p₁ ∧ ¬e'.SendsTypes id p₁)
    (hp' : s.prepared.lookup id = some p') : p'.Remembers pairs := by
  induction later generalizing s p' with
  | nil =>
    cases h with
    | next _ hpassed => exact (hpassed.rebinds hp hp').remembers hafter
  | cons e' later ih =>
    -- the last command sends no types: the handle keeps those it had before it
    obtain ⟨p₁, hp₁, hsends⟩ := hlater e' List.mem_cons_self
    cases h with
    | next hpast hpassed =>
      have hp₁' := ih hpast (fun e'' he'' => hlater e'' (List.mem_cons_of_mem e' he'')) hp₁
      refine (hpassed.rebinds hp₁ hp').remembers ?_
      cases hpacket : handlePacket id e'.payload with
      | none => rwa [after_of_none hpacket]
      | some packet =>
        rw [after_of_some hpacket]
        refine remembers_receive hp₁' fun payload hpayload hflag => ?_
        subst hpayload
        have hsame := handlePacket_execute_payload hpacket
        subst hsame
        exact hsends ⟨hpacket, hflag⟩

/-- An execute brings a type array and gets to its arguments; until the next execute that announces one, and
as long as the handle is open, some values are decoded with the remembered types as they are behind the
array, if and only if none of its types is the byte zero. -/
theorem types_remembered_iff (h : InDialogue svc frames c) (hi : c.isIdle = true) {later past : Talk} {e : Exchange}
    {p' : PreparedStatement} {pairs header nulls values : Bytes} (henv : c.env = later ++ e :: past)
    (hp : e.before.prepared.lookup id = some p) (hexecute : handlePacket id e.payload = some (.execute e.payload))
    (hreached : byteAt e.payload 5 = 0 ∧ p.longDataError = none) (hbrings : p.Brings e.payload pairs)
    (hlater : ∀ e' ∈ later, ∃ p₁, e'.before.prepared.lookup id = some p₁ ∧ ¬e'.SendsTypes id p₁)
    (hp' : c.state.prepared.lookup id = some p') (hheader : header.length = 10)
    (hnulls : nulls.length = (p'.parameterCount + 7) / 8) :
    (decodeArguments p' (header ++ (nulls ++ 0 :: values))).2 =
        (decodeArguments p' (header ++ (nulls ++ 1 :: (pairs ++ values)))).2 ↔
      ∀ i < p'.parameterCount, byteAt pairs (2 * i) ≠ 0 := by
  have hafter : (p.after id e.payload).Remembers pairs := by
    rw [after_of_some hexecute, PreparedStatement.receive, if_neg (not_not.2 hreached.1), hreached.2]
    exact remembers_decodeArguments hbrings
  have hc := chronicle_of_dialogue h hi
  rw [henv] at hc
  obtain ⟨hpairs, htypes⟩ := hc.remembers hp hafter hlater hp'
  exact decodeArguments_remembered_iff htypes hpairs hheader hnulls (by decide)

/-- A prepare and an execute with a type array. -/
def tinyExecuted : List (Fin 1 × Reply (Fin 1)) :=
  asks alone (comStmtPrepare "SELECT ?") 24 ++ asks alone (comExecuteTiny 0 [7]) 5

/-- The type TINY is remembered. -/
theorem types_remembered_iff_tiny :
    ∃ p', (dialogueOf tinyExecuted).state.prepared.lookup 1 = some p' ∧
      (decodeArguments p' ([commandStmtExecute, 1, 0, 0, 0, 0, 1, 0, 0, 0] ++ ([0] ++ 0 :: [9]))).2 =
        (decodeArguments p' (comExecuteTiny 0 [9])).2 := by
  have hR := inDialogue_of tinyExecuted
  have hrun : (dialogueOf tinyExecuted).isIdle = true ∧
    (dialogueOf tinyExecuted).env.head?.map
        (fun e => ((e.before.prepared.lookup 1).map fun p => (p.parameterCount, p.longDataError), e.payload)) =
      some (some (1, none), comExecuteTiny 0 [7]) ∧
    ((dialogueOf tinyExecuted).state.prepared.lookup 1).map (·.parameterCount) = some 1 := by
    decide +kernel
  obtain ⟨hi, hlast, hcount⟩ := hrun
  obtain ⟨e, he, hfields⟩ := Option.map_eq_some_iff.1 hlast
  obtain ⟨past, henv⟩ := List.head?_eq_some_iff.1 he
  rw [← List.nil_append (e :: past)] at henv
  obtain ⟨hsome, hpayload⟩ := Prod.mk.inj hfields
  obtain ⟨p, hp, hfields⟩ := Option.map_eq_some_iff.1 hsome
  obtain ⟨hone, herror⟩ := Prod.mk.inj hfields
  obtain ⟨p', hp', hone'⟩ := Option.map_eq_some_iff.1 hcount
  have hbrings : p.Brings e.payload [columnTypeTiny, 0] := by
    refine ⟨[commandStmtExecute, 1, 0, 0, 0, 0, 1, 0, 0, 0], [0], [7], 1, rfl, ?_, by decide, ?_, hpayload⟩
    · rw [hone]
      rfl
    · rw [hone]
      rfl
  refine ⟨p', hp', (types_remembered_iff hR hi henv hp ?_ ⟨?_, herror⟩ hbrings ?_ hp' rfl ?_).2 ?_⟩
  · rw [hpayload]
    rfl
  · rw [hpayload]
    rfl
  · exact fun e' he' => absurd he' List.not_mem_nil
  · rw [hone']
    rfl
  · rw [hone']
    decide

/-- An execute with the type DECIMAL is accepted, and the next one, without a type array, is told that it
omitted its first. -/
theorem decimal_forgotten :
    let header := [commandStmtExecute, 1, 0, 0, 0, 0, 1, 0, 0, 0]
    let p := (decodeArguments (sampleStatement 1 ∅) (header ++ ([0] ++ 1 :: ([columnTypeDecimal, 0] ++ [1, 0x31])))).1
    (decodeArguments (sampleStatement 1 ∅) (header ++ ([0] ++ 1 :: ([columnTypeDecimal, 0] ++ [1, 0x31])))).2 =
      .ok [.bytes (some [0x31])] ∧
    (decodeArguments p.clearLongData (header ++ ([0] ++ 0 :: [1, 0x31]))).2 =
      reject "prepared execute omitted its first type array" ∧
    (decodeArguments p.clearLongData (header ++ ([0] ++ 1 :: ([columnTypeDecimal, 0] ++ [1, 0x31])))).2 =
      .ok [.bytes (some [0x31])] := by
  decide +kernel

end LongData

end Accelerator.Gateway
