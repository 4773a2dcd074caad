/-
The invariant of a client session. `Base` holds whenever a call is pending, `At` between the
handlers, and `Ready` when the next command may be read; `Good` says what is true of each call a
session makes. The session may hold a connection and a token beside its pin while it answers a text
statement, so `Base` and `At` count them.
-/
import Accelerator.Gateway.Footprint

namespace Accelerator.Gateway

open Interact Strings Engine Upstream Session

/-! ## Definitions -/

/-- A connection of its own may be used: no transaction is open, and there is no pin or the command
is one that goes around it. -/
def Free (s : ClientSession) (L : Ledger) : Prop :=
  s.tx = none ∧ (s.pinnedConnection = none ∨ ∃ r, L.log.request = some r ∧ r.Detours)

/-- What the books say: the connections held beside the pin have their tokens, there is at most one token
beside the pin's, the pin is counted, and a connection in doubt is the pinned one. -/
def Stock (cs : List Conn) (n : Nat) (s : ClientSession) (L : Ledger) : Prop :=
  cs.length ≤ n ∧ L.tokens ≤ s.pinnedConnection.isSome.toNat + 1 ∧ L.pins = s.pinnedConnection.isSome.toNat ∧
    ∀ c, L.doubt = some c → s.pinnedConnection = some c

/-- What holds at every call, with `cs` and `n` the connections and tokens held beside the pin. -/
structure Base (cs : List Conn) (n : Nat) (s : ClientSession) (L : Ledger) : Prop where
  pinned : ∀ t, s.tx = some t → s.pinnedConnection = some t.conn
  release : s.pinnedConnection.isSome → s.pinnedRelease = true
  unfinished : ∀ t, s.tx = some t → t ∉ L.log.finished
  held : L.held = cs ++ s.pinnedConnection.toList
  tokens : L.tokens = n + s.pinnedRelease.toNat
  side : cs ≠ [] ∨ n ≠ 0 → Free s L
  counted : L.log.generation = L.log.confirmed
  once : L.log.executed.length ≤ 1
  stock : Stock cs n s L

/-- A transaction that was begun and is not finished is the open one. -/
def Begun (s : ClientSession) (L : Ledger) : Prop :=
  ∀ t ∈ L.log.begun, t ∉ L.log.finished → s.tx = some t

/-- A handle's statement belongs to the pinned connection, and to the transaction if it is bound. -/
structure HandleOK (tx : Option Tx) (pin : Option Conn) (p : PreparedStatement) : Prop where
  statement : ∀ st, p.statement = some st →
    st.query = p.query ∧ pin = some st.conn ∧ st.tx = if p.transactionBound then tx else none
  bound : p.transactionBound = true → p.statement.isSome ∧ tx.isSome

/-- What holds between the handlers of a command. -/
structure At (svc : Service) (cs : List Conn) (n : Nat) (s : ClientSession) (L : Ledger) : Prop
    extends Base cs n s L where
  begun : Begun s L
  cancel : s.txCancel = s.tx.isSome
  releases : s.pinnedRelease = s.pinnedConnection.isSome
  inTx : s.tx.isSome → s.state.inTransaction = true
  baseline : s.state.baseline = (newSession svc).state.baseline
  keys : ∀ id, id ∈ s.prepared → id ∈ s.state.prepared
  hold : ∀ id, id ∈ s.prepared → s.pinnedConnection.isSome
  handles : ∀ id p, s.prepared.lookup id = some p → HandleOK s.tx s.pinnedConnection p

/-- The two handle tables agree, and the identifiers are those of the `prepares` so far. -/
structure Tables (s : ClientSession) (prepares : Nat) : Prop where
  next : s.nextPreparedID.toNat = prepares
  ids : ∀ id ∈ s.state.prepared, 0 < id.toNat ∧ id.toNat ≤ prepares
  live : ∀ id ∈ s.state.prepared, id ∈ s.prepared

/-- A pin has a reason. -/
def Justified (s : ClientSession) : Prop :=
  s.pinnedConnection.isSome → s.tx.isSome ∨ ∃ id, id ∈ s.prepared

/-- What a session that can go on knows of itself: no commit failed, it is poisoned when a rollback
failed, its logical state agrees with the transaction as long as none did, and the tables agree as long
as identifiers last, the handles as long as no identifier came back while it was in use. -/
structure Steady (s : ClientSession) (L : Ledger) : Prop where
  alive : L.log.commitFailed = false
  poisoned : s.state.poisoned = L.log.rollbackFailed
  agree : L.log.rollbackFailed = false → s.state.inTransaction = s.tx.isSome
  tables : L.log.prepares < 2 ^ 32 → Tables s L.log.prepares
  live : L.log.collided = false → ∀ id ∈ s.state.prepared, id ∈ s.prepared

/-- What holds when the next command may be read. -/
structure Ready (s : ClientSession) (L : Ledger) : Prop extends Steady s L where
  justified : L.log.prepares < 2 ^ 32 → Justified s

/-- What an OK reply to a request says: an open transaction it commits is committed, and the
statement it executes was executed. -/
structure Request.Earned (r : Request) (l : Log) : Prop where
  commit : ∀ st t, r.statement? = some st → st.kind = .commit ∨ st.kind = .autocommitOn →
    r.before.tx = some t → t ∈ l.committed
  statement : ∀ st, r.statement? = some st → st.kind = .write ∨ st.kind = .ddl → (st.sql, true) ∈ l.executed
  handle : ∀ p, r.handle? = some p → (classifySQL p.query).kind ≠ .read → (p.query, true) ∈ l.executed

/-- A status that tells the client of a transaction exactly when one is open. -/
def StatusOK (s : ClientSession) (L : Ledger) (p : Packet) : Prop :=
  ∀ status, p.status? = some status → L.log.rollbackFailed = false →
    (status &&& serverStatusInTransaction ≠ 0 ↔ s.tx.isSome)

/-- How many tokens a call is short of: one, when a read outside a transaction closes its connection. -/
def Owes (L : Ledger) (o : Op) (k : Nat) : Prop :=
  k = 0 ∨ k = 1 ∧ (∃ c, o = .closeConn c) ∧ ∃ r, L.log.request = some r ∧ r.ReadsAlone

/-- What is true of a call where it is made. -/
structure Good (s : ClientSession) (L : Ledger) (o : Op) : Prop where
  base : ∃ k, Owes L o k ∧ ∃ cs n, Base cs (n + k) s { L with tokens := L.tokens + k }
  begun : ∀ t ∈ L.log.begun, t ∉ L.log.finished → s.tx = some t ∨ o = .rollback t
  noPanic : o ≠ .panic
  owned : ∀ c, o.connection? = some c → c ∈ L.held
  through : ∀ via, o.sends? = some via → via.transaction = s.tx ∨ (s.tx = none ∧ ∃ t, o = .rollback t)
  text : ∀ q, o.text? = some q → s.tx.isSome → (classifySQL q).kind = .ddl →
    ∃ r, L.log.request = some r ∧ r.ExecutesDDL
  once : ∀ q, o.executes? = some q → L.log.executed = []
  admits : o.admits = true → Free s L
  reply : ∀ sequence p, o = .writeMessage sequence p → L.log.commitFailed = false ∧ StatusOK s L p ∧
    (p.isOK = true → ∀ r, L.log.request = some r → r.Earned L.log)
  reads : o = .readMessage → L.log.commitFailed = false
  release : o = .releaseAdmission → 0 < L.tokens
  room : o = .databaseConn → L.held.length < L.tokens
  returns : ∀ c, o = .closeConn c → L.doubt = some c → ∀ id, id ∉ s.prepared
  finishes : ∀ t, o = .commit t ∨ o = .rollback t → s.pinnedConnection = some t.conn

/-! ## Steps of the session and the ledger -/

/-- The session with a pin. -/
def ClientSession.pin (s : ClientSession) (c : Conn) : ClientSession :=
  { s with pinnedConnection := some c, pinnedRelease := true }

/-- The session without a pin. -/
def ClientSession.unpin (s : ClientSession) : ClientSession :=
  { s with pinnedConnection := none, pinnedRelease := false }

/-- The ledger with one more token. -/
def Ledger.grant (L : Ledger) : Ledger := { L with tokens := L.tokens + 1 }

/-- The ledger with one more connection. -/
def Ledger.lease (L : Ledger) (c : Conn) : Ledger := { L with held := c :: L.held }

/-- The ledger with a connection and a token that are counted as a pin. -/
def Ledger.takePin (L : Ledger) (c : Conn) : Ledger := { L.grant.lease c with pins := L.pins + 1 }

/-- The ledger with nothing held. -/
def Ledger.clear (L : Ledger) : Ledger := { L with held := [], tokens := 0, pins := 0, doubt := none }

/-! ## Calls that are good -/

section Intro

variable {cs : List Conn} {n : Nat} {s : ClientSession} {L : Ledger} {o : Op}

/-- Of the session only the transaction and the pin matter. -/
theorem Base.congr {s' : ClientSession} (h : Base cs n s L) (htx : s'.tx = s.tx)
    (hp : s'.pinnedConnection = s.pinnedConnection) (hr : s'.pinnedRelease = s.pinnedRelease) : Base cs n s' L := by
  obtain ⟨pinned, release, unfinished, held, tokens, side, counted, once, stock⟩ := h
  rw [← htx, ← hp] at pinned
  rw [← hp, ← hr] at release
  rw [← htx] at unfinished
  rw [← hp] at held
  rw [← hr] at tokens
  rw [Free, ← htx, ← hp] at side
  rw [Stock, ← hp] at stock
  exact ⟨pinned, release, unfinished, held, tokens, side, counted, once, stock⟩

theorem Op.quiet_of_connection (h : o.connection? = none) :
    o.sends? = none ∧ o.text? = none ∧ o.executes? = none := by
  cases o <;> simp_all [Op.connection?, Op.sends?, Op.text?, Op.executes?]

/-- A call that concerns no connection and is no reply. -/
theorem Good.quiet (hB : Base cs n s L) (hb : Begun s L) (hc : o.connection? = none) (hp : o ≠ .panic)
    (hw : ∀ sequence p, o ≠ .writeMessage sequence p) (hr : o ≠ .readMessage)
    (ha : o.admits = true → Free s L) (ht : o = .releaseAdmission → 0 < L.tokens)
    (hd : o = .databaseConn → L.held.length < L.tokens) : Good s L o := by
  obtain ⟨hs, htext, he⟩ := Op.quiet_of_connection hc
  refine ⟨⟨0, .inl rfl, cs, n, hB⟩, fun t h h' => .inl (hb t h h'), hp, ?_, ?_, ?_, ?_, ha, ?_,
    fun h => absurd h hr, ht, hd, ?_, ?_⟩
  · simp [hc]
  · simp [hs]
  · simp [htext]
  · simp [he]
  · exact fun sequence p h => absurd h (hw sequence p)
  · rintro c rfl; cases hc
  · rintro t (rfl | rfl) <;> cases hc

/-- A call that gives a connection or a statement of a held connection back. -/
theorem Good.gives {c : Conn} (hB : Base cs n s L) (hb : Begun s L) (hc : o.connection? = some c)
    (hm : c ∈ L.held) (hs : o.sends? = none) (ht : o.text? = none)
    (hd : ∀ c, o = .closeConn c → L.doubt = some c → ∀ id, id ∉ s.prepared) : Good s L o := by
  have he : o.executes? = none := by cases o <;> simp_all [Op.text?, Op.executes?]
  refine ⟨⟨0, .inl rfl, cs, n, hB⟩, fun t h h' => .inl (hb t h h'), ?_, ?_, ?_, ?_, ?_, ?_, ?_, ?_, ?_, ?_, hd, ?_⟩
  · rintro rfl; simp [Op.connection?] at hc
  · rw [hc]; rintro _ ⟨⟩; exact hm
  · simp [hs]
  · simp [ht]
  · simp [he]
  · intro ha; cases o <;> simp_all [Op.connection?, Op.admits]
  · rintro _ _ rfl; cases hc
  · rintro rfl; cases hc
  · rintro rfl; cases hc
  · rintro rfl; cases hc
  · rintro t (rfl | rfl) <;> cases hs

/-- The close of a connection whose token is gone already. -/
theorem Good.late {c : Conn} {r : Request} (hB : Base cs (n + 1) s L.grant) (hb : Begun s L) (hm : c ∈ L.held)
    (hr : L.log.request = some r) (ha : r.ReadsAlone) (hd : L.doubt ≠ some c) : Good s L (.closeConn c) := by
  have hG : Good s L.grant (.closeConn c) := by
    refine .gives hB hb rfl hm rfl rfl ?_
    rintro _ ⟨⟩ h; exact absurd h hd
  exact ⟨⟨1, .inr ⟨rfl, ⟨c, rfl⟩, r, hr, ha⟩, cs, n, hB⟩, hG.begun, hG.noPanic, hG.owned, hG.through, hG.text, hG.once,
    hG.admits, hG.reply, hG.reads, by simp, by simp, hG.returns, hG.finishes⟩

/-- A call that sends a statement where the session's statements go. -/
theorem Good.sends {c : Conn} {via : Via} (hB : Base cs n s L) (hb : Begun s L)
    (hc : o.connection? = some c) (hm : c ∈ L.held) (hs : o.sends? = some via) (hv : via.transaction = s.tx)
    (ht : ∀ q, o.text? = some q → s.tx.isSome → (classifySQL q).kind = .ddl →
      ∃ r, L.log.request = some r ∧ r.ExecutesDDL)
    (he : ∀ q, o.executes? = some q → L.log.executed = []) : Good s L o := by
  refine ⟨⟨0, .inl rfl, cs, n, hB⟩, fun t h h' => .inl (hb t h h'), ?_, ?_, ?_, ht, he, ?_, ?_, ?_, ?_, ?_, ?_, ?_⟩
  · rintro rfl; simp [Op.connection?] at hc
  · rw [hc]; rintro _ ⟨⟩; exact hm
  · rw [hs]; rintro _ ⟨⟩; exact .inl hv
  · intro ha; cases o <;> simp_all [Op.connection?, Op.admits]
  · rintro _ _ rfl; cases hc
  · rintro rfl; cases hc
  · rintro rfl; cases hc
  · rintro rfl; cases hc
  · rintro _ rfl; cases hs
  · rintro t (rfl | rfl) <;> cases hs <;> exact hB.pinned t hv.symm

/-- A reply to the client. -/
theorem Good.writes {sequence : UInt8} {p : Packet} (hB : Base cs n s L) (hb : Begun s L)
    (ha : L.log.commitFailed = false) (hs : StatusOK s L p)
    (ho : p.isOK = true → ∀ r, L.log.request = some r → r.Earned L.log) :
    Good s L (.writeMessage sequence p) := by
  refine ⟨⟨0, .inl rfl, cs, n, hB⟩, fun t h h' => .inl (hb t h h'), by simp, ?_, ?_, ?_, ?_, ?_, ?_, by simp,
    by simp, by simp, by simp, by simp⟩
  · simp [Op.connection?]
  · simp [Op.sends?]
  · simp [Op.text?]
  · simp [Op.executes?]
  · simp [Op.admits]
  · rintro _ _ ⟨⟩; exact ⟨ha, hs, ho⟩

end Intro

/-! ## Changes that keep the invariant -/

section Change

variable {svc : Service} {cs : List Conn} {n : Nat} {s : ClientSession} {L : Ledger}

theorem Base.grant (h : Base cs 0 s L) (hf : Free s L) (hr : s.pinnedRelease = s.pinnedConnection.isSome) :
    Base cs 1 s L.grant where
  pinned := h.pinned
  release := h.release
  unfinished := h.unfinished
  held := h.held
  tokens := by simp only [Ledger.grant, h.tokens]; omega
  side _ := hf
  counted := h.counted
  once := h.once
  stock := by
    obtain ⟨hcover, -, hpins, hdoubt⟩ := h.stock
    refine ⟨Nat.le_succ_of_le hcover, ?_, hpins, hdoubt⟩
    simp only [Ledger.grant, h.tokens, hr]
    omega

theorem Base.lease (h : Base cs n s L) (hf : Free s L) (hn : cs.length < n) (c : Conn) :
    Base (c :: cs) n s (L.lease c) where
  pinned := h.pinned
  release := h.release
  unfinished := h.unfinished
  held := by simp [Ledger.lease, h.held]
  tokens := h.tokens
  side _ := hf
  counted := h.counted
  once := h.once
  stock := ⟨hn, h.stock.2⟩

/-- There is a token for one more connection. -/
theorem Base.room (h : Base cs n s L) (hn : cs.length < n) : L.held.length < L.tokens := by
  rw [h.held, h.tokens, List.length_append]
  cases hp : s.pinnedConnection with
  | none => simp only [Option.toList_none, List.length_nil]; omega
  | some c =>
    rw [h.release (by rw [hp]; rfl)]
    simp only [Option.toList_some, List.length_singleton, Bool.toNat_true]
    omega

/-- A connection that was not held is not the one in doubt. -/
theorem Base.doubt_ne (h : Base cs n s L) {c : Conn} (hc : c ∉ L.held) : L.doubt ≠ some c := by
  intro hd
  have hp := h.stock.2.2.2 c hd
  rw [h.held, hp] at hc
  simp at hc

/-- Giving a connection up undoes its lease. -/
theorem Ledger.giveUp_lease (L : Ledger) {c : Conn} (hc : L.doubt ≠ some c) : (L.lease c).giveUp c = L := by
  simp [Ledger.lease, Ledger.giveUp, hc]

/-- The connection in doubt is the pinned one, also after a transaction on it failed. -/
theorem Base.doubts (h : Base cs n s L) {c : Conn} (hp : s.pinnedConnection = some c) (failing : Bool) :
    ∀ d, (if failing then some c else L.doubt) = some d → s.pinnedConnection = some d := by
  intro d hd
  split at hd
  · rw [hp]; exact hd
  · exact h.stock.2.2.2 d hd

/-- The parts of `At` that do not concern what is held beside the pin. -/
theorem At.of_base {cs' : List Conn} {n' : Nat} {L' : Ledger} (h : At svc cs n s L) (hB : Base cs' n' s L')
    (hl : L'.log.begun = L.log.begun) (hf : L'.log.finished = L.log.finished) : At svc cs' n' s L' where
  toBase := hB
  begun := by unfold Begun; rw [hl, hf]; exact h.begun
  cancel := h.cancel
  releases := h.releases
  inTx := h.inTx
  baseline := h.baseline
  keys := h.keys
  hold := h.hold
  handles := h.handles

theorem At.grant (h : At svc cs 0 s L) (hf : Free s L) : At svc cs 1 s L.grant :=
  h.of_base (h.toBase.grant hf h.releases) rfl rfl

theorem At.lease (h : At svc cs n s L) (hf : Free s L) (hn : cs.length < n) (c : Conn) :
    At svc (c :: cs) n s (L.lease c) :=
  h.of_base (h.toBase.lease hf hn c) rfl rfl

/-- Without a pin there is no transaction and no handle. -/
theorem At.unpinned (h : At svc cs n s L) (hp : s.pinnedConnection = none) :
    s.tx = none ∧ s.pinnedRelease = false ∧ ∀ id, id ∉ s.prepared := by
  refine ⟨?_, by rw [h.releases, hp]; rfl, fun id hid => ?_⟩
  · cases htx : s.tx with
    | none => rfl
    | some t => rw [h.pinned t htx] at hp; cases hp
  · have := h.hold id hid
    rw [hp] at this; cases this

theorem At.free (h : At svc cs n s L) (hp : s.pinnedConnection = none) : Free s L :=
  ⟨(h.unpinned hp).1, .inl hp⟩

/-- Pin a connection: the token and the connection become those of the pin. -/
theorem At.pin (h : At svc [] 0 s L) (hp : s.pinnedConnection = none) (c : Conn) :
    At svc [] 0 (s.pin c) (L.takePin c) := by
  obtain ⟨htx, hrel, hid⟩ := h.unpinned hp
  obtain ⟨-, htok, hpins, hdoubt⟩ := h.stock
  have htokens : (L.takePin c).tokens = 1 := by simp [Ledger.takePin, Ledger.grant, Ledger.lease, h.tokens, hrel]
  refine ⟨⟨?_, fun _ => rfl, ?_, ?_, htokens, by simp, h.counted, h.once, Nat.zero_le _, ?_, ?_, ?_⟩, ?_,
    h.cancel, rfl, ?_, h.baseline, h.keys, fun _ _ => rfl, ?_⟩
  · intro t ht; simp [ClientSession.pin, htx] at ht
  · intro t ht; simp [ClientSession.pin, htx] at ht
  · simp [Ledger.takePin, Ledger.grant, Ledger.lease, h.held, hp, ClientSession.pin]
  · rw [htokens]; exact Nat.le_add_left _ _
  · simp [Ledger.takePin, hpins, hp, ClientSession.pin]
  · intro d hd
    have := hdoubt d hd
    rw [hp] at this; cases this
  · exact h.begun
  · exact h.inTx
  · intro id p hl
    exact absurd (AList.lookup_isSome.1 (Option.isSome_of_eq_some hl)) (hid id)

/-- With nothing held the books are empty. -/
theorem Stock.clear : Stock [] 0 s.unpin L.clear := by
  refine ⟨le_rfl, Nat.zero_le _, rfl, ?_⟩
  rintro c ⟨⟩

/-- Give the pin up, when nothing needs it. -/
theorem At.unpin (h : At svc [] 0 s L) (htx : s.tx = none) (hid : ∀ id, id ∉ s.prepared) :
    At svc [] 0 s.unpin L.clear := by
  refine ⟨⟨?_, by simp [ClientSession.unpin], ?_, rfl, rfl, by simp, h.counted, h.once, .clear⟩, h.begun, h.cancel,
    rfl, h.inTx, h.baseline, h.keys, fun id hm => absurd hm (hid id), ?_⟩
  · intro t ht; simp [ClientSession.unpin, htx] at ht
  · intro t ht; simp [ClientSession.unpin, htx] at ht
  · intro id p hl
    exact absurd (AList.lookup_isSome.1 (Option.isSome_of_eq_some hl)) (hid id)

/-- A change of the logical state that keeps the transaction flag, the handles and the baseline. -/
theorem At.setState (h : At svc cs n s L) {st : Logical} (hi : st.inTransaction = s.state.inTransaction)
    (hp : st.prepared = s.state.prepared) (hb : st.baseline = s.state.baseline) :
    At svc cs n { s with state := st } L where
  pinned := h.pinned
  release := h.release
  unfinished := h.unfinished
  held := h.held
  tokens := h.tokens
  side := h.side
  counted := h.counted
  once := h.once
  stock := h.stock
  begun := h.begun
  cancel := h.cancel
  releases := h.releases
  inTx := by simpa only [hi] using h.inTx
  baseline := hb.trans h.baseline
  keys := by simpa only [hp] using h.keys
  hold := h.hold
  handles := h.handles

theorem Steady.setState (h : Steady s L) {st : Logical} (hi : st.inTransaction = s.state.inTransaction)
    (hp : st.prepared = s.state.prepared) (hq : st.poisoned = s.state.poisoned) :
    Steady { s with state := st } L := by
  refine ⟨h.alive, hq.trans h.poisoned, fun hr => ?_, fun hl => ?_, by simpa only [hp] using h.live⟩
  · simpa only [hi] using h.agree hr
  · obtain ⟨h1, h2, h3⟩ := h.tables hl
    exact ⟨h1, by simpa only [hp] using h2, by simpa only [hp] using h3⟩

theorem Ready.setState (h : Ready s L) {st : Logical} (hi : st.inTransaction = s.state.inTransaction)
    (hp : st.prepared = s.state.prepared) (hq : st.poisoned = s.state.poisoned) :
    Ready { s with state := st } L := ⟨h.toSteady.setState hi hp hq, h.justified⟩

/-- What is steady does not depend on the pin, on what is held and on most of the log. -/
theorem Steady.congr {s' : ClientSession} {L' : Ledger} (h : Steady s L) (hs : s'.state = s.state)
    (ht : s'.tx = s.tx) (hp : ∀ id, id ∈ s'.prepared ↔ id ∈ s.prepared)
    (hn : s'.nextPreparedID = s.nextPreparedID) (hc : L'.log.commitFailed = L.log.commitFailed)
    (hr : L'.log.rollbackFailed = L.log.rollbackFailed) (hk : L'.log.prepares = L.log.prepares)
    (hl : L'.log.collided = L.log.collided) : Steady s' L' := by
  refine ⟨hc.trans h.alive, by rw [hr, hs]; exact h.poisoned, by rw [hr, hs, ht]; exact h.agree, fun hlt => ?_,
    fun hlt id hid => (hp id).2 (h.live (hl ▸ hlt) id (hs ▸ hid))⟩
  obtain ⟨h4, h5, h6⟩ := h.tables (hk ▸ hlt)
  exact ⟨by rw [hn, hk]; exact h4, by rw [hs, hk]; exact h5, fun id hid => (hp id).2 (h6 id (hs ▸ hid))⟩

theorem Steady.of_log {s' : ClientSession} {L' : Ledger} (h : Steady s L) (hs : s'.state = s.state)
    (ht : s'.tx = s.tx) (hp : s'.prepared = s.prepared) (hn : s'.nextPreparedID = s.nextPreparedID)
    (hl : L'.log = L.log) : Steady s' L' :=
  h.congr hs ht (by simp [hp]) hn (by rw [hl]) (by rw [hl]) (by rw [hl]) (by rw [hl])

theorem Ready.of_log {L' : Ledger} (h : Ready s L) (hl : L'.log = L.log) : Ready s L' :=
  ⟨h.toSteady.of_log rfl rfl rfl rfl hl, hl ▸ h.justified⟩

/-- A handle that is not bound to a transaction does not depend on it. -/
theorem HandleOK.unbound {tx : Option Tx} {pin : Option Conn} {p : PreparedStatement} (h : HandleOK tx pin p)
    (hu : p.transactionBound = false) (tx' : Option Tx) : HandleOK tx' pin p := by
  refine ⟨fun st hst => ?_, by simp [hu]⟩
  have := h.statement st hst
  rw [hu] at this ⊢
  exact this

theorem status_inTransaction (s : ClientSession) :
    s.status &&& serverStatusInTransaction ≠ 0 ↔ s.state.inTransaction = true := by
  unfold ClientSession.status serverStatusAutocommit serverStatusInTransaction
  cases s.state.autocommit <;> cases s.state.inTransaction <;> decide

theorem Steady.statusOK (h : Steady s L) {p : Packet} (hp : ∀ st, p.status? = some st → st = s.status) :
    StatusOK s L p := by
  intro st hst hr
  rw [hp st hst, status_inTransaction, h.agree hr]

end Change

end Accelerator.Gateway
