/-
Logins and sessions of the control interface (`control/auth.go`). A session is a cookie that carries the time it
ends and a code over that time; the server keeps nothing of it. Logins run side by side: each reads the failures of
its client, decodes its body and only then counts a wrong token. What a client can try in a minute, and which
requests are let through, is read off every order of these steps.
-/
import Accelerator.Control.AdminAuth
import Accelerator.Upstream.Types

namespace Accelerator.Control

open Strings Settings Interact Upstream

/-! ## Cookies -/

/-- The functions of the cryptographic library. -/
structure Crypto where
  sha256 : Bytes → Bytes
  /-- HMAC-SHA256 of a message under a key. -/
  hmac : (key message : Bytes) → Bytes

/-- A digit of `base64.RawURLEncoding`. -/
def urlDigit (n : Nat) : UInt8 :=
  let n := n % 64
  UInt8.ofNat (if n < 26 then 65 + n else if n < 52 then 71 + n else if n < 62 then n - 4 else if n = 62 then 45 else 95)

/-- `base64.RawURLEncoding.EncodeToString`. -/
def encodeToString : Bytes → Bytes
  | a :: b :: c :: rest =>
    let n := a.toNat * 65536 + b.toNat * 256 + c.toNat
    urlDigit (n / 262144) :: urlDigit (n / 4096) :: urlDigit (n / 64) :: urlDigit n :: encodeToString rest
  | [a, b] =>
    let n := a.toNat * 65536 + b.toNat * 256
    [urlDigit (n / 262144), urlDigit (n / 4096), urlDigit (n / 64)]
  | [a] => [urlDigit (a.toNat * 65536 / 262144), urlDigit (a.toNat * 65536 / 4096)]
  | [] => []

/-- `Time.Unix`, of a time in nanoseconds after the zero `time.Time`. -/
def unix (t : Int) : Int := t / second - 62135596800

/-- `strconv.FormatInt(i, 10)`. -/
def formatInt (i : Int) : Bytes := toBytes (text (toString i))

/-- The code over the time a session ends. -/
def sign (crypto : Crypto) (token expires : Bytes) : Bytes :=
  encodeToString (crypto.hmac token (lit "database-accelerator-admin-session-v1:" ++ expires))

/-- `authenticated`, with the value of the cookie if there is one. -/
def authenticated (crypto : Crypto) (token : Bytes) (cookie : Option Bytes) (now : Int) : Bool :=
  if token = [] then true
  else
    match cookie with
    | none => false
    | some value =>
      match value.splitOn 46 with
      | [expires, signature] =>
        match parseInt expires 64 with
        | .error _ => false
        | .ok expiresUnix => if expiresUnix ≤ unix now then false else signature = sign crypto token expires
      | _ => false

/-- The value of the cookie that `login` sets. -/
def sessionCookie (crypto : Crypto) (token expires : Bytes) : Bytes := expires ++ 46 :: sign crypto token expires

/-- The text of the time that a session begun now ends. -/
def expiry (now : Int) : Bytes := formatInt (unix (now + 8 * 60 * minute))

section Cookies

variable {crypto : Crypto} {token value expires : Bytes} {now : Int}

theorem urlDigit_ne_dot (n : Nat) : urlDigit n ≠ 46 := by
  have h : ∀ k : Fin 64, urlDigit k ≠ 46 := by decide
  have := h ⟨n % 64, Nat.mod_lt _ (by omega)⟩
  unfold urlDigit at this ⊢
  rwa [Nat.mod_mod] at this

theorem encodeToString_no_dot (b : Bytes) : 46 ∉ encodeToString b := by
  fun_induction encodeToString b with
  | case1 a b c rest n ih => simp [Ne.symm (urlDigit_ne_dot _), ih]
  | case2 a b n => simp [Ne.symm (urlDigit_ne_dot _)]
  | case3 a => simp [Ne.symm (urlDigit_ne_dot _)]
  | case4 => simp

theorem natural_no_dot {s : Bytes} {n : Nat} (h : natural s = some n) : 46 ∉ s := by
  obtain ⟨-, hall, -⟩ := natural_eq_some.1 h
  intro hdot
  have := List.all_eq_true.1 hall 46 hdot
  revert this
  decide

/-- A numeral has no point. -/
theorem numeral_no_dot {s : Bytes} {i : Int} (h : numeral s = some i) : 46 ∉ s := by
  unfold numeral at h
  split at h
  all_goals
    obtain ⟨n, hn, -⟩ := Option.map_eq_some_iff.1 h
    have := natural_no_dot hn
    simpa using this

/-- The converse of `parseInt_eq_ok`. -/
theorem parseInt_of_numeral {s : Bytes} {i : Int} (h : numeral s = some i) (hlow : -2 ^ 63 ≤ i) (hhigh : i < 2 ^ 63) :
    parseInt s 64 = .ok i := by
  have hsigned : ∀ {neg : Bool} {t : Bytes} {n : Nat}, natural t = some n → (if neg then -(n : Int) else (n : Int)) = i →
      parseIntSigned neg t 64 = .ok i := by
    intro neg t n hn hi
    have hparse : parseUint t 64 = .ok n := by
      refine parseUint_eq_ok.2 ⟨hn, ?_⟩
      cases neg <;> simp at hi <;> omega
    unfold parseIntSigned
    rw [hparse]
    cases neg with
    | false =>
      simp only [Bool.false_eq_true, if_false] at hi
      have : n < 9223372036854775808 := by omega
      simp [bind, Except.bind, pure, Except.pure, this, hi]
    | true =>
      simp only [if_true] at hi
      have : n ≤ 9223372036854775808 := by omega
      simp [bind, Except.bind, pure, Except.pure, this, hi]
  unfold numeral at h
  unfold parseInt
  split at h
  all_goals
    obtain ⟨n, hn, hi⟩ := Option.map_eq_some_iff.1 h
    exact hsigned hn hi

/-- What is let through: a cookie with a numeral for a time to come and the code over that numeral. -/
theorem authenticated_iff (htoken : token ≠ []) :
    authenticated crypto token (some value) now = true ↔ ∃ expires i, value = sessionCookie crypto token expires ∧
      parseInt expires 64 = .ok i ∧ unix now < i := by
  unfold authenticated
  rw [if_neg htoken]
  constructor
  · intro h
    simp only at h
    split at h
    · rename_i expires signature hsplit
      split at h
      · cases h
      · rename_i i hi
        split at h
        · cases h
        · rename_i hlt
          refine ⟨expires, i, ?_, hi, by omega⟩
          have hjoin : [(46 : UInt8)].intercalate (value.splitOn 46) = value := List.intercalate_splitOn 46
          rw [hsplit] at hjoin
          rw [← hjoin, of_decide_eq_true h]
          simp [sessionCookie, List.intercalate]
    · cases h
  · rintro ⟨expires, i, rfl, hi, hlt⟩
    have hdot := numeral_no_dot (parseInt_eq_ok hi).1
    have hsplit : (sessionCookie crypto token expires).splitOn 46 = [expires, sign crypto token expires] := by
      rw [sessionCookie, List.splitOn_append_cons_self_of_not_mem hdot, sign, List.splitOn_eq_singleton (encodeToString_no_dot _)]
    simp only [hsplit, hi]
    rw [if_neg (by omega)]
    simp

end Cookies

/-! ## Logins -/

/-- `remoteHost`. -/
def remoteHost (address : Text) : Text :=
  match splitHostPort address with
  | .ok (host, _) => host
  | .error _ => address

/-- A session that was begun: the token that was given, and when. -/
structure Issue where
  given : Bytes
  at' : Int
  deriving DecidableEq, Repr

/-- The control interface, with the logins under way and a record of what they did. -/
structure Admin where
  failures : Failures
  /-- The time of the last step. -/
  clock : Int
  /-- The clients of the logins that passed the limit and whose bodies are not judged yet. -/
  checked : List Text
  /-- The wrong tokens, the latest first, by the key they were counted under. -/
  wrong : List (Text × Int)
  issued : List Issue

/-- The steps of the handlers. -/
inductive AdminStep where
  /-- A login reads the failures of its client. -/
  | check (address : Text) (now : Int)
  /-- The body of a login is malformed. -/
  | malformed (address : Text)
  /-- The token of a login is compared. -/
  | judge (address : Text) (given : Bytes) (now : Int)
  | logout
  deriving DecidableEq, Repr

namespace Admin

/-- The first part of `login`, up to the rate limit. -/
def check (g : Admin) (client : Text) (now : Int) : Admin :=
  let r := g.failures.rateLimited client now
  { g with failures := r.2, clock := now, checked := if r.1 then g.checked else client :: g.checked }

/-- The last part of `login`: a wrong token is counted, the right one begins a session. -/
def judge (crypto : Crypto) (token : Bytes) (g : Admin) (client : Text) (given : Bytes) (now : Int) : Admin :=
  if crypto.sha256 given = crypto.sha256 token then
    { g with
      failures := g.failures.clearFailures client
      clock := now
      checked := g.checked.erase client
      issued := ⟨given, now⟩ :: g.issued }
  else
    { g with
      failures := g.failures.recordFailure client now
      clock := now
      checked := g.checked.erase client
      wrong := ((g.failures.failureKeyLocked client now).1, now) :: g.wrong }

/-- The interface after a step, when an admin token is set. A `logout` answers with an empty cookie. -/
def step (crypto : Crypto) (token : Bytes) (g : Admin) : AdminStep → Option Admin
  | .check address now => some (g.check (remoteHost address) now)
  | .malformed address =>
    if remoteHost address ∈ g.checked then some { g with checked := g.checked.erase (remoteHost address) } else none
  | .judge address given now =>
    if remoteHost address ∈ g.checked then some (g.judge crypto token (remoteHost address) given now) else none
  | .logout => some g

def machine (crypto : Crypto) (token : Bytes) : Machine Admin AdminStep := ⟨step crypto token⟩

/-- The interface before the first request. -/
def fresh (now : Int) : Admin := ⟨∅, now, [], [], []⟩

end Admin

/-! ## Sessions -/

/-- The cookie of a session. -/
def Issue.cookie (crypto : Crypto) (token : Bytes) (i : Issue) : Bytes := sessionCookie crypto token (expiry i.at')

/-- A cookie carries the time its session ends. -/
theorem expires_of_cookie {crypto : Crypto} {token expires : Bytes} {i : Issue}
    (h : i.cookie crypto token = sessionCookie crypto token expires) : expiry i.at' = expires := by
  have hdot : 46 ∉ expiry i.at' := numeral_no_dot (numeral_toString _)
  exact ((List.append_cons_inj_of_notMem hdot (encodeToString_no_dot _)).1 h).1

/-- Sessions are begun with a token that has the digest of the admin token. -/
theorem issued_given {crypto : Crypto} {token : Bytes} {now : Int} {g : Admin}
    (h : (Admin.machine crypto token).Reach (fun _ _ => True) (Admin.fresh now) g) :
    ∀ i ∈ g.issued, crypto.sha256 i.given = crypto.sha256 token := by
  refine h.invariant (I := fun g => ∀ i ∈ g.issued, crypto.sha256 i.given = crypto.sha256 token) (List.forall_mem_nil _) ?_
  rintro g a g' hI - hs
  cases a with
  | check address t => cases hs; exact hI
  | malformed address =>
    obtain ⟨-, he⟩ := Option.ite_none_right_eq_some.1 hs
    cases he
    exact hI
  | judge address given t =>
    obtain ⟨-, he⟩ := Option.ite_none_right_eq_some.1 hs
    cases he
    unfold Admin.judge
    split
    · rename_i hright
      exact List.forall_mem_cons.2 ⟨hright, hI⟩
    · exact hI
  | logout => cases hs; exact hI

/-- However logins and logouts are interleaved, a request is let through exactly if its cookie was given to a login
that presented a token with the digest of the admin token, less than eight hours ago: no logout, failure or later
login ends a session before. The client cannot compute codes by itself. -/
theorem authenticated_iff_issued {crypto : Crypto} {token : Bytes} (htoken : token ≠ []) {start : Int} {g : Admin}
    (h : (Admin.machine crypto token).Reach (fun _ _ => True) (Admin.fresh start) g)
    (htime : ∀ i ∈ g.issued, 0 ≤ i.at' ∧ unix i.at' < 2 ^ 62) {cookie : Option Bytes}
    (hunforged : ∀ expires, cookie = some (sessionCookie crypto token expires) →
      ∃ i ∈ g.issued, expires = expiry i.at') (now : Int) :
    authenticated crypto token cookie now = true ↔ ∃ i ∈ g.issued, cookie = some (i.cookie crypto token) ∧
      crypto.sha256 i.given = crypto.sha256 token ∧ unix now < unix i.at' + 8 * 60 * 60 := by
  have hlater : ∀ t : Int, unix (t + 8 * 60 * minute) = unix t + 8 * 60 * 60 := by
    intro t
    simp only [unix, minute, second]
    omega
  constructor
  · intro ha
    cases cookie with
    | none =>
      rw [authenticated, if_neg htoken] at ha
      cases ha
    | some value =>
      obtain ⟨expires, i, rfl, hi, hlt⟩ := (authenticated_iff htoken).1 ha
      obtain ⟨issue, hissue, rfl⟩ := hunforged expires rfl
      refine ⟨issue, hissue, rfl, issued_given h issue hissue, ?_⟩
      have hnumeral := (parseInt_eq_ok hi).1
      rw [expiry, formatInt, numeral_toString, hlater] at hnumeral
      rw [Option.some.inj hnumeral]
      exact hlt
  · rintro ⟨issue, hissue, rfl, -, hlt⟩
    obtain ⟨hpos, hbound⟩ := htime issue hissue
    refine (authenticated_iff htoken).2 ⟨_, _, rfl, parseInt_of_numeral (numeral_toString _) ?_ ?_, ?_⟩
    · rw [hlater]
      have : -62135596800 ≤ unix issue.at' := by
        simp only [unix, second]
        omega
      omega
    · rw [hlater]
      omega
    · rw [hlater]
      exact hlt

/-- A library with no secrets. -/
def plainCrypto : Crypto where
  sha256 := id
  hmac key message := key ++ message

theorem authenticated_iff_issued_sample : ∃ g i,
    (Admin.machine plainCrypto [1]).Reach (fun _ _ => True) (Admin.fresh (63900000000 * second)) g ∧ i ∈ g.issued ∧
    (authenticated plainCrypto [1] (some (i.cookie plainCrypto [1])) (63900028799 * second) = true) ∧
    ¬ authenticated plainCrypto [1] (some (i.cookie plainCrypto [1])) (63900028800 * second) = true := by
  have hrun : ((Admin.machine plainCrypto [1]).runIf (fun _ _ => true) (Admin.fresh (63900000000 * second))
      [.check (text "192.0.2.7:4711") (63900000000 * second),
        .judge (text "192.0.2.7:4711") [1] (63900000000 * second), .logout]).map (·.issued) =
      some [⟨[1], 63900000000 * second⟩] := by decide +kernel
  obtain ⟨g, hg, hissued⟩ := Option.map_eq_some_iff.1 hrun
  have hreach : (Admin.machine plainCrypto [1]).Reach (fun _ _ => True) (Admin.fresh (63900000000 * second)) g :=
    (Machine.reach_of_runIf .init hg).mono fun _ _ _ => trivial
  have hmem : ⟨[1], 63900000000 * second⟩ ∈ g.issued := hissued ▸ List.mem_singleton_self _
  have hunforged : ∀ expires, some (Issue.cookie plainCrypto [1] ⟨[1], 63900000000 * second⟩) =
      some (sessionCookie plainCrypto [1] expires) → ∃ i ∈ g.issued, expires = expiry i.at' :=
    fun expires he => ⟨_, hmem, (expires_of_cookie (Option.some.inj he)).symm⟩
  have hiff := authenticated_iff_issued (by decide) hreach (by rw [hissued]; decide +kernel) hunforged
  refine ⟨g, _, hreach, hmem, (hiff _).2 ⟨_, hmem, rfl, rfl, by decide⟩, fun ha => ?_⟩
  obtain ⟨i, hi, -, -, hlt⟩ := (hiff _).1 ha
  rw [hissued, List.mem_singleton] at hi
  subst hi
  revert hlt
  decide

/-! ## Guesses -/

/-- The wrong tokens of a minute or less: when the first came, and when all of them came, the latest first. -/
structure Block where
  since : Int
  times : List Int

/-- Blocks of at most `bound` times each, the latest first, that begin a minute or more after one another. -/
inductive Spaced (bound : Nat) : List Block → Prop
  | nil : Spaced bound []
  | cons {b : Block} {rest : List Block} : b.times.length ≤ bound → (∀ x ∈ b.times, b.since ≤ x ∧ x < b.since + minute) →
      (∀ b' ∈ rest.head?, b'.since + minute ≤ b.since) → Spaced bound rest → Spaced bound (b :: rest)

section Window

variable {bound : Nat} {blocks : List Block} {t : Int}

/-- The times of a window of one minute. -/
def within (t x : Int) : Bool := t ≤ x && x < t + minute

/-- Blocks that end before the window have no times in it. -/
theorem Spaced.count_before (h : Spaced bound blocks) (hhead : ∀ b ∈ blocks.head?, b.since + minute ≤ t) :
    (blocks.flatMap (·.times)).countP (within t) = 0 := by
  induction h with
  | nil => rfl
  | @cons b rest hlen hin hnext hrest ih =>
    have hb : b.since + minute ≤ t := hhead b rfl
    have hrest0 := ih fun b' hb' => by
      have := hnext b' hb'
      simp only [minute, second] at this hb ⊢
      omega
    rw [List.flatMap_cons, List.countP_append, hrest0, List.countP_eq_zero.2]
    intro x hx
    have := (hin x hx).2
    simp only [within, Bool.and_eq_true, decide_eq_true_eq, not_and]
    omega

/-- When the latest block begins before the window, only it has times in it. -/
theorem Spaced.count_across (h : Spaced bound blocks) (hhead : ∀ b ∈ blocks.head?, b.since < t) :
    (blocks.flatMap (·.times)).countP (within t) ≤ bound := by
  cases h with
  | nil => exact Nat.zero_le _
  | @cons b rest hlen hin hnext hrest =>
    have hb : b.since < t := hhead b rfl
    have hrest0 := hrest.count_before (t := t) fun b' hb' => by
      have := hnext b' hb'
      omega
    rw [List.flatMap_cons, List.countP_append, hrest0]
    exact List.countP_le_length.trans hlen

/-- Two blocks at most have times in the window. -/
theorem Spaced.count_within (h : Spaced bound blocks) (t : Int) :
    (blocks.flatMap (·.times)).countP (within t) ≤ 2 * bound := by
  induction h with
  | nil => exact Nat.zero_le _
  | @cons b rest hlen hin hnext hrest ih =>
    rw [List.flatMap_cons, List.countP_append]
    by_cases hb : b.since < t + minute
    · have hrest' := hrest.count_across (t := t) fun b' hb' => by
        have := hnext b' hb'
        omega
      have := List.countP_le_length (p := within t) (l := b.times)
      omega
    · -- the latest block begins after the window
      have hnone : b.times.countP (within t) = 0 := by
        refine List.countP_eq_zero.2 fun x hx => ?_
        have := (hin x hx).1
        simp only [within, Bool.and_eq_true, decide_eq_true_eq, not_and]
        omega
      omega

end Window

/-- The steps of a run in which time does not go back, at most `m` logins of a client are under way at once, and none
of its tokens is right. -/
def Guessing (crypto : Crypto) (token : Bytes) (client : Text) (m : Nat) (g : Admin) : AdminStep → Prop
  | .check address now => g.clock ≤ now ∧ (remoteHost address = client → g.checked.count client < m)
  | .judge address given now =>
    g.clock ≤ now ∧ (remoteHost address = client → crypto.sha256 given ≠ crypto.sha256 token)
  | _ => True

instance (crypto : Crypto) (token : Bytes) (client : Text) (m : Nat) (g : Admin) :
    ∀ a, Decidable (Guessing crypto token client m g a)
  | .check _ _ => inferInstanceAs (Decidable (_ ∧ _))
  | .malformed _ => .isTrue trivial
  | .judge _ _ _ => inferInstanceAs (Decidable (_ ∧ _))
  | .logout => .isTrue trivial

/-- The wrong tokens that were counted for a client are those of its entry and, before, of entries that ended. -/
structure Counted (client : Text) (m : Nat) (g : Admin) (blocks : List Block) : Prop where
  clock : 0 < g.clock
  times : (g.wrong.filter (·.1 = client)).map (·.2) = blocks.flatMap (·.times)
  spaced : Spaced (m + 4) blocks
  checked : g.checked.count client ≤ m
  since : ∀ b ∈ blocks, 0 < b.since ∧ b.since ≤ g.clock
  entry : ∀ e, g.failures.lookup client = some e → ∃ b rest, blocks = b :: rest ∧ e = ⟨b.times.length, b.since⟩ ∧
    e.count + g.checked.count client ≤ m + 4
  none : g.failures.lookup client = none → ∀ b ∈ blocks.head?, b.since + minute ≤ g.clock

namespace Failures

variable {failures failures' : Failures} {client other : Text} {now : Int}

theorem lookup_purge (failures : Failures) (now : Int) (client : Text) :
    (failures.purge now).lookup client = (failures.lookup client).filter fun e => ¬ e.expired now := by
  ext e
  have hmem : e ∈ (failures.purge now).lookup client ↔ e ∈ failures.lookup client ∧ ¬ e.expired now := by
    rw [AList.mem_lookup_iff, AList.mem_lookup_iff]
    simp [purge, List.mem_filter]
  rw [← Option.mem_def, hmem, Option.filter_eq_some_iff]
  simp

/-- The entry of a client is as it was, or it was over and is gone. -/
def Fades (client : Text) (now : Int) (failures failures' : Failures) : Prop :=
  failures'.lookup client = failures.lookup client ∨
    (failures'.lookup client = none ∧ ∃ e, failures.lookup client = some e ∧ e.expired now)

theorem fades_purge (failures : Failures) (client : Text) : Fades client now failures (failures.purge now) := by
  unfold Fades
  rw [lookup_purge]
  cases hl : failures.lookup client with
  | none => exact .inl rfl
  | some e =>
    by_cases he : e.expired now
    · exact .inr ⟨by simp [he], e, rfl, he⟩
    · exact .inl (by simp [he])

/-- The key of a call and what it leaves of an entry. -/
theorem Keyed.fades {r : Text × Failures} (h : Keyed other now failures r) (client : Text) :
    Fades client now failures r.2 := by
  cases h with
  | kept _ => exact .inl rfl
  | purged _ _ => exact fades_purge failures client
  | shared _ _ => exact fades_purge failures client

theorem Keyed.key {r : Text × Failures} (h : Keyed other now failures r) :
    r.1 = other ∨ r.1 = overflow ∧ other ∉ failures := by
  cases h with
  | kept _ => exact .inl rfl
  | purged _ _ => exact .inl rfl
  | shared hno _ => exact .inr ⟨rfl, hno⟩

theorem Fades.lookup (h : Fades client now failures failures') {e : LoginFailures}
    (he : failures'.lookup client = some e) : failures.lookup client = some e := by
  rcases h with hsame | ⟨hnone, -⟩
  · exact hsame.symm.trans he
  · cases he.symm.trans hnone

/-- Another key's entry is changed. -/
theorem Fades.insert {key : Text} (h : Fades client now failures failures') (hne : client ≠ key) (e : LoginFailures) :
    Fades client now failures (failures'.insert key e) := by
  unfold Fades
  rw [AList.lookup_insert_ne hne]
  exact h

theorem Fades.erase {key : Text} (h : Fades client now failures failures') (hne : client ≠ key) :
    Fades client now failures (failures'.erase key) := by
  unfold Fades
  rw [AList.lookup_erase_ne hne]
  exact h

/-- A call of `rateLimited` leaves an entry alone unless it is over; a client that passes has at most four failures. -/
theorem rateLimited_spec (failures : Failures) (other : Text) (now : Int) (client : Text) :
    Fades client now failures (failures.rateLimited other now).2 ∧
    (other = client → (failures.rateLimited other now).1 = false →
      ∀ e, (failures.rateLimited other now).2.lookup client = some e → e.count ≤ 4) := by
  have hkeyed := failureKeyLocked_spec other now failures
  have hfades := hkeyed.fades client
  unfold rateLimited
  generalize hr : failures.failureKeyLocked other now = r at hkeyed hfades
  obtain ⟨key, f⟩ := r
  simp only at hfades ⊢
  by_cases hkey : client = key
  · subst hkey
    cases hl : f.lookup client with
    | none =>
      have herase : (f.erase client).lookup client = f.lookup client := by rw [AList.lookup_erase, hl]
      split_ifs
      · refine ⟨?_, fun _ _ e he => ?_⟩
        · unfold Fades
          rw [herase]
          exact hfades
        · rw [AList.lookup_erase] at he
          cases he
      · refine ⟨hfades, fun _ _ e he => ?_⟩
        rw [hl] at he
        cases he
    | some x =>
      have hentry : f.entry client = x := by rw [entry, hl]; rfl
      rw [hentry]
      -- the entry was found, and so it was there before
      have hbefore : failures.lookup client = some x := by
        rcases hfades with h | ⟨h, -⟩
        · exact h.symm.trans hl
        · rw [hl] at h
          cases h
      split_ifs with hx
      · refine ⟨.inr ⟨AList.lookup_erase _ _, x, hbefore, hx⟩, fun _ _ e he => ?_⟩
        rw [AList.lookup_erase] at he
        cases he
      · refine ⟨hfades, fun _ hpass e he => ?_⟩
        rw [hl] at he
        cases he
        have := of_decide_eq_false hpass
        omega
  · have hother : other = client → f.lookup client = none := by
      rintro rfl
      rcases hkeyed.key with h | ⟨-, hno⟩
      · exact absurd h.symm hkey
      · have hnone := AList.lookup_eq_none.2 hno
        rcases hfades with h | ⟨h, -⟩
        · exact h.trans hnone
        · exact h
    split_ifs
    · refine ⟨hfades.erase hkey, fun ho _ e he => ?_⟩
      rw [AList.lookup_erase_ne hkey, hother ho] at he
      cases he
    · refine ⟨hfades, fun ho _ e he => ?_⟩
      rw [hother ho] at he
      cases he

/-- A failure is counted in an entry of its own minute, or begins the next one. -/
theorem recordFailure_spec_of_key (h : (failures.failureKeyLocked client now).1 = client) :
    (∃ e, failures.lookup client = some e ∧ e.since ≠ 0 ∧ ¬ e.expired now ∧
      (failures.recordFailure client now).lookup client = some ⟨e.count + 1, e.since⟩) ∨
    ((∀ e, failures.lookup client = some e → e.since = 0 ∨ e.expired now) ∧
      (failures.recordFailure client now).lookup client = some ⟨1, now⟩) := by
  have hfades := (failureKeyLocked_spec client now failures).fades client
  simp only [recordFailure, h]
  generalize (failures.failureKeyLocked client now).2 = f at hfades ⊢
  rw [AList.lookup_insert]
  by_cases hover : (f.entry client).since = 0 ∨ (f.entry client).expired now
  · rw [if_pos hover]
    refine .inr ⟨fun e he => ?_, rfl⟩
    rcases hfades with hsame | ⟨-, e', he', hexp⟩
    · rw [entry, hsame, he] at hover
      exact hover
    · cases he.symm.trans he'
      exact .inr hexp
  · rw [if_neg hover]
    -- an entry that is not over was there before the call
    cases hl : f.lookup client with
    | none =>
      refine absurd (.inl ?_) hover
      rw [entry, hl]
      rfl
    | some e =>
      rw [entry, hl] at hover ⊢
      rcases hfades with hsame | ⟨hnone, -⟩
      · exact .inl ⟨e, hsame.symm.trans hl, fun h0 => hover (.inl h0), fun hx => hover (.inr hx), rfl⟩
      · cases hl.symm.trans hnone

/-- A failure that is counted under another key. -/
theorem fades_recordFailure (h : client ≠ (failures.failureKeyLocked other now).1) :
    Fades client now failures (failures.recordFailure other now) :=
  ((failureKeyLocked_spec other now failures).fades client).insert h _

end Failures

section Guesses

variable {crypto : Crypto} {token : Bytes} {client : Text} {m : Nat} {g g' : Admin} {blocks : List Block} {now : Int}

/-- A step that counts no wrong token of the client. -/
theorem Counted.fade (h : Counted client m g blocks) (hclock : g.clock ≤ g'.clock)
    (hfades : Failures.Fades client g'.clock g.failures g'.failures)
    (hwrong : g'.wrong.filter (·.1 = client) = g.wrong.filter (·.1 = client))
    (hchecked : g'.checked.count client ≤ m)
    (hentry : ∀ e, g'.failures.lookup client = some e → e.count + g'.checked.count client ≤ m + 4) :
    Counted client m g' blocks where
  clock := Int.lt_of_lt_of_le h.clock hclock
  times := by rw [hwrong, h.times]
  spaced := h.spaced
  checked := hchecked
  since b hb := ⟨(h.since b hb).1, Int.le_trans (h.since b hb).2 hclock⟩
  entry e he := by
    rcases hfades with hsame | ⟨hnone, -⟩
    · obtain ⟨b, rest, hb, hval, -⟩ := h.entry e (hsame.symm.trans he)
      exact ⟨b, rest, hb, hval, hentry e he⟩
    · cases he.symm.trans hnone
  none hn b hb := by
    rcases hfades with hsame | ⟨-, e, he, hexp⟩
    · exact Int.le_trans (h.none (hsame.symm.trans hn) b hb) hclock
    · -- the entry that is gone was that of the latest block
      obtain ⟨b', rest, rfl, rfl, -⟩ := h.entry e he
      cases hb
      simp only [LoginFailures.expired] at hexp
      omega

/-- A wrong token that is counted for the client. -/
theorem Counted.wrong (h : Counted client m g blocks) (hclock : g.clock ≤ now) (hmem : client ∈ g.checked)
    (hkey : (g.failures.failureKeyLocked client now).1 = client)
    (hg' : g' = { g with
      failures := g.failures.recordFailure client now
      clock := now
      checked := g.checked.erase client
      wrong := (client, now) :: g.wrong }) :
    ∃ blocks', Counted client m g' blocks' := by
  have hpos : 0 < now := Int.lt_of_lt_of_le h.clock hclock
  have hcount : 0 < g.checked.count client := List.count_pos_iff.2 hmem
  have herase : (g.checked.erase client).count client = g.checked.count client - 1 := List.count_erase_self
  have hm := h.checked
  have htimes : (((client, now) :: g.wrong).filter (·.1 = client)).map (·.2) = now :: blocks.flatMap (·.times) := by
    rw [← h.times]
    simp
  subst hg'
  rcases Failures.recordFailure_spec_of_key hkey with ⟨e, he, hsince, hexp, hnew⟩ | ⟨hover, hnew⟩
  · -- the latest block grows
    obtain ⟨b, rest, rfl, rfl, hroom⟩ := h.entry e he
    simp only [LoginFailures.expired] at hexp
    cases h.spaced with
    | cons hlen hin hnext hrest =>
      have hb := h.since b List.mem_cons_self
      refine ⟨⟨b.since, now :: b.times⟩ :: rest, hpos, htimes, ?_, ?_, ?_, ?_, ?_⟩
      · refine .cons ?_ ?_ hnext hrest
        · simp only [List.length_cons]
          simp only at hroom
          omega
        · refine List.forall_mem_cons.2 ⟨?_, hin⟩
          dsimp only
          omega
      · simp only [herase]
        omega
      · refine List.forall_mem_cons.2 ⟨⟨hb.1, ?_⟩, fun b' hb' => ?_⟩
        · exact Int.le_trans hb.2 hclock
        · have := h.since b' (List.mem_cons_of_mem _ hb')
          exact ⟨this.1, Int.le_trans this.2 hclock⟩
      · intro e he'
        cases he'.symm.trans hnew
        refine ⟨_, rest, rfl, rfl, ?_⟩
        simp only at hroom
        simp only [herase]
        omega
      · intro hn
        cases hn.symm.trans hnew
  · -- the next block begins
    have hnext : ∀ b ∈ blocks.head?, b.since + minute ≤ now := by
      intro b hb
      cases hl : g.failures.lookup client with
      | none => exact Int.le_trans (h.none hl b hb) hclock
      | some e =>
        obtain ⟨b', rest, rfl, rfl, -⟩ := h.entry e hl
        cases hb
        rcases hover _ hl with h0 | hexp
        · have := (h.since b List.mem_cons_self).1
          simp only at h0
          omega
        · simp only [LoginFailures.expired] at hexp
          omega
    refine ⟨⟨now, [now]⟩ :: blocks, hpos, htimes, ?_, ?_, ?_, ?_, ?_⟩
    · refine .cons (by simp) ?_ hnext h.spaced
      refine List.forall_mem_singleton.2 ⟨Int.le_refl _, ?_⟩
      simp only [minute, second]
      omega
    · simp only [herase]
      omega
    · refine List.forall_mem_cons.2 ⟨⟨hpos, Int.le_refl _⟩, fun b hb => ?_⟩
      exact ⟨(h.since b hb).1, Int.le_trans (h.since b hb).2 hclock⟩
    · intro e he'
      cases he'.symm.trans hnew
      refine ⟨_, blocks, rfl, rfl, ?_⟩
      simp only [herase]
      omega
    · intro hn
      cases hn.symm.trans hnew

/-- Fewer logins under way leave room. -/
theorem Counted.room (h : Counted client m g blocks) {e : LoginFailures} (he : g.failures.lookup client = some e) {n : Nat}
    (hn : n ≤ g.checked.count client) : e.count + n ≤ m + 4 := by
  obtain ⟨b, rest, -, -, hroom⟩ := h.entry e he
  omega

/-- A step of a client that is guessing, or of another, keeps the blocks or adds to them. -/
theorem Counted.step (hclient : client ≠ overflow) {a : AdminStep} (h : Counted client m g blocks)
    (ha : Guessing crypto token client m g a) (hs : Admin.step crypto token g a = some g') :
    ∃ blocks', Counted client m g' blocks' := by
  cases a with
  | check address now =>
    cases hs
    obtain ⟨hclock, hm⟩ := ha
    obtain ⟨hfades, hpass⟩ := g.failures.rateLimited_spec (remoteHost address) now client
    refine ⟨blocks, h.fade hclock hfades rfl ?_ ?_⟩
    all_goals unfold Admin.check; dsimp only
    · have := h.checked
      split
      · exact h.checked
      · by_cases hc : remoteHost address = client
        · rw [hc, List.count_cons_self]
          exact hm hc
        · rw [List.count_cons_of_ne hc]
          exact h.checked
    · intro e he
      split
      · exact h.room (hfades.lookup he) (Nat.le_refl _)
      · rename_i hlimited
        by_cases hc : remoteHost address = client
        · have hfour := hpass hc (by simpa using hlimited) e he
          have := hm hc
          rw [hc, List.count_cons_self]
          omega
        · rw [List.count_cons_of_ne hc]
          exact h.room (hfades.lookup he) (Nat.le_refl _)
  | malformed address =>
    obtain ⟨-, he⟩ := Option.ite_none_right_eq_some.1 hs
    cases he
    have hle := (List.erase_sublist (a := remoteHost address) (l := g.checked)).count_le client
    exact ⟨blocks, h.fade (Int.le_refl _) (.inl rfl) rfl (Nat.le_trans hle h.checked) fun e he => h.room he hle⟩
  | judge address given now =>
    obtain ⟨hmem, he⟩ := Option.ite_none_right_eq_some.1 hs
    obtain ⟨hclock, hguess⟩ := ha
    have hle := (List.erase_sublist (a := remoteHost address) (l := g.checked)).count_le client
    have hchecked := Nat.le_trans hle h.checked
    unfold Admin.judge at he
    split at he
    · -- only another client has the token
      rename_i hright
      cases he
      have hne : client ≠ remoteHost address := fun hc => hguess hc.symm hright
      have hfades : Failures.Fades client now g.failures (g.failures.clearFailures (remoteHost address)) :=
        Failures.Fades.erase (.inl rfl) hne
      exact ⟨blocks, h.fade hclock hfades rfl hchecked fun e he => h.room (hfades.lookup he) hle⟩
    · by_cases hkey : client = (g.failures.failureKeyLocked (remoteHost address) now).1
      · -- the shared key is not the client's, and so the login is the client's
        have hself : remoteHost address = client := by
          rcases (Failures.failureKeyLocked_spec (remoteHost address) now g.failures).key with h1 | ⟨h1, -⟩
          · exact (hkey.trans h1).symm
          · exact absurd (hkey.trans h1) hclient
        rw [hself] at hmem hkey he
        rw [← hkey] at he
        exact h.wrong hclock hmem hkey.symm (Option.some.inj he).symm
      · cases he
        have hfades := Failures.fades_recordFailure hkey
        refine ⟨blocks, h.fade hclock hfades ?_ hchecked fun e he => h.room (hfades.lookup he) hle⟩
        rw [List.filter_cons_of_neg (by simpa using fun hc => hkey hc.symm)]
  | logout =>
    cases hs
    exact ⟨blocks, h⟩

/-- A client that is not named as the overflow entry, has at most `m` logins under way at once and never the right
token has at most `2 * (m + 4)` wrong tokens counted for it in any minute, whatever the other clients do. -/
theorem login_guesses_bounded (hclient : client ≠ overflow) {start : Int} (hstart : 0 < start)
    (h : (Admin.machine crypto token).Reach (Guessing crypto token client m) (Admin.fresh start) g) (t : Int) :
    ((g.wrong.filter (·.1 = client)).map (·.2)).countP (within t) ≤ 2 * (m + 4) := by
  have hcounted : ∃ blocks, Counted client m g blocks := by
    refine h.invariant (I := fun g => ∃ blocks, Counted client m g blocks) ?_ ?_
    · refine ⟨[], hstart, rfl, .nil, Nat.zero_le _, List.forall_mem_nil _, fun e he => ?_, fun _ b hb => ?_⟩
      · cases he
      · cases hb
    · rintro g a g' ⟨blocks, hg⟩ ha hs
      exact hg.step hclient ha hs
  obtain ⟨blocks, hg⟩ := hcounted
  rw [hg.times]
  exact hg.spaced.count_within t

theorem login_guesses_bounded_sample : ∃ g,
    (Admin.machine plainCrypto [1]).Reach (Guessing plainCrypto [1] (text "192.0.2.7") 1) (Admin.fresh 1) g ∧
    g.checked = [] ∧ g.wrong.length = 5 ∧
    ((g.wrong.filter (·.1 = text "192.0.2.7")).map (·.2)).countP (within 1) ≤ 2 * (1 + 4) := by
  have hrun : ((Admin.machine plainCrypto [1]).runIf
      (fun g a => decide (Guessing plainCrypto [1] (text "192.0.2.7") 1 g a)) (Admin.fresh 1)
      ((List.replicate 5 [AdminStep.check (text "192.0.2.7:4711") 1, .judge (text "192.0.2.7:4711") [2] 1]).flatten ++
        [.check (text "192.0.2.7:4712") 1])).map (fun g => (g.checked, g.wrong.length)) = some ([], 5) := by
    decide +kernel
  obtain ⟨g, hg, hend⟩ := Option.map_eq_some_iff.1 hrun
  have hreach := (Machine.reach_of_runIf .init hg).mono fun _ _ h => of_decide_eq_true h
  exact ⟨g, hreach, congrArg Prod.fst hend, congrArg Prod.snd hend,
    login_guesses_bounded (by decide +kernel) (by decide) hreach 1⟩

end Guesses

end Accelerator.Control
