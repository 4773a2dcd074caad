/-
The handshake phase of `Service.handleClient` (`gateway/gateway.go`): the greeting, the client's response, the
change to TLS and a second response, the limiter and the check of the password. The phase is a program whose
calls go to the connection, to the random source and to the limiter; other connections change the limiter
between its calls.
-/
import Accelerator.Gateway.AuthLimit
import Accelerator.Interact.Prog
import Accelerator.Protocol.Login
import Accelerator.Protocol.NativePassword
import Accelerator.Protocol.Response

namespace Accelerator.Gateway

open Strings Upstream Interact Protocol

/-! ## The service -/

/-- What the handshake phase uses of a `Service`. -/
structure LoginService where
  version : Bytes
  clientUser : Bytes
  database : Bytes
  clientTLS : Bool
  clientVerifier : Bytes
  sha1 : Sha1
  codec : Codec
  limiter : AuthLimiter

/-- `Service.authenticate`. -/
def LoginService.authenticate (svc : LoginService) (response : HandshakeResponse) (seed : Bytes) : Option GoError :=
  if response.username ≠ svc.clientUser then
    some (errorsNew "client user does not match configured accelerator identity")
  else if response.authPlugin ≠ nativePasswordPlugin then some (errorsNew "unsupported client authentication plugin")
  else if response.database ≠ [] ∧ response.database ≠ svc.database then
    some (errorsNew "client database does not match configured upstream database")
  else if !svc.sha1.nativePasswordVerifierMatches response.authResponse svc.clientVerifier seed then
    some (errorsNew "client password did not match configured accelerator identity")
  else none

/-- The configuration of the handshake of a connection. -/
def LoginService.handshakeConfig (svc : LoginService) (id : UInt32) : HandshakeConfig :=
  let config := defaultHandshakeConfig id
  let capabilities := config.capabilities &&&
    ~~~(clientDeprecateEOF ||| clientSessionTrack ||| clientMultiResults ||| clientPSMultiResults)
  { config with
    serverVersion := lit "DatabaseAccelerator-" ++ svc.version
    authPlugin := nativePasswordPlugin
    capabilities := if svc.clientTLS then capabilities ||| clientSSL else capabilities &&& ~~~clientSSL }

/-! ## Calls -/

inductive LoginCall where
  | random
  | readMessage
  | writeMessage (sequence : UInt8) (payload : Bytes)
  | upgradeTLS
  | allowed (remote : Text)
  | failure (remote : Text)
  | success (remote : Text)

@[reducible]
def LoginRes : LoginCall → Type
  | .random => Except GoError Bytes
  | .readMessage => Except GoError Protocol.Message
  | .writeMessage _ _ => UInt8 × Option GoError
  | .upgradeTLS => Option GoError
  | .allowed _ => Bool
  | .failure _ => Unit
  | .success _ => Unit

/-- A call and its reply. -/
inductive LoginEvent where
  | random (reply : Except GoError Bytes)
  | read (reply : Except GoError Protocol.Message)
  | wrote (sequence : UInt8) (payload : Bytes) (reply : UInt8 × Option GoError)
  | upgrade (reply : Option GoError)
  | allowed (remote : Text) (reply : Bool)
  | failure (remote : Text)
  | success (remote : Text)
  deriving DecidableEq

def LoginCall.event : (o : LoginCall) → LoginRes o → LoginEvent
  | .random, r => .random r
  | .readMessage, r => .read r
  | .writeMessage sequence payload, r => .wrote sequence payload r
  | .upgradeTLS, r => .upgrade r
  | .allowed remote, r => .allowed remote r
  | .failure remote, _ => .failure remote
  | .success remote, _ => .success remote

abbrev LoginM := Prog Unit LoginCall LoginRes Empty

def ask (o : LoginCall) : LoginM (LoginRes o) := Prog.perform o

/-! ## The program -/

/-- How the handshake phase ends. -/
inductive LoginResult where
  | commandLoop
  | failed (e : GoError)
  | panicked (fault : Fault Protocol.OutOfRounds)
  deriving DecidableEq, Repr

/-- The payload of the OK a client is authenticated with. -/
def authOK : Bytes := okPayload 0 0 0x0002 0

def writeLoginError (sequence : UInt8) (code : UInt16) (state message : String) : LoginM Unit := do
  let _ ← ask (.writeMessage sequence (errorPayload code (lit state) ((lit message).take 2048)))

/-- `fmt.Errorf("%w: handshake got %d want %d", ErrSequence, got, want)`. -/
def errHandshakeSequence (got want : UInt8) : GoError :=
  errorsNew s!"mysql packet sequence mismatch: handshake got {got} want {want}"

def sendGreeting (h : Handshake) : LoginM (Option GoError) := do
  match ← ask (.writeMessage 0 h.greetingPayload) with
  | (_, some e) => return some e
  | (next, none) =>
    if next ≠ 1 then return some (errorsNew "mysql packet sequence mismatch: greeting sequence") else return none

def readResponseSequence (h : Handshake) (expected : UInt8) : LoginM (Except LoginResult HandshakeResponse) := do
  match ← ask .readMessage with
  | .error e => return .error (.failed e)
  | .ok message =>
    if message.sequence ≠ expected then
      return .error (.failed (errHandshakeSequence message.sequence expected))
    else
      match h.parseResponse message.payload with
      | .error fault => return .error (.panicked fault)
      | .ok (_, some e) => return .error (.failed e)
      | .ok (response, none) => return .ok response

section Login

variable (svc : LoginService) (remote : Text)

/-- From the limiter on. -/
def admitClient (h : Handshake) (response : HandshakeResponse) (authSequence : UInt8) : LoginM LoginResult := do
  match ← ask (.allowed remote) with
  | false =>
    writeLoginError authSequence 1045 "28000" "access denied by Database Accelerator"
    return .failed (errorsNew "client authentication temporarily locked")
  | true =>
    match svc.authenticate response h.seed with
    | some e =>
      let _ ← ask (.failure remote)
      writeLoginError authSequence 1045 "28000" "access denied by Database Accelerator"
      return .failed e
    | none =>
      let _ ← ask (.success remote)
      match ← ask (.writeMessage authSequence authOK) with
      | (_, some e) => return .failed e
      | (_, none) => return .commandLoop

/-- After the first response: TLS is begun if the client asks for it, and demanded if it is configured. -/
def secureClient (h : Handshake) (response : HandshakeResponse) : LoginM LoginResult := do
  if response.wantsTLS then
    if !svc.clientTLS then return .failed (errorsNew "client requested unavailable TLS")
    else
      match ← ask .upgradeTLS with
      | some e => return .failed (e.wrap (lit "upgrade client TLS: "))
      | none =>
        match ← readResponseSequence h 2 with
        | .error result => return result
        | .ok response => admitClient svc remote h response 3
  else if svc.clientTLS then
    writeLoginError 2 3159 "HY000" "secure transport required by Database Accelerator"
    return .failed (errorsNew "client TLS is required")
  else admitClient svc remote h response 2

/-- The handshake phase of `handleClient`. -/
def login (id : UInt32) : LoginM LoginResult := do
  match newHandshake (svc.handshakeConfig id) (← ask .random) with
  | .error e => return .failed e
  | .ok h =>
    match ← sendGreeting h with
    | some e => return .failed e
    | none =>
      match ← readResponseSequence h 1 with
      | .error (.failed e) =>
        writeLoginError 2 1043 "08S01" "invalid handshake response"
        return .failed e
      | .error result => return result
      | .ok response => secureClient svc remote h response

end Login

/-! ## The world -/

/-- A client's connection: the bytes in both directions, and what the calls that set a deadline return. -/
structure Link where
  reader : Reader
  writer : Writer
  deadlines : Nat → Option GoError
  armed : Nat

def Link.arm (c : Link) : Link := { c with armed := c.armed + 1 }

/-- `Client.ReadMessage`. -/
def Link.readMessage (codec : Codec) (c : Link) : Link × Except GoError Protocol.Message :=
  match c.deadlines c.armed with
  | some e => (c.arm, .error e)
  | none => ({ c.arm with reader := (codec.readMessage c.reader).1 }, (codec.readMessage c.reader).2)

/-- `Client.WriteMessage`. -/
def Link.writeMessage (codec : Codec) (c : Link) (sequence : UInt8) (payload : Bytes) :
    Link × UInt8 × Option GoError :=
  match c.deadlines c.armed with
  | some e => (c.arm, sequence, some e)
  | none =>
    ({ c.arm with writer := (codec.writeMessage c.writer sequence payload).1 },
      (codec.writeMessage c.writer sequence payload).2)

/-- The connection and the limiter, and what was called so far. -/
structure LoginWorld where
  link : Link
  attempts : Attempts
  log : List LoginEvent

/-- How the world answers a call, apart from the log. After the change to TLS, complete or not, nothing is known
of the connection; when the limiter is called, other connections have left it in any state. -/
def LoginService.Replies (svc : LoginService) (w : LoginWorld) : (o : LoginCall) → LoginRes o → LoginWorld → Prop
  | .random, r, w' => (∀ seed, r = .ok seed → seed.length = 20) ∧ w'.link = w.link ∧ w'.attempts = w.attempts
  | .readMessage, r, w' => w.link.readMessage svc.codec = (w'.link, r) ∧ w'.attempts = w.attempts
  | .writeMessage sequence payload, r, w' =>
    w.link.writeMessage svc.codec sequence payload = (w'.link, r) ∧ w'.attempts = w.attempts
  | .upgradeTLS, _, w' => w'.attempts = w.attempts
  | .allowed remote, r, w' =>
    ∃ now attempts, svc.limiter.allowed now (authKey remote) attempts = (r, w'.attempts) ∧ w'.link = w.link
  | .failure remote, _, w' =>
    ∃ now order attempts, svc.limiter.failure now (authKey remote) order attempts = w'.attempts ∧ w'.link = w.link
  | .success remote, _, w' =>
    ∃ attempts, svc.limiter.success (authKey remote) attempts = w'.attempts ∧ w'.link = w.link

/-- The environment of the handshake phase. -/
def LoginService.wired (svc : LoginService) : Env Unit LoginCall LoginRes Empty LoginWorld where
  step _ w o r w' := w'.log = w.log ++ [o.event r] ∧ svc.Replies w o r w'
  note _ _ n := nomatch n

/-! ## What lets a client in -/

/-- A call that sends the OK. -/
def LoginCall.SendsOK (o : LoginCall) : Prop := ∃ sequence, o = .writeMessage sequence authOK

section Conditions

variable (svc : LoginService) (id : UInt32) (remote : Text) (log : List LoginEvent)

/-- The handshake of the connection is made from what the random source gave. -/
def Drawn (h : Handshake) : Prop :=
  ∃ random, .random random ∈ log ∧ newHandshake (svc.handshakeConfig id) random = .ok h

/-- The client is let in: its seed was sent to it, the last response that was parsed is the configured user's and
answers the seed, the limiter allowed the host after it, and with client TLS it was read after the change to
TLS. -/
structure Entered (h : Handshake) (response : HandshakeResponse) : Prop where
  drawn : Drawn svc id log h
  greeted : ∃ reply, .wrote 0 h.greetingPayload reply ∈ log
  answered : ∃ before m after, log = before ++ .read (.ok m) :: after ∧ (∀ r, .read r ∉ after) ∧
    h.parseResponse m.payload = .ok (response, none) ∧ .allowed remote true ∈ after ∧
    (svc.clientTLS = true → .upgrade none ∈ before)
  user : response.username = svc.clientUser
  plugin : response.authPlugin = nativePasswordPlugin
  database : response.database = [] ∨ response.database = svc.database
  password : svc.sha1.nativePasswordVerifierMatches response.authResponse svc.clientVerifier h.seed = true

/-- A response that was read after the change to TLS asks for TLS. -/
def AsksTLSAgain : Prop :=
  ∃ h before m after response, Drawn svc id log h ∧ log = before ++ .read (.ok m) :: after ∧
    .upgrade none ∈ before ∧ h.parseResponse m.payload = .ok (response, none) ∧ response.wantsTLS = true

/-- The first response was parsed and does not ask for TLS. -/
def AnswersPlain (random : Except GoError Bytes) : Prop :=
  ∃ h before m after response, newHandshake (svc.handshakeConfig id) random = .ok h ∧
    log = .random random :: (before ++ .read (.ok m) :: after) ∧ (∀ r, .read r ∉ before) ∧ m.sequence = 1 ∧
    h.parseResponse m.payload = .ok (response, none) ∧ response.wantsTLS = false

end Conditions

/-- The histories after which the OK is sent. -/
inductive Admitted (svc : LoginService) (id : UInt32) (remote : Text) : List LoginEvent → Prop
  | plain {random : Except GoError Bytes} {h : Handshake} {g : UInt8 × Option GoError} {m : Protocol.Message}
      {response : HandshakeResponse} : svc.clientTLS = false → newHandshake (svc.handshakeConfig id) random = .ok h →
      h.parseResponse m.payload = .ok (response, none) → svc.authenticate response h.seed = none →
      Admitted svc id remote [.random random, .wrote 0 h.greetingPayload g, .read (.ok m), .allowed remote true,
        .success remote]
  | secured {random : Except GoError Bytes} {h : Handshake} {g : UInt8 × Option GoError} {m₀ m : Protocol.Message}
      {response : HandshakeResponse} : newHandshake (svc.handshakeConfig id) random = .ok h →
      h.parseResponse m.payload = .ok (response, none) → svc.authenticate response h.seed = none →
      Admitted svc id remote [.random random, .wrote 0 h.greetingPayload g, .read (.ok m₀), .upgrade none,
        .read (.ok m), .allowed remote true, .success remote]

section Histories

variable {svc : LoginService} {id : UInt32} {remote : Text} {log : List LoginEvent} {h : Handshake}
  {response : HandshakeResponse}

theorem authenticate_eq_none {seed : Bytes} (ha : svc.authenticate response seed = none) :
    response.username = svc.clientUser ∧ response.authPlugin = nativePasswordPlugin ∧
      (response.database = [] ∨ response.database = svc.database) ∧
      svc.sha1.nativePasswordVerifierMatches response.authResponse svc.clientVerifier seed = true := by
  unfold LoginService.authenticate at ha
  split_ifs at ha with huser hplugin hdatabase hpassword
  refine ⟨not_not.1 huser, not_not.1 hplugin, ?_, by simpa using hpassword⟩
  by_contra hne
  rw [not_or] at hne
  exact hdatabase hne

/-- An authenticated response does not ask for TLS. -/
theorem wantsTLS_of_authenticate {m : Protocol.Message} {seed : Bytes} (hp : h.parseResponse m.payload = .ok (response, none))
    (ha : svc.authenticate response seed = none) : response.wantsTLS = false := by
  by_contra ht
  have hplugin := (authenticate_eq_none ha).2.1
  rw [authPlugin_of_wantsTLS hp (by simpa using ht)] at hplugin
  revert hplugin
  decide

theorem Entered.of_authenticate (before : List LoginEvent) {after : List LoginEvent} {m : Protocol.Message}
    (hd : Drawn svc id log h) (hg : ∃ reply, .wrote 0 h.greetingPayload reply ∈ log) (hlog : log = before ++ .read (.ok m) :: after)
    (hlast : ∀ r, .read r ∉ after) (hp : h.parseResponse m.payload = .ok (response, none))
    (hallowed : .allowed remote true ∈ after) (htls : svc.clientTLS = true → .upgrade none ∈ before)
    (ha : svc.authenticate response h.seed = none) : Entered svc id remote log h response := by
  obtain ⟨huser, hplugin, hdatabase, hpassword⟩ := authenticate_eq_none ha
  exact ⟨hd, hg, ⟨before, m, after, hlog, hlast, hp, hallowed, htls⟩, huser, hplugin, hdatabase, hpassword⟩

/-- After such a history, and after the OK, the client is let in rightly. -/
theorem Admitted.entered (ha : Admitted svc id remote log) {tail : List LoginEvent}
    (htail : ∀ e ∈ tail, ∃ s p r, e = .wrote s p r) :
    ∃ h response, Entered svc id remote (log ++ tail) h response := by
  have hquiet : ∀ r, LoginEvent.read r ∉ [.allowed remote true, .success remote] ++ tail := by
    intro r hr
    rcases List.mem_append.1 hr with hr | hr
    · simp at hr
    · obtain ⟨s, p, r, he⟩ := htail _ hr
      cases he
  cases ha with
  | @plain random h g m response hno hh hp hauth =>
    refine ⟨h, response, .of_authenticate [.random random, .wrote 0 h.greetingPayload g] ⟨random, by simp, hh⟩
      ⟨g, by simp⟩ rfl hquiet hp (by simp) ?_ hauth⟩
    intro htls
    rw [hno] at htls
    cases htls
  | @secured random h g m₀ m response hh hp hauth =>
    exact ⟨h, response, .of_authenticate
      [.random random, .wrote 0 h.greetingPayload g, .read (.ok m₀), .upgrade none] ⟨random, by simp, hh⟩
      ⟨g, by simp⟩ rfl hquiet hp (by simp) (fun _ => by simp) hauth⟩

/-- Where one response is read after an event, another place with the event in front of it is the same. -/
theorem read_after_unique (l₁ : List LoginEvent) {l₂ before after : List LoginEvent} {m m' : Protocol.Message}
    (h : l₁ ++ .upgrade none :: .read (.ok m) :: l₂ = before ++ .read (.ok m') :: after)
    (hmem : .upgrade none ∈ before) (hfirst : .upgrade none ∉ l₁) (hlast : ∀ r, .read r ∉ l₂) : m = m' := by
  induction l₁ generalizing before with
  | nil =>
    rcases before with _ | ⟨e, _ | ⟨e', before⟩⟩
    · cases hmem
    · cases h
      rfl
    · have htail := List.tail_eq_of_cons_eq (List.tail_eq_of_cons_eq h)
      exact absurd (htail ▸ List.mem_append_right before (List.mem_cons_self ..)) (hlast (.ok m'))
  | cons x l₁ ih =>
    rw [List.mem_cons, not_or] at hfirst
    rcases before with _ | ⟨e, before⟩
    · cases hmem
    · have hhead := List.head_eq_of_cons_eq h
      refine ih (List.tail_eq_of_cons_eq h) ((List.mem_cons.1 hmem).resolve_left ?_) hfirst.2
      exact fun he => hfirst.1 (he.trans hhead.symm)

/-- The response read after the change to TLS is the one that authenticates, and it does not ask again. -/
theorem Admitted.not_asksTLSAgain (ha : Admitted svc id remote log) {tail : List LoginEvent}
    (htail : ∀ e ∈ tail, ∃ s p r, e = .wrote s p r) : ¬AsksTLSAgain svc id (log ++ tail) := by
  have hno : ∀ e ∈ tail, e ≠ .upgrade none ∧ (∀ r, e ≠ .random r) ∧ ∀ r, e ≠ .read r := by
    intro e he
    obtain ⟨s, p, r, rfl⟩ := htail e he
    exact ⟨nofun, nofun, nofun⟩
  rintro ⟨h', before, m', after, response', ⟨random', hdrawn, hh'⟩, hlog, hupgrade, hp', htls⟩
  cases ha with
  | plain _ hh hp hauth =>
    have hmem := List.mem_append_left (.read (.ok m') :: after) hupgrade
    rw [← hlog] at hmem
    rcases List.mem_append.1 hmem with hmem | hmem
    · simp at hmem
    · exact (hno _ hmem).1 rfl
  | @secured random h g m₀ m response hh hp hauth =>
    obtain rfl : random' = random := by
      rcases List.mem_append.1 hdrawn with hd | hd
      · simpa using hd
      · exact absurd rfl ((hno _ hd).2.1 random')
    obtain rfl : h' = h := by
      rw [hh] at hh'
      exact (Except.ok.inj hh').symm
    have hm : m = m' := by
      refine read_after_unique [.random random', .wrote 0 h'.greetingPayload g, .read (.ok m₀)] hlog hupgrade (by simp)
        fun r hr => ?_
      rcases List.mem_append.1 (show _ ∈ [.allowed remote true, .success remote] ++ tail from hr) with hr | hr
      · simp at hr
      · exact (hno _ hr).2.2 r rfl
    subst hm
    rw [hp] at hp'
    cases hp'
    rw [wantsTLS_of_authenticate hp hauth] at htls
    cases htls

end Histories

/-! ## Runs of the program -/

section Rules

variable {svc : LoginService} {ok : Unit → LoginWorld → LoginCall → Prop} {w : LoginWorld} {h : Handshake}

theorem wp_ask {α : Type} {o : LoginCall} {f : LoginRes o → LoginM α} {Q : α → Unit → LoginWorld → Prop} :
    (ask o >>= f).wp svc.wired ok Q () w ↔
      ok () w o ∧ ∀ r w', svc.wired.step () w o r w' → (f r).wp svc.wired ok Q () w' :=
  Prog.wp_bind ..

theorem wp_readResponseSequence {expected : UInt8} {Q : Except LoginResult HandshakeResponse → Unit → LoginWorld → Prop}
    (hok : ok () w .readMessage)
    (herror : ∀ r w' result, svc.wired.step () w .readMessage r w' → result ≠ .commandLoop →
      (∀ m response, r = .ok m → m.sequence = expected → h.parseResponse m.payload ≠ .ok (response, none)) →
      Q (.error result) () w')
    (hanswer : ∀ m response w', svc.wired.step () w .readMessage (.ok m) w' → m.sequence = expected →
      h.parseResponse m.payload = .ok (response, none) → Q (.ok response) () w') :
    (readResponseSequence h expected).wp svc.wired ok Q () w := by
  unfold readResponseSequence
  refine wp_ask.2 ⟨hok, fun r w' hstep => ?_⟩
  cases r with
  | error e => exact herror _ w' _ hstep nofun nofun
  | ok m =>
    simp only
    split_ifs with hseq
    · refine herror _ w' _ hstep nofun ?_
      rintro _ response ⟨⟩ heq
      exact absurd heq hseq
    rw [not_not] at hseq
    cases hp : h.parseResponse m.payload with
    | error fault =>
      refine herror _ w' _ hstep nofun ?_
      rintro _ response ⟨⟩ - hp'
      rw [hp] at hp'
      cases hp'
    | ok result =>
      obtain ⟨response, _ | e⟩ := result
      · exact hanswer m response w' hstep hseq hp
      · refine herror _ w' _ hstep nofun ?_
        rintro _ response ⟨⟩ - hp'
        rw [hp] at hp'
        cases hp'

theorem wp_sendGreeting {Q : Option GoError → Unit → LoginWorld → Prop}
    (hok : ok () w (.writeMessage 0 h.greetingPayload))
    (hQ : ∀ e reply w', svc.wired.step () w (.writeMessage 0 h.greetingPayload) reply w' → Q e () w') :
    (sendGreeting h).wp svc.wired ok Q () w := by
  unfold sendGreeting
  refine wp_ask.2 ⟨hok, fun reply w' hstep => ?_⟩
  obtain ⟨next, _ | e⟩ := reply
  · simp only
    split_ifs
    · exact hQ _ _ w' hstep
    · exact hQ _ _ w' hstep
  · exact hQ _ _ w' hstep

/-- An error is written, and the phase ends. -/
theorem wp_writeLoginError {sequence : UInt8} {code : UInt16} {state message : String} {result : LoginResult}
    {Q : LoginResult → Unit → LoginWorld → Prop}
    (hok : ok () w (.writeMessage sequence (errorPayload code (lit state) ((lit message).take 2048))))
    (hQ : ∀ reply w', svc.wired.step () w
      (.writeMessage sequence (errorPayload code (lit state) ((lit message).take 2048))) reply w' → Q result () w') :
    (writeLoginError sequence code state message >>= fun _ => pure result).wp svc.wired ok Q () w := by
  refine (Prog.wp_bind ..).2 ?_
  unfold writeLoginError
  exact wp_ask.2 ⟨hok, hQ⟩

end Rules

section Payloads

theorem sendsOK_greeting (h : Handshake) : ¬LoginCall.SendsOK (.writeMessage 0 h.greetingPayload) := by
  rintro ⟨_, heq⟩
  have hhead : h.greetingPayload.head? = authOK.head? := congrArg List.head? (LoginCall.writeMessage.inj heq).2
  rw [show authOK.head? = some 0 by decide] at hhead
  simp [Handshake.greetingPayload, appendNullTerminated] at hhead

theorem sendsOK_error (sequence : UInt8) (code : UInt16) (state message : Bytes) :
    ¬LoginCall.SendsOK (.writeMessage sequence (errorPayload code state message)) := by
  rintro ⟨_, heq⟩
  have hhead := congrArg List.head? (LoginCall.writeMessage.inj heq).2
  rw [show authOK.head? = some 0 by decide] at hhead
  simp [errorPayload, appendUint16] at hhead

end Payloads

section Gate

/-- The OK is sent after one of the histories only. -/
def Permits (svc : LoginService) (id : UInt32) (remote : Text) (_ : Unit) (w : LoginWorld) (o : LoginCall) : Prop :=
  o.SendsOK → Admitted svc id remote w.log

/-- The command loop is reached after one of the histories and a message only. -/
def LoginEnds (svc : LoginService) (id : UInt32) (remote : Text) (result : LoginResult) (_ : Unit) (w : LoginWorld) : Prop :=
  result = .commandLoop → ∃ log sequence payload reply,
    Admitted svc id remote log ∧ w.log = log ++ [.wrote sequence payload reply]

variable {svc : LoginService} {id : UInt32} {remote : Text} {h : Handshake} {response : HandshakeResponse}
  {w : LoginWorld}

theorem permits_error (sequence : UInt8) (code : UInt16) (state message : Bytes) :
    Permits svc id remote () w (.writeMessage sequence (errorPayload code state message)) :=
  fun hs => absurd hs (sendsOK_error _ _ _ _)

theorem wp_admitClient {sequence : UInt8}
    (hadmitted : svc.authenticate response h.seed = none →
      Admitted svc id remote (w.log ++ [.allowed remote true, .success remote])) :
    (admitClient svc remote h response sequence).wp svc.wired (Permits svc id remote) (LoginEnds svc id remote) () w := by
  unfold admitClient
  refine wp_ask.2 ⟨nofun, fun r w₁ hallowed => ?_⟩
  cases r with
  | false => exact wp_writeLoginError (permits_error _ _ _ _) fun _ _ _ => nofun
  | true =>
    cases ha : svc.authenticate response h.seed with
    | some e =>
      refine wp_ask.2 ⟨nofun, fun _ w₂ _ => ?_⟩
      exact wp_writeLoginError (permits_error _ _ _ _) fun _ _ _ => nofun
    | none =>
      refine wp_ask.2 ⟨nofun, fun _ w₂ hsuccess => ?_⟩
      have hlog : w₂.log = w.log ++ [.allowed remote true, .success remote] := by
        rw [hsuccess.1, hallowed.1, List.append_assoc]
        rfl
      have hw₂ := hlog ▸ hadmitted ha
      refine wp_ask.2 ⟨fun _ => hw₂, fun reply w₃ hwrote => ?_⟩
      obtain ⟨next, _ | e⟩ := reply
      · exact fun _ => ⟨w₂.log, sequence, authOK, _, hw₂, hwrote.1⟩
      · exact nofun

theorem wp_secureClient {random : Except GoError Bytes} {g : UInt8 × Option GoError} {m : Protocol.Message}
    (hh : newHandshake (svc.handshakeConfig id) random = .ok h)
    (hlog : w.log = [.random random, .wrote 0 h.greetingPayload g, .read (.ok m)])
    (hp : h.parseResponse m.payload = .ok (response, none)) :
    (secureClient svc remote h response).wp svc.wired (Permits svc id remote) (LoginEnds svc id remote) () w := by
  unfold secureClient
  split_ifs with hwants hno htls
  · exact nofun
  · refine wp_ask.2 ⟨nofun, fun r w₄ hupgrade => ?_⟩
    cases r with
    | some e => exact nofun
    | none =>
      refine (Prog.wp_bind ..).2 (wp_readResponseSequence nofun (fun r w₅ result _ hresult _ => ?_)
        fun m' response' w₅ hread _ hp' => ?_)
      · exact fun hr => absurd hr hresult
      refine wp_admitClient fun ha => ?_
      rw [hread.1, hupgrade.1, hlog]
      exact .secured hh hp' ha
  · exact wp_writeLoginError (permits_error _ _ _ _) fun _ _ _ => nofun
  · refine wp_admitClient fun ha => ?_
    rw [hlog]
    exact .plain (by simpa using htls) hh hp ha

theorem wp_login (link : Link) (attempts : Attempts) :
    (login svc remote id).wp svc.wired (Permits svc id remote) (LoginEnds svc id remote) () ⟨link, attempts, []⟩ := by
  unfold login
  refine wp_ask.2 ⟨nofun, fun random w₁ hrandom => ?_⟩
  cases hh : newHandshake (svc.handshakeConfig id) random with
  | error e => exact nofun
  | ok h =>
    refine (Prog.wp_bind ..).2 (wp_sendGreeting (fun hs => absurd hs (sendsOK_greeting h)) fun err g w₂ hgreeted => ?_)
    cases err with
    | some e => exact nofun
    | none =>
      refine (Prog.wp_bind ..).2 (wp_readResponseSequence nofun (fun r w₃ result _ hresult _ => ?_)
        fun m response w₃ hread hseq hp => ?_)
      · cases result with
        | commandLoop => exact absurd rfl hresult
        | failed e => exact wp_writeLoginError (permits_error _ _ _ _) fun _ _ _ => nofun
        | panicked fault => exact nofun
      refine wp_secureClient hh (g := g) ?_ hp
      rw [hread.1, hgreeted.1, hrandom.1]
      rfl

end Gate

/-! ## A response without TLS -/

/-- What the gateway's side of a connection depends on. -/
def Link.side (c : Link) : Writer × (Nat → Option GoError) × Nat := (c.writer, c.deadlines, c.armed)

theorem Link.side_readMessage (codec : Codec) (c : Link) : (c.readMessage codec).1.side = c.arm.side := by
  unfold Link.readMessage
  cases c.deadlines c.armed <;> rfl

theorem Link.side_writeMessage (codec : Codec) {c d : Link} (h : c.side = d.side) (sequence : UInt8) (payload : Bytes) :
    (c.writeMessage codec sequence payload).1.side = (d.writeMessage codec sequence payload).1.side := by
  obtain ⟨_, _, _, _⟩ := c
  cases h
  unfold Link.writeMessage
  cases d.deadlines d.armed <;> rfl

/-- The error for a client that does not ask for TLS where it must. -/
def tlsRequired : Bytes :=
  errorPayload 3159 (lit "HY000") ((lit "secure transport required by Database Accelerator").take 2048)

/-- The connection after the greeting, a response and the error. -/
def LoginService.refusedSide (svc : LoginService) (h : Handshake) (link : Link) :
    Writer × (Nat → Option GoError) × Nat :=
  (((link.writeMessage svc.codec 0 h.greetingPayload).1.arm).writeMessage svc.codec 2 tlsRequired).1.side

theorem Link.side_arm {c d : Link} (h : c.side = d.side) : c.arm.side = d.arm.side := by
  obtain ⟨_, _, _, _⟩ := c
  cases h
  rfl

theorem LoginService.refusedSide_congr (svc : LoginService) (h : Handshake) {c d : Link} (hside : c.side = d.side) :
    svc.refusedSide h c = svc.refusedSide h d :=
  Link.side_writeMessage svc.codec (Link.side_arm (Link.side_writeMessage svc.codec hside 0 _)) 2 _

section Plain

variable {svc : LoginService} {id : UInt32} {remote : Text} {h : Handshake} {log : List LoginEvent}
  {random x : Except GoError Bytes} {sequence : UInt8} {payload : Bytes} {g : UInt8 × Option GoError}
  {r : Except GoError Protocol.Message} {w : LoginWorld}

theorem log_grows {α : Type} (p : LoginM α) :
    p.wp svc.wired (fun _ _ _ => True) (fun _ _ w' => w.log <+: w'.log) () w := by
  suffices ∀ w', w.log <+: w'.log → p.wp svc.wired (fun _ _ _ => True) (fun _ _ w' => w.log <+: w'.log) () w' from
    this w (List.prefix_refl _)
  induction p with
  | pure a => exact fun _ hw => hw
  | get k ih => exact ih ()
  | set _ k ih => exact ih
  | note n _ _ => exact nomatch n
  | call o k ih =>
    intro w' hw
    refine ⟨trivial, fun r w'' hstep => ih r w'' (hw.trans ?_)⟩
    rw [hstep.1]
    exact List.prefix_append ..

theorem AnswersPlain.reads (ha : AnswersPlain svc id log random) : ∃ r, .read r ∈ log := by
  obtain ⟨h, before, m, after, response, -, rfl, -⟩ := ha
  exact ⟨.ok m, by simp⟩

/-- The first response is the first that is read. -/
theorem AnswersPlain.first (ha : AnswersPlain svc id log random)
    (hlog : [.random x, .wrote sequence payload g, .read r] <+: log) :
    x = random ∧ ∃ h m response, newHandshake (svc.handshakeConfig id) random = .ok h ∧ r = .ok m ∧ m.sequence = 1 ∧
      h.parseResponse m.payload = .ok (response, none) ∧ response.wantsTLS = false := by
  obtain ⟨h, before, m, after, response, hh, rfl, hbefore, hrest⟩ := ha
  obtain ⟨tail, htail⟩ := hlog
  rcases before with _ | ⟨e, before⟩
  · cases htail
  · simp only [List.cons_append, List.nil_append, List.cons.injEq, LoginEvent.random.injEq] at htail
    obtain ⟨rfl, rfl, htail⟩ := htail
    rcases before with _ | ⟨e, before⟩
    · cases htail
      exact ⟨rfl, h, m, response, hh, rfl, hrest⟩
    · cases htail
      exact absurd (List.mem_cons_of_mem _ (List.mem_cons_self ..)) (hbefore r)

/-- A run whose first response is not parsed, or asks for TLS, is none of these. -/
theorem wp_not_answersPlain {α : Type} (p : LoginM α) {Q : LoginWorld → Prop}
    (hlog : w.log = [.random x, .wrote sequence payload g, .read r])
    (hno : x = random → ∀ h m response, newHandshake (svc.handshakeConfig id) random = .ok h → r = .ok m →
      m.sequence = 1 → h.parseResponse m.payload = .ok (response, none) → response.wantsTLS = true) :
    p.wp svc.wired (fun _ _ _ => True) (fun _ _ w => AnswersPlain svc id w.log random → Q w) () w := by
  refine Prog.wp_mono (log_grows p) fun _ _ w' hgrows ha => ?_
  obtain ⟨hx, h, m, response, hh, hr, hseq, hp, hwants⟩ := ha.first (hlog ▸ hgrows)
  rw [hno hx h m response hh hr hseq hp] at hwants
  cases hwants

theorem secureClient_plain {response : HandshakeResponse} (hwants : response.wantsTLS = false)
    (htls : svc.clientTLS = true) : secureClient svc remote h response = do
      writeLoginError 2 3159 "HY000" "secure transport required by Database Accelerator"
      return .failed (errorsNew "client TLS is required") := by
  unfold secureClient
  rw [hwants, if_neg Bool.false_ne_true, if_pos htls]

theorem wp_login_plain (htls : svc.clientTLS = true) (hh : newHandshake (svc.handshakeConfig id) random = .ok h)
    (link : Link) (attempts : Attempts) :
    (login svc remote id).wp svc.wired (fun _ _ _ => True) (fun _ _ w => AnswersPlain svc id w.log random →
      w.link.side = svc.refusedSide h link ∧ w.attempts = attempts) () ⟨link, attempts, []⟩ := by
  unfold login
  refine wp_ask.2 ⟨trivial, fun random' w₁ hrandom => ?_⟩
  have hlog₁ : w₁.log = [.random random'] := hrandom.1
  cases hh' : newHandshake (svc.handshakeConfig id) random' with
  | error e =>
    intro ha
    obtain ⟨r, hr⟩ := ha.reads
    rw [hlog₁] at hr
    simp at hr
  | ok h' =>
    refine (Prog.wp_bind ..).2 (wp_sendGreeting trivial fun err g w₂ hgreeted => ?_)
    have hlog₂ : w₂.log = [.random random', .wrote 0 h'.greetingPayload g] := by
      rw [hgreeted.1, hlog₁]
      rfl
    cases err with
    | some e =>
      intro ha
      obtain ⟨r, hr⟩ := ha.reads
      rw [hlog₂] at hr
      simp at hr
    | none =>
      -- The handshake is the one of the two runs when the random bytes are.
      have hsame : ∀ h'', random' = random → newHandshake (svc.handshakeConfig id) random = .ok h'' → h'' = h' := by
        rintro h'' rfl hh''
        rw [hh'] at hh''
        exact (Except.ok.inj hh'').symm
      refine (Prog.wp_bind ..).2 (wp_readResponseSequence trivial (fun r w₃ result hread _ hno => ?_)
        fun m response w₃ hread hseq hp => ?_)
      · have hlog₃ : w₃.log = [.random random', .wrote 0 h'.greetingPayload g, .read r] := by
          rw [hread.1, hlog₂]
          rfl
        refine wp_not_answersPlain _ hlog₃ fun hx h'' m response hh'' hr hseq hp => ?_
        exact absurd (hsame h'' hx hh'' ▸ hp) (hno m response hr hseq)
      · have hlog₃ : w₃.log = [.random random', .wrote 0 h'.greetingPayload g, .read (.ok m)] := by
          rw [hread.1, hlog₂]
          rfl
        cases hwants : response.wantsTLS with
        | true =>
          refine wp_not_answersPlain _ hlog₃ fun hx h'' m' response' hh'' hr _ hp' => ?_
          obtain rfl := Except.ok.inj hr
          rw [hsame h'' hx hh'', hp] at hp'
          cases hp'
          exact hwants
        | false =>
          show (secureClient svc remote h' response).wp ..
          rw [secureClient_plain hwants htls]
          refine wp_writeLoginError trivial fun reply w₄ hwrote ha => ?_
          have hpre : [.random random', .wrote 0 h'.greetingPayload g, .read (.ok m)] <+: w₄.log := by
            rw [hwrote.1, hlog₃]
            exact List.prefix_append ..
          obtain rfl := hsame h (ha.first hpre).1 hh
          have hlink₁ : w₁.link = link := hrandom.2.2.1
          have hlink₂ : (link.writeMessage svc.codec 0 h.greetingPayload).1 = w₂.link := by
            rw [← hlink₁]
            exact congrArg Prod.fst hgreeted.2.1
          have hside₃ : w₃.link.side = w₂.link.arm.side := by
            rw [← Link.side_readMessage svc.codec, hread.2.1]
          refine ⟨?_, ?_⟩
          · rw [LoginService.refusedSide, hlink₂, ← Link.side_writeMessage svc.codec hside₃]
            exact congrArg (fun x => Link.side x.1) hwrote.2.1.symm
          · exact hwrote.2.2.trans (hread.2.2.trans (hgreeted.2.2.trans hrandom.2.2.2))

end Plain

/-! ## The gate -/

/-- A client is sent the OK, and gets to the command loop, only after the limiter allowed its host and its last
response was authenticated, with client TLS after the change to TLS; a response that asks for TLS again is
never authenticated. With client TLS, what is sent to a client whose response does not ask for TLS, and the
limiter, do not depend on what else the client sent. -/
theorem authentication_gate (svc : LoginService) (id : UInt32) (remote : Text) (link : Link) (attempts : Attempts) :
    (login svc remote id).wp svc.wired
      (fun _ w o => o.SendsOK →
        (∃ h response, Entered svc id remote w.log h response) ∧ ¬AsksTLSAgain svc id w.log)
      (fun result _ w => result = .commandLoop →
        (∃ h response, Entered svc id remote w.log h response) ∧ ¬AsksTLSAgain svc id w.log)
      () ⟨link, attempts, []⟩ ∧
    (svc.clientTLS = true → ∀ link' random result result' w w', link.side = link'.side →
      (login svc remote id).Runs svc.wired () ⟨link, attempts, []⟩ result () w →
      (login svc remote id).Runs svc.wired () ⟨link', attempts, []⟩ result' () w' →
      AnswersPlain svc id w.log random → AnswersPlain svc id w'.log random →
      w.link.writer.written = w'.link.writer.written ∧ w.attempts = w'.attempts) := by
  refine ⟨?_, ?_⟩
  · refine Prog.wp_permit (Prog.wp_mono (wp_login link attempts) ?_) ?_
    · intro result _ w hends hresult
      obtain ⟨log, sequence, payload, reply, ha, hlog⟩ := hends hresult
      rw [hlog]
      have htail : ∀ e ∈ [LoginEvent.wrote sequence payload reply], ∃ s p r, e = .wrote s p r := by
        intro e he
        exact ⟨sequence, payload, reply, List.mem_singleton.1 he⟩
      exact ⟨ha.entered htail, ha.not_asksTLSAgain htail⟩
    · intro _ w o hpermits hsends
      have ha := hpermits hsends
      rw [← List.append_nil w.log]
      exact ⟨ha.entered nofun, ha.not_asksTLSAgain nofun⟩
  · intro htls link' random result result' w w' hside hrun hrun' hplain hplain'
    have hanswer := hplain
    obtain ⟨h, -, -, -, -, hh, -⟩ := hanswer
    obtain ⟨hw, hattempts⟩ := Prog.wp_runs hrun (wp_login_plain htls hh link attempts) hplain
    obtain ⟨hw', hattempts'⟩ := Prog.wp_runs hrun' (wp_login_plain htls hh link' attempts) hplain'
    refine ⟨?_, hattempts.trans hattempts'.symm⟩
    have heq := hw.trans ((svc.refusedSide_congr h hside).trans hw'.symm)
    exact congrArg (fun x => x.1.written) heq

/-- A service for one user, whose password is "secret". -/
def sampleLoginService (tls : Bool) : LoginService where
  version := lit "0.0.2"
  clientUser := lit "app"
  database := lit "shop"
  clientTLS := tls
  clientVerifier := Sha1.secretStage2
  sha1 := .ofSecret
  codec := ⟨1024, 1024, by decide, by decide, by decide, by decide⟩
  limiter := newAuthLimiter

/-- A response of this user, in one packet. -/
def sampleResponse (user : String) : Bytes :=
  let payload := [0, 0x82, 8, 0] ++ [0, 4, 0, 0] ++ [45] ++ List.replicate 23 0 ++ lit user ++ [0] ++ [20] ++
    Sha1.secretToken ++ nativePasswordPlugin ++ [0]
  [UInt8.ofNat payload.length, 0, 0, 1] ++ payload

/-- The world of a client that sends these bytes. -/
def sampleClient (data : Bytes) : LoginWorld where
  link := ⟨⟨data, fun _ => .ok 1024, 0⟩, ⟨[], fun _ => .ok 1024, 0⟩, fun _ => none, 0⟩
  attempts := ∅
  log := []

theorem sampleClient_side (data data' : Bytes) : (sampleClient data).link.side = (sampleClient data').link.side := rfl

/-- The replies where nobody else uses the limiter. -/
def LoginService.alone (svc : LoginService) (w : LoginWorld) (o : LoginCall) : Option (LoginRes o × LoginWorld) :=
  match o with
  | .random => some (.ok (List.replicate 20 1), ⟨w.link, w.attempts, w.log ++ [.random (.ok (List.replicate 20 1))]⟩)
  | .readMessage =>
    let (link, r) := w.link.readMessage svc.codec
    some (r, ⟨link, w.attempts, w.log ++ [.read r]⟩)
  | .writeMessage sequence payload =>
    let (link, r) := w.link.writeMessage svc.codec sequence payload
    some (r, ⟨link, w.attempts, w.log ++ [.wrote sequence payload r]⟩)
  | .allowed remote =>
    let (r, attempts) := svc.limiter.allowed 0 (authKey remote) w.attempts
    some (r, ⟨w.link, attempts, w.log ++ [.allowed remote r]⟩)
  | .success remote =>
    some ((), ⟨w.link, svc.limiter.success (authKey remote) w.attempts, w.log ++ [.success remote]⟩)
  | _ => none

theorem LoginService.alone_step (svc : LoginService) (w : LoginWorld) (o : LoginCall) (r : LoginRes o)
    (w' : LoginWorld) (h : svc.alone w o = some (r, w')) : svc.wired.step () w o r w' := by
  cases o with
  | random =>
    cases h
    refine ⟨rfl, ?_, rfl, rfl⟩
    rintro seed ⟨⟩
    rfl
  | readMessage => cases h; exact ⟨rfl, rfl, rfl⟩
  | writeMessage sequence payload => cases h; exact ⟨rfl, rfl, rfl⟩
  | allowed remote => cases h; exact ⟨rfl, 0, w.attempts, rfl, rfl⟩
  | success remote => cases h; exact ⟨rfl, w.attempts, rfl, rfl⟩
  | _ => cases h

/-- What the service reads and sends when this user's response comes without TLS. -/
def sampleRefusal (user : String) : List LoginEvent :=
  let h : Handshake := ⟨(sampleLoginService true).handshakeConfig 1, List.replicate 20 1⟩
  [.random (.ok (List.replicate 20 1)), .wrote 0 h.greetingPayload (1, none),
    .read (.ok ⟨1, 2, 1, (sampleResponse user).drop 4⟩), .wrote 2 tlsRequired (3, none)]

theorem sampleRefusal_answersPlain (user : String)
    (hp : (Handshake.parseResponse ⟨(sampleLoginService true).handshakeConfig 1, List.replicate 20 1⟩
      ((sampleResponse user).drop 4)).toOption.map (fun x => (x.2, x.1.wantsTLS)) = some (none, false)) :
    AnswersPlain (sampleLoginService true) 1 (sampleRefusal user) (.ok (List.replicate 20 1)) := by
  obtain ⟨⟨response, e⟩, hparse, heq⟩ := Option.map_eq_some_iff.1 hp
  obtain ⟨rfl, hwants⟩ := Prod.mk.inj heq
  refine ⟨⟨(sampleLoginService true).handshakeConfig 1, List.replicate 20 1⟩, [_], _, [_], response, by decide, rfl,
    by simp, rfl, ?_, hwants⟩
  revert hparse
  cases Handshake.parseResponse _ ((sampleResponse user).drop 4) with
  | error e => nofun
  | ok x => exact fun h => congrArg Except.ok (Option.some.inj h)

/-- A client that knows the password gets in; without TLS where it must be used, the user's client is answered
as a stranger is. -/
theorem authentication_gate_app :
    (∃ w, (login (sampleLoginService false) [] 1).Runs (sampleLoginService false).wired ()
      (sampleClient (sampleResponse "app")) .commandLoop () w ∧
      ∃ h response, Entered (sampleLoginService false) 1 [] w.log h response) ∧
    ∃ r r' w w', (login (sampleLoginService true) [] 1).Runs (sampleLoginService true).wired ()
        (sampleClient (sampleResponse "app")) r () w ∧
      (login (sampleLoginService true) [] 1).Runs (sampleLoginService true).wired ()
        (sampleClient (sampleResponse "eve")) r' () w' ∧
      w.link.writer.written = w'.link.writer.written := by
  refine ⟨?_, ?_⟩
  · have h : ((login (sampleLoginService false) [] 1).follow (sampleLoginService false).wired
        (fun _ => (sampleLoginService false).alone) () (sampleClient (sampleResponse "app"))).map (·.1) =
        some .commandLoop := by decide +kernel
    obtain ⟨⟨r, _, w⟩, hf, rfl⟩ := Option.map_eq_some_iff.1 h
    have hr := Prog.follow_runs (fun _ => (sampleLoginService false).alone_step) hf
    exact ⟨w, hr, (Prog.wp_runs hr (authentication_gate _ _ _ _ _).1 rfl).1⟩
  · have h : ((login (sampleLoginService true) [] 1).follow (sampleLoginService true).wired
        (fun _ => (sampleLoginService true).alone) () (sampleClient (sampleResponse "app"))).map (·.2.2.log) =
        some (sampleRefusal "app") := by decide +kernel
    have h' : ((login (sampleLoginService true) [] 1).follow (sampleLoginService true).wired
        (fun _ => (sampleLoginService true).alone) () (sampleClient (sampleResponse "eve"))).map (·.2.2.log) =
        some (sampleRefusal "eve") := by decide +kernel
    obtain ⟨⟨r, _, w⟩, hf, hlog⟩ := Option.map_eq_some_iff.1 h
    obtain ⟨⟨r', _, w'⟩, hf', hlog'⟩ := Option.map_eq_some_iff.1 h'
    have hr := Prog.follow_runs (fun _ => (sampleLoginService true).alone_step) hf
    have hr' := Prog.follow_runs (fun _ => (sampleLoginService true).alone_step) hf'
    have ha := sampleRefusal_answersPlain "app" (by decide +kernel)
    have ha' := sampleRefusal_answersPlain "eve" (by decide +kernel)
    rw [← hlog] at ha
    rw [← hlog'] at ha'
    have hgate := (authentication_gate (sampleLoginService true) 1 [] (sampleClient (sampleResponse "app")).link ∅).2
      rfl (sampleClient (sampleResponse "eve")).link _ r r' w w' (sampleClient_side ..) hr hr' ha ha'
    exact ⟨r, r', w, w', hr, hr', hgate.1⟩

end Accelerator.Gateway
