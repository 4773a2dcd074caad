/-
The settings of the process (`config/config.go`) and the functions of the standard library that read them:
`net.SplitHostPort` and `time.ParseDuration`. What a float computes, the nanoseconds of a fraction of a unit,
and `net.ParseIP` are parameters.
-/
import Accelerator.Strings.Decimal
import Accelerator.Strings.Fold

namespace Accelerator.Settings

open Strings

/-! ## Settings -/

structure ServerConfig where
  mysqlListen : Text
  mysqlMode : Text
  mysqlClientUser : Text
  mysqlClientPasswordEnv : Text
  mysqlAllowInsecureNet : Bool
  mysqlTLSMode : Text
  mysqlTLSCertFile : Text
  mysqlTLSKeyFile : Text
  adminListen : Text
  adminTokenEnv : Text
  shutdownTimeout : Text
  dataDir : Text
  deriving DecidableEq, Repr

structure UpstreamConfig where
  enabled : Bool
  host : Text
  port : Int
  user : Text
  passwordEnv : Text
  allowEmptyPassword : Bool
  database : Text
  tlsMode : Text
  tlsCAFile : Text
  tlsServerName : Text
  connectTimeout : Text
  readTimeout : Text
  writeTimeout : Text
  healthTimeout : Text
  deriving DecidableEq, Repr

structure LimitsConfig where
  maxLogicalConnections : Int
  maxUpstreamConnections : Int
  maxQueuedRequests : Int
  maxQueuedBytes : Int
  deriving DecidableEq, Repr

structure LoggingConfig where
  level : Text
  deriving DecidableEq, Repr

structure Config where
  version : Int
  server : ServerConfig
  upstream : UpstreamConfig
  limits : LimitsConfig
  logging : LoggingConfig
  deriving DecidableEq, Repr

def currentVersion : Int := 1

/-- `config.Default`. -/
def default : Config where
  version := currentVersion
  server :=
    { mysqlListen := text "127.0.0.1:3307"
      mysqlMode := text "transparent"
      mysqlClientUser := text "accelerator"
      mysqlClientPasswordEnv := text "DBA_CLIENT_PASSWORD"
      mysqlAllowInsecureNet := false
      mysqlTLSMode := text "disabled"
      mysqlTLSCertFile := []
      mysqlTLSKeyFile := []
      adminListen := text "127.0.0.1:9090"
      adminTokenEnv := []
      shutdownTimeout := text "15s"
      dataDir := text "./data" }
  upstream :=
    { enabled := false
      host := text "127.0.0.1"
      port := 3306
      user := text "accelerator"
      passwordEnv := text "DBA_UPSTREAM_PASSWORD"
      allowEmptyPassword := false
      database := text "app"
      tlsMode := text "preferred"
      tlsCAFile := []
      tlsServerName := []
      connectTimeout := text "5s"
      readTimeout := text "30s"
      writeTimeout := text "30s"
      healthTimeout := text "5s" }
  limits :=
    { maxLogicalConnections := 10000
      maxUpstreamConnections := 200
      maxQueuedRequests := 5000
      maxQueuedBytes := 64 * 2 ^ 20 }
  logging := { level := text "info" }

/-- What the standard library computes that is not modelled: the sixteen bytes of an address, and the
nanoseconds of a fraction `f / scale` of a unit, in floating point. -/
structure Library where
  parseIP : Text → Option Bytes
  fraction : (f unit scale : Nat) → Nat

/-! ## Addresses -/

/-- `net.AddrError`. -/
structure AddrError where
  err : Text
  addr : Text

def AddrError.text (e : AddrError) : Text :=
  if e.addr ≠ [] then Strings.text "address " ++ e.addr ++ Strings.text ": " ++ e.err else e.err

def missingPort : Text := text "missing port in address"
def tooManyColons : Text := text "too many colons in address"

/-- The last checks of `net.SplitHostPort`: no bracket from `j` and from `k` on. The last colon is at `i`. -/
def splitAt (hostport host : Text) (i j k : Nat) : Except AddrError (Text × Text) :=
  if .chr '[' ∈ hostport.drop j then .error ⟨text "unexpected '[' in address", hostport⟩
  else if .chr ']' ∈ hostport.drop k then .error ⟨text "unexpected ']' in address", hostport⟩
  else .ok (host, hostport.drop (i + 1))

/-- `net.SplitHostPort`. -/
def splitHostPort (hostport : Text) : Except AddrError (Text × Text) :=
  if .chr ':' ∉ hostport then .error ⟨missingPort, hostport⟩
  else
    let i := (hostport.rdropWhile (· ≠ .chr ':')).length - 1
    if hostport.head? = some (.chr '[') then
      if .chr ']' ∉ hostport then .error ⟨text "missing ']' in address", hostport⟩
      else
        let close := hostport.idxOf (.chr ']')
        if close + 1 = hostport.length then .error ⟨missingPort, hostport⟩
        else if close + 1 = i then splitAt hostport ((hostport.take close).drop 1) i 1 (close + 1)
        else if hostport[close + 1]? = some (.chr ':') then .error ⟨tooManyColons, hostport⟩
        else .error ⟨missingPort, hostport⟩
    else if .chr ':' ∈ hostport.take i then .error ⟨tooManyColons, hostport⟩
    else splitAt hostport (hostport.take i) i 0 0

def validateAddress (address : Text) : Except Text Unit :=
  match splitHostPort address with
  | .error e => .error e.text
  | .ok (host, port) =>
    if host = [] then .error (text "host must not be empty")
    else
      match parseInt (toBytes port) 64 with
      | .error _ => .error (text "port must be between 0 and 65535")
      | .ok parsed =>
        if parsed < 0 ∨ 65535 < parsed then .error (text "port must be between 0 and 65535") else .ok ()

/-- `IP.IsLoopback` on sixteen bytes: an IPv4 address from 127 on, or `::1`. -/
def isLoopback (ip : Bytes) : Bool :=
  if ip.take 12 = List.replicate 10 0 ++ [0xff, 0xff] then ip[12]? = some 127
  else ip = List.replicate 15 0 ++ [1]

def isLoopbackAddress (lib : Library) (address : Text) : Bool :=
  match splitHostPort address with
  | .error _ => false
  | .ok (host, _) =>
    if equalFold host (text "localhost") then true
    else
      match lib.parseIP host with
      | none => false
      | some ip => isLoopback ip

/-! ## Durations -/

inductive DurationError where
  | invalid (orig : Text)
  | missingUnit (orig : Text)
  | unknownUnit (unit orig : Text)

def hexDigit (n : UInt8) : Sym := .chr (if n < 10 then Char.ofNat (48 + n.toNat) else Char.ofNat (87 + n.toNat))

def printable : Sym → Bool
  | .chr c => ' ' ≤ c && c.toNat < 0x80
  | .bad _ => false

/-- One element of a quoted text (`time.quote`). -/
def quoteSym (c : Sym) : Text :=
  if printable c then if c = .chr '"' ∨ c = .chr '\\' then [.chr '\\', c] else [c]
  else c.bytes.flatMap fun b : UInt8 => text "\\x" ++ [hexDigit (b >>> 4), hexDigit (b &&& 0xf)]

def quote (t : Text) : Text := text "\"" ++ t.flatMap quoteSym ++ text "\""

def DurationError.text : DurationError → Text
  | .invalid orig => Strings.text "time: invalid duration " ++ quote orig
  | .missingUnit orig => Strings.text "time: missing unit in duration " ++ quote orig
  | .unknownUnit unit orig =>
    Strings.text "time: unknown unit " ++ quote unit ++ Strings.text " in duration " ++ quote orig

def digit? : Sym → Option Nat
  | .chr c => if '0' ≤ c ∧ c ≤ '9' then some (c.toNat - 48) else none
  | .bad _ => none

/-- `time.leadingInt`, after digits that make `x`. -/
def leadingInt : Nat → Text → Option (Nat × Text)
  | x, [] => some (x, [])
  | x, c :: cs =>
    match digit? c with
    | none => some (x, c :: cs)
    | some d => if x > 2 ^ 63 / 10 ∨ x * 10 + d > 2 ^ 63 then none else leadingInt (x * 10 + d) cs

/-- `time.leadingFraction`: digits that do not fit are passed over. -/
def leadingFraction : (overflow : Bool) → (x scale : Nat) → Text → Nat × Nat × Text
  | _, x, scale, [] => (x, scale, [])
  | overflow, x, scale, c :: cs =>
    match digit? c with
    | none => (x, scale, c :: cs)
    | some d =>
      if overflow ∨ x > (2 ^ 63 - 1) / 10 ∨ x * 10 + d > 2 ^ 63 then leadingFraction true x scale cs
      else leadingFraction false (x * 10 + d) (scale * 10) cs

def millisecond : Nat := 10 ^ 6
def second : Nat := 10 ^ 9
def minute : Nat := 60 * second

/-- `time.unitMap`; the letter of the microsecond is the micro sign or the Greek mu. -/
def unitMap : List (Text × Nat) :=
  [(text "ns", 1), (text "us", 1000), (text "µs", 1000), (text "μs", 1000), (text "ms", millisecond),
   (text "s", second), (text "m", minute), (text "h", 60 * minute)]

/-- The number in front of a unit: the whole part, the fraction and its scale. -/
def readNumber (orig s : Text) : Except DurationError (Nat × Nat × Nat × Text) :=
  match s with
  | [] => .error (.invalid orig)
  | c :: cs =>
    if c ≠ .chr '.' ∧ digit? c = none then .error (.invalid orig)
    else
      match leadingInt 0 (c :: cs) with
      | none => .error (.invalid orig)
      | some (v, .chr '.' :: rest) =>
        let (f, scale, after) := leadingFraction false 0 1 rest
        if c = .chr '.' ∧ after.length = rest.length then .error (.invalid orig) else .ok (v, f, scale, after)
      | some (v, rest) => .ok (v, 0, 1, rest)

/-- One round of the loop of `time.ParseDuration`: the nanoseconds of a number and its unit, and the rest. -/
def readQuantity (lib : Library) (orig s : Text) : Except DurationError (Nat × Text) := do
  let (v, f, scale, s) ← readNumber orig s
  let u := s.takeWhile fun c => c ≠ .chr '.' && digit? c = none
  if u = [] then .error (.missingUnit orig)
  else
    match unitMap.lookup u with
    | none => .error (.unknownUnit u orig)
    | some unit =>
      if v > 2 ^ 63 / unit then .error (.invalid orig)
      else
        let v := v * unit + if f > 0 then lib.fraction f unit scale else 0
        if v > 2 ^ 63 then .error (.invalid orig) else .ok (v, s.drop u.length)

/-- The loop of `time.ParseDuration`. Every round reads at least one character. -/
def readQuantities (lib : Library) (orig : Text) : Nat → Nat → Text → Except DurationError Nat
  | 0, d, _ => .ok d
  | _, d, [] => .ok d
  | fuel + 1, d, c :: cs => do
    let (v, rest) ← readQuantity lib orig (c :: cs)
    let d := (d + v) % 2 ^ 64
    if d > 2 ^ 63 then .error (.invalid orig) else readQuantities lib orig fuel d rest

/-- `time.ParseDuration`, in nanoseconds. -/
def parseDuration (lib : Library) (orig : Text) : Except DurationError Int :=
  let neg := orig.head? = some (.chr '-')
  let s := if neg ∨ orig.head? = some (.chr '+') then orig.tail else orig
  if s = text "0" then .ok 0
  else if s = [] then .error (.invalid orig)
  else
    match readQuantities lib orig s.length 0 s with
    | .error e => .error e
    | .ok d => if neg then .ok (-d) else if d > 2 ^ 63 - 1 then .error (.invalid orig) else .ok d

/-- `config.boundedDuration` for the bounds all callers pass, 100 milliseconds and 10 minutes. -/
def boundedDuration (lib : Library) (value : Text) : Except Text Int :=
  match parseDuration lib value with
  | .error e => .error e.text
  | .ok d =>
    if d < 100 * millisecond ∨ 10 * minute < d then .error (text "must be between 100ms and 10m0s") else .ok d

def Config.shutdownDuration (lib : Library) (c : Config) : Except Text Int :=
  match parseDuration lib c.server.shutdownTimeout with
  | .error e => .error e.text
  | .ok d =>
    if d ≤ 0 ∨ 10 * minute < d then .error (text "must be greater than zero and at most 10m") else .ok d

end Accelerator.Settings
