/-
The client's handshake response (`protocol/mysql/handshake.go`, `capability.go`). The parser works on a
byte cursor; every index and slice expression is checked here, so that one outside the payload is a
fault of its own, and so is a loop that does not end within its rounds.
-/
import Accelerator.Protocol.Codec
import Mathlib.Data.List.AList

namespace Accelerator.Protocol

open Strings Upstream Wire

/-! ## Capabilities -/

abbrev Capability := UInt32

def flag (n : UInt32) : Capability := 1 <<< n

def clientLongPassword : Capability := flag 0
def clientFoundRows : Capability := flag 1
def clientLongFlag : Capability := flag 2
def clientConnectWithDB : Capability := flag 3
def clientCompress : Capability := flag 5
def clientLocalFiles : Capability := flag 7
def clientProtocol41 : Capability := flag 9
def clientSSL : Capability := flag 11
def clientTransactions : Capability := flag 13
def clientSecureConnection : Capability := flag 15
def clientMultiStatements : Capability := flag 16
def clientMultiResults : Capability := flag 17
def clientPSMultiResults : Capability := flag 18
def clientPluginAuth : Capability := flag 19
def clientConnectAttrs : Capability := flag 20
def clientPluginAuthLenencClientData : Capability := flag 21
def clientSessionTrack : Capability := flag 23
def clientDeprecateEOF : Capability := flag 24
def clientZstdCompressionAlgorithm : Capability := flag 26
def clientRememberOptions : Capability := flag 31

def defaultServerCapabilities : Capability :=
  clientLongPassword ||| clientLongFlag ||| clientConnectWithDB ||| clientProtocol41 ||| clientTransactions |||
    clientSecureConnection ||| clientMultiResults ||| clientPSMultiResults ||| clientPluginAuth |||
    clientConnectAttrs ||| clientPluginAuthLenencClientData ||| clientSessionTrack ||| clientDeprecateEOF

/-! ## Errors -/

def errMalformedHandshake : GoError := errorsNew "malformed mysql handshake response"
def errUnsupportedCharset : GoError := errorsNew "unsupported mysql client charset"

/-- `fmt.Errorf("%w: ...", ErrUnsupportedCapability)`. -/
def errUnsupportedCapability (what : Bytes) : GoError := ⟨.plain, lit "unsupported mysql capability: " ++ what⟩

/-- `%08x`. -/
def hex8 (v : UInt32) : Bytes :=
  (List.range 8).map fun i => (lit "0123456789abcdef").getD (v.toNat / 16 ^ (7 - i) % 16) 0

/-! ## The configuration -/

structure HandshakeConfig where
  serverVersion : Bytes
  connectionID : UInt32
  capabilities : Capability
  charsetID : UInt8
  status : UInt16
  authPlugin : Bytes
  maxAttributesBytes : Int64
  deriving DecidableEq, Repr

/-- `DefaultHandshakeConfig`. -/
def defaultHandshakeConfig (connectionID : UInt32) : HandshakeConfig where
  serverVersion := lit "DatabaseAccelerator-0.0.2"
  connectionID := connectionID
  capabilities := defaultServerCapabilities
  charsetID := 45
  status := 0x0002
  authPlugin := lit "caching_sha2_password"
  maxAttributesBytes := 16384

structure Handshake where
  config : HandshakeConfig
  seed : Bytes
  deriving DecidableEq, Repr

def supportedCharset (charset : UInt8) : Bool := [8, 33, 45, 46, 224, 255].contains charset

/-- `NewHandshake`, given what `rand.Read` yields. -/
def newHandshake (config : HandshakeConfig) (random : Except GoError Bytes) : Except GoError Handshake :=
  if 0 ∈ config.serverVersion ∨ config.serverVersion = [] then .error (errorsNew "mysql server version is invalid")
  else if 0 ∈ config.authPlugin ∨ config.authPlugin = [] then .error (errorsNew "mysql auth plugin is invalid")
  else if config.maxAttributesBytes ≤ 0 then .error (errorsNew "mysql max attributes bytes must be positive")
  else if !supportedCharset config.charsetID then .error errUnsupportedCharset
  else
    match random with
    | .error e => .error (e.wrap (lit "generate mysql auth seed: "))
    | .ok seed => .ok { config, seed := seed.map fun value => if value = 0 then 1 else value }

def appendNullTerminated (target value : Bytes) : Bytes := target ++ value ++ [0]

/-- `GreetingPayload`. The seed has twenty bytes. -/
def Handshake.greetingPayload (h : Handshake) : Bytes :=
  let capabilities := h.config.capabilities
  let payload := [10]
  let payload := appendNullTerminated payload h.config.serverVersion
  let payload := payload ++ leBytes 4 h.config.connectionID.toNat
  let payload := payload ++ h.seed.take 8
  let payload := payload ++ [0]
  let payload := payload ++ [capabilities.toUInt8, (capabilities >>> 8).toUInt8]
  let payload := payload ++ [h.config.charsetID]
  let payload := payload ++ [h.config.status.toUInt8, (h.config.status >>> 8).toUInt8]
  let payload := payload ++ [(capabilities >>> 16).toUInt8, (capabilities >>> 24).toUInt8]
  let payload := payload ++ [.ofNat (h.seed.length + 1)]
  let payload := payload ++ List.replicate 10 0
  let payload := payload ++ h.seed.drop 8
  let payload := payload ++ [0]
  appendNullTerminated payload h.config.authPlugin

/-- Whether a client has one of the given capabilities. -/
def Capability.has (client flags : Capability) : Bool := client &&& flags ≠ 0

def Handshake.validateCapabilities (h : Handshake) (client : Capability) (charset : UInt8) : Option GoError :=
  let required := clientProtocol41 ||| clientSecureConnection ||| clientPluginAuth
  let unsupported := client &&& ~~~h.config.capabilities
  let permittedClientOnly := clientSSL ||| clientFoundRows ||| clientLocalFiles ||| clientMultiStatements |||
    clientMultiResults ||| clientPSMultiResults ||| clientSessionTrack ||| clientRememberOptions
  if client &&& required ≠ required then some (errUnsupportedCapability (lit "required protocol flags"))
  else if client.has (clientCompress ||| clientZstdCompressionAlgorithm) then
    some (errUnsupportedCapability (lit "compression"))
  else if unsupported &&& ~~~permittedClientOnly ≠ 0 then
    some (errUnsupportedCapability (lit "unknown requested flag 0x" ++ hex8 (unsupported &&& ~~~permittedClientOnly)))
  else if !supportedCharset charset then some errUnsupportedCharset
  else none

/-! ## The cursor -/

/-- A loop needs more rounds than it is given. -/
inductive OutOfRounds where
  | rounds
  deriving DecidableEq, Repr

structure ByteCursor where
  data : Bytes
  offset : Nat
  deriving DecidableEq, Repr

/-- What a run can end in other than its results is an index or slice expression out of range, or a loop without
rounds left. -/
abbrev Ranged := Except (Fault OutOfRounds)

/-- Programs on a cursor. -/
abbrev Scan := StateT ByteCursor Ranged

namespace ByteCursor

def remaining (c : ByteCursor) : Int := c.data.length - c.offset

def skip (length : Int) : Scan Bool := do
  let c ← get
  if length < 0 ∨ length > c.remaining then return false
  else
    set { c with offset := c.offset + length.toNat }
    return true

def byte : Scan (UInt8 × Bool) := do
  let c ← get
  if c.remaining < 1 then return (0, false)
  else
    let value ← (index c.data c.offset : Ranged UInt8)
    set { c with offset := c.offset + 1 }
    return (value, true)

def uint32 : Scan (UInt32 × Bool) := do
  let c ← get
  if c.remaining < 4 then return (0, false)
  else
    let value ← (slice c.data c.offset (c.offset + 4) : Ranged Bytes)
    set { c with offset := c.offset + 4 }
    return (.ofNat (leNat value), true)

def bytes (length : Int) : Scan (Bytes × Bool) := do
  let c ← get
  if length < 0 ∨ length > c.remaining then return ([], false)
  else
    let value ← (slice c.data c.offset (c.offset + length.toNat) : Ranged Bytes)
    set { c with offset := c.offset + length.toNat }
    return (value, true)

/-- The loop of `nullTerminated`. -/
def findNull : Nat → Nat → Scan (Bytes × Bool)
  | 0, _ => throw (.error .rounds)
  | rounds + 1, i => do
    let c ← get
    if i < c.data.length then
      let b ← (index c.data i : Ranged UInt8)
      if b = 0 then
        let value ← (slice c.data c.offset i : Ranged Bytes)
        set { c with offset := i + 1 }
        return (value, true)
      else findNull rounds (i + 1)
    else return ([], false)

def nullTerminated : Scan (Bytes × Bool) := do
  let c ← get
  findNull (c.data.length + 1) c.offset

def lenEncodedInt : Scan (UInt64 × Option GoError) := do
  let (first, ok) ← byte
  if !ok then return (0, some errMalformedHandshake)
  else if first = 0xfc then
    let (value, ok) ← bytes 2
    if !ok then return (0, some errMalformedHandshake)
    else return (.ofNat (leNat value), none)
  else if first = 0xfd then
    let (value, ok) ← bytes 3
    if !ok then return (0, some errMalformedHandshake)
    else
      let a ← (index value 0 : Ranged UInt8)
      let b ← (index value 1 : Ranged UInt8)
      let c ← (index value 2 : Ranged UInt8)
      return (a.toUInt64 ||| b.toUInt64 <<< 8 ||| c.toUInt64 <<< 16, none)
  else if first = 0xfe then
    let (value, ok) ← bytes 8
    if !ok then return (0, some errMalformedHandshake)
    else return (.ofNat (leNat value), none)
  else if first = 0xfb ∨ first = 0xff then return (0, some errMalformedHandshake)
  else return (first.toUInt64, none)

def lenEncodedBytes : Scan (Bytes × Option GoError) := do
  let (length, err) ← lenEncodedInt
  if err ≠ none then return ([], err)
  else
    let c ← get
    if (length.toNat : Int) > c.remaining ∨ length.toNat > 2 ^ 63 - 1 then return ([], some errMalformedHandshake)
    else
      let (value, ok) ← bytes length.toNat
      if !ok then return ([], some errMalformedHandshake)
      else return (value, none)

end ByteCursor

/-! ## The response -/

/-- `map[string]string`. -/
abbrev Attributes := AList fun _ : Bytes => Bytes

structure HandshakeResponse where
  clientCapabilities : Capability := 0
  negotiated : Capability := 0
  maxPacketBytes : UInt32 := 0
  charsetID : UInt8 := 0
  username : Bytes := []
  authResponse : Bytes := []
  database : Bytes := []
  authPlugin : Bytes := []
  attributes : Attributes := ∅
  wantsTLS : Bool := false

/-- What `ParseResponse` returns: both results, whatever the error is. -/
abbrev ParseResult := HandshakeResponse × Option GoError

/-- `HandshakeResponse{}` with an error. -/
def refused (e : GoError) : ParseResult := ({}, some e)

open ByteCursor

/-- The switch over the forms of the auth response. -/
def parseAuth (client : Capability) : Scan (Bytes × Option GoError) := do
  if client.has clientPluginAuthLenencClientData then lenEncodedBytes
  else if client.has clientSecureConnection then
    let (length, present) ← byte
    if !present then return ([], some errMalformedHandshake)
    else
      let (authResponse, ok) ← bytes length.toNat
      if !ok then return (authResponse, some errMalformedHandshake)
      else return (authResponse, none)
  else
    let (text, ok) ← nullTerminated
    if !ok then return ([], some errMalformedHandshake)
    else return (text, none)

/-- The loop over the attributes, on a cursor of their own. -/
def parsePairs : Nat → Attributes → Scan (Option Attributes)
  | 0, _ => throw (.error .rounds)
  | rounds + 1, attributes => do
    let c ← get
    if c.remaining > 0 then
      let (key, keyErr) ← lenEncodedBytes
      let (value, valueErr) ← lenEncodedBytes
      if keyErr ≠ none ∨ valueErr ≠ none ∨ key.length = 0 then return none
      else parsePairs rounds (attributes.insert key value)
    else return some attributes

namespace Handshake

variable (h : Handshake)

/-- The end of `ParseResponse`. -/
def parseEnd (response : HandshakeResponse) : Scan ParseResult := do
  let c ← get
  if c.remaining ≠ 0 then return refused errMalformedHandshake
  else if response.authPlugin = [] then return ({ response with authPlugin := h.config.authPlugin }, none)
  else return (response, none)

def parseAttributes (client : Capability) (response : HandshakeResponse) : Scan ParseResult := do
  if client.has clientConnectAttrs then
    let (attributeBytes, attributeErr) ← lenEncodedBytes
    if attributeErr ≠ none ∨ (attributeBytes.length : Int) > h.config.maxAttributesBytes.toInt then
      return refused errMalformedHandshake
    else
      let (result, _) ← (parsePairs (attributeBytes.length + 1) response.attributes).run ⟨attributeBytes, 0⟩
      match result with
      | none => return refused errMalformedHandshake
      | some attributes => h.parseEnd { response with attributes }
  else h.parseEnd response

def parsePlugin (client : Capability) (response : HandshakeResponse) : Scan ParseResult := do
  if client.has clientPluginAuth then
    let (authPlugin, ok) ← nullTerminated
    if !ok then return refused errMalformedHandshake
    else h.parseAttributes client { response with authPlugin }
  else h.parseAttributes client response

def parseDatabase (client : Capability) (response : HandshakeResponse) : Scan ParseResult := do
  if client.has clientConnectWithDB then
    let (database, ok) ← nullTerminated
    if !ok then return refused errMalformedHandshake
    else h.parsePlugin client { response with database }
  else h.parsePlugin client response

/-- The fields behind the fixed part. -/
def parseFields (client : Capability) (response : HandshakeResponse) : Scan ParseResult := do
  let (username, ok) ← nullTerminated
  if !ok then return refused errMalformedHandshake
  else
    let (authResponse, err) ← parseAuth client
    match err with
    | some e => return refused e
    | none => h.parseDatabase client { response with username, authResponse }

/-- After the fixed part: a TLS request ends here. -/
def parseRest (client : Capability) (maxPacket : UInt32) (charset : UInt8) : Scan ParseResult := do
  match h.validateCapabilities client charset with
  | some e => return refused e
  | none =>
    let response : HandshakeResponse := {
      clientCapabilities := client
      negotiated := client &&& h.config.capabilities
      maxPacketBytes := maxPacket
      charsetID := charset }
    let c ← get
    if c.remaining = 0 ∧ client.has clientSSL then
      if !h.config.capabilities.has clientSSL then return refused (errUnsupportedCapability (lit "tls"))
      else return ({ response with wantsTLS := true }, none)
    else h.parseFields client response

def parseCursor : Scan ParseResult := do
  let (client, ok) ← uint32
  if !ok then return refused errMalformedHandshake
  else
    let (maxPacket, ok) ← uint32
    if !ok then return refused errMalformedHandshake
    else
      let (charset, ok) ← byte
      if !ok then return refused errMalformedHandshake
      else
        let ok ← skip 23
        if !ok then return refused errMalformedHandshake
        else h.parseRest client maxPacket charset

def parseResponse (payload : Bytes) : Ranged ParseResult :=
  if payload.length < 32 then .ok (refused errMalformedHandshake)
  else h.parseCursor.run' ⟨payload, 0⟩

end Handshake

end Accelerator.Protocol
