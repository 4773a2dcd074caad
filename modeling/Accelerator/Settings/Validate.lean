/-
`Config.Validate` and `config.ResolveSecrets`. Validation collects one problem for each check that fails; the
rules of the pooled mode are checked when the mode folds to `pooled`, the test by which the secrets ask for a
client password.
-/
import Accelerator.Settings.Config

namespace Accelerator.Settings

open Strings

/-! ## Problems -/

/-- The checks of `Config.Validate` that can fail, in order. -/
inductive Problem where
  | version
  | mysqlListen (err : Text)
  | mysqlMode
  | clientUser
  | clientPasswordEnv
  | clientTLSMode
  | clientTLSFiles
  | loopback
  | adminListen (err : Text)
  | sameListeners
  | shutdownTimeout (err : Text)
  | dataDir
  | logicalConnections
  | upstreamConnections
  | connectionOrder
  | queueLimits
  | loggingLevel
  | upstreamHost
  | upstreamPort
  | upstreamUser
  | upstreamPasswordEnv
  | upstreamTLSMode
  | upstreamCAFile
  | upstreamServerName
  | upstreamTimeout (name err : Text)
  deriving DecidableEq, Repr

def Problem.text : Problem → Text
  | .version => Strings.text "version must be 1"
  | .mysqlListen err => Strings.text "server.mysql_listen: " ++ err
  | .mysqlMode => Strings.text "server.mysql_mode must be transparent or pooled"
  | .clientUser => Strings.text "server.mysql_client_user must not be empty in pooled mode"
  | .clientPasswordEnv => Strings.text "server.mysql_client_password_env must not be empty in pooled mode"
  | .clientTLSMode => Strings.text "server.mysql_tls_mode must be disabled or required"
  | .clientTLSFiles =>
    Strings.text "server.mysql_tls_cert_file and mysql_tls_key_file are required when client TLS is required"
  | .loopback =>
    Strings.text "server.mysql_listen must use loopback in pooled mode until client TLS is enabled; " ++
      Strings.text "set mysql_allow_insecure_network only for an explicitly protected private boundary"
  | .adminListen err => Strings.text "server.admin_listen: " ++ err
  | .sameListeners => Strings.text "server mysql and admin listeners must differ"
  | .shutdownTimeout err => Strings.text "server.shutdown_timeout: " ++ err
  | .dataDir => Strings.text "server.data_dir must not be empty"
  | .logicalConnections => Strings.text "limits.max_logical_connections must be positive"
  | .upstreamConnections => Strings.text "limits.max_upstream_connections must be positive"
  | .connectionOrder => Strings.text "limits.max_upstream_connections cannot exceed max_logical_connections"
  | .queueLimits => Strings.text "queue limits cannot be negative"
  | .loggingLevel => Strings.text "logging.level must be debug, info, warn, or error"
  | .upstreamHost => Strings.text "upstream.host must not be empty when enabled"
  | .upstreamPort => Strings.text "upstream.port must be between 1 and 65535"
  | .upstreamUser => Strings.text "upstream.user must not be empty when enabled"
  | .upstreamPasswordEnv => Strings.text "upstream.password_env must not be empty when enabled"
  | .upstreamTLSMode => Strings.text "upstream.tls_mode is unsupported"
  | .upstreamCAFile => Strings.text "upstream.tls_ca_file is required for verify-ca and verify-full"
  | .upstreamServerName =>
    Strings.text "upstream.tls_server_name is required for verify-full when host is an IP address"
  | .upstreamTimeout name err => Strings.text "upstream." ++ name ++ Strings.text ": " ++ err

/-! ## Checks -/

/-- A check: the problem when the condition holds. -/
def problemIf (p : Prop) [Decidable p] (problem : Problem) : List Problem := if p then [problem] else []

/-- A check by a function that returns an error. -/
def problemOf {α : Type} (problem : Text → Problem) : Except Text α → List Problem
  | .error e => [problem e]
  | .ok _ => []

def oneOf (value : Text) (allowed : List String) : Prop := ∃ candidate ∈ allowed, value = text candidate

instance (value : Text) (allowed : List String) : Decidable (oneOf value allowed) :=
  inferInstanceAs (Decidable (∃ candidate ∈ allowed, _))

def blank (t : Text) : Prop := trimSpace t = []

instance (t : Text) : Decidable (blank t) := inferInstanceAs (Decidable (_ = _))

/-- Whether the mode is pooled, to `Validate`. -/
def Config.pooled (c : Config) : Prop := equalFold c.server.mysqlMode (text "pooled") = true

instance (c : Config) : Decidable c.pooled := inferInstanceAs (Decidable (_ = _))

/-- Whether client TLS is required, to the pooled-mode rules. -/
def Config.tlsRequired (c : Config) : Prop := equalFold c.server.mysqlTLSMode (text "required") = true

instance (c : Config) : Decidable c.tlsRequired := inferInstanceAs (Decidable (_ = _))

section Validate

variable (lib : Library) (c : Config)

/-- The rules of the pooled mode. -/
def Config.pooledProblems : List Problem :=
  problemIf (blank c.server.mysqlClientUser) .clientUser ++
  problemIf (blank c.server.mysqlClientPasswordEnv) .clientPasswordEnv ++
  problemIf (¬oneOf (toLower c.server.mysqlTLSMode) ["disabled", "required"]) .clientTLSMode ++
  problemIf (c.tlsRequired ∧ (blank c.server.mysqlTLSCertFile ∨ blank c.server.mysqlTLSKeyFile)) .clientTLSFiles ++
  problemIf (!c.server.mysqlAllowInsecureNet ∧ !isLoopbackAddress lib c.server.mysqlListen ∧ ¬c.tlsRequired) .loopback

/-- The rules of an enabled upstream. The source goes over the timeouts in the order of a map, which is not
fixed. -/
def Config.upstreamProblems : List Problem :=
  problemIf (blank c.upstream.host) .upstreamHost ++
  problemIf (c.upstream.port < 1 ∨ 65535 < c.upstream.port) .upstreamPort ++
  problemIf (blank c.upstream.user) .upstreamUser ++
  problemIf (blank c.upstream.passwordEnv) .upstreamPasswordEnv ++
  problemIf (¬oneOf (toLower c.upstream.tlsMode) ["disabled", "preferred", "required", "verify-ca", "verify-full"])
    .upstreamTLSMode ++
  problemIf (oneOf (toLower c.upstream.tlsMode) ["verify-ca", "verify-full"] ∧ blank c.upstream.tlsCAFile)
    .upstreamCAFile ++
  problemIf (equalFold c.upstream.tlsMode (text "verify-full") ∧ blank c.upstream.tlsServerName ∧
    (lib.parseIP c.upstream.host).isSome) .upstreamServerName ++
  [(text "connect_timeout", c.upstream.connectTimeout), (text "read_timeout", c.upstream.readTimeout),
    (text "write_timeout", c.upstream.writeTimeout), (text "health_timeout", c.upstream.healthTimeout)].flatMap
      fun (name, value) => problemOf (.upstreamTimeout name) (boundedDuration lib value)

/-- The problems `Config.Validate` finds. -/
def Config.problems : List Problem :=
  problemIf (c.version ≠ currentVersion) .version ++
  problemOf .mysqlListen (validateAddress c.server.mysqlListen) ++
  problemIf (¬oneOf (toLower c.server.mysqlMode) ["transparent", "pooled"]) .mysqlMode ++
  (if c.pooled then c.pooledProblems lib else []) ++
  problemOf .adminListen (validateAddress c.server.adminListen) ++
  problemIf (c.server.mysqlListen = c.server.adminListen) .sameListeners ++
  problemOf .shutdownTimeout (c.shutdownDuration lib) ++
  problemIf (blank c.server.dataDir) .dataDir ++
  problemIf (c.limits.maxLogicalConnections ≤ 0) .logicalConnections ++
  problemIf (c.limits.maxUpstreamConnections ≤ 0) .upstreamConnections ++
  problemIf (c.limits.maxLogicalConnections < c.limits.maxUpstreamConnections) .connectionOrder ++
  problemIf (c.limits.maxQueuedRequests < 0 ∨ c.limits.maxQueuedBytes < 0) .queueLimits ++
  problemIf (¬oneOf (toLower c.logging.level) ["debug", "info", "warn", "error"]) .loggingLevel ++
  (if c.upstream.enabled then c.upstreamProblems lib else [])

/-- `Config.Validate`. -/
def Config.validate : Except Text Unit :=
  if c.problems lib = [] then .ok () else .error (join ((c.problems lib).map Problem.text) (text "; "))

end Validate

section Accepted

variable {lib : Library} {c : Config}

theorem problemIf_eq_nil {p : Prop} [Decidable p] {problem : Problem} : problemIf p problem = [] ↔ ¬p := by
  unfold problemIf
  split_ifs with h <;> simp [h]

theorem validate_eq_ok : c.validate lib = .ok () ↔ c.problems lib = [] := by
  unfold Config.validate
  split_ifs with h <;> simp [h]

/-- The mode of an accepted configuration is a spelling of one of the two. -/
theorem mode_of_validate (h : c.validate lib = .ok ()) :
    toLower c.server.mysqlMode = text "transparent" ∨ toLower c.server.mysqlMode = text "pooled" := by
  rw [validate_eq_ok] at h
  simp only [Config.problems, List.append_eq_nil_iff, problemIf_eq_nil, not_not] at h
  obtain ⟨candidate, hmem, heq⟩ : oneOf (toLower c.server.mysqlMode) ["transparent", "pooled"] := by tauto
  rcases List.mem_cons.1 hmem with rfl | hmem
  · exact .inl heq
  · exact .inr (List.mem_singleton.1 hmem ▸ heq)

theorem plain_pooled : ∀ c ∈ text "pooled", ∃ d, c = .chr d ∧ isPlainLetter d = true := by
  intro c hc
  obtain ⟨d, hd, rfl⟩ := List.mem_map.1 hc
  exact ⟨d, rfl, List.all_eq_true.1 (by decide : "pooled".toList.all isPlainLetter = true) d hd⟩

/-- Lower case and folding agree on the pooled mode. -/
theorem pooled_iff_toLower : c.pooled ↔ toLower c.server.mysqlMode = text "pooled" :=
  (toLower_eq_iff plain_pooled).symm

/-- The mode of an accepted configuration that is not pooled is a spelling of transparent. -/
theorem not_pooled_iff (h : c.validate lib = .ok ()) :
    ¬c.pooled ↔ toLower c.server.mysqlMode = text "transparent" := by
  have hne : text "transparent" ≠ text "pooled" := by decide
  rw [pooled_iff_toLower]
  constructor
  · exact (mode_of_validate h).resolve_right
  · intro ht hp
    exact hne (ht.symm.trans hp)

theorem boundedDuration_seconds (lib : Library) :
    boundedDuration lib (text "5s") = .ok (5 * second) ∧ boundedDuration lib (text "30s") = .ok (30 * second) := by
  have h5 : parseDuration lib (text "5s") = .ok (5 * second) := by
    simp [parseDuration, text, readQuantities, readQuantity, readNumber, digit?, leadingInt, unitMap, List.lookup_cons]
    rfl
  have h30 : parseDuration lib (text "30s") = .ok (30 * second) := by
    simp [parseDuration, text, readQuantities, readQuantity, readNumber, digit?, leadingInt, unitMap, List.lookup_cons]
    rfl
  rw [boundedDuration, h5, boundedDuration, h30]
  exact ⟨rfl, rfl⟩

/-- The default settings of the upstream pass when it is enabled. -/
theorem upstreamProblems_default (lib : Library) (h : c.upstream = { default.upstream with enabled := true }) :
    c.upstreamProblems lib = [] := by
  obtain ⟨h5, h30⟩ := boundedDuration_seconds lib
  simp only [Config.upstreamProblems, h, default, List.flatMap_cons, h5, h30]
  rfl

/-- The default configuration passes, whatever the library computes. -/
theorem default_validate (lib : Library) : default.validate lib = .ok () :=
  validate_eq_ok.2 (by rfl)

end Accepted

/-! ## Secrets -/

structure Secrets where
  upstreamPassword : Text := []
  clientPassword : Text := []
  adminToken : Text := []
  deriving DecidableEq, Repr

inductive SecretError where
  | lookupRequired
  | adminTokenUnset (name : Text)
  | adminTokenShort (name : Text)
  | clientPasswordUnset (name : Text)
  | clientPasswordShort (name : Text)
  | upstreamUnset (name : Text)
  | upstreamEmpty (name : Text)
  deriving DecidableEq, Repr

def SecretError.text : SecretError → Text
  | .lookupRequired => Strings.text "secret lookup is required"
  | .adminTokenUnset name =>
    Strings.text "required admin token environment " ++ name ++ Strings.text " is not set or empty"
  | .adminTokenShort name =>
    Strings.text "required admin token environment " ++ name ++ Strings.text " must contain at least 16 characters"
  | .clientPasswordUnset name =>
    Strings.text "required client password environment " ++ name ++ Strings.text " is not set or empty"
  | .clientPasswordShort name =>
    Strings.text "required client password environment " ++ name ++
      Strings.text " must contain at least 12 characters"
  | .upstreamUnset name => Strings.text "required secret environment " ++ name ++ Strings.text " is not set"
  | .upstreamEmpty name =>
    Strings.text "required secret environment " ++ name ++ Strings.text " is empty; " ++
      Strings.text "set upstream.allow_empty_password only for an intentional passwordless account"

section Secrets

variable (lookup : Text → Option Text)

/-- A secret that must be set and have a least number of bytes. -/
def longSecret (name : Text) (least : Nat) (unset short : Text → SecretError) : Except SecretError Text :=
  match lookup name with
  | none => .error (unset name)
  | some value =>
    if value = [] then .error (unset name)
    else if (toBytes value).length < least then .error (short name)
    else .ok value

def adminToken (cfg : Config) : Except SecretError Text :=
  if blank cfg.server.adminTokenEnv then .ok []
  else longSecret lookup (trimSpace cfg.server.adminTokenEnv) 16 .adminTokenUnset .adminTokenShort

def clientPassword (cfg : Config) : Except SecretError Text :=
  if cfg.pooled then
    longSecret lookup (trimSpace cfg.server.mysqlClientPasswordEnv) 12 .clientPasswordUnset .clientPasswordShort
  else .ok []

def upstreamPassword (cfg : Config) : Except SecretError Text :=
  if cfg.upstream.enabled then
    match lookup (trimSpace cfg.upstream.passwordEnv) with
    | none =>
      if cfg.upstream.allowEmptyPassword then .ok [] else .error (.upstreamUnset (trimSpace cfg.upstream.passwordEnv))
    | some value =>
      if value = [] ∧ !cfg.upstream.allowEmptyPassword then
        .error (.upstreamEmpty (trimSpace cfg.upstream.passwordEnv))
      else .ok value
  else .ok []

end Secrets

/-- `config.ResolveSecrets`; the lookup may be missing. -/
def resolveSecrets (cfg : Config) : Option (Text → Option Text) → Except SecretError Secrets
  | none =>
    if cfg.upstream.enabled ∨ cfg.pooled ∨ ¬blank cfg.server.adminTokenEnv then .error .lookupRequired else .ok {}
  | some lookup => do
    let token ← adminToken lookup cfg
    let client ← clientPassword lookup cfg
    let upstream ← upstreamPassword lookup cfg
    return { upstreamPassword := upstream, clientPassword := client, adminToken := token }

/-- No secrets are resolved without a client password. -/
def RequiresClientPassword (cfg : Config) : Prop :=
  ∀ lookup secrets, resolveSecrets cfg lookup = .ok secrets → secrets.clientPassword ≠ []

theorem longSecret_ne_nil {lookup : Text → Option Text} {name value : Text} {least : Nat}
    {unset short : Text → SecretError} (h : longSecret lookup name least unset short = .ok value) : value ≠ [] := by
  unfold longSecret at h
  split at h
  · cases h
  · split_ifs at h with hne
    cases h
    exact hne

theorem longSecret_long {name : Text} {least : Nat} {unset short : Text → SecretError} (hl : least ≤ 16) :
    longSecret (fun _ => some (text "0123456789abcdef")) name least unset short = .ok (text "0123456789abcdef") := by
  have hlen : (toBytes (text "0123456789abcdef")).length = 16 := by decide +kernel
  unfold longSecret
  simp only
  rw [if_neg (by decide), if_neg (by omega)]

/-- Secrets ask for a client password in the mode `Validate` takes for pooled. -/
theorem requiresClientPassword_iff (cfg : Config) : RequiresClientPassword cfg ↔ cfg.pooled := by
  constructor
  · intro h
    by_contra hp
    -- An environment in which every variable is long enough.
    let lookup : Text → Option Text := fun _ => some (text "0123456789abcdef")
    obtain ⟨token, htoken⟩ : ∃ token, adminToken lookup cfg = .ok token := by
      unfold adminToken
      split_ifs
      · exact ⟨_, rfl⟩
      · exact ⟨_, longSecret_long le_rfl⟩
    obtain ⟨upstream, hupstream⟩ : ∃ upstream, upstreamPassword lookup cfg = .ok upstream := by
      unfold upstreamPassword
      by_cases he : cfg.upstream.enabled = true
      · refine ⟨text "0123456789abcdef", ?_⟩
        simp only [lookup]
        rw [if_pos he, if_neg fun h => absurd h.1 (by decide)]
      · exact ⟨[], if_neg he⟩
    have hclient : clientPassword lookup cfg = .ok [] := if_neg hp
    have hok : resolveSecrets cfg (some lookup) = .ok ⟨upstream, [], token⟩ := by
      rw [resolveSecrets, htoken, hclient, hupstream]
      rfl
    exact h _ _ hok rfl
  · intro hp lookup secrets h
    cases lookup with
    | none =>
      rw [resolveSecrets, if_pos (.inr (.inl hp))] at h
      cases h
    | some lookup =>
      rw [resolveSecrets] at h
      obtain ⟨token, -, h⟩ := ok_of_bind h
      obtain ⟨client, hclient, h⟩ := ok_of_bind h
      obtain ⟨upstream, -, h⟩ := ok_of_bind h
      cases h
      rw [clientPassword, if_pos hp] at hclient
      exact longSecret_ne_nil hclient

end Accelerator.Settings
