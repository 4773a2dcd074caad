/-
How the process reads its two modes. `Config.Validate` and `config.ResolveSecrets` compare without regard to
case, `App.Run` (`app/app.go`) and `newClientTLS` (`gateway/tls.go`) compare exactly: another spelling of
`pooled` is checked as pooled, asks for a client password and is then relayed without authentication.
-/
import Accelerator.Settings.Validate

namespace Accelerator.App

open Strings Settings

/-! ## Client TLS -/

/-- The TLS configuration for clients, which reads the certificate from two files. -/
structure ClientTLS where
  certFile : Text
  keyFile : Text
  deriving DecidableEq, Repr

inductive ClientTLSError where
  | unsupportedMode (mode : Text)
  | load (err : Text)
  deriving DecidableEq, Repr

/-- `newClientTLS`; `load` reads the certificate and checks its dates. -/
def newClientTLS (load : ClientTLS → Except Text Unit) (server : ServerConfig) :
    Except ClientTLSError (Option ClientTLS) :=
  if server.mysqlTLSMode = text "disabled" then .ok none
  else if server.mysqlTLSMode ≠ text "required" then .error (.unsupportedMode server.mysqlTLSMode)
  else
    let store := ⟨server.mysqlTLSCertFile, server.mysqlTLSKeyFile⟩
    match load store with
    | .error e => .error (.load e)
    | .ok () => .ok (some store)

/-! ## The service -/

/-- The service that takes the clients: the pooled gateway or the transparent relay. -/
inductive Service where
  | gateway
  | relay
  deriving DecidableEq, Repr

/-- The service that `App.Run` chooses: the one whose constructor it calls. -/
def service (cfg : Config) : Option Service :=
  if cfg.upstream.enabled then
    if cfg.server.mysqlMode = text "pooled" then some .gateway else some .relay
  else none

/-- The service that `App.Run` is given by the constructor, as far as the configuration decides: `gateway.New` returns
the error of `newClientTLS`. -/
def makeService (load : ClientTLS → Except Text Unit) (cfg : Config) : Except ClientTLSError (Option Service) :=
  match service cfg with
  | some .gateway => (newClientTLS load cfg.server).map fun _ => some .gateway
  | other => .ok other

/-- `App.Run` starts the pooled gateway, if its certificate files are good. -/
def StartsGateway (cfg : Config) : Prop := ∃ load, makeService load cfg = .ok (some .gateway)

/-- Client TLS is required in a run: the gateway is chosen, and whatever the certificate files hold
`newClientTLS` neither leaves TLS out nor refuses the mode. -/
def RunsTLSRequired (cfg : Config) : Prop :=
  service cfg = some .gateway ∧ ∀ load, newClientTLS load cfg.server ≠ .ok none ∧
    ∀ mode, newClientTLS load cfg.server ≠ .error (.unsupportedMode mode)

/-- The components read the modes alike. -/
structure ModesAgree (cfg : Config) : Prop where
  service : StartsGateway cfg ↔ cfg.pooled ∧ RequiresClientPassword cfg
  clientTLS : RunsTLSRequired cfg ↔ cfg.pooled ∧ cfg.tlsRequired

section Modes

variable {cfg : Config}

theorem service_gateway (he : cfg.upstream.enabled = true) :
    service cfg = some .gateway ↔ cfg.server.mysqlMode = text "pooled" := by
  unfold service
  rw [if_pos he]
  split_ifs with h <;> simp [h]

/-- `gateway.New` refuses every other spelling of a TLS mode. -/
theorem newClientTLS_ok_iff (server : ServerConfig) :
    (∃ load tls, newClientTLS load server = .ok tls) ↔
      server.mysqlTLSMode = text "disabled" ∨ server.mysqlTLSMode = text "required" := by
  constructor
  · rintro ⟨load, tls, h⟩
    unfold newClientTLS at h
    split_ifs at h with hdisabled hrequired
    · exact .inl hdisabled
    · exact .inr (not_not.1 hrequired)
  · rintro (h | h)
    · exact ⟨fun _ => .ok (), none, if_pos h⟩
    · have hne : text "required" ≠ text "disabled" := by decide
      exact ⟨fun _ => .ok (), some ⟨server.mysqlTLSCertFile, server.mysqlTLSKeyFile⟩, by
        rw [newClientTLS, if_neg (h ▸ hne), if_neg (not_not.2 h)]⟩

theorem startsGateway_iff (he : cfg.upstream.enabled = true) :
    StartsGateway cfg ↔ cfg.server.mysqlMode = text "pooled" ∧
      (cfg.server.mysqlTLSMode = text "disabled" ∨ cfg.server.mysqlTLSMode = text "required") := by
  rw [← service_gateway he, ← newClientTLS_ok_iff]
  constructor
  · rintro ⟨load, h⟩
    unfold makeService at h
    split at h
    · rename_i hservice
      cases htls : newClientTLS load cfg.server with
      | error e =>
        rw [htls] at h
        cases h
      | ok tls => exact ⟨hservice, load, tls, htls⟩
    · rename_i hservice
      exact absurd (Except.ok.inj h) hservice
  · rintro ⟨hservice, load, tls, htls⟩
    exact ⟨load, by rw [makeService, hservice, htls]; rfl⟩

theorem newClientTLS_required (server : ServerConfig) :
    (∀ load, newClientTLS load server ≠ .ok none ∧
      ∀ mode, newClientTLS load server ≠ .error (.unsupportedMode mode)) ↔
      server.mysqlTLSMode = text "required" := by
  have hne : text "required" ≠ text "disabled" := by decide
  constructor
  · intro h
    obtain ⟨hnone, hmode⟩ := h fun _ => .ok ()
    by_contra hrequired
    unfold newClientTLS at hnone hmode
    by_cases hdisabled : server.mysqlTLSMode = text "disabled"
    · exact hnone (if_pos hdisabled)
    · exact hmode server.mysqlTLSMode (by rw [if_neg hdisabled, if_pos hrequired])
  · intro h load
    unfold newClientTLS
    rw [if_neg (h ▸ hne), if_neg (not_not.2 h)]
    cases hload : load ⟨server.mysqlTLSCertFile, server.mysqlTLSKeyFile⟩ with
    | error e => simp [hload]
    | ok _ => simp [hload]

/-- Exact spellings are read alike by all. -/
theorem pooled_of_exact (h : cfg.server.mysqlMode = text "pooled") : cfg.pooled := by
  unfold Config.pooled
  rw [h]
  decide

theorem tlsRequired_of_exact (h : cfg.server.mysqlTLSMode = text "required") : cfg.tlsRequired := by
  unfold Config.tlsRequired
  rw [h]
  decide

/-- The modes of an accepted configuration are read alike exactly if the mode is a spelling of `transparent`,
or `pooled` in this spelling with a TLS mode that is spelled `disabled` or `required`. -/
theorem modes_agree_iff (lib : Library) (cfg : Config) (hv : cfg.validate lib = .ok ())
    (he : cfg.upstream.enabled = true) :
    ModesAgree cfg ↔ toLower cfg.server.mysqlMode = text "transparent" ∨
      (cfg.server.mysqlMode = text "pooled" ∧
        (cfg.server.mysqlTLSMode = text "disabled" ∨ cfg.server.mysqlTLSMode = text "required")) := by
  rw [← not_pooled_iff hv]
  constructor
  · rintro ⟨hservice, -⟩
    rw [requiresClientPassword_iff, and_self, startsGateway_iff he] at hservice
    by_cases hp : cfg.pooled
    · exact .inr (hservice.2 hp)
    · exact .inl hp
  · intro h
    refine ⟨?_, ?_⟩
    · rw [requiresClientPassword_iff, and_self, startsGateway_iff he]
      exact ⟨fun hm => pooled_of_exact hm.1, h.resolve_left ∘ not_not.2⟩
    · rw [RunsTLSRequired, newClientTLS_required, service_gateway he]
      constructor
      · rintro ⟨hm, ht⟩
        exact ⟨pooled_of_exact hm, tlsRequired_of_exact ht⟩
      · rintro ⟨hp, hr⟩
        obtain ⟨hm, ht | ht⟩ := h.resolve_left (not_not.2 hp)
        · unfold Config.tlsRequired at hr
          rw [ht] at hr
          exact absurd hr (by decide)
        · exact ⟨hm, ht⟩

end Modes

/-! ## Spellings -/

/-- A configuration with the upstream enabled, a listener on `localhost` and the given modes. -/
def configured (mode tlsMode : String) : Config :=
  { default with
    server := { default.server with
      mysqlListen := text "localhost:3307"
      mysqlMode := text mode
      mysqlTLSMode := text tlsMode
      mysqlTLSCertFile := text "client.crt"
      mysqlTLSKeyFile := text "client.key" }
    upstream := { default.upstream with enabled := true } }

theorem modes_agree_pooled_required :
    (∀ lib, (configured "pooled" "required").validate lib = .ok ()) ∧ ModesAgree (configured "pooled" "required") := by
  have hv : ∀ lib, (configured "pooled" "required").validate lib = .ok () := fun lib => by
    rw [validate_eq_ok, Config.problems, upstreamProblems_default lib rfl]
    rfl
  let lib : Library := ⟨fun _ => none, fun f unit scale => f * unit / scale⟩
  exact ⟨hv, (modes_agree_iff lib _ (hv lib) rfl).2 (.inr ⟨rfl, .inr rfl⟩)⟩

/-- `POOLED` passes as pooled and asks for a client password, and the relay is started. -/
theorem upper_case_pooled_is_relayed :
    (∀ lib, (configured "POOLED" "disabled").validate lib = .ok ()) ∧
      (configured "POOLED" "disabled").upstream.enabled = true ∧
      RequiresClientPassword (configured "POOLED" "disabled") ∧
      service (configured "POOLED" "disabled") = some .relay ∧
      ¬ModesAgree (configured "POOLED" "disabled") := by
  have hv : ∀ lib, (configured "POOLED" "disabled").validate lib = .ok () := fun lib => by
    rw [validate_eq_ok, Config.problems, upstreamProblems_default lib rfl]
    rfl
  have hp : (configured "POOLED" "disabled").pooled := by decide
  have hr := (requiresClientPassword_iff (configured "POOLED" "disabled")).2 hp
  have hs : service (configured "POOLED" "disabled") = some .relay := by decide
  refine ⟨hv, rfl, hr, hs, fun h => ?_⟩
  obtain ⟨load, hload⟩ := h.service.2 ⟨hp, hr⟩
  rw [makeService, hs] at hload
  cases hload

end Accelerator.App
