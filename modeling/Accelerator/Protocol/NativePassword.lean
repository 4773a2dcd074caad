/-
The native password challenge (`protocol/mysql/auth.go`). The server keeps the double hash of the password; a
client shows that it knows the single hash by masking it with a hash of the seed and the double hash.
-/
import Accelerator.Upstream.Types
import Mathlib.Data.List.Basic

namespace Accelerator.Protocol

open Strings Upstream

def nativePasswordPlugin : Bytes := lit "mysql_native_password"

/-- `crypto/sha1`. -/
structure Sha1 where
  sum : Bytes → Bytes
  length_sum : ∀ b, (sum b).length = 20

namespace Sha1

variable (sha1 : Sha1)

def mask (a b : Bytes) : Bytes := List.zipWith (· ^^^ ·) a b

def nativePasswordToken (password seed : Bytes) : Bytes :=
  if password = [] then []
  else
    let stage1 := sha1.sum password
    let stage2 := sha1.sum stage1
    mask stage1 (sha1.sum (seed ++ stage2))

def nativePasswordVerifier (password : Bytes) : Bytes :=
  if password = [] then [] else sha1.sum (sha1.sum password)

def nativePasswordVerifierMatches (response verifier seed : Bytes) : Bool :=
  if verifier.length = 0 then response.length = 0
  else if response.length ≠ 20 ∨ verifier.length ≠ 20 then false
  else
    let candidateStage1 := mask response (sha1.sum (seed ++ verifier))
    sha1.sum candidateStage1 = verifier

/-! ## The challenge -/

theorem mask_mask {a b : Bytes} (h : a.length ≤ b.length) : mask (mask a b) b = a := by
  induction a generalizing b with
  | nil => rfl
  | cons x a ih =>
    rcases b with _ | ⟨y, b⟩
    · simp at h
    · have hxy : x ^^^ y ^^^ y = x := by rw [UInt8.xor_assoc, UInt8.xor_self, UInt8.xor_zero]
      simp only [mask, List.zipWith_cons_cons] at ih ⊢
      rw [hxy, ih (by simpa using h)]

/-- The token of the password passes. -/
theorem nativePasswordToken_matches (password seed : Bytes) :
    sha1.nativePasswordVerifierMatches (sha1.nativePasswordToken password seed) (sha1.nativePasswordVerifier password)
      seed = true := by
  by_cases hp : password = []
  · simp [nativePasswordVerifierMatches, nativePasswordToken, nativePasswordVerifier, hp]
  have hmask := mask_mask (a := sha1.sum password) (b := sha1.sum (seed ++ sha1.sum (sha1.sum password)))
    (by rw [sha1.length_sum, sha1.length_sum])
  have hlen : (mask (sha1.sum password) (sha1.sum (seed ++ sha1.sum (sha1.sum password)))).length = 20 := by
    simp [mask, sha1.length_sum]
  simp [nativePasswordVerifierMatches, nativePasswordToken, nativePasswordVerifier, hp, hmask, hlen, sha1.length_sum]

/-- What passes for a verifier has the length of a hash and unmasks to a preimage of it. -/
theorem matches_iff {response verifier seed : Bytes} (hv : verifier ≠ []) :
    sha1.nativePasswordVerifierMatches response verifier seed = true ↔
      response.length = 20 ∧ verifier.length = 20 ∧ sha1.sum (mask response (sha1.sum (seed ++ verifier))) = verifier := by
  have hne : verifier.length ≠ 0 := fun h => hv (List.eq_nil_of_length_eq_zero h)
  rw [nativePasswordVerifierMatches, if_neg hne]
  split_ifs with hlen
  · refine iff_of_false nofun ?_
    rintro ⟨hresponse, hverifier, -⟩
    exact hlen.elim (fun h => h hresponse) fun h => h hverifier
  · rw [not_or, not_not, not_not] at hlen
    rw [decide_eq_true_eq]
    exact ⟨fun h => ⟨hlen.1, hlen.2, h⟩, fun h => h.2.2⟩

/-- Without a password nothing but the empty response passes. -/
theorem matches_empty_iff (response seed : Bytes) :
    sha1.nativePasswordVerifierMatches response (sha1.nativePasswordVerifier []) seed = true ↔ response = [] := by
  have hverifier : sha1.nativePasswordVerifier [] = [] := if_pos rfl
  rw [nativePasswordVerifierMatches, hverifier, if_pos List.length_nil, decide_eq_true_eq, List.length_eq_zero_iff]

/-- Two strings of 20 bytes that `crypto/sha1` does not tell apart. -/
structure Collision (a b : Bytes) : Prop where
  length_left : a.length = 20
  length_right : b.length = 20
  ne : a ≠ b
  sum_eq : sha1.sum a = sha1.sum b

/-- What passes for a password is its token, or it unmasks to a collision with the hash of the password. -/
theorem token_or_collision {password response seed : Bytes} (hp : password ≠ [])
    (h : sha1.nativePasswordVerifierMatches response (sha1.nativePasswordVerifier password) seed = true) :
    response = sha1.nativePasswordToken password seed ∨
      sha1.Collision (sha1.sum password)
        (mask response (sha1.sum (seed ++ sha1.nativePasswordVerifier password))) := by
  have hverifier : sha1.nativePasswordVerifier password = sha1.sum (sha1.sum password) := if_neg hp
  have hne : sha1.sum (sha1.sum password) ≠ [] := by
    intro hnil
    have hlen := sha1.length_sum (sha1.sum password)
    rw [hnil] at hlen
    cases hlen
  rw [hverifier] at h ⊢
  obtain ⟨hlen, -, hpreimage⟩ := (sha1.matches_iff hne).1 h
  have hunmask : mask (mask response (sha1.sum (seed ++ sha1.sum (sha1.sum password))))
      (sha1.sum (seed ++ sha1.sum (sha1.sum password))) = response :=
    mask_mask (by rw [hlen, sha1.length_sum])
  by_cases hsame : sha1.sum password = mask response (sha1.sum (seed ++ sha1.sum (sha1.sum password)))
  · -- masking twice gives the response back, so it is the token
    left
    rw [← hsame] at hunmask
    rw [nativePasswordToken, if_neg hp]
    exact hunmask.symm
  · right
    constructor
    · exact sha1.length_sum password
    · rw [mask, List.length_zipWith, hlen, sha1.length_sum]
      rfl
    · exact hsame
    · exact hpreimage.symm

/-- The token of a password passes against its verifier; without a password only the empty response does; and
what else passes for a password collides with its hash. -/
theorem native_password_exact (password seed : Bytes) :
    sha1.nativePasswordVerifierMatches (sha1.nativePasswordToken password seed) (sha1.nativePasswordVerifier password)
        seed = true ∧
    (password = [] → ∀ response,
      sha1.nativePasswordVerifierMatches response (sha1.nativePasswordVerifier password) seed = true ↔ response = []) ∧
    (password ≠ [] → ∀ response,
      sha1.nativePasswordVerifierMatches response (sha1.nativePasswordVerifier password) seed = true →
      response ≠ sha1.nativePasswordToken password seed →
      sha1.Collision (sha1.sum password)
        (mask response (sha1.sum (seed ++ sha1.nativePasswordVerifier password)))) := by
  refine ⟨sha1.nativePasswordToken_matches password seed, ?_, ?_⟩
  · rintro rfl response
    exact sha1.matches_empty_iff response seed
  · intro hp response h hother
    exact (sha1.token_or_collision hp h).resolve_left hother

/-- A hash with nothing but collisions. -/
def constant : Sha1 where
  sum _ := List.replicate 20 0
  length_sum _ := List.length_replicate

/-- A hash with these digests, and one digest for everything else. -/
def table (digests : List (Bytes × { d : Bytes // d.length = 20 })) : Sha1 where
  sum b := ((digests.lookup b).getD ⟨List.replicate 20 0, List.length_replicate⟩).1
  length_sum b := ((digests.lookup b).getD ⟨List.replicate 20 0, List.length_replicate⟩).2

/-- The SHA-1 digest of "secret". -/
def secretStage1 : Bytes :=
  [0xe5, 0xe9, 0xfa, 0x1b, 0xa3, 0x1e, 0xcd, 0x1a, 0xe8, 0x4f, 0x75, 0xca, 0xaa, 0x47, 0x4f, 0x3a, 0x66, 0x3f, 0x05, 0xf4]

/-- The SHA-1 digest of `secretStage1`. -/
def secretStage2 : Bytes :=
  [0x14, 0xe6, 0x55, 0x67, 0xab, 0xdb, 0x51, 0x35, 0xd0, 0xcf, 0xd9, 0xa7, 0x0b, 0x30, 0x32, 0xc1, 0x79, 0xa4, 0x9e, 0xe7]

/-- The SHA-1 digest of twenty ones and `secretStage2`. -/
def secretMask : Bytes :=
  [0xe1, 0x05, 0x58, 0x9e, 0x6d, 0x78, 0x6d, 0xfa, 0xbb, 0x2a, 0x20, 0x80, 0x04, 0x9d, 0xb6, 0xab, 0xf4, 0xf9, 0x27, 0xcb]

/-- What the client sends for the password "secret" and a seed of twenty ones. -/
def secretToken : Bytes :=
  [0x04, 0xec, 0xa2, 0x85, 0xce, 0x66, 0xa0, 0xe0, 0x53, 0x65, 0x55, 0x4a, 0xae, 0xda, 0xf9, 0x91, 0x92, 0xc6, 0x22, 0x3f]

/-- The digests of one login. -/
def ofSecret : Sha1 :=
  table [(lit "secret", ⟨secretStage1, rfl⟩), (secretStage1, ⟨secretStage2, rfl⟩),
    (List.replicate 20 1 ++ secretStage2, ⟨secretMask, rfl⟩)]

theorem ofSecret_preimage {b : Bytes} (h : ofSecret.sum b = secretStage2) : b = secretStage1 := by
  simp only [ofSecret, table, List.lookup_cons, List.lookup_nil] at h
  split at h
  · exact absurd h (by decide)
  · split at h
    · rename_i heq
      exact eq_of_beq heq
    · split at h
      · exact absurd h (by decide)
      · exact absurd h (by decide)

/-- For the password "secret" its token passes and nothing else does, without a password the empty response does; and
where a hash has collisions, what else passes shows one. -/
theorem native_password_exact_secret :
    (ofSecret.nativePasswordToken (lit "secret") (List.replicate 20 1) = secretToken ∧
      ofSecret.nativePasswordVerifier (lit "secret") = secretStage2) ∧
    (∀ response, ofSecret.nativePasswordVerifierMatches response secretStage2 (List.replicate 20 1) = true ↔
      response = secretToken) ∧
    (∀ response, ofSecret.nativePasswordVerifierMatches response [] (List.replicate 20 1) = true ↔ response = []) ∧
    constant.Collision (constant.sum [0x70])
      (mask (List.replicate 20 1) (constant.sum ([0x73] ++ constant.nativePasswordVerifier [0x70]))) := by
  have htoken : ofSecret.nativePasswordToken (lit "secret") (List.replicate 20 1) = secretToken := by decide +kernel
  have hverifier : ofSecret.nativePasswordVerifier (lit "secret") = secretStage2 := by decide +kernel
  have hempty : ofSecret.nativePasswordVerifier [] = [] := rfl
  have hsecret := ofSecret.native_password_exact (lit "secret") (List.replicate 20 1)
  rw [htoken, hverifier] at hsecret
  refine ⟨⟨htoken, hverifier⟩, fun response => ⟨fun h => ?_, ?_⟩, ?_, ?_⟩
  · by_contra hother
    obtain ⟨-, -, hne, hsum⟩ := hsecret.2.2 (by decide) response h hother
    exact hne (ofSecret_preimage (b := mask response _) (hsum.symm.trans (by decide +kernel))).symm
  · rintro rfl
    exact hsecret.1
  · have hnone := (ofSecret.native_password_exact [] (List.replicate 20 1)).2.1 rfl
    rwa [hempty] at hnone
  · exact (constant.native_password_exact [0x70] [0x73]).2.2 (by decide) (List.replicate 20 1) (by decide) (by decide)

end Sha1

end Accelerator.Protocol
