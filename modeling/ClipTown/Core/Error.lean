/-
  ClipTown.Core.Error — `CoreError`, the bounded failure type of the core
  crate (`src/error.rs`), and its stable machine-readable codes.

  A failure carries no user-controlled text: it is one of finitely many
  constructors, and `code` is injective on them.
-/
import Mathlib.Data.List.Nodup

namespace ClipTown

/-- `CoreError` (`src/error.rs`). -/
inductive CoreError where
  | invalidIdentifier
  | invalidClock
  | invalidAudience
  | invalidClient
  | invalidCredentialLineage
  | revokedCredential
  | expiredCredential
  | missingScope
  | insufficientAssurance
  | staleStepUp
  | ownershipMismatch
  | invalidCiphertext
  | unsupportedCipher
  | invalidManifest
  | invalidStorageKey
  | invalidWrappedKey
  | grantPolicyOutOfBounds
  | emptyBatch
  | batchTooLarge
  | invalidMutation
  | duplicateMutation
  | duplicateRecordClock
  | futureMutation
  | logicalClockOutOfRange
  | sizeLimitExceeded
  deriving DecidableEq, Repr

/-- `CoreError::code`. -/
def CoreError.code : CoreError → String
  | .invalidIdentifier => "invalid_identifier"
  | .invalidClock => "invalid_clock"
  | .invalidAudience => "invalid_audience"
  | .invalidClient => "invalid_client"
  | .invalidCredentialLineage => "invalid_credential_lineage"
  | .revokedCredential => "revoked_credential"
  | .expiredCredential => "expired_credential"
  | .missingScope => "missing_scope"
  | .insufficientAssurance => "insufficient_assurance"
  | .staleStepUp => "stale_step_up"
  | .ownershipMismatch => "ownership_mismatch"
  | .invalidCiphertext => "invalid_ciphertext"
  | .unsupportedCipher => "unsupported_cipher"
  | .invalidManifest => "invalid_manifest"
  | .invalidStorageKey => "invalid_storage_key"
  | .invalidWrappedKey => "invalid_wrapped_key"
  | .grantPolicyOutOfBounds => "grant_policy_out_of_bounds"
  | .emptyBatch => "empty_batch"
  | .batchTooLarge => "batch_too_large"
  | .invalidMutation => "invalid_mutation"
  | .duplicateMutation => "duplicate_mutation"
  | .duplicateRecordClock => "duplicate_record_clock"
  | .futureMutation => "future_mutation"
  | .logicalClockOutOfRange => "logical_clock_out_of_range"
  | .sizeLimitExceeded => "size_limit_exceeded"

/-- Every failure, in the order of the source. -/
def CoreError.all : List CoreError :=
  [.invalidIdentifier, .invalidClock, .invalidAudience, .invalidClient,
    .invalidCredentialLineage, .revokedCredential, .expiredCredential, .missingScope,
    .insufficientAssurance, .staleStepUp, .ownershipMismatch, .invalidCiphertext,
    .unsupportedCipher, .invalidManifest, .invalidStorageKey, .invalidWrappedKey,
    .grantPolicyOutOfBounds, .emptyBatch, .batchTooLarge, .invalidMutation,
    .duplicateMutation, .duplicateRecordClock, .futureMutation, .logicalClockOutOfRange,
    .sizeLimitExceeded]

theorem CoreError.mem_all (e : CoreError) : e ∈ CoreError.all := by
  cases e <;> simp [CoreError.all]

/-- **Distinct failures map to distinct API codes.** -/
theorem CoreError.code_injective : Function.Injective CoreError.code := by
  have hnodup : (CoreError.all.map CoreError.code).Nodup := by decide
  intro a b h
  exact List.inj_on_of_nodup_map hnodup a.mem_all b.mem_all h

end ClipTown
