/-
  ClipTown.Core.Clip — the encrypted clip and its inline ciphertext
  (`src/clip.rs`).

  A clip carries its payload as three base64 texts: a nonce of the length its
  cipher needs, the hash of the associated data, and the ciphertext, bounded by
  the caller's limit.

    • `OpaqueCiphertext.validate_of_otherwiseValid`,
      `EncryptedClip.validate_of_otherwiseValid` — on a record that is valid up
      to its ciphertext, the validator IS the bounded decoder,
    • `oversize_sizeLimitExceeded_iff` — an over-size ciphertext is reported as
      such iff it is beyond the limit rounded up to a multiple of three.
-/
import ClipTown.Core.Envelopes

namespace ClipTown.Clip

open Checks Validation Sync

/-! ## §1. The data model. -/

/-- `DEFAULT_MAX_INLINE_CIPHERTEXT_BYTES`. -/
def defaultMaxInlineCiphertextBytes : UInt64 := 16 * 1024 * 1024

/-- `CipherAlgorithm`. -/
inductive CipherAlgorithm where
  | xchacha20poly1305V1
  | aes256GcmV1
  deriving DecidableEq, Repr

/-- `CipherAlgorithm::nonce_bytes`. -/
def CipherAlgorithm.nonceBytes : CipherAlgorithm → Nat
  | .xchacha20poly1305V1 => 24
  | .aes256GcmV1 => 12

/-- `OpaqueCiphertext`. -/
structure OpaqueCiphertext where
  algorithm : CipherAlgorithm
  nonceBase64 : String
  ciphertextBase64 : String
  associatedDataSha256Base64 : String
  deriving DecidableEq

/-- `EncryptedClip`. -/
structure EncryptedClip where
  clipId : Uuid
  ownerSubject : String
  sourceDeviceId : String
  mediaType : String
  payload : OpaqueCiphertext
  logicalClock : UInt64
  createdAtUnixMillis : Int64
  updatedAtUnixMillis : Int64
  deletedAtUnixMillis : Option Int64
  deriving DecidableEq

/-! ## §2. The validators. -/

section Validator

variable (decode : String → Option (List UInt8))

/-- The checks of `OpaqueCiphertext::validate` in front of the ciphertext. -/
def OpaqueCiphertext.validateEnvelope (ciphertext : OpaqueCiphertext)
    (maxCiphertextBytes : UInt64) : Except CoreError Unit := do
  rejectIf (maxCiphertextBytes = 0) .sizeLimitExceeded
  let nonce ← decodeBase64Bounded decode ciphertext.nonceBase64 64
  rejectIf (nonce.length ≠ ciphertext.algorithm.nonceBytes) .invalidCiphertext
  validateSha256Base64 decode ciphertext.associatedDataSha256Base64

/-- `OpaqueCiphertext::validate`. -/
def OpaqueCiphertext.validate (ciphertext : OpaqueCiphertext) (maxCiphertextBytes : UInt64) :
    Except CoreError Nat := do
  ciphertext.validateEnvelope decode maxCiphertextBytes
  let bytes ← decodeBase64Bounded decode ciphertext.ciphertextBase64 maxCiphertextBytes
  return bytes.length

/-- The checks of `EncryptedClip::validate` in front of the payload. -/
def EncryptedClip.validateHeader (clip : EncryptedClip) : Except CoreError Unit := do
  rejectIf (isNil clip.clipId) .invalidIdentifier
  validatePortableIdentifier clip.ownerSubject
  validatePortableIdentifier clip.sourceDeviceId
  validateMimeType clip.mediaType
  rejectIf (maxLogicalClock < clip.logicalClock) .logicalClockOutOfRange
  rejectIf
    (clip.createdAtUnixMillis < 0
      ∨ clip.updatedAtUnixMillis < clip.createdAtUnixMillis
      ∨ clip.deletedAtUnixMillis.any (fun deletedAt => deletedAt < clip.updatedAtUnixMillis))
    .invalidClock

/-- `EncryptedClip::validate`. -/
def EncryptedClip.validate (clip : EncryptedClip) (maxCiphertextBytes : UInt64) :
    Except CoreError Nat := do
  clip.validateHeader
  clip.payload.validate decode maxCiphertextBytes

/-! ## §3. Records that are valid up to their ciphertext. -/

/-- The same record with another ciphertext. -/
def OpaqueCiphertext.withCiphertext (ciphertext : OpaqueCiphertext) (text : String) :
    OpaqueCiphertext :=
  { ciphertext with ciphertextBase64 := text }

/-- The same clip with another ciphertext. -/
def EncryptedClip.withCiphertext (clip : EncryptedClip) (text : String) : EncryptedClip :=
  { clip with payload := clip.payload.withCiphertext text }

/-- Some ciphertext makes the record valid. -/
def OpaqueCiphertext.OtherwiseValid (ciphertext : OpaqueCiphertext)
    (maxCiphertextBytes : UInt64) : Prop :=
  ∃ text n, (ciphertext.withCiphertext text).validate decode maxCiphertextBytes = .ok n

/-- Some ciphertext makes the clip valid. -/
def EncryptedClip.OtherwiseValid (clip : EncryptedClip) (maxCiphertextBytes : UInt64) : Prop :=
  ∃ text n, (clip.withCiphertext text).validate decode maxCiphertextBytes = .ok n

/-- The checks in front of the ciphertext do not look at it. -/
@[simp] theorem validateEnvelope_withCiphertext (ciphertext : OpaqueCiphertext) (text : String)
    (maxCiphertextBytes : UInt64) :
    (ciphertext.withCiphertext text).validateEnvelope decode maxCiphertextBytes
      = ciphertext.validateEnvelope decode maxCiphertextBytes := rfl

@[simp] theorem validateHeader_withCiphertext (clip : EncryptedClip) (text : String) :
    (clip.withCiphertext text).validateHeader = clip.validateHeader := rfl

variable {decode}

/-- On a record valid up to its ciphertext the validator is the bounded decoder. -/
theorem OpaqueCiphertext.validate_of_otherwiseValid {ciphertext : OpaqueCiphertext}
    {maxCiphertextBytes : UInt64} (h : ciphertext.OtherwiseValid decode maxCiphertextBytes)
    (text : String) :
    (ciphertext.withCiphertext text).validate decode maxCiphertextBytes
      = (decodeBase64Bounded decode text maxCiphertextBytes).map List.length := by
  obtain ⟨text', n, hvalid⟩ := h
  unfold OpaqueCiphertext.validate at hvalid ⊢
  rw [validateEnvelope_withCiphertext, do_eq_ok] at hvalid
  obtain ⟨_, henvelope, -⟩ := hvalid
  rw [validateEnvelope_withCiphertext, henvelope]
  rfl

/-- So it is on a clip. -/
theorem EncryptedClip.validate_of_otherwiseValid {clip : EncryptedClip}
    {maxCiphertextBytes : UInt64} (h : clip.OtherwiseValid decode maxCiphertextBytes)
    (text : String) :
    (clip.withCiphertext text).validate decode maxCiphertextBytes
      = (decodeBase64Bounded decode text maxCiphertextBytes).map List.length := by
  obtain ⟨text', n, hvalid⟩ := h
  unfold EncryptedClip.validate at hvalid ⊢
  rw [validateHeader_withCiphertext, do_eq_ok] at hvalid
  obtain ⟨_, hheader, hpayload⟩ := hvalid
  rw [validateHeader_withCiphertext, hheader]
  exact OpaqueCiphertext.validate_of_otherwiseValid ⟨text', n, hpayload⟩ text

/-! ## §4. Over-size payloads. -/

/-- The error of a bounded decoder passes through the length. -/
theorem map_length_eq_error {x : Except CoreError (List UInt8)} {e : CoreError} :
    x.map List.length = .error e ↔ x = .error e := by
  cases x <;> simp [Except.map]

end Validator

/-- **Over-size payloads.**  A ciphertext longer than the limit is reported with
`SizeLimitExceeded` iff it is also longer than the limit rounded up to a multiple
of three: within that last group the decoder itself, the inline record and the
clip all report a malformed envelope. -/
theorem oversize_sizeLimitExceeded_iff (decode : String → Option (List UInt8))
    (hdecode : IsStandardEngine decode) (maxBytes : UInt64) (hrep : RepresentableLimit maxBytes)
    (payload : List UInt8)
    (hlong : maxBytes.toNat < payload.length) :
    (decodeBase64Bounded decode (Base64.standard.encode payload) maxBytes
          = .error .sizeLimitExceeded
        ↔ 3 * ((maxBytes.toNat + 2) / 3) < payload.length)
      ∧ (∀ ciphertext : OpaqueCiphertext, ciphertext.OtherwiseValid decode maxBytes →
          ((ciphertext.withCiphertext (Base64.standard.encode payload)).validate decode maxBytes
              = .error .sizeLimitExceeded
            ↔ 3 * ((maxBytes.toNat + 2) / 3) < payload.length))
      ∧ (∀ clip : EncryptedClip, clip.OtherwiseValid decode maxBytes →
          ((clip.withCiphertext (Base64.standard.encode payload)).validate decode maxBytes
              = .error .sizeLimitExceeded
            ↔ 3 * ((maxBytes.toNat + 2) / 3) < payload.length)) := by
  have hdecoder : decodeBase64Bounded decode (Base64.standard.encode payload) maxBytes
      = .error .sizeLimitExceeded ↔ 3 * ((maxBytes.toNat + 2) / 3) < payload.length := by
    rw [decodeBase64Bounded_oversize hdecode hrep hlong]
    by_cases hfar : 3 * ((maxBytes.toNat + 2) / 3) < payload.length
    · simp [hfar]
    · simp [hfar]
  refine ⟨hdecoder, ?_, ?_⟩
  · intro ciphertext h
    rw [OpaqueCiphertext.validate_of_otherwiseValid h, map_length_eq_error, hdecoder]
  · intro clip h
    rw [EncryptedClip.validate_of_otherwiseValid h, map_length_eq_error, hdecoder]

/-- The clip of the source's unit tests. -/
def sampleClip : EncryptedClip where
  clipId := 1
  ownerSubject := "user:1234"
  sourceDeviceId := "device:abcd"
  mediaType := "text/plain"
  payload := {
    algorithm := .xchacha20poly1305V1
    nonceBase64 := "AAAAAAAAAAAAAAAAAAAAAAAAAAAAAAAA"
    ciphertextBase64 := "b3BhcXVlLWNpcGhlcnRleHQ="
    associatedDataSha256Base64 := "AAAAAAAAAAAAAAAAAAAAAAAAAAAAAAAAAAAAAAAAAAA=" }
  logicalClock := 7
  createdAtUnixMillis := 1000
  updatedAtUnixMillis := 1010
  deletedAtUnixMillis := none

example : sampleClip.validate Base64.standard.decode defaultMaxInlineCiphertextBytes = .ok 17 := by
  decide

/-- Four bytes against a limit of one: the filter sees them. -/
theorem oversize_sizeLimitExceeded_sample :
    (sampleClip.withCiphertext (Base64.standard.encode [1, 2, 3, 4])).validate
        Base64.standard.decode 1 = .error .sizeLimitExceeded
      ↔ 3 * (((1 : UInt64).toNat + 2) / 3) < 4 :=
  (oversize_sizeLimitExceeded_iff Base64.standard.decode isStandardEngine_decode 1
    (by decide) [1, 2, 3, 4] (by decide)).2.2 sampleClip
      ⟨Base64.standard.encode [1], 1, by decide⟩

/-- Two bytes against a limit of one: all three report a malformed envelope, on
records that one byte makes valid. -/
theorem oversize_invalidCiphertext :
    RepresentableLimit 1
      ∧ decodeBase64Bounded Base64.standard.decode (Base64.standard.encode [1, 2]) 1
        = .error .invalidCiphertext
      ∧ (sampleClip.payload.withCiphertext (Base64.standard.encode [1, 2])).validate
          Base64.standard.decode 1 = .error .invalidCiphertext
      ∧ (sampleClip.withCiphertext (Base64.standard.encode [1, 2])).validate
          Base64.standard.decode 1 = .error .invalidCiphertext
      ∧ (sampleClip.withCiphertext (Base64.standard.encode [1])).validate
          Base64.standard.decode 1 = .ok 1 := by
  decide

end ClipTown.Clip
