/-
  ClipTown.Core.EncryptedObjects — the encrypted object manifest
  (`src/encrypted_objects.rs`).

  `EncryptedObjectManifest.validate` runs two folds: one over the chunks, which
  checks each chunk against its POSITION and sums the lengths with a checked
  64-bit addition, and one over the wrapped keys, which files every recipient
  in a set.

    • `chunkFold_eq_ok` — the chunk fold succeeds iff the chunks are indexed
      by position and valid, and returns the exact sum of their lengths,
    • `WellFormed` / `validate_wellFormed` — what an accepted manifest is,
    • `validate_tamper_evident` — an accepted manifest whose chunk list is
      changed is rejected, unless the change both drops a chunk and brings in
      a new one; `remove_insert_accepted` shows the exception is real.

  The base64 STANDARD engine and `serde_json::to_vec` are third-party and
  enter as the parameters `decode` and `toVec`.
-/
import ClipTown.Core.Validation
import ClipTown.Lib.IndexedList

namespace ClipTown.EncryptedObjects

open Checks CheckedArith IndexedList Validation

/-! ## §1. The data model. -/

/-- `MIN_CHUNK_SIZE`. -/
def minChunkSize : UInt32 := 64 * 1024

/-- `MAX_CHUNK_SIZE`. -/
def maxChunkSize : UInt32 := 16 * 1024 * 1024

/-- `MAX_CHUNKS_PER_OBJECT`. -/
def maxChunksPerObject : Nat := 100000

/-- `MAX_WRAPPED_KEYS_PER_OBJECT`. -/
def maxWrappedKeysPerObject : Nat := 128

/-- `MAX_RANDOMIZED_STORAGE_KEY_LEN`. -/
def maxRandomizedStorageKeyLen : Nat := 512

/-- `MAX_ENCRYPTED_METADATA_JSON_BYTES`. -/
def maxEncryptedMetadataJsonBytes : Nat := 64 * 1024

/-- `ABSOLUTE_MAX_OBJECT_BYTES`. -/
def absoluteMaxObjectBytes : UInt64 := 16 * 1024 * 1024 * 1024

/-- `EncryptedObjectChunk`. -/
structure EncryptedObjectChunk where
  chunkIndex : UInt32
  ciphertextLength : UInt64
  ciphertextSha256Base64 : String
  nonceBase64 : String
  randomizedStorageKey : String
  deriving DecidableEq

/-- `WrappedContentKey`. -/
structure WrappedContentKey where
  recipientDeviceId : String
  keyId : String
  algorithm : String
  nonceBase64 : String
  wrappedKeyBase64 : String
  associatedDataHashBase64 : String
  deriving DecidableEq

/-- `EncryptedObjectManifest`, over the type `Value` of JSON values. -/
structure EncryptedObjectManifest (Value : Type) where
  manifestId : String
  objectId : String
  clipId : String
  contentCipherVersion : String
  plaintextLength : UInt64
  ciphertextLength : UInt64
  chunkSize : UInt32
  chunks : List EncryptedObjectChunk
  wrappedKeys : List WrappedContentKey
  encryptedMetadata : Value
  ciphertextSha256Base64 : String

/-- `ObjectGrantPolicy`. -/
structure ObjectGrantPolicy where
  ttlSeconds : UInt32
  maxObjectBytes : UInt64
  maxChunks : UInt32

/-- `ObjectGrantPolicy::default`. -/
def ObjectGrantPolicy.default : ObjectGrantPolicy where
  ttlSeconds := 900
  maxObjectBytes := 2 * 1024 * 1024 * 1024
  maxChunks := 100000

/-- `ObjectGrantPolicy::validate`. -/
def ObjectGrantPolicy.validate (policy : ObjectGrantPolicy) : Except CoreError Unit :=
  rejectIf
    (¬ (60 ≤ policy.ttlSeconds ∧ policy.ttlSeconds ≤ 3600
      ∧ 0 < policy.maxObjectBytes ∧ policy.maxObjectBytes ≤ absoluteMaxObjectBytes
      ∧ 0 < policy.maxChunks ∧ policy.maxChunks.toNat ≤ maxChunksPerObject))
    .grantPolicyOutOfBounds

/-- The default policy passes its own check. -/
theorem ObjectGrantPolicy.default_valid : ObjectGrantPolicy.default.validate = .ok () := by
  decide

/-! ## §2. The validator. -/

section Validator

variable {Value : Type} (decode : String → Option (List UInt8))
  (toVec : Value → Option (List UInt8))

/-- `validate_chunk`. -/
def validateChunk (position : Nat) (chunk : EncryptedObjectChunk) : Except CoreError Unit := do
  rejectIf (¬ (chunk.chunkIndex.toNat = position ∧ chunk.ciphertextLength ≠ 0)) .invalidManifest
  (validateSha256Base64 decode chunk.ciphertextSha256Base64).mapError (fun _ => .invalidManifest)
  let nonce ← (decodeBase64Bounded decode chunk.nonceBase64 64).mapError (fun _ => .invalidManifest)
  rejectIf (¬ (12 ≤ nonce.length ∧ nonce.length ≤ 24)) .invalidManifest
  validateStorageKey chunk.randomizedStorageKey maxRandomizedStorageKeyLen

/-- One step of the chunk fold: check the chunk at its position, add its length. -/
def incorporateChunk (sum : UInt64) (entry : EncryptedObjectChunk × Nat) :
    Except CoreError UInt64 := do
  validateChunk decode entry.2 entry.1
  okOr (checkedAddU64 sum entry.1.ciphertextLength) .sizeLimitExceeded

/-- `validate_wrapped_key_material`. -/
def validateWrappedKeyMaterial (wrappedKey : WrappedContentKey) : Except CoreError Unit := do
  let nonce ← (decodeBase64Bounded decode wrappedKey.nonceBase64 64).mapError
    (fun _ => .invalidWrappedKey)
  rejectIf (¬ (12 ≤ nonce.length ∧ nonce.length ≤ 24)) .invalidWrappedKey
  let wrappedKeyBytes ← (decodeBase64Bounded decode wrappedKey.wrappedKeyBase64 4096).mapError
    (fun _ => .invalidWrappedKey)
  rejectIf (wrappedKeyBytes.length < 32) .invalidWrappedKey
  (validateSha256Base64 decode wrappedKey.associatedDataHashBase64).mapError
    (fun _ => .invalidWrappedKey)

/-- `incorporate_wrapped_key`. -/
def incorporateWrappedKey (recipients : Finset String) (wrappedKey : WrappedContentKey) :
    Except CoreError (Finset String) := do
  (validatePortableIdentifier wrappedKey.recipientDeviceId).mapError (fun _ => .invalidWrappedKey)
  (validatePortableIdentifier wrappedKey.keyId).mapError (fun _ => .invalidWrappedKey)
  (validatePortableIdentifier wrappedKey.algorithm).mapError (fun _ => .invalidWrappedKey)
  rejectIf (wrappedKey.recipientDeviceId ∈ recipients) .invalidWrappedKey
  validateWrappedKeyMaterial decode wrappedKey
  return insert wrappedKey.recipientDeviceId recipients

/-- The two supported values of `content_cipher_version`. -/
def supportedCipherVersions : List String :=
  ["xchacha20poly1305-chunked-v1", "aes-256-gcm-chunked-v1"]

/-- `EncryptedObjectManifest::validate`. -/
def EncryptedObjectManifest.validate (manifest : EncryptedObjectManifest Value) :
    Except CoreError Unit := do
  validatePortableIdentifier manifest.manifestId
  validatePortableIdentifier manifest.objectId
  validatePortableIdentifier manifest.clipId
  rejectIf (manifest.contentCipherVersion ∉ supportedCipherVersions) .unsupportedCipher
  rejectIf
    (¬ (minChunkSize ≤ manifest.chunkSize ∧ manifest.chunkSize ≤ maxChunkSize)
      ∨ manifest.chunks = []
      ∨ maxChunksPerObject < manifest.chunks.length
      ∨ manifest.wrappedKeys = []
      ∨ maxWrappedKeysPerObject < manifest.wrappedKeys.length
      ∨ manifest.ciphertextLength = 0
      ∨ absoluteMaxObjectBytes < manifest.ciphertextLength
      ∨ absoluteMaxObjectBytes < manifest.plaintextLength)
    .invalidManifest
  (validateSha256Base64 decode manifest.ciphertextSha256Base64).mapError
    (fun _ => .invalidManifest)
  let metadata ← okOr (toVec manifest.encryptedMetadata) .invalidManifest
  rejectIf (maxEncryptedMetadataJsonBytes < metadata.length) .sizeLimitExceeded
  let summedCiphertextLength ← manifest.chunks.zipIdx.foldlM (incorporateChunk decode) 0
  rejectIf (summedCiphertextLength ≠ manifest.ciphertextLength) .invalidManifest
  let _ ← manifest.wrappedKeys.foldlM (incorporateWrappedKey decode) ∅
  return ()

/-! ## §3. The chunk fold. -/

/-- The length of a chunk, in the natural numbers. -/
def chunkLength (chunk : EncryptedObjectChunk) : Nat := chunk.ciphertextLength.toNat

/-- The index a chunk records. -/
def chunkIndex (chunk : EncryptedObjectChunk) : Nat := chunk.chunkIndex.toNat

/-- What `validate_chunk` demands of a chunk apart from its position. -/
structure ValidChunk (chunk : EncryptedObjectChunk) : Prop where
  length_pos : 0 < chunkLength chunk
  hash : validateSha256Base64 decode chunk.ciphertextSha256Base64 = .ok ()
  nonce : ∃ nonce, decodeBase64Bounded decode chunk.nonceBase64 64 = .ok nonce
    ∧ 12 ≤ nonce.length ∧ nonce.length ≤ 24
  storageKey : validateStorageKey chunk.randomizedStorageKey maxRandomizedStorageKeyLen = .ok ()

theorem ne_zero_iff_toNat_pos {n : UInt64} : n ≠ 0 ↔ 0 < n.toNat := by
  have hzero : n = 0 ↔ n.toNat = 0 := by
    rw [← UInt64.toNat_inj]
    rfl
  rw [ne_eq, hzero]
  omega

theorem validateChunk_eq_ok {position : Nat} {chunk : EncryptedObjectChunk} :
    validateChunk decode position chunk = .ok () ↔
      chunkIndex chunk = position ∧ ValidChunk decode chunk := by
  simp only [validateChunk, do_eq_ok, rejectIf_eq_ok, mapError_eq_ok, exists_unit, not_not,
    ne_zero_iff_toNat_pos]
  constructor
  · intro hall
    obtain ⟨⟨hindex, hpos⟩, hhash, nonce, hnonce, hlen, hkey⟩ := hall
    exact ⟨hindex, hpos, hhash, ⟨nonce, hnonce, hlen⟩, hkey⟩
  · intro hall
    obtain ⟨hindex, hpos, hhash, ⟨nonce, hnonce, hlen⟩, hkey⟩ := hall
    exact ⟨⟨hindex, hpos⟩, hhash, nonce, hnonce, hlen, hkey⟩

theorem incorporateChunk_eq_ok {sum sum' : UInt64} {entry : EncryptedObjectChunk × Nat} :
    incorporateChunk decode sum entry = .ok sum' ↔
      (chunkIndex entry.1 = entry.2 ∧ ValidChunk decode entry.1)
        ∧ sum'.toNat = sum.toNat + chunkLength entry.1 := by
  simp only [incorporateChunk, do_eq_ok, okOr_eq_ok, exists_unit, validateChunk_eq_ok,
    checkedAddU64_eq_some, chunkLength]

/-- **The chunk fold, from position `k` and sum `sum`.**  It succeeds iff the
chunks record the positions `k, k+1, …` and are valid, and it returns the exact
sum: a wrapped sum would have failed on the way. -/
theorem chunkFold_eq_ok {sum' : UInt64} :
    ∀ (chunks : List EncryptedObjectChunk) (k : Nat) (sum : UInt64),
      (chunks.zipIdx k).foldlM (incorporateChunk decode) sum = .ok sum' ↔
        (chunks.map chunkIndex = List.range' k chunks.length
          ∧ ∀ chunk ∈ chunks, ValidChunk decode chunk)
        ∧ sum'.toNat = sum.toNat + (chunks.map chunkLength).sum := by
  intro chunks
  induction chunks with
  | nil =>
      intro k sum
      simp [pure, Except.pure, ← UInt64.toNat_inj, eq_comm]
  | cons chunk chunks ih =>
      intro k sum
      rw [List.zipIdx_cons, List.foldlM_cons, do_eq_ok]
      simp only [incorporateChunk_eq_ok, ih, List.map_cons, List.length_cons, List.range'_succ,
        List.cons.injEq, List.sum_cons, List.mem_cons, forall_eq_or_imp]
      constructor
      · intro hall
        obtain ⟨next, ⟨⟨hindex, hvalid⟩, hnext⟩, ⟨hindices, hvalids⟩, hsum⟩ := hall
        exact ⟨⟨⟨hindex, hindices⟩, hvalid, hvalids⟩, by omega⟩
      · intro hall
        obtain ⟨⟨⟨hindex, hindices⟩, hvalid, hvalids⟩, hsum⟩ := hall
        -- the intermediate sum is below the final one, so it fits in the word
        have hlt := UInt64.toNat_lt sum'
        obtain ⟨next, hnext⟩ : ∃ next : UInt64, next.toNat = sum.toNat + chunkLength chunk :=
          ⟨UInt64.ofNat (sum.toNat + chunkLength chunk),
            UInt64.toNat_ofNat_of_lt' (show _ < 2 ^ 64 by omega)⟩
        exact ⟨next, ⟨⟨hindex, hvalid⟩, hnext⟩, ⟨hindices, hvalids⟩, by omega⟩

/-! ## §4. The wrapped-key fold. -/

/-- What the wrapped-key fold demands of a key on its own. -/
structure ValidWrappedKey (wrappedKey : WrappedContentKey) : Prop where
  recipient : IsPortable wrappedKey.recipientDeviceId
  keyId : IsPortable wrappedKey.keyId
  algorithm : IsPortable wrappedKey.algorithm
  material : validateWrappedKeyMaterial decode wrappedKey = .ok ()

theorem incorporateWrappedKey_eq_ok (recipients : Finset String) (wrappedKey : WrappedContentKey)
    (recipients' : Finset String) :
    incorporateWrappedKey decode recipients wrappedKey = .ok recipients' ↔
      (ValidWrappedKey decode wrappedKey ∧ wrappedKey.recipientDeviceId ∉ recipients)
        ∧ recipients' = insert wrappedKey.recipientDeviceId recipients := by
  simp only [incorporateWrappedKey, do_eq_ok, rejectIf_eq_ok, mapError_eq_ok, pure_eq_ok,
    validatePortableIdentifier_eq_ok, exists_unit]
  constructor
  · intro hall
    obtain ⟨hrec, hkey, halg, hnew, hmat, rfl⟩ := hall
    exact ⟨⟨⟨hrec, hkey, halg, hmat⟩, hnew⟩, rfl⟩
  · intro hall
    obtain ⟨⟨h, hnew⟩, rfl⟩ := hall
    exact ⟨h.recipient, h.keyId, h.algorithm, hnew, h.material, rfl⟩

theorem wrappedKeyFold_eq_ok {wrappedKeys : List WrappedContentKey} :
    (∃ recipients, wrappedKeys.foldlM (incorporateWrappedKey decode) ∅ = .ok recipients) ↔
      (∀ key ∈ wrappedKeys, ValidWrappedKey decode key)
        ∧ (wrappedKeys.map WrappedContentKey.recipientDeviceId).Nodup := by
  have hfresh := goodRun_fresh (fun recipients key => insert key.recipientDeviceId recipients)
    (fun recipients => recipients) WrappedContentKey.recipientDeviceId (fun _ _ => rfl)
    wrappedKeys ∅
  simp only [foldlM_eq_ok (incorporateWrappedKey_eq_ok decode), goodRun_and, goodRun_const, hfresh]
  simp

/-! ## §5. Accepted manifests. -/

/-- Everything `validate` demands of a manifest. -/
structure WellFormed (manifest : EncryptedObjectManifest Value) : Prop where
  manifestId : IsPortable manifest.manifestId
  objectId : IsPortable manifest.objectId
  clipId : IsPortable manifest.clipId
  cipher : manifest.contentCipherVersion ∈ supportedCipherVersions
  chunkSize : minChunkSize ≤ manifest.chunkSize ∧ manifest.chunkSize ≤ maxChunkSize
  chunks_ne : manifest.chunks ≠ []
  chunks_le : manifest.chunks.length ≤ maxChunksPerObject
  keys_ne : manifest.wrappedKeys ≠ []
  keys_le : manifest.wrappedKeys.length ≤ maxWrappedKeysPerObject
  length_ne : manifest.ciphertextLength ≠ 0
  length_le : manifest.ciphertextLength ≤ absoluteMaxObjectBytes
  plaintext_le : manifest.plaintextLength ≤ absoluteMaxObjectBytes
  hash : validateSha256Base64 decode manifest.ciphertextSha256Base64 = .ok ()
  metadata : ∃ metadata, toVec manifest.encryptedMetadata = some metadata
    ∧ metadata.length ≤ maxEncryptedMetadataJsonBytes
  indexed : Indexed chunkIndex manifest.chunks
  validChunks : ∀ chunk ∈ manifest.chunks, ValidChunk decode chunk
  lengths : (manifest.chunks.map chunkLength).sum = manifest.ciphertextLength.toNat
  validKeys : ∀ key ∈ manifest.wrappedKeys, ValidWrappedKey decode key
  recipients : (manifest.wrappedKeys.map WrappedContentKey.recipientDeviceId).Nodup

/-- The chunk fold of `validate`, from position and sum zero. -/
theorem chunkSum_eq_ok {chunks : List EncryptedObjectChunk} {total : UInt64} :
    chunks.zipIdx.foldlM (incorporateChunk decode) 0 = .ok total ↔
      (Indexed chunkIndex chunks ∧ ∀ chunk ∈ chunks, ValidChunk decode chunk)
        ∧ (chunks.map chunkLength).sum = total.toNat := by
  have hzero : (0 : UInt64).toNat = 0 := rfl
  rw [chunkFold_eq_ok, hzero, Nat.zero_add, Indexed, List.range_eq_range',
    eq_comm (a := total.toNat)]

/-- **Acceptance, read back.** -/
theorem validate_eq_ok {manifest : EncryptedObjectManifest Value} :
    manifest.validate decode toVec = .ok () ↔ WellFormed decode toVec manifest := by
  simp only [EncryptedObjectManifest.validate, do_eq_ok, rejectIf_eq_ok, okOr_eq_ok,
    mapError_eq_ok, pure_eq_ok, validatePortableIdentifier_eq_ok, exists_unit, not_or, not_not,
    not_lt, UInt64.not_lt, chunkSum_eq_ok, and_true, wrappedKeyFold_eq_ok]
  constructor
  · intro hall
    obtain ⟨hm, ho, hc, hcipher, ⟨hsize, hcne, hcle, hkne, hkle, hlne, hlle, hple⟩, hhash,
      metadata, hmeta, hmetale, total, ⟨⟨hindexed, hchunks⟩, hsum⟩, rfl, hkeys, hrecipients⟩ := hall
    exact ⟨hm, ho, hc, hcipher, hsize, hcne, hcle, hkne, hkle, hlne, hlle, hple, hhash,
      ⟨metadata, hmeta, hmetale⟩, hindexed, hchunks, hsum, hkeys, hrecipients⟩
  · intro h
    obtain ⟨metadata, hmeta, hmetale⟩ := h.metadata
    exact ⟨h.manifestId, h.objectId, h.clipId, h.cipher,
      ⟨h.chunkSize, h.chunks_ne, h.chunks_le, h.keys_ne, h.keys_le, h.length_ne, h.length_le,
        h.plaintext_le⟩, h.hash, metadata, hmeta, hmetale, _,
      ⟨⟨h.indexed, h.validChunks⟩, h.lengths⟩, rfl, h.validKeys, h.recipients⟩

/-! ## §6. Tamper evidence. -/

/-- **Tamper evidence.**  The chunks of an accepted manifest are indexed by
their position, not empty, and of the declared total length over ℕ; the
recipients are distinct.  So a changed chunk list is rejected, unless the change
both drops a chunk of the manifest and brings in one that was not there. -/
theorem validate_tamper_evident (manifest : EncryptedObjectManifest Value)
    (hok : manifest.validate decode toVec = .ok ()) :
    manifest.chunks.map chunkIndex = List.range manifest.chunks.length
      ∧ (∀ chunk ∈ manifest.chunks, 0 < chunkLength chunk)
      ∧ (manifest.chunks.map chunkLength).sum = manifest.ciphertextLength.toNat
      ∧ (manifest.chunks.map chunkLength).sum ≤ absoluteMaxObjectBytes.toNat
      ∧ (manifest.wrappedKeys.map WrappedContentKey.recipientDeviceId).Nodup
      ∧ ∀ chunks : List EncryptedObjectChunk, chunks ≠ manifest.chunks →
          (chunks ⊆ manifest.chunks ∨ manifest.chunks ⊆ chunks) →
          { manifest with chunks := chunks }.validate decode toVec ≠ .ok () := by
  have h := (validate_eq_ok decode toVec).mp hok
  have hpos : ∀ chunk ∈ manifest.chunks, 0 < chunkLength chunk :=
    fun chunk hchunk => (h.validChunks chunk hchunk).length_pos
  have hbound : manifest.ciphertextLength.toNat ≤ absoluteMaxObjectBytes.toNat :=
    UInt64.le_iff_toNat_le.mp h.length_le
  refine ⟨h.indexed, hpos, h.lengths, h.lengths ▸ hbound, h.recipients, ?_⟩
  intro chunks hne hsub hok'
  have h' := (validate_eq_ok decode toVec).mp hok'
  have hindexed : Indexed chunkIndex chunks := h'.indexed
  have hsum : (chunks.map chunkLength).sum = (manifest.chunks.map chunkLength).sum := by
    rw [h.lengths]
    exact h'.lengths
  apply hne
  -- both lists are indexed and of one total length, whichever contains the other
  rcases hsub with hsub | hsub
  · exact h.indexed.eq_of_subset hindexed hpos hsum hsub
  · have hpos' : ∀ chunk ∈ chunks, 0 < chunkLength chunk :=
      fun chunk hchunk => (h'.validChunks chunk hchunk).length_pos
    exact (hindexed.eq_of_subset h.indexed hpos' hsum.symm hsub).symm

end Validator

/-- The manifest of the source's unit tests, with the chunk list left open; its
metadata text stands for the JSON value. -/
def sampleManifest (chunks : List EncryptedObjectChunk) : EncryptedObjectManifest String where
  manifestId := "manifest-1"
  objectId := "object-1"
  clipId := "clip-1"
  contentCipherVersion := "aes-256-gcm-chunked-v1"
  plaintextLength := 3
  ciphertextLength := 19
  chunkSize := minChunkSize
  chunks := chunks
  wrappedKeys := [{
    recipientDeviceId := "device-a"
    keyId := "key-1"
    algorithm := "signal-envelope-v1"
    nonceBase64 := "AAAAAAAAAAAAAAAA"
    wrappedKeyBase64 := "AAAAAAAAAAAAAAAAAAAAAAAAAAAAAAAAAAAAAAAAAAA="
    associatedDataHashBase64 := "AAAAAAAAAAAAAAAAAAAAAAAAAAAAAAAAAAAAAAAAAAA=" }]
  encryptedMetadata := "opaque"
  ciphertextSha256Base64 := "AAAAAAAAAAAAAAAAAAAAAAAAAAAAAAAAAAAAAAAAAAA="

/-- A chunk of the source's unit tests at an index, with a length and a storage key. -/
def sampleChunk (index : UInt32) (length : UInt64) (key : String) : EncryptedObjectChunk where
  chunkIndex := index
  ciphertextLength := length
  ciphertextSha256Base64 := "AAAAAAAAAAAAAAAAAAAAAAAAAAAAAAAAAAAAAAAAAAA="
  nonceBase64 := "AAAAAAAAAAAAAAAA"
  randomizedStorageKey := key

/-- The decoder on the two texts the samples use: zero bytes. -/
def sampleDecode (value : String) : Option (List UInt8) :=
  if value = "AAAAAAAAAAAAAAAAAAAAAAAAAAAAAAAAAAAAAAAAAAA=" then some (List.replicate 32 0)
  else if value = "AAAAAAAAAAAAAAAA" then some (List.replicate 12 0)
  else none

/-- The two chunks of the sample manifest. -/
def sampleChunks : List EncryptedObjectChunk :=
  [sampleChunk 0 9 "accounts/randomized/object/chunk-0",
    sampleChunk 1 10 "accounts/randomized/object/chunk-1"]

/-- Dropping the last chunk of the sample is rejected. -/
theorem validate_tamper_evident_sample :
    (sampleManifest (sampleChunks.take 1)).validate sampleDecode (fun text => some (utf8 text))
      ≠ .ok () :=
  (validate_tamper_evident sampleDecode (fun text => some (utf8 text))
    (sampleManifest sampleChunks) (by decide)).2.2.2.2.2 (sampleChunks.take 1) (by decide)
    (Or.inl (by decide))

/-- The exception of `validate_tamper_evident` is real: both chunks removed and
a foreign one of the full length inserted give another accepted manifest. -/
theorem remove_insert_accepted :
    let foreign := [sampleChunk 0 19 "accounts/randomized/object/foreign"]
    (sampleManifest sampleChunks).validate sampleDecode (fun text => some (utf8 text)) = .ok ()
      ∧ Edits sampleChunks foreign
      ∧ foreign.length ≠ sampleChunks.length
      ∧ { sampleManifest sampleChunks with chunks := foreign }.validate sampleDecode
          (fun text => some (utf8 text)) = .ok () :=
  ⟨by decide, edits_total _ _, by decide, by decide⟩

end ClipTown.EncryptedObjects
