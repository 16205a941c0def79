/-
  ClipTown.Core.SealedRecords — what an accepted clip or manifest says
  (`src/clip.rs`, `src/encrypted_objects.rs`).

  A record carries its byte strings as base64 texts, and a manifest repeats the
  positions of its chunks and their total length.  An OPEN record has the bytes, no
  repetitions, and every bound as a field or in a type; sealing writes the texts.

    • `validateMimeType_eq_ok`, `validateStorageKey_eq_ok` — media types and storage
      keys by the names between their slashes,
    • `text_injective` — bytes have one text,
    • `validate_iff_sealed_clip` — the clips that are accepted, with a size, are the
      sealed open clips of that size, each of one open clip,
    • `validate_iff_sealed_manifest` — so it is for manifests.
-/
import ClipTown.Core.Clip
import ClipTown.Core.EncryptedObjects
import ClipTown.Lib.PathResolution
import Mathlib.Data.Set.List

namespace ClipTown.SealedRecords

open Checks Clip EncryptedObjects PathResolution Sync Validation

/-! ## §1. Names at slashes. -/

/-- A media type: two names at a slash. -/
structure IsMediaType (value : String) : Prop where
  length_le : (utf8 value).length ≤ 127
  two : (segments 47 (utf8 value)).length = 2
  names : ∀ name ∈ segments 47 (utf8 value),
    name ≠ [] ∧ ∀ byte ∈ name, isAsciiGraphic byte ∧ byte ≠ 34 ∧ byte ≠ 92

/-- A storage key: names at slashes, none with `..` in it. -/
structure IsStorageKey (value : String) : Prop where
  le_length : 16 ≤ (utf8 value).length
  length_le : (utf8 value).length ≤ maxRandomizedStorageKeyLen
  names : ∀ name ∈ segments 47 (utf8 value),
    name ≠ [] ∧ ¬ [46, 46] <:+: name
      ∧ ∀ byte ∈ name, isAsciiAlphanumeric byte ∨ byte = 45 ∨ byte = 95 ∨ byte = 46

/-- What `validate_mime_type` accepts. -/
theorem validateMimeType_eq_ok {value : String} :
    validateMimeType value = .ok () ↔ IsMediaType value := by
  have hslash : utf8 "/" = [47] := by decide
  simp only [validateMimeType, rejectIf_eq_ok, hslash, not_or, not_not, not_lt, List.all_eq_true,
    Bool.and_eq_true, Bool.not_eq_true', Bool.or_eq_false_iff, beq_eq_false_iff_ne]
  constructor
  · intro h
    obtain ⟨hne, hlength, hcount, hstart, hend, hbytes⟩ := h
    refine ⟨hlength, by rw [length_segments, hcount], ?_⟩
    intro name hname
    refine ⟨?_, fun byte hbyte => hbytes byte ((infix_of_mem_segments hname).subset hbyte)⟩
    intro hnil
    rw [hnil] at hname
    rcases nil_mem_segments hname with hempty | hfirst | hlast | htwo
    · exact hne hempty
    · exact hstart hfirst
    · exact hend hlast
    · -- two slashes in a row are two slashes
      have htwice := htwo.sublist.count_le 47
      rw [hcount] at htwice
      exact absurd htwice (by decide)
  · intro h
    have hnil : [] ∉ segments 47 (utf8 value) := fun hmem => (h.names [] hmem).1 rfl
    simp only [nil_mem_segments_iff, not_or] at hnil
    obtain ⟨hne, hstart, hend, -⟩ := hnil
    have hcount := h.two
    rw [length_segments] at hcount
    refine ⟨hne, h.length_le, by omega, hstart, hend, ?_⟩
    intro byte hbyte
    rcases mem_segment_of_mem 47 hbyte with rfl | ⟨name, hname, hin⟩
    · decide
    · exact (h.names name hname).2 byte hin

/-- What `validate_storage_key` accepts. -/
theorem validateStorageKey_eq_ok {value : String} :
    validateStorageKey value maxRandomizedStorageKeyLen = .ok () ↔ IsStorageKey value := by
  have hslash : utf8 "/" = [47] := by decide
  have hslashes : utf8 "//" = [47, 47] := by decide
  have hdots : utf8 ".." = [46, 46] := by decide
  have hpunctuation : ∀ byte, isStorageKeyPunctuation byte = true ↔
      byte = 47 ∨ byte = 45 ∨ byte = 95 ∨ byte = 46 := by
    intro byte
    simp [isStorageKeyPunctuation, or_assoc]
  simp only [validateStorageKey, rejectIf_eq_ok, contains, hslash, hslashes, hdots, not_or, not_not,
    List.all_eq_true, Bool.or_eq_true, hpunctuation]
  constructor
  · intro h
    obtain ⟨⟨hle, hle'⟩, hstart, hend, hparent, hdouble, hbytes⟩ := h
    refine ⟨hle, hle', ?_⟩
    intro name hname
    refine ⟨?_, fun hin => hparent (hin.trans (infix_of_mem_segments hname)), ?_⟩
    · intro hnil
      rw [hnil] at hname
      rcases nil_mem_segments hname with hempty | hfirst | hlast | htwo
      · rw [hempty] at hle
        exact absurd hle (by decide)
      · exact hstart hfirst
      · exact hend hlast
      · exact hdouble htwo
    · intro byte hbyte
      refine (hbytes byte ((infix_of_mem_segments hname).subset hbyte)).imp_right fun hbyte' => ?_
      -- the slash is the only allowed byte that a name does not have
      refine hbyte'.resolve_left fun hsep => ?_
      rw [hsep] at hbyte
      exact sep_not_mem_segment hname hbyte
  · intro h
    have hnil : [] ∉ segments 47 (utf8 value) := fun hmem => (h.names [] hmem).1 rfl
    simp only [nil_mem_segments_iff, not_or] at hnil
    obtain ⟨-, hstart, hend, hdouble⟩ := hnil
    refine ⟨⟨h.le_length, h.length_le⟩, hstart, hend, ?_, hdouble, ?_⟩
    · intro hparent
      obtain ⟨name, hname, hin⟩ := infix_segment (show (47 : UInt8) ∉ [46, 46] by decide) hparent
      exact (h.names name hname).2.1 hin
    · intro byte hbyte
      rcases mem_segment_of_mem 47 hbyte with hsep | ⟨name, hname, hin⟩
      · exact Or.inr (Or.inl hsep)
      · exact ((h.names name hname).2.2 byte hin).imp_right Or.inr

/-! ## §2. Bounded bytes and checked texts. -/

/-- Byte strings of bounded length. -/
structure Octets (lower upper : Nat) where
  bytes : List UInt8
  le_length : lower ≤ bytes.length
  length_le : bytes.length ≤ upper

/-- The base64 text. -/
def Octets.text {lower upper : Nat} (o : Octets lower upper) : String :=
  Base64.standard.encode o.bytes

/-- A portable identifier. -/
structure Portable where
  value : String
  portable : IsPortable value

/-- A storage key of a chunk. -/
structure StorageKey where
  value : String
  valid : IsStorageKey value

section Octets

variable {lower upper : Nat} {decode : String → Option (List UInt8)}

theorem Octets.ext {o o' : Octets lower upper} (h : o.bytes = o'.bytes) : o = o' := by
  cases o
  cases o'
  cases h
  rfl

/-- **Bytes have one text.** -/
theorem text_injective : Function.Injective (@Octets.text lower upper) :=
  fun _ _ h => Octets.ext (encode_injective h)

/-- The bounded decoder and a minimum length: the texts of bounded bytes. -/
theorem bounded_iff_text (hdecode : IsStandardEngine decode) {limit : UInt64}
    (hlimit : RepresentableLimit limit) (hlower : 1 ≤ lower) (hupper : upper ≤ limit.toNat)
    {value : String} {bytes : List UInt8} :
    (decodeBase64Bounded decode value limit = .ok bytes ∧ lower ≤ bytes.length ∧
        bytes.length ≤ upper) ↔
      ∃ o : Octets lower upper, o.text = value ∧ o.bytes = bytes := by
  rw [decodeBase64Bounded_canonical hdecode hlimit]
  constructor
  · intro h
    obtain ⟨⟨hvalue, _, _⟩, hle, hle'⟩ := h
    exact ⟨⟨bytes, hle, hle'⟩, hvalue.symm, rfl⟩
  · intro h
    obtain ⟨o, hvalue, hbytes⟩ := h
    have hle := o.le_length
    have hle' := o.length_le
    rw [hbytes] at hle hle'
    refine ⟨⟨?_, by omega, by omega⟩, hle, hle'⟩
    rw [← hvalue, ← hbytes]
    rfl

/-- A hash that passes the check is the text of 32 bytes. -/
theorem sha256_iff_text (hdecode : IsStandardEngine decode) {value : String} :
    validateSha256Base64 decode value = .ok () ↔ ∃ o : Octets 32 32, o.text = value := by
  rw [validateSha256Base64_eq_ok hdecode]
  constructor
  · intro h
    obtain ⟨digest, hlength, hvalue⟩ := h
    exact ⟨⟨digest, by omega, by omega⟩, hvalue.symm⟩
  · intro h
    obtain ⟨o, hvalue⟩ := h
    have hle := o.le_length
    have hle' := o.length_le
    exact ⟨o.bytes, by omega, hvalue.symm⟩

/-- A nonce of a manifest is the text of 12 to 24 bytes. -/
theorem nonce_iff_text (hdecode : IsStandardEngine decode) {value : String} :
    (∃ nonce, decodeBase64Bounded decode value 64 = .ok nonce ∧ 12 ≤ nonce.length ∧
        nonce.length ≤ 24) ↔ ∃ o : Octets 12 24, o.text = value := by
  have hbounded : ∀ bytes, (decodeBase64Bounded decode value 64 = .ok bytes ∧
      12 ≤ bytes.length ∧ bytes.length ≤ 24) ↔
        ∃ o : Octets 12 24, o.text = value ∧ o.bytes = bytes :=
    fun bytes => bounded_iff_text hdecode (by decide) (by decide) (by decide)
  constructor
  · intro h
    obtain ⟨nonce, hnonce⟩ := h
    obtain ⟨o, ho, -⟩ := (hbounded nonce).mp hnonce
    exact ⟨o, ho⟩
  · intro h
    obtain ⟨o, ho⟩ := h
    exact ⟨o.bytes, (hbounded o.bytes).mpr ⟨o, ho, rfl⟩⟩

end Octets

/-! ## §3. Clips. -/

/-- The contents of a clip that is accepted under a limit. -/
structure OpenClip (maxCiphertextBytes : UInt64) where
  representable : RepresentableLimit maxCiphertextBytes
  clipId : Uuid
  clipId_ne : ¬ isNil clipId
  ownerSubject : Portable
  sourceDeviceId : Portable
  mediaType : String
  mediaType_valid : IsMediaType mediaType
  algorithm : CipherAlgorithm
  nonce : Octets algorithm.nonceBytes algorithm.nonceBytes
  ciphertext : Octets 1 maxCiphertextBytes.toNat
  associatedDataSha256 : Octets 32 32
  logicalClock : UInt64
  logicalClock_le : logicalClock ≤ maxLogicalClock
  createdAtUnixMillis : Int64
  updatedAtUnixMillis : Int64
  deletedAtUnixMillis : Option Int64
  created : 0 ≤ createdAtUnixMillis
  updated : createdAtUnixMillis ≤ updatedAtUnixMillis
  deleted : ∀ deletedAt ∈ deletedAtUnixMillis, updatedAtUnixMillis ≤ deletedAt

/-- The record of a clip. -/
def OpenClip.seal {maxCiphertextBytes : UInt64} (clip : OpenClip maxCiphertextBytes) :
    EncryptedClip where
  clipId := clip.clipId
  ownerSubject := clip.ownerSubject.value
  sourceDeviceId := clip.sourceDeviceId.value
  mediaType := clip.mediaType
  payload := {
    algorithm := clip.algorithm
    nonceBase64 := clip.nonce.text
    ciphertextBase64 := clip.ciphertext.text
    associatedDataSha256Base64 := clip.associatedDataSha256.text }
  logicalClock := clip.logicalClock
  createdAtUnixMillis := clip.createdAtUnixMillis
  updatedAtUnixMillis := clip.updatedAtUnixMillis
  deletedAtUnixMillis := clip.deletedAtUnixMillis

section Clips

variable {decode : String → Option (List UInt8)} {maxCiphertextBytes : UInt64}

theorem Portable.ext {p p' : Portable} (h : p.value = p'.value) : p = p' := by
  cases p
  cases p'
  cases h
  rfl

theorem seal_injective : Function.Injective (@OpenClip.seal maxCiphertextBytes) := by
  intro a b h
  obtain ⟨_, aId, _, aOwner, aDevice, aType, _, aAlgorithm, aNonce, aText, aHash, aClock, _, aC, aU,
    aD, _, _, _⟩ := a
  obtain ⟨_, bId, _, bOwner, bDevice, bType, _, bAlgorithm, bNonce, bText, bHash, bClock, _, bC, bU,
    bD, _, _, _⟩ := b
  simp only [OpenClip.seal, EncryptedClip.mk.injEq, OpaqueCiphertext.mk.injEq] at h
  obtain ⟨rfl, howner, hdevice, rfl, ⟨rfl, hnonce, htext, hhash⟩, rfl, rfl, rfl, rfl⟩ := h
  cases Portable.ext howner
  cases Portable.ext hdevice
  cases text_injective hnonce
  cases text_injective htext
  cases text_injective hhash
  rfl

/-- The checks of a clip, with the texts read. -/
theorem validate_clip (hdecode : IsStandardEngine decode) {clip : EncryptedClip} {n : Nat}
    (h : clip.validate decode maxCiphertextBytes = .ok n) :
    ∃ c : OpenClip maxCiphertextBytes, c.seal = clip ∧ c.ciphertext.bytes.length = n := by
  simp only [EncryptedClip.validate, EncryptedClip.validateHeader, OpaqueCiphertext.validate,
    OpaqueCiphertext.validateEnvelope, do_eq_ok, rejectIf_eq_ok, exists_unit, pure_eq_ok,
    validatePortableIdentifier_eq_ok, validateMimeType_eq_ok, not_or, not_not] at h
  obtain ⟨⟨hid, howner, hdevice, htype, hclock, hcreated, hupdated, hdeleted⟩,
    ⟨_, nonce, hnonce, hlength, hhash⟩, bytes, hbytes, rfl⟩ := h
  have hrep : RepresentableLimit maxCiphertextBytes := by
    -- the size filter has been computed, so the limit has no overflow
    obtain ⟨_, ⟨limit, hlimit, _⟩, _⟩ := (decodeBase64Bounded_eq_ok decode).mp hbytes
    exact exists_encodedLimit.mp ⟨limit, hlimit⟩
  obtain ⟨hvalue, hpos, hle⟩ := (decodeBase64Bounded_canonical hdecode hrep).mp hbytes
  obtain ⟨hnonceText, _, _⟩ :=
    (decodeBase64Bounded_canonical hdecode (by decide : RepresentableLimit 64)).mp hnonce
  obtain ⟨hash, hhashText⟩ := (sha256_iff_text hdecode).mp hhash
  refine ⟨{
    representable := hrep
    clipId := clip.clipId
    clipId_ne := hid
    ownerSubject := ⟨clip.ownerSubject, howner⟩
    sourceDeviceId := ⟨clip.sourceDeviceId, hdevice⟩
    mediaType := clip.mediaType
    mediaType_valid := htype
    algorithm := clip.payload.algorithm
    nonce := ⟨nonce, by omega, by omega⟩
    ciphertext := ⟨bytes, hpos, hle⟩
    associatedDataSha256 := hash
    logicalClock := clip.logicalClock
    logicalClock_le := UInt64.not_lt.mp hclock
    createdAtUnixMillis := clip.createdAtUnixMillis
    updatedAtUnixMillis := clip.updatedAtUnixMillis
    deletedAtUnixMillis := clip.deletedAtUnixMillis
    created := Int64.not_lt.mp hcreated
    updated := Int64.not_lt.mp hupdated
    deleted := ?_ }, ?_, rfl⟩
  · intro deletedAt hmem
    rw [Option.mem_def] at hmem
    rw [hmem] at hdeleted
    exact Int64.not_lt.mp (by simpa using hdeleted)
  · -- the texts of the record are the ones that the bytes have
    show EncryptedClip.mk _ _ _ _ ⟨_, Base64.standard.encode nonce, Base64.standard.encode bytes,
      hash.text⟩ _ _ _ _ = clip
    rw [← hnonceText, ← hvalue, hhashText]

/-- A sealed clip is accepted, with the size of its ciphertext. -/
theorem validate_seal (hdecode : IsStandardEngine decode) (c : OpenClip maxCiphertextBytes) :
    c.seal.validate decode maxCiphertextBytes = .ok c.ciphertext.bytes.length := by
  simp only [EncryptedClip.validate, EncryptedClip.validateHeader, OpaqueCiphertext.validate,
    OpaqueCiphertext.validateEnvelope, do_eq_ok, rejectIf_eq_ok, exists_unit, pure_eq_ok,
    validatePortableIdentifier_eq_ok, validateMimeType_eq_ok, not_or, not_not]
  have hpos := c.ciphertext.le_length
  have hle := c.ciphertext.length_le
  have hnonce := c.nonce.le_length
  have hnonce' := c.nonce.length_le
  -- both nonce lengths are within the bound of the decoder
  have hbytes : 1 ≤ c.algorithm.nonceBytes ∧ c.algorithm.nonceBytes ≤ 64 := by
    cases c.algorithm with
    | xchacha20poly1305V1 => decide
    | aes256GcmV1 => decide
  refine ⟨⟨c.clipId_ne, c.ownerSubject.portable, c.sourceDeviceId.portable, c.mediaType_valid,
    UInt64.not_lt.mpr c.logicalClock_le, Int64.not_lt.mpr c.created, Int64.not_lt.mpr c.updated,
    ?_⟩, ⟨?_, c.nonce.bytes, ?_, ?_, ?_⟩, c.ciphertext.bytes, ?_, rfl⟩
  · show ¬ (c.deletedAtUnixMillis.any fun deletedAt => deletedAt < c.updatedAtUnixMillis) = true
    cases hdeleted : c.deletedAtUnixMillis with
    | none => simp
    | some deletedAt =>
        have hlast := Int64.not_lt.mpr (c.deleted deletedAt hdeleted)
        simpa using hlast
  · intro hzero
    have hnone : maxCiphertextBytes.toNat = 0 := by
      rw [hzero]
      rfl
    omega
  · refine (decodeBase64Bounded_canonical hdecode (by decide : RepresentableLimit 64)).mpr
      ⟨rfl, by omega, ?_⟩
    show c.nonce.bytes.length ≤ 64
    omega
  · show c.nonce.bytes.length = c.algorithm.nonceBytes
    omega
  · exact (sha256_iff_text hdecode).mpr ⟨c.associatedDataSha256, rfl⟩
  · exact (decodeBase64Bounded_canonical hdecode c.representable).mpr ⟨rfl, hpos, hle⟩

end Clips

/-- **Accepted clips.**  A clip is accepted with a size iff it is the record of an open
clip of that size, and then of one only: nothing else that its texts could say is
accepted, and no bytes are lost. -/
theorem validate_iff_sealed_clip {decode : String → Option (List UInt8)}
    (hdecode : IsStandardEngine decode) (maxCiphertextBytes : UInt64) (clip : EncryptedClip)
    (n : Nat) :
    clip.validate decode maxCiphertextBytes = .ok n ↔
      ∃! c : OpenClip maxCiphertextBytes, c.seal = clip ∧ c.ciphertext.bytes.length = n := by
  constructor
  · intro h
    obtain ⟨c, hseal, hsize⟩ := validate_clip hdecode h
    refine ⟨c, ⟨hseal, hsize⟩, fun c' hc' => ?_⟩
    exact seal_injective (hc'.1.trans hseal.symm)
  · intro h
    obtain ⟨c, ⟨hseal, hsize⟩, _⟩ := h
    rw [← hseal, ← hsize]
    exact validate_seal hdecode c

theorem validate_iff_sealed_clip_sample :
    sampleClip.validate Base64.standard.decode 17 = .ok 17 ↔
      ∃! c : OpenClip 17, c.seal = sampleClip ∧ c.ciphertext.bytes.length = 17 :=
  validate_iff_sealed_clip isStandardEngine_decode 17 sampleClip 17

/-! ## §4. Manifests. -/

/-- The contents of a chunk; its index is its position. -/
structure OpenChunk where
  ciphertextLength : UInt64
  length_pos : 0 < ciphertextLength.toNat
  ciphertextSha256 : Octets 32 32
  nonce : Octets 12 24
  storageKey : StorageKey

/-- The record of a chunk at a position. -/
def OpenChunk.seal (position : Nat) (c : OpenChunk) : EncryptedObjectChunk where
  chunkIndex := UInt32.ofNat position
  ciphertextLength := c.ciphertextLength
  ciphertextSha256Base64 := c.ciphertextSha256.text
  nonceBase64 := c.nonce.text
  randomizedStorageKey := c.storageKey.value

/-- The records of chunks from a position on. -/
def sealChunks : Nat → List OpenChunk → List EncryptedObjectChunk
  | _, [] => []
  | position, c :: rest => c.seal position :: sealChunks (position + 1) rest

/-- The contents of a wrapped key. -/
structure OpenWrappedKey where
  recipientDeviceId : Portable
  keyId : Portable
  algorithm : Portable
  nonce : Octets 12 24
  wrappedKey : Octets 32 4096
  associatedDataHash : Octets 32 32

def OpenWrappedKey.seal (key : OpenWrappedKey) : WrappedContentKey where
  recipientDeviceId := key.recipientDeviceId.value
  keyId := key.keyId.value
  algorithm := key.algorithm.value
  nonceBase64 := key.nonce.text
  wrappedKeyBase64 := key.wrappedKey.text
  associatedDataHashBase64 := key.associatedDataHash.text

/-- The total length of chunks. -/
def totalLength (chunks : List OpenChunk) : Nat :=
  (chunks.map fun c => c.ciphertextLength.toNat).sum

/-- The contents of a manifest that is accepted. -/
structure OpenManifest {Value : Type} (toVec : Value → Option (List UInt8)) where
  manifestId : Portable
  objectId : Portable
  clipId : Portable
  contentCipherVersion : String
  cipher : contentCipherVersion ∈ supportedCipherVersions
  plaintextLength : UInt64
  plaintext_le : plaintextLength ≤ absoluteMaxObjectBytes
  chunkSize : UInt32
  chunkSize_mem : minChunkSize ≤ chunkSize ∧ chunkSize ≤ maxChunkSize
  chunks : List OpenChunk
  chunks_ne : chunks ≠ []
  chunks_le : chunks.length ≤ maxChunksPerObject
  total_le : totalLength chunks ≤ absoluteMaxObjectBytes.toNat
  wrappedKeys : List OpenWrappedKey
  keys_ne : wrappedKeys ≠ []
  keys_le : wrappedKeys.length ≤ maxWrappedKeysPerObject
  recipients : (wrappedKeys.map fun key => key.recipientDeviceId.value).Nodup
  encryptedMetadata : Value
  metadata : ∃ metadata, toVec encryptedMetadata = some metadata
    ∧ metadata.length ≤ maxEncryptedMetadataJsonBytes
  ciphertextSha256 : Octets 32 32

/-- The record of a manifest, with the positions and the total length. -/
def OpenManifest.seal {Value : Type} {toVec : Value → Option (List UInt8)}
    (m : OpenManifest toVec) : EncryptedObjectManifest Value where
  manifestId := m.manifestId.value
  objectId := m.objectId.value
  clipId := m.clipId.value
  contentCipherVersion := m.contentCipherVersion
  plaintextLength := m.plaintextLength
  ciphertextLength := UInt64.ofNat (totalLength m.chunks)
  chunkSize := m.chunkSize
  chunks := sealChunks 0 m.chunks
  wrappedKeys := m.wrappedKeys.map OpenWrappedKey.seal
  encryptedMetadata := m.encryptedMetadata
  ciphertextSha256Base64 := m.ciphertextSha256.text

section Manifests

variable {Value : Type} {decode : String → Option (List UInt8)}
  {toVec : Value → Option (List UInt8)}

theorem StorageKey.ext {k k' : StorageKey} (h : k.value = k'.value) : k = k' := by
  cases k
  cases k'
  cases h
  rfl

theorem sealChunk_injective (position : Nat) : Function.Injective (OpenChunk.seal position) := by
  intro a b h
  obtain ⟨aLength, _, aHash, aNonce, aKey⟩ := a
  obtain ⟨bLength, _, bHash, bNonce, bKey⟩ := b
  simp only [OpenChunk.seal, EncryptedObjectChunk.mk.injEq] at h
  obtain ⟨-, rfl, hhash, hnonce, hkey⟩ := h
  cases text_injective hhash
  cases text_injective hnonce
  cases StorageKey.ext hkey
  rfl

theorem sealChunks_injective {chunks chunks' : List OpenChunk} {position : Nat}
    (h : sealChunks position chunks = sealChunks position chunks') : chunks = chunks' := by
  induction chunks generalizing position chunks' with
  | nil =>
      cases chunks' with
      | nil => rfl
      | cons c rest => cases h
  | cons c rest ih =>
      cases chunks' with
      | nil => cases h
      | cons c' rest' =>
          obtain ⟨hfirst, hrest⟩ := List.cons.inj h
          rw [sealChunk_injective position hfirst, ih hrest]

theorem sealKey_injective : Function.Injective OpenWrappedKey.seal := by
  intro a b h
  obtain ⟨aRecipient, aId, aAlgorithm, aNonce, aKey, aHash⟩ := a
  obtain ⟨bRecipient, bId, bAlgorithm, bNonce, bKey, bHash⟩ := b
  simp only [OpenWrappedKey.seal, WrappedContentKey.mk.injEq] at h
  obtain ⟨hrecipient, hid, halgorithm, hnonce, hkey, hhash⟩ := h
  cases Portable.ext hrecipient
  cases Portable.ext hid
  cases Portable.ext halgorithm
  cases text_injective hnonce
  cases text_injective hkey
  cases text_injective hhash
  rfl

theorem sealManifest_injective : Function.Injective (@OpenManifest.seal Value toVec) := by
  intro a b h
  obtain ⟨aManifest, aObject, aClip, aCipher, _, aPlain, _, aSize, _, aChunks, _, _, _, aKeys, _,
    _, _, aMeta, _, aHash⟩ := a
  obtain ⟨bManifest, bObject, bClip, bCipher, _, bPlain, _, bSize, _, bChunks, _, _, _, bKeys, _,
    _, _, bMeta, _, bHash⟩ := b
  simp only [OpenManifest.seal, EncryptedObjectManifest.mk.injEq] at h
  obtain ⟨hmanifest, hobject, hclip, rfl, rfl, -, rfl, hchunks, hkeys, rfl, hhash⟩ := h
  cases Portable.ext hmanifest
  cases Portable.ext hobject
  cases Portable.ext hclip
  cases sealChunks_injective hchunks
  cases List.map_injective_iff.mpr sealKey_injective hkeys
  cases text_injective hhash
  rfl

/-! ## §5. Accepted manifests. -/

/-- A chunk that is valid is sealed at its index. -/
theorem exists_openChunk (hdecode : IsStandardEngine decode) {chunk : EncryptedObjectChunk}
    (h : ValidChunk decode chunk) : ∃ c : OpenChunk, c.seal (chunkIndex chunk) = chunk := by
  obtain ⟨hash, hhash⟩ := (sha256_iff_text hdecode).mp h.hash
  obtain ⟨nonce, hnonce⟩ := (nonce_iff_text hdecode).mp h.nonce
  refine ⟨⟨chunk.ciphertextLength, h.length_pos, hash, nonce,
    ⟨chunk.randomizedStorageKey, validateStorageKey_eq_ok.mp h.storageKey⟩⟩, ?_⟩
  have hindex : UInt32.ofNat (chunkIndex chunk) = chunk.chunkIndex := UInt32.ofNat_toNat
  show EncryptedObjectChunk.mk (UInt32.ofNat (chunkIndex chunk)) _ hash.text nonce.text _ = chunk
  rw [hindex, hhash, hnonce]

theorem exists_sealChunks (hdecode : IsStandardEngine decode) {chunks : List EncryptedObjectChunk}
    {position : Nat} (hindexed : chunks.map chunkIndex = List.range' position chunks.length)
    (hvalid : ∀ chunk ∈ chunks, ValidChunk decode chunk) :
    ∃ cs, sealChunks position cs = chunks := by
  induction chunks generalizing position with
  | nil => exact ⟨[], rfl⟩
  | cons chunk chunks ih =>
      rw [List.map_cons, List.length_cons, List.range'_succ] at hindexed
      obtain ⟨hindex, hrest⟩ := List.cons.inj hindexed
      obtain ⟨c, hc⟩ := exists_openChunk hdecode (hvalid chunk List.mem_cons_self)
      obtain ⟨cs, hcs⟩ := ih hrest fun d hd => hvalid d (List.mem_cons_of_mem chunk hd)
      refine ⟨c :: cs, ?_⟩
      show c.seal position :: sealChunks (position + 1) cs = chunk :: chunks
      -- the position is the index, and goes on by one
      rw [← hindex, hc, hindex, hcs]

theorem totalLength_eq (position : Nat) (cs : List OpenChunk) :
    ((sealChunks position cs).map chunkLength).sum = totalLength cs := by
  induction cs generalizing position with
  | nil => rfl
  | cons c cs ih =>
      show c.ciphertextLength.toNat + ((sealChunks (position + 1) cs).map chunkLength).sum
        = totalLength (c :: cs)
      rw [ih]
      rfl

theorem length_sealChunks (position : Nat) (cs : List OpenChunk) :
    (sealChunks position cs).length = cs.length := by
  induction cs generalizing position with
  | nil => rfl
  | cons c cs ih =>
      show (sealChunks (position + 1) cs).length + 1 = cs.length + 1
      rw [ih]

/-- Sealed chunks record their positions, as long as these fit in a word. -/
theorem indexes_sealChunks {position : Nat} {cs : List OpenChunk}
    (h : position + cs.length ≤ 2 ^ 32) :
    (sealChunks position cs).map chunkIndex = List.range' position cs.length := by
  induction cs generalizing position with
  | nil => rfl
  | cons c cs ih =>
      rw [List.length_cons] at h
      -- no index wraps around: there are fewer chunks than words
      have hindex : chunkIndex (c.seal position) = position :=
        UInt32.toNat_ofNat_of_lt' (show position < 2 ^ 32 by omega)
      show chunkIndex (c.seal position) :: (sealChunks (position + 1) cs).map chunkIndex = _
      rw [hindex, ih (by omega), List.length_cons, List.range'_succ]

theorem valid_sealChunks (hdecode : IsStandardEngine decode) {position : Nat}
    {cs : List OpenChunk} : ∀ chunk ∈ sealChunks position cs, ValidChunk decode chunk := by
  induction cs generalizing position with
  | nil => exact fun chunk hchunk => absurd hchunk List.not_mem_nil
  | cons c cs ih =>
      intro chunk hchunk
      rcases List.mem_cons.mp hchunk with rfl | hrest
      · exact ⟨c.length_pos, (sha256_iff_text hdecode).mpr ⟨c.ciphertextSha256, rfl⟩,
          (nonce_iff_text hdecode).mpr ⟨c.nonce, rfl⟩,
          validateStorageKey_eq_ok.mpr c.storageKey.valid⟩
      · exact ih chunk hrest

/-- A wrapped key is valid iff it is sealed. -/
theorem validWrappedKey_iff (hdecode : IsStandardEngine decode) {key : WrappedContentKey} :
    ValidWrappedKey decode key ↔ ∃ k : OpenWrappedKey, k.seal = key := by
  have hwrapped : ∀ {value : String} {bytes : List UInt8},
      (decodeBase64Bounded decode value 4096 = .ok bytes ∧ 32 ≤ bytes.length ∧
          bytes.length ≤ 4096) ↔
        ∃ o : Octets 32 4096, o.text = value ∧ o.bytes = bytes :=
    bounded_iff_text hdecode (by decide) (by decide) (by decide)
  have hlimit : RepresentableLimit 4096 := by decide
  constructor
  · intro h
    have hmaterial := h.material
    simp only [validateWrappedKeyMaterial, do_eq_ok, mapError_eq_ok, rejectIf_eq_ok, exists_unit,
      not_not, not_lt] at hmaterial
    obtain ⟨nonce, hnonce, hlength, bytes, hbytes, hle, hhash⟩ := hmaterial
    obtain ⟨o, ho⟩ := (nonce_iff_text hdecode).mp ⟨nonce, hnonce, hlength⟩
    -- the upper bound is the decoder's, the lower one a test of its own
    have hle' := ((decodeBase64Bounded_canonical hdecode hlimit).mp hbytes).2.2
    obtain ⟨w, hw, -⟩ := hwrapped.mp ⟨hbytes, hle, hle'⟩
    obtain ⟨a, ha⟩ := (sha256_iff_text hdecode).mp hhash
    refine ⟨⟨⟨_, h.recipient⟩, ⟨_, h.keyId⟩, ⟨_, h.algorithm⟩, o, w, a⟩, ?_⟩
    show WrappedContentKey.mk _ _ _ o.text w.text a.text = key
    rw [ho, hw, ha]
  · intro h
    obtain ⟨k, hk⟩ := h
    rw [← hk]
    refine ⟨k.recipientDeviceId.portable, k.keyId.portable, k.algorithm.portable, ?_⟩
    obtain ⟨nonce, hnonce, hlength⟩ := (nonce_iff_text hdecode).mpr ⟨k.nonce, rfl⟩
    obtain ⟨hbytes, hle, -⟩ := hwrapped.mpr ⟨k.wrappedKey, rfl, rfl⟩
    simp only [validateWrappedKeyMaterial, do_eq_ok, mapError_eq_ok, rejectIf_eq_ok, exists_unit,
      not_not, not_lt]
    exact ⟨nonce, hnonce, hlength, _, hbytes, hle,
      (sha256_iff_text hdecode).mpr ⟨k.associatedDataHash, rfl⟩⟩

/-- A manifest that is well formed is sealed. -/
theorem exists_openManifest (hdecode : IsStandardEngine decode)
    {manifest : EncryptedObjectManifest Value} (h : WellFormed decode toVec manifest) :
    ∃ m : OpenManifest toVec, m.seal = manifest := by
  have hindexed : manifest.chunks.map chunkIndex = List.range' 0 manifest.chunks.length := by
    rw [← List.range_eq_range']
    exact h.indexed
  obtain ⟨cs, hcs⟩ := exists_sealChunks hdecode hindexed h.validChunks
  obtain ⟨ks, hks⟩ : manifest.wrappedKeys ∈ Set.range (List.map OpenWrappedKey.seal) := by
    rw [Set.range_list_map]
    exact fun key hkey => (validWrappedKey_iff hdecode).mp (h.validKeys key hkey)
  obtain ⟨hash, hhash⟩ := (sha256_iff_text hdecode).mp h.hash
  -- the total that the record repeats is the sum over the chunks
  have htotal : totalLength cs = manifest.ciphertextLength.toNat := by
    rw [← totalLength_eq 0, hcs, h.lengths]
  have hlength : cs.length = manifest.chunks.length := by
    rw [← hcs, length_sealChunks]
  have hkeys : ks.length = manifest.wrappedKeys.length := by
    rw [← hks, List.length_map]
  refine ⟨{
    manifestId := ⟨_, h.manifestId⟩
    objectId := ⟨_, h.objectId⟩
    clipId := ⟨_, h.clipId⟩
    contentCipherVersion := _
    cipher := h.cipher
    plaintextLength := _
    plaintext_le := h.plaintext_le
    chunkSize := _
    chunkSize_mem := h.chunkSize
    chunks := cs
    chunks_ne := fun hnil => h.chunks_ne (by rw [← hcs, hnil]; rfl)
    chunks_le := hlength ▸ h.chunks_le
    total_le := htotal ▸ UInt64.le_iff_toNat_le.mp h.length_le
    wrappedKeys := ks
    keys_ne := fun hnil => h.keys_ne (by rw [← hks, hnil]; rfl)
    keys_le := hkeys ▸ h.keys_le
    recipients := by
      have hrecipients := h.recipients
      rw [← hks, List.map_map] at hrecipients
      exact hrecipients
    encryptedMetadata := _
    metadata := h.metadata
    ciphertextSha256 := hash }, ?_⟩
  show EncryptedObjectManifest.mk manifest.manifestId manifest.objectId manifest.clipId
    manifest.contentCipherVersion manifest.plaintextLength (UInt64.ofNat (totalLength cs))
    manifest.chunkSize (sealChunks 0 cs) (ks.map OpenWrappedKey.seal) manifest.encryptedMetadata
    hash.text = manifest
  rw [htotal, UInt64.ofNat_toNat, hcs, hks, hhash]

/-- A sealed manifest is well formed. -/
theorem wellFormed_seal (hdecode : IsStandardEngine decode) (m : OpenManifest toVec) :
    WellFormed decode toVec m.seal := by
  have hmax : absoluteMaxObjectBytes.toNat < 2 ^ 64 := by decide
  have htotal : m.seal.ciphertextLength.toNat = totalLength m.chunks :=
    UInt64.toNat_ofNat_of_lt' (show totalLength m.chunks < 2 ^ 64 from
      lt_of_le_of_lt m.total_le hmax)
  have hindexes : (sealChunks 0 m.chunks).map chunkIndex = List.range' 0 m.chunks.length := by
    refine indexes_sealChunks ?_
    have hle := m.chunks_le
    have hmaxChunks : maxChunksPerObject ≤ 2 ^ 32 := by decide
    omega
  -- a chunk is not empty, and there is one
  have hpos : 0 < totalLength m.chunks := by
    have hne := m.chunks_ne
    cases hchunks : m.chunks with
    | nil => exact absurd hchunks hne
    | cons c cs =>
        show 0 < c.ciphertextLength.toNat + totalLength cs
        have hfirst := c.length_pos
        omega
  refine ⟨m.manifestId.portable, m.objectId.portable, m.clipId.portable, m.cipher,
    m.chunkSize_mem, ?_, ?_, ?_, ?_, ?_, ?_, m.plaintext_le, ?_, m.metadata, ?_, ?_, ?_, ?_, ?_⟩
  · intro hnil
    have hlength := length_sealChunks 0 m.chunks
    rw [show sealChunks 0 m.chunks = [] from hnil] at hlength
    exact m.chunks_ne (List.length_eq_zero_iff.mp hlength.symm)
  · show (sealChunks 0 m.chunks).length ≤ maxChunksPerObject
    rw [length_sealChunks]
    exact m.chunks_le
  · intro hnil
    exact m.keys_ne (List.map_eq_nil_iff.mp hnil)
  · show (m.wrappedKeys.map OpenWrappedKey.seal).length ≤ maxWrappedKeysPerObject
    rw [List.length_map]
    exact m.keys_le
  · rw [ne_zero_iff_toNat_pos, htotal]
    exact hpos
  · rw [UInt64.le_iff_toNat_le, htotal]
    exact m.total_le
  · exact (sha256_iff_text hdecode).mpr ⟨m.ciphertextSha256, rfl⟩
  · show (sealChunks 0 m.chunks).map chunkIndex = List.range (sealChunks 0 m.chunks).length
    rw [hindexes, length_sealChunks, List.range_eq_range']
  · exact valid_sealChunks hdecode
  · rw [htotal]
    exact totalLength_eq 0 m.chunks
  · intro key hkey
    obtain ⟨k, _, hk⟩ := List.mem_map.mp hkey
    exact (validWrappedKey_iff hdecode).mpr ⟨k, hk⟩
  · show ((m.wrappedKeys.map OpenWrappedKey.seal).map _).Nodup
    rw [List.map_map]
    exact m.recipients

end Manifests

/-- **Accepted manifests.**  A manifest is accepted iff it is the record of an open
manifest, and then of one only: its indexes and its total length say nothing that its
chunks do not. -/
theorem validate_iff_sealed_manifest {Value : Type} {decode : String → Option (List UInt8)}
    (toVec : Value → Option (List UInt8)) (hdecode : IsStandardEngine decode)
    (manifest : EncryptedObjectManifest Value) :
    manifest.validate decode toVec = .ok () ↔
      ∃! m : OpenManifest toVec, m.seal = manifest := by
  rw [validate_eq_ok]
  constructor
  · intro h
    obtain ⟨m, hm⟩ := exists_openManifest hdecode h
    exact ⟨m, hm, fun m' hm' => sealManifest_injective (hm'.trans hm.symm)⟩
  · intro h
    obtain ⟨m, hm, _⟩ := h
    rw [← hm]
    exact wellFormed_seal hdecode m

theorem validate_iff_sealed_manifest_sample :
    (sampleManifest sampleChunks).validate Base64.standard.decode (fun text => some (utf8 text))
        = .ok () ↔
      ∃! m : OpenManifest (fun text => some (utf8 text)), m.seal = sampleManifest sampleChunks :=
  validate_iff_sealed_manifest (fun text => some (utf8 text)) isStandardEngine_decode
    (sampleManifest sampleChunks)

end ClipTown.SealedRecords
