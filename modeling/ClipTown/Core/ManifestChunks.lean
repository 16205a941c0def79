/-
  ClipTown.Core.ManifestChunks — what an accepted manifest says about its chunks
  (`src/encrypted_objects.rs`).

  A reader of a manifest allocates from `chunk_size`, opens every chunk with the
  one content key under the nonce it records, and fetches it by its storage key.
  The validator checks each of these fields on its own:

    • `validate_geometry` — the lengths are bounded by their exact sum alone;
      nothing ties `chunk_size` or `plaintext_length` to them,
    • `validate_nonces_iff` — when the nonces suit the content cipher and differ,
    • `validate_storageKeys_iff` — the storage keys stay under their root, and
      when two of them name one object.
-/
import ClipTown.Core.EncryptedObjects
import ClipTown.Core.Clip
import ClipTown.Lib.PathResolution

namespace ClipTown.EncryptedObjects

open Checks CheckedArith Validation Sync Clip PathResolution

section Chunks

variable {Value : Type} {decode : String → Option (List UInt8)}
  {toVec : Value → Option (List UInt8)}

/-! ## §1. Lengths. -/

/-- The authentication tag of both supported ciphers. -/
def authenticationTagBytes : Nat := 16

/-- Chunk size and plaintext length are looked at in no other check. -/
theorem WellFormed.withGeometry {manifest : EncryptedObjectManifest Value}
    (h : WellFormed decode toVec manifest) {chunkSize : UInt32} {plaintextLength : UInt64}
    (hsize : minChunkSize ≤ chunkSize ∧ chunkSize ≤ maxChunkSize)
    (hplaintext : plaintextLength ≤ absoluteMaxObjectBytes) :
    WellFormed decode toVec
      { manifest with chunkSize := chunkSize, plaintextLength := plaintextLength } :=
  { h with chunkSize := hsize, plaintext_le := hplaintext }

variable (decode toVec) in
/-- **What bounds the lengths of an accepted manifest.**  The chunks are not
empty and add up to the ciphertext length, which is at most 16 GiB; chunk size and
plaintext length have bounds of their own, and any other values within those
bounds are accepted with the same chunks. -/
theorem validate_geometry (manifest : EncryptedObjectManifest Value)
    (hok : manifest.validate decode toVec = .ok ()) :
    (∀ chunk ∈ manifest.chunks, 0 < chunkLength chunk
        ∧ chunkLength chunk ≤ manifest.ciphertextLength.toNat)
      ∧ (manifest.chunks.map chunkLength).sum = manifest.ciphertextLength.toNat
      ∧ manifest.ciphertextLength ≤ absoluteMaxObjectBytes
      ∧ manifest.plaintextLength ≤ absoluteMaxObjectBytes
      ∧ minChunkSize ≤ manifest.chunkSize ∧ manifest.chunkSize ≤ maxChunkSize
      ∧ ∀ (chunkSize : UInt32) (plaintextLength : UInt64),
          minChunkSize ≤ chunkSize → chunkSize ≤ maxChunkSize →
          plaintextLength ≤ absoluteMaxObjectBytes →
          { manifest with chunkSize := chunkSize, plaintextLength := plaintextLength }.validate
            decode toVec = .ok () := by
  have h := (validate_eq_ok decode toVec).mp hok
  refine ⟨?_, h.lengths, h.length_le, h.plaintext_le, h.chunkSize.1, h.chunkSize.2, ?_⟩
  · intro chunk hchunk
    have hle := List.le_sum_of_mem (List.mem_map_of_mem (f := chunkLength) hchunk)
    rw [h.lengths] at hle
    exact ⟨(h.validChunks chunk hchunk).length_pos, hle⟩
  · intro chunkSize plaintextLength hmin hmax hplaintext
    exact (validate_eq_ok decode toVec).mpr (h.withGeometry ⟨hmin, hmax⟩ hplaintext)

/-- The sample manifest with the largest chunk size and no plaintext at all. -/
theorem validate_geometry_sample :
    { sampleManifest sampleChunks with chunkSize := maxChunkSize, plaintextLength := 0 }.validate
      Base64.standard.decode (fun text => some (utf8 text)) = .ok () :=
  (validate_geometry _ _ (sampleManifest sampleChunks) (by decide)).2.2.2.2.2.2
    maxChunkSize 0 (by decide) (by decide) (by decide)

/-- One chunk of a million bytes, declared with the smallest chunk size, and a
plaintext longer than it. -/
def longChunkManifest : EncryptedObjectManifest String :=
  { sampleManifest [sampleChunk 0 1000000 "accounts/randomized/object/chunk-0"] with
    ciphertextLength := 1000000, plaintextLength := 1000001 }

/-- It is accepted, and neither bound of the geometry holds of it. -/
theorem longChunkManifest_accepted :
    longChunkManifest.validate Base64.standard.decode (fun text => some (utf8 text)) = .ok ()
      ∧ (¬ ∀ chunk ∈ longChunkManifest.chunks,
          chunkLength chunk ≤ longChunkManifest.chunkSize.toNat + authenticationTagBytes)
      ∧ ¬ longChunkManifest.plaintextLength.toNat ≤ longChunkManifest.ciphertextLength.toNat := by
  decide

/-! ## §2. Nonces. -/

/-- The cipher a supported version runs on every chunk. -/
def contentCipher (version : String) : Option CipherAlgorithm :=
  if version = "xchacha20poly1305-chunked-v1" then some .xchacha20poly1305V1
  else if version = "aes-256-gcm-chunked-v1" then some .aes256GcmV1
  else none

/-- Every supported version has its cipher. -/
theorem exists_contentCipher {version : String} (h : version ∈ supportedCipherVersions) :
    ∃ cipher, contentCipher version = some cipher := by
  simp only [supportedCipherVersions, List.mem_cons, List.not_mem_nil, or_false] at h
  rcases h with rfl | rfl
  · exact ⟨.xchacha20poly1305V1, rfl⟩
  · exact ⟨.aes256GcmV1, rfl⟩

/-- The nonces of a manifest fit its content cipher, and no two chunks share one. -/
def UsableNonces (decode : String → Option (List UInt8))
    (manifest : EncryptedObjectManifest Value) : Prop :=
  ∃ cipher, contentCipher manifest.contentCipherVersion = some cipher
    ∧ (∀ chunk ∈ manifest.chunks,
        ∃ nonce, decode chunk.nonceBase64 = some nonce ∧ nonce.length = cipher.nonceBytes)
    ∧ manifest.chunks.Pairwise (fun a b => decode a.nonceBase64 ≠ decode b.nonceBase64)

/-- The same on the texts: four characters for three bytes of nonce, no padding,
and no text twice. -/
def UsableNonceTexts (manifest : EncryptedObjectManifest Value) : Prop :=
  ∃ cipher, contentCipher manifest.contentCipherVersion = some cipher
    ∧ (∀ chunk ∈ manifest.chunks,
        chunk.nonceBase64.length = 4 * (cipher.nonceBytes / 3) ∧ '=' ∉ chunk.nonceBase64.toList)
    ∧ manifest.chunks.Pairwise (fun a b => a.nonceBase64 ≠ b.nonceBase64)

/-- An accepted nonce is the text of its bytes. -/
theorem ValidChunk.nonce_eq (hdecode : IsStandardEngine decode) {chunk : EncryptedObjectChunk}
    (h : ValidChunk decode chunk) :
    ∃ nonce, decode chunk.nonceBase64 = some nonce
      ∧ chunk.nonceBase64 = Base64.standard.encode nonce := by
  obtain ⟨nonce, hnonce, -⟩ := h.nonce
  rw [decodeBase64Bounded_eq_ok] at hnonce
  obtain ⟨-, -, hdecoded, -⟩ := hnonce
  exact ⟨nonce, hdecoded, (hdecode _ nonce).mp hdecoded⟩

/-- The length of one nonce, read off its text. -/
theorem ValidChunk.nonce_length_iff (hdecode : IsStandardEngine decode)
    {chunk : EncryptedObjectChunk} (h : ValidChunk decode chunk) (cipher : CipherAlgorithm) :
    (∃ nonce, decode chunk.nonceBase64 = some nonce ∧ nonce.length = cipher.nonceBytes)
      ↔ chunk.nonceBase64.length = 4 * (cipher.nonceBytes / 3)
        ∧ '=' ∉ chunk.nonceBase64.toList := by
  obtain ⟨nonce, hdecoded, htext⟩ := h.nonce_eq hdecode
  have hwhole := Base64.Alphabet.encode_whole_iff (A := Base64.standard) nonce
    (cipher.nonceBytes / 3)
  have hdvd : 3 * (cipher.nonceBytes / 3) = cipher.nonceBytes := by
    cases cipher <;> rfl
  rw [hdvd, ← htext] at hwhole
  rw [hdecoded]
  show _ ↔ _ ∧ Base64.standard.pad ∉ _
  rw [hwhole]
  constructor
  · intro hex
    obtain ⟨nonce', heq, hlen⟩ := hex
    rw [Option.some.inj heq]
    exact hlen
  · intro hlen
    exact ⟨nonce, rfl, hlen⟩

variable (decode toVec) in
/-- **When the nonces of an accepted manifest are usable.**  The validator asks
every nonce for 12 to 24 bytes and compares no two of them, so it depends on the
texts alone. -/
theorem validate_nonces_iff (hdecode : IsStandardEngine decode)
    (manifest : EncryptedObjectManifest Value)
    (hok : manifest.validate decode toVec = .ok ()) :
    UsableNonces decode manifest ↔ UsableNonceTexts manifest := by
  have h := (validate_eq_ok decode toVec).mp hok
  unfold UsableNonces UsableNonceTexts
  have hlengths : ∀ cipher : CipherAlgorithm,
      (∀ chunk ∈ manifest.chunks,
          ∃ nonce, decode chunk.nonceBase64 = some nonce ∧ nonce.length = cipher.nonceBytes)
        ↔ ∀ chunk ∈ manifest.chunks, chunk.nonceBase64.length = 4 * (cipher.nonceBytes / 3)
            ∧ '=' ∉ chunk.nonceBase64.toList :=
    fun cipher => forall₂_congr fun chunk hchunk =>
      (h.validChunks chunk hchunk).nonce_length_iff hdecode cipher
  -- two accepted texts decode alike iff they are the same text
  have hpairs : manifest.chunks.Pairwise (fun a b => decode a.nonceBase64 ≠ decode b.nonceBase64)
      ↔ manifest.chunks.Pairwise (fun a b => a.nonceBase64 ≠ b.nonceBase64) := by
    refine List.Pairwise.iff_of_mem ?_
    intro a b ha hb
    obtain ⟨nonce, hdecoded, htext⟩ := (h.validChunks a ha).nonce_eq hdecode
    obtain ⟨nonce', hdecoded', htext'⟩ := (h.validChunks b hb).nonce_eq hdecode
    rw [hdecoded, hdecoded', htext, htext', ne_eq, ne_eq, Option.some_inj,
      encode_injective.eq_iff]
  simp only [hlengths, hpairs]

/-- A chunk with its own nonce. -/
def nonceChunk (index : UInt32) (nonce : String) : EncryptedObjectChunk :=
  { sampleChunk index 8 "accounts/randomized/object/chunk" with nonceBase64 := nonce }

/-- A manifest of two chunks under a cipher version, with their nonces. -/
def nonceManifest (version nonce nonce' : String) : EncryptedObjectManifest String :=
  { sampleManifest [nonceChunk 0 nonce, nonceChunk 1 nonce'] with
    contentCipherVersion := version, ciphertextLength := 16 }

/-- Two nonces of 12 bytes that differ, under the cipher that needs 12. -/
theorem validate_nonces_distinct :
    UsableNonces Base64.standard.decode
      (nonceManifest "aes-256-gcm-chunked-v1" "AAAAAAAAAAAAAAAA" "AAAAAAAAAAAAAAAB") :=
  (validate_nonces_iff _ (fun text => some (utf8 text)) isStandardEngine_decode _
    (by decide)).mpr ⟨.aes256GcmV1, by decide⟩

/-- Accepted all the same: one nonce for both chunks, and nonces of 12 bytes under
the cipher that needs 24. -/
theorem unusable_nonces_accepted :
    ((nonceManifest "aes-256-gcm-chunked-v1" "AAAAAAAAAAAAAAAA" "AAAAAAAAAAAAAAAA").validate
          Base64.standard.decode (fun text => some (utf8 text)) = .ok ()
        ∧ ¬ UsableNonces Base64.standard.decode
          (nonceManifest "aes-256-gcm-chunked-v1" "AAAAAAAAAAAAAAAA" "AAAAAAAAAAAAAAAA"))
      ∧ (nonceManifest "xchacha20poly1305-chunked-v1" "AAAAAAAAAAAAAAAA"
            "AAAAAAAAAAAAAAAB").validate
          Base64.standard.decode (fun text => some (utf8 text)) = .ok ()
        ∧ ¬ UsableNonces Base64.standard.decode
          (nonceManifest "xchacha20poly1305-chunked-v1" "AAAAAAAAAAAAAAAA"
            "AAAAAAAAAAAAAAAB") := by
  refine ⟨⟨by decide, ?_⟩, by decide, ?_⟩
  · intro husable
    obtain ⟨_, _, _, hpairs⟩ := husable
    exact absurd hpairs (by decide)
  · intro husable
    obtain ⟨cipher, hcipher, hlengths, _⟩ := husable
    obtain rfl : CipherAlgorithm.xchacha20poly1305V1 = cipher := Option.some.inj hcipher
    obtain ⟨nonce, hnonce, hlen⟩ := hlengths (nonceChunk 0 "AAAAAAAAAAAAAAAA") List.mem_cons_self
    have hzero : Base64.standard.decode "AAAAAAAAAAAAAAAA" = some (List.replicate 12 0) := by
      decide
    obtain rfl : List.replicate 12 0 = nonce := Option.some.inj (hzero.symm.trans hnonce)
    exact absurd hlen (by decide)

/-! ## §3. Storage keys. -/

/-- The object a storage key names in a store at `root`, segment by segment. -/
def resolveStorageKey (root : List (List UInt8)) (key : String) : List (List UInt8) :=
  resolve 47 46 root (utf8 key)

/-- The segments of a storage key that are not `.`. -/
def namedSegments (key : String) : List (List UInt8) :=
  (segments 47 (utf8 key)).filter (fun segment => segment ≠ [46])

/-- What the key check leaves: no `..` segment and no empty one. -/
theorem segments_of_validateStorageKey {key : String} {maxLen : Nat}
    (h : validateStorageKey key maxLen = .ok ()) :
    [46, 46] ∉ segments 47 (utf8 key) ∧ [] ∉ segments 47 (utf8 key) := by
  have hslash : utf8 "/" = [47] := by decide
  have hslashes : utf8 "//" = [47, 47] := by decide
  have hdots : utf8 ".." = [46, 46] := by decide
  simp only [validateStorageKey, rejectIf_eq_ok, contains, hslash, hslashes, hdots, not_or,
    not_not] at h
  obtain ⟨⟨hlong, -⟩, hstart, hend, hparent, hdouble, -⟩ := h
  constructor
  · intro hmem
    exact hparent (infix_of_mem_segments hmem)
  · intro hmem
    rcases nil_mem_segments hmem with hempty | hbad | hbad | hbad
    · rw [hempty] at hlong
      simp at hlong
    · exact hstart hbad
    · exact hend hbad
    · exact hdouble hbad

/-- Where no segment is empty, the pushed segments are those that are not `.`. -/
theorem pushed_eq_namedSegments {key : String} (h : [] ∉ segments 47 (utf8 key)) :
    pushed 46 (segments 47 (utf8 key)) = namedSegments key := by
  unfold pushed namedSegments
  refine List.filter_congr ?_
  intro segment hsegment
  have hne : segment ≠ [] := fun heq => h (heq ▸ hsegment)
  simp [hne]

/-- The chunks of a manifest name different objects under every root. -/
def DistinctObjects (manifest : EncryptedObjectManifest Value) : Prop :=
  ∀ root, manifest.chunks.Pairwise (fun a b =>
    resolveStorageKey root a.randomizedStorageKey ≠ resolveStorageKey root b.randomizedStorageKey)

/-- No two chunks have the same storage key once its `.` segments are dropped. -/
def DistinctNamedSegments (manifest : EncryptedObjectManifest Value) : Prop :=
  manifest.chunks.Pairwise (fun a b =>
    namedSegments a.randomizedStorageKey ≠ namedSegments b.randomizedStorageKey)

variable (decode toVec) in
/-- **Where the storage keys of an accepted manifest lead.**  None of them ever
leaves its root; two of them lead to one object iff they are the same key up to
`.` segments, which the key check lets through. -/
theorem validate_storageKeys_iff (manifest : EncryptedObjectManifest Value)
    (hok : manifest.validate decode toVec = .ok ()) :
    (∀ root, ∀ chunk ∈ manifest.chunks,
        StaysUnder 47 46 root (utf8 chunk.randomizedStorageKey))
      ∧ (DistinctObjects manifest ↔ DistinctNamedSegments manifest) := by
  have h := (validate_eq_ok decode toVec).mp hok
  have hsegments : ∀ chunk ∈ manifest.chunks,
      [46, 46] ∉ segments 47 (utf8 chunk.randomizedStorageKey)
        ∧ [] ∉ segments 47 (utf8 chunk.randomizedStorageKey) :=
    fun chunk hchunk => segments_of_validateStorageKey (h.validChunks chunk hchunk).storageKey
  -- without `..` a resolution only pushes, so it is the root and the pushed segments
  have hpair : ∀ root, ∀ a ∈ manifest.chunks, ∀ b ∈ manifest.chunks,
      (resolveStorageKey root a.randomizedStorageKey
          = resolveStorageKey root b.randomizedStorageKey
        ↔ namedSegments a.randomizedStorageKey = namedSegments b.randomizedStorageKey) := by
    intro root a ha b hb
    unfold resolveStorageKey
    rw [resolve_eq_iff (hsegments a ha).1 (hsegments b hb).1,
      pushed_eq_namedSegments (hsegments a ha).2, pushed_eq_namedSegments (hsegments b hb).2]
  refine ⟨fun root chunk hchunk => staysUnder_of_no_parent (hsegments chunk hchunk).1 root, ?_⟩
  unfold DistinctObjects DistinctNamedSegments
  constructor
  · intro hdistinct
    refine (hdistinct []).imp_of_mem ?_
    intro a b ha hb hne heq
    exact hne ((hpair [] a ha b hb).mpr heq)
  · intro hnamed root
    refine hnamed.imp_of_mem ?_
    intro a b ha hb hne heq
    exact hne ((hpair root a ha b hb).mp heq)

/-- A manifest of two chunks with their storage keys. -/
def keyManifest (key key' : String) : EncryptedObjectManifest String :=
  { sampleManifest [sampleChunk 0 8 key, sampleChunk 1 8 key'] with ciphertextLength := 16 }

/-- Keys that differ in a named segment lead to different objects. -/
theorem validate_storageKeys_distinct :
    DistinctObjects (keyManifest "accounts/object/chunk-0" "accounts/object/chunk-1") :=
  (validate_storageKeys_iff Base64.standard.decode (fun text => some (utf8 text)) _
    (by decide)).2.mpr (by unfold DistinctNamedSegments; decide)

/-- Accepted all the same: one key twice, and two spellings of one path. -/
theorem aliased_storageKeys_accepted :
    ((keyManifest "accounts/object/chunk-0" "accounts/object/chunk-0").validate
          Base64.standard.decode (fun text => some (utf8 text)) = .ok ()
        ∧ ¬ DistinctObjects (keyManifest "accounts/object/chunk-0" "accounts/object/chunk-0"))
      ∧ (keyManifest "accounts/object/chunk-0" "accounts/./object/chunk-0").validate
          Base64.standard.decode (fun text => some (utf8 text)) = .ok ()
        ∧ ¬ DistinctObjects
          (keyManifest "accounts/object/chunk-0" "accounts/./object/chunk-0") := by
  refine ⟨⟨by decide, ?_⟩, by decide, ?_⟩
  · intro hdistinct
    exact absurd (hdistinct []) (by decide)
  · intro hdistinct
    exact absurd (hdistinct []) (by decide)

end Chunks

end ClipTown.EncryptedObjects
