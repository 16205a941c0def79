/-
  ClipTown.Core.Envelopes — the two size limits of a base64 envelope
  (`src/validation.rs`).

  `decodeBase64Bounded` measures a text twice.  Before decoding it compares the
  ENCODED length with the limit rounded up to whole base64 groups, so that a
  decoder never allocates for a text far too long; after decoding it compares
  the exact length.  The two differ for payloads within one group of the limit:

    • `passesFilter_encode` — the filter in terms of the payload,
    • `decodeBase64Bounded_exact` — acceptance is "the canonical text of 1 to
      `max` bytes", and a hash has exactly one accepted text,
    • `decodeBase64Bounded_oversize` — which error a payload beyond the limit
      gets: the filter's, or the one for a malformed envelope.
-/
import ClipTown.Core.SyncBatches

namespace ClipTown.Validation

open Checks CheckedArith Sync

/-! ## §1. The encoded limit. -/

/-- `((max + 2) / 3) * 4` fits in a 64-bit word. -/
def RepresentableLimit (maxDecodedBytes : UInt64) : Prop :=
  (maxDecodedBytes.toNat + 2) / 3 * 4 < 2 ^ 64

instance : DecidablePred RepresentableLimit := fun maxDecodedBytes => by
  unfold RepresentableLimit; infer_instance

/-- The checked arithmetic is exact: no step overflows where the result fits. -/
theorem encodedLimit_eq_some {maxDecodedBytes limit : UInt64} :
    encodedLimit maxDecodedBytes = some limit
      ↔ limit.toNat = (maxDecodedBytes.toNat + 2) / 3 * 4 := by
  have htwo : (2 : UInt64).toNat = 2 := rfl
  have hthree : (3 : UInt64).toNat = 3 := rfl
  have hfour : (4 : UInt64).toNat = 4 := rfl
  have hdiv : ∀ length : UInt64, checkedDivU64 length 3 = some (length / 3) := fun _ => rfl
  unfold encodedLimit checkedMulU64
  simp only [Option.bind_eq_some_iff, checkedAddU64_eq_some, ofNatU64?_eq_some, hdiv, htwo, hfour]
  constructor
  · intro hall
    obtain ⟨groups, ⟨length, hlength, hgroups⟩, hlimit⟩ := hall
    obtain rfl := Option.some.inj hgroups
    rw [hlimit, UInt64.toNat_div, hthree, hlength]
  · intro hlimit
    -- the limit is at least the length, so the addition did not overflow either
    have hlt := UInt64.toNat_lt limit
    have hsum : (UInt64.ofNat (maxDecodedBytes.toNat + 2)).toNat = maxDecodedBytes.toNat + 2 :=
      UInt64.toNat_ofNat_of_lt' (show _ < 2 ^ 64 by omega)
    refine ⟨UInt64.ofNat (maxDecodedBytes.toNat + 2) / 3, ⟨_, hsum, rfl⟩, ?_⟩
    rw [hlimit, UInt64.toNat_div, hthree, hsum]

theorem exists_encodedLimit {maxDecodedBytes : UInt64} :
    (∃ limit, encodedLimit maxDecodedBytes = some limit)
      ↔ RepresentableLimit maxDecodedBytes := by
  unfold RepresentableLimit
  simp only [encodedLimit_eq_some]
  constructor
  · intro hlimit
    obtain ⟨limit, hlimit⟩ := hlimit
    rw [← hlimit]
    exact UInt64.toNat_lt limit
  · intro hrep
    exact ⟨UInt64.ofNat ((maxDecodedBytes.toNat + 2) / 3 * 4), UInt64.toNat_ofNat_of_lt' hrep⟩

/-- The text is short enough to be handed to the decoder. -/
def PassesFilter (value : String) (maxDecodedBytes : UInt64) : Prop :=
  ∃ limit, encodedLimit maxDecodedBytes = some limit ∧ (utf8 value).length ≤ limit.toNat

/-- The filter, with the arithmetic done. -/
theorem passesFilter_iff {value : String} {maxDecodedBytes : UInt64} :
    PassesFilter value maxDecodedBytes
      ↔ RepresentableLimit maxDecodedBytes
          ∧ (utf8 value).length ≤ (maxDecodedBytes.toNat + 2) / 3 * 4 := by
  unfold PassesFilter
  constructor
  · intro hall
    obtain ⟨limit, hlimit, hlen⟩ := hall
    rw [encodedLimit_eq_some.mp hlimit] at hlen
    exact ⟨exists_encodedLimit.mp ⟨limit, hlimit⟩, hlen⟩
  · intro hall
    obtain ⟨hrep, hlen⟩ := hall
    obtain ⟨limit, hlimit⟩ := exists_encodedLimit.mpr hrep
    rw [← encodedLimit_eq_some.mp hlimit] at hlen
    exact ⟨limit, hlimit, hlen⟩

/-- **The filter on a canonical text**: it lets a payload through up to the limit
rounded up to a multiple of three. -/
theorem passesFilter_encode {payload : List UInt8} {maxDecodedBytes : UInt64} :
    PassesFilter (Base64.standard.encode payload) maxDecodedBytes
      ↔ RepresentableLimit maxDecodedBytes
          ∧ payload.length ≤ 3 * ((maxDecodedBytes.toNat + 2) / 3) := by
  rw [passesFilter_iff, length_utf8_encode, and_congr_right_iff]
  intro _
  omega

/-! ## §2. What each outcome means. -/

variable {decode : String → Option (List UInt8)}

theorem utf8_eq_nil {value : String} : utf8 value = [] ↔ value = "" := by
  rw [← List.length_eq_zero_iff, length_utf8, String.utf8ByteSize_eq_zero_iff]

/-- `SizeLimitExceeded` is the filter's error, and only the filter's. -/
theorem decodeBase64Bounded_eq_sizeLimitExceeded {value : String} {maxDecodedBytes : UInt64} :
    decodeBase64Bounded decode value maxDecodedBytes = .error .sizeLimitExceeded
      ↔ value ≠ "" ∧ ¬ PassesFilter value maxDecodedBytes := by
  rw [ne_eq, ← utf8_eq_nil]
  unfold decodeBase64Bounded PassesFilter
  simp only [do_eq_error, rejectIf_eq_ok, rejectIf_eq_error, okOr_eq_ok, okOr_eq_error,
    exists_unit]
  cases hlimit : encodedLimit maxDecodedBytes with
  | none => simp
  | some limit => simp [pure, Except.pure]

/-- A text that passes the filter and decodes to something too long is reported
as malformed. -/
theorem decodeBase64Bounded_late {value : String} {maxDecodedBytes : UInt64}
    {decoded : List UInt8} (hne : value ≠ "") (hpass : PassesFilter value maxDecodedBytes)
    (hdecoded : decode value = some decoded) (hlong : maxDecodedBytes.toNat < decoded.length) :
    decodeBase64Bounded decode value maxDecodedBytes = .error .invalidCiphertext := by
  obtain ⟨limit, hlimit, hlen⟩ := hpass
  have hempty : utf8 value ≠ [] := utf8_eq_nil.not.mpr hne
  unfold decodeBase64Bounded
  simp only [do_eq_error, rejectIf_eq_ok, rejectIf_eq_error, okOr_eq_ok, exists_unit]
  refine Or.inr ⟨hempty, Or.inr ⟨limit, hlimit, Or.inr ⟨by omega, Or.inr ⟨decoded, hdecoded, ?_⟩⟩⟩⟩
  exact Or.inl ⟨Or.inr hlong, trivial⟩

/-- **Acceptance, with the documented engine.** -/
theorem decodeBase64Bounded_canonical (hdecode : IsStandardEngine decode) {value : String}
    {maxDecodedBytes : UInt64} (hrep : RepresentableLimit maxDecodedBytes)
    {decoded : List UInt8} :
    decodeBase64Bounded decode value maxDecodedBytes = .ok decoded
      ↔ value = Base64.standard.encode decoded
          ∧ 1 ≤ decoded.length ∧ decoded.length ≤ maxDecodedBytes.toNat := by
  rw [decodeBase64Bounded_eq_ok, hdecode]
  constructor
  · intro hall
    obtain ⟨-, -, hvalue, hne, hle⟩ := hall
    exact ⟨hvalue, List.length_pos_iff.mpr hne, hle⟩
  · intro hall
    obtain ⟨rfl, hpos, hle⟩ := hall
    have hlen := length_utf8_encode decoded
    have hne : utf8 (Base64.standard.encode decoded) ≠ [] := List.length_pos_iff.mp (by omega)
    exact ⟨hne, passesFilter_encode.mpr ⟨hrep, by omega⟩, rfl, List.length_pos_iff.mp hpos, hle⟩

/-- A text that passes the filter never decodes to more than two bytes beyond
the limit. -/
theorem length_le_of_passesFilter (hdecode : IsStandardEngine decode) {value : String}
    {maxDecodedBytes : UInt64} {decoded : List UInt8}
    (hpass : PassesFilter value maxDecodedBytes) (hdecoded : decode value = some decoded) :
    decoded.length ≤ maxDecodedBytes.toNat + 2 := by
  rw [(hdecode value decoded).mp hdecoded, passesFilter_encode] at hpass
  have hle := hpass.2
  omega

/-- Two payloads with one text are equal. -/
theorem encode_injective : Function.Injective Base64.standard.encode := by
  intro a b hab
  have ha := Base64.Alphabet.decode_eq_some.mpr (rfl : _ = Base64.standard.encode a)
  have hb := Base64.Alphabet.decode_eq_some.mpr hab
  rw [ha] at hb
  exact Option.some.inj hb

/-! ## §3. Exactness. -/

/-- **Exactness of the bounded decoder.**  Where the limit fits in a word it
accepts exactly the canonical texts of 1 to `max` bytes: the filter turns none of
them away and never lets more than `max + 2` bytes be produced.  Where it does
not fit every non-empty text is over the limit.  So a SHA-256 digest has exactly
one accepted text, and accepted texts agree iff their digests do. -/
theorem decodeBase64Bounded_exact (decode : String → Option (List UInt8))
    (hdecode : IsStandardEngine decode) :
    (∀ (value : String) (maxDecodedBytes : UInt64), RepresentableLimit maxDecodedBytes →
        (∀ d, decodeBase64Bounded decode value maxDecodedBytes = .ok d
          ↔ value = Base64.standard.encode d ∧ 1 ≤ d.length ∧ d.length ≤ maxDecodedBytes.toNat)
        ∧ (∀ d, value = Base64.standard.encode d → 1 ≤ d.length →
            d.length ≤ maxDecodedBytes.toNat → PassesFilter value maxDecodedBytes)
        ∧ (∀ d, PassesFilter value maxDecodedBytes → decode value = some d →
            d.length ≤ maxDecodedBytes.toNat + 2))
      ∧ (∀ (value : String) (maxDecodedBytes : UInt64), ¬ RepresentableLimit maxDecodedBytes →
          value ≠ "" →
          decodeBase64Bounded decode value maxDecodedBytes = .error .sizeLimitExceeded)
      ∧ (∀ value, validateSha256Base64 decode value = .ok ()
          ↔ ∃ digest, digest.length = 32 ∧ decode value = some digest)
      ∧ (∀ digest : List UInt8, digest.length = 32 →
          ∃! value, validateSha256Base64 decode value = .ok () ∧ decode value = some digest)
      ∧ (∀ value value', validateSha256Base64 decode value = .ok () →
          validateSha256Base64 decode value' = .ok () →
          (value = value' ↔ decode value = decode value')) := by
  have hhash : ∀ value, validateSha256Base64 decode value = .ok ()
      ↔ ∃ digest, digest.length = 32 ∧ decode value = some digest := by
    intro value
    rw [validateSha256Base64_eq_ok hdecode]
    unfold IsCanonicalSha256
    simp only [hdecode value]
  refine ⟨?_, ?_, hhash, ?_, ?_⟩
  · intro value maxDecodedBytes hrep
    refine ⟨fun d => decodeBase64Bounded_canonical hdecode hrep, ?_,
      fun d => length_le_of_passesFilter hdecode⟩
    intro d hvalue _ hle
    subst hvalue
    exact passesFilter_encode.mpr ⟨hrep, by omega⟩
  · -- `checked_mul` fails, so the filter lets nothing through
    intro value maxDecodedBytes hrep hne
    refine decodeBase64Bounded_eq_sizeLimitExceeded.mpr ⟨hne, ?_⟩
    intro hpass
    exact hrep (passesFilter_iff.mp hpass).1
  · intro digest hlen
    have hdigest : decode (Base64.standard.encode digest) = some digest :=
      (hdecode _ digest).mpr rfl
    refine ⟨Base64.standard.encode digest, ⟨(hhash _).mpr ⟨digest, hlen, hdigest⟩, hdigest⟩, ?_⟩
    intro value hvalue
    exact (hdecode value digest).mp hvalue.2
  · -- an accepted text is the encoding of its digest, so the digest gives it back
    intro value value' hvalue hvalue'
    obtain ⟨digest, -, hdigest⟩ := (hhash value).mp hvalue
    constructor
    · intro heq
      rw [heq]
    · intro heq
      rw [hdigest] at heq
      rw [(hdecode value digest).mp hdigest, (hdecode value' digest).mp heq.symm]

/-- The engine of the library behaves as documented. -/
theorem isStandardEngine_decode : IsStandardEngine Base64.standard.decode :=
  fun _ _ => Base64.Alphabet.decode_eq_some

/-- With the library's engine: four letters are the text of three bytes, under
any limit of three bytes or more. -/
theorem decodeBase64Bounded_exact_library :
    decodeBase64Bounded Base64.standard.decode "AAAA" 3 = .ok [0, 0, 0]
      ↔ "AAAA" = Base64.standard.encode [0, 0, 0] ∧ 1 ≤ [0, 0, 0].length
        ∧ [0, 0, 0].length ≤ (3 : UInt64).toNat :=
  ((decodeBase64Bounded_exact Base64.standard.decode isStandardEngine_decode).1 "AAAA" 3
    (by decide)).1 [0, 0, 0]

/-! ## §4. Payloads beyond the limit. -/

/-- **Which error a payload beyond the limit gets.**  The filter sees it only
where it also exceeds the limit rounded up to a multiple of three. -/
theorem decodeBase64Bounded_oversize (hdecode : IsStandardEngine decode) {payload : List UInt8}
    {maxDecodedBytes : UInt64} (hrep : RepresentableLimit maxDecodedBytes)
    (hlong : maxDecodedBytes.toNat < payload.length) :
    decodeBase64Bounded decode (Base64.standard.encode payload) maxDecodedBytes
      = .error (if 3 * ((maxDecodedBytes.toNat + 2) / 3) < payload.length
          then .sizeLimitExceeded else .invalidCiphertext) := by
  have hlen := length_utf8_encode payload
  have hne : Base64.standard.encode payload ≠ "" := by
    rw [ne_eq, ← utf8_eq_nil]
    exact List.length_pos_iff.mp (by omega)
  by_cases hfar : 3 * ((maxDecodedBytes.toNat + 2) / 3) < payload.length
  · rw [if_pos hfar, decodeBase64Bounded_eq_sizeLimitExceeded, passesFilter_encode]
    exact ⟨hne, fun hpass => absurd hpass.2 (by omega)⟩
  · rw [if_neg hfar]
    exact decodeBase64Bounded_late hne (passesFilter_encode.mpr ⟨hrep, by omega⟩)
      ((hdecode _ payload).mpr rfl) hlong

end ClipTown.Validation
