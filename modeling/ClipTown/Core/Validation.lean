/-
  ClipTown.Core.Validation — the shared field validators of the core crate
  (`src/validation.rs`).

  Rust strings are UTF-8, and the source measures and scans them by BYTES
  (`len`, `bytes`, `contains`); `utf8` is that byte view.  The base64 STANDARD
  engine is a third-party decoder, so every function that decodes takes it as
  the parameter `decode`, from a text to its bytes or nothing.

    • `IsPortable` / `validatePortableIdentifier_eq_ok` — what an accepted
      identifier is,
    • `decodeBase64Bounded_eq_ok` — an accepted envelope passed the length
      filter, decodes, and is neither empty nor too long.
-/
import ClipTown.Core.Error
import ClipTown.Lib.Checks
import ClipTown.Lib.CheckedArith

namespace ClipTown.Validation

open Checks CheckedArith

/-! ## §1. Strings as bytes. -/

/-- The bytes of a Rust string. -/
def utf8 (value : String) : List UInt8 := value.toUTF8.data.toList

/-- `u8::is_ascii_alphanumeric`. -/
def isAsciiAlphanumeric (byte : UInt8) : Bool :=
  (48 ≤ byte && byte ≤ 57) || (65 ≤ byte && byte ≤ 90) || (97 ≤ byte && byte ≤ 122)

/-- The punctuation bytes `- _ . : @` of a portable identifier. -/
def isPortablePunctuation (byte : UInt8) : Bool :=
  byte == 45 || byte == 95 || byte == 46 || byte == 58 || byte == 64

/-- `str::contains`. -/
def contains (value pattern : String) : Prop := utf8 pattern <:+: utf8 value

instance (value pattern : String) : Decidable (contains value pattern) := by
  unfold contains; infer_instance

/-! ## §2. Portable identifiers and media types. -/

/-- `validate_portable_identifier`. -/
def validatePortableIdentifier (value : String) : Except CoreError Unit :=
  rejectIf
    (utf8 value = []
      ∨ 128 < (utf8 value).length
      ∨ contains value ".."
      ∨ ¬ (utf8 value).all (fun byte => isAsciiAlphanumeric byte || isPortablePunctuation byte))
    .invalidIdentifier

/-- A portable identifier: 1 to 128 bytes, no `..`, and only ASCII letters,
digits and `- _ . : @`. -/
structure IsPortable (value : String) : Prop where
  nonempty : utf8 value ≠ []
  bounded : (utf8 value).length ≤ 128
  noTraversal : ¬ contains value ".."
  alphabet : ∀ byte ∈ utf8 value, isAsciiAlphanumeric byte ∨ isPortablePunctuation byte

@[simp] theorem validatePortableIdentifier_eq_ok {value : String} {u : Unit} :
    validatePortableIdentifier value = .ok u ↔ IsPortable value := by
  simp only [validatePortableIdentifier, rejectIf_eq_ok, not_or, not_not, List.all_eq_true,
    Bool.or_eq_true, not_lt]
  constructor
  · intro hall
    obtain ⟨hne, hlen, hdots, hbytes⟩ := hall
    exact ⟨hne, hlen, hdots, hbytes⟩
  · intro hall
    obtain ⟨hne, hlen, hdots, hbytes⟩ := hall
    exact ⟨hne, hlen, hdots, hbytes⟩

/-- `u8::is_ascii_graphic`. -/
def isAsciiGraphic (byte : UInt8) : Bool := 33 ≤ byte && byte ≤ 126

/-- `validate_mime_type`. -/
def validateMimeType (value : String) : Except CoreError Unit :=
  rejectIf
    (utf8 value = []
      ∨ 127 < (utf8 value).length
      ∨ (utf8 value).count 47 ≠ 1
      ∨ utf8 "/" <+: utf8 value
      ∨ utf8 "/" <:+ utf8 value
      ∨ ¬ (utf8 value).all (fun byte => isAsciiGraphic byte && !(byte == 34 || byte == 92)))
    .invalidCiphertext

/-! ## §3. Base64 envelopes. -/

/-- `SHA256_BYTES`. -/
def sha256Bytes : UInt64 := 32

/-- The longest encoding the pre-decode filter lets through: `((max + 2) / 3) * 4`
in checked 64-bit arithmetic. -/
def encodedLimit (maxDecodedBytes : UInt64) : Option UInt64 :=
  ((checkedAddU64 maxDecodedBytes 2).bind (checkedDivU64 · 3)).bind (checkedMulU64 · 4)

variable (decode : String → Option (List UInt8))

/-- `decode_base64_bounded`. -/
def decodeBase64Bounded (value : String) (maxDecodedBytes : UInt64) :
    Except CoreError (List UInt8) := do
  rejectIf (utf8 value = []) .invalidCiphertext
  let limit ← okOr (encodedLimit maxDecodedBytes) .sizeLimitExceeded
  rejectIf (limit.toNat < (utf8 value).length) .sizeLimitExceeded
  let decoded ← okOr (decode value) .invalidCiphertext
  rejectIf (decoded = [] ∨ maxDecodedBytes.toNat < decoded.length) .invalidCiphertext
  return decoded

/-- **What an accepted envelope is**: non-empty, within the encoded limit, and
decoded to between one and `max` bytes. -/
theorem decodeBase64Bounded_eq_ok {value : String} {maxDecodedBytes : UInt64}
    {decoded : List UInt8} :
    decodeBase64Bounded decode value maxDecodedBytes = .ok decoded ↔
      utf8 value ≠ []
        ∧ (∃ limit, encodedLimit maxDecodedBytes = some limit
            ∧ (utf8 value).length ≤ limit.toNat)
        ∧ decode value = some decoded
        ∧ decoded ≠ [] ∧ decoded.length ≤ maxDecodedBytes.toNat := by
  simp only [decodeBase64Bounded, do_eq_ok, rejectIf_eq_ok, okOr_eq_ok, pure_eq_ok, not_or,
    not_lt, exists_unit]
  constructor
  · intro hall
    obtain ⟨hne, limit, hlimit, hlen, d, hd, hbound, rfl⟩ := hall
    exact ⟨hne, ⟨limit, hlimit, hlen⟩, hd, hbound⟩
  · intro hall
    obtain ⟨hne, ⟨limit, hlimit, hlen⟩, hd, hbound⟩ := hall
    exact ⟨hne, limit, hlimit, hlen, decoded, hd, hbound, rfl⟩

/-- `validate_sha256_base64`. -/
def validateSha256Base64 (value : String) : Except CoreError Unit := do
  let decoded ← decodeBase64Bounded decode value sha256Bytes
  rejectIf (decoded.length ≠ sha256Bytes.toNat) .invalidCiphertext

/-! ## §4. Storage keys. -/

/-- The punctuation bytes `/ - _ .` of a storage key. -/
def isStorageKeyPunctuation (byte : UInt8) : Bool :=
  byte == 47 || byte == 45 || byte == 95 || byte == 46

/-- `validate_storage_key`. -/
def validateStorageKey (value : String) (maxLen : Nat) : Except CoreError Unit :=
  rejectIf
    (¬ (16 ≤ (utf8 value).length ∧ (utf8 value).length ≤ maxLen)
      ∨ utf8 "/" <+: utf8 value
      ∨ utf8 "/" <:+ utf8 value
      ∨ contains value ".."
      ∨ contains value "//"
      ∨ ¬ (utf8 value).all (fun byte => isAsciiAlphanumeric byte || isStorageKeyPunctuation byte))
    .invalidStorageKey

end ClipTown.Validation
