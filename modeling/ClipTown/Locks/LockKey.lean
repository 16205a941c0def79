/-
  ClipTown.Locks.LockKey — lock keys and the `bigint` they lock in Postgres
  (`ores-locks-and-leases`: `key.ts`, `key.dart`, `ores_locks_and_leases.gleam`).

  The advisory key of a text is FNV-1a over its UTF-8 bytes, read as a signed
  integer.  The three runtimes read it so in three ways.

    • `advisoryKey_runtimes` — they agree on every text, within `bigint`,
    • `advisoryKey_append_iff` — a common end decides nothing,
    • `advisoryKey_window_iff` — texts that differ only inside four
      neighbouring bytes lock different integers.
-/
import ClipTown.Lib.ByteHash
import Mathlib.Data.Nat.Bitwise

namespace ClipTown.Locks

open ByteHash

/-! ## §1. Keys. -/

/-- `MAX_LOCK_KEY_BYTES`. -/
def maxLockKeyBytes : ℕ := 512

/-- `LockKey`: a text within the contract's bound. -/
structure LockKey where
  text : String
  bytes_le : text.utf8ByteSize ≤ maxLockKeyBytes
  deriving DecidableEq

/-- `lockKey`: validate the length bound. -/
def lockKey (key : String) : Except String LockKey :=
  if h : key.utf8ByteSize ≤ maxLockKeyBytes then .ok ⟨key, h⟩
  else
    .error s!"lock key is {key.utf8ByteSize} bytes; the contract allows at most {maxLockKeyBytes}"

/-- A key of a test. -/
def unitKey : LockKey := ⟨"t/unit", by decide⟩

/-! ## §2. FNV-1a. -/

/-- `encoder.encode(key)`, `utf8.encode(key)`, `bit_array.from_string(key)`. -/
def utf8 (key : String) : List UInt8 := key.toByteArray.data.toList

/-- `FNV_OFFSET_BASIS`. -/
def fnvOffsetBasis : ℕ := 0xcbf29ce484222325

/-- `FNV_PRIME`. -/
def fnvPrime : ℕ := 0x100000001b3

/-- `MASK64`. -/
def mask64 : ℕ := 2 ^ 64 - 1

/-- The body of the loop: `hash ^= byte`, then `(hash * FNV_PRIME) & MASK64`. -/
def fnvStep (hash : ℕ) (byte : UInt8) : ℕ := ((hash ^^^ byte.toNat) * fnvPrime) &&& mask64

/-- `fnv1a64` of TypeScript and Dart. -/
def fnv1a64 (key : String) : ℕ := (utf8 key).foldl fnvStep fnvOffsetBasis

/-- `fold_bytes`. -/
def foldBytes : ℕ → List UInt8 → ℕ
  | hash, byte :: rest => foldBytes (fnvStep hash byte) rest
  | hash, [] => hash

/-- `fnv1a64` of Gleam. -/
def gleamFnv1a64 (key : String) : ℕ := foldBytes fnvOffsetBasis (utf8 key)

/-- `BigInt.asIntN`. -/
def asIntN (bits : ℕ) (x : ℤ) : ℤ :=
  if x % 2 ^ bits ≥ 2 ^ (bits - 1) then x % 2 ^ bits - 2 ^ bits else x % 2 ^ bits

/-- `BigInt.toSigned`: the lowest bits, the highest of them extended. -/
def toSigned (x : ℕ) (width : ℕ) : ℤ :=
  ((x &&& (2 ^ (width - 1) - 1) : ℕ) : ℤ) - ((x &&& 2 ^ (width - 1) : ℕ) : ℤ)

/-- `advisoryKey`. -/
def advisoryKey (key : String) : ℤ := asIntN 64 (fnv1a64 key)

/-- `advisoryKey` of Dart. -/
def dartAdvisoryKey (key : String) : ℤ := toSigned (fnv1a64 key) 64

/-- `advisory_key` of Gleam. -/
def gleamAdvisoryKey (key : String) : ℤ :=
  if gleamFnv1a64 key ≥ 2 ^ 63 then (gleamFnv1a64 key : ℤ) - 2 ^ 64 else gleamFnv1a64 key

/-- `LockKey.advisory`, `key_advisory`. -/
def LockKey.advisory (key : LockKey) : ℤ := advisoryKey key.text

/-! ## §3. The three readings. -/

theorem fnvStep_eq_toNat (s : BitVec 64) (byte : UInt8) :
    fnvStep s.toNat byte = (xorMul fnvPrime64 s byte).toNat := by
  have hbyte : byte.toBitVec.toNat < 2 ^ 64 := by
    have hlt : byte.toBitVec.toNat < 2 ^ 8 := byte.toBitVec.isLt
    omega
  unfold fnvStep mask64 xorMul
  rw [Nat.and_two_pow_sub_one_eq_mod, BitVec.toNat_mul, BitVec.toNat_xor, BitVec.toNat_setWidth,
    Nat.mod_eq_of_lt hbyte]
  rfl

/-- The loop computes on 64-bit words. -/
theorem fnv1a64_eq_toNat (key : String) :
    fnv1a64 key = ((utf8 key).foldl (xorMul fnvPrime64) 0xcbf29ce484222325#64).toNat := by
  have hfold : ∀ (bytes : List UInt8) (s : BitVec 64),
      bytes.foldl fnvStep s.toNat = (bytes.foldl (xorMul fnvPrime64) s).toNat := by
    intro bytes
    induction bytes with
    | nil => exact fun _ => rfl
    | cons byte bytes ih =>
        intro s
        rw [List.foldl_cons, List.foldl_cons, fnvStep_eq_toNat]
        exact ih _
  have hbasis : fnvOffsetBasis = (0xcbf29ce484222325#64).toNat := by decide
  unfold fnv1a64
  rw [hbasis]
  exact hfold _ _

theorem fnv1a64_lt (key : String) : fnv1a64 key < 2 ^ 64 := by
  rw [fnv1a64_eq_toNat]
  exact BitVec.isLt _

theorem gleamFnv1a64_eq (key : String) : gleamFnv1a64 key = fnv1a64 key := by
  have hfold : ∀ (bytes : List UInt8) (hash : ℕ),
      foldBytes hash bytes = bytes.foldl fnvStep hash := by
    intro bytes
    induction bytes with
    | nil => exact fun _ => rfl
    | cons byte bytes ih =>
        intro hash
        rw [foldBytes, List.foldl_cons]
        exact ih _
  unfold gleamFnv1a64 fnv1a64
  exact hfold _ _

theorem asIntN_of_lt {x : ℕ} (h : x < 2 ^ 64) :
    asIntN 64 x = if x ≥ 2 ^ 63 then (x : ℤ) - 2 ^ 64 else (x : ℤ) := by
  unfold asIntN
  have hmod : (x : ℤ) % 2 ^ 64 = x := Int.emod_eq_of_lt (by omega) (by omega)
  rw [hmod]
  split_ifs <;> omega

theorem toSigned_of_lt {x : ℕ} (h : x < 2 ^ 64) :
    toSigned x 64 = if x ≥ 2 ^ 63 then (x : ℤ) - 2 ^ 64 else (x : ℤ) := by
  have hlow : x &&& (2 ^ 63 - 1) = x % 2 ^ 63 := Nat.and_two_pow_sub_one_eq_mod x 63
  have hsign : x &&& 2 ^ 63 = if x ≥ 2 ^ 63 then 2 ^ 63 else 0 := by
    rw [Nat.and_two_pow, Nat.testBit_eq_decide_div_mod_eq]
    by_cases hge : x ≥ 2 ^ 63
    · have hdiv : x / 2 ^ 63 = 1 := by omega
      rw [if_pos hge, hdiv]
      rfl
    · have hdiv : x / 2 ^ 63 = 0 := by omega
      rw [if_neg hge, hdiv]
      rfl
  unfold toSigned
  show ((x &&& (2 ^ 63 - 1) : ℕ) : ℤ) - ((x &&& 2 ^ 63 : ℕ) : ℤ) = _
  rw [hlow, hsign]
  split_ifs with hge <;> omega

/-- **One lock in every runtime.**  The three runtimes lock the same integer
for a text, it is a Postgres `bigint`, and it has the hash's residue. -/
theorem advisoryKey_runtimes (key : String) :
    dartAdvisoryKey key = advisoryKey key ∧ gleamAdvisoryKey key = advisoryKey key ∧
      -2 ^ 63 ≤ advisoryKey key ∧ advisoryKey key < 2 ^ 63 ∧
      advisoryKey key % 2 ^ 64 = fnv1a64 key := by
  have hlt := fnv1a64_lt key
  have hts : advisoryKey key
      = if fnv1a64 key ≥ 2 ^ 63 then (fnv1a64 key : ℤ) - 2 ^ 64 else (fnv1a64 key : ℤ) :=
    asIntN_of_lt hlt
  refine ⟨?_, ?_, ?_, ?_, ?_⟩
  · rw [hts]
    exact toSigned_of_lt hlt
  · unfold gleamAdvisoryKey
    rw [hts, gleamFnv1a64_eq]
  · rw [hts]
    split_ifs <;> omega
  · rw [hts]
    split_ifs <;> omega
  · rw [hts]
    split_ifs <;> omega

/-! ## §4. Collisions. -/

theorem advisoryKey_eq_iff {a b : String} :
    advisoryKey a = advisoryKey b
      ↔ (utf8 a).foldl (xorMul fnvPrime64) 0xcbf29ce484222325#64
        = (utf8 b).foldl (xorMul fnvPrime64) 0xcbf29ce484222325#64 := by
  rw [BitVec.toNat_eq, ← fnv1a64_eq_toNat, ← fnv1a64_eq_toNat]
  have ha := fnv1a64_lt a
  have hb := fnv1a64_lt b
  unfold advisoryKey
  rw [asIntN_of_lt ha, asIntN_of_lt hb]
  constructor
  · intro h
    split_ifs at h <;> omega
  · intro h
    rw [h]

theorem utf8_append (a b : String) : utf8 (a ++ b) = utf8 a ++ utf8 b := by
  unfold utf8
  rw [String.toByteArray_append]
  exact ByteArray.toList_data_append

theorem utf8_inj {a b : String} : utf8 a = utf8 b ↔ a = b := by
  constructor
  · intro h
    exact String.toByteArray_inj.mp (ByteArray.ext (Array.toList_inj.mp h))
  · intro h
    rw [h]

/-- **A common end decides nothing.**  Two texts lock one integer exactly when
they do before a common end is cut off. -/
theorem advisoryKey_append_iff (a b suffix : String) :
    advisoryKey (a ++ suffix) = advisoryKey (b ++ suffix) ↔ advisoryKey a = advisoryKey b := by
  rw [advisoryKey_eq_iff, advisoryKey_eq_iff, utf8_append, utf8_append]
  exact fnv_mixes.foldl_append_inj _

/-- **Neighbouring names never collide.**  Texts that differ only inside four
neighbouring bytes lock one integer only when they are the same text. -/
theorem advisoryKey_window_iff {a b : String} {before xs ys after : List UInt8}
    (ha : utf8 a = before ++ xs ++ after) (hb : utf8 b = before ++ ys ++ after)
    (hlength : xs.length = ys.length) (hshort : xs.length ≤ 4) :
    advisoryKey a = advisoryKey b ↔ a = b := by
  rw [advisoryKey_eq_iff, ← utf8_inj, ha, hb, fnv_mixes.foldl_append_inj, List.foldl_append,
    List.foldl_append, fnv_window_inj hlength hshort]
  constructor
  · intro h
    rw [h]
  · intro h
    exact List.append_cancel_left (List.append_cancel_right h)

/-- Two neighbouring tenants. -/
theorem advisoryKey_window_iff_tenants :
    advisoryKey "t:41/sync" = advisoryKey "t:42/sync" ↔ "t:41/sync" = "t:42/sync" :=
  @advisoryKey_window_iff "t:41/sync" "t:42/sync" (utf8 "t:4") (utf8 "1") (utf8 "2")
    (utf8 "/sync") rfl rfl rfl (by decide)

end ClipTown.Locks
