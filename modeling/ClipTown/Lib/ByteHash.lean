/-
  ClipTown.Lib.ByteHash — hashes that take their input one symbol at a time.

  A step MIXES when every symbol permutes the states and every state tells the
  symbols apart.  Xor with the symbol and multiply by a unit is such a step.

    • `foldl_append_inj` — a common end neither makes nor undoes a collision,
    • `foldl_one_inj` — inputs that differ in one symbol do not collide,
    • `xorMul_mixes` — the step of the Fowler–Noll–Vo hashes mixes,
    • `fnv_window_inj` — with the 64-bit prime, inputs that differ only inside
      four neighbouring bytes do not collide.

  Nothing here mentions any particular input.
-/
import Mathlib.Data.List.Basic
import Mathlib.Logic.Function.Basic
import Mathlib.Tactic.Ring

namespace ByteHash

variable {σ β : Type*} {step : σ → β → σ}

/-- Every symbol permutes the states, and every state tells the symbols apart. -/
structure Mixes (step : σ → β → σ) : Prop where
  state_injective : ∀ b, Function.Injective fun s => step s b
  input_injective : ∀ s, Function.Injective (step s)

/-- From two states over one input. -/
theorem Mixes.foldl_inj (h : Mixes step) {xs : List β} :
    ∀ {s t : σ}, xs.foldl step s = xs.foldl step t ↔ s = t := by
  induction xs with
  | nil =>
      intro s t
      exact Iff.rfl
  | cons x xs ih =>
      intro s t
      rw [List.foldl_cons, List.foldl_cons, ih]
      exact (h.state_injective x).eq_iff

/-- A common end neither makes nor undoes a collision. -/
theorem Mixes.foldl_append_inj (h : Mixes step) {xs ys : List β} (zs : List β) {s : σ} :
    (xs ++ zs).foldl step s = (ys ++ zs).foldl step s ↔ xs.foldl step s = ys.foldl step s := by
  rw [List.foldl_append, List.foldl_append]
  exact h.foldl_inj

/-- Inputs that differ in one symbol do not collide. -/
theorem Mixes.foldl_one_inj (h : Mixes step) {before after : List β} {x y : β} {s : σ} :
    (before ++ x :: after).foldl step s = (before ++ y :: after).foldl step s ↔ x = y := by
  rw [List.foldl_append, List.foldl_append, List.foldl_cons, List.foldl_cons, h.foldl_inj]
  exact (h.input_injective _).eq_iff

/-- Xor with the symbol, then multiply. -/
def xorMul {w : ℕ} (prime : BitVec w) (hash : BitVec w) (byte : UInt8) : BitVec w :=
  (hash ^^^ byte.toBitVec.setWidth w) * prime

theorem mul_unit_inj {w : ℕ} {prime a b : BitVec w} (inverse : BitVec w)
    (h : prime * inverse = 1#w) :
    a * prime = b * prime ↔ a = b := by
  constructor
  · intro heq
    have hback := congrArg (· * inverse) heq
    simp only [BitVec.mul_assoc, h, BitVec.mul_one] at hback
    exact hback
  · intro heq
    rw [heq]

/-- The multiplier is a unit and the symbols fit: the step mixes. -/
theorem xorMul_mixes {w : ℕ} (hw : 8 ≤ w) {prime : BitVec w} (inverse : BitVec w)
    (h : prime * inverse = 1#w) : Mixes (xorMul prime) where
  state_injective byte s t heq := by
    have hxor := (mul_unit_inj inverse h).mp heq
    exact (BitVec.xor_left_inj _).mp hxor
  input_injective s x y heq := by
    have hxor := (BitVec.xor_right_inj _).mp ((mul_unit_inj inverse h).mp heq)
    have hval := congrArg BitVec.toNat hxor
    have hfits : 2 ^ 8 ≤ 2 ^ w := Nat.pow_le_pow_right (by decide) hw
    have hx := x.toBitVec.isLt
    have hy := y.toBitVec.isLt
    rw [BitVec.toNat_setWidth, BitVec.toNat_setWidth, Nat.mod_eq_of_lt (by omega),
      Nat.mod_eq_of_lt (by omega)] at hval
    exact UInt8.toBitVec_inj.mp (BitVec.eq_of_toNat_eq hval)

/-! ## §2. The 64-bit prime. -/

/-- The 64-bit Fowler–Noll–Vo prime, `2^40 + 435`. -/
def fnvPrime64 : BitVec 64 := 0x100000001b3#64

theorem fnv_mixes : Mixes (xorMul fnvPrime64) :=
  xorMul_mixes (by decide) 0xce965057aff6957b#64 (by decide)

/-- A byte moves a state by less than 256. -/
theorem exists_xor_offset (s : BitVec 64) (x : UInt8) :
    ∃ f : ℤ, -255 ≤ f ∧ f ≤ 255 ∧
      ((s ^^^ x.toBitVec.setWidth 64).toNat : ℤ) = s.toNat + f := by
  have hx : x.toNat < 2 ^ 8 := x.toNat_lt
  have hxor : (s ^^^ x.toBitVec.setWidth 64).toNat = s.toNat ^^^ x.toNat := by
    rw [BitVec.toNat_xor, BitVec.toNat_setWidth, Nat.mod_eq_of_lt (by simpa using by omega)]
    rfl
  -- the bits above the lowest eight stay
  have hhigh : (s.toNat ^^^ x.toNat) / 2 ^ 8 = s.toNat / 2 ^ 8 := by
    rw [← Nat.shiftRight_eq_div_pow, Nat.shiftRight_xor_distrib, Nat.shiftRight_eq_div_pow,
      Nat.shiftRight_eq_div_pow, Nat.div_eq_of_lt hx, Nat.xor_zero]
  refine ⟨((s.toNat ^^^ x.toNat : ℕ) : ℤ) - s.toNat, ?_, ?_, ?_⟩
  · omega
  · omega
  · rw [hxor]
    omega

/-- A product of states, over the integers. -/
theorem exists_mul_carry (u : BitVec 64) :
    ∃ q : ℤ, ((u * fnvPrime64).toNat : ℤ) = u.toNat * (2 ^ 40 + 435) - q * 2 ^ 64 := by
  refine ⟨((u.toNat * (2 ^ 40 + 435) / 2 ^ 64 : ℕ) : ℤ), ?_⟩
  have hprime : fnvPrime64.toNat = 2 ^ 40 + 435 := rfl
  rw [BitVec.toNat_mul, hprime]
  omega

/-- A cubic with small coefficients that vanishes at the prime modulo `2^64` is zero.
It vanishes at 435 first, since `2^40` cannot come up below. -/
theorem small_cubic {a b c d q : ℤ} (ha : -510 ≤ a ∧ a ≤ 510) (hb : -510 ≤ b ∧ b ≤ 510)
    (hc : -510 ≤ c ∧ c ≤ 510) (hd : -510 ≤ d ∧ d ≤ 510)
    (h : (567675 * a + 870 * b + c) * 2 ^ 40 + (82312875 * a + 189225 * b + 435 * c + d)
      = q * 2 ^ 64) : a = 0 := by
  have hlow : 82312875 * a + 189225 * b + 435 * c + d = 0 := by omega
  have hhigh : 567675 * a + 870 * b + c = q * 2 ^ 24 := by omega
  -- divide by the root 435: the quotient is `a x² + g x + f`
  obtain ⟨f, hf⟩ : ∃ f, d = -435 * f := ⟨189225 * a + 435 * b + c, by omega⟩
  obtain ⟨g, hg⟩ : ∃ g, c = f - 435 * g := ⟨435 * a + b, by omega⟩
  have hfirst : b = g - 435 * a := by omega
  have hf1 : -1 ≤ f ∧ f ≤ 1 := by omega
  have hg1 : -1 ≤ g ∧ g ≤ 1 := by omega
  have ha1 : -1 ≤ a ∧ a ≤ 1 := by omega
  have hvalue : 189225 * a + 435 * g + f = 0 := by
    have hmultiple : 189225 * a + 435 * g + f = q * 2 ^ 24 := by omega
    rcases lt_trichotomy q 0 with hq | hq | hq <;> omega
  omega

/-- Four bytes that end in one state begin alike. -/
theorem fnv_four_head {s : BitVec 64} {x₁ x₂ x₃ x₄ y₁ y₂ y₃ y₄ : UInt8}
    (h : [x₁, x₂, x₃, x₄].foldl (xorMul fnvPrime64) s
      = [y₁, y₂, y₃, y₄].foldl (xorMul fnvPrime64) s) : x₁ = y₁ := by
  simp only [List.foldl_cons, List.foldl_nil] at h
  -- the last product can be undone, so the last two sums agree
  have hlast := congrArg (fun u : BitVec 64 => (u.toNat : ℤ))
    ((mul_unit_inj 0xce965057aff6957b#64 (by decide)).mp h)
  obtain ⟨f₁, hf₁⟩ := exists_xor_offset s x₁
  obtain ⟨g₁, hg₁⟩ := exists_xor_offset s y₁
  obtain ⟨p₁, hp₁⟩ := exists_mul_carry (s ^^^ x₁.toBitVec.setWidth 64)
  obtain ⟨q₁, hq₁⟩ := exists_mul_carry (s ^^^ y₁.toBitVec.setWidth 64)
  obtain ⟨f₂, hf₂⟩ := exists_xor_offset (xorMul fnvPrime64 s x₁) x₂
  obtain ⟨g₂, hg₂⟩ := exists_xor_offset (xorMul fnvPrime64 s y₁) y₂
  obtain ⟨p₂, hp₂⟩ := exists_mul_carry (xorMul fnvPrime64 s x₁ ^^^ x₂.toBitVec.setWidth 64)
  obtain ⟨q₂, hq₂⟩ := exists_mul_carry (xorMul fnvPrime64 s y₁ ^^^ y₂.toBitVec.setWidth 64)
  obtain ⟨f₃, hf₃⟩ := exists_xor_offset (xorMul fnvPrime64 (xorMul fnvPrime64 s x₁) x₂) x₃
  obtain ⟨g₃, hg₃⟩ := exists_xor_offset (xorMul fnvPrime64 (xorMul fnvPrime64 s y₁) y₂) y₃
  obtain ⟨p₃, hp₃⟩ := exists_mul_carry
    (xorMul fnvPrime64 (xorMul fnvPrime64 s x₁) x₂ ^^^ x₃.toBitVec.setWidth 64)
  obtain ⟨q₃, hq₃⟩ := exists_mul_carry
    (xorMul fnvPrime64 (xorMul fnvPrime64 s y₁) y₂ ^^^ y₃.toBitVec.setWidth 64)
  obtain ⟨f₄, hf₄⟩ := exists_xor_offset
    (xorMul fnvPrime64 (xorMul fnvPrime64 (xorMul fnvPrime64 s x₁) x₂) x₃) x₄
  obtain ⟨g₄, hg₄⟩ := exists_xor_offset
    (xorMul fnvPrime64 (xorMul fnvPrime64 (xorMul fnvPrime64 s y₁) y₂) y₃) y₄
  have hzero : f₁ - g₁ = 0 := by
    apply small_cubic (b := f₂ - g₂) (c := f₃ - g₃) (d := f₄ - g₄)
      (q := (p₁ - q₁) * (2 ^ 40 + 435) ^ 2 + (p₂ - q₂) * (2 ^ 40 + 435) + (p₃ - q₃)
        - (f₁ - g₁) * (2 ^ 56 + 1305 * 2 ^ 16) - (f₂ - g₂) * 2 ^ 16)
    · omega
    · omega
    · omega
    · omega
    · simp only [xorMul] at *
      omega
  have hsame : (s ^^^ x₁.toBitVec.setWidth 64) = s ^^^ y₁.toBitVec.setWidth 64 := by
    apply BitVec.eq_of_toNat_eq
    omega
  exact fnv_mixes.input_injective s (congrArg (· * fnvPrime64) hsame)

/-- Inputs that differ only inside four neighbouring bytes do not collide. -/
theorem fnv_window_inj : ∀ {xs ys : List UInt8} {s : BitVec 64}, xs.length = ys.length →
    xs.length ≤ 4 →
    (xs.foldl (xorMul fnvPrime64) s = ys.foldl (xorMul fnvPrime64) s ↔ xs = ys) := by
  intro xs
  induction xs with
  | nil =>
      intro ys s hlength _
      rw [List.length_eq_zero_iff.mp hlength.symm]
      exact ⟨fun _ => rfl, fun _ => rfl⟩
  | cons x xs ih =>
      intro ys s hlength hshort
      cases ys with
      | nil => exact absurd hlength (by simp)
      | cons y ys =>
          rw [List.length_cons, List.length_cons] at hlength
          rw [List.length_cons] at hshort
          constructor
          · intro h
            -- fill both up to four bytes
            have hfill := (fnv_mixes.foldl_append_inj (List.replicate (3 - xs.length) 0)).mpr h
            obtain ⟨a, b, c, habc⟩ := List.length_eq_three.mp
              (show (xs ++ List.replicate (3 - xs.length) (0 : UInt8)).length = 3 by
                rw [List.length_append, List.length_replicate]
                omega)
            obtain ⟨a', b', c', habc'⟩ := List.length_eq_three.mp
              (show (ys ++ List.replicate (3 - xs.length) (0 : UInt8)).length = 3 by
                rw [List.length_append, List.length_replicate]
                omega)
            rw [List.cons_append, List.cons_append, habc, habc'] at hfill
            have hhead := fnv_four_head hfill
            rw [hhead, List.foldl_cons, List.foldl_cons] at h
            rw [hhead, (ih (by omega) (by omega)).mp h]
          · intro h
            rw [h]

end ByteHash
