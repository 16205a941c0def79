/-
  ClipTown.Lib.Binary64 — rationals rounded to double precision.

  `toBinary64 q` is the double nearest to `q`, ties to the even significand,
  or nothing where `q` overflows to an infinity.  What a reader of decimal
  literals needs first is that rounding does not cross a number that is itself a
  double:

    • `le_toBinary64` / `toBinary64_le` — an integer below `2^53` that bounds
      `q` bounds its double too,
    • `toBinary64_intCast` — such an integer is its own double, and so is
      every double (`toBinary64_idem`).
-/
import Mathlib.Data.Int.Log
import Mathlib.Data.Rat.Floor
import Mathlib.Tactic.Linarith
import Mathlib.Tactic.NormNum

namespace Binary64

/-! ## §1. The nearest integer. -/

/-- The integer nearest to `q`, and the even one of two that are as near. -/
def roundHalfEven (q : ℚ) : ℤ :=
  if Int.fract q < 1 / 2 then ⌊q⌋
  else if 1 / 2 < Int.fract q then ⌊q⌋ + 1
  else if ⌊q⌋ % 2 = 0 then ⌊q⌋ else ⌊q⌋ + 1

theorem le_roundHalfEven {n : ℤ} {q : ℚ} (h : (n : ℚ) ≤ q) : n ≤ roundHalfEven q := by
  have hfloor : n ≤ ⌊q⌋ := Int.le_floor.mpr h
  unfold roundHalfEven
  split_ifs <;> omega

theorem roundHalfEven_le {n : ℤ} {q : ℚ} (h : q ≤ n) : roundHalfEven q ≤ n := by
  by_cases hint : Int.fract q = 0
  · -- an integer rounds to itself
    have hfloor : ⌊q⌋ ≤ n := Int.floor_le_iff.mpr (by linarith)
    unfold roundHalfEven
    rw [hint, if_pos (by norm_num)]
    exact hfloor
  · have hpos : 0 < Int.fract q := lt_of_le_of_ne (Int.fract_nonneg q) (Ne.symm hint)
    have hfloor : ⌊q⌋ < n := by
      have hsum := Int.floor_add_fract q
      exact_mod_cast (by linarith : ((⌊q⌋ : ℤ) : ℚ) < n)
    unfold roundHalfEven
    split_ifs <;> omega

theorem roundHalfEven_intCast (n : ℤ) : roundHalfEven n = n :=
  le_antisymm (roundHalfEven_le le_rfl) (le_roundHalfEven le_rfl)

/-- Below zero the nearest integer is the mirror image. -/
theorem roundHalfEven_neg (q : ℚ) : roundHalfEven (-q) = -roundHalfEven q := by
  by_cases hint : Int.fract q = 0
  · obtain ⟨n, rfl⟩ := Int.fract_eq_zero_iff.mp hint
    rw [← Int.cast_neg, roundHalfEven_intCast, roundHalfEven_intCast]
  · have hfract : Int.fract (-q) = 1 - Int.fract q := Int.fract_neg hint
    have hfloor : ⌊-q⌋ = -⌊q⌋ - 1 := by
      have hsum := Int.floor_add_fract q
      have hsum' := Int.floor_add_fract (-q)
      have hcast : ((⌊-q⌋ : ℤ) : ℚ) = -⌊q⌋ - 1 := by linarith
      exact_mod_cast hcast
    unfold roundHalfEven
    rw [hfract, hfloor]
    rcases lt_trichotomy (Int.fract q) (1 / 2) with hlt | heq | hgt
    · rw [if_neg (by linarith), if_pos (by linarith), if_pos hlt]
      omega
    · -- of two that are as near, the even one mirrors the even one
      have hhalf : (1 : ℚ) - 1 / 2 = 1 / 2 := by norm_num
      simp only [heq, hhalf, lt_irrefl, if_false]
      split_ifs <;> omega
    · rw [if_pos (by linarith), if_neg (by linarith), if_pos hgt]
      omega

/-! ## §2. The nearest double. -/

/-- The exponent of the last significand bit of the doubles around `q`. -/
def ulpExponent (q : ℚ) : ℤ := max (Int.log 2 |q| - 52) (-1074)

/-- `q` rounded to the multiples of its last significand bit. -/
def roundToUlp (q : ℚ) : ℚ := roundHalfEven (q / 2 ^ ulpExponent q) * 2 ^ ulpExponent q

/-- The double nearest to `q`; nothing where that is an infinity. -/
def toBinary64 (q : ℚ) : Option ℚ :=
  if |roundToUlp q| < 2 ^ 1024 then some (roundToUlp q) else none

/-- Where the last significand bit is above 1, the number is large. -/
theorem le_abs_of_ulpExponent_pos {q : ℚ} (h : 0 < ulpExponent q) :
    (2 : ℚ) ^ (52 + ulpExponent q) ≤ |q| := by
  have hulp : ulpExponent q = Int.log 2 |q| - 52 := by
    unfold ulpExponent at h ⊢
    omega
  have hq : 0 < |q| := by
    apply lt_of_le_of_ne (abs_nonneg q)
    intro hzero
    rw [hulp, ← hzero, Int.log_zero_right] at h
    omega
  have hlog := Int.zpow_log_le_self (b := 2) (by norm_num) hq
  rw [hulp, show 52 + (Int.log 2 |q| - 52) = Int.log 2 |q| by omega]
  exact_mod_cast hlog

theorem toBinary64_neg (q : ℚ) : toBinary64 (-q) = (toBinary64 q).map (-·) := by
  have hround : roundToUlp (-q) = -roundToUlp q := by
    have hulp : ulpExponent (-q) = ulpExponent q := by
      unfold ulpExponent
      rw [abs_neg]
    unfold roundToUlp
    rw [hulp, neg_div, roundHalfEven_neg]
    push_cast
    ring
  unfold toBinary64
  rw [hround, abs_neg]
  split_ifs <;> rfl

/-! ## §3. Rounding does not cross a double. -/

/-- A multiple of the last significand bit below `q` stays below. -/
theorem le_roundToUlp {m : ℤ} {q : ℚ} (h : (m : ℚ) * 2 ^ ulpExponent q ≤ q) :
    (m : ℚ) * 2 ^ ulpExponent q ≤ roundToUlp q := by
  have hpos : (0 : ℚ) < 2 ^ ulpExponent q := zpow_pos (by norm_num) _
  have hm : m ≤ roundHalfEven (q / 2 ^ ulpExponent q) :=
    le_roundHalfEven ((le_div_iff₀ hpos).mpr h)
  exact mul_le_mul_of_nonneg_right (by exact_mod_cast hm) hpos.le

/-- A multiple of the last significand bit above `q` stays above. -/
theorem roundToUlp_le {m : ℤ} {q : ℚ} (h : q ≤ (m : ℚ) * 2 ^ ulpExponent q) :
    roundToUlp q ≤ (m : ℚ) * 2 ^ ulpExponent q := by
  have hpos : (0 : ℚ) < 2 ^ ulpExponent q := zpow_pos (by norm_num) _
  have hm : roundHalfEven (q / 2 ^ ulpExponent q) ≤ m :=
    roundHalfEven_le ((div_le_iff₀ hpos).mpr h)
  exact mul_le_mul_of_nonneg_right (by exact_mod_cast hm) hpos.le

/-- Below `2^53` every integer is such a multiple, as long as the last bit is not
above 1. -/
theorem exists_multiple {u : ℤ} (hu : u ≤ 0) (n : ℤ) : ∃ m : ℤ, (n : ℚ) = m * 2 ^ u := by
  obtain ⟨k, rfl⟩ : ∃ k : ℕ, u = -(k : ℤ) := ⟨u.natAbs, by omega⟩
  refine ⟨n * 2 ^ k, ?_⟩
  rw [zpow_neg, zpow_natCast]
  push_cast
  field_simp

/-- The power of two that starts a range of doubles is such a multiple too. -/
theorem two_pow_split (u : ℤ) : (2 : ℚ) ^ (52 + u) = ((2 ^ 52 : ℤ) : ℚ) * 2 ^ u := by
  rw [zpow_add₀ (by norm_num)]
  norm_num

theorem two_pow_le_of_pos {u : ℤ} (hu : 0 < u) : (2 : ℚ) ^ 53 ≤ (2 : ℚ) ^ (52 + u) := by
  rw [← zpow_natCast]
  exact zpow_le_zpow_right₀ (by norm_num) (by push_cast; omega)

/-- A number whose last bit is above 1 is far from every small integer, and so is
its double. -/
theorem large_of_ulpExponent_pos {q : ℚ} (hu : 0 < ulpExponent q) :
    (2 ^ 53 ≤ q ∧ 2 ^ 53 ≤ roundToUlp q) ∨ (q ≤ -2 ^ 53 ∧ roundToUlp q ≤ -2 ^ 53) := by
  have hbig := le_abs_of_ulpExponent_pos hu
  have htwo := two_pow_le_of_pos hu
  have hsplit := two_pow_split (ulpExponent q)
  rcases le_total 0 q with hq | hq
  · left
    rw [abs_of_nonneg hq] at hbig
    have hround := le_roundToUlp (q := q) (m := 2 ^ 52) (by linarith)
    exact ⟨by linarith, by linarith⟩
  · right
    rw [abs_of_nonpos hq] at hbig
    have hround := roundToUlp_le (q := q) (m := -2 ^ 52) (by push_cast at hsplit ⊢; linarith)
    push_cast at hsplit hround
    exact ⟨by linarith, by linarith⟩

/-- **An integer below `2^53` that bounds a number from below bounds its double.** -/
theorem intCast_le_roundToUlp {n : ℤ} (hn : |n| < 2 ^ 53) {q : ℚ} (h : (n : ℚ) ≤ q) :
    (n : ℚ) ≤ roundToUlp q := by
  have hn' : |(n : ℚ)| < 2 ^ 53 := by exact_mod_cast hn
  by_cases hu : ulpExponent q ≤ 0
  · obtain ⟨m, hm⟩ := exists_multiple hu n
    rw [hm] at h ⊢
    exact le_roundToUlp h
  · rcases large_of_ulpExponent_pos (q := q) (by omega) with ⟨_, hround⟩ | ⟨hq, _⟩
    · have hhigh := (abs_lt.mp hn').2
      linarith
    · have hlow := (abs_lt.mp hn').1
      linarith

/-- **An integer below `2^53` that bounds a number from above bounds its double.** -/
theorem roundToUlp_le_intCast {n : ℤ} (hn : |n| < 2 ^ 53) {q : ℚ} (h : q ≤ (n : ℚ)) :
    roundToUlp q ≤ n := by
  have hn' : |(n : ℚ)| < 2 ^ 53 := by exact_mod_cast hn
  by_cases hu : ulpExponent q ≤ 0
  · obtain ⟨m, hm⟩ := exists_multiple hu n
    rw [hm] at h ⊢
    exact roundToUlp_le h
  · rcases large_of_ulpExponent_pos (q := q) (by omega) with ⟨hq, _⟩ | ⟨_, hround⟩
    · have hhigh := (abs_lt.mp hn').2
      linarith
    · have hlow := (abs_lt.mp hn').1
      linarith

theorem le_toBinary64 {n : ℤ} (hn : |n| < 2 ^ 53) {q r : ℚ} (hr : toBinary64 q = some r)
    (h : (n : ℚ) ≤ q) : (n : ℚ) ≤ r := by
  unfold toBinary64 at hr
  split at hr
  · cases hr
    exact intCast_le_roundToUlp hn h
  · cases hr

theorem toBinary64_le {n : ℤ} (hn : |n| < 2 ^ 53) {q r : ℚ} (hr : toBinary64 q = some r)
    (h : q ≤ (n : ℚ)) : r ≤ n := by
  unfold toBinary64 at hr
  split at hr
  · cases hr
    exact roundToUlp_le_intCast hn h
  · cases hr

/-- **An integer below `2^53` is its own double.** -/
theorem toBinary64_intCast {n : ℤ} (hn : |n| < 2 ^ 53) : toBinary64 (n : ℚ) = some (n : ℚ) := by
  have hround : roundToUlp n = n :=
    le_antisymm (roundToUlp_le_intCast hn le_rfl) (intCast_le_roundToUlp hn le_rfl)
  have hn' : |(n : ℚ)| < 2 ^ 53 := by exact_mod_cast hn
  unfold toBinary64
  rw [hround, if_pos (lt_of_lt_of_le hn' (pow_le_pow_right₀ (by norm_num) (by norm_num)))]

/-- A number from `2^53` on has a double from there on. -/
theorem two_pow_le_toBinary64 {q r : ℚ} (hr : toBinary64 q = some r) (h : (2 : ℚ) ^ 53 ≤ q) :
    (2 : ℚ) ^ 53 ≤ r := by
  have hpos : (0 : ℚ) < q := lt_of_lt_of_le (by norm_num) h
  have hlog : 53 ≤ Int.log 2 |q| := by
    rw [abs_of_pos hpos, ← Int.zpow_le_iff_le_log (by norm_num) hpos]
    exact_mod_cast h
  have hulp : 0 < ulpExponent q := by
    unfold ulpExponent
    omega
  unfold toBinary64 at hr
  split at hr
  · cases hr
    rcases large_of_ulpExponent_pos hulp with ⟨-, hround⟩ | ⟨hneg, -⟩
    · exact hround
    · linarith
  · cases hr

/-! ## §4. A double is its own. -/

/-- A power of two that bounds a number bounds its double, unless it lies between the doubles. -/
theorem abs_roundToUlp_le {q : ℚ} {b : ℤ} (hb : ulpExponent q ≤ b) (h : |q| ≤ 2 ^ b) :
    |roundToUlp q| ≤ 2 ^ b := by
  obtain ⟨k, hk⟩ : ∃ k : ℕ, b = ulpExponent q + k := ⟨(b - ulpExponent q).toNat, by omega⟩
  have hpow : (2 : ℚ) ^ b = ((2 ^ k : ℤ) : ℚ) * 2 ^ ulpExponent q := by
    rw [hk, zpow_add₀ (by norm_num), zpow_natCast, mul_comm]
    push_cast
    rfl
  have hneg : -(2 : ℚ) ^ b = ((-2 ^ k : ℤ) : ℚ) * 2 ^ ulpExponent q := by
    rw [hpow]
    push_cast
    ring
  rw [abs_le] at h ⊢
  constructor
  · rw [hneg] at h ⊢
    exact le_roundToUlp h.1
  · rw [hpow] at h ⊢
    exact roundToUlp_le h.2

/-- What is a multiple of a power of two is one of any smaller power. -/
theorem exists_multiple_of_le {u v : ℤ} (h : v ≤ u) (z : ℤ) :
    ∃ m : ℤ, (z : ℚ) * 2 ^ u = m * 2 ^ v := by
  obtain ⟨k, rfl⟩ : ∃ k : ℕ, u = v + k := ⟨(u - v).toNat, by omega⟩
  refine ⟨z * 2 ^ k, ?_⟩
  rw [zpow_add₀ (by norm_num), zpow_natCast]
  push_cast
  ring

/-- A rounded number is a multiple of its own last significand bit. -/
theorem exists_multiple_roundToUlp (q : ℚ) :
    ∃ m : ℤ, roundToUlp q = m * 2 ^ ulpExponent (roundToUlp q) := by
  by_cases hle : ulpExponent (roundToUlp q) ≤ ulpExponent q
  · exact exists_multiple_of_le hle (roundHalfEven (q / 2 ^ ulpExponent q))
  · -- the number was rounded up to the power of two above it
    rw [not_le] at hle
    generalize hr : roundToUlp q = r at hle ⊢
    have hulp : ulpExponent r = Int.log 2 |r| - 52 := by
      unfold ulpExponent at hle ⊢
      omega
    by_cases hzero : r = 0
    · exact ⟨0, by rw [hzero]; simp⟩
    have hpos : 0 < |r| := abs_pos.mpr hzero
    have hbelow : (2 : ℚ) ^ Int.log 2 |r| ≤ |r| := by
      exact_mod_cast Int.zpow_log_le_self (b := 2) (by norm_num) hpos
    have hq : |q| < 2 ^ (Int.log 2 |q| + 1) := by
      exact_mod_cast Int.lt_zpow_succ_log_self (b := 2) (by norm_num) |q|
    have habove : |r| ≤ 2 ^ max (Int.log 2 |q| + 1) (ulpExponent q) := by
      rw [← hr]
      refine abs_roundToUlp_le (le_max_right _ _) (hq.le.trans ?_)
      exact zpow_le_zpow_right₀ (by norm_num) (le_max_left _ _)
    have hlog : Int.log 2 |r| ≤ max (Int.log 2 |q| + 1) (ulpExponent q) :=
      (zpow_le_zpow_iff_right₀ (by norm_num : (1 : ℚ) < 2)).mp (hbelow.trans habove)
    have hmax : max (Int.log 2 |q| + 1) (ulpExponent q) = Int.log 2 |r| := by
      unfold ulpExponent at hle hlog ⊢
      omega
    rw [hmax] at habove
    have habs : |r| = ((2 ^ 52 : ℤ) : ℚ) * 2 ^ ulpExponent r := by
      rw [le_antisymm habove hbelow, ← two_pow_split, hulp]
      congr 1
      omega
    rcases abs_choice r with h | h
    · exact ⟨2 ^ 52, by rw [← habs, h]⟩
    · refine ⟨-2 ^ 52, ?_⟩
      push_cast at habs ⊢
      linarith

theorem roundToUlp_idem (q : ℚ) : roundToUlp (roundToUlp q) = roundToUlp q := by
  obtain ⟨m, hm⟩ := exists_multiple_roundToUlp q
  apply le_antisymm
  · have hle := roundToUlp_le hm.le
    rwa [← hm] at hle
  · have hle := le_roundToUlp hm.ge
    rwa [← hm] at hle

/-- **A double is its own double.** -/
theorem toBinary64_idem {q r : ℚ} (h : toBinary64 q = some r) : toBinary64 r = some r := by
  unfold toBinary64 at h ⊢
  split at h
  next hfinite =>
    cases h
    rw [roundToUlp_idem, if_pos hfinite]
  next => cases h

/-- A double is a multiple of the smallest one. -/
theorem exists_smallest {q : ℚ} (h : toBinary64 q = some q) : ∃ m : ℤ, q = m * 2 ^ (-1074 : ℤ) := by
  have hround : roundToUlp q = q := by
    unfold toBinary64 at h
    split at h
    · exact Option.some.inj h
    · cases h
  obtain ⟨m, hm⟩ := exists_multiple_of_le (le_max_right (Int.log 2 |q| - 52) (-1074))
    (roundHalfEven (q / 2 ^ ulpExponent q))
  exact ⟨m, hround.symm.trans hm⟩

end Binary64
