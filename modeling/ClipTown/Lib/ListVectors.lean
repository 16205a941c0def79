/-
  ClipTown.Lib.ListVectors — real vectors as lists of coordinates, where a
  shorter vector stands for itself followed by zeros.

  The dot product pairs coordinates and ignores what is left over, so padding
  with zeros never changes it.  On that rest the two facts a retrieval index
  needs about unit vectors:

    • `dot_append_zeros` — padding is lossless,
    • `l2Distance_sq` — `|x - y|² = |x|² - 2⟨x, y⟩ + |y|²`,
    • `l2Distance_le_iff` — between unit vectors, nearer in the L2 distance is
      larger in the dot product,
    • `dot_normalized` — the dot product of normalized vectors is the cosine
      similarity of the given ones.
-/
import Mathlib.Analysis.Real.Sqrt
import Mathlib.Algebra.BigOperators.Group.List.Basic
import Mathlib.Tactic.Linarith
import Mathlib.Tactic.Ring

namespace ListVectors

/-! ## §1. The dot product. -/

section Dot

variable {R : Type*} [CommRing R]

/-- The sum of the products of the coordinates, position by position. -/
def dot (x y : List R) : R := (List.zipWith (· * ·) x y).sum

/-- The sum of the squared differences of the coordinates. -/
def sqDistance (x y : List R) : R := (List.zipWith (fun a b => (a - b) * (a - b)) x y).sum

/-- `x` and then zeros, up to `width`. -/
def zeroExtend (width : Nat) (x : List R) : List R := x ++ List.replicate (width - x.length) 0

@[simp] theorem dot_nil (y : List R) : dot [] y = 0 := by simp [dot]

@[simp] theorem dot_nil_right (x : List R) : dot x [] = 0 := by simp [dot]

@[simp] theorem dot_cons (a b : R) (x y : List R) : dot (a :: x) (b :: y) = a * b + dot x y := by
  simp [dot]

theorem dot_comm (x y : List R) : dot x y = dot y x := by
  unfold dot
  rw [List.zipWith_comm]
  simp only [mul_comm]

theorem dot_zeros (n : Nat) : ∀ y : List R, dot (List.replicate n 0) y = 0 := by
  induction n with
  | zero => intro y; rw [List.replicate_zero, dot_nil]
  | succ n ih =>
      intro y
      cases y with
      | nil => rw [dot_nil_right]
      | cons b y => rw [List.replicate_succ, dot_cons, ih, zero_mul, zero_add]

/-- **Padding with zeros is lossless.** -/
theorem dot_append_zeros (n : Nat) (x y : List R) :
    dot (x ++ List.replicate n 0) y = dot x y := by
  induction x generalizing y with
  | nil => rw [List.nil_append, dot_zeros, dot_nil]
  | cons a x ih =>
      cases y with
      | nil => rw [dot_nil_right, dot_nil_right]
      | cons b y => rw [List.cons_append, dot_cons, dot_cons, ih]

theorem dot_zeroExtend (m n : Nat) (x y : List R) :
    dot (zeroExtend m x) (zeroExtend n y) = dot x y := by
  unfold zeroExtend
  rw [dot_append_zeros, dot_comm, dot_append_zeros, dot_comm]

theorem length_zeroExtend {width : Nat} {x : List R} (h : x.length ≤ width) :
    (zeroExtend width x).length = width := by
  unfold zeroExtend
  rw [List.length_append, List.length_replicate]
  omega

/-- Past the given coordinates an extension is zero. -/
theorem drop_zeroExtend {width n : Nat} {x : List R} (h : x.length ≤ n) :
    (zeroExtend width x).drop n = List.replicate (width - n) 0 := by
  unfold zeroExtend
  rw [List.drop_append, List.drop_eq_nil_of_le h, List.nil_append, List.drop_replicate]
  congr 1
  omega

/-- `|x - y|² = |x|² - 2⟨x, y⟩ + |y|²`, over coordinates that pair up. -/
theorem sqDistance_eq {x y : List R} (h : x.length = y.length) :
    sqDistance x y = dot x x - 2 * dot x y + dot y y := by
  induction x generalizing y with
  | nil =>
      obtain rfl := List.length_eq_zero_iff.mp h.symm
      simp [sqDistance]
  | cons a x ih =>
      cases y with
      | nil => cases h
      | cons b y =>
          have hrest := ih (Nat.succ.inj h)
          unfold sqDistance at hrest ⊢
          rw [List.zipWith_cons_cons, List.sum_cons, hrest, dot_cons, dot_cons, dot_cons]
          ring

end Dot

/-! ## §2. Norms and distances. -/

theorem dot_self_nonneg (x : List ℝ) : 0 ≤ dot x x := by
  induction x with
  | nil => rw [dot_nil]
  | cons a x ih =>
      rw [dot_cons]
      have := mul_self_nonneg a
      linarith

theorem sqDistance_nonneg (x y : List ℝ) : 0 ≤ sqDistance x y := by
  unfold sqDistance
  induction x generalizing y with
  | nil => simp
  | cons a x ih =>
      cases y with
      | nil => simp
      | cons b y =>
          rw [List.zipWith_cons_cons, List.sum_cons]
          have := mul_self_nonneg (a - b)
          have := ih y
          linarith

/-- The Euclidean norm. -/
noncomputable def l2Norm (x : List ℝ) : ℝ := √(dot x x)

/-- The Euclidean distance. -/
noncomputable def l2Distance (x y : List ℝ) : ℝ := √(sqDistance x y)

/-- The cosine of the angle between two vectors. -/
noncomputable def cosineSimilarity (x y : List ℝ) : ℝ := dot x y / (l2Norm x * l2Norm y)

theorem l2Norm_mul_self (x : List ℝ) : l2Norm x * l2Norm x = dot x x :=
  Real.mul_self_sqrt (dot_self_nonneg x)

theorem l2Norm_zeroExtend (width : Nat) (x : List ℝ) : l2Norm (zeroExtend width x) = l2Norm x := by
  unfold l2Norm
  rw [dot_zeroExtend]

theorem cosineSimilarity_zeroExtend (m n : Nat) (x y : List ℝ) :
    cosineSimilarity (zeroExtend m x) (zeroExtend n y) = cosineSimilarity x y := by
  unfold cosineSimilarity
  rw [dot_zeroExtend, l2Norm_zeroExtend, l2Norm_zeroExtend]

/-- Between unit vectors the squared distance is `2 - 2⟨x, y⟩`. -/
theorem sqDistance_unit {x y : List ℝ} (hlen : x.length = y.length) (hx : l2Norm x = 1)
    (hy : l2Norm y = 1) : sqDistance x y = 2 - 2 * dot x y := by
  rw [sqDistance_eq hlen, ← l2Norm_mul_self x, ← l2Norm_mul_self y, hx, hy]
  ring

/-- **Between unit vectors, nearer means a larger dot product.** -/
theorem l2Distance_le_iff {q x y : List ℝ} (hx : q.length = x.length) (hy : q.length = y.length)
    (hq₁ : l2Norm q = 1) (hx₁ : l2Norm x = 1) (hy₁ : l2Norm y = 1) :
    l2Distance q x ≤ l2Distance q y ↔ dot q y ≤ dot q x := by
  unfold l2Distance
  rw [Real.sqrt_le_sqrt_iff (sqDistance_nonneg q y), sqDistance_unit hx hq₁ hx₁,
    sqDistance_unit hy hq₁ hy₁]
  constructor
  · intro h
    linarith
  · intro h
    linarith

/-! ## §3. Normalizing. -/

/-- The vector divided by its norm. -/
noncomputable def normalized (x : List ℝ) : List ℝ := x.map (fun a => a / l2Norm x)

theorem dot_map_div (c d : ℝ) (x y : List ℝ) :
    dot (x.map (fun a => a / c)) (y.map (fun a => a / d)) = dot x y / (c * d) := by
  induction x generalizing y with
  | nil => rw [List.map_nil, dot_nil, dot_nil, zero_div]
  | cons a x ih =>
      cases y with
      | nil => rw [List.map_nil, dot_nil_right, dot_nil_right, zero_div]
      | cons b y =>
          rw [List.map_cons, List.map_cons, dot_cons, dot_cons, ih, div_mul_div_comm, add_div]

/-- **The dot product of normalized vectors is the cosine similarity.** -/
theorem dot_normalized (x y : List ℝ) :
    dot (normalized x) (normalized y) = cosineSimilarity x y :=
  dot_map_div _ _ x y

theorem l2Norm_normalized {x : List ℝ} (hx : 0 < l2Norm x) : l2Norm (normalized x) = 1 := by
  have hself : dot (normalized x) (normalized x) = 1 := by
    rw [dot_normalized, cosineSimilarity, l2Norm_mul_self]
    exact div_self (Real.sqrt_pos.mp hx).ne'
  unfold l2Norm at hself ⊢
  rw [hself, Real.sqrt_one]

end ListVectors
