/-
  ClipTown.Lib.CheckedArith — checked machine arithmetic, read in the integers.

  A checked operation returns the exact integer result when it fits in the
  word and nothing otherwise.  Each `…_eq_some` lemma states that in unbounded
  arithmetic, so a proof about a program with checked operations is a proof
  about integers with side conditions that `omega` can use.
-/
import Mathlib.Algebra.Order.Ring.Int
import Mathlib.Order.Lattice

namespace CheckedArith

/-! ## §1. Signed 64-bit words. -/

/-- The integer `z` fits in a signed 64-bit word. -/
def FitsI64 (z : Int) : Prop := -2 ^ 63 ≤ z ∧ z < 2 ^ 63

instance : DecidablePred FitsI64 := fun z => by unfold FitsI64; infer_instance

theorem fitsI64_toInt (a : Int64) : FitsI64 a.toInt := by
  have hlo := Int64.le_toInt a
  have hhi := Int64.toInt_lt a
  exact ⟨hlo, hhi⟩

/-- The word holding `z`, when `z` fits. -/
def ofIntI64? (z : Int) : Option Int64 :=
  if FitsI64 z then some (Int64.ofInt z) else none

theorem ofIntI64?_eq_some {z : Int} {c : Int64} :
    ofIntI64? z = some c ↔ FitsI64 z ∧ c.toInt = z := by
  unfold ofIntI64?
  constructor
  · intro h
    split at h
    next hz =>
      obtain rfl := Option.some.inj h
      exact ⟨hz, Int64.toInt_ofInt_of_le hz.1 hz.2⟩
    next => cases h
  · intro hall
    obtain ⟨hz, rfl⟩ := hall
    rw [if_pos hz, Int64.ofInt_toInt]

/-- `i64::checked_add`. -/
def checkedAddI64 (a b : Int64) : Option Int64 := ofIntI64? (a.toInt + b.toInt)

/-- `i64::checked_sub`. -/
def checkedSubI64 (a b : Int64) : Option Int64 := ofIntI64? (a.toInt - b.toInt)

theorem checkedAddI64_eq_some {a b c : Int64} :
    checkedAddI64 a b = some c ↔ FitsI64 (a.toInt + b.toInt) ∧ c.toInt = a.toInt + b.toInt :=
  ofIntI64?_eq_some

theorem checkedSubI64_eq_some {a b c : Int64} :
    checkedSubI64 a b = some c ↔ FitsI64 (a.toInt - b.toInt) ∧ c.toInt = a.toInt - b.toInt :=
  ofIntI64?_eq_some

/-- Two non-negative words never differ by more than a word holds. -/
theorem checkedSubI64_isSome {a b : Int64} (ha : 0 ≤ a.toInt) (hb : 0 ≤ b.toInt) :
    ∃ c, checkedSubI64 a b = some c := by
  have hA := fitsI64_toInt a
  have hB := fitsI64_toInt b
  have hfit : FitsI64 (a.toInt - b.toInt) := by
    unfold FitsI64 at *
    omega
  exact ⟨Int64.ofInt (a.toInt - b.toInt), by
    rw [checkedSubI64, ofIntI64?, if_pos hfit]⟩

/-! ## §2. Unsigned 64-bit words. -/

/-- The word holding `n`, when `n` fits. -/
def ofNatU64? (n : Nat) : Option UInt64 :=
  if n < 2 ^ 64 then some (UInt64.ofNat n) else none

theorem ofNatU64?_eq_some {n : Nat} {c : UInt64} :
    ofNatU64? n = some c ↔ c.toNat = n := by
  unfold ofNatU64?
  constructor
  · intro h
    split at h
    next hn =>
      obtain rfl := Option.some.inj h
      exact UInt64.toNat_ofNat_of_lt' hn
    next => cases h
  · intro heq
    subst heq
    rw [if_pos (UInt64.toNat_lt c), UInt64.ofNat_toNat]

/-- `u64::checked_add`. -/
def checkedAddU64 (a b : UInt64) : Option UInt64 := ofNatU64? (a.toNat + b.toNat)

/-- `u64::checked_mul`. -/
def checkedMulU64 (a b : UInt64) : Option UInt64 := ofNatU64? (a.toNat * b.toNat)

/-- `u64::checked_div`. -/
def checkedDivU64 (a b : UInt64) : Option UInt64 := if b = 0 then none else some (a / b)

theorem checkedAddU64_eq_some {a b c : UInt64} :
    checkedAddU64 a b = some c ↔ c.toNat = a.toNat + b.toNat :=
  ofNatU64?_eq_some

/-! ## §3. Running maxima. -/

theorem toNat_max_u64 (a b : UInt64) : (max a b).toNat = max a.toNat b.toNat := by
  show (if a ≤ b then b else a).toNat = max a.toNat b.toNat
  by_cases hab : a ≤ b
  · have := UInt64.le_iff_toNat_le.mp hab
    rw [if_pos hab]
    omega
  · have := UInt64.le_iff_toNat_le.not.mp hab
    rw [if_neg hab]
    omega

/-- The running maximum of `f` over a list, from `start`. -/
def runningMax {α : Type*} (f : α → UInt64) (start : UInt64) (l : List α) : UInt64 :=
  l.foldl (fun highest a => max highest (f a)) start

/-- A start of a maximum can be joined after the list. -/
theorem foldr_max_start {α : Type*} (f : α → Nat) (m n : Nat) (l : List α) :
    l.foldr (fun a k => max (f a) k) (max m n) = max (l.foldr (fun a k => max (f a) k) m) n := by
  induction l with
  | nil => rfl
  | cons a l ih => rw [List.foldr_cons, List.foldr_cons, ih, max_assoc]

/-- A running maximum is the largest of its start and the members' values. -/
theorem runningMax_toNat {α : Type*} (f : α → UInt64) (l : List α) (start : UInt64) :
    (runningMax f start l).toNat = l.foldr (fun a n => max (f a).toNat n) start.toNat := by
  induction l generalizing start with
  | nil => rfl
  | cons a l ih =>
      show (runningMax f (max start (f a)) l).toNat = _
      rw [ih, toNat_max_u64, foldr_max_start (fun a => (f a).toNat), max_comm]
      rfl

theorem le_runningMax {α : Type*} {f : α → UInt64} {start : UInt64} {l : List α} {a : α}
    (ha : a ∈ l) : f a ≤ runningMax f start l := by
  rw [UInt64.le_iff_toNat_le, runningMax_toNat]
  induction l with
  | nil => cases ha
  | cons b l ih =>
      rw [List.foldr_cons]
      rcases List.mem_cons.mp ha with rfl | h
      · exact le_max_left _ _
      · exact le_trans (ih h) (le_max_right _ _)

/-- From zero, a non-empty list attains its running maximum. -/
theorem runningMax_attained {α : Type*} {f : α → UInt64} {l : List α} (hne : l ≠ []) :
    ∃ a ∈ l, f a = runningMax f 0 l := by
  have hattain : ∀ l : List α, l ≠ [] →
      ∃ a ∈ l, (f a).toNat = l.foldr (fun a n => max (f a).toNat n) 0 := by
    intro l
    induction l with
    | nil => intro h; exact absurd rfl h
    | cons a l ih =>
        intro _
        rw [List.foldr_cons]
        by_cases hl : l = []
        · subst hl
          exact ⟨a, List.mem_cons_self, by simp⟩
        · obtain ⟨b, hb, heq⟩ := ih hl
          rcases le_total (f a).toNat (f b).toNat with h | h
          · exact ⟨b, List.mem_cons_of_mem _ hb, by omega⟩
          · exact ⟨a, List.mem_cons_self, by omega⟩
  obtain ⟨a, ha, heq⟩ := hattain l hne
  exact ⟨a, ha, UInt64.toNat_inj.mp (by rw [heq, runningMax_toNat]; rfl)⟩

/-- A running maximum does not depend on the order of the list. -/
theorem runningMax_perm {α : Type*} {f : α → UInt64} {l l' : List α} (h : l.Perm l') :
    runningMax f 0 l = runningMax f 0 l' := by
  by_cases hl : l = []
  · subst hl
    rw [h.nil_eq]
  · have hl' : l' ≠ [] := fun he => hl (h.trans (he ▸ List.Perm.refl _)).eq_nil
    obtain ⟨a, ha, hfa⟩ := runningMax_attained (f := f) hl
    obtain ⟨b, hb, hfb⟩ := runningMax_attained (f := f) hl'
    have hle : f a ≤ runningMax f 0 l' := le_runningMax (h.mem_iff.mp ha)
    have hge : f b ≤ runningMax f 0 l := le_runningMax (h.mem_iff.mpr hb)
    rw [hfa] at hle
    rw [hfb] at hge
    exact UInt64.le_antisymm hle hge

/-- The running maximum of two lists is the larger of theirs. -/
theorem runningMax_append {α : Type*} (f : α → UInt64) (l l' : List α) :
    runningMax f 0 (l ++ l') = max (runningMax f 0 l) (runningMax f 0 l') := by
  apply UInt64.toNat_inj.mp
  rw [toNat_max_u64, runningMax_toNat, runningMax_toNat, runningMax_toNat, List.foldr_append]
  have hstart := foldr_max_start (fun a => (f a).toNat) 0
    (l'.foldr (fun a n => max (f a).toNat n) 0) l
  rw [Nat.zero_max] at hstart
  exact hstart

end CheckedArith
