/-
  ClipTown.Lib.Tenures — who holds a resource, and for how long.

  Every client wants one resource.  `holding i` is the time since when the
  client `i` truly holds its resource, `tenure i` is from when to when it held
  it.  To lose a resource leaves no tenure behind; only to give it back does.

    • `Exclusive` — one holder at a time, and tenures that do not overlap,
    • `Exclusive.lose`, `Exclusive.take`, `Exclusive.give` — what keeps it.

  Nothing here mentions any particular resource.
-/
import Mathlib.Logic.Function.Basic
import Mathlib.Data.Nat.Notation

namespace Tenures

variable {ι ρ : Type*}

/-- One holder at a time, and tenures that do not overlap. -/
structure Exclusive (resource : ι → ρ) (clock : ℕ) (holding : ι → Option ℕ)
    (tenure : ι → Option (ℕ × ℕ)) : Prop where
  one : ∀ {i j t u}, resource i = resource j → holding i = some t → holding j = some u → i = j
  since_lt : ∀ {i t}, holding i = some t → t < clock
  tenure_lt : ∀ {i a b}, tenure i = some (a, b) → a < b ∧ b < clock
  disjoint : ∀ {i j a b c d}, i ≠ j → resource i = resource j → tenure i = some (a, b) →
    tenure j = some (c, d) → b < c ∨ d < a
  after_tenure : ∀ {i j a b t}, i ≠ j → resource i = resource j → tenure i = some (a, b) →
    holding j = some t → b < t

namespace Exclusive

variable {resource : ι → ρ} {clock : ℕ} {holding holding' : ι → Option ℕ}
  {tenure : ι → Option (ℕ × ℕ)}

/-- Nobody holds anything at the start. -/
theorem start (resource : ι → ρ) :
    Exclusive resource 0 (fun _ => none) (fun _ => none) where
  one _ h := absurd h (by simp)
  since_lt h := absurd h (by simp)
  tenure_lt h := absurd h (by simp)
  disjoint _ _ h := absurd h (by simp)
  after_tenure _ _ h := absurd h (by simp)

/-- Time passes, and holders may lose what they hold. -/
theorem lose (h : Exclusive resource clock holding tenure)
    (hless : ∀ i t, holding' i = some t → holding i = some t) :
    Exclusive resource (clock + 1) holding' tenure where
  one hr hi hj := h.one hr (hless _ _ hi) (hless _ _ hj)
  since_lt hi := by
    have hlt := h.since_lt (hless _ _ hi)
    omega
  tenure_lt ht := by
    have hlt := h.tenure_lt ht
    omega
  disjoint hne hr hi hj := h.disjoint hne hr hi hj
  after_tenure hne hr hi hj := h.after_tenure hne hr hi (hless _ _ hj)

/-- A client takes a resource that nobody else holds. -/
theorem take (h : Exclusive resource clock holding tenure) {i : ι}
    (hnew : ∀ j t, holding' j = some t → (j = i ∧ t = clock) ∨ (j ≠ i ∧ holding j = some t))
    (hfree : ∀ j t, j ≠ i → resource j = resource i → holding j ≠ some t) :
    Exclusive resource (clock + 1) holding' tenure where
  one := by
    intro j k t u hr hj hk
    rcases hnew j t hj with ⟨hji, -⟩ | ⟨hji, hj⟩ <;> rcases hnew k u hk with ⟨hki, -⟩ | ⟨hki, hk⟩
    · rw [hji, hki]
    · exact absurd hk (hfree k u hki (by rw [← hr, hji]))
    · exact absurd hj (hfree j t hji (by rw [hr, hki]))
    · exact h.one hr hj hk
  since_lt := by
    intro j t hj
    rcases hnew j t hj with ⟨-, ht⟩ | ⟨-, hj⟩
    · omega
    · have hlt := h.since_lt hj
      omega
  tenure_lt ht := by
    have hlt := h.tenure_lt ht
    omega
  disjoint hne hr hi hj := h.disjoint hne hr hi hj
  after_tenure := by
    intro j k a b t hne hr hj hk
    rcases hnew k t hk with ⟨-, ht⟩ | ⟨-, hk⟩
    · have hlt := h.tenure_lt hj
      omega
    · exact h.after_tenure hne hr hj hk

/-- A client gives back what it truly holds: its tenure ends now. -/
theorem give [DecidableEq ι] (h : Exclusive resource clock holding tenure) {i : ι} {a : ℕ}
    (hi : holding i = some a)
    (hnew : ∀ j t, holding' j = some t → j ≠ i ∧ holding j = some t) :
    Exclusive resource (clock + 1) holding' (Function.update tenure i (some (a, clock))) where
  one hr hj hk := h.one hr (hnew _ _ hj).2 (hnew _ _ hk).2
  since_lt hj := by
    have hlt := h.since_lt (hnew _ _ hj).2
    omega
  tenure_lt := by
    intro j b c hj
    by_cases hji : j = i
    · rw [hji, Function.update_self] at hj
      cases hj
      have hlt := h.since_lt hi
      omega
    · rw [Function.update_of_ne hji] at hj
      have hlt := h.tenure_lt hj
      omega
  disjoint := by
    intro j k b c d e hne hr hj hk
    by_cases hji : j = i
    · rw [hji] at hne hr hj
      rw [Function.update_self] at hj
      rw [Function.update_of_ne (Ne.symm hne)] at hk
      cases hj
      -- what the other one held ended before this was taken
      exact .inr (h.after_tenure (Ne.symm hne) hr.symm hk hi)
    · rw [Function.update_of_ne hji] at hj
      by_cases hki : k = i
      · rw [hki] at hr hk
        rw [Function.update_self] at hk
        cases hk
        exact .inl (h.after_tenure hji hr hj hi)
      · rw [Function.update_of_ne hki] at hk
        exact h.disjoint hne hr hj hk
  after_tenure := by
    intro j k b c t hne hr hj hk
    obtain ⟨hki, hk⟩ := hnew k t hk
    by_cases hji : j = i
    · rw [hji] at hne hr
      exact absurd (h.one hr hi hk) hne
    · rw [Function.update_of_ne hji] at hj
      exact h.after_tenure hne hr hj hk

end Exclusive

end Tenures
