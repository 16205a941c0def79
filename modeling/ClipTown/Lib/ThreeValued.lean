/-
  ClipTown.Lib.ThreeValued — the truth values of SQL, and `in` over a list.

  A comparison with NULL is neither true nor false.  `v in (a, b, …)` is the
  disjunction of the comparisons, and a `check` constraint refuses a row only
  where its condition is false:

    • `passes_isIn_some` — a value passes the list that has it, and every list
      that has NULL,
    • `passes_isIn_none` — NULL passes every list that is not empty.
-/
import Mathlib.Data.List.Basic

namespace ThreeValued

/-! ## §1. Truth values. -/

inductive Truth where
  | no
  | unknown
  | yes
  deriving DecidableEq, Repr

/-- Disjunction: the larger of the two, where `unknown` stands in the middle. -/
def Truth.or : Truth → Truth → Truth
  | .yes, _ => .yes
  | _, .yes => .yes
  | .unknown, _ => .unknown
  | _, .unknown => .unknown
  | .no, .no => .no

theorem Truth.or_eq_no {a b : Truth} : a.or b = .no ↔ a = .no ∧ b = .no := by
  cases a <;> cases b <;> decide

/-- What a `check` constraint lets pass. -/
def Truth.Passes (t : Truth) : Prop := t ≠ .no

instance (t : Truth) : Decidable t.Passes := by unfold Truth.Passes; infer_instance

/-! ## §2. Comparisons; NULL is `none`. -/

section

variable {α : Type*} [DecidableEq α]

/-- `v = w`. -/
def equal : Option α → Option α → Truth
  | some a, some b => if a = b then .yes else .no
  | _, _ => .unknown

/-- `v in (…)`. -/
def isIn (v : Option α) : List (Option α) → Truth
  | [] => .no
  | w :: rest => (equal v w).or (isIn v rest)

theorem equal_eq_no {v w : Option α} :
    equal v w = .no ↔ ∃ a b, v = some a ∧ w = some b ∧ a ≠ b := by
  cases v with
  | none => simp [equal]
  | some a =>
      cases w with
      | none => simp [equal]
      | some b => simp [equal]

/-- The list is false only where every comparison is. -/
theorem isIn_eq_no {v : Option α} {list : List (Option α)} :
    isIn v list = .no ↔ ∀ w ∈ list, equal v w = .no := by
  induction list with
  | nil => simp [isIn]
  | cons w list ih =>
      unfold isIn
      rw [Truth.or_eq_no, ih, List.forall_mem_cons]

/-- **A value passes the list that has it, and every list that has NULL.** -/
theorem passes_isIn_some {a : α} {list : List (Option α)} :
    (isIn (some a) list).Passes ↔ some a ∈ list ∨ none ∈ list := by
  unfold Truth.Passes
  rw [ne_eq, isIn_eq_no]
  push Not
  constructor
  · intro hex
    obtain ⟨w, hw, hne⟩ := hex
    cases w with
    | none => exact .inr hw
    | some b =>
        by_cases hab : a = b
        · exact .inl (hab ▸ hw)
        · exact absurd (equal_eq_no.mpr ⟨a, b, rfl, rfl, hab⟩) hne
  · intro h
    rcases h with hmem | hmem
    · refine ⟨some a, hmem, ?_⟩
      intro hno
      obtain ⟨b, c, hb, hc, hne⟩ := equal_eq_no.mp hno
      exact hne ((Option.some.inj hb).symm.trans (Option.some.inj hc))
    · -- the comparison with NULL is unknown, and so the list is never false
      refine ⟨none, hmem, ?_⟩
      intro hno
      obtain ⟨_, _, _, hnone, _⟩ := equal_eq_no.mp hno
      cases hnone

/-- **NULL passes every list that is not empty.** -/
theorem passes_isIn_none {list : List (Option α)} :
    (isIn none list).Passes ↔ list ≠ [] := by
  unfold Truth.Passes
  rw [ne_eq, isIn_eq_no]
  constructor
  · intro hnot hnil
    apply hnot
    rw [hnil]
    intro w hw
    cases hw
  · intro hne hall
    obtain ⟨w, hw⟩ := List.exists_mem_of_ne_nil list hne
    obtain ⟨a, _, hnone, _⟩ := equal_eq_no.mp (hall w hw)
    cases hnone

end

end ThreeValued
