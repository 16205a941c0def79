/-
  ClipTown.Lib.DependencyOrder — lists in which everything stands after what it
  needs.

  `Follows ok` says of every member of a list that it is fine with the members
  before it.  A relation without cycles always leaves a member that needs no
  other, which is why taking such members away, round after round, ends.

    • `follows_append` — a list is checked part by part,
    • `Follows.exists_split` — where a member stands, and what stands before it,
    • `exists_sink` — a finite set without cycles has a member that needs none.
-/
import Mathlib.Data.Set.Finite.Basic
import Mathlib.Logic.Relation
import Mathlib.Order.WellFounded

namespace DependencyOrder

variable {α : Type*}

/-! ## §1. Each after what it needs. -/

/-- Every member is fine with what stands before it. -/
def Follows (ok : List α → α → Prop) : List α → List α → Prop
  | _, [] => True
  | before, a :: rest => ok before a ∧ Follows ok (before ++ [a]) rest

instance decidableFollows {ok : List α → α → Prop} [∀ before a, Decidable (ok before a)] :
    ∀ before l, Decidable (Follows ok before l)
  | _, [] => isTrue trivial
  | before, a :: rest =>
      have : Decidable (Follows ok (before ++ [a]) rest) := decidableFollows (before ++ [a]) rest
      inferInstanceAs (Decidable (ok before a ∧ Follows ok (before ++ [a]) rest))

theorem follows_append {ok : List α → α → Prop} {before l l' : List α} :
    Follows ok before (l ++ l') ↔ Follows ok before l ∧ Follows ok (before ++ l) l' := by
  induction l generalizing before with
  | nil =>
      rw [List.nil_append, List.append_nil]
      exact ⟨fun h => ⟨trivial, h⟩, fun h => h.2⟩
  | cons a l ih =>
      show ok before a ∧ Follows ok (before ++ [a]) (l ++ l') ↔ _
      rw [ih, List.append_assoc, List.singleton_append, ← and_assoc]
      rfl

theorem Follows.mono {ok ok' : List α → α → Prop} {before l : List α}
    (hok : ∀ a ∈ l, ∀ before, ok before a → ok' before a) (h : Follows ok before l) :
    Follows ok' before l := by
  induction l generalizing before with
  | nil => trivial
  | cons a l ih =>
      exact ⟨hok a List.mem_cons_self before h.1,
        ih (fun b hb => hok b (List.mem_cons_of_mem a hb)) h.2⟩

/-- What is fine at the start stays fine behind others. -/
theorem follows_of_forall {ok : List α → α → Prop} {before l : List α}
    (h : ∀ a ∈ l, ∀ more, ok (before ++ more) a) : Follows ok before l := by
  induction l generalizing before with
  | nil => trivial
  | cons a l ih =>
      have hfirst := h a List.mem_cons_self []
      rw [List.append_nil] at hfirst
      refine ⟨hfirst, ih ?_⟩
      intro b hb more
      rw [List.append_assoc]
      exact h b (List.mem_cons_of_mem a hb) _

/-- A member stands somewhere, fine with what stands before it. -/
theorem Follows.exists_split {ok : List α → α → Prop} {before l : List α}
    (h : Follows ok before l) {a : α} (ha : a ∈ l) :
    ∃ pre post, l = pre ++ a :: post ∧ ok (before ++ pre) a := by
  obtain ⟨pre, post, rfl⟩ := List.append_of_mem ha
  exact ⟨pre, post, rfl, ((follows_append.mp h).2).1⟩

/-- A list is in order when each member is fine with what stands before it. -/
theorem follows_of_split {ok : List α → α → Prop} {before l : List α}
    (h : ∀ pre a post, l = pre ++ a :: post → ok (before ++ pre) a) : Follows ok before l := by
  induction l generalizing before with
  | nil => trivial
  | cons a l ih =>
      have hfirst := h [] a l rfl
      rw [List.append_nil] at hfirst
      refine ⟨hfirst, ih ?_⟩
      intro pre b post hl
      rw [List.append_assoc, List.singleton_append]
      exact h (a :: pre) b post (by rw [hl, List.cons_append])

/-! ## §2. Relations without cycles. -/

/-- Nothing needs itself, directly or by way of others. -/
def Acyclic (needs : α → α → Prop) : Prop := ∀ a, ¬ Relation.TransGen needs a a

/-- A relation that descends has no cycle. -/
theorem acyclic_of_rank {needs : α → α → Prop} (rank : α → ℕ)
    (h : ∀ a b, needs a b → rank b < rank a) : Acyclic needs := by
  have hdescends : ∀ a b, Relation.TransGen needs a b → rank b < rank a := by
    intro a b hab
    induction hab with
    | single hab => exact h a _ hab
    | tail _ hbc ih => exact (h _ _ hbc).trans ih
  intro a ha
  exact lt_irrefl (rank a) (hdescends a a ha)

/-- An order in which everything follows what it needs leaves no cycle. -/
theorem acyclic_of_follows {needs : α → α → Prop} {l : List α} (hnodup : l.Nodup)
    (hin : ∀ a b, needs a b → a ∈ l)
    (h : Follows (fun before a => ∀ b, needs a b → b ∈ before) [] l) : Acyclic needs := by
  classical
  refine acyclic_of_rank (fun a => l.idxOf a) ?_
  intro a b hneeds
  obtain ⟨pre, post, rfl, hok⟩ := h.exists_split (hin a b hneeds)
  have hb : b ∈ pre := hok b hneeds
  have ha : a ∉ pre := fun hmem =>
    (List.nodup_append.mp hnodup).2.2 a hmem a List.mem_cons_self rfl
  rw [List.idxOf_append_of_mem hb, List.idxOf_append_of_notMem ha, List.idxOf_cons_self,
    Nat.add_zero]
  exact List.idxOf_lt_length_of_mem hb

/-- **Among finitely many some member needs none of them.** -/
theorem exists_sink {needs : α → α → Prop} (h : Acyclic needs) {l : List α} (hne : l ≠ []) :
    ∃ a ∈ l, ∀ b ∈ l, ¬ needs a b := by
  have hfinite : Finite { a // a ∈ l } := (List.finite_toSet l).to_subtype
  -- the members, each above those it needs
  let below : { a // a ∈ l } → { a // a ∈ l } → Prop :=
    fun b a => Relation.TransGen needs a.val b.val
  have htrans : IsTrans { a // a ∈ l } below := ⟨fun _ _ _ hab hbc => hbc.trans hab⟩
  have hirrefl : Std.Irrefl below := ⟨fun a => h a.val⟩
  have hwf := Finite.wellFounded_of_trans_of_irrefl below
  obtain ⟨a, ha⟩ := List.exists_mem_of_ne_nil l hne
  obtain ⟨least, -, hleast⟩ := hwf.has_min Set.univ ⟨⟨a, ha⟩, trivial⟩
  refine ⟨least.val, least.property, ?_⟩
  intro b hb hneeds
  exact hleast ⟨b, hb⟩ trivial (Relation.TransGen.single hneeds)

end DependencyOrder
