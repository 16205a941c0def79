/-
  ClipTown.Lib.IndexedList — lists whose members record their own position.

  A list is `Indexed` when its `i`-th member carries the index `i`.  Such a
  list is determined by its members: an indexed list all of whose members
  occur in another indexed list is a PREFIX of it (`Indexed.prefix_of_subset`).
  With a positive weight on every member, equal total weights then leave no
  room for a shorter prefix (`Indexed.eq_of_subset`).

  `Edits` is the closure of the four elementary edits of a list; no pair of
  lists is out of its reach (`edits_total`), so a statement about ALL edited
  lists is a statement about all lists.
-/
import Mathlib.Algebra.BigOperators.Group.List.Basic
import Mathlib.Algebra.Order.BigOperators.Group.List
import Mathlib.Algebra.Ring.Nat
import Mathlib.Data.List.Basic
import Mathlib.Logic.Relation

namespace IndexedList

variable {α : Type*}

/-! ## §1. Recorded positions. -/

/-- Every member records its own position. -/
def Indexed (idx : α → Nat) (l : List α) : Prop := l.map idx = List.range l.length

theorem Indexed.idx_getElem {idx : α → Nat} {l : List α} (h : Indexed idx l) {i : Nat}
    (hi : i < l.length) : idx l[i] = i := by
  have hmap : (l.map idx)[i]? = some i := by
    rw [show l.map idx = List.range l.length from h, List.getElem?_range hi]
  rw [List.getElem?_map, List.getElem?_eq_getElem hi] at hmap
  exact Option.some.inj hmap

/-- **An indexed list made of another's members is a prefix of it.** -/
theorem Indexed.prefix_of_subset {idx : α → Nat} {l l' : List α} (h : Indexed idx l)
    (h' : Indexed idx l') (hsub : l' ⊆ l) : l' <+: l := by
  -- the member at position `i` of `l'` sits in `l`, and there only position `i` fits it
  have hmem : ∀ i (hi : i < l'.length), ∃ hi' : i < l.length, l'[i] = l[i] := by
    intro i hi
    obtain ⟨j, hj, heq⟩ := List.getElem_of_mem (hsub (List.getElem_mem hi))
    have hij : j = i := by
      rw [← h.idx_getElem hj, heq, h'.idx_getElem hi]
    subst hij
    exact ⟨hj, heq.symm⟩
  have hlen : l'.length ≤ l.length := by
    by_contra hlt
    obtain ⟨hbad, _⟩ := hmem l.length (by omega)
    omega
  rw [List.prefix_iff_eq_take]
  refine List.ext_getElem (by simp [hlen]) ?_
  intro i hi _
  obtain ⟨hi', heq⟩ := hmem i hi
  rw [heq, List.getElem_take]

/-! ## §2. Positive weights. -/

/-- A proper prefix of a positively weighted list weighs strictly less. -/
theorem eq_of_prefix_of_sum_eq {weight : α → Nat} {l l' : List α} (hpre : l' <+: l)
    (hpos : ∀ a ∈ l, 0 < weight a) (hsum : (l'.map weight).sum = (l.map weight).sum) :
    l' = l := by
  obtain ⟨rest, rfl⟩ := hpre
  have hrest : (rest.map weight).sum = 0 := by
    rw [List.map_append, List.sum_append] at hsum
    omega
  cases rest with
  | nil => exact (List.append_nil l').symm
  | cons a rest =>
      have ha : 0 < weight a := hpos a (by simp)
      rw [List.map_cons, List.sum_cons] at hrest
      omega

/-- **Indexed, positively weighted, of one total weight**: then neither list can
be made of some of the other's members without being the other. -/
theorem Indexed.eq_of_subset {idx weight : α → Nat} {l l' : List α} (h : Indexed idx l)
    (h' : Indexed idx l') (hpos : ∀ a ∈ l, 0 < weight a)
    (hsum : (l'.map weight).sum = (l.map weight).sum) (hsub : l' ⊆ l) : l' = l :=
  eq_of_prefix_of_sum_eq (h.prefix_of_subset h' hsub) hpos hsum

/-! ## §3. Edits. -/

/-- One elementary edit of a list. -/
inductive Edit : List α → List α → Prop
  | remove (pre : List α) (a : α) (post : List α) : Edit (pre ++ a :: post) (pre ++ post)
  | duplicate (pre : List α) (a : α) (post : List α) :
      Edit (pre ++ a :: post) (pre ++ a :: a :: post)
  | insert (pre : List α) (a : α) (post : List α) : Edit (pre ++ post) (pre ++ a :: post)
  | reorder {l l' : List α} (h : l.Perm l') : Edit l l'

/-- Any number of elementary edits, one after the other. -/
abbrev Edits : List α → List α → Prop := Relation.ReflTransGen Edit

theorem edits_nil : ∀ l : List α, Edits l []
  | [] => .refl
  | a :: l => (Relation.ReflTransGen.single (Edit.remove [] a l)).trans (edits_nil l)

theorem nil_edits : ∀ l : List α, Edits [] l
  | [] => .refl
  | a :: l => (nil_edits l).tail (Edit.insert [] a l)

/-- Removals and insertions together reach every list. -/
theorem edits_total (l l' : List α) : Edits l l' :=
  (edits_nil l).trans (nil_edits l')

end IndexedList
