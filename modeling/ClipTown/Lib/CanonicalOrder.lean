/-
  ClipTown.Lib.CanonicalOrder — the canonical order of a list whose members
  carry pairwise distinct keys of a linear order.

  Sorting by the key gives ONE list for all arrangements of the same members
  (`canonical_eq_of_perm`), strictly increasing in the key
  (`canonical_strict`).  Distinctness of the keys is what rules ties out, so
  neither fact depends on the sort being stable.  Some of the members stand in
  the order they have among all (`canonical_of_sublist`).
-/
import Mathlib.Data.List.Nodup
import Mathlib.Data.List.Sort

namespace CanonicalOrder

variable {α κ : Type*} [LinearOrder κ] (key : α → κ)

/-- The members of `l` in ascending key order. -/
def canonical (l : List α) : List α := l.mergeSort (fun a b => key a ≤ key b)

theorem canonical_perm (l : List α) : (canonical key l).Perm l :=
  List.mergeSort_perm l _

@[simp] theorem mem_canonical {l : List α} {a : α} : a ∈ canonical key l ↔ a ∈ l :=
  (canonical_perm key l).mem_iff

/-- Sorting the members by key is sorting the keys. -/
theorem map_canonical (l : List α) :
    (canonical key l).map key = (l.map key).mergeSort (· ≤ ·) :=
  List.map_mergeSort (fun _ _ _ _ => rfl)

/-- Sorting images is taking the images in the order of their keys. -/
theorem canonical_map {β : Type*} (f : β → α) (l : List β) :
    canonical key (l.map f) = (canonical (fun b => key (f b)) l).map f := by
  unfold canonical
  rw [List.map_mergeSort]
  intro a _ b _
  rfl

theorem canonical_pairwise_le (l : List α) :
    (canonical key l).Pairwise (fun a b => key a ≤ key b) := by
  have h : ((l.map key).mergeSort (· ≤ ·)).Pairwise (· ≤ ·) := List.pairwise_mergeSort' _ _
  rw [← map_canonical, List.pairwise_map] at h
  exact h

/-- Members of one key stay as they are. -/
theorem canonical_of_tied {l : List α} (h : ∀ a ∈ l, ∀ b ∈ l, key a = key b) :
    canonical key l = l := by
  unfold canonical
  apply List.mergeSort_of_pairwise
  apply List.pairwise_of_forall_mem_list
  intro a ha b hb
  exact decide_eq_true (h a ha b hb).le

/-- Distinct keys leave no ties: the canonical order is strict. -/
theorem canonical_strict {l : List α} (hkeys : (l.map key).Nodup) :
    (canonical key l).Pairwise (fun a b => key a < key b) := by
  have hne : (canonical key l).Pairwise (fun a b => key a ≠ key b) := by
    have hnodup := (((canonical_perm key l).map key).nodup_iff).mpr hkeys
    exact List.pairwise_map.mp hnodup
  exact (canonical_pairwise_le key l).imp₂ (fun _ _ hle hne' => lt_of_le_of_ne hle hne') hne

/-- An arrangement in ascending key order is the canonical one. -/
theorem eq_canonical {l s : List α} (hkeys : (l.map key).Nodup) (hperm : s.Perm l)
    (hsorted : s.Pairwise (fun a b => key a ≤ key b)) : s = canonical key l := by
  have hperm' : s.Perm (canonical key l) := hperm.trans (canonical_perm key l).symm
  refine hperm'.eq_of_pairwise ?_ hsorted (canonical_pairwise_le key l)
  intro a b ha hb hab hba
  exact List.inj_on_of_nodup_map hkeys (hperm.mem_iff.mp ha) ((mem_canonical key).mp hb)
    (le_antisymm hab hba)

/-- **The canonical order depends on the members only**, not on how they were
arranged. -/
theorem canonical_eq_of_perm {l l' : List α} (hkeys : (l.map key).Nodup) (h : l.Perm l') :
    canonical key l = canonical key l' := by
  have hkeys' : (l'.map key).Nodup := ((h.map key).nodup_iff).mp hkeys
  exact eq_canonical key hkeys' ((canonical_perm key l).trans h) (canonical_pairwise_le key l)

/-- **Some of the members stand in the order they have among all.** -/
theorem canonical_filter {l : List α} (hkeys : (l.map key).Nodup) (p : α → Bool) :
    (canonical key l).filter p = canonical key (l.filter p) := by
  have hsub : (l.filter p).map key |>.Sublist (l.map key) := List.filter_sublist.map key
  refine eq_canonical key (hkeys.sublist hsub) ((canonical_perm key l).filter p) ?_
  exact (canonical_pairwise_le key l).filter p

/-- The members of a sublist are those of the list that the sublist has. -/
theorem sublist_perm_filter [DecidableEq α] {l part : List α} (hl : l.Nodup)
    (hpart : part.Sublist l) : part.Perm (l.filter (fun a => a ∈ part)) := by
  rw [List.perm_ext_iff_of_nodup (hl.sublist hpart) (hl.filter _)]
  intro a
  rw [List.mem_filter, decide_eq_true_iff]
  exact ⟨fun ha => ⟨hpart.subset ha, ha⟩, fun ha => ha.2⟩

/-- **The canonical order of a sublist is the restriction of the whole one.** -/
theorem canonical_of_sublist [DecidableEq α] {l part : List α} (hkeys : (l.map key).Nodup)
    (hpart : part.Sublist l) :
    canonical key part = (canonical key l).filter (fun a => a ∈ part) := by
  rw [canonical_filter key hkeys]
  have hkeysPart : (part.map key).Nodup := hkeys.sublist (hpart.map key)
  exact canonical_eq_of_perm key hkeysPart (sublist_perm_filter (hkeys.of_map key) hpart)

/-! ## Who stands before whom. -/

/-- In ascending order the smaller of two members stands first. -/
theorem pair_sublist_of_lt {l : List α} (hsorted : l.Pairwise (fun a b => key a ≤ key b)) {a b : α}
    (ha : a ∈ l) (hb : b ∈ l) (hlt : key a < key b) : [a, b].Sublist l := by
  obtain ⟨before, after, rfl⟩ := List.append_of_mem ha
  rw [List.pairwise_append] at hsorted
  have hafter : b ∈ after := by
    rcases List.mem_append.mp hb with hb | hb
    · exact absurd (hsorted.2.2 b hb a List.mem_cons_self) (not_le.mpr hlt)
    · rcases List.mem_cons.mp hb with rfl | hb
      · exact absurd hlt (lt_irrefl _)
      · exact hb
  exact ((List.singleton_sublist.mpr hafter).cons_cons a).trans (List.sublist_append_right _ _)

/-- A limit that keeps a member keeps every smaller one before it. -/
theorem pair_sublist_take_of_lt {l : List α} (hsorted : l.Pairwise (fun a b => key a ≤ key b))
    {n : Nat} {a b : α} (ha : a ∈ l) (hb : b ∈ l.take n) (hlt : key a < key b) :
    [a, b].Sublist (l.take n) := by
  rw [← List.take_append_drop n l] at ha hsorted
  rw [List.pairwise_append] at hsorted
  refine pair_sublist_of_lt key hsorted.1 ?_ hb hlt
  rcases List.mem_append.mp ha with ha | ha
  · exact ha
  · exact absurd (hsorted.2.2 b hb a ha) (not_le.mpr hlt)

/-- In ascending order a member below all the others is the head. -/
theorem head?_of_least {l : List α} (hsorted : l.Pairwise (fun a b => key a ≤ key b)) {a : α}
    (ha : a ∈ l) (hleast : ∀ b ∈ l, b ≠ a → key a < key b) : l.head? = some a := by
  cases l with
  | nil => cases ha
  | cons b l =>
      rw [List.head?_cons, Option.some.injEq]
      by_contra hne
      have hmem : a ∈ l := (List.mem_cons.mp ha).resolve_left (Ne.symm hne)
      have hle := (List.pairwise_cons.mp hsorted).1 a hmem
      exact absurd hle (not_le.mpr (hleast b List.mem_cons_self hne))

end CanonicalOrder
