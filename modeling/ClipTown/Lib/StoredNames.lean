/-
  ClipTown.Lib.StoredNames — names of which a database keeps the first bytes.

  Two names that differ only behind the limit become one.  A list of distinct
  names keeps its length as long as the names that are cut differ before the
  limit:

    • `distinct_iff` — a list of distinct names,
    • `distinct_append_iff` — the names of two sources.
-/
import Mathlib.Data.List.Nodup
import Mathlib.Data.List.Perm.Basic

namespace StoredNames

/-- What is kept of a name. -/
def stored (limit : ℕ) (name : String) : List UInt8 := name.toUTF8.data.toList.take limit

/-- The names are distinct, as they are written and as they are kept. -/
def Distinct (limit : ℕ) (names : List String) : Prop :=
  names.Nodup ∧ (names.map (stored limit)).Nodup

instance (limit : ℕ) (names : List String) : Decidable (Distinct limit names) := by
  unfold Distinct; infer_instance

/-- Different names of which one is cut are kept apart. -/
def KeptApart (limit : ℕ) (names : List String) : Prop :=
  ∀ a ∈ names, ∀ b ∈ names, a ≠ b → limit < a.utf8ByteSize → stored limit a ≠ stored limit b

instance (limit : ℕ) (names : List String) : Decidable (KeptApart limit names) := by
  unfold KeptApart; infer_instance

theorem length_bytes (name : String) : name.toUTF8.data.toList.length = name.utf8ByteSize := by
  simp

/-- A name that is not cut is kept as it is. -/
theorem stored_of_le {limit : ℕ} {name : String} (h : name.utf8ByteSize ≤ limit) :
    stored limit name = name.toUTF8.data.toList := by
  unfold stored
  rw [List.take_of_length_le]
  rw [length_bytes]
  exact h

theorem eq_of_bytes {a b : String} (h : a.toUTF8.data.toList = b.toUTF8.data.toList) : a = b := by
  rw [String.toUTF8_eq_toByteArray, String.toUTF8_eq_toByteArray] at h
  exact String.toByteArray_inj.mp (ByteArray.ext (Array.toList_inj.mp h))

/-- Names that are kept alike are alike, or one of them is cut. -/
theorem eq_of_stored_eq {limit : ℕ} {a b : String} (h : stored limit a = stored limit b)
    (ha : a.utf8ByteSize ≤ limit) (hb : b.utf8ByteSize ≤ limit) : a = b := by
  rw [stored_of_le ha, stored_of_le hb] at h
  exact eq_of_bytes h

/-- **A list of distinct names stays so iff its long names are kept apart.** -/
theorem distinct_iff {limit : ℕ} {names : List String} (h : names.Nodup) :
    Distinct limit names ↔ KeptApart limit names := by
  unfold Distinct
  rw [List.nodup_map_iff_inj_on h]
  constructor
  · intro hdistinct a ha b hb hne _ heq
    exact hne (hdistinct.2 a ha b hb heq)
  · intro hapart
    refine ⟨h, ?_⟩
    intro a ha b hb heq
    by_contra hne
    by_cases hlong : limit < a.utf8ByteSize
    · exact hapart a ha b hb hne hlong heq
    · by_cases hlong' : limit < b.utf8ByteSize
      · exact hapart b hb a ha (fun heq' => hne heq'.symm) hlong' heq.symm
      · exact hne (eq_of_stored_eq heq (by omega) (by omega))

/-- **The names of two sources** are distinct iff those of either are, and none is kept
like one of the other's. -/
theorem distinct_append_iff {limit : ℕ} {names names' : List String} :
    Distinct limit (names ++ names')
      ↔ Distinct limit names ∧ Distinct limit names'
        ∧ ∀ a ∈ names, ∀ b ∈ names', stored limit a ≠ stored limit b := by
  unfold Distinct
  rw [List.map_append, List.nodup_append, List.nodup_append]
  constructor
  · intro h
    obtain ⟨⟨hl, hl', _⟩, hs, hs', happart⟩ := h
    refine ⟨⟨hl, hs⟩, ⟨hl', hs'⟩, ?_⟩
    intro a ha b hb
    exact happart _ (List.mem_map_of_mem ha) _ (List.mem_map_of_mem hb)
  · intro h
    obtain ⟨⟨hl, hs⟩, ⟨hl', hs'⟩, hcross⟩ := h
    refine ⟨⟨hl, hl', ?_⟩, hs, hs', ?_⟩
    · intro a ha b hb heq
      exact hcross a ha b hb (congrArg (stored limit) heq)
    · intro x hx y hy
      obtain ⟨a, ha, rfl⟩ := List.mem_map.mp hx
      obtain ⟨b, hb, rfl⟩ := List.mem_map.mp hy
      exact hcross a ha b hb

theorem Distinct.perm {limit : ℕ} {names names' : List String} (hperm : names.Perm names')
    (h : Distinct limit names) : Distinct limit names' :=
  ⟨hperm.nodup_iff.mp h.1, (hperm.map _).nodup_iff.mp h.2⟩

end StoredNames
