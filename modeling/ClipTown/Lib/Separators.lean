/-
  ClipTown.Lib.Separators — lists joined by a separator, and taken apart again.

  What stands before the first separator is determined by the whole, so a join
  of parts that are free of the separator determines its parts.

    • `eq_of_append_cons_eq` — the part before the first separator,
    • `separated_inj` — all the parts,
    • `flatMap_eq_iff` — two encodings of a list agree iff they agree on every
      member, when encodings that differ do so at their head.
-/
import Mathlib.Data.List.Basic

namespace Separators

variable {α β : Type*}

/-- A list before its first separator is determined by the whole. -/
theorem eq_of_append_cons_eq {sep : α} :
    ∀ {l l' r r' : List α}, sep ∉ l → sep ∉ l' → l ++ sep :: r = l' ++ sep :: r' → l = l' ∧ r = r'
  | [], [], _, _, _, _, h => ⟨rfl, (List.cons.inj h).2⟩
  | [], a :: l', _, _, _, hl', h => by
      have ha : sep = a := (List.cons.inj h).1
      exact absurd (ha ▸ List.mem_cons_self) hl'
  | a :: l, [], _, _, hl, _, h => by
      have ha : a = sep := (List.cons.inj h).1
      exact absurd (ha ▸ List.mem_cons_self) hl
  | a :: l, a' :: l', _, _, hl, hl', h => by
      obtain ⟨rfl, htail⟩ := List.cons.inj h
      obtain ⟨rfl, hr⟩ := eq_of_append_cons_eq (List.not_mem_of_not_mem_cons hl)
        (List.not_mem_of_not_mem_cons hl') htail
      exact ⟨rfl, hr⟩

/-- Every part with the separator in front of it. -/
def separated (sep : α) (parts : List (List α)) : List α := parts.flatMap (fun p => sep :: p)

@[simp] theorem separated_nil (sep : α) : separated sep [] = [] := rfl

@[simp] theorem separated_cons (sep : α) (p : List α) (parts : List (List α)) :
    separated sep (p :: parts) = sep :: (p ++ separated sep parts) := rfl

/-- Joining is writing the first part and then the others with the separator. -/
theorem intercalate_cons (sep : α) (p : List α) (parts : List (List α)) :
    [sep].intercalate (p :: parts) = p ++ separated sep parts := by
  induction parts generalizing p with
  | nil => rw [List.intercalate_singleton, separated_nil, List.append_nil]
  | cons q parts ih =>
      rw [List.intercalate_cons_cons, ih, separated_cons, List.append_assoc]
      rfl

/-- **Parts free of the separator are determined by their join.** -/
theorem separated_inj {sep : α} :
    ∀ {parts parts' : List (List α)}, (∀ p ∈ parts, sep ∉ p) → (∀ p ∈ parts', sep ∉ p) →
      separated sep parts = separated sep parts' → parts = parts' := by
  intro parts
  induction parts with
  | nil =>
      intro parts' _ _ h
      cases parts' with
      | nil => rfl
      | cons p' parts' => cases h
  | cons p parts ih =>
      intro parts' hfree hfree' h
      cases parts' with
      | nil => cases h
      | cons p' parts' =>
          rw [separated_cons, separated_cons] at h
          have htail := (List.cons.inj h).2
          have hp := hfree p List.mem_cons_self
          have hp' := hfree' p' List.mem_cons_self
          have hrest : ∀ q ∈ parts, sep ∉ q := fun q hq => hfree q (List.mem_cons_of_mem p hq)
          have hrest' : ∀ q ∈ parts', sep ∉ q := fun q hq => hfree' q (List.mem_cons_of_mem p' hq)
          -- the first parts end where the next separator stands, or with the list
          cases parts with
          | nil =>
              cases parts' with
              | nil => simpa using htail
              | cons q' parts' =>
                  rw [separated_nil, List.append_nil, separated_cons] at htail
                  exact absurd (htail ▸ List.mem_append_right _ List.mem_cons_self) hp
          | cons q parts =>
              cases parts' with
              | nil =>
                  rw [separated_nil, List.append_nil, separated_cons] at htail
                  exact absurd (htail ▸ List.mem_append_right _ List.mem_cons_self) hp'
              | cons q' parts' =>
                  rw [separated_cons, separated_cons] at htail
                  obtain ⟨rfl, hsep⟩ := eq_of_append_cons_eq hp hp' htail
                  have heq := ih hrest hrest' (congrArg (List.cons sep) hsep)
                  rw [heq]

/-- **Encodings that differ at the head agree on a list iff they agree on every
member.** -/
theorem flatMap_eq_iff {f g : α → List β}
    (hhead : ∀ a, f a = g a ∨ ∃ b b' t t', f a = b :: t ∧ g a = b' :: t' ∧ b ≠ b') (l : List α) :
    l.flatMap f = l.flatMap g ↔ ∀ a ∈ l, f a = g a := by
  induction l with
  | nil => simp
  | cons a l ih =>
      rw [List.flatMap_cons, List.flatMap_cons, List.forall_mem_cons]
      rcases hhead a with heq | ⟨b, b', t, t', hf, hg, hne⟩
      · rw [heq, List.append_cancel_left_eq, ih]
        exact ⟨fun h => ⟨rfl, h⟩, fun h => h.2⟩
      · constructor
        · intro h
          rw [hf, hg] at h
          exact absurd (List.cons.inj h).1 hne
        · intro h
          rw [hf, hg] at h
          exact absurd (List.cons.inj h.1).1 hne

end Separators
