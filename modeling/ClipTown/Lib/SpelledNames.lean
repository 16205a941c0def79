/-
  ClipTown.Lib.SpelledNames — names rewritten to identifiers, and what the
  rewriting loses.

  A rewriting drops the characters that no identifier has, changes the case of
  some letters, and puts a mark on a reserved word.  None of this is one to one,
  so two names may meet:

    • `forall₂_alike` — names that agree letter by letter are written the same,
    • `lower_joined_eq_iff` — joined words are written the same, in lower case,
      iff they are the same words up to case,
    • `reserve_eq_iff_clash` — with reserved words, names meet iff they are alike
      or one is like a reserved word and the other like that word with its mark.
-/
import Mathlib.Data.List.Forall2

namespace SpelledNames

/-- Lists agree under a map iff their members do, one by one. -/
theorem forall₂_map_eq {α β : Type*} {f : α → β} {as bs : List α} :
    List.Forall₂ (fun a b => f a = f b) as bs ↔ as.map f = bs.map f := by
  have heq : as.map f = bs.map f ↔ List.Forall₂ (· = ·) (as.map f) (bs.map f) := by
    rw [List.forall₂_eq_eq_eq]
  rw [heq, List.forall₂_map_left_iff, List.forall₂_map_right_iff]

/-! ## §1. Letters. -/

/-- The letters and digits of a name, each with whether it starts a word: it comes first,
or after a character that is neither. -/
def letters : Bool → List Char → List (Char × Bool)
  | _, [] => []
  | start, c :: rest =>
      if c.isAlphanum then (c, start) :: letters false rest else letters true rest

theorem letters_of_letter {c : Char} (h : c.isAlphanum = true) (start : Bool) (rest : List Char) :
    letters start (c :: rest) = (c, start) :: letters false rest := by
  rw [letters, if_pos h]

theorem letters_of_other {c : Char} (h : ¬ c.isAlphanum = true) (start : Bool) (rest : List Char) :
    letters start (c :: rest) = letters true rest := by
  rw [letters, if_neg h]

/-- A letter with a mark is written as a capital. -/
def capital (letter : Char × Bool) : Char := if letter.2 then letter.1.toUpper else letter.1

/-- Two letters that are written the same. -/
def Alike (letter letter' : Char × Bool) : Prop := capital letter = capital letter'

instance : DecidableRel Alike := fun letter letter' => by unfold Alike; infer_instance

theorem forall₂_alike {a b : List (Char × Bool)} :
    List.Forall₂ Alike a b ↔ a.map capital = b.map capital :=
  forall₂_map_eq

/-! ## §2. Words. -/

/-- Put a character in front of the first word. -/
def extend (c : Char) : List (List Char) → List (List Char)
  | [] => [[c]]
  | word :: words => (c :: word) :: words

section

variable (gap : Char → Bool) (hump : Char → Char → Bool)

/-- The words of a name: what stands between runs of gaps, cut again at every hump. -/
def wordsOf : List Char → List (List Char)
  | [] => [[]]
  | c :: rest =>
      if gap c then
        if rest.head?.any gap then wordsOf rest else [] :: wordsOf rest
      else if rest.head?.any (hump c) then [c] :: wordsOf rest
      else extend c (wordsOf rest)

theorem wordsOf_ne_nil (name : List Char) : wordsOf gap hump name ≠ [] := by
  induction name with
  | nil => exact List.cons_ne_nil _ _
  | cons c rest ih =>
      unfold wordsOf
      split_ifs
      · exact ih
      · exact List.cons_ne_nil _ _
      · exact List.cons_ne_nil _ _
      · cases wordsOf gap hump rest with
        | nil => exact List.cons_ne_nil _ _
        | cons word words => exact List.cons_ne_nil _ _

/-- After a gap the rest of its run does not matter. -/
theorem wordsOf_gap {c : Char} (hc : gap c = true) (rest : List Char) :
    wordsOf gap hump (c :: rest) = [] :: wordsOf gap hump (rest.dropWhile gap) := by
  induction rest generalizing c with
  | nil =>
      unfold wordsOf
      rw [if_pos hc]
      rfl
  | cons d rest ih =>
      rw [wordsOf, if_pos hc]
      by_cases hd : gap d = true
      · have hrun : (d :: rest).head?.any gap = true := hd
        rw [if_pos hrun, ih hd, List.dropWhile_cons_of_pos hd]
      · have hrun : ¬ (d :: rest).head?.any gap = true := hd
        rw [if_neg hrun, List.dropWhile_cons_of_neg hd]

/-- No word has a gap. -/
theorem gap_not_mem_wordsOf {sep : Char} (hsep : gap sep = true) (name : List Char) :
    ∀ word ∈ wordsOf gap hump name, sep ∉ word := by
  induction name with
  | nil =>
      intro word hword
      rw [wordsOf, List.mem_singleton] at hword
      rw [hword]
      exact List.not_mem_nil
  | cons c rest ih =>
      by_cases hc : gap c = true
      · rw [wordsOf, if_pos hc]
        split_ifs
        · exact ih
        · intro word hword
          rcases List.mem_cons.mp hword with rfl | hword
          · exact List.not_mem_nil
          · exact ih word hword
      · have hne : sep ≠ c := fun heq => hc (heq ▸ hsep)
        rw [wordsOf, if_neg hc]
        split_ifs
        · intro word hword
          rcases List.mem_cons.mp hword with rfl | hword
          · simpa using hne
          · exact ih word hword
        · obtain ⟨first, words, hwords⟩ := List.exists_cons_of_ne_nil (wordsOf_ne_nil gap hump rest)
          rw [hwords] at ih ⊢
          intro word hword
          rcases List.mem_cons.mp hword with rfl | hword
          · rw [List.mem_cons, not_or]
            exact ⟨hne, ih first List.mem_cons_self⟩
          · exact ih word (List.mem_cons_of_mem _ hword)

end

/-- What is known of a change to lower case: it is that of the single characters on ASCII,
and it neither crosses nor makes the separator. -/
structure LowerCase (sep : Char) (lower : List Char → List Char) : Prop where
  ascii : ∀ text : List Char, (∀ c ∈ text, c.toNat < 128) → lower text = text.map Char.toLower
  join : ∀ a b, lower (a ++ sep :: b) = lower a ++ sep :: lower b
  sep : ∀ text : List Char, sep ∉ text → sep ∉ lower text

theorem lower_intercalate {sep : Char} {lower : List Char → List Char}
    (h : LowerCase sep lower) {words : List (List Char)} (hne : words ≠ []) :
    lower ([sep].intercalate words) = [sep].intercalate (words.map lower) := by
  induction words with
  | nil => exact absurd rfl hne
  | cons word words ih =>
      cases words with
      | nil => simp
      | cons word' words =>
          rw [List.intercalate_cons_cons, List.append_assoc, List.singleton_append, h.join,
            ih (List.cons_ne_nil _ _), List.map_cons, List.map_cons, List.map_cons,
            List.intercalate_cons_cons, List.append_assoc, List.singleton_append]

/-- **Joined words are the same in lower case iff the words are, one by one.** -/
theorem lower_joined_eq_iff {sep : Char} {lower : List Char → List Char}
    (h : LowerCase sep lower) {words words' : List (List Char)} (hne : words ≠ [])
    (hne' : words' ≠ []) (hfree : ∀ word ∈ words, sep ∉ word)
    (hfree' : ∀ word ∈ words', sep ∉ word) :
    lower ([sep].intercalate words) = lower ([sep].intercalate words')
      ↔ List.Forall₂ (fun word word' => lower word = lower word') words words' := by
  have hlower : ∀ {words : List (List Char)}, (∀ word ∈ words, sep ∉ word) →
      ∀ word ∈ words.map lower, sep ∉ word := by
    intro words hfree word hword
    obtain ⟨word', hword', rfl⟩ := List.mem_map.mp hword
    exact h.sep word' (hfree word' hword')
  rw [lower_intercalate h hne, lower_intercalate h hne', forall₂_map_eq]
  constructor
  · intro hjoined
    -- the words are what stands between the separators
    have hsplit := congrArg (List.splitOn sep) hjoined
    rwa [List.splitOn_intercalate sep (hlower hfree) (by simpa using hne),
      List.splitOn_intercalate sep (hlower hfree') (by simpa using hne')] at hsplit
  · intro heq
    rw [heq]

/-! ## §3. Reserved words. -/

section

variable {α : Type*} [DecidableEq α]

/-- A candidate that is a reserved word gets a mark. -/
def reserve (reserved : List α) (mark : α → α) (candidate : α) : α :=
  if candidate ∈ reserved then mark candidate else candidate

/-- Two names clash: they are alike, or one is like a reserved word and the other like
that word with its mark. -/
def Clash (alike : α → α → Prop) (reserved : List α) (mark : α → α) (a b : α) : Prop :=
  alike a b ∨ (∃ word ∈ reserved, alike a word ∧ alike b (mark word))
    ∨ ∃ word ∈ reserved, alike b word ∧ alike a (mark word)

instance (alike : α → α → Prop) [DecidableRel alike] (reserved : List α) (mark : α → α)
    (a b : α) : Decidable (Clash alike reserved mark a b) := by
  unfold Clash; infer_instance

/-- The mark keeps reserved words apart, and makes none of them reserved. -/
structure Marks (reserved : List α) (mark : α → α) : Prop where
  free : ∀ word ∈ reserved, mark word ∉ reserved
  inj : ∀ word ∈ reserved, ∀ word' ∈ reserved, mark word = mark word' → word = word'

theorem reserve_eq_iff {reserved : List α} {mark : α → α} (h : Marks reserved mark) {a b : α} :
    reserve reserved mark a = reserve reserved mark b
      ↔ a = b ∨ (a ∈ reserved ∧ b = mark a) ∨ (b ∈ reserved ∧ a = mark b) := by
  have hmarked : ∀ {a b : α}, a ∈ reserved → b ∈ reserved → a ≠ mark b := by
    intro a b ha hb heq
    exact h.free b hb (heq ▸ ha)
  unfold reserve
  by_cases ha : a ∈ reserved
  · by_cases hb : b ∈ reserved
    · rw [if_pos ha, if_pos hb]
      constructor
      · intro heq
        exact .inl (h.inj a ha b hb heq)
      · intro hor
        rcases hor with rfl | ⟨_, heq⟩ | ⟨_, heq⟩
        · rfl
        · exact absurd heq (hmarked hb ha)
        · exact absurd heq (hmarked ha hb)
    · rw [if_pos ha, if_neg hb]
      constructor
      · intro heq
        exact .inr (.inl ⟨ha, heq.symm⟩)
      · intro hor
        rcases hor with rfl | ⟨_, heq⟩ | ⟨hb', _⟩
        · exact absurd ha hb
        · exact heq.symm
        · exact absurd hb' hb
  · by_cases hb : b ∈ reserved
    · rw [if_neg ha, if_pos hb]
      constructor
      · intro heq
        exact .inr (.inr ⟨hb, heq⟩)
      · intro hor
        rcases hor with rfl | ⟨ha', _⟩ | ⟨_, heq⟩
        · exact absurd hb ha
        · exact absurd ha' ha
        · exact heq
    · rw [if_neg ha, if_neg hb]
      constructor
      · exact .inl
      · intro hor
        rcases hor with rfl | ⟨ha', _⟩ | ⟨hb', _⟩
        · rfl
        · exact absurd ha' ha
        · exact absurd hb' hb

/-- **When two names get one identifier**, where a candidate is one for names that are
alike, and reserved words and marked ones are candidates of themselves. -/
theorem reserve_eq_iff_clash {alike : α → α → Prop} {candidate : α → α} {reserved : List α}
    {mark : α → α} (h : Marks reserved mark)
    (halike : ∀ a b, alike a b ↔ candidate a = candidate b)
    (hfixed : ∀ word ∈ reserved, candidate word = word ∧ candidate (mark word) = mark word)
    {a b : α} :
    reserve reserved mark (candidate a) = reserve reserved mark (candidate b)
      ↔ Clash alike reserved mark a b := by
  have hword : ∀ {a b : α}, (candidate a ∈ reserved ∧ candidate b = mark (candidate a))
      ↔ ∃ word ∈ reserved, alike a word ∧ alike b (mark word) := by
    intro a b
    simp only [halike]
    constructor
    · intro hand
      refine ⟨candidate a, hand.1, (hfixed _ hand.1).1.symm, ?_⟩
      rw [(hfixed _ hand.1).2, hand.2]
    · intro hex
      obtain ⟨word, hreserved, ha, hb⟩ := hex
      rw [(hfixed word hreserved).1] at ha
      rw [(hfixed word hreserved).2] at hb
      exact ⟨ha ▸ hreserved, ha ▸ hb⟩
  unfold Clash
  rw [reserve_eq_iff h, halike, hword, hword]

end

end SpelledNames
