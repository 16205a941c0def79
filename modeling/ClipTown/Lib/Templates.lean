/-
  ClipTown.Lib.Templates — filling the placeholders of a template in order.

  A scanner finds the next placeholder of a text, and the text is filled from
  a list of values; a placeholder past the last value is filled with nothing.
  The scanners of a fill need not agree on every text: where they agree on the
  template and on what is left of it, so do the fills.

    • `fillWith_none`, `fillWith_some` — one step of a fill,
    • `cutAt_eq_some`, `cutAt_append` — cutting a text at the first delimiter
      that what follows it does not disqualify,
    • `fillWith_injective_iff` — the values of a fill can be read off it iff the
      template has one placeholder at most.
-/
import Mathlib.Data.List.Basic

namespace Templates

variable {α : Type*}

/-! ## §1. Cutting at a delimiter. -/

/-- The text before and after the first `delimiter` whose rest is not `joined` to it. -/
def cutAt [DecidableEq α] (joined : List α → Bool) (delimiter : α) :
    List α → Option (List α × List α)
  | [] => none
  | a :: rest =>
      if a = delimiter ∧ joined rest = false then some ([], rest)
      else (cutAt joined delimiter rest).map fun (before, after) => (a :: before, after)

section Cut

variable [DecidableEq α] {joined : List α → Bool} {delimiter : α}

theorem cutAt_eq_some {text before after : List α}
    (h : cutAt joined delimiter text = some (before, after)) :
    text = before ++ delimiter :: after ∧ joined after = false := by
  induction text generalizing before with
  | nil => cases h
  | cons a rest ih =>
      rw [cutAt] at h
      split at h
      next hhere =>
        cases h
        exact ⟨by rw [hhere.1]; rfl, hhere.2⟩
      next =>
        obtain ⟨⟨before', after'⟩, hcut, heq⟩ := Option.map_eq_some_iff.mp h
        cases heq
        obtain ⟨hrest, hjoined⟩ := ih hcut
        exact ⟨by rw [hrest]; rfl, hjoined⟩

theorem length_of_cutAt {text before after : List α}
    (h : cutAt joined delimiter text = some (before, after)) : after.length < text.length := by
  rw [(cutAt_eq_some h).1, List.length_append, List.length_cons]
  omega

theorem cutAt_eq_none {text : List α} (h : delimiter ∉ text) :
    cutAt joined delimiter text = none := by
  induction text with
  | nil => rfl
  | cons a rest ih =>
      rw [List.mem_cons, not_or] at h
      rw [cutAt, if_neg (fun hhere => h.1 hhere.1.symm), ih h.2, Option.map_none]

/-- What stands before the first delimiter is passed over. -/
theorem cutAt_append {before : List α} (h : delimiter ∉ before) (text : List α) :
    cutAt joined delimiter (before ++ text)
      = (cutAt joined delimiter text).map fun (b, after) => (before ++ b, after) := by
  induction before with
  | nil =>
      show cutAt joined delimiter text = (cutAt joined delimiter text).map id
      rw [Option.map_id, id_eq]
  | cons a before ih =>
      rw [List.mem_cons, not_or] at h
      rw [List.cons_append, cutAt, if_neg (fun hhere => h.1 hhere.1.symm), ih h.2,
        Option.map_map]
      rfl

/-- The cut at a delimiter that stands alone. -/
theorem cutAt_delimiter {before after : List α} (h : delimiter ∉ before)
    (hjoined : joined after = false) :
    cutAt joined delimiter (before ++ delimiter :: after) = some (before, after) := by
  rw [cutAt_append h, cutAt, if_pos ⟨rfl, hjoined⟩]
  show some (before ++ [], after) = _
  rw [List.append_nil]

/-- A delimiter joined to its rest is passed over. -/
theorem cutAt_joined {before after : List α} (h : delimiter ∉ before)
    (hjoined : joined after = true) :
    cutAt joined delimiter (before ++ delimiter :: after)
      = (cutAt joined delimiter after).map fun (b, rest) =>
          (before ++ delimiter :: b, rest) := by
  rw [cutAt_append h, cutAt, if_neg (fun hhere => by rw [hjoined] at hhere; cases hhere.2),
    Option.map_map]
  rfl

/-- A text has no delimiter, or it is cut at its first. -/
theorem first_delimiter (delimiter : α) (text : List α) :
    delimiter ∉ text ∨ ∃ before after, text = before ++ delimiter :: after
      ∧ delimiter ∉ before := by
  by_cases h : delimiter ∈ text
  · obtain ⟨before, after, heq, hfree⟩ := List.eq_append_cons_of_mem h
    exact Or.inr ⟨before, after, heq, hfree⟩
  · exact Or.inl h

end Cut

/-! ## §2. Filling. -/

/-- The next placeholder of a text: what stands before it and after it. -/
structure Scanner (α : Type*) where
  next : List α → Option (List α × List α)
  shorter : ∀ {text before after}, next text = some (before, after) → after.length < text.length

/-- Fill the placeholders in their order, those past the last value with nothing. -/
def fillWith (s : Scanner α) (text : List α) (values : List (List α)) : List α :=
  match _h : s.next text with
  | none => text
  | some (before, after) => before ++ values.headD [] ++ fillWith s after values.tail
termination_by text.length
decreasing_by exact s.shorter _h

variable {s : Scanner α} {text before after : List α}

theorem fillWith_none (h : s.next text = none) (values : List (List α)) :
    fillWith s text values = text := by
  rw [fillWith]
  split
  next => rfl
  next hsome => rw [h] at hsome; cases hsome

theorem fillWith_some (h : s.next text = some (before, after)) (values : List (List α)) :
    fillWith s text values = before ++ values.headD [] ++ fillWith s after values.tail := by
  rw [fillWith]
  split
  next hnone => rw [h] at hnone; cases hnone
  next hsome =>
    rw [h] at hsome
    cases hsome
    rfl

/-! ## §3. Reading the values off a fill. -/

/-- The number of placeholders of a text. -/
def holes (s : Scanner α) (text : List α) : ℕ :=
  match _h : s.next text with
  | none => 0
  | some (_, after) => holes s after + 1
termination_by text.length
decreasing_by exact s.shorter _h

theorem holes_none (h : s.next text = none) : holes s text = 0 := by
  rw [holes]
  split
  next => rfl
  next hsome => rw [h] at hsome; cases hsome

theorem holes_some (h : s.next text = some (before, after)) :
    holes s text = holes s after + 1 := by
  rw [holes]
  split
  next hnone => rw [h] at hnone; cases hnone
  next hsome =>
    rw [h] at hsome
    cases hsome
    rfl

/-- Without a placeholder, no value is read. -/
theorem fillWith_of_holes_eq_zero (h : holes s text = 0) (values : List (List α)) :
    fillWith s text values = text := by
  cases hnext : s.next text with
  | none => exact fillWith_none hnext values
  | some cut =>
      rw [holes_some hnext] at h
      omega

/-- With one placeholder, one value stands between two fixed texts. -/
theorem fillWith_of_holes_eq_one (h : holes s text = 1) :
    ∃ before after, ∀ value, fillWith s text [value] = before ++ value ++ after := by
  cases hnext : s.next text with
  | none =>
      rw [holes_none hnext] at h
      omega
  | some cut =>
      obtain ⟨before, after⟩ := cut
      rw [holes_some hnext] at h
      refine ⟨before, after, ?_⟩
      intro value
      rw [fillWith_some hnext, fillWith_of_holes_eq_zero (by omega)]
      rfl

/-- Between two placeholders, the text that separates them may belong to either value. -/
theorem fillWith_shifts (h : 2 ≤ holes s text) (a : α) :
    ∃ between, ∀ rest, fillWith s text ([] :: (a :: between) :: rest)
      = fillWith s text ((between ++ [a]) :: [] :: rest) := by
  cases hnext : s.next text with
  | none =>
      rw [holes_none hnext] at h
      omega
  | some cut =>
      obtain ⟨before, after⟩ := cut
      rw [holes_some hnext] at h
      cases hnext' : s.next after with
      | none =>
          rw [holes_none hnext'] at h
          omega
      | some cut' =>
          obtain ⟨between, after'⟩ := cut'
          refine ⟨between, ?_⟩
          intro rest
          rw [fillWith_some hnext, fillWith_some hnext, List.tail_cons, List.tail_cons,
            fillWith_some hnext', fillWith_some hnext']
          simp

/-- A fill by as many values as there are placeholders determines them iff there is one
placeholder at most. -/
theorem fillWith_injective_iff [Nonempty α] (s : Scanner α) (text : List α) :
    (∀ values values' : List (List α), values.length = holes s text →
        values'.length = holes s text →
        fillWith s text values = fillWith s text values' → values = values')
      ↔ holes s text ≤ 1 := by
  constructor
  · intro h
    by_contra hmany
    obtain ⟨a⟩ := ‹Nonempty α›
    obtain ⟨between, hshift⟩ := fillWith_shifts (by omega : 2 ≤ holes s text) a
    -- the values past the second are the same in both lists
    let rest : List (List α) := List.replicate (holes s text - 2) []
    have hlength : ∀ v w : List α, (v :: w :: rest).length = holes s text := by
      intro v w
      show (List.replicate (holes s text - 2) []).length + 1 + 1 = _
      rw [List.length_replicate]
      omega
    have heq := h _ _ (hlength _ _) (hlength _ _) (hshift rest)
    have hhead := (List.cons.inj heq).1
    exact List.append_ne_nil_of_right_ne_nil between (List.cons_ne_nil a []) hhead.symm
  · intro hle values values' hvalues hvalues' heq
    by_cases hzero : holes s text = 0
    · rw [hzero] at hvalues hvalues'
      rw [List.length_eq_zero_iff.mp hvalues, List.length_eq_zero_iff.mp hvalues']
    · have hone : holes s text = 1 := by omega
      rw [hone] at hvalues hvalues'
      obtain ⟨value, rfl⟩ := List.length_eq_one_iff.mp hvalues
      obtain ⟨value', rfl⟩ := List.length_eq_one_iff.mp hvalues'
      obtain ⟨before, after, hfill⟩ := fillWith_of_holes_eq_one hone
      rw [hfill, hfill] at heq
      rw [List.append_cancel_left (List.append_cancel_right heq)]

end Templates
