/-
  ClipTown.Lib.Acronyms — replacing a word by the same word in capitals, one
  pattern after the other.

  A pattern starts with a capital and goes on with other characters.  Replacing
  it in place changes the case of letters and nothing else, so a later pattern
  still finds its other characters where they stood:

    • `replaceAll_eq_raise` — the replacement raises the letters where they stand,
    • `raise_append` — and leaves alone the characters that start no pattern,
    • `prefix_of_raise` — what is not a capital stood there before.
-/
import Mathlib.Data.List.Basic

namespace Acronyms

section

variable (first : Char) (rest : List Char) (ahead : List Char → Bool)

/-- The pattern stands at the head of the text, and what follows it is as required. -/
def starts (text : List Char) : Bool :=
  (first :: rest).isPrefixOf text && ahead (text.drop (rest.length + 1))

/-- Replace the pattern wherever it stands, from left to right; `skip` characters of the
last one are still to be passed over. -/
def replaceAll (by_ : List Char) : ℕ → List Char → List Char
  | _, [] => []
  | skip + 1, _ :: text => replaceAll by_ skip text
  | 0, c :: text =>
      if starts first rest ahead (c :: text) then by_ ++ replaceAll by_ rest.length text
      else c :: replaceAll by_ 0 text

/-- Write the pattern in capitals wherever it stands. -/
def raise : ℕ → List Char → List Char
  | _, [] => []
  | skip + 1, c :: text => c.toUpper :: raise skip text
  | 0, c :: text =>
      c :: raise (if starts first rest ahead (c :: text) then rest.length else 0) text

variable {first rest ahead}

theorem starts_iff {text : List Char} :
    starts first rest ahead text = true ↔ ∃ t, text = first :: (rest ++ t) ∧ ahead t = true := by
  unfold starts
  rw [Bool.and_eq_true, List.isPrefixOf_iff_prefix]
  constructor
  · intro hand
    obtain ⟨⟨t, rfl⟩, hahead⟩ := hand
    refine ⟨t, rfl, ?_⟩
    rwa [List.cons_append, List.drop_succ_cons, List.drop_left] at hahead
  · intro hex
    obtain ⟨t, rfl, hahead⟩ := hex
    refine ⟨⟨t, rfl⟩, ?_⟩
    rwa [List.drop_succ_cons, List.drop_left]

theorem raise_skip (word text : List Char) :
    raise first rest ahead word.length (word ++ text)
      = word.map Char.toUpper ++ raise first rest ahead 0 text := by
  induction word with
  | nil => rfl
  | cons c word ih =>
      show c.toUpper :: raise first rest ahead word.length (word ++ text) = _
      rw [ih]
      rfl

/-- At the pattern. -/
theorem raise_of_starts {text : List Char} (h : ahead text = true) :
    raise first rest ahead 0 (first :: (rest ++ text))
      = first :: (rest.map Char.toUpper ++ raise first rest ahead 0 text) := by
  have hstarts : starts first rest ahead (first :: (rest ++ text)) = true :=
    starts_iff.mpr ⟨text, rfl, h⟩
  rw [raise, if_pos hstarts, raise_skip]

/-- Elsewhere. -/
theorem raise_of_not {c : Char} {text : List Char}
    (h : ¬ starts first rest ahead (c :: text) = true) :
    raise first rest ahead 0 (c :: text) = c :: raise first rest ahead 0 text := by
  rw [raise, if_neg h]

theorem raise_of_ne {c : Char} {text : List Char} (h : c ≠ first) :
    raise first rest ahead 0 (c :: text) = c :: raise first rest ahead 0 text := by
  refine raise_of_not ?_
  rw [starts_iff]
  intro hex
  obtain ⟨t, heq, _⟩ := hex
  exact h (List.cons.inj heq).1

/-- **Replacing the pattern by itself in capitals raises its letters.** -/
theorem replaceAll_eq_raise (text : List Char) :
    replaceAll first rest ahead (first :: rest.map Char.toUpper) 0 text
      = raise first rest ahead 0 text := by
  have hskip : ∀ (word text : List Char),
      replaceAll first rest ahead (first :: rest.map Char.toUpper) word.length (word ++ text)
        = replaceAll first rest ahead (first :: rest.map Char.toUpper) 0 text := by
    intro word text
    induction word with
    | nil => rfl
    | cons c word ih => exact ih
  induction hlength : text.length using Nat.strongRecOn generalizing text with
  | ind n ih =>
      cases text with
      | nil => rfl
      | cons c text =>
          rw [List.length_cons] at hlength
          by_cases hstarts : starts first rest ahead (c :: text) = true
          · rw [replaceAll, if_pos hstarts]
            obtain ⟨t, heq, hahead⟩ := starts_iff.mp hstarts
            obtain ⟨rfl, rfl⟩ := List.cons.inj heq
            rw [List.length_append] at hlength
            rw [raise_of_starts hahead, hskip, ih t.length (by omega) t rfl]
            rfl
          · rw [replaceAll, if_neg hstarts, raise_of_not hstarts,
              ih text.length (by omega) text rfl]

/-- The head stays as it is. -/
theorem head?_raise (text : List Char) :
    (raise first rest ahead 0 text).head? = text.head? := by
  cases text with
  | nil => rfl
  | cons c text => rw [raise, List.head?_cons, List.head?_cons]

/-- Characters that start no pattern are passed over. -/
theorem raise_append {word : List Char} (h : first ∉ word) (text : List Char) :
    raise first rest ahead 0 (word ++ text) = word ++ raise first rest ahead 0 text := by
  induction word with
  | nil => rfl
  | cons c word ih =>
      rw [List.mem_cons, not_or] at h
      rw [List.cons_append, raise_of_ne (Ne.symm h.1), ih h.2, List.cons_append]

/-- **What starts no pattern and stands there afterwards stood there before.** -/
theorem prefix_of_raise {word : List Char} (h : first ∉ word) {text text' : List Char}
    (heq : raise first rest ahead 0 text = word ++ text') :
    ∃ t, text = word ++ t ∧ text' = raise first rest ahead 0 t := by
  induction word generalizing text with
  | nil => exact ⟨text, rfl, heq.symm⟩
  | cons c word ih =>
      rw [List.mem_cons, not_or] at h
      have hhead : text.head? = some c := by
        have hraise : (raise first rest ahead 0 text).head? = text.head? := head?_raise text
        rw [← hraise, heq]
        rfl
      obtain ⟨tail, rfl⟩ := List.head?_eq_some_iff.mp hhead
      rw [raise_of_ne (Ne.symm h.1), List.cons_append] at heq
      obtain ⟨t, rfl, htext⟩ := ih h.2 (List.cons.inj heq).2
      exact ⟨t, rfl, htext⟩

/-- A second pattern, the rest of which has no letter that starts the first, is found after
a replacement only where it stood before. -/
theorem starts_of_raise {first' : Char} {rest' : List Char} {ahead' : List Char → Bool}
    (hrest : first ∉ rest') (hahead : ∀ t, ahead' (raise first rest ahead 0 t) = ahead' t)
    {c : Char} {text : List Char}
    (h : starts first' rest' ahead' (c :: raise first rest ahead 0 text) = true) :
    starts first' rest' ahead' (c :: text) = true := by
  obtain ⟨t, heq, ht⟩ := starts_iff.mp h
  obtain ⟨rfl, htail⟩ := List.cons.inj heq
  obtain ⟨t', rfl, rfl⟩ := prefix_of_raise hrest htail
  exact starts_iff.mpr ⟨t', rfl, by rwa [hahead] at ht⟩

/-- Where the second character is another one the pattern does not stand. -/
theorem raise_second {c second : Char} {tail text : List Char} (h : c ≠ second) :
    raise first (second :: tail) ahead 0 (first :: c :: text)
      = first :: raise first (second :: tail) ahead 0 (c :: text) := by
  refine raise_of_not ?_
  rw [starts_iff]
  intro hex
  obtain ⟨t, heq, _⟩ := hex
  exact h (List.cons.inj (List.cons.inj heq).2).1

end

/-! ## §2. One scan. -/

/-- A pattern as a scan looks for it. -/
structure Acronym where
  first : Char
  rest : List Char
  ahead : List Char → Bool

/-- Read a text once, and mark the letters of a pattern after its first; of several
patterns the first in the list counts. -/
def scan (acronyms : List Acronym) : ℕ → List Char → List (Char × Bool)
  | _, [] => []
  | skip + 1, c :: text => (c, true) :: scan acronyms skip text
  | 0, c :: text =>
      let found := acronyms.find? fun a => starts a.first a.rest a.ahead (c :: text)
      (c, false) :: scan acronyms ((found.map (·.rest.length)).getD 0) text

section

variable {acronyms : List Acronym}

theorem scan_skip (word text : List Char) :
    scan acronyms word.length (word ++ text)
      = word.map (fun c => (c, true)) ++ scan acronyms 0 text := by
  induction word with
  | nil => rfl
  | cons c word ih =>
      show (c, true) :: scan acronyms word.length (word ++ text) = _
      rw [ih]
      rfl

/-- At a pattern of the list. -/
theorem scan_of_find {text : List Char} {a : Acronym}
    (h : acronyms.find? (fun a => starts a.first a.rest a.ahead text) = some a) :
    ∃ t, text = a.first :: (a.rest ++ t) ∧ a.ahead t = true
      ∧ scan acronyms 0 text
        = (a.first, false) :: (a.rest.map (fun c => (c, true)) ++ scan acronyms 0 t) := by
  have hstarts : starts a.first a.rest a.ahead text = true := by
    simpa using List.find?_some h
  obtain ⟨t, rfl, hahead⟩ := starts_iff.mp hstarts
  refine ⟨t, rfl, hahead, ?_⟩
  rw [scan]
  simp only [h, Option.map_some, Option.getD_some]
  rw [scan_skip]

/-- Elsewhere. -/
theorem scan_of_none {c : Char} {text : List Char}
    (h : acronyms.find? (fun a => starts a.first a.rest a.ahead (c :: text)) = none) :
    scan acronyms 0 (c :: text) = (c, false) :: scan acronyms 0 text := by
  rw [scan]
  simp only [h, Option.map_none, Option.getD_none]

end

end Acronyms
