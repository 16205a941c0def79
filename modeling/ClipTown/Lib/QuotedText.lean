/-
  ClipTown.Lib.QuotedText — a text written by `JSON.stringify` and read back as
  a double-quoted string literal of a programming language.

  The escapes that `JSON.stringify` writes mean the same in many languages, but
  a language may give a meaning of its own to a character that is written as
  it is, such as the `$` of an interpolation.  A reader therefore takes the
  characters that may not stand in a plain literal.

    • `read_quote` — a literal reads back as the text, unless the text has a
      character that may not stand in it.
-/
import Mathlib.Data.List.Basic
import Mathlib.Data.Fin.Basic

namespace QuotedText

/-! ## §1. Writing. -/

/-- A hexadecimal digit, in lower case. -/
def hexDigit (n : Nat) : Char := if n < 10 then Char.ofNat (48 + n) else Char.ofNat (87 + n)

/-- How a character stands in a JSON text. -/
def escape (c : Char) : List Char :=
  if c = '"' then ['\\', '"']
  else if c = '\\' then ['\\', '\\']
  else if c = '\x08' then ['\\', 'b']
  else if c = '\t' then ['\\', 't']
  else if c = '\n' then ['\\', 'n']
  else if c = '\x0c' then ['\\', 'f']
  else if c = '\r' then ['\\', 'r']
  else if c.toNat < 32 then
    ['\\', 'u', '0', '0', hexDigit (c.toNat / 16), hexDigit (c.toNat % 16)]
  else [c]

/-- `JSON.stringify` of a text. -/
def quote (text : List Char) : List Char := '"' :: (text.flatMap escape ++ ['"'])

/-! ## §2. Reading. -/

/-- The character that a backslash and a letter stand for. -/
def simpleEscape (c : Char) : Option Char :=
  if c = '"' then some '"'
  else if c = '\\' then some '\\'
  else if c = 'b' then some '\x08'
  else if c = 't' then some '\t'
  else if c = 'n' then some '\n'
  else if c = 'f' then some '\x0c'
  else if c = 'r' then some '\r'
  else none

/-- The value of a hexadecimal digit in lower case. -/
def hexValue (c : Char) : Option Nat :=
  if '0' ≤ c ∧ c ≤ '9' then some (c.toNat - 48)
  else if 'a' ≤ c ∧ c ≤ 'f' then some (c.toNat - 87)
  else none

/-- The character of four hexadecimal digits. -/
def hexEscape (a b c d : Char) : Option Char := do
  let a ← hexValue a
  let b ← hexValue b
  let c ← hexValue c
  let d ← hexValue d
  return Char.ofNat (((a * 16 + b) * 16 + c) * 16 + d)

/-- The rest of a literal after its opening quote; `forbidden` characters end
the reading, as line ends and other control characters do. -/
def readBody (forbidden : Char → Bool) : List Char → Option (List Char)
  | ['"'] => some []
  | '\\' :: 'u' :: a :: b :: c :: d :: rest =>
      match hexEscape a b c d with
      | some e => (readBody forbidden rest).map (e :: ·)
      | none => none
  | '\\' :: c :: rest =>
      match simpleEscape c with
      | some e => (readBody forbidden rest).map (e :: ·)
      | none => none
  | c :: rest =>
      if c = '"' ∨ c = '\\' ∨ c.toNat < 32 ∨ forbidden c then none
      else (readBody forbidden rest).map (c :: ·)
  | [] => none

/-- A literal. -/
def read (forbidden : Char → Bool) : List Char → Option (List Char)
  | '"' :: rest => readBody forbidden rest
  | _ => none

/-! ## §3. Reading what was written. -/

variable {forbidden : Char → Bool}

/-- The written characters are an escape that reads as `c`. -/
def readsAs (c : Char) : List Char → Bool
  | ['\\', e] => e != 'u' && simpleEscape e == some c
  | ['\\', 'u', '0', '0', a, b] => hexEscape '0' '0' a b == some c
  | _ => false

/-- Every control character is written as one of the two escapes. -/
theorem escape_control (n : Fin 32) :
    (∃ e, escape (Char.ofNat n) = ['\\', e] ∧ e ≠ 'u' ∧ simpleEscape e = some (Char.ofNat n))
      ∨ ∃ a b, escape (Char.ofNat n) = ['\\', 'u', '0', '0', a, b]
          ∧ hexEscape '0' '0' a b = some (Char.ofNat n) := by
  have hall : ∀ n : Fin 32, readsAs (Char.ofNat n) (escape (Char.ofNat n)) = true := by
    decide
  have h := hall n
  unfold readsAs at h
  split at h
  next e heq =>
    simp only [Bool.and_eq_true, bne_iff_ne, beq_iff_eq] at h
    exact Or.inl ⟨e, heq, h.1, h.2⟩
  next a b heq => exact Or.inr ⟨a, b, heq, beq_iff_eq.mp h⟩
  next => cases h

/-- The two escapes, read. -/
theorem readBody_simple {e c : Char} (he : e ≠ 'u') (h : simpleEscape e = some c)
    (rest : List Char) :
    readBody forbidden ('\\' :: e :: rest) = (readBody forbidden rest).map (c :: ·) := by
  rw [readBody]
  · rw [h]
  · intro a b c d rest' heq
    exact absurd heq he

theorem readBody_hex {a b c d e : Char} (h : hexEscape a b c d = some e) (rest : List Char) :
    readBody forbidden ('\\' :: 'u' :: a :: b :: c :: d :: rest)
      = (readBody forbidden rest).map (e :: ·) := by
  rw [readBody, h]

/-- Characters that are written as they are. -/
theorem escape_plain {c : Char} (hq : c ≠ '"') (hb : c ≠ '\\') (hc : ¬ c.toNat < 32) :
    escape c = [c] := by
  have hne : ∀ d : Char, d.toNat < 32 → c ≠ d := by
    intro d hd heq
    exact hc (heq ▸ hd)
  unfold escape
  rw [if_neg hq, if_neg hb, if_neg (hne _ (by decide)), if_neg (hne _ (by decide)),
    if_neg (hne _ (by decide)), if_neg (hne _ (by decide)), if_neg (hne _ (by decide)), if_neg hc]

/-- What is written for a character is read as the character. -/
theorem readBody_escape (c : Char) (rest : List Char)
    (hplain : forbidden c → c ≠ '"' ∧ c ≠ '\\' ∧ ¬ c.toNat < 32) :
    readBody forbidden (escape c ++ rest)
      = if forbidden c then none else (readBody forbidden rest).map (c :: ·) := by
  by_cases hq : c = '"'
  · have hfree : ¬ forbidden c := fun h => (hplain h).1 hq
    rw [if_neg hfree, hq]
    exact readBody_simple (by decide) (by decide) rest
  by_cases hb : c = '\\'
  · have hfree : ¬ forbidden c := fun h => (hplain h).2.1 hb
    rw [if_neg hfree, hb]
    exact readBody_simple (by decide) (by decide) rest
  by_cases hc : c.toNat < 32
  · have hfree : ¬ forbidden c := fun h => (hplain h).2.2 hc
    rw [if_neg hfree]
    obtain ⟨e, he, hne, hread⟩ | ⟨a, b, he, hread⟩ := escape_control ⟨c.toNat, hc⟩
    · rw [Char.ofNat_toNat] at he hread
      rw [he]
      exact readBody_simple hne hread rest
    · rw [Char.ofNat_toNat] at he hread
      rw [he]
      exact readBody_hex hread rest
  · -- the character stands for itself, unless the reader forbids it
    rw [escape_plain hq hb hc, List.singleton_append, readBody.eq_4]
    · simp only [hq, hb, hc, false_or]
    all_goals
      intros
      simp_all

/-- **A literal reads back as its text**, unless the text has a forbidden
character. -/
theorem read_quote (hplain : ∀ c, forbidden c → c ≠ '"' ∧ c ≠ '\\' ∧ ¬ c.toNat < 32)
    (text : List Char) :
    read forbidden (quote text) = if text.any forbidden then none else some text := by
  show readBody forbidden (text.flatMap escape ++ ['"']) = _
  induction text with
  | nil => rfl
  | cons c text ih =>
      rw [List.flatMap_cons, List.append_assoc, readBody_escape c _ (hplain c), ih, List.any_cons]
      by_cases hc : forbidden c = true
      · simp [hc]
      · by_cases ht : text.any forbidden = true
        · simp [hc, ht]
        · simp [hc, ht]

end QuotedText
