/-
  ClipTown.Lib.JsonText — JSON values, and their numbers and strings as text, over
  UTF-16 code units.

  A string is any sequence of code units; a surrogate without its other half is
  written as an escape.  How a number is written is the runtime's (`Numerals`), and
  so is which numbers read back.

    • `readString_quote` — a string reads back.
-/
import Mathlib.Algebra.Group.Nat.Defs
import Mathlib.Data.List.Nodup
import Mathlib.Data.List.Lex
import Mathlib.Data.List.Sort
import Mathlib.Order.Fin.Basic

namespace JsonText

/-! ## §1. Values. -/

abbrev CodeUnit := Fin 65536

abbrev Text := List CodeUnit

/-- The code unit of a character below the surrogates. -/
def unit (c : Char) : CodeUnit := Fin.ofNat 65536 c.toNat

def ascii (s : String) : Text := s.toList.map unit

inductive Json (ν : Type) where
  | null
  | bool (value : Bool)
  | num (value : ν)
  | str (value : Text)
  | arr (items : List (Json ν))
  | obj (members : List (Text × Json ν))

namespace Json

variable {ν : Type}

/-- A property of the items and the members passes to the value. -/
theorem ind {motive : Json ν → Prop} (null : motive .null) (bool : ∀ b, motive (.bool b))
    (num : ∀ n, motive (.num n)) (str : ∀ s, motive (.str s))
    (arr : ∀ items, (∀ a ∈ items, motive a) → motive (.arr items))
    (obj : ∀ members, (∀ m ∈ members, motive m.2) → motive (.obj members)) :
    ∀ value, motive value
  | .null => null
  | .bool b => bool b
  | .num n => num n
  | .str s => str s
  | .arr items => arr items fun a ha =>
      have := List.sizeOf_lt_of_mem ha
      ind null bool num str arr obj a
  | .obj members => obj members fun m hm =>
      have := List.sizeOf_lt_of_mem hm
      ind null bool num str arr obj m.2
termination_by value => sizeOf value
decreasing_by
  all_goals simp_wf
  · omega
  · have hpair : sizeOf m = 1 + sizeOf m.1 + sizeOf m.2 := rfl
    omega

end Json

/-! ## §2. Numbers. -/

def isDigit (u : CodeUnit) : Bool := unit '0' ≤ u && u ≤ unit '9'

/-- A code unit that a number may have. -/
def isNumberUnit (u : CodeUnit) : Bool := isDigit u || u ∈ ascii "-+.eE"

/-- A text without the sign that it may start with. -/
def dropSign (signs text : Text) : Text :=
  if text.head?.any (· ∈ signs) then text.tail else text

/-- The exponent of a number, or nothing. -/
def isExponent : Text → Bool
  | [] => true
  | e :: rest =>
      let digits := dropSign (ascii "+-") rest
      decide (e ∈ ascii "eE") && (decide (digits ≠ []) && digits.all isDigit)

/-- The fraction of a number, or nothing, and its exponent. -/
def isFraction : Text → Bool
  | [] => true
  | c :: rest =>
      if c = unit '.' then
        rest.takeWhile isDigit ≠ [] && isExponent (rest.dropWhile isDigit)
      else isExponent (c :: rest)

/-- The number grammar of JSON. -/
def isNumeral (text : Text) : Bool :=
  let text := dropSign (ascii "-") text
  let int := text.takeWhile isDigit
  (int = ascii "0" || (int ≠ [] && int.head? ≠ some (unit '0')))
    && isFraction (text.dropWhile isDigit)

/-- How a runtime writes numbers, and what it makes of a numeral. -/
structure Numerals (ν : Type) where
  text : ν → Text
  read : Text → ν

/-- The number is written as a numeral, and reads back. -/
structure Numerals.ReadsBack {ν : Type} (num : Numerals ν) (n : ν) : Prop where
  numeral : isNumeral (num.text n) = true
  read_text : num.read (num.text n) = n

/-- The white space of JSON. -/
def isSpace (u : CodeUnit) : Bool := u ∈ ascii " \t\n\r"

/-- The array index that a key is. -/
def arrayIndex (key : Text) : Option ℕ :=
  let value := key.foldl (fun n u => 10 * n + (u.val - 48)) 0
  if key ≠ [] ∧ key.all isDigit ∧ (key.head? ≠ some (unit '0') ∨ key.length = 1)
      ∧ value < 2 ^ 32 - 1 then some value
  else none

/-! ## §3. Strings. -/

def isHigh (u : CodeUnit) : Bool := 0xd800 ≤ u && u ≤ 0xdbff

def isLow (u : CodeUnit) : Bool := 0xdc00 ≤ u && u ≤ 0xdfff

/-- A hexadecimal digit, in lower case. -/
def hexDigit (n : ℕ) : CodeUnit := if n < 10 then Fin.ofNat _ (48 + n) else Fin.ofNat _ (87 + n)

/-- `\uXXXX`. -/
def hexEscape (u : CodeUnit) : Text :=
  ascii "\\u" ++ [hexDigit (u.val / 4096), hexDigit (u.val / 256 % 16), hexDigit (u.val / 16 % 16),
    hexDigit (u.val % 16)]

/-- A code unit as it stands in a JSON text, when it is no half of a pair. -/
def escape (u : CodeUnit) : Text :=
  if u = unit '"' then ascii "\\\""
  else if u = unit '\\' then ascii "\\\\"
  else if u = unit '\x08' then ascii "\\b"
  else if u = unit '\t' then ascii "\\t"
  else if u = unit '\n' then ascii "\\n"
  else if u = unit '\x0c' then ascii "\\f"
  else if u = unit '\r' then ascii "\\r"
  else if u < 32 || isHigh u || isLow u then hexEscape u
  else [u]

/-- The body of a string: surrogates stand for themselves in pairs only. -/
def quoteBody : Text → Text
  | [] => []
  | [u] => escape u
  | u :: v :: rest =>
      if isHigh u && isLow v then u :: v :: quoteBody rest else escape u ++ quoteBody (v :: rest)

def quote (s : Text) : Text := unit '"' :: (quoteBody s ++ [unit '"'])

/-- The code unit that a backslash and another one stand for. -/
def simpleEscape (u : CodeUnit) : Option CodeUnit :=
  if u = unit '"' then some u
  else if u = unit '\\' then some u
  else if u = unit '/' then some u
  else if u = unit 'b' then some (unit '\x08')
  else if u = unit 't' then some (unit '\t')
  else if u = unit 'n' then some (unit '\n')
  else if u = unit 'f' then some (unit '\x0c')
  else if u = unit 'r' then some (unit '\r')
  else none

/-- The value of a hexadecimal digit, in either case. -/
def hexValue (u : CodeUnit) : Option ℕ :=
  if isDigit u then some (u.val - 48)
  else if unit 'a' ≤ u ∧ u ≤ unit 'f' then some (u.val - 87)
  else if unit 'A' ≤ u ∧ u ≤ unit 'F' then some (u.val - 55)
  else none

/-- The code unit of four hexadecimal digits. -/
def hexUnit (a b c d : CodeUnit) : Option CodeUnit := do
  let a ← hexValue a
  let b ← hexValue b
  let c ← hexValue c
  let d ← hexValue d
  return Fin.ofNat _ (((a * 16 + b) * 16 + c) * 16 + d)

/-- A string after its opening quote, and the text behind it. -/
def readString : Text → Option (Text × Text)
  | [] => none
  | u :: rest =>
      if u = unit '"' then some ([], rest)
      else if u = unit '\\' then
        match rest with
        | [] => none
        | e :: rest' =>
            if e = unit 'u' then
              match rest' with
              | a :: b :: c :: d :: rest'' => do
                  let v ← hexUnit a b c d
                  let read ← readString rest''
                  return (v :: read.1, read.2)
              | _ => none
            else do
              let v ← simpleEscape e
              let read ← readString rest'
              return (v :: read.1, read.2)
      else if u < 32 then none
      else do
        let read ← readString rest
        return (u :: read.1, read.2)

theorem hexValue_hexDigit {n : ℕ} (h : n < 16) : hexValue (hexDigit n) = some n := by
  have hall : ∀ i : Fin 16, hexValue (hexDigit i.val) = some i.val := by decide
  exact hall ⟨n, h⟩

/-- Four hexadecimal digits give back the code unit. -/
theorem hexUnit_hexDigits (u : CodeUnit) :
    hexUnit (hexDigit (u.val / 4096)) (hexDigit (u.val / 256 % 16)) (hexDigit (u.val / 16 % 16))
      (hexDigit (u.val % 16)) = some u := by
  have hu : u.val < 65536 := u.isLt
  unfold hexUnit
  rw [hexValue_hexDigit (by omega), hexValue_hexDigit (by omega), hexValue_hexDigit (by omega),
    hexValue_hexDigit (by omega)]
  show some (Fin.ofNat 65536 _) = some u
  congr 1
  apply Fin.ext
  show (((u.val / 4096 * 16 + u.val / 256 % 16) * 16 + u.val / 16 % 16) * 16 + u.val % 16)
    % 65536 = u.val
  omega

theorem readString_hexEscape (u : CodeUnit) (rest : Text) :
    readString (hexEscape u ++ rest) = (readString rest).map fun r => (u :: r.1, r.2) := by
  show (do
    let v ← hexUnit _ _ _ _
    let read ← readString rest
    return (v :: read.1, read.2)) = _
  rw [hexUnit_hexDigits]
  cases readString rest <;> rfl

/-- A code unit that is neither the quote nor the backslash nor a control reads as itself. -/
theorem readString_cons {u : CodeUnit} (hquote : u ≠ unit '"') (hslash : u ≠ unit '\\')
    (hcontrol : ¬ u < 32) (rest : Text) :
    readString (u :: rest) = (readString rest).map fun r => (u :: r.1, r.2) := by
  rw [readString.eq_def]
  dsimp only
  rw [if_neg hquote, if_neg hslash, if_neg hcontrol]
  cases readString rest <;> rfl

theorem readString_simple {c v : CodeUnit} (hc : c ≠ unit 'u') (hv : simpleEscape c = some v)
    (rest : Text) :
    readString (unit '\\' :: c :: rest) = (readString rest).map fun r => (v :: r.1, r.2) := by
  have hquote : unit '\\' ≠ unit '"' := by decide
  rw [readString.eq_def]
  dsimp only
  rw [if_neg hquote, if_pos rfl, if_neg hc, hv]
  cases readString rest <;> rfl

theorem readString_end (rest : Text) : readString (unit '"' :: rest) = some ([], rest) := by
  rw [readString.eq_def]
  rfl

/-- **One code unit reads back.** -/
theorem readString_escape (u : CodeUnit) (rest : Text) :
    readString (escape u ++ rest) = (readString rest).map fun r => (u :: r.1, r.2) := by
  unfold escape
  split_ifs with hquote hslash hback htab hline hfeed hreturn hhex
  · subst hquote
    exact readString_simple (by decide) (by decide) rest
  · subst hslash
    exact readString_simple (by decide) (by decide) rest
  · subst hback
    exact readString_simple (by decide) (by decide) rest
  · subst htab
    exact readString_simple (by decide) (by decide) rest
  · subst hline
    exact readString_simple (by decide) (by decide) rest
  · subst hfeed
    exact readString_simple (by decide) (by decide) rest
  · subst hreturn
    exact readString_simple (by decide) (by decide) rest
  · exact readString_hexEscape u rest
  · have hcontrol : ¬ u < 32 := by
      intro h
      exact hhex (by simp [h])
    exact readString_cons hquote hslash hcontrol rest

theorem high_range {u : CodeUnit} (h : isHigh u = true) : 0xd800 ≤ u.val := by
  unfold isHigh at h
  rw [Bool.and_eq_true, decide_eq_true_iff] at h
  exact h.1

theorem low_range {u : CodeUnit} (h : isLow u = true) : 0xdc00 ≤ u.val := by
  unfold isLow at h
  rw [Bool.and_eq_true, decide_eq_true_iff] at h
  exact h.1

/-- Half a pair stands for itself. -/
theorem readString_surrogate {u : CodeUnit} (h : 0xd800 ≤ u.val) (rest : Text) :
    readString (u :: rest) = (readString rest).map fun r => (u :: r.1, r.2) := by
  refine readString_cons ?_ ?_ ?_ rest
  · rintro rfl
    exact absurd h (by decide)
  · rintro rfl
    exact absurd h (by decide)
  · intro hlt
    have hval : u.val < 32 := hlt
    omega

theorem readString_quoteBody (s rest : Text) :
    readString (quoteBody s ++ unit '"' :: rest) = some (s, rest) := by
  fun_induction quoteBody s with
  | case1 => exact readString_end rest
  | case2 u =>
      rw [readString_escape, readString_end]
      rfl
  | case3 u v s hpair ih =>
      rw [Bool.and_eq_true] at hpair
      have hhigh : 0xd800 ≤ u.val := high_range hpair.1
      have hlow : 0xdc00 ≤ v.val := low_range hpair.2
      rw [List.cons_append, List.cons_append, readString_surrogate hhigh,
        readString_surrogate (by omega), ih]
      rfl
  | case4 u v s _ ih =>
      rw [List.append_assoc, readString_escape, ih]
      rfl

/-- **A string reads back**, whatever its code units. -/
theorem readString_quote (s rest : Text) :
    readString ((quote s).tail ++ rest) = some (s, rest) := by
  unfold quote
  rw [List.tail_cons, List.append_assoc]
  exact readString_quoteBody s rest

end JsonText
