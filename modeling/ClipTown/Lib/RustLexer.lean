/-
  ClipTown.Lib.RustLexer — which characters of a Rust text are code, and which
  belong to comments and to string and character literals.

  The text is read from left to right, line by line; the mode says what the
  characters read so far leave open.  Block comments nest.  A quote opens a
  character literal where one character, or an escape, and a quote follow; else
  it starts a lifetime or a label, which is code.  A raw literal ends at a quote
  with as many hashes as it starts with, and has no escapes.  A first line with
  `#!` is for the system that starts the program, unless an attribute starts there.

    • `tells_readChar` — block comments are opened by their mark, and by nothing else,
    • `code_of_readFrom` — a character of code is no white space.
-/
import Mathlib.Data.List.Infix

namespace RustLexer

/-! ## §1. The modes. -/

/-- What a character belongs to. -/
inductive Kind where
  /-- A token outside comments and literals. -/
  | code
  /-- White space between tokens. -/
  | blank
  | lineComment
  /-- A block comment in `depth` others. -/
  | blockComment (depth : ℕ)
  /-- The slash that ends a block comment. -/
  | commentEnd
  /-- The quote that opens a literal with escapes. -/
  | opens
  /-- The inside of a literal with escapes. -/
  | inside
  /-- The quote that closes a literal with escapes. -/
  | closes
  /-- A raw literal, or what stands in front of the quote of a literal. -/
  | raw
  deriving DecidableEq

/-- What is open between two characters. -/
inductive Mode where
  /-- Nothing; and whether the character before belongs to a word. -/
  | code (inWord : Bool)
  | lineComment
  /-- A block comment in `depth` others, and whether the second character of a mark is next. -/
  | blockComment (depth : ℕ) (mark : Bool)
  /-- The slash that ends a block comment is next. -/
  | commentEnd
  /-- `ahead` characters in front of the quote of a literal, which is raw or not. -/
  | front (ahead : ℕ) (raw : Option ℕ)
  /-- A literal with escapes, and whether the next character is escaped. -/
  | literal (quote : Char) (escaped : Bool)
  | raw (hashes : ℕ)
  /-- The hashes behind the last quote of a raw literal. -/
  | hashes (ahead : ℕ)
  deriving DecidableEq

/-- The mark that a text may start with. -/
def byteOrderMark : Char := Char.ofNat 0xfeff

/-- White space, also what Rust refuses outside literals. -/
def isBlank (c : Char) : Bool :=
  let n := c.toNat
  (9 ≤ n && n ≤ 13) || (28 ≤ n && n ≤ 32) || n == 0x85 || n == 0xa0 || n == 0x1680
    || (0x2000 ≤ n && n ≤ 0x200a) || n == 0x200e || n == 0x200f || n == 0x2028 || n == 0x2029
    || n == 0x202f || n == 0x205f || n == 0x3000 || c == byteOrderMark

/-- A character of a name or a number; past ASCII every one is taken for such. -/
def isWordChar (c : Char) : Bool := c.isAlphanum || c == '_' || 128 ≤ c.toNat

/-- The hashes in front of a quote. -/
def rawHashes : List Char → Option ℕ
  | [] => none
  | c :: rest =>
      if c = '"' then some 0 else if c = '#' then (rawHashes rest).map (· + 1) else none

/-- The character starts a literal with something in front of its quote: how many more
characters there are, and the hashes of a raw one. -/
def literalFront (c : Char) (rest : List Char) : Option (ℕ × Option ℕ) :=
  if c = 'r' then (rawHashes rest).map fun n => (n, some n)
  else if c = 'b' ∨ c = 'c' then
    match rest with
    | [] => none
    | d :: rest =>
        if d = '"' ∨ (c = 'b' ∧ d = '\'') then some (0, none)
        else if d = 'r' then (rawHashes rest).map fun n => (n + 1, some n)
        else none
  else none

/-- What follows a quote makes it open a character literal. -/
def isCharLiteral : List Char → Bool
  | [] => false
  | c :: rest => c == '\\' || rest.head? == some '\''

/-- Outside comments and literals. -/
def readCode (inWord : Bool) (c : Char) (rest : List Char) : Kind × Mode :=
  if c = '/' ∧ rest.head? = some '/' then (.lineComment, .lineComment)
  else if c = '/' ∧ rest.head? = some '*' then (.blockComment 0, .blockComment 0 true)
  else if c = '"' then (.opens, .literal '"' false)
  else if c = '\'' then
    if isCharLiteral rest then (.opens, .literal '\'' false) else (.code, .code true)
  else
    match if inWord then none else literalFront c rest with
    | some (ahead, raw) => (.raw, .front ahead raw)
    | none => if isBlank c then (.blank, .code false) else (.code, .code (isWordChar c))

/-- Behind the star of a closing mark. -/
def behindComment : ℕ → Mode
  | 0 => .commentEnd
  | depth + 1 => .blockComment depth true

/-- Behind the last quote of a raw literal. -/
def behindRaw (ahead : ℕ) : Mode := if ahead = 0 then .code true else .hashes ahead

/-- One character, in front of the rest of its line. -/
def readChar : Mode → Char → List Char → Kind × Mode
  | .code inWord, c, rest => readCode inWord c rest
  | .lineComment, _, _ => (.lineComment, .lineComment)
  | .blockComment depth true, _, _ => (.blockComment depth, .blockComment depth false)
  | .blockComment depth false, c, rest =>
      if c = '*' ∧ rest.head? = some '/' then (.blockComment depth, behindComment depth)
      else if c = '/' ∧ rest.head? = some '*' then
        (.blockComment (depth + 1), .blockComment (depth + 1) true)
      else (.blockComment depth, .blockComment depth false)
  | .commentEnd, _, _ => (.commentEnd, .code false)
  | .front (ahead + 1) raw, _, _ => (.raw, .front ahead raw)
  | .front 0 none, c, _ => (.opens, .literal c false)
  | .front 0 (some hashes), _, _ => (.raw, .raw hashes)
  | .literal quote true, _, _ => (.inside, .literal quote false)
  | .literal quote false, c, _ =>
      if c = quote then (.closes, .code true) else (.inside, .literal quote (c == '\\'))
  | .raw hashes, c, rest =>
      if c = '"' ∧ (List.replicate hashes '#').isPrefixOf rest then (.raw, behindRaw hashes)
      else (.raw, .raw hashes)
  | .hashes ahead, _, _ => (.raw, behindRaw (ahead - 1))

/-- At the end of a line, only block comments, raw literals and strings stay open. -/
def nextLine : Mode → Mode
  | .code _ | .lineComment => .code false
  | .literal quote _ => if quote = '"' then .literal quote false else .code false
  | mode => mode

/-- A character, what it belongs to, and where it stands in its line. -/
structure Glyph where
  char : Char
  kind : Kind
  column : ℕ
  deriving DecidableEq

/-- A line, or the rest of one from a column on. -/
def readFrom (mode : Mode) (column : ℕ) : List Char → List Glyph
  | [] => []
  | c :: rest =>
      ⟨c, (readChar mode c rest).1, column⟩ :: readFrom (readChar mode c rest).2 (column + 1) rest

/-- What is open behind a text. -/
def modeAfter (mode : Mode) : List Char → Mode
  | [] => mode
  | c :: rest => modeAfter (readChar mode c rest).2 rest

/-- The lines of a text. -/
def readLines (mode : Mode) : List (List Char) → List (List Glyph)
  | [] => []
  | line :: lines => readFrom mode 0 line :: readLines (nextLine (modeAfter mode line)) lines

/-! ## §2. The first line. -/

/-- The comment that starts here is documentation, and so a token. -/
def isDoc : List Char → Bool
  | '/' :: '/' :: '!' :: _ | '/' :: '*' :: '!' :: _ => true
  | '/' :: '/' :: '/' :: rest => rest.head? != some '/'
  | '/' :: '*' :: '*' :: rest => rest.head? != some '*' && rest.head? != some '/'
  | _ => false

/-- The first token of a line is a bracket; nothing where the line has none. -/
def bracketFirst (mode : Mode) : List Char → Option Bool
  | [] => none
  | c :: rest =>
      if (mode = .code false ∨ mode = .code true) ∧ isDoc (c :: rest) then some false
      else
        match (readChar mode c rest).1 with
        | .blank | .lineComment | .blockComment _ | .commentEnd =>
            bracketFirst (readChar mode c rest).2 rest
        | _ => some (c == '[')

/-- The first token of a text is a bracket. -/
def bracketFirstOf (mode : Mode) : List (List Char) → Bool
  | [] => false
  | line :: lines =>
      (bracketFirst mode line).getD (bracketFirstOf (nextLine (modeAfter mode line)) lines)

/-- The text starts with `#!`, and with no attribute. -/
def hasShebang : List (List Char) → Bool
  | [] => false
  | line :: lines =>
      match if line.head? = some byteOrderMark then line.tail else line with
      | '#' :: '!' :: rest => !bracketFirstOf (.code false) (rest :: lines)
      | _ => false

/-- The lines of a program, the first of which may not be for Rust. -/
def readProgram (lines : List (List Char)) : List (List Glyph) :=
  readLines (if hasShebang lines then .lineComment else .code false) lines

/-- A shebang, and an attribute that looks like one. -/
example :
    hasShebang ["#!/usr/bin/env run".toList, "fn main() {}".toList] = true
      ∧ hasShebang ["#! // no".toList, "[allow(dead_code)]".toList] = false := by decide

/-! ## §3. Lines and their parts. -/

theorem chars_readFrom (mode : Mode) (column : ℕ) (line : List Char) :
    (readFrom mode column line).map Glyph.char = line := by
  induction line generalizing mode column with
  | nil => rfl
  | cons c rest ih => rw [readFrom, List.map_cons, ih]

theorem chars_readLines (mode : Mode) (lines : List (List Char)) :
    (readLines mode lines).map (List.map Glyph.char) = lines := by
  induction lines generalizing mode with
  | nil => rfl
  | cons line lines ih => rw [readLines, List.map_cons, chars_readFrom, ih]

theorem column_le (mode : Mode) (column : ℕ) (line : List Char) :
    ∀ g ∈ readFrom mode column line, column ≤ g.column := by
  induction line generalizing mode column with
  | nil =>
      intro g hg
      cases hg
  | cons c rest ih =>
      intro g hg
      rw [readFrom, List.mem_cons] at hg
      rcases hg with rfl | hg
      · exact le_refl column
      · have hle := ih _ _ g hg
        omega

/-- No glyph of a line is there twice. -/
theorem nodup_readFrom (mode : Mode) (column : ℕ) (line : List Char) :
    (readFrom mode column line).Nodup := by
  induction line generalizing mode column with
  | nil => exact List.nodup_nil
  | cons c rest ih =>
      rw [readFrom, List.nodup_cons]
      refine ⟨?_, ih _ _⟩
      intro hmem
      have hle := column_le _ _ _ _ hmem
      dsimp only at hle
      omega

/-! ## §4. What a mode says. -/

/-- No block comment is open. -/
def Mode.isOutside : Mode → Bool
  | .blockComment _ _ | .commentEnd => false
  | _ => true

/-- The kinds of the characters of block comments. -/
def Kind.isComment : Kind → Bool
  | .blockComment _ | .commentEnd => true
  | _ => false

/-- What is read of a character, in front of the rest of its line. -/
structure Tells (mode : Mode) (c : Char) (rest : List Char) (result : Kind × Mode) : Prop where
  /-- A token has no white space. -/
  code : result.1 = .code → isBlank c = false
  /-- Block comments are opened by their mark, and by nothing else. -/
  outside : mode.isOutside = true →
    (c = '/' ∧ rest.head? = some '*' ∧ result = (.blockComment 0, .blockComment 0 true))
      ∨ (result.1.isComment = false ∧ result.2.isOutside = true)

theorem tells_readCode (inWord : Bool) (c : Char) (rest : List Char) :
    Tells (.code inWord) c rest (readCode inWord c rest) := by
  unfold readCode
  by_cases hline : c = '/' ∧ rest.head? = some '/'
  · rw [if_pos hline]
    exact ⟨by simp, fun _ => .inr ⟨rfl, rfl⟩⟩
  rw [if_neg hline]
  by_cases hblock : c = '/' ∧ rest.head? = some '*'
  · rw [if_pos hblock]
    exact ⟨by simp, fun _ => .inl ⟨hblock.1, hblock.2, rfl⟩⟩
  rw [if_neg hblock]
  by_cases hstring : c = '"'
  · rw [if_pos hstring]
    exact ⟨by simp, fun _ => .inr ⟨rfl, rfl⟩⟩
  rw [if_neg hstring]
  by_cases hquote : c = '\''
  · have hblank : isBlank '\'' = false := by decide
    rw [if_pos hquote, hquote]
    split_ifs
    · exact ⟨by simp, fun _ => .inr ⟨rfl, rfl⟩⟩
    · exact ⟨fun _ => hblank, fun _ => .inr ⟨rfl, rfl⟩⟩
  rw [if_neg hquote]
  split
  · exact ⟨by simp, fun _ => .inr ⟨rfl, rfl⟩⟩
  · by_cases hblank : isBlank c = true
    · rw [if_pos hblank]
      exact ⟨by simp, fun _ => .inr ⟨rfl, rfl⟩⟩
    · rw [if_neg hblank]
      exact ⟨fun _ => Bool.not_eq_true _ ▸ hblank, fun _ => .inr ⟨rfl, rfl⟩⟩

theorem isOutside_behindRaw (ahead : ℕ) : (behindRaw ahead).isOutside = true := by
  unfold behindRaw
  split_ifs <;> rfl

theorem tells_readChar (mode : Mode) (c : Char) (rest : List Char) :
    Tells mode c rest (readChar mode c rest) := by
  cases mode with
  | code inWord => exact tells_readCode inWord c rest
  | lineComment => exact ⟨by simp [readChar], fun _ => .inr ⟨rfl, rfl⟩⟩
  | blockComment depth mark =>
      refine ⟨?_, fun h => by cases h⟩
      cases mark with
      | true => simp [readChar]
      | false =>
          rw [readChar]
          split_ifs <;> simp
  | commentEnd => exact ⟨by simp [readChar], fun h => by cases h⟩
  | front ahead raw =>
      cases ahead with
      | succ ahead => exact ⟨by simp [readChar], fun _ => .inr ⟨rfl, rfl⟩⟩
      | zero => cases raw <;> exact ⟨by simp [readChar], fun _ => .inr ⟨rfl, rfl⟩⟩
  | literal quote escaped =>
      cases escaped with
      | true => exact ⟨by simp [readChar], fun _ => .inr ⟨rfl, rfl⟩⟩
      | false =>
          rw [readChar]
          split_ifs <;> exact ⟨by simp, fun _ => .inr ⟨rfl, rfl⟩⟩
  | raw hashes =>
      rw [readChar]
      split_ifs
      · exact ⟨by simp, fun _ => .inr ⟨rfl, isOutside_behindRaw hashes⟩⟩
      · exact ⟨by simp, fun _ => .inr ⟨rfl, rfl⟩⟩
  | hashes ahead =>
      exact ⟨by simp [readChar], fun _ => .inr ⟨rfl, isOutside_behindRaw (ahead - 1)⟩⟩

theorem isOutside_nextLine {mode : Mode} (h : mode.isOutside = true) :
    (nextLine mode).isOutside = true := by
  cases mode with
  | literal quote escaped =>
      rw [nextLine]
      split_ifs <;> rfl
  | code inWord => rfl
  | lineComment => rfl
  | _ => exact h

/-- A character of code is no white space. -/
theorem code_of_readFrom {mode : Mode} {column : ℕ} {line : List Char} {glyph : Glyph}
    (h : glyph ∈ readFrom mode column line) (hcode : glyph.kind = .code) :
    isBlank glyph.char = false := by
  induction line generalizing mode column with
  | nil => cases h
  | cons c rest ih =>
      rw [readFrom, List.mem_cons] at h
      rcases h with rfl | h
      · exact (tells_readChar mode c rest).code hcode
      · exact ih h

end RustLexer
