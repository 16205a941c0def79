/-
  ClipTown.SchemaOrm.Fragments — the checks on names and SQL text of the schema
  generator (`tools/schema-orm/core.mjs`, `IDENTIFIER` to `assertSqlExpression`).

  `assertSqlExpression` walks over an expression with a flag for single quotes
  and a parenthesis depth; double quotes are ordinary characters to it.

    • `isSqlExpression_of_eq_ok` — what an accepted expression is.
-/
import Mathlib.Computability.RegularExpressions
import ClipTown.Lib.Checks
import ClipTown.Lib.DdlOutline

namespace ClipTown.SchemaOrm

open Checks

/-! ## §1. Failures and regular expressions. -/

/-- How the generator stops: `fail(message)`, or a `TypeError` of the runtime. -/
inductive Failure where
  | error (message : String)
  | typeError
  deriving DecidableEq, Repr

abbrev Result := Except Failure

def fail {α : Type} (message : String) : Result α := .error (.error message)

/-- Fail where the condition holds. -/
def failIf (p : Prop) [Decidable p] (message : String) : Result Unit :=
  rejectIf p (.error message)

@[simp] theorem failIf_eq_ok {p : Prop} [Decidable p] {message : String} {u : Unit} :
    failIf p message = .ok u ↔ ¬ p := rejectIf_eq_ok

/-- `[…]`. -/
def charClass (chars : List Char) : RegularExpression Char :=
  chars.foldr (fun c r => .plus (.char c) r) .zero

/-- `r?`. -/
def opt (r : RegularExpression Char) : RegularExpression Char := .plus .epsilon r

/-- `r+`. -/
def plus (r : RegularExpression Char) : RegularExpression Char := .comp r (.star r)

def lowercase : List Char := "abcdefghijklmnopqrstuvwxyz".toList
def uppercase : List Char := "ABCDEFGHIJKLMNOPQRSTUVWXYZ".toList
def digits : List Char := "0123456789".toList

/-- The characters of `\s`. -/
def whitespace : List Char :=
  [' ', '\t', '\n', '\x0b', '\x0c', '\r', '\u00a0', '\u1680', '\u2000', '\u2001', '\u2002',
    '\u2003', '\u2004', '\u2005', '\u2006', '\u2007', '\u2008', '\u2009', '\u200a', '\u2028',
    '\u2029', '\u202f', '\u205f', '\u3000', '\ufeff']

/-- `[A-Za-z_]`. -/
def letter : RegularExpression Char := charClass (uppercase ++ lowercase ++ ['_'])

/-- `\s`. -/
def space : RegularExpression Char := charClass whitespace

/-- `\d+`. -/
def number : RegularExpression Char := plus (charClass digits)

/-- `[A-Za-z_][A-Za-z0-9_.]*(?:\s+[A-Za-z_][A-Za-z0-9_]*)*`. -/
def sqlTypeName : RegularExpression Char :=
  .comp letter
    (.comp (.star (charClass (uppercase ++ lowercase ++ digits ++ ['_', '.'])))
      (.star (.comp (plus space)
        (.comp letter (.star (charClass (uppercase ++ lowercase ++ digits ++ ['_'])))))))

/-- `\s*\d+(?:\s*,\s*\d+)?\s*`. -/
def sqlTypeArguments : RegularExpression Char :=
  .comp (.star space)
    (.comp number
      (.comp (opt (.comp (.star space) (.comp (.char ',') (.comp (.star space) number))))
        (.star space)))

/-- `SQL_TYPE`. -/
def sqlTypePattern : RegularExpression Char :=
  .comp sqlTypeName
    (.comp (opt (.comp (.char '(') (.comp sqlTypeArguments (.char ')'))))
      (.star (.comp (.char '[') (.char ']'))))

/-- The runs of `\w` characters, in lower case. -/
def words (text : List Char) : List (List Char) :=
  (text.splitOnP fun c => !(c ∈ uppercase ++ lowercase ++ digits ++ ['_'])).map
    (·.map Char.toLower)

/-- `/\b(?:…)\b/i` finds one of the keywords. -/
def hasKeyword (keywords : List String) (text : List Char) : Bool :=
  (words text).any fun word => String.ofList word ∈ keywords

/-- `SQL_TYPE_CLAUSE`. -/
def sqlTypeClause : List String :=
  ["check", "collate", "constraint", "default", "generated", "not", "null", "primary",
    "references", "unique"]

/-- `SQL_STATEMENT_KEYWORD`. -/
def sqlStatementKeyword : List String :=
  ["alter", "call", "comment", "copy", "create", "delete", "do", "drop", "execute", "grant",
    "insert", "listen", "load", "merge", "notify", "revoke", "select", "security", "set",
    "truncate", "update", "vacuum", "with"]

/-! ## §2. The checks. -/

/-- `assertSingleLine`. -/
def assertSingleLine (value label : String) : Result Unit := do
  failIf (value = "") (label ++ " must be a non-empty string")
  failIf (value.toList.any fun c => c ∈ ['\x00', '\r', '\n', '\u2028', '\u2029'])
    (label ++ " must be a single line")

/-- `IDENTIFIER`. -/
def isIdentifier (value : String) : Bool :=
  match value.toList with
  | [] => false
  | c :: rest => (c ∈ lowercase || c == '_') && rest.all fun d => d ∈ lowercase ++ digits ++ ['_']

/-- `assertIdentifier`. -/
def assertIdentifier (value label : String) : Result Unit :=
  failIf (isIdentifier value = false)
    (label ++ " must be a safe snake_case identifier: " ++ value)

/-- `assertSqlType`. -/
def assertSqlType (value label : String) : Result Unit := do
  assertSingleLine value label
  failIf (sqlTypePattern.rmatch value.toList = false ∨ hasKeyword sqlTypeClause value.toList)
    (label ++ " is not a safe SQL type fragment: " ++ value)

/-- The loop of `assertSqlExpression`: walk over the characters with the depth and the
quote flag, and return the text with every literal as `''`. -/
def scanFragment (label : String) : Nat → Bool → List Char → Result (List Char)
  | depth, quoted, [] => do
      failIf (quoted = true) (label ++ " contains an unterminated SQL string literal")
      failIf (depth ≠ 0) (label ++ " contains unbalanced parentheses")
      return []
  | depth, true, '\'' :: '\'' :: rest => scanFragment label depth true rest
  | depth, true, c :: rest => scanFragment label depth (c ≠ '\'') rest
  | depth, false, c :: rest =>
      if c = '\'' then do
        return '\'' :: '\'' :: (← scanFragment label depth true rest)
      else if c = '(' then do
        return c :: (← scanFragment label (depth + 1) false rest)
      else if c = ')' then
        if depth = 0 then fail (label ++ " closes a parenthesis outside its expression")
        else do return c :: (← scanFragment label (depth - 1) false rest)
      else if c = ',' ∧ depth = 0 then
        fail (label ++ " contains a top-level comma that could escape its SQL clause")
      else do
        return c :: (← scanFragment label depth false rest)

/-- `String.prototype.includes`. -/
def includes (value pattern : String) : Prop := pattern.toList <:+: value.toList

instance (value pattern : String) : Decidable (includes value pattern) := by
  unfold includes; infer_instance

/-- `assertSqlExpression`. -/
def assertSqlExpression (value label : String) : Result Unit := do
  assertSingleLine value label
  failIf (includes value ";" ∨ includes value "--" ∨ includes value "/*" ∨ includes value "*/")
    (label ++ " contains a statement terminator or SQL comment")
  let unquoted ← scanFragment label 0 false value.toList
  failIf (hasKeyword sqlStatementKeyword unquoted)
    (label ++ " contains a statement-level SQL keyword")

/-! ## §3. What the checks accept. -/

/-- What an accepted expression is: not empty, without `;`, `--` and `/*`, and
scanned to its end. -/
structure IsSqlExpression (value : String) : Prop where
  nonempty : value ≠ ""
  noTerminator : ¬ includes value ";"
  noLineComment : ¬ includes value "--"
  noBlockComment : ¬ includes value "/*"
  scanned : ∃ label unquoted, scanFragment label 0 false value.toList = .ok unquoted

theorem isSqlExpression_of_eq_ok {value label : String} {u : Unit}
    (h : assertSqlExpression value label = .ok u) : IsSqlExpression value := by
  simp only [assertSqlExpression, assertSingleLine, do_eq_ok, failIf_eq_ok, exists_unit,
    not_or] at h
  obtain ⟨⟨hne, _⟩, ⟨hterm, hline, hblock, _⟩, unquoted, hscan, _⟩ := h
  exact ⟨hne, hterm, hline, hblock, label, unquoted, hscan⟩

end ClipTown.SchemaOrm
