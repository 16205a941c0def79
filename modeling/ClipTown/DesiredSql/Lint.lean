/-
  ClipTown.DesiredSql.Lint — the conformance lint for desired SQL states
  (`scripts/verify-desired-sql-v3.mjs`).

  The lint reads the SQL with regular expressions: it looks for function bodies
  in dollar quotes and in them for calls that depend on `search_path`, and for
  `CREATE POLICY` that no `DO` block opens in front of.
-/
import ClipTown.Lib.Patterns

namespace ClipTown.DesiredSql

open Patterns

/-! ## §1. What the regular expressions are made of. -/

/-- `\s`. -/
def isSpace (c : Char) : Bool :=
  let n := c.toNat
  (9 ≤ n && n ≤ 13) || n == 32 || n == 0xa0 || n == 0x1680 || (0x2000 ≤ n && n ≤ 0x200a)
    || n == 0x2028 || n == 0x2029 || n == 0x202f || n == 0x205f || n == 0x3000 || n == 0xfeff

/-- `\w`. -/
def isWord (c : Char) : Bool := c.isAlphanum || c == '_'

/-- `[A-Za-z_]`. -/
def isTagLetter (c : Char) : Bool := c.isAlpha || c == '_'

/-- Letters under the flag `i`; past ASCII it changes none of the letters below. -/
def sameLetter (c d : Char) : Bool := c.toUpper == d.toUpper

/-- A word of a pattern with the flag `i`. -/
def caseless (word : String) : Pattern := Pattern.letters sameLetter word.toList

def char (c : Char) : Pattern := .one (· == c)

/-- `\s*` and `\s+`. -/
def spaces : Pattern := .many isSpace
def someSpaces : Pattern := Pattern.some_ isSpace

/-- `[\s\S]*?`. -/
def anything : Pattern := .few fun _ => true

/-- `\$[A-Za-z_]*\$`. -/
def dollarTag : Pattern := .seq (char '$') (.seq (.many isTagLetter) (char '$'))

/-- `\b`. -/
def wordBoundary (before rest : List Char) : Bool :=
  before.getLast?.any isWord != rest.head?.any isWord

/-- A pattern with `\b` in front. -/
def bounded (as : List Pattern) : Matcher := fun before rest =>
  if wordBoundary before rest then matchParts as rest else none

/-- `text.split('\n').length`. -/
def lineCount (text : List Char) : ℕ := text.count '\n' + 1

/-- `text.lastIndexOf(c)`. -/
def lastIndexOf (c : Char) (text : List Char) : ℤ :=
  text.length - 1 - (text.reverse.takeWhile (· != c)).length

/-! ## §2. Function bodies. -/

/-- The `re` of `sqlFunctionBodies`, cut at its groups. -/
def functionHeader : List Pattern :=
  [.seq (caseless "CREATE") (.seq someSpaces (.seq
      (Pattern.opt (.seq (caseless "OR") (.seq someSpaces (.seq (caseless "REPLACE") someSpaces))))
      (.seq (caseless "FUNCTION") someSpaces))),
    Pattern.some_ fun c => isWord c || c == '"' || c == '.',
    .seq spaces (char '('),
    anything,
    .seq (char ')') (.seq spaces (caseless "RETURNS")),
    anything,
    .seq (caseless "AS") someSpaces,
    dollarTag]

/-- `/\bSET\s+search_path\s*=/i`. -/
def setSearchPathParts : List Pattern :=
  [caseless "SET", someSpaces, caseless "search_path", spaces, char '=']

structure FunctionBody where
  name : List Char
  preamble : List Char
  body : List Char
  hasSetSearchPath : Bool
  line : ℕ
  deriving DecidableEq

/-- One turn of the loop: the body up to the next place of the tag, if there is one. -/
def functionBody (text before : List Char) (parts : List (List Char)) : Option FunctionBody :=
  match parts with
  | [_, name, _, _, _, preamble, _, tag] =>
      let bodyStart := before.length + parts.flatten.length
      (textBefore tag (text.drop bodyStart)).map fun body =>
        { name, preamble, body
          hasSetSearchPath := test (bounded setSearchPathParts) preamble
          line := lineCount before }
  | _ => none

def sqlFunctionBodies (text : List Char) : List FunctionBody :=
  (scan (fun _ => matchParts functionHeader) 0 [] text).filterMap fun m =>
    functionBody text m.1 m.2

/-! ## §3. The two checks. -/

/-- `SEARCH_PATH_SENSITIVE`. -/
def searchPathSensitive : List String :=
  ["vector_dims", "vector_norm", "l2_normalize", "binary_quantize", "subvector",
    "cosine_distance", "inner_product", "l2_distance", "l1_distance",
    "array_fill", "cardinality"]

def isQualified (text : List Char) (index : ℕ) : Bool :=
  ((text.take index).reverse.dropWhile isSpace).head? == some '.'

structure CallProblem where
  file : String
  line : ℕ
  fn : List Char
  callee : String
  deriving DecidableEq

/-- `\bcallee\s*\(`, with the flag `g` only. -/
def calleeParts (callee : String) : List Pattern :=
  [Pattern.letters (· == ·) callee.toList, spaces, char '(']

def checkUnqualifiedCalls (file : String) (text : List Char) : List CallProblem :=
  (sqlFunctionBodies text).flatMap fun fn =>
    if fn.hasSetSearchPath then []
    else searchPathSensitive.flatMap fun callee =>
      (scan (bounded (calleeParts callee)) 0 [] fn.body).filterMap fun m =>
        if isQualified fn.body m.1.length then none
        else some { file, line := fn.line + lineCount m.1 - 1, fn := fn.name, callee }

structure PolicyProblem where
  file : String
  line : ℕ
  policy : List Char
  deriving DecidableEq

/-- `/CREATE\s+POLICY\s+([\w"]+)/gi`. -/
def policyParts : List Pattern :=
  [caseless "CREATE", someSpaces, caseless "POLICY", someSpaces,
    Pattern.some_ fun c => isWord c || c == '"']

/-- `DO\s+\$[A-Za-z_]*\$\s*BEGIN` and `[^;]*`. -/
def openerParts : List Pattern :=
  [.seq (caseless "DO") (.seq someSpaces (.seq dollarTag (.seq spaces (caseless "BEGIN")))),
    .many (· != ';')]

/-- With the `$` behind it. -/
def openerPattern : Matcher := fun _ rest => matchWhole openerParts rest

/-- `guarded`. -/
def isGuarded (before : List Char) : Bool :=
  let lastSemi := lastIndexOf ';' before
  let lastDo := search openerPattern before
  lastDo != -1 && lastDo > lastSemi

def checkBarePolicies (file : String) (text : List Char) : List PolicyProblem :=
  (scan (fun _ => matchParts policyParts) 0 [] text).filterMap fun m =>
    if isGuarded m.1 then none
    else some { file, line := lineCount m.1, policy := m.2.getLastD [] }

end ClipTown.DesiredSql
