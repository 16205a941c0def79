/-
  ClipTown.DesiredSql.Statements — what the lint for desired SQL states is for, in
  terms of what PostgreSQL reads.

  Code is the text itself and, in it, the bodies of `DO` blocks and of functions,
  in dollar or single quotes.  Replaying a `CREATE POLICY` fails unless a block
  around it handles `duplicate_object`, and of the handlers in a body only those
  behind the `EXCEPTION` of such a block do; restoring fails on a function that
  calls what only `search_path` finds, unless a `SET search_path` comes with the
  function.

    • `handles` — what the handlers behind a place are good for,
    • `runs_append` — the code is a part of the text, as it is written there.
-/
import ClipTown.Lib.SqlPieces

namespace ClipTown.DesiredSql

open SqlPieces

/-! ## §1. Keywords. -/

/-- A keyword, in any letter case. -/
def isKeyword (keyword : String) : Piece → Bool
  | .word raw => raw.map Char.toUpper == keyword.toList
  | _ => false

def isSemicolon (p : Piece) : Bool := p == .symbol [';']

/-- All but white space and comments. -/
def significant (ps : List Piece) : List Piece := ps.filter fun p => !p.isNoise

def startsWith : List String → List Piece → Bool
  | [], _ => true
  | keyword :: keywords, p :: ps => isKeyword keyword p && startsWith keywords ps
  | _ :: _, [] => false

def holds (keywords : List String) (ps : List Piece) : Bool :=
  ps.tails.any (startsWith keywords)

/-! ## §2. Blocks and functions. -/

/-- From a place in the pieces backwards. -/
def backwards (pre : List Piece) : List Piece := (significant pre).reverse

/-- `DO` or `DO LANGUAGE name` stands in front. -/
def opensBlock (pre : List Piece) : Bool :=
  startsWith ["DO"] (backwards pre) || startsWith ["LANGUAGE", "DO"] (backwards pre).tail

/-- What stands in front in the same statement. -/
def statementBefore (pre : List Piece) : List Piece :=
  ((backwards pre).takeWhile fun p => !isSemicolon p).reverse

def statementAfter (post : List Piece) : List Piece :=
  (significant post).takeWhile fun p => !isSemicolon p

/-- `CREATE FUNCTION … AS` or `CREATE OR REPLACE FUNCTION … AS` stands in front. -/
def opensFunction (pre : List Piece) : Bool :=
  startsWith ["AS"] (backwards pre)
    && (holds ["CREATE", "FUNCTION"] (statementBefore pre)
      || holds ["CREATE", "OR", "REPLACE", "FUNCTION"] (statementBefore pre))

/-- The statement around a function body has a `SET search_path` clause. -/
def setsSearchPath (pre post : List Piece) : Bool :=
  holds ["SET", "SEARCH_PATH"] (statementBefore pre ++ statementAfter post)

/-! ## §3. Handlers. -/

/-- The condition `duplicate_object`: its name or code, those of its class, or the one for all
errors. -/
def namesDuplicate (p : Piece) : Bool :=
  ["DUPLICATE_OBJECT", "SYNTAX_ERROR_OR_ACCESS_RULE_VIOLATION", "OTHERS"].any (isKeyword · p)
    || p ∈ ["'42710'", "'42000'"].map fun code => .literal code.toList

/-- What an `END` can close. -/
inductive Opener where
  | block
  | case
  | loop
  deriving DecidableEq

/-- Whether a block around a place handles `duplicate_object`, from the pieces behind the place.
`opened` is what has been opened there and not closed; with nothing opened, `EXCEPTION WHEN`
starts the handlers of a block around, which are caught until that block ends.  A handler is
`fresh`: it stands behind `EXCEPTION`, a semicolon or another's `THEN`.  A word behind `END`,
`AS` or a dot is `quiet`, no keyword. -/
def handles (opened : List Opener) (catching fresh quiet : Bool) : List Piece → Bool
  | [] => false
  | p :: rest =>
      if quiet then handles opened catching false false rest
      else if isKeyword "BEGIN" p then handles (.block :: opened) catching false false rest
      else if isKeyword "CASE" p then handles (.case :: opened) catching false false rest
      else if isKeyword "LOOP" p then handles (.loop :: opened) catching false false rest
      else if isKeyword "END" p then
        if startsWith ["IF"] rest then handles opened catching false true rest
        -- `FOR … IN SELECT CASE … END LOOP` closes the `CASE` and opens the loop
        else if startsWith ["LOOP"] rest && opened.head? != some .case
            || startsWith ["CASE"] rest then handles opened.tail catching false true rest
        -- with nothing opened, a block around ends, and its handlers with it
        else handles opened.tail (catching && opened != []) false false rest
      else if opened == [] && isKeyword "EXCEPTION" p && startsWith ["WHEN"] rest then
        handles [] true true false rest
      else if opened == [] && catching && fresh && isKeyword "WHEN" p
          && (rest.takeWhile fun q => !isKeyword "THEN" q).any namesDuplicate then true
      else handles opened catching (isSemicolon p || isKeyword "THEN" p)
        (isKeyword "AS" p || p == .symbol ['.']) rest

/-- A block around the place in front of the pieces handles `duplicate_object`. -/
def handledBehind (post : List Piece) : Bool := handles [] false false false (significant post)

example : handledBehind
    (pieces "; BEGIN NULL; END; EXCEPTION WHEN duplicate_object THEN NULL; END".toList) = true := by
  decide

-- the handler of a block that is over before, or is not begun, covers nothing here
example : handledBehind (pieces
    "; BEGIN NULL; EXCEPTION WHEN duplicate_object THEN NULL; END; END".toList) = false := by decide

/-! ## §4. Code in a text. -/

/-- A text between single quotes. -/
def double (text : List Char) : List Char := text.flatMap fun c => if c = '\'' then [c, c] else [c]

@[simp] theorem double_append (a b : List Char) : double (a ++ b) = double a ++ double b :=
  List.flatMap_append

/-- A text without single quotes stands between them as it is. -/
theorem double_eq {text : List Char} (h : '\'' ∉ text) : double text = text := by
  have hsame : ∀ c ∈ text, (if c = '\'' then [c, c] else [c]) = [c] := by
    intro c hc
    rw [if_neg]
    rintro rfl
    exact h hc
  unfold double
  rw [List.flatMap_congr hsame, List.flatMap_singleton']

/-- Code, and where in a text it is. -/
structure Script where
  /-- The text in front of it. -/
  before : List Char
  code : List Char
  /-- How it is written in the text. -/
  written : List Char → List Char := id
  /-- It is the body of a `DO` block. -/
  isBlock : Bool := false
  /-- It is inside a block that handles `duplicate_object`. -/
  handled : Bool := false

/-- In front of the pieces, a block around handles `duplicate_object`. -/
def Script.handledAt (s : Script) (post : List Piece) : Bool :=
  s.handled || (s.isBlock && handledBehind post)

/-- The piece quotes the text, behind these characters and written so. -/
inductive Quotes : Piece → List Char → (List Char → List Char) → List Char → Prop
  | dollar (tag text : List Char) : Quotes (.dollar tag text) (delimiter tag) id text
  | literal (text : List Char) :
      Quotes (.literal ('\'' :: double text ++ ['\''])) ['\''] double text

/-- The code that a text has. -/
inductive Runs (text : List Char) : Script → Prop
  | whole : Runs text { before := [], code := text }
  | block {s : Script} {pre post : List Piece} {quote : Piece} {front body : List Char}
      {written : List Char → List Char} (outer : Runs text s)
      (reads : pieces s.code = pre ++ quote :: post) (quotes : Quotes quote front written body)
      (opened : opensBlock pre = true) :
      Runs text {
        before := s.before ++ s.written (raws pre ++ front), code := body
        written := s.written ∘ written, isBlock := true, handled := s.handledAt post }
  | function {s : Script} {pre post : List Piece} {quote : Piece} {front body : List Char}
      {written : List Char → List Char} (outer : Runs text s)
      (reads : pieces s.code = pre ++ quote :: post) (quotes : Quotes quote front written body)
      (opened : opensFunction pre = true) :
      Runs text {
        before := s.before ++ s.written (raws pre ++ front), code := body
        written := s.written ∘ written, handled := s.handledAt post }

/-- A way to write code: part by part, and as it is where it has no single quote. -/
structure IsWriting (written : List Char → List Char) : Prop where
  append : ∀ a b, written (a ++ b) = written a ++ written b
  plain : ∀ text, '\'' ∉ text → written text = text

theorem isWriting_of_quotes {quote : Piece} {front body : List Char}
    {written : List Char → List Char} (h : Quotes quote front written body) :
    IsWriting written := by
  cases h with
  | dollar tag text => exact ⟨fun _ _ => rfl, fun _ _ => rfl⟩
  | literal text => exact ⟨double_append, fun _ => double_eq⟩

theorem IsWriting.comp {f g : List Char → List Char} (hf : IsWriting f) (hg : IsWriting g) :
    IsWriting (f ∘ g) where
  append a b := by
    rw [Function.comp_apply, hg.append, hf.append]
    rfl
  plain text h := by
    rw [Function.comp_apply, hg.plain text h, hf.plain text h]

/-- What is quoted stands in the piece as it is written. -/
theorem raw_of_quotes {quote : Piece} {front body : List Char}
    {written : List Char → List Char} (h : Quotes quote front written body) :
    ∃ back, quote.raw = front ++ written body ++ back := by
  cases h with
  | dollar tag text => exact ⟨delimiter tag, rfl⟩
  | literal text => exact ⟨['\''], rfl⟩

/-- **The code is a part of the text**, as it is written there. -/
theorem runs_append {text : List Char} {s : Script} (h : Runs text s) :
    IsWriting s.written ∧ ∃ after, text = s.before ++ s.written s.code ++ after := by
  have hinner : ∀ {s : Script} {pre post : List Piece} {quote : Piece} {front body : List Char}
      {written : List Char → List Char}, pieces s.code = pre ++ quote :: post →
      Quotes quote front written body →
      (IsWriting s.written ∧ ∃ after, text = s.before ++ s.written s.code ++ after) →
      IsWriting (s.written ∘ written) ∧ ∃ after,
        text = s.before ++ s.written (raws pre ++ front) ++ s.written (written body) ++ after := by
    intro s pre post quote front body written hreads hquotes houter
    obtain ⟨hwriting, after, htext⟩ := houter
    obtain ⟨back, hraw⟩ := raw_of_quotes hquotes
    have hcode := raws_pieces s.code
    rw [hreads, raws_append, raws_cons, hraw] at hcode
    refine ⟨hwriting.comp (isWriting_of_quotes hquotes), s.written (back ++ raws post) ++ after, ?_⟩
    rw [htext, ← hcode]
    simp only [hwriting.append, List.append_assoc]
  induction h with
  | whole => exact ⟨⟨fun _ _ => rfl, fun _ _ => rfl⟩, [], (List.append_nil _).symm⟩
  | block _ reads quotes _ ih => exact hinner reads quotes ih
  | function _ reads quotes _ ih => exact hinner reads quotes ih

/-! ## §5. What must not be. -/

/-- A `CREATE POLICY` in a piece of code. -/
structure PolicyStatement (s : Script) where
  pre : List Piece
  create : List Char
  between : List Piece
  policy : List Char
  post : List Piece
  reads : pieces s.code = pre ++ .word create :: (between ++ .word policy :: post)
  isCreate : create.map Char.toUpper = "CREATE".toList
  noise : ∀ p ∈ between, p.isNoise = true
  isPolicy : policy.map Char.toUpper = "POLICY".toList

/-- Every `CREATE POLICY` is in the body of a block that handles `duplicate_object` there. -/
def PoliciesHandled (text : List Char) : Prop :=
  ∀ s, Runs text s → ∀ p : PolicyStatement s, s.handledAt p.post = true

/-- A body of a function that no `SET search_path` comes with. -/
def UnpinnedBody (text body : List Char) : Prop :=
  ∃ s pre tag post, Runs text s ∧ pieces s.code = pre ++ .dollar tag body :: post
    ∧ opensFunction pre = true ∧ setsSearchPath pre post = false

/-- A piece names a function, in any letter case or in double quotes. -/
def names (callee : String) : Piece → Bool
  | .word raw => raw.map Char.toLower == callee.toList
  | .name raw => raw == '"' :: callee.toList ++ ['"']
  | _ => false

/-- A call of a function that no schema is named for. -/
structure UnqualifiedCall (body : List Char) (callee : String) where
  pre : List Piece
  called : Piece
  post : List Piece
  reads : pieces body = pre ++ called :: post
  isNamed : names callee called = true
  isCalled : (significant post).head? = some (.symbol ['('])
  unqualified : (significant pre).getLast? ≠ some (.symbol ['.'])

/-- No body of a function without a `SET search_path` calls one of the functions unqualified. -/
def CallsQualified (callees : List String) (text : List Char) : Prop :=
  ∀ body, UnpinnedBody text body → ∀ callee ∈ callees, IsEmpty (UnqualifiedCall body callee)

end ClipTown.DesiredSql
