/-
  ClipTown.Lib.DdlOutline — the outline of a file of `create` statements.

  `outline` reads the tokens of a file and keeps what shapes its objects: where
  a statement ends, where a clause of a `create table` starts and what name it
  starts with, and which constraints a clause carries.  An expression inside a
  clause leaves no mark as long as it closes what it opens:

    • `read_of_level` — a bracketed stretch of tokens returns to its depth,
    • `read_marks_eq_nil` — and leaves no mark inside parentheses or outside a
      `create table`,
    • `read_alike` — after states that differ in the last token only, a firm
      token reads the same,
    • `outline_split` — the outline of a file around a stretch of it.
-/
import ClipTown.Lib.SqlLexer

namespace DdlOutline

open SqlLexer

/-! ## §1. The reader. -/

/-- What the last token was: a name is next, an operand is next, an operand is
complete, or `not` stands after one. -/
inductive After where
  | start
  | operator
  | operand
  | negation
  deriving DecidableEq, Repr

/-- Keywords that an operand or a condition follows. -/
def connectives : List String :=
  ["default", "is", "and", "or", "case", "when", "then", "else", "distinct", "from", "like",
    "ilike", "between", "similar", "to", "in", "set"]

/-- Keywords that start a constraint wherever they stand in a clause. -/
def constraintWords : List String :=
  ["default", "unique", "primary", "check", "references", "constraint"]

/-- What the outline keeps. -/
inductive Mark where
  /-- The end of a statement. -/
  | statement
  /-- The comma between two clauses of a table. -/
  | clause
  /-- The word a clause starts with. -/
  | name (word : String)
  | constraint (word : String)
  deriving DecidableEq, Repr

structure Reading where
  /-- The first two words of the statement. -/
  head : List String := []
  /-- The parentheses that are open. -/
  depth : Nat := 0
  after : After := .start
  deriving DecidableEq, Repr

/-- The statement creates a table. -/
def Reading.isTable (r : Reading) : Bool := r.head = ["create", "table"]

/-- The reader is at the level of a table's clauses. -/
def Reading.inClause (r : Reading) : Bool := r.isTable && r.depth = 1

def After.word (after : After) (word : String) : After :=
  if word = "not" then (if after = .operand then .negation else .operator)
  else if word ∈ connectives then .operator
  else .operand

/-- The mark a word leaves in a clause. -/
def wordMarks (after : After) (word : String) : List Mark :=
  if after = .start then [.name word]
  else if word ∈ constraintWords then [.constraint word]
  -- after an operator NULL is a value, and after NOT a part of the constraint NOT NULL
  else if word = "null" ∧ after = .operand then [.constraint "null"]
  else if word = "null" ∧ after = .negation then [.constraint "not null"]
  else if word = "generated" ∧ after = .operand then [.constraint "generated"]
  else []

def stepToken (r : Reading) : Token → Reading × List Mark
  | .word word =>
      ({ r with head := if r.head.length < 2 then r.head ++ [word] else r.head,
                after := r.after.word word },
        if r.inClause then wordMarks r.after word else [])
  | .quoted => ({ r with after := .operand }, [])
  | .symbol c =>
      -- a statement leaves nothing behind for the next one
      if c = ';' then ({}, [.statement])
      else if c = '(' then ({ r with depth := r.depth + 1, after := .start }, [])
      else if c = ')' then ({ r with depth := r.depth - 1, after := .operand }, [])
      else if c = ',' then ({ r with after := .start }, if r.inClause then [.clause] else [])
      else if c = ']' then ({ r with after := .operand }, [])
      else ({ r with after := .operator }, [])

def read (r : Reading) : List Token → Reading × List Mark
  | [] => (r, [])
  | t :: ts => ((read (stepToken r t).1 ts).1, (stepToken r t).2 ++ (read (stepToken r t).1 ts).2)

/-- The outline of a file. -/
def outline (text : List Char) : List Mark := (read {} (tokens (items text))).2

@[simp] theorem read_nil (r : Reading) : read r [] = (r, []) := rfl

theorem read_cons (r : Reading) (t : Token) (ts : List Token) :
    read r (t :: ts)
      = ((read (stepToken r t).1 ts).1,
          (stepToken r t).2 ++ (read (stepToken r t).1 ts).2) := rfl

theorem read_append (r : Reading) (ts us : List Token) :
    read r (ts ++ us)
      = ((read (read r ts).1 us).1, (read r ts).2 ++ (read (read r ts).1 us).2) := by
  induction ts generalizing r with
  | nil => simp
  | cons t ts ih => rw [List.cons_append, read_cons, ih, read_cons]; simp [List.append_assoc]

/-! ## §2. Brackets. -/

/-- A parenthesis or a comma outside quotes. -/
def bracketOf : Item → Option Char
  | .char c => if c = '(' ∨ c = ')' ∨ c = ',' then some c else none
  | _ => none

/-- The parentheses and commas of a list of items. -/
def brackets (items : List Item) : List Char := items.filterMap bracketOf

/-- Follow the parentheses from a depth: nothing where one closes below zero, or, unless
`commas` are free, where a comma stands at depth zero. -/
def level (commas : Bool) : Nat → List Char → Option Nat
  | d, [] => some d
  | d, c :: rest =>
      if c = '(' then level commas (d + 1) rest
      else if c = ')' then (if d = 0 then none else level commas (d - 1) rest)
      else if c = ',' ∧ d = 0 ∧ commas = false then none
      else level commas d rest

@[simp] theorem level_nil (commas : Bool) (d : Nat) : level commas d [] = some d := rfl

theorem level_cons (commas : Bool) (d : Nat) (c : Char) (rest : List Char) :
    level commas d (c :: rest)
      = if c = '(' then level commas (d + 1) rest
        else if c = ')' then (if d = 0 then none else level commas (d - 1) rest)
        else if c = ',' ∧ d = 0 ∧ commas = false then none
        else level commas d rest := rfl

/-- A stretch without free commas is one with them. -/
theorem level_free {commas : Bool} {d d' : Nat} {cs : List Char}
    (h : level commas d cs = some d') : level true d cs = some d' := by
  induction cs generalizing d with
  | nil => exact h
  | cons c cs ih =>
      rw [level_cons] at h ⊢
      split_ifs at h ⊢ <;> first | exact ih h | simp_all

theorem level_append {commas : Bool} {d d' : Nat} {cs cs' : List Char}
    (h : level commas d cs = some d') : level commas d (cs ++ cs') = level commas d' cs' := by
  induction cs generalizing d with
  | nil => cases h; rfl
  | cons c cs ih =>
      rw [List.cons_append, level_cons]
      rw [level_cons] at h
      split_ifs at h ⊢ <;> exact ih h

/-- Where parentheses close, they close from any greater depth. -/
theorem level_add {commas : Bool} {d d' : Nat} {cs : List Char}
    (h : level commas d cs = some d') (k : Nat) : level commas (d + k) cs = some (d' + k) := by
  induction cs generalizing d with
  | nil => cases h; rfl
  | cons c cs ih =>
      rw [level_cons] at h ⊢
      by_cases hopen : c = '('
      · rw [if_pos hopen] at h ⊢
        rw [show d + k + 1 = d + 1 + k by omega]
        exact ih h
      · rw [if_neg hopen] at h ⊢
        by_cases hclose : c = ')'
        · rw [if_pos hclose] at h ⊢
          by_cases hd : d = 0
          · rw [if_pos hd] at h
            cases h
          · rw [if_neg hd] at h
            rw [if_neg (by omega), show d + k - 1 = d - 1 + k by omega]
            exact ih h
        · rw [if_neg hclose] at h ⊢
          by_cases hcomma : c = ',' ∧ d = 0 ∧ commas = false
          · rw [if_pos hcomma] at h
            cases h
          · rw [if_neg hcomma] at h
            -- a comma that is deep enough stays so
            rw [if_neg fun hc => hcomma ⟨hc.1, by omega, hc.2.2⟩]
            exact ih h

/-! ## §3. Reading a bracketed stretch. -/

/-- The statement does not end among the items. -/
def NoTerminator (items : List Item) : Prop := Item.char ';' ∉ items

section

/-- The parentheses and commas of a token. -/
def tokenBracket : Token → Option Char
  | .symbol c => if c = '(' ∨ c = ')' ∨ c = ',' then some c else none
  | _ => none

theorem filterMap_flush (word : List Char) : (flush word).filterMap tokenBracket = [] := by
  unfold flush
  split <;> rfl

/-- Parentheses and commas are symbols. -/
theorem filterMap_symbolOf (c : Char) :
    (symbolOf c).filterMap tokenBracket = [Item.char c].filterMap bracketOf := by
  unfold symbolOf
  by_cases hc : c = '(' ∨ c = ')' ∨ c = ','
  · rcases hc with rfl | rfl | rfl <;> rfl
  · split <;> simp [tokenBracket, bracketOf, hc]

theorem bracketOf_eq_none {c : Char} (hopen : c ≠ '(') (hclose : c ≠ ')') (hcomma : c ≠ ',') :
    bracketOf (.char c) = none := by
  simp [bracketOf, hopen, hclose, hcomma]

/-- A character of a word is neither a parenthesis nor a comma. -/
theorem bracketOf_of_isWordChar {c : Char} (hc : isWordChar c = true) :
    bracketOf (.char c) = none := by
  apply bracketOf_eq_none <;>
    · intro heq
      rw [heq] at hc
      exact absurd hc (by decide)

/-- **The tokens of a list of items have its brackets.** -/
theorem filterMap_tokensFrom (word : List Char) (items : List Item) :
    (tokensFrom word items).filterMap tokenBracket = brackets items := by
  unfold brackets
  induction items generalizing word with
  | nil => exact filterMap_flush word
  | cons i items ih =>
      cases i with
      | char c =>
          unfold tokensFrom
          split
          next hc => rw [ih, List.filterMap_cons_none (bracketOf_of_isWordChar hc)]
          next hc =>
            rw [List.filterMap_append, List.filterMap_append, filterMap_flush, filterMap_symbolOf,
              ih, List.nil_append, ← List.filterMap_append]
            rfl
      | _ => simp [tokensFrom, filterMap_flush, tokenBracket, bracketOf, List.filterMap_cons, ih]

/-- A terminator among the tokens is one among the items. -/
theorem terminator_of_tokensFrom {word : List Char} {items : List Item}
    (h : Token.symbol ';' ∈ tokensFrom word items) : Item.char ';' ∈ items := by
  -- a word that ends gives no symbol
  have hflush : ∀ w, Token.symbol ';' ∉ flush w := by
    intro w
    unfold flush
    split <;> simp
  induction items generalizing word with
  | nil => exact absurd h (hflush word)
  | cons i items ih =>
      cases i with
      | char c =>
          unfold tokensFrom at h
          split at h
          next => exact List.mem_cons_of_mem _ (ih h)
          next =>
            rcases List.mem_append.mp h with h | h
            · exact absurd h (hflush word)
            · rcases List.mem_append.mp h with h | h
              · unfold symbolOf at h
                split at h
                · cases h
                · rw [List.mem_singleton] at h
                  cases h
                  exact List.mem_cons_self
              · exact List.mem_cons_of_mem _ (ih h)
      | _ =>
          simp only [tokensFrom, List.mem_append, List.mem_cons, hflush, false_or,
            reduceCtorEq] at h
          exact List.mem_cons_of_mem _ (ih h)

end

/-- The state after one token that ends no statement, in a statement whose first two
words are read. -/
theorem stepToken_state {r : Reading} (hhead : r.head.length = 2) {t : Token}
    (ht : t ≠ .symbol ';') :
    (stepToken r t).1.head = r.head
      ∧ (stepToken r t).1.depth
          = (if t = .symbol '(' then r.depth + 1
             else if t = .symbol ')' then r.depth - 1 else r.depth) := by
  cases t with
  | word w => simp [stepToken, hhead]
  | quoted => simp [stepToken]
  | symbol c =>
      have hc : c ≠ ';' := fun heq => ht (by rw [heq])
      simp only [stepToken, if_neg hc, Token.symbol.injEq]
      split_ifs <;> simp_all

/-- One token of a bracketed stretch keeps the reader's depth in step with it. -/
theorem level_stepToken {commas : Bool} {t : Token} {ts : List Token} (ht : t ≠ .symbol ';')
    {d d' base : Nat} (hlevel : level commas d ((t :: ts).filterMap tokenBracket) = some d')
    {r : Reading} (hhead : r.head.length = 2) (hdepth : r.depth = base + d) :
    ∃ e, level commas e (ts.filterMap tokenBracket) = some d'
      ∧ (stepToken r t).1.depth = base + e
      ∧ (t = .symbol '(' → e ≠ 0) ∧ (t = .symbol ',' → commas = false → e ≠ 0) := by
  have hd := (stepToken_state hhead ht).2
  by_cases hopen : t = .symbol '('
  · subst hopen
    exact ⟨d + 1, hlevel, by rw [hd, if_pos rfl, hdepth]; omega, by simp, by simp⟩
  · by_cases hclose : t = .symbol ')'
    · subst hclose
      change (if d = 0 then none else level commas (d - 1) (ts.filterMap tokenBracket)) = some d'
        at hlevel
      split at hlevel
      · cases hlevel
      · exact ⟨d - 1, hlevel, by rw [hd, if_neg hopen, if_pos rfl, hdepth]; omega, by simp, by simp⟩
    -- the depth stays, and a comma counts only where it would end the clause
    · rw [if_neg hopen, if_neg hclose, hdepth] at hd
      by_cases hcomma : t = .symbol ','
      · subst hcomma
        change (if ',' = ',' ∧ d = 0 ∧ commas = false then none
          else level commas d (ts.filterMap tokenBracket)) = some d' at hlevel
        split at hlevel
        · cases hlevel
        next hfree => exact ⟨d, hlevel, hd, by simp, fun _ hc hz => hfree ⟨rfl, hz, hc⟩⟩
      · refine ⟨d, ?_, hd, fun h => absurd h hopen, fun h => absurd h hcomma⟩
        rwa [List.filterMap_cons_none] at hlevel
        cases t with
        | symbol c =>
            show (if c = '(' ∨ c = ')' ∨ c = ',' then some c else none) = none
            rw [if_neg]
            intro heq
            rcases heq with rfl | rfl | rfl
            · exact hopen rfl
            · exact hclose rfl
            · exact hcomma rfl
        | _ => rfl

/-- **A bracketed stretch returns to its depth.** -/
theorem read_of_level {ts : List Token} (hterm : Token.symbol ';' ∉ ts) {commas : Bool}
    {d d' base : Nat} (hlevel : level commas d (ts.filterMap tokenBracket) = some d')
    {r : Reading} (hhead : r.head.length = 2) (hdepth : r.depth = base + d) :
    (read r ts).1.head = r.head ∧ (read r ts).1.depth = base + d' := by
  induction ts generalizing d r with
  | nil => cases hlevel; exact ⟨rfl, hdepth⟩
  | cons t ts ih =>
      rw [List.mem_cons, not_or] at hterm
      have hh := (stepToken_state hhead (Ne.symm hterm.1)).1
      obtain ⟨e, he, hde, _, _⟩ := level_stepToken (Ne.symm hterm.1) hlevel hhead hdepth
      rw [read_cons, ← hh]
      exact ih hterm.2 he (by rw [hh]; exact hhead) hde

/-- Inside parentheses of a clause, and outside a table, nothing leaves a mark. -/
theorem read_marks_eq_nil {ts : List Token} (hterm : Token.symbol ';' ∉ ts) {commas : Bool}
    {d d' base : Nat} (hlevel : level commas d (ts.filterMap tokenBracket) = some d')
    {r : Reading} (hhead : r.head.length = 2) (hdepth : r.depth = base + d)
    (hdeep : r.isTable = false ∨ 2 ≤ base) : (read r ts).2 = [] := by
  induction ts generalizing d r with
  | nil => rfl
  | cons t ts ih =>
      rw [List.mem_cons, not_or] at hterm
      have hh := (stepToken_state hhead (Ne.symm hterm.1)).1
      obtain ⟨e, he, hde, _, _⟩ := level_stepToken (Ne.symm hterm.1) hlevel hhead hdepth
      -- no clause is read here: not a table, or too deep in one
      have hclause : r.inClause = false := by
        unfold Reading.inClause
        rcases hdeep with htable | hbase
        · simp [htable]
        · simp; omega
      have hmarks : (stepToken r t).2 = [] := by
        cases t with
        | word w => simp [stepToken, hclause]
        | quoted => rfl
        | symbol c =>
            have hc : c ≠ ';' := fun heq => hterm.1 (by rw [heq])
            simp only [stepToken, if_neg hc, hclause]
            split_ifs <;> simp_all
      rw [read_cons, hmarks, List.nil_append]
      exact ih hterm.2 he (by rw [hh]; exact hhead) hde
        (by unfold Reading.isTable at hdeep ⊢; rw [hh]; exact hdeep)

/-- Only an opening parenthesis and a comma let a name follow. -/
theorem after_stepToken {r : Reading} {t : Token} (hopen : t ≠ .symbol '(')
    (hcomma : t ≠ .symbol ',') (hterm : t ≠ .symbol ';') : (stepToken r t).1.after ≠ .start := by
  cases t with
  | word w =>
      show r.after.word w ≠ .start
      unfold After.word
      split_ifs <;> decide
  | quoted => simp [stepToken]
  | symbol c =>
      simp only [ne_eq, Token.symbol.injEq] at hopen hcomma hterm
      simp only [stepToken, if_neg hopen, if_neg hcomma, if_neg hterm]
      split_ifs <;> simp

/-- After a bracketed stretch without free commas no name follows. -/
theorem read_after {ts : List Token} (hterm : Token.symbol ';' ∉ ts) {d base : Nat}
    (hlevel : level false d (ts.filterMap tokenBracket) = some 0) {r : Reading}
    (hhead : r.head.length = 2) (hdepth : r.depth = base + d)
    (hafter : d = 0 → r.after ≠ .start) : (read r ts).1.after ≠ .start := by
  induction ts generalizing d r with
  | nil => cases hlevel; exact hafter rfl
  | cons t ts ih =>
      rw [List.mem_cons, not_or] at hterm
      have hh := (stepToken_state hhead (Ne.symm hterm.1)).1
      obtain ⟨e, he, hde, hopen, hcomma⟩ :=
        level_stepToken (Ne.symm hterm.1) hlevel hhead hdepth
      rw [read_cons]
      refine ih hterm.2 he (by rw [hh]; exact hhead) hde ?_
      intro hzero
      exact after_stepToken (fun h => hopen h hzero) (fun h => hcomma h rfl hzero)
        (Ne.symm hterm.1)

/-! ## §4. Like states. -/

/-- A token that reads the same whatever operand or operator stands before it. -/
def Firm : Token → Prop
  | .symbol _ => True
  | .word w => w ∈ constraintWords
  | .quoted => False

/-- **After states that differ in the last token only, a firm token reads the same**, a
word where no name can follow. -/
theorem read_alike {r r' : Reading} (hhead : r.head = r'.head) (hdepth : r.depth = r'.depth)
    {t : Token} (ht : Firm t)
    (hafter : ∀ w, t = .word w → r.after ≠ .start ∧ r'.after ≠ .start) (ts : List Token) :
    read r (t :: ts) = read r' (t :: ts) := by
  have hclause : r.inClause = r'.inClause := by
    unfold Reading.inClause Reading.isTable
    rw [hhead, hdepth]
  have hstep : stepToken r t = stepToken r' t := by
    cases t with
    | quoted => exact absurd ht id
    | symbol c => simp only [stepToken, hhead, hdepth, hclause]
    | word w =>
        have hw : w ∈ constraintWords := ht
        have hnot : w ≠ "not" := fun heq => absurd (heq ▸ hw) (by decide)
        -- the word is no name in either state, so it is a constraint in both
        obtain ⟨hstart, hstart'⟩ := hafter w rfl
        simp only [stepToken, hhead, hdepth, hclause, After.word, if_neg hnot, wordMarks,
          if_neg hstart, if_neg hstart', if_pos hw]
  rw [read_cons, read_cons, hstep]

/-! ## §5. Texts in a file. -/

/-- The reader's state after a text from the start of a file. -/
def state (text : List Char) : Reading := (read {} (tokens (items text))).1

/-- The text ends outside quotes and comments. -/
def Closed (text : List Char) : Prop := ∃ inWord, modeAfter text = .code inWord

theorem items_append {a b : List Char} (h : Cut a b) (ha : Closed a) :
    items (a ++ b) = items a ++ items b := by
  obtain ⟨w, hw⟩ := ha
  by_cases hb : b = []
  · simp [hb, items]
  · unfold items
    rw [lexFrom_append a b h]
    show items a ++ (lexFrom (modeAfter a) b).1 = _
    rw [hw, lexFrom_past_cut h hb hw]
    rfl

theorem tokens_items_append {a b : List Char} (h : Cut a b) (ha : Closed a) :
    tokens (items (a ++ b)) = tokens (items a) ++ tokens (items b) := by
  obtain ⟨w, hw⟩ := ha
  -- a closed text ends in code
  have hset : (lexFrom (.code false) a).2.Settled := by
    show (modeAfter a).Settled
    rw [hw]
    trivial
  by_cases hb : b = []
  · simp [hb, items, tokens, tokensFrom]
  · unfold items
    rw [tokens_append h hset]
    show _ ++ tokens (lexFrom (modeAfter a) b).1 = _
    rw [hw, lexFrom_past_cut h hb hw]

theorem Closed.append {a b : List Char} (h : Cut a b) (ha : Closed a) (hb : Closed b) :
    Closed (a ++ b) := by
  obtain ⟨w, hw⟩ := ha
  obtain ⟨w', hw'⟩ := hb
  by_cases hnil : b = []
  · exact ⟨w, by rw [hnil, List.append_nil]; exact hw⟩
  · refine ⟨w', ?_⟩
    unfold modeAfter
    rw [lexFrom_append a b h]
    show (lexFrom (modeAfter a) b).2 = _
    rw [hw, lexFrom_past_cut h hnil hw]
    exact hw'

/-- A text that is closed after a closed one is closed. -/
theorem closed_of_append {a b : List Char} (hcut : Cut a b) (ha : Closed a)
    (hab : Closed (a ++ b)) : Closed b := by
  obtain ⟨w, hw⟩ := ha
  obtain ⟨w', hw'⟩ := hab
  by_cases hb : b = []
  · exact ⟨false, by rw [hb]; rfl⟩
  · refine ⟨w', ?_⟩
    unfold modeAfter at hw' ⊢
    rw [lexFrom_append a b hcut] at hw'
    change (lexFrom (modeAfter a) b).2 = _ at hw'
    rwa [hw, lexFrom_past_cut hcut hb hw] at hw'

/-- The state after two texts. -/
theorem state_append {a b : List Char} (h : Cut a b) (ha : Closed a) :
    state (a ++ b) = (read (state a) (tokens (items b))).1 := by
  unfold state
  rw [tokens_items_append h ha, read_append]

/-- **The outline of a file around a stretch of it.** -/
theorem outline_split {a e b : List Char} (hae : Cut a e) (ha : Closed a) (heb : Cut (a ++ e) b)
    (he : Closed e) :
    outline (a ++ e ++ b)
      = outline a ++ (read (state a) (tokens (items e))).2
          ++ (read (state (a ++ e)) (tokens (items b))).2 := by
  unfold outline
  rw [tokens_items_append heb (ha.append hae he), tokens_items_append hae ha, read_append,
    read_append, state_append hae ha]
  rfl

/-- A text that leaves no quote open, ends no statement, and goes from one depth of
parentheses to another; without free commas it has none at depth zero. -/
structure Nests (commas : Bool) (d d' : Nat) (text : List Char) : Prop where
  closed : Closed text
  noTerminator : NoTerminator (items text)
  level : level commas d (brackets (items text)) = some d'

/-- A text that closes what it opens. -/
abbrev Enclosed (commas : Bool) (text : List Char) : Prop := Nests commas 0 0 text

theorem Nests.append {commas : Bool} {d d' d'' : Nat} {a b : List Char} (h : Cut a b)
    (ha : Nests commas d d' a) (hb : Nests commas d' d'' b) : Nests commas d d'' (a ++ b) where
  closed := ha.closed.append h hb.closed
  noTerminator := by
    unfold NoTerminator
    rw [items_append h ha.closed, List.mem_append, not_or]
    exact ⟨ha.noTerminator, hb.noTerminator⟩
  level := by
    unfold brackets
    rw [items_append h ha.closed, List.filterMap_append]
    exact (level_append ha.level).trans hb.level

/-- Commas may be free. -/
theorem Nests.free {commas : Bool} {d d' : Nat} {text : List Char} (h : Nests commas d d' text) :
    Nests true d d' text :=
  ⟨h.closed, h.noTerminator, level_free h.level⟩

/-- The depth may be greater. -/
theorem Nests.deeper {commas : Bool} {d d' : Nat} {text : List Char} (h : Nests commas d d' text)
    (k : Nat) : Nests commas (d + k) (d' + k) text :=
  ⟨h.closed, h.noTerminator, level_add h.level k⟩

/-- A text without quotes and comment brackets nests as its own parentheses do. -/
theorem nests_bare {commas : Bool} {d d' : Nat} {text : List Char}
    (hquote : ∀ c ∈ text, c ≠ '\'' ∧ c ≠ '"' ∧ c ≠ '/') (hdash : ¬ ['-', '-'] <:+: text)
    (hterm : ';' ∉ text)
    (hlevel : DdlOutline.level commas d (text.filterMap fun c => bracketOf (.char c)) = some d') :
    Nests commas d d' text := by
  obtain ⟨w, hw⟩ := lexFrom_bare hquote hdash false
  have hitems : items text = text.map .char := by unfold items; rw [hw]
  refine ⟨⟨w, by unfold modeAfter; rw [hw]⟩, ?_, ?_⟩
  · unfold NoTerminator
    rw [hitems]
    simpa using hterm
  · rw [hitems]
    unfold brackets
    rw [List.filterMap_map]
    exact hlevel

/-- The characters that quote, comment, separate or enclose. -/
def special : List Char := ['\'', '"', '/', '-', ';', '(', ')', ',']

/-- A character that does none of it. -/
def isPlain (c : Char) : Bool := c ∉ special

theorem ne_of_isPlain {c d : Char} (h : isPlain c = true) (hd : d ∈ special) : c ≠ d := by
  intro heq
  exact of_decide_eq_true h (heq ▸ hd)

theorem bracketOf_of_isPlain {c : Char} (h : isPlain c = true) : bracketOf (.char c) = none :=
  bracketOf_eq_none (ne_of_isPlain h (by decide)) (ne_of_isPlain h (by decide))
    (ne_of_isPlain h (by decide))

/-- A text of plain characters is enclosed. -/
theorem enclosed_plain {commas : Bool} {text : List Char} (h : ∀ c ∈ text, isPlain c = true) :
    Enclosed commas text := by
  apply nests_bare
  · exact fun c hc => ⟨ne_of_isPlain (h c hc) (by decide), ne_of_isPlain (h c hc) (by decide),
      ne_of_isPlain (h c hc) (by decide)⟩
  · intro hpair
    exact ne_of_isPlain (h '-' (hpair.subset (by simp))) (by decide) rfl
  · exact fun hterm => ne_of_isPlain (h ';' hterm) (by decide) rfl
  · rw [List.filterMap_eq_nil_iff.mpr fun c hc => bracketOf_of_isPlain (h c hc), level_nil]

/-- The tokens of a nesting text. -/
theorem Nests.tokens {commas : Bool} {d d' : Nat} {text : List Char} (h : Nests commas d d' text) :
    Token.symbol ';' ∉ tokens (items text)
      ∧ DdlOutline.level commas d ((tokens (items text)).filterMap tokenBracket) = some d' := by
  refine ⟨fun hmem => h.noTerminator (terminator_of_tokensFrom hmem), ?_⟩
  unfold SqlLexer.tokens
  rw [filterMap_tokensFrom]
  exact h.level

/-- **A nesting text keeps the statement and moves the depth of the reader.** -/
theorem Nests.state {commas : Bool} {d d' base : Nat} {text : List Char}
    (h : Nests commas d d' text) {a : List Char} (hcut : Cut a text) (ha : Closed a)
    (hhead : (state a).head.length = 2) (hdepth : (state a).depth = base + d) :
    (DdlOutline.state (a ++ text)).head = (DdlOutline.state a).head
      ∧ (DdlOutline.state (a ++ text)).depth = base + d' := by
  rw [state_append hcut ha]
  exact read_of_level h.tokens.1 h.tokens.2 hhead hdepth

end DdlOutline
