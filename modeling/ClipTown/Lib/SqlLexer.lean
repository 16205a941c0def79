/-
  ClipTown.Lib.SqlLexer — SQL text read the way PostgreSQL's lexer reads it.

  A text is a run of characters outside quotes and comments (`Item.char`), of
  single-quoted literals, double-quoted names and comments.  A quote inside a
  literal or a name is written twice; a literal that opens with a lone `E` also
  takes a backslash before any character; block comments nest.

  Reading is a fold over the characters that looks one character ahead, so it
  can be cut at a separator:

    • `lexFrom_append` — where one side of a cut is a separator, the reading of
      the whole is the reading of the first part and then, from the mode it
      ends in, of the second,
    • `tokens_append` — and its words are the words of the parts.
-/
import Mathlib.Data.List.Basic

namespace SqlLexer

/-! ## §0. Characters of a text. -/

/-- What holds of the characters of a text is decided along the text, not over all
characters. -/
instance decidableForallText {p : Char → Prop} [DecidablePred p] (text : List Char) :
    Decidable (∀ c ∈ text, p c) :=
  List.decidableBAll p text

instance decidableForallOption {p : Char → Prop} [DecidablePred p] (c? : Option Char) :
    Decidable (∀ c ∈ c?, p c) :=
  match c? with
  | none => isTrue fun c h => by cases h
  | some c => decidable_of_iff (p c) ⟨fun h d hd => by cases hd; exact h, fun h => h c rfl⟩

/-! ## §1. Modes and items. -/

/-- The quoted forms. -/
inductive Quote where
  | literal
  /-- `E'…'`. -/
  | escapeLiteral
  | name
  deriving DecidableEq, Repr

def Quote.delimiter : Quote → Char
  | .literal => '\''
  | .escapeLiteral => '\''
  | .name => '"'

inductive Mode where
  /-- Outside quotes and comments; `inWord` after a character of a word. -/
  | code (inWord : Bool)
  | quoted (quote : Quote)
  /-- The next character belongs to the quoted form, whatever it is. -/
  | skip (quote : Quote)
  | lineComment
  | blockComment (depth : Nat)
  /-- On the second character of a comment bracket. -/
  | skipComment (depth : Nat)
  | closeComment
  deriving DecidableEq, Repr

inductive Item where
  /-- A character outside quotes and comments. -/
  | char (c : Char)
  | literal
  | name
  | comment
  deriving DecidableEq, Repr

def Quote.item : Quote → Item
  | .literal => .literal
  | .escapeLiteral => .literal
  | .name => .name

/-- The characters of names, keywords and numbers. -/
def isWordChar (c : Char) : Bool := c.isAlphanum || c == '_' || c == '$' || 128 ≤ c.toNat

/-! ## §2. Reading. -/

/-- Read one character, seeing the next one. -/
def step : Mode → Char → Option Char → List Item × Mode
  | .code inWord, c, next =>
      if c = '\'' then ([], .quoted .literal)
      else if c = '"' then ([], .quoted .name)
      else if c = '-' ∧ next = some '-' then ([], .lineComment)
      else if c = '/' ∧ next = some '*' then ([], .skipComment 0)
      else if (c = 'e' ∨ c = 'E') ∧ inWord = false ∧ next = some '\'' then
        ([], .skip .escapeLiteral)
      else ([.char c], .code (isWordChar c))
  | .quoted quote, c, next =>
      if quote = .escapeLiteral ∧ c = '\\' then ([], .skip quote)
      else if c = quote.delimiter then
        -- a doubled delimiter stands for itself
        if next = some quote.delimiter then ([], .skip quote) else ([quote.item], .code false)
      else ([], .quoted quote)
  | .skip quote, _, _ => ([], .quoted quote)
  | .lineComment, c, _ =>
      if c = '\n' ∨ c = '\r' then ([.comment, .char c], .code false) else ([], .lineComment)
  | .blockComment depth, c, next =>
      if c = '*' ∧ next = some '/' then
        match depth with
        | 0 => ([], .closeComment)
        | depth + 1 => ([], .skipComment depth)
      else if c = '/' ∧ next = some '*' then ([], .skipComment (depth + 1))
      else ([], .blockComment depth)
  | .skipComment depth, _, _ => ([], .blockComment depth)
  | .closeComment, _, _ => ([.comment], .code false)

/-- Read a text from a mode: its items, and the mode it ends in. -/
def lexFrom (mode : Mode) : List Char → List Item × Mode
  | [] => ([], mode)
  | c :: rest =>
      let (items, next) := step mode c rest.head?
      (items ++ (lexFrom next rest).1, (lexFrom next rest).2)

/-- The items of a text that starts outside quotes and comments. -/
def items (text : List Char) : List Item := (lexFrom (.code false) text).1

/-- The mode after a text that starts outside quotes and comments. -/
def modeAfter (text : List Char) : Mode := (lexFrom (.code false) text).2

@[simp] theorem lexFrom_nil (mode : Mode) : lexFrom mode [] = ([], mode) := rfl

theorem lexFrom_cons (mode : Mode) (c : Char) (rest : List Char) :
    lexFrom mode (c :: rest)
      = ((step mode c rest.head?).1 ++ (lexFrom (step mode c rest.head?).2 rest).1,
          (lexFrom (step mode c rest.head?).2 rest).2) := rfl

/-! ## §3. Cutting a text. -/

/-- A character that is a token of its own and never part of another one. -/
def isSeparator (c : Char) : Bool :=
  c == ' ' || c == '\n' || c == '(' || c == ')' || c == ',' || c == ';'

/-- One side of the cut between the texts is a separator. -/
def Cut (a b : List Char) : Prop :=
  (∀ c ∈ a.getLast?, isSeparator c = true) ∨ ∀ c ∈ b.head?, isSeparator c = true

theorem cut_concat {c : Char} (hc : isSeparator c = true) (a b : List Char) :
    Cut (a ++ [c]) b :=
  .inl (by simp [hc])

theorem cut_cons {c : Char} (hc : isSeparator c = true) (a b : List Char) : Cut a (c :: b) :=
  .inr (by simp [hc])

/-- A separator ahead is as good as nothing ahead. -/
theorem step_next_separator {mode : Mode} {c d : Char} (hd : isSeparator d = true) :
    step mode c (some d) = step mode c none := by
  have hne : d ≠ '\'' ∧ d ≠ '"' ∧ d ≠ '-' ∧ d ≠ '*' ∧ d ≠ '/' := by
    refine ⟨?_, ?_, ?_, ?_, ?_⟩ <;>
      · intro heq
        rw [heq] at hd
        exact absurd hd (by decide)
  obtain ⟨h1, h2, h3, h4, h5⟩ := hne
  cases mode with
  | quoted quote =>
      have hquote : d ≠ quote.delimiter := by cases quote <;> assumption
      simp [step, hquote]
  | _ => simp [step, h1, h3, h4, h5]

/-- A separator is read without looking ahead. -/
theorem step_separator {mode : Mode} {c : Char} (hc : isSeparator c = true)
    (next : Option Char) : step mode c next = step mode c none := by
  have hne : c ≠ '\'' ∧ c ≠ '"' ∧ c ≠ '-' ∧ c ≠ '*' ∧ c ≠ '/' ∧ c ≠ 'e' ∧ c ≠ 'E' := by
    refine ⟨?_, ?_, ?_, ?_, ?_, ?_, ?_⟩ <;>
      · intro heq
        rw [heq] at hc
        exact absurd hc (by decide)
  obtain ⟨h1, h2, h3, h4, h5, h6, h7⟩ := hne
  cases mode with
  | quoted quote =>
      have hquote : c ≠ quote.delimiter := by cases quote <;> assumption
      simp [step, hquote]
  | _ => simp [step, h1, h2, h3, h4, h5, h6, h7]

theorem step_cut {mode : Mode} {c : Char} {b : List Char} (h : Cut [c] b) :
    step mode c b.head? = step mode c none := by
  rcases h with hc | hb
  · exact step_separator (hc c rfl) _
  · cases b with
    | nil => rfl
    | cons d b => exact step_next_separator (hb d rfl)

theorem Cut.tail {c d : Char} {a b : List Char} (h : Cut (c :: d :: a) b) : Cut (d :: a) b := by
  simpa [Cut] using h

/-- **A text can be read in two parts at a cut.** -/
theorem lexFrom_append (a b : List Char) (h : Cut a b) (mode : Mode) :
    lexFrom mode (a ++ b)
      = ((lexFrom mode a).1 ++ (lexFrom (lexFrom mode a).2 b).1,
          (lexFrom (lexFrom mode a).2 b).2) := by
  induction a generalizing mode with
  | nil => simp
  | cons c a ih =>
      cases a with
      | nil =>
          -- only the last character of the first part sees the second
          simp [lexFrom_cons, step_cut h]
      | cons d a =>
          rw [List.cons_append, lexFrom_cons, ih h.tail, lexFrom_cons mode c (d :: a)]
          simp [List.append_assoc]

/-! ## §4. Words and symbols. -/

inductive Token where
  /-- A name, keyword or number, in lower case. -/
  | word (text : String)
  | symbol (c : Char)
  /-- A literal or a quoted name. -/
  | quoted
  deriving DecidableEq, Repr

def isWhitespace (c : Char) : Bool :=
  c == ' ' || c == '\t' || c == '\n' || c == '\r' || c == '\x0b' || c == '\x0c'

/-- The word read so far, at its end. -/
def flush (word : List Char) : List Token :=
  if word = [] then [] else [.word (String.ofList (word.map Char.toLower))]

/-- A character that is not part of a word. -/
def symbolOf (c : Char) : List Token := if isWhitespace c then [] else [.symbol c]

/-- The tokens of a list of items, after the start of a word. -/
def tokensFrom (word : List Char) : List Item → List Token
  | [] => flush word
  | .char c :: rest =>
      if isWordChar c then tokensFrom (word ++ [c]) rest
      else flush word ++ (symbolOf c ++ tokensFrom [] rest)
  | .literal :: rest => flush word ++ .quoted :: tokensFrom [] rest
  | .name :: rest => flush word ++ .quoted :: tokensFrom [] rest
  | .comment :: rest => flush word ++ tokensFrom [] rest

def tokens (items : List Item) : List Token := tokensFrom [] items

/-- The item continues a word. -/
def Item.inWord : Item → Bool
  | .char c => isWordChar c
  | _ => false

@[simp] theorem flush_nil : flush [] = [] := rfl

/-- A list that does not start inside a word starts a new one. -/
theorem tokensFrom_of_not_inWord {word : List Char} {items : List Item}
    (h : ∀ i ∈ items.head?, i.inWord = false) :
    tokensFrom word items = flush word ++ tokensFrom [] items := by
  cases items with
  | nil => simp [tokensFrom]
  | cons i items =>
      have hi := h i rfl
      cases i with
      | char c =>
          change isWordChar c = false at hi
          simp [tokensFrom, hi]
      | _ => simp [tokensFrom]

/-- Where no word goes across the cut, the tokens are those of the parts. -/
theorem tokensFrom_append (a b : List Item) (word : List Char)
    (h : (∀ i ∈ a.getLast?, i.inWord = false) ∧ (a = [] → word = [])
      ∨ ∀ i ∈ b.head?, i.inWord = false) :
    tokensFrom word (a ++ b) = tokensFrom word a ++ tokens b := by
  induction a generalizing word with
  | nil =>
      rcases h with ⟨_, hword⟩ | hb
      · rw [hword rfl]
        rfl
      · exact tokensFrom_of_not_inWord hb
  | cons i a ih =>
      -- behind the first item either side of the cut keeps its reason
      have hrest : ∀ w, (a = [] → i.inWord = false → w = []) →
          tokensFrom w (a ++ b) = tokensFrom w a ++ tokens b := by
        intro w hw
        apply ih
        rcases h with ⟨ha, _⟩ | hb
        · left
          cases a with
          | nil => exact ⟨by simp, fun _ => hw rfl (ha i rfl)⟩
          | cons j a => exact ⟨by simpa using ha, by simp⟩
        · exact .inr hb
      cases i with
      | char c =>
          rw [List.cons_append, tokensFrom, tokensFrom]
          by_cases hc : isWordChar c = true
          · rw [if_pos hc, if_pos hc]
            apply hrest
            intro _ hfalse
            change isWordChar c = false at hfalse
            rw [hc] at hfalse
            cases hfalse
          · rw [if_neg hc, if_neg hc, hrest [] (fun _ _ => rfl)]
            simp [List.append_assoc]
      | literal => simp [tokensFrom, hrest]
      | name => simp [tokensFrom, hrest]
      | comment => simp [tokensFrom, hrest]

/-- A mode at which no token is open: outside quotes, or in a line comment. -/
def Mode.Settled : Mode → Prop
  | .code _ => True
  | .lineComment => True
  | _ => False

theorem not_isWordChar_of_separator {c : Char} (hc : isSeparator c = true) :
    isWordChar c = false := by
  simp only [isSeparator, Bool.or_eq_true, beq_iff_eq] at hc
  rcases hc with ((((rfl | rfl) | rfl) | rfl) | rfl) | rfl <;> decide

/-- Outside quotes a separator is an item of its own. -/
theorem step_code_separator {inWord : Bool} {c : Char} (hc : isSeparator c = true)
    (next : Option Char) : step (.code inWord) c next = ([.char c], .code false) := by
  simp only [isSeparator, Bool.or_eq_true, beq_iff_eq] at hc
  rcases hc with ((((rfl | rfl) | rfl) | rfl) | rfl) | rfl <;> rfl

/-- A line comment goes on until it is an item. -/
theorem head_of_lineComment (b : List Char) :
    ∀ i ∈ (lexFrom .lineComment b).1.head?, i = .comment := by
  induction b with
  | nil => simp
  | cons c b ih =>
      rw [lexFrom_cons]
      by_cases hc : c = '\n' ∨ c = '\r'
      · simp [step, hc]
      · simpa [step, hc] using ih

/-- What is read after a settled mode starts no word at a separator. -/
theorem head_of_separator {mode : Mode} (hmode : mode.Settled) {b : List Char}
    (hb : ∀ c ∈ b.head?, isSeparator c = true) :
    ∀ i ∈ (lexFrom mode b).1.head?, i.inWord = false := by
  cases mode with
  | code inWord =>
      cases b with
      | nil => simp
      | cons c b =>
          have hc := hb c rfl
          rw [lexFrom_cons, step_code_separator hc]
          simp [Item.inWord, not_isWordChar_of_separator hc]
  | lineComment =>
      intro i hi
      rw [head_of_lineComment b i hi]
      rfl
  | _ => exact absurd hmode id

/-- A separator that leads outside quotes ends a word there, and its items do. -/
theorem step_separator_code {mode : Mode} {c : Char} (hc : isSeparator c = true) {inWord : Bool}
    (h : (step mode c none).2 = .code inWord) :
    inWord = false ∧ (step mode c none).1 ≠ []
      ∧ ∀ i ∈ (step mode c none).1.getLast?, i.inWord = false := by
  have hword := not_isWordChar_of_separator hc
  cases mode with
  | code w =>
      rw [step_code_separator hc] at h ⊢
      cases h
      simp [Item.inWord, hword]
  | lineComment =>
      -- only a line break leads out of the comment
      by_cases hnl : c = '\n' ∨ c = '\r'
      · simp only [step, if_pos hnl] at h ⊢
        cases h
        simp [Item.inWord, hword]
      · simp [step, hnl] at h
  | closeComment => cases h; simp [step, Item.inWord]
  | quoted quote =>
      have hquote : c ≠ quote.delimiter := by
        intro heq
        rw [heq] at hc
        cases quote <;> exact absurd hc (by decide)
      simp only [step, hquote, if_false] at h
      split at h <;> cases h
  | blockComment depth => simp [step] at h
  | skip quote => cases h
  | skipComment depth => cases h

/-- A text that ends outside quotes with a separator ends no word. -/
theorem getLast_of_separator {mode : Mode} {a : List Char} {inWord : Bool}
    (hmode : (lexFrom mode a).2 = .code inWord) (hne : a ≠ [])
    (ha : ∀ c ∈ a.getLast?, isSeparator c = true) :
    inWord = false ∧ (lexFrom mode a).1 ≠ []
      ∧ ∀ i ∈ (lexFrom mode a).1.getLast?, i.inWord = false := by
  obtain ⟨a, c, rfl⟩ : ∃ a' c, a = a' ++ [c] := ⟨_, _, (List.dropLast_append_getLast hne).symm⟩
  have hc : isSeparator c = true := ha c (by simp)
  have hcut : Cut a [c] := .inr (by simpa using hc)
  rw [lexFrom_append a [c] hcut] at hmode ⊢
  simp only [lexFrom_cons, lexFrom_nil, List.append_nil, List.head?_nil] at hmode ⊢
  obtain ⟨hw, hitems, hlast⟩ := step_separator_code hc hmode
  refine ⟨hw, by simp [hitems], ?_⟩
  intro i hi
  rw [List.getLast?_append_of_ne_nil _ hitems] at hi
  exact hlast i hi

/-- **The tokens of a text are those of its parts** at a cut outside quotes. -/
theorem tokens_append {a b : List Char} (h : Cut a b) {mode : Mode}
    (hmode : (lexFrom mode a).2.Settled) :
    tokens (lexFrom mode (a ++ b)).1
      = tokens (lexFrom mode a).1 ++ tokens (lexFrom (lexFrom mode a).2 b).1 := by
  rw [lexFrom_append a b h]
  apply tokensFrom_append
  cases hmid : (lexFrom mode a).2 with
  | lineComment =>
      right
      intro i hi
      rw [head_of_lineComment b i hi]
      rfl
  | code inWord =>
      rcases h with ha | hb
      · by_cases hnil : a = []
        · left
          simp [hnil]
        · left
          obtain ⟨_, hne, hlast⟩ := getLast_of_separator hmid hnil ha
          exact ⟨hlast, fun h => absurd h hne⟩
      · have hset : (Mode.code inWord).Settled := trivial
        exact .inr (head_of_separator hset hb)
  | _ => rw [hmid] at hmode; exact absurd hmode id

/-! ## §5. Texts that read as they are written. -/

/-- A separator starts the same reading inside and after a word. -/
theorem lexFrom_code_separator {b : List Char} (hne : b ≠ [])
    (hb : ∀ c ∈ b.head?, isSeparator c = true) (inWord : Bool) :
    lexFrom (.code inWord) b = lexFrom (.code false) b := by
  cases b with
  | nil => exact absurd rfl hne
  | cons c b => rw [lexFrom_cons, lexFrom_cons, step_code_separator (hb c rfl),
      step_code_separator (hb c rfl)]

/-- **Past a cut outside quotes, a text reads as it does on its own.** -/
theorem lexFrom_past_cut {a b : List Char} (h : Cut a b) (hne : b ≠ []) {inWord : Bool}
    (hmode : modeAfter a = .code inWord) : lexFrom (.code inWord) b = lexFrom (.code false) b := by
  rcases h with ha | hb
  · by_cases hnil : a = []
    · subst hnil
      cases hmode
      rfl
    · rw [(getLast_of_separator hmode hnil ha).1]
  · exact lexFrom_code_separator hne hb inWord

/-- Without quotes and comment brackets, every character is an item. -/
theorem lexFrom_bare {text : List Char} (hquote : ∀ c ∈ text, c ≠ '\'' ∧ c ≠ '"' ∧ c ≠ '/')
    (hdash : ¬ ['-', '-'] <:+: text) (inWord : Bool) :
    ∃ w, lexFrom (.code inWord) text = (text.map .char, .code w) := by
  induction text generalizing inWord with
  | nil => exact ⟨inWord, rfl⟩
  | cons c text ih =>
      obtain ⟨h1, h2, h3⟩ := hquote c List.mem_cons_self
      have hnext : text.head? ≠ some '\'' := by
        intro heq
        exact (hquote '\'' (List.mem_cons_of_mem _ (List.mem_of_head? heq))).1 rfl
      have hline : ¬ (c = '-' ∧ text.head? = some '-') := by
        intro ⟨hc, heq⟩
        cases text with
        | nil => cases heq
        | cons d text =>
            cases heq
            subst hc
            exact hdash ⟨[], text, rfl⟩
      have hstep : step (.code inWord) c text.head? = ([.char c], .code (isWordChar c)) := by
        simp [step, h1, h2, h3, hline, hnext]
      obtain ⟨w, hw⟩ := ih (fun d hd => hquote d (List.mem_cons_of_mem _ hd))
        (fun h => hdash (h.trans (List.infix_cons (List.infix_refl text)))) (isWordChar c)
      refine ⟨w, ?_⟩
      rw [lexFrom_cons, hstep, hw]
      rfl

/-- A text as the inside of a literal: every quote doubled. -/
def doubled (text : List Char) : List Char :=
  text.flatMap fun c => if c = '\'' then ['\'', '\''] else [c]

/-- The inside of a literal is read up to its closing quote. -/
theorem lexFrom_doubled (text rest : List Char) (hrest : rest.head? ≠ some '\'') :
    lexFrom (.quoted .literal) (doubled text ++ '\'' :: rest)
      = (.literal :: (lexFrom (.code false) rest).1, (lexFrom (.code false) rest).2) := by
  induction text with
  | nil =>
      show lexFrom (.quoted .literal) ('\'' :: rest) = _
      rw [lexFrom_cons]
      simp [step, Quote.delimiter, Quote.item, hrest]
  | cons c text ih =>
      by_cases hc : c = '\''
      · subst hc
        show lexFrom (.quoted .literal) ('\'' :: '\'' :: (doubled text ++ '\'' :: rest)) = _
        rw [lexFrom_cons, lexFrom_cons]
        simp [step, Quote.delimiter, ih]
      · have hcons : doubled (c :: text) = c :: doubled text := by simp [doubled, hc]
        rw [hcons, List.cons_append, lexFrom_cons]
        simp [step, Quote.delimiter, hc, ih]

/-- **A text in quotes with its own quotes doubled is one literal.** -/
theorem lexFrom_quoted (text rest : List Char) (hrest : rest.head? ≠ some '\'')
    (inWord : Bool) :
    lexFrom (.code inWord) ('\'' :: (doubled text ++ '\'' :: rest))
      = (.literal :: (lexFrom (.code false) rest).1, (lexFrom (.code false) rest).2) := by
  rw [lexFrom_cons]
  simp [step, lexFrom_doubled text rest hrest]

/-- The mode is inside a comment. -/
def Mode.InComment : Mode → Prop
  | .lineComment => True
  | .blockComment _ => True
  | .skipComment _ => True
  | .closeComment => True
  | _ => False

/-- Outside comments, a character that leads into one is the start of its bracket, and
any other makes no comment. -/
theorem step_comment {mode : Mode} (hmode : ¬ mode.InComment) (c : Char) (next : Option Char) :
    (c = '-' ∧ next = some '-') ∨ (c = '/' ∧ next = some '*')
      ∨ (¬ (step mode c next).2.InComment ∧ Item.comment ∉ (step mode c next).1) := by
  cases mode with
  | code inWord =>
      by_cases hline : c = '-' ∧ next = some '-'
      · exact .inl hline
      · by_cases hblock : c = '/' ∧ next = some '*'
        · exact .inr (.inl hblock)
        · right; right
          simp only [step, if_neg hline, if_neg hblock]
          split_ifs <;> simp [Mode.InComment]
  | quoted quote =>
      right; right
      simp only [step]
      split_ifs <;> cases quote <;> simp [Mode.InComment, Quote.item]
  | skip quote => right; right; simp [step, Mode.InComment]
  | _ => exact absurd trivial hmode

/-- **A comment comes from a comment bracket.** -/
theorem bracket_of_comment {text : List Char} {mode : Mode} (hmode : ¬ mode.InComment)
    (h : Item.comment ∈ (lexFrom mode text).1) :
    ['-', '-'] <:+: text ∨ ['/', '*'] <:+: text := by
  induction text generalizing mode with
  | nil => cases h
  | cons c text ih =>
      have hstart : ∀ {d : Char}, text.head? = some d → [c, d] <:+: c :: text := by
        intro d hd
        cases text with
        | nil => cases hd
        | cons e text => cases hd; exact ⟨[], text, rfl⟩
      rcases step_comment hmode c text.head? with ⟨rfl, hnext⟩ | ⟨rfl, hnext⟩ | ⟨hmode', hitems⟩
      · exact .inl (hstart hnext)
      · exact .inr (hstart hnext)
      · rw [lexFrom_cons, List.mem_append] at h
        rcases h with h | h
        · exact absurd h hitems
        · rcases ih hmode' h with h | h
          · exact .inl (h.trans (List.infix_cons (List.infix_refl text)))
          · exact .inr (h.trans (List.infix_cons (List.infix_refl text)))

/-! ## §6. Items and tokens of a text. -/

/-- A character that is an item is the one just read, and no single quote. -/
theorem char_of_step {mode : Mode} {c d : Char} {next : Option Char}
    (h : Item.char c ∈ (step mode d next).1) : c = d ∧ d ≠ '\'' := by
  cases mode with
  | code inWord =>
      simp only [step] at h
      split_ifs at h with hquote <;> simp_all
  | quoted quote =>
      simp only [step] at h
      split_ifs at h <;> cases quote <;> simp_all [Quote.item]
  | lineComment =>
      simp only [step] at h
      split_ifs at h with hbreak
      · rcases hbreak with rfl | rfl <;> simp_all
      · simp at h
  | blockComment depth =>
      cases depth <;> simp only [step] at h <;> split_ifs at h <;> simp_all
  | _ => simp_all [step]

/-- **A character outside quotes is one of the text**, and no single quote. -/
theorem char_mem {c : Char} {mode : Mode} {text : List Char}
    (h : Item.char c ∈ (lexFrom mode text).1) : c ∈ text ∧ c ≠ '\'' := by
  induction text generalizing mode with
  | nil => cases h
  | cons d text ih =>
      rw [lexFrom_cons, List.mem_append] at h
      rcases h with h | h
      · obtain ⟨rfl, hd⟩ := char_of_step h
        exact ⟨List.mem_cons_self, hd⟩
      · exact ⟨List.mem_cons_of_mem _ (ih h).1, (ih h).2⟩

/-- A separator that is a symbol is a token of its own. -/
theorem tokens_symbol {d : Char} (hd : isSeparator d = true) (hsymbol : symbolOf d = [.symbol d])
    (post : List Char) : ∃ ts, tokens (items (d :: post)) = .symbol d :: ts := by
  have hitems : items (d :: post) = .char d :: items post := by
    unfold items
    rw [lexFrom_cons, step_code_separator hd]
    rfl
  refine ⟨tokens (items post), ?_⟩
  rw [hitems]
  show (if isWordChar d then _ else flush [] ++ (symbolOf d ++ _)) = _
  rw [if_neg (by rw [not_isWordChar_of_separator hd]; decide), hsymbol]
  rfl

/-- A comment line goes on until a line break. -/
theorem lexFrom_lineComment {text : List Char} (h : ∀ c ∈ text, c ≠ '\n' ∧ c ≠ '\r') :
    lexFrom .lineComment text = ([], .lineComment) := by
  induction text with
  | nil => rfl
  | cons c text ih =>
      have hc := h c List.mem_cons_self
      have hstep : step .lineComment c text.head? = ([], .lineComment) := by
        simp [step, hc.1, hc.2]
      rw [lexFrom_cons, hstep, ih fun d hd => h d (List.mem_cons_of_mem _ hd)]
      rfl

end SqlLexer
