/-
  ClipTown.Lib.SqlLiterals — reading the literals of a parenthesized SQL list.

  A text stands in single quotes, with its own quotes doubled; the character
  with the code zero cannot stand in one.  `true`, `false` and `null` are words,
  a number is a run of the characters numbers are written with, and a text may
  be cast to `jsonb` where the dialect has casts.

    • `readQuoted_doubled` — a quoted text reads back,
    • `readList_joined` — a list reads back, literal by literal.
-/
import ClipTown.Lib.SqlLexer

namespace SqlLiterals

open SqlLexer

inductive Literal where
  | string (s : String)
  | boolean (b : Bool)
  | number (text : String)
  | null
  | jsonb (s : String)
  deriving DecidableEq, Repr

/-! ## §1. Reading. -/

/-- The rest of a quoted text after its opening quote: the text, and what follows. -/
def readQuoted : List Char → Option (List Char × List Char)
  | [] => none
  | '\'' :: '\'' :: rest => (readQuoted rest).map fun r => ('\'' :: r.1, r.2)
  | '\'' :: rest => some ([], rest)
  | c :: rest => if c = '\x00' then none else (readQuoted rest).map fun r => (c :: r.1, r.2)

def isNumberChar (c : Char) : Bool := c.isDigit || c == '.' || c == 'e' || c == '+' || c == '-'

/-- A word that is a literal. -/
def readWord (word : String) (literal : Literal) (text : List Char) :
    Option (Literal × List Char) :=
  (text.dropPrefix? word.toList).map fun rest => (literal, rest)

/-- A quoted text, with its cast. -/
def readText (casts : Bool) (text : List Char) : Option (Literal × List Char) := do
  let (s, rest) ← readQuoted text
  match rest.dropPrefix? "::jsonb".toList with
  | some rest => if casts then some (.jsonb (String.ofList s), rest) else none
  | none => some (.string (String.ofList s), rest)

/-- One literal, and what follows it. -/
def readLiteral (casts : Bool) : List Char → Option (Literal × List Char)
  | '\'' :: rest => readText casts rest
  | text =>
      ((readWord "true" (.boolean true) text).or
        ((readWord "false" (.boolean false) text).or (readWord "null" .null text))).or
        (some (.number (String.ofList (text.takeWhile isNumberChar)),
          text.dropWhile isNumberChar))

/-- The literals up to the closing parenthesis, and what follows it. -/
def readList (casts : Bool) : ℕ → List Char → Option (List Literal × List Char)
  | 0, _ => none
  | fuel + 1, text => do
      let (literal, rest) ← readLiteral casts text
      match rest with
      | ')' :: rest => some ([literal], rest)
      | ',' :: ' ' :: rest => (readList casts fuel rest).map fun r => (literal :: r.1, r.2)
      | _ => none

/-! ## §2. Reading back. -/

/-- **A quoted text reads back**, unless the character with the code zero is in it. -/
theorem readQuoted_doubled (text rest : List Char) (hrest : rest.head? ≠ some '\'') :
    readQuoted (doubled text ++ '\'' :: rest)
      = if '\x00' ∈ text then none else some (text, rest) := by
  induction text with
  | nil =>
      show readQuoted ('\'' :: rest) = _
      cases rest with
      | nil => rfl
      | cons c rest =>
          have hc : c ≠ '\'' := fun heq => hrest (by rw [heq]; rfl)
          rw [if_neg (by simp), readQuoted]
          intro rest' heq
          exact hc (List.cons.inj heq).1
  | cons c text ih =>
      by_cases hquote : c = '\''
      · -- a quote of the text is written twice, and the pair is read first
        subst hquote
        show readQuoted ('\'' :: '\'' :: (doubled text ++ '\'' :: rest)) = _
        rw [readQuoted, ih]
        by_cases hzero : '\x00' ∈ text
        · rw [if_pos hzero, if_pos (List.mem_cons_of_mem _ hzero)]
          rfl
        · have hnot : '\x00' ∉ '\'' :: text := by
            rw [List.mem_cons, not_or]
            exact ⟨by decide, hzero⟩
          rw [if_neg hzero, if_neg hnot]
          rfl
      · have hcons : doubled (c :: text) ++ '\'' :: rest
            = c :: (doubled text ++ '\'' :: rest) := by
          simp [doubled, hquote]
        rw [hcons, readQuoted, ih]
        · by_cases hc : c = '\x00'
          · rw [if_pos hc, hc, if_pos List.mem_cons_self]
          · by_cases hzero : '\x00' ∈ text
            · rw [if_neg hc, if_pos hzero, if_pos (List.mem_cons_of_mem _ hzero)]
              rfl
            · have hnot : '\x00' ∉ c :: text := by
                rw [List.mem_cons, not_or]
                exact ⟨fun heq => hc heq.symm, hzero⟩
              rw [if_neg hc, if_neg hzero, if_neg hnot]
              rfl
        · exact fun _ heq _ => hquote heq
        · exact fun heq => hquote heq

/-- What may follow a literal. -/
def Follows (rest : List Char) : Prop :=
  ∃ rest', rest = ')' :: rest' ∨ rest = ',' :: ' ' :: rest'

/-- Wherever the text stands in a list it reads as the literal, or as none. -/
def ReadsAs (casts : Bool) (text : List Char) (literal : Option Literal) : Prop :=
  ∀ rest, Follows rest → readLiteral casts (text ++ rest) = literal.map fun l => (l, rest)

theorem Follows.head {rest : List Char} (h : Follows rest) :
    ∃ c ∈ [')', ','], rest.head? = some c := by
  obtain ⟨rest', rfl | rfl⟩ := h
  · exact ⟨')', by decide, rfl⟩
  · exact ⟨',', by decide, rfl⟩

/-- A text that starts otherwise is not cast. -/
theorem dropPrefix?_of_head {front text : List Char} {c : Char} (hfront : front.head? = some c)
    (htext : text.head? ≠ some c) : text.dropPrefix? front = none := by
  rw [Option.eq_none_iff_forall_ne_some]
  intro rest hrest
  obtain ⟨front', rfl, hfront'⟩ := List.dropPrefix?_eq_some_iff.mp hrest
  apply htext
  rw [List.head?_append, eq_of_beq hfront', hfront]
  rfl

/-- **A quoted text reads as itself.** -/
theorem readsAs_quoted (casts : Bool) (s : String) :
    ReadsAs casts ('\'' :: (doubled s.toList ++ ['\'']))
      (if '\x00' ∈ s.toList then none else some (.string s)) := by
  intro rest hrest
  obtain ⟨c, hc, hhead⟩ := hrest.head
  -- behind the closing quote stands a parenthesis or a comma, neither quote nor cast
  have hquote : rest.head? ≠ some '\'' := by
    rw [hhead]
    rintro ⟨⟩
    exact absurd hc (by decide)
  have hcast : rest.dropPrefix? "::jsonb".toList = none := by
    refine dropPrefix?_of_head (c := ':') rfl ?_
    rw [hhead]
    rintro ⟨⟩
    exact absurd hc (by decide)
  show readText casts ((doubled s.toList ++ ['\'']) ++ rest) = _
  rw [List.append_assoc]
  unfold readText
  rw [show ['\''] ++ rest = '\'' :: rest from rfl, readQuoted_doubled s.toList rest hquote]
  by_cases hzero : '\x00' ∈ s.toList
  · rw [if_pos hzero, if_pos hzero]
    rfl
  · rw [if_neg hzero, if_neg hzero]
    simp only [Option.bind_eq_bind, Option.bind_some, hcast, String.ofList_toList,
      Option.map_some]

/-- A quoted text with a cast. -/
theorem readsAs_cast (casts : Bool) (s : String) :
    ReadsAs casts ('\'' :: (doubled s.toList ++ ['\'']) ++ "::jsonb".toList)
      (if casts = false ∨ '\x00' ∈ s.toList then none else some (.jsonb s)) := by
  intro rest hrest
  have hquote : ("::jsonb".toList ++ rest).head? ≠ some '\'' := by
    rintro ⟨⟩
  have hcast : ("::jsonb".toList ++ rest).dropPrefix? "::jsonb".toList = some rest :=
    List.dropPrefix?_eq_some_iff.mpr ⟨_, rfl, beq_self_eq_true _⟩
  show readText casts ((doubled s.toList ++ ['\'']) ++ "::jsonb".toList ++ rest) = _
  rw [List.append_assoc, List.append_assoc]
  unfold readText
  rw [show ['\''] ++ ("::jsonb".toList ++ rest) = '\'' :: ("::jsonb".toList ++ rest) from rfl,
    readQuoted_doubled s.toList _ hquote]
  by_cases hzero : '\x00' ∈ s.toList
  · rw [if_pos hzero, if_pos (.inr hzero)]
    rfl
  · rw [if_neg hzero]
    simp only [Option.bind_eq_bind, Option.bind_some, hcast, String.ofList_toList]
    cases casts with
    | false => rfl
    | true =>
        have hnot : ¬ (true = false ∨ '\x00' ∈ s.toList) := by
          simpa using hzero
        rw [if_neg hnot, if_pos rfl]
        rfl

/-- A word does not start a text that starts otherwise. -/
theorem readWord_of_head {word : String} {literal : Literal} {text : List Char} {c : Char}
    (hword : word.toList.head? = some c) (htext : text.head? ≠ some c) :
    readWord word literal text = none := by
  unfold readWord
  rw [dropPrefix?_of_head hword htext]
  rfl

theorem readWord_append {word : String} {literal : Literal} {rest : List Char} :
    readWord word literal (word.toList ++ rest) = some (literal, rest) := by
  unfold readWord
  rw [List.dropPrefix?_eq_some_iff.mpr ⟨word.toList, rfl, beq_self_eq_true _⟩]
  rfl

theorem readLiteral_of_head {casts : Bool} {text : List Char} (h : text.head? ≠ some '\'') :
    readLiteral casts text
      = ((readWord "true" (.boolean true) text).or
          ((readWord "false" (.boolean false) text).or (readWord "null" .null text))).or
          (some (.number (String.ofList (text.takeWhile isNumberChar)),
            text.dropWhile isNumberChar)) := by
  unfold readLiteral
  split
  next => exact absurd rfl h
  next => rfl

/-- **The words read as what they say.** -/
theorem readsAs_word (casts : Bool) :
    ReadsAs casts "true".toList (some (.boolean true))
      ∧ ReadsAs casts "false".toList (some (.boolean false))
      ∧ ReadsAs casts "null".toList (some .null) := by
  have hhead : ∀ {word : String} {c d : Char} (rest : List Char), word.toList.head? = some c →
      c ≠ d → (word.toList ++ rest).head? ≠ some d := by
    intro word c d rest hword hne heq
    rw [List.head?_append, hword] at heq
    exact hne (Option.some.inj heq)
  have ht : "true".toList.head? = some 't' := by decide
  have hf : "false".toList.head? = some 'f' := by decide
  have hn : "null".toList.head? = some 'n' := by decide
  refine ⟨?_, ?_, ?_⟩
  · intro rest _
    rw [readLiteral_of_head (hhead rest ht (by decide)), readWord_append]
    rfl
  · intro rest _
    rw [readLiteral_of_head (hhead rest hf (by decide)),
      readWord_of_head ht (hhead rest hf (by decide)), readWord_append]
    rfl
  · intro rest _
    rw [readLiteral_of_head (hhead rest hn (by decide)),
      readWord_of_head ht (hhead rest hn (by decide)),
      readWord_of_head hf (hhead rest hn (by decide)), readWord_append]
    rfl

/-- **A run of number characters is a number**, and ends where the literal does. -/
theorem readsAs_number (casts : Bool) {text : String}
    (h : ∀ c ∈ text.toList, isNumberChar c = true) :
    ReadsAs casts text.toList (some (.number text)) := by
  intro rest hrest
  obtain ⟨c, hc, hhead⟩ := hrest.head
  -- neither a quote nor a word starts it
  have hother : ∀ d, isNumberChar d = false → d ∉ [')', ','] →
      (text.toList ++ rest).head? ≠ some d := by
    intro d hnot hd hfirst
    rw [List.head?_append] at hfirst
    cases hs : text.toList with
    | nil =>
        rw [hs, hhead] at hfirst
        exact hd (Option.some.inj hfirst ▸ hc)
    | cons a _ =>
        rw [hs] at hfirst
        have hnumber := h a (by rw [hs]; exact List.mem_cons_self)
        rw [Option.some.inj hfirst, hnot] at hnumber
        cases hnumber
  have htake : (text.toList ++ rest).takeWhile isNumberChar = text.toList := by
    rw [List.takeWhile_append_of_pos h]
    obtain ⟨rest', rfl | rfl⟩ := hrest
    · rw [List.takeWhile_cons_of_neg (by decide), List.append_nil]
    · rw [List.takeWhile_cons_of_neg (by decide), List.append_nil]
  have hdrop : (text.toList ++ rest).dropWhile isNumberChar = rest := by
    rw [List.dropWhile_append_of_pos h]
    obtain ⟨rest', rfl | rfl⟩ := hrest
    · rw [List.dropWhile_cons_of_neg (by decide)]
    · rw [List.dropWhile_cons_of_neg (by decide)]
  have ht : "true".toList.head? = some 't' := by decide
  have hf : "false".toList.head? = some 'f' := by decide
  have hn : "null".toList.head? = some 'n' := by decide
  rw [readLiteral_of_head (hother '\'' (by decide) (by decide)),
    readWord_of_head ht (hother 't' (by decide) (by decide)),
    readWord_of_head hf (hother 'f' (by decide) (by decide)),
    readWord_of_head hn (hother 'n' (by decide) (by decide)), htake, hdrop, String.ofList_toList]
  rfl

/-- **A list reads back, literal by literal.** -/
theorem readList_joined {α : Type} {casts : Bool} {write : α → List Char}
    {literal : α → Option Literal} {items : List α} {fuel : ℕ} {rest : List Char}
    (h : ∀ a ∈ items, ReadsAs casts (write a) (literal a)) (hne : items ≠ [])
    (hfuel : items.length ≤ fuel) :
    readList casts fuel ([',', ' '].intercalate (items.map write) ++ ')' :: rest)
      = (items.mapM literal).map fun literals => (literals, rest) := by
  induction items generalizing fuel with
  | nil => exact absurd rfl hne
  | cons a items ih =>
      rw [List.length_cons] at hfuel
      obtain ⟨fuel, rfl⟩ : ∃ k, fuel = k + 1 := ⟨fuel - 1, by omega⟩
      have hfirst := h a List.mem_cons_self
      cases items with
      | nil =>
          have hread := hfirst (')' :: rest) ⟨rest, .inl rfl⟩
          rw [List.map_cons, List.map_nil, List.intercalate_singleton]
          unfold readList
          rw [hread]
          cases hl : literal a with
          | none => simp [hl]
          | some l => simp [hl]
      | cons b items =>
          have hrest : readList casts fuel
              ([',', ' '].intercalate ((b :: items).map write) ++ ')' :: rest)
                = ((b :: items).mapM literal).map fun literals => (literals, rest) :=
            ih (fun c hc => h c (List.mem_cons_of_mem a hc)) (List.cons_ne_nil b items) (by omega)
          have hread := hfirst (',' :: ' ' :: ([',', ' '].intercalate ((b :: items).map write)
            ++ ')' :: rest)) ⟨_, .inr rfl⟩
          have hshape : [',', ' '].intercalate ((a :: b :: items).map write) ++ ')' :: rest
              = write a ++ ',' :: ' ' :: ([',', ' '].intercalate ((b :: items).map write)
                ++ ')' :: rest) := by
            rw [List.map_cons, List.map_cons, List.intercalate_cons_cons]
            simp only [List.append_assoc, List.cons_append, List.nil_append]
          rw [hshape, List.mapM_cons]
          -- the head is read, and the rest of the list behind its comma
          unfold readList
          rw [hread]
          cases hl : literal a with
          | none => simp
          | some l =>
              simp only [Option.map_some, Option.bind_eq_bind, Option.bind_some]
              rw [hrest]
              cases (b :: items).mapM literal with
              | none => rfl
              | some ls => rfl

end SqlLiterals
