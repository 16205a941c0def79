/-
  ClipTown.Lib.SqlPieces — SQL text cut into the pieces that PostgreSQL reads,
  dollar-quoted texts among them.

  Quoted forms and comments end where the lexer of `Lib.SqlLexer` leaves them.
  A dollar sign that no word runs up to opens a dollar-quoted text, if a tag and
  another dollar sign follow; the text ends where the whole delimiter comes
  again.  What it holds is not looked into here.

    • `raws_pieces` — no character is lost,
    • `not_isAsciiWord_before_word` — a word starts where no word runs up to.
-/
import ClipTown.Lib.SqlLexer
import ClipTown.Lib.Patterns

namespace SqlPieces

open SqlLexer (Mode isWordChar)
open Patterns (textBefore of_textBefore)

/-! ## §1. Reading. -/

/-- What stands on both sides of a dollar-quoted text. -/
def delimiter (tag : List Char) : List Char := '$' :: tag ++ ['$']

inductive Piece where
  | blank (raw : List Char)
  | comment (raw : List Char)
  /-- A keyword, a plain name or a number. -/
  | word (raw : List Char)
  /-- A name in double quotes. -/
  | name (raw : List Char)
  /-- A literal in single quotes. -/
  | literal (raw : List Char)
  | dollar (tag body : List Char)
  | symbol (raw : List Char)
  deriving DecidableEq

namespace Piece

/-- The characters of a piece. -/
def raw : Piece → List Char
  | .blank raw | .comment raw | .word raw | .name raw | .literal raw | .symbol raw => raw
  | .dollar tag body => delimiter tag ++ body ++ delimiter tag

/-- What only separates. -/
def isNoise : Piece → Bool
  | .blank _ | .comment _ => true
  | _ => false

end Piece

@[simp] theorem Piece.raw_blank (raw : List Char) : (Piece.blank raw).raw = raw := rfl
@[simp] theorem Piece.raw_word (raw : List Char) : (Piece.word raw).raw = raw := rfl
@[simp] theorem Piece.raw_symbol (raw : List Char) : (Piece.symbol raw).raw = raw := rfl
@[simp] theorem Piece.raw_dollar (tag body : List Char) :
    (Piece.dollar tag body).raw = delimiter tag ++ body ++ delimiter tag := rfl

def raws (ps : List Piece) : List Char := ps.flatMap Piece.raw

@[simp] theorem raws_nil : raws [] = [] := rfl
@[simp] theorem raws_cons (p : Piece) (ps : List Piece) : raws (p :: ps) = p.raw ++ raws ps := rfl
@[simp] theorem raws_append (ps qs : List Piece) : raws (ps ++ qs) = raws ps ++ raws qs :=
  List.flatMap_append

def isBlank (c : Char) : Bool :=
  c == ' ' || c == '\n' || c == '\t' || c == '\r' || c == Char.ofNat 11 || c == Char.ofNat 12

def isTagChar (c : Char) : Bool := isWordChar c && c != '$'

/-- Up to the end of what the mode says is open, and what is left. -/
def close (mode : Mode) : List Char → List Char × List Char
  | [] => ([], [])
  | c :: rest =>
      match (SqlLexer.step mode c rest.head?).2 with
      | .code _ => ([c], rest)
      | mode' => (c :: (close mode' rest).1, (close mode' rest).2)

/-- The piece that is open in a mode. -/
def openPiece : Mode → List Char → Piece
  | .quoted .name, raw => .name raw
  | .quoted _, raw | .skip _, raw => .literal raw
  | _, raw => .comment raw

/-- Behind a dollar sign: the tag and the text that are quoted. -/
def dollarQuote (rest : List Char) : Option (List Char × List Char) :=
  let tag := rest.takeWhile isTagChar
  match rest.dropWhile isTagChar with
  | [] => none
  | c :: rest =>
      if c = '$' ∧ tag.head?.any Char.isDigit = false then
        (textBefore (delimiter tag) rest).map fun body => (tag, body)
      else none

/-- A run of word characters, or a symbol. -/
def readToken (c : Char) (rest : List Char) : Piece × List Char :=
  if isWordChar c then (.word (c :: rest.takeWhile isWordChar), rest.dropWhile isWordChar)
  -- `1..n` has no fraction in it, and nothing in it is qualified
  else if c = '.' ∧ rest.head? = some '.' then (.symbol ['.', '.'], rest.tail)
  else (.symbol [c], rest)

/-- The first piece, and what is left. -/
def readPiece (c : Char) (rest : List Char) : Piece × List Char :=
  match (SqlLexer.step (.code false) c rest.head?).2 with
  | .code _ =>
      if isBlank c then (.blank (c :: rest.takeWhile isBlank), rest.dropWhile isBlank)
      else
        match if c = '$' then dollarQuote rest else none with
        | some (tag, body) =>
            (.dollar tag body, (c :: rest).drop (Piece.dollar tag body).raw.length)
        | none => readToken c rest
  | mode => (openPiece mode (c :: (close mode rest).1), (close mode rest).2)

/-- The pieces of a text, at most `n`. -/
def piecesFrom : ℕ → List Char → List Piece
  | _, [] => []
  | 0, _ => []
  | n + 1, c :: rest => (readPiece c rest).1 :: piecesFrom n (readPiece c rest).2

def pieces (text : List Char) : List Piece := piecesFrom text.length text

example : pieces "DO $a$ 1..n $a$;".toList
    = [.word "DO".toList, .blank [' '], .dollar ['a'] " 1..n ".toList, .symbol [';']] := by
  decide

/-! ## §2. One piece. -/

theorem close_append (mode : Mode) (text : List Char) :
    (close mode text).1 ++ (close mode text).2 = text := by
  induction text generalizing mode with
  | nil => rfl
  | cons c rest ih =>
      rw [close]
      split
      · rfl
      · rw [List.cons_append, ih]

theorem raw_openPiece (mode : Mode) (raw : List Char) : (openPiece mode raw).raw = raw := by
  unfold openPiece
  split <;> rfl

theorem of_dollarQuote {rest tag body : List Char} (h : dollarQuote rest = some (tag, body)) :
    ∃ after, '$' :: rest = (Piece.dollar tag body).raw ++ after := by
  have hsplit := List.takeWhile_append_dropWhile (p := isTagChar) (l := rest)
  unfold dollarQuote at h
  dsimp only at h
  split at h
  next => cases h
  next c rest' hdrop =>
    split at h
    next hc =>
      obtain ⟨body', hbody, heq⟩ := Option.map_eq_some_iff.mp h
      obtain ⟨htag, rfl⟩ := Prod.mk.inj heq
      obtain ⟨after, hafter⟩ := of_textBefore hbody
      refine ⟨after, ?_⟩
      rw [hdrop, hafter, hc.1, htag] at hsplit
      rw [← hsplit]
      show _ = delimiter tag ++ body' ++ delimiter tag ++ after
      simp [delimiter]
    next => cases h

theorem raw_readToken (c : Char) (rest : List Char) :
    (readToken c rest).1.raw ++ (readToken c rest).2 = c :: rest := by
  unfold readToken
  split
  · exact congrArg (c :: ·) (List.takeWhile_append_dropWhile)
  split
  next hdots =>
    obtain ⟨rest', rfl⟩ := List.head?_eq_some_iff.mp hdots.2
    rw [hdots.1]
    rfl
  · rfl

/-- Nothing is lost in front of what is left. -/
theorem raw_readPiece (c : Char) (rest : List Char) :
    (readPiece c rest).1.raw ++ (readPiece c rest).2 = c :: rest := by
  unfold readPiece
  split
  · split
    · exact congrArg (c :: ·) (List.takeWhile_append_dropWhile)
    split
    next tag body hquote =>
      split at hquote
      next hc =>
        obtain ⟨after, hafter⟩ := of_dollarQuote hquote
        rw [hc, hafter, List.drop_left]
      next => cases hquote
    · exact raw_readToken c rest
  · rw [raw_openPiece, List.cons_append, close_append]

theorem raw_readPiece_ne_nil (c : Char) (rest : List Char) : (readPiece c rest).1.raw ≠ [] := by
  unfold readPiece
  split
  · split
    · exact List.cons_ne_nil _ _
    split
    · exact List.cons_ne_nil _ _
    · unfold readToken
      split_ifs <;> exact List.cons_ne_nil _ _
  · rw [raw_openPiece]
    exact List.cons_ne_nil _ _

/-! ## §3. All pieces. -/

theorem raws_piecesFrom {n : ℕ} {text : List Char} (hn : text.length ≤ n) :
    raws (piecesFrom n text) = text := by
  induction n generalizing text with
  | zero =>
      rw [List.length_eq_zero_iff.mp (Nat.le_zero.mp hn)]
      rfl
  | succ n ih =>
      cases text with
      | nil => rfl
      | cons c rest =>
          have hraw := raw_readPiece c rest
          have hlength := congrArg List.length hraw
          have hpos := List.length_pos_of_ne_nil (raw_readPiece_ne_nil c rest)
          rw [List.length_append, List.length_cons] at hlength
          rw [List.length_cons] at hn
          rw [piecesFrom, raws_cons, ih (by omega), hraw]

/-- **No character is lost.** -/
theorem raws_pieces (text : List Char) : raws (pieces text) = text :=
  raws_piecesFrom (le_refl _)

/-- A piece is read somewhere in the text. -/
theorem exists_readPiece {n : ℕ} {text : List Char} {p : Piece} (h : p ∈ piecesFrom n text) :
    ∃ c rest, p = (readPiece c rest).1 := by
  induction n generalizing text with
  | zero => cases text <;> cases h
  | succ n ih =>
      cases text with
      | nil => cases h
      | cons c rest =>
          rw [piecesFrom, List.mem_cons] at h
          exact h.elim (fun hp => ⟨c, rest, hp⟩) ih

theorem raw_ne_nil_of_mem {text : List Char} {n : ℕ} {p : Piece} (h : p ∈ piecesFrom n text) :
    p.raw ≠ [] := by
  obtain ⟨c, rest, rfl⟩ := exists_readPiece h
  exact raw_readPiece_ne_nil c rest

theorem isBlank_of_mem {text raw : List Char} (h : .blank raw ∈ pieces text) :
    ∀ c ∈ raw, isBlank c = true := by
  obtain ⟨c, rest, hread⟩ := exists_readPiece h
  unfold readPiece at hread
  split at hread
  · split at hread
    next hc =>
      cases hread
      exact List.forall_mem_cons.mpr ⟨hc, List.all_eq_true.mp List.all_takeWhile⟩
    split at hread
    · cases hread
    · unfold readToken at hread
      split_ifs at hread
  · unfold openPiece at hread
    split at hread <;> cases hread

/-! ## §4. Where words start. -/

/-- A character of words that no piece but a word ends in. -/
def isAsciiWord (c : Char) : Bool := c.isAlphanum || c == '_'

theorem isWordChar_of_isAsciiWord {c : Char} (h : isAsciiWord c = true) : isWordChar c = true := by
  unfold isAsciiWord at h
  unfold isWordChar
  rcases Bool.or_eq_true_iff.mp h with h | h <;> simp [h]

/-- What is left is nothing, or does not run on what the piece ends in. -/
def Stops (raw rest : List Char) : Prop :=
  rest = [] ∨ (∀ c ∈ raw.getLast?, isAsciiWord c = false) ∨ ∀ c ∈ rest.head?, isWordChar c = false

theorem stops_singleton {c : Char} (h : isAsciiWord c = false) (rest : List Char) :
    Stops [c] rest :=
  .inr (.inl fun d hd => by
    rw [List.getLast?_singleton, Option.mem_some_iff] at hd
    rw [← hd]
    exact h)

theorem stops_cons {c : Char} {raw rest : List Char} (hne : raw = [] → rest = [])
    (h : Stops raw rest) : Stops (c :: raw) rest := by
  cases raw with
  | nil => exact .inl (hne rfl)
  | cons d raw =>
      rcases h with h | h | h
      · exact .inl h
      · exact .inr (.inl h)
      · exact .inr (.inr h)

/-- A quoted form and a comment end in a quote, a slash or a line end. -/
theorem step_ends {mode : Mode} {c : Char} (next : Option Char)
    (hmode : ∀ inWord, mode ≠ .code inWord) (hslash : mode = .closeComment → c = '/') :
    (∀ inWord, (SqlLexer.step mode c next).2 = .code inWord → isAsciiWord c = false)
      ∧ ((SqlLexer.step mode c next).2 = .closeComment → next = some '/') := by
  cases mode with
  | code inWord => exact absurd rfl (hmode inWord)
  | quoted quote =>
      by_cases hdelimiter : c = quote.delimiter
      · refine ⟨fun _ _ => ?_, ?_⟩
        · rw [hdelimiter]
          cases quote <;> rfl
        · simp only [SqlLexer.step]
          split_ifs <;> simp
      · simp only [SqlLexer.step]
        split_ifs <;> simp
  | skip quote => simp [SqlLexer.step]
  | lineComment =>
      simp only [SqlLexer.step]
      split_ifs with hc
      · refine ⟨fun _ _ => ?_, by simp⟩
        rcases hc with rfl | rfl <;> decide
      · simp
  | blockComment depth =>
      simp only [SqlLexer.step]
      split_ifs with hstar
      · cases depth <;> simp [hstar.2]
      · simp
      · simp
  | skipComment depth => simp [SqlLexer.step]
  | closeComment =>
      -- this mode is entered in front of the slash only
      rw [hslash rfl]
      exact ⟨fun _ _ => by decide, by simp [SqlLexer.step]⟩

theorem close_eq_nil {mode : Mode} {text : List Char} (h : (close mode text).1 = []) :
    (close mode text).2 = [] := by
  cases text with
  | nil => rfl
  | cons c rest =>
      rw [close] at h
      split at h <;> cases h

theorem stops_close {mode : Mode} {text : List Char} (hmode : ∀ inWord, mode ≠ .code inWord)
    (hslash : mode = .closeComment → text.head? = some '/') :
    Stops (close mode text).1 (close mode text).2 := by
  induction text generalizing mode with
  | nil => exact .inl rfl
  | cons c rest ih =>
      have hstep := step_ends rest.head? hmode fun h => Option.some.inj (hslash h)
      rw [close]
      split
      next inWord hcode => exact stops_singleton (hstep.1 inWord hcode) rest
      next hcode =>
        exact stops_cons close_eq_nil (ih hcode hstep.2)

theorem not_head_dropWhile (p : Char → Bool) (rest : List Char) :
    ∀ c ∈ (rest.dropWhile p).head?, p c = false := by
  intro c hc
  have hnot := List.head?_dropWhile_not p rest
  rw [Option.mem_def.mp hc] at hnot
  exact hnot

theorem stops_readToken (c : Char) (rest : List Char) :
    Stops (readToken c rest).1.raw (readToken c rest).2 := by
  unfold readToken
  split_ifs with hword hdots
  · exact .inr (.inr (not_head_dropWhile isWordChar rest))
  · exact .inr (.inl fun d hd => by cases hd; rfl)
  · refine stops_singleton ?_ rest
    by_contra hascii
    exact hword (isWordChar_of_isAsciiWord (Bool.not_eq_false _ ▸ hascii))

theorem stops_readPiece (c : Char) (rest : List Char) :
    Stops (readPiece c rest).1.raw (readPiece c rest).2 := by
  unfold readPiece
  split
  · split
    next hblank =>
      refine .inr (.inl fun d hd => ?_)
      have hall : ∀ e ∈ c :: rest.takeWhile isBlank, isBlank e = true :=
        List.forall_mem_cons.mpr ⟨hblank, List.all_eq_true.mp List.all_takeWhile⟩
      have hd' := hall d (List.mem_of_getLast? hd)
      simp only [isBlank, Bool.or_eq_true, beq_iff_eq] at hd'
      rcases hd' with ((((rfl | rfl) | rfl) | rfl) | rfl) | rfl <;> decide
    split
    next tag body hquote =>
      refine .inr (.inl fun d hd => ?_)
      have hlast : (Piece.dollar tag body).raw.getLast? = some '$' := by
        show (delimiter tag ++ body ++ ('$' :: tag ++ ['$'])).getLast? = some '$'
        rw [← List.append_assoc, List.getLast?_concat]
      rw [hlast, Option.mem_some_iff] at hd
      rw [← hd]
      rfl
    · exact stops_readToken c rest
  next hcode =>
    rw [raw_openPiece]
    have hstep : (SqlLexer.step (.code false) c rest.head?).2 ≠ .closeComment := by
      simp only [SqlLexer.step]
      split_ifs <;> simp
    exact stops_cons close_eq_nil (stops_close hcode fun h => absurd h hstep)

/-- Where a word is read, the text starts with a word character. -/
theorem head_of_word {n : ℕ} {text w : List Char} {post : List Piece}
    (h : piecesFrom n text = .word w :: post) : ∃ c ∈ text.head?, isWordChar c = true := by
  cases n with
  | zero => cases text <;> cases h
  | succ n =>
      cases text with
      | nil => cases h
      | cons c rest =>
          have hword : (readPiece c rest).1 = .word w := (List.cons.inj h).1
          refine ⟨c, rfl, ?_⟩
          unfold readPiece at hword
          split at hword
          · split at hword
            · cases hword
            split at hword
            · cases hword
            unfold readToken at hword
            split_ifs at hword with hc
            exact hc
          · unfold openPiece at hword
            split at hword <;> cases hword

/-- **A word starts where no word runs up to.** -/
theorem not_isAsciiWord_before_word {text w : List Char} {pre post : List Piece}
    (h : pieces text = pre ++ .word w :: post) :
    ∀ c ∈ (raws pre).getLast?, isAsciiWord c = false := by
  unfold pieces at h
  generalize text.length = n at h
  -- on the pieces in front; only the last of them touches the word
  induction pre generalizing n text with
  | nil =>
      intro c hc
      cases hc
  | cons p pre ih =>
      cases n with
      | zero => cases text <;> cases h
      | succ n =>
          cases text with
          | nil => cases h
          | cons c rest =>
              rw [piecesFrom, List.cons_append, List.cons.injEq] at h
              obtain ⟨rfl, htail⟩ := h
              cases pre with
              | nil =>
                  obtain ⟨d, hd, hword⟩ := head_of_word htail
                  rw [raws_cons, raws_nil, List.append_nil]
                  rcases stops_readPiece c rest with hnil | hlast | hhead
                  · rw [hnil] at hd
                    cases hd
                  · exact hlast
                  · rw [hhead d hd] at hword
                    cases hword
              | cons q pre =>
                  have hq : q.raw ≠ [] :=
                    raw_ne_nil_of_mem (htail ▸ List.mem_append_left _ List.mem_cons_self)
                  have hne : raws (q :: pre) ≠ [] := List.append_ne_nil_of_left_ne_nil hq _
                  rw [raws_cons, List.getLast?_append_of_ne_nil _ hne]
                  exact ih _ htail

end SqlPieces
