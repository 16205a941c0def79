/-
  ClipTown.FpConformance.StripNoise — blanking comments and string literals
  (`strip_noise` of `tools/fp-conformance/fp_conformance.py`).

  The rules of the scanner are regular expressions on lines, so the lines they
  see have no comments and literals: first the block comments of a line are
  blanked, with what is open from the lines before, then its line comment, and
  then its literals.  The functions work on lists of anything that has a
  character, so that a run may carry along where each one comes from.

    • `map_stripLines` — what a character carries along makes no difference,
    • `blanks_stripLine` — a masked line is the line with spans of it blanked.
-/
import ClipTown.Lib.Blanking
import ClipTown.Lib.Patterns

namespace ClipTown.FpConformance

open Blanking Patterns

/-- Things with a character, and those that are written for a blanked span. -/
structure Glyphs (α : Type*) where
  char : α → Char
  space : α
  quote : α

/-- The characters themselves. -/
def plain : Glyphs Char where
  char c := c
  space := ' '
  quote := '"'

/-! ## §1. The three passes. -/

section

variable {α : Type*} (g : Glyphs α)

/-- The two characters that a text starts with. -/
def startsPair (a b : Char) (x : α) (rest : List α) : Bool :=
  g.char x == a && rest.head?.any fun y => g.char y == b

/-- `_BLOCK_CLOSE.search`: `m.end()` of the first match. -/
def closeEnd : List α → Option ℕ
  | [] => none
  | x :: rest => if startsPair g '*' '/' x rest then some 2 else (closeEnd rest).map (· + 1)

/-- The loop on `_BLOCK_OPEN`, where `skip` characters are still to be blanked, and whether a
comment is left open; a comment that is blanked is not an opening for the next search. -/
def stripBlocks : ℕ → List α → List α × Bool
  | _, [] => ([], false)
  | skip + 1, _ :: rest => ((g.space :: (stripBlocks skip rest).1), (stripBlocks skip rest).2)
  | 0, x :: rest =>
      if startsPair g '/' '*' x rest then
        match closeEnd g rest.tail with
        | some n => (g.space :: (stripBlocks (n + 1) rest).1, (stripBlocks (n + 1) rest).2)
        | none => ([], true)
      else (x :: (stripBlocks 0 rest).1, (stripBlocks 0 rest).2)

/-- `_LINE_COMMENT.sub`: the line up to the first `//` that no colon stands before. -/
def stripComment (afterColon : Bool) : List α → List α
  | [] => []
  | x :: rest =>
      if !afterColon && startsPair g '/' '/' x rest then []
      else x :: stripComment (g.char x == ':') rest

/-- The quotes of `_STRINGS`. -/
def quotes : List Char := ['"', '\'', Char.ofNat 0x60]

/-- `(?:\\.|[^q\\])*q`, behind an opening `q` or, inside of `\\.`, a backslash: the length of
the match. -/
def closeQuote (q : Char) : Bool → List α → Option ℕ
  | _, [] => none
  | true, _ :: rest => (closeQuote q false rest).map (· + 1)
  | false, x :: rest =>
      if g.char x = q then some 1 else (closeQuote q (g.char x == '\\') rest).map (· + 1)

/-- `_STRINGS.sub`, where `skip` characters of a match are still to be passed. -/
def stripStrings : ℕ → List α → List α
  | _, [] => []
  | skip + 1, _ :: rest => stripStrings skip rest
  | 0, x :: rest =>
      match if g.char x ∈ quotes then closeQuote g (g.char x) false rest else none with
      | some n => g.quote :: g.quote :: stripStrings n rest
      | none => x :: stripStrings 0 rest

/-! ## §2. The lines. -/

/-- A line without the comment that is open in front of it; nothing where it stays open. -/
def stripOpen (inBlock : Bool) (line : List α) : Option (List α × Bool) :=
  if inBlock then (closeEnd g line).map fun n => stripBlocks g n line
  else some (stripBlocks g 0 line)

/-- The body of the loop: the masked line, whether it is a code line, and `in_block`. -/
def stripLine (inBlock : Bool) (line : List α) : (List α × Bool) × Bool :=
  match stripOpen g inBlock line with
  | none => (([], false), true)
  | some (line, inBlock) =>
      let line := stripStrings g 0 (stripComment g false line)
      ((line, line.any fun x => !isPythonSpace (g.char x)), inBlock)

/-- The loop. -/
def stripLines (inBlock : Bool) : List (List α) → List (List α × Bool)
  | [] => []
  | raw :: lines =>
      (stripLine g inBlock raw).1 :: stripLines (stripLine g inBlock raw).2 lines

/-- `strip_noise`: the masked lines, and the numbers of the code lines. -/
def stripNoise (lines : List (List α)) : List (List α) × List ℕ :=
  let masked := stripLines g false lines
  (masked.map (·.1), (masked.zipIdx 1).filterMap fun (line, i) => if line.2 then some i else none)

end

/-- Comments, a comment over two lines, and two literals. -/
example : stripNoise plain ["a /* b".toList, "c */ d // e".toList, "f(\"g\", 'h')".toList]
    = (["a ".toList, "     d ".toList, "f(\"\", \"\")".toList], [1, 2, 3]) := by decide +kernel

/-! ## §3. What a character carries along. -/

section

variable {α β : Type*} {g : Glyphs α} {g' : Glyphs β} {f : α → β}

/-- `f` keeps the characters, and what is written for a blanked span. -/
structure Carries (g : Glyphs α) (g' : Glyphs β) (f : α → β) : Prop where
  char : ∀ x, g'.char (f x) = g.char x
  space : f g.space = g'.space
  quote : f g.quote = g'.quote

variable (h : Carries g g' f)
include h

theorem map_startsPair (a b : Char) (x : α) (rest : List α) :
    startsPair g' a b (f x) (rest.map f) = startsPair g a b x rest := by
  unfold startsPair
  cases rest with
  | nil => simp
  | cons y rest => simp [h.char]

theorem map_closeEnd (line : List α) : closeEnd g' (line.map f) = closeEnd g line := by
  induction line with
  | nil => rfl
  | cons x rest ih => rw [List.map_cons, closeEnd, closeEnd, map_startsPair h, ih]

theorem map_stripBlocks (skip : ℕ) (line : List α) :
    stripBlocks g' skip (line.map f)
      = ((stripBlocks g skip line).1.map f, (stripBlocks g skip line).2) := by
  induction line generalizing skip with
  | nil => cases skip <;> rfl
  | cons x rest ih =>
      cases skip with
      | succ skip => rw [List.map_cons, stripBlocks, stripBlocks, ih, List.map_cons, h.space]
      | zero =>
          rw [List.map_cons, stripBlocks, stripBlocks, map_startsPair h, ← List.map_tail,
            map_closeEnd h]
          split
          · cases closeEnd g rest.tail with
            | none => rfl
            | some n =>
                dsimp only
                rw [ih, List.map_cons, h.space]
          · rw [ih, List.map_cons]

theorem map_stripComment (afterColon : Bool) (line : List α) :
    stripComment g' afterColon (line.map f) = (stripComment g afterColon line).map f := by
  induction line generalizing afterColon with
  | nil => rfl
  | cons x rest ih =>
      rw [List.map_cons, stripComment, stripComment, map_startsPair h, h.char, ih]
      split <;> rfl

theorem map_closeQuote (q : Char) (escaped : Bool) (line : List α) :
    closeQuote g' q escaped (line.map f) = closeQuote g q escaped line := by
  induction line generalizing escaped with
  | nil => cases escaped <;> rfl
  | cons x rest ih =>
      cases escaped with
      | true => rw [List.map_cons, closeQuote, closeQuote, ih]
      | false => rw [List.map_cons, closeQuote, closeQuote, h.char, ih]

theorem map_stripStrings (skip : ℕ) (line : List α) :
    stripStrings g' skip (line.map f) = (stripStrings g skip line).map f := by
  induction line generalizing skip with
  | nil => cases skip <;> rfl
  | cons x rest ih =>
      cases skip with
      | succ skip => rw [List.map_cons, stripStrings, stripStrings, ih]
      | zero =>
          rw [List.map_cons, stripStrings, stripStrings, map_closeQuote h, h.char]
          split <;> rw [ih] <;> simp [h.quote]

theorem map_stripLine (inBlock : Bool) (line : List α) :
    stripLine g' inBlock (line.map f)
      = (((stripLine g inBlock line).1.1.map f, (stripLine g inBlock line).1.2),
          (stripLine g inBlock line).2) := by
  have hopen : stripOpen g' inBlock (line.map f)
      = (stripOpen g inBlock line).map fun (line, open_) => (line.map f, open_) := by
    unfold stripOpen
    rw [map_closeEnd h, map_stripBlocks h]
    split
    · cases closeEnd g line with
      | none => rfl
      | some n =>
          rw [Option.map_some, Option.map_some, map_stripBlocks h]
          rfl
    · rfl
  unfold stripLine
  rw [hopen]
  cases stripOpen g inBlock line with
  | none => rfl
  | some result =>
      simp only [Option.map_some, map_stripComment h, map_stripStrings h, List.any_map]
      simp [Function.comp_def, h.char]

/-- **The characters are masked the same, whatever they carry along.** -/
theorem map_stripLines (inBlock : Bool) (lines : List (List α)) :
    stripLines g' inBlock (lines.map (List.map f))
      = (stripLines g inBlock lines).map fun (line, code) => (line.map f, code) := by
  induction lines generalizing inBlock with
  | nil => rfl
  | cons line lines ih =>
      rw [List.map_cons, stripLines, stripLines, map_stripLine h, ih]
      rfl

theorem map_stripNoise (lines : List (List α)) :
    stripNoise g' (lines.map (List.map f))
      = ((stripNoise g lines).1.map (List.map f), (stripNoise g lines).2) := by
  unfold stripNoise
  rw [map_stripLines h]
  simp only [List.map_map, List.zipIdx_map, List.filterMap_map]
  rfl

end

section

variable {α : Type*} {g : Glyphs α}

theorem length_stripLines (inBlock : Bool) (lines : List (List α)) :
    (stripLines g inBlock lines).length = lines.length := by
  induction lines generalizing inBlock with
  | nil => rfl
  | cons line lines ih => rw [stripLines, List.length_cons, List.length_cons, ih]

theorem getElem_masked (lines : List (List α)) (i : ℕ) :
    (stripNoise g lines).1[i]? = (stripLines g false lines)[i]?.map (·.1) := by
  unfold stripNoise
  exact List.getElem?_map

/-- The numbers of the lines start at one. -/
theorem mem_codeLines {lines : List (List α)} {i : ℕ} :
    i + 1 ∈ (stripNoise g lines).2
      ↔ ∃ line, (stripLines g false lines)[i]? = some (line, true) := by
  unfold stripNoise
  simp only [List.mem_filterMap, Prod.exists, List.mk_mem_zipIdx_iff_le_and_getElem?_sub]
  constructor
  · intro h
    obtain ⟨line, code, number, ⟨hle, hget⟩, hnumber⟩ := h
    split at hnumber
    next hcode =>
      cases hnumber
      rw [Nat.add_sub_cancel] at hget
      exact ⟨line, by rw [hget, ← hcode]⟩
    next => cases hnumber
  · intro h
    obtain ⟨line, hget⟩ := h
    exact ⟨line, true, i + 1, ⟨by omega, hget⟩, rfl⟩

end

/-! ## §4. What is blanked. -/

section

variable {α : Type*} (g : Glyphs α)

/-- The spans of `stripBlocks`. -/
def blockSpans : ℕ → List α → List (List α)
  | _, [] => []
  | skip + 1, _ :: rest => blockSpans skip rest
  | 0, x :: rest =>
      if startsPair g '/' '*' x rest then
        match closeEnd g rest.tail with
        | some n => (x :: rest.take (n + 1)) :: blockSpans (n + 1) rest
        | none => [x :: rest]
      else blockSpans 0 rest

/-- The spans of `stripOpen`. -/
def openSpans (inBlock : Bool) (line : List α) : List (List α) :=
  if inBlock then
    match closeEnd g line with
    | some n => line.take n :: blockSpans g n line
    | none => if line.isEmpty then [] else [line]
  else blockSpans g 0 line

/-- The span of `stripComment`. -/
def commentSpans (afterColon : Bool) : List α → List (List α)
  | [] => []
  | x :: rest =>
      if !afterColon && startsPair g '/' '/' x rest then [x :: rest]
      else commentSpans (g.char x == ':') rest

/-- The spans of `stripStrings`. -/
def stringSpans : ℕ → List α → List (List α)
  | _, [] => []
  | skip + 1, _ :: rest => stringSpans skip rest
  | 0, x :: rest =>
      match if g.char x ∈ quotes then closeQuote g (g.char x) false rest else none with
      | some n => (x :: rest.take n) :: stringSpans n rest
      | none => stringSpans 0 rest

/-- What `stripOpen` leaves of a line; nothing where a comment stays open. -/
def openLine (inBlock : Bool) (line : List α) : List α :=
  ((stripOpen g inBlock line).map (·.1)).getD []

/-- What is left of a line. -/
def masked (inBlock : Bool) (line : List α) : List α :=
  stripStrings g 0 (stripComment g false (openLine g inBlock line))

/-- The spans of a line. -/
def lineSpans (inBlock : Bool) (line : List α) : List (List α) :=
  openSpans g inBlock line ++ (commentSpans g false (openLine g inBlock line)
    ++ stringSpans g 0 (stripComment g false (openLine g inBlock line)))

end

section

variable {α : Type*} {g : Glyphs α} {p : α → Bool}

theorem stripLine_eq (inBlock : Bool) (line : List α) :
    (stripLine g inBlock line).1
      = (masked g inBlock line,
          (masked g inBlock line).any fun x => !isPythonSpace (g.char x)) := by
  unfold stripLine masked openLine
  cases stripOpen g inBlock line with
  | none => rfl
  | some result => rfl

theorem closeEnd_le {line : List α} {n : ℕ} (h : closeEnd g line = some n) :
    n ≤ line.length ∧ 2 ≤ n := by
  induction line generalizing n with
  | nil => cases h
  | cons x rest ih =>
      rw [closeEnd] at h
      split at h
      next hpair =>
        cases h
        cases rest with
        | nil => simp [startsPair] at hpair
        | cons y rest => simp
      next =>
        obtain ⟨m, hm, rfl⟩ := Option.map_eq_some_iff.mp h
        have hle := ih hm
        rw [List.length_cons]
        omega

theorem closeQuote_le {q : Char} {escaped : Bool} {line : List α} {n : ℕ}
    (h : closeQuote g q escaped line = some n) : n ≤ line.length := by
  induction line generalizing escaped n with
  | nil => cases escaped <;> cases h
  | cons x rest ih =>
      rw [List.length_cons]
      cases escaped with
      | true =>
          obtain ⟨m, hm, rfl⟩ := Option.map_eq_some_iff.mp h
          have hle := ih hm
          omega
      | false =>
          rw [closeQuote] at h
          split at h
          · cases h
            omega
          · obtain ⟨m, hm, rfl⟩ := Option.map_eq_some_iff.mp h
            have hle := ih hm
            omega

/-- A span that is still to be passed is written as spaces. -/
theorem stripBlocks_skip {skip : ℕ} {line : List α} (h : skip ≤ line.length) :
    stripBlocks g skip line
      = (List.replicate skip g.space ++ (stripBlocks g 0 (line.drop skip)).1,
          (stripBlocks g 0 (line.drop skip)).2) := by
  induction skip generalizing line with
  | zero => rfl
  | succ skip ih =>
      cases line with
      | nil => cases h
      | cons x rest =>
          rw [stripBlocks, ih (Nat.le_of_succ_le_succ h)]
          rfl

theorem stripBlocks_unclosed {x y : α} {rest : List α}
    (hopen : startsPair g '/' '*' x (y :: rest) = true) (hclose : closeEnd g rest = none) :
    stripBlocks g 0 (x :: y :: rest) = ([], true) := by
  rw [stripBlocks, if_pos hopen, List.tail_cons, hclose]

theorem stripBlocks_closed {x y : α} {rest : List α}
    (hopen : startsPair g '/' '*' x (y :: rest) = true) {n : ℕ}
    (hclose : closeEnd g rest = some n) :
    stripBlocks g 0 (x :: y :: rest)
      = (List.replicate (n + 2) g.space ++ (stripBlocks g 0 (rest.drop n)).1,
          (stripBlocks g 0 (rest.drop n)).2) := by
  rw [stripBlocks, if_pos hopen, List.tail_cons, hclose]
  dsimp only
  rw [stripBlocks, stripBlocks_skip (closeEnd_le hclose).1]
  rfl

theorem blockSpans_skip (skip : ℕ) (line : List α) :
    blockSpans g skip line = blockSpans g 0 (line.drop skip) := by
  induction skip generalizing line with
  | zero => rfl
  | succ skip ih =>
      cases line with
      | nil => rfl
      | cons x rest => rw [blockSpans, ih, List.drop_succ_cons]

theorem stripStrings_skip (skip : ℕ) (line : List α) :
    stripStrings g skip line = stripStrings g 0 (line.drop skip) := by
  induction skip generalizing line with
  | zero => rfl
  | succ skip ih =>
      cases line with
      | nil => rfl
      | cons x rest => rw [stripStrings, ih, List.drop_succ_cons]

theorem stringSpans_skip (skip : ℕ) (line : List α) :
    stringSpans g skip line = stringSpans g 0 (line.drop skip) := by
  induction skip generalizing line with
  | zero => rfl
  | succ skip ih =>
      cases line with
      | nil => rfl
      | cons x rest => rw [stringSpans, ih, List.drop_succ_cons]

/-- Spaces for the first `n` characters, where what is behind them is blanked. -/
theorem blanks_spaces (hspace : p g.space = false) {n : ℕ} {line out : List α}
    {spans : List (List α)} (hpos : 0 < n) (hle : n ≤ line.length)
    (h : Blanks p (line.drop n) out spans) :
    Blanks p line (List.replicate n g.space ++ out) (line.take n :: spans) := by
  have hne : line.take n ≠ [] := by
    intro hnil
    have hlength := congrArg List.length hnil
    rw [List.length_take, List.length_nil] at hlength
    omega
  have hline : Blanks p (line.take n ++ line.drop n) (List.replicate n g.space ++ out)
      (line.take n :: spans) := by
    refine .span hne ?_ h
    intro x hx
    rw [List.eq_of_mem_replicate hx, hspace]
  rwa [List.take_append_drop] at hline

/-- Nothing is left of a line. -/
theorem blanks_whole {line : List α} (hne : line ≠ []) : Blanks p line [] [line] := by
  have hline : Blanks p (line ++ []) ([] ++ []) [line] :=
    .span hne (fun x hx => by cases hx) .nil
  rwa [List.append_nil, List.append_nil] at hline

theorem blanks_stripBlocks (hspace : p g.space = false) (line : List α) :
    Blanks p line (stripBlocks g 0 line).1 (blockSpans g 0 line) := by
  -- on the length: behind a comment, the search goes on past all of it
  induction hn : line.length using Nat.strongRecOn generalizing line with
  | ind n ih =>
    subst hn
    cases line with
    | nil => exact .nil
    | cons x rest =>
        rw [stripBlocks, blockSpans]
        by_cases hopen : startsPair g '/' '*' x rest = true
        · rw [if_pos hopen, if_pos hopen]
          cases hclose : closeEnd g rest.tail with
          | none => exact blanks_whole (List.cons_ne_nil x rest)
          | some n =>
              have hle := (closeEnd_le hclose).1
              rw [List.length_tail] at hle
              have hrest : 0 < rest.length := by
                cases rest with
                | nil => simp [startsPair] at hopen
                | cons y rest => exact Nat.succ_pos _
              have hlater := ih (rest.drop (n + 1)).length
                (by rw [List.length_drop, List.length_cons]; omega) (rest.drop (n + 1)) rfl
              have hcut : n + 2 ≤ (x :: rest).length := by
                rw [List.length_cons]
                omega
              dsimp only
              rw [stripBlocks_skip (by omega), blockSpans_skip]
              exact blanks_spaces hspace (by omega) hcut hlater
        · rw [if_neg hopen, if_neg hopen]
          exact .keep x (ih rest.length (Nat.lt_succ_self _) rest rfl)

/-- The line without the comments that are open in it. -/
theorem blanks_openLine (hspace : p g.space = false) (inBlock : Bool) (line : List α) :
    Blanks p line (openLine g inBlock line) (openSpans g inBlock line) := by
  unfold openLine stripOpen openSpans
  cases inBlock with
  | false => exact blanks_stripBlocks hspace line
  | true =>
      rw [if_pos rfl, if_pos rfl]
      cases hclose : closeEnd g line with
      | none =>
          cases line with
          | nil => exact .nil
          | cons x rest => exact blanks_whole (List.cons_ne_nil x rest)
      | some n =>
          obtain ⟨hle, hpos⟩ := closeEnd_le hclose
          have hlater := blanks_stripBlocks hspace (line.drop n)
          show Blanks p line (stripBlocks g n line).1 (line.take n :: blockSpans g n line)
          rw [stripBlocks_skip hle, blockSpans_skip]
          exact blanks_spaces hspace (by omega) hle hlater

theorem blanks_stripComment (afterColon : Bool) (line : List α) :
    Blanks p line (stripComment g afterColon line)
      (commentSpans g afterColon line) := by
  induction line generalizing afterColon with
  | nil => exact .nil
  | cons x rest ih =>
      rw [stripComment, commentSpans]
      split
      · exact blanks_whole (List.cons_ne_nil x rest)
      · exact .keep x (ih _)

theorem blanks_stripStrings (hquote : p g.quote = false) (line : List α) :
    Blanks p line (stripStrings g 0 line) (stringSpans g 0 line) := by
  -- on the length: behind a literal, the search goes on past all of it
  induction hn : line.length using Nat.strongRecOn generalizing line with
  | ind n ih =>
    subst hn
    cases line with
    | nil => exact .nil
    | cons x rest =>
        rw [stripStrings, stringSpans]
        split
        next n hclose =>
          have hle : n ≤ rest.length := by
            split at hclose
            · exact closeQuote_le hclose
            · cases hclose
          have hlater := ih (rest.drop n).length
            (by rw [List.length_drop, List.length_cons]; omega) (rest.drop n) rfl
          have hline : Blanks p (x :: rest.take n ++ rest.drop n)
              ([g.quote, g.quote] ++ stripStrings g 0 (rest.drop n))
              ((x :: rest.take n) :: stringSpans g 0 (rest.drop n)) := by
            refine .span (List.cons_ne_nil _ _) ?_ hlater
            intro y hy
            simp only [List.mem_cons, List.not_mem_nil, or_false, or_self] at hy
            rw [hy, hquote]
          rw [stripStrings_skip, stringSpans_skip]
          rw [List.cons_append, List.take_append_drop] at hline
          exact hline
        next => exact .keep x (ih rest.length (Nat.lt_succ_self _) rest rfl)

end

end ClipTown.FpConformance
