/-
  ClipTown.FpConformance.BlankedComments — the block comments that `strip_noise`
  blanks in a Rust text.

  The text is read by Rust's rules, so each character carries along what it
  belongs to and where it stands.  `strip_noise` reads a `/*` as the start of a
  comment wherever it stands, and ends it at the next `*/`.  Where every `/*` is in
  a block comment and no comment is nested, these are Rust's comments, line after
  line.  Elsewhere, what is between the two marks is gone.

    • `openLine_eq` — the block comments of a line, and the one that is left open,
    • `reach_of_append` — what is behind a mark, up to the end of what it opens.
-/
import Mathlib.Data.List.DropRight
import ClipTown.Lib.RustLexer
import ClipTown.FpConformance.StripNoise

namespace ClipTown.FpConformance

open Blanking RustLexer

/-! ## §1. A Rust text, as it is masked. -/

/-- Characters with what they belong to; those that are written are no code. -/
def tracked : Glyphs Glyph where
  char := Glyph.char
  space := ⟨' ', .blank, 0⟩
  quote := ⟨'"', .raw, 0⟩

/-- The glyph belongs to a token outside comments and literals. -/
def isCode (glyph : Glyph) : Bool := glyph.kind == .code

/-! ## §2. Marks, in Rust's reading of a line. -/

/-- The glyph belongs to a block comment, but for the slash that ends it. -/
def staysOpen (glyph : Glyph) : Bool := glyph.kind.isComment && glyph.kind != .commentEnd

/-- The glyph belongs to a block comment in another. -/
def isNested (glyph : Glyph) : Bool := staysOpen glyph && glyph.kind != .blockComment 0

/-- Every `/*` is in a block comment, or opens one. -/
def MarksAreComments (line : List Glyph) : Prop :=
  ∀ slash star, [slash, star] <:+: line → slash.char = '/' → star.char = '*' →
    slash.kind.isComment = true

/-- A text up to the next `*/`. -/
def upToClose : List (List Glyph) → List Glyph
  | [] => []
  | line :: lines =>
      match closeEnd tracked line with
      | some n => line.take n
      | none => line ++ upToClose lines

/-- Behind a `/*`, there is no code up to the next `*/`, where the two marks share nothing. -/
def MarksReachNoCode (line : List Glyph) (below : List (List Glyph)) : Prop :=
  ∀ before slash star after, line = before ++ slash :: star :: after →
    slash.char = '/' → star.char = '*' → (∀ glyph ∈ before.getLast?, glyph.char ≠ '*') →
    (∀ glyph ∈ after.head?, glyph.char ≠ '/') →
    ∀ glyph ∈ upToClose (after :: below), isCode glyph = false

/-- No block comment is in another. -/
def CommentsFlat (line : List Glyph) : Prop := ∀ glyph ∈ line, isNested glyph = false

/-- A space, where the glyph belongs to a block comment. -/
def blanked (glyph : Glyph) : Glyph := if glyph.kind.isComment then tracked.space else glyph

/-- A line without the block comment that is open at its end, and with spaces for the others. -/
def uncommented (line : List Glyph) : List Glyph := (line.rdropWhile staysOpen).map blanked

/-! ## §3. The block comments of a line. -/

theorem startsPair_readFrom (a b c : Char) (kind : Kind) (column column' : ℕ) (mode : Mode)
    (text : List Char) :
    startsPair tracked a b ⟨c, kind, column⟩ (readFrom mode column' text) = true
      ↔ c = a ∧ text.head? = some b := by
  cases text with
  | nil => simp [startsPair, readFrom]
  | cons d text => simp [startsPair, readFrom, tracked]

theorem uncommented_of_open {line : List Glyph} (h : ∀ glyph ∈ line, staysOpen glyph = true) :
    uncommented line = [] := by
  unfold uncommented
  rw [List.rdropWhile_eq_nil_iff.mpr h, List.map_nil]

theorem uncommented_append (before : List Glyph) {glyph : Glyph} (h : staysOpen glyph = false)
    (after : List Glyph) :
    uncommented (before ++ glyph :: after)
      = before.map blanked ++ blanked glyph :: uncommented after := by
  have hdrop : (before ++ glyph :: after).rdropWhile staysOpen
      = before ++ glyph :: after.rdropWhile staysOpen := by
    unfold List.rdropWhile
    rw [List.reverse_append, List.reverse_cons, List.append_assoc, List.dropWhile_append]
    split
    next hnil =>
      rw [List.isEmpty_iff.mp hnil, List.singleton_append, List.dropWhile_cons_of_neg
        (by simp [h])]
      simp
    next => simp
  unfold uncommented
  rw [hdrop, List.map_append, List.map_cons]

/-- The code of a line is left. -/
theorem filter_uncommented (line : List Glyph) :
    (uncommented line).filter isCode = line.filter isCode := by
  have hcomment : ∀ glyph : Glyph, glyph.kind.isComment = true → isCode glyph = false := by
    intro glyph h
    cases hkind : glyph.kind <;> simp_all [isCode, Kind.isComment]
  have hblanked : ∀ line : List Glyph, (line.map blanked).filter isCode = line.filter isCode := by
    intro line
    induction line with
    | nil => rfl
    | cons glyph line ih =>
        rw [List.map_cons, List.filter_cons, List.filter_cons, ih]
        unfold blanked
        by_cases h : glyph.kind.isComment = true
        · rw [if_pos h, hcomment glyph h]
          rfl
        · rw [if_neg h]
  have hopen : (line.rtakeWhile staysOpen).filter isCode = [] := by
    rw [List.filter_eq_nil_iff]
    intro glyph hglyph hcode
    have hstays := List.mem_rtakeWhile_imp hglyph
    rw [hcomment glyph (Bool.and_eq_true_iff.mp hstays).1] at hcode
    cases hcode
  unfold uncommented
  rw [hblanked]
  calc (line.rdropWhile staysOpen).filter isCode
      = (line.rdropWhile staysOpen).filter isCode
        ++ (line.rtakeWhile staysOpen).filter isCode := by rw [hopen, List.append_nil]
    _ = line.filter isCode := by
        rw [← List.filter_append, List.rdropWhile_append_rtakeWhile]

theorem uncommented_cons {glyph : Glyph} (h : glyph.kind.isComment = false) (after : List Glyph) :
    uncommented (glyph :: after) = glyph :: uncommented after := by
  have hopen : staysOpen glyph = false := by
    unfold staysOpen
    rw [h]
    rfl
  have hkeep : blanked glyph = glyph := by
    unfold blanked
    rw [h]
    rfl
  have hsplit := uncommented_append [] hopen after
  rwa [hkeep] at hsplit

theorem marksAreComments_iff (line : List Glyph) :
    (∀ pair ∈ line.zip line.tail, pair.1.char = '/' → pair.2.char = '*' →
      pair.1.kind.isComment = true) ↔ MarksAreComments line := by
  have hpairs : ∀ slash star, [slash, star] <:+: line ↔ (slash, star) ∈ line.zip line.tail := by
    intro slash star
    induction line with
    | nil => simp
    | cons x rest ih =>
        rw [List.infix_cons_iff, ih, List.tail_cons]
        cases rest with
        | nil => simp
        | cons y rest => simp [List.cons_prefix_cons]
  unfold MarksAreComments
  simp only [hpairs, Prod.forall]

instance (line : List Glyph) : Decidable (MarksAreComments line) :=
  decidable_of_iff (∀ pair ∈ line.zip line.tail, pair.1.char = '/' → pair.2.char = '*' →
    pair.1.kind.isComment = true) (marksAreComments_iff line)

instance (line : List Glyph) : Decidable (CommentsFlat line) :=
  inferInstanceAs (Decidable (∀ glyph ∈ line, isNested glyph = false))

theorem MarksAreComments.of_suffix {line after : List Glyph} (h : MarksAreComments line)
    (hafter : after <:+ line) : MarksAreComments after :=
  fun slash star hpair => h slash star (hpair.trans hafter.isInfix)

theorem CommentsFlat.of_suffix {line after : List Glyph} (h : CommentsFlat line)
    (hafter : after <:+ line) : CommentsFlat after :=
  fun glyph hglyph => h glyph (hafter.subset hglyph)

/-- A comment that closes on the line: `inside` of it, and the slash that ends it. -/
structure Closes (line inside : List Glyph) (column : ℕ) (text after : List Char) : Prop where
  line_eq : ∃ slash, slash.kind = .commentEnd
    ∧ line = inside ++ slash :: readFrom (.code false) column after
  opened : ∀ glyph ∈ inside, staysOpen glyph = true
  closeEnd : closeEnd tracked line = some (inside.length + 1)
  mode : modeAfter (.blockComment 0 false) text = modeAfter (.code false) after
  length : after.length < text.length

/-- A comment ends at the first closing mark, or is open behind the line. -/
theorem read_comment (column : ℕ) (text : List Char)
    (hflat : CommentsFlat (readFrom (.blockComment 0 false) column text)) :
    (closeEnd tracked (readFrom (.blockComment 0 false) column text) = none
        ∧ (∀ glyph ∈ readFrom (.blockComment 0 false) column text, staysOpen glyph = true)
        ∧ modeAfter (.blockComment 0 false) text = .blockComment 0 false)
      ∨ ∃ inside column' after,
          Closes (readFrom (.blockComment 0 false) column text) inside column' text after := by
  induction text generalizing column with
  | nil =>
      refine .inl ⟨rfl, ?_, rfl⟩
      intro glyph hglyph
      cases hglyph
  | cons c rest ih =>
      by_cases hclose : c = '*' ∧ rest.head? = some '/'
      · obtain ⟨rest', rfl⟩ : ∃ rest', rest = '/' :: rest' := by
          cases rest with
          | nil => cases hclose.2
          | cons d rest' => exact ⟨rest', by rw [Option.some.inj hclose.2]⟩
        obtain ⟨rfl, -⟩ := hclose
        refine .inr ⟨[⟨'*', .blockComment 0, column⟩], column + 1 + 1, rest', ?_⟩
        constructor
        · exact ⟨⟨'/', .commentEnd, column + 1⟩, rfl, rfl⟩
        · intro glyph hglyph
          rw [List.mem_singleton.mp hglyph]
          rfl
        · rfl
        · rfl
        · rw [List.length_cons, List.length_cons]
          omega
      · have hread : readChar (.blockComment 0 false) c rest
            = (.blockComment 0, .blockComment 0 false) := by
          rw [readChar, if_neg hclose]
          split_ifs with hopen
          · -- a comment would be nested here
            have hhead : (⟨c, .blockComment 1, column⟩ : Glyph)
                ∈ readFrom (.blockComment 0 false) column (c :: rest) := by
              rw [readFrom, readChar, if_neg hclose, if_pos hopen]
              exact List.mem_cons_self
            cases hflat _ hhead
          · rfl
        have hline : readFrom (.blockComment 0 false) column (c :: rest)
            = ⟨c, .blockComment 0, column⟩
              :: readFrom (.blockComment 0 false) (column + 1) rest := by
          rw [readFrom, hread]
        have hmode : modeAfter (.blockComment 0 false) (c :: rest)
            = modeAfter (.blockComment 0 false) rest := by
          rw [modeAfter, hread]
        have hpair : startsPair tracked '*' '/' ⟨c, .blockComment 0, column⟩
            (readFrom (.blockComment 0 false) (column + 1) rest) = false :=
          Bool.not_eq_true _ ▸ mt (startsPair_readFrom _ _ _ _ _ _ _ _).mp hclose
        rw [hline] at hflat ⊢
        rw [closeEnd, hpair, hmode]
        rcases ih (column + 1) (hflat.of_suffix (List.suffix_cons _ _)) with
          ⟨hnone, hopen, hlater⟩ | ⟨inside, column', after, hcloses⟩
        · refine .inl ⟨?_, ?_, hlater⟩
          · rw [hnone]
            rfl
          · intro glyph hglyph
            rcases List.mem_cons.mp hglyph with rfl | hglyph
            · rfl
            · exact hopen glyph hglyph
        · obtain ⟨slash, hslash, hrest⟩ := hcloses.line_eq
          refine .inr ⟨⟨c, .blockComment 0, column⟩ :: inside, column', after, ?_⟩
          constructor
          · exact ⟨slash, hslash, by rw [List.cons_append, ← hrest]⟩
          · intro glyph hglyph
            rcases List.mem_cons.mp hglyph with rfl | hglyph
            · rfl
            · exact hcloses.opened glyph hglyph
          · rw [closeEnd, hpair, hcloses.closeEnd]
            rfl
          · rw [hmode, hcloses.mode]
          · exact Nat.lt_succ_of_lt hcloses.length

section

variable {line inside : List Glyph} {column : ℕ} {text after : List Char}

theorem Closes.drop (h : Closes line inside column text after) :
    line.drop (inside.length + 1) = readFrom (.code false) column after := by
  obtain ⟨slash, -, hline⟩ := h.line_eq
  rw [hline, ← List.drop_drop, List.drop_left]
  rfl

theorem Closes.suffix (h : Closes line inside column text after) :
    readFrom (.code false) column after <:+ line :=
  h.drop ▸ List.drop_suffix _ _

/-- A comment is blanked up to the slash that ends it. -/
theorem Closes.uncommented_eq (h : Closes line inside column text after) {mark : List Glyph}
    (hmark : ∀ glyph ∈ mark, staysOpen glyph = true) :
    uncommented (mark ++ line)
      = List.replicate (mark.length + (inside.length + 1)) tracked.space
        ++ uncommented (readFrom (.code false) column after) := by
  obtain ⟨slash, hslash, hline⟩ := h.line_eq
  have hopen : staysOpen slash = false := by
    unfold staysOpen
    rw [hslash]
    rfl
  have hspaces : (mark ++ inside).map blanked
      = List.replicate (mark.length + inside.length) tracked.space := by
    rw [List.eq_replicate_iff]
    refine ⟨by rw [List.length_map, List.length_append], ?_⟩
    intro glyph hglyph
    obtain ⟨g, hg, rfl⟩ := List.mem_map.mp hglyph
    have hstays : staysOpen g = true := by
      rcases List.mem_append.mp hg with hg | hg
      · exact hmark g hg
      · exact h.opened g hg
    exact if_pos (Bool.and_eq_true_iff.mp hstays).1
  have hslash' : blanked slash = tracked.space := by
    unfold blanked
    rw [hslash]
    rfl
  rw [hline, ← List.append_assoc, uncommented_append _ hopen, hspaces, hslash', ← Nat.add_assoc,
    List.replicate_succ', List.append_assoc]
  rfl

end

/-- What is open behind a part of a text, and whether `strip_noise` is in a comment there. -/
def InStep (mode : Mode) (inBlock : Bool) : Prop :=
  if inBlock then mode = .blockComment 0 false else mode.isOutside = true

/-- Outside of comments, those of the line are blanked. -/
theorem stripBlocks_readFrom {mode : Mode} (hmode : mode.isOutside = true) (column : ℕ)
    (text : List Char) (hmarks : MarksAreComments (readFrom mode column text))
    (hflat : CommentsFlat (readFrom mode column text)) :
    (stripBlocks tracked 0 (readFrom mode column text)).1
        = uncommented (readFrom mode column text)
      ∧ InStep (modeAfter mode text) (stripBlocks tracked 0 (readFrom mode column text)).2 := by
  -- on the length: behind a comment, the line goes on where it ends
  induction hn : text.length using Nat.strongRecOn generalizing mode column text with
  | ind n ih =>
    subst hn
    cases text with
    | nil => exact ⟨rfl, hmode⟩
    | cons c rest =>
        rcases (tells_readChar mode c rest).outside hmode with ⟨rfl, hstar, hread⟩ | ⟨hkind, hnext⟩
        · obtain ⟨rest', rfl⟩ : ∃ rest', rest = '*' :: rest' := by
            cases rest with
            | nil => cases hstar
            | cons d rest' => exact ⟨rest', by rw [Option.some.inj hstar]⟩
          let mark : List Glyph :=
            [⟨'/', .blockComment 0, column⟩, ⟨'*', .blockComment 0, column + 1⟩]
          have hmark : ∀ glyph ∈ mark, staysOpen glyph = true := by
            simp [mark, staysOpen, Kind.isComment]
          have hline : readFrom mode column ('/' :: '*' :: rest')
              = mark ++ readFrom (.blockComment 0 false) (column + 2) rest' := by
            rw [readFrom, hread]
            rfl
          have hafter : modeAfter mode ('/' :: '*' :: rest')
              = modeAfter (.blockComment 0 false) rest' := by
            rw [modeAfter, hread]
            rfl
          rw [hline] at hmarks hflat ⊢
          rw [hafter]
          have hbehind : readFrom (.blockComment 0 false) (column + 2) rest'
              <:+ mark ++ readFrom (.blockComment 0 false) (column + 2) rest' :=
            List.suffix_append _ _
          rcases read_comment (column + 2) rest' (hflat.of_suffix hbehind) with
            ⟨hnone, hopen, hlater⟩ | ⟨inside, column', after, hcloses⟩
          · have hstrip : stripBlocks tracked 0 (mark ++ _) = ([], true) :=
              stripBlocks_unclosed rfl hnone
            rw [uncommented_of_open (List.forall_mem_append.mpr ⟨hmark, hopen⟩), hlater, hstrip]
            exact ⟨rfl, rfl⟩
          · have hlength := hcloses.length
            have hbelow := hcloses.suffix.trans hbehind
            obtain ⟨hleft, hstep⟩ := ih after.length
              (by rw [List.length_cons, List.length_cons]; omega) rfl column' after
              (hmarks.of_suffix hbelow) (hflat.of_suffix hbelow) rfl
            have hstrip := stripBlocks_closed (x := ⟨'/', .blockComment 0, column⟩)
              (y := ⟨'*', .blockComment 0, column + 1⟩) rfl hcloses.closeEnd
            rw [hcloses.drop, hleft] at hstrip
            rw [hcloses.uncommented_eq hmark, hcloses.mode, Nat.add_comm mark.length]
            exact ⟨congrArg Prod.fst hstrip, congrArg Prod.snd hstrip ▸ hstep⟩
        · have hline : readFrom mode column (c :: rest)
              = ⟨c, (readChar mode c rest).1, column⟩
                :: readFrom (readChar mode c rest).2 (column + 1) rest := rfl
          have hpair : ¬ startsPair tracked '/' '*' ⟨c, (readChar mode c rest).1, column⟩
              (readFrom (readChar mode c rest).2 (column + 1) rest) = true := by
            intro hpair
            obtain ⟨rfl, hstar⟩ := (startsPair_readFrom _ _ _ _ _ _ _ _).mp hpair
            cases rest with
            | nil => cases hstar
            | cons d rest =>
                obtain rfl := Option.some.inj hstar
                rw [hline] at hmarks
                have hmark := hmarks _ _ ⟨[], _, rfl⟩ rfl rfl
                rw [hkind] at hmark
                cases hmark
          have hbehind := List.suffix_cons (⟨c, (readChar mode c rest).1, column⟩ : Glyph)
            (readFrom (readChar mode c rest).2 (column + 1) rest)
          obtain ⟨hleft, hstep⟩ := ih rest.length (Nat.lt_succ_self _) hnext (column + 1) rest
            (hmarks.of_suffix hbehind) (hflat.of_suffix hbehind) rfl
          rw [hline, stripBlocks, if_neg hpair, uncommented_cons hkind, ← hleft]
          exact ⟨rfl, hstep⟩

theorem inStep_nextLine {mode : Mode} {inBlock : Bool} (h : InStep mode inBlock) :
    InStep (nextLine mode) inBlock := by
  cases inBlock with
  | false => exact isOutside_nextLine h
  | true =>
      obtain rfl : mode = .blockComment 0 false := h
      rfl

/-- **The block comments of a line are blanked**, and the next line starts in step. -/
theorem openLine_eq {mode : Mode} {inBlock : Bool} (hstep : InStep mode inBlock)
    (text : List Char) (hmarks : MarksAreComments (readFrom mode 0 text))
    (hflat : CommentsFlat (readFrom mode 0 text)) :
    openLine tracked inBlock (readFrom mode 0 text) = uncommented (readFrom mode 0 text)
      ∧ InStep (nextLine (modeAfter mode text))
          (stripLine tracked inBlock (readFrom mode 0 text)).2 := by
  cases inBlock with
  | false =>
      obtain ⟨hleft, hlater⟩ := stripBlocks_readFrom hstep 0 text hmarks hflat
      exact ⟨hleft, inStep_nextLine hlater⟩
  | true =>
      obtain rfl : mode = .blockComment 0 false := hstep
      unfold openLine stripLine stripOpen
      rw [if_pos rfl]
      rcases read_comment 0 text hflat with
        ⟨hnone, hopen, hlater⟩ | ⟨inside, column, after, hcloses⟩
      · rw [hnone, uncommented_of_open hopen, hlater]
        exact ⟨rfl, rfl⟩
      · have hbelow := hcloses.suffix
        obtain ⟨hleft, hstep'⟩ := stripBlocks_readFrom rfl column after
          (hmarks.of_suffix hbelow) (hflat.of_suffix hbelow)
        have hstrip := stripBlocks_skip (g := tracked) (closeEnd_le hcloses.closeEnd).1
        rw [hcloses.drop, hleft] at hstrip
        have hblanked := hcloses.uncommented_eq (List.forall_mem_nil _)
        rw [List.nil_append, List.length_nil, Nat.zero_add] at hblanked
        rw [hcloses.closeEnd, hcloses.mode, hblanked]
        dsimp only [Option.map_some, Option.getD_some]
        rw [hstrip]
        exact ⟨rfl, inStep_nextLine hstep'⟩

/-- Where the comments of a line are blanked, no code is. -/
theorem noCode_of_openLine {inBlock : Bool} {line : List Glyph}
    (h : openLine tracked inBlock line = uncommented line) :
    ∀ span ∈ openSpans tracked inBlock line, ∀ glyph ∈ span, isCode glyph = false := by
  have hperm := (blanks_openLine (g := tracked) (p := isCode) rfl inBlock line).filter_perm
  rw [h, filter_uncommented] at hperm
  have hnil : (openSpans tracked inBlock line).flatten.filter isCode = [] := by
    have hlength := hperm.length_eq
    rw [List.length_append] at hlength
    exact List.length_eq_zero_iff.mp (by omega)
  intro span hspan glyph hglyph
  have hnone := List.filter_eq_nil_iff.mp hnil glyph (List.mem_flatten_of_mem hspan hglyph)
  exact Bool.not_eq_true _ ▸ hnone

/-! ## §4. What a mark reaches. -/

theorem closeEnd_of_append {before after : List Glyph}
    (h : closeEnd tracked (before ++ after) = none) : closeEnd tracked after = none := by
  induction before with
  | nil => exact h
  | cons x before ih =>
      rw [List.cons_append, closeEnd] at h
      split at h
      · cases h
      · exact ih (Option.map_eq_none_iff.mp h)

/-- A mark that opens a comment stands behind the next `*/`, or in front of it. -/
theorem closeEnd_mark {before after : List Glyph} {slash star : Glyph} {n : ℕ}
    (hslash : slash.char = '/') (hbefore : ∀ glyph ∈ before.getLast?, glyph.char ≠ '*')
    (hafter : ∀ glyph ∈ after.head?, glyph.char ≠ '/')
    (h : closeEnd tracked (before ++ slash :: star :: after) = some n) :
    n ≤ before.length
      ∨ ∃ m, closeEnd tracked after = some m ∧ n = before.length + (m + 2) := by
  induction before generalizing n with
  | nil =>
      have hslash' : startsPair tracked '*' '/' slash (star :: after) = false := by
        simp [startsPair, tracked, hslash]
      have hstar : startsPair tracked '*' '/' star after = false := by
        cases after with
        | nil => simp [startsPair]
        | cons x after =>
            have hx := hafter x rfl
            simp [startsPair, tracked, hx]
      rw [List.nil_append, closeEnd, closeEnd, hslash', hstar] at h
      simp only [Bool.false_eq_true, if_false, Option.map_eq_some_iff] at h
      obtain ⟨_, ⟨m, hm, rfl⟩, rfl⟩ := h
      exact .inr ⟨m, hm, by simp⟩
  | cons x before ih =>
      rw [List.cons_append, closeEnd] at h
      rw [List.length_cons]
      split at h
      next hpair =>
        -- the slash of the mark does not end a comment
        cases before with
        | nil =>
            have hx := hbefore x rfl
            simp [startsPair, tracked, hx] at hpair
        | cons y before =>
            cases h
            rw [List.length_cons]
            exact .inl (by omega)
      next =>
        obtain ⟨k, hk, rfl⟩ := Option.map_eq_some_iff.mp h
        have hlast : ∀ glyph ∈ before.getLast?, glyph.char ≠ '*' :=
          fun glyph hglyph => hbefore glyph (List.mem_getLast?_cons hglyph)
        rcases ih hlast hk with hle | ⟨m, hm, rfl⟩
        · exact .inl (by omega)
        · exact .inr ⟨m, hm, by omega⟩

section

variable {line : List Glyph} {below : List (List Glyph)}

theorem noCode_upToClose (hline : ∀ glyph ∈ line, isCode glyph = false)
    (hbelow : ∀ glyph ∈ upToClose below, isCode glyph = false) :
    ∀ glyph ∈ upToClose (line :: below), isCode glyph = false := by
  intro glyph hglyph
  rw [upToClose] at hglyph
  split at hglyph
  · exact hline glyph (List.mem_of_mem_take hglyph)
  · rcases List.mem_append.mp hglyph with hglyph | hglyph
    · exact hline glyph hglyph
    · exact hbelow glyph hglyph

/-- The marks of a line that starts in a comment: those in it, and those behind its end. -/
theorem reach_of_comment (hreach : ∀ glyph ∈ upToClose (line :: below), isCode glyph = false)
    (hbehind : ∀ n, closeEnd tracked line = some n → MarksReachNoCode (line.drop n) below) :
    MarksReachNoCode line below := by
  intro before slash star after hline hslash hstar hbefore hafter
  subst hline
  cases hclose : closeEnd tracked (before ++ slash :: star :: after) with
  | none =>
      have hnone : closeEnd tracked after = none := by
        have hsplit : closeEnd tracked ((before ++ [slash, star]) ++ after) = none := by
          rwa [List.append_assoc]
        exact closeEnd_of_append hsplit
      rw [upToClose, hclose] at hreach
      rw [upToClose, hnone]
      intro glyph hglyph
      refine hreach glyph ?_
      rcases List.mem_append.mp hglyph with hglyph | hglyph
      · exact List.mem_append_left _ (List.mem_append_right before (by simp [hglyph]))
      · exact List.mem_append_right _ hglyph
  | some n =>
      rcases closeEnd_mark hslash hbefore hafter hclose with hle | ⟨m, hm, rfl⟩
      · refine hbehind n hclose (before.drop n) slash star after
          (List.drop_append_of_le_length hle) hslash hstar ?_ hafter
        intro glyph hglyph
        refine hbefore glyph ?_
        rw [List.getLast?_drop] at hglyph
        split at hglyph
        · cases hglyph
        · exact hglyph
      · rw [upToClose, hclose] at hreach
        rw [upToClose, hm]
        intro glyph hglyph
        refine hreach glyph ?_
        show glyph ∈ (before ++ slash :: star :: after).take (before.length + (m + 2))
        rw [List.take_append, List.take_of_length_le (by omega), Nat.add_sub_cancel_left]
        exact List.mem_append_right before (by simp [hglyph])

theorem reach_cons {x : Glyph} (hmark : startsPair tracked '/' '*' x line = true →
      ∀ glyph ∈ upToClose (line.tail :: below), isCode glyph = false)
    (hline : MarksReachNoCode line below) : MarksReachNoCode (x :: line) below := by
  intro before slash star after hsplit hslash hstar hbefore hafter
  cases before with
  | nil =>
      obtain ⟨rfl, rfl⟩ := List.cons.inj hsplit
      exact hmark (by simp [startsPair, tracked, hslash, hstar])
  | cons y before =>
      obtain ⟨rfl, rfl⟩ := List.cons.inj hsplit
      exact hline before slash star after rfl hslash hstar
        (fun glyph hglyph => hbefore glyph (List.mem_getLast?_cons hglyph)) hafter

/-- The marks of a line, where no comment is open in front of it. -/
theorem reach_of_blocks
    (hspans : ∀ span ∈ blockSpans tracked 0 line, ∀ glyph ∈ span, isCode glyph = false)
    (hbelow : (stripBlocks tracked 0 line).2 = true →
      ∀ glyph ∈ upToClose below, isCode glyph = false) :
    MarksReachNoCode line below := by
  -- on the length: behind a comment, the line goes on where it ends
  induction hn : line.length using Nat.strongRecOn generalizing line with
  | ind n ih =>
    subst hn
    cases line with
    | nil =>
        intro before slash star after hsplit
        exact absurd (congrArg List.length hsplit) (by simp)
    | cons x rest =>
        by_cases hopen : startsPair tracked '/' '*' x rest = true
        · cases rest with
          | nil => simp [startsPair] at hopen
          | cons y rest =>
              have hstar : ¬ startsPair tracked '/' '*' y rest = true := by
                simp only [startsPair, List.head?_cons, Option.any_some, Bool.and_eq_true,
                  beq_iff_eq] at hopen ⊢
                intro hslash
                have hchar := hopen.2.symm.trans hslash.1
                exact absurd hchar (by decide)
              rw [blockSpans, if_pos hopen, List.tail_cons] at hspans
              cases hclose : closeEnd tracked rest with
              | none =>
                  rw [hclose] at hspans
                  rw [stripBlocks_unclosed hopen hclose] at hbelow
                  have hall := List.forall_mem_singleton.mp hspans
                  have hreach := noCode_upToClose
                    (fun glyph h => hall glyph (List.mem_cons_of_mem x (List.mem_cons_of_mem y h)))
                    (hbelow rfl)
                  refine reach_cons (fun _ => hreach) (reach_cons (fun h => absurd h hstar) ?_)
                  exact reach_of_comment hreach (fun n h => absurd (hclose.symm.trans h) (by simp))
              | some n =>
                  rw [hclose] at hspans
                  rw [stripBlocks_closed hopen hclose] at hbelow
                  obtain ⟨hspan, hlater⟩ := List.forall_mem_cons.mp hspans
                  rw [blockSpans_skip, List.drop_succ_cons] at hlater
                  have hreach : ∀ glyph ∈ upToClose (rest :: below), isCode glyph = false := by
                    intro glyph hglyph
                    rw [upToClose, hclose] at hglyph
                    exact hspan glyph
                      (List.mem_cons_of_mem x (List.mem_cons_of_mem y hglyph))
                  refine reach_cons (fun _ => hreach) (reach_cons (fun h => absurd h hstar) ?_)
                  refine reach_of_comment hreach ?_
                  intro m hm
                  obtain rfl := Option.some.inj (hclose.symm.trans hm)
                  refine ih (rest.drop n).length ?_ hlater hbelow rfl
                  rw [List.length_drop, List.length_cons, List.length_cons]
                  omega
        · rw [blockSpans, if_neg hopen] at hspans
          rw [stripBlocks, if_neg hopen] at hbelow
          exact reach_cons (fun h => absurd h hopen)
            (ih rest.length (Nat.lt_succ_self _) hspans hbelow rfl)

end

/-- No code of the lines is blanked with a comment. -/
def OpenSpansFree (inBlock : Bool) : List (List Glyph) → Prop
  | [] => True
  | line :: lines =>
      (∀ span ∈ openSpans tracked inBlock line, ∀ glyph ∈ span, isCode glyph = false)
        ∧ OpenSpansFree (stripLine tracked inBlock line).2 lines

/-- Lines in a comment have no code, up to the end of it. -/
theorem noCode_of_open {lines : List (List Glyph)} (h : OpenSpansFree true lines) :
    ∀ glyph ∈ upToClose lines, isCode glyph = false := by
  induction lines with
  | nil =>
      intro glyph hglyph
      cases hglyph
  | cons line lines ih =>
      obtain ⟨hspans, hlater⟩ := h
      rw [upToClose]
      unfold openSpans at hspans
      unfold stripLine stripOpen at hlater
      rw [if_pos rfl] at hspans hlater
      cases hclose : closeEnd tracked line with
      | some n =>
          rw [hclose] at hspans
          exact (List.forall_mem_cons.mp hspans).1
      | none =>
          rw [hclose] at hspans hlater
          have hline : ∀ glyph ∈ line, isCode glyph = false := by
            cases line with
            | nil => exact List.forall_mem_nil _
            | cons x line => exact List.forall_mem_singleton.mp hspans
          exact List.forall_mem_append.mpr ⟨hline, ih hlater⟩

/-- The marks of a line, whatever is open in front of it. -/
theorem reach_of_open {inBlock : Bool} {line : List Glyph} {below : List (List Glyph)}
    (h : OpenSpansFree inBlock (line :: below)) : MarksReachNoCode line below := by
  obtain ⟨hspans, hlater⟩ := id h
  cases inBlock with
  | false =>
      refine reach_of_blocks hspans ?_
      intro hopen
      have hlater' : OpenSpansFree (stripBlocks tracked 0 line).2 below := hlater
      rw [hopen] at hlater'
      exact noCode_of_open hlater'
  | true =>
      refine reach_of_comment (noCode_of_open h) ?_
      intro n hclose
      have hstrip := stripBlocks_skip (g := tracked) (closeEnd_le hclose).1
      unfold openSpans at hspans
      unfold stripLine stripOpen at hlater
      rw [if_pos rfl, hclose] at hspans hlater
      dsimp only [Option.map_some] at hspans hlater
      rw [hstrip] at hlater
      rw [blockSpans_skip] at hspans
      refine reach_of_blocks (List.forall_mem_cons.mp hspans).2 ?_
      intro hopen
      dsimp only at hlater
      rw [hopen] at hlater
      exact noCode_of_open hlater

theorem reach_of_append {inBlock : Bool} {above : List (List Glyph)} {line : List Glyph}
    {below : List (List Glyph)} (h : OpenSpansFree inBlock (above ++ line :: below)) :
    MarksReachNoCode line below := by
  induction above generalizing inBlock with
  | nil => exact reach_of_open h
  | cons next above ih => exact ih h.2

end ClipTown.FpConformance
