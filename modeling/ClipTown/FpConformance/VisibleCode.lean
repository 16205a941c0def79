/-
  ClipTown.FpConformance.VisibleCode — what `strip_noise` hides of a Rust text.

  The run of `strip_noise` on characters that carry along what Rust reads in them
  shows which of them are left.  A comment mark in a literal or in a line comment
  hides code up to the next `*/`.  Where there is none, and no nested comment,
  what hides code is a `//` in a literal, or a quote that starts no literal.

    • `shows_iff` — a line shows its tokens iff no span of it has code,
    • `codeVisible_iff` — when all code is visible.
-/
import ClipTown.FpConformance.BlankedComments

namespace ClipTown.FpConformance

open Blanking Patterns RustLexer

/-! ## §1. What is visible. -/

/-- Every token outside comments and literals is left on its line, where it was, and the
line is a code line. -/
def CodeVisible (lines : List (List Char)) : Prop :=
  ∀ i line, (readProgram lines)[i]? = some line →
    ∀ token, token ≠ [] → (∀ glyph ∈ token, isCode glyph = true) → token <:+: line →
      (∃ masked, (stripNoise tracked (readProgram lines)).1[i]? = some masked ∧ token <:+: masked)
        ∧ i + 1 ∈ (stripNoise tracked (readProgram lines)).2

/-- From a `//` on that no colon stands before, there is no code. -/
def SlashesClear (line : List Glyph) : Prop :=
  ∀ before slash slash' after, line = before ++ slash :: slash' :: after →
    slash.char = '/' → slash'.char = '/' → (∀ glyph ∈ before.getLast?, glyph.char ≠ ':') →
    ∀ glyph ∈ slash :: slash' :: after, isCode glyph = false

/-- In what `_STRINGS` takes for literals, up to that `//`, there is no code. -/
def LiteralsClear (line : List Glyph) : Prop :=
  ∀ span ∈ stringSpans tracked 0 (stripComment tracked false line),
    ∀ glyph ∈ span, isCode glyph = false

/-! ## §2. A line. -/

/-- A line shows its tokens, and is a code line where it has some. -/
def Shows (line : List Glyph) (masked : List Glyph × Bool) : Prop :=
  ∀ token, token ≠ [] → (∀ glyph ∈ token, isCode glyph = true) → token <:+: line →
    token <:+: masked.1 ∧ masked.2 = true

/-- What `str.strip` takes away is no token. -/
theorem isBlank_of_space {c : Char} (h : isPythonSpace c = true) : isBlank c = true := by
  unfold isPythonSpace at h
  unfold isBlank
  simp only [Bool.or_eq_true] at h ⊢
  tauto

section

variable {inBlock : Bool} {line : List Glyph}

theorem blanks_passes (inBlock : Bool) (line : List Glyph) :
    let opened := openLine tracked inBlock line
    let uncommented := stripComment tracked false opened
    Blanks isCode line opened (openSpans tracked inBlock line)
      ∧ Blanks isCode opened uncommented (commentSpans tracked false opened)
      ∧ Blanks isCode uncommented (masked tracked inBlock line)
          (stringSpans tracked 0 uncommented) :=
  ⟨blanks_openLine rfl inBlock line, blanks_stripComment false _, blanks_stripStrings rfl _⟩

theorem mem_lineSpans {span : List Glyph} :
    span ∈ lineSpans tracked inBlock line
      ↔ span ∈ openSpans tracked inBlock line
        ∨ span ∈ commentSpans tracked false (openLine tracked inBlock line)
        ∨ span ∈ stringSpans tracked 0 (stripComment tracked false
            (openLine tracked inBlock line)) := by
  unfold lineSpans
  rw [List.mem_append, List.mem_append]

/-- Code in a span is code of the line, and it is gone. -/
theorem gone_of_span (hnodup : line.Nodup) {span : List Glyph}
    (hspan : span ∈ lineSpans tracked inBlock line) {glyph : Glyph} (hglyph : glyph ∈ span)
    (hcode : isCode glyph = true) : glyph ∈ line ∧ glyph ∉ masked tracked inBlock line := by
  obtain ⟨hopen, hcomment, hstrings⟩ := blanks_passes inBlock line
  have hopened := hnodup.filter isCode
  have hopened' := hopen.nodup_out hopened
  have huncommented := hcomment.nodup_out hopened'
  rcases mem_lineSpans.mp hspan with h | h | h
  · refine ⟨hopen.mem_of_mem_span h hglyph hcode, ?_⟩
    intro hleft
    have hleft' := hcomment.mem_of_mem_out (hstrings.mem_of_mem_out hleft hcode) hcode
    exact hopen.not_mem_of_span hopened h hglyph hcode hleft'
  · refine ⟨hopen.mem_of_mem_out (hcomment.mem_of_mem_span h hglyph hcode) hcode, ?_⟩
    intro hleft
    exact hcomment.not_mem_of_span hopened' h hglyph hcode
      (hstrings.mem_of_mem_out hleft hcode)
  · refine ⟨?_, hstrings.not_mem_of_span huncommented h hglyph hcode⟩
    exact hopen.mem_of_mem_out
      (hcomment.mem_of_mem_out (hstrings.mem_of_mem_span h hglyph hcode) hcode) hcode

/-- **A line shows its tokens iff no span of it has code.** -/
theorem shows_iff (hnodup : line.Nodup)
    (hblank : ∀ glyph ∈ line, isCode glyph = true → isBlank glyph.char = false) :
    Shows line (stripLine tracked inBlock line).1
      ↔ ∀ span ∈ lineSpans tracked inBlock line, ∀ glyph ∈ span, isCode glyph = false := by
  rw [stripLine_eq]
  constructor
  · intro hshows span hspan glyph hglyph
    by_contra hcode
    rw [Bool.not_eq_false] at hcode
    obtain ⟨hline, hgone⟩ := gone_of_span hnodup hspan hglyph hcode
    -- a character of code is a token, or a part of one
    obtain ⟨before, after, rfl⟩ := List.append_of_mem hline
    have htoken := (hshows [glyph] (List.cons_ne_nil _ _)
      (fun x hx => List.mem_singleton.mp hx ▸ hcode) ⟨before, after, by simp⟩).1
    exact hgone (htoken.subset List.mem_cons_self)
  · intro hfree token hne hcode htoken
    obtain ⟨hopen, hcomment, hstrings⟩ := blanks_passes inBlock line
    have hleft : token <:+: masked tracked inBlock line := by
      refine hstrings.keeps_run
        (fun span h => hfree span (mem_lineSpans.mpr (.inr (.inr h)))) hcode ?_
      refine hcomment.keeps_run
        (fun span h => hfree span (mem_lineSpans.mpr (.inr (.inl h)))) hcode ?_
      exact hopen.keeps_run (fun span h => hfree span (mem_lineSpans.mpr (.inl h))) hcode htoken
    refine ⟨hleft, ?_⟩
    obtain ⟨glyph, rest, rfl⟩ := List.exists_cons_of_ne_nil hne
    have hmem : glyph ∈ line := htoken.subset List.mem_cons_self
    have hspace : isPythonSpace glyph.char = false := by
      by_contra hspace
      rw [Bool.not_eq_false] at hspace
      have hblank' := hblank glyph hmem (hcode glyph List.mem_cons_self)
      rw [isBlank_of_space hspace] at hblank'
      cases hblank'
    refine List.any_eq_true.mpr ⟨glyph, hleft.subset List.mem_cons_self, ?_⟩
    show (!isPythonSpace glyph.char) = true
    rw [hspace]
    rfl

end

/-! ## §3. The spans of a `//`. -/

/-- The same, behind a character that may be a colon. -/
def SlashesClearFrom (afterColon : Bool) (line : List Glyph) : Prop :=
  ∀ before slash slash' after, line = before ++ slash :: slash' :: after →
    slash.char = '/' → slash'.char = '/' → (before = [] → afterColon = false) →
    (∀ glyph ∈ before.getLast?, glyph.char ≠ ':') →
    ∀ glyph ∈ slash :: slash' :: after, isCode glyph = false

theorem slashesClearFrom_iff (afterColon : Bool) (line : List Glyph) :
    SlashesClearFrom afterColon line
      ↔ ∀ span ∈ commentSpans tracked afterColon line, ∀ glyph ∈ span, isCode glyph = false := by
  induction line generalizing afterColon with
  | nil =>
      refine ⟨fun _ => List.forall_mem_nil _, ?_⟩
      intro _ before slash slash' after hline
      exact absurd (congrArg List.length hline) (by simp)
  | cons x rest ih =>
      rw [commentSpans]
      by_cases hstart : (!afterColon && startsPair tracked '/' '/' x rest) = true
      · obtain ⟨hcolon, hpair⟩ := Bool.and_eq_true_iff.mp hstart
        rw [if_pos hstart, List.forall_mem_singleton]
        constructor
        · intro h
          cases rest with
          | nil => simp [startsPair] at hpair
          | cons y rest =>
              simp only [startsPair, List.head?_cons, Option.any_some, Bool.and_eq_true,
                beq_iff_eq] at hpair
              exact h [] x y rest rfl hpair.1 hpair.2 (fun _ => by simpa using hcolon)
                (fun glyph hglyph => by cases hglyph)
        · intro h before slash slash' after hline _ _ _ _ glyph hglyph
          rw [hline] at h
          exact h glyph (List.mem_append_right before hglyph)
      · rw [if_neg hstart, ← ih]
        constructor
        · intro h before slash slash' after hline hslash hslash' hbefore hlast
          refine h (x :: before) slash slash' after (by rw [hline]; rfl) hslash hslash'
            (fun hnil => by cases hnil) ?_
          cases before with
          | nil =>
              intro glyph hglyph
              obtain rfl := Option.some.inj hglyph
              exact beq_eq_false_iff_ne.mp (hbefore rfl)
          | cons y before =>
              rw [List.getLast?_cons_cons]
              exact hlast
        · intro h before slash slash' after hline hslash hslash' hbefore hlast
          cases before with
          | nil =>
              obtain ⟨rfl, rfl⟩ := List.cons.inj hline
              refine absurd ?_ hstart
              rw [hbefore rfl]
              simp [startsPair, tracked, hslash, hslash']
          | cons y before =>
              obtain ⟨rfl, rfl⟩ := List.cons.inj hline
              refine h before slash slash' after rfl hslash hslash' ?_
                (fun glyph hglyph => hlast glyph (List.mem_getLast?_cons hglyph))
              intro hnil
              subst hnil
              exact beq_eq_false_iff_ne.mpr (hlast x rfl)

theorem slashesClear_iff (line : List Glyph) :
    SlashesClear line
      ↔ ∀ span ∈ commentSpans tracked false line, ∀ glyph ∈ span, isCode glyph = false := by
  rw [← slashesClearFrom_iff]
  constructor
  · intro h before slash slash' after hline hslash hslash' _ hlast
    exact h before slash slash' after hline hslash hslash' hlast
  · intro h before slash slash' after hline hslash hslash' hlast
    exact h before slash slash' after hline hslash hslash' (fun _ => rfl) hlast

instance (line : List Glyph) : Decidable (SlashesClear line) :=
  decidable_of_iff _ (slashesClear_iff line).symm

instance (line : List Glyph) : Decidable (LiteralsClear line) :=
  inferInstanceAs (Decidable (∀ span ∈ stringSpans tracked 0 (stripComment tracked false line),
    ∀ glyph ∈ span, isCode glyph = false))

/-! ## §4. A text. -/

theorem codeVisible_iff_shows (lines : List (List Char)) :
    CodeVisible lines
      ↔ List.Forall₂ Shows (readProgram lines) (stripLines tracked false (readProgram lines)) := by
  have hlength := length_stripLines (g := tracked) false (readProgram lines)
  rw [List.forall₂_iff_get]
  constructor
  · intro h
    refine ⟨hlength.symm, ?_⟩
    intro i hi hi' token hne hcode htoken
    obtain ⟨⟨left, hleft, hwithin⟩, hnumber⟩ :=
      h i _ (List.getElem?_eq_getElem hi) token hne hcode htoken
    obtain ⟨left', hline⟩ := mem_codeLines.mp hnumber
    rw [getElem_masked, hline] at hleft
    cases hleft
    rw [List.getElem?_eq_getElem hi'] at hline
    rw [List.get_eq_getElem, Option.some.inj hline]
    exact ⟨hwithin, rfl⟩
  · intro h i line hline token hne hcode htoken
    obtain ⟨hi, rfl⟩ := List.getElem?_eq_some_iff.mp hline
    have hi' : i < (stripLines tracked false (readProgram lines)).length := by
      rw [hlength]
      exact hi
    obtain ⟨hwithin, hflag⟩ := h.2 i hi hi' token hne hcode htoken
    rw [List.get_eq_getElem] at hwithin hflag
    have hget := List.getElem?_eq_getElem hi'
    have hflagged : (stripLines tracked false (readProgram lines))[i]
        = ((stripLines tracked false (readProgram lines))[i].1, true) := Prod.ext rfl hflag
    have hnumber := mem_codeLines.mpr ⟨_, hget.trans (congrArg some hflagged)⟩
    exact ⟨⟨_, by rw [getElem_masked, hget]; rfl, hwithin⟩, hnumber⟩

/-- The masked lines are the characters of what is left. -/
theorem stripNoise_plain (lines : List (List Char)) :
    stripNoise plain lines
      = ((stripNoise tracked (readProgram lines)).1.map (List.map Glyph.char),
        (stripNoise tracked (readProgram lines)).2) := by
  have hcarries : Carries tracked plain Glyph.char := ⟨fun _ => rfl, rfl, rfl⟩
  have hmap := map_stripNoise hcarries (readProgram lines)
  unfold readProgram at hmap ⊢
  rwa [chars_readLines] at hmap

theorem code_of_line (mode : Mode) (text : List Char) :
    ∀ glyph ∈ readFrom mode 0 text, isCode glyph = true → isBlank glyph.char = false :=
  fun _ hglyph hcode => code_of_readFrom hglyph (beq_iff_eq.mp hcode)

/-- A line where comments are Rust's shows its tokens iff slashes and literals are clear. -/
theorem shows_iff_clear {mode : Mode} {inBlock : Bool} {text : List Char}
    (h : openLine tracked inBlock (readFrom mode 0 text) = uncommented (readFrom mode 0 text)) :
    Shows (readFrom mode 0 text) (stripLine tracked inBlock (readFrom mode 0 text)).1
      ↔ SlashesClear (uncommented (readFrom mode 0 text))
        ∧ LiteralsClear (uncommented (readFrom mode 0 text)) := by
  rw [shows_iff (nodup_readFrom mode 0 text) (code_of_line mode text), slashesClear_iff]
  unfold LiteralsClear
  simp only [mem_lineSpans, or_imp, forall_and, h]
  exact and_iff_right (noCode_of_openLine h)

/-- The lines of a text show their tokens iff slashes and literals are clear. -/
theorem shows_lines {mode : Mode} {inBlock : Bool} (hstep : InStep mode inBlock)
    {lines : List (List Char)}
    (hcomments : ∀ line ∈ readLines mode lines, MarksAreComments line ∧ CommentsFlat line) :
    List.Forall₂ Shows (readLines mode lines) (stripLines tracked inBlock (readLines mode lines))
      ↔ ∀ line ∈ readLines mode lines,
          SlashesClear (uncommented line) ∧ LiteralsClear (uncommented line) := by
  induction lines generalizing mode inBlock with
  | nil => simp [readLines, stripLines]
  | cons text lines ih =>
      rw [readLines, List.forall_mem_cons] at hcomments
      obtain ⟨⟨hmarks, hflat⟩, hbelow⟩ := hcomments
      obtain ⟨hopen, hlater⟩ := openLine_eq hstep text hmarks hflat
      rw [readLines, stripLines, List.forall₂_cons, List.forall_mem_cons, ih hlater hbelow,
        shows_iff_clear hopen]

theorem inStep_start (lines : List (List Char)) :
    InStep (if hasShebang lines then .lineComment else .code false) false := by
  split_ifs <;> rfl

/-- Where the lines show their tokens, no code is blanked with a comment. -/
theorem openSpansFree_of_shows {mode : Mode} {inBlock : Bool} {lines : List (List Char)}
    (h : List.Forall₂ Shows (readLines mode lines)
      (stripLines tracked inBlock (readLines mode lines))) :
    OpenSpansFree inBlock (readLines mode lines) := by
  induction lines generalizing mode inBlock with
  | nil => exact trivial
  | cons text lines ih =>
      rw [readLines, stripLines, List.forall₂_cons] at h
      obtain ⟨hshows, hlater⟩ := h
      refine ⟨?_, ih hlater⟩
      intro span hspan
      exact (shows_iff (nodup_readFrom mode 0 text) (code_of_line mode text)).mp hshows span
        (mem_lineSpans.mpr (.inl hspan))

/-- **When `strip_noise` hides no code**: then no `/*` reaches code; and where every `/*` is in a
block comment and no comment is nested, what counts is what its slashes and quotes reach. -/
theorem codeVisible_iff (lines : List (List Char)) :
    (CodeVisible lines → ∀ above line below, readProgram lines = above ++ line :: below →
        MarksReachNoCode line below)
      ∧ ((∀ line ∈ readProgram lines, MarksAreComments line ∧ CommentsFlat line) →
        (CodeVisible lines ↔ ∀ line ∈ readProgram lines,
          SlashesClear (uncommented line) ∧ LiteralsClear (uncommented line))) := by
  constructor
  · intro hvisible above line below hsplit
    have hfree := openSpansFree_of_shows ((codeVisible_iff_shows lines).mp hvisible)
    unfold readProgram at hsplit
    rw [hsplit] at hfree
    exact reach_of_append hfree
  · intro hcomments
    rw [codeVisible_iff_shows]
    exact shows_lines (inStep_start lines) hcomments

/-- Comments over two lines, a word with slashes, and literals with quotes in them. -/
theorem codeVisible_sample :
    CodeVisible ["let a = f(\"x\\\"\"); /* b".toList, "c */ g(\"d:// e\", 'h')?; // '".toList] := by
  refine ((codeVisible_iff _).2 ?_).mpr ?_
  · decide +kernel
  · decide +kernel

/-- A `/*` in a string hides the lines below it. -/
theorem mark_in_string_hides_code :
    stripNoise plain ["let s = \"/*\";".toList, "x.unwrap();".toList]
        = (["let s = \"".toList, []], [1])
      ∧ ¬ CodeVisible ["let s = \"/*\";".toList, "x.unwrap();".toList] := by
  refine ⟨by decide +kernel, ?_⟩
  intro hvisible
  have hline : (readProgram ["let s = \"/*\";".toList, "x.unwrap();".toList])[1]?
      = some (readFrom (.code false) 0 "x.unwrap();".toList) := by decide +kernel
  have hcode : ∀ glyph ∈ readFrom (.code false) 0 "x.unwrap();".toList, isCode glyph = true := by
    decide +kernel
  have hnumber := (hvisible 1 _ hline _ (List.cons_ne_nil _ _) hcode List.infix_rfl).2
  exact absurd hnumber (by decide +kernel)

end ClipTown.FpConformance
