/-
  ClipTown.Lib.Patterns — regular expressions as a backtracking matcher runs
  them.

  From a place in a text a pattern has several ways to match, which the matcher
  tries in an order: a greedy repetition the longest first, a lazy one the
  shortest.  The first way is the match.  Which texts are matched at all is a
  matter of languages; the order says where a match ends, and so where the search
  for the next one starts.

    • `mem_rests` — the ways to match, by the language of the pattern,
    • `mem_splits` — the same for a pattern in parts, each part a group,
    • `exists_scan` — every place that matches is found, or lies in a match that
      starts before it.
-/
import Mathlib.Computability.Language

namespace Patterns

/-! ## §1. Patterns and their ways to match. -/

inductive Pattern where
  | empty
  /-- One character of a class. -/
  | one (p : Char → Bool)
  /-- `p*`, greedy. -/
  | many (p : Char → Bool)
  /-- `p*?`, lazy. -/
  | few (p : Char → Bool)
  | seq (a b : Pattern)
  /-- `a|b`. -/
  | alt (a b : Pattern)

/-- White space in Python: what `\s` matches in a text, and what `str.strip` takes away. -/
def isPythonSpace (c : Char) : Bool :=
  let n := c.toNat
  (9 ≤ n && n ≤ 13) || (28 ≤ n && n ≤ 32) || n == 0x85 || n == 0xa0 || n == 0x1680
    || (0x2000 ≤ n && n ≤ 0x200a) || n == 0x2028 || n == 0x2029 || n == 0x202f || n == 0x205f
    || n == 0x3000

namespace Pattern

/-- The rests behind the runs of characters of a class, the longest run first. -/
def manyRests (p : Char → Bool) : List Char → List (List Char)
  | [] => [[]]
  | c :: rest => if p c then manyRests p rest ++ [c :: rest] else [c :: rest]

/-- The same, the shortest run first. -/
def fewRests (p : Char → Bool) : List Char → List (List Char)
  | [] => [[]]
  | c :: rest => (c :: rest) :: if p c then fewRests p rest else []

/-- What is left of the text behind each way to match, in the order they are tried. -/
def rests : Pattern → List Char → List (List Char)
  | .empty, text => [text]
  | .one _, [] => []
  | .one p, c :: rest => if p c then [rest] else []
  | .many p, text => manyRests p text
  | .few p, text => fewRests p text
  | .seq a b, text => (a.rests text).flatMap b.rests
  | .alt a b, text => a.rests text ++ b.rests text

/-- `a?`, greedy. -/
def opt (a : Pattern) : Pattern := .alt a .empty

/-- `p+`, greedy. -/
def some_ (p : Char → Bool) : Pattern := .seq (.one p) (.many p)

/-- A text, letter by letter. -/
def letters (same : Char → Char → Bool) : List Char → Pattern
  | [] => .empty
  | c :: rest => .seq (.one (same c)) (letters same rest)

/-- The texts that match. -/
def language : Pattern → Language Char
  | .empty => 1
  | .one p => {s | ∃ c, p c = true ∧ s = [c]}
  | .many p => {s | ∀ c ∈ s, p c = true}
  | .few p => {s | ∀ c ∈ s, p c = true}
  | .seq a b => a.language * b.language
  | .alt a b => a.language + b.language

theorem mem_manyRests {p : Char → Bool} {text rest : List Char} :
    rest ∈ manyRests p text ↔ ∃ s, (∀ c ∈ s, p c = true) ∧ text = s ++ rest := by
  induction text with
  | nil =>
      rw [manyRests, List.mem_singleton]
      constructor
      · intro h
        exact ⟨[], List.forall_mem_nil _, h.symm⟩
      · intro h
        obtain ⟨s, -, heq⟩ := h
        exact (List.append_eq_nil_iff.mp heq.symm).2
  | cons d text ih =>
      have hstep : rest ∈ manyRests p (d :: text)
          ↔ rest = d :: text ∨ p d = true ∧ rest ∈ manyRests p text := by
        rw [manyRests]
        split
        next hd => simp [hd, or_comm]
        next hd => simp [hd]
      rw [hstep, ih]
      constructor
      · intro h
        rcases h with rfl | ⟨hd, s, hs, rfl⟩
        · exact ⟨[], List.forall_mem_nil _, rfl⟩
        · exact ⟨d :: s, List.forall_mem_cons.mpr ⟨hd, hs⟩, rfl⟩
      · intro h
        obtain ⟨s, hs, heq⟩ := h
        cases s with
        | nil => exact .inl heq.symm
        | cons c s =>
            rw [List.cons_append, List.cons.injEq] at heq
            obtain ⟨rfl, rfl⟩ := heq
            exact .inr ⟨hs d List.mem_cons_self, s,
              fun c hc => hs c (List.mem_cons_of_mem d hc), rfl⟩

/-- The order apart, a lazy repetition matches what a greedy one does. -/
theorem fewRests_perm (p : Char → Bool) (text : List Char) :
    (fewRests p text).Perm (manyRests p text) := by
  induction text with
  | nil => exact .refl _
  | cons d text ih =>
      rw [fewRests, manyRests]
      split
      · exact (ih.cons _).trans (List.perm_append_singleton _ _).symm
      · exact .refl _

/-- **The ways to match**: the rests behind the texts of the language. -/
theorem mem_rests {a : Pattern} {text rest : List Char} :
    rest ∈ a.rests text ↔ ∃ s ∈ a.language, text = s ++ rest := by
  induction a generalizing text rest with
  | empty => simp [rests, language, eq_comm]
  | one p =>
      cases text with
      | nil =>
          constructor
          · intro h
            cases h
          · intro h
            obtain ⟨_, ⟨d, -, rfl⟩, heq⟩ := h
            cases heq
      | cons c text =>
          rw [rests]
          constructor
          · intro h
            split at h
            next hc => exact ⟨[c], ⟨c, hc, rfl⟩, by rw [List.mem_singleton.mp h]; rfl⟩
            next => cases h
          · intro h
            obtain ⟨_, ⟨d, hd, rfl⟩, heq⟩ := h
            rw [List.singleton_append, List.cons.injEq] at heq
            obtain ⟨rfl, rfl⟩ := heq
            rw [if_pos hd]
            exact List.mem_singleton_self _
  | many p => exact mem_manyRests
  | few p => exact (fewRests_perm p text).mem_iff.trans mem_manyRests
  | seq a b iha ihb =>
      rw [rests, List.mem_flatMap]
      constructor
      · intro h
        obtain ⟨middle, hmiddle, hrest⟩ := h
        obtain ⟨s, hs, rfl⟩ := iha.mp hmiddle
        obtain ⟨t, ht, rfl⟩ := ihb.mp hrest
        exact ⟨s ++ t, Language.append_mem_mul hs ht, (List.append_assoc _ _ _).symm⟩
      · intro h
        obtain ⟨st, hst, rfl⟩ := h
        obtain ⟨s, hs, t, ht, rfl⟩ := Language.mem_mul.mp hst
        exact ⟨t ++ rest, iha.mpr ⟨s, hs, List.append_assoc _ _ _⟩, ihb.mpr ⟨t, ht, rfl⟩⟩
  | alt a b iha ihb =>
      rw [rests, List.mem_append, iha, ihb]
      constructor
      · intro h
        rcases h with ⟨s, hs, heq⟩ | ⟨s, hs, heq⟩
        · exact ⟨s, (Language.mem_add _ _ _).mpr (.inl hs), heq⟩
        · exact ⟨s, (Language.mem_add _ _ _).mpr (.inr hs), heq⟩
      · intro h
        obtain ⟨s, hs, heq⟩ := h
        rcases (Language.mem_add _ _ _).mp hs with hs | hs
        · exact .inl ⟨s, hs, heq⟩
        · exact .inr ⟨s, hs, heq⟩

theorem mem_letters {same : Char → Char → Bool} {word s : List Char} :
    s ∈ (letters same word).language ↔ List.Forall₂ (fun c d => same c d = true) word s := by
  induction word generalizing s with
  | nil =>
      rw [List.forall₂_nil_left_iff]
      exact Language.mem_one s
  | cons c word ih =>
      constructor
      · intro h
        obtain ⟨_, ⟨d, hd, rfl⟩, t, ht, rfl⟩ := Language.mem_mul.mp h
        exact .cons hd (ih.mp ht)
      · intro h
        cases h with
        | cons hd ht =>
            have hone : [_] ∈ (one (same c)).language := ⟨_, hd, rfl⟩
            exact Language.append_mem_mul hone (ih.mpr ht)

theorem mem_some_ {p : Char → Bool} {s : List Char} :
    s ∈ (some_ p).language ↔ s ≠ [] ∧ ∀ c ∈ s, p c = true := by
  constructor
  · intro h
    obtain ⟨_, ⟨c, hc, rfl⟩, t, ht, rfl⟩ := Language.mem_mul.mp h
    exact ⟨List.cons_ne_nil _ _, List.forall_mem_cons.mpr ⟨hc, ht⟩⟩
  · rintro ⟨hne, hall⟩
    obtain ⟨c, t, rfl⟩ := List.exists_cons_of_ne_nil hne
    obtain ⟨hc, ht⟩ := List.forall_mem_cons.mp hall
    have hone : [c] ∈ (one p).language := ⟨c, hc, rfl⟩
    exact Language.append_mem_mul hone ht

/-- No text of the language has the character, as far as the classes tell. -/
def avoids (c : Char) : Pattern → Bool
  | .empty => true
  | .one p | .many p | .few p => !p c
  | .seq a b | .alt a b => a.avoids c && b.avoids c

theorem not_mem_of_avoids {c : Char} {a : Pattern} {s : List Char} (h : a.avoids c = true)
    (hs : s ∈ a.language) : c ∉ s := by
  have hclass : ∀ p : Char → Bool, (!p c) = true → ¬ p c = true := by
    intro p hp hc
    rw [hc] at hp
    cases hp
  induction a generalizing s with
  | empty =>
      rw [(Language.mem_one s).mp hs]
      exact List.not_mem_nil
  | one p =>
      obtain ⟨d, hd, rfl⟩ := hs
      exact fun hc => hclass p h (List.mem_singleton.mp hc ▸ hd)
  | many p => exact fun hc => hclass p h (hs c hc)
  | few p => exact fun hc => hclass p h (hs c hc)
  | seq a b iha ihb =>
      obtain ⟨ha, hb⟩ := Bool.and_eq_true_iff.mp h
      obtain ⟨u, hu, v, hv, rfl⟩ := Language.mem_mul.mp hs
      rw [List.mem_append]
      exact fun hc => hc.elim (iha ha hu) (ihb hb hv)
  | alt a b iha ihb =>
      obtain ⟨ha, hb⟩ := Bool.and_eq_true_iff.mp h
      exact ((Language.mem_add _ _ _).mp hs).elim (iha ha) (ihb hb)

end Pattern

/-! ## §2. Patterns in parts. -/

/-- The ways to match the patterns one behind the other: what each of them matches. -/
def splits : List Pattern → List Char → List (List (List Char))
  | [], _ => [[]]
  | a :: as, text =>
      (a.rests text).flatMap fun rest =>
        (splits as rest).map (text.take (text.length - rest.length) :: ·)

/-- The match: the first way. -/
def matchParts (as : List Pattern) (text : List Char) : Option (List (List Char)) :=
  (splits as text).head?

/-- **The ways to match in parts.** -/
theorem mem_splits {as : List Pattern} {text : List Char} {parts : List (List Char)} :
    parts ∈ splits as text
      ↔ List.Forall₂ (fun part a => part ∈ a.language) parts as ∧ parts.flatten <+: text := by
  induction as generalizing text parts with
  | nil =>
      rw [splits, List.mem_singleton, List.forall₂_nil_right_iff]
      constructor
      · rintro rfl
        exact ⟨rfl, List.nil_prefix⟩
      · exact fun h => h.1
  | cons a as ih =>
      have htake : ∀ s rest : List Char,
          (s ++ rest).take ((s ++ rest).length - rest.length) = s := by
        intro s rest
        rw [List.length_append, Nat.add_sub_cancel, List.take_left]
      rw [splits, List.mem_flatMap]
      constructor
      · intro h
        -- what is taken is what the rest does not have
        obtain ⟨rest, hrest, hparts⟩ := h
        obtain ⟨s, hs, rfl⟩ := Pattern.mem_rests.mp hrest
        obtain ⟨parts', hparts', rfl⟩ := List.mem_map.mp hparts
        obtain ⟨hall, hstart⟩ := ih.mp hparts'
        rw [htake]
        refine ⟨.cons hs hall, ?_⟩
        rw [List.flatten_cons]
        exact (List.prefix_append_right_inj s).mpr hstart
      · intro h
        obtain ⟨hall, rest, htext⟩ := h
        cases hall with
        | cons hs hall =>
            rename_i s parts'
            rw [List.flatten_cons, List.append_assoc] at htext
            subst htext
            refine ⟨parts'.flatten ++ rest, Pattern.mem_rests.mpr ⟨s, hs, rfl⟩, ?_⟩
            rw [htake]
            exact List.mem_map_of_mem (ih.mpr ⟨hall, List.prefix_append _ _⟩)

/-- The whole text matches the patterns one behind the other. -/
def Matches (as : List Pattern) (text : List Char) : Prop :=
  ∃ parts, List.Forall₂ (fun part a => part ∈ a.language) parts as ∧ parts.flatten = text

theorem exists_matchParts {as : List Pattern} {s text : List Char} (hs : Matches as s)
    (hstart : s <+: text) : ∃ parts, matchParts as text = some parts := by
  obtain ⟨parts, hall, rfl⟩ := hs
  have hne : splits as text ≠ [] := List.ne_nil_of_mem (mem_splits.mpr ⟨hall, hstart⟩)
  exact ⟨_, List.head?_eq_some_head hne⟩

theorem of_matchParts {as : List Pattern} {text : List Char} {parts : List (List Char)}
    (h : matchParts as text = some parts) : Matches as parts.flatten ∧ parts.flatten <+: text := by
  obtain ⟨hall, hstart⟩ := mem_splits.mp (List.mem_of_head? h)
  exact ⟨⟨parts, hall, rfl⟩, hstart⟩

theorem length_of_matchParts {as : List Pattern} {text : List Char} {parts : List (List Char)}
    (h : matchParts as text = some parts) : parts.length = as.length :=
  (mem_splits.mp (List.mem_of_head? h)).1.length_eq

theorem not_mem_of_matches {c : Char} {as : List Pattern} {s : List Char}
    (h : as.all (Pattern.avoids c) = true) (hs : Matches as s) : c ∉ s := by
  obtain ⟨parts, hall, rfl⟩ := hs
  induction hall with
  | nil => exact List.not_mem_nil
  | cons hpart _ ih =>
      rw [List.all_cons, Bool.and_eq_true] at h
      rw [List.flatten_cons, List.mem_append]
      exact fun hc => hc.elim (Pattern.not_mem_of_avoids h.1 hpart) (ih h.2)

/-- A pattern with the end of the text behind it: the first way to match that runs that far. -/
def matchWhole (as : List Pattern) (text : List Char) : Option (List (List Char)) :=
  (splits as text).find? fun parts => parts.flatten.length == text.length

theorem matches_iff_matchWhole {as : List Pattern} {text : List Char} :
    Matches as text ↔ ∃ parts, matchWhole as text = some parts := by
  constructor
  · rintro ⟨parts, hall, htext⟩
    rw [← Option.isSome_iff_exists, matchWhole, List.find?_isSome]
    refine ⟨parts, mem_splits.mpr ⟨hall, ?_⟩, ?_⟩
    · rw [htext]
    · rw [htext]
      exact beq_self_eq_true _
  · rintro ⟨parts, hparts⟩
    obtain ⟨hall, hstart⟩ := mem_splits.mp (List.mem_of_find?_eq_some hparts)
    have hlength := List.find?_some hparts
    rw [beq_iff_eq] at hlength
    exact ⟨parts, hall, hstart.eq_of_length hlength⟩

theorem ne_nil_of_matches {as : List Pattern} {s : List Char} (h : matchWhole as [] = none)
    (hs : Matches as s) : s ≠ [] := by
  rintro rfl
  obtain ⟨parts, hparts⟩ := matches_iff_matchWhole.mp hs
  rw [h] at hparts
  cases hparts

/-! ## §3. Searching on behind each match. -/

/-- A matcher that sees the text before its place, and the text from there on. -/
abbrev Matcher := List Char → List Char → Option (List (List Char))

/-- All matches, with the text before each: the search goes on behind a match, of which
`skip` characters are still to be passed. -/
def scan (find : Matcher) : ℕ → List Char → List Char → List (List Char × List (List Char))
  | _, _, [] => []
  | skip + 1, before, c :: rest => scan find skip (before ++ [c]) rest
  | 0, before, c :: rest =>
      match find before (c :: rest) with
      | some parts => (before, parts) :: scan find (parts.flatten.length - 1) (before ++ [c]) rest
      | none => scan find 0 (before ++ [c]) rest

/-- `RegExp.prototype.test`. -/
def test (find : Matcher) (text : List Char) : Bool := !(scan find 0 [] text).isEmpty

/-- `String.prototype.search`: where the first match starts, or -1. -/
def search (find : Matcher) (text : List Char) : ℤ :=
  match scan find 0 [] text with
  | [] => -1
  | (before, _) :: _ => before.length

/-- What is found is a match. -/
theorem of_mem_scan {find : Matcher} {skip : ℕ} {before text : List Char}
    {found : List Char × List (List Char)} (h : found ∈ scan find skip before text) :
    ∃ passed rest, text = passed ++ rest ∧ rest ≠ [] ∧ found.1 = before ++ passed
      ∧ find found.1 rest = some found.2 := by
  induction text generalizing skip before with
  | nil => cases skip <;> cases h
  | cons c text ih =>
      have hlater : ∀ skip, found ∈ scan find skip (before ++ [c]) text →
          ∃ passed rest, c :: text = passed ++ rest ∧ rest ≠ [] ∧ found.1 = before ++ passed
            ∧ find found.1 rest = some found.2 := by
        intro skip hmem
        obtain ⟨passed, rest, htext, hrest, hfound, hfind⟩ := ih hmem
        refine ⟨c :: passed, rest, congrArg (c :: ·) htext, hrest, ?_, hfind⟩
        rw [hfound, List.append_assoc]
        rfl
      cases skip with
      | succ skip => exact hlater skip h
      | zero =>
          rw [scan] at h
          split at h
          next parts hparts =>
            rcases List.mem_cons.mp h with rfl | h
            · exact ⟨[], c :: text, rfl, List.cons_ne_nil _ _, (List.append_nil _).symm, hparts⟩
            · exact hlater _ h
          next => exact hlater 0 h

/-- **Every place that matches is found, or lies in a match that starts before it.** -/
theorem exists_scan {find : Matcher} {skip : ℕ} {before passed rest : List Char}
    {parts : List (List Char)} (hskip : skip ≤ passed.length) (hrest : rest ≠ [])
    (h : find (before ++ passed) rest = some parts) :
    ∃ passed' inner parts', passed = passed' ++ inner
      ∧ (before ++ passed', parts') ∈ scan find skip before (passed ++ rest)
      ∧ find (before ++ passed') (inner ++ rest) = some parts'
      ∧ (inner = [] ∨ inner.length < parts'.flatten.length) := by
  induction passed generalizing skip before with
  | nil =>
      obtain ⟨c, rest, rfl⟩ := List.exists_cons_of_ne_nil hrest
      obtain rfl : skip = 0 := Nat.le_zero.mp hskip
      refine ⟨[], [], parts, rfl, ?_, h, .inl rfl⟩
      rw [List.append_nil] at h
      rw [List.nil_append, scan, h, List.append_nil]
      exact List.mem_cons_self
  | cons c passed ih =>
      have happend : before ++ [c] ++ passed = before ++ c :: passed := by
        rw [List.append_assoc]
        rfl
      have hlater : ∀ skip', skip' ≤ passed.length →
          (∀ found ∈ scan find skip' (before ++ [c]) (passed ++ rest),
            found ∈ scan find skip before (c :: passed ++ rest)) →
          ∃ passed' inner parts', c :: passed = passed' ++ inner
            ∧ (before ++ passed', parts') ∈ scan find skip before (c :: passed ++ rest)
            ∧ find (before ++ passed') (inner ++ rest) = some parts'
            ∧ (inner = [] ∨ inner.length < parts'.flatten.length) := by
        intro skip' hle hsub
        obtain ⟨passed', inner, parts', hpassed, hmem, hfind, hinner⟩ :=
          ih hle (happend.symm ▸ h)
        have happend' : before ++ [c] ++ passed' = before ++ c :: passed' := by
          rw [List.append_assoc]
          rfl
        rw [happend'] at hmem hfind
        exact ⟨c :: passed', inner, parts', congrArg (c :: ·) hpassed, hsub _ hmem, hfind, hinner⟩
      cases skip with
      | succ skip => exact hlater skip (Nat.le_of_succ_le_succ hskip) fun _ hmem => hmem
      | zero =>
          cases hfind : find before (c :: (passed ++ rest)) with
          | none =>
              refine hlater 0 (Nat.zero_le _) fun found hmem => ?_
              rw [List.cons_append, scan, hfind]
              exact hmem
          | some parts' =>
              have hscan : scan find 0 before (c :: passed ++ rest)
                  = (before, parts')
                    :: scan find (parts'.flatten.length - 1) (before ++ [c]) (passed ++ rest) := by
                rw [List.cons_append, scan, hfind]
              by_cases hinside : (c :: passed).length < parts'.flatten.length
              · -- the match that starts here covers the place
                refine ⟨[], c :: passed, parts', rfl, ?_, ?_, .inr hinside⟩
                · rw [List.append_nil, hscan]
                  exact List.mem_cons_self
                · rw [List.append_nil]
                  exact hfind
              · -- it ends in front of the place, and so does what is skipped
                rw [List.length_cons] at hinside
                refine hlater (parts'.flatten.length - 1) (by omega) fun found hmem => ?_
                rw [hscan]
                exact List.mem_cons_of_mem _ hmem

/-- **What passes on to an overlapping match holds at every match if it does at those found.** -/
theorem forall_scan_iff (find : Matcher) (good : List Char → Prop) (text : List Char)
    (hoverlap : ∀ before inner rest parts parts', find before (inner ++ rest) = some parts →
      inner.length < parts.flatten.length → find (before ++ inner) rest = some parts' →
      good before → good (before ++ inner)) :
    (∀ m ∈ scan find 0 [] text, good m.1)
      ↔ ∀ before rest parts, text = before ++ rest → rest ≠ [] → find before rest = some parts →
        good before := by
  constructor
  · intro h before rest parts htext hrest hfind
    have hfind' : find ([] ++ before) rest = some parts := hfind
    obtain ⟨passed, inner, parts', rfl, hmem, hfound, hinner⟩ :=
      exists_scan (Nat.zero_le _) hrest hfind'
    have hgood := h _ (htext ▸ hmem)
    rcases hinner with rfl | hinner
    · rw [List.append_nil]
      exact hgood
    · exact hoverlap _ _ _ _ _ hfound hinner hfind hgood
  · intro h m hm
    obtain ⟨before, rest, htext, hrest, hbefore, hfind⟩ := of_mem_scan hm
    rw [List.nil_append] at hbefore
    rw [hbefore] at hfind ⊢
    exact h before rest m.2 htext hrest hfind

/-- A text with a match in it has a first one. -/
theorem scan_ne_nil {find : Matcher} {before rest : List Char} {parts : List (List Char)}
    (hrest : rest ≠ []) (h : find before rest = some parts) :
    scan find 0 [] (before ++ rest) ≠ [] := by
  have hfind : find ([] ++ before) rest = some parts := h
  obtain ⟨_, _, _, _, hmem, _, _⟩ := exists_scan (Nat.zero_le _) hrest hfind
  exact List.ne_nil_of_mem hmem

theorem search_of_ne_nil {find : Matcher} {text : List Char} (h : scan find 0 [] text ≠ []) :
    ∃ before rest parts, text = before ++ rest ∧ find before rest = some parts
      ∧ search find text = before.length := by
  obtain ⟨found, later, hscan⟩ := List.exists_cons_of_ne_nil h
  obtain ⟨before, rest, htext, -, hbefore, hfind⟩ :=
    of_mem_scan (hscan ▸ List.mem_cons_self : found ∈ scan find 0 [] text)
  rw [List.nil_append] at hbefore
  refine ⟨before, rest, found.2, htext, hbefore ▸ hfind, ?_⟩
  rw [search, hscan, ← hbefore]

theorem search_of_eq_nil {find : Matcher} {text : List Char} (h : scan find 0 [] text = []) :
    search find text = -1 := by
  rw [search, h]

theorem test_iff {find : Matcher} {text : List Char} :
    test find text = true
      ↔ ∃ before rest parts, text = before ++ rest ∧ rest ≠ [] ∧ find before rest = some parts := by
  rw [test, Bool.not_eq_true', List.isEmpty_eq_false_iff]
  constructor
  · intro h
    obtain ⟨found, hfound⟩ := List.exists_mem_of_ne_nil _ h
    obtain ⟨before, rest, htext, hrest, hbefore, hfind⟩ := of_mem_scan hfound
    exact ⟨found.1, rest, found.2, by rw [htext, hbefore, List.nil_append], hrest, hfind⟩
  · rintro ⟨before, rest, parts, rfl, hrest, hfind⟩
    exact scan_ne_nil hrest hfind

/-! ## §4. Fixed texts. -/

/-- The text before the first place where `mark` stands. -/
def textBefore (mark : List Char) : List Char → Option (List Char)
  | [] => if mark = [] then some [] else none
  | c :: rest =>
      if mark.isPrefixOf (c :: rest) then some [] else (textBefore mark rest).map (c :: ·)

theorem of_textBefore {mark text s : List Char} (h : textBefore mark text = some s) :
    ∃ rest, text = s ++ mark ++ rest := by
  induction text generalizing s with
  | nil =>
      rw [textBefore] at h
      split at h
      next hmark =>
        cases h
        exact ⟨[], by rw [hmark]; rfl⟩
      next => cases h
  | cons c text ih =>
      rw [textBefore] at h
      split at h
      next hmark =>
        cases h
        obtain ⟨rest, hrest⟩ := List.isPrefixOf_iff_prefix.mp hmark
        exact ⟨rest, hrest.symm⟩
      next =>
        obtain ⟨s', hs', rfl⟩ := Option.map_eq_some_iff.mp h
        obtain ⟨rest, hrest⟩ := ih hs'
        exact ⟨rest, congrArg (c :: ·) hrest⟩

end Patterns
