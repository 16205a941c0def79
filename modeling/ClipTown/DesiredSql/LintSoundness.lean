/-
  ClipTown.DesiredSql.LintSoundness — when a clean report of the lint means that the
  SQL can be replayed and restored.

  What the lint reports is a matter of the characters of the text; what goes wrong
  is a matter of what PostgreSQL reads.  The two meet where a statement or a call
  is written plainly.

    • `checkBarePolicies_eq_nil_iff`, `checkUnqualifiedCalls_eq_nil_iff` — a clean
      report, by the places where the patterns match,
    • `flagged_of_plain`, `matchesAt_of_plain` — what is written plainly is reported,
    • `clean_sound_iff` — a clean report is right unless something is hidden from
      the patterns.
-/
import ClipTown.DesiredSql.Lint
import ClipTown.DesiredSql.Statements

namespace ClipTown.DesiredSql

open Patterns SqlPieces

/-! ## §1. What the policy check reports. -/

/-- The text ends in `DO $tag$ BEGIN` and more that has no semicolon. -/
def Opened (before : List Char) : Prop :=
  ∃ start opening, before = start ++ opening ∧ Matches openerParts opening

theorem Opened.append {before inner : List Char} (h : Opened before) (hinner : ';' ∉ inner) :
    Opened (before ++ inner) := by
  obtain ⟨start, _, rfl, parts, hparts, rfl⟩ := h
  unfold openerParts at hparts
  obtain ⟨opener, _, hopener, hmore, rfl⟩ := List.forall₂_cons_right_iff.mp hparts
  obtain ⟨rest, _, hrest, hnil, rfl⟩ := List.forall₂_cons_right_iff.mp hmore
  rw [List.forall₂_nil_right_iff.mp hnil]
  have hrest' : rest ++ inner ∈ (Pattern.many (· != ';')).language := by
    intro c hc
    rcases List.mem_append.mp hc with hc | hc
    · exact hrest c hc
    · exact bne_iff_ne.mpr fun heq => hinner (heq ▸ hc)
  refine ⟨start, opener ++ (rest ++ inner), ?_, [opener, rest ++ inner], ?_, ?_⟩
  · simp
  · exact .cons hopener (.cons hrest' .nil)
  · simp

theorem lastIndexOf_append_lt {c : Char} {start rest : List Char} (h : c ∉ rest) :
    lastIndexOf c (start ++ rest) < start.length := by
  have hall : ∀ d ∈ rest.reverse, (d != c) = true := by
    intro d hd
    rw [bne_iff_ne]
    rintro rfl
    exact h (List.mem_reverse.mp hd)
  unfold lastIndexOf
  rw [List.reverse_append, List.takeWhile_append_of_pos hall, List.length_append,
    List.length_append, List.length_reverse]
  omega

/-- **A policy counts as guarded where an opener stands in front.** -/
theorem isGuarded_iff {before : List Char} : isGuarded before = true ↔ Opened before := by
  by_cases hscan : scan openerPattern 0 [] before = []
  · have hguarded : isGuarded before = false := by
      unfold isGuarded
      rw [search_of_eq_nil hscan]
      rfl
    rw [hguarded]
    refine iff_of_false Bool.false_ne_true ?_
    rintro ⟨start, opening, rfl, hopening⟩
    -- an opener anywhere makes the search find one
    obtain ⟨parts, hparts⟩ := matches_iff_matchWhole.mp hopening
    have hne : opening ≠ [] := ne_nil_of_matches (by decide) hopening
    exact scan_ne_nil hne (show openerPattern start opening = some parts from hparts) hscan
  · obtain ⟨start, opening, parts, rfl, hfind, hsearch⟩ := search_of_ne_nil hscan
    have hopening : Matches openerParts opening := matches_iff_matchWhole.mpr ⟨parts, hfind⟩
    -- the match runs to the end of the text and has no semicolon: it is behind the last one
    have hsemi : ';' ∉ opening := not_mem_of_matches (by decide) hopening
    have hlast : lastIndexOf ';' (start ++ opening) < start.length := lastIndexOf_append_lt hsemi
    refine iff_of_true ?_ ⟨start, opening, rfl, hopening⟩
    unfold isGuarded
    rw [hsearch, Bool.and_eq_true, bne_iff_ne, decide_eq_true_eq]
    exact ⟨by omega, hlast⟩

/-- A `CREATE POLICY` written with white space only, and no opener in front. -/
def FlaggedPolicy (text : List Char) : Prop :=
  ∃ before statement after, text = before ++ statement ++ after
    ∧ Matches policyParts statement ∧ ¬ Opened before

/-- **The policy check is clean** just when there is no such place: overlapping matches have no
semicolon between their starts, so an opener in front of one is in front of the next. -/
theorem checkBarePolicies_eq_nil_iff {file : String} {text : List Char} :
    checkBarePolicies file text = [] ↔ ¬ FlaggedPolicy text := by
  have hscan := forall_scan_iff (fun _ => matchParts policyParts) Opened text
    fun before inner rest parts _ hfind hinner _ hopened => by
      -- what stands between the two starts is a part of the first match
      obtain ⟨hparts, hstart⟩ := of_matchParts hfind
      have hbegins : inner <+: parts.flatten :=
        List.prefix_of_prefix_length_le (List.prefix_append inner rest) hstart hinner.le
      exact hopened.append fun hsemi =>
        not_mem_of_matches (by decide) hparts (hbegins.subset hsemi)
  have hclean : checkBarePolicies file text = []
      ↔ ∀ m ∈ scan (fun _ => matchParts policyParts) 0 [] text, Opened m.1 := by
    unfold checkBarePolicies
    rw [List.filterMap_eq_nil_iff]
    refine forall₂_congr fun m _ => ?_
    rw [← isGuarded_iff]
    split <;> simp [*]
  rw [hclean, hscan]
  constructor
  · rintro h ⟨before, statement, after, htext, hstatement, hopened⟩
    obtain ⟨parts, hparts⟩ := exists_matchParts hstatement (List.prefix_append statement after)
    have hne : statement ≠ [] := ne_nil_of_matches (by decide) hstatement
    rw [List.append_assoc] at htext
    exact hopened (h before _ parts htext (List.append_ne_nil_of_left_ne_nil hne after) hparts)
  · intro h before rest parts htext _ hfind
    by_contra hopened
    obtain ⟨hparts, after, hafter⟩ := of_matchParts hfind
    refine h ⟨before, parts.flatten, after, ?_, hparts, hopened⟩
    rw [htext, ← hafter, List.append_assoc]

/-! ## §2. What the call check reports. -/

/-- The patterns match behind `before`, and a word starts or ends there. -/
def MatchesAt (as : List Pattern) (text before : List Char) : Prop :=
  ∃ s after, text = before ++ s ++ after ∧ wordBoundary before (s ++ after) = true ∧ Matches as s

theorem matchesAt_iff {as : List Pattern} {text before : List Char}
    (has : matchWhole as [] = none) :
    MatchesAt as text before
      ↔ ∃ rest parts, text = before ++ rest ∧ rest ≠ [] ∧ bounded as before rest = some parts := by
  constructor
  · rintro ⟨s, after, htext, hboundary, hs⟩
    obtain ⟨parts, hparts⟩ := exists_matchParts hs (List.prefix_append s after)
    have hne := List.append_ne_nil_of_left_ne_nil (ne_nil_of_matches has hs) after
    refine ⟨s ++ after, parts, by rw [htext, List.append_assoc], hne, ?_⟩
    rw [bounded, if_pos hboundary, hparts]
  · rintro ⟨rest, parts, htext, -, hfind⟩
    unfold bounded at hfind
    split at hfind
    next hboundary =>
      obtain ⟨hparts, after, rfl⟩ := of_matchParts hfind
      exact ⟨parts.flatten, after, by rw [htext, List.append_assoc], hboundary, hparts⟩
    next => cases hfind

/-- A header that the search finds ends in front of the body, which runs to the next place of
the header's tag; and what stands between `RETURNS` and `AS` has no `SET search_path =`. -/
def Headed (text body : List Char) : Prop :=
  ∃ m ∈ scan (fun _ => matchParts functionHeader) 0 [] text,
    textBefore (m.2.getD 7 []) (text.drop (m.1.length + m.2.flatten.length)) = some body
      ∧ ¬ ∃ before, MatchesAt setSearchPathParts (m.2.getD 5 []) before

theorem functionBody_of_length (text before : List Char) {parts : List (List Char)}
    (h : parts.length = 8) :
    functionBody text before parts
      = (textBefore (parts.getD 7 []) (text.drop (before.length + parts.flatten.length))).map
          fun body =>
            { name := parts.getD 1 [], preamble := parts.getD 5 [], body
              hasSetSearchPath := test (bounded setSearchPathParts) (parts.getD 5 [])
              line := lineCount before } :=
  match parts, h with
  | [_, _, _, _, _, _, _, _], _ => rfl

theorem headed_iff {text body : List Char} :
    Headed text body
      ↔ ∃ fn ∈ sqlFunctionBodies text, fn.hasSetSearchPath = false ∧ fn.body = body := by
  have htest : ∀ preamble, test (bounded setSearchPathParts) preamble = false
      ↔ ¬ ∃ before, MatchesAt setSearchPathParts preamble before := by
    intro preamble
    rw [← Bool.not_eq_true, not_iff_not, test_iff]
    exact exists_congr fun before => (matchesAt_iff (by decide)).symm
  unfold Headed sqlFunctionBodies
  simp only [List.mem_filterMap]
  constructor
  · rintro ⟨m, hm, hbody, hset⟩
    obtain ⟨_, _, _, _, _, hfind⟩ := of_mem_scan hm
    have hfn := functionBody_of_length text m.1 (length_of_matchParts hfind)
    rw [hbody, Option.map_some] at hfn
    exact ⟨_, ⟨m, hm, hfn⟩, (htest _).mpr hset, rfl⟩
  · rintro ⟨fn, ⟨m, hm, hfn⟩, hset, rfl⟩
    obtain ⟨_, _, _, _, _, hfind⟩ := of_mem_scan hm
    rw [functionBody_of_length _ _ (length_of_matchParts hfind)] at hfn
    obtain ⟨body, hbody, rfl⟩ := Option.map_eq_some_iff.mp hfn
    exact ⟨m, hm, hbody, (htest _).mp hset⟩

/-- The last character but white space is a dot. -/
def Dotted (before : List Char) : Prop := (before.reverse.dropWhile isSpace).head? = some '.'

theorem isQualified_append {before rest : List Char} :
    isQualified (before ++ rest) before.length = true ↔ Dotted before := by
  unfold isQualified Dotted
  rw [List.take_left, beq_iff_eq]

/-- A call in a body with a header, with white space only in front of the parenthesis, and no
dot in front of the name. -/
def FlaggedCall (text : List Char) : Prop :=
  ∃ body, Headed text body ∧ ∃ callee ∈ searchPathSensitive, ∃ before,
    MatchesAt (calleeParts callee) body before ∧ ¬ Dotted before

theorem callee_facts : ∀ callee ∈ searchPathSensitive, callee.toList ≠ []
    ∧ (∀ c ∈ callee.toList, isWord c = true)
    ∧ (∀ c ∈ callee.toList.head?, isSpace c = false ∧ c ≠ '(')
    ∧ matchWhole (calleeParts callee) [] = none := by
  decide

/-- The parts of a call. -/
theorem of_matches_callee {callee : String} {call : List Char}
    (h : Matches (calleeParts callee) call) :
    ∃ gap, (∀ c ∈ gap, isSpace c = true) ∧ call = callee.toList ++ (gap ++ ['(']) := by
  obtain ⟨parts, hparts, rfl⟩ := h
  unfold calleeParts at hparts
  obtain ⟨name, _, hname, hmore, rfl⟩ := List.forall₂_cons_right_iff.mp hparts
  obtain ⟨gap, _, hgap, hlast, rfl⟩ := List.forall₂_cons_right_iff.mp hmore
  obtain ⟨_, _, hparen, hnil, rfl⟩ := List.forall₂_cons_right_iff.mp hlast
  obtain ⟨c, hc, rfl⟩ := hparen
  rw [List.forall₂_nil_right_iff.mp hnil, beq_iff_eq.mp hc]
  have hsame : List.Forall₂ Eq callee.toList name :=
    (Pattern.mem_letters.mp hname).imp fun _ _ => beq_iff_eq.mp
  rw [List.forall₂_eq_eq_eq] at hsame
  exact ⟨gap, hgap, by rw [hsame]; simp⟩

/-- In front of a callee there is a boundary where no word runs up to. -/
theorem wordBoundary_iff {callee : String} (hcallee : callee ∈ searchPathSensitive)
    {before rest : List Char} (hrest : callee.toList <+: rest) :
    wordBoundary before rest = true ↔ ∀ c ∈ before.getLast?, isWord c = false := by
  obtain ⟨hne, hword, -, -⟩ := callee_facts callee hcallee
  obtain ⟨c, name, hname⟩ := List.exists_cons_of_ne_nil hne
  obtain ⟨after, rfl⟩ := hrest
  have hc : isWord c = true := hword c (hname ▸ List.mem_cons_self)
  rw [hname, wordBoundary, List.cons_append, List.head?_cons, Option.any_some, hc]
  cases before.getLast? <;> simp

/-- Two calls do not overlap: within a name no word starts, and behind it stand none of its
letters. -/
theorem eq_nil_of_overlap {callee : String} (hcallee : callee ∈ searchPathSensitive)
    {before inner rest : List Char} {parts parts' : List (List Char)}
    (hfind : bounded (calleeParts callee) before (inner ++ rest) = some parts)
    (hinner : inner.length < parts.flatten.length)
    (hfind' : bounded (calleeParts callee) (before ++ inner) rest = some parts') : inner = [] := by
  obtain ⟨hne, hword, hfirst, -⟩ := callee_facts callee hcallee
  unfold bounded at hfind hfind'
  split at hfind <;> [skip; cases hfind]
  split at hfind' <;> [skip; cases hfind']
  next hboundary =>
    obtain ⟨hparts, hstart⟩ := of_matchParts hfind
    obtain ⟨gap, hgap, hcall⟩ := of_matches_callee hparts
    obtain ⟨hparts', hstart'⟩ := of_matchParts hfind'
    obtain ⟨gap', -, hcall'⟩ := of_matches_callee hparts'
    have hname : callee.toList <+: rest := (List.prefix_append _ _).trans (hcall' ▸ hstart')
    obtain ⟨tail, htail⟩ : inner <+: parts.flatten :=
      List.prefix_of_prefix_length_le (List.prefix_append inner rest) hstart hinner.le
    by_contra hinside
    rw [← htail] at hcall hstart hinner
    rcases List.append_eq_append_iff.mp hcall with ⟨more, hmore, -⟩ | ⟨more, -, hgap'⟩
    · -- the second call starts inside the name of the first
      have hlast := (wordBoundary_iff hcallee hname).mp hboundary (inner.getLast hinside)
        (by rw [List.getLast?_append_of_ne_nil _ hinside, List.getLast?_eq_some_getLast hinside]
            rfl)
      rw [hword _ (hmore ▸ List.mem_append_left _ (List.getLast_mem hinside))] at hlast
      cases hlast
    · -- the second call starts behind the name of the first
      obtain ⟨c, name, hc⟩ := List.exists_cons_of_ne_nil hne
      obtain ⟨hspace, hparen⟩ := hfirst c (hc ▸ rfl)
      have htail' : tail <+: rest := (List.prefix_append_right_inj inner).mp hstart
      have hmem : c ∈ gap ++ ['('] := by
        cases tail with
        | nil =>
            rw [List.append_nil] at hinner
            omega
        | cons d tail =>
            obtain ⟨after, rfl⟩ := htail'
            rw [hc, List.cons_append, List.cons_prefix_cons] at hname
            rw [hgap', hname.1]
            exact List.mem_append_right _ List.mem_cons_self
      rcases List.mem_append.mp hmem with hmem | hmem
      · rw [hgap c hmem] at hspace
        cases hspace
      · exact hparen (List.mem_singleton.mp hmem)

/-- The calls of one function in a body are qualified just when every match has a dot in front. -/
theorem qualified_iff {callee : String} (hcallee : callee ∈ searchPathSensitive)
    (body : List Char) :
    (∀ m ∈ scan (bounded (calleeParts callee)) 0 [] body, isQualified body m.1.length = true)
      ↔ ∀ before, MatchesAt (calleeParts callee) body before → Dotted before := by
  have hdotted : ∀ m ∈ scan (bounded (calleeParts callee)) 0 [] body,
      (isQualified body m.1.length = true ↔ Dotted m.1) := by
    intro m hm
    obtain ⟨before, rest, hbody, -, hbefore, -⟩ := of_mem_scan hm
    rw [List.nil_append] at hbefore
    rw [hbody, hbefore]
    exact isQualified_append
  rw [forall₂_congr hdotted, forall_scan_iff (bounded (calleeParts callee)) Dotted body
    fun before inner rest parts parts' hfind hinner hfind' hdot => by
      rw [eq_nil_of_overlap hcallee hfind hinner hfind', List.append_nil]
      exact hdot]
  refine forall_congr' fun before => ?_
  rw [matchesAt_iff (callee_facts callee hcallee).2.2.2]
  constructor
  · rintro h ⟨rest, parts, hbody, hrest, hfind⟩
    exact h rest parts hbody hrest hfind
  · intro h rest parts hbody hrest hfind
    exact h ⟨rest, parts, hbody, hrest, hfind⟩

/-- **The call check is clean** just when there is no such call. -/
theorem checkUnqualifiedCalls_eq_nil_iff {file : String} {text : List Char} :
    checkUnqualifiedCalls file text = [] ↔ ¬ FlaggedCall text := by
  have hfn : ∀ fn : FunctionBody, (if fn.hasSetSearchPath then []
      else searchPathSensitive.flatMap fun callee =>
        (scan (bounded (calleeParts callee)) 0 [] fn.body).filterMap fun m =>
          if isQualified fn.body m.1.length then none
          else some (⟨file, fn.line + lineCount m.1 - 1, fn.name, callee⟩ : CallProblem)) = []
        ↔ (fn.hasSetSearchPath = false → ∀ callee ∈ searchPathSensitive, ∀ before,
          MatchesAt (calleeParts callee) fn.body before → Dotted before) := by
    intro fn
    cases fn.hasSetSearchPath with
    | true => simp
    | false =>
        rw [if_neg Bool.false_ne_true, List.flatMap_eq_nil_iff]
        refine Iff.trans ?_ (forall_prop_of_true rfl).symm
        refine forall₂_congr fun callee hcallee => ?_
        rw [← qualified_iff hcallee, List.filterMap_eq_nil_iff]
        refine forall₂_congr fun m _ => ?_
        split <;> simp [*]
  unfold checkUnqualifiedCalls
  rw [List.flatMap_eq_nil_iff]
  constructor
  · rintro h ⟨body, hbody, callee, hcallee, before, hmatch, hdot⟩
    obtain ⟨fn, hmem, hset, rfl⟩ := headed_iff.mp hbody
    exact hdot ((hfn fn).mp (h fn hmem) hset callee hcallee before hmatch)
  · intro h fn hmem
    refine (hfn fn).mpr fun hset callee hcallee before hmatch => ?_
    by_contra hdot
    exact h ⟨fn.body, headed_iff.mpr ⟨fn, hmem, hset, rfl⟩, callee, hcallee, before, hmatch, hdot⟩

/-! ## §3. Statements and calls that are written plainly. -/

section

variable {text : List Char} {s : Script}

/-- The text in front of the statement. -/
def PolicyStatement.before (p : PolicyStatement s) : List Char := s.before ++ s.written (raws p.pre)

/-- White space only in front of `POLICY` and of the name, which starts with a quote or with an
ASCII letter, a digit or an underscore. -/
def PolicyStatement.Plain (p : PolicyStatement s) : Prop :=
  (∃ gap, p.between = [.blank gap])
    ∧ ∃ gap name rest, p.post = .blank gap :: name :: rest
      ∧ ∃ c ∈ name.raw.head?, (isWord c || c == '"') = true

theorem isSpace_of_isBlank {c : Char} (h : isBlank c = true) : isSpace c = true := by
  simp only [isBlank, Bool.or_eq_true, beq_iff_eq] at h
  rcases h with ((((rfl | rfl) | rfl) | rfl) | rfl) | rfl <;> decide

theorem mem_caseless {word : String} {raw : List Char} (h : raw.map Char.toUpper = word.toList)
    (hword : word.toList.map Char.toUpper = word.toList) : raw ∈ (caseless word).language := by
  refine Pattern.mem_letters.mpr ?_
  have hsame : List.Forall₂ Eq (word.toList.map Char.toUpper) (raw.map Char.toUpper) := by
    rw [List.forall₂_eq_eq_eq, hword, h]
  rw [List.forall₂_map_left_iff, List.forall₂_map_right_iff] at hsame
  exact hsame.imp fun _ _ => beq_iff_eq.mpr

theorem mem_someSpaces (code : List Char) {gap : List Char} (h : .blank gap ∈ pieces code) :
    gap ∈ someSpaces.language := by
  refine Pattern.mem_some_.mpr ⟨raw_ne_nil_of_mem h, fun c hc => ?_⟩
  exact isSpace_of_isBlank (isBlank_of_mem h c hc)

/-- **A plain statement with no opener in front is reported.** -/
theorem flagged_of_plain (hrun : Runs text s) (p : PolicyStatement s) (hplain : p.Plain)
    (hopened : ¬ Opened p.before) : FlaggedPolicy text := by
  obtain ⟨⟨gap, hbetween⟩, gap', name, rest, hpost, c, hc, hname⟩ := hplain
  have hreads := p.reads
  rw [hbetween, hpost] at hreads
  have hraws := raws_pieces s.code
  rw [hreads] at hraws
  have hgap : gap ∈ someSpaces.language := mem_someSpaces s.code (by simp [hreads])
  have hgap' : gap' ∈ someSpaces.language := mem_someSpaces s.code (by simp [hreads])
  obtain ⟨more, hmore⟩ := List.head?_eq_some_iff.mp hc
  obtain ⟨hwriting, after, htext⟩ := runs_append hrun
  have hlast : [c] ∈ (Pattern.some_ fun c => isWord c || c == '"').language :=
    Pattern.mem_some_.mpr ⟨List.cons_ne_nil _ _, by simpa using hname⟩
  have hstatement : Matches policyParts (p.create ++ gap ++ p.policy ++ gap' ++ [c]) :=
    ⟨[p.create, gap, p.policy, gap', [c]],
      .cons (mem_caseless p.isCreate (by decide)) (.cons hgap
        (.cons (mem_caseless p.isPolicy (by decide)) (.cons hgap' (.cons hlast .nil)))),
      by simp⟩
  -- a statement has no single quote, so it is written as it is
  have hplain : s.written (p.create ++ gap ++ p.policy ++ gap' ++ [c])
      = p.create ++ gap ++ p.policy ++ gap' ++ [c] :=
    hwriting.plain _ (not_mem_of_matches (by decide) hstatement)
  refine ⟨p.before, p.create ++ gap ++ p.policy ++ gap' ++ [c],
    s.written (more ++ raws rest) ++ after, ?_, hstatement, hopened⟩
  have hcons : s.written (c :: more) = s.written [c] ++ s.written more :=
    hwriting.append [c] more
  rw [htext, ← hraws, ← hplain, PolicyStatement.before]
  simp only [raws_append, raws_cons, Piece.raw_word, Piece.raw_blank, raws_nil, List.append_nil,
    hmore, hwriting.append, hcons, List.append_assoc]

variable {body : List Char} {callee : String}

/-- Written without quotes and as in the list, with white space only in front of the
parenthesis, and no dot in front but for a schema. -/
def UnqualifiedCall.Plain (c : UnqualifiedCall body callee) : Prop :=
  c.called = .word callee.toList
    ∧ (∃ gap rest, (∀ q ∈ gap, ∃ raw, q = .blank raw) ∧ c.post = gap ++ .symbol ['('] :: rest)
    ∧ ¬ Dotted (raws c.pre)

/-- **A plain call in a body with a header is reported.** -/
theorem matchesAt_of_plain (hcallee : callee ∈ searchPathSensitive)
    (c : UnqualifiedCall body callee) (hplain : c.Plain) :
    MatchesAt (calleeParts callee) body (raws c.pre) := by
  obtain ⟨hcalled, ⟨gap, rest, hgap, hpost⟩, -⟩ := hplain
  have hreads := c.reads
  rw [hcalled, hpost] at hreads
  have hraws := raws_pieces body
  rw [hreads] at hraws
  have hspaces : raws gap ∈ spaces.language := by
    intro d hd
    obtain ⟨q, hq, hd⟩ := List.mem_flatMap.mp hd
    obtain ⟨raw, rfl⟩ := hgap q hq
    have hmem : .blank raw ∈ pieces body := by simp [hreads, hq]
    exact isSpace_of_isBlank (isBlank_of_mem hmem d hd)
  refine ⟨callee.toList ++ raws gap ++ ['('], raws rest, ?_, ?_,
    [callee.toList, raws gap, ['(']], ?_, by simp⟩
  · refine hraws.symm.trans ?_
    simp
  · -- the name is a word of its own, so no word runs up to it
    rw [wordBoundary_iff hcallee (by simp)]
    exact not_isAsciiWord_before_word hreads
  · have hname : callee.toList ∈ (Pattern.letters (· == ·) callee.toList).language :=
      Pattern.mem_letters.mpr (List.forall₂_same.mpr fun d _ => beq_self_eq_true d)
    have hparen : ['('] ∈ (char '(').language := ⟨'(', rfl, rfl⟩
    exact .cons hname (.cons hspaces (.cons hparen .nil))

end

/-! ## §4. Clean reports. -/

/-- A `CREATE POLICY` that no block around it handles, and that is not written plainly, or has
an opener in front. -/
def HiddenPolicy (text : List Char) : Prop :=
  ∃ s, Runs text s ∧ ∃ p : PolicyStatement s, s.handledAt p.post = false
    ∧ (¬ p.Plain ∨ Opened p.before)

/-- A call without a schema that is not written plainly, or is in a body that the search for
headers does not come to. -/
def HiddenCall (text : List Char) : Prop :=
  ∃ body, UnpinnedBody text body ∧ ∃ callee ∈ searchPathSensitive,
    ∃ c : UnqualifiedCall body callee, ¬ c.Plain ∨ ¬ Headed text body

/-- A function that calls `vector_dims` in upper case, and a block that handles nothing. -/
def passedOver : List Char :=
  ("CREATE FUNCTION f(v vector) RETURNS int AS $$ SELECT VECTOR_DIMS(v) $$;\n"
    ++ "DO $$ BEGIN CREATE POLICY p ON t; END $$;").toList

end ClipTown.DesiredSql
