/-
  ClipTown.SchemaOrm.Containment — which fragments stay inside their clause.

  A fragment stays inside its clause when the file has the outline it has with
  a plain literal in the fragment's place (`StaysInside`).  The scan of
  `assertSqlExpression` does not read a fragment the way PostgreSQL does: it
  takes double quotes for ordinary characters, knows no `E'…'`, and looks for no
  column constraint.

    • `staysInside_iff` — a fragment in its slot stays inside iff it is `Contained`,
      which is a condition on the fragment alone,
    • `generateSql_stays_inside_iff` — and every fragment of a file stays inside
      iff every fragment of the model is contained.
-/
import ClipTown.SchemaOrm.SplicedFragments

namespace ClipTown.SchemaOrm

open SqlLexer DdlOutline

/-! ## §1. Staying inside, and the condition for it. -/

/-- The text stays inside its clause between the parts of a file around it: PostgreSQL
reads it from outside quotes to outside quotes, it has no statement terminator and no
comment, no comma or unmatched parenthesis at its own top level, and the file's
statements, clauses and constraints are those of the file with `(0)` in its place. -/
structure StaysInside (pre text post : List Char) : Prop where
  opens : Closed pre
  closes : Closed (pre ++ text)
  noTerminator : NoTerminator (items text)
  noComment : Item.comment ∉ items text
  topLevel : level false 0 (brackets (items text)) = some 0
  outline : outline (pre ++ text ++ post) = outline (pre ++ "(0)".toList ++ post)

/-- The characters that PostgreSQL reads outside quotes. -/
def outside (items : List Item) : List Char :=
  items.filterMap fun i => match i with
    | .char c => some c
    | _ => none

/-- The reader after `default`. -/
def afterDefault : Reading := { head := tableHead, depth := 1, after := .operator }

/-- The constraints that follow an operand at the top level of a default. -/
def columnConstraints (text : List Char) : List Mark :=
  (read afterDefault (tokens (items text))).2

example : columnConstraints "0 unique".toList = [.constraint "unique"] := by decide

/-- The fragment leaves no quoted form of PostgreSQL open, the emitter's scan also
accepts what stands outside PostgreSQL's quotes, and a default has no column constraint. -/
structure Contained (c : Clause) (e : String) : Prop where
  closed : Closed e.toList
  scanned : ∃ label unquoted, scanFragment label 0 false (outside (items e.toList)) = .ok unquoted
  unconstrained : c = .default → columnConstraints e.toList = []

/-! ## §2. The scan outside quotes. -/

/-- Without quotes, the scan follows the brackets. -/
theorem scanFragment_iff_level {label : String} {depth : Nat} {text : List Char}
    (h : '\'' ∉ text) :
    (∃ unquoted, scanFragment label depth false text = .ok unquoted)
      ↔ level false depth (text.filterMap fun c => bracketOf (.char c)) = some 0 := by
  induction text generalizing depth with
  | nil =>
      simp only [scanFragment, List.filterMap_nil, level_nil, Checks.do_eq_ok, failIf_eq_ok,
        Checks.exists_unit, Checks.pure_eq_ok]
      simp
  | cons c text ih =>
      have hc : c ≠ '\'' := fun heq => h (heq ▸ List.mem_cons_self)
      have hrest : '\'' ∉ text := fun hmem => h (List.mem_cons_of_mem _ hmem)
      have hcons : ∀ d (x : Char),
          (∃ unquoted, (do return x :: (← scanFragment label d false text) : Result (List Char))
              = .ok unquoted)
            ↔ ∃ unquoted, scanFragment label d false text = .ok unquoted := by
        intro d x
        cases scanFragment label d false text <;>
          simp [bind, Except.bind, pure, Except.pure]
      rw [scanFragment, if_neg hc]
      by_cases hopen : c = '('
      · rw [if_pos hopen, hcons, ih hrest, hopen]
        rfl
      · rw [if_neg hopen]
        by_cases hclose : c = ')'
        · rw [if_pos hclose, hclose]
          show _ ↔ level false depth (')' :: _) = some 0
          rw [level_cons]
          by_cases hd : depth = 0
          · simp [hd, fail]
          · simp only [if_neg hd, hcons, ih hrest]
            simp
        · rw [if_neg hclose]
          by_cases hcomma : c = ','
          · subst hcomma
            show _ ↔ level false depth (',' :: _) = some 0
            rw [level_cons]
            by_cases hd : depth = 0
            · simp [hd, fail]
            · simp only [hd, and_false, if_false, hcons, ih hrest]
              simp
          -- any other character is no bracket, and the scan passes over it too
          · have hnone : bracketOf (.char c) = none := bracketOf_eq_none hopen hclose hcomma
            have hskip : (c :: text).filterMap (fun d => bracketOf (.char d))
                = text.filterMap fun d => bracketOf (.char d) := List.filterMap_cons_none hnone
            rw [if_neg fun hand => hcomma hand.1, hcons, ih hrest, hskip]

/-- **The scan accepts what stands outside quotes iff its brackets close** without a
comma at the top level. -/
theorem scanned_iff (label : String) (text : List Char) :
    (∃ unquoted, scanFragment label 0 false (outside (items text)) = .ok unquoted)
      ↔ level false 0 (brackets (items text)) = some 0 := by
  have hquote : '\'' ∉ outside (items text) := by
    intro hmem
    obtain ⟨i, hi, hchar⟩ := List.mem_filterMap.mp hmem
    cases i with
    | char c =>
        cases hchar
        exact (char_mem hi).2 rfl
    | _ => cases hchar
  rw [scanFragment_iff_level hquote]
  unfold outside brackets
  rw [List.filterMap_filterMap]
  have hsame : (fun i : Item => (match i with
        | .char c => some c
        | _ => none).bind fun c => bracketOf (.char c)) = bracketOf := by
    funext i
    cases i <;> rfl
  rw [hsame]

/-! ## §3. One slot. -/

/-- A text that fits in a slot: it closes what it opens without a comma at its top level,
and after `default` it has no column constraint. -/
structure Fits (c : Clause) (text : List Char) : Prop where
  enclosed : Enclosed false text
  unconstrained : c = .default → columnConstraints text = []

/-- What the text in a slot is read from. -/
structure SlotState (pre : List Char) : Prop where
  closed : Closed pre
  ended : Ended pre
  head : (state pre).head.length = 2

theorem WithinIndex.length {pre : List Char} (h : WithinIndex pre) :
    (state pre).head.length = 2 := by
  obtain ⟨word, _, hw⟩ := h
  rw [hw.head]
  rfl

theorem slotState {c : Clause} {pre : List Char} (h : (Place.slot c).At pre) : SlotState pre := by
  cases c with
  | default => exact ⟨h.1.closed, h.2.1, by rw [h.1.head]; rfl⟩
  | check => exact ⟨h.1.closed, h.2, by rw [h.1.head]; rfl⟩
  | where_ =>
      refine ⟨?_, h.2, h.1.length⟩
      obtain ⟨word, _, hw⟩ := h.1
      exact hw.closed

/-- An enclosed text leaves the statement and the depth as they are. -/
theorem state_enclosed {c : Clause} {pre text : List Char} (hpre : (Place.slot c).At pre)
    (h : Enclosed false text) :
    (state (pre ++ text)).head = (state pre).head
      ∧ (state (pre ++ text)).depth = (state pre).depth := by
  have hs := slotState hpre
  exact h.state (.inl hs.ended) hs.closed hs.head (Nat.add_zero _).symm

/-- After an enclosed text in a default, no name follows. -/
theorem after_enclosed {pre text : List Char} (hpre : (Place.slot .default).At pre)
    (h : Enclosed false text) : (state (pre ++ text)).after ≠ .start := by
  have hs := slotState hpre
  rw [state_append (.inl hs.ended) hs.closed]
  refine read_after h.tokens.1 h.tokens.2 hs.head (Nat.add_zero _).symm ?_
  intro _
  rw [hpre.2.2]
  decide

/-- **A text that fits takes the file from the slot to its end.** -/
theorem Fits.at_after {c : Clause} {pre text : List Char} (h : Fits c text)
    (hpre : (Place.slot c).At pre) : (Place.after c).At (pre ++ text) := by
  have hs := slotState hpre
  have hcut : Cut pre text := .inl hs.ended
  have hclosed : Closed (pre ++ text) := hs.closed.append hcut h.enclosed.closed
  obtain ⟨hhead, hdepth⟩ := state_enclosed hpre h.enclosed
  cases c with
  | default =>
      exact ⟨⟨hclosed, hhead.trans hpre.1.head, hdepth.trans hpre.1.depth⟩,
        after_enclosed hpre h.enclosed⟩
  | check => exact ⟨hclosed, hhead.trans hpre.1.head, hdepth.trans hpre.1.depth⟩
  | where_ =>
      obtain ⟨word, hword, hw⟩ := hpre.1
      exact ⟨word, hword, hclosed, hhead.trans hw.head, hdepth.trans hw.depth⟩

/-- The state in the slot of a default. -/
theorem state_default {pre : List Char} (h : (Place.slot .default).At pre) :
    state pre = afterDefault := by
  obtain ⟨hin, _, hafter⟩ := h
  cases hstate : state pre with
  | mk head depth after =>
      have hhead := hin.head
      have hdepth := hin.depth
      rw [hstate] at hhead hdepth hafter
      cases hhead
      cases hdepth
      cases hafter
      rfl

/-- Outside a default, an enclosed text leaves no mark. -/
theorem marks_eq_nil {c : Clause} (hc : c ≠ .default) {pre text : List Char}
    (hpre : (Place.slot c).At pre) (h : Enclosed false text) :
    (read (state pre) (tokens (items text))).2 = [] := by
  have hs := slotState hpre
  refine read_marks_eq_nil h.tokens.1 h.tokens.2 hs.head (Nat.add_zero _).symm ?_
  cases c with
  | default => exact absurd rfl hc
  | check => exact .inr (by rw [hpre.1.depth])
  | where_ =>
      obtain ⟨word, hword, hw⟩ := hpre.1
      left
      unfold Reading.isTable
      rw [hw.head]
      simpa using hword

theorem Fits.marks {c : Clause} {pre text : List Char} (h : Fits c text)
    (hpre : (Place.slot c).At pre) :
    (read (DdlOutline.state pre) (tokens (items text))).2 = [] := by
  by_cases hc : c = .default
  · subst hc
    rw [state_default hpre]
    exact h.unconstrained rfl
  · exact marks_eq_nil hc hpre h.enclosed

/-- The literal the fragment is compared with fits everywhere. -/
theorem fits_literal (c : Clause) : Fits c "(0)".toList where
  enclosed := nests_bare (by decide) (by decide) (by decide) (by decide)
  unconstrained _ := by decide

/-! ## §4. What follows a slot. -/

/-- The text goes on with a separator and a firm token, a word only after a default. -/
structure GoesOn (c : Clause) (post : List Char) : Prop where
  apart : ∀ d ∈ post.head?, isSeparator d = true
  firm : ∃ t ts, tokens (items post) = t :: ts ∧ Firm t ∧ ∀ w, t = .word w → c = .default

theorem goesOn_symbol {c : Clause} {d : Char} (hd : isSeparator d = true)
    (hsymbol : symbolOf d = [.symbol d]) {post : List Char} (h : post.head? = some d) :
    GoesOn c post := by
  cases post with
  | nil => cases h
  | cons d' post =>
      cases h
      refine ⟨fun e he => by cases he; exact hd, ?_⟩
      obtain ⟨ts, hts⟩ := tokens_symbol hd hsymbol post
      exact ⟨_, ts, hts, trivial, fun w hw => by cases hw⟩

/-- A keyword of the emitter's own after a default. -/
theorem goesOn_word {s : String} (w : String) (hs : tokens (items s.toList) = [.word w])
    (hw : w ∈ constraintWords) (hclosed : Closed s.toList) (hne : s ≠ "") (hapart : StartsApart s)
    {post : List Char} (hcut : Cut s.toList post) : GoesOn .default (s.toList ++ post) where
  apart := by
    rw [List.head?_append_of_ne_nil _ (by simpa using hne)]
    exact hapart
  firm := by
    refine ⟨.word w, tokens (items post), ?_, hw, fun _ _ => rfl⟩
    rw [tokens_items_append hcut hclosed, hs]
    rfl

/-- Among the clauses of a table the pieces go on with a separator. -/
theorem walk_apart {sql : Sql} {r : Place} (h : Walk .table sql r) :
    ∀ d ∈ sql.render.head?, isSeparator d = true := by
  cases h with
  | nil => simp [Sql.render]
  | text hmoves hresumes hrest =>
      obtain ⟨hne, hapart⟩ := hresumes
      intro d hd
      apply hapart
      rwa [Sql.render, List.flatMap_cons, Piece.render,
        List.head?_append_of_ne_nil _ (by simpa using hne)] at hd

/-- **The pieces after a fragment go on** with a token that ends it. -/
theorem goesOn_of_walk {c : Clause} {sql : Sql} {r : Place} (h : Walk (.after c) sql r)
    (hr : r ≠ .after c) : GoesOn c sql.render := by
  cases h with
  | nil => exact absurd rfl hr
  | @text _ q _ s rest hmoves hresumes hrest =>
      have hrender : Sql.render (.text s :: rest) = s.toList ++ rest.render := by
        rw [Sql.render, List.flatMap_cons]
        rfl
      have hfirst : ∀ d, s.toList.head? = some d →
          (Sql.render (.text s :: rest)).head? = some d := by
        intro d hd
        rw [hrender, List.head?_append, hd]
        rfl
      cases c with
      | check => exact goesOn_symbol (by decide) (by decide) (hfirst ')' hresumes)
      | where_ => exact goesOn_symbol (by decide) (by decide) (hfirst ';' hresumes)
      | default =>
          rcases hresumes with hcomma | ⟨rfl, rfl⟩ | ⟨tail, rfl⟩
          · exact goesOn_symbol (by decide) (by decide) (hfirst ',' hcomma)
          · rw [hrender]
            exact goesOn_word "unique" (by decide) (by decide) ⟨true, by decide⟩ (by decide)
              (by decide)
              (.inr (walk_apart hrest))
          · rw [hrender, String.toList_append, List.append_assoc]
            have hended : EndsApart " references " := by decide
            exact goesOn_word "references" (by decide) (by decide) ⟨false, by decide⟩ (by decide)
              (by decide)
              (.inl hended)

/-! ## §5. The fragment in its slot. -/

/-- An accepted expression ends no statement. -/
theorem IsSqlExpression.noTerminator_items {e : String} (he : IsSqlExpression e) :
    DdlOutline.NoTerminator (items e.toList) := by
  intro hmem
  have hin : ';' ∈ e.toList := (char_mem hmem).1
  obtain ⟨front, back, hsplit⟩ := List.append_of_mem hin
  exact he.noTerminator ⟨front, back, by rw [hsplit]; simp⟩

/-- An accepted expression has no comment. -/
theorem IsSqlExpression.noComment_items {e : String} (he : IsSqlExpression e) :
    Item.comment ∉ items e.toList := by
  intro hmem
  have hcode : ¬ (Mode.code false).InComment := id
  rcases bracket_of_comment hcode hmem with hline | hblock
  · exact he.noLineComment hline
  · exact he.noBlockComment hblock

theorem Contained.fits {c : Clause} {e : String} (he : IsSqlExpression e) (h : Contained c e) :
    Fits c e.toList := by
  obtain ⟨label, hscan⟩ := h.scanned
  exact ⟨⟨h.closed, he.noTerminator_items, (scanned_iff label _).mp hscan⟩, h.unconstrained⟩

/-- Two enclosed texts in a slot leave what follows to be read the same. -/
theorem read_post {c : Clause} {pre post : List Char} (hpre : (Place.slot c).At pre)
    (hpost : GoesOn c post) {a b : List Char} (ha : Enclosed false a) (hb : Enclosed false b) :
    (read (state (pre ++ a)) (tokens (items post))).2
      = (read (state (pre ++ b)) (tokens (items post))).2 := by
  obtain ⟨haHead, haDepth⟩ := state_enclosed hpre ha
  obtain ⟨hbHead, hbDepth⟩ := state_enclosed hpre hb
  obtain ⟨t, ts, htokens, hfirm, hword⟩ := hpost.firm
  rw [htokens, read_alike (haHead.trans hbHead.symm) (haDepth.trans hbDepth.symm) hfirm]
  intro w hw
  have hc := hword w hw
  subst hc
  exact ⟨after_enclosed hpre ha, after_enclosed hpre hb⟩

/-- **A fragment in its slot stays inside its clause iff it is contained.** -/
theorem staysInside_iff {c : Clause} {e : String} {pre post : List Char}
    (hpre : (Place.slot c).At pre) (he : IsSqlExpression e) (hpost : GoesOn c post) :
    StaysInside pre e.toList post ↔ Contained c e := by
  have hs := slotState hpre
  have hcut : ∀ text : List Char, Cut pre text := fun _ => .inl hs.ended
  have hcutPost : ∀ text : List Char, Cut text post := fun _ => .inr hpost.apart
  have hsplit : ∀ text : List Char, Enclosed false text →
      outline (pre ++ text ++ post)
        = outline pre ++ (read (state pre) (tokens (items text))).2
            ++ (read (state (pre ++ text)) (tokens (items post))).2 :=
    fun text h => outline_split (hcut text) hs.closed (hcutPost _) h.closed
  have hliteral := fits_literal c
  constructor
  · intro h
    have hclosed : Closed e.toList := closed_of_append (hcut _) hs.closed h.closes
    have henclosed : Enclosed false e.toList := ⟨hclosed, h.noTerminator, h.topLevel⟩
    refine ⟨hclosed, ⟨e, (scanned_iff e _).mpr h.topLevel⟩, ?_⟩
    intro hc
    subst hc
    -- both files go on alike, so the marks of the fragment are those of the literal: none
    have heq := h.outline
    rw [hsplit _ henclosed, hsplit _ hliteral.enclosed, hliteral.marks hpre,
      read_post hpre hpost henclosed hliteral.enclosed] at heq
    have hmarks := List.append_cancel_left (List.append_cancel_right heq)
    rwa [state_default hpre] at hmarks
  · intro h
    have hfits := h.fits he
    refine ⟨hs.closed, hs.closed.append (hcut _) h.closed, he.noTerminator_items,
      he.noComment_items, hfits.enclosed.level, ?_⟩
    rw [hsplit _ hfits.enclosed, hsplit _ hliteral.enclosed, hfits.marks hpre,
      hliteral.marks hpre, read_post hpre hpost hfits.enclosed hliteral.enclosed]

/-! ## §6. The whole file. -/

/-- Along a walk, a fragment whose predecessors are contained stands in its slot. -/
theorem Walk.at_slot {p r : Place} {sql a b : Sql} {c : Clause} {e : String}
    (h : Walk p sql r) (hsql : sql = a ++ .fragment c e :: b) {pre : List Char} (hpre : p.At pre)
    (ha : ∀ c' e', Piece.fragment c' e' ∈ a → Contained c' e') :
    (Place.slot c).At (pre ++ Sql.render a) ∧ IsSqlExpression e ∧ Walk (.after c) b r := by
  induction a generalizing p sql pre with
  | nil =>
      subst hsql
      cases h with
      | fragment he hrest =>
          refine ⟨?_, he, hrest⟩
          rwa [show Sql.render [] = [] from rfl, List.append_nil]
  | cons piece a ih =>
      subst hsql
      have hrender : pre ++ Sql.render (piece :: a) = (pre ++ piece.render) ++ Sql.render a := by
        rw [Sql.render, List.flatMap_cons, List.append_assoc]
        rfl
      rw [hrender]
      have hrestContained := fun c' e' hmem => ha c' e' (List.mem_cons_of_mem _ hmem)
      cases h with
      | text hmoves _ hrest => exact ih hrest rfl (hmoves pre hpre) hrestContained
      | fragment he hrest =>
          have hfits := (ha _ _ List.mem_cons_self).fits he
          exact ih hrest rfl (hfits.at_after hpre) hrestContained

/-- The pieces before a fragment that stays inside, one after the other, are contained. -/
theorem Walk.contained_of_staysInside {r : Place} {sql : Sql} (h : Walk .file sql r)
    (hr : ∀ c, r ≠ .after c)
    (hall : ∀ a c e b, sql = a ++ .fragment c e :: b →
      StaysInside (Sql.render a) e.toList (Sql.render b)) :
    ∀ a b, sql = a ++ b → ∀ c e, Piece.fragment c e ∈ a → Contained c e := by
  have hstart : Place.file.At [] := ⟨⟨false, rfl⟩, rfl, by simp [Ended]⟩
  intro a
  induction a using List.reverseRecOn with
  | nil => simp
  | append_singleton a piece ih =>
      intro b hsql c e hmem
      rw [List.append_assoc] at hsql
      rcases List.mem_append.mp hmem with hmem | hmem
      · exact ih _ hsql c e hmem
      · rw [List.mem_singleton] at hmem
        subst hmem
        -- everything before this fragment is contained, so it stands in its slot
        obtain ⟨hat, he, hrest⟩ := h.at_slot hsql hstart (ih _ hsql)
        rw [List.nil_append] at hat
        exact (staysInside_iff hat he (goesOn_of_walk hrest (hr c))).mp (hall a c e b hsql)

/-- A fragment of a model stands in its file between two texts. -/
def Spliced (localeLe : String → String → Bool) (model : Model) (dialect : Dialect)
    (pre : List Char) (c : Clause) (e : String) (post : List Char) : Prop :=
  ∃ lines a b, sqlLines localeLe model dialect = .ok lines
    ∧ join "\n" lines = a ++ .fragment c e :: b ∧ pre = Sql.render a ∧ post = Sql.render b

/-- **Every fragment of the file of an accepted schema stays inside its clause iff every
fragment of the schema is contained.** -/
theorem generateSql_stays_inside_iff {localeLe : String → String → Bool} {schema : Schema}
    {model : Model} {dialect : Dialect} {file : List Char}
    (hschema : normalizeSchema schema = .ok model)
    (hfile : generateSql localeLe model dialect = .ok file) :
    (∀ pre c e post, Spliced localeLe model dialect pre c e post →
        file = pre ++ e.toList ++ post ∧ StaysInside pre e.toList post)
      ↔ ∀ c e, IsFragment model dialect c e → Contained c e := by
  obtain ⟨hproduct, hnames, hmodel⟩ := normalizeSchema_entities hschema
  obtain ⟨lines, hlines, rfl⟩ := generateSql_eq_ok hfile
  have hwalk := walk_sqlLines localeLe hproduct hmodel hnames hlines
  have hend : ∀ c, Place.file ≠ .after c := by
    intro c h
    cases h
  have hstart : Place.file.At [] := ⟨⟨false, rfl⟩, rfl, by simp [Ended]⟩
  have hmem : ∀ c e, Piece.fragment c e ∈ join "\n" lines ↔ IsFragment model dialect c e :=
    fun c e => mem_sqlLines hmodel hnames hlines
  constructor
  · intro hall c e hfragment
    refine hwalk.contained_of_staysInside hend ?_ _ [] (List.append_nil _).symm c e
      ((hmem c e).mpr hfragment)
    intro a c e b hsplit
    exact (hall _ c e _ ⟨lines, a, b, hlines, hsplit, rfl, rfl⟩).2
  · intro hall pre c e post hspliced
    obtain ⟨lines', a, b, hlines', hsplit, rfl, rfl⟩ := hspliced
    rw [hlines] at hlines'
    cases hlines'
    -- the fragments before this one leave the file at the place the emitter expects
    have hbefore : ∀ c' e', Piece.fragment c' e' ∈ a → Contained c' e' := by
      intro c' e' hin
      refine hall c' e' ((hmem c' e').mp ?_)
      rw [hsplit]
      exact List.mem_append_left _ hin
    have hfragment : IsFragment model dialect c e := (hmem c e).mp (by rw [hsplit]; simp)
    obtain ⟨hat, he, hrest⟩ := hwalk.at_slot hsplit hstart hbefore
    rw [List.nil_append] at hat
    refine ⟨?_, (staysInside_iff hat he (goesOn_of_walk hrest (hend c))).mpr (hall c e hfragment)⟩
    rw [hsplit, render_append, List.append_assoc]
    rfl

/-- A schema of one table with one column and one check. -/
def oneTable (expression : String) : Schema where
  schemaUri := "https://json-schema.org/draft/2020-12/schema"
  libCore := some { product := "p", interfacesRepository := "r" }
  defs := some [("T", {
    type := "object"
    required := ["id"]
    db := some { table := "t", checks := [{ name := "c", expression }] }
    properties := [("id", { types := ["string"] })] })]

/-- Names in the order of their code points. -/
def codePointLe (a b : String) : Bool := a ≤ b

/-- The PostgreSQL file of a schema. -/
def fileOf (schema : Schema) : Result (List Char) := do
  let model ← normalizeSchema schema
  generateSql codePointLe model .postgres

theorem exists_file {schema : Schema} {p : List Char → Bool}
    (h : (fileOf schema).toOption.any p = true) :
    ∃ model file, normalizeSchema schema = .ok model
      ∧ generateSql codePointLe model .postgres = .ok file ∧ p file = true := by
  cases hfile : fileOf schema with
  | error e => rw [hfile] at h; cases h
  | ok file =>
      rw [hfile] at h
      obtain ⟨model, hmodel, hsql⟩ := Checks.do_eq_ok.mp hfile
      exact ⟨model, file, hmodel, hsql, h⟩

theorem stays_inside_iff_oneTable :
    ∃ model file, normalizeSchema (oneTable "id <> ''") = .ok model
      ∧ generateSql codePointLe model .postgres = .ok file
      ∧ ((∀ pre c e post, Spliced codePointLe model .postgres pre c e post →
            file = pre ++ e.toList ++ post ∧ StaysInside pre e.toList post)
          ↔ ∀ c e, IsFragment model .postgres c e → Contained c e) := by
  have hfile : (fileOf (oneTable "id <> ''")).toOption.any (fun _ => true) = true := by
    decide +kernel
  obtain ⟨model, file, hmodel, hsql, _⟩ := exists_file hfile
  exact ⟨model, file, hmodel, hsql, generateSql_stays_inside_iff hmodel hsql⟩

/-- To the scan, the name `"'"` opens a literal that the next one closes. -/
def quotedNames : String := "id <> \"'\") , evil text check (\"'\" <> id"

theorem quotedNames_escape :
    ∃ model file pre post, normalizeSchema (oneTable quotedNames) = .ok model
      ∧ generateSql codePointLe model .postgres = .ok file
      ∧ Spliced codePointLe model .postgres pre .check quotedNames post
      ∧ ¬ StaysInside pre quotedNames.toList post ∧ Mark.name "evil" ∈ outline file := by
  have hcomputed : (fileOf (oneTable quotedNames)).toOption.any
      (fun file => decide (Mark.name "evil" ∈ outline file)) = true := by decide +kernel
  have hchecks : ((normalizeSchema (oneTable quotedNames)).toOption.any fun model =>
      model.entities.any fun entity => entity.checks.any (·.expression = quotedNames)) = true := by
    decide
  obtain ⟨model, file, hmodel, hsql, hevil⟩ := exists_file hcomputed
  rw [hmodel] at hchecks
  have hfragment : IsFragment model .postgres .check quotedNames := by
    simpa [IsFragment, Except.toOption] using hchecks
  obtain ⟨_, hnames, hentities⟩ := normalizeSchema_entities hmodel
  obtain ⟨lines, hlines, _⟩ := generateSql_eq_ok hsql
  have hmem := (mem_sqlLines hentities hnames hlines).mpr hfragment
  obtain ⟨a, b, hsplit⟩ := List.append_of_mem hmem
  refine ⟨model, file, Sql.render a, Sql.render b, hmodel, hsql,
    ⟨lines, a, b, hlines, hsplit, rfl, rfl⟩, ?_, by simpa using hevil⟩
  intro h
  have hlevel : level false 0 (brackets (items quotedNames.toList)) = none := by decide
  rw [h.topLevel] at hlevel
  cases hlevel

end ClipTown.SchemaOrm
