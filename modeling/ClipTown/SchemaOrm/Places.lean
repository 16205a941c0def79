/-
  ClipTown.SchemaOrm.Places — where the emitter stands in its file.

  Everything `generateSql` writes takes the file from one `Place` to another: a
  text of its own moves it (`Moves`), and a fragment takes it from a slot to the
  end of that slot.  `Walk` follows a list of pieces, and leaves open only what
  the fragments do.

    • `Moves.trans`, `Walk.append` — moves and walks compose,
    • `walk_join` — the clauses of a table walk from its first line to the end
      of the last clause.
-/
import ClipTown.SchemaOrm.EmittedText

namespace ClipTown.SchemaOrm

open SqlLexer DdlOutline

/-! ## §1. Places. -/

/-- Where the emitter stands. -/
inductive Place where
  /-- Between statements. -/
  | file
  /-- In a comment line. -/
  | comment
  /-- Among the clauses of a table. -/
  | table
  /-- In the statement of an index. -/
  | index
  /-- Where a fragment is next. -/
  | slot (clause : Clause)
  /-- Where a fragment has just ended. -/
  | after (clause : Clause)
  deriving DecidableEq, Repr

/-- The first two words of a table's statement. -/
def tableHead : List String := ["create", "table"]

/-- The text ends outside quotes, in a statement that starts with `head`, inside
`depth` parentheses. -/
structure Within (head : List String) (depth : Nat) (pre : List Char) : Prop where
  closed : Closed pre
  head : (state pre).head = head
  depth : (state pre).depth = depth

/-- The text ends in the statement of an index, outside parentheses. -/
def WithinIndex (pre : List Char) : Prop :=
  ∃ word, word ≠ "table" ∧ Within ["create", word] 0 pre

/-- The text ends with a separator, or is empty. -/
def Ended (pre : List Char) : Prop := ∀ c ∈ pre.getLast?, isSeparator c = true

/-- The text written so far ends at the place. -/
def Place.At : Place → List Char → Prop
  | .file, pre => Closed pre ∧ state pre = {} ∧ Ended pre
  | .comment, pre => modeAfter pre = .lineComment ∧ state pre = {}
  | .table, pre => Within tableHead 1 pre
  | .index, pre => WithinIndex pre
  | .slot .default, pre =>
      Within tableHead 1 pre ∧ Ended pre ∧ (state pre).after = .operator
  | .slot .check, pre => Within tableHead 2 pre ∧ Ended pre
  | .slot .where_, pre => WithinIndex pre ∧ Ended pre
  | .after .default, pre => Within tableHead 1 pre ∧ (state pre).after ≠ .start
  | .after .check, pre => Within tableHead 2 pre
  | .after .where_, pre => WithinIndex pre

/-- Every text moves from the one place to the other. -/
def Moves (p : Place) (s : String) (q : Place) : Prop :=
  ∀ pre, p.At pre → q.At (pre ++ s.toList)

theorem Moves.trans {p q r : Place} {a b : String} (ha : Moves p a q) (hb : Moves q b r) :
    Moves p (a ++ b) r := by
  intro pre hpre
  rw [String.toList_append, ← List.append_assoc]
  exact hb _ (ha pre hpre)

theorem ended_append {pre : List Char} {s : String} (hne : s ≠ "") (h : EndsApart s) :
    Ended (pre ++ s.toList) := by
  unfold Ended
  rw [List.getLast?_append_of_ne_nil _ (by simpa using hne)]
  exact h

/-- **A nesting text stays in its statement.** -/
theorem Within.append {head : List String} {depth d d' : Nat} {pre text : List Char}
    (h : Within head depth pre) (hhead : head.length = 2) (hcut : Cut pre text)
    (htext : Nests true d d' text) (hd : d ≤ depth) :
    Within head (depth - d + d') (pre ++ text) := by
  have hdepth : (state pre).depth = depth - d + d := by rw [h.depth]; omega
  have hstate := htext.state hcut h.closed (by rw [h.head]; exact hhead) hdepth
  exact ⟨h.closed.append hcut htext.closed, hstate.1.trans h.head, hstate.2⟩

theorem WithinIndex.append {pre text : List Char} (h : WithinIndex pre) (hcut : Cut pre text)
    (htext : Enclosed true text) : WithinIndex (pre ++ text) := by
  obtain ⟨word, hword, hw⟩ := h
  exact ⟨word, hword, hw.append rfl hcut htext (Nat.zero_le _)⟩

/-! ## §2. Comments and lines. -/

/-- A comment line between statements. -/
theorem moves_comment {s : String} (h : ∀ c ∈ s.toList, c ≠ '\n' ∧ c ≠ '\r') :
    Moves .file ("-- " ++ s) .comment := by
  intro pre ⟨hclosed, hstate, hended⟩
  have htext : ("-- " ++ s).toList = '-' :: '-' :: ' ' :: s.toList := by
    rw [String.toList_append]
    rfl
  have hread : lexFrom (.code false) ("-- " ++ s).toList = ([], .lineComment) := by
    rw [htext, lexFrom_cons, show step (.code false) '-' _ = ([], .lineComment) from rfl,
      lexFrom_lineComment]
    · rfl
    · intro c hc
      rcases List.mem_cons.mp hc with rfl | hc
      · decide
      · rcases List.mem_cons.mp hc with rfl | hc
        · decide
        · exact h c hc
  have hcut : Cut pre ("-- " ++ s).toList := .inl hended
  obtain ⟨w, hw⟩ := id hclosed
  have hpast := lexFrom_past_cut hcut (by rw [htext]; simp) hw
  refine ⟨?_, ?_⟩
  · unfold modeAfter
    rw [lexFrom_append _ _ hcut]
    show (lexFrom (modeAfter pre) _).2 = _
    rw [hw, hpast, hread]
  · rw [state_append hcut hclosed, hstate]
    unfold items
    rw [hread]
    rfl

/-- A line break ends a comment line and keeps the place between statements. -/
theorem moves_break {p : Place} (hp : p = .file ∨ p = .comment) : Moves p "\n" .file := by
  intro pre hpre
  have hended : Ended (pre ++ "\n".toList) :=
    ended_append (by decide) (by decide)
  have hcut : Cut pre "\n".toList := cut_cons (by decide) _ _
  rcases hp with rfl | rfl
  · obtain ⟨hclosed, hstate, _⟩ := hpre
    refine ⟨hclosed.append hcut ⟨false, by decide⟩, ?_, hended⟩
    rw [state_append hcut hclosed, hstate]
    rfl
  · obtain ⟨hmode, hstate⟩ := hpre
    refine ⟨⟨false, ?_⟩, ?_, hended⟩
    · unfold modeAfter
      rw [lexFrom_append _ _ hcut]
      show (lexFrom (modeAfter pre) _).2 = _
      rw [hmode]
      rfl
    · have hset : (lexFrom (.code false) pre).2.Settled := by
        show (modeAfter pre).Settled
        rw [hmode]
        trivial
      unfold state items
      rw [tokens_append hcut hset]
      show (read {} (_ ++ tokens (lexFrom (modeAfter pre) _).1)).1 = _
      rw [hmode, show tokens (lexFrom .lineComment "\n".toList).1 = [] from rfl, List.append_nil]
      exact hstate

/-! ## §3. Statements. -/

/-- The words of a text that starts a statement give its head. -/
theorem within_start {pre : List Char} {s : String} {head : List String}
    (hpre : Place.file.At pre) (hcut : Cut pre s.toList) (hclosed : Closed s.toList)
    (hread : (read {} (tokens (items s.toList))).1.head = head
      ∧ (read {} (tokens (items s.toList))).1.depth = 0) : Within head 0 (pre ++ s.toList) := by
  obtain ⟨hc, hstate, _⟩ := hpre
  have hs : state (pre ++ s.toList) = (read {} (tokens (items s.toList))).1 := by
    rw [state_append hcut hc, hstate]
  exact ⟨hc.append hcut hclosed, by rw [hs]; exact hread.1, by rw [hs]; exact hread.2⟩

/-- The first line of a table. -/
theorem moves_createTable {table : String} (h : isIdentifier table = true) :
    Moves .file ("create table if not exists " ++ table ++ " (") .table := by
  intro pre hpre
  have hended := hpre.2.2
  rw [show "create table if not exists " ++ table ++ " ("
      = "create table " ++ ("if not exists " ++ table ++ " (") by
    simp [← String.toList_inj], String.toList_append, ← List.append_assoc]
  have hwithin : Within tableHead 0 (pre ++ "create table ".toList) :=
    within_start hpre (.inl hended) ⟨false, by decide⟩ (by decide)
  have hrest : NestsText 0 1 ("if not exists " ++ table ++ " (") :=
    (NestsText.append (.inl (by decide)) (nestsText_of_bare (by decide))
      (enclosed_identifier h)).append (.inr (by decide))
      (nestsText_of_bare (by decide))
  exact hwithin.append rfl
    (.inl (ended_append (by decide) (by decide))) hrest (Nat.le_refl 0)

/-- The statement of an index up to its columns. -/
theorem moves_createIndex (unique : Bool) {name table columns : String}
    (hname : isIdentifier name = true) (htable : isIdentifier table = true)
    (hcolumns : EnclosedText columns) :
    Moves .file ("create " ++ (if unique then "unique " else "") ++ "index if not exists "
      ++ name ++ " on " ++ table ++ " (" ++ columns ++ ")") .index := by
  intro pre hpre
  have hended := hpre.2.2
  have hon : EnclosedText ("if not exists " ++ name ++ " on ") :=
    (NestsText.append (.inl (by decide)) (nestsText_of_bare (by decide))
      (enclosed_identifier hname)).append (.inr (by decide))
      (nestsText_of_bare (by decide))
  have htarget : NestsText 0 1 ("if not exists " ++ name ++ " on " ++ table ++ " (") :=
    (hon.append (.inl (endsApart_append (by decide) (by decide)))
      (enclosed_identifier htable)).append (.inr (by decide))
      (nestsText_of_bare (by decide))
  have htail : EnclosedText
      ("if not exists " ++ name ++ " on " ++ table ++ " (" ++ columns ++ ")") :=
    enclosed_between htarget hcolumns (nestsText_of_bare (by decide))
      (endsApart_append (by decide) (by decide))
      (by decide)
  -- the statement is an index by its first words, whichever of the two forms it has
  have hwithin : ∃ start word, "create " ++ (if unique then "unique " else "") ++ "index "
      = start ∧ word ≠ "table" ∧ Within ["create", word] 0 (pre ++ start.toList)
        ∧ Ended (pre ++ start.toList) := by
    cases unique with
    | true =>
        exact ⟨"create unique index ", "unique", by decide, by decide,
          within_start hpre (.inl hended) ⟨false, by decide⟩ (by decide),
          ended_append (by decide) (by decide)⟩
    | false =>
        exact ⟨"create index ", "index", by decide, by decide,
          within_start hpre (.inl hended) ⟨false, by decide⟩ (by decide),
          ended_append (by decide) (by decide)⟩
  obtain ⟨start, word, hstart, hword, hin, hstop⟩ := hwithin
  have htext : "create " ++ (if unique then "unique " else "") ++ "index if not exists "
      ++ name ++ " on " ++ table ++ " (" ++ columns ++ ")"
      = start ++ ("if not exists " ++ name ++ " on " ++ table ++ " (" ++ columns ++ ")") := by
    rw [← hstart, show "index if not exists " = "index " ++ "if not exists " by decide]
    simp only [String.append_assoc]
  rw [htext, String.toList_append, ← List.append_assoc]
  exact WithinIndex.append ⟨word, hword, hin⟩ (.inl hstop) htail

/-! ## §4. Walks. -/

/-- How a text goes on from the place: after a fragment with a token that ends it, and
after `unique` from where a separator is next. -/
def Resumes : Place → String → Place → Prop
  | .table, s, _ => s ≠ "" ∧ StartsApart s
  | .after .default, s, q =>
      s.toList.head? = some ',' ∨ s = " unique" ∧ q = .table ∨ ∃ rest, s = " references " ++ rest
  | .after .check, s, _ => s.toList.head? = some ')'
  | .after .where_, s, _ => s.toList.head? = some ';'
  | _, _, _ => True

/-- The pieces take the file from one place to another, as long as the fragments do. -/
inductive Walk : Place → Sql → Place → Prop
  | nil (p : Place) : Walk p [] p
  | text {p q r : Place} {s : String} {sql : Sql} (hmoves : Moves p s q) (hresumes : Resumes p s q)
      (hrest : Walk q sql r) : Walk p (.text s :: sql) r
  | fragment {c : Clause} {e : String} {sql : Sql} {r : Place} (he : IsSqlExpression e)
      (hrest : Walk (.after c) sql r) : Walk (.slot c) (.fragment c e :: sql) r

theorem Walk.single {p q : Place} {s : String} (hmoves : Moves p s q) (hresumes : Resumes p s q) :
    Walk p [.text s] q :=
  .text hmoves hresumes (.nil q)

theorem Walk.append {p q r : Place} {a b : Sql} (ha : Walk p a q) (hb : Walk q b r) :
    Walk p (a ++ b) r := by
  induction ha with
  | nil => exact hb
  | text hmoves hresumes _ ih => exact .text hmoves hresumes (ih hb)
  | fragment he _ ih => exact .fragment he (ih hb)

/-- The end of a clause of a table. -/
def ClauseEnd (p : Place) : Prop := p = .table ∨ p = .after .default

theorem ClauseEnd.within {p : Place} (hp : ClauseEnd p) {pre : List Char} (h : p.At pre) :
    Within tableHead 1 pre := by
  rcases hp with rfl | rfl
  · exact h
  · exact h.1

/-- A text among the clauses. -/
theorem moves_clauseText {p : Place} (hp : ClauseEnd p) {s : String} (h : EnclosedText s)
    (hs : StartsApart s) : Moves p s .table := by
  intro pre hpre
  exact (hp.within hpre).append rfl (.inr hs) h (Nat.zero_le _)

/-- What stands between the last clause and the next one. -/
def BeforeClause (p : Place) (separator : String) : Prop :=
  p = .table ∧ separator = "\n" ∨ ClauseEnd p ∧ separator = ",\n"

theorem BeforeClause.within {p : Place} {separator : String} (h : BeforeClause p separator)
    {pre : List Char} (hpre : p.At pre) :
    Within tableHead 1 (pre ++ separator.toList) ∧ Ended (pre ++ separator.toList) := by
  rcases h with ⟨rfl, rfl⟩ | ⟨hp, rfl⟩
  · exact ⟨moves_clauseText (.inl rfl) (nestsText_of_bare (by decide)) (by decide) pre hpre,
      ended_append (by decide) (by decide)⟩
  · exact ⟨moves_clauseText hp (nestsText_of_bare (by decide)) (by decide) pre hpre,
      ended_append (by decide) (by decide)⟩

theorem BeforeClause.resumes {p : Place} {separator : String} (h : BeforeClause p separator)
    (s : String) (q : Place) : Resumes p (separator ++ s) q := by
  have hapart : ∀ c : Char, ∀ rest : List Char, separator.toList = c :: rest →
      isSeparator c = true → separator ++ s ≠ "" ∧ StartsApart (separator ++ s) := by
    intro c rest hsep hc
    have htext : (separator ++ s).toList = c :: (rest ++ s.toList) := by
      rw [String.toList_append, hsep]
      rfl
    refine ⟨fun hnil => ?_, fun d hd => ?_⟩
    · rw [hnil] at htext
      cases htext
    · rw [htext] at hd
      cases hd
      exact hc
  rcases h with ⟨rfl, rfl⟩ | ⟨rfl | rfl, rfl⟩
  · exact hapart '\n' [] rfl (by decide)
  · exact hapart ',' ['\n'] rfl (by decide)
  · left
    rw [String.toList_append]
    rfl

/-- A clause that walks to the place, after either separator. -/
def ClauseTo (q : Place) (sql : Sql) : Prop :=
  ∃ s rest, sql = .text s :: rest
    ∧ ∀ p separator, BeforeClause p separator → Walk p (.text (separator ++ s) :: rest) q

/-- A clause of a table. -/
def IsClause (sql : Sql) : Prop := ∃ q, ClauseEnd q ∧ ClauseTo q sql

theorem ClauseTo.prepend {q : Place} {sql : Sql} (h : ClauseTo q sql) {p : Place}
    {separator : String} (hp : BeforeClause p separator) : Walk p (prepend separator sql) q := by
  obtain ⟨s, rest, rfl, hwalk⟩ := h
  exact hwalk p separator hp

/-- An enclosed text starts a clause. -/
theorem moves_clause {p : Place} {separator s : String} (hp : BeforeClause p separator)
    (h : EnclosedText s) : Moves p (separator ++ s) .table := by
  intro pre hpre
  rw [String.toList_append, ← List.append_assoc]
  obtain ⟨hin, hended⟩ := hp.within hpre
  exact hin.append rfl (.inl hended) h (Nat.zero_le _)

/-- A clause of the emitter's own text. -/
theorem clauseTo_text {s : String} (h : EnclosedText s) : ClauseTo .table [.text s] :=
  ⟨s, [], rfl, fun _ _ hp => .single (moves_clause hp h) (hp.resumes s _)⟩

/-- Clauses walk to the end of the last one. -/
theorem walk_clauses {clauses : List Sql} (h : ∀ c ∈ clauses, IsClause c)
    (hlast : ∀ c ∈ clauses.getLast?, ClauseTo .table c) {p : Place} (hp : ClauseEnd p)
    (hnil : clauses = [] → p = .table) :
    Walk p (clauses.flatMap (prepend ",\n")) .table := by
  induction clauses generalizing p with
  | nil =>
      rw [hnil rfl]
      exact .nil _
  | cons clause clauses ih =>
      rw [List.flatMap_cons]
      cases clauses with
      | nil => exact ((hlast clause rfl).prepend (.inr ⟨hp, rfl⟩)).append (.nil _)
      | cons next clauses =>
          obtain ⟨q, hq, hclause⟩ := h clause List.mem_cons_self
          refine (hclause.prepend (.inr ⟨hp, rfl⟩)).append (ih ?_ ?_ hq (by simp))
          · exact fun c hc => h c (List.mem_cons_of_mem _ hc)
          · intro c hc
            rw [List.getLast?_cons_cons] at hlast
            exact hlast c hc

/-- **The clauses of a table walk from its first line to the end of the last one.** -/
theorem walk_join {clauses : List Sql} (h : ∀ c ∈ clauses, IsClause c)
    (hlast : ∀ c ∈ clauses.getLast?, ClauseTo .table c) (hne : clauses ≠ []) :
    Walk .table (prepend "\n" (join ",\n" clauses)) .table := by
  have hfirst : ∀ q, ∀ clause : Sql, ∀ rest : List Sql, ClauseTo q clause →
      Walk q (rest.flatMap (prepend ",\n")) .table →
      Walk .table (prepend "\n" (join ",\n" (clause :: rest))) .table := by
    intro q clause rest hclause hrest
    have hprepend : prepend "\n" (join ",\n" (clause :: rest))
        = prepend "\n" clause ++ rest.flatMap (prepend ",\n") := by
      obtain ⟨s, pieces, rfl, _⟩ := hclause
      rfl
    rw [hprepend]
    exact (hclause.prepend (.inl ⟨rfl, rfl⟩)).append hrest
  cases clauses with
  | nil => exact absurd rfl hne
  | cons clause clauses =>
      cases clauses with
      | nil => exact hfirst .table clause [] (hlast clause rfl) (.nil _)
      | cons next clauses =>
          obtain ⟨q, hq, hclause⟩ := h clause List.mem_cons_self
          refine hfirst q clause _ hclause (walk_clauses ?_ ?_ hq (by simp))
          · exact fun c hc => h c (List.mem_cons_of_mem _ hc)
          · intro c hc
            rw [List.getLast?_cons_cons] at hlast
            exact hlast c hc

end ClipTown.SchemaOrm
