/-
  ClipTown.SchemaOrm.EmittedFile — the file of a checked model, clause by clause.

  Each function of the emitter walks from the place it starts at to the place
  the next one expects.

    • `walk_sqlLines` — the lines of a checked model walk from the start of a
      file back to a place between statements.
-/
import ClipTown.SchemaOrm.Places

namespace ClipTown.SchemaOrm

open Checks SqlLexer DdlOutline

/-! ## §1. Columns. -/

/-- **The default of a checked column** is one of its fragments or an enclosed text. -/
theorem sqlDefault_piece {field : Field} {dialect : Dialect} {piece : Piece}
    (hf : CheckedField field) (h : sqlDefault field dialect = some piece) :
    (∃ e, piece = .fragment .default e ∧ IsSqlExpression e)
      ∨ ∃ s, piece = .text s ∧ EnclosedText s := by
  unfold sqlDefault at h
  split at h
  next e he =>
    cases h
    obtain ⟨ds, hds, hlookup⟩ := Option.bind_eq_some_iff.mp he
    obtain ⟨front, back, hsplit, _⟩ := List.lookup_eq_some_iff.mp hlookup
    exact .inl ⟨e, rfl, hf.defaultByDialect ds hds (dialect.name, e) (by simp [hsplit])⟩
  next =>
    split at h
    next e he =>
      split_ifs at h
      · cases h
        exact .inr ⟨_, rfl, enclosed_sqliteUuid⟩
      · cases h
        exact .inl ⟨e, rfl, hf.default e he⟩
    next =>
      obtain ⟨value, _, hvalue⟩ := Option.map_eq_some_iff.mp h
      split_ifs at hvalue
      · exact .inr ⟨_, hvalue.symm, enclosed_quoteLiteral _⟩
      · exact .inr ⟨_, hvalue.symm, enclosed_sqlLiteral value⟩

/-- `default ` opens a slot. -/
theorem moves_default : Moves .table " default " (.slot .default) := by
  intro pre hpre
  have hcut : Cut pre " default ".toList := cut_cons (by decide) _ _
  refine ⟨moves_clauseText (.inl rfl) (nestsText_of_bare (by decide)) (by decide) pre hpre,
    ended_append (by decide) (by decide), ?_⟩
  rw [state_append hcut hpre.closed,
    show tokens (items " default ".toList) = [.word "default"] by decide]
  rfl

theorem walk_defaultPieces {field : Field} (hf : CheckedField field) (dialect : Dialect) :
    ∃ q, ClauseEnd q ∧ Walk .table ((defaultPieces field dialect).flatMap (prepend " ")) q := by
  unfold defaultPieces
  split
  next piece hpiece =>
    split
    next => exact ⟨.table, .inl rfl, .nil _⟩
    next =>
      rcases sqlDefault_piece hf hpiece with ⟨e, rfl, he⟩ | ⟨s, rfl, hs⟩
      · exact ⟨.after .default, .inr rfl,
          .text moves_default ⟨by decide, by decide⟩ (.fragment he (.nil _))⟩
      · refine ⟨.table, .inl rfl, .text moves_default ⟨by decide, by decide⟩ (.single ?_ trivial)⟩
        -- a literal of the emitter's own stays among the clauses
        intro pre hpre
        exact hpre.1.append rfl (.inl hpre.2.1) hs (Nat.zero_le _)
  next => exact ⟨.table, .inl rfl, .nil _⟩

theorem walk_unique {p : Place} (hp : ClauseEnd p) (unique : Bool) :
    ∃ q, ClauseEnd q
      ∧ Walk p ((if unique then [[Piece.text "unique"]] else []).flatMap (prepend " ")) q := by
  cases unique with
  | false => exact ⟨p, hp, .nil p⟩
  | true =>
      refine ⟨.table, .inl rfl, .single (moves_clauseText hp (nestsText_of_bare (by decide))
        (by decide)) ?_⟩
      rcases hp with rfl | rfl
      · exact ⟨by decide, by decide⟩
      · exact .inr (.inl ⟨by decide, rfl⟩)

/-- The column a checked model gives a name is an identifier. -/
theorem isIdentifier_of_field {entity : Entity} (h : CheckedEntity entity) {name : String}
    {field : Field} (hfield : entity.field name = some field) :
    isIdentifier field.column = true :=
  (h.fields field (List.mem_of_find?_eq_some hfield)).column

theorem walk_actionPieces {keyword : String} {action : Option String}
    (hkeyword : EnclosedText (" " ++ keyword ++ " ")) (hapart : StartsApart (" " ++ keyword ++ " "))
    (h : IsSafeAction action) :
    Walk .table ((actionPieces keyword action).flatMap (prepend " ")) .table := by
  unfold actionPieces
  split
  next a =>
    split
    next => exact .nil _
    next hne =>
      have htext : " " ++ (keyword ++ " " ++ a) = (" " ++ keyword ++ " ") ++ a := by
        simp only [String.append_assoc]
      have hspace : EndsApart (" " ++ keyword ++ " ") := endsApart_append (by decide) (by decide)
      have hne' : " " ++ keyword ++ " " ≠ "" := by simp [← String.toList_inj]
      have hs := startsApart_append (b := a) hne' hapart
      refine .single (s := " " ++ (keyword ++ " " ++ a)) ?_ ?_
      · rw [htext]
        exact moves_clauseText (.inl rfl)
          (NestsText.append (.inl hspace) hkeyword (enclosed_action (h a rfl hne))) hs
      · rw [htext]
        exact ⟨by simp [← String.toList_inj], hs⟩
  next => exact .nil _

theorem walk_referencePieces {model : Model} {reference : Option Reference} {parts : List Sql}
    (hmodel : ∀ e ∈ model.entities, CheckedEntity e)
    (hactions : ∀ r, reference = some r → IsSafeAction r.onDelete ∧ IsSafeAction r.onUpdate)
    (h : referencePieces model reference = .ok parts) {p : Place} (hp : ClauseEnd p) :
    ∃ q, ClauseEnd q ∧ Walk p (parts.flatMap (prepend " ")) q := by
  unfold referencePieces at h
  split at h
  next => cases h; exact ⟨p, hp, .nil p⟩
  next r =>
    split at h
    next => cases h
    next target htarget =>
      split at h
      next => cases h
      next field hfield =>
        cases h
        obtain ⟨hdelete, hupdate⟩ := hactions r rfl
        have hchecked := hmodel target (List.mem_of_find?_eq_some htarget)
        have hname : EnclosedText (" references " ++ target.table) :=
          NestsText.append (.inl (by decide)) (nestsText_of_bare (by decide))
            (enclosed_identifier hchecked.table)
        have hopen : NestsText 0 1 (" references " ++ target.table ++ " (") :=
          hname.append (.inr (by decide)) (nestsText_of_bare (by decide))
        have htext : EnclosedText
            (" references " ++ target.table ++ " (" ++ field.column ++ ")") :=
          enclosed_between hopen (enclosed_identifier (isIdentifier_of_field hchecked hfield))
            (nestsText_of_bare (by decide)) (endsApart_append (by decide) (by decide))
            (by decide)
        -- the clause ends after its text: what follows starts a word of its own
        have heq : " " ++ ("references " ++ target.table ++ " (" ++ field.column ++ ")")
            = " references " ++ (target.table ++ " (" ++ field.column ++ ")") := by
          rw [show " references " = " " ++ "references " by decide]
          simp only [String.append_assoc]
        have hfirst : Walk p
            [.text (" " ++ ("references " ++ target.table ++ " (" ++ field.column ++ ")"))]
            .table := by
          refine .single ?_ ?_
          · rw [heq]
            refine moves_clauseText hp ?_ (startsApart_append (by decide) (by decide))
            simpa only [String.append_assoc] using htext
          · rw [heq]
            rcases hp with rfl | rfl
            · exact ⟨by simp [← String.toList_inj], startsApart_append (by decide) (by decide)⟩
            · exact .inr (.inr ⟨_, rfl⟩)
        refine ⟨.table, .inl rfl, ?_⟩
        rw [List.flatMap_append, List.flatMap_append]
        exact (hfirst.append (walk_actionPieces (nestsText_of_bare (by decide)) (by decide)
          hupdate)).append (walk_actionPieces (nestsText_of_bare (by decide)) (by decide) hdelete)

/-- **A column of a checked model is a clause.** -/
theorem isClause_sqlColumn {model : Model} {dialect : Dialect} {field : Field} {sql : Sql}
    (hmodel : ∀ e ∈ model.entities, CheckedEntity e) (hf : CheckedField field)
    (h : sqlColumn model dialect field = .ok sql) : IsClause sql := by
  simp only [sqlColumn, do_eq_ok, pure_eq_ok] at h
  obtain ⟨type, htype, references, hreferences, rfl⟩ := h
  have hcolumn : EnclosedText ("  " ++ field.column) :=
    NestsText.append (.inl (by decide)) (nestsText_of_bare (by decide))
      (enclosed_identifier hf.column)
  have hspace : EnclosedText ("  " ++ field.column ++ " ") :=
    hcolumn.append (.inr (by decide)) (nestsText_of_bare (by decide))
  have hhead : EnclosedText ("  " ++ field.column ++ " " ++ type) :=
    hspace.append (.inl (endsApart_append (by decide) (by decide)))
      (enclosed_columnType hf htype)
  -- each part takes the end of the one before it
  have hnull : Walk .table
      ((if field.nullable then [] else [[Piece.text "not null"]]).flatMap (prepend " "))
      .table := by
    split
    · exact .nil _
    · exact .single (moves_clauseText (.inl rfl) (nestsText_of_bare (by decide)) (by decide))
        ⟨by decide, by decide⟩
  obtain ⟨q, hq, hdefault⟩ := walk_defaultPieces hf dialect
  obtain ⟨r, hr, hunique⟩ := walk_unique hq field.property.db.unique
  obtain ⟨t, ht, hreference⟩ := walk_referencePieces hmodel hf.actions hreferences hr
  refine ⟨t, ht, _, _, rfl, ?_⟩
  intro p separator hp
  refine .text (moves_clause hp hhead) (hp.resumes _ _) ?_
  have hparts := ((hnull.append hdefault).append hunique).append hreference
  simp only [← List.flatMap_append] at hparts
  exact hparts

/-! ## §2. Tables and indexes. -/

theorem enclosed_columnNames {entity : Entity} (h : CheckedEntity entity)
    {names columns : List String}
    (hcolumns : columnNames entity names = .ok columns) :
    EnclosedText (String.intercalate ", " columns) := by
  apply enclosed_intercalate
  intro column hcolumn
  obtain ⟨name, _, hname⟩ := exists_of_mapM hcolumns column hcolumn
  split at hname
  next field hfield =>
    cases hname
    exact enclosed_identifier (isIdentifier_of_field h hfield)
  next => cases hname

theorem clauseTo_primaryKey {columns : String} (h : EnclosedText columns) :
    ClauseTo .table [.text ("  primary key (" ++ columns ++ ")")] :=
  clauseTo_text (enclosed_between (nestsText_of_bare (by decide)) h
    (nestsText_of_bare (by decide)) (by decide) (by decide))

/-- The check of an enum is a clause. -/
theorem clauseTo_enumCheck {entity : Entity} (h : CheckedEntity entity) {field : Field}
    (hf : CheckedField field) : ∀ c ∈ enumCheck entity field, ClauseTo .table c := by
  unfold enumCheck
  split
  next => simp
  next =>
    intro c hc
    rw [List.mem_singleton] at hc
    subst hc
    apply clauseTo_text
    have hname : EnclosedText (entity.table ++ "_" ++ field.column ++ "_chk") := by
      apply enclosed_plain
      intro c hc
      have htable := fun c hc => plain_name c ((name_of_isIdentifier h.table).2 c hc)
      have hcolumn := fun c hc => plain_name c ((name_of_isIdentifier hf.column).2 c hc)
      simp only [String.toList_append, List.mem_append] at hc
      rcases hc with ((hc | hc) | hc) | hc
      · exact htable c hc
      · revert c; decide
      · exact hcolumn c hc
      · revert c; decide
    -- two parentheses are opened on the way, and closed together
    have hstart : EnclosedText
        ("  constraint " ++ (entity.table ++ "_" ++ field.column ++ "_chk")) :=
      NestsText.append (.inl (by decide)) (nestsText_of_bare (by decide)) hname
    have hcheck : NestsText 0 1
        ("  constraint " ++ (entity.table ++ "_" ++ field.column ++ "_chk") ++ " check (") :=
      hstart.append (.inr (by decide)) (nestsText_of_bare (by decide))
    have hcolumn : NestsText 0 1 ("  constraint " ++ (entity.table ++ "_" ++ field.column ++ "_chk")
        ++ " check (" ++ field.column) :=
      hcheck.append (.inl (endsApart_append (by decide) (by decide)))
        ((enclosed_identifier hf.column).deeper 1)
    have hin : NestsText 0 2 ("  constraint " ++ (entity.table ++ "_" ++ field.column ++ "_chk")
        ++ " check (" ++ field.column ++ " in (") :=
      hcolumn.append (.inr (by decide)) (nestsText_of_bare (by decide))
    have hvalues : EnclosedText (String.intercalate ", " (field.property.enum.map sqlLiteral)) := by
      apply enclosed_intercalate
      intro s hs
      obtain ⟨value, _, rfl⟩ := List.mem_map.mp hs
      exact enclosed_sqlLiteral value
    have hlist : NestsText 0 2 ("  constraint " ++ (entity.table ++ "_" ++ field.column ++ "_chk")
        ++ " check (" ++ field.column ++ " in ("
        ++ String.intercalate ", " (field.property.enum.map sqlLiteral)) :=
      hin.append (.inl (endsApart_append (by decide) (by decide))) (hvalues.deeper 2)
    have hclose : NestsText 2 0 "))" := nestsText_of_bare (by decide)
    have hall := hlist.append (.inr (by decide)) hclose
    rw [show "_chk check (" = "_chk" ++ " check (" by decide]
    simpa only [String.append_assoc] using hall

/-- **A check of a checked model is a clause**: a fragment between parentheses. -/
theorem clauseTo_check {check : CheckDef} (hname : isIdentifier check.name = true)
    (he : IsSqlExpression check.expression) :
    ClauseTo .table [.text ("  constraint " ++ check.name ++ " check ("),
      .fragment .check check.expression, .text ")"] := by
  have hstart : EnclosedText ("  constraint " ++ check.name) :=
    NestsText.append (.inl (by decide)) (nestsText_of_bare (by decide)) (enclosed_identifier hname)
  have hopen : NestsText 0 1 ("  constraint " ++ check.name ++ " check (") :=
    hstart.append (.inr (by decide)) (nestsText_of_bare (by decide))
  refine ⟨_, _, rfl, ?_⟩
  intro p separator hp
  refine .text ?_ (hp.resumes _ _) (.fragment he (.single ?_ (by unfold Resumes; decide)))
  · intro pre hpre
    obtain ⟨hin, hended⟩ := hp.within hpre
    rw [String.toList_append, ← List.append_assoc]
    refine ⟨hin.append rfl (.inl hended) hopen (Nat.zero_le _), ?_⟩
    exact ended_append (by simp [← String.toList_inj]) (endsApart_append (by decide) (by decide))
  · -- the parenthesis after the fragment closes the check
    intro pre hpre
    have hclose : Nests true 1 0 ")".toList :=
      nests_bare (by decide) (by decide) (by decide) (by decide)
    exact Within.append hpre rfl (cut_cons (by decide) _ _) hclose (by decide)

/-- **The clauses of a checked table**: the columns first, then clauses that end among
the clauses of the table. -/
theorem walk_tableClauses {model : Model} {dialect : Dialect} {entity : Entity}
    {clauses : List Sql} (hmodel : ∀ e ∈ model.entities, CheckedEntity e)
    (h : CheckedEntity entity) (hclauses : tableClauses model dialect entity = .ok clauses) :
    Walk .table (prepend "\n" (join ",\n" clauses)) .table := by
  simp only [tableClauses, do_eq_ok, pure_eq_ok] at hclauses
  obtain ⟨columns, hcolumns, primaryKey, hkey, rfl⟩ := hclauses
  have htail : ∀ c ∈ [[Piece.text ("  primary key (" ++ String.intercalate ", " primaryKey ++ ")")]]
      ++ entity.fields.flatMap (enumCheck entity)
      ++ entity.checks.map (fun check => [.text ("  constraint " ++ check.name ++ " check ("),
          .fragment .check check.expression, .text ")"]), ClauseTo .table c := by
    intro c hc
    simp only [List.mem_append, List.mem_singleton, List.mem_flatMap, List.mem_map] at hc
    rcases hc with (rfl | ⟨field, hfield, hc⟩) | ⟨check, hcheck, rfl⟩
    · exact clauseTo_primaryKey (enclosed_columnNames h hkey)
    · exact clauseTo_enumCheck h (h.fields field hfield) c hc
    · exact clauseTo_check (h.checks check hcheck).1 (h.checks check hcheck).2
  rw [List.append_assoc, List.append_assoc, ← List.append_assoc [_] _ _]
  apply walk_join
  · intro c hc
    rcases List.mem_append.mp hc with hc | hc
    · obtain ⟨field, hfield, hcolumn⟩ := exists_of_mapM hcolumns c hc
      exact isClause_sqlColumn hmodel (h.fields field hfield) hcolumn
    · exact ⟨.table, .inl rfl, htail c hc⟩
  · intro c hc
    rw [List.getLast?_append_of_ne_nil _ (by simp)] at hc
    exact htail c (List.mem_of_getLast? hc)
  · simp

/-- `;` ends the statement of an index. -/
theorem moves_indexEnd {p : Place} (hp : p = .index ∨ p = .after .where_) : Moves p ";" .file := by
  intro pre hpre
  have hin : WithinIndex pre := by rcases hp with rfl | rfl <;> exact hpre
  obtain ⟨word, _, hw⟩ := hin
  have hcut : Cut pre ";".toList := cut_cons (by decide) _ _
  refine ⟨hw.closed.append hcut ⟨false, by decide⟩, ?_, ended_append (by decide) (by decide)⟩
  rw [state_append hcut hw.closed, show tokens (items ";".toList) = [.symbol ';'] by decide]
  rfl

/-- ` where ` opens a slot. -/
theorem moves_where : Moves .index " where " (.slot .where_) := by
  intro pre hpre
  exact ⟨WithinIndex.append hpre (cut_cons (by decide) _ _)
    (nests_bare (by decide) (by decide) (by decide) (by decide)),
    ended_append (by decide) (by decide)⟩

theorem walk_indexLine {entity : Entity} {index : Index} {line : Sql}
    (h : CheckedEntity entity) (hindex : index ∈ entity.indexes)
    (hline : indexLine entity index = .ok line) : Walk .file (prepend "\n" line) .file := by
  simp only [indexLine, do_eq_ok, pure_eq_ok] at hline
  obtain ⟨columns, hcolumns, rfl⟩ := hline
  obtain ⟨hname, hwhere⟩ := h.indexes index hindex
  have hfirst := (moves_break (.inl rfl)).trans
    (moves_createIndex index.unique hname h.table (enclosed_columnNames h hcolumns))
  refine .text hfirst trivial ?_
  show Walk .index (_ ++ [.text ";"]) .file
  split
  next predicate hpredicate =>
    split
    next => exact .single (moves_indexEnd (.inl rfl)) trivial
    next =>
      exact .text moves_where trivial (.fragment (hwhere predicate hpredicate)
        (.single (moves_indexEnd (.inr rfl)) (by unfold Resumes; decide)))
  next => exact .single (moves_indexEnd (.inl rfl)) trivial

/-! ## §3. The lines of an entity. -/

/-- A description is one line. -/
theorem flattenLines_safe (inRun : Bool) (text : List Char) :
    ∀ c ∈ flattenLines inRun text, c ≠ '\n' ∧ c ≠ '\r' := by
  induction text generalizing inRun with
  | nil => simp [flattenLines]
  | cons d text ih =>
      intro c hc
      unfold flattenLines at hc
      by_cases hd : d ∈ ['\r', '\n', '\u2028', '\u2029']
      · rw [if_pos hd] at hc
        cases inRun with
        | true => exact ih true c hc
        | false =>
            rcases List.mem_cons.mp hc with rfl | hc
            · decide
            · exact ih true c hc
      · rw [if_neg hd] at hc
        rcases List.mem_cons.mp hc with rfl | hc
        · exact ⟨fun heq => hd (by simp [heq]), fun heq => hd (by simp [heq])⟩
        · exact ih false c hc

/-- A place where a line can start. -/
def LineStart (p : Place) : Prop := p = .file ∨ p = .comment

theorem walk_comment {p : Place} (hp : LineStart p) {s : String}
    (h : ∀ c ∈ s.toList, c ≠ '\n' ∧ c ≠ '\r') :
    Walk p (prepend "\n" [.text ("-- " ++ s)]) .comment := by
  refine .single ((moves_break hp).trans (moves_comment h)) ?_
  rcases hp with rfl | rfl <;> trivial

theorem walk_blank {p : Place} (hp : LineStart p) : Walk p (prepend "\n" [.text ""]) .file := by
  refine .single (moves_break hp) ?_
  rcases hp with rfl | rfl <;> trivial

/-- `);` ends the statement of a table. -/
theorem moves_tableEnd : Moves .table "\n);" .file := by
  intro pre hpre
  have hcut : Cut pre "\n);".toList := cut_cons (by decide) _ _
  refine ⟨hpre.closed.append hcut ⟨false, by decide⟩, ?_, ended_append (by decide) (by decide)⟩
  rw [state_append hcut hpre.closed,
    show tokens (items "\n);".toList) = [.symbol ')', .symbol ';'] by decide]
  rfl

theorem walk_indexes {entity : Entity} {lines : List Sql} (h : CheckedEntity entity)
    (hlines : ∀ line ∈ lines, ∃ index ∈ entity.indexes, indexLine entity index = .ok line) :
    Walk .file (lines.flatMap (prepend "\n")) .file := by
  induction lines with
  | nil => exact .nil _
  | cons line lines ih =>
      rw [List.flatMap_cons]
      obtain ⟨index, hindex, hline⟩ := hlines line List.mem_cons_self
      exact (walk_indexLine h hindex hline).append
        (ih fun l hl => hlines l (List.mem_cons_of_mem _ hl))

/-- **The lines of a checked entity walk from one statement to the next.** -/
theorem walk_entityLines {model : Model} {dialect : Dialect} {entity : Entity}
    {lines : List Sql} (hmodel : ∀ e ∈ model.entities, CheckedEntity e)
    (h : CheckedEntity entity) (hlines : entityLines model dialect entity = .ok lines) :
    Walk .file (lines.flatMap (prepend "\n")) .file := by
  simp only [entityLines, do_eq_ok, pure_eq_ok] at hlines
  obtain ⟨clauses, hclauses, indexes, hindexes, rfl⟩ := hlines
  have hcomment : ∃ p, LineStart p ∧ Walk .file
      ((if entity.description = "" then [] else
          [[Piece.text
            ("-- " ++ String.ofList (flattenLines false entity.description.toList))]]).flatMap
        (prepend "\n")) p := by
    split
    next => exact ⟨.file, .inl rfl, .nil _⟩
    next =>
      refine ⟨.comment, .inr rfl, (walk_comment (.inl rfl) ?_).append (.nil _)⟩
      rw [String.toList_ofList]
      exact flattenLines_safe _ _
  obtain ⟨p, hp, hcomment⟩ := hcomment
  have hopen : Walk p (prepend "\n"
      [.text ("create table if not exists " ++ entity.table ++ " (")]) .table := by
    refine .single ((moves_break hp).trans (moves_createTable h.table)) ?_
    rcases hp with rfl | rfl <;> trivial
  have htable := walk_tableClauses hmodel h hclauses
  -- the statement ends before the indexes, which are statements of their own
  have hclose : Walk .table (prepend "\n" [.text ");"]) .file :=
    .single moves_tableEnd ⟨by decide, by decide⟩
  have hblank : Walk .file ((if entity.indexes = [] then [] else [[Piece.text ""]]).flatMap
      (prepend "\n")) .file := by
    split
    next => exact .nil _
    next => exact (walk_blank (.inl rfl)).append (.nil _)
  have hindex := walk_indexes h (exists_of_mapM hindexes)
  simp only [List.flatMap_append, List.flatMap_cons, List.flatMap_nil, List.append_nil]
  exact ((hcomment.append (hopen.append (htable.append (hclose.append
    (walk_blank (.inl rfl)))))).append hindex).append hblank

/-! ## §4. The file. -/

section

variable (localeLe : String → String → Bool)

/-- What a round leaves: the entities that were not ready. -/
theorem filter_unplaced {remaining : List Entity} (hnames : (remaining.map (·.name)).Nodup)
    (ready : Entity → Bool) :
    remaining.filter (fun e => !((remaining.filter ready).map (·.name)).contains e.name)
      = remaining.filter (fun e => !ready e) := by
  refine List.filter_congr ?_
  intro entity hentity
  congr 1
  rw [Bool.eq_iff_iff, List.contains_iff_mem, List.mem_map]
  constructor
  · intro hmem
    obtain ⟨e, he, hname⟩ := hmem
    -- names are distinct, so this entity is the one that was placed
    rw [← List.inj_on_of_nodup_map hnames (List.mem_filter.mp he).1 hentity hname]
    exact (List.mem_filter.mp he).2
  · intro hready
    exact ⟨entity, List.mem_filter.mpr ⟨hentity, hready⟩, rfl⟩

/-- The rounds rearrange what is placed and what remains. -/
theorem topologicalRounds_perm {fuel : Nat} {remaining result entities : List Entity}
    (hnames : (remaining.map (·.name)).Nodup)
    (h : topologicalRounds localeLe fuel remaining result = some entities) :
    entities.Perm (result ++ remaining) := by
  induction fuel generalizing remaining result with
  | zero =>
      unfold topologicalRounds at h
      split at h
      next hnil => cases h; rw [hnil, List.append_nil]
      next => cases h
  | succ fuel ih =>
      unfold topologicalRounds at h
      split at h
      next hnil => cases h; rw [hnil, List.append_nil]
      next =>
        dsimp only at h
        split at h
        next => cases h
        next =>
          have hround := ih (hnames.sublist (List.filter_sublist.map _)) h
          rw [filter_unplaced hnames, List.append_assoc] at hround
          refine hround.trans (List.Perm.append_left result ?_)
          exact ((List.mergeSort_perm _ _).append_right _).trans (List.filter_append_perm _ _)

/-- **The order of the file is an order of the model's entities.** -/
theorem topologicalEntities_perm {model : Model} (hnames : (model.entities.map (·.name)).Nodup) :
    (topologicalEntities localeLe model).Perm model.entities := by
  unfold topologicalEntities
  cases h : topologicalRounds localeLe model.entities.length model.entities [] with
  | none => exact List.Perm.refl _
  | some entities => exact topologicalRounds_perm localeLe hnames h

/-- Every entity of the file is an entity of the model, and checked. -/
theorem topologicalEntities_checked {schema : Schema} {model : Model}
    (h : normalizeSchema schema = .ok model) :
    (∀ e, e ∈ topologicalEntities localeLe model ↔ e ∈ model.entities)
      ∧ ∀ e ∈ topologicalEntities localeLe model, CheckedEntity e := by
  have hchecked := normalizeSchema_entities h
  have hperm := topologicalEntities_perm localeLe hchecked.2.1
  refine ⟨fun e => hperm.mem_iff, ?_⟩
  intro e he
  exact hchecked.2.2 e (hperm.mem_iff.mp he)

theorem walk_blocks {model : Model} {dialect : Dialect} {entities : List Entity}
    {blocks : List (List Sql)} (hmodel : ∀ e ∈ model.entities, CheckedEntity e)
    (hentities : ∀ e ∈ entities, e ∈ model.entities)
    (h : entities.mapM (entityLines model dialect) = .ok blocks) :
    Walk .file (blocks.flatten.flatMap (prepend "\n")) .file := by
  have hblocks := exists_of_mapM h
  clear h
  induction blocks with
  | nil => exact .nil _
  | cons block blocks ih =>
      rw [List.flatten_cons, List.flatMap_append]
      obtain ⟨entity, hentity, hlines⟩ := hblocks block List.mem_cons_self
      have hin := hentities entity hentity
      exact (walk_entityLines hmodel (hmodel entity hin) hlines).append
        (ih fun b hb => hblocks b (List.mem_cons_of_mem _ hb))

/-- A name has no line break. -/
theorem slug_safe {product : String} (h : isProductSlug product = true) :
    ∀ c ∈ product.toList, c ≠ '\n' ∧ c ≠ '\r' := by
  have hall : ∀ c ∈ '-' :: (lowercase ++ digits), c ≠ '\n' ∧ c ≠ '\r' := by decide
  unfold isProductSlug at h
  split at h
  next hnil => simp [hnil]
  next c rest hs =>
    simp only [Bool.and_eq_true, decide_eq_true_eq, List.all_eq_true] at h
    intro d hd
    rw [hs] at hd
    rcases List.mem_cons.mp hd with rfl | hd
    · exact hall d (List.mem_cons_of_mem _ h.1)
    · exact hall d (h.2 d hd)

/-- **The lines of a checked model walk from the start of the file back to a place
between statements.** -/
theorem walk_sqlLines {model : Model} {dialect : Dialect} {lines : List Sql}
    (hproduct : isProductSlug model.product = true)
    (hmodel : ∀ e ∈ model.entities, CheckedEntity e)
    (hnames : (model.entities.map (·.name)).Nodup)
    (h : sqlLines localeLe model dialect = .ok lines) : Walk .file (join "\n" lines) .file := by
  simp only [sqlLines, do_eq_ok, pure_eq_ok] at h
  obtain ⟨blocks, hblocks, rfl⟩ := h
  have hentities := fun e => (topologicalEntities_perm localeLe hnames).mem_iff (a := e) |>.mp
  have hheader : Walk .file [.text ("-- " ++ generatedHeader)] .comment :=
    .single (moves_comment (by decide)) trivial
  have hdialect : ∀ c ∈ ("Dialect: " ++ dialect.name).toList, c ≠ '\n' ∧ c ≠ '\r' := by
    cases dialect <;> decide
  have hproduct' : ∀ c ∈ ("Product: " ++ model.product).toList, c ≠ '\n' ∧ c ≠ '\r' := by
    intro c hc
    rw [String.toList_append, List.mem_append] at hc
    rcases hc with hc | hc
    · revert c; decide
    · exact slug_safe hproduct c hc
  have hall := ((((hheader.append (walk_comment (.inr rfl) hproduct')).append
    (walk_comment (.inr rfl) hdialect)).append (walk_blank (.inr rfl))).append
    (walk_blocks hmodel hentities hblocks))
  have hp : "-- Product: " = "-- " ++ "Product: " := by decide
  have hd : "-- Dialect: " = "-- " ++ "Dialect: " := by decide
  rw [hp, hd, String.append_assoc, String.append_assoc]
  exact hall

end

end ClipTown.SchemaOrm
