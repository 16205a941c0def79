/-
  ClipTown.SchemaOrm.EmittedLines — what the lines of the emitted file create,
  reference and constrain.

  A statement opens a line, so the head of a line says what it creates; the
  clauses of a `create table` stand together in the line after.

    • `created_sqlLines` — the tables and indexes of the file,
    • `line_cases` — a line that is no clause line names no foreign key and no
      constraint,
    • `constraints_line` — the constraints of the file, line by line.
-/
import ClipTown.SchemaOrm.EmittedNames

namespace ClipTown.SchemaOrm

open Checks

/-! ## §1. Lines. -/

/-- The table a line creates. -/
def lineTable (line : Sql) : Option String := (line.head?.bind readTable).map (·.1)

/-- The index a line creates. -/
def lineIndex (line : Sql) : Option String := (line.head?.bind readIndex).map (·.1)

/-- The line of a description. -/
def commentLines (entity : Entity) : List Sql :=
  if entity.description = "" then []
  else [[.text ("-- " ++ String.ofList (flattenLines false entity.description.toList))]]

/-- The line after the indexes. -/
def blankLines (entity : Entity) : List Sql := if entity.indexes = [] then [] else [[.text ""]]

/-- The line that opens a table. -/
def createLine (entity : Entity) : Sql :=
  [.text ("create table if not exists " ++ entity.table ++ " (")]

/-- The lines of an entity. -/
theorem entityLines_eq {model : Model} {dialect : Dialect} {entity : Entity} {lines : List Sql}
    (h : entityLines model dialect entity = .ok lines) :
    ∃ clauses indexes, tableClauses model dialect entity = .ok clauses
      ∧ entity.indexes.mapM (indexLine entity) = .ok indexes
      ∧ lines = commentLines entity
          ++ [createLine entity, join ",\n" clauses, [.text ");"], [.text ""]]
          ++ indexes ++ blankLines entity := by
  simp only [entityLines, do_eq_ok, pure_eq_ok] at h
  obtain ⟨clauses, hclauses, indexes, hindexes, rfl⟩ := h
  exact ⟨clauses, indexes, hclauses, hindexes, rfl⟩

theorem readTable_apart {lit : String} (n : Nat) {rest : String}
    (h : startsApart "create table if not exists " lit n = true) :
    readTable (.text (lit ++ rest)) = none :=
  readNamed_apart n h

theorem readIndex_apart {lit : String} (n : Nat) {rest : String}
    (h : startsApart "create index if not exists " lit n = true)
    (h' : startsApart "create unique index if not exists " lit n = true) :
    readIndex (.text (lit ++ rest)) = none := by
  unfold readIndex
  rw [readNamed_apart n h, readNamed_apart n h']
  rfl

/-- A line that creates neither a table nor an index. -/
def CreatesNothing (line : Sql) : Prop := lineTable line = none ∧ lineIndex line = none

theorem createsNothing_text {lit : String} (n : Nat) {rest : String} {line : Sql}
    (h : startsApart "create table if not exists " lit n = true)
    (h' : startsApart "create index if not exists " lit n = true)
    (h'' : startsApart "create unique index if not exists " lit n = true) :
    CreatesNothing (.text (lit ++ rest) :: line) := by
  unfold CreatesNothing lineTable lineIndex
  simp only [List.head?_cons, Option.bind_some, readTable_apart n h, readIndex_apart n h' h'']
  exact ⟨rfl, rfl⟩

/-- The lines that open no statement. -/
theorem createsNothing_comment (s : String) : CreatesNothing [.text ("-- " ++ s)] :=
  createsNothing_text 1 (by decide) (by decide) (by decide)

theorem createsNothing_blank : CreatesNothing [.text ""] := by
  exact ⟨rfl, rfl⟩

theorem createsNothing_close : CreatesNothing [.text ");"] := by
  have h : CreatesNothing [.text (");" ++ "")] :=
    createsNothing_text 1 (by decide) (by decide) (by decide)
  rwa [String.append_empty] at h

/-- The clauses of a table start with a column or the primary key. -/
theorem createsNothing_clauses {model : Model} {dialect : Dialect} {entity : Entity}
    {clauses : List Sql} (h : tableClauses model dialect entity = .ok clauses) :
    CreatesNothing (join ",\n" clauses) := by
  obtain ⟨columns, key, hcolumns, rfl⟩ := tableClauses_eq h
  cases columns with
  | nil =>
      show CreatesNothing (.text ("  primary key (" ++ key ++ ")") :: _)
      rw [String.append_assoc]
      exact createsNothing_text 1 (by decide) (by decide) (by decide)
  | cons column columns =>
      obtain ⟨field, _, hsql⟩ := exists_of_mapM hcolumns column List.mem_cons_self
      obtain ⟨type, parts, _, _, rfl⟩ := sqlColumn_eq hsql
      show CreatesNothing (.text ("  " ++ field.column ++ " " ++ type) :: _)
      rw [String.append_assoc, String.append_assoc]
      exact createsNothing_text 1 (by decide) (by decide) (by decide)

/-- The line that opens a table creates it, and no index. -/
theorem lineTable_createLine {entity : Entity} (h : CheckedEntity entity) :
    lineTable (createLine entity) = some entity.table
      ∧ lineIndex (createLine entity) = none := by
  have hread : readTable (.text ("create table if not exists " ++ entity.table ++ " ("))
      = some (entity.table, "") := by
    refine readNamed_eq ?_ (blank_of_isIdentifier h.table) (by decide)
    have hempty : "".toList = [] := rfl
    simp only [String.toList_append, hempty, List.append_assoc, List.append_nil]
  have hother : readIndex (.text ("create table if not exists " ++ entity.table ++ " ("))
      = none := by
    rw [String.append_assoc]
    exact readIndex_apart 8 (by decide) (by decide)
  unfold lineTable lineIndex createLine
  simp only [List.head?_cons, Option.bind_some, hread, hother]
  exact ⟨rfl, rfl⟩

/-- The line of an index, unique or not, as the readers see it. -/
theorem read_index (unique : Bool) {name : String} (hname : ' ' ∉ name.toList) (rest : String) :
    readIndex (.text ("create " ++ (if unique then "unique " else "") ++ "index if not exists "
        ++ name ++ " on " ++ rest)) = some (name, rest)
      ∧ readTable (.text ("create " ++ (if unique then "unique " else "") ++ "index if not exists "
        ++ name ++ " on " ++ rest)) = none := by
  cases unique with
  | true =>
      have hshape : "create " ++ "unique " ++ "index if not exists " ++ name ++ " on " ++ rest
          = "create unique index if not exists " ++ (name ++ (" on " ++ rest)) := by
        have hfront : "create " ++ "unique " ++ "index if not exists "
            = "create unique index if not exists " := by decide
        rw [hfront, String.append_assoc, String.append_assoc]
      rw [if_pos rfl, hshape]
      unfold readIndex
      rw [readNamed_apart 8 (by decide), readNamed_form hname (by decide)]
      exact ⟨rfl, readTable_apart 8 (by decide)⟩
  | false =>
      have hshape : "create " ++ "" ++ "index if not exists " ++ name ++ " on " ++ rest
          = "create index if not exists " ++ (name ++ (" on " ++ rest)) := by
        have hfront : "create " ++ "" ++ "index if not exists "
            = "create index if not exists " := by decide
        rw [hfront, String.append_assoc, String.append_assoc]
      rw [if_neg Bool.false_ne_true, hshape]
      unfold readIndex
      rw [readNamed_form hname (by decide)]
      exact ⟨rfl, readTable_apart 8 (by decide)⟩

/-- The line of an index creates it, and no table. -/
theorem lineIndex_indexLine {entity : Entity} {index : Index} {line : Sql}
    (hname : isIdentifier index.name = true) (h : indexLine entity index = .ok line) :
    lineIndex line = some index.name ∧ lineTable line = none := by
  simp only [indexLine, do_eq_ok, pure_eq_ok] at h
  obtain ⟨columns, _, rfl⟩ := h
  have hread := read_index index.unique (blank_of_isIdentifier hname)
    (entity.table ++ (" (" ++ (String.intercalate ", " columns ++ ")")))
  simp only [← String.append_assoc] at hread
  unfold lineTable lineIndex
  simp only [List.cons_append, List.head?_cons, Option.bind_some, hread.1, hread.2]
  exact ⟨rfl, rfl⟩

/-! ## §2. What the file creates. -/

/-- The tables that lines create, in order. -/
def createdTables (lines : List Sql) : List String := lines.filterMap lineTable

/-- The indexes that lines create, in order. -/
def createdIndexes (lines : List Sql) : List String := lines.filterMap lineIndex

theorem filterMap_commentLines {read : Sql → Option String} (entity : Entity)
    (hread : ∀ line, CreatesNothing line → read line = none) :
    (commentLines entity).filterMap read = [] := by
  unfold commentLines
  by_cases hempty : entity.description = ""
  · rw [if_pos hempty]
    rfl
  · rw [if_neg hempty]
    exact List.filterMap_cons_none (hread _ (createsNothing_comment _))

theorem filterMap_blankLines {read : Sql → Option String} (entity : Entity)
    (hread : ∀ line, CreatesNothing line → read line = none) :
    (blankLines entity).filterMap read = [] := by
  unfold blankLines
  by_cases hempty : entity.indexes = []
  · rw [if_pos hempty]
    rfl
  · rw [if_neg hempty]
    exact List.filterMap_cons_none (hread _ createsNothing_blank)

/-- **What the lines of an entity create**: its table and its indexes. -/
theorem created_entityLines {model : Model} {dialect : Dialect} {entity : Entity}
    {lines : List Sql} (hentity : CheckedEntity entity)
    (h : entityLines model dialect entity = .ok lines) :
    createdTables lines = [entity.table] ∧ createdIndexes lines = entity.indexes.map (·.name) := by
  obtain ⟨clauses, indexes, hclauses, hindexes, rfl⟩ := entityLines_eq h
  have hcreate := lineTable_createLine hentity
  have hline : ∀ line ∈ indexes, lineTable line = none := by
    intro line hmem
    obtain ⟨index, hindex, hindexLine⟩ := exists_of_mapM hindexes line hmem
    exact (lineIndex_indexLine (hentity.indexes index hindex).1 hindexLine).2
  have hnames : indexes.flatMap (fun line => (lineIndex line).toList)
      = entity.indexes.flatMap (fun index => [index.name]) := by
    refine flatMap_of_mapM hindexes ?_
    intro index hindex line hindexLine
    rw [(lineIndex_indexLine (hentity.indexes index hindex).1 hindexLine).1]
    rfl
  -- of the lines only the one that opens the table and those of the indexes count
  unfold createdTables createdIndexes
  simp only [List.filterMap_append, filterMap_commentLines entity fun _ h => h.1,
    filterMap_commentLines entity fun _ h => h.2, filterMap_blankLines entity fun _ h => h.1,
    filterMap_blankLines entity fun _ h => h.2, List.filterMap_cons, hcreate.1, hcreate.2,
    (createsNothing_clauses hclauses).1, (createsNothing_clauses hclauses).2,
    createsNothing_close.1, createsNothing_close.2, createsNothing_blank.1,
    createsNothing_blank.2, List.filterMap_nil, List.filterMap_eq_nil_iff.mpr hline,
    List.nil_append, List.append_nil]
  refine ⟨trivial, ?_⟩
  rw [List.filterMap_eq_flatMap_toList, hnames, List.map_eq_flatMap]

section

variable (localeLe : String → String → Bool)

/-- The lines in front of the first entity. -/
def headerLines (model : Model) (dialect : Dialect) : List Sql :=
  [[.text ("-- " ++ generatedHeader)], [.text ("-- Product: " ++ model.product)],
    [.text ("-- Dialect: " ++ dialect.name)], [.text ""]]

theorem sqlLines_eq {model : Model} {dialect : Dialect} {lines : List Sql}
    (h : sqlLines localeLe model dialect = .ok lines) :
    ∃ blocks, (topologicalEntities localeLe model).mapM (entityLines model dialect) = .ok blocks
      ∧ lines = headerLines model dialect ++ blocks.flatten := by
  simp only [sqlLines, do_eq_ok, pure_eq_ok] at h
  obtain ⟨blocks, hblocks, rfl⟩ := h
  exact ⟨blocks, hblocks, rfl⟩

/-- The file has lines iff it is written. -/
theorem exists_sqlLines {model : Model} {dialect : Dialect} :
    (∃ text, generateSql localeLe model dialect = .ok text)
      ↔ ∃ lines, sqlLines localeLe model dialect = .ok lines := by
  unfold generateSql
  simp only [do_eq_ok, pure_eq_ok]
  constructor
  · intro hex
    obtain ⟨text, lines, hlines, _⟩ := hex
    exact ⟨lines, hlines⟩
  · intro hex
    obtain ⟨lines, hlines⟩ := hex
    exact ⟨_, lines, hlines, rfl⟩

theorem createsNothing_header (model : Model) (dialect : Dialect) :
    ∀ line ∈ headerLines model dialect, CreatesNothing line := by
  have hproduct : "-- Product: " = "-- " ++ "Product: " := by decide
  have hdialect : "-- Dialect: " = "-- " ++ "Dialect: " := by decide
  intro line hline
  simp only [headerLines, hproduct, hdialect, String.append_assoc, List.mem_cons,
    List.not_mem_nil, or_false] at hline
  rcases hline with rfl | rfl | rfl | rfl
  · exact createsNothing_comment _
  · exact createsNothing_comment _
  · exact createsNothing_comment _
  · exact createsNothing_blank

/-- What the lines of a list of entities create. -/
theorem created_blocks {model : Model} {dialect : Dialect} {order : List Entity}
    {blocks : List (List Sql)} (hmodel : ∀ e ∈ order, CheckedEntity e)
    (h : order.mapM (entityLines model dialect) = .ok blocks) :
    createdTables blocks.flatten = order.map (·.table)
      ∧ createdIndexes blocks.flatten = order.flatMap fun e => e.indexes.map (·.name) := by
  have htables : blocks.flatMap createdTables = order.flatMap (fun e => [e.table]) :=
    flatMap_of_mapM h fun e he block hblock => (created_entityLines (hmodel e he) hblock).1
  have hindexes : blocks.flatMap createdIndexes
      = order.flatMap (fun e => e.indexes.map (·.name)) :=
    flatMap_of_mapM h fun e he block hblock => (created_entityLines (hmodel e he) hblock).2
  unfold createdTables createdIndexes at *
  rw [List.filterMap_flatten, List.filterMap_flatten, ← List.flatMap_def, ← List.flatMap_def,
    htables, hindexes, List.map_eq_flatMap]
  exact ⟨rfl, rfl⟩

/-- Lines that create nothing. -/
theorem created_eq_nil {lines : List Sql} (h : ∀ line ∈ lines, CreatesNothing line) :
    createdTables lines = [] ∧ createdIndexes lines = [] :=
  ⟨List.filterMap_eq_nil_iff.mpr fun line hline => (h line hline).1,
    List.filterMap_eq_nil_iff.mpr fun line hline => (h line hline).2⟩

theorem createdTables_append (a b : List Sql) :
    createdTables (a ++ b) = createdTables a ++ createdTables b := List.filterMap_append

theorem createdIndexes_append (a b : List Sql) :
    createdIndexes (a ++ b) = createdIndexes a ++ createdIndexes b := List.filterMap_append

/-- **What the file creates**: the tables and the indexes of the entities, in their
order. -/
theorem created_sqlLines {model : Model} {dialect : Dialect} {lines : List Sql}
    (hmodel : ∀ e ∈ topologicalEntities localeLe model, CheckedEntity e)
    (h : sqlLines localeLe model dialect = .ok lines) :
    createdTables lines = (topologicalEntities localeLe model).map (·.table)
      ∧ createdIndexes lines
        = (topologicalEntities localeLe model).flatMap fun e => e.indexes.map (·.name) := by
  obtain ⟨blocks, hblocks, rfl⟩ := sqlLines_eq localeLe h
  have hcreated := created_blocks hmodel hblocks
  have hheader := created_eq_nil (createsNothing_header model dialect)
  rw [createdTables_append, createdIndexes_append, hheader.1, hheader.2]
  exact hcreated

/-- The lines in front of the one that creates the table of an entity. -/
def linesBefore (lines : List Sql) (entity : Entity) : List Sql :=
  lines.takeWhile fun line => lineTable line ≠ some entity.table

/-- **What is created before the table of an entity**: what the entities before it have. -/
theorem created_linesBefore {model : Model} {dialect : Dialect} {lines : List Sql}
    {front back : List Entity} {entity : Entity}
    (horder : topologicalEntities localeLe model = front ++ entity :: back)
    (hmodel : ∀ e ∈ topologicalEntities localeLe model, CheckedEntity e)
    (hdistinct : entity.table ∉ front.map (·.table))
    (h : sqlLines localeLe model dialect = .ok lines) :
    createdTables (linesBefore lines entity) = front.map (·.table)
      ∧ createdIndexes (linesBefore lines entity)
        = front.flatMap fun e => e.indexes.map (·.name) := by
  obtain ⟨blocks, hblocks, rfl⟩ := sqlLines_eq localeLe h
  rw [horder, List.mapM_append, do_eq_ok] at hblocks
  obtain ⟨frontBlocks, hfront, hrest⟩ := hblocks
  rw [List.mapM_cons, do_eq_ok] at hrest
  obtain ⟨backBlocks, hback, hblocks⟩ := hrest
  rw [do_eq_ok] at hback
  obtain ⟨block, hblock, hback⟩ := hback
  rw [do_eq_ok] at hback
  obtain ⟨rest, _, hback⟩ := hback
  rw [pure_eq_ok] at hback hblocks
  subst hback hblocks
  obtain ⟨clauses, indexes, _, _, rfl⟩ := entityLines_eq hblock
  have hfrontCreated := created_blocks
    (fun e he => hmodel e (by rw [horder]; exact List.mem_append_left _ he)) hfront
  have hheader := created_eq_nil (createsNothing_header model dialect)
  have hcomment : createdTables (commentLines entity) = []
      ∧ createdIndexes (commentLines entity) = [] :=
    ⟨filterMap_commentLines entity fun _ hline => hline.1,
      filterMap_commentLines entity fun _ hline => hline.2⟩
  let before := headerLines model dialect ++ frontBlocks.flatten ++ commentLines entity
  have htables : createdTables before = front.map (·.table) := by
    simp only [before, createdTables_append, hheader.1, hcomment.1, hfrontCreated.1,
      List.nil_append, List.append_nil]
  have hindexes : createdIndexes before = front.flatMap fun e => e.indexes.map (·.name) := by
    simp only [before, createdIndexes_append, hheader.2, hcomment.2, hfrontCreated.2,
      List.nil_append, List.append_nil]
  -- no line in front creates the table, and the next line does
  have hentity := hmodel entity (by rw [horder]; simp)
  have hbefore : ∀ line ∈ before, decide (lineTable line ≠ some entity.table) = true := by
    intro line hline
    rw [decide_eq_true_eq]
    intro hcreates
    apply hdistinct
    rw [← htables]
    exact List.mem_filterMap.mpr ⟨line, hline, hcreates⟩
  have hsplit : headerLines model dialect
        ++ (frontBlocks ++ (commentLines entity
          ++ [createLine entity, join ",\n" clauses, [.text ");"], [.text ""]]
          ++ indexes ++ blankLines entity) :: rest).flatten
      = before ++ createLine entity :: ([join ",\n" clauses, [.text ");"], [.text ""]]
          ++ indexes ++ blankLines entity ++ rest.flatten) := by
    simp [before]
  have hlines : linesBefore (headerLines model dialect
        ++ (frontBlocks ++ (commentLines entity
          ++ [createLine entity, join ",\n" clauses, [.text ");"], [.text ""]]
          ++ indexes ++ blankLines entity) :: rest).flatten) entity = before := by
    unfold linesBefore
    rw [hsplit, List.takeWhile_append_of_pos hbefore, List.takeWhile_cons_of_neg, List.append_nil]
    simp [(lineTable_createLine hentity).1]
  rw [hlines]
  exact ⟨htables, hindexes⟩

/-! ## §3. Where foreign keys and constraints stand. -/

/-- A line that names no foreign key and no constraint. -/
def NamesNothing (line : Sql) : Prop :=
  line.filterMap readReference = [] ∧ line.filterMap readConstraint = []

theorem namesNothing_text {lit : String} (n : Nat) {rest : String}
    (h : startsApart " references " lit n = true)
    (h' : startsApart ",\n  constraint " lit n = true) :
    NamesNothing [.text (lit ++ rest)] :=
  ⟨List.filterMap_cons_none (readReference_apart n h),
    List.filterMap_cons_none (readConstraint_apart n h')⟩

theorem NamesNothing.append {a b : Sql} (ha : NamesNothing a) (hb : NamesNothing b) :
    NamesNothing (a ++ b) := by
  unfold NamesNothing
  rw [List.filterMap_append, List.filterMap_append, ha.1, ha.2, hb.1, hb.2]
  exact ⟨rfl, rfl⟩

theorem namesNothing_blank : NamesNothing [.text ""] := ⟨rfl, rfl⟩

theorem namesNothing_literal {lit : String} (n : Nat)
    (h : startsApart " references " lit n = true)
    (h' : startsApart ",\n  constraint " lit n = true) : NamesNothing [.text lit] := by
  have hempty : NamesNothing [.text (lit ++ "")] := namesNothing_text n h h'
  rwa [String.append_empty] at hempty

theorem namesNothing_indexLine {entity : Entity} {index : Index} {line : Sql}
    (h : indexLine entity index = .ok line) : NamesNothing line := by
  simp only [indexLine, do_eq_ok, pure_eq_ok] at h
  obtain ⟨columns, _, rfl⟩ := h
  refine (NamesNothing.append ?_ ?_).append (namesNothing_literal 1 (by decide) (by decide))
  · simp only [String.append_assoc]
    exact namesNothing_text 1 (by decide) (by decide)
  · have hwhere : NamesNothing [.text " where "] :=
      namesNothing_literal 2 (by decide) (by decide)
    split
    next predicate _ =>
      by_cases hempty : predicate = ""
      · rw [if_pos hempty]
        exact ⟨rfl, rfl⟩
      · rw [if_neg hempty]
        exact hwhere.append ⟨rfl, rfl⟩
    next => exact ⟨rfl, rfl⟩

/-- **Every line of an entity but its clauses names nothing.** -/
theorem namesNothing_entityLines {entity : Entity} {indexes : List Sql}
    (hindexes : entity.indexes.mapM (indexLine entity) = .ok indexes) :
    (∀ line ∈ commentLines entity ++ [createLine entity], NamesNothing line)
      ∧ ∀ line ∈ [[Piece.text ");"], [Piece.text ""]] ++ indexes ++ blankLines entity,
          NamesNothing line := by
  constructor
  · intro line hline
    rw [List.mem_append, List.mem_singleton] at hline
    rcases hline with hline | rfl
    · unfold commentLines at hline
      split at hline
      next => cases hline
      next =>
        rw [List.mem_singleton.mp hline]
        exact namesNothing_text 1 (by decide) (by decide)
    · -- `create`, which neither reader starts with
      unfold createLine
      rw [String.append_assoc]
      exact namesNothing_text 1 (by decide) (by decide)
  · intro line hline
    rw [List.mem_append, List.mem_append] at hline
    rcases hline with (hline | hline) | hline
    · simp only [List.mem_cons, List.not_mem_nil, or_false] at hline
      rcases hline with rfl | rfl
      · exact namesNothing_literal 1 (by decide) (by decide)
      · exact namesNothing_blank
    · obtain ⟨index, _, hindexLine⟩ := exists_of_mapM hindexes line hline
      exact namesNothing_indexLine hindexLine
    · unfold blankLines at hline
      split at hline
      next => cases hline
      next =>
        rw [List.mem_singleton.mp hline]
        exact namesNothing_blank

theorem namesNothing_header {model : Model} {dialect : Dialect} :
    ∀ line ∈ headerLines model dialect, NamesNothing line := by
  have hproduct : "-- Product: " = "-- " ++ "Product: " := by decide
  have hdialect : "-- Dialect: " = "-- " ++ "Dialect: " := by decide
  intro line hline
  simp only [headerLines, hproduct, hdialect, String.append_assoc, List.mem_cons,
    List.not_mem_nil, or_false] at hline
  rcases hline with rfl | rfl | rfl | rfl
  · exact namesNothing_text 1 (by decide) (by decide)
  · exact namesNothing_text 1 (by decide) (by decide)
  · exact namesNothing_text 1 (by decide) (by decide)
  · exact namesNothing_blank

/-- **A line names nothing, or it is the clauses of an entity.** -/
theorem line_cases {model : Model} {dialect : Dialect} {lines : List Sql}
    (h : sqlLines localeLe model dialect = .ok lines) :
    ∀ line ∈ lines, NamesNothing line ∨ ∃ entity ∈ topologicalEntities localeLe model,
      ∃ clauses, tableClauses model dialect entity = .ok clauses
        ∧ line = join ",\n" clauses := by
  obtain ⟨blocks, hblocks, rfl⟩ := sqlLines_eq localeLe h
  intro line hline
  rw [List.mem_append, List.mem_flatten] at hline
  rcases hline with hline | ⟨block, hblock, hline⟩
  · exact .inl (namesNothing_header line hline)
  · obtain ⟨entity, hentity, hlines⟩ := exists_of_mapM hblocks block hblock
    obtain ⟨clauses, indexes, hclauses, hindexes, rfl⟩ := entityLines_eq hlines
    have hothers := namesNothing_entityLines hindexes
    simp only [List.mem_append, List.mem_cons, List.not_mem_nil, or_false] at hline hothers
    rcases hline with ((hline | hline | hline | hline | hline) | hline) | hline
    · exact .inl (hothers.1 line (.inl hline))
    · exact .inl (hothers.1 line (.inr hline))
    · exact .inr ⟨entity, hentity, clauses, hclauses, hline⟩
    · exact .inl (hothers.2 line (.inl (.inl (.inl hline))))
    · exact .inl (hothers.2 line (.inl (.inl (.inr hline))))
    · exact .inl (hothers.2 line (.inl (.inr hline)))
    · exact .inl (hothers.2 line (.inr hline))

/-- Every entity has its clauses in the file. -/
theorem clauses_mem {model : Model} {dialect : Dialect} {lines : List Sql}
    (h : sqlLines localeLe model dialect = .ok lines) :
    ∀ entity ∈ topologicalEntities localeLe model,
      ∃ clauses, tableClauses model dialect entity = .ok clauses ∧ join ",\n" clauses ∈ lines := by
  obtain ⟨blocks, hblocks, rfl⟩ := sqlLines_eq localeLe h
  intro entity hentity
  obtain ⟨block, hblock, hlines⟩ := exists_mapM hblocks entity hentity
  obtain ⟨clauses, indexes, hclauses, _, rfl⟩ := entityLines_eq hlines
  refine ⟨clauses, hclauses, List.mem_append_right _ (List.mem_flatten_of_mem hblock ?_)⟩
  simp

/-- **The constraints of a line** are none, or those of an entity. -/
theorem constraints_line {model : Model} {dialect : Dialect} {lines : List Sql}
    (hmodel : ∀ e ∈ topologicalEntities localeLe model, CheckedEntity e)
    (h : sqlLines localeLe model dialect = .ok lines) :
    ∀ line ∈ lines, line.filterMap readConstraint = []
      ∨ ∃ entity ∈ topologicalEntities localeLe model,
          line.filterMap readConstraint = emittedConstraints entity := by
  intro line hline
  rcases line_cases localeLe h line hline with hnothing | ⟨entity, hentity, clauses, hclauses, rfl⟩
  · exact .inl hnothing.2
  · exact .inr ⟨entity, hentity, constraints_clauses (hmodel entity hentity) hclauses⟩

/-- Every entity has a line with its constraints. -/
theorem exists_constraints_line {model : Model} {dialect : Dialect} {lines : List Sql}
    (hmodel : ∀ e ∈ topologicalEntities localeLe model, CheckedEntity e)
    (h : sqlLines localeLe model dialect = .ok lines) :
    ∀ entity ∈ topologicalEntities localeLe model, ∃ line ∈ lines,
      line.filterMap readConstraint = emittedConstraints entity := by
  intro entity hentity
  obtain ⟨clauses, hclauses, hline⟩ := clauses_mem localeLe h entity hentity
  exact ⟨_, hline, constraints_clauses (hmodel entity hentity) hclauses⟩

end

end ClipTown.SchemaOrm
