/-
  ClipTown.SchemaOrm.KeyDiscipline — which rows the two databases refuse for a
  NULL (`isNullable` of `tools/schema-orm/core.mjs`, `sqlColumn` and
  `generateSql` of `sql.mjs`).

  The emitter writes the same clauses for both dialects, and says `not null` of a
  field that is not nullable, key or no key.  PostgreSQL refuses a NULL in every
  column of a primary key and in the columns of some types; SQLite refuses one
  only where the column says so, and not even there in a column that stands for
  the row number: it puts a number in its place.

    • `readDecl_clauses` — the columns and the key of a table, read back off its
      clauses,
    • `keyDiscipline_iff` — both databases refuse the same rows, and keep no NULL
      in a key, iff no field of a key is nullable or the row number, and no type
      refuses a NULL of its own in a nullable column.
-/
import ClipTown.SchemaOrm.EnumChecks

namespace ClipTown.SchemaOrm

open Checks

/-! ## §1. The declarations of a table, read back. -/

structure ColumnDecl where
  name : String
  type : String
  notNull : Bool

structure TableDecl where
  columns : List ColumnDecl
  primaryKey : List String

/-- The column a clause declares. -/
def readColumn (clause : Sql) : Option ColumnDecl :=
  (clause.head?.bind (readNamed "  " " ")).map fun read =>
    { name := read.1, type := read.2, notNull := decide clause.SaysNotNull }

/-- The names of a list `a, b)`, up to its parenthesis. -/
def listedNames (text : String) : List String :=
  (text.toList.dropLast.splitOn ',').map fun name => String.ofList (name.dropWhile (· = ' '))

/-- The columns of a `primary key (a, b)`. -/
def readPrimaryKey (clause : Sql) : Option (List String) :=
  (clause.head?.bind (readNamed "  primary" " key (")).map fun read => listedNames read.2

/-- The columns of a table, up to its primary key. -/
def readDecl : List Sql → Option TableDecl
  | [] => none
  | clause :: rest =>
      match readPrimaryKey clause with
      | some primaryKey => some { columns := [], primaryKey }
      | none => do
          let column ← readColumn clause
          let decl ← readDecl rest
          return { decl with columns := column :: decl.columns }

/-- The declarations are those of the entity, column by column. -/
structure Declares (dialect : Dialect) (entity : Entity) (decl : TableDecl) : Prop where
  columns : List.Forall₂ (fun field column => column.name = field.column
    ∧ columnType dialect field = .ok column.type
    ∧ (column.notNull = true ↔ field.nullable = false)) entity.fields decl.columns
  primaryKey : List.Forall₂ (fun key name => ∃ field, entity.field key = some field
    ∧ field.column = name) entity.primaryKey decl.primaryKey

/-- The names of a list that is written with commas. -/
theorem listedNames_joined {first : List Char} {names : List (List Char)}
    (hfirst : ',' ∉ first) (hnames : ∀ name ∈ names, ',' ∉ name) :
    (first ++ names.flatMap fun name => ',' :: ' ' :: name).splitOn ','
      = first :: names.map (' ' :: ·) := by
  induction names generalizing first with
  | nil =>
      show (first ++ []).splitOn ',' = [first]
      rw [List.append_nil, List.splitOn_eq_singleton hfirst]
  | cons name names ih =>
      have hname : ',' ∉ ' ' :: name := by
        rw [List.mem_cons, not_or]
        exact ⟨by decide, hnames name List.mem_cons_self⟩
      have hrest := ih hname fun n hn => hnames n (List.mem_cons_of_mem _ hn)
      rw [List.flatMap_cons, List.cons_append, List.splitOn_append_cons_self_of_not_mem hfirst,
        hrest, List.map_cons]

/-- Joining with `, ` is writing the first name and then the others with the comma. -/
theorem intercalate_comma (first : List Char) (names : List (List Char)) :
    [',', ' '].intercalate (first :: names) = first ++ names.flatMap (',' :: ' ' :: ·) := by
  induction names generalizing first with
  | nil => simp
  | cons name names ih =>
      rw [List.intercalate_cons_cons, ih, List.flatMap_cons, List.append_assoc]
      rfl

theorem listedNames_eq {names : List String} (hne : names ≠ [])
    (hnames : ∀ name ∈ names, isIdentifier name = true) :
    listedNames (String.intercalate ", " names ++ ")") = names := by
  have hchars : ∀ name ∈ names, ∀ c ∈ name.toList, c ≠ ',' ∧ c ≠ ' ' := by
    intro name hname c hc
    have hplain := (name_of_isIdentifier (hnames name hname)).2 c hc
    constructor
    · rintro rfl
      exact absurd hplain (by decide)
    · rintro rfl
      exact absurd hplain (by decide)
  have hcomma : ∀ name ∈ names, ',' ∉ name.toList :=
    fun name hname hmem => (hchars name hname ',' hmem).1 rfl
  have hblank : ∀ name ∈ names, name.toList.dropWhile (· = ' ') = name.toList := by
    intro name hname
    cases hlist : name.toList with
    | nil => rfl
    | cons c rest =>
        have hmem : c ∈ name.toList := hlist ▸ List.mem_cons_self
        have hne : c ≠ ' ' := (hchars name hname c hmem).2
        exact List.dropWhile_cons_of_neg (by rwa [decide_eq_true_eq])
  obtain ⟨first, rest, rfl⟩ := List.exists_cons_of_ne_nil hne
  have hsep : ", ".toList = [',', ' '] := by decide
  have hclose : ")".toList = [')'] := by decide
  have hsplit : ((String.intercalate ", " (first :: rest) ++ ")").toList.dropLast).splitOn ','
      = first.toList :: (rest.map String.toList).map (' ' :: ·) := by
    rw [String.toList_append, hclose, List.dropLast_concat, String.toList_intercalate, hsep,
      List.map_cons, intercalate_comma]
    refine listedNames_joined (hcomma first List.mem_cons_self) ?_
    intro name hname
    obtain ⟨s, hs, rfl⟩ := List.mem_map.mp hname
    exact hcomma s (List.mem_cons_of_mem _ hs)
  unfold listedNames
  rw [hsplit, List.map_cons, hblank first List.mem_cons_self, String.ofList_toList]
  refine congrArg (first :: ·) ?_
  rw [List.map_map, List.map_map]
  refine (List.map_congr_left ?_).trans (List.map_id rest)
  intro name hname
  -- each name but the first has the blank of the separator in front of it
  show String.ofList ((' ' :: name.toList).dropWhile (· = ' ')) = name
  rw [List.dropWhile_cons_of_pos (by decide), hblank name (List.mem_cons_of_mem _ hname),
    String.ofList_toList]

/-- A name that is read has no blank. -/
theorem blank_of_readNamed {front back s : String} {read : String × String}
    (h : readNamed front back (.text s) = some read) : ' ' ∉ read.1.toList := by
  simp only [readNamed, Option.bind_eq_bind, Option.bind_eq_some_iff, Option.pure_def,
    Option.some.injEq] at h
  obtain ⟨rest, _, tail, _, rfl⟩ := h
  rw [String.toList_ofList]
  intro hmem
  exact absurd (List.all_eq_true.mp List.all_takeWhile _ hmem) (by decide)

/-- **A column reads back**: its name, its type, and whether it may be NULL. -/
theorem readColumn_sqlColumn {model : Model} {dialect : Dialect} {field : Field} {sql : Sql}
    (hf : CheckedField field) (h : sqlColumn model dialect field = .ok sql)
    (hunmarked : sql.Unmarked) :
    readPrimaryKey sql = none ∧ ∃ type, columnType dialect field = .ok type
      ∧ readColumn sql
        = some { name := field.column, type, notNull := decide (field.nullable = false) } := by
  have hnotNull := saysNotNull_iff h hunmarked
  obtain ⟨type, parts, htype, _, hsql⟩ := sqlColumn_eq h
  have hhead : sql.head? = some (.text ("  " ++ (field.column ++ (" " ++ type)))) := by
    rw [hsql, List.head?_cons, String.append_assoc, String.append_assoc]
  have hblank := blank_of_isIdentifier hf.column
  refine ⟨?_, type, htype, ?_⟩
  · unfold readPrimaryKey
    rw [hhead, Option.bind_some, Option.map_eq_none_iff, Option.eq_none_iff_forall_ne_some]
    intro read hread
    -- a column that reads as a key has a type with a parenthesis after a blank
    have hs := eq_of_readNamed hread
    have hfront : "  primary".toList = "  ".toList ++ "primary".toList := by decide
    have hback : " key (".toList = ' ' :: ("key".toList ++ [' ', '(']) := by decide
    have hone : " ".toList = [' '] := by decide
    rw [hfront, hback, String.toList_append, String.toList_append, String.toList_append, hone,
      List.append_assoc, List.append_cancel_left_eq] at hs
    have hname : ' ' ∉ "primary".toList ++ read.1.toList := by
      rw [List.mem_append, not_or]
      exact ⟨by decide, blank_of_readNamed hread⟩
    have hs' : field.column.toList ++ ' ' :: type.toList
        = ("primary".toList ++ read.1.toList)
          ++ ' ' :: ("key".toList ++ [' ', '('] ++ read.2.toList) := by
      simpa using hs
    obtain ⟨_, htail⟩ := Separators.eq_of_append_cons_eq hblank hname hs'
    exact columnType_parenthesis hf htype ⟨"key".toList, read.2.toList, htail.symm⟩
  · unfold readColumn
    rw [hhead, Option.bind_some, readNamed_form hblank (by decide)]
    simp only [Option.map_some, hnotNull]

/-- The columns in front of the primary key read back. -/
theorem readDecl_append {columns : List Sql} {decls : List ColumnDecl} {clause : Sql}
    {rest : List Sql} {primaryKey : List String}
    (hcolumns : List.Forall₂ (fun sql decl => readPrimaryKey sql = none
      ∧ readColumn sql = some decl) columns decls)
    (hkey : readPrimaryKey clause = some primaryKey) :
    readDecl (columns ++ clause :: rest) = some { columns := decls, primaryKey } := by
  induction hcolumns with
  | nil => simp [readDecl, hkey]
  | cons hread _ ih => simp [readDecl, hread.1, hread.2, ih]

/-- The columns of checked fields read back. -/
theorem exists_columns {model : Model} {dialect : Dialect} {fields : List Field}
    {columns : List Sql} (hchecked : ∀ f ∈ fields, CheckedField f)
    (hunmarked : ∀ f ∈ fields, ∀ sql, sqlColumn model dialect f = .ok sql → sql.Unmarked)
    (h : fields.mapM (sqlColumn model dialect) = .ok columns) :
    ∃ decls, List.Forall₂ (fun sql decl => readPrimaryKey sql = none
        ∧ readColumn sql = some decl) columns decls
      ∧ List.Forall₂ (fun field column => column.name = field.column
        ∧ columnType dialect field = .ok column.type
        ∧ (column.notNull = true ↔ field.nullable = false)) fields decls := by
  rw [mapM_eq_ok] at h
  induction h with
  | nil => exact ⟨[], .nil, .nil⟩
  | cons hsql _ ih =>
      obtain ⟨decls, hdecls, hfields⟩ := ih (fun f hf => hchecked f (List.mem_cons_of_mem _ hf))
        fun f hf => hunmarked f (List.mem_cons_of_mem _ hf)
      obtain ⟨hkey, type, htype, hcolumn⟩ := readColumn_sqlColumn (hchecked _ List.mem_cons_self)
        hsql (hunmarked _ List.mem_cons_self _ hsql)
      exact ⟨_ :: decls, .cons ⟨hkey, hcolumn⟩ hdecls,
        .cons ⟨rfl, htype, decide_eq_true_iff⟩ hfields⟩

/-- The line of the key reads back as its columns. -/
theorem readPrimaryKey_line {names : List String} (hnonempty : names ≠ [])
    (hplain : ∀ name ∈ names, isIdentifier name = true) : readPrimaryKey
      [.text ("  primary key (" ++ String.intercalate ", " names ++ ")")] = some names := by
  have hform : "  primary key (" ++ String.intercalate ", " names ++ ")"
      = "  primary" ++ ("" ++ (" key (" ++ (String.intercalate ", " names ++ ")"))) := by
    have hfront : "  primary key (" = "  primary" ++ ("" ++ " key (") := by decide
    rw [hfront]
    simp only [String.append_assoc]
  unfold readPrimaryKey
  rw [List.head?_cons, Option.bind_some, hform, readNamed_form (by decide) (by decide),
    Option.map_some, listedNames_eq hnonempty hplain]

/-- **The declarations of a table read back** off its clauses. -/
theorem readDecl_clauses {model : Model} {dialect : Dialect} {entity : Entity}
    {clauses : List Sql} (hentity : CheckedEntity entity) (hin : entity ∈ model.entities)
    (hconfined : model.Confined dialect) (hne : entity.primaryKey ≠ [])
    (h : tableClauses model dialect entity = .ok clauses) :
    ∃ decl, readDecl clauses = some decl ∧ Declares dialect entity decl := by
  simp only [tableClauses, do_eq_ok, pure_eq_ok] at h
  obtain ⟨columns, hcolumns, names, hnames, rfl⟩ := h
  -- the columns of the key line are those of the key's fields, one by one
  have hkey : List.Forall₂ (fun key name => ∃ field, entity.field key = some field
      ∧ field.column = name) entity.primaryKey names := by
    refine (mapM_eq_ok.mp hnames).imp ?_
    intro key name hname
    cases hfield : entity.field key with
    | none =>
        rw [hfield] at hname
        cases hname
    | some field =>
        rw [hfield] at hname
        exact ⟨field, rfl, Except.ok.inj hname⟩
  have hplain : ∀ name ∈ names, isIdentifier name = true := by
    intro name hname
    obtain ⟨key, _, field, hfield, rfl⟩ := (exists_of_forall₂ hkey).2 name hname
    exact (hentity.fields field (List.mem_of_find?_eq_some hfield)).column
  have hnonempty : names ≠ [] := by
    rintro rfl
    rw [List.forall₂_nil_right_iff] at hkey
    exact hne hkey
  obtain ⟨decls, hdecls, hfields⟩ := exists_columns hentity.fields
    (fun f hf _ hsql => hconfined.sqlColumn hin hf (hentity.fields f hf) hsql) hcolumns
  refine ⟨{ columns := decls, primaryKey := names }, ?_, hfields, hkey⟩
  rw [List.append_assoc, List.append_assoc]
  exact readDecl_append hdecls (readPrimaryKey_line hnonempty hplain)

/-- An accepted entity has a primary key. -/
theorem primaryKey_ne_nil {schema : Schema} {model : Model}
    (h : normalizeSchema schema = .ok model) : ∀ e ∈ model.entities, e.primaryKey ≠ [] := by
  simp only [normalizeSchema, do_eq_ok, pure_eq_ok, exists_unit] at h
  obtain ⟨_, defs, _, root, _, _, _, entities, hentities, _, _, _, _, rfl⟩ := h
  intro e he
  obtain ⟨entry, _, hentry⟩ := exists_of_mapM hentities e he
  simp only [normalizeEntity, do_eq_ok, pure_eq_ok, exists_unit, failIf_eq_ok] at hentry
  obtain ⟨_, _, _, hkey, _, _, _, _, _, _, _, _, _, _, _, rfl⟩ := hentry
  exact hkey

/-! ## §2. What the two databases refuse. -/

/-- A row: the text of the value of each column, or NULL. -/
abbrev Row := String → Option String

section

variable (implicitNotNull : String → Bool)

/-- PostgreSQL: a column of the primary key is not null, and so is one of a type that is
(`serial`, or a domain that is declared so). -/
def TableDecl.PostgresRefuses (decl : TableDecl) (column : ColumnDecl) : Prop :=
  column.notNull = true ∨ column.name ∈ decl.primaryKey ∨ implicitNotNull column.type = true

/-- SQLite: a lone key column of the type `integer`, in any case, stands for the row number. -/
def TableDecl.IsRowid (decl : TableDecl) (column : ColumnDecl) : Prop :=
  decl.primaryKey = [column.name] ∧ column.type.toLower = "integer"

/-- SQLite: the column says so, and does not stand for the row number. -/
def TableDecl.SqliteRefuses (decl : TableDecl) (column : ColumnDecl) : Prop :=
  column.notNull = true ∧ ¬ decl.IsRowid column

/-- A row is rejected for a NULL in a column that refuses it. -/
def TableDecl.Rejects (decl : TableDecl) (refuses : ColumnDecl → Prop) (row : Row) : Prop :=
  ∃ column ∈ decl.columns, refuses column ∧ row column.name = none

instance (decl : TableDecl) : DecidablePred (decl.PostgresRefuses implicitNotNull) :=
  fun column => by unfold TableDecl.PostgresRefuses; infer_instance

instance (decl : TableDecl) : DecidablePred decl.IsRowid :=
  fun column => by unfold TableDecl.IsRowid; infer_instance

instance (decl : TableDecl) : DecidablePred decl.SqliteRefuses :=
  fun column => by unfold TableDecl.SqliteRefuses; infer_instance

instance (decl : TableDecl) (refuses : ColumnDecl → Prop) [DecidablePred refuses] (row : Row) :
    Decidable (decl.Rejects refuses row) := by
  unfold TableDecl.Rejects; infer_instance

/-- The row that SQLite keeps: the next row number where the column that stands for it
is NULL. -/
def TableDecl.sqliteStored (decl : TableDecl) (rowid : String) (row : Row) : Row :=
  fun name =>
    if ∃ column ∈ decl.columns, column.name = name ∧ decl.IsRowid column then
      some ((row name).getD rowid)
    else row name

/-- One key discipline: the two tables reject the same rows for a NULL, and no row that
either accepts has a NULL in a column of its key. -/
structure SameKeys (postgres sqlite : TableDecl) : Prop where
  rejects : ∀ row, postgres.Rejects (postgres.PostgresRefuses implicitNotNull) row
    ↔ sqlite.Rejects sqlite.SqliteRefuses row
  postgresKey : ∀ row, ¬ postgres.Rejects (postgres.PostgresRefuses implicitNotNull) row →
    ∀ name ∈ postgres.primaryKey, row name ≠ none
  sqliteKey : ∀ row rowid, ¬ sqlite.Rejects sqlite.SqliteRefuses row →
    ∀ name ∈ sqlite.primaryKey, sqlite.sqliteStored rowid row name ≠ none

/-- The declarations of an entity in the file. -/
def TableOf (model : Model) (dialect : Dialect) (lines : List Sql) (entity : Entity)
    (decl : TableDecl) : Prop :=
  ∃ clauses, tableClauses model dialect entity = .ok clauses ∧ join ",\n" clauses ∈ lines
    ∧ readDecl clauses = some decl

/-- An entity has one declaration in a file. -/
theorem TableOf.unique {model : Model} {dialect : Dialect} {lines : List Sql} {entity : Entity}
    {decl decl' : TableDecl} (h : TableOf model dialect lines entity decl)
    (h' : TableOf model dialect lines entity decl') : decl = decl' := by
  obtain ⟨clauses, hclauses, _, hread⟩ := h
  obtain ⟨clauses', hclauses', _, hread'⟩ := h'
  obtain rfl := Except.ok.inj (hclauses.symm.trans hclauses')
  exact Option.some.inj (hread.symm.trans hread')

/-- The two files have one key discipline, table by table. -/
def KeyDiscipline (model : Model) (postgres sqlite : List Sql) : Prop :=
  ∀ entity ∈ model.entities, ∃ decl decl',
    TableOf model .postgres postgres entity decl ∧ TableOf model .sqlite sqlite entity decl'
      ∧ SameKeys implicitNotNull decl decl'

/-! ## §3. What the fields say. -/

/-- The field is of the primary key. -/
def IsKeyField (entity : Entity) (field : Field) : Prop :=
  ∃ key ∈ entity.primaryKey, entity.field key = some field

/-- The field is the row number of SQLite. -/
def IsRowidField (entity : Entity) (field : Field) : Prop :=
  (∃ key, entity.primaryKey = [key] ∧ entity.field key = some field)
    ∧ (sqliteType field).toLower = "integer"

def PostgresStrict (entity : Entity) (field : Field) : Prop :=
  field.nullable = false ∨ IsKeyField entity field
    ∨ ∃ type, postgresType field = .ok type ∧ implicitNotNull type = true

def SqliteStrict (entity : Entity) (field : Field) : Prop :=
  field.nullable = false ∧ ¬ IsRowidField entity field

/-- The fields of a key are not nullable and none is the row number of SQLite; and a
nullable field has no type that refuses a NULL. -/
def KeysStrict (model : Model) : Prop :=
  ∀ e ∈ model.entities, ∀ f ∈ e.fields,
    (IsKeyField e f → f.nullable = false ∧ ¬ IsRowidField e f)
      ∧ (f.nullable = true → ∀ type, postgresType f = .ok type → implicitNotNull type = false)

/-! ## §4. When the discipline is one. -/

theorem keysStrict_iff {model : Model} :
    KeysStrict implicitNotNull model ↔ ∀ e ∈ model.entities, ∀ f ∈ e.fields,
      (PostgresStrict implicitNotNull e f ↔ SqliteStrict e f) := by
  have hfield : ∀ (e : Entity) (f : Field),
      ((IsKeyField e f → f.nullable = false ∧ ¬ IsRowidField e f)
          ∧ (f.nullable = true → ∀ type, postgresType f = .ok type → implicitNotNull type = false))
        ↔ (PostgresStrict implicitNotNull e f ↔ SqliteStrict e f) := by
    intro e f
    have hrowid : IsRowidField e f → IsKeyField e f := by
      intro h
      obtain ⟨⟨key, hkey, hfield⟩, _⟩ := h
      exact ⟨key, hkey ▸ List.mem_singleton_self key, hfield⟩
    have himplicit : (∀ type, postgresType f = .ok type → implicitNotNull type = false)
        ↔ ¬ ∃ type, postgresType f = .ok type ∧ implicitNotNull type = true := by
      simp
    rw [himplicit]
    unfold PostgresStrict SqliteStrict
    -- a field that is not nullable is strict on both but for the row number, another one on
    -- PostgreSQL alone, by its key or its type
    cases f.nullable with
    | false =>
        simp only [true_or, true_and, true_iff, Bool.false_eq_true, false_imp_iff, and_true]
        exact ⟨fun h hr => h (hrowid hr) hr, fun h _ => h⟩
    | true =>
        simp only [Bool.true_eq_false, false_and, false_or, iff_false, not_or, true_imp_iff,
          imp_false]
  unfold KeysStrict
  simp only [hfield]

/-- A column of the key is the column of a field of the key. -/
theorem mem_primaryKey {dialect : Dialect} {entity : Entity} {decl : TableDecl}
    (hdecl : Declares dialect entity decl) {name : String} :
    name ∈ decl.primaryKey ↔ ∃ field, IsKeyField entity field ∧ field.column = name := by
  have hkeys := exists_of_forall₂ hdecl.primaryKey
  constructor
  · intro hname
    obtain ⟨key, hkey, field, hfield, hcolumn⟩ := hkeys.2 name hname
    exact ⟨field, ⟨key, hkey, hfield⟩, hcolumn⟩
  · intro hex
    obtain ⟨field, ⟨key, hkey, hfield⟩, rfl⟩ := hex
    obtain ⟨name, hname, field', hfield', rfl⟩ := hkeys.1 key hkey
    obtain rfl := Option.some.inj (hfield.symm.trans hfield')
    exact hname

section

variable {dialect : Dialect} {entity : Entity} {decl : TableDecl}
  (hresolved : ResolvedEntity entity) (hdecl : Declares dialect entity decl)
include hresolved hdecl

theorem column_mem_primaryKey {field : Field} (hfield : field ∈ entity.fields) :
    field.column ∈ decl.primaryKey ↔ IsKeyField entity field := by
  rw [mem_primaryKey hdecl]
  constructor
  · intro hex
    obtain ⟨field', ⟨key, hkey, hfind⟩, hcolumn⟩ := hex
    have hmem := List.mem_of_find?_eq_some hfind
    obtain rfl := List.inj_on_of_nodup_map hresolved.columns hmem hfield hcolumn
    exact ⟨key, hkey, hfind⟩
  · intro hkey
    exact ⟨field, hkey, rfl⟩

/-- The key is one column iff it is one field. -/
theorem primaryKey_eq_singleton {field : Field} (hfield : field ∈ entity.fields) :
    decl.primaryKey = [field.column]
      ↔ ∃ key, entity.primaryKey = [key] ∧ entity.field key = some field := by
  constructor
  · intro hone
    have hkeys := hdecl.primaryKey
    rw [hone, List.forall₂_cons_right_iff] at hkeys
    obtain ⟨key, rest, ⟨field', hfind, hcolumn⟩, hrest, hkey⟩ := hkeys
    rw [List.forall₂_nil_right_iff] at hrest
    have hmem := List.mem_of_find?_eq_some hfind
    obtain rfl := List.inj_on_of_nodup_map hresolved.columns hmem hfield hcolumn
    exact ⟨key, hrest ▸ hkey, hfind⟩
  · intro hex
    obtain ⟨key, hkey, hfind⟩ := hex
    have hkeys := hdecl.primaryKey
    rw [hkey, List.forall₂_cons_left_iff] at hkeys
    obtain ⟨name, rest, ⟨field', hfind', hcolumn⟩, hrest, hnames⟩ := hkeys
    rw [List.forall₂_nil_left_iff] at hrest
    obtain rfl := Option.some.inj (hfind.symm.trans hfind')
    rw [hnames, hrest, hcolumn]

end

/-- A table rejects a row for the NULL of a strict field. -/
theorem rejects_iff {dialect : Dialect} {entity : Entity} {decl : TableDecl}
    (hdecl : Declares dialect entity decl) {refuses : ColumnDecl → Prop} {strict : Field → Prop}
    (hrefuses : ∀ f ∈ entity.fields, ∀ column, column.name = f.column →
      columnType dialect f = .ok column.type → (column.notNull = true ↔ f.nullable = false) →
      (refuses column ↔ strict f)) {row : Row} :
    decl.Rejects refuses row ↔ ∃ f ∈ entity.fields, strict f ∧ row f.column = none := by
  have hcolumns := exists_of_forall₂ hdecl.columns
  unfold TableDecl.Rejects
  constructor
  · intro hex
    obtain ⟨column, hcolumn, hrefused, hnull⟩ := hex
    obtain ⟨f, hf, hname, htype, hnotNull⟩ := hcolumns.2 column hcolumn
    exact ⟨f, hf, (hrefuses f hf column hname htype hnotNull).mp hrefused, hname ▸ hnull⟩
  · intro hex
    obtain ⟨f, hf, hstrict, hnull⟩ := hex
    obtain ⟨column, hcolumn, hname, htype, hnotNull⟩ := hcolumns.1 f hf
    exact ⟨column, hcolumn, (hrefuses f hf column hname htype hnotNull).mpr hstrict,
      hname ▸ hnull⟩

theorem postgres_rejects_iff {entity : Entity} {decl : TableDecl}
    (hresolved : ResolvedEntity entity) (hdecl : Declares .postgres entity decl) {row : Row} :
    decl.Rejects (decl.PostgresRefuses implicitNotNull) row
      ↔ ∃ f ∈ entity.fields, PostgresStrict implicitNotNull entity f ∧ row f.column = none := by
  refine rejects_iff hdecl ?_
  intro f hf column hname htype hnotNull
  have hpostgres : postgresType f = .ok column.type := htype
  unfold TableDecl.PostgresRefuses PostgresStrict
  rw [hnotNull, hname, column_mem_primaryKey hresolved hdecl hf, hpostgres]
  simp only [Except.ok.injEq, exists_eq_left']

theorem sqlite_rejects_iff {entity : Entity} {decl : TableDecl}
    (hresolved : ResolvedEntity entity) (hdecl : Declares .sqlite entity decl) {row : Row} :
    decl.Rejects decl.SqliteRefuses row
      ↔ ∃ f ∈ entity.fields, SqliteStrict entity f ∧ row f.column = none := by
  refine rejects_iff hdecl ?_
  intro f hf column hname htype hnotNull
  have hsqlite : sqliteType f = column.type := Except.ok.inj htype
  unfold TableDecl.SqliteRefuses TableDecl.IsRowid SqliteStrict IsRowidField
  rw [hnotNull, hname, primaryKey_eq_singleton hresolved hdecl hf, hsqlite]

/-- The two tables of an entity have one discipline iff they agree on every field. -/
theorem sameKeys_iff {entity : Entity} {decl decl' : TableDecl}
    (hresolved : ResolvedEntity entity) (hdecl : Declares .postgres entity decl)
    (hdecl' : Declares .sqlite entity decl') :
    SameKeys implicitNotNull decl decl'
      ↔ ∀ f ∈ entity.fields, (PostgresStrict implicitNotNull entity f ↔ SqliteStrict entity f) := by
  have hpostgres : ∀ row : Row, decl.Rejects (decl.PostgresRefuses implicitNotNull) row
      ↔ ∃ f ∈ entity.fields, PostgresStrict implicitNotNull entity f ∧ row f.column = none :=
    fun _ => postgres_rejects_iff implicitNotNull hresolved hdecl
  have hsqlite : ∀ row : Row, decl'.Rejects decl'.SqliteRefuses row
      ↔ ∃ f ∈ entity.fields, SqliteStrict entity f ∧ row f.column = none :=
    fun _ => sqlite_rejects_iff hresolved hdecl'
  constructor
  · intro hsame f hf
    -- a row with a single NULL, in the column of the field
    let row : Row := fun name => if name = f.column then none else some ""
    have hnull : ∀ strict : Field → Prop,
        (∃ g ∈ entity.fields, strict g ∧ row g.column = none) ↔ strict f := by
      intro strict
      constructor
      · intro hex
        obtain ⟨g, hg, hstrict, hrow⟩ := hex
        by_cases hcolumn : g.column = f.column
        · obtain rfl := List.inj_on_of_nodup_map hresolved.columns hg hf hcolumn
          exact hstrict
        · simp only [row, if_neg hcolumn] at hrow
          cases hrow
      · intro hstrict
        exact ⟨f, hf, hstrict, if_pos rfl⟩
    rw [← hnull (PostgresStrict implicitNotNull entity), ← hnull (SqliteStrict entity),
      ← hpostgres row, ← hsqlite row]
    exact hsame.rejects row
  · intro hagree
    have hkey : ∀ row : Row, ¬ decl.Rejects (decl.PostgresRefuses implicitNotNull) row →
        ∀ f, IsKeyField entity f → row f.column ≠ none := by
      intro row haccepted f hf hnull
      obtain ⟨key, hmem, hfind⟩ := hf
      exact haccepted ((hpostgres row).mpr
        ⟨f, List.mem_of_find?_eq_some hfind, .inr (.inl ⟨key, hmem, hfind⟩), hnull⟩)
    have hrejects : ∀ row : Row, decl.Rejects (decl.PostgresRefuses implicitNotNull) row
        ↔ decl'.Rejects decl'.SqliteRefuses row := by
      intro row
      rw [hpostgres, hsqlite]
      constructor
      · intro hex
        obtain ⟨f, hf, hstrict, hnull⟩ := hex
        exact ⟨f, hf, (hagree f hf).mp hstrict, hnull⟩
      · intro hex
        obtain ⟨f, hf, hstrict, hnull⟩ := hex
        exact ⟨f, hf, (hagree f hf).mpr hstrict, hnull⟩
    refine ⟨hrejects, ?_, ?_⟩
    · intro row haccepted name hname
      obtain ⟨f, hf, rfl⟩ := (mem_primaryKey hdecl).mp hname
      exact hkey row haccepted f hf
    · intro row rowid haccepted name hname
      obtain ⟨f, hf, rfl⟩ := (mem_primaryKey hdecl').mp hname
      have hvalue := hkey row (fun h => haccepted ((hrejects row).mp h)) f hf
      unfold TableDecl.sqliteStored
      split_ifs
      · exact Option.some_ne_none _
      · exact hvalue

section

variable (localeLe : String → String → Bool) {schema : Schema} {model : Model}
  (h : normalizeSchema schema = .ok model)
include h

/-- The clauses of an entity are a line of the file. -/
theorem tableOf_of_read {dialect : Dialect} {lines : List Sql}
    (hlines : sqlLines localeLe model dialect = .ok lines) {entity : Entity}
    (hentity : entity ∈ model.entities) {clauses : List Sql} {decl : TableDecl}
    (hclauses : tableClauses model dialect entity = .ok clauses)
    (hread : readDecl clauses = some decl) : TableOf model dialect lines entity decl := by
  have hin := (topologicalEntities_checked localeLe h).1
  obtain ⟨clauses', hclauses', hline⟩ :=
    clauses_mem localeLe hlines entity ((hin entity).mpr hentity)
  obtain rfl := Except.ok.inj (hclauses.symm.trans hclauses')
  exact ⟨clauses, hclauses, hline, hread⟩

/-- Every entity has its declarations in the file. -/
theorem exists_tableOf {dialect : Dialect} (hconfined : model.Confined dialect)
    {lines : List Sql} (hlines : sqlLines localeLe model dialect = .ok lines) {entity : Entity}
    (hentity : entity ∈ model.entities) :
    ∃ decl, TableOf model dialect lines entity decl ∧ Declares dialect entity decl := by
  have hchecked := (normalizeSchema_entities h).2.2 entity hentity
  have hin := (topologicalEntities_checked localeLe h).1
  obtain ⟨clauses, hclauses, _⟩ := clauses_mem localeLe hlines entity ((hin entity).mpr hentity)
  obtain ⟨decl, hread, hdecl⟩ :=
    readDecl_clauses hchecked hentity hconfined (primaryKey_ne_nil h entity hentity) hclauses
  exact ⟨decl, tableOf_of_read localeLe h hlines hentity hclauses hread, hdecl⟩

/-- **When both databases have one key discipline.**  The emitter says `not null` for
neither the key nor the dialect, so it is one only where the fields of the keys say so
themselves. -/
theorem keyDiscipline_iff (hconfined : ∀ dialect, model.Confined dialect)
    {postgres sqlite : List Sql} (hpostgres : sqlLines localeLe model .postgres = .ok postgres)
    (hsqlite : sqlLines localeLe model .sqlite = .ok sqlite) :
    KeyDiscipline implicitNotNull model postgres sqlite ↔ KeysStrict implicitNotNull model := by
  have hresolved := (normalizeSchema_distinct h).2.2
  rw [keysStrict_iff]
  constructor
  · intro hdiscipline e he
    obtain ⟨decl, decl', hdecl, hdecl', hsame⟩ := hdiscipline e he
    obtain ⟨pg, hpg, hdeclares⟩ := exists_tableOf localeLe h (hconfined _) hpostgres he
    obtain ⟨lite, hlite, hdeclares'⟩ := exists_tableOf localeLe h (hconfined _) hsqlite he
    obtain rfl := hdecl.unique hpg
    obtain rfl := hdecl'.unique hlite
    exact (sameKeys_iff implicitNotNull (hresolved e he) hdeclares hdeclares').mp hsame
  · intro hagree e he
    obtain ⟨pg, hpg, hdeclares⟩ := exists_tableOf localeLe h (hconfined _) hpostgres he
    obtain ⟨lite, hlite, hdeclares'⟩ := exists_tableOf localeLe h (hconfined _) hsqlite he
    exact ⟨pg, lite, hpg, hlite,
      (sameKeys_iff implicitNotNull (hresolved e he) hdeclares hdeclares').mpr (hagree e he)⟩

end

end

/-- The types of PostgreSQL whose columns are not null. -/
def isSerial (type : String) : Bool :=
  ["serial", "serial2", "serial4", "serial8", "smallserial", "bigserial"].contains type.toLower

/-- Pins of a clip in a folder, under a key of both, and with a note that may be empty. -/
def pinSchema (required : List String) : Schema where
  schemaUri := "https://json-schema.org/draft/2020-12/schema"
  libCore := some { product := "cliptown", interfacesRepository := "interfaces" }
  defs := some [("Pin", {
    type := "object"
    required
    db := some { table := "pins", primaryKey := some ["folder", "clip"] }
    properties := [("folder", { types := ["string"] }), ("clip", { types := ["string"] }),
      ("note", { types := ["string"], db := { default := some "''" } })] })]

/-- The fields of the key are required. -/
theorem keyDiscipline_iff_required : ∃ model,
    normalizeSchema (pinSchema ["folder", "clip"]) = .ok model
      ∧ ∃ postgres sqlite, sqlLines (fun a b => a ≤ b) model .postgres = .ok postgres
        ∧ sqlLines (fun a b => a ≤ b) model .sqlite = .ok sqlite
        ∧ KeyDiscipline isSerial model postgres sqlite := by
  obtain ⟨model, hmodel, hconfined, hpg, hlite, hfields⟩ := exists_model
    (fun model => (∀ dialect, model.Confined dialect)
      ∧ (sqlLines (fun a b => a ≤ b) model .postgres).toOption.isSome = true
      ∧ (sqlLines (fun a b => a ≤ b) model .sqlite).toOption.isSome = true
      ∧ ∀ e ∈ model.entities, e.primaryKey.length = 2 ∧ ∀ f ∈ e.fields,
        (f.name ∈ e.primaryKey → f.nullable = false)
          ∧ ∀ type ∈ (postgresType f).toOption, isSerial type = false)
    (by decide +kernel :
      (normalizeSchema (pinSchema ["folder", "clip"])).toOption.any _ = true)
  obtain ⟨postgres, hpostgres⟩ := Option.isSome_iff_exists.mp hpg
  obtain ⟨sqlite, hsqlite⟩ := Option.isSome_iff_exists.mp hlite
  have hpostgres := eq_ok_of_mem_toOption hpostgres
  have hsqlite := eq_ok_of_mem_toOption hsqlite
  refine ⟨model, hmodel, postgres, sqlite, hpostgres, hsqlite, ?_⟩
  refine (keyDiscipline_iff isSerial _ hmodel hconfined hpostgres hsqlite).mpr ?_
  intro e he f hf
  obtain ⟨hlength, hstrict⟩ := hfields e he
  constructor
  · intro hkey
    obtain ⟨key, hmem, hfind⟩ := hkey
    have hname : f.name = key := by simpa using List.find?_some hfind
    refine ⟨(hstrict f hf).1 (hname ▸ hmem), ?_⟩
    -- a key of two columns is no row number
    intro hrowid
    obtain ⟨⟨key', hone, _⟩, _⟩ := hrowid
    rw [hone] at hlength
    cases hlength
  · intro _ type htype
    exact (hstrict f hf).2 type (by rw [htype]; rfl)

/-- A pin with a folder and no clip. -/
def clipless : Row := fun name => if name = "clip" then none else some "x"

/-- PostgreSQL rejects the row; SQLite keeps it, with a NULL in a column of its key. -/
def KeepsNullKey (postgres sqlite : TableDecl) (row : Row) : Prop :=
  postgres.Rejects (postgres.PostgresRefuses isSerial) row
    ∧ ¬ sqlite.Rejects sqlite.SqliteRefuses row
    ∧ ∃ name ∈ sqlite.primaryKey, sqlite.sqliteStored "1" row name = none

instance (postgres sqlite : TableDecl) (row : Row) :
    Decidable (KeepsNullKey postgres sqlite row) := by
  unfold KeepsNullKey; infer_instance

/-- The clip of the key is not required: PostgreSQL refuses a pin without one, SQLite keeps
it. -/
theorem null_key_accepted : ∃ model, normalizeSchema (pinSchema ["folder"]) = .ok model
    ∧ ∃ postgres sqlite, sqlLines (fun a b => a ≤ b) model .postgres = .ok postgres
      ∧ sqlLines (fun a b => a ≤ b) model .sqlite = .ok sqlite
      ∧ (∃ e ∈ model.entities, ∃ decl decl', TableOf model .postgres postgres e decl
        ∧ TableOf model .sqlite sqlite e decl'
        ∧ KeepsNullKey decl decl' clipless)
      ∧ ¬ KeyDiscipline isSerial model postgres sqlite := by
  obtain ⟨model, hmodel, hpg, hlite, e, he, clauses, hclauses, clauses', hclauses', decl, hdecl,
    decl', hdecl', hkeeps⟩ := exists_model
      (fun model => (sqlLines (fun a b => a ≤ b) model .postgres).toOption.isSome = true
        ∧ (sqlLines (fun a b => a ≤ b) model .sqlite).toOption.isSome = true
        ∧ ∃ e ∈ model.entities, ∃ clauses ∈ (tableClauses model .postgres e).toOption,
          ∃ clauses' ∈ (tableClauses model .sqlite e).toOption,
            ∃ decl ∈ readDecl clauses, ∃ decl' ∈ readDecl clauses',
              KeepsNullKey decl decl' clipless)
      (by decide +kernel : (normalizeSchema (pinSchema ["folder"])).toOption.any _ = true)
  obtain ⟨postgres, hpostgres⟩ := Option.isSome_iff_exists.mp hpg
  obtain ⟨sqlite, hsqlite⟩ := Option.isSome_iff_exists.mp hlite
  have hpostgres := eq_ok_of_mem_toOption hpostgres
  have hsqlite := eq_ok_of_mem_toOption hsqlite
  have htable := tableOf_of_read _ hmodel hpostgres he (eq_ok_of_mem_toOption hclauses) hdecl
  have htable' := tableOf_of_read _ hmodel hsqlite he (eq_ok_of_mem_toOption hclauses') hdecl'
  refine ⟨model, hmodel, postgres, sqlite, hpostgres, hsqlite,
    ⟨e, he, decl, decl', htable, htable', hkeeps⟩, ?_⟩
  intro hdiscipline
  obtain ⟨pg, lite, hpgTable, hliteTable, hsame⟩ := hdiscipline e he
  obtain rfl := htable.unique hpgTable
  obtain rfl := htable'.unique hliteTable
  exact hkeeps.2.1 ((hsame.rejects clipless).mp hkeeps.1)

end ClipTown.SchemaOrm
