/-
  ClipTown.SchemaOrm.References — the foreign keys of the emitted file
  (`normalizeSchema` of `tools/schema-orm/core.mjs`, `sqlColumn` of `sql.mjs`).

  The normalizer looks a reference up among the raw definitions, the emitter
  among the entities that have a table; and neither asks whether the column that
  is referenced is a key, or of a type like that of the column.  PostgreSQL asks
  at once: the key has to be there when the statement is run.  SQLite asks when
  rows are written.

    • `exists_sqlLines_iff` — with the six types the file is written iff every
      reference resolves among the entities,
    • `foreignKeys_iff` — the file is written, and its foreign keys are ones a
      database accepts, iff every reference leads to a key of an entity that is
      created in time and can be compared with.
-/
import ClipTown.SchemaOrm.CreationOrder
import ClipTown.SchemaOrm.DatabaseNames

namespace ClipTown.SchemaOrm

open Checks DependencyOrder StoredNames

/-! ## §1. Keys and targets. -/

/-- The types a field may have. -/
def standardKinds : List String := ["string", "integer", "number", "boolean", "object", "array"]

/-- Every field has one of the six types. -/
def HasStandardKinds (model : Model) : Prop :=
  ∀ e ∈ model.entities, ∀ f ∈ e.fields, f.kind ∈ standardKinds

instance : DecidablePred HasStandardKinds := fun model => by
  unfold HasStandardKinds; infer_instance

/-- The field is declared a key in the `create table`: alone the primary key, or unique. -/
def IsTableKey (entity : Entity) (field : Field) : Prop :=
  entity.primaryKey = [field.name] ∨ field.property.db.unique = true

/-- The index makes the field a key: it is unique, has no predicate and no other field. -/
def Index.IsKeyOf (index : Index) (field : Field) : Prop :=
  index.unique = true ∧ index.fields = [field.name] ∧ index.where_ = none

/-- The field is a key of its entity, by the table or by an index. -/
def IsKey (entity : Entity) (field : Field) : Prop :=
  IsTableKey entity field ∨ ∃ index ∈ entity.indexes, index.IsKeyOf field

instance (entity : Entity) (field : Field) : Decidable (IsTableKey entity field) := by
  unfold IsTableKey; infer_instance

instance (index : Index) (field : Field) : Decidable (index.IsKeyOf field) := by
  unfold Index.IsKeyOf; infer_instance

instance (entity : Entity) (field : Field) : Decidable (IsKey entity field) := by
  unfold IsKey; infer_instance

/-- Every reference leads to a field of an entity. -/
def ReferencesResolve (model : Model) : Prop :=
  ∀ e ∈ model.entities, ∀ f ∈ e.fields, ∀ r, f.property.db.references = some r →
    ∃ target, resolveReference model f = some target

section

variable (comparable : String → String → Bool)

/-- The PostgreSQL types of the two fields can be compared. -/
def TypesFit (field key : Field) : Prop :=
  ∃ type ∈ (postgresType field).toOption, ∃ type' ∈ (postgresType key).toOption,
    comparable type type' = true

instance (field key : Field) : Decidable (TypesFit comparable field key) := by
  unfold TypesFit; infer_instance

/-- Every reference leads to a key of an entity, with a type like the field's; where the
entity is the field's own, to one that the table declares. -/
def ReferencesAreKeys (model : Model) : Prop :=
  ∀ e ∈ model.entities, ∀ f ∈ e.fields, ∀ r ∈ f.property.db.references,
    ∃ target ∈ model.entity r.entity, ∃ key ∈ target.field r.field,
      IsKey target key ∧ (r.entity = e.name → IsTableKey target key) ∧ TypesFit comparable f key

instance : DecidablePred (ReferencesAreKeys comparable) := fun model => by
  unfold ReferencesAreKeys; infer_instance

end

/-- The entities can be created in order, and the rounds do so: no cycle between distinct
entities, and no entity that references itself unless the schema lists them in order. -/
def Model.Creatable (model : Model) : Prop :=
  Acyclic model.Needs ∧ (model.NoSelfReference ∨ model.Ordered model.entities)

/-! ## §2. When the file is written. -/

/-- A field of a standard type has a column type. -/
theorem columnType_isOk {dialect : Dialect} {field : Field} (h : field.kind ∈ standardKinds) :
    ∃ type, columnType dialect field = .ok type := by
  cases dialect with
  | sqlite => exact ⟨_, rfl⟩
  | postgres =>
      show ∃ type, postgresType field = .ok type
      unfold postgresType
      split
      next type _ => exact ⟨type, rfl⟩
      next =>
        dsimp only
        split
        · -- a string column, by its format and its length
          split_ifs
          · exact ⟨_, rfl⟩
          · exact ⟨_, rfl⟩
          · split
            · split_ifs <;> exact ⟨_, rfl⟩
            · exact ⟨_, rfl⟩
        · exact ⟨_, rfl⟩
        · exact ⟨_, rfl⟩
        · exact ⟨_, rfl⟩
        · exact ⟨_, rfl⟩
        · exact ⟨_, rfl⟩
        next hstring hinteger hnumber hboolean hobject harray =>
          simp only [standardKinds, List.mem_cons, List.not_mem_nil, or_false] at h
          rcases h with hkind | hkind | hkind | hkind | hkind | hkind
          · exact absurd hkind hstring
          · exact absurd hkind hinteger
          · exact absurd hkind hnumber
          · exact absurd hkind hboolean
          · exact absurd hkind hobject
          · exact absurd hkind harray

/-- The reference part exists iff the reference resolves. -/
theorem referencePieces_isOk {model : Model} {field : Field} :
    (∃ parts, referencePieces model field.property.db.references = .ok parts)
      ↔ ∀ r, field.property.db.references = some r →
          ∃ target, resolveReference model field = some target := by
  constructor
  · intro hex r hr
    obtain ⟨parts, hparts⟩ := hex
    rcases referencePieces_eq_ok hparts with ⟨hnone, _⟩ | ⟨_, target, _, htarget, _⟩
    · rw [hnone] at hr
      cases hr
    · exact ⟨target, htarget⟩
  · intro hall
    cases hr : field.property.db.references with
    | none => exact ⟨[], rfl⟩
    | some r =>
        obtain ⟨target, htarget⟩ := hall r hr
        obtain ⟨r', hr', hentity, hfield⟩ := resolveReference_eq_some.mp htarget
        obtain rfl := Option.some.inj (hr.symm.trans hr')
        unfold referencePieces
        simp only [hentity, hfield]
        exact ⟨_, rfl⟩

theorem sqlColumn_isOk {model : Model} {dialect : Dialect} {field : Field}
    (hkind : field.kind ∈ standardKinds) :
    (∃ sql, sqlColumn model dialect field = .ok sql)
      ↔ ∀ r, field.property.db.references = some r →
          ∃ target, resolveReference model field = some target := by
  rw [← referencePieces_isOk]
  obtain ⟨type, htype⟩ : ∃ type, columnType dialect field = .ok type := columnType_isOk hkind
  unfold sqlColumn
  simp only [do_eq_ok, pure_eq_ok, htype, Except.ok.injEq]
  constructor
  · intro hex
    obtain ⟨_, _, _, parts, hparts, _⟩ := hex
    exact ⟨parts, hparts⟩
  · intro hex
    obtain ⟨parts, hparts⟩ := hex
    exact ⟨_, type, rfl, parts, hparts, rfl⟩

theorem columnNames_isOk {entity : Entity} {names : List String}
    (h : ∀ name ∈ names, ∃ field, entity.field name = some field) :
    ∃ columns, columnNames entity names = .ok columns := by
  refine mapM_isOk ?_
  intro name hname
  obtain ⟨field, hfield⟩ := h name hname
  rw [hfield]
  exact ⟨field.column, rfl⟩

/-- The lines of a resolved entity are written iff its columns are. -/
theorem entityLines_isOk {model : Model} {dialect : Dialect} {entity : Entity}
    (hresolved : ResolvedEntity entity) :
    (∃ lines, entityLines model dialect entity = .ok lines)
      ↔ ∀ f ∈ entity.fields, ∃ sql, sqlColumn model dialect f = .ok sql := by
  constructor
  · intro hex f hf
    obtain ⟨lines, hlines⟩ := hex
    obtain ⟨clauses, _, hclauses, _, _⟩ := entityLines_eq hlines
    obtain ⟨columns, _, hcolumns, _⟩ := tableClauses_eq hclauses
    obtain ⟨sql, _, hsql⟩ := exists_mapM hcolumns f hf
    exact ⟨sql, hsql⟩
  · intro hall
    obtain ⟨columns, hcolumns⟩ := mapM_isOk hall
    obtain ⟨key, hkey⟩ := columnNames_isOk hresolved.primaryKey
    obtain ⟨indexes, hindexes⟩ :
        ∃ indexes, entity.indexes.mapM (indexLine entity) = .ok indexes := by
      refine mapM_isOk ?_
      intro index hindex
      obtain ⟨names, hnames⟩ := columnNames_isOk (hresolved.indexes index hindex)
      unfold indexLine
      rw [hnames]
      exact ⟨_, rfl⟩
    unfold entityLines tableClauses
    rw [hcolumns, hkey, hindexes]
    exact ⟨_, rfl⟩

/-- **When the file is written.** -/
theorem exists_sqlLines_iff (localeLe : String → String → Bool) {schema : Schema} {model : Model}
    (h : normalizeSchema schema = .ok model) (hkinds : HasStandardKinds model)
    (dialect : Dialect) :
    (∃ lines, sqlLines localeLe model dialect = .ok lines) ↔ ReferencesResolve model := by
  have hin := (topologicalEntities_checked localeLe h).1
  have hresolved := (normalizeSchema_distinct h).2.2
  have hcolumns : ∀ e ∈ model.entities,
      (∃ lines, entityLines model dialect e = .ok lines)
        ↔ ∀ f ∈ e.fields, ∀ r, f.property.db.references = some r →
            ∃ target, resolveReference model f = some target := by
    intro e he
    rw [entityLines_isOk (hresolved e he)]
    exact forall₂_congr fun f hf => sqlColumn_isOk (hkinds e he f hf)
  unfold ReferencesResolve
  constructor
  · -- the file is written entity by entity, and every entity is in its order
    intro hex e he
    obtain ⟨lines, hlines⟩ := hex
    obtain ⟨blocks, hblocks, _⟩ := sqlLines_eq localeLe hlines
    obtain ⟨block, _, hblock⟩ := exists_mapM hblocks e ((hin e).mpr he)
    exact (hcolumns e he).mp ⟨block, hblock⟩
  · intro hall
    obtain ⟨blocks, hblocks⟩ : ∃ blocks,
        (topologicalEntities localeLe model).mapM (entityLines model dialect) = .ok blocks := by
      refine mapM_isOk ?_
      intro e he
      have he' := (hin e).mp he
      exact (hcolumns e he').mpr (hall e he')
    unfold sqlLines
    rw [hblocks]
    exact ⟨_, rfl⟩

/-! ## §3. What the foreign keys name. -/

section

variable (localeLe : String → String → Bool)

/-- The foreign keys of the file, line by line: each comes from a field of the model. -/
theorem mem_references {model : Model} {dialect : Dialect} {lines : List Sql}
    (hmodel : ∀ e ∈ model.entities, CheckedEntity e)
    (hnames : (model.entities.map (·.name)).Nodup)
    (h : sqlLines localeLe model dialect = .ok lines) (read : String × String) :
    (∃ line ∈ lines, read ∈ line.filterMap readReference)
      ↔ ∃ e ∈ model.entities, ∃ f ∈ e.fields, ∃ target,
          resolveReference model f = some target ∧ read = targetNames target := by
  have hperm := topologicalEntities_perm localeLe hnames
  have hclauses : ∀ e ∈ model.entities, ∀ clauses, tableClauses model dialect e = .ok clauses →
      (read ∈ (join ",\n" clauses).filterMap readReference
        ↔ ∃ f ∈ e.fields, ∃ target,
            resolveReference model f = some target ∧ read = targetNames target) := by
    intro e he clauses hclauses
    rw [references_clauses hmodel (hmodel e he) hclauses, List.mem_flatMap]
    simp only [List.mem_map, Option.mem_toList, eq_comm (a := read)]
  constructor
  · intro hex
    obtain ⟨line, hline, hread⟩ := hex
    -- a foreign key stands in the clauses of an entity
    rcases line_cases localeLe h line hline with hnothing | ⟨e, he, clauses, hcl, rfl⟩
    · rw [hnothing.1] at hread
      cases hread
    · have he' := hperm.mem_iff.mp he
      exact ⟨e, he', (hclauses e he' clauses hcl).mp hread⟩
  · intro hex
    obtain ⟨e, he, hfield⟩ := hex
    obtain ⟨clauses, hcl, hline⟩ := clauses_mem localeLe h e (hperm.mem_iff.mpr he)
    exact ⟨_, hline, (hclauses e he clauses hcl).mpr hfield⟩

/-- The lines make the index: they have it, and no other table or index of theirs that
PostgreSQL keeps under the same name. -/
def IndexMade (lines : List Sql) (index : Index) : Prop :=
  index.name ∈ createdIndexes lines
    ∧ (∀ name ∈ createdTables lines,
        stored identifierBytes name ≠ stored identifierBytes index.name)
    ∧ ∀ name ∈ createdIndexes lines,
        stored identifierBytes name = stored identifierBytes index.name → name = index.name

instance (lines : List Sql) (index : Index) : Decidable (IndexMade lines index) := by
  unfold IndexMade; infer_instance

/-- `references t (c)` is a key of the entity, by its table or by an index that the lines
have made. -/
def NamesKey (lines : List Sql) (read : String × String) (entity : Entity) (key : Field) : Prop :=
  entity.table = read.1 ∧ key.column ++ ")" = read.2
    ∧ (IsTableKey entity key ∨ ∃ index ∈ entity.indexes, index.IsKeyOf key ∧ IndexMade lines index)

instance (lines : List Sql) (read : String × String) (entity : Entity) (key : Field) :
    Decidable (NamesKey lines read entity key) := by
  unfold NamesKey; infer_instance

/-- In the file, `references t (c)` names a table and a key of it. -/
def InFile (model : Model) (lines : List Sql) (read : String × String) : Prop :=
  read.1 ∈ createdTables lines
    ∧ ∃ target ∈ model.entities, ∃ key ∈ target.fields, NamesKey lines read target key

/-- PostgreSQL takes the `references t (c)` of a field: the table is the entity's own or
created before it, the key is one by then, and the two columns can be compared. -/
def PostgresTakes (comparable : String → String → Bool) (model : Model) (lines : List Sql)
    (entity : Entity) (field : Field) (read : String × String) : Prop :=
  (read.1 = entity.table ∨ read.1 ∈ createdTables (linesBefore lines entity))
    ∧ ∃ target ∈ model.entities, ∃ key ∈ target.fields,
        NamesKey (linesBefore lines entity) read target key ∧ TypesFit comparable field key

instance (model : Model) (lines : List Sql) (read : String × String) :
    Decidable (InFile model lines read) := by
  unfold InFile; infer_instance

instance (comparable : String → String → Bool) (model : Model) (lines : List Sql)
    (entity : Entity) (field : Field) (read : String × String) :
    Decidable (PostgresTakes comparable model lines entity field read) := by
  unfold PostgresTakes; infer_instance

/-- The file is written in both dialects; every `references t (c)` of it names a table that
it creates and a column that is a key of that table; and PostgreSQL takes the one of every
column. -/
def ForeignKeysAccepted (comparable : String → String → Bool) (model : Model) : Prop :=
  (∀ dialect, ∃ text, generateSql localeLe model dialect = .ok text)
    ∧ (∀ dialect lines, sqlLines localeLe model dialect = .ok lines →
        ∀ line ∈ lines, ∀ read ∈ line.references, InFile model lines read)
    ∧ ∀ lines, sqlLines localeLe model .postgres = .ok lines →
        ∀ e ∈ model.entities, ∀ f ∈ e.fields, ∀ sql, sqlColumn model .postgres f = .ok sql →
          ∀ read ∈ sql.references, PostgresTakes comparable model lines e f read

/-- Among lines that create only what the model has, and apart, an index that is there is
made. -/
theorem indexMade_iff {model : Model} (hapart : NamesApart model) (hnodup : model.indexNames.Nodup)
    {lines : List Sql} (htables : ∀ name ∈ createdTables lines, name ∈ model.tables)
    (hindexes : ∀ name ∈ createdIndexes lines, name ∈ model.indexNames) {index : Index} :
    IndexMade lines index ↔ index.name ∈ createdIndexes lines := by
  refine ⟨fun h => h.1, ?_⟩
  intro hcreated
  have hname := hindexes index.name hcreated
  have hstored := ((distinct_iff hnodup).mpr hapart.indexes).2
  refine ⟨hcreated, ?_, ?_⟩
  · intro name hin
    exact hapart.relations name (htables name hin) index.name hname
  · intro name hin heq
    exact List.inj_on_of_nodup_map hstored (hindexes name hin) hname heq

section

variable {schema : Schema} {model : Model} (h : normalizeSchema schema = .ok model)
include h

/-- The table and the column of a target are those of no other field. -/
theorem target_unique {target : Entity × Field} {field : Field}
    (htarget : resolveReference model field = some target) {lines : List Sql} {entity : Entity}
    (hentity : entity ∈ model.entities) {key : Field} (hkey : key ∈ entity.fields)
    (hread : NamesKey lines (targetNames target) entity key) :
    entity = target.1 ∧ key = target.2 := by
  obtain ⟨r, _, hfound, hfield⟩ := resolveReference_eq_some.mp htarget
  obtain ⟨htables, _, hresolved⟩ := normalizeSchema_distinct h
  obtain ⟨htable, hcolumn, _⟩ := hread
  have htarget' := List.mem_of_find?_eq_some hfound
  obtain rfl := List.inj_on_of_nodup_map htables hentity htarget' htable
  have hchars := congrArg String.toList hcolumn
  simp only [targetNames, String.toList_append, List.append_cancel_right_eq] at hchars
  exact ⟨rfl, List.inj_on_of_nodup_map (hresolved _ hentity).columns hkey
    (List.mem_of_find?_eq_some hfield) (String.toList_inj.mp hchars)⟩

/-- The entities in front of one in the order have neither its table nor its indexes. -/
theorem front_apart {front back : List Entity} {entity : Entity}
    (horder : topologicalEntities localeLe model = front ++ entity :: back) :
    entity.table ∉ front.map (·.table)
      ∧ ∀ index ∈ entity.indexes,
          index.name ∉ front.flatMap fun e => e.indexes.map (·.name) := by
  have hperm := topologicalEntities_perm localeLe (normalizeSchema_entities h).2.1
  obtain ⟨htables, hindexes, _⟩ := normalizeSchema_distinct h
  have htables' := (hperm.map (·.table)).nodup_iff.mpr htables
  have hindexes' := (hperm.flatMap_right fun e => e.indexes.map (·.name)).nodup_iff.mpr hindexes
  rw [horder, List.map_append, List.nodup_append] at htables'
  rw [horder, List.flatMap_append, List.nodup_append] at hindexes'
  constructor
  · intro hmem
    exact htables'.2.2 _ hmem _ List.mem_cons_self rfl
  · intro index hindex hmem
    refine hindexes'.2.2 _ hmem index.name ?_ rfl
    rw [List.flatMap_cons, List.mem_append]
    exact .inl (List.mem_map_of_mem hindex)

end

/-- The foreign key of a column of a confined model is its target. -/
theorem references_sqlColumn {model : Model} {dialect : Dialect}
    (hmodel : ∀ e ∈ model.entities, CheckedEntity e) (hconfined : model.Confined dialect)
    {e : Entity} (he : e ∈ model.entities) {f : Field} (hf : f ∈ e.fields) {sql : Sql}
    (h : sqlColumn model dialect f = .ok sql) :
    sql.references = (resolveReference model f).toList.map targetNames := by
  rw [(hconfined.sqlColumn he hf ((hmodel e he).fields f hf) h).references_eq]
  exact (readReference_sqlColumn hmodel h).1

section

variable {schema : Schema} {model : Model} (h : normalizeSchema schema = .ok model)
include h

/-- What a column of the file asks of PostgreSQL, where it is written and taken. -/
theorem taken_of_accepted {comparable : String → String → Bool} (hkinds : HasStandardKinds model)
    (hconfined : model.Confined .postgres)
    (haccepted : ForeignKeysAccepted localeLe comparable model) {lines : List Sql}
    (hlines : sqlLines localeLe model .postgres = .ok lines) {e : Entity}
    (he : e ∈ model.entities) {f : Field} (hf : f ∈ e.fields) {r : Reference}
    (hr : f.property.db.references = some r) :
    ∃ target, resolveReference model f = some target
      ∧ PostgresTakes comparable model lines e f (targetNames target) := by
  have hresolve := (exists_sqlLines_iff localeLe h hkinds .postgres).mp ⟨lines, hlines⟩ e he f hf
  obtain ⟨target, htarget⟩ := hresolve r hr
  obtain ⟨sql, hsql⟩ : ∃ sql, sqlColumn model .postgres f = .ok sql :=
    (sqlColumn_isOk (hkinds e he f hf)).mpr hresolve
  refine ⟨target, htarget, haccepted.2.2 lines hlines e he f hf sql hsql _ ?_⟩
  rw [references_sqlColumn (normalizeSchema_entities h).2.2 hconfined he hf hsql, htarget]
  exact List.mem_cons_self

/-- Where PostgreSQL takes all foreign keys, they lead to keys. -/
theorem keys_of_accepted {comparable : String → String → Bool} (hkinds : HasStandardKinds model)
    (hconfined : model.Confined .postgres)
    (haccepted : ForeignKeysAccepted localeLe comparable model) :
    ReferencesAreKeys comparable model := by
  have hchecked := normalizeSchema_entities h
  obtain ⟨hin, hordered⟩ := topologicalEntities_checked localeLe h
  obtain ⟨lines, hlines⟩ := (exists_sqlLines localeLe).mp (haccepted.1 .postgres)
  intro e he f hf r hr
  obtain ⟨target, htarget, _, entity, hentity, key, hkey, hnames, hfit⟩ :=
    taken_of_accepted localeLe h hkinds hconfined haccepted hlines he hf hr
  obtain ⟨r', hr', hfound, hfield⟩ := resolveReference_eq_some.mp htarget
  obtain rfl := Option.some.inj (hr.symm.trans hr')
  obtain ⟨rfl, rfl⟩ := target_unique h htarget hentity hkey hnames
  refine ⟨target.1, hfound, target.2, hfield, ?_, ?_, hfit⟩
  · exact hnames.2.2.imp_right fun hindex => by
      obtain ⟨index, hmem, hkeyOf, _⟩ := hindex
      exact ⟨index, hmem, hkeyOf⟩
  · intro hself
    have hname : target.1.name = r.entity := by simpa using List.find?_some hfound
    obtain rfl := List.inj_on_of_nodup_map hchecked.2.1 hentity he (hname.trans hself)
    refine hnames.2.2.resolve_right ?_
    intro hindex
    obtain ⟨index, hmem, _, hmade⟩ := hindex
    -- the entity's own indexes come after its table
    obtain ⟨front, back, horder⟩ := List.append_of_mem ((hin target.1).mpr hentity)
    have hfront := front_apart localeLe h horder
    rw [IndexMade, (created_linesBefore localeLe horder hordered hfront.1 hlines).2] at hmade
    exact hfront.2 index hmem hmade.1

/-- Where PostgreSQL takes all foreign keys, every table is created before those that
reference it. -/
theorem ordered_of_accepted {comparable : String → String → Bool} (hkinds : HasStandardKinds model)
    (hconfined : model.Confined .postgres)
    (haccepted : ForeignKeysAccepted localeLe comparable model) :
    model.Ordered (topologicalEntities localeLe model) := by
  have hdistinct := normalizeSchema_distinct h
  obtain ⟨hin, hordered⟩ := topologicalEntities_checked localeLe h
  obtain ⟨lines, hlines⟩ := (exists_sqlLines localeLe).mp (haccepted.1 .postgres)
  refine follows_of_split ?_
  intro front e back horder target hneeds
  obtain ⟨he, htarget, hne, f, hf, r, hr, hname⟩ := hneeds
  obtain ⟨resolved, hresolved, hcreated, _⟩ :=
    taken_of_accepted localeLe h hkinds hconfined haccepted hlines he hf hr
  obtain ⟨r', hr', hfound, _⟩ := resolveReference_eq_some.mp hresolved
  obtain rfl := Option.some.inj (Option.mem_def.mp hr |>.symm.trans hr')
  have hsame : resolved.1.name = r.entity := by simpa using List.find?_some hfound
  obtain rfl : resolved.1 = target := List.inj_on_of_nodup_map (normalizeSchema_entities h).2.1
    (List.mem_of_find?_eq_some hfound) htarget (hsame.trans hname)
  have hfront := front_apart localeLe h horder
  rw [(created_linesBefore localeLe horder hordered hfront.1 hlines).1] at hcreated
  rw [List.nil_append]
  rcases hcreated with hown | hbefore
  · exact absurd (List.inj_on_of_nodup_map hdistinct.1 htarget he hown) hne
  · obtain ⟨e', he', htable⟩ := List.mem_map.mp hbefore
    have he'' := (hin e').mp (by rw [horder]; exact List.mem_append_left _ he')
    obtain rfl := List.inj_on_of_nodup_map hdistinct.1 he'' htarget htable
    exact he'

/-- The entities of the order have the tables and the indexes of the model. -/
theorem names_of_order {front : List Entity}
    (hfront : ∀ e ∈ front, e ∈ topologicalEntities localeLe model) :
    (∀ name ∈ front.map (·.table), name ∈ model.tables)
      ∧ ∀ name ∈ front.flatMap (fun e => e.indexes.map (·.name)), name ∈ model.indexNames := by
  have hin := (topologicalEntities_checked localeLe h).1
  constructor
  · intro name hname
    obtain ⟨e, he, rfl⟩ := List.mem_map.mp hname
    exact List.mem_map_of_mem ((hin e).mp (hfront e he))
  · intro name hname
    obtain ⟨e, he, hmem⟩ := List.mem_flatMap.mp hname
    exact List.mem_flatMap.mpr ⟨e, (hin e).mp (hfront e he), hmem⟩

/-- Lines that create what the entities of the order have name the key of a target: it is one
by the table, or the target is among the entities. -/
theorem namesKey_of_isKey (hapart : NamesApart model) {lines : List Sql} {front : List Entity}
    (hfront : ∀ e ∈ front, e ∈ topologicalEntities localeLe model)
    (htables : createdTables lines = front.map (·.table))
    (hindexes : createdIndexes lines = front.flatMap fun e => e.indexes.map (·.name))
    {target : Entity × Field} (hkey : IsKey target.1 target.2)
    (hplaced : IsTableKey target.1 target.2 ∨ target.1 ∈ front) :
    NamesKey lines (targetNames target) target.1 target.2 := by
  refine ⟨rfl, rfl, ?_⟩
  rcases hplaced with htable | hplaced
  · exact .inl htable
  · refine hkey.imp_right ?_
    intro hindex
    obtain ⟨index, hmem, hkeyOf⟩ := hindex
    refine ⟨index, hmem, hkeyOf, ?_⟩
    obtain ⟨htables', hindexes'⟩ := names_of_order localeLe h hfront
    rw [indexMade_iff hapart (normalizeSchema_distinct h).2.1 (htables ▸ htables')
      (hindexes ▸ hindexes'), hindexes]
    exact List.mem_flatMap.mpr ⟨target.1, hplaced, List.mem_map_of_mem hmem⟩

end

/-- What the condition says of the target of a field. -/
structure IsKeyTarget (comparable : String → String → Bool) (model : Model) (e : Entity)
    (f : Field) (target : Entity × Field) : Prop where
  entity : target.1 ∈ model.entities
  field : target.2 ∈ target.1.fields
  isKey : IsKey target.1 target.2
  own : target.1 = e → IsTableKey target.1 target.2
  fits : TypesFit comparable f target.2
  refers : e.RefersTo target.1.name

section

variable {comparable : String → String → Bool} {model : Model}
  (hkeys : ReferencesAreKeys comparable model)
include hkeys

/-- A key of an entity is in particular a field of one. -/
theorem ReferencesAreKeys.resolve : ReferencesResolve model := by
  intro e he f hf r hr
  obtain ⟨target, hentity, key, hfield, _⟩ := hkeys e he f hf r hr
  exact ⟨(target, key), resolveReference_eq_some.mpr ⟨r, hr, hentity, hfield⟩⟩

theorem ReferencesAreKeys.target {e : Entity} (he : e ∈ model.entities) {f : Field}
    (hf : f ∈ e.fields) {target : Entity × Field}
    (htarget : resolveReference model f = some target) :
    IsKeyTarget comparable model e f target := by
  obtain ⟨r, hr, hentity, hfield⟩ := resolveReference_eq_some.mp htarget
  obtain ⟨target', hentity', key, hfield', hkey, hself, hfit⟩ := hkeys e he f hf r hr
  obtain rfl := Option.some.inj (hentity.symm.trans hentity')
  obtain rfl := Option.some.inj (hfield.symm.trans hfield')
  have hname : target.1.name = r.entity := by simpa using List.find?_some hentity
  exact {
    entity := List.mem_of_find?_eq_some hentity
    field := List.mem_of_find?_eq_some hfield
    isKey := hkey
    own := fun heq => hself (by rw [← hname, heq])
    fits := hfit
    refers := ⟨f, hf, r, hr, hname.symm⟩ }

variable {schema : Schema} (h : normalizeSchema schema = .ok model) (hapart : NamesApart model)
include h hapart

/-- Keys of entities stand in the file. -/
theorem ReferencesAreKeys.inFile {dialect : Dialect} (hconfined : model.Confined dialect)
    {lines : List Sql} (hlines : sqlLines localeLe model dialect = .ok lines) :
    ∀ line ∈ lines, ∀ read ∈ line.references, InFile model lines read := by
  have hchecked := normalizeSchema_entities h
  obtain ⟨hin, hordered⟩ := topologicalEntities_checked localeLe h
  intro line hline read hread
  rw [(hconfined.line hchecked.2.2 hchecked.2.1 hlines line hline).references_eq] at hread
  obtain ⟨e, he, f, hf, target, htarget, rfl⟩ := (mem_references localeLe hchecked.2.2
    hchecked.2.1 hlines read).mp ⟨line, hline, hread⟩
  have hkey := hkeys.target he hf htarget
  have hplaced := (hin target.1).mpr hkey.entity
  obtain ⟨htables, hindexes⟩ := created_sqlLines localeLe hordered hlines
  refine ⟨?_, target.1, hkey.entity, target.2, hkey.field,
    namesKey_of_isKey localeLe h hapart (fun _ he' => he') htables hindexes hkey.isKey
      (.inr hplaced)⟩
  rw [htables]
  exact List.mem_map_of_mem hplaced

/-- Where the entities are in order, PostgreSQL takes the keys of a column. -/
theorem ReferencesAreKeys.taken (horder : model.Ordered (topologicalEntities localeLe model))
    {lines : List Sql} (hlines : sqlLines localeLe model .postgres = .ok lines) {e : Entity}
    (he : e ∈ model.entities) {f : Field} (hf : f ∈ e.fields) {target : Entity × Field}
    (htarget : resolveReference model f = some target) :
    PostgresTakes comparable model lines e f (targetNames target) := by
  obtain ⟨hin, hordered⟩ := topologicalEntities_checked localeLe h
  have hkey := hkeys.target he hf htarget
  -- what stands before the entity in the order is created before its table
  obtain ⟨front, back, hsplit, hbefore⟩ := horder.exists_split ((hin e).mpr he)
  obtain ⟨htables, hindexes⟩ :=
    created_linesBefore localeLe hsplit hordered (front_apart localeLe h hsplit).1 hlines
  have hfront : ∀ e' ∈ front, e' ∈ topologicalEntities localeLe model := by
    intro e' he'
    rw [hsplit]
    exact List.mem_append_left _ he'
  have hplaced : target.1 = e ∨ target.1 ∈ front := by
    by_cases hown : target.1 = e
    · exact .inl hown
    · exact .inr (hbefore target.1 ⟨he, hkey.entity, hown, hkey.refers⟩)
  refine ⟨?_, target.1, hkey.entity, target.2, hkey.field,
    namesKey_of_isKey localeLe h hapart hfront htables hindexes hkey.isKey
      (hplaced.imp_left hkey.own), hkey.fits⟩
  rw [htables]
  exact hplaced.imp (congrArg Entity.table) fun hmem => List.mem_map_of_mem hmem

end

end

/-- Clips of a device, where a definition of devices is given and a field of it referenced. -/
def deviceSchema (device : Definition) (field : String) : Schema where
  schemaUri := "https://json-schema.org/draft/2020-12/schema"
  libCore := some { product := "cliptown", interfacesRepository := "interfaces" }
  defs := some [("Device", device), ("Clip", {
    type := "object"
    required := ["id"]
    db := some {
      table := "clips"
      checks := [{ name := "clips_id_set", expression := "id <> ''" }] }
    properties := [("id", { types := ["string"] }), ("device", {
      types := ["string"]
      db := { references := some { entity := "Device", field } } })] })]

/-- A device has an identifier, of some format, and a name; it may have a table. -/
def deviceDefinition (db : Option EntityDb) (format : Option String) : Definition where
  type := "object"
  required := ["id", "name"]
  db
  properties := [("id", { types := ["string"], format }), ("name", { types := ["string"] })]

/-- Nodes with a code that a unique index makes a key, and a parent by its code. -/
def nodeSchema : Schema where
  schemaUri := "https://json-schema.org/draft/2020-12/schema"
  libCore := some { product := "cliptown", interfacesRepository := "interfaces" }
  defs := some [("Node", {
    type := "object"
    required := ["id", "code"]
    db := some { table := "nodes", indexes := [{ fields := ["code"], unique := true }] }
    properties := [("id", { types := ["string"] }), ("code", { types := ["string"] }), ("parent", {
      types := ["string"]
      db := { references := some { entity := "Node", field := "code" } } })] })]

/-- The schema is accepted, and in its file a foreign key that PostgreSQL does not take. -/
def AcceptedUntaken (comparable : String → String → Bool) (schema : Schema) : Prop :=
  ∃ model, normalizeSchema schema = .ok model ∧ HasStandardKinds model
    ∧ ∃ lines, sqlLines (fun a b => a ≤ b) model .postgres = .ok lines
      ∧ ∃ e ∈ model.entities, ∃ f ∈ e.fields, ∃ sql, sqlColumn model .postgres f = .ok sql
        ∧ ∃ read ∈ sql.references, ¬ PostgresTakes comparable model lines e f read

theorem acceptedUntaken_of_run {comparable : String → String → Bool} {schema : Schema}
    (h : (normalizeSchema schema).toOption.any (fun model => decide (HasStandardKinds model
      ∧ ∃ lines ∈ (sqlLines (fun a b => a ≤ b) model .postgres).toOption,
        ∃ e ∈ model.entities, ∃ f ∈ e.fields, ∃ sql ∈ (sqlColumn model .postgres f).toOption,
          ∃ read ∈ sql.references, ¬ PostgresTakes comparable model lines e f read)) = true) :
    AcceptedUntaken comparable schema := by
  obtain ⟨model, hmodel, hkinds, lines, hlines, e, he, f, hf, sql, hsql, huntaken⟩ :=
    exists_model _ h
  exact ⟨model, hmodel, hkinds, lines, eq_ok_of_mem_toOption hlines, e, he, f, hf, sql,
    eq_ok_of_mem_toOption hsql, huntaken⟩

end ClipTown.SchemaOrm
