/-
  ClipTown.SchemaOrm.Schema — the persistence schema and its normal form
  (`tools/schema-orm/core.mjs`, `snakeCase` to `normalizeSchema`).

  The input is a JSON Schema with `x-lib-core` and `x-db` annotations; a member
  has the JSON type the annotation's readers expect of it.  `normalizeSchema`
  checks it and returns the model that every emitter works on.

    • `normalizeSchema_entities` — what is checked of every table, column,
      type, default, predicate and check of an accepted schema (`CheckedEntity`),
    • `normalizeSchema_distinct` — which of its names are distinct, and which
      resolve (`ResolvedEntity`).
-/
import Mathlib.Algebra.Order.Ring.Int
import ClipTown.SchemaOrm.Fragments

namespace ClipTown.SchemaOrm

open Checks

/-! ## §1. The schema. -/

/-- A finite number as `String(value)` writes it. -/
structure NumberText where
  text : String
  alphabet : ∀ c ∈ text.toList, c ∈ digits ++ ['.', 'e', '+', '-']
  oneSign : ¬ ['-', '-'] <:+: text.toList

/-- A JSON value of a `default` or an `enum`. -/
inductive Value where
  | string (s : String)
  | boolean (b : Bool)
  | number (n : NumberText)
  | null
  /-- An array or an object, as `JSON.stringify` writes it. -/
  | other (stringified : String)

structure Reference where
  entity : String
  field : String
  onDelete : Option String := none
  onUpdate : Option String := none

/-- `x-db` of a property. -/
structure FieldDb where
  column : Option String := none
  postgresType : Option String := none
  sqliteType : Option String := none
  default : Option String := none
  defaultByDialect : Option (List (String × String)) := none
  unique : Bool := false
  references : Option Reference := none

structure Property where
  /-- `type`, as the list of its types. -/
  types : List String
  format : Option String := none
  maxLength : Option Int := none
  enum : List Value := []
  default : Option Value := none
  /-- `JSON.stringify` of the default. -/
  defaultJson : String := ""
  db : FieldDb := {}
  /-- `JSON.stringify` of the property, which an error message quotes. -/
  stringified : String := ""

structure IndexDef where
  fields : List String
  name : Option String := none
  unique : Bool := false
  where_ : Option String := none

structure CheckDef where
  name : String
  expression : String
  deriving DecidableEq

/-- `x-db` of a definition; an absent table is the empty text. -/
structure EntityDb where
  table : String
  primaryKey : Option (List String) := none
  indexes : List IndexDef := []
  checks : List CheckDef := []

structure Definition where
  type : String
  description : String := ""
  required : List String := []
  db : Option EntityDb := none
  properties : List (String × Property) := []

/-- `x-lib-core`. -/
structure LibCore where
  product : String
  interfacesRepository : String

structure Schema where
  schemaUri : String
  libCore : Option LibCore
  defs : Option (List (String × Definition))

/-! ## §2. The model. -/

structure Field where
  name : String
  column : String
  property : Property
  kind : String
  required : Bool
  nullable : Bool

structure Index where
  name : String
  fields : List String
  unique : Bool
  where_ : Option String

structure Entity where
  name : String
  table : String
  description : String
  fields : List Field
  primaryKey : List String
  indexes : List Index
  checks : List CheckDef

/-- `fieldMap.get`. -/
def Entity.field (entity : Entity) (name : String) : Option Field :=
  entity.fields.find? (·.name = name)

structure Model where
  product : String
  entities : List Entity

/-- `entityMap.get`. -/
def Model.entity (model : Model) (name : String) : Option Entity :=
  model.entities.find? (·.name = name)

/-! ## §3. Names. -/

/-- `/([a-z0-9])([A-Z])/g`, by `$1_$2`. -/
def splitCamel : List Char → List Char
  | a :: b :: rest =>
      if a ∈ lowercase ++ digits ∧ b ∈ uppercase then a :: '_' :: splitCamel (b :: rest)
      else a :: splitCamel (b :: rest)
  | text => text

/-- Replace every run of the characters by one `_`. -/
def collapse (p : Char → Bool) : Bool → List Char → List Char
  | _, [] => []
  | inRun, c :: rest =>
      if p c then (if inRun then collapse p true rest else '_' :: collapse p true rest)
      else c :: collapse p false rest

/-- `toLowerCase` of a character: the Kelvin sign is the one character outside ASCII
that becomes an ASCII letter. -/
def toLowerCase (c : Char) : Char := if c = '\u212a' then 'k' else c.toLower

/-- `snakeCase`. -/
def snakeCase (value : String) : String :=
  String.ofList
    ((collapse (· == '_') false
      (collapse (fun c => c ∈ '-' :: '.' :: whitespace) false (splitCamel value.toList))).map
        toLowerCase)

/-! ## §4. Normalization. -/

/-- `normalizedTypes`. -/
def normalizedTypes (property : Property) : List String := property.types.filter (· ≠ "null")

/-- `propertyKind`. -/
def propertyKind (property : Property) : Result String :=
  match normalizedTypes property with
  | [kind] => .ok kind
  | _ => fail ("property must have exactly one non-null JSON type: " ++ property.stringified)

/-- `isNullable`. -/
def isNullable (property : Property) (required : Bool) : Bool :=
  !required || property.types.contains "null"

/-- `SAFE_ACTIONS`. -/
def safeActions : List String := ["cascade", "restrict", "set null", "no action"]

/-- The names every object inherits. -/
def objectPrototype : List String :=
  ["constructor", "hasOwnProperty", "isPrototypeOf", "propertyIsEnumerable", "toLocaleString",
    "toString", "valueOf", "__defineGetter__", "__defineSetter__", "__lookupGetter__",
    "__lookupSetter__", "__proto__"]

/-- An optional text is checked where it is there. -/
def checkSome {α : Type} (value : Option α) (check : α → Result Unit) : Result Unit :=
  match value with
  | none => .ok ()
  | some a => check a

/-- The check of one action of a reference; an empty text counts as absent. -/
def checkAction (label key : String) (action : Option String) : Result Unit :=
  checkSome action fun a =>
    failIf (a ≠ "" ∧ String.ofList (a.toList.map toLowerCase) ∉ safeActions)
      (label ++ " has unsupported " ++ key ++ ": " ++ a)

/-- The checks of `x-db.references`. -/
def checkReference (defs : List (String × Definition)) (label : String) (r : Reference) :
    Result Unit := do
  -- `$defs[entity]` also finds what every object inherits
  let definition := defs.lookup r.entity
  failIf (definition.isNone ∧ r.entity ∉ objectPrototype)
    (label ++ " references unknown entity " ++ r.entity)
  failIf (definition.all fun d =>
      (d.properties.lookup r.field).isNone && r.field ∉ objectPrototype)
    (label ++ " references unknown field " ++ r.entity ++ "." ++ r.field)
  checkAction label "onDelete" r.onDelete
  checkAction label "onUpdate" r.onUpdate

/-- The field of a property. -/
def normalizeField (defs : List (String × Definition)) (name : String) (required : List String)
    (entry : String × Property) : Result Field := do
  let (fieldName, property) := entry
  let db := property.db
  let label := name ++ "." ++ fieldName
  -- only an absent name gives way; an empty one is refused below
  let column := db.column.getD (snakeCase fieldName)
  assertIdentifier column (label ++ ".x-db.column")
  let kind ← propertyKind property
  checkSome property.maxLength fun n =>
    failIf (n ≤ 0 ∨ 2 ^ 53 ≤ n) (label ++ ".maxLength must be a positive safe integer")
  checkSome db.postgresType (assertSqlType · (label ++ ".x-db.postgresType"))
  checkSome db.sqliteType (assertSqlType · (label ++ ".x-db.sqliteType"))
  checkSome db.default (assertSqlExpression · (label ++ ".x-db.default"))
  checkSome db.defaultByDialect fun defaults =>
    defaults.forM fun (dialect, expression) => do
      failIf (dialect ∉ ["postgres", "sqlite"])
        (label ++ ".x-db.defaultByDialect has unsupported dialect " ++ dialect)
      assertSqlExpression expression (label ++ ".x-db.defaultByDialect." ++ dialect)
  checkSome db.references (checkReference defs label)
  return {
    name := fieldName
    column
    property
    kind
    required := required.contains fieldName
    nullable := isNullable property (required.contains fieldName) }

/-- The index of an `x-db` entry. -/
def normalizeIndex (name table : String) (fields : List Field) (entry : IndexDef × Nat) :
    Result Index := do
  let (index, indexNumber) := entry
  failIf (index.fields = []) (name ++ " index " ++ toString indexNumber ++ " requires fields")
  -- a field named twice in an index passes
  let columns ← index.fields.mapM fun field =>
    match fields.find? (·.name = field) with
    | some f => .ok f.column
    | none => fail (name ++ " index references unknown field " ++ field)
  -- the name is made of the columns, not of the fields
  let indexName := index.name.getD
    (table ++ "_" ++ String.intercalate "_" columns ++ (if index.unique then "_uq" else "_idx"))
  assertIdentifier indexName (name ++ " index name")
  checkSome index.where_ (assertSqlExpression · (name ++ "." ++ indexName ++ ".where"))
  return {
    name := indexName
    fields := index.fields
    unique := index.unique
    where_ := index.where_ }

/-- The check of an `x-db` entry. -/
def normalizeCheck (name : String) (check : CheckDef) : Result CheckDef := do
  assertIdentifier check.name (name ++ " check name")
  failIf (check.expression = "") (name ++ "." ++ check.name ++ " requires an expression")
  assertSqlExpression check.expression (name ++ "." ++ check.name ++ ".expression")
  return check

/-- The entity of a definition with a table. -/
def normalizeEntity (defs : List (String × Definition)) (name : String) (definition : Definition)
    (db : EntityDb) : Result Entity := do
  failIf (definition.type ≠ "object") (name ++ " must be an object schema")
  assertIdentifier db.table (name ++ ".x-db.table")
  -- `Object.hasOwn`: an inherited name does not count here
  definition.required.forM fun requiredField =>
    failIf ((definition.properties.lookup requiredField).isNone)
      (name ++ ".required references unknown field " ++ requiredField)
  let primaryKey := db.primaryKey.getD
    (if (definition.properties.lookup "id").isSome then ["id"] else [])
  failIf (primaryKey = []) (name ++ " requires x-db.primaryKey or an id property")
  failIf (¬ primaryKey.Nodup) (name ++ " primary key contains duplicate fields")
  let fields ← definition.properties.mapM (normalizeField defs name definition.required)
  -- two fields may differ in name and still have one column
  failIf (¬ (fields.map (·.column)).Nodup) (name ++ " contains duplicate persistence column names")
  primaryKey.forM fun key =>
    failIf (fields.find? (·.name = key)).isNone
      (name ++ " primary key references unknown field " ++ key)
  let indexes ← db.indexes.zipIdx.mapM (normalizeIndex name db.table fields)
  failIf (¬ (indexes.map (·.name)).Nodup) (name ++ " contains duplicate index names")
  let checks ← db.checks.mapM (normalizeCheck name)
  failIf (¬ (checks.map (·.name)).Nodup) (name ++ " contains duplicate check names")
  return {
    name
    table := db.table
    description := definition.description
    fields
    primaryKey
    indexes
    checks }

/-- The definitions that have a table. -/
def tableDefinitions (defs : List (String × Definition)) :
    List (String × Definition × EntityDb) :=
  defs.filterMap fun (name, definition) =>
    match definition.db with
    -- an empty table name counts as no table
    | some db => if db.table = "" then none else some (name, definition, db)
    | none => none

/-- `^[a-z0-9][a-z0-9-]*$`. -/
def isProductSlug (value : String) : Bool :=
  match value.toList with
  | [] => false
  | c :: rest => c ∈ lowercase ++ digits && rest.all fun d => d ∈ '-' :: (lowercase ++ digits)

/-- `normalizeSchema`. -/
def normalizeSchema (schema : Schema) : Result Model := do
  failIf (schema.schemaUri ≠ "https://json-schema.org/draft/2020-12/schema")
    "schema must use JSON Schema draft 2020-12"
  let defs ← okOr schema.defs (.error "schema.$defs is required")
  let root ← okOr schema.libCore (.error "schema.x-lib-core is required")
  failIf (root.product = "" ∨ root.interfacesRepository = "")
    "x-lib-core.product and x-lib-core.interfaces.repository are required"
  failIf (isProductSlug root.product = false)
    "x-lib-core.product must be a safe lowercase product slug"
  let entities ← (tableDefinitions defs).mapM fun (name, definition, db) =>
    normalizeEntity defs name definition db
  failIf (entities = []) "schema contains no x-db.table entity definitions"
  failIf (¬ (entities.map (·.name)).Nodup) "duplicate entity names"
  failIf (¬ (entities.map (·.table)).Nodup) "duplicate table names"
  -- index names are unique over all tables, check names within their table only
  failIf (¬ (entities.flatMap fun entity => entity.indexes.map (·.name)).Nodup)
    "index names must be unique in the product schema"
  return { product := root.product, entities }

/-! ## §5. What is checked. -/

/-- An action that the emitter prints is one of the safe ones. -/
def IsSafeAction (action : Option String) : Prop :=
  ∀ a, action = some a → a ≠ "" → String.ofList (a.toList.map toLowerCase) ∈ safeActions

/-- What is checked of a field. -/
structure CheckedField (field : Field) : Prop where
  column : isIdentifier field.column = true
  maxLength : ∀ n, field.property.maxLength = some n → 0 < n
  postgresType : ∀ t, field.property.db.postgresType = some t →
    sqlTypePattern.rmatch t.toList = true
  sqliteType : ∀ t, field.property.db.sqliteType = some t →
    sqlTypePattern.rmatch t.toList = true
  default : ∀ e, field.property.db.default = some e → IsSqlExpression e
  defaultByDialect : ∀ ds, field.property.db.defaultByDialect = some ds →
    ∀ d ∈ ds, IsSqlExpression d.2
  actions : ∀ r, field.property.db.references = some r →
    IsSafeAction r.onDelete ∧ IsSafeAction r.onUpdate

/-- What is checked of an entity. -/
structure CheckedEntity (entity : Entity) : Prop where
  table : isIdentifier entity.table = true
  fields : ∀ f ∈ entity.fields, CheckedField f
  indexes : ∀ i ∈ entity.indexes,
    isIdentifier i.name = true ∧ ∀ w, i.where_ = some w → IsSqlExpression w
  checks : ∀ c ∈ entity.checks, isIdentifier c.name = true ∧ IsSqlExpression c.expression

@[simp] theorem checkSome_eq_ok {α : Type} {value : Option α} {check : α → Result Unit}
    {u : Unit} : checkSome value check = .ok u ↔ ∀ a, value = some a → check a = .ok () := by
  cases value with
  | none => simp [checkSome]
  | some a => simp [checkSome]

theorem isIdentifier_of_eq_ok {value label : String} {u : Unit}
    (h : assertIdentifier value label = .ok u) : isIdentifier value = true := by
  simpa [assertIdentifier] using h

theorem rmatch_of_eq_ok {value label : String} {u : Unit}
    (h : assertSqlType value label = .ok u) : sqlTypePattern.rmatch value.toList = true := by
  simp only [assertSqlType, do_eq_ok, failIf_eq_ok, exists_unit, not_or] at h
  simpa using h.2.1

theorem isSafeAction_of_eq_ok {label key : String} {action : Option String} {u : Unit}
    (h : checkAction label key action = .ok u) : IsSafeAction action := by
  intro a ha hne
  simp only [checkAction, checkSome_eq_ok, failIf_eq_ok, not_and, not_not] at h
  exact h a ha hne

theorem normalizeField_checked {defs : List (String × Definition)} {name : String}
    {required : List String} {entry : String × Property} {field : Field}
    (h : normalizeField defs name required entry = .ok field) : CheckedField field := by
  simp only [normalizeField, do_eq_ok, pure_eq_ok, exists_unit, checkSome_eq_ok] at h
  obtain ⟨hcolumn, kind, _, hlength, hpg, hlite, hdefault, hdialect, href, rfl⟩ := h
  refine ⟨isIdentifier_of_eq_ok hcolumn, ?_, ?_, ?_, ?_, ?_, ?_⟩
  · intro n hn
    have hcheck := hlength n hn
    rw [failIf_eq_ok] at hcheck
    omega
  · exact fun t ht => rmatch_of_eq_ok (hpg t ht)
  · exact fun t ht => rmatch_of_eq_ok (hlite t ht)
  · exact fun e he => isSqlExpression_of_eq_ok (hdefault e he)
  · intro ds hds d hd
    have hall := (forM_eq_ok ds).mp (hdialect ds hds) d hd
    simp only [do_eq_ok, exists_unit] at hall
    exact isSqlExpression_of_eq_ok hall.2
  · intro r hr
    have hcheck := href r hr
    simp only [checkReference, do_eq_ok, exists_unit] at hcheck
    exact ⟨isSafeAction_of_eq_ok hcheck.2.2.1, isSafeAction_of_eq_ok hcheck.2.2.2⟩

theorem normalizeIndex_checked {name table : String} {fields : List Field}
    {entry : IndexDef × Nat} {index : Index}
    (h : normalizeIndex name table fields entry = .ok index) :
    isIdentifier index.name = true ∧ ∀ w, index.where_ = some w → IsSqlExpression w := by
  simp only [normalizeIndex, do_eq_ok, pure_eq_ok, exists_unit, checkSome_eq_ok] at h
  obtain ⟨_, columns, _, hname, hwhere, rfl⟩ := h
  exact ⟨isIdentifier_of_eq_ok hname, fun w hw => isSqlExpression_of_eq_ok (hwhere w hw)⟩

theorem normalizeCheck_checked {name : String} {entry check : CheckDef}
    (h : normalizeCheck name entry = .ok check) :
    isIdentifier check.name = true ∧ IsSqlExpression check.expression := by
  simp only [normalizeCheck, do_eq_ok, pure_eq_ok, exists_unit] at h
  obtain ⟨hname, _, hexpression, rfl⟩ := h
  exact ⟨isIdentifier_of_eq_ok hname, isSqlExpression_of_eq_ok hexpression⟩

theorem normalizeEntity_checked {defs : List (String × Definition)} {name : String}
    {definition : Definition} {db : EntityDb} {entity : Entity}
    (h : normalizeEntity defs name definition db = .ok entity) : CheckedEntity entity := by
  simp only [normalizeEntity, do_eq_ok, pure_eq_ok, exists_unit] at h
  obtain ⟨_, htable, _, _, _, fields, hfields, _, _, indexes, hindexes, _, checks, hchecks, _,
    rfl⟩ := h
  refine ⟨isIdentifier_of_eq_ok htable, ?_, ?_, ?_⟩
  · intro f hf
    obtain ⟨entry, _, hentry⟩ := exists_of_mapM hfields f hf
    exact normalizeField_checked hentry
  · intro i hi
    obtain ⟨entry, _, hentry⟩ := exists_of_mapM hindexes i hi
    exact normalizeIndex_checked hentry
  · intro c hc
    obtain ⟨entry, _, hentry⟩ := exists_of_mapM hchecks c hc
    exact normalizeCheck_checked hentry

/-- **What is checked of an accepted schema**: its product is a slug, its entities have
distinct names, and every one of them is checked. -/
theorem normalizeSchema_entities {schema : Schema} {model : Model}
    (h : normalizeSchema schema = .ok model) :
    isProductSlug model.product = true ∧ (model.entities.map (·.name)).Nodup
      ∧ ∀ e ∈ model.entities, CheckedEntity e := by
  simp only [normalizeSchema, do_eq_ok, pure_eq_ok, exists_unit, failIf_eq_ok] at h
  obtain ⟨_, defs, _, root, _, _, hslug, entities, hentities, _, hnames, _, _, rfl⟩ := h
  refine ⟨by simpa using hslug, not_not.mp hnames, ?_⟩
  intro e he
  obtain ⟨entry, _, hentry⟩ := exists_of_mapM hentities e he
  exact normalizeEntity_checked hentry

/-! ## §6. What is distinct and what resolves. -/

/-- The names of an entity that are distinct, and those that have a field. -/
structure ResolvedEntity (entity : Entity) : Prop where
  columns : (entity.fields.map (·.column)).Nodup
  checks : (entity.checks.map (·.name)).Nodup
  primaryKey : ∀ key ∈ entity.primaryKey, ∃ field, entity.field key = some field
  indexes : ∀ i ∈ entity.indexes, ∀ name ∈ i.fields, ∃ field, entity.field name = some field

theorem normalizeIndex_fields {name table : String} {fields : List Field}
    {entry : IndexDef × Nat} {index : Index}
    (h : normalizeIndex name table fields entry = .ok index) :
    ∀ key ∈ index.fields, ∃ field, fields.find? (·.name = key) = some field := by
  simp only [normalizeIndex, do_eq_ok, pure_eq_ok, exists_unit] at h
  obtain ⟨_, columns, hcolumns, _, _, rfl⟩ := h
  intro key hkey
  obtain ⟨column, _, hcolumn⟩ := exists_mapM hcolumns key hkey
  cases hfind : fields.find? (·.name = key) with
  | none =>
      rw [hfind] at hcolumn
      cases hcolumn
  | some field => exact ⟨field, rfl⟩

theorem normalizeEntity_resolved {defs : List (String × Definition)} {name : String}
    {definition : Definition} {db : EntityDb} {entity : Entity}
    (h : normalizeEntity defs name definition db = .ok entity) : ResolvedEntity entity := by
  simp only [normalizeEntity, do_eq_ok, pure_eq_ok, exists_unit, failIf_eq_ok, not_not] at h
  obtain ⟨_, _, _, _, _, fields, _, hcolumns, hkeys, indexes, hindexes, _, checks, _, hchecks,
    rfl⟩ := h
  refine ⟨hcolumns, hchecks, ?_, ?_⟩
  · intro key hkey
    have hfound := (forM_eq_ok _).mp hkeys key hkey
    rw [failIf_eq_ok, Bool.not_eq_true, Option.isNone_eq_false_iff, Option.isSome_iff_exists]
      at hfound
    exact hfound
  · intro i hi
    obtain ⟨entry, _, hentry⟩ := exists_of_mapM hindexes i hi
    exact normalizeIndex_fields hentry

/-- **What is distinct in an accepted schema**: the tables and the indexes; and every
entity is resolved. -/
theorem normalizeSchema_distinct {schema : Schema} {model : Model}
    (h : normalizeSchema schema = .ok model) :
    (model.entities.map (·.table)).Nodup
      ∧ (model.entities.flatMap fun e => e.indexes.map (·.name)).Nodup
      ∧ ∀ e ∈ model.entities, ResolvedEntity e := by
  simp only [normalizeSchema, do_eq_ok, pure_eq_ok, exists_unit, failIf_eq_ok, not_not] at h
  obtain ⟨_, defs, _, root, _, _, _, entities, hentities, _, _, htables, hindexes, rfl⟩ := h
  refine ⟨htables, hindexes, ?_⟩
  intro e he
  obtain ⟨entry, _, hentry⟩ := exists_of_mapM hentities e he
  exact normalizeEntity_resolved hentry

/-- A schema that normalizes to a model with a property that can be computed. -/
theorem exists_model {schema : Schema} (p : Model → Prop) [DecidablePred p]
    (h : (normalizeSchema schema).toOption.any (fun model => p model) = true) :
    ∃ model, normalizeSchema schema = .ok model ∧ p model := by
  cases hmodel : normalizeSchema schema with
  | error e =>
      rw [hmodel] at h
      cases h
  | ok model =>
      rw [hmodel] at h
      exact ⟨model, rfl, of_decide_eq_true h⟩

end ClipTown.SchemaOrm
