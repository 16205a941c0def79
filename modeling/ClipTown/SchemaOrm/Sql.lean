/-
  ClipTown.SchemaOrm.Sql — the SQL emitter (`tools/schema-orm/sql.mjs`, and
  `topologicalEntities` of `core.mjs`).

  The emitter writes text that remembers where the schema's own SQL fragments
  stand: `Sql` is a list of pieces, and the file is their concatenation
  (`Sql.render`).
-/
import ClipTown.SchemaOrm.Schema

namespace ClipTown.SchemaOrm

/-! ## §1. Text with fragments. -/

/-- Where a fragment is spliced: `default e`, `check (e)` or `where e;`. -/
inductive Clause where
  | default
  | check
  | where_
  deriving DecidableEq, Repr

inductive Piece where
  | text (s : String)
  | fragment (clause : Clause) (s : String)
  deriving DecidableEq, Repr

abbrev Sql := List Piece

def Piece.render : Piece → List Char
  | .text s => s.toList
  | .fragment _ s => s.toList

def Sql.render (sql : Sql) : List Char := sql.flatMap Piece.render

/-- Put a text before the first piece. -/
def prepend (s : String) : Sql → Sql
  | .text t :: rest => .text (s ++ t) :: rest
  | sql => .text s :: sql

/-- `join`. -/
def join (separator : String) : List Sql → Sql
  | [] => []
  | first :: rest => first ++ rest.flatMap (prepend separator)

/-! ## §2. Types and literals. -/

inductive Dialect where
  | postgres
  | sqlite
  deriving DecidableEq, Repr

def Dialect.name : Dialect → String
  | .postgres => "postgres"
  | .sqlite => "sqlite"

/-- `postgresType`. -/
def postgresType (field : Field) : Result String :=
  match field.property.db.postgresType.filter (· ≠ "") with
  | some type => .ok type
  | none =>
      let property := field.property
      match field.kind with
      | "string" =>
          if property.format = some "uuid" then .ok "uuid"
          else if property.format = some "date-time" then .ok "timestamptz"
          else
            match property.maxLength with
            | some n =>
                if n ≤ 10000000 then .ok ("varchar(" ++ toString n ++ ")") else .ok "text"
            | none => .ok "text"
      | "integer" => .ok (if property.format = some "int32" then "integer" else "bigint")
      | "number" => .ok "double precision"
      | "boolean" => .ok "boolean"
      | "object" => .ok "jsonb"
      | "array" => .ok "jsonb"
      | kind => fail ("unsupported PostgreSQL type for " ++ field.name ++ ": " ++ kind)

/-- `sqliteType`. -/
def sqliteType (field : Field) : String :=
  match field.property.db.sqliteType.filter (· ≠ "") with
  | some type => type
  | none =>
      if field.kind = "integer" ∨ field.kind = "boolean" then "integer"
      else if field.kind = "number" then "real"
      else "text"

def columnType (dialect : Dialect) (field : Field) : Result String :=
  match dialect with
  | .postgres => postgresType field
  | .sqlite => .ok (sqliteType field)

/-- A text in single quotes, its own quotes doubled. -/
def quoteLiteral (s : String) : String :=
  String.ofList ('\'' :: (SqlLexer.doubled s.toList ++ ['\'']))

/-- `sqlLiteral`. -/
def sqlLiteral : Value → String
  | .string s => quoteLiteral s
  | .boolean b => if b then "true" else "false"
  | .number n => n.text
  | .null => "null"
  | .other stringified => quoteLiteral stringified ++ "::jsonb"

/-- The SQLite stand-in for `gen_random_uuid()`. -/
def sqliteUuid : String :=
  "(lower(hex(randomblob(4))) || '-' || lower(hex(randomblob(2))) || '-4' || "
    ++ "substr(lower(hex(randomblob(2))), 2) || '-' || "
    ++ "substr('89ab', abs(random()) % 4 + 1, 1) || "
    ++ "substr(lower(hex(randomblob(2))), 2) || '-' || lower(hex(randomblob(6))))"

/-- `sqlDefault`: a fragment of the schema, or text of the emitter's own. -/
def sqlDefault (field : Field) (dialect : Dialect) : Option Piece :=
  match field.property.db.defaultByDialect.bind (·.lookup dialect.name) with
  | some expression => some (.fragment .default expression)
  | none =>
      match field.property.db.default with
      | some expression =>
          if dialect = .sqlite ∧ expression = "gen_random_uuid()" then some (.text sqliteUuid)
          else some (.fragment .default expression)
      | none =>
          field.property.default.map fun value =>
            if dialect = .sqlite ∧ (field.kind = "object" ∨ field.kind = "array") then
              .text (quoteLiteral field.property.defaultJson)
            else .text (sqlLiteral value)

/-! ## §3. Statements. -/

/-- One action of a reference; an empty text counts as absent. -/
def actionPieces (keyword : String) (action : Option String) : List Sql :=
  match action with
  | some a => if a = "" then [] else [[.text (keyword ++ " " ++ a)]]
  | none => []

/-- The `references` part of a column: a target that is no table or no field of it has
no column to read. -/
def referencePieces (model : Model) (reference : Option Reference) : Result (List Sql) :=
  match reference with
  | none => .ok []
  | some r =>
      match model.entity r.entity with
      | none => .error .typeError
      | some target =>
          match target.field r.field with
          | none => .error .typeError
          | some targetField => .ok
              ([[.text ("references " ++ target.table ++ " (" ++ targetField.column ++ ")")]]
                ++ actionPieces "on update" r.onUpdate ++ actionPieces "on delete" r.onDelete)

/-- The `default` part of a column; an empty default is left out. -/
def defaultPieces (field : Field) (dialect : Dialect) : List Sql :=
  match sqlDefault field dialect with
  | some piece => if piece.render = [] then [] else [[.text "default ", piece]]
  | none => []

/-- `sqlColumn`. -/
def sqlColumn (model : Model) (dialect : Dialect) (field : Field) : Result Sql := do
  let type ← columnType dialect field
  let references ← referencePieces model field.property.db.references
  return join " "
    ([[.text ("  " ++ field.column ++ " " ++ type)]]
      ++ (if field.nullable then [] else [[.text "not null"]])
      ++ defaultPieces field dialect
      ++ (if field.property.db.unique then [[.text "unique"]] else [])
      ++ references)

/-- The columns of fields given by name. -/
def columnNames (entity : Entity) (names : List String) : Result (List String) :=
  names.mapM fun name =>
    match entity.field name with
    | some field => .ok field.column
    | none => .error .typeError

/-- The check of an enum. -/
def enumCheck (entity : Entity) (field : Field) : List Sql :=
  if field.property.enum = [] then []
  else
    [[.text ("  constraint " ++ entity.table ++ "_" ++ field.column ++ "_chk check ("
      ++ field.column ++ " in ("
      ++ String.intercalate ", " (field.property.enum.map sqlLiteral) ++ "))")]]

/-- The clauses of a `create table`. -/
def tableClauses (model : Model) (dialect : Dialect) (entity : Entity) : Result (List Sql) := do
  let columns ← entity.fields.mapM (sqlColumn model dialect)
  let primaryKey ← columnNames entity entity.primaryKey
  return columns
    ++ [[.text ("  primary key (" ++ String.intercalate ", " primaryKey ++ ")")]]
    ++ entity.fields.flatMap (enumCheck entity)
    ++ entity.checks.map fun check =>
        [.text ("  constraint " ++ check.name ++ " check ("),
          .fragment .check check.expression, .text ")"]

/-- The statement of an index. -/
def indexLine (entity : Entity) (index : Index) : Result Sql := do
  let columns ← columnNames entity index.fields
  return [.text ("create " ++ (if index.unique then "unique " else "") ++ "index if not exists "
        ++ index.name ++ " on " ++ entity.table ++ " (" ++ String.intercalate ", " columns ++ ")")]
    ++ (match index.where_ with
        | some predicate =>
            if predicate = "" then [] else [.text " where ", .fragment .where_ predicate]
        | none => [])
    ++ [.text ";"]

/-- `/[\r\n\u2028\u2029]+/gu`, by a blank. -/
def flattenLines : Bool → List Char → List Char
  | _, [] => []
  | inRun, c :: rest =>
      if c ∈ ['\r', '\n', '\u2028', '\u2029'] then
        (if inRun then flattenLines true rest else ' ' :: flattenLines true rest)
      else c :: flattenLines false rest

/-- The lines of an entity. -/
def entityLines (model : Model) (dialect : Dialect) (entity : Entity) : Result (List Sql) := do
  let clauses ← tableClauses model dialect entity
  let indexes ← entity.indexes.mapM (indexLine entity)
  return (if entity.description = "" then []
      else [[.text ("-- " ++ String.ofList (flattenLines false entity.description.toList))]])
    ++ [[.text ("create table if not exists " ++ entity.table ++ " (")], join ",\n" clauses,
        [.text ");"], [.text ""]]
    ++ indexes
    ++ (if entity.indexes = [] then [] else [[.text ""]])

/-! ## §4. The file. -/

section

variable (localeLe : String → String → Bool)

/-- The rounds of `topologicalEntities`: take every entity whose references are placed,
in name order; where none is ready, give up. -/
def topologicalRounds : Nat → List Entity → List Entity → Option (List Entity)
  | 0, remaining, result => if remaining = [] then some result else none
  | fuel + 1, remaining, result =>
      if remaining = [] then some result
      else
        let ready := remaining.filter fun entity =>
          entity.fields.all fun field =>
            field.property.db.references.all fun r => !(remaining.map (·.name)).contains r.entity
        if ready = [] then none
        else
          topologicalRounds fuel
            (remaining.filter fun entity => !(ready.map (·.name)).contains entity.name)
            (result ++ ready.mergeSort fun a b => localeLe a.name b.name)

/-- `topologicalEntities`. -/
def topologicalEntities (model : Model) : List Entity :=
  (topologicalRounds localeLe model.entities.length model.entities []).getD model.entities

/-- `GENERATED_HEADER`. -/
def generatedHeader : String := "Generated by tools/schema-orm-codegen.mjs. DO NOT EDIT."

/-- The lines of the file. -/
def sqlLines (model : Model) (dialect : Dialect) : Result (List Sql) := do
  let blocks ← (topologicalEntities localeLe model).mapM (entityLines model dialect)
  return [[.text ("-- " ++ generatedHeader)], [.text ("-- Product: " ++ model.product)],
      [.text ("-- Dialect: " ++ dialect.name)], [.text ""]]
    ++ blocks.flatten

/-- The white space at the end of a text, dropped. -/
def trimEnd (text : List Char) : List Char :=
  (text.reverse.dropWhile (· ∈ whitespace)).reverse

/-- `generateSql`. -/
def generateSql (model : Model) (dialect : Dialect) : Result (List Char) := do
  let lines ← sqlLines localeLe model dialect
  return trimEnd (join "\n" lines).render ++ ['\n']

end

end ClipTown.SchemaOrm
