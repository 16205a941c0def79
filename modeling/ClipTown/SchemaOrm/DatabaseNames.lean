/-
  ClipTown.SchemaOrm.DatabaseNames — the names of the emitted PostgreSQL file
  (`normalizeSchema` of `tools/schema-orm/core.mjs`, `generateSql` of `sql.mjs`).

  The normalizer checks the tables, the indexes and the checks of a table for
  equal names, each kind for itself.  The names of the enum checks are made
  later, and PostgreSQL keeps 63 bytes of a name.

    • `noNameCollides_iff` — no two names of the file collide iff the kinds do not
      meet and no name is cut to another.
-/
import ClipTown.Lib.StoredNames
import ClipTown.SchemaOrm.EmittedLines

namespace ClipTown.SchemaOrm

open Checks StoredNames

/-! ## §1. The names of a model. -/

/-- `NAMEDATALEN - 1`, what PostgreSQL keeps of an identifier. -/
def identifierBytes : ℕ := 63

/-- The names of the enum checks of an entity. -/
def Entity.enumCheckNames (entity : Entity) : List String :=
  (entity.fields.filter (·.property.enum ≠ [])).map (enumCheckName entity)

/-- The names of the explicit checks of an entity. -/
def Entity.checkNames (entity : Entity) : List String := entity.checks.map (·.name)

/-- The tables of a model. -/
def Model.tables (model : Model) : List String := model.entities.map (·.table)

/-- The indexes of a model. -/
def Model.indexNames (model : Model) : List String :=
  model.entities.flatMap fun e => e.indexes.map (·.name)

/-- The two kinds of constraints of a table do not meet, nor do the tables and the indexes;
and no long name is cut to another of its kind. -/
structure NamesApart (model : Model) : Prop where
  constraints : ∀ e ∈ model.entities, ∀ name ∈ e.enumCheckNames, ∀ name' ∈ e.checkNames,
    stored identifierBytes name ≠ stored identifierBytes name'
  enumChecks : ∀ e ∈ model.entities, KeptApart identifierBytes e.enumCheckNames
  checks : ∀ e ∈ model.entities, KeptApart identifierBytes e.checkNames
  relations : ∀ name ∈ model.tables, ∀ name' ∈ model.indexNames,
    stored identifierBytes name ≠ stored identifierBytes name'
  tables : KeptApart identifierBytes model.tables
  indexes : KeptApart identifierBytes model.indexNames

instance : DecidablePred NamesApart := fun model =>
  decidable_of_iff ((∀ e ∈ model.entities,
        (∀ name ∈ e.enumCheckNames, ∀ name' ∈ e.checkNames,
            stored identifierBytes name ≠ stored identifierBytes name')
          ∧ KeptApart identifierBytes e.enumCheckNames ∧ KeptApart identifierBytes e.checkNames)
      ∧ (∀ name ∈ model.tables, ∀ name' ∈ model.indexNames,
            stored identifierBytes name ≠ stored identifierBytes name')
      ∧ KeptApart identifierBytes model.tables ∧ KeptApart identifierBytes model.indexNames)
    ⟨fun h => ⟨fun e he => (h.1 e he).1, fun e he => (h.1 e he).2.1, fun e he => (h.1 e he).2.2,
        h.2.1, h.2.2.1, h.2.2.2⟩,
      fun h => ⟨fun e he => ⟨h.constraints e he, h.enumChecks e he, h.checks e he⟩, h.relations,
        h.tables, h.indexes⟩⟩

/-- In the file the constraints of every table are distinct, and so are the tables and
indexes, as they are written and as PostgreSQL keeps them. -/
def NoNameCollides (lines : List Sql) : Prop :=
  (∀ line ∈ lines, Distinct identifierBytes ((line.filterMap readConstraint).map (·.1)))
    ∧ Distinct identifierBytes (createdTables lines ++ createdIndexes lines)

instance : DecidablePred NoNameCollides := fun lines => by
  unfold NoNameCollides; infer_instance

/-! ## §2. What the normalizer makes distinct. -/

/-- Distinct columns have distinct checks. -/
theorem nodup_enumCheckNames {entity : Entity} (h : ResolvedEntity entity) :
    entity.enumCheckNames.Nodup := by
  have hcolumns : ((entity.fields.filter (·.property.enum ≠ [])).map (·.column)).Nodup :=
    h.columns.sublist (List.filter_sublist.map _)
  have hinj : Function.Injective fun column => entity.table ++ "_" ++ column ++ "_chk" := by
    intro a b heq
    have hchars := congrArg String.toList heq
    simp only [String.toList_append, List.append_cancel_right_eq, List.append_cancel_left_eq]
      at hchars
    exact String.toList_inj.mp hchars
  have hnames := hcolumns.map hinj
  rwa [List.map_map] at hnames

/-- The constraints of an entity, in the order of the file. -/
theorem map_emittedConstraints (entity : Entity) :
    (emittedConstraints entity).map (·.1) = entity.enumCheckNames ++ entity.checkNames := by
  unfold emittedConstraints
  rw [List.map_append, List.map_map, List.map_map]
  rfl

/-- The constraints of an entity are distinct iff its two kinds are apart. -/
theorem distinct_constraints {entity : Entity} (h : ResolvedEntity entity) :
    Distinct identifierBytes ((emittedConstraints entity).map (·.1))
      ↔ KeptApart identifierBytes entity.enumCheckNames
        ∧ KeptApart identifierBytes entity.checkNames
        ∧ ∀ name ∈ entity.enumCheckNames, ∀ name' ∈ entity.checkNames,
            stored identifierBytes name ≠ stored identifierBytes name' := by
  have hchecks : entity.checkNames.Nodup := h.checks
  rw [map_emittedConstraints, distinct_append_iff, distinct_iff (nodup_enumCheckNames h),
    distinct_iff hchecks]

/-! ## §3. The names of the file. -/

section

variable (localeLe : String → String → Bool)

/-- **When no name collides.** -/
theorem noNameCollides_iff {schema : Schema} {model : Model}
    (h : normalizeSchema schema = .ok model) {lines : List Sql}
    (hlines : sqlLines localeLe model .postgres = .ok lines) :
    NoNameCollides lines ↔ NamesApart model := by
  have hdistinct := normalizeSchema_distinct h
  have hperm := topologicalEntities_perm localeLe (normalizeSchema_entities h).2.1
  obtain ⟨hmem, hordered⟩ := topologicalEntities_checked localeLe h
  -- the tables and indexes of the file are those of the model
  have hcreated : (createdTables lines ++ createdIndexes lines).Perm
      (model.tables ++ model.indexNames) := by
    have hfile := created_sqlLines localeLe hordered hlines
    rw [hfile.1, hfile.2]
    exact (hperm.map _).append (hperm.flatMap_right _)
  have hrelations : Distinct identifierBytes (createdTables lines ++ createdIndexes lines)
      ↔ Distinct identifierBytes (model.tables ++ model.indexNames) :=
    ⟨fun hd => hd.perm hcreated, fun hd => hd.perm hcreated.symm⟩
  have hconstraints : (∀ line ∈ lines,
        Distinct identifierBytes ((line.filterMap readConstraint).map (·.1)))
      ↔ ∀ e ∈ model.entities, Distinct identifierBytes ((emittedConstraints e).map (·.1)) := by
    constructor
    · intro hall e he
      obtain ⟨line, hline, heq⟩ := exists_constraints_line localeLe hordered hlines e
        ((hmem e).mpr he)
      rw [← heq]
      exact hall line hline
    · intro hall line hline
      rcases constraints_line localeLe hordered hlines line hline with hnil | ⟨e, he, heq⟩
      · rw [hnil]
        exact ⟨List.nodup_nil, List.nodup_nil⟩
      · rw [heq]
        exact hall e ((hmem e).mp he)
  have hnodup : model.tables.Nodup ∧ model.indexNames.Nodup := ⟨hdistinct.1, hdistinct.2.1⟩
  unfold NoNameCollides
  rw [hrelations, hconstraints, distinct_append_iff, distinct_iff hnodup.1,
    distinct_iff hnodup.2]
  constructor
  · intro hall
    obtain ⟨hentities, htables, hindexes, hcross⟩ := hall
    have hparts := fun e he => (distinct_constraints (hdistinct.2.2 e he)).mp (hentities e he)
    exact {
      constraints := fun e he => (hparts e he).2.2
      enumChecks := fun e he => (hparts e he).1
      checks := fun e he => (hparts e he).2.1
      relations := hcross
      tables := htables
      indexes := hindexes }
  · intro hapart
    refine ⟨?_, hapart.tables, hapart.indexes, hapart.relations⟩
    intro e he
    exact (distinct_constraints (hdistinct.2.2 e he)).mpr
      ⟨hapart.enumChecks e he, hapart.checks e he, hapart.constraints e he⟩

end

/-- Jobs with a state out of two, and further indexes and checks. -/
def jobSchema (indexes : List IndexDef) (checks : List CheckDef) : Schema where
  schemaUri := "https://json-schema.org/draft/2020-12/schema"
  libCore := some { product := "cliptown", interfacesRepository := "interfaces" }
  defs := some [("Job", {
    type := "object"
    required := ["id", "state"]
    db := some { table := "jobs", indexes, checks }
    properties := [("id", { types := ["string"] }),
      ("state", { types := ["string"], enum := [.string "open", .string "done"] })] })]

/-- An index and a check with names of their own. -/
theorem noNameCollides_iff_jobs : ∃ model,
    normalizeSchema (jobSchema [{ fields := ["state"] }]
      [{ name := "jobs_id_check", expression := "id > 0" }]) = .ok model
      ∧ ∃ lines, sqlLines (fun a b => a ≤ b) model .postgres = .ok lines
        ∧ NoNameCollides lines := by
  obtain ⟨model, hmodel, hwritten, hapart⟩ := exists_model
    (fun model => (sqlLines (fun a b => a ≤ b) model .postgres).toOption.isSome = true
      ∧ NamesApart model)
    (by decide +kernel : (normalizeSchema (jobSchema [{ fields := ["state"] }]
      [{ name := "jobs_id_check", expression := "id > 0" }])).toOption.any _ = true)
  obtain ⟨lines, hlines⟩ := Option.isSome_iff_exists.mp hwritten
  have hok := eq_ok_of_mem_toOption hlines
  exact ⟨model, hmodel, lines, hok, (noNameCollides_iff _ hmodel hok).mpr hapart⟩

/-- Two names of 64 characters that are the same but for the last. -/
def longName (last : Char) : String := String.ofList (List.replicate 63 'a' ++ [last])

/-- The schema is accepted, and names of its file collide. -/
def AcceptedWithCollision (schema : Schema) : Prop :=
  ∃ model, normalizeSchema schema = .ok model
    ∧ ∃ lines, sqlLines (fun a b => a ≤ b) model .postgres = .ok lines ∧ ¬ NoNameCollides lines

theorem acceptedWithCollision_of_run {schema : Schema}
    (h : (normalizeSchema schema).toOption.any (fun model =>
      decide (∃ lines ∈ (sqlLines (fun a b => a ≤ b) model .postgres).toOption,
        ¬ NoNameCollides lines)) = true) : AcceptedWithCollision schema := by
  obtain ⟨model, hmodel, lines, hlines, hcollide⟩ := exists_model _ h
  exact ⟨model, hmodel, lines, eq_ok_of_mem_toOption hlines, hcollide⟩

/-- The name of the enum check taken by an explicit one, the name of the table taken by an
index, and two checks that PostgreSQL keeps as one. -/
theorem colliding_names_accepted :
    AcceptedWithCollision
        (jobSchema [] [{ name := "jobs_state_chk", expression := "id > 0" }])
      ∧ AcceptedWithCollision (jobSchema [{ fields := ["state"], name := some "jobs" }] [])
      ∧ AcceptedWithCollision
        (jobSchema [] [{ name := longName 'x', expression := "id > 0" },
          { name := longName 'y', expression := "id > 1" }]) := by
  refine ⟨?_, ?_, ?_⟩
  · exact acceptedWithCollision_of_run (by decide +kernel)
  · exact acceptedWithCollision_of_run (by decide +kernel)
  · exact acceptedWithCollision_of_run (by decide +kernel)

end ClipTown.SchemaOrm
