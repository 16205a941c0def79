/-
  ClipTown.SchemaOrm.CreationOrder — the order in which the tables are created
  (`topologicalEntities` of `tools/schema-orm/core.mjs`).

  A round places every entity none of whose references is still to be placed.
  An entity that references itself is never ready by that test, and where a
  round finds no entity ready the WHOLE loop gives up: it returns the entities
  in the order of the schema.

    • `topologicalRounds_spec` — where the rounds end, every entity follows the
      entities it references; where they give up, some entities block each other,
    • `topologicalEntities_eq` — without cycles, the rounds give up iff an entity
      references itself,
    • `createdFirst_of_ordered` — an order of the entities is an order of the
      statements,
    • `topologicalEntities_iff` — when the tables are created before they are
      referenced.
-/
import ClipTown.Lib.DependencyOrder
import ClipTown.SchemaOrm.ConfinedFragments

namespace ClipTown.SchemaOrm

open Checks DependencyOrder

/-! ## §1. References between entities. -/

/-- A field of the entity references the entity of that name. -/
def Entity.RefersTo (entity : Entity) (name : String) : Prop :=
  ∃ field ∈ entity.fields, ∃ r ∈ field.property.db.references, r.entity = name

instance (entity : Entity) (name : String) : Decidable (entity.RefersTo name) := by
  unfold Entity.RefersTo; infer_instance

/-- The reference graph between distinct entities of the model. -/
def Model.Needs (model : Model) (entity target : Entity) : Prop :=
  entity ∈ model.entities ∧ target ∈ model.entities ∧ target ≠ entity
    ∧ entity.RefersTo target.name

/-- In the order, every entity follows every other entity it references. -/
def Model.Ordered (model : Model) (order : List Entity) : Prop :=
  Follows (fun before entity => ∀ target, model.Needs entity target → target ∈ before) [] order

/-- No entity of the model references itself. -/
def Model.NoSelfReference (model : Model) : Prop :=
  ∀ entity ∈ model.entities, ¬ entity.RefersTo entity.name

instance : DecidablePred Model.NoSelfReference := fun model => by
  unfold Model.NoSelfReference; infer_instance

/-! ## §2. The rounds. -/

/-- The readiness test of a round. -/
def isReady (remaining : List Entity) (entity : Entity) : Bool :=
  entity.fields.all fun field =>
    field.property.db.references.all fun r => !(remaining.map (·.name)).contains r.entity

/-- An entity is ready when it references nothing that remains, itself included. -/
theorem isReady_iff {remaining : List Entity} {entity : Entity} :
    isReady remaining entity = true
      ↔ ∀ other ∈ remaining, ¬ entity.RefersTo other.name := by
  unfold isReady Entity.RefersTo
  simp only [List.all_eq_true, Option.all_eq_true, Bool.not_eq_true', List.contains_eq_mem,
    decide_eq_false_iff_not, List.mem_map, not_exists, not_and]
  constructor
  · intro h other hother field hfield r hr heq
    exact h field hfield r hr other hother heq.symm
  · intro h field hfield r hr other hother heq
    exact h other hother field hfield r hr heq.symm

section

variable (localeLe : String → String → Bool)

/-- One round: the ready entities are placed in name order, the others remain. -/
theorem topologicalRounds_succ {fuel : Nat} {remaining result : List Entity}
    (hnames : (remaining.map (·.name)).Nodup) (hne : remaining ≠ []) :
    topologicalRounds localeLe (fuel + 1) remaining result
      = if remaining.filter (isReady remaining) = [] then none
        else topologicalRounds localeLe fuel
          (remaining.filter fun entity => !isReady remaining entity)
          (result ++ (remaining.filter (isReady remaining)).mergeSort
            fun a b => localeLe a.name b.name) := by
  rw [← filter_unplaced hnames (isReady remaining)]
  show (if remaining = [] then some result else _) = _
  rw [if_neg hne]
  rfl

/-- **What the rounds return.**  Either every placed entity follows all that it
references in the model, itself included; or the rounds gave up over entities each of
which references one of them. -/
theorem topologicalRounds_spec {entities : List Entity} {fuel : Nat}
    {remaining result : List Entity} (hnames : (remaining.map (·.name)).Nodup)
    (hfuel : remaining.length ≤ fuel) (hall : (result ++ remaining).Perm entities)
    (hplaced : Follows (fun before entity => ∀ target ∈ entities,
      entity.RefersTo target.name → target ∈ before) [] result) :
    (∃ order, topologicalRounds localeLe fuel remaining result = some order
        ∧ Follows (fun before entity => ∀ target ∈ entities,
            entity.RefersTo target.name → target ∈ before) [] order)
      ∨ (topologicalRounds localeLe fuel remaining result = none
        ∧ ∃ stuck, stuck ≠ [] ∧ (∀ entity ∈ stuck, entity ∈ entities)
          ∧ ∀ entity ∈ stuck, ∃ other ∈ stuck, entity.RefersTo other.name) := by
  induction fuel generalizing remaining result with
  | zero =>
      have hnil : remaining = [] := List.length_eq_zero_iff.mp (by omega)
      subst hnil
      exact .inl ⟨result, rfl, hplaced⟩
  | succ fuel ih =>
      by_cases hne : remaining = []
      · subst hne
        exact .inl ⟨result, rfl, hplaced⟩
      rw [topologicalRounds_succ localeLe hnames hne]
      by_cases hready : remaining.filter (isReady remaining) = []
      · -- nothing is ready: what remains blocks itself
        rw [if_pos hready]
        refine .inr ⟨rfl, remaining, hne, ?_, ?_⟩
        · intro entity hentity
          exact hall.mem_iff.mp (List.mem_append_right result hentity)
        · intro entity hentity
          have hnot := List.filter_eq_nil_iff.mp hready entity hentity
          rw [isReady_iff] at hnot
          push Not at hnot
          exact hnot
      · rw [if_neg hready]
        obtain ⟨first, hfirst⟩ := List.exists_mem_of_ne_nil _ hready
        obtain ⟨hin, hfirstReady⟩ := List.mem_filter.mp hfirst
        refine ih (hnames.sublist (List.filter_sublist.map _)) ?_ ?_ ?_
        · -- the round has placed one entity at least
          have hlt : (remaining.filter fun entity => !isReady remaining entity).length
              < remaining.length := by
            refine List.length_filter_lt_length_iff_exists.mpr ⟨first, hin, ?_⟩
            simp [hfirstReady]
          omega
        · refine List.Perm.trans ?_ hall
          rw [List.append_assoc]
          refine List.Perm.append_left result ?_
          exact ((List.mergeSort_perm _ _).append_right _).trans (List.filter_append_perm _ _)
        · refine follows_append.mpr ⟨hplaced, follows_of_forall ?_⟩
          intro entity hentity more target htarget hrefers
          rw [List.mem_mergeSort, List.mem_filter, isReady_iff] at hentity
          -- what a ready entity references is not among the remaining, so it is placed
          rcases List.mem_append.mp (hall.mem_iff.mpr htarget) with hdone | hleft
          · exact List.mem_append_left more (List.mem_append_right [] hdone)
          · exact absurd hrefers (hentity.2 target hleft)

/-- The same from the start of the rounds. -/
theorem topologicalRounds_model {model : Model} (hnames : (model.entities.map (·.name)).Nodup) :
    (∃ order, topologicalRounds localeLe model.entities.length model.entities [] = some order
        ∧ Follows (fun before entity => ∀ target ∈ model.entities,
            entity.RefersTo target.name → target ∈ before) [] order)
      ∨ (topologicalRounds localeLe model.entities.length model.entities [] = none
        ∧ ∃ stuck, stuck ≠ [] ∧ (∀ entity ∈ stuck, entity ∈ model.entities)
          ∧ ∀ entity ∈ stuck, ∃ other ∈ stuck, entity.RefersTo other.name) :=
  topologicalRounds_spec localeLe hnames (le_refl _) (List.Perm.refl model.entities) trivial

/-- Without cycles and without self-references the rounds put every entity after those
it references. -/
theorem topologicalEntities_ordered {model : Model} (hnames : (model.entities.map (·.name)).Nodup)
    (hacyclic : Acyclic model.Needs) (hself : model.NoSelfReference) :
    model.Ordered (topologicalEntities localeLe model) := by
  rcases topologicalRounds_model localeLe hnames with
    ⟨order, horder, hfollows⟩ | ⟨_, stuck, hne, hin, hblock⟩
  · unfold topologicalEntities
    rw [horder]
    refine hfollows.mono ?_
    intro entity _ before hall target hneeds
    exact hall target hneeds.2.1 hneeds.2.2.2
  · -- among the entities that are stuck some one references no other
    obtain ⟨entity, hentity, hsink⟩ := exists_sink hacyclic hne
    obtain ⟨other, hother, hrefers⟩ := hblock entity hentity
    by_cases heq : other = entity
    · exact absurd (heq ▸ hrefers) (hself entity (hin entity hentity))
    · exact absurd ⟨hin entity hentity, hin other hother, heq, hrefers⟩ (hsink other hother)

/-- One self-reference makes the rounds give up: the order is that of the schema. -/
theorem topologicalEntities_eq {model : Model} (hnames : (model.entities.map (·.name)).Nodup)
    {entity : Entity} (hentity : entity ∈ model.entities)
    (hself : entity.RefersTo entity.name) :
    topologicalEntities localeLe model = model.entities := by
  rcases topologicalRounds_model localeLe hnames with ⟨order, horder, hfollows⟩ | ⟨hnone, _⟩
  · -- it would have to follow itself
    have hperm := topologicalRounds_perm localeLe hnames horder
    obtain ⟨pre, post, hsplit, hok⟩ := hfollows.exists_split (hperm.mem_iff.mpr hentity)
    have hnodup : order.Nodup := hperm.nodup_iff.mpr hnames.of_map
    rw [hsplit, List.nodup_append] at hnodup
    exact absurd rfl (hnodup.2.2 entity (hok entity hentity hself) entity List.mem_cons_self)
  · unfold topologicalEntities
    rw [hnone]
    rfl

/-- The rounds order the entities, or leave them as the schema lists them. -/
theorem ordered_of_listed {model : Model} (hnames : (model.entities.map (·.name)).Nodup)
    (hacyclic : Acyclic model.Needs)
    (h : model.NoSelfReference ∨ model.Ordered model.entities) :
    model.Ordered (topologicalEntities localeLe model) := by
  by_cases hself : model.NoSelfReference
  · exact topologicalEntities_ordered localeLe hnames hacyclic hself
  · have hlisted := h.resolve_left hself
    unfold Model.NoSelfReference at hself
    push Not at hself
    obtain ⟨entity, hentity, hrefers⟩ := hself
    rw [topologicalEntities_eq localeLe hnames hentity hrefers]
    exact hlisted

/-- Where the rounds order the entities, none references itself or they are listed so. -/
theorem listed_of_ordered {model : Model} (hnames : (model.entities.map (·.name)).Nodup)
    (h : model.Ordered (topologicalEntities localeLe model)) :
    model.NoSelfReference ∨ model.Ordered model.entities := by
  by_cases hself : model.NoSelfReference
  · exact .inl hself
  · -- the rounds give up, and the order is the one the schema has
    right
    unfold Model.NoSelfReference at hself
    push Not at hself
    obtain ⟨entity, hentity, hrefers⟩ := hself
    rwa [topologicalEntities_eq localeLe hnames hentity hrefers] at h

/-! ## §3. The statements. -/

/-- A table that a line references is created by a line before it. -/
def ReferencesCreated (before : List Sql) (line : Sql) : Prop :=
  ∀ read ∈ line.references, read.1 ∈ createdTables before

instance (before : List Sql) (line : Sql) : Decidable (ReferencesCreated before line) := by
  unfold ReferencesCreated; infer_instance

/-- Every table is created before it is referenced. -/
def CreatedFirst (lines : List Sql) : Prop := Follows ReferencesCreated [] lines

instance (lines : List Sql) : Decidable (CreatedFirst lines) := by
  unfold CreatedFirst; infer_instance

/-- The same of the references that the emitter writes itself. -/
def TargetsCreated (before : List Sql) (line : Sql) : Prop :=
  ∀ read ∈ line.filterMap readReference, read.1 ∈ createdTables before

theorem follows_of_namesNothing {before lines : List Sql}
    (h : ∀ line ∈ lines, NamesNothing line) : Follows TargetsCreated before lines := by
  refine follows_of_forall ?_
  intro line hline more read hread
  rw [(h line hline).1] at hread
  cases hread

/-- The lines of one entity, where what it references is created. -/
theorem follows_entityLines {model : Model} {dialect : Dialect} {entity : Entity}
    {before lines : List Sql} (hmodel : ∀ e ∈ model.entities, CheckedEntity e)
    (hentity : CheckedEntity entity) (h : entityLines model dialect entity = .ok lines)
    (hcreated : ∀ target ∈ model.entities, target ≠ entity → entity.RefersTo target.name →
      target.table ∈ createdTables before) :
    Follows TargetsCreated before lines := by
  obtain ⟨clauses, indexes, hclauses, hindexes, rfl⟩ := entityLines_eq h
  have hothers := namesNothing_entityLines hindexes
  have hshape : commentLines entity
        ++ [createLine entity, join ",\n" clauses, [.text ");"], [.text ""]]
        ++ indexes ++ blankLines entity
      = (commentLines entity ++ [createLine entity])
        ++ (join ",\n" clauses
          :: ([[.text ");"], [.text ""]] ++ indexes ++ blankLines entity)) := by
    simp
  rw [hshape, follows_append]
  refine ⟨follows_of_namesNothing hothers.1, ?_, follows_of_namesNothing hothers.2⟩
  -- the clauses: each foreign key is of this table, or of one that was created before
  intro read hread
  rw [references_clauses hmodel hentity hclauses, List.mem_flatMap] at hread
  obtain ⟨field, hfield, hread⟩ := hread
  obtain ⟨target, htarget, rfl⟩ := List.mem_map.mp hread
  obtain ⟨r, hr, hfound, _⟩ := resolveReference_eq_some.mp (Option.mem_toList.mp htarget)
  have hname : target.1.name = r.entity := by simpa using List.find?_some hfound
  rw [createdTables_append, createdTables_append, List.mem_append, List.mem_append]
  by_cases hown : target.1 = entity
  · right
    right
    show target.1.table ∈ createdTables [createLine entity]
    unfold createdTables
    rw [List.filterMap_cons_some (lineTable_createLine hentity).1, hown]
    exact List.mem_cons_self
  · left
    exact hcreated target.1 (List.mem_of_find?_eq_some hfound) hown
      ⟨field, hfield, r, hr, hname.symm⟩

/-- The lines of a list of entities in order. -/
theorem follows_blocks {model : Model} {dialect : Dialect} {order placed : List Entity}
    {blocks : List (List Sql)} {before : List Sql}
    (hmodel : ∀ e ∈ model.entities, CheckedEntity e)
    (horder : ∀ e ∈ order, e ∈ model.entities)
    (h : order.mapM (entityLines model dialect) = .ok blocks)
    (hordered : Follows (fun before entity => ∀ target, model.Needs entity target →
      target ∈ before) placed order)
    (hplaced : ∀ e ∈ placed, e.table ∈ createdTables before) :
    Follows TargetsCreated before blocks.flatten := by
  induction order generalizing placed before blocks with
  | nil =>
      rw [List.mapM_nil, pure_eq_ok] at h
      subst h
      trivial
  | cons entity order ih =>
      rw [List.mapM_cons, do_eq_ok] at h
      obtain ⟨block, hblock, h⟩ := h
      rw [do_eq_ok] at h
      obtain ⟨rest, hrest, h⟩ := h
      rw [pure_eq_ok] at h
      subst h
      have hin := horder entity List.mem_cons_self
      rw [List.flatten_cons, follows_append]
      constructor
      · refine follows_entityLines hmodel (hmodel entity hin) hblock ?_
        intro target htarget hne hrefers
        exact hplaced target (hordered.1 target ⟨hin, htarget, hne, hrefers⟩)
      · -- the entity joins those whose table the lines before have created
        refine ih (fun e he => horder e (List.mem_cons_of_mem entity he)) hrest hordered.2 ?_
        intro e he
        rw [createdTables_append, List.mem_append]
        rcases List.mem_append.mp he with he | he
        · exact .inl (hplaced e he)
        · right
          rw [List.mem_singleton.mp he, (created_entityLines (hmodel entity hin) hblock).1]
          exact List.mem_cons_self

/-- **An order of the entities is an order of the statements.** -/
theorem createdFirst_of_ordered {model : Model} {dialect : Dialect} {lines : List Sql}
    (hmodel : ∀ e ∈ model.entities, CheckedEntity e)
    (hnames : (model.entities.map (·.name)).Nodup) (hconfined : model.Confined dialect)
    (hordered : model.Ordered (topologicalEntities localeLe model))
    (h : sqlLines localeLe model dialect = .ok lines) : CreatedFirst lines := by
  have hunmarked := hconfined.line hmodel hnames h
  have htargets : Follows TargetsCreated [] lines := by
    obtain ⟨blocks, hblocks, rfl⟩ := sqlLines_eq localeLe h
    have hperm := topologicalEntities_perm localeLe hnames
    refine follows_append.mpr ⟨follows_of_namesNothing namesNothing_header, ?_⟩
    refine follows_blocks hmodel (fun e he => hperm.mem_iff.mp he) hblocks hordered ?_
    intro e he
    cases he
  refine htargets.mono ?_
  intro line hline before hcreated
  unfold ReferencesCreated
  rw [(hunmarked line hline).references_eq]
  exact hcreated

/-! ## §4. When the tables are created in order. -/

/-- The order is a permutation of the entities; and where the references between distinct
entities have no cycle, every entity follows those it references, and no table is
referenced before it is created. -/
def TablesInOrder (model : Model) : Prop :=
  (topologicalEntities localeLe model).Perm model.entities
    ∧ (Acyclic model.Needs →
        model.Ordered (topologicalEntities localeLe model)
          ∧ ∀ dialect lines, sqlLines localeLe model dialect = .ok lines → CreatedFirst lines)

/-- **When the tables are created in order.**  Where no fragment is read past its clause,
and without cycles between distinct entities, iff no entity references itself or the schema
already lists the entities in order. -/
theorem topologicalEntities_iff {schema : Schema} {model : Model}
    (h : normalizeSchema schema = .ok model) (hconfined : ∀ dialect, model.Confined dialect) :
    TablesInOrder localeLe model
      ↔ (Acyclic model.Needs → model.NoSelfReference ∨ model.Ordered model.entities) := by
  have hchecked := normalizeSchema_entities h
  have hperm := topologicalEntities_perm localeLe hchecked.2.1
  constructor
  · intro hinorder hacyclic
    exact listed_of_ordered localeLe hchecked.2.1 (hinorder.2 hacyclic).1
  · intro hcondition
    refine ⟨hperm, ?_⟩
    intro hacyclic
    have hordered : model.Ordered (topologicalEntities localeLe model) :=
      ordered_of_listed localeLe hchecked.2.1 hacyclic (hcondition hacyclic)
    refine ⟨hordered, ?_⟩
    intro dialect lines hlines
    exact createdFirst_of_ordered localeLe hchecked.2.2 hchecked.2.1 (hconfined dialect) hordered
      hlines

end

/-- Notes in folders, where the folders are listed last; a note may answer a note. -/
def folderSchema (answers : List (String × Property)) : Schema where
  schemaUri := "https://json-schema.org/draft/2020-12/schema"
  libCore := some { product := "cliptown", interfacesRepository := "interfaces" }
  defs := some [
    ("Note", {
      type := "object"
      required := ["id"]
      db := some { table := "notes" }
      properties := [("id", { types := ["string"] }), ("folder", {
        types := ["string"]
        db := { references := some { entity := "Folder", field := "id" } } })] ++ answers }),
    ("Folder", {
      type := "object"
      required := ["id"]
      db := some { table := "folders" }
      properties := [("id", {
        types := ["string"]
        db := { default := some "gen_random_uuid()" } })] })]

/-- The notes that answer notes. -/
def answersProperty : String × Property :=
  ("answers", {
    types := ["string"]
    db := { references := some { entity := "Note", field := "id" } } })

/-- Where no note answers a note, the folders are created first. -/
theorem topologicalEntities_iff_folders : ∃ model, normalizeSchema (folderSchema []) = .ok model
    ∧ TablesInOrder (fun a b => a ≤ b) model := by
  obtain ⟨model, hmodel, hself, hconfined⟩ := exists_model
    (fun model => model.NoSelfReference ∧ ∀ dialect, model.Confined dialect)
    (by decide +kernel : (normalizeSchema (folderSchema [])).toOption.any _ = true)
  exact ⟨model, hmodel, (topologicalEntities_iff _ hmodel hconfined).mpr fun _ => .inl hself⟩

/-- A note that answers a note puts the notes before the folders they reference. -/
theorem selfReference_unordered : ∃ model,
    normalizeSchema (folderSchema [answersProperty]) = .ok model
      ∧ Acyclic model.Needs
      ∧ ¬ model.Ordered (topologicalEntities (fun a b => a ≤ b) model)
      ∧ ∃ lines, sqlLines (fun a b => a ≤ b) model .postgres = .ok lines
        ∧ ¬ CreatedFirst lines := by
  obtain ⟨model, hmodel, hconfined, hrefers, hlines⟩ := exists_model
    (fun model => model.Confined .postgres
      ∧ (∀ e ∈ model.entities, ∀ t ∈ model.entities, e.RefersTo t.name →
        t.name = e.name ∨ (e.name = "Note" ∧ t.name = "Folder"))
      ∧ ∃ lines ∈ (sqlLines (fun a b => a ≤ b) model .postgres).toOption, ¬ CreatedFirst lines)
    (by decide +kernel : (normalizeSchema (folderSchema [answersProperty])).toOption.any _ = true)
  have hchecked := normalizeSchema_entities hmodel
  have hacyclic : Acyclic model.Needs := by
    refine acyclic_of_rank (fun e => if e.name = "Note" then 1 else 0) ?_
    intro e t hneeds
    obtain ⟨he, ht, hne, hrefersTo⟩ := hneeds
    rcases hrefers e he t ht hrefersTo with hname | ⟨hnote, hfolder⟩
    · exact absurd (List.inj_on_of_nodup_map hchecked.2.1 ht he hname) hne
    · rw [if_pos hnote, hfolder]
      decide
  obtain ⟨lines, hok, hnot⟩ := hlines
  have hsql := eq_ok_of_mem_toOption hok
  refine ⟨model, hmodel, hacyclic, ?_, lines, hsql, hnot⟩
  intro hordered
  exact hnot (createdFirst_of_ordered _ hchecked.2.2 hchecked.2.1 hconfined hordered hsql)

end ClipTown.SchemaOrm
