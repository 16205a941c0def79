/-
  ClipTown.SchemaOrm.ConfinedFragments — fragments that neither database reads
  past their clause, and what a default that is none of these adds to its column.

  `Contained` goes by the rules for literals and quoted names.  Each database has
  more: PostgreSQL opens a dollar quote at `$`, SQLite a name at `[` and at a
  backtick, and takes a backslash as it stands.  A model is confined when all of
  this is absent from its fragments; its clauses are then the emitter's own.

    • `isFragment_iff` — the fragments of a model are those of its entities,
    • `Model.Confined.line` — in a confined model no default adds a constraint, so
    • `Sql.Unmarked.references_eq` — the foreign keys of its lines are those the
      emitter wrote.
-/
import ClipTown.SchemaOrm.Containment
import ClipTown.SchemaOrm.EmittedLines

namespace ClipTown.SchemaOrm

open Checks SqlLexer DdlOutline

/-! ## §1. Confined fragments. -/

/-- A number with a keyword run into it, which a database may cut in two: `0unique`. -/
def runsIntoKeyword : Token → Bool
  | .word word => word.toList.head?.any Char.isDigit
      && (constraintWords ++ ["null", "generated"]).any (·.toList.isSuffixOf word.toList)
  | _ => false

/-- The fragment is contained, and has nothing that a database quotes otherwise. -/
structure Confined (dialect : Dialect) (c : Clause) (e : String) : Prop where
  contained : Contained c e
  noDollar : '$' ∉ outside (items e.toList)
  noKeyword : ∀ token ∈ tokens (items e.toList), runsIntoKeyword token = false
  noBracket : dialect = .sqlite → ∀ quote ∈ ['[', '`'], quote ∉ outside (items e.toList)
  noEscape : dialect = .sqlite → ∀ front ∈ e.toList.inits,
    modeAfter front ≠ .quoted .escapeLiteral

theorem closed_iff {text : List Char} :
    Closed text ↔ modeAfter text = .code true ∨ modeAfter text = .code false := by
  unfold Closed
  rw [Bool.exists_bool, or_comm]

theorem contained_iff {c : Clause} {e : String} :
    Contained c e ↔ (modeAfter e.toList = .code true ∨ modeAfter e.toList = .code false)
      ∧ level false 0 (brackets (items e.toList)) = some 0
      ∧ (c = .default → columnConstraints e.toList = []) := by
  rw [← closed_iff]
  constructor
  · intro h
    obtain ⟨label, hscan⟩ := h.scanned
    exact ⟨h.closed, (scanned_iff label _).mp hscan, h.unconstrained⟩
  · intro h
    exact ⟨h.1, ⟨e, (scanned_iff e _).mpr h.2.1⟩, h.2.2⟩

instance (c : Clause) (e : String) : Decidable (Contained c e) :=
  decidable_of_iff' _ contained_iff

instance (dialect : Dialect) (c : Clause) (e : String) : Decidable (Confined dialect c e) :=
  decidable_of_iff (Contained c e ∧ '$' ∉ outside (items e.toList)
      ∧ (∀ token ∈ tokens (items e.toList), runsIntoKeyword token = false)
      ∧ (dialect = .sqlite → ∀ quote ∈ ['[', '`'], quote ∉ outside (items e.toList))
      ∧ (dialect = .sqlite → ∀ front ∈ e.toList.inits,
          modeAfter front ≠ .quoted .escapeLiteral))
    ⟨fun h => ⟨h.1, h.2.1, h.2.2.1, h.2.2.2.1, h.2.2.2.2⟩,
      fun h => ⟨h.contained, h.noDollar, h.noKeyword, h.noBracket, h.noEscape⟩⟩

/-- Every fragment the model has for the dialect is confined. -/
def Model.Confined (model : Model) (dialect : Dialect) : Prop :=
  ∀ c e, IsFragment model dialect c e → SchemaOrm.Confined dialect c e

/-- The default of a field, where it is a fragment. -/
def Field.fragment (field : Field) (dialect : Dialect) : Option (Clause × String) :=
  match sqlDefault field dialect with
  | some (.fragment .default e) => some (.default, e)
  | _ => none

/-- The fragments of an entity. -/
def Entity.fragments (entity : Entity) (dialect : Dialect) : List (Clause × String) :=
  entity.fields.filterMap (·.fragment dialect)
    ++ entity.checks.map (fun check => (.check, check.expression))
    ++ entity.indexes.filterMap fun index => index.where_.map fun predicate => (.where_, predicate)

theorem fragment_eq_some {field : Field} {dialect : Dialect} {c : Clause} {e : String} :
    field.fragment dialect = some (c, e)
      ↔ c = .default ∧ sqlDefault field dialect = some (.fragment .default e) := by
  unfold Field.fragment
  split
  next e' heq =>
    rw [heq]
    simp only [Option.some.injEq, Prod.mk.injEq, Piece.fragment.injEq, true_and]
    exact and_congr_left fun _ => eq_comm
  next hnot =>
    refine iff_of_false (by simp) ?_
    intro h
    exact hnot e h.2

/-- The fragments of a model are those of its entities. -/
theorem isFragment_iff {model : Model} {dialect : Dialect} {c : Clause} {e : String} :
    IsFragment model dialect c e
      ↔ ∃ entity ∈ model.entities, (c, e) ∈ entity.fragments dialect := by
  simp only [Entity.fragments, List.mem_append, List.mem_filterMap, List.mem_map,
    fragment_eq_some, Option.map_eq_some_iff, Prod.mk.injEq]
  cases c <;> simp [IsFragment]

instance (model : Model) (dialect : Dialect) : Decidable (model.Confined dialect) :=
  decidable_of_iff (∀ entity ∈ model.entities, ∀ f ∈ entity.fragments dialect,
      SchemaOrm.Confined dialect f.1 f.2)
    ⟨fun h c e hfragment => by
        obtain ⟨entity, hentity, hmem⟩ := isFragment_iff.mp hfragment
        exact h entity hentity (c, e) hmem,
      fun h entity hentity f hf => h f.1 f.2 (isFragment_iff.mpr ⟨entity, hentity, hf⟩)⟩

instance {p : Dialect → Prop} [DecidablePred p] : Decidable (∀ dialect, p dialect) :=
  decidable_of_iff (p .postgres ∧ p .sqlite)
    ⟨fun h dialect => by
        cases dialect with
        | postgres => exact h.1
        | sqlite => exact h.2,
      fun h => ⟨h .postgres, h .sqlite⟩⟩

/-! ## §2. What a default adds to its column. -/

/-- The constraints a piece carries beside those the emitter writes. -/
def Piece.marks : Piece → List Mark
  | .fragment .default e => columnConstraints e.toList
  | _ => []

/-- A default of the text carries the constraint. -/
def Sql.Adds (sql : Sql) (word : String) : Prop := ∃ piece ∈ sql, Mark.constraint word ∈ piece.marks

instance (sql : Sql) (word : String) : Decidable (sql.Adds word) := by
  unfold Sql.Adds; infer_instance

/-- The table and the column behind `references`, as far as they are plain names. -/
def referenceTarget : List Token → String × String
  | .word table :: .symbol '(' :: .word column :: .symbol ')' :: _ => (table, column ++ ")")
  | .word table :: _ => (table, "")
  | _ => ("", "")

/-- The references among tokens. -/
def addedReferences (r : Reading) : List Token → List (String × String)
  | [] => []
  | t :: ts =>
      (if .constraint "references" ∈ (stepToken r t).2 then [referenceTarget ts] else [])
        ++ addedReferences (stepToken r t).1 ts

/-- The foreign keys of a piece: the emitter's own, or those of a default. -/
def Piece.references : Piece → List (String × String)
  | .fragment .default e => addedReferences afterDefault (tokens (items e.toList))
  | piece => (readReference piece).toList

/-- The foreign keys of a text. -/
def Sql.references (sql : Sql) : List (String × String) := sql.flatMap Piece.references

example : Piece.references (.fragment .default "'f' references zetas (id)")
    = [("zetas", "id)")] := by decide

theorem addedReferences_eq_nil {r : Reading} {ts : List Token}
    (h : .constraint "references" ∉ (read r ts).2) : addedReferences r ts = [] := by
  induction ts generalizing r with
  | nil => rfl
  | cons t ts ih =>
      rw [read_cons, List.mem_append, not_or] at h
      rw [addedReferences, if_neg h.1, ih h.2]
      rfl

/-- The defaults of a text carry no constraint. -/
def Sql.Unmarked (sql : Sql) : Prop :=
  ∀ e, Piece.fragment .default e ∈ sql → columnConstraints e.toList = []

theorem Sql.Unmarked.not_adds {sql : Sql} (h : sql.Unmarked) (word : String) : ¬ sql.Adds word := by
  intro hadds
  obtain ⟨piece, hpiece, hmark⟩ := hadds
  unfold Piece.marks at hmark
  split at hmark
  next e =>
    rw [h e hpiece] at hmark
    cases hmark
  next => cases hmark

/-- **Without marks the foreign keys are those the emitter wrote.** -/
theorem Sql.Unmarked.references_eq {sql : Sql} (h : sql.Unmarked) :
    sql.references = sql.filterMap readReference := by
  unfold Sql.references
  rw [List.filterMap_eq_flatMap_toList]
  refine List.flatMap_congr ?_
  intro piece hpiece
  unfold Piece.references
  split
  next e =>
    -- a mark is what a reference of the default would leave
    have hnone := h e hpiece
    unfold columnConstraints at hnone
    rw [addedReferences_eq_nil (by rw [hnone]; simp)]
    rfl
  next => rfl

section

variable {model : Model} {dialect : Dialect}

/-- The columns of a confined model are unmarked. -/
theorem Model.Confined.sqlColumn (h : model.Confined dialect) {entity : Entity}
    (hentity : entity ∈ model.entities) {field : Field} (hfield : field ∈ entity.fields)
    (hf : CheckedField field) {sql : Sql}
    (hsql : SchemaOrm.sqlColumn model dialect field = .ok sql) : sql.Unmarked := by
  intro e he
  have hdefault := ((mem_sqlColumn hf hsql).mp he).2
  exact (h .default e ⟨entity, hentity, field, hfield, hdefault⟩).contained.unconstrained rfl

/-- So are its lines. -/
theorem Model.Confined.line (h : model.Confined dialect) {localeLe : String → String → Bool}
    (hmodel : ∀ e ∈ model.entities, CheckedEntity e)
    (hnames : (model.entities.map (·.name)).Nodup) {lines : List Sql}
    (hlines : sqlLines localeLe model dialect = .ok lines) :
    ∀ line ∈ lines, line.Unmarked := by
  intro line hline e he
  have hfragment := (mem_sqlLines hmodel hnames hlines).mp
    (fragment_mem_join.mpr ⟨line, hline, he⟩)
  exact (h .default e hfragment).contained.unconstrained rfl

end

end ClipTown.SchemaOrm
