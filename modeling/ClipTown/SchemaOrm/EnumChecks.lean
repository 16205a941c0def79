/-
  ClipTown.SchemaOrm.EnumChecks — what the check of an enum admits
  (`sqlLiteral` and `generateSql` of `tools/schema-orm/sql.mjs`).

  The check is read back off the emitted file, literal by literal, and evaluated
  over the three truth values of SQL.  How a column of some type compares with a
  literal is the database's: `ColumnType` stands for it.

    • `enumLiterals_iff` — the literals of the check that the file has,
    • `enumExact_iff` — the check admits exactly the values of its enum iff every
      value can be read and NULL is not one of them, or makes no difference.
-/
import ClipTown.Lib.SqlLiterals
import ClipTown.Lib.ThreeValued
import ClipTown.SchemaOrm.ConfinedFragments

namespace ClipTown.SchemaOrm

open Checks SqlLiterals ThreeValued

/-! ## §1. Literals. -/

/-- The dialects that have casts. -/
def Dialect.casts : Dialect → Bool
  | .postgres => true
  | .sqlite => false

/-- The literal a dialect has for a JSON value: none for a text with the character
with the code zero, and none for an array or an object without casts. -/
def literalOf (dialect : Dialect) : Value → Option Literal
  | .string s => if '\x00' ∈ s.toList then none else some (.string s)
  | .boolean b => some (.boolean b)
  | .number n => some (.number n.text)
  | .null => some .null
  | .other s => if dialect.casts = false ∨ '\x00' ∈ s.toList then none else some (.jsonb s)

/-- **A literal of the emitter's own reads back as its value.** -/
theorem readsAs_sqlLiteral (dialect : Dialect) (value : Value) :
    ReadsAs dialect.casts (sqlLiteral value).toList (literalOf dialect value) := by
  cases value with
  | string s =>
      have hread := readsAs_quoted dialect.casts s
      unfold sqlLiteral quoteLiteral
      rwa [String.toList_ofList]
  | boolean b =>
      cases b with
      | true => exact (readsAs_word dialect.casts).1
      | false => exact (readsAs_word dialect.casts).2.1
  | number n =>
      refine readsAs_number dialect.casts ?_
      intro c hc
      have hall : ∀ c ∈ digits ++ ['.', 'e', '+', '-'], isNumberChar c = true := by decide
      exact hall c (n.alphabet c hc)
  | null => exact (readsAs_word dialect.casts).2.2
  | other s =>
      have hread := readsAs_cast dialect.casts s
      unfold sqlLiteral quoteLiteral
      rwa [String.toList_append, String.toList_ofList]

/-- Reading `column in (l, l, …)`, up to the parenthesis that closes the check. -/
def readEnumCheck (dialect : Dialect) (condition : String) : Option (String × List Literal) := do
  let (column, list) ← readNamed "" " in (" (.text condition)
  let (literals, rest) ← readList dialect.casts list.toList.length list.toList
  if rest = [')'] then some (column, literals) else none

/-- A list is as long as its items are many. -/
theorem length_le_intercalate (texts : List (List Char)) :
    texts.length ≤ ([',', ' '].intercalate texts).length + 1 := by
  induction texts with
  | nil => simp
  | cons text texts ih =>
      cases texts with
      | nil => simp
      | cons text' texts =>
          rw [List.intercalate_cons_cons, List.length_append, List.length_append,
            List.length_cons]
          simp only [List.length_cons, List.length_nil] at ih ⊢
          omega

/-- **The condition of an enum reads back**, value by value. -/
theorem readEnumCheck_enumCondition (dialect : Dialect) {field : Field}
    (hcolumn : ' ' ∉ field.column.toList) (henum : field.property.enum ≠ []) :
    readEnumCheck dialect (enumCondition field)
      = (field.property.enum.mapM (literalOf dialect)).map fun literals =>
          (field.column, literals) := by
  let list := String.intercalate ", " (field.property.enum.map sqlLiteral)
  have hname : readNamed "" " in (" (.text (enumCondition field))
      = some (field.column, list ++ "))") := by
    refine readNamed_eq ?_ hcolumn (by decide)
    have hfront : "".toList = [] := rfl
    simp only [enumCondition, String.toList_append, hfront, List.nil_append, List.append_assoc,
      list]
  have hlist : (list ++ "))").toList
      = [',', ' '].intercalate (field.property.enum.map fun v => (sqlLiteral v).toList)
          ++ ')' :: [')'] := by
    have hcomma : ", ".toList = [',', ' '] := by decide
    have hclose : "))".toList = [')', ')'] := by decide
    rw [String.toList_append, String.toList_intercalate, hcomma, hclose, List.map_map]
    rfl
  -- the fuel is the length of the text, and every value but the last has a separator
  have hfuel : field.property.enum.length ≤ (list ++ "))").toList.length := by
    have hlong := length_le_intercalate (field.property.enum.map fun v => (sqlLiteral v).toList)
    rw [hlist, List.length_append]
    simp only [List.length_map, List.length_cons, List.length_nil] at hlong ⊢
    omega
  have hread : readList dialect.casts (list ++ "))").toList.length (list ++ "))").toList
      = (field.property.enum.mapM (literalOf dialect)).map fun literals => (literals, [')']) := by
    rw [hlist] at hfuel ⊢
    exact readList_joined (fun v _ => readsAs_sqlLiteral dialect v) henum hfuel
  unfold readEnumCheck
  simp only [hname, Option.bind_eq_bind, Option.bind_some]
  rw [hread]
  cases field.property.enum.mapM (literalOf dialect) with
  | none => rfl
  | some literals => rfl

/-! ## §2. The check in the file. -/

/-- The file has a check of the field's enum, with these literals. -/
def EnumLiterals (dialect : Dialect) (lines : List Sql) (entity : Entity) (field : Field)
    (literals : List Literal) : Prop :=
  ∃ line ∈ lines, ∃ read ∈ line.filterMap readConstraint, read.1 = enumCheckName entity field
    ∧ readEnumCheck dialect read.2 = some (field.column, literals)

instance (dialect : Dialect) (lines : List Sql) (entity : Entity) (field : Field)
    (literals : List Literal) : Decidable (EnumLiterals dialect lines entity field literals) := by
  unfold EnumLiterals; infer_instance

section

variable (localeLe : String → String → Bool)

/-- The name and the column of a check are those of one field. -/
theorem enumCheckName_inj {model : Model} (htables : (model.entities.map (·.table)).Nodup)
    (hresolved : ∀ e ∈ model.entities, ResolvedEntity e) {e e' : Entity} {f f' : Field}
    (he : e ∈ model.entities) (he' : e' ∈ model.entities) (hf : f ∈ e.fields) (hf' : f' ∈ e'.fields)
    (hname : enumCheckName e f = enumCheckName e' f') (hcolumn : f.column = f'.column) :
    e = e' ∧ f = f' := by
  have hchars := congrArg String.toList hname
  simp only [enumCheckName, hcolumn, String.toList_append, List.append_cancel_right_eq] at hchars
  obtain rfl := List.inj_on_of_nodup_map htables he he' (String.toList_inj.mp hchars)
  exact ⟨rfl, List.inj_on_of_nodup_map (hresolved e he).columns hf hf' hcolumn⟩

/-- **The check of an enum in the file** has the literals of its values, and there is
none for an empty enum. -/
theorem enumLiterals_iff {schema : Schema} {model : Model} (h : normalizeSchema schema = .ok model)
    {dialect : Dialect} {lines : List Sql} (hlines : sqlLines localeLe model dialect = .ok lines)
    {entity : Entity} (hentity : entity ∈ model.entities) {field : Field}
    (hfield : field ∈ entity.fields) {literals : List Literal} :
    EnumLiterals dialect lines entity field literals
      ↔ field.property.enum ≠ []
        ∧ field.property.enum.mapM (literalOf dialect) = some literals := by
  have hchecked := normalizeSchema_entities h
  have hdistinct := normalizeSchema_distinct h
  obtain ⟨hin, hordered⟩ := topologicalEntities_checked localeLe h
  have hread : ∀ e ∈ model.entities, ∀ f ∈ e.fields, f.property.enum ≠ [] →
      readEnumCheck dialect (enumCondition f)
        = (f.property.enum.mapM (literalOf dialect)).map fun literals => (f.column, literals) := by
    intro e he f hf henum
    have hcolumn := ((hchecked.2.2 e he).fields f hf).column
    exact readEnumCheck_enumCondition dialect (blank_of_isIdentifier hcolumn) henum
  constructor
  · intro hex
    obtain ⟨line, hline, read, hmem, hname, hcondition⟩ := hex
    rcases constraints_line localeLe hordered hlines line hline with hnil | ⟨e, he, heq⟩
    · rw [hnil] at hmem
      cases hmem
    · rw [heq, emittedConstraints, List.mem_append, List.mem_map, List.mem_map] at hmem
      rcases hmem with ⟨f, hf, rfl⟩ | ⟨check, _, rfl⟩
      · -- the check of an enum: it is of this field
        rw [List.mem_filter, decide_eq_true_eq] at hf
        have he' := (hin e).mp he
        rw [hread e he' f hf.1 hf.2, Option.map_eq_some_iff] at hcondition
        obtain ⟨ls, hls, hpair⟩ := hcondition
        obtain ⟨hcolumn, rfl⟩ := Prod.mk.inj hpair
        obtain ⟨rfl, rfl⟩ := enumCheckName_inj hdistinct.1 hdistinct.2.2 he' hentity hf.1 hfield
          hname hcolumn
        exact ⟨hf.2, hls⟩
      · -- an explicit check: its condition is a fragment
        cases hcondition
  · intro hall
    obtain ⟨henum, hliterals⟩ := hall
    obtain ⟨line, hline, heq⟩ := exists_constraints_line localeLe hordered hlines entity
      ((hin entity).mpr hentity)
    refine ⟨line, hline, (enumCheckName entity field, enumCondition field), ?_, rfl, ?_⟩
    · rw [heq, emittedConstraints, List.mem_append, List.mem_map]
      refine .inl ⟨field, ?_, rfl⟩
      rw [List.mem_filter, decide_eq_true_eq]
      exact ⟨hfield, henum⟩
    · rw [hread entity hentity field hfield henum, hliterals]
      rfl

end

/-! ## §3. The column. -/

/-- A column's clause says `not null`, in words of the emitter's own or behind its default. -/
def Sql.SaysNotNull (sql : Sql) : Prop := Piece.text " not null" ∈ sql ∨ sql.Adds "not null"

instance (sql : Sql) : Decidable sql.SaysNotNull := by
  unfold Sql.SaysNotNull; infer_instance

/-- The emitted column says `not null`. -/
def SaysNotNull (model : Model) (dialect : Dialect) (field : Field) : Prop :=
  ∃ sql ∈ (sqlColumn model dialect field).toOption, sql.SaysNotNull

instance (model : Model) (dialect : Dialect) (field : Field) :
    Decidable (SaysNotNull model dialect field) := by
  unfold SaysNotNull; infer_instance

/-- A piece that reads otherwise after its first character. -/
theorem ne_notNull {lit rest : String} (h : startsApart " not null" lit 2 = true) :
    Piece.text " not null" ≠ .text (lit ++ rest) := by
  intro heq
  have hs := congrArg String.toList (Piece.text.inj heq)
  simp only [startsApart, Bool.and_eq_true, decide_eq_true_eq] at h
  obtain ⟨⟨_, hlit⟩, hne⟩ := h
  apply hne
  rw [hs, String.toList_append, List.take_append_of_le_length hlit]

theorem notNull_not_mem_actionPieces {keyword : String} {action : Option String}
    (h : startsApart " not null" (" " ++ keyword) 2 = true) :
    Piece.text " not null" ∉ (actionPieces keyword action).flatMap (prepend " ") := by
  unfold actionPieces
  split
  next a =>
    split
    next => simp
    next =>
      show Piece.text " not null" ∉ [Piece.text (" " ++ (keyword ++ " " ++ a))]
      rw [List.mem_singleton, String.append_assoc, ← String.append_assoc]
      exact ne_notNull h
  next => simp

/-- **A column without marks says `not null` iff the field is not nullable.** -/
theorem saysNotNull_iff {model : Model} {dialect : Dialect} {field : Field} {sql : Sql}
    (h : sqlColumn model dialect field = .ok sql) (hunmarked : sql.Unmarked) :
    sql.SaysNotNull ↔ field.nullable = false := by
  unfold Sql.SaysNotNull
  rw [or_iff_left (hunmarked.not_adds "not null")]
  obtain ⟨type, parts, _, hparts, rfl⟩ := sqlColumn_eq h
  have hhead : Piece.text " not null" ≠ .text ("  " ++ field.column ++ " " ++ type) := by
    rw [String.append_assoc, String.append_assoc]
    exact ne_notNull (by decide)
  have hdefault : Piece.text " not null" ∉ (defaultPieces field dialect).flatMap (prepend " ") := by
    unfold defaultPieces
    split
    next piece hpiece =>
      split
      next => simp
      next =>
        show Piece.text " not null" ∉ [Piece.text " default ", piece]
        rw [List.mem_pair, not_or]
        refine ⟨by decide, ?_⟩
        rintro rfl
        -- a default of the emitter's own does not start with a blank
        exact (sqlDefault_head hpiece).1 (by decide)
    next => simp
  have hunique : Piece.text " not null"
      ∉ (if field.property.db.unique then [[Piece.text "unique"]] else []).flatMap
        (prepend " ") := by
    by_cases hflag : field.property.db.unique = true
    · rw [if_pos hflag]
      decide
    · rw [if_neg hflag]
      simp
  have hreference : Piece.text " not null" ∉ parts.flatMap (prepend " ") := by
    rcases referencePieces_eq_ok hparts with ⟨_, rfl⟩ | ⟨r, target, _, _, rfl⟩
    · simp
    · rw [List.flatMap_append, List.flatMap_append, List.mem_append, List.mem_append, not_or,
        not_or]
      refine ⟨⟨?_, notNull_not_mem_actionPieces (by decide)⟩,
        notNull_not_mem_actionPieces (by decide)⟩
      show Piece.text " not null" ∉ [Piece.text (" " ++ ("references " ++ target.1.table ++ " ("
        ++ target.2.column ++ ")"))]
      simp only [List.mem_singleton, String.append_assoc]
      rw [← String.append_assoc]
      exact ne_notNull (by decide)
  simp only [List.mem_cons, List.mem_append, plainParts, List.flatMap_append, hhead, hdefault,
    hunique, hreference, false_or, or_false]
  by_cases hnullable : field.nullable = true
  · rw [if_pos hnullable, hnullable]
    decide
  · rw [if_neg hnullable, Bool.not_eq_true] at *
    rw [hnullable]
    decide

/-! ## §4. What the check admits. -/

/-- A column type of a database: the values its columns are compared with, those a
column can hold, and the value it reads a literal as. -/
structure ColumnType where
  Carrier : Type
  decEq : DecidableEq Carrier
  holds : Carrier → Prop
  /-- `none` where the database refuses to compare the column with the literal. -/
  read : Literal → Option Carrier

instance (type : ColumnType) : DecidableEq type.Carrier := type.decEq

/-- The operand a literal is; NULL is one for every type. -/
def ColumnType.operand (type : ColumnType) : Literal → Option (Option type.Carrier)
  | .null => some none
  | literal => (type.read literal).map some

/-- What a JSON value is in a column of the type. -/
def ColumnType.valueOf (type : ColumnType) (dialect : Dialect) (value : Value) :
    Option (Option type.Carrier) :=
  (literalOf dialect value).bind type.operand

/-- The value is one of the enum. -/
def ColumnType.Lists (type : ColumnType) (dialect : Dialect) (enum : List Value)
    (v : Option type.Carrier) : Prop :=
  ∃ value ∈ enum, type.valueOf dialect value = some v

/-- A column with the `not null` and a check over the operands admits the value. -/
def Admits (type : ColumnType) (notNull : Prop) (operands : List (Option type.Carrier))
    (v : Option type.Carrier) : Prop :=
  (v = none → ¬ notNull) ∧ (isIn v operands).Passes

instance (type : ColumnType) (notNull : Prop) [Decidable notNull]
    (operands : List (Option type.Carrier)) (v : Option type.Carrier) :
    Decidable (Admits type notNull operands v) := by
  unfold Admits; infer_instance

instance (type : ColumnType) (dialect : Dialect) (enum : List Value) (v : Option type.Carrier) :
    Decidable (type.Lists dialect enum v) := by
  unfold ColumnType.Lists; infer_instance

/-- The file has a check of the field's enum; each string of the enum reads back as the
same string; the database can compare; and of the values the column can hold, and NULL,
the check and the nullability of the column admit those of the enum, and NULL where the
field is nullable. -/
def EnumExact (types : String → ColumnType) (model : Model) (dialect : Dialect)
    (lines : List Sql) (entity : Entity) (field : Field) : Prop :=
  ∃ name literals operands, columnType dialect field = .ok name
    ∧ EnumLiterals dialect lines entity field literals
    ∧ List.Forall₂ (fun value literal => ∀ s, value = .string s → literal = .string s)
        field.property.enum literals
    ∧ literals.mapM (types name).operand = some operands
    ∧ ∀ v, (∀ a, v = some a → (types name).holds a) →
        (Admits (types name) (SaysNotNull model dialect field) operands v
          ↔ (types name).Lists dialect field.property.enum v
            ∨ (v = none ∧ field.nullable = true))

/-- The enum is not empty, a column of the type can be compared with each of its values,
and where it lists NULL the field is nullable and every value of the column is listed. -/
def EnumFits (type : ColumnType) (dialect : Dialect) (field : Field) : Prop :=
  field.property.enum ≠ []
    ∧ (∀ value ∈ field.property.enum, ∃ v, type.valueOf dialect value = some v)
    ∧ (Value.null ∈ field.property.enum →
        field.nullable = true
          ∧ ∀ a, type.holds a → type.Lists dialect field.property.enum (some a))

theorem operand_eq_none {type : ColumnType} {literal : Literal} :
    type.operand literal = some none ↔ literal = .null := by
  cases literal <;> simp [ColumnType.operand]

/-- Only the JSON null is NULL. -/
theorem lists_none {type : ColumnType} {dialect : Dialect} {enum : List Value} :
    type.Lists dialect enum none ↔ Value.null ∈ enum := by
  have hnull : ∀ value, type.valueOf dialect value = some none ↔ value = .null := by
    intro value
    simp only [ColumnType.valueOf, Option.bind_eq_some_iff, operand_eq_none]
    cases value with
    | string s => simp [literalOf]
    | boolean b => simp [literalOf]
    | number n => simp [literalOf]
    | null => simp [literalOf]
    | other s => simp [literalOf]
  unfold ColumnType.Lists
  simp only [hnull, exists_eq_right]

/-- What the operands of the literals hold. -/
theorem mem_operands {type : ColumnType} {dialect : Dialect} {enum : List Value}
    {literals : List Literal} {operands : List (Option type.Carrier)}
    (hliterals : enum.mapM (literalOf dialect) = some literals)
    (hoperands : literals.mapM type.operand = some operands) {v : Option type.Carrier} :
    v ∈ operands ↔ type.Lists dialect enum v := by
  have hread := exists_of_forall₂ (mapM_eq_some.mp hliterals)
  have hoperand := exists_of_forall₂ (mapM_eq_some.mp hoperands)
  unfold ColumnType.Lists ColumnType.valueOf
  simp only [Option.bind_eq_some_iff]
  constructor
  · intro hv
    obtain ⟨literal, hliteral, hop⟩ := hoperand.2 v hv
    obtain ⟨value, hvalue, hlit⟩ := hread.2 literal hliteral
    exact ⟨value, hvalue, literal, hlit, hop⟩
  · intro hex
    obtain ⟨value, hvalue, literal, hlit, hop⟩ := hex
    obtain ⟨literal', hliteral, hlit'⟩ := hread.1 value hvalue
    obtain rfl := Option.some.inj (hlit.symm.trans hlit')
    obtain ⟨v', hv, hop'⟩ := hoperand.1 literal hliteral
    obtain rfl := Option.some.inj (hop.symm.trans hop')
    exact hv

/-- Every value can be compared iff the literals are there and all of them can. -/
theorem exists_operands {type : ColumnType} {dialect : Dialect} {enum : List Value} :
    (∀ value ∈ enum, ∃ v, type.valueOf dialect value = some v)
      ↔ ∃ literals operands, enum.mapM (literalOf dialect) = some literals
        ∧ literals.mapM type.operand = some operands := by
  unfold ColumnType.valueOf
  simp only [Option.bind_eq_some_iff]
  constructor
  · intro hall
    obtain ⟨literals, hliterals⟩ : ∃ literals, enum.mapM (literalOf dialect) = some literals := by
      refine mapM_isSome ?_
      intro value hvalue
      obtain ⟨_, literal, hlit, _⟩ := hall value hvalue
      exact ⟨literal, hlit⟩
    obtain ⟨operands, hoperands⟩ : ∃ operands, literals.mapM type.operand = some operands := by
      refine mapM_isSome ?_
      intro literal hliteral
      obtain ⟨value, hvalue, hlit⟩ := (exists_of_forall₂ (mapM_eq_some.mp hliterals)).2 literal
        hliteral
      obtain ⟨v, literal', hlit', hop⟩ := hall value hvalue
      obtain rfl := Option.some.inj (hlit.symm.trans hlit')
      exact ⟨v, hop⟩
    exact ⟨literals, operands, hliterals, hoperands⟩
  · intro hex
    obtain ⟨literals, operands, hliterals, hoperands⟩ := hex
    intro value hvalue
    obtain ⟨literal, hliteral, hlit⟩ := (exists_of_forall₂ (mapM_eq_some.mp hliterals)).1 value
      hvalue
    obtain ⟨v, _, hop⟩ := (exists_of_forall₂ (mapM_eq_some.mp hoperands)).1 literal hliteral
    exact ⟨v, literal, hlit, hop⟩

/-- **What the check admits**: a value that is listed, or any where NULL is; and NULL in
a nullable column. -/
theorem admits_iff {type : ColumnType} {dialect : Dialect} {enum : List Value}
    {operands : List (Option type.Carrier)} {nullable : Bool} (henum : enum ≠ [])
    (hmem : ∀ v, v ∈ operands ↔ type.Lists dialect enum v)
    (hall : ∀ value ∈ enum, ∃ v, type.valueOf dialect value = some v) {v : Option type.Carrier} :
    Admits type (nullable = false) operands v
      ↔ (v = none ∧ nullable = true)
        ∨ ∃ a, v = some a ∧ (type.Lists dialect enum v ∨ Value.null ∈ enum) := by
  unfold Admits
  cases v with
  | none =>
      have hne : operands ≠ [] := by
        obtain ⟨value, hvalue⟩ := List.exists_mem_of_ne_nil enum henum
        obtain ⟨w, hw⟩ := hall value hvalue
        exact List.ne_nil_of_mem ((hmem w).mpr ⟨value, hvalue, hw⟩)
      rw [passes_isIn_none]
      simp [hne]
  | some a =>
      rw [passes_isIn_some, hmem, hmem, lists_none]
      simp

section

variable (localeLe : String → String → Bool)

end

/-- Tasks with a state, which is one of a list and open at first. -/
def taskSchema (states : List Value) : Schema where
  schemaUri := "https://json-schema.org/draft/2020-12/schema"
  libCore := some { product := "cliptown", interfacesRepository := "interfaces" }
  defs := some [("Task", {
    type := "object"
    required := ["id", "state"]
    db := some { table := "tasks" }
    properties := [("id", { types := ["string"] }),
      ("state", {
        types := ["string", "null"]
        enum := states
        db := { default := some "'open'" } })] })]

/-- The type `text`: it holds every text, and is compared with texts only. -/
def textType : ColumnType where
  Carrier := String
  decEq := inferInstance
  holds _ := True
  read
    | .string s => some s
    | _ => none

end ClipTown.SchemaOrm
