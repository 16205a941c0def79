/-
  ClipTown.SchemaOrm.ColumnVariants — the columns that the relations of the
  generated SeaORM file name (`generateRustSeaOrm` of `tools/schema-orm/rust.mjs`).

  A struct field is named by `snakeCase`, and SeaORM makes the variant of
  `Column` from it, in upper camel case.  A relation names the variant by
  `pascalCase` of the schema's name.  The first puts a word's letters but the
  first in lower case, the second leaves them as they are.

    • `spelled_snakeCase` — the letters of a variant that SeaORM makes,
    • `pascalCase_snakeCase_iff` — the two are one variant iff no capital follows
      another.
-/
import ClipTown.SchemaOrm.Identifiers

namespace ClipTown.SchemaOrm

open SpelledNames

/-! ## §1. The variants. -/

/-- What the emitted `from = "Column::…"` names. -/
def Field.relationFrom (field : Field) : String := pascalCase field.name

/-- What the emitted `to = "super::…::Column::…"` names. -/
def Reference.relationTo (reference : Reference) : String := pascalCase reference.field

/-- The variant that SeaORM makes of the struct field of a name. -/
def derivedVariant (name : String) : String := pascalCase (snakeCase name)

/-- The variants of the `Column` of an entity. -/
def Entity.columnVariants (entity : Entity) : List String :=
  entity.fields.map fun field => derivedVariant field.name

/-- No capital follows a capital. -/
def Humps (text : List Char) : Prop :=
  text.IsChain fun a b => ¬ (a ∈ uppercase ∧ b ∈ uppercase)

instance (text : List Char) : Decidable (Humps text) := by unfold Humps; infer_instance

/-- ASCII letters, digits and underscores. -/
def wordChars : List Char := uppercase ++ lowercase ++ digits ++ ['_']

/-! ## §2. The letters of a derived variant. -/

/-- The letters of a name in lower case, but for those that start a word or stand behind a
lower-case letter or a digit as a capital. -/
def humped : Bool → List Char → List Char
  | _, [] => []
  | start, c :: rest =>
      if c.isAlphanum then
        capital (toLowerCase c, start) :: humped (rest.head?.any (isHump c)) rest
      else humped true rest

/-- What is known of a character of a name that is not an underscore. -/
structure IsLetter (c : Char) : Prop where
  letter : c.isAlphanum = true
  gap : isGap c = false
  lower : (toLowerCase c).isAlphanum = true
  capital : (toLowerCase c).toUpper = c.toUpper
  kept : toLowerCase c = c ↔ c ∉ uppercase
  raised : c ∈ uppercase → c.toUpper = c
  hump : ∀ b, isHump c b = true ↔ c ∉ uppercase ∧ b ∈ uppercase

theorem eq_or_isLetter {c : Char} (h : c ∈ wordChars) : c = '_' ∨ IsLetter c := by
  have hall : ∀ c ∈ wordChars, c = '_' ∨ (c.isAlphanum = true ∧ isGap c = false
      ∧ (toLowerCase c).isAlphanum = true ∧ (toLowerCase c).toUpper = c.toUpper
      ∧ (toLowerCase c = c ↔ c ∉ uppercase) ∧ (c ∈ uppercase → c.toUpper = c)
      ∧ (c ∈ lowercase ++ digits ↔ c ∉ uppercase)) := by
    decide
  refine (hall c h).imp_right ?_
  intro ⟨hletter, hgap, hlower, hcapital, hkept, hraised, hhump⟩
  refine ⟨hletter, hgap, hlower, hcapital, hkept, hraised, ?_⟩
  intro b
  rw [isHump, decide_eq_true_iff, hhump]

theorem humped_of_letter {c : Char} (h : IsLetter c) (start : Bool) (rest : List Char) :
    humped start (c :: rest)
      = capital (toLowerCase c, start) :: humped (rest.head?.any (isHump c)) rest := by
  rw [humped, if_pos h.letter]

theorem humped_underscore (start : Bool) (rest : List Char) :
    humped start ('_' :: rest) = humped true rest := by
  rw [humped, if_neg (by decide)]

theorem spelled_cons {c : Char} (h : c.isAlphanum = true) (start : Bool) (rest : List Char) :
    spelled start (c :: rest) = capital (c, start) :: spelled false rest := by
  unfold spelled
  rw [letters_of_letter h, List.map_cons]

theorem spelled_underscore (start : Bool) (rest : List Char) :
    spelled start ('_' :: rest) = spelled true rest := by
  unfold spelled
  rw [letters_of_other (by decide)]

/-- From inside a run of underscores a word starts in any case. -/
theorem spelled_gapped {text : List Char} (h : ∀ c ∈ text, c ∈ wordChars) :
    (∀ inBlank, spelled true ((gapped inBlank true text).map toLowerCase) = humped true text)
      ∧ ∀ start, spelled start ((gapped false false text).map toLowerCase)
          = humped start text := by
  induction text with
  | nil =>
      refine ⟨?_, ?_⟩
      · intro inBlank
        cases inBlank <;> rfl
      · intro start
        rfl
  | cons c text ih =>
      have hrest := ih fun d hd => h d (List.mem_cons_of_mem c hd)
      obtain rfl | hc := eq_or_isLetter (h c List.mem_cons_self)
      · -- the first underscore of a run is kept, the others are not
        have hgap : isGap '_' = true := by decide
        refine ⟨?_, ?_⟩
        · intro inBlank
          obtain ⟨inBlank', hrun⟩ : ∃ inBlank', gapped inBlank true ('_' :: text)
              = gapped inBlank' true text := gapped_gap_run inBlank hgap
          rw [hrun, hrest.1, humped_underscore]
        · intro start
          obtain ⟨inBlank', hrun⟩ : ∃ inBlank', gapped false false ('_' :: text)
              = '_' :: gapped inBlank' true text := gapped_gap hgap
          have hkept : toLowerCase '_' = '_' := by decide
          rw [hrun, List.map_cons, hkept, spelled_underscore, hrest.1, humped_underscore]
      · have hstep : ∀ start inBlank inRun, spelled start
            ((gapped inBlank inRun (c :: text)).map toLowerCase) = humped start (c :: text) := by
          intro start inBlank inRun
          rw [humped_of_letter hc]
          by_cases hhump : text.head?.any (isHump c) = true
          · have hkept : toLowerCase '_' = '_' := by decide
            rw [gapped_of_hump inBlank inRun hhump, List.map_cons, List.map_cons, hkept,
              spelled_cons hc.lower, spelled_underscore, hrest.1, hhump]
          · rw [Bool.not_eq_true] at hhump
            rw [gapped_of_not_gap inBlank inRun hc.gap hhump, List.map_cons,
              spelled_cons hc.lower, hrest.2, hhump]
        exact ⟨fun inBlank => hstep true inBlank true, fun start => hstep start false false⟩

/-- The letters of a variant that SeaORM makes. -/
theorem spelled_snakeCase {name : String} (h : ∀ c ∈ name.toList, c ∈ wordChars) :
    (derivedVariant name).toList = humped true name.toList := by
  unfold derivedVariant
  rw [pascalCase_eq, snakeCase_eq]
  show spelled true (String.ofList ((gapped false false name.toList).map toLowerCase)).toList = _
  rw [String.toList_ofList, (spelled_gapped h).2 true]

/-! ## §3. Where the two agree. -/

/-- The text starts with a capital. -/
def startsUpper (text : List Char) : Prop := ∃ c ∈ text.head?, c ∈ uppercase

theorem humps_underscore (text : List Char) : Humps ('_' :: text) ↔ Humps text := by
  unfold Humps
  cases text with
  | nil => simp
  | cons b text =>
      rw [List.isChain_cons_cons]
      exact and_iff_right fun hand => absurd hand.1 (by decide)

/-- Behind a letter: a capital is there at a hump, or it follows a capital. -/
theorem humps_letter {c : Char} (hc : IsLetter c) (text : List Char) :
    Humps (c :: text)
      ↔ (text.head?.any (isHump c) = false → ¬ startsUpper text) ∧ Humps text := by
  unfold Humps startsUpper
  cases text with
  | nil => simp
  | cons b text =>
      have hhump : isHump c b = false ↔ ¬ (c ∉ uppercase ∧ b ∈ uppercase) := by
        rw [← hc.hump b, Bool.not_eq_true]
      rw [List.isChain_cons_cons, List.head?_cons, Option.any_some, hhump]
      refine and_congr_left fun _ => ?_
      simp only [Option.mem_some_iff, exists_eq_left']
      tauto

/-- A letter is written the same by both, unless it is a capital inside a word. -/
theorem capital_eq_iff {c : Char} (hc : IsLetter c) {start start' : Bool}
    (hstart : start' = true → start = true)
    (hupper : start = true → start' = false → c ∈ uppercase) :
    capital (toLowerCase c, start) = capital (c, start')
      ↔ (start = false → c ∉ uppercase) := by
  unfold SpelledNames.capital
  cases start with
  | false =>
      cases start' with
      | false => simpa using hc.kept
      | true => cases hstart rfl
  | true =>
      cases start' with
      | false =>
          have hraised := hc.raised (hupper rfl rfl)
          simpa [hraised] using hc.capital
      | true => simpa using hc.capital

/-- Letter by letter, from a place where both start a word, neither does, or where a hump
starts one for the first only. -/
theorem humped_eq_iff {text : List Char} (h : ∀ c ∈ text, c ∈ wordChars) {start start' : Bool}
    (hstart : start' = true → start = true)
    (hupper : start = true → start' = false → startsUpper text) :
    humped start text = spelled start' text
      ↔ (start = false → ¬ startsUpper text) ∧ Humps text := by
  induction text generalizing start start' with
  | nil => simp [humped, spelled, letters, Humps, startsUpper]
  | cons c text ih =>
      have htext : ∀ d ∈ text, d ∈ wordChars := fun d hd => h d (List.mem_cons_of_mem c hd)
      have hhead : startsUpper (c :: text) ↔ c ∈ uppercase := by
        unfold startsUpper
        simp
      rw [hhead] at hupper ⊢
      obtain rfl | hc := eq_or_isLetter (h c List.mem_cons_self)
      · have hscore : '_' ∉ uppercase := by decide
        rw [humped_underscore, spelled_underscore, humps_underscore,
          ih htext (fun _ => rfl) (fun _ hfalse => by cases hfalse)]
        simp [hscore]
      · have htail : humped (text.head?.any (isHump c)) text = spelled false text
            ↔ Humps (c :: text) := by
          rw [humps_letter hc]
          refine ih htext (fun hfalse => by cases hfalse) ?_
          intro hhump _
          cases text with
          | nil => cases hhump
          | cons b text => exact ⟨b, rfl, ((hc.hump b).mp hhump).2⟩
        rw [humped_of_letter hc, spelled_cons hc.letter, List.cons.injEq, htail,
          capital_eq_iff hc hstart hupper]

/-- **A relation names the variant that SeaORM makes iff no capital of the name follows a
capital**: the rest of a run of capitals is put in lower case by one and not by the other. -/
theorem pascalCase_snakeCase_iff {name : String} (h : ∀ c ∈ name.toList, c ∈ wordChars) :
    pascalCase (snakeCase name) = pascalCase name ↔ Humps name.toList := by
  have hderived := spelled_snakeCase h
  unfold derivedVariant at hderived
  rw [← String.toList_inj, hderived, pascalCase_eq,
    humped_eq_iff h (fun _ => rfl) (fun _ hfalse => by cases hfalse)]
  simp

/-- Words of small letters and digits, each behind a capital or an underscore. -/
theorem pascalCase_snakeCase_iff_camel :
    pascalCase (snakeCase "sha256Of_userId2") = pascalCase "sha256Of_userId2"
      ↔ Humps "sha256Of_userId2".toList :=
  pascalCase_snakeCase_iff (by decide)

/-! ## §4. The relations of an entity. -/

/-- A relation from a field without such a run names a variant of its entity. -/
theorem relationFrom_mem {entity : Entity} {field : Field} (hfield : field ∈ entity.fields)
    (h : ∀ c ∈ field.name.toList, c ∈ wordChars) (hhumps : Humps field.name.toList) :
    field.relationFrom ∈ entity.columnVariants := by
  have hvariant : derivedVariant field.name = field.relationFrom :=
    (pascalCase_snakeCase_iff h).mpr hhumps
  rw [← hvariant]
  exact List.mem_map_of_mem hfield

/-- And so does one to such a field. -/
theorem relationTo_mem {target : Entity} {reference : Reference} {field : Field}
    (hfield : target.field reference.field = some field)
    (h : ∀ c ∈ field.name.toList, c ∈ wordChars) (hhumps : Humps field.name.toList) :
    reference.relationTo ∈ target.columnVariants := by
  unfold Entity.field at hfield
  have hname : field.name = reference.field := by simpa using List.find?_some hfield
  have hto : reference.relationTo = field.relationFrom := by
    unfold Reference.relationTo Field.relationFrom
    rw [hname]
  rw [hto]
  exact relationFrom_mem (List.mem_of_find?_eq_some hfield) h hhumps

/-- Notes that have an owner. -/
def ownerSchema (field : String) : Schema where
  schemaUri := "https://json-schema.org/draft/2020-12/schema"
  libCore := some { product := "cliptown", interfacesRepository := "interfaces" }
  defs := some [("Owner", noteDefinition "owners" ["id"]), ("Note", {
    type := "object"
    db := some { table := "notes" }
    properties := [("id", { types := ["string"] }), (field, {
      types := ["string"]
      db := { references := some { entity := "Owner", field := "id" } } })] })]

/-- Accepted all the same: a relation that names a variant which is not there. -/
theorem unknown_variant_accepted :
    (∀ c ∈ "ownerID".toList, c ∈ wordChars)
      ∧ pascalCase (snakeCase "ownerID") = "OwnerId" ∧ pascalCase "ownerID" = "OwnerID"
      ∧ ∃ model, normalizeSchema (ownerSchema "ownerID") = .ok model
        ∧ ∃ e ∈ model.entities, ∃ f ∈ e.fields, f.name = "ownerID"
          ∧ f.property.db.references.isSome ∧ f.relationFrom ∉ e.columnVariants := by
  refine ⟨by decide, by decide, by decide, ?_⟩
  exact exists_model
    (fun model => ∃ e ∈ model.entities, ∃ f ∈ e.fields, f.name = "ownerID"
      ∧ f.property.db.references.isSome ∧ f.relationFrom ∉ e.columnVariants)
    (by decide : (normalizeSchema (ownerSchema "ownerID")).toOption.any _ = true)

end ClipTown.SchemaOrm
