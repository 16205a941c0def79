/-
  ClipTown.SchemaOrm.EntityKeys — the shared entity descriptors and the stable
  entity key that three languages compute from them
  (`tools/schema-orm/shared.mjs`).

  The generator writes a descriptor of every entity into a source of each
  language, every text as a `JSON.stringify` literal.  A language reads the
  literals back by its own rules and computes a key with its own escaper: the
  `$` of a Dart literal starts an interpolation, and Go escapes more characters
  than the other two and writes a space as a `+`.

    • `source_read` — what a language reads is what was emitted,
    • `stableEntityKey_agree` — when the three keys are one.
-/
import ClipTown.Lib.PercentEncoding
import ClipTown.Lib.QuotedText
import ClipTown.SchemaOrm.Schema

namespace ClipTown.SchemaOrm

open Checks PercentEncoding Separators

/-! ## §1. Descriptors. -/

/-- `EntityDescriptor`, over the texts of a language or their literals. -/
structure Descriptor (τ : Type) where
  entity : τ
  interfaceType : τ
  table : τ
  primaryKey : List τ
  requiredFields : List τ
  deriving DecidableEq

namespace Descriptor

variable {τ σ : Type}

/-- Every text of a descriptor. -/
def texts (d : Descriptor τ) : List τ :=
  d.entity :: d.interfaceType :: d.table :: (d.primaryKey ++ d.requiredFields)

def map (f : τ → σ) (d : Descriptor τ) : Descriptor σ where
  entity := f d.entity
  interfaceType := f d.interfaceType
  table := f d.table
  primaryKey := d.primaryKey.map f
  requiredFields := d.requiredFields.map f

/-- Read every text, if every one can be read. -/
def mapM (f : τ → Option σ) (d : Descriptor τ) : Option (Descriptor σ) := do
  return {
    entity := ← f d.entity
    interfaceType := ← f d.interfaceType
    table := ← f d.table
    primaryKey := ← d.primaryKey.mapM f
    requiredFields := ← d.requiredFields.mapM f }

end Descriptor

/-- `descriptorData`; `interfaceTypes` holds the `x-interface.type` of the definitions
that have one. -/
def descriptorData (interfaceTypes : List (String × String)) (model : Model) :
    List (Descriptor String) :=
  model.entities.map fun entity => {
    entity := entity.name
    interfaceType := (interfaceTypes.lookup entity.name).getD entity.name
    table := entity.table
    primaryKey := entity.primaryKey
    requiredFields := (entity.fields.filter (·.required)).map (·.name) }

/-! ## §2. The generated sources. -/

/-- The descriptor list of a generated source, every text a literal. -/
abbrev Source := List (Descriptor (List Char))

/-- `JSON.stringify` of the texts of the descriptors. -/
def literals (descriptors : List (Descriptor String)) : Source :=
  descriptors.map (Descriptor.map fun text => QuotedText.quote text.toList)

/-- `formatGo`: gofmt takes no byte order mark within a file. -/
def formatGo (source : Source) : Option Source :=
  if source.any fun d => d.texts.any fun literal => '\ufeff' ∈ literal then none else some source

def generateSharedTs (interfaceTypes : List (String × String)) (model : Model) : Source :=
  literals (descriptorData interfaceTypes model)

def generateSharedGo (interfaceTypes : List (String × String)) (model : Model) : Option Source :=
  formatGo (literals (descriptorData interfaceTypes model))

def generateSharedDart (interfaceTypes : List (String × String)) (model : Model) : Source :=
  literals (descriptorData interfaceTypes model)

/-- The shared sources that `generateFiles` writes, all of them or none. -/
structure SharedSources where
  ts : Source
  go : Source
  dart : Source

def generateShared (interfaceTypes : List (String × String)) (model : Model) :
    Option SharedSources := do
  return {
    ts := generateSharedTs interfaceTypes model
    go := ← generateSharedGo interfaceTypes model
    dart := generateSharedDart interfaceTypes model }

/-! ## §3. Reading the sources. -/

/-- The descriptors that a source declares in a language whose literals may not hold the
`forbidden` characters. -/
def Source.read (forbidden : Char → Bool) (source : Source) : Option (List (Descriptor String)) :=
  source.mapM (Descriptor.mapM fun literal =>
    (QuotedText.read forbidden literal).map String.ofList)

/-- TypeScript. -/
def entityDescriptors (source : Source) : Option (List (Descriptor String)) :=
  source.read fun _ => false

/-- Go. -/
def goEntityDescriptors (source : Source) : Option (List (Descriptor String)) :=
  source.read fun _ => false

/-- Dart: the `$` of an interpolation has no place in a constant list of plain texts. -/
def dartEntityDescriptors (source : Source) : Option (List (Descriptor String)) :=
  source.read (· == '$')

/-! ## §4. Keys. -/

/-- A member of a record. -/
inductive RecordValue where
  | null
  | text (s : String)
  /-- A value of another kind, as the language shows it. -/
  | other (shown : String)

/-- What the value is written as: `String(value)`, `fmt.Sprint`, `toString`. -/
def RecordValue.shown : RecordValue → String
  | .null => "null"
  | .text s => s
  | .other shown => shown

/-- A record; a member that it lacks is `none`. -/
abbrev Record := String → Option RecordValue

section Key

variable {ε : Type} (escape : String → String) (isEmpty : RecordValue → Bool)
  (unknownEntity : String → ε) (missingField : String → String → ε)

/-- One part of a key. -/
def keyPart (entity : String) (record : Record) (field : String) : Except ε String :=
  match record field with
  | none | some .null => .error (missingField entity field)
  | some value =>
      if isEmpty value then .error (missingField entity field) else .ok (escape value.shown)

/-- The stable key of an entity, in a language with these escaper and errors. -/
def entityKey (descriptors : List (Descriptor String)) (entity : String) (record : Record) :
    Except ε String :=
  match descriptors.find? (·.entity = entity) with
  | none => .error (unknownEntity entity)
  | some descriptor => do
      let parts ← descriptor.primaryKey.mapM (keyPart escape isEmpty missingField entity record)
      return ":".intercalate (entity :: parts)

end Key

/-- The error of `ArgumentError` and `ArgumentError.value`. -/
inductive ArgumentError where
  | argument (message : String)
  | value (value name message : String)
  deriving DecidableEq

/-- `encodeURIComponent`; `Uri.encodeComponent` keeps the same characters. -/
def encodeURIComponent : Escaper where
  unreserved c := c.isAlphanum || c ∈ "-_.!~*'()".toList
  plus := false
  percent_reserved := by decide
  plus_reserved := by decide

/-- `url.QueryEscape`. -/
def queryEscape : Escaper where
  unreserved c := c.isAlphanum || c ∈ "-_.~".toList
  plus := true
  percent_reserved := by decide
  plus_reserved := by decide

/-- An escaper, of texts. -/
def escapeText (e : Escaper) (text : String) : String := String.ofList (e.encode text.toList)

/-- `value === ''`, of TypeScript. -/
def RecordValue.isEmptyText : RecordValue → Bool
  | .text s => s = ""
  | _ => false

/-- `fmt.Sprint(value) == ""` and `value.toString().isEmpty`. -/
def RecordValue.showsEmpty (value : RecordValue) : Bool := value.shown = ""

/-- `stableEntityKey`. -/
def stableEntityKey (descriptors : List (Descriptor String)) (entity : String) (record : Record) :
    Except String String :=
  entityKey (escapeText encodeURIComponent) RecordValue.isEmptyText
    (fun entity => "unknown entity: " ++ entity)
    (fun entity field => "missing primary key field " ++ entity ++ "." ++ field)
    descriptors entity record

/-- `StableEntityKey`, of Go. -/
def goStableEntityKey (descriptors : List (Descriptor String)) (entity : String)
    (record : Record) : Except String String :=
  entityKey (escapeText queryEscape) RecordValue.showsEmpty
    (fun entity => "unknown entity: " ++ entity)
    (fun entity field => "missing primary key field " ++ entity ++ "." ++ field)
    descriptors entity record

/-- `stableEntityKey`, of Dart. -/
def dartStableEntityKey (descriptors : List (Descriptor String)) (entity : String)
    (record : Record) : Except ArgumentError String :=
  entityKey (escapeText encodeURIComponent) RecordValue.showsEmpty
    (fun entity => .value entity "entity" "unknown entity")
    (fun entity field => .argument ("missing primary key field " ++ entity ++ "." ++ field))
    descriptors entity record

/-! ## §5. What a language reads. -/

section Guarded

variable {τ σ : Type} {f : σ → Option τ} {g : τ → σ} {bad : τ → Bool}

theorem mapM_guarded (h : ∀ t, f (g t) = if bad t then none else some t) (l : List τ) :
    (l.map g).mapM f = if l.any bad then none else some l := by
  induction l with
  | nil => rfl
  | cons t l ih =>
      rw [List.map_cons, List.mapM_cons, h, ih, List.any_cons]
      by_cases ht : bad t = true
      · simp [ht]
      · by_cases hl : l.any bad = true
        · simp [ht, hl]
        · simp [ht, hl]

/-- A descriptor is read when every one of its texts is. -/
theorem Descriptor.mapM_guarded (h : ∀ t, f (g t) = if bad t then none else some t)
    (d : Descriptor τ) :
    (d.map g).mapM f = if d.texts.any bad then none else some d := by
  unfold Descriptor.mapM Descriptor.map Descriptor.texts
  simp only [h, SchemaOrm.mapM_guarded h, List.any_cons, List.any_append]
  by_cases h₁ : bad d.entity = true
  · simp [h₁]
  by_cases h₂ : bad d.interfaceType = true
  · simp [h₂]
  by_cases h₃ : bad d.table = true
  · simp [h₃]
  by_cases h₄ : d.primaryKey.any bad = true
  · simp [h₄]
  by_cases h₅ : d.requiredFields.any bad = true
  · simp [h₅]
  simp [h₁, h₂, h₃, h₄, h₅]

end Guarded

/-- **A language reads the descriptors that were emitted**, unless one of their texts
has a character that a literal may not hold. -/
theorem source_read {forbidden : Char → Bool}
    (hplain : ∀ c, forbidden c → c ≠ '"' ∧ c ≠ '\\' ∧ ¬ c.toNat < 32)
    (descriptors : List (Descriptor String)) :
    (literals descriptors).read forbidden
      = if descriptors.any fun d => d.texts.any fun t => t.toList.any forbidden then none
        else some descriptors := by
  have hliteral : ∀ t : String, (QuotedText.read forbidden (QuotedText.quote t.toList)).map
      String.ofList = if t.toList.any forbidden then none else some t := by
    intro t
    rw [QuotedText.read_quote hplain]
    split
    · rfl
    · rw [Option.map_some, String.ofList_toList]
  exact mapM_guarded (fun d => Descriptor.mapM_guarded
    (f := fun literal => (QuotedText.read forbidden literal).map String.ofList)
    (g := fun text => QuotedText.quote text.toList) hliteral d) descriptors

theorem read_plain (descriptors : List (Descriptor String)) :
    (literals descriptors).read (fun _ => false) = some descriptors := by
  rw [source_read (fun c hc => Bool.noConfusion hc)]
  simp

theorem dartEntityDescriptors_literals (descriptors : List (Descriptor String)) :
    dartEntityDescriptors (literals descriptors)
      = if descriptors.any fun d => d.texts.any fun t => t.toList.any (· == '$') then none
        else some descriptors := by
  unfold dartEntityDescriptors
  refine source_read (fun c hc => ?_) descriptors
  rw [eq_of_beq hc]
  decide

/-! ## §6. The keys of a record of texts. -/

/-- The members of a key are texts, and none is empty. -/
def HasTextKey (descriptor : Descriptor String) (record : Record) : Prop :=
  ∀ field ∈ descriptor.primaryKey, ∃ v, record field = some (.text v) ∧ v ≠ ""

/-- The text of a member. -/
def keyText (record : Record) (field : String) : String := ((record field).map (·.shown)).getD ""

/-- The key that an escaper gives. -/
def joinedKey (e : Escaper) (descriptor : Descriptor String) (record : Record) : String :=
  ":".intercalate (descriptor.entity
    :: descriptor.primaryKey.map fun field => escapeText e (keyText record field))

section Key

variable {ε : Type} {e e' : Escaper} {isEmpty : RecordValue → Bool} {unknownEntity : String → ε}
  {missingField : String → String → ε} {descriptors : List (Descriptor String)}
  {descriptor : Descriptor String} {record : Record}

theorem entityKey_text (hfind : descriptors.find? (·.entity = descriptor.entity) = some descriptor)
    (hrecord : HasTextKey descriptor record)
    (hempty : ∀ v, v ≠ "" → isEmpty (.text v) = false) :
    entityKey (escapeText e) isEmpty unknownEntity missingField descriptors descriptor.entity
      record = .ok (joinedKey e descriptor record) := by
  have hparts : ∀ fields : List String, (∀ f ∈ fields, f ∈ descriptor.primaryKey) →
      fields.mapM (keyPart (escapeText e) isEmpty missingField descriptor.entity record)
        = .ok (fields.map fun field => escapeText e (keyText record field)) := by
    intro fields hfields
    induction fields with
    | nil => rfl
    | cons field fields ih =>
        obtain ⟨v, hv, hne⟩ := hrecord field (hfields field List.mem_cons_self)
        have hpart : keyPart (escapeText e) isEmpty missingField descriptor.entity record field
            = .ok (escapeText e (keyText record field)) := by
          simp [keyPart, keyText, hv, hempty v hne, RecordValue.shown]
        rw [List.mapM_cons, hpart, ih fun f hf => hfields f (List.mem_cons_of_mem field hf)]
        rfl
  unfold entityKey
  rw [hfind]
  simp only [hparts _ fun _ hf => hf]
  rfl

/-- **Two escapers give one key iff they agree on every character of its values.** -/
theorem joinedKey_eq_iff (he : e.unreserved ':' = false) (he' : e'.unreserved ':' = false) :
    joinedKey e descriptor record = joinedKey e' descriptor record
      ↔ ∀ field ∈ descriptor.primaryKey, ∀ c ∈ (keyText record field).toList,
          e.head c = e'.head c := by
  have hfree : ∀ f : Escaper, f.unreserved ':' = false →
      ∀ p ∈ descriptor.primaryKey.map fun field => f.encode (keyText record field).toList,
        ':' ∉ p := by
    intro f hf p hp
    obtain ⟨field, _, rfl⟩ := List.mem_map.mp hp
    exact f.not_mem_encode hf (by decide) _
  have hlist : ∀ f : Escaper, (joinedKey f descriptor record).toList
      = descriptor.entity.toList ++ separated ':'
          (descriptor.primaryKey.map fun field => f.encode (keyText record field).toList) := by
    intro f
    have hparts : String.toList ∘ (fun field => escapeText f (keyText record field))
        = fun field => f.encode (keyText record field).toList :=
      funext fun field => String.toList_ofList
    unfold joinedKey
    rw [String.toList_intercalate, List.map_cons, List.map_map, hparts]
    exact intercalate_cons ':' _ _
  -- no part holds the separator, so the joined texts are equal part by part
  rw [← String.toList_inj, hlist, hlist, List.append_cancel_left_eq]
  constructor
  · intro h field hfield
    have hparts := separated_inj (hfree e he) (hfree e' he') h
    rw [List.map_inj_left] at hparts
    exact (e.encode_eq_iff e' _).mp (hparts field hfield)
  · intro h
    refine congrArg (separated ':') (List.map_inj_left.mpr ?_)
    exact fun field hfield => (e.encode_eq_iff e' _).mpr (h field hfield)

end Key

/-- What one escaper keeps and the other does not: a space and five marks. -/
def divergent : List Char := " !*'()".toList

theorem head_eq_iff (c : Char) :
    encodeURIComponent.head c = queryEscape.head c ↔ c ∉ divergent := by
  by_cases hc : c ∈ divergent
  · -- kept by one and percent-encoded by the other, or the `%` and the `+` of a space
    have hne : ∀ d ∈ divergent, encodeURIComponent.head d ≠ queryEscape.head d := by
      decide
    exact iff_of_false (hne c hc) (not_not.mpr hc)
  · have hkept : encodeURIComponent.unreserved c = queryEscape.unreserved c := by
      show (c.isAlphanum || decide (c ∈ ['-', '_', '.', '!', '~', '*', '\'', '(', ')']))
        = (c.isAlphanum || decide (c ∈ ['-', '_', '.', '~']))
      change c ∉ [' ', '!', '*', '\'', '(', ')'] at hc
      grind
    have hspace : c ≠ ' ' := by
      intro h
      exact hc (h ▸ by decide)
    refine iff_of_true ?_ hc
    unfold Escaper.head
    simp only [hkept, hspace, and_false]

/-! ## §7. One key in three languages. -/

theorem generateShared_eq_some {interfaceTypes : List (String × String)} {model : Model}
    {sources : SharedSources} (h : generateShared interfaceTypes model = some sources) :
    sources.ts = literals (descriptorData interfaceTypes model)
      ∧ sources.go = literals (descriptorData interfaceTypes model)
      ∧ sources.dart = literals (descriptorData interfaceTypes model) := by
  unfold generateShared generateSharedGo formatGo at h
  split at h
  · cases h
  · cases h
    exact ⟨rfl, rfl, rfl⟩

/-- The descriptor of an entity is found by its name. -/
theorem find_descriptorData {interfaceTypes : List (String × String)} {model : Model}
    (hnames : (model.entities.map (·.name)).Nodup) {descriptor : Descriptor String}
    (hd : descriptor ∈ descriptorData interfaceTypes model) :
    (descriptorData interfaceTypes model).find? (·.entity = descriptor.entity)
      = some descriptor := by
  refine find?_of_nodup ?_ hd
  unfold descriptorData
  rw [List.map_map]
  exact hnames

/-- The three languages compute one key. -/
def OneKey (sources : SharedSources) (entity : String) (record : Record) : Prop :=
  ∃ key,
    (entityDescriptors sources.ts).map (stableEntityKey · entity record) = some (.ok key)
      ∧ (goEntityDescriptors sources.go).map (goStableEntityKey · entity record)
        = some (.ok key)
      ∧ (dartEntityDescriptors sources.dart).map (dartStableEntityKey · entity record)
        = some (.ok key)

/-- **When the three languages compute one key**: exactly when no emitted text has a
`$` and no value of the key has a character that Go escapes in a way of its own. -/
theorem stableEntityKey_agree {schema : Schema} {interfaceTypes : List (String × String)}
    {model : Model} {sources : SharedSources} {descriptor : Descriptor String} {record : Record}
    (hmodel : normalizeSchema schema = .ok model)
    (hsources : generateShared interfaceTypes model = some sources)
    (hd : descriptor ∈ descriptorData interfaceTypes model)
    (hrecord : HasTextKey descriptor record) :
    OneKey sources descriptor.entity record
      ↔ (∀ d ∈ descriptorData interfaceTypes model, ∀ t ∈ d.texts, '$' ∉ t.toList)
        ∧ ∀ field ∈ descriptor.primaryKey, ∀ c ∈ (keyText record field).toList, c ∉ divergent := by
  obtain ⟨_, hnames, _⟩ := normalizeSchema_entities hmodel
  have hfind := find_descriptorData hnames hd
  obtain ⟨hts, hgo, hdart⟩ := generateShared_eq_some hsources
  have hshows : ∀ v, v ≠ "" → RecordValue.showsEmpty (.text v) = false := by
    intro v hv
    exact decide_eq_false hv
  have hisEmpty : ∀ v, v ≠ "" → RecordValue.isEmptyText (.text v) = false := by
    intro v hv
    exact decide_eq_false hv
  -- TypeScript and Go always give a key, each with its own escaper
  have htsKey : (entityDescriptors sources.ts).map (stableEntityKey · descriptor.entity record)
      = some (.ok (joinedKey encodeURIComponent descriptor record)) := by
    rw [hts, entityDescriptors, read_plain, Option.map_some]
    exact congrArg some (entityKey_text hfind hrecord hisEmpty)
  have hgoKey : (goEntityDescriptors sources.go).map
      (goStableEntityKey · descriptor.entity record)
      = some (.ok (joinedKey queryEscape descriptor record)) := by
    rw [hgo, goEntityDescriptors, read_plain, Option.map_some]
    exact congrArg some (entityKey_text hfind hrecord hshows)
  have hagree : joinedKey encodeURIComponent descriptor record
        = joinedKey queryEscape descriptor record
      ↔ ∀ field ∈ descriptor.primaryKey, ∀ c ∈ (keyText record field).toList, c ∉ divergent := by
    rw [joinedKey_eq_iff (by decide) (by decide)]
    simp only [head_eq_iff]
  unfold OneKey
  rw [htsKey, hgoKey, ← hagree, hdart, dartEntityDescriptors_literals]
  have hread : ¬ ((descriptorData interfaceTypes model).any fun d =>
        d.texts.any fun t => t.toList.any (· == '$')) = true
      ↔ ∀ d ∈ descriptorData interfaceTypes model, ∀ t ∈ d.texts, '$' ∉ t.toList := by
    simp only [List.any_eq_true, beq_iff_eq, exists_eq_right, not_exists, not_and]
  by_cases hdollar : ∀ d ∈ descriptorData interfaceTypes model, ∀ t ∈ d.texts, '$' ∉ t.toList
  · have hdartKey : dartStableEntityKey (descriptorData interfaceTypes model) descriptor.entity
        record = .ok (joinedKey encodeURIComponent descriptor record) :=
      entityKey_text hfind hrecord hshows
    rw [if_neg (hread.mpr hdollar), Option.map_some, hdartKey]
    constructor
    · intro ⟨key, hts, hgo, _⟩
      have htsEq := Except.ok.inj (Option.some.inj hts)
      have hgoEq := Except.ok.inj (Option.some.inj hgo)
      exact ⟨hdollar, htsEq.trans hgoEq.symm⟩
    · intro ⟨_, heq⟩
      exact ⟨_, rfl, by rw [heq], rfl⟩
  · -- a `$` in a literal leaves Dart without descriptors
    rw [if_pos (not_not.mp fun h => hdollar (hread.mp h))]
    constructor
    · intro ⟨key, _, _, h⟩
      cases h
    · intro ⟨h, _⟩
      exact absurd h hdollar

/-- The sync cursors of a device: an entity with a key of two texts. -/
def cursorSchema : Schema where
  schemaUri := "https://json-schema.org/draft/2020-12/schema"
  libCore := some {
    product := "cliptown", interfacesRepository := "cliptown/cliptown-interfaces" }
  defs := some [("SyncCursor", {
    type := "object"
    required := ["deviceId", "stream"]
    db := some { table := "cliptown_sync_cursors", primaryKey := some ["deviceId", "stream"] }
    properties := [("deviceId", { types := ["string"], format := some "uuid" }),
      ("stream", { types := ["string"], maxLength := some 128 })] })]

def cursorDescriptor : Descriptor String where
  entity := "SyncCursor"
  interfaceType := "SyncCursor"
  table := "cliptown_sync_cursors"
  primaryKey := ["deviceId", "stream"]
  requiredFields := ["deviceId", "stream"]

/-- The cursor of a stream. -/
def cursorRecord (stream : String) : Record
  | "deviceId" => some (.text "d1")
  | "stream" => some (.text stream)
  | _ => none

theorem exists_cursorModel : ∃ model sources, normalizeSchema cursorSchema = .ok model
    ∧ generateShared [] model = some sources ∧ descriptorData [] model = [cursorDescriptor] := by
  obtain ⟨model, hmodel, hwritten, hdata⟩ := exists_model
    (fun model => (generateShared [] model).isSome = true
      ∧ descriptorData [] model = [cursorDescriptor])
    (by decide : (normalizeSchema cursorSchema).toOption.any _ = true)
  obtain ⟨sources, hsources⟩ := Option.isSome_iff_exists.mp hwritten
  exact ⟨model, sources, hmodel, hsources, hdata⟩

theorem cursorRecord_hasTextKey {stream : String} (h : stream ≠ "") :
    HasTextKey cursorDescriptor (cursorRecord stream) := by
  intro field hfield
  rcases List.mem_cons.mp hfield with rfl | hfield
  · exact ⟨"d1", rfl, by decide⟩
  · rw [List.mem_singleton] at hfield
    exact ⟨stream, by rw [hfield]; rfl, h⟩

theorem stableEntityKey_agree_clipboard : ∃ model sources,
    normalizeSchema cursorSchema = .ok model ∧ generateShared [] model = some sources
      ∧ (OneKey sources "SyncCursor" (cursorRecord "clipboard")
        ↔ (∀ d ∈ descriptorData [] model, ∀ t ∈ d.texts, '$' ∉ t.toList)
          ∧ ∀ field ∈ cursorDescriptor.primaryKey,
              ∀ c ∈ (keyText (cursorRecord "clipboard") field).toList, c ∉ divergent) := by
  obtain ⟨model, sources, hmodel, hsources, hdata⟩ := exists_cursorModel
  have hmem : cursorDescriptor ∈ descriptorData [] model := by
    rw [hdata]
    exact List.mem_singleton_self cursorDescriptor
  exact ⟨model, sources, hmodel, hsources,
    stableEntityKey_agree hmodel hsources hmem (cursorRecord_hasTextKey (by decide))⟩

/-- A space in the name of a stream gives the cursor two keys. -/
theorem space_splits_key : ∃ model sources,
    normalizeSchema cursorSchema = .ok model ∧ generateShared [] model = some sources
      ∧ HasTextKey cursorDescriptor (cursorRecord "my phone")
      ∧ (entityDescriptors sources.ts).map
          (stableEntityKey · "SyncCursor" (cursorRecord "my phone"))
        = some (.ok "SyncCursor:d1:my%20phone")
      ∧ (goEntityDescriptors sources.go).map
          (goStableEntityKey · "SyncCursor" (cursorRecord "my phone"))
        = some (.ok "SyncCursor:d1:my+phone")
      ∧ (dartEntityDescriptors sources.dart).map
          (dartStableEntityKey · "SyncCursor" (cursorRecord "my phone"))
        = some (.ok "SyncCursor:d1:my%20phone") := by
  obtain ⟨model, sources, hmodel, hsources, hdata⟩ := exists_cursorModel
  obtain ⟨hts, hgo, hdart⟩ := generateShared_eq_some hsources
  rw [hdata] at hts hgo hdart
  refine ⟨model, sources, hmodel, hsources, cursorRecord_hasTextKey (by decide), ?_⟩
  rw [hts, hgo, hdart]
  exact ⟨by decide, by decide, by decide⟩

end ClipTown.SchemaOrm
