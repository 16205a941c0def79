/-
  ClipTown.Validation.ServerAdmits — which values the four server validators accept.

  A value has members for a runtime: an object its own, in Rust an array those
  in the order of the declaration, and in Go a null or a missing value the zero
  ones.  `Admits` says which values a runtime takes, member by member, and

    • `accepts_iff` — a runtime accepts a value whose keys it knows iff it
      admits the value.

  The proofs go model by model from the inside out, in each runtime with its
  own rule for a model (`rust_struct`, `go_struct`, `gleam_struct`,
  `typescript_object`).
-/
import ClipTown.Lib.Checks
import ClipTown.Validation.PublicAgreement
import ClipTown.Validation.Server

namespace ClipTown.ServerModels

open JsonData PublicModels

/-! ## §1. What a runtime admits. -/

/-- What is asked of a member that is no model of its own. -/
inductive Leaf where
  | text (min max : Nat)
  | optionalText (min max : Nat)
  | roles
  | sourceIp
  | payload
  deriving DecidableEq

def actorFields : List (String × Leaf) :=
  [("userId", .text 1 128), ("tenantId", .optionalText 1 128), ("roles", .roles)]

def metaKeys : List String := ["requestId", "traceId", "locale"]

def actorKeys : List String := ["userId", "tenantId", "roles"]

/-- TypeScript extends the request meta; the others have a member for it. -/
def contextKeys : Runtime → List String
  | .typescript => metaKeys ++ ["actor", "sourceIp"]
  | _ => ["public", "actor", "sourceIp"]

def commandKeys : List String := ["operationId", "idempotencyKey", "context", "payload"]

/-- The members of a value, to a runtime that declares these. -/
def members (runtime : Runtime) (declared : List String) :
    Option JsonValue → Option (String → Option JsonValue)
  | some (.obj fields) => some fun key => fields.lookup key
  | some (.arr items) =>
      if runtime = .rust ∧ items.length = declared.length then
        some fun key => (declared.zip items).lookup key
      else none
  | some .null => if runtime = .go then some fun _ => none else none
  | none => if runtime = .go then some fun _ => none else none
  | some _ => none

section Admits

variable (lib : Libraries) (runtime : Runtime)

/-- A text is an address to the runtime's library; Gleam asks for a dot or a colon. -/
def IsAddress (s : String) : Prop :=
  match runtime with
  | .rust => lib.gardeIp s = true
  | .go => lib.goIp s = true
  | .gleam => Within lib.graphemes .gleam 2 45 s ∧ ('.' ∈ s.toList ∨ ':' ∈ s.toList)
  | .typescript => lib.zodIpv4 s = true ∨ lib.zodIpv6 s = true

/-- The values a runtime takes at a leaf. -/
def Leaf.Admits : Leaf → Option JsonValue → Prop
  | .text min max, v => PublicModels.Admits lib.graphemes runtime (.text min max) v
  | .optionalText min max, v => PublicModels.Admits lib.graphemes runtime (.optionalText min max) v
  | .roles, none => runtime = .go
  | .roles, some .null => runtime = .go
  | .roles, some (.arr items) =>
      items.length ≤ 64
        ∧ ∀ item ∈ items, PublicModels.Admits lib.graphemes runtime (.text 1 128) (some item)
  | .sourceIp, none => True
  | .sourceIp, some .null => runtime = .rust ∨ runtime = .go
  | .sourceIp, some (.str s) => IsAddress lib runtime s ∨ (runtime = .go ∧ s = "")
  | .payload, none => runtime = .go ∨ (runtime = .typescript ∧ lib.zodMissing = true)
  | .payload, some _ => True
  | _, _ => False

/-- The members of a request meta. -/
def AdmitsMeta (get : String → Option JsonValue) : Prop :=
  ∀ field ∈ contract .requestMeta,
    PublicModels.Admits lib.graphemes runtime field.2 (get field.1)

def AdmitsActor (v : Option JsonValue) : Prop :=
  ∃ get, members runtime actorKeys v = some get
    ∧ ∀ field ∈ actorFields, field.2.Admits lib runtime (get field.1)

/-- A context, with its request meta in its place. -/
def AdmitsContext (v : Option JsonValue) : Prop :=
  ∃ get, members runtime (contextKeys runtime) v = some get
    ∧ (if runtime = .typescript then AdmitsMeta lib runtime get
        else ∃ inner, members runtime metaKeys (get "public") = some inner
          ∧ AdmitsMeta lib runtime inner)
    ∧ AdmitsActor lib runtime (get "actor")
    ∧ Leaf.sourceIp.Admits lib runtime (get "sourceIp")

def AdmitsCommand (v : Option JsonValue) : Prop :=
  ∃ get, members runtime commandKeys v = some get
    ∧ (Leaf.text 1 256).Admits lib runtime (get "operationId")
    ∧ (Leaf.optionalText 1 128).Admits lib runtime (get "idempotencyKey")
    ∧ AdmitsContext lib runtime (get "context")
    ∧ Leaf.payload.Admits lib runtime (get "payload")

def Admits : ServerModel → JsonValue → Prop
  | .serverRequestContext, v => AdmitsContext lib runtime (some v)
  | .internalCommand, v => AdmitsCommand lib runtime (some v)

end Admits

@[simp] theorem Leaf.admits_text {lib : Libraries} {runtime : Runtime} {min max : Nat}
    {v : Option JsonValue} :
    (Leaf.text min max).Admits lib runtime v
      ↔ PublicModels.Admits lib.graphemes runtime (.text min max) v := Iff.rfl

@[simp] theorem Leaf.admits_optionalText {lib : Libraries} {runtime : Runtime} {min max : Nat}
    {v : Option JsonValue} :
    (Leaf.optionalText min max).Admits lib runtime v
      ↔ PublicModels.Admits lib.graphemes runtime (.optionalText min max) v := Iff.rfl

/-! ## §2. Known keys. -/

/-- The keys of an object are declared, and none repeats. -/
def KeysDeclared (declared : List String) : JsonValue → Prop
  | .obj fields => (fields.map Prod.fst).Nodup ∧ ∀ key ∈ fields.map Prod.fst, key ∈ declared
  | _ => True

section Known

variable (runtime : Runtime)

/-- A runtime knows the keys of a context. -/
def KnowsContext (v : JsonValue) : Prop :=
  KeysDeclared (contextKeys runtime) v
    ∧ ∀ get, members runtime (contextKeys runtime) (some v) = some get →
        (∀ inner, get "public" = some inner → KeysDeclared metaKeys inner)
          ∧ ∀ inner, get "actor" = some inner → KeysDeclared actorKeys inner

def KnowsCommand (v : JsonValue) : Prop :=
  KeysDeclared commandKeys v
    ∧ ∀ get, members runtime commandKeys (some v) = some get →
        ∀ inner, get "context" = some inner → KnowsContext runtime inner

/-- No key of the value is unknown to the runtime's own model. -/
def Knows : ServerModel → JsonValue → Prop
  | .serverRequestContext, v => KnowsContext runtime v
  | .internalCommand, v => KnowsCommand runtime v

end Known

/-- The verdict of a runtime. -/
def accepts (lib : Libraries) : Runtime → ServerModel → JsonValue → Bool
  | .rust => Rust.accepts lib.gardeIp
  | .go => Go.accepts lib.goIp
  | .gleam => Gleam.accepts lib.graphemes
  | .typescript => TypeScript.accepts lib.zodIpv4 lib.zodIpv6 lib.zodMissing

theorem object?_obj {fields : List (String × JsonValue)} (h : (fields.map Prod.fst).Nodup) :
    JsonValue.object? (.obj fields) = some ⟨fields, h⟩ := dif_pos h

/-- A list is translated, within a length and with every result as asked, iff its items
are. -/
theorem exists_mapM {α β : Type} {f : α → Option β} {p : β → Prop} {items : List α} {n : Nat} :
    (∃ values, items.mapM f = some values ∧ values.length ≤ n ∧ ∀ b ∈ values, p b)
      ↔ items.length ≤ n ∧ ∀ a ∈ items, ∃ b, f a = some b ∧ p b := by
  constructor
  · intro hex
    obtain ⟨values, hvalues, hlength, hall⟩ := hex
    -- values and items correspond one by one
    have hrelated := Checks.mapM_eq_some.mp hvalues
    rw [← hrelated.length_eq] at hlength
    refine ⟨hlength, ?_⟩
    intro a ha
    obtain ⟨b, hb, hf⟩ := (Checks.exists_of_forall₂ hrelated).1 a ha
    exact ⟨b, hf, hall b hb⟩
  · intro hall
    obtain ⟨hlength, hitems⟩ := hall
    obtain ⟨values, hvalues⟩ : ∃ values, items.mapM f = some values := by
      refine Checks.mapM_isSome ?_
      intro a ha
      obtain ⟨b, hf, _⟩ := hitems a ha
      exact ⟨b, hf⟩
    have hrelated := Checks.mapM_eq_some.mp hvalues
    refine ⟨values, hvalues, hrelated.length_eq ▸ hlength, ?_⟩
    intro b hb
    obtain ⟨a, ha, hf⟩ := (Checks.exists_of_forall₂ hrelated).2 b hb
    obtain ⟨b', hf', hp⟩ := hitems a ha
    rwa [Option.some.inj (hf.symm.trans hf')]

/-! ### Rust. -/

section RustSpec

variable (lib : Libraries)

open Runtimes.Rust

/-- A struct reads the members of a value. -/
theorem rust_struct {declared : List String} (hdeclared : declared.Nodup) {v : JsonValue}
    (hkeys : KeysDeclared declared v) {p : JsonObject → Prop}
    {q : (String → Option JsonValue) → Prop}
    (hpq : ∀ object, members .rust declared (some v) = some object.get →
      (p object ↔ q object.get)) :
    (∃ object, structFields declared v = some object
        ∧ denyUnknownFields declared object = some () ∧ p object)
      ↔ ∃ get, members .rust declared (some v) = some get ∧ q get := by
  cases v with
  | obj fields =>
      -- all keys are declared, so nothing is there to refuse
      have hdeny : denyUnknownFields declared ⟨fields, hkeys.1⟩ = some () := if_pos hkeys.2
      simp only [structFields, object?_obj hkeys.1, members, Option.some.injEq, exists_eq_left',
        hdeny, true_and]
      exact hpq ⟨fields, hkeys.1⟩ rfl
  | arr items =>
      -- an array counts as the object of the declared names, which are distinct
      by_cases hlength : items.length = declared.length
      · have hfst : (declared.zip items).map Prod.fst = declared :=
          List.map_fst_zip (le_of_eq hlength.symm)
        have hnodup : ((declared.zip items).map Prod.fst).Nodup := by rwa [hfst]
        have hdeny : denyUnknownFields declared ⟨declared.zip items, hnodup⟩ = some () := by
          refine if_pos fun key hkey => ?_
          change key ∈ (declared.zip items).map Prod.fst at hkey
          rwa [hfst] at hkey
        have hmembers : members .rust declared (some (.arr items))
            = some (fun key => (declared.zip items).lookup key) := if_pos ⟨rfl, hlength⟩
        simp only [structFields, object?_obj hnodup, hmembers, hlength,
          if_true, Option.some.injEq, exists_eq_left', hdeny, true_and]
        exact hpq ⟨declared.zip items, hnodup⟩ hmembers
      · simp [structFields, members, hlength]
  | _ => simp [structFields, JsonValue.object?, members]

/-- A member that is a model of its own. -/
theorem rust_nested {α : Type} {object : JsonObject} {key : String}
    {deserialize : JsonValue → Option α} {p : α → Prop} {q : Option JsonValue → Prop}
    (hnone : ¬ q none)
    (hsome : ∀ inner, object.get key = some inner →
      ((∃ x, deserialize inner = some x ∧ p x) ↔ q (some inner))) :
    (∃ x, field object key deserialize = some x ∧ p x) ↔ q (object.get key) := by
  unfold field
  cases hget : object.get key with
  | none => simp [hnone]
  | some inner => exact hsome inner hget

theorem rust_roles {object : JsonObject} {key : String} :
    (∃ roles, field object key (deserializeVec deserializeString) = some roles
        ∧ roles.length ≤ 64 ∧ roles.all (length 1 128) = true)
      ↔ Leaf.roles.Admits lib .rust (object.get key) := by
  unfold field
  rcases object.get key with _ | (_ | _ | _ | _ | items | _)
  case some.arr =>
    simp only [Option.bind_some, deserializeVec, List.all_eq_true, exists_mapM, Leaf.Admits]
    refine and_congr_right fun _ => forall₂_congr fun item _ => ?_
    rcases item with _ | _ | _ | s | _ | _ <;>
      simp [deserializeString, length, PublicModels.Admits, Within, PublicModels.measure]
  all_goals simp [deserializeVec, Leaf.Admits]

theorem rust_sourceIp {object : JsonObject} {key : String} :
    (∃ s, optionField object key deserializeString = some s
        ∧ onOption lib.gardeIp s = true)
      ↔ Leaf.sourceIp.Admits lib .rust (object.get key) := by
  unfold optionField
  rcases object.get key with _ | (_ | _ | _ | s | _ | _) <;>
    simp [deserializeString, Leaf.Admits, IsAddress, onOption]

theorem rust_payload {object : JsonObject} {key : String} :
    (∃ payload, field object key some = some payload)
      ↔ Leaf.payload.Admits lib .rust (object.get key) := by
  unfold field
  cases object.get key <;> simp [Leaf.Admits]

theorem rust_meta {v : JsonValue} (hkeys : KeysDeclared metaKeys v) :
    (∃ x, Rust.deserializeRequestMeta v = some x ∧ x.validate = true)
      ↔ ∃ get, members .rust metaKeys (some v) = some get ∧ AdmitsMeta lib .rust get := by
  rw [← rust_struct (by decide) hkeys (p := fun object =>
    (∃ s, field object "requestId" deserializeString = some s ∧ length 1 128 s = true)
      ∧ (∃ s, field object "traceId" deserializeString = some s ∧ length 1 128 s = true)
      ∧ ∃ s, optionField object "locale" deserializeString = some s
        ∧ onOption (length 2 64) s = true)]
  · simp only [Rust.deserializeRequestMeta, PublicModels.Rust.RequestMeta.deserialize,
      Option.bind_eq_bind, Option.pure_def, Option.bind_eq_some_iff,
      PublicModels.Rust.RequestMeta.validate, metaKeys]
    grind
  · intro object _
    simp only [AdmitsMeta, contract, List.forall_mem_cons, rust_text lib.graphemes,
      rust_optionalText lib.graphemes]
    simp

theorem rust_actor {v : JsonValue} (hkeys : KeysDeclared actorKeys v) :
    (∃ x, Rust.TrustedActor.deserialize v = some x ∧ x.validate = true)
      ↔ AdmitsActor lib .rust (some v) := by
  unfold AdmitsActor
  rw [← rust_struct (by decide) hkeys (p := fun object =>
    (∃ s, field object "userId" deserializeString = some s ∧ length 1 128 s = true)
      ∧ (∃ s, optionField object "tenantId" deserializeString = some s
        ∧ onOption (length 1 128) s = true)
      ∧ ∃ roles, field object "roles" (deserializeVec deserializeString) = some roles
        ∧ roles.length ≤ 64 ∧ roles.all (length 1 128) = true)]
  · simp only [Rust.TrustedActor.deserialize, Option.bind_eq_bind, Option.pure_def,
      Option.bind_eq_some_iff, Rust.TrustedActor.validate, actorKeys]
    grind
  · intro object _
    simp only [actorFields, List.forall_mem_cons, rust_text lib.graphemes,
      rust_optionalText lib.graphemes, rust_roles lib]
    simp [Leaf.Admits]

theorem rust_context {v : JsonValue} (hknows : KnowsContext .rust v) :
    (∃ x, Rust.ServerRequestContext.deserialize v = some x ∧ x.validate lib.gardeIp = true)
      ↔ AdmitsContext lib .rust (some v) := by
  unfold AdmitsContext
  rw [← rust_struct (by decide) hknows.1 (p := fun object =>
    (∃ x, field object "public" Rust.deserializeRequestMeta = some x ∧ x.validate = true)
      ∧ (∃ x, field object "actor" Rust.TrustedActor.deserialize = some x ∧ x.validate = true)
      ∧ ∃ s, optionField object "sourceIp" deserializeString = some s
        ∧ onOption lib.gardeIp s = true)]
  · simp only [Rust.ServerRequestContext.deserialize, Option.bind_eq_bind, Option.pure_def,
      Option.bind_eq_some_iff, Rust.ServerRequestContext.validate, contextKeys]
    grind
  · intro object hmembers
    -- the keys of the two inner models are known as well
    obtain ⟨hpublic, hactor⟩ := hknows.2 _ hmembers
    rw [rust_sourceIp lib, rust_nested (q := AdmitsActor lib .rust) (by simp [AdmitsActor, members])
        fun inner hinner => rust_actor lib (hactor inner hinner),
      rust_nested (q := fun v => ∃ get, members .rust metaKeys v = some get
          ∧ AdmitsMeta lib .rust get) (by simp [members])
        fun inner hinner => rust_meta lib (hpublic inner hinner)]
    simp

theorem rust_command {v : JsonValue} (hknows : KnowsCommand .rust v) :
    (∃ x, Rust.InternalCommand.deserialize v = some x ∧ x.validate lib.gardeIp = true)
      ↔ AdmitsCommand lib .rust (some v) := by
  unfold AdmitsCommand
  rw [← rust_struct (by decide) hknows.1 (p := fun object =>
    (∃ s, field object "operationId" deserializeString = some s ∧ length 1 256 s = true)
      ∧ (∃ s, optionField object "idempotencyKey" deserializeString = some s
        ∧ onOption (length 1 128) s = true)
      ∧ (∃ x, field object "context" Rust.ServerRequestContext.deserialize = some x
        ∧ x.validate lib.gardeIp = true)
      ∧ ∃ payload, field object "payload" some = some payload)]
  · simp only [Rust.InternalCommand.deserialize, Option.bind_eq_bind, Option.pure_def,
      Option.bind_eq_some_iff, Rust.InternalCommand.validate, commandKeys]
    grind
  · intro object hmembers
    rw [rust_payload lib, rust_text lib.graphemes, rust_optionalText lib.graphemes,
      rust_nested (q := AdmitsContext lib .rust) (by simp [AdmitsContext, members])
        fun inner hinner => rust_context lib (hknows.2 _ hmembers inner hinner)]
    simp [Leaf.Admits]

theorem rust_accepts {model : ServerModel} {v : JsonValue} (hknows : Knows .rust model v) :
    Rust.accepts lib.gardeIp model v = true ↔ Admits lib .rust model v := by
  cases model with
  | serverRequestContext => exact (Option.any_eq_true _ _).trans (rust_context lib hknows)
  | internalCommand => exact (Option.any_eq_true _ _).trans (rust_command lib hknows)

end RustSpec

/-! ### Go. -/

section GoSpec

open Runtimes.Go

variable (lib : Libraries)

theorem go_struct {declared : List String} {v : Option JsonValue}
    (hkeys : ∀ inner, v = some inner → KeysDeclared declared inner) {p : JsonObject → Prop}
    {q : (String → Option JsonValue) → Prop}
    (hpq : ∀ object, members .go declared v = some object.get → (p object ↔ q object.get)) :
    (∃ object, decodeStruct v = some object ∧ p object)
      ↔ ∃ get, members .go declared v = some get ∧ q get := by
  rcases v with _ | (_ | _ | _ | _ | items | fields)
  case none =>
    simp only [decodeStruct, members, if_true, Option.some.injEq, exists_eq_left']
    exact hpq JsonObject.empty rfl
  case some.null =>
    simp only [decodeStruct, members, if_true, Option.some.injEq, exists_eq_left']
    exact hpq JsonObject.empty rfl
  case some.obj =>
    have hnodup := (hkeys _ rfl).1
    simp only [decodeStruct, object?_obj hnodup, members, Option.some.injEq, exists_eq_left']
    exact hpq ⟨fields, hnodup⟩ rfl
  all_goals simp [decodeStruct, JsonValue.object?, members]

theorem go_roles {v : Option JsonValue} :
    (∃ roles, decodeStrings v = some roles
        ∧ checkTags (roles = []) roles.length [.max 64] = true
        ∧ roles.all (checkString [.min 1, .max 128]) = true)
      ↔ Leaf.roles.Admits lib .go v := by
  rcases v with _ | (_ | _ | _ | _ | items | _)
  case some.arr =>
    simp only [decodeStrings, checkTags, Bool.and_true, decide_eq_true_eq, List.all_eq_true,
      exists_mapM, Leaf.Admits]
    refine and_congr_right fun _ => forall₂_congr fun item _ => ?_
    rcases item with _ | _ | _ | s | _ | _ <;>
      simp [decodeString, checkString, checkTags, PublicModels.Admits, Within,
        PublicModels.measure]
  all_goals simp [decodeStrings, Leaf.Admits, checkTags]

theorem go_sourceIp {v : Option JsonValue} :
    (∃ s, decodeString v = some s ∧ (s = "" || lib.goIp s) = true)
      ↔ Leaf.sourceIp.Admits lib .go v := by
  rcases v with _ | (_ | _ | _ | s | _ | _) <;>
    simp [decodeString, Leaf.Admits, IsAddress, or_comm]

/-- A value whose first text is not empty is not the zero of its type. -/
theorem required_of_checkString {s : String} {max : Nat} {isZero : Bool}
    (hcheck : checkString [.required, .min 1, .max max] s = true) (hzero : isZero = true → s = "") :
    checkTags isZero 0 [.required] = true := by
  cases isZero with
  | false => rfl
  | true =>
      rw [hzero rfl] at hcheck
      simp [checkString, checkTags] at hcheck

theorem go_meta {v : Option JsonValue}
    (hkeys : ∀ inner, v = some inner → KeysDeclared metaKeys inner) :
    (∃ x, Go.decodeRequestMeta v = some x
        ∧ checkTags (x = Go.RequestMeta.zero) 0 [.required] = true ∧ x.validate = true)
      ↔ ∃ get, members .go metaKeys v = some get ∧ AdmitsMeta lib .go get := by
  rw [← go_struct hkeys (p := fun object =>
    (∃ s, decodeString (object.get "requestId") = some s
        ∧ checkString [.required, .min 1, .max 128] s = true)
      ∧ (∃ s, decodeString (object.get "traceId") = some s
        ∧ checkString [.required, .min 1, .max 128] s = true)
      ∧ ∃ s, decodeString (object.get "locale") = some s
        ∧ checkString [.omitempty, .min 2, .max 64] s = true)]
  · have hrequired : ∀ x : PublicModels.Go.RequestMeta, x.validate = true →
        checkTags (x = Go.RequestMeta.zero) 0 [.required] = true := by
      intro x hx
      simp only [PublicModels.Go.RequestMeta.validate, Bool.and_eq_true] at hx
      exact required_of_checkString hx.1.1 fun h => by rw [of_decide_eq_true h]; rfl
    simp only [Go.decodeRequestMeta, Option.bind_eq_bind, Option.pure_def,
      Option.bind_eq_some_iff]
    grind [PublicModels.Go.RequestMeta.validate]
  · intro object _
    simp only [AdmitsMeta, contract, List.forall_mem_cons, go_text (le_refl 1) lib.graphemes,
      go_optionalText lib.graphemes]
    simp

theorem go_actor {v : Option JsonValue}
    (hkeys : ∀ inner, v = some inner → KeysDeclared actorKeys inner) :
    (∃ x, Go.TrustedActor.decode v = some x
        ∧ checkTags (x = Go.TrustedActor.zero) 0 [.required] = true ∧ x.validate = true)
      ↔ AdmitsActor lib .go v := by
  unfold AdmitsActor
  rw [← go_struct hkeys (p := fun object =>
    (∃ s, decodeString (object.get "userId") = some s
        ∧ checkString [.required, .min 1, .max 128] s = true)
      ∧ (∃ s, decodeString (object.get "tenantId") = some s
        ∧ checkString [.omitempty, .min 1, .max 128] s = true)
      ∧ ∃ roles, decodeStrings (object.get "roles") = some roles
        ∧ checkTags (roles = []) roles.length [.max 64] = true
        ∧ roles.all (checkString [.min 1, .max 128]) = true)]
  · have hrequired : ∀ x : Go.TrustedActor, x.validate = true →
        checkTags (x = Go.TrustedActor.zero) 0 [.required] = true := by
      intro x hx
      simp only [Go.TrustedActor.validate, Bool.and_eq_true] at hx
      exact required_of_checkString hx.1.1.1 fun h => by rw [of_decide_eq_true h]; rfl
    simp only [Go.TrustedActor.decode, Option.bind_eq_bind, Option.pure_def,
      Option.bind_eq_some_iff]
    grind [Go.TrustedActor.validate]
  · intro object _
    simp only [actorFields, List.forall_mem_cons, go_text (le_refl 1) lib.graphemes,
      go_optionalText lib.graphemes, go_roles lib]
    simp [Leaf.Admits]

theorem go_context_required {x : Go.ServerRequestContext} (hx : x.validate lib.goIp = true) :
    checkTags (x = Go.ServerRequestContext.zero) 0 [.required] = true := by
  simp only [Go.ServerRequestContext.validate, PublicModels.Go.RequestMeta.validate,
    Bool.and_eq_true] at hx
  exact required_of_checkString hx.1.1.1.2.1.1 fun h => by rw [of_decide_eq_true h]; rfl

theorem go_context {v : Option JsonValue}
    (hknows : ∀ inner, v = some inner → KnowsContext .go inner) :
    (∃ x, Go.ServerRequestContext.decode v = some x
        ∧ checkTags (x = Go.ServerRequestContext.zero) 0 [.required] = true
        ∧ x.validate lib.goIp = true)
      ↔ AdmitsContext lib .go v := by
  unfold AdmitsContext
  rw [← go_struct (fun inner hinner => (hknows inner hinner).1) (p := fun object =>
    (∃ x, Go.decodeRequestMeta (object.get "public") = some x
        ∧ checkTags (x = Go.RequestMeta.zero) 0 [.required] = true ∧ x.validate = true)
      ∧ (∃ x, Go.TrustedActor.decode (object.get "actor") = some x
        ∧ checkTags (x = Go.TrustedActor.zero) 0 [.required] = true ∧ x.validate = true)
      ∧ ∃ s, decodeString (object.get "sourceIp") = some s
        ∧ (s = "" || lib.goIp s) = true)]
  · have hrequired : ∀ x : Go.ServerRequestContext, x.validate lib.goIp = true →
        checkTags (x = Go.ServerRequestContext.zero) 0 [.required] = true :=
      fun _ => go_context_required lib
    simp only [Go.ServerRequestContext.decode, Option.bind_eq_bind, Option.pure_def,
      Option.bind_eq_some_iff]
    grind [Go.ServerRequestContext.validate]
  · intro object hmembers
    have hinner : (∀ inner, object.get "public" = some inner → KeysDeclared metaKeys inner)
        ∧ ∀ inner, object.get "actor" = some inner → KeysDeclared actorKeys inner := by
      cases v with
      | some outer => exact (hknows outer rfl).2 _ hmembers
      | none =>
          -- the zero context has no members
          have hget : object.get = fun _ => none := (Option.some.inj hmembers).symm
          rw [hget]
          exact ⟨fun _ h => (nomatch h), fun _ h => (nomatch h)⟩
    rw [go_sourceIp lib, go_actor lib hinner.2, go_meta lib hinner.1]
    simp only [reduceCtorEq, if_false]

theorem go_command {v : JsonValue} (hknows : KnowsCommand .go v) :
    (∃ x, Go.InternalCommand.decode v = some x ∧ x.validate lib.goIp = true)
      ↔ AdmitsCommand lib .go (some v) := by
  unfold AdmitsCommand
  have hkeys : ∀ inner, some v = some inner → KeysDeclared commandKeys inner := by
    intro inner hinner
    cases hinner
    exact hknows.1
  rw [← go_struct hkeys (p := fun object =>
    (∃ s, decodeString (object.get "operationId") = some s
        ∧ checkString [.required, .min 1, .max 256] s = true)
      ∧ (∃ s, decodeString (object.get "idempotencyKey") = some s
        ∧ checkString [.omitempty, .min 1, .max 128] s = true)
      ∧ ∃ x, Go.ServerRequestContext.decode (object.get "context") = some x
        ∧ checkTags (x = Go.ServerRequestContext.zero) 0 [.required] = true
        ∧ x.validate lib.goIp = true)]
  · simp only [Go.InternalCommand.decode, Option.bind_eq_bind, Option.pure_def,
      Option.bind_eq_some_iff]
    grind [Go.InternalCommand.validate]
  · intro object hmembers
    rw [go_text (le_refl 1) lib.graphemes, go_optionalText lib.graphemes,
      go_context lib fun inner hinner => hknows.2 _ hmembers inner hinner]
    cases object.get "payload" <;> simp [Leaf.Admits]

theorem go_accepts {model : ServerModel} {v : JsonValue} (hknows : Knows .go model v) :
    Go.accepts lib.goIp model v = true ↔ Admits lib .go model v := by
  cases model with
  | serverRequestContext =>
      have hinner : ∀ inner, some v = some inner → KnowsContext .go inner := by
        intro inner hinner
        cases hinner
        exact hknows
      refine (Option.any_eq_true _ _).trans (Iff.trans ?_ (go_context lib hinner))
      -- the top level has no `required` tag; a context that passes is not zero anyway
      refine exists_congr fun x => and_congr_right fun _ => ?_
      constructor
      · intro hx
        exact ⟨go_context_required lib hx, hx⟩
      · intro hx
        exact hx.2
  | internalCommand => exact (Option.any_eq_true _ _).trans (go_command lib hknows)

end GoSpec

/-! ### Gleam. -/

section GleamSpec

open Runtimes.Gleam

variable (lib : Libraries)

/-- A decoder of a model reads the members of a value. -/
theorem gleam_struct {α β : Type} {declared : List String} {v : JsonValue} {key : String}
    {decoder : Decoder α} {next : α → Decoder β} {q : (String → Option JsonValue) → Prop}
    (hq : ∀ fields, v = .obj fields →
      ((field key decoder next (.obj fields)).2 = [] ↔ q fun key => fields.lookup key)) :
    (field key decoder next v).2 = []
      ↔ ∃ get, members .gleam declared (some v) = some get ∧ q get := by
  cases v with
  | obj fields =>
      rw [hq fields rfl]
      simp [members]
  | _ => simp [field, index, pushPath, members]

theorem decodeItems_clean {α : Type} {item : Decoder α} {p : JsonValue → Prop}
    (hitem : ∀ data, (item data).2 = [] ↔ p data) (items : List JsonValue) (index : Nat) :
    (decodeItems item index items).2 = [] ↔ ∀ data ∈ items, p data := by
  induction items generalizing index with
  | nil => simp [decodeItems]
  | cons data items ih =>
      rw [decodeItems, List.forall_mem_cons, ← hitem, ← ih (index + 1)]
      rcases item data with ⟨value, _ | ⟨error, errors⟩⟩
      · rcases decodeItems item (index + 1) items with ⟨values, _ | ⟨e, es⟩⟩ <;> simp
      · simp [pushPath]

/-- The values of a clean list are as many as its items. -/
theorem decodeItems_length {α : Type} {item : Decoder α} {items : List JsonValue} {index : Nat}
    (h : (decodeItems item index items).2 = []) :
    (decodeItems item index items).1.length = items.length := by
  induction items generalizing index with
  | nil => rfl
  | cons data items ih =>
      rw [decodeItems] at h ⊢
      rcases hitem : item data with ⟨value, _ | ⟨error, errors⟩⟩
      · rcases hrest : decodeItems item (index + 1) items with ⟨values, _ | ⟨e, es⟩⟩
        · have hlength := @ih (index + 1) (by rw [hrest])
          rw [hrest] at hlength
          simp only [List.length_cons]
          exact congrArg (· + 1) hlength
        · simp [hitem, hrest] at h
      · simp [hitem, pushPath] at h

theorem andThen_clean {α β : Type} {decoder : Decoder α} {next : α → Decoder β}
    {data : JsonValue} :
    (andThen decoder next data).2 = []
      ↔ (decoder data).2 = [] ∧ (next (decoder data).1 data).2 = [] := by
  unfold andThen
  rcases decoder data with ⟨value, _ | ⟨error, errors⟩⟩ <;> simp

/-- A clean text is the one that was there. -/
theorem boundedString_value {g : String → Nat} {min max : Nat} {s : String}
    (h : Within g .gleam min max s) :
    (PublicModels.Gleam.boundedString g min max (.str s)).1 = s := by
  unfold PublicModels.Gleam.boundedString andThen
  have hwithin : min ≤ g s ∧ g s ≤ max := h
  simp [string, success, hwithin]

theorem admits_text_iff {g : String → Nat} {min max : Nat} {data : JsonValue} :
    (PublicModels.Gleam.boundedString g min max data).2 = []
      ↔ PublicModels.Admits g .gleam (.text min max) (some data) := by
  rw [boundedString_clean]
  cases data <;> simp [PublicModels.Admits]

theorem rolesDecoder_clean {data : JsonValue} :
    (Gleam.rolesDecoder lib.graphemes data).2 = []
      ↔ (list (PublicModels.Gleam.boundedString lib.graphemes 1 128) data).2 = []
        ∧ (list (PublicModels.Gleam.boundedString lib.graphemes 1 128) data).1.length ≤ 64 := by
  -- the list decodes first, and its length is checked on what it gave
  refine andThen_clean.trans (and_congr_right fun _ => ?_)
  split <;> simp_all [success, Runtimes.Gleam.failure]

theorem gleam_roles {v : Option JsonValue} :
    (∃ inner, v = some inner ∧ (Gleam.rolesDecoder lib.graphemes inner).2 = [])
      ↔ Leaf.roles.Admits lib .gleam v := by
  rcases v with _ | (_ | _ | _ | _ | items | _)
  case some.arr =>
    simp only [Option.some.injEq, exists_eq_left', rolesDecoder_clean, list, Leaf.Admits,
      ← admits_text_iff]
    constructor
    · intro ⟨hitems, hlength⟩
      rw [decodeItems_length hitems] at hlength
      exact ⟨hlength, (decodeItems_clean (fun _ => Iff.rfl) items 0).mp hitems⟩
    · intro ⟨hlength, hall⟩
      have hitems := (decodeItems_clean (fun _ => Iff.rfl) items 0).mpr hall
      exact ⟨hitems, by rwa [decodeItems_length hitems]⟩
  all_goals simp [rolesDecoder_clean, list, Leaf.Admits]

theorem ipString_clean {data : JsonValue} :
    (Gleam.ipString lib.graphemes data).2 = []
      ↔ ∃ s, data = .str s ∧ IsAddress lib .gleam s := by
  unfold Gleam.ipString
  rw [andThen_clean, boundedString_clean]
  constructor
  · intro hclean
    obtain ⟨⟨s, hdata, hwithin⟩, haddress⟩ := hclean
    subst hdata
    rw [boundedString_value hwithin] at haddress
    refine ⟨s, rfl, hwithin, ?_⟩
    -- a text without a dot and a colon would have failed
    by_contra hnot
    rw [if_neg hnot] at haddress
    exact absurd haddress (by simp [Runtimes.Gleam.failure])
  · intro htext
    obtain ⟨s, hdata, hwithin, haddress⟩ := htext
    subst hdata
    refine ⟨⟨s, rfl, hwithin⟩, ?_⟩
    rw [boundedString_value hwithin, if_pos haddress]
    rfl

theorem gleam_sourceIp {v : Option JsonValue} :
    (v = none ∨ ∃ inner, v = some inner ∧ (Gleam.ipString lib.graphemes inner).2 = [])
      ↔ Leaf.sourceIp.Admits lib .gleam v := by
  rcases v with _ | (_ | _ | _ | s | _ | _) <;> simp [ipString_clean, Leaf.Admits]

theorem gleam_nested {α : Type} {decoder : Decoder α} {v : Option JsonValue}
    {q : Option JsonValue → Prop} (hnone : ¬ q none)
    (hsome : ∀ inner, (decoder inner).2 = [] ↔ q (some inner)) :
    (∃ inner, v = some inner ∧ (decoder inner).2 = []) ↔ q v := by
  cases v with
  | none => simp [hnone]
  | some inner => simp [hsome]

theorem gleam_meta {v : JsonValue} :
    (PublicModels.Gleam.requestMetaDecoder lib.graphemes v).2 = []
      ↔ ∃ get, members .gleam metaKeys (some v) = some get ∧ AdmitsMeta lib .gleam get := by
  refine gleam_struct fun fields _ => ?_
  simp only [AdmitsMeta, contract, List.forall_mem_cons, ← gleam_text, ← gleam_optionalText]
  simp only [field_clean, optionalField_clean, map, success_clean, ← and_assoc, exists_and_right,
    ← or_and_right]
  simp [and_assoc]

theorem gleam_actor {v : JsonValue} :
    (Gleam.trustedActorDecoder lib.graphemes v).2 = [] ↔ AdmitsActor lib .gleam (some v) := by
  refine gleam_struct fun fields _ => ?_
  simp only [actorFields, List.forall_mem_cons, Leaf.admits_text, Leaf.admits_optionalText,
    ← gleam_text, ← gleam_optionalText, ← gleam_roles lib]
  simp only [field_clean, optionalField_clean, map, success_clean, ← and_assoc, exists_and_right,
    ← or_and_right]
  simp [and_assoc]

theorem gleam_context {v : JsonValue} :
    (Gleam.serverRequestContextDecoder lib.graphemes v).2 = []
      ↔ AdmitsContext lib .gleam (some v) := by
  refine gleam_struct fun fields _ => ?_
  rw [← gleam_sourceIp lib, ← gleam_nested (q := AdmitsActor lib .gleam)
      (by simp [AdmitsActor, members]) fun inner => gleam_actor lib,
    if_neg (by decide), ← gleam_nested (q := fun v => ∃ get, members .gleam metaKeys v = some get
        ∧ AdmitsMeta lib .gleam get) (by simp [members]) fun inner => gleam_meta lib]
  simp only [field_clean, optionalField_clean, map, success_clean, ← and_assoc, exists_and_right,
    ← or_and_right]
  simp

theorem gleam_command {v : JsonValue} :
    (Gleam.internalCommandDecoder lib.graphemes v).2 = []
      ↔ AdmitsCommand lib .gleam (some v) := by
  refine gleam_struct fun fields _ => ?_
  rw [← gleam_nested (q := AdmitsContext lib .gleam) (by simp [AdmitsContext, members])
      fun inner => gleam_context lib]
  simp only [Leaf.admits_text, Leaf.admits_optionalText, ← gleam_text, ← gleam_optionalText]
  simp only [field_clean, optionalField_clean, map, success_clean, dynamic, and_true, ← and_assoc,
    exists_and_right, ← or_and_right]
  -- any payload decodes, but it must be there
  cases fields.lookup "payload" <;> simp [and_assoc, Leaf.Admits]

/-- Gleam ignores the keys it does not know. -/
theorem gleam_accepts {model : ServerModel} {v : JsonValue} :
    Gleam.accepts lib.graphemes model v = true ↔ Admits lib .gleam model v := by
  cases model with
  | serverRequestContext => exact run_isOk.trans (gleam_context lib)
  | internalCommand => exact run_isOk.trans (gleam_command lib)

end GleamSpec

/-! ### TypeScript. -/

section TypeScriptSpec

open Runtimes.TypeScript

variable (lib : Libraries)

/-- A strict object schema reads the members of a value. -/
theorem typescript_object (shape : List (String × ZodType)) {v : JsonValue}
    (hkeys : KeysDeclared (shape.map Prod.fst) v) {q : (String → Option JsonValue) → Prop}
    (hq : ∀ object : JsonObject,
      members .typescript (shape.map Prod.fst) (some v) = some object.get →
      ((∀ field ∈ shape, field.2 (object.get field.1) = true) ↔ q object.get)) :
    ZodType.object shape (some v) = true
      ↔ ∃ get, members .typescript (shape.map Prod.fst) (some v) = some get ∧ q get := by
  cases v with
  | obj fields =>
      -- a strict object has no other keys than its shape
      have hstrict : JsonObject.KeysIn ⟨fields, hkeys.1⟩ (shape.map Prod.fst) := hkeys.2
      simp only [ZodType.object, object?_obj hkeys.1, Option.any_some, strictObject, hstrict,
        decide_true, Bool.true_and, List.all_eq_true, members, Option.some.injEq, exists_eq_left']
      exact hq ⟨fields, hkeys.1⟩ rfl
  | _ => simp [ZodType.object, JsonValue.object?, members]

theorem typescript_nested (shape : List (String × ZodType)) {v : Option JsonValue}
    {q : Option JsonValue → Prop} (hnone : ¬ q none)
    (hsome : ∀ inner, v = some inner →
      (ZodType.object shape (some inner) = true ↔ q (some inner))) :
    ZodType.object shape v = true ↔ q v := by
  cases v with
  | none => simp [ZodType.object, hnone]
  | some inner => exact hsome inner rfl

theorem typescript_roles {v : Option JsonValue} :
    ZodType.array PublicModels.TypeScript.token 64 v = true
      ↔ Leaf.roles.Admits lib .typescript v := by
  rcases v with _ | (_ | _ | _ | _ | items | _) <;>
    simp [ZodType.array, Leaf.Admits, PublicModels.TypeScript.token, typescript_text lib.graphemes]

theorem typescript_sourceIp {v : Option JsonValue} :
    (ZodType.union (ZodType.format lib.zodIpv4) (ZodType.format lib.zodIpv6)).optional v = true
      ↔ Leaf.sourceIp.Admits lib .typescript v := by
  rcases v with _ | (_ | _ | _ | s | _ | _) <;>
    simp [ZodType.optional, ZodType.union, ZodType.format, Leaf.Admits, IsAddress]

theorem typescript_payload {v : Option JsonValue} :
    ZodType.unknown lib.zodMissing v = true ↔ Leaf.payload.Admits lib .typescript v := by
  cases v <;> simp [ZodType.unknown, Leaf.Admits]

theorem typescript_actor {v : JsonValue} (hkeys : KeysDeclared actorKeys v) :
    ZodType.object TypeScript.trustedActorShape (some v) = true
      ↔ AdmitsActor lib .typescript (some v) := by
  refine typescript_object TypeScript.trustedActorShape hkeys fun object _ => ?_
  simp [TypeScript.trustedActorShape, actorFields, PublicModels.TypeScript.token,
    typescript_text lib.graphemes, typescript_optionalText lib.graphemes,
    ← typescript_roles lib]

theorem typescript_context {v : JsonValue} (hknows : KnowsContext .typescript v) :
    ZodType.object (TypeScript.serverRequestContextShape lib.zodIpv4 lib.zodIpv6) (some v) = true
      ↔ AdmitsContext lib .typescript (some v) := by
  refine typescript_object (TypeScript.serverRequestContextShape lib.zodIpv4 lib.zodIpv6) hknows.1
    fun object hmembers => ?_
  -- the members of the meta are checked on the context's own object
  rw [if_pos rfl, ← typescript_sourceIp lib,
    ← typescript_nested TypeScript.trustedActorShape (q := AdmitsActor lib .typescript)
    (by simp [AdmitsActor, members])
    fun inner hinner => typescript_actor lib ((hknows.2 _ hmembers).2 inner hinner)]
  simp [TypeScript.serverRequestContextShape, PublicModels.TypeScript.requestMetaShape,
    PublicModels.TypeScript.token, AdmitsMeta, contract, typescript_text lib.graphemes,
    typescript_optionalText lib.graphemes, and_assoc]

theorem typescript_command {v : JsonValue} (hknows : KnowsCommand .typescript v) :
    ZodType.object (TypeScript.internalCommandShape lib.zodIpv4 lib.zodIpv6 lib.zodMissing)
        (some v) = true
      ↔ AdmitsCommand lib .typescript (some v) := by
  refine typescript_object
    (TypeScript.internalCommandShape lib.zodIpv4 lib.zodIpv6 lib.zodMissing) hknows.1
    fun object hmembers => ?_
  rw [← typescript_payload lib,
    ← typescript_nested (TypeScript.serverRequestContextShape lib.zodIpv4 lib.zodIpv6)
      (q := AdmitsContext lib .typescript) (by simp [AdmitsContext, members])
      fun inner hinner => typescript_context lib (hknows.2 _ hmembers inner hinner)]
  simp [TypeScript.internalCommandShape, PublicModels.TypeScript.token,
    typescript_text lib.graphemes, typescript_optionalText lib.graphemes]

theorem typescript_accepts {model : ServerModel} {v : JsonValue}
    (hknows : Knows .typescript model v) :
    TypeScript.accepts lib.zodIpv4 lib.zodIpv6 lib.zodMissing model v = true
      ↔ Admits lib .typescript model v := by
  cases model with
  | serverRequestContext => exact typescript_context lib hknows
  | internalCommand => exact typescript_command lib hknows

end TypeScriptSpec

/-- **Over a value whose keys it knows, a runtime accepts iff it admits.** -/
theorem accepts_iff (lib : Libraries) {runtime : Runtime} {model : ServerModel} {v : JsonValue}
    (hknows : Knows runtime model v) :
    accepts lib runtime model v = true ↔ Admits lib runtime model v := by
  cases runtime with
  | rust => exact rust_accepts lib hknows
  | go => exact go_accepts lib hknows
  | gleam => exact gleam_accepts lib
  | typescript => exact typescript_accepts lib hknows

end ClipTown.ServerModels
