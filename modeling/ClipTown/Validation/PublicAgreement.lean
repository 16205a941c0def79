/-
  ClipTown.Validation.PublicAgreement — where the four public validators agree.

  The contract of a model is a list of keys with a rule each, the same in all
  four languages; what differs is how a runtime reads a rule.  `Admits` says
  which values a runtime takes under a rule, and

    • `accepts_iff` — over an object whose keys are declared, a runtime accepts
      iff it admits the value of every key of the contract.

  The runtimes part on four kinds of value (`Contested`): a null or an empty
  text for an optional field, a text that is within its limits in one length
  unit and not in another, and an integer written with a fraction or an
  exponent.

    • `validators_agree_iff` — all four accept or all four reject exactly where
      no such value decides.
-/
import ClipTown.Validation.Public

namespace ClipTown.PublicModels

open JsonData Binary64

/-! ## §1. Runtimes and the contract. -/

inductive Runtime where
  | rust
  | go
  | gleam
  | typescript
  deriving DecidableEq, Repr

section

variable (graphemes : String → Nat)

/-- The verdict of a runtime on an object. -/
def accepts : Runtime → PublicModel → JsonObject → Bool
  | .rust => Rust.accepts
  | .go => Go.accepts
  | .gleam => Gleam.accepts graphemes
  | .typescript => TypeScript.safeParsePublic

/-- The length of a text in the unit the runtime counts in. -/
def measure : Runtime → String → Nat
  | .rust => utf8Length
  | .go => codePoints
  | .gleam => graphemes
  | .typescript => utf16Length

end

/-- What a model asks of one field. -/
inductive Rule where
  | text (min max : Nat)
  | optionalText (min max : Nat)
  | number (min max : Nat)
  deriving DecidableEq

/-- The fields of a model. -/
def contract : PublicModel → List (String × Rule)
  | .requestMeta =>
      [("requestId", .text 1 128), ("traceId", .text 1 128), ("locale", .optionalText 2 64)]
  | .pageQuery => [("limit", .number 1 100), ("cursor", .optionalText 1 512)]
  | .problemDetails =>
      [("type", .text 1 512), ("title", .text 1 256), ("status", .number 400 599),
        ("detail", .optionalText 0 4096), ("requestId", .text 1 128)]

def declaredKeys (model : PublicModel) : List String := (contract model).map Prod.fst

/-! ## §2. What a runtime admits at one field. -/

section

variable (graphemes : String → Nat)

/-- A text is within its limits in the runtime's unit. -/
def Within (runtime : Runtime) (min max : Nat) (s : String) : Prop :=
  min ≤ measure graphemes runtime s ∧ measure graphemes runtime s ≤ max

/-- The literal parses to a double that is an integer between the bounds. -/
def RoundsInto (min max : Nat) (literal : JsonNumber) : Prop :=
  ∃ value, toBinary64 literal.toRat = some value
    ∧ value.den = 1 ∧ (min : ℚ) ≤ value ∧ value ≤ (max : ℚ)

/-- The values a runtime takes under a rule. -/
def Admits (runtime : Runtime) : Rule → Option JsonValue → Prop
  | .text min max, some (.str s) => Within graphemes runtime min max s
  | .optionalText _ _, none => True
  | .optionalText _ _, some .null => runtime = .rust ∨ runtime = .go
  | .optionalText min max, some (.str s) =>
      Within graphemes runtime min max s ∨ runtime = .go ∧ s = ""
  | .number min max, some (.num (.int n)) => (min : Int) ≤ n ∧ n ≤ (max : Int)
  | .number min max, some (.num (.dec mantissa exponent)) =>
      runtime = .typescript ∧ RoundsInto min max (.dec mantissa exponent)
  | _, _ => False

end

/-! ### Rust. -/

section

open Runtimes.Rust

theorem rust_text {object : JsonObject} {key : String} {min max : Nat} (g : String → Nat) :
    (∃ s, field object key deserializeString = some s ∧ length min max s = true)
      ↔ Admits g .rust (.text min max) (object.get key) := by
  unfold field
  rcases object.get key with _ | (_ | _ | _ | s | _ | _) <;>
    simp [deserializeString, length, Admits, Within, measure]

theorem rust_optionalText {object : JsonObject} {key : String} {min max : Nat}
    (g : String → Nat) :
    (∃ s, optionField object key deserializeString = some s
        ∧ onOption (length min max) s = true)
      ↔ Admits g .rust (.optionalText min max) (object.get key) := by
  unfold optionField
  rcases object.get key with _ | (_ | _ | _ | s | _ | _) <;>
    simp [deserializeString, length, Admits, Within, measure, onOption]

/-- An integer literal is in range of the 16-bit type and the rule iff it is in range
of the rule. -/
theorem exists_u16 {n : Int} {p : UInt16 → Prop} {min max : Nat} (hmax : max ≤ 65535)
    (hp : ∀ m : UInt16, p m ↔ min ≤ m.toNat ∧ m.toNat ≤ max) :
    (∃ m, (if 0 ≤ n ∧ n ≤ 65535 then some (UInt16.ofNat n.toNat) else none) = some m ∧ p m)
      ↔ (min : Int) ≤ n ∧ n ≤ (max : Int) := by
  by_cases hn : 0 ≤ n ∧ n ≤ 65535
  · have hval : (UInt16.ofNat n.toNat).toNat = n.toNat :=
      UInt16.toNat_ofNat_of_lt' (by rw [UInt16.size]; omega)
    simp only [if_pos hn, Option.some.injEq, exists_eq_left', hp, hval]
    omega
  · simp only [if_neg hn, reduceCtorEq, false_and, exists_false, false_iff]
    omega

theorem rust_number {object : JsonObject} {key : String} {min max : UInt16}
    (g : String → Nat) :
    (∃ n, field object key deserializeU16 = some n ∧ range min max n = true)
      ↔ Admits g .rust (.number min.toNat max.toNat) (object.get key) := by
  have hmax : max.toNat ≤ 65535 := by have := max.toNat_lt; omega
  unfold field
  rcases object.get key with _ | (_ | _ | (n | _) | _ | _ | _) <;>
    simp only [deserializeU16, Option.bind_none, Option.bind_some, reduceCtorEq, false_and,
      exists_false, Admits]
  exact exists_u16 hmax fun m => by simp [range, UInt16.le_iff_toNat_le]

theorem rust_accepts (g : String → Nat) {model : PublicModel} {object : JsonObject}
    (hkeys : object.KeysIn (declaredKeys model)) :
    Rust.accepts model object = true
      ↔ ∀ field ∈ contract model, Admits g .rust field.2 (object.get field.1) := by
  have hdeny : denyUnknownFields (declaredKeys model) object = some () := if_pos hkeys
  cases model with
  | requestMeta =>
      simp only [declaredKeys, contract, List.map_cons, List.map_nil] at hdeny
      simp only [contract, List.forall_mem_cons, ← rust_text, ← rust_optionalText]
      simp only [Rust.accepts, Rust.RequestMeta.deserialize, Option.any_eq_true,
        Option.bind_eq_bind, Option.pure_def, hdeny, Option.bind_some, Option.bind_eq_some_iff]
      grind [Rust.RequestMeta.validate]
  | pageQuery =>
      have hlimit : _ ↔ Admits g .rust (.number 1 100) (object.get "limit") :=
        @rust_number _ _ 1 100 g
      simp only [declaredKeys, contract, List.map_cons, List.map_nil] at hdeny
      simp only [contract, List.forall_mem_cons, ← hlimit, ← rust_optionalText]
      simp only [Rust.accepts, Rust.PageQuery.deserialize, Option.any_eq_true,
        Option.bind_eq_bind, Option.pure_def, hdeny, Option.bind_some, Option.bind_eq_some_iff]
      grind [Rust.PageQuery.validate]
  | problemDetails =>
      have hstatus : _ ↔ Admits g .rust (.number 400 599) (object.get "status") :=
        @rust_number _ _ 400 599 g
      simp only [declaredKeys, contract, List.map_cons, List.map_nil] at hdeny
      simp only [contract, List.forall_mem_cons, ← hstatus, ← rust_text, ← rust_optionalText]
      simp only [Rust.accepts, Rust.ProblemDetails.deserialize, Option.any_eq_true,
        Option.bind_eq_bind, Option.pure_def, hdeny, Option.bind_some, Option.bind_eq_some_iff]
      grind [Rust.ProblemDetails.validate]

end

/-! ### Go. -/

section

open Runtimes.Go

/-- The zero value of a text counts no code points. -/
@[simp] theorem codePoints_empty : codePoints "" = 0 := rfl

theorem go_text {v : Option JsonValue} {min max : Nat} (hmin : 1 ≤ min) (g : String → Nat) :
    (∃ s, decodeString v = some s ∧ checkString [.required, .min min, .max max] s = true)
      ↔ Admits g .go (.text min max) v := by
  rcases v with _ | (_ | _ | _ | s | _ | _) <;>
    simp [decodeString, checkString, checkTags, Admits, Within, measure]
  -- an empty text is too short for a required one
  intro hlow _ hempty
  rw [hempty, codePoints_empty] at hlow
  omega

theorem go_optionalText {v : Option JsonValue} {min max : Nat} (g : String → Nat) :
    (∃ s, decodeString v = some s ∧ checkString [.omitempty, .min min, .max max] s = true)
      ↔ Admits g .go (.optionalText min max) v := by
  rcases v with _ | (_ | _ | _ | s | _ | _) <;>
    simp [decodeString, checkString, checkTags, Admits, Within, measure, or_comm]

/-- A tag list without `min` is one with `min=0`. -/
theorem checkString_min_zero (s : String) (max : Nat) :
    checkString [.omitempty, .max max] s = checkString [.omitempty, .min 0, .max max] s := by
  simp [checkString, checkTags]

theorem go_number {v : Option JsonValue} {min max : Nat} (hmin : 1 ≤ min) (hmax : max ≤ 65535)
    (g : String → Nat) :
    (∃ n, decodeUint16 v = some n ∧ checkUint16 [.gte min, .lte max] n = true)
      ↔ Admits g .go (.number min max) v := by
  rcases v with _ | (_ | _ | (n | _) | _ | _ | _) <;>
    simp only [decodeUint16, reduceCtorEq, false_and, exists_false, Admits]
  -- the zero of an absent or null number is below the bound
  · simp [checkUint16, checkTags]; omega
  · simp [checkUint16, checkTags]; omega
  · exact exists_u16 hmax fun m => by simp [checkUint16, checkTags]

/-- One value is accepted iff it decodes and its tags hold. -/
theorem decodeAndValidate_isOk {α : Type} {decode : JsonObject → Option α} {validate : α → Bool}
    {object : JsonObject} :
    (Go.decodeAndValidate decode validate [object]).isOk = true
      ↔ ∃ value, decode object = some value ∧ validate value = true := by
  unfold Go.decodeAndValidate
  cases hdecode : decode object with
  | none => simp [Except.isOk, Except.toBool, hdecode]
  | some value =>
      cases hvalid : validate value <;> simp [Except.isOk, Except.toBool, hdecode, hvalid]

theorem go_accepts (g : String → Nat) {model : PublicModel} {object : JsonObject}
    (hkeys : object.KeysIn (declaredKeys model)) :
    Go.accepts model object = true
      ↔ ∀ field ∈ contract model, Admits g .go field.2 (object.get field.1) := by
  have hdeny : disallowUnknownFields (declaredKeys model) object = some () := if_pos hkeys
  cases model with
  | requestMeta =>
      simp only [declaredKeys, contract, List.map_cons, List.map_nil] at hdeny
      simp only [contract, List.forall_mem_cons, ← go_text (le_refl 1), ← go_optionalText]
      simp only [Go.accepts, decodeAndValidate_isOk, Go.RequestMeta.decode,
        Option.bind_eq_bind, Option.pure_def, hdeny, Option.bind_some, Option.bind_eq_some_iff]
      grind [Go.RequestMeta.validate]
  | pageQuery =>
      have hlimit : _ ↔ Admits g .go (.number 1 100) (object.get "limit") :=
        go_number (by omega) (by omega) g
      simp only [declaredKeys, contract, List.map_cons, List.map_nil] at hdeny
      simp only [contract, List.forall_mem_cons, ← hlimit, ← go_optionalText]
      simp only [Go.accepts, decodeAndValidate_isOk, Go.PageQuery.decode,
        Option.bind_eq_bind, Option.pure_def, hdeny, Option.bind_some, Option.bind_eq_some_iff]
      grind [Go.PageQuery.validate]
  | problemDetails =>
      have hstatus : _ ↔ Admits g .go (.number 400 599) (object.get "status") :=
        go_number (by omega) (by omega) g
      simp only [declaredKeys, contract, List.map_cons, List.map_nil] at hdeny
      simp only [contract, List.forall_mem_cons, ← hstatus, ← go_text (le_refl 1),
        ← go_optionalText, ← checkString_min_zero]
      simp only [Go.accepts, decodeAndValidate_isOk, Go.ProblemDetails.decode,
        Option.bind_eq_bind, Option.pure_def, hdeny, Option.bind_some, Option.bind_eq_some_iff]
      grind [Go.ProblemDetails.validate]

end

/-! ### Gleam. -/

section

open Runtimes.Gleam

variable {α β : Type}

theorem run_isOk {decoder : Decoder α} {data : JsonValue} :
    (run data decoder).isOk = true ↔ (decoder data).2 = [] := by
  unfold run
  rcases hdecode : decoder data with ⟨value, _ | ⟨error, errors⟩⟩ <;>
    simp [Except.isOk, Except.toBool]

@[simp] theorem pushPath_eq_nil {key : String} {errors : List DecodeError} :
    pushPath key errors = [] ↔ errors = [] := by
  simp [pushPath]

@[simp] theorem success_clean {value : α} {data : JsonValue} : (success value data).2 = [] := rfl

/-- A required field is clean iff the key is there, its value decodes and the rest
is clean. -/
theorem field_clean {key : String} {decoder : Decoder α} {next : α → Decoder β}
    {fields : List (String × JsonValue)} :
    (field key decoder next (.obj fields)).2 = []
      ↔ ∃ inner, fields.lookup key = some inner ∧ (decoder inner).2 = []
          ∧ (next (decoder inner).1 (.obj fields)).2 = [] := by
  unfold field
  cases hlookup : fields.lookup key with
  | none => simp [index, hlookup, pushPath]
  | some inner => simp [index, hlookup]

/-- An optional field is clean iff the rest is clean after its default, or after its
value if that decodes. -/
theorem optionalField_clean {key : String} {zero : α} {decoder : Decoder α}
    {next : α → Decoder β} {fields : List (String × JsonValue)} :
    (optionalField key zero decoder next (.obj fields)).2 = []
      ↔ (fields.lookup key = none ∧ (next zero (.obj fields)).2 = [])
        ∨ ∃ inner, fields.lookup key = some inner ∧ (decoder inner).2 = []
          ∧ (next (decoder inner).1 (.obj fields)).2 = [] := by
  unfold optionalField
  cases hlookup : fields.lookup key with
  | none => simp [index, hlookup]
  | some inner => simp [index, hlookup]

theorem boundedString_clean {g : String → Nat} {min max : Nat} {data : JsonValue} :
    (Gleam.boundedString g min max data).2 = []
      ↔ ∃ s, data = .str s ∧ Within g .gleam min max s := by
  unfold Gleam.boundedString andThen
  cases data with
  | str s =>
      by_cases hs : min ≤ g s ∧ g s ≤ max
      · simp [string, success, Within, measure, hs]
      · simp [string, Runtimes.Gleam.failure, Within, measure, hs]
  | _ => simp [string]

theorem boundedInt_clean {min max : Int} {data : JsonValue} :
    (Gleam.boundedInt min max data).2 = []
      ↔ ∃ n, data = .num (.int n) ∧ min ≤ n ∧ n ≤ max := by
  unfold Gleam.boundedInt andThen
  rcases data with _ | _ | (n | _) | _ | _ | _
  case num.int =>
    by_cases hn : min ≤ n ∧ n ≤ max
    · simp [int, success, hn]
    · simp [int, Runtimes.Gleam.failure, hn]
  all_goals simp [int]

theorem gleam_text {g : String → Nat} {v : Option JsonValue} {min max : Nat} :
    (∃ inner, v = some inner ∧ (Gleam.boundedString g min max inner).2 = [])
      ↔ Admits g .gleam (.text min max) v := by
  rcases v with _ | (_ | _ | _ | s | _ | _) <;> simp [boundedString_clean, Admits]

theorem gleam_optionalText {g : String → Nat} {v : Option JsonValue} {min max : Nat} :
    (v = none ∨ ∃ inner, v = some inner ∧ (Gleam.boundedString g min max inner).2 = [])
      ↔ Admits g .gleam (.optionalText min max) v := by
  rcases v with _ | (_ | _ | _ | s | _ | _) <;> simp [boundedString_clean, Admits]

theorem gleam_number {v : Option JsonValue} {min max : Nat} (g : String → Nat) :
    (∃ inner, v = some inner ∧ (Gleam.boundedInt min max inner).2 = [])
      ↔ Admits g .gleam (.number min max) v := by
  rcases v with _ | (_ | _ | (n | _) | _ | _ | _) <;> simp [boundedInt_clean, Admits]

theorem gleam_accepts (g : String → Nat) {model : PublicModel} {object : JsonObject} :
    Gleam.accepts g model object = true
      ↔ ∀ field ∈ contract model, Admits g .gleam field.2 (object.get field.1) := by
  cases model with
  | requestMeta =>
      simp only [contract, List.forall_mem_cons, ← gleam_text, ← gleam_optionalText]
      simp only [Gleam.accepts, Gleam.decodeRequestMeta, run_isOk, Gleam.requestMetaDecoder,
        field_clean, optionalField_clean, map, success_clean, JsonObject.get,
        ← and_assoc, exists_and_right, ← or_and_right]
      simp [and_assoc]
  | pageQuery =>
      have hlimit : _ ↔ Admits g .gleam (.number 1 100) (object.get "limit") := gleam_number g
      simp only [contract, List.forall_mem_cons, ← hlimit, ← gleam_optionalText]
      simp only [Gleam.accepts, Gleam.decodePageQuery, run_isOk, Gleam.pageQueryDecoder,
        field_clean, optionalField_clean, map, success_clean, JsonObject.get,
        ← and_assoc, exists_and_right, ← or_and_right]
      simp
  | problemDetails =>
      have hstatus : _ ↔ Admits g .gleam (.number 400 599) (object.get "status") := gleam_number g
      simp only [contract, List.forall_mem_cons, ← hstatus, ← gleam_text, ← gleam_optionalText]
      simp only [Gleam.accepts, Gleam.decodeProblemDetails, run_isOk, Gleam.problemDetailsDecoder,
        field_clean, optionalField_clean, map, success_clean, JsonObject.get,
        ← and_assoc, exists_and_right, ← or_and_right]
      simp [and_assoc]

end

/-! ### TypeScript. -/

section

open Runtimes.TypeScript

theorem typescript_text {v : Option JsonValue} {min max : Nat} (g : String → Nat) :
    ZodType.string min max v = true ↔ Admits g .typescript (.text min max) v := by
  rcases v with _ | (_ | _ | _ | s | _ | _) <;> simp [ZodType.string, Admits, Within, measure]

theorem typescript_optionalText {v : Option JsonValue} {min max : Nat} (g : String → Nat) :
    (ZodType.string min max).optional v = true
      ↔ Admits g .typescript (.optionalText min max) v := by
  rcases v with _ | (_ | _ | _ | s | _ | _) <;>
    simp [ZodType.optional, ZodType.string, Admits, Within, measure]

/-- Within 16-bit bounds every integral double is a safe integer. -/
theorem number_eq_true {literal : JsonNumber} {min max : Nat} (hmax : max ≤ 65535) :
    ZodType.number min max (some (.num literal)) = true ↔ RoundsInto min max literal := by
  simp only [ZodType.number, RoundsInto]
  cases toBinary64 literal.toRat with
  | none => simp
  | some value =>
      have hsafe : (min : ℚ) ≤ value → value ≤ max → |value| < 2 ^ 53 := by
        intro hlow hhigh
        have hmin : (0 : ℚ) ≤ min := by positivity
        have hbound : (max : ℚ) ≤ 65535 := by exact_mod_cast hmax
        rw [abs_of_nonneg (by linarith)]
        linarith
      simp only [Option.any_some, Bool.and_eq_true, decide_eq_true_eq, isSafeInteger,
        Option.some.injEq, exists_eq_left', Int.cast_natCast]
      tauto

/-- An integer literal is rounded, but not across the bounds. -/
theorem roundsInto_int {n : Int} {min max : Nat} (hmax : max ≤ 65535) :
    RoundsInto min max (.int n) ↔ (min : Int) ≤ n ∧ n ≤ (max : Int) := by
  unfold RoundsInto
  constructor
  · intro ⟨value, hvalue, _, hlow, hhigh⟩
    have hminmax : (min : Int) ≤ max := by
      have h := le_trans hlow hhigh
      exact_mod_cast h
    change toBinary64 (n : ℚ) = some value at hvalue
    by_contra hout
    rcases (by omega : n ≤ (min : Int) - 1 ∨ (max : Int) + 1 ≤ n) with hn | hn
    · have hround := toBinary64_le (n := (min : Int) - 1) (by rw [abs_lt]; omega) hvalue
        (by exact_mod_cast hn)
      push_cast at hround
      linarith
    · have hround := le_toBinary64 (n := (max : Int) + 1) (by rw [abs_lt]; omega) hvalue
        (by exact_mod_cast hn)
      push_cast at hround
      linarith
  · intro ⟨hlow, hhigh⟩
    refine ⟨n, toBinary64_intCast (by rw [abs_lt]; omega), Rat.den_intCast n, ?_, ?_⟩
    · exact_mod_cast hlow
    · exact_mod_cast hhigh

theorem typescript_number {v : Option JsonValue} {min max : Nat} (hmax : max ≤ 65535)
    (g : String → Nat) :
    ZodType.number min max v = true ↔ Admits g .typescript (.number min max) v := by
  rcases v with _ | (_ | _ | (n | ⟨m, e⟩) | _ | _ | _)
  case some.num.int => rw [number_eq_true hmax, roundsInto_int hmax]; rfl
  case some.num.dec => simp [number_eq_true hmax, Admits]
  all_goals simp [ZodType.number, Admits]

theorem typescript_accepts (g : String → Nat) {model : PublicModel} {object : JsonObject}
    (hkeys : object.KeysIn (declaredKeys model)) :
    TypeScript.safeParsePublic model object = true
      ↔ ∀ field ∈ contract model, Admits g .typescript field.2 (object.get field.1) := by
  have hstrict : object.KeysIn ((TypeScript.publicSchemas model).map Prod.fst) := by
    cases model <;> exact hkeys
  simp only [TypeScript.safeParsePublic, strictObject, hstrict, decide_true, Bool.true_and,
    List.all_eq_true]
  cases model with
  | requestMeta =>
      simp [contract, TypeScript.publicSchemas, TypeScript.requestMetaShape, TypeScript.token,
        typescript_text g, typescript_optionalText g]
  | pageQuery =>
      have hlimit : ZodType.number 1 100 (object.get "limit") = true ↔ _ :=
        typescript_number (Nat.le_of_ble_eq_true rfl) g
      simp [contract, TypeScript.publicSchemas, TypeScript.pageQueryShape, hlimit,
        typescript_optionalText g]
  | problemDetails =>
      have hstatus : ZodType.number 400 599 (object.get "status") = true ↔ _ :=
        typescript_number (Nat.le_of_ble_eq_true rfl) g
      simp [contract, TypeScript.publicSchemas, TypeScript.problemDetailsShape, TypeScript.token,
        hstatus, typescript_text g, typescript_optionalText g]

end

/-- **One contract for the four runtimes**: over an object whose keys are declared, a
runtime accepts iff it admits the value at every key of the contract. -/
theorem accepts_iff (g : String → Nat) (runtime : Runtime) {model : PublicModel}
    {object : JsonObject} (hkeys : object.KeysIn (declaredKeys model)) :
    accepts g runtime model object = true
      ↔ ∀ field ∈ contract model, Admits g runtime field.2 (object.get field.1) := by
  cases runtime with
  | rust => exact rust_accepts g hkeys
  | go => exact go_accepts g hkeys
  | gleam => exact gleam_accepts g
  | typescript => exact typescript_accepts g hkeys

/-! ## §3. Hopeless and contested values. -/

section

variable (graphemes : String → Nat)

/-- A text that is within its limits in one runtime's unit and not in another's. -/
def Split (min max : Nat) (s : String) : Prop :=
  (∃ runtime, Within graphemes runtime min max s) ∧ ∃ runtime, ¬ Within graphemes runtime min max s

/-- A value that breaks its rule however it is read: a required field that is missing,
a value of another type, a text out of its limits in every unit, a number out of range. -/
def Hopeless : Rule → Option JsonValue → Prop
  | .text min max, some (.str s) => ∀ runtime, ¬ Within graphemes runtime min max s
  | .optionalText _ _, none => False
  | .optionalText _ _, some .null => False
  | .optionalText min max, some (.str s) =>
      s ≠ "" ∧ ∀ runtime, ¬ Within graphemes runtime min max s
  | .number min max, some (.num (.int n)) => ¬ ((min : Int) ≤ n ∧ n ≤ (max : Int))
  | .number min max, some (.num (.dec mantissa exponent)) =>
      ¬ RoundsInto min max (.dec mantissa exponent)
  | _, _ => True

/-- A value the runtimes read differently: a null or an empty text for an optional
field, a text whose limits split the units, an integer written as a decimal. -/
def Contested : Rule → Option JsonValue → Prop
  | .text min max, some (.str s) => Split graphemes min max s
  | .optionalText _ _, some .null => True
  | .optionalText min max, some (.str s) => (s = "" ∧ 1 ≤ min) ∨ Split graphemes min max s
  | .number min max, some (.num (.dec mantissa exponent)) =>
      RoundsInto min max (.dec mantissa exponent)
  | _, _ => False

/-- The runtimes on the refusing side of a contested value: Gleam and TypeScript for
a null, all but Go for an empty text, all but TypeScript for a decimal, and those
whose unit puts a text out of its limits. -/
def Refuses (runtime : Runtime) : Rule → Option JsonValue → Prop
  | .text min max, some (.str s) => ¬ Within graphemes runtime min max s
  | .optionalText _ _, some .null => runtime = .gleam ∨ runtime = .typescript
  | .optionalText min max, some (.str s) =>
      (s = "" ∧ runtime ≠ .go) ∨ (s ≠ "" ∧ ¬ Within graphemes runtime min max s)
  | .number _ _, some (.num (.dec _ _)) => runtime ≠ .typescript
  | _, _ => False

end

/-- Every unit counts nothing in the empty text. -/
theorem measure_empty {g : String → Nat} (hg : g "" = 0) (runtime : Runtime) :
    measure g runtime "" = 0 := by
  cases runtime with
  | rust => rfl
  | go => rfl
  | gleam => exact hg
  | typescript => rfl

theorem within_empty {g : String → Nat} (hg : g "" = 0) {runtime : Runtime} {min max : Nat} :
    Within g runtime min max "" ↔ min = 0 := by
  unfold Within
  rw [measure_empty hg]
  omega

theorem not_split_empty {g : String → Nat} (hg : g "" = 0) {min max : Nat} :
    ¬ Split g min max "" := by
  intro ⟨⟨r, hin⟩, ⟨r', hout⟩⟩
  rw [within_empty hg] at hin hout
  exact hout hin

/-- A text is within a runtime's limits iff it is within some runtime's, and the units
do not split with this one outside. -/
theorem within_iff {g : String → Nat} {runtime : Runtime} {min max : Nat} {s : String} :
    Within g runtime min max s
      ↔ ¬ (∀ r, ¬ Within g r min max s)
        ∧ ¬ (Split g min max s ∧ ¬ Within g runtime min max s) := by
  by_cases hin : Within g runtime min max s
  · exact iff_of_true hin ⟨fun h => h runtime hin, fun h => h.2 hin⟩
  · refine iff_of_false hin ?_
    intro ⟨hsome, hsplit⟩
    apply hsome
    intro r hr
    exact hsplit ⟨⟨⟨r, hr⟩, ⟨runtime, hin⟩⟩, hin⟩

/-- **A runtime admits a value iff the value is not hopeless and the runtime is not on
the refusing side of it.** -/
theorem admits_iff {g : String → Nat} (hg : g "" = 0) (runtime : Runtime) (rule : Rule)
    (v : Option JsonValue) :
    Admits g runtime rule v
      ↔ ¬ Hopeless g rule v ∧ ¬ (Contested g rule v ∧ Refuses g runtime rule v) := by
  cases rule with
  | text min max =>
      rcases v with _ | (_ | _ | _ | s | _ | _)
      case some.str => exact within_iff
      all_goals simp [Admits, Hopeless]
  | optionalText min max =>
      rcases v with _ | (_ | _ | _ | s | _ | _)
      case some.str =>
        by_cases hs : s = ""
        · subst hs
          simp only [Admits, Hopeless, Contested, Refuses, within_empty hg, not_split_empty hg,
            Nat.one_le_iff_ne_zero]
          tauto
        · simpa [Admits, Hopeless, Contested, Refuses, hs] using within_iff
      case some.null => cases runtime <;> simp [Admits, Hopeless, Contested, Refuses]
      all_goals simp [Admits, Hopeless, Contested]
  | number min max =>
      rcases v with _ | (_ | _ | (n | ⟨m, e⟩) | _ | _ | _) <;>
        simp [Admits, Hopeless, Contested, Refuses]
      tauto

/-- A contested value is refused by some runtime. -/
theorem exists_refuses {g : String → Nat} {rule : Rule} {v : Option JsonValue}
    (h : Contested g rule v) : ∃ runtime, Refuses g runtime rule v := by
  cases rule with
  | text min max =>
      rcases v with _ | (_ | _ | _ | s | _ | _)
      case some.str => exact h.2
      all_goals exact absurd h id
  | optionalText min max =>
      rcases v with _ | (_ | _ | _ | s | _ | _)
      case some.null => exact ⟨.gleam, .inl rfl⟩
      case some.str =>
        by_cases hs : s = ""
        · exact ⟨.rust, .inl ⟨hs, by decide⟩⟩
        · rcases h with ⟨hempty, _⟩ | ⟨_, runtime, hout⟩
          · exact absurd hempty hs
          · exact ⟨runtime, .inr ⟨hs, hout⟩⟩
      all_goals exact absurd h id
  | number min max =>
      rcases v with _ | (_ | _ | (n | ⟨m, e⟩) | _ | _ | _)
      case some.num.dec => exact ⟨.rust, fun heq => nomatch heq⟩
      all_goals exact absurd h id

/-! ## §4. Agreement. -/

/-- The four validators all accept the object or all reject it. -/
def AllAgree (graphemes : String → Nat) (model : PublicModel) (object : JsonObject) : Prop :=
  (∀ runtime, accepts graphemes runtime model object = true)
    ∨ ∀ runtime, accepts graphemes runtime model object = false

/-- Some field is hopeless, or no field is contested, or the contested fields between
them are refused by every runtime. -/
def OneLine (graphemes : String → Nat) (model : PublicModel) (object : JsonObject) : Prop :=
  (∃ field ∈ contract model, Hopeless graphemes field.2 (object.get field.1))
    ∨ (∀ field ∈ contract model, ¬ Contested graphemes field.2 (object.get field.1))
    ∨ ∀ runtime, ∃ field ∈ contract model,
        Contested graphemes field.2 (object.get field.1)
          ∧ Refuses graphemes runtime field.2 (object.get field.1)

/-- **The four validators agree on an object exactly when it draws one line**: it has a
hopeless field, or no contested one, or contested ones that no runtime lets through. -/
theorem validators_agree_iff (g : String → Nat) (hg : g "" = 0) (model : PublicModel)
    (object : JsonObject) (hkeys : object.KeysIn (declaredKeys model)) :
    AllAgree g model object ↔ OneLine g model object := by
  have haccepts : ∀ runtime, accepts g runtime model object = true
      ↔ ∀ field ∈ contract model, ¬ Hopeless g field.2 (object.get field.1)
        ∧ ¬ (Contested g field.2 (object.get field.1)
          ∧ Refuses g runtime field.2 (object.get field.1)) := by
    intro runtime
    rw [accepts_iff g runtime hkeys]
    exact forall₂_congr fun field _ => admits_iff hg runtime field.2 _
  unfold AllAgree OneLine
  constructor
  · intro hagree
    rcases hagree with hall | hnone
    · -- a contested field would be refused by a runtime that accepts
      right; left
      intro field hfield hcontested
      obtain ⟨runtime, hrefuses⟩ := exists_refuses hcontested
      exact ((haccepts runtime).mp (hall runtime) field hfield).2 ⟨hcontested, hrefuses⟩
    -- nobody accepts: without a hopeless field everyone refuses a contested one
    · by_cases hhopeless : ∃ field ∈ contract model, Hopeless g field.2 (object.get field.1)
      · exact .inl hhopeless
      · right; right
        intro runtime
        by_contra hlets
        have haccept := (haccepts runtime).mpr fun field hfield =>
          ⟨fun h => hhopeless ⟨field, hfield, h⟩, fun h => hlets ⟨field, hfield, h⟩⟩
        rw [hnone runtime] at haccept
        exact Bool.noConfusion haccept
  · intro hline
    rcases hline with ⟨field, hfield, hhopeless⟩ | hcalm | hcancel
    · right
      intro runtime
      exact Bool.eq_false_iff.mpr fun h => ((haccepts runtime).mp h field hfield).1 hhopeless
    · -- no contested field: the runtimes differ in nothing
      by_cases hhopeless : ∃ field ∈ contract model, Hopeless g field.2 (object.get field.1)
      · obtain ⟨field, hfield, hhopeless⟩ := hhopeless
        right
        intro runtime
        exact Bool.eq_false_iff.mpr fun h => ((haccepts runtime).mp h field hfield).1 hhopeless
      · left
        intro runtime
        exact (haccepts runtime).mpr fun field hfield =>
          ⟨fun h => hhopeless ⟨field, hfield, h⟩, fun h => hcalm field hfield h.1⟩
    · right
      intro runtime
      obtain ⟨field, hfield, hrefused⟩ := hcancel runtime
      exact Bool.eq_false_iff.mpr fun h => ((haccepts runtime).mp h field hfield).2 hrefused

/-- `{"limit": 50, "cursor": "next"}`. -/
def firstPage : JsonObject where
  fields := [("limit", .num (.int 50)), ("cursor", .str "next")]
  distinct := by decide

theorem validators_agree_firstPage :
    AllAgree String.length .pageQuery firstPage ↔ OneLine String.length .pageQuery firstPage :=
  validators_agree_iff String.length rfl .pageQuery firstPage (by decide)

/-- `{"limit": 1, "cursor": ""}`. -/
def emptyCursor : JsonObject where
  fields := [("limit", .num (.int 1)), ("cursor", .str "")]
  distinct := by decide

/-- Go takes an empty cursor for an absent one; Rust refuses it. -/
theorem emptyCursor_splits :
    emptyCursor.KeysIn (declaredKeys .pageQuery) ∧ ¬ ∃ g, AllAgree g .pageQuery emptyCursor := by
  refine ⟨by decide, ?_⟩
  intro ⟨g, hagree⟩
  have hgo : accepts g .go .pageQuery emptyCursor = true := by
    show Go.accepts .pageQuery emptyCursor = true
    decide
  have hrust : accepts g .rust .pageQuery emptyCursor = false := by
    show Rust.accepts .pageQuery emptyCursor = false
    decide
  rcases hagree with hall | hnone
  · rw [hall .rust] at hrust
    exact Bool.noConfusion hrust
  · rw [hnone .go] at hgo
    exact Bool.noConfusion hgo

end ClipTown.PublicModels
