/-
  ClipTown.Validation.Runtimes — the validation libraries of the four runtimes.

    Rust        serde's derived `Deserialize`, then garde's `Validate`
    Go          `encoding/json` into a zeroed struct, then the tags of
                `go-playground/validator/v10`
    Gleam       `gleam/dynamic/decode`
    TypeScript  zod schemas over a parsed value

  They are third-party code; what the validators rely on is stated here once:
  the unit in which each counts a text, and what each does with a missing key,
  a null and a number that is not written as an integer.
-/
import ClipTown.Lib.JsonData

namespace ClipTown.Runtimes

open JsonData Binary64

/-! ## §1. Rust: serde and garde. -/

namespace Rust

/-- `deny_unknown_fields`. -/
def denyUnknownFields (declared : List String) (object : JsonObject) : Option Unit :=
  if object.KeysIn declared then some () else none

def deserializeString : JsonValue → Option String
  | .str s => some s
  | _ => none

/-- `deserialize_u16` of an integer literal; serde has no integer from a float. -/
def deserializeU16 : JsonValue → Option UInt16
  | .num (.int n) => if 0 ≤ n ∧ n ≤ 65535 then some (UInt16.ofNat n.toNat) else none
  | _ => none

/-- A field that must be there. -/
def field {α : Type} (object : JsonObject) (name : String) (deserialize : JsonValue → Option α) :
    Option α :=
  (object.get name).bind deserialize

/-- A field of an `Option` type: absent and null are `None`. -/
def optionField {α : Type} (object : JsonObject) (name : String)
    (deserialize : JsonValue → Option α) : Option (Option α) :=
  match object.get name with
  | none => some none
  | some .null => some none
  | some value => (deserialize value).map some

/-- The fields of a struct; serde also reads them from an array, in the order of their
declaration. -/
def structFields (declared : List String) : JsonValue → Option JsonObject
  | .arr items =>
      if items.length = declared.length then JsonValue.object? (.obj (declared.zip items))
      else none
  | value => value.object?

def deserializeVec {α : Type} (deserialize : JsonValue → Option α) : JsonValue → Option (List α)
  | .arr items => items.mapM deserialize
  | _ => none

/-- garde's `length` in its default mode, which counts bytes. -/
def length (min max : Nat) (s : String) : Bool := min ≤ utf8Length s && utf8Length s ≤ max

/-- garde's `range`. -/
def range (min max : UInt16) (n : UInt16) : Bool := min ≤ n && n ≤ max

/-- A rule on an `Option` holds of `None`. -/
def onOption {α : Type} (rule : α → Bool) : Option α → Bool
  | none => true
  | some value => rule value

end Rust

/-! ## §2. Go: encoding/json and validator tags. -/

namespace Go

/-- `DisallowUnknownFields`. -/
def disallowUnknownFields (declared : List String) (object : JsonObject) : Option Unit :=
  if object.KeysIn declared then some () else none

/-- Decode into a `string` field, which holds `""` before. -/
def decodeString : Option JsonValue → Option String
  | none => some ""
  | some .null => some ""
  | some (.str s) => some s
  | _ => none

/-- Decode into a `uint16` field, which holds 0 before: the literal is read with
`ParseUint`, so a fraction or an exponent is refused. -/
def decodeUint16 : Option JsonValue → Option UInt16
  | none => some 0
  | some .null => some 0
  | some (.num (.int n)) => if 0 ≤ n ∧ n ≤ 65535 then some (UInt16.ofNat n.toNat) else none
  | _ => none

/-- Decode into a struct, whose fields hold their zero values before: a null changes
nothing. -/
def decodeStruct : Option JsonValue → Option JsonObject
  | none => some JsonObject.empty
  | some .null => some JsonObject.empty
  | some value => value.object?

/-- Decode into a `[]string` field, which holds nil before. -/
def decodeStrings : Option JsonValue → Option (List String)
  | none => some []
  | some .null => some []
  | some (.arr items) => items.mapM fun item => decodeString (some item)
  | _ => none

/-- The validator tags the structs use. -/
inductive Tag where
  | required
  | omitempty
  | min (bound : Nat)
  | max (bound : Nat)
  | gte (bound : Nat)
  | lte (bound : Nat)
  deriving DecidableEq

/-- Walk a field's tags in order: `isZero` says that the field holds its zero
value, `size` is the number itself or the text's code points. -/
def checkTags (isZero : Bool) (size : Nat) : List Tag → Bool
  | [] => true
  | .required :: tags => !isZero && checkTags isZero size tags
  | .omitempty :: tags => isZero || checkTags isZero size tags
  | .min bound :: tags => bound ≤ size && checkTags isZero size tags
  | .max bound :: tags => size ≤ bound && checkTags isZero size tags
  | .gte bound :: tags => bound ≤ size && checkTags isZero size tags
  | .lte bound :: tags => size ≤ bound && checkTags isZero size tags

def checkString (tags : List Tag) (s : String) : Bool := checkTags (s = "") (codePoints s) tags

def checkUint16 (tags : List Tag) (n : UInt16) : Bool := checkTags (n = 0) n.toNat tags

/-- How `DecodeAndValidate` fails, with the text it puts before the cause. -/
inductive ValidationError where
  /-- "decode public value: …". -/
  | decode
  /-- "decode public value: trailing JSON value". -/
  | trailing
  /-- "public validation failed: …". -/
  | validation
  deriving DecidableEq

end Go

/-! ## §3. Gleam: gleam/dynamic/decode. -/

namespace Gleam

structure DecodeError where
  expected : String
  path : List String
  deriving DecidableEq

/-- A decoder returns a value and the errors on its way; the value counts only
without errors. -/
def Decoder (α : Type) := JsonValue → α × List DecodeError

variable {α β : Type}

def success (value : α) : Decoder α := fun _ => (value, [])

def failure (zero : α) (expected : String) : Decoder α := fun _ => (zero, [⟨expected, []⟩])

def string : Decoder String
  | .str s => (s, [])
  | _ => ("", [⟨"String", []⟩])

/-- On the Erlang target a literal with a fraction or an exponent is a Float. -/
def int : Decoder Int
  | .num (.int n) => (n, [])
  | _ => (0, [⟨"Int", []⟩])

/-- `decode.then`. -/
def andThen (decoder : Decoder α) (next : α → Decoder β) : Decoder β := fun data =>
  match decoder data with
  | (value, []) => next value data
  | (value, errors) => ((next value data).1, errors)

def map (decoder : Decoder α) (f : α → β) : Decoder β := fun data =>
  (f (decoder data).1, (decoder data).2)

def pushPath (key : String) (errors : List DecodeError) : List DecodeError :=
  errors.map fun error => { error with path := key :: error.path }

/-- The value at a key of the data; `none` where the data has no keys. -/
def index : JsonValue → String → Option (Option JsonValue)
  | .obj fields, key => some (fields.lookup key)
  | _, _ => none

/-- `decode.field`: a missing key is an error. -/
def field (key : String) (decoder : Decoder α) (next : α → Decoder β) : Decoder β := fun data =>
  let (value, errors) :=
    match index data key with
    | some (some inner) => decoder inner
    | some none => ((decoder data).1, [⟨"Field", []⟩])
    | none => ((decoder data).1, [⟨"Dict", []⟩])
  ((next value data).1, pushPath key errors ++ (next value data).2)

/-- `decode.optional_field`: a missing key is the default; a null is decoded like
any other value. -/
def optionalField (key : String) (default : α) (decoder : Decoder α) (next : α → Decoder β) :
    Decoder β := fun data =>
  let (value, errors) :=
    match index data key with
    | some (some inner) => decoder inner
    | some none => (default, [])
    | none => (default, [⟨"Dict", []⟩])
  ((next value data).1, pushPath key errors ++ (next value data).2)

/-- `decode.dynamic`. -/
def dynamic : Decoder JsonValue := fun data => (data, [])

/-- The items of a list from the one with number `index` on: the first that does not
decode ends the list. -/
def decodeItems (item : Decoder α) : Nat → List JsonValue → List α × List DecodeError
  | _, [] => ([], [])
  | index, data :: rest =>
      match item data with
      | (value, []) =>
          match decodeItems item (index + 1) rest with
          | (values, []) => (value :: values, [])
          | (_, errors) => ([], errors)
      | (_, errors) => ([], pushPath (toString index) errors)

/-- `decode.list`. -/
def list (item : Decoder α) : Decoder (List α)
  | .arr items => decodeItems item 0 items
  | _ => ([], [⟨"List", []⟩])

/-- `decode.run`. -/
def run (data : JsonValue) (decoder : Decoder α) : Except (List DecodeError) α :=
  match decoder data with
  | (value, []) => .ok value
  | (_, errors) => .error errors

end Gleam

/-! ## §4. TypeScript: zod. -/

namespace TypeScript

/-- A schema decides about a value, or about `undefined` for a missing key. -/
def ZodType := Option JsonValue → Bool

/-- `z.string().min(min).max(max)`, in UTF-16 code units. -/
def ZodType.string (min max : Nat) : ZodType
  | some (.str s) => min ≤ utf16Length s && utf16Length s ≤ max
  | _ => false

/-- `Number.isSafeInteger`. -/
def isSafeInteger (value : ℚ) : Bool := value.den = 1 && |value| < 2 ^ 53

/-- `z.number().int().min(min).max(max)`, on the double the literal parses to. -/
def ZodType.number (min max : Int) : ZodType
  | some (.num literal) =>
      (toBinary64 literal.toRat).any fun value =>
        isSafeInteger value && (min : ℚ) ≤ value && value ≤ (max : ℚ)
  | _ => false

/-- `.optional()`: a missing key is accepted; a null is not. -/
def ZodType.optional (schema : ZodType) : ZodType
  | none => true
  | some value => schema (some value)

/-- `z.object(shape).strict()` on an object. -/
def strictObject (shape : List (String × ZodType)) (object : JsonObject) : Bool :=
  object.KeysIn (shape.map Prod.fst) && shape.all fun (key, schema) => schema (object.get key)

/-- `z.object(shape).strict()`. -/
def ZodType.object (shape : List (String × ZodType)) : ZodType
  | some value => value.object?.any (strictObject shape)
  | none => false

/-- `z.array(item).max(max)`. -/
def ZodType.array (item : ZodType) (max : Nat) : ZodType
  | some (.arr items) => items.length ≤ max && items.all fun value => item (some value)
  | _ => false

/-- A string schema with a check of the library. -/
def ZodType.format (check : String → Bool) : ZodType
  | some (.str s) => check s
  | _ => false

/-- `z.union([first, second])`. -/
def ZodType.union (first second : ZodType) : ZodType := fun value => first value || second value

/-- `z.unknown()`: any value.  The releases of zod differ on a missing key. -/
def ZodType.unknown (takesMissing : Bool) : ZodType := fun v => v.isSome || takesMissing

end TypeScript

end ClipTown.Runtimes
