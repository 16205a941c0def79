/-
  ClipTown.Lib.JsonData — JSON values as data, after parsing.

  A number keeps the form of its literal: `int` for one without fraction and
  exponent, `dec` for any other (`1.0`, `1e2`), because readers of machine
  integers tell the two apart.  Strings are sequences of Unicode scalar values,
  and an object's keys are distinct.

  The library also has the length units that text limits are stated in.
-/
import Mathlib.Data.List.Nodup
import Mathlib.Data.Rat.Defs
import Mathlib.Data.Rat.Floor
import ClipTown.Lib.Binary64

namespace JsonData

/-! ## §1. Values. -/

/-- A number literal. -/
inductive JsonNumber where
  | int (value : Int)
  /-- `mantissa * 10 ^ exponent`, written with a fraction or an exponent. -/
  | dec (mantissa exponent : Int)
  deriving DecidableEq

/-- The number a literal stands for. -/
def JsonNumber.toRat : JsonNumber → ℚ
  | .int value => value
  | .dec mantissa exponent => mantissa * 10 ^ exponent

inductive JsonValue where
  | null
  | bool (value : Bool)
  | num (value : JsonNumber)
  | str (value : String)
  | arr (items : List JsonValue)
  | obj (fields : List (String × JsonValue))

/-! ## §2. Objects. -/

/-- An object whose keys are distinct. -/
structure JsonObject where
  fields : List (String × JsonValue)
  distinct : (fields.map Prod.fst).Nodup

namespace JsonObject

def keys (object : JsonObject) : List String := object.fields.map Prod.fst

/-- The value at a key. -/
def get (object : JsonObject) (key : String) : Option JsonValue := object.fields.lookup key

/-- Every key of the object is one of `declared`. -/
def KeysIn (object : JsonObject) (declared : List String) : Prop :=
  ∀ key ∈ object.keys, key ∈ declared

instance (object : JsonObject) (declared : List String) : Decidable (object.KeysIn declared) :=
  inferInstanceAs (Decidable (∀ key ∈ object.keys, key ∈ declared))

/-- The object without keys. -/
def empty : JsonObject := ⟨[], List.nodup_nil⟩

end JsonObject

/-- The object that a value is; a repeated key makes it none. -/
def JsonValue.object? : JsonValue → Option JsonObject
  | .obj fields => if h : (fields.map Prod.fst).Nodup then some ⟨fields, h⟩ else none
  | _ => none

/-! ## §3. Length units. -/

/-- The UTF-8 bytes of a text. -/
def utf8Length (s : String) : Nat := s.utf8ByteSize

/-- The UTF-16 code units of a text. -/
def utf16Length (s : String) : Nat := (s.toList.map fun c => if c.toNat < 65536 then 1 else 2).sum

/-- The code points of a text. -/
def codePoints (s : String) : Nat := s.length

end JsonData
