/-
  ClipTown.Validation.Public — the public models of the isomorphic validation
  SDK, as each of its four runtimes writes them down
  (`validation/{rust/src/lib.rs, golang/validation.go,
  gleam/src/cliptown_validation.gleam, typescript/src/public.ts}`).

  Each section has the types, the decoders and the rules of one runtime, and
  its verdict on one JSON object per model: `RequestMeta`, `PageQuery` or
  `ProblemDetails`.
-/
import ClipTown.Validation.Runtimes

namespace ClipTown.PublicModels

open JsonData Binary64 Runtimes

/-- The public models (`contract.v1.json`). -/
inductive PublicModel where
  | requestMeta
  | pageQuery
  | problemDetails
  deriving DecidableEq, Repr

/-! ## §1. Rust. -/

namespace Rust

open Runtimes.Rust

structure RequestMeta where
  requestId : String
  traceId : String
  locale : Option String
  deriving DecidableEq

structure PageQuery where
  limit : UInt16
  cursor : Option String
  deriving DecidableEq

structure ProblemDetails where
  type : String
  title : String
  status : UInt16
  detail : Option String
  requestId : String
  deriving DecidableEq

def RequestMeta.deserialize (object : JsonObject) : Option RequestMeta := do
  denyUnknownFields ["requestId", "traceId", "locale"] object
  let requestId ← field object "requestId" deserializeString
  let traceId ← field object "traceId" deserializeString
  let locale ← optionField object "locale" deserializeString
  return { requestId, traceId, locale }

def RequestMeta.validate (value : RequestMeta) : Bool :=
  length 1 128 value.requestId
    && length 1 128 value.traceId
    && onOption (length 2 64) value.locale

def PageQuery.deserialize (object : JsonObject) : Option PageQuery := do
  denyUnknownFields ["limit", "cursor"] object
  let limit ← field object "limit" deserializeU16
  let cursor ← optionField object "cursor" deserializeString
  return { limit, cursor }

def PageQuery.validate (value : PageQuery) : Bool :=
  range 1 100 value.limit && onOption (length 1 512) value.cursor

def ProblemDetails.deserialize (object : JsonObject) : Option ProblemDetails := do
  denyUnknownFields ["type", "title", "status", "detail", "requestId"] object
  let type ← field object "type" deserializeString
  let title ← field object "title" deserializeString
  let status ← field object "status" deserializeU16
  let detail ← optionField object "detail" deserializeString
  let requestId ← field object "requestId" deserializeString
  return { type, title, status, detail, requestId }

def ProblemDetails.validate (value : ProblemDetails) : Bool :=
  length 1 512 value.type
    && length 1 256 value.title
    && range 400 599 value.status
    && onOption (length 0 4096) value.detail
    && length 1 128 value.requestId

/-- Deserialize, then validate. -/
def accepts : PublicModel → JsonObject → Bool
  | .requestMeta, object => (RequestMeta.deserialize object).any RequestMeta.validate
  | .pageQuery, object => (PageQuery.deserialize object).any PageQuery.validate
  | .problemDetails, object => (ProblemDetails.deserialize object).any ProblemDetails.validate

end Rust

/-! ## §2. Go. -/

namespace Go

open Runtimes.Go

structure RequestMeta where
  requestID : String
  traceID : String
  locale : String
  deriving DecidableEq

structure PageQuery where
  limit : UInt16
  cursor : String
  deriving DecidableEq

structure ProblemDetails where
  type : String
  title : String
  status : UInt16
  detail : String
  requestID : String
  deriving DecidableEq

def RequestMeta.decode (object : JsonObject) : Option RequestMeta := do
  disallowUnknownFields ["requestId", "traceId", "locale"] object
  let requestID ← decodeString (object.get "requestId")
  let traceID ← decodeString (object.get "traceId")
  let locale ← decodeString (object.get "locale")
  return { requestID, traceID, locale }

def RequestMeta.validate (value : RequestMeta) : Bool :=
  checkString [.required, .min 1, .max 128] value.requestID
    && checkString [.required, .min 1, .max 128] value.traceID
    && checkString [.omitempty, .min 2, .max 64] value.locale

def PageQuery.decode (object : JsonObject) : Option PageQuery := do
  disallowUnknownFields ["limit", "cursor"] object
  let limit ← decodeUint16 (object.get "limit")
  let cursor ← decodeString (object.get "cursor")
  return { limit, cursor }

def PageQuery.validate (value : PageQuery) : Bool :=
  checkUint16 [.gte 1, .lte 100] value.limit
    && checkString [.omitempty, .min 1, .max 512] value.cursor

def ProblemDetails.decode (object : JsonObject) : Option ProblemDetails := do
  disallowUnknownFields ["type", "title", "status", "detail", "requestId"] object
  let type ← decodeString (object.get "type")
  let title ← decodeString (object.get "title")
  let status ← decodeUint16 (object.get "status")
  let detail ← decodeString (object.get "detail")
  let requestID ← decodeString (object.get "requestId")
  return { type, title, status, detail, requestID }

def ProblemDetails.validate (value : ProblemDetails) : Bool :=
  checkString [.required, .min 1, .max 512] value.type
    && checkString [.required, .min 1, .max 256] value.title
    && checkUint16 [.gte 400, .lte 599] value.status
    && checkString [.omitempty, .max 4096] value.detail
    && checkString [.required, .min 1, .max 128] value.requestID

/-- `DecodeAndValidate`, on the JSON values that the data holds one after the
other. -/
def decodeAndValidate {α : Type} (decode : JsonObject → Option α) (validate : α → Bool) :
    List JsonObject → Except ValidationError α
  | [] => .error .decode
  | object :: rest =>
      match decode object with
      | none => .error .decode
      | some value =>
          if rest ≠ [] then .error .trailing
          else if validate value then .ok value
          else .error .validation

def accepts : PublicModel → JsonObject → Bool
  | .requestMeta, object =>
      (decodeAndValidate RequestMeta.decode RequestMeta.validate [object]).isOk
  | .pageQuery, object => (decodeAndValidate PageQuery.decode PageQuery.validate [object]).isOk
  | .problemDetails, object =>
      (decodeAndValidate ProblemDetails.decode ProblemDetails.validate [object]).isOk

end Go

/-! ## §3. Gleam. -/

namespace Gleam

open Runtimes.Gleam

structure RequestMeta where
  requestId : String
  traceId : String
  locale : Option String
  deriving DecidableEq

structure PageQuery where
  limit : Int
  cursor : Option String
  deriving DecidableEq

structure ProblemDetails where
  type : String
  title : String
  status : Int
  detail : Option String
  requestId : String
  deriving DecidableEq

/-- `bounded_string`; `graphemes` is the runtime's `string.length`. -/
def boundedString (graphemes : String → Nat) (min max : Nat) : Decoder String :=
  andThen string fun value =>
    if min ≤ graphemes value ∧ graphemes value ≤ max then success value
    else failure "" "bounded String"

/-- `bounded_int`. -/
def boundedInt (min max : Int) : Decoder Int :=
  andThen int fun value =>
    if min ≤ value ∧ value ≤ max then success value else failure 0 "bounded Int"

def requestMetaDecoder (graphemes : String → Nat) : Decoder RequestMeta :=
  field "requestId" (boundedString graphemes 1 128) fun requestId =>
  field "traceId" (boundedString graphemes 1 128) fun traceId =>
  optionalField "locale" none (map (boundedString graphemes 2 64) some) fun locale =>
  success { requestId, traceId, locale }

def pageQueryDecoder (graphemes : String → Nat) : Decoder PageQuery :=
  field "limit" (boundedInt 1 100) fun limit =>
  optionalField "cursor" none (map (boundedString graphemes 1 512) some) fun cursor =>
  success { limit, cursor }

def problemDetailsDecoder (graphemes : String → Nat) : Decoder ProblemDetails :=
  field "type" (boundedString graphemes 1 512) fun type =>
  field "title" (boundedString graphemes 1 256) fun title =>
  field "status" (boundedInt 400 599) fun status =>
  optionalField "detail" none (map (boundedString graphemes 0 4096) some) fun detail =>
  field "requestId" (boundedString graphemes 1 128) fun requestId =>
  success { type, title, status, detail, requestId }

def decodeRequestMeta (graphemes : String → Nat) (value : JsonValue) :
    Except (List DecodeError) RequestMeta :=
  run value (requestMetaDecoder graphemes)

def decodePageQuery (graphemes : String → Nat) (value : JsonValue) :
    Except (List DecodeError) PageQuery :=
  run value (pageQueryDecoder graphemes)

def decodeProblemDetails (graphemes : String → Nat) (value : JsonValue) :
    Except (List DecodeError) ProblemDetails :=
  run value (problemDetailsDecoder graphemes)

def accepts (graphemes : String → Nat) : PublicModel → JsonObject → Bool
  | .requestMeta, object => (decodeRequestMeta graphemes (.obj object.fields)).isOk
  | .pageQuery, object => (decodePageQuery graphemes (.obj object.fields)).isOk
  | .problemDetails, object => (decodeProblemDetails graphemes (.obj object.fields)).isOk

end Gleam

/-! ## §4. TypeScript. -/

namespace TypeScript

open Runtimes.TypeScript

def token : ZodType := ZodType.string 1 128

/-- `RequestMetaSchema`. -/
def requestMetaShape : List (String × ZodType) :=
  [("requestId", token), ("traceId", token), ("locale", (ZodType.string 2 64).optional)]

/-- `PageQuerySchema`. -/
def pageQueryShape : List (String × ZodType) :=
  [("limit", ZodType.number 1 100), ("cursor", (ZodType.string 1 512).optional)]

/-- `ProblemDetailsSchema`. -/
def problemDetailsShape : List (String × ZodType) :=
  [("type", ZodType.string 1 512), ("title", ZodType.string 1 256),
    ("status", ZodType.number 400 599),
    ("detail", (ZodType.string 0 4096).optional), ("requestId", token)]

/-- `publicSchemas`. -/
def publicSchemas : PublicModel → List (String × ZodType)
  | .requestMeta => requestMetaShape
  | .pageQuery => pageQueryShape
  | .problemDetails => problemDetailsShape

/-- The verdict of `safeParsePublic`. -/
def safeParsePublic (schemaId : PublicModel) (object : JsonObject) : Bool :=
  strictObject (publicSchemas schemaId) object

end TypeScript

end ClipTown.PublicModels
