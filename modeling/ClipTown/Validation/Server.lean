/-
  ClipTown.Validation.Server — the server models of the validation SDK, as each
  of its four runtimes writes them down (`validation/{rust-server/src/lib.rs,
  golang-server/server.go, gleam-server/src/cliptown_validation_server.gleam,
  typescript-server/src/server.ts}`).

  A context carries the public request meta, the trusted actor and the source
  address; a command carries a context and a payload.  Rust, Go and Gleam hold
  the request meta in a member `public`; TypeScript extends its schema, so that
  the members of the meta stand beside the others.
-/
import ClipTown.Validation.Public

namespace ClipTown.ServerModels

open JsonData Runtimes

/-- The server models (`contract.v1.json`) that cross the runtimes. -/
inductive ServerModel where
  | serverRequestContext
  | internalCommand
  deriving DecidableEq, Repr

/-- What the runtimes rely on: the length that Gleam's `string.length` counts, the
address parsers of garde, of Go's validator and of zod, and whether the `z.unknown()` of
the installed zod takes a missing key. -/
structure Libraries where
  graphemes : String → Nat
  gardeIp : String → Bool
  goIp : String → Bool
  zodIpv4 : String → Bool
  zodIpv6 : String → Bool
  zodMissing : Bool

/-! ## §1. Rust. -/

namespace Rust

open Runtimes.Rust PublicModels.Rust

structure TrustedActor where
  userId : String
  tenantId : Option String
  roles : List String
  deriving DecidableEq

structure ServerRequestContext where
  public_ : RequestMeta
  actor : TrustedActor
  sourceIp : Option String
  deriving DecidableEq

structure InternalCommand where
  operationId : String
  idempotencyKey : Option String
  context : ServerRequestContext
  payload : JsonValue

def deserializeRequestMeta (value : JsonValue) : Option RequestMeta :=
  (structFields ["requestId", "traceId", "locale"] value).bind RequestMeta.deserialize

def TrustedActor.deserialize (value : JsonValue) : Option TrustedActor := do
  let object ← structFields ["userId", "tenantId", "roles"] value
  denyUnknownFields ["userId", "tenantId", "roles"] object
  let userId ← field object "userId" deserializeString
  let tenantId ← optionField object "tenantId" deserializeString
  let roles ← field object "roles" (deserializeVec deserializeString)
  return { userId, tenantId, roles }

def ServerRequestContext.deserialize (value : JsonValue) : Option ServerRequestContext := do
  let object ← structFields ["public", "actor", "sourceIp"] value
  denyUnknownFields ["public", "actor", "sourceIp"] object
  let public_ ← field object "public" deserializeRequestMeta
  let actor ← field object "actor" TrustedActor.deserialize
  let sourceIp ← optionField object "sourceIp" deserializeString
  return { public_, actor, sourceIp }

def InternalCommand.deserialize (value : JsonValue) : Option InternalCommand := do
  let object ← structFields ["operationId", "idempotencyKey", "context", "payload"] value
  denyUnknownFields ["operationId", "idempotencyKey", "context", "payload"] object
  let operationId ← field object "operationId" deserializeString
  let idempotencyKey ← optionField object "idempotencyKey" deserializeString
  let context ← field object "context" ServerRequestContext.deserialize
  let payload ← field object "payload" some
  return { operationId, idempotencyKey, context, payload }

def TrustedActor.validate (value : TrustedActor) : Bool :=
  length 1 128 value.userId
    && onOption (length 1 128) value.tenantId
    && value.roles.length ≤ 64 && value.roles.all (length 1 128)

def ServerRequestContext.validate (ip : String → Bool) (value : ServerRequestContext) : Bool :=
  value.public_.validate && value.actor.validate && onOption ip value.sourceIp

def InternalCommand.validate (ip : String → Bool) (value : InternalCommand) : Bool :=
  length 1 256 value.operationId
    && onOption (length 1 128) value.idempotencyKey
    && value.context.validate ip

/-- Deserialize, then validate. -/
def accepts (ip : String → Bool) : ServerModel → JsonValue → Bool
  | .serverRequestContext, value =>
      (ServerRequestContext.deserialize value).any (ServerRequestContext.validate ip)
  | .internalCommand, value => (InternalCommand.deserialize value).any (InternalCommand.validate ip)

end Rust

/-! ## §2. Go. -/

namespace Go

open Runtimes.Go PublicModels.Go

structure TrustedActor where
  userID : String
  tenantID : String
  roles : List String
  deriving DecidableEq

structure ServerRequestContext where
  public_ : RequestMeta
  actor : TrustedActor
  sourceIP : String
  deriving DecidableEq

structure InternalCommand where
  operationID : String
  idempotencyKey : String
  context : ServerRequestContext
  payload : Option JsonValue

/-- The zero values, which a missing member leaves. -/
def RequestMeta.zero : RequestMeta := ⟨"", "", ""⟩

def TrustedActor.zero : TrustedActor := ⟨"", "", []⟩

def ServerRequestContext.zero : ServerRequestContext := ⟨RequestMeta.zero, TrustedActor.zero, ""⟩

def decodeRequestMeta (value : Option JsonValue) : Option RequestMeta := do
  let object ← decodeStruct value
  let requestID ← decodeString (object.get "requestId")
  let traceID ← decodeString (object.get "traceId")
  let locale ← decodeString (object.get "locale")
  return { requestID, traceID, locale }

def TrustedActor.decode (value : Option JsonValue) : Option TrustedActor := do
  let object ← decodeStruct value
  let userID ← decodeString (object.get "userId")
  let tenantID ← decodeString (object.get "tenantId")
  let roles ← decodeStrings (object.get "roles")
  return { userID, tenantID, roles }

def ServerRequestContext.decode (value : Option JsonValue) : Option ServerRequestContext := do
  let object ← decodeStruct value
  let public_ ← decodeRequestMeta (object.get "public")
  let actor ← TrustedActor.decode (object.get "actor")
  let sourceIP ← decodeString (object.get "sourceIp")
  return { public_, actor, sourceIP }

def InternalCommand.decode (value : Option JsonValue) : Option InternalCommand := do
  let object ← decodeStruct value
  let operationID ← decodeString (object.get "operationId")
  let idempotencyKey ← decodeString (object.get "idempotencyKey")
  let context ← ServerRequestContext.decode (object.get "context")
  return { operationID, idempotencyKey, context, payload := object.get "payload" }

def TrustedActor.validate (value : TrustedActor) : Bool :=
  checkString [.required, .min 1, .max 128] value.userID
    && checkString [.omitempty, .min 1, .max 128] value.tenantID
    && checkTags (value.roles = []) value.roles.length [.max 64]
    && value.roles.all (checkString [.min 1, .max 128])

def ServerRequestContext.validate (ip : String → Bool) (value : ServerRequestContext) : Bool :=
  checkTags (value.public_ = RequestMeta.zero) 0 [.required] && value.public_.validate
    && checkTags (value.actor = TrustedActor.zero) 0 [.required] && value.actor.validate
    && (value.sourceIP = "" || ip value.sourceIP)

def InternalCommand.validate (ip : String → Bool) (value : InternalCommand) : Bool :=
  checkString [.required, .min 1, .max 256] value.operationID
    && checkString [.omitempty, .min 1, .max 128] value.idempotencyKey
    && checkTags (value.context = ServerRequestContext.zero) 0 [.required]
    && value.context.validate ip

/-- Decode, then `Validate`. -/
def accepts (ip : String → Bool) : ServerModel → JsonValue → Bool
  | .serverRequestContext, value =>
      (ServerRequestContext.decode value).any (ServerRequestContext.validate ip)
  | .internalCommand, value => (InternalCommand.decode value).any (InternalCommand.validate ip)

end Go

/-! ## §3. Gleam. -/

namespace Gleam

open Runtimes.Gleam PublicModels.Gleam

structure TrustedActor where
  userId : String
  tenantId : Option String
  roles : List String
  deriving DecidableEq

structure ServerRequestContext where
  public_ : RequestMeta
  actor : TrustedActor
  sourceIp : Option String
  deriving DecidableEq

structure InternalCommand where
  operationId : String
  idempotencyKey : Option String
  context : ServerRequestContext
  payload : JsonValue

section Decoders

variable (graphemes : String → Nat)

/-- `roles_decoder`. -/
def rolesDecoder : Decoder (List String) :=
  andThen (list (boundedString graphemes 1 128)) fun roles =>
    if roles.length ≤ 64 then success roles
    else failure [] "at most 64 bounded roles"

/-- `ip_string`. -/
def ipString : Decoder String :=
  andThen (boundedString graphemes 2 45) fun value =>
    if '.' ∈ value.toList ∨ ':' ∈ value.toList then success value
    else failure "" "IP address"

def trustedActorDecoder : Decoder TrustedActor :=
  field "userId" (boundedString graphemes 1 128) fun userId =>
  optionalField "tenantId" none (map (boundedString graphemes 1 128) some) fun tenantId =>
  field "roles" (rolesDecoder graphemes) fun roles =>
  success { userId, tenantId, roles }

def serverRequestContextDecoder : Decoder ServerRequestContext :=
  field "public" (requestMetaDecoder graphemes) fun public_ =>
  field "actor" (trustedActorDecoder graphemes) fun actor =>
  optionalField "sourceIp" none (map (ipString graphemes) some) fun sourceIp =>
  success { public_, actor, sourceIp }

def internalCommandDecoder : Decoder InternalCommand :=
  field "operationId" (boundedString graphemes 1 256) fun operationId =>
  optionalField "idempotencyKey" none (map (boundedString graphemes 1 128) some)
    fun idempotencyKey =>
  field "context" (serverRequestContextDecoder graphemes) fun context =>
  field "payload" dynamic fun payload =>
  success { operationId, idempotencyKey, context, payload }

def decodeServerRequestContext (value : JsonValue) :
    Except (List DecodeError) ServerRequestContext :=
  run value (serverRequestContextDecoder graphemes)

def decodeInternalCommand (value : JsonValue) : Except (List DecodeError) InternalCommand :=
  run value (internalCommandDecoder graphemes)

def accepts : ServerModel → JsonValue → Bool
  | .serverRequestContext, value => (decodeServerRequestContext graphemes value).isOk
  | .internalCommand, value => (decodeInternalCommand graphemes value).isOk

end Decoders

end Gleam

/-! ## §4. TypeScript. -/

namespace TypeScript

open Runtimes.TypeScript PublicModels.TypeScript

/-- `TrustedActorSchema`. -/
def trustedActorShape : List (String × ZodType) :=
  [("userId", token), ("tenantId", token.optional), ("roles", ZodType.array token 64)]

/-- `ServerRequestContextSchema`, which extends `RequestMetaSchema`. -/
def serverRequestContextShape (ipv4 ipv6 : String → Bool) : List (String × ZodType) :=
  requestMetaShape ++
    [("actor", ZodType.object trustedActorShape),
      ("sourceIp", (ZodType.union (ZodType.format ipv4) (ZodType.format ipv6)).optional)]

/-- `InternalCommandSchema`. -/
def internalCommandShape (ipv4 ipv6 : String → Bool) (missing : Bool) :
    List (String × ZodType) :=
  [("operationId", ZodType.string 1 256), ("idempotencyKey", token.optional),
    ("context", ZodType.object (serverRequestContextShape ipv4 ipv6)),
    ("payload", ZodType.unknown missing)]

def accepts (ipv4 ipv6 : String → Bool) (missing : Bool) : ServerModel → JsonValue → Bool
  | .serverRequestContext, value =>
      ZodType.object (serverRequestContextShape ipv4 ipv6) (some value)
  | .internalCommand, value =>
      ZodType.object (internalCommandShape ipv4 ipv6 missing) (some value)

end TypeScript

end ClipTown.ServerModels
