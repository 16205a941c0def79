/-
  ClipTown.Embeddings.ClipEmbeddings — the table `cliptown.clip_embeddings` and
  its constraints (`db/schema/postgres/0100_cliptown_embeddings.sql`).

  The generated columns `embedding_bits`, `embedding_prefix` and
  `search_document` are functions of the stored ones.
-/
import ClipTown.Embeddings.SqlFunctions
import ClipTown.Lib.Relational
import Mathlib.Tactic.MkIffOfInductiveProp

namespace ClipTown.Embeddings

open Relational

/-! ## §1. The table. -/

/-- A row of `cliptown.embedding_models`, as far as embeddings refer to it. -/
structure EmbeddingModel where
  modelKey : String
  provider : String
  modelName : String
  modelVersion : String

/-- A row of `cliptown.clip_embeddings`. -/
structure ClipEmbedding (Uuid Vec Json : Type) where
  id : Uuid
  accountId : Uuid
  entityKind : String
  entityId : Uuid
  modelKey : String
  provider : String
  modelName : String
  modelVersion : String
  nativeDims : Int
  mrlPrefixValid : Bool
  embedding : Vec
  titleText : String
  summaryText : String
  bodyText : String
  contentSha256 : String
  sourceUri : Option String
  metadata : Json

section Table

variable {Uuid Vec Json Doc Query : Type}

/-- The generated column `search_document`. -/
def ClipEmbedding.searchDocument (ts : TextSearch Doc Query) (e : ClipEmbedding Uuid Vec Json) :
    Doc :=
  ts.concat
    (ts.concat (ts.setweight (ts.toTsvector e.titleText) 'A')
      (ts.setweight (ts.toTsvector e.summaryText) 'B'))
    (ts.setweight (ts.toTsvector e.bodyText) 'D')

/-! ## §2. The constraints. -/

/-- `cliptown.emb_width()`. -/
def embWidth : Nat := 4100

/-- `cliptown.emb_is_zero_padded`, on values that are not null. -/
def embIsZeroPadded (pg : PgVector Vec) (v : Vec) (nativeDims : Int) : Bool :=
  if pg.vectorDims v ≠ embWidth then false
  else if nativeDims < 1 ∨ 4100 < nativeDims then false
  else if nativeDims = 4100 then true
  else pg.l2Norm (pg.subvector v (nativeDims.toNat + 1) (4100 - nativeDims.toNat)) = 0

/-- `cliptown.emb_is_unit`, on values that are not null. -/
def embIsUnit (pg : PgVector Vec) (v : Vec) (tol : ℚ) : Bool :=
  -tol ≤ pg.l2Norm v - 1 ∧ pg.l2Norm v - 1 ≤ tol

/-- The entity kinds the table admits. -/
def entityKinds : List String :=
  ["clip", "clip_group", "source_app_context", "ocr_text", "link_preview"]

/-- `model_key = provider || ':' || model_name || ':' || model_version`. -/
def derivedModelKey (provider modelName modelVersion : String) : String :=
  provider ++ ":" ++ modelName ++ ":" ++ modelVersion

/-- The CHECKs on one row. -/
@[mk_iff]
structure ClipEmbedding.RowValid (pg : PgVector Vec) (e : ClipEmbedding Uuid Vec Json) :
    Prop where
  entityKind : e.entityKind ∈ entityKinds
  nativeDims : 1 ≤ e.nativeDims ∧ e.nativeDims ≤ 4100
  titleText : e.titleText.utf8ByteSize ≤ 2048
  summaryText : e.summaryText.utf8ByteSize ≤ 8192
  bodyText : e.bodyText.utf8ByteSize ≤ 65536
  contentSha256 : isSha256Hex e.contentSha256
  sourceUri : ∀ uri ∈ e.sourceUri, uri.utf8ByteSize ≤ 2048
  zeroPadded : embIsZeroPadded pg e.embedding e.nativeDims
  unitNorm : embIsUnit pg e.embedding (1 / 1000)
  modelKey : e.modelKey = derivedModelKey e.provider e.modelName e.modelVersion

/-- A table state the constraints allow. -/
@[mk_iff]
structure ClipEmbeddingsValid (pg : PgVector Vec) (models : List EmbeddingModel)
    (table : List (ClipEmbedding Uuid Vec Json)) : Prop where
  primaryKey : Unique ClipEmbedding.id table
  onePerEntityPerModel :
    Unique (fun e => (e.accountId, e.entityKind, e.entityId, e.modelKey)) table
  model : ForeignKey ClipEmbedding.modelKey table EmbeddingModel.modelKey models
  rows : Check (ClipEmbedding.RowValid pg) table

instance (pg : PgVector Vec) : DecidablePred (@ClipEmbedding.RowValid Uuid Vec Json pg) :=
  fun e => decidable_of_iff _ (ClipEmbedding.rowValid_iff pg e).symm

instance [DecidableEq Uuid] (pg : PgVector Vec) (models : List EmbeddingModel)
    (table : List (ClipEmbedding Uuid Vec Json)) :
    Decidable (ClipEmbeddingsValid pg models table) :=
  decidable_of_iff _ (clipEmbeddingsValid_iff pg models table).symm

end Table

end ClipTown.Embeddings
