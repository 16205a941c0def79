/-
  ClipTown.Embeddings.SqlFunctions — the database functions the embedding
  schemas and queries call.

  pgvector and the text search of the engines are third-party: they enter as
  the parameter records `PgVector` and `TextSearch`.  Scores and distances are
  rational numbers: every finite double is one, and the queries only compare
  them.
-/
import Mathlib.Data.Rat.Defs
import Mathlib.Order.WithBot

namespace ClipTown.Embeddings

/-- The pgvector functions the schema and the queries call. -/
structure PgVector (Vec : Type) where
  vectorDims : Vec → Nat
  l2Norm : Vec → ℚ
  /-- `subvector(v, start, count)`, with `start` from 1. -/
  subvector : Vec → Nat → Nat → Vec
  /-- `<=>` on `vector`. -/
  cosineDistance : Vec → Vec → ℚ
  /-- `<=>` on the casts to `halfvec`. -/
  halfvecDistance : Vec → Vec → ℚ
  /-- `<~>` on the casts through `binary_quantize`. -/
  hammingDistance : Vec → Vec → Nat

/-- The text search functions the schema and the queries call. -/
structure TextSearch (Doc Query : Type) where
  /-- `to_tsvector('simple', …)`. -/
  toTsvector : String → Doc
  setweight : Doc → Char → Doc
  concat : Doc → Doc → Doc
  /-- `websearch_to_tsquery('simple', …)`. -/
  websearchToTsquery : String → Query
  /-- `@@`. -/
  isMatch : Doc → Query → Bool
  tsRankCd : Doc → Query → ℚ
  tsRank : Doc → Query → ℚ

/-- The pattern `^[0-9a-f]{64}$`. -/
def isSha256Hex (s : String) : Bool :=
  s.toList.length = 64
    && s.toList.all (fun c => ('0' ≤ c && c ≤ '9') || ('a' ≤ c && c ≤ 'f'))

/-- A nullable value in an ascending order, nulls last. -/
def nullsLast (value : Option ℚ) : WithTop ℚ := value

/-- A nullable value in an ascending order, nulls first. -/
def nullsFirst (value : Option ℚ) : WithBot ℚ := value

/-- A nullable value in a descending order, nulls last. -/
def descNullsLast (value : Option ℚ) : (WithBot ℚ)ᵒᵈ := OrderDual.toDual value

/-- A nullable value in a descending order, nulls first. -/
def descNullsFirst (value : Option ℚ) : (WithTop ℚ)ᵒᵈ := OrderDual.toDual value

/-! A smallest instance of both records, for concrete calls. -/

/-- Two vectors: a unit vector whose tail is zero, and the zero vector. -/
inductive SampleVec
  | unit
  | zero
  deriving DecidableEq

/-- pgvector on the two vectors. -/
def samplePg : PgVector SampleVec where
  vectorDims _ := 4100
  l2Norm v := if v = .unit then 1 else 0
  subvector v start _ := if start = 1 then v else .zero
  cosineDistance _ _ := 0
  halfvecDistance _ _ := 0
  hammingDistance _ _ := 0

/-- Text search by whole texts. -/
def sampleTextSearch : TextSearch (List String) String where
  toTsvector text := [text]
  setweight doc _ := doc
  concat doc doc' := doc ++ doc'
  websearchToTsquery text := text
  isMatch doc query := doc.contains query
  tsRankCd _ _ := 1
  tsRank _ _ := 1

end ClipTown.Embeddings
