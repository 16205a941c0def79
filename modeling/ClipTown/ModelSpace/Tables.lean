/-
  ClipTown.ModelSpace.Tables — the embedding model-space tables, version 3
  (`embedding-contract/sql/{postgres,cockroachdb}/desired-v3.sql`).

  Both engines declare the same columns and the same keys; they differ in the
  row checks.  A database state is a `Database`; `Consistent` are the keys and
  foreign keys of both engines, `Postgres` and `Cockroach` add the row checks of
  each.  The writes an engine accepts are the statements that leave every
  constraint true, one statement on one table at a time (`writes`).

    • `Consistent.space_of_embedding` — what the composite foreign key of an
      embedding says about its space,
    • `Consistent.profiles_of_space` — what the two composite foreign keys of a
      space say about its profiles: role, dimensions and metric, nothing else.
-/
import ClipTown.Embeddings.SqlFunctions
import ClipTown.Lib.Relational
import ClipTown.Lib.Transitions
import Mathlib.Tactic.MkIffOfInductiveProp

namespace ClipTown.ModelSpace

open Embeddings Relational Transitions

/-! ## §1. The rows. -/

/-- A row of `embedding_generation_profiles_v3`; times are in microseconds. -/
structure Profile where
  profileKey : String
  embeddingProvider : String
  generationProvider : Option String
  model : String
  modelRevision : String
  sourceDimensions : Int
  storageDimensions : Int
  normalization : String
  taskProfile : String
  instructionFamily : String
  instructionSha256 : String
  preprocessingSha256 : String
  inputRole : String
  modality : String
  distanceMetric : String
  annStrategy : String
  annDimensions : Int
  supportsMrl : Bool
  enabled : Bool
  retiredAt : Option Int
  deriving DecidableEq

/-- A row of `embedding_comparison_spaces_v3`. -/
structure Space where
  spaceKey : String
  purpose : String
  queryProfileKey : String
  queryRole : String
  documentProfileKey : String
  documentRole : String
  sourceDimensions : Int
  distanceMetric : String
  lexicalCandidateLimit : Int
  semanticCandidateLimit : Int
  resultLimit : Int
  fusionK : Int
  exactRerank : Bool
  enabled : Bool
  retiredAt : Option Int
  deriving DecidableEq

/-- A row of `semantic_embeddings_v3`. -/
structure SemanticEmbedding (Uuid Vec : Type) where
  embeddingId : Uuid
  tenantId : Uuid
  entityKind : String
  entityId : String
  purpose : String
  profileKey : String
  inputRole : String
  spaceKey : String
  queryProfileKey : String
  queryRole : String
  documentProfileKey : String
  documentRole : String
  sourceDimensions : Int
  storageDimensions : Int
  distanceMetric : String
  embedding : Vec
  titleText : String
  tagText : String
  bodyText : String
  sourceAppText : String
  contentSha256 : String
  sourceRevision : String
  expiresAt : Option Int

/-- The three tables a search reads. -/
structure Database (Uuid Vec : Type) where
  profiles : List Profile
  spaces : List Space
  embeddings : List (SemanticEmbedding Uuid Vec)

/-! ## §2. Keys and foreign keys, on both engines. -/

/-- The columns by which a profile is referred to. -/
structure ProfileRef where
  profileKey : String
  inputRole : String
  sourceDimensions : Int
  distanceMetric : String
  deriving DecidableEq

def Profile.key (p : Profile) : ProfileRef :=
  ⟨p.profileKey, p.inputRole, p.sourceDimensions, p.distanceMetric⟩

def Space.queryProfile (s : Space) : ProfileRef :=
  ⟨s.queryProfileKey, s.queryRole, s.sourceDimensions, s.distanceMetric⟩

def Space.documentProfile (s : Space) : ProfileRef :=
  ⟨s.documentProfileKey, s.documentRole, s.sourceDimensions, s.distanceMetric⟩

/-- The columns by which a space is referred to. -/
structure SpaceRef where
  spaceKey : String
  purpose : String
  queryProfileKey : String
  queryRole : String
  documentProfileKey : String
  documentRole : String
  sourceDimensions : Int
  distanceMetric : String
  deriving DecidableEq

def Space.key (s : Space) : SpaceRef :=
  ⟨s.spaceKey, s.purpose, s.queryProfileKey, s.queryRole, s.documentProfileKey, s.documentRole,
    s.sourceDimensions, s.distanceMetric⟩

/-- The columns that say what was embedded, and for which space. -/
structure ContentRef (Uuid : Type) where
  tenantId : Uuid
  entityKind : String
  entityId : String
  purpose : String
  spaceKey : String
  profileKey : String
  contentSha256 : String
  sourceRevision : String
  deriving DecidableEq

section Embedding

variable {Uuid Vec : Type}

def SemanticEmbedding.profile (e : SemanticEmbedding Uuid Vec) : ProfileRef :=
  ⟨e.profileKey, e.inputRole, e.sourceDimensions, e.distanceMetric⟩

def SemanticEmbedding.space (e : SemanticEmbedding Uuid Vec) : SpaceRef :=
  ⟨e.spaceKey, e.purpose, e.queryProfileKey, e.queryRole, e.documentProfileKey, e.documentRole,
    e.sourceDimensions, e.distanceMetric⟩

def SemanticEmbedding.content (e : SemanticEmbedding Uuid Vec) : ContentRef Uuid :=
  ⟨e.tenantId, e.entityKind, e.entityId, e.purpose, e.spaceKey, e.profileKey, e.contentSha256,
    e.sourceRevision⟩

/-- The keys and foreign keys that both engines declare. -/
@[mk_iff]
structure Consistent (db : Database Uuid Vec) : Prop where
  profileKey : Unique Profile.profileKey db.profiles
  spaceKey : Unique Space.spaceKey db.spaces
  embeddingId : Unique SemanticEmbedding.embeddingId db.embeddings
  content : Unique SemanticEmbedding.content db.embeddings
  spaceQuery : ForeignKey Space.queryProfile db.spaces Profile.key db.profiles
  spaceDocument : ForeignKey Space.documentProfile db.spaces Profile.key db.profiles
  embeddingProfile : ForeignKey SemanticEmbedding.profile db.embeddings Profile.key db.profiles
  embeddingSpace : ForeignKey SemanticEmbedding.space db.embeddings Space.key db.spaces

instance [DecidableEq Uuid] (db : Database Uuid Vec) : Decidable (Consistent db) :=
  decidable_of_iff _ (consistent_iff db).symm

/-- **An embedding and its space**: the row of that `space_key` is unique, and
the embedding agrees with it on everything the foreign key carries. -/
theorem Consistent.space_of_embedding {db : Database Uuid Vec} (h : Consistent db)
    {e : SemanticEmbedding Uuid Vec} (he : e ∈ db.embeddings) {s : Space} (hs : s ∈ db.spaces)
    (hkey : e.spaceKey = s.spaceKey) : e.space = s.key := by
  obtain ⟨s', hs', hfk⟩ := h.embeddingSpace e he
  have hsame : s'.spaceKey = s.spaceKey := by
    rw [← hkey]
    exact congrArg SpaceRef.spaceKey hfk
  rw [h.spaceKey.eq_of_key hs hs' hsame.symm]
  exact hfk.symm

/-- **A space and its profiles**: both exist, and carry the space's roles,
dimensions and metric. -/
theorem Consistent.profiles_of_space {db : Database Uuid Vec} (h : Consistent db) {s : Space}
    (hs : s ∈ db.spaces) :
    ∃ q ∈ db.profiles, ∃ d ∈ db.profiles, q.key = s.queryProfile ∧ d.key = s.documentProfile := by
  obtain ⟨q, hq, hqkey⟩ := h.spaceQuery s hs
  obtain ⟨d, hd, hdkey⟩ := h.spaceDocument s hs
  exact ⟨q, hq, d, hd, hqkey, hdkey⟩

end Embedding

/-! ## §3. The row checks of PostgreSQL. -/

/-- `length(value) BETWEEN lower AND upper`. -/
def lengthBetween (value : String) (lower upper : Nat) : Prop :=
  lower ≤ value.length ∧ value.length ≤ upper

def purposes : List String := ["clip_search", "clip_deduplication", "discovery"]
def inputRoles : List String := ["symmetric", "query", "document", "classification", "clustering"]
def distanceMetrics : List String := ["cosine", "inner-product", "l2"]

/-- The CHECK on the ANN strategy. -/
def Profile.annValid (p : Profile) : Prop :=
  match p.annStrategy with
  | "halfvec-exact" => p.sourceDimensions ≤ 4000 ∧ p.annDimensions = p.sourceDimensions
  | "halfvec-mrl" =>
      p.supportsMrl ∧ p.annDimensions < p.sourceDimensions
        ∧ 1 ≤ p.annDimensions ∧ p.annDimensions ≤ 4000
  | "binary-full-rerank" => p.annDimensions = 4100
  | "exact-only" => p.annDimensions = 0
  | _ => False

/-- The CHECKs on a profile. -/
@[mk_iff]
structure Profile.RowValid (p : Profile) : Prop where
  profileKey : lengthBetween p.profileKey 16 512
  embeddingProvider :
    p.embeddingProvider ∈ ["openai", "google", "voyage", "qwen", "nvidia", "baai", "custom"]
  generationProvider : ∀ g ∈ p.generationProvider,
    g ∈ ["openai", "anthropic", "google", "qwen", "nvidia", "baai", "custom"]
  model : lengthBetween p.model 1 200
  modelRevision : lengthBetween p.modelRevision 1 200
  sourceDimensions : 1 ≤ p.sourceDimensions ∧ p.sourceDimensions ≤ 4096
  storageDimensions : p.storageDimensions = 4100
  normalization : p.normalization ∈ ["provider", "l2", "none"]
  taskProfile : lengthBetween p.taskProfile 1 128
  instructionFamily : lengthBetween p.instructionFamily 1 128
  instructionSha256 : isSha256Hex p.instructionSha256
  preprocessingSha256 : isSha256Hex p.preprocessingSha256
  inputRole : p.inputRole ∈ inputRoles
  modality : lengthBetween p.modality 1 80
  distanceMetric : p.distanceMetric ∈ distanceMetrics
  annStrategy : p.annStrategy ∈ ["halfvec-exact", "halfvec-mrl", "binary-full-rerank", "exact-only"]
  annDimensions : 0 ≤ p.annDimensions ∧ p.annDimensions ≤ 4100
  ann : p.annValid

/-- The CHECKs on a space. -/
@[mk_iff]
structure Space.RowValid (s : Space) : Prop where
  spaceKey : lengthBetween s.spaceKey 16 512
  purpose : s.purpose ∈ purposes
  queryRole : s.queryRole ∈ ["symmetric", "query", "classification", "clustering"]
  documentRole : s.documentRole ∈ ["symmetric", "document", "classification", "clustering"]
  sourceDimensions : 1 ≤ s.sourceDimensions ∧ s.sourceDimensions ≤ 4096
  distanceMetric : s.distanceMetric ∈ distanceMetrics
  lexicalLimit : 1 ≤ s.lexicalCandidateLimit ∧ s.lexicalCandidateLimit ≤ 4000
  semanticLimit : 1 ≤ s.semanticCandidateLimit ∧ s.semanticCandidateLimit ≤ 4000
  resultLimit : 1 ≤ s.resultLimit ∧ s.resultLimit ≤ 200
  fusionK : 1 ≤ s.fusionK ∧ s.fusionK ≤ 1000
  exactRerank : s.exactRerank
  roles : (s.queryRole, s.documentRole) ∈
    [("symmetric", "symmetric"), ("query", "document"), ("classification", "classification"),
      ("clustering", "clustering")]

/-- `entity_kind ~ '^[a-z][a-z0-9_]{0,79}$'`. -/
def isEntityKind (kind : String) : Bool :=
  match kind.toList with
  | [] => false
  | c :: rest =>
      ('a' ≤ c && c ≤ 'z') && rest.length ≤ 79
        && rest.all (fun c => ('a' ≤ c && c ≤ 'z') || ('0' ≤ c && c ≤ '9') || c == '_')

section Postgres

variable {Uuid Vec : Type} (pg : PgVector Vec)

/-- `embedding_is_valid_v3`, on values that are not null. -/
def embeddingIsValid (input : Vec) (learned : Int) : Bool :=
  (1 ≤ learned && learned ≤ 4096)
    && pg.vectorDims input = 4100
    && 0 < pg.l2Norm (pg.subvector input 1 learned.toNat)
    && pg.l2Norm (pg.subvector input (learned.toNat + 1) (4100 - learned.toNat)) ≤ 1 / 1000000

/-- The CHECKs on an embedding. -/
@[mk_iff]
structure SemanticEmbedding.RowValid (e : SemanticEmbedding Uuid Vec) : Prop where
  entityKind : isEntityKind e.entityKind
  entityId : lengthBetween e.entityId 1 256
  purpose : e.purpose ∈ purposes
  inputRole : e.inputRole ∈ inputRoles
  sourceDimensions : 1 ≤ e.sourceDimensions ∧ e.sourceDimensions ≤ 4096
  storageDimensions : e.storageDimensions = 4100
  distanceMetric : e.distanceMetric ∈ distanceMetrics
  contentSha256 : isSha256Hex e.contentSha256
  sourceRevision : lengthBetween e.sourceRevision 1 256
  vector : embeddingIsValid pg e.embedding e.sourceDimensions
  side : e.inputRole = e.queryRole ∧ e.profileKey = e.queryProfileKey
    ∨ e.inputRole = e.documentRole ∧ e.profileKey = e.documentProfileKey

instance (value : String) (lower upper : Nat) : Decidable (lengthBetween value lower upper) := by
  unfold lengthBetween; infer_instance

instance (p : Profile) : Decidable p.annValid := by
  unfold Profile.annValid; split <;> infer_instance

instance : DecidablePred Profile.RowValid := fun p =>
  decidable_of_iff _ (Profile.rowValid_iff p).symm

instance : DecidablePred Space.RowValid := fun s => decidable_of_iff _ (Space.rowValid_iff s).symm

instance : DecidablePred (@SemanticEmbedding.RowValid Uuid Vec pg) := fun e =>
  decidable_of_iff _ (SemanticEmbedding.rowValid_iff pg e).symm

/-- Every PostgreSQL constraint. -/
def Postgres (db : Database Uuid Vec) : Prop :=
  Consistent db ∧ Check Profile.RowValid db.profiles ∧ Check Space.RowValid db.spaces
    ∧ Check (SemanticEmbedding.RowValid pg) db.embeddings

instance [DecidableEq Uuid] : DecidablePred (@Postgres Uuid Vec pg) := fun db => by
  unfold Postgres; infer_instance

/-! ## §4. Writes. -/

/-- One statement on one table. -/
inductive Write (Uuid Vec : Type)
  | profiles (statement : Statement Profile)
  | spaces (statement : Statement Space)
  | embeddings (statement : Statement (SemanticEmbedding Uuid Vec))

/-- The state after a write, before the constraints are checked. -/
def Database.write (db : Database Uuid Vec) : Write Uuid Vec → Database Uuid Vec
  | .profiles statement => { db with profiles := statement.apply db.profiles }
  | .spaces statement => { db with spaces := statement.apply db.spaces }
  | .embeddings statement => { db with embeddings := statement.apply db.embeddings }

/-- Any sequence of writes that PostgreSQL accepts, from empty tables. -/
def writes [DecidableEq Uuid] : System (Database Uuid Vec) (Write Uuid Vec) :=
  System.guarded (fun db => db = ⟨[], [], []⟩) Database.write (Postgres pg)

/-- Every reachable state satisfies every constraint. -/
theorem postgres_of_reachable [DecidableEq Uuid] {db : Database Uuid Vec}
    (h : (writes pg).Reachable db) : Postgres pg db := by
  apply System.ok_of_reachable _ h
  intro db hdb
  rw [hdb]
  refine ⟨⟨?_, ?_, ?_, ?_, ?_, ?_, ?_, ?_⟩, ?_, ?_, ?_⟩
  all_goals first | exact List.nodup_nil | exact fun _ hmem => absurd hmem List.not_mem_nil

end Postgres

end ClipTown.ModelSpace
