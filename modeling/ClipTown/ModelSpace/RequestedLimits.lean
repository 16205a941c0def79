/-
  ClipTown.ModelSpace.RequestedLimits — the limits that both generations of the search
  compute from the requested one (`embedding-contract/sql/postgres/hybrid-search.sql` and
  `hybrid-search-v3-exact.sql`).

  A request is multiplied by 20 in `INTEGER` before it is clamped, so the clamp comes too
  late for a large one.

    • `candidateLimit_within_iff` — a candidate limit is computed, and between 1 and the
      space's own, iff twenty times the request is an `INTEGER`,
    • `requestedLimit_iff` — the searches then answer within the limits, and fail
      otherwise,
    • `requestedLimit_overflows` — the least request that fails them.
-/
import ClipTown.ModelSpace.HybridSearchExact

namespace ClipTown.ModelSpace

open CanonicalOrder Embeddings RankFusion Relational

/-! ## §1. The search of contract v2. -/

/-- A row of `cliptown.semantic_embeddings`, as far as the search reads it. -/
structure SpaceEmbedding (Uuid Vec : Type) where
  embeddingId : Uuid
  tenantId : Uuid
  entityKind : String
  entityId : String
  purpose : String
  embeddingProvider : String
  model : String
  originalDimensions : Int
  embedding : Vec
  normalization : String
  searchText : String
  expiresAt : Option Int

/-- The parameters `$1` to `$6`, each of which may be null, and the statement's `now()`. -/
structure SpaceSearch (Uuid Vec : Type) where
  tenant : Option Uuid
  queryEmbedding : Option Vec
  queryText : Option String
  purpose : Option String
  requestedLimit : Option Int
  embeddingSpace : Option String
  now : Int

/-- A row of the result, with the distance it is ordered by. -/
structure RerankedHit (Uuid : Type) where
  embeddingId : Uuid
  entityKind : String
  entityId : String
  hammingDistance : Option Nat
  semanticScore : Option ℚ
  lexicalScore : Option ℚ
  combinedScore : Option ℚ

section SpaceSearch

variable {Uuid Vec Doc Query : Type} [LinearOrder Uuid]
  (pg : PgVector Vec) (ts : TextSearch Doc Query) (weighted : ℚ → ℚ → ℚ)

/-- The generated column `embedding_space`. -/
def SpaceEmbedding.embeddingSpace (e : SpaceEmbedding Uuid Vec) : String :=
  e.embeddingProvider ++ ":" ++ e.model ++ ":" ++ toString e.originalDimensions ++ ":"
    ++ e.normalization

/-- The generated column `search_document`. -/
def SpaceEmbedding.searchDocument (e : SpaceEmbedding Uuid Vec) : Doc :=
  ts.concat (ts.setweight (ts.toTsvector e.searchText) 'A')
    (ts.setweight (ts.toTsvector e.entityKind) 'B')

/-- The WHERE clause of `binary_candidates`. -/
def SpaceSearch.inScope (call : SpaceSearch Uuid Vec) (e : SpaceEmbedding Uuid Vec) : Bool :=
  call.tenant = some e.tenantId && call.purpose = some e.purpose
    && call.embeddingSpace = some e.embeddingSpace && e.expiresAt.all (fun t => call.now < t)

/-- `binary_quantize(embedding) <~> binary_quantize($2)`. -/
def hammingTo (call : SpaceSearch Uuid Vec) (e : SpaceEmbedding Uuid Vec) : Option Nat :=
  call.queryEmbedding.map (fun qv => pg.hammingDistance e.embedding qv)

/-- A nullable distance in an ascending order, nulls last. -/
def distanceLast (distance : Option Nat) : WithTop Nat := distance

/-- The CTE `binary_candidates`; rows at one distance stay in scan order. -/
def binaryCandidates (call : SpaceSearch Uuid Vec) (table : List (SpaceEmbedding Uuid Vec))
    (limit : Nat) : List (SpaceEmbedding Uuid Vec) :=
  (canonical (fun e => distanceLast (hammingTo pg call e)) (table.filter call.inScope)).take limit

/-- The select lists of `exact_rerank` and of the query; `weighted` is
`(semantic_score * 0.75) + (lexical * 0.25)`, and `least` ignores a null. -/
def rerankedHit (call : SpaceSearch Uuid Vec) (e : SpaceEmbedding Uuid Vec) : RerankedHit Uuid :=
  let semanticScore := call.queryEmbedding.map (fun qv => 1 - pg.cosineDistance e.embedding qv)
  let lexicalScore := call.queryText.map (fun q =>
    if q.toList.all (fun c => c == ' ') then 0
    else ts.tsRankCd (e.searchDocument ts) (ts.websearchToTsquery q))
  { embeddingId := e.embeddingId
    entityKind := e.entityKind
    entityId := e.entityId
    hammingDistance := hammingTo pg call e
    semanticScore := semanticScore
    lexicalScore := lexicalScore
    combinedScore := semanticScore.map (fun score =>
      weighted score (min (lexicalScore.getD 1) 1)) }

/-- `ORDER BY combined_score DESC, hamming_distance ASC, embedding_id ASC`. -/
def rerankedKey (h : RerankedHit Uuid) : (WithTop ℚ)ᵒᵈ ×ₗ WithTop Nat ×ₗ Uuid :=
  toLex (descNullsFirst h.combinedScore, toLex (distanceLast h.hammingDistance, h.embeddingId))

/-- `LEAST(GREATEST($5 * 20, 100), 4000)`, which fails like the later limits. -/
def binaryCandidateLimit (requested : Option Int) : Option Nat := candidateLimit 4000 requested

/-- `hybrid-search.sql`; `none` when its candidate limit is out of the range of `INTEGER`. -/
def hybridSearchBinary (table : List (SpaceEmbedding Uuid Vec)) (call : SpaceSearch Uuid Vec) :
    Option (List (RerankedHit Uuid)) := do
  let limit ← binaryCandidateLimit call.requestedLimit
  let reranked := (binaryCandidates pg call table limit).map (rerankedHit pg ts weighted call)
  return (canonical rerankedKey reranked).take (resultLimit 200 call.requestedLimit)

end SpaceSearch

/-! ## §2. A candidate limit. -/

/-- Twenty times the request is an `INTEGER`. -/
def FitsTwentyTimes (requested : Option Int) : Prop :=
  ∀ r ∈ requested, -107374182 ≤ r ∧ r ≤ 107374182

instance (requested : Option Int) : Decidable (FitsTwentyTimes requested) := by
  unfold FitsTwentyTimes
  infer_instance

/-- A limit is computed without an error, and is between 1 and the one it is cut to. -/
def Within (limit : Int) (computed : Option Nat) : Prop :=
  ∃ n, computed = some n ∧ 1 ≤ n ∧ (n : Int) ≤ limit

theorem int4?_eq_some {i j : Int} : int4? i = some j ↔ (-2 ^ 31 ≤ i ∧ i < 2 ^ 31) ∧ i = j := by
  unfold int4?
  by_cases h : -2 ^ 31 ≤ i ∧ i < 2 ^ 31
  · rw [if_pos h, Option.some.injEq, and_iff_right h]
  · rw [if_neg h]
    exact iff_of_false (by simp) fun hall => h hall.1

/-- **A candidate limit** is computed iff twenty times the request is an `INTEGER`, and
then the clamp holds. -/
theorem candidateLimit_within_iff {limit : Int} (hlimit : 1 ≤ limit) (requested : Option Int) :
    Within limit (candidateLimit limit requested) ↔ FitsTwentyTimes requested := by
  unfold Within FitsTwentyTimes
  cases requested with
  | none =>
      refine iff_of_true ⟨(min limit 100).toNat, rfl, by omega, by omega⟩ ?_
      intro r hr
      cases hr
  | some r =>
      simp only [candidateLimit, Option.map_eq_some_iff, int4?_eq_some, Option.mem_some_iff,
        forall_eq']
      constructor
      · intro h
        obtain ⟨n, ⟨fanOut, ⟨hrange, -⟩, -⟩, -⟩ := h
        omega
      · intro hr
        -- the clamp: at least 100 and cut to the space's limit
        have hrange : -2 ^ 31 ≤ r * 20 ∧ r * 20 < 2 ^ 31 := by omega
        refine ⟨(min limit (max (r * 20) 100)).toNat, ⟨r * 20, ⟨hrange, rfl⟩, rfl⟩, ?_, ?_⟩
        · omega
        · omega

/-! ## §3. The searches. -/

section Limits

variable {Uuid Vec Doc Query : Type} [LinearOrder Uuid]

/-- What is asked of a request, over a space: each limit is computed and in its bounds, and
the searches answer. -/
structure LimitsHold (pg : PgVector Vec) (ts : TextSearch Doc Query) (quotient : Int → ℚ)
    (weighted : ℚ → ℚ → ℚ) (db : Database Uuid Vec) (s : Space) (requested : Option Int) :
    Prop where
  semantic : Within s.semanticCandidateLimit (candidateLimit s.semanticCandidateLimit requested)
  lexical : Within s.lexicalCandidateLimit (candidateLimit s.lexicalCandidateLimit requested)
  /-- `max` of a null request and 1 is 1. -/
  rows : ∀ call, call.requestedLimit = requested → selectedSpace pg db call = some s →
    ∃ hits, hybridSearchExact pg ts quotient db call = some hits
      ∧ (hits.length : Int) ≤ min s.resultLimit (max (requested.getD 1) 1)
  binary : Within 4000 (binaryCandidateLimit requested)
  binaryRows : ∀ (table : List (SpaceEmbedding Uuid Vec)) call, call.requestedLimit = requested →
    ∃ hits, hybridSearchBinary pg ts weighted table call = some hits

variable {pg : PgVector Vec} {ts : TextSearch Doc Query} {quotient : Int → ℚ}
  {db : Database Uuid Vec} {call : SearchCall Uuid Vec} {s : Space}

/-- A search of a space whose candidate limits are computed answers, within its limit. -/
theorem hybridSearchExact_answers (hs : selectedSpace pg db call = some s)
    (hresult : 1 ≤ s.resultLimit)
    (hsem : Within s.semanticCandidateLimit
      (candidateLimit s.semanticCandidateLimit call.requestedLimit))
    (hlex : Within s.lexicalCandidateLimit
      (candidateLimit s.lexicalCandidateLimit call.requestedLimit)) :
    ∃ hits, hybridSearchExact pg ts quotient db call = some hits
      ∧ (hits.length : Int) ≤ min s.resultLimit (max (call.requestedLimit.getD 1) 1) := by
  obtain ⟨semanticLimit, hsem, -, -⟩ := hsem
  obtain ⟨lexicalLimit, hlex, -, -⟩ := hlex
  refine ⟨_, hybridSearchExact_eq hs hsem hlex, ?_⟩
  have hcut : resultLimit s.resultLimit call.requestedLimit
      = min s.resultLimit (max (call.requestedLimit.getD 1) 1) := by
    unfold resultLimit
    omega
  rw [← hcut]
  exact_mod_cast List.length_take_le _ _

/-- **The limits hold** of a request iff twenty times the request is an `INTEGER`: for
every space the table's checks admit. -/
theorem requestedLimit_iff (pg : PgVector Vec) (ts : TextSearch Doc Query) (quotient : Int → ℚ)
    (weighted : ℚ → ℚ → ℚ) (db : Database Uuid Vec) (s : Space) (hs : s.RowValid)
    (requested : Option Int) :
    LimitsHold pg ts quotient weighted db s requested ↔ FitsTwentyTimes requested := by
  constructor
  · intro h
    exact (candidateLimit_within_iff hs.semanticLimit.1 requested).mp h.semantic
  · intro hfits
    have hsem := (candidateLimit_within_iff hs.semanticLimit.1 requested).mpr hfits
    have hlex := (candidateLimit_within_iff hs.lexicalLimit.1 requested).mpr hfits
    have hbinary := (candidateLimit_within_iff (show (1 : Int) ≤ 4000 by omega) requested).mpr hfits
    refine ⟨hsem, hlex, ?_, hbinary, ?_⟩
    · intro call hcall hselected
      subst hcall
      exact hybridSearchExact_answers hselected hs.resultLimit.1 hsem hlex
    · intro table call hcall
      subst hcall
      obtain ⟨limit, hlimit, -, -⟩ := hbinary
      unfold hybridSearchBinary binaryCandidateLimit
      rw [hlimit]
      exact ⟨_, rfl⟩

end Limits

/-! ## §4. Requests over one space. -/

/-- A request for ten rows. -/
theorem requestedLimit_sample :
    LimitsHold samplePg sampleTextSearch (fun n => 1 / n) (fun score lexical => score + lexical)
      (sampleDatabase "text-embedding-3-small" true) sampleSpace (some 10) :=
  (requestedLimit_iff samplePg sampleTextSearch (fun n => 1 / n)
    (fun score lexical => score + lexical) (sampleDatabase "text-embedding-3-small" true)
    sampleSpace (by decide) (some 10)).mpr (by decide)

/-- **A request of 107374183**, an `INTEGER`, fails both searches over an enabled space. -/
theorem requestedLimit_overflows :
    int4? 107374183 = some 107374183
      ∧ Postgres samplePg (sampleDatabase "text-embedding-3-small" true)
      ∧ sampleSpace.enabled = true
      ∧ (hybridSearchExact samplePg sampleTextSearch (fun n => 1 / n)
          (sampleDatabase "text-embedding-3-small" true)
          { sampleSearch with requestedLimit := some 107374183 }).isNone
      ∧ binaryCandidateLimit (some 107374183) = none
      ∧ ¬ LimitsHold samplePg sampleTextSearch (fun n => 1 / n)
          (fun score lexical => score + lexical) (sampleDatabase "text-embedding-3-small" true)
          sampleSpace (some 107374183) := by
  refine ⟨rfl, by decide +kernel, rfl, by decide +kernel, rfl, ?_⟩
  intro h
  obtain ⟨n, hn, -⟩ := h.semantic
  cases hn

end ClipTown.ModelSpace
