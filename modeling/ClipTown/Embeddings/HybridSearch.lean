/-
  ClipTown.Embeddings.HybridSearch — hybrid retrieval over
  `cliptown.clip_embeddings` (`db/queries/hybrid_search.sql`).

  The query ranks vector candidates of one model and lexical candidates of the
  tenant, joins the two lists by a full outer join, joins the table back on,
  and orders by the fused score.  The vector branch filters on `model_key`; the
  lexical branch and the join back do not.

    • `mem_joined` — a row reaches the exact-rerank stage iff it is a vector or
      a lexical candidate,
    • `mem_lexicalCandidates` — the lexical candidates, without the sort: the
      matching rows with fewer than `$5` matching rows ahead of them,
    • `hybridSearch_scoped_iff` — only rows of the asked model are returned and
      compared iff every lexical candidate is of that model;
      `hybridSearch_mixes_models` is a state and a call where one is not.
-/
import ClipTown.Embeddings.ClipEmbeddings
import ClipTown.Lib.RankFusion
import Mathlib.Data.Prod.Lex
import Mathlib.Algebra.Order.Ring.Rat

namespace ClipTown.Embeddings

open CanonicalOrder RankFusion Relational

/-! ## §1. Parameters. -/

/-- The bind parameters `$1` to `$7`, each of which may be null. -/
structure HybridSearchParams (Uuid Vec : Type) where
  tenant : Option Uuid
  modelKey : Option String
  queryEmbedding : Option Vec
  queryText : Option String
  candidateCount : Option Int
  resultCount : Option Int
  entityKinds : Option (List (Option String))

/-- The CTE `scope`. -/
structure Scope (Uuid Vec : Type) where
  tenant : Option Uuid
  modelKey : Option String
  qv : Option Vec
  q : Option String
  candidates : Nat
  results : Nat
  kinds : Option (List (Option String))

/-- `greatest(coalesce(count, default), 1)`. -/
def countOrDefault (default : Int) (count : Option Int) : Nat := (max (count.getD default) 1).toNat

def HybridSearchParams.scope {Uuid Vec : Type} (p : HybridSearchParams Uuid Vec) :
    Scope Uuid Vec where
  tenant := p.tenant
  modelKey := p.modelKey
  qv := p.queryEmbedding
  q := p.queryText
  candidates := countOrDefault 400 p.candidateCount
  results := countOrDefault 20 p.resultCount
  kinds := p.entityKinds

/-! ## §2. The query. -/

section Query

variable {Uuid Vec Json Doc Query : Type} [LinearOrder Uuid]
  (pg : PgVector Vec) (ts : TextSearch Doc Query) (quotient : Nat → ℚ)

/-- `s.kinds is null or cardinality(s.kinds) = 0 or e.entity_kind = any (s.kinds)`. -/
def Scope.asksKind (s : Scope Uuid Vec) (kind : String) : Bool :=
  match s.kinds with
  | none => true
  | some [] => true
  | some kinds => kinds.contains (some kind)

/-- The rows the vector branch ranks. -/
def vectorScope (s : Scope Uuid Vec) (table : List (ClipEmbedding Uuid Vec Json)) :
    List (ClipEmbedding Uuid Vec Json) :=
  table.filter (fun e =>
    s.tenant = some e.accountId && s.modelKey = some e.modelKey && s.asksKind e.entityKind)

/-- The stage-1 distance: the prefix for a Matryoshka row, the sign bits
otherwise; null for a null query vector. -/
def candidateDistance (s : Scope Uuid Vec) (e : ClipEmbedding Uuid Vec Json) : Option ℚ :=
  s.qv.map (fun qv =>
    if e.mrlPrefixValid then
      pg.halfvecDistance (pg.subvector e.embedding 1 1024) (pg.subvector qv 1 1024)
    else
      pg.hammingDistance e.embedding qv)

/-- The CTE `vector_candidates`; rows at one distance stay in scan order. -/
def vectorCandidates (s : Scope Uuid Vec) (table : List (ClipEmbedding Uuid Vec Json)) :
    List (ClipEmbedding Uuid Vec Json × Nat) :=
  (ranked (fun a b => nullsLast (candidateDistance pg s a) ≤ nullsLast (candidateDistance pg s b))
    (vectorScope s table)).take s.candidates

/-- The rows the lexical branch ranks. -/
def lexicalScope (s : Scope Uuid Vec) (table : List (ClipEmbedding Uuid Vec Json)) :
    List (ClipEmbedding Uuid Vec Json) :=
  match s.q with
  | none => []
  | some q =>
      table.filter (fun e =>
        s.tenant = some e.accountId && q ≠ ""
          && ts.isMatch (e.searchDocument ts) (ts.websearchToTsquery q) && s.asksKind e.entityKind)

/-- `ts_rank_cd(e.search_document, …)`. -/
def lexicalScore (s : Scope Uuid Vec) (e : ClipEmbedding Uuid Vec Json) : Option ℚ :=
  s.q.map (fun q => ts.tsRankCd (e.searchDocument ts) (ts.websearchToTsquery q))

/-- `order by ts_rank_cd(…) desc, e.id`. -/
def lexicalKey (s : Scope Uuid Vec) (e : ClipEmbedding Uuid Vec Json) : (WithTop ℚ)ᵒᵈ ×ₗ Uuid :=
  toLex (descNullsFirst (lexicalScore ts s e), e.id)

/-- The CTE `lexical_candidates`. -/
def lexicalCandidates (s : Scope Uuid Vec) (table : List (ClipEmbedding Uuid Vec Json)) :
    List (ClipEmbedding Uuid Vec Json × Nat) :=
  (ranked (fun a b => lexicalKey ts s a ≤ lexicalKey ts s b) (lexicalScope ts s table)).take
    s.candidates

/-- A row of the CTE `fused`. -/
structure Fused (Uuid : Type) where
  id : Uuid
  rrfScore : ℚ
  vectorRank : Option Nat
  lexicalRank : Option Nat

/-- `coalesce(1.0 / (60 + rank), 0.0)`. -/
def reciprocalRank (rank : Option Nat) : ℚ := (rank.map (fun r => quotient (60 + r))).getD 0

/-- The id and the ranks of one row of the full outer join. -/
def toFused :
    Option (ClipEmbedding Uuid Vec Json × Nat) × Option (ClipEmbedding Uuid Vec Json × Nat) →
      Option (Fused Uuid)
  | (v, l) =>
      (v <|> l).map (fun found => {
        id := found.1.id
        rrfScore :=
          reciprocalRank quotient (v.map Prod.snd) + reciprocalRank quotient (l.map Prod.snd)
        vectorRank := v.map Prod.snd
        lexicalRank := l.map Prod.snd })

/-- The CTE `fused`. -/
def fused (s : Scope Uuid Vec) (table : List (ClipEmbedding Uuid Vec Json)) : List (Fused Uuid) :=
  (fullOuterJoin (fun v l => l.1.id = v.1.id) (vectorCandidates pg s table)
    (lexicalCandidates ts s table)).filterMap (toFused quotient)

/-- `fused f join cliptown.clip_embeddings e on e.id = f.id`. -/
def joined (s : Scope Uuid Vec) (table : List (ClipEmbedding Uuid Vec Json)) :
    List (Fused Uuid × ClipEmbedding Uuid Vec Json) :=
  (fused pg ts quotient s table).flatMap (fun f =>
    (table.filter (fun e => e.id = f.id)).map (fun e => (f, e)))

/-- A returned row: the columns of `row`, and the computed ones. -/
structure SearchHit (Uuid Vec Json : Type) where
  row : ClipEmbedding Uuid Vec Json
  vectorRank : Option Nat
  lexicalRank : Option Nat
  rrfScore : ℚ
  cosineSimilarity : Option ℚ
  lexicalScore : Option ℚ

/-- The select list, on one joined row. -/
def toHit (s : Scope Uuid Vec) (p : Fused Uuid × ClipEmbedding Uuid Vec Json) :
    SearchHit Uuid Vec Json where
  row := p.2
  vectorRank := p.1.vectorRank
  lexicalRank := p.1.lexicalRank
  rrfScore := p.1.rrfScore
  cosineSimilarity := s.qv.map (fun qv => 1 - pg.cosineDistance p.2.embedding qv)
  lexicalScore := lexicalScore ts s p.2

/-- `order by f.rrf_score desc, cosine_similarity desc nulls last, e.id`. -/
def hitKey (h : SearchHit Uuid Vec Json) : ℚᵒᵈ ×ₗ (WithBot ℚ)ᵒᵈ ×ₗ Uuid :=
  toLex (OrderDual.toDual h.rrfScore, toLex (descNullsLast h.cosineSimilarity, h.row.id))

/-- `hybrid_search.sql`. -/
def hybridSearch (p : HybridSearchParams Uuid Vec) (table : List (ClipEmbedding Uuid Vec Json)) :
    List (SearchHit Uuid Vec Json) :=
  (canonical hitKey ((joined pg ts quotient p.scope table).map (toHit pg ts p.scope))).take
    p.scope.results

/-- The operands of the distance operators of the query: the stage-1 order over
the vector scope, and the exact cosine over every joined row. -/
def distanceOperands (p : HybridSearchParams Uuid Vec)
    (table : List (ClipEmbedding Uuid Vec Json)) :
    List (Option Vec × ClipEmbedding Uuid Vec Json) :=
  (vectorScope p.scope table).map (fun e => (p.queryEmbedding, e))
    ++ (joined pg ts quotient p.scope table).map (fun j => (p.queryEmbedding, j.2))

/-! ## §3. Which rows are candidates. -/

variable {pg ts quotient} {s : Scope Uuid Vec} {table : List (ClipEmbedding Uuid Vec Json)}

theorem mem_vectorScope {e : ClipEmbedding Uuid Vec Json} :
    e ∈ vectorScope s table ↔
      e ∈ table ∧ s.tenant = some e.accountId ∧ s.modelKey = some e.modelKey
        ∧ s.asksKind e.entityKind := by
  simp [vectorScope, and_assoc]

/-- The lexical branch looks at the tenant, the text and the kind, not at the model. -/
theorem mem_lexicalScope {e : ClipEmbedding Uuid Vec Json} :
    e ∈ lexicalScope ts s table ↔
      e ∈ table ∧ s.tenant = some e.accountId
        ∧ (∃ q, s.q = some q ∧ q ≠ ""
            ∧ ts.isMatch (e.searchDocument ts) (ts.websearchToTsquery q))
        ∧ s.asksKind e.entityKind := by
  unfold lexicalScope
  cases hq : s.q with
  | none => simp
  | some q => simp [and_assoc]

theorem mem_of_vectorCandidate {e : ClipEmbedding Uuid Vec Json}
    (h : e ∈ members (vectorCandidates pg s table)) : e ∈ vectorScope s table :=
  mem_of_mem_take h

/-- The ids keep the rows of the lexical order apart. -/
theorem nodup_lexicalKey (hpk : Unique ClipEmbedding.id table) :
    ((lexicalScope ts s table).map (lexicalKey ts s)).Nodup := by
  have hsub : (lexicalScope ts s table).Sublist table := by
    unfold lexicalScope
    split
    · exact List.nil_sublist table
    · exact List.filter_sublist
  have hids : ((lexicalScope ts s table).map ClipEmbedding.id).Nodup :=
    hpk.sublist (hsub.map ClipEmbedding.id)
  refine List.Nodup.of_map (fun key => (ofLex key).2) ?_
  rw [List.map_map]
  exact hids

/-- **The lexical candidates**: the matching rows of the tenant with fewer than
`$5` such rows ahead of them in the order of the rank and the id. -/
theorem mem_lexicalCandidates (hpk : Unique ClipEmbedding.id table)
    {e : ClipEmbedding Uuid Vec Json} :
    e ∈ members (lexicalCandidates ts s table) ↔
      e ∈ lexicalScope ts s table
        ∧ ahead (lexicalKey ts s) (lexicalScope ts s table) e < s.candidates := by
  unfold lexicalCandidates
  rw [members_take_ranked]
  exact mem_take_canonical (nodup_lexicalKey hpk)

theorem mem_of_lexicalCandidate {e : ClipEmbedding Uuid Vec Json}
    (h : e ∈ members (lexicalCandidates ts s table)) : e ∈ lexicalScope ts s table :=
  mem_of_mem_take h

/-! ## §4. The fused list. -/

/-- Both branches survive the outer join: an id is fused iff a branch found it. -/
theorem mem_fused_ids {id : Uuid} :
    (∃ f ∈ fused pg ts quotient s table, f.id = id) ↔
      (∃ e ∈ members (vectorCandidates pg s table), e.id = id)
        ∨ ∃ e ∈ members (lexicalCandidates ts s table), e.id = id := by
  simp only [fused, members, List.mem_filterMap, mem_fullOuterJoin, List.mem_map]
  constructor
  · intro hall
    obtain ⟨f, ⟨p, hp, hf⟩, hid⟩ := hall
    rcases hp with ⟨v, hv, ⟨l, _, _, rfl⟩ | ⟨_, rfl⟩⟩ | ⟨l, hl, _, rfl⟩
    · cases hf
      exact Or.inl ⟨v.1, ⟨v, hv, rfl⟩, hid⟩
    · cases hf
      exact Or.inl ⟨v.1, ⟨v, hv, rfl⟩, hid⟩
    · cases hf
      exact Or.inr ⟨l.1, ⟨l, hl, rfl⟩, hid⟩
  · intro hor
    rcases hor with ⟨_, ⟨v, hv, rfl⟩, hid⟩ | ⟨_, ⟨l, hl, rfl⟩, hid⟩
    · by_cases hmatch : ∃ l ∈ lexicalCandidates ts s table, l.1.id = v.1.id
      · obtain ⟨l, hl, hon⟩ := hmatch
        exact ⟨_, ⟨_, Or.inl ⟨v, hv, Or.inl ⟨l, hl, by simpa using hon, rfl⟩⟩, rfl⟩, hid⟩
      · refine ⟨_, ⟨_, Or.inl ⟨v, hv, Or.inr ⟨?_, rfl⟩⟩, rfl⟩, hid⟩
        intro l hl hon
        exact hmatch ⟨l, hl, by simpa using hon⟩
    · by_cases hmatch : ∃ v ∈ vectorCandidates pg s table, l.1.id = v.1.id
      · obtain ⟨v, hv, hon⟩ := hmatch
        refine ⟨_, ⟨_, Or.inl ⟨v, hv, Or.inl ⟨l, hl, by simpa using hon, rfl⟩⟩, rfl⟩, ?_⟩
        rw [← hid, hon]
      · refine ⟨_, ⟨_, Or.inr ⟨l, hl, ?_, rfl⟩, rfl⟩, hid⟩
        intro v hv hon
        exact hmatch ⟨v, hv, by simpa using hon⟩

/-- **The join back** finds the candidates themselves, and nothing else. -/
theorem mem_joined (hpk : Unique ClipEmbedding.id table) {e : ClipEmbedding Uuid Vec Json} :
    (∃ f, (f, e) ∈ joined pg ts quotient s table) ↔
      e ∈ members (vectorCandidates pg s table) ∨ e ∈ members (lexicalCandidates ts s table) := by
  have hjoin : (∃ f, (f, e) ∈ joined pg ts quotient s table) ↔
      e ∈ table ∧ ∃ f ∈ fused pg ts quotient s table, f.id = e.id := by
    simp only [joined, List.mem_flatMap, List.mem_map, List.mem_filter, Prod.mk.injEq]
    constructor
    · intro hall
      obtain ⟨f, f', hf', e', ⟨he', hid⟩, rfl, rfl⟩ := hall
      have hid : e'.id = f'.id := by simpa using hid
      exact ⟨he', f', hf', hid.symm⟩
    · intro hall
      obtain ⟨he, f, hf, hid⟩ := hall
      exact ⟨f, f, hf, e, ⟨he, by simpa using hid.symm⟩, rfl, rfl⟩
  have htable_v : ∀ e' ∈ members (vectorCandidates pg s table), e' ∈ table :=
    fun e' he' => (mem_vectorScope.mp (mem_of_vectorCandidate he')).1
  have htable_l : ∀ e' ∈ members (lexicalCandidates ts s table), e' ∈ table :=
    fun e' he' => (mem_lexicalScope.mp (mem_of_lexicalCandidate he')).1
  rw [hjoin, mem_fused_ids]
  constructor
  · intro hall
    obtain ⟨he, ⟨e', he', hid⟩ | ⟨e', he', hid⟩⟩ := hall
    · rw [← hpk.eq_of_key (htable_v e' he') he hid]
      exact Or.inl he'
    · rw [← hpk.eq_of_key (htable_l e' he') he hid]
      exact Or.inr he'
  · intro hor
    rcases hor with he | he
    · exact ⟨htable_v e he, Or.inl ⟨e, he, rfl⟩⟩
    · exact ⟨htable_l e he, Or.inr ⟨e, he, rfl⟩⟩

theorem mem_hybridSearch {p : HybridSearchParams Uuid Vec} {h : SearchHit Uuid Vec Json}
    (hh : h ∈ hybridSearch pg ts quotient p table) :
    ∃ f, (f, h.row) ∈ joined pg ts quotient p.scope table := by
  have hmem := List.mem_of_mem_take hh
  rw [mem_canonical, List.mem_map] at hmem
  obtain ⟨⟨f, e⟩, hj, rfl⟩ := hmem
  exact ⟨f, hj⟩

/-! ## §5. Scoping. -/

/-- A row is scoped to the call: the tenant of `$1` and the model of `$2`. -/
def Scoped (p : HybridSearchParams Uuid Vec) (e : ClipEmbedding Uuid Vec Json) : Prop :=
  p.tenant = some e.accountId ∧ p.modelKey = some e.modelKey

/-- Every row that is joined back is of the tenant. -/
theorem tenant_of_joined (hpk : Unique ClipEmbedding.id table) {p : HybridSearchParams Uuid Vec}
    {e : ClipEmbedding Uuid Vec Json} (h : ∃ f, (f, e) ∈ joined pg ts quotient p.scope table) :
    p.tenant = some e.accountId := by
  rcases (mem_joined hpk).mp h with h | h
  · exact (mem_vectorScope.mp (mem_of_vectorCandidate h)).2.1
  · exact (mem_lexicalScope.mp (mem_of_lexicalCandidate h)).2.1

/-- **Scoping.**  Every returned row is of the tenant and the model, and every
distance is taken to a row of the model, iff every matching row of the tenant
that is among the first `$5` in lexical order is of the model. -/
theorem hybridSearch_scoped_iff (pg : PgVector Vec) (ts : TextSearch Doc Query)
    (quotient : Nat → ℚ) (models : List EmbeddingModel)
    (table : List (ClipEmbedding Uuid Vec Json)) (hvalid : ClipEmbeddingsValid pg models table)
    (p : HybridSearchParams Uuid Vec) :
    ((∀ h ∈ hybridSearch pg ts quotient p table, Scoped p h.row)
        ∧ ∀ operands ∈ distanceOperands pg ts quotient p table,
            operands.1 = p.queryEmbedding ∧ p.modelKey = some operands.2.modelKey)
      ↔ ∀ e ∈ lexicalScope ts p.scope table,
          ahead (lexicalKey ts p.scope) (lexicalScope ts p.scope table) e < p.scope.candidates →
          p.modelKey = some e.modelKey := by
  have hpk := hvalid.primaryKey
  constructor
  · intro hall e he hahead
    obtain ⟨_, hoperands⟩ := hall
    have hjoined : ∃ f, (f, e) ∈ joined pg ts quotient p.scope table :=
      (mem_joined hpk).mpr (Or.inr ((mem_lexicalCandidates hpk).mpr ⟨he, hahead⟩))
    obtain ⟨f, hf⟩ := hjoined
    exact (hoperands (p.queryEmbedding, e)
      (List.mem_append_right _ (List.mem_map.mpr ⟨(f, e), hf, rfl⟩))).2
  · intro hlexical
    -- the vector branch filters on the model, so only the lexical one can bring another
    have hmodel : ∀ e, (∃ f, (f, e) ∈ joined pg ts quotient p.scope table) →
        p.modelKey = some e.modelKey := by
      intro e hjoined
      rcases (mem_joined hpk).mp hjoined with h | h
      · exact (mem_vectorScope.mp (mem_of_vectorCandidate h)).2.2.1
      · rw [mem_lexicalCandidates hpk] at h
        exact hlexical e h.1 h.2
    refine ⟨?_, ?_⟩
    · intro h hh
      exact ⟨tenant_of_joined hpk (mem_hybridSearch hh), hmodel h.row (mem_hybridSearch hh)⟩
    · intro operands hoperands
      rcases List.mem_append.mp hoperands with ho | ho
      · obtain ⟨e, he, rfl⟩ := List.mem_map.mp ho
        exact ⟨rfl, (mem_vectorScope.mp he).2.2.1⟩
      · obtain ⟨⟨f, e⟩, hj, rfl⟩ := List.mem_map.mp ho
        exact ⟨rfl, hmodel e ⟨f, hj⟩⟩

end Query

/-! ## §6. A call that mixes models. -/

/-- Two models of the registry. -/
def sampleModels : List EmbeddingModel :=
  [⟨"openai:text-embedding-3-large:1", "openai", "text-embedding-3-large", "1"⟩,
    ⟨"openai:text-embedding-3-small:1", "openai", "text-embedding-3-small", "1"⟩]

/-- A clip embedded by the large model. -/
def sampleClip : ClipEmbedding Nat SampleVec Unit where
  id := 1
  accountId := 7
  entityKind := "clip"
  entityId := 3
  modelKey := "openai:text-embedding-3-large:1"
  provider := "openai"
  modelName := "text-embedding-3-large"
  modelVersion := "1"
  nativeDims := 3072
  mrlPrefixValid := true
  embedding := .unit
  titleText := "invoice"
  summaryText := ""
  bodyText := ""
  contentSha256 := "aaaaaaaaaaaaaaaaaaaaaaaaaaaaaaaaaaaaaaaaaaaaaaaaaaaaaaaaaaaaaaaa"
  sourceUri := none
  metadata := ()

/-- A call with a query vector of a model, for the text of that clip. -/
def sampleCall (modelKey : String) : HybridSearchParams Nat SampleVec where
  tenant := some 7
  modelKey := some modelKey
  queryEmbedding := some .unit
  queryText := some "invoice"
  candidateCount := none
  resultCount := none
  entityKinds := none

theorem sampleTable_valid : ClipEmbeddingsValid samplePg sampleModels [sampleClip] where
  primaryKey := by decide
  onePerEntityPerModel := by decide
  model := by decide
  rows := by
    intro e he
    rw [List.mem_singleton] at he
    rw [he]
    exact ⟨by decide, by decide, by decide, by decide, by decide, by decide, by decide, by decide,
      by decide +kernel, by decide⟩

/-- Asked for the clip's own model, the call is scoped. -/
theorem hybridSearch_scoped_sample :
    (∀ h ∈ hybridSearch samplePg sampleTextSearch (fun n => 1 / n)
        (sampleCall "openai:text-embedding-3-large:1") [sampleClip],
        Scoped (sampleCall "openai:text-embedding-3-large:1") h.row)
      ∧ ∀ operands ∈ distanceOperands samplePg sampleTextSearch (fun n => 1 / n)
          (sampleCall "openai:text-embedding-3-large:1") [sampleClip],
          operands.1 = some .unit
            ∧ some "openai:text-embedding-3-large:1" = some operands.2.modelKey :=
  (hybridSearch_scoped_iff samplePg sampleTextSearch (fun n => 1 / n) sampleModels [sampleClip]
    sampleTable_valid (sampleCall "openai:text-embedding-3-large:1")).mpr (by decide)

/-- Asked for another model, the call returns the clip all the same, and takes
the distance between the two models' vectors. -/
theorem hybridSearch_mixes_models :
    ClipEmbeddingsValid samplePg sampleModels [sampleClip]
      ∧ (hybridSearch samplePg sampleTextSearch (fun n => 1 / n)
          (sampleCall "openai:text-embedding-3-small:1") [sampleClip]).map
          (fun h => h.row.modelKey) = ["openai:text-embedding-3-large:1"]
      ∧ (distanceOperands samplePg sampleTextSearch (fun n => 1 / n)
          (sampleCall "openai:text-embedding-3-small:1") [sampleClip]).map
          (fun operands => (operands.1, operands.2.modelKey))
          = [(some .unit, "openai:text-embedding-3-large:1")] :=
  ⟨sampleTable_valid, by decide +kernel, by decide +kernel⟩

end ClipTown.Embeddings
