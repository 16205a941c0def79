/-
  ClipTown.ModelSpace.ExactFusion — the fusion of `hybrid_search_v3_exact` in exact
  arithmetic.

  A row of the union keeps both its ranks, an absent one counting as the last; a term
  of the score falls with its rank and an absent one is zero, so a row that is nowhere
  worse and somewhere better comes first (`hybridSearchExact_fusion`).
-/
import ClipTown.ModelSpace.HybridSearchExact
import Mathlib.Tactic.Linarith
import Mathlib.Tactic.Positivity

namespace ClipTown.ModelSpace

open CanonicalOrder Embeddings RankFusion Relational

/-! ## §1. Terms of the score. -/

/-- `1.0 / n` without rounding. -/
def exactQuotient (n : Int) : ℚ := 1 / n

/-- Ranks in ascending order, an absent one last. -/
def absentLast (rank : Option Nat) : WithTop Nat := rank

theorem exactQuotient_pos {k : Int} (hk : 1 ≤ k) (r : Nat) : 0 < exactQuotient (k + r) := by
  have hpos : (0 : ℚ) < ((k + r : Int) : ℚ) := by exact_mod_cast (by omega : 0 < k + r)
  unfold exactQuotient
  positivity

theorem exactQuotient_lt {k : Int} (hk : 1 ≤ k) {r r' : Nat} (h : r < r') :
    exactQuotient (k + r') < exactQuotient (k + r) := by
  have hpos : (0 : ℚ) < ((k + r : Int) : ℚ) := by exact_mod_cast (by omega : 0 < k + r)
  have hlt : ((k + r : Int) : ℚ) < ((k + r' : Int) : ℚ) := by exact_mod_cast (by omega)
  exact one_div_lt_one_div_of_lt hpos hlt

/-- **A better rank has the larger term**, and an absent one has the least. -/
theorem fusionTerm_lt {k : Int} (hk : 1 ≤ k) {rank rank' : Option Nat}
    (h : absentLast rank < absentLast rank') :
    fusionTerm exactQuotient k rank' < fusionTerm exactQuotient k rank := by
  cases rank with
  | none => exact absurd h not_top_lt
  | some r =>
      cases rank' with
      | none => exact exactQuotient_pos hk r
      | some r' => exact exactQuotient_lt hk (WithTop.coe_lt_coe.mp h)

theorem fusionTerm_le {k : Int} (hk : 1 ≤ k) {rank rank' : Option Nat}
    (h : absentLast rank ≤ absentLast rank') :
    fusionTerm exactQuotient k rank' ≤ fusionTerm exactQuotient k rank := by
  rcases h.lt_or_eq with hlt | heq
  · exact (fusionTerm_lt hk hlt).le
  · have hrank : rank = rank' := heq
    rw [hrank]

/-! ## §2. The scored rows. -/

section Fusion

variable {Uuid Vec Doc Query : Type} [LinearOrder Uuid]

/-- Nowhere worse and somewhere better: the ranks of `a` against those of `b`. -/
structure Dominates (a b : ScoredHit Uuid) : Prop where
  semantic : absentLast a.semanticRank ≤ absentLast b.semanticRank
  lexical : absentLast a.lexicalRank ≤ absentLast b.lexicalRank
  better : absentLast a.semanticRank < absentLast b.semanticRank
    ∨ absentLast a.lexicalRank < absentLast b.lexicalRank

variable {pg : PgVector Vec} {ts : TextSearch Doc Query} {db : Database Uuid Vec}
  {call : SearchCall Uuid Vec} {s : Space} {sem lex : List (SemanticEmbedding Uuid Vec × Nat)}

/-- The join back finds each candidate id once at most. -/
theorem scoredRows_ids (hdb : Consistent db) :
    ((scoredRows db call sem lex).map SemanticEmbedding.embeddingId).Sublist
      (candidateIds sem lex) := by
  unfold scoredRows
  exact map_flatMap_sublist fun id _ => hdb.embeddingId.map_filter_sublist id _

theorem nodup_scoredRows_ids (hdb : Consistent db) :
    ((scoredRows db call sem lex).map SemanticEmbedding.embeddingId).Nodup :=
  (List.nodup_dedup _).sublist (scoredRows_ids hdb)

/-- The scored rows in the final order, before the limit. -/
def scoredHits (pg : PgVector Vec) (quotient : Int → ℚ) (db : Database Uuid Vec)
    (call : SearchCall Uuid Vec) (s : Space) (sem lex : List (SemanticEmbedding Uuid Vec × Nat)) :
    List (ScoredHit Uuid) :=
  canonical scoredKey ((scoredRows db call sem lex).map (scoredHit pg quotient call s sem lex))

theorem mem_scoredHits {quotient : Int → ℚ} {h : ScoredHit Uuid} :
    h ∈ scoredHits pg quotient db call s sem lex ↔
      ∃ e ∈ scoredRows db call sem lex, scoredHit pg quotient call s sem lex e = h := by
  unfold scoredHits
  rw [mem_canonical, List.mem_map]

theorem nodup_scoredHits_ids {quotient : Int → ℚ} (hdb : Consistent db) :
    ((scoredHits pg quotient db call s sem lex).map ScoredHit.embeddingId).Nodup := by
  have hperm := (canonical_perm scoredKey ((scoredRows db call sem lex).map
    (scoredHit pg quotient call s sem lex))).map ScoredHit.embeddingId
  unfold scoredHits
  rw [hperm.nodup_iff, List.map_map]
  exact nodup_scoredRows_ids hdb

theorem scoredHits_sorted {quotient : Int → ℚ} :
    (scoredHits pg quotient db call s sem lex).Pairwise fun a b => scoredKey a ≤ scoredKey b :=
  canonical_pairwise_le scoredKey _

/-- What a call returns over the space it selects. -/
theorem hybridSearchExact_eq_some {quotient : Int → ℚ} (hs : selectedSpace pg db call = some s)
    {hits : List (ScoredHit Uuid)} (h : hybridSearchExact pg ts quotient db call = some hits) :
    ∃ semanticLimit lexicalLimit,
      candidateLimit s.semanticCandidateLimit call.requestedLimit = some semanticLimit
        ∧ candidateLimit s.lexicalCandidateLimit call.requestedLimit = some lexicalLimit
        ∧ hits = (scoredHits pg quotient db call s (semanticCandidates pg db call s semanticLimit)
            (lexicalMatches ts db call s lexicalLimit)).take
              (resultLimit s.resultLimit call.requestedLimit) := by
  unfold hybridSearchExact at h
  rw [hs] at h
  simp only [Option.bind_eq_bind, Option.bind_eq_some_iff, Option.pure_def,
    Option.some.injEq] at h
  obtain ⟨semanticLimit, hsem, lexicalLimit, hlex, rfl⟩ := h
  exact ⟨semanticLimit, lexicalLimit, hsem, hlex, rfl⟩

/-- The score of a scored row is that of its ranks. -/
theorem fusedScore_eq {quotient : Int → ℚ} {h : ScoredHit Uuid}
    (hh : h ∈ scoredHits pg quotient db call s sem lex) :
    h.fusedScore = fusionTerm quotient s.fusionK h.semanticRank
      + fusionTerm quotient s.fusionK h.lexicalRank := by
  obtain ⟨e, -, rfl⟩ := mem_scoredHits.mp hh
  rfl

theorem rank_eq {quotient : Int → ℚ} {h : ScoredHit Uuid}
    (hh : h ∈ scoredHits pg quotient db call s sem lex) :
    h.semanticRank = rankOf sem h.embeddingId ∧ h.lexicalRank = rankOf lex h.embeddingId := by
  obtain ⟨e, -, rfl⟩ := mem_scoredHits.mp hh
  exact ⟨rfl, rfl⟩

/-! ## §3. Dominance. -/

/-- **A dominating row has the higher score.** -/
theorem scoredKey_lt_of_dominates (hk : 1 ≤ s.fusionK) {a b : ScoredHit Uuid}
    (ha : a ∈ scoredHits pg exactQuotient db call s sem lex)
    (hb : b ∈ scoredHits pg exactQuotient db call s sem lex) (h : Dominates a b) :
    scoredKey a < scoredKey b := by
  have hsemantic := fusionTerm_le hk h.semantic
  have hlexical := fusionTerm_le hk h.lexical
  have hscore : b.fusedScore < a.fusedScore := by
    rw [fusedScore_eq ha, fusedScore_eq hb]
    rcases h.better with hlt | hlt
    · have hstrict := fusionTerm_lt hk hlt
      linarith
    · have hstrict := fusionTerm_lt hk hlt
      linarith
  unfold scoredKey
  rw [Prod.Lex.toLex_lt_toLex]
  exact .inl (OrderDual.toDual_lt_toDual.mpr hscore)

/-- A rank in a candidate list is at least 1, and 1 is the rank of one row. -/
theorem rankOf_one {le : SemanticEmbedding Uuid Vec → SemanticEmbedding Uuid Vec → Bool}
    {l : List (SemanticEmbedding Uuid Vec)} {n : Nat} {id id' : Uuid}
    (hid : rankOf ((ranked le l).take n) id = some 1) (hne : id' ≠ id) :
    (1 : WithTop Nat) < absentLast (rankOf ((ranked le l).take n) id') := by
  obtain ⟨e, he, rfl⟩ := mem_of_rankAt SemanticEmbedding.embeddingId hid
  cases hrank : rankOf ((ranked le l).take n) id' with
  | none => exact WithTop.coe_lt_top 1
  | some r =>
      obtain ⟨e', he', rfl⟩ := mem_of_rankAt SemanticEmbedding.embeddingId hrank
      have hpos := (mem_take_ranked.mp he').1
      have hone : r ≠ 1 := by
        intro hr
        rw [hr] at he'
        exact hne (congrArg SemanticEmbedding.embeddingId (eq_of_rank he' he))
      exact WithTop.coe_lt_coe.mpr (by omega)

/-! ## §4. The fusion. -/

/-- The fusion of two candidate lists, of which the first rows are returned. -/
structure Fuses (sem lex : List (SemanticEmbedding Uuid Vec × Nat))
    (scored hits : List (ScoredHit Uuid)) : Prop where
  /-- The rows before the limit are the candidates of either list. -/
  union : ∀ id, id ∈ scored.map ScoredHit.embeddingId ↔
    id ∈ (members sem).map SemanticEmbedding.embeddingId
      ∨ id ∈ (members lex).map SemanticEmbedding.embeddingId
  ranks : ∀ h ∈ scored, h.semanticRank = rankOf sem h.embeddingId
    ∧ h.lexicalRank = rankOf lex h.embeddingId
  unique : (scored.map ScoredHit.embeddingId).Nodup
  dominance : ∀ a ∈ scored, ∀ b ∈ scored, Dominates a b →
    [a, b].Sublist scored ∧ (b ∈ hits → [a, b].Sublist hits)
  first : ∀ a ∈ scored, a.semanticRank = some 1 → a.lexicalRank = some 1 → hits.head? = some a

theorem scoredHits_union (hdb : Consistent db) {semanticLimit lexicalLimit : Nat} (id : Uuid) :
    id ∈ (scoredHits pg exactQuotient db call s (semanticCandidates pg db call s semanticLimit)
        (lexicalMatches ts db call s lexicalLimit)).map ScoredHit.embeddingId ↔
      id ∈ (members (semanticCandidates pg db call s semanticLimit)).map
          SemanticEmbedding.embeddingId
        ∨ id ∈ (members (lexicalMatches ts db call s lexicalLimit)).map
          SemanticEmbedding.embeddingId := by
  have hrows : ∀ e, e ∈ scoredRows db call (semanticCandidates pg db call s semanticLimit)
      (lexicalMatches ts db call s lexicalLimit) ↔ _ :=
    fun e => mem_scoredRows hdb (fun _ => candidate_of_tenant)
  constructor
  · intro h
    obtain ⟨hit, hhit, rfl⟩ := List.mem_map.mp h
    obtain ⟨e, he, rfl⟩ := mem_scoredHits.mp hhit
    exact ((hrows e).mp he).imp List.mem_map_of_mem List.mem_map_of_mem
  · intro h
    have hrow : ∃ e, (e ∈ members (semanticCandidates pg db call s semanticLimit)
        ∨ e ∈ members (lexicalMatches ts db call s lexicalLimit)) ∧ e.embeddingId = id := by
      rcases h with h | h
      · obtain ⟨e, he, rfl⟩ := List.mem_map.mp h
        exact ⟨e, .inl he, rfl⟩
      · obtain ⟨e, he, rfl⟩ := List.mem_map.mp h
        exact ⟨e, .inr he, rfl⟩
    obtain ⟨e, he, rfl⟩ := hrow
    exact List.mem_map.mpr ⟨_, mem_scoredHits.mpr ⟨e, (hrows e).mpr he, rfl⟩, rfl⟩

/-- A row that is first in both lists dominates every other one. -/
theorem dominates_of_first (hdb : Consistent db) {semanticLimit lexicalLimit : Nat}
    {a b : ScoredHit Uuid}
    (ha : a ∈ scoredHits pg exactQuotient db call s (semanticCandidates pg db call s semanticLimit)
      (lexicalMatches ts db call s lexicalLimit))
    (hb : b ∈ scoredHits pg exactQuotient db call s (semanticCandidates pg db call s semanticLimit)
      (lexicalMatches ts db call s lexicalLimit))
    (hsemantic : a.semanticRank = some 1) (hlexical : a.lexicalRank = some 1) (hne : b ≠ a) :
    Dominates a b := by
  have hid : b.embeddingId ≠ a.embeddingId := fun h =>
    hne (List.inj_on_of_nodup_map (nodup_scoredHits_ids hdb) hb ha h)
  have hsem := rankOf_one ((rank_eq ha).1 ▸ hsemantic) hid
  have hlex := rankOf_one ((rank_eq ha).2 ▸ hlexical) hid
  refine ⟨?_, ?_, .inl ?_⟩
  · rw [hsemantic, (rank_eq hb).1]
    exact hsem.le
  · rw [hlexical, (rank_eq hb).2]
    exact hlex.le
  · rw [hsemantic, (rank_eq hb).1]
    exact hsem

theorem one_le_resultLimit {limit : Int} (h : 1 ≤ limit) (requested : Option Int) :
    1 ≤ resultLimit limit requested := by
  unfold resultLimit
  omega

/-- **The fusion, in exact arithmetic.**  What a call returns are the first rows of the
union of its two candidate lists, each row once, a dominating row before the one it
dominates and the row that is first in both lists first of all. -/
theorem hybridSearchExact_fusion (pg : PgVector Vec) (ts : TextSearch Doc Query)
    (db : Database Uuid Vec) (hdb : Postgres pg db) (call : SearchCall Uuid Vec)
    (hits : List (ScoredHit Uuid))
    (hsearch : hybridSearchExact pg ts exactQuotient db call = some hits) :
    (hits.map ScoredHit.embeddingId).Nodup
      ∧ ∀ s, selectedSpace pg db call = some s → ∃ semanticLimit lexicalLimit scored,
          candidateLimit s.semanticCandidateLimit call.requestedLimit = some semanticLimit
            ∧ candidateLimit s.lexicalCandidateLimit call.requestedLimit = some lexicalLimit
            ∧ hits = scored.take (resultLimit s.resultLimit call.requestedLimit)
            ∧ Fuses (semanticCandidates pg db call s semanticLimit)
                (lexicalMatches ts db call s lexicalLimit) scored hits := by
  obtain ⟨hkeys, _, hspaces, _⟩ := hdb
  cases hs : selectedSpace pg db call with
  | none =>
      unfold hybridSearchExact at hsearch
      rw [hs] at hsearch
      cases hsearch
      exact ⟨List.nodup_nil, fun s h => nomatch h⟩
  | some s =>
      have hvalid := hspaces s ((selectedSpace_eq_some hkeys).mp hs).1
      obtain ⟨semanticLimit, lexicalLimit, hsem, hlex, rfl⟩ := hybridSearchExact_eq_some hs hsearch
      have hunique : ((scoredHits pg exactQuotient db call s
          (semanticCandidates pg db call s semanticLimit)
          (lexicalMatches ts db call s lexicalLimit)).map ScoredHit.embeddingId).Nodup :=
        nodup_scoredHits_ids hkeys
      refine ⟨hunique.sublist ((List.take_sublist _ _).map _), ?_⟩
      intro s' hs'
      cases hs'
      refine ⟨semanticLimit, lexicalLimit, _, hsem, hlex, rfl, scoredHits_union hkeys,
        fun h hh => rank_eq hh, hunique, ?_, ?_⟩
      · intro a ha b hb hdominates
        have hlt := scoredKey_lt_of_dominates hvalid.fusionK.1 ha hb hdominates
        exact ⟨pair_sublist_of_lt scoredKey scoredHits_sorted ha hb hlt,
          fun hmem => pair_sublist_take_of_lt scoredKey scoredHits_sorted ha hmem hlt⟩
      · intro a ha hsemantic hlexical
        have hfirst := head?_of_least scoredKey scoredHits_sorted ha fun b hb hne =>
          scoredKey_lt_of_dominates hvalid.fusionK.1 ha hb
            (dominates_of_first hkeys ha hb hsemantic hlexical hne)
        have hpos := one_le_resultLimit hvalid.resultLimit.1 call.requestedLimit
        rw [List.head?_take, if_neg (by omega)]
        exact hfirst

end Fusion

/-! ## §5. The space of the engine's own test. -/

/-- That space, where only one row comes from the vectors. -/
def narrowSpace : Space := { sampleSpace with semanticCandidateLimit := 1 }

/-- An embedding with the text and the vector of the other one. -/
def twinEmbedding : SemanticEmbedding Nat SampleVec :=
  { sampleEmbedding with embeddingId := 100, entityId := "twin" }

def twoEmbeddings : Database Nat SampleVec :=
  ⟨sampleProfiles "text-embedding-3-small" true, [narrowSpace], [twinEmbedding, sampleEmbedding]⟩

/-- The candidates of the search: one from the vectors, both from the texts. -/
theorem twoEmbeddings_candidates :
    semanticCandidates samplePg twoEmbeddings sampleSearch narrowSpace 1 = [(twinEmbedding, 1)]
      ∧ lexicalMatches sampleTextSearch twoEmbeddings sampleSearch narrowSpace 100
        = [(twinEmbedding, 1), (sampleEmbedding, 2)] := by
  have hscope : branchScope twoEmbeddings sampleSearch narrowSpace
      = [twinEmbedding, sampleEmbedding] := rfl
  constructor
  · unfold semanticCandidates ranked
    rw [hscope, List.mergeSort_of_pairwise (by decide +kernel)]
    rfl
  · unfold lexicalMatches ranked
    have hmatches : ([twinEmbedding, sampleEmbedding].filter fun e =>
        matchesText sampleTextSearch sampleSearch e) = [twinEmbedding, sampleEmbedding] := by
      rfl
    rw [hscope, hmatches, List.mergeSort_of_pairwise (by decide +kernel)]
    rfl

/-- Of two embeddings, one is found by its vector and its text, and the other by its text
only: it comes second. -/
theorem hybridSearchExact_fusion_sample :
    ∃ hits, hybridSearchExact samplePg sampleTextSearch exactQuotient twoEmbeddings sampleSearch
        = some hits
      ∧ hits.map (fun h => (h.embeddingId, h.semanticRank, h.lexicalRank))
          = [(100, some 1, some 1), (101, none, some 2)]
      ∧ (hits.map ScoredHit.embeddingId).Nodup
      ∧ ∃ scored, hits = scored.take 10
        ∧ Fuses (semanticCandidates samplePg twoEmbeddings sampleSearch narrowSpace 1)
            (lexicalMatches sampleTextSearch twoEmbeddings sampleSearch narrowSpace 100)
            scored hits := by
  obtain ⟨hsemantic, hlexical⟩ := twoEmbeddings_candidates
  have hspace : selectedSpace samplePg twoEmbeddings sampleSearch = some narrowSpace := by
    decide +kernel
  let hits := [twinEmbedding, sampleEmbedding].map (scoredHit samplePg exactQuotient sampleSearch
    narrowSpace [(twinEmbedding, 1)] [(twinEmbedding, 1), (sampleEmbedding, 2)])
  have hsearch : hybridSearchExact samplePg sampleTextSearch exactQuotient twoEmbeddings
      sampleSearch = some hits := by
    have hrows : scoredRows twoEmbeddings sampleSearch [(twinEmbedding, 1)]
        [(twinEmbedding, 1), (sampleEmbedding, 2)] = [twinEmbedding, sampleEmbedding] := rfl
    have hsorted : canonical scoredKey hits = hits :=
      List.mergeSort_of_pairwise (by decide +kernel)
    have hlimits : candidateLimit narrowSpace.semanticCandidateLimit sampleSearch.requestedLimit
          = some 1
        ∧ candidateLimit narrowSpace.lexicalCandidateLimit sampleSearch.requestedLimit
          = some 100 := ⟨rfl, rfl⟩
    unfold hybridSearchExact
    rw [hspace]
    simp only [hlimits, hsemantic, hlexical, hrows, Option.bind_eq_bind, Option.bind_some,
      Option.pure_def]
    show some ((canonical scoredKey hits).take 10) = some hits
    rw [hsorted]
    rfl
  obtain ⟨hunique, hfuses⟩ := hybridSearchExact_fusion samplePg sampleTextSearch twoEmbeddings
    (by decide +kernel) sampleSearch hits hsearch
  obtain ⟨semanticLimit, lexicalLimit, scored, hsem, hlex, htake, hscored⟩ :=
    hfuses narrowSpace hspace
  obtain rfl : 1 = semanticLimit := Option.some.inj hsem
  obtain rfl : 100 = lexicalLimit := Option.some.inj hlex
  exact ⟨hits, hsearch, by decide +kernel, hunique, scored, htake, hscored⟩

end ClipTown.ModelSpace
