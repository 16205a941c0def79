/-
  ClipTown.Embeddings.SearchHits — what `hybrid_search.sql` returns, row by row.

  Ids are unique, so the outer join and the join back do no more than put the two
  ranks of a row side by side: `joined_eq` lists the rows that are joined back, each
  with its ranks.  The final order is strict, as it ends with the id
  (`nodup_hitKey`).
-/
import ClipTown.Embeddings.HybridSearch

namespace ClipTown.Embeddings

open CanonicalOrder RankFusion Relational

section Hits

variable {Uuid Vec Json Doc Query : Type} [LinearOrder Uuid]
  (pg : PgVector Vec) (ts : TextSearch Doc Query) (quotient : Nat → ℚ)

/-! ## §1. The two ranks of a row. -/

/-- The rank of a row among the vector candidates. -/
def vectorRank (s : Scope Uuid Vec) (table : List (ClipEmbedding Uuid Vec Json))
    (e : ClipEmbedding Uuid Vec Json) : Option Nat :=
  rankAt ClipEmbedding.id (vectorCandidates pg s table) e.id

/-- The rank of a row among the lexical candidates. -/
def lexicalRank (s : Scope Uuid Vec) (table : List (ClipEmbedding Uuid Vec Json))
    (e : ClipEmbedding Uuid Vec Json) : Option Nat :=
  rankAt ClipEmbedding.id (lexicalCandidates ts s table) e.id

/-- A candidate row as `fused` has it. -/
def foundRow (s : Scope Uuid Vec) (table : List (ClipEmbedding Uuid Vec Json))
    (e : ClipEmbedding Uuid Vec Json) : Fused Uuid where
  id := e.id
  rrfScore := reciprocalRank quotient (vectorRank pg s table e)
    + reciprocalRank quotient (lexicalRank ts s table e)
  vectorRank := vectorRank pg s table e
  lexicalRank := lexicalRank ts s table e

/-- The rows that are joined back: the vector candidates, and the lexical ones that
are none of them. -/
def candidateRows (s : Scope Uuid Vec) (table : List (ClipEmbedding Uuid Vec Json)) :
    List (ClipEmbedding Uuid Vec Json) :=
  members (vectorCandidates pg s table)
    ++ members ((lexicalCandidates ts s table).filter fun l =>
        !(vectorCandidates pg s table).any fun v => l.1.id = v.1.id)

/-- The key of the vector branch: the stage-1 distance, nulls last. -/
def distanceKey (s : Scope Uuid Vec) (e : ClipEmbedding Uuid Vec Json) : WithTop ℚ :=
  nullsLast (candidateDistance pg s e)

/-- A candidate row as it is returned. -/
def hitOf (s : Scope Uuid Vec) (table : List (ClipEmbedding Uuid Vec Json))
    (e : ClipEmbedding Uuid Vec Json) : SearchHit Uuid Vec Json :=
  toHit pg ts s (foundRow pg ts quotient s table e, e)

/-- The rows before the final order and limit. -/
def allHits (s : Scope Uuid Vec) (table : List (ClipEmbedding Uuid Vec Json)) :
    List (SearchHit Uuid Vec Json) :=
  (candidateRows pg ts s table).map (hitOf pg ts quotient s table)

variable {pg ts quotient} {s : Scope Uuid Vec} {table : List (ClipEmbedding Uuid Vec Json)}

/-! ## §2. Ids. -/

theorem lexicalScope_sublist : (lexicalScope ts s table).Sublist table := by
  unfold lexicalScope
  split
  · exact List.nil_sublist table
  · exact List.filter_sublist

theorem nodup_ids_vectorCandidates (hpk : Unique ClipEmbedding.id table) :
    ((members (vectorCandidates pg s table)).map ClipEmbedding.id).Nodup :=
  nodup_members_take (hpk.sublist (List.filter_sublist.map ClipEmbedding.id)) _ _

theorem nodup_ids_lexicalCandidates (hpk : Unique ClipEmbedding.id table) :
    ((members (lexicalCandidates ts s table)).map ClipEmbedding.id).Nodup :=
  nodup_members_take (hpk.sublist (lexicalScope_sublist.map ClipEmbedding.id)) _ _

theorem table_of_vectorCandidate {e : ClipEmbedding Uuid Vec Json}
    (h : e ∈ members (vectorCandidates pg s table)) : e ∈ table :=
  (mem_vectorScope.mp (mem_of_vectorCandidate h)).1

theorem table_of_lexicalCandidate {e : ClipEmbedding Uuid Vec Json}
    (h : e ∈ members (lexicalCandidates ts s table)) : e ∈ table :=
  (mem_lexicalScope.mp (mem_of_lexicalCandidate h)).1

/-- **Rows that are all at one distance are numbered in scan order.** -/
theorem vectorCandidates_of_tied
    (h : ∀ a ∈ vectorScope s table, ∀ b ∈ vectorScope s table,
      distanceKey pg s a = distanceKey pg s b) :
    vectorCandidates pg s table = ((vectorScope s table).zipIdx 1).take s.candidates := by
  have hsort : (vectorScope s table).mergeSort (fun a b => distanceKey pg s a ≤ distanceKey pg s b)
      = vectorScope s table := canonical_of_tied (distanceKey pg s) h
  show (ranked (fun a b => distanceKey pg s a ≤ distanceKey pg s b)
    (vectorScope s table)).take _ = _
  unfold ranked
  rw [hsort]

/-- A row has a vector rank exactly when it is a vector candidate. -/
theorem vectorRank_eq_some (hpk : Unique ClipEmbedding.id table) {e : ClipEmbedding Uuid Vec Json}
    (he : e ∈ table) {n : Nat} :
    vectorRank pg s table e = some n ↔ (e, n) ∈ vectorCandidates pg s table := by
  constructor
  · intro h
    obtain ⟨e', he', hid⟩ := mem_of_rankAt ClipEmbedding.id h
    rw [← hpk.eq_of_key (table_of_vectorCandidate (List.mem_map_of_mem he')) he hid]
    exact he'
  · exact rankAt_of_mem ClipEmbedding.id (nodup_ids_vectorCandidates hpk)

/-- A row has a lexical rank exactly when it is a lexical candidate. -/
theorem lexicalRank_eq_some (hpk : Unique ClipEmbedding.id table)
    {e : ClipEmbedding Uuid Vec Json} (he : e ∈ table) {n : Nat} :
    lexicalRank ts s table e = some n ↔ (e, n) ∈ lexicalCandidates ts s table := by
  constructor
  · intro h
    obtain ⟨e', he', hid⟩ := mem_of_rankAt ClipEmbedding.id h
    rw [← hpk.eq_of_key (table_of_lexicalCandidate (List.mem_map_of_mem he')) he hid]
    exact he'
  · exact rankAt_of_mem ClipEmbedding.id (nodup_ids_lexicalCandidates hpk)

/-- The lexical candidates that are joined to no vector candidate have no vector rank. -/
theorem vectorRank_of_unmatched {l : ClipEmbedding Uuid Vec Json × Nat}
    (h : l ∈ (lexicalCandidates ts s table).filter fun l =>
      !(vectorCandidates pg s table).any fun v => l.1.id = v.1.id) :
    vectorRank pg s table l.1 = none := by
  apply (rankAt_eq_none ClipEmbedding.id).mpr
  intro e he hid
  obtain ⟨v, hv, rfl⟩ := List.mem_map.mp he
  have hany : (vectorCandidates pg s table).any (fun v => l.1.id = v.1.id) = true :=
    List.any_eq_true.mpr ⟨v, hv, by simpa using hid.symm⟩
  have hnot := (List.mem_filter.mp h).2
  rw [hany] at hnot
  cases hnot

theorem mem_candidateRows (hpk : Unique ClipEmbedding.id table) {e : ClipEmbedding Uuid Vec Json} :
    e ∈ candidateRows pg ts s table ↔
      e ∈ members (vectorCandidates pg s table) ∨ e ∈ members (lexicalCandidates ts s table) := by
  unfold candidateRows
  rw [List.mem_append]
  constructor
  · intro h
    refine h.imp_right fun hl => ?_
    obtain ⟨l, hmem, rfl⟩ := List.mem_map.mp hl
    exact List.mem_map_of_mem (List.mem_filter.mp hmem).1
  · intro h
    rcases h with hv | hl
    · exact .inl hv
    · by_cases hv : e ∈ members (vectorCandidates pg s table)
      · exact .inl hv
      · obtain ⟨l, hmem, rfl⟩ := List.mem_map.mp hl
        refine .inr (List.mem_map_of_mem (List.mem_filter.mpr ⟨hmem, ?_⟩))
        rw [Bool.not_eq_true', List.any_eq_false]
        intro v hv' hid
        have heq : l.1 = v.1 := hpk.eq_of_key
          (table_of_lexicalCandidate hl)
          (table_of_vectorCandidate (List.mem_map_of_mem hv')) (by simpa using hid)
        exact hv (heq ▸ List.mem_map_of_mem hv')

theorem table_of_candidateRow (hpk : Unique ClipEmbedding.id table)
    {e : ClipEmbedding Uuid Vec Json} (h : e ∈ candidateRows pg ts s table) : e ∈ table := by
  rcases (mem_candidateRows hpk).mp h with h | h
  · exact table_of_vectorCandidate h
  · exact table_of_lexicalCandidate h

theorem nodup_ids_candidateRows (hpk : Unique ClipEmbedding.id table) :
    ((candidateRows pg ts s table).map ClipEmbedding.id).Nodup := by
  unfold candidateRows
  rw [List.map_append, List.nodup_append]
  refine ⟨nodup_ids_vectorCandidates hpk, ?_, ?_⟩
  · have hlexical : ((members (lexicalCandidates ts s table)).map ClipEmbedding.id).Nodup :=
      nodup_ids_lexicalCandidates hpk
    exact hlexical.sublist ((List.filter_sublist.map Prod.fst).map ClipEmbedding.id)
  · intro id hid id' hid' heq
    obtain ⟨e, he, rfl⟩ := List.mem_map.mp hid
    obtain ⟨e', he', rfl⟩ := List.mem_map.mp hid'
    obtain ⟨l, hl, rfl⟩ := List.mem_map.mp he'
    exact (rankAt_eq_none ClipEmbedding.id).mp (vectorRank_of_unmatched hl) e he heq

/-! ## §3. The rows that are joined back. -/

/-- The CTE `fused` has the two ranks of each candidate row. -/
theorem fused_eq (hpk : Unique ClipEmbedding.id table) :
    fused pg ts quotient s table
      = (candidateRows pg ts s table).map (foundRow pg ts quotient s table) := by
  have hids : Unique (fun l : ClipEmbedding Uuid Vec Json × Nat => l.1.id)
      (lexicalCandidates ts s table) := by
    have hnodup : ((members (lexicalCandidates ts s table)).map ClipEmbedding.id).Nodup :=
      nodup_ids_lexicalCandidates hpk
    unfold members at hnodup
    rwa [List.map_map] at hnodup
  unfold fused candidateRows members
  rw [fullOuterJoin_of_unique (fun v : ClipEmbedding Uuid Vec Json × Nat => v.1.id) _ hids,
    List.filterMap_append, List.filterMap_map, List.filterMap_map, List.map_append, List.map_map,
    List.map_map]
  congr 1
  · rw [← List.filterMap_eq_map]
    apply List.filterMap_congr
    intro v hv
    have hrank : vectorRank pg s table v.1 = some v.2 :=
      rankAt_of_mem ClipEmbedding.id (nodup_ids_vectorCandidates hpk) hv
    simp only [Function.comp, toFused, foundRow, hrank, lexicalRank, rankAt]
    rfl
  · rw [← List.filterMap_eq_map]
    apply List.filterMap_congr
    intro l hl
    have hnone := vectorRank_of_unmatched hl
    have hrank : lexicalRank ts s table l.1 = some l.2 :=
      rankAt_of_mem ClipEmbedding.id (nodup_ids_lexicalCandidates hpk) (List.mem_filter.mp hl).1
    simp only [Function.comp, toFused, foundRow, hrank, hnone]
    rfl

/-- **The join back** puts each candidate row to its ranks. -/
theorem joined_eq (hpk : Unique ClipEmbedding.id table) :
    joined pg ts quotient s table
      = (candidateRows pg ts s table).map fun e => (foundRow pg ts quotient s table e, e) := by
  unfold joined
  rw [fused_eq hpk, List.flatMap_map, List.map_eq_flatMap]
  apply List.flatMap_congr
  intro e he
  show (table.filter fun e' => e'.id = e.id).map _ = _
  rw [hpk.filter_eq_singleton (table_of_candidateRow hpk he)]
  rfl

theorem hybridSearch_eq (hpk : Unique ClipEmbedding.id table) (p : HybridSearchParams Uuid Vec) :
    hybridSearch pg ts quotient p table
      = (canonical hitKey (allHits pg ts quotient p.scope table)).take p.scope.results := by
  unfold hybridSearch
  rw [joined_eq hpk, List.map_map]
  rfl

/-- **The final order is strict**: it ends with the id. -/
theorem nodup_hitKey (hpk : Unique ClipEmbedding.id table) :
    ((allHits pg ts quotient s table).map hitKey).Nodup := by
  refine List.Nodup.of_map (fun key => (ofLex (ofLex key).2).2) ?_
  unfold allHits
  rw [List.map_map, List.map_map]
  exact nodup_ids_candidateRows hpk

/-- What is returned: the rows with fewer than `$6` ahead of them. -/
theorem mem_hybridSearch_iff (hpk : Unique ClipEmbedding.id table)
    {p : HybridSearchParams Uuid Vec} {h : SearchHit Uuid Vec Json} :
    h ∈ hybridSearch pg ts quotient p table ↔
      h ∈ allHits pg ts quotient p.scope table
        ∧ ahead hitKey (allHits pg ts quotient p.scope table) h < p.scope.results := by
  rw [hybridSearch_eq hpk]
  exact mem_take_canonical (nodup_hitKey hpk)

/-- The returned rows stand in the strict order of the final sort. -/
theorem hybridSearch_pairwise (hpk : Unique ClipEmbedding.id table)
    (p : HybridSearchParams Uuid Vec) :
    (hybridSearch pg ts quotient p table).Pairwise fun h h' => hitKey h < hitKey h' := by
  rw [hybridSearch_eq hpk]
  exact (canonical_strict hitKey (nodup_hitKey hpk)).sublist (List.take_sublist _ _)

/-- What is returned was a candidate. -/
theorem exists_row_of_hit (hpk : Unique ClipEmbedding.id table) {p : HybridSearchParams Uuid Vec}
    {h : SearchHit Uuid Vec Json} (hh : h ∈ hybridSearch pg ts quotient p table) :
    ∃ e ∈ candidateRows pg ts p.scope table, hitOf pg ts quotient p.scope table e = h :=
  List.mem_map.mp ((mem_hybridSearch_iff hpk).mp hh).1

/-- A returned row comes before every row that is not. -/
theorem hitKey_lt_of_unreturned (hpk : Unique ClipEmbedding.id table)
    {p : HybridSearchParams Uuid Vec} {h h' : SearchHit Uuid Vec Json}
    (hh : h ∈ hybridSearch pg ts quotient p table)
    (hall : h' ∈ allHits pg ts quotient p.scope table)
    (hnot : h' ∉ hybridSearch pg ts quotient p table) : hitKey h < hitKey h' := by
  have hreach := ((mem_hybridSearch_iff hpk).mp hh).2
  by_contra hge
  have hmono := ahead_mono (allHits pg ts quotient p.scope table) (not_lt.mp hge)
  exact hnot ((mem_hybridSearch_iff hpk).mpr ⟨hall, by omega⟩)

/-- Where a row is not returned, the limit is used up. -/
theorem length_of_unreturned (hpk : Unique ClipEmbedding.id table)
    {p : HybridSearchParams Uuid Vec} {h : SearchHit Uuid Vec Json}
    (hall : h ∈ allHits pg ts quotient p.scope table)
    (hnot : h ∉ hybridSearch pg ts quotient p table) :
    (hybridSearch pg ts quotient p table).length = p.scope.results := by
  have hcut : p.scope.results ≤ ahead hitKey (allHits pg ts quotient p.scope table) h := by
    by_contra hlt
    exact hnot ((mem_hybridSearch_iff hpk).mpr ⟨hall, by omega⟩)
  have hlt : ahead hitKey (allHits pg ts quotient p.scope table) h
      < (allHits pg ts quotient p.scope table).length := ahead_lt_length hall
  rw [hybridSearch_eq hpk, List.length_take, (canonical_perm hitKey _).length_eq]
  omega

end Hits

end ClipTown.Embeddings
