/-
  ClipTown.Embeddings.SearchArrangement — `hybrid_search.sql` over one set of rows in
  different physical orders.

  The lexical branch and the final order end with the id.  The vector branch orders
  by the stage-1 distance alone, so rows at one distance are numbered as they are
  scanned.

    • `hybridSearch_determined_iff` — the result depends on the set of rows alone, iff
      no two rows of the vector branch within its limit are at one distance,
    • `hybridSearch_two_results` — two rows, and a result for each order of them.
-/
import ClipTown.Embeddings.SearchHits

namespace ClipTown.Embeddings

open CanonicalOrder RankFusion Relational

section Arrangement

variable {Uuid Vec Json Doc Query : Type} [LinearOrder Uuid]
  (pg : PgVector Vec) (ts : TextSearch Doc Query) (quotient : Nat → ℚ)

/-! ## §1. What is asked of the result. -/

/-- Whatever the physical order of the rows, the call returns the same list. -/
def Determined (p : HybridSearchParams Uuid Vec) (table : List (ClipEmbedding Uuid Vec Json)) :
    Prop :=
  ∀ table', table.Perm table' →
    hybridSearch pg ts quotient p table' = hybridSearch pg ts quotient p table

/-- No two rows that the vector branch ranks are at one distance, unless the candidate
limit is used up by nearer ones. -/
def NoTiedDistances (s : Scope Uuid Vec) (table : List (ClipEmbedding Uuid Vec Json)) : Prop :=
  NoTies (distanceKey pg s) s.candidates (vectorScope s table)

variable {pg ts quotient} {s : Scope Uuid Vec} {table table' : List (ClipEmbedding Uuid Vec Json)}

/-! ## §2. Without ties. -/

theorem vectorCandidates_eq_of_perm (hperm : table.Perm table')
    (hties : NoTiedDistances pg s table) :
    vectorCandidates pg s table' = vectorCandidates pg s table := by
  have hscope : (vectorScope s table).Perm (vectorScope s table') := hperm.filter _
  have hsorted : (canonical (distanceKey pg s) (vectorScope s table)).Perm
      (canonical (distanceKey pg s) (vectorScope s table')) :=
    ((canonical_perm _ _).trans hscope).trans (canonical_perm _ _).symm
  have htake := take_sorted_eq_of_perm hsorted (canonical_pairwise_le _ _)
    (canonical_pairwise_le _ _) (hties.perm (canonical_perm _ _).symm)
  show (ranked (fun a b => distanceKey pg s a ≤ distanceKey pg s b) (vectorScope s table')).take _
    = (ranked (fun a b => distanceKey pg s a ≤ distanceKey pg s b) (vectorScope s table)).take _
  rw [take_ranked, take_ranked]
  exact congrArg (fun l => l.zipIdx 1) htake.symm

theorem lexicalScope_perm (hperm : table.Perm table') :
    (lexicalScope ts s table).Perm (lexicalScope ts s table') := by
  unfold lexicalScope
  split
  · exact List.Perm.refl _
  · exact hperm.filter _

theorem lexicalCandidates_eq_of_perm (hpk : Unique ClipEmbedding.id table)
    (hperm : table.Perm table') :
    lexicalCandidates ts s table' = lexicalCandidates ts s table := by
  have hscope : (lexicalScope ts s table).Perm (lexicalScope ts s table') :=
    lexicalScope_perm hperm
  have hsorted := canonical_eq_of_perm (lexicalKey ts s) (nodup_lexicalKey hpk) hscope
  unfold lexicalCandidates ranked
  exact congrArg (fun l => (l.zipIdx 1).take s.candidates) hsorted.symm

/-- **Without ties the result is determined.** -/
theorem determined_of_noTies (hpk : Unique ClipEmbedding.id table)
    {p : HybridSearchParams Uuid Vec} (hties : NoTiedDistances pg p.scope table) :
    Determined pg ts quotient p table := by
  intro table' hperm
  have hpk' : Unique ClipEmbedding.id table' := ((hperm.map ClipEmbedding.id).nodup_iff).mp hpk
  have hvector := vectorCandidates_eq_of_perm hperm hties
  have hlexical : lexicalCandidates ts p.scope table' = lexicalCandidates ts p.scope table :=
    lexicalCandidates_eq_of_perm hpk hperm
  rw [hybridSearch_eq hpk, hybridSearch_eq hpk']
  have hall : allHits pg ts quotient p.scope table' = allHits pg ts quotient p.scope table := by
    unfold allHits candidateRows hitOf foundRow vectorRank lexicalRank
    rw [hvector, hlexical]
  rw [hall]

/-! ## §3. With ties. -/

/-- A tied row within the limit that is scanned first has the first rank of its
distance. -/
theorem exists_front {e : ClipEmbedding Uuid Vec Json} (he : e ∈ vectorScope s table)
    (hreach : ahead (distanceKey pg s) (vectorScope s table) e < s.candidates) :
    ∃ table', table.Perm table'
      ∧ (e, ahead (distanceKey pg s) (vectorScope s table) e + 1)
          ∈ vectorCandidates pg s table' := by
  have hfilter := he
  unfold vectorScope at hfilter
  obtain ⟨hmem, hscope⟩ := List.mem_filter.mp hfilter
  obtain ⟨before, after, hsplit⟩ := List.append_of_mem hmem
  have hperm : table.Perm (e :: (before ++ after)) := by
    rw [hsplit]
    exact List.perm_middle
  have hfront : vectorScope s (e :: (before ++ after)) = e :: vectorScope s (before ++ after) := by
    unfold vectorScope
    exact List.filter_cons_of_pos hscope
  have hahead : ahead (distanceKey pg s) (vectorScope s (before ++ after)) e
      = ahead (distanceKey pg s) (vectorScope s table) e := by
    have hperm' : (vectorScope s table).Perm (e :: vectorScope s (before ++ after)) := by
      rw [← hfront]
      exact hperm.filter _
    unfold ahead
    rw [(hperm'.filter _).length_eq, List.filter_cons_of_neg (by simp)]
  refine ⟨e :: (before ++ after), hperm, ?_⟩
  show _ ∈ (ranked (fun a b => distanceKey pg s a ≤ distanceKey pg s b)
    (vectorScope s (e :: (before ++ after)))).take s.candidates
  rw [hfront, ← hahead]
  exact ranked_front (by rw [hahead]; exact hreach)

theorem length_allHits_le (hpk : Unique ClipEmbedding.id table) :
    (allHits pg ts quotient s table).length ≤ table.length := by
  unfold allHits
  rw [List.length_map]
  apply List.Subperm.length_le
  apply List.subperm_of_subset (nodup_ids_candidateRows hpk).of_map
  intro e he
  exact table_of_candidateRow hpk he

/-- **Where no row is cut off at the end, a determined result leaves no ties.**  Each of
two tied rows can be scanned first, and they cannot both have that rank. -/
theorem noTies_of_determined (hpk : Unique ClipEmbedding.id table)
    {p : HybridSearchParams Uuid Vec} (hwide : table.length ≤ p.scope.results)
    (hdetermined : Determined pg ts quotient p table) : NoTiedDistances pg p.scope table := by
  intro a ha b hb hne hkey
  by_contra hreach
  rw [not_le] at hreach
  have hahead : ahead (distanceKey pg p.scope) (vectorScope p.scope table) b
      = ahead (distanceKey pg p.scope) (vectorScope p.scope table) a := by
    unfold ahead
    rw [hkey]
  obtain ⟨tableA, hpermA, hrankA⟩ := exists_front ha hreach
  obtain ⟨tableB, hpermB, hrankB⟩ := exists_front hb (by rw [hahead]; exact hreach)
  have hpkA : Unique ClipEmbedding.id tableA := ((hpermA.map ClipEmbedding.id).nodup_iff).mp hpk
  have hpkB : Unique ClipEmbedding.id tableB := ((hpermB.map ClipEmbedding.id).nodup_iff).mp hpk
  have hrowA : a ∈ members (vectorCandidates pg p.scope tableA) := List.mem_map_of_mem hrankA
  have hhit : hitOf pg ts quotient p.scope tableA a ∈ hybridSearch pg ts quotient p tableA := by
    have hall : hitOf pg ts quotient p.scope tableA a ∈ allHits pg ts quotient p.scope tableA :=
      List.mem_map_of_mem ((mem_candidateRows hpkA).mpr (.inl hrowA))
    have hlt : ahead hitKey (allHits pg ts quotient p.scope tableA)
        (hitOf pg ts quotient p.scope tableA a)
          < (allHits pg ts quotient p.scope tableA).length := ahead_lt_length hall
    have hle : (allHits pg ts quotient p.scope tableA).length ≤ tableA.length :=
      length_allHits_le hpkA
    have hlength := hpermA.length_eq
    exact (mem_hybridSearch_iff hpkA).mpr ⟨hall, by omega⟩
  rw [hdetermined tableA hpermA, ← hdetermined tableB hpermB] at hhit
  obtain ⟨e, he, heq⟩ := exists_row_of_hit hpkB hhit
  have hrow : e = a := congrArg SearchHit.row heq
  subst hrow
  have hrank : vectorRank pg p.scope tableB e = vectorRank pg p.scope tableA e :=
    congrArg SearchHit.vectorRank heq
  rw [(vectorRank_eq_some hpkA (table_of_vectorCandidate hrowA)).mpr hrankA,
    vectorRank_eq_some hpkB (table_of_candidateRow hpkB he)] at hrank
  rw [hahead] at hrankB
  exact hne (eq_of_rank hrank hrankB)

/-! ## §4. Which results are determined. -/

/-- **Physical order.**  For one state and one call up to its result count, the result
is that of the set of rows, whatever the result count, iff no two rows that the vector
branch numbers within its limit are at one distance; a single call that returns all it
found is determined exactly then. -/
theorem hybridSearch_determined_iff (pg : PgVector Vec) (ts : TextSearch Doc Query)
    (quotient : Nat → ℚ) (models : List EmbeddingModel)
    (table : List (ClipEmbedding Uuid Vec Json)) (hvalid : ClipEmbeddingsValid pg models table)
    (p : HybridSearchParams Uuid Vec) :
    ((∀ results, Determined pg ts quotient { p with resultCount := results } table)
        ↔ NoTiedDistances pg p.scope table)
      ∧ (table.length ≤ p.scope.results →
          (Determined pg ts quotient p table ↔ NoTiedDistances pg p.scope table)) := by
  have hpk := hvalid.primaryKey
  have henough : ∀ p : HybridSearchParams Uuid Vec, NoTiedDistances pg p.scope table →
      Determined pg ts quotient p table := fun p hties => determined_of_noTies hpk hties
  constructor
  · constructor
    · intro hdetermined
      have hwide : table.length
          ≤ (HybridSearchParams.scope { p with resultCount := some table.length }).results := by
        show table.length ≤ (max ((some (table.length : Int)).getD 20) 1).toNat
        rw [Option.getD_some]
        omega
      exact noTies_of_determined (p := { p with resultCount := some table.length }) hpk hwide
        (hdetermined _)
    · intro hties results
      exact henough { p with resultCount := results } hties
  · intro hwide
    exact ⟨noTies_of_determined hpk hwide, henough p⟩

end Arrangement

/-! ## §5. Two rows at one distance. -/

/-- A second clip of the tenant and the model. -/
def otherClip : ClipEmbedding Nat SampleVec Unit :=
  { sampleClip with id := 2, entityId := 4, titleText := "receipt" }

theorem twoClips_valid : ClipEmbeddingsValid samplePg sampleModels [sampleClip, otherClip] where
  primaryKey := by decide
  onePerEntityPerModel := by decide
  model := by decide
  rows := by
    intro e he
    rcases List.mem_cons.mp he with rfl | he
    · exact sampleTable_valid.rows sampleClip List.mem_cons_self
    · rw [List.mem_singleton] at he
      rw [he]
      exact ⟨by decide, by decide, by decide, by decide, by decide, by decide, by decide,
        by decide, by decide +kernel, by decide⟩

/-- Two unit vectors at a right angle, and the zero vector. -/
inductive PlaneVec
  | east
  | north
  | zero
  deriving DecidableEq

/-- pgvector on these vectors. -/
def planePg : PgVector PlaneVec where
  vectorDims _ := 4100
  l2Norm v := if v = .zero then 0 else 1
  subvector v start _ := if start = 1 then v else .zero
  cosineDistance v w := if v = w then 0 else 1
  halfvecDistance v w := if v = w then 0 else 1
  hammingDistance v w := if v = w then 0 else 1

/-- A clip embedded in a direction. -/
def planeClip (id : Nat) (embedding : PlaneVec) : ClipEmbedding Nat PlaneVec Unit where
  id := id
  accountId := 7
  entityKind := "clip"
  entityId := id
  modelKey := "openai:text-embedding-3-large:1"
  provider := "openai"
  modelName := "text-embedding-3-large"
  modelVersion := "1"
  nativeDims := 3072
  mrlPrefixValid := true
  embedding := embedding
  titleText := "invoice"
  summaryText := ""
  bodyText := ""
  contentSha256 := "aaaaaaaaaaaaaaaaaaaaaaaaaaaaaaaaaaaaaaaaaaaaaaaaaaaaaaaaaaaaaaaa"
  sourceUri := none
  metadata := ()

/-- A call for what lies in the east. -/
def planeCall : HybridSearchParams Nat PlaneVec where
  tenant := some 7
  modelKey := some "openai:text-embedding-3-large:1"
  queryEmbedding := some .east
  queryText := some "invoice"
  candidateCount := none
  resultCount := none
  entityKinds := none

def planeTable : List (ClipEmbedding Nat PlaneVec Unit) := [planeClip 1 .north, planeClip 2 .east]

theorem planeTable_valid : ClipEmbeddingsValid planePg sampleModels planeTable where
  primaryKey := by decide
  onePerEntityPerModel := by decide
  model := by decide
  rows := by
    intro e he
    rcases List.mem_cons.mp he with rfl | he
    · exact ⟨by decide, by decide, by decide, by decide, by decide, by decide, by decide,
        by decide, by decide +kernel, by decide⟩
    · rw [List.mem_singleton.mp he]
      exact ⟨by decide, by decide, by decide, by decide, by decide, by decide, by decide,
        by decide, by decide +kernel, by decide⟩

/-- Over two rows at different distances the result is determined, in either order and
with any result count. -/
theorem hybridSearch_determined_sample :
    Determined planePg sampleTextSearch (fun n => 1 / n) planeCall planeTable
      ∧ ∀ results, Determined planePg sampleTextSearch (fun n => 1 / n)
          { planeCall with resultCount := results } planeTable := by
  have hties : NoTiedDistances planePg planeCall.scope planeTable := by
    have hkeys : (planeTable.map (distanceKey planePg planeCall.scope)).Nodup := by
      decide +kernel
    intro a ha b hb hne hkey
    exact absurd (List.inj_on_of_nodup_map hkeys (mem_vectorScope.mp ha).1
      (mem_vectorScope.mp hb).1 hkey) hne
  obtain ⟨hevery, hone⟩ := hybridSearch_determined_iff planePg sampleTextSearch (fun n => 1 / n)
    sampleModels planeTable planeTable_valid planeCall
  exact ⟨(hone (by decide)).mpr hties, hevery.mpr hties⟩

/-- **Two clips at one distance have their vector ranks from the physical order.** -/
theorem hybridSearch_two_results :
    ClipEmbeddingsValid samplePg sampleModels [sampleClip, otherClip]
      ∧ (vectorCandidates samplePg (sampleCall "openai:text-embedding-3-large:1").scope
          [sampleClip, otherClip]).map (fun v => (v.1.id, v.2)) = [(1, 1), (2, 2)]
      ∧ (vectorCandidates samplePg (sampleCall "openai:text-embedding-3-large:1").scope
          [otherClip, sampleClip]).map (fun v => (v.1.id, v.2)) = [(2, 1), (1, 2)]
      ∧ ¬ Determined samplePg sampleTextSearch (fun n => 1 / n)
          (sampleCall "openai:text-embedding-3-large:1") [sampleClip, otherClip] := by
  have hkey : ∀ e : ClipEmbedding Nat SampleVec Unit,
      distanceKey samplePg (sampleCall "openai:text-embedding-3-large:1").scope e = (0 : ℚ) := by
    intro e
    show nullsLast (some (if e.mrlPrefixValid then 0 else ((0 : Nat) : ℚ))) = _
    rw [Nat.cast_zero, ite_self]
    rfl
  refine ⟨twoClips_valid, ?_, ?_, ?_⟩
  · rw [vectorCandidates_of_tied fun a _ b _ => (hkey a).trans (hkey b).symm]
    decide
  · rw [vectorCandidates_of_tied fun a _ b _ => (hkey a).trans (hkey b).symm]
    decide
  · intro hdetermined
    have hties := noTies_of_determined twoClips_valid.primaryKey (by decide) hdetermined
    have hscope : vectorScope (sampleCall "openai:text-embedding-3-large:1").scope
        [sampleClip, otherClip] = [sampleClip, otherClip] := rfl
    have hne : sampleClip ≠ otherClip := fun h => absurd (congrArg ClipEmbedding.id h) (by decide)
    have hreach := hties sampleClip (by rw [hscope]; exact List.mem_cons_self) otherClip
      (by rw [hscope]; exact List.mem_cons_of_mem _ List.mem_cons_self) hne
      ((hkey sampleClip).trans (hkey otherClip).symm)
    revert hreach
    decide

end ClipTown.Embeddings
