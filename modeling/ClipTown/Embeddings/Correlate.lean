/-
  ClipTown.Embeddings.Correlate — correlation over `cliptown.clip_embeddings`
  (`db/queries/correlate_entities.sql`).

  The candidates are the 400 rows of the source row's tenant and model that are nearest
  to it.  The source row itself is left out of them; rows of its kind are not, unless
  `$3` leaves the kind out.

    • `correlateEntities_eq` — the result, in terms of the rows: the most similar ones of
      `close`, the rows with fewer than 400 before them that have the asked similarity,
    • `correlateEntities_iff` — other kinds only, and all that the limits leave room for,
      iff rows of the source's kind neither get into the result nor keep others out,
    • `correlateEntities_own_kind` — a clip that is correlated with a clip.
-/
import ClipTown.Embeddings.SearchArrangement

namespace ClipTown.Embeddings

open CanonicalOrder RankFusion Relational

/-! ## §1. Parameters. -/

/-- The bind parameters `$1` to `$5`, each of which may be null. -/
structure CorrelateParams (Uuid : Type) where
  tenant : Option Uuid
  sourceId : Option Uuid
  targetKinds : Option (List (Option String))
  minimumSimilarity : Option ℚ
  resultCount : Option Int

/-- `coalesce($4, 0.7)`. -/
def CorrelateParams.threshold {Uuid : Type} (p : CorrelateParams Uuid) : ℚ :=
  p.minimumSimilarity.getD (7 / 10)

/-- `greatest(coalesce($5, 20), 1)`. -/
def CorrelateParams.results {Uuid : Type} (p : CorrelateParams Uuid) : Nat :=
  countOrDefault 20 p.resultCount

/-- `$3 is null or cardinality($3) = 0 or t.entity_kind = any ($3)`. -/
def CorrelateParams.asksKind {Uuid : Type} (p : CorrelateParams Uuid) (kind : String) : Bool :=
  match p.targetKinds with
  | none => true
  | some [] => true
  | some kinds => kinds.contains (some kind)

/-- A row of the result. -/
structure Correlation (Uuid Json : Type) where
  id : Uuid
  entityKind : String
  entityId : Uuid
  titleText : String
  summaryText : String
  metadata : Json
  cosineSimilarity : ℚ

/-! ## §2. The query. -/

section Query

variable {Uuid Vec Json : Type} [LinearOrder Uuid] (pg : PgVector Vec)

/-- The CTE `src`. -/
def CorrelateParams.src (p : CorrelateParams Uuid) (table : List (ClipEmbedding Uuid Vec Json)) :
    List (ClipEmbedding Uuid Vec Json) :=
  table.filter (fun e => p.sourceId = some e.id && p.tenant = some e.accountId)

/-- The WHERE clause of `candidates`. -/
def CorrelateParams.inScope (p : CorrelateParams Uuid) (src t : ClipEmbedding Uuid Vec Json) :
    Bool :=
  t.accountId = src.accountId && t.modelKey = src.modelKey && t.id ≠ src.id
    && p.asksKind t.entityKind

/-- The rows among which the nearest are looked for. -/
def correlateScope (p : CorrelateParams Uuid) (src : ClipEmbedding Uuid Vec Json)
    (table : List (ClipEmbedding Uuid Vec Json)) : List (ClipEmbedding Uuid Vec Json) :=
  table.filter (p.inScope src)

/-- The stage-1 distance; it is the source row that has to be a Matryoshka one. -/
def sourceDistance (src t : ClipEmbedding Uuid Vec Json) : ℚ :=
  if src.mrlPrefixValid then
    pg.halfvecDistance (pg.subvector t.embedding 1 1024) (pg.subvector src.embedding 1 1024)
  else
    pg.hammingDistance t.embedding src.embedding

/-- The CTE `candidates`; rows at one distance stay in scan order. -/
def correlateNearest (p : CorrelateParams Uuid) (table : List (ClipEmbedding Uuid Vec Json)) :
    List Uuid :=
  ((canonical (fun pair => sourceDistance pg pair.1 pair.2)
    ((p.src table).flatMap (fun src =>
      (correlateScope p src table).map (fun t => (src, t))))).take 400).map (fun pair => pair.2.id)

/-- `1 - (t.embedding <=> src.embedding)`. -/
def sourceSimilarity (src t : ClipEmbedding Uuid Vec Json) : ℚ :=
  1 - pg.cosineDistance t.embedding src.embedding

/-- The select list. -/
def correlation (src t : ClipEmbedding Uuid Vec Json) : Correlation Uuid Json where
  id := t.id
  entityKind := t.entityKind
  entityId := t.entityId
  titleText := t.titleText
  summaryText := t.summaryText
  metadata := t.metadata
  cosineSimilarity := sourceSimilarity pg src t

/-- `order by cosine_similarity desc, t.id`. -/
def correlationKey (r : Correlation Uuid Json) : ℚᵒᵈ ×ₗ Uuid :=
  toLex (OrderDual.toDual r.cosineSimilarity, r.id)

/-- `correlate_entities.sql`: the exact rerank of the candidates. -/
def correlateEntities (p : CorrelateParams Uuid) (table : List (ClipEmbedding Uuid Vec Json)) :
    List (Correlation Uuid Json) :=
  (canonical correlationKey ((correlateNearest pg p table).flatMap (fun id =>
    (table.filter (fun t => t.id = id)).flatMap (fun t =>
      ((p.src table).filter (fun src => p.threshold ≤ sourceSimilarity pg src t)).map
        (fun src => correlation pg src t))))).take p.results

/-! ## §3. What is asked of the result. -/

/-- The rows of other kinds than the source's, of the asked ones. -/
def otherKinds (p : CorrelateParams Uuid) (src : ClipEmbedding Uuid Vec Json)
    (table : List (ClipEmbedding Uuid Vec Json)) : List (ClipEmbedding Uuid Vec Json) :=
  (correlateScope p src table).filter (fun t => t.entityKind ≠ src.entityKind)

/-- A result row is of the source's tenant and model and has the asked similarity. -/
structure Correlates (p : CorrelateParams Uuid) (src : ClipEmbedding Uuid Vec Json)
    (t : ClipEmbedding Uuid Vec Json) (r : Correlation Uuid Json) : Prop where
  row : correlation pg src t = r
  tenant : t.accountId = src.accountId
  modelKey : t.modelKey = src.modelKey
  similarity : p.threshold ≤ r.cosineSimilarity

/-- The result is a correlation with other kinds. -/
structure CrossKind (p : CorrelateParams Uuid) (table : List (ClipEmbedding Uuid Vec Json)) :
    Prop where
  otherKind : ∀ src ∈ p.src table, ∀ r ∈ correlateEntities pg p table,
    r.entityKind ≠ src.entityKind
  sound : ∀ r ∈ correlateEntities pg p table,
    ∃ src ∈ p.src table, ∃ t ∈ table, Correlates pg p src t r
  descending : (correlateEntities pg p table).Pairwise fun r r' =>
    r'.cosineSimilarity ≤ r.cosineSimilarity
  complete : ∀ src ∈ p.src table, (otherKinds p src table).length ≤ 400 →
    ∀ t ∈ otherKinds p src table, p.threshold ≤ sourceSimilarity pg src t →
      t.id ∈ (correlateEntities pg p table).map Correlation.id
        ∨ (correlateEntities pg p table).length = p.results
          ∧ ∀ r ∈ correlateEntities pg p table, sourceSimilarity pg src t ≤ r.cosineSimilarity

/-- The rows at the asked similarity, of those with fewer than 400 before them. -/
def close (p : CorrelateParams Uuid) (src : ClipEmbedding Uuid Vec Json)
    (table : List (ClipEmbedding Uuid Vec Json)) : List (ClipEmbedding Uuid Vec Json) :=
  (nearest (sourceDistance pg src) 400 (correlateScope p src table)).filter
    (fun t => p.threshold ≤ sourceSimilarity pg src t)

/-- The final order, on the rows. -/
def similarityKey (src t : ClipEmbedding Uuid Vec Json) : ℚᵒᵈ ×ₗ Uuid :=
  toLex (OrderDual.toDual (sourceSimilarity pg src t), t.id)

/-- The close rows of the source's kind come after `$5` other ones, and where the rows of
other kinds are few, each that is not close is outdone by `$5` close ones. -/
structure OwnKindBehind (p : CorrelateParams Uuid) (table : List (ClipEmbedding Uuid Vec Json))
    (src : ClipEmbedding Uuid Vec Json) : Prop where
  behind : ∀ t ∈ close pg p src table, t.entityKind = src.entityKind →
    p.results ≤ ahead (similarityKey pg src) (close pg p src table) t
  outdone : (otherKinds p src table).length ≤ 400 →
    ∀ t ∈ otherKinds p src table, t ∉ close pg p src table →
      p.threshold ≤ sourceSimilarity pg src t →
        p.results ≤ ((close pg p src table).filter
          (fun c => sourceSimilarity pg src t ≤ sourceSimilarity pg src c)).length

variable {pg} {p : CorrelateParams Uuid} {table : List (ClipEmbedding Uuid Vec Json)}
  {src : ClipEmbedding Uuid Vec Json}

/-! ## §4. The result in terms of the rows. -/

theorem mem_src {e : ClipEmbedding Uuid Vec Json} :
    e ∈ p.src table ↔ e ∈ table ∧ p.sourceId = some e.id ∧ p.tenant = some e.accountId := by
  unfold CorrelateParams.src
  simp only [List.mem_filter, Bool.and_eq_true, decide_eq_true_iff]

/-- There is one source row. -/
theorem src_eq (hpk : Unique ClipEmbedding.id table) (hsrc : src ∈ p.src table) :
    p.src table = [src] := by
  obtain ⟨hmem, hid, htenant⟩ := mem_src.mp hsrc
  have hwhere : p.src table = (table.filter (fun e => e.id = src.id)).filter
      (fun e => p.tenant = some e.accountId) := by
    unfold CorrelateParams.src
    rw [List.filter_filter, hid]
    apply List.filter_congr
    intro e _
    rw [Bool.and_comm]
    simp only [Option.some.injEq, eq_comm]
  rw [hwhere, hpk.filter_eq_singleton hmem]
  exact List.filter_eq_self.mpr fun e he => by
    rw [List.mem_singleton.mp he]
    exact decide_eq_true htenant

/-- The candidates are the nearest rows of the scope. -/
theorem correlateNearest_eq (hone : p.src table = [src]) :
    correlateNearest pg p table
      = ((canonical (sourceDistance pg src) (correlateScope p src table)).take 400).map
          ClipEmbedding.id := by
  unfold correlateNearest
  rw [hone, List.flatMap_singleton, canonical_map, ← List.map_take, List.map_map]
  rfl

/-- The close rows are the candidates at the asked similarity. -/
theorem close_perm : (close pg p src table).Perm
    (((canonical (sourceDistance pg src) (correlateScope p src table)).take 400).filter
      (fun t => p.threshold ≤ sourceSimilarity pg src t)) :=
  (nearest_perm _ _ _).filter _

theorem mem_close {t : ClipEmbedding Uuid Vec Json} (ht : t ∈ close pg p src table) :
    t ∈ correlateScope p src table ∧ p.threshold ≤ sourceSimilarity pg src t := by
  obtain ⟨hnear, hle⟩ := List.mem_filter.mp ht
  exact ⟨(nearest_sublist _ _ _).subset hnear, of_decide_eq_true hle⟩

theorem close_ids (hpk : Unique ClipEmbedding.id table) :
    ((close pg p src table).map ClipEmbedding.id).Nodup := by
  have hsub : (close pg p src table).Sublist table :=
    List.filter_sublist.trans ((nearest_sublist _ _ _).trans List.filter_sublist)
  exact hpk.sublist (hsub.map ClipEmbedding.id)

omit [LinearOrder Uuid] in
theorem nodup_similarityKeys {rows : List (ClipEmbedding Uuid Vec Json)}
    (h : (rows.map ClipEmbedding.id).Nodup) : (rows.map (similarityKey pg src)).Nodup := by
  refine List.Nodup.of_map (fun key => (ofLex key).2) ?_
  rw [List.map_map]
  exact h

/-- **The result**: the most similar ones of the close rows. -/
theorem correlateEntities_eq (hpk : Unique ClipEmbedding.id table) (hsrc : src ∈ p.src table) :
    correlateEntities pg p table
      = ((canonical (similarityKey pg src) (close pg p src table)).take p.results).map
          (correlation pg src) := by
  have hone := src_eq hpk hsrc
  have hscope : ∀ t ∈ (canonical (sourceDistance pg src) (correlateScope p src table)).take 400,
      t ∈ table := by
    intro t ht
    exact List.mem_of_mem_filter ((mem_canonical _).mp (List.mem_of_mem_take ht))
  -- the join finds each candidate again
  have hjoin : (correlateNearest pg p table).flatMap (fun id =>
      (table.filter (fun t => t.id = id)).flatMap (fun t =>
        ((p.src table).filter (fun src => p.threshold ≤ sourceSimilarity pg src t)).map
          (fun src => correlation pg src t)))
      = (((canonical (sourceDistance pg src) (correlateScope p src table)).take 400).filter
          (fun t => p.threshold ≤ sourceSimilarity pg src t)).map (correlation pg src) := by
    rw [correlateNearest_eq hone, List.flatMap_map, hone]
    apply flatMap_eq_map_filter
    intro t ht
    rw [hpk.filter_eq_singleton (hscope t ht), List.flatMap_singleton]
    by_cases hle : p.threshold ≤ sourceSimilarity pg src t
    · simp [hle]
    · simp [hle]
  have hkeys : (((close pg p src table).map (correlation pg src)).map correlationKey).Nodup := by
    rw [List.map_map]
    exact nodup_similarityKeys (close_ids hpk)
  unfold correlateEntities
  rw [hjoin, ← canonical_eq_of_perm correlationKey hkeys (close_perm.map _), canonical_map,
    ← List.map_take]
  rfl

/-- A row is in the result iff it is close and fewer than `$5` close rows come before it. -/
theorem mem_correlateEntities (hpk : Unique ClipEmbedding.id table) (hsrc : src ∈ p.src table)
    {r : Correlation Uuid Json} : r ∈ correlateEntities pg p table ↔
      ∃ t ∈ close pg p src table,
        ahead (similarityKey pg src) (close pg p src table) t < p.results
          ∧ correlation pg src t = r := by
  rw [correlateEntities_eq hpk hsrc, List.mem_map]
  simp only [mem_take_canonical (nodup_similarityKeys (close_ids hpk)), and_assoc]

/-- Without a source row nothing is returned. -/
theorem src_of_mem {r : Correlation Uuid Json} (hr : r ∈ correlateEntities pg p table) :
    ∃ src, src ∈ p.src table := by
  have hall := (mem_canonical correlationKey).mp (List.mem_of_mem_take hr)
  simp only [List.mem_flatMap, List.mem_map, List.mem_filter] at hall
  obtain ⟨_, _, _, _, src, hsrc, _⟩ := hall
  exact ⟨src, hsrc.1⟩

/-! ## §5. What holds always. -/

theorem correlateEntities_sound (hpk : Unique ClipEmbedding.id table) {r : Correlation Uuid Json}
    (hr : r ∈ correlateEntities pg p table) :
    ∃ src ∈ p.src table, ∃ t ∈ table, Correlates pg p src t r := by
  obtain ⟨src, hsrc⟩ := src_of_mem hr
  obtain ⟨t, ht, -, rfl⟩ := (mem_correlateEntities hpk hsrc).mp hr
  obtain ⟨hscope, hle⟩ := mem_close ht
  obtain ⟨hmem, hin⟩ := List.mem_filter.mp hscope
  unfold CorrelateParams.inScope at hin
  simp only [Bool.and_eq_true, decide_eq_true_iff] at hin
  exact ⟨src, hsrc, t, hmem, rfl, hin.1.1.1, hin.1.1.2, hle⟩

theorem similarity_of_key_le {t t' : ClipEmbedding Uuid Vec Json}
    (h : similarityKey pg src t ≤ similarityKey pg src t') :
    sourceSimilarity pg src t' ≤ sourceSimilarity pg src t :=
  OrderDual.toDual_le_toDual.mp (Prod.Lex.monotone_fst _ _ h)

theorem correlateEntities_descending :
    (correlateEntities pg p table).Pairwise fun r r' =>
      r'.cosineSimilarity ≤ r.cosineSimilarity := by
  have hsorted := (canonical_pairwise_le correlationKey
    ((correlateNearest pg p table).flatMap (fun id =>
      (table.filter (fun t => t.id = id)).flatMap (fun t =>
        ((p.src table).filter (fun src => p.threshold ≤ sourceSimilarity pg src t)).map
          (fun src => correlation pg src t))))).sublist (List.take_sublist p.results _)
  refine hsorted.imp ?_
  intro r r' hle
  exact OrderDual.toDual_le_toDual.mp (Prod.Lex.monotone_fst _ _ hle)

/-! ## §6. What the limits leave room for. -/

/-- All that is returned is at least as similar as a row, and the limit is reached, iff as
many close rows are. -/
theorem full_iff (hpk : Unique ClipEmbedding.id table) (hsrc : src ∈ p.src table)
    (t : ClipEmbedding Uuid Vec Json) :
    ((correlateEntities pg p table).length = p.results
        ∧ ∀ r ∈ correlateEntities pg p table, sourceSimilarity pg src t ≤ r.cosineSimilarity)
      ↔ p.results ≤ ((close pg p src table).filter
          (fun c => sourceSimilarity pg src t ≤ sourceSimilarity pg src c)).length := by
  have hfront : ∀ a b : ClipEmbedding Uuid Vec Json,
      similarityKey pg src a ≤ similarityKey pg src b →
        decide (sourceSimilarity pg src t ≤ sourceSimilarity pg src b) = true →
          decide (sourceSimilarity pg src t ≤ sourceSimilarity pg src a) = true := by
    intro a b hle hb
    exact decide_eq_true ((of_decide_eq_true hb).trans (similarity_of_key_le hle))
  have htake := take_all_iff (canonical_pairwise_le (similarityKey pg src)
    (close pg p src table)) hfront p.results
  rw [((canonical_perm (similarityKey pg src) (close pg p src table)).filter _).length_eq] at htake
  rw [← htake, correlateEntities_eq hpk hsrc, List.length_map, List.forall_mem_map]
  simp only [decide_eq_true_iff]
  rfl

/-- A close row is returned, or the limit is reached by rows that are as similar. -/
theorem complete_of_close (hpk : Unique ClipEmbedding.id table) (hsrc : src ∈ p.src table)
    {t : ClipEmbedding Uuid Vec Json} (ht : t ∈ close pg p src table) :
    t.id ∈ (correlateEntities pg p table).map Correlation.id
      ∨ (correlateEntities pg p table).length = p.results
        ∧ ∀ r ∈ correlateEntities pg p table, sourceSimilarity pg src t ≤ r.cosineSimilarity := by
  by_cases hlt : ahead (similarityKey pg src) (close pg p src table) t < p.results
  · exact .inl (List.mem_map.mpr
      ⟨correlation pg src t, (mem_correlateEntities hpk hsrc).mpr ⟨t, ht, hlt, rfl⟩, rfl⟩)
  · rw [not_lt] at hlt
    refine .inr ((full_iff hpk hsrc t).mpr (hlt.trans ?_))
    unfold ahead
    refine (List.monotone_filter_right _ fun c hc => ?_).length_le
    exact decide_eq_true (similarity_of_key_le (of_decide_eq_true hc).le)

/-- **Correlation with other kinds.**  Every table and call has it iff the rows of the
source's own kind stay behind. -/
theorem correlateEntities_iff (pg : PgVector Vec) (models : List EmbeddingModel)
    (table : List (ClipEmbedding Uuid Vec Json)) (hvalid : ClipEmbeddingsValid pg models table)
    (p : CorrelateParams Uuid) :
    CrossKind pg p table ↔ ∀ src ∈ p.src table, OwnKindBehind pg p table src := by
  have hpk := hvalid.primaryKey
  constructor
  · intro h src hsrc
    constructor
    · intro t ht hkind
      by_contra hlt
      exact h.otherKind src hsrc _ ((mem_correlateEntities hpk hsrc).mpr
        ⟨t, ht, not_le.mp hlt, rfl⟩) hkind
    · intro hfew t ht hfar hle
      refine (full_iff hpk hsrc t).mp ((h.complete src hsrc hfew t ht hle).resolve_left ?_)
      -- what is returned under its id is its row, and that is close
      intro hid
      obtain ⟨r, hr, hrid⟩ := List.mem_map.mp hid
      obtain ⟨t', ht', -, rfl⟩ := (mem_correlateEntities hpk hsrc).mp hr
      have hrow : t' = t := hpk.eq_of_key (List.mem_of_mem_filter (mem_close ht').1)
        (List.mem_of_mem_filter (List.mem_of_mem_filter ht)) hrid
      rw [hrow] at ht'
      exact hfar ht'
  · intro h
    refine ⟨?_, fun r hr => correlateEntities_sound hpk hr, correlateEntities_descending, ?_⟩
    · intro src hsrc r hr hkind
      obtain ⟨t, ht, hlt, rfl⟩ := (mem_correlateEntities hpk hsrc).mp hr
      exact absurd hlt (not_lt.mpr ((h src hsrc).behind t ht hkind))
    · intro src hsrc hfew t ht hle
      by_cases hclose : t ∈ close pg p src table
      · exact complete_of_close hpk hsrc hclose
      · exact .inr ((full_iff hpk hsrc t).mpr ((h src hsrc).outdone hfew t ht hclose hle))

/-- Where `$3` leaves the source's kind out, nothing of it is in the way. -/
theorem behind_of_otherKinds
    (h : ∀ t ∈ correlateScope p src table, t.entityKind ≠ src.entityKind) :
    OwnKindBehind pg p table src := by
  constructor
  · intro t ht hkind
    exact absurd hkind (h t (mem_close ht).1)
  · intro hfew t ht hfar hle
    have hall : otherKinds p src table = correlateScope p src table :=
      List.filter_eq_self.mpr fun t ht => decide_eq_true (h t ht)
    rw [hall] at hfew ht
    -- all of the scope is among the nearest
    have hnear : t ∈ (canonical (sourceDistance pg src) (correlateScope p src table)).take 400 := by
      have hlength :=
        (canonical_perm (sourceDistance pg src) (correlateScope p src table)).length_eq
      rw [List.take_of_length_le (by omega)]
      exact (mem_canonical _).mpr ht
    exact absurd (List.mem_filter.mpr
      ⟨(nearest_perm _ _ _).mem_iff.mpr hnear, decide_eq_true hle⟩) hfar

end Query

/-! ## §7. A clip and a link preview, and two clips. -/

/-- A link preview that has the clip's vector. -/
def linkPreview : ClipEmbedding Nat SampleVec Unit :=
  { sampleClip with id := 3, entityKind := "link_preview" }

theorem clipAndLink_valid :
    ClipEmbeddingsValid samplePg sampleModels [sampleClip, linkPreview] where
  primaryKey := by decide
  onePerEntityPerModel := by decide
  model := by decide
  rows := by
    intro e he
    rcases List.mem_cons.mp he with rfl | he
    · exact sampleTable_valid.rows sampleClip List.mem_cons_self
    · rw [List.mem_singleton] at he
      rw [he]
      exact ⟨by decide, by decide, by decide, by decide, by decide, by decide, by decide,
        by decide, by decide +kernel, by decide⟩

/-- The call for the clip, with all defaults. -/
def sampleCorrelate : CorrelateParams Nat where
  tenant := some 7
  sourceId := some 1
  targetKinds := none
  minimumSimilarity := none
  resultCount := none

/-- Besides the clip there is only the link preview. -/
theorem correlateEntities_sample : CrossKind samplePg sampleCorrelate [sampleClip, linkPreview] :=
  (correlateEntities_iff samplePg sampleModels [sampleClip, linkPreview] clipAndLink_valid
    sampleCorrelate).mpr (by
      intro src hsrc
      have hsource : sampleCorrelate.src [sampleClip, linkPreview] = [sampleClip] := rfl
      rw [hsource, List.mem_singleton] at hsrc
      rw [hsrc]
      refine behind_of_otherKinds fun t ht => ?_
      have hscope : correlateScope sampleCorrelate sampleClip [sampleClip, linkPreview]
          = [linkPreview] := rfl
      rw [hscope, List.mem_singleton] at ht
      rw [ht]
      decide)

/-- **Another clip is returned for a clip.** -/
theorem correlateEntities_own_kind :
    ClipEmbeddingsValid samplePg sampleModels [sampleClip, otherClip]
      ∧ (correlateEntities samplePg sampleCorrelate [sampleClip, otherClip]).map
          (fun r => (r.id, r.entityKind)) = [(2, "clip")]
      ∧ ¬ CrossKind samplePg sampleCorrelate [sampleClip, otherClip] := by
  have hreturned : (correlateEntities samplePg sampleCorrelate [sampleClip, otherClip]).map
      (fun r => (r.id, r.entityKind)) = [(2, "clip")] := by
    decide +kernel
  refine ⟨twoClips_valid, hreturned, ?_⟩
  intro h
  have hsource : sampleClip ∈ sampleCorrelate.src [sampleClip, otherClip] := by
    rw [show sampleCorrelate.src [sampleClip, otherClip] = [sampleClip] from rfl]
    exact List.mem_singleton_self sampleClip
  have hmem : (2, "clip") ∈ (correlateEntities samplePg sampleCorrelate
      [sampleClip, otherClip]).map (fun r => (r.id, r.entityKind)) := by
    rw [hreturned]
    exact List.mem_singleton_self _
  obtain ⟨r, hr, hrow⟩ := List.mem_map.mp hmem
  exact h.otherKind sampleClip hsource r hr (congrArg Prod.snd hrow)

end ClipTown.Embeddings
