/-
  ClipTown.ModelSpace.CockroachTemplate — the CockroachDB counterpart of the
  search function
  (`embedding-contract/sql/cockroachdb/hybrid-search-v3-exact.sql`).

  The template has the two branches of the PostgreSQL function, with two of its
  filters missing: the selected space need not be cosine, and the lexical
  branch does not look at `expires_at`.  Its lexical LIMIT has no ORDER BY, so a
  run may keep any 4000 matching rows; `LimitOf` ranges over all of them.

    • `Eligible` — the rows the PostgreSQL function would consider,
    • `templateScope` — the rows either branch of the template starts from,
    • `template_eligible_iff` — every row that any run returns is eligible iff
      every row that a branch can find is unexpired and in a cosine space;
      `template_returns_expired` is a run that returns an expired row.
-/
import ClipTown.ModelSpace.HybridSearchExact

namespace ClipTown.ModelSpace

open CanonicalOrder Embeddings RankFusion Relational

/-! ## §1. The row checks of CockroachDB. -/

section Checks

variable {Uuid Vec : Type} (pg : PgVector Vec)

/-- The CHECKs on a profile. -/
@[mk_iff]
structure Profile.CockroachValid (p : Profile) : Prop where
  embeddingProvider :
    p.embeddingProvider ∈ ["openai", "google", "voyage", "qwen", "nvidia", "baai", "custom"]
  generationProvider : ∀ g ∈ p.generationProvider,
    g ∈ ["openai", "anthropic", "google", "qwen", "nvidia", "baai", "custom"]
  sourceDimensions : 1 ≤ p.sourceDimensions ∧ p.sourceDimensions ≤ 4096
  storageDimensions : p.storageDimensions = 4100
  instructionSha256 : isSha256Hex p.instructionSha256
  preprocessingSha256 : isSha256Hex p.preprocessingSha256

/-- The CHECKs on a space; the metric, the roles and `exact_rerank` are free. -/
@[mk_iff]
structure Space.CockroachValid (s : Space) : Prop where
  purpose : s.purpose ∈ purposes
  sourceDimensions : 1 ≤ s.sourceDimensions ∧ s.sourceDimensions ≤ 4096
  lexicalLimit : 1 ≤ s.lexicalCandidateLimit ∧ s.lexicalCandidateLimit ≤ 4000
  semanticLimit : 1 ≤ s.semanticCandidateLimit ∧ s.semanticCandidateLimit ≤ 4000
  resultLimit : 1 ≤ s.resultLimit ∧ s.resultLimit ≤ 200

/-- The CHECKs on an embedding. -/
@[mk_iff]
structure SemanticEmbedding.CockroachValid (e : SemanticEmbedding Uuid Vec) : Prop where
  purpose : e.purpose ∈ purposes
  sourceDimensions : 1 ≤ e.sourceDimensions ∧ e.sourceDimensions ≤ 4096
  storageDimensions : e.storageDimensions = 4100
  contentSha256 : isSha256Hex e.contentSha256
  dims : pg.vectorDims e.embedding = 4100
  norm : 0 < pg.l2Norm (pg.subvector e.embedding 1 e.sourceDimensions.toNat)
  tail : pg.l2Norm (pg.subvector e.embedding (e.sourceDimensions.toNat + 1)
    (4100 - e.sourceDimensions.toNat)) ≤ 1 / 1000000

/-- Every CockroachDB constraint. -/
structure Cockroach (db : Database Uuid Vec) : Prop where
  keys : Consistent db
  profiles : Check Profile.CockroachValid db.profiles
  spaces : Check Space.CockroachValid db.spaces
  embeddings : Check (SemanticEmbedding.CockroachValid pg) db.embeddings

end Checks

/-! ## §2. The template. -/

section Template

variable {Uuid Vec Doc Query : Type} [LinearOrder Uuid]
  (pg : PgVector Vec) (ts : TextSearch Doc Query) (quotient : Int → ℚ)

/-- The generated column `search_document` of CockroachDB. -/
def SemanticEmbedding.cockroachDocument (e : SemanticEmbedding Uuid Vec) : Doc :=
  ts.toTsvector (e.titleText ++ " " ++ e.tagText ++ " " ++ e.bodyText ++ " " ++ e.sourceAppText
    ++ " " ++ e.entityKind)

/-- The WHERE clause of the template's `selected_space`. -/
def SearchCall.templateSelects (call : SearchCall Uuid Vec) (s : Space) : Bool :=
  call.spaceKey = some s.spaceKey && call.purpose = some s.purpose
    && call.queryRole = some s.queryRole && call.documentRole = some s.documentRole
    && s.enabled && s.exactRerank

/-- The template's CTE `selected_space`. -/
def templateSpace (db : Database Uuid Vec) (call : SearchCall Uuid Vec) : Option Space :=
  db.spaces.find? (fun s => call.templateSelects s)

/-- The join of both branches with the selected space, and the tenant. -/
def templateScope (db : Database Uuid Vec) (call : SearchCall Uuid Vec) (s : Space) :
    List (SemanticEmbedding Uuid Vec) :=
  db.embeddings.filter (fun e =>
    e.spaceKey = s.spaceKey && e.profileKey = s.documentProfileKey
      && e.inputRole = s.documentRole && call.tenant = some e.tenantId)

/-- `ORDER BY cosine_distance(e.embedding, $4), e.embedding_id`; nulls come first. -/
def templateSemanticOrder (call : SearchCall Uuid Vec) (e : SemanticEmbedding Uuid Vec) :
    WithBot ℚ ×ₗ Uuid :=
  toLex (nullsFirst (distance pg call e), e.embeddingId)

/-- The template's CTE `semantic_candidates`. -/
def templateSemantic (db : Database Uuid Vec) (call : SearchCall Uuid Vec) (s : Space) :
    List (SemanticEmbedding Uuid Vec × Nat) :=
  (ranked (fun a b => templateSemanticOrder pg call a ≤ templateSemanticOrder pg call b)
    ((templateScope db call s).filter (fun e => e.unexpired call.now))).take 4000

/-- `btrim($5) <> '' AND e.search_document @@ websearch_to_tsquery('simple', $5)`. -/
def templateMatches (call : SearchCall Uuid Vec) (e : SemanticEmbedding Uuid Vec) : Bool :=
  call.queryText.any (fun q =>
    q.toList.any (fun c => c != ' ')
      && ts.isMatch (e.cockroachDocument ts) (ts.websearchToTsquery q))

/-- `ORDER BY ts_rank(…) DESC, e.embedding_id`; nulls come last. -/
def templateLexicalOrder (call : SearchCall Uuid Vec) (e : SemanticEmbedding Uuid Vec) :
    (WithBot ℚ)ᵒᵈ ×ₗ Uuid :=
  toLex (descNullsLast (call.queryText.map (fun q =>
    ts.tsRank (e.cockroachDocument ts) (ts.websearchToTsquery q))), e.embeddingId)

/-- The rows of the template's CTE `lexical_candidates`, before its LIMIT. -/
def templateLexical (db : Database Uuid Vec) (call : SearchCall Uuid Vec) (s : Space) :
    List (SemanticEmbedding Uuid Vec × Nat) :=
  ranked (fun a b => templateLexicalOrder ts call a ≤ templateLexicalOrder ts call b)
    ((templateScope db call s).filter (fun e => templateMatches ts call e))

/-- `LIMIT $6`: a null is no limit, and a negative one fails. -/
def applyLimit {α : Type} (limit : Option Int) (l : List α) : Option (List α) :=
  match limit with
  | none => some l
  | some n => if n < 0 then none else some (l.take n.toNat)

/-- The select list of the template. -/
def templateHit (call : SearchCall Uuid Vec) (sem lex : List (SemanticEmbedding Uuid Vec × Nat))
    (e : SemanticEmbedding Uuid Vec) : ScoredHit Uuid where
  embeddingId := e.embeddingId
  entityKind := e.entityKind
  entityId := e.entityId
  semanticScore := (distance pg call e).map (fun d => 1 - d)
  semanticRank := rankOf sem e.embeddingId
  lexicalRank := rankOf lex e.embeddingId
  fusedScore := fusionTerm quotient 60 (rankOf sem e.embeddingId)
    + fusionTerm quotient 60 (rankOf lex e.embeddingId)

/-- The template's `ORDER BY fused_score DESC, semantic_score DESC, e.embedding_id`. -/
def templateKey (h : ScoredHit Uuid) : ℚᵒᵈ ×ₗ (WithBot ℚ)ᵒᵈ ×ₗ Uuid :=
  toLex (OrderDual.toDual h.fusedScore, toLex (descNullsLast h.semanticScore, h.embeddingId))

/-- The template's result, once its LIMIT has kept the lexical rows `lex`. -/
def templateResult (db : Database Uuid Vec) (call : SearchCall Uuid Vec) (s : Space)
    (lex : List (SemanticEmbedding Uuid Vec × Nat)) : Option (List (ScoredHit Uuid)) :=
  let sem := templateSemantic pg db call s
  applyLimit call.requestedLimit (canonical templateKey
    ((scoredRows db call sem lex).map (templateHit pg quotient call sem lex)))

/-- The runs of the template: nothing when no space is selected, else the result
for any rows that the lexical LIMIT keeps. -/
inductive TemplateReturns (db : Database Uuid Vec) (call : SearchCall Uuid Vec) :
    List (ScoredHit Uuid) → Prop
  | noSpace (h : templateSpace db call = none) : TemplateReturns db call []
  | found {s : Space} {lex : List (SemanticEmbedding Uuid Vec × Nat)}
      {hits : List (ScoredHit Uuid)} (hs : templateSpace db call = some s)
      (hlex : LimitOf 4000 (templateLexical ts db call s) lex)
      (hhits : templateResult pg quotient db call s lex = some hits) :
      TemplateReturns db call hits

/-! ## §3. Eligibility. -/

/-- The rows that the PostgreSQL function considers for the same tenant, space,
purpose and roles. -/
def Eligible (db : Database Uuid Vec) (call : SearchCall Uuid Vec)
    (e : SemanticEmbedding Uuid Vec) : Prop :=
  ∃ s ∈ db.spaces, call.names s ∧ e ∈ branchScope db call s

variable {pg ts quotient} {db : Database Uuid Vec} {call : SearchCall Uuid Vec} {s : Space}

theorem mem_templateScope {e : SemanticEmbedding Uuid Vec} :
    e ∈ templateScope db call s ↔
      e ∈ db.embeddings ∧ e.spaceKey = s.spaceKey ∧ e.profileKey = s.documentProfileKey
        ∧ e.inputRole = s.documentRole ∧ call.tenant = some e.tenantId := by
  simp [templateScope, and_assoc]

omit [LinearOrder Uuid] in
theorem templateSelects_iff :
    call.templateSelects s ↔
      call.spaceKey = some s.spaceKey ∧ call.purpose = some s.purpose
        ∧ call.queryRole = some s.queryRole ∧ call.documentRole = some s.documentRole
        ∧ s.enabled ∧ s.exactRerank := by
  simp [SearchCall.templateSelects, and_assoc]

/-- In the template's scope, eligibility is the two missing filters: the foreign
key of the embedding supplies the purpose and the dimensions. -/
theorem eligible_iff (hdb : Consistent db) (hs : s ∈ db.spaces) (hselects : call.templateSelects s)
    {e : SemanticEmbedding Uuid Vec} (he : e ∈ templateScope db call s) :
    Eligible db call e ↔ s.distanceMetric = "cosine" ∧ e.unexpired call.now := by
  obtain ⟨hmem, hspace, hprofile, hrole, htenant⟩ := mem_templateScope.mp he
  obtain ⟨hkey, hpurpose, hquery, hdocument, henabled, hexact⟩ := templateSelects_iff.mp hselects
  constructor
  · intro h
    obtain ⟨s', hs', hnames, hscope⟩ := h
    obtain ⟨_, hjoins, _, hunexpired⟩ := mem_branchScope.mp hscope
    have hsame : s' = s :=
      hdb.spaceKey.eq_of_key hs' hs ((joins_iff.mp hjoins).1.symm.trans hspace)
    rw [hsame] at hnames
    exact ⟨(names_iff.mp hnames).2.2.2.2.1, hunexpired⟩
  · intro h
    obtain ⟨hmetric, hunexpired⟩ := h
    have hfk := hdb.space_of_embedding hmem hs hspace
    have hjoins : e.joins s := joins_iff.mpr
      ⟨hspace, congrArg SpaceRef.purpose hfk, hprofile, hrole,
        congrArg SpaceRef.sourceDimensions hfk⟩
    exact ⟨s, hs, names_iff.mpr ⟨hkey, hpurpose, hquery, hdocument, hmetric, hexact, henabled⟩,
      mem_branchScope.mpr ⟨hmem, hjoins, htenant, hunexpired⟩⟩

/-! ## §4. What a run of the template returns. -/

/-- A row the semantic branch ranks. -/
theorem of_mem_templateSemantic {e : SemanticEmbedding Uuid Vec}
    (h : e ∈ members (templateSemantic pg db call s)) :
    e ∈ templateScope db call s ∧ e.unexpired call.now := by
  have hmem := mem_of_mem_take h
  rwa [List.mem_filter] at hmem

/-- A row the lexical branch keeps, whichever rows its LIMIT chose. -/
theorem of_mem_lexical {lex : List (SemanticEmbedding Uuid Vec × Nat)}
    (hlex : LimitOf 4000 (templateLexical ts db call s) lex) {e : SemanticEmbedding Uuid Vec}
    (h : e ∈ members lex) : e ∈ templateScope db call s ∧ templateMatches ts call e := by
  obtain ⟨p, hp, rfl⟩ := List.mem_map.mp h
  have hranked : p ∈ templateLexical ts db call s := hlex.subperm.subset hp
  have hmem : p.1 ∈ members (templateLexical ts db call s) := List.mem_map_of_mem hranked
  unfold templateLexical members ranked at hmem
  rw [List.zipIdx_map_fst] at hmem
  rw [(List.mergeSort_perm _ _).mem_iff, List.mem_filter] at hmem
  exact hmem

/-- Every matching row is kept in some run. -/
theorem exists_lexical {e : SemanticEmbedding Uuid Vec} (he : e ∈ templateScope db call s)
    (hmatch : templateMatches ts call e) :
    ∃ lex, LimitOf 4000 (templateLexical ts db call s) lex ∧ e ∈ members lex := by
  have hmem : e ∈ members (templateLexical ts db call s) := by
    unfold templateLexical members ranked
    rw [List.zipIdx_map_fst, (List.mergeSort_perm _ _).mem_iff, List.mem_filter]
    exact ⟨he, hmatch⟩
  obtain ⟨p, hp, heq⟩ := List.mem_map.mp hmem
  obtain ⟨lex, hlex, hplex⟩ := LimitOf.exists_mem (show 0 < 4000 by decide) hp
  exact ⟨lex, hlex, heq ▸ List.mem_map_of_mem hplex⟩

/-- Candidates of the template are rows of the tenant. -/
theorem templateCandidate_of_tenant {lex : List (SemanticEmbedding Uuid Vec × Nat)}
    (hlex : LimitOf 4000 (templateLexical ts db call s) lex) {e : SemanticEmbedding Uuid Vec}
    (h : e ∈ members (templateSemantic pg db call s) ∨ e ∈ members lex) :
    e ∈ db.embeddings ∧ call.tenant = some e.tenantId := by
  have hscope : e ∈ templateScope db call s := by
    rcases h with h | h
    · exact (of_mem_templateSemantic h).1
    · exact (of_mem_lexical hlex h).1
  have hmem := mem_templateScope.mp hscope
  exact ⟨hmem.1, hmem.2.2.2.2⟩

/-- Without a final limit, a run returns every candidate. -/
theorem hit_of_candidate (hdb : Consistent db) (hs : templateSpace db call = some s)
    {lex : List (SemanticEmbedding Uuid Vec × Nat)}
    (hlex : LimitOf 4000 (templateLexical ts db call s) lex) {e : SemanticEmbedding Uuid Vec}
    (he : e ∈ members (templateSemantic pg db call s) ∨ e ∈ members lex) :
    ∃ hits, TemplateReturns pg ts quotient db { call with requestedLimit := none } hits
      ∧ ∃ h ∈ hits, h.embeddingId = e.embeddingId := by
  have hrow : e ∈ scoredRows db call (templateSemantic pg db call s) lex :=
    (mem_scoredRows hdb (fun _ => templateCandidate_of_tenant hlex)).mpr he
  exact ⟨_, .found hs hlex rfl, _,
    (mem_canonical templateKey).mpr (List.mem_map_of_mem hrow), rfl⟩

/-- The row behind a returned hit. -/
theorem exists_candidate_of_hit (hdb : Consistent db) {hits : List (ScoredHit Uuid)}
    (hreturns : TemplateReturns pg ts quotient db call hits) {h : ScoredHit Uuid} (hh : h ∈ hits) :
    ∃ s, templateSpace db call = some s ∧ ∃ e, h.embeddingId = e.embeddingId
      ∧ e ∈ templateScope db call s ∧ (e.unexpired call.now ∨ templateMatches ts call e) := by
  cases hreturns with
  | noSpace _ => cases hh
  | @found s lex _ hs hlex hhits =>
      refine ⟨s, hs, ?_⟩
      have hmem : h ∈ (scoredRows db call (templateSemantic pg db call s) lex).map
          (templateHit pg quotient call (templateSemantic pg db call s) lex) := by
        rw [← mem_canonical templateKey]
        unfold templateResult applyLimit at hhits
        split at hhits
        · rw [Option.some.inj hhits]
          exact hh
        · split at hhits
          · cases hhits
          · rw [← Option.some.inj hhits] at hh
            exact List.mem_of_mem_take hh
      obtain ⟨e, he, rfl⟩ := List.mem_map.mp hmem
      rcases (mem_scoredRows hdb (fun _ => templateCandidate_of_tenant hlex)).mp he with he | he
      · obtain ⟨hscope, hunexpired⟩ := of_mem_templateSemantic he
        exact ⟨e, rfl, hscope, Or.inl hunexpired⟩
      · obtain ⟨hscope, hmatch⟩ := of_mem_lexical hlex he
        exact ⟨e, rfl, hscope, Or.inr hmatch⟩

/-- Every row that any run returns, under any final limit, is eligible under the
PostgreSQL function. -/
def TemplateRefines (pg : PgVector Vec) (ts : TextSearch Doc Query) (quotient : Int → ℚ)
    (db : Database Uuid Vec) (call : SearchCall Uuid Vec) : Prop :=
  ∀ limit hits, TemplateReturns pg ts quotient db { call with requestedLimit := limit } hits →
    ∀ h ∈ hits, ∃ e ∈ db.embeddings, e.embeddingId = h.embeddingId ∧ Eligible db call e

/-- **Refinement.**  The template refines the PostgreSQL function iff every row
that one of its branches can find is in a cosine space and unexpired. -/
theorem template_eligible_iff (pg : PgVector Vec) (ts : TextSearch Doc Query)
    (quotient : Int → ℚ) (db : Database Uuid Vec) (hdb : Cockroach pg db)
    (call : SearchCall Uuid Vec) :
    TemplateRefines pg ts quotient db call ↔
      ∀ s, templateSpace db call = some s → ∀ e ∈ templateScope db call s,
        e.unexpired call.now ∨ templateMatches ts call e →
        s.distanceMetric = "cosine" ∧ e.unexpired call.now := by
  have hkeys := hdb.keys
  constructor
  · intro h s hspace e he hfound
    have hs : s ∈ db.spaces := List.mem_of_find?_eq_some hspace
    have hselects : call.templateSelects s := List.find?_some hspace
    -- a candidate is returned by a run without a final limit, so it is eligible
    have heligible : ∀ (lex : List (SemanticEmbedding Uuid Vec × Nat)),
        LimitOf 4000 (templateLexical ts db call s) lex → ∀ e',
        (e' ∈ members (templateSemantic pg db call s) ∨ e' ∈ members lex) →
        e' ∈ templateScope db call s → s.distanceMetric = "cosine" ∧ e'.unexpired call.now := by
      intro lex hlex e' hcand hscope
      have hreturned : ∃ hits,
          TemplateReturns pg ts quotient db { call with requestedLimit := none } hits
            ∧ ∃ h ∈ hits, h.embeddingId = e'.embeddingId :=
        hit_of_candidate hkeys hspace hlex hcand
      obtain ⟨hits, hreturns, hit, hhit, hid⟩ := hreturned
      obtain ⟨e'', he'', hid', hel⟩ := h none hits hreturns hit hhit
      have hsame : e'' = e' := hkeys.embeddingId.eq_of_key he'' (mem_templateScope.mp hscope).1
        (hid'.trans hid)
      rw [hsame] at hel
      exact (eligible_iff hkeys hs hselects hscope).mp hel
    rcases hfound with hunexpired | hmatch
    · -- the semantic branch finds some unexpired row, which tells the metric
      obtain ⟨e', he'⟩ : ∃ e', e' ∈ members (templateSemantic pg db call s) :=
        exists_candidate _ (List.mem_filter.mpr ⟨he, hunexpired⟩) (by decide)
      obtain ⟨lex, hlex⟩ := LimitOf.exists 4000 (templateLexical ts db call s)
      exact ⟨(heligible lex hlex e' (Or.inl he') (of_mem_templateSemantic he').1).1, hunexpired⟩
    · obtain ⟨lex, hlex, helex⟩ := exists_lexical he hmatch
      exact heligible lex hlex e (Or.inr helex) he
  · intro h limit hits hreturns hit hhit
    obtain ⟨s, hspace, e, hid, hscope, hfound⟩ := exists_candidate_of_hit hkeys hreturns hhit
    have hs : s ∈ db.spaces := List.mem_of_find?_eq_some hspace
    have hselects : call.templateSelects s := List.find?_some hspace
    exact ⟨e, (mem_templateScope.mp hscope).1, hid.symm,
      (eligible_iff hkeys hs hselects hscope).mpr (h s hspace e hscope hfound)⟩

end Template

/-! ## §5. A run that returns an expired row. -/

/-- The embedding of the search sample, expiring at time 5. -/
def expiringEmbedding : SemanticEmbedding Nat SampleVec :=
  { sampleEmbedding with expiresAt := some 5 }

/-- The state of the search sample, with that embedding. -/
def expiringDatabase : Database Nat SampleVec :=
  { sampleDatabase "text-embedding-3-small" true with embeddings := [expiringEmbedding] }

/-- Its search, at a time, for a text that the whole document equals. -/
def expiringSearch (now : Int) : SearchCall Nat SampleVec :=
  { sampleSearch with
    now := now
    queryText := some "rare exact phrase    item"
    requestedLimit := none }

theorem expiringDatabase_valid : Cockroach samplePg expiringDatabase where
  keys := by decide
  profiles := by
    intro p hp
    rw [Profile.cockroachValid_iff]
    revert p
    decide
  spaces := by
    intro s hs
    rw [Space.cockroachValid_iff]
    revert s
    decide
  embeddings := by
    intro e he
    rw [SemanticEmbedding.cockroachValid_iff]
    revert e
    decide +kernel

/-- Before the embedding expires, whatever a run returns is eligible. -/
theorem template_eligible_sample :
    TemplateRefines samplePg sampleTextSearch (fun n => 1 / n) expiringDatabase
      (expiringSearch 4) :=
  (template_eligible_iff samplePg sampleTextSearch (fun n => 1 / n) expiringDatabase
    expiringDatabase_valid (expiringSearch 4)).mpr (by
      intro s hs
      rw [show templateSpace expiringDatabase (expiringSearch 4) = some sampleSpace by
          decide,
        Option.some.injEq] at hs
      rw [← hs]
      decide)

/-- After it has expired, the lexical branch still finds it, and the run returns
a row that the PostgreSQL function would not consider. -/
theorem template_returns_expired :
    Cockroach samplePg expiringDatabase
      ∧ ¬ TemplateRefines samplePg sampleTextSearch (fun n => 1 / n) expiringDatabase
          (expiringSearch 6) := by
  have hkeys := expiringDatabase_valid.keys
  have hspace : templateSpace expiringDatabase (expiringSearch 6) = some sampleSpace := by
    decide
  have hscope : expiringEmbedding ∈ templateScope expiringDatabase (expiringSearch 6) sampleSpace :=
    mem_templateScope.mpr ⟨List.mem_singleton_self _, rfl, rfl, rfl, rfl⟩
  obtain ⟨lex, hlex, hmem⟩ := exists_lexical hscope
    (show templateMatches sampleTextSearch (expiringSearch 6) expiringEmbedding by decide)
  refine ⟨expiringDatabase_valid, ?_⟩
  intro hrefines
  obtain ⟨hits, hreturns, h, hh, _⟩ := hit_of_candidate hkeys hspace hlex (Or.inr hmem)
  obtain ⟨e, he, _, heligible⟩ := hrefines none hits hreturns h hh
  rw [List.mem_singleton.mp he, eligible_iff hkeys (List.mem_of_find?_eq_some hspace)
    (by decide) hscope] at heligible
  exact absurd heligible.2 (by decide)

end ClipTown.ModelSpace
