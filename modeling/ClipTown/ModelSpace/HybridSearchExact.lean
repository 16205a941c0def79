/-
  ClipTown.ModelSpace.HybridSearchExact — the PostgreSQL search function
  `cliptown.hybrid_search_v3_exact`
  (`embedding-contract/sql/postgres/hybrid-search-v3-exact.sql`).

  The function selects one comparison space, ranks semantic and lexical
  candidates of its document profile, unions their ids and scores the union.
  It looks at `enabled` of the SPACE only: the profiles, the retirement times
  and the identity columns that the foreign keys do not carry are never read.

    • `mem_scored` — a scored row is an unexpired embedding of the tenant that
      the selected space's document profile produced for that space,
    • `exists_hit` — an embedding of an enabled cosine space can be found,
    • `search_comparable` — in every run whose writes expose no stale or mixed
      space, a returned row was compared within one live model identity; and in
      any state this holds of all calls iff no such space is exposed;
      `search_mixed_models` is a run where one is.
-/
import ClipTown.Lib.CheckedArith
import ClipTown.Lib.RankFusion
import ClipTown.ModelSpace.Tables
import Mathlib.Algebra.Order.Ring.Rat
import Mathlib.Data.List.Dedup
import Mathlib.Data.Prod.Lex

namespace ClipTown.ModelSpace

open CanonicalOrder Embeddings RankFusion Relational Transitions

/-! ## §1. Calls and limits. -/

/-- The arguments of a call, each of which may be null, the session's tenant
(`current_tenant_id_v3()`) and the statement's `now()`. -/
structure SearchCall (Uuid Vec : Type) where
  tenant : Option Uuid
  now : Int
  spaceKey : Option String
  purpose : Option String
  queryEmbedding : Option Vec
  queryText : Option String
  requestedLimit : Option Int
  queryRole : Option String
  documentRole : Option String

/-- A value in the range of `INTEGER`; outside it the statement fails. -/
def int4? (i : Int) : Option Int := if -2 ^ 31 ≤ i ∧ i < 2 ^ 31 then some i else none

/-- `LEAST(limit::INTEGER, GREATEST(p_requested_limit*20, 100))`; `GREATEST`
ignores a null. -/
def candidateLimit (limit : Int) (requested : Option Int) : Option Nat :=
  match requested with
  -- `GREATEST(NULL, 100)` is 100
  | none => some (min limit 100).toNat
  | some r => (int4? (r * 20)).map (fun fanOut => (min limit (max fanOut 100)).toNat)

/-- `LEAST(result_limit::INTEGER, GREATEST(p_requested_limit, 1))`. -/
def resultLimit (limit : Int) (requested : Option Int) : Nat :=
  (min limit (max (requested.getD 1) 1)).toNat

/-! ## §2. The function. -/

section Search

variable {Uuid Vec Doc Query : Type} [LinearOrder Uuid]
  (pg : PgVector Vec) (ts : TextSearch Doc Query) (quotient : Int → ℚ)

/-- The generated column `search_document` of PostgreSQL. -/
def SemanticEmbedding.searchDocument (e : SemanticEmbedding Uuid Vec) : Doc :=
  let weighted := fun text weight => ts.setweight (ts.toTsvector text) weight
  ts.concat (ts.concat (ts.concat (ts.concat (weighted e.titleText 'A') (weighted e.tagText 'A'))
    (weighted e.bodyText 'B')) (weighted e.sourceAppText 'C')) (weighted e.entityKind 'D')

/-- The WHERE clause of `selected_space`, apart from the query vector. -/
def SearchCall.names (call : SearchCall Uuid Vec) (s : Space) : Bool :=
  call.spaceKey = some s.spaceKey && call.purpose = some s.purpose
    && call.queryRole = some s.queryRole && call.documentRole = some s.documentRole
    && s.distanceMetric = "cosine" && s.exactRerank && s.enabled

/-- The WHERE clause of `selected_space`. -/
def SearchCall.selects (call : SearchCall Uuid Vec) (s : Space) : Bool :=
  call.names s && call.queryEmbedding.any (fun qv => embeddingIsValid pg qv s.sourceDimensions)

/-- The CTE `selected_space`: at most one row, by the primary key. -/
def selectedSpace (db : Database Uuid Vec) (call : SearchCall Uuid Vec) : Option Space :=
  db.spaces.find? (fun s => call.selects pg s)

/-- `e.expires_at IS NULL OR e.expires_at > now()`. -/
def SemanticEmbedding.unexpired (e : SemanticEmbedding Uuid Vec) (now : Int) : Bool :=
  e.expiresAt.all (fun t => now < t)

/-- The join condition with the selected space. -/
def SemanticEmbedding.joins (e : SemanticEmbedding Uuid Vec) (s : Space) : Bool :=
  e.spaceKey = s.spaceKey && e.purpose = s.purpose && e.profileKey = s.documentProfileKey
    && e.inputRole = s.documentRole && e.sourceDimensions = s.sourceDimensions

/-- The rows both branches start from. -/
def branchScope (db : Database Uuid Vec) (call : SearchCall Uuid Vec) (s : Space) :
    List (SemanticEmbedding Uuid Vec) :=
  db.embeddings.filter (fun e =>
    e.joins s && call.tenant = some e.tenantId && e.unexpired call.now)

/-- `e.embedding <=> p_query_embedding`. -/
def distance (call : SearchCall Uuid Vec) (e : SemanticEmbedding Uuid Vec) : Option ℚ :=
  call.queryEmbedding.map (fun qv => pg.cosineDistance e.embedding qv)

/-- `ORDER BY e.embedding <=> p_query_embedding, e.embedding_id`. -/
def semanticKey (call : SearchCall Uuid Vec) (e : SemanticEmbedding Uuid Vec) :
    WithTop ℚ ×ₗ Uuid :=
  toLex (nullsLast (distance pg call e), e.embeddingId)

/-- The CTE `semantic_candidates`. -/
def semanticCandidates (db : Database Uuid Vec) (call : SearchCall Uuid Vec) (s : Space)
    (limit : Nat) : List (SemanticEmbedding Uuid Vec × Nat) :=
  (ranked (fun a b => semanticKey pg call a ≤ semanticKey pg call b) (branchScope db call s)).take
    limit

/-- `btrim(p_query_text) <> '' AND e.search_document @@ websearch_to_tsquery(…)`. -/
def matchesText (call : SearchCall Uuid Vec) (e : SemanticEmbedding Uuid Vec) : Bool :=
  call.queryText.any (fun q =>
    q.toList.any (fun c => c != ' ')
      && ts.isMatch (e.searchDocument ts) (ts.websearchToTsquery q))

/-- `ORDER BY ts_rank_cd(…) DESC, e.embedding_id`. -/
def lexicalOrder (call : SearchCall Uuid Vec) (e : SemanticEmbedding Uuid Vec) :
    (WithTop ℚ)ᵒᵈ ×ₗ Uuid :=
  toLex (descNullsFirst (call.queryText.map (fun q =>
    ts.tsRankCd (e.searchDocument ts) (ts.websearchToTsquery q))), e.embeddingId)

/-- The CTE `lexical_candidates`. -/
def lexicalMatches (db : Database Uuid Vec) (call : SearchCall Uuid Vec) (s : Space)
    (limit : Nat) : List (SemanticEmbedding Uuid Vec × Nat) :=
  (ranked (fun a b => lexicalOrder ts call a ≤ lexicalOrder ts call b)
    ((branchScope db call s).filter (fun e => matchesText ts call e))).take limit

/-- The rank of an id in a candidate list: the LEFT JOIN on `embedding_id`. -/
def rankOf (candidates : List (SemanticEmbedding Uuid Vec × Nat)) (id : Uuid) : Option Nat :=
  (candidates.find? (fun c => c.1.embeddingId = id)).map Prod.snd

/-- A row the function returns. -/
structure ScoredHit (Uuid : Type) where
  embeddingId : Uuid
  entityKind : String
  entityId : String
  semanticScore : Option ℚ
  semanticRank : Option Nat
  lexicalRank : Option Nat
  fusedScore : ℚ

/-- `COALESCE(1.0 / (fusion_k + rank), 0.0)`. -/
def fusionTerm (fusionK : Int) (rank : Option Nat) : ℚ :=
  (rank.map (fun r => quotient (fusionK + r))).getD 0

/-- The select list of the CTE `scored`. -/
def scoredHit (call : SearchCall Uuid Vec) (s : Space)
    (sem lex : List (SemanticEmbedding Uuid Vec × Nat)) (e : SemanticEmbedding Uuid Vec) :
    ScoredHit Uuid where
  embeddingId := e.embeddingId
  entityKind := e.entityKind
  entityId := e.entityId
  semanticScore := (distance pg call e).map (fun d => 1 - d)
  semanticRank := rankOf sem e.embeddingId
  lexicalRank := rankOf lex e.embeddingId
  fusedScore := fusionTerm quotient s.fusionK (rankOf sem e.embeddingId)
    + fusionTerm quotient s.fusionK (rankOf lex e.embeddingId)

/-- The CTE `candidate_ids`. -/
def candidateIds (sem lex : List (SemanticEmbedding Uuid Vec × Nat)) : List Uuid :=
  ((members sem).map SemanticEmbedding.embeddingId
    ++ (members lex).map SemanticEmbedding.embeddingId).dedup

/-- The rows the CTE `scored` reads: the tenant's rows of the candidate ids. -/
def scoredRows (db : Database Uuid Vec) (call : SearchCall Uuid Vec)
    (sem lex : List (SemanticEmbedding Uuid Vec × Nat)) : List (SemanticEmbedding Uuid Vec) :=
  (candidateIds sem lex).flatMap (fun id =>
    db.embeddings.filter (fun e => e.embeddingId = id && call.tenant = some e.tenantId))

/-- `ORDER BY fused_score DESC, semantic_score DESC, embedding_id`. -/
def scoredKey (h : ScoredHit Uuid) : ℚᵒᵈ ×ₗ (WithTop ℚ)ᵒᵈ ×ₗ Uuid :=
  toLex (OrderDual.toDual h.fusedScore, toLex (descNullsFirst h.semanticScore, h.embeddingId))

/-- `hybrid_search_v3_exact`; `none` when a limit is out of the range of
`INTEGER`, which fails the call. -/
def hybridSearchExact (db : Database Uuid Vec) (call : SearchCall Uuid Vec) :
    Option (List (ScoredHit Uuid)) :=
  match selectedSpace pg db call with
  -- no space: an empty result, not an error
  | none => some []
  | some s => do
      let semanticLimit ← candidateLimit s.semanticCandidateLimit call.requestedLimit
      let lexicalLimit ← candidateLimit s.lexicalCandidateLimit call.requestedLimit
      let sem := semanticCandidates pg db call s semanticLimit
      let lex := lexicalMatches ts db call s lexicalLimit
      let scored := (scoredRows db call sem lex).map (scoredHit pg quotient call s sem lex)
      return (canonical scoredKey scored).take (resultLimit s.resultLimit call.requestedLimit)

/-! ## §3. What a search returns. -/

variable {pg ts quotient} {db : Database Uuid Vec} {call : SearchCall Uuid Vec} {s : Space}

theorem mem_branchScope {e : SemanticEmbedding Uuid Vec} :
    e ∈ branchScope db call s ↔
      e ∈ db.embeddings ∧ e.joins s ∧ call.tenant = some e.tenantId ∧ e.unexpired call.now := by
  simp [branchScope, and_assoc]

omit [LinearOrder Uuid] in
theorem joins_iff {e : SemanticEmbedding Uuid Vec} :
    e.joins s ↔
      e.spaceKey = s.spaceKey ∧ e.purpose = s.purpose ∧ e.profileKey = s.documentProfileKey
        ∧ e.inputRole = s.documentRole ∧ e.sourceDimensions = s.sourceDimensions := by
  simp [SemanticEmbedding.joins, and_assoc]

/-- Both branches rank rows of the branch scope only. -/
theorem mem_branchScope_of_candidate {semanticLimit lexicalLimit : Nat}
    {e : SemanticEmbedding Uuid Vec}
    (h : e ∈ members (semanticCandidates pg db call s semanticLimit)
      ∨ e ∈ members (lexicalMatches ts db call s lexicalLimit)) : e ∈ branchScope db call s := by
  rcases h with h | h
  · exact mem_of_mem_take h
  · exact List.mem_of_mem_filter (mem_of_mem_take h)

theorem mem_candidateIds {sem lex : List (SemanticEmbedding Uuid Vec × Nat)} {id : Uuid} :
    id ∈ candidateIds sem lex ↔ ∃ e, (e ∈ members sem ∨ e ∈ members lex) ∧ e.embeddingId = id := by
  simp only [candidateIds, List.mem_dedup, List.mem_append, List.mem_map]
  constructor
  · intro h
    rcases h with ⟨e, he, hid⟩ | ⟨e, he, hid⟩
    · exact ⟨e, Or.inl he, hid⟩
    · exact ⟨e, Or.inr he, hid⟩
  · intro h
    obtain ⟨e, he | he, hid⟩ := h
    · exact Or.inl ⟨e, he, hid⟩
    · exact Or.inr ⟨e, he, hid⟩

/-- **The scored rows** are the candidates: the join back on the id finds
nothing else, as long as the candidates are rows of the tenant. -/
theorem mem_scoredRows (hdb : Consistent db) {sem lex : List (SemanticEmbedding Uuid Vec × Nat)}
    (hcand : ∀ e, e ∈ members sem ∨ e ∈ members lex →
      e ∈ db.embeddings ∧ call.tenant = some e.tenantId) {e : SemanticEmbedding Uuid Vec} :
    e ∈ scoredRows db call sem lex ↔ e ∈ members sem ∨ e ∈ members lex := by
  simp only [scoredRows, List.mem_flatMap, List.mem_filter, mem_candidateIds, Bool.and_eq_true,
    decide_eq_true_eq]
  constructor
  · intro h
    obtain ⟨id, ⟨e', he', hid'⟩, he, hid, _⟩ := h
    -- the id is the primary key, so the join back finds the candidate itself
    have hsame : e' = e := hdb.embeddingId.eq_of_key (hcand e' he').1 he (by rw [hid', hid])
    rw [← hsame]
    exact he'
  · intro h
    exact ⟨e.embeddingId, ⟨e, h, rfl⟩, (hcand e h).1, rfl, (hcand e h).2⟩

/-- The candidates of the two branches are rows of the tenant. -/
theorem candidate_of_tenant {semanticLimit lexicalLimit : Nat} {e : SemanticEmbedding Uuid Vec}
    (h : e ∈ members (semanticCandidates pg db call s semanticLimit)
      ∨ e ∈ members (lexicalMatches ts db call s lexicalLimit)) :
    e ∈ db.embeddings ∧ call.tenant = some e.tenantId := by
  have hscope := mem_branchScope.mp (mem_branchScope_of_candidate h)
  exact ⟨hscope.1, hscope.2.2.1⟩

/-- A returned row scores an unexpired embedding of the tenant that the selected
space's document profile produced for that space. -/
theorem exists_row_of_hit (hdb : Consistent db) {hits : List (ScoredHit Uuid)}
    (hsearch : hybridSearchExact pg ts quotient db call = some hits) {h : ScoredHit Uuid}
    (hh : h ∈ hits) :
    ∃ s, selectedSpace pg db call = some s
      ∧ ∃ e ∈ branchScope db call s, h.embeddingId = e.embeddingId := by
  unfold hybridSearchExact at hsearch
  split at hsearch
  · cases hsearch
    cases hh
  · rename_i s hs
    refine ⟨s, hs, ?_⟩
    simp only [Option.bind_eq_bind, Option.bind_eq_some_iff, Option.pure_def,
      Option.some.injEq] at hsearch
    obtain ⟨semanticLimit, _, lexicalLimit, _, rfl⟩ := hsearch
    -- ordering and the limit only drop rows
    have hmem := List.mem_of_mem_take hh
    rw [mem_canonical, List.mem_map] at hmem
    obtain ⟨e, he, rfl⟩ := hmem
    exact ⟨e, mem_branchScope_of_candidate
      ((mem_scoredRows hdb (fun _ => candidate_of_tenant)).mp he), rfl⟩

omit [LinearOrder Uuid] in
theorem names_iff :
    call.names s ↔
      call.spaceKey = some s.spaceKey ∧ call.purpose = some s.purpose
        ∧ call.queryRole = some s.queryRole ∧ call.documentRole = some s.documentRole
        ∧ s.distanceMetric = "cosine" ∧ s.exactRerank ∧ s.enabled := by
  simp [SearchCall.names, and_assoc]

omit [LinearOrder Uuid] in
theorem selects_iff :
    call.selects pg s ↔
      call.names s
        ∧ ∃ qv, call.queryEmbedding = some qv ∧ embeddingIsValid pg qv s.sourceDimensions := by
  cases hq : call.queryEmbedding <;> simp [SearchCall.selects, hq]

omit [LinearOrder Uuid] in
/-- The selected space is a row of the table that the call selects, and the only one. -/
theorem selectedSpace_eq_some (hdb : Consistent db) :
    selectedSpace pg db call = some s ↔ s ∈ db.spaces ∧ call.selects pg s := by
  constructor
  · intro h
    exact ⟨List.mem_of_find?_eq_some h, List.find?_some h⟩
  · intro h
    obtain ⟨hs, hselects⟩ := h
    cases hfind : selectedSpace pg db call with
    | none =>
        -- the row itself would have been found
        have hno := List.find?_eq_none.mp hfind s hs
        exact absurd hselects hno
    | some s' =>
        have hs' : s' ∈ db.spaces := List.mem_of_find?_eq_some hfind
        have hselects' : call.selects pg s' := List.find?_some hfind
        -- both have the key that the call names
        have hkey : s'.spaceKey = s.spaceKey := by
          have h₁ := (names_iff.mp (selects_iff.mp hselects).1).1
          have h₂ := (names_iff.mp (selects_iff.mp hselects').1).1
          rw [h₁] at h₂
          exact (Option.some.inj h₂).symm
        rw [hdb.spaceKey.eq_of_key hs' hs hkey]

/-! ## §4. An embedding of an enabled cosine space can be found. -/

/-- A space a call can search: enabled, cosine, with an embedding of its
document profile. -/
def Exposed (db : Database Uuid Vec) (s : Space) : Prop :=
  s.enabled ∧ s.distanceMetric = "cosine"
    ∧ ∃ e ∈ db.embeddings, e.spaceKey = s.spaceKey ∧ e.profileKey = s.documentProfileKey
        ∧ e.inputRole = s.documentRole

/-- The call that looks for an embedding with its own vector, just before it expires. -/
def SearchCall.finding (s : Space) (e : SemanticEmbedding Uuid Vec) : SearchCall Uuid Vec where
  tenant := some e.tenantId
  now := e.expiresAt.getD 0 - 1
  spaceKey := some s.spaceKey
  purpose := some s.purpose
  queryEmbedding := some e.embedding
  queryText := none
  requestedLimit := none
  queryRole := some s.queryRole
  documentRole := some s.documentRole

/-- With no requested limit, a positive limit stays positive. -/
theorem candidateLimit_none {limit : Int} (h : 1 ≤ limit) :
    ∃ n, candidateLimit limit none = some n ∧ 0 < n := by
  refine ⟨(min limit 100).toNat, rfl, ?_⟩
  omega

omit [LinearOrder Uuid] in
/-- The call that looks for an embedding selects its space. -/
theorem finding_selects {e : SemanticEmbedding Uuid Vec} (hs : s.RowValid) (he : e.RowValid pg)
    (henabled : s.enabled) (hmetric : s.distanceMetric = "cosine") (hfk : e.space = s.key) :
    (SearchCall.finding s e).selects pg s := by
  have hdims : e.sourceDimensions = s.sourceDimensions := congrArg SpaceRef.sourceDimensions hfk
  rw [selects_iff, names_iff]
  exact ⟨⟨rfl, rfl, rfl, rfl, hmetric, hs.exactRerank, henabled⟩, e.embedding, rfl,
    hdims ▸ he.vector⟩

/-- The embedding looked for is in the scope of both branches. -/
theorem mem_branchScope_finding {e : SemanticEmbedding Uuid Vec} (he : e ∈ db.embeddings)
    (hfk : e.space = s.key) (hprofile : e.profileKey = s.documentProfileKey)
    (hrole : e.inputRole = s.documentRole) : e ∈ branchScope db (.finding s e) s := by
  have hspace : e.spaceKey = s.spaceKey := congrArg SpaceRef.spaceKey hfk
  have hpurpose : e.purpose = s.purpose := congrArg SpaceRef.purpose hfk
  have hdims : e.sourceDimensions = s.sourceDimensions := congrArg SpaceRef.sourceDimensions hfk
  rw [mem_branchScope]
  refine ⟨he, ?_, rfl, ?_⟩
  · exact joins_iff.mpr ⟨hspace, hpurpose, hprofile, hrole, hdims⟩
  · unfold SemanticEmbedding.unexpired SearchCall.finding
    cases e.expiresAt with
    | none => rfl
    | some t => simp

/-- The result of a call that selects a space, within its limits. -/
theorem hybridSearchExact_eq {semanticLimit lexicalLimit : Nat}
    (hs : selectedSpace pg db call = some s)
    (hsem : candidateLimit s.semanticCandidateLimit call.requestedLimit = some semanticLimit)
    (hlex : candidateLimit s.lexicalCandidateLimit call.requestedLimit = some lexicalLimit) :
    hybridSearchExact pg ts quotient db call =
      some ((canonical scoredKey
        ((scoredRows db call (semanticCandidates pg db call s semanticLimit)
          (lexicalMatches ts db call s lexicalLimit)).map
          (scoredHit pg quotient call s (semanticCandidates pg db call s semanticLimit)
            (lexicalMatches ts db call s lexicalLimit)))).take
        (resultLimit s.resultLimit call.requestedLimit)) := by
  simp only [hybridSearchExact, hs, hsem, hlex, Option.bind_eq_bind, Option.bind_some,
    Option.pure_def]

/-- **What is exposed is found**: some call selects the space and returns a row. -/
theorem exists_hit (hdb : Postgres pg db) (hs : s ∈ db.spaces) (hexposed : Exposed db s) :
    ∃ call : SearchCall Uuid Vec, selectedSpace pg db call = some s
      ∧ ∃ hits, hybridSearchExact pg ts quotient db call = some hits ∧ ∃ h, h ∈ hits := by
  obtain ⟨hkeys, _, hspaces, hembeddings⟩ := hdb
  obtain ⟨henabled, hmetric, e, he, hspace, hprofile, hrole⟩ := hexposed
  have hsvalid := hspaces s hs
  have hfk := hkeys.space_of_embedding he hs hspace
  have hselected : selectedSpace pg db (.finding s e) = some s :=
    (selectedSpace_eq_some hkeys).mpr
      ⟨hs, finding_selects hsvalid (hembeddings e he) henabled hmetric hfk⟩
  obtain ⟨semanticLimit, hsem, hpos⟩ := candidateLimit_none hsvalid.semanticLimit.1
  obtain ⟨lexicalLimit, hlex, _⟩ := candidateLimit_none hsvalid.lexicalLimit.1
  refine ⟨.finding s e, hselected, _, hybridSearchExact_eq hselected hsem hlex, ?_⟩
  apply exists_mem_take
  · obtain ⟨e', he'⟩ :
        ∃ e', e' ∈ members (semanticCandidates pg db (.finding s e) s semanticLimit) :=
      exists_candidate _ (mem_branchScope_finding he hfk hprofile hrole) hpos
    have hrow : e' ∈ scoredRows db (.finding s e)
        (semanticCandidates pg db (.finding s e) s semanticLimit)
        (lexicalMatches ts db (.finding s e) s lexicalLimit) :=
      (mem_scoredRows hkeys (fun _ => candidate_of_tenant)).mpr (Or.inl he')
    intro hnil
    rw [← List.length_eq_zero_iff, (canonical_perm scoredKey _).length_eq,
      List.length_eq_zero_iff, List.map_eq_nil_iff] at hnil
    rw [hnil] at hrow
    exact List.not_mem_nil hrow
  · have hresult := hsvalid.resultLimit.1
    show 0 < (min s.resultLimit (max 1 1)).toNat
    omega

end Search

/-! ## §5. Comparison within one live model identity. -/

/-- Switched on and not retired. -/
def Profile.Live (p : Profile) : Prop := p.enabled ∧ p.retiredAt = none

/-- The identity columns that no foreign key carries. -/
def Profile.SameModel (q d : Profile) : Prop :=
  q.embeddingProvider = d.embeddingProvider ∧ q.model = d.model
    ∧ q.modelRevision = d.modelRevision ∧ q.normalization = d.normalization
    ∧ q.modality = d.modality

section Comparable

variable {Uuid Vec Doc Query : Type}

/-- The two profiles of a space are live and of one model, and the space is not
retired: what no constraint asks before a space is switched on. -/
def FitForUse (db : Database Uuid Vec) (s : Space) : Prop :=
  s.retiredAt = none
    ∧ ∃ q ∈ db.profiles, ∃ d ∈ db.profiles,
        q.profileKey = s.queryProfileKey ∧ d.profileKey = s.documentProfileKey
          ∧ q.Live ∧ d.Live ∧ q.SameModel d

/-- Every space a call can search is fit for use. -/
def ExposesOnlyFit (db : Database Uuid Vec) : Prop :=
  ∀ s ∈ db.spaces, Exposed db s → FitForUse db s

/-- The comparison a call makes stays within one live model identity. -/
structure Comparable (db : Database Uuid Vec) (s : Space) : Prop where
  enabled : s.enabled
  notRetired : s.retiredAt = none
  profiles : ∃ q ∈ db.profiles, ∃ d ∈ db.profiles,
    q.profileKey = s.queryProfileKey ∧ d.profileKey = s.documentProfileKey
      ∧ q.Live ∧ d.Live ∧ q.SameModel d
      ∧ q.sourceDimensions = d.sourceDimensions ∧ q.distanceMetric = d.distanceMetric

/-- The foreign keys make the dimensions and the metric of the two profiles agree. -/
theorem comparable_of_fitForUse {db : Database Uuid Vec} (hdb : Consistent db) {s : Space}
    (hs : s ∈ db.spaces) (henabled : s.enabled) (hfit : FitForUse db s) : Comparable db s := by
  obtain ⟨hretired, q, hq, d, hd, hqkey, hdkey, hqlive, hdlive, hsame⟩ := hfit
  obtain ⟨q', hq', d', hd', hqref, hdref⟩ := hdb.profiles_of_space hs
  -- the profiles the foreign keys lead to are the two that are fit
  have hqeq : q' = q := hdb.profileKey.eq_of_key hq' hq
    ((congrArg ProfileRef.profileKey hqref).trans hqkey.symm)
  have hdeq : d' = d := hdb.profileKey.eq_of_key hd' hd
    ((congrArg ProfileRef.profileKey hdref).trans hdkey.symm)
  rw [hqeq] at hqref
  rw [hdeq] at hdref
  have hdims : q.sourceDimensions = d.sourceDimensions :=
    (congrArg ProfileRef.sourceDimensions hqref).trans
      (congrArg ProfileRef.sourceDimensions hdref).symm
  have hmetric : q.distanceMetric = d.distanceMetric :=
    (congrArg ProfileRef.distanceMetric hqref).trans
      (congrArg ProfileRef.distanceMetric hdref).symm
  exact ⟨henabled, hretired, q, hq, d, hd, hqkey, hdkey, hqlive, hdlive, hsame, hdims, hmetric⟩

instance (p : Profile) : Decidable p.Live := by unfold Profile.Live; infer_instance

instance (q d : Profile) : Decidable (q.SameModel d) := by
  unfold Profile.SameModel; infer_instance

instance (db : Database Uuid Vec) (s : Space) : Decidable (Exposed db s) := by
  unfold Exposed; infer_instance

instance (db : Database Uuid Vec) (s : Space) : Decidable (FitForUse db s) := by
  unfold FitForUse; infer_instance

instance (db : Database Uuid Vec) : Decidable (ExposesOnlyFit db) := by
  unfold ExposesOnlyFit; infer_instance

variable [LinearOrder Uuid] (pg : PgVector Vec) (ts : TextSearch Doc Query) (quotient : Int → ℚ)

/-- Every row that a call returns was compared within one live model identity. -/
def ComparesWithin (db : Database Uuid Vec) : Prop :=
  ∀ (call : SearchCall Uuid Vec) (hits : List (ScoredHit Uuid)),
    hybridSearchExact pg ts quotient db call = some hits → ∀ h ∈ hits,
      ∃ s, selectedSpace pg db call = some s ∧ Comparable db s

/-- **One state.**  All calls compare within one live model identity iff every
space that a call can search is fit for use. -/
theorem comparesWithin_iff {db : Database Uuid Vec} (hdb : Postgres pg db) :
    ComparesWithin pg ts quotient db ↔ ExposesOnlyFit db := by
  have hkeys : Consistent db := hdb.1
  constructor
  · intro h s hs hexposed
    obtain ⟨call, hselected, hits, hsearch, hit, hhit⟩ := exists_hit hdb hs hexposed
    obtain ⟨s', hselected', hcomparable⟩ := h call hits hsearch hit hhit
    rw [hselected, Option.some.injEq] at hselected'
    rw [← hselected'] at hcomparable
    obtain ⟨_, hretired, q, hq, d, hd, hqkey, hdkey, hqlive, hdlive, hsame, _, _⟩ := hcomparable
    exact ⟨hretired, q, hq, d, hd, hqkey, hdkey, hqlive, hdlive, hsame⟩
  · intro h call hits hsearch hit hhit
    -- a returned row is an embedding that exposes the selected space
    obtain ⟨s, hselected, e, hscope, _⟩ := exists_row_of_hit hkeys hsearch hhit
    obtain ⟨hs, hselects⟩ := (selectedSpace_eq_some hkeys).mp hselected
    obtain ⟨_, _, _, _, hmetric, _, henabled⟩ := names_iff.mp (selects_iff.mp hselects).1
    obtain ⟨he, hjoins, _, _⟩ := mem_branchScope.mp hscope
    obtain ⟨hspace, _, hprofile, hrole, _⟩ := joins_iff.mp hjoins
    have hexposed : Exposed db s := ⟨henabled, hmetric, e, he, hspace, hprofile, hrole⟩
    exact ⟨s, hselected, comparable_of_fitForUse hkeys hs henabled (h s hs hexposed)⟩

/-- A write that leaves no searchable space unfit for use. -/
def WriteFits (db : Database Uuid Vec) (w : Write Uuid Vec) : Prop := ExposesOnlyFit (db.write w)

omit [LinearOrder Uuid] in
/-- Deleting spaces or embeddings exposes nothing new. -/
theorem writeFits_delete {db : Database Uuid Vec} (h : ExposesOnlyFit db) :
    (∀ which, WriteFits db (.spaces (.delete which)))
      ∧ ∀ which, WriteFits db (.embeddings (.delete which)) := by
  refine ⟨?_, ?_⟩
  · intro which s hs hexposed
    exact h s (Statement.apply_delete_subset which _ hs) hexposed
  · intro which s hs hexposed
    obtain ⟨henabled, hmetric, e, he, hrest⟩ := hexposed
    exact h s hs ⟨henabled, hmetric, e, Statement.apply_delete_subset which _ he, hrest⟩

/-- **Every run.**  In a run whose writes leave no searchable space unfit for
use, every row that any call returns was compared within one live model
identity; and a reachable state has that property iff no searchable space is
unfit. -/
theorem search_comparable (db : Database Uuid Vec) :
    ((writes pg).ReachableBy WriteFits db → ComparesWithin pg ts quotient db)
      ∧ ((writes pg).Reachable db → (ComparesWithin pg ts quotient db ↔ ExposesOnlyFit db)) := by
  refine ⟨?_, ?_⟩
  · intro h
    have hfit : ExposesOnlyFit db := by
      apply System.ReachableBy.invariant _ _ h
      · intro db hdb s hs
        -- no space is there before the first write
        rw [show db = ⟨[], [], []⟩ from hdb] at hs
        exact absurd hs List.not_mem_nil
      · intro db w db' _ hw hstep
        obtain ⟨_, heq⟩ := System.guarded_step_eq_some.mp hstep
        rw [heq]
        exact hw
    exact (comparesWithin_iff pg ts quotient (postgres_of_reachable pg h.reachable)).mpr hfit
  · intro h
    exact comparesWithin_iff pg ts quotient (postgres_of_reachable pg h)

end Comparable

/-! ## §6. A run that mixes models. -/

/-- A profile of the engine's own test, of a model and on or off. -/
def sampleProfile (key role model : String) (enabled : Bool) : Profile where
  profileKey := key
  embeddingProvider := "openai"
  generationProvider := none
  model := model
  modelRevision := "test"
  sourceDimensions := 2
  storageDimensions := 4100
  normalization := "provider"
  taskProfile := "test"
  instructionFamily := "default"
  instructionSha256 := "0000000000000000000000000000000000000000000000000000000000000000"
  preprocessingSha256 := "1111111111111111111111111111111111111111111111111111111111111111"
  inputRole := role
  modality := "text"
  distanceMetric := "cosine"
  annStrategy := "exact-only"
  annDimensions := 0
  supportsMrl := false
  enabled := enabled
  retiredAt := none

/-- The two profiles, of the given document model. -/
def sampleProfiles (model : String) (enabled : Bool) : List Profile :=
  [sampleProfile "cliptown:test:query" "query" "text-embedding-3-small" enabled,
    sampleProfile "cliptown:test:document" "document" model enabled]

/-- The space of the engine's own test. -/
def sampleSpace : Space where
  spaceKey := "cliptown:test:space:v3"
  purpose := "clip_search"
  queryProfileKey := "cliptown:test:query"
  queryRole := "query"
  documentProfileKey := "cliptown:test:document"
  documentRole := "document"
  sourceDimensions := 2
  distanceMetric := "cosine"
  lexicalCandidateLimit := 100
  semanticCandidateLimit := 100
  resultLimit := 25
  fusionK := 60
  exactRerank := true
  enabled := true
  retiredAt := none

/-- A document embedding of that space. -/
def sampleEmbedding : SemanticEmbedding Nat SampleVec where
  embeddingId := 101
  tenantId := 1
  entityKind := "item"
  entityId := "lexical-only"
  purpose := "clip_search"
  profileKey := "cliptown:test:document"
  inputRole := "document"
  spaceKey := "cliptown:test:space:v3"
  queryProfileKey := "cliptown:test:query"
  queryRole := "query"
  documentProfileKey := "cliptown:test:document"
  documentRole := "document"
  sourceDimensions := 2
  storageDimensions := 4100
  distanceMetric := "cosine"
  embedding := .unit
  titleText := "rare exact phrase"
  tagText := ""
  bodyText := ""
  sourceAppText := ""
  contentSha256 := "bbbbbbbbbbbbbbbbbbbbbbbbbbbbbbbbbbbbbbbbbbbbbbbbbbbbbbbbbbbbbbbb"
  sourceRevision := "1"
  expiresAt := none

/-- The state after the three writes of the sample run. -/
def sampleDatabase (model : String) (enabled : Bool) : Database Nat SampleVec :=
  ⟨sampleProfiles model enabled, [sampleSpace], [sampleEmbedding]⟩

/-- The search of the sample run. -/
def sampleSearch : SearchCall Nat SampleVec where
  tenant := some 1
  now := 0
  spaceKey := some "cliptown:test:space:v3"
  purpose := some "clip_search"
  queryEmbedding := some .unit
  queryText := some "rare exact phrase"
  requestedLimit := some 10
  queryRole := some "query"
  documentRole := some "document"

/-- Three accepted writes: the profiles, the space, the embedding. -/
theorem sampleDatabase_reachable {P : Database Nat SampleVec → Write Nat SampleVec → Prop}
    {model : String} {enabled : Bool}
    (h₁ : P ⟨[], [], []⟩ (.profiles (.insert (sampleProfiles model enabled))))
    (h₂ : P ⟨sampleProfiles model enabled, [], []⟩ (.spaces (.insert [sampleSpace])))
    (h₃ : P ⟨sampleProfiles model enabled, [sampleSpace], []⟩
      (.embeddings (.insert [sampleEmbedding])))
    (hok₁ : Postgres samplePg (⟨sampleProfiles model enabled, [], []⟩ : Database Nat SampleVec))
    (hok₂ : Postgres samplePg
      (⟨sampleProfiles model enabled, [sampleSpace], []⟩ : Database Nat SampleVec))
    (hok₃ : Postgres samplePg (sampleDatabase model enabled)) :
    (writes samplePg).ReachableBy P (sampleDatabase model enabled) :=
  .step (.step (.step (.init rfl) h₁ (System.guarded_step_eq_some.mpr ⟨hok₁, rfl⟩)) h₂
    (System.guarded_step_eq_some.mpr ⟨hok₂, rfl⟩)) h₃ (System.guarded_step_eq_some.mpr ⟨hok₃, rfl⟩)

/-- With two live profiles of one model, the run keeps the comparison within it. -/
theorem search_comparable_sample :
    ComparesWithin samplePg sampleTextSearch (fun n => 1 / n)
      (sampleDatabase "text-embedding-3-small" true) :=
  (search_comparable samplePg sampleTextSearch (fun n => 1 / n)
    (sampleDatabase "text-embedding-3-small" true)).1
    (sampleDatabase_reachable (show ExposesOnlyFit _ by decide)
      (show ExposesOnlyFit _ by decide) (show ExposesOnlyFit _ by decide)
      (by decide +kernel) (by decide +kernel) (by decide +kernel))

/-- The constraints accept an enabled space over two disabled profiles of
different models, and the search compares across them. -/
theorem search_mixed_models :
    (writes samplePg).Reachable (sampleDatabase "text-embedding-3-large" false)
      ∧ (hybridSearchExact samplePg sampleTextSearch (fun n => 1 / n)
          (sampleDatabase "text-embedding-3-large" false) sampleSearch).map
          (fun hits => hits.map ScoredHit.embeddingId) = some [101]
      ∧ ¬ ComparesWithin samplePg sampleTextSearch (fun n => 1 / n)
          (sampleDatabase "text-embedding-3-large" false) := by
  have hok : Postgres samplePg (sampleDatabase "text-embedding-3-large" false) := by
    decide +kernel
  refine ⟨?_, by decide +kernel, ?_⟩
  · exact sampleDatabase_reachable trivial trivial trivial (by decide) (by decide)
      hok
  · rw [comparesWithin_iff samplePg sampleTextSearch (fun n => 1 / n) hok]
    decide

end ClipTown.ModelSpace
