/-
  ClipTown.Embeddings.Dedupe — near-duplicates in `cliptown.clip_embeddings`
  (`db/queries/dedupe_candidates.sql`).

  Rows with the asked content hash and rows at the asked cosine similarity are put
  together by a UNION, which compares whole rows: one that qualifies by both has two
  copies, of two match kinds, and each takes a place of the fifty.

    • `dedupeCandidates_iff` — every row once, and none of at most fifty left out, iff
      the second copy of every such row is beyond the limit,
    • `dedupeCandidates_twice` — a row that is returned twice.
-/
import Mathlib.Data.List.Dedup
import ClipTown.Embeddings.HybridSearch

namespace ClipTown.Embeddings

open CanonicalOrder RankFusion Relational

/-! ## §1. Parameters. -/

/-- The bind parameters `$1` to `$6`, each of which may be null. -/
structure DedupeParams (Uuid Vec : Type) where
  tenant : Option Uuid
  modelKey : Option String
  candidateEmbedding : Option Vec
  contentSha256 : Option String
  similarityThreshold : Option ℚ
  candidateCount : Option Int

/-- `coalesce($5, 0.95)`. -/
def DedupeParams.threshold {Uuid Vec : Type} (p : DedupeParams Uuid Vec) : ℚ :=
  p.similarityThreshold.getD (95 / 100)

/-- `greatest(coalesce($6, 400), 1)`. -/
def DedupeParams.candidates {Uuid Vec : Type} (p : DedupeParams Uuid Vec) : Nat :=
  countOrDefault 400 p.candidateCount

/-- The column `match_kind`. -/
inductive MatchKind
  | contentSha256
  | cosine
  deriving DecidableEq

/-- There are no more than two. -/
theorem MatchKind.eq_or_eq {k k' : MatchKind} (h : k ≠ k') (a : MatchKind) : a = k ∨ a = k' := by
  cases k <;> cases k' <;> cases a <;> simp_all

/-- A row of `exact_match` or `semantic_match`. -/
structure Duplicate (Uuid : Type) where
  id : Uuid
  entityKind : String
  entityId : Uuid
  similarity : ℚ
  matchKind : MatchKind
  deriving DecidableEq

/-! ## §2. The query. -/

section Query

variable {Uuid Vec Json : Type} [LinearOrder Uuid] (pg : PgVector Vec)

/-- `e.account_id = s.tenant and e.model_key = s.model_key`. -/
def DedupeParams.inScope (p : DedupeParams Uuid Vec) (e : ClipEmbedding Uuid Vec Json) : Bool :=
  p.tenant = some e.accountId && p.modelKey = some e.modelKey

/-- The WHERE clause of `exact_match`. -/
def DedupeParams.hasContent (p : DedupeParams Uuid Vec) (e : ClipEmbedding Uuid Vec Json) : Bool :=
  p.inScope e && p.contentSha256 = some e.contentSha256

/-- The select list of `exact_match`. -/
def exactCopy (e : ClipEmbedding Uuid Vec Json) : Duplicate Uuid where
  id := e.id
  entityKind := e.entityKind
  entityId := e.entityId
  similarity := 1
  matchKind := .contentSha256

/-- The CTE `exact_match`. -/
def exactMatch (p : DedupeParams Uuid Vec) (table : List (ClipEmbedding Uuid Vec Json)) :
    List (Duplicate Uuid) :=
  (table.filter p.hasContent).map exactCopy

/-- The stage-1 distance to a query vector, which may be null. -/
def stageOneDistance (qv : Option Vec) (e : ClipEmbedding Uuid Vec Json) : Option ℚ :=
  qv.map (fun qv =>
    if e.mrlPrefixValid then
      pg.halfvecDistance (pg.subvector e.embedding 1 1024) (pg.subvector qv 1 1024)
    else
      pg.hammingDistance e.embedding qv)

/-- The CTE `candidates`; rows at one distance stay in scan order. -/
def dedupeNearest (p : DedupeParams Uuid Vec) (table : List (ClipEmbedding Uuid Vec Json)) :
    List Uuid :=
  (((table.filter p.inScope).mergeSort (fun a b =>
    nullsLast (stageOneDistance pg p.candidateEmbedding a)
      ≤ nullsLast (stageOneDistance pg p.candidateEmbedding b))).take p.candidates).map
    ClipEmbedding.id

/-- `1 - (e.embedding <=> qv)`. -/
def similarity (qv : Option Vec) (e : ClipEmbedding Uuid Vec Json) : Option ℚ :=
  qv.map (fun qv => 1 - pg.cosineDistance e.embedding qv)

/-- The WHERE clause and the select list of `semantic_match`, on one row. -/
def cosineCopy (p : DedupeParams Uuid Vec) (e : ClipEmbedding Uuid Vec Json) :
    Option (Duplicate Uuid) :=
  (similarity pg p.candidateEmbedding e).bind (fun similarity =>
    if p.threshold ≤ similarity then
      some {
        id := e.id
        entityKind := e.entityKind
        entityId := e.entityId
        similarity := similarity
        matchKind := .cosine }
    else none)

/-- The CTE `semantic_match`. -/
def semanticMatch (p : DedupeParams Uuid Vec) (table : List (ClipEmbedding Uuid Vec Json)) :
    List (Duplicate Uuid) :=
  (dedupeNearest pg p table).flatMap (fun id =>
    (table.filter (fun e => e.id = id)).filterMap (cosineCopy pg p))

/-- The operands of the UNION. -/
def copies (p : DedupeParams Uuid Vec) (table : List (ClipEmbedding Uuid Vec Json)) :
    List (Duplicate Uuid) :=
  exactMatch p table ++ semanticMatch pg p table

/-- `order by similarity desc, id`. -/
def duplicateKey (d : Duplicate Uuid) : ℚᵒᵈ ×ₗ Uuid := toLex (OrderDual.toDual d.similarity, d.id)

/-- `dedupe_candidates.sql`: the UNION, its order and its limit. -/
def dedupeCandidates (p : DedupeParams Uuid Vec) (table : List (ClipEmbedding Uuid Vec Json)) :
    List (Duplicate Uuid) :=
  (canonical duplicateKey (copies pg p table).dedup).take 50

/-! ## §3. What is asked of the result. -/

/-- The row is among the candidates and at the asked similarity. -/
def DedupeParams.isNear (p : DedupeParams Uuid Vec) (table : List (ClipEmbedding Uuid Vec Json))
    (e : ClipEmbedding Uuid Vec Json) : Bool :=
  (dedupeNearest pg p table).contains e.id
    && (similarity pg p.candidateEmbedding e).any (fun c => p.threshold ≤ c)

/-- The row qualifies, by its content or by its similarity. -/
def DedupeParams.qualifies (p : DedupeParams Uuid Vec) (table : List (ClipEmbedding Uuid Vec Json))
    (e : ClipEmbedding Uuid Vec Json) : Bool :=
  p.hasContent e || p.isNear pg table e

/-- Every row comes back once, and where at most fifty qualify, all do. -/
structure EachOnce (p : DedupeParams Uuid Vec) (table : List (ClipEmbedding Uuid Vec Json)) :
    Prop where
  once : ((dedupeCandidates pg p table).map Duplicate.id).Nodup
  complete : (table.filter (p.qualifies pg table)).length ≤ 50 →
    ∀ e ∈ table, p.qualifies pg table e → e.id ∈ (dedupeCandidates pg p table).map Duplicate.id

/-- Fifty copies of qualifying rows, one for each way to qualify, come before the second
copy of each row that qualifies both ways. -/
def SecondCopiesCut (p : DedupeParams Uuid Vec) (table : List (ClipEmbedding Uuid Vec Json)) :
    Prop :=
  ∀ e ∈ table, p.hasContent e → p.isNear pg table e →
    ∀ c, similarity pg p.candidateEmbedding e = some c →
      50 < upTo duplicateKey (copies pg p table) (toLex (OrderDual.toDual (min 1 c), e.id))

variable {pg} {p : DedupeParams Uuid Vec} {table : List (ClipEmbedding Uuid Vec Json)}

/-! ## §4. The copies. -/

theorem mem_exactMatch {d : Duplicate Uuid} :
    d ∈ exactMatch p table ↔ ∃ e ∈ table, p.hasContent e ∧ exactCopy e = d := by
  unfold exactMatch
  rw [List.mem_map]
  simp only [List.mem_filter, and_assoc]

omit [LinearOrder Uuid] in
theorem cosineCopy_eq_some {e : ClipEmbedding Uuid Vec Json} {d : Duplicate Uuid} :
    cosineCopy pg p e = some d ↔ ∃ c, similarity pg p.candidateEmbedding e = some c
      ∧ p.threshold ≤ c ∧ d = ⟨e.id, e.entityKind, e.entityId, c, .cosine⟩ := by
  unfold cosineCopy
  rw [Option.bind_eq_some_iff]
  apply exists_congr
  intro c
  apply and_congr_right
  intro _
  split
  · rename_i hle
    rw [Option.some.injEq, eq_comm]
    exact (and_iff_right hle).symm
  · rename_i hlt
    exact iff_of_false (by simp) fun h => hlt h.1

theorem mem_semanticMatch {d : Duplicate Uuid} :
    d ∈ semanticMatch pg p table ↔
      ∃ e ∈ table, p.isNear pg table e ∧ cosineCopy pg p e = some d := by
  unfold semanticMatch DedupeParams.isNear
  simp only [List.mem_flatMap, List.mem_filterMap, List.mem_filter, decide_eq_true_iff,
    Bool.and_eq_true, List.contains_iff_mem]
  constructor
  · intro h
    obtain ⟨id, hid, e, ⟨he, rfl⟩, hcopy⟩ := h
    obtain ⟨c, hc, hle, -⟩ := cosineCopy_eq_some.mp hcopy
    refine ⟨e, he, ⟨hid, ?_⟩, hcopy⟩
    rw [hc]
    exact decide_eq_true hle
  · intro h
    obtain ⟨e, he, ⟨hid, -⟩, hcopy⟩ := h
    exact ⟨e.id, hid, e, ⟨he, rfl⟩, hcopy⟩

theorem kind_of_exactMatch {d : Duplicate Uuid} (h : d ∈ exactMatch p table) :
    d.matchKind = .contentSha256 := by
  obtain ⟨e, -, -, rfl⟩ := mem_exactMatch.mp h
  rfl

theorem kind_of_semanticMatch {d : Duplicate Uuid} (h : d ∈ semanticMatch pg p table) :
    d.matchKind = .cosine := by
  obtain ⟨e, -, -, hcopy⟩ := mem_semanticMatch.mp h
  obtain ⟨c, -, -, rfl⟩ := cosineCopy_eq_some.mp hcopy
  rfl

theorem nodup_ids_exactMatch (hpk : Unique ClipEmbedding.id table) :
    ((exactMatch p table).map Duplicate.id).Nodup := by
  unfold exactMatch
  rw [List.map_map]
  exact hpk.sublist (List.filter_sublist.map ClipEmbedding.id)

/-- The nearest rows have distinct ids. -/
theorem nodup_dedupeNearest (hpk : Unique ClipEmbedding.id table) :
    (dedupeNearest pg p table).Nodup := by
  have hids : ((table.filter p.inScope).map ClipEmbedding.id).Nodup :=
    hpk.sublist (List.filter_sublist.map ClipEmbedding.id)
  unfold dedupeNearest
  rw [← members_take_ranked]
  exact nodup_members_take hids _ _

theorem nodup_ids_semanticMatch (hpk : Unique ClipEmbedding.id table) :
    ((semanticMatch pg p table).map Duplicate.id).Nodup := by
  have hcopy : ∀ (e : ClipEmbedding Uuid Vec Json) d, cosineCopy pg p e = some d →
      d.id = e.id := by
    intro e d hd
    obtain ⟨c, -, -, rfl⟩ := cosineCopy_eq_some.mp hd
    rfl
  refine (nodup_dedupeNearest hpk).sublist (map_flatMap_sublist ?_)
  intro id _
  have hfound := hpk.map_filter_sublist id fun _ => true
  simp only [Bool.and_true] at hfound
  exact (map_filterMap_sublist hcopy _).trans hfound

/-- Copies of one row by one tier are one. -/
theorem copy_eq (hpk : Unique ClipEmbedding.id table) {d d' : Duplicate Uuid}
    (hd : d ∈ copies pg p table) (hd' : d' ∈ copies pg p table) (hid : d.id = d'.id)
    (hkind : d.matchKind = d'.matchKind) : d = d' := by
  rcases List.mem_append.mp hd with h | h <;> rcases List.mem_append.mp hd' with h' | h'
  · exact List.inj_on_of_nodup_map (nodup_ids_exactMatch hpk) h h' hid
  · rw [kind_of_exactMatch h, kind_of_semanticMatch h'] at hkind
    cases hkind
  · rw [kind_of_semanticMatch h, kind_of_exactMatch h'] at hkind
    cases hkind
  · exact List.inj_on_of_nodup_map (nodup_ids_semanticMatch hpk) h h' hid

theorem nodup_copies (hpk : Unique ClipEmbedding.id table) : (copies pg p table).Nodup := by
  refine (nodup_ids_exactMatch hpk).of_map.append (nodup_ids_semanticMatch hpk).of_map ?_
  intro d hd hd'
  have hkind := kind_of_exactMatch hd
  rw [kind_of_semanticMatch hd'] at hkind
  cases hkind

theorem exactCopy_mem {e : ClipEmbedding Uuid Vec Json} (he : e ∈ table)
    (h : p.hasContent e = true) : exactCopy e ∈ copies pg p table :=
  List.mem_append_left _ (mem_exactMatch.mpr ⟨e, he, h, rfl⟩)

theorem cosineCopy_mem {e : ClipEmbedding Uuid Vec Json} (he : e ∈ table)
    (h : p.isNear pg table e = true) {c : ℚ} (hc : similarity pg p.candidateEmbedding e = some c) :
    ⟨e.id, e.entityKind, e.entityId, c, .cosine⟩ ∈ copies pg p table := by
  have hnear := h
  unfold DedupeParams.isNear at hnear
  rw [hc, Option.any_some, Bool.and_eq_true, decide_eq_true_iff] at hnear
  exact List.mem_append_right _ (mem_semanticMatch.mpr
    ⟨e, he, h, cosineCopy_eq_some.mpr ⟨c, hc, hnear.2, rfl⟩⟩)

/-- A copy is one of a qualifying row. -/
theorem exists_row_of_copy {d : Duplicate Uuid} (hd : d ∈ copies pg p table) :
    ∃ e ∈ table, p.qualifies pg table e = true ∧ e.id = d.id := by
  unfold DedupeParams.qualifies
  rcases List.mem_append.mp hd with h | h
  · obtain ⟨e, he, hcontent, rfl⟩ := mem_exactMatch.mp h
    exact ⟨e, he, by rw [hcontent, Bool.true_or], rfl⟩
  · obtain ⟨e, he, hnear, hcopy⟩ := mem_semanticMatch.mp h
    obtain ⟨c, -, -, rfl⟩ := cosineCopy_eq_some.mp hcopy
    exact ⟨e, he, by rw [hnear, Bool.or_true], rfl⟩

/-- A qualifying row has a copy. -/
theorem exists_copy_of_row {e : ClipEmbedding Uuid Vec Json} (he : e ∈ table)
    (h : p.qualifies pg table e = true) : ∃ d ∈ copies pg p table, d.id = e.id := by
  unfold DedupeParams.qualifies at h
  rw [Bool.or_eq_true] at h
  rcases h with hcontent | hnear
  · exact ⟨_, exactCopy_mem he hcontent, rfl⟩
  · have hany := hnear
    unfold DedupeParams.isNear at hany
    rw [Bool.and_eq_true] at hany
    cases hc : similarity pg p.candidateEmbedding e with
    | none =>
        rw [hc] at hany
        cases hany.2
    | some c => exact ⟨_, cosineCopy_mem he hnear hc, rfl⟩

/-! ## §5. The limit. -/

/-- The copies in the final order. -/
def orderedCopies (pg : PgVector Vec) (p : DedupeParams Uuid Vec)
    (table : List (ClipEmbedding Uuid Vec Json)) : List (Duplicate Uuid) :=
  canonical duplicateKey (copies pg p table)

/-- The UNION removes nothing: the two copies of a row are of two kinds. -/
theorem dedupeCandidates_eq (hpk : Unique ClipEmbedding.id table) :
    dedupeCandidates pg p table = (orderedCopies pg p table).take 50 := by
  unfold dedupeCandidates orderedCopies
  rw [(nodup_copies hpk).dedup]

theorem orderedCopies_perm : (orderedCopies pg p table).Perm (copies pg p table) :=
  canonical_perm duplicateKey (copies pg p table)

theorem mem_orderedCopies {d : Duplicate Uuid} :
    d ∈ orderedCopies pg p table ↔ d ∈ copies pg p table :=
  mem_canonical duplicateKey

theorem orderedCopies_sorted :
    (orderedCopies pg p table).Pairwise fun d d' => duplicateKey d ≤ duplicateKey d' :=
  canonical_pairwise_le duplicateKey _

theorem duplicateKey_le {s s' : ℚ} (h : s' ≤ s) (id : Uuid) :
    (toLex (OrderDual.toDual s, id) : ℚᵒᵈ ×ₗ Uuid) ≤ toLex (OrderDual.toDual s', id) :=
  Prod.Lex.toLex_mono ⟨OrderDual.toDual_le_toDual.mpr h, le_rfl⟩

/-- **A second copy within the limit is returned with the first.** -/
theorem cut_of_once (hpk : Unique ClipEmbedding.id table)
    (honce : ((dedupeCandidates pg p table).map Duplicate.id).Nodup) :
    SecondCopiesCut pg p table := by
  intro e he hcontent hnear c hc
  by_contra hreach
  rw [not_lt] at hreach
  have hperm : upTo duplicateKey (orderedCopies pg p table)
      (toLex (OrderDual.toDual (min 1 c), e.id)) ≤ 50 := by
    rw [upTo_perm orderedCopies_perm]
    exact hreach
  rw [dedupeCandidates_eq hpk] at honce
  have hexact := mem_take_of_upTo orderedCopies_sorted
    (mem_orderedCopies.mpr (exactCopy_mem he hcontent)) (duplicateKey_le (min_le_left 1 c) e.id)
    hperm
  have hcosine := mem_take_of_upTo orderedCopies_sorted
    (mem_orderedCopies.mpr (cosineCopy_mem he hnear hc)) (duplicateKey_le (min_le_right 1 c) e.id)
    hperm
  have heq := congrArg Duplicate.matchKind (List.inj_on_of_nodup_map honce hexact hcosine rfl)
  cases heq

/-- Beyond the limit no copy has the key of the second copy of a row that is within it
twice: the row has no third one. -/
theorem key_lt_of_drop (hpk : Unique ClipEmbedding.id table) {d d' : Duplicate Uuid}
    (hd : d ∈ (orderedCopies pg p table).take 50) (hd' : d' ∈ (orderedCopies pg p table).take 50)
    (hid : d.id = d'.id) (hkind : d.matchKind ≠ d'.matchKind) {b : Duplicate Uuid}
    (hb : b ∈ (orderedCopies pg p table).drop 50) :
    toLex (OrderDual.toDual (min d.similarity d'.similarity), d.id) < duplicateKey b := by
  have hsorted : (orderedCopies pg p table).Pairwise
      fun d d' => duplicateKey d ≤ duplicateKey d' := orderedCopies_sorted
  have hnodup : (orderedCopies pg p table).Nodup :=
    orderedCopies_perm.nodup_iff.mpr (nodup_copies hpk)
  rw [← List.take_append_drop 50 (orderedCopies pg p table)] at hsorted hnodup
  rw [List.pairwise_append] at hsorted
  have hle : toLex (OrderDual.toDual (min d.similarity d'.similarity), d.id) ≤ duplicateKey b := by
    rcases min_choice d.similarity d'.similarity with hmin | hmin
    · rw [hmin]
      exact hsorted.2.2 d hd b hb
    · rw [hmin, hid]
      exact hsorted.2.2 d' hd' b hb
  refine lt_of_le_of_ne hle fun heq => ?_
  have hbid : b.id = d.id := (congrArg (fun key => (ofLex key).2) heq).symm
  have hcopy : ∀ {a}, a ∈ (orderedCopies pg p table).take 50 → a ∈ copies pg p table :=
    fun ha => mem_orderedCopies.mp (List.mem_of_mem_take ha)
  have hbcopy : b ∈ copies pg p table := mem_orderedCopies.mp (List.mem_of_mem_drop hb)
  have hone : b = d ∨ b = d' := by
    rcases MatchKind.eq_or_eq hkind b.matchKind with hk | hk
    · exact .inl (copy_eq hpk hbcopy (hcopy hd) hbid hk)
    · exact .inr (copy_eq hpk hbcopy (hcopy hd') (hbid.trans hid) hk)
  have hdisjoint := List.disjoint_of_nodup_append hnodup
  rcases hone with rfl | rfl
  · exact hdisjoint hd hb
  · exact hdisjoint hd' hb

/-- **Where the second copies are cut, no row is returned twice.** -/
theorem once_of_cut (hpk : Unique ClipEmbedding.id table) (hcut : SecondCopiesCut pg p table) :
    ((dedupeCandidates pg p table).map Duplicate.id).Nodup := by
  rw [dedupeCandidates_eq hpk]
  have hnodup : ((orderedCopies pg p table).take 50).Nodup :=
    (orderedCopies_perm.nodup_iff.mpr (nodup_copies hpk)).sublist (List.take_sublist _ _)
  -- an exact copy and a cosine copy of one row are not both within the limit
  have hapart : ∀ d ∈ (orderedCopies pg p table).take 50,
      ∀ d' ∈ (orderedCopies pg p table).take 50, d ∈ exactMatch p table →
        d' ∈ semanticMatch pg p table → d.id ≠ d'.id := by
    intro d hd d' hd' hexact hcosine hid
    have hkind : d.matchKind ≠ d'.matchKind := by
      rw [kind_of_exactMatch hexact, kind_of_semanticMatch hcosine]
      decide
    have hreach := upTo_le_of_drop fun b hb => key_lt_of_drop hpk hd hd' hid hkind hb
    rw [upTo_perm orderedCopies_perm] at hreach
    obtain ⟨e, he, hcontent, rfl⟩ := mem_exactMatch.mp hexact
    obtain ⟨e', he', hnear, hcopy⟩ := mem_semanticMatch.mp hcosine
    obtain ⟨c, hc, -, rfl⟩ := cosineCopy_eq_some.mp hcopy
    have hrow : e = e' := hpk.eq_of_key he he' hid
    subst hrow
    exact absurd (hcut e he hcontent hnear c hc) (not_lt.mpr hreach)
  refine hnodup.map_on ?_
  intro d hd d' hd' hid
  have hcopy := mem_orderedCopies.mp (List.mem_of_mem_take hd)
  have hcopy' := mem_orderedCopies.mp (List.mem_of_mem_take hd')
  refine copy_eq hpk hcopy hcopy' hid ?_
  rcases List.mem_append.mp hcopy with h | h <;> rcases List.mem_append.mp hcopy' with h' | h'
  · rw [kind_of_exactMatch h, kind_of_exactMatch h']
  · exact absurd hid (hapart d hd d' hd' h h')
  · exact absurd hid.symm (hapart d' hd' d hd h' h)
  · rw [kind_of_semanticMatch h, kind_of_semanticMatch h']

/-- **Where no row is returned twice, none of at most fifty is left out.** -/
theorem complete_of_once (hpk : Unique ClipEmbedding.id table)
    (honce : ((dedupeCandidates pg p table).map Duplicate.id).Nodup)
    (hfew : (table.filter (p.qualifies pg table)).length ≤ 50) {e : ClipEmbedding Uuid Vec Json}
    (he : e ∈ table) (hqualifies : p.qualifies pg table e = true) :
    e.id ∈ (dedupeCandidates pg p table).map Duplicate.id := by
  by_contra hmissing
  rw [dedupeCandidates_eq hpk] at honce hmissing
  obtain ⟨d, hd, hid⟩ := exists_copy_of_row he hqualifies
  have hdrop : d ∈ (orderedCopies pg p table).drop 50 := by
    have hmem := mem_orderedCopies.mpr hd
    rw [← List.take_append_drop 50 (orderedCopies pg p table)] at hmem
    refine (List.mem_append.mp hmem).resolve_left fun htake => hmissing ?_
    rw [← hid]
    exact List.mem_map_of_mem htake
  have hlength : ((orderedCopies pg p table).take 50).length = 50 := by
    have hpos := List.length_pos_of_mem hdrop
    rw [List.length_drop] at hpos
    rw [List.length_take]
    omega
  -- fifty returned ids and the missing one are ids of qualifying rows
  have hmore : (e.id :: ((orderedCopies pg p table).take 50).map Duplicate.id).Nodup :=
    List.nodup_cons.mpr ⟨hmissing, honce⟩
  have hsubset : e.id :: ((orderedCopies pg p table).take 50).map Duplicate.id
      ⊆ (table.filter (p.qualifies pg table)).map ClipEmbedding.id := by
    intro id hid
    rcases List.mem_cons.mp hid with rfl | hid
    · exact List.mem_map_of_mem (List.mem_filter.mpr ⟨he, hqualifies⟩)
    · obtain ⟨d, hd, rfl⟩ := List.mem_map.mp hid
      obtain ⟨e', he', hqualifies', hid'⟩ :=
        exists_row_of_copy (mem_orderedCopies.mp (List.mem_of_mem_take hd))
      exact List.mem_map.mpr ⟨e', List.mem_filter.mpr ⟨he', hqualifies'⟩, hid'⟩
  have hcount := (List.subperm_of_subset hmore hsubset).length_le
  rw [List.length_cons, List.length_map, List.length_map, hlength] at hcount
  omega

/-- **Each row once, and all of at most fifty.**  So it is iff the second copy of every
row that qualifies both ways is beyond the limit. -/
theorem dedupeCandidates_iff (pg : PgVector Vec) (models : List EmbeddingModel)
    (table : List (ClipEmbedding Uuid Vec Json)) (hvalid : ClipEmbeddingsValid pg models table)
    (p : DedupeParams Uuid Vec) : EachOnce pg p table ↔ SecondCopiesCut pg p table := by
  have hpk := hvalid.primaryKey
  constructor
  · intro h
    exact cut_of_once hpk h.once
  · intro hcut
    have honce := once_of_cut hpk hcut
    exact ⟨honce, fun hfew e he hqualifies => complete_of_once hpk honce hfew he hqualifies⟩

end Query

/-! ## §6. A row with the asked content. -/

/-- A call with a query vector at the default threshold, for a content hash. -/
def sampleDedupe (contentSha256 : Option String) : DedupeParams Nat SampleVec where
  tenant := some 7
  modelKey := some "openai:text-embedding-3-large:1"
  candidateEmbedding := some .unit
  contentSha256 := contentSha256
  similarityThreshold := none
  candidateCount := none

/-- Asked for no content, the call returns the row once. -/
theorem dedupeCandidates_sample : EachOnce samplePg (sampleDedupe none) [sampleClip] :=
  (dedupeCandidates_iff samplePg sampleModels [sampleClip] sampleTable_valid
    (sampleDedupe none)).mpr (by
      intro e he hcontent
      rw [List.mem_singleton.mp he] at hcontent
      exact absurd hcontent (by decide))

/-- **Asked for its own content, it returns it twice**, both copies at similarity 1. -/
theorem dedupeCandidates_twice :
    ClipEmbeddingsValid samplePg sampleModels [sampleClip]
      ∧ (dedupeCandidates samplePg (sampleDedupe (some sampleClip.contentSha256))
          [sampleClip]).map (fun d => (d.id, d.similarity)) = [(1, 1), (1, 1)]
      ∧ ¬ EachOnce samplePg (sampleDedupe (some sampleClip.contentSha256)) [sampleClip] := by
  have hcopies : copies samplePg (sampleDedupe (some sampleClip.contentSha256)) [sampleClip]
      = [⟨1, "clip", 3, 1, .contentSha256⟩, ⟨1, "clip", 3, 1, .cosine⟩] := by
    decide +kernel
  have hreturned : (dedupeCandidates samplePg (sampleDedupe (some sampleClip.contentSha256))
      [sampleClip]).map (fun d => (d.id, d.similarity)) = [(1, 1), (1, 1)] := by
    rw [dedupeCandidates_eq sampleTable_valid.primaryKey]
    unfold orderedCopies
    rw [hcopies, canonical_of_tied]
    · decide
    · decide
  refine ⟨sampleTable_valid, hreturned, ?_⟩
  intro h
  have honce : ([(1, 1), (1, 1)] : List (Nat × ℚ)).map Prod.fst |>.Nodup := by
    rw [← hreturned, List.map_map]
    exact h.once
  revert honce
  decide

end ClipTown.Embeddings
