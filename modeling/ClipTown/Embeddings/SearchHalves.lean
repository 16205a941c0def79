/-
  ClipTown.Embeddings.SearchHalves — `hybrid_search.sql` with one half of the query.

  Without a text the lexical branch has no candidate.  Without a query embedding the
  vector branch still has: every distance is null, the rows of the model are numbered
  in scan order and take part in the fusion.

    • `hybridSearch_halves_iff` — each half stands alone when the other one is missing,
      exactly when the model has no row to number, or one row is asked for and the best
      match comes before them all,
    • `hybridSearch_ranks_unmatched` — a call where a row that does not match the text
      comes back, with a vector rank.
-/
import ClipTown.Embeddings.SearchHits
import Mathlib.Tactic.Linarith
import Mathlib.Tactic.Positivity
import Mathlib.Algebra.Order.Field.Basic

namespace ClipTown.Embeddings

open CanonicalOrder RankFusion Relational

/-- `1.0 / (60 + rank)` as far as ranks go: positive, and falling with the rank. -/
structure ReciprocalRanks (quotient : Nat → ℚ) (candidates : Nat) : Prop where
  pos : ∀ n, 60 < n → n ≤ 60 + candidates → 0 < quotient n
  anti : ∀ m n, 60 < m → m < n → n ≤ 60 + candidates → quotient n < quotient m

theorem one_le_candidates {Uuid Vec : Type} (p : HybridSearchParams Uuid Vec) :
    1 ≤ p.scope.candidates := by
  show 1 ≤ (max (p.candidateCount.getD 400) 1).toNat
  omega

theorem one_le_results {Uuid Vec : Type} (p : HybridSearchParams Uuid Vec) :
    1 ≤ p.scope.results := by
  show 1 ≤ (max (p.resultCount.getD 20) 1).toNat
  omega

section Halves

variable {Uuid Vec Json Doc Query : Type} [LinearOrder Uuid]
  (pg : PgVector Vec) (ts : TextSearch Doc Query) (quotient : Nat → ℚ)

/-! ## §1. One half alone. -/

/-- The call has a text to search for. -/
def HasText (p : HybridSearchParams Uuid Vec) : Prop := ∃ q, p.queryText = some q ∧ q ≠ ""

/-- The row matches the text of the call. -/
def MatchesText (p : HybridSearchParams Uuid Vec) (e : ClipEmbedding Uuid Vec Json) : Prop :=
  ∃ q, p.queryText = some q ∧ ts.isMatch (e.searchDocument ts) (ts.websearchToTsquery q)

/-- The rows are those of the lexical half, in its order. -/
structure LexicalHalf (p : HybridSearchParams Uuid Vec) (hits : List (SearchHit Uuid Vec Json)) :
    Prop where
  isMatch : ∀ h ∈ hits, MatchesText ts p h.row
  vectorRank : ∀ h ∈ hits, h.vectorRank = none
  order : hits.Pairwise fun h h' =>
    ∃ r r', h.lexicalRank = some r ∧ h'.lexicalRank = some r' ∧ r < r'

/-- The rows are those of the vector half. -/
structure VectorHalf (hits : List (SearchHit Uuid Vec Json)) : Prop where
  vectorRank : ∀ h ∈ hits, h.vectorRank.isSome = true
  lexicalRank : ∀ h ∈ hits, h.lexicalRank = none

/-- What the lexical half adds to the score of a row: `1.0 / (60 + rank)`, where the
rank is one more than the matches ahead. -/
def lexicalShare (s : Scope Uuid Vec) (table : List (ClipEmbedding Uuid Vec Json))
    (e : ClipEmbedding Uuid Vec Json) : ℚ :=
  let matching := lexicalScope ts s table
  let before := ahead (lexicalKey ts s) matching e
  if e.id ∈ matching.map ClipEmbedding.id ∧ before < s.candidates then
    quotient (60 + (before + 1))
  else 0

/-- One row is asked for, and the best match comes before each of the rows that the
vector branch numbers in scan order: it has the higher score, or the same and the
smaller id. -/
def BestMatchLeads (s : Scope Uuid Vec) (table : List (ClipEmbedding Uuid Vec Json)) : Prop :=
  s.results = 1 ∧ ∃ l ∈ lexicalScope ts s table,
    ahead (lexicalKey ts s) (lexicalScope ts s table) l = 0
      ∧ ∀ v ∈ ((vectorScope s table).zipIdx 1).take s.candidates,
          quotient (60 + v.2) + lexicalShare ts quotient s table v.1 < quotient 61
            ∨ quotient (60 + v.2) + lexicalShare ts quotient s table v.1 = quotient 61
              ∧ l.id < v.1.id

variable {pg ts quotient} {s : Scope Uuid Vec} {table : List (ClipEmbedding Uuid Vec Json)}

/-! ## §2. The candidates of each half. -/

/-- Without a text nothing matches. -/
theorem lexicalScope_eq_nil {p : HybridSearchParams Uuid Vec} (h : ¬ HasText p) :
    lexicalScope ts p.scope table = [] := by
  rw [List.eq_nil_iff_forall_not_mem]
  intro e he
  obtain ⟨-, -, ⟨q, hq, hne, -⟩, -⟩ := mem_lexicalScope.mp he
  exact h ⟨q, hq, hne⟩

/-- **Without a query embedding the vector branch numbers the rows of the model in scan
order**: all the distances are null, so they tie. -/
theorem vectorCandidates_of_null (hqv : s.qv = none) :
    vectorCandidates pg s table = ((vectorScope s table).zipIdx 1).take s.candidates := by
  have hkey : ∀ e : ClipEmbedding Uuid Vec Json, distanceKey pg s e = ⊤ := by
    intro e
    unfold distanceKey candidateDistance
    rw [hqv]
    rfl
  apply vectorCandidates_of_tied
  intro a _ b _
  rw [hkey a, hkey b]

/-- The lexical rank of a row is one more than the matches ahead of it. -/
theorem mem_lexicalCandidates_rank (hpk : Unique ClipEmbedding.id table)
    {e : ClipEmbedding Uuid Vec Json} {k : Nat} :
    (e, k) ∈ lexicalCandidates ts s table ↔ e ∈ lexicalScope ts s table
      ∧ k = ahead (lexicalKey ts s) (lexicalScope ts s table) e + 1
      ∧ ahead (lexicalKey ts s) (lexicalScope ts s table) e < s.candidates :=
  mem_take_ranked_canonical (nodup_lexicalKey hpk)

theorem reciprocalRank_lexicalRank (hpk : Unique ClipEmbedding.id table)
    {e : ClipEmbedding Uuid Vec Json} (he : e ∈ table) :
    reciprocalRank quotient (lexicalRank ts s table e) = lexicalShare ts quotient s table e := by
  have hid : e.id ∈ (lexicalScope ts s table).map ClipEmbedding.id
      ↔ e ∈ lexicalScope ts s table := by
    constructor
    · intro h
      obtain ⟨e', he', heq⟩ := List.mem_map.mp h
      rw [← hpk.eq_of_key (mem_lexicalScope.mp he').1 he heq]
      exact he'
    · exact List.mem_map_of_mem
  unfold lexicalShare
  dsimp only
  cases hrank : lexicalRank ts s table e with
  | none =>
      rw [if_neg]
      · rfl
      · intro h
        have hsome := (lexicalRank_eq_some hpk he).mpr
          ((mem_lexicalCandidates_rank hpk).mpr ⟨hid.mp h.1, rfl, h.2⟩)
        rw [hrank] at hsome
        cases hsome
  | some k =>
      obtain ⟨hmem, rfl, hlt⟩ :=
        (mem_lexicalCandidates_rank hpk).mp ((lexicalRank_eq_some hpk he).mp hrank)
      rw [if_pos ⟨hid.mpr hmem, hlt⟩]
      rfl

/-! ## §3. The final order. -/

/-- Of two rows with one similarity, the one with the higher score comes first, or else
the one with the smaller id. -/
theorem hitKey_lt_iff {h h' : SearchHit Uuid Vec Json}
    (hcosine : h.cosineSimilarity = h'.cosineSimilarity) :
    hitKey h < hitKey h' ↔
      h'.rrfScore < h.rrfScore ∨ h'.rrfScore = h.rrfScore ∧ h.row.id < h'.row.id := by
  unfold hitKey
  rw [Prod.Lex.toLex_lt_toLex, Prod.Lex.toLex_lt_toLex, hcosine, OrderDual.toDual_lt_toDual,
    OrderDual.toDual_inj]
  simp [eq_comm]

theorem cosine_of_null {p : HybridSearchParams Uuid Vec} (hqv : p.queryEmbedding = none)
    (e : ClipEmbedding Uuid Vec Json) :
    (hitOf pg ts quotient p.scope table e).cosineSimilarity = none := by
  show p.queryEmbedding.map _ = none
  rw [hqv]
  rfl

theorem rrfScore_le_of_lt {h h' : SearchHit Uuid Vec Json} (hlt : hitKey h < hitKey h') :
    h'.rrfScore ≤ h.rrfScore := by
  unfold hitKey at hlt
  rw [Prod.Lex.toLex_lt_toLex] at hlt
  rcases hlt with hscore | ⟨hscore, -⟩
  · exact (OrderDual.toDual_lt_toDual.mp hscore).le
  · exact (OrderDual.toDual_inj.mp hscore).ge

/-- A candidate row without a vector rank has a lexical one. -/
theorem lexicalCandidate_of_no_vectorRank (hpk : Unique ClipEmbedding.id table)
    {e : ClipEmbedding Uuid Vec Json} (he : e ∈ candidateRows pg ts s table)
    (hnone : vectorRank pg s table e = none) :
    ∃ r, lexicalRank ts s table e = some r ∧ (e, r) ∈ lexicalCandidates ts s table := by
  rcases (mem_candidateRows hpk).mp he with hv | hl
  · exact absurd rfl ((rankAt_eq_none ClipEmbedding.id).mp hnone e hv)
  · obtain ⟨r, hr⟩ := exists_rank hl
    exact ⟨r, (lexicalRank_eq_some hpk (table_of_lexicalCandidate hl)).mpr hr, hr⟩

/-- **Rows without a vector rank are the lexical half**: they match, and their scores
fall with their lexical ranks. -/
theorem lexicalHalf_iff (hpk : Unique ClipEmbedding.id table) {p : HybridSearchParams Uuid Vec}
    (hranks : ReciprocalRanks quotient p.scope.candidates) :
    LexicalHalf ts p (hybridSearch pg ts quotient p table)
      ↔ ∀ h ∈ hybridSearch pg ts quotient p table, h.vectorRank = none := by
  refine ⟨LexicalHalf.vectorRank, fun hnone => ⟨?_, hnone, ?_⟩⟩
  · intro h hh
    obtain ⟨e, he, rfl⟩ := exists_row_of_hit hpk hh
    obtain ⟨r, -, hr⟩ := lexicalCandidate_of_no_vectorRank hpk he (hnone _ hh)
    obtain ⟨-, -, ⟨q, hq, -, hmatch⟩, -⟩ := mem_lexicalScope.mp
      ((mem_lexicalCandidates_rank hpk).mp hr).1
    exact ⟨q, hq, hmatch⟩
  · refine (hybridSearch_pairwise hpk p).imp_of_mem ?_
    intro h h' hh hh' hlt
    obtain ⟨e, he, rfl⟩ := exists_row_of_hit hpk hh
    obtain ⟨e', he', rfl⟩ := exists_row_of_hit hpk hh'
    have hv : vectorRank pg p.scope table e = none := hnone _ hh
    have hv' : vectorRank pg p.scope table e' = none := hnone _ hh'
    obtain ⟨r, hrank, hr⟩ := lexicalCandidate_of_no_vectorRank hpk he hv
    obtain ⟨r', hrank', hr'⟩ := lexicalCandidate_of_no_vectorRank hpk he' hv'
    refine ⟨r, r', hrank, hrank', ?_⟩
    have hscore : quotient (60 + r') ≤ quotient (60 + r) := by
      have hle := rrfScore_le_of_lt hlt
      simpa [hitOf, toHit, foundRow, hv, hv', hrank, hrank', reciprocalRank] using hle
    obtain ⟨-, rfl, hreach⟩ := (mem_lexicalCandidates_rank hpk).mp hr
    have hpos' := (mem_take_ranked.mp hr').1
    by_contra hge
    rcases Nat.lt_or_eq_of_le (Nat.not_lt.mp hge) with hgt | heq
    · have hanti := hranks.anti (60 + r')
        (60 + (ahead (lexicalKey ts p.scope) (lexicalScope ts p.scope table) e + 1))
        (by omega) (by omega) (by omega)
      linarith
    · rw [heq] at hr'
      rw [eq_of_rank hr' hr] at hlt
      exact lt_irrefl _ hlt

/-! ## §4. What the vector half adds without a query embedding. -/

theorem lexicalShare_nonneg (hranks : ReciprocalRanks quotient s.candidates)
    (e : ClipEmbedding Uuid Vec Json) : 0 ≤ lexicalShare ts quotient s table e := by
  unfold lexicalShare
  dsimp only
  split_ifs with h
  · exact (hranks.pos _ (by omega) (by omega)).le
  · exact le_rfl

/-- The score of a vector candidate. -/
theorem rrfScore_vectorCandidate (hpk : Unique ClipEmbedding.id table)
    {e : ClipEmbedding Uuid Vec Json} {k : Nat} (h : (e, k) ∈ vectorCandidates pg s table) :
    (hitOf pg ts quotient s table e).rrfScore
      = quotient (60 + k) + lexicalShare ts quotient s table e := by
  have he : e ∈ table := table_of_vectorCandidate (List.mem_map_of_mem h)
  show reciprocalRank quotient (vectorRank pg s table e)
    + reciprocalRank quotient (lexicalRank ts s table e) = _
  rw [(vectorRank_eq_some hpk he).mpr h, reciprocalRank_lexicalRank hpk he]
  rfl

/-- The score of a lexical candidate that the vector half did not find. -/
theorem rrfScore_lexicalOnly {e : ClipEmbedding Uuid Vec Json} {r : Nat}
    (hnone : vectorRank pg s table e = none) (hrank : lexicalRank ts s table e = some r) :
    (hitOf pg ts quotient s table e).rrfScore = quotient (60 + r) := by
  show reciprocalRank quotient (vectorRank pg s table e)
    + reciprocalRank quotient (lexicalRank ts s table e) = _
  rw [hnone, hrank]
  exact zero_add _

/-- **The best match leads, so it is the one row that is returned**, and it is no vector
candidate. -/
theorem no_vectorRank_of_bestMatchLeads (hpk : Unique ClipEmbedding.id table)
    {p : HybridSearchParams Uuid Vec} (hqv : p.queryEmbedding = none)
    (hranks : ReciprocalRanks quotient p.scope.candidates)
    (hleads : BestMatchLeads ts quotient p.scope table) :
    ∀ h ∈ hybridSearch pg ts quotient p table, h.vectorRank = none := by
  obtain ⟨hone, l, hl, hfirst, hbefore⟩ := hleads
  have hvectors : vectorCandidates pg p.scope table
      = ((vectorScope p.scope table).zipIdx 1).take p.scope.candidates :=
    vectorCandidates_of_null hqv
  rw [← hvectors] at hbefore
  have htable : l ∈ table := (mem_lexicalScope.mp hl).1
  have hcandidate : (l, 1) ∈ lexicalCandidates ts p.scope table :=
    (mem_lexicalCandidates_rank hpk).mpr
      ⟨hl, by rw [hfirst], by rw [hfirst]; exact one_le_candidates p⟩
  have hrank : lexicalRank ts p.scope table l = some 1 :=
    (lexicalRank_eq_some hpk htable).mpr hcandidate
  -- the best match would have a score above its own
  have hnone : vectorRank pg p.scope table l = none := by
    cases hv : vectorRank pg p.scope table l with
    | none => rfl
    | some k =>
        have hmem := (vectorRank_eq_some hpk htable).mp hv
        have hreach := mem_take_ranked.mp hmem
        have hpos := hranks.pos (60 + k) (by omega) (by omega)
        have hshare : lexicalShare ts quotient p.scope table l = quotient 61 := by
          rw [← reciprocalRank_lexicalRank hpk htable, hrank]
          rfl
        rcases hbefore (l, k) hmem with hlt | ⟨heq, -⟩ <;> linarith
  intro h hh
  obtain ⟨e, he, rfl⟩ := exists_row_of_hit hpk hh
  cases hv : vectorRank pg p.scope table e with
  | none => exact hv
  | some k =>
      have hmem := (vectorRank_eq_some hpk (table_of_candidateRow hpk he)).mp hv
      have hless : hitKey (hitOf pg ts quotient p.scope table l)
          < hitKey (hitOf pg ts quotient p.scope table e) := by
        rw [hitKey_lt_iff ((cosine_of_null hqv l).trans (cosine_of_null hqv e).symm),
          rrfScore_vectorCandidate hpk hmem, rrfScore_lexicalOnly hnone hrank]
        exact hbefore (e, k) hmem
      have hleader : hitOf pg ts quotient p.scope table l
          ∈ allHits pg ts quotient p.scope table :=
        List.mem_map_of_mem ((mem_candidateRows hpk).mpr (.inr (List.mem_map_of_mem hcandidate)))
      have hreach := ((mem_hybridSearch_iff hpk).mp hh).2
      have hpositive := ahead_pos hleader hless
      omega

/-- Where no returned row has a vector rank, no vector candidate is returned. -/
theorem unreturned_of_vectorCandidate (hpk : Unique ClipEmbedding.id table)
    {p : HybridSearchParams Uuid Vec}
    (hnone : ∀ h ∈ hybridSearch pg ts quotient p table, h.vectorRank = none)
    {e : ClipEmbedding Uuid Vec Json} {k : Nat}
    (hmem : (e, k) ∈ vectorCandidates pg p.scope table) :
    hitOf pg ts quotient p.scope table e ∈ allHits pg ts quotient p.scope table
      ∧ hitOf pg ts quotient p.scope table e ∉ hybridSearch pg ts quotient p table := by
  have he : e ∈ members (vectorCandidates pg p.scope table) := List.mem_map_of_mem hmem
  refine ⟨List.mem_map_of_mem ((mem_candidateRows hpk).mpr (.inl he)), ?_⟩
  intro hh
  have hrank : vectorRank pg p.scope table e = none := hnone _ hh
  rw [(vectorRank_eq_some hpk (table_of_vectorCandidate he)).mpr hmem] at hrank
  cases hrank

/-- What is returned then comes before the first row of the scan, so it is the best
match. -/
theorem rank_one_of_returned (hpk : Unique ClipEmbedding.id table)
    {p : HybridSearchParams Uuid Vec} (hranks : ReciprocalRanks quotient p.scope.candidates)
    (hnone : ∀ h ∈ hybridSearch pg ts quotient p table, h.vectorRank = none)
    {v₁ : ClipEmbedding Uuid Vec Json} (hfront : (v₁, 1) ∈ vectorCandidates pg p.scope table)
    {h : SearchHit Uuid Vec Json} (hh : h ∈ hybridSearch pg ts quotient p table) :
    ∃ l, hitOf pg ts quotient p.scope table l = h ∧ h.rrfScore = quotient 61
      ∧ (l, 1) ∈ lexicalCandidates ts p.scope table := by
  obtain ⟨l, hl, rfl⟩ := exists_row_of_hit hpk hh
  have hv : vectorRank pg p.scope table l = none := hnone _ hh
  obtain ⟨r, hrank, hr⟩ := lexicalCandidate_of_no_vectorRank hpk hl hv
  obtain ⟨hall, hnot⟩ := unreturned_of_vectorCandidate hpk hnone hfront
  have hscore := rrfScore_le_of_lt (hitKey_lt_of_unreturned hpk hh hall hnot)
  rw [rrfScore_vectorCandidate hpk hfront, rrfScore_lexicalOnly hv hrank] at hscore
  have hshare : 0 ≤ lexicalShare ts quotient p.scope table v₁ := lexicalShare_nonneg hranks v₁
  have hreach := mem_take_ranked.mp hr
  have hone : r = 1 := by
    by_contra hne
    have hanti := hranks.anti 61 (60 + r) (by omega) (by omega) (by omega)
    linarith
  subst hone
  exact ⟨l, rfl, rrfScore_lexicalOnly hv hrank, hr⟩

/-- **Where the vector half found rows and none of them is returned, the best match
leads**, and is the one row that was asked for. -/
theorem bestMatchLeads_of_no_vectorRank (hpk : Unique ClipEmbedding.id table)
    {p : HybridSearchParams Uuid Vec} (hqv : p.queryEmbedding = none)
    (hranks : ReciprocalRanks quotient p.scope.candidates) {v₁ : ClipEmbedding Uuid Vec Json}
    {rest : List (ClipEmbedding Uuid Vec Json)} (hscope : vectorScope p.scope table = v₁ :: rest)
    (hnone : ∀ h ∈ hybridSearch pg ts quotient p table, h.vectorRank = none) :
    BestMatchLeads ts quotient p.scope table := by
  have hvectors : vectorCandidates pg p.scope table
      = ((vectorScope p.scope table).zipIdx 1).take p.scope.candidates :=
    vectorCandidates_of_null hqv
  have hfront : (v₁, 1) ∈ vectorCandidates pg p.scope table := by
    obtain ⟨n, hn⟩ := Nat.exists_eq_add_one.mpr (one_le_candidates p)
    rw [hvectors, hscope, hn, List.zipIdx_cons, List.take_succ_cons]
    exact List.mem_cons_self
  obtain ⟨hall, hnot⟩ := unreturned_of_vectorCandidate hpk hnone hfront
  have hlength := length_of_unreturned hpk hall hnot
  have horder : (hybridSearch pg ts quotient p table).Pairwise fun h h' => hitKey h < hitKey h' :=
    hybridSearch_pairwise hpk p
  have hfirst : ∀ h ∈ hybridSearch pg ts quotient p table, ∃ l,
      hitOf pg ts quotient p.scope table l = h ∧ h.rrfScore = quotient 61
        ∧ (l, 1) ∈ lexicalCandidates ts p.scope table :=
    fun h hh => rank_one_of_returned hpk hranks hnone hfront hh
  have hbefore : ∀ h ∈ hybridSearch pg ts quotient p table,
      ∀ v ∈ vectorCandidates pg p.scope table,
        hitKey h < hitKey (hitOf pg ts quotient p.scope table v.1) := by
    intro h hh v hv
    obtain ⟨hall, hnot⟩ := unreturned_of_vectorCandidate hpk hnone hv
    exact hitKey_lt_of_unreturned hpk hh hall hnot
  cases hresult : hybridSearch pg ts quotient p table with
  | nil =>
      rw [hresult, List.length_nil] at hlength
      have hresults := one_le_results p
      omega
  | cons h more =>
      rw [hresult] at hfirst hbefore hlength horder
      obtain ⟨l, rfl, hscore, hl⟩ := hfirst h List.mem_cons_self
      cases more with
      | cons h' more =>
          -- two rows of lexical rank 1 would be one
          obtain ⟨l', rfl, -, hl'⟩ := hfirst h' (List.mem_cons_of_mem _ List.mem_cons_self)
          rw [eq_of_rank hl hl', List.pairwise_cons] at horder
          exact absurd (horder.1 _ List.mem_cons_self) (lt_irrefl _)
      | nil =>
          rw [List.length_singleton] at hlength
          obtain ⟨hmatch, hahead, -⟩ := (mem_lexicalCandidates_rank hpk).mp hl
          refine ⟨hlength.symm, l, hmatch, by omega, ?_⟩
          rw [← hvectors]
          intro v hv
          have hless := hbefore _ List.mem_cons_self v hv
          rw [hitKey_lt_iff ((cosine_of_null hqv l).trans (cosine_of_null hqv v.1).symm),
            rrfScore_vectorCandidate hpk hv, hscore] at hless
          exact hless

/-- Without a text every returned row is of the vector half. -/
theorem vectorHalf_of_no_text (hpk : Unique ClipEmbedding.id table)
    {p : HybridSearchParams Uuid Vec} (h : ¬ HasText p) :
    VectorHalf (hybridSearch pg ts quotient p table) := by
  have hnil : lexicalCandidates ts p.scope table = [] := by
    unfold lexicalCandidates
    rw [lexicalScope_eq_nil h, take_ranked_nil]
  have hrow : ∀ hit ∈ hybridSearch pg ts quotient p table,
      ∃ e ∈ members (vectorCandidates pg p.scope table),
        hitOf pg ts quotient p.scope table e = hit := by
    intro hit hhit
    obtain ⟨e, he, rfl⟩ := exists_row_of_hit hpk hhit
    rcases (mem_candidateRows hpk).mp he with hv | hl
    · exact ⟨e, hv, rfl⟩
    · rw [hnil] at hl
      cases hl
  constructor
  · intro hit hhit
    obtain ⟨e, he, rfl⟩ := hrow hit hhit
    obtain ⟨k, hk⟩ := exists_rank he
    show (vectorRank pg p.scope table e).isSome = true
    rw [(vectorRank_eq_some hpk (table_of_vectorCandidate he)).mpr hk]
    rfl
  · intro hit hhit
    obtain ⟨e, -, rfl⟩ := hrow hit hhit
    show lexicalRank ts p.scope table e = none
    unfold lexicalRank
    rw [hnil]
    rfl

/-- **A missing half.**  Without a text the rows are those of the vector half.  Without
a query embedding they are those of the lexical half, each matching and in its order, iff
the model has no row of the tenant and the kinds, or one row is asked for and the best
match leads. -/
theorem hybridSearch_halves_iff (pg : PgVector Vec) (ts : TextSearch Doc Query)
    (quotient : Nat → ℚ) (models : List EmbeddingModel)
    (table : List (ClipEmbedding Uuid Vec Json)) (hvalid : ClipEmbeddingsValid pg models table)
    (p : HybridSearchParams Uuid Vec) (hranks : ReciprocalRanks quotient p.scope.candidates) :
    ((p.queryEmbedding = none → HasText p →
          LexicalHalf ts p (hybridSearch pg ts quotient p table))
        ∧ (¬ HasText p → VectorHalf (hybridSearch pg ts quotient p table)))
      ↔ (p.queryEmbedding = none → HasText p →
          vectorScope p.scope table = [] ∨ BestMatchLeads ts quotient p.scope table) := by
  have hpk := hvalid.primaryKey
  constructor
  · intro hall hqv htext
    have hnone := (lexicalHalf_iff hpk hranks).mp (hall.1 hqv htext)
    cases hscope : vectorScope p.scope table with
    | nil => exact .inl rfl
    | cons v₁ rest => exact .inr (bestMatchLeads_of_no_vectorRank hpk hqv hranks hscope hnone)
  · intro hcondition
    refine ⟨fun hqv htext => (lexicalHalf_iff hpk hranks).mpr ?_, vectorHalf_of_no_text hpk⟩
    rcases hcondition hqv htext with hnil | hleads
    · intro h hh
      obtain ⟨e, -, rfl⟩ := exists_row_of_hit hpk hh
      show vectorRank pg p.scope table e = none
      unfold vectorRank vectorCandidates
      rw [hnil, take_ranked_nil]
      rfl
    · exact no_vectorRank_of_bestMatchLeads hpk hqv hranks hleads

end Halves

/-! ## §5. A call without an embedding. -/

theorem reciprocalRanks_div (candidates : Nat) :
    ReciprocalRanks (fun n => 1 / (n : ℚ)) candidates where
  pos := by
    intro n hn _
    have hpos : (0 : ℚ) < n := by exact_mod_cast (by omega : 0 < n)
    positivity
  anti := by
    intro m n hm hlt _
    have hpos : (0 : ℚ) < m := by exact_mod_cast (by omega : 0 < m)
    exact one_div_lt_one_div_of_lt hpos (by exact_mod_cast hlt)

/-- A call with a text alone. -/
def textCall (modelKey text : String) : HybridSearchParams Nat SampleVec :=
  { sampleCall modelKey with queryEmbedding := none, queryText := some text }

/-- Asked for a model without rows, the call returns the match. -/
theorem hybridSearch_halves_sample :
    LexicalHalf sampleTextSearch (textCall "openai:text-embedding-3-small:1" "invoice")
        (hybridSearch samplePg sampleTextSearch (fun n => 1 / n)
          (textCall "openai:text-embedding-3-small:1" "invoice") [sampleClip]) :=
  ((hybridSearch_halves_iff samplePg sampleTextSearch (fun n => 1 / n) sampleModels [sampleClip]
    sampleTable_valid (textCall "openai:text-embedding-3-small:1" "invoice")
    (reciprocalRanks_div _)).mpr (fun _ _ => .inl (by decide))).1 rfl ⟨"invoice", rfl, by decide⟩

/-- **Asked for the clip's own model, the call returns the clip with a vector rank**,
though it has no embedding to compare and the clip does not match the text. -/
theorem hybridSearch_ranks_unmatched :
    ClipEmbeddingsValid samplePg sampleModels [sampleClip]
      ∧ (textCall "openai:text-embedding-3-large:1" "receipt").queryEmbedding = none
      ∧ HasText (textCall "openai:text-embedding-3-large:1" "receipt")
      ∧ (hybridSearch samplePg sampleTextSearch (fun n => 1 / n)
          (textCall "openai:text-embedding-3-large:1" "receipt") [sampleClip]).map
          (fun h => (h.row.id, h.vectorRank, h.lexicalRank)) = [(1, some 1, none)]
      ∧ ¬ LexicalHalf sampleTextSearch (textCall "openai:text-embedding-3-large:1" "receipt")
          (hybridSearch samplePg sampleTextSearch (fun n => 1 / n)
            (textCall "openai:text-embedding-3-large:1" "receipt") [sampleClip]) := by
  have hrows : (hybridSearch samplePg sampleTextSearch (fun n => 1 / n)
      (textCall "openai:text-embedding-3-large:1" "receipt") [sampleClip]).map
      (fun h => (h.row.id, h.vectorRank, h.lexicalRank)) = [(1, some 1, none)] := by
    decide +kernel
  refine ⟨sampleTable_valid, rfl, ⟨"receipt", rfl, by decide⟩, hrows, ?_⟩
  intro hhalf
  obtain ⟨h, hh, hrow⟩ : ∃ h ∈ hybridSearch samplePg sampleTextSearch (fun n => 1 / n)
      (textCall "openai:text-embedding-3-large:1" "receipt") [sampleClip],
      (h.row.id, h.vectorRank, h.lexicalRank) = (1, some 1, none) := by
    apply List.mem_map.mp
    rw [hrows]
    exact List.mem_cons_self
  have hnone := hhalf.vectorRank h hh
  rw [Prod.mk.injEq, Prod.mk.injEq, hnone] at hrow
  cases hrow.2.1

end ClipTown.Embeddings
