/-
  ClipTown.Embeddings.AlertMatch — alert matching over `cliptown.clip_embeddings`
  (`db/queries/alert_match.sql`).

  An alert rule is meant to be a row of the table, of the kind `alert_rule`, with its
  threshold in its metadata.  The thresholds are read where the candidates are joined
  with their rows; one that is no number fails the query.

    • `mem_ruleCandidates` — candidates are rules of the document's tenant and model,
    • `alertMatch_silent` — on the tables that writes lead to there are none, because
      the constraints admit no row of the kind.
-/
import ClipTown.Embeddings.Correlate
import ClipTown.Embeddings.Registry

namespace ClipTown.Embeddings

open CanonicalOrder Relational Transitions

/-! ## §1. Parameters. -/

/-- The bind parameters `$1` to `$3`, each of which may be null. -/
structure AlertParams (Uuid Double : Type) where
  tenant : Option Uuid
  rowId : Option Uuid
  threshold : Option Double

/-- What the query needs of `jsonb` and `double precision`. -/
structure Thresholds (Json Double : Type) where
  /-- `metadata->>'threshold'`. -/
  text : Json → Option String
  /-- The cast of a text, which may fail. -/
  parse : String → Option Double
  double : ℚ → Double

/-- A row of the result. -/
structure AlertMatch (Uuid Double : Type) where
  ruleId : Uuid
  ruleEntityId : Uuid
  ruleTitle : String
  matchedRowId : Uuid
  matchedTitle : String
  cosineSimilarity : ℚ
  thresholdApplied : Double

/-- The kind of a rule. -/
def alertRule : String := "alert_rule"

/-! ## §2. The query. -/

section Query

variable {Uuid Vec Json Double : Type} [LinearOrder Uuid] [LinearOrder Double]
  (pg : PgVector Vec) (thresholds : Thresholds Json Double)

/-- The CTE `doc`. -/
def AlertParams.doc (p : AlertParams Uuid Double) (table : List (ClipEmbedding Uuid Vec Json)) :
    List (ClipEmbedding Uuid Vec Json) :=
  table.filter (fun e => p.rowId = some e.id && p.tenant = some e.accountId)

/-- The WHERE clause of `rule_candidates`. -/
def isRuleFor (doc r : ClipEmbedding Uuid Vec Json) : Bool :=
  r.accountId = doc.accountId && r.modelKey = doc.modelKey && r.entityKind = alertRule

/-- The CTE `rule_candidates`; rows at one distance stay in scan order. -/
def ruleCandidates (p : AlertParams Uuid Double) (table : List (ClipEmbedding Uuid Vec Json)) :
    List Uuid :=
  ((canonical (fun pair => sourceDistance pg pair.1 pair.2)
    ((p.doc table).flatMap (fun doc =>
      (table.filter (isRuleFor doc)).map (fun r => (doc, r))))).take 400).map
        (fun pair => pair.2.id)

/-- `coalesce((r.metadata->>'threshold')::double precision, $3, 0.78)`. -/
def thresholdApplied (p : AlertParams Uuid Double) (r : ClipEmbedding Uuid Vec Json) :
    Option Double :=
  match thresholds.text r.metadata with
  | some text => thresholds.parse text
  | none => some (p.threshold.getD (thresholds.double (78 / 100)))

/-- The candidates with their rows, and the document. -/
def joinedRules (p : AlertParams Uuid Double) (table : List (ClipEmbedding Uuid Vec Json)) :
    List (ClipEmbedding Uuid Vec Json × ClipEmbedding Uuid Vec Json) :=
  (ruleCandidates pg p table).flatMap (fun id =>
    (table.filter (fun r => r.id = id)).flatMap (fun r =>
      (p.doc table).map (fun doc => (doc, r))))

/-- The select list. -/
def alertMatchRow (doc r : ClipEmbedding Uuid Vec Json) (threshold : Double) :
    AlertMatch Uuid Double where
  ruleId := r.id
  ruleEntityId := r.entityId
  ruleTitle := r.titleText
  matchedRowId := doc.id
  matchedTitle := doc.titleText
  cosineSimilarity := sourceSimilarity pg doc r
  thresholdApplied := threshold

/-- One joined row: the rule fires, or does not, or its threshold cannot be read. -/
def fires (p : AlertParams Uuid Double)
    (pair : ClipEmbedding Uuid Vec Json × ClipEmbedding Uuid Vec Json) :
    Option (List (AlertMatch Uuid Double)) :=
  (thresholdApplied thresholds p pair.2).map (fun threshold =>
    if threshold ≤ thresholds.double (sourceSimilarity pg pair.1 pair.2) then
      [alertMatchRow pg pair.1 pair.2 threshold]
    else [])

/-- `order by cosine_similarity desc, r.id`. -/
def alertMatchKey (m : AlertMatch Uuid Double) : ℚᵒᵈ ×ₗ Uuid :=
  toLex (OrderDual.toDual m.cosineSimilarity, m.ruleId)

/-- `alert_match.sql`; `none` where it fails. -/
def alertMatch (p : AlertParams Uuid Double) (table : List (ClipEmbedding Uuid Vec Json)) :
    Option (List (AlertMatch Uuid Double)) :=
  ((joinedRules pg p table).mapM (fires pg thresholds p)).map
    (fun fired => canonical alertMatchKey fired.flatten)

variable {pg thresholds} {p : AlertParams Uuid Double} {table : List (ClipEmbedding Uuid Vec Json)}

/-! ## §3. What it returns. -/

omit [LinearOrder Double] in
/-- A candidate is a rule of the document's tenant and model. -/
theorem mem_ruleCandidates {id : Uuid} (h : id ∈ ruleCandidates pg p table) :
    ∃ doc ∈ p.doc table, ∃ r ∈ table, isRuleFor doc r = true ∧ r.id = id := by
  obtain ⟨pair, hpair, rfl⟩ := List.mem_map.mp h
  have hall := (mem_canonical _).mp (List.mem_of_mem_take hpair)
  obtain ⟨doc, hdoc, hrules⟩ := List.mem_flatMap.mp hall
  obtain ⟨r, hr, rfl⟩ := List.mem_map.mp hrules
  exact ⟨doc, hdoc, r, List.mem_of_mem_filter hr, (List.mem_filter.mp hr).2, rfl⟩

omit [LinearOrder Double] in
/-- Without rules in the table nothing is joined. -/
theorem joinedRules_eq_nil (h : ∀ e ∈ table, e.entityKind ≠ alertRule) :
    joinedRules pg p table = [] := by
  have hnone : ruleCandidates pg p table = [] := by
    rw [List.eq_nil_iff_forall_not_mem]
    intro id hid
    obtain ⟨doc, -, r, hr, hrule, -⟩ := mem_ruleCandidates hid
    unfold isRuleFor at hrule
    rw [Bool.and_eq_true, decide_eq_true_iff] at hrule
    exact h r hr hrule.2
  show (ruleCandidates pg p table).flatMap _ = []
  rw [hnone]
  rfl

end Query

/-! ## §4. On the tables that writes lead to. -/

section Runs

variable {Uuid Vec Json Double : Type} [LinearOrder Uuid] [LinearOrder Double]
  {pg : PgVector Vec} {store : Store Uuid Vec Json}

theorem alertRule_notMem : alertRule ∉ entityKinds := by decide

/-- **No rule is ever stored, and no alert ever fires.**  After any writes that the
constraints accept, a write that would leave a rule in the table is refused, and
whatever the parameters are, and however thresholds are read, the query returns
nothing. -/
theorem alertMatch_silent (h : (storeWrites pg).Reachable store)
    (thresholds : Thresholds Json Double) (p : AlertParams Uuid Double) :
    (∀ write, (∃ e ∈ (store.write write).embeddings, e.entityKind = alertRule) →
      (storeWrites pg).step store write = none) ∧
      alertMatch pg thresholds p store.embeddings = some [] := by
  constructor
  · intro write hrule
    obtain ⟨e, he, hkind⟩ := hrule
    refine Option.eq_none_iff_forall_not_mem.mpr fun store' hstep => ?_
    obtain ⟨hok, -⟩ := System.guarded_step_eq_some.mp hstep
    have hadmitted := (hok.2.2.rows e he).entityKind
    rw [hkind] at hadmitted
    exact alertRule_notMem hadmitted
  · have hvalid := storeValid_of_reachable h
    have hnone : joinedRules pg p store.embeddings = [] := by
      apply joinedRules_eq_nil
      intro e he hkind
      have hadmitted := (hvalid.2.2.rows e he).entityKind
      rw [hkind] at hadmitted
      exact alertRule_notMem hadmitted
    unfold alertMatch
    rw [hnone, List.mapM_nil]
    show some (canonical alertMatchKey []) = some []
    rw [(canonical_perm alertMatchKey []).eq_nil]

end Runs

/-- Rules without a threshold of their own. -/
def sampleThresholds : Thresholds Unit ℚ where
  text _ := none
  parse _ := none
  double := id

-- a table with a rule, which the constraints do not allow
example : (alertMatch samplePg sampleThresholds ⟨some 7, some 1, none⟩
    [sampleClip, { sampleClip with id := 3, entityKind := alertRule }]).map
      (List.map AlertMatch.ruleId) = some [3] := by
  decide +kernel

theorem alertMatch_silent_seeded :
    (∀ write, (∃ e ∈ ((storeAfter (seededWrites false)).write write).embeddings,
        e.entityKind = alertRule) →
      (storeWrites spikePg).step (storeAfter (seededWrites false)) write = none) ∧
      alertMatch spikePg sampleThresholds ⟨some 7, some 1, none⟩
        (storeAfter (seededWrites false)).embeddings = some [] :=
  alertMatch_silent (System.AcceptedAlong.reachableBy (P := fun _ _ => True) (.init rfl)
    (by decide +kernel)) sampleThresholds ⟨some 7, some 1, none⟩

end ClipTown.Embeddings
