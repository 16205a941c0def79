/-
  ClipTown.ModelSpace.MatchEvents — alert rules and match events of the
  embedding model space, version 3
  (`embedding-contract/sql/postgres/desired-v3.sql`).

  A match event refers to its two embeddings by tenant, id, space, purpose and
  role, and to its alert rule by tenant and id only.  Deleting an embedding or
  a rule deletes the events that refer to it; every other reference restricts.

    • `MatchEvent.placed_iff` — in a state the constraints allow, an event is
      placed iff its rule has its space and purpose,
    • `writeInScope_iff` — a write keeps all events placed iff it files no event
      under, and moves no rule to, another space or purpose,
    • `events_placed` — so do whole runs; `event_outside_rule` is a run whose
      event is filed under a rule of another space.
-/
import ClipTown.ModelSpace.HybridSearchExact

namespace ClipTown.ModelSpace

open Embeddings Relational Transitions

/-! ## §1. The rows. -/

/-- A row of `semantic_alert_rules_v3`. -/
structure AlertRule (Uuid : Type) where
  alertRuleId : Uuid
  tenantId : Uuid
  name : String
  spaceKey : String
  purpose : String
  queryProfileKey : String
  queryRole : String
  documentProfileKey : String
  documentRole : String
  sourceDimensions : Int
  distanceMetric : String
  queryEmbeddingId : Uuid
  queryInputRole : String
  queryText : String
  enabled : Bool

/-- A row of `semantic_match_events_v3`. -/
structure MatchEvent (Uuid : Type) where
  matchEventId : Uuid
  tenantId : Uuid
  alertRuleId : Option Uuid
  spaceKey : String
  purpose : String
  sourceEmbeddingId : Uuid
  sourceInputRole : String
  candidateEmbeddingId : Uuid
  candidateInputRole : String
  semanticScore : ℚ
  semanticRank : Option Int
  lexicalRank : Option Int
  fusedScore : ℚ
  disposition : String
  notificationDedupeKey : String

/-- All five tables of the schema. -/
structure AlertDatabase (Uuid Vec : Type) extends Database Uuid Vec where
  rules : List (AlertRule Uuid)
  events : List (MatchEvent Uuid)

/-! ## §2. The constraints. -/

/-- The columns by which an embedding is referred to. -/
structure EmbeddingRef (Uuid : Type) where
  tenantId : Uuid
  embeddingId : Uuid
  spaceKey : String
  purpose : String
  inputRole : String
  deriving DecidableEq

section Constraints

variable {Uuid Vec : Type}

def SemanticEmbedding.key (e : SemanticEmbedding Uuid Vec) : EmbeddingRef Uuid :=
  ⟨e.tenantId, e.embeddingId, e.spaceKey, e.purpose, e.inputRole⟩

def AlertRule.key (r : AlertRule Uuid) : Uuid × Uuid := (r.tenantId, r.alertRuleId)

def AlertRule.space (r : AlertRule Uuid) : SpaceRef :=
  ⟨r.spaceKey, r.purpose, r.queryProfileKey, r.queryRole, r.documentProfileKey, r.documentRole,
    r.sourceDimensions, r.distanceMetric⟩

def AlertRule.queryEmbedding (r : AlertRule Uuid) : EmbeddingRef Uuid :=
  ⟨r.tenantId, r.queryEmbeddingId, r.spaceKey, r.purpose, r.queryInputRole⟩

/-- `(tenant_id, alert_rule_id)` of an event, unless the rule is null. -/
def MatchEvent.rule (ev : MatchEvent Uuid) : Option (Uuid × Uuid) :=
  ev.alertRuleId.map (fun id => (ev.tenantId, id))

def MatchEvent.source (ev : MatchEvent Uuid) : EmbeddingRef Uuid :=
  ⟨ev.tenantId, ev.sourceEmbeddingId, ev.spaceKey, ev.purpose, ev.sourceInputRole⟩

def MatchEvent.candidate (ev : MatchEvent Uuid) : EmbeddingRef Uuid :=
  ⟨ev.tenantId, ev.candidateEmbeddingId, ev.spaceKey, ev.purpose, ev.candidateInputRole⟩

/-- The CHECKs on a rule. -/
@[mk_iff]
structure AlertRule.RowValid (r : AlertRule Uuid) : Prop where
  name : lengthBetween r.name 1 200
  purpose : r.purpose ∈ purposes
  queryInputRole : r.queryInputRole = r.queryRole

/-- The CHECKs on an event. -/
@[mk_iff]
structure MatchEvent.RowValid (ev : MatchEvent Uuid) : Prop where
  purpose : ev.purpose ∈ purposes
  semanticScore : -1 ≤ ev.semanticScore ∧ ev.semanticScore ≤ 1
  semanticRank : ∀ rank ∈ ev.semanticRank, 0 < rank
  lexicalRank : ∀ rank ∈ ev.lexicalRank, 0 < rank
  fusedScore : 0 ≤ ev.fusedScore
  disposition : ev.disposition ∈
    ["candidate", "suppressed", "queued", "sent", "acknowledged", "expired"]
  dedupeKey : lengthBetween ev.notificationDedupeKey 16 512
  distinct : ev.sourceEmbeddingId ≠ ev.candidateEmbeddingId

/-- The keys and foreign keys of the two tables. -/
@[mk_iff]
structure AlertConsistent (db : AlertDatabase Uuid Vec) : Prop where
  ruleId : Unique AlertRule.alertRuleId db.rules
  ruleKey : Unique AlertRule.key db.rules
  ruleSpace : ForeignKey AlertRule.space db.rules Space.key db.spaces
  ruleQuery : ForeignKey AlertRule.queryEmbedding db.rules SemanticEmbedding.key db.embeddings
  eventId : Unique MatchEvent.matchEventId db.events
  eventKey : Unique (fun ev : MatchEvent Uuid => (ev.tenantId, ev.matchEventId)) db.events
  eventDedupe : Unique (fun ev : MatchEvent Uuid => (ev.tenantId, ev.notificationDedupeKey))
    db.events
  eventRule : ForeignKeyIfSet MatchEvent.rule db.events AlertRule.key db.rules
  eventSource : ForeignKey MatchEvent.source db.events SemanticEmbedding.key db.embeddings
  eventCandidate : ForeignKey MatchEvent.candidate db.events SemanticEmbedding.key db.embeddings

variable [DecidableEq Uuid]

instance : DecidablePred (@AlertRule.RowValid Uuid) := fun r =>
  decidable_of_iff _ (AlertRule.rowValid_iff r).symm

instance : DecidablePred (@MatchEvent.RowValid Uuid) := fun ev =>
  decidable_of_iff _ (MatchEvent.rowValid_iff ev).symm

instance (db : AlertDatabase Uuid Vec) : Decidable (AlertConsistent db) :=
  decidable_of_iff _ (alertConsistent_iff db).symm

/-- Every constraint of the schema. -/
def AlertPostgres (pg : PgVector Vec) (db : AlertDatabase Uuid Vec) : Prop :=
  Postgres pg db.toDatabase ∧ AlertConsistent db ∧ Check AlertRule.RowValid db.rules
    ∧ Check MatchEvent.RowValid db.events

instance (pg : PgVector Vec) : DecidablePred (@AlertPostgres Uuid Vec pg) := fun db => by
  unfold AlertPostgres; infer_instance

/-! ## §3. Writes. -/

/-- One statement on one of the five tables. -/
inductive AlertWrite (Uuid Vec : Type)
  | base (write : Write Uuid Vec)
  | rules (statement : Statement (AlertRule Uuid))
  | events (statement : Statement (MatchEvent Uuid))

/-- `ON DELETE CASCADE` from the embeddings: the events that refer to none of
the deleted rows. -/
def eventsAfterBase (db : AlertDatabase Uuid Vec) : Write Uuid Vec → List (MatchEvent Uuid)
  | .embeddings (.delete which) =>
      db.events.filter (fun ev =>
        !(db.embeddings.filter which).any (fun e => e.key = ev.source ∨ e.key = ev.candidate))
  | _ => db.events

/-- `ON DELETE CASCADE` from the rules. -/
def eventsAfterRules (db : AlertDatabase Uuid Vec) :
    Statement (AlertRule Uuid) → List (MatchEvent Uuid)
  | .delete which =>
      db.events.filter (fun ev => !(db.rules.filter which).any (fun r => ev.rule = some r.key))
  | _ => db.events

/-- The state after a write and its cascades, before the constraints are checked. -/
def AlertDatabase.write (db : AlertDatabase Uuid Vec) :
    AlertWrite Uuid Vec → AlertDatabase Uuid Vec
  | .base w => { toDatabase := db.toDatabase.write w
                 rules := db.rules
                 events := eventsAfterBase db w }
  | .rules statement => { db with rules := statement.apply db.rules
                                  events := eventsAfterRules db statement }
  | .events statement => { db with events := statement.apply db.events }

/-- Any sequence of writes that the constraints accept, from empty tables. -/
def alertWrites (pg : PgVector Vec) : System (AlertDatabase Uuid Vec) (AlertWrite Uuid Vec) :=
  System.guarded (fun db => db = ⟨⟨[], [], []⟩, [], []⟩) AlertDatabase.write (AlertPostgres pg)

theorem alertPostgres_of_reachable {pg : PgVector Vec} {db : AlertDatabase Uuid Vec}
    (h : (alertWrites pg).Reachable db) : AlertPostgres pg db := by
  apply System.ok_of_reachable _ h
  intro db hdb
  rw [hdb]
  refine ⟨⟨⟨?_, ?_, ?_, ?_, ?_, ?_, ?_, ?_⟩, ?_, ?_, ?_⟩, ⟨?_, ?_, ?_, ?_, ?_, ?_, ?_, ?_, ?_, ?_⟩,
    ?_, ?_⟩
  all_goals first | exact List.nodup_nil | exact fun _ hmem => absurd hmem List.not_mem_nil

end Constraints

/-! ## §4. Events in their place. -/

section Placed

variable {Uuid Vec : Type}

/-- The embedding with this id has the event's tenant, space and purpose. -/
def MatchEvent.Names (ev : MatchEvent Uuid) (db : AlertDatabase Uuid Vec) (id : Uuid) : Prop :=
  ∃ e ∈ db.embeddings, e.embeddingId = id ∧ e.tenantId = ev.tenantId
    ∧ e.spaceKey = ev.spaceKey ∧ e.purpose = ev.purpose

/-- Two distinct embeddings, and a rule if there is one, all of the event's
tenant, space and purpose. -/
structure MatchEvent.Placed (ev : MatchEvent Uuid) (db : AlertDatabase Uuid Vec) : Prop where
  source : ev.Names db ev.sourceEmbeddingId
  candidate : ev.Names db ev.candidateEmbeddingId
  distinct : ev.sourceEmbeddingId ≠ ev.candidateEmbeddingId
  rule : ∀ id, ev.alertRuleId = some id →
    ∃ r ∈ db.rules, r.alertRuleId = id ∧ r.tenantId = ev.tenantId
      ∧ r.spaceKey = ev.spaceKey ∧ r.purpose = ev.purpose

/-- A rule the event is filed under has the event's space and purpose. -/
def MatchEvent.InScope (ev : MatchEvent Uuid) (r : AlertRule Uuid) : Prop :=
  ev.alertRuleId = some r.alertRuleId → r.spaceKey = ev.spaceKey ∧ r.purpose = ev.purpose

instance [DecidableEq Uuid] (ev : MatchEvent Uuid) (r : AlertRule Uuid) :
    Decidable (ev.InScope r) := by
  unfold MatchEvent.InScope; infer_instance

/-- What a write must not do: file an event under a rule of another space or
purpose, or move a rule with events to one. -/
def WriteInScope (db : AlertDatabase Uuid Vec) : AlertWrite Uuid Vec → Prop
  | .base _ => True
  | .rules statement => Related MatchEvent.InScope db.events (statement.written db.rules)
  | .events statement => Related MatchEvent.InScope (statement.written db.events) db.rules

instance [DecidableEq Uuid] (db : AlertDatabase Uuid Vec) (w : AlertWrite Uuid Vec) :
    Decidable (WriteInScope db w) := by
  cases w <;> unfold WriteInScope <;> infer_instance

variable {pg : PgVector Vec} {db : AlertDatabase Uuid Vec}

/-- What a composite reference to an embedding says. -/
theorem MatchEvent.names_of_ref {ev : MatchEvent Uuid} {id : Uuid} {role : String}
    (h : ∃ e ∈ db.embeddings,
      e.key = (⟨ev.tenantId, id, ev.spaceKey, ev.purpose, role⟩ : EmbeddingRef Uuid)) :
    ev.Names db id := by
  obtain ⟨e, he, hkey⟩ := h
  simp only [SemanticEmbedding.key, EmbeddingRef.mk.injEq] at hkey
  obtain ⟨htenant, hid, hspace, hpurpose, _⟩ := hkey
  exact ⟨e, he, hid, htenant, hspace, hpurpose⟩

/-- **The constraints place an event but for the scope of its rule.** -/
theorem MatchEvent.placed_iff (hok : AlertPostgres pg db) {ev : MatchEvent Uuid}
    (hev : ev ∈ db.events) : ev.Placed db ↔ ∀ r ∈ db.rules, ev.InScope r := by
  obtain ⟨_, hkeys, _, hrows⟩ := hok
  constructor
  · intro h r hr hrule
    obtain ⟨r', hr', hid, _, hscope⟩ := h.rule r.alertRuleId hrule
    -- a rule id names one rule
    rw [hkeys.ruleId.eq_of_key hr' hr hid] at hscope
    exact hscope
  · intro h
    refine ⟨names_of_ref (hkeys.eventSource ev hev), names_of_ref (hkeys.eventCandidate ev hev),
      (hrows ev hev).distinct, ?_⟩
    intro id hid
    have hset : (ev.tenantId, id) ∈ ev.rule := by
      rw [MatchEvent.rule, hid]
      rfl
    obtain ⟨r, hr, hkey⟩ := hkeys.eventRule ev hev (ev.tenantId, id) hset
    obtain ⟨htenant, hrule⟩ := Prod.mk.inj hkey
    exact ⟨r, hr, hrule, htenant, h r hr (hid.trans (congrArg some hrule.symm))⟩

/-- Every event is filed under rules of its own space and purpose. -/
def EventsInScope (db : AlertDatabase Uuid Vec) : Prop :=
  Related MatchEvent.InScope db.events db.rules

theorem eventsInScope_iff (hok : AlertPostgres pg db) :
    EventsInScope db ↔ ∀ ev ∈ db.events, ev.Placed db := by
  constructor
  · intro h ev hev
    exact (ev.placed_iff hok hev).mpr (h ev hev)
  · intro h ev hev
    exact (ev.placed_iff hok hev).mp (h ev hev)

variable [DecidableEq Uuid]

theorem eventsAfterBase_subset (db : AlertDatabase Uuid Vec) (w : Write Uuid Vec) :
    eventsAfterBase db w ⊆ db.events := by
  unfold eventsAfterBase
  split
  · exact List.filter_subset_self _
  · exact List.Subset.refl _

theorem eventsAfterRules_subset (db : AlertDatabase Uuid Vec)
    (statement : Statement (AlertRule Uuid)) :
    eventsAfterRules db statement ⊆ db.events := by
  unfold eventsAfterRules
  split
  · exact List.filter_subset_self _
  · exact List.Subset.refl _

/-- A statement that writes rules deletes none, and so no events. -/
theorem eventsAfterRules_of_written {statement : Statement (AlertRule Uuid)} {r : AlertRule Uuid}
    (hr : r ∈ statement.written db.rules) : eventsAfterRules db statement = db.events := by
  cases statement with
  | insert rows => rfl
  | update which set => rfl
  | delete which => cases hr

/-- **One write**: it keeps every event in scope iff what it writes is in scope. -/
theorem writeInScope_iff (hscope : EventsInScope db) (w : AlertWrite Uuid Vec) :
    EventsInScope (db.write w) ↔ WriteInScope db w := by
  cases w with
  | base w =>
      constructor
      · intro _
        trivial
      · intro _
        exact hscope.subset (eventsAfterBase_subset db w) (List.Subset.refl _)
  | rules statement =>
      have hevents := eventsAfterRules_subset db statement
      have hkeep : Related MatchEvent.InScope (eventsAfterRules db statement)
            (statement.apply db.rules)
          ↔ Related MatchEvent.InScope (eventsAfterRules db statement)
              (statement.written db.rules) :=
        (hscope.subset hevents (List.Subset.refl _)).write_iff_right
          (fun _ => Statement.mem_apply) (statement.written_subset_apply db.rules)
      refine hkeep.trans ⟨?_, ?_⟩
      · intro h ev hev r hr
        rw [eventsAfterRules_of_written hr] at h
        exact h ev hev r hr
      · intro h
        exact h.subset hevents (List.Subset.refl _)
  | events statement =>
      exact hscope.write_iff (fun _ => Statement.mem_apply)
        (statement.written_subset_apply db.events)

/-- A run of writes in scope keeps every event in scope. -/
theorem eventsInScope_of_reachableBy (h : (alertWrites pg).ReachableBy WriteInScope db) :
    EventsInScope db := by
  refine System.ReachableBy.invariant (I := EventsInScope) ?_ ?_ h
  · intro db hdb ev hev
    rw [show db = ⟨⟨[], [], []⟩, [], []⟩ from hdb] at hev
    cases hev
  · intro db w db' hscope hw hstep
    obtain ⟨_, rfl⟩ := System.guarded_step_eq_some.mp hstep
    exact (writeInScope_iff hscope w).mpr hw

end Placed

/-- **In every run whose writes stay in scope, every event is in its place**; a
write out of scope is exactly one that displaces an event.  The embeddings of
an event are in place in every run. -/
theorem events_placed {Uuid Vec : Type} [DecidableEq Uuid] (pg : PgVector Vec) :
    (∀ db : AlertDatabase Uuid Vec, (alertWrites pg).ReachableBy WriteInScope db →
        ∀ ev ∈ db.events, ev.Placed db)
      ∧ (∀ (db : AlertDatabase Uuid Vec) (w : AlertWrite Uuid Vec) (db' : AlertDatabase Uuid Vec),
          (alertWrites pg).Reachable db → (∀ ev ∈ db.events, ev.Placed db) →
          (alertWrites pg).step db w = some db' →
            ((∀ ev ∈ db'.events, ev.Placed db') ↔ WriteInScope db w))
      ∧ ∀ db : AlertDatabase Uuid Vec, (alertWrites pg).Reachable db → ∀ ev ∈ db.events,
          ev.Names db ev.sourceEmbeddingId ∧ ev.Names db ev.candidateEmbeddingId
            ∧ ev.sourceEmbeddingId ≠ ev.candidateEmbeddingId := by
  refine ⟨?_, ?_, ?_⟩
  · intro db h
    have hok := alertPostgres_of_reachable h.reachable
    exact (eventsInScope_iff hok).mp (eventsInScope_of_reachableBy h)
  · intro db w db' h hplaced hstep
    have hok := alertPostgres_of_reachable h
    have hok' := alertPostgres_of_reachable (h.step trivial hstep)
    obtain ⟨_, rfl⟩ := System.guarded_step_eq_some.mp hstep
    rw [← eventsInScope_iff hok']
    exact writeInScope_iff ((eventsInScope_iff hok).mpr hplaced) w
  · intro db h ev hev
    obtain ⟨_, hkeys, _, hrows⟩ := alertPostgres_of_reachable h
    exact ⟨MatchEvent.names_of_ref (hkeys.eventSource ev hev),
      MatchEvent.names_of_ref (hkeys.eventCandidate ev hev), (hrows ev hev).distinct⟩

/-! ## §5. A run out of scope. -/

/-- An alert rule of the sample tenant, for one of the two spaces below. -/
def sampleRule (spaceKey : String) : AlertRule Nat where
  alertRuleId := 1
  tenantId := 1
  name := "similar clips"
  spaceKey := spaceKey
  purpose := "clip_search"
  queryProfileKey := "cliptown:test:query"
  queryRole := "query"
  documentProfileKey := "cliptown:test:document"
  documentRole := "document"
  sourceDimensions := 2
  distanceMetric := "cosine"
  queryEmbeddingId := if spaceKey = sampleSpace.spaceKey then 102 else 103
  queryInputRole := "query"
  queryText := ""
  enabled := true

/-- An event of the sample space, filed under the rule. -/
def sampleEvent : MatchEvent Nat where
  matchEventId := 1
  tenantId := 1
  alertRuleId := some 1
  spaceKey := sampleSpace.spaceKey
  purpose := "clip_search"
  sourceEmbeddingId := 102
  sourceInputRole := "query"
  candidateEmbeddingId := 101
  candidateInputRole := "document"
  semanticScore := 0
  semanticRank := some 1
  lexicalRank := none
  fusedScore := 0
  disposition := "candidate"
  notificationDedupeKey := "sample-dedupe-key"

/-- A second space over the same two profiles. -/
def otherSpace : Space := { sampleSpace with spaceKey := "cliptown:test:other:v3" }

/-- A document and a query embedding of the sample space, and a query embedding
of the other. -/
def sampleEmbeddings : List (SemanticEmbedding Nat SampleVec) :=
  let query : SemanticEmbedding Nat SampleVec :=
    { sampleEmbedding with
      embeddingId := 102, inputRole := "query", profileKey := "cliptown:test:query" }
  [sampleEmbedding, query, { query with embeddingId := 103, spaceKey := otherSpace.spaceKey }]

/-- Two spaces, three embeddings, a rule of the given space, an event. -/
def sampleWrites (spaceKey : String) : List (AlertWrite Nat SampleVec) :=
  [.base (.profiles (.insert (sampleProfiles "text-embedding-3-small" true))),
    .base (.spaces (.insert [sampleSpace, otherSpace])),
    .base (.embeddings (.insert sampleEmbeddings)),
    .rules (.insert [sampleRule spaceKey]),
    .events (.insert [sampleEvent])]

/-- The state these writes lead to. -/
def afterSampleWrites (spaceKey : String) : AlertDatabase Nat SampleVec :=
  (sampleWrites spaceKey).foldl AlertDatabase.write ⟨⟨[], [], []⟩, [], []⟩

/-- With a rule of the event's space, the run keeps the event in its place. -/
theorem events_placed_sample :
    sampleEvent.Placed (afterSampleWrites sampleSpace.spaceKey) := by
  have halong : System.AcceptedAlong AlertDatabase.write (AlertPostgres samplePg) WriteInScope
      (⟨⟨[], [], []⟩, [], []⟩ : AlertDatabase Nat SampleVec)
      (sampleWrites sampleSpace.spaceKey) := by decide +kernel
  exact (events_placed samplePg).1 _ (halong.reachableBy (.init rfl)) sampleEvent
    (List.mem_singleton.mpr rfl)

/-- The constraints accept an event of one space filed under a rule of another. -/
theorem event_outside_rule :
    (alertWrites samplePg).Reachable (afterSampleWrites otherSpace.spaceKey)
      ∧ sampleEvent ∈ (afterSampleWrites otherSpace.spaceKey).events
      ∧ ¬ sampleEvent.Placed (afterSampleWrites otherSpace.spaceKey) := by
  have halong : System.AcceptedAlong AlertDatabase.write (AlertPostgres samplePg)
      (fun _ _ => True) (⟨⟨[], [], []⟩, [], []⟩ : AlertDatabase Nat SampleVec)
      (sampleWrites otherSpace.spaceKey) := by decide +kernel
  have hreachable : (alertWrites samplePg).Reachable (afterSampleWrites otherSpace.spaceKey) :=
    halong.reachableBy (.init rfl)
  have hmem : sampleEvent ∈ (afterSampleWrites otherSpace.spaceKey).events :=
    List.mem_singleton.mpr rfl
  refine ⟨hreachable, hmem, ?_⟩
  rw [sampleEvent.placed_iff (alertPostgres_of_reachable hreachable) hmem]
  decide

end ClipTown.ModelSpace
