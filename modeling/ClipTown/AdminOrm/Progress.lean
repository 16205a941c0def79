/-
  ClipTown.AdminOrm.Progress — every `record_action` call comes to its answer
  (`admin-orm/src/lib.rs`, `AdminWriteContext::record_action`).

  An insert waits for another transaction's row of the same key.  That
  transaction is past its own insert, so it waits for nobody: waiting is one step
  deep, and nothing deadlocks.

    • `step_effect` — what one statement does to its call and to the others,
    • `calls_settle` — a run is short, and one that cannot go on has answered
      every call,
    • `retry_succeeds` — a call repeated after its answer was lost gets the
      operation that was recorded.
-/
import ClipTown.AdminOrm.RecordAction

namespace ClipTown.AdminOrm

open Checks Mvcc Transitions

/-! ## §1. One statement. -/

/-- The statements a call has to run yet, at most. -/
@[simp] def Pc.left {Uuid : Type} : Pc Uuid → ℕ
  | .start => 4
  | .begun => 3
  | .conflicted => 2
  | .enqueueing _ => 2
  | .rejecting => 1
  | .committing _ => 1
  | .done _ => 0

/-- The statement runs, and its answer comes. -/
def Statement.FaultFree : Statement → Prop
  | .fail => False
  | .loseAcknowledgement => False
  | _ => True

section Calls

variable {CallId Uuid : Type} [DecidableEq CallId] {input : CallId → AdminAction}
  {newV4 : CallId → Uuid} {toText : Uuid → String} {parseStr : String → Option Uuid}

/-- What a statement of call `c` does: it takes `c` further, leaves the other
calls where they are, and adds to the tables only. -/
structure Effect (c : CallId) (s s' : State CallId Uuid) : Prop where
  others : ∀ d, d ≠ c → s'.pc d = s.pc d
  left : (s'.pc c).left < (s.pc c).left
  requests : Grows c s.log s'.log s.requests s'.requests
  /-- A commit is the end of a call that has an operation. -/
  commits : s.log c ≠ .committed → s'.log c = .committed →
    s'.requests = s.requests ∧ ∃ operationId, s.pc c = .committing operationId

/-- A statement that leaves the log and the requests alone. -/
theorem Effect.goto {s : State CallId Uuid} {c : CallId} {pc : Pc Uuid}
    {outbox : Table CallId (OutboxRow Uuid)} (hleft : pc.left < (s.pc c).left) :
    Effect c s ({ s with outbox := outbox }.goto c pc) where
  others _ hd := Function.update_of_ne hd _ _
  left := by
    show (Function.update s.pc c pc c).left < _
    rw [Function.update_self]
    exact hleft
  requests := .refl c _ _
  commits hbefore hafter := absurd hafter hbefore

/-- A statement that begins or ends the transaction. -/
theorem Effect.mark {s : State CallId Uuid} {c : CallId} {status : TxStatus} {pc : Pc Uuid}
    (hleft : pc.left < (s.pc c).left) (hlog : s.log c ≠ .committed)
    (hcommit : status = .committed → ∃ operationId, s.pc c = .committing operationId) :
    Effect c s ((s.mark c status).goto c pc) where
  others _ hd := Function.update_of_ne hd _ _
  left := by
    show (Function.update s.pc c pc c).left < _
    rw [Function.update_self]
    exact hleft
  requests := .setStatus status hlog
  commits _ hafter := by
    have hstatus : Function.update s.log c status c = .committed := hafter
    rw [Function.update_self] at hstatus
    exact ⟨rfl, hcommit hstatus⟩

theorem Effect.abort {s : State CallId Uuid} {c : CallId} {e : AdminOrmError}
    (hleft : 0 < (s.pc c).left) (hlog : s.log c ≠ .committed) : Effect c s (s.abort c e) :=
  .mark hleft hlog (fun h => by cases h)

/-- The insert of the request is not there while another's row of the key is in
flight. -/
theorem waits_of_insertRequest {s : State CallId Uuid} {c : CallId}
    (h : insertRequest input newV4 toText parseStr s c = none) :
    ∃ v ∈ s.requests, v.row.idempotencyKey = (input c).idempotencyKey ∧
      s.log v.writer = .inProgress ∧ v.writer ≠ c := by
  simp only [insertRequest] at h
  split at h
  · rename_i hwaits
    exact insertOnConflict_waits hwaits
  · cases h
  · split at h <;> cases h

/-- The insert of the request. -/
theorem insertRequest_effect (hparse : ∀ u, parseStr (toText u) = some u)
    {s s' : State CallId Uuid} {c : CallId} (h : Inv input newV4 s) (hpc : s.pc c = .begun)
    (hstep : insertRequest input newV4 toText parseStr s c = some s') : Effect c s s' := by
  simp only [insertRequest, operationIdFromRow_eq hparse] at hstep
  split at hstep
  · cases hstep
  · rw [Option.some.injEq] at hstep
    rw [← hstep]
    exact .goto (by simp [hpc])
  · rename_i requests hinserted
    obtain ⟨hrequests, -⟩ := insertOnConflict_inserted h.begun hinserted
    rw [Option.some.injEq] at hstep
    rw [← hstep]
    refine ⟨fun _ hd => Function.update_of_ne hd _ _, ?_, ?_, ?_⟩
    · show (Function.update s.pc c (Pc.enqueueing (newV4 c)) c).left < _
      rw [Function.update_self, hpc]
      exact Nat.lt_succ_self 2
    · show Grows c s.log s.log s.requests requests
      rw [hrequests]
      exact .insert _
    · intro hbefore hafter
      exact absurd hafter hbefore

theorem selectExisting_effect {s : State CallId Uuid} {c : CallId} (hpc : s.pc c = .conflicted)
    (hlog : s.log c ≠ .committed) :
    Effect c s (selectExisting input toText parseStr s c) := by
  unfold selectExisting
  split
  · exact .goto (by simp [hpc])
  · split
    · exact .abort (by simp [hpc]) hlog
    · exact .goto (by simp [hpc])

/-- **The step lemma.** -/
theorem step_effect (hparse : ∀ u, parseStr (toText u) = some u) {s s' : State CallId Uuid}
    {a : CallId × Statement} (h : Inv input newV4 s)
    (hstep : step input newV4 toText parseStr s a = some s') : Effect a.1 s s' := by
  obtain ⟨c, statement⟩ := a
  have hcall := h.call c
  have hopen : (∀ result, s.pc c ≠ .done result) → s.log c ≠ .committed := by
    intro hrunning hlog
    have hstatus := hcall.open_of_running hrunning
    rw [hlog] at hstatus
    rcases hstatus with hstatus | hstatus <;> cases hstatus
  simp only [step] at hstep
  split at hstep
  -- one case for each statement, then a failure, which may come at any of them
  · rename_i hpc
    rw [Option.some.injEq] at hstep
    rw [← hstep]
    exact .mark (by simp [hpc]) (hopen (by rw [hpc]; simp)) (fun h => by cases h)
  · rename_i hpc
    exact insertRequest_effect hparse h hpc hstep
  · rename_i hpc
    rw [Option.some.injEq] at hstep
    rw [← hstep]
    exact selectExisting_effect hpc (hopen (by rw [hpc]; simp))
  · rename_i operationId hpc
    rw [Option.some.injEq] at hstep
    rw [← hstep]
    exact .goto (by simp [hpc])
  · rename_i operationId hpc
    rw [Option.some.injEq] at hstep
    rw [← hstep]
    exact .mark (by simp [hpc]) (hopen (by rw [hpc]; simp)) (fun _ => ⟨_, hpc⟩)
  · rename_i operationId hpc
    rw [Option.some.injEq] at hstep
    rw [← hstep]
    exact .mark (by simp [hpc]) (hopen (by rw [hpc]; simp)) (fun _ => ⟨_, hpc⟩)
  · rename_i hpc
    rw [Option.some.injEq] at hstep
    rw [← hstep]
    exact .abort (by simp [hpc]) (hopen (by rw [hpc]; simp))
  · cases hstep
  · rename_i hdone
    rw [Option.some.injEq] at hstep
    rw [← hstep]
    refine .abort ?_ (hopen hdone)
    revert hdone
    cases s.pc c <;> simp [Pc.left]
  · cases hstep

/-- A step of the calls keeps the invariant and has its effect. -/
theorem calls_step (hparse : ∀ u, parseStr (toText u) = some u) {s s' : State CallId Uuid}
    {a : CallId × Statement} (h : Inv input newV4 s)
    (hstep : (calls input newV4 toText parseStr).step s a = some s') :
    Inv input newV4 s' ∧ Effect a.1 s s' :=
  ⟨inv_step hparse h hstep, step_effect hparse h hstep⟩

/-! ## §2. Nothing deadlocks. -/

/-- A call whose row is in flight is past its insert, and can go on. -/
theorem inFlight_goes_on {s : State CallId Uuid} {d : CallId} (h : Inv input newV4 s)
    (hwrote : d ∈ writers s.requests) (hlog : s.log d = .inProgress) :
    ∃ statement, statement.FaultFree ∧
      (step input newV4 toText parseStr s (d, statement)).isSome := by
  have hcall := h.call d
  cases hpc : s.pc d with
  | start =>
      rw [hpc] at hcall
      exact absurd hwrote hcall.2.1
  | begun =>
      rw [hpc] at hcall
      exact absurd hwrote hcall.2.1
  | conflicted =>
      rw [hpc] at hcall
      exact absurd hwrote hcall.1.2.1
  | rejecting =>
      rw [hpc] at hcall
      exact absurd hwrote hcall.1.2.1
  | enqueueing operationId => exact ⟨.insertOutbox, trivial, by simp [step, hpc]⟩
  | committing operationId => exact ⟨.commit, trivial, by simp [step, hpc]⟩
  | done result =>
      rw [hpc] at hcall
      cases result with
      | ok operationId =>
          rw [hcall.1.1] at hlog
          cases hlog
      | error e =>
          rcases hcall with ⟨hst, -⟩ | ⟨hst, -⟩ <;> rw [hst] at hlog <;> cases hlog

/-- While a call has no answer, some call can go on. -/
theorem goes_on {s : State CallId Uuid} {c : CallId} (h : Inv input newV4 s)
    (hrunning : ∀ result, s.pc c ≠ .done result) :
    ∃ d statement, statement.FaultFree ∧
      (step input newV4 toText parseStr s (d, statement)).isSome := by
  cases hpc : s.pc c with
  | start => exact ⟨c, .begin, trivial, by simp [step, hpc]⟩
  | begun =>
      cases hinsert : insertRequest input newV4 toText parseStr s c with
      | some s' => exact ⟨c, .insertRequest, trivial, by simp [step, hpc, hinsert]⟩
      | none =>
          -- the insert waits, for a call that does not
          obtain ⟨v, hv, -, hflight, -⟩ := waits_of_insertRequest hinsert
          exact ⟨v.writer, inFlight_goes_on h (mem_writers.mpr ⟨v, hv, rfl⟩) hflight⟩
  | conflicted => exact ⟨c, .selectExisting, trivial, by simp [step, hpc]⟩
  | rejecting => exact ⟨c, .rollback, trivial, by simp [step, hpc]⟩
  | enqueueing operationId => exact ⟨c, .insertOutbox, trivial, by simp [step, hpc]⟩
  | committing operationId => exact ⟨c, .commit, trivial, by simp [step, hpc]⟩
  | done result => exact absurd hpc (hrunning result)

/-! ## §3. Runs. -/

omit [DecidableEq CallId] in
theorem left_le (s : State CallId Uuid) (c : CallId) : (s.pc c).left ≤ 4 := by
  cases s.pc c <;> simp

/-- A statement leaves its own call less to do, and every other call as much. -/
theorem Effect.left_le {a : CallId × Statement} {s s' : State CallId Uuid} (h : Effect a.1 s s')
    (c : CallId) : (s'.pc c).left + (if a.1 = c then 1 else 0) ≤ (s.pc c).left := by
  by_cases hc : a.1 = c
  · rw [if_pos hc, ← hc]
    exact h.left
  · rw [if_neg hc, h.others c (Ne.symm hc), Nat.add_zero]

/-- **Every run settles.**  However the statements of the calls follow each other
and whichever of them fail, a run has four statements of each call at most; and
where no statement can go on without a fault, every call has its answer. -/
theorem calls_settle (hparse : ∀ u, parseStr (toText u) = some u)
    {s s' : State CallId Uuid} {as : List (CallId × Statement)}
    (hs : (calls input newV4 toText parseStr).Reachable s)
    (hrun : (calls input newV4 toText parseStr).run s as = some s') :
    (∀ c, as.countP (·.1 = c) ≤ 4) ∧
      ((∀ c statement, statement.FaultFree →
          step input newV4 toText parseStr s' (c, statement) = none) →
        ∀ c, ∃ result, s'.pc c = .done result) := by
  constructor
  · intro c
    have hdrop : ∀ s a s', Inv input newV4 s →
        (calls input newV4 toText parseStr).step s a = some s' →
          Inv input newV4 s' ∧ (s'.pc c).left + (if decide (a.1 = c) then 1 else 0)
            ≤ (s.pc c).left := by
      intro s a s' h hstep
      have heffect := (calls_step hparse h hstep).2.left_le c
      exact ⟨(calls_step hparse h hstep).1, by simpa only [decide_eq_true_eq] using heffect⟩
    have hle := System.run_rank hdrop (inv_reachable hparse hs) hrun
    have hbound := left_le s c
    omega
  · intro hstuck c
    have hs' : (calls input newV4 toText parseStr).Reachable s' :=
      System.ReachableBy.of_run hs (System.along_true as s) hrun
    by_contra hno
    push Not at hno
    obtain ⟨d, statement, hfree, hstep⟩ := goes_on (inv_reachable hparse hs') hno
    rw [hstuck d statement hfree] at hstep
    cases hstep

/-- A call that is done stays so. -/
theorem run_done (hparse : ∀ u, parseStr (toText u) = some u) {s s' : State CallId Uuid}
    {as : List (CallId × Statement)} (h : Inv input newV4 s)
    (hrun : (calls input newV4 toText parseStr).run s as = some s') {d : CallId}
    {result : Except AdminOrmError Uuid} (hdone : s.pc d = .done result) :
    s'.pc d = .done result := by
  refine (System.run_invariant (I := fun s => Inv input newV4 s ∧ s.pc d = .done result)
    ?_ ⟨h, hdone⟩ hrun).2
  rintro s a s₁ ⟨h, hdone⟩ hstep
  obtain ⟨h₁, heffect⟩ := calls_step hparse h hstep
  refine ⟨h₁, ?_⟩
  rw [heffect.others d, hdone]
  rintro rfl
  exact absurd heffect.left (by rw [hdone]; exact Nat.not_lt_zero _)

/-- The committed requests only grow. -/
theorem run_committed (hparse : ∀ u, parseStr (toText u) = some u) {s s' : State CallId Uuid}
    {as : List (CallId × Statement)} (h : Inv input newV4 s)
    (hrun : (calls input newV4 toText parseStr).run s as = some s') {row : RequestRow Uuid}
    (hrow : row ∈ committed s.log s.requests) : row ∈ committed s'.log s'.requests := by
  refine (System.run_invariant
    (I := fun s => Inv input newV4 s ∧ row ∈ committed s.log s.requests) ?_ ⟨h, hrow⟩ hrun).2
  rintro s a s₁ ⟨h, hrow⟩ hstep
  obtain ⟨h₁, heffect⟩ := calls_step hparse h hstep
  exact ⟨h₁, heffect.requests.committed hrow⟩

/-! ## §4. Answers. -/

/-- The answers of a call that meets no fault. -/
def Answered (result : Except AdminOrmError Uuid) : Prop :=
  (∃ operationId, result = .ok operationId) ∨ result = .error .idempotencyConflict

/-- A statement without a fault answers with an operation or with a conflict. -/
theorem step_answers (hparse : ∀ u, parseStr (toText u) = some u) {s s' : State CallId Uuid}
    {a : CallId × Statement} (hfree : a.2.FaultFree)
    (hstep : step input newV4 toText parseStr s a = some s') {result : Except AdminOrmError Uuid}
    (hdone : s'.pc a.1 = .done result) : Answered result := by
  obtain ⟨c, statement⟩ := a
  have hgoto : ∀ {s₁ : State CallId Uuid} {pc : Pc Uuid}, some (s₁.goto c pc) = some s' →
      pc = .done result := by
    intro s₁ pc heq
    rw [Option.some.injEq] at heq
    rw [← heq] at hdone
    rw [← hdone]
    exact (Function.update_self c pc s₁.pc).symm
  simp only [step] at hstep
  split at hstep
  · cases hgoto hstep
  · simp only [insertRequest, operationIdFromRow_eq hparse] at hstep
    split at hstep
    · cases hstep
    · cases hgoto hstep
    · cases hgoto hstep
  · simp only [selectExisting, operationIdFromRow_eq hparse] at hstep
    split at hstep <;> cases hgoto hstep
  · cases hgoto hstep
  · cases hgoto hstep
    exact .inl ⟨_, rfl⟩
  · exact absurd hfree id
  · cases hgoto hstep
    exact .inr rfl
  · cases hstep
  · exact absurd hfree id
  · cases hstep

/-- A call that comes to its end without a fault of its own is answered. -/
theorem run_answers (hparse : ∀ u, parseStr (toText u) = some u) {d : CallId}
    {result : Except AdminOrmError Uuid} :
    ∀ {as : List (CallId × Statement)} {s s' : State CallId Uuid}, Inv input newV4 s →
      (calls input newV4 toText parseStr).run s as = some s' →
      (∀ a ∈ as, a.1 = d → a.2.FaultFree) → (∀ r, s.pc d ≠ .done r) → s'.pc d = .done result →
      Answered result := by
  intro as
  induction as with
  | nil =>
      intro s s' _ hrun _ hpending hdone
      rw [System.run, Option.some.injEq] at hrun
      rw [hrun] at hpending
      exact absurd hdone (hpending result)
  | cons a as ih =>
      intro s s' h hrun hfree hpending hdone
      rw [System.run, Option.bind_eq_some_iff] at hrun
      obtain ⟨s₁, hstep, hrun⟩ := hrun
      obtain ⟨h₁, heffect⟩ := calls_step hparse h hstep
      by_cases hpending₁ : ∀ r, s₁.pc d ≠ .done r
      · exact ih h₁ hrun
          (fun a ha => hfree a (List.mem_cons_of_mem _ ha)) hpending₁ hdone
      · push Not at hpending₁
        obtain ⟨r, hr⟩ := hpending₁
        have hda : d = a.1 := by
          by_contra hne
          rw [heffect.others d hne] at hr
          exact hpending r hr
        have hkept := run_done hparse h₁ hrun hr
        rw [hkept, Pc.done.injEq] at hdone
        rw [← hdone]
        rw [hda] at hr
        exact step_answers hparse (hfree a List.mem_cons_self hda.symm) hstep hr

/-! ## §5. Repeated calls. -/

/-- What a committed call asked for is in the table. -/
def Recorded (input : CallId → AdminAction) (s : State CallId Uuid) : Prop :=
  ∀ c, s.log c = .committed → ∃ operationId,
    requestRow operationId (input c) ∈ committed s.log s.requests

theorem recorded_step {c : CallId} {s s' : State CallId Uuid} (h : Inv input newV4 s)
    (hrecorded : Recorded input s) (heffect : Effect c s s') : Recorded input s' := by
  intro d hd
  by_cases hbefore : s.log d = .committed
  · obtain ⟨operationId, hrow⟩ := hrecorded d hbefore
    exact ⟨operationId, heffect.requests.committed hrow⟩
  · have hdc : d = c := by
      by_contra hne
      rw [heffect.requests.status d hne] at hd
      exact hbefore hd
    rw [hdc] at hd hbefore ⊢
    obtain ⟨hrequests, operationId, hpc⟩ := heffect.commits hbefore hd
    have hcall := h.call c
    rw [hpc] at hcall
    obtain ⟨v, hv, hseen, heq⟩ := mem_visibleTo.mp hcall.2
    refine ⟨operationId, mem_committed.mpr ⟨v, hrequests ▸ hv, ?_, heq⟩⟩
    -- the row it read was committed, the row it wrote is so now
    rcases hseen with hseen | hown
    · exact heffect.requests.keeps v.writer hseen
    · rw [hown]
      exact hd

theorem recorded_reachable (hparse : ∀ u, parseStr (toText u) = some u) {s : State CallId Uuid}
    (h : (calls input newV4 toText parseStr).Reachable s) : Recorded input s := by
  refine System.ReachableBy.invariant_of (J := Inv input newV4)
    (fun hs => inv_reachable hparse hs) ?_ ?_ h
  · intro s hs c hc
    rw [show s = _ from hs] at hc
    cases hc
  · intro s a s' hinv hrecorded _ hstep
    exact recorded_step hinv hrecorded (calls_step hparse hinv hstep).2

/-- Two committed requests of one key are one request. -/
theorem Inv.request_unique {s : State CallId Uuid} (h : Inv input newV4 s)
    {row row' : RequestRow Uuid} (hrow : row ∈ committed s.log s.requests)
    (hrow' : row' ∈ committed s.log s.requests)
    (hkey : row.idempotencyKey = row'.idempotencyKey) : row = row' :=
  List.inj_on_of_nodup_map h.uniqueKey.nodup_committed hrow hrow' hkey

/-- **A retry gets the first answer.**  The transaction of a call has committed,
whether or not its answer arrived.  A call with the same six fields that is not
done yet and meets no fault comes, wherever it stands and whatever other calls run
beside it and fail, to `Ok` with the operation that is in the table already, and
it is one only. -/
theorem retry_succeeds (hparse : ∀ u, parseStr (toText u) = some u) {s s' : State CallId Uuid}
    {as : List (CallId × Statement)} {c d : CallId} {result : Except AdminOrmError Uuid}
    (hs : (calls input newV4 toText parseStr).Reachable s) (hcommitted : s.log c = .committed)
    (hsame : input d = input c) (hpending : ∀ r, s.pc d ≠ .done r)
    (hrun : (calls input newV4 toText parseStr).run s as = some s')
    (hfree : ∀ a ∈ as, a.1 = d → a.2.FaultFree) (hdone : s'.pc d = .done result) :
    ∃ row ∈ committed s.log s.requests, row.payload = input c ∧ result = .ok row.operationId ∧
      ∀ row' ∈ committed s'.log s'.requests,
        row'.idempotencyKey = (input c).idempotencyKey → row' = row := by
  have hinv := inv_reachable hparse hs
  have hs' := System.ReachableBy.of_run hs (System.along_true as s) hrun
  have hinv' := inv_reachable hparse hs'
  obtain ⟨operationId, hrow⟩ := recorded_reachable hparse hs c hcommitted
  have hrow' := run_committed hparse hinv hrun hrow
  have hunique : ∀ row' ∈ committed s'.log s'.requests,
      row'.idempotencyKey = (input c).idempotencyKey → row' = requestRow operationId (input c) :=
    fun row' hmem hkey => hinv'.request_unique hmem hrow' hkey
  refine ⟨_, hrow, rfl, ?_, hunique⟩
  have hcall := hinv'.call d
  rw [hdone] at hcall
  rcases run_answers hparse hinv hrun hfree hpending hdone with ⟨id, rfl⟩ | rfl
  · -- the row behind the answer has the key, so it is that row
    have hown := hunique _ hcall.2 (by rw [← hsame]; rfl)
    exact congrArg Except.ok (congrArg RequestRow.operationId hown)
  · rcases hcall with ⟨-, -, he⟩ | ⟨-, hconflict⟩
    · cases he
    · obtain ⟨row', hmem, hkey, hne⟩ := hconflict rfl
      rw [hsame] at hkey hne
      rw [hunique row' hmem hkey] at hne
      exact absurd rfl hne

end Calls

/-- The answer of the first call is lost after its commit. -/
def lostRun : List (Bool × Statement) :=
  [(true, .begin), (false, .begin), (true, .insertRequest), (true, .insertOutbox),
    (true, .loseAcknowledgement)]

/-- The second call repeats it. -/
def repeatRun : List (Bool × Statement) :=
  [(false, .insertRequest), (false, .selectExisting), (false, .commit)]

/-- Two calls with one payload. -/
def sameInput (_ : Bool) : AdminAction := sampleInput true

theorem calls_settle_lost :
    ∃ s, (calls sameInput id sampleText sampleParseStr).run
        ⟨[], [], fun _ => .idle, fun _ => .start⟩ lostRun = some s ∧
      ∃ s', (calls sameInput id sampleText sampleParseStr).run s repeatRun = some s' ∧
        (∀ c, repeatRun.countP (·.1 = c) ≤ 4) ∧
        ((∀ c statement, statement.FaultFree →
            step sameInput id sampleText sampleParseStr s' (c, statement) = none) →
          ∀ c, ∃ result, s'.pc c = .done result) :=
  ⟨_, rfl, _, rfl, @calls_settle Bool Bool _ sameInput id sampleText sampleParseStr (by decide)
    _ _ repeatRun (@System.Reachable.of_run _ _ _ lostRun _ _ rfl rfl) rfl⟩

theorem retry_succeeds_lost :
    ∃ s, (calls sameInput id sampleText sampleParseStr).run
        ⟨[], [], fun _ => .idle, fun _ => .start⟩ lostRun = some s ∧
      s.pc true = .done (.error .database) ∧
      ∃ row ∈ committed s.log s.requests, row.payload = sameInput true ∧
        (Except.ok true : Except AdminOrmError Bool) = .ok row.operationId :=
  ⟨_, rfl, rfl, by
    obtain ⟨row, hrow, hpayload, hid, -⟩ :=
      @retry_succeeds Bool Bool _ sameInput id sampleText sampleParseStr (by decide)
        _ _ repeatRun true false (.ok true) (@System.Reachable.of_run _ _ _ lostRun _ _ rfl rfl)
        rfl rfl (fun r h => by cases h) rfl (by simp [repeatRun, Statement.FaultFree]) rfl
    exact ⟨row, hrow, hpayload, hid⟩⟩

end ClipTown.AdminOrm
