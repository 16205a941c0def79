/-
  ClipTown.Locks.PlanConformance — what the routines do is what the plan says.

  Whatever the lease, the pool, the database and the work answer, the calls of a
  routine are the steps of its plan.  Where one fails, the routine stops and
  undoes what it has open, and it reports the last of its failed steps; only a
  failed rollback is not reported.

    • `Follows` — a record of steps is a run of a plan,
    • `leased_follows` — a lease around a run of a plan,
    • `guarded_follows_plan` — the routines of both scopes follow their plans,
    • `withLease_eq` — the lease alone is the routine without a database.
-/
import ClipTown.Locks.Routines

namespace ClipTown.Locks

open Interaction

variable {T : Type}

/-! ## §1. The record of a run. -/

/-- Kind and step of a failure, where they are known. -/
abbrev Failure := Option LockErrorKind × Option LockStep

/-- A step, and how it failed. -/
abbrev Tried := LockStep × Option Failure

def Thrown.failure (err : Thrown) : Failure := (err.kind, err.step)

/-- What `cleanupFailure` reports: without a `LockError`, a failure of the transport. -/
def Failure.normalized (failure : Failure) : Failure :=
  (some (failure.1.getD .transport), failure.2)

def failureOf {α : Type} : Except Thrown α → Option Failure
  | .ok _ => none
  | .error err => some err.failure

/-- The step of a statement. -/
def Statement.step : Statement → LockStep
  | .begin => .pgBegin
  | .advisoryXactLock _ => .pgAdvisoryXactLock
  | .tryAdvisoryXactLock _ => .pgTryAdvisoryXactLock
  | .commit => .pgCommit
  | .rollback => .pgRollback
  | .advisoryLock _ => .pgAdvisoryLock
  | .tryAdvisoryLock _ => .pgTryAdvisoryLock
  | .advisoryUnlock _ => .pgAdvisoryUnlock

/-- The kind of failure that a first column of `false` means. -/
def Statement.refusal : Statement → Option LockErrorKind
  | .tryAdvisoryXactLock _ | .tryAdvisoryLock _ => some .contention
  | .advisoryUnlock _ => some .database
  | _ => none

def Statement.failure (statement : Statement) : Except Thrown (List Row) → Option Failure
  | .error _ => some (some .database, some statement.step)
  | .ok rows =>
      match statement.refusal with
      | some kind => if firstBool rows then none else some (some kind, some statement.step)
      | none => none

/-- The step of the plan that needs the connection first. -/
def connectStep (scope : PgScope) (wait : Bool) : LockStep :=
  match scope with
  | .transaction => .pgBegin
  | .session => if wait then .pgAdvisoryLock else .pgTryAdvisoryLock

/-- The step that is reported where there is no connection. -/
def connectReport : PgScope → LockStep
  | .transaction => .pgBegin
  | .session => .pgAdvisoryLock

/-- The step that a call is, and how it failed.  To check out a client that
there is and to give it back are no steps. -/
def tried (scope : PgScope) (wait : Bool) : Event Call (Answer T) → Option Tried
  | ⟨.acquire _ _ blocking, .ok _⟩ => some (acquireStep blocking, none)
  | ⟨.acquire _ _ blocking, .error err⟩ =>
      some (acquireStep blocking, some (tagStep err (acquireStep blocking)).failure)
  | ⟨.release _, .ok released⟩ =>
      some (.fiduciaRelease,
        if released then none else some (some .lostLease, some .fiduciaRelease))
  | ⟨.release _, .error err⟩ => some (.fiduciaRelease, some (tagStep err .fiduciaRelease).failure)
  | ⟨.connect, .ok _⟩ => none
  | ⟨.connect, .error _⟩ =>
      some (connectStep scope wait, some (some .database, some (connectReport scope)))
  | ⟨.query _ statement, answer⟩ => some (statement.step, statement.failure answer)
  | ⟨.giveBack _ _, _⟩ => none
  | ⟨.work _, .ok _⟩ => some (.work, none)
  | ⟨.work _, .error _⟩ => some (.work, some (some .work, some .work))

/-- The record of a run. -/
def record (scope : PgScope) (wait : Bool) (tr : List (Event Call (Answer T))) : List Tried :=
  tr.filterMap (tried scope wait)

/-- The last failure that is reported: a failed rollback is not. -/
def lastFailure (did : List Tried) : Option Failure :=
  ((did.filter fun t => t.1 ≠ .pgRollback).filterMap Prod.snd).getLast?

/-- What is reported after a first failure, where some is undone. -/
def reported (first : Failure) (undoing : Option Failure) : Failure :=
  (undoing.map Failure.normalized).getD first

/-- Steps that all succeed. -/
def succeeded (steps : List LockStep) : List Tried := steps.map fun step => (step, none)

/-- The record is a run of the plan with this outcome. -/
inductive Follows (steps : List LockStep) : List Tried → Option Failure → Prop
  /-- Every step succeeds. -/
  | whole : Follows steps (succeeded steps) none
  /-- Step `i` is the first to fail; what is open there is undone, and the last
  failure is reported. -/
  | aborted (i : ℕ) {step : LockStep} (hstep : steps[i]? = some step) (first : Failure)
      (undone : List Tried) (h : undone.map Prod.fst = unwinding steps i) :
      Follows steps (succeeded (steps.take i) ++ (step, some first) :: undone)
        (some (reported first (lastFailure undone)))

/-- The steps are taken in order up to the first that fails. -/
inductive Straight (steps : List LockStep) : List Tried → Option Failure → Prop
  | whole : Straight steps (succeeded steps) none
  | stopped (i : ℕ) {step : LockStep} (hstep : steps[i]? = some step) (failure : Failure) :
      Straight steps (succeeded (steps.take i) ++ [(step, some failure)]) (some failure)

/-- The program makes one step. -/
def Performs (scope : PgScope) (wait : Bool) {α : Type} (step : LockStep)
    (p : Routine T α) : Prop :=
  ∀ tr result, Runs p tr result → record scope wait tr = [(step, failureOf result)]

/-! ## §2. Single steps. -/

variable (scope : PgScope) (wait : Bool)

theorem record_append (first rest : List (Event Call (Answer T))) :
    record scope wait (first ++ rest) = record scope wait first ++ record scope wait rest :=
  List.filterMap_append

theorem runWork_performs (guarded : Guarded) :
    Performs scope wait .work (runWork (T := T) guarded) := by
  intro tr result h
  unfold runWork at h
  rw [runs_call_iff] at h
  obtain ⟨answer, rest, rfl, h⟩ := h
  cases answer with
  | ok value =>
      obtain ⟨rfl, rfl⟩ := runs_ret_iff.mp h
      rfl
  | error cause =>
      obtain ⟨rfl, rfl⟩ := runs_ret_iff.mp h
      rfl

theorem exec_performs (client : Client) (key : LockKey) (statement : Statement)
    (h : statement.refusal = none) :
    Performs scope wait statement.step (exec (T := T) client key statement statement.step) := by
  intro tr result hrun
  unfold exec at hrun
  rw [runs_call_iff] at hrun
  obtain ⟨answer, rest, rfl, hrun⟩ := hrun
  cases answer with
  | ok rows =>
      obtain ⟨rfl, rfl⟩ := runs_ret_iff.mp hrun
      show [(statement.step, statement.failure (.ok rows))] = _
      rw [Statement.failure, h]
      rfl
  | error cause =>
      obtain ⟨rfl, rfl⟩ := runs_ret_iff.mp hrun
      rfl

theorem tryLock_performs (client : Client) (key : LockKey) (statement : Statement)
    (h : statement.refusal = some .contention) :
    Performs scope wait statement.step (tryLock (T := T) client key statement statement.step) := by
  intro tr result hrun
  unfold tryLock at hrun
  rw [runs_call_iff] at hrun
  obtain ⟨answer, rest, rfl, hrun⟩ := hrun
  cases answer with
  | ok rows =>
      show (statement.step, statement.failure (.ok rows)) :: record scope wait rest = _
      rw [Statement.failure, h]
      by_cases hrows : firstBool rows = true
      · simp only [hrows, if_true] at hrun ⊢
        obtain ⟨rfl, rfl⟩ := runs_ret_iff.mp hrun
        rfl
      · simp only [hrows] at hrun ⊢
        obtain ⟨rfl, rfl⟩ := runs_ret_iff.mp hrun
        rfl
  | error cause =>
      obtain ⟨rfl, rfl⟩ := runs_ret_iff.mp hrun
      rfl

/-- What a statement or the work throws has its step. -/
theorem step_exec {client : Client} {key : LockKey} {statement : Statement}
    {step : LockStep} {tr : List (Event Call (Answer T))} {err : Thrown}
    (h : Runs (exec (T := T) client key statement step) tr (.error err)) :
    err.step.isSome = true := by
  unfold exec at h
  rw [runs_call_iff] at h
  obtain ⟨answer, rest, rfl, h⟩ := h
  cases answer with
  | ok rows => exact absurd (runs_ret_iff.mp h).2 (by simp)
  | error cause =>
      obtain ⟨rfl, herr⟩ := runs_ret_iff.mp h
      cases herr
      rfl

theorem step_tryLock {client : Client} {key : LockKey} {statement : Statement}
    {step : LockStep} {tr : List (Event Call (Answer T))} {err : Thrown}
    (h : Runs (tryLock (T := T) client key statement step) tr (.error err)) :
    err.step.isSome = true := by
  unfold tryLock at h
  rw [runs_call_iff] at h
  obtain ⟨answer, rest, rfl, h⟩ := h
  cases answer with
  | ok rows =>
      by_cases hrows : firstBool rows = true
      · simp only [hrows, if_true] at h
        exact absurd (runs_ret_iff.mp h).2 (by simp)
      · simp only [hrows] at h
        obtain ⟨rfl, herr⟩ := runs_ret_iff.mp h
        cases herr
        rfl
  | error cause =>
      obtain ⟨rfl, herr⟩ := runs_ret_iff.mp h
      cases herr
      rfl

theorem step_runWork {guarded : Guarded} {tr : List (Event Call (Answer T))} {err : Thrown}
    (h : Runs (runWork (T := T) guarded) tr (.error err)) : err.step.isSome = true := by
  unfold runWork at h
  rw [runs_call_iff] at h
  obtain ⟨answer, rest, rfl, h⟩ := h
  cases answer with
  | ok value => exact absurd (runs_ret_iff.mp h).2 (by simp)
  | error cause =>
      obtain ⟨rfl, herr⟩ := runs_ret_iff.mp h
      cases herr
      rfl

theorem acquireLease_performs (key : LockKey) (blocking : Bool) (opts : AcquireOptions) :
    Performs scope wait (acquireStep blocking) (acquireLease (T := T) key blocking opts) := by
  intro tr result h
  unfold acquireLease at h
  rw [runs_call_iff] at h
  obtain ⟨answer, rest, rfl, h⟩ := h
  cases answer with
  | ok grant =>
      obtain ⟨rfl, rfl⟩ := runs_ret_iff.mp h
      rfl
  | error err =>
      obtain ⟨rfl, rfl⟩ := runs_ret_iff.mp h
      rfl

/-! ## §3. Steps in a row. -/

theorem Straight.cons {step : LockStep} {steps : List LockStep} {did : List Tried}
    {failure : Option Failure} (h : Straight steps did failure) :
    Straight (step :: steps) ((step, none) :: did) failure := by
  cases h with
  | whole => exact .whole
  | stopped i hstep f => exact .stopped (i + 1) hstep f

/-- One step, and the others only where it succeeds. -/
theorem straight_andThen {α β : Type} {step : LockStep} {steps : List LockStep}
    {p : Routine T α} {f : α → Routine T β} (hp : Performs scope wait step p)
    (hf : ∀ a tr result, Runs (f a) tr result →
      Straight steps (record scope wait tr) (failureOf result))
    {tr : List (Event Call (Answer T))} {result : Except Thrown β}
    (h : Runs (p.andThen f) tr result) :
    Straight (step :: steps) (record scope wait tr) (failureOf result) := by
  -- either the first step threw, or the rest ran after it
  rcases runs_andThen_iff.mp h with ⟨e, hfirst, rfl⟩ | ⟨first, a, rest, rfl, hfirst, hrest⟩
  · rw [hp tr _ hfirst]
    exact .stopped 0 rfl e.failure
  · rw [record_append, hp first _ hfirst]
    exact (hf a rest result hrest).cons

theorem insideXact_straight (client : Client) (key : LockKey) (grant : Option LeaseGrant)
    {tr : List (Event Call (Answer T))} {result : Except Thrown T}
    (h : Runs (insideXact client key wait grant) tr result) :
    Straight [if wait then .pgAdvisoryXactLock else .pgTryAdvisoryXactLock, .work, .pgCommit]
      (record scope wait tr) (failureOf result) := by
  unfold insideXact at h
  apply straight_andThen scope wait _ _ h
  · cases wait
    · exact tryLock_performs scope false client key (.tryAdvisoryXactLock key.advisory) rfl
    · exact exec_performs scope true client key (.advisoryXactLock key.advisory) rfl
  · intro _ tr result h
    apply straight_andThen scope wait (runWork_performs scope wait _) _ h
    intro value tr result h
    apply straight_andThen scope wait (exec_performs scope wait client key .commit rfl) _ h
    intro _ tr result h
    obtain ⟨rfl, rfl⟩ := runs_ret_iff.mp h
    exact .whole

/-! ## §4. The two database layers. -/

theorem giveBack_record {α : Type} {client : Client} {failed : Bool}
    {result result' : Except Thrown α} {tr : List (Event Call (Answer T))}
    (h : Runs (finallyGiveBack client failed result) tr result') :
    record scope wait tr = [] ∧ result' = result := by
  unfold finallyGiveBack at h
  rw [runs_call_iff] at h
  obtain ⟨answer, rest, rfl, h⟩ := h
  obtain ⟨rfl, rfl⟩ := runs_ret_iff.mp h
  exact ⟨rfl, rfl⟩

/-- A step that fails first, where nothing is open. -/
theorem Follows.first (step : LockStep) (steps : List LockStep) (failure : Failure) :
    Follows (step :: steps) [(step, some failure)] (some failure) :=
  .aborted 0 rfl failure [] rfl

theorem runXact_follows (key : LockKey) (grant : Option LeaseGrant)
    {tr : List (Event Call (Answer T))} {result : Except Thrown T}
    (h : Runs (runXact key wait grant) tr result) :
    Follows [.pgBegin, if wait then .pgAdvisoryXactLock else .pgTryAdvisoryXactLock, .work,
      .pgCommit] (record .transaction wait tr) (failureOf result) := by
  unfold runXact at h
  rw [runs_call_iff] at h
  obtain ⟨answer, rest, rfl, h⟩ := h
  cases answer with
  | error cause =>
      obtain ⟨rfl, rfl⟩ := runs_ret_iff.mp h
      -- no connection: there is nothing to undo
      exact Follows.first _ _ _
  | ok client =>
      show Follows _ (record .transaction wait rest) _
      rw [runs_bind_iff] at h
      obtain ⟨opening, began, rest, rfl, hbegin, h⟩ := h
      have hopening := exec_performs .transaction wait client key .begin rfl _ _ hbegin
      rw [record_append, hopening]
      cases began with
      | error err =>
          obtain ⟨hback, rfl⟩ := giveBack_record .transaction wait h
          rw [hback]
          exact Follows.first _ _ _
      | ok _ =>
          rw [runs_bind_iff] at h
          obtain ⟨inside, outcome, rest, rfl, hinside, h⟩ := h
          have hstraight := insideXact_straight .transaction wait client key grant hinside
          rw [record_append]
          cases outcome with
          | ok value =>
              obtain ⟨hback, rfl⟩ := giveBack_record .transaction wait h
              rw [hback]
              generalize record .transaction wait inside = did at hstraight ⊢
              cases hstraight with
              | whole => exact .whole
          | error err =>
              rw [runs_call_iff] at h
              -- the answer to the rollback is dropped
              obtain ⟨rolledBack, rest, rfl, h⟩ := h
              obtain ⟨hback, rfl⟩ := giveBack_record .transaction wait h
              show Follows _ (_ ++ (_ ++ (.pgRollback, _) :: record .transaction wait rest)) _
              rw [hback]
              generalize record .transaction wait inside = did at hstraight ⊢
              generalize hfailure : failureOf (Except.error err : Except Thrown T) = failure
                at hstraight ⊢
              -- the transaction is open where the lock, the work or the commit fails
              cases hstraight with
              | whole => exact absurd hfailure (by simp [failureOf])
              | stopped i hstep f =>
                  have hthree : i = 0 ∨ i = 1 ∨ i = 2 := by
                    have hi := (List.getElem?_eq_some_iff.mp hstep).1
                    simp only [List.length_cons, List.length_nil] at hi
                    omega
                  rcases hthree with rfl | rfl | rfl <;> cases hstep
                  · cases wait <;> exact .aborted 1 rfl f [(.pgRollback, _)] rfl
                  · cases wait <;> exact .aborted 2 rfl f [(.pgRollback, _)] rfl
                  · cases wait <;> exact .aborted 3 rfl f [(.pgRollback, _)] rfl

/-- The unlock is tried whatever became of the work, and its failure comes first. -/
theorem unlockSession_record {client : Client} {key : LockKey} {inner outcome : Except Thrown T}
    {poisoned : Bool} {tr : List (Event Call (Answer T))}
    (hinner : ∀ err, inner = .error err → err.step.isSome = true)
    (h : Runs (unlockSession client key inner) tr (outcome, poisoned)) :
    ∃ failure, record scope wait tr = [(.pgAdvisoryUnlock, failure)] ∧
      failure.map Failure.normalized = failure ∧
      failureOf outcome = failure.or (failureOf inner) ∧
      ∀ err, outcome = .error err → err.step.isSome = true := by
  unfold unlockSession at h
  rw [runs_call_iff] at h
  obtain ⟨answer, rest, rfl, h⟩ := h
  cases answer with
  | error cause =>
      -- the unlock failed, or found no lock: either way it is what is reported
      refine ⟨some (some .database, some .pgAdvisoryUnlock), ?_⟩
      cases inner <;> obtain ⟨rfl, houtcome⟩ := runs_ret_iff.mp h <;>
        obtain ⟨rfl, rfl⟩ := Prod.mk.inj houtcome <;> exact ⟨rfl, rfl, rfl, by rintro err ⟨⟩; rfl⟩
  | ok rows =>
      by_cases hrows : firstBool rows = true
      · simp only [hrows, Bool.not_true, Bool.false_eq_true, if_false] at h
        obtain ⟨rfl, houtcome⟩ := runs_ret_iff.mp h
        obtain ⟨rfl, rfl⟩ := Prod.mk.inj houtcome
        refine ⟨none, ?_, rfl, rfl, hinner⟩
        show [(LockStep.pgAdvisoryUnlock, if firstBool rows = true then none else _)] = _
        rw [if_pos hrows]
      · refine ⟨some (some .database, some .pgAdvisoryUnlock), ?_⟩
        simp only [hrows, Bool.not_false, if_true] at h
        have hfailure : record (T := T) scope wait
            [⟨.query client (.advisoryUnlock key.advisory), .ok rows⟩]
            = [(.pgAdvisoryUnlock, some (some .database, some .pgAdvisoryUnlock))] := by
          show [(LockStep.pgAdvisoryUnlock, if firstBool rows = true then none else _)] = _
          rw [if_neg hrows]
          rfl
        cases inner <;> obtain ⟨rfl, houtcome⟩ := runs_ret_iff.mp h <;>
          obtain ⟨rfl, rfl⟩ := Prod.mk.inj houtcome <;>
          exact ⟨hfailure, rfl, rfl, by rintro err ⟨⟩; rfl⟩

theorem failure_tagStep {err : Thrown} (h : err.step.isSome = true) (step : LockStep) :
    (tagStep err step).failure = err.failure := by
  obtain ⟨known, hknown⟩ := Option.isSome_iff_exists.mp h
  rw [tagStep_of_step hknown]

/-- A run of a session that took its lock: the work, and then the unlock. -/
theorem session_follows {lock : LockStep} {work unlock failure : Option Failure}
    (hlock : lock = .pgAdvisoryLock ∨ lock = .pgTryAdvisoryLock)
    (hunlock : unlock.map Failure.normalized = unlock) (h : failure = unlock.or work) :
    Follows [lock, .work, .pgAdvisoryUnlock]
      [(lock, none), (.work, work), (.pgAdvisoryUnlock, unlock)] failure := by
  subst h
  cases work with
  | none =>
      cases unlock with
      | none => exact .whole
      | some u => rcases hlock with rfl | rfl <;> exact .aborted 2 rfl u [] rfl
  | some f =>
      have hreported : unlock.or (some f)
          = some (reported f (lastFailure [(.pgAdvisoryUnlock, unlock)])) := by
        cases unlock with
        | none => rfl
        | some u => exact hunlock.symm
      rw [hreported]
      rcases hlock with rfl | rfl <;> exact .aborted 1 rfl f [(.pgAdvisoryUnlock, unlock)] rfl

theorem runSession_follows (key : LockKey) (grant : Option LeaseGrant)
    {tr : List (Event Call (Answer T))} {result : Except Thrown T}
    (h : Runs (runSession key wait grant) tr result) :
    Follows [connectStep .session wait, .work, .pgAdvisoryUnlock] (record .session wait tr)
      (failureOf result) := by
  have hstep : connectStep .session wait = .pgAdvisoryLock ∨
      connectStep .session wait = .pgTryAdvisoryLock := by
    cases wait
    · exact .inr rfl
    · exact .inl rfl
  unfold runSession at h
  rw [runs_call_iff] at h
  obtain ⟨answer, rest, rfl, h⟩ := h
  cases answer with
  | error cause =>
      obtain ⟨rfl, rfl⟩ := runs_ret_iff.mp h
      exact Follows.first _ _ _
  | ok client =>
      show Follows _ (record .session wait rest) _
      rw [runs_bind_iff] at h
      obtain ⟨inside, ⟨outcome, poisoned⟩, rest, rfl, hinside, h⟩ := h
      -- what is thrown inside has its step, so it is reported as it is
      have hback : record .session wait rest = [] ∧
          result = outcome.mapError fun err => tagStep err .pgAdvisoryLock := by
        cases outcome with
        | ok value =>
            obtain ⟨hback, rfl⟩ := giveBack_record .session wait h
            exact ⟨hback, rfl⟩
        | error err =>
            obtain ⟨hback, rfl⟩ := giveBack_record .session wait h
            exact ⟨hback, rfl⟩
      rw [record_append, hback.1, List.append_nil, hback.2]
      clear h hback
      unfold insideSession at hinside
      rw [runs_bind_iff] at hinside
      obtain ⟨locking, locked, rest, rfl, hlock, h⟩ := hinside
      have hlocking :
          record .session wait locking = [(connectStep .session wait, failureOf locked)] := by
        cases wait
        · exact tryLock_performs .session false client key (.tryAdvisoryLock key.advisory) rfl _ _
            hlock
        · exact exec_performs .session true client key (.advisoryLock key.advisory) rfl _ _ hlock
      have hlocked : ∀ err, locked = .error err → err.step.isSome = true := by
        intro err herr
        subst herr
        cases wait
        · exact step_tryLock hlock
        · exact step_exec hlock
      rw [record_append, hlocking]
      cases locked with
      | error err =>
          obtain ⟨rfl, houtcome⟩ := runs_ret_iff.mp h
          obtain ⟨rfl, rfl⟩ := Prod.mk.inj houtcome
          show Follows _ [(_, some err.failure)] (some (tagStep err .pgAdvisoryLock).failure)
          rw [failure_tagStep (hlocked err rfl)]
          exact Follows.first _ _ _
      | ok _ =>
          rw [runs_bind_iff] at h
          obtain ⟨working, inner, rest, rfl, hwork, h⟩ := h
          obtain ⟨failure, hunlock, hnormalized, houtcome, hsteps⟩ :=
            unlockSession_record .session wait (fun err herr => by
              subst herr
              exact step_runWork hwork) h
          rw [record_append, runWork_performs .session wait _ _ _ hwork, hunlock]
          apply session_follows hstep hnormalized
          rw [← houtcome]
          cases outcome with
          | ok value => rfl
          | error err =>
              show some (tagStep err .pgAdvisoryLock).failure = some err.failure
              rw [failure_tagStep (hsteps err rfl)]

/-! ## §5. The lease around them. -/

theorem bracketStep_outer {outer : LockStep} {opened : List LockStep} {step : LockStep}
    (h : step.closes ≠ some outer) :
    bracketStep (opened ++ [outer]) step = bracketStep opened step ++ [outer] := by
  unfold bracketStep
  cases hundo : step.undo with
  | some undoing => rfl
  | none =>
      cases hcloses : step.closes with
      | none => rfl
      | some closed =>
          have hne : closed ≠ outer := fun heq => h (hcloses.trans (congrArg some heq))
          show (opened ++ [outer]).erase closed = opened.erase closed ++ [outer]
          by_cases hmem : closed ∈ opened
          · exact List.erase_append_left _ hmem
          · rw [List.erase_append_right _ hmem, List.erase_of_not_mem hmem,
              List.erase_of_not_mem (by simpa using hne)]

/-- An outer bracket stays open behind the inner ones. -/
theorem foldl_bracketStep_outer {outer : LockStep} {steps : List LockStep} :
    ∀ {opened : List LockStep}, (∀ step ∈ steps, step.closes ≠ some outer) →
      steps.foldl bracketStep (opened ++ [outer]) = steps.foldl bracketStep opened ++ [outer] := by
  induction steps with
  | nil => exact fun _ => rfl
  | cons step steps ih =>
      intro opened h
      rw [List.foldl_cons, List.foldl_cons, bracketStep_outer (h step List.mem_cons_self)]
      exact ih fun other hother => h other (List.mem_cons_of_mem step hother)

theorem openBrackets_acquire {blocking : Bool} {steps : List LockStep}
    (h : .fiduciaRelease ∉ steps) :
    openBrackets (acquireStep blocking :: steps) = openBrackets steps ++ [.fiduciaRelease] := by
  have hcloses : ∀ step ∈ steps, step.closes ≠ some .fiduciaRelease := by
    intro step hstep hclose
    have hrelease : step = .fiduciaRelease := by
      cases step <;> first | rfl | exact absurd hclose (by decide)
    exact h (hrelease ▸ hstep)
  have hfirst : bracketStep [] (acquireStep blocking) = [] ++ [.fiduciaRelease] := by
    cases blocking <;> rfl
  unfold openBrackets
  rw [List.foldl_cons, hfirst]
  exact foldl_bracketStep_outer hcloses

theorem getElem?_leased {blocking : Bool} {steps : List LockStep} {i : ℕ}
    (hi : i < steps.length) :
    (acquireStep blocking :: steps ++ [LockStep.fiduciaRelease])[i + 1]? = steps[i]? := by
  rw [List.cons_append, List.getElem?_cons_succ, List.getElem?_append_left hi]

theorem take_leased {blocking : Bool} {steps : List LockStep} {n : ℕ} (hn : n ≤ steps.length) :
    (acquireStep blocking :: steps ++ [LockStep.fiduciaRelease]).take (n + 1)
      = acquireStep blocking :: steps.take n := by
  rw [List.cons_append, List.take_succ_cons, List.take_append_of_le_length hn]

/-- Inside the lease, the release comes last of what is undone. -/
theorem unwinding_leased (blocking : Bool) {steps : List LockStep} {i : ℕ}
    (h : .fiduciaRelease ∉ steps) (hi : i < steps.length) :
    unwinding (acquireStep blocking :: steps ++ [.fiduciaRelease]) (i + 1)
      = unwinding steps i ++ [.fiduciaRelease] := by
  have hkept : some LockStep.fiduciaRelease ≠ steps[i]? := by
    intro heq
    exact h (List.mem_of_getElem? heq.symm)
  unfold unwinding
  rw [getElem?_leased hi, take_leased hi.le,
    openBrackets_acquire fun hmem => h (List.mem_of_mem_take hmem), List.filter_append]
  simp [hkept]

/-- Where only the release fails, there is nothing to undo. -/
theorem unwinding_release {blocking : Bool} {steps : List LockStep}
    (hbalanced : openBrackets steps = []) (h : .fiduciaRelease ∉ steps) :
    unwinding (acquireStep blocking :: steps ++ [.fiduciaRelease]) (steps.length + 1) = [] := by
  have hat : (acquireStep blocking :: steps ++ [LockStep.fiduciaRelease])[steps.length + 1]?
      = some .fiduciaRelease := by simp
  unfold unwinding
  rw [hat, take_leased le_rfl, List.take_length, openBrackets_acquire h, hbalanced]
  rfl

theorem lastFailure_release (undone : List Tried) (unlock : Option Failure) :
    lastFailure (undone ++ [(.fiduciaRelease, unlock)]) = unlock.or (lastFailure undone) := by
  unfold lastFailure
  cases unlock with
  | none => simp
  | some failure => simp

/-- What is reported in the end, where a release comes last. -/
def afterRelease (failure unlock : Option Failure) : Option Failure :=
  match failure with
  | none => unlock
  | some first => some (reported first unlock)

/-- A run of a balanced plan, with a lease around it. -/
theorem Follows.leased {blocking : Bool} {steps : List LockStep} {did : List Tried}
    {failure : Option Failure} (hbalanced : openBrackets steps = [])
    (hrelease : .fiduciaRelease ∉ steps) (h : Follows steps did failure)
    (unlock : Option Failure) :
    Follows (acquireStep blocking :: steps ++ [.fiduciaRelease])
      ((acquireStep blocking, none) :: did ++ [(.fiduciaRelease, unlock)])
      (afterRelease failure unlock) := by
  cases h with
  | whole =>
      cases unlock with
      | none =>
          have hall : (acquireStep blocking, none) :: succeeded steps ++ [(.fiduciaRelease, none)]
              = succeeded (acquireStep blocking :: steps ++ [.fiduciaRelease]) := by
            simp [succeeded]
          rw [hall]
          exact .whole
      | some lost =>
          have hat : (acquireStep blocking :: steps ++ [LockStep.fiduciaRelease])[steps.length + 1]?
              = some .fiduciaRelease := by simp
          -- only the release failed, and nothing was open but the lease
          have hrun := Follows.aborted (steps.length + 1) hat lost []
            (unwinding_release hbalanced hrelease).symm
          rw [take_leased le_rfl, List.take_length] at hrun
          exact hrun
  | aborted i hstep first undone hundone =>
      have hi := (List.getElem?_eq_some_iff.mp hstep).1
      -- the step is one further in, and the release comes last
      have hrun := Follows.aborted (i + 1) ((getElem?_leased hi).trans hstep) first
        (undone ++ [(.fiduciaRelease, unlock)]) (by
          rw [unwinding_leased blocking hrelease hi, List.map_append, hundone]
          rfl)
      rw [take_leased hi.le, lastFailure_release] at hrun
      have hlast : afterRelease (some (reported first (lastFailure undone))) unlock
          = some (reported first (unlock.or (lastFailure undone))) := by
        cases unlock <;> rfl
      rw [hlast]
      simpa [succeeded] using hrun

theorem cleanupFailure_failure (key : LockKey) (cleanup inner : Thrown) :
    (Thrown.lockError (cleanupFailure key cleanup inner)).failure
      = Failure.normalized cleanup.failure := by
  cases cleanup <;> rfl

/-- The release of the lease comes after all, and its failure comes first. -/
theorem settle_record {key : LockKey} {grant : LeaseGrant} {inner result : Except Thrown T}
    {tr : List (Event Call (Answer T))} (h : Runs (settle key grant inner) tr result) :
    ∃ unlock, record scope wait tr = [(.fiduciaRelease, unlock)] ∧
      failureOf result = afterRelease (failureOf inner) unlock := by
  unfold settle at h
  rw [runs_call_iff] at h
  obtain ⟨answer, rest, rfl, h⟩ := h
  cases answer with
  | error err =>
      refine ⟨some (tagStep err .fiduciaRelease).failure, ?_⟩
      cases inner with
      | error innerErr =>
          obtain ⟨rfl, rfl⟩ := runs_ret_iff.mp h
          exact ⟨rfl, congrArg some (cleanupFailure_failure key _ innerErr)⟩
      | ok value =>
          obtain ⟨rfl, rfl⟩ := runs_ret_iff.mp h
          exact ⟨rfl, rfl⟩
  | ok released =>
      -- a release that frees nothing means that the lease was lost
      cases released with
      | false =>
          refine ⟨some (some .lostLease, some .fiduciaRelease), ?_⟩
          cases inner <;> obtain ⟨rfl, rfl⟩ := runs_ret_iff.mp h <;> exact ⟨rfl, rfl⟩
      | true =>
          obtain ⟨rfl, rfl⟩ := runs_ret_iff.mp h
          refine ⟨none, rfl, ?_⟩
          cases result <;> rfl

/-- Acquire, run what follows a balanced plan, settle. -/
theorem leased_follows {key : LockKey} {opts : AcquireOptions} {steps : List LockStep}
    {inner : LeaseGrant → Routine T T} (hbalanced : openBrackets steps = [])
    (hrelease : .fiduciaRelease ∉ steps)
    (hinner : ∀ grant tr result, Runs (inner grant) tr result →
      Follows steps (record scope wait tr) (failureOf result))
    {tr : List (Event Call (Answer T))} {result : Except Thrown T}
    (h : Runs ((acquireLease key wait opts).andThen fun grant =>
      (inner grant).bind fun outcome => settle key grant outcome) tr result) :
    Follows (acquireStep wait :: steps ++ [.fiduciaRelease]) (record scope wait tr)
      (failureOf result) := by
  rcases runs_andThen_iff.mp h with ⟨e, hacquire, rfl⟩ | ⟨acquiring, grant, rest, rfl, hacquire, h⟩
  · rw [acquireLease_performs scope wait key wait opts _ _ hacquire]
    exact Follows.first _ _ _
  · rw [runs_bind_iff] at h
    obtain ⟨inside, outcome, settling, rfl, hinside, hsettle⟩ := h
    obtain ⟨unlock, hunlock, houtcome⟩ := settle_record scope wait hsettle
    rw [record_append, record_append, hunlock, houtcome,
      acquireLease_performs scope wait key wait opts _ _ hacquire]
    exact (hinner grant inside outcome hinside).leased hbalanced hrelease unlock

/-! ## §6. The routines. -/

/-- The routine for a scope. -/
def withGuard (scope : PgScope) : LockKey → LockLayers → Bool → AcquireOptions → Bool → Bool →
    Routine T T :=
  match scope with
  | .transaction => withXactLock
  | .session => withSessionLock

/-- The part of the plan inside the lease. -/
def innerPlan (pgAdvisory : Bool) (scope : PgScope) (wait : Bool) : List LockStep :=
  plan { fiducia := false, pgAdvisory } scope wait

theorem openBrackets_innerPlan (pgAdvisory : Bool) :
    openBrackets (innerPlan pgAdvisory scope wait) = [] :=
  openBrackets_plan _ scope wait

theorem release_notMem_innerPlan (pgAdvisory : Bool) :
    .fiduciaRelease ∉ innerPlan pgAdvisory scope wait := by
  cases pgAdvisory <;> cases scope <;> cases wait <;> decide

theorem work_follows {guarded : Guarded} {tr : List (Event Call (Answer T))}
    {result : Except Thrown T} (h : Runs (runWork guarded) tr result) :
    Follows [.work] (record scope wait tr) (failureOf result) := by
  rw [runWork_performs scope wait guarded tr result h]
  cases result with
  | ok value => exact .whole
  | error err => exact Follows.first _ _ _

/-- What `withXactLock` and `withSessionLock` run inside the lease. -/
def inner (scope : PgScope) (key : LockKey) (pgAdvisory wait : Bool) (grant : Option LeaseGrant) :
    Routine T T :=
  if pgAdvisory then
    match scope with
    | .transaction => runXact key wait grant
    | .session => runSession key wait grant
  else runWork { key, grant, client := none }

theorem inner_follows (key : LockKey) (pgAdvisory : Bool) (grant : Option LeaseGrant)
    {tr : List (Event Call (Answer T))} {result : Except Thrown T}
    (h : Runs (inner scope key pgAdvisory wait grant) tr result) :
    Follows (innerPlan pgAdvisory scope wait) (record scope wait tr) (failureOf result) := by
  cases pgAdvisory with
  | false => exact work_follows scope wait h
  | true =>
      cases scope with
      | transaction => exact runXact_follows wait key grant h
      | session => exact runSession_follows wait key grant h

/-- A layer is on and what it needs was not supplied. -/
def missing (layers : LockLayers) (lease pool : Bool) : Bool :=
  (layers.fiducia && !lease) || (layers.pgAdvisory && !pool)

/-- A routine whose inputs are supplied. -/
theorem withGuard_eq (key : LockKey) (layers : LockLayers) (opts : AcquireOptions)
    {lease pool : Bool} (h : missing layers lease pool = false) :
    withGuard (T := T) scope key layers wait opts lease pool
      = if layers.fiducia then
          (acquireLease key wait opts).andThen fun grant =>
            (inner scope key layers.pgAdvisory wait (some grant)).bind fun outcome =>
              settle key grant outcome
        else inner scope key layers.pgAdvisory wait none := by
  unfold missing at h
  rw [Bool.or_eq_false_iff] at h
  cases scope with
  | transaction =>
      show withXactLock key layers wait opts lease pool = _
      unfold withXactLock
      rw [h.1, h.2]
      rfl
  | session =>
      show withSessionLock key layers wait opts lease pool = _
      unfold withSessionLock
      rw [h.1, h.2]
      rfl

theorem withGuard_missing (key : LockKey) (layers : LockLayers) (opts : AcquireOptions)
    {lease pool : Bool} (h : missing layers lease pool = true) :
    ∃ message, withGuard (T := T) scope key layers wait opts lease pool
      = throwing (.invalidPlan key message) := by
  unfold missing at h
  -- the lease is looked at before the pool
  cases hlease : layers.fiducia && !lease with
  | true =>
      cases scope
      · show ∃ message, withSessionLock key layers wait opts lease pool
          = throwing (.invalidPlan key message)
        unfold withSessionLock
        rw [hlease]
        exact ⟨_, rfl⟩
      · show ∃ message, withXactLock key layers wait opts lease pool
          = throwing (.invalidPlan key message)
        unfold withXactLock
        rw [hlease]
        exact ⟨_, rfl⟩
  | false =>
      rw [hlease, Bool.false_or] at h
      cases scope
      · show ∃ message, withSessionLock key layers wait opts lease pool
          = throwing (.invalidPlan key message)
        unfold withSessionLock
        rw [hlease, h]
        exact ⟨_, rfl⟩
      · show ∃ message, withXactLock key layers wait opts lease pool
          = throwing (.invalidPlan key message)
        unfold withXactLock
        rw [hlease, h]
        exact ⟨_, rfl⟩

theorem plan_eq (layers : LockLayers) :
    plan layers scope wait
      = if layers.fiducia then
          acquireStep wait :: innerPlan layers.pgAdvisory scope wait ++ [.fiduciaRelease]
        else innerPlan layers.pgAdvisory scope wait := by
  obtain ⟨fiducia, pgAdvisory⟩ := layers
  cases fiducia <;> cases pgAdvisory <;> cases scope <;> cases wait <;> rfl

theorem supplied_follows {key : LockKey} {layers : LockLayers} {opts : AcquireOptions}
    {lease pool : Bool} (hsupplied : missing layers lease pool = false)
    {tr : List (Event Call (Answer T))} {result : Except Thrown T}
    (h : Runs (withGuard scope key layers wait opts lease pool) tr result) :
    Follows (plan layers scope wait) (record scope wait tr) (failureOf result) := by
  rw [withGuard_eq scope wait key layers opts hsupplied] at h
  rw [plan_eq]
  cases hfiducia : layers.fiducia with
  | false =>
      rw [hfiducia] at h
      exact inner_follows scope wait key layers.pgAdvisory none h
  | true =>
      rw [hfiducia] at h
      exact leased_follows scope wait (openBrackets_innerPlan scope wait _)
        (release_notMem_innerPlan scope wait _)
        (fun grant tr result hrun => inner_follows scope wait key layers.pgAdvisory _ hrun) h

/-- **The routines follow the plan.**  Whatever is answered, a transaction- or
session-scoped routine makes the steps of its plan, or those of an aborted run
of it, and reports the last of its failures, as one of the transport where what
undoes it throws no `LockError`; where an input is missing it makes no call at
all. -/
theorem guarded_follows_plan (key : LockKey) (layers : LockLayers) (opts : AcquireOptions)
    (lease pool : Bool) {tr : List (Event Call (Answer T))} {result : Except Thrown T}
    (h : Runs (withGuard scope key layers wait opts lease pool) tr result) :
    if missing layers lease pool then tr = [] ∧ failureOf result = some (some .invalidPlan, none)
    else Follows (plan layers scope wait) (record scope wait tr) (failureOf result) := by
  by_cases hmissing : missing layers lease pool = true
  · rw [if_pos hmissing]
    obtain ⟨message, hthrow⟩ := withGuard_missing (T := T) scope wait key layers opts hmissing
    rw [hthrow] at h
    obtain ⟨rfl, rfl⟩ := runs_ret_iff.mp h
    exact ⟨rfl, rfl⟩
  · rw [if_neg hmissing]
    exact supplied_follows scope wait (Bool.eq_false_iff.mpr hmissing) h

/-- The lease alone is the routine without a database. -/
theorem withLease_eq (key : LockKey) (engage : Bool) (opts : AcquireOptions) (lease pool : Bool) :
    withLease (T := T) key engage wait opts lease
      = withXactLock key { fiducia := engage, pgAdvisory := false } wait opts lease pool := by
  unfold withLease withXactLock
  cases engage <;> cases lease <;> rfl

/-- A grant and a failure. -/
def unitGrant : LeaseGrant where
  key := unitKey
  holder := "svc-a"
  fencingToken := 1
  leaseExpiresMs := none
  ttlMs := 60000

def kaboom : Thrown := .other "kaboom" "Error: kaboom"

/-- The work fails, the transaction is rolled back, and the lease turns out to
have lapsed. -/
def lapsedRun : List (Event Call (Answer ℕ)) :=
  [⟨.acquire unitKey defaultAcquireOptions true, .ok unitGrant⟩, ⟨.connect, .ok 0⟩,
    ⟨.query 0 .begin, .ok []⟩, ⟨.query 0 (.advisoryXactLock unitKey.advisory), .ok []⟩,
    ⟨.work ⟨unitKey, some unitGrant, some 0⟩, .error kaboom⟩, ⟨.query 0 .rollback, .ok []⟩,
    ⟨.giveBack 0 true, ()⟩, ⟨.release unitGrant, .ok false⟩]

theorem runs_lapsedRun :
    Runs (withGuard .transaction unitKey ⟨true, true⟩ true defaultAcquireOptions true true)
      lapsedRun (.error (.lockError (cleanupFailure unitKey
        (.lockError (releaseLost unitKey unitGrant)) (.lockError (.work unitKey kaboom))))) :=
  .call _ (.call _ (.call _ (.call _ (.call _ (.call _ (.call _ (.call _ (.ret _))))))))

/-- It is the lapse that is reported. -/
theorem guarded_follows_plan_lapsed :
    Follows (plan ⟨true, true⟩ .transaction true)
      [(.fiduciaAcquire, none), (.pgBegin, none), (.pgAdvisoryXactLock, none),
        (.work, some (some .work, some .work)), (.pgRollback, none),
        (.fiduciaRelease, some (some .lostLease, some .fiduciaRelease))]
      (some (some .lostLease, some .fiduciaRelease)) :=
  guarded_follows_plan .transaction true unitKey ⟨true, true⟩ defaultAcquireOptions true true
    runs_lapsedRun

end ClipTown.Locks
