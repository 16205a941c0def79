/-
  ClipTown.Locks.Plan — the lock plan as data (`ores-locks-and-leases`:
  `plan.ts`, `plan.dart`, `ores_locks_and_leases.gleam`).

  A plan is the ordered actions for one choice of layers, scope and waiting.
  Its actions come in BRACKETS: what is acquired is released, what is begun is
  committed, what is locked for a session is unlocked.  A run that fails leaves
  the brackets it has open by what undoes them, innermost first.

    • `gleamPlan_eq` — the runtimes compute one plan,
    • `openBrackets_plan` — a whole plan leaves no bracket open,
    • `work_plan` — the work is there once, inside every layer.
-/
import ClipTown.Locks.Catalog

namespace ClipTown.Locks

/-! ## §1. Steps. -/

/-- `LockStep`. -/
inductive LockStep where
  | fiduciaAcquire
  | fiduciaTryAcquire
  | fiduciaRelease
  | pgBegin
  | pgAdvisoryXactLock
  | pgTryAdvisoryXactLock
  | pgCommit
  | pgRollback
  | pgAdvisoryLock
  | pgTryAdvisoryLock
  | pgAdvisoryUnlock
  | work
  deriving DecidableEq

/-- `wire`, `step_to_string`. -/
def LockStep.wire : LockStep → String
  | .fiduciaAcquire => "fiducia.acquire"
  | .fiduciaTryAcquire => "fiducia.try_acquire"
  | .fiduciaRelease => "fiducia.release"
  | .pgBegin => "pg.begin"
  | .pgAdvisoryXactLock => "pg.advisory_xact_lock"
  | .pgTryAdvisoryXactLock => "pg.try_advisory_xact_lock"
  | .pgCommit => "pg.commit"
  | .pgRollback => "pg.rollback"
  | .pgAdvisoryLock => "pg.advisory_lock"
  | .pgTryAdvisoryLock => "pg.try_advisory_lock"
  | .pgAdvisoryUnlock => "pg.advisory_unlock"
  | .work => "work"

/-- `ALL_STEPS`. -/
def allSteps : List LockStep :=
  [.fiduciaAcquire, .fiduciaTryAcquire, .fiduciaRelease, .pgBegin, .pgAdvisoryXactLock,
    .pgTryAdvisoryXactLock, .pgCommit, .pgRollback, .pgAdvisoryLock, .pgTryAdvisoryLock,
    .pgAdvisoryUnlock, .work]

/-- `step_from_string`. -/
def stepFromString (value : String) : Option LockStep :=
  allSteps.find? fun step => step.wire == value

theorem stepFromString_wire (step : LockStep) : stepFromString step.wire = some step := by
  cases step <;> decide

/-! ## §2. The plan. -/

/-- `plan` of TypeScript and Dart. -/
def plan (layers : LockLayers) (pgScope : PgScope) (wait : Bool) : List LockStep :=
  (if layers.fiducia then [if wait then .fiduciaAcquire else .fiduciaTryAcquire] else [])
    ++ (if !layers.pgAdvisory then [.work]
        else if pgScope = .session then
          [if wait then .pgAdvisoryLock else .pgTryAdvisoryLock, .work, .pgAdvisoryUnlock]
        else
          [.pgBegin, if wait then .pgAdvisoryXactLock else .pgTryAdvisoryXactLock, .work,
            .pgCommit])
    ++ (if layers.fiducia then [.fiduciaRelease] else [])

/-- `plan` of Gleam. -/
def gleamPlan (layers : LockLayers) (pgScope : PgScope) (wait : Bool) : List LockStep :=
  let pick := fun (blocking nonBlocking : LockStep) => match wait with
    | true => blocking
    | false => nonBlocking
  let outerOpen := match layers.fiducia with
    | true => [pick .fiduciaAcquire .fiduciaTryAcquire]
    | false => []
  let inner := match layers.pgAdvisory, pgScope with
    | false, _ => [.work]
    | true, .transaction =>
        [.pgBegin, pick .pgAdvisoryXactLock .pgTryAdvisoryXactLock, .work, .pgCommit]
    | true, .session => [pick .pgAdvisoryLock .pgTryAdvisoryLock, .work, .pgAdvisoryUnlock]
  let outerClose := match layers.fiducia with
    | true => [.fiduciaRelease]
    | false => []
  [outerOpen, inner, outerClose].flatten

theorem gleamPlan_eq (layers : LockLayers) (pgScope : PgScope) (wait : Bool) :
    gleamPlan layers pgScope wait = plan layers pgScope wait := by
  obtain ⟨fiducia, pgAdvisory⟩ := layers
  cases fiducia <;> cases pgAdvisory <;> cases pgScope <;> cases wait <;> rfl

/-! ## §3. Brackets. -/

/-- What undoes a step when a later one fails. -/
def LockStep.undo : LockStep → Option LockStep
  | .fiduciaAcquire | .fiduciaTryAcquire => some .fiduciaRelease
  | .pgBegin => some .pgRollback
  | .pgAdvisoryLock | .pgTryAdvisoryLock => some .pgAdvisoryUnlock
  | _ => none

/-- What need not be undone any more after a step. -/
def LockStep.closes : LockStep → Option LockStep
  | .fiduciaRelease => some .fiduciaRelease
  | .pgCommit | .pgRollback => some .pgRollback
  | .pgAdvisoryUnlock => some .pgAdvisoryUnlock
  | _ => none

/-- What undoes the open brackets, innermost first, after one more step. -/
def bracketStep (opened : List LockStep) (step : LockStep) : List LockStep :=
  match step.undo, step.closes with
  | some undoing, _ => undoing :: opened
  | none, some closed => opened.erase closed
  | none, none => opened

/-- What undoes the brackets that the steps leave open, innermost first. -/
def openBrackets (steps : List LockStep) : List LockStep := steps.foldl bracketStep []

/-- A whole plan leaves no bracket open. -/
theorem openBrackets_plan (layers : LockLayers) (pgScope : PgScope) (wait : Bool) :
    openBrackets (plan layers pgScope wait) = [] := by
  obtain ⟨fiducia, pgAdvisory⟩ := layers
  cases fiducia <;> cases pgAdvisory <;> cases pgScope <;> cases wait <;> rfl

/-- The work is there once. -/
theorem work_plan (layers : LockLayers) (pgScope : PgScope) (wait : Bool) :
    (plan layers pgScope wait).count .work = 1 := by
  obtain ⟨fiducia, pgAdvisory⟩ := layers
  cases fiducia <;> cases pgAdvisory <;> cases pgScope <;> cases wait <;> rfl

/-- What is undone when step `i` is the first to fail: the brackets that are
open there, innermost first.  A failed step is not tried again. -/
def unwinding (steps : List LockStep) (i : ℕ) : List LockStep :=
  (openBrackets (steps.take i)).filter fun undoing => some undoing ≠ steps[i]?

end ClipTown.Locks
