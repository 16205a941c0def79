/-
  ClipTown.Locks.LockError — the one failure every lock routine surfaces
  (`ores-locks-and-leases`: `errors.ts`, `errors.dart`).

    • `tagStep_of_step` — a step that is known is never overwritten,
    • `cleanupFailure_kind` — a failed cleanup stays the failure that is
      reported, whatever failed before it.
-/
import ClipTown.Locks.LockKey
import ClipTown.Locks.Plan

namespace ClipTown.Locks

/-- `LockErrorKind`. -/
inductive LockErrorKind where
  | contention
  | timeout
  | lostLease
  | transport
  | database
  | work
  | invalidPlan
  deriving DecidableEq

/-- `wire`, `kind_to_string`. -/
def LockErrorKind.wire : LockErrorKind → String
  | .contention => "contention"
  | .timeout => "timeout"
  | .lostLease => "lost_lease"
  | .transport => "transport"
  | .database => "database"
  | .work => "work"
  | .invalidPlan => "invalid_plan"

/-- `LockError`. -/
structure LockError where
  kind : LockErrorKind
  key : LockKey
  step : Option LockStep
  message : String
  deriving DecidableEq

/-- Whatever can be thrown: a `LockError`, or anything else by its message and
its text as a string. -/
inductive Thrown where
  | lockError (err : LockError)
  | other (message text : String)
  deriving DecidableEq

namespace LockError

/-- `retryable`. -/
def retryable (err : LockError) : Bool := err.kind == .contention || err.kind == .timeout

/-- `toString`. -/
def text (err : LockError) : String :=
  match err.step with
  | some step =>
      err.kind.wire ++ " at " ++ step.wire ++ " for `" ++ err.key.text ++ "`: " ++ err.message
  | none => err.kind.wire ++ " for `" ++ err.key.text ++ "`: " ++ err.message

end LockError

/-- `cause instanceof Error ? cause.message : String(cause)`. -/
def Thrown.message : Thrown → String
  | .lockError err => err.message
  | .other message _ => message

/-- `inner instanceof Error ? inner.toString() : String(inner)`. -/
def Thrown.text : Thrown → String
  | .lockError err => err.text
  | .other _ text => text

/-- The kind, where there is one. -/
def Thrown.kind : Thrown → Option LockErrorKind
  | .lockError err => some err.kind
  | .other _ _ => none

/-- The step, where it is known. -/
def Thrown.step : Thrown → Option LockStep
  | .lockError err => err.step
  | .other _ _ => none

/-- A retryable `LockError`. -/
def Thrown.retryable : Thrown → Bool
  | .lockError err => err.retryable
  | .other _ _ => false

namespace LockError

/-- `contention`. -/
def contention (key : LockKey) (step : LockStep) : LockError :=
  { kind := .contention, key, step := some step,
    message := "`" ++ key.text ++ "` is held by another holder" }

/-- `timeout`; the milliseconds are whole. -/
def timeout (key : LockKey) (step : LockStep) (waitedMs : ℤ) : LockError :=
  { kind := .timeout, key, step := some step,
    message := "gave up waiting for `" ++ key.text ++ "` after " ++ toString waitedMs ++ " ms" }

/-- `work`. -/
def work (key : LockKey) (cause : Thrown) : LockError :=
  { kind := .work, key, step := some .work, message := cause.message }

/-- `invalidPlan`. -/
def invalidPlan (key : LockKey) (message : String) : LockError :=
  { kind := .invalidPlan, key, step := none, message }

/-- `database`. -/
def database (key : LockKey) (step : LockStep) (cause : Thrown) : LockError :=
  { kind := .database, key, step := some step, message := cause.message }

/-- `transport`. -/
def transport (key : LockKey) (cause : Thrown) (step : Option LockStep) : LockError :=
  { kind := .transport, key, step, message := cause.message }

end LockError

/-- `tagStep`. -/
def tagStep (err : Thrown) (step : LockStep) : Thrown :=
  match err with
  | .lockError e => if e.step = none then .lockError { e with step := some step } else .lockError e
  | .other _ _ => err

/-- `cleanupFailure`. -/
def cleanupFailure (key : LockKey) (cleanup inner : Thrown) : LockError :=
  let normalized := match cleanup with
    | .lockError e => e
    | .other _ _ => LockError.transport key cleanup none
  { normalized with
    message := normalized.message ++ "; guarded operation also failed: " ++ inner.text }

/-! ## What the two keep. -/

@[simp] theorem tagStep_kind (err : Thrown) (step : LockStep) :
    (tagStep err step).kind = err.kind := by
  cases err with
  | lockError e =>
      unfold tagStep
      by_cases h : e.step = none
      · simp only [h, if_true]
        rfl
      · simp only [h, if_false]
  | other message text => rfl

@[simp] theorem tagStep_retryable (err : Thrown) (step : LockStep) :
    (tagStep err step).retryable = err.retryable := by
  cases err with
  | lockError e =>
      unfold tagStep
      by_cases h : e.step = none
      · simp only [h, if_true]
        rfl
      · simp only [h, if_false]
  | other message text => rfl

/-- A step that is known is never overwritten. -/
theorem tagStep_of_step {err : Thrown} {known : LockStep} (h : err.step = some known)
    (step : LockStep) : tagStep err step = err := by
  cases err with
  | lockError e =>
      have hstep : e.step ≠ none := by
        intro hnone
        exact absurd (hnone.symm.trans h) (by simp)
      unfold tagStep
      simp only [hstep, if_false]
  | other message text => rfl

/-- The kind that is reported when a cleanup fails too. -/
theorem cleanupFailure_kind (key : LockKey) (cleanup inner : Thrown) :
    (cleanupFailure key cleanup inner).kind = cleanup.kind.getD .transport := by
  cases cleanup <;> rfl

theorem cleanupFailure_step (key : LockKey) (cleanup inner : Thrown) :
    (cleanupFailure key cleanup inner).step = cleanup.step := by
  cases cleanup <;> rfl

theorem cleanupFailure_retryable (key : LockKey) (cleanup inner : Thrown) :
    (cleanupFailure key cleanup inner).retryable = cleanup.retryable := by
  cases cleanup <;> rfl

end ClipTown.Locks
