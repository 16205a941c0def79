/-
  ClipTown.Locks.GleamRoutines — the guarded routines of Gleam
  (`ores-locks-and-leases`: `ores_locks_and_leases.gleam`, `pg.gleam`), over the
  transactions of `pog`.

  The calls are those of the TypeScript routines; what they answer with is what
  Gleam receives: a `LockError` from the lease, a text from the work, and a
  `QueryError` from the database, here by the text `string.inspect` makes of it.

    • `decodeError_encodeError` — what is left of an error after its way through
      the transaction,
    • `gleamWithXactLock`, `gleamWithSessionLock` — the two routines.
-/
import ClipTown.Locks.Routines
import Mathlib.Data.List.Basic

namespace ClipTown.Locks

open Interaction

/-! ## §1. Errors as texts. -/

/-- `database_error`. -/
def databaseError (key : LockKey) (step : LockStep) (message : String) : LockError :=
  { kind := .database, key, step := some step, message }

/-- `work_error`. -/
def workError (key : LockKey) (cause : String) : LockError :=
  { kind := .work, key, step := some .work, message := cause }

/-- `tag_step`. -/
def gleamTagStep (error : LockError) (step : LockStep) : LockError :=
  match error.step with
  | some _ => error
  | none => { error with step := some step }

/-- `cleanup_failure`. -/
def gleamCleanupFailure (cleanup inner : LockError) : LockError :=
  { cleanup with message := cleanup.message ++ "; guarded operation also failed: " ++ inner.text }

/-- `error_separator`. -/
def errorSeparator : Char := '\x1f'

/-- `encode_error`. -/
def encodeError (error : LockError) : String :=
  let step := match error.step with
    | some step => step.wire
    | none => ""
  error.kind.wire ++ String.ofList [errorSeparator] ++ step ++ String.ofList [errorSeparator]
    ++ error.message

/-- The `case kind` of `decode_error`. -/
def decodeKind (kind : String) : LockErrorKind :=
  match kind with
  | "contention" => .contention
  | "timeout" => .timeout
  | "lost_lease" => .lostLease
  | "transport" => .transport
  | "database" => .database
  | "work" => .work
  | _ => .invalidPlan

/-- `decode_error`. -/
def decodeError (key : LockKey) (encoded : String) : LockError :=
  match encoded.toList.splitOn errorSeparator with
  | [kind, step, message] =>
      { kind := decodeKind (String.ofList kind), key, step := stepFromString (String.ofList step),
        message := String.ofList message }
  | _ => databaseError key .pgRollback encoded

theorem decodeKind_wire (kind : LockErrorKind) : decodeKind kind.wire = kind := by
  cases kind <;> rfl

theorem errorSeparator_notMem_kind (kind : LockErrorKind) :
    errorSeparator ∉ kind.wire.toList := by
  cases kind <;> decide

theorem errorSeparator_notMem_step (step : LockStep) : errorSeparator ∉ step.wire.toList := by
  cases step <;> decide

/-- The step as it is encoded. -/
def stepText (step : Option LockStep) : String :=
  match step with
  | some step => step.wire
  | none => ""

theorem errorSeparator_notMem_stepText (step : Option LockStep) :
    errorSeparator ∉ (stepText step).toList := by
  cases step with
  | none => decide
  | some step => exact errorSeparator_notMem_step step

theorem stepFromString_stepText (step : Option LockStep) :
    stepFromString (stepText step) = step := by
  cases step with
  | none => decide
  | some step => exact stepFromString_wire step

theorem splitOn_encodeError (error : LockError) :
    (encodeError error).toList.splitOn errorSeparator
      = error.kind.wire.toList :: (stepText error.step).toList ::
          error.message.toList.splitOn errorSeparator := by
  have htext : (encodeError error).toList = error.kind.wire.toList ++
      errorSeparator ::
        ((stepText error.step).toList ++ errorSeparator :: error.message.toList) := by
    show (error.kind.wire ++ String.ofList [errorSeparator] ++ stepText error.step
      ++ String.ofList [errorSeparator] ++ error.message).toList = _
    simp [String.toList_append, List.append_assoc]
  rw [htext, List.splitOn_append_cons_self_of_not_mem (errorSeparator_notMem_kind error.kind),
    List.splitOn_append_cons_self_of_not_mem (errorSeparator_notMem_stepText error.step)]

/-- **What is left of an error.**  Kind, step and message come back as they were
unless the message has the separator in it; then a database failure of the
rollback is reported, whatever it was. -/
theorem decodeError_encodeError (key : LockKey) (error : LockError) :
    decodeError key (encodeError error)
      = if errorSeparator ∈ error.message.toList then
          databaseError key .pgRollback (encodeError error)
        else { error with key } := by
  unfold decodeError
  rw [splitOn_encodeError]
  by_cases h : errorSeparator ∈ error.message.toList
  · rw [if_pos h]
    obtain ⟨before, after, hmessage⟩ := List.append_of_mem h
    rw [hmessage, List.splitOn_append_cons_self]
    -- there are four parts at least
    cases hbefore : before.splitOn errorSeparator with
    | nil => exact absurd hbefore (List.splitOn_ne_nil _ _)
    | cons part parts =>
        cases hafter : after.splitOn errorSeparator with
        | nil => exact absurd hafter (List.splitOn_ne_nil _ _)
        | cons part' parts' =>
            cases parts with
            | nil => rfl
            | cons part'' parts'' => rfl
  · rw [if_neg h, List.splitOn_eq_singleton h]
    show ({ kind := decodeKind (String.ofList error.kind.wire.toList), key,
            step := stepFromString (String.ofList (stepText error.step).toList),
            message := String.ofList error.message.toList } : LockError) = _
    rw [String.ofList_toList, String.ofList_toList, String.ofList_toList, decodeKind_wire,
      stepFromString_stepText]

/-! ## §2. The calls. -/

/-- What each call answers with in Gleam. -/
abbrev GleamAnswer (T : Type) : Call → Type
  | .acquire _ _ _ => Except LockError LeaseGrant
  | .release _ => Except LockError Bool
  | .connect => Except String Client
  | .query _ _ => Except String (List Row)
  | .giveBack _ _ => Unit
  | .work _ => Except String T

/-- A program that returns a `Result`. -/
abbrev GleamRoutine (T α : Type) := Prog Call (GleamAnswer T) (Except LockError α)

variable {T : Type}

/-- The text of a statement with a parameter. -/
def Statement.sql : Statement → String
  | .begin => "begin"
  | .advisoryXactLock _ => "SELECT pg_advisory_xact_lock($1)"
  | .tryAdvisoryXactLock _ => "SELECT pg_try_advisory_xact_lock($1)"
  | .commit => "commit"
  | .rollback => "rollback"
  | .advisoryLock _ => "SELECT pg_advisory_lock($1)"
  | .tryAdvisoryLock _ => "SELECT pg_try_advisory_lock($1)"
  | .advisoryUnlock _ => "SELECT pg_advisory_unlock($1)"

/-- `exec`. -/
def gleamExec (conn : Client) (key : LockKey) (statement : Statement) (step : LockStep) :
    GleamRoutine T Unit :=
  .call (.query conn statement) fun
    | .ok _ => .ret (.ok ())
    | .error error => .ret (.error (databaseError key step error))

/-- The rows of `pog.execute` under `decode.field(0, decode.bool)`; the error of a
row that is none, as a text, is `undecoded`. -/
def decodeBools (undecoded : Row → String) : List Row → Except String (List Bool)
  | [] => .ok []
  | row :: rows =>
      match row.head? with
      | some (.bool value) =>
          match decodeBools undecoded rows with
          | .ok values => .ok (value :: values)
          | .error error => .error error
      | _ => .error (undecoded row)

/-- What `query_bool` makes of an answer: the first value, or the message of the
database error. -/
def firstValue (undecoded : Row → String) (statement : Statement) :
    Except String (List Row) → Except String Bool
  | .error error => .error error
  | .ok rows =>
      match decodeBools undecoded rows with
      | .error error => .error error
      | .ok (value :: _) => .ok value
      | .ok [] => .error ("`" ++ statement.sql ++ "` returned no row")

/-- `query_bool`. -/
def queryBool (undecoded : Row → String) (conn : Client) (key : LockKey) (statement : Statement)
    (step : LockStep) : GleamRoutine T Bool :=
  .call (.query conn statement) fun answer =>
    match firstValue undecoded statement answer with
    | .ok value => .ret (.ok value)
    | .error message => .ret (.error (databaseError key step message))

/-- `try_xact_lock`, and the non-blocking lock of `run_session`. -/
def gleamTryLock (undecoded : Row → String) (conn : Client) (key : LockKey)
    (statement : Statement) (step : LockStep) : GleamRoutine T Unit :=
  (queryBool undecoded conn key statement step).andThen fun acquired =>
    if acquired then .ret (.ok ()) else .ret (.error (.contention key step))

/-- `work(guarded) |> result.map_error(core.work_error(key, _))`. -/
def gleamRunWork (guarded : Guarded) : GleamRoutine T T :=
  .call (.work guarded) fun
    | .ok value => .ret (.ok value)
    | .error cause => .ret (.error (workError guarded.key cause))

/-- `acquire_lease`. -/
def gleamAcquireLease (key : LockKey) (wait : Bool) (opts : AcquireOptions) :
    GleamRoutine T LeaseGrant :=
  let step := match wait with
    | true => LockStep.fiduciaAcquire
    | false => .fiduciaTryAcquire
  .call (.acquire key opts wait) fun
    | .ok grant => .ret (.ok grant)
    | .error error => .ret (.error (gleamTagStep error step))

/-- `settle`. -/
def gleamSettle (key : LockKey) (grant : LeaseGrant) (inner : Except LockError T) :
    GleamRoutine T T :=
  .call (.release grant) fun released =>
    .ret <| match inner, released with
      | .error inner, .error cleanup =>
          .error (gleamCleanupFailure (gleamTagStep cleanup .fiduciaRelease) inner)
      | .error inner, .ok false => .error (gleamCleanupFailure (releaseLost key grant) inner)
      | .error inner, .ok true => .error inner
      | .ok _, .error error => .error (gleamTagStep error .fiduciaRelease)
      | .ok _, .ok false => .error (releaseLost key grant)
      | .ok value, .ok true => .ok value

/-! ## §3. Transactions. -/

/-- `TransactionError`. -/
inductive TransactionError where
  | queryError (error : String)
  | rolledBack (error : String)

/-- `transaction_layer` of `pog`, without crashes. -/
def transactionLayer {α : Type} (conn : Client)
    (callback : Prog Call (GleamAnswer T) (Except String α)) :
    Prog Call (GleamAnswer T) (Except TransactionError α) :=
  .call (.query conn .begin) fun
    | .error error => .ret (.error (.queryError error))
    | .ok _ =>
        callback.bind fun
          | .ok t =>
              .call (.query conn .commit) fun
                | .error error => .ret (.error (.queryError error))
                | .ok _ => .ret (.ok t)
          | .error error =>
              .call (.query conn .rollback) fun
                | .error failure => .ret (.error (.queryError failure))
                | .ok _ => .ret (.error (.rolledBack error))

/-- `transaction` of `pog` on a pool. -/
def transaction {α : Type} (callback : Client → Prog Call (GleamAnswer T) (Except String α)) :
    Prog Call (GleamAnswer T) (Except TransactionError α) :=
  .call .connect fun
    | .error error => .ret (.error (.queryError error))
    | .ok conn =>
        (transactionLayer conn (callback conn)).bind fun outcome =>
          .call (.giveBack conn false) fun _ => .ret outcome

section Scopes

variable (undecoded : Row → String) (key : LockKey) (wait : Bool)

/-- The callback of `run_xact`. -/
def xactCallback (grant : Option LeaseGrant) (conn : Client) :
    Prog Call (GleamAnswer T) (Except String T) :=
  (if wait then gleamExec conn key (.advisoryXactLock key.advisory) .pgAdvisoryXactLock
    else gleamTryLock undecoded conn key (.tryAdvisoryXactLock key.advisory)
      .pgTryAdvisoryXactLock).bind fun
    | .error error => .ret (.error (encodeError error))
    | .ok _ =>
        .call (.work { key, grant, client := some conn }) fun
          | .ok value => .ret (.ok value)
          | .error cause => .ret (.error (encodeError (workError key cause)))

/-- `run_xact`. -/
def gleamRunXact (grant : Option LeaseGrant) : GleamRoutine T T :=
  (transaction (xactCallback undecoded key wait grant)).bind fun
    | .ok value => .ret (.ok value)
    | .error (.rolledBack encoded) => .ret (.error (decodeError key encoded))
    | .error (.queryError error) => .ret (.error (databaseError key .pgCommit error))

/-! ## §4. Sessions. -/

/-- `unlock_mismatch`. -/
def gleamUnlockMismatch : LockError :=
  databaseError key .pgAdvisoryUnlock
    "pg_advisory_unlock reported the session did not hold the lock"

/-- `run_session`. -/
def gleamRunSession (conn : Client) (grant : Option LeaseGrant) : GleamRoutine T T :=
  (if wait then gleamExec conn key (.advisoryLock key.advisory) .pgAdvisoryLock
    else gleamTryLock undecoded conn key (.tryAdvisoryLock key.advisory)
      .pgTryAdvisoryLock).andThen fun _ =>
    (gleamRunWork { key, grant, client := some conn }).bind fun inner =>
      (queryBool undecoded conn key (.advisoryUnlock key.advisory) .pgAdvisoryUnlock).bind
        fun unlocked =>
          .ret <| match inner, unlocked with
            | .error inner, .error cleanup => .error (gleamCleanupFailure cleanup inner)
            | .error inner, .ok false =>
                .error (gleamCleanupFailure (gleamUnlockMismatch key) inner)
            | .error inner, .ok true => .error inner
            | .ok _, .error error => .error error
            | .ok _, .ok false => .error (gleamUnlockMismatch key)
            | .ok value, .ok true => .ok value

/-! ## §5. The routines. -/

/-- `acquire`, the work of the scope, and `finish`. -/
def acquireAndFinish (opts : AcquireOptions) (lease : Bool)
    (inner : Option LeaseGrant → GleamRoutine T T) : GleamRoutine T T :=
  if lease then
    (gleamAcquireLease key wait opts).andThen fun grant =>
      (inner (some grant)).bind fun outcome => gleamSettle key grant outcome
  else inner none

/-- `with_xact_lock`; `lease` and `db` say what was supplied. -/
def gleamWithXactLock (layers : LockLayers) (opts : AcquireOptions) (lease db : Bool) :
    GleamRoutine T T :=
  if layers.fiducia && !lease then
    .ret (.error (.invalidPlan key
      "layers.fiducia is enabled but no lease authority was supplied"))
  else if layers.pgAdvisory && !db then
    .ret (.error (.invalidPlan key
      "layers.pg_advisory is enabled but no database connection was supplied"))
  else
    acquireAndFinish key wait opts layers.fiducia fun grant =>
      if layers.pgAdvisory then gleamRunXact undecoded key wait grant
      else gleamRunWork { key, grant, client := none }

/-- `with_session_lock`; `conn` is the dedicated connection. -/
def gleamWithSessionLock (layers : LockLayers) (opts : AcquireOptions) (lease : Bool)
    (conn : Option Client) : GleamRoutine T T :=
  if layers.fiducia && !lease then
    .ret (.error (.invalidPlan key
      "layers.fiducia is enabled but no lease authority was supplied"))
  else
    match layers.pgAdvisory, conn with
    | false, _ =>
        acquireAndFinish key wait opts layers.fiducia fun grant =>
          gleamRunWork { key, grant, client := none }
    | true, some conn =>
        acquireAndFinish key wait opts layers.fiducia fun grant =>
          gleamRunSession undecoded key wait conn grant
    | true, none =>
        .ret (.error (.invalidPlan key
          ("layers.pg_advisory is enabled with session scope but no dedicated connection "
            ++ "was supplied")))

end Scopes

end ClipTown.Locks
