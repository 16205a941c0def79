/-
  ClipTown.Locks.Routines — running work under a lease and an advisory lock
  (`ores-locks-and-leases`: `lease.ts`, `pg.ts`).

  A routine is a program over the calls it makes: the three verbs of the lease,
  the pool, the client and the work.  Whatever a call throws is part of its
  answer.

    • `withLease`, `withXactLock`, `withSessionLock` — the three routines,
    • `settle` — the release of the lease, combined with what went before it.
-/
import ClipTown.Lib.Interaction
import ClipTown.Locks.LockError
import Mathlib.Data.Rat.Defs

namespace ClipTown.Locks

open Interaction

/-! ## §1. The calls. -/

/-- `AcquireOptions`. -/
structure AcquireOptions where
  ttlMs : ℕ
  waitTimeoutMs : ℕ
  retryIntervalMs : ℕ
  holder : Option String
  deriving DecidableEq

/-- `DEFAULT_ACQUIRE_OPTIONS`. -/
def defaultAcquireOptions : AcquireOptions where
  ttlMs := 60000
  waitTimeoutMs := 30000
  retryIntervalMs := 250
  holder := none

/-- A JavaScript number that is not `NaN`: its value, `none` where it is infinite. -/
abbrev JsNumber := Option ℚ

/-- `LeaseGrant`. -/
structure LeaseGrant where
  key : LockKey
  holder : String
  fencingToken : ℕ
  leaseExpiresMs : Option JsNumber
  ttlMs : ℕ
  deriving DecidableEq

/-- `PgPoolClient`: a checked-out connection. -/
abbrev Client := ℕ

/-- `Guarded`, `XactGuarded`, `SessionGuarded`: what the work receives. -/
structure Guarded where
  key : LockKey
  grant : Option LeaseGrant
  client : Option Client
  deriving DecidableEq

/-- The statements of the routines, with their parameter. -/
inductive Statement where
  /-- `BEGIN` -/
  | begin
  /-- `SELECT pg_advisory_xact_lock($1)` -/
  | advisoryXactLock (key : ℤ)
  /-- `SELECT pg_try_advisory_xact_lock($1)` -/
  | tryAdvisoryXactLock (key : ℤ)
  /-- `COMMIT` -/
  | commit
  /-- `ROLLBACK` -/
  | rollback
  /-- `SELECT pg_advisory_lock($1)` -/
  | advisoryLock (key : ℤ)
  /-- `SELECT pg_try_advisory_lock($1)` -/
  | tryAdvisoryLock (key : ℤ)
  /-- `SELECT pg_advisory_unlock($1)` -/
  | advisoryUnlock (key : ℤ)
  deriving DecidableEq

/-- The values a driver may return in a row. -/
inductive PgValue where
  | bool (b : Bool)
  | text (s : String)
  | other
  deriving DecidableEq

/-- A row as `Object.values` lists it. -/
abbrev Row := List PgValue

/-- The calls of the routines. -/
inductive Call where
  /-- `lease.acquire(key, opts, wait)` -/
  | acquire (key : LockKey) (opts : AcquireOptions) (wait : Bool)
  /-- `lease.release(grant)` -/
  | release (grant : LeaseGrant)
  /-- `pool.connect()` -/
  | connect
  /-- `client.query(text, values)` -/
  | query (client : Client) (statement : Statement)
  /-- `client.release(err)` -/
  | giveBack (client : Client) (failed : Bool)
  /-- `work(guarded)` -/
  | work (guarded : Guarded)
  deriving DecidableEq

/-- What each call answers with; `T` is what the work returns. -/
abbrev Answer (T : Type) : Call → Type
  | .acquire _ _ _ => Except Thrown LeaseGrant
  | .release _ => Except Thrown Bool
  | .connect => Except Thrown Client
  | .query _ _ => Except Thrown (List Row)
  | .giveBack _ _ => Unit
  | .work _ => Except Thrown T

/-- A program that returns a value or throws. -/
abbrev Routine (T α : Type) := Prog Call (Answer T) (Except Thrown α)

variable {T : Type}

/-- `throw`. -/
def throwing {α : Type} (err : LockError) : Routine T α := .ret (.error (.lockError err))

/-! ## §2. The lease. -/

/-- `runWork`. -/
def runWork (guarded : Guarded) : Routine T T :=
  .call (.work guarded) fun
    | .ok value => .ret (.ok value)
    | .error cause => throwing (.work guarded.key cause)

/-- The step of an acquisition. -/
def acquireStep (wait : Bool) : LockStep := if wait then .fiduciaAcquire else .fiduciaTryAcquire

/-- `acquireLease`. -/
def acquireLease (key : LockKey) (wait : Bool) (opts : AcquireOptions) : Routine T LeaseGrant :=
  .call (.acquire key opts wait) fun
    | .ok grant => .ret (.ok grant)
    | .error err => .ret (.error (tagStep err (acquireStep wait)))

/-- The failure of a release that matched no grant. -/
def releaseLost (key : LockKey) (grant : LeaseGrant) : LockError where
  kind := .lostLease
  key := key
  step := some .fiduciaRelease
  message := "release of `" ++ key.text ++ "` (holder " ++ grant.holder ++ ", fencing token "
    ++ toString grant.fencingToken ++ ") matched no grant: the lease lapsed while the work ran"

/-- `settle`. -/
def settle (key : LockKey) (grant : LeaseGrant) (inner : Except Thrown T) : Routine T T :=
  .call (.release grant) fun
    | .error err =>
        let cleanup := tagStep err .fiduciaRelease
        match inner with
        | .error innerErr => throwing (cleanupFailure key cleanup innerErr)
        | .ok _ => .ret (.error cleanup)
    | .ok released =>
        if !released then
          let cleanup := releaseLost key grant
          match inner with
          | .error innerErr => throwing (cleanupFailure key (.lockError cleanup) innerErr)
          | .ok _ => throwing cleanup
        else .ret inner

/-- `withLease`; `lease` says whether an authority was supplied. -/
def withLease (key : LockKey) (engage wait : Bool) (opts : AcquireOptions) (lease : Bool) :
    Routine T T :=
  if !engage then runWork { key, grant := none, client := none }
  else if !lease then
    throwing (.invalidPlan key "layers.fiducia is enabled but no lease authority was supplied")
  else
    (acquireLease key wait opts).andThen fun grant =>
      (runWork { key, grant := some grant, client := none }).bind fun outcome =>
        settle key grant outcome

/-! ## §3. The client. -/

/-- `firstBool`. -/
def firstBool (rows : List Row) : Bool :=
  match rows.head? with
  | none => false
  | some row => row.head? = some (.bool true) || row.head? = some (.text "t")

/-- `exec`. -/
def exec (client : Client) (key : LockKey) (statement : Statement) (step : LockStep) :
    Routine T Unit :=
  .call (.query client statement) fun
    | .ok _ => .ret (.ok ())
    | .error cause => throwing (.database key step cause)

/-- `tryLock`. -/
def tryLock (client : Client) (key : LockKey) (statement : Statement) (step : LockStep) :
    Routine T Unit :=
  .call (.query client statement) fun
    | .ok rows => if firstBool rows then .ret (.ok ()) else throwing (.contention key step)
    | .error cause => throwing (.database key step cause)

/-- `finally { client.release(failed); }` -/
def finallyGiveBack {α : Type} (client : Client) (failed : Bool) (result : Except Thrown α) :
    Routine T α :=
  .call (.giveBack client failed) fun _ => .ret result

/-! ## §4. Transactions. -/

/-- The statements of `runXact` after `BEGIN`. -/
def insideXact (client : Client) (key : LockKey) (wait : Bool) (grant : Option LeaseGrant) :
    Routine T T :=
  (if wait then exec client key (.advisoryXactLock key.advisory) .pgAdvisoryXactLock
    else tryLock client key (.tryAdvisoryXactLock key.advisory) .pgTryAdvisoryXactLock).andThen
    fun _ =>
      (runWork { key, grant, client := some client }).andThen fun value =>
        (exec client key .commit .pgCommit).andThen fun _ => .ret (.ok value)

/-- `runXact`. -/
def runXact (key : LockKey) (wait : Bool) (grant : Option LeaseGrant) : Routine T T :=
  .call .connect fun
    | .error cause => throwing (.database key .pgBegin cause)
    | .ok client =>
        (exec client key .begin .pgBegin).bind fun
          | .error err => finallyGiveBack client false (.error err)
          | .ok _ => (insideXact client key wait grant).bind fun
              | .ok value => finallyGiveBack client false (.ok value)
              | .error err =>
                  -- the original failure is the one worth reporting
                  .call (.query client .rollback) fun _ => finallyGiveBack client true (.error err)

/-- `withXactLock`. -/
def withXactLock (key : LockKey) (layers : LockLayers) (wait : Bool) (opts : AcquireOptions)
    (lease pool : Bool) : Routine T T :=
  if layers.fiducia && !lease then
    throwing (.invalidPlan key "layers.fiducia is enabled but no lease authority was supplied")
  else if layers.pgAdvisory && !pool then
    throwing (.invalidPlan key "layers.pgAdvisory is enabled but no pool was supplied")
  else
    let inner := fun grant =>
      if layers.pgAdvisory then runXact key wait grant
      else runWork { key, grant, client := none }
    if layers.fiducia then
      (acquireLease key wait opts).andThen fun grant =>
        (inner (some grant)).bind fun outcome => settle key grant outcome
    else inner none

/-! ## §5. Sessions. -/

/-- The failure of an unlock that did not hold. -/
def unlockMismatch (key : LockKey) : LockError where
  kind := .database
  key := key
  step := some .pgAdvisoryUnlock
  message := "pg_advisory_unlock reported the session did not hold `" ++ key.text ++ "`"

/-- The unlock of `runSession`, combined with the outcome of the work: the
result and whether the session is poisoned. -/
def unlockSession (client : Client) (key : LockKey) (inner : Except Thrown T) :
    Prog Call (Answer T) (Except Thrown T × Bool) :=
  .call (.query client (.advisoryUnlock key.advisory)) fun
    | .error cause =>
        let cleanup := Thrown.lockError (.database key .pgAdvisoryUnlock cause)
        match inner with
        | .error err => .ret (.error (.lockError (cleanupFailure key cleanup err)), true)
        | .ok _ => .ret (.error cleanup, true)
    | .ok rows =>
        if !firstBool rows then
          let cleanup := Thrown.lockError (unlockMismatch key)
          match inner with
          | .error err => .ret (.error (.lockError (cleanupFailure key cleanup err)), true)
          | .ok _ => .ret (.error cleanup, true)
        else .ret (inner, false)

/-- The statements of `runSession` on its client. -/
def insideSession (client : Client) (key : LockKey) (wait : Bool) (grant : Option LeaseGrant) :
    Prog Call (Answer T) (Except Thrown T × Bool) :=
  (if wait then exec client key (.advisoryLock key.advisory) .pgAdvisoryLock
    else tryLock client key (.tryAdvisoryLock key.advisory) .pgTryAdvisoryLock).bind fun
    | .error err => .ret (.error err, false)
    | .ok _ =>
        (runWork { key, grant, client := some client }).bind fun inner =>
          unlockSession client key inner

/-- `runSession`. -/
def runSession (key : LockKey) (wait : Bool) (grant : Option LeaseGrant) : Routine T T :=
  .call .connect fun
    | .error cause => throwing (.database key .pgAdvisoryLock cause)
    | .ok client =>
        (insideSession client key wait grant).bind fun
          | (.ok value, poisoned) => finallyGiveBack client poisoned (.ok value)
          | (.error err, poisoned) =>
              finallyGiveBack client poisoned (.error (tagStep err .pgAdvisoryLock))

/-- `withSessionLock`. -/
def withSessionLock (key : LockKey) (layers : LockLayers) (wait : Bool) (opts : AcquireOptions)
    (lease pool : Bool) : Routine T T :=
  if layers.fiducia && !lease then
    throwing (.invalidPlan key "layers.fiducia is enabled but no lease authority was supplied")
  else if layers.pgAdvisory && !pool then
    throwing (.invalidPlan key
      "layers.pgAdvisory is enabled with session scope but no pool was supplied")
  else
    let inner := fun grant =>
      if layers.pgAdvisory then runSession key wait grant
      else runWork { key, grant, client := none }
    if layers.fiducia then
      (acquireLease key wait opts).andThen fun grant =>
        (inner (some grant)).bind fun outcome => settle key grant outcome
    else inner none

end ClipTown.Locks
