/-
  ClipTown.Locks.Environment — what the routines run against.

  One database with its connection pool, and one lease authority.  Advisory
  locks belong to a database session: at transaction level they go with the
  transaction, at session level with an unlock, and all of them with the
  session.  A grant of the authority carries a token above every earlier one of
  its key, it may lapse at any time, and a release says whether it matched.  A
  call may fail without an effect, and it may fail with its effect made.  The
  work is handed its client, and is assumed to issue no statement there that
  begins or ends a transaction, locks or unlocks.

    • `PgWorld.execute` — one statement on one session,
    • `serve` — one call, `drift` — what happens by itself.
-/
import ClipTown.Locks.Routines
import Mathlib.Data.List.Range

namespace ClipTown.Locks

open Interaction

/-! ## §1. The database. -/

/-- A connection as the database sees it: the keys it has locked at
transaction level and, once for each grant, at session level. -/
structure Session where
  alive : Bool
  inTx : Bool
  xact : List ℤ
  sess : List ℤ
  deriving DecidableEq

def Session.fresh : Session := { alive := true, inTx := false, xact := [], sess := [] }

def Session.closed : Session := { alive := false, inTx := false, xact := [], sess := [] }

/-- The locks of a session. -/
def Session.locks (s : Session) : List ℤ := s.xact ++ s.sess

/-- A lock at transaction level; outside a block its transaction is over at once. -/
def Session.lockXact (s : Session) (key : ℤ) : Session :=
  if s.inTx then { s with xact := key :: s.xact } else s

/-- A lock at session level. -/
def Session.lockSession (s : Session) (key : ℤ) : Session := { s with sess := key :: s.sess }

/-- The end of a transaction. -/
def Session.endTx (s : Session) : Session := { s with inTx := false, xact := [] }

/-- The sessions by client, how many were ever opened, and the pool's idle ones. -/
structure PgWorld where
  sessions : Client → Session
  opened : ℕ
  idle : List Client

namespace PgWorld

def set (w : PgWorld) (client : Client) (s : Session) : PgWorld :=
  { w with sessions := Function.update w.sessions client s }

/-- Another session holds the key. -/
def heldElsewhere (w : PgWorld) (client : Client) (key : ℤ) : Bool :=
  -- a session never waits for itself
  (List.range w.opened).any fun other => other ≠ client && key ∈ (w.sessions other).locks

/-- One statement on one session; `none` where it waits for another session. -/
def execute (w : PgWorld) (client : Client) : Statement → Option (List Row × Session)
  | .begin => some ([], { w.sessions client with inTx := true })
  | .advisoryXactLock key =>
      if w.heldElsewhere client key then none
      else some ([[.other]], (w.sessions client).lockXact key)
  | .tryAdvisoryXactLock key =>
      if w.heldElsewhere client key then some ([[.bool false]], w.sessions client)
      else some ([[.bool true]], (w.sessions client).lockXact key)
  | .commit => some ([], (w.sessions client).endTx)
  | .rollback => some ([], (w.sessions client).endTx)
  | .advisoryLock key =>
      if w.heldElsewhere client key then none
      else some ([[.other]], (w.sessions client).lockSession key)
  | .tryAdvisoryLock key =>
      if w.heldElsewhere client key then some ([[.bool false]], w.sessions client)
      else some ([[.bool true]], (w.sessions client).lockSession key)
  | .advisoryUnlock key =>
      -- only the session's own session-level locks can be given back this way
      if key ∈ (w.sessions client).sess then
        some ([[.bool true]], { w.sessions client with sess := (w.sessions client).sess.erase key })
      else some ([[.bool false]], w.sessions client)

/-- A statement does not end a session. -/
theorem execute_alive {w : PgWorld} {client : Client} {statement : Statement} {rows : List Row}
    {s : Session} (h : w.execute client statement = some (rows, s)) :
    s.alive = (w.sessions client).alive := by
  -- in a transaction or not, the lock leaves the session alive
  have hxact : ∀ key, ((w.sessions client).lockXact key).alive = (w.sessions client).alive := by
    intro key
    unfold Session.lockXact
    split <;> rfl
  cases statement with
  | begin =>
      cases h
      rfl
  | commit =>
      cases h
      rfl
  | rollback =>
      cases h
      rfl
  | advisoryXactLock key =>
      simp only [execute] at h
      split at h
      · cases h
      · cases h
        exact hxact key
  | tryAdvisoryXactLock key =>
      simp only [execute] at h
      split at h
      · cases h
        rfl
      · cases h
        exact hxact key
  | advisoryLock key =>
      simp only [execute] at h
      split at h
      · cases h
      · cases h
        rfl
  | tryAdvisoryLock key =>
      simp only [execute] at h
      split at h
      · cases h
        rfl
      · cases h
        rfl
  | advisoryUnlock key =>
      simp only [execute] at h
      split at h
      · cases h
        rfl
      · cases h
        rfl

/-- A failed or lost connection is closed, any other goes back to the pool. -/
def giveBack (w : PgWorld) (client : Client) (failed : Bool) : PgWorld :=
  if failed || !(w.sessions client).alive then w.set client .closed
  else { w with idle := client :: w.idle }

/-- A new connection. -/
def openNew (w : PgWorld) : PgWorld :=
  { w with sessions := Function.update w.sessions w.opened .fresh, opened := w.opened + 1 }

end PgWorld

/-! ## §2. The lease authority. -/

/-- The grant of each key, by holder and token, and the last token minted. -/
structure LeaseWorld where
  current : LockKey → Option (String × ℕ)
  minted : LockKey → ℕ

namespace LeaseWorld

/-- A grant of a free key, with a token above every earlier one. -/
def grant (w : LeaseWorld) (key : LockKey) (holder : String) (token : ℕ) : Option LeaseWorld :=
  -- a fencing token is above every one before it, also those of lapsed grants
  if w.current key = none ∧ w.minted key < token then
    some
      { current := Function.update w.current key (some (holder, token))
        minted := Function.update w.minted key token }
  else none

/-- The grant is gone. -/
def free (w : LeaseWorld) (key : LockKey) : LeaseWorld :=
  { w with current := Function.update w.current key none }

/-- The grant is the one the authority has. -/
def matched (w : LeaseWorld) (g : LeaseGrant) : Bool :=
  w.current g.key = some (g.holder, g.fencingToken)

/-- A release. -/
def release (w : LeaseWorld) (g : LeaseGrant) : Bool × LeaseWorld :=
  -- holder and token must both match: a stale grant frees nothing
  if w.matched g then (true, w.free g.key) else (false, w)

end LeaseWorld

/-! ## §3. Calls. -/

structure World where
  pg : PgWorld
  lease : LeaseWorld

/-- What the environment is free to do with a call. -/
inductive Choice (T : Type) where
  /-- It is served. -/
  | serves
  /-- It fails, and nothing happened. -/
  | fails (err : Thrown)
  /-- It fails, and its effect is made. -/
  | loses (err : Thrown)
  /-- The pool hands out an idle connection. -/
  | reuses (client : Client)
  /-- The pool opens a connection. -/
  | opens
  /-- The authority grants the lease; `generated` is the holder where the caller names none. -/
  | grants (generated : String) (token : ℕ) (expires : Option JsNumber)
  /-- The authority grants the lease, and the answer is lost. -/
  | losesGrant (generated : String) (token : ℕ) (err : Thrown)
  /-- The work ends. -/
  | works (result : Except Thrown T)

variable {T : Type} {ι : Type*}

/-- One call of one client. -/
def serve (w : World) (_ : ι) : (c : Call) → Choice T → Option (Answer T c × World)
  | .acquire key opts _, choice =>
      match choice with
      | .grants generated token expires =>
          (w.lease.grant key (opts.holder.getD generated) token).map fun lease =>
            (.ok { key, holder := opts.holder.getD generated, fencingToken := token,
                   leaseExpiresMs := expires, ttlMs := opts.ttlMs }, { w with lease })
      | .losesGrant generated token err =>
          (w.lease.grant key (opts.holder.getD generated) token).map fun lease =>
            (.error err, { w with lease })
      | .fails err => some (.error err, w)
      | _ => none
  | .release g, choice =>
      match choice with
      | .serves => some (.ok (w.lease.release g).1, { w with lease := (w.lease.release g).2 })
      | .loses err => some (.error err, { w with lease := (w.lease.release g).2 })
      | .fails err => some (.error err, w)
      | _ => none
  | .connect, choice =>
      match choice with
      | .reuses client =>
          if client ∈ w.pg.idle then
            some (.ok client, { w with pg := { w.pg with idle := w.pg.idle.erase client } })
          else none
      | .opens => some (.ok w.pg.opened, { w with pg := w.pg.openNew })
      | .fails err => some (.error err, w)
      | _ => none
  | .query client statement, choice =>
      match choice with
      | .serves =>
          if (w.pg.sessions client).alive then
            (w.pg.execute client statement).map fun done =>
              (.ok done.1, { w with pg := w.pg.set client done.2 })
          else none
      | .loses err =>
          if (w.pg.sessions client).alive then
            (w.pg.execute client statement).map fun done =>
              (.error err, { w with pg := w.pg.set client done.2 })
          else none
      | .fails err => some (.error err, w)
      | _ => none
  | .giveBack client failed, choice =>
      match choice with
      | .serves => some ((), { w with pg := w.pg.giveBack client failed })
      | _ => none
  -- the work leaves the transaction and the locks of its client as it finds them
  | .work _, choice =>
      match choice with
      | .works result => some (result, w)
      | _ => none

/-- What happens by itself: a connection is lost, a lease lapses. -/
inductive Noise where
  | kill (client : Client)
  | lapse (key : LockKey)

def drift (w : World) : Noise → Option World
  | .kill client => some { w with pg := w.pg.set client .closed }
  | .lapse key => some { w with lease := w.lease.free key }

/-- The environment of the clients `ι`. -/
def environment (T : Type) (ι : Type*) : Network Call (Answer T) ι World (Choice T) Noise where
  serve := serve
  drift := drift

section Served

variable {w w' : World} {i : ι} {choice : Choice T}

/-- An acquisition fails, or the authority makes a grant. -/
theorem serve_acquire {key : LockKey} {opts : AcquireOptions} {wait : Bool}
    {answer : Except Thrown LeaseGrant}
    (h : serve w i (.acquire key opts wait) choice = some (answer, w')) :
    (∃ err, answer = .error err ∧ w' = w) ∨
      ∃ g lease, g.key = key ∧ w.lease.grant key g.holder g.fencingToken = some lease ∧
        w' = { w with lease } ∧ (answer = .ok g ∨ ∃ err, answer = .error err) := by
  cases choice with
  | grants generated token expires =>
      obtain ⟨lease, hlease, heq⟩ := Option.map_eq_some_iff.mp h
      cases heq
      exact .inr ⟨_, lease, rfl, hlease, rfl, .inl rfl⟩
  | losesGrant generated token err =>
      obtain ⟨lease, hlease, heq⟩ := Option.map_eq_some_iff.mp h
      cases heq
      exact .inr ⟨⟨key, opts.holder.getD generated, token, none, opts.ttlMs⟩, lease, rfl, hlease,
        rfl, .inr ⟨err, rfl⟩⟩
  | fails err =>
      cases h
      exact .inl ⟨err, rfl, rfl⟩
  | serves => cases h
  | loses err => cases h
  | reuses client => cases h
  | opens => cases h
  | works result => cases h

/-- A release reaches the authority or not. -/
theorem serve_release {g : LeaseGrant} {answer : Except Thrown Bool}
    (h : serve w i (.release g) choice = some (answer, w')) :
    (∃ err, answer = .error err ∧ w' = w) ∨
      w' = { w with lease := (w.lease.release g).2 } ∧
        (answer = .ok (w.lease.release g).1 ∨ ∃ err, answer = .error err) := by
  cases choice with
  | serves =>
      cases h
      exact .inr ⟨rfl, .inl rfl⟩
  | loses err =>
      cases h
      exact .inr ⟨rfl, .inr ⟨err, rfl⟩⟩
  | fails err =>
      cases h
      exact .inl ⟨err, rfl, rfl⟩
  | grants generated token expires => cases h
  | losesGrant generated token err => cases h
  | reuses client => cases h
  | opens => cases h
  | works result => cases h

/-- The pool hands out an idle connection or a new one. -/
theorem serve_connect {answer : Except Thrown Client}
    (h : serve w i .connect choice = some (answer, w')) :
    (∃ err, answer = .error err ∧ w' = w) ∨
      (∃ client ∈ w.pg.idle, answer = .ok client ∧
        w' = { w with pg := { w.pg with idle := w.pg.idle.erase client } }) ∨
      answer = .ok w.pg.opened ∧ w' = { w with pg := w.pg.openNew } := by
  cases choice with
  | reuses client =>
      unfold serve at h
      by_cases hidle : client ∈ w.pg.idle
      · simp only [hidle, if_true] at h
        cases h
        exact .inr (.inl ⟨client, hidle, rfl, rfl⟩)
      · simp only [hidle, if_false] at h
        cases h
  | opens =>
      cases h
      exact .inr (.inr ⟨rfl, rfl⟩)
  | fails err =>
      cases h
      exact .inl ⟨err, rfl, rfl⟩
  | serves => cases h
  | loses err => cases h
  | grants generated token expires => cases h
  | losesGrant generated token err => cases h
  | works result => cases h

/-- A statement fails without an effect, is executed, or is executed and its
answer is lost. -/
theorem serve_query {client : Client} {statement : Statement} {answer : Except Thrown (List Row)}
    (h : serve w i (.query client statement) choice = some (answer, w')) :
    (∃ err, answer = .error err ∧ w' = w) ∨
      ∃ rows session, (w.pg.sessions client).alive = true ∧
        w.pg.execute client statement = some (rows, session) ∧
        w' = { w with pg := w.pg.set client session } ∧
        (answer = .ok rows ∨ ∃ err, answer = .error err ∧ choice = .loses err) := by
  cases choice with
  | serves =>
      unfold serve at h
      by_cases halive : (w.pg.sessions client).alive = true
      · simp only [halive, if_true] at h
        obtain ⟨⟨rows, session⟩, hexec, heq⟩ := Option.map_eq_some_iff.mp h
        cases heq
        exact .inr ⟨rows, session, halive, hexec, rfl, .inl rfl⟩
      · simp only [halive] at h
        cases h
  | loses err =>
      unfold serve at h
      by_cases halive : (w.pg.sessions client).alive = true
      · simp only [halive, if_true] at h
        obtain ⟨⟨rows, session⟩, hexec, heq⟩ := Option.map_eq_some_iff.mp h
        cases heq
        exact .inr ⟨rows, session, halive, hexec, rfl, .inr ⟨err, rfl, rfl⟩⟩
      · simp only [halive] at h
        cases h
  | fails err =>
      cases h
      exact .inl ⟨err, rfl, rfl⟩
  | grants generated token expires => cases h
  | losesGrant generated token err => cases h
  | reuses c => cases h
  | opens => cases h
  | works result => cases h

theorem serve_giveBack {client : Client} {failed : Bool} {answer : Unit}
    (h : serve w i (.giveBack client failed) choice = some (answer, w')) :
    w' = { w with pg := w.pg.giveBack client failed } := by
  cases choice with
  | serves =>
      cases h
      rfl
  | loses err => cases h
  | fails err => cases h
  | grants generated token expires => cases h
  | losesGrant generated token err => cases h
  | reuses c => cases h
  | opens => cases h
  | works result => cases h

theorem serve_work {guarded : Guarded} {answer : Except Thrown T}
    (h : serve w i (.work guarded) choice = some (answer, w')) : w' = w := by
  cases choice with
  | works result =>
      cases h
      rfl
  | serves => cases h
  | loses err => cases h
  | fails err => cases h
  | grants generated token expires => cases h
  | losesGrant generated token err => cases h
  | reuses c => cases h
  | opens => cases h

end Served

/-- No connection is open and no lease is granted. -/
def World.start : World where
  pg := { sessions := fun _ => .closed, opened := 0, idle := [] }
  lease := { current := fun _ => none, minted := fun _ => 0 }

end ClipTown.Locks
