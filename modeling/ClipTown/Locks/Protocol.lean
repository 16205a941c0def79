/-
  ClipTown.Locks.Protocol — what a client of the lease and the database keeps to.

  A client's VIEW is what it has been told: the grant it has, its connection,
  the lock it holds there, and from when to when it held them.  The protocol is
  on these alone, so a routine can be checked against it by itself.

    • `lockProtocol` — the calls that are allowed, and what an answer means,
    • `withGuard_obeys` — the routines of both scopes keep to it, and return a
      value only after they held every layer for the whole of the work.
-/
import ClipTown.Locks.PlanConformance

namespace ClipTown.Locks

open Interaction

/-! ## §1. Views. -/

/-- The grant, with the time of its answer, and the time from there to its release. -/
structure LeaseView where
  grant : Option (LeaseGrant × ℕ)
  tenure : Option (ℕ × ℕ)

/-- The connection and what is known of it; `dirty` where it is not known what
it holds. -/
structure PgView where
  client : Option Client
  inTx : Bool
  lock : Option (PgScope × ℕ)
  dirty : Bool
  tenure : Option (ℕ × ℕ)

structure View where
  lease : LeaseView
  pg : PgView
  worked : Option ℕ

def LeaseView.start : LeaseView := { grant := none, tenure := none }

def PgView.start : PgView :=
  { client := none, inTx := false, lock := none, dirty := false, tenure := none }

def View.start : View := { lease := .start, pg := .start, worked := none }

/-- The client that has just been checked out. -/
def PgView.connected (client : Client) : PgView := { PgView.start with client := some client }

/-! ## §2. Statements. -/

/-- The statements a client may make. -/
def Statement.allowed (key : LockKey) (v : PgView) : Statement → Prop
  | .begin => v.inTx = false ∧ v.lock = none ∧ v.dirty = false
  | .advisoryXactLock k | .tryAdvisoryXactLock k =>
      k = key.advisory ∧ v.inTx = true ∧ v.lock = none ∧ v.dirty = false ∧ v.tenure = none
  | .advisoryLock k | .tryAdvisoryLock k =>
      k = key.advisory ∧ v.inTx = false ∧ v.lock = none ∧ v.dirty = false ∧ v.tenure = none
  | .commit => v.inTx = true ∧ v.dirty = false ∧ ∃ t, v.lock = some (.transaction, t)
  | .rollback => v.inTx = true
  | .advisoryUnlock k => k = key.advisory ∧ v.dirty = false ∧ ∃ t, v.lock = some (.session, t)

/-- The statements that take a lock. -/
def Statement.locks : Statement → Bool
  | .advisoryXactLock _ | .tryAdvisoryXactLock _ | .advisoryLock _ | .tryAdvisoryLock _ => true
  | .begin | .commit | .rollback | .advisoryUnlock _ => false

/-- The lock is given back. -/
def PgView.unlocked (v : PgView) (t : ℕ) : PgView :=
  { v with lock := none, tenure := v.lock.map fun l => (l.2, t) }

/-- It is not known any more what the connection holds. -/
def PgView.unsure (v : PgView) : PgView := { v with lock := none, dirty := true }

/-- What the answer of a statement means. -/
def PgView.after (v : PgView) (t : ℕ) : Statement → Except Thrown (List Row) → PgView
  | .begin, .ok _ => { v with inTx := true }
  | .begin, .error _ => v
  | .advisoryXactLock _, .ok _ => { v with lock := some (.transaction, t) }
  | .tryAdvisoryXactLock _, .ok rows =>
      if firstBool rows then { v with lock := some (.transaction, t) } else v
  | .advisoryXactLock _, .error _ | .tryAdvisoryXactLock _, .error _ => v.unsure
  | .advisoryLock _, .ok _ => { v with lock := some (.session, t) }
  | .tryAdvisoryLock _, .ok rows =>
      if firstBool rows then { v with lock := some (.session, t) } else v
  -- the routine gives this connection back as a clean one, lock or no lock
  | .advisoryLock _, .error _ | .tryAdvisoryLock _, .error _ => v
  | .commit, .ok _ => { v.unlocked t with inTx := false }
  | .commit, .error _ => v.unsure
  -- a transaction that is rolled back leaves nothing of its own behind
  | .rollback, .ok _ => { v with lock := none, inTx := false, dirty := false }
  | .rollback, .error _ => v.unsure
  | .advisoryUnlock _, .ok rows => if firstBool rows then v.unlocked t else v.unsure
  | .advisoryUnlock _, .error _ => v.unsure

section Answers

variable (v : PgView) (t : ℕ) (k : ℤ) {rows : List Row}

theorem after_tryXact (h : firstBool rows = true) :
    v.after t (.tryAdvisoryXactLock k) (.ok rows) = { v with lock := some (.transaction, t) } :=
  if_pos h

theorem after_tryXact_refused (h : firstBool rows = false) :
    v.after t (.tryAdvisoryXactLock k) (.ok rows) = v :=
  if_neg (by rw [h]; exact Bool.false_ne_true)

theorem after_trySession (h : firstBool rows = true) :
    v.after t (.tryAdvisoryLock k) (.ok rows) = { v with lock := some (.session, t) } :=
  if_pos h

theorem after_trySession_refused (h : firstBool rows = false) :
    v.after t (.tryAdvisoryLock k) (.ok rows) = v :=
  if_neg (by rw [h]; exact Bool.false_ne_true)

theorem after_unlock (h : firstBool rows = true) :
    v.after t (.advisoryUnlock k) (.ok rows) = v.unlocked t :=
  if_pos h

theorem after_unlock_refused (h : firstBool rows = false) :
    v.after t (.advisoryUnlock k) (.ok rows) = v.unsure :=
  if_neg (by rw [h]; exact Bool.false_ne_true)

end Answers

/-- A statement leaves the client its connection. -/
theorem after_client (v : PgView) (t : ℕ) (statement : Statement)
    (answer : Except Thrown (List Row)) : (v.after t statement answer).client = v.client := by
  cases answer with
  | error err => cases statement <;> rfl
  | ok rows =>
      cases statement with
      | begin => rfl
      | advisoryXactLock k => rfl
      | advisoryLock k => rfl
      | commit => rfl
      | rollback => rfl
      | tryAdvisoryXactLock k =>
          cases hrows : firstBool rows with
          | true => rw [after_tryXact _ _ _ hrows]
          | false => rw [after_tryXact_refused _ _ _ hrows]
      | tryAdvisoryLock k =>
          cases hrows : firstBool rows with
          | true => rw [after_trySession _ _ _ hrows]
          | false => rw [after_trySession_refused _ _ _ hrows]
      | advisoryUnlock k =>
          cases hrows : firstBool rows with
          | true =>
              rw [after_unlock _ _ _ hrows]
              rfl
          | false =>
              rw [after_unlock_refused _ _ _ hrows]
              rfl

/-! ## §3. The protocol. -/

/-- The work of a client that asked for these layers. -/
def View.admits (v : View) (layers : LockLayers) (g : Guarded) : Prop :=
  (layers.fiducia = true → ∃ grant t, g.grant = some grant ∧ v.lease.grant = some (grant, t)) ∧
    (layers.pgAdvisory = true → g.client = v.pg.client ∧ v.pg.client.isSome = true ∧
      v.pg.lock.isSome = true ∧ v.pg.dirty = false)

/-- What a client that asked for these layers keeps to. -/
def lockProtocol (T : Type) (key : LockKey) (layers : LockLayers) :
    Protocol Call (Answer T) View where
  allowed v c :=
    match c with
    | .acquire k _ _ => k = key ∧ v = .start
    | .release g => (∃ t, v.lease.grant = some (g, t)) ∧ v.pg.client = none
    | .connect => v.pg = .start ∧ v.worked = none
    | .query client statement => v.pg.client = some client ∧ statement.allowed key v.pg ∧
        (statement.locks = true → v.worked = none)
    | .giveBack client failed => v.pg.client = some client ∧
        (failed = false → v.pg.dirty = false ∧ v.pg.lock = none ∧ v.pg.inTx = false)
    | .work g => v.worked = none ∧ v.lease.tenure = none ∧ v.pg.tenure = none ∧ v.admits layers g
  after t v c answer :=
    match c, answer with
    | .acquire _ _ _, .ok grant => { v with lease := { v.lease with grant := some (grant, t) } }
    | .acquire _ _ _, .error _ => v
    | .release _, .ok true =>
        { v with lease := { grant := none, tenure := v.lease.grant.map fun g => (g.2, t) } }
    | .release _, .ok false => { v with lease := { v.lease with grant := none } }
    | .release _, .error _ => { v with lease := { v.lease with grant := none } }
    | .connect, .ok client => { v with pg := .connected client }
    | .connect, .error _ => v
    | .query _ statement, answer => { v with pg := v.pg.after t statement answer }
    | .giveBack _ _, _ => { v with pg := { PgView.start with tenure := v.pg.tenure } }
    | .work _, _ => { v with worked := some t }

/-- All is given back; a value is returned only after every layer was held. -/
def View.final {T : Type} (layers : LockLayers) (v : View) (result : Except Thrown T) : Prop :=
  v.lease.grant = none ∧ v.pg.client = none ∧
    ∀ value, result = .ok value → v.worked.isSome = true ∧
      (layers.fiducia = true → v.lease.tenure.isSome = true) ∧
      (layers.pgAdvisory = true → v.pg.tenure.isSome = true)

/-! ## §4. The parts of a routine. -/

variable {T : Type} {key : LockKey} {layers : LockLayers} {wait : Bool} {opts : AcquireOptions}

/-- What the inner layer leaves: its connection is given back. -/
def View.inner (layers : LockLayers) (lease : LeaseView) (v : View) (result : Except Thrown T) :
    Prop :=
  v.lease = lease ∧ v.pg.client = none ∧
    ∀ value, result = .ok value → v.worked.isSome = true ∧
      (layers.pgAdvisory = true → v.pg.tenure.isSome = true)

/-- The lease that the work asks for is there. -/
def LeaseView.ready (layers : LockLayers) (lease : LeaseView) (grant : Option LeaseGrant) : Prop :=
  lease.tenure = none ∧
    (layers.fiducia = true → ∃ g t, grant = some g ∧ lease.grant = some (g, t))

theorem runWork_obeys {v : View} {grant : Option LeaseGrant} {client : Option Client}
    (hlease : v.lease.ready layers grant) (hworked : v.worked = none) (htenure : v.pg.tenure = none)
    (hpg : layers.pgAdvisory = true → client = v.pg.client ∧ v.pg.client.isSome = true ∧
      v.pg.lock.isSome = true ∧ v.pg.dirty = false) :
    Obeys (lockProtocol T key layers) (fun v' _ => ∃ t, v' = { v with worked := some t }) v
      (runWork { key, grant, client }) := by
  refine ⟨⟨hworked, hlease.1, htenure, hlease.2, hpg⟩, fun t answer => ?_⟩
  cases answer with
  | ok value => exact ⟨t, rfl⟩
  | error cause => exact ⟨t, rfl⟩

theorem giveBack_obeys {α : Type} {v : View} {client : Client} {failed : Bool}
    {result : Except Thrown α} (hclient : v.pg.client = some client)
    (hclean : failed = false → v.pg.dirty = false ∧ v.pg.lock = none ∧ v.pg.inTx = false) :
    Obeys (lockProtocol T key layers)
      (fun v' result' => v' = { v with pg := { PgView.start with tenure := v.pg.tenure } } ∧
        result' = result) v (finallyGiveBack client failed result) :=
  ⟨⟨hclient, hclean⟩, fun _ _ => ⟨rfl, rfl⟩⟩

/-- A statement whose answer decides: what it leaves. -/
theorem exec_obeys {v : View} {client : Client} (statement : Statement) {step : LockStep}
    (hclient : v.pg.client = some client) (hallowed : statement.allowed key v.pg)
    (hworked : statement.locks = true → v.worked = none) :
    Obeys (lockProtocol T key layers)
      (fun v' result => ∃ t answer, v' = { v with pg := v.pg.after t statement answer } ∧
        ((∃ rows, answer = .ok rows ∧ result = .ok ()) ∨
          ∃ cause err, answer = .error cause ∧ result = .error err)) v
      (exec client key statement step) := by
  refine ⟨⟨hclient, hallowed, hworked⟩, fun t answer => ?_⟩
  cases answer with
  | ok rows => exact ⟨t, .ok rows, rfl, .inl ⟨rows, rfl, rfl⟩⟩
  | error cause => exact ⟨t, .error cause, rfl, .inr ⟨cause, _, rfl, rfl⟩⟩

theorem tryLock_obeys {v : View} {client : Client} (statement : Statement) {step : LockStep}
    (hclient : v.pg.client = some client) (hallowed : statement.allowed key v.pg)
    (hworked : statement.locks = true → v.worked = none) :
    Obeys (lockProtocol T key layers)
      (fun v' result => ∃ t answer, v' = { v with pg := v.pg.after t statement answer } ∧
        ((∃ rows, firstBool rows = true ∧ answer = .ok rows ∧ result = .ok ()) ∨
          (∃ rows err, firstBool rows = false ∧ answer = .ok rows ∧ result = .error err) ∨
          ∃ cause err, answer = .error cause ∧ result = .error err)) v
      (tryLock client key statement step) := by
  refine ⟨⟨hclient, hallowed, hworked⟩, fun t answer => ?_⟩
  cases answer with
  | ok rows =>
      cases hrows : firstBool rows with
      | true =>
          simp only [hrows, if_true]
          exact ⟨t, .ok rows, rfl, .inl ⟨rows, hrows, rfl, rfl⟩⟩
      | false =>
          simp only [hrows]
          exact ⟨t, .ok rows, rfl, .inr (.inl ⟨rows, _, hrows, rfl, rfl⟩)⟩
  | error cause => exact ⟨t, .error cause, rfl, .inr (.inr ⟨cause, _, rfl, rfl⟩)⟩

/-! ## §5. The two database layers. -/

/-- A connection inside a transaction. -/
def PgView.begun (client : Client) : PgView := { PgView.connected client with inTx := true }

theorem lockXact_obeys {v : View} {client : Client} (hpg : v.pg = .begun client)
    (hworked : v.worked = none) :
    Obeys (lockProtocol T key layers)
      (fun v' result => v'.lease = v.lease ∧ v'.worked = v.worked ∧ v'.pg.client = some client ∧
        v'.pg.inTx = true ∧ v'.pg.tenure = none ∧
        ∀ u, result = .ok u → v'.pg.dirty = false ∧ ∃ t, v'.pg.lock = some (.transaction, t)) v
      (if wait then exec client key (.advisoryXactLock key.advisory) .pgAdvisoryXactLock
        else tryLock client key (.tryAdvisoryXactLock key.advisory) .pgTryAdvisoryXactLock) := by
  have hclient : v.pg.client = some client := by rw [hpg]; rfl
  cases wait with
  | true =>
      apply (exec_obeys _ hclient (by rw [hpg]; exact ⟨rfl, rfl, rfl, rfl, rfl⟩)
        fun _ => hworked).mono
      rintro v' result ⟨t, answer, rfl, ⟨rows, rfl, rfl⟩ | ⟨cause, err, rfl, rfl⟩⟩
      · rw [hpg]
        exact ⟨rfl, rfl, rfl, rfl, rfl, fun _ _ => ⟨rfl, t, rfl⟩⟩
      · rw [hpg]
        exact ⟨rfl, rfl, rfl, rfl, rfl, by rintro u ⟨⟩⟩
  | false =>
      apply (tryLock_obeys _ hclient (by rw [hpg]; exact ⟨rfl, rfl, rfl, rfl, rfl⟩)
        fun _ => hworked).mono
      rintro v' result ⟨t, answer, rfl, ⟨rows, hrows, rfl, rfl⟩ | ⟨rows, err, hrows, rfl, rfl⟩ |
        ⟨cause, err, rfl, rfl⟩⟩
      · rw [hpg]
        rw [after_tryXact _ _ _ hrows]
        exact ⟨rfl, rfl, rfl, rfl, rfl, fun _ _ => ⟨rfl, t, rfl⟩⟩
      · rw [hpg]
        rw [after_tryXact_refused _ _ _ hrows]
        exact ⟨rfl, rfl, rfl, rfl, rfl, by rintro u ⟨⟩⟩
      · rw [hpg]
        exact ⟨rfl, rfl, rfl, rfl, rfl, by rintro u ⟨⟩⟩

/-- Inside a transaction: a value comes after the commit of what the lock held,
and a failure leaves a transaction to roll back. -/
theorem insideXact_obeys {v : View} {client : Client} {grant : Option LeaseGrant}
    (hpg : v.pg = .begun client) (hworked : v.worked = none)
    (hlease : v.lease.ready layers grant) :
    Obeys (lockProtocol T key layers)
      (fun v' result => v'.lease = v.lease ∧ v'.pg.client = some client ∧
        (∀ err, result = .error err → v'.pg.inTx = true) ∧
        ∀ value, result = .ok value → v'.worked.isSome = true ∧ v'.pg.tenure.isSome = true ∧
          v'.pg.dirty = false ∧ v'.pg.lock = none ∧ v'.pg.inTx = false) v
      (insideXact client key wait grant) := by
  apply obeys_andThen (lockXact_obeys hpg hworked)
  · rintro v₁ u ⟨hl, hw, hclient, htx, htenure, hlock⟩
    obtain ⟨hdirty, since, hsince⟩ := hlock u rfl
    apply obeys_andThen (runWork_obeys (by rw [hl]; exact hlease) (hw.trans hworked) htenure
      fun _ => ⟨hclient.symm, by rw [hclient]; rfl, by rw [hsince]; rfl, hdirty⟩)
    · rintro v₂ value ⟨done, rfl⟩
      -- the commit ends the tenure of the lock
      refine obeys_andThen
        (exec_obeys .commit hclient ⟨htx, hdirty, since, hsince⟩ (by rintro ⟨⟩)) ?_ ?_
      · rintro v₃ u ⟨t, answer, rfl, ⟨rows, rfl, -⟩ | ⟨cause, err, -, ⟨⟩⟩⟩
        refine ⟨hl, hclient, by rintro err ⟨⟩, fun _ _ => ⟨rfl, ?_, hdirty, rfl, rfl⟩⟩
        show (v₁.pg.lock.map fun l => (l.2, t)).isSome = true
        rw [hsince]
        rfl
      · rintro v₃ err ⟨t, answer, rfl, ⟨rows, -, ⟨⟩⟩ | ⟨cause, err, rfl, -⟩⟩
        exact ⟨hl, hclient, fun _ _ => htx, by rintro value ⟨⟩⟩
    · rintro v₂ err ⟨done, rfl⟩
      exact ⟨hl, hclient, fun _ _ => htx, by rintro value ⟨⟩⟩
  · rintro v₁ err ⟨hl, hw, hclient, htx, htenure, hlock⟩
    exact ⟨hl, hclient, fun _ _ => htx, by rintro value ⟨⟩⟩

theorem runXact_obeys {v : View} {grant : Option LeaseGrant} (hpg : v.pg = .start)
    (hworked : v.worked = none) (hlease : v.lease.ready layers grant) :
    Obeys (lockProtocol T key layers) (View.inner layers v.lease) v (runXact key wait grant) := by
  refine ⟨⟨hpg, hworked⟩, fun t answer => ?_⟩
  cases answer with
  | error cause => exact ⟨rfl, by show v.pg.client = none; rw [hpg]; rfl, by rintro value ⟨⟩⟩
  | ok client =>
      -- no transaction without a BEGIN: its failure gives the connection back unused
      refine obeys_bind (exec_obeys .begin (by rfl) (by exact ⟨rfl, rfl, rfl⟩) (by rintro ⟨⟩)) ?_
      rintro v₁ began ⟨t₁, answer, rfl, ⟨rows, rfl, rfl⟩ | ⟨cause, err, rfl, rfl⟩⟩
      · refine obeys_bind (insideXact_obeys (by rfl) hworked hlease) ?_
        rintro v₂ outcome ⟨hl, hclient, herror, hok⟩
        cases outcome with
        | ok value =>
            obtain ⟨hw, htenure, hclean⟩ := hok value rfl
            refine (giveBack_obeys hclient fun _ => hclean).mono ?_
            rintro v₃ result ⟨rfl, rfl⟩
            exact ⟨hl, rfl, fun _ _ => ⟨hw, fun _ => htenure⟩⟩
        | error err =>
            refine ⟨⟨hclient, herror err rfl, by rintro ⟨⟩⟩, fun t₂ rolledBack => ?_⟩
            -- whether the rollback was answered or not, the connection goes back as failed
            have hstill : (v₂.pg.after t₂ .rollback rolledBack).client = some client := by
              cases rolledBack <;> exact hclient
            refine (giveBack_obeys hstill (by rintro ⟨⟩)).mono ?_
            rintro v₃ result ⟨rfl, rfl⟩
            exact ⟨hl, rfl, by rintro value ⟨⟩⟩
      · refine (giveBack_obeys (by rfl) fun _ => ⟨rfl, rfl, rfl⟩).mono ?_
        rintro v₃ result ⟨rfl, rfl⟩
        exact ⟨rfl, rfl, by rintro value ⟨⟩⟩

theorem lockSession_obeys {v : View} {client : Client} (hpg : v.pg = .connected client)
    (hworked : v.worked = none) :
    Obeys (lockProtocol T key layers)
      (fun v' result => v'.lease = v.lease ∧ v'.worked = v.worked ∧
        (∀ err, result = .error err → v'.pg = .connected client) ∧
        ∀ u, result = .ok u →
          ∃ t, v'.pg = { PgView.connected client with lock := some (.session, t) }) v
      (if wait then exec client key (.advisoryLock key.advisory) .pgAdvisoryLock
        else tryLock client key (.tryAdvisoryLock key.advisory) .pgTryAdvisoryLock) := by
  have hclient : v.pg.client = some client := by rw [hpg]; rfl
  cases wait with
  | true =>
      apply (exec_obeys _ hclient (by rw [hpg]; exact ⟨rfl, rfl, rfl, rfl, rfl⟩)
        fun _ => hworked).mono
      rintro v' result ⟨t, answer, rfl, ⟨rows, rfl, rfl⟩ | ⟨cause, err, rfl, rfl⟩⟩
      · rw [hpg]
        exact ⟨rfl, rfl, by rintro err ⟨⟩, fun _ _ => ⟨t, rfl⟩⟩
      · rw [hpg]
        exact ⟨rfl, rfl, fun _ _ => rfl, by rintro u ⟨⟩⟩
  | false =>
      apply (tryLock_obeys _ hclient (by rw [hpg]; exact ⟨rfl, rfl, rfl, rfl, rfl⟩)
        fun _ => hworked).mono
      rintro v' result ⟨t, answer, rfl, ⟨rows, hrows, rfl, rfl⟩ | ⟨rows, err, hrows, rfl, rfl⟩ |
        ⟨cause, err, rfl, rfl⟩⟩
      · rw [hpg]
        rw [after_trySession _ _ _ hrows]
        exact ⟨rfl, rfl, by rintro err ⟨⟩, fun _ _ => ⟨t, rfl⟩⟩
      · rw [hpg]
        rw [after_trySession_refused _ _ _ hrows]
        exact ⟨rfl, rfl, fun _ _ => rfl, by rintro u ⟨⟩⟩
      · rw [hpg]
        exact ⟨rfl, rfl, fun _ _ => rfl, by rintro u ⟨⟩⟩

/-- The unlock: a session that is not poisoned has nothing locked. -/
theorem unlockSession_obeys {v : View} {client : Client} {inner : Except Thrown T} {since : ℕ}
    (hpg : v.pg = { PgView.connected client with lock := some (.session, since) }) :
    Obeys (lockProtocol T key layers)
      (fun v' result => v'.lease = v.lease ∧ v'.worked = v.worked ∧ v'.pg.client = some client ∧
        (result.2 = false → v'.pg.dirty = false ∧ v'.pg.lock = none ∧ v'.pg.inTx = false) ∧
        ∀ value, result.1 = .ok value → inner = .ok value ∧ v'.pg.tenure.isSome = true) v
      (unlockSession client key inner) := by
  refine ⟨⟨by rw [hpg]; rfl, ⟨rfl, by rw [hpg]; rfl, since, by rw [hpg]⟩, by rintro ⟨⟩⟩,
    fun t answer => ?_⟩
  show Obeys (lockProtocol T key layers) _
    { v with pg := v.pg.after t (.advisoryUnlock key.advisory) answer } _
  rw [hpg]
  cases answer with
  | error cause =>
      cases inner with
      | ok value => exact ⟨rfl, rfl, rfl, by rintro ⟨⟩, by rintro value ⟨⟩⟩
      | error err => exact ⟨rfl, rfl, rfl, by rintro ⟨⟩, by rintro value ⟨⟩⟩
  | ok rows =>
      cases hrows : firstBool rows with
      | true =>
          rw [after_unlock _ _ _ hrows]
          simp only [hrows, Bool.not_true, Bool.false_eq_true, if_false]
          exact ⟨rfl, rfl, rfl, fun _ => ⟨rfl, rfl, rfl⟩, fun value h => ⟨h, rfl⟩⟩
      | false =>
          rw [after_unlock_refused _ _ _ hrows]
          simp only [hrows, Bool.not_false, if_true]
          cases inner with
          | ok value => exact ⟨rfl, rfl, rfl, by rintro ⟨⟩, by rintro value ⟨⟩⟩
          | error err => exact ⟨rfl, rfl, rfl, by rintro ⟨⟩, by rintro value ⟨⟩⟩

theorem runSession_obeys {v : View} {grant : Option LeaseGrant} (hpg : v.pg = .start)
    (hworked : v.worked = none) (hlease : v.lease.ready layers grant) :
    Obeys (lockProtocol T key layers) (View.inner layers v.lease) v
      (runSession key wait grant) := by
  refine ⟨⟨hpg, hworked⟩, fun t answer => ?_⟩
  cases answer with
  | error cause => exact ⟨rfl, by show v.pg.client = none; rw [hpg]; rfl, by rintro value ⟨⟩⟩
  | ok client =>
      -- whatever happens inside, a client that is not poisoned is clean
      have hinside : Obeys (lockProtocol T key layers)
          (fun v' result => v'.lease = v.lease ∧ v'.pg.client = some client ∧
            (result.2 = false → v'.pg.dirty = false ∧ v'.pg.lock = none ∧ v'.pg.inTx = false) ∧
            ∀ value, result.1 = .ok value →
              v'.worked.isSome = true ∧ v'.pg.tenure.isSome = true)
          { v with pg := .connected client } (insideSession client key wait grant) := by
        refine obeys_bind (lockSession_obeys (by rfl) hworked) ?_
        rintro v₁ locked ⟨hl, hw, herror, hok⟩
        cases locked with
        | error err =>
            have hv := herror err rfl
            exact ⟨hl, by rw [hv]; rfl, fun _ => by rw [hv]; exact ⟨rfl, rfl, rfl⟩,
              by rintro value ⟨⟩⟩
        | ok u =>
            obtain ⟨since, hsince⟩ := hok u rfl
            apply obeys_bind (runWork_obeys (by rw [hl]; exact hlease) (hw.trans hworked)
              (by rw [hsince]; rfl) fun _ => by rw [hsince]; exact ⟨rfl, rfl, rfl, rfl⟩)
            rintro v₂ inner ⟨done, rfl⟩
            refine Obeys.mono (unlockSession_obeys (by exact hsince)) ?_
            rintro v₃ result ⟨hl₃, hw₃, hclient, hclean, hvalue⟩
            refine ⟨hl₃.trans hl, hclient, hclean, fun value h => ⟨?_, (hvalue value h).2⟩⟩
            rw [hw₃]
            rfl
      refine obeys_bind hinside ?_
      rintro v₁ ⟨outcome, poisoned⟩ ⟨hl, hclient, hclean, hvalue⟩
      cases outcome with
      | ok value =>
          refine (giveBack_obeys hclient hclean).mono ?_
          rintro v₂ result ⟨rfl, rfl⟩
          obtain ⟨hw, htenure⟩ := hvalue value rfl
          exact ⟨hl, rfl, fun _ _ => ⟨hw, fun _ => htenure⟩⟩
      | error err =>
          refine (giveBack_obeys hclient hclean).mono ?_
          rintro v₂ result ⟨rfl, rfl⟩
          exact ⟨hl, rfl, by rintro value ⟨⟩⟩

/-! ## §6. The lease, and the whole routine. -/

theorem inner_obeys (scope : PgScope) {v : View} {grant : Option LeaseGrant} (hpg : v.pg = .start)
    (hworked : v.worked = none) (hlease : v.lease.ready layers grant) :
    Obeys (lockProtocol T key layers) (View.inner layers v.lease) v
      (inner scope key layers.pgAdvisory wait grant) := by
  unfold inner
  cases hlayer : layers.pgAdvisory with
  | true =>
      cases scope with
      | transaction => exact runXact_obeys hpg hworked hlease
      | session => exact runSession_obeys hpg hworked hlease
  | false =>
      refine Obeys.mono (runWork_obeys hlease hworked (by rw [hpg]; rfl) fun h => ?_) ?_
      · rw [hlayer] at h
        cases h
      · rintro v' result ⟨t, rfl⟩
        refine ⟨rfl, ?_, fun _ _ => ⟨rfl, fun h => ?_⟩⟩
        · show v.pg.client = none
          rw [hpg]
          rfl
        · rw [hlayer] at h
          cases h

/-- The release of the lease: its tenure ends only where the authority says so. -/
theorem settle_obeys {v : View} {grant : LeaseGrant} {since : ℕ} {outcome : Except Thrown T}
    (hgrant : v.lease.grant = some (grant, since)) (hclient : v.pg.client = none)
    (hvalue : ∀ value, outcome = .ok value → v.worked.isSome = true ∧
      (layers.pgAdvisory = true → v.pg.tenure.isSome = true)) :
    Obeys (lockProtocol T key layers) (View.final layers) v (settle key grant outcome) := by
  refine ⟨⟨⟨since, hgrant⟩, hclient⟩, fun t answer => ?_⟩
  cases answer with
  | error err =>
      cases outcome with
      | ok value =>
          refine ⟨rfl, hclient, ?_⟩
          rintro value ⟨⟩
      | error innerErr =>
          refine ⟨rfl, hclient, ?_⟩
          rintro value ⟨⟩
  | ok released =>
      cases released with
      | true =>
          refine ⟨rfl, hclient, fun value hok => ?_⟩
          obtain ⟨hworked, hpg⟩ := hvalue value hok
          refine ⟨hworked, fun _ => ?_, hpg⟩
          -- the tenure goes from the grant to this answer
          show (v.lease.grant.map fun g => (g.2, t)).isSome = true
          rw [hgrant]
          rfl
      | false =>
          cases outcome with
          | ok value =>
              refine ⟨rfl, hclient, ?_⟩
              rintro value ⟨⟩
          | error innerErr =>
              refine ⟨rfl, hclient, ?_⟩
              rintro value ⟨⟩

/-- The routine of either scope keeps to the protocol. -/
theorem withGuard_obeys (scope : PgScope) (key : LockKey) (layers : LockLayers) (wait : Bool)
    (opts : AcquireOptions) (lease pool : Bool) :
    Obeys (lockProtocol T key layers) (View.final layers) .start
      (withGuard scope key layers wait opts lease pool) := by
  cases hmissing : missing layers lease pool with
  | true =>
      obtain ⟨message, hthrow⟩ := withGuard_missing (T := T) scope wait key layers opts hmissing
      rw [hthrow]
      refine ⟨rfl, rfl, ?_⟩
      rintro value ⟨⟩
  | false =>
      rw [withGuard_eq scope wait key layers opts hmissing]
      cases hlayer : layers.fiducia with
      | false =>
          refine Obeys.mono (inner_obeys scope rfl rfl ⟨rfl, fun h => ?_⟩) ?_
          · rw [hlayer] at h
            cases h
          · rintro v result ⟨hl, hclient, hvalue⟩
            refine ⟨by rw [hl]; rfl, hclient, fun value hok => ?_⟩
            obtain ⟨hworked, hpg⟩ := hvalue value hok
            refine ⟨hworked, fun h => ?_, hpg⟩
            rw [hlayer] at h
            cases h
      | true =>
          refine ⟨⟨rfl, rfl⟩, fun t answer => ?_⟩
          cases answer with
          | error err =>
              refine ⟨rfl, rfl, ?_⟩
              rintro value ⟨⟩
          | ok grant =>
              show Obeys (lockProtocol T key layers) (View.final layers)
                { View.start with lease := { grant := some (grant, t), tenure := none } }
                ((inner scope key layers.pgAdvisory wait (some grant)).bind _)
              -- under the lease the inner layer runs from a fresh connection view
              refine obeys_bind (inner_obeys scope rfl rfl ⟨rfl, fun _ => ⟨grant, t, rfl, rfl⟩⟩) ?_
              rintro v outcome ⟨hl, hclient, hvalue⟩
              exact settle_obeys (by rw [hl]) hclient hvalue

end ClipTown.Locks
