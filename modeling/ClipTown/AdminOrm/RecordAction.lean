/-
  ClipTown.AdminOrm.RecordAction — concurrent `record_action` calls
  (`admin-orm/src/lib.rs`, `AdminWriteContext::record_action`).

  Each call runs one transaction: insert the request with
  `ON CONFLICT (idempotency_key) DO NOTHING`; when a row came back, write the
  outbox event; when none did, look for a request with the SAME six fields and
  roll back if there is none; commit.  Calls interleave statement by statement,
  and any of them may fail at any statement, which rolls it back.

    • `step` — one statement of one call, over the two tables, the commit log
      and the program counters of all calls,
    • `Inv` / `inv_step` — one invariant for all in-flight transactions: each
      call's program counter says what it has written and what it has seen,
    • `recordAction_exactly_once` — at most one request per key, exactly one
      outbox event per request, one answer per key, conflicts only against a
      different committed payload, nothing left behind by a failed call.

  `Uuid::new_v4`, the text form of a UUID and its parser are third-party and
  enter as `newV4`, `toText` and `parseStr`.
-/
import ClipTown.AdminOrm.DatabaseConfig
import ClipTown.Lib.Mvcc
import ClipTown.Lib.Transitions

namespace ClipTown.AdminOrm

open Checks Mvcc Transitions

/-! ## §1. The data model. -/

/-- `AdminAction`. -/
structure AdminAction where
  idempotencyKey : String
  actorSubject : String
  actorSessionId : String
  resource : String
  action : String
  reason : String
  deriving DecidableEq

/-- A row of `admin_action_requests`, as inserted. -/
structure RequestRow (Uuid : Type) where
  operationId : Uuid
  idempotencyKey : String
  actorSubject : String
  actorSessionId : String
  resource : String
  action : String
  reason : String
  deriving DecidableEq

/-- A row of `admin_action_outbox`, as inserted. -/
structure OutboxRow (Uuid : Type) where
  operationId : Uuid
  eventKind : String
  deriving DecidableEq

/-- The six payload columns of a request. -/
def RequestRow.payload {Uuid : Type} (row : RequestRow Uuid) : AdminAction where
  idempotencyKey := row.idempotencyKey
  actorSubject := row.actorSubject
  actorSessionId := row.actorSessionId
  resource := row.resource
  action := row.action
  reason := row.reason

/-- The `VALUES` of the request insert. -/
def requestRow {Uuid : Type} (operationId : Uuid) (input : AdminAction) : RequestRow Uuid where
  operationId := operationId
  idempotencyKey := input.idempotencyKey
  actorSubject := input.actorSubject
  actorSessionId := input.actorSessionId
  resource := input.resource
  action := input.action
  reason := input.reason

/-- The `VALUES` of the outbox insert. -/
def outboxRow {Uuid : Type} (operationId : Uuid) : OutboxRow Uuid where
  operationId := operationId
  eventKind := "admin.action.requested"

/-- Where a call stands between two statements. -/
inductive Pc (Uuid : Type)
  | start
  | begun
  | conflicted
  | rejecting
  | enqueueing (operationId : Uuid)
  | committing (operationId : Uuid)
  | done (result : Except AdminOrmError Uuid)

/-- The statements of `record_action`, and what can go wrong: a statement
fails, or the commit takes effect and its acknowledgement is lost. -/
inductive Statement
  | begin
  | insertRequest
  | selectExisting
  | insertOutbox
  | commit
  | rollback
  | fail
  | loseAcknowledgement
  deriving DecidableEq

/-- The two tables, the commit log and every call's program counter. -/
structure State (CallId Uuid : Type) where
  requests : Table CallId (RequestRow Uuid)
  outbox : Table CallId (OutboxRow Uuid)
  log : Log CallId
  pc : CallId → Pc Uuid

/-! ## §2. The statements. -/

section Calls

variable {CallId Uuid : Type} [DecidableEq CallId]
  (input : CallId → AdminAction) (newV4 : CallId → Uuid)
  (toText : Uuid → String) (parseStr : String → Option Uuid)

/-- `operation_id_from_row`, on the `operation_id::text` column of a row. -/
def operationIdFromRow (row : RequestRow Uuid) : Except AdminOrmError Uuid :=
  okOr (parseStr (toText row.operationId)) .invalidOperationId

/-- Call `c` moves on to `pc`. -/
def State.goto (s : State CallId Uuid) (c : CallId) (pc : Pc Uuid) : State CallId Uuid :=
  { s with pc := Function.update s.pc c pc }

/-- The transaction of call `c` now stands at `status`. -/
def State.mark (s : State CallId Uuid) (c : CallId) (status : TxStatus) : State CallId Uuid :=
  { s with log := Function.update s.log c status }

/-- The transaction of `c` is rolled back and the call returns the error. -/
def State.abort (s : State CallId Uuid) (c : CallId) (e : AdminOrmError) : State CallId Uuid :=
  (s.mark c .aborted).goto c (.done (.error e))

/-- `INSERT INTO admin_action_requests … ON CONFLICT DO NOTHING RETURNING …`,
and the reading of the returned row; not enabled while the insert waits. -/
def insertRequest (s : State CallId Uuid) (c : CallId) : Option (State CallId Uuid) :=
  let row := requestRow (newV4 c) (input c)
  match insertOnConflict RequestRow.idempotencyKey s.log c row s.requests with
  | .waits => none
  | .nothing => some (s.goto c .conflicted)
  | .inserted requests =>
      let s := { s with requests := requests }
      match operationIdFromRow toText parseStr row with
      | .error e => some (s.abort c e)
      | .ok operationId => some (s.goto c (.enqueueing operationId))

/-- `SELECT operation_id … WHERE` all six columns agree. -/
def selectExisting (s : State CallId Uuid) (c : CallId) : State CallId Uuid :=
  match (visibleTo c s.log s.requests).find? (fun row => row.payload = input c) with
  | none => s.goto c .rejecting
  | some row =>
      match operationIdFromRow toText parseStr row with
      | .error e => s.abort c e
      | .ok operationId => s.goto c (.committing operationId)

/-- `INSERT INTO admin_action_outbox …`. -/
def insertOutbox (s : State CallId Uuid) (c : CallId) (operationId : Uuid) : State CallId Uuid :=
  let outbox := s.outbox ++ [⟨c, outboxRow operationId⟩]
  { s with outbox := outbox }.goto c (.committing operationId)

/-- One statement of one call; `none` when the call is not there, or waits. -/
def step (s : State CallId Uuid) : CallId × Statement → Option (State CallId Uuid)
  | (c, statement) =>
      match statement, s.pc c with
      | .begin, .start => some ((s.mark c .inProgress).goto c .begun)
      | .insertRequest, .begun => insertRequest input newV4 toText parseStr s c
      | .selectExisting, .conflicted => some (selectExisting input toText parseStr s c)
      | .insertOutbox, .enqueueing operationId => some (insertOutbox s c operationId)
      | .commit, .committing operationId =>
          some ((s.mark c .committed).goto c (.done (.ok operationId)))
      | .loseAcknowledgement, .committing _ =>
          some ((s.mark c .committed).goto c (.done (.error .database)))
      | .rollback, .rejecting => some (s.abort c .idempotencyConflict)
      | .fail, .done _ => none
      | .fail, _ => some (s.abort c .database)
      | _, _ => none

/-- Concurrent calls, from empty tables. -/
def calls : System (State CallId Uuid) (CallId × Statement) where
  init s := s = ⟨[], [], fun _ => .idle, fun _ => .start⟩
  step := step input newV4 toText parseStr

/-! ## §3. The invariant. -/

/-- A committed request has the key of call `c` and another payload. -/
def Conflicting (log : Log CallId) (requests : Table CallId (RequestRow Uuid)) (c : CallId) :
    Prop :=
  ∃ row ∈ committed log requests,
    row.idempotencyKey = (input c).idempotencyKey ∧ row.payload ≠ input c

/-- What the program counter of call `c` says about the tables and the log. -/
def CallInv (log : Log CallId) (requests : Table CallId (RequestRow Uuid))
    (outbox : Table CallId (OutboxRow Uuid)) (c : CallId) : Pc Uuid → Prop
  | .start => log c = .idle ∧ c ∉ writers requests ∧ c ∉ writers outbox
  | .begun => log c = .inProgress ∧ c ∉ writers requests ∧ c ∉ writers outbox
  | .conflicted =>
      (log c = .inProgress ∧ c ∉ writers requests ∧ c ∉ writers outbox)
        ∧ ∃ row ∈ committed log requests, row.idempotencyKey = (input c).idempotencyKey
  | .rejecting =>
      (log c = .inProgress ∧ c ∉ writers requests ∧ c ∉ writers outbox)
        ∧ Conflicting input log requests c
  | .enqueueing operationId =>
      (log c = .inProgress ∧ c ∈ writers requests ∧ c ∉ writers outbox)
        ∧ operationId = newV4 c
  | .committing operationId =>
      (log c = .inProgress ∧ (c ∈ writers outbox ↔ c ∈ writers requests))
        ∧ requestRow operationId (input c) ∈ visibleTo c log requests
  | .done (.ok operationId) =>
      (log c = .committed ∧ (c ∈ writers outbox ↔ c ∈ writers requests))
        ∧ requestRow operationId (input c) ∈ committed log requests
  | .done (.error e) =>
      (log c = .committed ∧ (c ∈ writers outbox ↔ c ∈ writers requests) ∧ e = .database)
        ∨ (log c = .aborted ∧ (e = .idempotencyConflict → Conflicting input log requests c))

/-- The invariant of all reachable states. -/
structure Inv (s : State CallId Uuid) : Prop where
  requestRows : ∀ v ∈ s.requests, v.row = requestRow (newV4 v.writer) (input v.writer)
  outboxRows : ∀ v ∈ s.outbox, v.row = outboxRow (newV4 v.writer)
  outboxWriters : (writers s.outbox).Nodup
  uniqueKey : UniqueLive RequestRow.idempotencyKey s.log s.requests
  call : ∀ c, CallInv input newV4 s.log s.requests s.outbox c (s.pc c)

variable {input newV4}

omit [DecidableEq CallId] in
theorem Conflicting.grows {log log' : Log CallId}
    {requests requests' : Table CallId (RequestRow Uuid)}
    {c d : CallId} (hrequests : Grows c log log' requests requests')
    (h : Conflicting input log requests d) : Conflicting input log' requests' d := by
  obtain ⟨row, hrow, hkey, hne⟩ := h
  exact ⟨row, hrequests.committed hrow, hkey, hne⟩

/-- **No interference**: whatever call `c` does to the tables and the log, what
another call's program counter says stays true. -/
theorem CallInv.grows {log log' : Log CallId} {requests requests' : Table CallId (RequestRow Uuid)}
    {outbox outbox' : Table CallId (OutboxRow Uuid)} {c d : CallId} {pc : Pc Uuid}
    (hrequests : Grows c log log' requests requests') (houtbox : Grows c log log' outbox outbox')
    (hd : d ≠ c) (h : CallInv input newV4 log requests outbox d pc) :
    CallInv input newV4 log' requests' outbox' d pc := by
  have hlog : log' d = log d := hrequests.status d hd
  have hreq : d ∈ writers requests' ↔ d ∈ writers requests := hrequests.others d hd
  have hout : d ∈ writers outbox' ↔ d ∈ writers outbox := houtbox.others d hd
  cases pc with
  | start => simpa only [CallInv, hlog, hreq, hout] using h
  | begun => simpa only [CallInv, hlog, hreq, hout] using h
  | conflicted =>
      obtain ⟨hown, row, hrow, hkey⟩ := h
      exact ⟨by rwa [hlog, hreq, hout], row, hrequests.committed hrow, hkey⟩
  | rejecting =>
      obtain ⟨hown, hconflict⟩ := h
      exact ⟨by rwa [hlog, hreq, hout], hconflict.grows hrequests⟩
  | enqueueing operationId => simpa only [CallInv, hlog, hreq, hout] using h
  | committing operationId =>
      obtain ⟨hown, hrow⟩ := h
      exact ⟨by rwa [hlog, hreq, hout], hrequests.visibleTo d hrow⟩
  | done result =>
      cases result with
      | ok operationId =>
          obtain ⟨hown, hrow⟩ := h
          exact ⟨by rwa [hlog, hreq, hout], hrequests.committed hrow⟩
      | error e =>
          rcases h with hlost | ⟨haborted, hconflict⟩
          · exact Or.inl (by rwa [hlog, hreq, hout])
          · exact Or.inr ⟨by rwa [hlog], fun he => (hconflict he).grows hrequests⟩

/-- A version in the requests was written by a transaction that has begun. -/
theorem Inv.begun {s : State CallId Uuid} (h : Inv input newV4 s) :
    ∀ v ∈ s.requests, s.log v.writer ≠ .idle := by
  intro v hv hidle
  have hwriter : v.writer ∈ writers s.requests := mem_writers.mpr ⟨v, hv, rfl⟩
  have hcall := h.call v.writer
  revert hcall
  generalize s.pc v.writer = pc
  intro hcall
  rcases pc with _ | _ | _ | _ | _ | _ | (_ | _) <;> simp_all [CallInv]

/-- A call that has not returned has committed and rolled back nothing. -/
theorem CallInv.open_of_running {log : Log CallId} {requests : Table CallId (RequestRow Uuid)}
    {outbox : Table CallId (OutboxRow Uuid)} {c : CallId} {pc : Pc Uuid}
    (hrunning : ∀ result, pc ≠ .done result) (h : CallInv input newV4 log requests outbox c pc) :
    log c = .idle ∨ log c = .inProgress := by
  cases pc with
  | start => exact Or.inl h.1
  | begun => exact Or.inr h.1
  | conflicted => exact Or.inr h.1.1
  | rejecting => exact Or.inr h.1.1
  | enqueueing operationId => exact Or.inr h.1.1
  | committing operationId => exact Or.inr h.1.1
  | done result => exact absurd rfl (hrunning result)

/-- Call `c` writes to the tables and moves to a program counter that says so. -/
theorem Inv.write {s : State CallId Uuid} (h : Inv input newV4 s) {c : CallId} {pc : Pc Uuid}
    {requests : Table CallId (RequestRow Uuid)} {outbox : Table CallId (OutboxRow Uuid)}
    (hrequests : Grows c s.log s.log s.requests requests)
    (houtbox : Grows c s.log s.log s.outbox outbox)
    (hrows : ∀ v ∈ requests, v.row = requestRow (newV4 v.writer) (input v.writer))
    (hevents : ∀ v ∈ outbox, v.row = outboxRow (newV4 v.writer))
    (hwriters : (writers outbox).Nodup)
    (hunique : UniqueLive RequestRow.idempotencyKey s.log requests)
    (hpc : CallInv input newV4 s.log requests outbox c pc) :
    Inv input newV4 (State.goto ⟨requests, outbox, s.log, s.pc⟩ c pc) := by
  refine ⟨hrows, hevents, hwriters, hunique, ?_⟩
  show ∀ d, CallInv input newV4 s.log requests outbox d (Function.update s.pc c pc d)
  rw [Function.forall_update_iff s.pc (fun d => CallInv input newV4 s.log requests outbox d)]
  exact ⟨hpc, fun d hd => (h.call d).grows hrequests houtbox hd⟩

/-- Call `c` moves to a program counter that says the truth. -/
theorem Inv.goto {s : State CallId Uuid} (h : Inv input newV4 s) {c : CallId} {pc : Pc Uuid}
    (hpc : CallInv input newV4 s.log s.requests s.outbox c pc) :
    Inv input newV4 (s.goto c pc) :=
  h.write (.refl c s.log s.requests) (.refl c s.log s.outbox) h.requestRows h.outboxRows
    h.outboxWriters h.uniqueKey hpc

/-- Call `c` changes the status of its open transaction and moves on. -/
theorem Inv.mark_goto {s : State CallId Uuid} (h : Inv input newV4 s) {c : CallId}
    {status : TxStatus} {pc : Pc Uuid} (hopen : s.log c = .idle ∨ s.log c = .inProgress)
    (hpc : CallInv input newV4 (Function.update s.log c status) s.requests s.outbox c pc) :
    Inv input newV4 ((s.mark c status).goto c pc) := by
  have hcommitted : s.log c ≠ .committed := by
    rcases hopen with hst | hst <;> rw [hst] <;> decide
  have haborted : s.log c ≠ .aborted := by
    rcases hopen with hst | hst <;> rw [hst] <;> decide
  refine ⟨h.requestRows, h.outboxRows, h.outboxWriters, h.uniqueKey.setStatus haborted, ?_⟩
  show ∀ d, CallInv input newV4 (Function.update s.log c status) s.requests s.outbox d
    (Function.update s.pc c pc d)
  rw [Function.forall_update_iff s.pc
    (fun d => CallInv input newV4 (Function.update s.log c status) s.requests s.outbox d)]
  exact ⟨hpc, fun d hd => (h.call d).grows (.setStatus status hcommitted)
    (.setStatus status hcommitted) hd⟩

/-- Rolling back an open transaction keeps the invariant; a conflict has to be
real. -/
theorem Inv.abort {s : State CallId Uuid} (h : Inv input newV4 s) {c : CallId}
    {e : AdminOrmError} (hopen : s.log c = .idle ∨ s.log c = .inProgress)
    (he : e = .idempotencyConflict → Conflicting input s.log s.requests c) :
    Inv input newV4 (s.abort c e) := by
  have hcommitted : s.log c ≠ .committed := by
    rcases hopen with hst | hst <;> rw [hst] <;> decide
  apply h.mark_goto hopen
  exact Or.inr ⟨Function.update_self _ _ _,
    fun hconflict => (he hconflict).grows (.setStatus .aborted hcommitted)⟩

/-! ## §4. Every statement keeps the invariant. -/

section Steps

variable {toText : Uuid → String} {parseStr : String → Option Uuid}

omit [DecidableEq CallId] in
/-- The text form of an operation id reads back. -/
theorem operationIdFromRow_eq (hparse : ∀ u, parseStr (toText u) = some u)
    (row : RequestRow Uuid) : operationIdFromRow toText parseStr row = .ok row.operationId := by
  unfold operationIdFromRow
  rw [hparse]
  rfl

theorem inv_insertRequest (hparse : ∀ u, parseStr (toText u) = some u)
    {s s' : State CallId Uuid} {c : CallId} (h : Inv input newV4 s) (hpc : s.pc c = .begun)
    (hstep : insertRequest input newV4 toText parseStr s c = some s') : Inv input newV4 s' := by
  have hcall := h.call c
  rw [hpc] at hcall
  obtain ⟨hlog, hreq, hout⟩ := hcall
  simp only [insertRequest, operationIdFromRow_eq hparse] at hstep
  split at hstep
  · cases hstep
  · rename_i hnothing
    obtain ⟨v, hv, hkey, hseen⟩ := insertOnConflict_nothing hnothing
    -- the row is not the call's own: it has written nothing yet
    have hother : v.writer ≠ c := fun hown => hreq (mem_writers.mpr ⟨v, hv, hown⟩)
    have hrow : v.row ∈ committed s.log s.requests :=
      mem_committed.mpr ⟨v, hv, hseen.resolve_right hother, rfl⟩
    rw [Option.some.injEq] at hstep
    rw [← hstep]
    exact h.goto ⟨⟨hlog, hreq, hout⟩, v.row, hrow, hkey⟩
  · rename_i requests hinserted
    obtain ⟨hrequests, hnew⟩ := insertOnConflict_inserted h.begun hinserted
    rw [Option.some.injEq] at hstep
    rw [← hstep, hrequests]
    apply h.write (.insert _) (.refl c s.log s.outbox) _ h.outboxRows h.outboxWriters
    · exact h.uniqueKey.insert hnew
    · exact ⟨⟨hlog, by simp, hout⟩, rfl⟩
    · intro v hv
      rw [List.mem_append, List.mem_singleton] at hv
      rcases hv with hv | hv
      · exact h.requestRows v hv
      · rw [hv]

theorem inv_selectExisting (hparse : ∀ u, parseStr (toText u) = some u)
    {s : State CallId Uuid} {c : CallId} (h : Inv input newV4 s) (hpc : s.pc c = .conflicted) :
    Inv input newV4 (selectExisting input toText parseStr s c) := by
  have hcall := h.call c
  rw [hpc] at hcall
  obtain ⟨⟨hlog, hreq, hout⟩, row, hrow, hkey⟩ := hcall
  simp only [selectExisting, operationIdFromRow_eq hparse]
  have hseen : row ∈ visibleTo c s.log s.requests := by
    obtain ⟨v, hv, hst, heq⟩ := mem_committed.mp hrow
    exact mem_visibleTo.mpr ⟨v, hv, Or.inl hst, heq⟩
  split
  · rename_i hnone
    -- the committed row of the key was seen, so its payload is another one
    have hne : row.payload ≠ input c := by
      have hno := List.find?_eq_none.mp hnone row hseen
      simpa using hno
    exact h.goto ⟨⟨hlog, hreq, hout⟩, row, hrow, hkey, hne⟩
  · rename_i found hfound
    have hmem : found ∈ visibleTo c s.log s.requests := List.mem_of_find?_eq_some hfound
    have hpayload : found.payload = input c := by
      have hsome := List.find?_some hfound
      simpa using hsome
    have hform : found = requestRow found.operationId (input c) := by
      rw [← hpayload]
      rfl
    apply h.goto
    refine ⟨⟨hlog, iff_of_false hout hreq⟩, ?_⟩
    rwa [← hform]

theorem inv_insertOutbox {s : State CallId Uuid} {c : CallId} {operationId : Uuid}
    (h : Inv input newV4 s) (hpc : s.pc c = .enqueueing operationId) :
    Inv input newV4 (insertOutbox s c operationId) := by
  have hcall := h.call c
  rw [hpc] at hcall
  obtain ⟨⟨hlog, hreq, hout⟩, hid⟩ := hcall
  rw [hid]
  apply h.write (.refl c s.log s.requests) (.insert _) h.requestRows _ _ h.uniqueKey
  · refine ⟨⟨hlog, by simp [hreq]⟩, ?_⟩
    obtain ⟨v, hv, hwriter⟩ := mem_writers.mp hreq
    have hrow := h.requestRows v hv
    rw [hwriter] at hrow
    exact mem_visibleTo.mpr ⟨v, hv, Or.inr hwriter, hrow⟩
  · intro v hv
    rw [List.mem_append, List.mem_singleton] at hv
    rcases hv with hv | hv
    · exact h.outboxRows v hv
    · rw [hv]
  · rw [writers_append, List.nodup_append_comm]
    simp [hout, h.outboxWriters]

/-- The commit of call `c`, whatever it returns. -/
theorem inv_commit {s : State CallId Uuid} {c : CallId} {operationId : Uuid}
    {result : Except AdminOrmError Uuid} (h : Inv input newV4 s)
    (hpc : s.pc c = .committing operationId)
    (hresult : result = .ok operationId ∨ result = .error .database) :
    Inv input newV4 ((s.mark c .committed).goto c (.done result)) := by
  have hcall := h.call c
  rw [hpc] at hcall
  obtain ⟨⟨hlog, hboth⟩, hrow⟩ := hcall
  apply h.mark_goto (Or.inr hlog)
  rcases hresult with hresult | hresult <;> rw [hresult]
  · refine ⟨⟨Function.update_self _ _ _, hboth⟩, ?_⟩
    obtain ⟨v, hv, hseen, heq⟩ := mem_visibleTo.mp hrow
    refine mem_committed.mpr ⟨v, hv, ?_, heq⟩
    -- the row read or written is committed already, or becomes so now
    by_cases hown : v.writer = c
    · rw [hown]
      exact Function.update_self _ _ _
    · rw [Function.update_of_ne hown]
      exact hseen.resolve_right hown
  · exact Or.inl ⟨Function.update_self _ _ _, hboth, rfl⟩

/-- **The step lemma.** -/
theorem inv_step (hparse : ∀ u, parseStr (toText u) = some u) {s s' : State CallId Uuid}
    {label : CallId × Statement} (h : Inv input newV4 s)
    (hstep : step input newV4 toText parseStr s label = some s') : Inv input newV4 s' := by
  obtain ⟨c, statement⟩ := label
  have hcall := h.call c
  simp only [step] at hstep
  split at hstep
  -- one case for each statement, then a failure, which may come at any of them
  · rename_i hpc
    rw [hpc] at hcall
    rw [Option.some.injEq] at hstep
    rw [← hstep]
    exact h.mark_goto (Or.inl hcall.1) ⟨Function.update_self _ _ _, hcall.2⟩
  · rename_i hpc
    exact inv_insertRequest hparse h hpc hstep
  · rename_i hpc
    rw [Option.some.injEq] at hstep
    rw [← hstep]
    exact inv_selectExisting hparse h hpc
  · rename_i operationId hpc
    rw [Option.some.injEq] at hstep
    rw [← hstep]
    exact inv_insertOutbox h hpc
  · rename_i operationId hpc
    rw [Option.some.injEq] at hstep
    rw [← hstep]
    exact inv_commit h hpc (Or.inl rfl)
  · rename_i operationId hpc
    rw [Option.some.injEq] at hstep
    rw [← hstep]
    exact inv_commit h hpc (Or.inr rfl)
  · rename_i hpc
    rw [hpc] at hcall
    rw [Option.some.injEq] at hstep
    rw [← hstep]
    exact h.abort (Or.inr hcall.1.1) (fun _ => hcall.2)
  · cases hstep
  · rename_i hdone
    rw [Option.some.injEq] at hstep
    rw [← hstep]
    exact h.abort (hcall.open_of_running hdone) (fun he => by cases he)
  · cases hstep

end Steps

/-! ## §5. Every reachable state. -/

theorem Inv.initial :
    Inv input newV4 (⟨[], [], fun _ => .idle, fun _ => .start⟩ : State CallId Uuid) where
  requestRows := by simp
  outboxRows := by simp
  outboxWriters := List.nodup_nil
  uniqueKey := List.Pairwise.nil
  call c := ⟨rfl, by simp [writers], by simp [writers]⟩

/-- **The run lemma.** -/
theorem inv_reachable {toText : Uuid → String} {parseStr : String → Option Uuid}
    (hparse : ∀ u, parseStr (toText u) = some u) {s : State CallId Uuid}
    (h : (calls input newV4 toText parseStr).Reachable s) : Inv input newV4 s := by
  apply System.Reachable.invariant _ _ h
  · intro s hs
    rw [show s = _ from hs]
    exact Inv.initial
  · intro s label s' hinv hstep
    exact inv_step hparse hinv hstep

/-- A committed call wrote to both tables or to neither. -/
theorem Inv.writers_of_committed {s : State CallId Uuid} (h : Inv input newV4 s) {c : CallId}
    (hc : s.log c = .committed) : c ∈ writers s.outbox ↔ c ∈ writers s.requests := by
  have hcall := h.call c
  by_cases hdone : ∃ result, s.pc c = .done result
  · obtain ⟨result, hpc⟩ := hdone
    rw [hpc] at hcall
    cases result with
    | ok operationId => exact hcall.1.2
    | error e =>
        rcases hcall with ⟨_, hboth, _⟩ | ⟨haborted, _⟩
        · exact hboth
        · rw [hc] at haborted
          cases haborted
  · -- a call still running has not committed
    have hopen := hcall.open_of_running (fun result hpc => hdone ⟨result, hpc⟩)
    rw [hc] at hopen
    rcases hopen with hopen | hopen <;> cases hopen

/-- The requests in the table, seen from their writers. -/
theorem Inv.mem_requests {s : State CallId Uuid} (h : Inv input newV4 s) {row : RequestRow Uuid} :
    row ∈ committed s.log s.requests ↔
      ∃ c ∈ writers s.requests, s.log c = .committed ∧ row = requestRow (newV4 c) (input c) := by
  rw [mem_committed]
  constructor
  · intro hall
    obtain ⟨v, hv, hst, heq⟩ := hall
    exact ⟨v.writer, mem_writers.mpr ⟨v, hv, rfl⟩, hst, by rw [← heq, h.requestRows v hv]⟩
  · intro hall
    obtain ⟨c, hc, hst, heq⟩ := hall
    obtain ⟨v, hv, hwriter⟩ := mem_writers.mp hc
    exact ⟨v, hv, by rw [hwriter, hst], by rw [heq, h.requestRows v hv, hwriter]⟩

/-- The events in the outbox, seen from their writers. -/
theorem Inv.mem_outbox {s : State CallId Uuid} (h : Inv input newV4 s) {event : OutboxRow Uuid} :
    event ∈ committed s.log s.outbox ↔
      ∃ c ∈ writers s.outbox, s.log c = .committed ∧ event = outboxRow (newV4 c) := by
  rw [mem_committed]
  constructor
  · intro hall
    obtain ⟨v, hv, hst, heq⟩ := hall
    exact ⟨v.writer, mem_writers.mpr ⟨v, hv, rfl⟩, hst, by rw [← heq, h.outboxRows v hv]⟩
  · intro hall
    obtain ⟨c, hc, hst, heq⟩ := hall
    obtain ⟨v, hv, hwriter⟩ := mem_writers.mp hc
    exact ⟨v, hv, by rw [hwriter, hst], by rw [heq, h.outboxRows v hv, hwriter]⟩

/-- Fresh operation ids occur once in the outbox. -/
theorem Inv.nodup_outbox {s : State CallId Uuid} (h : Inv input newV4 s)
    (hfresh : Function.Injective newV4) :
    ((committed s.log s.outbox).map OutboxRow.operationId).Nodup := by
  have hids : (committed s.log s.outbox).map OutboxRow.operationId
      = (writers (s.outbox.filter (fun v => s.log v.writer = .committed))).map newV4 := by
    unfold committed writers
    rw [List.map_map, List.map_map]
    apply List.map_congr_left
    intro v hv
    show v.row.operationId = newV4 v.writer
    rw [h.outboxRows v (List.mem_of_mem_filter hv)]
    rfl
  rw [hids]
  apply List.Nodup.map hfresh
  exact h.outboxWriters.sublist (List.filter_sublist.map Version.writer)

/-- **Idempotent, audited exactly once.**  In every reachable state of any
number of concurrent calls: one request per key; one outbox event per request
and none without; equal keys answered with `Ok` carried one payload and got one
id; a conflict is against a committed request with another payload; and a call
whose transaction rolled back left nothing. -/
theorem recordAction_exactly_once [DecidableEq Uuid] (input : CallId → AdminAction)
    (newV4 : CallId → Uuid) (toText : Uuid → String) (parseStr : String → Option Uuid)
    (hfresh : Function.Injective newV4) (hparse : ∀ u, parseStr (toText u) = some u)
    (s : State CallId Uuid) (hs : (calls input newV4 toText parseStr).Reachable s) :
    ((committed s.log s.requests).map RequestRow.idempotencyKey).Nodup
      ∧ (∀ row ∈ committed s.log s.requests,
          ((committed s.log s.outbox).map OutboxRow.operationId).count row.operationId = 1)
      ∧ (∀ event ∈ committed s.log s.outbox,
          ∃ row ∈ committed s.log s.requests, row.operationId = event.operationId)
      ∧ (∀ c d u v, s.pc c = .done (.ok u) → s.pc d = .done (.ok v) →
          (input c).idempotencyKey = (input d).idempotencyKey → input c = input d ∧ u = v)
      ∧ (∀ c, s.pc c = .done (.error .idempotencyConflict) →
          ∃ row ∈ committed s.log s.requests,
            row.idempotencyKey = (input c).idempotencyKey ∧ row.payload ≠ input c)
      ∧ (∀ c e, s.pc c = .done (.error e) → s.log c ≠ .committed →
          (∀ row ∈ committed s.log s.requests, row.operationId ≠ newV4 c)
            ∧ ∀ event ∈ committed s.log s.outbox, event.operationId ≠ newV4 c) := by
  have h := inv_reachable hparse hs
  refine ⟨h.uniqueKey.nodup_committed, ?_, ?_, ?_, ?_, ?_⟩
  · intro row hrow
    obtain ⟨c, hc, hst, heq⟩ := h.mem_requests.mp hrow
    -- a committed request was written by a call that also wrote the event
    apply List.count_eq_one_of_mem (h.nodup_outbox hfresh)
    have hevent : outboxRow (newV4 c) ∈ committed s.log s.outbox :=
      h.mem_outbox.mpr ⟨c, (h.writers_of_committed hst).mpr hc, hst, rfl⟩
    rw [heq]
    exact List.mem_map_of_mem hevent
  · intro event hevent
    obtain ⟨c, hc, hst, heq⟩ := h.mem_outbox.mp hevent
    rw [heq]
    exact ⟨_, h.mem_requests.mpr ⟨c, (h.writers_of_committed hst).mp hc, hst, rfl⟩, rfl⟩
  · intro c d u v hc hd hkey
    have hcallc := h.call c
    have hcalld := h.call d
    rw [hc] at hcallc
    rw [hd] at hcalld
    -- both results name a committed row of the one key
    have hrow : requestRow u (input c) = requestRow v (input d) :=
      List.inj_on_of_nodup_map h.uniqueKey.nodup_committed hcallc.2 hcalld.2 hkey
    exact ⟨congrArg RequestRow.payload hrow, congrArg RequestRow.operationId hrow⟩
  · intro c hc
    have hcall := h.call c
    rw [hc] at hcall
    rcases hcall with ⟨_, _, he⟩ | ⟨_, hconflict⟩
    · cases he
    · exact hconflict rfl
  · intro c e hc hst
    refine ⟨?_, ?_⟩
    · intro row hrow hid
      obtain ⟨d, _, hd, heq⟩ := h.mem_requests.mp hrow
      rw [heq] at hid
      exact hst (hfresh hid ▸ hd)
    · intro event hevent hid
      obtain ⟨d, _, hd, heq⟩ := h.mem_outbox.mp hevent
      rw [heq] at hid
      exact hst (hfresh hid ▸ hd)

end Calls

/-- Two calls with one key and different reasons. -/
def sampleInput (c : Bool) : AdminAction where
  idempotencyKey := "key-1"
  actorSubject := "admin-1"
  actorSessionId := "session-1"
  resource := "accounts/42"
  action := "suspend"
  reason := if c then "abuse" else "request"

/-- The text forms of the two operation ids of the sample. -/
def sampleText (id : Bool) : String :=
  if id then "6f9619ff-8b86-4d01-b42d-00c04fc964ff" else "6f9619ff-8b86-4d01-b42d-00c04fc964fe"

/-- The parser on those two texts. -/
def sampleParseStr (text : String) : Option Bool :=
  if text = sampleText true then some true
  else if text = sampleText false then some false
  else none

/-- The second call's insert waits for the first call's commit. -/
def sampleRun : List (Bool × Statement) :=
  [(true, .begin), (false, .begin), (true, .insertRequest), (true, .insertOutbox),
    (true, .commit), (false, .insertRequest), (false, .selectExisting), (false, .rollback)]

/-- In the sample run one call answers and the other is told of the conflict. -/
theorem recordAction_exactly_once_sample :
    ∃ s, (calls sampleInput id sampleText sampleParseStr).run
          ⟨[], [], fun _ => .idle, fun _ => .start⟩ sampleRun = some s
      ∧ s.pc true = .done (.ok true)
      ∧ s.pc false = .done (.error .idempotencyConflict)
      ∧ ((committed s.log s.requests).map RequestRow.idempotencyKey).Nodup :=
  ⟨_, rfl, rfl, rfl,
    (recordAction_exactly_once sampleInput id sampleText sampleParseStr Function.injective_id
      (by decide) _ (@System.Reachable.of_run _ _ _ sampleRun _ _ rfl rfl)).1⟩

end ClipTown.AdminOrm
