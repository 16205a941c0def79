/-
  ClipTown.Locks.GleamAgreement — the routines of Gleam beside those of
  TypeScript (`ores-locks-and-leases`: `pg.gleam`, `pg.ts`).

  The two are run against the same lease, database and work.  Gleam reads a
  boolean by its type, so an answer it cannot decode counts as a failed query.
  What is compared are the steps of the plan: every call but the checkout of a
  client, its return and the rollback.

    • `gleam_matches` — Gleam makes the same steps with the same answers as
      TypeScript, and reports the same, except where a named event departs.
-/
import ClipTown.Lib.Matching
import ClipTown.Locks.GleamRoutines
import ClipTown.Locks.PlanConformance

namespace ClipTown.Locks

open Interaction

variable {T : Type}

/-! ## §1. One answer, read twice. -/

/-- A failure that is a text. -/
def textThrown (message : String) : Thrown := .other message message

/-- The statements that select a boolean. -/
def Statement.isBool : Statement → Bool
  | .tryAdvisoryXactLock _ | .tryAdvisoryLock _ | .advisoryUnlock _ => true
  | _ => false

/-- An answer of the database as a driver without types would give it. -/
def readAnswer (undecoded : Row → String) (statement : Statement) :
    Except String (List Row) → Except Thrown (List Row)
  | .error error => .error (textThrown error)
  | .ok rows =>
      if statement.isBool then
        match firstValue undecoded statement (.ok rows) with
        | .ok _ => .ok rows
        | .error error => .error (textThrown error)
      else .ok rows

/-- What Gleam is answered, as TypeScript is. -/
def fromGleam (undecoded : Row → String) : (c : Call) → GleamAnswer T c → Answer T c
  | .acquire _ _ _, .ok grant => .ok grant
  | .acquire _ _ _, .error error => .error (.lockError error)
  | .release _, .ok released => .ok released
  | .release _, .error error => .error (.lockError error)
  | .connect, .ok client => .ok client
  | .connect, .error error => .error (textThrown error)
  | .query _ statement, answer => readAnswer undecoded statement answer
  | .giveBack _ _, answer => answer
  | .work _, .ok value => .ok value
  | .work _, .error cause => .error (textThrown cause)

/-- The steps of a plan among the events. -/
def planned : Event Call (Answer T) → Option (Event Call (Answer T))
  | ⟨.connect, _⟩ => none
  | ⟨.giveBack _ _, _⟩ => none
  | ⟨.query _ .rollback, _⟩ => none
  | e => some e

/-- The events of a transaction after which Gleam may report a failure of its own, at the
commit or at the rollback, in place of the error. -/
def Replaces (undecoded : Row → String) (key : LockKey) : Event Call (GleamAnswer T) → Prop
  /- Gleam reports the commit, whatever part of the transaction failed. -/
  | ⟨.connect, .error _⟩ => True
  | ⟨.query _ .begin, .error _⟩ => True
  /- A failed rollback takes the place of the failure before it. -/
  | ⟨.query _ .rollback, .error _⟩ => True
  /- A message with a separator in it is not decoded. -/
  | ⟨.query _ (.advisoryXactLock _), .error error⟩ => errorSeparator ∈ error.toList
  | ⟨.query _ (.tryAdvisoryXactLock k), answer⟩ =>
      match firstValue undecoded (.tryAdvisoryXactLock k) answer with
      | .error error => errorSeparator ∈ error.toList
      | .ok acquired => acquired = false ∧ errorSeparator ∈ key.text.toList
  | ⟨.work _, .error cause⟩ => errorSeparator ∈ cause.toList
  | _ => False

/-- The event of a session that the two word differently: its lock was not held. -/
def Rewords (undecoded : Row → String) : Event Call (GleamAnswer T) → Prop
  | ⟨.query _ (.advisoryUnlock k), answer⟩ =>
      firstValue undecoded (.advisoryUnlock k) answer = .ok false
  | _ => False

/-- The events of a scope after which the two may report different errors. -/
def Departs (undecoded : Row → String) (scope : PgScope) (key : LockKey)
    (e : Event Call (GleamAnswer T)) : Prop :=
  match scope with
  | .transaction => Replaces undecoded key e
  | .session => Rewords undecoded e

/-- A database failure of the commit or of the rollback. -/
def LockError.EndsTransaction (e : LockError) : Prop :=
  e.kind = .database ∧ (e.step = some .pgCommit ∨ e.step = some .pgRollback)

/-- The results agree: one value, or one error.  Where it is worded differently, kind and step
are the same; where something took its place, Gleam reports the end of the transaction. -/
def Agrees {α : Type} (reworded replaced : Prop) : Except LockError α → Except Thrown α → Prop
  | .ok value, .ok value' => value' = value
  | .error e, .error e' => ∃ f, e' = .lockError f ∧
      (f = e ∨ (reworded ∨ replaced) ∧ f.kind = e.kind ∧ f.step = e.step
        ∨ replaced ∧ e.EndsTransaction)
  | _, _ => False

/-- The observer of a scope. -/
def watch (T : Type) (undecoded : Row → String) (scope : PgScope) (key : LockKey) :
    Watch Call (GleamAnswer T) Call (Answer T) (Event Call (Answer T)) where
  left e := planned ⟨e.1, fromGleam undecoded e.1 e.2⟩
  right := planned
  flagged := Departs undecoded scope key

/-- The same result, with an error of this key and at a step. -/
def Same (key : LockKey) {α : Type} (a : Except LockError α) (a' : Except Thrown α) : Prop :=
  a' = a.mapError .lockError ∧ ∀ e, a = .error e → e.key = key ∧ e.step.isSome

section Matches

variable {undecoded : Row → String} {scope : PgScope} {key : LockKey} {wait : Bool}

theorem firstBool_of_firstValue {statement : Statement} {rows : List Row} {value : Bool}
    (h : firstValue undecoded statement (.ok rows) = .ok value) : firstBool rows = value := by
  cases rows with
  | nil => cases h
  | cons row rows =>
      simp only [firstValue, decodeBools] at h
      unfold firstBool
      rw [List.head?_cons]
      rcases hhead : row.head? with _ | _ | _ | _
      · simp [hhead] at h
      · rename_i b
        simp only [hhead] at h
        cases hrows : decodeBools undecoded rows with
        | error error => simp [hrows] at h
        | ok values =>
            simp only [hrows, Except.ok.injEq] at h
            simp [hhead, ← h]
      · simp [hhead] at h
      · simp [hhead] at h

/-- What `query_bool` cannot read counts as a failed query. -/
theorem readAnswer_error {statement : Statement} (hbool : statement.isBool = true)
    {answer : Except String (List Row)} {error : String}
    (h : firstValue undecoded statement answer = .error error) :
    readAnswer undecoded statement answer = .error (textThrown error) := by
  cases answer with
  | error e =>
      simp only [firstValue, Except.error.injEq] at h
      simp only [readAnswer, h]
  | ok rows => simp only [readAnswer, hbool, if_true, h]

/-- What it can read, both read alike. -/
theorem readAnswer_ok {statement : Statement} {answer : Except String (List Row)} {value : Bool}
    (h : firstValue undecoded statement answer = .ok value) :
    ∃ rows, readAnswer undecoded statement answer = .ok rows ∧ firstBool rows = value := by
  cases answer with
  | error e => cases h
  | ok rows =>
      refine ⟨rows, ?_, firstBool_of_firstValue h⟩
      simp only [readAnswer, h]
      split <;> rfl

/-- A statement whose rows are not read; errors with `P` are flagged. -/
theorem exec_matches (P : LockError → Prop) (conn : Client) {statement : Statement}
    (step : LockStep) (hbool : statement.isBool = false)
    (hflag : ∀ error, P (databaseError key step error) →
      (watch T undecoded scope key).flagged ⟨.query conn statement, .error error⟩) :
    (watch T undecoded scope key).Matches
      (fun flag a a' => Same key a a' ∧ ∀ e, a = .error e → P e → flag)
      (gleamExec conn key statement step) (exec conn key statement step) := by
  refine matches_call fun answer => ⟨fromGleam undecoded _ answer, rfl, ?_⟩
  cases answer with
  | ok rows =>
      have hread : fromGleam (T := T) undecoded (.query conn statement) (.ok rows) = .ok rows := by
        simp [fromGleam, readAnswer, hbool]
      rw [hread]
      exact matches_ret ⟨⟨rfl, fun e h => by cases h⟩, fun e h => by cases h⟩
  | error error =>
      refine matches_ret ⟨⟨rfl, ?_⟩, ?_⟩
      · rintro e ⟨⟩
        exact ⟨rfl, rfl⟩
      · rintro e ⟨⟩ hP
        -- the failed query is the event that is flagged
        exact .inl (hflag error hP)

/-- A lock that is tried; errors with `P` are flagged. -/
theorem tryLock_matches (P : LockError → Prop) (conn : Client) {statement : Statement}
    (step : LockStep) (hbool : statement.isBool = true)
    (hflag : ∀ answer error, firstValue undecoded statement answer = .error error →
      P (databaseError key step error) →
        (watch T undecoded scope key).flagged ⟨.query conn statement, answer⟩)
    (hheld : ∀ answer, firstValue undecoded statement answer = .ok false →
      P (.contention key step) →
        (watch T undecoded scope key).flagged ⟨.query conn statement, answer⟩) :
    (watch T undecoded scope key).Matches
      (fun flag a a' => Same key a a' ∧ ∀ e, a = .error e → P e → flag)
      (gleamTryLock undecoded conn key statement step) (tryLock conn key statement step) := by
  refine matches_call fun answer => ⟨fromGleam undecoded _ answer, rfl, ?_⟩
  -- `query_bool` reads the first value, or reports that it cannot
  cases hvalue : firstValue undecoded statement answer with
  | error error =>
      have hread : fromGleam (T := T) undecoded (.query conn statement) answer
          = .error (textThrown error) := readAnswer_error hbool hvalue
      rw [hread]
      simp only [hvalue, Prog.ret_bind]
      refine matches_ret ⟨⟨rfl, ?_⟩, ?_⟩
      · rintro e ⟨⟩
        exact ⟨rfl, rfl⟩
      · rintro e ⟨⟩ hP
        exact .inl (hflag answer error hvalue hP)
  | ok value =>
      obtain ⟨rows, hread, hfirst⟩ := readAnswer_ok hvalue
      have hread' : fromGleam (T := T) undecoded (.query conn statement) answer = .ok rows := hread
      rw [hread']
      cases value with
      | true =>
          simp only [hvalue, hfirst, Prog.ret_bind, if_true]
          exact matches_ret ⟨⟨rfl, fun e h => by cases h⟩, fun e h => by cases h⟩
      | false =>
          simp only [hvalue, hfirst, Prog.ret_bind, Bool.false_eq_true, if_false]
          refine matches_ret ⟨⟨rfl, ?_⟩, ?_⟩
          · rintro e ⟨⟩
            exact ⟨rfl, rfl⟩
          · rintro e ⟨⟩ hP
            exact .inl (hheld answer hvalue hP)

end Matches

/-! ## §2. Transactions. -/

section Lock

variable {undecoded : Row → String} {key : LockKey} {wait : Bool}

/-- The separator is in the message. -/
def Cut (e : LockError) : Prop := errorSeparator ∈ e.message.toList

/-- The lock of a transaction. -/
theorem lockXact_matches (conn : Client) :
    (watch T undecoded .transaction key).Matches
      (fun flag a a' => Same key a a' ∧ ∀ e, a = .error e → Cut e → flag)
      (if wait then gleamExec conn key (.advisoryXactLock key.advisory) .pgAdvisoryXactLock
        else gleamTryLock undecoded conn key (.tryAdvisoryXactLock key.advisory)
          .pgTryAdvisoryXactLock)
      (if wait then exec conn key (.advisoryXactLock key.advisory) .pgAdvisoryXactLock
        else tryLock conn key (.tryAdvisoryXactLock key.advisory) .pgTryAdvisoryXactLock) := by
  cases wait with
  | true => exact exec_matches Cut conn _ rfl (fun error h => h)
  | false =>
      refine tryLock_matches Cut conn _ rfl ?_ ?_
      · intro answer error hvalue hmem
        show match firstValue undecoded (.tryAdvisoryXactLock key.advisory) answer with
          | .error error => errorSeparator ∈ error.toList
          | .ok acquired => acquired = false ∧ errorSeparator ∈ key.text.toList
        rw [hvalue]
        exact hmem
      · intro answer hvalue hmem
        show match firstValue undecoded (.tryAdvisoryXactLock key.advisory) answer with
          | .error error => errorSeparator ∈ error.toList
          | .ok acquired => acquired = false ∧ errorSeparator ∈ key.text.toList
        rw [hvalue]
        refine ⟨rfl, ?_⟩
        -- the message is the key between two fixed texts, so the separator is in the key
        have hquoted : errorSeparator ∉ ("`" : String).toList ∧
            errorSeparator ∉ ("` is held by another holder" : String).toList := by decide
        simp only [Cut, LockError.contention, String.toList_append, List.mem_append] at hmem
        rcases hmem with (hmem | hmem) | hmem
        · exact absurd hmem hquoted.1
        · exact hmem
        · exact absurd hmem hquoted.2

end Lock

/-- The end of a transaction, after its callback. -/
def endXact (conn : Client) (key : LockKey) : Except String T → GleamRoutine T T
  | .ok value =>
      .call (.query conn .commit) fun
        | .error error =>
            .call (.giveBack conn false) fun _ => .ret (.error (databaseError key .pgCommit error))
        | .ok _ => .call (.giveBack conn false) fun _ => .ret (.ok value)
  | .error encoded =>
      .call (.query conn .rollback) fun
        | .error failure =>
            .call (.giveBack conn false) fun _ =>
              .ret (.error (databaseError key .pgCommit failure))
        | .ok _ => .call (.giveBack conn false) fun _ => .ret (.error (decodeError key encoded))

/-- The layers of `run_xact`, put together. -/
theorem gleamRunXact_eq (undecoded : Row → String) (key : LockKey) (wait : Bool)
    (grant : Option LeaseGrant) :
    gleamRunXact (T := T) undecoded key wait grant = .call .connect fun
      | .error error => .ret (.error (databaseError key .pgCommit error))
      | .ok conn =>
          .call (.query conn .begin) fun
            | .error error =>
                .call (.giveBack conn false) fun _ =>
                  .ret (.error (databaseError key .pgCommit error))
            | .ok _ =>
                (if wait then
                    gleamExec conn key (.advisoryXactLock key.advisory) .pgAdvisoryXactLock
                  else gleamTryLock undecoded conn key (.tryAdvisoryXactLock key.advisory)
                    .pgTryAdvisoryXactLock).bind fun
                  | .error error => endXact conn key (.error (encodeError error))
                  | .ok _ =>
                      .call (.work { key, grant, client := some conn }) fun
                        | .ok value => endXact conn key (.ok value)
                        | .error cause =>
                            endXact conn key (.error (encodeError (workError key cause))) := by
  unfold gleamRunXact transaction
  rw [Prog.call_bind]
  congr 1
  funext answer
  cases answer with
  | error error => rfl
  | ok conn =>
      -- the transaction layer: the callback, then commit or rollback by its result
      simp only [transactionLayer, Prog.call_bind]
      congr 1
      funext answer
      cases answer with
      | error error => rfl
      | ok rows =>
          simp only [xactCallback, Prog.bind_assoc]
          congr 1
          funext outcome
          cases outcome with
          | error error =>
              simp only [Prog.ret_bind, Prog.call_bind, endXact]
              congr 1
              funext answer
              cases answer <;> rfl
          | ok _ =>
              simp only [Prog.call_bind]
              congr 1
              funext answer
              cases answer with
              | ok value =>
                  simp only [Prog.ret_bind, Prog.call_bind, endXact]
                  congr 1
                  funext answer
                  cases answer <;> rfl
              | error cause =>
                  simp only [Prog.ret_bind, Prog.call_bind, endXact]
                  congr 1
                  funext answer
                  cases answer <;> rfl

/-- The end of a transaction that failed. -/
def undoXact (client : Client) (err : Thrown) : Routine T T :=
  .call (.query client .rollback) fun _ => finallyGiveBack client true (.error err)

/-- The same of `runXact`. -/
theorem runXact_eq (key : LockKey) (wait : Bool) (grant : Option LeaseGrant) :
    runXact (T := T) key wait grant = .call .connect fun
      | .error cause => throwing (.database key .pgBegin cause)
      | .ok client =>
          .call (.query client .begin) fun
            | .error cause =>
                finallyGiveBack client false (.error (.lockError (.database key .pgBegin cause)))
            | .ok _ =>
                (if wait then exec client key (.advisoryXactLock key.advisory) .pgAdvisoryXactLock
                  else tryLock client key (.tryAdvisoryXactLock key.advisory)
                    .pgTryAdvisoryXactLock).bind fun
                  | .error err => undoXact client err
                  | .ok _ =>
                      .call (.work { key, grant, client := some client }) fun
                        | .ok value =>
                            .call (.query client .commit) fun
                              | .ok _ => finallyGiveBack client false (.ok value)
                              | .error cause =>
                                  undoXact client (.lockError (.database key .pgCommit cause))
                        | .error cause => undoXact client (.lockError (.work key cause)) := by
  unfold runXact
  congr 1
  funext answer
  cases answer with
  | error cause => rfl
  | ok client =>
      show (exec client key .begin .pgBegin).bind _ = _
      unfold exec
      rw [Prog.call_bind]
      congr 1
      funext answer
      cases answer with
      | error cause => rfl
      | ok rows =>
          simp only [Prog.ret_bind, insideXact, Prog.andThen_bind]
          congr 1
          funext outcome
          cases outcome with
          | error err => rfl
          | ok _ =>
              simp only [runWork, Prog.call_bind]
              congr 1
              funext answer
              cases answer with
              | error cause => rfl
              | ok value =>
                  simp only [Prog.ret_bind, exec, Prog.call_bind]
                  congr 1
                  funext answer
                  cases answer <;> rfl

/-- The same error. -/
theorem Agrees.same {α : Type} (reworded replaced : Prop) (e : LockError) :
    Agrees (α := α) reworded replaced (.error e) (.error (.lockError e)) :=
  ⟨e, rfl, .inl rfl⟩

/-- The end of the transaction in place of another error. -/
theorem Agrees.ended {α : Type} {reworded replaced : Prop} (h : replaced) {e : LockError}
    (he : e.EndsTransaction) (f : LockError) :
    Agrees (α := α) reworded replaced (.error e) (.error (.lockError f)) :=
  ⟨f, rfl, .inr (.inr ⟨h, he⟩)⟩

/-- The same kind and step. -/
theorem Agrees.wording {α : Type} {reworded replaced : Prop} (h : reworded) {e f : LockError}
    (hkind : f.kind = e.kind) (hstep : f.step = e.step) :
    Agrees (α := α) reworded replaced (.error e) (.error (.lockError f)) :=
  ⟨f, rfl, .inr (.inl ⟨.inl h, hkind, hstep⟩)⟩

theorem endsTransaction_commit (key : LockKey) (message : String) :
    (databaseError key .pgCommit message).EndsTransaction := ⟨rfl, .inl rfl⟩

theorem endsTransaction_rollback (key : LockKey) (message : String) :
    (databaseError key .pgRollback message).EndsTransaction := ⟨rfl, .inr rfl⟩

theorem Agrees.mono {α : Type} {reworded replaced reworded' replaced' : Prop}
    (hwords : reworded → reworded') (hplace : replaced → replaced')
    {a : Except LockError α} {a' : Except Thrown α} (h : Agrees reworded replaced a a') :
    Agrees reworded' replaced' a a' := by
  cases a with
  | ok value => cases a' <;> exact h
  | error e =>
      cases a' with
      | ok value => exact h
      | error e' =>
          obtain ⟨f, hf, hsame⟩ := h
          refine ⟨f, hf, hsame.imp_right ?_⟩
          exact Or.imp (And.imp_left (Or.imp hwords hplace)) (And.imp_left hplace)

section Transaction

variable {undecoded : Row → String} {key : LockKey} {wait : Bool}

/-- A failure on its way through the rollback. -/
theorem undoXact_matches (conn : Client) {e : LockError} {flag : Prop} (hkey : e.key = key)
    (hcut : Cut e → flag) :
    (watch T undecoded .transaction key).Matches (fun flag' => Agrees False (flag ∨ flag'))
      (endXact conn key (.error (encodeError e))) (undoXact conn (.lockError e)) := by
  refine matches_call fun answer => ⟨.ok [], rfl, ?_⟩
  cases answer with
  | error failure =>
      refine matches_call fun _ => ⟨(), rfl, ?_⟩
      exact matches_ret (.ended (.inr (.inl trivial)) (endsTransaction_commit key failure) e)
  | ok rows =>
      refine matches_call fun _ => ⟨(), rfl, ?_⟩
      refine matches_ret ?_
      rw [decodeError_encodeError]
      by_cases h : errorSeparator ∈ e.message.toList
      · rw [if_pos h]
        exact .ended (.inl (hcut h)) (endsTransaction_rollback key _) e
      · rw [if_neg h, ← hkey]
        exact .same _ _ e

/-- **Transactions.** -/
theorem runXact_matches (grant : Option LeaseGrant) :
    (watch T undecoded .transaction key).Matches (Agrees False)
      (gleamRunXact undecoded key wait grant) (runXact key wait grant) := by
  rw [gleamRunXact_eq, runXact_eq]
  refine matches_call fun answer => ⟨fromGleam undecoded _ answer, rfl, ?_⟩
  cases answer with
  | error error =>
      exact matches_ret (.ended (.inl trivial) (endsTransaction_commit key error) _)
  | ok conn =>
      refine matches_call fun answer => ⟨fromGleam undecoded _ answer, rfl, ?_⟩
      cases answer with
      | error error =>
          refine matches_call fun _ => ⟨(), rfl, ?_⟩
          exact matches_ret (.ended (.inr (.inl trivial)) (endsTransaction_commit key error) _)
      | ok rows =>
          refine matches_bind (lockXact_matches conn) ?_
          rintro flag a a' ⟨⟨rfl, herror⟩, hcut⟩
          cases a with
          | error e =>
              exact matches_mono (undoXact_matches conn (herror e rfl).1 (hcut e rfl))
                (fun flag' b b' hagrees => hagrees.mono id (fun h => .inr (.inr h)))
          | ok _ =>
              refine matches_call fun answer => ⟨fromGleam undecoded _ answer, rfl, ?_⟩
              cases answer with
              | error cause =>
                  have hcut : Cut (workError key cause) →
                      (watch T undecoded .transaction key).flagged
                        ⟨.work { key, grant, client := some conn }, .error cause⟩ :=
                    fun hmem => hmem
                  exact matches_mono (undoXact_matches conn rfl hcut)
                    (fun flag' b b' hagrees => hagrees.mono id (fun h => .inr (.inr (.inr h))))
              | ok value =>
                  refine matches_call fun answer => ⟨fromGleam undecoded _ answer, rfl, ?_⟩
                  cases answer with
                  | ok rows =>
                      refine matches_call fun _ => ⟨(), rfl, ?_⟩
                      exact matches_ret rfl
                  | error error =>
                      -- TypeScript rolls back after a failed commit, Gleam does not
                      refine matches_callRight (.ok []) rfl ?_
                      refine matches_call fun _ => ⟨(), rfl, ?_⟩
                      exact matches_ret (.same _ _ _)

end Transaction

/-! ## §3. Sessions. -/

section Session

variable {undecoded : Row → String} {key : LockKey} {wait : Bool}

theorem runWork_matches (scope : PgScope) (grant : Option LeaseGrant) (client : Option Client) :
    (watch T undecoded scope key).Matches (fun _ a a' => Same key a a')
      (gleamRunWork { key, grant, client }) (runWork { key, grant, client }) := by
  refine matches_call fun answer => ⟨fromGleam undecoded _ answer, rfl, ?_⟩
  cases answer with
  | ok value => exact matches_ret ⟨rfl, fun e h => by cases h⟩
  | error cause =>
      refine matches_ret ⟨rfl, ?_⟩
      rintro e ⟨⟩
      exact ⟨rfl, rfl⟩

/-- The lock of a session. -/
theorem lockSession_matches (conn : Client) :
    (watch T undecoded .session key).Matches (fun _ a a' => Same key a a')
      (if wait then gleamExec conn key (.advisoryLock key.advisory) .pgAdvisoryLock
        else gleamTryLock undecoded conn key (.tryAdvisoryLock key.advisory) .pgTryAdvisoryLock)
      (if wait then exec conn key (.advisoryLock key.advisory) .pgAdvisoryLock
        else tryLock conn key (.tryAdvisoryLock key.advisory) .pgTryAdvisoryLock) := by
  cases wait with
  | true =>
      exact matches_mono (exec_matches (fun _ => False) conn _ rfl (fun _ h => h.elim))
        (fun flag a a' h => h.1)
  | false =>
      exact matches_mono (tryLock_matches (fun _ => False) conn _ rfl
        (fun _ _ _ h => h.elim) (fun _ _ h => h.elim)) (fun flag a a' h => h.1)

/-- What the unlock makes of the outcome of the work. -/
theorem unlock_matches (conn : Client) {inner : Except LockError T} {inner' : Except Thrown T}
    (h : Same key inner inner') :
    (watch T undecoded .session key).Matches
      (fun flag a a' => Agrees flag False a a'.1 ∧ ∀ err, a'.1 = .error err → err.step.isSome)
      ((queryBool undecoded conn key (.advisoryUnlock key.advisory) .pgAdvisoryUnlock).bind
        fun unlocked =>
          .ret <| match inner, unlocked with
            | .error inner, .error cleanup => .error (gleamCleanupFailure cleanup inner)
            | .error inner, .ok false =>
                .error (gleamCleanupFailure (gleamUnlockMismatch key) inner)
            | .error inner, .ok true => .error inner
            | .ok _, .error error => .error error
            | .ok _, .ok false => .error (gleamUnlockMismatch key)
            | .ok value, .ok true => .ok value)
      (unlockSession conn key inner') := by
  obtain ⟨rfl, herror⟩ := h
  refine matches_call fun answer => ⟨fromGleam undecoded _ answer, rfl, ?_⟩
  have hflag : firstValue undecoded (.advisoryUnlock key.advisory) answer = .ok false →
      (watch T undecoded .session key).flagged
        ⟨.query conn (.advisoryUnlock key.advisory), answer⟩ := fun h => h
  cases hvalue : firstValue undecoded (.advisoryUnlock key.advisory) answer with
  | error error =>
      have hread : fromGleam (T := T) undecoded (.query conn (.advisoryUnlock key.advisory)) answer
          = .error (textThrown error) := readAnswer_error rfl hvalue
      rw [hread]
      simp only [hvalue, Prog.ret_bind]
      cases inner with
      | ok value =>
          refine matches_ret ⟨.same _ _ _, ?_⟩
          rintro err ⟨⟩
          rfl
      | error e =>
          refine matches_ret ⟨.same _ _ _, ?_⟩
          rintro err ⟨⟩
          rfl
  | ok value =>
      obtain ⟨rows, hread, hfirst⟩ := readAnswer_ok hvalue
      have hread' : fromGleam (T := T) undecoded (.query conn (.advisoryUnlock key.advisory))
          answer = .ok rows := hread
      rw [hread']
      cases value with
      | true =>
          simp only [hvalue, hfirst, Prog.ret_bind, Bool.not_true, Bool.false_eq_true, if_false]
          cases inner with
          | ok value => exact matches_ret ⟨rfl, fun err h => by cases h⟩
          | error e =>
              refine matches_ret ⟨.same _ _ _, ?_⟩
              rintro err ⟨⟩
              exact (herror e rfl).2
      | false =>
          simp only [hvalue, hfirst, Prog.ret_bind, Bool.not_false, if_true]
          cases inner with
          | ok value =>
              refine matches_ret ⟨.wording (.inl (hflag hvalue)) rfl rfl, ?_⟩
              rintro err ⟨⟩
              rfl
          | error e =>
              refine matches_ret ⟨.wording (.inl (hflag hvalue)) rfl rfl, ?_⟩
              rintro err ⟨⟩
              rfl

/-- **Sessions.** -/
theorem runSession_matches (conn : Client) (grant : Option LeaseGrant) :
    (watch T undecoded .session key).Matches (fun flag => Agrees flag False)
      (gleamRunSession undecoded key wait conn grant) (runSession key wait grant) := by
  have hinside : (watch T undecoded .session key).Matches
      (fun flag a a' => Agrees flag False a a'.1 ∧ ∀ err, a'.1 = .error err → err.step.isSome)
      (gleamRunSession undecoded key wait conn grant) (insideSession conn key wait grant) := by
    unfold gleamRunSession insideSession Prog.andThen
    refine matches_bind (lockSession_matches conn) ?_
    rintro flag a a' ⟨rfl, herror⟩
    cases a with
    | error e =>
        refine matches_ret ⟨.same _ _ _, ?_⟩
        rintro err ⟨⟩
        exact (herror e rfl).2
    | ok _ =>
        refine matches_bind (runWork_matches .session grant (some conn)) ?_
        intro flag' inner inner' hsame
        exact matches_mono (unlock_matches conn hsame)
          (fun flag a a' h => ⟨h.1.mono (fun hflag => .inr (.inr hflag)) id, h.2⟩)
  refine matches_callRight (.ok conn) rfl (matches_bindRight hinside ?_)
  rintro flag a ⟨a', poisoned⟩ ⟨hagrees, hstep⟩
  cases a' with
  | ok value =>
      refine matches_callRight () rfl (matches_ret ?_)
      exact hagrees.mono .inl id
  | error err =>
      refine matches_callRight () rfl (matches_ret ?_)
      obtain ⟨known, hknown⟩ := Option.isSome_iff_exists.mp (hstep err rfl)
      rw [tagStep_of_step hknown]
      exact hagrees.mono .inl id

end Session

/-! ## §4. The lease around them. -/

section Lease

variable {undecoded : Row → String} {scope : PgScope} {key : LockKey} {wait : Bool}

theorem gleamTagStep_eq (e : LockError) (step : LockStep) :
    tagStep (.lockError e) step = .lockError (gleamTagStep e step) := by
  cases hstep : e.step with
  | none => simp [tagStep, gleamTagStep, hstep]
  | some known => simp [tagStep, gleamTagStep, hstep]

theorem acquireLease_matches (opts : AcquireOptions) :
    (watch T undecoded scope key).Matches (fun _ a a' => a' = a.mapError .lockError)
      (gleamAcquireLease key wait opts) (acquireLease key wait opts) := by
  refine matches_call fun answer => ⟨fromGleam undecoded _ answer, rfl, ?_⟩
  cases answer with
  | ok grant => exact matches_ret rfl
  | error e =>
      refine matches_ret ?_
      show Except.error (tagStep (.lockError e) (acquireStep wait)) = _
      rw [gleamTagStep_eq]
      cases wait <;> rfl

/-- A cleanup failure over two errors that agree. -/
theorem Agrees.cleanup {α β : Type} {reworded replaced : Prop} {e : LockError} {err : Thrown}
    (h : Agrees (α := α) reworded replaced (.error e) (.error err)) (cleanup : LockError) :
    Agrees (α := β) reworded replaced (.error (gleamCleanupFailure cleanup e))
      (.error (.lockError (cleanupFailure key (.lockError cleanup) err))) := by
  obtain ⟨f, rfl, hsame⟩ := h
  refine ⟨_, rfl, ?_⟩
  -- the error of the cleanup has its own kind and step, the other is in its message
  rcases hsame with rfl | ⟨hdeparted, -⟩ | ⟨hreplaced, -⟩
  · exact .inl rfl
  · exact .inr (.inl ⟨hdeparted, rfl, rfl⟩)
  · exact .inr (.inl ⟨.inr hreplaced, rfl, rfl⟩)

/-- What the release makes of two results that agree. -/
theorem settle_matches (grant : LeaseGrant) {reworded replaced : Prop}
    {inner : Except LockError T} {inner' : Except Thrown T}
    (h : Agrees reworded replaced inner inner') :
    (watch T undecoded scope key).Matches (fun _ => Agrees reworded replaced)
      (gleamSettle key grant inner) (settle key grant inner') := by
  refine matches_call fun answer => ⟨fromGleam undecoded _ answer, rfl, ?_⟩
  cases inner with
  | ok value =>
      cases inner' with
      | error err => exact absurd h id
      | ok value' =>
          cases answer with
          | error e =>
              refine matches_ret ?_
              rw [gleamTagStep_eq]
              exact .same _ _ _
          | ok released =>
              cases released with
              | true => exact matches_ret h
              | false => exact matches_ret (.same _ _ _)
  | error e =>
      cases inner' with
      | ok value' => exact absurd h id
      | error err =>
          cases answer with
          | error cleanup =>
              refine matches_ret ?_
              rw [gleamTagStep_eq]
              exact h.cleanup _
          | ok released =>
              cases released with
              | true => exact matches_ret h
              | false => exact matches_ret (h.cleanup _)

/-- The lease around two routines that match; they depart only where `words` or `place`. -/
theorem leased_matches (opts : AcquireOptions) {words place : Prop}
    {p : Option LeaseGrant → GleamRoutine T T} {q : Option LeaseGrant → Routine T T}
    (h : ∀ grant, (watch T undecoded scope key).Matches
      (fun flag => Agrees (words ∧ flag) (place ∧ flag)) (p grant) (q grant)) :
    (watch T undecoded scope key).Matches (fun flag => Agrees (words ∧ flag) (place ∧ flag))
      ((gleamAcquireLease key wait opts).andThen fun grant =>
        (p (some grant)).bind fun outcome => gleamSettle key grant outcome)
      ((acquireLease key wait opts).andThen fun grant =>
        (q (some grant)).bind fun outcome => settle key grant outcome) := by
  unfold Prog.andThen
  refine matches_bind (acquireLease_matches opts) ?_
  rintro flag a a' rfl
  cases a with
  | error e => exact matches_ret (.same _ _ e)
  | ok grant =>
      refine matches_bind (h (some grant)) ?_
      intro flag' inner inner' hagrees
      exact matches_mono (settle_matches grant hagrees)
        (fun flag'' a a' h => h.mono (And.imp_right fun hflag => .inr (.inl hflag))
          (And.imp_right fun hflag => .inr (.inl hflag)))

end Lease

/-! ## §5. The routines. -/

/-- The routine of Gleam for a scope; `conn` is the pool or the dedicated
connection, where there is one. -/
def gleamWithGuard (undecoded : Row → String) (scope : PgScope) (key : LockKey)
    (layers : LockLayers) (wait : Bool) (opts : AcquireOptions) (lease : Bool)
    (conn : Option Client) : GleamRoutine T T :=
  match scope with
  | .transaction => gleamWithXactLock undecoded key wait layers opts lease conn.isSome
  | .session => gleamWithSessionLock undecoded key wait layers opts lease conn

/-- What the two run inside the lease. -/
theorem inner_matches {undecoded : Row → String} {key : LockKey} {wait : Bool}
    (scope : PgScope) (pgAdvisory : Bool) (conn : Client) (grant : Option LeaseGrant) :
    (watch T undecoded scope key).Matches
      (fun flag => Agrees ((pgAdvisory ∧ scope = .session) ∧ flag)
        ((pgAdvisory ∧ scope = .transaction) ∧ flag))
      (if pgAdvisory then
          match scope with
          | .transaction => gleamRunXact undecoded key wait grant
          | .session => gleamRunSession undecoded key wait conn grant
        else gleamRunWork { key, grant, client := none })
      (inner scope key pgAdvisory wait grant) := by
  cases pgAdvisory with
  | true =>
      cases scope with
      | transaction =>
          exact matches_mono (runXact_matches grant)
            (fun flag a a' h => h.mono False.elim (fun hf => ⟨⟨rfl, rfl⟩, hf⟩))
      | session =>
          exact matches_mono (runSession_matches conn grant)
            (fun flag a a' h => h.mono (fun hf => ⟨⟨rfl, rfl⟩, hf⟩) False.elim)
  | false =>
      refine matches_mono (runWork_matches scope grant none) ?_
      rintro flag a a' ⟨rfl, -⟩
      cases a with
      | ok value => exact rfl
      | error e => exact .same _ _ e

/-- A supplied routine of Gleam. -/
theorem gleamWithGuard_eq (undecoded : Row → String) (scope : PgScope) (key : LockKey)
    (layers : LockLayers) (wait : Bool) (opts : AcquireOptions) {lease : Bool}
    {conn : Option Client} (h : missing layers lease conn.isSome = false) :
    gleamWithGuard (T := T) undecoded scope key layers wait opts lease conn
      = acquireAndFinish key wait opts layers.fiducia fun grant =>
          if layers.pgAdvisory then
            match scope with
            | .transaction => gleamRunXact undecoded key wait grant
            | .session => gleamRunSession undecoded key wait (conn.getD 0) grant
          else gleamRunWork { key, grant, client := none } := by
  unfold missing at h
  rw [Bool.or_eq_false_iff] at h
  obtain ⟨hlease, hconn⟩ := h
  cases scope with
  | transaction =>
      show gleamWithXactLock undecoded key wait layers opts lease conn.isSome = _
      unfold gleamWithXactLock
      rw [hlease, hconn]
      rfl
  | session =>
      show gleamWithSessionLock undecoded key wait layers opts lease conn = _
      unfold gleamWithSessionLock
      rw [hlease]
      cases hpg : layers.pgAdvisory with
      | false => rfl
      | true =>
          cases conn with
          | some conn => rfl
          | none =>
              rw [hpg] at hconn
              cases hconn

/-- Where something was not supplied, both say so at once. -/
theorem missing_matches (undecoded : Row → String) (scope : PgScope) (key : LockKey)
    (layers : LockLayers) (wait : Bool) (opts : AcquireOptions) {lease : Bool}
    {conn : Option Client} (h : missing layers lease conn.isSome = true) :
    ∃ e f, gleamWithGuard (T := T) undecoded scope key layers wait opts lease conn
        = .ret (.error e) ∧
      withGuard (T := T) scope key layers wait opts lease conn.isSome = throwing f ∧
      (f = e ∨ (layers.pgAdvisory ∧ conn = none) ∧ f.kind = e.kind ∧ f.step = e.step) := by
  cases hlease : layers.fiducia && !lease with
  | true =>
      refine ⟨.invalidPlan key "layers.fiducia is enabled but no lease authority was supplied", _,
        ?_, ?_, .inl rfl⟩
      · cases scope <;> simp [gleamWithGuard, gleamWithXactLock, gleamWithSessionLock, hlease]
      · cases scope <;> simp [withGuard, withXactLock, withSessionLock, hlease]
  | false =>
      unfold missing at h
      rw [hlease, Bool.false_or, Bool.and_eq_true, Bool.not_eq_true', Option.isSome_eq_false_iff,
        Option.isNone_iff_eq_none] at h
      obtain ⟨hpg, rfl⟩ := h
      cases scope with
      | transaction =>
          refine ⟨?e, ?f, ?gleam, ?ts, ?same⟩
          case gleam =>
            show gleamWithXactLock undecoded key wait layers opts lease false = _
            unfold gleamWithXactLock
            rw [hlease, hpg]
            rfl
          case ts =>
            show withXactLock key layers wait opts lease false = _
            unfold withXactLock
            rw [hlease, hpg]
            rfl
          case same => exact .inr ⟨⟨hpg, rfl⟩, rfl, rfl⟩
      | session =>
          refine ⟨?e', ?f', ?gleam', ?ts', ?same'⟩
          case gleam' =>
            show gleamWithSessionLock undecoded key wait layers opts lease none = _
            unfold gleamWithSessionLock
            rw [hlease, hpg]
            rfl
          case ts' =>
            show withSessionLock key layers wait opts lease false = _
            unfold withSessionLock
            rw [hlease, hpg]
            rfl
          case same' => exact .inr ⟨⟨hpg, rfl⟩, rfl, rfl⟩

/-- **Gleam beside TypeScript.**  Every run of a guarded routine in Gleam has a
run of the routine in TypeScript beside it, with the same steps and the same
answers to them.  The two return the same value or the same error.  Where no
connection was supplied, or a session turns out not to hold its lock, the error
is of the same kind and step and may be worded differently; where an event of the
transaction took its place, Gleam may report the end of the transaction. -/
theorem gleam_matches (undecoded : Row → String) (scope : PgScope) (key : LockKey)
    (layers : LockLayers) (wait : Bool) (opts : AcquireOptions) (lease : Bool)
    (conn : Option Client) {tr : List (Event Call (GleamAnswer T))} {result : Except LockError T}
    (h : Runs (gleamWithGuard undecoded scope key layers wait opts lease conn) tr result) :
    ∃ tr' result', Runs (withGuard scope key layers wait opts lease conn.isSome) tr' result' ∧
      tr.filterMap (fun e => planned ⟨e.1, fromGleam undecoded e.1 e.2⟩) = tr'.filterMap planned ∧
      Agrees
        (layers.pgAdvisory ∧ (conn = none ∨ scope = .session ∧ ∃ e ∈ tr, Rewords undecoded e))
        (layers.pgAdvisory ∧ scope = .transaction ∧ ∃ e ∈ tr, Replaces undecoded key e)
        result result' := by
  cases hmissing : missing layers lease conn.isSome with
  | true =>
      obtain ⟨e, f, hgleam, hts, hsame⟩ :=
        missing_matches undecoded scope key layers wait opts hmissing
      rw [hgleam] at h
      obtain ⟨rfl, rfl⟩ := runs_ret_iff.mp h
      rw [hts]
      refine ⟨[], _, .ret _, rfl, ?_⟩
      rcases hsame with rfl | ⟨⟨hpg, hconn⟩, hkind, hstep⟩
      · exact .same _ _ _
      · exact .wording ⟨hpg, .inl hconn⟩ hkind hstep
  | false =>
      have hmatches : (watch T undecoded scope key).Matches
          (fun flag => Agrees ((layers.pgAdvisory ∧ scope = .session) ∧ flag)
            ((layers.pgAdvisory ∧ scope = .transaction) ∧ flag))
          (gleamWithGuard undecoded scope key layers wait opts lease conn)
          (withGuard scope key layers wait opts lease conn.isSome) := by
        rw [gleamWithGuard_eq undecoded scope key layers wait opts hmissing,
          withGuard_eq scope wait key layers opts hmissing]
        unfold acquireAndFinish
        cases layers.fiducia with
        | true =>
            exact leased_matches opts
              (inner_matches scope layers.pgAdvisory (conn.getD 0))
        | false => exact inner_matches scope layers.pgAdvisory (conn.getD 0) none
      obtain ⟨tr', result', hruns, hplanned, hagrees⟩ := hmatches tr result h
      refine ⟨tr', result', hruns, hplanned, hagrees.mono ?_ ?_⟩
      · rintro ⟨⟨hpg, rfl⟩, hflag⟩
        exact ⟨hpg, .inr ⟨rfl, hflag⟩⟩
      · rintro ⟨⟨hpg, rfl⟩, hflag⟩
        exact ⟨hpg, rfl, hflag⟩

/-- The key is held, and the rollback fails. -/
def heldRun : List (Event Call (GleamAnswer ℕ)) :=
  [⟨.connect, .ok 0⟩, ⟨.query 0 .begin, .ok []⟩,
    ⟨.query 0 (.tryAdvisoryXactLock unitKey.advisory), .ok [[.bool false]]⟩,
    ⟨.query 0 .rollback, .error "ConnectionUnavailable"⟩, ⟨.giveBack 0 false, ()⟩]

/-- Gleam reports the rollback, not the contention. -/
def heldError : LockError := databaseError unitKey .pgCommit "ConnectionUnavailable"

theorem runs_heldRun :
    Runs (gleamWithGuard (fun _ => "UnexpectedResultType") .transaction unitKey
      { fiducia := false, pgAdvisory := true } false defaultAcquireOptions false (some 0)) heldRun
      (.error heldError) := by
  refine runs_call_iff.mpr ⟨.ok 0, _, rfl, ?_⟩
  refine runs_call_iff.mpr ⟨.ok [], _, rfl, ?_⟩
  refine runs_call_iff.mpr ⟨.ok [[.bool false]], _, rfl, ?_⟩
  refine runs_call_iff.mpr ⟨.error "ConnectionUnavailable", _, rfl, ?_⟩
  refine runs_call_iff.mpr ⟨(), _, rfl, ?_⟩
  exact runs_ret_iff.mpr ⟨rfl, rfl⟩

theorem gleam_matches_held :
    ∃ tr' result', Runs (withGuard .transaction unitKey { fiducia := false, pgAdvisory := true }
        false defaultAcquireOptions false true) tr' result' ∧
      heldRun.filterMap
          (fun e => planned ⟨e.1, fromGleam (fun _ => "UnexpectedResultType") e.1 e.2⟩)
        = tr'.filterMap planned ∧
      Agrees
        (true ∧ (some 0 = none ∨ PgScope.transaction = .session ∧
          ∃ e ∈ heldRun, Rewords (fun _ => "UnexpectedResultType") e))
        (true ∧ PgScope.transaction = .transaction ∧
          ∃ e ∈ heldRun, Replaces (fun _ => "UnexpectedResultType") unitKey e)
        (Except.error (α := ℕ) heldError) result' :=
  gleam_matches _ .transaction unitKey { fiducia := false, pgAdvisory := true } false
    defaultAcquireOptions false (some 0) runs_heldRun

end ClipTown.Locks
