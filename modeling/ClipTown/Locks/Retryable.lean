/-
  ClipTown.Locks.Retryable — failures after which a routine may be run again
  (`ores-locks-and-leases`: `errors.ts`, `retryable`).

  A failure is retryable where a layer is busy or the time is out.  Such a
  failure comes from an acquisition, and all that was open before it was undone.

    • `Follows.of_retry` — what a run of a plan looks like that fails so,
    • `retryable_untouched` — nothing was done and nothing is held.
-/
import ClipTown.Locks.PlanConformance

namespace ClipTown.Locks

open Interaction

variable {T : Type} (scope : PgScope) (wait : Bool)

/-! ## §1. Acquisitions. -/

/-- The steps whose failure may be retried. -/
def acquisitions : List LockStep :=
  [.fiduciaAcquire, .fiduciaTryAcquire, .pgTryAdvisoryXactLock, .pgTryAdvisoryLock]

/-- Busy, or out of budget. -/
def Failure.retry (failure : Failure) : Prop :=
  failure.1 = some .contention ∨ failure.1 = some .timeout

theorem retry_of_retryable {err : Thrown} (h : err.retryable = true) :
    Failure.retry err.failure := by
  cases err with
  | lockError e =>
      unfold Thrown.retryable LockError.retryable at h
      rw [Bool.or_eq_true, beq_iff_eq, beq_iff_eq] at h
      rcases h with h | h
      · exact .inl (congrArg some h)
      · exact .inr (congrArg some h)
  | other message text => exact absurd h (by simp [Thrown.retryable])

theorem retryable_of_retry {err : Thrown} (h : Failure.retry err.failure) :
    err.retryable = true := by
  cases err with
  | lockError e =>
      unfold Thrown.retryable LockError.retryable
      rw [Bool.or_eq_true, beq_iff_eq, beq_iff_eq]
      rcases h with h | h
      · exact .inl (Option.some.inj h)
      · exact .inr (Option.some.inj h)
  | other message text =>
      rcases h with h | h <;> exact absurd h (by simp [Thrown.failure, Thrown.kind])

theorem retry_of_reported {first : Failure} {undoing : Failure}
    (h : Failure.retry (reported first (some undoing))) : undoing.retry := by
  obtain ⟨kind, step⟩ := undoing
  cases kind with
  | none => rcases h with h | h <;> exact absurd h (by simp [reported, Failure.normalized])
  | some kind => exact h

/-- A statement fails so only where it tries a lock. -/
theorem step_mem_of_retry {statement : Statement} {answer : Except Thrown (List Row)}
    {failure : Failure} (h : statement.failure answer = some failure) (hretry : failure.retry) :
    statement.step ∈ acquisitions := by
  cases answer with
  | error cause =>
      rw [← Option.some.inj h] at hretry
      rcases hretry with h | h <;> exact absurd h (by simp)
  | ok rows =>
      unfold Statement.failure at h
      cases hrefusal : statement.refusal with
      | none =>
          rw [hrefusal] at h
          exact absurd h (by simp)
      | some kind =>
          rw [hrefusal] at h
          simp only at h
          split_ifs at h
          rw [← Option.some.inj h] at hretry
          have hkind : kind = .contention ∨ kind = .timeout := by
            rcases hretry with h | h
            · exact .inl (Option.some.inj h)
            · exact .inr (Option.some.inj h)
          -- an unlock that is refused is a failure of the database
          cases statement with
          | tryAdvisoryXactLock key =>
              exact (by decide : LockStep.pgTryAdvisoryXactLock ∈ acquisitions)
          | tryAdvisoryLock key => exact (by decide : LockStep.pgTryAdvisoryLock ∈ acquisitions)
          | advisoryUnlock key =>
              cases hrefusal
              rcases hkind with h | h <;> exact absurd h (by decide)
          | _ => exact absurd hrefusal (by simp [Statement.refusal])

/-- Only an acquisition fails so, where the release of a lease does not. -/
theorem retry_tried {ev : Event Call (Answer T)} {step : LockStep} {failure : Failure}
    (hrelease : ∀ grant err, ev = ⟨.release grant, .error err⟩ → err.retryable = false)
    (h : tried scope wait ev = some (step, some failure)) (hretry : failure.retry) :
    step ∈ acquisitions := by
  obtain ⟨call, answer⟩ := ev
  cases call with
  | acquire key opts blocking =>
      cases answer with
      | ok grant => exact absurd h (by simp [tried])
      | error err =>
          obtain ⟨rfl, -⟩ := Prod.mk.inj (Option.some.inj h)
          cases blocking <;> decide
  | release grant =>
      cases answer with
      | ok released =>
          cases released with
          | true => exact absurd h (by simp [tried])
          | false =>
              obtain ⟨-, hfailure⟩ := Prod.mk.inj (Option.some.inj h)
              rw [← Option.some.inj hfailure] at hretry
              rcases hretry with h | h <;> exact absurd h (by decide)
      | error err =>
          obtain ⟨-, hfailure⟩ := Prod.mk.inj (Option.some.inj h)
          rw [← Option.some.inj hfailure] at hretry
          have hagain := retryable_of_retry hretry
          rw [tagStep_retryable, hrelease grant err rfl] at hagain
          exact absurd hagain (by decide)
  | connect =>
      cases answer with
      | ok client => exact absurd h (by simp [tried])
      | error err =>
          obtain ⟨-, hfailure⟩ := Prod.mk.inj (Option.some.inj h)
          rw [← Option.some.inj hfailure] at hretry
          rcases hretry with h | h <;> exact absurd h (by simp)
  | query client statement =>
      obtain ⟨rfl, hfailure⟩ := Prod.mk.inj (Option.some.inj h)
      exact step_mem_of_retry hfailure hretry
  | giveBack client failed => exact absurd h (by simp [tried])
  | work guarded =>
      cases answer with
      | ok value => exact absurd h (by simp [tried])
      | error err =>
          obtain ⟨-, hfailure⟩ := Prod.mk.inj (Option.some.inj h)
          rw [← Option.some.inj hfailure] at hretry
          rcases hretry with h | h <;> exact absurd h (by simp)

/-! ## §2. Runs that fail so. -/

/-- What undoes the brackets. -/
def cleanups : List LockStep := [.fiduciaRelease, .pgRollback, .pgAdvisoryUnlock]

theorem mem_openBrackets {steps : List LockStep} :
    ∀ {opened : List LockStep}, (∀ u ∈ opened, u ∈ cleanups) →
      ∀ u ∈ steps.foldl bracketStep opened, u ∈ cleanups := by
  induction steps with
  | nil => exact fun h => h
  | cons step steps ih =>
      intro opened h
      apply ih
      intro u hu
      unfold bracketStep at hu
      cases hundo : step.undo with
      | some undoing =>
          rw [hundo] at hu
          rcases List.mem_cons.mp hu with rfl | hmem
          · cases step <;> cases hundo <;> decide
          · exact h u hmem
      | none =>
          rw [hundo] at hu
          cases hcloses : step.closes with
          | some closed =>
              rw [hcloses] at hu
              exact h u (List.mem_of_mem_erase hu)
          | none =>
              rw [hcloses] at hu
              exact h u hu

theorem mem_unwinding {steps : List LockStep} {i : ℕ} {u : LockStep} (h : u ∈ unwinding steps i) :
    u ∈ cleanups :=
  mem_openBrackets (fun _ h => absurd h List.not_mem_nil) u (List.mem_filter.mp h).1

theorem not_mem_cleanups {step : LockStep} (h : step ∈ acquisitions) : step ∉ cleanups := by
  revert h
  cases step <;> decide

theorem eq_none_of_lastFailure {undone : List Tried} (h : lastFailure undone = none) {t : Tried}
    (ht : t ∈ undone) (hstep : t.1 ≠ .pgRollback) : t.2 = none := by
  unfold lastFailure at h
  rw [List.getLast?_eq_none_iff, List.filterMap_eq_nil_iff] at h
  exact h t (List.mem_filter.mpr ⟨ht, by simpa using hstep⟩)

/-- A run that may be retried: what failed is an acquisition, and all that was
open was undone. -/
theorem Follows.of_retry {steps : List LockStep} {did : List Tried} {failure : Failure}
    (h : Follows steps did (some failure)) (hretry : failure.retry)
    (hdid : ∀ step f, (step, some f) ∈ did → f.retry → step ∈ acquisitions) :
    ∃ i step undone, steps[i]? = some step ∧ step ∈ acquisitions ∧
      did = succeeded (steps.take i) ++ (step, some failure) :: undone ∧
      undone.map Prod.fst = unwinding steps i ∧ lastFailure undone = none := by
  cases h with
  | aborted i hstep first undone hundone =>
      rename_i step
      have hlast : lastFailure undone = none := by
        cases hlast : lastFailure undone with
        | none => rfl
        | some f =>
            -- a cleanup step is no acquisition
            rw [hlast] at hretry
            have hretry := retry_of_reported hretry
            obtain ⟨t, ht, htf⟩ := List.mem_filterMap.mp (List.mem_of_getLast? hlast)
            have hmem : t ∈ undone := (List.mem_filter.mp ht).1
            have hacq := hdid t.1 f (by
              rw [← htf]
              exact List.mem_append_right _ (List.mem_cons_of_mem _ hmem)) hretry
            have hunwound : t.1 ∈ unwinding steps i := by
              rw [← hundone]
              exact List.mem_map_of_mem hmem
            exact absurd (mem_unwinding hunwound) (not_mem_cleanups hacq)
      rw [hlast] at hretry ⊢
      refine ⟨i, step, undone, hstep, ?_, rfl, hundone, hlast⟩
      exact hdid step first (List.mem_append_right _ List.mem_cons_self) hretry

/-- Before an acquisition there are only an acquired lease and an open
transaction, and the lease is given back when it fails. -/
theorem before_acquisition {layers : LockLayers} {i : ℕ} {step : LockStep}
    (h : (plan layers scope wait)[i]? = some step) (hstep : step ∈ acquisitions) :
    (∀ s ∈ (plan layers scope wait).take i, s = acquireStep wait ∨ s = .pgBegin) ∧
      (acquireStep wait ∈ (plan layers scope wait).take i →
        .fiduciaRelease ∈ unwinding (plan layers scope wait) i) := by
  obtain ⟨fiducia, pgAdvisory⟩ := layers
  have hi : i < (plan ⟨fiducia, pgAdvisory⟩ scope wait).length :=
    (List.getElem?_eq_some_iff.mp h).1
  have hsix : (plan ⟨fiducia, pgAdvisory⟩ scope wait).length ≤ 6 := by
    cases fiducia <;> cases pgAdvisory <;> cases scope <;> cases wait <;> decide
  have hcases : i = 0 ∨ i = 1 ∨ i = 2 ∨ i = 3 ∨ i = 4 ∨ i = 5 := by omega
  clear hi hsix
  cases fiducia <;> cases pgAdvisory <;> cases scope <;> cases wait <;>
    rcases hcases with rfl | rfl | rfl | rfl | rfl | rfl <;> cases h <;> revert hstep <;> decide

/-- The steps that take an advisory lock. -/
def lockSteps : List LockStep :=
  [.pgAdvisoryXactLock, .pgTryAdvisoryXactLock, .pgAdvisoryLock, .pgTryAdvisoryLock]

/-- **Nothing half-done.**  After a failure that may be retried the work never
ran, no advisory lock was granted, and a lease that was acquired was released. -/
theorem retryable_untouched (key : LockKey) (layers : LockLayers) (opts : AcquireOptions)
    (lease pool : Bool) {tr : List (Event Call (Answer T))} {err : Thrown}
    (hrelease : ∀ grant e, (⟨.release grant, .error e⟩ : Event Call (Answer T)) ∈ tr →
      e.retryable = false)
    (h : Runs (withGuard scope key layers wait opts lease pool) tr (.error err))
    (hretry : err.retryable = true) :
    (∀ f, (LockStep.work, f) ∉ record scope wait tr) ∧
      (∀ step ∈ lockSteps, (step, none) ∉ record scope wait tr) ∧
      ((acquireStep wait, none) ∈ record scope wait tr →
        (.fiduciaRelease, none) ∈ record scope wait tr) := by
  by_cases hmissing : missing layers lease pool = true
  · obtain ⟨message, hthrow⟩ := withGuard_missing (T := T) scope wait key layers opts hmissing
    rw [hthrow] at h
    obtain ⟨rfl, -⟩ := runs_ret_iff.mp h
    exact ⟨fun _ => List.not_mem_nil, fun _ _ => List.not_mem_nil,
      fun h => absurd h List.not_mem_nil⟩
  have hfollows := supplied_follows scope wait (Bool.eq_false_iff.mpr hmissing) h
  obtain ⟨i, step, undone, hi, hacq, hrecord, hundone, hlast⟩ :=
    hfollows.of_retry (retry_of_retryable hretry) (by
      intro step f hmem hf
      obtain ⟨ev, hev, hstep⟩ := List.mem_filterMap.mp hmem
      exact retry_tried scope wait (fun grant e heq => hrelease grant e (heq ▸ hev)) hstep hf)
  obtain ⟨hbefore, hback⟩ := before_acquisition scope wait hi hacq
  -- a step of the record stands before the failed acquisition, is it, or undoes
  have hplaces : ∀ t ∈ record scope wait tr, (t.1 ∈ (plan layers scope wait).take i ∧ t.2 = none) ∨
      (t.1 = step ∧ t.2 ≠ none) ∨ (t ∈ undone ∧ t.1 ∈ cleanups) := by
    intro t ht
    rw [hrecord] at ht
    rcases List.mem_append.mp ht with hdone | hrest
    · obtain ⟨s, hs, rfl⟩ := List.mem_map.mp hdone
      exact .inl ⟨hs, rfl⟩
    · rcases List.mem_cons.mp hrest with rfl | hmem
      · exact .inr (.inl ⟨rfl, by simp⟩)
      · have hunwound : t.1 ∈ unwinding (plan layers scope wait) i := by
          rw [← hundone]
          exact List.mem_map_of_mem hmem
        exact .inr (.inr ⟨hmem, mem_unwinding hunwound⟩)
  refine ⟨?_, ?_, ?_⟩
  · intro f hmem
    rcases hplaces _ hmem with ⟨hdone, -⟩ | ⟨heq, -⟩ | ⟨-, hcleanup⟩
    · rcases hbefore _ hdone with heq | heq
      · cases wait <;> exact LockStep.noConfusion heq
      · exact LockStep.noConfusion heq
    · rw [← heq] at hacq
      exact absurd hacq (by decide : LockStep.work ∉ acquisitions)
    · exact absurd hcleanup (by decide : LockStep.work ∉ cleanups)
  · intro s hs hmem
    rcases hplaces _ hmem with ⟨hdone, -⟩ | ⟨-, hne⟩ | ⟨-, hcleanup⟩
    · rcases hbefore _ hdone with heq | heq <;> rw [show s = _ from heq] at hs
      · cases wait <;> exact absurd hs (by decide)
      · exact absurd hs (by decide)
    · exact absurd rfl hne
    · revert hs hcleanup
      cases s <;> decide
  · intro hmem
    rcases hplaces _ hmem with ⟨hdone, -⟩ | ⟨-, hne⟩ | ⟨-, hcleanup⟩
    · have hreleased := hback hdone
      rw [← hundone] at hreleased
      obtain ⟨t, ht, hstep⟩ := List.mem_map.mp hreleased
      have hnone := eq_none_of_lastFailure hlast ht (by rw [hstep]; decide)
      rw [hrecord, ← hstep, ← hnone]
      exact List.mem_append_right _ (List.mem_cons_of_mem _ ht)
    · exact absurd rfl hne
    · cases wait <;> exact absurd hcleanup (by decide)

/-- Another session holds the lock; the lease is released. -/
def contendedRun : List (Event Call (Answer ℕ)) :=
  [⟨.acquire unitKey defaultAcquireOptions false, .ok unitGrant⟩, ⟨.connect, .ok 0⟩,
    ⟨.query 0 (.tryAdvisoryLock unitKey.advisory), .ok [[.bool false]]⟩,
    ⟨.giveBack 0 false, ()⟩, ⟨.release unitGrant, .ok true⟩]

theorem runs_contendedRun :
    Runs (withGuard .session unitKey ⟨true, true⟩ false defaultAcquireOptions true true)
      contendedRun (.error (.lockError (.contention unitKey .pgTryAdvisoryLock))) :=
  .call _ (.call _ (.call _ (.call _ (.call _ (.ret _)))))

theorem retryable_untouched_contended :
    (∀ f, (LockStep.work, f) ∉ record .session false contendedRun) ∧
      (∀ step ∈ lockSteps, (step, none) ∉ record .session false contendedRun) ∧
      ((acquireStep false, none) ∈ record .session false contendedRun →
        (.fiduciaRelease, none) ∈ record .session false contendedRun) :=
  retryable_untouched .session false unitKey ⟨true, true⟩ defaultAcquireOptions true true
    (by
      intro grant err hmem
      simp [contendedRun] at hmem) runs_contendedRun (by decide)

end ClipTown.Locks
