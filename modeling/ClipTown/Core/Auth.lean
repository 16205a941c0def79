/-
  ClipTown.Core.Auth — control-plane authorization (`src/auth.rs`).

  `validateAuthorization` runs fifteen checks over signed 64-bit times, two of
  them with checked arithmetic.  `Authorized` is the same condition in the
  unbounded integers, and the file proves the two agree:

    • `validateAuthorizationWith_eq_ok` — the checks, read back one by one,
    • `age_never_overflows` — past the clock checks, the age subtraction
      always fits in a word,
    • `validateAuthorization_iff` — acceptance is `Authorized`, an object
      grant is never accepted, and the overflow branch is dead.
-/
import ClipTown.Core.Validation

namespace ClipTown.Auth

open Checks CheckedArith Validation

/-! ## §1. The data model. -/

/-- `CLIPTOWN_API_AUDIENCE`. -/
def cliptownApiAudience : String := "cliptown-api"

/-- `CLIPTOWN_READ_SCOPE`. -/
def cliptownReadScope : String := "cliptown:clips:read"

/-- `CLIPTOWN_WRITE_SCOPE`. -/
def cliptownWriteScope : String := "cliptown:clips:write"

/-- `CLIPTOWN_DELETE_SCOPE`. -/
def cliptownDeleteScope : String := "cliptown:clips:delete"

/-- `CredentialLineage`. -/
inductive CredentialLineage where
  | sharedAuthSession
  | deviceSession
  | objectGrant
  deriving DecidableEq, Repr

/-- `Operation`. -/
inductive Operation where
  | read
  | write
  | delete
  deriving DecidableEq, Repr

/-- `Operation::required_scope`. -/
def Operation.requiredScope : Operation → String
  | .read => cliptownReadScope
  | .write => cliptownWriteScope
  | .delete => cliptownDeleteScope

/-- `Operation::requires_fresh_loa2`. -/
def Operation.requiresFreshLoa2 : Operation → Bool
  | .read => false
  | .write | .delete => true

/-- `AuthorizationContext`. -/
structure AuthorizationContext where
  subject : String
  audience : String
  clientId : String
  lineage : CredentialLineage
  scopes : List String
  assuranceLevel : UInt8
  authenticatedAtUnixSeconds : Int64
  expiresAtUnixSeconds : Int64
  revokedAtUnixSeconds : Option Int64
  deriving DecidableEq

/-- `ResourceContext`. -/
structure ResourceContext where
  ownerSubject : String
  deriving DecidableEq

/-- `AuthorizationPolicy`. -/
structure AuthorizationPolicy where
  expectedAudience : String
  expectedClientId : String
  maxStepUpAgeSeconds : Int64
  maxClockSkewSeconds : Int64
  deriving DecidableEq

/-- `AuthorizationPolicy::new`. -/
def AuthorizationPolicy.new (expectedClientId : String) : AuthorizationPolicy where
  expectedAudience := cliptownApiAudience
  expectedClientId := expectedClientId
  maxStepUpAgeSeconds := 300
  maxClockSkewSeconds := 60

/-! ## §2. The validator. -/

/-- The step-up block at the end of `validate_authorization`.  The error of the
`checked_sub` failure branch is a parameter; the source puts `InvalidClock` there. -/
def validateStepUp (ageOverflow : CoreError) (nowUnixSeconds : Int64) (operation : Operation)
    (authorization : AuthorizationContext) (policy : AuthorizationPolicy) :
    Except CoreError Unit :=
  if operation.requiresFreshLoa2 then do
    rejectIf (authorization.assuranceLevel < 2) .insufficientAssurance
    let age ← okOr (checkedSubI64 nowUnixSeconds authorization.authenticatedAtUnixSeconds)
      ageOverflow
    rejectIf (policy.maxStepUpAgeSeconds < age) .staleStepUp
  else
    .ok ()

/-- The body of `validate_authorization`, over the same parameter. -/
def validateAuthorizationWith (ageOverflow : CoreError) (nowUnixSeconds : Int64)
    (operation : Operation) (authorization : AuthorizationContext) (resource : ResourceContext)
    (policy : AuthorizationPolicy) : Except CoreError Unit := do
  rejectIf (nowUnixSeconds < 0 ∨ policy.maxStepUpAgeSeconds ≤ 0 ∨ policy.maxClockSkewSeconds < 0)
    .invalidClock
  validatePortableIdentifier authorization.subject
  validatePortableIdentifier resource.ownerSubject
  validatePortableIdentifier authorization.clientId
  validatePortableIdentifier policy.expectedClientId
  rejectIf (authorization.audience ≠ policy.expectedAudience) .invalidAudience
  rejectIf (authorization.clientId ≠ policy.expectedClientId) .invalidClient
  rejectIf (authorization.lineage = .objectGrant) .invalidCredentialLineage
  rejectIf (authorization.expiresAtUnixSeconds ≤ nowUnixSeconds) .expiredCredential
  let latestAllowedNow ←
    okOr (checkedAddI64 nowUnixSeconds policy.maxClockSkewSeconds) .invalidClock
  rejectIf (authorization.revokedAtUnixSeconds.any (fun revokedAt => revokedAt ≤ latestAllowedNow))
    .revokedCredential
  rejectIf (authorization.subject ≠ resource.ownerSubject) .ownershipMismatch
  rejectIf (¬ authorization.scopes.any (fun scope => scope == operation.requiredScope))
    .missingScope
  let latestAllowedAuthentication := latestAllowedNow
  rejectIf (authorization.authenticatedAtUnixSeconds < 0
    ∨ latestAllowedAuthentication < authorization.authenticatedAtUnixSeconds) .invalidClock
  validateStepUp ageOverflow nowUnixSeconds operation authorization policy

/-- `validate_authorization`. -/
def validateAuthorization (nowUnixSeconds : Int64) (operation : Operation)
    (authorization : AuthorizationContext) (resource : ResourceContext)
    (policy : AuthorizationPolicy) : Except CoreError Unit :=
  validateAuthorizationWith .invalidClock nowUnixSeconds operation authorization resource policy

/-! ## §3. The condition, in the unbounded integers. -/

/-- Who may do what when: every time is a plain integer here. -/
structure Authorized (now : Int) (operation : Operation) (authorization : AuthorizationContext)
    (resource : ResourceContext) (policy : AuthorizationPolicy) : Prop where
  now_nonneg : 0 ≤ now
  stepUpAge_pos : 0 < policy.maxStepUpAgeSeconds.toInt
  skew_nonneg : 0 ≤ policy.maxClockSkewSeconds.toInt
  horizon_fits : FitsI64 (now + policy.maxClockSkewSeconds.toInt)
  subject_portable : IsPortable authorization.subject
  owner_portable : IsPortable resource.ownerSubject
  client_portable : IsPortable authorization.clientId
  expectedClient_portable : IsPortable policy.expectedClientId
  audience_matches : authorization.audience = policy.expectedAudience
  client_matches : authorization.clientId = policy.expectedClientId
  not_objectGrant : authorization.lineage ≠ .objectGrant
  not_expired : now < authorization.expiresAtUnixSeconds.toInt
  not_revoked : ∀ revokedAt, authorization.revokedAtUnixSeconds = some revokedAt →
    now + policy.maxClockSkewSeconds.toInt < revokedAt.toInt
  owns : authorization.subject = resource.ownerSubject
  has_scope : operation.requiredScope ∈ authorization.scopes
  authenticated_nonneg : 0 ≤ authorization.authenticatedAtUnixSeconds.toInt
  authenticated_le : authorization.authenticatedAtUnixSeconds.toInt
    ≤ now + policy.maxClockSkewSeconds.toInt
  fresh : operation = .write ∨ operation = .delete →
    2 ≤ authorization.assuranceLevel.toNat
      ∧ now - authorization.authenticatedAtUnixSeconds.toInt ≤ policy.maxStepUpAgeSeconds.toInt

/-! ## §4. The checks are the condition. -/

theorem requiresFreshLoa2_iff (operation : Operation) :
    operation.requiresFreshLoa2 = true ↔ operation = .write ∨ operation = .delete := by
  cases operation <;> simp [Operation.requiresFreshLoa2]

/-- A revocation check passes iff there is no revocation up to the horizon. -/
theorem not_revoked_iff {revoked : Option Int64} {horizon : Int64} :
    ¬ revoked.any (fun revokedAt => revokedAt ≤ horizon)
      ↔ ∀ revokedAt, revoked = some revokedAt → horizon.toInt < revokedAt.toInt := by
  cases revoked with
  | none => simp
  | some revokedAt => simp [Int64.lt_iff_toInt_lt]

theorem has_scope_iff {scopes : List String} {required : String} :
    scopes.any (fun scope => scope == required) ↔ required ∈ scopes := by
  rw [List.any_eq_true]
  constructor
  · intro hall
    obtain ⟨scope, hmem, heq⟩ := hall
    rw [← eq_of_beq heq]
    exact hmem
  · intro hmem
    exact ⟨required, hmem, beq_self_eq_true required⟩

/-- Past the clock checks, the age always fits in a word. -/
theorem age_never_overflows {now authenticatedAt : Int64} (hnow : 0 ≤ now.toInt)
    (hauth : 0 ≤ authenticatedAt.toInt) :
    ∃ age, checkedSubI64 now authenticatedAt = some age
      ∧ age.toInt = now.toInt - authenticatedAt.toInt := by
  obtain ⟨age, hage⟩ := checkedSubI64_isSome hnow hauth
  exact ⟨age, hage, (checkedSubI64_eq_some.mp hage).2⟩

/-- The step-up block, once both clocks are known to be non-negative. -/
theorem validateStepUp_eq_ok {ageOverflow : CoreError} {operation : Operation} {now : Int64}
    {authorization : AuthorizationContext} {policy : AuthorizationPolicy}
    (hnow : 0 ≤ now.toInt) (hauth : 0 ≤ authorization.authenticatedAtUnixSeconds.toInt) :
    validateStepUp ageOverflow now operation authorization policy = .ok ()
      ↔ (operation = .write ∨ operation = .delete →
          2 ≤ authorization.assuranceLevel.toNat
            ∧ now.toInt - authorization.authenticatedAtUnixSeconds.toInt
                ≤ policy.maxStepUpAgeSeconds.toInt) := by
  obtain ⟨age, hage, hval⟩ := age_never_overflows hnow hauth
  have htwo : (2 : UInt8).toNat = 2 := rfl
  unfold validateStepUp
  rw [← requiresFreshLoa2_iff]
  by_cases hfresh : operation.requiresFreshLoa2 = true
  · simp only [hfresh, if_true, do_eq_ok, rejectIf_eq_ok, okOr_eq_ok, exists_unit, hage,
      Option.some.injEq, exists_eq_left', UInt8.not_lt, UInt8.le_iff_toNat_le, Int64.not_lt,
      Int64.le_iff_toInt_le, htwo, hval, true_implies]
  · simp [hfresh]

/-- Where both clocks are non-negative, the overflow branch is not taken. -/
theorem validateStepUp_ageOverflow {operation : Operation} {now : Int64}
    {authorization : AuthorizationContext} {policy : AuthorizationPolicy} (e e' : CoreError)
    (hnow : 0 ≤ now.toInt) (hauth : 0 ≤ authorization.authenticatedAtUnixSeconds.toInt) :
    validateStepUp e now operation authorization policy
      = validateStepUp e' now operation authorization policy := by
  obtain ⟨age, hage, _⟩ := age_never_overflows hnow hauth
  unfold validateStepUp
  rw [hage]
  rfl

/-- **Every check, read back.**  The error put in the overflow branch of the age
subtraction plays no part. -/
theorem validateAuthorizationWith_eq_ok {ageOverflow : CoreError} {now : Int64}
    {operation : Operation} {authorization : AuthorizationContext} {resource : ResourceContext}
    {policy : AuthorizationPolicy} :
    validateAuthorizationWith ageOverflow now operation authorization resource policy = .ok ()
      ↔ Authorized now.toInt operation authorization resource policy := by
  have hzero : (0 : Int64).toInt = 0 := rfl
  unfold validateAuthorizationWith
  simp only [do_eq_ok, rejectIf_eq_ok, okOr_eq_ok, validatePortableIdentifier_eq_ok, exists_unit,
    not_or, not_revoked_iff, has_scope_iff, ne_eq, not_not, checkedAddI64_eq_some]
  -- from here on, every comparison of words is one of integers
  simp only [Int64.le_iff_toInt_le, Int64.lt_iff_toInt_lt, hzero, not_lt, not_le]
  constructor
  · intro hall
    obtain ⟨⟨hnow, hage, hskew⟩, hs, ho, hc, he, haud, hcl, hlin, hexp, horizon, ⟨hfit, hval⟩,
      hrev, hown, hscope, ⟨ha0, ha1⟩, hstep⟩ := hall
    rw [hval] at hrev ha1
    exact ⟨hnow, hage, hskew, hfit, hs, ho, hc, he, haud, hcl, hlin, hexp, hrev, hown, hscope,
      ha0, ha1, (validateStepUp_eq_ok hnow ha0).mp hstep⟩
  · intro h
    have hsum := checkedAddI64_eq_some.mp
      (show checkedAddI64 now policy.maxClockSkewSeconds = some _ by
        rw [checkedAddI64, ofIntI64?, if_pos h.horizon_fits])
    refine ⟨⟨h.now_nonneg, h.stepUpAge_pos, h.skew_nonneg⟩, h.subject_portable, h.owner_portable,
      h.client_portable, h.expectedClient_portable, h.audience_matches, h.client_matches,
      h.not_objectGrant, h.not_expired, _, hsum, ?_, h.owns, h.has_scope,
      ⟨h.authenticated_nonneg, ?_⟩,
      (validateStepUp_eq_ok h.now_nonneg h.authenticated_nonneg).mpr h.fresh⟩
    · rw [hsum.2]
      exact h.not_revoked
    · rw [hsum.2]
      exact h.authenticated_le

/-- Exchanging the error of the overflow branch changes no verdict. -/
theorem validateAuthorizationWith_ageOverflow {now : Int64} {operation : Operation}
    {authorization : AuthorizationContext} {resource : ResourceContext}
    {policy : AuthorizationPolicy} (e e' : CoreError) :
    validateAuthorizationWith e now operation authorization resource policy
      = validateAuthorizationWith e' now operation authorization resource policy := by
  unfold validateAuthorizationWith
  refine do_congr fun _ hclock => ?_
  refine do_congr fun _ _ => do_congr fun _ _ => do_congr fun _ _ => do_congr fun _ _ => ?_
  refine do_congr fun _ _ => do_congr fun _ _ => do_congr fun _ _ => do_congr fun _ _ => ?_
  refine do_congr fun _ _ => do_congr fun _ _ => do_congr fun _ _ => do_congr fun _ _ => ?_
  refine do_congr fun _ hauth => ?_
  -- the two checks that bound the operands of the subtraction
  rw [rejectIf_eq_ok, not_or] at hclock hauth
  refine validateStepUp_ageOverflow e e' ?_ ?_
  · exact Int64.le_iff_toInt_le.mp (Int64.not_lt.mp hclock.1)
  · exact Int64.le_iff_toInt_le.mp (Int64.not_lt.mp hauth.1)

/-- **Authorization is decided by the integer condition.**  An object grant is
never accepted, and no input reaches the overflow branch of the age: whatever
error it returned, the verdict would be the same. -/
theorem validateAuthorization_iff (now : Int64) (operation : Operation)
    (authorization : AuthorizationContext) (resource : ResourceContext)
    (policy : AuthorizationPolicy) :
    (validateAuthorization now operation authorization resource policy = .ok ()
        ↔ Authorized now.toInt operation authorization resource policy)
      ∧ (authorization.lineage = .objectGrant →
          validateAuthorization now operation authorization resource policy ≠ .ok ())
      ∧ ∀ ageOverflow,
          validateAuthorizationWith ageOverflow now operation authorization resource policy
            = validateAuthorization now operation authorization resource policy := by
  refine ⟨validateAuthorizationWith_eq_ok, ?_, ?_⟩
  · intro hlineage hok
    exact (validateAuthorizationWith_eq_ok.mp hok).not_objectGrant hlineage
  · intro ageOverflow
    exact validateAuthorizationWith_ageOverflow _ _

end ClipTown.Auth
