/-
  ClipTown.Core.AdmissionWindow — when a credential is admitted, as one window
  of time (`src/auth.rs`).

  The checks of `validate_authorization` that look at the clock mix lower
  bounds (the authentication lies in the future by at most the skew) and upper
  bounds (expiry, revocation counted early by the skew, the step-up age, the
  overflow of the horizon).  `authorized_iff_window` sorts them into ONE
  half-open interval beside the conditions that never look at the clock:

    • `authorized_iff_window` — authorized at `now` iff in good standing and
      `opensAt ≤ now < closesAt`,
    • `Strengthens.closesAt_le` — a stronger credential never closes earlier,
    • `validateAuthorization_window` — the admitted times are an interval, and
      strengthening a credential never loses an admission.
-/
import ClipTown.Core.Auth

namespace ClipTown.Auth

open Checks CheckedArith Validation

/-! ## §1. The window. -/

/-- The conditions of `Authorized` that do not mention the time. -/
structure Standing (operation : Operation) (authorization : AuthorizationContext)
    (resource : ResourceContext) (policy : AuthorizationPolicy) : Prop where
  stepUpAge_pos : 0 < policy.maxStepUpAgeSeconds.toInt
  skew_nonneg : 0 ≤ policy.maxClockSkewSeconds.toInt
  subject_portable : IsPortable authorization.subject
  owner_portable : IsPortable resource.ownerSubject
  client_portable : IsPortable authorization.clientId
  expectedClient_portable : IsPortable policy.expectedClientId
  audience_matches : authorization.audience = policy.expectedAudience
  client_matches : authorization.clientId = policy.expectedClientId
  not_objectGrant : authorization.lineage ≠ .objectGrant
  owns : authorization.subject = resource.ownerSubject
  has_scope : operation.requiredScope ∈ authorization.scopes
  authenticated_nonneg : 0 ≤ authorization.authenticatedAtUnixSeconds.toInt
  assured : operation.requiresFreshLoa2 = true → 2 ≤ authorization.assuranceLevel.toNat

/-- The first second of the window. -/
def opensAt (authorization : AuthorizationContext) (policy : AuthorizationPolicy) : Int :=
  max 0 (authorization.authenticatedAtUnixSeconds.toInt - policy.maxClockSkewSeconds.toInt)

/-- The second at which a revocation, if there is one, closes the window. -/
def revocationCloses (authorization : AuthorizationContext) (policy : AuthorizationPolicy) : Int :=
  match authorization.revokedAtUnixSeconds with
  | none => authorization.expiresAtUnixSeconds.toInt
  | some revokedAt => revokedAt.toInt - policy.maxClockSkewSeconds.toInt

/-- The second at which a step-up, if the operation needs one, is stale. -/
def stepUpCloses (operation : Operation) (authorization : AuthorizationContext)
    (policy : AuthorizationPolicy) : Int :=
  if operation.requiresFreshLoa2 then
    authorization.authenticatedAtUnixSeconds.toInt + policy.maxStepUpAgeSeconds.toInt + 1
  else
    authorization.expiresAtUnixSeconds.toInt

/-- The first second past the window. -/
def closesAt (operation : Operation) (authorization : AuthorizationContext)
    (policy : AuthorizationPolicy) : Int :=
  min (min authorization.expiresAtUnixSeconds.toInt (2 ^ 63 - policy.maxClockSkewSeconds.toInt))
    (min (revocationCloses authorization policy) (stepUpCloses operation authorization policy))

/-- With the expiry at hand, the revocation bound is the revocation check. -/
theorem lt_revocationCloses_iff {now : Int} {authorization : AuthorizationContext}
    (policy : AuthorizationPolicy) (hexpires : now < authorization.expiresAtUnixSeconds.toInt) :
    now < revocationCloses authorization policy
      ↔ ∀ revokedAt, authorization.revokedAtUnixSeconds = some revokedAt →
          now + policy.maxClockSkewSeconds.toInt < revokedAt.toInt := by
  unfold revocationCloses
  cases authorization.revokedAtUnixSeconds with
  | none => simp [hexpires]
  | some revokedAt =>
      simp only [Option.some.injEq, forall_eq']
      omega

/-- With the expiry at hand, the step-up bound is the age check. -/
theorem lt_stepUpCloses_iff {now : Int} (operation : Operation)
    {authorization : AuthorizationContext} (policy : AuthorizationPolicy)
    (hexpires : now < authorization.expiresAtUnixSeconds.toInt) :
    now < stepUpCloses operation authorization policy
      ↔ (operation.requiresFreshLoa2 = true →
          now - authorization.authenticatedAtUnixSeconds.toInt
            ≤ policy.maxStepUpAgeSeconds.toInt) := by
  unfold stepUpCloses
  by_cases hfresh : operation.requiresFreshLoa2 = true
  · simp only [hfresh, if_true, true_implies]
    omega
  · simp [hfresh, hexpires]

/-- **The window.**  All that the clock decides is whether it lies between the
second the window opens and the second it closes. -/
theorem authorized_iff_window {now : Int} {operation : Operation}
    {authorization : AuthorizationContext} {resource : ResourceContext}
    {policy : AuthorizationPolicy} :
    Authorized now operation authorization resource policy
      ↔ Standing operation authorization resource policy
        ∧ opensAt authorization policy ≤ now
        ∧ now < closesAt operation authorization policy := by
  unfold opensAt closesAt
  constructor
  · intro h
    have hfits := h.horizon_fits.2
    have hexpires := h.not_expired
    have hnow := h.now_nonneg
    have hauth := h.authenticated_le
    have hrevoked := (lt_revocationCloses_iff policy hexpires).mpr h.not_revoked
    have hage := (lt_stepUpCloses_iff operation policy hexpires).mpr
      (fun hfresh => (h.fresh ((requiresFreshLoa2_iff operation).mp hfresh)).2)
    have hstanding : Standing operation authorization resource policy :=
      { h with assured := fun hfresh => (h.fresh ((requiresFreshLoa2_iff operation).mp hfresh)).1 }
    -- what is left compares the time with the two ends of the window
    exact ⟨hstanding, by omega, by omega⟩
  · intro hall
    obtain ⟨h, hopen, hclose⟩ := hall
    have hskew := h.skew_nonneg
    -- the window closes with the credential at the latest, so the other bounds can be read
    have hexpires : now < authorization.expiresAtUnixSeconds.toInt := by omega
    have hrevoked := (lt_revocationCloses_iff policy hexpires).mp (by omega)
    have hage := (lt_stepUpCloses_iff operation policy hexpires).mp
      (by omega)
    have hfits : FitsI64 (now + policy.maxClockSkewSeconds.toInt) := by
      unfold FitsI64
      omega
    exact
      { h with
        now_nonneg := by omega
        horizon_fits := hfits
        not_expired := hexpires
        not_revoked := hrevoked
        authenticated_le := by omega
        fresh := fun hop =>
          have hfresh := (requiresFreshLoa2_iff operation).mpr hop
          ⟨h.assured hfresh, hage hfresh⟩ }

/-! ## §2. Stronger credentials. -/

/-- `stronger` is `weaker` with scopes added, the assurance level raised, the
expiry postponed, and the revocation postponed or removed. -/
structure Strengthens (weaker stronger : AuthorizationContext) : Prop where
  subject : stronger.subject = weaker.subject
  audience : stronger.audience = weaker.audience
  clientId : stronger.clientId = weaker.clientId
  lineage : stronger.lineage = weaker.lineage
  scopes : weaker.scopes ⊆ stronger.scopes
  assuranceLevel : weaker.assuranceLevel ≤ stronger.assuranceLevel
  authenticatedAt : stronger.authenticatedAtUnixSeconds = weaker.authenticatedAtUnixSeconds
  expiresAt : weaker.expiresAtUnixSeconds ≤ stronger.expiresAtUnixSeconds
  revokedAt : ∀ later, stronger.revokedAtUnixSeconds = some later →
    ∃ earlier, weaker.revokedAtUnixSeconds = some earlier ∧ earlier ≤ later

theorem Strengthens.opensAt_eq {weaker stronger : AuthorizationContext}
    (h : Strengthens weaker stronger) (policy : AuthorizationPolicy) :
    opensAt stronger policy = opensAt weaker policy := by
  unfold opensAt
  rw [h.authenticatedAt]

/-- A revocation that is later, or gone, closes later, up to the expiry. -/
theorem Strengthens.revocationCloses_le {weaker stronger : AuthorizationContext}
    (h : Strengthens weaker stronger) (policy : AuthorizationPolicy) :
    min weaker.expiresAtUnixSeconds.toInt (revocationCloses weaker policy)
      ≤ revocationCloses stronger policy := by
  have hexpires := Int64.le_iff_toInt_le.mp h.expiresAt
  unfold revocationCloses
  cases hlater : stronger.revokedAtUnixSeconds with
  | none => exact le_trans (min_le_left _ _) hexpires
  | some later =>
      obtain ⟨earlier, hearlier, hle⟩ := h.revokedAt later hlater
      have hle' := Int64.le_iff_toInt_le.mp hle
      rw [hearlier]
      show min _ (earlier.toInt - _) ≤ later.toInt - _
      omega

theorem Strengthens.stepUpCloses_le {weaker stronger : AuthorizationContext}
    (h : Strengthens weaker stronger) (operation : Operation) (policy : AuthorizationPolicy) :
    stepUpCloses operation weaker policy ≤ stepUpCloses operation stronger policy := by
  have hexpires := Int64.le_iff_toInt_le.mp h.expiresAt
  unfold stepUpCloses
  rw [h.authenticatedAt]
  by_cases hfresh : operation.requiresFreshLoa2 = true
  · rw [if_pos hfresh, if_pos hfresh]
  · rw [if_neg hfresh, if_neg hfresh]
    exact hexpires

theorem Strengthens.closesAt_le {weaker stronger : AuthorizationContext}
    (h : Strengthens weaker stronger) (operation : Operation) (policy : AuthorizationPolicy) :
    closesAt operation weaker policy ≤ closesAt operation stronger policy := by
  have hexpires := Int64.le_iff_toInt_le.mp h.expiresAt
  have hrevoked := h.revocationCloses_le policy
  have hstepUp := h.stepUpCloses_le operation policy
  unfold closesAt
  omega

theorem Standing.strengthen {operation : Operation} {weaker stronger : AuthorizationContext}
    {resource : ResourceContext} {policy : AuthorizationPolicy}
    (hstanding : Standing operation weaker resource policy) (h : Strengthens weaker stronger) :
    Standing operation stronger resource policy where
  stepUpAge_pos := hstanding.stepUpAge_pos
  skew_nonneg := hstanding.skew_nonneg
  subject_portable := h.subject ▸ hstanding.subject_portable
  owner_portable := hstanding.owner_portable
  client_portable := h.clientId ▸ hstanding.client_portable
  expectedClient_portable := hstanding.expectedClient_portable
  audience_matches := h.audience.trans hstanding.audience_matches
  client_matches := h.clientId.trans hstanding.client_matches
  not_objectGrant := h.lineage ▸ hstanding.not_objectGrant
  owns := h.subject.trans hstanding.owns
  has_scope := h.scopes hstanding.has_scope
  authenticated_nonneg := h.authenticatedAt ▸ hstanding.authenticated_nonneg
  assured := fun hfresh =>
    le_trans (hstanding.assured hfresh) (UInt8.le_iff_toNat_le.mp h.assuranceLevel)

/-! ## §3. The validator over time. -/

theorem validateAuthorization_eq_ok {now : Int64} {operation : Operation}
    {authorization : AuthorizationContext} {resource : ResourceContext}
    {policy : AuthorizationPolicy} :
    validateAuthorization now operation authorization resource policy = .ok ()
      ↔ Standing operation authorization resource policy
        ∧ opensAt authorization policy ≤ now.toInt
        ∧ now.toInt < closesAt operation authorization policy := by
  unfold validateAuthorization
  rw [validateAuthorizationWith_eq_ok, authorized_iff_window]

/-- Between two admissions there is no refusal. -/
theorem validateAuthorization_between {t₁ t₂ t₃ : Int64} {operation : Operation}
    {authorization : AuthorizationContext} {resource : ResourceContext}
    {policy : AuthorizationPolicy} (h₁₂ : t₁ ≤ t₂) (h₂₃ : t₂ ≤ t₃)
    (hok₁ : validateAuthorization t₁ operation authorization resource policy = .ok ())
    (hok₃ : validateAuthorization t₃ operation authorization resource policy = .ok ()) :
    validateAuthorization t₂ operation authorization resource policy = .ok () := by
  obtain ⟨hstanding, hopen, _⟩ := validateAuthorization_eq_ok.mp hok₁
  obtain ⟨_, _, hclose⟩ := validateAuthorization_eq_ok.mp hok₃
  have h₁ := Int64.le_iff_toInt_le.mp h₁₂
  have h₃ := Int64.le_iff_toInt_le.mp h₂₃
  exact validateAuthorization_eq_ok.mpr ⟨hstanding, by omega, by omega⟩

/-- **The admitted times are an interval**: between two admissions there is no
refusal, and after an admission and a refusal there is no further admission.
**And no strengthening of the credential loses an admission.** -/
theorem validateAuthorization_window (operation : Operation) (authorization : AuthorizationContext)
    (resource : ResourceContext) (policy : AuthorizationPolicy) :
    (∀ t₁ t₂ t₃ : Int64, t₁ ≤ t₂ → t₂ ≤ t₃ →
        validateAuthorization t₁ operation authorization resource policy = .ok () →
        validateAuthorization t₃ operation authorization resource policy = .ok () →
        validateAuthorization t₂ operation authorization resource policy = .ok ())
      ∧ (∀ admitted refused later : Int64, admitted ≤ refused → refused ≤ later →
          validateAuthorization admitted operation authorization resource policy = .ok () →
          validateAuthorization refused operation authorization resource policy ≠ .ok () →
          validateAuthorization later operation authorization resource policy ≠ .ok ())
      ∧ ∀ (now : Int64) (stronger : AuthorizationContext), Strengthens authorization stronger →
          validateAuthorization now operation authorization resource policy = .ok () →
          validateAuthorization now operation stronger resource policy = .ok () := by
  refine ⟨?_, ?_, ?_⟩
  · intro t₁ t₂ t₃ h₁₂ h₂₃ hok₁ hok₃
    exact validateAuthorization_between h₁₂ h₂₃ hok₁ hok₃
  · intro admitted refused later h₁ h₂ hadmitted hrefused hlater
    exact hrefused (validateAuthorization_between h₁ h₂ hadmitted hlater)
  · intro now stronger h hok
    obtain ⟨hstanding, hopen, hclose⟩ := validateAuthorization_eq_ok.mp hok
    have hle := h.closesAt_le operation policy
    refine validateAuthorization_eq_ok.mpr ⟨hstanding.strengthen h, ?_, ?_⟩
    · rw [h.opensAt_eq policy]
      exact hopen
    · omega

/-- A read credential: authenticated at 1000, expired from 5000 on, revoked at 4000. -/
def readCredential : AuthorizationContext where
  subject := "user-1"
  audience := cliptownApiAudience
  clientId := "desktop"
  lineage := .deviceSession
  scopes := [cliptownReadScope]
  assuranceLevel := 1
  authenticatedAtUnixSeconds := 1000
  expiresAtUnixSeconds := 5000
  revokedAtUnixSeconds := some 4000

/-- Admitted at 940 and at 3939, the credential is admitted at 2000; without its
revocation it still is. -/
theorem validateAuthorization_window_sample :
    validateAuthorization 2000 .read readCredential ⟨"user-1"⟩ (.new "desktop") = .ok ()
      ∧ validateAuthorization 2000 .read
          { readCredential with revokedAtUnixSeconds := none } ⟨"user-1"⟩ (.new "desktop")
        = .ok () := by
  have hwindow := validateAuthorization_window .read readCredential ⟨"user-1"⟩ (.new "desktop")
  have hadmitted : validateAuthorization 2000 .read readCredential ⟨"user-1"⟩ (.new "desktop")
      = .ok () :=
    hwindow.1 940 2000 3939 (by decide) (by decide) (by decide) (by decide)
  refine ⟨hadmitted, hwindow.2.2 2000 _ ?_ hadmitted⟩
  exact ⟨rfl, rfl, rfl, rfl, List.Subset.refl _, UInt8.le_refl _, rfl, Int64.le_refl _, by simp⟩

end ClipTown.Auth
