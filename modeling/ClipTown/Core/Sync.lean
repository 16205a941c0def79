/-
  ClipTown.Core.Sync — the encrypted synchronization batch (`src/sync.rs`).

  `validateSyncBatch` folds `incorporateMutation` over the mutations of a
  batch.  The fold threads the mutation ids and the record clocks seen so far,
  the order keys, and the highest clock; the ids are then sorted by order key.

    • `foldSpec` — the whole fold in closed form: it succeeds iff every
      mutation is valid on its own and no id and no record clock repeats,
    • `validateSyncBatch_eq_ok` — acceptance and the returned value, in terms
      of the batch alone.

  `order.sort_unstable()` is `mergeSort`: the derived `Ord` is a total order in
  which equal keys are identical, so stability is not observable.
-/
import Mathlib.Data.Finset.Basic
import Mathlib.Data.List.Nodup
import Mathlib.Data.Prod.Lex
import Mathlib.Data.String.Basic
import Mathlib.Order.Fin.Basic
import ClipTown.Core.Validation
import ClipTown.Lib.CanonicalOrder

namespace ClipTown.Sync

open Checks CheckedArith CanonicalOrder Validation

/-! ## §1. The data model. -/

/-- `Uuid`: 128 bits, compared as the big-endian number. -/
abbrev Uuid := Fin (2 ^ 128)

/-- `Uuid::is_nil`. -/
def isNil (id : Uuid) : Bool := id.val == 0

/-- `MutationKind`. -/
inductive MutationKind where
  | upsert
  | delete
  deriving DecidableEq, Repr

/-- `SyncMutation`. -/
structure SyncMutation where
  mutationId : Uuid
  clipId : Uuid
  ownerSubject : String
  sourceDeviceId : String
  kind : MutationKind
  logicalClock : UInt64
  createdAtUnixMillis : Int64
  payloadSha256Base64 : String
  deriving DecidableEq

/-- `SyncBatch`. -/
structure SyncBatch where
  ownerSubject : String
  sourceDeviceId : String
  mutations : List SyncMutation
  deriving DecidableEq

/-- `SyncPolicy`. -/
structure SyncPolicy where
  maxBatchSize : Nat
  maxFutureSkewMillis : Int64
  deriving DecidableEq

/-- `SyncPolicy::default`. -/
def SyncPolicy.default : SyncPolicy where
  maxBatchSize := 100
  maxFutureSkewMillis := 5 * 60 * 1000

/-- `MutationOrderKey`. -/
structure MutationOrderKey where
  logicalClock : UInt64
  sourceDeviceId : String
  mutationId : Uuid
  deriving DecidableEq

/-- The derived `Ord` of a key compares its fields in declaration order. -/
def MutationOrderKey.lexKey (key : MutationOrderKey) : Nat ×ₗ String ×ₗ Uuid :=
  toLex (key.logicalClock.toNat, toLex (key.sourceDeviceId, key.mutationId))

theorem MutationOrderKey.lexKey_injective : Function.Injective MutationOrderKey.lexKey := by
  intro a b h
  obtain ⟨c, d, m⟩ := a
  obtain ⟨c', d', m'⟩ := b
  simpa [MutationOrderKey.lexKey, UInt64.toNat_inj] using h

instance : LinearOrder MutationOrderKey :=
  LinearOrder.lift' MutationOrderKey.lexKey MutationOrderKey.lexKey_injective

theorem MutationOrderKey.lt_iff {a b : MutationOrderKey} : a < b ↔ a.lexKey < b.lexKey :=
  Iff.rfl

/-- `ValidatedSyncBatch`. -/
structure ValidatedSyncBatch where
  mutationCount : Nat
  highestLogicalClock : UInt64
  canonicalMutationIds : List Uuid
  deriving DecidableEq

/-- `MutationFold`: ids seen, record clocks seen, order keys, highest clock. -/
structure MutationFold where
  mutationIds : Finset Uuid
  recordClocks : Finset (Uuid × String × UInt64)
  order : List MutationOrderKey
  highest : UInt64

/-! ## §2. The validator. -/

section Validator

variable (decode : String → Option (List UInt8))

/-- `insert_unique`. -/
def insertUnique {α : Type} [DecidableEq α] (set : Finset α) (value : α)
    (duplicate : CoreError) : Except CoreError (Finset α) :=
  if value ∈ set then .error duplicate else .ok (insert value set)

/-- `append_key`. -/
def appendKey (order : List MutationOrderKey) (key : MutationOrderKey) :
    List MutationOrderKey :=
  order ++ [key]

/-- `sorted_mutation_ids`. -/
def sortedMutationIds (order : List MutationOrderKey) : List Uuid :=
  (order.mergeSort (· ≤ ·)).map (·.mutationId)

/-- `i64::MAX as u64`. -/
def maxLogicalClock : UInt64 := 9223372036854775807

/-- `validated_order_key`. -/
def validatedOrderKey (mutation : SyncMutation) (batch : SyncBatch)
    (latestAllowedTimestamp : Int64) : Except CoreError MutationOrderKey := do
  rejectIf (isNil mutation.mutationId ∨ isNil mutation.clipId) .invalidMutation
  (validatePortableIdentifier mutation.ownerSubject).mapError (fun _ => .invalidMutation)
  (validatePortableIdentifier mutation.sourceDeviceId).mapError (fun _ => .invalidMutation)
  rejectIf (mutation.ownerSubject ≠ batch.ownerSubject
    ∨ mutation.sourceDeviceId ≠ batch.sourceDeviceId) .ownershipMismatch
  rejectIf (maxLogicalClock < mutation.logicalClock) .logicalClockOutOfRange
  rejectIf (mutation.createdAtUnixMillis < 0
    ∨ latestAllowedTimestamp < mutation.createdAtUnixMillis) .futureMutation
  (validateSha256Base64 decode mutation.payloadSha256Base64).mapError (fun _ => .invalidMutation)
  return ⟨mutation.logicalClock, mutation.sourceDeviceId, mutation.mutationId⟩

/-- `incorporate_mutation`. -/
def incorporateMutation (batch : SyncBatch) (latestAllowedTimestamp : Int64)
    (fold : MutationFold) (mutation : SyncMutation) : Except CoreError MutationFold := do
  let key ← validatedOrderKey decode mutation batch latestAllowedTimestamp
  let mutationIds ← insertUnique fold.mutationIds mutation.mutationId .duplicateMutation
  let recordClocks ← insertUnique fold.recordClocks
    (mutation.clipId, mutation.sourceDeviceId, mutation.logicalClock) .duplicateRecordClock
  return ⟨mutationIds, recordClocks, appendKey fold.order key,
    max fold.highest mutation.logicalClock⟩

/-- The fold before the first mutation. -/
def MutationFold.empty : MutationFold := ⟨∅, ∅, [], 0⟩

/-- `validate_sync_batch`. -/
def validateSyncBatch (nowUnixMillis : Int64) (batch : SyncBatch) (policy : SyncPolicy) :
    Except CoreError ValidatedSyncBatch := do
  rejectIf (nowUnixMillis < 0 ∨ policy.maxFutureSkewMillis < 0) .invalidClock
  rejectIf (policy.maxBatchSize = 0) .batchTooLarge
  validatePortableIdentifier batch.ownerSubject
  validatePortableIdentifier batch.sourceDeviceId
  rejectIf (batch.mutations = []) .emptyBatch
  rejectIf (policy.maxBatchSize < batch.mutations.length) .batchTooLarge
  let latestAllowedTimestamp ←
    okOr (checkedAddI64 nowUnixMillis policy.maxFutureSkewMillis) .invalidClock
  let fold ← batch.mutations.foldlM
    (incorporateMutation decode batch latestAllowedTimestamp) MutationFold.empty
  return ⟨batch.mutations.length, fold.highest, sortedMutationIds fold.order⟩

/-! ## §3. One mutation. -/

/-- What the fold demands of a mutation on its own. -/
structure ValidMutation (batch : SyncBatch) (latestAllowedTimestamp : Int64)
    (mutation : SyncMutation) : Prop where
  mutationId : isNil mutation.mutationId = false
  clipId : isNil mutation.clipId = false
  ownerPortable : IsPortable mutation.ownerSubject
  devicePortable : IsPortable mutation.sourceDeviceId
  owner : mutation.ownerSubject = batch.ownerSubject
  device : mutation.sourceDeviceId = batch.sourceDeviceId
  clock : mutation.logicalClock ≤ maxLogicalClock
  notNegative : 0 ≤ mutation.createdAtUnixMillis
  notFuture : mutation.createdAtUnixMillis ≤ latestAllowedTimestamp
  payload : validateSha256Base64 decode mutation.payloadSha256Base64 = .ok ()

/-- The order key of a mutation. -/
def orderKey (mutation : SyncMutation) : MutationOrderKey :=
  ⟨mutation.logicalClock, mutation.sourceDeviceId, mutation.mutationId⟩

/-- The record clock of a mutation: clip, device and logical clock. -/
def recordClock (mutation : SyncMutation) : Uuid × String × UInt64 :=
  (mutation.clipId, mutation.sourceDeviceId, mutation.logicalClock)

theorem validatedOrderKey_eq_ok {mutation : SyncMutation} {batch : SyncBatch} {latest : Int64}
    {key : MutationOrderKey} :
    validatedOrderKey decode mutation batch latest = .ok key ↔
      ValidMutation decode batch latest mutation ∧ key = orderKey mutation := by
  simp only [validatedOrderKey, do_eq_ok, rejectIf_eq_ok, mapError_eq_ok, pure_eq_ok, not_or,
    validatePortableIdentifier_eq_ok, exists_unit, not_not, Int64.not_lt,
    UInt64.not_lt, Bool.not_eq_true]
  constructor
  · intro hall
    obtain ⟨hids, ho, hd, howner, hclock, htime, hpayload, rfl⟩ := hall
    exact ⟨⟨hids.1, hids.2, ho, hd, howner.1, howner.2, hclock, htime.1, htime.2, hpayload⟩, rfl⟩
  · intro hall
    obtain ⟨h, rfl⟩ := hall
    exact ⟨⟨h.mutationId, h.clipId⟩, h.ownerPortable, h.devicePortable, ⟨h.owner, h.device⟩,
      h.clock, ⟨h.notNegative, h.notFuture⟩, h.payload, rfl⟩

@[simp] theorem insertUnique_eq_ok {α : Type} [DecidableEq α] {set set' : Finset α} {value : α}
    {duplicate : CoreError} :
    insertUnique set value duplicate = .ok set' ↔ value ∉ set ∧ set' = insert value set := by
  unfold insertUnique
  split <;> simp_all [eq_comm]

/-- The fold's update, when it does not fail. -/
def MutationFold.next (fold : MutationFold) (mutation : SyncMutation) : MutationFold :=
  ⟨insert mutation.mutationId fold.mutationIds,
    insert (recordClock mutation) fold.recordClocks,
    appendKey fold.order (orderKey mutation),
    max fold.highest mutation.logicalClock⟩

theorem incorporateMutation_eq_ok {batch : SyncBatch} {latest : Int64}
    (fold : MutationFold) (mutation : SyncMutation) (fold' : MutationFold) :
    incorporateMutation decode batch latest fold mutation = .ok fold' ↔
      (ValidMutation decode batch latest mutation
        ∧ mutation.mutationId ∉ fold.mutationIds
        ∧ recordClock mutation ∉ fold.recordClocks)
      ∧ fold' = fold.next mutation := by
  simp only [incorporateMutation, do_eq_ok, validatedOrderKey_eq_ok, insertUnique_eq_ok,
    pure_eq_ok]
  constructor
  · intro hall
    obtain ⟨_, ⟨hvalid, rfl⟩, _, ⟨hid, rfl⟩, _, ⟨hclock, rfl⟩, rfl⟩ := hall
    exact ⟨⟨hvalid, hid, hclock⟩, rfl⟩
  · intro hall
    obtain ⟨⟨hvalid, hid, hclock⟩, rfl⟩ := hall
    exact ⟨_, ⟨hvalid, rfl⟩, _, ⟨hid, rfl⟩, _, ⟨hclock, rfl⟩, rfl⟩

/-! ## §4. The whole fold. -/

/-- The highest clock of a list of mutations, as the fold computes it. -/
def highestClock (mutations : List SyncMutation) : UInt64 :=
  runningMax SyncMutation.logicalClock 0 mutations

theorem foldl_next (mutations : List SyncMutation) :
    ∀ fold : MutationFold,
      (mutations.foldl MutationFold.next fold).order = fold.order ++ mutations.map orderKey
        ∧ (mutations.foldl MutationFold.next fold).highest
            = runningMax SyncMutation.logicalClock fold.highest mutations := by
  induction mutations with
  | nil => intro fold; simp [runningMax]
  | cons m ms ih =>
      intro fold
      rw [List.foldl_cons, (ih _).1, (ih _).2]
      simp [MutationFold.next, appendKey, runningMax]

/-- **The fold in closed form**: it succeeds iff every mutation is valid on its
own and neither a mutation id nor a record clock repeats, and it then carries
the order keys in input order and the highest clock. -/
theorem foldSpec {batch : SyncBatch} {latest : Int64} {mutations : List SyncMutation}
    {fold : MutationFold} :
    mutations.foldlM (incorporateMutation decode batch latest) MutationFold.empty = .ok fold ↔
      ((∀ m ∈ mutations, ValidMutation decode batch latest m)
        ∧ (mutations.map SyncMutation.mutationId).Nodup
        ∧ (mutations.map recordClock).Nodup)
      ∧ fold = mutations.foldl MutationFold.next MutationFold.empty := by
  rw [foldlM_eq_ok (incorporateMutation_eq_ok decode), goodRun_and, goodRun_and, goodRun_const,
    goodRun_fresh MutationFold.next MutationFold.mutationIds SyncMutation.mutationId
      (fun _ _ => rfl),
    goodRun_fresh MutationFold.next MutationFold.recordClocks recordClock (fun _ _ => rfl)]
  simp [MutationFold.empty]

/-! ## §5. The validator. -/

/-- Everything `validateSyncBatch` demands of its arguments. -/
structure Accepts (nowUnixMillis : Int64) (batch : SyncBatch) (policy : SyncPolicy) : Prop where
  now : 0 ≤ nowUnixMillis
  skew : 0 ≤ policy.maxFutureSkewMillis
  owner : IsPortable batch.ownerSubject
  device : IsPortable batch.sourceDeviceId
  nonempty : batch.mutations ≠ []
  size : batch.mutations.length ≤ policy.maxBatchSize
  valid : ∃ latest, checkedAddI64 nowUnixMillis policy.maxFutureSkewMillis = some latest
    ∧ ∀ m ∈ batch.mutations, ValidMutation decode batch latest m
  distinctIds : (batch.mutations.map SyncMutation.mutationId).Nodup
  distinctClocks : (batch.mutations.map recordClock).Nodup

/-- The value an accepted batch validates to. -/
def validated (batch : SyncBatch) : ValidatedSyncBatch :=
  ⟨batch.mutations.length, highestClock batch.mutations,
    sortedMutationIds (batch.mutations.map orderKey)⟩

/-- **Acceptance and result, in terms of the batch alone.** -/
theorem validateSyncBatch_eq_ok {nowUnixMillis : Int64} {batch : SyncBatch} {policy : SyncPolicy}
    {result : ValidatedSyncBatch} :
    validateSyncBatch decode nowUnixMillis batch policy = .ok result ↔
      Accepts decode nowUnixMillis batch policy ∧ result = validated batch := by
  simp only [validateSyncBatch, do_eq_ok, rejectIf_eq_ok, okOr_eq_ok, pure_eq_ok, not_or,
    validatePortableIdentifier_eq_ok, foldSpec, Int64.not_lt, not_lt, exists_unit]
  constructor
  · intro hall
    obtain ⟨htime, hpos, ho, hd, hne, hlen, latest, hlatest, fold, ⟨⟨hvalid, hids, hclocks⟩,
      rfl⟩, rfl⟩ := hall
    refine ⟨⟨htime.1, htime.2, ho, hd, hne, hlen, ⟨latest, hlatest, hvalid⟩, hids, hclocks⟩, ?_⟩
    rw [(foldl_next _ _).1, (foldl_next _ _).2]
    rfl
  · intro hall
    obtain ⟨h, rfl⟩ := hall
    obtain ⟨latest, hlatest, hvalid⟩ := h.valid
    have hpos : ¬ policy.maxBatchSize = 0 := by
      have hlen := h.size
      have := List.length_pos_of_ne_nil h.nonempty
      omega
    refine ⟨⟨h.now, h.skew⟩, hpos, h.owner, h.device, h.nonempty, h.size,
      latest, hlatest, _, ⟨⟨hvalid, h.distinctIds, h.distinctClocks⟩, rfl⟩, ?_⟩
    rw [(foldl_next _ _).1, (foldl_next _ _).2]
    rfl

/-! ## §6. Order independence and the canonical order. -/

/-- The canonical ids are the ids of the mutations in order-key order. -/
theorem sortedMutationIds_orderKey (mutations : List SyncMutation) :
    sortedMutationIds (mutations.map orderKey)
      = (canonical orderKey mutations).map SyncMutation.mutationId := by
  rw [sortedMutationIds, ← map_canonical, List.map_map]
  rfl

/-- Distinct mutation ids make distinct order keys. -/
theorem orderKeys_nodup {mutations : List SyncMutation}
    (hids : (mutations.map SyncMutation.mutationId).Nodup) : (mutations.map orderKey).Nodup := by
  have hcomp : mutations.map SyncMutation.mutationId
      = (mutations.map orderKey).map MutationOrderKey.mutationId := by
    rw [List.map_map]
    rfl
  rw [hcomp] at hids
  exact hids.of_map _

/-- The batch with its mutations rearranged. -/
def SyncBatch.withMutations (batch : SyncBatch) (mutations : List SyncMutation) : SyncBatch :=
  { batch with mutations := mutations }

theorem ValidMutation.withMutations {batch : SyncBatch} {latest : Int64} {mutation : SyncMutation}
    (h : ValidMutation decode batch latest mutation) (mutations : List SyncMutation) :
    ValidMutation decode (batch.withMutations mutations) latest mutation :=
  { h with }

/-- Acceptance does not look at the order of the mutations. -/
theorem Accepts.perm {now : Int64} {batch : SyncBatch} {policy : SyncPolicy}
    (h : Accepts decode now batch policy) {mutations : List SyncMutation}
    (hperm : mutations.Perm batch.mutations) :
    Accepts decode now (batch.withMutations mutations) policy where
  now := h.now
  skew := h.skew
  owner := h.owner
  device := h.device
  nonempty := fun hnil => h.nonempty (by
    have hnil' : mutations = [] := hnil
    exact (hnil' ▸ hperm).nil_eq.symm)
  size := hperm.length_eq ▸ h.size
  valid := by
    obtain ⟨latest, hlatest, hvalid⟩ := h.valid
    exact ⟨latest, hlatest, fun m hm =>
      (hvalid m (hperm.mem_iff.mp hm)).withMutations decode mutations⟩
  distinctIds := ((hperm.map _).nodup_iff).mpr h.distinctIds
  distinctClocks := ((hperm.map _).nodup_iff).mpr h.distinctClocks

/-- Neither does the validated value, once the ids are distinct. -/
theorem validated_perm {batch : SyncBatch} {mutations : List SyncMutation}
    (hids : (batch.mutations.map SyncMutation.mutationId).Nodup)
    (hperm : mutations.Perm batch.mutations) :
    validated (batch.withMutations mutations) = validated batch := by
  have hlength : mutations.length = batch.mutations.length := hperm.length_eq
  have hclock : highestClock mutations = highestClock batch.mutations := runningMax_perm hperm
  have horder : canonical orderKey mutations = canonical orderKey batch.mutations :=
    (canonical_eq_of_perm orderKey (orderKeys_nodup hids) hperm.symm).symm
  simp only [validated, SyncBatch.withMutations, hlength, hclock, sortedMutationIds_orderKey,
    horder]

/-- What it means for a result to be the canonical reading of a batch. -/
structure IsCanonical (batch : SyncBatch) (result : ValidatedSyncBatch) : Prop where
  noneLost : result.canonicalMutationIds.Perm (batch.mutations.map SyncMutation.mutationId)
  noneDuplicated : result.canonicalMutationIds.Nodup
  ordered : ∃ mutations : List SyncMutation,
    mutations.Perm batch.mutations
      ∧ result.canonicalMutationIds = mutations.map SyncMutation.mutationId
      ∧ mutations.Pairwise (fun a b => orderKey a < orderKey b)
      ∧ ∀ clip, (mutations.filter (·.clipId = clip)).Pairwise
          (fun a b => a.logicalClock < b.logicalClock)
  count : result.mutationCount = batch.mutations.length
  highestAttained : ∃ m ∈ batch.mutations, m.logicalClock = result.highestLogicalClock
  highestBound : ∀ m ∈ batch.mutations, m.logicalClock ≤ result.highestLogicalClock

/-- In key order, two mutations of one clip with distinct record clocks stand
in strictly increasing logical clock. -/
theorem clock_lt_of_orderKey_lt {a b : SyncMutation} (hkey : orderKey a < orderKey b)
    (hdevice : a.sourceDeviceId = b.sourceDeviceId) (hclip : a.clipId = b.clipId)
    (hrecord : recordClock a ≠ recordClock b) : a.logicalClock < b.logicalClock := by
  have hle : a.logicalClock.toNat ≤ b.logicalClock.toNat := by
    have hlex := MutationOrderKey.lt_iff.mp hkey
    rcases Prod.Lex.lt_iff.mp hlex with h | ⟨h, _⟩
    · exact le_of_lt h
    · exact le_of_eq h
  have hne : a.logicalClock ≠ b.logicalClock := by
    intro h
    exact hrecord (by simp only [recordClock, hclip, hdevice, h])
  rw [UInt64.lt_iff_toNat_lt]
  exact lt_of_le_of_ne hle (fun h => hne (UInt64.toNat_inj.mp h))

/-- **An accepted batch validates to its canonical reading.** -/
theorem Accepts.isCanonical {now : Int64} {batch : SyncBatch} {policy : SyncPolicy}
    (h : Accepts decode now batch policy) : IsCanonical batch (validated batch) := by
  obtain ⟨latest, _, hvalid⟩ := h.valid
  set ordered := canonical orderKey batch.mutations with hordered
  have hperm : ordered.Perm batch.mutations := canonical_perm orderKey _
  have hids : (validated batch).canonicalMutationIds = ordered.map SyncMutation.mutationId :=
    sortedMutationIds_orderKey batch.mutations
  have hstrict : ordered.Pairwise (fun a b => orderKey a < orderKey b) :=
    canonical_strict orderKey (orderKeys_nodup h.distinctIds)
  have hdevice : ∀ m ∈ ordered, m.sourceDeviceId = batch.sourceDeviceId :=
    fun m hm => (hvalid m (hperm.mem_iff.mp hm)).device
  have hrecords : ordered.Pairwise (fun a b => recordClock a ≠ recordClock b) := by
    have hnodup := (((hperm.map recordClock).nodup_iff).mpr h.distinctClocks)
    exact List.pairwise_map.mp hnodup
  -- two mutations of one clip differ in the clock, so the order of the keys is that of the
  -- clocks
  have hboth : ordered.Pairwise (fun a b => orderKey a < orderKey b
      ∧ recordClock a ≠ recordClock b ∧ a ∈ ordered ∧ b ∈ ordered) := by
    have hmem := List.Pairwise.and_mem.mp (hstrict.and hrecords)
    exact hmem.imp (fun ⟨ha, hb, hlt, hne⟩ => ⟨hlt, hne, ha, hb⟩)
  refine ⟨hids ▸ hperm.map _, ?_, ⟨ordered, hperm, hids, hstrict, ?_⟩, rfl, ?_, ?_⟩
  · rw [hids]
    exact ((hperm.map _).nodup_iff).mpr h.distinctIds
  · intro clip
    rw [List.pairwise_filter]
    refine hboth.imp ?_
    intro a b hall hca hcb
    obtain ⟨hlt, hne, ha, hb⟩ := hall
    have hclip : a.clipId = b.clipId := by simp_all
    exact clock_lt_of_orderKey_lt hlt ((hdevice a ha).trans (hdevice b hb).symm) hclip hne
  · exact runningMax_attained h.nonempty
  · exact fun m hm => le_runningMax hm

/-- **Batch validation is independent of the arrangement of its mutations, and
returns their canonical order.** -/
theorem validateSyncBatch_order_independent (now : Int64) (policy : SyncPolicy)
    (batch : SyncBatch) :
    (∀ mutations : List SyncMutation, mutations.Perm batch.mutations →
        ∀ result, validateSyncBatch decode now (batch.withMutations mutations) policy = .ok result
          ↔ validateSyncBatch decode now batch policy = .ok result)
      ∧ ∀ result, validateSyncBatch decode now batch policy = .ok result →
          IsCanonical batch result := by
  constructor
  · intro mutations hperm result
    rw [validateSyncBatch_eq_ok, validateSyncBatch_eq_ok]
    constructor
    · intro hall
      obtain ⟨hacc, rfl⟩ := hall
      have hacc' : Accepts decode now batch policy := hacc.perm decode hperm.symm
      exact ⟨hacc', validated_perm hacc'.distinctIds hperm⟩
    · intro hall
      obtain ⟨hacc, rfl⟩ := hall
      exact ⟨hacc.perm decode hperm, (validated_perm hacc.distinctIds hperm).symm⟩
  · intro result hok
    obtain ⟨hacc, rfl⟩ := (validateSyncBatch_eq_ok decode).mp hok
    exact hacc.isCanonical decode

end Validator

end ClipTown.Sync
