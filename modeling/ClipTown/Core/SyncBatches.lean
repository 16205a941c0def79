/-
  ClipTown.Core.SyncBatches — which batches are accepted, and how the runs on
  several batches relate (`src/sync.rs`).

  `Sync.validateSyncBatch_eq_ok` reads acceptance back as the conditions the
  fold checks, word by word.  Here they become conditions on integers and on
  pairs of mutations, and batches are cut and joined:

    • `validateSyncBatch_accepts_iff` — the exact condition for acceptance,
    • `Accepts.append_iff` — two accepted batches join iff nothing repeats
      across them,
    • `validateSyncBatch_split_merge` — parts and joins of accepted batches
      keep the canonical order.
-/
import ClipTown.Core.Sync
import ClipTown.Lib.Base64

namespace ClipTown.Sync

open Checks CheckedArith CanonicalOrder Validation

/-! ## §1. Payload hashes. -/

/-- The documented behaviour of the STANDARD engine: canonical padding, no
trailing bits, so a text decodes to some bytes iff it is their encoding. -/
def IsStandardEngine (decode : String → Option (List UInt8)) : Prop :=
  ∀ value bytes, decode value = some bytes ↔ value = Base64.standard.encode bytes

/-- The canonical base64 text of 32 bytes. -/
def IsCanonicalSha256 (value : String) : Prop :=
  ∃ digest : List UInt8, digest.length = 32 ∧ value = Base64.standard.encode digest

theorem length_utf8 (value : String) : (utf8 value).length = value.utf8ByteSize := by
  unfold utf8
  simp

/-- An ASCII text has as many bytes as characters. -/
theorem utf8ByteSize_of_ascii (text : List Char) (hascii : ∀ c ∈ text, c.val ≤ 127) :
    (String.ofList text).utf8ByteSize = text.length := by
  induction text with
  | nil => rfl
  | cons c text ih =>
      have hsize : c.utf8Size = 1 := Char.utf8Size_eq_one_iff.mpr (hascii c List.mem_cons_self)
      have hrest := ih (fun d hd => hascii d (List.mem_cons_of_mem c hd))
      rw [String.ofList_cons, String.utf8ByteSize_append, String.utf8ByteSize_singleton, hsize,
        hrest, List.length_cons]
      omega

theorem length_utf8_encode (bytes : List UInt8) :
    (utf8 (Base64.standard.encode bytes)).length = 4 * ((bytes.length + 2) / 3) := by
  rw [length_utf8, Base64.Alphabet.encode,
    utf8ByteSize_of_ascii _ (Base64.Alphabet.ascii_of_mem_encodeChars bytes),
    Base64.Alphabet.length_encodeChars]

/-- The pre-decode filter for 32 bytes lets 44 characters through. -/
theorem encodedLimit_sha256 : encodedLimit sha256Bytes = some 44 := by decide

/-- The payload check is the definition of a canonical hash. -/
theorem validateSha256Base64_eq_ok {decode : String → Option (List UInt8)}
    (hdecode : IsStandardEngine decode) {value : String} :
    validateSha256Base64 decode value = .ok () ↔ IsCanonicalSha256 value := by
  have h32 : sha256Bytes.toNat = 32 := rfl
  unfold validateSha256Base64
  simp only [do_eq_ok, rejectIf_eq_ok, decodeBase64Bounded_eq_ok, ne_eq, not_not, h32]
  constructor
  · intro hall
    obtain ⟨digest, ⟨_, _, hdigest, _, _⟩, hlen⟩ := hall
    exact ⟨digest, hlen, (hdecode value digest).mp hdigest⟩
  · intro hall
    obtain ⟨digest, hlen, hvalue⟩ := hall
    have hbytes : (utf8 value).length = 44 := by
      rw [hvalue, length_utf8_encode, hlen]
    have hne : utf8 value ≠ [] := List.length_pos_iff.mp (by omega)
    have hdigest : digest ≠ [] := List.length_pos_iff.mp (by omega)
    refine ⟨digest, ⟨hne, ⟨44, encodedLimit_sha256, ?_⟩, ?_, hdigest, ?_⟩, hlen⟩
    · rw [hbytes]
      rfl
    · exact (hdecode value digest).mpr hvalue
    · omega

/-! ## §2. Acceptance, in integers and pairs. -/

/-- What a mutation must be on its own, up to the horizon `now + skew`. -/
structure AcceptableMutation (batch : SyncBatch) (horizon : Int) (mutation : SyncMutation) :
    Prop where
  mutationId_ne_nil : mutation.mutationId ≠ 0
  clipId_ne_nil : mutation.clipId ≠ 0
  owner : mutation.ownerSubject = batch.ownerSubject
  device : mutation.sourceDeviceId = batch.sourceDeviceId
  clock_le : mutation.logicalClock.toNat ≤ 2 ^ 63 - 1
  created_nonneg : 0 ≤ mutation.createdAtUnixMillis.toInt
  created_le : mutation.createdAtUnixMillis.toInt ≤ horizon
  payload : IsCanonicalSha256 mutation.payloadSha256Base64

/-- What a batch must be. -/
structure Acceptable (now : Int64) (batch : SyncBatch) (policy : SyncPolicy) : Prop where
  now_nonneg : 0 ≤ now.toInt
  skew_nonneg : 0 ≤ policy.maxFutureSkewMillis.toInt
  horizon_fits : FitsI64 (now.toInt + policy.maxFutureSkewMillis.toInt)
  one_le : 1 ≤ batch.mutations.length
  le_max : batch.mutations.length ≤ policy.maxBatchSize
  owner_portable : IsPortable batch.ownerSubject
  device_portable : IsPortable batch.sourceDeviceId
  mutations : ∀ m ∈ batch.mutations,
    AcceptableMutation batch (now.toInt + policy.maxFutureSkewMillis.toInt) m
  ids_distinct : batch.mutations.Pairwise (fun a b => a.mutationId ≠ b.mutationId)
  records_distinct : batch.mutations.Pairwise
    (fun a b => (a.clipId, a.logicalClock) ≠ (b.clipId, b.logicalClock))

theorem isNil_eq_false {id : Uuid} : isNil id = false ↔ id ≠ 0 := by
  unfold isNil
  rw [beq_eq_false_iff_ne, ne_eq, ne_eq, Fin.ext_iff]
  rfl

/-- The word bound on a clock is the bound of a signed column. -/
theorem le_maxLogicalClock {clock : UInt64} :
    clock ≤ maxLogicalClock ↔ clock.toNat ≤ 2 ^ 63 - 1 := by
  rw [UInt64.le_iff_toNat_le]
  rfl

/-- In a batch whose identifiers are portable, the per-mutation checks are the
condition above. -/
theorem validMutation_iff {decode : String → Option (List UInt8)}
    (hdecode : IsStandardEngine decode) {batch : SyncBatch} {latest : Int64}
    (howner : IsPortable batch.ownerSubject) (hdevice : IsPortable batch.sourceDeviceId)
    {mutation : SyncMutation} :
    ValidMutation decode batch latest mutation
      ↔ AcceptableMutation batch latest.toInt mutation := by
  have hzero : (0 : Int64).toInt = 0 := rfl
  constructor
  · intro h
    have hcreated := Int64.le_iff_toInt_le.mp h.notNegative
    rw [hzero] at hcreated
    exact ⟨isNil_eq_false.mp h.mutationId, isNil_eq_false.mp h.clipId, h.owner, h.device,
      le_maxLogicalClock.mp h.clock, hcreated, Int64.le_iff_toInt_le.mp h.notFuture,
      (validateSha256Base64_eq_ok hdecode).mp h.payload⟩
  · intro h
    refine ⟨isNil_eq_false.mpr h.mutationId_ne_nil, isNil_eq_false.mpr h.clipId_ne_nil,
      h.owner ▸ howner, h.device ▸ hdevice, h.owner, h.device, le_maxLogicalClock.mpr h.clock_le,
      ?_, Int64.le_iff_toInt_le.mpr h.created_le,
      (validateSha256Base64_eq_ok hdecode).mpr h.payload⟩
    rw [Int64.le_iff_toInt_le, hzero]
    exact h.created_nonneg

/-- Where all mutations carry one device, the record clocks are distinct iff the
clips and clocks are. -/
theorem recordClocks_nodup_iff {mutations : List SyncMutation} {device : String}
    (hdevice : ∀ m ∈ mutations, m.sourceDeviceId = device) :
    (mutations.map recordClock).Nodup
      ↔ mutations.Pairwise
          (fun a b => (a.clipId, a.logicalClock) ≠ (b.clipId, b.logicalClock)) := by
  rw [List.Nodup, List.pairwise_map]
  refine List.Pairwise.iff_of_mem ?_
  intro a b ha hb
  simp [recordClock, hdevice a ha, hdevice b hb]

/-- **`Accepts`, in integers and pairs.** -/
theorem accepts_iff {decode : String → Option (List UInt8)} (hdecode : IsStandardEngine decode)
    {now : Int64} {batch : SyncBatch} {policy : SyncPolicy} :
    Accepts decode now batch policy ↔ Acceptable now batch policy := by
  have hzero : (0 : Int64).toInt = 0 := rfl
  constructor
  · intro h
    obtain ⟨latest, hlatest, hvalid⟩ := h.valid
    -- the horizon is the sum in the integers, and it fits
    obtain ⟨hfits, heq⟩ := checkedAddI64_eq_some.mp hlatest
    have hnow := Int64.le_iff_toInt_le.mp h.now
    have hskew := Int64.le_iff_toInt_le.mp h.skew
    rw [hzero] at hnow hskew
    exact
      { now_nonneg := hnow
        skew_nonneg := hskew
        horizon_fits := hfits
        one_le := List.length_pos_of_ne_nil h.nonempty
        le_max := h.size
        owner_portable := h.owner
        device_portable := h.device
        mutations := fun m hm =>
          heq ▸ (validMutation_iff hdecode h.owner h.device).mp (hvalid m hm)
        ids_distinct := List.pairwise_map.mp h.distinctIds
        records_distinct :=
          (recordClocks_nodup_iff (fun m hm => (hvalid m hm).device)).mp h.distinctClocks }
  · intro h
    obtain ⟨latest, hlatest⟩ : ∃ latest,
        checkedAddI64 now policy.maxFutureSkewMillis = some latest :=
      ⟨_, if_pos h.horizon_fits⟩
    have heq := (checkedAddI64_eq_some.mp hlatest).2
    have hvalid : ∀ m ∈ batch.mutations, ValidMutation decode batch latest m := fun m hm =>
      (validMutation_iff hdecode h.owner_portable h.device_portable).mpr (heq ▸ h.mutations m hm)
    exact
      { now := Int64.le_iff_toInt_le.mpr (hzero ▸ h.now_nonneg)
        skew := Int64.le_iff_toInt_le.mpr (hzero ▸ h.skew_nonneg)
        owner := h.owner_portable
        device := h.device_portable
        nonempty := List.length_pos_iff.mp h.one_le
        size := h.le_max
        valid := ⟨latest, hlatest, hvalid⟩
        distinctIds := List.pairwise_map.mpr h.ids_distinct
        distinctClocks :=
          (recordClocks_nodup_iff (fun m hm => (hvalid m hm).device)).mpr h.records_distinct }

/-- The highest clock of an accepted batch is one of its clocks. -/
theorem Accepts.highestClock_le {decode : String → Option (List UInt8)} {now : Int64}
    {batch : SyncBatch} {policy : SyncPolicy} (h : Accepts decode now batch policy) :
    (∀ m ∈ batch.mutations, m.logicalClock.toNat < 2 ^ 63)
      ∧ (highestClock batch.mutations).toNat < 2 ^ 63 := by
  obtain ⟨latest, _, hvalid⟩ := h.valid
  have hclocks : ∀ m ∈ batch.mutations, m.logicalClock.toNat < 2 ^ 63 := by
    intro m hm
    have := le_maxLogicalClock.mp (hvalid m hm).clock
    omega
  obtain ⟨m, hm, heq⟩ := runningMax_attained (f := SyncMutation.logicalClock) h.nonempty
  refine ⟨hclocks, ?_⟩
  rw [highestClock, ← heq]
  exact hclocks m hm

/-- **A batch is accepted iff it is acceptable**, and every clock of an accepted
batch, the reported one too, fits a signed 64-bit column. -/
theorem validateSyncBatch_accepts_iff (decode : String → Option (List UInt8))
    (hdecode : IsStandardEngine decode) (now : Int64) (batch : SyncBatch) (policy : SyncPolicy) :
    ((∃ result, validateSyncBatch decode now batch policy = .ok result)
        ↔ Acceptable now batch policy)
      ∧ ∀ result, validateSyncBatch decode now batch policy = .ok result →
          (∀ m ∈ batch.mutations, m.logicalClock.toNat < 2 ^ 63)
            ∧ result.highestLogicalClock.toNat < 2 ^ 63 := by
  constructor
  · rw [← accepts_iff hdecode]
    constructor
    · intro hall
      obtain ⟨result, hok⟩ := hall
      exact ((validateSyncBatch_eq_ok decode).mp hok).1
    · intro h
      exact ⟨_, (validateSyncBatch_eq_ok decode).mpr ⟨h, rfl⟩⟩
  · intro result hok
    obtain ⟨h, rfl⟩ := (validateSyncBatch_eq_ok decode).mp hok
    exact h.highestClock_le

/-- A mutation of the two-device account used below. -/
def sampleMutation (id clip : Uuid) (clock : UInt64) : SyncMutation where
  mutationId := id
  clipId := clip
  ownerSubject := "user:1234"
  sourceDeviceId := "device:a"
  kind := .upsert
  logicalClock := clock
  createdAtUnixMillis := 1000
  payloadSha256Base64 := Base64.standard.encode (List.replicate 32 0)

/-- A batch of that account. -/
def sampleBatch (mutations : List SyncMutation) : SyncBatch :=
  ⟨"user:1234", "device:a", mutations⟩

/-- Two mutations of distinct clips are accepted. -/
theorem validateSyncBatch_accepts_sample :
    ∃ result, validateSyncBatch Base64.standard.decode 1000
        (sampleBatch [sampleMutation 2 2 9, sampleMutation 1 1 7]) .default = .ok result := by
  refine (validateSyncBatch_accepts_iff _ (fun _ _ => Base64.Alphabet.decode_eq_some) _ _ _).1.mpr
    ⟨by decide, by decide, by decide, by decide, by decide,
      validatePortableIdentifier_eq_ok.mp (by decide : _ = Except.ok ()),
      validatePortableIdentifier_eq_ok.mp (by decide : _ = Except.ok ()), ?_,
      by decide, by decide⟩
  intro m hm
  have hcanonical : IsCanonicalSha256 (Base64.standard.encode (List.replicate 32 0)) :=
    ⟨List.replicate 32 0, rfl, rfl⟩
  rcases List.mem_pair.mp hm with rfl | rfl
  · exact ⟨by decide, by decide, rfl, rfl, by decide, by decide, by decide, hcanonical⟩
  · exact ⟨by decide, by decide, rfl, rfl, by decide, by decide, by decide, hcanonical⟩

/-! ## §3. Parts and joins. -/

/-- The batch of `left`'s account that carries both lists of mutations. -/
def SyncBatch.append (left right : SyncBatch) : SyncBatch :=
  left.withMutations (left.mutations ++ right.mutations)

/-- No mutation id and no pair of clip and clock occurs in both batches. -/
structure ShareNothing (left right : SyncBatch) : Prop where
  ids : ∀ a ∈ left.mutations, ∀ b ∈ right.mutations, a.mutationId ≠ b.mutationId
  records : ∀ a ∈ left.mutations, ∀ b ∈ right.mutations,
    (a.clipId, a.logicalClock) ≠ (b.clipId, b.logicalClock)

section PartsAndJoins

variable {decode : String → Option (List UInt8)} {now : Int64} {policy : SyncPolicy}
  {batch left right : SyncBatch}

/-- A mutation is judged by the account of its batch alone. -/
theorem ValidMutation.of_same_account {batch' : SyncBatch} {latest : Int64}
    {mutation : SyncMutation} (h : ValidMutation decode batch latest mutation)
    (howner : batch.ownerSubject = batch'.ownerSubject)
    (hdevice : batch.sourceDeviceId = batch'.sourceDeviceId) :
    ValidMutation decode batch' latest mutation :=
  { h with owner := h.owner.trans howner, device := h.device.trans hdevice }

theorem Accepts.device_eq (h : Accepts decode now batch policy) :
    ∀ m ∈ batch.mutations, m.sourceDeviceId = batch.sourceDeviceId := by
  obtain ⟨latest, _, hvalid⟩ := h.valid
  exact fun m hm => (hvalid m hm).device

/-- **A non-empty part of an accepted batch is accepted.** -/
theorem Accepts.sublist (h : Accepts decode now batch policy) {part : List SyncMutation}
    (hpart : part.Sublist batch.mutations) (hne : part ≠ []) :
    Accepts decode now (batch.withMutations part) policy where
  now := h.now
  skew := h.skew
  owner := h.owner
  device := h.device
  nonempty := hne
  size := le_trans hpart.length_le h.size
  valid := by
    obtain ⟨latest, hlatest, hvalid⟩ := h.valid
    exact ⟨latest, hlatest, fun m hm =>
      (hvalid m (hpart.subset hm)).withMutations decode part⟩
  distinctIds := h.distinctIds.sublist (hpart.map _)
  distinctClocks := h.distinctClocks.sublist (hpart.map _)

/-- **Two accepted batches of one account join iff they share nothing.** -/
theorem Accepts.append_iff (hleft : Accepts decode now left policy)
    (hright : Accepts decode now right policy)
    (howner : left.ownerSubject = right.ownerSubject)
    (hdevice : left.sourceDeviceId = right.sourceDeviceId)
    (hsize : left.mutations.length + right.mutations.length ≤ policy.maxBatchSize) :
    Accepts decode now (left.append right) policy ↔ ShareNothing left right := by
  have hdevices : ∀ m ∈ left.mutations ++ right.mutations,
      m.sourceDeviceId = left.sourceDeviceId := by
    intro m hm
    rcases List.mem_append.mp hm with hl | hr
    · exact hleft.device_eq m hl
    · exact (hright.device_eq m hr).trans hdevice.symm
  have hrecords := recordClocks_nodup_iff hdevices
  rw [List.pairwise_append] at hrecords
  constructor
  · intro h
    have hids := List.pairwise_append.mp (List.pairwise_map.mp h.distinctIds)
    exact ⟨hids.2.2, (hrecords.mp h.distinctClocks).2.2⟩
  · intro hshare
    obtain ⟨latest, hlatest, hvalidLeft⟩ := hleft.valid
    obtain ⟨latest', hlatest', hvalidRight⟩ := hright.valid
    -- both horizons are the one sum of the time and the skew
    obtain rfl : latest = latest' := Option.some.inj (hlatest.symm.trans hlatest')
    have hvalid : ∀ m ∈ left.mutations ++ right.mutations,
        ValidMutation decode (left.append right) latest m := by
      intro m hm
      rcases List.mem_append.mp hm with hl | hr
      · exact (hvalidLeft m hl).of_same_account rfl rfl
      · exact (hvalidRight m hr).of_same_account howner.symm hdevice.symm
    have hclocksLeft := (recordClocks_nodup_iff hleft.device_eq).mp hleft.distinctClocks
    have hclocksRight := (recordClocks_nodup_iff hright.device_eq).mp hright.distinctClocks
    exact
      { now := hleft.now
        skew := hleft.skew
        owner := hleft.owner
        device := hleft.device
        nonempty := by
          intro hnil
          exact hleft.nonempty (List.append_eq_nil_iff.mp hnil).1
        size := by
          show (left.mutations ++ right.mutations).length ≤ policy.maxBatchSize
          rw [List.length_append]
          exact hsize
        valid := ⟨latest, hlatest, hvalid⟩
        distinctIds := List.pairwise_map.mpr (List.pairwise_append.mpr
          ⟨List.pairwise_map.mp hleft.distinctIds, List.pairwise_map.mp hright.distinctIds,
            hshare.ids⟩)
        distinctClocks := hrecords.mpr ⟨hclocksLeft, hclocksRight, hshare.records⟩ }

/-- The canonical ids of some of the mutations stand in the order they have
among all of them. -/
theorem validated_sublist {part mutations : List SyncMutation}
    (hids : (mutations.map SyncMutation.mutationId).Nodup) (hpart : part.Sublist mutations) :
    sortedMutationIds (part.map orderKey)
      = (sortedMutationIds (mutations.map orderKey)).filter
          (fun id => id ∈ part.map SyncMutation.mutationId) := by
  rw [sortedMutationIds_orderKey, sortedMutationIds_orderKey, List.filter_map,
    canonical_of_sublist orderKey (orderKeys_nodup hids) hpart]
  congr 1
  refine List.filter_congr ?_
  intro m hm
  rw [Function.comp_apply, decide_eq_decide]
  -- the id of a member picks the member out
  constructor
  · exact fun hmem => List.mem_map_of_mem hmem
  · intro hmem
    obtain ⟨m', hm', heq⟩ := List.mem_map.mp hmem
    have hmember : m ∈ mutations := (mem_canonical orderKey).mp hm
    rwa [List.inj_on_of_nodup_map hids (hpart.subset hm') hmember heq] at hm'

end PartsAndJoins

/-- **Cutting and joining batches is consistent.**  Two accepted batches of one
account join iff they share nothing, and then each keeps its order inside the
join, whose highest clock is the larger of the two; a non-empty part of an
accepted batch is accepted, in the order the whole batch gives it. -/
theorem validateSyncBatch_split_merge (decode : String → Option (List UInt8)) (now : Int64)
    (policy : SyncPolicy) :
    (∀ (left right : SyncBatch) (leftResult rightResult : ValidatedSyncBatch),
        left.ownerSubject = right.ownerSubject →
        left.sourceDeviceId = right.sourceDeviceId →
        validateSyncBatch decode now left policy = .ok leftResult →
        validateSyncBatch decode now right policy = .ok rightResult →
        left.mutations.length + right.mutations.length ≤ policy.maxBatchSize →
        ((∃ merged, validateSyncBatch decode now (left.append right) policy = .ok merged)
            ↔ ShareNothing left right)
          ∧ ∀ merged, validateSyncBatch decode now (left.append right) policy = .ok merged →
              leftResult.canonicalMutationIds.Sublist merged.canonicalMutationIds
                ∧ rightResult.canonicalMutationIds.Sublist merged.canonicalMutationIds
                ∧ merged.highestLogicalClock
                    = max leftResult.highestLogicalClock rightResult.highestLogicalClock)
      ∧ ∀ (batch : SyncBatch) (result : ValidatedSyncBatch),
          validateSyncBatch decode now batch policy = .ok result →
          ∀ part : List SyncMutation, part.Sublist batch.mutations → part ≠ [] →
            ∃ cut, validateSyncBatch decode now (batch.withMutations part) policy = .ok cut
              ∧ cut.canonicalMutationIds
                  = result.canonicalMutationIds.filter
                      (fun id => id ∈ part.map SyncMutation.mutationId) := by
  constructor
  · intro left right leftResult rightResult howner hdevice hokLeft hokRight hsize
    obtain ⟨hleft, rfl⟩ := (validateSyncBatch_eq_ok decode).mp hokLeft
    obtain ⟨hright, rfl⟩ := (validateSyncBatch_eq_ok decode).mp hokRight
    -- the checks of each part still hold in the join; only its own pairs are new
    have hjoin := hleft.append_iff hright howner hdevice hsize
    constructor
    · rw [← hjoin]
      constructor
      · intro hall
        obtain ⟨merged, hok⟩ := hall
        exact ((validateSyncBatch_eq_ok decode).mp hok).1
      · intro h
        exact ⟨_, (validateSyncBatch_eq_ok decode).mpr ⟨h, rfl⟩⟩
    · intro merged hok
      obtain ⟨h, rfl⟩ := (validateSyncBatch_eq_ok decode).mp hok
      refine ⟨?_, ?_, runningMax_append _ _ _⟩
      -- the ids of a part are those of the whole, filtered
      · show (sortedMutationIds (left.mutations.map orderKey)).Sublist _
        rw [validated_sublist h.distinctIds (List.sublist_append_left _ right.mutations)]
        exact List.filter_sublist
      · show (sortedMutationIds (right.mutations.map orderKey)).Sublist _
        rw [validated_sublist h.distinctIds (List.sublist_append_right left.mutations _)]
        exact List.filter_sublist
  · intro batch result hok part hpart hne
    obtain ⟨h, rfl⟩ := (validateSyncBatch_eq_ok decode).mp hok
    exact ⟨_, (validateSyncBatch_eq_ok decode).mpr ⟨h.sublist hpart hne, rfl⟩,
      validated_sublist h.distinctIds hpart⟩

/-- Two one-mutation batches of one account join. -/
theorem validateSyncBatch_split_merge_sample :
    ∃ merged, validateSyncBatch Base64.standard.decode 1000
        ((sampleBatch [sampleMutation 2 2 9]).append (sampleBatch [sampleMutation 1 1 7]))
        .default = .ok merged := by
  have hleft : validateSyncBatch Base64.standard.decode 1000
      (sampleBatch [sampleMutation 2 2 9]) .default = .ok ⟨1, 9, [2]⟩ := by decide +kernel
  have hright : validateSyncBatch Base64.standard.decode 1000
      (sampleBatch [sampleMutation 1 1 7]) .default = .ok ⟨1, 7, [1]⟩ := by decide +kernel
  have hjoin := (validateSyncBatch_split_merge Base64.standard.decode 1000 .default).1
    (sampleBatch [sampleMutation 2 2 9]) (sampleBatch [sampleMutation 1 1 7]) _ _
    rfl rfl hleft hright (by decide)
  exact hjoin.1.mpr ⟨by decide, by decide⟩

end ClipTown.Sync
