/-
  ClipTown.Embeddings.Registry — the model registry beside the embeddings, over
  whole runs (`db/schema/postgres/0100_cliptown_embeddings.sql`).

  `embedding_models` is updated in place, also by the seed upsert that every
  deployment runs again; `clip_embeddings` carries copies of the model's three
  name parts and of its `mrl_prefix_valid`, made by the writer.  The constraints
  tie the copies to the registry by `model_key` alone.

    • `contract_iff` — in a state the constraints allow, the published
      invariants hold iff every embedding fits its registry row,
    • `fits_of_two_colons` — a key with two colons is cut in one way only,
    • `writeFits_iff`, `embeddings_keep_contract` — what a write must not do,
      and what holds over runs that do not do it,
    • `contract_broken` — accepted runs that break the invariants.
-/
import ClipTown.Embeddings.Contract
import ClipTown.Lib.Separators
import ClipTown.Lib.Transitions
import Mathlib.Algebra.Order.Ring.Rat
import Mathlib.Tactic.Linarith

namespace ClipTown.Embeddings

open Relational Separators Transitions

/-! ## §1. The registry. -/

/-- A row of `cliptown.embedding_models`. -/
structure RegistryRow extends EmbeddingModel where
  nativeDims : Int
  mrl : Bool
  normalizedByProvider : Bool
  family : String

/-- The primary key. -/
def RegistryRow.key (m : RegistryRow) : String := m.modelKey

/-- The generated column `mrl_prefix_valid`. -/
def RegistryRow.mrlPrefixValid (m : RegistryRow) : Bool := m.mrl && 1024 ≤ m.nativeDims

/-- The providers the registry admits. -/
def registryProviders : List String :=
  ["baai", "google", "intfloat", "nvidia", "openai", "qwen", "voyage"]

/-- `octet_length(value) between lower and upper`. -/
def octetsBetween (value : String) (lower upper : Nat) : Prop :=
  lower ≤ value.utf8ByteSize ∧ value.utf8ByteSize ≤ upper

instance (value : String) (lower upper : Nat) : Decidable (octetsBetween value lower upper) := by
  unfold octetsBetween; infer_instance

/-- The CHECKs on a registry row. -/
@[mk_iff]
structure RegistryRow.RowValid (m : RegistryRow) : Prop where
  modelKey : octetsBetween m.modelKey 3 200
  provider : m.provider ∈ registryProviders
  modelName : octetsBetween m.modelName 1 160
  modelVersion : octetsBetween m.modelVersion 1 40
  nativeDims : 1 ≤ m.nativeDims ∧ m.nativeDims ≤ 4100
  family : octetsBetween m.family 1 80
  derived : m.modelKey = derivedModelKey m.provider m.modelName m.modelVersion

instance : DecidablePred RegistryRow.RowValid := fun m =>
  decidable_of_iff _ (RegistryRow.rowValid_iff m).symm

/-- The registry row of a contract entry, as the seed inserts it. -/
def RegisteredModel.toRow (m : RegisteredModel) : RegistryRow :=
  ⟨⟨m.key, m.provider, m.modelName, m.modelVersion⟩, m.nativeDims, m.mrl,
    m.normalizedByProvider, m.family⟩

/-- `on conflict (model_key) do update set …`. -/
def seedMerge (m excluded : RegistryRow) : RegistryRow :=
  { m with
    nativeDims := excluded.nativeDims
    mrl := excluded.mrl
    normalizedByProvider := excluded.normalizedByProvider
    family := excluded.family }

/-- The seed of the generated schema. -/
def seed : Upsert RegistryRow RegistryRow.key where
  rows := registeredModels.map RegisteredModel.toRow
  distinct := by
    rw [List.map_map]
    exact registeredModels_keys

/-- **Every row of the seed passes its own checks.** -/
theorem seed_rowValid : ∀ m ∈ seed.rows, m.RowValid := by
  intro m hm
  obtain ⟨entry, hentry, rfl⟩ := List.mem_map.mp hm
  obtain ⟨hlo, hhi, hkey⟩ := registeredModels_valid entry hentry
  have htexts : ∀ m ∈ registeredModels, octetsBetween m.key 3 200 ∧ m.provider ∈ registryProviders
      ∧ octetsBetween m.modelName 1 160 ∧ octetsBetween m.modelVersion 1 40
      ∧ octetsBetween m.family 1 80 := by decide
  obtain ⟨hlen, hprovider, hname, hversion, hfamily⟩ := htexts entry hentry
  unfold embeddingWidth at hhi
  exact ⟨hlen, hprovider, hname, hversion,
    ⟨by show (1 : Int) ≤ entry.nativeDims; omega, by show (entry.nativeDims : Int) ≤ 4100; omega⟩,
    hfamily, hkey⟩

/-! ## §2. Runs. -/

section Runs

variable (Uuid Vec Json : Type)

/-- The two tables. -/
structure Store where
  registry : List RegistryRow
  embeddings : List (ClipEmbedding Uuid Vec Json)

/-- One statement on one table. -/
inductive StoreWrite
  | seed (upsert : Upsert RegistryRow RegistryRow.key)
  | registry (statement : Statement RegistryRow)
  | embeddings (statement : Statement (ClipEmbedding Uuid Vec Json))

variable {Uuid Vec Json}

/-- The state after a write, before the constraints are checked. -/
def Store.write (store : Store Uuid Vec Json) : StoreWrite Uuid Vec Json → Store Uuid Vec Json
  | .seed upsert => { store with registry := upsert.apply seedMerge store.registry }
  | .registry statement => { store with registry := statement.apply store.registry }
  | .embeddings statement => { store with embeddings := statement.apply store.embeddings }

/-- Every constraint of the two tables. -/
def StoreValid (pg : PgVector Vec) (store : Store Uuid Vec Json) : Prop :=
  Unique RegistryRow.key store.registry
    ∧ Check RegistryRow.RowValid store.registry
    ∧ ClipEmbeddingsValid pg (store.registry.map RegistryRow.toEmbeddingModel) store.embeddings

variable [DecidableEq Uuid]

instance (pg : PgVector Vec) : DecidablePred (@StoreValid Uuid Vec Json pg) := fun store => by
  unfold StoreValid; infer_instance

/-- Any sequence of writes that the constraints accept, from empty tables. -/
def storeWrites (pg : PgVector Vec) :
    System (Store Uuid Vec Json) (StoreWrite Uuid Vec Json) :=
  System.guarded (fun store => store = ⟨[], []⟩) Store.write (StoreValid pg)

theorem storeValid_of_reachable {pg : PgVector Vec} {store : Store Uuid Vec Json}
    (h : (storeWrites pg).Reachable store) : StoreValid pg store := by
  apply System.ok_of_reachable _ h
  intro store hstore
  rw [hstore]
  refine ⟨?_, ?_, ⟨?_, ?_, ?_, ?_⟩⟩
  all_goals first | exact List.nodup_nil | exact fun _ hmem => absurd hmem List.not_mem_nil

end Runs

/-! ## §3. Model keys. -/

/-- **Keys cut at the same places have the same parts.** -/
theorem derivedModelKey_inj {p n v p' n' v' : String}
    (hkey : derivedModelKey p n v = derivedModelKey p' n' v') (hp : p.length = p'.length)
    (hn : n.length = n'.length) : p = p' ∧ n = n' ∧ v = v' := by
  have hchars := congrArg String.toList hkey
  simp only [derivedModelKey, String.toList_append, List.append_assoc] at hchars
  rw [← String.length_toList, ← String.length_toList] at hp hn
  obtain ⟨hp', hrest⟩ := List.append_inj hchars hp
  obtain ⟨_, hrest⟩ := List.append_inj hrest rfl
  obtain ⟨hn', hrest⟩ := List.append_inj hrest hn
  obtain ⟨_, hv'⟩ := List.append_inj hrest rfl
  exact ⟨String.toList_inj.mp hp', String.toList_inj.mp hn', String.toList_inj.mp hv'⟩

/-- **A key with two colons is cut in one way only.** -/
theorem parts_of_two_colons {p n v p' n' v' : String}
    (hkey : derivedModelKey p n v = derivedModelKey p' n' v')
    (htwo : (derivedModelKey p n v).toList.count ':' = 2) :
    p.length = p'.length ∧ n.length = n'.length := by
  -- the two colons of the derivation are the only ones, on both sides
  have hfree : ∀ {p n v : String}, (derivedModelKey p n v).toList.count ':' = 2 →
      ':' ∉ p.toList ∧ ':' ∉ n.toList := by
    intro p n v h
    have hcolon : (":" : String).toList.count ':' = 1 := by decide
    simp only [derivedModelKey, String.toList_append, List.count_append, hcolon] at h
    exact ⟨List.count_eq_zero.mp (by omega), List.count_eq_zero.mp (by omega)⟩
  obtain ⟨hp, hn⟩ := hfree htwo
  obtain ⟨hp', hn'⟩ := hfree (hkey ▸ htwo)
  have hcolon : (":" : String).toList = [':'] := by decide
  have hchars := congrArg String.toList hkey
  simp only [derivedModelKey, String.toList_append, List.append_assoc, hcolon,
    List.singleton_append] at hchars
  obtain ⟨hpp, hrest⟩ := eq_of_append_cons_eq hp hp' hchars
  obtain ⟨hnn, _⟩ := eq_of_append_cons_eq hn hn' hrest
  exact ⟨congrArg String.length (String.toList_inj.mp hpp),
    congrArg String.length (String.toList_inj.mp hnn)⟩

/-! ## §4. The published invariants. -/

section Contract

variable {Uuid Vec Json : Type}

/-- What the schema relies on of pgvector: a vector is its components, a
subvector is a range of them, and a norm of zero means that all are zero. -/
structure IsPgVector (pg : PgVector Vec) (components : Vec → List ℚ) : Prop where
  vectorDims : ∀ v, pg.vectorDims v = (components v).length
  subvector : ∀ v start count, 1 ≤ start → 1 ≤ count → start + count ≤ pg.vectorDims v + 1 →
    components (pg.subvector v start count) = ((components v).drop (start - 1)).take count
  l2Norm_eq_zero : ∀ v, pg.l2Norm v = 0 ↔ ∀ x ∈ components v, x = 0

/-- The invariants of the embedding contract, for one row. -/
structure ClipEmbedding.Meets (pg : PgVector Vec) (components : Vec → List ℚ)
    (registry : List RegistryRow) (e : ClipEmbedding Uuid Vec Json) : Prop where
  width : (components e.embedding).length = 4100
  zeros : ∀ (i : Nat) (hi : i < (components e.embedding).length), e.nativeDims ≤ i →
    (components e.embedding)[i] = 0
  unitNorm : |pg.l2Norm e.embedding - 1| ≤ 1 / 1000
  provenance : ∃ m ∈ registry, m.modelKey = e.modelKey ∧ m.provider = e.provider
    ∧ m.modelName = e.modelName ∧ m.modelVersion = e.modelVersion
    ∧ (e.mrlPrefixValid = true → m.mrl = true ∧ 1024 ≤ m.nativeDims)

/-- The invariants of the embedding contract. -/
structure KeepsContract (pg : PgVector Vec) (components : Vec → List ℚ)
    (store : Store Uuid Vec Json) : Prop where
  rows : ∀ e ∈ store.embeddings, e.Meets pg components store.registry
  onePerEntityPerModel :
    Unique (fun e => (e.accountId, e.entityKind, e.entityId, e.modelKey)) store.embeddings

/-- The embedding cuts its key where its registry row does, and claims the
prefix only where the row allows it. -/
def RegistryRow.Fits (m : RegistryRow) (e : ClipEmbedding Uuid Vec Json) : Prop :=
  m.modelKey = e.modelKey →
    (m.provider.length = e.provider.length ∧ m.modelName.length = e.modelName.length)
      ∧ (e.mrlPrefixValid = true → m.mrlPrefixValid = true)

instance (m : RegistryRow) (e : ClipEmbedding Uuid Vec Json) : Decidable (m.Fits e) := by
  unfold RegistryRow.Fits; infer_instance

/-- What a write must not do: write an embedding that does not fit its registry
row, or a registry row that an embedding does not fit. -/
def WriteFits (store : Store Uuid Vec Json) : StoreWrite Uuid Vec Json → Prop
  | .seed upsert => Related RegistryRow.Fits (upsert.written seedMerge store.registry)
      store.embeddings
  | .registry statement => Related RegistryRow.Fits (statement.written store.registry)
      store.embeddings
  | .embeddings statement => Related RegistryRow.Fits store.registry
      (statement.written store.embeddings)

instance (store : Store Uuid Vec Json) (w : StoreWrite Uuid Vec Json) :
    Decidable (WriteFits store w) := by
  cases w <;> unfold WriteFits <;> infer_instance

variable {pg : PgVector Vec} {components : Vec → List ℚ} {store : Store Uuid Vec Json}

/-- The tail check, read back: the width, and zeros from `nativeDims` on. -/
theorem zeros_of_embIsZeroPadded (hpg : IsPgVector pg components) {v : Vec} {nativeDims : Int}
    (h : embIsZeroPadded pg v nativeDims = true) :
    (components v).length = 4100
      ∧ ∀ (i : Nat) (hi : i < (components v).length), nativeDims ≤ i → (components v)[i] = 0 := by
  unfold embIsZeroPadded at h
  split at h
  next => cases h
  next hdims =>
    rw [not_not, hpg.vectorDims] at hdims
    have hwidth : (components v).length = 4100 := hdims
    refine ⟨hwidth, ?_⟩
    intro i hi hnative
    split at h
    next => cases h
    next hrange =>
      split at h
      next hfull => omega
      next hshort =>
        rw [decide_eq_true_iff, hpg.l2Norm_eq_zero] at h
        have hsub := hpg.subvector v (nativeDims.toNat + 1) (4100 - nativeDims.toNat) (by omega)
          (by omega) (by rw [hpg.vectorDims, hwidth]; omega)
        rw [hsub, Nat.add_sub_cancel] at h
        -- the component `i` stands in the tail that the check looks at
        have htail : (components v)[i] ∈ ((components v).drop nativeDims.toNat).take
            (4100 - nativeDims.toNat) := by
          rw [List.take_of_length_le (by rw [List.length_drop, hwidth])]
          refine List.mem_of_getElem (i := i - nativeDims.toNat)
            (h := by rw [List.length_drop]; omega) ?_
          rw [List.getElem_drop]
          congr 1
          omega
        exact h _ htail

/-- **The constraints give all of the contract but the fit to the registry.** -/
theorem ClipEmbedding.meets_iff (hpg : IsPgVector pg components) (hok : StoreValid pg store)
    {e : ClipEmbedding Uuid Vec Json} (he : e ∈ store.embeddings) :
    e.Meets pg components store.registry ↔ ∀ m ∈ store.registry, m.Fits e := by
  obtain ⟨hkeys, hmodels, hembeddings⟩ := hok
  have hrow := hembeddings.rows e he
  constructor
  · intro h m hm hkey
    obtain ⟨m', hm', hkey', hp, hn, _, hprefix⟩ := h.provenance
    -- a model key names one registry row
    obtain rfl : m = m' := hkeys.eq_of_key hm hm' (hkey.trans hkey'.symm)
    refine ⟨⟨congrArg String.length hp, congrArg String.length hn⟩, ?_⟩
    intro hvalid
    obtain ⟨hmrl, hdims⟩ := hprefix hvalid
    simp [RegistryRow.mrlPrefixValid, hmrl, hdims]
  · intro h
    obtain ⟨hwidth, hzeros⟩ := zeros_of_embIsZeroPadded hpg hrow.zeroPadded
    refine ⟨hwidth, hzeros, ?_, ?_⟩
    · have hunit := hrow.unitNorm
      simp only [embIsUnit, decide_eq_true_eq] at hunit
      exact abs_le.mpr hunit
    · obtain ⟨m', hm', hkey⟩ := hembeddings.model e he
      obtain ⟨m, hm, rfl⟩ := List.mem_map.mp hm'
      obtain ⟨⟨hp, hn⟩, hprefix⟩ := h m hm hkey
      -- texts of equal lengths in equal keys are equal
      have hderived : derivedModelKey m.provider m.modelName m.modelVersion
          = derivedModelKey e.provider e.modelName e.modelVersion :=
        ((hmodels m hm).derived.symm.trans hkey).trans hrow.modelKey
      obtain ⟨hp', hn', hv'⟩ := derivedModelKey_inj hderived hp hn
      refine ⟨m, hm, hkey, hp', hn', hv', ?_⟩
      intro hvalid
      have hboth := hprefix hvalid
      simpa [RegistryRow.mrlPrefixValid] using hboth

theorem contract_iff (hpg : IsPgVector pg components) (hok : StoreValid pg store) :
    KeepsContract pg components store
      ↔ Related RegistryRow.Fits store.registry store.embeddings := by
  constructor
  · intro h m hm e he
    exact (e.meets_iff hpg hok he).mp (h.rows e he) m hm
  · intro h
    have hrows : ∀ e ∈ store.embeddings, e.Meets pg components store.registry := fun e he =>
      (e.meets_iff hpg hok he).mpr (fun m hm => h m hm e he)
    exact ⟨hrows, hok.2.2.onePerEntityPerModel⟩

/-- Where a registered key has two colons, only the prefix can fail to fit. -/
theorem fits_of_two_colons (hok : StoreValid pg store) {m : RegistryRow} (hm : m ∈ store.registry)
    {e : ClipEmbedding Uuid Vec Json} (he : e ∈ store.embeddings)
    (htwo : m.modelKey.toList.count ':' = 2) :
    m.Fits e ↔ (m.modelKey = e.modelKey → e.mrlPrefixValid = true → m.mrlPrefixValid = true) := by
  have hmodel := (hok.2.1 m hm).derived
  have hrow := (hok.2.2.rows e he).modelKey
  constructor
  · intro h hkey
    exact (h hkey).2
  · intro h hkey
    refine ⟨?_, h hkey⟩
    exact parts_of_two_colons ((hmodel.symm.trans hkey).trans hrow) (hmodel ▸ htwo)

/-! ## §5. Runs that fit. -/

/-- **One write**: it keeps the embeddings fitting iff what it writes fits. -/
theorem writeFits_iff (hfits : Related RegistryRow.Fits store.registry store.embeddings)
    (w : StoreWrite Uuid Vec Json) :
    Related RegistryRow.Fits (store.write w).registry (store.write w).embeddings
      ↔ WriteFits store w := by
  cases w with
  | seed upsert =>
      exact hfits.write_iff (fun _ => Upsert.mem_apply seedMerge)
        (upsert.written_subset_apply seedMerge store.registry)
  | registry statement =>
      exact hfits.write_iff (fun _ => Statement.mem_apply)
        (statement.written_subset_apply store.registry)
  | embeddings statement =>
      exact hfits.write_iff_right (fun _ => Statement.mem_apply)
        (statement.written_subset_apply store.embeddings)

variable [DecidableEq Uuid]

theorem fits_of_reachableBy (h : (storeWrites pg).ReachableBy WriteFits store) :
    Related RegistryRow.Fits store.registry store.embeddings := by
  refine System.ReachableBy.invariant
    (I := fun store => Related RegistryRow.Fits store.registry store.embeddings) ?_ ?_ h
  · intro store hstore m hm
    rw [show store = ⟨[], []⟩ from hstore] at hm
    cases hm
  · intro store w store' hfits hw hstep
    obtain ⟨_, rfl⟩ := System.guarded_step_eq_some.mp hstep
    exact (writeFits_iff hfits w).mpr hw

end Contract

/-- **In every run whose writes fit, the contract's invariants hold**; a write
that does not fit is exactly one that breaks them. -/
theorem embeddings_keep_contract {Uuid Vec Json : Type} [DecidableEq Uuid] (pg : PgVector Vec)
    (components : Vec → List ℚ) (hpg : IsPgVector pg components) :
    (∀ store : Store Uuid Vec Json, (storeWrites pg).ReachableBy WriteFits store →
        KeepsContract pg components store)
      ∧ ∀ (store : Store Uuid Vec Json) (w : StoreWrite Uuid Vec Json)
          (store' : Store Uuid Vec Json),
          (storeWrites pg).Reachable store → KeepsContract pg components store →
          (storeWrites pg).step store w = some store' →
            (KeepsContract pg components store' ↔ WriteFits store w) := by
  constructor
  · intro store h
    exact (contract_iff hpg (storeValid_of_reachable h.reachable)).mpr (fits_of_reachableBy h)
  · intro store w store' h hkeeps hstep
    have hok := storeValid_of_reachable h
    have hok' := storeValid_of_reachable (h.step trivial hstep)
    obtain ⟨_, rfl⟩ := System.guarded_step_eq_some.mp hstep
    rw [contract_iff hpg hok']
    exact writeFits_iff ((contract_iff hpg hok).mp hkeeps) w

/-! ## §6. Runs that do not fit. -/

/-- A vector with one component and then zeros. -/
structure Spike where
  dims : Nat
  head : ℚ
  deriving DecidableEq

/-- The components of such a vector. -/
def Spike.components (v : Spike) : List ℚ :=
  match v.dims with
  | 0 => []
  | n + 1 => v.head :: List.replicate n 0

/-- pgvector on such vectors. -/
def spikePg : PgVector Spike where
  vectorDims v := v.dims
  l2Norm v := if v.dims = 0 then 0 else |v.head|
  subvector v start count := ⟨count, if start = 1 then v.head else 0⟩
  cosineDistance _ _ := 0
  halfvecDistance _ _ := 0
  hammingDistance _ _ := 0

theorem spikePg_isPgVector : IsPgVector spikePg Spike.components where
  vectorDims v := by
    obtain ⟨dims, head⟩ := v
    cases dims <;> simp [spikePg, Spike.components]
  subvector v start count hstart hcount hend := by
    obtain ⟨dims, head⟩ := v
    obtain ⟨k, rfl⟩ := Nat.exists_eq_add_of_le hstart
    obtain ⟨c, rfl⟩ := Nat.exists_eq_add_of_le hcount
    obtain ⟨d, rfl⟩ : ∃ d, dims = d + 1 := ⟨dims - 1, by simp only [spikePg] at hend; omega⟩
    simp only [spikePg] at hend
    simp only [spikePg, Spike.components, Nat.add_comm 1, Nat.add_sub_cancel]
    cases k with
    | zero =>
        simp only [Nat.zero_add, if_true, List.drop_zero, List.take_succ_cons, List.take_replicate]
        congr 2
        omega
    | succ k =>
        have hk : ¬ k + 1 + 1 = 1 := by omega
        rw [if_neg hk, List.drop_succ_cons, List.drop_replicate, List.take_replicate,
          ← List.replicate_succ]
        congr 1
        omega
  l2Norm_eq_zero v := by
    obtain ⟨dims, head⟩ := v
    cases dims <;> simp [spikePg, Spike.components]

/-- An embedding under a model key, with its copies of the registry's columns. -/
def sampleStored (modelKey provider modelName modelVersion : String) (nativeDims : Int)
    (mrlPrefixValid : Bool) : ClipEmbedding Nat Spike Unit where
  id := 1
  accountId := 7
  entityKind := "clip"
  entityId := 1
  modelKey := modelKey
  provider := provider
  modelName := modelName
  modelVersion := modelVersion
  nativeDims := nativeDims
  mrlPrefixValid := mrlPrefixValid
  embedding := ⟨4100, 1⟩
  titleText := ""
  summaryText := ""
  bodyText := ""
  contentSha256 := "aaaaaaaaaaaaaaaaaaaaaaaaaaaaaaaaaaaaaaaaaaaaaaaaaaaaaaaaaaaaaaaa"
  sourceUri := none
  metadata := ()

/-- An embedding of a model that is not Matryoshka-trained. -/
def nvidiaStored (mrlPrefixValid : Bool) : ClipEmbedding Nat Spike Unit :=
  sampleStored "nvidia:NV-Embed-v2:1" "nvidia" "NV-Embed-v2" "1" 4096 mrlPrefixValid

/-- A registry row whose model name has a colon. -/
def colonModel : RegistryRow :=
  ⟨⟨"openai:embed:large:1", "openai", "embed:large", "1"⟩, 1536, true, true, "openai-v3"⟩

/-- The seed, and one embedding of a seeded model. -/
def seededWrites (mrlPrefixValid : Bool) : List (StoreWrite Nat Spike Unit) :=
  [.seed seed, .embeddings (.insert [nvidiaStored mrlPrefixValid])]

/-- A registered model, and one embedding that cuts its key elsewhere. -/
def colonWrites : List (StoreWrite Nat Spike Unit) :=
  [.registry (.insert [colonModel]),
    .embeddings (.insert
      [sampleStored "openai:embed:large:1" "openai" "embed" "large:1" 1536 false])]

/-- The state the writes lead to. -/
def storeAfter (writes : List (StoreWrite Nat Spike Unit)) : Store Nat Spike Unit :=
  writes.foldl Store.write ⟨[], []⟩

/-- A seeded model and an embedding that claims no prefix keep the contract. -/
theorem embeddings_keep_contract_sample :
    KeepsContract spikePg Spike.components (storeAfter (seededWrites false)) := by
  have halong : System.AcceptedAlong Store.write (StoreValid spikePg) WriteFits
      (⟨[], []⟩ : Store Nat Spike Unit) (seededWrites false) := by decide +kernel
  exact (embeddings_keep_contract spikePg Spike.components spikePg_isPgVector).1 _
    (halong.reachableBy (.init rfl))

/-- The constraints accept an embedding of a model without a valid prefix that
claims one, and an embedding that cuts its model key elsewhere than the registry. -/
theorem contract_broken :
    ((storeWrites spikePg).Reachable (storeAfter (seededWrites true))
        ∧ ¬ KeepsContract spikePg Spike.components (storeAfter (seededWrites true)))
      ∧ (storeWrites spikePg).Reachable (storeAfter colonWrites)
        ∧ ¬ KeepsContract spikePg Spike.components (storeAfter colonWrites) := by
  have hreach : ∀ writes, System.AcceptedAlong Store.write (StoreValid spikePg) (fun _ _ => True)
      (⟨[], []⟩ : Store Nat Spike Unit) writes →
      (storeWrites spikePg).Reachable (storeAfter writes) :=
    fun writes halong => halong.reachableBy (.init rfl)
  have hseeded := hreach (seededWrites true) (by decide +kernel)
  have hcolon := hreach colonWrites (by decide +kernel)
  refine ⟨⟨hseeded, ?_⟩, hcolon, ?_⟩
  · rw [contract_iff spikePg_isPgVector (storeValid_of_reachable hseeded)]
    decide
  · rw [contract_iff spikePg_isPgVector (storeValid_of_reachable hcolon)]
    decide

end ClipTown.Embeddings
