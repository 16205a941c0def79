/-
  ClipTown.Embeddings.PaddedEmbedding — the core crate's padded embedding
  (`src/embedding_contract.rs`) and the database functions it must agree with
  (`embedding-contract/sql/postgres/desired-v3.sql`), in exact real arithmetic.

  A model's output may hold infinities and NaN, so a component is a real number
  or not finite.  Rust checks the length against the registered range first, and
  `resize` would silently cut a vector longer than the storage width; that it
  never does rests on every entry of the table:

    • `modelDimensions_bounds` — no registered range reaches the width,
    • `fromModelOutput_eq_ok` — success, and the stored vector,
    • `fromModelOutput_exact` — what is stored is what SQL pads, and SQL's
      validity check holds of it; outside the range nothing is stored.
-/
import ClipTown.Embeddings.PrepareEmbedding

namespace ClipTown.Embeddings

open Checks ListVectors

/-! ## §1. Providers and their models. -/

/-- `EMBEDDING_STORAGE_DIMENSIONS`. -/
def embeddingStorageDimensions : Nat := 4100

/-- `EmbeddingProvider`. -/
inductive EmbeddingProvider where
  | openAi
  | google
  | voyage
  | qwen
  | nvidia
  | baai
  | custom
  deriving DecidableEq, Repr

/-- `ModelDimensions`. -/
structure ModelDimensions where
  minimum : Nat
  default : Nat
  maximum : Nat
  supportsMrl : Bool
  deriving DecidableEq

/-- `EmbeddingContractError`. -/
inductive EmbeddingContractError where
  | unsupportedProviderModel
  | invalidDimensions (actual minimum maximum : Nat)
  | nonFiniteValue
  | zeroVector
  deriving DecidableEq

/-- `model_dimensions`. -/
def modelDimensions (provider : EmbeddingProvider) (model : String) : Option ModelDimensions :=
  match provider, model with
  | .openAi, "text-embedding-ada-002" => some ⟨1536, 1536, 1536, false⟩
  | .openAi, "text-embedding-3-small" => some ⟨1, 1536, 1536, true⟩
  | .openAi, "text-embedding-3-large" => some ⟨1, 3072, 3072, true⟩
  | .google, "gemini-embedding-001" => some ⟨128, 3072, 3072, true⟩
  | .qwen, "Qwen/Qwen3-Embedding-8B" => some ⟨32, 4096, 4096, true⟩
  | .nvidia, "nvidia/NV-Embed-v2" => some ⟨4096, 4096, 4096, false⟩
  | .baai, "BAAI/bge-en-icl" => some ⟨4096, 4096, 4096, false⟩
  | .voyage, "voyage-4-large" => some ⟨256, 1024, 2048, true⟩
  | .voyage, "voyage-4" => some ⟨256, 1024, 2048, true⟩
  | .voyage, "voyage-4-lite" => some ⟨256, 1024, 2048, true⟩
  | .custom, _ => some ⟨1, 1536, 4096, false⟩
  | _, _ => none

/-- The four sizes of a Voyage vector. -/
def voyageDimensions : List Nat := [256, 512, 1024, 2048]

/-- `validate_model_dimensions`. -/
def validateModelDimensions (provider : EmbeddingProvider) (model : String) (actual : Nat) :
    Except EmbeddingContractError Unit := do
  let expected ← okOr (modelDimensions provider model) .unsupportedProviderModel
  let discreteVoyageDimension := provider = .voyage ∧ actual ∉ voyageDimensions
  rejectIf
    (actual < expected.minimum ∨ expected.maximum < actual ∨ discreteVoyageDimension)
    (.invalidDimensions actual expected.minimum expected.maximum)

/-- A length within the registered range of its provider and model. -/
def InRange (provider : EmbeddingProvider) (model : String) (actual : Nat) : Prop :=
  ∃ expected, modelDimensions provider model = some expected
    ∧ expected.minimum ≤ actual ∧ actual ≤ expected.maximum
    ∧ (provider = .voyage → actual ∈ voyageDimensions)

theorem validateModelDimensions_eq_ok {provider : EmbeddingProvider} {model : String}
    {actual : Nat} :
    validateModelDimensions provider model actual = .ok () ↔ InRange provider model actual := by
  unfold validateModelDimensions InRange
  simp only [do_eq_ok, okOr_eq_ok, rejectIf_eq_ok, not_or, not_lt, not_and, not_not]

/-- **Every registered range lies within 1 to 4096**, so the storage width has
room to spare. -/
theorem modelDimensions_bounds {provider : EmbeddingProvider} {model : String}
    {expected : ModelDimensions} (h : modelDimensions provider model = some expected) :
    1 ≤ expected.minimum ∧ expected.maximum ≤ 4096 := by
  unfold modelDimensions at h
  split at h <;> cases h <;> decide

/-! ## §2. The padded embedding. -/

/-- A component of a model's output: a number, or an infinity or NaN. -/
inductive Component where
  | finite (value : ℝ)
  | nonFinite

/-- `f32::is_finite`. -/
def Component.isFinite : Component → Bool
  | .finite _ => true
  | .nonFinite => false

/-- The number a component is; only asked once every component is finite. -/
def Component.value : Component → ℝ
  | .finite value => value
  | .nonFinite => 0

/-- `f32::EPSILON`. -/
noncomputable def f32Epsilon : ℝ := 1 / 2 ^ 23

/-- `PaddedEmbedding`. -/
structure PaddedEmbedding where
  values : List ℝ
  originalDimensions : Nat
  l2Norm : ℝ

/-- `PaddedEmbedding::from_model_output`. -/
noncomputable def fromModelOutput (provider : EmbeddingProvider) (model : String)
    (values : List Component) : Except EmbeddingContractError PaddedEmbedding := do
  let dimensions := values.length
  validateModelDimensions provider model dimensions
  rejectIf (values.any (fun value => !value.isFinite)) .nonFiniteValue
  let numbers := values.map Component.value
  let squaredNorm := (numbers.map (fun value => value * value)).sum
  rejectIf (squaredNorm ≤ f32Epsilon) .zeroVector
  return {
    values := resize numbers embeddingStorageDimensions 0
    originalDimensions := dimensions
    l2Norm := √squaredNorm }

/-- Finite components are the numbers they are. -/
theorem map_finite_value {values : List Component} (h : ∀ value ∈ values, value.isFinite = true) :
    (values.map Component.value).map Component.finite = values := by
  induction values with
  | nil => rfl
  | cons value values ih =>
      have hrest := ih (fun v hv => h v (List.mem_cons_of_mem value hv))
      have hvalue := h value List.mem_cons_self
      rw [List.map_cons, List.map_cons, hrest]
      cases value with
      | finite x => rfl
      | nonFinite => cases hvalue

theorem f32Epsilon_pos : 0 < f32Epsilon := by
  unfold f32Epsilon
  norm_num

/-- **Success, read back.**  The range is checked before anything is resized, so
the stored vector is the source padded with zeros. -/
theorem fromModelOutput_eq_ok {provider : EmbeddingProvider} {model : String}
    {source : List Component} {out : PaddedEmbedding} :
    fromModelOutput provider model source = .ok out
      ↔ InRange provider model source.length
          ∧ (∀ value ∈ source, value.isFinite = true)
          ∧ f32Epsilon < dot (source.map Component.value) (source.map Component.value)
          ∧ out = ⟨zeroExtend embeddingStorageDimensions (source.map Component.value),
              source.length, ListVectors.l2Norm (source.map Component.value)⟩ := by
  simp only [fromModelOutput, do_eq_ok, validateModelDimensions_eq_ok, rejectIf_eq_ok, exists_unit,
    pure_eq_ok, sum_sq_eq_dot, not_le, List.any_eq_true, Bool.not_eq_true', not_exists, not_and,
    Bool.not_eq_false]
  refine and_congr_right (fun hrange => and_congr_right (fun _ => and_congr_right (fun _ => ?_)))
  -- no range reaches the width, so resizing cuts nothing off
  have hwidth : (source.map Component.value).length ≤ embeddingStorageDimensions := by
    obtain ⟨expected, hexpected, -, hle, -⟩ := hrange
    have hmax := (modelDimensions_bounds hexpected).2
    rw [List.length_map]
    unfold embeddingStorageDimensions
    omega
  rw [resize_eq_zeroExtend hwidth]
  exact eq_comm

/-! ## §3. The database functions. -/

/-- `pad_embedding_v3`, on an array that is not null. -/
def padEmbeddingV3 (input : List ℝ) : Option (List ℝ) :=
  if 1 ≤ input.length ∧ input.length ≤ 4096 then
    some (input ++ List.replicate (4100 - input.length) 0)
  else none

/-- `embedding_is_valid_v3`, on values that are not null. -/
def embeddingIsValidV3 (input : List ℝ) (learned : Int) : Prop :=
  (1 ≤ learned ∧ learned ≤ 4096)
    ∧ input.length = 4100
    ∧ ListVectors.l2Norm (Exact.subvector input 1 learned.toNat) > 0
    ∧ ListVectors.l2Norm (Exact.subvector input (learned.toNat + 1) (4100 - learned.toNat))
        ≤ 1 / 1000000

/-- A source within 1 to 4096 is padded as Rust pads it. -/
theorem padEmbeddingV3_eq {input : List ℝ} (hpos : 1 ≤ input.length) (hle : input.length ≤ 4096) :
    padEmbeddingV3 input = some (zeroExtend embeddingStorageDimensions input) :=
  if_pos ⟨hpos, hle⟩

/-- The check slices the padded vector where the source ends. -/
theorem embeddingIsValidV3_zeroExtend {input : List ℝ} (hpos : 1 ≤ input.length)
    (hle : input.length ≤ 4096) (hsignal : 0 < dot input input) :
    embeddingIsValidV3 (zeroExtend embeddingStorageDimensions input) input.length := by
  have hlen : (zeroExtend embeddingStorageDimensions input).length = 4100 :=
    length_zeroExtend (show input.length ≤ 4100 by omega)
  refine ⟨⟨by omega, by omega⟩, hlen, ?_, ?_⟩
  · -- the first slice is the source
    have hslice : Exact.subvector (zeroExtend embeddingStorageDimensions input) 1
        ((input.length : Int)).toNat = input := by
      unfold Exact.subvector zeroExtend
      rw [Nat.sub_self, List.drop_zero, Int.toNat_natCast, List.take_left]
    rw [hslice]
    exact Real.sqrt_pos.mpr hsignal
  · -- the second slice is zeros
    rw [Exact.subvector, Nat.add_sub_cancel, Int.toNat_natCast, drop_zeroExtend (le_refl _),
      List.take_replicate, ListVectors.l2Norm, dot_zeros, Real.sqrt_zero]
    norm_num

/-! ## §4. What is stored. -/

/-- **Padding is lossless and agrees with the database.**  A stored vector is the
source followed by zeros up to 4100; its recorded dimension is the source's and
lies in the registered range; it is what `pad_embedding_v3` makes of the source
and passes `embedding_is_valid_v3`.  Outside the registered range no components
give a vector. -/
theorem fromModelOutput_exact :
    (∀ (provider : EmbeddingProvider) (model : String) (source : List Component)
        (out : PaddedEmbedding), fromModelOutput provider model source = .ok out →
        out.values.length = 4100
          ∧ out.values.map Component.finite
              = source ++ List.replicate (4100 - source.length) (Component.finite 0)
          ∧ out.originalDimensions = source.length
          ∧ InRange provider model out.originalDimensions
          ∧ padEmbeddingV3 (source.map Component.value) = some out.values
          ∧ embeddingIsValidV3 out.values out.originalDimensions)
      ∧ ∀ (provider : EmbeddingProvider) (model : String) (source : List Component),
          ¬ InRange provider model source.length →
          ∀ out, fromModelOutput provider model source ≠ .ok out := by
  constructor
  · intro provider model source out hok
    obtain ⟨hrange, hfinite, hsignal, rfl⟩ := fromModelOutput_eq_ok.mp hok
    have hbounds : 1 ≤ source.length ∧ source.length ≤ 4096 := by
      obtain ⟨expected, hexpected, hge, hle, -⟩ := hrange
      have hbounds := modelDimensions_bounds hexpected
      omega
    have hlen : (source.map Component.value).length = source.length := List.length_map _
    -- the signal check leaves a positive norm, which the zeros do not change
    have hvalid := embeddingIsValidV3_zeroExtend (by omega) (by omega)
      (lt_trans f32Epsilon_pos hsignal)
    rw [hlen] at hvalid
    refine ⟨hvalid.2.1, ?_, rfl, hrange, padEmbeddingV3_eq (by omega) (by omega), hvalid⟩
    show (zeroExtend embeddingStorageDimensions (source.map Component.value)).map _ = _
    rw [zeroExtend, List.map_append, map_finite_value hfinite, List.map_replicate, hlen]
    rfl
  · intro provider model source hrange out hok
    exact hrange (fromModelOutput_eq_ok.mp hok).1

/-- One component of a custom model is stored, and passes the database check. -/
theorem fromModelOutput_exact_custom :
    ∃ out, fromModelOutput .custom "future-model" [.finite 1] = .ok out
      ∧ embeddingIsValidV3 out.values 1 := by
  have hone : dot [(1 : ℝ)] [1] = 1 := by
    rw [dot_cons, dot_nil]
    norm_num
  have hsignal : f32Epsilon < dot ([Component.finite 1].map Component.value)
      ([Component.finite 1].map Component.value) := by
    show f32Epsilon < dot [(1 : ℝ)] [1]
    rw [hone, f32Epsilon]
    norm_num
  have hrange : InRange .custom "future-model" [Component.finite 1].length :=
    ⟨⟨1, 1536, 4096, false⟩, by simp [modelDimensions], by simp, by simp, by simp⟩
  have hfinite : ∀ value ∈ [Component.finite 1], value.isFinite = true := by
    intro value hvalue
    rw [List.mem_singleton.mp hvalue]
    rfl
  obtain ⟨out, hok⟩ : ∃ out, fromModelOutput .custom "future-model" [.finite 1] = .ok out :=
    ⟨_, fromModelOutput_eq_ok.mpr ⟨hrange, hfinite, hsignal, rfl⟩⟩
  obtain ⟨-, -, hdims, -, -, hvalid⟩ := fromModelOutput_exact.1 _ _ _ _ hok
  rw [hdims] at hvalid
  exact ⟨out, hok, hvalid⟩

end ClipTown.Embeddings
