/-
  ClipTown.Embeddings.PrepareEmbedding — normalizing and padding a vector
  before it is stored (`prepare_embedding` and `prepareEmbedding` of
  `scripts/embeddings/generate.mjs`), in exact real arithmetic.

  The Rust function maps the components and resizes the vector; the TypeScript
  function runs two index loops over a zeroed array.  Both give the normalized
  vector followed by zeros:

    • `prepareEmbedding_eq_ok` — success, and the prepared vector,
    • `tsPrepareEmbedding_eq_ok` — the two loops compute the same,
    • `prepareEmbedding_exact` — what is prepared passes the database checks,
      and the L2 order of prepared vectors is the cosine order of the given
      ones.
-/
import ClipTown.Embeddings.Contract
import ClipTown.Lib.Checks
import ClipTown.Lib.ListVectors

namespace ClipTown.Embeddings

open Checks ListVectors

/-! ## §1. The two functions. -/

/-- `EmbeddingError`. -/
inductive EmbeddingError where
  | unknownModel
  | widthExceedsNative (got native : Nat)
  | widthExceedsCanonical (got : Nat)
  | zeroVector
  deriving DecidableEq

/-- `registered_model`: the first entry with the key. -/
def registeredModel (key : String) : Option RegisteredModel :=
  registeredModels.find? (fun m => m.key = key)

/-- `Vec::resize`. -/
def resize (v : List ℝ) (newLen : Nat) (value : ℝ) : List ℝ :=
  v.take newLen ++ List.replicate (newLen - v.length) value

/-- `prepare_embedding`.  A real norm is finite, so `is_finite` rejects nothing. -/
noncomputable def prepareEmbedding (modelKey : String) (raw : List ℝ) :
    Except EmbeddingError (List ℝ) := do
  let model ← okOr (registeredModel modelKey) .unknownModel
  rejectIf (embeddingWidth < raw.length) (.widthExceedsCanonical raw.length)
  rejectIf (model.nativeDims < raw.length) (.widthExceedsNative raw.length model.nativeDims)
  let norm := √((raw.map (fun x => x * x)).sum)
  rejectIf (¬ 0 < norm) .zeroVector
  return resize (raw.map (fun x => x / norm)) embeddingWidth 0

namespace Ts

/-- `PrepareEmbeddingError`. -/
inductive PrepareEmbeddingError where
  | unknownModel (modelKey : String)
  | widthExceedsNative (got native : Nat)
  | widthExceedsCanonical (got : Nat)
  | zeroVector
  deriving DecidableEq

/-- `registeredModel`: a `Map` built from the entries keeps the last of a key. -/
def registeredModel (key : String) : Option RegisteredModel :=
  registeredModels.reverse.find? (fun m => m.key = key)

/-- The loop that writes `raw[i] / norm` for `i < n`. -/
noncomputable def writeLoop (raw : List ℝ) (norm : ℝ) (n : Nat) (out : List ℝ) : List ℝ :=
  (List.range n).foldl (fun out i => out.set i (raw.getD i 0 / norm)) out

/-- `prepareEmbedding`. -/
noncomputable def prepareEmbedding (modelKey : String) (raw : List ℝ) :
    Except PrepareEmbeddingError (List ℝ) := do
  let model ← okOr (registeredModel modelKey) (.unknownModel modelKey)
  rejectIf (embeddingWidth < raw.length) (.widthExceedsCanonical raw.length)
  rejectIf (model.nativeDims < raw.length) (.widthExceedsNative raw.length model.nativeDims)
  let sum := raw.foldl (fun sum x => sum + x * x) 0
  let norm := √sum
  rejectIf (¬ 0 < norm) .zeroVector
  return writeLoop raw norm raw.length (List.replicate embeddingWidth 0)

end Ts

/-! ## §2. What is prepared. -/

/-- The unit vector of `raw`, padded to the canonical width. -/
noncomputable def prepared (raw : List ℝ) : List ℝ := zeroExtend embeddingWidth (normalized raw)

theorem length_normalized (raw : List ℝ) : (normalized raw).length = raw.length :=
  List.length_map _

/-- Where nothing is cut off, resizing is padding. -/
theorem resize_eq_zeroExtend {v : List ℝ} {newLen : Nat} (h : v.length ≤ newLen) :
    resize v newLen 0 = zeroExtend newLen v := by
  unfold resize zeroExtend
  rw [List.take_of_length_le h]

theorem sum_sq_eq_dot (raw : List ℝ) : (raw.map (fun x => x * x)).sum = dot raw raw := by
  induction raw with
  | nil => rw [List.map_nil, List.sum_nil, dot_nil]
  | cons a raw ih => rw [List.map_cons, List.sum_cons, ih, dot_cons]

/-- **The Rust function prepares exactly the non-zero vectors that fit their
model.** -/
theorem prepareEmbedding_eq_ok {modelKey : String} {raw out : List ℝ} :
    prepareEmbedding modelKey raw = .ok out
      ↔ ∃ model, registeredModel modelKey = some model
          ∧ raw.length ≤ embeddingWidth
          ∧ raw.length ≤ model.nativeDims
          ∧ 0 < l2Norm raw
          ∧ out = prepared raw := by
  simp only [prepareEmbedding, do_eq_ok, okOr_eq_ok, rejectIf_eq_ok, exists_unit, pure_eq_ok,
    sum_sq_eq_dot, not_lt, not_le]
  refine exists_congr (fun model => and_congr_right (fun _ => ?_))
  refine and_congr_right (fun hwidth => and_congr_right (fun _ => and_congr_right (fun _ => ?_)))
  have hresize : resize (normalized raw) embeddingWidth 0 = prepared raw :=
    resize_eq_zeroExtend (le_of_eq_of_le (length_normalized raw) hwidth)
  rw [← hresize]
  exact eq_comm

/-! ## §3. The TypeScript loops. -/

/-- A key that names one entry is found from either end. -/
theorem tsRegisteredModel_eq (key : String) : Ts.registeredModel key = registeredModel key := by
  have hkeys := registeredModels_keys
  have hmem : ∀ {m : RegisteredModel}, m ∈ registeredModels.reverse ↔ m ∈ registeredModels :=
    List.mem_reverse
  unfold Ts.registeredModel registeredModel
  cases hfirst : registeredModels.find? (fun m => m.key = key) with
  | none =>
      rw [List.find?_eq_none] at hfirst ⊢
      intro m hm
      exact hfirst m (hmem.mp hm)
  | some m =>
      cases hlast : registeredModels.reverse.find? (fun m => m.key = key) with
      | none =>
          rw [List.find?_eq_none] at hlast
          exact absurd (List.find?_some hfirst)
            (hlast m (hmem.mpr (List.mem_of_find?_eq_some hfirst)))
      | some m' =>
          -- both entries carry the key, so they are one entry
          have hkey : m'.key = m.key := by
            have h := List.find?_some hfirst
            have h' := List.find?_some hlast
            rw [decide_eq_true_iff] at h h'
            exact h'.trans h.symm
          have heq : m' = m := List.inj_on_of_nodup_map hkeys
            (hmem.mp (List.mem_of_find?_eq_some hlast)) (List.mem_of_find?_eq_some hfirst) hkey
          rw [heq]

theorem foldl_sum_sq (raw : List ℝ) (start : ℝ) :
    raw.foldl (fun sum x => sum + x * x) start = start + dot raw raw := by
  induction raw generalizing start with
  | nil => rw [List.foldl_nil, dot_nil, add_zero]
  | cons a raw ih => rw [List.foldl_cons, ih, dot_cons, add_assoc]

/-- After `n` rounds the first `n` quotients stand in front of the zeros. -/
theorem writeLoop_zeros (raw : List ℝ) (norm : ℝ) {n width : Nat} (hn : n ≤ raw.length)
    (hwidth : n ≤ width) :
    Ts.writeLoop raw norm n (List.replicate width 0)
      = (raw.take n).map (fun x => x / norm) ++ List.replicate (width - n) 0 := by
  induction n with
  | zero => rfl
  | succ n ih =>
      have hlen : ((raw.take n).map (fun x => x / norm)).length = n := by
        rw [List.length_map, List.length_take]
        omega
      have hzeros : List.replicate (width - n) (0 : ℝ)
          = 0 :: List.replicate (width - (n + 1)) 0 := by
        rw [← List.replicate_succ]
        congr 1
        omega
      have hround := ih (by omega) (by omega)
      unfold Ts.writeLoop at hround ⊢
      rw [List.range_succ, List.foldl_append, hround, List.foldl_cons, List.foldl_nil,
        List.set_append_right _ _ (le_of_eq hlen), hlen, Nat.sub_self, hzeros, List.set_cons_zero,
        List.take_succ_eq_append_getElem (by omega), List.map_append, List.append_assoc]
      rw [List.getD_eq_getElem?_getD, List.getElem?_eq_getElem (by omega)]
      rfl

/-- **The TypeScript function prepares the same vectors.** -/
theorem tsPrepareEmbedding_eq_ok {modelKey : String} {raw out : List ℝ} :
    Ts.prepareEmbedding modelKey raw = .ok out ↔ prepareEmbedding modelKey raw = .ok out := by
  rw [prepareEmbedding_eq_ok]
  simp only [Ts.prepareEmbedding, do_eq_ok, okOr_eq_ok, rejectIf_eq_ok, exists_unit, pure_eq_ok,
    foldl_sum_sq, zero_add, not_lt, not_le, tsRegisteredModel_eq]
  refine exists_congr (fun model => and_congr_right (fun _ => ?_))
  refine and_congr_right (fun hwidth => and_congr_right (fun _ => and_congr_right (fun _ => ?_)))
  have hloop : Ts.writeLoop raw (l2Norm raw) raw.length (List.replicate embeddingWidth 0)
      = prepared raw := by
    rw [writeLoop_zeros raw _ (le_refl _) hwidth, List.take_length, prepared, zeroExtend,
      length_normalized, normalized]
  rw [← hloop]
  exact eq_comm

/-! ## §4. The database checks, in exact arithmetic. -/

namespace Exact

/-- `subvector(v, start, count)`, with `start` from 1. -/
def subvector (v : List ℝ) (start count : Nat) : List ℝ := (v.drop (start - 1)).take count

/-- `emb_is_zero_padded`, on values that are not null. -/
def embIsZeroPadded (v : List ℝ) (nativeDims : Int) : Prop :=
  if v.length ≠ embWidth then False
  else if nativeDims < 1 ∨ 4100 < nativeDims then False
  else if nativeDims = 4100 then True
  else l2Norm (subvector v (nativeDims.toNat + 1) (4100 - nativeDims.toNat)) = 0

/-- `emb_is_unit`, on values that are not null. -/
def embIsUnit (v : List ℝ) (tol : ℝ) : Prop := |l2Norm v - 1| ≤ tol

end Exact

theorem length_prepared {raw : List ℝ} (h : raw.length ≤ embeddingWidth) :
    (prepared raw).length = embeddingWidth :=
  length_zeroExtend (le_of_eq_of_le (length_normalized raw) h)

theorem l2Norm_prepared {raw : List ℝ} (h : 0 < l2Norm raw) : l2Norm (prepared raw) = 1 := by
  rw [prepared, l2Norm_zeroExtend, l2Norm_normalized h]

/-- Past the given components a prepared vector is zero. -/
theorem drop_prepared {raw : List ℝ} {n : Nat} (h : raw.length ≤ n) :
    (prepared raw).drop n = List.replicate (embeddingWidth - n) 0 :=
  drop_zeroExtend (le_of_eq_of_le (length_normalized raw) h)

theorem getElem_prepared {raw : List ℝ} {i : Nat} (hi : i < (prepared raw).length)
    (h : raw.length ≤ i) : (prepared raw)[i] = 0 := by
  have hmem : (prepared raw)[i] ∈ (prepared raw).drop i :=
    List.mem_of_getElem (i := 0) (h := by rw [List.length_drop]; omega) (by simp)
  rw [drop_prepared h] at hmem
  exact List.eq_of_mem_replicate hmem

/-- The tail check looks at zeros only. -/
theorem prepared_isZeroPadded {raw : List ℝ} (hnonempty : 1 ≤ raw.length) {nativeDims : Int}
    (hlo : raw.length ≤ nativeDims) (hhi : nativeDims ≤ 4100) :
    Exact.embIsZeroPadded (prepared raw) nativeDims := by
  have hwidth : raw.length ≤ embeddingWidth := by
    unfold embeddingWidth
    omega
  have hlen : (prepared raw).length = embWidth := length_prepared hwidth
  unfold Exact.embIsZeroPadded
  rw [if_neg (not_not.mpr hlen), if_neg (by omega)]
  by_cases hfull : nativeDims = 4100
  · rw [if_pos hfull]
    trivial
  · rw [if_neg hfull, Exact.subvector, Nat.add_sub_cancel, drop_prepared (by omega),
      List.take_replicate, l2Norm, dot_zeros, Real.sqrt_zero]

theorem one_le_length_of_norm_pos {raw : List ℝ} (h : 0 < l2Norm raw) : 1 ≤ raw.length := by
  cases raw with
  | nil =>
      rw [l2Norm, dot_nil, Real.sqrt_zero] at h
      exact absurd h (lt_irrefl 0)
  | cons a raw => exact Nat.succ_le_succ (Nat.zero_le _)

theorem dot_prepared (x y : List ℝ) : dot (prepared x) (prepared y) = cosineSimilarity x y := by
  rw [prepared, prepared, dot_zeroExtend, dot_normalized]

/-! ## §5. Prepared vectors. -/

/-- **A prepared vector has the canonical width, unit norm and exact zeros past
the given components, so the database checks pass; the L2 order of prepared
vectors is the descending cosine order of the given ones; and the two languages
prepare the same vectors.** -/
theorem prepareEmbedding_exact :
    (∀ (modelKey : String) (raw out : List ℝ), prepareEmbedding modelKey raw = .ok out →
        out.length = 4100
          ∧ l2Norm out = 1
          ∧ (∀ (i : Nat) (hi : i < out.length), raw.length ≤ i → out[i] = 0)
          ∧ ∀ nativeDims : Int, raw.length ≤ nativeDims → nativeDims ≤ 4100 →
              Exact.embIsUnit out (1 / 1000) ∧ Exact.embIsZeroPadded out nativeDims)
      ∧ (∀ (modelKey : String) (q a b q' a' b' : List ℝ),
          prepareEmbedding modelKey q = .ok q' → prepareEmbedding modelKey a = .ok a' →
          prepareEmbedding modelKey b = .ok b' →
          ∀ width, q.length ≤ width → a.length ≤ width → b.length ≤ width →
            (l2Distance q' a' ≤ l2Distance q' b'
              ↔ cosineSimilarity (zeroExtend width q) (zeroExtend width b)
                  ≤ cosineSimilarity (zeroExtend width q) (zeroExtend width a)))
      ∧ ∀ (modelKey : String) (raw out : List ℝ),
          Ts.prepareEmbedding modelKey raw = .ok out ↔ prepareEmbedding modelKey raw = .ok out := by
  refine ⟨?_, ?_, fun _ _ _ => tsPrepareEmbedding_eq_ok⟩
  · intro modelKey raw out hok
    obtain ⟨model, _, hwidth, _, hnorm, rfl⟩ := prepareEmbedding_eq_ok.mp hok
    refine ⟨length_prepared hwidth, l2Norm_prepared hnorm, ?_, ?_⟩
    · intro i hi hraw
      exact getElem_prepared hi hraw
    · intro nativeDims hlo hhi
      refine ⟨?_, prepared_isZeroPadded (one_le_length_of_norm_pos hnorm) hlo hhi⟩
      rw [Exact.embIsUnit, l2Norm_prepared hnorm, sub_self, abs_zero]
      norm_num
  · intro modelKey q a b q' a' b' hq ha hb width _ _ _
    obtain ⟨_, _, hqw, _, hqn, rfl⟩ := prepareEmbedding_eq_ok.mp hq
    obtain ⟨_, _, haw, _, han, rfl⟩ := prepareEmbedding_eq_ok.mp ha
    obtain ⟨_, _, hbw, _, hbn, rfl⟩ := prepareEmbedding_eq_ok.mp hb
    -- prepared vectors are unit vectors of one length, where the distance orders as the dot
    -- product does, backwards
    have hqa : (prepared q).length = (prepared a).length := by
      rw [length_prepared hqw, length_prepared haw]
    have hqb : (prepared q).length = (prepared b).length := by
      rw [length_prepared hqw, length_prepared hbw]
    rw [l2Distance_le_iff hqa hqb (l2Norm_prepared hqn) (l2Norm_prepared han)
      (l2Norm_prepared hbn), dot_prepared, dot_prepared, cosineSimilarity_zeroExtend,
      cosineSimilarity_zeroExtend]

/-- Vectors of two components, prepared under a model of 1024: the checks pass, and the
vector at the smaller angle is the nearer one. -/
theorem prepareEmbedding_exact_sample :
    ∃ q near far : List ℝ,
      prepareEmbedding "voyage:voyage-3-large:1" [3, 4] = .ok q
        ∧ prepareEmbedding "voyage:voyage-3-large:1" [0, 2] = .ok near
        ∧ prepareEmbedding "voyage:voyage-3-large:1" [5, 0] = .ok far
        ∧ (q.length = 4100 ∧ l2Norm q = 1
          ∧ (∀ (i : Nat) (hi : i < q.length), 2 ≤ i → q[i] = 0)
          ∧ Exact.embIsUnit q (1 / 1000) ∧ Exact.embIsZeroPadded q 1024)
        ∧ (l2Distance q near ≤ l2Distance q far ∧ ¬ l2Distance q far ≤ l2Distance q near)
        ∧ Ts.prepareEmbedding "voyage:voyage-3-large:1" [3, 4] = .ok q := by
  have hmodel : registeredModel "voyage:voyage-3-large:1" = some
      ⟨"voyage:voyage-3-large:1", "voyage", "voyage-3-large", "1", 1024, true, true,
        "voyage-3"⟩ := by
    decide
  have hq : l2Norm [3, 4] = 5 := by
    rw [l2Norm, dot_cons, dot_cons, dot_nil, Real.sqrt_eq_iff_mul_self_eq_of_pos] <;> norm_num
  have hnear : l2Norm [0, 2] = 2 := by
    rw [l2Norm, dot_cons, dot_cons, dot_nil, Real.sqrt_eq_iff_mul_self_eq_of_pos] <;> norm_num
  have hfar : l2Norm [5, 0] = 5 := by
    rw [l2Norm, dot_cons, dot_cons, dot_nil, Real.sqrt_eq_iff_mul_self_eq_of_pos] <;> norm_num
  have hok : ∀ raw : List ℝ, raw.length = 2 → 0 < l2Norm raw →
      ∃ out, prepareEmbedding "voyage:voyage-3-large:1" raw = .ok out := by
    intro raw hlength hnorm
    refine ⟨_, prepareEmbedding_eq_ok.mpr ⟨_, hmodel, ?_, ?_, hnorm, rfl⟩⟩
    · rw [hlength]
      decide
    · rw [hlength]
      decide
  obtain ⟨q, hqok⟩ := hok [3, 4] rfl (by rw [hq]; norm_num)
  obtain ⟨near, hnearok⟩ := hok [0, 2] rfl (by rw [hnear]; norm_num)
  obtain ⟨far, hfarok⟩ := hok [5, 0] rfl (by rw [hfar]; norm_num)
  have hextend : ∀ a b : ℝ, zeroExtend 2 [a, b] = [a, b] := fun a b => by simp [zeroExtend]
  have hcosNear : cosineSimilarity [3, 4] [0, 2] = 4 / 5 := by
    rw [cosineSimilarity, hq, hnear, dot_cons, dot_cons, dot_nil]
    norm_num
  have hcosFar : cosineSimilarity [3, 4] [5, 0] = 3 / 5 := by
    rw [cosineSimilarity, hq, hfar, dot_cons, dot_cons, dot_nil]
    norm_num
  obtain ⟨hlength, hunit, hzeros, hchecks⟩ := prepareEmbedding_exact.1 _ _ _ hqok
  have horder := prepareEmbedding_exact.2.1 _ _ _ _ _ _ _ hqok hnearok hfarok 2
    (by simp) (by simp) (by simp)
  have horder' := prepareEmbedding_exact.2.1 _ _ _ _ _ _ _ hqok hfarok hnearok 2
    (by simp) (by simp) (by simp)
  simp only [hextend, hcosNear, hcosFar] at horder horder'
  have hwithin := hchecks 1024 (by simp) (by norm_num)
  refine ⟨q, near, far, hqok, hnearok, hfarok, ⟨hlength, hunit, hzeros, hwithin⟩, ?_,
    (prepareEmbedding_exact.2.2 _ _ _).mpr hqok⟩
  rw [horder, horder']
  norm_num

end ClipTown.Embeddings
