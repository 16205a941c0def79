/-
  ClipTown.Generated.CheckFixpoint — what `--check` of the two generators asks.

  A check compares a tree with the files that a run would write, a run writes them.
  The schema generator's run also removes what else is under `generated/`, and its
  check lists what is there; of the READMEs, the run keeps `README.md`, the check
  leaves out `readme.md` as well.

    • `writeAll_held` — files that are there can be written again,
    • `run_of_passes`, `passes_of_kept` — a tree that passes is kept by a run, and a
      tree that a run keeps passes,
    • `passes_iff_kept` — `--check` passes on the trees that a run would leave as
      they are, but for a `readme.md`.
-/
import ClipTown.Generated.TwoGenerators

namespace ClipTown.Generated

open CanonicalOrder Checks FileTree

/-! ## §1. Writing what is there. -/

section Held

variable {t t' base : Tree} {p : Path}

/-- Every file of one tree has a file in the other at its path. -/
def Within (base t : Tree) : Prop := ∀ p, (base.read p).isSome → (t.read p).isSome

/-- Where a tree has a file, nothing within it is in the way. -/
theorem free_of_within (hwithin : Within base t) (hp : (t.read p).isSome) : base.Free p := by
  obtain ⟨c, hc⟩ := Option.isSome_iff_exists.mp hp
  intro f hf hcomparable
  obtain ⟨c', hc'⟩ := Option.isSome_iff_exists.mp
    (hwithin f.1 (Option.isSome_of_mem (read_eq_some.mpr hf)))
  rcases hcomparable with habove | hbelow
  · exact t.separate _ (read_eq_some.mp hc') _ (read_eq_some.mp hc) habove
  · exact (t.separate _ (read_eq_some.mp hc) _ (read_eq_some.mp hc') hbelow).symm

theorem write_within (hwithin : Within base t) (hp : (t.read p).isSome) (c : String) :
    ∃ t', base.write p c = some t' ∧ Within t' t := by
  have hwrite : ∃ t', base.write p c = some t' := by
    unfold Tree.write
    rw [dif_pos (free_of_within hwithin hp)]
    exact ⟨_, rfl⟩
  obtain ⟨t', hwrite⟩ := hwrite
  refine ⟨t', hwrite, fun q hq => ?_⟩
  rw [read_write hwrite] at hq
  by_cases hqp : q = p
  · rw [hqp]
    exact hp
  · rw [if_neg hqp] at hq
    exact hwithin q hq

/-- **Files that are there can be written again**, also after some were removed. -/
theorem writeAll_held (files : List (Path × String)) (hwithin : Within base t)
    (hheld : ∀ f ∈ files, (t.read f.1).isSome) :
    ∃ t', base.writeAll files = some t' ∧ Within t' t := by
  induction files generalizing base with
  | nil => exact ⟨base, rfl, hwithin⟩
  | cons f files ih =>
      obtain ⟨t₁, hwrite, hwithin₁⟩ :=
        write_within hwithin (hheld f List.mem_cons_self) f.2
      obtain ⟨t', hrest, hwithin'⟩ :=
        ih hwithin₁ fun g hg => hheld g (List.mem_cons_of_mem f hg)
      exact ⟨t', writeAll_cons.mpr ⟨t₁, hwrite, hrest⟩, hwithin'⟩

theorem within_remove (root : Path) : Within (t.remove root) t := by
  intro p hp
  rw [read_remove] at hp
  by_cases hroot : root <+: p
  · rw [if_pos hroot] at hp
    cases hp
  · rwa [if_neg hroot] at hp

end Held

/-! ## §2. Displayed paths. -/

/-- Names as a file system has them. -/
def Named (t : Tree) : Prop := ∀ f ∈ t.files, ∀ name ∈ f.1, '/' ∉ name.toList

instance (t : Tree) : Decidable (Named t) :=
  inferInstanceAs (Decidable (∀ f ∈ t.files, ∀ name ∈ f.1, '/' ∉ name.toList))

/-- Without slashes in its names a path is what it is displayed as. -/
theorem display_inj {p q : Path} (hp : ∀ name ∈ p, '/' ∉ name.toList)
    (hq : ∀ name ∈ q, '/' ∉ name.toList) (hpne : p ≠ []) (hqne : q ≠ [])
    (h : display p = display q) : p = q := by
  -- the displayed text splits into the names again
  have hsplit : ∀ {r : Path}, (∀ name ∈ r, '/' ∉ name.toList) → r ≠ [] →
      (display r).toList.splitOn '/' = r.map String.toList := by
    intro r hr hrne
    have htext : (display r).toList = ['/'].intercalate (r.map String.toList) := by
      show ("/".intercalate r).toList = _
      rw [String.toList_intercalate]
      rfl
    rw [htext]
    refine List.splitOn_intercalate '/' ?_ (fun hnil => hrne (List.map_eq_nil_iff.mp hnil))
    intro l hl
    obtain ⟨name, hname, rfl⟩ := List.mem_map.mp hl
    exact hr name hname
  have hmap : p.map String.toList = q.map String.toList := by
    rw [← hsplit hp hpne, ← hsplit hq hqne, h]
  exact List.map_injective_iff.mpr (fun a b hab => String.toList_inj.mp hab) hmap

/-! ## §3. A tree that passes is kept. -/

section Kept

variable {x : Inputs} {t t' : Tree}

/-- The README that the check leaves out and the run removes. -/
def lowercaseReadme : Path := generatedRoot ++ ["readme.md"]

/-- A run leaves every file as it is, but for a README that the schema generator drops. -/
def Kept (x : Inputs) (g : Generator) (t : Tree) : Prop :=
  ∃ t', run x g t = some t' ∧
    ∀ p, (g = .schemaOrm → p ≠ lowercaseReadme) → t'.read p = t.read p

theorem embeddings_fresh (h : Passes x .embeddings t) :
    ∀ f ∈ owned x .embeddings, t.read f.1 = some f.2 := by
  intro f hf
  have hfresh := List.filter_eq_nil_iff.mp (List.map_eq_nil_iff.mp h) f hf
  simpa using hfresh

/-- What a check that passes has found: no file at the root, the expected files with
their contents, and no others but the READMEs. -/
theorem schemaOrm_fresh (h : Passes x .schemaOrm t) :
    t.read generatedRoot = none ∧
      (∀ q ∈ t.below generatedRoot, display q ≠ "README.md" → display q ≠ "readme.md" →
        display q ∈ schemaPaths.map display) ∧
      (∀ f ∈ generateFiles x.schemaOrm, t.holds (generatedRoot ++ f.1) = true →
        t.read (generatedRoot ++ f.1) = some f.2) ∧
      ∀ s ∈ schemaPaths, ∃ q ∈ t.below generatedRoot, display q = display s := by
  have hpaths := checkGenerated_eq_ok h
  have hexpected : (generateFiles x.schemaOrm).map (fun f => display f.1)
      = schemaPaths.map display := by
    rw [← generateFiles_paths x.schemaOrm, List.map_map]
    rfl
  rw [hexpected] at hpaths
  change checkGenerated _ _ _ = _ at h
  unfold checkGenerated listFiles at h
  simp only [do_eq_ok, rejectIf_eq_ok, not_not, List.append_eq_nil_iff] at h
  -- the listing, the comparison of each file, and nothing found by either
  obtain ⟨listed, hlisted, stale, hstale, -, hnone⟩ := h
  refine ⟨?_, ?_, ?_, ?_⟩
  · by_cases hroot : (t.read generatedRoot).isSome
    · rw [if_pos hroot] at hlisted
      cases hlisted
    · exact Option.not_isSome_iff_eq_none.mp hroot
  · intro q hq hupper hlower
    have hmem : display q ∈ (canonical id ((t.below generatedRoot).map display)).filter
        fun path => path ≠ "README.md" ∧ path ≠ "readme.md" := by
      rw [List.mem_filter, mem_canonical]
      exact ⟨List.mem_map_of_mem hq, decide_eq_true ⟨hupper, hlower⟩⟩
    rwa [← hpaths, mem_canonical] at hmem
  · intro f hf hholds
    obtain ⟨failures, hfailures, hf⟩ := exists_mapM hstale f hf
    rw [List.flatten_eq_nil_iff.mp hnone failures hfailures] at hf
    unfold staleFile at hf
    rw [if_pos hholds] at hf
    cases hread : t.read (generatedRoot ++ f.1) with
    | none =>
        rw [hread] at hf
        cases hf
    | some current =>
        rw [hread] at hf
        change Except.ok (if current ≠ f.2 then _ else _) = _ at hf
        by_cases hne : current ≠ f.2
        · rw [if_pos hne] at hf
          cases hf
        · rw [not_not.mp hne]
  · intro s hs
    have hmem : display s ∈ (canonical id ((t.below generatedRoot).map display)).filter
        fun path => path ≠ "README.md" ∧ path ≠ "readme.md" := by
      rw [← hpaths, mem_canonical]
      exact List.mem_map_of_mem hs
    obtain ⟨q, hq, hdisplay⟩ := List.mem_map.mp
      ((mem_canonical id).mp (List.mem_of_mem_filter hmem))
    exact ⟨q, hq, hdisplay⟩

/-- A run of the embeddings generator keeps what its check passes. -/
theorem embeddings_kept (h : Passes x .embeddings t) : Kept x .embeddings t := by
  have hfresh := embeddings_fresh h
  have hwithin : Within t t := fun _ hp => hp
  obtain ⟨t', hrun, -⟩ := writeAll_held (outputs x.embeddings) hwithin
    (fun f hf => Option.isSome_of_mem (hfresh f hf))
  refine ⟨t', hrun, fun p _ => ?_⟩
  by_cases hp : p ∈ (outputs x.embeddings).map (·.1)
  · obtain ⟨f, hf, rfl⟩ := List.mem_map.mp hp
    rw [read_of_mem hrun (owned_distinct x .embeddings) hf]
    exact (hfresh f hf).symm
  · exact read_of_not_mem hrun hp

/-- The paths that the check knows under `generated/`: the READMEs it leaves alone, and
the files it expects. -/
def knownPaths : List Path := ["README.md"] :: ["readme.md"] :: schemaPaths

/-- The names of the known paths have no slashes. -/
theorem known_names : ∀ q ∈ knownPaths, ∀ name ∈ q, '/' ∉ name.toList := by
  decide

theorem known_ne_nil : ∀ q ∈ knownPaths, q ≠ [] := by
  decide

/-- Under `generated/` a tree that passes has the expected files, and READMEs. -/
theorem below_of_passes (hnames : Named t) (h : Passes x .schemaOrm t) :
    (∀ s ∈ schemaPaths, s ∈ t.below generatedRoot) ∧
      ∀ q ∈ t.below generatedRoot, q ∈ knownPaths := by
  obtain ⟨hroot, honly, -, hall⟩ := schemaOrm_fresh h
  have hbelow : ∀ q ∈ t.below generatedRoot, (∀ name ∈ q, '/' ∉ name.toList) ∧ q ≠ [] := by
    intro q hq
    obtain ⟨c, hc⟩ := mem_below.mp hq
    constructor
    · intro name hname
      exact hnames _ (read_eq_some.mp hc) name (List.mem_append_right _ hname)
    · rintro rfl
      rw [List.append_nil, hroot] at hc
      cases hc
  have hknown : ∀ q ∈ t.below generatedRoot,
      ∀ s ∈ knownPaths, display q = display s → q = s := by
    intro q hq s hs hdisplay
    exact display_inj (hbelow q hq).1 (known_names s hs) (hbelow q hq).2 (known_ne_nil s hs)
      hdisplay
  constructor
  · intro s hs
    obtain ⟨q, hq, hdisplay⟩ := hall s hs
    rw [← hknown q hq s (List.mem_cons_of_mem _ (List.mem_cons_of_mem _ hs)) hdisplay]
    exact hq
  · intro q hq
    by_cases hupper : display q = "README.md"
    · rw [hknown q hq ["README.md"] (by decide) (by rw [hupper]; decide)]
      exact List.mem_cons_self
    · by_cases hlower : display q = "readme.md"
      · rw [hknown q hq ["readme.md"] (by decide) (by rw [hlower]; decide)]
        exact List.mem_cons_of_mem _ List.mem_cons_self
      · obtain ⟨s, hs, hdisplay⟩ := List.mem_map.mp (honly q hq hupper hlower)
        have hs' := List.mem_cons_of_mem ["README.md"] (List.mem_cons_of_mem ["readme.md"] hs)
        rw [hknown q hq s hs' hdisplay.symm]
        exact hs'

/-- The README can be read where it is, because no known path goes through it. -/
theorem policyReadmeContent_of_passes (hnames : Named t) (h : Passes x .schemaOrm t) :
    policyReadmeContent generatedRoot t = some (t.read (policyReadme generatedRoot)) := by
  unfold policyReadmeContent
  by_cases hholds : t.holds (policyReadme generatedRoot) = true
  · rw [if_pos hholds]
    cases hread : t.read (policyReadme generatedRoot) with
    | some c => rfl
    | none =>
        exfalso
        unfold Tree.holds Tree.isDirectory at hholds
        rw [hread, Option.isSome_none, Bool.false_or, List.any_eq_true] at hholds
        obtain ⟨f, hf, hf'⟩ := hholds
        obtain ⟨⟨rest, hrest⟩, hne⟩ := of_decide_eq_true hf'
        have hpath : f.1 = generatedRoot ++ ("README.md" :: rest) := by
          rw [← hrest]
          rfl
        have hq := (below_of_passes hnames h).2 ("README.md" :: rest)
          (mem_below.mpr ⟨f.2, by rw [← hpath]; exact read_eq_some.mpr hf⟩)
        -- a file below it would be a path that goes on after `README.md`
        have hhead : ∀ q ∈ knownPaths, q.head? = some "README.md" → q = ["README.md"] := by
          decide
        rw [hpath, hhead _ hq rfl] at hne
        exact hne rfl
  · rw [if_neg hholds]
    cases hread : t.read (policyReadme generatedRoot) with
    | some c =>
        unfold Tree.holds at hholds
        rw [hread] at hholds
        exact absurd rfl hholds
    | none => rfl

/-- A run of the schema generator keeps the policy README. -/
theorem readme_of_run (h : run x .schemaOrm t = some t') :
    t'.read (policyReadme generatedRoot) = t.read (policyReadme generatedRoot) := by
  change writeGenerated _ _ _ = _ at h
  unfold writeGenerated policyReadmeContent at h
  by_cases hholds : t.holds (policyReadme generatedRoot) = true
  · rw [if_pos hholds] at h
    cases hread : t.read (policyReadme generatedRoot) with
    | none =>
        rw [hread] at h
        cases h
    | some c =>
        rw [hread] at h
        simp only [Option.bind_eq_bind, Option.map_some, Option.bind_some,
          Option.bind_eq_some_iff] at h
        obtain ⟨written, -, hwrite⟩ := h
        rw [read_write hwrite, if_pos rfl]
  · have hnone : t.read (policyReadme generatedRoot) = none := by
      unfold Tree.holds at hholds
      rw [Bool.or_eq_true, not_or] at hholds
      exact Option.not_isSome_iff_eq_none.mp hholds.1
    rw [if_neg hholds] at h
    simp only [Option.bind_eq_bind, Option.bind_some, Option.bind_eq_some_iff] at h
    obtain ⟨written, hwritten, hsame⟩ := h
    have hother : policyReadme generatedRoot ∉ (owned x .schemaOrm).map (·.1) := by
      rw [owned_paths]
      decide
    have hbelow : generatedRoot <+: policyReadme generatedRoot := List.prefix_append _ _
    rw [← Option.some.inj hsame, read_of_not_mem hwritten hother, read_remove, if_pos hbelow, hnone]

/-- A run of the schema generator keeps what its check passes, but for a `readme.md`. -/
theorem schemaOrm_kept (hnames : Named t) (h : Passes x .schemaOrm t) : Kept x .schemaOrm t := by
  obtain ⟨hall, honly⟩ := below_of_passes hnames h
  have hfresh : ∀ f ∈ owned x .schemaOrm, t.read f.1 = some f.2 := by
    intro owned hmem
    obtain ⟨f, hf, rfl⟩ := List.mem_map.mp hmem
    have hpath := List.mem_map_of_mem (f := (·.1)) hf
    rw [generateFiles_paths] at hpath
    -- the check listed the file, so it is there to be compared
    obtain ⟨c, hc⟩ := mem_below.mp (hall f.1 hpath)
    refine (schemaOrm_fresh h).2.2.1 f hf ?_
    unfold Tree.holds
    rw [hc]
    rfl
  obtain ⟨written, hwritten, hwithin⟩ := writeAll_held (owned x .schemaOrm)
    (within_remove generatedRoot) (fun f hf => Option.isSome_of_mem (hfresh f hf))
  -- the run writes the README last, if there is one
  have hrun : ∃ t', run x .schemaOrm t = some t' := by
    show ∃ t', writeGenerated (generateFiles x.schemaOrm) generatedRoot t = some t'
    unfold writeGenerated
    rw [policyReadmeContent_of_passes hnames h]
    simp only [Option.bind_eq_bind, Option.bind_some]
    change ∃ t', ((t.remove generatedRoot).writeAll (owned x .schemaOrm)).bind _ = some t'
    rw [hwritten, Option.bind_some]
    cases hread : t.read (policyReadme generatedRoot) with
    | none => exact ⟨written, rfl⟩
    | some c =>
        obtain ⟨t', hwrite, -⟩ := write_within hwithin (Option.isSome_of_mem hread) c
        exact ⟨t', hwrite⟩
  obtain ⟨t', hrun⟩ := hrun
  obtain ⟨written', hwritten', hother⟩ := read_writeGenerated hrun
  have hsame : written' = written := Option.some.inj (hwritten'.symm.trans hwritten)
  rw [hsame] at hother
  refine ⟨t', hrun, fun p hp => ?_⟩
  by_cases hp' : p = policyReadme generatedRoot
  · rw [hp']
    exact readme_of_run hrun
  · rw [hother p hp']
    by_cases hmem : p ∈ (owned x .schemaOrm).map (·.1)
    · obtain ⟨f, hf, rfl⟩ := List.mem_map.mp hmem
      rw [read_of_mem hwritten (owned_distinct x .schemaOrm) hf, hfresh f hf]
    · rw [read_of_not_mem hwritten hmem, read_remove]
      by_cases hroot : generatedRoot <+: p
      · -- nothing else was there
        rw [if_pos hroot]
        refine (Option.eq_none_iff_forall_not_mem.mpr fun c hc => ?_).symm
        obtain ⟨q, rfl⟩ := hroot
        rcases List.mem_cons.mp (honly q (mem_below.mpr ⟨c, hc⟩)) with rfl | hq
        · exact hp' rfl
        · rcases List.mem_cons.mp hq with rfl | hq
          · exact hp rfl rfl
          · refine hmem ?_
            rw [← generateFiles_paths x.schemaOrm] at hq
            obtain ⟨f, hf, rfl⟩ := List.mem_map.mp hq
            exact List.mem_map_of_mem (List.mem_map_of_mem hf)
      · rw [if_neg hroot]

/-! ## §4. A tree that is kept passes. -/

/-- Different known paths are displayed differently. -/
theorem known_injOn :
    ∀ p ∈ knownPaths, ∀ q ∈ knownPaths, display p = display q → p = q := by
  decide

/-- After a run of the schema generator there are known paths only. -/
theorem known_of_run (h : run x .schemaOrm t = some t') {q : Path}
    (hq : q ∈ t'.below generatedRoot) : q ∈ knownPaths := by
  rcases List.mem_cons.mp (below_of_run h hq) with rfl | hmem
  · exact List.mem_cons_self
  · exact List.mem_cons_of_mem _ (List.mem_cons_of_mem _ hmem)

theorem passes_of_kept {g : Generator} (h : Kept x g t) : Passes x g t := by
  obtain ⟨t', hrun, hkeep⟩ := h
  have hread := read_of_run hrun
  cases g with
  | embeddings =>
      show (_ : List String) = []
      unfold staleOutputs
      rw [List.map_eq_nil_iff, List.filter_eq_nil_iff]
      intro f hf
      rw [← hkeep f.1 (fun hg => by cases hg), hread f hf]
      simp
  | schemaOrm =>
      -- the tree after the run passes, and differs from this one in `readme.md` only
      have hpasses := passes_of_run hrun
      have hbelow : ∀ q, q ≠ ["readme.md"] →
          (q ∈ t.below generatedRoot ↔ q ∈ t'.below generatedRoot) := by
        intro q hq
        rw [mem_below, mem_below, hkeep _ fun _ heq => hq (List.append_cancel_left heq)]
      have hknown' : ∀ q ∈ t'.below generatedRoot, q ∈ knownPaths := fun q hq =>
        known_of_run hrun hq
      have hknown : ∀ q ∈ t.below generatedRoot, q ∈ knownPaths := by
        intro q hq
        by_cases hlower : q = ["readme.md"]
        · rw [hlower]
          exact List.mem_cons_of_mem _ List.mem_cons_self
        · exact hknown' q ((hbelow q hlower).mp hq)
      -- the listings are sorted, so equal sets of displayed paths make them equal
      have hnodup : ((t.below generatedRoot).map display).Nodup :=
        below_nodup.map_on fun p hp q hq => known_injOn p (hknown p hp) q (hknown q hq)
      have hnodup' : ((t'.below generatedRoot).map display).Nodup :=
        below_nodup.map_on fun p hp q hq => known_injOn p (hknown' p hp) q (hknown' q hq)
      refine checkGenerated_ok ?_ ?_ ?_
      · rw [← hkeep generatedRoot (fun _ => by decide)]
        exact (schemaOrm_fresh hpasses).1
      · -- a `readme.md` is left out of the listing
        rw [listed_of_run hrun, canonical_filter id (by rwa [List.map_id]),
          canonical_filter id (by rwa [List.map_id])]
        refine canonical_eq_of_perm id ?_ ?_
        · rw [List.map_id]
          exact hnodup'.filter _
        · rw [List.perm_ext_iff_of_nodup (hnodup'.filter _) (hnodup.filter _)]
          intro path
          rw [List.mem_filter, List.mem_filter, decide_eq_true_iff, List.mem_map, List.mem_map]
          refine and_congr_left fun hpath => exists_congr fun q => and_congr_left fun hq => ?_
          refine (hbelow q fun hlower => hpath.2 ?_).symm
          rw [← hq, hlower]
          decide
      · intro f hf
        have hpath := List.mem_map_of_mem (f := (·.1)) hf
        rw [generateFiles_paths] at hpath
        rw [← hkeep _ fun _ heq => ?_]
        · exact hread (generatedRoot ++ f.1, f.2) (List.mem_map_of_mem hf)
        · rw [List.append_cancel_left heq] at hpath
          exact absurd hpath (by decide)

/-- **What `--check` asks.**  A check passes on the trees that a run of the generator
would leave as they are; only a `readme.md` under `generated/` is passed by the schema
generator's check and removed by its run. -/
theorem passes_iff_kept (x : Inputs) (g : Generator) {t : Tree} (hnames : Named t) :
    Passes x g t ↔ Kept x g t := by
  constructor
  · intro h
    cases g with
    | embeddings => exact embeddings_kept h
    | schemaOrm => exact schemaOrm_kept hnames h
  · exact passes_of_kept

end Kept

/-- On the tree that a run leaves. -/
theorem passes_iff_kept_run :
    Passes default .schemaOrm ((run default .schemaOrm Tree.empty).getD Tree.empty) ↔
      Kept default .schemaOrm ((run default .schemaOrm Tree.empty).getD Tree.empty) :=
  passes_iff_kept default .schemaOrm (by decide)

end ClipTown.Generated
