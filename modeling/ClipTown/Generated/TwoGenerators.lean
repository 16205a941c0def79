/-
  ClipTown.Generated.TwoGenerators — the two programs that write under
  `generated/` (`tools/schema-orm-codegen.mjs`, `scripts/embeddings/generate.mjs`).

  The schema generator removes `generated/`, writes its own files and, on
  `--check`, demands that no others are there but the policy README.  The
  embeddings generator writes a list of paths, three of them under
  `generated/`, and on `--check` demands its own.  What a generator writes
  depends on its inputs only, and the texts are taken as given.

    • `passes_of_run` — a generator passes its own check after its own run,
    • `checks_exclude` — no tree passes both checks,
    • `second_wins` — after both runs the second passes and the first fails,
    • `generators_disturb` — they disturb each other on every tree.
-/
import ClipTown.Lib.CanonicalOrder
import ClipTown.Lib.FileTree
import Mathlib.Data.String.Basic

namespace ClipTown.Generated

open CanonicalOrder Checks FileTree

/-- A path, as `relative` and the output maps write it. -/
def display (p : Path) : String := "/".intercalate p

/-! ## §1. The schema generator. -/

/-- What `generateFiles` makes of the persistence schema. -/
structure SchemaTexts where
  postgres : String
  sqlite : String
  seaOrm : String
  drizzle : String
  prisma : String
  typeOrm : String
  gorm : String
  ent : String
  drift : String
  stormberry : String
  sharedTs : String
  sharedRust : String
  sharedGo : String
  sharedDart : String
  manifest : String
  deriving Inhabited

/-- `GENERATED_ROOT`. -/
def generatedRoot : Path := ["generated"]

/-- `generateFiles`. -/
def generateFiles (x : SchemaTexts) : List (Path × String) :=
  [(["sql", "postgres.sql"], x.postgres),
    (["sql", "sqlite.sql"], x.sqlite),
    (["rust", "sea-orm", "entities.rs"], x.seaOrm),
    (["node", "drizzle", "schema.ts"], x.drizzle),
    (["node", "prisma", "schema.prisma"], x.prisma),
    (["node", "typeorm", "entities.ts"], x.typeOrm),
    (["go", "gorm", "models.go"], x.gorm),
    (["go", "ent", "schema", "entities.go"], x.ent),
    (["dart", "drift", "tables.dart"], x.drift),
    (["dart", "stormberry", "models.dart"], x.stormberry),
    (["shared", "typescript", "entity-descriptors.ts"], x.sharedTs),
    (["shared", "rust", "entity_descriptors.rs"], x.sharedRust),
    (["shared", "go", "entity_descriptors.go"], x.sharedGo),
    (["shared", "dart", "entity_descriptors.dart"], x.sharedDart),
    (["manifest.json"], x.manifest)]

/-- `listFiles`; a root that is a file cannot be listed. -/
def listFiles (root : Path) (t : Tree) : Except String (List String) :=
  if (t.read root).isSome then .error "ENOTDIR"
  else .ok (canonical id ((t.below root).map display))

/-- `policyReadme`. -/
def policyReadme (outputRoot : Path) : Path := outputRoot ++ ["README.md"]

/-- `policyReadmeContent`, where the README can be read. -/
def policyReadmeContent (outputRoot : Path) (t : Tree) : Option (Option String) :=
  if t.holds (policyReadme outputRoot) then (t.read (policyReadme outputRoot)).map some
  else some none

/-- `writeGenerated`; `none` where a file cannot be read or written. -/
def writeGenerated (files : List (Path × String)) (outputRoot : Path) (t : Tree) :
    Option Tree := do
  let content ← policyReadmeContent outputRoot t
  let written ← (t.remove outputRoot).writeAll (files.map fun f => (outputRoot ++ f.1, f.2))
  match content with
  | some content => written.write (policyReadme outputRoot) content
  | none => some written

/-- One file of `checkGenerated`: its failures, if it can be read. -/
def staleFile (outputRoot : Path) (t : Tree) (file : Path × String) :
    Except String (List String) :=
  let target := outputRoot ++ file.1
  if t.holds target then
    match t.read target with
    | some current => .ok (if current ≠ file.2 then [display file.1 ++ " is stale"] else [])
    | none => .error "EISDIR"
  else .ok []

/-- `checkGenerated`. -/
def checkGenerated (files : List (Path × String)) (outputRoot : Path) (t : Tree) :
    Except String Unit := do
  let expectedPaths := canonical id (files.map fun f => display f.1)
  let listed ← listFiles outputRoot t
  let actualPaths := listed.filter fun path => path ≠ "README.md" ∧ path ≠ "readme.md"
  let stale ← files.mapM (staleFile outputRoot t)
  let differs := if expectedPaths ≠ actualPaths then
      ["generated file set differs\nexpected: " ++ ", ".intercalate expectedPaths
        ++ "\nactual: " ++ ", ".intercalate actualPaths]
    else []
  let failures := differs ++ stale.flatten
  rejectIf (failures ≠ []) ("\n".intercalate failures)

/-! ## §2. The embeddings generator. -/

/-- What the generator makes of the embedding contract and the manifest. -/
structure EmbeddingsTexts where
  postgres : String
  cockroach : String
  migration : String
  hybridSearch : String
  dedupe : String
  correlate : String
  alertMatch : String
  rust : String
  ts : String
  dart : String
  jsonSchema : String
  typespec : String
  docs : String
  test : String
  deriving Inhabited

/-- `outputs`, with the prefix and the table of `db/org-manifest.json`. -/
def outputs (x : EmbeddingsTexts) : List (Path × String) :=
  [(["db", "schema", "postgres", "0100_cliptown_embeddings.sql"], x.postgres),
    (["db", "schema", "cockroach", "0100_cliptown_embeddings.sql"], x.cockroach),
    (["db", "migrations", "20260829T120000__cliptown_embeddings_v2.sql"], x.migration),
    (["db", "queries", "hybrid_search.sql"], x.hybridSearch),
    (["db", "queries", "dedupe_candidates.sql"], x.dedupe),
    (["db", "queries", "correlate_entities.sql"], x.correlate),
    (["db", "queries", "alert_match.sql"], x.alertMatch),
    (["generated", "rust", "sea-orm", "clip_embeddings.rs"], x.rust),
    (["generated", "typescript", "embeddings.ts"], x.ts),
    (["generated", "dart", "embeddings.dart"], x.dart),
    (["schema", "embeddings.schema.json"], x.jsonSchema),
    (["typespec", "embeddings.tsp"], x.typespec),
    (["docs", "embeddings.md"], x.docs),
    (["tests", "embeddings-contract.test.mjs"], x.test)]

/-- The loop that writes. -/
def writeOutputs (x : EmbeddingsTexts) (t : Tree) : Option Tree := t.writeAll (outputs x)

/-- The loop of `--check`: the files that it reports as stale. -/
def staleOutputs (x : EmbeddingsTexts) (t : Tree) : List String :=
  ((outputs x).filter fun f => t.read f.1 ≠ some f.2).map fun f => display f.1

/-! ## §3. Both. -/

inductive Generator where
  | embeddings
  | schemaOrm
  deriving DecidableEq

def Generator.other : Generator → Generator
  | .embeddings => .schemaOrm
  | .schemaOrm => .embeddings

/-- The texts that the two generators make of their inputs. -/
structure Inputs where
  embeddings : EmbeddingsTexts
  schemaOrm : SchemaTexts
  deriving Inhabited

section Generators

variable (x : Inputs)

/-- A run. -/
def run : Generator → Tree → Option Tree
  | .embeddings => writeOutputs x.embeddings
  | .schemaOrm => writeGenerated (generateFiles x.schemaOrm) generatedRoot

/-- `--check` succeeds. -/
def Passes : Generator → Tree → Prop
  | .embeddings, t => staleOutputs x.embeddings t = []
  | .schemaOrm, t => checkGenerated (generateFiles x.schemaOrm) generatedRoot t = .ok ()

/-- The files that a generator writes. -/
def owned : Generator → List (Path × String)
  | .embeddings => outputs x.embeddings
  | .schemaOrm => (generateFiles x.schemaOrm).map fun f => (generatedRoot ++ f.1, f.2)

/-- After both runs both checks succeed, and neither run touched a file of the other. -/
def Undisturbed (first : Generator) (tree : Tree) : Prop :=
  ∃ middle final, run x first tree = some middle ∧ run x first.other middle = some final
    ∧ (∀ g, Passes x g final)
    ∧ (∀ f ∈ owned x first.other, middle.read f.1 = tree.read f.1)
    ∧ ∀ f ∈ owned x first, final.read f.1 = middle.read f.1

end Generators

/-! ## §4. What a run leaves. -/

section Runs

variable {files : List (Path × String)} {outputRoot : Path} {t t' : Tree}

/-- What `writeGenerated` writes, and the README that it keeps. -/
theorem writeGenerated_eq_some (h : writeGenerated files outputRoot t = some t') :
    ∃ written, (t.remove outputRoot).writeAll (files.map fun f => (outputRoot ++ f.1, f.2))
        = some written
      ∧ (t' = written ∨ ∃ content, written.write (policyReadme outputRoot) content = some t') := by
  unfold writeGenerated at h
  simp only [Option.bind_eq_bind, Option.bind_eq_some_iff] at h
  obtain ⟨readme, _, written, hwritten, hreadme⟩ := h
  refine ⟨written, hwritten, ?_⟩
  cases readme with
  | none => exact Or.inl (Option.some.inj hreadme).symm
  | some content => exact Or.inr ⟨content, hreadme⟩

/-- Only the README may differ from what the removal and the writes leave. -/
theorem read_writeGenerated (h : writeGenerated files outputRoot t = some t') :
    ∃ written, (t.remove outputRoot).writeAll (files.map fun f => (outputRoot ++ f.1, f.2))
        = some written
      ∧ ∀ p, p ≠ policyReadme outputRoot → t'.read p = written.read p := by
  obtain ⟨written, hwritten, hreadme⟩ := writeGenerated_eq_some h
  refine ⟨written, hwritten, fun p hp => ?_⟩
  rcases hreadme with rfl | ⟨content, hreadme⟩
  · rfl
  · rw [read_write hreadme, if_neg hp]

/-- The checks of `checkGenerated`. -/
theorem checkGenerated_eq_ok {u : Unit} (h : checkGenerated files outputRoot t = .ok u) :
    canonical id (files.map fun f => display f.1)
      = (canonical id ((t.below outputRoot).map display)).filter
          fun path => path ≠ "README.md" ∧ path ≠ "readme.md" := by
  unfold checkGenerated listFiles at h
  simp only [do_eq_ok, rejectIf_eq_ok, not_not, List.append_eq_nil_iff] at h
  obtain ⟨listed, hlisted, stale, _, hdiffers, _⟩ := h
  split at hlisted
  next => cases hlisted
  next =>
    cases hlisted
    by_contra hne
    rw [if_pos hne] at hdiffers
    cases hdiffers

/-- A check that finds the files it expects, with their contents. -/
theorem checkGenerated_ok (hroot : t.read outputRoot = none)
    (hpaths : canonical id (files.map fun f => display f.1)
      = (canonical id ((t.below outputRoot).map display)).filter
          fun path => path ≠ "README.md" ∧ path ≠ "readme.md")
    (hread : ∀ f ∈ files, t.read (outputRoot ++ f.1) = some f.2) :
    checkGenerated files outputRoot t = .ok () := by
  have hstale : files.mapM (staleFile outputRoot t) = .ok (files.map fun _ => []) := by
    clear hpaths
    induction files with
    | nil => rfl
    | cons f files ih =>
        have hf : staleFile outputRoot t f = .ok [] := by
          have hf := hread f List.mem_cons_self
          simp [staleFile, Tree.holds, hf]
        rw [List.mapM_cons, hf, ih fun g hg => hread g (List.mem_cons_of_mem f hg)]
        rfl
  unfold checkGenerated listFiles
  rw [hroot, hstale]
  simp only [do_eq_ok, rejectIf_eq_ok, not_not, hpaths]
  exact ⟨_, rfl, _, rfl, by simp⟩

end Runs

/-! ## §5. One generator alone. -/

/-- The paths of `generateFiles`. -/
def schemaPaths : List Path := (generateFiles default).map (·.1)

theorem generateFiles_paths (x : SchemaTexts) : (generateFiles x).map (·.1) = schemaPaths := rfl

/-- Different files are displayed differently, and none as the README. -/
theorem display_injOn : ∀ p ∈ ["README.md"] :: schemaPaths, ∀ q ∈ ["README.md"] :: schemaPaths,
    display p = display q → p = q := by
  decide

theorem display_ne_readme :
    ∀ p ∈ schemaPaths, display p ≠ "README.md" ∧ display p ≠ "readme.md" := by
  decide

/-- The paths that a generator writes do not depend on what it writes there. -/
theorem owned_paths (x : Inputs) (g : Generator) :
    (owned x g).map (·.1) = (owned default g).map (·.1) := by
  cases g <;> rfl

theorem owned_distinct (x : Inputs) (g : Generator) : ((owned x g).map (·.1)).Nodup := by
  have hall : ∀ g, ((owned default g).map (·.1)).Nodup := by
    intro g
    cases g <;> decide
  rw [owned_paths]
  exact hall g

section Alone

variable {x : Inputs} {t t' : Tree}

/-- **A generator writes its files.** -/
theorem read_of_run {g : Generator} (h : run x g t = some t') :
    ∀ f ∈ owned x g, t'.read f.1 = some f.2 := by
  intro f hf
  cases g with
  | embeddings => exact read_of_mem h (owned_distinct x .embeddings) hf
  | schemaOrm =>
      obtain ⟨written, hwritten, hread⟩ := read_writeGenerated h
      have hne : f.1 ≠ policyReadme generatedRoot := by
        obtain ⟨f', hf', rfl⟩ := List.mem_map.mp hf
        have hpath := List.mem_map_of_mem (f := (·.1)) hf'
        rw [generateFiles_paths] at hpath
        intro heq
        have hreadme := List.append_cancel_left heq
        exact (display_ne_readme f'.1 hpath).1 (by rw [hreadme]; decide)
      rw [hread f.1 hne]
      exact read_of_mem hwritten (owned_distinct x .schemaOrm) hf

/-- What the schema generator leaves under `generated/`. -/
theorem below_of_run (h : run x .schemaOrm t = some t') {q : Path}
    (hq : q ∈ t'.below generatedRoot) : q ∈ ["README.md"] :: schemaPaths := by
  obtain ⟨c, hc⟩ := mem_below.mp hq
  obtain ⟨written, hwritten, hread⟩ := read_writeGenerated h
  by_contra hnot
  rw [List.mem_cons, not_or] at hnot
  rw [hread _ fun heq => hnot.1 (List.append_cancel_left heq)] at hc
  have hother : generatedRoot ++ q ∉ ((generateFiles x.schemaOrm).map
      fun f => (generatedRoot ++ f.1, f.2)).map (·.1) := by
    intro hmem
    rw [List.map_map] at hmem
    obtain ⟨f, hf, heq⟩ := List.mem_map.mp hmem
    have hpath := List.mem_map_of_mem (f := (·.1)) hf
    rw [generateFiles_paths, List.append_cancel_left heq] at hpath
    exact hnot.2 hpath
  rw [read_of_not_mem hwritten hother, read_remove, if_pos (List.prefix_append _ q)] at hc
  cases hc

/-- What the schema generator leaves is listed as the paths that it expects. -/
theorem listed_of_run (h : run x .schemaOrm t = some t') :
    canonical id ((generateFiles x.schemaOrm).map fun f => display f.1)
      = (canonical id ((t'.below generatedRoot).map display)).filter
          fun path => path ≠ "README.md" ∧ path ≠ "readme.md" := by
  have hpaths : (generateFiles x.schemaOrm).map (fun f => display f.1)
      = schemaPaths.map display := by
    rw [← generateFiles_paths x.schemaOrm, List.map_map]
    rfl
  have hexpected : (schemaPaths.map display).Nodup := by decide
  have hbelow : ((t'.below generatedRoot).map display).Nodup := by
    refine below_nodup.map_on ?_
    intro p hp q hq
    exact display_injOn p (below_of_run h hp) q (below_of_run h hq)
  -- neither list repeats a path, so it is enough that they have the same members
  rw [hpaths, canonical_filter id (by rwa [List.map_id])]
  refine canonical_eq_of_perm id (by rwa [List.map_id]) ?_
  rw [List.perm_ext_iff_of_nodup hexpected (hbelow.filter _)]
  intro path
  rw [List.mem_filter, decide_eq_true_iff]
  constructor
  · intro hpath
    obtain ⟨p, hp, rfl⟩ := List.mem_map.mp hpath
    refine ⟨List.mem_map_of_mem (mem_below.mpr ?_), display_ne_readme p hp⟩
    rw [← generateFiles_paths x.schemaOrm] at hp
    obtain ⟨f, hf, rfl⟩ := List.mem_map.mp hp
    exact ⟨f.2, read_of_run h _ (List.mem_map_of_mem hf)⟩
  · intro ⟨hpath, hreadme, _⟩
    obtain ⟨p, hp, rfl⟩ := List.mem_map.mp hpath
    rcases List.mem_cons.mp (below_of_run h hp) with rfl | hmem
    -- the policy README, which the listing leaves out
    · exact absurd (by decide) hreadme
    · exact List.mem_map_of_mem hmem

/-- **A generator passes its own check after its own run.** -/
theorem passes_of_run {g : Generator} (h : run x g t = some t') : Passes x g t' := by
  have hread := read_of_run h
  cases g with
  | embeddings =>
      show (_ : List String) = []
      unfold staleOutputs
      rw [List.map_eq_nil_iff, List.filter_eq_nil_iff]
      intro f hf
      simp [hread f hf]
  | schemaOrm =>
      refine checkGenerated_ok ?_ (listed_of_run h) ?_
      · -- a file in the place of the root would stand above the manifest
        refine Option.eq_none_iff_forall_not_mem.mpr fun c hc => ?_
        have hmanifest := hread (["generated", "manifest.json"], x.schemaOrm.manifest)
          (List.mem_map_of_mem (f := fun f => (generatedRoot ++ f.1, f.2))
            (show (["manifest.json"], x.schemaOrm.manifest) ∈ generateFiles x.schemaOrm by
              simp [generateFiles]))
        have hsame := t'.separate _ (read_eq_some.mp hc) _ (read_eq_some.mp hmanifest)
          ⟨["manifest.json"], rfl⟩
        change generatedRoot = ["generated", "manifest.json"] at hsame
        exact absurd hsame (by decide)
      · intro f hf
        exact hread (generatedRoot ++ f.1, f.2) (List.mem_map_of_mem hf)

end Alone

/-! ## §6. The two together. -/

section Together

variable {x : Inputs} {t t' : Tree}

/-- **No tree passes both checks**: one demands a file that the other does not expect. -/
theorem checks_exclude (h : Passes x .embeddings t) : ¬ Passes x .schemaOrm t := by
  intro hschema
  have hts : t.read ["generated", "typescript", "embeddings.ts"] = some x.embeddings.ts := by
    have hfresh := List.filter_eq_nil_iff.mp (List.map_eq_nil_iff.mp h)
    have hmem : (["generated", "typescript", "embeddings.ts"], x.embeddings.ts)
        ∈ outputs x.embeddings := by simp [outputs]
    simpa using hfresh _ hmem
  have hpaths := checkGenerated_eq_ok hschema
  have hlisted : "typescript/embeddings.ts" ∈ (canonical id
      ((t.below generatedRoot).map display)).filter
        fun path => path ≠ "README.md" ∧ path ≠ "readme.md" := by
    rw [List.mem_filter, mem_canonical]
    have hbelow : ["typescript", "embeddings.ts"] ∈ t.below generatedRoot :=
      mem_below.mpr ⟨x.embeddings.ts, hts⟩
    have hdisplay : display ["typescript", "embeddings.ts"] = "typescript/embeddings.ts" := by
      decide
    exact ⟨hdisplay ▸ List.mem_map_of_mem hbelow, by decide⟩
  rw [← hpaths, mem_canonical] at hlisted
  have hexpected : "typescript/embeddings.ts" ∈ schemaPaths.map display := by
    rw [← generateFiles_paths x.schemaOrm, List.map_map]
    exact hlisted
  exact absurd hexpected (by decide)

/-- **After both runs the second generator passes, and the first fails.** -/
theorem second_wins {first : Generator} {middle final : Tree}
    (hsecond : run x first.other middle = some final) :
    Passes x first.other final ∧ ¬ Passes x first final := by
  have hpasses := passes_of_run hsecond
  refine ⟨hpasses, ?_⟩
  cases first with
  | embeddings => exact fun h => checks_exclude h hpasses
  | schemaOrm => exact checks_exclude hpasses

/-- The schema generator deletes what the embeddings generator has under `generated/`. -/
theorem schemaOrm_deletes (h : run x .schemaOrm t = some t') {f : Path × String}
    (hf : f ∈ owned x .embeddings) (hbelow : generatedRoot <+: f.1) : t'.read f.1 = none := by
  obtain ⟨q, hq⟩ := hbelow
  refine Option.eq_none_iff_forall_not_mem.mpr fun c hc => ?_
  rw [← hq] at hc
  have hmem := below_of_run h (mem_below.mpr ⟨c, hc⟩)
  have hpath := List.mem_map_of_mem (f := (·.1)) hf
  rw [owned_paths, ← hq] at hpath
  have hall : ∀ q ∈ ["README.md"] :: schemaPaths,
      generatedRoot ++ q ∉ (owned default .embeddings).map (·.1) := by decide
  exact hall q hmem hpath

/-- The embeddings generator leaves the files of the schema generator alone. -/
theorem embeddings_keeps (h : run x .embeddings t = some t') {f : Path × String}
    (hf : f ∈ owned x .schemaOrm) : t'.read f.1 = t.read f.1 := by
  refine read_of_not_mem h fun hmem => ?_
  have hpath := List.mem_map_of_mem (f := (·.1)) hf
  rw [owned_paths] at hpath
  have hout : (outputs x.embeddings).map (·.1) = (owned default .embeddings).map (·.1) :=
    owned_paths x .embeddings
  rw [hout] at hmem
  have hall : ∀ p ∈ (owned default .schemaOrm).map (·.1),
      p ∉ (owned default .embeddings).map (·.1) := by decide
  exact hall f.1 hpath hmem

end Together

/-- **The two generators disturb each other on every tree and in either order.** -/
theorem generators_disturb (x : Inputs) (first : Generator) (tree : Tree) :
    ¬ Undisturbed x first tree := by
  intro ⟨middle, final, _, hsecond, hpasses, _, _⟩
  exact (second_wins hsecond).2 (hpasses first)

/-- From the empty tree, the run of the schema generator leaves three files of the other
stale; in the other order its own check fails. -/
theorem disturbed_from_empty :
    ¬ Undisturbed default .embeddings Tree.empty
      ∧ ((run default .embeddings Tree.empty).bind (run default .schemaOrm)).map
          (staleOutputs default)
        = some ["generated/rust/sea-orm/clip_embeddings.rs", "generated/typescript/embeddings.ts",
            "generated/dart/embeddings.dart"]
      ∧ ∃ final, (run default .schemaOrm Tree.empty).bind (run default .embeddings) = some final
          ∧ ¬ Passes default .schemaOrm final := by
  have hstale : ((run default .embeddings Tree.empty).bind (run default .schemaOrm)).map
      (staleOutputs default)
      = some ["generated/rust/sea-orm/clip_embeddings.rs", "generated/typescript/embeddings.ts",
          "generated/dart/embeddings.dart"] := by decide
  have hruns : ((run default .schemaOrm Tree.empty).bind (run default .embeddings)).isSome
      = true := by decide
  refine ⟨?_, hstale, ?_⟩
  · intro ⟨middle, final, hfirst, hsecond, hpasses, _, _⟩
    have hempty : staleOutputs default final = [] := hpasses .embeddings
    have hfinal : run default .schemaOrm middle = some final := hsecond
    rw [hfirst, Option.bind_some, hfinal, Option.map_some, hempty] at hstale
    cases hstale
  · obtain ⟨final, hfinal⟩ := Option.isSome_iff_exists.mp hruns
    obtain ⟨middle, _, hsecond⟩ := Option.bind_eq_some_iff.mp hfinal
    exact ⟨final, hfinal, checks_exclude (passes_of_run hsecond)⟩

end ClipTown.Generated
