/-
  ClipTown.Generated.FrozenTrees — the write bits under `generated/`
  (`scripts/check-generated-contract.py`, beside the two generators).

  The contract check reads a policy from the README of each `generated/` directory.
  Under every policy but `writable` it takes the write bits off the files, on
  `--freeze`, and reports the files that have one, on `--require-readonly`.  The
  generators set no bits: the schema generator removes the tree and writes a new
  one, the embeddings generator writes its files where they are.

    • `runChecks_spec` — which files a run freezes, and which it reports,
    • `frozen_stays` — between two runs of the schema generator a frozen file
      changes neither by hand nor by the embeddings generator, which fails there,
    • `schemaOrm_thaws` — what the schema generator writes is reported until the
      next freeze.
-/
import ClipTown.Generated.CheckFixpoint
import ClipTown.Lib.Patterns

namespace ClipTown.Generated

open Checks FileTree Patterns

/-! ## §1. Policies. -/

/-- A letter of the pattern, in either case; an `i` with and without its dot counts. -/
def sameLetter (letter c : Char) : Bool :=
  c.toLower = letter || (letter = 'i' && (c = 'İ' || c = 'ı'))

/-- The rest of a text that starts with a part of the pattern. -/
def afterLiteral : List Char → List Char → Option (List Char)
  | [], text => some text
  | _ :: _, [] => none
  | letter :: letters, c :: text =>
      if sameLetter letter c then afterLiteral letters text else none

/-- `str.lower`, on what the pattern matches. -/
def lowerMatched (c : Char) : List Char := if c = 'İ' then ['i', '\u0307'] else [c.toLower]

def policyFrozen : String := "frozen"
def policyWritable : String := "writable"
def policyIgnored : String := "ignored"

/-- `(frozen|writable|ignored)`, in lower case, and the rest. -/
def policyWord (text : List Char) : Option (String × List Char) :=
  [policyFrozen, policyWritable, policyIgnored].findSome? fun word =>
    (afterLiteral word.toList text).map fun rest =>
      (String.ofList ((text.take word.length).flatMap lowerMatched), rest)

/-- `POLICY_RE`, at the start of a text. -/
def policyAt (text : List Char) : Option String := do
  let text ← afterLiteral "<!--".toList text
  let text ← afterLiteral "generated-policy:".toList (text.dropWhile isPythonSpace)
  let (policy, text) ← policyWord (text.dropWhile isPythonSpace)
  let _ ← afterLiteral "-->".toList (text.dropWhile isPythonSpace)
  some policy

/-- `POLICY_RE.search`. -/
def searchPolicy (text : String) : Option String := text.toList.tails.findSome? policyAt

example : searchPolicy "# Notes\n<!--generated-policy: FROZEN\n-->" = some "frozen" := by decide
example : searchPolicy "<!-- generated-policy: thawed -->" = none := by decide

/-! ## §2. Directories and files. -/

/-- `README_NAMES`. -/
def readmeNames : List String := ["README.md", "readme.md"]

/-- `SKIP_DIR_NAMES`. -/
def skipDirNames : List String :=
  [".git", "node_modules", "target", "vendor", "build", "dist", ".dart_tool", "__pycache__",
    "tmp", "_to_delete", ".staging"]

/-- A directory that the walks go into. -/
def walked (name : String) : Bool := name ∉ skipDirNames && name.toList.head? ≠ some '.'

/-- `is_readme`. -/
def isReadme (p : Path) : Bool := p.getLast?.any (· ∈ readmeNames)

/-- The directories of a tree. -/
def directories (t : Tree) : List Path :=
  t.files.flatMap fun f => f.1.inits.filter (· ≠ f.1)

/-- `find_generated_dirs`. -/
def findGeneratedDirs (t : Tree) : List Path :=
  ((directories t).filter fun d => d.all walked && d.getLast? = some "generated").dedup

/-- `read_policy`. -/
def readPolicy (t : Tree) (generatedDir : Path) : Option String :=
  readmeNames.findSome? fun name => (t.read (generatedDir ++ [name])).bind searchPolicy

/-- `generated_files`. -/
def generatedFiles (t : Tree) (generatedDir : Path) : List Path :=
  ((t.below generatedDir).filter fun q => q.dropLast.all walked).map (generatedDir ++ ·)

/-! ## §3. The contract check. -/

/-- A tree with the files that have no write bit. -/
structure Disk where
  tree : Tree
  readOnly : Path → Bool

/-- `freeze_tree`. -/
def freezeTree (generatedDir : Path) (d : Disk) : Disk :=
  { d with
    readOnly := fun p => d.readOnly p ||
      (p ∈ generatedFiles d.tree generatedDir && !isReadme p) }

/-- `check_generated_dir`, as far as it concerns the write bits: the files that it
reports as writable. -/
def checkGeneratedDir (freeze requireReadonly : Bool) (state : Disk × List Path)
    (generatedDir : Path) : Disk × List Path :=
  match readPolicy state.1.tree generatedDir with
  | none => state
  | some policy =>
      -- a writable tree is left alone; `ignored` is kept like `frozen`
      if policy = policyWritable then state
      else
        let d := if freeze then freezeTree generatedDir state.1 else state.1
        -- asked after the freeze, which leaves nothing to find
        let found := if requireReadonly then
            (generatedFiles d.tree generatedDir).filter fun p => !isReadme p && !d.readOnly p
          else []
        (d, state.2 ++ found)

/-- `run_checks`. -/
def runChecks (freeze requireReadonly : Bool) (d : Disk) : Disk × List Path :=
  (findGeneratedDirs d.tree).foldl (checkGeneratedDir freeze requireReadonly) (d, [])

/-- A directory whose files are kept read-only. -/
def FrozenDir (t : Tree) (generatedDir : Path) : Prop :=
  ∃ policy, readPolicy t generatedDir = some policy ∧ policy ≠ policyWritable

/-- A file that the policy of one of some directories keeps read-only. -/
def FrozenIn (t : Tree) (dirs : List Path) (p : Path) : Prop :=
  ∃ dir ∈ dirs, FrozenDir t dir ∧ p ∈ generatedFiles t dir ∧ isReadme p = false

/-- A file that some policy keeps read-only; a `writable` directory below a frozen one
does not exempt it. -/
def Frozen (t : Tree) (p : Path) : Prop := FrozenIn t (findGeneratedDirs t) p

section Checks

variable {freeze requireReadonly : Bool} {t : Tree} {d : Disk} {p : Path}

theorem frozenIn_nil : ¬ FrozenIn t [] p := by
  rintro ⟨dir, hdir, -⟩
  cases hdir

theorem frozenIn_append {dirs : List Path} {dir : Path} : FrozenIn t (dirs ++ [dir]) p ↔
    FrozenIn t dirs p ∨ FrozenDir t dir ∧ p ∈ generatedFiles t dir ∧ isReadme p = false := by
  unfold FrozenIn
  constructor
  · intro ⟨e, he, h⟩
    rcases List.mem_append.mp he with he | he
    · exact .inl ⟨e, he, h⟩
    · rw [List.mem_singleton.mp he] at h
      exact .inr h
  · intro h
    rcases h with ⟨e, he, h⟩ | h
    · exact ⟨e, List.mem_append_left _ he, h⟩
    · exact ⟨dir, List.mem_append_right _ (List.mem_singleton_self dir), h⟩

/-- What the check of some directories leaves and finds. -/
structure Checked (freeze requireReadonly : Bool) (d : Disk) (dirs : List Path)
    (state : Disk × List Path) : Prop where
  tree : state.1.tree = d.tree
  readOnly : ∀ p, state.1.readOnly p = true ↔
    d.readOnly p = true ∨ freeze = true ∧ FrozenIn d.tree dirs p
  found : ∀ p, p ∈ state.2 ↔ requireReadonly = true ∧ freeze = false ∧
    d.readOnly p = false ∧ FrozenIn d.tree dirs p

/-- A directory that is not kept read-only is passed over. -/
theorem Checked.skip {dirs : List Path} {state : Disk × List Path}
    (h : Checked freeze requireReadonly d dirs state) {dir : Path}
    (hdir : ¬ FrozenDir d.tree dir) :
    Checked freeze requireReadonly d (dirs ++ [dir]) state := by
  have hsame : ∀ p, FrozenIn d.tree (dirs ++ [dir]) p ↔ FrozenIn d.tree dirs p := by
    intro p
    rw [frozenIn_append]
    exact or_iff_left fun hfrozen => hdir hfrozen.1
  exact ⟨h.tree, fun p => by rw [hsame]; exact h.readOnly p,
    fun p => by rw [hsame]; exact h.found p⟩

/-- One more directory. -/
theorem Checked.step {dirs : List Path} {state : Disk × List Path}
    (h : Checked freeze requireReadonly d dirs state) (dir : Path) :
    Checked freeze requireReadonly d (dirs ++ [dir])
      (checkGeneratedDir freeze requireReadonly state dir) := by
  unfold checkGeneratedDir
  rw [h.tree]
  cases hpolicy : readPolicy d.tree dir with
  | none =>
      refine h.skip ?_
      rintro ⟨policy, hsome, -⟩
      rw [hpolicy] at hsome
      cases hsome
  | some policy =>
      by_cases hwritable : policy = policyWritable
      · simp only [hwritable, if_true]
        refine h.skip ?_
        rintro ⟨policy', hsome, hne⟩
        rw [hpolicy] at hsome
        exact hne ((Option.some.inj hsome).symm.trans hwritable)
      · have hdir : FrozenDir d.tree dir := ⟨policy, hpolicy, hwritable⟩
        simp only [hwritable, if_false]
        -- with `--freeze` the files are covered first, and the search finds none
        cases freeze with
        | true =>
            refine ⟨h.tree, fun p => ?_, fun p => ?_⟩
            · show (state.1.readOnly p || (decide (p ∈ generatedFiles state.1.tree dir)
                && !isReadme p)) = true ↔ _
              rw [Bool.or_eq_true, h.readOnly p, frozenIn_append, h.tree]
              simp [hdir, or_assoc]
            · -- what the freeze of the directory has just covered is not writable
              have hcovered : ∀ q ∈ generatedFiles state.1.tree dir, isReadme q = false →
                  (freezeTree dir state.1).readOnly q = true := by
                intro q hq hreadme
                simp [freezeTree, hq, hreadme]
              constructor
              · intro hp
                rcases List.mem_append.mp hp with hp | hp
                · exact absurd ((h.found p).mp hp).2.1 (by decide)
                · cases requireReadonly with
                  | false => cases hp
                  | true =>
                      obtain ⟨hfile, hwritable⟩ := List.mem_filter.mp hp
                      rw [Bool.and_eq_true, Bool.not_eq_true', Bool.not_eq_true'] at hwritable
                      have hro : (freezeTree dir state.1).readOnly p = false := hwritable.2
                      rw [hcovered p hfile hwritable.1] at hro
                      cases hro
              · intro hp
                cases hp.2.1
        | false =>
            refine ⟨h.tree, fun p => ?_, fun p => ?_⟩
            · show state.1.readOnly p = true ↔ _
              rw [h.readOnly p]
              simp
            · have hro : state.1.readOnly p = d.readOnly p := by
                have hp := h.readOnly p
                simp only [Bool.false_eq_true, false_and, or_false] at hp
                exact Bool.eq_iff_iff.mpr hp
              cases requireReadonly with
              | false => simp [h.found p]
              | true =>
                  show p ∈ state.2 ++ (generatedFiles state.1.tree dir).filter
                    (fun q => !isReadme q && !state.1.readOnly q) ↔ _
                  rw [List.mem_append, List.mem_filter, h.found p, h.tree, hro, frozenIn_append,
                    Bool.and_eq_true, Bool.not_eq_true', Bool.not_eq_true']
                  tauto

theorem Checked.run (dirs : List Path) : ∀ {done : List Path} {state : Disk × List Path},
    Checked freeze requireReadonly d done state →
      Checked freeze requireReadonly d (done ++ dirs)
        (dirs.foldl (checkGeneratedDir freeze requireReadonly) state) := by
  induction dirs with
  | nil =>
      intro done state h
      rw [List.append_nil]
      exact h
  | cons dir dirs ih =>
      intro done state h
      rw [List.append_cons]
      exact ih (h.step dir)

/-- **What a run of the contract check does.**  It writes no file; with `--freeze` it
takes the write bits off the frozen files, and off no others, and then it reports
none; without, `--require-readonly` reports the frozen files that have one. -/
theorem runChecks_spec (freeze requireReadonly : Bool) (d : Disk) :
    (runChecks freeze requireReadonly d).1.tree = d.tree ∧
      (∀ p, (runChecks freeze requireReadonly d).1.readOnly p = true ↔
        d.readOnly p = true ∨ freeze = true ∧ Frozen d.tree p) ∧
      ∀ p, p ∈ (runChecks freeze requireReadonly d).2 ↔ requireReadonly = true ∧
        freeze = false ∧ d.readOnly p = false ∧ Frozen d.tree p := by
  have hstart : Checked freeze requireReadonly d [] (d, []) :=
    ⟨rfl, fun p => by simp [frozenIn_nil], fun p => by simp [frozenIn_nil]⟩
  have h := hstart.run (findGeneratedDirs d.tree)
  exact ⟨h.tree, h.readOnly, h.found⟩

end Checks

/-! ## §4. Work on a disk. -/

/-- `writeFile`: a file without a write bit is not opened, and a new one has it. -/
def Disk.write (d : Disk) (p : Path) (content : String) : Option Disk :=
  -- only a file that exists refuses; a new one gets its write bit
  if (d.tree.read p).isSome && d.readOnly p then none
  else (d.tree.write p content).map fun t =>
    { tree := t, readOnly := fun q => if q = p then false else d.readOnly q }

/-- The loop of the embeddings generator, which ends at the first file that it cannot
write, with the files before it written. -/
def writeLoop : List (Path × String) → Disk → Disk × Option Path
  | [], d => (d, none)
  | f :: files, d =>
      match d.write f.1 f.2 with
      | some d' => writeLoop files d'
      | none => (d, some f.1)

/-- A run of the embeddings generator, and the file at which it fails. -/
def runEmbeddings (x : EmbeddingsTexts) (d : Disk) : Disk × Option Path :=
  writeLoop (outputs x) d

/-- A run of the schema generator.  The removal asks for no write bits on the files; a
README that cannot be read fails the run before it. -/
def runSchemaOrm (x : SchemaTexts) (d : Disk) : Disk :=
  match writeGenerated (generateFiles x) generatedRoot d.tree with
  | some t => { tree := t, readOnly := fun p => d.readOnly p && !generatedRoot.isPrefixOf p }
  | none => d

/-- What is done to a tree. -/
inductive Work where
  | contractCheck (freeze requireReadonly : Bool)
  | edit (p : Path) (content : String)
  | embeddings (x : EmbeddingsTexts)
  | schemaOrm (x : SchemaTexts)

def Work.apply : Work → Disk → Disk
  | .contractCheck freeze requireReadonly, d => (runChecks freeze requireReadonly d).1
  | .edit p content, d => (d.write p content).getD d
  | .embeddings x, d => (runEmbeddings x d).1
  | .schemaOrm x, d => runSchemaOrm x d

section Work

variable {d d' : Disk} {p : Path} {c : String}

/-- A file with a content and no write bit. -/
def Guarded (p : Path) (c : String) (d : Disk) : Prop :=
  d.tree.read p = some c ∧ d.readOnly p = true

/-- A guarded file is not opened for writing. -/
theorem Guarded.write_eq_none (h : Guarded p c d) (content : String) :
    d.write p content = none := by
  unfold Disk.write
  rw [h.1, h.2]
  rfl

/-- A write elsewhere leaves it alone. -/
theorem Guarded.write (h : Guarded p c d) {q : Path} {content : String}
    (hwrite : d.write q content = some d') : Guarded p c d' := by
  have hne : p ≠ q := by
    rintro rfl
    rw [h.write_eq_none] at hwrite
    cases hwrite
  unfold Disk.write at hwrite
  split at hwrite
  · cases hwrite
  · obtain ⟨t, ht, rfl⟩ := Option.map_eq_some_iff.mp hwrite
    constructor
    · rw [read_write ht, if_neg hne]
      exact h.1
    · show (if p = q then false else d.readOnly p) = true
      rw [if_neg hne]
      exact h.2

/-- A loop leaves it alone, and fails if it has to write it. -/
theorem Guarded.writeLoop (h : Guarded p c d) (files : List (Path × String)) :
    Guarded p c (writeLoop files d).1 ∧
      (p ∈ files.map (·.1) → ∃ q, (writeLoop files d).2 = some q) := by
  induction files generalizing d with
  | nil => exact ⟨h, fun hp => nomatch hp⟩
  | cons f files ih =>
      unfold Generated.writeLoop
      cases hwrite : d.write f.1 f.2 with
      | none => exact ⟨h, fun _ => ⟨f.1, rfl⟩⟩
      | some d' =>
          have hrest := ih (h.write hwrite)
          refine ⟨hrest.1, fun hp => ?_⟩
          rcases List.mem_cons.mp hp with rfl | hp
          · rw [h.write_eq_none] at hwrite
            cases hwrite
          · exact hrest.2 hp

/-- All work but a run of the schema generator leaves it alone. -/
theorem Guarded.apply (h : Guarded p c d) {work : Work} (hwork : ∀ x, work ≠ .schemaOrm x) :
    Guarded p c (work.apply d) := by
  cases work with
  | contractCheck freeze requireReadonly =>
      obtain ⟨htree, hreadOnly, -⟩ := runChecks_spec freeze requireReadonly d
      refine ⟨?_, (hreadOnly p).mpr (.inl h.2)⟩
      show (runChecks freeze requireReadonly d).1.tree.read p = some c
      rw [htree]
      exact h.1
  | edit q content =>
      show Guarded p c ((d.write q content).getD d)
      cases hwrite : d.write q content with
      | none => exact h
      | some d' => exact h.write hwrite
  | embeddings x => exact (h.writeLoop (outputs x)).1
  | schemaOrm x => exact absurd rfl (hwork x)

theorem Guarded.foldl {works : List Work} (hworks : ∀ work ∈ works, ∀ x, work ≠ .schemaOrm x)
    (h : Guarded p c d) : Guarded p c (works.foldl (fun d work => work.apply d) d) := by
  induction works generalizing d with
  | nil => exact h
  | cons work works ih =>
      exact ih (fun w hw => hworks w (List.mem_cons_of_mem work hw))
        (h.apply (hworks work List.mem_cons_self))

/-- A file that a policy freezes is there. -/
theorem Frozen.exists_read (h : Frozen d.tree p) : ∃ c, d.tree.read p = some c := by
  obtain ⟨dir, -, -, hfile, -⟩ := h
  obtain ⟨q, hq, rfl⟩ := List.mem_map.mp hfile
  exact mem_below.mp (List.mem_of_mem_filter hq)

/-- **A frozen file stays.**  After a freeze, and any checks, edits and runs of the
embeddings generator, a frozen file has the content and the bits it had, and every
run of the embeddings generator that would write it fails. -/
theorem frozen_stays (requireReadonly : Bool) {works : List Work} (h : Frozen d.tree p)
    (hworks : ∀ work ∈ works, ∀ x, work ≠ .schemaOrm x)
    (hd' : d' = works.foldl (fun d work => work.apply d) (runChecks true requireReadonly d).1) :
    d'.tree.read p = d.tree.read p ∧ d'.readOnly p = true ∧
      ∀ x, p ∈ (outputs x).map (·.1) → ∃ q, (runEmbeddings x d').2 = some q := by
  obtain ⟨c, hc⟩ := h.exists_read
  obtain ⟨htree, hreadOnly, -⟩ := runChecks_spec true requireReadonly d
  have hguarded : Guarded p c (runChecks true requireReadonly d).1 :=
    ⟨by rw [htree]; exact hc, (hreadOnly p).mpr (.inr ⟨rfl, h⟩)⟩
  have hlast : Guarded p c d' := by
    rw [hd']
    exact hguarded.foldl hworks
  refine ⟨hlast.1.trans hc.symm, hlast.2, fun x hp => ?_⟩
  exact (hlast.writeLoop (outputs x)).2 hp

end Work

/-! ## §5. Under `generated/`. -/

section Root

variable {x : SchemaTexts} {t t' : Tree} {q : Path}

/-- The files below `generated/` that its policy freezes. -/
theorem frozen_of_root (hpolicy : FrozenDir t generatedRoot)
    (hheld : (t.read (generatedRoot ++ q)).isSome) (hne : q ≠ [])
    (hwalked : q.dropLast.all walked = true) (hreadme : isReadme (generatedRoot ++ q) = false) :
    Frozen t (generatedRoot ++ q) := by
  obtain ⟨c, hc⟩ := Option.isSome_iff_exists.mp hheld
  have hdir : generatedRoot ∈ findGeneratedDirs t := by
    unfold findGeneratedDirs directories
    rw [List.mem_dedup, List.mem_filter, List.mem_flatMap]
    refine ⟨⟨_, read_eq_some.mp hc, ?_⟩, by decide⟩
    rw [List.mem_filter, List.mem_inits]
    refine ⟨List.prefix_append _ q, decide_eq_true fun heq => hne ?_⟩
    exact List.self_eq_append_right.mp heq
  refine ⟨generatedRoot, hdir, hpolicy, ?_, hreadme⟩
  exact List.mem_map_of_mem (List.mem_filter.mpr ⟨mem_below.mpr ⟨c, hc⟩, hwalked⟩)

/-- The paths of the schema generator are walked, and none is a README. -/
theorem schemaPaths_files : ∀ q ∈ schemaPaths, q ≠ [] ∧ q.dropLast.all walked = true ∧
    isReadme (generatedRoot ++ q) = false := by
  decide

/-- **A run of the schema generator thaws.**  Where the README has a policy that
freezes, what is reported under `generated/` after a run is what the run wrote. -/
theorem schemaOrm_thaws {d : Disk} {policy : String}
    (hrun : writeGenerated (generateFiles x) generatedRoot d.tree = some t')
    (hreadme : (d.tree.read (policyReadme generatedRoot)).bind searchPolicy = some policy)
    (hpolicy : policy ≠ policyWritable) (q : Path) :
    generatedRoot ++ q ∈ (runChecks false true (runSchemaOrm x d)).2 ↔ q ∈ schemaPaths := by
  have hdisk : runSchemaOrm x d =
      { tree := t', readOnly := fun p => d.readOnly p && !generatedRoot.isPrefixOf p } := by
    unfold runSchemaOrm
    rw [hrun]
  have hrun' : run ⟨default, x⟩ .schemaOrm d.tree = some t' := hrun
  rw [(runChecks_spec false true _).2.2, hdisk]
  constructor
  · intro ⟨_, _, _, hfrozen⟩
    obtain ⟨c, hc⟩ := hfrozen.exists_read (d := ⟨t', d.readOnly⟩)
    rcases List.mem_cons.mp (below_of_run hrun' (mem_below.mpr ⟨c, hc⟩)) with rfl | hq
    · -- the README itself is never frozen
      obtain ⟨-, -, -, -, hfile⟩ := hfrozen
      exact absurd hfile (by decide)
    · exact hq
  · intro hq
    obtain ⟨hne, hwalked, hfile⟩ := schemaPaths_files q hq
    refine ⟨rfl, rfl, ?_, ?_⟩
    · show (d.readOnly (generatedRoot ++ q) && !generatedRoot.isPrefixOf (generatedRoot ++ q))
        = false
      rw [List.isPrefixOf_iff_prefix.mpr (List.prefix_append generatedRoot q), Bool.not_true,
        Bool.and_false]
    · refine frozen_of_root ⟨policy, ?_, hpolicy⟩ ?_ hne hwalked hfile
      · have hfirst : (t'.read (generatedRoot ++ ["README.md"])).bind searchPolicy
            = some policy := by
          show (t'.read (policyReadme generatedRoot)).bind searchPolicy = some policy
          rw [readme_of_run hrun', hreadme]
        unfold readPolicy readmeNames
        rw [List.findSome?_cons, hfirst]
      · rw [← generateFiles_paths x] at hq
        obtain ⟨f, hf, rfl⟩ := List.mem_map.mp hq
        exact Option.isSome_of_mem (read_of_run hrun' _ (List.mem_map_of_mem hf))

end Root

/-! ## §6. A frozen tree. -/

/-- The Rust entity of the embeddings generator. -/
def rustEntity : Path := ["generated", "rust", "sea-orm", "clip_embeddings.rs"]

/-- A checkout in which the policy README and the Rust entity are there. -/
def checkout : Disk where
  tree := {
    files := [(["generated", "README.md"], "<!-- generated-policy: frozen -->"), (rustEntity, "")]
    distinct := by decide
    separate := by decide }
  readOnly _ := false

theorem frozen_stays_checkout :
    let d' := [Work.embeddings default, .edit rustEntity "edited", .contractCheck false true].foldl
      (fun d work => work.apply d) (runChecks true false checkout).1
    d'.tree.read rustEntity = checkout.tree.read rustEntity ∧ d'.readOnly rustEntity = true ∧
      ∀ x, rustEntity ∈ (outputs x).map (·.1) → ∃ q, (runEmbeddings x d').2 = some q :=
  frozen_stays false
    (frozen_of_root (q := ["rust", "sea-orm", "clip_embeddings.rs"])
      ⟨policyFrozen, by decide, by decide⟩ (by decide) (by decide) (by decide) (by decide))
    (by
      intro work hwork x heq
      rw [heq] at hwork
      simp at hwork)
    rfl

theorem schemaOrm_thaws_checkout :
    generatedRoot ++ ["manifest.json"] ∈
      (runChecks false true (runSchemaOrm default checkout)).2 := by
  have hrun : (writeGenerated (generateFiles default) generatedRoot checkout.tree).isSome
      = true := by decide
  obtain ⟨t', hrun⟩ := Option.isSome_iff_exists.mp hrun
  have hpolicy : (checkout.tree.read (policyReadme generatedRoot)).bind searchPolicy
      = some policyFrozen := by decide
  exact (schemaOrm_thaws hrun hpolicy (by decide) _).mpr (by decide)

end ClipTown.Generated
