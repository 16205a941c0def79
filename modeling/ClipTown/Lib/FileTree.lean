/-
  ClipTown.Lib.FileTree — a tree of files, and programs that write some.

  A tree holds files at paths; a directory is what the path of a file goes
  through, so that a path is never a file and a directory at once.

    • `read_write`, `read_remove` — what one step leaves,
    • `read_of_mem`, `read_of_not_mem` — what a program leaves that writes a
      list of files at distinct paths.
-/
import ClipTown.Lib.Checks

namespace FileTree

/-- The parts of a path. -/
abbrev Path := List String

/-- Files with their contents: no two at one path, and none in the place of a directory
of another. -/
structure Tree where
  files : List (Path × String)
  distinct : (files.map (·.1)).Nodup
  separate : ∀ f ∈ files, ∀ g ∈ files, f.1 <+: g.1 → f.1 = g.1

/-- The tree without files. -/
def Tree.empty : Tree where
  files := []
  distinct := List.nodup_nil
  separate := by simp

/-! ## §1. Reading. -/

/-- The content of a file. -/
def Tree.read (t : Tree) (p : Path) : Option String :=
  (t.files.find? (·.1 = p)).map (·.2)

/-- A path that a file lies below. -/
def Tree.isDirectory (t : Tree) (p : Path) : Bool :=
  t.files.any fun f => p <+: f.1 ∧ p ≠ f.1

/-- A file or a directory. -/
def Tree.holds (t : Tree) (p : Path) : Bool := (t.read p).isSome || t.isDirectory p

/-- The files below a directory, by their paths from there. -/
def Tree.below (t : Tree) (root : Path) : List Path :=
  (t.files.map (·.1)).filterMap root.isPrefixOf?

variable {t t' : Tree} {p q root : Path} {c : String}

theorem read_eq_some : t.read p = some c ↔ (p, c) ∈ t.files := by
  constructor
  · intro h
    obtain ⟨f, hf, rfl⟩ := Option.map_eq_some_iff.mp h
    have hp := List.find?_some hf
    rw [decide_eq_true_iff] at hp
    exact hp ▸ List.mem_of_find?_eq_some hf
  · intro h
    have hfind := Checks.find?_of_nodup t.distinct h
    unfold Tree.read
    rw [hfind, Option.map_some]

theorem mem_below : q ∈ t.below root ↔ ∃ c, t.read (root ++ q) = some c := by
  unfold Tree.below
  simp only [List.mem_filterMap, List.mem_map, List.isPrefixOf?_eq_some_iff_append_eq, read_eq_some]
  constructor
  · intro ⟨p, ⟨f, hf, hfp⟩, hp⟩
    exact ⟨f.2, by rw [hp, ← hfp]; exact hf⟩
  · intro ⟨c, hc⟩
    exact ⟨_, ⟨_, hc, rfl⟩, rfl⟩

theorem below_nodup : (t.below root).Nodup := by
  refine t.distinct.filterMap ?_
  intro p p' q hq hq'
  rw [Option.mem_def, List.isPrefixOf?_eq_some_iff_append_eq] at hq hq'
  rw [← hq, hq']

/-! ## §2. Writing. -/

/-- Remove a file or a directory. -/
def Tree.remove (t : Tree) (root : Path) : Tree where
  files := t.files.filter fun f => ¬ root <+: f.1
  distinct := t.distinct.sublist (List.filter_sublist.map _)
  separate f hf g hg := t.separate f (List.mem_of_mem_filter hf) g (List.mem_of_mem_filter hg)

theorem read_remove : (t.remove root).read p = if root <+: p then none else t.read p := by
  refine Option.ext fun c => ?_
  rw [read_eq_some]
  show (p, c) ∈ t.files.filter _ ↔ _
  rw [List.mem_filter, decide_eq_true_iff]
  split
  next h => exact iff_of_false (fun hmem => hmem.2 h) (fun hc => nomatch hc)
  next h => rw [and_iff_left h, read_eq_some]

/-- A file may be written where no file is in the way and no directory stands. -/
def Tree.Free (t : Tree) (p : Path) : Prop := ∀ f ∈ t.files, (f.1 <+: p ∨ p <+: f.1) → f.1 = p

instance (t : Tree) (p : Path) : Decidable (t.Free p) :=
  inferInstanceAs (Decidable (∀ f ∈ t.files, (f.1 <+: p ∨ p <+: f.1) → f.1 = p))

/-- Write a file, with the directories of its path. -/
def Tree.write (t : Tree) (p : Path) (c : String) : Option Tree :=
  if h : t.Free p then
    some {
      files := (p, c) :: t.files.filter fun f => f.1 ≠ p
      distinct := by
        rw [List.map_cons, List.nodup_cons]
        refine ⟨?_, t.distinct.sublist (List.filter_sublist.map _)⟩
        intro hmem
        obtain ⟨f, hf, hfp⟩ := List.mem_map.mp hmem
        exact of_decide_eq_true (List.mem_filter.mp hf).2 hfp
      separate := by
        intro f hf g hg hpre
        rcases List.mem_cons.mp hf with rfl | hf
        · rcases List.mem_cons.mp hg with rfl | hg
          · rfl
          · exact (h g (List.mem_of_mem_filter hg) (Or.inr hpre)).symm
        · rcases List.mem_cons.mp hg with rfl | hg
          · exact h f (List.mem_of_mem_filter hf) (Or.inl hpre)
          · exact t.separate f (List.mem_of_mem_filter hf) g (List.mem_of_mem_filter hg) hpre }
  else none

theorem read_write (h : t.write p c = some t') :
    t'.read q = if q = p then some c else t.read q := by
  unfold Tree.write at h
  split at h
  next hfree =>
    cases h
    refine Option.ext fun c' => ?_
    rw [read_eq_some]
    -- the new file stands first, and no other is left at its path
    show (q, c') ∈ (p, c) :: t.files.filter _ ↔ _
    rw [List.mem_cons, List.mem_filter, decide_eq_true_iff]
    split
    next hq =>
      rw [hq]
      constructor
      · intro hmem
        rcases hmem with heq | hmem
        · exact congrArg some (congrArg Prod.snd heq).symm
        · exact absurd rfl hmem.2
      · intro heq
        exact Or.inl (by rw [Option.some.inj heq])
    next hq =>
      rw [read_eq_some]
      constructor
      · intro hmem
        rcases hmem with heq | hmem
        · exact absurd (congrArg Prod.fst heq) hq
        · exact hmem.1
      · intro hmem
        exact Or.inr ⟨hmem, hq⟩
  next => cases h

/-- Write files one after the other. -/
def Tree.writeAll (t : Tree) (files : List (Path × String)) : Option Tree :=
  files.foldlM (fun t f => t.write f.1 f.2) t

theorem writeAll_cons {f : Path × String} {files : List (Path × String)} :
    t.writeAll (f :: files) = some t'
      ↔ ∃ t₁, t.write f.1 f.2 = some t₁ ∧ t₁.writeAll files = some t' := by
  unfold Tree.writeAll
  rw [List.foldlM_cons]
  exact Option.bind_eq_some_iff

theorem read_of_not_mem {files : List (Path × String)} (h : t.writeAll files = some t')
    (hp : p ∉ files.map (·.1)) : t'.read p = t.read p := by
  induction files generalizing t with
  | nil =>
      cases h
      rfl
  | cons f files ih =>
      rw [List.map_cons, List.mem_cons, not_or] at hp
      obtain ⟨t₁, hwrite, hrest⟩ := writeAll_cons.mp h
      rw [ih hrest hp.2, read_write hwrite, if_neg hp.1]

/-- **What is written at distinct paths is there.** -/
theorem read_of_mem {files : List (Path × String)} (h : t.writeAll files = some t')
    (hdistinct : (files.map (·.1)).Nodup) (hf : (p, c) ∈ files) : t'.read p = some c := by
  induction files generalizing t with
  | nil => cases hf
  | cons f files ih =>
      rw [List.map_cons, List.nodup_cons] at hdistinct
      obtain ⟨t₁, hwrite, hrest⟩ := writeAll_cons.mp h
      rcases List.mem_cons.mp hf with rfl | hf
      · rw [read_of_not_mem hrest hdistinct.1, read_write hwrite, if_pos rfl]
      · exact ih hrest hdistinct.2 hf

end FileTree
