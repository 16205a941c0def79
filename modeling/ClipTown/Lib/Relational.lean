/-
  ClipTown.Lib.Relational — tables as lists of rows: constraints, statements,
  and the joins a query is made of.

  A table is the list of its rows in the order a scan reads them; nothing that
  a query promises may depend on that order.

    • `Unique`, `ForeignKey`, `Check` — the declarative constraints, decidable
      on every concrete database,
    • `Unique.eq_of_key` — two rows of one unique key are one row,
    • `Statement` — one INSERT, UPDATE or DELETE, over any number of rows; a
      row after it was there or is `written` by it; `Upsert` likewise,
    • `Related.write_iff` — a write keeps a relation between two tables iff the
      rows it writes stand in it,
    • `fullOuterJoin` / `LimitOf` — the outer join, and every outcome of a
      LIMIT without ORDER BY.
-/
import Mathlib.Data.List.Nodup
import Mathlib.Data.List.Basic
import Mathlib.Data.List.Flatten
import Mathlib.Data.List.Perm.Subperm

namespace Relational

variable {α β κ ρ ρ' : Type*}

/-! ## §1. Constraints. -/

/-- `UNIQUE (cols)` over columns that are not null. -/
def Unique (cols : ρ → κ) (table : List ρ) : Prop := (table.map cols).Nodup

/-- `FOREIGN KEY (cols) REFERENCES ref (refCols)` over columns that are not null. -/
def ForeignKey (cols : ρ → κ) (table : List ρ) (refCols : ρ' → κ) (ref : List ρ') : Prop :=
  ∀ r ∈ table, ∃ r' ∈ ref, refCols r' = cols r

/-- `FOREIGN KEY (cols) REFERENCES ref (refCols)` where some of the columns may be
null: a row with a null among them refers to nothing. -/
def ForeignKeyIfSet (cols : ρ → Option κ) (table : List ρ) (refCols : ρ' → κ) (ref : List ρ') :
    Prop :=
  ∀ r ∈ table, ∀ key ∈ cols r, ∃ r' ∈ ref, refCols r' = key

/-- `CHECK (p)`. -/
def Check (p : ρ → Prop) (table : List ρ) : Prop := ∀ r ∈ table, p r

instance [DecidableEq κ] (cols : ρ → κ) (table : List ρ) : Decidable (Unique cols table) := by
  unfold Unique; infer_instance

instance [DecidableEq κ] (cols : ρ → κ) (table : List ρ) (refCols : ρ' → κ) (ref : List ρ') :
    Decidable (ForeignKey cols table refCols ref) := by
  unfold ForeignKey; infer_instance

instance [DecidableEq κ] (cols : ρ → Option κ) (table : List ρ) (refCols : ρ' → κ)
    (ref : List ρ') : Decidable (ForeignKeyIfSet cols table refCols ref) := by
  unfold ForeignKeyIfSet; infer_instance

instance (p : ρ → Prop) [DecidablePred p] (table : List ρ) : Decidable (Check p table) := by
  unfold Check; infer_instance

/-- **A unique key names one row.** -/
theorem Unique.eq_of_key {cols : ρ → κ} {table : List ρ} (h : Unique cols table) {r r' : ρ}
    (hr : r ∈ table) (hr' : r' ∈ table) (hkey : cols r = cols r') : r = r' :=
  List.inj_on_of_nodup_map h hr hr' hkey

/-- **A unique key finds one row.** -/
theorem Unique.filter_eq_singleton [DecidableEq κ] {cols : ρ → κ} {table : List ρ}
    (h : Unique cols table) {r : ρ} (hr : r ∈ table) :
    table.filter (fun r' => cols r' = cols r) = [r] := by
  induction table with
  | nil => cases hr
  | cons r₀ table ih =>
      have hcons : (cols r₀ :: table.map cols).Nodup := h
      rw [List.nodup_cons] at hcons
      rcases List.mem_cons.mp hr with rfl | hr
      · have hrest : table.filter (fun r' => cols r' = cols r) = [] := by
          apply List.filter_eq_nil_iff.mpr
          intro r' hr' hcols
          exact hcons.1 (List.mem_map.mpr ⟨r', hr', by simpa using hcols⟩)
        rw [List.filter_cons_of_pos (by simp), hrest]
      · have hne : ¬ cols r₀ = cols r := by
          intro heq
          exact hcons.1 (List.mem_map.mpr ⟨r, hr, heq.symm⟩)
        rw [List.filter_cons_of_neg (by simpa using hne)]
        exact ih hcons.2 hr

/-- A join that finds one row or none is a selection. -/
theorem flatMap_eq_map_filter {f : α → List β} {p : α → Bool} {g : α → β} {l : List α}
    (h : ∀ a ∈ l, f a = if p a then [g a] else []) : l.flatMap f = (l.filter p).map g := by
  induction l with
  | nil => rfl
  | cons a l ih =>
      rw [List.flatMap_cons, h a List.mem_cons_self,
        ih fun b hb => h b (List.mem_cons_of_mem a hb)]
      cases hp : p a with
      | true =>
          rw [List.filter_cons_of_pos hp]
          rfl
      | false =>
          rw [List.filter_cons_of_neg (by rw [hp]; exact Bool.false_ne_true)]
          rfl

/-- Computed columns of some of the rows are in the order of the rows. -/
theorem map_filterMap_sublist {f : α → Option β} {g : β → κ} {cols : α → κ}
    (h : ∀ a b, f a = some b → g b = cols a) (l : List α) :
    ((l.filterMap f).map g).Sublist (l.map cols) := by
  induction l with
  | nil => exact List.Sublist.refl []
  | cons a l ih =>
      cases hf : f a with
      | none =>
          rw [List.filterMap_cons_none hf, List.map_cons]
          exact ih.cons (cols a)
      | some b =>
          rw [List.filterMap_cons_some hf, List.map_cons, List.map_cons, h a b hf]
          exact ih.cons_cons (cols a)

/-- What is found for keys, each once at most, is in the order of the keys. -/
theorem map_flatMap_sublist {f : κ → List β} {g : β → κ} {keys : List κ}
    (h : ∀ k ∈ keys, ((f k).map g).Sublist [k]) : ((keys.flatMap f).map g).Sublist keys := by
  have hflat := List.Sublist.flatMap_right keys h
  rw [List.flatMap_singleton'] at hflat
  rw [List.map_flatMap]
  exact hflat

/-- A selection by a unique key and more finds the key once at most. -/
theorem Unique.map_filter_sublist [DecidableEq κ] {cols : ρ → κ} {table : List ρ}
    (h : Unique cols table) (k : κ) (p : ρ → Bool) :
    ((table.filter (fun r => cols r = k && p r)).map cols).Sublist [k] := by
  have hmore : (table.filter (fun r => cols r = k && p r)).Sublist
      (table.filter (fun r => cols r = k)) := by
    rw [← List.filter_filter]
    exact List.filter_sublist.filter _
  refine (hmore.map cols).trans ?_
  cases hfilter : table.filter (fun r => cols r = k) with
  | nil => exact List.nil_sublist [k]
  | cons r more =>
      have hr : r ∈ table.filter (fun r => cols r = k) := by
        rw [hfilter]
        exact List.mem_cons_self
      obtain ⟨hmem, hkey⟩ := List.mem_filter.mp hr
      have hkey : cols r = k := by simpa using hkey
      have hone := h.filter_eq_singleton hmem
      rw [hkey, hfilter] at hone
      rw [hone, List.map_singleton, hkey]

/-! ## §2. Statements. -/

/-- One statement on one table, over any number of rows. -/
inductive Statement (ρ : Type*)
  | insert (rows : List ρ)
  | update (which : ρ → Bool) (set : ρ → ρ)
  | delete (which : ρ → Bool)

/-- The table after the statement, before its constraints are checked. -/
def Statement.apply : Statement ρ → List ρ → List ρ
  | .insert rows, table => table ++ rows
  | .update which set, table => table.map (fun r => if which r then set r else r)
  | .delete which, table => table.filter (fun r => !which r)

/-- The rows a statement writes: the inserted ones, or the updated ones as they
are after the update. -/
def Statement.written : Statement ρ → List ρ → List ρ
  | .insert rows, _ => rows
  | .update which set, table => (table.filter which).map set
  | .delete _, _ => []

/-- After a statement a row is one it wrote or one that was there. -/
theorem Statement.mem_apply {statement : Statement ρ} {table : List ρ} {r : ρ}
    (hr : r ∈ statement.apply table) : r ∈ statement.written table ∨ r ∈ table := by
  cases statement with
  | insert rows =>
      rcases List.mem_append.mp hr with h | h
      · exact Or.inr h
      · exact Or.inl h
  | update which set =>
      obtain ⟨r₀, hr₀, rfl⟩ := List.mem_map.mp hr
      by_cases hwhich : which r₀
      · rw [if_pos hwhich]
        exact Or.inl (List.mem_map.mpr ⟨r₀, List.mem_filter.mpr ⟨hr₀, hwhich⟩, rfl⟩)
      · rw [if_neg hwhich]
        exact Or.inr hr₀
  | delete which => exact Or.inr (List.mem_of_mem_filter hr)

/-- What a statement writes is in the table after it. -/
theorem Statement.written_subset_apply (statement : Statement ρ) (table : List ρ) :
    statement.written table ⊆ statement.apply table := by
  intro r hr
  cases statement with
  | insert rows => exact List.mem_append_right _ hr
  | update which set =>
      obtain ⟨r₀, hr₀, rfl⟩ := List.mem_map.mp hr
      obtain ⟨hmem, hwhich⟩ := List.mem_filter.mp hr₀
      exact List.mem_map.mpr ⟨r₀, hmem, if_pos hwhich⟩
  | delete which => cases hr

/-- `INSERT … ON CONFLICT (key) DO UPDATE`, over rows with distinct keys. -/
structure Upsert (ρ : Type*) {κ : Type*} (key : ρ → κ) where
  rows : List ρ
  distinct : (rows.map key).Nodup

section Upsert

variable [DecidableEq κ] {key : ρ → κ} (merge : ρ → ρ → ρ)

/-- The row that meets the row `r` of the table, if one does. -/
def Upsert.conflict (upsert : Upsert ρ key) (r : ρ) : Option ρ :=
  upsert.rows.find? (fun row => key row = key r)

/-- The rows that meet none of the table. -/
def Upsert.inserted (upsert : Upsert ρ key) (table : List ρ) : List ρ :=
  upsert.rows.filter (fun row => key row ∉ table.map key)

/-- The table after the upsert: `merge r row` where the row `row` meets `r`. -/
def Upsert.apply (upsert : Upsert ρ key) (table : List ρ) : List ρ :=
  table.map (fun r => (upsert.conflict r).elim r (merge r)) ++ upsert.inserted table

/-- The rows an upsert writes. -/
def Upsert.written (upsert : Upsert ρ key) (table : List ρ) : List ρ :=
  table.filterMap (fun r => (upsert.conflict r).map (merge r)) ++ upsert.inserted table

theorem Upsert.mem_apply {upsert : Upsert ρ key} {table : List ρ} {r : ρ}
    (hr : r ∈ upsert.apply merge table) : r ∈ upsert.written merge table ∨ r ∈ table := by
  rcases List.mem_append.mp hr with h | h
  · obtain ⟨r₀, hr₀, rfl⟩ := List.mem_map.mp h
    cases hconflict : upsert.conflict r₀ with
    | none => exact Or.inr hr₀
    | some row =>
        refine Or.inl (List.mem_append_left _ (List.mem_filterMap.mpr ⟨r₀, hr₀, ?_⟩))
        rw [hconflict]
        rfl
  · exact Or.inl (List.mem_append_right _ h)

theorem Upsert.written_subset_apply (upsert : Upsert ρ key) (table : List ρ) :
    upsert.written merge table ⊆ upsert.apply merge table := by
  intro r hr
  rcases List.mem_append.mp hr with h | h
  · obtain ⟨r₀, hr₀, heq⟩ := List.mem_filterMap.mp h
    obtain ⟨row, hrow, rfl⟩ := Option.map_eq_some_iff.mp heq
    refine List.mem_append_left _ (List.mem_map.mpr ⟨r₀, hr₀, ?_⟩)
    rw [hrow]
    rfl
  · exact List.mem_append_right _ h

end Upsert

/-- Every row of one table stands in the relation `R` to every row of the other. -/
def Related (R : ρ → ρ' → Prop) (table : List ρ) (table' : List ρ') : Prop :=
  ∀ r ∈ table, ∀ r' ∈ table', R r r'

instance (R : ρ → ρ' → Prop) [∀ r r', Decidable (R r r')] (table : List ρ) (table' : List ρ') :
    Decidable (Related R table table') := by
  unfold Related; infer_instance

theorem Related.subset {R : ρ → ρ' → Prop} {t s : List ρ} {t' s' : List ρ'}
    (h : Related R t t') (hs : s ⊆ t) (hs' : s' ⊆ t') : Related R s s' :=
  fun r hr r' hr' => h r (hs hr) r' (hs' hr')

/-- **A write keeps a relation between tables iff what it writes stands in it.** -/
theorem Related.write_iff {R : ρ → ρ' → Prop} {before written after : List ρ} {t' : List ρ'}
    (h : Related R before t') (hmem : ∀ r ∈ after, r ∈ written ∨ r ∈ before)
    (hsub : written ⊆ after) : Related R after t' ↔ Related R written t' := by
  constructor
  · intro hafter
    exact hafter.subset hsub (List.Subset.refl _)
  · intro hwritten r hr
    rcases hmem r hr with hnew | hold
    · exact hwritten r hnew
    · exact h r hold

/-- The same for the other table. -/
theorem Related.write_iff_right {R : ρ → ρ' → Prop} {t : List ρ} {before written after : List ρ'}
    (h : Related R t before) (hmem : ∀ r ∈ after, r ∈ written ∨ r ∈ before)
    (hsub : written ⊆ after) : Related R t after ↔ Related R t written := by
  constructor
  · intro hafter
    exact hafter.subset (List.Subset.refl _) hsub
  · intro hwritten r hr r' hr'
    rcases hmem r' hr' with hnew | hold
    · exact hwritten r hr r' hnew
    · exact h r hr r' hold

/-- A deletion leaves a part of the table. -/
theorem Statement.apply_delete_subset (which : ρ → Bool) (table : List ρ) :
    (Statement.delete which).apply table ⊆ table :=
  List.filter_subset_self table

/-! ## §3. Joins and limits. -/

/-- `FULL OUTER JOIN … ON`. -/
def fullOuterJoin (on : α → β → Bool) (as : List α) (bs : List β) :
    List (Option α × Option β) :=
  as.flatMap (fun a =>
      match bs.filter (on a) with
      | [] => [(some a, none)]
      | b :: rest => (b :: rest).map (fun b => (some a, some b)))
    ++ (bs.filter (fun b => !as.any (fun a => on a b))).map (fun b => (none, some b))

theorem mem_fullOuterJoin {on : α → β → Bool} {as : List α} {bs : List β}
    {p : Option α × Option β} :
    p ∈ fullOuterJoin on as bs ↔
      (∃ a ∈ as, (∃ b ∈ bs, on a b ∧ p = (some a, some b))
          ∨ (∀ b ∈ bs, ¬ on a b) ∧ p = (some a, none))
        ∨ ∃ b ∈ bs, (∀ a ∈ as, ¬ on a b) ∧ p = (none, some b) := by
  unfold fullOuterJoin
  rw [List.mem_append, List.mem_flatMap]
  apply or_congr
  · apply exists_congr
    intro a
    apply and_congr_right
    intro _
    split
    -- a row without a partner stays with an empty right side
    · rename_i hnone
      rw [List.filter_eq_nil_iff] at hnone
      constructor
      · intro hp
        exact Or.inr ⟨hnone, List.mem_singleton.mp hp⟩
      · intro hor
        rcases hor with ⟨b, hb, hon, _⟩ | ⟨_, hp⟩
        · exact absurd hon (hnone b hb)
        · exact List.mem_singleton.mpr hp
    · rename_i b rest hsome
      rw [← hsome, List.mem_map]
      have hb : b ∈ bs.filter (on a) := by
        rw [hsome]
        exact List.mem_cons_self
      rw [List.mem_filter] at hb
      constructor
      · intro hall
        obtain ⟨b', hb', hp⟩ := hall
        rw [List.mem_filter] at hb'
        exact Or.inl ⟨b', hb'.1, hb'.2, hp.symm⟩
      · intro hor
        rcases hor with ⟨b', hb', hon, hp⟩ | ⟨hno, _⟩
        · exact ⟨b', List.mem_filter.mpr ⟨hb', hon⟩, hp.symm⟩
        · exact absurd hb.2 (hno b hb.1)
  · simp only [List.mem_map, List.mem_filter, Bool.not_eq_true', List.any_eq_false, and_assoc,
      eq_comm (a := p)]

/-- **The outer join over a unique key**: each row on the left with the one on the right
that has its key, if there is one, and then the rows on the right that met none. -/
theorem fullOuterJoin_of_unique [DecidableEq κ] (key : α → κ) {key' : β → κ} (as : List α)
    {bs : List β} (hbs : Unique key' bs) :
    fullOuterJoin (fun a b => decide (key' b = key a)) as bs
      = as.map (fun a => (some a, bs.find? (fun b => key' b = key a)))
        ++ (bs.filter (fun b => !as.any (fun a => key' b = key a))).map
          (fun b => (none, some b)) := by
  unfold fullOuterJoin
  congr 1
  rw [List.map_eq_flatMap]
  apply List.flatMap_congr
  intro a _
  cases hfind : bs.find? (fun b => key' b = key a) with
  | none =>
      have hnone : bs.filter (fun b => decide (key' b = key a)) = [] :=
        List.filter_eq_nil_iff.mpr (List.find?_eq_none.mp hfind)
      rw [hnone]
  | some b =>
      have hb : b ∈ bs := List.mem_of_find?_eq_some hfind
      have hkey : key' b = key a := by simpa using List.find?_some hfind
      have hone : bs.filter (fun b' => decide (key' b' = key a)) = [b] := by
        rw [← hkey]
        exact hbs.filter_eq_singleton hb
      rw [hone]
      rfl

/-- Every outcome of `LIMIT n` without `ORDER BY`: some rows, in some order, as
many as there are up to `n`. -/
structure LimitOf (n : Nat) (l : List α) (l' : List α) : Prop where
  subperm : l'.Subperm l
  length : l'.length = min n l.length

/-- A limit always has an outcome. -/
theorem LimitOf.exists (n : Nat) (l : List α) : ∃ l', LimitOf n l l' :=
  ⟨l.take n, (List.take_sublist n l).subperm, List.length_take⟩

/-- Any row may be among those that a positive limit keeps. -/
theorem LimitOf.exists_mem {n : Nat} (hn : 0 < n) {l : List α} {a : α} (ha : a ∈ l) :
    ∃ l', LimitOf n l l' ∧ a ∈ l' := by
  obtain ⟨pre, post, hl⟩ := List.append_of_mem ha
  have hperm : (a :: (pre ++ post)).Perm l := by
    rw [hl]
    exact List.perm_middle.symm
  refine ⟨(a :: (pre ++ post)).take n, ⟨?_, ?_⟩, ?_⟩
  · exact (List.take_sublist n _).subperm.trans hperm.subperm
  · rw [List.length_take, hperm.length_eq]
  · cases n with
    | zero => omega
    | succ n => simp

end Relational
