/-
  ClipTown.Lib.Mvcc — tables of row versions under READ COMMITTED.

  A table keeps every version ever written together with its WRITER, and a
  commit log says how each transaction stands.  What a reader sees follows from
  the two: the committed rows, or the committed rows and one's own.  Committing
  or rolling back changes the log only.

    • `insertOnConflict` — `INSERT … ON CONFLICT (key) DO NOTHING`: it waits
      for another transaction's in-flight row of the same key, and does nothing
      when such a row is committed or the transaction's own,
    • `UniqueLive` — no two live versions share a key; kept by the insert
      (`UniqueLive.insert`) and by every change of the log that revives no
      version (`UniqueLive.setStatus`),
    • `Grows t` — all that one transaction `t` can do to a table as the OTHER
      transactions see it; the committed rows only grow (`Grows.committed`).
-/
import Mathlib.Data.List.Nodup
import Mathlib.Logic.Function.Basic

namespace Mvcc

variable {τ ρ κ : Type*} [DecidableEq τ] [DecidableEq κ]

/-! ## §1. Versions, the commit log, and what is seen. -/

/-- How a transaction stands. -/
inductive TxStatus
  | idle
  | inProgress
  | committed
  | aborted
  deriving DecidableEq

/-- A row and the transaction that wrote it. -/
structure Version (τ ρ : Type*) where
  writer : τ
  row : ρ

/-- The commit log. -/
abbrev Log (τ : Type*) := τ → TxStatus

/-- Every version ever written, in the order of writing. -/
abbrev Table (τ ρ : Type*) := List (Version τ ρ)

/-- The rows of committed transactions. -/
def committed (log : Log τ) (table : Table τ ρ) : List ρ :=
  (table.filter (fun v => log v.writer = .committed)).map Version.row

/-- What a statement of `t` sees: committed rows, and `t`'s own. -/
def visibleTo (t : τ) (log : Log τ) (table : Table τ ρ) : List ρ :=
  (table.filter (fun v => log v.writer = .committed ∨ v.writer = t)).map Version.row

/-- The transactions that wrote to the table. -/
def writers (table : Table τ ρ) : List τ := table.map Version.writer

omit [DecidableEq τ] in
theorem mem_committed {log : Log τ} {table : Table τ ρ} {row : ρ} :
    row ∈ committed log table ↔ ∃ v ∈ table, log v.writer = .committed ∧ v.row = row := by
  simp [committed, and_assoc]

theorem mem_visibleTo {t : τ} {log : Log τ} {table : Table τ ρ} {row : ρ} :
    row ∈ visibleTo t log table ↔
      ∃ v ∈ table, (log v.writer = .committed ∨ v.writer = t) ∧ v.row = row := by
  simp [visibleTo, and_assoc]

omit [DecidableEq τ] in
theorem mem_writers {table : Table τ ρ} {t : τ} :
    t ∈ writers table ↔ ∃ v ∈ table, v.writer = t := by
  simp [writers]

omit [DecidableEq τ] in
@[simp] theorem writers_append (table : Table τ ρ) (v : Version τ ρ) :
    writers (table ++ [v]) = writers table ++ [v.writer] := by
  simp [writers]

/-! ## §2. Unique keys. -/

/-- A version that is not rolled back. -/
def Live (log : Log τ) (v : Version τ ρ) : Prop := log v.writer ≠ .aborted

/-- No two live versions share a key. -/
def UniqueLive (key : ρ → κ) (log : Log τ) (table : Table τ ρ) : Prop :=
  table.Pairwise (fun v w => Live log v → Live log w → key v.row ≠ key w.row)

/-- The outcome of an insert with a conflict target. -/
inductive InsertOutcome (τ ρ : Type*)
  | waits
  | nothing
  | inserted (table : Table τ ρ)

/-- `INSERT … ON CONFLICT (key) DO NOTHING`. -/
def insertOnConflict (key : ρ → κ) (log : Log τ) (t : τ) (row : ρ) (table : Table τ ρ) :
    InsertOutcome τ ρ :=
  if ∃ v ∈ table, key v.row = key row ∧ log v.writer = .inProgress ∧ v.writer ≠ t then
    .waits
  else if ∃ v ∈ table, key v.row = key row ∧ (log v.writer = .committed ∨ v.writer = t) then
    .nothing
  else
    .inserted (table ++ [⟨t, row⟩])

/-- An insert waits only for another transaction's row of the key, in flight. -/
theorem insertOnConflict_waits {key : ρ → κ} {log : Log τ} {t : τ} {row : ρ}
    {table : Table τ ρ} (h : insertOnConflict key log t row table = .waits) :
    ∃ v ∈ table, key v.row = key row ∧ log v.writer = .inProgress ∧ v.writer ≠ t := by
  unfold insertOnConflict at h
  split at h
  · assumption
  · split at h <;> cases h

/-- Nothing is inserted only against a row of the key the transaction can see. -/
theorem insertOnConflict_nothing {key : ρ → κ} {log : Log τ} {t : τ} {row : ρ}
    {table : Table τ ρ} (h : insertOnConflict key log t row table = .nothing) :
    ∃ v ∈ table, key v.row = key row ∧ (log v.writer = .committed ∨ v.writer = t) := by
  unfold insertOnConflict at h
  split at h
  · cases h
  · split at h
    · assumption
    · cases h

/-- A row is inserted only where no live version has its key. -/
theorem insertOnConflict_inserted {key : ρ → κ} {log : Log τ} {t : τ} {row : ρ}
    {table table' : Table τ ρ} (hbegun : ∀ v ∈ table, log v.writer ≠ .idle)
    (h : insertOnConflict key log t row table = .inserted table') :
    table' = table ++ [⟨t, row⟩] ∧ ∀ v ∈ table, Live log v → key v.row ≠ key row := by
  unfold insertOnConflict at h
  split at h
  · cases h
  · rename_i hwait
    split at h
    · cases h
    · rename_i hseen
      refine ⟨(InsertOutcome.inserted.inj h).symm, ?_⟩
      intro v hv hlive hkey
      have hidle : log v.writer ≠ .idle := hbegun v hv
      by_cases hown : v.writer = t
      · exact hseen ⟨v, hv, hkey, Or.inr hown⟩
      · -- another's version is in flight or committed, and either would have been noticed
        cases hst : log v.writer with
        | idle => exact hidle hst
        | inProgress => exact hwait ⟨v, hv, hkey, hst, hown⟩
        | committed => exact hseen ⟨v, hv, hkey, Or.inl hst⟩
        | aborted => exact hlive hst

omit [DecidableEq τ] [DecidableEq κ] in
theorem UniqueLive.insert {key : ρ → κ} {log : Log τ} {table : Table τ ρ} {t : τ} {row : ρ}
    (h : UniqueLive key log table) (hnew : ∀ v ∈ table, Live log v → key v.row ≠ key row) :
    UniqueLive key log (table ++ [⟨t, row⟩]) := by
  unfold UniqueLive
  rw [List.pairwise_append]
  refine ⟨h, List.pairwise_singleton _ _, ?_⟩
  intro v hv w hw hlive _
  rw [List.mem_singleton] at hw
  rw [hw]
  exact hnew v hv hlive

omit [DecidableEq κ] in
/-- A change of one transaction's status revives no version unless it had been
rolled back. -/
theorem UniqueLive.setStatus {key : ρ → κ} {log : Log τ} {table : Table τ ρ} {t : τ}
    {status : TxStatus} (h : UniqueLive key log table) (ht : log t ≠ .aborted) :
    UniqueLive key (Function.update log t status) table := by
  have hlive : ∀ v : Version τ ρ, Live (Function.update log t status) v → Live log v := by
    intro v hv
    by_cases hwriter : v.writer = t
    · unfold Live
      rw [hwriter]
      exact ht
    · unfold Live at hv ⊢
      rwa [Function.update_of_ne hwriter] at hv
  exact h.imp (fun hkeys hv hw => hkeys (hlive _ hv) (hlive _ hw))

omit [DecidableEq τ] [DecidableEq κ] in
/-- **The committed rows have pairwise distinct keys.** -/
theorem UniqueLive.nodup_committed {key : ρ → κ} {log : Log τ} {table : Table τ ρ}
    (h : UniqueLive key log table) : ((committed log table).map key).Nodup := by
  have hlive : ∀ v ∈ table.filter (fun v => log v.writer = .committed), Live log v := by
    intro v hv
    have hst : log v.writer = .committed := by simpa using (List.mem_filter.mp hv).2
    unfold Live
    rw [hst]
    decide
  have hkeys := (h.filter (fun v => log v.writer = .committed)).imp_of_mem
    (fun hv hw hne => hne (hlive _ hv) (hlive _ hw))
  unfold committed List.Nodup
  rw [List.map_map, List.pairwise_map]
  exact hkeys

/-! ## §3. What one transaction can do to the others. -/

/-- All that transaction `t` can do to the log and a table, as the others see it:
it changes its own status, it never takes a commit back, it drops no version,
and it writes under its own name. -/
structure Grows (t : τ) (log log' : Log τ) (table table' : Table τ ρ) : Prop where
  status : ∀ d, d ≠ t → log' d = log d
  keeps : ∀ d, log d = .committed → log' d = .committed
  versions : table ⊆ table'
  others : ∀ d, d ≠ t → (d ∈ writers table' ↔ d ∈ writers table)

omit [DecidableEq κ] in
theorem Grows.setStatus {log : Log τ} {table : Table τ ρ} {t : τ} (status : TxStatus)
    (ht : log t ≠ .committed) : Grows t log (Function.update log t status) table table where
  status := fun _ hd => Function.update_of_ne hd _ _
  keeps := by
    intro d hd
    by_cases hdt : d = t
    · rw [hdt] at hd
      exact absurd hd ht
    · rw [Function.update_of_ne hdt]
      exact hd
  versions := List.Subset.refl table
  others := fun _ _ => Iff.rfl

omit [DecidableEq τ] in
theorem Grows.insert {log : Log τ} {table : Table τ ρ} {t : τ} (row : ρ) :
    Grows t log log table (table ++ [⟨t, row⟩]) where
  status := fun _ _ => rfl
  keeps := fun _ hd => hd
  versions := List.subset_append_left _ _
  others := by
    intro d hd
    simp [hd]

omit [DecidableEq τ] in
theorem Grows.refl (t : τ) (log : Log τ) (table : Table τ ρ) : Grows t log log table table where
  status := fun _ _ => rfl
  keeps := fun _ hd => hd
  versions := List.Subset.refl table
  others := fun _ _ => Iff.rfl

omit [DecidableEq τ] in
/-- **The committed rows only grow.** -/
theorem Grows.committed {t : τ} {log log' : Log τ} {table table' : Table τ ρ}
    (h : Grows t log log' table table') : committed log table ⊆ committed log' table' := by
  intro row hrow
  rw [mem_committed] at hrow ⊢
  obtain ⟨v, hv, hst, heq⟩ := hrow
  exact ⟨v, h.versions hv, h.keeps _ hst, heq⟩

/-- What another transaction sees only grows. -/
theorem Grows.visibleTo {t : τ} {log log' : Log τ} {table table' : Table τ ρ}
    (h : Grows t log log' table table') (d : τ) :
    visibleTo d log table ⊆ visibleTo d log' table' := by
  intro row hrow
  rw [mem_visibleTo] at hrow ⊢
  obtain ⟨v, hv, hst, heq⟩ := hrow
  exact ⟨v, h.versions hv, hst.imp_left (h.keeps _), heq⟩

end Mvcc
