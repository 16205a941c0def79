/-
  ClipTown.Locks.Catalog — the lock catalog and its keys (`locks/rust`).

  A key is `cliptown/<domain>/<name>`, the name filled with the values of the
  call site.  Values are spliced in as they are, slashes and braces included.

    • `entryKey_injective_iff` — an entry's key determines the values iff its
      name has one placeholder at most,
    • `domain_of_key` — a key determines its domain,
    • `catalogKeys_eq_iff` — the keys of the catalog are equal only where the
      rows and their values are.
-/
import ClipTown.Locks.EntryKey

namespace ClipTown.Locks

open Templates

/-! ## §1. The catalog. -/

/-- `LockLayers`. -/
structure LockLayers where
  fiducia : Bool
  pgAdvisory : Bool
  deriving DecidableEq

/-- `PgScope`. -/
inductive PgScope where
  | session
  | transaction
  deriving DecidableEq

/-- A row of the catalog, with the defaults of its lock. -/
structure CatalogEntry extends Entry where
  layers : LockLayers
  pgScope : PgScope
  wait : Bool
  deriving DecidableEq

/-- `MIGRATIONS_APPLY`. -/
def migrationsApply : CatalogEntry where
  domain := .migrations
  name := "apply"
  layers := { fiducia := true, pgAdvisory := true }
  pgScope := .session
  wait := false

/-- `JOBS_SINGLETON_JOB`. -/
def jobsSingletonJob : CatalogEntry where
  domain := .jobs
  name := "singleton:\x7bjob\x7d"
  layers := { fiducia := true, pgAdvisory := true }
  pgScope := .transaction
  wait := false

/-- `OUTBOX_DRAIN`. -/
def outboxDrain : CatalogEntry where
  domain := .outbox
  name := "drain"
  layers := { fiducia := false, pgAdvisory := true }
  pgScope := .transaction
  wait := false

/-- `TENANT_TENANT_ID_MUTATE`. -/
def tenantTenantIdMutate : CatalogEntry where
  domain := .tenant
  name := "\x7btenant_id\x7d/mutate"
  layers := { fiducia := true, pgAdvisory := true }
  pgScope := .transaction
  wait := true

/-- `catalog`. -/
def catalog : List CatalogEntry :=
  [migrationsApply, jobsSingletonJob, outboxDrain, tenantTenantIdMutate]

/-- The placeholders of the name, in order of appearance. -/
def Entry.placeholders (entry : Entry) : ℕ := holes (braces fun _ => false) entry.name.toList

/-! ## §2. One entry. -/

theorem key_inj {domain : Domain} {name name' : String} :
    key domain name = key domain name' ↔ name = name' := by
  unfold key
  exact String.append_right_inj _

/-- The key of an entry determines the values iff its name has one placeholder at most. -/
theorem entryKey_injective_iff (entry : Entry) :
    (∀ fill fill' : List String, fill.length = entry.placeholders →
        fill'.length = entry.placeholders →
        rustEntryKey entry fill = rustEntryKey entry fill' → fill = fill')
      ↔ entry.placeholders ≤ 1 := by
  have hkeys : ∀ fill fill' : List String, rustEntryKey entry fill = rustEntryKey entry fill'
      ↔ rustFillPlaceholders entry.name.toList (fill.map String.toList)
        = rustFillPlaceholders entry.name.toList (fill'.map String.toList) := by
    intro fill fill'
    unfold rustEntryKey keyOf
    rw [key_inj, String.ofList_inj]
  unfold Entry.placeholders
  rw [← fillWith_injective_iff]
  constructor
  · intro h values values' hvalues hvalues' heq
    -- every list of texts is the fill of some strings
    have hlists : ∀ values : List (List Char),
        (values.map String.ofList).map String.toList = values := by
      intro values
      rw [List.map_map]
      exact (List.map_congr_left fun v _ => String.toList_ofList).trans (List.map_id values)
    have hstrings := h (values.map String.ofList) (values'.map String.ofList)
      (by rw [List.length_map]; exact hvalues) (by rw [List.length_map]; exact hvalues') (by
        rw [hkeys, hlists, hlists]
        exact heq)
    rw [← hlists values, ← hlists values', hstrings]
  · intro h fill fill' hfill hfill' heq
    rw [hkeys] at heq
    have hvalues := h (fill.map String.toList) (fill'.map String.toList)
      (by rw [List.length_map]; exact hfill) (by rw [List.length_map]; exact hfill') heq
    exact List.map_injective_iff.mpr (fun _ _ => String.toList_inj.mp) hvalues

/-! ## §3. Two domains. -/

theorem asStr_injective : Function.Injective Domain.asStr := by
  intro domain domain' h
  cases domain <;> cases domain' <;> first | rfl | exact absurd h (by decide)

theorem slash_notMem_asStr (domain : Domain) : '/' ∉ domain.asStr.toList := by
  cases domain <;> decide

/-- The domain stands before the first slash that follows the prefix. -/
theorem cutAt_key (domain : Domain) (name : String) :
    cutAt (fun _ => false) '/' ((key domain name).toList.drop (org.toList.length + 1))
      = some (domain.asStr.toList, name.toList) := by
  have hkey : (key domain name).toList
      = (org.toList ++ ['/']) ++ (domain.asStr.toList ++ '/' :: name.toList) := by
    unfold key
    simp only [String.toList_append]
    rw [List.append_assoc, List.append_assoc, List.append_assoc]
    rfl
  have hlength : org.toList.length + 1 = (org.toList ++ ['/']).length := by
    rw [List.length_append]
    rfl
  rw [hkey, hlength, List.drop_left]
  exact cutAt_delimiter (slash_notMem_asStr domain) rfl

/-- A key determines its domain. -/
theorem domain_of_key {domain domain' : Domain} {name name' : String}
    (h : key domain name = key domain' name') : domain = domain' := by
  have hcut := cutAt_key domain name
  rw [h, cutAt_key] at hcut
  have htexts := (Prod.mk.inj (Option.some.inj hcut)).1
  exact (asStr_injective (String.toList_inj.mp htexts)).symm

/-! ## §4. The catalog. -/

/-- No two rows share a domain, and each has one placeholder at most. -/
structure Separated (rows : List CatalogEntry) : Prop where
  domains : ∀ row ∈ rows, ∀ row' ∈ rows, row.domain = row'.domain → row = row'
  placeholders : ∀ row ∈ rows, row.toEntry.placeholders ≤ 1

/-- In a separated catalog, a key determines the row and its values. -/
theorem Separated.keys_eq_iff {rows : List CatalogEntry} (hrows : Separated rows)
    {row row' : CatalogEntry} (hrow : row ∈ rows) (hrow' : row' ∈ rows) {fill fill' : List String}
    (hfill : fill.length = row.toEntry.placeholders)
    (hfill' : fill'.length = row'.toEntry.placeholders) :
    rustEntryKey row.toEntry fill = rustEntryKey row'.toEntry fill'
      ↔ row = row' ∧ fill = fill' := by
  constructor
  · intro heq
    have hrows_eq : row = row' := hrows.domains row hrow row' hrow' (domain_of_key heq)
    subst hrows_eq
    refine ⟨rfl, ?_⟩
    exact (entryKey_injective_iff row.toEntry).mpr (hrows.placeholders row hrow) fill fill' hfill
      hfill' heq
  · intro ⟨hrows_eq, hfills⟩
    rw [hrows_eq, hfills]

theorem placeholders_plain {entry : Entry} (h : '{' ∉ entry.name.toList) :
    entry.placeholders = 0 :=
  holes_none (braces_none _ h)

theorem placeholders_closed {entry : Entry} (b inner after : List Char)
    (hname : entry.name.toList = b ++ '{' :: (inner ++ '}' :: after)) (hb : '{' ∉ b)
    (hinner : '}' ∉ inner) (hafter : '{' ∉ after) : entry.placeholders = 1 := by
  unfold Entry.placeholders
  rw [hname, holes_some (rust_closed after hb hinner), holes_none (braces_none _ hafter)]

theorem placeholders_jobsSingletonJob : jobsSingletonJob.toEntry.placeholders = 1 :=
  placeholders_closed "singleton:".toList "job".toList [] (by decide) (by decide) (by decide)
    (by decide)

theorem placeholders_tenantTenantIdMutate : tenantTenantIdMutate.toEntry.placeholders = 1 :=
  placeholders_closed [] "tenant_id".toList "/mutate".toList (by decide) (by decide) (by decide)
    (by decide)

theorem catalog_separated : Separated catalog where
  domains := by decide
  placeholders := by
    intro row hrow
    simp only [catalog, List.mem_cons, List.not_mem_nil, or_false] at hrow
    obtain rfl | rfl | rfl | rfl := hrow
    · rw [placeholders_plain (by decide)]
      omega
    · exact Nat.le_of_eq placeholders_jobsSingletonJob
    · rw [placeholders_plain (by decide)]
      omega
    · exact Nat.le_of_eq placeholders_tenantTenantIdMutate

/-- Two keys of the catalog are equal only where the rows are and the values are. -/
theorem catalogKeys_eq_iff {row row' : CatalogEntry} (hrow : row ∈ catalog)
    (hrow' : row' ∈ catalog) {fill fill' : List String}
    (hfill : fill.length = row.toEntry.placeholders)
    (hfill' : fill'.length = row'.toEntry.placeholders) :
    rustEntryKey row.toEntry fill = rustEntryKey row'.toEntry fill' ↔ row = row' ∧ fill = fill' :=
  catalog_separated.keys_eq_iff hrow hrow' hfill hfill'

/-- A tenant whose id is written like a job's key. -/
theorem catalogKeys_eq_iff_sample :
    rustEntryKey tenantTenantIdMutate.toEntry ["singleton:{job}/a"]
        = rustEntryKey jobsSingletonJob.toEntry ["{job}/a/mutate"]
      ↔ tenantTenantIdMutate = jobsSingletonJob
        ∧ ["singleton:{job}/a"] = ["{job}/a/mutate"] :=
  catalogKeys_eq_iff (by decide) (by decide) placeholders_tenantTenantIdMutate.symm
    placeholders_jobsSingletonJob.symm

end ClipTown.Locks
