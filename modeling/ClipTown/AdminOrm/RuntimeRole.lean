/-
  ClipTown.AdminOrm.RuntimeRole — what a credential can do that `connect` accepts
  (`admin-orm/src/lib.rs`, `AdminReadContext::connect`, `AdminWriteContext::connect`,
  `validate_runtime_role`, `transaction_read_only`).

  The check reads one row of the catalog and the session's mode.  The schemas it
  looks at are those whose names are not LIKE `pg_%`, and in LIKE the underscore
  stands for any character.

    • `validateRuntimeRole_eq_ok`, `transactionReadOnly_eq_ok` — the answers that pass,
    • `like_reserved_iff` — the names that are passed over,
    • `validateRuntimeRole_catalog` — the rows that pass, by what the role can do,
    • `connect_eq_ok_iff` — whom either context accepts.
-/
import ClipTown.AdminOrm.DatabaseConfig

namespace ClipTown.AdminOrm

open Checks Validation

/-! ## §1. LIKE. -/

/-- `text LIKE pattern`, with the backslash as escape. -/
def like : List Char → List Char → Bool
  | [], text => text.isEmpty
  | '%' :: pattern, text => text.tails.any fun rest => like pattern rest
  | '_' :: pattern, _ :: rest => like pattern rest
  | '\\' :: c :: pattern, d :: rest => c == d && like pattern rest
  | c :: pattern, d :: rest => c == d && like pattern rest
  | _ :: _, [] => false

/-- The condition on `schema_name`: not the information schema, and not LIKE `pg_%`. -/
def isChecked (schemaName : String) : Bool :=
  schemaName != "information_schema" && !like "pg_%".toList schemaName.toList

/-- A name of three characters or more that starts with `pg`. -/
def StartsPg (name : String) : Prop := ∃ c rest, name.toList = 'p' :: 'g' :: c :: rest

theorem like_percent (text : List Char) : like ['%'] text = true := by
  refine List.any_eq_true.mpr ⟨[], ?_, rfl⟩
  exact (List.mem_tails [] text).mpr List.nil_suffix

/-- The underscore of `pg_%` takes any character, the underscore included. -/
theorem like_pg (a b c : Char) (rest : List Char) :
    like "pg_%".toList (a :: b :: c :: rest) = ('p' == a && ('g' == b && true)) := by
  rw [← like_percent rest]
  rfl

/-- **The names passed over.** -/
theorem like_reserved_iff (name : String) :
    like "pg_%".toList name.toList = true ↔ StartsPg name := by
  rw [StartsPg]
  constructor
  · intro h
    -- the pattern takes three characters at least
    cases hname : name.toList with
    | nil =>
        rw [hname] at h
        exact absurd h (by decide)
    | cons a text =>
        rw [hname] at h
        cases text with
        | nil => exact absurd h (by simp [like])
        | cons b text =>
            cases text with
            | nil => exact absurd h (by simp [like])
            | cons c rest =>
                rw [like_pg, Bool.and_true, Bool.and_eq_true, beq_iff_eq, beq_iff_eq] at h
                exact ⟨c, rest, by rw [← h.1, ← h.2]⟩
  · intro h
    obtain ⟨c, rest, hname⟩ := h
    rw [hname, like_pg]
    rfl

/-! ## §2. The catalog, and what a credential can do. -/

/-- A row of `pg_roles`. -/
structure Role where
  rolname : String
  rolsuper : Bool
  rolcreaterole : Bool
  rolcreatedb : Bool
  rolreplication : Bool
  rolbypassrls : Bool

/-- A schema, with what the session's role may do there. -/
structure SchemaGrant where
  name : String
  owns : Bool
  usage : Bool
  create : Bool

/-- What a session reads: its identity, its mode, and the catalog. -/
structure Catalog where
  currentUser : String
  currentDatabase : String
  roles : List Role
  /-- Role names are unique. -/
  names_nodup : (roles.map Role.rolname).Nodup
  createInDatabase : Bool
  schemas : List SchemaGrant
  readOnly : Bool

/-- The powers that the adapter asks about. -/
inductive Power where
  | superuser
  | createRole
  | createDatabase
  | replicate
  | bypassRls
  | createSchema
  | createIn (schemaName : String)
  | write

/-- The session has the power. -/
def Catalog.Has (catalog : Catalog) : Power → Prop
  | .superuser => ∃ role ∈ catalog.roles, role.rolname = catalog.currentUser ∧ role.rolsuper
  | .createRole => ∃ role ∈ catalog.roles, role.rolname = catalog.currentUser ∧ role.rolcreaterole
  | .createDatabase => ∃ role ∈ catalog.roles, role.rolname = catalog.currentUser ∧ role.rolcreatedb
  | .replicate => ∃ role ∈ catalog.roles, role.rolname = catalog.currentUser ∧ role.rolreplication
  | .bypassRls => ∃ role ∈ catalog.roles, role.rolname = catalog.currentUser ∧ role.rolbypassrls
  | .createSchema => catalog.createInDatabase = true
  | .createIn schemaName => ∃ schema ∈ catalog.schemas, schema.name = schemaName ∧ schema.create
  | .write => catalog.readOnly = false

/-! ## §3. The two queries. -/

/-- The row that `validate_runtime_role` reads; a column that does not decode has
no value. -/
structure RuntimeRow where
  roleName : Option String
  databaseName : Option String
  rolsuper : Option Bool
  rolcreaterole : Option Bool
  rolcreatedb : Option Bool
  rolreplication : Option Bool
  rolbypassrls : Option Bool
  canCreateSchemas : Option Bool
  canCreateSchemaObjects : Option Bool

/-- The columns of the fold, in its order. -/
def RuntimeRow.flags (row : RuntimeRow) : List (Option Bool) :=
  [row.rolsuper, row.rolcreaterole, row.rolcreatedb, row.rolreplication, row.rolbypassrls,
    row.canCreateSchemas, row.canCreateSchemaObjects]

/-- `information_schema.schemata`: the schemas that the role owns or has a privilege on. -/
def Catalog.schemata (catalog : Catalog) : List SchemaGrant :=
  catalog.schemas.filter fun schema => schema.owns || schema.usage || schema.create

/-- The selected columns, for a row of `pg_roles`. -/
def Catalog.rowOf (catalog : Catalog) (role : Role) : RuntimeRow where
  roleName := some catalog.currentUser
  databaseName := some catalog.currentDatabase
  rolsuper := some role.rolsuper
  rolcreaterole := some role.rolcreaterole
  rolcreatedb := some role.rolcreatedb
  rolreplication := some role.rolreplication
  rolbypassrls := some role.rolbypassrls
  canCreateSchemas := some catalog.createInDatabase
  canCreateSchemaObjects := some (catalog.schemata.any fun schema =>
    isChecked schema.name && schema.create)

/-- The query of `validate_runtime_role`, on the catalog. -/
def Catalog.runtimeRow (catalog : Catalog) : Option RuntimeRow :=
  (catalog.roles.find? fun role => role.rolname == catalog.currentUser).map catalog.rowOf

/-- One column of the fold. -/
def orColumn (unsafeRole : Bool) (column : Option Bool) : Except AdminOrmError Bool := do
  let value ← okOr column .decode
  return unsafeRole || value

/-- `validate_runtime_role`, on the answer to its query: no answer, or a row or none. -/
def validateRuntimeRole (answer : Option (Option RuntimeRow)) (config : AdminDatabaseConfig) :
    Except AdminOrmError Unit := do
  let rows ← okOr answer .database
  let row ← okOr rows .unsafeRuntimeRole
  let roleName ← okOr row.roleName .decode
  let databaseName ← okOr row.databaseName .decode
  let unsafeRole ← row.flags.foldlM orColumn false
  rejectIf
    (roleName ≠ config.expectedRole ∨ databaseName ≠ config.expectedDatabase ∨ unsafeRole = true)
    .unsafeRuntimeRole

/-- `transaction_read_only`, on the answer to its query. -/
def transactionReadOnly (answer : Option (Option (Option String))) : Except AdminOrmError Bool := do
  let rows ← okOr answer .database
  let row ← okOr rows .decode
  let mode ← okOr row .decode
  match mode with
  | "on" => return true
  | "off" => return false
  | _ => .error .decode

/-! ## §4. The two contexts. -/

/-- `AdminReadContext` and `AdminWriteContext`. -/
inductive Context where
  | read
  | write
  deriving DecidableEq

/-- A session that was opened: where it goes, and how it answers the two queries. -/
structure AdminSession where
  connection : Connection
  runtimeRole : Option (Option RuntimeRow)
  readOnlyMode : Option (Option (Option String))

/-- The `connect` of the two contexts; `open_` is `Database::connect`. -/
def connect (parse : String → Option Url) (open_ : ConnectOptions → Option AdminSession)
    (context : Context) (config : AdminDatabaseConfig) : Except AdminOrmError AdminSession := do
  let options ← config.connectOptions parse
  let session ← okOr (open_ options) .database
  validateRuntimeRole session.runtimeRole config
  let readOnly ← transactionReadOnly session.readOnlyMode
  match context with
  | .read =>
      rejectIf (readOnly = false) .readCredentialWritable
      return session
  | .write =>
      rejectIf (readOnly = true) .writeCredentialReadOnly
      return session

/-! ## §5. The answers that pass. -/

/-- The fold ends in `false` where every column decodes to it. -/
theorem foldlM_orColumn {columns : List (Option Bool)} {start : Bool} :
    columns.foldlM orColumn start = .ok false ↔
      start = false ∧ ∀ column ∈ columns, column = some false := by
  induction columns generalizing start with
  | nil => simp [pure_eq_ok]
  | cons column columns ih =>
      simp only [List.foldlM_cons, orColumn, do_eq_ok, okOr_eq_ok, pure_eq_ok,
        List.forall_mem_cons]
      constructor
      · intro h
        obtain ⟨_, ⟨value, hcolumn, rfl⟩, hrest⟩ := h
        obtain ⟨hor, hcolumns⟩ := ih.mp hrest
        obtain ⟨hstart, hvalue⟩ := Bool.or_eq_false_iff.mp hor
        exact ⟨hstart, by rw [hcolumn, hvalue], hcolumns⟩
      · intro h
        obtain ⟨hstart, hcolumn, hcolumns⟩ := h
        exact ⟨start || false, ⟨false, hcolumn, rfl⟩, ih.mpr ⟨by rw [hstart]; rfl, hcolumns⟩⟩

theorem validateRuntimeRole_eq_ok {answer : Option (Option RuntimeRow)}
    {config : AdminDatabaseConfig} :
    validateRuntimeRole answer config = .ok () ↔
      ∃ row, answer = some (some row) ∧ row.roleName = some config.expectedRole
        ∧ row.databaseName = some config.expectedDatabase
        ∧ ∀ column ∈ row.flags, column = some false := by
  simp only [validateRuntimeRole, do_eq_ok, okOr_eq_ok, rejectIf_eq_ok, not_or, not_not,
    Bool.not_eq_true]
  constructor
  · intro h
    obtain ⟨_, rfl, row, rfl, _, hrole, _, hdatabase, _, hfold, rfl, rfl, rfl⟩ := h
    exact ⟨row, rfl, hrole, hdatabase, (foldlM_orColumn.mp hfold).2⟩
  · intro h
    obtain ⟨row, rfl, hrole, hdatabase, hcolumns⟩ := h
    exact ⟨_, rfl, row, rfl, _, hrole, _, hdatabase, _, foldlM_orColumn.mpr ⟨rfl, hcolumns⟩,
      rfl, rfl, rfl⟩

theorem transactionReadOnly_eq_ok {answer : Option (Option (Option String))} {readOnly : Bool} :
    transactionReadOnly answer = .ok readOnly ↔
      answer = some (some (some (if readOnly then "on" else "off"))) := by
  simp only [transactionReadOnly, do_eq_ok, okOr_eq_ok]
  constructor
  · intro h
    obtain ⟨_, rfl, _, rfl, mode, rfl, hmode⟩ := h
    split at hmode
    · obtain rfl := pure_eq_ok.mp hmode
      rfl
    · obtain rfl := pure_eq_ok.mp hmode
      rfl
    · cases hmode
  · intro h
    refine ⟨_, h, _, rfl, _, rfl, ?_⟩
    cases readOnly with
    | true => rfl
    | false => rfl

/-! ## §6. The rows that pass. -/

/-- What an accepted credential may have: writing is asked about apart, and some
schemas are not looked at. -/
def Harmless : Power → Prop
  | .createIn schemaName => schemaName = "information_schema" ∨ StartsPg schemaName
  | .write => True
  | _ => False

theorem isChecked_iff {schemaName : String} :
    isChecked schemaName = true ↔ ¬ Harmless (.createIn schemaName) := by
  rw [isChecked, Bool.and_eq_true, bne_iff_ne, Bool.not_eq_true', ← Bool.not_eq_true,
    like_reserved_iff, Harmless, not_or]

section Catalogs

variable {catalog : Catalog} {role : Role} {config : AdminDatabaseConfig}

/-- The query finds the role of the session. -/
theorem find_role :
    (catalog.roles.find? fun role => role.rolname == catalog.currentUser) = some role ↔
      role ∈ catalog.roles ∧ role.rolname = catalog.currentUser := by
  constructor
  · intro h
    exact ⟨List.mem_of_find?_eq_some h, by simpa using List.find?_some h⟩
  · intro h
    obtain ⟨hmem, hname⟩ := h
    cases hfound : catalog.roles.find? fun role => role.rolname == catalog.currentUser with
    | none => exact absurd (by simpa using hname) (List.find?_eq_none.mp hfound role hmem)
    | some other =>
        -- names are unique, so the first row of that name is the only one
        have hother : other.rolname = role.rolname := by
          rw [hname]
          simpa using List.find?_some hfound
        rw [List.inj_on_of_nodup_map catalog.names_nodup (List.mem_of_find?_eq_some hfound) hmem
          hother]

/-- An attribute of the session's role. -/
theorem attribute_iff (flag : Role → Bool) (hmem : role ∈ catalog.roles)
    (hname : role.rolname = catalog.currentUser) :
    (∃ other ∈ catalog.roles, other.rolname = catalog.currentUser ∧ flag other = true) ↔
      flag role = true := by
  constructor
  · intro h
    obtain ⟨other, hother, hsame, hattribute⟩ := h
    rw [← List.inj_on_of_nodup_map catalog.names_nodup hother hmem (hsame.trans hname.symm)]
    exact hattribute
  · intro h
    exact ⟨role, hmem, hname, h⟩

/-- The last column is `false` where only schemas that are not looked at are open. -/
theorem createObjects_iff :
    (catalog.schemata.any fun schema => isChecked schema.name && schema.create) = false ↔
      ∀ schemaName, catalog.Has (.createIn schemaName) → Harmless (.createIn schemaName) := by
  rw [List.any_eq_false]
  constructor
  · intro h schemaName hhas
    obtain ⟨schema, hmem, rfl, hcreate⟩ := hhas
    by_contra hharm
    have hvisible : schema ∈ catalog.schemata :=
      List.mem_filter.mpr ⟨hmem, by rw [hcreate, Bool.or_true]⟩
    refine h schema hvisible ?_
    rw [isChecked_iff.mpr hharm, hcreate]
    rfl
  · intro h schema hvisible hflag
    obtain ⟨hchecked, hcreate⟩ := (Bool.and_eq_true _ _).mp hflag
    have hmem := (List.mem_filter.mp hvisible).1
    exact isChecked_iff.mp hchecked (h schema.name ⟨schema, hmem, rfl, hcreate⟩)

/-- **The rows that pass**, by what the role can do. -/
theorem validateRuntimeRole_catalog :
    validateRuntimeRole (some catalog.runtimeRow) config = .ok () ↔
      catalog.currentUser = config.expectedRole ∧ catalog.currentDatabase = config.expectedDatabase
        ∧ (∃ role ∈ catalog.roles, role.rolname = catalog.currentUser)
        ∧ ∀ power, catalog.Has power → Harmless power := by
  rw [validateRuntimeRole_eq_ok]
  constructor
  · intro h
    obtain ⟨row, hrow, huser, hdatabase, hcolumns⟩ := h
    obtain ⟨role, hfind, rfl⟩ := Option.map_eq_some_iff.mp (Option.some.inj hrow)
    obtain ⟨hmem, hname⟩ := find_role.mp hfind
    refine ⟨Option.some.inj huser, Option.some.inj hdatabase, ⟨role, hmem, hname⟩, ?_⟩
    simp only [RuntimeRow.flags, Catalog.rowOf, List.forall_mem_cons, Option.some.injEq] at hcolumns
    obtain ⟨hsuper, hrole, hdb, hreplication, hbypass, hschemas, hobjects, -⟩ := hcolumns
    have hnot : ∀ flag : Role → Bool, flag role = false →
        ¬ ∃ other ∈ catalog.roles, other.rolname = catalog.currentUser ∧ flag other = true := by
      intro flag hfalse hhas
      rw [attribute_iff flag hmem hname, hfalse] at hhas
      exact Bool.false_ne_true hhas
    intro power hhas
    cases power with
    | superuser => exact hnot Role.rolsuper hsuper hhas
    | createRole => exact hnot Role.rolcreaterole hrole hhas
    | createDatabase => exact hnot Role.rolcreatedb hdb hhas
    | replicate => exact hnot Role.rolreplication hreplication hhas
    | bypassRls => exact hnot Role.rolbypassrls hbypass hhas
    | createSchema => exact Bool.false_ne_true (hschemas.symm.trans hhas)
    | createIn schemaName => exact createObjects_iff.mp hobjects schemaName hhas
    | write => trivial
  · intro h
    obtain ⟨huser, hdatabase, ⟨role, hmem, hname⟩, hpowers⟩ := h
    have hrow : catalog.runtimeRow = some (catalog.rowOf role) := by
      rw [Catalog.runtimeRow, find_role.mpr ⟨hmem, hname⟩]
      rfl
    refine ⟨catalog.rowOf role, congrArg some hrow, congrArg some huser,
      congrArg some hdatabase, ?_⟩
    have hfalse : ∀ (flag : Role → Bool),
        ¬ (∃ other ∈ catalog.roles, other.rolname = catalog.currentUser ∧ flag other = true) →
          flag role = false := by
      intro flag hnot
      exact Bool.eq_false_iff.mpr fun htrue =>
        hnot ((attribute_iff flag hmem hname).mpr htrue)
    simp only [RuntimeRow.flags, Catalog.rowOf, List.forall_mem_cons, Option.some.injEq]
    exact ⟨hfalse Role.rolsuper (hpowers .superuser),
      hfalse Role.rolcreaterole (hpowers .createRole),
      hfalse Role.rolcreatedb (hpowers .createDatabase),
      hfalse Role.rolreplication (hpowers .replicate),
      hfalse Role.rolbypassrls (hpowers .bypassRls),
      Bool.eq_false_iff.mpr (hpowers .createSchema),
      createObjects_iff.mpr fun schemaName => hpowers (.createIn schemaName),
      fun column hnone => absurd hnone List.not_mem_nil⟩

end Catalogs

/-! ## §7. Whom the contexts accept. -/

/-- A session answers from the catalog, or not at all. -/
structure AdminSession.Honest (session : AdminSession) (catalog : Catalog) : Prop where
  user : catalog.currentUser = session.connection.role
  database : catalog.currentDatabase = session.connection.database
  row : ∀ answer ∈ session.runtimeRole, answer = catalog.runtimeRow
  mode : ∀ answer ∈ session.readOnlyMode,
    answer = some (some (if catalog.readOnly then "on" else "off"))

/-- A session that a context may be given. -/
structure Admitted (context : Context) (config : AdminDatabaseConfig) (session : AdminSession)
    (catalog : Catalog) : Prop where
  role : session.connection.role = config.expectedRole
  database : session.connection.database = config.expectedDatabase
  known : ∃ role ∈ catalog.roles, role.rolname = session.connection.role
  harmless : ∀ power, catalog.Has power → Harmless power
  writes : catalog.Has .write ↔ context = .write

/-- **Whom the contexts accept.**  A session becomes a context iff both queries are
answered, it is in the reviewed role and database, it writes iff that is the context,
and it has no other power than to create in schemas that are named like `pg_%`, with
any third character, or the information schema. -/
theorem connect_eq_ok_iff (parse : String → Option Url)
    (open_ : ConnectOptions → Option AdminSession) (server : Connection → Catalog)
    (honest : ∀ options session, open_ options = some session →
      session.Honest (server session.connection))
    (context : Context) (config : AdminDatabaseConfig) (session : AdminSession) :
    connect parse open_ context config = .ok session ↔
      (∃ options, config.connectOptions parse = .ok options ∧ open_ options = some session)
        ∧ session.runtimeRole.isSome ∧ session.readOnlyMode.isSome
        ∧ Admitted context config session (server session.connection) := by
  -- the last test of either context, on the mode
  have hmode : ∀ (readOnly : Bool) (s : AdminSession),
      (match context with
        | .read => do
            rejectIf (readOnly = false) .readCredentialWritable
            return s
        | .write => do
            rejectIf (readOnly = true) .writeCredentialReadOnly
            return s : Except AdminOrmError AdminSession) = .ok session ↔
        s = session ∧ (readOnly = false ↔ context = .write) := by
    intro readOnly s
    cases context with
    | read =>
        simp only [do_eq_ok, rejectIf_eq_ok, exists_unit, pure_eq_ok]
        cases readOnly <;> simp
    | write =>
        simp only [do_eq_ok, rejectIf_eq_ok, exists_unit, pure_eq_ok]
        cases readOnly <;> simp
  unfold connect
  simp only [do_eq_ok, okOr_eq_ok, exists_unit, hmode]
  constructor
  · intro h
    obtain ⟨options, hoptions, s, hopen, hrole, readOnly, hreadOnly, rfl, hwrites⟩ := h
    have hhonest := honest options s hopen
    have hread := transactionReadOnly_eq_ok.mp hreadOnly
    obtain ⟨row, hrow, _⟩ := validateRuntimeRole_eq_ok.mp hrole
    have hcatalog := hhonest.row (some row) hrow
    rw [hrow, hcatalog, validateRuntimeRole_catalog] at hrole
    obtain ⟨huser, hdatabase, ⟨role, hmem, hname⟩, hpowers⟩ := hrole
    refine ⟨⟨options, hoptions, hopen⟩, by rw [hrow]; rfl, by rw [hread]; rfl, ?_⟩
    refine ⟨hhonest.user ▸ huser, hhonest.database ▸ hdatabase,
      ⟨role, hmem, hname.trans hhonest.user⟩, hpowers, ?_⟩
    -- the mode that was read is that of the catalog
    have hagain := transactionReadOnly_eq_ok.mpr
      (hread.trans (congrArg some (hhonest.mode _ hread)))
    rw [hreadOnly] at hagain
    show (server s.connection).readOnly = false ↔ context = .write
    rw [← Except.ok.inj hagain]
    exact hwrites
  · intro h
    obtain ⟨⟨options, hoptions, hopen⟩, hrow, hread, hadmitted⟩ := h
    have hhonest := honest options session hopen
    obtain ⟨row, hrow⟩ := Option.isSome_iff_exists.mp hrow
    obtain ⟨mode, hread⟩ := Option.isSome_iff_exists.mp hread
    refine ⟨options, hoptions, session, hopen, ?_, (server session.connection).readOnly, ?_, rfl,
      hadmitted.writes⟩
    · rw [hrow, hhonest.row row hrow, validateRuntimeRole_catalog]
      obtain ⟨role, hmem, hname⟩ := hadmitted.known
      exact ⟨hhonest.user.trans hadmitted.role, hhonest.database.trans hadmitted.database,
        ⟨role, hmem, hname.trans hhonest.user.symm⟩, hadmitted.harmless⟩
    · rw [hread, hhonest.mode mode hread, transactionReadOnly_eq_ok]

/-- The role of the samples, without any attribute. -/
def sampleRole : Role where
  rolname := "admin_api_runtime"
  rolsuper := false
  rolcreaterole := false
  rolcreatedb := false
  rolreplication := false
  rolbypassrls := false

/-- It may create tables in the schema `pgboss`. -/
def sampleCatalog : Catalog where
  currentUser := "admin_api_runtime"
  currentDatabase := "admin_control"
  roles := [sampleRole]
  names_nodup := by decide
  createInDatabase := false
  schemas := [⟨"public", false, true, false⟩, ⟨"pgboss", true, true, true⟩]
  readOnly := false

def sampleSession : AdminSession where
  connection := driveInOrder (sampleUrl [("sslmode", "verify-full")])
  runtimeRole := some sampleCatalog.runtimeRow
  readOnlyMode := some (some (some "off"))

/-- A credential that may create tables is accepted. -/
theorem connect_eq_ok_pgboss :
    connect sampleParse (fun _ => some sampleSession) .write (sampleConfig "sslmode=verify-full")
        = .ok sampleSession
      ∧ sampleCatalog.Has (.createIn "pgboss") := by
  have honest : sampleSession.Honest sampleCatalog :=
    ⟨by decide, by decide, fun answer h => (Option.some.inj h).symm,
      fun answer h => (Option.some.inj h).symm⟩
  refine ⟨(connect_eq_ok_iff sampleParse (fun _ => some sampleSession) (fun _ => sampleCatalog)
      ?_ .write _ sampleSession).mpr ⟨⟨_, by rfl, rfl⟩, rfl, rfl, ?_⟩,
    ⟨_, List.mem_cons_of_mem _ List.mem_cons_self, rfl, rfl⟩⟩
  · intro options session hopen
    obtain rfl := Option.some.inj hopen
    exact honest
  · refine ⟨by decide, by decide, ⟨sampleRole, List.mem_cons_self, by decide⟩, ?_, ?_⟩
    · intro power hhas
      cases power with
      | createIn schemaName =>
          obtain ⟨schema, hmem, rfl, hcreate⟩ := hhas
          rcases List.mem_cons.mp hmem with rfl | hmem
          · cases hcreate
          · rw [List.mem_singleton.mp hmem]
            exact Or.inr ⟨'b', ['o', 's', 's'], by decide⟩
      | write => trivial
      | createSchema => cases hhas
      | _ =>
          obtain ⟨role, hmem, -, hflag⟩ := hhas
          rw [List.mem_singleton.mp hmem] at hflag
          cases hflag
    · exact iff_of_true rfl rfl

end ClipTown.AdminOrm
