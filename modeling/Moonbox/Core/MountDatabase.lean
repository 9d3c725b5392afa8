import Moonbox.Catalog.DatabaseTables
import Moonbox.Core.DatabaseNames
import Moonbox.Core.Writes
import Moonbox.Lib.Runs

/-!
# Mounting and refreshing a database

Both commands write one table after the other. What they leave when they end, and what they leave
when a data system, a lookup or a single table fails on the way.
-/

namespace Moonbox.Core

open Actor Catalog Relational Collation

/-- What can go wrong with single tables: the properties of one are not read, or its row is not
written or not deleted. -/
structure TableFailures where
  create : String → Except String Unit
  drop : String → Except String Unit

/-- Nothing goes wrong. -/
def TableFailures.none : TableFailures := ⟨fun _ => .ok (), fun _ => .ok ()⟩

section Commands

variable [Names] (env : Env) (catalog : MoonboxCatalog) (now : Nat) (failing : TableFailures)

/-- The loop over the tables of a data system. -/
def createTables (props : Properties) (db : String) (owner : Option String)
    (tables : List String) : DBIO Unit :=
  Action.forEach (fun tbName => do
    liftExcept (failing.create tbName)
    JdbcCatalog.createTable (mountedTable env props db owner tbName) true
      catalog.userInSession now) tables

def dropTables (db : String) (tables : List String) : DBIO Unit :=
  Action.forEach (fun t => do
    liftExcept (failing.drop t)
    JdbcCatalog.dropTable db t true catalog.userInSession) tables

/-- `MountDatabase.run` where tables may fail. -/
def MountDatabase.runFailing (name : String) (props : Properties) (ignoreIfExists : Bool) :
    DBIO Unit := do
  liftExcept (env.test props)
  JdbcCatalog.createDatabase { name := name, properties := props, isLogical := false }
    ignoreIfExists catalog.userInSession now
  let tables ← liftExcept (env.tableNames props)
  createTables env catalog now failing props name none tables

/-- `RefreshDatabase.run` where tables may fail. -/
def RefreshDatabase.runFailing (name : String) : DBIO Unit := do
  let catalogDatabase ← JdbcCatalog.getDatabase name catalog.userInSession
  if catalogDatabase.isLogical then .throw "Can not refresh logical database."
  else do
    let props := catalogDatabase.properties
    liftExcept (env.test props)
    let tables ← JdbcCatalog.listTables catalogDatabase.name catalog.userInSession
    let exist := tables.map CatalogTable.name
    let dsTables ← liftExcept (env.tableNames props)
    createTables env catalog now failing props name catalogDatabase.owner (dsTables.diff exist)
    dropTables catalog failing name (exist.diff dsTables)

lemma MountDatabase.runFailing_none :
    MountDatabase.runFailing env catalog now .none = MountDatabase.run env catalog now := rfl

lemma RefreshDatabase.runFailing_none :
    RefreshDatabase.runFailing env catalog now .none = RefreshDatabase.run env catalog now := rfl

end Commands

/-! ### What the loops leave -/

section Loops

variable [Names] {env : Env} {catalog : MoonboxCatalog} {now : Nat} {failing : TableFailures}
  {caller : User} {s : Store} {props : Properties} {db : String} {owner : Option String}
  {dbEntity : DatabaseEntity} {Q : Unit → Store → Prop} {X : Store → Prop}

lemma wp_createTable_found {d : CatalogTable} (hdb : d.db = some db)
    (found : s.database caller.orgId db = some dbEntity) :
    (JdbcCatalog.createTable d true caller now).wp Q X s ↔
      Q () (s.withTable (.ofDefinition d dbEntity.id caller now)) := by
  simp only [JdbcCatalog.createTable, hdb, Action.wp_bind, wp_getDatabase, found, wp_getTable]
  change _ ↔ Q () (if (s.table dbEntity.id d.name).isSome then s
    else execAll [.insert .tables (.ofDefinition d dbEntity.id caller now)] s)
  cases s.table dbEntity.id d.name with
  | none => rfl
  | some t => rfl

lemma wp_createTable_missing {d : CatalogTable} {ign : Bool} (hdb : d.db = some db)
    (missing : s.database caller.orgId db = none) :
    (JdbcCatalog.createTable d ign caller now).wp Q X s ↔ X s := by
  simp [JdbcCatalog.createTable, hdb, missing]

lemma wp_dropTable_found {table : String}
    (found : s.database caller.orgId db = some dbEntity) :
    (JdbcCatalog.dropTable db table true caller).wp Q X s ↔
      Q () (Store.withoutTable dbEntity.id s table) := by
  simp only [JdbcCatalog.dropTable, Action.wp_bind, wp_getDatabase, found, wp_getTable,
    Store.withoutTable]
  cases s.table dbEntity.id table with
  | none => rfl
  | some t => simp

lemma wp_dropTable_missing {table : String} {ign : Bool}
    (missing : s.database caller.orgId db = none) :
    (JdbcCatalog.dropTable db table ign caller).wp Q X s ↔ X s := by
  simp [JdbcCatalog.dropTable, missing]

/-- The row of a table of a data system. -/
def mountedRow (env : Env) (catalog : MoonboxCatalog) (now : Nat) (props : Properties)
    (db : String) (owner : Option String) (dbId : Nat) (tbName : String) : TableEntity :=
  .ofDefinition (mountedTable env props db owner tbName) dbId catalog.userInSession now

/-- The tables before the first that fails. -/
def beforeFailure (failing : String → Except String Unit) (tables : List String) : List String :=
  tables.takeWhile fun t => (failing t).isOk

def noneFails (failing : String → Except String Unit) (tables : List String) : Bool :=
  tables.all fun t => (failing t).isOk

lemma wp_createTables_found (tables : List String)
    (found : s.database catalog.userInSession.orgId db = some dbEntity) :
    (createTables env catalog now failing props db owner tables).wp Q X s ↔
      if noneFails failing.create tables then
        Q () (s.withTables (tables.map (mountedRow env catalog now props db owner dbEntity.id)))
      else X (s.withTables ((beforeFailure failing.create tables).map
        (mountedRow env catalog now props db owner dbEntity.id))) := by
  simp only [Store.withTables, List.foldl_map]
  refine Action.wp_rounds (I := fun s' => s' .databases = s .databases) ?_ ?_ rfl tables
  · intro t s' hs' Q
    have found' : Store.database s' catalog.userInSession.orgId db = some dbEntity := by
      rwa [Store.database, hs']
    simp only [Action.wp_bind]
    cases failing.create t with
    | error e => rfl
    | ok _ => exact wp_createTable_found rfl found'
  · intro s' t hs'
    exact (Store.withTable_of_ne (by decide)).trans hs'

lemma wp_createTables_missing (tables : List String)
    (missing : s.database catalog.userInSession.orgId db = none) :
    (createTables env catalog now failing props db owner tables).wp Q X s ↔
      if tables.isEmpty then Q () s else X s := by
  cases tables with
  | nil => rfl
  | cons t tables =>
    simp only [createTables, Action.forEach, Action.wp_bind]
    cases failing.create t with
    | error e => rfl
    | ok _ => exact wp_createTable_missing rfl missing

lemma wp_dropTables_found (tables : List String)
    (found : s.database catalog.userInSession.orgId db = some dbEntity) :
    (dropTables catalog failing db tables).wp Q X s ↔
      if noneFails failing.drop tables then Q () (s.withoutTables dbEntity.id tables)
      else X (s.withoutTables dbEntity.id (beforeFailure failing.drop tables)) := by
  refine Action.wp_rounds (I := fun s' => s' .databases = s .databases) ?_ ?_ rfl tables
  · intro t s' hs' Q
    have found' : Store.database s' catalog.userInSession.orgId db = some dbEntity := by
      rwa [Store.database, hs']
    simp only [Action.wp_bind]
    cases failing.drop t with
    | error e => rfl
    | ok _ => exact wp_dropTable_found found'
  · intro s' t hs'
    exact (Store.withoutTable_of_ne (by decide) (by decide) (by decide)).trans hs'

lemma wp_dropTables_missing (tables : List String)
    (missing : s.database catalog.userInSession.orgId db = none) :
    (dropTables catalog failing db tables).wp Q X s ↔
      if tables.isEmpty then Q () s else X s := by
  cases tables with
  | nil => rfl
  | cons t tables =>
    simp only [dropTables, Action.forEach, Action.wp_bind]
    cases failing.drop t with
    | error e => rfl
    | ok _ => exact wp_dropTable_missing missing

lemma wp_createDatabase {d : CatalogDatabase} {ign : Bool} :
    (JdbcCatalog.createDatabase d ign caller now).wp Q X s ↔
      match s.database caller.orgId (JdbcCatalog.formatDatabaseName d.name) with
      | some _ => if ign then Q () s else X s
      | none => Q () (execAll [.insert .databases
          (.ofDefinition d (JdbcCatalog.formatDatabaseName d.name) caller now)] s) := by
  simp only [JdbcCatalog.createDatabase, Action.wp_bind, wp_databaseExists]
  cases s.database caller.orgId (JdbcCatalog.formatDatabaseName d.name) with
  | some dbEntity => cases ign <;> rfl
  | none => rfl

omit [Names] in
lemma wp_listTables {dbId : Nat} {Q : List (TableEntity × UserEntity) → Store → Prop} :
    (JdbcDao.listTables dbId).wp Q X s ↔ Q (s.listTables dbId) s := Iff.rfl

/-- A new database is found under its name where no other is. -/
lemma database_insert (e : DatabaseEntity) (name : String) :
    Store.database (execAll [.insert .databases e] s) e.organizationId name =
      (s.database e.organizationId name).or
        (if sameName e.name name then some (Row.withId (s .databases).nextId e) else none) := by
  rw [execAll_cons, execAll_nil, Store.database, exec_insert, Table.insert, List.find?_append]
  have hname : (Row.withId (s .databases).nextId e).name = e.name := rfl
  have horg : (Row.withId (s .databases).nextId e).organizationId = e.organizationId := rfl
  rw [List.find?_singleton, hname, horg, beq_self_eq_true, Bool.true_and]
  rfl

end Loops

/-! ### All or nothing -/

section Whole

variable [Names] (env : Env) (catalog : MoonboxCatalog) (now : Nat) (failing : TableFailures)

/-- The database is there with one row for each table of the data system, or nothing has
happened. -/
def MountDatabase.IsWhole (name : String) (props : Properties) (ign : Bool) (s : Store) : Prop :=
  (MountDatabase.runFailing env catalog now failing name props ign).wp
    (fun _ s' => ∃ d tables, env.tableNames props = .ok tables ∧
      Store.database s' catalog.userInSession.orgId (JdbcCatalog.formatDatabaseName name) =
        some d ∧
      s.HasExactly s' d.id tables)
    (· = s) s

/-- The database has the tables of the data system, or those it had. -/
def RefreshDatabase.IsWhole (name : String) (s : Store) : Prop :=
  (RefreshDatabase.runFailing env catalog now failing name).wp
    (fun _ s' => ∃ d, Store.database s' catalog.userInSession.orgId
        (JdbcCatalog.formatDatabaseName name) = some d ∧
      ∃ tables, env.tableNames d.properties = .ok tables ∧ s.HasExactly s' d.id tables)
    (fun s' => (s' .tables).rows = (s .tables).rows) s

/-- Of the tables of the database `dbId` some are seen. To add to `dbId'` those of `tables` that
are not, and to remove from it the seen ones that are not of `tables`, makes `tables` of them. -/
def Becomes (s : Store) (dbId dbId' : Nat) (seen tables : List String) : Prop :=
  if dbId' = dbId then
    (∀ n ∈ s.tableNames dbId, n ∉ seen → n ∈ tables) ∧
      Distinct sameName (s.tableNames dbId) tables
  else
    s.Leaves dbId' (tables.diff seen) (seen.diff tables) ∧ IsExactly (s.tableNames dbId) tables

/-- Tables are entered in the database that has the name as it is written. A database that is
there has just the tables of the data system after that. A new one has no table, or it is found
under the name as it is written, no table fails and no two tables have the same name. -/
def MountDatabase.IsSafe (name : String) (props : Properties) (ign : Bool) (s : Store) : Prop :=
  (env.test props).isOk = true →
    match s.database catalog.userInSession.orgId (JdbcCatalog.formatDatabaseName name) with
    | some d => ign = true → ∀ tables, env.tableNames props = .ok tables →
      match s.database catalog.userInSession.orgId name with
      | some d' =>
        if noneFails failing.create tables then Becomes s d.id d'.id [] tables
        else s.Leaves d'.id (beforeFailure failing.create tables) []
      | none => tables = [] → s.tableNames d.id = []
    | none => ∃ tables, env.tableNames props = .ok tables ∧
      (tables = [] ∨ sameName (JdbcCatalog.formatDatabaseName name) name = true ∧
        noneFails failing.create tables = true ∧ Distinct sameName [] tables)

/-- The same for the tables that a database has and those its data system has. -/
def RefreshDatabase.IsSafe (name : String) (s : Store) : Prop :=
  ∀ d ∈ s.database catalog.userInSession.orgId (JdbcCatalog.formatDatabaseName name),
    (creatorName s d.createBy).isSome = true → d.isLogical = false →
    (env.test d.properties).isOk = true → ∀ tables, env.tableNames d.properties = .ok tables →
      match s.database catalog.userInSession.orgId name with
      | some d' =>
        if noneFails failing.create (tables.diff (s.seenNames d.id)) then
          if noneFails failing.drop ((s.seenNames d.id).diff tables) then
            Becomes s d.id d'.id (s.seenNames d.id) tables
          else s.Leaves d'.id (tables.diff (s.seenNames d.id))
            (beforeFailure failing.drop ((s.seenNames d.id).diff tables))
        else s.Leaves d'.id (beforeFailure failing.create (tables.diff (s.seenNames d.id))) []
      | none => tables.diff (s.seenNames d.id) = [] → (s.seenNames d.id).diff tables = [] →
        IsExactly (s.tableNames d.id) tables

end Whole

section Safe

variable [Names] {env : Env} {catalog : MoonboxCatalog} {now : Nat} {failing : TableFailures}
  {s : Store}

lemma hasExactly_iff_becomes (hs : Entered s) {dbId dbId' : Nat} {seen tables : List String}
    {es : List TableEntity} (hes : ∀ e ∈ es, e.databaseId = dbId')
    (hnames : es.map TableEntity.name = tables.diff seen)
    (hseen : seen.Sublist (s.tableNames dbId)) :
    s.HasExactly ((s.withTables es).withoutTables dbId' (seen.diff tables)) dbId tables ↔
      Becomes s dbId dbId' seen tables := by
  unfold Becomes
  split
  · rename_i heq
    subst heq
    have hnodup := hs.nodup_tableNames dbId'
    rw [Store.hasExactly_iff hes, hnames]
    refine isExactly_removeAll_iff sameName_self (fun a b => ?_) hnodup
      (fun a ha b hb => hs.eq_of_sameName ha hb) hseen.subset (List.diff_subset _ _)
      (fun a ha hunseen => List.mem_diff_of_mem ha hunseen)
      (fun a => (hnodup.sublist hseen).mem_sdiff_iff)
    rw [sameName_iff, sameName_iff]
    exact Eq.symm
  · rename_i hne
    rw [Store.hasExactly_iff_of_ne hes hne, hnames]

omit [Names] in
lemma mountedRow_databaseId {props : Properties} {db : String} {owner : Option String}
    {dbId : Nat} (tables : List String) :
    ∀ e ∈ tables.map (mountedRow env catalog now props db owner dbId), e.databaseId = dbId := by
  intro e he
  obtain ⟨t, -, rfl⟩ := List.mem_map.mp he
  rfl

omit [Names] in
lemma mountedRow_names {props : Properties} {db : String} {owner : Option String}
    {dbId : Nat} (tables : List String) :
    (tables.map (mountedRow env catalog now props db owner dbId)).map TableEntity.name =
      tables := by
  rw [List.map_map]
  exact List.map_id tables

/-- What the loop leaves of the tables where it is stopped. -/
lemma rows_withTables_iff {props : Properties} {db : String} {owner : Option String} {dbId : Nat}
    {tables : List String} :
    (s.withTables (tables.map (mountedRow env catalog now props db owner dbId)) .tables).rows =
        (s .tables).rows ↔ s.Leaves dbId tables [] := by
  have hes : ∀ e ∈ tables.map (mountedRow env catalog now props db owner dbId),
      e.databaseId = dbId := mountedRow_databaseId tables
  have h : ((s.withTables _).withoutTables dbId [] .tables).rows = (s .tables).rows ↔ _ :=
    Store.rows_eq_iff hes
  rwa [mountedRow_names] at h

section Mount

variable {name : String} {props : Properties} {ign : Bool} {tables : List String}
  {d : DatabaseEntity}

lemma hasExactly_withTables_iff (hs : Entered s) {dbId dbId' : Nat} {owner : Option String} :
    s.HasExactly (s.withTables (tables.map
        (mountedRow env catalog now props name owner dbId'))) dbId tables ↔
      Becomes s dbId dbId' [] tables := by
  have hes : ∀ e ∈ tables.map (mountedRow env catalog now props name owner dbId'),
      e.databaseId = dbId' := mountedRow_databaseId tables
  have hnames : (tables.map (mountedRow env catalog now props name owner dbId')).map
      TableEntity.name = tables.diff [] := by
    rw [mountedRow_names, List.diff_nil]
  have h := hasExactly_iff_becomes hs hes hnames (List.nil_sublist (s.tableNames dbId))
  rwa [List.nil_diff] at h

/-- A database that is there gets the tables, or what the name finds as it is written. -/
lemma mount_found_iff (hs : Entered s)
    (found : s.database catalog.userInSession.orgId (JdbcCatalog.formatDatabaseName name) =
      some d) :
    (createTables env catalog now failing props name none tables).wp
        (fun _ s' => ∃ d, Store.database s' catalog.userInSession.orgId
          (JdbcCatalog.formatDatabaseName name) = some d ∧ s.HasExactly s' d.id tables)
        (· = s) s ↔
      match s.database catalog.userInSession.orgId name with
      | some d' =>
        if noneFails failing.create tables then Becomes s d.id d'.id [] tables
        else s.Leaves d'.id (beforeFailure failing.create tables) []
      | none => tables = [] → s.tableNames d.id = [] := by
  have hfound : ∀ es, Store.database (s.withTables es) catalog.userInSession.orgId
      (JdbcCatalog.formatDatabaseName name) = some d := by
    intro es
    rwa [Store.database, Store.withTables_of_ne (by simp)]
  cases hraw : s.database catalog.userInSession.orgId name with
  | some d' =>
    rw [wp_createTables_found tables hraw]
    simp only
    split
    · simp only [hfound, Option.some.injEq, exists_eq_left']
      exact hasExactly_withTables_iff hs
    · rw [Store.withTables_eq_self_iff (mountedRow_databaseId _), mountedRow_names]
  | none =>
    rw [wp_createTables_missing tables hraw]
    cases tables with
    | nil => simp [found, Store.hasExactly_self_iff]
    | cons t tables => simp

omit [Names] in
lemma tables_insert (e : DatabaseEntity) :
    execAll [.insert .databases e] s .tables = s .tables := by
  rw [execAll_cons, execAll_nil, exec_insert_of_ne _ (by simp)]

lemma database_eq_of_sameName {orgId : Nat} {a b : String} (h : sameName a b = true) :
    s.database orgId a = s.database orgId b := by
  have hsame : ∀ n, sameName n a = sameName n b := by
    intro n
    rw [sameName, sameName, sameName_iff.mp h]
  simp only [Store.database, hsame]

lemma withTables_insert_ne (e : DatabaseEntity) (es : List TableEntity) :
    Store.withTables (execAll [.insert .databases e] s) es ≠ s := by
  intro heq
  have hrows := congrArg (fun s' : Store => (s' .databases).rows) heq
  rw [Store.withTables_of_ne (by simp), execAll_cons, execAll_nil, exec_insert] at hrows
  simpa [Table.insert] using congrArg List.length hrows

lemma tableNames_insert (hs : Entered s) (e : DatabaseEntity) :
    Store.tableNames (execAll [.insert .databases e] s) (s .databases).nextId = [] := by
  rw [Store.tableNames, tables_insert]
  exact hs.tableNames_nextId

/-- Below a new database there are no tables before its own are entered. -/
lemma becomes_insert_iff (hs : Entered s) (e : DatabaseEntity) {dbId' : Nat} :
    Becomes (execAll [.insert .databases e] s) (s .databases).nextId dbId' [] tables ↔
      if dbId' = (s .databases).nextId then Distinct sameName [] tables else tables = [] := by
  unfold Becomes
  rw [tableNames_insert hs e]
  split
  · simp
  · rw [isExactly_nil_left_iff, and_iff_right_of_imp]
    rintro rfl
    simp [Store.Leaves]

/-- A new database has just the tables when they are entered in it and none of them fails. -/
lemma mount_missing_iff (hs : Entered s)
    (missing : s.database catalog.userInSession.orgId (JdbcCatalog.formatDatabaseName name) =
      none) {e : DatabaseEntity} (horg : e.organizationId = catalog.userInSession.orgId)
    (hname : e.name = JdbcCatalog.formatDatabaseName name) :
    (createTables env catalog now failing props name none tables).wp
        (fun _ s' => ∃ d, Store.database s' catalog.userInSession.orgId
          (JdbcCatalog.formatDatabaseName name) = some d ∧ s.HasExactly s' d.id tables)
        (· = s) (execAll [.insert .databases e] s) ↔
      tables = [] ∨ sameName (JdbcCatalog.formatDatabaseName name) name = true ∧
        noneFails failing.create tables = true ∧ Distinct sameName [] tables := by
  have hdatabase : ∀ es, Store.database (Store.withTables (execAll [.insert .databases e] s) es)
      catalog.userInSession.orgId (JdbcCatalog.formatDatabaseName name) =
        some (Row.withId (s .databases).nextId e) := by
    intro es
    have hinsert := database_insert (s := s) e (JdbcCatalog.formatDatabaseName name)
    rw [horg, missing, Option.none_or, hname, if_pos (sameName_self _)] at hinsert
    rwa [Store.database, Store.withTables_of_ne (by simp)]
  have hentered : Entered (execAll [.insert .databases e] s) :=
    hs.of_eq (tables_insert e) (nextId_execAll _)
  have hloop : ∀ d', Store.database (execAll [.insert .databases e] s)
      catalog.userInSession.orgId name = some d' →
      ((createTables env catalog now failing props name none tables).wp
        (fun _ s' => ∃ d, Store.database s' catalog.userInSession.orgId
          (JdbcCatalog.formatDatabaseName name) = some d ∧ s.HasExactly s' d.id tables)
        (· = s) (execAll [.insert .databases e] s) ↔ noneFails failing.create tables = true ∧
          if d'.id = (s .databases).nextId then Distinct sameName [] tables else tables = []) := by
    intro d' hd'
    rw [wp_createTables_found tables hd', ← becomes_insert_iff hs e]
    split
    · rename_i hnone
      simp only [hdatabase, Option.some.injEq, exists_eq_left', hnone, true_and]
      rw [Store.HasExactly.congr (tables_insert e)]
      exact hasExactly_withTables_iff hentered
    · rename_i hfails
      simp only [withTables_insert_ne, hfails, Bool.false_eq_true, false_and]
  have hraw := database_insert (s := s) e name
  rw [horg, hname] at hraw
  by_cases hsame : sameName (JdbcCatalog.formatDatabaseName name) name = true
  · have missing' := missing
    rw [database_eq_of_sameName hsame] at missing'
    rw [if_pos hsame, missing', Option.none_or] at hraw
    have hid : (Row.withId (s .databases).nextId e).id = (s .databases).nextId := rfl
    rw [hloop _ hraw, if_pos hid]
    constructor
    · exact fun h => .inr ⟨hsame, h⟩
    · rintro (rfl | h)
      · exact ⟨rfl, fun a ha => absurd ha List.not_mem_nil⟩
      · exact h.2
  · rw [if_neg hsame, Option.or_none] at hraw
    rw [or_iff_left fun h => hsame h.1]
    cases hd : s.database catalog.userInSession.orgId name with
    | none =>
      rw [wp_createTables_missing tables (hraw.trans hd)]
      cases tables with
      | nil =>
        refine iff_of_true ⟨_, hdatabase [], ?_⟩ rfl
        rw [Store.HasExactly.congr (tables_insert e)]
        apply Store.hasExactly_self_iff.mpr
        rw [isExactly_nil_iff]
        exact tableNames_insert hs e
      | cons t tables =>
        refine iff_of_false (withTables_insert_ne e []) ?_
        simp
    | some d' =>
      have hne : d'.id ≠ (s .databases).nextId :=
        ((s .databases).fresh _ (Store.database_some hd).1).ne
      rw [hloop _ (hraw.trans hd), if_neg hne, and_iff_right_of_imp]
      rintro rfl
      rfl

lemma MountDatabase.isWhole_iff (hs : Entered s) :
    MountDatabase.IsWhole env catalog now failing name props ign s ↔
      MountDatabase.IsSafe env catalog failing name props ign s := by
  unfold MountDatabase.IsWhole MountDatabase.IsSafe MountDatabase.runFailing
  cases htest : env.test props with
  | error e => simp [liftExcept, Except.isOk, Except.toBool]
  | ok u =>
    have hok : (Except.ok u : Except String Unit).isOk = true := rfl
    simp only [liftExcept, Action.wp_bind, Action.wp_purely, wp_createDatabase, hok, true_imp_iff]
    cases hd : s.database catalog.userInSession.orgId (JdbcCatalog.formatDatabaseName name) with
    | some d =>
      cases ign with
      | false => simp
      | true =>
        cases env.tableNames props with
        | error e => simp
        | ok tables =>
          simp only [Action.wp_purely, Except.ok.injEq, exists_eq_left', forall_eq', if_true,
            true_imp_iff]
          exact mount_found_iff hs hd
    | none =>
      cases env.tableNames props with
      | error e => exact iff_of_false (withTables_insert_ne _ []) (by simp)
      | ok tables => simpa using mount_missing_iff hs hd rfl rfl

end Mount

section Refresh

variable {name : String} {d : DatabaseEntity} {props : Properties} {owner : Option String}
  {tables seen : List String}

/-- The two loops of a refresh. -/
lemma refresh_loops_iff (hs : Entered s)
    (found : s.database catalog.userInSession.orgId (JdbcCatalog.formatDatabaseName name) =
      some d) (hseen : seen.Sublist (s.tableNames d.id))
    (htables : env.tableNames d.properties = .ok tables) :
    (createTables env catalog now failing props name owner (tables.diff seen)).wp
        (fun _ => (dropTables catalog failing name (seen.diff tables)).wp
          (fun _ s' => ∃ d, Store.database s' catalog.userInSession.orgId
              (JdbcCatalog.formatDatabaseName name) = some d ∧
            ∃ tables, env.tableNames d.properties = Except.ok tables ∧
              s.HasExactly s' d.id tables)
          (fun s' => (s' .tables).rows = (s .tables).rows))
        (fun s' => (s' .tables).rows = (s .tables).rows) s ↔
      match s.database catalog.userInSession.orgId name with
      | some d' =>
        if noneFails failing.create (tables.diff seen) then
          if noneFails failing.drop (seen.diff tables) then Becomes s d.id d'.id seen tables
          else s.Leaves d'.id (tables.diff seen)
            (beforeFailure failing.drop (seen.diff tables))
        else s.Leaves d'.id (beforeFailure failing.create (tables.diff seen)) []
      | none => tables.diff seen = [] → seen.diff tables = [] →
        IsExactly (s.tableNames d.id) tables := by
  have hdatabases : ∀ es dbId drops, Store.database
      (Store.withoutTables (s.withTables es) dbId drops) catalog.userInSession.orgId
      (JdbcCatalog.formatDatabaseName name) = some d := by
    intro es dbId drops
    rwa [Store.database, Store.withoutTables_of_ne (by simp) (by simp) (by simp),
      Store.withTables_of_ne (by simp)]
  cases hraw : s.database catalog.userInSession.orgId name with
  | none =>
    rw [wp_createTables_missing _ hraw, wp_dropTables_missing _ hraw]
    simp only [List.isEmpty_iff]
    split
    · split
      · simp [*, Store.hasExactly_self_iff]
      · simp [*]
    · simp [*]
  | some d' =>
    have hraw' : ∀ es, Store.database (s.withTables es) catalog.userInSession.orgId name =
        some d' := by
      intro es
      rwa [Store.database, Store.withTables_of_ne (by simp)]
    rw [wp_createTables_found _ hraw, wp_dropTables_found _ (hraw' _)]
    have hes : ∀ e ∈ (tables.diff seen).map
        (mountedRow env catalog now props name owner d'.id), e.databaseId = d'.id :=
      mountedRow_databaseId (tables.diff seen)
    simp only
    split
    · split
      · simp only [hdatabases, Option.some.injEq, exists_eq_left', htables, Except.ok.injEq]
        exact hasExactly_iff_becomes hs hes (mountedRow_names _) hseen
      · rw [Store.rows_eq_iff hes, mountedRow_names]
    · exact rows_withTables_iff

lemma RefreshDatabase.isWhole_iff (hs : Entered s) :
    RefreshDatabase.IsWhole env catalog now failing name s ↔
      RefreshDatabase.IsSafe env catalog failing name s := by
  unfold RefreshDatabase.IsWhole RefreshDatabase.IsSafe RefreshDatabase.runFailing
  simp only [JdbcCatalog.getDatabase, Action.wp_bind, wp_getDatabase]
  cases hd : s.database catalog.userInSession.orgId (JdbcCatalog.formatDatabaseName name) with
  | none => simp
  | some d =>
    simp only [Action.wp_bind, wp_userName]
    cases hcreator : creatorName s d.createBy with
    | none => simp [hcreator]
    | some creator =>
      simp only [Action.wp_purely, Option.mem_def, Option.some.injEq, forall_eq', hcreator,
        Option.isSome_some, true_imp_iff]
      cases d.isLogical with
      | true => simp
      | false =>
        cases htest : env.test d.properties with
        | error e => simp [liftExcept, Except.isOk, Except.toBool]
        | ok u =>
          have hok : (Except.ok u : Except String Unit).isOk = true := rfl
          simp only [liftExcept, Action.wp_bind, Action.wp_purely, JdbcCatalog.listTables,
            wp_getDatabase, hd, hok, true_imp_iff, Bool.false_eq_true, if_false, wp_listTables]
          cases htables : env.tableNames d.properties with
          | error e => simp
          | ok tables =>
            simp only [Action.wp_purely, Except.ok.injEq, forall_eq', List.map_map]
            exact refresh_loops_iff hs hd Store.seenNames_sublist htables

end Refresh
end Safe

/-! ### Runs -/

/-- What is done about databases. A command finds the data systems as they are then, and the tables
that fail. -/
inductive DatabaseStep
  | mountDatabase (env : Env) (failing : TableFailures) (name : String) (props : Properties)
    (ignoreIfExists : Bool)
  | refreshDatabase (env : Env) (failing : TableFailures) (name : String)
  | call (c : DatabaseCall)

namespace DatabaseStep

variable [Names] (catalog : MoonboxCatalog) (now : Nat)

def action : DatabaseStep → DBIO Unit
  | mountDatabase env failing name props ign =>
    MountDatabase.runFailing env catalog now failing name props ign
  | refreshDatabase env failing name => RefreshDatabase.runFailing env catalog now failing name
  | call c => c.action catalog now

/-- Commands are all or nothing, and a call finds its database however the name is written. -/
def IsWhole (s : Store) : DatabaseStep → Prop
  | mountDatabase env failing name props ign =>
    MountDatabase.IsWhole env catalog now failing name props ign s
  | refreshDatabase env failing name => RefreshDatabase.IsWhole env catalog now failing name s
  | call c => c.Finds catalog now s

def IsSafe (s : Store) : DatabaseStep → Prop
  | mountDatabase env failing name props ign =>
    MountDatabase.IsSafe env catalog failing name props ign s
  | refreshDatabase env failing name => RefreshDatabase.IsSafe env catalog failing name s
  | call c => c.IsSpelled catalog s

variable {catalog now} {s : Store} {step : DatabaseStep}

lemma isWhole_iff (hs : Entered s) : step.IsWhole catalog now s ↔ step.IsSafe catalog s := by
  cases step with
  | mountDatabase env failing name props ign => exact MountDatabase.isWhole_iff hs
  | refreshDatabase env failing name => exact RefreshDatabase.isWhole_iff hs
  | call c => exact c.finds_iff

end DatabaseStep

section Entered

/-- What `s` has entered properly is so in `s'`. -/
def KeepsEntered [Names] (s s' : Store) : Prop := Entered s → Entered s'

variable [Names]

instance : Std.Refl KeepsEntered := ⟨fun _ hs => hs⟩

instance : IsTrans Store KeepsEntered := ⟨fun _ _ _ h h' hs => h' (h hs)⟩

variable {env : Env} {catalog : MoonboxCatalog} {now : Nat} {failing : TableFailures}

lemma keepsEntered_operation (op : Operation) (caller : User) (now : Nat) :
    Action.Keeps KeepsEntered (op.action caller now) :=
  Action.Keeps.of_exec fun _ hs => hs.exec op caller now

lemma keepsEntered_createTables (props : Properties) (db : String) (owner : Option String)
    (tables : List String) :
    Action.Keeps KeepsEntered (createTables env catalog now failing props db owner tables) := by
  apply Action.Keeps.forEach
  intro t
  apply (keeps_liftExcept _).bind
  intro _
  exact keepsEntered_operation (.createTable (mountedTable env props db owner t) true)
    catalog.userInSession now

lemma keepsEntered_dropTables (db : String) (tables : List String) :
    Action.Keeps KeepsEntered (dropTables catalog failing db tables) := by
  apply Action.Keeps.forEach
  intro t
  apply (keeps_liftExcept _).bind
  intro _
  exact keepsEntered_operation (.dropTable db t true) catalog.userInSession 0

lemma keepsEntered_mountDatabase (name : String) (props : Properties) (ign : Bool) :
    Action.Keeps KeepsEntered
      (MountDatabase.runFailing env catalog now failing name props ign) := by
  apply (keeps_liftExcept _).bind
  intro _
  apply (keepsEntered_operation (.createDatabase _ ign) catalog.userInSession now).bind
  intro _
  apply (keeps_liftExcept _).bind
  exact keepsEntered_createTables props name none

lemma keepsEntered_refreshDatabase (name : String) :
    Action.Keeps KeepsEntered (RefreshDatabase.runFailing env catalog now failing name) := by
  apply (keeps_getDatabase name).bind
  intro d
  apply Action.Keeps.ite (.throw _)
  apply (keeps_liftExcept _).bind
  intro _
  apply (keeps_listTables _).bind
  intro tables
  apply (keeps_liftExcept _).bind
  intro dsTables
  apply (keepsEntered_createTables _ name _ _).bind
  intro _
  exact keepsEntered_dropTables name _

lemma DatabaseCall.keepsEntered (c : DatabaseCall) :
    Action.Keeps KeepsEntered (c.action catalog now) := by
  cases c with
  | operation op => exact keepsEntered_operation op catalog.userInSession now
  | getDatabase db => exact (keeps_getDatabase db).bind fun _ => .pure _
  | requireDbExists db => exact keeps_requireDbExists db
  | listTables db => exact (keeps_listTables db).bind fun _ => .pure _
  | getTable db table => exact (keeps_getTable db table).bind fun _ => .pure _
  | tableExists db table => exact (keeps_tableExists db table).bind fun _ => .pure _
  | listFunctions db => exact (keeps_listFunctions db).bind fun _ => .pure _
  | getFunction db func => exact (keeps_getFunction db func).bind fun _ => .pure _
  | functionExists db func => exact (keeps_functionExists db func).bind fun _ => .pure _
  | getDatabasePrivilege user db =>
    exact (keeps_getDatabasePrivilege user db).bind fun _ => .pure _
  | getTablePrivilege user db table =>
    exact (keeps_getTablePrivilege user db table).bind fun _ => .pure _
  | getColumnPrivilege user db table =>
    exact (keeps_getColumnPrivilege user db table).bind fun _ => .pure _

lemma DatabaseStep.keepsEntered (step : DatabaseStep) :
    Action.Keeps KeepsEntered (step.action catalog now) := by
  cases step with
  | mountDatabase env failing name props ign => exact keepsEntered_mountDatabase name props ign
  | refreshDatabase env failing name => exact keepsEntered_refreshDatabase name
  | call c => exact c.keepsEntered

lemma entered_initial (encryptSHA : String → String) (start : Nat) :
    Entered ((JdbcDao.initializeIfNeeded encryptSHA start).run.exec Store.empty) := by
  have htables : (JdbcDao.initializeIfNeeded encryptSHA start).run.exec Store.empty .tables =
      Store.empty .tables := rfl
  refine ⟨entered_empty.unique.of_eq htables, fun t ht => ?_⟩
  rw [htables] at ht
  exact absurd ht List.not_mem_nil

end Entered

/-- Along a run from the first start the commands are all or nothing and the databases are found
exactly if each step is safe where it is taken. -/
theorem databases_whole_iff [Names] (encryptSHA : String → String) (start : Nat)
    (steps : List (MoonboxCatalog × Nat × DatabaseStep)) :
    EachStep (fun s e => (e.2.2.action e.1 e.2.1).run.exec s) (fun s e => e.2.2.IsWhole e.1 e.2.1 s)
        ((JdbcDao.initializeIfNeeded encryptSHA start).run.exec Store.empty) steps ↔
      EachStep (fun s e => (e.2.2.action e.1 e.2.1).run.exec s) (fun s e => e.2.2.IsSafe e.1 s)
        ((JdbcDao.initializeIfNeeded encryptSHA start).run.exec Store.empty) steps :=
  eachStep_iff (fun _ _ hs => DatabaseStep.isWhole_iff hs)
    (fun s e hs _ => e.2.2.keepsEntered.exec s hs) (entered_initial encryptSHA start)

/-- A new database whose name is not written as it is entered gets none of its tables. -/
lemma MountDatabase.not_isSafe [Names] {env : Env} {catalog : MoonboxCatalog}
    {failing : TableFailures} {name t : String} {props : Properties} {ign : Bool}
    {tables : List String} {s : Store} (htest : env.test props = .ok ())
    (htables : env.tableNames props = .ok (t :: tables))
    (missing : s.database catalog.userInSession.orgId (JdbcCatalog.formatDatabaseName name) = none)
    (hname : sameName (JdbcCatalog.formatDatabaseName name) name = false) :
    ¬MountDatabase.IsSafe env catalog failing name props ign s := by
  intro h
  rw [MountDatabase.IsSafe, htest, missing] at h
  obtain ⟨ts, hts, hsafe⟩ := h rfl
  rw [htables, Except.ok.injEq] at hts
  subst hts
  simp [hname] at hsafe

/-- The organization a with the user sa. -/
def makeSaOfA : List (MoonboxCatalog × Nat × DatabaseStep) :=
  let root := { sessionOfSa with userInSession := systemRoot }
  [(root, 1, .call (.operation createA)),
    (root, 2, .call (.operation (.createUser { org := "a", name := "sa", password := "" } false)))]

/-- A table is looked for below `Sales`, when the database is `sales`. -/
theorem databases_whole_fails :
    letI := exactNames
    ¬∀ steps : List (MoonboxCatalog × Nat × DatabaseStep),
      EachStep (fun s e => (e.2.2.action e.1 e.2.1).run.exec s)
        (fun s e => e.2.2.IsWhole e.1 e.2.1 s)
        ((JdbcDao.initializeIfNeeded id 0).run.exec Store.empty) steps := by
  let _ := exactNames
  intro h
  let sa := { sessionOfSa with userInSession := ⟨2, "a", 2, "sa"⟩ }
  let env := { plainEnv with tableNames := fun _ => .ok ["t"] }
  have hmount := (h (makeSaOfA ++ [(sa, 3, .mountDatabase env .none "Sales" [] false)])).last
  have hentered := (h makeSaOfA).invariant (I := Entered)
    (fun s e hs _ => e.2.2.keepsEntered.exec s hs) (entered_initial id 0)
  exact MountDatabase.not_isSafe rfl rfl (by decide +kernel) (by decide +kernel)
    ((MountDatabase.isWhole_iff hentered).mp hmount)

end Moonbox.Core
