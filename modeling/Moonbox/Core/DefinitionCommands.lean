import Moonbox.Core.Definitions

/-!
# Commands on definitions

The commands on databases, tables, views and functions, with the names whose definitions each may
change or remove. The others stay.
-/

namespace Moonbox.Core

open Catalog Relational

/-- The commands on databases, tables, views and functions. -/
def Command.isDefinition : Command → Bool
  | mountDatabase .. => true
  | refreshDatabase .. => true
  | alterDatabaseSetOptions .. => true
  | unmountDatabase .. => true
  | createDatabase .. => true
  | alterDatabaseSetName .. => true
  | alterDatabaseSetComment .. => true
  | dropDatabase .. => true
  | mountTable .. => true
  | alterTableSetName .. => true
  | alterTableSetOptions .. => true
  | unmountTable .. => true
  | createFunction .. => true
  | dropFunction .. => true
  | createView .. => true
  | alterViewSetQuery .. => true
  | dropView .. => true
  | _ => false

variable [Names] (env : Env) (catalog : MoonboxCatalog) (s : Store)

/-- The tables that a refresh finds no more. -/
def RefreshDatabase.toRemove (name : String) : List String :=
  match Store.database s catalog.userInSession.orgId (JdbcCatalog.formatDatabaseName name) with
  | some e =>
    match env.tableNames e.properties with
    | .ok dsTables => ((Store.listTables s e.id).map fun t => t.1.name).diff dsTables
    | .error _ => []
  | none => []

/-- The database of an identifier as the commands look it up first. -/
def MoonboxCatalog.formattedDatabaseOf (database : Option String) : String :=
  JdbcCatalog.formatDatabaseName (catalog.databaseOf database)

/-- What a command may redefine or remove. -/
def Command.target : Command → Target
  | refreshDatabase name =>
    ⟨fun orgId db table => orgId = catalog.userInSession.orgId ∧ sameName db name = true ∧
      ∃ t ∈ RefreshDatabase.toRemove env catalog s name, sameName table t = true,
      fun _ _ _ => False⟩
  | unmountDatabase name _ _ => .inDatabase catalog.userInSession name
  | alterDatabaseSetName name _ => .inDatabase catalog.userInSession name
  | dropDatabase name _ _ => .inDatabase catalog.userInSession name
  | alterTableSetName table _ =>
    .ofTable catalog.userInSession (catalog.formattedDatabaseOf table.database) table.table
  | alterTableSetOptions table _ =>
    .ofTable catalog.userInSession (catalog.databaseOf table.database) table.table
  | unmountTable table _ =>
    .ofTable catalog.userInSession (catalog.databaseOf table.database) table.table
  | dropFunction function _ =>
    .ofFunction catalog.userInSession (catalog.formattedDatabaseOf function.database)
      function.funcName
  | createView view _ _ true =>
    .ofTable catalog.userInSession (catalog.formattedDatabaseOf view.database) view.table
  | alterViewSetQuery view _ =>
    .ofTable catalog.userInSession (catalog.formattedDatabaseOf view.database) view.table
  | dropView view _ =>
    .ofTable catalog.userInSession (catalog.formattedDatabaseOf view.database) view.table
  | _ => .none

variable {env catalog s} {T : Target} {now : Nat}

/-! ### From a state -/

/-- Run from `s`, the action keeps the definitions that there are. -/
def KeepsFrom {α : Type} (T : Target) (s : Store) (m : DBIO α) : Prop :=
  m.wp (fun _ => KeepsDefinitions T s) (KeepsDefinitions T s) s

section From

variable {α β : Type} {m : DBIO α}

lemma keepsFrom_of_keeps (h : Action.Keeps (KeepsDefinitions T) m) : KeepsFrom T s m :=
  (Action.wp_run m _).mpr (h.exec s)

lemma keepsFrom_throw (e : String) : KeepsFrom T s (.throw e : DBIO α) := Std.Refl.refl s

lemma keepsFrom_keeping : KeepsFrom T s (keeping catalog m) ↔ KeepsFrom T s m := by
  rw [KeepsFrom, keeping, Action.wp_bind]
  exact Iff.rfl

lemma keepsFrom_liftExcept {r : Except String α} {k : α → DBIO β}
    (h : ∀ a, r = .ok a → KeepsFrom T s (k a)) : KeepsFrom T s (liftExcept r >>= k) := by
  cases r with
  | error e => exact keepsFrom_throw e
  | ok a => exact h a rfl

lemma keepsFrom_getDatabase {caller : User} {db : String} {k : CatalogDatabase → DBIO β}
    (h : ∀ (d : CatalogDatabase) e,
      Store.database s caller.orgId (JdbcCatalog.formatDatabaseName db) = some e →
      d.name = JdbcCatalog.formatDatabaseName db → d.properties = e.properties →
      KeepsFrom T s (k d)) : KeepsFrom T s (JdbcCatalog.getDatabase db caller >>= k) := by
  rw [KeepsFrom, Action.wp_bind]
  simp only [JdbcCatalog.getDatabase, Action.wp_bind, wp_getDatabase]
  cases hd : Store.database s caller.orgId (JdbcCatalog.formatDatabaseName db) with
  | none => exact Std.Refl.refl s
  | some e =>
    simp only [Action.wp_bind, wp_userName]
    split
    · exact h _ e hd rfl rfl
    · exact Std.Refl.refl s

lemma keepsFrom_listTables {caller : User} {db : String} {k : List CatalogTable → DBIO β}
    (h : ∀ e tables, Store.database s caller.orgId db = some e →
      tables.map CatalogTable.name = (Store.listTables s e.id).map (fun t => t.1.name) →
      KeepsFrom T s (k tables)) : KeepsFrom T s (JdbcCatalog.listTables db caller >>= k) := by
  rw [KeepsFrom, Action.wp_bind]
  simp only [JdbcCatalog.listTables, Action.wp_bind, wp_getDatabase]
  cases hd : Store.database s caller.orgId db with
  | none => exact Std.Refl.refl s
  | some e => exact h e _ hd (List.map_map ..)

lemma keepsFrom_getTable {caller : User} {db table : String} {k : CatalogTable → DBIO β}
    (h : ∀ d : CatalogTable, d.db = some db → sameName d.name table = true →
      KeepsFrom T s (k d)) : KeepsFrom T s (JdbcCatalog.getTable db table caller >>= k) := by
  rw [KeepsFrom, Action.wp_bind]
  refine wp_getTable_of (fun d _ t _ ht hdb hname _ _ _ => h d hdb ?_) (Std.Refl.refl s)
  rw [hname]
  exact (Store.table_some ht).2.2

lemma keepsFrom_tableExists {caller : User} {db table : String} {k : Bool → DBIO β}
    (h : ∀ b, KeepsFrom T s (k b)) :
    KeepsFrom T s (JdbcCatalog.tableExists db table caller >>= k) := by
  rw [KeepsFrom, Action.wp_bind]
  simp only [JdbcCatalog.tableExists, Action.wp_bind, wp_getDatabase]
  cases Store.database s caller.orgId db with
  | none => exact Std.Refl.refl s
  | some e =>
    simp only [wp_tableExists]
    exact h _

end From

/-! ### The commands -/

section Commands

variable {caller : User} (name newName : String) (props : Properties) (ign cascade : Bool)

lemma keeps_MountDatabase :
    Action.Keeps (KeepsDefinitions T) (MountDatabase.run env catalog now name props ign) := by
  apply (keeps_liftExcept _).bind
  intro _
  apply (keeps_createDatabase _ _).bind
  intro _
  apply (keeps_liftExcept _).bind
  intro tables
  exact .forEach (fun t => keeps_createTable _ _) tables

lemma keeps_CreateDatabase (comment : Option String) :
    Action.Keeps (KeepsDefinitions T) (CreateDatabase.run catalog now name comment ign) :=
  keeps_createDatabase _ _

lemma keeps_changeDatabase (change : CatalogDatabase → CatalogDatabase) :
    Action.Keeps (KeepsDefinitions T) (changeDatabase catalog now name change) :=
  (keeps_getDatabase name).bind fun _ => keeps_alterDatabase _

lemma keeps_dropDatabase' :
    Action.Keeps (KeepsDefinitions (.inDatabase catalog.userInSession name))
      (catalog.dropDatabase name ign cascade) :=
  .ite (.throw _) (keeps_dropDatabase name ign cascade)

lemma keeps_UnmountDatabase :
    Action.Keeps (KeepsDefinitions (.inDatabase catalog.userInSession name))
      (UnmountDatabase.run catalog name ign cascade) :=
  (keeps_getDatabase name).bind fun _ => .ite (.throw _) (keeps_dropDatabase' name ign cascade)

lemma keeps_DropDatabase :
    Action.Keeps (KeepsDefinitions (.inDatabase catalog.userInSession name))
      (DropDatabase.run catalog name ign cascade) :=
  (keeps_getDatabase name).bind fun _ => .ite (.throw _) (keeps_dropDatabase' name ign cascade)

lemma keeps_AlterDatabaseSetName :
    Action.Keeps (KeepsDefinitions (.inDatabase catalog.userInSession name))
      (AlterDatabaseSetName.run env catalog now name newName) := by
  apply (keeps_renameDatabase name newName).bind
  intro _
  refine .ite ((keeps_databaseExists newName).bind fun b => ?_) (.pure _)
  cases b with
  | true => exact .pure _
  | false => exact .throw _

/-- The new tables are there before the old ones go. -/
lemma keepsFrom_RefreshDatabase :
    KeepsFrom ((Command.refreshDatabase name).target env catalog s) s
      (RefreshDatabase.run env catalog now name) := by
  refine keepsFrom_getDatabase fun d e hd hname hprops => ?_
  split
  · exact keepsFrom_throw _
  · refine keepsFrom_liftExcept fun _ _ => keepsFrom_listTables fun e' tables he' htables => ?_
    rw [hname, hd] at he'
    cases he'
    refine keepsFrom_liftExcept fun dsTables hds => keepsFrom_of_keeps ?_
    refine (Action.Keeps.forEach (fun t => keeps_createTable _ _) _).bind fun _ => ?_
    refine .forEach_mem fun t ht => (keeps_dropTable name t true).mono fun s₁ s₂ h =>
      h.mono ?_ fun _ _ _ h => h
    rintro orgId db table ⟨horg, hdb, htable⟩
    refine ⟨horg, hdb, t, ?_, htable⟩
    rw [RefreshDatabase.toRemove, hd]
    simp only [← hprops, hds]
    rwa [htables] at ht

variable (table newTable view : TableIdentifier) (function : FunctionIdentifier)

lemma keeps_MountTable (isStream : Bool) :
    Action.Keeps (KeepsDefinitions T) (MountTable.run env catalog now table props isStream ign) := by
  refine (keeps_getDatabase _).bind fun _ => .ite (.throw _) ((keeps_liftExcept _).bind fun _ => ?_)
  exact keeps_createTable _ _

lemma keepsFrom_AlterTableSetName :
    KeepsFrom ((Command.alterTableSetName table newTable).target env catalog s) s
      (AlterTableSetName.run catalog now table newTable) := by
  unfold AlterTableSetName.run
  split
  · exact keepsFrom_throw _
  · refine keepsFrom_getDatabase fun d _ _ hname _ => keepsFrom_of_keeps ?_
    rw [hname]
    exact .ite (.throw _) (keeps_renameTable _ _ _)

/-- The row that is written is the one that is found under the typed name. -/
lemma keeps_alterTable_of {d d' : CatalogTable} {db table : String} (hdb : d.db = some db)
    (hname : sameName d.name table = true) (hdb' : d'.db = d.db) (hname' : d'.name = d.name) :
    Action.Keeps (KeepsDefinitions (.ofTable caller db table))
      (JdbcCatalog.alterTable d' caller now) := by
  refine (keeps_alterTable d' (hdb'.trans hdb)).mono fun s₁ s₂ h => h.mono ?_ fun _ _ _ h => h
  rintro orgId db table ⟨horg, hdb, htable⟩
  refine ⟨horg, hdb, ?_⟩
  rw [hname'] at htable
  rw [sameName_iff] at hname htable ⊢
  exact htable.trans hname

lemma keepsFrom_AlterTableSetOptions :
    KeepsFrom ((Command.alterTableSetOptions table props).target env catalog s) s
      (AlterTableSetOptions.run catalog now table props) := by
  refine keepsFrom_getTable fun d hdb hname => keepsFrom_of_keeps ?_
  exact .ite (.throw _) (keeps_alterTable_of hdb hname rfl rfl)

lemma keeps_UnmountTable :
    Action.Keeps (KeepsDefinitions ((Command.unmountTable table ign).target env catalog s))
      (UnmountTable.run catalog table ign) :=
  (keeps_getDatabase _).bind fun _ => .ite (.throw _) (keeps_dropTable _ _ _)

lemma keeps_CreateFunction (className : String) (methodName : Option String)
    (resources : List FunctionResource) :
    Action.Keeps (KeepsDefinitions T)
      (CreateFunction.run catalog now function className methodName resources ign) :=
  (keeps_getDatabase _).bind fun _ => keeps_createFunction _ _

lemma keepsFrom_DropFunction :
    KeepsFrom ((Command.dropFunction function ign).target env catalog s) s
      (DropFunction.run catalog function ign) := by
  refine keepsFrom_getDatabase fun d _ _ hname _ => keepsFrom_of_keeps ?_
  refine (keeps_databaseExists _).bind fun b => ?_
  cases b with
  | true =>
    rw [hname]
    exact keeps_dropFunction _ _ _
  | false => exact .pure _

/-- A view that may not be replaced is new. -/
lemma keepsFrom_CreateView (query : String) (comment : Option String) (replaceIfExists : Bool) :
    KeepsFrom ((Command.createView view query comment replaceIfExists).target env catalog s) s
      (CreateView.run catalog now view query comment replaceIfExists) := by
  refine keepsFrom_getDatabase fun d _ _ hname _ => ?_
  rw [hname]
  split
  · exact keepsFrom_throw _
  · refine keepsFrom_tableExists fun b => ?_
    cases replaceIfExists with
    | false =>
      rw [Bool.and_false, if_neg (by simp)]
      exact keepsFrom_of_keeps (keeps_createTable _ _)
    | true =>
      split
      · refine keepsFrom_getTable fun existing hdb hname => keepsFrom_of_keeps ?_
        exact .ite (.throw _) (keeps_alterTable_of hdb hname rfl rfl)
      · exact keepsFrom_of_keeps (keeps_createTable _ _)

lemma keepsFrom_AlterViewSetQuery (query : String) :
    KeepsFrom ((Command.alterViewSetQuery view query).target env catalog s) s
      (AlterViewSetQuery.run catalog now view query) := by
  refine keepsFrom_getDatabase fun d _ _ hname _ => ?_
  rw [hname]
  refine keepsFrom_getTable fun existView hdb hname => keepsFrom_of_keeps ?_
  exact .ite (.throw _) (keeps_alterTable_of hdb hname rfl rfl)

lemma keepsFrom_DropView :
    KeepsFrom ((Command.dropView view ign).target env catalog s) s
      (DropView.run catalog view ign) := by
  refine keepsFrom_getDatabase fun d _ _ hname _ => ?_
  rw [hname]
  refine keepsFrom_of_keeps ((keeps_getTable _ _).bind fun _ => ?_)
  exact .ite (.throw _) (keeps_dropTable _ _ _)

end Commands

/-- A command on definitions keeps those that are not its target. -/
theorem Command.keepsDefinitions (cmd : Command) (h : cmd.isDefinition = true) :
    KeepsFrom (cmd.target env catalog s) s (cmd.run env catalog now) := by
  cases cmd
  case mountDatabase name props ign =>
    exact keepsFrom_keeping.mpr (keepsFrom_of_keeps (keeps_MountDatabase name props ign))
  case refreshDatabase name => exact keepsFrom_keeping.mpr (keepsFrom_RefreshDatabase name)
  case alterDatabaseSetOptions name props =>
    exact keepsFrom_keeping.mpr (keepsFrom_of_keeps (keeps_changeDatabase name _))
  case unmountDatabase name ign cascade =>
    exact keepsFrom_keeping.mpr (keepsFrom_of_keeps (keeps_UnmountDatabase name ign cascade))
  case createDatabase name comment ign =>
    exact keepsFrom_keeping.mpr (keepsFrom_of_keeps (keeps_CreateDatabase name ign comment))
  case alterDatabaseSetName name newName =>
    exact keepsFrom_of_keeps (keeps_AlterDatabaseSetName name newName)
  case alterDatabaseSetComment name comment =>
    exact keepsFrom_keeping.mpr (keepsFrom_of_keeps (keeps_changeDatabase name _))
  case dropDatabase name ign cascade =>
    exact keepsFrom_keeping.mpr (keepsFrom_of_keeps (keeps_DropDatabase name ign cascade))
  case mountTable table props isStream ign =>
    exact keepsFrom_keeping.mpr (keepsFrom_of_keeps (keeps_MountTable props ign table isStream))
  case alterTableSetName table newTable =>
    exact keepsFrom_keeping.mpr (keepsFrom_AlterTableSetName table newTable)
  case alterTableSetOptions table props =>
    exact keepsFrom_keeping.mpr (keepsFrom_AlterTableSetOptions props table)
  case unmountTable table ign =>
    exact keepsFrom_keeping.mpr (keepsFrom_of_keeps (keeps_UnmountTable ign table))
  case createFunction function className methodName resources ign =>
    exact keepsFrom_keeping.mpr
      (keepsFrom_of_keeps (keeps_CreateFunction ign function className methodName resources))
  case dropFunction function ign =>
    exact keepsFrom_keeping.mpr (keepsFrom_DropFunction ign function)
  case createView view query comment replaceIfExists =>
    exact keepsFrom_keeping.mpr (keepsFrom_CreateView view query comment replaceIfExists)
  case alterViewSetQuery view query =>
    exact keepsFrom_keeping.mpr (keepsFrom_AlterViewSetQuery view query)
  case dropView view ign => exact keepsFrom_keeping.mpr (keepsFrom_DropView ign view)
  all_goals cases h

end Moonbox.Core
