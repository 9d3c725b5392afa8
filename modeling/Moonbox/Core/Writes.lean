import Moonbox.Catalog.Writes
import Moonbox.Core.CommandChecker

/-!
# The tables a command writes

A command is built of reads, which keep any relation a database has to itself, and of operations
of the catalog.
-/

namespace Moonbox.Core

open Catalog Relational

/-! ### Reads -/

section Reads

variable {R : Store → Store → Prop} [Std.Refl R] [IsTrans Store R] {caller : User}
  {catalog : MoonboxCatalog}

lemma keeps_userName (userId : Int) : Action.Keeps R (JdbcCatalog.userName userId) := by
  apply Action.Keeps.ite (.pure _)
  apply Action.Keeps.bind (.query _)
  intro e
  cases e with
  | none => exact .throw _
  | some e => exact .pure _

lemma keeps_procedureName (procId : Nat) : Action.Keeps R (JdbcCatalog.procedureName procId) := by
  apply Action.Keeps.bind (.query _)
  intro e
  cases e with
  | none => exact .throw _
  | some e => exact .pure _

omit [IsTrans Store R] in
lemma keeps_liftExcept {α : Type} (r : Except String α) : Action.Keeps R (liftExcept r) := by
  cases r with
  | error e => exact .throw _
  | ok a => exact .pure _

variable [Names]

lemma keeps_organizationId (org : String) : Action.Keeps R (JdbcCatalog.organizationId org) := by
  apply Action.Keeps.bind (.query _)
  intro e
  cases e with
  | none => exact .throw _
  | some e => exact .pure _

lemma keeps_userId (orgId : Nat) (user : String) :
    Action.Keeps R (JdbcCatalog.userId orgId user) := by
  apply Action.Keeps.bind (.query _)
  intro e
  cases e with
  | none => exact .throw _
  | some e => exact .pure _

lemma keeps_getOrganization (org : String) :
    Action.Keeps R (JdbcCatalog.getOrganization org) := by
  apply Action.Keeps.bind (.query _)
  intro e
  cases e with
  | none => exact .throw _
  | some e => exact .pure _

lemma keeps_getUser (org user : String) : Action.Keeps R (JdbcCatalog.getUser org user) := by
  apply Action.Keeps.bind (keeps_organizationId org)
  intro orgId
  apply Action.Keeps.bind (.query _)
  intro e
  cases e with
  | none => exact .throw _
  | some e => exact (keeps_userName _).bind fun _ => .pure _

lemma keeps_userExists (org user : String) : Action.Keeps R (JdbcCatalog.userExists org user) :=
  (keeps_organizationId org).bind fun _ => .query _

lemma keeps_getProcedure (proc : String) :
    Action.Keeps R (JdbcCatalog.getProcedure proc caller) := by
  apply Action.Keeps.bind (.query _)
  intro e
  cases e with
  | none => exact .throw _
  | some e => exact (keeps_userName _).bind fun _ => .pure _

lemma keeps_getTimedEvent (event : String) :
    Action.Keeps R (JdbcCatalog.getTimedEvent event caller) := by
  apply Action.Keeps.bind (.query _)
  intro e
  cases e with
  | none => exact .throw _
  | some e =>
    apply (keeps_userName _).bind
    intro definer
    apply (keeps_procedureName _).bind
    intro procedure
    exact (keeps_userName _).bind fun _ => .pure _

lemma keeps_getDatabase (db : String) : Action.Keeps R (JdbcCatalog.getDatabase db caller) := by
  apply Action.Keeps.bind (.query _)
  intro e
  cases e with
  | none => exact .throw _
  | some e => exact (keeps_userName _).bind fun _ => .pure _

omit [IsTrans Store R] in
lemma keeps_databaseExists (db : String) :
    Action.Keeps R (JdbcCatalog.databaseExists db caller) := .query _

lemma keeps_getTable (db table : String) :
    Action.Keeps R (JdbcCatalog.getTable db table caller) := by
  apply Action.Keeps.bind (.query _)
  intro d
  cases d with
  | none => exact .throw _
  | some d =>
    apply Action.Keeps.bind (.query _)
    intro t
    cases t with
    | none => exact .throw _
    | some t => exact (keeps_userName _).bind fun _ => .pure _

lemma keeps_tableExists (db table : String) :
    Action.Keeps R (JdbcCatalog.tableExists db table caller) := by
  apply Action.Keeps.bind (.query _)
  intro d
  cases d with
  | none => exact .throw _
  | some d => exact .query _

lemma keeps_listTables (db : String) : Action.Keeps R (JdbcCatalog.listTables db caller) := by
  apply Action.Keeps.bind (.query _)
  intro d
  cases d with
  | none => exact .throw _
  | some d => exact Action.Keeps.bind (.query _) fun _ => .pure _

lemma keeps_getFunction (db func : String) :
    Action.Keeps R (JdbcCatalog.getFunction db func caller) := by
  apply Action.Keeps.bind (.query _)
  intro d
  cases d with
  | none => exact .throw _
  | some d =>
    apply Action.Keeps.bind (.query _)
    intro f
    cases f with
    | none => exact .throw _
    | some f => exact Action.Keeps.bind (.query _) fun _ => (keeps_userName _).bind fun _ => .pure _

lemma keeps_functionExists (db func : String) :
    Action.Keeps R (JdbcCatalog.functionExists db func caller) := by
  apply Action.Keeps.bind (.query _)
  intro d
  cases d with
  | none => exact .throw _
  | some d => exact .query _

lemma keeps_listFunctions (db : String) :
    Action.Keeps R (JdbcCatalog.listFunctions db caller) := by
  apply Action.Keeps.bind (.query _)
  intro d
  cases d with
  | none => exact .throw _
  | some d =>
    apply Action.Keeps.bind (.query _)
    intro functions
    exact Action.Keeps.mapM (fun _ => (keeps_userName _).bind fun _ => .pure _) _

lemma keeps_getDatabasePrivilege (user db : String) :
    Action.Keeps R (JdbcCatalog.getDatabasePrivilege user db caller) := by
  apply (keeps_userId _ user).bind
  intro uId
  apply Action.Keeps.bind (.query _)
  intro d
  cases d with
  | none => exact .throw _
  | some d => exact Action.Keeps.bind (.query _) fun _ => .pure _

lemma keeps_getTablePrivilege (user db table : String) :
    Action.Keeps R (JdbcCatalog.getTablePrivilege user db table caller) := by
  apply (keeps_userId _ user).bind
  intro uId
  apply Action.Keeps.bind (.query _)
  intro d
  cases d with
  | none => exact .throw _
  | some d =>
    apply Action.Keeps.bind (.query _)
    intro t
    cases t with
    | none => exact .throw _
    | some t => exact Action.Keeps.bind (.query _) fun _ => .pure _

lemma keeps_getColumnPrivilege (user db table : String) :
    Action.Keeps R (JdbcCatalog.getColumnPrivilege user db table caller) := by
  apply (keeps_userId _ user).bind
  intro uId
  apply Action.Keeps.bind (.query _)
  intro d
  cases d with
  | none => exact .throw _
  | some d =>
    apply Action.Keeps.bind (.query _)
    intro t
    cases t with
    | none => exact .throw _
    | some t => exact Action.Keeps.bind (.query _) fun _ => .pure _

omit [Names] in
lemma keeps_listDatabases : Action.Keeps R (JdbcCatalog.listDatabases caller) :=
  Action.Keeps.bind (.query _) fun _ => .pure _

lemma keeps_listUserInGroup (group : String) :
    Action.Keeps R (catalog.listUserInGroup group) := by
  apply Action.Keeps.bind _ fun _ => .pure _
  apply Action.Keeps.bind (.query _)
  intro g
  cases g with
  | none => exact .throw _
  | some g => exact Action.Keeps.bind (.query _) fun _ => .pure _

lemma keeps_requireDbExists (db : String) : Action.Keeps R (catalog.requireDbExists db) := by
  apply (keeps_databaseExists db).bind
  intro b
  cases b with
  | false => exact .throw _
  | true => exact .pure _

lemma keeps_requireTableExists (db table : String) :
    Action.Keeps R (catalog.requireTableExists db table) := by
  apply (keeps_tableExists db table).bind
  intro b
  cases b with
  | false => exact .throw _
  | true => exact .pure _

lemma keeps_requireUserExists (org user : String) :
    Action.Keeps R (MoonboxCatalog.requireUserExists org user) := by
  apply (keeps_userExists org user).bind
  intro b
  cases b with
  | false => exact .throw _
  | true => exact .pure _

lemma keeps_tableSchema (env : Env) (table db : String) :
    Action.Keeps R (tableSchema env catalog table db) :=
  (keeps_getTable db table).bind fun _ => keeps_liftExcept _

lemma keeps_setCurrentDb (db : String) : Action.Keeps R (catalog.setCurrentDb db) := by
  apply (keeps_databaseExists db).bind
  intro b
  cases b with
  | false => exact .throw _
  | true => exact .pure _

omit [Names] in
lemma keeps_columnsOf (onSelect onUpdate : String) (privileges : List ResourcePrivilege) :
    Action.Keeps R (columnsOf onSelect onUpdate privileges) := by
  induction privileges with
  | nil => exact .pure _
  | cons p privileges ih =>
    cases p with
    | columnSelect column => exact ih.bind fun _ => .pure _
    | columnUpdate column => exact ih.bind fun _ => .pure _
    | _ => exact .throw _

omit [Names] [IsTrans Store R] in
lemma keeps_requireColumns (columns : List (String × String)) (schema : List String) :
    Action.Keeps R (requireColumns columns schema) := .ite (.pure _) (.throw _)

end Reads

/-! ### Commands -/

namespace Command

/-- The tables in which a command inserts, deletes or updates rows. -/
def writes : Command → List Kind
  | createOrganization .. => [.organizations, .databases]
  | alterOrganizationSetName .. | alterOrganizationSetComment ..
  | alterOrganizationSetOptions .. => [.organizations]
  | dropOrganization .. =>
    [.databases, .users, .timedEvents, .procedures, .queries, .organizations]
  | createSa .. | alterSaSetName .. | alterSaSetPassword .. | alterSaSetOptions ..
  | createUser .. | alterUserSetName .. | alterUserSetPassword .. | alterUserSetOptions .. =>
    [.users]
  | dropSa .. | dropUser .. =>
    [.groupUserRels, .databasePrivileges, .tablePrivileges, .columnPrivileges, .users]
  | mountDatabase .. => [.databases, .tables]
  | refreshDatabase .. => [.tablePrivileges, .columnPrivileges, .tables]
  | alterDatabaseSetOptions .. | createDatabase .. | alterDatabaseSetName ..
  | alterDatabaseSetComment .. => [.databases]
  | unmountDatabase .. | dropDatabase .. => [.functions, .tables, .databases]
  | mountTable .. | alterTableSetName .. | alterTableSetOptions .. | createView ..
  | alterViewSetQuery .. => [.tables]
  | unmountTable .. | dropView .. => [.tablePrivileges, .columnPrivileges, .tables]
  | createFunction .. | dropFunction .. => [.functions, .functionResources]
  | createProcedure .. | alterProcedureSetName .. | alterProcedureSetQuery ..
  | dropProcedure .. => [.procedures]
  | createTimedEvent .. | alterTimedEventSetName .. | alterTimedEventSetDefiner ..
  | alterTimedEventSetSchedule .. | alterTimedEventSetEnable .. | dropTimedEvent .. =>
    [.timedEvents]
  | createGroup .. | alterGroupSetName .. | alterGroupSetComment .. => [.groups]
  | alterGroupAddUser .. | alterGroupRemoveUser .. => [.groupUserRels]
  | dropGroup .. => [.groupUserRels, .groups]
  | grantGrantToUser .. | grantGrantToGroup .. | revokeGrantFromUser ..
  | revokeGrantFromGroup .. | grantPrivilegeToUser .. | grantPrivilegeToGroup ..
  | revokePrivilegeFromUser .. | revokePrivilegeFromGroup .. => [.users]
  | grantResourceToUser .. | grantResourceToGroup .. | revokeResourceFromUser ..
  | revokeResourceFromGroup .. =>
    [.databasePrivileges, .tablePrivileges, .columnPrivileges]
  | showOrganizations .. | descOrganization .. | showSas .. | showUsers .. | descUser ..
  | useDatabase .. | showDatabases .. | showTables .. | showFunctions .. | showProcedures ..
  | showEvents .. | showGrants .. | showCreateTable .. | showSchema .. | descDatabase ..
  | descTable .. | descFunction .. | descProcedure .. | descEvent .. | explain .. | mqlQuery ..
  | createTempView .. | createTempFunction .. | dropTempFunction .. | insertInto ..
  | statement .. | showGroups .. | showUsersInGroup .. | showSysInfo | showJobInfo
  | showRunningEventInfo => []

end Command

section Commands

variable [Names] {env : Env} {catalog : MoonboxCatalog} {caller : User} {now : Nat}

lemma within_changeUser (org user : String) (change : CatalogUser → CatalogUser) :
    Action.Within [.users] (changeUser org user change caller now) :=
  (keeps_getUser org user).bind fun d => Operation.within (.alterUser (change d)) caller now

lemma within_forUsersInGroup {run : String → DBIO Unit} (group : String)
    (h : ∀ user, Action.Within [.users] (run user)) :
    Action.Within [.users] (forUsersInGroup catalog group run) :=
  (keeps_listUserInGroup group).bind fun users => Action.Keeps.forEach h users

lemma within_changeOrganization (name : String)
    (change : CatalogOrganization → CatalogOrganization) :
    Action.Within [.organizations] (do
      let existOrganization ← JdbcCatalog.getOrganization name
      JdbcCatalog.alterOrganization (change existOrganization) caller now) :=
  (keeps_getOrganization name).bind fun d =>
    Operation.within (.alterOrganization (change d)) caller now

lemma within_createTable (d : CatalogTable) (ign : Bool) :
    Action.Within [.tables] (JdbcCatalog.createTable d ign caller now) :=
  Operation.within (.createTable d ign) caller now

lemma within_createFunction (d : CatalogFunction) (ign : Bool) :
    Action.Within [.functions, .functionResources]
      (JdbcCatalog.createFunction d ign caller now) :=
  Operation.within (.createFunction d ign) caller now

/-! #### Databases -/

lemma within_MountDatabase (name : String) (props : Properties) (ign : Bool) :
    Action.Within [.databases, .tables] (MountDatabase.run env catalog now name props ign) := by
  apply (keeps_liftExcept _).bind
  intro _
  apply Action.Keeps.bind
  · exact (Operation.within (.createDatabase _ ign) catalog.userInSession now).mono (by
      simp [Operation.writes])
  intro _
  apply (keeps_liftExcept _).bind
  apply Action.Keeps.forEach
  intro tbName
  exact (within_createTable _ true).mono (by simp)

lemma within_RefreshDatabase (name : String) :
    Action.Within [.tablePrivileges, .columnPrivileges, .tables]
      (RefreshDatabase.run env catalog now name) := by
  apply (keeps_getDatabase name).bind
  intro d
  apply Action.Keeps.ite (.throw _)
  apply (keeps_liftExcept _).bind
  intro _
  apply (keeps_listTables _).bind
  intro tables
  apply (keeps_liftExcept _).bind
  intro dsTables
  apply Action.Keeps.bind
  · apply Action.Keeps.forEach
    intro t
    exact (within_createTable _ true).mono (by simp)
  intro _
  apply Action.Keeps.forEach
  intro t
  exact Operation.within (.dropTable name t true) catalog.userInSession now

lemma within_changeDatabase (name : String) (change : CatalogDatabase → CatalogDatabase) :
    Action.Within [.databases] (changeDatabase catalog now name change) :=
  (keeps_getDatabase name).bind fun d =>
    Operation.within (.alterDatabase (change d)) catalog.userInSession now

lemma within_dropDatabase (name : String) (ign cascade : Bool) :
    Action.Within [.functions, .tables, .databases] (catalog.dropDatabase name ign cascade) :=
  .ite (.throw _) (Operation.within (.dropDatabase name ign cascade) catalog.userInSession 0)

lemma within_UnmountDatabase (name : String) (ign cascade : Bool) :
    Action.Within [.functions, .tables, .databases]
      (UnmountDatabase.run catalog name ign cascade) :=
  (keeps_getDatabase name).bind fun _ => .ite (.throw _) (within_dropDatabase name ign cascade)

lemma within_DropDatabase (name : String) (ign cascade : Bool) :
    Action.Within [.functions, .tables, .databases] (DropDatabase.run catalog name ign cascade) :=
  (keeps_getDatabase name).bind fun _ => .ite (.throw _) (within_dropDatabase name ign cascade)

lemma within_AlterDatabaseSetName (name newName : String) :
    Action.Within [.databases] (AlterDatabaseSetName.run env catalog now name newName) := by
  apply (Operation.within (.renameDatabase name newName) catalog.userInSession now).bind
  intro _
  exact .ite (keeps_setCurrentDb newName) (.pure _)

/-! #### Tables, functions and views -/

lemma within_MountTable (table : TableIdentifier) (props : Properties) (isStream ign : Bool) :
    Action.Within [.tables] (MountTable.run env catalog now table props isStream ign) := by
  apply (keeps_getDatabase _).bind
  intro d
  apply Action.Keeps.ite (.throw _)
  apply (keeps_liftExcept _).bind
  intro _
  exact within_createTable _ ign

lemma within_AlterTableSetName (table newTable : TableIdentifier) :
    Action.Within [.tables] (AlterTableSetName.run catalog now table newTable) := by
  apply Action.Keeps.ite (.throw _)
  apply (keeps_getDatabase _).bind
  intro d
  exact .ite (.throw _) (Operation.within (.renameTable _ _ _) catalog.userInSession now)

lemma within_AlterTableSetOptions (table : TableIdentifier) (props : Properties) :
    Action.Within [.tables] (AlterTableSetOptions.run catalog now table props) :=
  (keeps_getTable _ _).bind fun _ =>
    .ite (.throw _) (Operation.within (.alterTable _) catalog.userInSession now)

lemma within_UnmountTable (table : TableIdentifier) (ign : Bool) :
    Action.Within [.tablePrivileges, .columnPrivileges, .tables]
      (UnmountTable.run catalog table ign) :=
  (keeps_getDatabase _).bind fun _ =>
    .ite (.throw _) (Operation.within (.dropTable _ _ ign) catalog.userInSession 0)

lemma within_CreateFunction (function : FunctionIdentifier) (className : String)
    (methodName : Option String) (resources : List FunctionResource) (ign : Bool) :
    Action.Within [.functions, .functionResources]
      (CreateFunction.run catalog now function className methodName resources ign) :=
  (keeps_getDatabase _).bind fun _ => within_createFunction _ ign

lemma within_DropFunction (function : FunctionIdentifier) (ign : Bool) :
    Action.Within [.functions, .functionResources] (DropFunction.run catalog function ign) := by
  apply (keeps_getDatabase _).bind
  intro d
  apply (keeps_databaseExists _).bind
  intro b
  cases b with
  | false => exact .pure _
  | true => exact Operation.within (.dropFunction _ _ ign) catalog.userInSession 0

lemma within_CreateView (view : TableIdentifier) (query : String) (comment : Option String)
    (replaceIfExists : Bool) :
    Action.Within [.tables] (CreateView.run catalog now view query comment replaceIfExists) := by
  apply (keeps_getDatabase _).bind
  intro d
  apply Action.Keeps.ite (.throw _)
  apply (keeps_tableExists _ _).bind
  intro b
  apply Action.Keeps.ite
  · apply (keeps_getTable _ _).bind
    intro t
    exact .ite (.throw _) (Operation.within (.alterTable _) catalog.userInSession now)
  · exact within_createTable _ false

lemma within_AlterViewSetQuery (view : TableIdentifier) (query : String) :
    Action.Within [.tables] (AlterViewSetQuery.run catalog now view query) := by
  apply (keeps_getDatabase _).bind
  intro d
  apply (keeps_getTable _ _).bind
  intro t
  exact .ite (.throw _) (Operation.within (.alterTable _) catalog.userInSession now)

lemma within_DropView (view : TableIdentifier) (ign : Bool) :
    Action.Within [.tablePrivileges, .columnPrivileges, .tables]
      (DropView.run catalog view ign) := by
  apply (keeps_getDatabase _).bind
  intro d
  apply (keeps_getTable _ _).bind
  intro t
  exact .ite (.throw _) (Operation.within (.dropTable _ _ ign) catalog.userInSession 0)

/-! #### Procedures and timed events -/

lemma within_AlterProcedureSetQuery (name : String) (queryList : List String) :
    Action.Within [.procedures] (AlterProcedureSetQuery.run catalog now name queryList) :=
  (keeps_getProcedure _).bind fun _ =>
    Operation.within (.alterProcedure _) catalog.userInSession now

lemma within_whileNotRunning {m : CatalogTimedEvent → DBIO Unit} (name running : String)
    (h : ∀ timedEvent, Action.Within [.timedEvents] (m timedEvent)) :
    Action.Within [.timedEvents] (whileNotRunning catalog name running m) :=
  (keeps_getTimedEvent _).bind fun timedEvent => .ite (.throw _) (h timedEvent)

lemma within_AlterTimedEventSetEnable (name : String) (enable : Bool) :
    Action.Within [.timedEvents] (AlterTimedEventSetEnable.run catalog now name enable) :=
  (keeps_getTimedEvent _).bind fun _ =>
    Operation.within (.alterTimedEvent _) catalog.userInSession now

/-! #### Privileges -/

lemma within_onResource (privileges : List ResourcePrivilege) (tableIdentifier : TableIdentifier)
    {onDatabase : String → DBIO Unit}
    {onTable onColumns : String → String → List ResourcePrivilege → DBIO Unit} {ks : List Kind}
    (hdatabase : ∀ db, Action.Within ks (onDatabase db))
    (htable : ∀ db table ps, Action.Within ks (onTable db table ps))
    (hcolumns : ∀ db table ps, Action.Within ks (onColumns db table ps)) :
    Action.Within ks
      (onResource catalog privileges tableIdentifier onDatabase onTable onColumns) := by
  apply Action.Keeps.ite
  · apply Action.Keeps.ite (.throw _)
    exact keeps_listDatabases.bind fun dbs => .forEach (fun d => hdatabase d.name) dbs
  apply Action.Keeps.ite
  · apply (keeps_requireDbExists _).bind
    intro _
    exact .ite (.throw _) (hdatabase _)
  · apply (keeps_requireDbExists _).bind
    intro _
    apply (keeps_requireTableExists _ _).bind
    intro _
    have hend := Action.Keeps.ite (c := ¬ (privileges.span fun p => !p.isColumnLevel).2 = [])
      (hcolumns (catalog.databaseOf tableIdentifier.database) tableIdentifier.table privileges)
      (.pure ())
    exact .ite ((htable _ _ _).bind fun _ => hend) hend

def privilegeKinds : List Kind := [.databasePrivileges, .tablePrivileges, .columnPrivileges]

omit [Names] in
lemma database_sub : [Kind.databasePrivileges] ⊆ privilegeKinds := by decide

omit [Names] in
lemma table_sub : [Kind.tablePrivileges] ⊆ privilegeKinds := by decide

omit [Names] in
lemma column_sub : [Kind.columnPrivileges] ⊆ privilegeKinds := by decide

lemma within_privileges (op : Operation) (h : op.writes ⊆ privilegeKinds) :
    Action.Within privilegeKinds (op.action caller now) :=
  (Operation.within op caller now).mono h

lemma within_GrantResourceToUser (privileges : List ResourcePrivilege)
    (tableIdentifier : TableIdentifier) (user : String) :
    Action.Within privilegeKinds
      (GrantResourceToUser.run env catalog now privileges tableIdentifier user) := by
  apply (keeps_requireUserExists _ _).bind
  intro _
  apply within_onResource
  · intro db
    exact within_privileges (.createDatabasePrivilege _) database_sub
  · intro db table ps
    exact within_privileges (.createTablePrivilege _) table_sub
  · intro db table ps
    apply (keeps_tableSchema _ _ _).bind
    intro schema
    apply (keeps_columnsOf _ _ _).bind
    intro columns
    apply (keeps_requireColumns _ _).bind
    intro _
    exact within_privileges (.createColumnPrivilege _) column_sub

lemma within_GrantResourceToGroup (privileges : List ResourcePrivilege)
    (tableIdentifier : TableIdentifier) (group : String) :
    Action.Within privilegeKinds
      (GrantResourceToGroup.run env catalog now privileges tableIdentifier group) := by
  apply (keeps_listUserInGroup _).bind
  intro users
  apply Action.Keeps.bind (.forEach (fun user => keeps_requireUserExists _ user) users)
  intro _
  apply within_onResource
  · intro db
    apply Action.Keeps.forEach
    intro user
    exact within_privileges (.createDatabasePrivilege _) database_sub
  · intro db table ps
    apply Action.Keeps.forEach
    intro user
    exact within_privileges (.createTablePrivilege _) table_sub
  · intro db table ps
    apply (keeps_tableSchema _ _ _).bind
    intro schema
    apply (keeps_columnsOf _ _ _).bind
    intro columns
    apply (keeps_requireColumns _ _).bind
    intro _
    apply Action.Keeps.forEach
    intro user
    exact within_privileges (.createColumnPrivilege _) column_sub

lemma within_RevokeResourceFromUser (privileges : List ResourcePrivilege)
    (tableIdentifier : TableIdentifier) (user : String) :
    Action.Within privilegeKinds
      (RevokeResourceFromUser.run catalog privileges tableIdentifier user) := by
  apply (keeps_requireUserExists _ _).bind
  intro _
  apply within_onResource
  · intro db
    exact (Operation.within (.dropDatabasePrivilege _ _ _) _ 0).mono database_sub
  · intro db table ps
    exact (Operation.within (.dropTablePrivilege _ _ _ _) _ 0).mono table_sub
  · intro db table ps
    apply (keeps_columnsOf _ _ _).bind
    intro columns
    exact (Operation.within (.dropColumnPrivilege _ _ _ _) _ 0).mono column_sub

lemma within_RevokeResourceFromGroup (privileges : List ResourcePrivilege)
    (tableIdentifier : TableIdentifier) (group : String) :
    Action.Within privilegeKinds
      (RevokeResourceFromGroup.run env catalog now privileges tableIdentifier group) := by
  apply (keeps_listUserInGroup _).bind
  intro users
  apply Action.Keeps.bind (.forEach (fun user => keeps_requireUserExists _ user) users)
  intro _
  apply within_onResource
  · intro db
    apply Action.Keeps.forEach
    intro user
    exact (Operation.within (.dropDatabasePrivilege _ _ _) _ 0).mono database_sub
  · intro db table ps
    apply Action.Keeps.forEach
    intro user
    exact within_privileges (.createTablePrivilege _) table_sub
  · intro db table ps
    apply (keeps_tableSchema _ _ _).bind
    intro schema
    apply (keeps_columnsOf _ _ _).bind
    intro columns
    apply (keeps_requireColumns _ _).bind
    intro _
    apply Action.Keeps.forEach
    intro user
    exact (Operation.within (.dropColumnPrivilege _ _ _ _) _ 0).mono column_sub

omit [Names] in
lemma within_keeping {α : Type} {ks : List Kind} {m : DBIO α} (h : Action.Within ks m) :
    Action.Within ks (keeping catalog m) := h.bind fun _ => .pure _

lemma keeps_ShowCreateTable (table : TableIdentifier) :
    Action.Within [] (ShowCreateTable.run catalog table) :=
  (keeps_getTable _ _).bind fun _ => .ite (.pure _) (.ite (.pure _) (.throw _))

variable (env catalog now)

/-- A command leaves the tables it does not write as they are. -/
theorem Command.run_within (cmd : Command) :
    Action.Within cmd.writes (cmd.run env catalog now) := by
  have op (op : Operation) : Action.Within op.writes (keeping catalog
    (op.action catalog.userInSession now)) := within_keeping (op.within _ _)
  cases cmd with
  | createOrganization name comment config ign => exact op (.createOrganization _ ign)
  | alterOrganizationSetName name newName => exact op (.renameOrganization name newName)
  | alterOrganizationSetComment name comment =>
    exact within_keeping (within_changeOrganization name _)
  | alterOrganizationSetOptions name options =>
    exact within_keeping (within_changeOrganization name _)
  | dropOrganization name ign cascade => exact op (.dropOrganization name ign cascade)
  | createSa name password organization configuration ign => exact op (.createUser _ ign)
  | alterSaSetName name newName organization => exact op (.renameUser organization name newName)
  | alterSaSetPassword name password organization =>
    exact within_keeping (within_changeUser organization name _)
  | alterSaSetOptions name options organization =>
    exact within_keeping (within_changeUser organization name _)
  | dropSa name organization ign => exact op (.dropUser organization name ign)
  | descOrganization name => exact within_keeping (keeps_getOrganization name)
  | createUser name password configuration ign => exact op (.createUser _ ign)
  | alterUserSetName name newName => exact op (.renameUser _ name newName)
  | alterUserSetPassword name password => exact within_keeping (within_changeUser _ name _)
  | alterUserSetOptions name options => exact within_keeping (within_changeUser _ name _)
  | dropUser name ign => exact op (.dropUser _ name ign)
  | descUser user => exact within_keeping (keeps_getUser _ user)
  | mountDatabase name props ign => exact within_keeping (within_MountDatabase name props ign)
  | refreshDatabase name => exact within_keeping (within_RefreshDatabase name)
  | alterDatabaseSetOptions name props => exact within_keeping (within_changeDatabase name _)
  | unmountDatabase name ign cascade =>
    exact within_keeping (within_UnmountDatabase name ign cascade)
  | createDatabase name comment ign => exact op (.createDatabase _ ign)
  | alterDatabaseSetName name newName => exact within_AlterDatabaseSetName name newName
  | alterDatabaseSetComment name comment => exact within_keeping (within_changeDatabase name _)
  | dropDatabase name ign cascade => exact within_keeping (within_DropDatabase name ign cascade)
  | mountTable table props isStream ign =>
    exact within_keeping (within_MountTable table props isStream ign)
  | alterTableSetName table newTable => exact within_keeping (within_AlterTableSetName table newTable)
  | alterTableSetOptions table props => exact within_keeping (within_AlterTableSetOptions table props)
  | unmountTable table ign => exact within_keeping (within_UnmountTable table ign)
  | createFunction function className methodName resources ign =>
    exact within_keeping (within_CreateFunction function className methodName resources ign)
  | dropFunction function ign => exact within_keeping (within_DropFunction function ign)
  | createView view query comment replaceIfExists =>
    exact within_keeping (within_CreateView view query comment replaceIfExists)
  | alterViewSetQuery view query => exact within_keeping (within_AlterViewSetQuery view query)
  | dropView view ign => exact within_keeping (within_DropView view ign)
  | createProcedure name queryList lang ign => exact op (.createProcedure _ ign)
  | alterProcedureSetName name newName => exact op (.renameProcedure name newName)
  | alterProcedureSetQuery name queryList =>
    exact within_keeping (within_AlterProcedureSetQuery name queryList)
  | dropProcedure name ign => exact op (.dropProcedure name ign)
  | createTimedEvent name definer schedule description proc enable ign =>
    exact op (.createTimedEvent _ ign)
  | alterTimedEventSetName name newName =>
    exact within_keeping (within_whileNotRunning name _ fun _ =>
      Operation.within (.renameTimedEvent name newName) _ now)
  | alterTimedEventSetDefiner name definer =>
    exact within_keeping (within_whileNotRunning name _ fun _ =>
      Operation.within (.alterTimedEvent _) _ now)
  | alterTimedEventSetSchedule name schedule =>
    exact within_keeping (within_whileNotRunning name _ fun _ =>
      Operation.within (.alterTimedEvent _) _ now)
  | alterTimedEventSetEnable name enable =>
    exact within_keeping (within_AlterTimedEventSetEnable name enable)
  | dropTimedEvent name ign =>
    exact within_keeping (within_whileNotRunning name _ fun _ =>
      Operation.within (.dropTimedEvent name ign) _ now)
  | useDatabase db => exact keeps_setCurrentDb db
  | showTables database pattern => exact within_keeping (keeps_listTables _)
  | showCreateTable table => exact within_keeping (keeps_ShowCreateTable table)
  | descDatabase name => exact within_keeping (keeps_getDatabase name)
  | descTable table extended => exact within_keeping (keeps_tableSchema env _ _)
  | descProcedure proc => exact within_keeping (keeps_getProcedure proc)
  | descEvent event => exact within_keeping (keeps_getTimedEvent event)
  | createGroup name desc ign => exact op (.createGroup _ ign)
  | alterGroupSetName name newName => exact op (.renameGroup name newName)
  | alterGroupSetComment name comment => exact op (.alterGroup _)
  | alterGroupAddUser name users => exact op (.createGroupUserRel _)
  | alterGroupRemoveUser name users => exact op (.dropGroupUserRel _)
  | dropGroup name ign cascade => exact op (.dropGroup name ign cascade)
  | grantGrantToUser grants user => exact within_keeping (within_changeUser _ user _)
  | grantGrantToGroup grants group =>
    exact within_keeping (within_forUsersInGroup group fun user => within_changeUser _ user _)
  | revokeGrantFromUser grants user => exact within_keeping (within_changeUser _ user _)
  | revokeGrantFromGroup grants group =>
    exact within_keeping (within_forUsersInGroup group fun user => within_changeUser _ user _)
  | grantPrivilegeToUser privileges user => exact within_keeping (within_changeUser _ user _)
  | grantPrivilegeToGroup privileges group =>
    exact within_keeping (within_forUsersInGroup group fun user => within_changeUser _ user _)
  | revokePrivilegeFromUser privileges user => exact within_keeping (within_changeUser _ user _)
  | revokePrivilegeFromGroup privileges group =>
    exact within_keeping (within_forUsersInGroup group fun user => within_changeUser _ user _)
  | grantResourceToUser privileges tableIdentifier user =>
    exact within_keeping (within_GrantResourceToUser privileges.1 tableIdentifier user)
  | grantResourceToGroup privileges tableIdentifier group =>
    exact within_keeping (within_GrantResourceToGroup privileges.1 tableIdentifier group)
  | revokeResourceFromUser privileges tableIdentifier user =>
    exact within_keeping (within_RevokeResourceFromUser privileges.1 tableIdentifier user)
  | revokeResourceFromGroup privileges tableIdentifier group =>
    exact within_keeping (within_RevokeResourceFromGroup privileges.1 tableIdentifier group)
  | showUsersInGroup group pattern => exact within_keeping (keeps_listUserInGroup group)
  | _ => exact .pure catalog

end Commands

end Moonbox.Core
