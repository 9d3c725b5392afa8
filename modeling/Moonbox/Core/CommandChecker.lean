import Moonbox.Core.Dcl
import Moonbox.Core.Ddl

/-!
# Running a command

`CommandChecker` decides by the class of a command and the session's copy of the user whether it
may run. A command answers what the session holds of the catalog after it. The rows it shows and
what it does in the engine are left out.
-/

namespace Moonbox.Core

open Catalog Relational

namespace Command

/-- The trait that the class of the command mixes in. -/
def mixin : Command → CommandTrait
  | createOrganization .. | alterOrganizationSetName .. | alterOrganizationSetComment ..
  | alterOrganizationSetOptions .. | dropOrganization .. | showOrganizations .. | createSa ..
  | alterSaSetName .. | alterSaSetPassword .. | alterSaSetOptions .. | dropSa ..
  | descOrganization .. | showSas .. => .organization
  | createUser .. | alterUserSetName .. | alterUserSetPassword .. | alterUserSetOptions ..
  | dropUser .. | showUsers .. | descUser .. => .account
  | mountDatabase .. | refreshDatabase .. | alterDatabaseSetOptions .. | unmountDatabase ..
  | createDatabase .. | alterDatabaseSetName .. | alterDatabaseSetComment .. | dropDatabase ..
  | mountTable .. | alterTableSetName .. | alterTableSetOptions .. | unmountTable ..
  | createFunction .. | dropFunction .. | createView .. | alterViewSetQuery .. | dropView ..
  | createProcedure .. | alterProcedureSetName .. | alterProcedureSetQuery .. | dropProcedure ..
  | createTimedEvent .. | alterTimedEventSetName .. | alterTimedEventSetDefiner ..
  | alterTimedEventSetSchedule .. | alterTimedEventSetEnable .. | dropTimedEvent .. => .ddl
  | useDatabase .. | showDatabases .. | showTables .. | showFunctions .. | showProcedures ..
  | showEvents .. | showGrants .. | showCreateTable .. | showSchema .. | descDatabase ..
  | descTable .. | descFunction .. | descProcedure .. | descEvent .. | explain .. | mqlQuery ..
  | createTempView .. | createTempFunction .. | dropTempFunction .. | insertInto ..
  | statement .. => .dml
  | createGroup .. | alterGroupSetName .. | alterGroupSetComment .. | alterGroupAddUser ..
  | alterGroupRemoveUser .. | dropGroup .. | grantGrantToUser .. | grantGrantToGroup ..
  | revokeGrantFromUser .. | revokeGrantFromGroup .. | grantPrivilegeToUser ..
  | grantPrivilegeToGroup .. | revokePrivilegeFromUser .. | revokePrivilegeFromGroup ..
  | grantResourceToUser .. | grantResourceToGroup .. | revokeResourceFromUser ..
  | revokeResourceFromGroup .. | showGroups .. | showUsersInGroup .. => .dcl
  | showSysInfo | showJobInfo | showRunningEventInfo => .system

end Command

/-! ### `CommandChecker` -/

namespace CommandChecker

def require (condition : Bool) (message : String) : Except String Unit :=
  if condition then .ok () else .error message

def isRoot (env : Env) (catalog : MoonboxCatalog) : Bool :=
  env.equalsIgnoreCase catalog.getCurrentOrg "SYSTEM" &&
    env.equalsIgnoreCase catalog.getCurrentUser "ROOT"

/-- The grant flag of a right. -/
def hasGrant (catalogUser : CatalogUser) : RolePrivilege → Bool
  | .ACCOUNT => catalogUser.grantAccount
  | .DDL => catalogUser.grantDdl
  | .DCL => catalogUser.grantDcl

/-- The flag a command asks for besides being no command on organizations. Those on groups and
those that only show fall through to the last case. -/
def permitted (catalogUser : CatalogUser) (cmd : Command) : Bool :=
  match cmd.mixin with
  | .account => catalogUser.account
  | .ddl => catalogUser.ddl
  | .dml => true
  | _ =>
    match cmd with
    | .grantResourceToUser .. => catalogUser.dcl
    | .revokeResourceFromUser .. => catalogUser.dcl
    | .grantResourceToGroup .. => catalogUser.dcl
    | .revokeResourceFromGroup .. => catalogUser.dcl
    | .grantGrantToUser .. => catalogUser.isSA
    | .revokeGrantFromUser .. => catalogUser.isSA
    | .grantGrantToGroup .. => catalogUser.isSA
    | .revokeGrantFromGroup .. => catalogUser.isSA
    | .grantPrivilegeToUser privileges _ => privileges.1.all (hasGrant catalogUser)
    | .grantPrivilegeToGroup privileges _ => privileges.1.all (hasGrant catalogUser)
    | .revokePrivilegeFromUser privileges _ => privileges.1.all (hasGrant catalogUser)
    | .revokePrivilegeFromGroup privileges _ => privileges.1.all (hasGrant catalogUser)
    | _ => true

def notOrganization (cmd : Command) (catalog : MoonboxCatalog) : Except String Unit :=
  require (permitted catalog.catalogUser cmd) "Permission denied."

def check (env : Env) (cmd : Command) (catalog : MoonboxCatalog) : Except String Unit :=
  match cmd.mixin with
  | .organization => require (isRoot env catalog) "Only ROOT can do this command."
  | _ => do
    require (!isRoot env catalog) "ROOT can only do organization relative commands."
    notOrganization cmd catalog

lemma require_eq_ok {condition : Bool} {message : String} :
    require condition message = .ok () ↔ condition = true := by
  cases condition <;> simp [require]

/-- The two ways in which a command is accepted. -/
lemma check_eq_ok {env : Env} {cmd : Command} {catalog : MoonboxCatalog} :
    check env cmd catalog = .ok () ↔
      if cmd.mixin = .organization then isRoot env catalog = true
      else isRoot env catalog = false ∧ permitted catalog.catalogUser cmd = true := by
  unfold check
  cases cmd.mixin
  case organization => exact require_eq_ok
  all_goals
    cases isRoot env catalog
    · simp only [reduceCtorEq, if_false, true_and]
      exact require_eq_ok
    · simp only [reduceCtorEq, if_false, false_and, iff_false]
      intro h
      cases h

end CommandChecker

/-! ### Runs -/

variable [Names]

/-- The text that `SHOW CREATE TABLE` shows of a view is taken out of an option. -/
def ShowCreateTable.run (catalog : MoonboxCatalog) (table : TableIdentifier) : DBIO Unit := do
  let catalogTable ← JdbcCatalog.getTable (catalog.databaseOf table.database) table.table
    catalog.userInSession
  if catalogTable.tableType = CatalogTableType.TABLE then pure ()
  else if catalogTable.viewText.isSome then pure () else .throw "None.get"

/-- The session keeps what it holds of the catalog. -/
def keeping {α : Type} (catalog : MoonboxCatalog) (m : DBIO α) : DBIO MoonboxCatalog := do
  let _ ← m
  pure catalog

def Command.run (env : Env) (catalog : MoonboxCatalog) (now : Nat) :
    Command → DBIO MoonboxCatalog
  | createOrganization name comment config ignoreIfExists =>
    keeping catalog (CreateOrganization.run catalog now name comment config ignoreIfExists)
  | alterOrganizationSetName name newName =>
    keeping catalog (AlterOrganizationSetName.run catalog now name newName)
  | alterOrganizationSetComment name comment =>
    keeping catalog (AlterOrganizationSetComment.run catalog now name comment)
  | alterOrganizationSetOptions name options =>
    keeping catalog (AlterOrganizationSetOptions.run catalog now name options)
  | dropOrganization name ignoreIfNotExists cascade =>
    keeping catalog (DropOrganization.run name ignoreIfNotExists cascade)
  | showOrganizations _ => pure catalog
  | createSa name password organization configuration ignoreIfExists =>
    keeping catalog
      (CreateSa.run env catalog now name password organization configuration ignoreIfExists)
  | alterSaSetName name newName organization =>
    keeping catalog (AlterSaSetName.run catalog now name newName organization)
  | alterSaSetPassword name newPassword organization =>
    keeping catalog (AlterSaSetPassword.run env catalog now name newPassword organization)
  | alterSaSetOptions name options organization =>
    keeping catalog (AlterSaSetOptions.run catalog now name options organization)
  | dropSa name organization ignoreIfNotExists =>
    keeping catalog (DropSa.run name organization ignoreIfNotExists)
  | descOrganization name => keeping catalog (JdbcCatalog.getOrganization name)
  | showSas _ => pure catalog
  | createUser name password configuration ignoreIfExists =>
    keeping catalog (CreateUser.run env catalog now name password configuration ignoreIfExists)
  | alterUserSetName name newName =>
    keeping catalog (AlterUserSetName.run catalog now name newName)
  | alterUserSetPassword name newPassword =>
    keeping catalog (AlterUserSetPassword.run env catalog now name newPassword)
  | alterUserSetOptions name options =>
    keeping catalog (AlterUserSetOptions.run catalog now name options)
  | dropUser name ignoreIfNotExists =>
    keeping catalog (DropUser.run catalog name ignoreIfNotExists)
  | showUsers _ => pure catalog
  | descUser user => keeping catalog (JdbcCatalog.getUser catalog.getCurrentOrg user)
  | mountDatabase name props ignoreIfExists =>
    keeping catalog (MountDatabase.run env catalog now name props ignoreIfExists)
  | refreshDatabase name => keeping catalog (RefreshDatabase.run env catalog now name)
  | alterDatabaseSetOptions name props =>
    keeping catalog (AlterDatabaseSetOptions.run catalog now name props)
  | unmountDatabase name ignoreIfNotExists cascade =>
    keeping catalog (UnmountDatabase.run catalog name ignoreIfNotExists cascade)
  | createDatabase name comment ignoreIfExists =>
    keeping catalog (CreateDatabase.run catalog now name comment ignoreIfExists)
  | alterDatabaseSetName name newName => AlterDatabaseSetName.run env catalog now name newName
  | alterDatabaseSetComment name comment =>
    keeping catalog (AlterDatabaseSetComment.run catalog now name comment)
  | dropDatabase name ignoreIfNotExists cascade =>
    keeping catalog (DropDatabase.run catalog name ignoreIfNotExists cascade)
  | mountTable table props isStream ignoreIfExists =>
    keeping catalog (MountTable.run env catalog now table props isStream ignoreIfExists)
  | alterTableSetName table newTable =>
    keeping catalog (AlterTableSetName.run catalog now table newTable)
  | alterTableSetOptions table props =>
    keeping catalog (AlterTableSetOptions.run catalog now table props)
  | unmountTable table ignoreIfNotExists =>
    keeping catalog (UnmountTable.run catalog table ignoreIfNotExists)
  | createFunction function className methodName resources ignoreIfExists =>
    keeping catalog
      (CreateFunction.run catalog now function className methodName resources ignoreIfExists)
  | dropFunction function ignoreIfNotExists =>
    keeping catalog (DropFunction.run catalog function ignoreIfNotExists)
  | createView view query comment replaceIfExists =>
    keeping catalog (CreateView.run catalog now view query comment replaceIfExists)
  | alterViewSetQuery view query =>
    keeping catalog (AlterViewSetQuery.run catalog now view query)
  | dropView view ignoreIfNotExists =>
    keeping catalog (DropView.run catalog view ignoreIfNotExists)
  | createProcedure name queryList lang ignoreIfExists =>
    keeping catalog (CreateProcedure.run catalog now name queryList lang ignoreIfExists)
  | alterProcedureSetName name newName =>
    keeping catalog (AlterProcedureSetName.run catalog now name newName)
  | alterProcedureSetQuery name queryList =>
    keeping catalog (AlterProcedureSetQuery.run catalog now name queryList)
  | dropProcedure name ignoreIfNotExists =>
    keeping catalog (DropProcedure.run catalog name ignoreIfNotExists)
  | createTimedEvent name definer schedule description proc enable ignoreIfExists =>
    keeping catalog
      (CreateTimedEvent.run catalog now name definer schedule description proc enable
        ignoreIfExists)
  | alterTimedEventSetName name newName =>
    keeping catalog (AlterTimedEventSetName.run catalog now name newName)
  | alterTimedEventSetDefiner name definer =>
    keeping catalog (AlterTimedEventSetDefiner.run catalog now name definer)
  | alterTimedEventSetSchedule name schedule =>
    keeping catalog (AlterTimedEventSetSchedule.run catalog now name schedule)
  | alterTimedEventSetEnable name enable =>
    keeping catalog (AlterTimedEventSetEnable.run catalog now name enable)
  | dropTimedEvent name ignoreIfNotExists =>
    keeping catalog (DropTimedEvent.run catalog name ignoreIfNotExists)
  | useDatabase db => catalog.setCurrentDb db
  | showDatabases _ => pure catalog
  | showTables database _ =>
    keeping catalog
      (JdbcCatalog.listTables (catalog.databaseOf database) catalog.userInSession)
  | showFunctions .. => pure catalog
  | showProcedures _ => pure catalog
  | showEvents _ => pure catalog
  | showGrants _ => pure catalog
  | showCreateTable table => keeping catalog (ShowCreateTable.run catalog table)
  | showSchema _ => pure catalog
  | descDatabase name => keeping catalog (JdbcCatalog.getDatabase name catalog.userInSession)
  | descTable table _ =>
    keeping catalog (tableSchema env catalog table.table (catalog.databaseOf table.database))
  | descFunction .. => pure catalog
  | descProcedure proc => keeping catalog (JdbcCatalog.getProcedure proc catalog.userInSession)
  | descEvent event => keeping catalog (JdbcCatalog.getTimedEvent event catalog.userInSession)
  | explain .. => pure catalog
  | mqlQuery _ => pure catalog
  | createTempView .. => pure catalog
  | createTempFunction .. => pure catalog
  | dropTempFunction .. => pure catalog
  | insertInto .. => pure catalog
  | statement _ => pure catalog
  | createGroup name desc ignoreIfExists =>
    keeping catalog (CreateGroup.run catalog now name desc ignoreIfExists)
  | alterGroupSetName name newName =>
    keeping catalog (AlterGroupSetName.run catalog now name newName)
  | alterGroupSetComment name comment =>
    keeping catalog (AlterGroupSetComment.run catalog now name comment)
  | alterGroupAddUser name users =>
    keeping catalog (AlterGroupAddUser.run catalog now name users.1)
  | alterGroupRemoveUser name users =>
    keeping catalog (AlterGroupRemoveUser.run catalog name users.1)
  | dropGroup name ignoreIfNotExists cascade =>
    keeping catalog (DropGroup.run catalog name ignoreIfNotExists cascade)
  | grantGrantToUser grants user =>
    keeping catalog (GrantGrantToUser.run catalog now grants.1 user)
  | grantGrantToGroup grants group =>
    keeping catalog (GrantGrantToGroup.run catalog now grants.1 group)
  | revokeGrantFromUser grants user =>
    keeping catalog (RevokeGrantFromUser.run catalog now grants.1 user)
  | revokeGrantFromGroup grants group =>
    keeping catalog (RevokeGrantFromGroup.run catalog now grants.1 group)
  | grantPrivilegeToUser privileges user =>
    keeping catalog (GrantPrivilegeToUser.run catalog now privileges.1 user)
  | grantPrivilegeToGroup privileges group =>
    keeping catalog (GrantPrivilegeToGroup.run catalog now privileges.1 group)
  | revokePrivilegeFromUser privileges user =>
    keeping catalog (RevokePrivilegeFromUser.run catalog now privileges.1 user)
  | revokePrivilegeFromGroup privileges group =>
    keeping catalog (RevokePrivilegeFromGroup.run catalog now privileges.1 group)
  | grantResourceToUser privileges tableIdentifier user =>
    keeping catalog (GrantResourceToUser.run env catalog now privileges.1 tableIdentifier user)
  | grantResourceToGroup privileges tableIdentifier group =>
    keeping catalog (GrantResourceToGroup.run env catalog now privileges.1 tableIdentifier group)
  | revokeResourceFromUser privileges tableIdentifier user =>
    keeping catalog (RevokeResourceFromUser.run catalog privileges.1 tableIdentifier user)
  | revokeResourceFromGroup privileges tableIdentifier group =>
    keeping catalog (RevokeResourceFromGroup.run env catalog now privileges.1 tableIdentifier group)
  | showGroups _ => pure catalog
  | showUsersInGroup group _ => keeping catalog (catalog.listUserInGroup group)
  | showSysInfo => pure catalog
  | showJobInfo => pure catalog
  | showRunningEventInfo => pure catalog

end Moonbox.Core
