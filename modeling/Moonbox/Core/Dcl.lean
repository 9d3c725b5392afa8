import Moonbox.Core.Account

/-!
# DCL commands

Groups, the rights of users and the privileges on databases, tables and columns.
-/

namespace Moonbox.Core

open Catalog Relational

variable [Names] (env : Env) (catalog : MoonboxCatalog) (now : Nat)

/-! ### Groups -/

def CreateGroup.run (name : String) (desc : Option String) (ignoreIfExists : Bool) : DBIO Unit :=
  JdbcCatalog.createGroup { name := name, desc := desc } ignoreIfExists catalog.userInSession now

def AlterGroupSetName.run (name newName : String) : DBIO Unit :=
  JdbcCatalog.renameGroup name newName catalog.userInSession now

def AlterGroupSetComment.run (name comment : String) : DBIO Unit :=
  JdbcCatalog.alterGroup { name := name, desc := some comment } catalog.userInSession now

def AlterGroupAddUser.run (name : String) (users : List String) : DBIO Unit :=
  JdbcCatalog.createGroupUserRel { group := name, users := users } catalog.userInSession now

def AlterGroupRemoveUser.run (name : String) (users : List String) : DBIO Unit :=
  JdbcCatalog.dropGroupUserRel { group := name, users := users } catalog.userInSession

def DropGroup.run (name : String) (ignoreIfNotExists cascade : Bool) : DBIO Unit :=
  JdbcCatalog.dropGroup name ignoreIfNotExists cascade catalog.userInSession

/-! ### Rights -/

/-- The grant flags of the listed rights are set to `value`. -/
def setGrants (value : Bool) (grants : List RolePrivilege) (d : CatalogUser) : CatalogUser :=
  { d with
    grantAccount := if grants.contains .ACCOUNT then value else d.grantAccount
    grantDdl := if grants.contains .DDL then value else d.grantDdl
    grantDcl := if grants.contains .DCL then value else d.grantDcl }

/-- The flags of the listed rights are set to `value`. -/
def setPrivileges (value : Bool) (privileges : List RolePrivilege) (d : CatalogUser) :
    CatalogUser :=
  { d with
    account := if privileges.contains .ACCOUNT then value else d.account
    ddl := if privileges.contains .DDL then value else d.ddl
    dcl := if privileges.contains .DCL then value else d.dcl }

/-- Run a command for every member of the group. -/
def forUsersInGroup (group : String) (run : String → DBIO Unit) : DBIO Unit := do
  let users ← catalog.listUserInGroup group
  Action.forEach run users

def GrantGrantToUser.run (grants : List RolePrivilege) (user : String) : DBIO Unit :=
  changeUser catalog.getCurrentOrg user (setGrants true grants) catalog.userInSession now

def GrantGrantToGroup.run (grants : List RolePrivilege) (group : String) : DBIO Unit :=
  forUsersInGroup catalog group (GrantGrantToUser.run catalog now grants)

def RevokeGrantFromUser.run (grants : List RolePrivilege) (user : String) : DBIO Unit :=
  changeUser catalog.getCurrentOrg user (setGrants false grants) catalog.userInSession now

def RevokeGrantFromGroup.run (grants : List RolePrivilege) (group : String) : DBIO Unit :=
  forUsersInGroup catalog group (RevokeGrantFromUser.run catalog now grants)

def GrantPrivilegeToUser.run (privileges : List RolePrivilege) (user : String) : DBIO Unit :=
  changeUser catalog.getCurrentOrg user (setPrivileges true privileges) catalog.userInSession now

def GrantPrivilegeToGroup.run (privileges : List RolePrivilege) (group : String) : DBIO Unit :=
  forUsersInGroup catalog group (GrantPrivilegeToUser.run catalog now privileges)

def RevokePrivilegeFromUser.run (privileges : List RolePrivilege) (user : String) : DBIO Unit :=
  changeUser catalog.getCurrentOrg user (setPrivileges false privileges) catalog.userInSession now

def RevokePrivilegeFromGroup.run (privileges : List RolePrivilege) (group : String) : DBIO Unit :=
  forUsersInGroup catalog group (RevokePrivilegeFromUser.run catalog now privileges)

/-! ### Privileges on databases, tables and columns -/

def illegalGrantCommand : String := "Illegal grant command."

/-- Where the two sorts of column privilege differ is which type each is stored as. A privilege
that is not on columns has no case. -/
def columnsOf (onSelect onUpdate : String) :
    List ResourcePrivilege → DBIO (List (String × String))
  | [] => pure []
  | .columnSelect column :: privileges => do
    let columns ← columnsOf onSelect onUpdate privileges
    pure ((column.map fun name => (name, onSelect)) ++ columns)
  | .columnUpdate column :: privileges => do
    let columns ← columnsOf onSelect onUpdate privileges
    pure ((column.map fun name => (name, onUpdate)) ++ columns)
  | _ :: _ => .throw "scala.MatchError"

/-- The columns that the schema does not have. -/
def missingColumns (columns : List (String × String)) (schema : List String) : List String :=
  (columns.map Prod.fst).eraseDups.filter fun name => !schema.contains name

/-- The distinct types of every column. -/
def groupColumns (columns : List (String × String)) : List (String × List String) :=
  (columns.map Prod.fst).eraseDups.map fun name =>
    (name, ((columns.filter fun p => p.1 == name).map Prod.snd).eraseDups)

def requireColumns (columns : List (String × String)) (schema : List String) : DBIO Unit :=
  if missingColumns columns schema = [] then pure ()
  else .throw (", ".intercalate (missingColumns columns schema) ++ " does not exist")

/-- The four commands on resources go through the same cases and differ in what they do on each
level. -/
def onResource (privileges : List ResourcePrivilege) (tableIdentifier : TableIdentifier)
    (onDatabase : String → DBIO Unit)
    (onTable onColumns : String → String → List ResourcePrivilege → DBIO Unit) : DBIO Unit :=
  let db := catalog.databaseOf tableIdentifier.database
  let table := tableIdentifier.table
  if db = "*" then
    if table ≠ "*" ∨ privileges.any ResourcePrivilege.isColumnLevel then
      .throw illegalGrantCommand
    else do
      let dbs ← JdbcCatalog.listDatabases catalog.userInSession
      Action.forEach (fun catalogDb => onDatabase catalogDb.name) dbs
  else if table = "*" then do
    catalog.requireDbExists db
    if privileges.any ResourcePrivilege.isColumnLevel then .throw illegalGrantCommand
    else onDatabase db
  else do
    catalog.requireDbExists db
    catalog.requireTableExists db table
    let (tableLevel, columnLevel) := privileges.span fun p => !p.isColumnLevel
    if tableLevel ≠ [] then onTable db table tableLevel else pure ()
    if columnLevel ≠ [] then onColumns db table privileges else pure ()

def GrantResourceToUser.run (privileges : List ResourcePrivilege)
    (tableIdentifier : TableIdentifier) (user : String) : DBIO Unit := do
  MoonboxCatalog.requireUserExists catalog.getCurrentOrg user
  onResource catalog privileges tableIdentifier
    (fun db => JdbcCatalog.createDatabasePrivilege
      { user := user, database := db, privileges := privileges.map ResourcePrivilege.NAME }
      catalog.userInSession now)
    (fun db table tableLevel => JdbcCatalog.createTablePrivilege
      { user := user
        database := db
        table := table
        privileges := tableLevel.map ResourcePrivilege.NAME }
      catalog.userInSession now)
    (fun db table privileges => do
      let schema ← tableSchema env catalog table db
      let columns ← columnsOf "SELECT" "UPDATE" privileges
      requireColumns columns schema
      JdbcCatalog.createColumnPrivilege
        { user := user, database := db, table := table, privilege := groupColumns columns }
        catalog.userInSession now)

def GrantResourceToGroup.run (privileges : List ResourcePrivilege)
    (tableIdentifier : TableIdentifier) (group : String) : DBIO Unit := do
  let users ← catalog.listUserInGroup group
  Action.forEach (MoonboxCatalog.requireUserExists catalog.getCurrentOrg) users
  onResource catalog privileges tableIdentifier
    (fun db => Action.forEach (fun user => JdbcCatalog.createDatabasePrivilege
      { user := user, database := db, privileges := privileges.map ResourcePrivilege.NAME }
      catalog.userInSession now) users)
    (fun db table tableLevel => Action.forEach (fun user => JdbcCatalog.createTablePrivilege
      { user := user
        database := db
        table := table
        privileges := tableLevel.map ResourcePrivilege.NAME }
      catalog.userInSession now) users)
    (fun db table privileges => do
      let schema ← tableSchema env catalog table db
      let columns ← columnsOf "SELECT" "SELECT" privileges
      requireColumns columns schema
      Action.forEach (fun user => JdbcCatalog.createColumnPrivilege
        { user := user, database := db, table := table, privilege := groupColumns columns }
        catalog.userInSession now) users)

/-- The columns are not looked up in the schema. -/
def RevokeResourceFromUser.run (privileges : List ResourcePrivilege)
    (tableIdentifier : TableIdentifier) (user : String) : DBIO Unit := do
  MoonboxCatalog.requireUserExists catalog.getCurrentOrg user
  onResource catalog privileges tableIdentifier
    (fun db => JdbcCatalog.dropDatabasePrivilege user db
      (privileges.map ResourcePrivilege.NAME) catalog.userInSession)
    (fun db table tableLevel => JdbcCatalog.dropTablePrivilege user db table
      (tableLevel.map ResourcePrivilege.NAME) catalog.userInSession)
    (fun db table privileges => do
      let columns ← columnsOf "SELECT" "SELECT" privileges
      JdbcCatalog.dropColumnPrivilege user db table (groupColumns columns)
        catalog.userInSession)

/-- On the level of the table the privileges are created. -/
def RevokeResourceFromGroup.run (privileges : List ResourcePrivilege)
    (tableIdentifier : TableIdentifier) (group : String) : DBIO Unit := do
  let users ← catalog.listUserInGroup group
  Action.forEach (MoonboxCatalog.requireUserExists catalog.getCurrentOrg) users
  onResource catalog privileges tableIdentifier
    (fun db => Action.forEach (fun user => JdbcCatalog.dropDatabasePrivilege user db
      (privileges.map ResourcePrivilege.NAME) catalog.userInSession) users)
    (fun db table tableLevel => Action.forEach (fun user => JdbcCatalog.createTablePrivilege
      { user := user
        database := db
        table := table
        privileges := tableLevel.map ResourcePrivilege.NAME }
      catalog.userInSession now) users)
    (fun db table privileges => do
      let schema ← tableSchema env catalog table db
      let columns ← columnsOf "SELECT" "SELECT" privileges
      requireColumns columns schema
      Action.forEach (fun user => JdbcCatalog.dropColumnPrivilege user db table
        (groupColumns columns) catalog.userInSession) users)

end Moonbox.Core
