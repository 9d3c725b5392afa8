import Moonbox.Catalog.Entities

/-!
# `JdbcDao`

The statements of the catalog. Each is an action that runs nothing until it is part of an action
that is run.
-/

namespace Moonbox.Catalog

open Relational

/-- Two names are the same to a lookup when `collate`, the collation of the catalog database,
agrees on them. `toLowerCase` is the one of the platform. -/
class Names where
  collate : String → String
  toLowerCase : String → String

/-- Names that are the same only when they are equal. -/
@[reducible] def exactNames : Names := ⟨id, String.toLower⟩

variable [Names]

def sameName (a b : String) : Bool := Names.collate a == Names.collate b

lemma sameName_iff {a b : String} :
    sameName a b = true ↔ Names.collate a = Names.collate b := by
  simp [sameName]

lemma sameName_self (a : String) : sameName a a = true := sameName_iff.mpr rfl

namespace JdbcDao

/-! ### Base methods -/


def query (k : Kind) (cond : Entity k → Bool) : DBIO (List (Entity k)) :=
  Action.query fun s => (s k).rows.filter cond

def queryOneOption (k : Kind) (cond : Entity k → Bool) : DBIO (Option (Entity k)) :=
  Action.query fun s => (s k).rows.find? cond

def exist (k : Kind) (cond : Entity k → Bool) : DBIO Bool :=
  Action.query fun s => (s k).rows.any cond

/-- A whole row is written over the rows that meet the condition. -/
def updateEntity (k : Kind) (cond : Entity k → Bool) (data : Entity k) : DBIO Unit :=
  Action.update k cond fun _ => data

/-! ### Organizations -/

def createOrganization (organization : OrganizationEntity) : DBIO Nat :=
  Action.insert .organizations organization

def deleteOrganization (organization : String) : DBIO Unit :=
  Action.delete .organizations fun t => sameName t.name organization

def renameOrganization (organization newOrganization : String) (updateBy now : Nat) : DBIO Unit :=
  Action.update .organizations (fun t => sameName t.name organization) fun t =>
    { t with name := newOrganization, updateBy := updateBy, updateTime := now }

def updateOrganization (organizationDefinition : OrganizationEntity) : DBIO Unit :=
  updateEntity .organizations (fun t => t.id == organizationDefinition.id) organizationDefinition

def getOrganizationById (organizationId : Nat) : DBIO (Option OrganizationEntity) :=
  queryOneOption .organizations fun t => t.id == organizationId

def getOrganization (organization : String) : DBIO (Option OrganizationEntity) :=
  queryOneOption .organizations fun t => sameName t.name organization

def organizationExists (organization : String) : DBIO Bool :=
  exist .organizations fun t => sameName t.name organization

/-! ### Users -/

def createUser (user : UserEntity) : DBIO Nat := Action.insert .users user

def deleteUser (userId : Nat) : DBIO Unit := Action.delete .users fun t => t.id == userId

def deleteUsers (organizationId : Nat) : DBIO Unit :=
  Action.delete .users fun t => t.organizationId == organizationId

def updateUser (user : UserEntity) : DBIO Unit :=
  updateEntity .users (fun t => t.id == user.id) user

def renameUser (user newUser : String) (updateBy now : Nat) : DBIO Unit :=
  Action.update .users (fun t => sameName t.name user) fun t =>
    { t with name := newUser, updateBy := updateBy, updateTime := now }

def getUserById (userId : Int) : DBIO (Option UserEntity) :=
  queryOneOption .users fun t => t.id == userId

def getUser (organizationId : Nat) (user : String) : DBIO (Option UserEntity) :=
  queryOneOption .users fun t => t.organizationId == organizationId && sameName t.name user

def userExists (organizationId : Nat) (user : String) : DBIO Bool :=
  exist .users fun t => t.organizationId == organizationId && sameName t.name user

/-- The users of the organization, each joined with the user who created it. -/
def listUsers (organizationId : Nat) : DBIO (List (UserEntity × UserEntity)) :=
  Action.query fun s =>
    ((s .users).rows.filter fun t => t.organizationId == organizationId).flatMap fun t =>
      ((s .users).rows.filter fun u => t.createBy == u.id).map fun u => (t, u)

/-! ### Procedures -/

def createProcedure (procedure : ProcedureEntity) : DBIO Nat :=
  Action.insert .procedures procedure

def deleteProcedure (procedureId : Nat) : DBIO Unit :=
  Action.delete .procedures fun t => t.id == procedureId

def deleteProcedures (organizationId : Nat) : DBIO Unit :=
  Action.delete .procedures fun t => t.organizationId == organizationId

def renameProcedure (organizationId : Nat) (procedure newProcedure : String) (updateBy now : Nat) :
    DBIO Unit :=
  Action.update .procedures
    (fun t => t.organizationId == organizationId && sameName t.name procedure) fun t =>
    { t with name := newProcedure, updateBy := updateBy, updateTime := now }

def updateProcedure (procDefinition : ProcedureEntity) : DBIO Unit :=
  updateEntity .procedures (fun t => t.id == procDefinition.id) procDefinition

def getProcedureById (procedureId : Nat) : DBIO (Option ProcedureEntity) :=
  queryOneOption .procedures fun t => t.id == procedureId

def getProcedure (organizationId : Nat) (procedure : String) : DBIO (Option ProcedureEntity) :=
  queryOneOption .procedures fun t =>
    t.organizationId == organizationId && sameName t.name procedure

def procedureExists (organizationId : Nat) (procedure : String) : DBIO Bool :=
  exist .procedures fun t => t.organizationId == organizationId && sameName t.name procedure

def listProcedures (organizationId : Nat) : DBIO (List (ProcedureEntity × UserEntity)) :=
  Action.query fun s =>
    ((s .procedures).rows.filter fun t => t.organizationId == organizationId).flatMap fun t =>
      ((s .users).rows.filter fun u => t.createBy == u.id).map fun u => (t, u)

/-! ### Queries -/

def createQuery (query : QueryEntity) : DBIO Nat := Action.insert .queries query

def deleteQuery (queryId : Nat) : DBIO Unit := Action.delete .queries fun t => t.id == queryId

def deleteQueries (organizationId : Nat) : DBIO Unit :=
  Action.delete .queries fun t => t.organizationId == organizationId

def updateQuery (queryDefinition : QueryEntity) : DBIO Unit :=
  updateEntity .queries (fun t => t.id == queryDefinition.id) queryDefinition

def getQuery (organizationId : Nat) (query : String) : DBIO (Option QueryEntity) :=
  queryOneOption .queries fun t => t.organizationId == organizationId && sameName t.name query

def queryExists (organizationId : Nat) (query : String) : DBIO Bool :=
  exist .queries fun t => t.organizationId == organizationId && sameName t.name query

/-! ### Timed events -/

def createTimedEvent (event : TimedEventEntity) : DBIO Nat := Action.insert .timedEvents event

def deleteTimedEvent (organizationId : Nat) (event : String) : DBIO Unit :=
  Action.delete .timedEvents fun t => t.organizationId == organizationId && sameName t.name event

def deleteTimedEvents (organizationId : Nat) : DBIO Unit :=
  Action.delete .timedEvents fun t => t.organizationId == organizationId

def renameTimedEvent (organizationId : Nat) (event newEvent : String) (updateBy now : Nat) :
    DBIO Unit :=
  Action.update .timedEvents
    (fun t => t.organizationId == organizationId && sameName t.name event) fun t =>
    { t with name := newEvent, updateBy := updateBy, updateTime := now }

def updateTimedEvent (eventDefinition : TimedEventEntity) : DBIO Unit :=
  updateEntity .timedEvents (fun t => t.id == eventDefinition.id) eventDefinition

def getTimedEvent (organizationId : Nat) (event : String) : DBIO (Option TimedEventEntity) :=
  queryOneOption .timedEvents fun t => t.organizationId == organizationId && sameName t.name event

def timedEventExists (organizationId : Nat) (event : String) : DBIO Bool :=
  exist .timedEvents fun t => t.organizationId == organizationId && sameName t.name event

def timedEventExistsOf (organizationId procId : Nat) : DBIO Bool :=
  exist .timedEvents fun t => t.organizationId == organizationId && t.procedure == procId

def listTimedEvents (organizationId : Nat) : DBIO (List TimedEventEntity) :=
  query .timedEvents fun t => t.organizationId == organizationId

/-! ### Databases -/

def createDatabase (database : DatabaseEntity) : DBIO Nat := Action.insert .databases database

def deleteDatabase (organizationId : Nat) (database : String) : DBIO Unit :=
  Action.delete .databases fun t => t.organizationId == organizationId && sameName t.name database

def deleteDatabases (organizationId : Nat) : DBIO Unit :=
  Action.delete .databases fun t => t.organizationId == organizationId

def renameDatabase (organizationId : Nat) (database newDatabase : String) (updateBy now : Nat) :
    DBIO Unit :=
  Action.update .databases
    (fun t => t.organizationId == organizationId && sameName t.name database) fun t =>
    { t with name := newDatabase, updateBy := updateBy, updateTime := now }

def updateDatabase (dbDefinition : DatabaseEntity) : DBIO Unit :=
  updateEntity .databases (fun t => t.id == dbDefinition.id) dbDefinition

def getDatabase (organizationId : Nat) (database : String) : DBIO (Option DatabaseEntity) :=
  queryOneOption .databases fun t =>
    t.organizationId == organizationId && sameName t.name database

def databaseExists (organizationId : Nat) (database : String) : DBIO Bool :=
  exist .databases fun t => t.organizationId == organizationId && sameName t.name database

def listDatabaseIds (organizationId : Nat) : DBIO (List Nat) :=
  Action.query fun s =>
    ((s .databases).rows.filter fun t => t.organizationId == organizationId).map
      DatabaseEntity.id

/-- Only creators that belong to the same organization are joined. -/
def listDatabases (organizationId : Nat) : DBIO (List (DatabaseEntity × UserEntity)) :=
  Action.query fun s =>
    ((s .databases).rows.filter fun t => t.organizationId == organizationId).flatMap fun t =>
      ((s .users).rows.filter fun u =>
        u.organizationId == organizationId && t.createBy == u.id).map fun u => (t, u)

/-! ### Tables -/

def createTable (table : TableEntity) : DBIO Nat := Action.insert .tables table

def deleteTables (databaseId : Nat) : DBIO Unit :=
  Action.delete .tables fun t => t.databaseId == databaseId

def deleteTable (databaseId : Nat) (table : String) : DBIO Unit :=
  Action.delete .tables fun t => t.databaseId == databaseId && sameName t.name table

def updateTable (table : TableEntity) : DBIO Unit :=
  updateEntity .tables (fun t => t.id == table.id) table

def renameTable (databaseId : Nat) (table newTable : String) (updateBy now : Nat) : DBIO Unit :=
  Action.update .tables (fun t => t.databaseId == databaseId && sameName t.name table) fun t =>
    { t with name := newTable, updateBy := updateBy, updateTime := now }

def getTable (databaseId : Nat) (table : String) : DBIO (Option TableEntity) :=
  queryOneOption .tables fun t => t.databaseId == databaseId && sameName t.name table

def tableExists (databaseId : Nat) (table : String) : DBIO Bool :=
  exist .tables fun t => t.databaseId == databaseId && sameName t.name table

def listTables (databaseId : Nat) : DBIO (List (TableEntity × UserEntity)) :=
  Action.query fun s =>
    ((s .tables).rows.filter fun t => t.databaseId == databaseId).flatMap fun t =>
      ((s .users).rows.filter fun u => t.createBy == u.id).map fun u => (t, u)

/-! ### Functions -/

def createFunction (function : FunctionEntity) : DBIO Nat := Action.insert .functions function

def deleteFunction (databaseId : Nat) (function : String) : DBIO Unit :=
  Action.delete .functions fun t => t.databaseId == databaseId && sameName t.name function

def deleteFunctions (databaseId : Nat) : DBIO Unit :=
  Action.delete .functions fun t => t.databaseId == databaseId

def renameFunction (databaseId : Nat) (func newFunc : String) (updateBy now : Nat) : DBIO Unit :=
  Action.update .functions (fun t => t.databaseId == databaseId && sameName t.name func) fun t =>
    { t with name := newFunc, updateBy := updateBy, updateTime := now }

def getFunction (databaseId : Nat) (function : String) : DBIO (Option FunctionEntity) :=
  queryOneOption .functions fun t => t.databaseId == databaseId && sameName t.name function

def functionExists (databaseId : Nat) (function : String) : DBIO Bool :=
  exist .functions fun t => t.databaseId == databaseId && sameName t.name function

/-- A function without resources is not joined with anything. -/
def listFunctions (databaseId : Nat) : DBIO (List (FunctionEntity × FunctionResourceEntity)) :=
  Action.query fun s =>
    ((s .functions).rows.filter fun t => t.databaseId == databaseId).flatMap fun t =>
      ((s .functionResources).rows.filter fun r => t.id == r.funcId).map fun r => (t, r)

def createFunctionResources (resources : List FunctionResourceEntity) : DBIO Unit :=
  Action.insertMultiple .functionResources resources

def listFunctionResources (funcId : Nat) : DBIO (List FunctionResourceEntity) :=
  query .functionResources fun t => t.funcId == funcId

def deleteFunctionResources (funcId : Nat) : DBIO Unit :=
  Action.delete .functionResources fun t => t.funcId == funcId

/-! ### Database privileges -/

def createDatabasePrivilege (dbPrivilege : List DatabasePrivilegeEntity) : DBIO Unit :=
  Action.insertMultiple .databasePrivileges dbPrivilege

def deleteDatabasePrivilege (userId databaseId : Nat) (privileges : List String) : DBIO Unit :=
  Action.delete .databasePrivileges fun t =>
    t.userId == userId && t.databaseId == databaseId && privileges.any (sameName t.privilegeType)

def deleteDatabasePrivilegeByUser (userId : Nat) : DBIO Unit :=
  Action.delete .databasePrivileges fun t => t.userId == userId

def getDatabasePrivilege (userId databaseId : Nat) : DBIO (List DatabasePrivilegeEntity) :=
  query .databasePrivileges fun t => t.userId == userId && t.databaseId == databaseId

/-! ### Table privileges -/

def createTablePrivilege (tablePrivilege : List TablePrivilegeEntity) : DBIO Unit :=
  Action.insertMultiple .tablePrivileges tablePrivilege

def deleteTablePrivilege (userId databaseId tableId : Nat) (privileges : List String) :
    DBIO Unit :=
  Action.delete .tablePrivileges fun t =>
    t.userId == userId && t.databaseId == databaseId && t.tableId == tableId &&
      privileges.any (sameName t.privilegeType)

def deleteTablePrivilegeByTable (databaseId tableId : Nat) : DBIO Unit :=
  Action.delete .tablePrivileges fun t => t.databaseId == databaseId && t.tableId == tableId

def deleteTablePrivilegeByUser (userId : Nat) : DBIO Unit :=
  Action.delete .tablePrivileges fun t => t.userId == userId

def getTablePrivilege (userId databaseId tableId : Nat) : DBIO (List TablePrivilegeEntity) :=
  query .tablePrivileges fun t =>
    t.userId == userId && t.databaseId == databaseId && t.tableId == tableId

/-! ### Column privileges -/

def createColumnPrivilege (columnPrivilege : List ColumnPrivilegeEntity) : DBIO Unit :=
  Action.insertMultiple .columnPrivileges columnPrivilege

def deleteColumnPrivilege (userId databaseId tableId : Nat) (columns : List String)
    (privilege : String) : DBIO Unit :=
  Action.delete .columnPrivileges fun t =>
    t.userId == userId && t.databaseId == databaseId && t.tableId == tableId &&
      sameName t.privilegeType privilege && columns.any (sameName t.column)

def deleteColumnPrivilegeByTable (databaseId tableId : Nat) : DBIO Unit :=
  Action.delete .columnPrivileges fun t => t.databaseId == databaseId && t.tableId == tableId

def deleteColumnPrivilegeByUser (userId : Nat) : DBIO Unit :=
  Action.delete .columnPrivileges fun t => t.userId == userId

def getColumnPrivilege (userId databaseId tableId : Nat) : DBIO (List ColumnPrivilegeEntity) :=
  query .columnPrivileges fun t =>
    t.userId == userId && t.databaseId == databaseId && t.tableId == tableId

/-! ### Groups -/

def createGroup (group : GroupEntity) : DBIO Nat := Action.insert .groups group

def deleteGroup (groupId : Nat) : DBIO Unit := Action.delete .groups fun t => t.id == groupId

def renameGroup (organizationId : Nat) (group newGroup : String) (updateBy now : Nat) :
    DBIO Unit :=
  Action.update .groups (fun t => t.organizationId == organizationId && sameName t.name group)
    fun t => { t with name := newGroup, updateBy := updateBy, updateTime := now }

def updateGroup (groupDefinition : GroupEntity) : DBIO Unit :=
  updateEntity .groups (fun t => t.id == groupDefinition.id) groupDefinition

def getGroup (organizationId : Nat) (group : String) : DBIO (Option GroupEntity) :=
  queryOneOption .groups fun t => t.organizationId == organizationId && sameName t.name group

def groupExists (organizationId : Nat) (group : String) : DBIO Bool :=
  exist .groups fun t => t.organizationId == organizationId && sameName t.name group

def listGroups (organizationId : Nat) : DBIO (List GroupEntity) :=
  query .groups fun t => t.organizationId == organizationId

def createGroupUserRel (rels : List GroupUserRelEntity) : DBIO Unit :=
  Action.insertMultiple .groupUserRels rels

def deleteGroupUserRels (groupId : Nat) (userIds : List Nat) : DBIO Unit :=
  Action.delete .groupUserRels fun rel => rel.groupId == groupId && userIds.contains rel.userId

def deleteGroupUserRelsByGroup (groupId : Nat) : DBIO Unit :=
  Action.delete .groupUserRels fun rel => rel.groupId == groupId

def deleteGroupUserRelsByUser (userId : Nat) : DBIO Unit :=
  Action.delete .groupUserRels fun rel => rel.userId == userId

/-- The names of the members of the group. -/
def getGroupUserRelsByGroup (groupId : Nat) : DBIO (List String) :=
  Action.query fun s =>
    ((s .groupUserRels).rows.filter fun rel => rel.groupId == groupId).flatMap fun rel =>
      ((s .users).rows.filter fun user => rel.userId == user.id).map UserEntity.name

/-! ### Initialization -/

/-- What is there when the catalog starts for the first time. -/
def initializeIfNeeded (encryptSHA : String → String) (now : Nat) : DBIO Unit := do
  let id ← getOrganization "SYSTEM" >>= fun
    | some org => pure org.id
    | none => createOrganization
      { name := "SYSTEM", config := [], createBy := -1, createTime := now, updateBy := -1
        updateTime := now }
  getDatabase id "default" >>= fun
    | some _ => pure ()
    | none => do
      let _ ← createDatabase
        { name := "default", organizationId := id, properties := [], isLogical := true
          createBy := -1, createTime := now, updateBy := -1, updateTime := now }
  getUser id "ROOT" >>= fun
    | some _ => pure ()
    | none => do
      let _ ← createUser
        { name := "ROOT", password := encryptSHA "123456", organizationId := id, createBy := -1
          createTime := now, updateBy := -1, updateTime := now }

/-! The statements that write unfold to the writes they are. -/

attribute [simp]
  updateEntity createOrganization deleteOrganization renameOrganization updateOrganization
  createUser deleteUser deleteUsers updateUser renameUser createProcedure deleteProcedure
  deleteProcedures renameProcedure updateProcedure createQuery deleteQuery deleteQueries
  updateQuery createTimedEvent deleteTimedEvent deleteTimedEvents renameTimedEvent
  updateTimedEvent createDatabase deleteDatabase deleteDatabases renameDatabase updateDatabase
  createTable deleteTables deleteTable updateTable renameTable createFunction deleteFunction
  deleteFunctions renameFunction createFunctionResources deleteFunctionResources
  createDatabasePrivilege deleteDatabasePrivilege deleteDatabasePrivilegeByUser
  createTablePrivilege deleteTablePrivilege deleteTablePrivilegeByTable
  deleteTablePrivilegeByUser createColumnPrivilege deleteColumnPrivilege
  deleteColumnPrivilegeByTable deleteColumnPrivilegeByUser createGroup deleteGroup renameGroup
  updateGroup createGroupUserRel deleteGroupUserRels deleteGroupUserRelsByGroup
  deleteGroupUserRelsByUser

end JdbcDao

end Moonbox.Catalog
