import Moonbox.Catalog.CatalogItem
import Moonbox.Catalog.JdbcDao

/-!
# `JdbcCatalog`

The operations of the catalog. A statement that is run by itself is a step, what is run
transactionally is one step. `now` is the time an operation reads and `caller` its implicit user.
An action that is built inside another and not composed with it is a value that nobody runs.
-/

namespace Moonbox.Catalog

open Relational

def DEFAULT_DATABASE : String := "default"

/-! ### Rows from definitions -/

def QueryEntity.ofDefinition (d : CatalogQuery) (caller : User) (now : Nat) : QueryEntity :=
  { name := d.name
    text := d.text
    organizationId := caller.orgId
    description := d.description
    createBy := caller.userId
    createTime := now
    updateBy := caller.userId
    updateTime := now }

def QueryEntity.altered (e : QueryEntity) (d : CatalogQuery) (caller : User) (now : Nat) :
    QueryEntity :=
  { id := e.id
    name := d.name
    text := d.text
    organizationId := caller.orgId
    description := d.description
    createBy := e.createBy
    createTime := e.createTime
    updateBy := caller.userId
    updateTime := now }

def OrganizationEntity.ofDefinition (d : CatalogOrganization) (caller : User) (now : Nat) :
    OrganizationEntity :=
  { name := d.name
    config := d.config
    description := d.description
    createBy := caller.userId
    createTime := now
    updateBy := caller.userId
    updateTime := now }

def DatabaseEntity.ofOrganization (orgId : Nat) (caller : User) (now : Nat) : DatabaseEntity :=
  { name := DEFAULT_DATABASE
    organizationId := orgId
    properties := []
    isLogical := true
    createBy := caller.userId
    createTime := now
    updateBy := caller.userId
    updateTime := now }

def OrganizationEntity.altered (e : OrganizationEntity) (d : CatalogOrganization)
    (caller : User) (now : Nat) : OrganizationEntity :=
  { id := e.id
    name := d.name
    config := d.config
    description := d.description
    createBy := e.createBy
    createTime := e.createTime
    updateBy := caller.userId
    updateTime := now }

def UserEntity.ofDefinition (d : CatalogUser) (orgId : Nat) (caller : User) (now : Nat) :
    UserEntity :=
  { name := d.name
    password := d.password
    account := d.account
    ddl := d.ddl
    dcl := d.dcl
    grantAccount := d.grantAccount
    grantDdl := d.grantDdl
    grantDcl := d.grantDcl
    isSA := d.isSA
    organizationId := orgId
    configuration := d.configuration
    createBy := caller.userId
    createTime := now
    updateBy := caller.userId
    updateTime := now }

def UserEntity.altered (e : UserEntity) (d : CatalogUser) (caller : User) (now : Nat) :
    UserEntity :=
  { id := e.id
    name := d.name
    password := d.password
    account := d.account
    ddl := d.ddl
    dcl := d.dcl
    grantAccount := d.grantAccount
    grantDdl := d.grantDdl
    grantDcl := d.grantDcl
    isSA := d.isSA
    organizationId := e.organizationId
    configuration := d.configuration
    createBy := e.createBy
    createTime := e.createTime
    updateBy := caller.userId
    updateTime := now }

def ProcedureEntity.ofDefinition (d : CatalogProcedure) (caller : User) (now : Nat) :
    ProcedureEntity :=
  { name := d.name
    cmds := d.sqls
    lang := d.lang
    organizationId := caller.orgId
    description := d.description
    createBy := caller.userId
    createTime := now
    updateBy := caller.userId
    updateTime := now }

def ProcedureEntity.altered (e : ProcedureEntity) (d : CatalogProcedure)
    (caller : User) (now : Nat) : ProcedureEntity :=
  { id := e.id
    name := d.name
    cmds := d.sqls
    lang := d.lang
    organizationId := caller.orgId
    description := d.description
    createBy := e.createBy
    createTime := e.createTime
    updateBy := caller.userId
    updateTime := now }

def TimedEventEntity.ofDefinition (d : CatalogTimedEvent) (definer procedure : Nat)
    (caller : User) (now : Nat) : TimedEventEntity :=
  { name := d.name
    organizationId := caller.orgId
    definer := definer
    schedule := d.schedule
    enable := d.enable
    description := d.description
    procedure := procedure
    createBy := caller.userId
    createTime := now
    updateBy := caller.userId
    updateTime := now }

def TimedEventEntity.altered (e : TimedEventEntity) (d : CatalogTimedEvent)
    (definer procedure : Nat) (caller : User) (now : Nat) : TimedEventEntity :=
  { id := e.id
    name := d.name
    organizationId := caller.orgId
    definer := definer
    schedule := d.schedule
    enable := d.enable
    description := d.description
    procedure := procedure
    createBy := e.createBy
    createTime := e.createTime
    updateBy := caller.userId
    updateTime := now }

def DatabaseEntity.ofDefinition (d : CatalogDatabase) (dbName : String) (caller : User)
    (now : Nat) : DatabaseEntity :=
  { name := dbName
    description := d.description
    organizationId := caller.orgId
    properties := d.properties
    isLogical := d.isLogical
    createBy := caller.userId
    createTime := now
    updateBy := caller.userId
    updateTime := now }

def DatabaseEntity.altered (e : DatabaseEntity) (d : CatalogDatabase) (dbName : String)
    (caller : User) (now : Nat) : DatabaseEntity :=
  { id := e.id
    name := dbName
    description := d.description
    organizationId := caller.orgId
    properties := d.properties
    isLogical := d.isLogical
    createBy := e.createBy
    createTime := e.createTime
    updateBy := caller.userId
    updateTime := now }

def TableEntity.ofDefinition (d : CatalogTable) (dbId : Nat) (caller : User) (now : Nat) :
    TableEntity :=
  { name := d.name
    tableType := d.tableType
    description := d.description
    databaseId := dbId
    properties := d.properties
    viewText := d.viewText
    isStream := d.isStream
    tableSize := d.tableSize
    createBy := caller.userId
    createTime := now
    updateBy := caller.userId
    updateTime := now }

def TableEntity.altered (e : TableEntity) (d : CatalogTable) (dbId : Nat) (caller : User)
    (now : Nat) : TableEntity :=
  { id := e.id
    name := d.name
    tableType := d.tableType
    description := d.description
    databaseId := dbId
    properties := d.properties
    viewText := d.viewText
    isStream := d.isStream
    tableSize := d.tableSize
    createBy := e.createBy
    createTime := e.createTime
    updateBy := caller.userId
    updateTime := now }

def FunctionEntity.ofDefinition (d : CatalogFunction) (dbId : Nat) (caller : User) (now : Nat) :
    FunctionEntity :=
  { name := d.name
    databaseId := dbId
    description := d.description
    className := d.className
    methodName := d.methodName
    createBy := caller.userId
    createTime := now
    updateBy := caller.userId
    updateTime := now }

def FunctionResourceEntity.ofResource (funcId : Nat) (caller : User) (now : Nat)
    (resource : FunctionResource) : FunctionResourceEntity :=
  { funcId := funcId
    resourceType := resource.resourceType
    resource := resource.uri
    createBy := caller.userId
    createTime := now
    updateBy := caller.userId
    updateTime := now }

def DatabasePrivilegeEntity.ofType (uId dbId : Nat) (caller : User) (now : Nat)
    (privilegeType : String) : DatabasePrivilegeEntity :=
  { userId := uId
    databaseId := dbId
    privilegeType := privilegeType
    createBy := caller.userId
    createTime := now
    updateBy := caller.userId
    updateTime := now }

def TablePrivilegeEntity.ofType (uId dbId tbId : Nat) (caller : User) (now : Nat)
    (privilegeType : String) : TablePrivilegeEntity :=
  { userId := uId
    databaseId := dbId
    tableId := tbId
    privilegeType := privilegeType
    createBy := caller.userId
    createTime := now
    updateBy := caller.userId
    updateTime := now }

def ColumnPrivilegeEntity.ofType (uId dbId tbId : Nat) (caller : User) (now : Nat)
    (p : String × String) : ColumnPrivilegeEntity :=
  { userId := uId
    databaseId := dbId
    tableId := tbId
    column := p.1
    privilegeType := p.2
    createBy := caller.userId
    createTime := now
    updateBy := caller.userId
    updateTime := now }

def GroupEntity.ofDefinition (d : CatalogGroup) (caller : User) (now : Nat) : GroupEntity :=
  { name := d.name
    organizationId := caller.orgId
    description := d.desc
    createBy := caller.userId
    createTime := now
    updateBy := caller.userId
    updateTime := now }

def GroupEntity.touched (e : GroupEntity) (caller : User) (now : Nat) : GroupEntity :=
  { e with updateBy := caller.userId, updateTime := now }

def GroupUserRelEntity.ofUser (groupId : Nat) (caller : User) (now : Nat) (userId : Nat) :
    GroupUserRelEntity :=
  { groupId := groupId
    userId := userId
    createBy := caller.userId
    createTime := now
    updateBy := caller.userId
    updateTime := now }

variable [Names]

namespace JdbcCatalog

def formatDatabaseName (name : String) : String := Names.toLowerCase name

/-! ### Names and ids -/

def organizationId (org : String) : DBIO Nat := do
  match ← JdbcDao.getOrganization org with
  | some orgEntity => pure orgEntity.id
  | none => .throw (noSuchOrganizationException org)

def userId (orgId : Nat) (user : String) : DBIO Nat := do
  match ← JdbcDao.getUser orgId user with
  | some userEntity => pure userEntity.id
  | none => .throw (noSuchUserException user)

def userName (userId : Int) : DBIO String :=
  if userId = -1 then pure "SYSTEM"
  else do
    match ← JdbcDao.getUserById userId with
    | some userEntity => pure userEntity.name
    | none => .throw "user is deleted."

def procedureName (procId : Nat) : DBIO String := do
  match ← JdbcDao.getProcedureById procId with
  | some procIdEntity => pure procIdEntity.name
  | none => .throw "procedure is deleted."

/-! ### Queries -/

def createQuery (queryDefinition : CatalogQuery) (ignoreIfExists : Bool) (caller : User)
    (now : Nat) : DBIO Unit := do
  match ← JdbcDao.queryExists caller.orgId queryDefinition.name with
  | true =>
    if ignoreIfExists then pure ()
    else .throw (procedureExistsException queryDefinition.name)
  | false =>
    let _ ← JdbcDao.createQuery (.ofDefinition queryDefinition caller now)

def dropQuery (query : String) (ignoreIfNotExists : Bool) (caller : User) : DBIO Unit := do
  match ← JdbcDao.getQuery caller.orgId query with
  | some queryEntity => JdbcDao.deleteQuery queryEntity.id
  | none => if ignoreIfNotExists then pure () else .throw (noSuchQueryException query)

def alterQuery (queryDefinition : CatalogQuery) (caller : User) (now : Nat) : DBIO Unit := do
  match ← JdbcDao.getQuery caller.orgId queryDefinition.name with
  | some queryEntity =>
    JdbcDao.updateQuery (.altered queryEntity queryDefinition caller now)
  | none => .throw (noSuchQueryException queryDefinition.name)

/-! ### Organizations -/

def createOrganization (orgDefinition : CatalogOrganization) (ignoreIfExists : Bool)
    (caller : User) (now : Nat) : DBIO Unit := do
  match ← JdbcDao.organizationExists orgDefinition.name with
  | true =>
    if ignoreIfExists then pure ()
    else .throw (organizationExistsException orgDefinition.name)
  | false =>
    let _ ← Action.transactionally do
      let id ← JdbcDao.createOrganization (.ofDefinition orgDefinition caller now)
      JdbcDao.createDatabase (.ofOrganization id caller now)

/-- The deletions for the groups and for what is in the databases are built and not run. -/
def dropOrganization (org : String) (ignoreIfNotExists cascade : Bool) : DBIO Unit := do
  match ← JdbcDao.getOrganization org with
  | some catalogOrganization =>
    if cascade then
      Action.transactionally do
        let _ ← (fun groupEntities => groupEntities.map fun groupEntity : GroupEntity =>
            let _ : DBIO Unit := JdbcDao.deleteGroupUserRelsByGroup groupEntity.id
            JdbcDao.deleteGroup groupEntity.id) <$>
          JdbcDao.listGroups catalogOrganization.id
        let _ ← (fun dbIds => dbIds.map fun dbId : Nat =>
            let _ : DBIO Unit := JdbcDao.deleteTables dbId
            JdbcDao.deleteFunctions dbId) <$>
          JdbcDao.listDatabaseIds catalogOrganization.id
        JdbcDao.deleteDatabases catalogOrganization.id
        JdbcDao.deleteUsers catalogOrganization.id
        JdbcDao.deleteTimedEvents catalogOrganization.id
        JdbcDao.deleteProcedures catalogOrganization.id
        JdbcDao.deleteQueries catalogOrganization.id
        JdbcDao.deleteOrganization org
    else do
      let databases ← JdbcDao.listDatabases catalogOrganization.id
      let users ← JdbcDao.listUsers catalogOrganization.id
      let events ← JdbcDao.listTimedEvents catalogOrganization.id
      let procedures ← JdbcDao.listProcedures catalogOrganization.id
      let groups ← JdbcDao.listGroups catalogOrganization.id
      if databases.isEmpty && users.isEmpty && events.isEmpty && procedures.isEmpty &&
          groups.isEmpty then
        JdbcDao.deleteOrganization org
      else .throw (nonEmptyException s!"organization {org}")
  | none => if ignoreIfNotExists then pure () else .throw (noSuchOrganizationException org)

def renameOrganization (org newOrg : String) (caller : User) (now : Nat) : DBIO Unit := do
  match ← JdbcDao.organizationExists org with
  | true =>
    match ← JdbcDao.organizationExists newOrg with
    | false => JdbcDao.renameOrganization org newOrg caller.userId now
    | true => .throw (organizationExistsException newOrg)
  | false => .throw (noSuchOrganizationException org)

def alterOrganization (orgDefinition : CatalogOrganization) (caller : User) (now : Nat) :
    DBIO Unit := do
  match ← JdbcDao.getOrganization orgDefinition.name with
  | some orgEntity =>
    JdbcDao.updateOrganization (.altered orgEntity orgDefinition caller now)
  | none => .throw (noSuchOrganizationException orgDefinition.name)

def getOrganization (org : String) : DBIO CatalogOrganization := do
  match ← JdbcDao.getOrganization org with
  | some catalogEntity =>
    pure
      { name := catalogEntity.name
        config := catalogEntity.config
        description := catalogEntity.description }
  | none => .throw (noSuchOrganizationException org)

/-! ### Users -/

def createUser (userDefinition : CatalogUser) (ignoreIfExists : Bool) (caller : User) (now : Nat) :
    DBIO Unit := do
  let orgId ← organizationId userDefinition.org
  match ← JdbcDao.userExists orgId userDefinition.name with
  | true =>
    if ignoreIfExists then pure () else .throw (userExistsException userDefinition.name)
  | false =>
    let _ ← JdbcDao.createUser (.ofDefinition userDefinition orgId caller now)

def dropUser (org user : String) (ignoreIfNotExists : Bool) : DBIO Unit := do
  let orgId ← organizationId org
  match ← JdbcDao.getUser orgId user with
  | some userEntity =>
    Action.transactionally do
      JdbcDao.deleteGroupUserRelsByUser userEntity.id
      JdbcDao.deleteDatabasePrivilegeByUser userEntity.id
      JdbcDao.deleteTablePrivilegeByUser userEntity.id
      JdbcDao.deleteColumnPrivilegeByUser userEntity.id
      JdbcDao.deleteUser userEntity.id
  | none =>
    if ignoreIfNotExists then pure ()
    else .throw (noSuchUserException s!"{user} in your organization.")

def renameUser (org user newUser : String) (caller : User) (now : Nat) : DBIO Unit := do
  let orgId ← organizationId org
  match ← JdbcDao.userExists orgId user with
  | true =>
    match ← JdbcDao.userExists orgId newUser with
    | false => JdbcDao.renameUser user newUser caller.userId now
    | true => .throw (userExistsException newUser)
  | false => .throw (noSuchUserException user)

/-- The whole row is written, from the definition. -/
def alterUser (userDefinition : CatalogUser) (caller : User) (now : Nat) : DBIO Unit := do
  let orgId ← organizationId userDefinition.org
  match ← JdbcDao.getUser orgId userDefinition.name with
  | some userEntity =>
    JdbcDao.updateUser (.altered userEntity userDefinition caller now)
  | none => .throw (noSuchUserException userDefinition.name)

def getUser (org user : String) : DBIO CatalogUser := do
  let orgId ← organizationId org
  match ← JdbcDao.getUser orgId user with
  | some userEntity =>
    let createBy ← userName userEntity.createBy
    pure
      { org := org
        name := userEntity.name
        password := userEntity.password
        account := userEntity.account
        ddl := userEntity.ddl
        dcl := userEntity.dcl
        grantAccount := userEntity.grantAccount
        grantDdl := userEntity.grantDdl
        grantDcl := userEntity.grantDcl
        isSA := userEntity.isSA
        configuration := userEntity.configuration
        createBy := some createBy
        createTime := some userEntity.createTime
        updateTime := some userEntity.updateTime }
  | none => .throw (noSuchUserException s!"{user} in organization {org}")

def userExists (org user : String) : DBIO Bool := do
  let orgId ← organizationId org
  JdbcDao.userExists orgId user

/-! ### Procedures -/

def createProcedure (procDefinition : CatalogProcedure) (ignoreIfExists : Bool) (caller : User)
    (now : Nat) : DBIO Unit := do
  match ← JdbcDao.procedureExists caller.orgId procDefinition.name with
  | true =>
    if ignoreIfExists then pure () else .throw (procedureExistsException procDefinition.name)
  | false =>
    let _ ← JdbcDao.createProcedure (.ofDefinition procDefinition caller now)

def dropProcedure (proc : String) (ignoreIfNotExists : Bool) (caller : User) : DBIO Unit := do
  match ← JdbcDao.getProcedure caller.orgId proc with
  | some procedureEntity =>
    match ← JdbcDao.timedEventExistsOf caller.orgId procedureEntity.id with
    | true => .throw (procedureStillUsedException proc)
    | false => JdbcDao.deleteProcedure procedureEntity.id
  | none => if ignoreIfNotExists then pure () else .throw (noSuchProcedureException proc)

def renameProcedure (proc newProc : String) (caller : User) (now : Nat) : DBIO Unit := do
  match ← JdbcDao.procedureExists caller.orgId proc with
  | true =>
    match ← JdbcDao.procedureExists caller.orgId newProc with
    | false => JdbcDao.renameProcedure caller.orgId proc newProc caller.userId now
    | true => .throw (procedureExistsException newProc)
  | false => .throw (noSuchProcedureException proc)

def alterProcedure (procDefinition : CatalogProcedure) (caller : User) (now : Nat) :
    DBIO Unit := do
  match ← JdbcDao.getProcedure caller.orgId procDefinition.name with
  | some procEntity =>
    JdbcDao.updateProcedure (.altered procEntity procDefinition caller now)
  | none => .throw (noSuchProcedureException procDefinition.name)

def getProcedure (proc : String) (caller : User) : DBIO CatalogProcedure := do
  match ← JdbcDao.getProcedure caller.orgId proc with
  | some procEntity =>
    let owner ← userName procEntity.createBy
    pure
      { name := proc
        sqls := procEntity.cmds
        lang := procEntity.lang
        description := procEntity.description
        owner := some owner }
  | none => .throw (noSuchProcedureException proc)

def listProcedures (caller : User) : DBIO (List CatalogProcedure) := do
  let procedures ← JdbcDao.listProcedures caller.orgId
  pure <| procedures.map fun (procEntity, userEntity) =>
    { name := procEntity.name
      sqls := procEntity.cmds
      lang := procEntity.lang
      description := procEntity.description
      owner := some userEntity.name }

/-! ### Timed events -/

def createTimedEvent (eventDefinition : CatalogTimedEvent) (ignoreIfExists : Bool) (caller : User)
    (now : Nat) : DBIO Unit := do
  match ← JdbcDao.timedEventExists caller.orgId eventDefinition.name with
  | true =>
    if ignoreIfExists then pure () else .throw (timedEventExistsException eventDefinition.name)
  | false =>
    match ← JdbcDao.getProcedure caller.orgId eventDefinition.procedure with
    | some procedureEntity =>
      let definer ← userId caller.orgId eventDefinition.definer
      let _ ← JdbcDao.createTimedEvent
        (.ofDefinition eventDefinition definer procedureEntity.id caller now)
    | none => .throw (noSuchProcedureException eventDefinition.procedure)

def renameTimedEvent (event newEvent : String) (caller : User) (now : Nat) : DBIO Unit := do
  match ← JdbcDao.timedEventExists caller.orgId event with
  | true =>
    match ← JdbcDao.timedEventExists caller.orgId newEvent with
    | false => JdbcDao.renameTimedEvent caller.orgId event newEvent caller.userId now
    | true => .throw (timedEventExistsException newEvent)
  | false => .throw (noSuchTimedEventException event)

def alterTimedEvent (eventDefinition : CatalogTimedEvent) (caller : User) (now : Nat) :
    DBIO Unit := do
  match ← JdbcDao.getTimedEvent caller.orgId eventDefinition.name with
  | some eventEntity =>
    match ← JdbcDao.getProcedure caller.orgId eventDefinition.procedure with
    | some procedureEntity =>
      let definer ← userId caller.orgId eventDefinition.definer
      JdbcDao.updateTimedEvent
        (.altered eventEntity eventDefinition definer procedureEntity.id caller now)
    | none => .throw (noSuchProcedureException eventDefinition.procedure)
  | none => .throw (noSuchTimedEventException eventDefinition.name)

def dropTimedEvent (event : String) (ignoreIfNotExists : Bool) (caller : User) : DBIO Unit := do
  match ← JdbcDao.timedEventExists caller.orgId event with
  | true => JdbcDao.deleteTimedEvent caller.orgId event
  | false => if ignoreIfNotExists then pure () else .throw (noSuchTimedEventException event)

def getTimedEvent (event : String) (caller : User) : DBIO CatalogTimedEvent := do
  match ← JdbcDao.getTimedEvent caller.orgId event with
  | some timedEventEntity =>
    let definer ← userName timedEventEntity.definer
    let procedure ← procedureName timedEventEntity.procedure
    let owner ← userName timedEventEntity.createBy
    pure
      { name := timedEventEntity.name
        definer := definer
        schedule := timedEventEntity.schedule
        enable := timedEventEntity.enable
        description := timedEventEntity.description
        procedure := procedure
        owner := some owner }
  | none => .throw (noSuchTimedEventException event)

def timedEventExists (event : String) (caller : User) : DBIO Bool :=
  JdbcDao.timedEventExists caller.orgId event

/-- One event whose names are not found is enough for the listing to fail. -/
def listTimedEvents (caller : User) : DBIO (List CatalogTimedEvent) := do
  let events ← JdbcDao.listTimedEvents caller.orgId
  Action.mapM (fun timedEventEntity => do
      let definer ← userName timedEventEntity.definer
      let procedure ← procedureName timedEventEntity.procedure
      let owner ← userName timedEventEntity.createBy
      pure
        { name := timedEventEntity.name
          definer := definer
          schedule := timedEventEntity.schedule
          enable := timedEventEntity.enable
          description := timedEventEntity.description
          procedure := procedure
          owner := some owner })
    events

/-! ### Databases -/

def createDatabase (dbDefinition : CatalogDatabase) (ignoreIfExists : Bool) (caller : User)
    (now : Nat) : DBIO Unit := do
  let dbName := formatDatabaseName dbDefinition.name
  match ← JdbcDao.databaseExists caller.orgId dbName with
  | true =>
    if ignoreIfExists then pure () else .throw (databaseExistsException dbDefinition.name)
  | false =>
    let _ ← JdbcDao.createDatabase (.ofDefinition dbDefinition dbName caller now)

def dropDatabase (database : String) (ignoreIfNotExists cascade : Bool) (caller : User) :
    DBIO Unit := do
  let dbName := formatDatabaseName database
  match ← JdbcDao.getDatabase caller.orgId dbName with
  | some db =>
    if cascade then
      Action.transactionally do
        JdbcDao.deleteFunctions db.id
        JdbcDao.deleteTables db.id
        JdbcDao.deleteDatabase caller.orgId dbName
    else
      Action.transactionally do
        let tables ← JdbcDao.listTables db.id
        let functions ← JdbcDao.listFunctions db.id
        if tables.isEmpty && functions.isEmpty then
          JdbcDao.deleteDatabase caller.orgId dbName
        else .throw (nonEmptyException s!"Database {database}")
  | none => if ignoreIfNotExists then pure () else .throw (noSuchDatabaseException database)

def renameDatabase (db newDb : String) (caller : User) (now : Nat) : DBIO Unit := do
  let dbName := formatDatabaseName db
  let newDbName := formatDatabaseName newDb
  match ← JdbcDao.databaseExists caller.orgId dbName with
  | true =>
    match ← JdbcDao.databaseExists caller.orgId newDbName with
    | false => JdbcDao.renameDatabase caller.orgId dbName newDbName caller.userId now
    | true => .throw (databaseExistsException newDb)
  | false => .throw (noSuchDatabaseException db)

def alterDatabase (dbDefinition : CatalogDatabase) (caller : User) (now : Nat) : DBIO Unit := do
  let dbName := formatDatabaseName dbDefinition.name
  match ← JdbcDao.getDatabase caller.orgId dbName with
  | some dbEntity =>
    JdbcDao.updateDatabase (.altered dbEntity dbDefinition dbName caller now)
  | none => .throw (noSuchDatabaseException dbDefinition.name)

def getDatabase (database : String) (caller : User) : DBIO CatalogDatabase := do
  let dbName := formatDatabaseName database
  match ← JdbcDao.getDatabase caller.orgId dbName with
  | some dbEntity =>
    let owner ← userName dbEntity.createBy
    pure
      { name := dbName
        description := dbEntity.description
        properties := dbEntity.properties
        isLogical := dbEntity.isLogical
        owner := some owner }
  | none => .throw (noSuchDatabaseException database)

def databaseExists (database : String) (caller : User) : DBIO Bool :=
  JdbcDao.databaseExists caller.orgId (formatDatabaseName database)

def listDatabases (caller : User) : DBIO (List CatalogDatabase) := do
  let dbs ← JdbcDao.listDatabases caller.orgId
  pure <| dbs.map fun (dbEntity, userEntity) =>
    { name := dbEntity.name
      description := dbEntity.description
      properties := dbEntity.properties
      isLogical := dbEntity.isLogical
      owner := some userEntity.name }

/-! ### Tables -/

def createTable (tableDefinition : CatalogTable) (ignoreIfExists : Bool) (caller : User)
    (now : Nat) : DBIO Unit := do
  match tableDefinition.db with
  | none => .throw "assertion failed"
  | some db =>
    match ← JdbcDao.getDatabase caller.orgId db with
    | some dbEntity =>
      match ← JdbcDao.getTable dbEntity.id tableDefinition.name with
      | some _ =>
        if ignoreIfExists then pure () else .throw (tableExistsException db tableDefinition.name)
      | none =>
        let _ ← JdbcDao.createTable (.ofDefinition tableDefinition dbEntity.id caller now)
    | none => .throw (noSuchDatabaseException db)

def dropTable (database table : String) (ignoreIfNotExists : Bool) (caller : User) :
    DBIO Unit := do
  match ← JdbcDao.getDatabase caller.orgId database with
  | some dbEntity =>
    match ← JdbcDao.getTable dbEntity.id table with
    | some tableEntity =>
      let dbId := tableEntity.databaseId
      let tId := tableEntity.id
      Action.transactionally do
        JdbcDao.deleteTablePrivilegeByTable dbId tId
        JdbcDao.deleteColumnPrivilegeByTable dbId tId
        JdbcDao.deleteTable dbId table
    | none =>
      if !ignoreIfNotExists then .throw (noSuchTableException database table) else pure ()
  | none => .throw (noSuchDatabaseException database)

def renameTable (database table newTable : String) (caller : User) (now : Nat) : DBIO Unit := do
  match ← JdbcDao.getDatabase caller.orgId database with
  | some dbEntity =>
    let dbId := dbEntity.id
    match ← JdbcDao.tableExists dbId table with
    | true =>
      match ← JdbcDao.tableExists dbId newTable with
      | false => JdbcDao.renameTable dbId table newTable caller.userId now
      | true => .throw (tableExistsException database newTable)
    | false => .throw (noSuchTableException database table)
  | none => .throw (noSuchDatabaseException database)

def alterTable (tableDefinition : CatalogTable) (caller : User) (now : Nat) : DBIO Unit := do
  match tableDefinition.db with
  | none => .throw "assertion failed"
  | some db =>
    match ← JdbcDao.getDatabase caller.orgId db with
    | some dbEntity =>
      match ← JdbcDao.getTable dbEntity.id tableDefinition.name with
      | some tableEntity =>
        JdbcDao.updateTable (.altered tableEntity tableDefinition dbEntity.id caller now)
      | none => .throw (noSuchTableException db tableDefinition.name)
    | none => .throw (noSuchDatabaseException db)

def getTable (database table : String) (caller : User) : DBIO CatalogTable := do
  match ← JdbcDao.getDatabase caller.orgId database with
  | some dbEntity =>
    match ← JdbcDao.getTable dbEntity.id table with
    | some tableEntity =>
      let owner ← userName tableEntity.createBy
      pure
        { db := some database
          name := tableEntity.name
          tableType := tableEntity.tableType
          description := tableEntity.description
          properties := tableEntity.properties
          viewText := tableEntity.viewText
          isStream := tableEntity.isStream
          tableSize := tableEntity.tableSize
          owner := some owner }
    | none => .throw (noSuchTableException database table)
  | none => .throw (noSuchDatabaseException database)

def tableExists (database table : String) (caller : User) : DBIO Bool := do
  match ← JdbcDao.getDatabase caller.orgId database with
  | some dbEntity => JdbcDao.tableExists dbEntity.id table
  | none => .throw (noSuchDatabaseException database)

def listTables (database : String) (caller : User) : DBIO (List CatalogTable) := do
  match ← JdbcDao.getDatabase caller.orgId database with
  | some dbEntity =>
    let tables ← JdbcDao.listTables dbEntity.id
    pure <| tables.map fun (tableEntity, userEntity) =>
      { db := some database
        name := tableEntity.name
        tableType := tableEntity.tableType
        description := tableEntity.description
        properties := tableEntity.properties
        viewText := tableEntity.viewText
        isStream := tableEntity.isStream
        tableSize := tableEntity.tableSize
        owner := some userEntity.name }
  | none => .throw (noSuchDatabaseException database)

/-! ### Functions -/

def createFunction (funcDefinition : CatalogFunction) (ignoreIfExists : Bool) (caller : User)
    (now : Nat) : DBIO Unit := do
  match funcDefinition.db with
  | none => .throw "assertion failed"
  | some db =>
    match ← JdbcDao.getDatabase caller.orgId db with
    | some dbEntity =>
      let dbId := dbEntity.id
      match ← JdbcDao.functionExists dbId funcDefinition.name with
      | true =>
        if ignoreIfExists then pure ()
        else .throw (functionExistsException db funcDefinition.name)
      | false =>
        Action.transactionally do
          let funcId ← JdbcDao.createFunction (.ofDefinition funcDefinition dbId caller now)
          JdbcDao.createFunctionResources <|
            funcDefinition.resources.map (.ofResource funcId caller now)
    | none => .throw (noSuchDatabaseException db)

def dropFunction (database func : String) (ignoreIfNotExists : Bool) (caller : User) :
    DBIO Unit := do
  match ← JdbcDao.getDatabase caller.orgId database with
  | some dbEntity =>
    let dbId := dbEntity.id
    match ← JdbcDao.getFunction dbId func with
    | some funcEntity =>
      Action.transactionally do
        JdbcDao.deleteFunctionResources funcEntity.id
        JdbcDao.deleteFunction dbId func
    | none =>
      if ignoreIfNotExists then pure () else .throw (noSuchFunctionException database func)
  | none => .throw (noSuchDatabaseException database)

def renameFunction (database func newFunc : String) (caller : User) (now : Nat) :
    DBIO Unit := do
  match ← JdbcDao.getDatabase caller.orgId database with
  | some dbEntity =>
    let dbId := dbEntity.id
    match ← JdbcDao.functionExists dbId func with
    | true =>
      match ← JdbcDao.functionExists dbId newFunc with
      | false => JdbcDao.renameFunction dbId func newFunc caller.userId now
      | true => .throw (functionExistsException database func)
    | false => .throw (noSuchFunctionException database func)
  | none => .throw (noSuchDatabaseException database)

def getFunction (database func : String) (caller : User) : DBIO CatalogFunction := do
  match ← JdbcDao.getDatabase caller.orgId database with
  | some dbEntity =>
    match ← JdbcDao.getFunction dbEntity.id func with
    | some funcEntity =>
      let resourceEntities ← JdbcDao.listFunctionResources funcEntity.id
      let owner ← userName funcEntity.createBy
      pure
        { name := func
          db := some database
          description := funcEntity.description
          className := funcEntity.className
          methodName := funcEntity.methodName
          resources := resourceEntities.map fun e => ⟨e.resourceType, e.resource⟩
          owner := some owner }
    | none => .throw (noSuchFunctionException database func)
  | none => .throw (noSuchDatabaseException database)

def functionExists (database func : String) (caller : User) : DBIO Bool := do
  match ← JdbcDao.getDatabase caller.orgId database with
  | some dbEntity => JdbcDao.functionExists dbEntity.id func
  | none => .throw (noSuchDatabaseException database)

/-- The pairs of functions and resources are grouped by the function. -/
def listFunctions (database : String) (caller : User) : DBIO (List CatalogFunction) := do
  match ← JdbcDao.getDatabase caller.orgId database with
  | some dbEntity =>
    let functionEntities ← JdbcDao.listFunctions dbEntity.id
    Action.mapM (fun func => do
        let owner ← userName func.createBy
        pure
          { name := func.name
            db := some database
            description := func.description
            className := func.className
            methodName := func.methodName
            resources := (functionEntities.filter fun p => p.1 == func).map fun (_, resource) =>
              ⟨resource.resourceType, resource.resource⟩
            owner := some owner })
      (functionEntities.map Prod.fst).eraseDups
  | none => .throw (noSuchDatabaseException database)

/-! ### Database privileges -/

def createDatabasePrivilege (dbPrivilege : CatalogDatabasePrivilege) (caller : User) (now : Nat) :
    DBIO Unit := do
  let uId ← userId caller.orgId dbPrivilege.user
  match ← JdbcDao.getDatabase caller.orgId dbPrivilege.database with
  | some dbEntity =>
    let dbId := dbEntity.id
    let _ ← JdbcDao.getDatabasePrivilege uId dbId
    -- The answer holds entities and is asked for types, so it filters none of them out.
    let needCreate := dbPrivilege.privileges.map (.ofType uId dbId caller now)
    JdbcDao.createDatabasePrivilege needCreate
  | none => .throw (noSuchDatabaseException dbPrivilege.database)

def dropDatabasePrivilege (user database : String) (privileges : List String) (caller : User) :
    DBIO Unit := do
  let uId ← userId caller.orgId user
  match ← JdbcDao.getDatabase caller.orgId database with
  | some dbEntity => JdbcDao.deleteDatabasePrivilege uId dbEntity.id privileges
  | none => .throw (noSuchDatabaseException database)

def getDatabasePrivilege (user database : String) (caller : User) :
    DBIO CatalogDatabasePrivilege := do
  let uId ← userId caller.orgId user
  match ← JdbcDao.getDatabase caller.orgId database with
  | some dbEntity =>
    let entities ← JdbcDao.getDatabasePrivilege uId dbEntity.id
    pure
      { user := user
        database := database
        privileges := entities.map DatabasePrivilegeEntity.privilegeType }
  | none => .throw (noSuchDatabaseException database)

/-! ### Table privileges -/

def createTablePrivilege (tablePrivilege : CatalogTablePrivilege) (caller : User) (now : Nat) :
    DBIO Unit := do
  let uId ← userId caller.orgId tablePrivilege.user
  match ← JdbcDao.getDatabase caller.orgId tablePrivilege.database with
  | some dbEntity =>
    let dbId := dbEntity.id
    match ← JdbcDao.getTable dbId tablePrivilege.table with
    | some tableEntity =>
      let entities ← JdbcDao.getTablePrivilege uId dbId tableEntity.id
      let existing := entities.map TablePrivilegeEntity.privilegeType
      let needCreate := tablePrivilege.privileges.filter fun p => !existing.contains p
      JdbcDao.createTablePrivilege <|
        needCreate.map (.ofType uId dbId tableEntity.id caller now)
    | none => .throw (noSuchTableException tablePrivilege.database tablePrivilege.table)
  | none => .throw (noSuchDatabaseException tablePrivilege.database)

def dropTablePrivilege (user database table : String) (privileges : List String) (caller : User) :
    DBIO Unit := do
  let uId ← userId caller.orgId user
  match ← JdbcDao.getDatabase caller.orgId database with
  | some dbEntity =>
    let dbId := dbEntity.id
    match ← JdbcDao.getTable dbId table with
    | some tableEntity => JdbcDao.deleteTablePrivilege uId dbId tableEntity.id privileges
    | none => .throw (noSuchTableException database table)
  | none => .throw (noSuchDatabaseException database)

def getTablePrivilege (user database table : String) (caller : User) :
    DBIO CatalogTablePrivilege := do
  let uId ← userId caller.orgId user
  match ← JdbcDao.getDatabase caller.orgId database with
  | some dbEntity =>
    match ← JdbcDao.getTable dbEntity.id table with
    | some tableEntity =>
      let entities ← JdbcDao.getTablePrivilege uId dbEntity.id tableEntity.id
      pure
        { user := user
          database := database
          table := table
          privileges := entities.map TablePrivilegeEntity.privilegeType }
    | none => .throw (noSuchTableException database table)
  | none => .throw (noSuchDatabaseException database)

/-! ### Column privileges -/

def createColumnPrivilege (columnPrivilege : CatalogColumnPrivilege) (caller : User) (now : Nat) :
    DBIO Unit := do
  let uId ← userId caller.orgId columnPrivilege.user
  match ← JdbcDao.getDatabase caller.orgId columnPrivilege.database with
  | some dbEntity =>
    let dbId := dbEntity.id
    match ← JdbcDao.getTable dbId columnPrivilege.table with
    | some tableEntity =>
      let tbId := tableEntity.id
      let entities ← JdbcDao.getColumnPrivilege uId dbId tbId
      let existing := entities.map fun en => (en.column, en.privilegeType)
      let needCreate := (columnPrivilege.privilege.flatMap fun (column, t) =>
        t.map fun p => (column, p)).filter fun p => !existing.contains p
      JdbcDao.createColumnPrivilege <|
        needCreate.map (.ofType uId dbId tbId caller now)
    | none => .throw (noSuchTableException columnPrivilege.database columnPrivilege.table)
  | none => .throw (noSuchDatabaseException columnPrivilege.database)

/-- The columns of every privilege type. -/
def typeToColumns (privileges : List (String × List String)) : List (String × List String) :=
  let pairs := privileges.flatMap fun (column, privilegeTypes) =>
    privilegeTypes.map fun privilegeType => (column, privilegeType)
  (pairs.map Prod.snd).eraseDups.map fun privilegeType =>
    (privilegeType, (pairs.filter fun p => p.2 == privilegeType).map Prod.fst)

def dropColumnPrivilege (user database table : String) (privileges : List (String × List String))
    (caller : User) : DBIO Unit := do
  let uId ← userId caller.orgId user
  match ← JdbcDao.getDatabase caller.orgId database with
  | some dbEntity =>
    let dbId := dbEntity.id
    match ← JdbcDao.getTable dbId table with
    | some tableEntity =>
      Action.transactionally <|
        Action.forEach
          (fun (privilegeType, columns) =>
            JdbcDao.deleteColumnPrivilege uId dbId tableEntity.id columns privilegeType)
          (typeToColumns privileges)
    | none => .throw (noSuchTableException database table)
  | none => .throw (noSuchDatabaseException database)

def getColumnPrivilege (user database table : String) (caller : User) :
    DBIO CatalogColumnPrivilege := do
  let uId ← userId caller.orgId user
  match ← JdbcDao.getDatabase caller.orgId database with
  | some dbEntity =>
    match ← JdbcDao.getTable dbEntity.id table with
    | some tableEntity =>
      let entities ← JdbcDao.getColumnPrivilege uId dbEntity.id tableEntity.id
      pure
        { user := user
          database := database
          table := table
          privilege := (entities.map ColumnPrivilegeEntity.column).eraseDups.map fun column =>
            (column, (entities.filter fun en => en.column == column).map
              ColumnPrivilegeEntity.privilegeType) }
    | none => .throw (noSuchTableException database table)
  | none => .throw (noSuchDatabaseException database)

/-! ### Groups -/

def createGroup (groupDefinition : CatalogGroup) (ignoreIfExists : Bool) (caller : User)
    (now : Nat) : DBIO Unit := do
  match ← JdbcDao.groupExists caller.orgId groupDefinition.name with
  | true =>
    if ignoreIfExists then pure () else .throw (groupExistsException groupDefinition.name)
  | false =>
    let _ ← JdbcDao.createGroup (.ofDefinition groupDefinition caller now)

def renameGroup (group newGroup : String) (caller : User) (now : Nat) : DBIO Unit := do
  match ← JdbcDao.groupExists caller.orgId group with
  | false => .throw (noSuchGroupException group)
  | true =>
    match ← JdbcDao.groupExists caller.orgId newGroup with
    | true => .throw (groupExistsException newGroup)
    | false => JdbcDao.renameGroup caller.orgId group newGroup caller.userId now

/-- Only the audit columns are written, not the description of the definition. -/
def alterGroup (groupDefinition : CatalogGroup) (caller : User) (now : Nat) : DBIO Unit := do
  match ← JdbcDao.getGroup caller.orgId groupDefinition.name with
  | none => .throw (noSuchGroupException groupDefinition.name)
  | some groupEntity =>
    JdbcDao.updateGroup (.touched groupEntity caller now)

def dropGroup (group : String) (ignoreIfNotExists cascade : Bool) (caller : User) :
    DBIO Unit := do
  match ← JdbcDao.getGroup caller.orgId group with
  | none => if ignoreIfNotExists then pure () else .throw (noSuchGroupException group)
  | some groupEntity =>
    let rels ← JdbcDao.getGroupUserRelsByGroup groupEntity.id
    if !rels.isEmpty then
      if !cascade then .throw (nonEmptyException group)
      else
        Action.transactionally do
          JdbcDao.deleteGroupUserRelsByGroup groupEntity.id
          JdbcDao.deleteGroup groupEntity.id
    else JdbcDao.deleteGroup groupEntity.id

def createGroupUserRel (groupUserRels : CatalogGroupUserRel) (caller : User) (now : Nat) :
    DBIO Unit := do
  match ← JdbcDao.getGroup caller.orgId groupUserRels.group with
  | none => .throw (noSuchGroupException groupUserRels.group)
  | some groupEntity =>
    let rels ← JdbcDao.getGroupUserRelsByGroup groupEntity.id
    let ids ← Action.mapM (userId caller.orgId) <|
      groupUserRels.users.filter fun user => !rels.contains user
    JdbcDao.createGroupUserRel <| ids.map (.ofUser groupEntity.id caller now)

def dropGroupUserRel (groupUserRel : CatalogGroupUserRel) (caller : User) : DBIO Unit := do
  match ← JdbcDao.getGroup caller.orgId groupUserRel.group with
  | none => .throw (noSuchGroupException groupUserRel.group)
  | some groupEntity =>
    let ids ← Action.mapM (userId caller.orgId) groupUserRel.users
    JdbcDao.deleteGroupUserRels groupEntity.id ids

def listGroupUser (group : String) (caller : User) : DBIO CatalogGroupUserRel := do
  match ← JdbcDao.getGroup caller.orgId group with
  | none => .throw (noSuchGroupException group)
  | some groupEntity =>
    let users ← JdbcDao.getGroupUserRelsByGroup groupEntity.id
    pure { group := group, users := users }

end JdbcCatalog

end Moonbox.Catalog
