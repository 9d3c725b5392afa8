import Moonbox.Catalog.Effects
import Moonbox.Core.MoonboxCatalog
import Moonbox.Rest.Applications
import Moonbox.Rest.Workbench

/-!
# The routes

The requests that the routes of `AssembleRoutes` accept and the services that answer them. A
service call runs alone. The answer to a read is given as the rows that it is formatted from,
their order aside; consoles, logs, the login and the list of nodes touch neither the catalog nor
the applications.
-/

namespace Moonbox.Rest

open Actor Handler Deploy Catalog Relational

/-! ### Applications and clusters -/

structure ClusterEntity where
  id : Nat := 0
  name : String
  clusterType : String
  environment : Properties
  config : Properties
  createBy : Int
  createTime : Nat
  updateBy : Int
  updateTime : Nat
  deriving DecidableEq, Repr, Inhabited

instance : Row ClusterEntity := ⟨ClusterEntity.id, fun n e => { e with id := n }, fun _ _ => rfl⟩

structure ApplicationEntity where
  id : Nat := 0
  name : String
  address : Option String
  appType : String
  clusterId : Option Nat
  config : Properties
  organizationId : Nat
  startOnBoot : Bool
  createBy : Int
  createTime : Nat
  updateBy : Int
  updateTime : Nat
  deriving DecidableEq, Repr, Inhabited

instance : Row ApplicationEntity :=
  ⟨ApplicationEntity.id, fun n e => { e with id := n }, fun _ _ => rfl⟩

/-- An application with the names of its organization and of its cluster. -/
structure CatalogApplication extends ApplicationEntity where
  org : String
  cluster : Option String

def fullName (org name : String) : String := org ++ "-" ++ name

/-! ### The bodies of requests -/

structure Cluster where
  name : String
  type : String
  environment : Properties
  config : Properties

structure ApplicationIn where
  appName : String
  appType : String
  config : Properties
  cluster : Option String
  org : String
  worker : Option String
  startOnBoot : Bool

structure Organization where
  name : String
  config : Properties
  description : Option String

structure BatchOpSeq where
  names : List String
  cascade : Option Bool

structure OrgSa where
  org : String
  name : String
  password : Option String

structure OrgSaRename where
  org : String
  user : String
  newUser : String

structure Query where
  name : String
  text : String
  description : Option String

structure LogView where
  address : String
  file : String
  command : Option String

/-- The requests, one for each route. -/
inductive Request where
  | swagger
  | login (user password : String)
  | logout
  | listNodes
  | createCluster (cluster : Cluster)
  | updateCluster (cluster : Cluster)
  | deleteCluster (cluster : String)
  | getCluster (cluster : String)
  | listClusters
  | applicationInfos
  | applicationTemplate
  | createApplication (app : ApplicationIn)
  | deleteApplication (appName : String)
  | getApplication (appName : String)
  | listApplications
  | startApplication (appName : String)
  | stopApplication (appName : String)
  | executeConsole (request : ExecuteRequest)
  | cancelConsole (consoleId : String)
  | reconnectConnection (consoleId : String)
  | closeConnection (consoleId : String)
  | createQuery (query : Query)
  | updateQuery (query : Query)
  | deleteQuery (queryName : String)
  | getQuery (queryName : String)
  | listQueries
  | createOrganization (org : Organization)
  | updateOrganization (org : Organization)
  | deleteOrganization (org : String)
  | deleteOrganizations (batchOp : BatchOpSeq)
  | getOrganization (org : String)
  | listOrganizations
  | createSa (sa : OrgSa)
  | updateName (rename : OrgSaRename)
  | updatePassword (orgSa : OrgSa)
  | deleteSas (sas : List OrgSa)
  | getSa (orgName saName : String)
  | listSas
  | listRolePrivileges
  | listDatabasePrivileges
  | listTablePrivileges
  | listColumnPrivileges
  | viewLog (log : LogView)
  | listResourceStats

/-- What a request is answered, as rows. -/
inductive Answer where
  | done
  | message (text : String)
  | applications (apps : List CatalogApplication)
  | applicationInfos (drivers : List DriverStatusResponse)
  | clusters (clusters : List ClusterEntity)
  | queries (queries : List QueryEntity)
  | organizations (orgs : List OrganizationEntity)
  | users (users : List UserEntity)
  | databasePrivileges (rows : List (UserEntity × DatabasePrivilegeEntity × DatabaseEntity))
  | tablePrivileges (rows : List (UserEntity × TablePrivilegeEntity × TableEntity × DatabaseEntity))
  | columnPrivileges
      (rows : List (UserEntity × ColumnPrivilegeEntity × TableEntity × DatabaseEntity))
  | resourceStats (orgs : List OrganizationEntity) (apps : List ApplicationEntity)

/-! ### The platform -/

/-- The catalog, the master and the requests that were sent to it. -/
structure Grid where
  catalog : Store
  applications : Table ApplicationEntity
  clusters : Table ClusterEntity
  master : MasterState
  asked : List Message := []

/-- What the services read besides: the clock, the application masters (a type has one or not),
`LIKE` and the numbers of the platform, what the applications use, and which applications
`listResourceStats` takes to be running when the master has not answered yet. -/
structure RestEnv where
  core : Core.Env
  deploy : Deploy.Env
  now : Nat
  createDriverDesc : String → Option (Properties → DriverDesc)
  like : String → String → Bool
  toLong : String → Option Int
  toInt : String → Option Int
  runningAppNames : List String
  getAppResourceStat : ApplicationEntity → Except String Unit

abbrev Service := Handler Grid

/-- A value that is there, or the exception of its absence. -/
def orThrow {α : Type} (e : String) : Option α → Service α
  | some a => pure a
  | none => throw e

def onCatalog {α : Type} (m : DBIO α) : Service α := fun g =>
  match m.run g.catalog with
  | (r, s) => (r, { g with catalog := s })

def tell (env : RestEnv) (m : Message) : Service Unit := fun g =>
  (.ok (), { g with master := Master.step env.deploy m g.master, asked := g.asked ++ [m] })

/-- `actorRef.ask(RequestDriverStatus(driverId))`. -/
def askStatus (env : RestEnv) (driverId : String) : Service DriverStatusResponse := do
  let before ← get
  tell env (.requestDriverStatus driverId)
  let after ← get
  orThrow "AskTimeoutException" (statusSent before.master after.master)

/-- The answer to `RequestAllDriverStatus` sent in the step from `s` to `s'`. -/
def allStatusSent (s s' : MasterState) :
    Option (List DriverStatusResponse × Option String) :=
  (s'.sent.drop s.sent.length).findSome? fun e =>
    match e.message with
    | .allDriverStatusResponse driverStatus exception => some (driverStatus, exception)
    | _ => none

def askAllStatus (env : RestEnv) (pattern : Option String) :
    Service (List DriverStatusResponse × Option String) := do
  let before ← get
  tell env (.requestAllDriverStatus pattern)
  let after ← get
  orThrow "AskTimeoutException" (allStatusSent before.master after.master)

/-! ### The catalog of applications and clusters -/

variable [Names]

namespace Grid

def application (g : Grid) (app : String) : Option ApplicationEntity :=
  g.applications.rows.find? fun t => sameName t.name app

def cluster (g : Grid) (cluster : String) : Option ClusterEntity :=
  g.clusters.rows.find? fun t => sameName t.name cluster

omit [Names] in
def organizationName (g : Grid) (orgId : Nat) : Option String :=
  ((g.catalog .organizations).rows.find? fun t => t.id == orgId).map OrganizationEntity.name

omit [Names] in
def clusterName (g : Grid) (clusterId : Nat) : Option String :=
  (g.clusters.rows.find? fun t => t.id == clusterId).map ClusterEntity.name

/-- `getApplication`, where the names of the organization and of the cluster are there. -/
def namedApplication (g : Grid) (app : String) : Option CatalogApplication := do
  let appEntity ← g.application app
  let org ← g.organizationName appEntity.organizationId
  match appEntity.clusterId with
  | some clusterId =>
    let cluster ← g.clusterName clusterId
    some { appEntity with org := org, cluster := some cluster }
  | none => some { appEntity with org := org, cluster := none }

omit [Names] in
/-- The joins of `listApplications`. -/
def joined (g : Grid) (apps : List ApplicationEntity) : List CatalogApplication :=
  apps.filterMap fun app => (g.organizationName app.organizationId).map fun org =>
    { app with org := org, cluster := app.clusterId.bind g.clusterName }

end Grid

def noSuchApplicationException (app : String) : String := s!"Application '{app}' not found"

def applicationExistsException (app : String) : String := s!"Application {app} already exists"

def noSuchClusterException (cluster : String) : String := s!"Cluster '{cluster}' not found"

def getApplication (app : String) : Service CatalogApplication := do
  let g ← get
  orThrow (noSuchApplicationException app) (g.namedApplication app)

def insertApplication (app : ApplicationEntity) : Service Unit :=
  modify fun g => { g with applications := g.applications.insert app }

def createApplication (env : RestEnv) (app : ApplicationIn) (user : User) : Service Unit := do
  let g ← get
  if (g.application app.appName).isSome then throw (applicationExistsException app.appName)
  else
    let clusterId ← match app.cluster with
      | some cluster => do
        let clusterEntity ← orThrow (noSuchClusterException cluster) (g.cluster cluster)
        pure (some clusterEntity.id)
      | none => pure none
    let org ← orThrow (noSuchOrganizationException app.org) (Store.organization g.catalog app.org)
    insertApplication
      { name := app.appName, address := none, appType := app.appType, clusterId := clusterId,
        config := app.config, organizationId := org.id, startOnBoot := app.startOnBoot,
        createBy := user.userId, createTime := env.now, updateBy := user.userId,
        updateTime := env.now }

def dropApplication (app : String) : Service Unit := do
  let g ← get
  let appEntity ← orThrow (noSuchApplicationException app) (g.application app)
  modify fun g => { g with applications := g.applications.delete fun t => t.id == appEntity.id }

def ClusterEntity.ofDefinition (cluster : Cluster) (user : User) (now : Nat) : ClusterEntity :=
  { name := cluster.name
    clusterType := cluster.type
    environment := cluster.environment
    config := cluster.config
    createBy := user.userId
    createTime := now
    updateBy := user.userId
    updateTime := now }

def ClusterEntity.altered (e : ClusterEntity) (cluster : Cluster) (user : User) (now : Nat) :
    ClusterEntity :=
  { id := e.id
    name := cluster.name
    clusterType := cluster.type
    environment := cluster.environment
    config := cluster.config
    createBy := e.createBy
    createTime := e.createTime
    updateBy := user.userId
    updateTime := now }

def insertCluster (cluster : ClusterEntity) : Service Unit :=
  modify fun g => { g with clusters := g.clusters.insert cluster }

def writeCluster (cluster : ClusterEntity) : Service Unit :=
  modify fun g =>
    { g with clusters := g.clusters.update (fun t => t.id == cluster.id) fun _ => cluster }

/-! ### The services -/

/-- Whether the session is the one of the root user. -/
def isRoot (env : RestEnv) (user : User) : Bool :=
  user.org == "SYSTEM" && env.core.equalsIgnoreCase user.user "ROOT"

namespace ClusterService

def createCluster (env : RestEnv) (cluster : Cluster) (user : User) : Service Answer := do
  insertCluster (.ofDefinition cluster user env.now)
  pure .done

def updateCluster (env : RestEnv) (cluster : Cluster) (user : User) : Service Answer := do
  let g ← get
  let clusterEntity ← orThrow (noSuchClusterException cluster.name) (g.cluster cluster.name)
  writeCluster (clusterEntity.altered cluster user env.now)
  pure .done

def deleteCluster (cluster : String) : Service Answer := do
  let g ← get
  let clusterEntity ← orThrow (noSuchClusterException cluster) (g.cluster cluster)
  if g.applications.rows.any fun app => app.clusterId == some clusterEntity.id then
    throw s!"Cluster {cluster} is referenced by some apps."
  else
    modify fun g => { g with clusters := g.clusters.delete fun t => t.id == clusterEntity.id }
    pure .done

def getCluster (name : String) : Service Answer := do
  let g ← get
  let clusterEntity ← orThrow (noSuchClusterException name) (g.cluster name)
  pure (.clusters [clusterEntity])

omit [Names] in
def listClusters : Service Answer := do
  let g ← get
  pure (.clusters g.clusters.rows)

end ClusterService

namespace ApplicationService

def createApplication (env : RestEnv) (app : ApplicationIn) (user : User) : Service Answer := do
  Rest.createApplication env app user
  pure .done

def getApplication (appName : String) : Service Answer := do
  let app ← Rest.getApplication appName
  pure (.applications [app])

def startedException (appName : String) : String :=
  s!"Application {appName} has been started already. "

def deleteApplication (env : RestEnv) (appName : String) : Service Answer := do
  let app ← Rest.getApplication appName
  let status ← askStatus env (fullName app.org app.name)
  if notStarted status then
    dropApplication appName
    pure .done
  else throw (startedException appName)

omit [Names] in
def listApplications (env : RestEnv) (user : User) : Service Answer := do
  let g ← get
  if isRoot env user then pure (.applications (g.joined g.applications.rows))
  else pure (.applications
    (g.joined (g.applications.rows.filter fun app => app.organizationId == user.orgId)))

def startApplication (env : RestEnv) (appName : String) : Service Answer := do
  let app ← Rest.getApplication appName
  let status ← askStatus env (fullName app.org app.name)
  if notStarted status then
    let config ← match app.cluster with
      | some cluster => do
        let g ← get
        let clusterEntity ← orThrow (noSuchClusterException cluster) (g.cluster cluster)
        pure (Core.addOptions clusterEntity.config app.config)
      | none => pure app.config
    let createDriverDesc ← orThrow s!"No suitable app master for app type {app.appType}"
      (env.createDriverDesc app.appType)
    tell env (.requestSubmitDriver (fullName app.org app.name) (createDriverDesc config))
    pure (.message "")
  else throw (startedException appName)

def stopApplication (env : RestEnv) (appName : String) : Service Answer := do
  let app ← Rest.getApplication appName
  tell env (.requestKillDriver (fullName app.org app.name))
  pure (.message "")

omit [Names] in
def getApplicationInfos (env : RestEnv) (user : User) : Service Answer := do
  let pattern := if isRoot env user then none else some user.org
  let response ← askAllStatus env pattern
  match response.2 with
  | some e => throw e
  | none => pure (.applicationInfos response.1)

end ApplicationService

namespace OrganizationService

def createOrganization (env : RestEnv) (org : Organization) (user : User) : Service Answer := do
  onCatalog (JdbcCatalog.createOrganization
    { name := org.name, config := org.config, description := org.description } false user env.now)
  pure .done

def updateOrganization (env : RestEnv) (org : Organization) (user : User) : Service Answer := do
  onCatalog (JdbcCatalog.alterOrganization
    { name := org.name, config := org.config, description := org.description } user env.now)
  pure .done

def deleteOrganization (org : String) : Service Answer := do
  onCatalog (JdbcCatalog.dropOrganization org false true)
  pure .done

def deleteOrganizations (deleteOps : BatchOpSeq) : Service Answer := do
  forEach (fun org => onCatalog (JdbcCatalog.dropOrganization org true
    (deleteOps.cascade.getD false))) deleteOps.names
  pure .done

def getOrganization (name : String) : Service Answer := do
  let g ← get
  let org ← orThrow (noSuchOrganizationException name) (Store.organization g.catalog name)
  pure (.organizations [org])

/-- `listOrganizations` of the catalog. -/
def listed (g : Grid) : List OrganizationEntity :=
  (g.catalog .organizations).rows.filter fun t => !sameName t.name "SYSTEM"

def listOrganizations : Service Answer := do
  let g ← get
  pure (.organizations (listed g))

end OrganizationService

namespace OrganizationSaService

/-- The user that a body describes: a body without a password is an exception. -/
def catalogUser (env : RestEnv) (sa : OrgSa) : Service CatalogUser := do
  let password ← orThrow "None.get" sa.password
  pure { org := sa.org, name := sa.name, password := env.core.encryptSHA password }

def createSa (env : RestEnv) (sa : OrgSa) (user : User) : Service Answer := do
  let catalogUser ← catalogUser env sa
  onCatalog (JdbcCatalog.createUser catalogUser false user env.now)
  pure .done

def updateName (env : RestEnv) (orgSa : OrgSaRename) (user : User) : Service Answer := do
  onCatalog (JdbcCatalog.renameUser orgSa.org orgSa.user orgSa.newUser user env.now)
  pure .done

def updatePassword (env : RestEnv) (sa : OrgSa) (user : User) : Service Answer := do
  let catalogUser ← catalogUser env sa
  onCatalog (JdbcCatalog.alterUser catalogUser user env.now)
  pure .done

def deleteSas (sas : List OrgSa) : Service Answer := do
  forEach (fun sa : OrgSa => onCatalog (JdbcCatalog.dropUser sa.org sa.name false)) sas
  pure .done

omit [Names] in
/-- What `listSas` of the catalog looks up for each user. -/
def named (g : Grid) (u : UserEntity) : Bool :=
  (g.organizationName u.organizationId).isSome && (Core.creatorName g.catalog u.createBy).isSome

omit [Names] in
def listSas : Service Answer := do
  let g ← get
  let sas := (g.catalog .users).rows.filter fun t => t.isSA
  if sas.all (named g) then pure (.users (sas.filter fun u => u.name != "ROOT"))
  else throw "organization not exists referenced by user"

def getSa (org sa : String) : Service Answer := do
  let g ← get
  let orgEntity ← orThrow (noSuchOrganizationException org) (Store.organization g.catalog org)
  let userEntity ← orThrow s!"{sa} in organization {org}"
    (Store.user g.catalog orgEntity.id sa)
  let _ ← orThrow "user is deleted." (Core.creatorName g.catalog userEntity.createBy)
  pure (.users [userEntity])

end OrganizationSaService

namespace PrivilegeService

def listRolePrivileges (user : User) : Service Answer := do
  let g ← get
  let org ← orThrow (noSuchOrganizationException user.org)
    (Store.organization g.catalog user.org)
  pure (.users ((Store.listUsers g.catalog org.id).map Prod.fst))

omit [Names] in
/-- The users whose privileges are listed. -/
def grantees (g : Grid) (user : User) : List UserEntity :=
  (g.catalog .users).rows.filter fun u => u.organizationId == user.orgId && !u.isSA

omit [Names] in
def databasesOf (g : Grid) (databaseId : Nat) : List DatabaseEntity :=
  (g.catalog .databases).rows.filter fun d => d.id == databaseId

omit [Names] in
/-- The tables of an id, each with its databases. -/
def tablesOf (g : Grid) (tableId : Nat) : List (TableEntity × DatabaseEntity) :=
  ((g.catalog .tables).rows.filter fun t => t.id == tableId).flatMap fun t =>
    (databasesOf g t.databaseId).map fun d => (t, d)

omit [Names] in
def listDatabasePrivileges (user : User) : Service Answer := do
  let g ← get
  pure (.databasePrivileges ((grantees g user).flatMap fun u =>
    ((g.catalog .databasePrivileges).rows.filter fun p => u.id == p.userId).flatMap fun p =>
      (databasesOf g p.databaseId).map fun d => (u, p, d)))

omit [Names] in
def listTablePrivileges (user : User) : Service Answer := do
  let g ← get
  pure (.tablePrivileges ((grantees g user).flatMap fun u =>
    ((g.catalog .tablePrivileges).rows.filter fun p => u.id == p.userId).flatMap fun p =>
      (tablesOf g p.tableId).map fun td => (u, p, td)))

omit [Names] in
def listColumnPrivileges (user : User) : Service Answer := do
  let g ← get
  pure (.columnPrivileges ((grantees g user).flatMap fun u =>
    ((g.catalog .columnPrivileges).rows.filter fun p => u.id == p.userId).flatMap fun p =>
      (tablesOf g p.tableId).map fun td => (u, p, td)))

end PrivilegeService

namespace WorkbenchService

def createQuery (env : RestEnv) (query : Query) (user : User) : Service Answer := do
  onCatalog (JdbcCatalog.createQuery
    { name := query.name, text := query.text, description := query.description } false user env.now)
  pure .done

def updateQuery (env : RestEnv) (query : Query) (user : User) : Service Answer := do
  onCatalog (JdbcCatalog.alterQuery
    { name := query.name, text := query.text, description := query.description } user env.now)
  pure .done

def deleteQuery (query : String) (user : User) : Service Answer := do
  onCatalog (JdbcCatalog.dropQuery query false user)
  pure .done

def getQuery (query : String) (user : User) : Service Answer := do
  let g ← get
  let queryEntity ← orThrow (noSuchQueryException query) (Store.query g.catalog user.orgId query)
  let _ ← orThrow "user is deleted." (Core.creatorName g.catalog queryEntity.createBy)
  pure (.queries [queryEntity])

omit [Names] in
def listQueries (user : User) : Service Answer := do
  let g ← get
  let queries := (g.catalog .queries).rows.filter fun t => t.organizationId == user.orgId
  if queries.all fun t => (Core.creatorName g.catalog t.createBy).isSome then
    pure (.queries queries)
  else throw "user is deleted."

end WorkbenchService

namespace StatsService

omit [Names] in
/-- `config.getOrElse(key, default)`, read as a number. -/
def readsAs (parse : String → Option Int) (config : Properties) (key : String) : Bool :=
  match config.lookup key with
  | some value => (parse value).isSome
  | none => true

omit [Names] in
/-- Whether `getOrgResourceStatSummary` can read the totals. -/
def summarized (env : RestEnv) (org : OrganizationEntity) : Bool :=
  readsAs env.toLong org.config "total.memory" && readsAs env.toInt org.config "total.cores"

omit [Names] in
def running (env : RestEnv) (app : CatalogApplication) : Bool :=
  env.runningAppNames.contains (app.org ++ "_" ++ app.name)

/-- The status that the master is asked for comes after the names of the running applications
have been read. -/
def listResourceStats (env : RestEnv) (user : User) : Service Answer := do
  let g ← get
  let root := user.org == "SYSTEM" && user.user == "ROOT"
  let orgs := (OrganizationService.listed g).filter fun t => root || env.like t.name user.org
  let catalogApps := g.joined (g.applications.rows.filter fun app =>
    app.organizationId == user.orgId && (root || env.like app.name user.org))
  tell env (.requestAllDriverStatus (if root then none else some user.org))
  let apps := catalogApps.filter (running env)
  if (apps.all fun app => (env.getAppResourceStat app.toApplicationEntity).toBool) &&
      orgs.all (summarized env) then
    pure (.resourceStats orgs (apps.map CatalogApplication.toApplicationEntity))
  else throw "NumberFormatException"

end StatsService

/-! ### Every route -/

@[simp] def handle (env : RestEnv) (user : User) : Request → Service Answer
  | .swagger | .login .. | .logout | .listNodes | .applicationTemplate | .viewLog _ => pure .done
  | .executeConsole _ | .cancelConsole _ | .reconnectConnection _ | .closeConnection _ =>
    pure .done
  | .createCluster cluster => ClusterService.createCluster env cluster user
  | .updateCluster cluster => ClusterService.updateCluster env cluster user
  | .deleteCluster cluster => ClusterService.deleteCluster cluster
  | .getCluster cluster => ClusterService.getCluster cluster
  | .listClusters => ClusterService.listClusters
  | .applicationInfos => ApplicationService.getApplicationInfos env user
  | .createApplication app => ApplicationService.createApplication env app user
  | .deleteApplication appName => ApplicationService.deleteApplication env appName
  | .getApplication appName => ApplicationService.getApplication appName
  | .listApplications => ApplicationService.listApplications env user
  | .startApplication appName => ApplicationService.startApplication env appName
  | .stopApplication appName => ApplicationService.stopApplication env appName
  | .createQuery query => WorkbenchService.createQuery env query user
  | .updateQuery query => WorkbenchService.updateQuery env query user
  | .deleteQuery queryName => WorkbenchService.deleteQuery queryName user
  | .getQuery queryName => WorkbenchService.getQuery queryName user
  | .listQueries => WorkbenchService.listQueries user
  | .createOrganization org => OrganizationService.createOrganization env org user
  | .updateOrganization org => OrganizationService.updateOrganization env org user
  | .deleteOrganization org => OrganizationService.deleteOrganization org
  | .deleteOrganizations batchOp => OrganizationService.deleteOrganizations batchOp
  | .getOrganization org => OrganizationService.getOrganization org
  | .listOrganizations => OrganizationService.listOrganizations
  | .createSa sa => OrganizationSaService.createSa env sa user
  | .updateName rename => OrganizationSaService.updateName env rename user
  | .updatePassword orgSa => OrganizationSaService.updatePassword env orgSa user
  | .deleteSas sas => OrganizationSaService.deleteSas sas
  | .getSa orgName saName => OrganizationSaService.getSa orgName saName
  | .listSas => OrganizationSaService.listSas
  | .listRolePrivileges => PrivilegeService.listRolePrivileges user
  | .listDatabasePrivileges => PrivilegeService.listDatabasePrivileges user
  | .listTablePrivileges => PrivilegeService.listTablePrivileges user
  | .listColumnPrivileges => PrivilegeService.listColumnPrivileges user
  | .listResourceStats => StatsService.listResourceStats env user

end Moonbox.Rest
