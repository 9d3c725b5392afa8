import Moonbox.Core.Account

/-!
# DDL commands

Databases, tables, functions, views, procedures and timed events. What a command does to the
catalog of the engine beside is left out.
-/

namespace Moonbox.Core

open Catalog Relational

def CatalogTableType.TABLE : String := "TABLE"

def CatalogTableType.VIEW : String := "VIEW"

variable [Names] (env : Env) (catalog : MoonboxCatalog) (now : Nat)

/-! ### Databases -/

/-- A table of a data system, as it is entered below its database. -/
def mountedTable (props : Properties) (db : String) (owner : Option String) (tbName : String) :
    CatalogTable :=
  { db := some db
    name := tbName
    tableType := CatalogTableType.TABLE
    properties := env.tableProperties props tbName
    owner := owner }

def MountDatabase.run (name : String) (props : Properties) (ignoreIfExists : Bool) :
    DBIO Unit := do
  liftExcept (env.test props)
  JdbcCatalog.createDatabase { name := name, properties := props, isLogical := false }
    ignoreIfExists catalog.userInSession now
  let tables ← liftExcept (env.tableNames props)
  Action.forEach (fun tbName =>
    JdbcCatalog.createTable (mountedTable env props name none tbName) true
      catalog.userInSession now) tables

def RefreshDatabase.run (name : String) : DBIO Unit := do
  let catalogDatabase ← JdbcCatalog.getDatabase name catalog.userInSession
  if catalogDatabase.isLogical then .throw "Can not refresh logical database."
  else do
    let props := catalogDatabase.properties
    liftExcept (env.test props)
    let tables ← JdbcCatalog.listTables catalogDatabase.name catalog.userInSession
    let exist := tables.map CatalogTable.name
    let dsTables ← liftExcept (env.tableNames props)
    Action.forEach (fun t =>
      JdbcCatalog.createTable (mountedTable env props name catalogDatabase.owner t) true
        catalog.userInSession now) (dsTables.diff exist)
    Action.forEach (fun t => JdbcCatalog.dropTable name t true catalog.userInSession)
      (exist.diff dsTables)

/-- Read a database, change the copy and write it back. -/
def changeDatabase (name : String) (change : CatalogDatabase → CatalogDatabase) : DBIO Unit := do
  let existDatabase ← JdbcCatalog.getDatabase name catalog.userInSession
  JdbcCatalog.alterDatabase (change existDatabase) catalog.userInSession now

def AlterDatabaseSetOptions.run (name : String) (props : Properties) : DBIO Unit :=
  changeDatabase catalog now name fun d => { d with properties := addOptions d.properties props }

def UnmountDatabase.run (name : String) (ignoreIfNotExists cascade : Bool) : DBIO Unit := do
  let existDatabase ← JdbcCatalog.getDatabase name catalog.userInSession
  if existDatabase.isLogical then
    .throw s!"Database {name} is logical. Please use DROP DATABASE command."
  else catalog.dropDatabase name ignoreIfNotExists cascade

def CreateDatabase.run (name : String) (comment : Option String) (ignoreIfExists : Bool) :
    DBIO Unit :=
  JdbcCatalog.createDatabase
    { name := name, description := comment, properties := [], isLogical := true }
    ignoreIfExists catalog.userInSession now

/-- The session follows the database it is in. -/
def AlterDatabaseSetName.run (name newName : String) : DBIO MoonboxCatalog := do
  JdbcCatalog.renameDatabase name newName catalog.userInSession now
  if env.equalsIgnoreCase catalog.currentDb name then catalog.setCurrentDb newName
  else pure catalog

def AlterDatabaseSetComment.run (name comment : String) : DBIO Unit :=
  changeDatabase catalog now name fun d => { d with description := some comment }

def DropDatabase.run (name : String) (ignoreIfNotExists cascade : Bool) : DBIO Unit := do
  let existDatabase ← JdbcCatalog.getDatabase name catalog.userInSession
  if !existDatabase.isLogical then
    .throw s!"Database {name} is physical. Please use UNMOUNT DATABASE command."
  else catalog.dropDatabase name ignoreIfNotExists cascade

/-! ### Tables -/

def MountTable.run (table : TableIdentifier) (props : Properties) (isStream ignoreIfExists : Bool) :
    DBIO Unit := do
  let database ← JdbcCatalog.getDatabase (catalog.databaseOf table.database) catalog.userInSession
  if !database.isLogical then
    .throw s!"Can't mount table in physical database {database.name}"
  else do
    liftExcept (env.test props)
    JdbcCatalog.createTable
      { db := some database.name
        name := table.table
        tableType := CatalogTableType.TABLE
        properties := props
        isStream := isStream }
      ignoreIfExists catalog.userInSession now

def AlterTableSetName.run (table newTable : TableIdentifier) : DBIO Unit :=
  if table.database ≠ newTable.database then
    .throw "requirement failed: Rename table cant not rename database"
  else do
    let database ← JdbcCatalog.getDatabase (catalog.databaseOf table.database)
      catalog.userInSession
    if !database.isLogical then .throw "Can't rename table in physical database"
    else
      JdbcCatalog.renameTable database.name table.table newTable.table catalog.userInSession now

def AlterTableSetOptions.run (table : TableIdentifier) (props : Properties) : DBIO Unit := do
  let existTable ← JdbcCatalog.getTable (catalog.databaseOf table.database) table.table
    catalog.userInSession
  if existTable.tableType ≠ CatalogTableType.TABLE then
    .throw s!"{existTable.name} is not a table."
  else
    JdbcCatalog.alterTable
      { existTable with properties := addOptions existTable.properties props }
      catalog.userInSession now

def UnmountTable.run (table : TableIdentifier) (ignoreIfNotExists : Bool) : DBIO Unit := do
  let dbName := catalog.databaseOf table.database
  let database ← JdbcCatalog.getDatabase dbName catalog.userInSession
  if !database.isLogical then .throw "Can't unmount table in physical database."
  else JdbcCatalog.dropTable dbName table.table ignoreIfNotExists catalog.userInSession

/-! ### Functions -/

def CreateFunction.run (function : FunctionIdentifier) (className : String)
    (methodName : Option String) (resources : List FunctionResource) (ignoreIfExists : Bool) :
    DBIO Unit := do
  let database ← JdbcCatalog.getDatabase (catalog.databaseOf function.database)
    catalog.userInSession
  JdbcCatalog.createFunction
    { name := function.funcName
      db := some database.name
      description := none
      className := className
      methodName := methodName
      resources := resources }
    ignoreIfExists catalog.userInSession now

def DropFunction.run (function : FunctionIdentifier) (ignoreIfNotExists : Bool) : DBIO Unit := do
  let database ← JdbcCatalog.getDatabase (catalog.databaseOf function.database)
    catalog.userInSession
  match ← JdbcCatalog.databaseExists database.name catalog.userInSession with
  | true =>
    JdbcCatalog.dropFunction database.name function.funcName ignoreIfNotExists
      catalog.userInSession
  | false => pure ()

/-! ### Views -/

/-- An existing table is looked at only if it may be replaced. -/
def CreateView.run (view : TableIdentifier) (query : String) (comment : Option String)
    (replaceIfExists : Bool) : DBIO Unit := do
  let database ← JdbcCatalog.getDatabase (catalog.databaseOf view.database) catalog.userInSession
  if !database.isLogical then .throw "Can't create view in physical database"
  else do
    let tableExists ← JdbcCatalog.tableExists database.name view.table catalog.userInSession
    if tableExists && replaceIfExists then do
      let existing ← JdbcCatalog.getTable database.name view.table catalog.userInSession
      if existing.tableType ≠ CatalogTableType.VIEW then
        .throw s!"Can't replace table {view.table} to view."
      else
        JdbcCatalog.alterTable
          { existing with
            viewText := some query
            description :=
              match comment with
              | some _ => comment
              | none => existing.description }
          catalog.userInSession now
    else
      JdbcCatalog.createTable
        { db := some database.name
          name := view.table
          tableType := CatalogTableType.VIEW
          description := comment
          viewText := some query }
        false catalog.userInSession now

def AlterViewSetQuery.run (view : TableIdentifier) (query : String) : DBIO Unit := do
  let database ← JdbcCatalog.getDatabase (catalog.databaseOf view.database) catalog.userInSession
  let existView ← JdbcCatalog.getTable database.name view.table catalog.userInSession
  if existView.tableType ≠ CatalogTableType.VIEW then .throw s!"{existView.name} is not a view."
  else JdbcCatalog.alterTable { existView with viewText := some query } catalog.userInSession now

def DropView.run (view : TableIdentifier) (ignoreIfNotExists : Bool) : DBIO Unit := do
  let database ← JdbcCatalog.getDatabase (catalog.databaseOf view.database) catalog.userInSession
  let existView ← JdbcCatalog.getTable database.name view.table catalog.userInSession
  if existView.tableType ≠ CatalogTableType.VIEW then .throw s!"{existView.name} is not a view."
  else
    JdbcCatalog.dropTable database.name view.table ignoreIfNotExists catalog.userInSession

/-! ### Procedures -/

def CreateProcedure.run (name : String) (queryList : List String) (lang : String)
    (ignoreIfExists : Bool) : DBIO Unit :=
  JdbcCatalog.createProcedure { name := name, sqls := queryList, lang := lang } ignoreIfExists
    catalog.userInSession now

def AlterProcedureSetName.run (name newName : String) : DBIO Unit :=
  JdbcCatalog.renameProcedure name newName catalog.userInSession now

def AlterProcedureSetQuery.run (name : String) (queryList : List String) : DBIO Unit := do
  let procedure ← JdbcCatalog.getProcedure name catalog.userInSession
  JdbcCatalog.alterProcedure { procedure with sqls := queryList } catalog.userInSession now

def DropProcedure.run (name : String) (ignoreIfNotExists : Bool) : DBIO Unit :=
  JdbcCatalog.dropProcedure name ignoreIfNotExists catalog.userInSession

/-! ### Timed events -/

def CreateTimedEvent.run (name : String) (definer : Option String) (schedule : String)
    (description : Option String) (proc : String) (enable ignoreIfExists : Bool) : DBIO Unit :=
  JdbcCatalog.createTimedEvent
    { name := name
      definer := definer.getD catalog.getCurrentUser
      schedule := schedule
      enable := enable
      description := description
      procedure := proc }
    ignoreIfExists catalog.userInSession now

/-- Only an event that does not run is altered, but for its being enabled. -/
def whileNotRunning (name running : String) (m : CatalogTimedEvent → DBIO Unit) : DBIO Unit := do
  let timedEvent ← JdbcCatalog.getTimedEvent name catalog.userInSession
  if timedEvent.enable then .throw running else m timedEvent

def AlterTimedEventSetName.run (name newName : String) : DBIO Unit :=
  whileNotRunning catalog name s!"Can't rename Event {name}, while it is running." fun _ =>
    JdbcCatalog.renameTimedEvent name newName catalog.userInSession now

def AlterTimedEventSetDefiner.run (name : String) (definer : Option String) : DBIO Unit :=
  whileNotRunning catalog name s!"Can't alter definer of Event {name}, while it is running."
    fun timedEvent =>
      JdbcCatalog.alterTimedEvent
        { timedEvent with definer := definer.getD catalog.getCurrentUser }
        catalog.userInSession now

def AlterTimedEventSetSchedule.run (name schedule : String) : DBIO Unit :=
  whileNotRunning catalog name s!"Can't alter schedule of Event {name}, while it is running."
    fun timedEvent =>
      JdbcCatalog.alterTimedEvent { timedEvent with schedule := schedule }
        catalog.userInSession now

def AlterTimedEventSetEnable.run (name : String) (enable : Bool) : DBIO Unit := do
  let timedEvent ← JdbcCatalog.getTimedEvent name catalog.userInSession
  JdbcCatalog.alterTimedEvent { timedEvent with enable := enable } catalog.userInSession now

def DropTimedEvent.run (name : String) (ignoreIfNotExists : Bool) : DBIO Unit :=
  whileNotRunning catalog name s!"Can't delete schedule of Event {name}, while it is running."
    fun _ => JdbcCatalog.dropTimedEvent name ignoreIfNotExists catalog.userInSession

end Moonbox.Core
