import Moonbox.Catalog.Entities

/-!
# Catalog items and exceptions

What callers hand to the catalog and get back from it, and the messages of its exceptions.
-/

namespace Moonbox.Catalog

/-- `AbstractCatalog.User`: the user on whose behalf an operation runs. -/
structure User where
  orgId : Nat
  org : String
  userId : Nat
  user : String
  deriving DecidableEq, Repr, Inhabited

structure CatalogOrganization where
  name : String
  config : Properties
  description : Option String := none
  deriving DecidableEq, Repr, Inhabited

structure CatalogUser where
  org : String
  name : String
  password : String
  account : Bool := false
  ddl : Bool := false
  dcl : Bool := false
  grantAccount : Bool := false
  grantDdl : Bool := false
  grantDcl : Bool := false
  isSA : Bool := false
  configuration : Properties := []
  createBy : Option String := none
  createTime : Option Nat := none
  updateTime : Option Nat := none
  deriving DecidableEq, Repr, Inhabited

structure CatalogGroup where
  name : String
  desc : Option String
  deriving DecidableEq, Repr, Inhabited

structure CatalogGroupUserRel where
  group : String
  users : List String
  deriving DecidableEq, Repr, Inhabited

structure CatalogDatabase where
  name : String
  description : Option String := none
  properties : Properties
  isLogical : Bool
  owner : Option String := none
  deriving DecidableEq, Repr, Inhabited

structure CatalogTable where
  name : String
  db : Option String
  tableType : String
  description : Option String := none
  properties : Properties := []
  viewText : Option String := none
  isStream : Bool := false
  tableSize : Option Int := none
  owner : Option String := none
  deriving DecidableEq, Repr, Inhabited

structure FunctionResource where
  resourceType : String
  uri : String
  deriving DecidableEq, Repr, Inhabited

structure CatalogFunction where
  name : String
  db : Option String
  description : Option String
  className : String
  methodName : Option String
  resources : List FunctionResource
  owner : Option String := none
  deriving DecidableEq, Repr, Inhabited

structure CatalogProcedure where
  name : String
  sqls : List String
  lang : String
  description : Option String := none
  owner : Option String := none
  deriving DecidableEq, Repr, Inhabited

structure CatalogTimedEvent where
  name : String
  definer : String
  schedule : String
  enable : Bool
  description : Option String := none
  procedure : String
  owner : Option String := none
  deriving DecidableEq, Repr, Inhabited

structure CatalogQuery where
  name : String
  text : String
  description : Option String := none
  owner : Option String := none
  deriving DecidableEq, Repr, Inhabited

structure CatalogDatabasePrivilege where
  user : String
  database : String
  privileges : List String
  deriving DecidableEq, Repr, Inhabited

structure CatalogTablePrivilege where
  user : String
  database : String
  table : String
  privileges : List String
  deriving DecidableEq, Repr, Inhabited

/-- `privilege` is the map from a column to the types of its privileges. -/
structure CatalogColumnPrivilege where
  user : String
  database : String
  table : String
  privilege : List (String × List String)
  deriving DecidableEq, Repr, Inhabited

/-! ### Exceptions -/

def organizationExistsException (org : String) : String := s!"Organization {org} already exists"

def userExistsException (user : String) : String := s!"User {user} already exists"

def groupExistsException (group : String) : String := s!"Group {group} already exists"

def databaseExistsException (db : String) : String := s!"Database {db} already exists"

def tableExistsException (db table : String) : String :=
  s!"Table {table} already exists in database {db}"

def functionExistsException (db func : String) : String :=
  s!"Function {func} already exists in database {db}"

def procedureExistsException (proc : String) : String := s!"Procedure {proc} already exists"

def timedEventExistsException (event : String) : String := s!"Event {event} already exists"

def noSuchOrganizationException (org : String) : String := s!"Organization '{org}' not found"

def noSuchUserException (user : String) : String := s!"User '{user}' not found"

def noSuchGroupException (group : String) : String := s!"Group '{group}' not found"

def noSuchDatabaseException (db : String) : String := s!"Database '{db}' not found"

def noSuchTableException (db table : String) : String :=
  s!"Table or view '{table}' not found in database '{db}'"

def noSuchFunctionException (db func : String) : String :=
  s!"Function '{func}' not found in database '{db}'"

def noSuchProcedureException (proc : String) : String := s!"Procedure '{proc}' not found"

def noSuchTimedEventException (event : String) : String := s!"Scheduler '{event}' not found"

def noSuchQueryException (query : String) : String := s!"Query '{query}' not found"

def procedureStillUsedException (proc : String) : String :=
  s!"procedure {proc} is still used by some events"

def nonEmptyException (message : String) : String :=
  s!"{message} is not empty. Please clear it first or use CASCADE keyword."

end Moonbox.Catalog
