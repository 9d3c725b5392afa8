import Moonbox.Catalog.CatalogItem

/-!
# Commands

What the parser makes of a statement. The lists that the grammar does not allow to be empty carry
that they are not.
-/

namespace Moonbox.Core

open Catalog

/-- The account, ddl and dcl rights of a user. -/
inductive RolePrivilege
  | DDL
  | DCL
  | ACCOUNT
  deriving DecidableEq, Repr

inductive ResourcePrivilege
  | select
  | update
  | insert
  | delete
  | truncate
  | columnSelect (column : List String)
  | columnUpdate (column : List String)
  deriving DecidableEq, Repr

namespace ResourcePrivilege

def NAME : ResourcePrivilege → String
  | .select => "SELECT"
  | .update => "UPDATE"
  | .insert => "INSERT"
  | .delete => "DELETE"
  | .truncate => "TRUNCATE"
  | .columnSelect _ => "SELECT"
  | .columnUpdate _ => "UPDATE"

def isColumnLevel : ResourcePrivilege → Bool
  | .columnSelect _ => true
  | .columnUpdate _ => true
  | _ => false

def ALL : List ResourcePrivilege := [.select, .update, .insert, .delete, .truncate]

end ResourcePrivilege

structure TableIdentifier where
  table : String
  database : Option String := none
  deriving DecidableEq, Repr

structure FunctionIdentifier where
  funcName : String
  database : Option String := none
  deriving DecidableEq, Repr

/-- A list with at least one element. -/
abbrev NonemptyList (α : Type) := { l : List α // l ≠ [] }

inductive InsertMode
  | append
  | overwrite
  | merge
  deriving DecidableEq, Repr

inductive Command
  -- Organization
  | createOrganization (name : String) (comment : Option String) (config : Properties)
    (ignoreIfExists : Bool)
  | alterOrganizationSetName (name newName : String)
  | alterOrganizationSetComment (name comment : String)
  | alterOrganizationSetOptions (name : String) (options : Properties)
  | dropOrganization (name : String) (ignoreIfNotExists cascade : Bool)
  | showOrganizations (pattern : Option String)
  | createSa (name password organization : String) (configuration : Properties)
    (ignoreIfExists : Bool)
  | alterSaSetName (name newName organization : String)
  | alterSaSetPassword (name newPassword organization : String)
  | alterSaSetOptions (name : String) (options : Properties) (organization : String)
  | dropSa (name organization : String) (ignoreIfNotExists : Bool)
  | descOrganization (name : String)
  | showSas (pattern : Option String)
  -- Account
  | createUser (name password : String) (configuration : Properties) (ignoreIfExists : Bool)
  | alterUserSetName (name newName : String)
  | alterUserSetPassword (name newPassword : String)
  | alterUserSetOptions (name : String) (options : Properties)
  | dropUser (name : String) (ignoreIfNotExists : Bool)
  | showUsers (pattern : Option String)
  | descUser (user : String)
  -- DDL
  | mountDatabase (name : String) (props : Properties) (ignoreIfExists : Bool)
  | refreshDatabase (name : String)
  | alterDatabaseSetOptions (name : String) (props : Properties)
  | unmountDatabase (name : String) (ignoreIfNotExists cascade : Bool)
  | createDatabase (name : String) (comment : Option String) (ignoreIfExists : Bool)
  | alterDatabaseSetName (name newName : String)
  | alterDatabaseSetComment (name comment : String)
  | dropDatabase (name : String) (ignoreIfNotExists cascade : Bool)
  | mountTable (table : TableIdentifier) (props : Properties) (isStream ignoreIfExists : Bool)
  | alterTableSetName (table newTable : TableIdentifier)
  | alterTableSetOptions (table : TableIdentifier) (props : Properties)
  | unmountTable (table : TableIdentifier) (ignoreIfNotExists : Bool)
  | createFunction (function : FunctionIdentifier) (className : String)
    (methodName : Option String) (resources : List FunctionResource) (ignoreIfExists : Bool)
  | dropFunction (function : FunctionIdentifier) (ignoreIfNotExists : Bool)
  | createView (view : TableIdentifier) (query : String) (comment : Option String)
    (replaceIfExists : Bool)
  | alterViewSetQuery (view : TableIdentifier) (query : String)
  | dropView (view : TableIdentifier) (ignoreIfNotExists : Bool)
  | createProcedure (name : String) (queryList : List String) (lang : String)
    (ignoreIfExists : Bool)
  | alterProcedureSetName (name newName : String)
  | alterProcedureSetQuery (name : String) (queryList : List String)
  | dropProcedure (name : String) (ignoreIfNotExists : Bool)
  | createTimedEvent (name : String) (definer : Option String) (schedule : String)
    (description : Option String) (proc : String) (enable ignoreIfExists : Bool)
  | alterTimedEventSetName (name newName : String)
  | alterTimedEventSetDefiner (name : String) (definer : Option String)
  | alterTimedEventSetSchedule (name schedule : String)
  | alterTimedEventSetEnable (name : String) (enable : Bool)
  | dropTimedEvent (name : String) (ignoreIfNotExists : Bool)
  -- DML
  | useDatabase (db : String)
  | showDatabases (pattern : Option String)
  | showTables (database pattern : Option String)
  | showFunctions (database pattern : Option String) (userFunc builtInFunc : Bool)
  | showProcedures (pattern : Option String)
  | showEvents (pattern : Option String)
  | showGrants (user : String)
  | showCreateTable (table : TableIdentifier)
  | showSchema (sql : String)
  | descDatabase (name : String)
  | descTable (table : TableIdentifier) (extended : Bool)
  | descFunction (function : FunctionIdentifier) (isExtended : Bool)
  | descProcedure (proc : String)
  | descEvent (event : String)
  | explain (query : String) (extended : Bool)
  | mqlQuery (query : String)
  | createTempView (name query : String) (isCache replaceIfExists : Bool)
  | createTempFunction (function : FunctionIdentifier) (className : String)
    (methodName : Option String) (resources : List FunctionResource) (ignoreIfExists : Bool)
  | dropTempFunction (function : FunctionIdentifier) (ignoreIfNotExists : Bool)
  | insertInto (table : TableIdentifier) (query : String) (partitionColumns : List String)
    (coalesce : Option Nat) (insertMode : InsertMode)
  | statement (sql : String)
  -- DCL
  | createGroup (name : String) (desc : Option String) (ignoreIfExists : Bool)
  | alterGroupSetName (name newName : String)
  | alterGroupSetComment (name comment : String)
  | alterGroupAddUser (name : String) (users : NonemptyList String)
  | alterGroupRemoveUser (name : String) (users : NonemptyList String)
  | dropGroup (name : String) (ignoreIfNotExists cascade : Bool)
  | grantGrantToUser (grants : NonemptyList RolePrivilege) (user : String)
  | grantGrantToGroup (grants : NonemptyList RolePrivilege) (group : String)
  | revokeGrantFromUser (grants : NonemptyList RolePrivilege) (user : String)
  | revokeGrantFromGroup (grants : NonemptyList RolePrivilege) (group : String)
  | grantPrivilegeToUser (privileges : NonemptyList RolePrivilege) (user : String)
  | grantPrivilegeToGroup (privileges : NonemptyList RolePrivilege) (group : String)
  | revokePrivilegeFromUser (privileges : NonemptyList RolePrivilege) (user : String)
  | revokePrivilegeFromGroup (privileges : NonemptyList RolePrivilege) (group : String)
  | grantResourceToUser (privileges : NonemptyList ResourcePrivilege)
    (tableIdentifier : TableIdentifier) (user : String)
  | grantResourceToGroup (privileges : NonemptyList ResourcePrivilege)
    (tableIdentifier : TableIdentifier) (group : String)
  | revokeResourceFromUser (privileges : NonemptyList ResourcePrivilege)
    (tableIdentifier : TableIdentifier) (user : String)
  | revokeResourceFromGroup (privileges : NonemptyList ResourcePrivilege)
    (tableIdentifier : TableIdentifier) (group : String)
  | showGroups (pattern : Option String)
  | showUsersInGroup (group : String) (pattern : Option String)
  -- System
  | showSysInfo
  | showJobInfo
  | showRunningEventInfo

/-- The traits that the classes of the commands mix in. -/
inductive CommandTrait
  | organization
  | account
  | ddl
  | dml
  | dcl
  | system
  deriving DecidableEq, Repr

end Moonbox.Core
