import Moonbox.Core.Command

/-!
# `MqlBase`

The parse trees of the grammar, over the type of their identifiers. Keywords that are only there
or not are booleans; what stands in a `STRING`, a password or a query is its text, quotes included.
-/

namespace Moonbox.Parser

open Moonbox.Core (NonemptyList)

abbrev Text := List Char

/-! ### Identifiers -/

def isQuote (c : Char) : Bool := c = '\'' || c = '"' || c = '`'

/-- A letter, a digit or `_`, or one of the characters of the operators that are identifiers. -/
def isPlain (c : Char) : Bool := c.isAlphanum || ['_', '=', '<', '>', '*'].contains c

/-- An `IDENTIFIER` or a keyword that is not reserved. -/
abbrev Word := { word : Text // word.all isPlain = true }

inductive Identifier
  | plain (word : Word)
  | backquoted (name : Text)

/-! ### Types of columns -/

mutual

inductive DataTypeContext (ι : Type)
  | array (dataType : DataTypeContext ι)
  | map (keyType valueType : DataTypeContext ι)
  | struct (complexColTypeList : ColTypeListContext ι)
  /-- The name of the type and the integers after it. -/
  | primitive (identifier : Text) (integerValues : List Text)

inductive ColTypeListContext (ι : Type)
  | nil
  | cons (identifier : ι) (dataType : DataTypeContext ι) (colTypes : ColTypeListContext ι)

end

/-! ### Parts of statements -/

inductive PropertyKey
  | identifiers (text : Text)
  | string (string : Text)

abbrev PropertyListContext := List (PropertyKey × Text)

structure TableIdentifierContext (ι : Type) where
  db : Option ι
  table : ι

structure FuncIdentifierContext (ι : Type) where
  db : Option ι
  func : ι

/-- A star is a word. -/
structure TableCollectionsContext (ι : Type) where
  db : Option ι
  table : ι

/-- Without a user it is `CURRENT_USER`. -/
structure DefinerContext (ι : Type) where
  user : Option ι

structure ResourceContext where
  identifier : Text
  string : Text

inductive GrantPrivilegeContext
  | account
  | ddl
  | dcl

inductive PrivilegeContext (ι : Type)
  | select (columnIdentifiers : Option (List ι))
  | update (columnIdentifiers : Option (List ι))
  | insert
  | delete
  | truncate
  | all

/-! ### Statements -/

inductive Mql (ι : Type)
  | createOrganization (ifNotExists : Bool) (name : ι) (comment : Option Text)
    (propertyList : Option PropertyListContext)
  | setOrganizationOptions (name : ι) (propertyList : PropertyListContext)
  | setOrganizationComment (name : ι) (comment : Text)
  | dropOrganization (ifExists : Bool) (name : ι) (cascade : Bool)
  | createSa (ifNotExists : Bool) (name org : ι) (pwd : Text)
    (propertyList : Option PropertyListContext)
  | setSaPassword (name org : ι) (pwd : Text)
  | setSaOptions (name org : ι) (propertyList : PropertyListContext)
  | dropSa (ifExists : Bool) (name org : ι)
  | grantGrantToUser (grants : NonemptyList GrantPrivilegeContext) (user : ι)
  | revokeGrantFromUser (grants : NonemptyList GrantPrivilegeContext) (user : ι)
  | grantGrantToGroup (grants : NonemptyList GrantPrivilegeContext) (group : ι)
  | revokeGrantFromGroup (grants : NonemptyList GrantPrivilegeContext) (group : ι)
  | grantPrivilegeToUsers (grants : NonemptyList GrantPrivilegeContext) (user : ι)
  | revokePrivilegeFromUsers (grants : NonemptyList GrantPrivilegeContext) (user : ι)
  | grantPrivilegeToGroup (grants : NonemptyList GrantPrivilegeContext) (group : ι)
  | revokePrivilegeFromGroup (grants : NonemptyList GrantPrivilegeContext) (group : ι)
  | grantResourcePrivilegeToUsers (privileges : NonemptyList (PrivilegeContext ι))
    (tableCollections : TableCollectionsContext ι) (user : ι)
  | revokeResourcePrivilegeFromUsers (privileges : NonemptyList (PrivilegeContext ι))
    (tableCollections : TableCollectionsContext ι) (user : ι)
  | grantResourcePrivilegeToGroup (privileges : NonemptyList (PrivilegeContext ι))
    (tableCollections : TableCollectionsContext ι) (group : ι)
  | revokeResourcePrivilegeFromGroup (privileges : NonemptyList (PrivilegeContext ι))
    (tableCollections : TableCollectionsContext ι) (group : ι)
  | createUser (ifNotExists : Bool) (name : ι) (pwd : Text)
    (propertyList : Option PropertyListContext)
  | setUserPassword (name : ι) (pwd : Text)
  | setUserOptions (name : ι) (propertyList : PropertyListContext)
  | dropUser (ifExists : Bool) (name : ι)
  | createGroup (ifNotExists : Bool) (name : ι) (comment : Option Text)
  | setGroupComment (name : ι) (comment : Text)
  | addGroupUser (name : ι) (addUser : NonemptyList ι)
  | removeGroupUser (name : ι) (removeUser : NonemptyList ι)
  | dropGroup (ifExists : Bool) (name : ι) (cascade : Bool)
  | mountTable (stream ifNotExists : Bool) (tableIdentifier : TableIdentifierContext ι)
    (columns : Option (ColTypeListContext ι)) (propertyList : PropertyListContext)
  | setTableProperties (name : TableIdentifierContext ι) (propertyList : PropertyListContext)
  | unmountTable (ifExists : Bool) (name : TableIdentifierContext ι)
  | mountDatabase (ifNotExists : Bool) (name : ι) (propertyList : PropertyListContext)
  | unmountDatabase (ifExists : Bool) (name : ι) (cascade : Bool)
  | setDatabaseProperties (name : ι) (propertyList : PropertyListContext)
  | refreshDatabase (name : ι)
  | createDatabase (ifNotExists : Bool) (name : ι) (comment : Option Text)
  | setDatabaseComment (name : ι) (comment : Text)
  | dropDatabase (ifExists : Bool) (name : ι) (cascade : Bool)
  | useDatabase (db : ι)
  | createFunction (temp ifNotExists : Bool) (name : FuncIdentifierContext ι) (className : Text)
    (methodName : Option Text) (resources : List ResourceContext)
  | dropFunction (temp ifExists : Bool) (name : FuncIdentifierContext ι)
  | createView (replace : Bool) (name : TableIdentifierContext ι) (comment : Option Text)
    (query : Text)
  | setViewQuery (name : TableIdentifierContext ι) (query : Text)
  | dropView (ifExists : Bool) (name : TableIdentifierContext ι)
  | createProcedure (ifNotExists : Bool) (name : ι) (mql : Bool) (procCmds : List Text)
  | setProcedureQuerys (name : ι) (procCmds : List Text)
  | dropProcedure (ifExists : Bool) (name : ι)
  | createEvent (definer : Option (DefinerContext ι)) (ifNotExists : Bool) (name : ι)
    (cronExpression : Text) (enable : Bool) (comment : Option Text) (proc : ι)
  | setDefiner (definer : DefinerContext ι) (name : ι)
  | setEventSchedule (name : ι) (cronExpression : Text)
  | setEventEnable (name : ι) (enable : Bool)
  | dropEvent (ifExists : Bool) (name : ι)
  | showSysInfo
  | showJobs
  | showRunningEvents
  | showEvents (pattern : Option Text)
  | showDatabase (pattern : Option Text)
  | showTables (db : Option ι) (pattern : Option Text)
  | showFunctions (scope : Option Text) (db : Option ι) (pattern : Option Text)
  | showOrgs (pattern : Option Text)
  | showSas (pattern : Option Text)
  | showUsers (pattern : Option Text)
  | showGroups (pattern : Option Text)
  | showUsersInGroup (name : ι) (pattern : Option Text)
  | showProcedures (pattern : Option Text)
  | showGrants (user : ι)
  | showCreateTable (name : TableIdentifierContext ι)
  | showSchema (query : Text)
  | descEvent (name : ι)
  | descProcedure (name : ι)
  | descDatabase (name : ι)
  | descTable (extended : Bool) (tableIdentifier : TableIdentifierContext ι)
  | descFunction (extended : Bool) (funcIdentifier : FuncIdentifierContext ι)
  | descUser (name : ι)
  | descOrg (name : ι)
  | explain (extended : Bool) (query : Text)
  | createTemporaryView (replace cache : Bool) (name : ι) (query : Text)
  | statement (text : Text)

end Moonbox.Parser
