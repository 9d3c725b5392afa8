import Moonbox.Core.MoonboxCatalog

/-!
# `PrivilegeAnalysis`

The rule that refuses a query to a user who may not read one of its columns. Of a plan it looks at
the relations, the attributes that operators refer to and the tables that are inserted into.
-/

namespace Moonbox.Core

open Catalog Relational

/-! ### Plans -/

/-- Attributes are told apart by `exprId`. -/
structure Attribute where
  exprId : Nat
  name : String
  deriving DecidableEq, Repr

/-- `AttributeSet.contains` -/
def containsAttribute (attributes : List Attribute) (a : Attribute) : Bool :=
  attributes.any fun b => b.exprId == a.exprId

lemma containsAttribute_iff {attributes : List Attribute} {a : Attribute} :
    containsAttribute attributes a = true ↔ ∃ b ∈ attributes, b.exprId = a.exprId := by
  simp [containsAttribute]

inductive InsertCommand
  | insertIntoDataSourceCommand
  | insertIntoHadoopFsRelationCommand
  | insertIntoHiveTable
  deriving DecidableEq, Repr

mutual

inductive Expression
  | attribute (a : Attribute)
  | node (children : List Expression)
  /-- EXISTS, IN or a scalar subquery. The children are what it takes from outside. -/
  | subquery (children : List Expression) (plan : LogicalPlan)

/-- An analysed plan. Operators that the rule does not tell apart are a `node`. -/
inductive LogicalPlan
  | view (desc : TableIdentifier) (output : List Attribute) (child : LogicalPlan)
  | logicalRelation (catalogTable : Option TableIdentifier) (output : List Attribute)
  | catalogRelation (tableMeta : TableIdentifier) (output : List Attribute)
  | insert (command : InsertCommand) (table : Option TableIdentifier) (query : LogicalPlan)
  | node (expressions : List Expression) (output : List Attribute) (children : List LogicalPlan)

end

namespace LogicalPlan

def output : LogicalPlan → List Attribute
  | view _ output _ => output
  | logicalRelation _ output => output
  | catalogRelation _ output => output
  | insert .. => []
  | node _ output _ => output

end LogicalPlan

mutual

/-- What a subquery takes from its own plan is no reference. -/
def Expression.references : Expression → List Attribute
  | .attribute a => [a]
  | .node children => Expression.referencesAll children
  | .subquery children plan =>
    (Expression.referencesAll children).filter fun a => !containsAttribute plan.output a

def Expression.referencesAll : List Expression → List Attribute
  | [] => []
  | e :: es => e.references ++ Expression.referencesAll es

end

namespace PrivilegeAnalysis

def SELECT : String := ResourcePrivilege.NAME .select

def INSERT : String := ResourcePrivilege.NAME .insert

/-- A table or view with the attributes it gives. -/
structure Relation where
  database : String
  table : String
  references : List Attribute
  deriving DecidableEq, Repr

def normalizeIdentifier (currentDb : String) (identifier : TableIdentifier)
    (references : List Attribute) : Relation :=
  { database := identifier.database.getD currentDb
    table := identifier.table
    references := references }

/-! ### What the traversal collects

What is below a view and what is in the expressions of an operator is not visited. Below a command
that inserts only the query of one with children is. -/

mutual

def tableOrView (currentDb : String) : LogicalPlan → List Relation
  | .view desc output _ => [normalizeIdentifier currentDb desc output]
  | .logicalRelation (some table) output => [normalizeIdentifier currentDb table output]
  | .logicalRelation none _ => []
  | .catalogRelation tableMeta output => [normalizeIdentifier currentDb tableMeta output]
  | .insert .insertIntoDataSourceCommand _ _ => []
  | .insert _ _ query => tableOrView currentDb query
  | .node _ _ children => tableOrViewAll currentDb children

def tableOrViewAll (currentDb : String) : List LogicalPlan → List Relation
  | [] => []
  | p :: ps => tableOrView currentDb p ++ tableOrViewAll currentDb ps

end

mutual

def references : LogicalPlan → List Attribute
  | .view .. => []
  | .logicalRelation .. => []
  | .catalogRelation .. => []
  | .insert .insertIntoDataSourceCommand _ _ => []
  | .insert _ _ query => references query
  | .node expressions _ children =>
    if children.isEmpty then []
    else Expression.referencesAll expressions ++ referencesAll children

def referencesAll : List LogicalPlan → List Attribute
  | [] => []
  | p :: ps => references p ++ referencesAll ps

end

/-! ### The rule -/

variable [Names] (catalog : MoonboxCatalog)

def isTableGranted (db table privilege : String) : DBIO Bool := do
  let tbPrivilege ← JdbcCatalog.getTablePrivilege catalog.getCurrentUser db table
    catalog.userInSession
  pure (tbPrivilege.privileges.contains privilege)

def isDatabaseGranted (db privilege : String) : DBIO Bool := do
  let dbPrivilege ← JdbcCatalog.getDatabasePrivilege catalog.getCurrentUser db
    catalog.userInSession
  pure (dbPrivilege.privileges.contains privilege)

def isOwner (db table : String) : DBIO Bool := do
  let catalogTable ← JdbcCatalog.getTable db table catalog.userInSession
  pure ((catalogTable.owner.map Names.toLowerCase) ==
    some (Names.toLowerCase catalog.getCurrentUser))

/-- `||`: the second is not asked when the first holds. -/
def orElse (a b : DBIO Bool) : DBIO Bool := do
  match ← a with
  | true => pure true
  | false => b

def checkInsert (identifier : TableIdentifier) : DBIO Unit := do
  let db := identifier.database.getD catalog.currentDb
  let tb := identifier.table
  match ← orElse (isOwner catalog db tb)
    (orElse (isDatabaseGranted catalog db INSERT) (isTableGranted catalog db tb INSERT)) with
  | true => pure ()
  | false =>
    .throw s!"INSERT denied to user {catalog.getCurrentUser} for table {db}.{tb}"

/-- The attributes of a relation that the user may read. -/
def available (dbGranted : Bool) (r : Relation) : DBIO (List Attribute) := do
  match ← orElse (pure dbGranted)
    (orElse (isOwner catalog r.database r.table)
      (isTableGranted catalog r.database r.table SELECT)) with
  | true => pure r.references
  | false =>
    let columnPrivilege ← JdbcCatalog.getColumnPrivilege catalog.getCurrentUser r.database r.table
      catalog.userInSession
    pure (r.references.filter fun attr =>
      (columnPrivilege.privilege.lookup attr.name).any fun types => types.contains SELECT)

def availables (relations : List Relation) : DBIO (List Attribute) := do
  let perDatabase ← Action.mapM
    (fun db => do
      let dbGranted ← isDatabaseGranted catalog db SELECT
      let perTable ← Action.mapM (available catalog dbGranted)
        (relations.filter fun r => r.database == db)
      pure perTable.flatten)
    (relations.map Relation.database).eraseDups
  pure perDatabase.flatten

/-- The references to relations that are not available. -/
def unavailables (queryPlan : LogicalPlan) (available : List Attribute) : List Attribute :=
  let nonProduced := (tableOrView catalog.currentDb queryPlan).flatMap Relation.references
  (references queryPlan).filter fun a =>
    containsAttribute nonProduced a && !containsAttribute available a

def checkSelect (queryPlan : LogicalPlan) : DBIO Unit := do
  let available ← availables catalog (tableOrView catalog.currentDb queryPlan).eraseDups
  match unavailables catalog queryPlan available with
  | [] => pure ()
  | missing =>
    let columns := ", ".intercalate
      ((missing.eraseDupsBy fun a b => a.exprId == b.exprId).map Attribute.name)
    .throw s!"SELECT denied to user {catalog.getCurrentUser} for columns {columns}"

/-- A command that inserts is seen only at the root. -/
def queryPlan : LogicalPlan → LogicalPlan
  | .insert _ _ query => query
  | plan => plan

def insertTable : LogicalPlan → Option TableIdentifier
  | .insert _ table _ => table
  | _ => none

def apply (plan : LogicalPlan) : DBIO Unit :=
  if catalog.catalogUser.isSA then pure ()
  else do
    match insertTable plan with
    | some table => checkInsert catalog table
    | none => pure ()
    checkSelect catalog (queryPlan plan)

end PrivilegeAnalysis

end Moonbox.Core
