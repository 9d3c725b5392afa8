import Moonbox.Core.Ddl
import Moonbox.Lib.Fuel
import Moonbox.Spark.CTESubstitution

/-!
# `SparkEngine`

What the engine does before a query is analysed: it enters into its own catalog the tables, views
and functions that the query mentions and that it does not have. The names of the text of a view
are entered before the view.
-/

namespace Moonbox.Spark

open Catalog Moonbox.Core Fuel
open Actor (Handler)

/-- What the metastore of Hive knows of a table. -/
structure HiveTable where
  isView : Bool
  viewText : Option String

/-- The parser, the session of Spark with its catalog as the state, and the metastores of Hive. -/
structure SparkSession (σ : Type) where
  parsePlan : String → Except String LogicalPlan
  registerDatabase : String → Handler σ Unit
  tableExists : TableIdentifier → Handler σ Bool
  functionExists : FunctionIdentifier → Handler σ Bool
  registerFunction : CatalogFunction → Handler σ Unit
  registerView : TableIdentifier → String → Handler σ Unit
  registerDatasourceTable : TableIdentifier → Properties → Handler σ Unit
  hiveTable : Properties → Except String HiveTable
  createHiveTable : TableIdentifier → Properties → HiveTable → Handler σ Unit

variable [Names] [IgnoreCase] {σ : Type} (spark : SparkSession σ) (catalog : MoonboxCatalog)
  (s : Store)

/-- What an action that only reads answers. -/
def read {α : Type} (m : DBIO α) : Except String α := (m.run s).1

def isHive (props : Properties) : Except String Bool :=
  match props.lookup "type" with
  | some type => .ok (type == "hive")
  | none => .error "key not found: type"

def viewText : Option String → Except String String
  | some text => .ok text
  | none => .error "None.get"

/-- `inject` is `injectTableFunctions`, for the text of a view. -/
def registerHiveTable (inject : LogicalPlan → Call σ Unit) (table : TableIdentifier)
    (props : Properties) : Call σ Unit := do
  let hiveTable ← .ofExcept (spark.hiveTable props)
  if hiveTable.isView then do
    let text ← .ofExcept (viewText hiveTable.viewText)
    let plan ← .ofExcept (spark.parsePlan text)
    inject plan
    .ofHandler (spark.createHiveTable table props hiveTable)
  else .ofHandler (spark.createHiveTable table props hiveTable)

def registerTable (inject : LogicalPlan → Call σ Unit) (table : TableIdentifier) :
    Call σ Unit := do
  let db := table.database.getD catalog.currentDb
  let catalogTable ← .ofExcept (read s (JdbcCatalog.getTable db table.table catalog.userInSession))
  if catalogTable.tableType = CatalogTableType.VIEW then do
    let text ← .ofExcept (viewText catalogTable.viewText)
    let plan ← .ofExcept (spark.parsePlan text)
    inject plan
    .ofHandler (spark.registerView table text)
  else do
    match ← .ofExcept (isHive catalogTable.properties) with
    | true => registerHiveTable spark inject table catalogTable.properties
    | false => .ofHandler (spark.registerDatasourceTable table catalogTable.properties)

def registerFunction (function : FunctionIdentifier) : Call σ Unit := do
  let db := function.database.getD catalog.currentDb
  let catalogFunction ←
    .ofExcept (read s (JdbcCatalog.getFunction db function.funcName catalog.userInSession))
  .ofHandler (spark.registerFunction catalogFunction)

/-- The tests for existence are all made before anything is entered. -/
def injectTableFunctions : Nat → LogicalPlan → Call σ Unit
  | 0, _ => .ofOption none
  | fuel + 1, plan => do
    let rewritePlan ← .ofOption (rewrite fuel plan)
    let tables := unresolvedTables rewritePlan
    let functions := unresolvedFunctions rewritePlan
    Call.forEach (fun db => .ofHandler (spark.registerDatabase db))
      ((tables.map TableIdentifier.database ++ functions.map FunctionIdentifier.database).filterMap
        id)
    let absent ← Call.filterNot (fun id => .ofHandler (spark.tableExists id)) tables
    Call.forEach (registerTable spark catalog s (injectTableFunctions fuel)) absent
    let absent ← Call.filterNot (fun id => .ofHandler (spark.functionExists id)) functions
    Call.forEach (registerFunction spark catalog s) absent

end Moonbox.Spark
