import Moonbox.Core.Definitions
import Moonbox.Spark.ViewExpansion

/-!
# The names of a view

The catalog keeps the text of a view, not the database that was current when it was written. So the
names of the text without a database are looked for in the current database of each session that
reads the view.
-/

namespace Moonbox.Spark

open Catalog Moonbox.Core Fuel Relational Relation
open Actor (Handler)

/-! ### What an engine is given -/

/-- Something that is entered into the catalog of the engine. -/
inductive Registration
  | view (table : TableIdentifier) (text : String)
  | datasourceTable (table : TableIdentifier) (properties : Properties)
  | hiveTable (table : TableIdentifier) (properties : Properties)
  | function (function : CatalogFunction)
  deriving DecidableEq

namespace SparkSession

variable {σ α : Type}

def unlogged (m : Handler σ α) : Handler (σ × List Registration) α := fun e =>
  ((m e.1).1, (m e.1).2, e.2)

def logged (r : Registration) (m : Handler σ α) : Handler (σ × List Registration) α := fun e =>
  ((m e.1).1, (m e.1).2, e.2 ++ [r])

/-- The same session, with a list of what it was given. -/
def withLog (spark : SparkSession σ) : SparkSession (σ × List Registration) where
  parsePlan := spark.parsePlan
  registerDatabase db := unlogged (spark.registerDatabase db)
  tableExists id := unlogged (spark.tableExists id)
  functionExists id := unlogged (spark.functionExists id)
  registerFunction f := logged (.function f) (spark.registerFunction f)
  registerView id text := logged (.view id text) (spark.registerView id text)
  registerDatasourceTable id props :=
    logged (.datasourceTable id props) (spark.registerDatasourceTable id props)
  hiveTable := spark.hiveTable
  createHiveTable id props hiveTable :=
    logged (.hiveTable id props) (spark.createHiveTable id props hiveTable)

end SparkSession

/-! ### Where names are looked for -/

section Reading

variable [Names] [IgnoreCase] {σ : Type} (spark : SparkSession σ) (s : Store)
  (catalog : MoonboxCatalog)

/-- The place of a table's name in the session. -/
def tablePlace (id : TableIdentifier) : Option Place :=
  place s catalog.userInSession.orgId catalog.currentDb id

def functionPlace (id : FunctionIdentifier) : Option Place :=
  (Store.database s catalog.userInSession.orgId (id.database.getD catalog.currentDb)).map fun e =>
    (e.id, Names.collate id.funcName)

def functionAt (v : Place) : Option FunctionEntity :=
  (s .functions).rows.find? fun f => f.databaseId == v.1 && Names.collate f.name == v.2

/-- The engine collects the name from the plan. -/
def CollectsTable (p : LogicalPlan) (id : TableIdentifier) : Prop :=
  ∃ fuel q, rewrite fuel p = some q ∧ id ∈ unresolvedTables q

def CollectsFunction (p : LogicalPlan) (id : FunctionIdentifier) : Prop :=
  ∃ fuel q, rewrite fuel p = some q ∧ id ∈ unresolvedFunctions q

/-- A name of the plan is one of a table with a text, which is parsed to another plan. -/
def LeadsTo (p p' : LogicalPlan) : Prop :=
  ∃ id v text, CollectsTable p id ∧ tablePlace s catalog id = some v ∧
    textAt spark s v = some text ∧ spark.parsePlan text = .ok p'

/-- What is entered is what the catalog has where the name, collected from one of the plans, is
looked for in the session. -/
def Registration.IsRead (plans : LogicalPlan → Prop) : Registration → Prop
  | .view id text => ∃ p v t, plans p ∧ CollectsTable p id ∧ tablePlace s catalog id = some v ∧
      tableAt s v = some t ∧ t.tableType = CatalogTableType.VIEW ∧ t.viewText = some text
  | .datasourceTable id props | .hiveTable id props => ∃ p v t, plans p ∧ CollectsTable p id ∧
      tablePlace s catalog id = some v ∧ tableAt s v = some t ∧
      t.tableType ≠ CatalogTableType.VIEW ∧ t.properties = props
  | .function f => ∃ p id v e, plans p ∧ CollectsFunction p id ∧
      functionPlace s catalog id = some v ∧ functionAt s v = some e ∧ f.name = id.funcName ∧
      f.className = e.className ∧ f.methodName = e.methodName ∧
      f.resources = functionResources s e

variable {spark s catalog} {p : LogicalPlan} {plans : LogicalPlan → Prop}
  {old : List Registration}

/-- New in the log is only what was read. -/
def Logs (s : Store) (catalog : MoonboxCatalog) (plans : LogicalPlan → Prop)
    (old : List Registration) (e : σ × List Registration) : Prop :=
  ∀ r ∈ e.2, r ∈ old ∨ r.IsRead s catalog plans

lemma leaves_unlogged {α : Type} {m : Handler σ α} :
    Call.Leaves (Logs s catalog plans old) (.ofHandler (SparkSession.unlogged m)) fun _ => True :=
  Call.leaves_ofHandler fun _ h => h

lemma leaves_logged {α : Type} {m : Handler σ α} {r : Registration}
    (hr : r.IsRead s catalog plans) :
    Call.Leaves (Logs s catalog plans old) (.ofHandler (SparkSession.logged r m)) fun _ => True := by
  refine Call.leaves_ofHandler fun e he r' hr' => ?_
  rcases List.mem_append.mp hr' with hr' | hr'
  · exact he r' hr'
  · rw [List.mem_singleton.mp hr']
    exact .inr hr

lemma leaves_registerTable {inject : LogicalPlan → Call (σ × List Registration) Unit}
    {id : TableIdentifier} (hp : plans p) (hid : CollectsTable p id)
    (hinject : ∀ p', LeadsTo spark s catalog p p' →
      Call.Leaves (Logs s catalog plans old) (inject p') fun _ => True) :
    Call.Leaves (Logs s catalog plans old) (registerTable spark.withLog catalog s inject id)
      fun _ => True := by
  refine registerTable_rule Call.leaves_rules ?_ ?_ ?_
  · intro v text p' hv htext hp'
    exact hinject p' ⟨id, v, text, hid, hv, htext, hp'⟩
  · intro v t text hv ht htype htext
    exact leaves_logged ⟨p, v, t, hp, hid, hv, ht, htype, htext⟩
  · intro v t hv ht htype
    have hread : (Registration.datasourceTable id t.properties).IsRead s catalog plans :=
      ⟨p, v, t, hp, hid, hv, ht, htype, rfl⟩
    exact ⟨leaves_logged hread, fun _ => leaves_logged hread⟩

omit [IgnoreCase] in
lemma read_getFunction {caller : User} {db func : String} {f : CatalogFunction}
    (h : read s (JdbcCatalog.getFunction db func caller) = .ok f) :
    ∃ dbEntity e, Store.database s caller.orgId db = some dbEntity ∧
      Store.function s dbEntity.id func = some e ∧ f.name = func ∧
      f.className = e.className ∧ f.methodName = e.methodName ∧
      f.resources = functionResources s e := by
  have hwp : Action.wp (JdbcCatalog.getFunction db func caller)
      (fun f _ => ∃ dbEntity e, Store.database s caller.orgId db = some dbEntity ∧
        Store.function s dbEntity.id func = some e ∧ f.name = func ∧
        f.className = e.className ∧ f.methodName = e.methodName ∧
        f.resources = functionResources s e) (fun _ => True) s := by
    simp only [JdbcCatalog.getFunction, Action.wp_bind, wp_getDatabase]
    cases hd : Store.database s caller.orgId db with
    | none => exact trivial
    | some dbEntity =>
      simp only [Action.wp_bind, wp_getFunction]
      cases he : Store.function s dbEntity.id func with
      | none => exact trivial
      | some e =>
        simp only [Action.wp_bind, JdbcDao.listFunctionResources, JdbcDao.query,
          Action.wp_query, wp_userName]
        split
        · exact ⟨dbEntity, e, rfl, he, rfl, rfl, rfl, rfl⟩
        · exact trivial
  exact of_read (a := f) hwp h

lemma leaves_registerFunction {id : FunctionIdentifier} (hp : plans p)
    (hid : CollectsFunction p id) :
    Call.Leaves (Logs s catalog plans old) (registerFunction spark.withLog catalog s id)
      fun _ => True := by
  refine Call.leaves_rules.bind (Call.leaves_rules.ofExcept _) fun f hf => ?_
  obtain ⟨dbEntity, e, hdb, he, hname, hdefinition⟩ := read_getFunction hf
  refine leaves_logged ⟨p, id, (dbEntity.id, Names.collate id.funcName), e, hp, hid, ?_, he, hname,
    hdefinition⟩
  rw [functionPlace, hdb]
  rfl

/-- Whatever the engine has and answers, it is given only what the names of the plan, and of the
texts that it leads to, mean in the session. -/
theorem injectTableFunctions_reads (spark : SparkSession σ) (s : Store) (catalog : MoonboxCatalog)
    (fuel : Nat) (p : LogicalPlan) :
    Call.Leaves (Logs s catalog (ReflTransGen (LeadsTo spark s catalog) p) old)
      (injectTableFunctions spark.withLog catalog s fuel p) fun _ => True := by
  have hfrom : ∀ p', ReflTransGen (LeadsTo spark s catalog) p p' →
      Call.Leaves (Logs s catalog (ReflTransGen (LeadsTo spark s catalog) p) old)
        (injectTableFunctions spark.withLog catalog s fuel p') fun _ => True := by
    induction fuel with
    | zero =>
      rintro p' - e r e' - ⟨⟩
    | succ fuel ih =>
      intro p' hp'
      cases hq : rewrite fuel p' with
      | none =>
        intro e r e' _ h
        rw [injectTableFunctions, hq] at h
        cases h
      | some q =>
        refine injectTableFunctions_rule Call.leaves_rules hq (fun _ => leaves_unlogged)
          (fun _ => leaves_unlogged) (fun _ => leaves_unlogged) ?_ ?_
        · intro id hid
          exact leaves_registerTable hp' ⟨fuel, q, hq, hid⟩ fun p'' h => ih p'' (hp'.tail h)
        · intro id hid
          exact leaves_registerFunction hp' ⟨fuel, q, hq, hid⟩
  exact hfrom p .refl

end Reading

/-! ### What the names of a view mean -/

/-- For each view the database that was current when its text was written. -/
abbrev Origins := Place → Option Nat

section Meaning

variable [Names] [IgnoreCase] {σ : Type} (spark : SparkSession σ)

/-- The current database of the session. -/
def currentDatabase (s : Store) (catalog : MoonboxCatalog) : Option Nat :=
  (Store.database s catalog.userInSession.orgId catalog.currentDb).map DatabaseEntity.id

namespace ViewEvent

omit [IgnoreCase] in
/-- A command that goes through and has a text writes it in the session's current database. -/
def write (origins : Origins) (s : Store) (e : ViewEvent) : Origins :=
  match viewPlace s e.catalog e.command.view with
  | some v =>
    if (e.command.run e.catalog e.now).run.succeeds s = true ∧ e.command.text.isSome then
      Function.update origins v (currentDatabase s e.catalog)
    else origins
  | none => origins

omit [IgnoreCase] in
/-- The catalog and where its views are from, after some commands. -/
def runAll (s : Store) (origins : Origins) : List ViewEvent → Store × Origins
  | [] => (s, origins)
  | e :: events => runAll (step s e) (e.write origins s) events

end ViewEvent

/-- A table's name without a database. -/
def HasTable (text : String) (id : TableIdentifier) : Prop :=
  ∃ p, spark.parsePlan text = .ok p ∧ CollectsTable p id ∧ id.database = none

/-- A function's name without a database, none of Spark's own. -/
def HasFunction (builtin : FunctionIdentifier → Prop) (text : String)
    (id : FunctionIdentifier) : Prop :=
  ∃ p, spark.parsePlan text = .ok p ∧ CollectsFunction p id ∧ id.database = none ∧ ¬ builtin id

variable (s : Store) (catalog : MoonboxCatalog) (p : LogicalPlan)

/-- With the names of the plan the view is read, for itself or for the text of another one. -/
def ReadsView (v : Place) (text : String) : Prop :=
  ∃ p' id t, ReflTransGen (LeadsTo spark s catalog) p p' ∧ CollectsTable p' id ∧
    tablePlace s catalog id = some v ∧ tableAt s v = some t ∧
    t.tableType = CatalogTableType.VIEW ∧ t.viewText = some text

/-- The names of every view that is read mean what they meant in the session that wrote them. -/
def MeansTheSame (builtin : FunctionIdentifier → Prop) (origins : Origins) : Prop :=
  ∀ v text, ReadsView spark s catalog p v text →
    (∀ id, HasTable spark text id → tablePlace s catalog id =
      (origins v).map fun db => (db, Names.collate id.table)) ∧
    ∀ id, HasFunction spark builtin text id → functionPlace s catalog id =
      (origins v).map fun db => (db, Names.collate id.funcName)

/-- Every view that is read, and has names without a database, is from the current database. -/
def FromCurrentDatabase (builtin : FunctionIdentifier → Prop) (origins : Origins) : Prop :=
  ∀ v text, ReadsView spark s catalog p v text →
    ((∃ id, HasTable spark text id) ∨ ∃ id, HasFunction spark builtin text id) →
    currentDatabase s catalog = origins v

variable {spark s catalog p}

omit [Names] [IgnoreCase] in
lemma map_pair_inj {name : String} {o o' : Option Nat}
    (h : o.map (fun db => (db, name)) = o'.map fun db => (db, name)) : o = o' :=
  Option.map_injective (fun _ _ heq => congrArg Prod.fst heq) h

omit [IgnoreCase] in
lemma tablePlace_eq {id : TableIdentifier} (h : id.database = none) :
    tablePlace s catalog id =
      (currentDatabase s catalog).map fun db => (db, Names.collate id.table) := by
  rw [tablePlace, place, h, currentDatabase, Option.map_map]
  rfl

omit [IgnoreCase] in
lemma functionPlace_eq {id : FunctionIdentifier} (h : id.database = none) :
    functionPlace s catalog id =
      (currentDatabase s catalog).map fun db => (db, Names.collate id.funcName) := by
  rw [functionPlace, h, currentDatabase, Option.map_map]
  rfl

end Meaning

/-! ### Two databases -/

section TwoDatabases

def rowOfX : DatabaseEntity := { rowOfDefault with id := 2, name := "x" }

/-- A table `t` of a type. -/
def rowOfT (databaseId : Nat) (type : String) : TableEntity :=
  { name := "t"
    tableType := CatalogTableType.TABLE
    databaseId := databaseId
    properties := [("type", type)]
    viewText := none
    createBy := 1
    createTime := 4
    updateBy := 1
    updateTime := 4 }

/-- The databases `default` and `x`, each with a table `t`. -/
def twoDatabases : Store :=
  execAll [.insert .databases rowOfX, .insert .tables (rowOfT 1 "mysql"),
    .insert .tables (rowOfT 2 "oracle")] withDefault

def createViewV : ViewEvent := ⟨sessionOfSa, 5, .createView ⟨"v", some "default"⟩ "t" none false⟩

def sessionInX : MoonboxCatalog := { sessionOfSa with currentDb := "x" }

def selectV : LogicalPlan := .node [] [.unresolvedRelation ⟨"v", some "default"⟩]

end TwoDatabases

end Moonbox.Spark
