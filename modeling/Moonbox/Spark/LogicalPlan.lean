import Mathlib.Data.List.Dedup
import Mathlib.Tactic.Lemma
import Moonbox.Core.Command

/-!
# Parsed plans

The plans that the parser of Spark gives, as far as the engine looks at them: relations and
functions by their names, `With` and `InsertIntoTable`. Operators and expressions that it does not
tell apart are a `node`.
-/

namespace Moonbox.Spark

open Moonbox.Core (TableIdentifier FunctionIdentifier)

mutual

inductive LogicalPlan
  | unresolvedRelation (tableIdentifier : TableIdentifier)
  /-- The definitions are no children of a `With`, and the table is none of an insert. -/
  | withCtes (child : LogicalPlan) (cteRelations : List Cte)
  | insertIntoTable (table : TableIdentifier) (query : LogicalPlan)
  | node (expressions : List Expression) (children : List LogicalPlan)

/-- A definition of a `With`. -/
inductive Cte
  | mk (name : String) (query : LogicalPlan)

inductive Expression
  | unresolvedFunction (name : FunctionIdentifier) (children : List Expression)
  /-- EXISTS, IN or a scalar subquery, which have no children before the analysis. -/
  | subquery (plan : LogicalPlan)
  | node (children : List Expression)

end

namespace Cte

def name : Cte → String
  | mk name _ => name

def query : Cte → LogicalPlan
  | mk _ query => query

@[simp] lemma name_mk (name : String) (query : LogicalPlan) : (mk name query).name = name := rfl

@[simp] lemma query_mk (name : String) (query : LogicalPlan) : (mk name query).query = query := rfl

end Cte

namespace LogicalPlan

/-- The parser puts every definition into an alias of its name. -/
def subqueryAlias (child : LogicalPlan) : LogicalPlan := .node [] [child]

end LogicalPlan

/-! ### Induction -/

/-- What an induction over plans, and over the plans in their expressions together, has to show. -/
structure Inductive (P : LogicalPlan → Prop) (Q : Expression → Prop) : Prop where
  relation : ∀ id, P (.unresolvedRelation id)
  withCtes : ∀ child ctes, P child → (∀ c ∈ ctes, P c.query) → P (.withCtes child ctes)
  insert : ∀ table query, P query → P (.insertIntoTable table query)
  node : ∀ es ps, (∀ e ∈ es, Q e) → (∀ p ∈ ps, P p) → P (.node es ps)
  function : ∀ name es, (∀ e ∈ es, Q e) → Q (.unresolvedFunction name es)
  subquery : ∀ p, P p → Q (.subquery p)
  expression : ∀ es, (∀ e ∈ es, Q e) → Q (.node es)

namespace Inductive

variable {P : LogicalPlan → Prop} {Q : Expression → Prop}

mutual

lemma plan (h : Inductive P Q) : ∀ p, P p
  | .unresolvedRelation id => h.relation id
  | .withCtes child ctes => h.withCtes child ctes (h.plan child) (h.definitions ctes)
  | .insertIntoTable table query => h.insert table query (h.plan query)
  | .node es ps => h.node es ps (h.expressions es) (h.plans ps)

lemma definition (h : Inductive P Q) : ∀ c : Cte, P c.query
  | .mk _ query => h.plan query

lemma expr (h : Inductive P Q) : ∀ e, Q e
  | .unresolvedFunction name es => h.function name es (h.expressions es)
  | .subquery p => h.subquery p (h.plan p)
  | .node es => h.expression es (h.expressions es)

lemma plans (h : Inductive P Q) : ∀ ps : List LogicalPlan, ∀ p ∈ ps, P p
  | [] => by simp
  | p :: ps => List.forall_mem_cons.mpr ⟨h.plan p, h.plans ps⟩

lemma definitions (h : Inductive P Q) : ∀ cs : List Cte, ∀ c ∈ cs, P c.query
  | [] => by simp
  | c :: cs => List.forall_mem_cons.mpr ⟨h.definition c, h.definitions cs⟩

lemma expressions (h : Inductive P Q) : ∀ es : List Expression, ∀ e ∈ es, Q e
  | [] => by simp
  | e :: es => List.forall_mem_cons.mpr ⟨h.expr e, h.expressions es⟩

end

end Inductive

/-! ### What the engine collects -/

mutual

/-- `findUnresolvedTables` -/
def LogicalPlan.tables : LogicalPlan → List TableIdentifier
  | .unresolvedRelation id => [id]
  | .withCtes child _ => child.tables
  | .insertIntoTable _ query => query.tables
  | .node es ps => tablesInExpressions es ++ tablesInPlans ps

def Expression.tables : Expression → List TableIdentifier
  | .unresolvedFunction _ es => tablesInExpressions es
  | .subquery plan => plan.tables
  | .node es => tablesInExpressions es

def tablesInPlans : List LogicalPlan → List TableIdentifier
  | [] => []
  | p :: ps => p.tables ++ tablesInPlans ps

def tablesInExpressions : List Expression → List TableIdentifier
  | [] => []
  | e :: es => e.tables ++ tablesInExpressions es

end

@[simp] lemma tablesInPlans_eq (ps : List LogicalPlan) :
    tablesInPlans ps = ps.flatMap LogicalPlan.tables := by
  induction ps with
  | nil => rfl
  | cons p ps ih => rw [tablesInPlans, ih, List.flatMap_cons]

@[simp] lemma tablesInExpressions_eq (es : List Expression) :
    tablesInExpressions es = es.flatMap Expression.tables := by
  induction es with
  | nil => rfl
  | cons e es ih => rw [tablesInExpressions, ih, List.flatMap_cons]

mutual

/-- `findUnresolvedFunctions`: at every operator the expressions of all that is below it. -/
def LogicalPlan.functions : LogicalPlan → List FunctionIdentifier
  | .unresolvedRelation _ => []
  | .withCtes child _ => child.functionsBelow ++ child.functions
  | .insertIntoTable _ query => query.functionsBelow ++ query.functions
  | .node es ps => functionsInExpressions es ++ functionsBelowPlans ps ++ functionsInPlans ps

/-- `transformAllExpressions` -/
def LogicalPlan.functionsBelow : LogicalPlan → List FunctionIdentifier
  | .unresolvedRelation _ => []
  | .withCtes child _ => child.functionsBelow
  | .insertIntoTable _ query => query.functionsBelow
  | .node es ps => functionsInExpressions es ++ functionsBelowPlans ps

def Expression.functions : Expression → List FunctionIdentifier
  | .unresolvedFunction name es => name :: functionsInExpressions es
  | .subquery plan => plan.functions
  | .node es => functionsInExpressions es

def functionsInPlans : List LogicalPlan → List FunctionIdentifier
  | [] => []
  | p :: ps => p.functions ++ functionsInPlans ps

def functionsBelowPlans : List LogicalPlan → List FunctionIdentifier
  | [] => []
  | p :: ps => p.functionsBelow ++ functionsBelowPlans ps

def functionsInExpressions : List Expression → List FunctionIdentifier
  | [] => []
  | e :: es => e.functions ++ functionsInExpressions es

end

@[simp] lemma functionsInPlans_eq (ps : List LogicalPlan) :
    functionsInPlans ps = ps.flatMap LogicalPlan.functions := by
  induction ps with
  | nil => rfl
  | cons p ps ih => rw [functionsInPlans, ih, List.flatMap_cons]

@[simp] lemma functionsBelowPlans_eq (ps : List LogicalPlan) :
    functionsBelowPlans ps = ps.flatMap LogicalPlan.functionsBelow := by
  induction ps with
  | nil => rfl
  | cons p ps ih => rw [functionsBelowPlans, ih, List.flatMap_cons]

@[simp] lemma functionsInExpressions_eq (es : List Expression) :
    functionsInExpressions es = es.flatMap Expression.functions := by
  induction es with
  | nil => rfl
  | cons e es ih => rw [functionsInExpressions, ih, List.flatMap_cons]

def unresolvedTablesInSelect (plan : LogicalPlan) : List TableIdentifier := plan.tables.eraseDups

def unresolvedTables : LogicalPlan → List TableIdentifier
  | .insertIntoTable table query => table :: unresolvedTablesInSelect query
  | plan => unresolvedTablesInSelect plan

/-- Of the tables that it finds the engine registers those that it does not have. -/
def tablesToRegister (tableExists : TableIdentifier → Bool) (plan : LogicalPlan) :
    List TableIdentifier :=
  (unresolvedTables plan).filter fun id => !tableExists id

def unresolvedFunctions (plan : LogicalPlan) : List FunctionIdentifier := plan.functions.eraseDups

/-! ### Names that stand in a plan

Those that the traversals of the engine meet: they do not look at the definitions of a `With` and
at the table of an insert. -/

inductive Name
  | table (id : TableIdentifier)
  | function (id : FunctionIdentifier)
  deriving DecidableEq

mutual

def LogicalPlan.mentions : LogicalPlan → List Name
  | .unresolvedRelation id => [.table id]
  | .withCtes child _ => child.mentions
  | .insertIntoTable _ query => query.mentions
  | .node es ps => mentionsInExpressions es ++ mentionsInPlans ps

def Expression.mentions : Expression → List Name
  | .unresolvedFunction name es => .function name :: mentionsInExpressions es
  | .subquery plan => plan.mentions
  | .node es => mentionsInExpressions es

def mentionsInPlans : List LogicalPlan → List Name
  | [] => []
  | p :: ps => p.mentions ++ mentionsInPlans ps

def mentionsInExpressions : List Expression → List Name
  | [] => []
  | e :: es => e.mentions ++ mentionsInExpressions es

end

@[simp] lemma mentionsInPlans_eq (ps : List LogicalPlan) :
    mentionsInPlans ps = ps.flatMap LogicalPlan.mentions := by
  induction ps with
  | nil => rfl
  | cons p ps ih => rw [mentionsInPlans, ih, List.flatMap_cons]

@[simp] lemma mentionsInExpressions_eq (es : List Expression) :
    mentionsInExpressions es = es.flatMap Expression.mentions := by
  induction es with
  | nil => rfl
  | cons e es ih => rw [mentionsInExpressions, ih, List.flatMap_cons]

lemma mem_tables_iff {id : TableIdentifier} :
    (∀ p : LogicalPlan, id ∈ p.tables ↔ .table id ∈ p.mentions) ∧
      ∀ e : Expression, id ∈ e.tables ↔ .table id ∈ e.mentions := by
  suffices h : Inductive (fun p => id ∈ p.tables ↔ .table id ∈ p.mentions)
      (fun e => id ∈ e.tables ↔ .table id ∈ e.mentions) from ⟨h.plan, h.expr⟩
  exact {
    relation := by simp [LogicalPlan.tables, LogicalPlan.mentions]
    withCtes := fun child ctes h _ => by simpa [LogicalPlan.tables, LogicalPlan.mentions] using h
    insert := fun table query h => by simpa [LogicalPlan.tables, LogicalPlan.mentions] using h
    node := fun es ps hes hps => by
      simp only [LogicalPlan.tables, LogicalPlan.mentions, tablesInExpressions_eq,
        tablesInPlans_eq, mentionsInExpressions_eq, mentionsInPlans_eq, List.mem_append,
        List.mem_flatMap]
      exact or_congr (exists_congr fun e => and_congr_right (hes e))
        (exists_congr fun p => and_congr_right (hps p))
    function := fun name es hes => by
      simp only [Expression.tables, Expression.mentions, tablesInExpressions_eq,
        mentionsInExpressions_eq, List.mem_flatMap, List.mem_cons, reduceCtorEq, false_or]
      exact exists_congr fun e => and_congr_right (hes e)
    subquery := fun p h => h
    expression := fun es hes => by
      simp only [Expression.tables, Expression.mentions, tablesInExpressions_eq,
        mentionsInExpressions_eq, List.mem_flatMap]
      exact exists_congr fun e => and_congr_right (hes e) }

lemma mem_functions_iff {id : FunctionIdentifier} :
    (∀ p : LogicalPlan, (id ∈ p.functions ↔ .function id ∈ p.mentions) ∧
        (id ∈ p.functionsBelow ↔ .function id ∈ p.mentions)) ∧
      ∀ e : Expression, id ∈ e.functions ↔ .function id ∈ e.mentions := by
  suffices h : Inductive
      (fun p => (id ∈ p.functions ↔ .function id ∈ p.mentions) ∧
        (id ∈ p.functionsBelow ↔ .function id ∈ p.mentions))
      (fun e => id ∈ e.functions ↔ .function id ∈ e.mentions) from ⟨h.plan, h.expr⟩
  exact {
    relation := by
      simp [LogicalPlan.functions, LogicalPlan.functionsBelow, LogicalPlan.mentions]
    withCtes := fun child ctes h _ => by
      simp [LogicalPlan.functions, LogicalPlan.functionsBelow, LogicalPlan.mentions, h.1, h.2]
    insert := fun table query h => by
      simp [LogicalPlan.functions, LogicalPlan.functionsBelow, LogicalPlan.mentions, h.1, h.2]
    node := fun es ps hes hps => by
      have hexprs : (∃ e ∈ es, id ∈ e.functions) ↔ ∃ e ∈ es, .function id ∈ e.mentions :=
        exists_congr fun e => and_congr_right (hes e)
      have hplans : (∃ p ∈ ps, id ∈ p.functions) ↔ ∃ p ∈ ps, .function id ∈ p.mentions :=
        exists_congr fun p => and_congr_right fun hp => (hps p hp).1
      have hbelow : (∃ p ∈ ps, id ∈ p.functionsBelow) ↔ ∃ p ∈ ps, .function id ∈ p.mentions :=
        exists_congr fun p => and_congr_right fun hp => (hps p hp).2
      simp only [LogicalPlan.functions, LogicalPlan.functionsBelow, LogicalPlan.mentions,
        functionsInExpressions_eq, functionsInPlans_eq, functionsBelowPlans_eq,
        mentionsInExpressions_eq, mentionsInPlans_eq, List.mem_append, List.mem_flatMap, hexprs,
        hplans, hbelow, or_assoc, or_self, and_self]
    function := fun name es hes => by
      simp only [Expression.functions, Expression.mentions, functionsInExpressions_eq,
        mentionsInExpressions_eq, List.mem_flatMap, List.mem_cons, Name.function.injEq]
      exact or_congr_right (exists_congr fun e => and_congr_right (hes e))
    subquery := fun p h => h.1
    expression := fun es hes => by
      simp only [Expression.functions, Expression.mentions, functionsInExpressions_eq,
        mentionsInExpressions_eq, List.mem_flatMap]
      exact exists_congr fun e => and_congr_right (hes e) }

end Moonbox.Spark
