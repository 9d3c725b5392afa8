import Moonbox.Lib.Fuel
import Moonbox.Spark.CTESubstitution

/-!
# The names of a statement

What SQL leaves free in a statement: a definition of a `With` sees the definitions before it, the
query sees all of them, and neither a qualified name nor the table of an insert is ever the name of
a definition. What the engine collects after the rewrite is compared with it.
-/

namespace Moonbox.Spark

open Moonbox.Core (TableIdentifier FunctionIdentifier)
open Fuel

variable [IgnoreCase]

/-- The name is one that a definition called `name` binds. -/
def Name.boundBy : Name → String → Bool
  | .table id, name => id.database.isNone && IgnoreCase.equalsIgnoreCase name id.table
  | .function _, _ => false

def Name.boundIn (n : Name) (scope : List String) : Bool := scope.any n.boundBy

/-! ### Free names -/

mutual

def LogicalPlan.free : LogicalPlan → List String → List Name
  | .unresolvedRelation id, scope => [Name.table id].filter fun n => !n.boundIn scope
  | .withCtes child ctes, scope =>
    freeInDefinitions ctes scope ++ child.free (ctes.map Cte.name ++ scope)
  | .insertIntoTable table query, scope => .table table :: query.free scope
  | .node es ps, scope => freeInExpressions es scope ++ freeInPlans ps scope

def Cte.free : Cte → List String → List Name
  | .mk _ query, scope => query.free scope

def Expression.free : Expression → List String → List Name
  | .unresolvedFunction name es, scope => .function name :: freeInExpressions es scope
  | .subquery plan, scope => plan.free scope
  | .node es, scope => freeInExpressions es scope

def freeInPlans : List LogicalPlan → List String → List Name
  | [], _ => []
  | p :: ps, scope => p.free scope ++ freeInPlans ps scope

def freeInDefinitions : List Cte → List String → List Name
  | [], _ => []
  | c :: cs, scope => c.free scope ++ freeInDefinitions cs (c.name :: scope)

def freeInExpressions : List Expression → List String → List Name
  | [], _ => []
  | e :: es, scope => e.free scope ++ freeInExpressions es scope

end

@[simp] lemma Cte.free_eq (c : Cte) (scope : List String) : c.free scope = c.query.free scope := by
  cases c
  rfl

@[simp] lemma freeInPlans_eq (ps : List LogicalPlan) (scope : List String) :
    freeInPlans ps scope = ps.flatMap fun p => p.free scope := by
  induction ps with
  | nil => rfl
  | cons p ps ih => rw [freeInPlans, ih, List.flatMap_cons]

@[simp] lemma freeInExpressions_eq (es : List Expression) (scope : List String) :
    freeInExpressions es scope = es.flatMap fun e => e.free scope := by
  induction es with
  | nil => rfl
  | cons e es ih => rw [freeInExpressions, ih, List.flatMap_cons]

/-- What is free in a statement. -/
def LogicalPlan.freeNames (p : LogicalPlan) : List Name := p.free []

/-! ### Names that a query needs

Those met when the definitions that are used are put in for their names. -/

/-- What a name comes down to, given what the definitions come down to. -/
def comesTo (env : List (Cte × List Name)) (n : Name) : List Name :=
  match env.find? fun d => n.boundBy d.1.name with
  | some d => d.2
  | none => [n]

def expand (env : List (Cte × List Name)) (ctes : List Cte) : List (Cte × List Name) :=
  ctes.foldl (fun env c => env ++ [(c, c.query.mentions.flatMap (comesTo env))]) env

mutual

/-- A `With` inside an expression is not looked into. -/
def LogicalPlan.needed : LogicalPlan → List Name
  | .unresolvedRelation id => [.table id]
  | .withCtes child ctes => child.needed.flatMap (comesTo (expand [] ctes))
  | .insertIntoTable _ query => query.needed
  | .node es ps => es.flatMap Expression.mentions ++ neededInPlans ps

def neededInPlans : List LogicalPlan → List Name
  | [] => []
  | p :: ps => p.needed ++ neededInPlans ps

end

@[simp] lemma neededInPlans_eq (ps : List LogicalPlan) :
    neededInPlans ps = ps.flatMap LogicalPlan.needed := by
  induction ps with
  | nil => rfl
  | cons p ps ih => rw [neededInPlans, ih, List.flatMap_cons]

/-- The table that a statement inserts into. -/
def LogicalPlan.target : LogicalPlan → List Name
  | .insertIntoTable table _ => [.table table]
  | .withCtes child _ => child.target
  | _ => []

/-- A definition that the query uses, perhaps through others. -/
inductive Used (child : LogicalPlan) (ctes : List Cte) : Cte → Prop
  | query {n : Name} {c : Cte} : n ∈ child.needed → c ∈ ctes → n.boundBy c.name → Used child ctes c
  | definition {n : Name} {c d : Cte} :
      Used child ctes d → n ∈ d.query.mentions → c ∈ ctes → n.boundBy c.name → Used child ctes c

lemma Used.mem {child : LogicalPlan} {ctes : List Cte} {c : Cte} (h : Used child ctes c) :
    c ∈ ctes := by
  cases h with
  | query _ hc _ => exact hc
  | definition _ _ hc _ => exact hc

/-! ### Statements without captures -/

/-- Up to its database the identifier is the name of a definition. -/
def Captured (ctes : List Cte) (id : TableIdentifier) : Prop :=
  ∃ c ∈ ctes, IgnoreCase.equalsIgnoreCase c.name id.table = true

/-- The names of a `With` that a definition mentions are unqualified and of definitions before
it. -/
def Scoped (all : List Cte) : List Cte → List Cte → Prop
  | _, [] => True
  | before, c :: ctes =>
    (∀ id, .table id ∈ c.query.mentions → Captured all id →
      id.database = none ∧ Captured before id) ∧
    Scoped all (before ++ [c]) ctes

mutual

/-- No `With` met in the plan binds a name of its query. -/
def LogicalPlan.BindsNothing : LogicalPlan → Prop
  | .unresolvedRelation _ => True
  | .withCtes child ctes =>
    child.BindsNothing ∧ ∀ n ∈ child.mentions, ∀ c ∈ ctes, n.boundBy c.name = false
  | .insertIntoTable _ query => query.BindsNothing
  | .node es ps => expressionsBindNothing es ∧ plansBindNothing ps

def Expression.BindsNothing : Expression → Prop
  | .unresolvedFunction _ es => expressionsBindNothing es
  | .subquery plan => plan.BindsNothing
  | .node es => expressionsBindNothing es

def plansBindNothing : List LogicalPlan → Prop
  | [] => True
  | p :: ps => p.BindsNothing ∧ plansBindNothing ps

def expressionsBindNothing : List Expression → Prop
  | [] => True
  | e :: es => e.BindsNothing ∧ expressionsBindNothing es

end

@[simp] lemma plansBindNothing_iff (ps : List LogicalPlan) :
    plansBindNothing ps ↔ ∀ p ∈ ps, p.BindsNothing := by
  induction ps with
  | nil => simp [plansBindNothing]
  | cons p ps ih => rw [plansBindNothing, ih, List.forall_mem_cons]

@[simp] lemma expressionsBindNothing_iff (es : List Expression) :
    expressionsBindNothing es ↔ ∀ e ∈ es, e.BindsNothing := by
  induction es with
  | nil => simp [expressionsBindNothing]
  | cons e es ih => rw [expressionsBindNothing, ih, List.forall_mem_cons]

mutual

/-- Where the rule puts definitions in, it puts them in for their names only; where it does not,
there are no names to put them in for. -/
def LogicalPlan.CaptureFree : LogicalPlan → Prop
  | .unresolvedRelation _ => True
  | .withCtes child ctes =>
    child.CaptureFree ∧
    (∀ id, .table id ∈ child.needed → Captured ctes id → id.database = none) ∧
    Scoped ctes [] ctes ∧
    ∀ c, Used child ctes c → c.query.BindsNothing
  | .insertIntoTable _ query => query.CaptureFree
  | .node es ps => (∀ e ∈ es, e.BindsNothing) ∧ plansCaptureFree ps

def plansCaptureFree : List LogicalPlan → Prop
  | [] => True
  | p :: ps => p.CaptureFree ∧ plansCaptureFree ps

end

@[simp] lemma plansCaptureFree_iff (ps : List LogicalPlan) :
    plansCaptureFree ps ↔ ∀ p ∈ ps, p.CaptureFree := by
  induction ps with
  | nil => simp [plansCaptureFree]
  | cons p ps ih => rw [plansCaptureFree, ih, List.forall_mem_cons]

/-- The rewrite ends, and the names then collected are the free names of the statement, so that
the engine registers those of them that it does not have and no other. -/
def NamesCollected (p : LogicalPlan) : Prop :=
  ∃ q, Gives (fun fuel => rewrite fuel p) q ∧
    (∀ id, id ∈ unresolvedTables q ↔ .table id ∈ p.freeNames) ∧
    (∀ id, id ∈ unresolvedFunctions q ↔ .function id ∈ p.freeNames) ∧
    ∀ tableExists id, id ∈ tablesToRegister tableExists q ↔
      .table id ∈ p.freeNames ∧ tableExists id = false

end Moonbox.Spark
