import Moonbox.Spark.LogicalPlan

/-!
# `CTESubstitution`

The rule that puts the definitions of a `With` in place of their names. The rewrite goes from the
top down and on into what it has just put in, so it need not end: fuel bounds the depth of its
calls, and `none` is a stack that overflows.
-/

namespace Moonbox.Spark

open Moonbox.Core (TableIdentifier FunctionIdentifier)

/-- How Java compares two strings ignoring case. -/
class IgnoreCase where
  equalsIgnoreCase : String → String → Bool

variable [IgnoreCase]

namespace CTESubstitution

/-- The database of the identifier is not asked for. -/
def find (cteRelations : List (String × LogicalPlan)) (id : TableIdentifier) :
    Option LogicalPlan :=
  (cteRelations.find? fun x => IgnoreCase.equalsIgnoreCase x.1 id.table).map Prod.snd

/-- The children of an operator, not its expressions. -/
def mapChildren (f : LogicalPlan → Option LogicalPlan) : LogicalPlan → Option LogicalPlan
  | .unresolvedRelation id => some (.unresolvedRelation id)
  | .withCtes child cteRelations => do return .withCtes (← f child) cteRelations
  | .insertIntoTable table query => do return .insertIntoTable table (← f query)
  | .node es ps => do return .node es (← ps.mapM f)

mutual

/-- Where a definition was put in, the rewrite goes on with its children. -/
def substituteCTE (cteRelations : List (String × LogicalPlan)) :
    Nat → LogicalPlan → Option LogicalPlan
  | 0, _ => none
  | fuel + 1, .unresolvedRelation id =>
    match find cteRelations id with
    | some relation => mapChildren (substituteCTE cteRelations fuel) relation
    | none => some (.unresolvedRelation id)
  | fuel + 1, .node es ps => do
    let es ← es.mapM (substituteExpression cteRelations fuel)
    mapChildren (substituteCTE cteRelations fuel) (.node es ps)
  | fuel + 1, plan => mapChildren (substituteCTE cteRelations fuel) plan

/-- `transformExpressions` with the case for subqueries. -/
def substituteExpression (cteRelations : List (String × LogicalPlan)) :
    Nat → Expression → Option Expression
  | 0, _ => none
  | fuel + 1, .unresolvedFunction name es => do
    return .unresolvedFunction name (← es.mapM (substituteExpression cteRelations fuel))
  | fuel + 1, .subquery plan => do
    return .subquery (← substituteCTE cteRelations fuel plan)
  | fuel + 1, .node es => do
    return .node (← es.mapM (substituteExpression cteRelations fuel))

end

/-- The definitions of a `With`, in each of which those before it are put in. -/
def resolve (fuel : Nat) (resolved : List (String × LogicalPlan)) (relations : List Cte) :
    Option (List (String × LogicalPlan)) :=
  relations.foldlM
    (fun resolved c => do
      let relation ← substituteCTE resolved fuel c.query.subqueryAlias
      return resolved ++ [(c.name, relation)])
    resolved

mutual

/-- From the bottom up over the children of every operator. -/
def apply (fuel : Nat) : LogicalPlan → Option LogicalPlan
  | .unresolvedRelation id => some (.unresolvedRelation id)
  | .withCtes child relations => do
    let child ← apply fuel child
    let resolved ← resolve fuel [] relations
    substituteCTE resolved fuel child
  | .insertIntoTable table query => do return .insertIntoTable table (← apply fuel query)
  | .node es ps => do return .node es (← applyAll fuel ps)

def applyAll (fuel : Nat) : List LogicalPlan → Option (List LogicalPlan)
  | [] => some []
  | p :: ps => do return (← apply fuel p) :: (← applyAll fuel ps)

end

@[simp] lemma applyAll_eq (fuel : Nat) (ps : List LogicalPlan) :
    applyAll fuel ps = ps.mapM (apply fuel) := by
  induction ps with
  | nil => rfl
  | cons p ps ih =>
    rw [applyAll, ih, List.mapM_cons]

end CTESubstitution

/-- `SparkEngine.rewrite` -/
def rewrite (fuel : Nat) (plan : LogicalPlan) : Option LogicalPlan :=
  CTESubstitution.apply fuel plan

end Moonbox.Spark
