import Mathlib.Logic.Relation
import Mathlib.Tactic.Lemma

/-!
# `Pushdown`

Each operator of a plan gets the data system that can run it together with all that is below it.
What is below an operator of another system is given to its own, if the search from the root comes
to it.
-/

namespace Moonbox.Optimizer

/-! ### Plans -/

inductive DataSystem (S : Type)
  | spark
  | pushdownable (s : S)
  | other
  deriving DecidableEq

/-- Whether a join compares two columns. -/
inductive JoinCondition
  | equalAttributes
  | other
  deriving DecidableEq

/-- What else there is to an operator is in `O`. -/
inductive LogicalPlan (S O : Type)
  | logicalRelation (table : O) (dataSystem : DataSystem S)
  | leafNode (op : O)
  | unaryNode (op : O) (child : LogicalPlan S O)
  | join (op : O) (condition : Option JoinCondition) (left right : LogicalPlan S O)
  | binaryNode (op : O) (left right : LogicalPlan S O)
  | union (children : List (LogicalPlan S O))
  | other (op : O) (children : List (LogicalPlan S O))
  /-- The rows that a system answers to a plan -/
  | scan (s : S) (plan : LogicalPlan S O)

namespace LogicalPlan

variable {S O : Type}

def children : LogicalPlan S O → List (LogicalPlan S O)
  | logicalRelation _ _ => []
  | leafNode _ => []
  | unaryNode _ child => [child]
  | join _ _ left right => [left, right]
  | binaryNode _ left right => [left, right]
  | union children => children
  | other _ children => children
  | scan _ _ => []

def withNewChildren : LogicalPlan S O → List (LogicalPlan S O) → LogicalPlan S O
  | unaryNode op _, [child] => unaryNode op child
  | join op condition _ _, [left, right] => join op condition left right
  | binaryNode op _ _, [left, right] => binaryNode op left right
  | union _, children => union children
  | other op _, children => other op children
  | plan, _ => plan

lemma sizeOf_lt_of_mem_children {c plan : LogicalPlan S O} (h : c ∈ plan.children) :
    sizeOf c < sizeOf plan := by
  cases plan with
  | unaryNode op child =>
    obtain rfl := List.mem_singleton.mp h
    simp
  | join op condition left right =>
    simp only [children, List.mem_cons, List.not_mem_nil, or_false] at h
    simp only [join.sizeOf_spec]
    rcases h with rfl | rfl <;> omega
  | binaryNode op left right =>
    simp only [children, List.mem_cons, List.not_mem_nil, or_false] at h
    simp only [binaryNode.sizeOf_spec]
    rcases h with rfl | rfl <;> omega
  | union cs =>
    have hlt : sizeOf c < sizeOf cs := List.sizeOf_lt_of_mem h
    simp only [union.sizeOf_spec]
    omega
  | other op cs =>
    have hlt : sizeOf c < sizeOf cs := List.sizeOf_lt_of_mem h
    simp only [other.sizeOf_spec]
    omega
  | logicalRelation | leafNode | scan => cases h

lemma induct {P : LogicalPlan S O → Prop} (h : ∀ plan, (∀ c ∈ plan.children, P c) → P plan)
    (plan : LogicalPlan S O) : P plan :=
  h plan fun c _ => induct h c
termination_by sizeOf plan
decreasing_by exact sizeOf_lt_of_mem_children ‹_›

/-- The plan and all that is below it, in the order of `find` -/
def nodes (plan : LogicalPlan S O) : List (LogicalPlan S O) :=
  plan :: plan.children.attach.flatMap fun c => nodes c.1
termination_by sizeOf plan
decreasing_by exact sizeOf_lt_of_mem_children c.2

section Equality

variable [DecidableEq S] [DecidableEq O]

mutual

def equals : LogicalPlan S O → LogicalPlan S O → Bool
  | logicalRelation table dataSystem, logicalRelation table' dataSystem' =>
    table = table' && dataSystem = dataSystem'
  | leafNode op, leafNode op' => op = op'
  | unaryNode op child, unaryNode op' child' => op = op' && equals child child'
  | join op condition left right, join op' condition' left' right' =>
    op = op' && condition = condition' && equals left left' && equals right right'
  | binaryNode op left right, binaryNode op' left' right' =>
    op = op' && equals left left' && equals right right'
  | union children, union children' => equalsAll children children'
  | other op children, other op' children' => op = op' && equalsAll children children'
  | scan s plan, scan s' plan' => s = s' && equals plan plan'
  | _, _ => false

def equalsAll : List (LogicalPlan S O) → List (LogicalPlan S O) → Bool
  | [], [] => true
  | plan :: plans, plan' :: plans' => equals plan plan' && equalsAll plans plans'
  | _, _ => false

end

lemma equalsAll_iff {plans : List (LogicalPlan S O)}
    (h : ∀ plan ∈ plans, ∀ plan', equals plan plan' = true ↔ plan = plan')
    (plans' : List (LogicalPlan S O)) : equalsAll plans plans' = true ↔ plans = plans' := by
  induction plans generalizing plans' with
  | nil => cases plans' <;> simp [equalsAll]
  | cons plan plans ih =>
    cases plans' with
    | nil => simp [equalsAll]
    | cons plan' plans' =>
      rw [equalsAll, Bool.and_eq_true, h plan List.mem_cons_self,
        ih fun p hp => h p (List.mem_cons_of_mem plan hp), List.cons.injEq]

lemma equals_iff (plan plan' : LogicalPlan S O) : equals plan plan' = true ↔ plan = plan' := by
  cases plan with
  | logicalRelation | leafNode => cases plan' <;> simp [equals]
  | unaryNode op child =>
    have hchild := equals_iff child
    cases plan' <;> simp [equals, hchild]
  | join op condition left right =>
    have hleft := equals_iff left
    have hright := equals_iff right
    cases plan' <;> simp [equals, hleft, hright, and_assoc]
  | binaryNode op left right =>
    have hleft := equals_iff left
    have hright := equals_iff right
    cases plan' <;> simp [equals, hleft, hright, and_assoc]
  | union children =>
    have hchildren := equalsAll_iff fun c (_ : c ∈ children) => equals_iff c
    cases plan' <;> simp [equals, hchildren]
  | other op children =>
    have hchildren := equalsAll_iff fun c (_ : c ∈ children) => equals_iff c
    cases plan' <;> simp [equals, hchildren]
  | scan s plan =>
    have hplan := equals_iff plan
    cases plan' <;> simp [equals, hplan]
termination_by sizeOf plan
decreasing_by
  · exact sizeOf_lt_of_mem_children (List.mem_singleton_self child)
  · exact sizeOf_lt_of_mem_children (List.mem_cons_self)
  · exact sizeOf_lt_of_mem_children (List.mem_cons_of_mem left (List.mem_singleton_self right))
  · exact sizeOf_lt_of_mem_children (List.mem_cons_self)
  · exact sizeOf_lt_of_mem_children (List.mem_cons_of_mem left (List.mem_singleton_self right))
  · exact sizeOf_lt_of_mem_children ‹c ∈ children›
  · exact sizeOf_lt_of_mem_children ‹c ∈ children›
  · simp

instance : DecidableEq (LogicalPlan S O) :=
  fun plan plan' => decidable_of_iff _ (equals_iff plan plan')

end Equality

end LogicalPlan

open LogicalPlan

/-! ### Data systems -/

/-- What the systems do, and what the session knows of the rows of a plan. -/
structure Systems (S O : Type) where
  isSupport : S → LogicalPlan S O → Bool
  isSupportAll : S → Bool
  isGoodAt : S → LogicalPlan S O → Bool
  fastEquals : S → S → Bool
  rowCount : LogicalPlan S O → Option Nat

variable {S O : Type} (sys : Systems S O)

namespace DataSystem

/-- What is not `Pushdownable` supports nothing. -/
def isSupport : DataSystem S → LogicalPlan S O → Bool
  | spark, _ => true
  | pushdownable s, plan => sys.isSupport s plan
  | other, _ => false

def fastEquals : DataSystem S → DataSystem S → Bool
  | spark, spark => true
  | pushdownable l, pushdownable r => sys.fastEquals l r
  | _, _ => false

def isSpark : DataSystem S → Bool
  | spark => true
  | pushdownable _ => false
  | other => false

def isPushdownable : DataSystem S → Bool
  | spark => true
  | pushdownable _ => true
  | other => false

/-- The systems are asked for the operators that they are good at. -/
def isWorthwhile : DataSystem S → LogicalPlan S O → Bool
  | spark, _ => true
  | pushdownable s, plan => sys.isSupportAll s || plan.nodes.any (sys.isGoodAt s)
  | other, _ => false

end DataSystem

def costJudge (cost : Option Nat) : Bool := cost.getD 9223372036854775807 ≤ 10000000000

def costUnderExpected (left right : LogicalPlan S O) : Bool :=
  costJudge do
    let outer ← sys.rowCount left
    let inner ← sys.rowCount right
    some (outer * inner)

/-- There is never an index. -/
def costConsiderIndexUnderExpected (condition : Option JoinCondition)
    (left right : LogicalPlan S O) : Bool :=
  costJudge do
    match ← condition with
    | .equalAttributes =>
      let outer ← sys.rowCount left
      let inner ← sys.rowCount right
      some (outer * inner)
    | .other => some 9223372036854775807

def isCheap (condition : Option JoinCondition) (left right : LogicalPlan S O) : Bool :=
  costUnderExpected sys left right || costConsiderIndexUnderExpected sys condition left right

/-! ### The tree -/

mutual

inductive MbTreeNode (S O : Type)
  | mk (plan : LogicalPlan S O) (dataSystem : DataSystem S) (dependencies : List (MbDependency S O))

inductive MbDependency (S O : Type)
  | same (node : MbTreeNode S O)
  | cross (node : MbTreeNode S O)

end

namespace MbTreeNode

def plan : MbTreeNode S O → LogicalPlan S O
  | mk plan _ _ => plan

def dataSystem : MbTreeNode S O → DataSystem S
  | mk _ dataSystem _ => dataSystem

def dependencies : MbTreeNode S O → List (MbDependency S O)
  | mk _ _ dependencies => dependencies

/-- How a node of Spark depends on one beside others -/
def beside (node : MbTreeNode S O) : MbDependency S O :=
  if node.dataSystem.isSpark then .same node else .cross node

end MbTreeNode

def dataSystemEquals (head : MbTreeNode S O) (tail : List (MbTreeNode S O)) : Bool :=
  tail.all fun node => node.dataSystem.fastEquals sys head.dataSystem

/-- The node of a plan over those of its children -/
def treeNode (plan : LogicalPlan S O) (childrenTreeNode : List (MbTreeNode S O)) :
    Except String (MbTreeNode S O) :=
  match plan, childrenTreeNode with
  | .logicalRelation _ dataSystem, _ => .ok (.mk plan dataSystem [])
  | .leafNode _, _ => .ok (.mk plan .spark [])
  | .scan _ _, _ => .ok (.mk plan .spark [])
  | .unaryNode _ _, child :: _ =>
    if child.dataSystem.isSupport sys plan then
      .ok (.mk plan child.dataSystem (childrenTreeNode.map .same))
    else .ok (.mk plan .spark (childrenTreeNode.map .cross))
  | .join _ condition l r, left :: right :: _ =>
    if left.dataSystem.fastEquals sys right.dataSystem then
      if left.dataSystem.isSupport sys plan && isCheap sys condition l r then
        .ok (.mk plan left.dataSystem (childrenTreeNode.map .same))
      else .ok (.mk plan .spark (childrenTreeNode.map .same))
    else .ok (.mk plan .spark (childrenTreeNode.map MbTreeNode.beside))
  | .binaryNode _ _ _, left :: right :: _ =>
    if left.dataSystem.fastEquals sys right.dataSystem then
      if left.dataSystem.isSupport sys plan then
        .ok (.mk plan left.dataSystem (childrenTreeNode.map .same))
      else .ok (.mk plan .spark (childrenTreeNode.map .cross))
    else .ok (.mk plan .spark (childrenTreeNode.map MbTreeNode.beside))
  | .union _, head :: tail =>
    if dataSystemEquals sys head tail then
      if head.dataSystem.isPushdownable then
        if head.dataSystem.isSupport sys plan then
          .ok (.mk plan head.dataSystem (childrenTreeNode.map .same))
        else .ok (.mk plan .spark (childrenTreeNode.map MbTreeNode.beside))
      else .error "ClassCastException"
    else .ok (.mk plan .spark (childrenTreeNode.map MbTreeNode.beside))
  | .union _, [] => .error "tail of empty list"
  | .other _ _, _ => .ok (.mk plan .spark (childrenTreeNode.map .cross))
  | _, _ => .error "head of empty list"

def buildDataSystemTree (plan : LogicalPlan S O) : Except String (MbTreeNode S O) := do
  let childrenTreeNode ← plan.children.attach.mapM fun c => buildDataSystemTree c.1
  treeNode sys plan childrenTreeNode
termination_by sizeOf plan
decreasing_by exact sizeOf_lt_of_mem_children c.2

/-! ### The search -/

def sameNodes : List (MbDependency S O) → List (MbTreeNode S O)
  | [] => []
  | .same node :: dependencies => node :: sameNodes dependencies
  | .cross _ :: dependencies => sameNodes dependencies

def crossNodes : List (MbDependency S O) → List (MbTreeNode S O)
  | [] => []
  | .same _ :: dependencies => crossNodes dependencies
  | .cross node :: dependencies => node :: crossNodes dependencies

lemma sizeOf_sameNodes_le (dependencies : List (MbDependency S O)) :
    sizeOf (sameNodes dependencies) ≤ sizeOf dependencies := by
  induction dependencies with
  | nil => exact Nat.le_refl _
  | cons dependency dependencies ih =>
    cases dependency with
    | same node =>
      simp only [sameNodes, List.cons.sizeOf_spec, MbDependency.same.sizeOf_spec]
      omega
    | cross node =>
      simp only [sameNodes, List.cons.sizeOf_spec]
      omega

lemma sizeOf_append (l r : List (MbTreeNode S O)) :
    sizeOf (l ++ r) + 1 = sizeOf l + sizeOf r := by
  induction l with
  | nil => simp only [List.nil_append, List.nil.sizeOf_spec]; omega
  | cons node l ih =>
    simp only [List.cons_append, List.cons.sizeOf_spec]
    omega

lemma sizeOf_reverse (l : List (MbTreeNode S O)) : sizeOf l.reverse = sizeOf l := by
  induction l with
  | nil => rfl
  | cons node l ih =>
    have happend := sizeOf_append l.reverse [node]
    simp only [List.reverse_cons, List.cons.sizeOf_spec, List.nil.sizeOf_spec] at happend ⊢
    omega

lemma sizeOf_dependencies_lt (node : MbTreeNode S O) :
    sizeOf node.dependencies < sizeOf node := by
  cases node
  simp only [MbTreeNode.dependencies, MbTreeNode.mk.sizeOf_spec]
  omega

/-- The nodes that are found on the way; none is ever marked as visited. -/
def parents : List (MbTreeNode S O) → List (MbTreeNode S O)
  | [] => []
  | toVisit :: waitingForVisit =>
    crossNodes toVisit.dependencies ++
      parents ((sameNodes toVisit.dependencies).reverse ++ waitingForVisit)
termination_by waitingForVisit => sizeOf waitingForVisit
decreasing_by
  have h1 := sizeOf_sameNodes_le toVisit.dependencies
  have h2 := sizeOf_dependencies_lt toVisit
  have h3 := sizeOf_append (sameNodes toVisit.dependencies).reverse waitingForVisit
  rw [sizeOf_reverse] at h3
  simp only [List.cons.sizeOf_spec]
  omega

def findReplacePoint (graph : MbTreeNode S O) :
    Option (MbTreeNode S O) × List (MbTreeNode S O) :=
  let parents := parents [graph]
  if parents.isEmpty && !graph.dataSystem.isSpark && graph.dataSystem.isWorthwhile sys graph.plan then
    (some graph, [])
  else (none, parents.filter fun n => n.dataSystem.isWorthwhile sys n.plan)

/-! ### The new plan -/

/-- The new plan: a system other than Spark answers for its subtrees. What Spark makes of a plan is
the plan. -/
inductive Pushed (S O : Type)
  | wholePushdown (child : LogicalPlan S O) (queryable : S)
  | plan (newPlan : LogicalPlan S O)

section Replace

variable [DecidableEq S] [DecidableEq O]

def answering (points : List (MbTreeNode S O)) (plan : LogicalPlan S O) : Option S :=
  match points.find? fun n => n.plan = plan with
  | some (.mk _ (.pushdownable s) _) => some s
  | _ => none

def replace (answering : LogicalPlan S O → Option S) (plan : LogicalPlan S O) : LogicalPlan S O :=
  match answering plan with
  | some s => .scan s plan
  | none => plan.withNewChildren (plan.children.attach.map fun c => replace answering c.1)
termination_by sizeOf plan
decreasing_by exact sizeOf_lt_of_mem_children c.2

def apply (plan : LogicalPlan S O) : Except String (Pushed S O) := do
  let graph ← buildDataSystemTree sys plan
  match findReplacePoint sys graph with
  | (some (.mk child (.pushdownable queryable) _), _) => .ok (.wholePushdown child queryable)
  | (some _, _) => .error "ClassCastException"
  | (none, points) => .ok (.plan (replace (answering points) graph.plan))

end Replace

end Moonbox.Optimizer
