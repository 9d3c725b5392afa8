import Mathlib.Logic.Relation
import Mathlib.Tactic.Lemma

/-!
# `Pushdownable`

A data system lists the operators, join types, expressions and user defined functions that it can
run. Before an operator is given to it, the classes of the operator and of the nodes of its
expressions are looked for in these lists.
-/

namespace Moonbox.DataSys

open Relation

/-! ### Plans and expressions -/

/-- The class of an expression. -/
inductive ExpressionClass
  | scalaUDF
  | scalaUDAF
  | other (simpleName : String)
  deriving DecidableEq

inductive Expression
  | scalaUDF (udfName : Option String) (children : List Expression)
  | scalaUDAF (children : List Expression)
  | other (simpleName : String) (children : List Expression)

namespace Expression

def getClass : Expression → ExpressionClass
  | scalaUDF _ _ => .scalaUDF
  | scalaUDAF _ => .scalaUDAF
  | other simpleName _ => .other simpleName

def children : Expression → List Expression
  | scalaUDF _ children => children
  | scalaUDAF children => children
  | other _ children => children

@[simp] lemma children_scalaUDF (udfName : Option String) (children : List Expression) :
    (scalaUDF udfName children).children = children := rfl

@[simp] lemma children_other (simpleName : String) (children : List Expression) :
    (other simpleName children).children = children := rfl

mutual

lemma induct {P : Expression → Prop} (h : ∀ e, (∀ c ∈ e.children, P c) → P e) : ∀ e, P e
  | scalaUDF udfName children => h (scalaUDF udfName children) (inductAll h children)
  | scalaUDAF children => h (scalaUDAF children) (inductAll h children)
  | other simpleName children => h (other simpleName children) (inductAll h children)

lemma inductAll {P : Expression → Prop} (h : ∀ e, (∀ c ∈ e.children, P c) → P e) :
    ∀ es : List Expression, ∀ e ∈ es, P e
  | [] => by simp
  | e :: es => List.forall_mem_cons.mpr ⟨induct h e, inductAll h es⟩

end

def IsScalaUDF (e : Expression) : Prop := e.getClass = .scalaUDF

/-- `n` is a node of `e`, at any depth. -/
def HasNode (e n : Expression) : Prop := ReflTransGen (fun a b => b ∈ a.children) e n

/-- A node that is no argument of a scalar function and is in none. -/
def HasOuterNode (e n : Expression) : Prop :=
  ReflTransGen (fun a b => ¬ a.IsScalaUDF ∧ b ∈ a.children) e n

variable {e n : Expression}

lemma HasOuterNode.hasNode (h : e.HasOuterNode n) : e.HasNode n :=
  ReflTransGen.mono (fun _ _ h => h.2) _ _ h

lemma hasOuterNode_of_isScalaUDF (he : e.IsScalaUDF) : e.HasOuterNode n ↔ n = e := by
  rw [HasOuterNode, ReflTransGen.cases_head_iff]
  constructor
  · rintro (rfl | ⟨c, ⟨hudf, _⟩, _⟩)
    · rfl
    · exact absurd he hudf
  · rintro rfl
    exact .inl rfl

lemma hasOuterNode_of_not_isScalaUDF (he : ¬ e.IsScalaUDF) :
    e.HasOuterNode n ↔ n = e ∨ ∃ c ∈ e.children, c.HasOuterNode n := by
  rw [HasOuterNode, ReflTransGen.cases_head_iff, eq_comm (a := e)]
  refine or_congr_right (exists_congr fun c => ?_)
  rw [and_iff_right he, HasOuterNode]

/-- A node stands outside the arguments of scalar functions, or in an argument of one that does. -/
lemma hasNode_iff : e.HasNode n ↔ e.HasOuterNode n ∨
    ∃ udf, e.HasOuterNode udf ∧ udf.IsScalaUDF ∧ ∃ a ∈ udf.children, a.HasNode n := by
  constructor
  · intro h
    induction h with
    | refl => exact .inl .refl
    | @tail b c _ hbc ih =>
      rcases ih with houter | ⟨udf, hudf, his, a, ha, hab⟩
      · by_cases hb : b.IsScalaUDF
        · exact .inr ⟨b, houter, hb, c, hbc, .refl⟩
        · exact .inl (houter.tail ⟨hb, hbc⟩)
      · exact .inr ⟨udf, hudf, his, a, ha, hab.tail hbc⟩
  · rintro (houter | ⟨udf, hudf, -, a, ha, han⟩)
    · exact houter.hasNode
    · exact (hudf.hasNode.tail ha).trans han

end Expression

inductive JoinType
  | inner
  | cross
  | leftOuter
  | rightOuter
  | fullOuter
  | leftSemi
  | leftAnti
  | existenceJoin (exprId : Nat)
  | naturalJoin (tpe : JoinType)
  | usingJoin (tpe : JoinType) (usingColumns : List String)
  deriving DecidableEq

/-- The class of an operator. -/
inductive OperatorClass
  | join
  | other (simpleName : String)
  deriving DecidableEq

/-- An operator with its own expressions. -/
inductive LogicalPlan
  | join (joinType : JoinType) (expressions : List Expression)
  | other (simpleName : String) (expressions : List Expression)

namespace LogicalPlan

def getClass : LogicalPlan → OperatorClass
  | join _ _ => .join
  | other simpleName _ => .other simpleName

def expressions : LogicalPlan → List Expression
  | join _ expressions => expressions
  | other _ expressions => expressions

end LogicalPlan

/-! ### The check -/

structure Pushdownable where
  supportedOperators : List OperatorClass
  supportedJoinTypes : List JoinType
  supportedExpressions : List ExpressionClass
  supportedUDF : List String
  isSupportAll : Bool

namespace Pushdownable

variable (s : Pushdownable)

mutual

/-- The arguments of a scalar function are not looked at. -/
def traverseExpression : Expression → Bool
  | .scalaUDF (some udfName) _ =>
    s.supportedExpressions.contains .scalaUDF && s.supportedUDF.contains udfName
  | .scalaUDF none _ => false
  | .scalaUDAF _ => false
  | .other simpleName children =>
    s.supportedExpressions.contains (.other simpleName) && traverseAll children

def traverseAll : List Expression → Bool
  | [] => true
  | e :: es => traverseExpression e && traverseAll es

end

def allExpressionSupport (plan : LogicalPlan) : Bool := s.traverseAll plan.expressions

def operatorSupport : LogicalPlan → Bool
  | .join joinType _ => s.supportedOperators.contains .join && s.supportedJoinTypes.contains joinType
  | .other simpleName _ => s.supportedOperators.contains (.other simpleName)

def isSupport (plan : LogicalPlan) : Bool :=
  s.isSupportAll || (s.operatorSupport plan && s.allExpressionSupport plan)

/-! ### What a system supports -/

/-- A supported expression, or a supported function. A system that supports all supports any, and
an aggregate function of a user has no name that it could be listed by. -/
def SupportsNode : Expression → Prop
  | .scalaUDF udfName _ => s.isSupportAll = true ∨ .scalaUDF ∈ s.supportedExpressions ∧
    ∃ name, udfName = some name ∧ name ∈ s.supportedUDF
  | .scalaUDAF _ => s.isSupportAll = true
  | .other simpleName _ => s.isSupportAll = true ∨ .other simpleName ∈ s.supportedExpressions

/-- The class of the operator is supported, and so is every node of its expressions. -/
def SupportsOperator (plan : LogicalPlan) : Prop :=
  (s.isSupportAll = true ∨ plan.getClass ∈ s.supportedOperators) ∧
    ∀ e ∈ plan.expressions, ∀ n, e.HasNode n → s.SupportsNode n

/-- The check without what is in arguments of scalar functions. -/
def SupportsOutside (plan : LogicalPlan) : Prop :=
  s.operatorSupport plan = true ∧
    ∀ e ∈ plan.expressions, ∀ n, e.HasOuterNode n → s.SupportsNode n

/-- What is in the arguments of scalar functions is supported. -/
def SupportsArguments (plan : LogicalPlan) : Prop :=
  ∀ e ∈ plan.expressions, ∀ udf, e.HasOuterNode udf → udf.IsScalaUDF →
    ∀ a ∈ udf.children, ∀ n, a.HasNode n → s.SupportsNode n

/-! ### What the check finds -/

variable {s}

lemma traverseAll_iff {es : List Expression} :
    s.traverseAll es = true ↔ ∀ e ∈ es, s.traverseExpression e = true := by
  induction es with
  | nil => simp [traverseAll]
  | cons e es ih => simp [traverseAll, ih]

/-- The traversal looks at the nodes that are not in arguments of scalar functions. -/
lemma traverseExpression_iff (hall : s.isSupportAll = false) :
    ∀ e : Expression, s.traverseExpression e = true ↔ ∀ n, e.HasOuterNode n → s.SupportsNode n := by
  refine Expression.induct fun e ih => ?_
  cases e with
  | scalaUDF udfName children =>
    have hudf : (Expression.scalaUDF udfName children).IsScalaUDF := rfl
    simp only [Expression.hasOuterNode_of_isScalaUDF hudf, forall_eq]
    cases udfName with
    | none => simp [traverseExpression, SupportsNode, hall]
    | some name => simp [traverseExpression, SupportsNode, hall]
  | scalaUDAF children =>
    have hself : ¬ s.SupportsNode (.scalaUDAF children) := by simp [SupportsNode, hall]
    simp only [traverseExpression, Bool.false_eq_true, false_iff]
    exact fun h => hself (h _ .refl)
  | other simpleName children =>
    have hudf : ¬ (Expression.other simpleName children).IsScalaUDF := by
      simp [Expression.IsScalaUDF, Expression.getClass]
    simp only [Expression.hasOuterNode_of_not_isScalaUDF hudf, Expression.children_other] at ih ⊢
    rw [traverseExpression, Bool.and_eq_true, traverseAll_iff, List.contains_iff_mem]
    constructor
    · rintro ⟨hname, hchildren⟩ n (rfl | ⟨c, hc, hn⟩)
      · exact .inr hname
      · exact (ih c hc).mp (hchildren c hc) n hn
    · intro h
      refine ⟨?_, fun c hc => (ih c hc).mpr fun n hn => h n (.inr ⟨c, hc, hn⟩)⟩
      simpa [SupportsNode, hall] using h _ (.inl rfl)

lemma isSupport_iff (hall : s.isSupportAll = false) {plan : LogicalPlan} :
    s.isSupport plan = true ↔ s.SupportsOutside plan := by
  simp [isSupport, hall, SupportsOutside, allExpressionSupport, traverseAll_iff,
    traverseExpression_iff hall]

lemma supportsNode_of_isSupportAll (hall : s.isSupportAll = true) (e : Expression) :
    s.SupportsNode e := by
  cases e with
  | scalaUDF udfName children => exact .inl hall
  | scalaUDAF children => exact hall
  | other simpleName children => exact .inl hall

lemma SupportsOutside.mem_supportedOperators {plan : LogicalPlan} (h : s.SupportsOutside plan) :
    plan.getClass ∈ s.supportedOperators := by
  have hop := h.1
  cases plan with
  | join joinType expressions =>
    simp only [operatorSupport, Bool.and_eq_true, List.contains_iff_mem] at hop
    exact hop.1
  | other simpleName expressions => simpa [operatorSupport, LogicalPlan.getClass] using hop

/-- Beyond what is checked, the arguments of scalar functions have to be supported. -/
lemma SupportsOutside.supportsOperator_iff {plan : LogicalPlan} (h : s.SupportsOutside plan) :
    s.SupportsOperator plan ↔ s.SupportsArguments plan := by
  constructor
  · rintro ⟨-, hnodes⟩ e he udf hudf his a ha n hn
    exact hnodes e he n (Expression.hasNode_iff.mpr (.inr ⟨udf, hudf, his, a, ha, hn⟩))
  · intro harguments
    refine ⟨.inr h.mem_supportedOperators, fun e he n hn => ?_⟩
    rcases Expression.hasNode_iff.mp hn with houter | ⟨udf, hudf, his, a, ha, han⟩
    · exact h.2 e he n houter
    · exact harguments e he udf hudf his a ha n han

/-- An accepted operator is supported unless everything outside the arguments of scalar functions
is supported and something in them is not. -/
theorem isSupport_sound_iff (s : Pushdownable) (plan : LogicalPlan) :
    (s.isSupport plan = true → s.SupportsOperator plan) ↔
      (s.SupportsOutside plan → s.SupportsArguments plan) := by
  cases hall : s.isSupportAll with
  | true =>
    have hnode := supportsNode_of_isSupportAll hall
    exact iff_of_true (fun _ => ⟨.inl hall, fun _ _ n _ => hnode n⟩)
      fun _ _ _ _ _ _ _ _ n _ => hnode n
  | false =>
    rw [isSupport_iff hall]
    exact forall_congr' fun h => h.supportsOperator_iff

/-- `Filter` with `geo_distance` of the hour of a column, where `Hour` is not supported. -/
theorem isSupport_sound_fails :
    ∃ s : Pushdownable, ∃ plan, s.isSupport plan = true ∧ ¬ s.SupportsOperator plan := by
  let hour := Expression.other "Hour" [.other "AttributeReference" []]
  let s : Pushdownable :=
    { supportedOperators := [.other "Filter"]
      supportedJoinTypes := []
      supportedExpressions := [.other "AttributeReference", .scalaUDF]
      supportedUDF := ["geo_distance"]
      isSupportAll := false }
  refine ⟨s, .other "Filter" [.scalaUDF (some "geo_distance") [hour]], by decide, ?_⟩
  rintro ⟨-, hnodes⟩
  have hnode := hnodes _ (List.mem_singleton_self _) hour
    (.single (List.mem_singleton_self _))
  simp [hour, s, SupportsNode] at hnode

/-- A system that lists no scalar function never accepts what it does not support. -/
lemma isSupport_sound (h : .scalaUDF ∉ s.supportedExpressions ∨ s.supportedUDF = [])
    (plan : LogicalPlan) (hplan : s.isSupport plan = true) : s.SupportsOperator plan := by
  cases hall : s.isSupportAll with
  | true => exact ⟨.inl hall, fun _ _ n _ => supportsNode_of_isSupportAll hall n⟩
  | false =>
    refine (isSupport_sound_iff s plan).mpr (fun houtside e he udf hudf his => ?_) hplan
    have hsupported := houtside.2 e he udf hudf
    cases udf with
    | scalaUDF udfName children =>
      simp only [SupportsNode, hall, Bool.false_eq_true, false_or] at hsupported
      obtain ⟨hclass, name, -, hname⟩ := hsupported
      rcases h with hno | hnil
      · exact absurd hclass hno
      · simp [hnil] at hname
    | scalaUDAF children => simp [Expression.IsScalaUDF, Expression.getClass] at his
    | other simpleName children => simp [Expression.IsScalaUDF, Expression.getClass] at his

end Pushdownable

end Moonbox.DataSys
