import Moonbox.Optimizer.Pushdown

/-!
# Pushed subtrees

Which subtrees a system could run, and when `Pushdown` gives them all to it.
-/

namespace Moonbox.Optimizer

open LogicalPlan Relation

variable {S O : Type} (sys : Systems S O)

/-! ### What is promised -/

/-- All tables of the plan are of the system, and it supports all operators. -/
inductive Runs (s : S) : LogicalPlan S O → Prop
  | table {table : O} {s' : S} (h : sys.fastEquals s s' = true) :
    Runs s (.logicalRelation table (.pushdownable s'))
  | operator {plan : LogicalPlan S O} (hne : plan.children ≠ [])
    (hsupport : sys.isSupport s plan = true) (h : ∀ c ∈ plan.children, Runs s c) : Runs s plan

def Runnable (plan : LogicalPlan S O) : Prop := ∃ s, Runs sys s plan

/-- A plan that can be run and is under an operator that cannot -/
inductive MaximalIn : LogicalPlan S O → LogicalPlan S O → Prop
  | child {plan c : LogicalPlan S O} (hplan : ¬Runnable sys plan) (hc : c ∈ plan.children)
    (h : Runnable sys c) : MaximalIn plan c
  | inside {plan c t : LogicalPlan S O} (hplan : ¬Runnable sys plan) (hc : c ∈ plan.children)
    (h : MaximalIn c t) : MaximalIn plan t

/-! ### When it is kept -/

namespace LogicalPlan

/-- `n` is a node of the plan. -/
def HasNode (plan n : LogicalPlan S O) : Prop := ReflTransGen (fun a b => b ∈ a.children) plan n

/-- An operator that is no unary node, no binary node and no union -/
def IsOther : LogicalPlan S O → Prop
  | other _ _ => True
  | _ => False

def IsJoin : LogicalPlan S O → Prop
  | join _ _ _ _ => True
  | _ => False

def JoinsOneSystem : LogicalPlan S O → Prop
  | join _ _ left right => ∃ s, Runs sys s left ∧ Runs sys s right
  | _ => False

end LogicalPlan

/-- The search finds a subtree unless it goes through an operator that is neither a unary or binary
node nor a union, or the subtree is under a join of one system. -/
inductive Found : LogicalPlan S O → LogicalPlan S O → Prop
  | child {plan c : LogicalPlan S O} (hplan : ¬Runnable sys plan)
    (hjoin : ¬plan.JoinsOneSystem sys) (hc : c ∈ plan.children) (h : Runnable sys c) :
    Found plan c
  | inside {plan c t : LogicalPlan S O} (hplan : ¬Runnable sys plan) (hother : ¬plan.IsOther)
    (hc : c ∈ plan.children) (h : Found c t) : Found plan t

/-- No operator that is neither a unary or binary node nor a union could be run by a system. -/
def OthersNotRunnable (plan : LogicalPlan S O) : Prop :=
  ∀ n, plan.HasNode n → n.IsOther → ¬Runnable sys n

/-- Whether systems are the same is an equivalence, and systems that are the same support the same:
they are of one class. -/
structure Lawful : Prop where
  refl : ∀ s, sys.fastEquals s s = true
  symm : ∀ s s', sys.fastEquals s s' = true → sys.fastEquals s' s = true
  trans : ∀ s s' s'', sys.fastEquals s s' = true → sys.fastEquals s' s'' = true →
    sys.fastEquals s s'' = true
  support : ∀ s s', sys.fastEquals s s' = true → sys.isSupport s = sys.isSupport s'

/-- The rows of each join are few. -/
def CheapJoins (plan : LogicalPlan S O) : Prop :=
  ∀ op condition left right, plan.HasNode (.join op condition left right) →
    costUnderExpected sys left right = true

/-! ### Subtrees -/

section Subtrees

variable {sys} {plan c t n : LogicalPlan S O} {s s' : S}

lemma hasNode_child (hc : c ∈ plan.children) (h : c.HasNode n) : plan.HasNode n := h.head hc

lemma CheapJoins.child (h : CheapJoins sys plan) (hc : c ∈ plan.children) : CheapJoins sys c :=
  fun op condition left right hnode => h op condition left right (hasNode_child hc hnode)

lemma OthersNotRunnable.child (hother : OthersNotRunnable sys plan) (hc : c ∈ plan.children) :
    OthersNotRunnable sys c :=
  fun n hn => hother n (hasNode_child hc hn)

lemma Runs.congr (h : Lawful sys) (hsame : sys.fastEquals s s' = true) (hrun : Runs sys s plan) :
    Runs sys s' plan := by
  induction hrun with
  | table heq => exact .table (h.trans _ _ _ (h.symm _ _ hsame) heq)
  | operator hne hsupport _ ih => exact .operator hne (h.support _ _ hsame ▸ hsupport) ih

lemma Runs.child (h : Runs sys s plan) (hc : c ∈ plan.children) : Runs sys s c := by
  cases h with
  | table => cases hc
  | operator _ _ hchildren => exact hchildren c hc

lemma Runs.hasNode (h : Runs sys s plan) (hn : plan.HasNode n) : Runs sys s n := by
  induction hn with
  | refl => exact h
  | tail _ hc ih => exact ih.child hc

/-- A plan has its tables from one system only. -/
lemma Runs.same (h : Lawful sys) (hrun : Runs sys s plan) (hrun' : Runs sys s' plan) :
    sys.fastEquals s s' = true := by
  induction hrun with
  | table heq =>
    cases hrun' with
    | table heq' => exact h.trans _ _ _ heq (h.symm _ _ heq')
    | operator hne => exact absurd rfl hne
  | @operator plan hne _ _ ih =>
    obtain ⟨c, hc⟩ := List.exists_mem_of_ne_nil _ hne
    exact ih c hc (hrun'.child hc)

/-- Where a subtree can be run, it is in the plan that is run or in a maximal one. -/
lemma runnable_or_maximal (hn : plan.HasNode n) (h : Runnable sys n) (hne : n.children ≠ []) :
    Runnable sys plan ∧ plan.children ≠ [] ∨
      ∃ t, MaximalIn sys plan t ∧ t.children ≠ [] ∧ t.HasNode n := by
  induction hn using ReflTransGen.head_induction_on with
  | refl => exact .inl ⟨h, hne⟩
  | @head plan c hc hcn ih =>
    by_cases hplan : Runnable sys plan
    · exact .inl ⟨hplan, List.ne_nil_of_mem hc⟩
    · right
      rcases ih with ⟨hrun, hne'⟩ | ⟨t, ht, hne', hnode⟩
      · exact ⟨c, .child hplan hc hrun, hne', hcn⟩
      · exact ⟨t, .inside hplan hc ht, hne', hnode⟩

end Subtrees

end Moonbox.Optimizer
