import Moonbox.Optimizer.DataSystemTree

/-!
# Pushdown is sound and maximal

The new plan gives each maximal subtree to its system where the search comes to all of them.
-/

namespace Moonbox.Optimizer

open LogicalPlan Outcome

variable {S O : Type} (sys : Systems S O)

/-- A table may be read by its system or by Spark. -/
inductive Replaced : LogicalPlan S O → LogicalPlan S O → Prop
  | scan {s : S} {plan : LogicalPlan S O} (h : Runs sys s plan) : Replaced plan (.scan s plan)
  | kept {plan : LogicalPlan S O} {newChildren : List (LogicalPlan S O)}
    (h : plan.children = [] ∨ ¬Runnable sys plan)
    (hchildren : List.Forall₂ Replaced plan.children newChildren) :
    Replaced plan (plan.withNewChildren newChildren)

/-- The whole plan is given to one system, or each maximal subtree is given to its own. -/
def SoundAndMaximal [DecidableEq S] [DecidableEq O] (plan : LogicalPlan S O) : Prop :=
  ∃ pushed, apply sys plan = .ok pushed ∧
    match pushed with
    | .wholePushdown child queryable => child = plan ∧ Runs sys queryable plan
    | .plan newPlan => Replaced sys plan newPlan

/-- All unions have something to compare, no operator of another kind could be run by a system, and
each maximal subtree is found at one of its places. -/
structure Findable (plan : LogicalPlan S O) : Prop where
  union : ∀ children, plan.HasNode (.union children) →
    children ≠ [] ∧ ∀ table, children ≠ [.logicalRelation table .other]
  other : OthersNotRunnable sys plan
  found : ∀ t, MaximalIn sys plan t → t.children ≠ [] → Found sys plan t

/-! ### The tree is built -/

section Build

variable {sys} {plan : LogicalPlan S O} {node : MbTreeNode S O} {nodes : List (MbTreeNode S O)}

/-- Only a union is compared with nothing. -/
lemma exists_treeNode_iff (hlength : nodes.length = plan.children.length) :
    (∃ node, treeNode sys plan nodes = .ok node) ↔ ∀ children, plan = .union children →
      nodes ≠ [] ∧ ∀ m, m.dataSystem = .other → nodes ≠ [m] := by
  cases plan with
  | logicalRelation | leafNode | scan | other => simp [treeNode]
  | unaryNode op child =>
    obtain ⟨m, rfl⟩ := List.length_eq_one_iff.mp hlength
    refine iff_of_true ?_ (by simp)
    rw [treeNode]
    split <;> exact ⟨_, rfl⟩
  | join op condition l r =>
    obtain ⟨left, right, rfl⟩ := List.length_eq_two.mp hlength
    refine iff_of_true ?_ (by simp)
    rw [treeNode]
    split
    · split <;> exact ⟨_, rfl⟩
    · exact ⟨_, rfl⟩
  | binaryNode op l r =>
    obtain ⟨left, right, rfl⟩ := List.length_eq_two.mp hlength
    refine iff_of_true ?_ (by simp)
    rw [treeNode]
    split
    · split <;> exact ⟨_, rfl⟩
    · exact ⟨_, rfl⟩
  | union children =>
    simp only [union.injEq, forall_eq']
    cases nodes with
    | nil => simp [treeNode]
    | cons head tail =>
      rw [treeNode]
      split
      · rename_i hequals
        split
        · rename_i hpushdownable
          refine iff_of_true (by split <;> exact ⟨_, rfl⟩) ⟨by simp, fun m hm heq => ?_⟩
          obtain ⟨rfl, -⟩ := List.cons.inj heq
          rw [hm] at hpushdownable
          cases hpushdownable
        · rename_i hpushdownable
          refine iff_of_false (by simp) fun h => ?_
          have hother : head.dataSystem = .other := by
            cases hhead : head.dataSystem with
            | spark | pushdownable => exact absurd (by rw [hhead]; rfl) hpushdownable
            | other => rfl
          cases tail with
          | nil => exact h.2 head hother rfl
          | cons n tail =>
            have hn := List.all_eq_true.mp hequals n List.mem_cons_self
            rw [hother] at hn
            cases hn' : n.dataSystem <;> rw [hn'] at hn <;> cases hn
      · rename_i hequals
        refine iff_of_true ⟨_, rfl⟩ ⟨by simp, fun m _ heq => ?_⟩
        obtain ⟨-, rfl⟩ := List.cons.inj heq
        exact hequals rfl

/-- Only a table is of a system that is not `Pushdownable`. -/
lemma Built.other_iff (h : Lawful sys) (hcheap : CheapJoins sys plan) (hb : Built sys plan node) :
    node.dataSystem = .other ↔ ∃ table, plan = .logicalRelation table .other := by
  constructor
  · intro hs
    obtain ⟨-, nodes, -, hclassified⟩ := hb.classified h hcheap
    rw [hs] at hclassified
    generalize node.dependencies = dependencies at hclassified
    cases hclassified with
    | @table table _ htable => exact ⟨table, htable⟩
  · rintro ⟨table, rfl⟩
    rw [hb.unique (built_table table .other)]
    rfl

lemma exists_nodes {plans : List (LogicalPlan S O)} (h : ∀ c ∈ plans, ∃ m, Built sys c m) :
    ∃ nodes, List.Forall₂ (Built sys) plans nodes := by
  induction plans with
  | nil => exact ⟨[], .nil⟩
  | cons c plans ih =>
    obtain ⟨m, hm⟩ := h c List.mem_cons_self
    obtain ⟨nodes, hnodes⟩ := ih fun c' hc' => h c' (List.mem_cons_of_mem c hc')
    exact ⟨m :: nodes, .cons hm hnodes⟩

/-- The nodes of the children of a union can be compared. -/
lemma comparable_iff {children : List (LogicalPlan S O)} (h : Lawful sys)
    (hcheap : ∀ c ∈ children, CheapJoins sys c)
    (hnodes : List.Forall₂ (Built sys) children nodes) :
    (nodes ≠ [] ∧ ∀ m, m.dataSystem = .other → nodes ≠ [m]) ↔
      children ≠ [] ∧ ∀ table, children ≠ [.logicalRelation table .other] := by
  cases hnodes with
  | nil => simp
  | @cons c m children nodes hb hnodes =>
    have hother := hb.other_iff h (hcheap c List.mem_cons_self)
    cases hnodes with
    | nil =>
      simp only [ne_eq, List.cons_ne_nil, not_false_eq_true, List.cons.injEq, and_true, true_and]
      constructor
      · intro hnone table hc
        exact hnone m (hother.mpr ⟨table, hc⟩) rfl
      · rintro hnone m' hm' rfl
        obtain ⟨table, hc⟩ := hother.mp hm'
        exact hnone table hc
    | cons => simp

/-- A tree is built where all unions have something to compare. -/
lemma exists_built_iff (h : Lawful sys) (hcheap : CheapJoins sys plan) :
    (∃ node, Built sys plan node) ↔ ∀ children, plan.HasNode (.union children) →
      children ≠ [] ∧ ∀ table, children ≠ [.logicalRelation table .other] := by
  induction plan using LogicalPlan.induct with
  | h plan ih =>
    have hunion : ∀ nodes, List.Forall₂ (Built sys) plan.children nodes →
        ((∃ node, treeNode sys plan nodes = .ok node) ↔ ∀ children, plan = .union children →
          children ≠ [] ∧ ∀ table, children ≠ [.logicalRelation table .other]) := by
      intro nodes hnodes
      rw [exists_treeNode_iff hnodes.length_eq.symm]
      refine forall₂_congr fun children hplan => ?_
      subst hplan
      exact comparable_iff h (fun c hc => hcheap.child hc) hnodes
    constructor
    · rintro ⟨node, hb⟩ children hn
      obtain ⟨nodes, hnodes, hnode⟩ := built_iff.mp hb
      rcases hn.cases_head with hplan | ⟨c, hc, hn⟩
      · exact (hunion nodes hnodes).mp ⟨node, hnode⟩ children hplan
      · obtain ⟨m, -, hm⟩ := exists_node hnodes hc
        exact (ih c hc (hcheap.child hc)).mp ⟨m, hm⟩ children hn
    · intro hall
      obtain ⟨nodes, hnodes⟩ := exists_nodes fun c hc =>
        (ih c hc (hcheap.child hc)).mpr fun children hn => hall children (hasNode_child hc hn)
      obtain ⟨node, hnode⟩ := (hunion nodes hnodes).mpr fun children hplan =>
        hall children (hplan ▸ .refl)
      exact ⟨node, built_iff.mpr ⟨nodes, hnodes, hnode⟩⟩

end Build

/-! ### The subtrees are replaced -/

section Replace

variable {sys} {plan newPlan : LogicalPlan S O}

lemma replaced_iff : Replaced sys plan newPlan ↔
    (∃ s, Runs sys s plan ∧ newPlan = .scan s plan) ∨
      ∃ newChildren, (plan.children = [] ∨ ¬Runnable sys plan) ∧
        List.Forall₂ (Replaced sys) plan.children newChildren ∧
          newPlan = plan.withNewChildren newChildren := by
  constructor
  · intro h
    cases h with
    | scan h => exact .inl ⟨_, h, rfl⟩
    | kept h hchildren => exact .inr ⟨_, h, hchildren, rfl⟩
  · rintro (⟨s, h, rfl⟩ | ⟨newChildren, h, hchildren, rfl⟩)
    · exact .scan h
    · exact .kept h hchildren

lemma withNewChildren_injective {l r : List (LogicalPlan S O)}
    (hl : l.length = plan.children.length) (hr : r.length = plan.children.length)
    (h : plan.withNewChildren l = plan.withNewChildren r) : l = r := by
  cases plan with
  | logicalRelation | leafNode | scan =>
    rw [List.eq_nil_of_length_eq_zero hl, List.eq_nil_of_length_eq_zero hr]
  | unaryNode op child =>
    obtain ⟨a, rfl⟩ := List.length_eq_one_iff.mp hl
    obtain ⟨b, rfl⟩ := List.length_eq_one_iff.mp hr
    simpa [withNewChildren] using h
  | join op condition left right =>
    obtain ⟨a, a', rfl⟩ := List.length_eq_two.mp hl
    obtain ⟨b, b', rfl⟩ := List.length_eq_two.mp hr
    simpa [withNewChildren] using h
  | binaryNode op left right =>
    obtain ⟨a, a', rfl⟩ := List.length_eq_two.mp hl
    obtain ⟨b, b', rfl⟩ := List.length_eq_two.mp hr
    simpa [withNewChildren] using h
  | union children => simpa [withNewChildren] using h
  | other op children => simpa [withNewChildren] using h

/-- An operator keeps its kind. -/
lemma withNewChildren_ne_scan {s : S} {t : LogicalPlan S O} {newChildren : List (LogicalPlan S O)}
    (hne : plan.children ≠ []) (hlength : newChildren.length = plan.children.length) :
    plan.withNewChildren newChildren ≠ .scan s t := by
  cases plan with
  | logicalRelation | leafNode | scan => exact absurd rfl hne
  | unaryNode op child =>
    obtain ⟨a, rfl⟩ := List.length_eq_one_iff.mp hlength
    simp [withNewChildren]
  | join op condition left right =>
    obtain ⟨a, a', rfl⟩ := List.length_eq_two.mp hlength
    simp [withNewChildren]
  | binaryNode op left right =>
    obtain ⟨a, a', rfl⟩ := List.length_eq_two.mp hlength
    simp [withNewChildren]
  | union children => simp [withNewChildren]
  | other op children => simp [withNewChildren]

lemma maximalIn_iff {t : LogicalPlan S O} : MaximalIn sys plan t ↔ ¬Runnable sys plan ∧
    ((t ∈ plan.children ∧ Runnable sys t) ∨ ∃ c ∈ plan.children, MaximalIn sys c t) := by
  constructor
  · intro h
    cases h with
    | child hplan hc h => exact ⟨hplan, .inl ⟨hc, h⟩⟩
    | inside hplan hc h => exact ⟨hplan, .inr ⟨_, hc, h⟩⟩
  · rintro ⟨hplan, ⟨hc, h⟩ | ⟨c, hc, h⟩⟩
    · exact .child hplan hc h
    · exact .inside hplan hc h

variable {answering : LogicalPlan S O → Option S}

lemma replace_of_none (h : answering plan = none) :
    replace answering plan = plan.withNewChildren (plan.children.map (replace answering)) := by
  rw [replace, h]
  simp

/-- All maximal subtrees are replaced where there is an answer to each. -/
lemma replaced_replace_iff (plan : LogicalPlan S O)
    (h : ∀ t s, answering t = some s → Runs sys s t) :
    Replaced sys plan (replace answering plan) ↔
      (plan.children ≠ [] → Runnable sys plan → ∃ s, answering plan = some s) ∧
        ∀ t, MaximalIn sys plan t → t.children ≠ [] → ∃ s, answering t = some s := by
  induction plan using LogicalPlan.induct with
  | h plan ih =>
    cases hplan : answering plan with
    | some s =>
      have hruns := h plan s hplan
      rw [replace, hplan]
      refine iff_of_true (.scan hruns) ⟨fun _ _ => ⟨s, rfl⟩, fun t ht => ?_⟩
      exact absurd ⟨s, hruns⟩ (maximalIn_iff.mp ht).1
    | none =>
      rw [replace_of_none hplan]
      by_cases hne : plan.children = []
      · refine iff_of_true (.kept (.inl hne) ?_) ⟨fun hne' => absurd hne hne', fun t ht => ?_⟩
        · rw [hne]
          exact .nil
        · obtain ⟨-, ⟨hc, -⟩ | ⟨c, hc, -⟩⟩ := maximalIn_iff.mp ht
          · rw [hne] at hc
            cases hc
          · rw [hne] at hc
            cases hc
      have hchildren : List.Forall₂ (Replaced sys) plan.children
          (plan.children.map (replace answering)) ↔
            ∀ c ∈ plan.children, Replaced sys c (replace answering c) := by
        rw [List.forall₂_map_right_iff, List.forall₂_same]
      have hreplaced : Replaced sys plan
          (plan.withNewChildren (plan.children.map (replace answering))) ↔
            ¬Runnable sys plan ∧ ∀ c ∈ plan.children, Replaced sys c (replace answering c) := by
        rw [← hchildren, replaced_iff]
        constructor
        · rintro (⟨s, -, hscan⟩ | ⟨newChildren, hrunnable, hnew, heq⟩)
          · exact absurd hscan (withNewChildren_ne_scan hne (by simp))
          · rw [withNewChildren_injective (by simp) hnew.length_eq.symm heq]
            exact ⟨hrunnable.resolve_left hne, hnew⟩
        · rintro ⟨hrunnable, hnew⟩
          exact .inr ⟨_, .inr hrunnable, hnew, rfl⟩
      rw [hreplaced]
      constructor
      · rintro ⟨hrunnable, hall⟩
        refine ⟨fun _ hruns => absurd hruns hrunnable, fun t ht hne' => ?_⟩
        obtain ⟨-, ⟨hc, hruns⟩ | ⟨c, hc, hmax⟩⟩ := maximalIn_iff.mp ht
        · exact ((ih t hc).mp (hall t hc)).1 hne' hruns
        · exact ((ih c hc).mp (hall c hc)).2 t hmax hne'
      · rintro ⟨hroot, hall⟩
        have hrunnable : ¬Runnable sys plan := fun hruns => by
          obtain ⟨s, hs⟩ := hroot hne hruns
          cases hs
        refine ⟨hrunnable, fun c hc => (ih c hc).mpr ⟨fun hne' hruns => ?_, fun t ht => ?_⟩⟩
        · exact hall c (.child hrunnable hc hruns) hne'
        · exact hall t (.inside hrunnable hc ht)

end Replace

/-! ### The search from the root -/

section Apply

variable {sys} {plan t : LogicalPlan S O} {s : S} {node m : MbTreeNode S O}

/-- What is found is the node of its plan. -/
lemma Built.of_reaches (h : Lawful sys) (hcheap : CheapJoins sys plan) (hb : Built sys plan node)
    (hm : Reaches node m) : Built sys m.plan m ∧ CheapJoins sys m.plan := by
  induction hm generalizing plan with
  | cross hm =>
    obtain ⟨c, hc, hb'⟩ := hb.dependency h hcheap (.inl hm)
    rw [(hb'.classified h (hcheap.child hc)).1]
    exact ⟨hb', hcheap.child hc⟩
  | same hk _ ih =>
    obtain ⟨c, hc, hb'⟩ := hb.dependency h hcheap (.inr hk)
    exact ih (hcheap.child hc) hb'

lemma isWorthwhile_of_good (hgood : ∀ s plan, sys.isGoodAt s plan = true)
    (hs : m.dataSystem = .pushdownable s) : m.dataSystem.isWorthwhile sys m.plan = true := by
  rw [hs, DataSystem.isWorthwhile, LogicalPlan.nodes, List.any_cons, hgood, Bool.true_or,
    Bool.or_true]

lemma findReplacePoint_whole (hgood : ∀ s plan, sys.isGoodAt s plan = true) (h : Lawful sys)
    (hcheap : CheapJoins sys plan) (hb : Built sys plan node)
    (hs : node.dataSystem = .pushdownable s) : findReplacePoint sys node = (some node, []) := by
  have hparents : parents [node] = [] := by
    refine List.eq_nil_iff_forall_not_mem.mpr fun m hm => ?_
    obtain ⟨k, hk, hreaches⟩ := mem_parents.mp hm
    obtain rfl := List.mem_singleton.mp hk
    exact (hb.runs h hcheap hs).2.2 m hreaches
  have hspark : node.dataSystem.isSpark = false := by
    rw [hs]
    rfl
  simp [findReplacePoint, hparents, isWorthwhile_of_good hgood hs, hspark]

variable (sys node) in
/-- The nodes whose plans are replaced -/
def points : List (MbTreeNode S O) :=
  (parents [node]).filter fun n => n.dataSystem.isWorthwhile sys n.plan

lemma findReplacePoint_points (hs : ∀ s, node.dataSystem ≠ .pushdownable s) :
    findReplacePoint sys node = (none, points sys node) := by
  rw [findReplacePoint, if_neg, points]
  cases hnode : node.dataSystem with
  | pushdownable s => exact absurd hnode (hs s)
  | spark | other => simp [DataSystem.isSpark, DataSystem.isWorthwhile]

variable [DecidableEq S] [DecidableEq O]

lemma apply_whole (hgood : ∀ s plan, sys.isGoodAt s plan = true) (h : Lawful sys)
    (hcheap : CheapJoins sys plan) (hb : Built sys plan node)
    (hs : node.dataSystem = .pushdownable s) : apply sys plan = .ok (.wholePushdown plan s) := by
  have hpoint := findReplacePoint_whole hgood h hcheap hb hs
  have hplan := (hb.classified h hcheap).1
  rw [Built] at hb
  cases node with
  | mk child dataSystem dependencies =>
    obtain rfl : dataSystem = .pushdownable s := hs
    obtain rfl : child = plan := hplan
    rw [apply, bind_eq_ok]
    refine ⟨_, hb, ?_⟩
    rw [hpoint]

lemma apply_points (h : Lawful sys) (hcheap : CheapJoins sys plan) (hb : Built sys plan node)
    (hs : ∀ s, node.dataSystem ≠ .pushdownable s) :
    apply sys plan = .ok (.plan (replace (answering (points sys node)) plan)) := by
  have hplan := (hb.classified h hcheap).1
  rw [Built] at hb
  rw [apply, bind_eq_ok]
  refine ⟨node, hb, ?_⟩
  rw [findReplacePoint_points hs, hplan]

/-- Each plan that is found is answered to. -/
lemma answering_iff (hgood : ∀ s plan, sys.isGoodAt s plan = true) (h : Lawful sys)
    (hcheap : CheapJoins sys plan) (hb : Built sys plan node) :
    answering (points sys node) t = some s ↔
      ∃ m, Reaches node m ∧ m.plan = t ∧ m.dataSystem = .pushdownable s := by
  have hmem : ∀ m, m ∈ points sys node ↔
      Reaches node m ∧ m.dataSystem.isWorthwhile sys m.plan = true := by
    intro m
    rw [points, List.mem_filter, mem_parents]
    simp
  constructor
  · intro hs
    rw [answering] at hs
    cases hfind : (points sys node).find? fun n => n.plan = t with
    | none => simp [hfind] at hs
    | some m =>
      have hm := (hmem m).mp (List.mem_of_find?_eq_some hfind)
      have ht := List.find?_some hfind
      rw [hfind] at hs
      cases m with
      | mk p dataSystem dependencies =>
        cases dataSystem with
        | pushdownable s' =>
          obtain rfl := Option.some.inj hs
          exact ⟨_, hm.1, by simpa using ht, rfl⟩
        | spark | other => cases hs
  · rintro ⟨m, hm, rfl, hs⟩
    have hpoint := (hmem m).mpr ⟨hm, isWorthwhile_of_good hgood hs⟩
    obtain ⟨m', hfind⟩ : ∃ m', (points sys node).find? (fun n => n.plan = m.plan) = some m' := by
      rw [← Option.isSome_iff_exists, List.find?_isSome]
      exact ⟨m, hpoint, by simp⟩
    have hm' := (hmem m').mp (List.mem_of_find?_eq_some hfind)
    have hplan : m'.plan = m.plan := by simpa using List.find?_some hfind
    have hb' := (hb.of_reaches h hcheap hm'.1).1
    rw [hplan] at hb'
    obtain rfl := hb'.unique (hb.of_reaches h hcheap hm).1
    rw [answering, hfind]
    cases m' with
    | mk p dataSystem dependencies =>
      obtain rfl : dataSystem = .pushdownable s := hs
      rfl

/-- A plan that is replaced can be run by the system that answers. -/
lemma runs_of_answering (hgood : ∀ s plan, sys.isGoodAt s plan = true) (h : Lawful sys)
    (hcheap : CheapJoins sys plan) (hb : Built sys plan node)
    (hs : answering (points sys node) t = some s) :
    Runs sys s t ∧ ∀ n, t.HasNode n → ¬n.IsOther := by
  obtain ⟨m, hm, rfl, hsystem⟩ := (answering_iff hgood h hcheap hb).mp hs
  obtain ⟨hb', hcheap'⟩ := hb.of_reaches h hcheap hm
  obtain ⟨hruns, hnone, -⟩ := hb'.runs h hcheap' hsystem
  exact ⟨hruns, hnone⟩

lemma exists_answering_iff (hgood : ∀ s plan, sys.isGoodAt s plan = true) (h : Lawful sys)
    (hcheap : CheapJoins sys plan) (hother : OthersNotRunnable sys plan)
    (hb : Built sys plan node) :
    (∃ s, answering (points sys node) t = some s) ↔ Found sys plan t := by
  rw [← hb.finds_iff_found h hcheap hother]
  simp only [answering_iff hgood h hcheap hb]
  exact exists_comm

/-- What is promised of a plan that has a tree -/
lemma soundAndMaximal_built (hgood : ∀ s plan, sys.isGoodAt s plan = true) (h : Lawful sys)
    (hcheap : CheapJoins sys plan) (hb : Built sys plan node) :
    SoundAndMaximal sys plan ↔ (∃ s, node.dataSystem = .pushdownable s) ∨
      (plan.children = [] ∨ ¬Runnable sys plan) ∧ ∀ t, MaximalIn sys plan t → t.children ≠ [] →
        ∃ s, answering (points sys node) t = some s := by
  by_cases hs : ∃ s, node.dataSystem = .pushdownable s
  · obtain ⟨s, hs⟩ := hs
    refine iff_of_true ⟨_, apply_whole hgood h hcheap hb hs, rfl, ?_⟩ (.inl ⟨s, hs⟩)
    exact (hb.runs h hcheap hs).1
  have happly := apply_points h hcheap hb fun s hs' => hs ⟨s, hs'⟩
  have hanswering : answering (points sys node) plan = none := by
    refine Option.eq_none_iff_forall_ne_some.mpr fun s hs' => ?_
    obtain ⟨m, hm, hplan, hm'⟩ := (answering_iff hgood h hcheap hb).mp hs'
    have hb' := (hb.of_reaches h hcheap hm).1
    rw [hplan] at hb'
    exact hs ⟨s, hb.unique hb' ▸ hm'⟩
  have hreplaced := replaced_replace_iff plan fun t s hs' =>
    (runs_of_answering (t := t) (s := s) hgood h hcheap hb hs').1
  rw [hanswering] at hreplaced
  constructor
  · rintro ⟨pushed, hpushed, hspec⟩
    obtain rfl := Except.ok.inj (happly.symm.trans hpushed)
    obtain ⟨hroot, hall⟩ := hreplaced.mp hspec
    refine .inr ⟨?_, hall⟩
    by_contra hnot
    obtain ⟨hne, hruns⟩ := not_or.mp hnot
    obtain ⟨s, hs'⟩ := hroot hne (not_not.mp hruns)
    cases hs'
  · rintro (hs' | ⟨hroot, hall⟩)
    · exact absurd hs' hs
    · exact ⟨_, happly, hreplaced.mpr ⟨fun hne hruns => absurd hruns (hroot.resolve_left hne), hall⟩⟩

/-- An operator of another kind that could be run is in no subtree that is given to a system. -/
lemma othersNotRunnable_of (hgood : ∀ s plan, sys.isGoodAt s plan = true) (h : Lawful sys)
    (hcheap : CheapJoins sys plan) (hb : Built sys plan node)
    (hsound : SoundAndMaximal sys plan) : OthersNotRunnable sys plan := by
  intro n hn hother hruns
  have hne : n.children ≠ [] := by
    cases hruns with
    | intro s hruns =>
      cases hruns with
      | table => cases hother
      | operator hne => exact hne
  rcases (soundAndMaximal_built hgood h hcheap hb).mp hsound with ⟨s, hs⟩ | ⟨hroot, hall⟩
  · exact (hb.runs h hcheap hs).2.1 n hn hother
  · rcases runnable_or_maximal hn hruns hne with ⟨hruns', hne'⟩ | ⟨t, ht, hne', hnode⟩
    · exact hroot.elim hne' fun hnot => hnot hruns'
    · obtain ⟨s, hs⟩ := hall t ht hne'
      exact (runs_of_answering hgood h hcheap hb hs).2 n hnode hother

/-- Pushdown gives every maximal subtree to its system, or the whole plan to one, where the search
comes to all of them: a subtree is missed under a join of one system that the system does not
support, and below operators that are neither unary or binary nodes nor unions. -/
theorem soundAndMaximal_iff_findable (hgood : ∀ s plan, sys.isGoodAt s plan = true)
    (h : Lawful sys) (hcheap : CheapJoins sys plan) :
    SoundAndMaximal sys plan ↔ Findable sys plan := by
  constructor
  · intro hsound
    obtain ⟨node, hb⟩ : ∃ node, Built sys plan node := by
      obtain ⟨pushed, hpushed, -⟩ := hsound
      rw [apply, bind_eq_ok] at hpushed
      obtain ⟨node, hnode, -⟩ := hpushed
      exact ⟨node, hnode⟩
    have hother := othersNotRunnable_of hgood h hcheap hb hsound
    refine ⟨(exists_built_iff h hcheap).mp ⟨node, hb⟩, hother, fun t ht hne => ?_⟩
    rw [← exists_answering_iff hgood h hcheap hother hb]
    rcases (soundAndMaximal_built hgood h hcheap hb).mp hsound with hs | ⟨-, hall⟩
    · exact absurd ((hb.runnable_iff h hcheap hother).mpr hs) (maximalIn_iff.mp ht).1
    · exact hall t ht hne
  · rintro ⟨hunion, hother, hfound⟩
    obtain ⟨node, hb⟩ := (exists_built_iff h hcheap).mpr hunion
    rw [soundAndMaximal_built hgood h hcheap hb]
    by_cases hs : ∃ s, node.dataSystem = .pushdownable s
    · exact .inl hs
    · refine .inr ⟨.inr fun hruns => hs ((hb.runnable_iff h hcheap hother).mp hruns), ?_⟩
      intro t ht hne
      exact (exists_answering_iff hgood h hcheap hother hb).mpr (hfound t ht hne)

/-- Two systems that run any operator `true`, and no table with many rows -/
def twoSystems : Systems Bool Bool where
  isSupport _ plan := match plan with
    | .unaryNode op _ | .join op _ _ _ => op
    | _ => false
  isSupportAll _ := false
  isGoodAt _ _ := true
  fastEquals s s' := s == s'
  rowCount _ := some 10

lemma twoSystems_lawful : Lawful twoSystems where
  refl s := beq_self_eq_true s
  symm s s' hs := by
    obtain rfl : s = s' := eq_of_beq hs
    exact hs
  trans s s' s'' hs hs' := by
    obtain rfl : s = s' := eq_of_beq hs
    exact hs'
  support _ _ _ := rfl

theorem soundAndMaximal_iff_findable_twoSystems :
    SoundAndMaximal twoSystems (.union [.unaryNode true (.logicalRelation true (.pushdownable true)),
      .join true none (.logicalRelation true (.pushdownable true))
        (.logicalRelation true (.pushdownable false))]) ↔
    Findable twoSystems (.union [.unaryNode true (.logicalRelation true (.pushdownable true)),
      .join true none (.logicalRelation true (.pushdownable true))
        (.logicalRelation true (.pushdownable false))]) :=
  soundAndMaximal_iff_findable (fun _ _ => rfl) twoSystems_lawful fun _ _ _ _ _ => rfl

end Apply

end Moonbox.Optimizer
