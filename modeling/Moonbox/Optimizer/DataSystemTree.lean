import Moonbox.Lib.Outcomes
import Moonbox.Optimizer.PushedSubtrees

/-!
# The tree of data systems

What a node of the tree says of its plan, and which nodes the search comes to.
-/

namespace Moonbox.Optimizer

open LogicalPlan Outcome

variable {S O : Type}

/-! ### The tree -/

section Tree

variable {sys : Systems S O} {plan c t : LogicalPlan S O} {s s' : S} {node m k : MbTreeNode S O}
  {nodes : List (MbTreeNode S O)}

variable (sys plan node) in
def Built : Prop := buildDataSystemTree sys plan = .ok node

lemma built_iff : Built sys plan node ↔
    ∃ nodes, List.Forall₂ (Built sys) plan.children nodes ∧ treeNode sys plan nodes = .ok node := by
  have hmapM : (plan.children.attach.mapM fun c => buildDataSystemTree sys c.1) =
      plan.children.mapM (buildDataSystemTree sys) := by
    conv_rhs => rw [← List.attach_map_subtype_val plan.children, List.mapM_map]
    rfl
  rw [Built, buildDataSystemTree, hmapM, bind_eq_ok]
  simp only [mapM_eq_ok]
  rfl

variable (sys) in
/-- All nodes are given to the system. -/
def OneSystem (s : S) (nodes : List (MbTreeNode S O)) : Prop :=
  ∀ m ∈ nodes, ∃ s', m.dataSystem = .pushdownable s' ∧ sys.fastEquals s s' = true

variable (sys plan nodes) in
/-- How an operator that is Spark's depends on the nodes of its children -/
inductive Depends : List (MbDependency S O) → Prop
  | other (h : plan.IsOther) : Depends (nodes.map .cross)
  | join (h : plan.IsJoin) (hone : ∃ s, OneSystem sys s nodes) : Depends (nodes.map .same)
  | beside (hother : ¬plan.IsOther) (hjoin : ¬(plan.IsJoin ∧ ∃ s, OneSystem sys s nodes)) :
    Depends (nodes.map MbTreeNode.beside)

variable (sys plan nodes) in
inductive Classified : DataSystem S → List (MbDependency S O) → Prop
  | table {table : O} {dataSystem : DataSystem S}
    (h : plan = .logicalRelation table dataSystem) : Classified dataSystem []
  | runs {s : S} (hne : nodes ≠ []) (hother : ¬plan.IsOther) (hone : OneSystem sys s nodes)
    (hsupport : sys.isSupport s plan = true) : Classified (.pushdownable s) (nodes.map .same)
  | spark {dependencies : List (MbDependency S O)}
    (hnot : ∀ s, nodes ≠ [] → ¬plan.IsOther → OneSystem sys s nodes →
      sys.isSupport s plan = false)
    (hdependencies : Depends sys plan nodes dependencies) : Classified .spark dependencies

lemma beside_spark (h : m.dataSystem = .spark) : m.beside = .same m := by
  rw [MbTreeNode.beside, h]
  rfl

lemma beside_of_ne (h : m.dataSystem ≠ .spark) : m.beside = .cross m := by
  rw [MbTreeNode.beside]
  cases hm : m.dataSystem with
  | spark => exact absurd hm h
  | pushdownable | other => rfl

/-- All of one system, so none of Spark's -/
lemma OneSystem.map_beside (h : OneSystem sys s nodes) :
    nodes.map MbTreeNode.beside = nodes.map .cross := by
  refine List.map_congr_left fun m hm => beside_of_ne ?_
  obtain ⟨s', hs', -⟩ := h m hm
  rw [hs']
  intro heq
  cases heq

/-- Spark's children, and nothing else -/
lemma map_beside_of_spark (h : ∀ m ∈ nodes, m.dataSystem = .spark) :
    nodes.map MbTreeNode.beside = nodes.map .same :=
  List.map_congr_left fun m hm => beside_spark (h m hm)

/-- The same systems have the same nodes. -/
lemma OneSystem.support_eq (h : Lawful sys) (hne : nodes ≠ []) (hone : OneSystem sys s nodes)
    (hone' : OneSystem sys s' nodes) : sys.isSupport s = sys.isSupport s' := by
  obtain ⟨m, hm⟩ := List.exists_mem_of_ne_nil _ hne
  obtain ⟨r, hr, hs⟩ := hone m hm
  obtain ⟨r', hr', hs'⟩ := hone' m hm
  obtain rfl := DataSystem.pushdownable.inj (hr.symm.trans hr')
  exact (h.support _ _ hs).trans (h.support _ _ hs').symm

lemma not_oneSystem_of_mem (hm : m ∈ nodes) (h : ∀ s, m.dataSystem ≠ .pushdownable s) :
    ¬OneSystem sys s nodes := by
  intro hone
  obtain ⟨s', hs', -⟩ := hone m hm
  exact h s' hs'

lemma oneSystem_pair {left right : MbTreeNode S O} {l r : S} (h : Lawful sys)
    (hl : left.dataSystem = .pushdownable l) (hr : right.dataSystem = .pushdownable r)
    (hsame : sys.fastEquals l r = true) : OneSystem sys l [left, right] := by
  intro m hm
  rcases List.mem_pair.mp hm with rfl | rfl
  · exact ⟨l, hl, h.refl l⟩
  · exact ⟨r, hr, hsame⟩

/-- Two nodes that are not of the same system -/
lemma not_oneSystem_pair {left right : MbTreeNode S O} (h : Lawful sys)
    (hne : left.dataSystem.fastEquals sys right.dataSystem = false) :
    ¬OneSystem sys s [left, right] := by
  intro hone
  obtain ⟨l, hl, hsl⟩ := hone left (by simp)
  obtain ⟨r, hr, hsr⟩ := hone right (by simp)
  rw [hl, hr, DataSystem.fastEquals, h.trans _ _ _ (h.symm _ _ hsl) hsr] at hne
  cases hne

lemma fastEquals_eq_true {l r : DataSystem S} (h : l.fastEquals sys r = true) :
    l = .spark ∧ r = .spark ∨
      ∃ a b, l = .pushdownable a ∧ r = .pushdownable b ∧ sys.fastEquals a b = true := by
  cases l <;> cases r <;> simp_all [DataSystem.fastEquals]

/-- A leaf without a table is Spark's. -/
lemma Classified.leaf (hother : ¬plan.IsOther) (hjoin : ¬plan.IsJoin) :
    Classified sys plan [] .spark [] :=
  .spark (fun _ hne => absurd rfl hne) (.beside hother fun h => hjoin h.1)

/-- The children are not all of one system. -/
lemma Classified.mixed (hother : ¬plan.IsOther) (hnone : ∀ s, ¬OneSystem sys s nodes) :
    Classified sys plan nodes .spark (nodes.map MbTreeNode.beside) :=
  .spark (fun s _ _ hone => absurd hone (hnone s))
    (.beside hother fun hjoin => hjoin.2.elim fun s => hnone s)

/-- All of Spark's -/
lemma Classified.ofSpark (hother : ¬plan.IsOther) (hne : nodes ≠ [])
    (hspark : ∀ m ∈ nodes, m.dataSystem = .spark) :
    Classified sys plan nodes .spark (nodes.map .same) := by
  rw [← map_beside_of_spark hspark]
  obtain ⟨m, hm⟩ := List.exists_mem_of_ne_nil _ hne
  refine .mixed hother fun s => not_oneSystem_of_mem hm fun s' hs' => ?_
  rw [hspark m hm] at hs'
  cases hs'

/-- A system does not support the operator above what is all its own. -/
lemma Classified.unsupported (h : Lawful sys) (hother : ¬plan.IsOther) (hjoin : ¬plan.IsJoin)
    (hone : OneSystem sys s nodes) (hsupport : ¬sys.isSupport s plan = true) :
    Classified sys plan nodes .spark (nodes.map .cross) := by
  rw [← hone.map_beside]
  refine .spark (fun s' hne _ hone' => ?_) (.beside hother fun hj => hjoin hj.1)
  rw [hone'.support_eq h hne hone]
  exact Bool.not_eq_true _ ▸ hsupport

lemma Classified.unsupportedJoin (h : Lawful sys) (hjoin : plan.IsJoin)
    (hone : OneSystem sys s nodes) (hsupport : ¬sys.isSupport s plan = true) :
    Classified sys plan nodes .spark (nodes.map .same) := by
  refine .spark (fun s' hne _ hone' => ?_) (.join hjoin ⟨s, hone⟩)
  rw [hone'.support_eq h hne hone]
  exact Bool.not_eq_true _ ▸ hsupport

lemma classified_unaryNode {op : O} {child : LogicalPlan S O} (h : Lawful sys)
    (hnode : treeNode sys (.unaryNode op child) [m] = .ok node) :
    node.plan = .unaryNode op child ∧
      Classified sys (.unaryNode op child) [m] node.dataSystem node.dependencies := by
  rw [treeNode] at hnode
  cases hm : m.dataSystem with
  | spark =>
    rw [hm, DataSystem.isSupport, if_pos rfl] at hnode
    obtain rfl := Except.ok.inj hnode
    exact ⟨rfl, .ofSpark id (by simp) (by simpa using hm)⟩
  | pushdownable s =>
    have hone : OneSystem sys s [m] := by
      intro m' hm'
      obtain rfl := List.mem_singleton.mp hm'
      exact ⟨s, hm, h.refl s⟩
    rw [hm, DataSystem.isSupport] at hnode
    split at hnode
    · obtain rfl := Except.ok.inj hnode
      exact ⟨rfl, .runs (by simp) id hone ‹_›⟩
    · obtain rfl := Except.ok.inj hnode
      exact ⟨rfl, .unsupported h id id hone ‹_›⟩
  | other =>
    have hne : m.dataSystem ≠ .spark := by
      rw [hm]
      intro heq
      cases heq
    rw [hm, DataSystem.isSupport, if_neg Bool.false_ne_true, List.map_singleton,
      ← beside_of_ne hne] at hnode
    obtain rfl := Except.ok.inj hnode
    refine ⟨rfl, .mixed id fun s => not_oneSystem_of_mem (List.mem_singleton_self m) ?_⟩
    intro s' hs'
    rw [hm] at hs'
    cases hs'

lemma classified_join {op : O} {condition : Option JoinCondition} {l r : LogicalPlan S O}
    {left right : MbTreeNode S O} (h : Lawful sys) (hcheap : costUnderExpected sys l r = true)
    (hnode : treeNode sys (.join op condition l r) [left, right] = .ok node) :
    node.plan = .join op condition l r ∧
      Classified sys (.join op condition l r) [left, right] node.dataSystem node.dependencies := by
  rw [treeNode, isCheap, hcheap, Bool.true_or, Bool.and_true] at hnode
  split at hnode
  · rename_i hsame
    rcases fastEquals_eq_true hsame with ⟨hl, hr⟩ | ⟨a, b, ha, hb, hab⟩
    · have hspark : ∀ m ∈ [left, right], m.dataSystem = .spark := by simp [hl, hr]
      rw [hl, DataSystem.isSupport, if_pos rfl] at hnode
      obtain rfl := Except.ok.inj hnode
      exact ⟨rfl, .ofSpark id (by simp) hspark⟩
    · have hone := oneSystem_pair h ha hb hab
      rw [ha, DataSystem.isSupport] at hnode
      split at hnode
      · obtain rfl := Except.ok.inj hnode
        exact ⟨rfl, .runs (by simp) id hone ‹_›⟩
      · obtain rfl := Except.ok.inj hnode
        exact ⟨rfl, .unsupportedJoin h trivial hone ‹_›⟩
  · rename_i hne
    obtain rfl := Except.ok.inj hnode
    exact ⟨rfl, .mixed id fun s => not_oneSystem_pair h (Bool.not_eq_true _ ▸ hne)⟩

lemma classified_binaryNode {op : O} {l r : LogicalPlan S O} {left right : MbTreeNode S O}
    (h : Lawful sys) (hnode : treeNode sys (.binaryNode op l r) [left, right] = .ok node) :
    node.plan = .binaryNode op l r ∧
      Classified sys (.binaryNode op l r) [left, right] node.dataSystem node.dependencies := by
  rw [treeNode] at hnode
  split at hnode
  · rename_i hsame
    rcases fastEquals_eq_true hsame with ⟨hl, hr⟩ | ⟨a, b, ha, hb, hab⟩
    · have hspark : ∀ m ∈ [left, right], m.dataSystem = .spark := by simp [hl, hr]
      rw [hl, DataSystem.isSupport, if_pos rfl] at hnode
      obtain rfl := Except.ok.inj hnode
      exact ⟨rfl, .ofSpark id (by simp) hspark⟩
    · have hone := oneSystem_pair h ha hb hab
      rw [ha, DataSystem.isSupport] at hnode
      split at hnode
      · obtain rfl := Except.ok.inj hnode
        exact ⟨rfl, .runs (by simp) id hone ‹_›⟩
      · obtain rfl := Except.ok.inj hnode
        exact ⟨rfl, .unsupported h id id hone ‹_›⟩
  · rename_i hne
    obtain rfl := Except.ok.inj hnode
    exact ⟨rfl, .mixed id fun s => not_oneSystem_pair h (Bool.not_eq_true _ ▸ hne)⟩

lemma dataSystemEquals_of_oneSystem (h : Lawful sys) {tail : List (MbTreeNode S O)}
    (hone : OneSystem sys s (m :: tail)) : dataSystemEquals sys m tail = true := by
  obtain ⟨a, ha, hsa⟩ := hone m List.mem_cons_self
  refine List.all_eq_true.mpr fun n hn => ?_
  obtain ⟨b, hb, hsb⟩ := hone n (List.mem_cons_of_mem m hn)
  rw [ha, hb]
  exact h.trans _ _ _ (h.symm _ _ hsb) hsa

lemma classified_union {children : List (LogicalPlan S O)} {tail : List (MbTreeNode S O)}
    (h : Lawful sys) (hnode : treeNode sys (.union children) (m :: tail) = .ok node) :
    node.plan = .union children ∧
      Classified sys (.union children) (m :: tail) node.dataSystem node.dependencies := by
  rw [treeNode] at hnode
  split at hnode
  · rename_i hequals
    have hall := List.all_eq_true.mp hequals
    cases hm : m.dataSystem with
    | spark =>
      have hspark : ∀ n ∈ m :: tail, n.dataSystem = .spark := by
        refine List.forall_mem_cons.mpr ⟨hm, fun n hn => ?_⟩
        rcases fastEquals_eq_true (hall n hn) with ⟨hn, -⟩ | ⟨a, b, -, hb, -⟩
        · exact hn
        · rw [hm] at hb
          cases hb
      rw [hm, DataSystem.isPushdownable, if_pos rfl, DataSystem.isSupport, if_pos rfl] at hnode
      obtain rfl := Except.ok.inj hnode
      exact ⟨rfl, .ofSpark id (by simp) hspark⟩
    | pushdownable s =>
      have hone : OneSystem sys s (m :: tail) := by
        refine List.forall_mem_cons.mpr ⟨⟨s, hm, h.refl s⟩, fun n hn => ?_⟩
        rcases fastEquals_eq_true (hall n hn) with ⟨-, hspark⟩ | ⟨a, b, ha, hb, hab⟩
        · rw [hm] at hspark
          cases hspark
        · obtain rfl := DataSystem.pushdownable.inj (hm.symm.trans hb)
          exact ⟨a, ha, h.symm _ _ hab⟩
      rw [hm, DataSystem.isPushdownable, if_pos rfl, DataSystem.isSupport] at hnode
      split at hnode
      · obtain rfl := Except.ok.inj hnode
        exact ⟨rfl, .runs (by simp) id hone ‹_›⟩
      · rw [hone.map_beside] at hnode
        obtain rfl := Except.ok.inj hnode
        exact ⟨rfl, .unsupported h id id hone ‹_›⟩
    | other =>
      rw [hm, DataSystem.isPushdownable, if_neg Bool.false_ne_true] at hnode
      cases hnode
  · rename_i hne
    obtain rfl := Except.ok.inj hnode
    exact ⟨rfl, .mixed id fun s hone => hne (dataSystemEquals_of_oneSystem h hone)⟩

/-- The node of a plan over those of its children -/
lemma classified (h : Lawful sys) (hcheap : CheapJoins sys plan)
    (hlength : nodes.length = plan.children.length)
    (hnode : treeNode sys plan nodes = .ok node) :
    node.plan = plan ∧ Classified sys plan nodes node.dataSystem node.dependencies := by
  cases plan with
  | logicalRelation table dataSystem =>
    obtain rfl := Except.ok.inj hnode
    exact ⟨rfl, .table rfl⟩
  | leafNode op =>
    obtain rfl := List.eq_nil_of_length_eq_zero hlength
    obtain rfl := Except.ok.inj hnode
    exact ⟨rfl, .leaf id id⟩
  | scan s plan =>
    obtain rfl := List.eq_nil_of_length_eq_zero hlength
    obtain rfl := Except.ok.inj hnode
    exact ⟨rfl, .leaf id id⟩
  | unaryNode op child =>
    obtain ⟨m, rfl⟩ := List.length_eq_one_iff.mp hlength
    exact classified_unaryNode h hnode
  | join op condition l r =>
    obtain ⟨left, right, rfl⟩ := List.length_eq_two.mp hlength
    exact classified_join h (hcheap op condition l r .refl) hnode
  | binaryNode op l r =>
    obtain ⟨left, right, rfl⟩ := List.length_eq_two.mp hlength
    exact classified_binaryNode h hnode
  | union children =>
    cases nodes with
    | nil => cases hnode
    | cons m tail => exact classified_union h hnode
  | other op children =>
    obtain rfl := Except.ok.inj hnode
    exact ⟨rfl, .spark (fun _ _ hother => absurd trivial hother) (.other trivial)⟩

lemma Built.classified (hb : Built sys plan node) (h : Lawful sys) (hcheap : CheapJoins sys plan) :
    node.plan = plan ∧ ∃ nodes, List.Forall₂ (Built sys) plan.children nodes ∧
      Classified sys plan nodes node.dataSystem node.dependencies := by
  obtain ⟨nodes, hnodes, hnode⟩ := built_iff.mp hb
  obtain ⟨hplan, hclassified⟩ := Optimizer.classified h hcheap hnodes.length_eq.symm hnode
  exact ⟨hplan, nodes, hnodes, hclassified⟩

lemma Built.unique (hb : Built sys plan node) (hb' : Built sys plan m) : node = m :=
  Except.ok.inj (hb.symm.trans hb')

end Tree

/-! ### The search -/

section Search

variable {sys : Systems S O} {plan c t : LogicalPlan S O} {s s' : S} {node m k : MbTreeNode S O}
  {nodes waiting : List (MbTreeNode S O)} {dependencies : List (MbDependency S O)}

/-- A node that is found from another one -/
inductive Reaches : MbTreeNode S O → MbTreeNode S O → Prop
  | cross {node m : MbTreeNode S O} (h : m ∈ crossNodes node.dependencies) : Reaches node m
  | same {node k m : MbTreeNode S O} (hk : k ∈ sameNodes node.dependencies) (h : Reaches k m) :
    Reaches node m

lemma reaches_iff : Reaches node m ↔
    m ∈ crossNodes node.dependencies ∨ ∃ k ∈ sameNodes node.dependencies, Reaches k m := by
  constructor
  · intro h
    cases h with
    | cross h => exact .inl h
    | same hk h => exact .inr ⟨_, hk, h⟩
  · rintro (h | ⟨k, hk, h⟩)
    · exact .cross h
    · exact .same hk h

lemma mem_parents : m ∈ parents waiting ↔ ∃ node ∈ waiting, Reaches node m := by
  induction waiting using parents.induct with
  | case1 => simp [parents]
  | case2 toVisit waiting ih =>
    rw [parents, List.mem_append, ih]
    simp only [List.mem_append, List.mem_reverse, or_and_right, exists_or, List.mem_cons,
      exists_eq_left, @reaches_iff _ _ toVisit, or_assoc]

@[simp] lemma sameNodes_map_same : sameNodes (nodes.map .same) = nodes := by
  induction nodes with
  | nil => rfl
  | cons m nodes ih => rw [List.map_cons, sameNodes, ih]

@[simp] lemma crossNodes_map_same : crossNodes (nodes.map .same) = [] := by
  induction nodes with
  | nil => rfl
  | cons m nodes ih => rw [List.map_cons, crossNodes, ih]

@[simp] lemma sameNodes_map_cross : sameNodes (nodes.map .cross) = [] := by
  induction nodes with
  | nil => rfl
  | cons m nodes ih => rw [List.map_cons, sameNodes, ih]

@[simp] lemma crossNodes_map_cross : crossNodes (nodes.map .cross) = nodes := by
  induction nodes with
  | nil => rfl
  | cons m nodes ih => rw [List.map_cons, crossNodes, ih]

lemma mem_sameNodes_map_beside :
    m ∈ sameNodes (nodes.map MbTreeNode.beside) ↔ m ∈ nodes ∧ m.dataSystem = .spark := by
  induction nodes with
  | nil => simp [sameNodes]
  | cons k nodes ih =>
    by_cases hk : k.dataSystem = .spark
    · rw [List.map_cons, beside_spark hk, sameNodes, List.mem_cons, ih, List.mem_cons]
      constructor
      · rintro (rfl | ⟨hm, hs⟩)
        · exact ⟨.inl rfl, hk⟩
        · exact ⟨.inr hm, hs⟩
      · rintro ⟨rfl | hm, hs⟩
        · exact .inl rfl
        · exact .inr ⟨hm, hs⟩
    · rw [List.map_cons, beside_of_ne hk, sameNodes, ih, List.mem_cons]
      constructor
      · rintro ⟨hm, hs⟩
        exact ⟨.inr hm, hs⟩
      · rintro ⟨rfl | hm, hs⟩
        · exact absurd hs hk
        · exact ⟨hm, hs⟩

lemma mem_crossNodes_map_beside :
    m ∈ crossNodes (nodes.map MbTreeNode.beside) ↔ m ∈ nodes ∧ m.dataSystem ≠ .spark := by
  induction nodes with
  | nil => simp [crossNodes]
  | cons k nodes ih =>
    by_cases hk : k.dataSystem = .spark
    · rw [List.map_cons, beside_spark hk, crossNodes, ih, List.mem_cons]
      constructor
      · rintro ⟨hm, hs⟩
        exact ⟨.inr hm, hs⟩
      · rintro ⟨rfl | hm, hs⟩
        · exact absurd hk hs
        · exact ⟨hm, hs⟩
    · rw [List.map_cons, beside_of_ne hk, crossNodes, List.mem_cons, ih, List.mem_cons]
      constructor
      · rintro (rfl | ⟨hm, hs⟩)
        · exact ⟨.inl rfl, hk⟩
        · exact ⟨.inr hm, hs⟩
      · rintro ⟨rfl | hm, hs⟩
        · exact .inl rfl
        · exact .inr ⟨hm, hs⟩

/-- A child has a node among those of the children. -/
lemma exists_node (hnodes : List.Forall₂ (Built sys) plan.children nodes)
    (hc : c ∈ plan.children) : ∃ m ∈ nodes, Built sys c m := by
  obtain ⟨i, hi, rfl⟩ := List.mem_iff_getElem.mp hc
  have hi' : i < nodes.length := hnodes.length_eq ▸ hi
  exact ⟨nodes[i], List.getElem_mem hi', List.forall₂_iff_get.mp hnodes |>.2 i hi hi'⟩

lemma exists_child (hnodes : List.Forall₂ (Built sys) plan.children nodes) (hm : m ∈ nodes) :
    ∃ c ∈ plan.children, Built sys c m := by
  obtain ⟨i, hi, rfl⟩ := List.mem_iff_getElem.mp hm
  have hi' : i < plan.children.length := hnodes.length_eq ▸ hi
  exact ⟨plan.children[i], List.getElem_mem hi', List.forall₂_iff_get.mp hnodes |>.2 i hi' hi⟩

lemma built_table (table : O) (dataSystem : DataSystem S) :
    Built sys (.logicalRelation table dataSystem)
      (.mk (.logicalRelation table dataSystem) dataSystem []) :=
  built_iff.mpr ⟨[], .nil, rfl⟩

/-- A node depends on the nodes of its children. -/
lemma Built.dependency (h : Lawful sys) (hcheap : CheapJoins sys plan) (hb : Built sys plan node)
    (hm : m ∈ crossNodes node.dependencies ∨ m ∈ sameNodes node.dependencies) :
    ∃ c ∈ plan.children, Built sys c m := by
  obtain ⟨-, nodes, hnodes, hclassified⟩ := hb.classified h hcheap
  refine exists_child hnodes ?_
  generalize node.dataSystem = dataSystem at hclassified
  generalize node.dependencies = dependencies at hclassified hm
  cases hclassified with
  | table => simp [crossNodes, sameNodes] at hm
  | runs => simpa using hm
  | spark _ hdependencies =>
    cases hdependencies with
    | other => simpa using hm
    | join => simpa using hm
    | beside =>
      rw [mem_crossNodes_map_beside, mem_sameNodes_map_beside] at hm
      exact hm.elim And.left And.left

/-- What a node gives to a system the system can run, and nothing is found from there. -/
lemma Built.runs (h : Lawful sys) (hcheap : CheapJoins sys plan) (hb : Built sys plan node)
    (hs : node.dataSystem = .pushdownable s) :
    Runs sys s plan ∧ (∀ n, plan.HasNode n → ¬n.IsOther) ∧ ∀ m, ¬Reaches node m := by
  induction plan using LogicalPlan.induct generalizing node s with
  | h plan ih =>
    obtain ⟨hplan, nodes, hnodes, hclassified⟩ := hb.classified h hcheap
    generalize hd : node.dependencies = dependencies at hclassified
    rw [hs] at hclassified
    generalize hsystem : DataSystem.pushdownable s = dataSystem at hclassified
    cases hclassified with
    | table htable =>
      subst hsystem htable
      refine ⟨.table (h.refl s), fun n hn => ?_, fun m hm => ?_⟩
      · rcases hn.cases_head with rfl | ⟨c, hc, -⟩
        · exact id
        · cases hc
      · rw [reaches_iff, hd] at hm
        simp [crossNodes, sameNodes] at hm
    | runs hne hother hone hsupport =>
      obtain rfl := DataSystem.pushdownable.inj hsystem
      have hchild : ∀ c ∈ plan.children, ∀ m, Built sys c m → m ∈ nodes → ∃ s',
          sys.fastEquals s s' = true ∧ Runs sys s' c ∧ (∀ n, c.HasNode n → ¬n.IsOther) ∧
            ∀ k, ¬Reaches m k := by
        intro c hc m hm hmem
        obtain ⟨s', hs', hsame⟩ := hone m hmem
        exact ⟨s', hsame, ih c hc (hcheap.child hc) hm hs'⟩
      refine ⟨.operator ?_ hsupport fun c hc => ?_, fun n hn => ?_, fun m hm => ?_⟩
      · intro hnil
        rw [hnil] at hnodes
        cases hnodes
        exact hne rfl
      · obtain ⟨m, hmem, hm⟩ := exists_node hnodes hc
        obtain ⟨s', hsame, hruns, -⟩ := hchild c hc m hm hmem
        exact hruns.congr h (h.symm _ _ hsame)
      · rcases hn.cases_head with rfl | ⟨c, hc, hn⟩
        · exact hother
        · obtain ⟨m, hmem, hm⟩ := exists_node hnodes hc
          obtain ⟨s', -, -, hnone, -⟩ := hchild c hc m hm hmem
          exact hnone n hn
      · rw [reaches_iff, hd] at hm
        simp only [crossNodes_map_same, List.not_mem_nil, sameNodes_map_same, false_or] at hm
        obtain ⟨k, hk, hkm⟩ := hm
        obtain ⟨c, hc, hbuilt⟩ := exists_child hnodes hk
        obtain ⟨s', -, -, -, hnone⟩ := hchild c hc k hbuilt hk
        exact hnone m hkm
    | spark => cases hsystem

/-- What a system can run is given to it. -/
lemma Built.of_runs (h : Lawful sys) (hcheap : CheapJoins sys plan)
    (hother : OthersNotRunnable sys plan) (hb : Built sys plan node)
    (hruns : Runs sys s plan) :
    ∃ s', node.dataSystem = .pushdownable s' ∧ sys.fastEquals s s' = true := by
  induction hruns generalizing node with
  | @table table s' heq =>
    obtain rfl := hb.unique (built_table table (.pushdownable s'))
    exact ⟨s', rfl, heq⟩
  | @operator plan hne hsupport hchildren ih =>
    obtain ⟨hplan, nodes, hnodes, hclassified⟩ := hb.classified h hcheap
    have hone : OneSystem sys s nodes := by
      intro m hm
      obtain ⟨c, hc, hbuilt⟩ := exists_child hnodes hm
      exact ih c hc (hcheap.child hc) (hother.child hc) hbuilt
    have hruns : Runs sys s plan := .operator hne hsupport hchildren
    generalize hs : node.dataSystem = dataSystem at hclassified
    generalize node.dependencies = dependencies at hclassified
    cases hclassified with
    | table htable =>
      subst htable
      exact absurd rfl hne
    | @runs s' =>
      exact ⟨s', rfl, hruns.same h (hb.runs h hcheap hs).1⟩
    | spark hnot =>
      have hnodes' : nodes ≠ [] := by
        rintro rfl
        exact hne (List.forall₂_nil_right_iff.mp hnodes)
      have hplan' : ¬plan.IsOther := fun ho => hother plan .refl ho ⟨s, hruns⟩
      rw [hnot s hnodes' hplan' hone] at hsupport
      cases hsupport

/-- A node is a system's where the plan can be run. -/
lemma Built.runnable_iff (h : Lawful sys) (hcheap : CheapJoins sys plan)
    (hother : OthersNotRunnable sys plan) (hb : Built sys plan node) :
    Runnable sys plan ↔ ∃ s, node.dataSystem = .pushdownable s := by
  constructor
  · rintro ⟨s, hruns⟩
    obtain ⟨s', hs', -⟩ := hb.of_runs h hcheap hother hruns
    exact ⟨s', hs'⟩
  · rintro ⟨s, hs⟩
    exact ⟨s, (hb.runs h hcheap hs).1⟩

lemma Found.not_runnable (hf : Found sys plan t) : ¬Runnable sys plan := by
  cases hf with
  | child hplan => exact hplan
  | inside hplan => exact hplan

/-- The search goes on from `node` to a node of `t` that is a system's. -/
def Finds (node : MbTreeNode S O) (t : LogicalPlan S O) : Prop :=
  ∃ m s, Reaches node m ∧ m.plan = t ∧ m.dataSystem = .pushdownable s

lemma finds_iff : Finds node t ↔
    (∃ m ∈ crossNodes node.dependencies, m.plan = t ∧ ∃ s, m.dataSystem = .pushdownable s) ∨
      ∃ k ∈ sameNodes node.dependencies, Finds k t := by
  constructor
  · rintro ⟨m, s, hm, ht, hs⟩
    rcases reaches_iff.mp hm with hm | ⟨k, hk, hm⟩
    · exact .inl ⟨m, hm, ht, s, hs⟩
    · exact .inr ⟨k, hk, m, s, hm, ht, hs⟩
  · rintro (⟨m, hm, ht, s, hs⟩ | ⟨k, hk, m, s, hm, ht, hs⟩)
    · exact ⟨m, s, .cross hm, ht, hs⟩
    · exact ⟨m, s, .same hk hm, ht, hs⟩

/-- The children that can be run have the nodes of the systems. -/
lemma runnable_child_iff (h : Lawful sys) (hcheap : CheapJoins sys plan)
    (hother : OthersNotRunnable sys plan)
    (hnodes : List.Forall₂ (Built sys) plan.children nodes) :
    (∃ m ∈ nodes, m.plan = t ∧ ∃ s, m.dataSystem = .pushdownable s) ↔
      t ∈ plan.children ∧ Runnable sys t := by
  constructor
  · rintro ⟨m, hm, rfl, hs⟩
    obtain ⟨c, hc, hb⟩ := exists_child hnodes hm
    obtain ⟨rfl, -⟩ := hb.classified h (hcheap.child hc)
    exact ⟨hc, (hb.runnable_iff h (hcheap.child hc) (hother.child hc)).mpr hs⟩
  · rintro ⟨hc, hruns⟩
    obtain ⟨m, hm, hb⟩ := exists_node hnodes hc
    exact ⟨m, hm, (hb.classified h (hcheap.child hc)).1,
      (hb.runnable_iff h (hcheap.child hc) (hother.child hc)).mp hruns⟩

/-- A join is of one system where its children are. -/
lemma joinsOneSystem_iff (h : Lawful sys) (hcheap : CheapJoins sys plan)
    (hother : OthersNotRunnable sys plan)
    (hnodes : List.Forall₂ (Built sys) plan.children nodes) :
    plan.JoinsOneSystem sys ↔ plan.IsJoin ∧ ∃ s, OneSystem sys s nodes := by
  have hone : ∀ s, OneSystem sys s nodes ↔ ∀ c ∈ plan.children, Runs sys s c := by
    refine fun s => ⟨fun hone c hc => ?_, fun hruns m hm => ?_⟩
    · obtain ⟨m, hm, hb⟩ := exists_node hnodes hc
      obtain ⟨s', hs', hsame⟩ := hone m hm
      exact (hb.runs h (hcheap.child hc) hs').1.congr h (h.symm _ _ hsame)
    · obtain ⟨c, hc, hb⟩ := exists_child hnodes hm
      exact hb.of_runs h (hcheap.child hc) (hother.child hc) (hruns c hc)
  simp only [hone]
  cases plan with
  | join op condition left right => simp [JoinsOneSystem, IsJoin, children]
  | logicalRelation | leafNode | unaryNode | binaryNode | union | other | scan =>
    simp [JoinsOneSystem, IsJoin]

/-- Something is found only from the nodes of Spark. -/
lemma Built.spark_of_finds (h : Lawful sys) (hcheap : CheapJoins sys plan)
    (hb : Built sys plan node) (hfinds : Finds node t) : node.dataSystem = .spark := by
  obtain ⟨m, s, hm, -⟩ := hfinds
  obtain ⟨-, nodes, hnodes, hclassified⟩ := hb.classified h hcheap
  rw [reaches_iff] at hm
  cases hs : node.dataSystem with
  | spark => rfl
  | pushdownable s' => exact absurd (reaches_iff.mpr hm) ((hb.runs h hcheap hs).2.2 m)
  | other =>
    rw [hs] at hclassified
    generalize node.dependencies = dependencies at hclassified hm
    cases hclassified with
    | table => simp [crossNodes, sameNodes] at hm

/-- The search finds what it is to find: by the tree, along the dependencies of each node. -/
lemma Built.finds_iff_found (h : Lawful sys) (hcheap : CheapJoins sys plan)
    (hother : OthersNotRunnable sys plan) (hb : Built sys plan node) :
    Finds node t ↔ Found sys plan t := by
  induction plan using LogicalPlan.induct generalizing node with
  | h plan ih =>
    have hrunnable := hb.runnable_iff h hcheap hother
    by_cases hs : ∃ s, node.dataSystem = .pushdownable s
    · refine iff_of_false ?_ fun hf => hf.not_runnable (hrunnable.mpr hs)
      rintro ⟨m, -, hm, -⟩
      exact hs.elim fun s hs => (hb.runs h hcheap hs).2.2 m hm
    have hplan : ¬Runnable sys plan := fun hruns => hs (hrunnable.mp hruns)
    obtain ⟨-, nodes, hnodes, hclassified⟩ := hb.classified h hcheap
    have hchild := runnable_child_iff (t := t) h hcheap hother hnodes
    have hjoins := joinsOneSystem_iff h hcheap hother hnodes
    rw [finds_iff]
    generalize node.dataSystem = dataSystem at hclassified hs
    generalize node.dependencies = dependencies at hclassified
    cases hclassified with
    | table htable =>
      subst htable
      refine iff_of_false (by simp [crossNodes, sameNodes]) fun hf => ?_
      cases hf with
      | child _ _ hc => cases hc
      | inside _ _ hc => cases hc
    | runs => exact absurd ⟨_, rfl⟩ hs
    | spark _ hdependencies =>
      cases hdependencies with
      | other hisOther =>
        simp only [crossNodes_map_cross, hchild, sameNodes_map_cross, List.not_mem_nil, false_and,
          exists_false, or_false]
        constructor
        · rintro ⟨hc, hruns⟩
          refine .child hplan (fun hj => ?_) hc hruns
          cases plan with
          | other => exact hj
          | join => exact hisOther
          | logicalRelation | leafNode | unaryNode | binaryNode | union | scan => exact hj
        · intro hf
          cases hf with
          | child _ _ hc hruns => exact ⟨hc, hruns⟩
          | inside _ hnot => exact absurd hisOther hnot
      | join hisJoin hone =>
        -- Both children are the systems', so that nothing is found from there.
        simp only [crossNodes_map_same, List.not_mem_nil, false_and, exists_false,
          sameNodes_map_same, false_or]
        refine iff_of_false ?_ fun hf => ?_
        · rintro ⟨k, hk, m, -, hm, -⟩
          obtain ⟨s, hone⟩ := hone
          obtain ⟨s', hs', -⟩ := hone k hk
          obtain ⟨c, hc, hb'⟩ := exists_child hnodes hk
          exact (hb'.runs h (hcheap.child hc) hs').2.2 m hm
        · cases hf with
          | child _ hnot => exact hnot (hjoins.mpr ⟨hisJoin, hone⟩)
          | inside _ _ hc hf =>
            obtain ⟨k, hk, hb'⟩ := exists_node hnodes hc
            obtain ⟨s, hone⟩ := hone
            obtain ⟨s', hs', -⟩ := hone k hk
            exact hf.not_runnable ⟨s', (hb'.runs h (hcheap.child hc) hs').1⟩
      | beside hnotOther hnotJoin =>
        simp only [mem_crossNodes_map_beside, mem_sameNodes_map_beside]
        constructor
        · rintro (⟨m, ⟨hm, -⟩, ht⟩ | ⟨k, ⟨hk, -⟩, hf⟩)
          · obtain ⟨hc, hruns⟩ := hchild.mp ⟨m, hm, ht⟩
            exact .child hplan (fun hj => hnotJoin (hjoins.mp hj)) hc hruns
          · obtain ⟨c, hc, hb'⟩ := exists_child hnodes hk
            exact .inside hplan hnotOther hc
              ((ih c hc (hcheap.child hc) (hother.child hc) hb').mp hf)
        · intro hf
          cases hf with
          | child _ _ hc hruns =>
            obtain ⟨m, hm, ht, s, hs'⟩ := hchild.mpr ⟨hc, hruns⟩
            refine .inl ⟨m, ⟨hm, fun hspark => ?_⟩, ht, s, hs'⟩
            rw [hspark] at hs'
            cases hs'
          | @inside _ c _ _ _ hc hf =>
            right
            obtain ⟨k, hk, hb'⟩ := exists_node hnodes hc
            have hfinds := (ih c hc (hcheap.child hc) (hother.child hc) hb').mpr hf
            exact ⟨k, ⟨hk, hb'.spark_of_finds h (hcheap.child hc) hfinds⟩, hfinds⟩

end Search

end Moonbox.Optimizer
