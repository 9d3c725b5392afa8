import Mathlib.Data.List.AList
import Mathlib.Logic.Relation

/-!
# Lineage

`LineageBuilder`, and how `Servicer` goes through the plan of an insert with it. A table and a view
are nodes; an edge leads from what is read to what is made of it.
-/

namespace Moonbox.Interactive

/-! ### Plans -/

/-- A field of a schema, with the simple string of its data type. -/
structure StructField where
  name : String
  dataType : String
  nullable : Bool
  deriving DecidableEq, Repr

structure CatalogTable where
  database : String
  table : String
  isView : Bool
  schema : List StructField
  deriving DecidableEq, Repr

/-- A database and a table or view in it. -/
abbrev TableIdentifier := String × String

def CatalogTable.identifier (t : CatalogTable) : TableIdentifier := (t.database, t.table)

/-- Analysed plans. A leaf other than a `LogicalRelation` may have a table as well. A node has the
plans of the subqueries in its expressions and, for each of its columns, the columns of its inputs
that the expression of the column refers to, each as the input and a place in it. -/
inductive LogicalPlan
  | logicalRelation (catalogTable : Option CatalogTable)
  | leafNode (catalogTable : Option CatalogTable)
  | view (desc : CatalogTable) (child : LogicalPlan)
  | unaryNode (outputs : List (List (Nat × Nat))) (subqueries : List LogicalPlan)
    (child : LogicalPlan)
  | binaryNode (outputs : List (List (Nat × Nat))) (subqueries : List LogicalPlan)
    (left right : LogicalPlan)
  | otherNode (outputs : List (List (Nat × Nat))) (subqueries : List LogicalPlan)
    (children : List LogicalPlan)

/-! ### `LineageBuilder` -/

structure TableColumn where
  col : String
  type : String
  nullable : Bool
  deriving DecidableEq, Repr

structure DagNode where
  id : Nat
  database : String
  table : String
  type : String
  col : Option String := none
  desc : String
  cols : Option (List TableColumn) := none
  deriving DecidableEq, Repr

structure DagEdge where
  source : Nat
  target : Nat
  deriving DecidableEq, Repr

structure DagEntity where
  nodes : List DagNode
  edges : List DagEdge
  deriving DecidableEq, Repr

structure SqlDag where
  dagTable : DagEntity
  dagCol : DagEntity
  deriving DecidableEq, Repr

structure LineageBuilder where
  id : Nat := 0
  tableNodeBuffer : List DagNode := []
  tableNodeMap : AList fun _ : String => Nat := ∅
  tableNodeEdgeMap : AList fun _ : Nat => Nat := ∅

def tableName (database table : String) : String := database ++ "." ++ table

/-- The key of a table in the map of the nodes. -/
def TableIdentifier.key (x : TableIdentifier) : String := tableName x.1 x.2

def DagNode.identifier (n : DagNode) : TableIdentifier := (n.database, n.table)

namespace LineageBuilder

def schemaToNodeColumns (structType : List StructField) : List TableColumn :=
  structType.map fun structField =>
    { col := structField.name, type := structField.dataType, nullable := structField.nullable }

def getTableType (isView : Bool) : String := if isView then "VIEW" else "TABLE"

def tableNode (id : Nat) (t : CatalogTable) : DagNode where
  id := id
  database := t.database
  table := t.table
  type := getTableType t.isView
  desc := ""
  cols := some (schemaToNodeColumns t.schema)

def appendNode (b : LineageBuilder) (t : CatalogTable) : LineageBuilder :=
  { b with
    id := b.id + 1
    tableNodeMap := b.tableNodeMap.insert t.identifier.key (b.id + 1)
    tableNodeBuffer := b.tableNodeBuffer ++ [tableNode (b.id + 1) t] }

def genTableNode (b : LineageBuilder) (t : CatalogTable) : Nat × LineageBuilder :=
  match b.tableNodeMap.lookup t.identifier.key with
  | some id => (id, b)
  | none => (b.id + 1, b.appendNode t)

def genTableNodeEdges (b : LineageBuilder) : List DagEdge :=
  b.tableNodeEdgeMap.entries.map fun entry => ⟨entry.1, entry.2⟩

def buildTableDag (b : LineageBuilder) : DagEntity := ⟨b.tableNodeBuffer, b.genTableNodeEdges⟩

/-- A source that has an edge already gets no other. -/
def putTableNodeEdge (b : LineageBuilder) (sourceId targetId : Nat) : LineageBuilder :=
  if (b.tableNodeEdgeMap.lookup sourceId).isSome then b
  else { b with tableNodeEdgeMap := b.tableNodeEdgeMap.insert sourceId targetId }

end LineageBuilder

/-! ### `Servicer` -/

def noneGet : String := "java.util.NoSuchElementException: None.get"

/-- Nodes of other arities than one and two, and leaves that are no `LogicalRelation`, are left as
they are. -/
def genDag (targetTableNodeId : Nat) : LogicalPlan → LineageBuilder → Except String LineageBuilder
  | .logicalRelation (some catalogTable), b =>
    let (sourceTableNodeId, b) := b.genTableNode catalogTable
    .ok (b.putTableNodeEdge sourceTableNodeId targetTableNodeId)
  | .logicalRelation none, _ => .error noneGet
  | .view desc child, b =>
    let (viewTableNodeId, b) := b.genTableNode desc
    genDag viewTableNodeId child (b.putTableNodeEdge viewTableNodeId targetTableNodeId)
  | .unaryNode _ _ child, b => genDag targetTableNodeId child b
  | .binaryNode _ _ left right, b => do
    let b ← genDag targetTableNodeId left b
    genDag targetTableNodeId right b
  | .leafNode _, b => .ok b
  | .otherNode _ _ _, b => .ok b

/-- What the parser and the analyser make of a text. -/
inductive ParsedPlan
  | insertIntoDataSource (catalogTable : Option CatalogTable) (query : LogicalPlan)
  | insertIntoHadoopFs (catalogTable : Option CatalogTable) (query : LogicalPlan)
  | otherInsert
  | other

def insertDag (catalogTable : Option CatalogTable) (query : LogicalPlan) : Except String SqlDag :=
  match catalogTable with
  | some catalogTable => do
    let (targetTableNodeId, b) := LineageBuilder.genTableNode {} catalogTable
    let b ← genDag targetTableNodeId query b
    pure ⟨b.buildTableDag, ⟨[], []⟩⟩
  | none => .error noneGet

def sqlDag : ParsedPlan → Except String SqlDag
  | .insertIntoDataSource catalogTable query => insertDag catalogTable query
  | .insertIntoHadoopFs catalogTable query => insertDag catalogTable query
  | .otherInsert => .error "Lineage analysis is not supported for this sql"
  | .other => .error "Lineage analysis is not supported for this sql"

/-- The table that a text inserts into, and the query it inserts. -/
def ParsedPlan.insert? : ParsedPlan → Option (CatalogTable × LogicalPlan)
  | .insertIntoDataSource catalogTable query => catalogTable.map fun t => (t, query)
  | .insertIntoHadoopFs catalogTable query => catalogTable.map fun t => (t, query)
  | _ => none

/-! ### Dependence -/

namespace LogicalPlan

/-- What a plan takes its rows from. A view is a table to what reads it. -/
def inputs : LogicalPlan → List LogicalPlan
  | .unaryNode _ subqueries child => child :: subqueries
  | .binaryNode _ subqueries left right => left :: right :: subqueries
  | .otherNode _ subqueries children => children ++ subqueries
  | _ => []

def outputs : LogicalPlan → List (List (Nat × Nat))
  | .unaryNode outputs _ _ => outputs
  | .binaryNode outputs _ _ _ => outputs
  | .otherNode outputs _ _ => outputs
  | _ => []

/-- The table or view of a plan that takes its rows from nothing else. -/
def source : LogicalPlan → Option CatalogTable
  | .logicalRelation catalogTable => catalogTable
  | .leafNode catalogTable => catalogTable
  | .view desc _ => some desc
  | _ => none

inductive Reads : LogicalPlan → TableIdentifier → Prop
  | source {p t} (ht : p.source = some t) : Reads p t.identifier
  | input {p c s} (hc : c ∈ p.inputs) (h : Reads c s) : Reads p s

/-- A column of a plan depends on a column of a table or view. -/
inductive ReadsColumn : LogicalPlan → Nat → TableIdentifier × String → Prop
  | source {p t i f} (ht : p.source = some t) (hf : t.schema[i]? = some f) :
    ReadsColumn p i (t.identifier, f.name)
  | input {p i refs k j c s} (hrefs : p.outputs[i]? = some refs) (href : (k, j) ∈ refs)
    (hc : p.inputs[k]? = some c) (h : ReadsColumn c j s) : ReadsColumn p i s

/-- The plan is part of another, outside of the views of that. -/
def Contains : LogicalPlan → LogicalPlan → Prop :=
  Relation.ReflTransGen fun p c => c ∈ p.inputs

/-- The tables and views that are made by an insert of the query, each with its plan. -/
inductive Defines (target : CatalogTable) (query : LogicalPlan) : CatalogTable → LogicalPlan → Prop
  | insert : Defines target query target query
  | view {t p desc child} (h : Defines target query t p) (hview : p.Contains (.view desc child)) :
    Defines target query desc child

def DependsOn (target : CatalogTable) (query : LogicalPlan) (s t : TableIdentifier) : Prop :=
  ∃ t' p, Defines target query t' p ∧ t'.identifier = t ∧ p.Reads s

def ColumnDependsOn (target : CatalogTable) (query : LogicalPlan)
    (s t : TableIdentifier × String) : Prop :=
  ∃ t' p, Defines target query t' p ∧ t'.identifier = t.1 ∧ ∃ (i : Nat) (field : StructField),
    t'.schema[i]? = some field ∧ field.name = t.2 ∧ p.ReadsColumn i s

end LogicalPlan

def DagEntity.HasEdge (dag : DagEntity) (s t : TableIdentifier) : Prop :=
  ∃ n ∈ dag.nodes, ∃ m ∈ dag.nodes, n.identifier = s ∧ m.identifier = t ∧
    ⟨n.id, m.id⟩ ∈ dag.edges

def DagEntity.HasColumnEdge (dag : DagEntity) (s t : TableIdentifier × String) : Prop :=
  ∃ n ∈ dag.nodes, ∃ m ∈ dag.nodes, (n.identifier, n.col) = (s.1, some s.2) ∧
    (m.identifier, m.col) = (t.1, some t.2) ∧ ⟨n.id, m.id⟩ ∈ dag.edges

/-- The edges are the dependences. -/
structure SqlDag.IsExact (dag : SqlDag) (target : CatalogTable) (query : LogicalPlan) : Prop where
  tables : ∀ s t, dag.dagTable.HasEdge s t ↔ LogicalPlan.DependsOn target query s t
  columns : ∀ s t, dag.dagCol.HasColumnEdge s t ↔ LogicalPlan.ColumnDependsOn target query s t

/-! ### What is gone through -/

namespace LogicalPlan

/-- The edges that `genDag` asks for, in their order. -/
def pairs (target : TableIdentifier) : LogicalPlan → List (TableIdentifier × TableIdentifier)
  | .logicalRelation (some s) => [(s.identifier, target)]
  | .view desc child => (desc.identifier, target) :: pairs desc.identifier child
  | .unaryNode _ _ child => pairs target child
  | .binaryNode _ _ left right => pairs target left ++ pairs target right
  | _ => []

/-- No table or view is read where `genDag` does not look: in a subquery, under a node that has
neither one child nor two, or by a leaf that is no `LogicalRelation`. -/
def NothingMissed : LogicalPlan → Prop
  | .logicalRelation _ => True
  | .leafNode catalogTable => catalogTable = none
  | .view _ child => child.NothingMissed
  | .unaryNode _ subqueries child => (∀ q ∈ subqueries, ∀ s, ¬q.Reads s) ∧ child.NothingMissed
  | .binaryNode _ subqueries left right =>
    (∀ q ∈ subqueries, ∀ s, ¬q.Reads s) ∧ left.NothingMissed ∧ right.NothingMissed
  | .otherNode _ subqueries children => ∀ q ∈ children ++ subqueries, ∀ s, ¬q.Reads s

variable {target desc : CatalogTable} {query p c child : LogicalPlan} {s u : TableIdentifier}
  {t : CatalogTable}

lemma Contains.reads (h : p.Contains c) (hc : c.Reads s) : p.Reads s := by
  induction h using Relation.ReflTransGen.head_induction_on with
  | refl => exact hc
  | head hin _ ih => exact .input hin ih

/-- What is defined by an input of the query is defined by the query, but for the target itself. -/
lemma Defines.of_input (hin : c ∈ query.inputs) (h : Defines target c t p) :
    t = target ∧ p = c ∨ Defines target query t p := by
  induction h with
  | insert => exact Or.inl ⟨rfl, rfl⟩
  | view _ hview ih =>
    rcases ih with ⟨rfl, rfl⟩ | ih
    · exact Or.inr (.view .insert (.head hin hview))
    · exact Or.inr (.view ih hview)

lemma Defines.of_view (h : Defines desc child t p) : Defines target (.view desc child) t p := by
  induction h with
  | insert => exact .view .insert .refl
  | view _ hview ih => exact .view ih hview

lemma DependsOn.of_input (hin : c ∈ query.inputs) (h : DependsOn target c s u) :
    DependsOn target query s u := by
  obtain ⟨t, p, hdef, ht, hreads⟩ := h
  rcases hdef.of_input hin with ⟨rfl, rfl⟩ | hdef
  · exact ⟨t, query, .insert, ht, .input hin hreads⟩
  · exact ⟨t, p, hdef, ht, hreads⟩

/-- What is defined is the target or is read for something. -/
lemma DependsOn.target_named (h : DependsOn target query s u) :
    u = target.identifier ∨ ∃ x, DependsOn target query u x := by
  obtain ⟨t', p, hdef, rfl, _⟩ := h
  cases hdef with
  | insert => exact Or.inl rfl
  | view hdef hview =>
    exact Or.inr ⟨_, _, _, hdef, rfl, Contains.reads hview (.source rfl)⟩

/-- Every edge that is asked for is a dependence. -/
lemma dependsOn_of_mem_pairs (target : CatalogTable) :
    ∀ query : LogicalPlan, (s, u) ∈ query.pairs target.identifier → DependsOn target query s u
  | .logicalRelation (some r), h => by
    cases List.mem_singleton.mp h
    exact ⟨target, _, .insert, rfl, .source rfl⟩
  | .logicalRelation none, h => absurd h List.not_mem_nil
  | .leafNode _, h => absurd h List.not_mem_nil
  | .otherNode _ _ _, h => absurd h List.not_mem_nil
  | .view desc child, h => by
    rcases List.mem_cons.mp h with h | h
    · cases h
      exact ⟨target, _, .insert, rfl, .source rfl⟩
    · obtain ⟨t, p, hdef, ht, hreads⟩ := dependsOn_of_mem_pairs desc child h
      exact ⟨t, p, hdef.of_view, ht, hreads⟩
  | .unaryNode _ _ child, h =>
    (dependsOn_of_mem_pairs target child h).of_input List.mem_cons_self
  | .binaryNode _ _ left right, h => by
    rcases List.mem_append.mp h with h | h
    · exact (dependsOn_of_mem_pairs target left h).of_input List.mem_cons_self
    · exact (dependsOn_of_mem_pairs target right h).of_input
        (List.mem_cons_of_mem _ List.mem_cons_self)

/-- Where nothing is missed what a plan reads is asked for. -/
lemma mem_pairs_of_reads (h : p.Reads s) (hp : p.NothingMissed) : (s, u) ∈ p.pairs u := by
  induction h with
  | @source p t ht =>
    cases p with
    | logicalRelation catalogTable =>
      cases ht
      exact List.mem_singleton.mpr rfl
    | leafNode catalogTable => exact absurd (ht.symm.trans hp) (Option.some_ne_none _)
    | view desc child =>
      cases ht
      exact List.mem_cons_self
    | _ => cases ht
  | @input p c s hc hreads ih =>
    cases p with
    | unaryNode outputs subqueries child =>
      rcases List.mem_cons.mp hc with rfl | hc
      · exact ih hp.2
      · exact absurd hreads (hp.1 _ hc s)
    | binaryNode outputs subqueries left right =>
      rcases List.mem_cons.mp hc with rfl | hc
      · exact List.mem_append_left _ (ih hp.2.1)
      · rcases List.mem_cons.mp hc with rfl | hc
        · exact List.mem_append_right _ (ih hp.2.2)
        · exact absurd hreads (hp.1 _ hc s)
    | otherNode outputs subqueries children => exact absurd hreads (hp _ hc s)
    | _ => cases hc

/-- Where nothing is missed the views of a plan are gone through. -/
lemma pairs_view_subset (h : p.Contains (.view desc child)) (hp : p.NothingMissed) :
    child.NothingMissed ∧ child.pairs desc.identifier ⊆ p.pairs u := by
  induction h using Relation.ReflTransGen.head_induction_on with
  | refl => exact ⟨hp, List.subset_cons_self _ _⟩
  | @head p c hc hview ih =>
    have hreads : c.Reads desc.identifier := Contains.reads hview (.source rfl)
    cases p with
    | unaryNode outputs subqueries child' =>
      rcases List.mem_cons.mp hc with rfl | hc
      · exact ih hp.2
      · exact absurd hreads (hp.1 _ hc _)
    | binaryNode outputs subqueries left right =>
      rcases List.mem_cons.mp hc with rfl | hc
      · exact ⟨(ih hp.2.1).1, List.Subset.trans (ih hp.2.1).2 (List.subset_append_left _ _)⟩
      · rcases List.mem_cons.mp hc with rfl | hc
        · exact ⟨(ih hp.2.2).1, List.Subset.trans (ih hp.2.2).2 (List.subset_append_right _ _)⟩
        · exact absurd hreads (hp.1 _ hc _)
    | otherNode outputs subqueries children => exact absurd hreads (hp _ hc _)
    | _ => cases hc

lemma Defines.pairs_subset (hquery : query.NothingMissed) (h : Defines target query t p) :
    p.NothingMissed ∧ p.pairs t.identifier ⊆ query.pairs target.identifier := by
  induction h with
  | insert => exact ⟨hquery, List.Subset.refl _⟩
  | view _ hview ih =>
    obtain ⟨hchild, hsubset⟩ := pairs_view_subset hview ih.1
    exact ⟨hchild, List.Subset.trans hsubset ih.2⟩

lemma mem_pairs_of_dependsOn (hquery : query.NothingMissed) (h : DependsOn target query s u) :
    (s, u) ∈ query.pairs target.identifier := by
  obtain ⟨t, p, hdef, rfl, hreads⟩ := h
  obtain ⟨hp, hsubset⟩ := hdef.pairs_subset hquery
  exact hsubset (mem_pairs_of_reads hreads hp)

end LogicalPlan

/-! ### What is built -/

namespace LineageBuilder

/-- The nodes are known by their ids and by their names. -/
structure Nodes (allowed : TableIdentifier → Prop) (b : LineageBuilder) : Prop where
  nodes : ∀ key i, b.tableNodeMap.lookup key = some i ↔
    ∃ n ∈ b.tableNodeBuffer, n.id = i ∧ n.identifier.key = key
  le : ∀ n ∈ b.tableNodeBuffer, n.id ≤ b.id
  unique : ∀ n ∈ b.tableNodeBuffer, ∀ m ∈ b.tableNodeBuffer, n.id = m.id → n = m
  named : ∀ n ∈ b.tableNodeBuffer, allowed n.identifier

/-- The tables that are inserted into or asked for as sources. -/
def Named (root : TableIdentifier) (asked : List (TableIdentifier × TableIdentifier))
    (x : TableIdentifier) : Prop := x = root ∨ ∃ y ∈ asked, x = y.1

/-- The edges are those that were asked for, but for one source only the first. -/
structure Built (root : TableIdentifier) (asked : List (TableIdentifier × TableIdentifier))
    (b : LineageBuilder) : Prop extends b.Nodes (Named root asked) where
  edges : ∀ i j, b.tableNodeEdgeMap.lookup i = some j → ∃ x ∈ asked,
    b.tableNodeMap.lookup x.1.key = some i ∧ b.tableNodeMap.lookup x.2.key = some j
  covered : ∀ x ∈ asked, ∃ i j, b.tableNodeMap.lookup x.1.key = some i ∧
    b.tableNodeEdgeMap.lookup i = some j

/-- Nodes are kept. -/
def Extends (b b' : LineageBuilder) : Prop :=
  ∀ key i, b.tableNodeMap.lookup key = some i → b'.tableNodeMap.lookup key = some i

variable {root u : TableIdentifier} {asked : List (TableIdentifier × TableIdentifier)}
  {allowed allowed' : TableIdentifier → Prop} {b b' : LineageBuilder} {t : CatalogTable}
  {target : Nat}

lemma Nodes.mono (h : b.Nodes allowed) (himp : ∀ x, allowed x → allowed' x) : b.Nodes allowed' :=
  ⟨h.nodes, h.le, h.unique, fun n hn => himp _ (h.named n hn)⟩

/-- A node is there for the table, or is made with the next id. -/
lemma genTableNode_cases (b : LineageBuilder) (t : CatalogTable) :
    (∃ i, b.tableNodeMap.lookup t.identifier.key = some i ∧ b.genTableNode t = (i, b)) ∨
      b.tableNodeMap.lookup t.identifier.key = none ∧
        b.genTableNode t = (b.id + 1, b.appendNode t) := by
  cases h : b.tableNodeMap.lookup t.identifier.key with
  | some i => exact Or.inl ⟨i, rfl, by simp only [genTableNode, h]⟩
  | none => exact Or.inr ⟨rfl, by simp only [genTableNode, h]⟩

lemma lookup_genTableNode :
    (b.genTableNode t).2.tableNodeMap.lookup t.identifier.key = some (b.genTableNode t).1 := by
  rcases genTableNode_cases b t with ⟨i, hi, heq⟩ | ⟨_, heq⟩
  · rw [heq]
    exact hi
  · rw [heq]
    exact AList.lookup_insert _

lemma extends_genTableNode : b.Extends (b.genTableNode t).2 := by
  intro key i hi
  rcases genTableNode_cases b t with ⟨_, _, heq⟩ | ⟨hnone, heq⟩
  · rw [heq]
    exact hi
  · rw [heq, appendNode, AList.lookup_insert_ne]
    · exact hi
    · rintro rfl
      rw [hnone] at hi
      cases hi

lemma tableNodeEdgeMap_genTableNode :
    (b.genTableNode t).2.tableNodeEdgeMap = b.tableNodeEdgeMap := by
  rcases genTableNode_cases b t with ⟨_, _, heq⟩ | ⟨_, heq⟩
  · rw [heq]
  · rw [heq]
    rfl

lemma Nodes.genTableNode (h : b.Nodes allowed) (ht : allowed t.identifier) :
    (b.genTableNode t).2.Nodes allowed := by
  rcases genTableNode_cases b t with ⟨_, _, heq⟩ | ⟨hnone, heq⟩
  · rw [heq]
    exact h
  · rw [heq]
    have hnew : ∀ n ∈ b.tableNodeBuffer, n.id ≠ b.id + 1 := fun n hn hid => by
      have hle := h.le n hn
      omega
    refine ⟨fun key i => ?_, fun n hn => ?_, fun n hn m hm hid => ?_, fun n hn => ?_⟩
    · simp only [appendNode, List.mem_append, List.mem_singleton, or_and_right, exists_or,
        exists_eq_left, ← h.nodes]
      show (b.tableNodeMap.insert t.identifier.key (b.id + 1)).lookup key = some i ↔
        _ ∨ b.id + 1 = i ∧ t.identifier.key = key
      by_cases hkey : key = t.identifier.key
      · subst hkey
        rw [AList.lookup_insert, hnone]
        simp
      · rw [AList.lookup_insert_ne hkey]
        simp [Ne.symm hkey]
    · rcases List.mem_append.mp hn with hn | hn
      · exact Nat.le_succ_of_le (h.le n hn)
      · rw [List.mem_singleton.mp hn]
        exact Nat.le_refl _
    · rcases List.mem_append.mp hn with hn | hn
      · rcases List.mem_append.mp hm with hm | hm
        · exact h.unique n hn m hm hid
        · rw [List.mem_singleton.mp hm] at hid
          exact absurd hid (hnew n hn)
      · rcases List.mem_append.mp hm with hm | hm
        · rw [List.mem_singleton.mp hn] at hid
          exact absurd hid.symm (hnew m hm)
        · rw [List.mem_singleton.mp hn, List.mem_singleton.mp hm]
    · rcases List.mem_append.mp hn with hn | hn
      · exact h.named n hn
      · rw [List.mem_singleton.mp hn]
        exact ht

lemma Nodes.putTableNodeEdge (h : b.Nodes allowed) (i j : Nat) :
    (b.putTableNodeEdge i j).Nodes allowed := by
  unfold LineageBuilder.putTableNodeEdge
  split_ifs
  · exact h
  · exact ⟨h.nodes, h.le, h.unique, h.named⟩

lemma tableNodeMap_putTableNodeEdge {i j : Nat} :
    (b.putTableNodeEdge i j).tableNodeMap = b.tableNodeMap := by
  unfold putTableNodeEdge
  split_ifs <;> rfl

/-- The first edge of a source stays. -/
lemma lookup_putTableNodeEdge {i j k : Nat} :
    (b.putTableNodeEdge i j).tableNodeEdgeMap.lookup k =
      if k = i ∧ b.tableNodeEdgeMap.lookup i = none then some j
      else b.tableNodeEdgeMap.lookup k := by
  unfold putTableNodeEdge
  cases h : b.tableNodeEdgeMap.lookup i with
  | some j' => simp
  | none =>
    by_cases hk : k = i
    · subst hk
      simp
    · simp [hk]

/-- An edge from a table: its node is made if it is not there. -/
lemma Built.addEdge (h : b.Built root asked) (hu : b.tableNodeMap.lookup u.key = some target) :
    ((b.genTableNode t).2.putTableNodeEdge (b.genTableNode t).1 target).Built root
      (asked ++ [(t.identifier, u)]) := by
  have hnodes : b.Nodes (Named root (asked ++ [(t.identifier, u)])) :=
    h.toNodes.mono fun x hx => hx.imp_right fun ⟨y, hy, hxy⟩ => ⟨y, List.mem_append_left _ hy, hxy⟩
  have hnamed : Named root (asked ++ [(t.identifier, u)]) t.identifier :=
    Or.inr ⟨_, List.mem_append_right _ (List.mem_singleton.mpr rfl), rfl⟩
  refine ⟨(hnodes.genTableNode hnamed).putTableNodeEdge _ _, fun i j hij => ?_, fun x hx => ?_⟩
  · rw [tableNodeMap_putTableNodeEdge]
    rw [lookup_putTableNodeEdge, tableNodeEdgeMap_genTableNode] at hij
    split_ifs at hij with hfirst
    · cases hij
      rw [hfirst.1]
      exact ⟨_, List.mem_append_right _ (List.mem_singleton.mpr rfl), lookup_genTableNode,
        extends_genTableNode _ _ hu⟩
    · obtain ⟨x, hx, hi, hj⟩ := h.edges i j hij
      exact ⟨x, List.mem_append_left _ hx, extends_genTableNode _ _ hi,
        extends_genTableNode _ _ hj⟩
  · rw [tableNodeMap_putTableNodeEdge]
    simp only [lookup_putTableNodeEdge, tableNodeEdgeMap_genTableNode]
    rcases List.mem_append.mp hx with hx | hx
    · obtain ⟨i, j, hi, hij⟩ := h.covered x hx
      refine ⟨i, j, extends_genTableNode _ _ hi, ?_⟩
      rw [if_neg, hij]
      rintro ⟨rfl, hnone⟩
      rw [hij] at hnone
      cases hnone
    · rw [List.mem_singleton.mp hx]
      cases hedge : b.tableNodeEdgeMap.lookup (b.genTableNode t).1 with
      | some j => exact ⟨_, j, lookup_genTableNode, by simp [hedge]⟩
      | none => exact ⟨_, target, lookup_genTableNode, by simp⟩

/-- Going through a plan asks for its edges, one after the other. -/
lemma Built.genDag : ∀ (p : LogicalPlan) {b b' : LineageBuilder}
    {asked : List (TableIdentifier × TableIdentifier)} {u : TableIdentifier} {target : Nat},
    b.Built root asked → b.tableNodeMap.lookup u.key = some target →
      Interactive.genDag target p b = .ok b' → b'.Built root (asked ++ p.pairs u) ∧ b.Extends b'
  | .logicalRelation (some t), b, b', asked, u, target, h, hu, hb' => by
    cases hb'
    refine ⟨h.addEdge hu, fun key i hi => ?_⟩
    rw [tableNodeMap_putTableNodeEdge]
    exact extends_genTableNode _ _ hi
  | .logicalRelation none, _, _, _, _, _, _, _, hb' => by cases hb'
  | .leafNode _, b, b', asked, u, target, h, hu, hb' => by
    cases hb'
    refine ⟨?_, fun _ _ hi => hi⟩
    show b.Built root (asked ++ [])
    rwa [List.append_nil]
  | .otherNode _ _ _, b, b', asked, u, target, h, hu, hb' => by
    cases hb'
    refine ⟨?_, fun _ _ hi => hi⟩
    show b.Built root (asked ++ [])
    rwa [List.append_nil]
  | .view desc child, b, b', asked, u, target, h, hu, hb' => by
    have hdesc : ((b.genTableNode desc).2.putTableNodeEdge (b.genTableNode desc).1
        target).tableNodeMap.lookup desc.identifier.key = some (b.genTableNode desc).1 := by
      rw [tableNodeMap_putTableNodeEdge]
      exact lookup_genTableNode
    obtain ⟨hbuilt, hextends⟩ := Built.genDag child (h.addEdge hu) hdesc hb'
    refine ⟨?_, fun key i hi => hextends key i ?_⟩
    · rw [LogicalPlan.pairs, ← List.singleton_append, ← List.append_assoc]
      exact hbuilt
    · rw [tableNodeMap_putTableNodeEdge]
      exact extends_genTableNode _ _ hi
  | .unaryNode _ _ child, b, b', asked, u, target, h, hu, hb' => Built.genDag child h hu hb'
  | .binaryNode _ _ left right, b, b', asked, u, target, h, hu, hb' => by
    rw [Interactive.genDag] at hb'
    cases hleft : Interactive.genDag target left b with
    | error e =>
      rw [hleft] at hb'
      cases hb'
    | ok b₁ =>
      rw [hleft] at hb'
      obtain ⟨hbuilt, hextends⟩ := Built.genDag left h hu hleft
      obtain ⟨hbuilt', hextends'⟩ := Built.genDag right hbuilt (hextends _ _ hu) hb'
      refine ⟨?_, fun key i hi => hextends' key i (hextends key i hi)⟩
      rw [LogicalPlan.pairs, ← List.append_assoc]
      exact hbuilt'

/-- The table that is inserted into is the first node. -/
lemma built_root (t : CatalogTable) :
    (LineageBuilder.genTableNode {} t).2.Built t.identifier [] := by
  have hnodes : Nodes (Named t.identifier []) {} :=
    ⟨by simp [AList.lookup_empty], by simp, by simp, by simp⟩
  refine ⟨hnodes.genTableNode (Or.inl rfl), ?_, by simp⟩
  intro i j hij
  rw [tableNodeEdgeMap_genTableNode] at hij
  cases hij

end LineageBuilder

/-! ### The DAG -/

section Dag

open LineageBuilder LogicalPlan

variable {plan : ParsedPlan} {target : CatalogTable} {query : LogicalPlan} {dag : SqlDag}
  {b : LineageBuilder} {s t : TableIdentifier}

/-- No two of the tables that the insert is about have one name with a dot in it. -/
def KeysDistinct (target : CatalogTable) (query : LogicalPlan) : Prop :=
  ∀ x y, (x = target.identifier ∨ ∃ t, DependsOn target query x t) →
    (y = target.identifier ∨ ∃ t, DependsOn target query y t) → x.key = y.key → x = y

/-- A table or view is read for one table or view only. -/
def SingleTarget (target : CatalogTable) (query : LogicalPlan) : Prop :=
  ∀ s t t', DependsOn target query s t → DependsOn target query s t' → t = t'

lemma ParsedPlan.built_of_sqlDag (hplan : plan.insert? = some (target, query))
    (hdag : sqlDag plan = .ok dag) :
    ∃ b : LineageBuilder, b.Built target.identifier (query.pairs target.identifier) ∧
      dag = ⟨b.buildTableDag, ⟨[], []⟩⟩ := by
  have hinsert : insertDag (some target) query = .ok dag := by
    cases plan with
    | insertIntoDataSource catalogTable query' =>
      obtain ⟨_, hsome, heq⟩ := Option.map_eq_some_iff.mp hplan
      cases heq
      rwa [← hsome]
    | insertIntoHadoopFs catalogTable query' =>
      obtain ⟨_, hsome, heq⟩ := Option.map_eq_some_iff.mp hplan
      cases heq
      rwa [← hsome]
    | otherInsert => cases hplan
    | other => cases hplan
  rw [insertDag] at hinsert
  cases hquery : genDag (genTableNode {} target).1 query (genTableNode {} target).2 with
  | error e =>
    simp only [hquery] at hinsert
    cases hinsert
  | ok b =>
    simp only [hquery] at hinsert
    cases hinsert
    exact ⟨b, (Built.genDag query (built_root target) lookup_genTableNode hquery).1, rfl⟩

lemma LineageBuilder.hasEdge_iff : b.buildTableDag.HasEdge s t ↔ ∃ n ∈ b.tableNodeBuffer,
    ∃ m ∈ b.tableNodeBuffer, n.identifier = s ∧ m.identifier = t ∧
      b.tableNodeEdgeMap.lookup n.id = some m.id := by
  have hedge : ∀ i j, (⟨i, j⟩ : DagEdge) ∈ b.buildTableDag.edges ↔
      b.tableNodeEdgeMap.lookup i = some j := by
    intro i j
    rw [← Option.mem_def, AList.mem_lookup_iff]
    simp only [buildTableDag, genTableNodeEdges, List.mem_map, DagEdge.mk.injEq]
    constructor
    · rintro ⟨⟨_, _⟩, he, rfl, rfl⟩
      exact he
    · exact fun he => ⟨_, he, rfl, rfl⟩
  simp only [DagEntity.HasEdge, hedge]
  rfl

section Built

variable (hbuilt : b.Built target.identifier (query.pairs target.identifier))
  (hkeys : KeysDistinct target query)

include hbuilt hkeys

/-- The node under the name of a table that the insert is about is the node of that table. -/
lemma LineageBuilder.Built.node {x : TableIdentifier} {i : Nat}
    (hx : x = target.identifier ∨ ∃ t, DependsOn target query x t)
    (hi : b.tableNodeMap.lookup x.key = some i) {n : DagNode} (hn : n ∈ b.tableNodeBuffer)
    (hid : n.id = i) : n.identifier = x := by
  obtain ⟨m, hm, rfl, hkey⟩ := (hbuilt.nodes _ _).mp hi
  obtain rfl := hbuilt.unique n hn m hm hid
  refine hkeys _ _ ?_ hx hkey
  refine (hbuilt.named n hn).imp_right fun ⟨y, hy, heq⟩ => ⟨y.2, ?_⟩
  rw [heq]
  exact dependsOn_of_mem_pairs target query hy

lemma LineageBuilder.Built.dependsOn (h : b.buildTableDag.HasEdge s t) :
    DependsOn target query s t := by
  obtain ⟨n, hn, m, hm, rfl, rfl, hedge⟩ := hasEdge_iff.mp h
  obtain ⟨⟨x, y⟩, hmem, hx, hy⟩ := hbuilt.edges _ _ hedge
  have hdep := dependsOn_of_mem_pairs target query hmem
  rw [hbuilt.node hkeys (Or.inr ⟨_, hdep⟩) hx hn rfl, hbuilt.node hkeys (DependsOn.target_named hdep) hy hm rfl]
  exact hdep

lemma LineageBuilder.Built.hasEdge (hquery : query.NothingMissed)
    (hsingle : SingleTarget target query) (h : DependsOn target query s t) :
    b.buildTableDag.HasEdge s t := by
  obtain ⟨i, j, hi, hedge⟩ := hbuilt.covered _ (mem_pairs_of_dependsOn hquery h)
  obtain ⟨⟨x, y⟩, hmem, hx, hy⟩ := hbuilt.edges _ _ hedge
  have hdep := dependsOn_of_mem_pairs target query hmem
  obtain ⟨n, hn, hni, _⟩ := (hbuilt.nodes _ _).mp hx
  obtain ⟨m, hm, hmj, _⟩ := (hbuilt.nodes _ _).mp hy
  have hs : s = x := by
    rw [← hbuilt.node hkeys (Or.inr ⟨_, h⟩) hi hn hni]
    exact hbuilt.node hkeys (Or.inr ⟨_, hdep⟩) hx hn hni
  subst hs
  have ht := hsingle _ _ _ h hdep
  subst ht
  refine hasEdge_iff.mpr ⟨n, hn, m, hm, hbuilt.node hkeys (Or.inr ⟨_, h⟩) hi hn hni,
    hbuilt.node hkeys (DependsOn.target_named h) hy hm hmj, ?_⟩
  rw [hni, hmj]
  exact hedge

end Built

/-- Every edge between tables is a dependence, and every dependence has its edge where nothing is
missed and no table is read for two. Columns have no edges. -/
theorem lineage_exact (hplan : plan.insert? = some (target, query))
    (hdag : sqlDag plan = .ok dag) (hkeys : KeysDistinct target query) :
    (∀ s t, dag.dagTable.HasEdge s t → DependsOn target query s t) ∧
      (query.NothingMissed → SingleTarget target query → ∀ s t, DependsOn target query s t →
        dag.dagTable.HasEdge s t) ∧
      dag.dagCol = ⟨[], []⟩ := by
  obtain ⟨b, hbuilt, rfl⟩ := plan.built_of_sqlDag hplan hdag
  exact ⟨fun s t h => hbuilt.dependsOn hkeys h,
    fun hquery hsingle s t h => hbuilt.hasEdge hkeys hquery hsingle h, rfl⟩

/-- A table of one column. -/
def oneColumn (table : String) : CatalogTable where
  database := "d"
  table := table
  isView := false
  schema := [⟨"c", "int", true⟩]

def relationS : LogicalPlan := .logicalRelation (some (oneColumn "s"))

/-- `INSERT INTO t SELECT * FROM s`. -/
def insertFromS : ParsedPlan := .insertIntoDataSource (some (oneColumn "t")) relationS

theorem lineage_exact_insertFromS : ∃ dag, sqlDag insertFromS = .ok dag ∧
    dag.dagTable.HasEdge ("d", "s") ("d", "t") := by
  obtain ⟨dag, hdag⟩ : ∃ dag, sqlDag insertFromS = .ok dag := ⟨_, rfl⟩
  have hinsert : insertFromS.insert? = some (oneColumn "t", relationS) := rfl
  have hmissed : relationS.NothingMissed := trivial
  have hpairs : ∀ x y, DependsOn (oneColumn "t") relationS x y →
      (x, y) = (("d", "s"), ("d", "t")) :=
    fun x y h => List.mem_singleton.mp (mem_pairs_of_dependsOn hmissed h)
  have hnamed : ∀ x, (x = (oneColumn "t").identifier ∨
      ∃ y, DependsOn (oneColumn "t") relationS x y) → x = ("d", "t") ∨ x = ("d", "s") :=
    fun x hx => hx.imp_right fun ⟨y, h⟩ => congrArg Prod.fst (hpairs x y h)
  have hkeys : KeysDistinct (oneColumn "t") relationS := by
    intro x y hx hy
    rcases hnamed x hx with rfl | rfl <;> rcases hnamed y hy with rfl | rfl <;> decide
  have hsingle : SingleTarget (oneColumn "t") relationS :=
    fun s t t' h h' => (congrArg Prod.snd (hpairs s t h)).trans
      (congrArg Prod.snd (hpairs s t' h')).symm
  obtain ⟨_, hall, _⟩ := lineage_exact hinsert hdag hkeys
  exact ⟨dag, hdag, hall hmissed hsingle _ _ ⟨_, _, .insert, rfl, .source (t := oneColumn "s") rfl⟩⟩

/-- The column `c` of `t` depends on that of `s`, and no edge says so. -/
theorem lineage_exact_fails :
    ¬∀ plan target query dag, ParsedPlan.insert? plan = some (target, query) →
      sqlDag plan = .ok dag → dag.IsExact target query := by
  intro h
  have hcolumns := (h insertFromS _ _ _ rfl rfl).columns (("d", "s"), "c") (("d", "t"), "c")
  obtain ⟨n, hn, _⟩ := hcolumns.mpr ⟨oneColumn "t", relationS, .insert, rfl, 0, ⟨"c", "int", true⟩,
    rfl, rfl, .source (t := oneColumn "s") (f := ⟨"c", "int", true⟩) rfl rfl⟩
  exact absurd hn List.not_mem_nil

end Dag

end Moonbox.Interactive
