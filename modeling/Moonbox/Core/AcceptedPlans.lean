import Moonbox.Core.OpenSessions
import Moonbox.Lib.ActionEnds
import Moonbox.Lib.Views

/-!
# The plans that `PrivilegeAnalysis` lets through

Which plans these are, by the tables of the catalog: of the database, the table and each column of
a relation one asks whether the user may read it. Lookups that find nothing refuse a plan as well,
and some of them are not made when an earlier answer has decided.
-/

namespace Moonbox.Core

open Catalog Relational

/-! ### What the traversal reaches -/

/-- The operators that the traversal comes to. It goes neither below a view nor into the plan of a
subquery. -/
inductive LogicalPlan.Visits : LogicalPlan → LogicalPlan → Prop
  | root (p : LogicalPlan) : Visits p p
  | query {command : InsertCommand} {table : Option TableIdentifier} {p q : LogicalPlan} :
      command ≠ .insertIntoDataSourceCommand → Visits p q → Visits (.insert command table p) q
  | child {expressions : List Expression} {output : List Attribute} {children : List LogicalPlan}
      {p q : LogicalPlan} :
      p ∈ children → Visits p q → Visits (.node expressions output children) q

/-- An expression refers to an attribute. To those of its own plan a subquery does not. -/
inductive Expression.Mentions : Expression → Attribute → Prop
  | attribute (a : Attribute) : Mentions (.attribute a) a
  | child {children : List Expression} {e : Expression} {a : Attribute} :
      e ∈ children → Mentions e a → Mentions (.node children) a
  | outer {children : List Expression} {plan : LogicalPlan} {e : Expression} {a : Attribute} :
      e ∈ children → Mentions e a → containsAttribute plan.output a = false →
      Mentions (.subquery children plan) a

/-- An operator refers to what its expressions do. A leaf refers to nothing. -/
def LogicalPlan.Refers : LogicalPlan → Attribute → Prop
  | .node expressions _ children, a => children ≠ [] ∧ ∃ e ∈ expressions, e.Mentions a
  | _, _ => False

namespace PrivilegeAnalysis

/-- The relation that an operator is. -/
def relationOf (currentDb : String) : LogicalPlan → Option Relation
  | .view desc output _ => some (normalizeIdentifier currentDb desc output)
  | .logicalRelation catalogTable output =>
    catalogTable.map fun table => normalizeIdentifier currentDb table output
  | .catalogRelation tableMeta output => some (normalizeIdentifier currentDb tableMeta output)
  | _ => none

/-! ### What the tables of the catalog say -/

section Store

variable [Names] (s : Store) (catalog : MoonboxCatalog)

/-- The user and the database are found. -/
def HasDatabase (db : String) : Prop :=
  ∃ u d, s.user catalog.userInSession.orgId catalog.getCurrentUser = some u ∧
    s.database catalog.userInSession.orgId db = some d

/-- The table is found, and so is the user who made it. -/
def HasTable (db table : String) : Prop :=
  ∃ d t name, s.database catalog.userInSession.orgId db = some d ∧ s.table d.id table = some t ∧
    creatorName s t.createBy = some name

def Owns (db table : String) : Prop :=
  ∃ d t name, s.database catalog.userInSession.orgId db = some d ∧ s.table d.id table = some t ∧
    creatorName s t.createBy = some name ∧
    Names.toLowerCase name = Names.toLowerCase catalog.getCurrentUser

def OnDatabase (privilege db : String) : Prop :=
  ∃ u d, s.user catalog.userInSession.orgId catalog.getCurrentUser = some u ∧
    s.database catalog.userInSession.orgId db = some d ∧
    ∃ e ∈ (s .databasePrivileges).rows,
      e.userId = u.id ∧ e.databaseId = d.id ∧ e.privilegeType = privilege

def OnTable (privilege db table : String) : Prop :=
  ∃ u d t, s.user catalog.userInSession.orgId catalog.getCurrentUser = some u ∧
    s.database catalog.userInSession.orgId db = some d ∧ s.table d.id table = some t ∧
    ∃ e ∈ (s .tablePrivileges).rows,
      e.userId = u.id ∧ e.databaseId = d.id ∧ e.tableId = t.id ∧ e.privilegeType = privilege

/-- What is looked up for the privileges on a table and on its columns. -/
def HasUserAndTable (db table : String) : Prop :=
  ∃ u d t, s.user catalog.userInSession.orgId catalog.getCurrentUser = some u ∧
    s.database catalog.userInSession.orgId db = some d ∧ s.table d.id table = some t

def OnColumn (privilege db table column : String) : Prop :=
  ∃ u d t, s.user catalog.userInSession.orgId catalog.getCurrentUser = some u ∧
    s.database catalog.userInSession.orgId db = some d ∧ s.table d.id table = some t ∧
    ∃ e ∈ (s .columnPrivileges).rows,
      e.userId = u.id ∧ e.databaseId = d.id ∧ e.tableId = t.id ∧ e.column = column ∧
        e.privilegeType = privilege

/-- Whoever may read the database is not asked for the table. -/
def Found (r : Relation) : Prop :=
  HasDatabase s catalog r.database ∧
    (OnDatabase s catalog SELECT r.database ∨ HasTable s catalog r.database r.table)

def MayReadAll (r : Relation) : Prop :=
  OnDatabase s catalog SELECT r.database ∨ Owns s catalog r.database r.table ∨
    OnTable s catalog SELECT r.database r.table

def MayRead (r : Relation) (column : String) : Prop :=
  MayReadAll s catalog r ∨ OnColumn s catalog SELECT r.database r.table column

/-- The table is always asked for, to see who owns it. -/
def MayInsert (identifier : TableIdentifier) : Prop :=
  let db := identifier.database.getD catalog.currentDb
  HasTable s catalog db identifier.table ∧
    (Owns s catalog db identifier.table ∨ OnDatabase s catalog INSERT db ∨
      OnTable s catalog INSERT db identifier.table)

/-- What `plan` asks for is found and allowed. An attribute that no relation gives is allowed. -/
structure Accepts (plan : LogicalPlan) : Prop where
  insert : ∀ table ∈ insertTable plan, MayInsert s catalog table
  relations : ∀ q r, (queryPlan plan).Visits q → relationOf catalog.currentDb q = some r →
    Found s catalog r
  columns : ∀ q a, (queryPlan plan).Visits q → q.Refers a →
    (∃ p r, (queryPlan plan).Visits p ∧ relationOf catalog.currentDb p = some r ∧
      ∃ b ∈ r.references, b.exprId = a.exprId) →
    ∃ p r, (queryPlan plan).Visits p ∧ relationOf catalog.currentDb p = some r ∧
      ∃ b ∈ r.references, b.exprId = a.exprId ∧ MayRead s catalog r b.name

end Store

/-! ### What is collected -/

section Visits

variable {P : LogicalPlan → Prop}

lemma exists_visits_view {desc : TableIdentifier} {output : List Attribute} {child : LogicalPlan} :
    (∃ q, (LogicalPlan.view desc output child).Visits q ∧ P q) ↔ P (.view desc output child) := by
  constructor
  · rintro ⟨q, ⟨⟩, h⟩
    exact h
  · exact fun h => ⟨_, .root _, h⟩

lemma exists_visits_logicalRelation {table : Option TableIdentifier} {output : List Attribute} :
    (∃ q, (LogicalPlan.logicalRelation table output).Visits q ∧ P q) ↔
      P (.logicalRelation table output) := by
  constructor
  · rintro ⟨q, ⟨⟩, h⟩
    exact h
  · exact fun h => ⟨_, .root _, h⟩

lemma exists_visits_catalogRelation {tableMeta : TableIdentifier} {output : List Attribute} :
    (∃ q, (LogicalPlan.catalogRelation tableMeta output).Visits q ∧ P q) ↔
      P (.catalogRelation tableMeta output) := by
  constructor
  · rintro ⟨q, ⟨⟩, h⟩
    exact h
  · exact fun h => ⟨_, .root _, h⟩

lemma exists_visits_insert {command : InsertCommand} {table : Option TableIdentifier}
    {query : LogicalPlan} :
    (∃ q, (LogicalPlan.insert command table query).Visits q ∧ P q) ↔
      P (.insert command table query) ∨
        command ≠ .insertIntoDataSourceCommand ∧ ∃ q, query.Visits q ∧ P q := by
  constructor
  · rintro ⟨q, hvisits, h⟩
    cases hvisits with
    | root => exact .inl h
    | query hcommand hvisits => exact .inr ⟨hcommand, q, hvisits, h⟩
  · rintro (h | ⟨hcommand, q, hvisits, h⟩)
    · exact ⟨_, .root _, h⟩
    · exact ⟨q, .query hcommand hvisits, h⟩

lemma exists_visits_node {expressions : List Expression} {output : List Attribute}
    {children : List LogicalPlan} :
    (∃ q, (LogicalPlan.node expressions output children).Visits q ∧ P q) ↔
      P (.node expressions output children) ∨ ∃ p ∈ children, ∃ q, p.Visits q ∧ P q := by
  constructor
  · rintro ⟨q, hvisits, h⟩
    cases hvisits with
    | root => exact .inl h
    | child hp hvisits => exact .inr ⟨_, hp, q, hvisits, h⟩
  · rintro (h | ⟨p, hp, q, hvisits, h⟩)
    · exact ⟨_, .root _, h⟩
    · exact ⟨q, .child hp hvisits, h⟩

end Visits

section Collected

variable {currentDb : String} {r : Relation} {a : Attribute}

mutual

lemma mem_tableOrView (plan : LogicalPlan) :
    r ∈ tableOrView currentDb plan ↔ ∃ q, plan.Visits q ∧ relationOf currentDb q = some r := by
  match plan with
  | .view desc output child =>
    rw [exists_visits_view, tableOrView, List.mem_singleton, relationOf, Option.some.injEq, eq_comm]
  | .logicalRelation none output =>
    rw [exists_visits_logicalRelation]
    simp [tableOrView, relationOf]
  | .logicalRelation (some table) output =>
    rw [exists_visits_logicalRelation, tableOrView, List.mem_singleton, relationOf, Option.map_some,
      Option.some.injEq, eq_comm]
  | .catalogRelation tableMeta output =>
    rw [exists_visits_catalogRelation, tableOrView, List.mem_singleton, relationOf,
      Option.some.injEq, eq_comm]
  | .insert .insertIntoDataSourceCommand table query =>
    rw [exists_visits_insert]
    simp [tableOrView, relationOf]
  | .insert .insertIntoHadoopFsRelationCommand table query
  | .insert .insertIntoHiveTable table query =>
    have ih := mem_tableOrView query
    rw [exists_visits_insert, ← ih]
    simp [tableOrView, relationOf]
  | .node expressions output children =>
    rw [exists_visits_node, tableOrView, mem_tableOrViewAll children]
    simp [relationOf]

lemma mem_tableOrViewAll (plans : List LogicalPlan) :
    r ∈ tableOrViewAll currentDb plans ↔
      ∃ p ∈ plans, ∃ q, p.Visits q ∧ relationOf currentDb q = some r := by
  match plans with
  | [] => simp [tableOrViewAll]
  | p :: ps =>
    rw [tableOrViewAll, List.mem_append, mem_tableOrView p, mem_tableOrViewAll ps,
      List.exists_mem_cons_iff]

end

mutual

lemma mem_expressionReferences (e : Expression) : a ∈ e.references ↔ e.Mentions a := by
  match e with
  | .attribute b =>
    rw [Expression.references, List.mem_singleton]
    constructor
    · rintro rfl
      exact .attribute a
    · rintro ⟨⟩
      rfl
  | .node children =>
    rw [Expression.references, mem_referencesAll children]
    constructor
    · rintro ⟨e, he, h⟩
      exact .child he h
    · rintro ⟨⟩
      exact ⟨_, ‹_›, ‹_›⟩
  | .subquery children plan =>
    rw [Expression.references, List.mem_filter, mem_referencesAll children]
    constructor
    · rintro ⟨⟨e, he, h⟩, hfree⟩
      exact .outer he h (by simpa using hfree)
    · intro h
      cases h with
      | outer he h hfree => exact ⟨⟨_, he, h⟩, by simpa using hfree⟩

lemma mem_referencesAll (es : List Expression) :
    a ∈ Expression.referencesAll es ↔ ∃ e ∈ es, e.Mentions a := by
  match es with
  | [] => simp [Expression.referencesAll]
  | e :: es =>
    rw [Expression.referencesAll, List.mem_append, mem_expressionReferences e,
      mem_referencesAll es, List.exists_mem_cons_iff]

end

mutual

lemma mem_references (plan : LogicalPlan) :
    a ∈ references plan ↔ ∃ q, plan.Visits q ∧ q.Refers a := by
  match plan with
  | .view desc output child =>
    rw [exists_visits_view]
    simp [references, LogicalPlan.Refers]
  | .logicalRelation catalogTable output =>
    rw [exists_visits_logicalRelation]
    simp [references, LogicalPlan.Refers]
  | .catalogRelation tableMeta output =>
    rw [exists_visits_catalogRelation]
    simp [references, LogicalPlan.Refers]
  | .insert .insertIntoDataSourceCommand table query =>
    rw [exists_visits_insert]
    simp [references, LogicalPlan.Refers]
  | .insert .insertIntoHadoopFsRelationCommand table query
  | .insert .insertIntoHiveTable table query =>
    have ih := mem_references query
    rw [exists_visits_insert, ← ih]
    simp [references, LogicalPlan.Refers]
  | .node expressions output [] =>
    rw [exists_visits_node]
    simp [references, LogicalPlan.Refers]
  | .node expressions output (p :: ps) =>
    rw [exists_visits_node, ← mem_planReferencesAll (p :: ps)]
    simp [references, LogicalPlan.Refers, mem_referencesAll expressions]

lemma mem_planReferencesAll (plans : List LogicalPlan) :
    a ∈ referencesAll plans ↔ ∃ p ∈ plans, ∃ q, p.Visits q ∧ q.Refers a := by
  match plans with
  | [] => simp [referencesAll]
  | p :: ps =>
    rw [referencesAll, List.mem_append, mem_references p, mem_planReferencesAll ps,
      List.exists_mem_cons_iff]

end

lemma exists_mem_tableOrView {plan : LogicalPlan} {P : Relation → Prop} :
    (∃ r ∈ tableOrView currentDb plan, P r) ↔
      ∃ p r, plan.Visits p ∧ relationOf currentDb p = some r ∧ P r := by
  constructor
  · rintro ⟨r, hr, h⟩
    obtain ⟨p, hvisits, hp⟩ := (mem_tableOrView plan).mp hr
    exact ⟨p, r, hvisits, hp, h⟩
  · rintro ⟨p, r, hvisits, hp, h⟩
    exact ⟨r, (mem_tableOrView plan).mpr ⟨p, hvisits, hp⟩, h⟩

end Collected

/-! ### What is answered -/

section Answered

variable [Names] {s : Store} {catalog : MoonboxCatalog} {db table privilege : String}

lemma gives_isDatabaseGranted :
    (isDatabaseGranted catalog db privilege).Gives s (HasDatabase s catalog db)
      fun b => b = true ↔ OnDatabase s catalog privilege db := by
  simp only [Action.Gives, isDatabaseGranted, JdbcCatalog.getDatabasePrivilege, Action.wp_bind,
    wp_userId, wp_getDatabase, HasDatabase, OnDatabase]
  cases s.user catalog.userInSession.orgId catalog.getCurrentUser with
  | none => simp
  | some u =>
    cases s.database catalog.userInSession.orgId db with
    | none => simp
    | some d => simp [JdbcDao.getDatabasePrivilege, JdbcDao.query, Action.wp_purely, and_assoc]

lemma gives_isOwner :
    (isOwner catalog db table).Gives s (HasTable s catalog db table)
      fun b => b = true ↔ Owns s catalog db table := by
  simp only [Action.Gives, isOwner, JdbcCatalog.getTable, Action.wp_bind, wp_getDatabase, HasTable,
    Owns]
  cases s.database catalog.userInSession.orgId db with
  | none => simp
  | some d =>
    simp only [Action.wp_bind, wp_getTable]
    cases ht : s.table d.id table with
    | none => simp [ht]
    | some t =>
      simp only [Action.wp_bind, wp_userName]
      cases hname : creatorName s t.createBy with
      | none => simp [ht, hname]
      | some name => simp [ht, hname, Action.wp_purely]

lemma gives_isTableGranted :
    (isTableGranted catalog db table privilege).Gives s (HasUserAndTable s catalog db table)
      fun b => b = true ↔ OnTable s catalog privilege db table := by
  simp only [Action.Gives, isTableGranted, JdbcCatalog.getTablePrivilege, Action.wp_bind, wp_userId,
    wp_getDatabase, HasUserAndTable, OnTable]
  cases s.user catalog.userInSession.orgId catalog.getCurrentUser with
  | none => simp
  | some u =>
    cases s.database catalog.userInSession.orgId db with
    | none => simp
    | some d =>
      simp only [Action.wp_bind, wp_getTable]
      cases ht : s.table d.id table with
      | none => simp [ht]
      | some t => simp [ht, JdbcDao.getTablePrivilege, JdbcDao.query, Action.wp_purely, and_assoc]

omit [Names] in
/-- The types under which a column is entered in the map are those of its rows. -/
lemma contains_lookup_column {entities : List ColumnPrivilegeEntity} {column : String} :
    ((((entities.map ColumnPrivilegeEntity.column).eraseDups.map fun column =>
      (column, (entities.filter fun en => en.column == column).map
        ColumnPrivilegeEntity.privilegeType)).lookup column).any
          fun types => types.contains privilege) = true ↔
      ∃ e ∈ entities, e.column = column ∧ e.privilegeType = privilege := by
  by_cases hcolumn : column ∈ (entities.map ColumnPrivilegeEntity.column).eraseDups
  · rw [List.lookup_graph _ hcolumn]
    simp [and_assoc]
  · have hnone : ∀ e ∈ entities, e.column ≠ column := by
      intro e he heq
      exact hcolumn (List.mem_eraseDups.mpr (List.mem_map.mpr ⟨e, he, heq⟩))
    rw [List.lookup_eq_none_iff.mpr]
    · simp only [Option.any_none, Bool.false_eq_true, false_iff]
      rintro ⟨e, he, heq, _⟩
      exact hnone e he heq
    · rintro ⟨k, types⟩ hk
      obtain ⟨k', hk', heq⟩ := List.mem_map.mp hk
      cases heq
      apply bne_iff_ne.mpr
      rintro rfl
      exact hcolumn hk'

lemma gives_getColumnPrivilege (privilege : String) :
    (JdbcCatalog.getColumnPrivilege catalog.getCurrentUser db table catalog.userInSession).Gives s
      (HasUserAndTable s catalog db table)
      fun columnPrivilege => ∀ column,
        ((columnPrivilege.privilege.lookup column).any fun types => types.contains privilege) =
          true ↔ OnColumn s catalog privilege db table column := by
  simp only [Action.Gives, JdbcCatalog.getColumnPrivilege, Action.wp_bind, wp_userId,
    wp_getDatabase, HasUserAndTable, OnColumn]
  cases s.user catalog.userInSession.orgId catalog.getCurrentUser with
  | none => simp
  | some u =>
    cases s.database catalog.userInSession.orgId db with
    | none => simp
    | some d =>
      simp only [Action.wp_bind, wp_getTable]
      cases ht : s.table d.id table with
      | none => simp [ht]
      | some t =>
        simp only [JdbcDao.getColumnPrivilege, JdbcDao.query, Action.wp_bind, Action.wp_query,
          Action.wp_purely]
        refine ⟨⟨⟨u, d, t, rfl, rfl, ht⟩, fun column => ?_⟩, trivial⟩
        rw [contains_lookup_column]
        simp [ht, and_assoc]

/-! ### What is decided -/

section Decided

variable {fa fb P R : Prop}

omit [Names] in
/-- What the second looks up matters only when the first does not hold. -/
lemma gives_orElse {a b : DBIO Bool} (ha : a.Gives s fa fun x => x = true ↔ P)
    (hb : ¬P → b.Gives s fb fun x => x = true ↔ R) :
    (orElse a b).Gives s (fa ∧ (P ∨ fb)) fun x => x = true ↔ P ∨ R := by
  refine ha.bind fun x _ hx => ?_
  cases x with
  | true =>
    have hP : P := hx.mp rfl
    exact (Action.Gives.pure (by simp [hP])).congr (by simp [hP]) fun _ _ => id
  | false =>
    have hP : ¬P := fun h => Bool.false_ne_true (hx.mpr h)
    exact (hb hP).congr (by simp [hP]) fun x _ hx => by simp [hP, hx]

omit [Names] in
/-- What is refused when it does not hold. -/
lemma gives_require {m : DBIO Bool} {e : String} (h : m.Gives s fa fun x => x = true ↔ P) :
    (m >>= fun x => match x with
      | true => pure ()
      | false => Action.throw e : DBIO Unit).Gives s (fa ∧ P) fun _ => True := by
  refine h.bind fun x _ hx => ?_
  cases x with
  | true => exact (Action.Gives.pure trivial).congr (by simp [hx.mp rfl]) fun _ _ => id
  | false =>
    have hP : ¬P := fun h => Bool.false_ne_true (hx.mpr h)
    exact Action.Gives.throw.congr (by simp [hP]) fun _ _ => id

end Decided

lemma Owns.hasTable (h : Owns s catalog db table) : HasTable s catalog db table := by
  obtain ⟨d, t, name, hd, ht, hname, _⟩ := h
  exact ⟨d, t, name, hd, ht, hname⟩

lemma OnDatabase.hasDatabase (h : OnDatabase s catalog privilege db) : HasDatabase s catalog db := by
  obtain ⟨u, d, hu, hd, _⟩ := h
  exact ⟨u, d, hu, hd⟩

lemma OnTable.hasUserAndTable (h : OnTable s catalog privilege db table) :
    HasUserAndTable s catalog db table := by
  obtain ⟨u, d, t, hu, hd, ht, _⟩ := h
  exact ⟨u, d, t, hu, hd, ht⟩

lemma HasUserAndTable.hasDatabase (h : HasUserAndTable s catalog db table) :
    HasDatabase s catalog db := by
  obtain ⟨u, d, t, hu, hd, _⟩ := h
  exact ⟨u, d, hu, hd⟩

lemma HasTable.hasUserAndTable (h : HasTable s catalog db table) (hdb : HasDatabase s catalog db) :
    HasUserAndTable s catalog db table := by
  obtain ⟨d, t, name, hd, ht, _⟩ := h
  obtain ⟨u, _, hu, _⟩ := hdb
  exact ⟨u, d, t, hu, hd, ht⟩

lemma gives_checkInsert (identifier : TableIdentifier) :
    (checkInsert catalog identifier).Gives s (MayInsert s catalog identifier) fun _ => True := by
  let db := identifier.database.getD catalog.currentDb
  let tb := identifier.table
  have hgranted : (orElse (isOwner catalog db tb)
      (orElse (isDatabaseGranted catalog db INSERT) (isTableGranted catalog db tb INSERT))).Gives s
        (HasTable s catalog db tb ∧ (Owns s catalog db tb ∨ HasDatabase s catalog db ∧
          (OnDatabase s catalog INSERT db ∨ HasUserAndTable s catalog db tb)))
        fun x => x = true ↔ Owns s catalog db tb ∨ OnDatabase s catalog INSERT db ∨
          OnTable s catalog INSERT db tb :=
    gives_orElse gives_isOwner fun _ => gives_orElse gives_isDatabaseGranted fun _ =>
      gives_isTableGranted
  refine (gives_require hgranted).congr ?_ fun _ _ => id
  constructor
  · rintro ⟨⟨htable, _⟩, h⟩
    exact ⟨htable, h⟩
  · rintro ⟨htable, h⟩
    refine ⟨⟨htable, ?_⟩, h⟩
    rcases h with h | h | h
    · exact .inl h
    · exact .inr ⟨h.hasDatabase, .inl h⟩
    · exact .inr ⟨h.hasUserAndTable.hasDatabase, .inr h.hasUserAndTable⟩

lemma gives_columns (r : Relation) :
    (do
      let columnPrivilege ← JdbcCatalog.getColumnPrivilege catalog.getCurrentUser r.database r.table
        catalog.userInSession
      pure (r.references.filter fun attr =>
        (columnPrivilege.privilege.lookup attr.name).any fun types => types.contains SELECT) :
      DBIO (List Attribute)).Gives s (HasUserAndTable s catalog r.database r.table)
        fun l => ∀ a, a ∈ l ↔
          a ∈ r.references ∧ OnColumn s catalog SELECT r.database r.table a.name := by
  refine ((gives_getColumnPrivilege SELECT).bind fun p _ hp =>
    Action.Gives.pure fun a => ?_).congr (by simp) fun _ _ => id
  rw [List.mem_filter, hp a.name]

/-- Of a relation whose database has been asked for. -/
lemma gives_available {dbGranted : Bool} {r : Relation} (hdb : HasDatabase s catalog r.database)
    (hgranted : dbGranted = true ↔ OnDatabase s catalog SELECT r.database) :
    (available catalog dbGranted r).Gives s
      (OnDatabase s catalog SELECT r.database ∨ HasTable s catalog r.database r.table)
      fun l => ∀ a, a ∈ l ↔ a ∈ r.references ∧ MayRead s catalog r a.name := by
  have hall : (orElse (pure dbGranted) (orElse (isOwner catalog r.database r.table)
      (isTableGranted catalog r.database r.table SELECT))).Gives s
        (True ∧ (OnDatabase s catalog SELECT r.database ∨ HasTable s catalog r.database r.table ∧
          (Owns s catalog r.database r.table ∨ HasUserAndTable s catalog r.database r.table)))
        fun x => x = true ↔ MayReadAll s catalog r :=
    gives_orElse (Action.Gives.pure hgranted) fun _ => gives_orElse gives_isOwner fun _ =>
      gives_isTableGranted
  have hfound : OnDatabase s catalog SELECT r.database ∨ HasTable s catalog r.database r.table ↔
      (True ∧ (OnDatabase s catalog SELECT r.database ∨ HasTable s catalog r.database r.table ∧
        (Owns s catalog r.database r.table ∨ HasUserAndTable s catalog r.database r.table))) ∧
        (MayReadAll s catalog r ∨ HasUserAndTable s catalog r.database r.table) := by
    constructor
    · rintro (h | h)
      · exact ⟨⟨trivial, .inl h⟩, .inl (.inl h)⟩
      · have htable := h.hasUserAndTable hdb
        exact ⟨⟨trivial, .inr ⟨h, .inr htable⟩⟩, .inr htable⟩
    · rintro ⟨⟨_, h | ⟨h, _⟩⟩, _⟩
      · exact .inl h
      · exact .inr h
  refine (hall.bind fun x _ hx => ?_).congr hfound.symm fun _ _ => id
  cases x with
  | true =>
    have hreads := hx.mp rfl
    refine (Action.Gives.pure fun a => ?_).congr (by simp [hreads]) fun _ _ => id
    simp [MayRead, hreads]
  | false =>
    have hreads : ¬MayReadAll s catalog r := fun h => Bool.false_ne_true (hx.mpr h)
    refine (gives_columns r).congr (by simp [hreads]) fun l _ hl a => ?_
    rw [hl a, MayRead]
    simp [hreads]

/-- The relations of a database that has been asked for. -/
lemma gives_relations {dbGranted : Bool} {relations : List Relation}
    (hdb : HasDatabase s catalog db)
    (hgranted : dbGranted = true ↔ OnDatabase s catalog SELECT db) :
    (do
      let perTable ← Action.mapM (available catalog dbGranted)
        (relations.filter fun r => r.database == db)
      pure perTable.flatten : DBIO (List Attribute)).Gives s
        (∀ r ∈ relations.filter fun r => r.database == db,
          OnDatabase s catalog SELECT r.database ∨ HasTable s catalog r.database r.table)
        fun l => ∀ a, a ∈ l ↔ ∃ r ∈ relations.filter fun r => r.database == db,
          a ∈ r.references ∧ MayRead s catalog r a.name := by
  apply Action.Gives.collect
  intro r hr
  have heq : r.database = db := by simpa using (List.mem_filter.mp hr).2
  rw [← heq] at hdb hgranted
  exact gives_available hdb hgranted

/-- A database is asked for once, then the relations in it. -/
lemma gives_database {relations : List Relation} (hdb : ∃ r ∈ relations, r.database = db) :
    (do
      let dbGranted ← isDatabaseGranted catalog db SELECT
      let perTable ← Action.mapM (available catalog dbGranted)
        (relations.filter fun r => r.database == db)
      pure perTable.flatten : DBIO (List Attribute)).Gives s
        (∀ r ∈ relations, r.database = db → Found s catalog r)
        fun l => ∀ a, a ∈ l ↔ ∃ r ∈ relations, r.database = db ∧ a ∈ r.references ∧
          MayRead s catalog r a.name := by
  refine (gives_isDatabaseGranted.bind fun dbGranted hfound hgranted =>
    gives_relations hfound hgranted).congr ?_ ?_
  · constructor
    · rintro ⟨hdb, h⟩ r hr rfl
      exact ⟨hdb, h r (by simp [hr])⟩
    · intro h
      obtain ⟨r₀, hr₀, rfl⟩ := hdb
      refine ⟨(h r₀ hr₀ rfl).1, fun r hr => ?_⟩
      obtain ⟨hr, heq⟩ := List.mem_filter.mp hr
      exact (h r hr (by simpa using heq)).2
  · intro l _ hl a
    simp only [hl a, List.mem_filter, beq_iff_eq, and_assoc]

lemma gives_availables (relations : List Relation) :
    (availables catalog relations).Gives s (∀ r ∈ relations, Found s catalog r)
      fun l => ∀ a, a ∈ l ↔ ∃ r ∈ relations, a ∈ r.references ∧ MayRead s catalog r a.name := by
  refine (Action.Gives.collect fun db hdb =>
    gives_database (List.mem_map.mp (List.mem_eraseDups.mp hdb))).congr ?_ ?_
  · constructor
    · intro h r hr
      exact h r.database (List.mem_eraseDups.mpr (List.mem_map_of_mem hr)) r hr rfl
    · exact fun h db _ r hr _ => h r hr
  · intro l _ hl a
    rw [hl a]
    constructor
    · rintro ⟨_, _, r, hr, _, h⟩
      exact ⟨r, hr, h⟩
    · rintro ⟨r, hr, h⟩
      exact ⟨_, List.mem_eraseDups.mpr (List.mem_map_of_mem hr), r, hr, rfl, h⟩

omit [Names] in
/-- A reference is missing when a relation gives it and none that may be read does. -/
lemma mem_unavailables {plan : LogicalPlan} {l : List Attribute} {a : Attribute} :
    a ∈ unavailables catalog plan l ↔
      a ∈ references plan ∧
        (∃ r ∈ tableOrView catalog.currentDb plan, ∃ b ∈ r.references, b.exprId = a.exprId) ∧
        ¬∃ b ∈ l, b.exprId = a.exprId := by
  rw [unavailables, List.mem_filter, Bool.and_eq_true, containsAttribute_iff, Bool.not_eq_true',
    ← Bool.not_eq_true, containsAttribute_iff]
  simp only [List.mem_flatMap]
  constructor
  · rintro ⟨ha, ⟨b, ⟨r, hr, hb⟩, heq⟩, hno⟩
    exact ⟨ha, ⟨r, hr, b, hb, heq⟩, hno⟩
  · rintro ⟨ha, ⟨r, hr, b, hb, heq⟩, hno⟩
    exact ⟨ha, ⟨b, ⟨r, hr, hb⟩, heq⟩, hno⟩

/-- What is referred to and is given by a relation is given by one that lets the user read it. -/
def MayReadColumns (s : Store) (catalog : MoonboxCatalog) (plan : LogicalPlan) : Prop :=
  ∀ a ∈ references plan,
    (∃ r ∈ tableOrView catalog.currentDb plan, ∃ b ∈ r.references, b.exprId = a.exprId) →
    ∃ r ∈ tableOrView catalog.currentDb plan, ∃ b ∈ r.references,
      b.exprId = a.exprId ∧ MayRead s catalog r b.name

lemma unavailables_eq_nil_iff {plan : LogicalPlan} {l : List Attribute}
    (hl : ∀ a, a ∈ l ↔ ∃ r ∈ (tableOrView catalog.currentDb plan).eraseDups,
      a ∈ r.references ∧ MayRead s catalog r a.name) :
    unavailables catalog plan l = [] ↔ MayReadColumns s catalog plan := by
  rw [List.eq_nil_iff_forall_not_mem, MayReadColumns]
  apply forall_congr'
  intro a
  rw [mem_unavailables, not_and, not_and, not_not]
  apply imp_congr_right
  intro _
  apply imp_congr_right
  intro _
  constructor
  · rintro ⟨b, hb, heq⟩
    obtain ⟨r, hr, hb, hread⟩ := (hl b).mp hb
    exact ⟨r, List.mem_eraseDups.mp hr, b, hb, heq, hread⟩
  · rintro ⟨r, hr, b, hb, heq, hread⟩
    exact ⟨b, (hl b).mpr ⟨r, List.mem_eraseDups.mpr hr, hb, hread⟩, heq⟩

lemma gives_checkSelect (plan : LogicalPlan) :
    (checkSelect catalog plan).Gives s
      ((∀ r ∈ (tableOrView catalog.currentDb plan).eraseDups, Found s catalog r) ∧
        MayReadColumns s catalog plan) fun _ => True := by
  refine (gives_availables _).bind fun l _ hl => ?_
  have hmissing := unavailables_eq_nil_iff hl
  cases hun : unavailables catalog plan l with
  | nil =>
    exact (Action.Gives.pure trivial).congr (by simp [hmissing.mp hun]) fun _ _ => id
  | cons a as =>
    have hno : ¬MayReadColumns s catalog plan := by
      intro h
      rw [hmissing.mpr h] at hun
      cases hun
    exact Action.Gives.throw.congr (by simp [hno]) fun _ _ => id

lemma gives_apply {plan : LogicalPlan} (hsa : catalog.catalogUser.isSA = false) :
    (apply catalog plan).Gives s
      ((∀ table ∈ insertTable plan, MayInsert s catalog table) ∧
        (∀ r ∈ (tableOrView catalog.currentDb (queryPlan plan)).eraseDups, Found s catalog r) ∧
        MayReadColumns s catalog (queryPlan plan)) fun _ => True := by
  rw [apply, if_neg (by simp [hsa])]
  cases insertTable plan with
  | none =>
    apply (gives_checkSelect (queryPlan plan)).congr _ fun _ _ => id
    simp
  | some table =>
    apply ((gives_checkInsert table).bind fun _ _ _ => gives_checkSelect (queryPlan plan)).congr _
      fun _ _ => id
    simp

lemma accepts_iff {plan : LogicalPlan} :
    Accepts s catalog plan ↔
      (∀ table ∈ insertTable plan, MayInsert s catalog table) ∧
        (∀ r ∈ (tableOrView catalog.currentDb (queryPlan plan)).eraseDups, Found s catalog r) ∧
        MayReadColumns s catalog (queryPlan plan) := by
  constructor
  · rintro ⟨hinsert, hrelations, hcolumns⟩
    refine ⟨hinsert, fun r hr => ?_, fun a ha hgiven => ?_⟩
    · obtain ⟨q, hvisits, hq⟩ := (mem_tableOrView _).mp (List.mem_eraseDups.mp hr)
      exact hrelations q r hvisits hq
    · obtain ⟨q, hvisits, hq⟩ := (mem_references _).mp ha
      rw [exists_mem_tableOrView] at hgiven ⊢
      exact hcolumns q a hvisits hq hgiven
  · rintro ⟨hinsert, hrelations, hcolumns⟩
    refine ⟨hinsert, fun q r hvisits hq => ?_, fun q a hvisits hq hgiven => ?_⟩
    · exact hrelations r (List.mem_eraseDups.mpr ((mem_tableOrView _).mpr ⟨q, hvisits, hq⟩))
    · rw [← exists_mem_tableOrView] at hgiven ⊢
      exact hcolumns a ((mem_references _).mpr ⟨q, hvisits, hq⟩) hgiven

end Answered

variable [Names]

/-- The traversal, the grouping and the order of the lookups come to this: the rule lets a plan
through just when the user is an SA or all that the plan asks for is found and allowed. -/
theorem allows_iff_accepts (s : Store) (catalog : MoonboxCatalog) (plan : LogicalPlan) :
    allows s catalog plan = true ↔
      catalog.catalogUser.isSA = true ∨ Accepts s catalog plan := by
  rw [accepts_iff]
  cases hsa : catalog.catalogUser.isSA with
  | true =>
    rw [allows, apply, if_pos hsa]
    exact ⟨fun _ => .inl rfl, fun _ => rfl⟩
  | false =>
    rw [allows, (gives_apply hsa).succeeds_iff]
    simp

end PrivilegeAnalysis

end Moonbox.Core
