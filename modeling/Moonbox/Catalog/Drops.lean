import Moonbox.Catalog.Uniqueness
import Moonbox.Lib.Runs

/-!
# Drops that do not cascade

A database or an organization is dropped if the listings of what is in it are empty. The listings
join what is there with its creator or its resources.
-/

namespace Moonbox.Catalog

open Relational Actor

namespace Store

structure IsEmptyDatabase (s : Store) (dbId : Nat) : Prop where
  tables : ∀ t ∈ (s .tables).rows, t.databaseId ≠ dbId
  functions : ∀ f ∈ (s .functions).rows, f.databaseId ≠ dbId

/-- The default database, which every organization begins with, does not count. -/
structure IsEmptyOrganization (s : Store) (orgId : Nat) : Prop where
  users : ∀ u ∈ (s .users).rows, u.organizationId ≠ orgId
  groups : ∀ g ∈ (s .groups).rows, g.organizationId ≠ orgId
  procedures : ∀ p ∈ (s .procedures).rows, p.organizationId ≠ orgId
  timedEvents : ∀ e ∈ (s .timedEvents).rows, e.organizationId ≠ orgId
  databases : ∀ d ∈ (s .databases).rows, d.organizationId = orgId →
    d.name = DEFAULT_DATABASE

/-- There is a user with this id. -/
def HasUser (s : Store) (userId : Int) : Prop := ∃ u ∈ (s .users).rows, userId = u.id

/-- A table that has a creator, or a function that has a resource. -/
inductive IsSeenDatabase (s : Store) (dbId : Nat) : Prop
  | table (t) (ht : t ∈ (s .tables).rows) (hdb : t.databaseId = dbId)
    (creator : s.HasUser t.createBy)
  | function (f) (hf : f ∈ (s .functions).rows) (hdb : f.databaseId = dbId)
    (resource : ∃ r ∈ (s .functionResources).rows, f.id = r.funcId)

/-- A timed event or a group, a user or a procedure that has a creator, or a database whose creator
is a user of the organization. -/
inductive IsSeenOrganization (s : Store) (orgId : Nat) : Prop
  | user (u) (hu : u ∈ (s .users).rows) (horg : u.organizationId = orgId)
    (creator : s.HasUser u.createBy)
  | group (g) (hg : g ∈ (s .groups).rows) (horg : g.organizationId = orgId)
  | procedure (p) (hp : p ∈ (s .procedures).rows) (horg : p.organizationId = orgId)
    (creator : s.HasUser p.createBy)
  | timedEvent (e) (he : e ∈ (s .timedEvents).rows) (horg : e.organizationId = orgId)
  | database (d) (hd : d ∈ (s .databases).rows) (horg : d.organizationId = orgId)
    (creator : ∃ u ∈ (s .users).rows, u.organizationId = orgId ∧ d.createBy = u.id)

variable {s : Store} {orgId dbId : Nat}

/-! ### What the listings see -/

lemma listUsers_eq_nil_iff : s.listUsers orgId = [] ↔
    ¬∃ t ∈ (s .users).rows, t.organizationId = orgId ∧ s.HasUser t.createBy := by
  rw [listUsers, innerJoin_eq_nil_iff]
  simp only [beq_iff_eq, HasUser]

lemma listProcedures_eq_nil_iff : s.listProcedures orgId = [] ↔
    ¬∃ t ∈ (s .procedures).rows, t.organizationId = orgId ∧ s.HasUser t.createBy := by
  rw [listProcedures, innerJoin_eq_nil_iff]
  simp only [beq_iff_eq, HasUser]

lemma listDatabases_eq_nil_iff : s.listDatabases orgId = [] ↔
    ¬∃ t ∈ (s .databases).rows, t.organizationId = orgId ∧
      ∃ u ∈ (s .users).rows, u.organizationId = orgId ∧ t.createBy = u.id := by
  rw [listDatabases, innerJoin_eq_nil_iff]
  simp only [beq_iff_eq, Bool.and_eq_true]

lemma listTables_eq_nil_iff : s.listTables dbId = [] ↔
    ¬∃ t ∈ (s .tables).rows, t.databaseId = dbId ∧ s.HasUser t.createBy := by
  rw [listTables, innerJoin_eq_nil_iff]
  simp only [beq_iff_eq, HasUser]

lemma listFunctions_eq_nil_iff : s.listFunctions dbId = [] ↔
    ¬∃ t ∈ (s .functions).rows, t.databaseId = dbId ∧
      ∃ r ∈ (s .functionResources).rows, t.id = r.funcId := by
  rw [listFunctions, innerJoin_eq_nil_iff]
  simp only [beq_iff_eq]

lemma listGroups_eq_nil_iff : s.listGroups orgId = [] ↔
    ¬∃ t ∈ (s .groups).rows, t.organizationId = orgId := by
  simp [listGroups, List.filter_eq_nil_iff]

lemma listTimedEvents_eq_nil_iff : s.listTimedEvents orgId = [] ↔
    ¬∃ t ∈ (s .timedEvents).rows, t.organizationId = orgId := by
  simp [listTimedEvents, List.filter_eq_nil_iff]

/-- The listings of a database are empty when nothing in it is seen. -/
lemma isSeenDatabase_iff : s.IsSeenDatabase dbId ↔
    ¬(s.listTables dbId = [] ∧ s.listFunctions dbId = []) := by
  rw [listTables_eq_nil_iff, listFunctions_eq_nil_iff, not_and_or, not_not, not_not]
  constructor
  · rintro (⟨t, ht, hdb, creator⟩ | ⟨f, hf, hdb, resource⟩)
    · exact Or.inl ⟨t, ht, hdb, creator⟩
    · exact Or.inr ⟨f, hf, hdb, resource⟩
  · rintro (⟨t, ht, hdb, creator⟩ | ⟨f, hf, hdb, resource⟩)
    · exact .table t ht hdb creator
    · exact .function f hf hdb resource

lemma isSeenOrganization_iff : s.IsSeenOrganization orgId ↔
    ¬(s.listDatabases orgId = [] ∧ s.listUsers orgId = [] ∧ s.listTimedEvents orgId = [] ∧
      s.listProcedures orgId = [] ∧ s.listGroups orgId = []) := by
  rw [listDatabases_eq_nil_iff, listUsers_eq_nil_iff, listTimedEvents_eq_nil_iff,
    listProcedures_eq_nil_iff, listGroups_eq_nil_iff]
  constructor
  · rintro hseen ⟨hd, hu, he, hp, hg⟩
    cases hseen with
    | user u hmem horg creator => exact hu ⟨u, hmem, horg, creator⟩
    | group g hmem horg => exact hg ⟨g, hmem, horg⟩
    | procedure p hmem horg creator => exact hp ⟨p, hmem, horg, creator⟩
    | timedEvent e hmem horg => exact he ⟨e, hmem, horg⟩
    | database d hmem horg creator => exact hd ⟨d, hmem, horg, creator⟩
  · intro h
    by_contra hseen
    refine h ⟨?_, ?_, ?_, ?_, ?_⟩
    · exact fun ⟨d, hmem, horg, creator⟩ => hseen (.database d hmem horg creator)
    · exact fun ⟨u, hmem, horg, creator⟩ => hseen (.user u hmem horg creator)
    · exact fun ⟨e, hmem, horg⟩ => hseen (.timedEvent e hmem horg)
    · exact fun ⟨p, hmem, horg, creator⟩ => hseen (.procedure p hmem horg creator)
    · exact fun ⟨g, hmem, horg⟩ => hseen (.group g hmem horg)

lemma IsSeenDatabase.not_empty (h : s.IsSeenDatabase dbId) : ¬s.IsEmptyDatabase dbId := by
  intro hempty
  cases h with
  | table t ht hdb => exact hempty.tables t ht hdb
  | function f hf hdb => exact hempty.functions f hf hdb

/-- A default database that is seen has its creator in the organization. -/
lemma IsSeenOrganization.not_empty (h : s.IsSeenOrganization orgId) :
    ¬s.IsEmptyOrganization orgId := by
  intro hempty
  cases h with
  | user u hu horg => exact hempty.users u hu horg
  | group g hg horg => exact hempty.groups g hg horg
  | procedure p hp horg => exact hempty.procedures p hp horg
  | timedEvent e he horg => exact hempty.timedEvents e he horg
  | database d _ _ creator =>
    obtain ⟨u, hu, horg, _⟩ := creator
    exact hempty.users u hu horg

end Store

variable [Names] {s : Store} {caller : User} {now : Nat}

/-! ### The drops -/

lemma succeeds_dropDatabase {database : String} {ign : Bool} {db : DatabaseEntity}
    (found : s.database caller.orgId (JdbcCatalog.formatDatabaseName database) = some db) :
    (Operation.dropDatabase database ign false).succeeds caller now s = true ↔
      ¬s.IsSeenDatabase db.id := by
  refine Handler.succeeds_iff_of_wp ?_
  show (JdbcCatalog.dropDatabase database ign false caller).wp _ _ s
  simp only [JdbcCatalog.dropDatabase, Action.wp_bind, wp_getDatabase, found]
  simp only [Bool.false_eq_true, if_false, Action.wp_transactionally]
  show (if (s.listTables db.id).isEmpty && (s.listFunctions db.id).isEmpty then
      JdbcDao.deleteDatabase caller.orgId (JdbcCatalog.formatDatabaseName database)
    else .throw _).wp _ _ s
  rw [Store.isSeenDatabase_iff, not_not]
  split_ifs with hempty
  · show _ ∧ _
    simpa only [Bool.and_eq_true, List.isEmpty_iff] using hempty
  · show ¬_
    simpa only [Bool.and_eq_true, List.isEmpty_iff] using hempty

lemma succeeds_dropOrganization {org : String} {ign : Bool} {o : OrganizationEntity}
    (found : s.organization org = some o) :
    (Operation.dropOrganization org ign false).succeeds caller now s = true ↔
      ¬s.IsSeenOrganization o.id := by
  refine Handler.succeeds_iff_of_wp ?_
  show (JdbcCatalog.dropOrganization org ign false).wp _ _ s
  simp only [JdbcCatalog.dropOrganization, Action.wp_bind, wp_getOrganization, found]
  show (if (s.listDatabases o.id).isEmpty && (s.listUsers o.id).isEmpty &&
      (s.listTimedEvents o.id).isEmpty && (s.listProcedures o.id).isEmpty &&
      (s.listGroups o.id).isEmpty then JdbcDao.deleteOrganization org
    else .throw _).wp _ _ s
  rw [Store.isSeenOrganization_iff, not_not]
  split_ifs with hempty
  · show _ ∧ _
    simpa only [Bool.and_eq_true, List.isEmpty_iff, and_assoc] using hempty
  · show ¬_
    simpa only [Bool.and_eq_true, List.isEmpty_iff, and_assoc] using hempty

/-- The operation succeeds exactly if `empty` holds, and otherwise changes nothing. -/
structure RefusedUnless (empty : Prop) (op : Operation) (caller : User) (now : Nat) (s : Store) :
    Prop where
  succeeds_iff : op.succeeds caller now s = true ↔ empty
  unchanged : op.succeeds caller now s = false → op.exec caller now s = s

/-- A drop without cascade is refused exactly if something would be lost. -/
def RefusedExactly (s : Store) (e : User × Nat × Operation) : Prop :=
  match e.2.2 with
  | .dropDatabase database _ false => ∀ db,
    s.database e.1.orgId (JdbcCatalog.formatDatabaseName database) = some db →
    RefusedUnless (s.IsEmptyDatabase db.id) e.2.2 e.1 e.2.1 s
  | .dropOrganization org _ false => ∀ o, s.organization org = some o →
    RefusedUnless (s.IsEmptyOrganization o.id) e.2.2 e.1 e.2.1 s
  | _ => True

/-- Of what is in a database or an organization that is dropped, something is seen. -/
def DropsSeen (s : Store) (e : User × Nat × Operation) : Prop :=
  match e.2.2 with
  | .dropDatabase database _ false => ∀ db,
    s.database e.1.orgId (JdbcCatalog.formatDatabaseName database) = some db →
    s.IsEmptyDatabase db.id ∨ s.IsSeenDatabase db.id
  | .dropOrganization org _ false => ∀ o, s.organization org = some o →
    s.IsEmptyOrganization o.id ∨ s.IsSeenOrganization o.id
  | _ => True

/-- An operation that succeeds unless something is seen. -/
lemma refusedUnless_iff {op : Operation} {empty seen : Prop}
    (hseen : op.succeeds caller now s = true ↔ ¬seen) (himp : seen → ¬empty) :
    RefusedUnless empty op caller now s ↔ empty ∨ seen := by
  constructor
  · intro h
    by_cases hc : seen
    · exact Or.inr hc
    · exact Or.inl (h.succeeds_iff.mp (hseen.mpr hc))
  · intro h
    refine ⟨hseen.trans ⟨fun hc => h.resolve_right hc, fun he hc => himp hc he⟩, ?_⟩
    exact Operation.exec_of_fails

lemma refusedExactly_iff (s : Store) (e : User × Nat × Operation) :
    RefusedExactly s e ↔ DropsSeen s e := by
  obtain ⟨caller, now, op⟩ := e
  cases op with
  | dropDatabase database ign cascade =>
    cases cascade with
    | true => exact Iff.rfl
    | false =>
      exact forall₂_congr fun db found =>
        refusedUnless_iff (succeeds_dropDatabase found) Store.IsSeenDatabase.not_empty
  | dropOrganization org ign cascade =>
    cases cascade with
    | true => exact Iff.rfl
    | false =>
      exact forall₂_congr fun o found =>
        refusedUnless_iff (succeeds_dropOrganization found) Store.IsSeenOrganization.not_empty
  | _ => exact Iff.rfl

/-- Along a run the drops without cascade are refused exactly if something would be lost, when and
only when what would be lost is seen. -/
theorem drops_refused_iff (s : Store) (ops : List (User × Nat × Operation)) :
    EachStep (fun s e => e.2.2.exec e.1 e.2.1 s) RefusedExactly s ops ↔
      EachStep (fun s e => e.2.2.exec e.1 e.2.1 s) DropsSeen s ops :=
  eachStep_iff (I := fun _ => True) (fun s e _ => refusedExactly_iff s e) (fun _ _ _ _ => trivial)
    trivial

/-- What the catalog holds when it is first started. -/
def Store.initial : Store := (JdbcDao.initializeIfNeeded id 0).run.exec Store.empty

/-- The user bob, whose creator is dropped, in the organization a. -/
def bobOfA : List (User × Nat × Operation) :=
  [(systemRoot, 1, createA),
    (systemRoot, 2, .createUser { org := "a", name := "sa", password := "" } false),
    (⟨2, "a", 2, "sa"⟩, 3, .createUser { org := "a", name := "bob", password := "" } false),
    (systemRoot, 4, .dropUser "a" "sa" false)]

omit [Names] in
/-- The organization is dropped with bob in it. -/
theorem drops_refused_fails :
    letI := exactNames
    ¬∀ ops, EachStep (fun s e => e.2.2.exec e.1 e.2.1 s) RefusedExactly Store.initial ops := by
  let _ := exactNames
  intro h
  have hdrop := (h (bobOfA ++ [(systemRoot, 5, .dropOrganization "a" false false)])).last
  have hfound : (Store.organization (execOperations bobOfA Store.initial) "a").map
      OrganizationEntity.id = some 2 := by decide
  obtain ⟨o, ho, hid⟩ := Option.map_eq_some_iff.mp hfound
  have hempty := (hdrop o ho).succeeds_iff.mp (by decide)
  rw [hid] at hempty
  exact absurd hempty.users (by decide)

end Moonbox.Catalog
