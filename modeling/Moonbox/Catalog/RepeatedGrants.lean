import Moonbox.Catalog.Integrity
import Moonbox.Catalog.Writes
import Moonbox.Lib.Runs
import Mathlib.Data.List.Perm.Basic

/-!
# Repeated grants

A privilege is given to a user on a database, on a table or on columns of a table. What a grant
inserts depends on what is stored already.
-/

namespace Moonbox.Catalog

open Relational Actor

/-- What a row of privileges says: the grantee, the object and the type. -/
structure PrivilegeKey where
  userId : Nat
  databaseId : Nat
  tableId : Option Nat
  column : Option String
  privilegeType : String
  deriving DecidableEq

def privilegeKey : (k : Kind) → Entity k → Option PrivilegeKey
  | .databasePrivileges, e => some ⟨e.userId, e.databaseId, none, none, e.privilegeType⟩
  | .tablePrivileges, e => some ⟨e.userId, e.databaseId, some e.tableId, none, e.privilegeType⟩
  | .columnPrivileges, e =>
    some ⟨e.userId, e.databaseId, some e.tableId, some e.column, e.privilegeType⟩
  | _, _ => none

def privilegeKinds : List Kind := [.databasePrivileges, .tablePrivileges, .columnPrivileges]

/-- One key for every row of privileges. -/
def Store.privileges (s : Store) : List PrivilegeKey :=
  privilegeKinds.flatMap fun k => (s k).rows.filterMap (privilegeKey k)

/-- Privileges that are granted, or taken away. -/
inductive Grant
  | database (dbPrivilege : CatalogDatabasePrivilege)
  | table (tablePrivilege : CatalogTablePrivilege)
  | column (columnPrivilege : CatalogColumnPrivilege)

/-- Whose privileges they are and on what. -/
structure Grant.Target where
  userId : Nat
  databaseId : Nat
  tableId : Option Nat
  deriving DecidableEq

variable [Names]

namespace Grant

def create : Grant → Operation
  | .database p => .createDatabasePrivilege p
  | .table p => .createTablePrivilege p
  | .column p => .createColumnPrivilege p

def drop : Grant → Operation
  | .database p => .dropDatabasePrivilege p.user p.database p.privileges
  | .table p => .dropTablePrivilege p.user p.database p.table p.privileges
  | .column p => .dropColumnPrivilege p.user p.database p.table p.privilege

/-- The grantee and the object, if they exist. -/
def target (caller : User) (s : Store) : Grant → Option Target
  | .database p =>
    (Store.user s caller.orgId p.user).bind fun u =>
    (Store.database s caller.orgId p.database).map fun db => ⟨u.id, db.id, none⟩
  | .table p =>
    (Store.user s caller.orgId p.user).bind fun u =>
    (Store.database s caller.orgId p.database).bind fun db =>
    (Store.table s db.id p.table).map fun t => ⟨u.id, db.id, some t.id⟩
  | .column p =>
    (Store.user s caller.orgId p.user).bind fun u =>
    (Store.database s caller.orgId p.database).bind fun db =>
    (Store.table s db.id p.table).map fun t => ⟨u.id, db.id, some t.id⟩

/-- The keys that are asked for, with repetitions. -/
def keys (t : Target) : Grant → List PrivilegeKey
  | .database p => p.privileges.map fun x => ⟨t.userId, t.databaseId, t.tableId, none, x⟩
  | .table p => p.privileges.map fun x => ⟨t.userId, t.databaseId, t.tableId, none, x⟩
  | .column p => (p.privilege.flatMap fun x => x.2.map fun y => (x.1, y)).map fun x =>
    ⟨t.userId, t.databaseId, t.tableId, some x.1, x.2⟩

def isDatabase : Grant → Bool
  | .database _ => true
  | _ => false

/-- The keys of the rows that a grant inserts. -/
def inserted (s : Store) (t : Target) (g : Grant) : List PrivilegeKey :=
  if g.isDatabase then g.keys t else (g.keys t).filter (· ∉ s.privileges)

end Grant

/-! ### What a grant and a drop do -/

section Exec

variable {caller : User} {now : Nat} {s : Store} {u : UserEntity} {db : DatabaseEntity}
  {t : TableEntity}

lemma exec_createDatabasePrivilege {p : CatalogDatabasePrivilege}
    (hu : Store.user s caller.orgId p.user = some u)
    (hdb : Store.database s caller.orgId p.database = some db) :
    (Operation.createDatabasePrivilege p).exec caller now s =
      execAll (Write.inserts .databasePrivileges
        (p.privileges.map (.ofType u.id db.id caller now))) s := by
  refine (Action.wp_run _ (· = _)).mp ?_
  show (JdbcCatalog.createDatabasePrivilege p caller now).wp _ _ s
  rw [JdbcCatalog.createDatabasePrivilege, Action.wp_bind, wp_userId, hu]
  simp only [Action.wp_bind, wp_getDatabase, hdb]
  rfl

lemma exec_createTablePrivilege {p : CatalogTablePrivilege}
    (hu : Store.user s caller.orgId p.user = some u)
    (hdb : Store.database s caller.orgId p.database = some db)
    (ht : Store.table s db.id p.table = some t) :
    (Operation.createTablePrivilege p).exec caller now s =
      execAll (Write.inserts .tablePrivileges ((p.privileges.filter fun x =>
        !(Store.tablePrivilege s u.id db.id t.id).contains x).map
          (.ofType u.id db.id t.id caller now))) s := by
  refine (Action.wp_run _ (· = _)).mp ?_
  show (JdbcCatalog.createTablePrivilege p caller now).wp _ _ s
  rw [JdbcCatalog.createTablePrivilege, Action.wp_bind, wp_userId, hu]
  simp only [Action.wp_bind, wp_getDatabase, hdb, wp_getTable, ht]
  rfl

lemma exec_createColumnPrivilege {p : CatalogColumnPrivilege}
    (hu : Store.user s caller.orgId p.user = some u)
    (hdb : Store.database s caller.orgId p.database = some db)
    (ht : Store.table s db.id p.table = some t) :
    (Operation.createColumnPrivilege p).exec caller now s =
      execAll (Write.inserts .columnPrivileges
        (((p.privilege.flatMap fun x => x.2.map fun y => (x.1, y)).filter fun x =>
          !(Store.columnPrivilege s u.id db.id t.id).contains x).map
            (.ofType u.id db.id t.id caller now))) s := by
  refine (Action.wp_run _ (· = _)).mp ?_
  show (JdbcCatalog.createColumnPrivilege p caller now).wp _ _ s
  rw [JdbcCatalog.createColumnPrivilege, Action.wp_bind, wp_userId, hu]
  simp only [Action.wp_bind, wp_getDatabase, hdb, wp_getTable, ht]
  rfl

lemma exec_dropDatabasePrivilege {user database : String} {ps : List String}
    (hu : Store.user s caller.orgId user = some u)
    (hdb : Store.database s caller.orgId database = some db) :
    (Operation.dropDatabasePrivilege user database ps).exec caller now s =
      execAll [.delete .databasePrivileges fun e =>
        e.userId == u.id && e.databaseId == db.id && ps.any (sameName e.privilegeType)] s := by
  refine (Action.wp_run _ (· = _)).mp ?_
  show (JdbcCatalog.dropDatabasePrivilege user database ps caller).wp _ _ s
  rw [JdbcCatalog.dropDatabasePrivilege, Action.wp_bind, wp_userId, hu]
  simp only [Action.wp_bind, wp_getDatabase, hdb]
  rfl

lemma exec_dropTablePrivilege {user database table : String} {ps : List String}
    (hu : Store.user s caller.orgId user = some u)
    (hdb : Store.database s caller.orgId database = some db)
    (ht : Store.table s db.id table = some t) :
    (Operation.dropTablePrivilege user database table ps).exec caller now s =
      execAll [.delete .tablePrivileges fun e =>
        e.userId == u.id && e.databaseId == db.id && e.tableId == t.id &&
          ps.any (sameName e.privilegeType)] s := by
  refine (Action.wp_run _ (· = _)).mp ?_
  show (JdbcCatalog.dropTablePrivilege user database table ps caller).wp _ _ s
  rw [JdbcCatalog.dropTablePrivilege, Action.wp_bind, wp_userId, hu]
  simp only [Action.wp_bind, wp_getDatabase, hdb, wp_getTable, ht]
  rfl

lemma exec_dropColumnPrivilege {user database table : String} {ps : List (String × List String)}
    (hu : Store.user s caller.orgId user = some u)
    (hdb : Store.database s caller.orgId database = some db)
    (ht : Store.table s db.id table = some t) :
    (Operation.dropColumnPrivilege user database table ps).exec caller now s =
      execAll ((JdbcCatalog.typeToColumns ps).map fun x => .delete .columnPrivileges fun e =>
        e.userId == u.id && e.databaseId == db.id && e.tableId == t.id &&
          sameName e.privilegeType x.1 && x.2.any (sameName e.column)) s := by
  refine (Action.wp_run _ (· = _)).mp ?_
  show (JdbcCatalog.dropColumnPrivilege user database table ps caller).wp _ _ s
  rw [JdbcCatalog.dropColumnPrivilege, Action.wp_bind, wp_userId, hu]
  simp only [Action.wp_bind, wp_getDatabase, hdb, wp_getTable, ht]
  rw [Action.wp_transactionally]
  exact (Action.wp_forEach_delete (E := Entity) Kind.columnPrivileges _ _).mpr rfl

end Exec

/-! ### Keys -/

section Keys

variable {caller caller' : User} {now : Nat} {s s' : Store} {g g' : Grant} {t t' : Grant.Target}

omit [Names] in
lemma mem_privileges {key : PrivilegeKey} : key ∈ s.privileges ↔
    ∃ k ∈ privilegeKinds, ∃ e ∈ (s k).rows, privilegeKey k e = some key := by
  simp [Store.privileges]

omit [Names] in
lemma mem_tablePrivilege {uId dbId tbId : Nat} {x : String} :
    (Store.tablePrivilege s uId dbId tbId).contains x = true ↔
      ⟨uId, dbId, some tbId, none, x⟩ ∈ s.privileges := by
  simp [mem_privileges, Store.tablePrivilege, privilegeKinds, privilegeKey, and_assoc]

omit [Names] in
lemma mem_columnPrivilege {uId dbId tbId : Nat} {x : String × String} :
    (Store.columnPrivilege s uId dbId tbId).contains x = true ↔
      ⟨uId, dbId, some tbId, some x.1, x.2⟩ ∈ s.privileges := by
  simp [mem_privileges, Store.columnPrivilege, privilegeKinds, privilegeKey, and_assoc,
    Prod.ext_iff]

omit [Names] in
lemma privileges_inserts {k : Kind} (hk : k ∈ privilegeKinds) (es : List (Entity k)) :
    (Store.privileges (execAll (Write.inserts k es) s)).Perm
      (s.privileges ++ es.filterMap (privilegeKey k)) := by
  have hview : ∀ n e, privilegeKey k (Row.withId n e) = privilegeKey k e := by
    cases k <;> exact fun _ _ => rfl
  have hrows : (execAll (Write.inserts k es) s k).rows.filterMap (privilegeKey k) =
      (s k).rows.filterMap (privilegeKey k) ++ es.filterMap (privilegeKey k) :=
    filterMap_rows_inserts hview
  have hother : ∀ k' ≠ k, execAll (Write.inserts k es) s k' = s k' := fun k' hne =>
    execAll_inserts_of_ne hne
  refine List.perm_iff_count.mpr fun key => ?_
  simp only [Store.privileges, privilegeKinds, List.flatMap_cons, List.flatMap_nil,
    List.append_nil, List.count_append]
  simp only [privilegeKinds, List.mem_cons, List.not_mem_nil, or_false] at hk
  rcases hk with rfl | rfl | rfl
  · rw [hrows, hother _ (by decide), hother _ (by decide), List.count_append]
    omega
  · rw [hrows, hother _ (by decide), hother _ (by decide), List.count_append]
    omega
  · rw [hrows, hother _ (by decide), hother _ (by decide), List.count_append]
    omega

lemma Grant.exec_create (now : Nat) (h : g.target caller s = some t) :
    ∃ k ∈ privilegeKinds, ∃ es : List (Entity k),
      g.create.exec caller now s = execAll (Write.inserts k es) s ∧
        es.filterMap (privilegeKey k) = g.inserted s t ∧ (g.inserted s t = [] → es = []) := by
  cases g with
  | database p =>
    obtain ⟨u, hu, h⟩ := Option.bind_eq_some_iff.mp h
    obtain ⟨db, hdb, rfl⟩ := Option.map_eq_some_iff.mp h
    refine ⟨_, by decide, _, exec_createDatabasePrivilege hu hdb, ?_, fun h => ?_⟩
    · rw [List.filterMap_map]
      exact congrFun List.filterMap_eq_map _
    · exact List.map_eq_nil_iff.mpr (List.map_eq_nil_iff.mp h)
  | table p =>
    obtain ⟨u, hu, h⟩ := Option.bind_eq_some_iff.mp h
    obtain ⟨db, hdb, h⟩ := Option.bind_eq_some_iff.mp h
    obtain ⟨tb, ht, rfl⟩ := Option.map_eq_some_iff.mp h
    have hinserted : Grant.inserted s ⟨u.id, db.id, some tb.id⟩ (.table p) =
        (p.privileges.filter fun x => !(Store.tablePrivilege s u.id db.id tb.id).contains x).map
          fun x => ⟨u.id, db.id, some tb.id, none, x⟩ := by
      show List.filter _ (List.map _ _) = _
      rw [List.filter_map]
      refine congrArg (List.map _) (List.filter_congr fun x _ => ?_)
      rw [Bool.eq_iff_iff, Bool.not_eq_true', ← Bool.not_eq_true, mem_tablePrivilege]
      simp
    refine ⟨_, by decide, _, exec_createTablePrivilege hu hdb ht, ?_, fun h => ?_⟩
    · rw [hinserted, List.filterMap_map]
      exact congrFun List.filterMap_eq_map _
    · exact List.map_eq_nil_iff.mpr (List.map_eq_nil_iff.mp (hinserted ▸ h))
  | column p =>
    obtain ⟨u, hu, h⟩ := Option.bind_eq_some_iff.mp h
    obtain ⟨db, hdb, h⟩ := Option.bind_eq_some_iff.mp h
    obtain ⟨tb, ht, rfl⟩ := Option.map_eq_some_iff.mp h
    have hinserted : Grant.inserted s ⟨u.id, db.id, some tb.id⟩ (.column p) =
        ((p.privilege.flatMap fun x => x.2.map fun y => (x.1, y)).filter fun x =>
          !(Store.columnPrivilege s u.id db.id tb.id).contains x).map
            fun x => ⟨u.id, db.id, some tb.id, some x.1, x.2⟩ := by
      show List.filter _ (List.map _ _) = _
      rw [List.filter_map]
      refine congrArg (List.map _) (List.filter_congr fun x _ => ?_)
      rw [Bool.eq_iff_iff, Bool.not_eq_true', ← Bool.not_eq_true, mem_columnPrivilege]
      simp
    refine ⟨_, by decide, _, exec_createColumnPrivilege hu hdb ht, ?_, fun h => ?_⟩
    · rw [hinserted, List.filterMap_map]
      exact congrFun List.filterMap_eq_map _
    · exact List.map_eq_nil_iff.mpr (List.map_eq_nil_iff.mp (hinserted ▸ h))

/-- The keys of the new rows come in addition. -/
lemma Grant.privileges_create (now : Nat) (h : g.target caller s = some t) :
    (g.create.exec caller now s).privileges.Perm (s.privileges ++ g.inserted s t) := by
  obtain ⟨k, hk, es, hexec, hkeys, -⟩ := Grant.exec_create now h
  rw [hexec, ← hkeys]
  exact privileges_inserts hk es

lemma Grant.create_eq_self (h : g.target caller s = some t) (hnone : g.inserted s t = []) :
    g.create.exec caller now s = s := by
  obtain ⟨k, -, es, hexec, -, hnil⟩ := Grant.exec_create now h
  rw [hexec, hnil hnone]
  rfl

/-- Grants leave the users, databases and tables as they are. -/
lemma Grant.target_create : g'.target caller' (g.create.exec caller now s) =
    g'.target caller' s := by
  have hagree : ∀ k ∉ g.create.writes, g.create.exec caller now s k = s k := fun k hk => by
    obtain ⟨ws, hws, heq⟩ := g.create.exec_effect caller now s
    rw [heq]
    exact (Std.Refl.refl s : AgreeOutside _ s s).execAll hws.table_mem k hk
  have husers := hagree .users (by cases g <;> simp [Grant.create, Operation.writes])
  have hdatabases := hagree .databases (by cases g <;> simp [Grant.create, Operation.writes])
  have htables := hagree .tables (by cases g <;> simp [Grant.create, Operation.writes])
  cases g' <;> simp only [Grant.target, Store.user, Store.database, Store.table, husers,
    hdatabases, htables]

lemma Grant.target_grants (grants : List (User × Nat × Grant)) :
    g.target caller (execOperations (grants.map fun x => (x.1, x.2.1, x.2.2.create)) s) =
      g.target caller s := by
  induction grants generalizing s with
  | nil => rfl
  | cons x grants ih => exact ih.trans Grant.target_create

omit [Names] in
lemma exists_mem_typeToColumns {ps : List (String × List String)} {column type : String}
    (h : (column, type) ∈ ps.flatMap fun x => x.2.map fun y => (x.1, y)) :
    ∃ x ∈ JdbcCatalog.typeToColumns ps, x.1 = type ∧ column ∈ x.2 := by
  refine ⟨(type, _), List.mem_map.mpr ⟨type, ?_, rfl⟩, rfl, ?_⟩
  · exact List.mem_eraseDups.mpr (List.mem_map.mpr ⟨_, h, rfl⟩)
  · exact List.mem_map.mpr ⟨(column, type), List.mem_filter.mpr ⟨h, beq_self_eq_true _⟩, rfl⟩

/-- A drop takes away every row of the keys it is asked for. -/
lemma Grant.not_mem_drop (h : g.target caller s = some t) {key : PrivilegeKey}
    (hkey : key ∈ g.keys t) : key ∉ (g.drop.exec caller now s).privileges := by
  intro hmem
  obtain ⟨k, hk, e, he, heq⟩ := mem_privileges.mp hmem
  simp only [privilegeKinds, List.mem_cons, List.not_mem_nil, or_false] at hk
  cases g with
  | database p =>
    obtain ⟨u, hu, h⟩ := Option.bind_eq_some_iff.mp h
    obtain ⟨db, hdb, rfl⟩ := Option.map_eq_some_iff.mp h
    obtain ⟨x, hx, rfl⟩ := List.mem_map.mp hkey
    rcases hk with rfl | rfl | rfl <;> simp [privilegeKey] at heq
    obtain ⟨huser, hdatabase, rfl⟩ := heq
    rw [Grant.drop, exec_dropDatabasePrivilege hu hdb, execAll_cons, execAll_nil, exec_delete,
      Table.mem_delete] at he
    have hany : p.privileges.any (sameName e.privilegeType) = true :=
      List.any_eq_true.mpr ⟨_, hx, sameName_iff.mpr rfl⟩
    simp [huser, hdatabase, hany] at he
  | table p =>
    obtain ⟨u, hu, h⟩ := Option.bind_eq_some_iff.mp h
    obtain ⟨db, hdb, h⟩ := Option.bind_eq_some_iff.mp h
    obtain ⟨tb, ht, rfl⟩ := Option.map_eq_some_iff.mp h
    obtain ⟨x, hx, rfl⟩ := List.mem_map.mp hkey
    rcases hk with rfl | rfl | rfl <;> simp [privilegeKey] at heq
    obtain ⟨huser, hdatabase, htable, rfl⟩ := heq
    rw [Grant.drop, exec_dropTablePrivilege hu hdb ht, execAll_cons, execAll_nil, exec_delete,
      Table.mem_delete] at he
    have hany : p.privileges.any (sameName e.privilegeType) = true :=
      List.any_eq_true.mpr ⟨_, hx, sameName_iff.mpr rfl⟩
    simp [huser, hdatabase, htable, hany] at he
  | column p =>
    obtain ⟨u, hu, h⟩ := Option.bind_eq_some_iff.mp h
    obtain ⟨db, hdb, h⟩ := Option.bind_eq_some_iff.mp h
    obtain ⟨tb, ht, rfl⟩ := Option.map_eq_some_iff.mp h
    obtain ⟨⟨column, type⟩, hx, rfl⟩ := List.mem_map.mp hkey
    rcases hk with rfl | rfl | rfl <;> simp [privilegeKey] at heq
    obtain ⟨huser, hdatabase, htable, hcolumn, htype⟩ := heq
    rw [Grant.drop, exec_dropColumnPrivilege hu hdb ht] at he
    obtain ⟨e', -, rfl, hkept⟩ := exists_execAll_deletes.mp ⟨e, he, (rfl : e = e)⟩
    obtain ⟨x, hmemx, rfl, hcolumns⟩ := exists_mem_typeToColumns hx
    have hany : x.2.any (sameName e.column) = true :=
      List.any_eq_true.mpr ⟨column, hcolumns, by rw [sameName_iff, hcolumn]⟩
    have hsame : sameName e.privilegeType x.1 = true := by rw [sameName_iff, htype]
    simpa [huser, hdatabase, htable, hany, hsame] using hkept x hmemx

omit [Names] in
lemma not_mem_privilegeKinds {k : Kind} {kinds : List Kind} (hk : k ∈ kinds)
    (h : (kinds.all fun k => k ∉ privilegeKinds) = true) : k ∉ privilegeKinds := by
  simpa using List.all_eq_true.mp h k hk

/-- Only grants insert privileges. -/
lemma Effect.deletes {op : Operation} {ws : List (Write Entity)} (hws : Effect caller now s op ws)
    (hop : ∀ g : Grant, op ≠ g.create) {w : Write Entity} (hw : w ∈ ws)
    (hk : w.table ∈ privilegeKinds) : ∃ k cond, w = .delete k cond := by
  have hmem := hws.table_mem w hw
  cases op
  case createDatabasePrivilege p => exact absurd rfl (hop (.database p))
  case createTablePrivilege p => exact absurd rfl (hop (.table p))
  case createColumnPrivilege p => exact absurd rfl (hop (.column p))
  case dropUser =>
    cases hws with
    | idle => cases hw
    | dropUser =>
      simp only [List.mem_cons, List.not_mem_nil, or_false] at hw
      rcases hw with rfl | rfl | rfl | rfl | rfl <;> exact ⟨_, _, rfl⟩
  case dropTable =>
    cases hws with
    | idle => cases hw
    | dropTable =>
      simp only [List.mem_cons, List.not_mem_nil, or_false] at hw
      rcases hw with rfl | rfl | rfl <;> exact ⟨_, _, rfl⟩
  case dropDatabasePrivilege =>
    cases hws with
    | idle => cases hw
    | dropDatabasePrivilege => exact ⟨_, _, List.mem_singleton.mp hw⟩
  case dropTablePrivilege =>
    cases hws with
    | idle => cases hw
    | dropTablePrivilege => exact ⟨_, _, List.mem_singleton.mp hw⟩
  case dropColumnPrivilege =>
    cases hws with
    | idle => cases hw
    | dropColumnPrivilege =>
      obtain ⟨x, -, rfl⟩ := List.mem_map.mp hw
      exact ⟨_, _, rfl⟩
  all_goals exact absurd hk (not_mem_privilegeKinds hmem rfl)

lemma Operation.privileges_sublist {op : Operation} (hop : ∀ g : Grant, op ≠ g.create) :
    (op.exec caller now s).privileges.Sublist s.privileges := by
  obtain ⟨ws, hws, heq⟩ := op.exec_effect caller now s
  have hrows : ∀ k ∈ privilegeKinds, (op.exec caller now s k).rows.Sublist (s k).rows := by
    rw [heq]
    refine execAll_induction (P := fun s' => ∀ k ∈ privilegeKinds,
      (s' k).rows.Sublist (s k).rows) (fun k _ => List.Sublist.refl _) ?_
    intro w hw s' ih k hk
    by_cases hne : k = w.table
    · obtain ⟨k', cond, rfl⟩ := hws.deletes hop hw (hne ▸ hk)
      obtain rfl : k = k' := hne
      rw [exec_delete]
      exact List.filter_sublist.trans (ih k hk)
    · rw [Write.exec_of_ne hne]
      exact ih k hk
  simp only [Store.privileges, privilegeKinds, List.flatMap_cons, List.flatMap_nil]
  exact ((hrows _ (by decide)).filterMap _).append (((hrows _ (by decide)).filterMap _).append
    (((hrows _ (by decide)).filterMap _).append (List.Sublist.refl _)))

end Keys

/-! ### Granting once -/

/-- Every key that is asked for is stored once, or it is asked for once, is not stored, and comes
to be. For a database the stored ones are stored again. -/
def Grant.IsFresh (s : Store) (t : Grant.Target) (g : Grant) : Prop :=
  ∀ key ∈ g.keys t, (s.privileges.count key = 0 ∧ (g.keys t).count key = 1) ∨
    (g.isDatabase = false ∧ s.privileges.count key = 1)

/-- The grant leaves one row for every key. Granted again it leaves the same rows, and a drop
takes away what it is asked for after any grants. -/
structure GrantsOnce (caller : User) (now : Nat) (s : Store) (t : Grant.Target) (g : Grant) :
    Prop where
  one : ∀ key ∈ g.keys t, (g.create.exec caller now s).privileges.count key = 1
  again : ∀ later k, (g.create.exec caller later (g.create.exec caller now s) k).rows =
    (g.create.exec caller now s k).rows
  dropped : ∀ (grants : List (User × Nat × Grant)) (g' : Grant) (t' : Grant.Target) (later : Nat),
    g'.target caller s = some t' → ∀ key ∈ g'.keys t', key ∉ (g'.drop.exec caller later
      (execOperations (grants.map fun x => (x.1, x.2.1, x.2.2.create)) s)).privileges

/-- Whether a step that grants finds what it asks for fresh. -/
def Operation.GrantsFresh (s : Store) (e : User × Nat × Operation) : Prop :=
  ∀ (g : Grant) (t : Grant.Target), e.2.2 = g.create → g.target e.1 s = some t → g.IsFresh s t

section Once

variable {caller : User} {now : Nat} {s : Store} {g : Grant} {t : Grant.Target}

omit [Names] in
lemma Grant.count_inserted {key : PrivilegeKey} (hkey : key ∈ g.keys t) :
    (s.privileges ++ g.inserted s t).count key = 1 ↔
      (s.privileges.count key = 0 ∧ (g.keys t).count key = 1) ∨
        (g.isDatabase = false ∧ s.privileges.count key = 1) := by
  have hpos : 0 < (g.keys t).count key := List.count_pos_iff.mpr hkey
  rw [List.count_append, Grant.inserted]
  cases hdb : g.isDatabase with
  | true =>
    simp only [if_true, Bool.true_eq_false, false_and, or_false]
    omega
  | false =>
    simp only [Bool.false_eq_true, if_false, true_and]
    by_cases hstored : key ∈ s.privileges
    · have hnone : ((g.keys t).filter (· ∉ s.privileges)).count key = 0 :=
        List.count_eq_zero.mpr fun h => by simpa [hstored] using (List.mem_filter.mp h).2
      have := List.count_pos_iff.mpr hstored
      omega
    · have hall : ((g.keys t).filter (· ∉ s.privileges)).count key = (g.keys t).count key :=
        List.count_filter (by simpa using hstored)
      have := List.count_eq_zero.mpr hstored
      omega

lemma Grant.one_iff (h : g.target caller s = some t) :
    (∀ key ∈ g.keys t, (g.create.exec caller now s).privileges.count key = 1) ↔
      g.IsFresh s t := by
  refine forall₂_congr fun key hkey => ?_
  rw [(Grant.privileges_create _ h).count_eq]
  exact Grant.count_inserted hkey

/-- After a grant on a table or its columns nothing is left to insert. -/
lemma Grant.again_iff (h : g.target caller s = some t) :
    (∀ later k, (g.create.exec caller later (g.create.exec caller now s) k).rows =
      (g.create.exec caller now s k).rows) ↔ (g.isDatabase = true → g.keys t = []) := by
  have h' : g.target caller (g.create.exec caller now s) = some t := by
    rw [Grant.target_create, h]
  have hnone : g.inserted (g.create.exec caller now s) t = [] ↔
      (g.isDatabase = true → g.keys t = []) := by
    cases hdb : g.isDatabase with
    | true => simp [Grant.inserted, hdb]
    | false =>
      have hall : ∀ key ∈ g.keys t, key ∈ (g.create.exec caller now s).privileges := by
        intro key hkey
        rw [(Grant.privileges_create _ h).mem_iff, List.mem_append, Grant.inserted, hdb]
        by_cases hstored : key ∈ s.privileges
        · exact Or.inl hstored
        · exact Or.inr (List.mem_filter.mpr ⟨hkey, by simpa using hstored⟩)
      simpa [Grant.inserted, hdb] using hall
  rw [← hnone]
  constructor
  · intro hrows
    have hsame : (g.create.exec caller now (g.create.exec caller now s)).privileges =
        (g.create.exec caller now s).privileges := by
      simp only [Store.privileges, hrows now]
    have hlength := (Grant.privileges_create now h').length_eq
    rw [hsame, List.length_append] at hlength
    exact List.eq_nil_of_length_eq_zero (by omega)
  · intro hnil later k
    rw [Grant.create_eq_self h' hnil]

/-- What a grant on a database inserts is never looked up, so it can be repeated only when it asks
for nothing. A grant on a table or on columns is good unless it repeats a key that is not stored. -/
lemma Grant.grantsOnce_iff (h : g.target caller s = some t) :
    GrantsOnce caller now s t g ↔ g.IsFresh s t ∧ (g.isDatabase = true → g.keys t = []) := by
  constructor
  · intro honce
    exact ⟨(Grant.one_iff h).mp honce.one, (Grant.again_iff h).mp honce.again⟩
  · rintro ⟨hfresh, hnone⟩
    refine ⟨(Grant.one_iff h).mpr hfresh, (Grant.again_iff h).mpr hnone, ?_⟩
    intro grants g' t' later h' key hkey
    exact Grant.not_mem_drop (by rw [Grant.target_grants, h']) hkey

omit [Names] in
lemma Grant.inserted_subset : g.inserted s t ⊆ g.keys t := by
  rw [Grant.inserted]
  split_ifs
  · exact List.Subset.refl _
  · exact List.filter_sublist.subset

lemma Grant.create_of_none (h : g.target caller s = none) : g.create.exec caller now s = s := by
  obtain ⟨ws, hws, heq⟩ := g.create.exec_effect caller now s
  rw [heq]
  cases g with
  | database p =>
    cases hws with
    | idle => rfl
    | createDatabasePrivilege grantee inDatabase => simp [Grant.target, grantee, inDatabase] at h
  | table p =>
    cases hws with
    | idle => rfl
    | createTablePrivilege grantee inDatabase onTable =>
      simp [Grant.target, grantee, inDatabase, onTable] at h
  | column p =>
    cases hws with
    | idle => rfl
    | createColumnPrivilege grantee inDatabase onTable =>
      simp [Grant.target, grantee, inDatabase, onTable] at h

/-- A grant of what is fresh keeps the keys distinct, and nothing else inserts any. -/
lemma Operation.nodup_privileges {e : User × Nat × Operation} (hs : s.privileges.Nodup)
    (he : Operation.GrantsFresh s e) : (e.2.2.exec e.1 e.2.1 s).privileges.Nodup := by
  by_cases hgrant : ∃ g : Grant, e.2.2 = g.create
  · obtain ⟨g, hg⟩ := hgrant
    rw [hg]
    cases ht : g.target e.1 s with
    | none =>
      rw [Grant.create_of_none ht]
      exact hs
    | some t =>
      rw [(Grant.privileges_create _ ht).nodup_iff, List.nodup_iff_count_le_one]
      intro key
      by_cases hkey : key ∈ g.keys t
      · exact ((Grant.count_inserted hkey).mpr (he g t hg ht key hkey)).le
      · have hnone : key ∉ g.inserted s t := fun h => hkey (Grant.inserted_subset h)
        rw [List.count_append, List.count_eq_zero.mpr hnone]
        exact List.nodup_iff_count_le_one.mp hs key
  · exact hs.sublist (Operation.privileges_sublist fun g h => hgrant ⟨g, h⟩)

end Once

/-- In every run whose grants find what they ask for fresh no privilege is stored twice, and in
every state a grant is good exactly if it asks for what is fresh and, on a database, for nothing. -/
theorem grants_once :
    (∀ ops, EachStep (fun s e => e.2.2.exec e.1 e.2.1 s) Operation.GrantsFresh Store.empty ops →
      (execOperations ops Store.empty).privileges.Nodup) ∧
    ∀ caller now s g t, Grant.target caller s g = some t →
      (GrantsOnce caller now s t g ↔ g.IsFresh s t ∧ (g.isDatabase = true → g.keys t = [])) := by
  refine ⟨fun ops hops => ?_, fun caller now s g t h => Grant.grantsOnce_iff h⟩
  refine hops.invariant (I := fun s => s.privileges.Nodup) ?_ (by simp [Store.privileges,
    privilegeKinds, Store.empty])
  exact fun s e hs he => Operation.nodup_privileges hs he

/-- An organization, a user of it and a table in its first database. -/
def makeTable : List (User × Nat × Operation) :=
  [(systemRoot, 1, createA),
    (systemRoot, 1, .createUser { org := "a", name := "sa", password := "" } false),
    (saOfA, 2, .createTable { name := "t", db := some "default", tableType := "table" } false)]

def selectOnTable : Grant := .table ⟨"sa", "default", "t", ["SELECT"]⟩

def selectOnDatabase : Grant := .database ⟨"sa", "default", ["SELECT"]⟩

omit [Names] in
theorem grants_once_table :
    letI := exactNames
    (execOperations (makeTable ++ [(saOfA, 3, selectOnTable.create)])
      Store.empty).privileges.Nodup ∧
    GrantsOnce saOfA 4 (execOperations makeTable Store.empty) ⟨1, 1, some 1⟩ selectOnTable := by
  let _ := exactNames
  obtain ⟨hrun, hstate⟩ := grants_once
  have htarget : selectOnTable.target saOfA (execOperations makeTable Store.empty) =
      some ⟨1, 1, some 1⟩ := by decide
  have hfresh : selectOnTable.IsFresh (execOperations makeTable Store.empty) ⟨1, 1, some 1⟩ := by
    intro key hkey
    obtain rfl : key = ⟨1, 1, some 1, none, "SELECT"⟩ := List.mem_singleton.mp hkey
    exact Or.inl (by decide)
  refine ⟨hrun _ ⟨?_, ?_, ?_, ?_, trivial⟩, (hstate _ _ _ _ _ htarget).mpr ⟨hfresh, ?_⟩⟩
  · intro g t h
    cases g <;> cases h
  · intro g t h
    cases g <;> cases h
  · intro g t h
    cases g <;> cases h
  · intro g t h ht
    cases g with
    | database p => cases h
    | column p => cases h
    | table p =>
      cases h
      cases htarget.symm.trans ht
      exact hfresh
  · exact fun h => absurd h (by decide)

omit [Names] in
/-- On a database the second grant stores the privilege again. -/
theorem grants_once_fails :
    letI := exactNames
    ¬ ∀ ops caller now g t, Grant.target caller (execOperations ops Store.empty) g = some t →
      GrantsOnce caller now (execOperations ops Store.empty) t g := by
  let _ := exactNames
  intro h
  have honce := h (makeTable ++ [(saOfA, 3, selectOnDatabase.create)]) saOfA 4 selectOnDatabase
    ⟨1, 1, none⟩ (by decide)
  exact absurd (honce.one ⟨1, 1, none, none, "SELECT"⟩ (by decide)) (by decide)

end Moonbox.Catalog
