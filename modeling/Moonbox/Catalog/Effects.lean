import Moonbox.Catalog.Operations

/-!
# Effects

`Effect` says what an operation can do to the state it finds, with everything it has looked up.
Every operation that ends normally does one of its effects and every operation that fails does
nothing, so what the effects keep the operations keep.
-/

namespace Moonbox.Catalog

open Relational

variable [Names]

/-- From `s`, the operation can end with the writes `ws`. -/
inductive Effect (caller : User) (now : Nat) (s : Store) :
    Operation → List (Write Entity) → Prop
  | idle (op : Operation) : Effect caller now s op []
  | createQuery {d ign} (free : Store.query s caller.orgId d.name = none) :
    Effect caller now s (.createQuery d ign)
      [.insert .queries (QueryEntity.ofDefinition d caller now)]
  | dropQuery {query ign e} (found : Store.query s caller.orgId query = some e) :
    Effect caller now s (.dropQuery query ign) [.delete .queries fun t => t.id == e.id]
  | alterQuery {d e} (found : Store.query s caller.orgId d.name = some e) :
    Effect caller now s (.alterQuery d)
      [.update .queries (fun t => t.id == e.id) fun _ => QueryEntity.altered e d caller now]
  | createOrganization {d ign} (free : Store.organization s d.name = none) :
    Effect caller now s (.createOrganization d ign)
      [.insert .organizations (OrganizationEntity.ofDefinition d caller now),
        .insert .databases (DatabaseEntity.ofOrganization (s .organizations).nextId caller now)]
  | dropOrganizationCascade {org ign o} (found : Store.organization s org = some o) :
    Effect caller now s (.dropOrganization org ign true)
      [.delete .databases fun t => t.organizationId == o.id,
        .delete .users fun t => t.organizationId == o.id,
        .delete .timedEvents fun t => t.organizationId == o.id,
        .delete .procedures fun t => t.organizationId == o.id,
        .delete .queries fun t => t.organizationId == o.id,
        .delete .organizations fun t => sameName t.name org]
  | dropOrganization {org ign o} (found : Store.organization s org = some o)
    (databases : Store.listDatabases s o.id = []) (users : Store.listUsers s o.id = [])
    (events : Store.listTimedEvents s o.id = []) (procedures : Store.listProcedures s o.id = [])
    (groups : Store.listGroups s o.id = []) :
    Effect caller now s (.dropOrganization org ign false)
      [.delete .organizations fun t => sameName t.name org]
  | renameOrganization {org newOrg o} (found : Store.organization s org = some o)
    (free : Store.organization s newOrg = none) :
    Effect caller now s (.renameOrganization org newOrg)
      [.update .organizations (fun t => sameName t.name org) fun t =>
        { t with name := newOrg, updateBy := caller.userId, updateTime := now }]
  | alterOrganization {d o} (found : Store.organization s d.name = some o) :
    Effect caller now s (.alterOrganization d)
      [.update .organizations (fun t => t.id == o.id) fun _ =>
        OrganizationEntity.altered o d caller now]
  | createUser {d ign o} (inOrg : Store.organization s d.org = some o)
    (free : Store.user s o.id d.name = none) :
    Effect caller now s (.createUser d ign)
      [.insert .users (UserEntity.ofDefinition d o.id caller now)]
  | dropUser {org user ign o u} (inOrg : Store.organization s org = some o)
    (found : Store.user s o.id user = some u) :
    Effect caller now s (.dropUser org user ign)
      [.delete .groupUserRels fun rel => rel.userId == u.id,
        .delete .databasePrivileges fun t => t.userId == u.id,
        .delete .tablePrivileges fun t => t.userId == u.id,
        .delete .columnPrivileges fun t => t.userId == u.id,
        .delete .users fun t => t.id == u.id]
  | renameUser {org user newUser o u} (inOrg : Store.organization s org = some o)
    (found : Store.user s o.id user = some u) (free : Store.user s o.id newUser = none) :
    Effect caller now s (.renameUser org user newUser)
      [.update .users (fun t => sameName t.name user) fun t =>
        { t with name := newUser, updateBy := caller.userId, updateTime := now }]
  | alterUser {d o u} (inOrg : Store.organization s d.org = some o)
    (found : Store.user s o.id d.name = some u) :
    Effect caller now s (.alterUser d)
      [.update .users (fun t => t.id == u.id) fun _ => UserEntity.altered u d caller now]
  | createProcedure {d ign} (free : Store.procedure s caller.orgId d.name = none) :
    Effect caller now s (.createProcedure d ign)
      [.insert .procedures (ProcedureEntity.ofDefinition d caller now)]
  | dropProcedure {proc ign p} (found : Store.procedure s caller.orgId proc = some p)
    (unused : ∀ t ∈ (s .timedEvents).rows,
      ¬ (t.organizationId = caller.orgId ∧ t.procedure = p.id)) :
    Effect caller now s (.dropProcedure proc ign) [.delete .procedures fun t => t.id == p.id]
  | renameProcedure {proc newProc p} (found : Store.procedure s caller.orgId proc = some p)
    (free : Store.procedure s caller.orgId newProc = none) :
    Effect caller now s (.renameProcedure proc newProc)
      [.update .procedures (fun t => t.organizationId == caller.orgId && sameName t.name proc)
        fun t => { t with name := newProc, updateBy := caller.userId, updateTime := now }]
  | alterProcedure {d p} (found : Store.procedure s caller.orgId d.name = some p) :
    Effect caller now s (.alterProcedure d)
      [.update .procedures (fun t => t.id == p.id) fun _ => ProcedureEntity.altered p d caller now]
  | createTimedEvent {d ign p u} (free : Store.timedEvent s caller.orgId d.name = none)
    (procedure : Store.procedure s caller.orgId d.procedure = some p)
    (definer : Store.user s caller.orgId d.definer = some u) :
    Effect caller now s (.createTimedEvent d ign)
      [.insert .timedEvents (TimedEventEntity.ofDefinition d u.id p.id caller now)]
  | renameTimedEvent {event newEvent e} (found : Store.timedEvent s caller.orgId event = some e)
    (free : Store.timedEvent s caller.orgId newEvent = none) :
    Effect caller now s (.renameTimedEvent event newEvent)
      [.update .timedEvents (fun t => t.organizationId == caller.orgId && sameName t.name event)
        fun t => { t with name := newEvent, updateBy := caller.userId, updateTime := now }]
  | alterTimedEvent {d e p u} (found : Store.timedEvent s caller.orgId d.name = some e)
    (procedure : Store.procedure s caller.orgId d.procedure = some p)
    (definer : Store.user s caller.orgId d.definer = some u) :
    Effect caller now s (.alterTimedEvent d)
      [.update .timedEvents (fun t => t.id == e.id) fun _ =>
        TimedEventEntity.altered e d u.id p.id caller now]
  | dropTimedEvent {event ign e} (found : Store.timedEvent s caller.orgId event = some e) :
    Effect caller now s (.dropTimedEvent event ign)
      [.delete .timedEvents fun t => t.organizationId == caller.orgId && sameName t.name event]
  | createDatabase {d ign}
    (free : Store.database s caller.orgId (JdbcCatalog.formatDatabaseName d.name) = none) :
    Effect caller now s (.createDatabase d ign)
      [.insert .databases
        (DatabaseEntity.ofDefinition d (JdbcCatalog.formatDatabaseName d.name) caller now)]
  | dropDatabaseCascade {database ign db}
    (found : Store.database s caller.orgId (JdbcCatalog.formatDatabaseName database) = some db) :
    Effect caller now s (.dropDatabase database ign true)
      [.delete .functions fun t => t.databaseId == db.id,
        .delete .tables fun t => t.databaseId == db.id,
        .delete .databases fun t => t.organizationId == caller.orgId &&
          sameName t.name (JdbcCatalog.formatDatabaseName database)]
  | dropDatabase {database ign db}
    (found : Store.database s caller.orgId (JdbcCatalog.formatDatabaseName database) = some db)
    (tables : Store.listTables s db.id = []) (functions : Store.listFunctions s db.id = []) :
    Effect caller now s (.dropDatabase database ign false)
      [.delete .databases fun t => t.organizationId == caller.orgId &&
        sameName t.name (JdbcCatalog.formatDatabaseName database)]
  | renameDatabase {db newDb e}
    (found : Store.database s caller.orgId (JdbcCatalog.formatDatabaseName db) = some e)
    (free : Store.database s caller.orgId (JdbcCatalog.formatDatabaseName newDb) = none) :
    Effect caller now s (.renameDatabase db newDb)
      [.update .databases
        (fun t => t.organizationId == caller.orgId &&
          sameName t.name (JdbcCatalog.formatDatabaseName db))
        fun t => { t with
          name := JdbcCatalog.formatDatabaseName newDb
          updateBy := caller.userId
          updateTime := now }]
  | alterDatabase {d e}
    (found : Store.database s caller.orgId (JdbcCatalog.formatDatabaseName d.name) = some e) :
    Effect caller now s (.alterDatabase d)
      [.update .databases (fun t => t.id == e.id) fun _ =>
        DatabaseEntity.altered e d (JdbcCatalog.formatDatabaseName d.name) caller now]
  | createTable {d ign db dbEntity} (hdb : d.db = some db)
    (inDatabase : Store.database s caller.orgId db = some dbEntity)
    (free : Store.table s dbEntity.id d.name = none) :
    Effect caller now s (.createTable d ign)
      [.insert .tables (TableEntity.ofDefinition d dbEntity.id caller now)]
  | dropTable {db table ign dbEntity t}
    (inDatabase : Store.database s caller.orgId db = some dbEntity)
    (found : Store.table s dbEntity.id table = some t) :
    Effect caller now s (.dropTable db table ign)
      [.delete .tablePrivileges fun p => p.databaseId == t.databaseId && p.tableId == t.id,
        .delete .columnPrivileges fun p => p.databaseId == t.databaseId && p.tableId == t.id,
        .delete .tables fun e => e.databaseId == t.databaseId && sameName e.name table]
  | renameTable {db table newTable dbEntity t}
    (inDatabase : Store.database s caller.orgId db = some dbEntity)
    (found : Store.table s dbEntity.id table = some t)
    (free : Store.table s dbEntity.id newTable = none) :
    Effect caller now s (.renameTable db table newTable)
      [.update .tables (fun e => e.databaseId == dbEntity.id && sameName e.name table) fun e =>
        { e with name := newTable, updateBy := caller.userId, updateTime := now }]
  | alterTable {d db dbEntity t} (hdb : d.db = some db)
    (inDatabase : Store.database s caller.orgId db = some dbEntity)
    (found : Store.table s dbEntity.id d.name = some t) :
    Effect caller now s (.alterTable d)
      [.update .tables (fun e => e.id == t.id) fun _ =>
        TableEntity.altered t d dbEntity.id caller now]
  | createFunction {d ign db dbEntity} (hdb : d.db = some db)
    (inDatabase : Store.database s caller.orgId db = some dbEntity)
    (free : Store.function s dbEntity.id d.name = none) :
    Effect caller now s (.createFunction d ign)
      (.insert .functions (FunctionEntity.ofDefinition d dbEntity.id caller now) ::
        Write.inserts .functionResources (d.resources.map
          (FunctionResourceEntity.ofResource (s .functions).nextId caller now)))
  | dropFunction {db func ign dbEntity f}
    (inDatabase : Store.database s caller.orgId db = some dbEntity)
    (found : Store.function s dbEntity.id func = some f) :
    Effect caller now s (.dropFunction db func ign)
      [.delete .functionResources fun r => r.funcId == f.id,
        .delete .functions fun e => e.databaseId == dbEntity.id && sameName e.name func]
  | renameFunction {db func newFunc dbEntity f}
    (inDatabase : Store.database s caller.orgId db = some dbEntity)
    (found : Store.function s dbEntity.id func = some f)
    (free : Store.function s dbEntity.id newFunc = none) :
    Effect caller now s (.renameFunction db func newFunc)
      [.update .functions (fun e => e.databaseId == dbEntity.id && sameName e.name func) fun e =>
        { e with name := newFunc, updateBy := caller.userId, updateTime := now }]
  | createDatabasePrivilege {p u db} (grantee : Store.user s caller.orgId p.user = some u)
    (inDatabase : Store.database s caller.orgId p.database = some db) :
    Effect caller now s (.createDatabasePrivilege p)
      (Write.inserts .databasePrivileges
        (p.privileges.map (DatabasePrivilegeEntity.ofType u.id db.id caller now)))
  | dropDatabasePrivilege {user database ps u db}
    (grantee : Store.user s caller.orgId user = some u)
    (inDatabase : Store.database s caller.orgId database = some db) :
    Effect caller now s (.dropDatabasePrivilege user database ps)
      [.delete .databasePrivileges fun t =>
        t.userId == u.id && t.databaseId == db.id && ps.any (sameName t.privilegeType)]
  | createTablePrivilege {p u db t} (grantee : Store.user s caller.orgId p.user = some u)
    (inDatabase : Store.database s caller.orgId p.database = some db)
    (onTable : Store.table s db.id p.table = some t) :
    Effect caller now s (.createTablePrivilege p)
      (Write.inserts .tablePrivileges
        ((p.privileges.filter fun x => !(Store.tablePrivilege s u.id db.id t.id).contains x).map
          (TablePrivilegeEntity.ofType u.id db.id t.id caller now)))
  | dropTablePrivilege {user database table ps u db t}
    (grantee : Store.user s caller.orgId user = some u)
    (inDatabase : Store.database s caller.orgId database = some db)
    (onTable : Store.table s db.id table = some t) :
    Effect caller now s (.dropTablePrivilege user database table ps)
      [.delete .tablePrivileges fun e =>
        e.userId == u.id && e.databaseId == db.id && e.tableId == t.id &&
          ps.any (sameName e.privilegeType)]
  | createColumnPrivilege {p u db t} (grantee : Store.user s caller.orgId p.user = some u)
    (inDatabase : Store.database s caller.orgId p.database = some db)
    (onTable : Store.table s db.id p.table = some t) :
    Effect caller now s (.createColumnPrivilege p)
      (Write.inserts .columnPrivileges
        (((p.privilege.flatMap fun x => x.2.map fun y => (x.1, y)).filter fun x =>
          !(Store.columnPrivilege s u.id db.id t.id).contains x).map
            (ColumnPrivilegeEntity.ofType u.id db.id t.id caller now)))
  | dropColumnPrivilege {user database table ps u db t}
    (grantee : Store.user s caller.orgId user = some u)
    (inDatabase : Store.database s caller.orgId database = some db)
    (onTable : Store.table s db.id table = some t) :
    Effect caller now s (.dropColumnPrivilege user database table ps)
      ((JdbcCatalog.typeToColumns ps).map fun x => .delete .columnPrivileges fun e =>
        e.userId == u.id && e.databaseId == db.id && e.tableId == t.id &&
          sameName e.privilegeType x.1 && x.2.any (sameName e.column))
  | createGroup {d ign} (free : Store.group s caller.orgId d.name = none) :
    Effect caller now s (.createGroup d ign)
      [.insert .groups (GroupEntity.ofDefinition d caller now)]
  | renameGroup {group newGroup g} (found : Store.group s caller.orgId group = some g)
    (free : Store.group s caller.orgId newGroup = none) :
    Effect caller now s (.renameGroup group newGroup)
      [.update .groups (fun t => t.organizationId == caller.orgId && sameName t.name group)
        fun t => { t with name := newGroup, updateBy := caller.userId, updateTime := now }]
  | alterGroup {d g} (found : Store.group s caller.orgId d.name = some g) :
    Effect caller now s (.alterGroup d)
      [.update .groups (fun t => t.id == g.id) fun _ => GroupEntity.touched g caller now]
  | dropGroupCascade {group ign g} (found : Store.group s caller.orgId group = some g)
    (rels : Store.members s g.id ≠ []) :
    Effect caller now s (.dropGroup group ign true)
      [.delete .groupUserRels fun rel => rel.groupId == g.id,
        .delete .groups fun t => t.id == g.id]
  | dropGroup {group ign cascade g} (found : Store.group s caller.orgId group = some g)
    (rels : Store.members s g.id = []) :
    Effect caller now s (.dropGroup group ign cascade) [.delete .groups fun t => t.id == g.id]
  | createGroupUserRel {r g ids} (found : Store.group s caller.orgId r.group = some g)
    (users : Store.UserIds s caller.orgId
      (r.users.filter fun user => !(Store.members s g.id).contains user) ids) :
    Effect caller now s (.createGroupUserRel r)
      (Write.inserts .groupUserRels (ids.map (GroupUserRelEntity.ofUser g.id caller now)))
  | dropGroupUserRel {r g ids} (found : Store.group s caller.orgId r.group = some g)
    (users : Store.UserIds s caller.orgId r.users ids) :
    Effect caller now s (.dropGroupUserRel r)
      [.delete .groupUserRels fun rel => rel.groupId == g.id && ids.contains rel.userId]

/-! ### Operations do their effects -/

variable {caller : User} {now : Nat}

/-- Run alone from `s`, the action does one of the effects of `op` or fails and does nothing. -/
def Does (caller : User) (now : Nat) (s : Store) (op : Operation) (m : DBIO Unit) : Prop :=
  m.wp (fun _ s' => ∃ ws, Effect caller now s op ws ∧ s' = execAll ws s) (fun s' => s' = s) s

section Does

variable (s : Store) (ign cascade : Bool)

/-! #### Queries -/

lemma does_createQuery (d : CatalogQuery) :
    Does caller now s (.createQuery d ign)
      (JdbcCatalog.createQuery d ign caller now) := by
  simp only [Does, JdbcCatalog.createQuery, Action.wp_bind, wp_queryExists]
  cases h : Store.query s caller.orgId d.name with
  | some e =>
    cases ign
    · rfl
    · exact ⟨[], .idle _, rfl⟩
  | none => exact ⟨_, .createQuery h, rfl⟩

lemma does_dropQuery (query : String) :
    Does caller now s (.dropQuery query ign)
      (JdbcCatalog.dropQuery query ign caller) := by
  simp only [Does, JdbcCatalog.dropQuery, Action.wp_bind, wp_getQuery]
  cases h : Store.query s caller.orgId query with
  | some e => exact ⟨_, .dropQuery h, rfl⟩
  | none =>
    cases ign
    · rfl
    · exact ⟨[], .idle _, rfl⟩

lemma does_alterQuery (d : CatalogQuery) :
    Does caller now s (.alterQuery d)
      (JdbcCatalog.alterQuery d caller now) := by
  simp only [Does, JdbcCatalog.alterQuery, Action.wp_bind, wp_getQuery]
  cases h : Store.query s caller.orgId d.name with
  | some e => exact ⟨_, .alterQuery h, rfl⟩
  | none => rfl

/-! #### Organizations -/

lemma does_createOrganization (d : CatalogOrganization) :
    Does caller now s (.createOrganization d ign)
      (JdbcCatalog.createOrganization d ign caller now) := by
  simp only [Does, JdbcCatalog.createOrganization, Action.wp_bind,
    wp_organizationExists]
  cases h : Store.organization s d.name with
  | some e =>
    cases ign
    · rfl
    · exact ⟨[], .idle _, rfl⟩
  | none => exact ⟨_, .createOrganization h, rfl⟩

lemma does_dropOrganization (org : String) :
    Does caller now s (.dropOrganization org ign cascade)
      (JdbcCatalog.dropOrganization org ign cascade) := by
  simp only [Does, JdbcCatalog.dropOrganization, Action.wp_bind,
    wp_getOrganization]
  cases h : Store.organization s org with
  | none =>
    cases ign
    · rfl
    · exact ⟨[], .idle _, rfl⟩
  | some o =>
    cases cascade with
    | true => exact ⟨_, .dropOrganizationCascade h, rfl⟩
    | false =>
      show (if (Store.listDatabases s o.id).isEmpty && (Store.listUsers s o.id).isEmpty &&
          (Store.listTimedEvents s o.id).isEmpty && (Store.listProcedures s o.id).isEmpty &&
          (Store.listGroups s o.id).isEmpty then JdbcDao.deleteOrganization org
        else .throw _).wp _ _ s
      split
      · rename_i hempty
        simp only [Bool.and_eq_true, List.isEmpty_iff] at hempty
        obtain ⟨⟨⟨⟨hd, hu⟩, he⟩, hp⟩, hg⟩ := hempty
        exact ⟨_, .dropOrganization h hd hu he hp hg, rfl⟩
      · rfl

lemma does_renameOrganization (org newOrg : String) :
    Does caller now s (.renameOrganization org newOrg)
      (JdbcCatalog.renameOrganization org newOrg caller now) := by
  simp only [Does, JdbcCatalog.renameOrganization, Action.wp_bind,
    wp_organizationExists]
  cases h : Store.organization s org with
  | none => rfl
  | some e =>
    simp only [Option.isSome_some, Action.wp_bind, wp_organizationExists]
    cases h' : Store.organization s newOrg with
    | some e' => rfl
    | none => exact ⟨_, .renameOrganization h h', rfl⟩

lemma does_alterOrganization (d : CatalogOrganization) :
    Does caller now s (.alterOrganization d)
      (JdbcCatalog.alterOrganization d caller now) := by
  simp only [Does, JdbcCatalog.alterOrganization, Action.wp_bind,
    wp_getOrganization]
  cases h : Store.organization s d.name with
  | some e => exact ⟨_, .alterOrganization h, rfl⟩
  | none => rfl

/-! #### Users -/

lemma wp_createUser {d : CatalogUser} {Q : Unit → Store → Prop} {X : Store → Prop} :
    (JdbcCatalog.createUser d ign caller now).wp Q X s ↔
      (Store.organization s d.org = none → X s) ∧
        ∀ o, Store.organization s d.org = some o →
          (∀ u, Store.user s o.id d.name = some u → if ign then Q () s else X s) ∧
          (Store.user s o.id d.name = none →
            Q () (execAll [.insert .users (.ofDefinition d o.id caller now)] s)) := by
  simp only [JdbcCatalog.createUser, Action.wp_bind, wp_organizationId]
  cases Store.organization s d.org with
  | none => simp
  | some o =>
    simp only [wp_userExists]
    cases huser : Store.user s o.id d.name with
    | none =>
      change Q () (execAll [.insert .users (.ofDefinition d o.id caller now)] s) ↔ _
      simp [huser]
    | some u =>
      have hidle : (pure () : DBIO Unit).wp Q X s ↔ Q () s := Iff.rfl
      cases ign <;> simp [huser, hidle]

lemma does_createUser (d : CatalogUser) : Does caller now s (.createUser d ign)
      (JdbcCatalog.createUser d ign caller now) := by
  rw [Does, wp_createUser]
  refine ⟨fun _ => rfl, fun o ho => ⟨fun u _ => ?_, fun h => ⟨_, .createUser ho h, rfl⟩⟩⟩
  cases ign
  · rfl
  · exact ⟨[], .idle _, rfl⟩

lemma does_dropUser (org user : String) : Does caller now s (.dropUser org user ign)
      (JdbcCatalog.dropUser org user ign) := by
  simp only [Does, JdbcCatalog.dropUser, Action.wp_bind, wp_organizationId]
  cases ho : Store.organization s org with
  | none => trivial
  | some o =>
    simp only [wp_getUser]
    cases h : Store.user s o.id user with
    | some u => exact ⟨_, .dropUser ho h, rfl⟩
    | none =>
      cases ign
      · rfl
      · exact ⟨[], .idle _, rfl⟩

lemma wp_renameUser {org user newUser : String} {Q : Unit → Store → Prop} {X : Store → Prop} :
    (JdbcCatalog.renameUser org user newUser caller now).wp Q X s ↔
      (Store.organization s org = none → X s) ∧
        ∀ o, Store.organization s org = some o →
          (Store.user s o.id user = none → X s) ∧
          ∀ u, Store.user s o.id user = some u →
            (∀ v, Store.user s o.id newUser = some v → X s) ∧
            (Store.user s o.id newUser = none →
              Q () (execAll [.update .users (fun t => sameName t.name user) fun t =>
                { t with name := newUser, updateBy := caller.userId, updateTime := now }] s)) := by
  simp only [JdbcCatalog.renameUser, Action.wp_bind, wp_organizationId]
  cases Store.organization s org with
  | none => simp
  | some o =>
    simp only [wp_userExists]
    cases huser : Store.user s o.id user with
    | none => simp [huser]
    | some u =>
      cases hnew : Store.user s o.id newUser with
      | none => simp [JdbcDao.renameUser, huser, hnew]
      | some v => simp [huser, hnew]

lemma does_renameUser (org user newUser : String) :
    Does caller now s (.renameUser org user newUser)
      (JdbcCatalog.renameUser org user newUser caller now) := by
  rw [Does, wp_renameUser]
  refine ⟨fun _ => rfl, fun o ho => ⟨fun _ => rfl, fun u h => ⟨fun _ _ => rfl, fun h' => ?_⟩⟩⟩
  exact ⟨_, .renameUser ho h h', rfl⟩

lemma wp_alterUser {d : CatalogUser} {Q : Unit → Store → Prop} {X : Store → Prop} :
    (JdbcCatalog.alterUser d caller now).wp Q X s ↔
      (Store.organization s d.org = none → X s) ∧
        ∀ o, Store.organization s d.org = some o →
          (Store.user s o.id d.name = none → X s) ∧
          ∀ u, Store.user s o.id d.name = some u →
            Q () (execAll [.update .users (fun t => t.id == u.id) fun _ =>
              u.altered d caller now] s) := by
  simp only [JdbcCatalog.alterUser, Action.wp_bind, wp_organizationId]
  cases Store.organization s d.org with
  | none => simp
  | some o =>
    simp only [wp_getUser]
    cases huser : Store.user s o.id d.name with
    | none => simp [huser]
    | some u =>
      change Q () (execAll [.update .users (fun t => t.id == u.id) fun _ =>
        u.altered d caller now] s) ↔ _
      simp [huser]

lemma does_alterUser (d : CatalogUser) : Does caller now s (.alterUser d)
      (JdbcCatalog.alterUser d caller now) := by
  rw [Does, wp_alterUser]
  exact ⟨fun _ => rfl, fun o ho => ⟨fun _ => rfl, fun u h => ⟨_, .alterUser ho h, rfl⟩⟩⟩

/-! #### Procedures and timed events -/

lemma does_createProcedure (d : CatalogProcedure) :
    Does caller now s (.createProcedure d ign)
      (JdbcCatalog.createProcedure d ign caller now) := by
  simp only [Does, JdbcCatalog.createProcedure, Action.wp_bind,
    wp_procedureExists]
  cases h : Store.procedure s caller.orgId d.name with
  | some e =>
    cases ign
    · rfl
    · exact ⟨[], .idle _, rfl⟩
  | none => exact ⟨_, .createProcedure h, rfl⟩

lemma does_dropProcedure (proc : String) : Does caller now s (.dropProcedure proc ign)
      (JdbcCatalog.dropProcedure proc ign caller) := by
  simp only [Does, JdbcCatalog.dropProcedure, Action.wp_bind, wp_getProcedure]
  cases h : Store.procedure s caller.orgId proc with
  | none =>
    cases ign
    · rfl
    · exact ⟨[], .idle _, rfl⟩
  | some p =>
    simp only [Action.wp_bind, wp_timedEventExistsOf]
    cases hused : (s .timedEvents).rows.any fun t =>
        t.organizationId == caller.orgId && t.procedure == p.id with
    | true => rfl
    | false =>
      refine ⟨_, .dropProcedure h ?_, rfl⟩
      simpa using hused

lemma does_renameProcedure (proc newProc : String) :
    Does caller now s (.renameProcedure proc newProc)
      (JdbcCatalog.renameProcedure proc newProc caller now) := by
  simp only [Does, JdbcCatalog.renameProcedure, Action.wp_bind,
    wp_procedureExists]
  cases h : Store.procedure s caller.orgId proc with
  | none => rfl
  | some e =>
    simp only [Option.isSome_some, Action.wp_bind, wp_procedureExists]
    cases h' : Store.procedure s caller.orgId newProc with
    | some e' => rfl
    | none => exact ⟨_, .renameProcedure h h', rfl⟩

lemma does_alterProcedure (d : CatalogProcedure) :
    Does caller now s (.alterProcedure d)
      (JdbcCatalog.alterProcedure d caller now) := by
  simp only [Does, JdbcCatalog.alterProcedure, Action.wp_bind, wp_getProcedure]
  cases h : Store.procedure s caller.orgId d.name with
  | some e => exact ⟨_, .alterProcedure h, rfl⟩
  | none => rfl

lemma does_createTimedEvent (d : CatalogTimedEvent) :
    Does caller now s (.createTimedEvent d ign)
      (JdbcCatalog.createTimedEvent d ign caller now) := by
  simp only [Does, JdbcCatalog.createTimedEvent, Action.wp_bind,
    wp_timedEventExists]
  cases h : Store.timedEvent s caller.orgId d.name with
  | some e =>
    cases ign
    · rfl
    · exact ⟨[], .idle _, rfl⟩
  | none =>
    simp only [Option.isSome_none, Action.wp_bind, wp_getProcedure]
    cases hp : Store.procedure s caller.orgId d.procedure with
    | none => rfl
    | some p =>
      simp only [Action.wp_bind, wp_userId]
      cases hu : Store.user s caller.orgId d.definer with
      | none => trivial
      | some u => exact ⟨_, .createTimedEvent h hp hu, rfl⟩

lemma does_renameTimedEvent (event newEvent : String) :
    Does caller now s (.renameTimedEvent event newEvent)
      (JdbcCatalog.renameTimedEvent event newEvent caller now) := by
  simp only [Does, JdbcCatalog.renameTimedEvent, Action.wp_bind,
    wp_timedEventExists]
  cases h : Store.timedEvent s caller.orgId event with
  | none => rfl
  | some e =>
    simp only [Option.isSome_some, Action.wp_bind, wp_timedEventExists]
    cases h' : Store.timedEvent s caller.orgId newEvent with
    | some e' => rfl
    | none => exact ⟨_, .renameTimedEvent h h', rfl⟩

lemma does_alterTimedEvent (d : CatalogTimedEvent) :
    Does caller now s (.alterTimedEvent d)
      (JdbcCatalog.alterTimedEvent d caller now) := by
  simp only [Does, JdbcCatalog.alterTimedEvent, Action.wp_bind,
    wp_getTimedEvent]
  cases h : Store.timedEvent s caller.orgId d.name with
  | none => rfl
  | some e =>
    simp only [Action.wp_bind, wp_getProcedure]
    cases hp : Store.procedure s caller.orgId d.procedure with
    | none => rfl
    | some p =>
      simp only [Action.wp_bind, wp_userId]
      cases hu : Store.user s caller.orgId d.definer with
      | none => trivial
      | some u => exact ⟨_, .alterTimedEvent h hp hu, rfl⟩

lemma does_dropTimedEvent (event : String) : Does caller now s (.dropTimedEvent event ign)
      (JdbcCatalog.dropTimedEvent event ign caller) := by
  simp only [Does, JdbcCatalog.dropTimedEvent, Action.wp_bind,
    wp_timedEventExists]
  cases h : Store.timedEvent s caller.orgId event with
  | some e => exact ⟨_, .dropTimedEvent h, rfl⟩
  | none =>
    cases ign
    · rfl
    · exact ⟨[], .idle _, rfl⟩

/-! #### Databases -/

lemma does_createDatabase (d : CatalogDatabase) :
    Does caller now s (.createDatabase d ign)
      (JdbcCatalog.createDatabase d ign caller now) := by
  simp only [Does, JdbcCatalog.createDatabase, Action.wp_bind, wp_databaseExists]
  cases h : Store.database s caller.orgId (JdbcCatalog.formatDatabaseName d.name) with
  | some e =>
    cases ign
    · rfl
    · exact ⟨[], .idle _, rfl⟩
  | none => exact ⟨_, .createDatabase h, rfl⟩

lemma does_dropDatabase (database : String) :
    Does caller now s (.dropDatabase database ign cascade)
      (JdbcCatalog.dropDatabase database ign cascade caller) := by
  simp only [Does, JdbcCatalog.dropDatabase, Action.wp_bind, wp_getDatabase]
  cases h : Store.database s caller.orgId (JdbcCatalog.formatDatabaseName database) with
  | none =>
    cases ign
    · rfl
    · exact ⟨[], .idle _, rfl⟩
  | some db =>
    cases cascade with
    | true => exact ⟨_, .dropDatabaseCascade h, rfl⟩
    | false =>
      simp only [Bool.false_eq_true, if_false, Action.wp_transactionally]
      show (if (Store.listTables s db.id).isEmpty && (Store.listFunctions s db.id).isEmpty then
          JdbcDao.deleteDatabase caller.orgId (JdbcCatalog.formatDatabaseName database)
        else .throw _).wp _ _ s
      split
      · rename_i hempty
        simp only [Bool.and_eq_true, List.isEmpty_iff] at hempty
        exact ⟨_, .dropDatabase h hempty.1 hempty.2, rfl⟩
      · trivial

lemma does_renameDatabase (db newDb : String) :
    Does caller now s (.renameDatabase db newDb)
      (JdbcCatalog.renameDatabase db newDb caller now) := by
  simp only [Does, JdbcCatalog.renameDatabase, Action.wp_bind, wp_databaseExists]
  cases h : Store.database s caller.orgId (JdbcCatalog.formatDatabaseName db) with
  | none => rfl
  | some e =>
    simp only [Option.isSome_some, Action.wp_bind, wp_databaseExists]
    cases h' : Store.database s caller.orgId (JdbcCatalog.formatDatabaseName newDb) with
    | some e' => rfl
    | none => exact ⟨_, .renameDatabase h h', rfl⟩

lemma does_alterDatabase (d : CatalogDatabase) :
    Does caller now s (.alterDatabase d)
      (JdbcCatalog.alterDatabase d caller now) := by
  simp only [Does, JdbcCatalog.alterDatabase, Action.wp_bind, wp_getDatabase]
  cases h : Store.database s caller.orgId (JdbcCatalog.formatDatabaseName d.name) with
  | some e => exact ⟨_, .alterDatabase h, rfl⟩
  | none => rfl

/-! #### Tables -/

lemma does_createTable (d : CatalogTable) : Does caller now s (.createTable d ign)
      (JdbcCatalog.createTable d ign caller now) := by
  simp only [Does, JdbcCatalog.createTable]
  cases hdb : d.db with
  | none => rfl
  | some db =>
    simp only [Action.wp_bind, wp_getDatabase]
    cases hd : Store.database s caller.orgId db with
    | none => rfl
    | some dbEntity =>
      simp only [Action.wp_bind, wp_getTable]
      cases h : Store.table s dbEntity.id d.name with
      | some t =>
        cases ign
        · rfl
        · exact ⟨[], .idle _, rfl⟩
      | none => exact ⟨_, .createTable hdb hd h, rfl⟩

lemma does_dropTable (db table : String) : Does caller now s (.dropTable db table ign)
      (JdbcCatalog.dropTable db table ign caller) := by
  simp only [Does, JdbcCatalog.dropTable, Action.wp_bind, wp_getDatabase]
  cases hd : Store.database s caller.orgId db with
  | none => rfl
  | some dbEntity =>
    simp only [Action.wp_bind, wp_getTable]
    cases h : Store.table s dbEntity.id table with
    | some t => exact ⟨_, .dropTable hd h, rfl⟩
    | none =>
      cases ign
      · rfl
      · exact ⟨[], .idle _, rfl⟩

lemma does_renameTable (db table newTable : String) :
    Does caller now s (.renameTable db table newTable)
      (JdbcCatalog.renameTable db table newTable caller now) := by
  simp only [Does, JdbcCatalog.renameTable, Action.wp_bind, wp_getDatabase]
  cases hd : Store.database s caller.orgId db with
  | none => rfl
  | some dbEntity =>
    simp only [Action.wp_bind, wp_tableExists]
    cases h : Store.table s dbEntity.id table with
    | none => rfl
    | some t =>
      simp only [Option.isSome_some, Action.wp_bind, wp_tableExists]
      cases h' : Store.table s dbEntity.id newTable with
      | some t' => rfl
      | none => exact ⟨_, .renameTable hd h h', rfl⟩

lemma does_alterTable (d : CatalogTable) : Does caller now s (.alterTable d)
      (JdbcCatalog.alterTable d caller now) := by
  simp only [Does, JdbcCatalog.alterTable]
  cases hdb : d.db with
  | none => rfl
  | some db =>
    simp only [Action.wp_bind, wp_getDatabase]
    cases hd : Store.database s caller.orgId db with
    | none => rfl
    | some dbEntity =>
      simp only [Action.wp_bind, wp_getTable]
      cases h : Store.table s dbEntity.id d.name with
      | none => rfl
      | some t => exact ⟨_, .alterTable hdb hd h, rfl⟩

/-! #### Functions -/

lemma does_createFunction (d : CatalogFunction) :
    Does caller now s (.createFunction d ign)
      (JdbcCatalog.createFunction d ign caller now) := by
  simp only [Does, JdbcCatalog.createFunction]
  cases hdb : d.db with
  | none => rfl
  | some db =>
    simp only [Action.wp_bind, wp_getDatabase]
    cases hd : Store.database s caller.orgId db with
    | none => rfl
    | some dbEntity =>
      simp only [Action.wp_bind, wp_functionExists]
      cases h : Store.function s dbEntity.id d.name with
      | some f =>
        cases ign
        · rfl
        · exact ⟨[], .idle _, rfl⟩
      | none =>
        simp only [Option.isSome_none, Action.wp_transactionally]
        exact ⟨_, .createFunction hdb hd h, rfl⟩

lemma does_dropFunction (db func : String) : Does caller now s (.dropFunction db func ign)
      (JdbcCatalog.dropFunction db func ign caller) := by
  simp only [Does, JdbcCatalog.dropFunction, Action.wp_bind, wp_getDatabase]
  cases hd : Store.database s caller.orgId db with
  | none => rfl
  | some dbEntity =>
    simp only [Action.wp_bind, wp_getFunction]
    cases h : Store.function s dbEntity.id func with
    | some f => exact ⟨_, .dropFunction hd h, rfl⟩
    | none =>
      cases ign
      · rfl
      · exact ⟨[], .idle _, rfl⟩

lemma does_renameFunction (db func newFunc : String) :
    Does caller now s (.renameFunction db func newFunc)
      (JdbcCatalog.renameFunction db func newFunc caller now) := by
  simp only [Does, JdbcCatalog.renameFunction, Action.wp_bind, wp_getDatabase]
  cases hd : Store.database s caller.orgId db with
  | none => rfl
  | some dbEntity =>
    simp only [Action.wp_bind, wp_functionExists]
    cases h : Store.function s dbEntity.id func with
    | none => rfl
    | some f =>
      simp only [Option.isSome_some, Action.wp_bind, wp_functionExists]
      cases h' : Store.function s dbEntity.id newFunc with
      | some f' => rfl
      | none => exact ⟨_, .renameFunction hd h h', rfl⟩

/-! #### Privileges -/

lemma does_createDatabasePrivilege (p : CatalogDatabasePrivilege) :
    Does caller now s (.createDatabasePrivilege p)
      (JdbcCatalog.createDatabasePrivilege p caller now) := by
  simp only [Does, JdbcCatalog.createDatabasePrivilege, Action.wp_bind, wp_userId]
  cases hu : Store.user s caller.orgId p.user with
  | none => trivial
  | some u =>
    simp only [wp_getDatabase]
    cases hd : Store.database s caller.orgId p.database with
    | none => rfl
    | some db => exact ⟨_, .createDatabasePrivilege hu hd, rfl⟩

lemma does_dropDatabasePrivilege (user database : String) (ps : List String) :
    Does caller now s (.dropDatabasePrivilege user database ps)
      (JdbcCatalog.dropDatabasePrivilege user database ps caller) := by
  simp only [Does, JdbcCatalog.dropDatabasePrivilege, Action.wp_bind, wp_userId]
  cases hu : Store.user s caller.orgId user with
  | none => trivial
  | some u =>
    simp only [wp_getDatabase]
    cases hd : Store.database s caller.orgId database with
    | none => rfl
    | some db => exact ⟨_, .dropDatabasePrivilege hu hd, rfl⟩

lemma does_createTablePrivilege (p : CatalogTablePrivilege) :
    Does caller now s (.createTablePrivilege p)
      (JdbcCatalog.createTablePrivilege p caller now) := by
  simp only [Does, JdbcCatalog.createTablePrivilege, Action.wp_bind, wp_userId]
  cases hu : Store.user s caller.orgId p.user with
  | none => trivial
  | some u =>
    simp only [wp_getDatabase]
    cases hd : Store.database s caller.orgId p.database with
    | none => rfl
    | some db =>
      simp only [Action.wp_bind, wp_getTable]
      cases ht : Store.table s db.id p.table with
      | none => rfl
      | some t => exact ⟨_, .createTablePrivilege hu hd ht, rfl⟩

lemma does_dropTablePrivilege (user database table : String) (ps : List String) :
    Does caller now s (.dropTablePrivilege user database table ps)
      (JdbcCatalog.dropTablePrivilege user database table ps caller) := by
  simp only [Does, JdbcCatalog.dropTablePrivilege, Action.wp_bind, wp_userId]
  cases hu : Store.user s caller.orgId user with
  | none => trivial
  | some u =>
    simp only [wp_getDatabase]
    cases hd : Store.database s caller.orgId database with
    | none => rfl
    | some db =>
      simp only [Action.wp_bind, wp_getTable]
      cases ht : Store.table s db.id table with
      | none => rfl
      | some t => exact ⟨_, .dropTablePrivilege hu hd ht, rfl⟩

lemma does_createColumnPrivilege (p : CatalogColumnPrivilege) :
    Does caller now s (.createColumnPrivilege p)
      (JdbcCatalog.createColumnPrivilege p caller now) := by
  simp only [Does, JdbcCatalog.createColumnPrivilege, Action.wp_bind, wp_userId]
  cases hu : Store.user s caller.orgId p.user with
  | none => trivial
  | some u =>
    simp only [wp_getDatabase]
    cases hd : Store.database s caller.orgId p.database with
    | none => rfl
    | some db =>
      simp only [Action.wp_bind, wp_getTable]
      cases ht : Store.table s db.id p.table with
      | none => rfl
      | some t => exact ⟨_, .createColumnPrivilege hu hd ht, rfl⟩

lemma does_dropColumnPrivilege (user database table : String)
    (ps : List (String × List String)) :
    Does caller now s (.dropColumnPrivilege user database table ps)
      (JdbcCatalog.dropColumnPrivilege user database table ps caller) := by
  simp only [Does, JdbcCatalog.dropColumnPrivilege, Action.wp_bind, wp_userId]
  cases hu : Store.user s caller.orgId user with
  | none => trivial
  | some u =>
    simp only [wp_getDatabase]
    cases hd : Store.database s caller.orgId database with
    | none => rfl
    | some db =>
      simp only [Action.wp_bind, wp_getTable]
      cases ht : Store.table s db.id table with
      | none => rfl
      | some t =>
        rw [Action.wp_transactionally]
        have hws : Effect caller now s (.dropColumnPrivilege user database table ps) _ :=
          .dropColumnPrivilege hu hd ht
        exact (Action.wp_forEach_delete (E := Entity) Kind.columnPrivileges _ _).mpr
          ⟨_, hws, rfl⟩

/-! #### Groups -/

lemma does_createGroup (d : CatalogGroup) :
    Does caller now s (.createGroup d ign)
      (JdbcCatalog.createGroup d ign caller now) := by
  simp only [Does, JdbcCatalog.createGroup, Action.wp_bind, wp_groupExists]
  cases h : Store.group s caller.orgId d.name with
  | some e =>
    cases ign
    · rfl
    · exact ⟨[], .idle _, rfl⟩
  | none => exact ⟨_, .createGroup h, rfl⟩

lemma does_renameGroup (group newGroup : String) :
    Does caller now s (.renameGroup group newGroup)
      (JdbcCatalog.renameGroup group newGroup caller now) := by
  simp only [Does, JdbcCatalog.renameGroup, Action.wp_bind, wp_groupExists]
  cases h : Store.group s caller.orgId group with
  | none => rfl
  | some e =>
    simp only [Option.isSome_some, Action.wp_bind, wp_groupExists]
    cases h' : Store.group s caller.orgId newGroup with
    | some e' => rfl
    | none => exact ⟨_, .renameGroup h h', rfl⟩

lemma does_alterGroup (d : CatalogGroup) :
    Does caller now s (.alterGroup d)
      (JdbcCatalog.alterGroup d caller now) := by
  simp only [Does, JdbcCatalog.alterGroup, Action.wp_bind, wp_getGroup]
  cases h : Store.group s caller.orgId d.name with
  | some e => exact ⟨_, .alterGroup h, rfl⟩
  | none => rfl

lemma does_dropGroup (group : String) : Does caller now s (.dropGroup group ign cascade)
      (JdbcCatalog.dropGroup group ign cascade caller) := by
  simp only [Does, JdbcCatalog.dropGroup, Action.wp_bind, wp_getGroup]
  cases h : Store.group s caller.orgId group with
  | none =>
    cases ign
    · rfl
    · exact ⟨[], .idle _, rfl⟩
  | some g =>
    simp only [Action.wp_bind, wp_getGroupUserRelsByGroup]
    cases hrels : Store.members s g.id with
    | nil => exact ⟨_, .dropGroup h hrels, rfl⟩
    | cons user users =>
      cases cascade with
      | false => rfl
      | true => exact ⟨_, .dropGroupCascade h (by simp [hrels]), rfl⟩

/-- Looking up the ids of users changes nothing. -/
lemma wp_userIds {X : Store → Prop} (hX : X s) (orgId : Nat) (users : List String)
    {Q : List Nat → Store → Prop} (hQ : ∀ ids, Store.UserIds s orgId users ids → Q ids s) :
    (Action.mapM (JdbcCatalog.userId orgId) users).wp Q X s := by
  apply Action.wp_mapM (R := fun user id => ∃ u, Store.user s orgId user = some u ∧ u.id = id)
  · intro user _
    rw [wp_userId]
    cases h : Store.user s orgId user with
    | none => exact hX
    | some u => exact ⟨⟨u, rfl, rfl⟩, rfl⟩
  · exact hQ

lemma does_createGroupUserRel (r : CatalogGroupUserRel) :
    Does caller now s (.createGroupUserRel r)
      (JdbcCatalog.createGroupUserRel r caller now) := by
  simp only [Does, JdbcCatalog.createGroupUserRel, Action.wp_bind, wp_getGroup]
  cases h : Store.group s caller.orgId r.group with
  | none => rfl
  | some g =>
    simp only [Action.wp_bind, wp_getGroupUserRelsByGroup]
    apply wp_userIds s (X := fun s' => s' = s) rfl
    intro ids hids
    exact ⟨_, .createGroupUserRel h hids, rfl⟩

lemma does_dropGroupUserRel (r : CatalogGroupUserRel) :
    Does caller now s (.dropGroupUserRel r)
      (JdbcCatalog.dropGroupUserRel r caller) := by
  simp only [Does, JdbcCatalog.dropGroupUserRel, Action.wp_bind, wp_getGroup]
  cases h : Store.group s caller.orgId r.group with
  | none => rfl
  | some g =>
    simp only [Action.wp_bind]
    apply wp_userIds s (X := fun s' => s' = s) rfl
    intro ids hids
    exact ⟨_, .dropGroupUserRel h hids, rfl⟩

end Does

/-- Every operation does one of its effects or fails and does nothing. -/
theorem does (s : Store) (op : Operation) : Does caller now s op (op.action caller now) := by
  cases op with
  | createQuery d ign => exact does_createQuery s ign d
  | dropQuery query ign => exact does_dropQuery s ign query
  | alterQuery d => exact does_alterQuery s d
  | createOrganization d ign => exact does_createOrganization s ign d
  | dropOrganization org ign cascade => exact does_dropOrganization s ign cascade org
  | renameOrganization org newOrg => exact does_renameOrganization s org newOrg
  | alterOrganization d => exact does_alterOrganization s d
  | createUser d ign => exact does_createUser s ign d
  | dropUser org user ign => exact does_dropUser s ign org user
  | renameUser org user newUser => exact does_renameUser s org user newUser
  | alterUser d => exact does_alterUser s d
  | createProcedure d ign => exact does_createProcedure s ign d
  | dropProcedure proc ign => exact does_dropProcedure s ign proc
  | renameProcedure proc newProc => exact does_renameProcedure s proc newProc
  | alterProcedure d => exact does_alterProcedure s d
  | createTimedEvent d ign => exact does_createTimedEvent s ign d
  | renameTimedEvent event newEvent => exact does_renameTimedEvent s event newEvent
  | alterTimedEvent d => exact does_alterTimedEvent s d
  | dropTimedEvent event ign => exact does_dropTimedEvent s ign event
  | createDatabase d ign => exact does_createDatabase s ign d
  | dropDatabase database ign cascade => exact does_dropDatabase s ign cascade database
  | renameDatabase db newDb => exact does_renameDatabase s db newDb
  | alterDatabase d => exact does_alterDatabase s d
  | createTable d ign => exact does_createTable s ign d
  | dropTable database table ign => exact does_dropTable s ign database table
  | renameTable database table newTable => exact does_renameTable s database table newTable
  | alterTable d => exact does_alterTable s d
  | createFunction d ign => exact does_createFunction s ign d
  | dropFunction database func ign => exact does_dropFunction s ign database func
  | renameFunction database func newFunc => exact does_renameFunction s database func newFunc
  | createDatabasePrivilege p => exact does_createDatabasePrivilege s p
  | dropDatabasePrivilege user database ps => exact does_dropDatabasePrivilege s user database ps
  | createTablePrivilege p => exact does_createTablePrivilege s p
  | dropTablePrivilege user database table ps =>
    exact does_dropTablePrivilege s user database table ps
  | createColumnPrivilege p => exact does_createColumnPrivilege s p
  | dropColumnPrivilege user database table ps =>
    exact does_dropColumnPrivilege s user database table ps
  | createGroup d ign => exact does_createGroup s ign d
  | renameGroup group newGroup => exact does_renameGroup s group newGroup
  | alterGroup d => exact does_alterGroup s d
  | dropGroup group ign cascade => exact does_dropGroup s ign cascade group
  | createGroupUserRel r => exact does_createGroupUserRel s r
  | dropGroupUserRel r => exact does_dropGroupUserRel s r

/-- The state an operation leaves behind when it runs alone. -/
def Operation.exec (op : Operation) (caller : User) (now : Nat) (s : Store) : Store :=
  (op.action caller now).run.exec s

/-- A sequence of operations, each with its user and its time. -/
def execOperations (ops : List (User × Nat × Operation)) (s : Store) : Store :=
  ops.foldl (fun s op => op.2.2.exec op.1 op.2.1 s) s

/-- Whether the operation ends without an exception. -/
def Operation.succeeds (op : Operation) (caller : User) (now : Nat) (s : Store) : Bool :=
  (op.action caller now).run.succeeds s

lemma Operation.exec_of_succeeds {op : Operation} {s : Store}
    (h : op.succeeds caller now s = true) :
    ∃ ws, Effect caller now s op ws ∧ op.exec caller now s = execAll ws s :=
  Actor.Handler.of_wp_of_succeeds (P := fun s' => ∃ ws, Effect caller now s op ws ∧
    s' = execAll ws s) (does s op) h

/-- A failed operation leaves the catalog as it was. -/
theorem Operation.exec_of_fails {op : Operation} {s : Store}
    (h : op.succeeds caller now s = false) : op.exec caller now s = s :=
  Actor.Handler.of_wp_of_fails (P := fun s' => s' = s) (does s op) h

lemma Operation.exec_effect (op : Operation) (caller : User) (now : Nat) (s : Store) :
    ∃ ws, Effect caller now s op ws ∧ op.exec caller now s = execAll ws s := by
  cases h : op.succeeds caller now s with
  | true => exact Operation.exec_of_succeeds h
  | false => exact ⟨[], .idle op, Operation.exec_of_fails h⟩

end Moonbox.Catalog
