import Moonbox.Catalog.JdbcCatalog

/-!
# What an operation can do

The operations that write the catalog as one type, and for each what it can do to the state it
finds: the writes of its last step, with what it has looked up before. An operation that fails
writes nothing.
-/

namespace Moonbox.Catalog

open Relational

variable [Names]

/-! ### Lookups -/

def Store.organization (s : Store) (org : String) : Option OrganizationEntity :=
  (s .organizations).rows.find? fun t => sameName t.name org

def Store.user (s : Store) (orgId : Nat) (user : String) : Option UserEntity :=
  (s .users).rows.find? fun t => t.organizationId == orgId && sameName t.name user

def Store.group (s : Store) (orgId : Nat) (group : String) : Option GroupEntity :=
  (s .groups).rows.find? fun t => t.organizationId == orgId && sameName t.name group

def Store.database (s : Store) (orgId : Nat) (database : String) : Option DatabaseEntity :=
  (s .databases).rows.find? fun t => t.organizationId == orgId && sameName t.name database

def Store.table (s : Store) (dbId : Nat) (table : String) : Option TableEntity :=
  (s .tables).rows.find? fun t => t.databaseId == dbId && sameName t.name table

def Store.function (s : Store) (dbId : Nat) (func : String) : Option FunctionEntity :=
  (s .functions).rows.find? fun t => t.databaseId == dbId && sameName t.name func

def Store.procedure (s : Store) (orgId : Nat) (proc : String) : Option ProcedureEntity :=
  (s .procedures).rows.find? fun t => t.organizationId == orgId && sameName t.name proc

def Store.timedEvent (s : Store) (orgId : Nat) (event : String) : Option TimedEventEntity :=
  (s .timedEvents).rows.find? fun t => t.organizationId == orgId && sameName t.name event

def Store.query (s : Store) (orgId : Nat) (query : String) : Option QueryEntity :=
  (s .queries).rows.find? fun t => t.organizationId == orgId && sameName t.name query

section Lookups

variable {s : Store} {orgId dbId : Nat} {name : String}

lemma Store.organization_some {o : OrganizationEntity} (h : Store.organization s name = some o) :
    o ∈ (s .organizations).rows ∧ sameName o.name name = true := by
  have hcond := List.find?_some h
  exact ⟨List.mem_of_find?_eq_some h, hcond⟩

lemma Store.organization_none (h : Store.organization s name = none) {o : OrganizationEntity}
    (ho : o ∈ (s .organizations).rows) : sameName o.name name = false := by
  simpa using List.find?_eq_none.mp h o ho

/-- A lookup by scope and name finds a row of that scope and name. -/
lemma find?_scoped {ε : Type} {scope : ε → Nat} {nameOf : ε → String} {l : List ε} {n : Nat}
    {r : ε}
    (h : (l.find? fun t => scope t == n && sameName (nameOf t) name) = some r) :
    r ∈ l ∧ scope r = n ∧ sameName (nameOf r) name = true := by
  have hcond := List.find?_some h
  simp only [Bool.and_eq_true, beq_iff_eq] at hcond
  exact ⟨List.mem_of_find?_eq_some h, hcond⟩

lemma find?_scoped_none {ε : Type} {scope : ε → Nat} {nameOf : ε → String} {l : List ε}
    {n : Nat} {r : ε} (h : (l.find? fun t => scope t == n && sameName (nameOf t) name) = none)
    (hr : r ∈ l)
    (hn : scope r = n) : sameName (nameOf r) name = false := by
  have hcond := List.find?_eq_none.mp h r hr
  simpa [hn] using hcond

lemma Store.user_some {u : UserEntity} (h : Store.user s orgId name = some u) :
    u ∈ (s .users).rows ∧ u.organizationId = orgId ∧ sameName u.name name = true :=
  find?_scoped h

lemma Store.user_none (h : Store.user s orgId name = none) {u : UserEntity}
    (hu : u ∈ (s .users).rows) (hscope : u.organizationId = orgId) :
    sameName u.name name = false :=
  find?_scoped_none h hu hscope

lemma Store.group_some {g : GroupEntity} (h : Store.group s orgId name = some g) :
    g ∈ (s .groups).rows ∧ g.organizationId = orgId ∧ sameName g.name name = true :=
  find?_scoped h

lemma Store.group_none (h : Store.group s orgId name = none) {g : GroupEntity}
    (hg : g ∈ (s .groups).rows) (hscope : g.organizationId = orgId) :
    sameName g.name name = false :=
  find?_scoped_none h hg hscope

lemma Store.database_some {d : DatabaseEntity} (h : Store.database s orgId name = some d) :
    d ∈ (s .databases).rows ∧ d.organizationId = orgId ∧ sameName d.name name = true :=
  find?_scoped h

lemma Store.database_none (h : Store.database s orgId name = none) {d : DatabaseEntity}
    (hd : d ∈ (s .databases).rows) (hscope : d.organizationId = orgId) :
    sameName d.name name = false :=
  find?_scoped_none h hd hscope

lemma Store.table_some {t : TableEntity} (h : Store.table s dbId name = some t) :
    t ∈ (s .tables).rows ∧ t.databaseId = dbId ∧ sameName t.name name = true :=
  find?_scoped h

lemma Store.table_none (h : Store.table s dbId name = none) {t : TableEntity}
    (ht : t ∈ (s .tables).rows) (hscope : t.databaseId = dbId) :
    sameName t.name name = false :=
  find?_scoped_none h ht hscope

lemma Store.function_some {f : FunctionEntity} (h : Store.function s dbId name = some f) :
    f ∈ (s .functions).rows ∧ f.databaseId = dbId ∧ sameName f.name name = true :=
  find?_scoped h

lemma Store.function_none (h : Store.function s dbId name = none) {f : FunctionEntity}
    (hf : f ∈ (s .functions).rows) (hscope : f.databaseId = dbId) :
    sameName f.name name = false :=
  find?_scoped_none h hf hscope

lemma Store.procedure_some {p : ProcedureEntity} (h : Store.procedure s orgId name = some p) :
    p ∈ (s .procedures).rows ∧ p.organizationId = orgId ∧ sameName p.name name = true :=
  find?_scoped h

lemma Store.procedure_none (h : Store.procedure s orgId name = none) {p : ProcedureEntity}
    (hp : p ∈ (s .procedures).rows) (hscope : p.organizationId = orgId) :
    sameName p.name name = false :=
  find?_scoped_none h hp hscope

lemma Store.timedEvent_some {e : TimedEventEntity} (h : Store.timedEvent s orgId name = some e) :
    e ∈ (s .timedEvents).rows ∧ e.organizationId = orgId ∧ sameName e.name name = true :=
  find?_scoped h

lemma Store.timedEvent_none (h : Store.timedEvent s orgId name = none) {e : TimedEventEntity}
    (he : e ∈ (s .timedEvents).rows) (hscope : e.organizationId = orgId) :
    sameName e.name name = false :=
  find?_scoped_none h he hscope

lemma Store.query_some {q : QueryEntity} (h : Store.query s orgId name = some q) :
    q ∈ (s .queries).rows ∧ q.organizationId = orgId ∧ sameName q.name name = true :=
  find?_scoped h

lemma Store.query_none (h : Store.query s orgId name = none) {q : QueryEntity}
    (hq : q ∈ (s .queries).rows) (hscope : q.organizationId = orgId) :
    sameName q.name name = false :=
  find?_scoped_none h hq hscope

end Lookups

/-- The names of the members of a group. -/
def Store.members (s : Store) (groupId : Nat) : List String :=
  ((s .groupUserRels).rows.filter fun rel => rel.groupId == groupId).flatMap fun rel =>
    ((s .users).rows.filter fun user => rel.userId == user.id).map UserEntity.name

def Store.listDatabases (s : Store) (orgId : Nat) : List (DatabaseEntity × UserEntity) :=
  ((s .databases).rows.filter fun t => t.organizationId == orgId).flatMap fun t =>
    ((s .users).rows.filter fun u => u.organizationId == orgId && t.createBy == u.id).map
      fun u => (t, u)

def Store.listUsers (s : Store) (orgId : Nat) : List (UserEntity × UserEntity) :=
  ((s .users).rows.filter fun t => t.organizationId == orgId).flatMap fun t =>
    ((s .users).rows.filter fun u => t.createBy == u.id).map fun u => (t, u)

def Store.listProcedures (s : Store) (orgId : Nat) : List (ProcedureEntity × UserEntity) :=
  ((s .procedures).rows.filter fun t => t.organizationId == orgId).flatMap fun t =>
    ((s .users).rows.filter fun u => t.createBy == u.id).map fun u => (t, u)

def Store.listTimedEvents (s : Store) (orgId : Nat) : List TimedEventEntity :=
  (s .timedEvents).rows.filter fun t => t.organizationId == orgId

def Store.listGroups (s : Store) (orgId : Nat) : List GroupEntity :=
  (s .groups).rows.filter fun t => t.organizationId == orgId

def Store.listTables (s : Store) (dbId : Nat) : List (TableEntity × UserEntity) :=
  ((s .tables).rows.filter fun t => t.databaseId == dbId).flatMap fun t =>
    ((s .users).rows.filter fun u => t.createBy == u.id).map fun u => (t, u)

def Store.listFunctions (s : Store) (dbId : Nat) :
    List (FunctionEntity × FunctionResourceEntity) :=
  ((s .functions).rows.filter fun t => t.databaseId == dbId).flatMap fun t =>
    ((s .functionResources).rows.filter fun r => t.id == r.funcId).map fun r => (t, r)

/-- The types of the privileges of a user on a table. -/
def Store.tablePrivilege (s : Store) (uId dbId tbId : Nat) : List String :=
  ((s .tablePrivileges).rows.filter fun t =>
    t.userId == uId && t.databaseId == dbId && t.tableId == tbId).map
      TablePrivilegeEntity.privilegeType

/-- The columns of a table on which a user has privileges, with their types. -/
def Store.columnPrivilege (s : Store) (uId dbId tbId : Nat) : List (String × String) :=
  ((s .columnPrivileges).rows.filter fun t =>
    t.userId == uId && t.databaseId == dbId && t.tableId == tbId).map
      fun en => (en.column, en.privilegeType)

/-- The users of these names in an organization have these ids. -/
def Store.UserIds (s : Store) (orgId : Nat) (users : List String) (ids : List Nat) : Prop :=
  List.Forall₂ (fun user id => ∃ u, Store.user s orgId user = some u ∧ u.id = id) users ids

/-! ### What the statements answer -/

section Statements

open JdbcDao Action

variable {X : Store → Prop} {s : Store} (orgId dbId : Nat) (name : String)

omit [Names] in
lemma wp_exist (k : Kind) (cond : Entity k → Bool) {Q : Bool → Store → Prop} :
    wp (exist k cond) Q X s ↔ Q ((s k).rows.find? cond).isSome s := by
  have h : ((s k).rows.find? cond).isSome = (s k).rows.any cond := by
    rw [Bool.eq_iff_iff, List.find?_isSome, List.any_eq_true]
  rw [h]
  rfl

@[simp] lemma wp_getOrganization {Q : Option OrganizationEntity → Store → Prop} :
    wp (getOrganization name) Q X s ↔ Q (Store.organization s name) s := Iff.rfl

@[simp] lemma wp_organizationExists {Q : Bool → Store → Prop} :
    wp (organizationExists name) Q X s ↔ Q (Store.organization s name).isSome s :=
  wp_exist .organizations _

@[simp] lemma wp_getUser {Q : Option UserEntity → Store → Prop} :
    wp (getUser orgId name) Q X s ↔ Q (Store.user s orgId name) s := Iff.rfl

@[simp] lemma wp_userExists {Q : Bool → Store → Prop} :
    wp (userExists orgId name) Q X s ↔ Q (Store.user s orgId name).isSome s :=
  wp_exist .users _

@[simp] lemma wp_getGroup {Q : Option GroupEntity → Store → Prop} :
    wp (getGroup orgId name) Q X s ↔ Q (Store.group s orgId name) s := Iff.rfl

@[simp] lemma wp_groupExists {Q : Bool → Store → Prop} :
    wp (groupExists orgId name) Q X s ↔ Q (Store.group s orgId name).isSome s :=
  wp_exist .groups _

@[simp] lemma wp_getDatabase {Q : Option DatabaseEntity → Store → Prop} :
    wp (getDatabase orgId name) Q X s ↔ Q (Store.database s orgId name) s := Iff.rfl

@[simp] lemma wp_databaseExists {Q : Bool → Store → Prop} :
    wp (databaseExists orgId name) Q X s ↔ Q (Store.database s orgId name).isSome s :=
  wp_exist .databases _

@[simp] lemma wp_getTable {Q : Option TableEntity → Store → Prop} :
    wp (getTable dbId name) Q X s ↔ Q (Store.table s dbId name) s := Iff.rfl

@[simp] lemma wp_tableExists {Q : Bool → Store → Prop} :
    wp (tableExists dbId name) Q X s ↔ Q (Store.table s dbId name).isSome s :=
  wp_exist .tables _

@[simp] lemma wp_getFunction {Q : Option FunctionEntity → Store → Prop} :
    wp (getFunction dbId name) Q X s ↔ Q (Store.function s dbId name) s := Iff.rfl

@[simp] lemma wp_functionExists {Q : Bool → Store → Prop} :
    wp (functionExists dbId name) Q X s ↔ Q (Store.function s dbId name).isSome s :=
  wp_exist .functions _

@[simp] lemma wp_getProcedure {Q : Option ProcedureEntity → Store → Prop} :
    wp (getProcedure orgId name) Q X s ↔ Q (Store.procedure s orgId name) s := Iff.rfl

@[simp] lemma wp_procedureExists {Q : Bool → Store → Prop} :
    wp (procedureExists orgId name) Q X s ↔ Q (Store.procedure s orgId name).isSome s :=
  wp_exist .procedures _

@[simp] lemma wp_getTimedEvent {Q : Option TimedEventEntity → Store → Prop} :
    wp (getTimedEvent orgId name) Q X s ↔ Q (Store.timedEvent s orgId name) s := Iff.rfl

@[simp] lemma wp_timedEventExists {Q : Bool → Store → Prop} :
    wp (timedEventExists orgId name) Q X s ↔ Q (Store.timedEvent s orgId name).isSome s :=
  wp_exist .timedEvents _

omit [Names] in
@[simp] lemma wp_timedEventExistsOf (procId : Nat) {Q : Bool → Store → Prop} :
    wp (timedEventExistsOf orgId procId) Q X s ↔
      Q ((s .timedEvents).rows.any fun t => t.organizationId == orgId && t.procedure == procId) s :=
  Iff.rfl

@[simp] lemma wp_getQuery {Q : Option QueryEntity → Store → Prop} :
    wp (getQuery orgId name) Q X s ↔ Q (Store.query s orgId name) s := Iff.rfl

@[simp] lemma wp_queryExists {Q : Bool → Store → Prop} :
    wp (queryExists orgId name) Q X s ↔ Q (Store.query s orgId name).isSome s :=
  wp_exist .queries _

omit [Names] in
@[simp] lemma wp_getGroupUserRelsByGroup (groupId : Nat) {Q : List String → Store → Prop} :
    wp (getGroupUserRelsByGroup groupId) Q X s ↔ Q (Store.members s groupId) s := Iff.rfl

@[simp] lemma wp_organizationId {Q : Nat → Store → Prop} :
    wp (JdbcCatalog.organizationId name) Q X s ↔
      match Store.organization s name with
      | some o => Q o.id s
      | none => X s := by
  rw [JdbcCatalog.organizationId, wp_bind, wp_getOrganization]
  cases Store.organization s name <;> rfl

@[simp] lemma wp_userId {Q : Nat → Store → Prop} :
    wp (JdbcCatalog.userId orgId name) Q X s ↔
      match Store.user s orgId name with
      | some u => Q u.id s
      | none => X s := by
  rw [JdbcCatalog.userId, wp_bind, wp_getUser]
  cases Store.user s orgId name <;> rfl

end Statements

/-! ### Operations -/

/-- The operations of `JdbcCatalog` that write. -/
inductive Operation
  | createQuery (queryDefinition : CatalogQuery) (ignoreIfExists : Bool)
  | dropQuery (query : String) (ignoreIfNotExists : Bool)
  | alterQuery (queryDefinition : CatalogQuery)
  | createOrganization (orgDefinition : CatalogOrganization) (ignoreIfExists : Bool)
  | dropOrganization (org : String) (ignoreIfNotExists cascade : Bool)
  | renameOrganization (org newOrg : String)
  | alterOrganization (orgDefinition : CatalogOrganization)
  | createUser (userDefinition : CatalogUser) (ignoreIfExists : Bool)
  | dropUser (org user : String) (ignoreIfNotExists : Bool)
  | renameUser (org user newUser : String)
  | alterUser (userDefinition : CatalogUser)
  | createProcedure (procDefinition : CatalogProcedure) (ignoreIfExists : Bool)
  | dropProcedure (proc : String) (ignoreIfNotExists : Bool)
  | renameProcedure (proc newProc : String)
  | alterProcedure (procDefinition : CatalogProcedure)
  | createTimedEvent (eventDefinition : CatalogTimedEvent) (ignoreIfExists : Bool)
  | renameTimedEvent (event newEvent : String)
  | alterTimedEvent (eventDefinition : CatalogTimedEvent)
  | dropTimedEvent (event : String) (ignoreIfNotExists : Bool)
  | createDatabase (dbDefinition : CatalogDatabase) (ignoreIfExists : Bool)
  | dropDatabase (database : String) (ignoreIfNotExists cascade : Bool)
  | renameDatabase (db newDb : String)
  | alterDatabase (dbDefinition : CatalogDatabase)
  | createTable (tableDefinition : CatalogTable) (ignoreIfExists : Bool)
  | dropTable (database table : String) (ignoreIfNotExists : Bool)
  | renameTable (database table newTable : String)
  | alterTable (tableDefinition : CatalogTable)
  | createFunction (funcDefinition : CatalogFunction) (ignoreIfExists : Bool)
  | dropFunction (database func : String) (ignoreIfNotExists : Bool)
  | renameFunction (database func newFunc : String)
  | createDatabasePrivilege (dbPrivilege : CatalogDatabasePrivilege)
  | dropDatabasePrivilege (user database : String) (privileges : List String)
  | createTablePrivilege (tablePrivilege : CatalogTablePrivilege)
  | dropTablePrivilege (user database table : String) (privileges : List String)
  | createColumnPrivilege (columnPrivilege : CatalogColumnPrivilege)
  | dropColumnPrivilege (user database table : String) (privileges : List (String × List String))
  | createGroup (groupDefinition : CatalogGroup) (ignoreIfExists : Bool)
  | renameGroup (group newGroup : String)
  | alterGroup (groupDefinition : CatalogGroup)
  | dropGroup (group : String) (ignoreIfNotExists cascade : Bool)
  | createGroupUserRel (groupUserRels : CatalogGroupUserRel)
  | dropGroupUserRel (groupUserRel : CatalogGroupUserRel)

def Operation.action (op : Operation) (caller : User) (now : Nat) : DBIO Unit :=
  match op with
  | .createQuery d ign => JdbcCatalog.createQuery d ign caller now
  | .dropQuery query ign => JdbcCatalog.dropQuery query ign caller
  | .alterQuery d => JdbcCatalog.alterQuery d caller now
  | .createOrganization d ign => JdbcCatalog.createOrganization d ign caller now
  | .dropOrganization org ign cascade => JdbcCatalog.dropOrganization org ign cascade
  | .renameOrganization org newOrg => JdbcCatalog.renameOrganization org newOrg caller now
  | .alterOrganization d => JdbcCatalog.alterOrganization d caller now
  | .createUser d ign => JdbcCatalog.createUser d ign caller now
  | .dropUser org user ign => JdbcCatalog.dropUser org user ign
  | .renameUser org user newUser => JdbcCatalog.renameUser org user newUser caller now
  | .alterUser d => JdbcCatalog.alterUser d caller now
  | .createProcedure d ign => JdbcCatalog.createProcedure d ign caller now
  | .dropProcedure proc ign => JdbcCatalog.dropProcedure proc ign caller
  | .renameProcedure proc newProc => JdbcCatalog.renameProcedure proc newProc caller now
  | .alterProcedure d => JdbcCatalog.alterProcedure d caller now
  | .createTimedEvent d ign => JdbcCatalog.createTimedEvent d ign caller now
  | .renameTimedEvent event newEvent => JdbcCatalog.renameTimedEvent event newEvent caller now
  | .alterTimedEvent d => JdbcCatalog.alterTimedEvent d caller now
  | .dropTimedEvent event ign => JdbcCatalog.dropTimedEvent event ign caller
  | .createDatabase d ign => JdbcCatalog.createDatabase d ign caller now
  | .dropDatabase database ign cascade => JdbcCatalog.dropDatabase database ign cascade caller
  | .renameDatabase db newDb => JdbcCatalog.renameDatabase db newDb caller now
  | .alterDatabase d => JdbcCatalog.alterDatabase d caller now
  | .createTable d ign => JdbcCatalog.createTable d ign caller now
  | .dropTable database table ign => JdbcCatalog.dropTable database table ign caller
  | .renameTable database table newTable =>
    JdbcCatalog.renameTable database table newTable caller now
  | .alterTable d => JdbcCatalog.alterTable d caller now
  | .createFunction d ign => JdbcCatalog.createFunction d ign caller now
  | .dropFunction database func ign => JdbcCatalog.dropFunction database func ign caller
  | .renameFunction database func newFunc =>
    JdbcCatalog.renameFunction database func newFunc caller now
  | .createDatabasePrivilege p => JdbcCatalog.createDatabasePrivilege p caller now
  | .dropDatabasePrivilege user database ps =>
    JdbcCatalog.dropDatabasePrivilege user database ps caller
  | .createTablePrivilege p => JdbcCatalog.createTablePrivilege p caller now
  | .dropTablePrivilege user database table ps =>
    JdbcCatalog.dropTablePrivilege user database table ps caller
  | .createColumnPrivilege p => JdbcCatalog.createColumnPrivilege p caller now
  | .dropColumnPrivilege user database table ps =>
    JdbcCatalog.dropColumnPrivilege user database table ps caller
  | .createGroup d ign => JdbcCatalog.createGroup d ign caller now
  | .renameGroup group newGroup => JdbcCatalog.renameGroup group newGroup caller now
  | .alterGroup d => JdbcCatalog.alterGroup d caller now
  | .dropGroup group ign cascade => JdbcCatalog.dropGroup group ign cascade caller
  | .createGroupUserRel r => JdbcCatalog.createGroupUserRel r caller now
  | .dropGroupUserRel r => JdbcCatalog.dropGroupUserRel r caller

end Moonbox.Catalog
