import Moonbox.Core.MoonboxCatalog
import Moonbox.Catalog.Effects
import Moonbox.Lib.ActionEnds

/-!
# The names of databases

Databases are entered under names in lower case. The operations on databases write the name they
are given that way before they look for it, those on what is in a database do not.
-/

namespace Moonbox.Core

open Catalog Relational

/-! ### Exceptions -/

section Exceptions

variable {db name db' : String}

/-- The exception for a missing database is known by its first and its last letter. -/
lemma noSuchDatabase_toList : (noSuchDatabaseException db).toList.head? = some 'D' ∧
    (noSuchDatabaseException db).toList.getLast? = some 'd' := by
  change ("Database '" ++ db ++ "' not found").toList.head? = _ ∧
    ("Database '" ++ db ++ "' not found").toList.getLast? = _
  rw [String.toList_append, List.getLast?_append]
  simp

lemma ne_noSuchDatabase_of_head {e : String} (h : e.toList.head? ≠ some 'D') :
    e ≠ noSuchDatabaseException db := by
  rintro rfl
  exact h noSuchDatabase_toList.1

lemma ne_noSuchDatabase_of_last {e : String} (h : e.toList.getLast? ≠ some 'd') :
    e ≠ noSuchDatabaseException db := by
  rintro rfl
  exact h noSuchDatabase_toList.2

@[simp] lemma noSuchUser_ne : noSuchUserException name ≠ noSuchDatabaseException db := by
  apply ne_noSuchDatabase_of_head
  change ("User '" ++ name ++ "' not found").toList.head? ≠ _
  simp

@[simp] lemma noSuchTable_ne : noSuchTableException db' name ≠ noSuchDatabaseException db := by
  apply ne_noSuchDatabase_of_head
  change ("Table or view '" ++ name ++ "' not found in database '" ++ db' ++ "'").toList.head? ≠ _
  simp

@[simp] lemma noSuchFunction_ne :
    noSuchFunctionException db' name ≠ noSuchDatabaseException db := by
  apply ne_noSuchDatabase_of_head
  change ("Function '" ++ name ++ "' not found in database '" ++ db' ++ "'").toList.head? ≠ _
  simp

@[simp] lemma tableExists_ne : tableExistsException db' name ≠ noSuchDatabaseException db := by
  apply ne_noSuchDatabase_of_head
  change ("Table " ++ name ++ " already exists in database " ++ db').toList.head? ≠ _
  simp

@[simp] lemma functionExists_ne :
    functionExistsException db' name ≠ noSuchDatabaseException db := by
  apply ne_noSuchDatabase_of_head
  change ("Function " ++ name ++ " already exists in database " ++ db').toList.head? ≠ _
  simp

@[simp] lemma userDeleted_ne : "user is deleted." ≠ noSuchDatabaseException db :=
  ne_noSuchDatabase_of_head (by simp)

@[simp] lemma databaseExists_ne :
    databaseExistsException db' ≠ noSuchDatabaseException db := by
  apply ne_noSuchDatabase_of_last
  change ("Database " ++ db' ++ " already exists").toList.getLast? ≠ _
  rw [String.toList_append, List.getLast?_append]
  simp

@[simp] lemma nonEmpty_ne : nonEmptyException name ≠ noSuchDatabaseException db := by
  apply ne_noSuchDatabase_of_last
  change (name ++ " is not empty. Please clear it first or use CASCADE keyword.").toList.getLast?
    ≠ _
  simp

end Exceptions

/-! ### Calls -/

/-- What a call of the catalog is that takes the name of a database. -/
inductive DatabaseCall
  | operation (op : Operation)
  | getDatabase (db : String)
  | requireDbExists (db : String)
  | listTables (db : String)
  | getTable (db table : String)
  | tableExists (db table : String)
  | listFunctions (db : String)
  | getFunction (db func : String)
  | functionExists (db func : String)
  | getDatabasePrivilege (user db : String)
  | getTablePrivilege (user db table : String)
  | getColumnPrivilege (user db table : String)

namespace DatabaseCall

/-- The name of the database, if the call takes one. -/
def database : DatabaseCall → Option String
  | .operation op =>
    match op with
    | .createDatabase d _ => some d.name
    | .dropDatabase db _ _ => some db
    | .renameDatabase db _ => some db
    | .alterDatabase d => some d.name
    | .createTable d _ => d.db
    | .dropTable db _ _ => some db
    | .renameTable db _ _ => some db
    | .alterTable d => d.db
    | .createFunction d _ => d.db
    | .dropFunction db _ _ => some db
    | .renameFunction db _ _ => some db
    | .createDatabasePrivilege p => some p.database
    | .dropDatabasePrivilege _ db _ => some db
    | .createTablePrivilege p => some p.database
    | .dropTablePrivilege _ db _ _ => some db
    | .createColumnPrivilege p => some p.database
    | .dropColumnPrivilege _ db _ _ => some db
    | _ => none
  | .getDatabase db | .requireDbExists db | .listTables db | .getTable db _ | .tableExists db _
  | .listFunctions db | .getFunction db _ | .functionExists db _ | .getDatabasePrivilege _ db
  | .getTablePrivilege _ db _ | .getColumnPrivilege _ db _ => some db

/-- The call is about a database itself. -/
def isAboutDatabase : DatabaseCall → Bool
  | .operation (.createDatabase ..) | .operation (.dropDatabase ..)
  | .operation (.renameDatabase ..) | .operation (.alterDatabase ..) | .getDatabase ..
  | .requireDbExists .. => true
  | _ => false

/-- Whose privileges the call is about. He is looked for first. -/
def user : DatabaseCall → Option String
  | .operation (.createDatabasePrivilege p) => some p.user
  | .operation (.dropDatabasePrivilege user _ _) => some user
  | .operation (.createTablePrivilege p) => some p.user
  | .operation (.dropTablePrivilege user _ _ _) => some user
  | .operation (.createColumnPrivilege p) => some p.user
  | .operation (.dropColumnPrivilege user _ _ _) => some user
  | .getDatabasePrivilege user _ | .getTablePrivilege user _ _
  | .getColumnPrivilege user _ _ => some user
  | _ => none

variable [Names]

/-- The call, without what it answers. -/
def action (catalog : MoonboxCatalog) (now : Nat) : DatabaseCall → DBIO Unit
  | .operation op => op.action catalog.userInSession now
  | .getDatabase db => do
    let _ ← JdbcCatalog.getDatabase db catalog.userInSession
  | .requireDbExists db => catalog.requireDbExists db
  | .listTables db => do
    let _ ← JdbcCatalog.listTables db catalog.userInSession
  | .getTable db table => do
    let _ ← JdbcCatalog.getTable db table catalog.userInSession
  | .tableExists db table => do
    let _ ← JdbcCatalog.tableExists db table catalog.userInSession
  | .listFunctions db => do
    let _ ← JdbcCatalog.listFunctions db catalog.userInSession
  | .getFunction db func => do
    let _ ← JdbcCatalog.getFunction db func catalog.userInSession
  | .functionExists db func => do
    let _ ← JdbcCatalog.functionExists db func catalog.userInSession
  | .getDatabasePrivilege user db => do
    let _ ← JdbcCatalog.getDatabasePrivilege user db catalog.userInSession
  | .getTablePrivilege user db table => do
    let _ ← JdbcCatalog.getTablePrivilege user db table catalog.userInSession
  | .getColumnPrivilege user db table => do
    let _ ← JdbcCatalog.getColumnPrivilege user db table catalog.userInSession

/-- A database that is there is found, in whatever case its name is written. One that is found is
not made again. -/
def Finds (catalog : MoonboxCatalog) (now : Nat) (c : DatabaseCall) (s : Store) : Prop :=
  ∀ name ∈ c.database,
    (Store.database s catalog.userInSession.orgId
      (JdbcCatalog.formatDatabaseName name)).isSome = true →
    match c with
    | .operation (.createDatabase ..) => (c.action catalog now).run.exec s = s
    | _ => ¬(c.action catalog now).Raises s (noSuchDatabaseException name)

/-- The call is about a database itself, or its database is found by the name as it is written, or
the call gives up before it looks for it. -/
def IsSpelled (catalog : MoonboxCatalog) (c : DatabaseCall) (s : Store) : Prop :=
  c.isAboutDatabase = true ∨ ∀ name ∈ c.database,
    (Store.database s catalog.userInSession.orgId
      (JdbcCatalog.formatDatabaseName name)).isSome = true →
    (Store.database s catalog.userInSession.orgId name).isSome = true ∨
      ∃ user ∈ c.user, Store.user s catalog.userInSession.orgId user = none

end DatabaseCall

/-! ### What the reads raise -/

section Raises

variable [Names] {s : Store} {e : String} {α : Type} (orgId dbId : Nat) (name : String)

lemma raises_getDatabase_bind (f : Option DatabaseEntity → DBIO α) :
    (JdbcDao.getDatabase orgId name >>= f).Raises s e ↔
      (f (Store.database s orgId name)).Raises s e := Iff.rfl

lemma raises_getTable_bind (f : Option TableEntity → DBIO α) :
    (JdbcDao.getTable dbId name >>= f).Raises s e ↔
      (f (Store.table s dbId name)).Raises s e := Iff.rfl

lemma raises_getFunction_bind (f : Option FunctionEntity → DBIO α) :
    (JdbcDao.getFunction dbId name >>= f).Raises s e ↔
      (f (Store.function s dbId name)).Raises s e := Iff.rfl

omit [Names] in
lemma raises_exist_bind (k : Kind) (cond : Entity k → Bool) (f : Bool → DBIO α) :
    (JdbcDao.exist k cond >>= f).Raises s e ↔ (f ((s k).rows.find? cond).isSome).Raises s e := by
  have h : ((s k).rows.find? cond).isSome = (s k).rows.any cond := by
    rw [Bool.eq_iff_iff, List.find?_isSome, List.any_eq_true]
  rw [h]
  rfl

lemma raises_tableExists_bind (f : Bool → DBIO α) :
    (JdbcDao.tableExists dbId name >>= f).Raises s e ↔
      (f (Store.table s dbId name).isSome).Raises s e := raises_exist_bind .tables _ f

lemma raises_functionExists_bind (f : Bool → DBIO α) :
    (JdbcDao.functionExists dbId name >>= f).Raises s e ↔
      (f (Store.function s dbId name).isSome).Raises s e := raises_exist_bind .functions _ f

omit [Names] in
lemma raises_userName_bind (createBy : Int) (f : String → DBIO α) :
    (JdbcCatalog.userName createBy >>= f).Raises s e ↔
      match creatorName s createBy with
      | some name => (f name).Raises s e
      | none => "user is deleted." = e := by
  unfold JdbcCatalog.userName creatorName
  split
  · rfl
  · rw [Action.bind_assoc]
    apply Iff.trans (Action.raises_query_bind _ _)
    cases (s .users).rows.find? fun t => (t.id : Int) == createBy with
    | some u => rfl
    | none => exact Action.raises_throw _

lemma raises_userId_bind (f : Nat → DBIO α) :
    (JdbcCatalog.userId orgId name >>= f).Raises s e ↔
      match Store.user s orgId name with
      | some u => (f u.id).Raises s e
      | none => noSuchUserException name = e := by
  rw [JdbcCatalog.userId, Action.bind_assoc]
  apply Iff.trans (Action.raises_query_bind _ _)
  show Action.Raises ((match Store.user s orgId name with
    | some userEntity => pure userEntity.id
    | none => .throw (noSuchUserException name)) >>= f) s e ↔ _
  cases Store.user s orgId name with
  | some u => rfl
  | none => exact Action.raises_throw _

end Raises

/-! ### Calls about what is in a database -/

section Missing

variable [Names] {s : Store} {orgId : Nat} {caller : User} {name user : String} {now : Nat}
  {α : Type}

/-- A call that looks for the database first and raises another exception after that. -/
lemma raises_inDatabase {found : DatabaseEntity → DBIO α}
    (h : ∀ d, ¬(found d).Raises s (noSuchDatabaseException name)) :
    (do match ← JdbcDao.getDatabase orgId name with
        | some d => found d
        | none => .throw (noSuchDatabaseException name)).Raises s (noSuchDatabaseException name) ↔
      Store.database s orgId name = none := by
  rw [raises_getDatabase_bind]
  cases Store.database s orgId name with
  | none => simp
  | some d => simp [h d]

/-- A call that looks for a user before. -/
lemma raises_forUser {found : Nat → DatabaseEntity → DBIO α}
    (h : ∀ uId d, ¬(found uId d).Raises s (noSuchDatabaseException name)) :
    (do let uId ← JdbcCatalog.userId orgId user
        match ← JdbcDao.getDatabase orgId name with
        | some d => found uId d
        | none => .throw (noSuchDatabaseException name)).Raises s (noSuchDatabaseException name) ↔
      Store.database s orgId name = none ∧ (Store.user s orgId user).isSome = true := by
  rw [raises_userId_bind]
  cases Store.user s orgId user with
  | none => simp
  | some u =>
    simp only [Option.isSome_some, and_true]
    exact raises_inDatabase (h u.id)

/-- What is read of a table and then answered. -/
lemma not_raises_table {found : TableEntity → DBIO α} {dbId : Nat} {table db : String}
    (h : ∀ t, ¬(found t).Raises s (noSuchDatabaseException name)) :
    ¬(do match ← JdbcDao.getTable dbId table with
         | some t => found t
         | none => .throw (noSuchTableException db table)).Raises s
      (noSuchDatabaseException name) := by
  rw [raises_getTable_bind]
  cases Store.table s dbId table with
  | none => simp
  | some t => exact h t

omit [Names] in
lemma not_raises_userName {f : String → DBIO α} {createBy : Int}
    (h : ∀ owner, ¬(f owner).Raises s (noSuchDatabaseException name)) :
    ¬(JdbcCatalog.userName createBy >>= f).Raises s (noSuchDatabaseException name) := by
  rw [raises_userName_bind]
  split
  · exact h _
  · simp

lemma not_raises_function {found : FunctionEntity → DBIO α} {dbId : Nat} {func db : String}
    (h : ∀ f, ¬(found f).Raises s (noSuchDatabaseException name)) :
    ¬(do match ← JdbcDao.getFunction dbId func with
         | some f => found f
         | none => .throw (noSuchFunctionException db func)).Raises s
      (noSuchDatabaseException name) := by
  rw [raises_getFunction_bind]
  cases Store.function s dbId func with
  | none => simp
  | some f => exact h f

lemma raises_getTable (table : String) :
    (JdbcCatalog.getTable name table caller).Raises s (noSuchDatabaseException name) ↔
      Store.database s caller.orgId name = none := by
  apply raises_inDatabase
  intro d
  apply not_raises_table
  intro t
  apply not_raises_userName
  simp

lemma raises_tableExists (table : String) :
    (JdbcCatalog.tableExists name table caller).Raises s (noSuchDatabaseException name) ↔
      Store.database s caller.orgId name = none := by
  apply raises_inDatabase
  intro d h
  cases h

lemma raises_listTables :
    (JdbcCatalog.listTables name caller).Raises s (noSuchDatabaseException name) ↔
      Store.database s caller.orgId name = none := by
  apply raises_inDatabase
  intro d
  simp [JdbcDao.listTables, Action.raises_query_bind]

lemma raises_getFunction (func : String) :
    (JdbcCatalog.getFunction name func caller).Raises s (noSuchDatabaseException name) ↔
      Store.database s caller.orgId name = none := by
  apply raises_inDatabase
  intro d
  apply not_raises_function
  intro f
  simp only [JdbcDao.listFunctionResources, JdbcDao.query, Action.raises_query_bind]
  apply not_raises_userName
  simp

lemma raises_functionExists (func : String) :
    (JdbcCatalog.functionExists name func caller).Raises s (noSuchDatabaseException name) ↔
      Store.database s caller.orgId name = none := by
  apply raises_inDatabase
  intro d h
  cases h

lemma raises_listFunctions :
    (JdbcCatalog.listFunctions name caller).Raises s (noSuchDatabaseException name) ↔
      Store.database s caller.orgId name = none := by
  apply raises_inDatabase
  intro d
  simp only [JdbcDao.listFunctions, Action.raises_query_bind]
  intro h
  obtain ⟨f, -, s', hraises⟩ := h.of_mapM
  revert hraises
  apply not_raises_userName
  simp

lemma raises_createTable {d : CatalogTable} {ign : Bool} (hdb : d.db = some name) :
    (JdbcCatalog.createTable d ign caller now).Raises s (noSuchDatabaseException name) ↔
      Store.database s caller.orgId name = none := by
  simp only [JdbcCatalog.createTable, hdb]
  apply raises_inDatabase
  intro dbEntity
  rw [raises_getTable_bind]
  cases Store.table s dbEntity.id d.name with
  | none => simp [Action.raises_bind]
  | some t => cases ign <;> simp

lemma raises_dropTable {table : String} {ign : Bool} :
    (JdbcCatalog.dropTable name table ign caller).Raises s (noSuchDatabaseException name) ↔
      Store.database s caller.orgId name = none := by
  apply raises_inDatabase
  intro d
  rw [raises_getTable_bind]
  cases Store.table s d.id table with
  | none => cases ign <;> simp
  | some t => simp [Action.raises_transactionally, Action.raises_bind]

lemma raises_renameTable {table newTable : String} :
    (JdbcCatalog.renameTable name table newTable caller now).Raises s
        (noSuchDatabaseException name) ↔
      Store.database s caller.orgId name = none := by
  apply raises_inDatabase
  intro d
  rw [raises_tableExists_bind]
  cases (Store.table s d.id table).isSome with
  | false => simp
  | true =>
    simp only [raises_tableExists_bind]
    cases (Store.table s d.id newTable).isSome <;> simp

lemma raises_alterTable {d : CatalogTable} (hdb : d.db = some name) :
    (JdbcCatalog.alterTable d caller now).Raises s (noSuchDatabaseException name) ↔
      Store.database s caller.orgId name = none := by
  simp only [JdbcCatalog.alterTable, hdb]
  apply raises_inDatabase
  intro dbEntity
  apply not_raises_table
  simp

lemma raises_createFunction {d : CatalogFunction} {ign : Bool} (hdb : d.db = some name) :
    (JdbcCatalog.createFunction d ign caller now).Raises s (noSuchDatabaseException name) ↔
      Store.database s caller.orgId name = none := by
  simp only [JdbcCatalog.createFunction, hdb]
  apply raises_inDatabase
  intro dbEntity
  rw [raises_functionExists_bind]
  cases (Store.function s dbEntity.id d.name).isSome with
  | false => simp [Action.raises_transactionally, Action.raises_bind]
  | true => cases ign <;> simp

lemma raises_dropFunction {func : String} {ign : Bool} :
    (JdbcCatalog.dropFunction name func ign caller).Raises s (noSuchDatabaseException name) ↔
      Store.database s caller.orgId name = none := by
  apply raises_inDatabase
  intro d
  rw [raises_getFunction_bind]
  cases Store.function s d.id func with
  | none => cases ign <;> simp
  | some f => simp [Action.raises_transactionally, Action.raises_bind]

lemma raises_renameFunction {func newFunc : String} :
    (JdbcCatalog.renameFunction name func newFunc caller now).Raises s
        (noSuchDatabaseException name) ↔
      Store.database s caller.orgId name = none := by
  apply raises_inDatabase
  intro d
  rw [raises_functionExists_bind]
  cases (Store.function s d.id func).isSome with
  | false => simp
  | true =>
    simp only [raises_functionExists_bind]
    cases (Store.function s d.id newFunc).isSome <;> simp

/-! ### Calls about privileges -/

lemma raises_createDatabasePrivilege {p : CatalogDatabasePrivilege} :
    (JdbcCatalog.createDatabasePrivilege p caller now).Raises s
        (noSuchDatabaseException p.database) ↔
      Store.database s caller.orgId p.database = none ∧
        (Store.user s caller.orgId p.user).isSome = true := by
  apply raises_forUser
  intro uId d
  simp [JdbcDao.getDatabasePrivilege, JdbcDao.query, Action.raises_query_bind]

lemma raises_dropDatabasePrivilege {privileges : List String} :
    (JdbcCatalog.dropDatabasePrivilege user name privileges caller).Raises s
        (noSuchDatabaseException name) ↔
      Store.database s caller.orgId name = none ∧
        (Store.user s caller.orgId user).isSome = true := by
  apply raises_forUser
  simp

lemma raises_getDatabasePrivilege :
    (JdbcCatalog.getDatabasePrivilege user name caller).Raises s
        (noSuchDatabaseException name) ↔
      Store.database s caller.orgId name = none ∧
        (Store.user s caller.orgId user).isSome = true := by
  apply raises_forUser
  intro uId d
  simp [JdbcDao.getDatabasePrivilege, JdbcDao.query, Action.raises_query_bind]

lemma raises_createTablePrivilege {p : CatalogTablePrivilege} :
    (JdbcCatalog.createTablePrivilege p caller now).Raises s
        (noSuchDatabaseException p.database) ↔
      Store.database s caller.orgId p.database = none ∧
        (Store.user s caller.orgId p.user).isSome = true := by
  apply raises_forUser
  intro uId d
  apply not_raises_table
  intro t
  simp [JdbcDao.getTablePrivilege, JdbcDao.query, Action.raises_query_bind]

lemma raises_dropTablePrivilege {table : String} {privileges : List String} :
    (JdbcCatalog.dropTablePrivilege user name table privileges caller).Raises s
        (noSuchDatabaseException name) ↔
      Store.database s caller.orgId name = none ∧
        (Store.user s caller.orgId user).isSome = true := by
  apply raises_forUser
  intro uId d
  apply not_raises_table
  simp

lemma raises_getTablePrivilege {table : String} :
    (JdbcCatalog.getTablePrivilege user name table caller).Raises s
        (noSuchDatabaseException name) ↔
      Store.database s caller.orgId name = none ∧
        (Store.user s caller.orgId user).isSome = true := by
  apply raises_forUser
  intro uId d
  apply not_raises_table
  intro t
  simp [JdbcDao.getTablePrivilege, JdbcDao.query, Action.raises_query_bind]

lemma raises_createColumnPrivilege {p : CatalogColumnPrivilege} :
    (JdbcCatalog.createColumnPrivilege p caller now).Raises s
        (noSuchDatabaseException p.database) ↔
      Store.database s caller.orgId p.database = none ∧
        (Store.user s caller.orgId p.user).isSome = true := by
  apply raises_forUser
  intro uId d
  apply not_raises_table
  intro t
  simp [JdbcDao.getColumnPrivilege, JdbcDao.query, Action.raises_query_bind]

lemma raises_dropColumnPrivilege {table : String} {privileges : List (String × List String)} :
    (JdbcCatalog.dropColumnPrivilege user name table privileges caller).Raises s
        (noSuchDatabaseException name) ↔
      Store.database s caller.orgId name = none ∧
        (Store.user s caller.orgId user).isSome = true := by
  apply raises_forUser
  intro uId d
  apply not_raises_table
  intro t
  rw [Action.raises_transactionally]
  intro h
  obtain ⟨p, -, s', hraises⟩ := h.of_forEach
  exact Action.not_raises_delete hraises

lemma raises_getColumnPrivilege {table : String} :
    (JdbcCatalog.getColumnPrivilege user name table caller).Raises s
        (noSuchDatabaseException name) ↔
      Store.database s caller.orgId name = none ∧
        (Store.user s caller.orgId user).isSome = true := by
  apply raises_forUser
  intro uId d
  apply not_raises_table
  intro t
  simp [JdbcDao.getColumnPrivilege, JdbcDao.query, Action.raises_query_bind]

end Missing

/-! ### Calls about a database -/

section Found

variable [Names] {s : Store} {caller : User} {name : String} {now : Nat} {dbEntity : DatabaseEntity}
  (found : Store.database s caller.orgId (JdbcCatalog.formatDatabaseName name) = some dbEntity)

include found

lemma not_raises_getDatabase :
    ¬(JdbcCatalog.getDatabase name caller).Raises s (noSuchDatabaseException name) := by
  simp only [JdbcCatalog.getDatabase, raises_getDatabase_bind, found]
  apply not_raises_userName
  simp

lemma not_raises_dropDatabase {ign cascade : Bool} :
    ¬(JdbcCatalog.dropDatabase name ign cascade caller).Raises s
      (noSuchDatabaseException name) := by
  simp only [JdbcCatalog.dropDatabase, raises_getDatabase_bind, found]
  cases cascade with
  | true => simp [Action.raises_transactionally, Action.raises_bind]
  | false =>
    simp [Action.raises_transactionally, Action.raises_query_bind, JdbcDao.listTables,
      JdbcDao.listFunctions]

lemma not_raises_alterDatabase {d : CatalogDatabase} (hname : d.name = name) :
    ¬(JdbcCatalog.alterDatabase d caller now).Raises s (noSuchDatabaseException name) := by
  simp [JdbcCatalog.alterDatabase, raises_getDatabase_bind, hname, found]

lemma not_raises_renameDatabase {newDb : String} :
    ¬(JdbcCatalog.renameDatabase name newDb caller now).Raises s
      (noSuchDatabaseException name) := by
  simp only [JdbcCatalog.renameDatabase, JdbcDao.databaseExists, raises_exist_bind]
  rw [Store.database] at found
  rw [found, Option.isSome_some]
  simp only [raises_exist_bind]
  cases ((s .databases).rows.find? fun t => t.organizationId == caller.orgId &&
    sameName t.name (JdbcCatalog.formatDatabaseName newDb)).isSome <;> simp

lemma not_raises_requireDbExists {catalog : MoonboxCatalog}
    (hcaller : catalog.userInSession = caller) :
    ¬(catalog.requireDbExists name).Raises s (noSuchDatabaseException name) := by
  simp only [MoonboxCatalog.requireDbExists, JdbcCatalog.databaseExists, JdbcDao.databaseExists,
    hcaller, raises_exist_bind]
  rw [Store.database] at found
  rw [found, Option.isSome_some]
  simp

lemma exec_createDatabase {d : CatalogDatabase} {ign : Bool} (hname : d.name = name) :
    (JdbcCatalog.createDatabase d ign caller now).run.exec s = s := by
  apply (Action.wp_run _ (· = s)).mp
  simp only [JdbcCatalog.createDatabase, Action.wp_bind, wp_databaseExists, hname, found,
    Option.isSome_some]
  cases ign <;> simp

end Found

/-! ### When a database is found -/

section Finds

variable [Names] {s : Store} {catalog : MoonboxCatalog} {now : Nat} {c : DatabaseCall}
  {name : String}

omit [Names] in
lemma raises_discard {α : Type} {m : DBIO α} {e : String} :
    Action.Raises (do let _ ← m) s e ↔ m.Raises s e := by
  rw [Action.raises_bind]
  simp only [Action.raises_pure, Action.wp_run m fun _ => False, or_false]

namespace DatabaseCall

lemma raises_operation_iff {op : Operation} (hraw : isAboutDatabase (.operation op) = false)
    (hname : database (.operation op) = some name) :
    (op.action catalog.userInSession now).Raises s (noSuchDatabaseException name) ↔
      Store.database s catalog.userInSession.orgId name = none ∧
        ∀ u ∈ user (.operation op),
          (Store.user s catalog.userInSession.orgId u).isSome = true := by
  cases op with
  | createDatabase d ign => cases hraw
  | dropDatabase db ign cascade => cases hraw
  | renameDatabase db newDb => cases hraw
  | alterDatabase d => cases hraw
  | createTable d ign => simpa [user, Operation.action] using raises_createTable hname
  | dropTable db table ign =>
    cases hname
    simpa [user, Operation.action] using raises_dropTable
  | renameTable db table newTable =>
    cases hname
    simpa [user, Operation.action] using raises_renameTable
  | alterTable d => simpa [user, Operation.action] using raises_alterTable hname
  | createFunction d ign => simpa [user, Operation.action] using raises_createFunction hname
  | dropFunction db func ign =>
    cases hname
    simpa [user, Operation.action] using raises_dropFunction
  | renameFunction db func newFunc =>
    cases hname
    simpa [user, Operation.action] using raises_renameFunction
  | createDatabasePrivilege p =>
    cases hname
    simpa [user, Operation.action] using raises_createDatabasePrivilege
  | dropDatabasePrivilege user' db privileges =>
    cases hname
    simpa [user, Operation.action] using raises_dropDatabasePrivilege
  | createTablePrivilege p =>
    cases hname
    simpa [user, Operation.action] using raises_createTablePrivilege
  | dropTablePrivilege user' db table privileges =>
    cases hname
    simpa [user, Operation.action] using raises_dropTablePrivilege
  | createColumnPrivilege p =>
    cases hname
    simpa [user, Operation.action] using raises_createColumnPrivilege
  | dropColumnPrivilege user' db table privileges =>
    cases hname
    simpa [user, Operation.action] using raises_dropColumnPrivilege
  | _ => cases hname

/-- A call about what is in a database raises the exception exactly if its database is not found
under the name as it is written. -/
lemma raises_iff (hraw : c.isAboutDatabase = false) (hname : c.database = some name) :
    (c.action catalog now).Raises s (noSuchDatabaseException name) ↔
      Store.database s catalog.userInSession.orgId name = none ∧
        ∀ u ∈ c.user, (Store.user s catalog.userInSession.orgId u).isSome = true := by
  cases c with
  | operation op => exact raises_operation_iff hraw hname
  | getDatabase db => cases hraw
  | requireDbExists db => cases hraw
  | listTables db =>
    cases hname
    simpa [user, action, raises_discard] using raises_listTables
  | getTable db table =>
    cases hname
    simpa [user, action, raises_discard] using raises_getTable table
  | tableExists db table =>
    cases hname
    simpa [user, action, raises_discard] using raises_tableExists table
  | listFunctions db =>
    cases hname
    simpa [user, action, raises_discard] using raises_listFunctions
  | getFunction db func =>
    cases hname
    simpa [user, action, raises_discard] using raises_getFunction func
  | functionExists db func =>
    cases hname
    simpa [user, action, raises_discard] using raises_functionExists func
  | getDatabasePrivilege user' db =>
    cases hname
    simpa [user, action, raises_discard] using raises_getDatabasePrivilege
  | getTablePrivilege user' db table =>
    cases hname
    simpa [user, action, raises_discard] using raises_getTablePrivilege
  | getColumnPrivilege user' db table =>
    cases hname
    simpa [user, action, raises_discard] using raises_getColumnPrivilege

/-- A call about a database itself finds it. -/
lemma finds_of_isAboutDatabase (h : c.isAboutDatabase = true) : c.Finds catalog now s := by
  intro name hname hfound
  obtain ⟨dbEntity, found⟩ := Option.isSome_iff_exists.mp hfound
  cases c with
  | operation op =>
    cases op with
    | createDatabase d ign => exact exec_createDatabase found (Option.some.inj hname)
    | dropDatabase db ign cascade =>
      cases hname
      exact not_raises_dropDatabase found
    | renameDatabase db newDb =>
      cases hname
      exact not_raises_renameDatabase found
    | alterDatabase d => exact not_raises_alterDatabase found (Option.some.inj hname)
    | _ => cases h
  | getDatabase db =>
    cases hname
    simpa [action, raises_discard] using not_raises_getDatabase found
  | requireDbExists db =>
    cases hname
    exact not_raises_requireDbExists found rfl
  | _ => cases h

lemma finds_iff : c.Finds catalog now s ↔ c.IsSpelled catalog s := by
  by_cases habout : c.isAboutDatabase = true
  · exact iff_of_true (finds_of_isAboutDatabase habout) (.inl habout)
  · rw [Bool.not_eq_true] at habout
    rw [IsSpelled, habout, Finds]
    simp only [Bool.false_eq_true, false_or]
    refine forall₂_congr fun name hname => imp_congr_right fun _ => ?_
    split
    · cases habout
    · rw [raises_iff habout hname, not_and, Option.isSome_iff_ne_none]
      constructor
      · intro h
        by_cases hdb : Store.database s catalog.userInSession.orgId name = none
        · have husers := h hdb
          simp only [not_forall, Option.not_isSome_iff_eq_none, exists_prop] at husers
          exact .inr husers
        · exact .inl hdb
      · rintro (hdb | ⟨u, hu, hnone⟩) hmissing husers
        · exact hdb hmissing
        · have hsome := husers u hu
          rw [hnone] at hsome
          cases hsome

end DatabaseCall

end Finds

end Moonbox.Core
