import Moonbox.Catalog.JdbcCatalog
import Moonbox.Catalog.Operations
import Moonbox.Core.Command

/-!
# `MoonboxCatalog`

What a session holds of the catalog. The user and the organization are copied when the session is
opened. The methods that only hand on to `JdbcCatalog` are not repeated.
-/

namespace Moonbox.Core

open Catalog Relational

/-- What the commands use of the world outside: the digest of passwords, the comparison of strings
that ignores case, the data systems behind mounted databases and the schemas the engine finds. -/
structure Env where
  encryptSHA : String → String
  equalsIgnoreCase : String → String → Bool
  test : Properties → Except String Unit
  tableNames : Properties → Except String (List String)
  tableProperties : Properties → String → Properties
  schema : CatalogTable → Except String (List String)

/-- A world in which every table has the columns `id` and `name`. -/
def plainEnv : Env where
  encryptSHA := id
  equalsIgnoreCase a b := a.toLower == b.toLower
  test _ := .ok ()
  tableNames _ := .ok []
  tableProperties props _ := props
  schema _ := .ok ["id", "name"]

structure MoonboxCatalog where
  userInSession : User
  catalogOrg : CatalogOrganization
  catalogUser : CatalogUser
  currentDb : String
  deriving DecidableEq, Repr

/-- Give up with the exception of a computation outside, if it has one. -/
def liftExcept {α : Type} : Except String α → DBIO α
  | .ok a => pure a
  | .error e => .throw e

/-- `++` on maps: the entries of `new` replace those of `old`. -/
def addOptions (old new : Properties) : Properties :=
  (old.filter fun p => !new.any fun q => q.1 == p.1) ++ new

def creatorName (s : Store) (createBy : Int) : Option String :=
  if createBy = -1 then some "SYSTEM"
  else ((s .users).rows.find? fun t => t.id == createBy).map UserEntity.name

lemma wp_userName {s : Store} {createBy : Int} {Q : String → Store → Prop} {X : Store → Prop} :
    Action.wp (JdbcCatalog.userName createBy) Q X s ↔
      match creatorName s createBy with
      | some name => Q name s
      | none => X s := by
  unfold JdbcCatalog.userName creatorName
  split
  · rfl
  · rw [Action.wp_bind]
    apply Iff.trans (Action.wp_query _)
    cases (s .users).rows.find? (fun t => (t.id : Int) == createBy) <;> rfl

variable [Names]

/-- What a database is read as has the name under which it was looked for. -/
lemma wp_getDatabase_of {s : Store} {caller : User} {db : String}
    {Q : CatalogDatabase → Store → Prop} {X : Store → Prop}
    (hQ : ∀ d dbEntity,
      Store.database s caller.orgId (JdbcCatalog.formatDatabaseName db) = some dbEntity →
      d.name = JdbcCatalog.formatDatabaseName db → Q d s)
    (hX : X s) : Action.wp (JdbcCatalog.getDatabase db caller) Q X s := by
  simp only [JdbcCatalog.getDatabase, Action.wp_bind, wp_getDatabase]
  cases hd : Store.database s caller.orgId (JdbcCatalog.formatDatabaseName db) with
  | none => exact hX
  | some dbEntity =>
    simp only [Action.wp_bind, wp_userName]
    split
    · exact hQ _ dbEntity hd rfl
    · exact hX

/-- What a table is read as agrees with its row. -/
lemma wp_getTable_of {s : Store} {caller : User} {db table : String}
    {Q : CatalogTable → Store → Prop} {X : Store → Prop}
    (hQ : ∀ d dbEntity t, Store.database s caller.orgId db = some dbEntity →
      Store.table s dbEntity.id table = some t → d.db = some db → d.name = t.name →
      d.tableType = t.tableType → d.viewText = t.viewText → d.properties = t.properties → Q d s)
    (hX : X s) : Action.wp (JdbcCatalog.getTable db table caller) Q X s := by
  simp only [JdbcCatalog.getTable, Action.wp_bind, wp_getDatabase]
  cases hd : Store.database s caller.orgId db with
  | none => exact hX
  | some dbEntity =>
    simp only [Action.wp_bind, wp_getTable]
    cases ht : Store.table s dbEntity.id table with
    | none => exact hX
    | some t =>
      simp only [Action.wp_bind, wp_userName]
      split
      · exact hQ _ dbEntity t hd ht rfl rfl rfl rfl rfl
      · exact hX

namespace MoonboxCatalog

def setCurrentUser (org user : String) : DBIO MoonboxCatalog := do
  let orgId ← JdbcCatalog.organizationId org
  let userId ← JdbcCatalog.userId orgId user
  let catalogOrg ← JdbcCatalog.getOrganization org
  let catalogUser ← JdbcCatalog.getUser org user
  pure
    { userInSession := { orgId := orgId, org := org, userId := userId, user := user }
      catalogOrg := catalogOrg
      catalogUser := catalogUser
      currentDb := JdbcCatalog.formatDatabaseName DEFAULT_DATABASE }

def setCurrentDb (catalog : MoonboxCatalog) (db : String) : DBIO MoonboxCatalog := do
  match ← JdbcCatalog.databaseExists db catalog.userInSession with
  | true => pure { catalog with currentDb := JdbcCatalog.formatDatabaseName db }
  | false => .throw (noSuchDatabaseException db)

def getCurrentOrg (catalog : MoonboxCatalog) : String := catalog.catalogOrg.name

def getCurrentUser (catalog : MoonboxCatalog) : String := catalog.catalogUser.name

def requireDbExists (catalog : MoonboxCatalog) (db : String) : DBIO Unit := do
  match ← JdbcCatalog.databaseExists db catalog.userInSession with
  | true => pure ()
  | false => .throw (noSuchDatabaseException db)

def requireTableExists (catalog : MoonboxCatalog) (db table : String) : DBIO Unit := do
  match ← JdbcCatalog.tableExists db table catalog.userInSession with
  | true => pure ()
  | false => .throw (noSuchTableException db table)

def requireUserExists (org user : String) : DBIO Unit := do
  match ← JdbcCatalog.userExists org user with
  | true => pure ()
  | false => .throw (noSuchUserException user)

def dropDatabase (catalog : MoonboxCatalog) (database : String)
    (ignoreIfNotExists cascade : Bool) : DBIO Unit :=
  if JdbcCatalog.formatDatabaseName database = DEFAULT_DATABASE then
    .throw "Can not drop default database"
  else JdbcCatalog.dropDatabase database ignoreIfNotExists cascade catalog.userInSession

def listUserInGroup (catalog : MoonboxCatalog) (group : String) : DBIO (List String) := do
  let rel ← JdbcCatalog.listGroupUser group catalog.userInSession
  pure rel.users

/-- The database of an identifier, the current one if it names none. -/
def databaseOf (catalog : MoonboxCatalog) (database : Option String) : String :=
  database.getD catalog.currentDb

end MoonboxCatalog

/-- `MoonboxSession.tableSchema`: the names of the columns of a table or view. -/
def tableSchema (env : Env) (catalog : MoonboxCatalog) (table database : String) :
    DBIO (List String) := do
  let catalogTable ← JdbcCatalog.getTable database table catalog.userInSession
  liftExcept (env.schema catalogTable)

/-- What `getUser` makes of a row. -/
def toCatalogUser (org createBy : String) (e : UserEntity) : CatalogUser :=
  { org := org
    name := e.name
    password := e.password
    account := e.account
    ddl := e.ddl
    dcl := e.dcl
    grantAccount := e.grantAccount
    grantDdl := e.grantDdl
    grantDcl := e.grantDcl
    isSA := e.isSA
    configuration := e.configuration
    createBy := some createBy
    createTime := some e.createTime
    updateTime := some e.updateTime }

section Reads

variable {s : Store} {X : Store → Prop}

lemma wp_catalogOrganization (org : String) {Q : CatalogOrganization → Store → Prop} :
    (JdbcCatalog.getOrganization org).wp Q X s ↔
      match Store.organization s org with
      | some o => Q { name := o.name, config := o.config, description := o.description } s
      | none => X s := by
  rw [JdbcCatalog.getOrganization, Action.wp_bind, wp_getOrganization]
  cases Store.organization s org <;> rfl

/-- A user is read with the name of his creator. -/
lemma wp_catalogUser (org user : String) {Q : CatalogUser → Store → Prop} :
    (JdbcCatalog.getUser org user).wp Q X s ↔
      match Store.organization s org with
      | some o =>
        match Store.user s o.id user with
        | some u =>
          match creatorName s u.createBy with
          | some createBy => Q (toCatalogUser org createBy u) s
          | none => X s
        | none => X s
      | none => X s := by
  rw [JdbcCatalog.getUser, Action.wp_bind, wp_organizationId]
  cases Store.organization s org with
  | none => rfl
  | some o =>
    simp only [Action.wp_bind, wp_getUser]
    cases Store.user s o.id user with
    | none => rfl
    | some u =>
      simp only [Action.wp_bind, wp_userName]
      cases creatorName s u.createBy <;> rfl

/-- A session is opened for a user whose organization and whose creator are there too. -/
lemma wp_setCurrentUser (org user : String) {Q : MoonboxCatalog → Store → Prop} :
    (MoonboxCatalog.setCurrentUser org user).wp Q X s ↔
      match Store.organization s org with
      | some o =>
        match Store.user s o.id user with
        | some u =>
          match creatorName s u.createBy with
          | some createBy =>
            Q { userInSession := { orgId := o.id, org := org, userId := u.id, user := user }
                catalogOrg := { name := o.name, config := o.config, description := o.description }
                catalogUser := toCatalogUser org createBy u
                currentDb := JdbcCatalog.formatDatabaseName DEFAULT_DATABASE } s
          | none => X s
        | none => X s
      | none => X s := by
  simp only [MoonboxCatalog.setCurrentUser, Action.wp_bind, wp_organizationId]
  cases ho : Store.organization s org with
  | none => rfl
  | some o =>
    simp only [wp_userId]
    cases hu : Store.user s o.id user with
    | none => rfl
    | some u =>
      simp only [wp_catalogOrganization, wp_catalogUser, ho, hu]
      cases creatorName s u.createBy <;> rfl

end Reads

/-! ### A small organization -/

def rowOfA : OrganizationEntity :=
  { id := 1
    name := "a"
    config := []
    description := none
    createBy := -1
    createTime := 1
    updateBy := -1
    updateTime := 1 }

def rowOfSa : UserEntity :=
  { id := 1
    name := "sa"
    password := ""
    isSA := true
    organizationId := 1
    createBy := -1
    createTime := 1
    updateBy := -1
    updateTime := 1 }

def rowOfBob : UserEntity :=
  { id := 2
    name := "bob"
    password := ""
    organizationId := 1
    createBy := 1
    createTime := 2
    updateBy := 1
    updateTime := 2 }

/-- The organization a with its administrator and the user bob. -/
def saAndBob : Store :=
  execAll [.insert .organizations rowOfA, .insert .users rowOfSa, .insert .users rowOfBob]
    Store.empty

def sessionOfSa : MoonboxCatalog where
  userInSession := { orgId := 1, org := "a", userId := 1, user := "sa" }
  catalogOrg := { name := "a", config := [] }
  catalogUser := toCatalogUser "a" "SYSTEM" rowOfSa
  currentDb := "default"

def sessionOfBob : MoonboxCatalog where
  userInSession := { orgId := 1, org := "a", userId := 2, user := "bob" }
  catalogOrg := { name := "a", config := [] }
  catalogUser := toCatalogUser "a" "sa" rowOfBob
  currentDb := "default"

end Moonbox.Core
