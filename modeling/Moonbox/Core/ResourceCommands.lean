import Mathlib.Data.List.TakeDrop
import Mathlib.Data.List.TakeWhile
import Moonbox.Core.Privileges

/-!
# Commands on resources

What the commands that grant and revoke privileges on databases, tables and columns do to the set
of privileges held. They go through the same cases, so what each of their parts does is said once
for the four of them (`Stages`) and put together once.
-/

namespace Moonbox.Core

open Catalog Relational

variable [Names]

/-! ### The commands -/

inductive Grantee
  | user (name : String)
  | group (name : String)
  deriving DecidableEq, Repr

structure ResourceCommand where
  grants : Bool
  grantee : Grantee
  privileges : NonemptyList ResourcePrivilege
  tableIdentifier : TableIdentifier

namespace ResourceCommand

def run (env : Env) (catalog : MoonboxCatalog) (now : Nat) (c : ResourceCommand) : DBIO Unit :=
  match c.grants, c.grantee with
  | true, .user user => GrantResourceToUser.run env catalog now c.privileges.1 c.tableIdentifier user
  | true, .group group =>
    GrantResourceToGroup.run env catalog now c.privileges.1 c.tableIdentifier group
  | false, .user user => RevokeResourceFromUser.run catalog c.privileges.1 c.tableIdentifier user
  | false, .group group =>
    RevokeResourceFromGroup.run env catalog now c.privileges.1 c.tableIdentifier group

def types (c : ResourceCommand) : List String := c.privileges.1.map ResourcePrivilege.NAME

/-- The columns the privileges are on, each with its type. -/
def columns (onSelect onUpdate : String) (c : ResourceCommand) : List (String × String) :=
  c.privileges.1.flatMap fun
    | .columnSelect column => column.map fun name => (name, onSelect)
    | .columnUpdate column => column.map fun name => (name, onUpdate)
    | _ => []

/-- The privileges on the table that come before the first on columns. -/
def tableLevel (c : ResourceCommand) : List ResourcePrivilege :=
  c.privileges.1.takeWhile fun p => !p.isColumnLevel

def OnTables (c : ResourceCommand) : Prop := ∀ p ∈ c.privileges.1, p.isColumnLevel = false

def OnColumns (c : ResourceCommand) : Prop := ∀ p ∈ c.privileges.1, p.isColumnLevel = true

instance (c : ResourceCommand) : Decidable c.OnTables :=
  inferInstanceAs (Decidable (∀ p ∈ c.privileges.1, _))

instance (c : ResourceCommand) : Decidable c.OnColumns :=
  inferInstanceAs (Decidable (∀ p ∈ c.privileges.1, _))

end ResourceCommand

/-! ### What a command is about -/

inductive Object
  | databases
  | database (d : DatabaseEntity)
  | table (d : DatabaseEntity) (t : TableEntity)
  deriving DecidableEq

section Lookups

variable (s : Store) (catalog : MoonboxCatalog)

/-- The object of an identifier, if there is one. -/
def objectOf (tableIdentifier : TableIdentifier) : Option Object :=
  let db := catalog.databaseOf tableIdentifier.database
  let orgId := catalog.userInSession.orgId
  if db = "*" then
    if tableIdentifier.table = "*" then some .databases else none
  else
    match Store.database s orgId (JdbcCatalog.formatDatabaseName db), Store.database s orgId db with
    | some _, some d =>
      if tableIdentifier.table = "*" then some (.database d)
      else (Store.table s d.id tableIdentifier.table).map (.table d)
    | _, _ => none

/-- The databases that the names of the listed ones stand for. -/
def listed : List DatabaseEntity :=
  (Store.listDatabases s catalog.userInSession.orgId).filterMap fun e =>
    Store.database s catalog.userInSession.orgId e.1.name

/-- The organization of the name the session has for its own has such a user. -/
def known (user : String) : Bool :=
  match Store.organization s catalog.getCurrentOrg with
  | some o => (Store.user s o.id user).isSome
  | none => false

def found (user : String) : Bool := (Store.user s catalog.userInSession.orgId user).isSome

def Grantee.names : Grantee → Option (List String)
  | .user name => some [name]
  | .group name =>
    (Store.group s catalog.userInSession.orgId name).map fun g => Store.members s g.id

/-- The users of the command, if they are all known. -/
def ResourceCommand.grantees (c : ResourceCommand) : Option (List String) :=
  (c.grantee.names s catalog).filter fun names => names.all (known s catalog)

/-- The users up to the first that is not found. -/
def reached (names : List String) : List Nat :=
  idsOf s catalog.userInSession (Action.upTo (found s catalog) names)

end Lookups

/-! ### Loops over users -/

section Loops

variable {s s₀ : Store} {catalog : MoonboxCatalog} {names : List String} {ps : List Privilege}
  {grants : Bool}

/-- An operation for one user after another. -/
lemma changes_forEach_user {f : String → DBIO Unit}
    (hf : ∀ user, Action.Changes (Beside s₀) Held (f user) (found s₀ catalog user = true)
      (toggle grants (pairs (idsOf s₀ catalog.userInSession [user]) ps))) :
    Action.Changes (Beside s₀) Held (Action.forEach f names)
      (∀ user ∈ names, found s₀ catalog user = true)
      (toggle grants (pairs (reached s₀ catalog names) ps)) := by
  apply (Action.Changes.forEach fun user (_ : user ∈ names) => hf user).congr Iff.rfl
  intro H
  rw [foldl_toggle]
  congr 1
  ext p
  simp [pairs, reached, idsOf]
  grind

/-- One user is a loop over one. -/
lemma changes_one_user {m : DBIO Unit} {user : String}
    (hm : Action.Changes (Beside s₀) Held m (found s₀ catalog user = true)
      (toggle grants (pairs (idsOf s₀ catalog.userInSession [user]) ps))) :
    Action.Changes (Beside s₀) Held m (∀ name ∈ [user], found s₀ catalog name = true)
      (toggle grants (pairs (reached s₀ catalog [user]) ps)) := by
  apply hm.congr (by simp)
  intro H
  simp [reached, Action.upTo]

end Loops

/-! ### Lookups of a command -/

section Lookups

variable {s s₀ : Store} {catalog : MoonboxCatalog}

lemma Beside.organization {name : String} (h : Beside s₀ s) :
    Store.organization s name = Store.organization s₀ name := by
  rw [Store.organization, h .organizations (by simp [IsPrivilege]), Store.organization]

lemma Beside.group {orgId : Nat} {name : String} (h : Beside s₀ s) :
    Store.group s orgId name = Store.group s₀ orgId name := by
  rw [Store.group, h .groups (by simp [IsPrivilege]), Store.group]

omit [Names] in
lemma Beside.members {groupId : Nat} (h : Beside s₀ s) :
    Store.members s groupId = Store.members s₀ groupId := by
  rw [Store.members, h .groupUserRels (by simp [IsPrivilege]), h .users (by simp [IsPrivilege]),
    Store.members]

omit [Names] in
lemma Beside.listDatabases {orgId : Nat} (h : Beside s₀ s) :
    Store.listDatabases s orgId = Store.listDatabases s₀ orgId := by
  rw [Store.listDatabases, h .databases (by simp [IsPrivilege]), h .users (by simp [IsPrivilege]),
    Store.listDatabases]

lemma reads_requireUserExists {user : String} (h : known s₀ catalog user = true) :
    Action.Reads (Beside s₀) (MoonboxCatalog.requireUserExists catalog.getCurrentOrg user) () := by
  intro s hs
  simp only [MoonboxCatalog.requireUserExists, JdbcCatalog.userExists, Action.wp_bind,
    wp_organizationId, hs.organization]
  unfold known at h
  cases ho : Store.organization s₀ catalog.getCurrentOrg with
  | none => simp [ho] at h
  | some o =>
    simp only [ho] at h
    simp only [wp_userExists, hs.user, h]
    exact ⟨trivial, rfl⟩

lemma refuses_requireUserExists {user : String} (h : known s₀ catalog user = false) :
    Action.Refuses (Beside s₀)
      (MoonboxCatalog.requireUserExists catalog.getCurrentOrg user) := by
  intro s hs
  simp only [MoonboxCatalog.requireUserExists, JdbcCatalog.userExists, Action.wp_bind,
    wp_organizationId, hs.organization]
  unfold known at h
  cases ho : Store.organization s₀ catalog.getCurrentOrg with
  | none => trivial
  | some o =>
    simp only [ho] at h
    simp only [wp_userExists, hs.user, h]
    trivial

lemma reads_requireUsersExist {names : List String}
    (h : ∀ user ∈ names, known s₀ catalog user = true) :
    Action.Reads (Beside s₀)
      (Action.forEach (MoonboxCatalog.requireUserExists catalog.getCurrentOrg) names) () := by
  induction names with
  | nil => exact fun s hs => ⟨rfl, rfl⟩
  | cons user names ih =>
    exact (reads_requireUserExists (h user (by simp))).bind (ih fun user' h' => h user' (by simp [h']))

lemma refuses_requireUsersExist {names : List String}
    (h : ∃ user ∈ names, known s₀ catalog user = false) :
    Action.Refuses (Beside s₀)
      (Action.forEach (MoonboxCatalog.requireUserExists catalog.getCurrentOrg) names) := by
  induction names with
  | nil => simp at h
  | cons user names ih =>
    cases hu : known s₀ catalog user with
    | false => exact (refuses_requireUserExists hu).bind
    | true =>
      apply (reads_requireUserExists hu).bind_refuses
      apply ih
      simpa [hu] using h

lemma reads_listUserInGroup {group : String} {names : List String}
    (h : (Grantee.group group).names s₀ catalog = some names) :
    Action.Reads (Beside s₀) (catalog.listUserInGroup group) names := by
  intro s hs
  obtain ⟨g, hg, heq⟩ := Option.map_eq_some_iff.mp h
  simp only [MoonboxCatalog.listUserInGroup, JdbcCatalog.listGroupUser, Action.wp_bind, wp_getGroup,
    hs.group, hg, wp_getGroupUserRelsByGroup, hs.members, heq]
  exact ⟨rfl, rfl⟩

lemma refuses_listUserInGroup {group : String}
    (h : (Grantee.group group).names s₀ catalog = none) :
    Action.Refuses (Beside s₀) (catalog.listUserInGroup group) := by
  intro s hs
  simp only [MoonboxCatalog.listUserInGroup, JdbcCatalog.listGroupUser, Action.wp_bind, wp_getGroup,
    hs.group, Option.map_eq_none_iff.mp h]
  rfl

end Lookups

/-! ### Columns of a table -/

section Columns

variable {s s₀ : Store} {env : Env} {catalog : MoonboxCatalog} {db table : String}
  {d : DatabaseEntity} {t : TableEntity}

omit [Names] in
lemma Beside.creatorName {createBy : Int} (h : Beside s₀ s) :
    creatorName s createBy = Core.creatorName s₀ createBy := by
  rw [Core.creatorName, h .users (by simp [IsPrivilege]), Core.creatorName]

/-- The columns the engine finds in the table, unless its creator is gone or it finds none. -/
def columnsOfTable (env : Env) (s : Store) (db : String) (t : TableEntity) :
    Option (List String) :=
  match creatorName s t.createBy with
  | some owner =>
    (env.schema
      { db := some db
        name := t.name
        tableType := t.tableType
        description := t.description
        properties := t.properties
        viewText := t.viewText
        isStream := t.isStream
        tableSize := t.tableSize
        owner := some owner }).toOption
  | none => none

lemma reads_tableSchema {schema : List String}
    (hd : Store.database s₀ catalog.userInSession.orgId db = some d)
    (ht : Store.table s₀ d.id table = some t) (h : columnsOfTable env s₀ db t = some schema) :
    Action.Reads (Beside s₀) (tableSchema env catalog table db) schema := by
  intro s hs
  unfold columnsOfTable at h
  simp only [tableSchema, JdbcCatalog.getTable, Action.wp_bind, wp_getDatabase, wp_getTable,
    wp_userName, hs.database, hs.table, hs.creatorName, hd, ht]
  cases ho : creatorName s₀ t.createBy with
  | none => simp [ho] at h
  | some owner =>
    simp only [ho] at h
    show Action.wp (liftExcept (env.schema _)) _ _ s
    cases he : env.schema _ with
    | error e => rw [he] at h; cases h
    | ok columns =>
      rw [he] at h
      cases h
      exact ⟨rfl, rfl⟩

lemma refuses_tableSchema (hd : Store.database s₀ catalog.userInSession.orgId db = some d)
    (ht : Store.table s₀ d.id table = some t) (h : columnsOfTable env s₀ db t = none) :
    Action.Refuses (Beside s₀) (tableSchema env catalog table db) := by
  intro s hs
  unfold columnsOfTable at h
  simp only [tableSchema, JdbcCatalog.getTable, Action.wp_bind, wp_getDatabase, wp_getTable,
    wp_userName, hs.database, hs.table, hs.creatorName, hd, ht]
  cases ho : creatorName s₀ t.createBy with
  | none => trivial
  | some owner =>
    simp only [ho] at h
    show Action.wp (liftExcept (env.schema _)) _ _ s
    cases he : env.schema _ with
    | error e => rfl
    | ok columns => rw [he] at h; cases h

variable {c : ResourceCommand} {onSelect onUpdate : String}

omit [Names] in
lemma columnsOf_eq (h : c.OnColumns) :
    columnsOf onSelect onUpdate c.privileges.1 = pure (c.columns onSelect onUpdate) := by
  unfold ResourceCommand.OnColumns at h
  unfold ResourceCommand.columns
  generalize c.privileges.1 = privileges at h ⊢
  induction privileges with
  | nil => rfl
  | cons p ps ih =>
    have ih := ih fun p' hp' => h p' (by simp [hp'])
    have hp := h p (by simp)
    cases p with
    | columnSelect column =>
      rw [columnsOf, ih]
      rfl
    | columnUpdate column =>
      rw [columnsOf, ih]
      rfl
    | _ => cases hp

omit [Names] in
lemma columnsOf_eq_throw (h : ¬ c.OnColumns) :
    columnsOf onSelect onUpdate c.privileges.1 = .throw "scala.MatchError" := by
  unfold ResourceCommand.OnColumns at h
  generalize c.privileges.1 = privileges at h ⊢
  induction privileges with
  | nil => simp at h
  | cons p ps ih =>
    cases p with
    | columnSelect column =>
      rw [columnsOf, ih (by simpa [ResourcePrivilege.isColumnLevel] using h)]
      rfl
    | columnUpdate column =>
      rw [columnsOf, ih (by simpa [ResourcePrivilege.isColumnLevel] using h)]
      rfl
    | _ => rfl

omit [Names] in
lemma requireColumns_eq {columns : List (String × String)} {schema : List String} :
    requireColumns columns schema =
      if ∀ x ∈ columns, x.1 ∈ schema then pure ()
      else .throw (", ".intercalate (missingColumns columns schema) ++ " does not exist") := by
  have hmissing : missingColumns columns schema = [] ↔ ∀ x ∈ columns, x.1 ∈ schema := by
    simp [missingColumns, List.mem_eraseDups]
  rw [requireColumns]
  simp only [hmissing]

end Columns

/-! ### How far a command gets -/

namespace ResourceCommand

variable (env : Env) (s : Store) (catalog : MoonboxCatalog) (c : ResourceCommand)

/-- The type that a column listed for UPDATE is given. -/
def storesUpdateAs : String :=
  match c.grants, c.grantee with
  | true, .user _ => "UPDATE"
  | _, _ => "SELECT"

/-- What the command does on the level of a table: revoking from a group gives, too. -/
def createsOnTable : Bool :=
  match c.grants, c.grantee with
  | false, .user _ => false
  | _, _ => true

/-- The listed columns are there, for the commands that look. -/
def HasColumns (t : TableEntity) : Prop :=
  match c.grants, c.grantee with
  | false, .user _ => True
  | _, _ => ∃ schema,
      columnsOfTable env s (catalog.databaseOf c.tableIdentifier.database) t = some schema ∧
        ∀ x ∈ c.columns "SELECT" c.storesUpdateAs, x.1 ∈ schema

/-- The command ends normally. -/
def Completes (names : List String) : Object → Prop
  | .databases =>
    c.OnTables ∧ (listed s catalog = [] ∨ ∀ user ∈ names, found s catalog user = true)
  | .database _ => c.OnTables ∧ ∀ user ∈ names, found s catalog user = true
  | .table _ t =>
    (c.OnTables ∨ (c.OnColumns ∧ c.HasColumns env s catalog t)) ∧
      ∀ user ∈ names, found s catalog user = true

open Classical in
/-- The privileges that the command writes for every user it reaches. It stops at the first
database if it does not reach them all. -/
noncomputable def written (names : List String) : Object → List Privilege
  | .databases =>
    if c.OnTables then
      (if ∀ user ∈ names, found s catalog user = true then listed s catalog
        else (listed s catalog).take 1).flatMap fun d => onDatabase d.id c.types
    else []
  | .database d => if c.OnTables then onDatabase d.id c.types else []
  | .table d t =>
    if c.tableLevel ≠ [] then onTable d.id t.id (c.tableLevel.map ResourcePrivilege.NAME)
    else if c.OnColumns ∧ c.HasColumns env s catalog t then
      onColumns d.id t.id (c.columns "SELECT" c.storesUpdateAs)
    else []

/-- Whether it gives what it writes. -/
def creates : Object → Bool
  | .table _ _ => if c.tableLevel ≠ [] then c.createsOnTable else c.grants
  | _ => c.grants

variable {env s catalog c} {names : List String}

omit [Names] in
lemma tableLevel_of_onTables (h : c.OnTables) : c.tableLevel = c.privileges.1 := by
  rw [tableLevel, List.takeWhile_eq_self_iff]
  intro p hp
  simp [h p hp]

omit [Names] in
lemma onColumns_of_tableLevel (h : c.OnColumns) : c.tableLevel = [] := by
  unfold OnColumns at h
  unfold tableLevel
  generalize c.privileges.1 = privileges at h ⊢
  cases privileges with
  | nil => rfl
  | cons p ps => simp [h p (by simp)]

omit [Names] in
lemma onTables_iff : c.OnTables ↔ c.privileges.1.any ResourcePrivilege.isColumnLevel = false := by
  simp [OnTables]

omit [Names] in
lemma span_privileges : c.privileges.1.span (fun p => !p.isColumnLevel) =
    (c.tableLevel, c.privileges.1.dropWhile fun p => !p.isColumnLevel) :=
  List.span_eq_takeWhile_dropWhile _ _

omit [Names] in
lemma onTables_iff_dropWhile :
    c.OnTables ↔ (c.privileges.1.dropWhile fun p => !p.isColumnLevel) = [] := by
  simp [OnTables, List.dropWhile_eq_nil_iff]

/-- What the parts of a command do, each on its level. -/
structure Stages (env : Env) (s₀ : Store) (catalog : MoonboxCatalog) (c : ResourceCommand)
    (names : List String) (onDb : String → DBIO Unit)
    (onTb onCols : String → String → List ResourcePrivilege → DBIO Unit) : Prop where
  database : ∀ db d, Store.database s₀ catalog.userInSession.orgId db = some d →
    Action.Changes (Beside s₀) Held (onDb db) (∀ user ∈ names, found s₀ catalog user = true)
      (toggle c.grants (pairs (reached s₀ catalog names) (onDatabase d.id c.types)))
  noDatabase : ∀ db, Store.database s₀ catalog.userInSession.orgId db = none →
    ∃ ok, Action.Changes (Beside s₀) Held (onDb db) ok id
  table : ∀ db tb d t ps, Store.database s₀ catalog.userInSession.orgId db = some d →
    Store.table s₀ d.id tb = some t →
    Action.Changes (Beside s₀) Held (onTb db tb ps) (∀ user ∈ names, found s₀ catalog user = true)
      (toggle c.createsOnTable (pairs (reached s₀ catalog names)
        (onTable d.id t.id (ps.map ResourcePrivilege.NAME))))
  columns : ∀ tb d t, Store.database s₀ catalog.userInSession.orgId
      (catalog.databaseOf c.tableIdentifier.database) = some d →
    Store.table s₀ d.id tb = some t → c.OnColumns → c.HasColumns env s₀ catalog t →
    Action.Changes (Beside s₀) Held
      (onCols (catalog.databaseOf c.tableIdentifier.database) tb c.privileges.1)
      (∀ user ∈ names, found s₀ catalog user = true)
      (toggle c.grants (pairs (reached s₀ catalog names)
        (onColumns d.id t.id (c.columns "SELECT" c.storesUpdateAs))))
  noColumns : ∀ tb d t, Store.database s₀ catalog.userInSession.orgId
      (catalog.databaseOf c.tableIdentifier.database) = some d →
    Store.table s₀ d.id tb = some t → ¬ (c.OnColumns ∧ c.HasColumns env s₀ catalog t) →
    Action.Refuses (Beside s₀)
      (onCols (catalog.databaseOf c.tableIdentifier.database) tb c.privileges.1)

section Requirements

variable {db table : String} {d : DatabaseEntity}

lemma reads_requireDbExists (h : (Store.database s catalog.userInSession.orgId
    (JdbcCatalog.formatDatabaseName db)).isSome = true) :
    Action.Reads (Beside s) (catalog.requireDbExists db) () := by
  intro s' hs
  simp only [MoonboxCatalog.requireDbExists, JdbcCatalog.databaseExists, Action.wp_bind,
    wp_databaseExists, hs.database, h]
  exact ⟨trivial, rfl⟩

lemma refuses_requireDbExists (h : Store.database s catalog.userInSession.orgId
    (JdbcCatalog.formatDatabaseName db) = none) :
    Action.Refuses (Beside s) (catalog.requireDbExists db) := by
  intro s' hs
  simp only [MoonboxCatalog.requireDbExists, JdbcCatalog.databaseExists, Action.wp_bind,
    wp_databaseExists, hs.database, h]
  trivial

lemma reads_requireTableExists (hd : Store.database s catalog.userInSession.orgId db = some d)
    (ht : (Store.table s d.id table).isSome = true) :
    Action.Reads (Beside s) (catalog.requireTableExists db table) () := by
  intro s' hs
  simp only [MoonboxCatalog.requireTableExists, JdbcCatalog.tableExists, Action.wp_bind,
    wp_getDatabase, hs.database, hd, wp_tableExists, hs.table, ht]
  exact ⟨trivial, rfl⟩

lemma refuses_requireTableExists (table : String)
    (h : ∀ d, Store.database s catalog.userInSession.orgId db = some d →
      Store.table s d.id table = none) :
    Action.Refuses (Beside s) (catalog.requireTableExists db table) := by
  intro s' hs
  simp only [MoonboxCatalog.requireTableExists, JdbcCatalog.tableExists, Action.wp_bind,
    wp_getDatabase, hs.database]
  cases hd : Store.database s catalog.userInSession.orgId db with
  | none => trivial
  | some d =>
    simp only [wp_tableExists, hs.table, h d hd]
    trivial

/-- What `listDatabases` makes of a row and its creator. -/
def toCatalogDatabase (e : DatabaseEntity × UserEntity) : CatalogDatabase :=
  { name := e.1.name
    description := e.1.description
    properties := e.1.properties
    isLogical := e.1.isLogical
    owner := some e.2.name }

omit [Names] in
lemma reads_listDatabases {orgId : Nat} (caller : User) (h : caller.orgId = orgId) :
    Action.Reads (Beside s) (JdbcCatalog.listDatabases caller)
      ((Store.listDatabases s orgId).map toCatalogDatabase) := by
  intro s' hs
  rw [← h, ← hs.listDatabases]
  exact ⟨rfl, rfl⟩

end Requirements

section Stages

variable {onDb : String → DBIO Unit}
  {onTb onCols : String → String → List ResourcePrivilege → DBIO Unit}

/-- The entity of a listed database is found by its name. -/
lemma database_of_listed {e : DatabaseEntity × UserEntity}
    (h : e ∈ Store.listDatabases s catalog.userInSession.orgId) :
    ∃ d, Store.database s catalog.userInSession.orgId e.1.name = some d := by
  simp only [Store.listDatabases, List.mem_flatMap, List.mem_map, List.mem_filter] at h
  obtain ⟨t, ⟨ht, horg⟩, u, _, heq⟩ := h
  rw [← heq]
  apply Option.isSome_iff_exists.mp
  rw [Store.database, List.find?_isSome]
  exact ⟨t, ht, by simp [horg, sameName]⟩

lemma listed_eq :
    ((Store.listDatabases s catalog.userInSession.orgId).map toCatalogDatabase).filterMap
      (fun e => Store.database s catalog.userInSession.orgId e.name) = listed s catalog := by
  rw [List.filterMap_map]
  rfl

lemma listed_take : (((Store.listDatabases s catalog.userInSession.orgId).map
    toCatalogDatabase).take 1).filterMap
      (fun e => Store.database s catalog.userInSession.orgId e.name) =
        (listed s catalog).take 1 := by
  unfold listed
  cases hl : Store.listDatabases s catalog.userInSession.orgId with
  | nil => rfl
  | cons e es =>
    have hfound : ∃ d, Store.database s catalog.userInSession.orgId e.1.name = some d :=
      database_of_listed (by simp [hl])
    obtain ⟨d, hd⟩ := hfound
    simp [toCatalogDatabase, hd]

lemma listed_eq_nil : listed s catalog = [] ↔
    (Store.listDatabases s catalog.userInSession.orgId).map toCatalogDatabase = [] := by
  unfold listed
  cases hl : Store.listDatabases s catalog.userInSession.orgId with
  | nil => simp
  | cons e es =>
    have hfound : ∃ d, Store.database s catalog.userInSession.orgId e.1.name = some d :=
      database_of_listed (by simp [hl])
    obtain ⟨d, hd⟩ := hfound
    simp [hd]

/-- The loop over the listed databases goes on to the second only if it reaches every user. -/
lemma Stages.databases (h : Stages env s catalog c names onDb onTb onCols)
    {dbs : List CatalogDatabase}
    (hdbs : ∀ e ∈ dbs, ∃ d, Store.database s catalog.userInSession.orgId e.name = some d) :
    Action.Changes (Beside s) Held (Action.forEach (fun e : CatalogDatabase => onDb e.name) dbs)
      (dbs = [] ∨ ∀ user ∈ names, found s catalog user = true)
      (toggle c.grants (pairs (reached s catalog names)
        (((if ∀ user ∈ names, found s catalog user = true then dbs else dbs.take 1).filterMap
          fun e => Store.database s catalog.userInSession.orgId e.name).flatMap
            fun d => onDatabase d.id c.types))) := by
  let all : Bool := decide (∀ user ∈ names, found s catalog user = true)
  let change : CatalogDatabase → Set (Nat × Privilege) → Set (Nat × Privilege) := fun e =>
    toggle c.grants (pairs (reached s catalog names)
      ((Store.database s catalog.userInSession.orgId e.name).toList.flatMap
        fun d => onDatabase d.id c.types))
  have hbody : ∀ e ∈ dbs, Action.Changes (Beside s) Held (onDb e.name) (all = true) (change e) := by
    intro e he
    obtain ⟨d, hd⟩ := hdbs e he
    apply (h.database e.name d hd).congr (by simp [all])
    intro H
    simp [change, hd]
  apply (Action.Changes.forEach hbody).congr
  · cases dbs with
    | nil => simp
    | cons e dbs => simp only [all, List.mem_cons, forall_eq_or_imp, decide_eq_true_eq]; simp; grind
  · intro H
    rw [foldl_toggle, Action.upTo_const]
    congr 1
    ext p
    simp [all, pairs]
    grind

lemma Stages.onDatabases (h : Stages env s catalog c names onDb onTb onCols)
    (hdb : catalog.databaseOf c.tableIdentifier.database = "*") (htb : c.tableIdentifier.table = "*") :
    Action.Changes (Beside s) Held
      (onResource catalog c.privileges.1 c.tableIdentifier onDb onTb onCols)
      (c.Completes env s catalog names .databases)
      (toggle c.grants (pairs (reached s catalog names)
        (c.written env s catalog names .databases))) := by
  rw [onResource, if_pos hdb]
  by_cases hon : c.OnTables
  · have hany := onTables_iff.mp hon
    rw [if_neg (by simp [htb, hany])]
    have hdbs : ∀ e ∈ (Store.listDatabases s catalog.userInSession.orgId).map toCatalogDatabase,
        ∃ d, Store.database s catalog.userInSession.orgId e.name = some d := by
      intro e he
      obtain ⟨e', he', heq⟩ := List.mem_map.mp he
      rw [← heq]
      exact database_of_listed he'
    apply ((reads_listDatabases _ rfl).after (h.databases hdbs)).congr
    · rw [Completes, listed_eq_nil]
      exact (and_iff_right hon).symm
    · intro H
      rw [written, if_pos hon]
      split_ifs with hall
      · rw [listed_eq]
      · rw [listed_take]
  · have hany : c.privileges.1.any ResourcePrivilege.isColumnLevel = true := by
      rw [onTables_iff] at hon
      simpa using hon
    rw [if_pos (Or.inr hany)]
    apply (Action.Changes.throw _).congr
    · simp [Completes, hon]
    · intro H
      rw [written, if_neg hon, toggle_pairs_no_privileges]
      rfl

lemma Stages.onResource_of_none (h : Stages env s catalog c names onDb onTb onCols)
    (hobject : objectOf s catalog c.tableIdentifier = none) :
    ∃ ok, Action.Changes (Beside s) Held
      (onResource catalog c.privileges.1 c.tableIdentifier onDb onTb onCols) ok id := by
  unfold objectOf at hobject
  rw [onResource]
  by_cases hdb : catalog.databaseOf c.tableIdentifier.database = "*"
  · rw [if_pos hdb] at hobject ⊢
    have htb : c.tableIdentifier.table ≠ "*" := by
      intro htb
      simp [htb] at hobject
    rw [if_pos (Or.inl htb)]
    exact ⟨_, .throw _⟩
  · rw [if_neg hdb] at hobject ⊢
    cases hformatted : Store.database s catalog.userInSession.orgId
        (JdbcCatalog.formatDatabaseName (catalog.databaseOf c.tableIdentifier.database)) with
    | none =>
      have hrefuses := refuses_requireDbExists hformatted
      split
      · exact ⟨_, hrefuses.bind.changes⟩
      · exact ⟨_, hrefuses.bind.changes⟩
    | some f =>
      have hrequire := reads_requireDbExists (Option.isSome_iff_exists.mpr ⟨f, hformatted⟩)
      simp only [hformatted] at hobject
      cases hd : Store.database s catalog.userInSession.orgId
          (catalog.databaseOf c.tableIdentifier.database) with
      | none =>
        split
        · obtain ⟨ok, hok⟩ := h.noDatabase _ hd
          by_cases hany : c.privileges.1.any ResourcePrivilege.isColumnLevel = true
          · exact ⟨_, hrequire.after (by rw [if_pos hany]; exact .throw _)⟩
          · exact ⟨ok, hrequire.after (by rw [if_neg hany]; exact hok)⟩
        · have hrefuses := refuses_requireTableExists c.tableIdentifier.table
            fun d hd' => by rw [hd] at hd'; cases hd'
          exact ⟨_, (hrequire.bind_refuses hrefuses.bind).changes⟩
      | some d =>
        simp only [hd] at hobject
        have htb : c.tableIdentifier.table ≠ "*" := by
          intro htb
          simp [htb] at hobject
        rw [if_neg htb] at hobject ⊢
        have hrefuses := refuses_requireTableExists c.tableIdentifier.table
          fun d' hd' => by
            rw [hd] at hd'
            cases hd'
            exact Option.map_eq_none_iff.mp hobject
        exact ⟨_, (hrequire.bind_refuses hrefuses.bind).changes⟩

lemma Stages.onTable (h : Stages env s catalog c names onDb onTb onCols) {tb : String}
    {d : DatabaseEntity} {t : TableEntity}
    (hd : Store.database s catalog.userInSession.orgId
      (catalog.databaseOf c.tableIdentifier.database) = some d)
    (ht : Store.table s d.id tb = some t) :
    Action.Changes (Beside s) Held
      (do
        let (tableLevel, columnLevel) := c.privileges.1.span fun p => !p.isColumnLevel
        if tableLevel ≠ [] then
          onTb (catalog.databaseOf c.tableIdentifier.database) tb tableLevel else pure ()
        if columnLevel ≠ [] then
          onCols (catalog.databaseOf c.tableIdentifier.database) tb c.privileges.1 else pure ())
      (c.Completes env s catalog names (.table d t))
      (toggle (c.creates (.table d t)) (pairs (reached s catalog names)
        (c.written env s catalog names (.table d t)))) := by
  rw [span_privileges]
  by_cases htl : c.tableLevel = []
  · have hnot : ¬ c.OnTables := by
      intro hon
      rw [tableLevel_of_onTables hon] at htl
      exact c.privileges.2 htl
    have hcl : (c.privileges.1.dropWhile fun p => !p.isColumnLevel) ≠ [] :=
      fun heq => hnot (onTables_iff_dropWhile.mpr heq)
    simp only [htl, hcl, ne_eq, not_true_eq_false, not_false_eq_true, if_true, if_false]
    rw [creates, written, if_neg (by simpa using htl), if_neg (by simpa using htl)]
    by_cases hcols : c.OnColumns ∧ c.HasColumns env s catalog t
    · rw [if_pos hcols]
      apply (h.columns tb d t hd ht hcols.1 hcols.2).congr _ fun _ => rfl
      simp [Completes, hcols]
    · rw [if_neg hcols]
      apply (h.noColumns tb d t hd ht hcols).changes.congr
      · simp [Completes, hnot, hcols]
      · exact fun H => (toggle_pairs_no_privileges _).symm
  · have hfst := h.table (catalog.databaseOf c.tableIdentifier.database) tb d t c.tableLevel hd ht
    simp only [htl, ne_eq, not_false_eq_true, if_true]
    rw [creates, written, if_pos htl, if_pos htl]
    have hnot : ¬ c.OnColumns := fun hon => htl (onColumns_of_tableLevel hon)
    by_cases hall : ∀ user ∈ names, found s catalog user = true
    · by_cases hon : c.OnTables
      · have hcl := onTables_iff_dropWhile.mp hon
        simp only [hcl, not_true_eq_false, if_false]
        have hthen := hfst.bind hall fun _ => .pure ()
        apply hthen.congr _ fun _ => rfl
        simp only [Completes, hon, true_or, true_and, true_iff]
        exact hall
      · have hcl : (c.privileges.1.dropWhile fun p => !p.isColumnLevel) ≠ [] :=
          fun heq => hon (onTables_iff_dropWhile.mpr heq)
        have hrefuses := h.noColumns tb d t hd ht fun hcols => hnot hcols.1
        simp only [hcl, not_false_eq_true, if_true]
        have hthen := hfst.bind hall fun _ => hrefuses.changes
        apply hthen.congr _ fun _ => rfl
        simp [Completes, hon, hnot]
    · apply (hfst.bind_of_not hall).congr _ fun _ => rfl
      simp [Completes, hall]

lemma Stages.onResource {o : Object} (h : Stages env s catalog c names onDb onTb onCols)
    (hobject : objectOf s catalog c.tableIdentifier = some o) :
    Action.Changes (Beside s) Held
      (onResource catalog c.privileges.1 c.tableIdentifier onDb onTb onCols)
      (c.Completes env s catalog names o)
      (toggle (c.creates o) (pairs (reached s catalog names) (c.written env s catalog names o))) := by
  unfold objectOf at hobject
  by_cases hdb : catalog.databaseOf c.tableIdentifier.database = "*"
  · rw [if_pos hdb] at hobject
    split_ifs at hobject with htb
    cases hobject
    exact h.onDatabases hdb htb
  · rw [if_neg hdb] at hobject
    rw [Core.onResource, if_neg hdb]
    split at hobject
    · rename_i f d hformatted hd
      have hrequire := reads_requireDbExists (Option.isSome_iff_exists.mpr ⟨f, hformatted⟩)
      by_cases htb : c.tableIdentifier.table = "*"
      · rw [if_pos htb] at hobject ⊢
        cases hobject
        apply hrequire.after
        by_cases hon : c.OnTables
        · rw [if_neg (by simp [onTables_iff.mp hon])]
          apply (h.database _ d hd).congr
          · simp [Completes, hon]
          · simp [creates, written, hon]
        · rw [if_pos (by rw [onTables_iff] at hon; simpa using hon)]
          apply (Action.Changes.throw _).congr
          · simp [Completes, hon]
          · intro H
            rw [written, if_neg hon, toggle_pairs_no_privileges]
            rfl
      · rw [if_neg htb] at hobject ⊢
        obtain ⟨t, ht, heq⟩ := Option.map_eq_some_iff.mp hobject
        cases heq
        apply hrequire.after
        apply (reads_requireTableExists hd (Option.isSome_iff_exists.mpr ⟨t, ht⟩)).after
        exact h.onTable hd ht
    · cases hobject

end Stages

/-! ### The four commands -/

section Commands

variable {now : Nat}

lemma refuses_createDatabasePrivilege {p : CatalogDatabasePrivilege}
    (hd : Store.database s catalog.userInSession.orgId p.database = none) :
    Action.Refuses (Beside s)
      (JdbcCatalog.createDatabasePrivilege p catalog.userInSession now) := by
  intro s' hs
  simp only [JdbcCatalog.createDatabasePrivilege, Action.wp_bind, wp_userId, hs.user]
  cases Store.user s catalog.userInSession.orgId p.user with
  | none => trivial
  | some u =>
    simp only [wp_getDatabase, hs.database, hd]
    rfl

lemma refuses_dropDatabasePrivilege {user db : String} {types : List String}
    (hd : Store.database s catalog.userInSession.orgId db = none) :
    Action.Refuses (Beside s)
      (JdbcCatalog.dropDatabasePrivilege user db types catalog.userInSession) := by
  intro s' hs
  simp only [JdbcCatalog.dropDatabasePrivilege, Action.wp_bind, wp_userId, hs.user]
  cases Store.user s catalog.userInSession.orgId user with
  | none => trivial
  | some u =>
    simp only [wp_getDatabase, hs.database, hd]
    rfl

lemma changes_forEach_of_refuses {f : String → DBIO Unit}
    (hf : ∀ user, Action.Refuses (Beside s) (f user)) :
    ∃ ok, Action.Changes (Beside s) Held (Action.forEach f names) ok id := by
  cases names with
  | nil => exact ⟨_, .pure ()⟩
  | cons user names => exact ⟨_, (hf user).bind.changes⟩

/-- The columns are looked up before the privileges on them are written. -/
lemma changes_checked {tb : String} {d : DatabaseEntity} {t : TableEntity} {onUpdate : String}
    {write : List (String × String) → DBIO Unit} {ok : Prop}
    {change : Set (Nat × Privilege) → Set (Nat × Privilege)}
    (hd : Store.database s catalog.userInSession.orgId
      (catalog.databaseOf c.tableIdentifier.database) = some d)
    (ht : Store.table s d.id tb = some t) (hcols : c.OnColumns)
    (h : ∃ schema,
      columnsOfTable env s (catalog.databaseOf c.tableIdentifier.database) t = some schema ∧
        ∀ x ∈ c.columns "SELECT" onUpdate, x.1 ∈ schema)
    (hwrite : Action.Changes (Beside s) Held (write (c.columns "SELECT" onUpdate)) ok change) :
    Action.Changes (Beside s) Held
      (do
        let schema ← tableSchema env catalog tb (catalog.databaseOf c.tableIdentifier.database)
        let columns ← columnsOf "SELECT" onUpdate c.privileges.1
        requireColumns columns schema
        write columns) ok change := by
  obtain ⟨schema, hschema, hall⟩ := h
  apply (reads_tableSchema hd ht hschema).after
  rw [columnsOf_eq hcols]
  show Action.Changes _ _ (requireColumns _ _ >>= fun _ => _) _ _
  rw [requireColumns_eq, if_pos hall]
  exact hwrite

lemma refuses_checked {tb : String} {d : DatabaseEntity} {t : TableEntity} {onUpdate : String}
    {write : List (String × String) → DBIO Unit}
    (hd : Store.database s catalog.userInSession.orgId
      (catalog.databaseOf c.tableIdentifier.database) = some d)
    (ht : Store.table s d.id tb = some t)
    (h : ¬ (c.OnColumns ∧ ∃ schema,
      columnsOfTable env s (catalog.databaseOf c.tableIdentifier.database) t = some schema ∧
        ∀ x ∈ c.columns "SELECT" onUpdate, x.1 ∈ schema)) :
    Action.Refuses (Beside s)
      (do
        let schema ← tableSchema env catalog tb (catalog.databaseOf c.tableIdentifier.database)
        let columns ← columnsOf "SELECT" onUpdate c.privileges.1
        requireColumns columns schema
        write columns) := by
  cases hschema : columnsOfTable env s (catalog.databaseOf c.tableIdentifier.database) t with
  | none => exact (refuses_tableSchema hd ht hschema).bind
  | some schema =>
    apply (reads_tableSchema hd ht hschema).bind_refuses
    by_cases hcols : c.OnColumns
    · rw [columnsOf_eq hcols]
      show Action.Refuses _ (requireColumns _ _ >>= fun _ => _)
      rw [requireColumns_eq, if_neg fun hall => h ⟨hcols, schema, hschema, hall⟩]
      exact fun s' hs => rfl
    · rw [columnsOf_eq_throw hcols]
      exact fun s' hs => rfl

/-- What follows the requirements of a command decides what it does. -/
lemma stages_run (env : Env) (now : Nat) (hnames : c.grantees s catalog = some names) :
    ∃ onDb onTb onCols, Stages env s catalog c names onDb onTb onCols ∧ ∀ ok change,
      Action.Changes (Beside s) Held
        (onResource catalog c.privileges.1 c.tableIdentifier onDb onTb onCols) ok change →
      Action.Changes (Beside s) Held (c.run env catalog now) ok change := by
  obtain ⟨hnames, hknown⟩ := Option.filter_eq_some_iff.mp hnames
  have hknown : ∀ user ∈ names, known s catalog user = true := by simpa using hknown
  obtain ⟨grants, grantee, privileges, tableIdentifier⟩ := c
  cases grantee with
  | user user =>
    cases hnames
    have hrequire := reads_requireUserExists (hknown user (by simp))
    cases grants with
    | true =>
      refine ⟨_, _, _, ⟨?_, ?_, ?_, ?_, ?_⟩, fun ok change h => hrequire.after h⟩
      · exact fun db d hd => changes_one_user (changes_createDatabasePrivilege hd)
      · exact fun db hd => ⟨_, (refuses_createDatabasePrivilege hd).changes⟩
      · exact fun db tb d t ps hd ht => changes_one_user (changes_createTablePrivilege hd ht)
      · intro tb d t hd ht hcols hhas
        exact changes_checked hd ht hcols hhas
          (changes_one_user (changes_createColumnPrivilege hd ht))
      · exact fun tb d t hd ht h => refuses_checked hd ht h
    | false =>
      refine ⟨_, _, _, ⟨?_, ?_, ?_, ?_, ?_⟩, fun ok change h => hrequire.after h⟩
      · exact fun db d hd => changes_one_user (changes_dropDatabasePrivilege hd)
      · exact fun db hd => ⟨_, (refuses_dropDatabasePrivilege hd).changes⟩
      · exact fun db tb d t ps hd ht => changes_one_user (changes_dropTablePrivilege hd ht)
      · intro tb d t hd ht hcols _
        show Action.Changes _ _ (columnsOf _ _ _ >>= _) _ _
        rw [columnsOf_eq hcols]
        exact changes_one_user (changes_dropColumnPrivilege hd ht)
      · intro tb d t hd ht h
        show Action.Refuses _ (columnsOf _ _ _ >>= _)
        rw [columnsOf_eq_throw fun hcols => h ⟨hcols, trivial⟩]
        exact fun s' hs => rfl
  | group group =>
    have hlist := reads_listUserInGroup hnames
    have hrequire := reads_requireUsersExist hknown
    cases grants with
    | true =>
      refine ⟨_, _, _, ⟨?_, ?_, ?_, ?_, ?_⟩, fun ok change h => hlist.after (hrequire.after h)⟩
      · exact fun db d hd => changes_forEach_user fun user => changes_createDatabasePrivilege hd
      · exact fun db hd => changes_forEach_of_refuses fun user => refuses_createDatabasePrivilege hd
      · exact fun db tb d t ps hd ht =>
          changes_forEach_user fun user => changes_createTablePrivilege hd ht
      · intro tb d t hd ht hcols hhas
        exact changes_checked hd ht hcols hhas
          (changes_forEach_user fun user => changes_createColumnPrivilege hd ht)
      · exact fun tb d t hd ht h => refuses_checked hd ht h
    | false =>
      refine ⟨_, _, _, ⟨?_, ?_, ?_, ?_, ?_⟩, fun ok change h => hlist.after (hrequire.after h)⟩
      · exact fun db d hd => changes_forEach_user fun user => changes_dropDatabasePrivilege hd
      · exact fun db hd => changes_forEach_of_refuses fun user => refuses_dropDatabasePrivilege hd
      · exact fun db tb d t ps hd ht =>
          changes_forEach_user fun user => changes_createTablePrivilege hd ht
      · intro tb d t hd ht hcols hhas
        exact changes_checked hd ht hcols hhas
          (changes_forEach_user fun user => changes_dropColumnPrivilege hd ht)
      · exact fun tb d t hd ht h => refuses_checked hd ht h

lemma refuses_run (hnames : c.grantees s catalog = none) :
    Action.Refuses (Beside s) (c.run env catalog now) := by
  obtain ⟨grants, grantee, privileges, tableIdentifier⟩ := c
  have hnames := Option.filter_eq_none_iff.mp hnames
  cases grantee with
  | user user =>
    have hunknown := refuses_requireUserExists (by simpa using hnames [user] rfl)
    cases grants with
    | true => exact hunknown.bind
    | false => exact hunknown.bind
  | group group =>
    cases hgroup : (Grantee.group group).names s catalog with
    | none =>
      have hlist := refuses_listUserInGroup hgroup
      cases grants with
      | true => exact hlist.bind
      | false => exact hlist.bind
    | some names =>
      have hlist := reads_listUserInGroup hgroup
      have hunknown := refuses_requireUsersExist (by simpa using hnames names hgroup)
      cases grants with
      | true => exact hlist.bind_refuses hunknown.bind
      | false => exact hlist.bind_refuses hunknown.bind

lemma changes_run {o : Object} (env : Env) (now : Nat) (hnames : c.grantees s catalog = some names)
    (hobject : objectOf s catalog c.tableIdentifier = some o) :
    Action.Changes (Beside s) Held (c.run env catalog now) (c.Completes env s catalog names o)
      (toggle (c.creates o) (pairs (reached s catalog names) (c.written env s catalog names o))) := by
  obtain ⟨onDb, onTb, onCols, hstages, hrun⟩ := stages_run env now hnames
  exact hrun _ _ (hstages.onResource hobject)

lemma changes_run_of_none (env : Env) (now : Nat) (hnames : c.grantees s catalog = some names)
    (hobject : objectOf s catalog c.tableIdentifier = none) :
    ∃ ok, Action.Changes (Beside s) Held (c.run env catalog now) ok id := by
  obtain ⟨onDb, onTb, onCols, hstages, hrun⟩ := stages_run env now hnames
  obtain ⟨ok, hok⟩ := hstages.onResource_of_none hobject
  exact ⟨ok, hrun _ _ hok⟩

end Commands

end ResourceCommand

end Moonbox.Core
