import Moonbox.Catalog.Drops
import Moonbox.Catalog.Integrity
import Moonbox.Core.MountDatabase
import Moonbox.Lib.RowChanges

/-!
# `IF EXISTS` and `IF NOT EXISTS`

What a command asks for that creates or drops an object, and what it leaves when its call returns.
Most commands wait for all that they do. Two of them only start the last part of it.
-/

namespace Moonbox.Core

open Actor Catalog Relational

/-! ### Calls -/

section Calls

variable [Names] (env : Env) (catalog : MoonboxCatalog) (now : Nat)

/-- `CreateFunction.run`, which waits for the database only. -/
def CreateFunction.call (function : FunctionIdentifier) (className : String)
    (methodName : Option String) (resources : List FunctionResource) (ignoreIfExists : Bool) :
    DBIO <| DBIO Unit := do
  let database ← JdbcCatalog.getDatabase (catalog.databaseOf function.database)
    catalog.userInSession
  pure <| JdbcCatalog.createFunction
    { name := function.funcName
      db := some database.name
      description := none
      className := className
      methodName := methodName
      resources := resources }
    ignoreIfExists catalog.userInSession now

/-- `DropOrganization.run` without cascade, which waits for the listings only. -/
def DropOrganization.call (name : String) (ignoreIfNotExists : Bool) : DBIO <| DBIO Unit := do
  match ← JdbcDao.getOrganization name with
  | some catalogOrganization => do
    let databases ← JdbcDao.listDatabases catalogOrganization.id
    let users ← JdbcDao.listUsers catalogOrganization.id
    let events ← JdbcDao.listTimedEvents catalogOrganization.id
    let procedures ← JdbcDao.listProcedures catalogOrganization.id
    let groups ← JdbcDao.listGroups catalogOrganization.id
    if databases.isEmpty && users.isEmpty && events.isEmpty && procedures.isEmpty &&
        groups.isEmpty then
      pure (JdbcDao.deleteOrganization name)
    else .throw (nonEmptyException s!"organization {name}")
  | none =>
    if ignoreIfNotExists then pure (pure ()) else .throw (noSuchOrganizationException name)

/-- The call of a command answers with what it has started and does not wait for. -/
def Command.call : Command → DBIO ( DBIO Unit)
  | createFunction function className methodName resources ignoreIfExists =>
    CreateFunction.call catalog now function className methodName resources ignoreIfExists
  | dropOrganization name ignoreIfNotExists false => DropOrganization.call name ignoreIfNotExists
  | cmd => Action.awaited (cmd.run env catalog now)

lemma CreateFunction.run_eq_call (function : FunctionIdentifier) (className : String)
    (methodName : Option String) (resources : List FunctionResource) (ign : Bool) :
    CreateFunction.run catalog now function className methodName resources ign =
      (CreateFunction.call catalog now function className methodName resources ign >>=
        fun started => started) := by
  rw [CreateFunction.call, Action.bind_assoc]
  rfl

lemma DropOrganization.run_eq_call (name : String) (ign : Bool) :
    DropOrganization.run name ign false =
      (DropOrganization.call name ign >>= fun started => started) := by
  rw [DropOrganization.call, Action.bind_assoc]
  refine congrArg _ (funext fun o => ?_)
  cases o with
  | none => cases ign <;> rfl
  | some o =>
    simp only [Action.bind_assoc, Bool.false_eq_true, if_false]
    refine congrArg _ (funext fun databases => congrArg _ (funext fun users => ?_))
    refine congrArg _ (funext fun events => congrArg _ (funext fun procedures => ?_))
    refine congrArg _ (funext fun groups => ?_)
    split <;> rfl

end Calls

/-! ### What is asked for -/

/-- A row is to be made. There is none when something is missing that it needs. -/
structure Creation where
  kind : Kind
  ignoreIfExists : Bool
  isThere : Bool
  row : Option (Entity kind)

/-- A row is to go, unless there is a reason to refuse it. -/
structure Removal where
  kind : Kind
  ignoreIfNotExists : Bool
  found : Option (Entity kind)
  refused : Entity kind → Prop

/-- What is there is left as it is, which is an error without the flag. What is not there is
made, and nothing else. -/
def Creation.Honoured (c : Creation) (call : DBIO <| DBIO Unit) (s : Store) : Prop :=
  if c.isThere then
    Action.wpCall call (fun s' => c.ignoreIfExists = true ∧ s' = s)
      (fun s' => c.ignoreIfExists = false ∧ s' = s) s
  else
    Action.wpCall call
      (fun s' => ∃ e ∈ c.row, references.WithoutRow (Row.withId (s c.kind).nextId e) s' s)
      (fun s' => c.row = none ∧ s' = s) s

/-- What is not there is left so, which is an error without the flag. What is there goes, and
nothing else. -/
def Removal.Honoured (r : Removal) (call : DBIO <| DBIO Unit) (s : Store) : Prop :=
  match r.found with
  | none =>
    Action.wpCall call (fun s' => r.ignoreIfNotExists = true ∧ s' = s)
      (fun s' => r.ignoreIfNotExists = false ∧ s' = s) s
  | some e => Action.wpCall call (references.WithoutRow e s) (fun s' => r.refused e ∧ s' = s) s

section Requests

variable [Names]

/-- A table in a database, whose name is written as databases are entered. -/
def tableIn (s : Store) (orgId : Nat) (db table : String) : Option TableEntity :=
  (s.database orgId (JdbcCatalog.formatDatabaseName db)).bind fun d => s.table d.id table

def functionIn (s : Store) (orgId : Nat) (db func : String) : Option FunctionEntity :=
  (s.database orgId (JdbcCatalog.formatDatabaseName db)).bind fun d => s.function d.id func

def userOf (s : Store) (org user : String) : Option UserEntity :=
  (s.organization org).bind fun o => s.user o.id user

/-- A user is made below his organization. -/
def userCreation (s : Store) (d : CatalogUser) (ign : Bool) (caller : User) (now : Nat) :
    Creation where
  kind := .users
  ignoreIfExists := ign
  isThere := (userOf s d.org d.name).isSome
  row := (s.organization d.org).map fun o => UserEntity.ofDefinition d o.id caller now

def userRemoval (s : Store) (org user : String) (ign : Bool) : Removal where
  kind := .users
  ignoreIfNotExists := ign
  found := userOf s org user
  refused _ := False

/-- A database is dropped by the command for its kind, the default one by none. -/
def databaseRemoval (s : Store) (orgId : Nat) (name : String) (isLogical ign cascade : Bool) :
    Removal where
  kind := .databases
  ignoreIfNotExists := ign
  found := s.database orgId (JdbcCatalog.formatDatabaseName name)
  refused (d : DatabaseEntity) := d.isLogical ≠ isLogical ∨
    JdbcCatalog.formatDatabaseName name = DEFAULT_DATABASE ∨
      cascade = false ∧ ¬s.IsEmptyDatabase d.id

/-- What a command is to create. -/
def Command.creation (env : Env) (catalog : MoonboxCatalog) (now : Nat) (s : Store) :
    Command → Option Creation
  | createOrganization name comment config ign =>
    some
      { kind := .organizations
        ignoreIfExists := ign
        isThere := (s.organization name).isSome
        row := some <| OrganizationEntity.ofDefinition
          { name := name, config := config, description := comment } catalog.userInSession now }
  | createSa name password organization configuration ign =>
    some <| userCreation s
      { org := organization
        name := name
        password := env.encryptSHA password
        account := true
        ddl := true
        dcl := true
        grantAccount := true
        grantDdl := true
        grantDcl := true
        isSA := true
        configuration := configuration }
      ign catalog.userInSession now
  | createUser name password configuration ign =>
    some <| userCreation s
      { org := catalog.getCurrentOrg
        name := name
        password := env.encryptSHA password
        configuration := configuration }
      ign catalog.userInSession now
  | mountDatabase name props ign =>
    some
      { kind := .databases
        ignoreIfExists := ign
        isThere := (s.database catalog.userInSession.orgId
          (JdbcCatalog.formatDatabaseName name)).isSome
        row :=
          if (env.test props).isOk then
            some <| DatabaseEntity.ofDefinition
              { name := name, properties := props, isLogical := false }
              (JdbcCatalog.formatDatabaseName name) catalog.userInSession now
          else none }
  | createDatabase name comment ign =>
    some
      { kind := .databases
        ignoreIfExists := ign
        isThere := (s.database catalog.userInSession.orgId
          (JdbcCatalog.formatDatabaseName name)).isSome
        row := some <| DatabaseEntity.ofDefinition
          { name := name, description := comment, properties := [], isLogical := true }
          (JdbcCatalog.formatDatabaseName name) catalog.userInSession now }
  | mountTable table props isStream ign =>
    some
      { kind := .tables
        ignoreIfExists := ign
        isThere := (tableIn s catalog.userInSession.orgId (catalog.databaseOf table.database)
          table.table).isSome
        row :=
          (s.database catalog.userInSession.orgId
            (JdbcCatalog.formatDatabaseName (catalog.databaseOf table.database))).bind fun d =>
            if d.isLogical && (env.test props).isOk then
              some <| TableEntity.ofDefinition
                { db := some (JdbcCatalog.formatDatabaseName (catalog.databaseOf table.database))
                  name := table.table
                  tableType := CatalogTableType.TABLE
                  properties := props
                  isStream := isStream }
                d.id catalog.userInSession now
            else none }
  | createFunction function className methodName resources ign =>
    some
      { kind := .functions
        ignoreIfExists := ign
        isThere := (functionIn s catalog.userInSession.orgId
          (catalog.databaseOf function.database) function.funcName).isSome
        row :=
          (s.database catalog.userInSession.orgId
            (JdbcCatalog.formatDatabaseName (catalog.databaseOf function.database))).map fun d =>
            FunctionEntity.ofDefinition
              { name := function.funcName
                db := some
                  (JdbcCatalog.formatDatabaseName (catalog.databaseOf function.database))
                description := none
                className := className
                methodName := methodName
                resources := resources }
              d.id catalog.userInSession now }
  | createProcedure name queryList lang ign =>
    some
      { kind := .procedures
        ignoreIfExists := ign
        isThere := (s.procedure catalog.userInSession.orgId name).isSome
        row := some <| ProcedureEntity.ofDefinition
          { name := name, sqls := queryList, lang := lang } catalog.userInSession now }
  | createTimedEvent name definer schedule description proc enable ign =>
    some
      { kind := .timedEvents
        ignoreIfExists := ign
        isThere := (s.timedEvent catalog.userInSession.orgId name).isSome
        row :=
          (s.procedure catalog.userInSession.orgId proc).bind fun p =>
            (s.user catalog.userInSession.orgId (definer.getD catalog.getCurrentUser)).map fun u =>
              TimedEventEntity.ofDefinition
                { name := name
                  definer := definer.getD catalog.getCurrentUser
                  schedule := schedule
                  enable := enable
                  description := description
                  procedure := proc }
                u.id p.id catalog.userInSession now }
  | createGroup name desc ign =>
    some
      { kind := .groups
        ignoreIfExists := ign
        isThere := (s.group catalog.userInSession.orgId name).isSome
        row := some <| GroupEntity.ofDefinition { name := name, desc := desc }
          catalog.userInSession now }
  | _ => none

/-- What a command is to drop, and why it may refuse to. -/
def Command.removal (catalog : MoonboxCatalog) (s : Store) : Command → Option Removal
  | dropOrganization name ign cascade =>
    some
      { kind := .organizations
        ignoreIfNotExists := ign
        found := s.organization name
        refused (o : OrganizationEntity) := cascade = false ∧ ¬s.IsEmptyOrganization o.id }
  | dropSa name organization ign => some (userRemoval s organization name ign)
  | dropUser name ign => some (userRemoval s catalog.getCurrentOrg name ign)
  | unmountDatabase name ign cascade =>
    some (databaseRemoval s catalog.userInSession.orgId name false ign cascade)
  | dropDatabase name ign cascade =>
    some (databaseRemoval s catalog.userInSession.orgId name true ign cascade)
  | unmountTable table ign =>
    some
      { kind := .tables
        ignoreIfNotExists := ign
        found := tableIn s catalog.userInSession.orgId (catalog.databaseOf table.database)
          table.table
        refused _ := ∃ d ∈ s.database catalog.userInSession.orgId
          (JdbcCatalog.formatDatabaseName (catalog.databaseOf table.database)),
          d.isLogical = false }
  | dropFunction function ign =>
    some
      { kind := .functions
        ignoreIfNotExists := ign
        found := functionIn s catalog.userInSession.orgId (catalog.databaseOf function.database)
          function.funcName
        refused _ := False }
  | dropView view ign =>
    some
      { kind := .tables
        ignoreIfNotExists := ign
        found := tableIn s catalog.userInSession.orgId (catalog.databaseOf view.database)
          view.table
        refused (t : TableEntity) := t.tableType ≠ CatalogTableType.VIEW }
  | dropProcedure name ign =>
    some
      { kind := .procedures
        ignoreIfNotExists := ign
        found := s.procedure catalog.userInSession.orgId name
        refused (p : ProcedureEntity) := ∃ e ∈ (s .timedEvents).rows, e.procedure = p.id }
  | dropTimedEvent name ign =>
    some
      { kind := .timedEvents
        ignoreIfNotExists := ign
        found := s.timedEvent catalog.userInSession.orgId name
        refused (e : TimedEventEntity) := e.enable = true }
  | dropGroup name ign cascade =>
    some
      { kind := .groups
        ignoreIfNotExists := ign
        found := s.group catalog.userInSession.orgId name
        refused (g : GroupEntity) := cascade = false ∧
          ∃ rel ∈ (s .groupUserRels).rows, rel.groupId = g.id }
  | _ => none

/-- What the command asks for is done, and its flag is heeded. -/
def Command.HonoursFlag (env : Env) (catalog : MoonboxCatalog) (now : Nat) (s : Store)
    (cmd : Command) : Prop :=
  (∀ c ∈ cmd.creation env catalog now s, c.Honoured (cmd.call env catalog now) s) ∧
    ∀ r ∈ cmd.removal catalog s, r.Honoured (cmd.call env catalog now) s

/-! ### When that is done -/

/-- No other row is one that goes under the condition. -/
def IsOnly (s : Store) (k : Kind) (cond : Entity k → Bool) (e : Entity k) : Prop :=
  ∀ e' ∈ (s k).rows, cond e' = true → e' = e

/-- The tables are in the database that has the name as it is written, or there are none. -/
def AreThere (s : Store) (orgId : Nat) (name : String) (tables : List String) : Prop :=
  tables = [] ∨ ∃ d ∈ s.database orgId name, ∀ t ∈ tables, (s.table d.id t).isSome = true

/-- The database is read with the name of its creator. -/
def dropsDatabase (s : Store) (orgId : Nat) (name : String) (isLogical ign cascade : Bool) : Prop :=
  match s.database orgId (JdbcCatalog.formatDatabaseName name) with
  | none => ign = false
  | some d =>
    if (creatorName s d.createBy).isSome then
      d.isLogical = isLogical → JdbcCatalog.formatDatabaseName name ≠ DEFAULT_DATABASE →
        (cascade = true ∨ ¬s.IsSeenDatabase d.id) →
        IsOnly s .databases (fun e => e.organizationId == orgId &&
          sameName e.name (JdbcCatalog.formatDatabaseName name)) d
    else (databaseRemoval s orgId name isLogical ign cascade).refused d

/-- Where `UNMOUNT TABLE` looks for its table. The database is read under its name in lower case and
the table is looked for below the name as it is written. -/
def unmountsFrom (s : Store) (orgId : Nat) (db : String) : Option DatabaseEntity :=
  if (s.database orgId (JdbcCatalog.formatDatabaseName db)).any
      (fun d => (creatorName s d.createBy).isSome && d.isLogical) then
    s.database orgId db
  else none

/-- The names of a timed event are all found. -/
def IsNamed (s : Store) (e : TimedEventEntity) : Prop :=
  (creatorName s e.definer).isSome = true ∧
    ((s .procedures).rows.any fun p => p.id == e.procedure) = true ∧
      (creatorName s e.createBy).isSome = true

/-- The flag of the command is heeded in this state. -/
def Command.Heeds (env : Env) (catalog : MoonboxCatalog) (s : Store) : Command → Prop
  | mountDatabase name props ign =>
    if (s.database catalog.userInSession.orgId (JdbcCatalog.formatDatabaseName name)).isSome then
      ign = true → (env.test props).isOk = true ∧ ∃ tables, env.tableNames props = .ok tables ∧
        AreThere s catalog.userInSession.orgId name tables
    else
      (env.test props).isOk = true → ∃ tables, env.tableNames props = .ok tables ∧
        (sameName (JdbcCatalog.formatDatabaseName name) name = true ∨
          AreThere s catalog.userInSession.orgId name tables)
  | mountTable table props _ ign =>
    ∀ d ∈ s.database catalog.userInSession.orgId
        (JdbcCatalog.formatDatabaseName (catalog.databaseOf table.database)),
      if (s.table d.id table.table).isSome then
        ign = true → (creatorName s d.createBy).isSome = true ∧ d.isLogical = true ∧
          (env.test props).isOk = true
      else
        d.isLogical = true → (env.test props).isOk = true →
          (creatorName s d.createBy).isSome = true
  | createFunction function _ _ _ ign =>
    ∀ d ∈ s.database catalog.userInSession.orgId
        (JdbcCatalog.formatDatabaseName (catalog.databaseOf function.database)),
      (s.function d.id function.funcName).isSome = true ∧ (creatorName s d.createBy).isSome = ign
  | dropOrganization name _ cascade =>
    ∀ o ∈ s.organization name,
      if cascade then IsOnly s .organizations (fun e => sameName e.name name) o
      else s.IsSeenOrganization o.id
  | dropSa _ organization ign => s.organization organization = none → ign = false
  | dropUser _ ign => s.organization catalog.getCurrentOrg = none → ign = false
  | unmountDatabase name ign cascade =>
    dropsDatabase s catalog.userInSession.orgId name false ign cascade
  | dropDatabase name ign cascade =>
    dropsDatabase s catalog.userInSession.orgId name true ign cascade
  | unmountTable table ign =>
    match tableIn s catalog.userInSession.orgId (catalog.databaseOf table.database) table.table with
    | none =>
      if ign then
        ∃ d ∈ unmountsFrom s catalog.userInSession.orgId (catalog.databaseOf table.database),
          s.table d.id table.table = none
      else
        ∀ d ∈ unmountsFrom s catalog.userInSession.orgId (catalog.databaseOf table.database),
          s.table d.id table.table = none
    | some t =>
      ∃ d ∈ s.database catalog.userInSession.orgId
          (JdbcCatalog.formatDatabaseName (catalog.databaseOf table.database)),
        d.isLogical = false ∨
          unmountsFrom s catalog.userInSession.orgId (catalog.databaseOf table.database) = some d ∧
            IsOnly s .tables (fun e =>
              e.databaseId == d.id && sameName e.name table.table) t
  | dropFunction function ign =>
    match functionIn s catalog.userInSession.orgId (catalog.databaseOf function.database)
        function.funcName with
    | none =>
      if ign then
        ∃ d ∈ s.database catalog.userInSession.orgId
            (JdbcCatalog.formatDatabaseName (catalog.databaseOf function.database)),
          (creatorName s d.createBy).isSome = true
      else
        ∀ d ∈ s.database catalog.userInSession.orgId
            (JdbcCatalog.formatDatabaseName (catalog.databaseOf function.database)),
          (creatorName s d.createBy).isSome = true →
            (s.database catalog.userInSession.orgId (JdbcCatalog.formatDatabaseName
              (JdbcCatalog.formatDatabaseName
                (catalog.databaseOf function.database)))).isSome = true
    | some f =>
      ∃ d ∈ s.database catalog.userInSession.orgId
          (JdbcCatalog.formatDatabaseName (catalog.databaseOf function.database)),
        (creatorName s d.createBy).isSome = true ∧
          (s.database catalog.userInSession.orgId (JdbcCatalog.formatDatabaseName
            (JdbcCatalog.formatDatabaseName
              (catalog.databaseOf function.database)))).isSome = true ∧
          IsOnly s .functions (fun e =>
            e.databaseId == d.id && sameName e.name function.funcName) f
  | dropView view ign =>
    match tableIn s catalog.userInSession.orgId (catalog.databaseOf view.database) view.table with
    | none => ign = false
    | some t =>
      ∃ d ∈ s.database catalog.userInSession.orgId
          (JdbcCatalog.formatDatabaseName (catalog.databaseOf view.database)),
        t.tableType = CatalogTableType.VIEW →
          (creatorName s d.createBy).isSome = true ∧ (creatorName s t.createBy).isSome = true ∧
            IsOnly s .tables (fun e =>
              e.databaseId == d.id && sameName e.name view.table) t
  | dropTimedEvent name ign =>
    match s.timedEvent catalog.userInSession.orgId name with
    | none => ign = false
    | some e => e.enable = false →
      IsNamed s e ∧ IsOnly s .timedEvents (fun e' =>
        e'.organizationId == catalog.userInSession.orgId && sameName e'.name name) e
  | _ => True

end Requests

/-! ### What is created -/

section Laws

variable {c : Creation} {r : Removal} {call : DBIO <| DBIO Unit} {s : Store}

@[simp] lemma wpCall_keeping {α : Type} {catalog : MoonboxCatalog} {m : DBIO α}
    {Q X : Store → Prop} :
    Action.wpCall (Action.awaited (keeping catalog m)) Q X s ↔ m.wp (fun _ => Q) X s := by
  rw [Action.wpCall_awaited, keeping, Action.wp_bind]
  rfl

/-- A call that looks whether the object is there and inserts its row if it is not, with rows after
it that refer to it. -/
lemma Creation.honoured_of (ws : Entity c.kind → List (Write Entity))
    (hwp : ∀ Q X : Store → Prop, Action.wpCall call Q X s ↔
      if c.isThere then if c.ignoreIfExists then Q s else X s
      else c.row.elim (X s) fun e => Q (execAll (.insert c.kind e :: ws e) s))
    (hws : ∀ e, ∀ w ∈ ws e, references.Attaches (Row.withId (s c.kind).nextId e) w) :
    c.Honoured call s := by
  unfold Creation.Honoured
  simp only [hwp]
  cases c.isThere with
  | true => cases c.ignoreIfExists <;> simp
  | false =>
    cases hrow : c.row with
    | none => simp
    | some e => exact ⟨e, rfl, References.withoutRow_insert (hws e)⟩

/-- The same without such rows. -/
lemma Creation.honoured_of_insert
    (hwp : ∀ Q X : Store → Prop, Action.wpCall call Q X s ↔
      if c.isThere then if c.ignoreIfExists then Q s else X s
      else c.row.elim (X s) fun e => Q (execAll [.insert c.kind e] s)) : c.Honoured call s :=
  honoured_of (fun _ => []) hwp fun _ _ hw => absurd hw List.not_mem_nil

/-- An insertion makes just its row. -/
lemma withoutRow_insert (s : Store) (k : Kind) (e : Entity k) :
    references.WithoutRow (Row.withId (s k).nextId e) (execAll [.insert k e] s) s :=
  References.withoutRow_insert fun _ hw => absurd hw List.not_mem_nil

end Laws

section Creations

attribute [local simp] Command.call Command.run

variable [Names] {env : Env} {catalog : MoonboxCatalog} {now : Nat} {s : Store} {ign : Bool}
  {name : String}

lemma honours_createOrganization {comment : Option String} {config : Properties} :
    (Command.createOrganization name comment config ign).HonoursFlag env catalog now s := by
  refine ⟨?_, fun r hr => by cases hr⟩
  rintro c ⟨⟩
  refine Creation.honoured_of (fun _ =>
    [.insert .databases (.ofOrganization (s .organizations).nextId catalog.userInSession now)])
    (fun Q X => ?_) ?_
  · simp only [Command.call, Command.run, wpCall_keeping, CreateOrganization.run,
      JdbcCatalog.createOrganization, Action.wp_bind, wp_organizationExists]
    cases (s.organization name).isSome with
    | true => cases ign <;> rfl
    | false => simp
  · intro e w hw
    obtain rfl := List.mem_singleton.mp hw
    exact ⟨by simp, fun n => ⟨none, .databaseOrganization _⟩⟩

lemma wp_createUser_iff {d : CatalogUser} {caller : User} {Q X : Store → Prop} :
    (JdbcCatalog.createUser d ign caller now).wp (fun _ => Q) X s ↔
      if (userOf s d.org d.name).isSome then if ign then Q s else X s
      else
        match s.organization d.org with
        | some o => Q (execAll [.insert .users (.ofDefinition d o.id caller now)] s)
        | none => X s := by
  rw [wp_createUser, userOf]
  cases s.organization d.org with
  | none => simp
  | some o => cases huser : s.user o.id d.name <;> simp [huser]

lemma honours_createSa {password organization : String} {configuration : Properties} :
    (Command.createSa name password organization configuration ign).HonoursFlag env catalog now
      s := by
  refine ⟨?_, fun r hr => by cases hr⟩
  rintro c ⟨⟩
  refine Creation.honoured_of_insert fun Q X => ?_
  simp only [Command.call, Command.run, wpCall_keeping, CreateSa.run, wp_createUser_iff]
  cases ho : s.organization organization <;> simp [userCreation, ho]

lemma honours_createUser {password : String} {configuration : Properties} :
    (Command.createUser name password configuration ign).HonoursFlag env catalog now s := by
  refine ⟨?_, fun r hr => by cases hr⟩
  rintro c ⟨⟩
  refine Creation.honoured_of_insert fun Q X => ?_
  simp only [Command.call, Command.run, wpCall_keeping, CreateUser.run, wp_createUser_iff]
  cases ho : s.organization catalog.getCurrentOrg <;> simp [userCreation, ho]

lemma honours_createDatabase {comment : Option String} :
    (Command.createDatabase name comment ign).HonoursFlag env catalog now s := by
  refine ⟨?_, fun r hr => by cases hr⟩
  rintro c ⟨⟩
  refine Creation.honoured_of_insert fun Q X => ?_
  simp only [Command.call, Command.run, wpCall_keeping, CreateDatabase.run, wp_createDatabase]
  cases s.database catalog.userInSession.orgId (JdbcCatalog.formatDatabaseName name) with
  | some d => cases ign <;> rfl
  | none => rfl

lemma honours_createProcedure {queryList : List String} {lang : String} :
    (Command.createProcedure name queryList lang ign).HonoursFlag env catalog now s := by
  refine ⟨?_, fun r hr => by cases hr⟩
  rintro c ⟨⟩
  refine Creation.honoured_of_insert fun Q X => ?_
  simp only [Command.call, Command.run, wpCall_keeping, CreateProcedure.run,
    JdbcCatalog.createProcedure, Action.wp_bind, wp_procedureExists]
  cases (s.procedure catalog.userInSession.orgId name).isSome with
  | true => cases ign <;> rfl
  | false => rfl

lemma honours_createTimedEvent {definer : Option String} {schedule : String}
    {description : Option String} {proc : String} {enable : Bool} :
    (Command.createTimedEvent name definer schedule description proc enable ign).HonoursFlag env
      catalog now s := by
  refine ⟨?_, fun r hr => by cases hr⟩
  rintro c ⟨⟩
  refine Creation.honoured_of_insert fun Q X => ?_
  simp only [Command.call, Command.run, wpCall_keeping, CreateTimedEvent.run,
    JdbcCatalog.createTimedEvent, Action.wp_bind, wp_timedEventExists]
  cases (s.timedEvent catalog.userInSession.orgId name).isSome with
  | true => cases ign <;> rfl
  | false =>
    simp only [Action.wp_bind, wp_getProcedure]
    cases s.procedure catalog.userInSession.orgId proc with
    | none => rfl
    | some p =>
      simp only [Action.wp_bind, wp_userId]
      cases s.user catalog.userInSession.orgId (definer.getD catalog.getCurrentUser) with
      | none => rfl
      | some u => rfl

lemma honours_createGroup {desc : Option String} :
    (Command.createGroup name desc ign).HonoursFlag env catalog now s := by
  refine ⟨?_, fun r hr => by cases hr⟩
  rintro c ⟨⟩
  refine Creation.honoured_of_insert fun Q X => ?_
  simp only [Command.call, Command.run, wpCall_keeping, CreateGroup.run,
    JdbcCatalog.createGroup, Action.wp_bind, wp_groupExists]
  cases (s.group catalog.userInSession.orgId name).isSome with
  | true => cases ign <;> rfl
  | false => rfl

end Creations
section MountDatabase

variable [Names] {env : Env} {catalog : MoonboxCatalog} {now : Nat} {s : Store} {ign : Bool}
  {name : String} {props : Properties} {tables : List String} {Q X : Store → Prop}

/-- What is entered below a new database is no more than the database is. -/
lemma withoutRow_withTables {d : DatabaseEntity} {s' : Store} {es : List TableEntity}
    (h : references.WithoutRow (t := .databases) d s' s) (hes : ∀ e ∈ es, e.databaseId = d.id) :
    references.WithoutRow (t := .databases) d (Store.withTables s' es) s := by
  induction es generalizing s' with
  | nil => exact h
  | cons e es ih =>
    refine ih ?_ fun e' he' => hes e' (List.mem_cons_of_mem e he')
    unfold Store.withTable
    split
    · exact h
    · refine h.insert (by simp) ⟨none, ?_⟩
      have he := Refers.tableDatabase (Row.withId (s' .tables).nextId e)
      have hid : (Row.withId (s' .tables).nextId e).databaseId = d.id := hes e List.mem_cons_self
      rw [hid] at he
      exact he

omit [Names] in
lemma databaseId_of_refers {t : TableEntity} {id : Nat} {scope : Option Nat}
    (h : Refers .tables t .databases id scope) : t.databaseId = id := by
  cases h
  rfl

/-- In another database nothing may be entered. -/
lemma withoutRow_withTables_iff {d : DatabaseEntity} {s' : Store} {es : List TableEntity}
    {dbId : Nat} (h : references.WithoutRow (t := .databases) d s' s)
    (hes : ∀ e ∈ es, e.databaseId = dbId) (hne : dbId ≠ d.id)
    (htables : (s' .tables).rows = (s .tables).rows) :
    references.WithoutRow (t := .databases) d (Store.withTables s' es) s ↔
      Store.Leaves s' dbId (es.map TableEntity.name) [] := by
  rw [← Store.withTables_eq_self_iff hes]
  constructor
  · intro hwithout
    obtain ⟨added, hrows, hadded⟩ := Store.exists_added s' es
    cases added with
    | nil =>
      rw [Store.withTables_eq_self_iff hes, ← Store.rows_eq_iff hes, Store.withoutTables,
        List.foldl_nil, hrows, List.append_nil]
    | cons r added =>
      obtain ⟨hid, e, he, hdb, -⟩ := hadded r List.mem_cons_self
      have hold : r ∉ (s .tables).rows := by
        intro hmem
        rw [← htables] at hmem
        exact Nat.lt_irrefl _ (hid.trans_lt ((s' .tables).fresh r hmem))
      have hnew : r ∈ (Store.withTables s' es .tables).rows := by
        rw [hrows]
        exact List.mem_append_right _ List.mem_cons_self
      obtain ⟨scope, hrefers⟩ := hwithout.others .tables (by simp) r hnew hold
      exact absurd ((hdb.trans (hes e he)).symm.trans (databaseId_of_refers hrefers)) hne
  · intro heq
    rwa [heq]

omit [Names] in
lemma noneFails_none (tables : List String) :
    noneFails TableFailures.none.create tables = true := by
  simp [noneFails, TableFailures.none, Except.isOk, Except.toBool]

lemma leaves_nil_iff {dbId : Nat} :
    s.Leaves dbId tables [] ↔ ∀ t ∈ tables, (s.table dbId t).isSome = true := by
  simp [Store.Leaves]

/-- The tables are entered in a database that is there already. -/
lemma mount_there_iff (tables : List String) :
    (createTables env catalog now .none props name none tables).wp (fun _ s' => s' = s)
        (fun _ => False) s ↔ AreThere s catalog.userInSession.orgId name tables := by
  unfold AreThere
  cases hraw : s.database catalog.userInSession.orgId name with
  | some d =>
    rw [wp_createTables_found tables hraw, if_pos (noneFails_none tables),
      Store.withTables_eq_self_iff (mountedRow_databaseId _), mountedRow_names, leaves_nil_iff]
    constructor
    · exact fun h => .inr ⟨d, rfl, h⟩
    · rintro (rfl | ⟨d', ⟨⟩, h⟩)
      · simp
      · exact h
  | none =>
    rw [wp_createTables_missing tables hraw]
    cases tables <;> simp

/-- They are entered in the new database, or in another that is there already. -/
lemma mount_new_iff {e : DatabaseEntity} (horg : e.organizationId = catalog.userInSession.orgId)
    (missing : s.database catalog.userInSession.orgId (JdbcCatalog.formatDatabaseName name) = none)
    (hname : e.name = JdbcCatalog.formatDatabaseName name) :
    (createTables env catalog now .none props name none tables).wp
        (fun _ s' => references.WithoutRow (t := .databases)
          (Row.withId (s .databases).nextId e) s' s)
        (fun _ => False) (execAll [.insert .databases e] s) ↔
      sameName (JdbcCatalog.formatDatabaseName name) name = true ∨
        AreThere s catalog.userInSession.orgId name tables := by
  have hnew : references.WithoutRow (t := .databases) (Row.withId (s .databases).nextId e)
      (execAll [.insert .databases e] s) s := withoutRow_insert s .databases e
  have hraw := database_insert (s := s) e name
  rw [horg, hname] at hraw
  by_cases hsame : sameName (JdbcCatalog.formatDatabaseName name) name = true
  · have missing' := missing
    rw [database_eq_of_sameName hsame] at missing'
    rw [if_pos hsame, missing', Option.none_or] at hraw
    rw [wp_createTables_found tables hraw, if_pos (noneFails_none tables)]
    exact iff_of_true (withoutRow_withTables hnew (mountedRow_databaseId _)) (.inl hsame)
  · rw [if_neg hsame, Option.or_none] at hraw
    rw [or_iff_right hsame, AreThere]
    cases hd : s.database catalog.userInSession.orgId name with
    | some d =>
      rw [wp_createTables_found tables (hraw.trans hd), if_pos (noneFails_none tables)]
      have hes : ∀ e ∈ tables.map (mountedRow env catalog now props name none d.id),
          e.databaseId = d.id := mountedRow_databaseId tables
      have hne : d.id ≠ (s .databases).nextId :=
        ((s .databases).fresh _ (Store.database_some hd).1).ne
      have htable : ∀ t, Store.table (execAll [.insert .databases e] s) d.id t =
          s.table d.id t := by
        intro t
        rw [Store.table, tables_insert]
        rfl
      rw [withoutRow_withTables_iff hnew hes hne (by rw [tables_insert]), mountedRow_names,
        leaves_nil_iff]
      simp only [htable]
      constructor
      · exact fun h => .inr ⟨d, rfl, h⟩
      · rintro (rfl | ⟨d', ⟨⟩, h⟩)
        · simp
        · exact h
    | none =>
      rw [wp_createTables_missing tables (hraw.trans hd)]
      cases tables with
      | nil => simpa using hnew
      | cons t tables => simp

lemma Command.honoursFlag_iff_of_creation {cmd : Command} {c : Creation}
    (hc : cmd.creation env catalog now s = some c) (hr : cmd.removal catalog s = none) :
    cmd.HonoursFlag env catalog now s ↔ c.Honoured (cmd.call env catalog now) s := by
  simp [HonoursFlag, hc, hr]

lemma honours_mountDatabase_iff :
    (Command.mountDatabase name props ign).HonoursFlag env catalog now s ↔
      (Command.mountDatabase name props ign).Heeds env catalog s := by
  refine (Command.honoursFlag_iff_of_creation rfl rfl).trans ?_
  unfold Creation.Honoured
  simp only [Command.call, Command.run, wpCall_keeping, ← MountDatabase.runFailing_none,
    MountDatabase.runFailing, Command.Heeds]
  cases hd : s.database catalog.userInSession.orgId (JdbcCatalog.formatDatabaseName name) with
  | some d =>
    simp only [Option.isSome_some, if_true]
    cases htest : env.test props with
    | error e => simp [liftExcept, Except.isOk, Except.toBool]
    | ok u =>
      cases ign with
      | false => simp [liftExcept, wp_createDatabase, hd]
      | true =>
        cases htables : env.tableNames props with
        | error e => simp [liftExcept, wp_createDatabase, hd, Except.isOk, Except.toBool]
        | ok tables =>
          have hloop : (createTables env catalog now .none props name none tables).wp _ _ s ↔ _ :=
            mount_there_iff tables
          simpa [liftExcept, wp_createDatabase, hd, Except.isOk, Except.toBool] using hloop
  | none =>
    simp only [Option.isSome_none, Bool.false_eq_true, if_false]
    cases htest : env.test props with
    | error e => simp [liftExcept, Except.isOk, Except.toBool]
    | ok u =>
      cases htables : env.tableNames props with
      | error e => simp [liftExcept, wp_createDatabase, hd, Except.isOk, Except.toBool]
      | ok tables =>
        have hloop : (createTables env catalog now .none props name none tables).wp _ _
            (execAll [.insert .databases (.ofDefinition
              { name := name, properties := props, isLogical := false }
              (JdbcCatalog.formatDatabaseName name) catalog.userInSession now)] s) ↔ _ :=
          mount_new_iff rfl hd rfl
        simpa [liftExcept, wp_createDatabase, hd, Except.isOk, Except.toBool] using hloop

end MountDatabase
section Below

variable [Names] {env : Env} {catalog : MoonboxCatalog} {now : Nat} {s : Store} {ign : Bool}

lemma honours_mountTable_iff {table : TableIdentifier} {props : Properties} {isStream : Bool} :
    (Command.mountTable table props isStream ign).HonoursFlag env catalog now s ↔
      (Command.mountTable table props isStream ign).Heeds env catalog s := by
  refine (Command.honoursFlag_iff_of_creation rfl rfl).trans ?_
  unfold Creation.Honoured
  simp only [Command.call, Command.run, wpCall_keeping, MountTable.run, Command.Heeds, tableIn,
    JdbcCatalog.getDatabase, Action.wp_bind, wp_getDatabase]
  cases hd : s.database catalog.userInSession.orgId
      (JdbcCatalog.formatDatabaseName (catalog.databaseOf table.database)) with
  | none => simp
  | some d =>
    simp only [Action.wp_bind, wp_userName, Option.bind_some, Option.mem_def, Option.some.injEq,
      forall_eq']
    cases hcreator : creatorName s d.createBy with
    | none => cases (s.table d.id table.table).isSome <;> simp
    | some creator =>
      cases hlogical : d.isLogical with
      | false => cases (s.table d.id table.table).isSome <;> simp
      | true =>
        cases htest : env.test props with
        | error e =>
          cases (s.table d.id table.table).isSome <;>
            simp [liftExcept, Except.isOk, Except.toBool]
        | ok u =>
          simp only [liftExcept, JdbcCatalog.createTable, Action.wp_bind, wp_getDatabase, hd,
            wp_getTable, Action.wp_purely, Bool.not_true, Bool.false_eq_true, if_false]
          cases s.table d.id table.table with
          | some t => cases ign <;> simp [Except.isOk, Except.toBool]
          | none => simpa [Except.isOk, Except.toBool] using withoutRow_insert s .tables _

lemma passes_getDatabase_bind {orgId : Nat} {name : String}
    {m : Option DatabaseEntity → DBIO Unit} {s' : Store} :
    (JdbcDao.getDatabase orgId name >>= m).Passes s s' ↔
      (m (s.database orgId name)).Passes s s' := Action.passes_query_bind _ _

lemma passes_functionExists_bind {dbId : Nat} {name : String} {m : Bool → DBIO Unit}
    {s' : Store} :
    (JdbcDao.functionExists dbId name >>= m).Passes s s' ↔
      (m (s.function dbId name).isSome).Passes s s' := by
  rw [Store.function, List.isSome_find?]
  exact Action.passes_query_bind _ _

/-- The creation of a function that is there writes nothing. -/
lemma passes_createFunction_iff {f : CatalogFunction} {caller : User} {db : String}
    {d : DatabaseEntity} (hdb : f.db = some db) (found : s.database caller.orgId db = some d)
    (there : (s.function d.id f.name).isSome = true) (s' : Store) :
    (JdbcCatalog.createFunction f ign caller now).Passes s s' ↔ s' = s := by
  simp only [JdbcCatalog.createFunction, hdb, passes_getDatabase_bind, found,
    passes_functionExists_bind, there]
  cases ign <;> simp

lemma honours_createFunction_iff {function : FunctionIdentifier} {className : String}
    {methodName : Option String} {resources : List FunctionResource} :
    (Command.createFunction function className methodName resources ign).HonoursFlag env catalog
        now s ↔
      (Command.createFunction function className methodName resources ign).Heeds env catalog s := by
  refine (Command.honoursFlag_iff_of_creation rfl rfl).trans ?_
  unfold Creation.Honoured
  simp only [Command.call, CreateFunction.call, Command.Heeds, functionIn, Action.wpCall,
    JdbcCatalog.getDatabase, Action.wp_bind, wp_getDatabase]
  cases hd : s.database catalog.userInSession.orgId
      (JdbcCatalog.formatDatabaseName (catalog.databaseOf function.database)) with
  | none => simp
  | some d =>
    simp only [Action.wp_bind, wp_userName, Option.bind_some, Option.mem_def, Option.some.injEq,
      forall_eq']
    cases hcreator : creatorName s d.createBy with
    | none => cases hf : s.function d.id function.funcName <;> cases ign <;> simp
    | some creator =>
      cases hf : s.function d.id function.funcName with
      | some f =>
        have hpasses : ∀ s', (JdbcCatalog.createFunction
            { name := function.funcName
              db := some (JdbcCatalog.formatDatabaseName (catalog.databaseOf function.database))
              description := none
              className := className
              methodName := methodName
              resources := resources } ign catalog.userInSession now).Passes s s' ↔ s' = s :=
          passes_createFunction_iff rfl hd (by simp [hf])
        simp [hpasses, eq_comm]
      | none =>
        simp only [Action.wp_purely]
        refine iff_of_false (fun h => ?_) (by simp)
        obtain ⟨e, -, hwithout⟩ := h s (.here _ _)
        exact References.not_withoutRow_self hwithout

end Below
end Moonbox.Core
