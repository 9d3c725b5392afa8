import Moonbox.Catalog.Drops
import Moonbox.Catalog.Integrity
import Moonbox.Catalog.Writes
import Moonbox.Core.MoonboxCatalog

/-!
# Readable objects

To get an object looks up the names of those who made it, and to list it joins it with them. Both
find it as long as nothing that it uses is dropped.
-/

namespace Moonbox.Core

open Catalog Relational Actor

/-! ### What an object is read as -/

def toCatalogDatabase (owner : String) (d : DatabaseEntity) : CatalogDatabase :=
  { name := d.name
    description := d.description
    properties := d.properties
    isLogical := d.isLogical
    owner := some owner }

def toCatalogTable (database owner : String) (t : TableEntity) : CatalogTable :=
  { db := some database
    name := t.name
    tableType := t.tableType
    description := t.description
    properties := t.properties
    viewText := t.viewText
    isStream := t.isStream
    tableSize := t.tableSize
    owner := some owner }

def toCatalogFunction (database owner : String) (resources : List FunctionResourceEntity)
    (f : FunctionEntity) : CatalogFunction :=
  { db := some database
    name := f.name
    description := f.description
    className := f.className
    methodName := f.methodName
    resources := resources.map fun r => ⟨r.resourceType, r.resource⟩
    owner := some owner }

def toCatalogProcedure (owner : String) (p : ProcedureEntity) : CatalogProcedure :=
  { name := p.name
    sqls := p.cmds
    lang := p.lang
    description := p.description
    owner := some owner }

def toCatalogTimedEvent (definer procedure owner : String) (e : TimedEventEntity) :
    CatalogTimedEvent :=
  { name := e.name
    definer := definer
    schedule := e.schedule
    enable := e.enable
    description := e.description
    procedure := procedure
    owner := some owner }

/-- `get` answers the object and `list` answers it among others. -/
def Shown {α : Type} (s : Store) (get : DBIO α) (list : DBIO (List α)) (a : α) : Prop :=
  get.wp (fun x _ => x = a) (fun _ => False) s ∧ list.wp (fun xs _ => a ∈ xs) (fun _ => False) s

section Readable

variable [Names]

/-- Every object is shown to the users of its organization. -/
structure AllReadable (s : Store) : Prop where
  databases : ∀ d ∈ (s .databases).rows, ∀ caller : User, caller.orgId = d.organizationId →
    ∃ owner, Shown s (JdbcCatalog.getDatabase d.name caller) (JdbcCatalog.listDatabases caller)
      (toCatalogDatabase owner d)
  tables : ∀ t ∈ (s .tables).rows, ∃ d ∈ (s .databases).rows, d.id = t.databaseId ∧
    ∀ caller : User, caller.orgId = d.organizationId →
      ∃ owner, Shown s (JdbcCatalog.getTable d.name t.name caller)
        (JdbcCatalog.listTables d.name caller) (toCatalogTable d.name owner t)
  functions : ∀ f ∈ (s .functions).rows, ∃ d ∈ (s .databases).rows, d.id = f.databaseId ∧
    ∀ caller : User, caller.orgId = d.organizationId →
      ∃ owner resources, Shown s (JdbcCatalog.getFunction d.name f.name caller)
        (JdbcCatalog.listFunctions d.name caller) (toCatalogFunction d.name owner resources f)
  procedures : ∀ p ∈ (s .procedures).rows, ∀ caller : User, caller.orgId = p.organizationId →
    ∃ owner, Shown s (JdbcCatalog.getProcedure p.name caller) (JdbcCatalog.listProcedures caller)
      (toCatalogProcedure owner p)
  timedEvents : ∀ e ∈ (s .timedEvents).rows, ∀ caller : User, caller.orgId = e.organizationId →
    ∃ definer procedure owner, Shown s (JdbcCatalog.getTimedEvent e.name caller)
      (JdbcCatalog.listTimedEvents caller) (toCatalogTimedEvent definer procedure owner e)

/-! ### What an object uses -/

/-- What is looked up to read a row. The key of a creator who is no user is the key of no row. -/
inductive Uses : (k : Kind) → Entity k → Kind → Nat → Option Nat → Prop
  | databaseCreator (d : DatabaseEntity) :
    Uses .databases d .users d.createBy.toNat (some d.organizationId)
  | tableDatabase (t : TableEntity) : Uses .tables t .databases t.databaseId none
  | tableCreator (t : TableEntity) : Uses .tables t .users t.createBy.toNat none
  | functionDatabase (f : FunctionEntity) : Uses .functions f .databases f.databaseId none
  | functionCreator (f : FunctionEntity) : Uses .functions f .users f.createBy.toNat none
  | procedureCreator (p : ProcedureEntity) :
    Uses .procedures p .users p.createBy.toNat (some p.organizationId)
  | eventDefiner (e : TimedEventEntity) :
    Uses .timedEvents e .users e.definer (some e.organizationId)
  | eventProcedure (e : TimedEventEntity) :
    Uses .timedEvents e .procedures e.procedure (some e.organizationId)
  | eventCreator (e : TimedEventEntity) :
    Uses .timedEvents e .users e.createBy.toNat (some e.organizationId)

def uses : References Entity where
  Refers {k} r := Uses k r
  scope {k} r :=
    match k, r with
    | .users, (u : UserEntity) => u.organizationId
    | .procedures, (p : ProcedureEntity) => p.organizationId
    | _, _ => 0

/-- Everything that is looked up to read the objects is there, and a name means one object. -/
structure Attributed (s : Store) : Prop where
  found : uses.Integrity s
  users : (s .users).Positive
  resources : ∀ f ∈ (s .functions).rows, ∃ r ∈ (s .functionResources).rows, r.funcId = f.id
  lowerCase : ∀ d ∈ (s .databases).rows, JdbcCatalog.formatDatabaseName d.name = d.name
  uniqueDatabases : UniqueIn .databases s
  uniqueTables : UniqueIn .tables s
  uniqueFunctions : UniqueIn .functions s
  uniqueProcedures : UniqueIn .procedures s
  uniqueEvents : UniqueIn .timedEvents s

variable {s : Store}

section Lookups

omit [Names]

variable {X : Store → Prop} {Q : String → Store → Prop}

lemma wp_userName_of_mem {u : UserEntity} (hu : u ∈ (s .users).rows) :
    (JdbcCatalog.userName u.id).wp Q X s ↔ Q u.name s := by
  have hfind := (s .users).find?_id hu
  have hpred : (fun t : UserEntity => ((t.id : Int) == u.id)) = fun t => Row.id t == Row.id u := by
    funext t
    rw [Bool.eq_iff_iff, beq_iff_eq, beq_iff_eq]
    exact Int.ofNat_inj
  rw [wp_userName, creatorName, if_neg (by omega), hpred, hfind]
  rfl

lemma wp_procedureName_of_mem {p : ProcedureEntity} (hp : p ∈ (s .procedures).rows) :
    (JdbcCatalog.procedureName p.id).wp Q X s ↔ Q p.name s := by
  have hfind : (s .procedures).rows.find? (fun t => t.id == p.id) = some p :=
    (s .procedures).find?_id hp
  simp only [JdbcCatalog.procedureName, Action.wp_bind, JdbcDao.getProcedureById,
    JdbcDao.queryOneOption, Action.wp_query, hfind]
  rfl

end Lookups

namespace Attributed

lemma database (h : Attributed s) {d : DatabaseEntity} (hd : d ∈ (s .databases).rows) :
    s.database d.organizationId d.name = some d :=
  h.uniqueDatabases.find? hd (by simp [sameName_self]) fun _ hc => key_of_cond hc

lemma table (h : Attributed s) {t : TableEntity} (ht : t ∈ (s .tables).rows) :
    s.table t.databaseId t.name = some t :=
  h.uniqueTables.find? ht (by simp [sameName_self]) fun _ hc => key_of_cond hc

lemma function (h : Attributed s) {f : FunctionEntity} (hf : f ∈ (s .functions).rows) :
    s.function f.databaseId f.name = some f :=
  h.uniqueFunctions.find? hf (by simp [sameName_self]) fun _ hc => key_of_cond hc

lemma procedure (h : Attributed s) {p : ProcedureEntity} (hp : p ∈ (s .procedures).rows) :
    s.procedure p.organizationId p.name = some p :=
  h.uniqueProcedures.find? hp (by simp [sameName_self]) fun _ hc => key_of_cond hc

lemma timedEvent (h : Attributed s) {e : TimedEventEntity} (he : e ∈ (s .timedEvents).rows) :
    s.timedEvent e.organizationId e.name = some e :=
  h.uniqueEvents.find? he (by simp [sameName_self]) fun _ hc => key_of_cond hc

lemma has (h : Attributed s) {k k' : Kind} {r : Entity k} {id : Nat} {scope : Option Nat}
    (hr : r ∈ (s k).rows) (huse : Uses k r k' id scope) : uses.Has s k' id scope :=
  h.found k r hr k' id scope huse

/-- The user with the key of a creator is the creator. -/
lemma user (h : Attributed s) {createBy : Int} {scope : Option Nat}
    (hhas : uses.Has s .users createBy.toNat scope) :
    ∃ u : UserEntity, u ∈ (s .users).rows ∧ createBy = u.id ∧
      ∀ n, scope = some n → u.organizationId = n := by
  obtain ⟨u, hu, hid, hscope⟩ := hhas
  have hid' : u.id = createBy.toNat := hid
  have hpos : 0 < u.id := h.users.2 u hu
  exact ⟨u, hu, by omega, hscope⟩

end Attributed

/-! ### What is attributed is readable -/

lemma shown_database (h : Attributed s) {d : DatabaseEntity} (hd : d ∈ (s .databases).rows)
    {caller : User} (horg : caller.orgId = d.organizationId) :
    ∃ owner, Shown s (JdbcCatalog.getDatabase d.name caller) (JdbcCatalog.listDatabases caller)
      (toCatalogDatabase owner d) := by
  obtain ⟨u, hu, hcreator, hscope⟩ := h.user (h.has hd (.databaseCreator d))
  refine ⟨u.name, ?_, ?_⟩
  · simp only [JdbcCatalog.getDatabase, Action.wp_bind, wp_getDatabase, h.lowerCase d hd, horg,
      h.database hd, hcreator, wp_userName_of_mem hu]
    rfl
  · show _ ∈ (s.listDatabases caller.orgId).map _
    refine List.mem_map.mpr ⟨(d, u), mem_innerJoin.mpr ⟨⟨hd, ?_⟩, hu, ?_⟩, rfl⟩
    · exact beq_iff_eq.mpr horg.symm
    · rw [Bool.and_eq_true, beq_iff_eq, beq_iff_eq]
      exact ⟨(hscope _ rfl).trans horg.symm, hcreator⟩

lemma shown_table (h : Attributed s) {t : TableEntity} (ht : t ∈ (s .tables).rows) :
    ∃ d ∈ (s .databases).rows, d.id = t.databaseId ∧
      ∀ caller : User, caller.orgId = d.organizationId →
        ∃ owner, Shown s (JdbcCatalog.getTable d.name t.name caller)
          (JdbcCatalog.listTables d.name caller) (toCatalogTable d.name owner t) := by
  obtain ⟨d, hd, hid, _⟩ := h.has ht (.tableDatabase t)
  have hid' : d.id = t.databaseId := hid
  obtain ⟨u, hu, hcreator, _⟩ := h.user (h.has ht (.tableCreator t))
  refine ⟨d, hd, hid, fun caller horg => ⟨u.name, ?_, ?_⟩⟩
  · simp only [JdbcCatalog.getTable, Action.wp_bind, wp_getDatabase, horg, h.database hd,
      wp_getTable, hid', h.table ht, hcreator, wp_userName_of_mem hu]
    rfl
  · simp only [JdbcCatalog.listTables, Action.wp_bind, wp_getDatabase, horg, h.database hd]
    show _ ∈ (s.listTables d.id).map _
    refine List.mem_map.mpr ⟨(t, u), mem_innerJoin.mpr ⟨⟨ht, ?_⟩, hu, ?_⟩, rfl⟩
    · exact beq_iff_eq.mpr hid'.symm
    · exact beq_iff_eq.mpr hcreator

lemma shown_procedure (h : Attributed s) {p : ProcedureEntity} (hp : p ∈ (s .procedures).rows)
    {caller : User} (horg : caller.orgId = p.organizationId) :
    ∃ owner, Shown s (JdbcCatalog.getProcedure p.name caller) (JdbcCatalog.listProcedures caller)
      (toCatalogProcedure owner p) := by
  obtain ⟨u, hu, hcreator, _⟩ := h.user (h.has hp (.procedureCreator p))
  refine ⟨u.name, ?_, ?_⟩
  · simp only [JdbcCatalog.getProcedure, Action.wp_bind, wp_getProcedure, horg, h.procedure hp,
      hcreator, wp_userName_of_mem hu]
    rfl
  · show _ ∈ (s.listProcedures caller.orgId).map _
    refine List.mem_map.mpr ⟨(p, u), mem_innerJoin.mpr ⟨⟨hp, ?_⟩, hu, ?_⟩, rfl⟩
    · exact beq_iff_eq.mpr horg.symm
    · exact beq_iff_eq.mpr hcreator

omit [Names] in
/-- The functions of a database that have resources are grouped with all they have. -/
lemma resources_listFunctions {f : FunctionEntity} (hf : f ∈ (s .functions).rows) :
    ((s.listFunctions f.databaseId).filter fun p => p.1 == f).map Prod.snd =
      (s .functionResources).rows.filter fun r => r.funcId == f.id := by
  have hmem : f ∈ (s .functions).rows.filter fun t => t.databaseId == f.databaseId :=
    List.mem_filter.mpr ⟨hf, beq_self_eq_true _⟩
  rw [Store.listFunctions, filter_join ((s .functions).nodup_rows.filter _) hmem]
  apply List.filter_congr
  intro r _
  exact BEq.comm

/-- Every function that is listed has a creator, and one has its resources. -/
lemma shown_function (h : Attributed s) {f : FunctionEntity} (hf : f ∈ (s .functions).rows) :
    ∃ d ∈ (s .databases).rows, d.id = f.databaseId ∧
      ∀ caller : User, caller.orgId = d.organizationId →
        ∃ owner resources, Shown s (JdbcCatalog.getFunction d.name f.name caller)
          (JdbcCatalog.listFunctions d.name caller)
          (toCatalogFunction d.name owner resources f) := by
  obtain ⟨d, hd, hid, _⟩ := h.has hf (.functionDatabase f)
  have hid' : d.id = f.databaseId := hid
  obtain ⟨u, hu, hcreator, _⟩ := h.user (h.has hf (.functionCreator f))
  refine ⟨d, hd, hid, fun caller horg =>
    ⟨u.name, (s .functionResources).rows.filter fun r => r.funcId == f.id, ?_, ?_⟩⟩
  · simp only [JdbcCatalog.getFunction, Action.wp_bind, wp_getDatabase, horg, h.database hd,
      wp_getFunction, hid', h.function hf, JdbcDao.listFunctionResources, JdbcDao.query,
      Action.wp_query, hcreator, wp_userName_of_mem hu]
    rfl
  · simp only [JdbcCatalog.listFunctions, Action.wp_bind, wp_getDatabase, horg, h.database hd]
    show Action.wp (Action.mapM _ ((s.listFunctions d.id).map Prod.fst).eraseDups) _ _ s
    refine Action.wp_mapM_of_mem (R := fun (g : FunctionEntity) x => ∀ v : UserEntity,
      v ∈ (s .users).rows → g.createBy = v.id → x = toCatalogFunction d.name v.name
        ((s .functionResources).rows.filter fun r => r.funcId == g.id) g) ?_ (a := f) ?_ ?_
    · intro g hg
      obtain ⟨⟨g', r⟩, hpair, rfl⟩ := List.mem_map.mp (List.mem_eraseDups.mp hg)
      obtain ⟨⟨hg', hdb⟩, _⟩ := mem_innerJoin.mp hpair
      obtain ⟨w, hw, hcreator', _⟩ := h.user (h.has hg' (.functionCreator g'))
      simp only [Action.wp_bind, hcreator', wp_userName_of_mem hw]
      refine ⟨fun v hv hcreator => ?_, rfl⟩
      have hwv : w = v := (s .users).eq_of_id hw hv (Int.ofNat_inj.mp hcreator)
      subst hwv
      rw [toCatalogFunction, ← resources_listFunctions hg', beq_iff_eq.mp hdb, List.map_map]
      rfl
    · obtain ⟨r, hr, hfunc⟩ := h.resources f hf
      refine List.mem_eraseDups.mpr (List.mem_map.mpr ⟨(f, r), mem_innerJoin.mpr ?_, rfl⟩)
      exact ⟨⟨hf, beq_iff_eq.mpr hid'.symm⟩, hr, beq_iff_eq.mpr hfunc.symm⟩
    · rintro xs ⟨x, hx, heq⟩
      rwa [heq u hu hcreator] at hx

/-- What an event is read as. -/
inductive ReadsAs (s : Store) (e : TimedEventEntity) : CatalogTimedEvent → Prop
  | intro {v : UserEntity} {p : ProcedureEntity} {u : UserEntity} (hv : v ∈ (s .users).rows)
    (hp : p ∈ (s .procedures).rows) (hu : u ∈ (s .users).rows) (definer : e.definer = v.id)
    (procedure : e.procedure = p.id) (creator : e.createBy = u.id) :
    ReadsAs s e (toCatalogTimedEvent v.name p.name u.name e)

omit [Names] in
lemma ReadsAs.unique {e : TimedEventEntity} {x y : CatalogTimedEvent} (hx : ReadsAs s e x)
    (hy : ReadsAs s e y) : x = y := by
  obtain ⟨hv, hp, hu, definer, procedure, creator⟩ := hx
  obtain ⟨hv', hp', hu', definer', procedure', creator'⟩ := hy
  rw [(s .users).eq_of_id hv hv' (definer.symm.trans definer'),
    (s .procedures).eq_of_id hp hp' (procedure.symm.trans procedure'),
    (s .users).eq_of_id hu hu' (Int.ofNat_inj.mp (creator.symm.trans creator'))]

lemma Attributed.readsAs (h : Attributed s) {e : TimedEventEntity}
    (he : e ∈ (s .timedEvents).rows) : ∃ x, ReadsAs s e x := by
  obtain ⟨v, hv, hdefiner, _⟩ := h.has he (.eventDefiner e)
  obtain ⟨p, hp, hprocedure, _⟩ := h.has he (.eventProcedure e)
  obtain ⟨u, hu, hcreator, _⟩ := h.user (h.has he (.eventCreator e))
  exact ⟨_, .intro hv hp hu hdefiner.symm hprocedure.symm hcreator⟩

lemma shown_timedEvent (h : Attributed s) {e : TimedEventEntity}
    (he : e ∈ (s .timedEvents).rows) {caller : User} (horg : caller.orgId = e.organizationId) :
    ∃ definer procedure owner, Shown s (JdbcCatalog.getTimedEvent e.name caller)
      (JdbcCatalog.listTimedEvents caller) (toCatalogTimedEvent definer procedure owner e) := by
  obtain ⟨x, hx⟩ := h.readsAs he
  have hunique := fun y => hx.unique (y := y)
  obtain @⟨v, p, u, hv, hp, hu, hdefiner, hprocedure, hcreator⟩ := hx
  refine ⟨v.name, p.name, u.name, ?_, ?_⟩
  · simp only [JdbcCatalog.getTimedEvent, Action.wp_bind, wp_getTimedEvent, horg, h.timedEvent he,
      hcreator, hdefiner, hprocedure, wp_userName_of_mem hv, wp_procedureName_of_mem hp,
      wp_userName_of_mem hu]
    rfl
  · show Action.wp (Action.mapM _ (s.listTimedEvents caller.orgId)) _ _ s
    refine Action.wp_mapM_of_mem (R := ReadsAs s) ?_ (a := e) ?_ ?_
    · intro g hg
      obtain ⟨y, hy⟩ := h.readsAs (List.mem_filter.mp hg).1
      obtain ⟨hv', hp', hu', hdefiner', hprocedure', hcreator'⟩ := hy
      simp only [Action.wp_bind, hdefiner', hprocedure', hcreator', wp_userName_of_mem hv',
        wp_procedureName_of_mem hp', wp_userName_of_mem hu']
      exact ⟨.intro hv' hp' hu' hdefiner' hprocedure' hcreator', rfl⟩
    · exact List.mem_filter.mpr ⟨he, beq_iff_eq.mpr horg.symm⟩
    · rintro xs ⟨y, hy, hread⟩
      rwa [← hunique y hread] at hy

theorem Attributed.allReadable (h : Attributed s) : AllReadable s where
  databases _ hd _ horg := shown_database h hd horg
  tables _ ht := shown_table h ht
  functions _ hf := shown_function h hf
  procedures _ hp _ horg := shown_procedure h hp horg
  timedEvents _ he _ horg := shown_timedEvent h he horg

/-! ### Steps -/

/-- The caller is a user of its organization. -/
def IsMember (s : Store) (caller : User) : Prop :=
  ∃ u ∈ (s .users).rows, u.organizationId = caller.orgId ∧ u.id = caller.userId

/-- The user has made nothing and no event runs in its name. -/
structure HasNoWork (s : Store) (userId : Nat) : Prop where
  databases : s.Without .databases fun d => d.createBy = userId
  tables : s.Without .tables fun t => t.createBy = userId
  functions : s.Without .functions fun f => f.createBy = userId
  procedures : s.Without .procedures fun p => p.createBy = userId
  timedEvents : s.Without .timedEvents fun e => e.createBy = userId ∨ e.definer = userId

/-- Nothing is in a database of the organization, and its users have made no table or function. -/
structure HasNoContents (s : Store) (orgId : Nat) : Prop where
  databases : ∀ d ∈ (s .databases).rows, d.organizationId = orgId → s.IsEmptyDatabase d.id
  tables : ∀ u ∈ (s .users).rows, u.organizationId = orgId →
    s.Without .tables fun t => t.createBy = u.id
  functions : ∀ u ∈ (s .users).rows, u.organizationId = orgId →
    s.Without .functions fun f => f.createBy = u.id

/-- The name is the one that a database of this name is looked up by. -/
def IsLowerCase (database : String) : Prop := JdbcCatalog.formatDatabaseName database = database

/-- What the operation makes is made by a user that is there, and what it drops nothing uses. -/
def SparesReads (s : Store) (e : User × Nat × Operation) : Prop :=
  match e.2.2 with
  -- The default database would be made by somebody of another organization.
  | .createOrganization d _ => s.organization d.name ≠ none
  | .dropOrganization org _ true => ∀ o, s.organization org = some o → HasNoContents s o.id
  | .dropUser org user _ => ∀ o u, s.organization org = some o → s.user o.id user = some u →
    HasNoWork s u.id
  | .createProcedure d _ => s.procedure e.1.orgId d.name = none → IsMember s e.1
  | .createTimedEvent d _ => s.timedEvent e.1.orgId d.name = none →
    s.procedure e.1.orgId d.procedure ≠ none → s.user e.1.orgId d.definer ≠ none → IsMember s e.1
  | .createDatabase d _ =>
    s.database e.1.orgId (JdbcCatalog.formatDatabaseName d.name) = none →
    IsMember s e.1 ∧ IsLowerCase (JdbcCatalog.formatDatabaseName d.name)
  | .renameDatabase db newDb =>
    s.database e.1.orgId (JdbcCatalog.formatDatabaseName db) ≠ none →
    s.database e.1.orgId (JdbcCatalog.formatDatabaseName newDb) = none →
    IsLowerCase (JdbcCatalog.formatDatabaseName newDb)
  | .alterDatabase d => s.database e.1.orgId (JdbcCatalog.formatDatabaseName d.name) ≠ none →
    IsLowerCase (JdbcCatalog.formatDatabaseName d.name)
  | .createTable d _ => ∀ db dbEntity, d.db = some db →
    s.database e.1.orgId db = some dbEntity → s.table dbEntity.id d.name = none → IsMember s e.1
  | .createFunction d _ => ∀ db dbEntity, d.db = some db →
    s.database e.1.orgId db = some dbEntity → s.function dbEntity.id d.name = none →
    IsMember s e.1 ∧ d.resources ≠ []
  | _ => True

/-- Neither do the rows of the table use anything nor are they used. -/
def IsAside : Kind → Bool
  | .databases | .tables | .functions | .procedures | .timedEvents | .users => false
  | _ => true

variable {caller : User} {now : Nat} {op : Operation} {ws : List (Write Entity)}

section Aside

omit [Names]

lemma not_uses_aside {k k' : Kind} {r : Entity k} {id : Nat} {scope : Option Nat}
    (h : IsAside k = true) : ¬Uses k r k' id scope := by
  intro huse
  cases huse <;> cases h

lemma scope_aside {k : Kind} (h : IsAside k = true) (r : Entity k) : uses.scope r = 0 := by
  cases k <;> first | rfl | cases h

lemma keeps_aside {w : Write Entity} (h : IsAside w.table = true) : uses.Keeps s w := by
  cases w with
  | insert k e => exact fun _ _ _ huse => absurd huse (not_uses_aside h)
  | delete k cond =>
    intro k' r _ id scope huse
    cases huse <;> cases h
  | update k cond set =>
    intro r _ _
    refine ⟨?_, fun _ _ _ huse => absurd huse (not_uses_aside h)⟩
    exact (scope_aside h _).trans (scope_aside h r).symm

lemma keepsAll_aside (h : ∀ w ∈ ws, IsAside w.table = true) : uses.KeepsAll s ws := by
  induction ws generalizing s with
  | nil => trivial
  | cons w ws ih =>
    exact ⟨keeps_aside (h w List.mem_cons_self), ih fun w' hw' => h w' (List.mem_cons_of_mem w hw')⟩

end Aside

/-! ### What a step keeps -/

lemma Attributed.creator_eq (h : Attributed s) {u : UserEntity} (hu : u ∈ (s .users).rows)
    {createBy : Int} (hid : createBy.toNat = u.id) : createBy = u.id := by
  have hpos : 0 < u.id := h.users.2 u hu
  omega

lemma Attributed.keepsAll_dropUser (h : Attributed s) {u : UserEntity}
    (hu : u ∈ (s .users).rows) (hwork : HasNoWork s u.id) :
    uses.KeepsAll s
      [.delete .groupUserRels fun rel => rel.userId == u.id,
        .delete .databasePrivileges fun t => t.userId == u.id,
        .delete .tablePrivileges fun t => t.userId == u.id,
        .delete .columnPrivileges fun t => t.userId == u.id,
        .delete .users fun t => t.id == u.id] := by
  refine ⟨keeps_aside rfl, keeps_aside rfl, keeps_aside rfl, keeps_aside rfl, ?_, trivial⟩
  intro k r hr id scope huse p _ hans
  apply beq_false_of_ne
  intro hp
  have hid : id = u.id := hans.1.symm.trans hp
  have hr' := mem_of_mem_delete (mem_of_mem_delete (mem_of_mem_delete (mem_of_mem_delete hr)))
  cases huse with
  | databaseCreator => exact hwork.databases _ hr' (h.creator_eq hu hid)
  | tableCreator => exact hwork.tables _ hr' (h.creator_eq hu hid)
  | functionCreator => exact hwork.functions _ hr' (h.creator_eq hu hid)
  | procedureCreator => exact hwork.procedures _ hr' (h.creator_eq hu hid)
  | eventDefiner => exact hwork.timedEvents _ hr' (.inr hid)
  | eventCreator => exact hwork.timedEvents _ hr' (.inl (h.creator_eq hu hid))

/-- What uses the users and the procedures of an organization can go before them. -/
lemma execAll_dropOrganization_last (o : OrganizationEntity) (org : String) :
    execAll (E := Entity)
      [.delete .databases fun t => t.organizationId == o.id,
        .delete .users fun t => t.organizationId == o.id,
        .delete .timedEvents fun t => t.organizationId == o.id,
        .delete .procedures fun t => t.organizationId == o.id,
        .delete .queries fun t => t.organizationId == o.id,
        .delete .organizations fun t => sameName t.name org] s =
    execAll (E := Entity)
      [.delete .timedEvents fun t => t.organizationId == o.id,
        .delete .procedures fun t => t.organizationId == o.id,
        .delete .databases fun t => t.organizationId == o.id,
        .delete .users fun t => t.organizationId == o.id,
        .delete .queries fun t => t.organizationId == o.id,
        .delete .organizations fun t => sameName t.name org] s := by
  funext k
  cases k <;> rfl

lemma Attributed.keepsAll_dropOrganization (h : Attributed s) {o : OrganizationEntity}
    {org : String} (hcontents : HasNoContents s o.id) :
    uses.KeepsAll s
      [.delete .timedEvents fun t => t.organizationId == o.id,
        .delete .procedures fun t => t.organizationId == o.id,
        .delete .databases fun t => t.organizationId == o.id,
        .delete .users fun t => t.organizationId == o.id,
        .delete .queries fun t => t.organizationId == o.id,
        .delete .organizations fun t => sameName t.name org] := by
  refine ⟨?_, ?_, ?_, ?_, keeps_aside rfl, keeps_aside rfl, trivial⟩
  · intro k r _ id scope huse
    cases huse
  · intro k r hr id scope huse p _ hans
    apply beq_false_of_ne
    intro hpo
    cases huse
    simp at hr
    exact hr.2 ((hans.2 _ rfl).symm.trans hpo)
  · intro k r hr id scope huse p hp hans
    apply beq_false_of_ne
    intro hpo
    have hempty := hcontents.databases p (mem_of_mem_delete (mem_of_mem_delete hp)) hpo
    have hr' := mem_of_mem_delete (mem_of_mem_delete hr)
    cases huse with
    | tableDatabase => exact hempty.tables _ hr' hans.1.symm
    | functionDatabase => exact hempty.functions _ hr' hans.1.symm
  · intro k r hr id scope huse p hp hans
    apply beq_false_of_ne
    intro hpo
    have hp' := mem_of_mem_delete (mem_of_mem_delete (mem_of_mem_delete hp))
    have hid : id = p.id := hans.1.symm
    cases huse <;> simp at hr
    case databaseCreator => exact hr.2 ((hans.2 _ rfl).symm.trans hpo)
    case tableCreator => exact hcontents.tables p hp' hpo _ hr (h.creator_eq hp' hid)
    case functionCreator => exact hcontents.functions p hp' hpo _ hr (h.creator_eq hp' hid)
    case procedureCreator => exact hr.2 ((hans.2 _ rfl).symm.trans hpo)
    case eventDefiner => exact hr.2 ((hans.2 _ rfl).symm.trans hpo)
    case eventCreator => exact hr.2 ((hans.2 _ rfl).symm.trans hpo)

omit [Names] in
lemma keepsAll_dropProcedure {orgId : Nat} {p : ProcedureEntity}
    (hp : p ∈ (s .procedures).rows) (hscope : p.organizationId = orgId)
    (unused : ∀ t ∈ (s .timedEvents).rows, ¬(t.organizationId = orgId ∧ t.procedure = p.id)) :
    uses.KeepsAll s [.delete .procedures fun t => t.id == p.id] := by
  refine ⟨?_, trivial⟩
  intro k r hr id scope huse q hq hans
  apply beq_false_of_ne
  intro hqp
  have hqp' : q = p := (s .procedures).eq_of_id hq hp hqp
  subst hqp'
  cases huse
  exact unused _ hr ⟨(hans.2 _ rfl).symm.trans hscope, hans.1.symm⟩

/-- A name is the name of one database. -/
lemma Attributed.eq_database (h : Attributed s) {orgId : Nat} {name : String}
    {d p : DatabaseEntity} (found : s.database orgId name = some d)
    (hp : p ∈ (s .databases).rows)
    (hcond : (p.organizationId == orgId && sameName p.name name) = true) : p = d := by
  have ⟨hd, hscope, hname⟩ := Store.database_some found
  exact h.uniqueDatabases p hp d hd _ (key_of_cond hcond) (key_eq hscope hname)

lemma Attributed.keepsAll_dropDatabaseCascade (h : Attributed s) {orgId : Nat} {name : String}
    {d : DatabaseEntity} (found : s.database orgId name = some d) :
    uses.KeepsAll s
      [.delete .functions fun t => t.databaseId == d.id,
        .delete .tables fun t => t.databaseId == d.id,
        .delete .databases fun t => t.organizationId == orgId && sameName t.name name] := by
  refine ⟨?_, ?_, ?_, trivial⟩
  · intro k r _ id scope huse
    cases huse
  · intro k r _ id scope huse
    cases huse
  · intro k r hr id scope huse p hp hans
    rw [Bool.eq_false_iff]
    intro hcond
    have hpd := h.eq_database found (mem_of_mem_delete (mem_of_mem_delete hp)) hcond
    have hid : id = d.id := hans.1.symm.trans (congrArg _ hpd)
    cases huse <;> simp at hr
    case tableDatabase => exact hr.2 hid
    case functionDatabase => exact hr.2 hid

/-- Whatever is in the database is listed. -/
lemma Attributed.isEmptyDatabase (h : Attributed s) {dbId : Nat}
    (tables : s.listTables dbId = []) (functions : s.listFunctions dbId = []) :
    s.IsEmptyDatabase dbId := by
  constructor
  · intro t ht hdb
    obtain ⟨u, hu, hcreator, _⟩ := h.user (h.has ht (.tableCreator t))
    exact Store.listTables_eq_nil_iff.mp tables ⟨t, ht, hdb, u, hu, hcreator⟩
  · intro f hf hdb
    obtain ⟨r, hr, hfunc⟩ := h.resources f hf
    exact Store.listFunctions_eq_nil_iff.mp functions ⟨f, hf, hdb, r, hr, hfunc.symm⟩

lemma Attributed.keepsAll_dropDatabase (h : Attributed s) {orgId : Nat} {name : String}
    {d : DatabaseEntity} (found : s.database orgId name = some d)
    (hempty : s.IsEmptyDatabase d.id) :
    uses.KeepsAll s
      [.delete .databases fun t => t.organizationId == orgId && sameName t.name name] := by
  refine ⟨?_, trivial⟩
  intro k r hr id scope huse p hp hans
  rw [Bool.eq_false_iff]
  intro hcond
  have hpd := h.eq_database found hp hcond
  have hid : id = d.id := hans.1.symm.trans (congrArg _ hpd)
  cases huse with
  | tableDatabase => exact hempty.tables _ hr hid
  | functionDatabase => exact hempty.functions _ hr hid

/-- A rename leaves what the row uses and how it is used as they are. -/
lemma Attributed.keeps_rename (h : Attributed s) {k : Kind} {cond : Entity k → Bool}
    {set : Entity k → Entity k}
    (hscope : ∀ r, uses.scope (Row.withId (Row.id r) (set r)) = uses.scope r)
    (huses : ∀ r k' id scope, Uses k (Row.withId (Row.id r) (set r)) k' id scope →
      Uses k r k' id scope) : uses.Keeps s (.update k cond set) :=
  fun r hr _ => ⟨hscope r, fun _ _ _ huse => h.has hr (huses r _ _ _ huse)⟩

lemma Attributed.after (h : Attributed s) (hk : uses.KeepsAll s ws) :
    uses.Integrity (execAll ws s) := References.Integrity.execAll h.found hk

omit [Names] in
/-- The member is there whom a new row is to be made by. -/
lemma IsMember.has (h : IsMember s caller) {scope : Option Nat}
    (hscope : ∀ n, scope = some n → n = caller.orgId) :
    uses.Has s .users (caller.userId : Int).toNat scope := by
  obtain ⟨u, hu, horg, hid⟩ := h
  exact .intro hu hid fun n hn => horg.trans (hscope n hn).symm

lemma Attributed.found_step (h : Effect caller now s op ws) (hs : Attributed s)
    (hc : SparesReads s (caller, now, op)) : uses.Integrity (execAll ws s) := by
  have hmem := h.table_mem
  cases h with
  | createOrganization free => exact absurd free hc
  | dropOrganizationCascade found =>
    rw [execAll_dropOrganization_last]
    exact hs.after (hs.keepsAll_dropOrganization (hc _ found))
  | createUser =>
    apply hs.after
    refine ⟨fun _ _ _ huse => ?_, trivial⟩
    cases huse
  | dropUser inOrg found =>
    have ⟨hmem, _, _⟩ := Store.user_some found
    exact hs.after (hs.keepsAll_dropUser hmem (hc _ _ inOrg found))
  | renameUser =>
    apply hs.after
    refine ⟨hs.keeps_rename (fun _ => rfl) fun r _ _ _ huse => ?_, trivial⟩
    cases huse
  | alterUser _ found =>
    have ⟨hmem, _, _⟩ := Store.user_some found
    apply hs.after
    refine ⟨References.keeps_overwrite hmem rfl fun _ _ _ huse => ?_, trivial⟩
    cases huse
  | createProcedure free =>
    apply hs.after
    refine ⟨fun _ _ _ huse => ?_, trivial⟩
    cases huse
    exact (hc free).has fun _ hn => (Option.some.inj hn).symm
  | dropProcedure found unused =>
    have ⟨hmem, hscope, _⟩ := Store.procedure_some found
    exact hs.after (keepsAll_dropProcedure hmem hscope unused)
  | renameProcedure =>
    apply hs.after
    refine ⟨hs.keeps_rename (fun _ => rfl) fun r _ _ _ huse => ?_, trivial⟩
    cases huse
    exact .procedureCreator r
  | alterProcedure found =>
    have ⟨hmem, hscope, _⟩ := Store.procedure_some found
    apply hs.after
    refine ⟨References.keeps_overwrite hmem hscope.symm fun _ _ _ huse => ?_, trivial⟩
    cases huse
    have hhas := hs.has hmem (.procedureCreator _)
    rwa [hscope] at hhas
  | createTimedEvent free procedure definer =>
    have ⟨hp, hpscope, _⟩ := Store.procedure_some procedure
    have ⟨hu, huscope, _⟩ := Store.user_some definer
    have hmember := hc free (by simp [procedure]) (by simp [definer])
    apply hs.after
    refine ⟨fun _ _ _ huse => ?_, trivial⟩
    cases huse with
    | eventDefiner => exact .intro hu rfl fun n hn => huscope.trans (Option.some.inj hn)
    | eventProcedure => exact .intro hp rfl fun n hn => hpscope.trans (Option.some.inj hn)
    | eventCreator => exact hmember.has fun _ hn => (Option.some.inj hn).symm
  | renameTimedEvent =>
    apply hs.after
    refine ⟨hs.keeps_rename (fun _ => rfl) fun r _ _ _ huse => ?_, trivial⟩
    cases huse with
    | eventDefiner => exact .eventDefiner r
    | eventProcedure => exact .eventProcedure r
    | eventCreator => exact .eventCreator r
  | alterTimedEvent found procedure definer =>
    have ⟨hmem, hscope, _⟩ := Store.timedEvent_some found
    have ⟨hp, hpscope, _⟩ := Store.procedure_some procedure
    have ⟨hu, huscope, _⟩ := Store.user_some definer
    apply hs.after
    refine ⟨References.keeps_overwrite hmem rfl fun _ _ _ huse => ?_, trivial⟩
    cases huse with
    | eventDefiner => exact .intro hu rfl fun n hn => huscope.trans (Option.some.inj hn)
    | eventProcedure => exact .intro hp rfl fun n hn => hpscope.trans (Option.some.inj hn)
    | eventCreator =>
      have hhas := hs.has hmem (.eventCreator _)
      rwa [hscope] at hhas
  | dropTimedEvent =>
    apply hs.after
    refine ⟨fun _ _ _ _ _ huse => ?_, trivial⟩
    cases huse
  | createDatabase free =>
    apply hs.after
    refine ⟨fun _ _ _ huse => ?_, trivial⟩
    cases huse
    exact (hc free).1.has fun _ hn => (Option.some.inj hn).symm
  | dropDatabaseCascade found => exact hs.after (hs.keepsAll_dropDatabaseCascade found)
  | dropDatabase found tables functions =>
    exact hs.after (hs.keepsAll_dropDatabase found (hs.isEmptyDatabase tables functions))
  | renameDatabase =>
    apply hs.after
    refine ⟨hs.keeps_rename (fun _ => rfl) fun r _ _ _ huse => ?_, trivial⟩
    cases huse
    exact .databaseCreator r
  | alterDatabase found =>
    have ⟨hmem, hscope, _⟩ := Store.database_some found
    apply hs.after
    refine ⟨References.keeps_overwrite hmem rfl fun _ _ _ huse => ?_, trivial⟩
    cases huse
    have hhas := hs.has hmem (.databaseCreator _)
    rwa [hscope] at hhas
  | createTable hdb inDatabase free =>
    have ⟨hmem, _, _⟩ := Store.database_some inDatabase
    apply hs.after
    refine ⟨fun _ _ _ huse => ?_, trivial⟩
    cases huse with
    | tableDatabase => exact .intro hmem rfl nofun
    | tableCreator => exact (hc _ _ hdb inDatabase free).has nofun
  | dropTable =>
    apply hs.after
    refine ⟨keeps_aside rfl, keeps_aside rfl, fun _ _ _ _ _ huse => ?_, trivial⟩
    cases huse
  | renameTable =>
    apply hs.after
    refine ⟨hs.keeps_rename (fun _ => rfl) fun r _ _ _ huse => ?_, trivial⟩
    cases huse with
    | tableDatabase => exact .tableDatabase r
    | tableCreator => exact .tableCreator r
  | alterTable _ inDatabase found =>
    have ⟨hmem, hscope, _⟩ := Store.table_some found
    apply hs.after
    refine ⟨References.keeps_overwrite hmem rfl fun _ _ _ huse => ?_, trivial⟩
    cases huse with
    | tableDatabase => exact hscope ▸ hs.has hmem (.tableDatabase _)
    | tableCreator => exact hs.has hmem (.tableCreator _)
  | createFunction hdb inDatabase free =>
    have ⟨hmem, _, _⟩ := Store.database_some inDatabase
    apply hs.after
    refine ⟨fun _ _ _ huse => ?_, keepsAll_aside ?_⟩
    · cases huse with
      | functionDatabase => exact .intro hmem rfl nofun
      | functionCreator => exact (hc _ _ hdb inDatabase free).1.has nofun
    · simp [Write.inserts, Write.table, IsAside]
  | dropFunction =>
    apply hs.after
    refine ⟨keeps_aside rfl, fun _ _ _ _ _ huse => ?_, trivial⟩
    cases huse
  | renameFunction =>
    apply hs.after
    refine ⟨hs.keeps_rename (fun _ => rfl) fun r _ _ _ huse => ?_, trivial⟩
    cases huse with
    | functionDatabase => exact .functionDatabase r
    | functionCreator => exact .functionCreator r
  | idle => exact hs.found
  | dropOrganization => exact hs.after ⟨keeps_aside rfl, trivial⟩
  | _ => exact hs.after (keepsAll_aside fun w hw => List.all_eq_true.mp rfl _ (hmem w hw))

/-- Resources go with their function only. -/
lemma Attributed.resources_step (h : Effect caller now s op ws) (hs : Attributed s)
    (hc : SparesReads s (caller, now, op)) :
    ∀ f ∈ (execAll ws s .functions).rows, ∃ r ∈ (execAll ws s .functionResources).rows,
      r.funcId = f.id := by
  have hagree := h.agree
  have hsame (hf : .functions ∉ op.writes) (hr : .functionResources ∉ op.writes) :
      ∀ f ∈ (execAll ws s .functions).rows, ∃ r ∈ (execAll ws s .functionResources).rows,
        r.funcId = f.id := by
    rw [hagree .functions hf, hagree .functionResources hr]
    exact hs.resources
  cases h with
  | idle => exact hs.resources
  | dropDatabaseCascade =>
    intro f hf
    simp at hf
    exact hs.resources f hf.1
  | dropDatabase => exact hs.resources
  | createFunction hdb inDatabase free =>
    intro f hf
    rw [execAll_cons, execAll_inserts_of_ne (by decide), exec_insert, Table.mem_insert] at hf
    rcases hf with hf | rfl
    · obtain ⟨r, hr, hfunc⟩ := hs.resources f hf
      exact ⟨r, mem_execAll_inserts_of_mem hr, hfunc⟩
    · obtain ⟨resource, hresource⟩ := List.exists_mem_of_ne_nil _ (hc _ _ hdb inDatabase free).2
      obtain ⟨n, hn⟩ := exists_mem_execAll_inserts (t := Kind.functionResources)
        (s := (Write.insert .functions (FunctionEntity.ofDefinition _ _ caller now)).exec s)
        (List.mem_map_of_mem hresource)
      exact ⟨_, hn, rfl⟩
  | dropFunction _ found =>
    obtain ⟨hmem, hscope, hname⟩ := Store.function_some found
    intro f hf
    simp at hf
    obtain ⟨r, hr, hfunc⟩ := hs.resources f hf.1
    refine ⟨r, ?_, hfunc⟩
    simp only [execAll_cons, execAll_nil, exec_delete, exec_delete_of_ne _ (by decide :
      Kind.functionResources ≠ .functions), Table.mem_delete]
    refine ⟨hr, beq_false_of_ne fun heq => ?_⟩
    rw [(s .functions).eq_of_id hf.1 hmem (hfunc.symm.trans heq)] at hf
    rw [hf.2 hscope] at hname
    cases hname
  | renameFunction =>
    intro f hf
    rw [execAll_cons, execAll_nil, exec_update, Table.mem_update] at hf
    obtain ⟨q, hq, rfl⟩ := hf
    obtain ⟨r, hr, hfunc⟩ := hs.resources q hq
    refine ⟨r, hr, ?_⟩
    split <;> exact hfunc
  | _ => exact hsame (by simp [Operation.writes]) (by simp [Operation.writes])

/-- A database is called what it is looked up by. -/
lemma Attributed.lowerCase_step (h : Effect caller now s op ws) (hs : Attributed s)
    (hc : SparesReads s (caller, now, op)) :
    ∀ d ∈ (execAll ws s .databases).rows, IsLowerCase d.name := by
  have hagree := h.agree
  have hsame (hd : .databases ∉ op.writes) :
      ∀ d ∈ (execAll ws s .databases).rows, IsLowerCase d.name := by
    rw [hagree .databases hd]
    exact hs.lowerCase
  cases h with
  | idle => exact hs.lowerCase
  | createOrganization free => exact absurd free hc
  | dropOrganizationCascade =>
    intro d hd
    simp at hd
    exact hs.lowerCase d hd.1
  | dropOrganization => exact hs.lowerCase
  | createDatabase free =>
    intro d hd
    simp at hd
    rcases hd with hd | rfl
    · exact hs.lowerCase d hd
    · exact (hc free).2
  | dropDatabaseCascade =>
    intro d hd
    simp at hd
    exact hs.lowerCase d hd.1
  | dropDatabase =>
    intro d hd
    simp at hd
    exact hs.lowerCase d hd.1
  | renameDatabase found free =>
    intro d hd
    have hname := hc (by simp [found]) free
    rw [execAll_cons, execAll_nil, exec_update, Table.mem_update] at hd
    obtain ⟨q, hq, rfl⟩ := hd
    split
    · exact hname
    · exact hs.lowerCase q hq
  | alterDatabase found =>
    intro d hd
    have hname := hc (by simp [found])
    rw [execAll_cons, execAll_nil, exec_update, Table.mem_update] at hd
    obtain ⟨q, hq, rfl⟩ := hd
    split
    · exact hname
    · exact hs.lowerCase q hq
  | _ => exact hsame (by simp [Operation.writes])

lemma Attributed.exec (hs : Attributed s) (hc : SparesReads s (caller, now, op)) :
    Attributed (op.exec caller now s) := by
  obtain ⟨ws, heffect, hexec⟩ := op.exec_effect caller now s
  have hnew : ∀ d ign, op = .createOrganization d ign → s.organization d.name = none →
      ∀ db ∈ (s .databases).rows, db.organizationId ≠ (s .organizations).nextId := by
    intro d ign hop free
    subst hop
    exact absurd free hc
  rw [hexec]
  exact
    { found := Attributed.found_step heffect hs hc
      users := hs.users.execAll
      resources := Attributed.resources_step heffect hs hc
      lowerCase := Attributed.lowerCase_step heffect hs hc
      uniqueDatabases := hs.uniqueDatabases.execAll (heffect.free hs.uniqueDatabases nofun hnew)
      uniqueTables := hs.uniqueTables.execAll (heffect.free hs.uniqueTables nofun hnew)
      uniqueFunctions := hs.uniqueFunctions.execAll (heffect.free hs.uniqueFunctions nofun hnew)
      uniqueProcedures :=
        hs.uniqueProcedures.execAll (heffect.free hs.uniqueProcedures nofun hnew)
      uniqueEvents := hs.uniqueEvents.execAll (heffect.free hs.uniqueEvents nofun hnew) }

/-- Whatever happens in a run, what is stored stays readable as long as every object is made by a
user who is there and nobody drops what an object is read with. -/
theorem objects_readable (s : Store) (ops : List (User × Nat × Operation)) (hs : Attributed s)
    (hops : EachStep (fun s e => e.2.2.exec e.1 e.2.1 s) SparesReads s ops) :
    AllReadable (execOperations ops s) :=
  (EachStep.invariant (fun _ _ hs hc => Attributed.exec hs hc) hs hops).allReadable

/-- A catalog in which nothing is stored yet. -/
lemma Attributed.of_empty (databases : (s .databases).rows = []) (tables : (s .tables).rows = [])
    (functions : (s .functions).rows = []) (procedures : (s .procedures).rows = [])
    (timedEvents : (s .timedEvents).rows = []) (users : (s .users).Positive) : Attributed s where
  found k r hr k' id scope huse := by
    cases huse <;> simp_all
  users := users
  resources := by simp [functions]
  lowerCase := by simp [databases]
  uniqueDatabases := by simp [UniqueIn, databases]
  uniqueTables := by simp [UniqueIn, tables]
  uniqueFunctions := by simp [UniqueIn, functions]
  uniqueProcedures := by simp [UniqueIn, procedures]
  uniqueEvents := by simp [UniqueIn, timedEvents]

end Readable

/-- The user sa of the organization that is made first. -/
def saOfFirst : User := { orgId := 2, org := "a", userId := 2, user := "sa" }

/-- The user sa, in an organization without its default database. -/
def makeSa : List (User × Nat × Operation) :=
  [(systemRoot, 1, .dropDatabase "default" false true),
    (systemRoot, 1, createA),
    (systemRoot, 2, .createUser { org := "a", name := "sa", password := "" } false),
    (saOfFirst, 3, .dropDatabase "default" false true)]

/-- Objects of each kind, one of which is renamed. -/
def makeObjects : List (User × Nat × Operation) :=
  [(saOfFirst, 4, .createDatabase { name := "d", properties := [], isLogical := true } false),
    (saOfFirst, 5, .createTable { name := "t", db := some "d", tableType := "table" } false),
    (saOfFirst, 6, .createProcedure { name := "p", sqls := [], lang := "mql" } false),
    (saOfFirst, 7, .createTimedEvent
      { name := "e", definer := "sa", schedule := "", enable := true, procedure := "p" } false),
    (saOfFirst, 8, .renameProcedure "p" "q")]

theorem objects_readable_made :
    letI : Names := ⟨id, id⟩
    AllReadable (execOperations makeObjects (execOperations makeSa Store.initial)) := by
  let _ : Names := ⟨id, id⟩
  have hs : Attributed (execOperations makeSa Store.initial) :=
    .of_empty (by decide) (by decide) (by decide) (by decide) (by decide)
      ⟨by decide, by decide⟩
  apply objects_readable _ _ hs
  refine ⟨fun _ => ⟨?_, rfl⟩, fun _ _ _ _ _ => ?_, fun _ => ?_, fun _ _ _ => ?_, trivial, trivial⟩
  all_goals
    show ∃ u ∈ _, _
    decide

/-- A procedure of the user sa, who is dropped. -/
def dropSa : List (User × Nat × Operation) :=
  [(systemRoot, 1, createA),
    (systemRoot, 2, .createUser { org := "a", name := "sa", password := "" } false),
    (saOfFirst, 3, .createProcedure { name := "p", sqls := [], lang := "mql" } false),
    (systemRoot, 4, .dropUser "a" "sa" false)]

/-- The procedure is there, and to get it fails. -/
theorem objects_readable_fails :
    letI := exactNames
    ¬∀ ops, EachStep (fun s e => e.2.2.exec e.1 e.2.1 s)
      (fun s e => e.2.2.succeeds e.1 e.2.1 s = true) Store.initial ops →
        AllReadable (execOperations ops Store.initial) := by
  let _ := exactNames
  intro h
  have hreadable := h dropSa ⟨by decide, by decide, by decide, by decide, trivial⟩
  obtain ⟨p, hp, hname, horg⟩ : ∃ p ∈ (execOperations dropSa Store.initial .procedures).rows,
      p.name = "p" ∧ saOfFirst.orgId = p.organizationId := by decide
  obtain ⟨owner, hget, _⟩ := hreadable.procedures p hp saOfFirst horg
  have hsucceeds := Handler.succeeds_of_wp hget
  rw [hname] at hsucceeds
  revert hsucceeds
  decide

end Moonbox.Core
