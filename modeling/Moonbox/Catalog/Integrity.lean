import Moonbox.Catalog.Uniqueness
import Moonbox.Lib.References

/-!
# Referential integrity

The schema has no foreign keys. No row refers to a missing row as long as every drop finds that
what it does not delete is not there.
-/

namespace Moonbox.Catalog

open Relational

/-- The references of the schema. An event is looked up with the users and the procedures of its
organization and a privilege with the tables of its database. -/
inductive Refers : (k : Kind) → Entity k → Kind → Nat → Option Nat → Prop
  | userOrganization (r : UserEntity) : Refers .users r .organizations r.organizationId none
  | groupOrganization (r : GroupEntity) : Refers .groups r .organizations r.organizationId none
  | relGroup (r : GroupUserRelEntity) : Refers .groupUserRels r .groups r.groupId none
  | relUser (r : GroupUserRelEntity) : Refers .groupUserRels r .users r.userId none
  | databaseOrganization (r : DatabaseEntity) :
    Refers .databases r .organizations r.organizationId none
  | tableDatabase (r : TableEntity) : Refers .tables r .databases r.databaseId none
  | functionDatabase (r : FunctionEntity) : Refers .functions r .databases r.databaseId none
  | resourceFunction (r : FunctionResourceEntity) :
    Refers .functionResources r .functions r.funcId none
  | procedureOrganization (r : ProcedureEntity) :
    Refers .procedures r .organizations r.organizationId none
  | eventOrganization (r : TimedEventEntity) :
    Refers .timedEvents r .organizations r.organizationId none
  | eventDefiner (r : TimedEventEntity) :
    Refers .timedEvents r .users r.definer (some r.organizationId)
  | eventProcedure (r : TimedEventEntity) :
    Refers .timedEvents r .procedures r.procedure (some r.organizationId)
  | queryOrganization (r : QueryEntity) : Refers .queries r .organizations r.organizationId none
  | databasePrivilegeUser (r : DatabasePrivilegeEntity) :
    Refers .databasePrivileges r .users r.userId none
  | databasePrivilegeDatabase (r : DatabasePrivilegeEntity) :
    Refers .databasePrivileges r .databases r.databaseId none
  | tablePrivilegeUser (r : TablePrivilegeEntity) :
    Refers .tablePrivileges r .users r.userId none
  | tablePrivilegeDatabase (r : TablePrivilegeEntity) :
    Refers .tablePrivileges r .databases r.databaseId none
  | tablePrivilegeTable (r : TablePrivilegeEntity) :
    Refers .tablePrivileges r .tables r.tableId (some r.databaseId)
  | columnPrivilegeUser (r : ColumnPrivilegeEntity) :
    Refers .columnPrivileges r .users r.userId none
  | columnPrivilegeDatabase (r : ColumnPrivilegeEntity) :
    Refers .columnPrivileges r .databases r.databaseId none
  | columnPrivilegeTable (r : ColumnPrivilegeEntity) :
    Refers .columnPrivileges r .tables r.tableId (some r.databaseId)

def references : References Entity where
  Refers {k} r := Refers k r
  scope {k} r :=
    match k, r with
    | .users, (u : UserEntity) => u.organizationId
    | .procedures, (p : ProcedureEntity) => p.organizationId
    | .tables, (t : TableEntity) => t.databaseId
    | _, _ => 0

/-- No row refers to a missing row. -/
abbrev Integrity (s : Store) : Prop := references.Integrity s

section Runs

variable {s : Store}

lemma integrity_empty : Integrity Store.empty := by
  intro k r hr
  cases hr

/-! ### What the drops leave -/

/-- No row of the table has the property. -/
def Store.Without (s : Store) (k : Kind) (P : Entity k → Prop) : Prop :=
  ∀ r ∈ (s k).rows, ¬ P r

/-- Nobody has privileges on the database or on something in it. -/
def Store.WithoutPrivilegesOn (s : Store) (dbId : Nat) : Prop :=
  s.Without .databasePrivileges (fun p => p.databaseId = dbId) ∧
    s.Without .tablePrivileges (fun p => p.databaseId = dbId) ∧
    s.Without .columnPrivileges fun p => p.databaseId = dbId

/-- The user is in no group and has no privileges. -/
def Store.WithoutRowsOf (s : Store) (userId : Nat) : Prop :=
  s.Without .groupUserRels (fun rel => rel.userId = userId) ∧
    s.Without .databasePrivileges (fun p => p.userId = userId) ∧
    s.Without .tablePrivileges (fun p => p.userId = userId) ∧
    s.Without .columnPrivileges fun p => p.userId = userId

variable [Names]

/-- The operation puts its row into an organization that is there, or what its drop does not
delete and does not look for is not there. -/
def Operation.Covers (caller : User) (s : Store) : Operation → Prop
  | .createQuery .. | .createProcedure .. | .createDatabase .. | .createGroup .. =>
    ∃ o ∈ (s .organizations).rows, o.id = caller.orgId
  | .dropOrganization org _ true => ∀ o, Store.organization s org = some o →
    s.Without .groups (fun g => g.organizationId = o.id) ∧
      (∀ d ∈ (s .databases).rows, d.organizationId = o.id →
        s.Without .tables (fun t => t.databaseId = d.id) ∧
          s.Without .functions (fun f => f.databaseId = d.id) ∧ s.WithoutPrivilegesOn d.id) ∧
      ∀ u ∈ (s .users).rows, u.organizationId = o.id → s.WithoutRowsOf u.id
  | .dropOrganization org _ false => ∀ o, Store.organization s org = some o →
    s.Without .databases (fun d => d.organizationId = o.id) ∧
      s.Without .users (fun u => u.organizationId = o.id) ∧
      s.Without .procedures (fun p => p.organizationId = o.id) ∧
      s.Without .queries fun q => q.organizationId = o.id
  | .dropUser org user _ => ∀ o u, Store.organization s org = some o →
    Store.user s o.id user = some u → s.Without .timedEvents fun e => e.definer = u.id
  | .dropDatabase database _ true => ∀ d,
    Store.database s caller.orgId (JdbcCatalog.formatDatabaseName database) = some d →
    s.WithoutPrivilegesOn d.id ∧ ∀ f ∈ (s .functions).rows, f.databaseId = d.id →
      s.Without .functionResources fun r => r.funcId = f.id
  | .dropDatabase database _ false => ∀ d,
    Store.database s caller.orgId (JdbcCatalog.formatDatabaseName database) = some d →
    s.Without .tables (fun t => t.databaseId = d.id) ∧
      s.Without .functions (fun f => f.databaseId = d.id) ∧ s.WithoutPrivilegesOn d.id
  | _ => True

/-- Every operation covers what it finds. -/
def Covered : List (User × Nat × Operation) → Store → Prop
  | [], _ => True
  | (caller, now, op) :: ops, s => op.Covers caller s ∧ Covered ops (op.exec caller now s)

/-- The row that a drop with everything that depends on it is to remove. -/
def Operation.drops (caller : User) (s : Store) : Operation → Option (Kind × Nat)
  | .dropOrganization org _ true =>
    (Store.organization s org).map fun o => (.organizations, o.id)
  | .dropUser org user _ =>
    (Store.organization s org).bind fun o =>
      (Store.user s o.id user).map fun u => (.users, u.id)
  | .dropDatabase database _ true =>
    (Store.database s caller.orgId (JdbcCatalog.formatDatabaseName database)).map fun d =>
      (.databases, d.id)
  | .dropGroup group _ true => (Store.group s caller.orgId group).map fun g => (.groups, g.id)
  | _ => none

/-! ### The invariant -/

/-- What the drops by name rest on besides: a name means one organization, database, table or
function. -/
structure Sound (s : Store) : Prop where
  integrity : Integrity s
  organizations : UniqueIn .organizations s
  databases : UniqueIn .databases s
  tables : UniqueIn .tables s
  functions : UniqueIn .functions s

lemma Sound.empty : Sound Store.empty :=
  ⟨integrity_empty, namesUnique_empty _, namesUnique_empty _, namesUnique_empty _,
    namesUnique_empty _⟩

section Lookups

variable {name : String}

lemma Sound.eq_organization (h : Sound s) {o p : OrganizationEntity}
    (found : Store.organization s name = some o) (hp : p ∈ (s .organizations).rows)
    (hname : sameName p.name name = true) : p = o := by
  have ⟨ho, honame⟩ := Store.organization_some found
  exact h.organizations p hp o ho _ (key_eq (o := 0) rfl hname) (key_eq rfl honame)

lemma Sound.eq_database (h : Sound s) {orgId : Nat} {d p : DatabaseEntity}
    (found : Store.database s orgId name = some d) (hp : p ∈ (s .databases).rows)
    (hcond : (p.organizationId == orgId && sameName p.name name) = true) : p = d := by
  have ⟨hd, hscope, hname⟩ := Store.database_some found
  exact h.databases p hp d hd _ (key_of_cond hcond) (key_eq hscope hname)

lemma Sound.eq_table (h : Sound s) {dbId : Nat} {t p : TableEntity}
    (found : Store.table s dbId name = some t) (hp : p ∈ (s .tables).rows)
    (hcond : (p.databaseId == dbId && sameName p.name name) = true) : p = t := by
  have ⟨ht, hscope, hname⟩ := Store.table_some found
  exact h.tables p hp t ht _ (key_of_cond hcond) (key_eq hscope hname)

lemma Sound.eq_function (h : Sound s) {dbId : Nat} {f p : FunctionEntity}
    (found : Store.function s dbId name = some f) (hp : p ∈ (s .functions).rows)
    (hcond : (p.databaseId == dbId && sameName p.name name) = true) : p = f := by
  have ⟨hf, hscope, hname⟩ := Store.function_some found
  exact h.functions p hp f hf _ (key_of_cond hcond) (key_eq hscope hname)

/-- The next organization has no databases yet. -/
lemma Sound.new_organization (h : Sound s) {d : DatabaseEntity} (hd : d ∈ (s .databases).rows) :
    d.organizationId ≠ (s .organizations).nextId := by
  obtain ⟨o, ho, hid, _⟩ := h.integrity .databases d hd _ _ _ (Refers.databaseOrganization d)
  have hlt := (s .organizations).fresh o ho
  rw [hid] at hlt
  exact Nat.ne_of_lt hlt

end Lookups

lemma Sound.has (h : Sound s) {k k' : Kind} {r : Entity k} {id : Nat} {scope : Option Nat}
    (hr : r ∈ (s k).rows) (href : Refers k r k' id scope) : references.Has s k' id scope :=
  h.integrity k r hr k' id scope href

lemma Sound.has_eq (h : Sound s) {k k' : Kind} {r : Entity k} {id id' : Nat}
    {scope : Option Nat} (hr : r ∈ (s k).rows) (href : Refers k r k' id scope) (he : id = id') :
    references.Has s k' id' scope := he ▸ h.has hr href

lemma Sound.execAll (h : Sound s) {ws : List (Write Entity)} (hk : references.KeepsAll s ws) :
    Integrity (execAll ws s) := References.Integrity.execAll h.integrity hk

/-- The ids found for names are those of users. -/
lemma Store.UserIds.mem_user {orgId : Nat} {users : List String} {ids : List Nat}
    (h : Store.UserIds s orgId users ids) {id : Nat} (hid : id ∈ ids) :
    ∃ u ∈ (s .users).rows, u.id = id := by
  induction h with
  | nil => cases hid
  | cons hfirst _ ih =>
    rcases List.mem_cons.mp hid with rfl | hid
    · obtain ⟨u, found, hu⟩ := hfirst
      exact ⟨u, (Store.user_some found).1, hu⟩
    · exact ih hid

/-! ### What an operation keeps -/

section Deletes

omit [Names]

/-- Nothing refers to the table. -/
def IsLeaf (k : Kind) : Prop := ∀ k' r id scope, ¬ Refers k' r k id scope

lemma leaf_groupUserRels : IsLeaf .groupUserRels := by
  intro _ _ _ _ h
  cases h

lemma leaf_functionResources : IsLeaf .functionResources := by
  intro _ _ _ _ h
  cases h

lemma leaf_timedEvents : IsLeaf .timedEvents := by
  intro _ _ _ _ h
  cases h

lemma leaf_queries : IsLeaf .queries := by
  intro _ _ _ _ h
  cases h

lemma leaf_databasePrivileges : IsLeaf .databasePrivileges := by
  intro _ _ _ _ h
  cases h

lemma leaf_tablePrivileges : IsLeaf .tablePrivileges := by
  intro _ _ _ _ h
  cases h

lemma leaf_columnPrivileges : IsLeaf .columnPrivileges := by
  intro _ _ _ _ h
  cases h

lemma IsLeaf.keeps_delete {k : Kind} (h : IsLeaf k) {cond : Entity k → Bool} :
    references.Keeps s (.delete k cond) :=
  fun k' r _ id scope href => absurd href (h k' r id scope)

lemma mem_of_mem_delete {k k' : Kind} {cond : Entity k → Bool} {r : Entity k'}
    (h : r ∈ ((Write.delete k cond).exec s k').rows) : r ∈ (s k').rows := by
  by_cases hk : k' = k
  · subst hk
    rw [exec_delete, Table.mem_delete] at h
    exact h.1
  · rwa [exec_delete_of_ne cond hk] at h

end Deletes

omit [Names] in
/-- Of the rows that need a user only the events stay, and no event needs this one. -/
lemma Sound.keepsAll_dropUser {u : UserEntity}
    (hevents : s.Without .timedEvents fun e => e.definer = u.id) :
    references.KeepsAll s
      [.delete .groupUserRels fun rel => rel.userId == u.id,
        .delete .databasePrivileges fun t => t.userId == u.id,
        .delete .tablePrivileges fun t => t.userId == u.id,
        .delete .columnPrivileges fun t => t.userId == u.id,
        .delete .users fun t => t.id == u.id] := by
  refine ⟨leaf_groupUserRels.keeps_delete, leaf_databasePrivileges.keeps_delete,
    leaf_tablePrivileges.keeps_delete, leaf_columnPrivileges.keeps_delete, ?_, trivial⟩
  intro k r hr id scope href p _ hans
  apply beq_false_of_ne
  intro hp
  have hid : id = u.id := hans.1.symm.trans hp
  cases href <;> simp at hr
  case relUser => exact hr.2 hid
  case databasePrivilegeUser => exact hr.2 hid
  case tablePrivilegeUser => exact hr.2 hid
  case columnPrivilegeUser => exact hr.2 hid
  case eventDefiner => exact hevents _ hr hid

/-- The deletions for an organization. What refers to its users goes before them. -/
lemma execAll_dropOrganization (o : OrganizationEntity) (org : String) :
    execAll (E := Entity)
      [.delete .databases fun t => t.organizationId == o.id,
        .delete .users fun t => t.organizationId == o.id,
        .delete .timedEvents fun t => t.organizationId == o.id,
        .delete .procedures fun t => t.organizationId == o.id,
        .delete .queries fun t => t.organizationId == o.id,
        .delete .organizations fun t => sameName t.name org] s =
    execAll (E := Entity)
      [.delete .timedEvents fun t => t.organizationId == o.id,
        .delete .databases fun t => t.organizationId == o.id,
        .delete .users fun t => t.organizationId == o.id,
        .delete .procedures fun t => t.organizationId == o.id,
        .delete .queries fun t => t.organizationId == o.id,
        .delete .organizations fun t => sameName t.name org] s := by
  funext k
  cases k <;> rfl

lemma Sound.keepsAll_dropOrganizationCascade {caller : User} {org : String} {ign : Bool}
    {o : OrganizationEntity} (hs : Sound s) (found : Store.organization s org = some o)
    (hc : (Operation.dropOrganization org ign true).Covers caller s) :
    references.KeepsAll s
      [.delete .timedEvents fun t => t.organizationId == o.id,
        .delete .databases fun t => t.organizationId == o.id,
        .delete .users fun t => t.organizationId == o.id,
        .delete .procedures fun t => t.organizationId == o.id,
        .delete .queries fun t => t.organizationId == o.id,
        .delete .organizations fun t => sameName t.name org] := by
  obtain ⟨hgroups, hdatabases, husers⟩ := hc o found
  refine ⟨leaf_timedEvents.keeps_delete, ?_, ?_, ?_, leaf_queries.keeps_delete, ?_, trivial⟩
  · intro k r hr id scope href p hp hans
    apply beq_false_of_ne
    intro hpo
    obtain ⟨htables, hfunctions, hdbp, htp, hcp⟩ := hdatabases p (mem_of_mem_delete hp) hpo
    have hid := hans.1.symm
    cases href <;> simp at hr
    case tableDatabase => exact htables _ hr hid
    case functionDatabase => exact hfunctions _ hr hid
    case databasePrivilegeDatabase => exact hdbp _ hr hid
    case tablePrivilegeDatabase => exact htp _ hr hid
    case columnPrivilegeDatabase => exact hcp _ hr hid
  · intro k r hr id scope href p hp hans
    apply beq_false_of_ne
    intro hpo
    have hid := hans.1.symm
    obtain ⟨hrel, hdbp, htp, hcp⟩ := husers p (mem_of_mem_delete (mem_of_mem_delete hp)) hpo
    cases href <;> simp at hr
    case relUser => exact hrel _ hr hid
    case databasePrivilegeUser => exact hdbp _ hr hid
    case tablePrivilegeUser => exact htp _ hr hid
    case columnPrivilegeUser => exact hcp _ hr hid
    case eventDefiner => exact hr.2 ((hans.2 _ rfl).symm.trans hpo)
  · intro k r hr id scope href p hp hans
    apply beq_false_of_ne
    intro hpo
    cases href
    simp at hr
    exact hr.2 ((hans.2 _ rfl).symm.trans hpo)
  · intro k r hr id scope href p hp hans
    rw [Bool.eq_false_iff]
    intro hname
    simp at hp
    have hpo := hs.eq_organization found hp hname
    have hid : id = o.id := hans.1.symm.trans (congrArg _ hpo)
    cases href <;> simp at hr
    case userOrganization => exact hr.2 hid
    case groupOrganization => exact hgroups _ hr hid
    case databaseOrganization => exact hr.2 hid
    case procedureOrganization => exact hr.2 hid
    case eventOrganization => exact hr.2 hid
    case queryOrganization => exact hr.2 hid

lemma Sound.keepsAll_dropOrganization {caller : User} {org : String} {ign : Bool}
    {o : OrganizationEntity} (hs : Sound s) (found : Store.organization s org = some o)
    (events : Store.listTimedEvents s o.id = []) (groups : Store.listGroups s o.id = [])
    (hc : (Operation.dropOrganization org ign false).Covers caller s) :
    references.KeepsAll s [.delete .organizations fun t => sameName t.name org] := by
  obtain ⟨hdatabases, husers, hprocedures, hqueries⟩ := hc o found
  refine ⟨?_, trivial⟩
  intro k r hr id scope href p hp hans
  rw [Bool.eq_false_iff]
  intro hname
  have hpo := hs.eq_organization found hp hname
  have hid : id = o.id := hans.1.symm.trans (congrArg _ hpo)
  cases href
  case userOrganization => exact husers _ hr hid
  case groupOrganization =>
    exact List.filter_eq_nil_iff.mp groups _ hr (beq_iff_eq.mpr hid)
  case databaseOrganization => exact hdatabases _ hr hid
  case procedureOrganization => exact hprocedures _ hr hid
  case eventOrganization =>
    exact List.filter_eq_nil_iff.mp events _ hr (beq_iff_eq.mpr hid)
  case queryOrganization => exact hqueries _ hr hid

/-- The events that use the procedure are looked for in its organization. -/
lemma Sound.keepsAll_dropProcedure {orgId : Nat} {proc : String} {p : ProcedureEntity}
    (found : Store.procedure s orgId proc = some p)
    (unused : ∀ t ∈ (s .timedEvents).rows, ¬ (t.organizationId = orgId ∧ t.procedure = p.id)) :
    references.KeepsAll s [.delete .procedures fun t => t.id == p.id] := by
  have ⟨hp, hscope, _⟩ := Store.procedure_some found
  refine ⟨?_, trivial⟩
  intro k r hr id scope href q hq hans
  apply beq_false_of_ne
  intro hqp
  have hqp' : q = p := (s .procedures).eq_of_id hq hp hqp
  cases href
  apply unused _ hr
  constructor
  · rw [← hans.2 _ rfl, hqp']
    exact hscope
  · exact hans.1.symm.trans hqp

/-- What is in a database goes before it. -/
lemma Sound.keepsAll_dropDatabaseCascade {caller : User} {database : String} {ign : Bool}
    {d : DatabaseEntity} (hs : Sound s)
    (found : Store.database s caller.orgId (JdbcCatalog.formatDatabaseName database) = some d)
    (hc : (Operation.dropDatabase database ign true).Covers caller s) :
    references.KeepsAll s
      [.delete .functions fun t => t.databaseId == d.id,
        .delete .tables fun t => t.databaseId == d.id,
        .delete .databases fun t => t.organizationId == caller.orgId &&
          sameName t.name (JdbcCatalog.formatDatabaseName database)] := by
  obtain ⟨⟨hdbp, htp, hcp⟩, hresources⟩ := hc d found
  refine ⟨?_, ?_, ?_, trivial⟩
  · intro k r hr id scope href p hp hans
    apply beq_false_of_ne
    intro hpd
    cases href
    exact hresources p hp hpd _ hr hans.1.symm
  · intro k r hr id scope href p hp hans
    apply beq_false_of_ne
    intro hpd
    have hscope := hans.2
    cases href <;> simp at hr
    case tablePrivilegeTable => exact htp _ hr ((hscope _ rfl).symm.trans hpd)
    case columnPrivilegeTable => exact hcp _ hr ((hscope _ rfl).symm.trans hpd)
  · intro k r hr id scope href p hp hans
    rw [Bool.eq_false_iff]
    intro hcond
    have hpd := hs.eq_database found (mem_of_mem_delete (mem_of_mem_delete hp)) hcond
    have hid : id = d.id := hans.1.symm.trans (congrArg _ hpd)
    cases href <;> simp at hr
    case tableDatabase => exact hr.2 hid
    case functionDatabase => exact hr.2 hid
    case databasePrivilegeDatabase => exact hdbp _ hr hid
    case tablePrivilegeDatabase => exact htp _ hr hid
    case columnPrivilegeDatabase => exact hcp _ hr hid

lemma Sound.keepsAll_dropDatabase {caller : User} {database : String} {ign : Bool}
    {d : DatabaseEntity} (hs : Sound s)
    (found : Store.database s caller.orgId (JdbcCatalog.formatDatabaseName database) = some d)
    (hc : (Operation.dropDatabase database ign false).Covers caller s) :
    references.KeepsAll s
      [.delete .databases fun t => t.organizationId == caller.orgId &&
        sameName t.name (JdbcCatalog.formatDatabaseName database)] := by
  obtain ⟨htables, hfunctions, hdbp, htp, hcp⟩ := hc d found
  refine ⟨?_, trivial⟩
  intro k r hr id scope href p hp hans
  rw [Bool.eq_false_iff]
  intro hcond
  have hpd := hs.eq_database found hp hcond
  have hid : id = d.id := hans.1.symm.trans (congrArg _ hpd)
  cases href
  case tableDatabase => exact htables _ hr hid
  case functionDatabase => exact hfunctions _ hr hid
  case databasePrivilegeDatabase => exact hdbp _ hr hid
  case tablePrivilegeDatabase => exact htp _ hr hid
  case columnPrivilegeDatabase => exact hcp _ hr hid

lemma Sound.keepsAll_dropTable {dbId : Nat} {table : String} {t : TableEntity} (hs : Sound s)
    (found : Store.table s dbId table = some t) :
    references.KeepsAll s
      [.delete .tablePrivileges fun p => p.databaseId == t.databaseId && p.tableId == t.id,
        .delete .columnPrivileges fun p => p.databaseId == t.databaseId && p.tableId == t.id,
        .delete .tables fun e => e.databaseId == t.databaseId && sameName e.name table] := by
  have ⟨_, hscope, _⟩ := Store.table_some found
  refine ⟨leaf_tablePrivileges.keeps_delete, leaf_columnPrivileges.keeps_delete, ?_, trivial⟩
  intro k r hr id scope href p hp hans
  rw [Bool.eq_false_iff]
  intro hcond
  have hpt : p = t := by
    apply hs.eq_table found (mem_of_mem_delete (mem_of_mem_delete hp))
    rw [← hscope]
    exact hcond
  subst hpt
  have hid := hans.1.symm
  have hdb := hans.2
  cases href <;> simp at hr
  case tablePrivilegeTable => exact hr.2 (hdb _ rfl).symm hid
  case columnPrivilegeTable => exact hr.2 (hdb _ rfl).symm hid

lemma Sound.keepsAll_dropFunction {dbId : Nat} {func : String} {f : FunctionEntity}
    (hs : Sound s) (found : Store.function s dbId func = some f) :
    references.KeepsAll s
      [.delete .functionResources fun r => r.funcId == f.id,
        .delete .functions fun e => e.databaseId == dbId && sameName e.name func] := by
  refine ⟨leaf_functionResources.keeps_delete, ?_, trivial⟩
  intro k r hr id scope href p hp hans
  rw [Bool.eq_false_iff]
  intro hcond
  have hpf := hs.eq_function found (mem_of_mem_delete hp) hcond
  have hid : id = f.id := hans.1.symm.trans (congrArg _ hpf)
  cases href
  simp at hr
  exact hr.2 hid

omit [Names] in
lemma Sound.keepsAll_dropGroupCascade {g : GroupEntity} :
    references.KeepsAll s
      [.delete .groupUserRels fun rel => rel.groupId == g.id,
        .delete .groups fun t => t.id == g.id] := by
  refine ⟨leaf_groupUserRels.keeps_delete, ?_, trivial⟩
  intro k r hr id scope href p _ hans
  apply beq_false_of_ne
  intro hpg
  cases href
  simp at hr
  exact hr.2 (hans.1.symm.trans hpg)

/-- A group that lists no members has none, as every member is there. -/
lemma Sound.keepsAll_dropGroup {g : GroupEntity} (hs : Sound s)
    (rels : Store.members s g.id = []) :
    references.KeepsAll s [.delete .groups fun t => t.id == g.id] := by
  refine ⟨?_, trivial⟩
  intro k r hr id scope href p _ hans
  apply beq_false_of_ne
  intro hpg
  cases href
  rename_i r
  obtain ⟨u, hu, hid, _⟩ := hs.has hr (.relUser r)
  have hmember : u.name ∈ Store.members s g.id := by
    apply List.mem_flatMap.mpr
    refine ⟨r, List.mem_filter.mpr ⟨hr, beq_iff_eq.mpr (hans.1.symm.trans hpg)⟩, ?_⟩
    exact List.mem_map.mpr ⟨u, List.mem_filter.mpr ⟨hu, beq_iff_eq.mpr hid.symm⟩, rfl⟩
  rw [rels] at hmember
  cases hmember

variable {caller : User} {now : Nat} {op : Operation} {ws : List (Write Entity)}

/-- A rename leaves what the row needs and what it answers as they are. -/
lemma Sound.keeps_rename (hs : Sound s) {k : Kind} {cond : Entity k → Bool}
    {set : Entity k → Entity k}
    (hscope : ∀ r, references.scope (Row.withId (Row.id r) (set r)) = references.scope r)
    (hrefers : ∀ r k' id scope, Refers k (Row.withId (Row.id r) (set r)) k' id scope →
      Refers k r k' id scope) : references.Keeps s (.update k cond set) :=
  fun r hr _ => ⟨hscope r, fun _ _ _ href => hs.has hr (hrefers r _ _ _ href)⟩

lemma Effect.integrity (h : Effect caller now s op ws) (hs : Sound s)
    (hc : op.Covers caller s) : Integrity (execAll ws s) := by
  cases h with
  | idle => exact hs.integrity
  | createQuery =>
    obtain ⟨o, ho, hid⟩ := hc
    apply hs.execAll
    refine ⟨fun _ _ _ href => ?_, trivial⟩
    cases href
    exact .intro ho hid nofun
  | dropQuery => exact hs.execAll ⟨leaf_queries.keeps_delete, trivial⟩
  | alterQuery found =>
    have ⟨hmem, hscope, _⟩ := Store.query_some found
    apply hs.execAll
    refine ⟨References.keeps_overwrite hmem rfl fun _ _ _ href => ?_, trivial⟩
    cases href
    exact hs.has_eq hmem (.queryOrganization _) hscope
  | createOrganization =>
    apply hs.execAll
    refine ⟨fun _ _ _ href => ?_, fun _ _ _ href => ?_, trivial⟩
    · cases href
    · cases href
      -- The default database belongs to the organization made just before it.
      exact .inserted _
  | dropOrganizationCascade found =>
    rw [execAll_dropOrganization]
    exact hs.execAll (hs.keepsAll_dropOrganizationCascade found hc)
  | dropOrganization found _ _ events _ groups =>
    exact hs.execAll (hs.keepsAll_dropOrganization found events groups hc)
  | renameOrganization =>
    apply hs.execAll
    refine ⟨hs.keeps_rename (fun _ => rfl) fun r _ _ _ href => ?_, trivial⟩
    cases href
  | alterOrganization found =>
    have ⟨hmem, _⟩ := Store.organization_some found
    apply hs.execAll
    refine ⟨References.keeps_overwrite hmem rfl fun _ _ _ href => ?_, trivial⟩
    cases href
  | createUser inOrg =>
    have ⟨hmem, _⟩ := Store.organization_some inOrg
    apply hs.execAll
    refine ⟨fun _ _ _ href => ?_, trivial⟩
    cases href
    exact .intro hmem rfl nofun
  | dropUser inOrg found => exact hs.execAll (Sound.keepsAll_dropUser (hc _ _ inOrg found))
  | renameUser =>
    apply hs.execAll
    refine ⟨hs.keeps_rename (fun _ => rfl) fun r _ _ _ href => ?_, trivial⟩
    cases href
    exact .userOrganization r
  | alterUser _ found =>
    have ⟨hmem, _, _⟩ := Store.user_some found
    apply hs.execAll
    refine ⟨References.keeps_overwrite hmem rfl fun _ _ _ href => ?_, trivial⟩
    cases href
    exact hs.has hmem (.userOrganization _)
  | createProcedure =>
    obtain ⟨o, ho, hid⟩ := hc
    apply hs.execAll
    refine ⟨fun _ _ _ href => ?_, trivial⟩
    cases href
    exact .intro ho hid nofun
  | dropProcedure found unused => exact hs.execAll (Sound.keepsAll_dropProcedure found unused)
  | renameProcedure =>
    apply hs.execAll
    refine ⟨hs.keeps_rename (fun _ => rfl) fun r _ _ _ href => ?_, trivial⟩
    cases href
    exact .procedureOrganization r
  | alterProcedure found =>
    have ⟨hmem, hscope, _⟩ := Store.procedure_some found
    apply hs.execAll
    refine ⟨References.keeps_overwrite hmem hscope.symm fun _ _ _ href => ?_, trivial⟩
    cases href
    exact hs.has_eq hmem (.procedureOrganization _) hscope
  | createTimedEvent _ procedure definer =>
    have ⟨hp, hpscope, _⟩ := Store.procedure_some procedure
    have ⟨hu, huscope, _⟩ := Store.user_some definer
    apply hs.execAll
    refine ⟨fun _ _ _ href => ?_, trivial⟩
    cases href with
    | eventOrganization => exact hs.has_eq hp (.procedureOrganization _) hpscope
    | eventDefiner => exact .intro hu rfl fun n hn => huscope.trans (Option.some.inj hn)
    | eventProcedure => exact .intro hp rfl fun n hn => hpscope.trans (Option.some.inj hn)
  | renameTimedEvent =>
    apply hs.execAll
    refine ⟨hs.keeps_rename (fun _ => rfl) fun r _ _ _ href => ?_, trivial⟩
    cases href with
    | eventOrganization => exact .eventOrganization r
    | eventDefiner => exact .eventDefiner r
    | eventProcedure => exact .eventProcedure r
  | alterTimedEvent found procedure definer =>
    have ⟨hmem, _, _⟩ := Store.timedEvent_some found
    have ⟨hp, hpscope, _⟩ := Store.procedure_some procedure
    have ⟨hu, huscope, _⟩ := Store.user_some definer
    apply hs.execAll
    refine ⟨References.keeps_overwrite hmem rfl fun _ _ _ href => ?_, trivial⟩
    cases href with
    | eventOrganization => exact hs.has_eq hp (.procedureOrganization _) hpscope
    | eventDefiner => exact .intro hu rfl fun n hn => huscope.trans (Option.some.inj hn)
    | eventProcedure => exact .intro hp rfl fun n hn => hpscope.trans (Option.some.inj hn)
  | dropTimedEvent => exact hs.execAll ⟨leaf_timedEvents.keeps_delete, trivial⟩
  | createDatabase =>
    obtain ⟨o, ho, hid⟩ := hc
    apply hs.execAll
    refine ⟨fun _ _ _ href => ?_, trivial⟩
    cases href
    exact .intro ho hid nofun
  | dropDatabaseCascade found => exact hs.execAll (hs.keepsAll_dropDatabaseCascade found hc)
  | dropDatabase found => exact hs.execAll (hs.keepsAll_dropDatabase found hc)
  | renameDatabase =>
    apply hs.execAll
    refine ⟨hs.keeps_rename (fun _ => rfl) fun r _ _ _ href => ?_, trivial⟩
    cases href
    exact .databaseOrganization r
  | alterDatabase found =>
    have ⟨hmem, hscope, _⟩ := Store.database_some found
    apply hs.execAll
    refine ⟨References.keeps_overwrite hmem rfl fun _ _ _ href => ?_, trivial⟩
    cases href
    exact hs.has_eq hmem (.databaseOrganization _) hscope
  | createTable _ inDatabase =>
    have ⟨hmem, _, _⟩ := Store.database_some inDatabase
    apply hs.execAll
    refine ⟨fun _ _ _ href => ?_, trivial⟩
    cases href
    exact .intro hmem rfl nofun
  | dropTable _ found => exact hs.execAll (hs.keepsAll_dropTable found)
  | renameTable =>
    apply hs.execAll
    refine ⟨hs.keeps_rename (fun _ => rfl) fun r _ _ _ href => ?_, trivial⟩
    cases href
    exact .tableDatabase r
  | alterTable _ inDatabase found =>
    have ⟨hmem, hscope, _⟩ := Store.table_some found
    apply hs.execAll
    refine ⟨References.keeps_overwrite hmem hscope.symm fun _ _ _ href => ?_, trivial⟩
    cases href
    exact hs.has_eq hmem (.tableDatabase _) hscope
  | createFunction _ inDatabase =>
    have ⟨hmem, _, _⟩ := Store.database_some inDatabase
    apply hs.execAll
    refine ⟨fun _ _ _ href => ?_, References.keepsAll_inserts fun e he n _ _ _ href => ?_⟩
    · cases href
      exact .intro hmem rfl nofun
    · obtain ⟨r, _, rfl⟩ := List.mem_map.mp he
      cases href
      exact .inserted _
  | dropFunction _ found => exact hs.execAll (hs.keepsAll_dropFunction found)
  | renameFunction =>
    apply hs.execAll
    refine ⟨hs.keeps_rename (fun _ => rfl) fun r _ _ _ href => ?_, trivial⟩
    cases href
    exact .functionDatabase r
  | createDatabasePrivilege grantee inDatabase =>
    have ⟨hu, _, _⟩ := Store.user_some grantee
    have ⟨hd, _, _⟩ := Store.database_some inDatabase
    apply hs.execAll
    apply References.keepsAll_inserts
    intro e he n _ _ _ href
    obtain ⟨x, _, rfl⟩ := List.mem_map.mp he
    cases href with
    | databasePrivilegeUser => exact .intro hu rfl nofun
    | databasePrivilegeDatabase => exact .intro hd rfl nofun
  | dropDatabasePrivilege => exact hs.execAll ⟨leaf_databasePrivileges.keeps_delete, trivial⟩
  | createTablePrivilege grantee inDatabase onTable =>
    have ⟨hu, _, _⟩ := Store.user_some grantee
    have ⟨hd, _, _⟩ := Store.database_some inDatabase
    have ⟨ht, htscope, _⟩ := Store.table_some onTable
    apply hs.execAll
    apply References.keepsAll_inserts
    intro e he n _ _ _ href
    obtain ⟨x, _, rfl⟩ := List.mem_map.mp he
    cases href with
    | tablePrivilegeUser => exact .intro hu rfl nofun
    | tablePrivilegeDatabase => exact .intro hd rfl nofun
    | tablePrivilegeTable => exact .intro ht rfl fun n hn => htscope.trans (Option.some.inj hn)
  | dropTablePrivilege => exact hs.execAll ⟨leaf_tablePrivileges.keeps_delete, trivial⟩
  | createColumnPrivilege grantee inDatabase onTable =>
    have ⟨hu, _, _⟩ := Store.user_some grantee
    have ⟨hd, _, _⟩ := Store.database_some inDatabase
    have ⟨ht, htscope, _⟩ := Store.table_some onTable
    apply hs.execAll
    apply References.keepsAll_inserts
    intro e he n _ _ _ href
    obtain ⟨x, _, rfl⟩ := List.mem_map.mp he
    cases href with
    | columnPrivilegeUser => exact .intro hu rfl nofun
    | columnPrivilegeDatabase => exact .intro hd rfl nofun
    | columnPrivilegeTable => exact .intro ht rfl fun n hn => htscope.trans (Option.some.inj hn)
  | dropColumnPrivilege => exact hs.execAll (References.keepsAll_deletes leaf_columnPrivileges)
  | createGroup =>
    obtain ⟨o, ho, hid⟩ := hc
    apply hs.execAll
    refine ⟨fun _ _ _ href => ?_, trivial⟩
    cases href
    exact .intro ho hid nofun
  | renameGroup =>
    apply hs.execAll
    refine ⟨hs.keeps_rename (fun _ => rfl) fun r _ _ _ href => ?_, trivial⟩
    cases href
    exact .groupOrganization r
  | alterGroup found =>
    have ⟨hmem, _, _⟩ := Store.group_some found
    apply hs.execAll
    refine ⟨References.keeps_overwrite hmem rfl fun _ _ _ href => ?_, trivial⟩
    cases href
    exact hs.has hmem (.groupOrganization _)
  | dropGroupCascade => exact hs.execAll Sound.keepsAll_dropGroupCascade
  | dropGroup _ rels => exact hs.execAll (hs.keepsAll_dropGroup rels)
  | createGroupUserRel found users =>
    have ⟨hg, _, _⟩ := Store.group_some found
    apply hs.execAll
    apply References.keepsAll_inserts
    intro e he n _ _ _ href
    obtain ⟨id, hid, rfl⟩ := List.mem_map.mp he
    cases href with
    | relGroup => exact .intro hg rfl nofun
    | relUser =>
      obtain ⟨u, hu, rfl⟩ := users.mem_user hid
      exact .intro hu rfl nofun
  | dropGroupUserRel => exact hs.execAll ⟨leaf_groupUserRels.keeps_delete, trivial⟩

/-! ### Runs -/

lemma Sound.exec (hs : Sound s) (hc : op.Covers caller s) : Sound (op.exec caller now s) := by
  obtain ⟨ws, heffect, hexec⟩ := op.exec_effect caller now s
  have hnew := fun d ign (_ : op = .createOrganization d ign)
    (_ : Store.organization s d.name = none) db hdb => hs.new_organization (d := db) hdb
  rw [hexec]
  exact
    { integrity := heffect.integrity hs hc
      organizations := hs.organizations.execAll (heffect.free hs.organizations nofun hnew)
      databases := hs.databases.execAll (heffect.free hs.databases nofun hnew)
      tables := hs.tables.execAll (heffect.free hs.tables nofun hnew)
      functions := hs.functions.execAll (heffect.free hs.functions nofun hnew) }

lemma Sound.execOperations {ops : List (User × Nat × Operation)} (hs : Sound s)
    (hc : Covered ops s) : Sound (execOperations ops s) := by
  induction ops generalizing s with
  | nil => exact hs
  | cons op ops ih => exact ih (hs.exec hc.1) hc.2

/-- A drop with its dependents removes the row it is about. -/
lemma Operation.dropped {k : Kind} {id : Nat} (hdrops : op.drops caller s = some (k, id)) :
    ∀ p ∈ (op.exec caller now s k).rows, Row.id p ≠ id := by
  apply (Action.wp_run (op.action caller now) fun s' => ∀ p ∈ (s' k).rows, Row.id p ≠ id).mp
  unfold Operation.drops at hdrops
  split at hdrops
  · rename_i org ign
    obtain ⟨o, found, heq⟩ := Option.map_eq_some_iff.mp hdrops
    cases heq
    obtain ⟨hmem, hname⟩ := Store.organization_some found
    show (JdbcCatalog.dropOrganization org ign true).wp _ _ s
    rw [JdbcCatalog.dropOrganization, Action.wp_bind, wp_getOrganization, found]
    exact fun p => Table.id_ne_of_mem_delete hmem hname
  · rename_i org user ign
    obtain ⟨o, inOrg, hdrops⟩ := Option.bind_eq_some_iff.mp hdrops
    obtain ⟨u, found, heq⟩ := Option.map_eq_some_iff.mp hdrops
    cases heq
    obtain ⟨hmem, _, _⟩ := Store.user_some found
    show (JdbcCatalog.dropUser org user ign).wp _ _ s
    rw [JdbcCatalog.dropUser, Action.wp_bind, wp_organizationId, inOrg]
    simp only [Action.wp_bind, wp_getUser, found]
    exact fun p => Table.id_ne_of_mem_delete hmem (beq_self_eq_true _)
  · rename_i database ign
    obtain ⟨d, found, heq⟩ := Option.map_eq_some_iff.mp hdrops
    cases heq
    obtain ⟨hmem, hscope, hname⟩ := Store.database_some found
    show (JdbcCatalog.dropDatabase database ign true caller).wp _ _ s
    rw [JdbcCatalog.dropDatabase, Action.wp_bind, wp_getDatabase, found]
    exact fun p => Table.id_ne_of_mem_delete hmem
      (Bool.and_eq_true_iff.mpr ⟨beq_iff_eq.mpr hscope, hname⟩)
  · rename_i group ign
    obtain ⟨g, found, heq⟩ := Option.map_eq_some_iff.mp hdrops
    cases heq
    obtain ⟨hmem, _, _⟩ := Store.group_some found
    show (JdbcCatalog.dropGroup group ign true caller).wp _ _ s
    rw [JdbcCatalog.dropGroup, Action.wp_bind, wp_getGroup, found]
    simp only [Action.wp_bind, wp_getGroupUserRelsByGroup]
    cases Store.members s g.id with
    | nil => exact fun p => Table.id_ne_of_mem_delete hmem (beq_self_eq_true _)
    | cons => exact fun p => Table.id_ne_of_mem_delete hmem (beq_self_eq_true _)
  · cases hdrops

/-- After every sequence of operations no row refers to a missing row, and a drop of an
organization, a database, a user or a group with all that depends on it leaves nothing of it. -/
theorem referential_integrity (ops : List (User × Nat × Operation))
    (hops : Covered ops Store.empty) :
    Integrity (execOperations ops Store.empty) ∧
      ∀ (caller : User) (now : Nat) (op : Operation) (k : Kind) (id : Nat),
        op.Covers caller (execOperations ops Store.empty) →
        op.drops caller (execOperations ops Store.empty) = some (k, id) →
        ∀ k', ∀ r ∈ (op.exec caller now (execOperations ops Store.empty) k').rows, ∀ scope,
          ¬ Refers k' r k id scope := by
  have hs := Sound.empty.execOperations hops
  refine ⟨hs.integrity, fun caller now op k id hc hdrops k' r hr scope href => ?_⟩
  obtain ⟨p, hp, hid, _⟩ := (hs.exec hc).has hr href
  exact Operation.dropped hdrops p hp hid

end Runs

def saOfA : User := { orgId := 1, org := "a", userId := 1, user := "sa" }

/-- An organization, a user of it and a group in it. -/
def makeGroup : List (User × Nat × Operation) :=
  [(systemRoot, 1, createA),
    (systemRoot, 1, .createUser { org := "a", name := "sa", password := "" } false),
    (saOfA, 2, .createGroup { name := "g", desc := none } false),
    (saOfA, 2, .createGroupUserRel { group := "g", users := ["sa"] })]

theorem referential_integrity_group :
    letI := exactNames
    Integrity (execOperations makeGroup Store.empty) ∧
      ∀ k', ∀ r ∈ ((Operation.dropGroup "g" false true).exec saOfA 3
        (execOperations makeGroup Store.empty) k').rows, ∀ scope, ¬ Refers k' r .groups 1 scope := by
  let _ := exactNames
  have hops : Covered makeGroup Store.empty :=
    ⟨trivial, trivial, by show ∃ o ∈ _, _; decide, trivial, trivial⟩
  have hdrops : (Operation.dropGroup "g" false true).drops saOfA
      (execOperations makeGroup Store.empty) = some (.groups, 1) := by decide
  obtain ⟨hintegrity, hdrop⟩ := referential_integrity makeGroup hops
  exact ⟨hintegrity, hdrop saOfA 3 (.dropGroup "g" false true) .groups 1 trivial hdrops⟩

/-- The cascade builds the deletion of the groups and does not run it. -/
theorem referential_integrity_fails :
    letI := exactNames
    let drop := Operation.dropOrganization "a" false true
    drop.succeeds systemRoot 3 (execOperations makeGroup Store.empty) = true ∧
      ¬ Integrity (drop.exec systemRoot 3 (execOperations makeGroup Store.empty)) := by
  let _ := exactNames
  refine ⟨by decide, fun h => ?_⟩
  have hgroups : (((Operation.dropOrganization "a" false true).exec systemRoot 3
    (execOperations makeGroup Store.empty)) .groups).rows ≠ [] := by decide
  obtain ⟨g, hg⟩ := List.exists_mem_of_ne_nil _ hgroups
  obtain ⟨o, ho, _⟩ := h .groups g hg _ _ _ (Refers.groupOrganization g)
  have hnone : (((Operation.dropOrganization "a" false true).exec systemRoot 3
    (execOperations makeGroup Store.empty)) .organizations).rows = [] := by decide
  rw [hnone] at ho
  cases ho

end Moonbox.Catalog
