import Moonbox.Catalog.Effects
import Moonbox.Lib.Frames

/-!
# Tenant isolation

The rows of an organization and what operations issued with another organization do to them.
A row that links two entities belongs to an organization when both do.
-/

namespace Moonbox.Catalog

open Relational

/-! ### The rows of an organization -/

def hasUser (B : Nat) (s : Store) (id : Nat) : Bool :=
  (s .users).rows.any fun u => u.organizationId == B && u.id == id

def hasGroup (B : Nat) (s : Store) (id : Nat) : Bool :=
  (s .groups).rows.any fun g => g.organizationId == B && g.id == id

def hasDatabase (B : Nat) (s : Store) (id : Nat) : Bool :=
  (s .databases).rows.any fun d => d.organizationId == B && d.id == id

def hasFunction (B : Nat) (s : Store) (id : Nat) : Bool :=
  (s .functions).rows.any fun f => hasDatabase B s f.databaseId && f.id == id

def owned (B : Nat) (s : Store) : (k : Kind) → Entity k → Bool
  | .organizations, _ => false
  | .users, (u : UserEntity) => u.organizationId == B
  | .groups, (g : GroupEntity) => g.organizationId == B
  | .groupUserRels, (r : GroupUserRelEntity) => hasGroup B s r.groupId && hasUser B s r.userId
  | .databases, (d : DatabaseEntity) => d.organizationId == B
  | .tables, (t : TableEntity) => hasDatabase B s t.databaseId
  | .functions, (f : FunctionEntity) => hasDatabase B s f.databaseId
  | .functionResources, (r : FunctionResourceEntity) => hasFunction B s r.funcId
  | .procedures, (p : ProcedureEntity) => p.organizationId == B
  | .timedEvents, (e : TimedEventEntity) => e.organizationId == B
  | .queries, (q : QueryEntity) => q.organizationId == B
  | .databasePrivileges, (p : DatabasePrivilegeEntity) =>
    hasUser B s p.userId && hasDatabase B s p.databaseId
  | .tablePrivileges, (p : TablePrivilegeEntity) =>
    hasUser B s p.userId && hasDatabase B s p.databaseId
  | .columnPrivileges, (p : ColumnPrivilegeEntity) =>
    hasUser B s p.userId && hasDatabase B s p.databaseId

/-- Everything that belongs to the organization `B`, kind by kind. -/
def rowsOf (B : Nat) (s : Store) : (k : Kind) → List (Entity k) := part (owned B s) s

variable {s s' : Store} {A B : Nat}

lemma any_and_eq_any_filter {ε : Type} (p q : ε → Bool) (l : List ε) :
    (l.any fun r => p r && q r) = (l.filter p).any q := by
  rw [List.any_filter]

/-- Ownership is decided by the rows that are owned. -/
lemma owned_congr (h : part (owned B s) s' = part (owned B s) s) : owned B s' = owned B s := by
  have husers : (s' .users).rows.filter (fun u => u.organizationId == B) =
      (s .users).rows.filter (fun u => u.organizationId == B) := congrFun h .users
  have hgroups : (s' .groups).rows.filter (fun g => g.organizationId == B) =
      (s .groups).rows.filter (fun g => g.organizationId == B) := congrFun h .groups
  have hdatabases : (s' .databases).rows.filter (fun d => d.organizationId == B) =
      (s .databases).rows.filter (fun d => d.organizationId == B) := congrFun h .databases
  have hfunctions : (s' .functions).rows.filter (fun f => hasDatabase B s f.databaseId) =
      (s .functions).rows.filter (fun f => hasDatabase B s f.databaseId) := congrFun h .functions
  have hu : hasUser B s' = hasUser B s := by
    funext id
    simp only [hasUser, any_and_eq_any_filter, husers]
  have hg : hasGroup B s' = hasGroup B s := by
    funext id
    simp only [hasGroup, any_and_eq_any_filter, hgroups]
  have hd : hasDatabase B s' = hasDatabase B s := by
    funext id
    simp only [hasDatabase, any_and_eq_any_filter, hdatabases]
  have hf : hasFunction B s' = hasFunction B s := by
    funext id
    simp only [hasFunction, any_and_eq_any_filter, hd, hfunctions]
  funext k r
  cases k <;> simp only [owned, hu, hg, hd, hf]

lemma rowsOf_congr (h : part (owned B s) s' = part (owned B s) s) : rowsOf B s' = rowsOf B s := by
  rw [rowsOf, owned_congr h, h]
  rfl

/-! ### Entities of another organization -/

lemma hasUser_of_mem {u : UserEntity} (hu : u ∈ (s .users).rows) (h : u.organizationId ≠ B) :
    hasUser B s u.id = false := by
  simp only [hasUser, List.any_eq_false, Bool.and_eq_true, beq_iff_eq]
  rintro v hv ⟨hB, hid⟩
  rw [(s .users).eq_of_id hv hu hid] at hB
  exact h hB

lemma hasGroup_of_mem {g : GroupEntity} (hg : g ∈ (s .groups).rows) (h : g.organizationId ≠ B) :
    hasGroup B s g.id = false := by
  simp only [hasGroup, List.any_eq_false, Bool.and_eq_true, beq_iff_eq]
  rintro v hv ⟨hB, hid⟩
  rw [(s .groups).eq_of_id hv hg hid] at hB
  exact h hB

lemma hasDatabase_of_mem {d : DatabaseEntity} (hd : d ∈ (s .databases).rows)
    (h : d.organizationId ≠ B) : hasDatabase B s d.id = false := by
  simp only [hasDatabase, List.any_eq_false, Bool.and_eq_true, beq_iff_eq]
  rintro v hv ⟨hB, hid⟩
  rw [(s .databases).eq_of_id hv hd hid] at hB
  exact h hB

lemma hasFunction_of_mem {f : FunctionEntity} (hf : f ∈ (s .functions).rows)
    (h : hasDatabase B s f.databaseId = false) : hasFunction B s f.id = false := by
  simp only [hasFunction, List.any_eq_false, Bool.and_eq_true, beq_iff_eq]
  rintro v hv ⟨hB, hid⟩
  rw [(s .functions).eq_of_id hv hf hid, h] at hB
  cases hB

lemma hasFunction_nextId : hasFunction B s (s .functions).nextId = false := by
  simp only [hasFunction, List.any_eq_false, Bool.and_eq_true, beq_iff_eq]
  rintro f hf ⟨_, hid⟩
  have := (s .functions).fresh f hf
  exact absurd hid (Nat.ne_of_lt this)

/-! ### Operations of other organizations -/

section Operations

variable [Names] {caller : User} {now : Nat} {op : Operation} {ws : List (Write Entity)}

/-- The organization with which an operation is issued: the one it names, the one it makes, or
else the one of its user. -/
def Operation.organization (caller : User) (s : Store) : Operation → Option Nat
  | .createOrganization _ _ => some (s .organizations).nextId
  | .dropOrganization org _ _ => (Store.organization s org).map OrganizationEntity.id
  | .renameOrganization org _ => (Store.organization s org).map OrganizationEntity.id
  | .alterOrganization d => (Store.organization s d.name).map OrganizationEntity.id
  | .createUser d _ => (Store.organization s d.org).map OrganizationEntity.id
  | .dropUser org _ _ => (Store.organization s org).map OrganizationEntity.id
  | .renameUser org _ _ => (Store.organization s org).map OrganizationEntity.id
  | .alterUser d => (Store.organization s d.org).map OrganizationEntity.id
  | _ => some caller.orgId

/-- The operation renames a user and `B` has a user of the same name. -/
def Operation.RenamesIn (B : Nat) (s : Store) : Operation → Prop
  | .renameUser org user newUser => ∃ o u v, Store.organization s org = some o ∧
      Store.user s o.id user = some u ∧ Store.user s o.id newUser = none ∧
      Store.user s B user = some v
  | _ => False

omit [Names] in
lemma ne_of_beq {x a : Nat} (h : (x == a) = true) (ha : a ≠ B) : (x == B) = false := by
  rw [beq_iff_eq.mp h]
  exact beq_false_of_ne ha

omit [Names] in
lemma ne_of_beq_and {x a : Nat} {c : Bool} (h : (x == a && c) = true) (ha : a ≠ B) :
    (x == B) = false :=
  ne_of_beq (Bool.and_eq_true _ _ ▸ h).1 ha

omit [Names] in
lemma not_of_beq {p : Nat → Bool} {x a : Nat} (h : (x == a) = true) (ha : p a = false) :
    p x = false := by
  rw [beq_iff_eq.mp h]
  exact ha

lemma organization_ne {org : String} {o : OrganizationEntity}
    (h : Store.organization s org = some o)
    (hB : (Store.organization s org).map OrganizationEntity.id ≠ some B) : o.id ≠ B := by
  rw [h] at hB
  exact fun he => hB (congrArg some he)

lemma user_not_owned {name : String} {u : UserEntity} (h : Store.user s A name = some u)
    (hA : A ≠ B) : hasUser B s u.id = false :=
  have ⟨hu, hscope, _⟩ := Store.user_some h
  hasUser_of_mem hu (hscope ▸ hA)

lemma group_not_owned {name : String} {g : GroupEntity} (h : Store.group s A name = some g)
    (hA : A ≠ B) : hasGroup B s g.id = false :=
  have ⟨hg, hscope, _⟩ := Store.group_some h
  hasGroup_of_mem hg (hscope ▸ hA)

lemma database_not_owned {name : String} {d : DatabaseEntity}
    (h : Store.database s A name = some d) (hA : A ≠ B) : hasDatabase B s d.id = false :=
  have ⟨hd, hscope, _⟩ := Store.database_some h
  hasDatabase_of_mem hd (hscope ▸ hA)

lemma function_not_owned {dbId : Nat} {name : String} {f : FunctionEntity}
    (h : Store.function s dbId name = some f) (hdb : hasDatabase B s dbId = false) :
    hasFunction B s f.id = false :=
  have ⟨hf, hscope, _⟩ := Store.function_some h
  hasFunction_of_mem hf (hscope ▸ hdb)

omit [Names] in
/-- Removing a row of another organization by its key. -/
lemma spares_delete_id {k : Kind} {e : Entity k} (he : e ∈ (s k).rows)
    (hown : owned B s k e = false) :
    (Write.delete k fun t => Row.id t == Row.id e).Spares (owned B s) s := by
  intro r hr hid
  rw [(s k).eq_of_id hr he (beq_iff_eq.mp hid)]
  exact hown

omit [Names] in
/-- Overwriting a row of another organization by its key. -/
lemma spares_update_id {k : Kind} {e e' : Entity k} (he : e ∈ (s k).rows)
    (hown : owned B s k e = false) (hown' : owned B s k (Row.withId (Row.id e) e') = false) :
    (Write.update k (fun t => Row.id t == Row.id e) fun _ => e').Spares (owned B s) s := by
  intro r hr hid
  rw [(s k).eq_of_id hr he (beq_iff_eq.mp hid)]
  exact ⟨hown, hown'⟩

/-- The step lemma: an operation of another organization spares the rows of `B`, unless it
renames a user of the same name. -/
lemma Effect.spares (h : Effect caller now s op ws) (hB : op.organization caller s ≠ some B)
    (hren : ¬ op.RenamesIn B s) : SparesAll (owned B s) s ws := by
  have own : some caller.orgId ≠ some B → caller.orgId ≠ B := fun h he => h (congrArg some he)
  cases h with
  | idle => trivial
  | createQuery free => exact ⟨beq_false_of_ne (own hB), trivial⟩
  | dropQuery found =>
    have ⟨he, hscope, _⟩ := Store.query_some found
    exact ⟨spares_delete_id he (beq_false_of_ne (hscope ▸ own hB)), trivial⟩
  | alterQuery found =>
    have ⟨he, hscope, _⟩ := Store.query_some found
    exact ⟨spares_update_id he (beq_false_of_ne (hscope ▸ own hB)) (beq_false_of_ne (own hB)),
      trivial⟩
  | createOrganization free => exact ⟨rfl, beq_false_of_ne fun he => hB (congrArg some he), trivial⟩
  | dropOrganizationCascade found =>
    have hA := organization_ne found hB
    exact ⟨fun r _ hc => ne_of_beq hc hA, fun r _ hc => ne_of_beq hc hA,
      fun r _ hc => ne_of_beq hc hA, fun r _ hc => ne_of_beq hc hA,
      fun r _ hc => ne_of_beq hc hA, fun _ _ _ => rfl, trivial⟩
  | dropOrganization => exact ⟨fun _ _ _ => rfl, trivial⟩
  | renameOrganization => exact ⟨fun _ _ _ => ⟨rfl, rfl⟩, trivial⟩
  | alterOrganization => exact ⟨fun _ _ _ => ⟨rfl, rfl⟩, trivial⟩
  | createUser inOrg free => exact ⟨beq_false_of_ne (organization_ne inOrg hB), trivial⟩
  | dropUser inOrg found =>
    have hu := user_not_owned found (organization_ne inOrg hB)
    have ⟨hmem, hscope, _⟩ := Store.user_some found
    refine ⟨fun r _ hc => ?_, fun r _ hc => ?_, fun r _ hc => ?_, fun r _ hc => ?_,
      fun r hr hc => ?_, trivial⟩
    · exact Bool.and_eq_false_iff.mpr (.inr (not_of_beq hc hu))
    · exact Bool.and_eq_false_iff.mpr (.inl (not_of_beq hc hu))
    · exact Bool.and_eq_false_iff.mpr (.inl (not_of_beq hc hu))
    · exact Bool.and_eq_false_iff.mpr (.inl (not_of_beq hc hu))
    · have hA := organization_ne inOrg hB
      exact spares_delete_id hmem (beq_false_of_ne (hscope ▸ hA)) r hr hc
  | @renameUser org user newUser o u inOrg found free =>
    refine ⟨fun r hr hc => ?_, trivial⟩
    have hr : (r.organizationId == B) = false := by
      cases h : Store.user s B user with
      | some v => exact absurd ⟨o, u, v, inOrg, found, free, h⟩ hren
      | none =>
        apply beq_false_of_ne
        intro hscope
        have hc' : sameName r.name user = true := hc
        rw [Store.user_none h hr hscope] at hc'
        cases hc'
    exact ⟨hr, hr⟩
  | alterUser inOrg found =>
    have ⟨hmem, hscope, _⟩ := Store.user_some found
    have hown := beq_false_of_ne (hscope ▸ organization_ne inOrg hB)
    exact ⟨spares_update_id hmem hown hown, trivial⟩
  | createProcedure free => exact ⟨beq_false_of_ne (own hB), trivial⟩
  | dropProcedure found =>
    have ⟨he, hscope, _⟩ := Store.procedure_some found
    exact ⟨spares_delete_id he (beq_false_of_ne (hscope ▸ own hB)), trivial⟩
  | renameProcedure =>
    exact ⟨fun r _ hc => ⟨ne_of_beq_and hc (own hB), ne_of_beq_and hc (own hB)⟩, trivial⟩
  | alterProcedure found =>
    have ⟨he, hscope, _⟩ := Store.procedure_some found
    exact ⟨spares_update_id he (beq_false_of_ne (hscope ▸ own hB)) (beq_false_of_ne (own hB)),
      trivial⟩
  | createTimedEvent => exact ⟨beq_false_of_ne (own hB), trivial⟩
  | renameTimedEvent =>
    exact ⟨fun r _ hc => ⟨ne_of_beq_and hc (own hB), ne_of_beq_and hc (own hB)⟩, trivial⟩
  | alterTimedEvent found =>
    have ⟨he, hscope, _⟩ := Store.timedEvent_some found
    exact ⟨spares_update_id he (beq_false_of_ne (hscope ▸ own hB)) (beq_false_of_ne (own hB)),
      trivial⟩
  | dropTimedEvent => exact ⟨fun r _ hc => ne_of_beq_and hc (own hB), trivial⟩
  | createDatabase => exact ⟨beq_false_of_ne (own hB), trivial⟩
  | dropDatabaseCascade found =>
    have hdb := database_not_owned found (own hB)
    exact ⟨fun r _ hc => not_of_beq hc hdb, fun r _ hc => not_of_beq hc hdb,
      fun r _ hc => ne_of_beq_and hc (own hB), trivial⟩
  | dropDatabase => exact ⟨fun r _ hc => ne_of_beq_and hc (own hB), trivial⟩
  | renameDatabase =>
    exact ⟨fun r _ hc => ⟨ne_of_beq_and hc (own hB), ne_of_beq_and hc (own hB)⟩, trivial⟩
  | alterDatabase found =>
    have ⟨he, hscope, _⟩ := Store.database_some found
    exact ⟨spares_update_id he (beq_false_of_ne (hscope ▸ own hB)) (beq_false_of_ne (own hB)),
      trivial⟩
  | createTable _ inDatabase => exact ⟨database_not_owned inDatabase (own hB), trivial⟩
  | dropTable inDatabase found =>
    have ⟨_, hscope, _⟩ := Store.table_some found
    have hdb := database_not_owned inDatabase (own hB)
    rw [← hscope] at hdb
    refine ⟨fun r _ hc => ?_, fun r _ hc => ?_, fun r _ hc => ?_, trivial⟩
    · exact Bool.and_eq_false_iff.mpr (.inr (not_of_beq (Bool.and_eq_true _ _ ▸ hc).1 hdb))
    · exact Bool.and_eq_false_iff.mpr (.inr (not_of_beq (Bool.and_eq_true _ _ ▸ hc).1 hdb))
    · exact not_of_beq (Bool.and_eq_true _ _ ▸ hc).1 hdb
  | renameTable inDatabase =>
    have hdb := database_not_owned inDatabase (own hB)
    exact ⟨fun r _ hc => ⟨not_of_beq (Bool.and_eq_true _ _ ▸ hc).1 hdb,
      not_of_beq (Bool.and_eq_true _ _ ▸ hc).1 hdb⟩, trivial⟩
  | @alterTable d db dbEntity t _ inDatabase found =>
    have ⟨he, hscope, _⟩ := Store.table_some found
    have hdb := database_not_owned inDatabase (own hB)
    have hown : hasDatabase B s t.databaseId = false := hscope ▸ hdb
    exact ⟨spares_update_id he hown hdb, trivial⟩
  | createFunction _ inDatabase =>
    refine ⟨database_not_owned inDatabase (own hB), sparesAll_inserts ?_⟩
    intro e he n
    obtain ⟨r, _, rfl⟩ := List.mem_map.mp he
    exact hasFunction_nextId
  | dropFunction inDatabase found =>
    have hdb := database_not_owned inDatabase (own hB)
    have hf := function_not_owned found hdb
    exact ⟨fun r _ hc => not_of_beq hc hf,
      fun r _ hc => not_of_beq (Bool.and_eq_true _ _ ▸ hc).1 hdb, trivial⟩
  | renameFunction inDatabase =>
    have hdb := database_not_owned inDatabase (own hB)
    exact ⟨fun r _ hc => ⟨not_of_beq (Bool.and_eq_true _ _ ▸ hc).1 hdb,
      not_of_beq (Bool.and_eq_true _ _ ▸ hc).1 hdb⟩, trivial⟩
  | createDatabasePrivilege grantee =>
    apply sparesAll_inserts
    intro e he n
    obtain ⟨r, _, rfl⟩ := List.mem_map.mp he
    exact Bool.and_eq_false_iff.mpr (.inl (user_not_owned grantee (own hB)))
  | dropDatabasePrivilege grantee =>
    have hu := user_not_owned grantee (own hB)
    refine ⟨fun r _ hc => ?_, trivial⟩
    simp only [Bool.and_eq_true] at hc
    exact Bool.and_eq_false_iff.mpr (.inl (not_of_beq hc.1.1 hu))
  | createTablePrivilege grantee =>
    apply sparesAll_inserts
    intro e he n
    obtain ⟨r, _, rfl⟩ := List.mem_map.mp he
    exact Bool.and_eq_false_iff.mpr (.inl (user_not_owned grantee (own hB)))
  | dropTablePrivilege grantee =>
    have hu := user_not_owned grantee (own hB)
    refine ⟨fun r _ hc => ?_, trivial⟩
    simp only [Bool.and_eq_true] at hc
    exact Bool.and_eq_false_iff.mpr (.inl (not_of_beq hc.1.1.1 hu))
  | createColumnPrivilege grantee =>
    apply sparesAll_inserts
    intro e he n
    obtain ⟨r, _, rfl⟩ := List.mem_map.mp he
    exact Bool.and_eq_false_iff.mpr (.inl (user_not_owned grantee (own hB)))
  | dropColumnPrivilege grantee =>
    have hu := user_not_owned grantee (own hB)
    apply sparesAll_deletes
    intro a _ r hc
    simp only [Bool.and_eq_true] at hc
    exact Bool.and_eq_false_iff.mpr (.inl (not_of_beq hc.1.1.1.1 hu))
  | createGroup => exact ⟨beq_false_of_ne (own hB), trivial⟩
  | renameGroup =>
    exact ⟨fun r _ hc => ⟨ne_of_beq_and hc (own hB), ne_of_beq_and hc (own hB)⟩, trivial⟩
  | alterGroup found =>
    have ⟨he, hscope, _⟩ := Store.group_some found
    have hown := beq_false_of_ne (hscope ▸ own hB)
    exact ⟨spares_update_id he hown hown, trivial⟩
  | dropGroupCascade found =>
    have ⟨he, hscope, _⟩ := Store.group_some found
    have hg := group_not_owned found (own hB)
    refine ⟨fun r _ hc => ?_, fun r hr hc => ?_, trivial⟩
    · exact Bool.and_eq_false_iff.mpr (.inl (not_of_beq hc hg))
    · exact spares_delete_id he (beq_false_of_ne (hscope ▸ own hB)) r hr hc
  | dropGroup found =>
    have ⟨he, hscope, _⟩ := Store.group_some found
    exact ⟨spares_delete_id he (beq_false_of_ne (hscope ▸ own hB)), trivial⟩
  | createGroupUserRel found =>
    apply sparesAll_inserts
    intro e he n
    obtain ⟨r, _, rfl⟩ := List.mem_map.mp he
    exact Bool.and_eq_false_iff.mpr (.inl (group_not_owned found (own hB)))
  | dropGroupUserRel found =>
    have hg := group_not_owned found (own hB)
    refine ⟨fun r _ hc => ?_, trivial⟩
    exact Bool.and_eq_false_iff.mpr (.inl (not_of_beq (Bool.and_eq_true _ _ ▸ hc).1 hg))

/-- A rename that goes through leaves no user of the old name, in any organization. -/
lemma exec_renameUser {org user newUser : String} {o : OrganizationEntity} {u : UserEntity}
    (inOrg : Store.organization s org = some o) (found : Store.user s o.id user = some u)
    (free : Store.user s o.id newUser = none) :
    (Operation.renameUser org user newUser).exec caller now s =
      execAll [.update .users (fun t => sameName t.name user) fun t =>
        { t with name := newUser, updateBy := caller.userId, updateTime := now }] s := by
  apply (Action.wp_run _ fun s' => s' = _).mp
  simp [Operation.action, wp_renameUser, inOrg, found, free]

lemma not_sameName_of_free {user newUser : String} {A : Nat} {u : UserEntity}
    (found : Store.user s A user = some u) (free : Store.user s A newUser = none) :
    sameName newUser user = false := by
  have ⟨hu, hscope, hname⟩ := Store.user_some found
  have hfree := Store.user_none free hu hscope
  rw [Bool.eq_false_iff] at hfree ⊢
  intro h
  apply hfree
  rw [sameName_iff] at hname h ⊢
  exact hname.trans h.symm

/-- Nobody has the old name after a rename that goes through. -/
lemma sameName_of_mem_renamed {org user newUser : String} {o : OrganizationEntity}
    {u v : UserEntity} (inOrg : Store.organization s org = some o)
    (found : Store.user s o.id user = some u) (free : Store.user s o.id newUser = none)
    (hv : v ∈ ((Operation.renameUser org user newUser).exec caller now s .users).rows) :
    sameName v.name user = false := by
  rw [exec_renameUser inOrg found free, execAll_cons, execAll_nil, exec_update,
    Table.mem_update] at hv
  obtain ⟨r, _, hr⟩ := hv
  split at hr
  · have hnew : v.name = newUser := by rw [← hr]; rfl
    rw [hnew]
    exact not_sameName_of_free found free
  · rename_i hc
    rw [hr] at hc
    simpa using hc

lemma rowsOf_renameUser_ne (hren : op.RenamesIn B s) :
    rowsOf B (op.exec caller now s) ≠ rowsOf B s := by
  cases op <;> simp only [Operation.RenamesIn] at hren
  case renameUser org user newUser =>
    obtain ⟨o, u, v, inOrg, found, free, inB⟩ := hren
    obtain ⟨hv, hscope, hname⟩ := Store.user_some inB
    intro heq
    -- The user of `B` is among the rows of `B` before, and after the update nobody has the name.
    have hbefore : v ∈ rowsOf B s .users := List.mem_filter.mpr ⟨hv, beq_iff_eq.mpr hscope⟩
    rw [← heq] at hbefore
    have hafter := sameName_of_mem_renamed inOrg found free (List.mem_filter.mp hbefore).1
    rw [hafter] at hname
    cases hname

/-- The rows of an organization `B` are the same before and after an operation issued with
another one, exactly if the operation does not rename a user of a name that `B` has too. -/
theorem tenant_isolation (op : Operation) (caller : User) (now : Nat) (s : Store) (B : Nat)
    (hB : op.organization caller s ≠ some B) :
    rowsOf B (op.exec caller now s) = rowsOf B s ↔ ¬ op.RenamesIn B s := by
  constructor
  · intro h hren
    exact rowsOf_renameUser_ne hren h
  · intro hren
    obtain ⟨ws, heffect, hexec⟩ := op.exec_effect caller now s
    rw [hexec]
    exact rowsOf_congr (part_execAll (heffect.spares hB hren))

end Operations

/-- Two organizations, each with a user bob. -/
def twoTenants : Store :=
  letI := exactNames
  let root : User := { orgId := 1, org := "SYSTEM", userId := 1, user := "ROOT" }
  execOperations
    [(root, 1, .createOrganization { name := "a", config := [] } false),
      (root, 1, .createOrganization { name := "b", config := [] } false),
      (root, 1, .createUser { org := "a", name := "bob", password := "" } false),
      (root, 1, .createUser { org := "b", name := "bob", password := "" } false)] Store.empty

theorem tenant_isolation_two_tenants :
    letI := exactNames
    let sa : User := { orgId := 1, org := "a", userId := 1, user := "bob" }
    (rowsOf 2 ((Operation.dropUser "a" "bob" false).exec sa 2 twoTenants) = rowsOf 2 twoTenants ↔
      ¬ (Operation.dropUser "a" "bob" false).RenamesIn 2 twoTenants) := by
  let _ := exactNames
  exact tenant_isolation (.dropUser "a" "bob" false) _ 2 twoTenants 2 (by decide)

theorem tenant_isolation_fails :
    letI := exactNames
    let sa : User := { orgId := 1, org := "a", userId := 1, user := "bob" }
    (Operation.renameUser "a" "bob" "eve").organization sa twoTenants ≠ some 2 ∧
      rowsOf 2 ((Operation.renameUser "a" "bob" "eve").exec sa 2 twoTenants) ≠
        rowsOf 2 twoTenants := by
  refine ⟨by decide, fun h => ?_⟩
  have husers := congrFun h .users
  revert husers
  decide

end Moonbox.Catalog
