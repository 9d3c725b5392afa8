import Moonbox.Catalog.Isolation
import Moonbox.Catalog.Writes
import Moonbox.Rest.Routes

/-!
# Authorization of requests

What a request of a session that is not root's may do: the organizations, the users who are SA
and the clusters stay as they are, and what belongs to another organization is not shown, not
changed, not started and not stopped. The routes ask nobody, so it is a matter of what the
request names and of what the catalog has.
-/

namespace Moonbox.Rest

open Actor Handler Deploy Catalog Relational

/-! ### What is promised -/

/-- The organizations, the users who are SA and what belongs to organizations other than `own`
are the same. -/
structure CatalogSpares (own : Nat) (s s' : Store) : Prop where
  organizations : (s' .organizations).rows = (s .organizations).rows
  sas : (s' .users).rows.filter (fun u => u.isSA) = (s .users).rows.filter (fun u => u.isSA)
  entities : ∀ B, B ≠ own → rowsOf B s' = rowsOf B s

/-- The driver id is one of an application of another organization. -/
def Foreign (own : Nat) (g : Grid) (driverId : String) : Prop :=
  ∃ app ∈ g.applications.rows, app.organizationId ≠ own ∧
    ∃ org, g.organizationName app.organizationId = some org ∧ driverId = fullName org app.name

structure Spares (own : Nat) (g g' : Grid) : Prop where
  catalog : CatalogSpares own g.catalog g'.catalog
  clusters : g'.clusters.rows = g.clusters.rows
  applications : ∀ B, B ≠ own →
    g'.applications.rows.filter (fun app => app.organizationId == B) =
      g.applications.rows.filter (fun app => app.organizationId == B)
  /-- An active master is not asked to start an application of others. -/
  started : ∀ id desc, Foreign own g id → g.master.state = .active →
    Message.requestSubmitDriver id desc ∉ g'.asked.drop g.asked.length
  /-- An active master is not asked to stop a running application of others. -/
  stopped : ∀ id, Foreign own g id → g.master.state = .active → (∃ d, Live id g.master d) →
    Message.requestKillDriver id ∉ g'.asked.drop g.asked.length

/-- The answer shows something of another organization, or another organization. -/
def Answer.Shows (own : Nat) (g : Grid) : Answer → Prop
  | .done | .message _ | .clusters _ => False
  | .applications apps => ∃ app ∈ apps, app.organizationId ≠ own
  | .applicationInfos drivers => ∃ d ∈ drivers, Foreign own g d.driverId
  | .queries qs => ∃ q ∈ qs, q.organizationId ≠ own
  | .organizations orgs => ∃ o ∈ orgs, o.id ≠ own
  | .users us => ∃ u ∈ us, u.organizationId ≠ own
  | .databasePrivileges rows =>
    ∃ r ∈ rows, r.1.organizationId ≠ own ∨ r.2.2.organizationId ≠ own
  | .tablePrivileges rows =>
    ∃ r ∈ rows, r.1.organizationId ≠ own ∨ r.2.2.2.organizationId ≠ own
  | .columnPrivileges rows =>
    ∃ r ∈ rows, r.1.organizationId ≠ own ∨ r.2.2.2.organizationId ≠ own
  | .resourceStats orgs apps => (∃ o ∈ orgs, o.id ≠ own) ∨ ∃ app ∈ apps, app.organizationId ≠ own

variable [Names]

/-- The request does what a session of the organization may do, whether it is answered or fails. -/
def Authorized (env : RestEnv) (user : User) (g : Grid) (request : Request) : Prop :=
  wp (handle env user request)
    (fun answer g' => Spares user.orgId g g' ∧ ¬ answer.Shows user.orgId g)
    (fun g' => Spares user.orgId g g') g

/-! ### What the operations of the catalog leave behind -/

section Operations

variable {s : Store} {caller : User} {now own : Nat}

omit [Names] in
lemma CatalogSpares.refl (s : Store) : CatalogSpares own s s := ⟨rfl, rfl, fun _ _ => rfl⟩

lemma exec_createOrganization (d : CatalogOrganization) :
    (Operation.createOrganization d false).exec caller now s =
      match Store.organization s d.name with
      | some _ => s
      | none => execAll [.insert .organizations (.ofDefinition d caller now),
          .insert .databases (.ofOrganization (s .organizations).nextId caller now)] s := by
  apply (Action.wp_run _ fun s' => s' = _).mp
  simp only [Operation.action, JdbcCatalog.createOrganization, Action.wp_bind,
    wp_organizationExists]
  cases Store.organization s d.name with
  | some o => rfl
  | none => rfl

lemma exec_alterOrganization (d : CatalogOrganization) :
    (Operation.alterOrganization d).exec caller now s =
      match Store.organization s d.name with
      | some o => execAll [.update .organizations (fun t => t.id == o.id) fun _ =>
          o.altered d caller now] s
      | none => s := by
  apply (Action.wp_run _ fun s' => s' = _).mp
  simp only [Operation.action, JdbcCatalog.alterOrganization, Action.wp_bind, wp_getOrganization]
  cases Store.organization s d.name with
  | some o => rfl
  | none => rfl

lemma exec_createUser (d : CatalogUser) :
    (Operation.createUser d false).exec caller now s =
      match Store.organization s d.org with
      | some o =>
        match Store.user s o.id d.name with
        | some _ => s
        | none => execAll [.insert .users (.ofDefinition d o.id caller now)] s
      | none => s := by
  apply (Action.wp_run _ fun s' => s' = _).mp
  rw [Operation.action, wp_createUser]
  cases Store.organization s d.org with
  | none => simp
  | some o => cases huser : Store.user s o.id d.name <;> simp [huser]

lemma exec_alterUser (d : CatalogUser) :
    (Operation.alterUser d).exec caller now s =
      match Store.organization s d.org with
      | some o =>
        match Store.user s o.id d.name with
        | some u => execAll [.update .users (fun t => t.id == u.id) fun _ =>
            u.altered d caller now] s
        | none => s
      | none => s := by
  apply (Action.wp_run _ fun s' => s' = _).mp
  rw [Operation.action, wp_alterUser]
  cases Store.organization s d.org with
  | none => simp
  | some o => cases huser : Store.user s o.id d.name <;> simp [huser]

lemma exec_renameUser_of_taken {org user newUser : String}
    (h : ∀ o u, Store.organization s org = some o → Store.user s o.id user = some u →
      Store.user s o.id newUser ≠ none) :
    (Operation.renameUser org user newUser).exec caller now s = s := by
  apply (Action.wp_run _ fun s' => s' = _).mp
  rw [Operation.action, wp_renameUser]
  exact ⟨fun _ => rfl, fun o ho => ⟨fun _ => rfl, fun u hu =>
    ⟨fun _ _ => rfl, fun hfree => absurd hfree (h o u ho hu)⟩⟩⟩

lemma wp_dropUser (org user : String) {Q : Unit → Store → Prop} {X : Store → Prop} :
    (JdbcCatalog.dropUser org user false).wp Q X s ↔
      match Store.organization s org with
      | some o =>
        match Store.user s o.id user with
        | some u => Q () (execAll [.delete .groupUserRels fun rel => rel.userId == u.id,
            .delete .databasePrivileges fun t => t.userId == u.id,
            .delete .tablePrivileges fun t => t.userId == u.id,
            .delete .columnPrivileges fun t => t.userId == u.id,
            .delete .users fun t => t.id == u.id] s)
        | none => X s
      | none => X s := by
  simp only [JdbcCatalog.dropUser, Action.wp_bind, wp_organizationId]
  cases Store.organization s org with
  | none => rfl
  | some o =>
    simp only [wp_getUser]
    cases Store.user s o.id user with
    | none => rfl
    | some u => exact Action.wp_transactionally _

/-- The users that are to stay: those who are SA and those of other organizations. -/
def Protected (own : Nat) (u : UserEntity) : Prop := u.isSA = true ∨ u.organizationId ≠ own

omit [Names] in
lemma not_protected {u : UserEntity} :
    ¬ Protected own u ↔ u.organizationId = own ∧ u.isSA = false := by
  simp [Protected, and_comm]

omit [Names] in
lemma CatalogSpares.mem_iff {s' : Store} (h : CatalogSpares own s s') {u : UserEntity}
    (hu : Protected own u) : u ∈ (s' .users).rows ↔ u ∈ (s .users).rows := by
  rcases hu with hu | hu
  · have hsas := congrArg (u ∈ ·) h.sas
    simpa [hu] using hsas
  · have hrows : (s' .users).rows.filter (fun t => t.organizationId == u.organizationId) =
        (s .users).rows.filter (fun t => t.organizationId == u.organizationId) :=
      congrFun (h.entities u.organizationId hu) .users
    have hmem := congrArg (u ∈ ·) hrows
    simpa using hmem

/-- An operation of the own organization that spares the two tables of names. -/
lemma CatalogSpares.of_exec {op : Operation}
    (horg : ∀ B, B ≠ own → op.organization caller s ≠ some B)
    (hren : ∀ B, B ≠ own → ¬ op.RenamesIn B s)
    (horganizations : (op.exec caller now s .organizations).rows = (s .organizations).rows)
    (hsas : (op.exec caller now s .users).rows.filter (fun u => u.isSA) =
      (s .users).rows.filter (fun u => u.isSA)) :
    CatalogSpares own s (op.exec caller now s) where
  organizations := horganizations
  sas := hsas
  entities B hB := (tenant_isolation op caller now s B (horg B hB)).mpr (hren B hB)

lemma exec_of_not_mem_writes {op : Operation} {k : Kind} (h : k ∉ op.writes) :
    op.exec caller now s k = s k := by
  obtain ⟨ws, hws, heq⟩ := op.exec_effect caller now s
  rw [heq]
  exact (Std.Refl.refl s : AgreeOutside _ s s).execAll hws.table_mem k h

/-- The operations on queries are in the caller's organization. -/
lemma spares_query {op : Operation} (horg : op.organization caller s = some caller.orgId)
    (hwrites : op.writes = [.queries]) (hren : ∀ B, ¬ op.RenamesIn B s) :
    CatalogSpares caller.orgId s (op.exec caller now s) := by
  refine .of_exec (fun B hB hc => hB ?_) (fun B _ => hren B) ?_ ?_
  · rw [horg] at hc
    exact (Option.some.inj hc).symm
  · rw [exec_of_not_mem_writes (by simp [hwrites])]
  · rw [exec_of_not_mem_writes (by simp [hwrites])]

omit [Names] in
/-- To write a row over itself changes nothing. -/
lemma exec_update_self {k : Kind} {e : Entity k} (he : e ∈ (s k).rows) :
    (Write.update k (fun t => Row.id t == Row.id e) fun _ => e).exec s = s := by
  have hself : Row.withId (Row.id e) e = e := by cases k <;> rfl
  funext k'
  by_cases hk : k' = k
  · subst hk
    rw [exec_update]
    exact Table.eq_of_rows ((Table.rows_update_eq_iff he hself).mpr rfl) rfl
  · rw [exec_update_of_ne _ _ hk]

lemma spares_createOrganization (d : CatalogOrganization) :
    CatalogSpares own s ((Operation.createOrganization d false).exec caller now s) ↔
      (Store.organization s d.name).isSome := by
  rw [exec_createOrganization]
  cases Store.organization s d.name with
  | some o => simpa using CatalogSpares.refl s
  | none =>
    simp only [Option.isSome_none, Bool.false_eq_true, iff_false]
    intro h
    have hrows := congrArg List.length h.organizations
    simp [Table.insert] at hrows

lemma spares_alterOrganization (d : CatalogOrganization) :
    CatalogSpares own s ((Operation.alterOrganization d).exec caller now s) ↔
      ∀ o, Store.organization s d.name = some o → o.altered d caller now = o := by
  rw [exec_alterOrganization]
  cases ho : Store.organization s d.name with
  | none => simpa using CatalogSpares.refl s
  | some o =>
    have hmem := (Store.organization_some ho).1
    simp only [Option.some.injEq, forall_eq']
    constructor
    · intro h
      have hrows := h.organizations
      rw [execAll_cons, execAll_nil, exec_update] at hrows
      exact (Table.rows_update_eq_iff hmem rfl).mp hrows
    · intro h
      rw [h, execAll_cons, execAll_nil]
      have hsame := exec_update_self (k := .organizations) hmem
      rw [show (Write.update .organizations (fun t : OrganizationEntity => t.id == o.id)
        fun _ => o).exec s = s from hsame]
      exact .refl s

lemma spares_createUser {d : CatalogUser} (hsa : d.isSA = false) :
    CatalogSpares own s ((Operation.createUser d false).exec caller now s) ↔
      ∀ o, Store.organization s d.org = some o →
        o.id = own ∨ (Store.user s o.id d.name).isSome := by
  cases ho : Store.organization s d.org with
  | none => simpa [exec_createUser, ho] using CatalogSpares.refl s
  | some o =>
    simp only [Option.some.injEq, forall_eq']
    cases hu : Store.user s o.id d.name with
    | some u => simpa [exec_createUser, ho, hu] using CatalogSpares.refl s
    | none =>
      have hexec : (Operation.createUser d false).exec caller now s =
          execAll [.insert .users (.ofDefinition d o.id caller now)] s := by
        simp [exec_createUser, ho, hu]
      simp only [Option.isSome_none, Bool.false_eq_true, or_false]
      constructor
      · intro h
        by_contra hown
        -- The new user is one of another organization.
        have hnew : Row.withId (s .users).nextId (UserEntity.ofDefinition d o.id caller now) ∈
            (s .users).rows := by
          refine (h.mem_iff (.inr hown)).mp ?_
          rw [hexec]
          exact Table.mem_insert.mpr (.inr rfl)
        have hfresh := (s .users).fresh _ hnew
        rw [Row.id_withId] at hfresh
        exact Nat.lt_irrefl _ hfresh
      · intro hown
        refine .of_exec (fun B hB hc => hB ?_) (fun _ _ => id) ?_ ?_
        · rw [Operation.organization, ho] at hc
          exact (Option.some.inj hc).symm.trans hown
        · rw [exec_of_not_mem_writes (by simp [Operation.writes])]
        · rw [hexec, execAll_cons, execAll_nil, exec_insert]
          exact filter_insert hsa

lemma spares_alterUser {d : CatalogUser} (hsa : d.isSA = false) :
    CatalogSpares own s ((Operation.alterUser d).exec caller now s) ↔
      ∀ o, Store.organization s d.org = some o → ∀ u, Store.user s o.id d.name = some u →
        ¬ Protected own u ∨ u.altered d caller now = u := by
  cases ho : Store.organization s d.org with
  | none => simpa [exec_alterUser, ho] using CatalogSpares.refl s
  | some o =>
    simp only [Option.some.injEq, forall_eq']
    cases hu : Store.user s o.id d.name with
    | none => simpa [exec_alterUser, ho, hu] using CatalogSpares.refl s
    | some u =>
      obtain ⟨hmem, hscope, -⟩ := Store.user_some hu
      have hexec : (Operation.alterUser d).exec caller now s =
          execAll [.update .users (fun t => t.id == u.id) fun _ => u.altered d caller now] s := by
        simp [exec_alterUser, ho, hu]
      simp only [Option.some.injEq, forall_eq']
      constructor
      · intro h
        by_contra hc
        simp only [not_or, not_not] at hc
        have hafter := (h.mem_iff hc.1).mpr hmem
        rw [hexec, execAll_cons, execAll_nil, exec_update, Table.mem_update] at hafter
        obtain ⟨r, hr, hru⟩ := hafter
        split at hru
        · rename_i hid
          rw [(s .users).eq_of_id hr hmem (beq_iff_eq.mp hid)] at hru
          exact hc.2 hru
        · rename_i hid
          rw [hru] at hid
          exact hid (beq_self_eq_true _)
      · intro h
        rcases h with hprot | hsame
        · rw [not_protected] at hprot
          refine .of_exec (fun B hB hc => hB ?_) (fun _ _ => id) ?_ ?_
          · rw [Operation.organization, ho] at hc
            exact (Option.some.inj hc).symm.trans (hscope.symm.trans hprot.1)
          · rw [exec_of_not_mem_writes (by simp [Operation.writes])]
          · rw [hexec, execAll_cons, execAll_nil, exec_update]
            refine filter_update fun r hr hid => ⟨?_, hsa⟩
            rw [(s .users).eq_of_id hr hmem (beq_iff_eq.mp hid)]
            exact hprot.2
        · rw [hexec, hsame, execAll_cons, execAll_nil]
          have hsame := exec_update_self (k := .users) hmem
          rw [show (Write.update .users (fun t : UserEntity => t.id == u.id)
            fun _ => u).exec s = s from hsame]
          exact .refl s

/-- A rename that goes through renames everybody of the name, so nobody of them may be one of the
users that are to stay. -/
lemma spares_renameUser (org user newUser : String) :
    CatalogSpares own s ((Operation.renameUser org user newUser).exec caller now s) ↔
      ∀ o, Store.organization s org = some o → ∀ u, Store.user s o.id user = some u →
        Store.user s o.id newUser = none →
        ∀ v ∈ (s .users).rows, sameName v.name user = true → ¬ Protected own v := by
  constructor
  · intro h o inOrg u found free v hv hname hprot
    have hafter := sameName_of_mem_renamed inOrg found free ((h.mem_iff hprot).mpr hv)
    rw [hafter] at hname
    cases hname
  · intro h
    by_cases hgo : ∃ o u, Store.organization s org = some o ∧ Store.user s o.id user = some u ∧
        Store.user s o.id newUser = none
    · obtain ⟨o, u, inOrg, found, free⟩ := hgo
      have hall := h o inOrg u found free
      obtain ⟨hu, hscope, hname⟩ := Store.user_some found
      have hown := (not_protected.mp (hall u hu hname)).1
      refine .of_exec (fun B hB hc => hB ?_) (fun B hB hren => hB ?_) ?_ ?_
      · rw [Operation.organization, inOrg] at hc
        exact (Option.some.inj hc).symm.trans (hscope.symm.trans hown)
      · obtain ⟨-, -, v, -, -, -, inB⟩ := hren
        obtain ⟨hv, hB', hname'⟩ := Store.user_some inB
        exact hB'.symm.trans (not_protected.mp (hall v hv hname')).1
      · rw [exec_of_not_mem_writes (by simp [Operation.writes])]
      · rw [exec_renameUser inOrg found free, execAll_cons, execAll_nil, exec_update]
        refine filter_update fun r hr hc => ?_
        have hr' := (not_protected.mp (hall r hr hc)).2
        exact ⟨hr', hr'⟩
    · rw [exec_renameUser_of_taken fun o u ho hu hfree => hgo ⟨o, u, ho, hu, hfree⟩]
      exact .refl s

/-! #### Loops of drops -/

/-- The catalog without the user and what refers to him. -/
def withoutUser (u : UserEntity) (s : Store) : Store :=
  execAll [.delete .groupUserRels fun rel => rel.userId == u.id,
    .delete .databasePrivileges fun t => t.userId == u.id,
    .delete .tablePrivileges fun t => t.userId == u.id,
    .delete .columnPrivileges fun t => t.userId == u.id,
    .delete .users fun t => t.id == u.id] s

omit [Names] in
lemma withoutUser_users (u : UserEntity) (s : Store) :
    withoutUser u s .users = (s .users).delete fun t => t.id == u.id := by
  simp [withoutUser]

/-- Every user that the loop comes to, each in the catalog that the drops before have left, is
one that need not stay. The loop ends at the first who is not there. -/
def DropsOwn (own : Nat) : Store → List OrgSa → Prop
  | _, [] => True
  | s, sa :: sas => ∀ o, Store.organization s sa.org = some o →
      ∀ u, Store.user s o.id sa.name = some u →
        ¬ Protected own u ∧ DropsOwn own (withoutUser u s) sas

omit [Names] in
lemma CatalogSpares.trans {s' s'' : Store} (h : CatalogSpares own s s')
    (h' : CatalogSpares own s' s'') : CatalogSpares own s s'' where
  organizations := h'.organizations.trans h.organizations
  sas := h'.sas.trans h.sas
  entities B hB := (h'.entities B hB).trans (h.entities B hB)

lemma spares_withoutUser {org user : String} {o : OrganizationEntity} {u : UserEntity}
    (inOrg : Store.organization s org = some o) (found : Store.user s o.id user = some u)
    (hu : ¬ Protected own u) : CatalogSpares own s (withoutUser u s) := by
  obtain ⟨hmem, hscope, -⟩ := Store.user_some found
  rw [not_protected] at hu
  have hexec : ∀ caller now, (Operation.dropUser org user false).exec caller now s =
      withoutUser u s := by
    intro caller now
    apply (Action.wp_run _ fun s' => s' = _).mp
    simp only [Operation.action, wp_dropUser, inOrg, found]
    rfl
  rw [← hexec default 0]
  refine .of_exec (fun B hB hc => hB ?_) (fun _ _ => id) ?_ ?_
  · rw [Operation.organization, inOrg] at hc
    exact (Option.some.inj hc).symm.trans (hscope.symm.trans hu.1)
  · rw [exec_of_not_mem_writes (by simp [Operation.writes])]
  · rw [hexec, withoutUser_users]
    refine filter_delete fun r hr hid => ?_
    rw [(s .users).eq_of_id hr hmem (beq_iff_eq.mp hid)]
    exact hu.2

/-- The loop only takes users out. -/
lemma wp_dropUsers_subset (sas : List OrgSa) (s : Store) :
    (Action.forEach (fun sa : OrgSa => JdbcCatalog.dropUser sa.org sa.name false) sas).wp
      (fun _ s' => (s' .users).rows ⊆ (s .users).rows)
      (fun s' => (s' .users).rows ⊆ (s .users).rows) s := by
  induction sas generalizing s with
  | nil => exact List.Subset.refl _
  | cons sa sas ih =>
    rw [Action.forEach, Action.wp_bind, wp_dropUser]
    split
    · split
      · rename_i u _
        have hsub : (withoutUser u s .users).rows ⊆ (s .users).rows := by
          rw [withoutUser_users]
          exact List.filter_subset_self _
        exact Action.wp_mono (ih (withoutUser u s)) (fun _ _ h => List.Subset.trans h hsub)
          fun _ h => List.Subset.trans h hsub
      · exact List.Subset.refl _
    · exact List.Subset.refl _

lemma spares_dropUsers {s₀ : Store} (sas : List OrgSa) (h₀ : CatalogSpares own s₀ s) :
    (Action.forEach (fun sa : OrgSa => JdbcCatalog.dropUser sa.org sa.name false) sas).wp
      (fun _ => CatalogSpares own s₀) (CatalogSpares own s₀) s ↔ DropsOwn own s sas := by
  induction sas generalizing s with
  | nil => exact iff_of_true h₀ trivial
  | cons sa sas ih =>
    rw [Action.forEach, Action.wp_bind, wp_dropUser, DropsOwn]
    cases ho : Store.organization s sa.org with
    | none => simpa using h₀
    | some o =>
      simp only [Option.some.injEq, forall_eq']
      cases hu : Store.user s o.id sa.name with
      | none => simpa using h₀
      | some u =>
        simp only [Option.some.injEq, forall_eq']
        by_cases hprot : Protected own u
        · -- He is gone for good.
          refine iff_of_false (fun h => ?_) fun h => h.1 hprot
          have hmem := (Store.user_some hu).1
          have hnot : u ∉ (withoutUser u s .users).rows := by simp [withoutUser_users]
          have hboth := Action.wp_and h (wp_dropUsers_subset sas (withoutUser u s))
          have hfalse : ∀ s', CatalogSpares own s₀ s' →
              (s' .users).rows ⊆ (withoutUser u s .users).rows → False := fun s' hs hsub =>
            hnot (hsub ((hs.mem_iff hprot).mpr ((h₀.mem_iff hprot).mp hmem)))
          have hno : Action.wp _ (fun _ _ => False) (fun _ => False) _ := Action.wp_mono hboth
            (fun _ s' h => hfalse s' h.1 h.2) fun s' h => hfalse s' h.1 h.2
          exact (Action.wp_run _ fun _ => False).mp hno
        · refine (ih (h₀.trans (spares_withoutUser ho hu hprot))).trans ?_
          simp [hprot]

/-- Nothing that the catalog sees in it keeps the organization from being dropped. -/
def IsEmpty (s : Store) (o : OrganizationEntity) : Prop :=
  Store.listDatabases s o.id = [] ∧ Store.listUsers s o.id = [] ∧
    Store.listTimedEvents s o.id = [] ∧ Store.listProcedures s o.id = [] ∧
    Store.listGroups s o.id = []

omit [Names] in
instance (s : Store) (o : OrganizationEntity) : Decidable (IsEmpty s o) := by
  unfold IsEmpty
  infer_instance

/-- The catalog after a cascading drop of the organization `o` by the name `org`. -/
def dropped (org : String) (o : OrganizationEntity) (s : Store) : Store :=
  execAll [.delete .databases fun t => t.organizationId == o.id,
    .delete .users fun t => t.organizationId == o.id,
    .delete .timedEvents fun t => t.organizationId == o.id,
    .delete .procedures fun t => t.organizationId == o.id,
    .delete .queries fun t => t.organizationId == o.id,
    .delete .organizations fun t => sameName t.name org] s

lemma dropped_organizations (org : String) (o : OrganizationEntity) (s : Store) :
    dropped org o s .organizations =
      (s .organizations).delete fun t => sameName t.name org := by
  simp [dropped]

lemma wp_dropOrganization (org : String) (ign cascade : Bool) {Q : Unit → Store → Prop}
    {X : Store → Prop} :
    (JdbcCatalog.dropOrganization org ign cascade).wp Q X s ↔
      match Store.organization s org with
      | some o =>
        if cascade then Q () (dropped org o s)
        else if IsEmpty s o then
          Q () (execAll [.delete .organizations fun t => sameName t.name org] s)
        else X s
      | none => if ign then Q () s else X s := by
  simp only [JdbcCatalog.dropOrganization, Action.wp_bind, wp_getOrganization]
  cases Store.organization s org with
  | none => cases ign <;> rfl
  | some o =>
    cases cascade with
    | true =>
      simp only [if_true]
      exact Action.wp_transactionally _
    | false =>
      show (if (Store.listDatabases s o.id).isEmpty && (Store.listUsers s o.id).isEmpty &&
          (Store.listTimedEvents s o.id).isEmpty && (Store.listProcedures s o.id).isEmpty &&
          (Store.listGroups s o.id).isEmpty then JdbcDao.deleteOrganization org
        else .throw _).wp _ _ s ↔ _
      have hempty : ((Store.listDatabases s o.id).isEmpty && (Store.listUsers s o.id).isEmpty &&
          (Store.listTimedEvents s o.id).isEmpty && (Store.listProcedures s o.id).isEmpty &&
          (Store.listGroups s o.id).isEmpty) = true ↔ IsEmpty s o := by
        simp [IsEmpty, and_assoc]
      rw [Action.wp_ite]
      by_cases h : IsEmpty s o
      · rw [if_pos (hempty.mpr h)]
        simp only [Bool.false_eq_true, if_false, if_pos h]
        rfl
      · rw [if_neg (mt hempty.mp h)]
        simp only [Bool.false_eq_true, if_false, if_neg h]
        rfl

/-- The loop only takes organizations out. -/
lemma wp_dropOrganizations_subset (cascade : Bool) (names : List String) (s : Store) :
    (Action.forEach (fun org => JdbcCatalog.dropOrganization org true cascade) names).wp
      (fun _ s' => (s' .organizations).rows ⊆ (s .organizations).rows)
      (fun s' => (s' .organizations).rows ⊆ (s .organizations).rows) s := by
  induction names generalizing s with
  | nil => exact List.Subset.refl _
  | cons org names ih =>
    have hnext : ∀ s', s' .organizations =
        (s .organizations).delete (fun t => sameName t.name org) →
        (Action.forEach (fun org => JdbcCatalog.dropOrganization org true cascade) names).wp
          (fun _ s' => (s' .organizations).rows ⊆ (s .organizations).rows)
          (fun s' => (s' .organizations).rows ⊆ (s .organizations).rows) s' := by
      intro s' hs'
      have hsub : (s' .organizations).rows ⊆ (s .organizations).rows := by
        rw [hs']
        exact List.filter_subset_self _
      exact Action.wp_mono (ih s') (fun _ _ h => List.Subset.trans h hsub)
        fun _ h => List.Subset.trans h hsub
    rw [Action.forEach, Action.wp_bind, wp_dropOrganization]
    split
    · rename_i o _
      split
      · exact hnext _ (dropped_organizations org o s)
      · split
        · exact hnext _ (by rw [execAll_cons, execAll_nil, exec_delete])
        · exact List.Subset.refl _
    · exact ih s

/-- Once the organization is out, the rest of the loop cannot make up for it. -/
lemma not_spares_of_dropped {s' : Store} {cascade : Bool} {names : List String} {org : String}
    {o : OrganizationEntity} (ho : Store.organization s org = some o)
    (hs' : s' .organizations = (s .organizations).delete fun t => sameName t.name org) :
    ¬ (Action.forEach (fun org => JdbcCatalog.dropOrganization org true cascade) names).wp
      (fun _ => CatalogSpares own s) (CatalogSpares own s) s' := by
  intro h
  obtain ⟨hmem, hname⟩ := Store.organization_some ho
  have hnot : o ∉ (s' .organizations).rows := by simp [hs', hname]
  have hfalse : ∀ s'', CatalogSpares own s s'' →
      (s'' .organizations).rows ⊆ (s' .organizations).rows → False := fun s'' hs hsub =>
    hnot (hsub (hs.organizations ▸ hmem))
  have hno : Action.wp _ (fun _ _ => False) (fun _ => False) s' := Action.wp_mono
    (Action.wp_and h (wp_dropOrganizations_subset cascade names s'))
    (fun _ s'' h => hfalse s'' h.1 h.2) fun s'' h => hfalse s'' h.1 h.2
  exact (Action.wp_run _ fun _ => False).mp hno

/-- The first of the names that is one of an organization ends the loop: without `cascade` and
with something in the organization. -/
def KeepsOrganizations (s : Store) (cascade : Bool) (names : List String) : Prop :=
  ∀ org, (names.find? fun n => (Store.organization s n).isSome) = some org →
    cascade = false ∧ ∀ o, Store.organization s org = some o → ¬ IsEmpty s o

lemma spares_dropOrganizations (cascade : Bool) (names : List String) :
    (Action.forEach (fun org => JdbcCatalog.dropOrganization org true cascade) names).wp
      (fun _ => CatalogSpares own s) (CatalogSpares own s) s ↔
        KeepsOrganizations s cascade names := by
  induction names with
  | nil => exact iff_of_true (.refl s) fun _ h => by cases h
  | cons org names ih =>
    rw [Action.forEach, Action.wp_bind, wp_dropOrganization, KeepsOrganizations, List.find?_cons]
    cases ho : Store.organization s org with
    | none =>
      simp only [if_true, Option.isSome_none]
      exact ih
    | some o =>
      simp only [Option.isSome_some, Option.some.injEq, forall_eq', ho]
      cases cascade with
      | true =>
        simp only [if_true, Bool.true_eq_false, false_and, iff_false]
        exact not_spares_of_dropped ho (dropped_organizations org o s)
      | false =>
        simp only [Bool.false_eq_true, if_false, true_and]
        by_cases hempty : IsEmpty s o
        · simp only [hempty, if_true, not_true_eq_false, iff_false]
          exact not_spares_of_dropped ho (by rw [execAll_cons, execAll_nil, exec_delete])
        · simp only [hempty, if_false, not_false_eq_true, iff_true]
          exact .refl s

lemma spares_dropOrganization (org : String) :
    (JdbcCatalog.dropOrganization org false true).wp (fun _ => CatalogSpares own s)
      (CatalogSpares own s) s ↔ Store.organization s org = none := by
  rw [wp_dropOrganization]
  cases ho : Store.organization s org with
  | none => simpa using CatalogSpares.refl s
  | some o =>
    simp only [if_true, reduceCtorEq, iff_false]
    have hno : ¬ (Action.forEach (fun org => JdbcCatalog.dropOrganization org true true) []).wp
        (fun _ => CatalogSpares own s) (CatalogSpares own s) (dropped org o s) :=
      not_spares_of_dropped ho (dropped_organizations org o s)
    exact hno

end Operations

end Moonbox.Rest
