import Moonbox.Lib.Runs
import Moonbox.Rest.Permissions

/-!
# Management of SA users

What the calls of `OrganizationSaService` should do to the users of a catalog, call after call, and
when they do it.
-/

namespace Moonbox.Rest

open Actor Handler Deploy Catalog Relational

variable [Names]

/-! ### What the calls should do -/

inductive SaCall where
  | createSa (sa : OrgSa)
  | updateName (orgSa : OrgSaRename)
  | updatePassword (sa : OrgSa)
  | deleteSas (sas : List OrgSa)
  | listSas
  | getSa (org sa : String)

/-- A call by a user. -/
structure SaStep where
  env : RestEnv
  user : User
  call : SaCall

namespace SaStep

open OrganizationSaService

def answer (step : SaStep) : Service Answer :=
  match step.call with
  | .createSa sa => createSa step.env sa step.user
  | .updateName orgSa => updateName step.env orgSa step.user
  | .updatePassword sa => updatePassword step.env sa step.user
  | .deleteSas sas => deleteSas sas
  | .listSas => listSas
  | .getSa org sa => getSa org sa

/-- One new row, of an SA user of the organization. -/
def AddsSa (sa : OrgSa) (s s' : Store) : Prop :=
  (∃ o u, Store.organization s sa.org = some o ∧ (s' .users).rows = (s .users).rows ++ [u] ∧
    u.organizationId = o.id ∧ u.name = sa.name ∧ u.isSA = true) ∧ ∀ k, k ≠ .users → s' k = s k

/-- The row of the organization's user is changed and nothing else. -/
def ChangesUser (org name : String) (change : UserEntity → UserEntity) (s s' : Store) : Prop :=
  (∃ o u, Store.organization s org = some o ∧ Store.user s o.id name = some u ∧
    (s' .users).rows = (s .users).rows.map fun v => if v.id = u.id then change v else v) ∧
    ∀ k, k ≠ .users → s' k = s k

/-- Users may only have gone, and only those that are named. -/
def RemovesNamed (sas : List OrgSa) (s s' : Store) : Prop :=
  (s' .users).rows ⊆ (s .users).rows ∧ ∀ v ∈ (s .users).rows, v ∈ (s' .users).rows ∨
    ∃ sa ∈ sas, ∃ o, Store.organization s sa.org = some o ∧ v.organizationId = o.id ∧
      sameName v.name sa.name = true

/-- What a call names is changed when it succeeds, and nothing when it fails, up to the users that
were removed before. Who changed a row last, and when, is kept in the row. -/
def DoesAsNamed (step : SaStep) (g : Grid) : Prop :=
  wp step.answer
    (fun _ g' =>
      match step.call with
      | .createSa sa => AddsSa sa g.catalog g'.catalog
      | .updateName orgSa => ChangesUser orgSa.org orgSa.user
          (fun v => { v with
            name := orgSa.newUser, updateBy := step.user.userId, updateTime := step.env.now })
          g.catalog g'.catalog
      | .updatePassword sa => ∀ password ∈ sa.password, ChangesUser sa.org sa.name
          (fun v => { v with
            password := step.env.core.encryptSHA password
            updateBy := step.user.userId, updateTime := step.env.now })
          g.catalog g'.catalog
      | .deleteSas sas => RemovesNamed sas g.catalog g'.catalog
      | .listSas | .getSa _ _ => g'.catalog = g.catalog)
    (fun g' =>
      match step.call with
      | .deleteSas sas => RemovesNamed sas g.catalog g'.catalog
      | _ => g'.catalog = g.catalog)
    g

/-! ### When they do it -/

/-- A user without any rights and without configuration. -/
structure Bare (u : UserEntity) : Prop where
  account : u.account = false
  ddl : u.ddl = false
  dcl : u.dcl = false
  grantAccount : u.grantAccount = false
  grantDdl : u.grantDdl = false
  grantDcl : u.grantDcl = false
  isSA : u.isSA = false
  configuration : u.configuration = []

/-- No SA is created, a name that is changed is that of one user of all organizations, and the user
whose password is changed has nothing to lose. -/
def Harmless (step : SaStep) (g : Grid) : Prop :=
  match step.call with
  | .createSa sa => sa.password.isSome = true → ∀ o, Store.organization g.catalog sa.org = some o →
      (Store.user g.catalog o.id sa.name).isSome = true
  | .updateName orgSa => ∀ o, Store.organization g.catalog orgSa.org = some o →
      ∀ u, Store.user g.catalog o.id orgSa.user = some u →
        Store.user g.catalog o.id orgSa.newUser = none →
          ∀ v ∈ (g.catalog .users).rows, sameName v.name orgSa.user = true → v.id = u.id
  | .updatePassword sa => sa.password.isSome = true →
      ∀ o, Store.organization g.catalog sa.org = some o →
        ∀ u, Store.user g.catalog o.id sa.name = some u → u.name = sa.name ∧ Bare u
  | _ => True

/-! ### The operations of the catalog -/

section Operations

variable {caller : User} {now : Nat} {s : Store}

/-- A new row that is no SA's is not the row of an SA. -/
lemma not_addsSa {sa : OrgSa} {u : UserEntity} (hu : u.isSA = false) :
    ¬ AddsSa sa s (execAll [.insert .users u] s) := by
  rintro ⟨⟨o, v, -, hrows, -, -, hsa⟩, -⟩
  have hrow : Row.withId (s .users).nextId u = v := by
    simpa [Table.insert] using hrows
  have hfalse : v.isSA = false := by
    rw [← hrow]
    exact hu
  rw [hsa] at hfalse
  cases hfalse

/-- An update of the table of users changes the one row as it should, row for row. -/
lemma changesUser_iff {org name : String} {change : UserEntity → UserEntity}
    {cond : UserEntity → Bool} {set : UserEntity → UserEntity} {o : OrganizationEntity}
    {u : UserEntity} (inOrg : Store.organization s org = some o)
    (found : Store.user s o.id name = some u) :
    ChangesUser org name change s (execAll [.update .users cond set] s) ↔
      ∀ v ∈ (s .users).rows, (if cond v then Row.withId (Row.id v) (set v) else v) =
        if v.id = u.id then change v else v := by
  constructor
  · rintro ⟨⟨o', u', inOrg', found', hrows⟩, -⟩
    obtain rfl : o = o' := Option.some.inj (inOrg.symm.trans inOrg')
    obtain rfl : u = u' := Option.some.inj (found.symm.trans found')
    exact List.map_inj_left.mp hrows
  · intro h
    refine ⟨⟨o, u, inOrg, found, List.map_inj_left.mpr h⟩, fun k hk => ?_⟩
    rw [execAll_cons, execAll_nil, exec_update_of_ne _ _ hk]

end Operations

/-! ### Call by call -/

variable {step : SaStep} {g : Grid}

lemma createSa_iff {sa : OrgSa} (hcall : step.call = .createSa sa) :
    step.DoesAsNamed g ↔ step.Harmless g := by
  simp only [DoesAsNamed, Harmless, answer, hcall, OrganizationSaService.createSa,
    OrganizationSaService.catalogUser, wp_bind, wp_orThrow, wp_onCatalog, wp_pure, wp_createUser,
    Bool.false_eq_true, if_false]
  cases sa.password with
  | none => simp
  | some password =>
    simp only [Option.some.injEq, forall_eq', Option.isSome_some, reduceCtorEq,
      and_true, implies_true, true_and, forall_const]
    refine forall₂_congr fun o _ => ?_
    rw [Option.isSome_iff_ne_none]
    exact imp_congr_right fun _ => iff_false_intro (not_addsSa rfl)

lemma updateName_iff {orgSa : OrgSaRename} (hcall : step.call = .updateName orgSa) :
    step.DoesAsNamed g ↔ step.Harmless g := by
  simp only [DoesAsNamed, Harmless, answer, hcall, OrganizationSaService.updateName, wp_bind,
    wp_onCatalog, wp_pure, wp_renameUser, implies_true, true_and]
  refine forall₂_congr fun o inOrg => forall₂_congr fun u found => imp_congr_right fun free => ?_
  rw [changesUser_iff inOrg found]
  refine forall₂_congr fun v hv => ?_
  obtain ⟨hu, -, hname⟩ := Store.user_some found
  by_cases hsame : sameName v.name orgSa.user = true
  · simp only [hsame, if_true, true_implies]
    by_cases hid : v.id = u.id
    · obtain rfl := (g.catalog .users).eq_of_id hv hu hid
      simp only [if_true, iff_true]
      rfl
    · simp only [hid, if_false, iff_false]
      intro h
      have hnew : orgSa.newUser = v.name := congrArg UserEntity.name h
      have hfree := not_sameName_of_free found free
      rw [hnew, hsame] at hfree
      cases hfree
  · have hid : v.id ≠ u.id := by
      intro hid
      rw [(g.catalog .users).eq_of_id hv hu hid] at hsame
      exact hsame hname
    simp [hsame, hid]

omit [Names] in
/-- What is written is the row with the new password exactly if it loses nothing. -/
lemma altered_eq_iff (u : UserEntity) (org name password : String) (caller : User) (now : Nat) :
    u.altered { org := org, name := name, password := password } caller now =
        { u with password := password, updateBy := caller.userId, updateTime := now } ↔
      u.name = name ∧ Bare u := by
  simp only [UserEntity.altered, UserEntity.mk.injEq, true_and, and_true]
  constructor
  · rintro ⟨hname, haccount, hddl, hdcl, hgrantAccount, hgrantDdl, hgrantDcl, hsa, hconfiguration⟩
    exact ⟨hname.symm, haccount.symm, hddl.symm, hdcl.symm, hgrantAccount.symm, hgrantDdl.symm,
      hgrantDcl.symm, hsa.symm, hconfiguration.symm⟩
  · rintro ⟨hname, hbare⟩
    exact ⟨hname.symm, hbare.account.symm, hbare.ddl.symm, hbare.dcl.symm, hbare.grantAccount.symm,
      hbare.grantDdl.symm, hbare.grantDcl.symm, hbare.isSA.symm, hbare.configuration.symm⟩

lemma updatePassword_iff {sa : OrgSa} (hcall : step.call = .updatePassword sa) :
    step.DoesAsNamed g ↔ step.Harmless g := by
  simp only [DoesAsNamed, Harmless, answer, hcall, OrganizationSaService.updatePassword,
    OrganizationSaService.catalogUser, wp_bind, wp_orThrow, wp_onCatalog, wp_pure, wp_alterUser]
  cases sa.password with
  | none => simp
  | some password =>
    simp only [Option.some.injEq, forall_eq', Option.isSome_some, reduceCtorEq,
      and_true, implies_true, true_and, forall_const, Option.mem_def]
    refine forall₂_congr fun o inOrg => forall₂_congr fun u found => ?_
    obtain ⟨hu, -, -⟩ := Store.user_some found
    rw [changesUser_iff inOrg found, ← altered_eq_iff u sa.org sa.name
      (step.env.core.encryptSHA password) step.user step.env.now]
    constructor
    · intro h
      have hrow := h u hu
      simp only [beq_self_eq_true, if_true] at hrow
      exact hrow
    · intro h v hv
      by_cases hid : v.id = u.id
      · obtain rfl := (g.catalog .users).eq_of_id hv hu hid
        simp only [beq_self_eq_true, if_true]
        exact h
      · simp [hid]

/-- The next user that is removed is one that is named. -/
lemma RemovesNamed.withoutUser {sas : List OrgSa} {sa : OrgSa} {s s' : Store}
    {o : OrganizationEntity} {u : UserEntity} (h : RemovesNamed sas s s') (hsa : sa ∈ sas)
    (horgs : s' .organizations = s .organizations)
    (inOrg : Store.organization s' sa.org = some o)
    (found : Store.user s' o.id sa.name = some u) : RemovesNamed sas s (withoutUser u s') := by
  obtain ⟨hu, hscope, hname⟩ := Store.user_some found
  rw [RemovesNamed, withoutUser_users]
  constructor
  · intro v hv
    exact h.1 (Table.mem_delete.mp hv).1
  · intro v hv
    rcases h.2 v hv with hstays | hnamed
    · by_cases hid : v.id = u.id
      · obtain rfl := (s' .users).eq_of_id hstays hu hid
        rw [Store.organization, horgs] at inOrg
        exact .inr ⟨sa, hsa, o, inOrg, hscope, hname⟩
      · exact .inl (Table.mem_delete.mpr ⟨hstays, by simpa using hid⟩)
    · exact .inr hnamed

lemma doesAsNamed_deleteSas {sas : List OrgSa} (hcall : step.call = .deleteSas sas) :
    step.DoesAsNamed g := by
  simp only [DoesAsNamed, answer, hcall, OrganizationSaService.deleteSas, wp_bind,
    wp_forEach_onCatalog, wp_pure]
  apply Action.wp_forEach (I := fun rest (s : Store) => rest ⊆ sas ∧
    s .organizations = g.catalog .organizations ∧ RemovesNamed sas g.catalog s)
  · intro sa rest s ⟨hsub, horgs, hremoves⟩
    rw [wp_dropUser]
    split
    · rename_i o inOrg
      split
      · rename_i u found
        refine ⟨fun a ha => hsub (List.mem_cons_of_mem _ ha), ?_,
          hremoves.withoutUser (hsub List.mem_cons_self) horgs inOrg found⟩
        simpa using horgs
      · exact hremoves
    · exact hremoves
  · exact fun s h => h.2.2
  · exact ⟨List.Subset.refl _, rfl, List.Subset.refl _, fun v hv => .inl hv⟩

lemma doesAsNamed_listSas (hcall : step.call = .listSas) : step.DoesAsNamed g := by
  simp only [DoesAsNamed, answer, hcall, OrganizationSaService.listSas, wp_bind, wp_get, wp_ite,
    wp_pure, wp_throw]
  split <;> trivial

lemma doesAsNamed_getSa {org sa : String} (hcall : step.call = .getSa org sa) :
    step.DoesAsNamed g := by
  simp [DoesAsNamed, answer, hcall, OrganizationSaService.getSa, wp_orThrow]

end SaStep

/-! ### Runs -/

/-- A run of calls does what they name exactly if every call of it is harmless. -/
theorem sa_management_iff (g : Grid) (steps : List SaStep) :
    EachStep (fun g step => step.answer.exec g) (fun g step => step.DoesAsNamed g) g steps ↔
      EachStep (fun g step => step.answer.exec g) (fun g step => step.Harmless g) g steps := by
  refine eachStep_iff (I := fun _ => True) (fun g step _ => ?_) (fun _ _ _ _ => trivial) trivial
  cases hcall : step.call with
  | createSa sa => exact SaStep.createSa_iff hcall
  | updateName orgSa => exact SaStep.updateName_iff hcall
  | updatePassword sa => exact SaStep.updatePassword_iff hcall
  | deleteSas sas =>
    simpa [SaStep.Harmless, hcall] using SaStep.doesAsNamed_deleteSas hcall
  | listSas => simpa [SaStep.Harmless, hcall] using SaStep.doesAsNamed_listSas hcall
  | getSa org sa => simpa [SaStep.Harmless, hcall] using SaStep.doesAsNamed_getSa hcall

omit [Names] in
/-- The organization a with its SA. -/
def saOfA : Store :=
  letI := exactNames
  let root : User := { orgId := 1, org := "SYSTEM", userId := 1, user := "ROOT" }
  execOperations
    [(root, 1, .createOrganization { name := "a", config := [] } false),
      (root, 1, .createUser { org := "a", name := "sa", password := "", isSA := true } false)]
    Store.empty

omit [Names] in
/-- The SA is none any more when the root has changed his password. -/
theorem sa_management_fails :
    letI := exactNames
    ¬ ∀ steps : List SaStep, EachStep (fun g step => step.answer.exec g)
      (fun g step => step.DoesAsNamed g)
      { twoTenantGrid with catalog := saOfA } steps := by
  let _ := exactNames
  intro h
  have hharmless := (SaStep.updatePassword_iff rfl).mp (h [{
    env := plainRest
    user := { orgId := 1, org := "SYSTEM", userId := 1, user := "ROOT" }
    call := .updatePassword { org := "a", name := "sa", password := some "new" } }]).1
  have hfound : ((Store.organization saOfA "a").bind fun o => Store.user saOfA o.id "sa").map
      UserEntity.isSA = some true := by decide
  obtain ⟨u, hbind, hsa⟩ := Option.map_eq_some_iff.mp hfound
  obtain ⟨o, inOrg, found⟩ := Option.bind_eq_some_iff.mp hbind
  have hbare := (hharmless rfl o inOrg u found).2.isSA
  rw [hsa] at hbare
  cases hbare

end Moonbox.Rest
