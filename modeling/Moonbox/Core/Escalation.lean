import Moonbox.Core.LostUpdates
import Moonbox.Core.OpenSessions

/-!
# Where rights come from

A user gains a right only by the command of a session whose user may grant it. Who may grant a
right and who is an SA no command of other sessions than those of SAs and of ROOT decides.
-/

namespace Moonbox.Core

open Catalog Relational CommandChecker

/-- What the row of a user says that he may do -/
inductive UserFlag
  | isSA
  | grant (privilege : RolePrivilege)
  | has (privilege : RolePrivilege)

namespace UserFlag

def ofEntity : UserFlag → UserEntity → Bool
  | isSA, u => u.isSA
  | grant .ACCOUNT, u => u.grantAccount
  | grant .DDL, u => u.grantDdl
  | grant .DCL, u => u.grantDcl
  | has .ACCOUNT, u => u.account
  | has .DDL, u => u.ddl
  | has .DCL, u => u.dcl

def ofUser : UserFlag → CatalogUser → Bool
  | isSA, d => d.isSA
  | grant privilege, d => hasGrant d privilege
  | has .ACCOUNT, d => d.account
  | has .DDL, d => d.ddl
  | has .DCL, d => d.dcl

lemma ofUser_toCatalogUser (f : UserFlag) (org createBy : String) (u : UserEntity) :
    f.ofUser (toCatalogUser org createBy u) = f.ofEntity u := by
  cases f with
  | isSA => rfl
  | grant privilege => cases privilege <;> rfl
  | has privilege => cases privilege <;> rfl

lemma ofEntity_altered (f : UserFlag) (u : UserEntity) (d : CatalogUser) (caller : User)
    (now : Nat) : f.ofEntity (.altered u d caller now) = f.ofUser d := by
  cases f with
  | isSA => rfl
  | grant privilege => cases privilege <;> rfl
  | has privilege => cases privilege <;> rfl

lemma ofEntity_withId (f : UserFlag) (n : Nat) (u : UserEntity) :
    f.ofEntity (Row.withId n u) = f.ofEntity u := by
  cases f with
  | isSA => rfl
  | grant privilege => cases privilege <;> rfl
  | has privilege => cases privilege <;> rfl

end UserFlag

/-- The users have a flag in `s'` only if they had it in `s` or it is one of those that are given. -/
def Gains (given : UserFlag → Prop) (s s' : Store) : Prop :=
  ∀ u' ∈ (s' .users).rows, ∀ f : UserFlag, f.ofEntity u' = true →
    given f ∨ ∃ u ∈ (s .users).rows, u.id = u'.id ∧ f.ofEntity u = true

section Gains

variable {given given' : UserFlag → Prop} {s s' s'' : Store}

lemma Gains.refl (given : UserFlag → Prop) (s : Store) : Gains given s s :=
  fun u hu _ hf => .inr ⟨u, hu, rfl, hf⟩

lemma Gains.of_users (h : s' .users = s .users) : Gains given s s' := by
  intro u' hu' f hf
  rw [h] at hu'
  exact .inr ⟨u', hu', rfl, hf⟩

instance : Std.Refl (Gains given) := ⟨Gains.refl given⟩

lemma Gains.trans (h : Gains given s s') (h' : Gains given s' s'') : Gains given s s'' := by
  intro u'' hu'' f hf
  rcases h' u'' hu'' f hf with hgiven | ⟨u', hu', hid, hf'⟩
  · exact .inl hgiven
  · rcases h u' hu' f hf' with hgiven | ⟨u, hu, hid', hf⟩
    · exact .inl hgiven
    · exact .inr ⟨u, hu, hid'.trans hid, hf⟩

instance : IsTrans Store (Gains given) := ⟨fun _ _ _ => .trans⟩

lemma Gains.mono (h : Gains given s s') (hgiven : ∀ f, given f → given' f) :
    Gains given' s s' := by
  intro u' hu' f hf
  exact (h u' hu' f hf).imp_left (hgiven f)

lemma Gains.insert {e : UserEntity} (h : ∀ f : UserFlag, f.ofEntity e = true → given f) :
    Gains given s ((Write.insert .users e).exec s) := by
  intro u' hu' f hf
  rw [exec_insert, Table.mem_insert] at hu'
  rcases hu' with hu' | rfl
  · exact .inr ⟨u', hu', rfl, hf⟩
  · rw [UserFlag.ofEntity_withId] at hf
    exact .inl (h f hf)

lemma Gains.delete {cond : UserEntity → Bool} :
    Gains given s ((Write.delete .users cond).exec s) := by
  intro u' hu' f hf
  rw [exec_delete, Table.mem_delete] at hu'
  exact .inr ⟨u', hu'.1, rfl, hf⟩

lemma Gains.update {cond : UserEntity → Bool} {set : UserEntity → UserEntity}
    (h : ∀ u ∈ (s .users).rows, cond u = true → ∀ f : UserFlag, f.ofEntity (set u) = true →
      given f ∨ f.ofEntity u = true) :
    Gains given s ((Write.update .users cond set).exec s) := by
  intro u' hu' f hf
  rw [exec_update, Table.mem_update] at hu'
  obtain ⟨u, hu, rfl⟩ := hu'
  split at hf
  · rename_i hcond
    rw [UserFlag.ofEntity_withId] at hf
    rw [if_pos hcond]
    exact (h u hu hcond f hf).imp_right fun hf => ⟨u, hu, (Row.id_withId (Row.id u) _).symm, hf⟩
  · rename_i hcond
    rw [if_neg hcond]
    exact .inr ⟨u, hu, rfl, hf⟩

end Gains

/-! ### Commands -/

section Commands

variable [Names] {given : UserFlag → Prop} {env : Env} {catalog : MoonboxCatalog} {caller : User}
  {now : Nat}

omit [Names] in
lemma keeps_of_wp {α : Type} {R : Store → Store → Prop} {m : DBIO α}
    (h : ∀ s, m.wp (fun _ s' => R s s') (fun s' => R s s') s) : Action.Keeps R m :=
  .of_exec fun s => (Actor.Handler.wp_exec m.run (R s)).mp (h s)

/-- A change of a user gives what it sets and the user did not have. -/
lemma gains_changeUser {touched : List UserField} {change : CatalogUser → CatalogUser}
    (ht : Touches touched change) (hchange : ∀ d (f : UserFlag), f.ofUser (change d) = true →
      given f ∨ f.ofUser d = true) (org user : String) :
    Action.Keeps (Gains given) (changeUser org user change caller now) := by
  refine keeps_of_wp fun s => ?_
  rw [changeUser, Action.wp_bind, wp_catalogUser]
  cases ho : Store.organization s org with
  | none => exact .refl given s
  | some o =>
    cases hu : Store.user s o.id user with
    | none =>
      simp only [hu]
      exact .refl given s
    | some u =>
      cases hcreator : creatorName s u.createBy with
      | none =>
        simp only [hu, hcreator]
        exact .refl given s
      | some createBy =>
        simp only [hu, hcreator]
        have hown := (FindsUser.mk ho hu hcreator).ownName
        rw [wp_alterUser, ht.org, ht.name]
        refine ⟨fun _ => .refl given s, fun o' ho' => ⟨fun _ => .refl given s, fun u' hu' => ?_⟩⟩
        obtain rfl := Option.some.inj (hown.inOrg.symm.trans ho')
        obtain rfl := Option.some.inj (hown.found.symm.trans hu')
        refine Gains.update fun r hr hid f hf => ?_
        rw [Table.eq_of_id hr hown.mem (beq_iff_eq.mp hid)]
        rw [UserFlag.ofEntity_altered] at hf
        rw [← f.ofUser_toCatalogUser org createBy]
        exact hchange _ f hf

lemma gains_createUser {d : CatalogUser} (h : ∀ f : UserFlag, f.ofUser d = true → given f)
    (ign : Bool) : Action.Keeps (Gains given) (JdbcCatalog.createUser d ign caller now) := by
  refine keeps_of_wp fun s => ?_
  rw [wp_createUser]
  refine ⟨fun _ => .refl given s, fun o _ => ⟨fun u _ => ?_, fun _ => Gains.insert fun f hf => ?_⟩⟩
  · split <;> exact .refl given s
  · refine h f ?_
    rw [← hf]
    cases f with
    | isSA => rfl
    | grant privilege => cases privilege <;> rfl
    | has privilege => cases privilege <;> rfl

lemma gains_renameUser (org user newUser : String) :
    Action.Keeps (Gains given) (JdbcCatalog.renameUser org user newUser caller now) := by
  refine keeps_of_wp fun s => ?_
  rw [wp_renameUser]
  refine ⟨fun _ => .refl given s, fun o _ => ⟨fun _ => .refl given s, fun u _ =>
    ⟨fun _ _ => .refl given s, fun _ => Gains.update fun u _ _ f hf => .inr ?_⟩⟩⟩
  rw [← hf]
  cases f with
  | isSA => rfl
  | grant privilege => cases privilege <;> rfl
  | has privilege => cases privilege <;> rfl

lemma gains_dropUser (caller : User) (now : Nat) (org user : String) (ign : Bool) :
    Action.Keeps (Gains given) (JdbcCatalog.dropUser org user ign) := by
  refine keeps_of_wp fun s => ?_
  have hdoes : Does caller now s (.dropUser org user ign) (JdbcCatalog.dropUser org user ign) :=
    does_dropUser s ign org user
  refine Action.wp_mono hdoes (fun _ s' h => ?_) fun s' h => h ▸ .refl given s
  obtain ⟨ws, heffect, rfl⟩ := h
  cases heffect with
  | idle => exact .refl given s
  | dropUser _ _ =>
    simp only [execAll_cons, execAll_nil]
    exact (Gains.of_users (by simp)).trans Gains.delete

lemma gains_forUsersInGroup {run : String → DBIO Unit} (group : String)
    (h : ∀ user, Action.Keeps (Gains given) (run user)) :
    Action.Keeps (Gains given) (forUsersInGroup catalog group run) :=
  (keeps_listUserInGroup group).bind fun users => Action.Keeps.forEach h users

omit [Names] in
lemma gains_keeping {α : Type} {m : DBIO α} (h : Action.Keeps (Gains given) m) :
    Action.Keeps (Gains given) (keeping catalog m) := h.bind fun _ => .pure _

/-- The rights that the user of the session may grant -/
def MoonboxCatalog.mayGive (catalog : MoonboxCatalog) : UserFlag → Prop
  | .has privilege => hasGrant catalog.catalogUser privilege = true
  | _ => False

omit [Names] in
lemma ofUser_setPrivileges (value : Bool) (privileges : List RolePrivilege) (d : CatalogUser)
    (p : RolePrivilege) : (UserFlag.has p).ofUser (setPrivileges value privileges d) =
      if privileges.contains p then value else (UserFlag.has p).ofUser d := by
  cases p <;> rfl

omit [Names] in
lemma ofUser_setGrants (value : Bool) (grants : List RolePrivilege) (d : CatalogUser)
    (p : RolePrivilege) : (UserFlag.grant p).ofUser (setGrants value grants d) =
      if grants.contains p then value else (UserFlag.grant p).ofUser d := by
  cases p <;> rfl

omit [Names] in
lemma flag_setPrivileges {value : Bool} {privileges : List RolePrivilege} {d : CatalogUser}
    {f : UserFlag} (h : f.ofUser (setPrivileges value privileges d) = true) :
    (value = true ∧ ∃ p ∈ privileges, f = .has p) ∨ f.ofUser d = true := by
  cases f with
  | isSA => exact .inr h
  | grant p => cases p <;> exact .inr h
  | has p =>
    rw [ofUser_setPrivileges] at h
    split at h
    · rename_i hp
      exact .inl ⟨h, p, List.contains_iff_mem.mp hp, rfl⟩
    · exact .inr h

omit [Names] in
lemma flag_setGrants {grants : List RolePrivilege} {d : CatalogUser} {f : UserFlag}
    (h : f.ofUser (setGrants false grants d) = true) : f.ofUser d = true := by
  cases f with
  | isSA => exact h
  | grant p =>
    rw [ofUser_setGrants] at h
    split at h
    · cases h
    · exact h
  | has p => cases p <;> exact h

lemma gains_grantPrivileges {privileges : List RolePrivilege}
    (h : privileges.all (hasGrant catalog.catalogUser) = true) (org user : String) :
    Action.Keeps (Gains catalog.mayGive)
      (changeUser org user (setPrivileges true privileges) caller now) := by
  refine gains_changeUser (touches_setPrivileges true privileges) (fun d f hf => ?_) org user
  rcases flag_setPrivileges hf with ⟨-, p, hp, rfl⟩ | hf
  · exact .inl (List.all_eq_true.mp h p hp)
  · exact .inr hf

lemma gains_revokePrivileges (privileges : List RolePrivilege) (org user : String) :
    Action.Keeps (Gains given)
      (changeUser org user (setPrivileges false privileges) caller now) := by
  refine gains_changeUser (touches_setPrivileges false privileges) (fun d f hf => ?_) org user
  rcases flag_setPrivileges hf with ⟨hvalue, -⟩ | hf
  · cases hvalue
  · exact .inr hf

omit [Names] in
lemma flag_of_touches {touched : List UserField} {change : CatalogUser → CatalogUser}
    {d : CatalogUser} {f : UserFlag} (ht : Touches touched change)
    (h : UserField.account ∉ touched ∧ UserField.ddl ∉ touched ∧ UserField.dcl ∉ touched ∧
      UserField.grantAccount ∉ touched ∧ UserField.grantDdl ∉ touched ∧
        UserField.grantDcl ∉ touched) : f.ofUser (change d) = f.ofUser d := by
  obtain ⟨haccount, hddl, hdcl, hgrantAccount, hgrantDdl, hgrantDcl⟩ := h
  cases f with
  | isSA => exact ht.isSA d
  | grant p =>
    cases p with
    | ACCOUNT => exact ht.frame d .grantAccount hgrantAccount
    | DDL => exact ht.frame d .grantDdl hgrantDdl
    | DCL => exact ht.frame d .grantDcl hgrantDcl
  | has p =>
    cases p with
    | ACCOUNT => exact ht.frame d .account haccount
    | DDL => exact ht.frame d .ddl hddl
    | DCL => exact ht.frame d .dcl hdcl

/-- The flags that the sessions of users who are no SAs can change -/
lemma gains_run (cmd : Command) (hcheck : check env cmd catalog = .ok ())
    (hroot : isRoot env catalog = false) (hSA : catalog.catalogUser.isSA = false) :
    Action.Keeps (Gains catalog.mayGive) (cmd.run env catalog now) := by
  by_cases husers : Kind.users ∈ cmd.writes
  · obtain ⟨horganization, hpermitted⟩ : cmd.mixin ≠ .organization ∧
        permitted catalog.catalogUser cmd = true := by
      rw [check_eq_ok, hroot] at hcheck
      split at hcheck
      · cases hcheck
      · exact ⟨‹_›, hcheck.2⟩
    cases cmd
    case createUser name password configuration ign =>
      refine gains_keeping (gains_createUser (fun f hf => ?_) ign)
      cases f with
      | isSA => cases hf
      | grant p => cases p <;> cases hf
      | has p => cases p <;> cases hf
    case alterUserSetName name newName =>
      exact gains_keeping (gains_renameUser _ name newName)
    case alterUserSetPassword name password =>
      exact gains_keeping (gains_changeUser (touches_setPassword _) (fun d f hf =>
        .inr (flag_of_touches (touches_setPassword _) (by decide) ▸ hf)) _ name)
    case alterUserSetOptions name options =>
      exact gains_keeping (gains_changeUser (touches_setOptions options) (fun d f hf =>
        .inr (flag_of_touches (touches_setOptions options) (by decide) ▸ hf)) _ name)
    case dropUser name ign =>
      exact gains_keeping (gains_dropUser catalog.userInSession now _ name ign)
    case grantGrantToUser grants user => exact absurd (hSA.symm.trans hpermitted) (by decide)
    case grantGrantToGroup grants group => exact absurd (hSA.symm.trans hpermitted) (by decide)
    case revokeGrantFromUser grants user => exact absurd (hSA.symm.trans hpermitted) (by decide)
    case revokeGrantFromGroup grants group => exact absurd (hSA.symm.trans hpermitted) (by decide)
    case grantPrivilegeToUser privileges user =>
      exact gains_keeping (gains_grantPrivileges hpermitted _ user)
    case grantPrivilegeToGroup privileges group =>
      exact gains_keeping (gains_forUsersInGroup group (gains_grantPrivileges hpermitted _))
    case revokePrivilegeFromUser privileges user =>
      exact gains_keeping (gains_revokePrivileges _ _ user)
    case revokePrivilegeFromGroup privileges group =>
      exact gains_keeping (gains_forUsersInGroup group (gains_revokePrivileges _ _))
    all_goals first
      | exact absurd rfl horganization
      | simp [Command.writes] at husers
  · exact Action.Keeps.of_exec fun s =>
      .of_users ((cmd.run_within env catalog now).exec s .users husers)

end Commands

/-! ### Runs -/

section Runs

variable [Names] {env : Env} {store : Store} {s s' s'' : OpenSessions} {c c' : MoonboxCatalog}

/-- The session of the same user, with the same rights -/
structure SameSession (c c' : MoonboxCatalog) : Prop where
  user : c'.userInSession = c.userInSession
  rights : c'.rights = c.rights

omit [Names] in
lemma SameSession.flag (h : SameSession c c') (f : UserFlag) :
    f.ofUser c'.catalogUser = f.ofUser c.catalogUser := by
  have hrights := h.rights
  simp only [MoonboxCatalog.rights, Rights.of, Rights.mk.injEq] at hrights
  obtain ⟨-, -, haccount, hddl, hdcl, hgrantAccount, hgrantDdl, hgrantDcl, hisSA⟩ := hrights
  cases f with
  | isSA => exact hisSA
  | grant p =>
    cases p with
    | ACCOUNT => exact hgrantAccount
    | DDL => exact hgrantDdl
    | DCL => exact hgrantDcl
  | has p =>
    cases p with
    | ACCOUNT => exact haccount
    | DDL => exact hddl
    | DCL => exact hdcl

omit [Names] in
lemma SameSession.mayGive (h : SameSession c c') {f : UserFlag} (hf : c.mayGive f) :
    c'.mayGive f := by
  cases f with
  | has p => exact (h.flag (.grant p)).trans hf
  | isSA | grant => exact hf

omit [Names] in
lemma SameSession.isRoot (h : SameSession c c') : isRoot env c' = isRoot env c := by
  have horg : c'.getCurrentOrg = c.getCurrentOrg := congrArg Rights.org h.rights
  have hname : c'.getCurrentUser = c.getCurrentUser := congrArg Rights.name h.rights
  rw [CommandChecker.isRoot, horg, hname, CommandChecker.isRoot]

/-- No session of `s` is closed in `s'`. -/
def Extends (s s' : OpenSessions) : Prop :=
  ∀ c ∈ s.sessions, ∃ c' ∈ s'.sessions, SameSession c c'

omit [Names] in
lemma Extends.refl (s : OpenSessions) : Extends s s := fun c hc => ⟨c, hc, rfl, rfl⟩

omit [Names] in
lemma Extends.trans (h : Extends s s') (h' : Extends s' s'') : Extends s s'' := by
  intro c hc
  obtain ⟨c', hc', hsame⟩ := h c hc
  obtain ⟨c'', hc'', hsame'⟩ := h' c' hc'
  exact ⟨c'', hc'', hsame'.user.trans hsame.user, hsame'.rights.trans hsame.rights⟩

/-- A right may have been given by one of the sessions. -/
def OpenSessions.mayGive (s : OpenSessions) (f : UserFlag) : Prop := ∃ c ∈ s.sessions, c.mayGive f

omit [Names] in
lemma Extends.mayGive (h : Extends s s') {f : UserFlag} (hf : s.mayGive f) : s'.mayGive f := by
  obtain ⟨c, hc, hf⟩ := hf
  obtain ⟨c', hc', hsame⟩ := h c hc
  exact ⟨c', hc', hsame.mayGive hf⟩

/-- Each flag, in the catalog and in the copy that a session has of its user, was there from the
start or may have been given. -/
structure Traced (store : Store) (s : OpenSessions) : Prop where
  gains : Gains s.mayGive store s.store
  copies : ∀ c ∈ s.sessions, ∀ f : UserFlag, f.ofUser c.catalogUser = true →
    s.mayGive f ∨ ∃ u ∈ (store .users).rows, u.id = c.userInSession.userId ∧
      f.ofEntity u = true

/-- How a step changes the sessions and the catalog -/
structure StepOf (s s' : OpenSessions) : Prop where
  sessions : Extends s s'
  gains : Gains s.mayGive s.store s'.store
  opened : ∀ c' ∈ s'.sessions, (∃ c ∈ s.sessions, SameSession c c') ∨
    ∃ u ∈ (s.store .users).rows, u.id = c'.userInSession.userId ∧
      ∀ f : UserFlag, f.ofUser c'.catalogUser = f.ofEntity u

omit [Names] in
lemma StepOf.refl (s : OpenSessions) : StepOf s s where
  sessions := .refl s
  gains := .refl _ s.store
  opened c hc := .inl ⟨c, hc, rfl, rfl⟩

omit [Names] in
lemma Traced.step (h : Traced store s) (hstep : StepOf s s') : Traced store s' where
  gains := (h.gains.trans hstep.gains).mono fun _ => hstep.sessions.mayGive
  copies c' hc' f hf := by
    rcases hstep.opened c' hc' with ⟨c, hc, hsame⟩ | ⟨u, hu, hid, hflags⟩
    · rw [hsame.flag f] at hf
      rw [hsame.user]
      exact (h.copies c hc f hf).imp_left hstep.sessions.mayGive
    · rw [hflags f] at hf
      rw [← hid]
      refine (h.gains u hu f hf).imp hstep.sessions.mayGive ?_
      rintro ⟨u₀, hu₀, hid₀, hf₀⟩
      exact ⟨u₀, hu₀, hid₀, hf₀⟩

lemma stepOf_login (s : OpenSessions) (org user : String) : StepOf s (s.login org user) := by
  have hlogin : (MoonboxCatalog.setCurrentUser org user).wp
      (fun c store => store = s.store ∧ ∃ u ∈ (s.store .users).rows,
        u.id = c.userInSession.userId ∧ ∀ f : UserFlag, f.ofUser c.catalogUser = f.ofEntity u)
      (fun store => store = s.store) s.store := by
    rw [wp_setCurrentUser]
    cases ho : Store.organization s.store org with
    | none => rfl
    | some o =>
      cases hu : Store.user s.store o.id user with
      | none => simp only [hu]
      | some u =>
        cases hcreator : creatorName s.store u.createBy with
        | none => simp only [hu, hcreator]
        | some createBy =>
          simp only [hu, hcreator]
          exact ⟨trivial, u, (Store.user_some hu).1, rfl, fun f => f.ofUser_toCatalogUser ..⟩
  unfold OpenSessions.login
  rw [Action.wp, Actor.Handler.wp] at hlogin
  split
  · rename_i c store hrun
    rw [hrun] at hlogin
    obtain ⟨rfl, hopened⟩ := hlogin
    refine ⟨fun c hc => ⟨c, List.mem_append_left _ hc, rfl, rfl⟩, .refl _ _, fun c' hc' => ?_⟩
    rcases List.mem_append.mp hc' with hc' | hc'
    · exact .inl ⟨c', hc', rfl, rfl⟩
    · rw [List.mem_singleton.mp hc']
      exact .inr hopened
  · rename_i e store hrun
    rw [hrun] at hlogin
    subst hlogin
    exact .refl s

/-- Neither SAs nor ROOT -/
def OrdinarySessions (env : Env) (s : OpenSessions) : Prop :=
  ∀ c ∈ s.sessions, isRoot env c = false ∧ c.catalogUser.isSA = false

omit [Names] in
lemma OrdinarySessions.of_extends (h : OrdinarySessions env s') (hextends : Extends s s') :
    OrdinarySessions env s := by
  intro c hc
  obtain ⟨c', hc', hsame⟩ := hextends c hc
  rw [← hsame.isRoot, ← UserFlag.ofUser.eq_1 c.catalogUser, ← hsame.flag .isSA]
  exact h c' hc'

lemma extends_command (s : OpenSessions) (i : Nat) (cmd : Command) (now : Nat) :
    Extends s (s.command env i cmd now) ∧
      ∀ c' ∈ (s.command env i cmd now).sessions, ∃ c ∈ s.sessions, SameSession c c' := by
  have hrefl : ∀ store, Extends s ⟨store, s.sessions⟩ ∧
      ∀ c' ∈ s.sessions, ∃ c ∈ s.sessions, SameSession c c' := fun _ =>
    ⟨.refl s, fun c hc => ⟨c, hc, rfl, rfl⟩⟩
  unfold OpenSessions.command
  cases hi : s.sessions[i]? with
  | none => exact hrefl s.store
  | some c =>
    simp only
    cases check env cmd c with
    | error e => exact hrefl s.store
    | ok _ =>
      have hanswer := wp_run_answer env c now cmd s.store
      rw [Action.wp, Actor.Handler.wp] at hanswer
      simp only
      split
      · rename_i c' store hrun
        rw [hrun] at hanswer
        refine ⟨fun c₁ hc₁ => ?_, fun c₁ hc₁ => ?_⟩
        · obtain ⟨j, hj, rfl⟩ := List.mem_iff_getElem.mp hc₁
          by_cases hij : i = j
          · subst hij
            rw [List.getElem?_eq_getElem hj, Option.some.injEq] at hi
            exact ⟨c', List.mem_set hj c', hi ▸ hanswer.1, hi ▸ hanswer.2⟩
          · refine ⟨s.sessions[j], List.mem_iff_getElem.mpr ⟨j, by simpa using hj, ?_⟩, rfl, rfl⟩
            rw [List.getElem_set_ne hij]
        · rcases List.mem_or_eq_of_mem_set hc₁ with hc₁ | rfl
          · exact ⟨c₁, hc₁, rfl, rfl⟩
          · exact ⟨c, List.mem_of_getElem? hi, hanswer.1, hanswer.2⟩
      · exact hrefl _

lemma gains_command (s : OpenSessions) (i : Nat) (cmd : Command) (now : Nat)
    (hordinary : OrdinarySessions env s) :
    Gains s.mayGive s.store (s.command env i cmd now).store := by
  unfold OpenSessions.command
  cases hi : s.sessions[i]? with
  | none => exact .refl _ s.store
  | some c =>
    have hc := List.mem_of_getElem? hi
    simp only
    cases hcheck : check env cmd c with
    | error e => exact .refl _ s.store
    | ok _ =>
      obtain ⟨hroot, hSA⟩ := hordinary c hc
      have hcmd : Gains c.mayGive s.store ((cmd.run env c now).run.exec s.store) :=
        (gains_run cmd hcheck hroot hSA).exec s.store
      have hgains : Gains s.mayGive s.store ((cmd.run env c now).run.exec s.store) :=
        hcmd.mono fun f hf => ⟨c, hc, hf⟩
      rw [Actor.Handler.exec] at hgains
      simp only
      split
      · rename_i hrun
        rw [hrun] at hgains
        exact hgains
      · rename_i hrun
        rw [hrun] at hgains
        exact hgains

lemma stepOf_command (s : OpenSessions) (i : Nat) (cmd : Command) (now : Nat)
    (hordinary : OrdinarySessions env s) : StepOf s (s.command env i cmd now) where
  sessions := (extends_command s i cmd now).1
  gains := gains_command s i cmd now hordinary
  opened c' hc' := .inl ((extends_command s i cmd now).2 c' hc')

/-- The events that come from sessions -/
def Event.ofSessions : Event → Prop
  | .login .. => True
  | .command .. => True
  | .elsewhere .. => False

lemma extends_step (s : OpenSessions) (event : Event) : Extends s (s.step env event) := by
  cases event with
  | login org user => exact (stepOf_login s org user).sessions
  | command i cmd now => exact (extends_command s i cmd now).1
  | elsewhere op caller now => exact .refl s

lemma extends_run (s : OpenSessions) (events : List Event) : Extends s (s.run env events) := by
  induction events generalizing s with
  | nil => exact .refl s
  | cons event events ih => exact (extends_step s event).trans (ih (s.step env event))

lemma Traced.run (h : Traced store s) (events : List Event) (hevents : ∀ e ∈ events, e.ofSessions)
    (hordinary : OrdinarySessions env (s.run env events)) : Traced store (s.run env events) := by
  induction events generalizing s with
  | nil => exact h
  | cons event events ih =>
    have hs := hordinary.of_extends (extends_run s (event :: events))
    refine ih (h.step ?_) (fun e he => hevents e (List.mem_cons_of_mem event he)) hordinary
    cases event with
    | login org user => exact stepOf_login s org user
    | command i cmd now => exact stepOf_command s i cmd now hs
    | elsewhere op caller now => exact (hevents _ List.mem_cons_self).elim

/-- However users other than SAs and ROOT work together: nobody becomes an SA or may grant what he
could not grant before, and a right is gained only if one who could grant it from the start had a
session open. -/
theorem rights_come_from_grants (env : Env) (store : Store) (events : List Event)
    (hevents : ∀ e ∈ events, e.ofSessions)
    (hordinary : OrdinarySessions env ((OpenSessions.mk store []).run env events)) :
    ∀ u' ∈ (((OpenSessions.mk store []).run env events).store .users).rows, ∀ f : UserFlag,
      f.ofEntity u' = true →
        (∃ u ∈ (store .users).rows, u.id = u'.id ∧ f.ofEntity u = true) ∨
        ∃ privilege, f = .has privilege ∧
          ∃ c ∈ ((OpenSessions.mk store []).run env events).sessions,
            ∃ u ∈ (store .users).rows, u.id = c.userInSession.userId ∧
              (UserFlag.grant privilege).ofEntity u = true := by
  have hstart : Traced store (OpenSessions.mk store []) :=
    ⟨.refl _ store, fun c hc => absurd hc List.not_mem_nil⟩
  have htraced := hstart.run events hevents hordinary
  intro u' hu' f hf
  rcases htraced.gains u' hu' f hf with ⟨c, hc, hgives⟩ | hold
  · cases f with
    | has privilege =>
      rcases htraced.copies c hc (.grant privilege) hgives with ⟨c', _, hnot⟩ | hold
      · exact hnot.elim
      · exact .inr ⟨privilege, rfl, c, hc, hold⟩
    | isSA | grant => exact hgives.elim
  · exact .inl hold

omit [Names] in
theorem rights_come_from_grants_bob :
    let _ := exactNames
    let events : List Event := [.login "a" "bob", .command 0 (.createGroup "g" none false) 3]
    ∀ u' ∈ (((OpenSessions.mk saAndBob []).run plainEnv events).store .users).rows,
      ∀ f : UserFlag, f.ofEntity u' = true →
        (∃ u ∈ (saAndBob .users).rows, u.id = u'.id ∧ f.ofEntity u = true) ∨
        ∃ privilege, f = .has privilege ∧
          ∃ c ∈ ((OpenSessions.mk saAndBob []).run plainEnv events).sessions,
            ∃ u ∈ (saAndBob .users).rows, u.id = c.userInSession.userId ∧
              (UserFlag.grant privilege).ofEntity u = true := by
  intro _ events
  refine rights_come_from_grants plainEnv saAndBob events ?_ ?_
  · intro e he
    rcases List.mem_cons.mp he with rfl | he
    · trivial
    · rw [List.mem_singleton.mp he]
      trivial
  · have hsessions : ((OpenSessions.mk saAndBob []).run plainEnv events).sessions =
        [sessionOfBob] := by decide +kernel
    rw [OrdinarySessions, hsessions]
    intro c hc
    rw [List.mem_singleton.mp hc]
    exact ⟨by decide +kernel, rfl⟩

end Runs

end Moonbox.Core
