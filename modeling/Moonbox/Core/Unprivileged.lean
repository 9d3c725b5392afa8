import Moonbox.Core.Privileges
import Moonbox.Core.Writes

/-!
# Users without rights

What a user without any right may run writes nothing, but for the commands on groups, which
`CommandChecker` has no case for.
-/

namespace Moonbox.Core

open Catalog Relational CommandChecker

/-- Neither ROOT nor an SA, and no flag is set. -/
structure Unprivileged (env : Env) (catalog : MoonboxCatalog) : Prop where
  isRoot : isRoot env catalog = false
  isSA : catalog.catalogUser.isSA = false
  account : catalog.catalogUser.account = false
  ddl : catalog.catalogUser.ddl = false
  dcl : catalog.catalogUser.dcl = false
  grantAccount : catalog.catalogUser.grantAccount = false
  grantDdl : catalog.catalogUser.grantDdl = false
  grantDcl : catalog.catalogUser.grantDcl = false

variable [Names]

/-- What is there for a command on groups to do. The comment of a group is never written, only who
touched it last and when. -/
def Command.altersGroups (catalog : MoonboxCatalog) (now : Nat) (s : Store) : Command → Prop
  | .createGroup name _ _ => Store.group s catalog.userInSession.orgId name = none
  | .alterGroupSetName name newName =>
    (Store.group s catalog.userInSession.orgId name).isSome = true ∧
      Store.group s catalog.userInSession.orgId newName = none
  | .alterGroupSetComment name _ =>
    ∃ g, Store.group s catalog.userInSession.orgId name = some g ∧
      (g.updateBy ≠ catalog.userInSession.userId ∨ g.updateTime ≠ now)
  | .alterGroupAddUser name users =>
    ∃ g, Store.group s catalog.userInSession.orgId name = some g ∧
      (∃ user ∈ users.1, user ∉ Store.members s g.id) ∧
      ∀ user ∈ users.1, user ∉ Store.members s g.id →
        (Store.user s catalog.userInSession.orgId user).isSome = true
  | .alterGroupRemoveUser name users =>
    ∃ g, Store.group s catalog.userInSession.orgId name = some g ∧
      (∀ user ∈ users.1, (Store.user s catalog.userInSession.orgId user).isSome = true) ∧
      ∃ rel ∈ (s .groupUserRels).rows, rel.groupId = g.id ∧
        rel.userId ∈ idsOf s catalog.userInSession users.1
  | .dropGroup name _ cascade =>
    ∃ g, Store.group s catalog.userInSession.orgId name = some g ∧
      (Store.members s g.id = [] ∨ cascade = true)
  | _ => False

/-! ### What an unprivileged user may run -/

def Command.onGroups : Command → Bool
  | .createGroup .. | .alterGroupSetName .. | .alterGroupSetComment .. | .alterGroupAddUser ..
  | .alterGroupRemoveUser .. | .dropGroup .. => true
  | _ => false

section Check

variable {env : Env} {catalog : MoonboxCatalog} {cmd : Command}

omit [Names] in
lemma Unprivileged.all_hasGrant (h : Unprivileged env catalog)
    (privileges : NonemptyList RolePrivilege) :
    privileges.1.all (hasGrant catalog.catalogUser) = false := by
  obtain ⟨privileges, hne⟩ := privileges
  cases privileges with
  | nil => exact absurd rfl hne
  | cons p ps =>
    have hp : hasGrant catalog.catalogUser p = false := by
      cases p with
      | ACCOUNT => exact h.grantAccount
      | DDL => exact h.grantDdl
      | DCL => exact h.grantDcl
    simp [hp]

omit [Names] in
/-- A command that writes and asks for no flag is one on groups. -/
lemma Unprivileged.idle_or_onGroups (h : Unprivileged env catalog)
    (hcheck : check env cmd catalog = .ok ()) : cmd.writes = [] ∨ cmd.onGroups = true := by
  have horg : cmd.mixin ≠ .organization := by
    intro horg
    rw [check_eq_ok, if_pos horg, h.isRoot] at hcheck
    cases hcheck
  rw [check_eq_ok, if_neg horg] at hcheck
  have hpermitted := hcheck.2
  have account := h.account
  have ddl := h.ddl
  have dcl := h.dcl
  have isSA := h.isSA
  have grants (privileges : NonemptyList RolePrivilege) :
      privileges.1.all (hasGrant catalog.catalogUser) = false := h.all_hasGrant privileges
  cases cmd
  all_goals first
    | exact .inl rfl
    | exact .inr rfl
    | exact absurd rfl horg
    | exact absurd (account.symm.trans hpermitted) Bool.false_ne_true
    | exact absurd (ddl.symm.trans hpermitted) Bool.false_ne_true
    | exact absurd (dcl.symm.trans hpermitted) Bool.false_ne_true
    | exact absurd (isSA.symm.trans hpermitted) Bool.false_ne_true
    | exact absurd ((grants _).symm.trans hpermitted) Bool.false_ne_true

end Check

/-! ### Commands on groups -/

omit [Names] in
lemma exec_keeping {α : Type} {m : DBIO α} {catalog : MoonboxCatalog} {s : Store} :
    (keeping catalog m).run.exec s = m.run.exec s := by
  apply (Action.wp_run _ fun s' => s' = m.run.exec s).mp
  rw [keeping, Action.wp_bind]
  exact (Action.wp_run m fun s' => s' = m.run.exec s).mpr rfl

/-- The users are looked up one by one, up to the first that is not found. -/
lemma wp_mapM_userId {s : Store} {caller : User} {users : List String} {X : Store → Prop}
    {Q : List Nat → Store → Prop} :
    (Action.mapM (JdbcCatalog.userId caller.orgId) users).wp Q X s ↔
      if ∀ user ∈ users, (Store.user s caller.orgId user).isSome = true then
        Q (idsOf s caller users) s
      else X s := by
  induction users generalizing Q with
  | nil => simp [Action.mapM, idsOf]
  | cons user users ih =>
    rw [Action.mapM, Action.wp_bind, wp_userId]
    cases h : Store.user s caller.orgId user with
    | none => simp [h]
    | some u => simp [h, ih, idsOf]

lemma idsOf_eq_nil {s : Store} {caller : User} {users : List String}
    (h : ∀ user ∈ users, (Store.user s caller.orgId user).isSome = true) :
    idsOf s caller users = [] ↔ users = [] := by
  cases users with
  | nil => simp [idsOf]
  | cons user users =>
    obtain ⟨u, hu⟩ := Option.isSome_iff_exists.mp (h user (by simp))
    simp [idsOf, hu]

section Groups

variable {catalog : MoonboxCatalog} {now : Nat} {s : Store}

lemma sameRows_CreateGroup (name : String) (desc : Option String) (ign : Bool) :
    SameRows s ((CreateGroup.run catalog now name desc ign).run.exec s) ↔
      ¬ Store.group s catalog.userInSession.orgId name = none := by
  rw [← Action.wp_run _ (SameRows s)]
  simp only [CreateGroup.run, JdbcCatalog.createGroup, Action.wp_bind, wp_groupExists]
  cases Store.group s catalog.userInSession.orgId name with
  | none =>
    simp only [Option.isSome_none, not_true_eq_false, iff_false]
    exact not_sameRows_insert _
  | some g =>
    cases ign
    all_goals
      simp only [Option.isSome_some, reduceCtorEq, not_false_eq_true, iff_true]
      exact .rfl

lemma sameRows_AlterGroupSetName (name newName : String) :
    SameRows s ((AlterGroupSetName.run catalog now name newName).run.exec s) ↔
      ¬ ((Store.group s catalog.userInSession.orgId name).isSome = true ∧
        Store.group s catalog.userInSession.orgId newName = none) := by
  rw [← Action.wp_run _ (SameRows s)]
  simp only [AlterGroupSetName.run, JdbcCatalog.renameGroup, Action.wp_bind, wp_groupExists]
  cases hg : Store.group s catalog.userInSession.orgId name with
  | none =>
    simp only [Option.isSome_none, Bool.false_eq_true, false_and, not_false_eq_true, iff_true]
    exact .rfl
  | some g =>
    simp only [Option.isSome_some, true_and, Action.wp_bind, wp_groupExists]
    cases hn : Store.group s catalog.userInSession.orgId newName with
    | some g' =>
      simp only [Option.isSome_some, reduceCtorEq, not_false_eq_true, iff_true]
      exact .rfl
    | none =>
      simp only [Option.isSome_none, not_true_eq_false, iff_false]
      intro hsame
      obtain ⟨hmem, horg, hname⟩ := Store.group_some hg
      have hrow := sameRows_update.mp hsame g hmem (by simp [horg, hname])
      have hnew : g.name = newName := congrArg GroupEntity.name hrow.symm
      have hfree := Store.group_none hn hmem horg
      rw [hnew] at hfree
      simp [sameName] at hfree

lemma sameRows_AlterGroupSetComment (name comment : String) :
    SameRows s ((AlterGroupSetComment.run catalog now name comment).run.exec s) ↔
      ¬ ∃ g, Store.group s catalog.userInSession.orgId name = some g ∧
        (g.updateBy ≠ catalog.userInSession.userId ∨ g.updateTime ≠ now) := by
  rw [← Action.wp_run _ (SameRows s)]
  simp only [AlterGroupSetComment.run, JdbcCatalog.alterGroup, Action.wp_bind, wp_getGroup]
  cases hg : Store.group s catalog.userInSession.orgId name with
  | none =>
    simp only [reduceCtorEq, false_and, exists_false, not_false_eq_true, iff_true]
    exact .rfl
  | some g =>
    simp only [Option.some.injEq, exists_eq_left', not_or, not_not]
    have hmem := (Store.group_some hg).1
    apply Iff.trans sameRows_update
    constructor
    · intro h
      have hrow := h g hmem (beq_self_eq_true g.id)
      exact ⟨congrArg GroupEntity.updateBy hrow.symm, congrArg GroupEntity.updateTime hrow.symm⟩
    · intro h r hr hid
      have heq : r = g := (s .groups).eq_of_id hr hmem (beq_iff_eq.mp hid)
      rw [heq, GroupEntity.touched, ← h.1, ← h.2]
      rfl

lemma sameRows_AlterGroupAddUser (name : String) (users : List String) :
    SameRows s ((AlterGroupAddUser.run catalog now name users).run.exec s) ↔
      ¬ ∃ g, Store.group s catalog.userInSession.orgId name = some g ∧
        (∃ user ∈ users, user ∉ Store.members s g.id) ∧
        ∀ user ∈ users, user ∉ Store.members s g.id →
          (Store.user s catalog.userInSession.orgId user).isSome = true := by
  rw [← Action.wp_run _ (SameRows s)]
  simp only [AlterGroupAddUser.run, JdbcCatalog.createGroupUserRel, Action.wp_bind, wp_getGroup]
  cases Store.group s catalog.userInSession.orgId name with
  | none =>
    simp only [reduceCtorEq, false_and, exists_false, not_false_eq_true, iff_true]
    exact .rfl
  | some g =>
    simp only [Action.wp_bind, wp_getGroupUserRelsByGroup, wp_mapM_userId]
    have hall : (∀ user ∈ users.filter fun user => !(Store.members s g.id).contains user,
        (Store.user s catalog.userInSession.orgId user).isSome = true) ↔
        ∀ user ∈ users, user ∉ Store.members s g.id →
          (Store.user s catalog.userInSession.orgId user).isSome = true := by
      simp [List.mem_filter]
    simp only [Option.some.injEq, exists_eq_left']
    split
    · rename_i hfound
      apply Iff.trans sameRows_inserts
      rw [List.map_eq_nil_iff, idsOf_eq_nil hfound, and_iff_left (hall.mp hfound)]
      simp
    · rename_i hfound
      rw [hall] at hfound
      simp only [hfound, and_false, not_false_eq_true, iff_true]
      exact .rfl

lemma sameRows_AlterGroupRemoveUser (name : String) (users : List String) :
    SameRows s ((AlterGroupRemoveUser.run catalog name users).run.exec s) ↔
      ¬ ∃ g, Store.group s catalog.userInSession.orgId name = some g ∧
        (∀ user ∈ users, (Store.user s catalog.userInSession.orgId user).isSome = true) ∧
        ∃ rel ∈ (s .groupUserRels).rows, rel.groupId = g.id ∧
          rel.userId ∈ idsOf s catalog.userInSession users := by
  rw [← Action.wp_run _ (SameRows s)]
  simp only [AlterGroupRemoveUser.run, JdbcCatalog.dropGroupUserRel, Action.wp_bind, wp_getGroup]
  cases Store.group s catalog.userInSession.orgId name with
  | none =>
    simp only [reduceCtorEq, false_and, exists_false, not_false_eq_true, iff_true]
    exact .rfl
  | some g =>
    simp only [Action.wp_bind, wp_mapM_userId, Option.some.injEq, exists_eq_left']
    split
    · rename_i hfound
      rw [and_iff_right hfound]
      apply Iff.trans sameRows_delete
      simp
    · rename_i hfound
      simp only [hfound, false_and, not_false_eq_true, iff_true]
      exact .rfl

lemma sameRows_DropGroup (name : String) (ign cascade : Bool) :
    SameRows s ((DropGroup.run catalog name ign cascade).run.exec s) ↔
      ¬ ∃ g, Store.group s catalog.userInSession.orgId name = some g ∧
        (Store.members s g.id = [] ∨ cascade = true) := by
  rw [← Action.wp_run _ (SameRows s)]
  simp only [DropGroup.run, JdbcCatalog.dropGroup, Action.wp_bind, wp_getGroup]
  cases hg : Store.group s catalog.userInSession.orgId name with
  | none =>
    cases ign
    all_goals
      simp only [reduceCtorEq, false_and, exists_false, not_false_eq_true, iff_true]
      exact .rfl
  | some g =>
    simp only [Action.wp_bind, wp_getGroupUserRelsByGroup, Option.some.injEq, exists_eq_left']
    have hmem := (Store.group_some hg).1
    cases hmembers : Store.members s g.id with
    | nil =>
      simp only [true_or, not_true_eq_false, iff_false]
      intro hsame
      have hrow := sameRows_delete.mp hsame g hmem
      simp at hrow
    | cons user users =>
      cases cascade with
      | false =>
        simp only [reduceCtorEq, Bool.false_eq_true, or_self, not_false_eq_true, iff_true]
        exact .rfl
      | true =>
        simp only [or_true, not_true_eq_false, iff_false]
        intro hsame
        have hrows : (execAll [Write.delete (E := Entity) .groupUserRels fun rel =>
            rel.groupId == g.id, .delete .groups fun t => t.id == g.id] s .groups).rows =
            (s .groups).rows := hsame .groups
        rw [execAll_cons, execAll_cons, execAll_nil, exec_delete, exec_delete_of_ne _ (by decide),
          Table.rows_delete_eq] at hrows
        have hrow := hrows g hmem
        simp at hrow

end Groups

/-! ### The catalog is unchanged -/

/-- An accepted command of an unprivileged user leaves the catalog as it is unless it finds
something to do on a group. -/
theorem unprivileged_catalog_unchanged (env : Env) (catalog : MoonboxCatalog) (now : Nat)
    (cmd : Command) (s : Store) (h : Unprivileged env catalog)
    (hcheck : check env cmd catalog = .ok ()) :
    SameRows s ((cmd.run env catalog now).run.exec s) ↔ ¬ cmd.altersGroups catalog now s := by
  rcases h.idle_or_onGroups hcheck with hidle | hgroups
  · have hrun : (cmd.run env catalog now).run.exec s = s := by
      have hwithin := cmd.run_within env catalog now
      rw [hidle] at hwithin
      exact hwithin.eq s
    rw [hrun]
    have hnot : ¬ cmd.altersGroups catalog now s := by
      cases cmd
      all_goals first
        | exact id
        | cases hidle
    exact iff_of_true .rfl hnot
  · cases cmd
    case createGroup name desc ign =>
      rw [Command.run, exec_keeping]
      exact sameRows_CreateGroup name desc ign
    case alterGroupSetName name newName =>
      rw [Command.run, exec_keeping]
      exact sameRows_AlterGroupSetName name newName
    case alterGroupSetComment name comment =>
      rw [Command.run, exec_keeping]
      exact sameRows_AlterGroupSetComment name comment
    case alterGroupAddUser name users =>
      rw [Command.run, exec_keeping]
      exact sameRows_AlterGroupAddUser name users.1
    case alterGroupRemoveUser name users =>
      rw [Command.run, exec_keeping]
      exact sameRows_AlterGroupRemoveUser name users.1
    case dropGroup name ign cascade =>
      rw [Command.run, exec_keeping]
      exact sameRows_DropGroup name ign cascade
    all_goals cases hgroups

omit [Names] in
lemma unprivileged_bob : Unprivileged plainEnv sessionOfBob := by
  constructor <;> decide +kernel

omit [Names] in
theorem unprivileged_catalog_unchanged_use :
    let _ := exactNames
    SameRows saAndBob
        (((Command.useDatabase "default").run plainEnv sessionOfBob 3).run.exec saAndBob) ↔
      ¬ (Command.useDatabase "default").altersGroups sessionOfBob 3 saAndBob := by
  let _ := exactNames
  exact unprivileged_catalog_unchanged plainEnv sessionOfBob 3 _ saAndBob unprivileged_bob
    (by decide +kernel)

omit [Names] in
/-- CREATE GROUP is accepted from a user without rights. -/
theorem unprivileged_catalog_unchanged_fails :
    let _ := exactNames
    Unprivileged plainEnv sessionOfBob ∧
      check plainEnv (.createGroup "g" none false) sessionOfBob = .ok () ∧
      ¬ SameRows saAndBob
        (((Command.createGroup "g" none false).run plainEnv sessionOfBob 3).run.exec
          saAndBob) := by
  let _ := exactNames
  refine ⟨unprivileged_bob, by decide +kernel, ?_⟩
  show ¬ SameRows saAndBob ((CreateGroup.run sessionOfBob 3 "g" none false).run.exec saAndBob)
  rw [sameRows_CreateGroup, not_not]
  decide

end Moonbox.Core
