import Moonbox.Core.PrivilegeAnalysis
import Moonbox.Core.Writes

/-!
# Open sessions

A session decides by the copy of its user that it made when it was opened. The catalog changes
under it, by the commands of other sessions and by what else calls `JdbcCatalog`.
-/

namespace Moonbox.Core

open Catalog Relational CommandChecker

/-! ### Decisions -/

/-- What the decisions of a session ask about its user. -/
structure Rights where
  org : String
  name : String
  account : Bool
  ddl : Bool
  dcl : Bool
  grantAccount : Bool
  grantDdl : Bool
  grantDcl : Bool
  isSA : Bool
  deriving DecidableEq, Repr

def Rights.of (org : String) (d : CatalogUser) : Rights :=
  { org := org
    name := d.name
    account := d.account
    ddl := d.ddl
    dcl := d.dcl
    grantAccount := d.grantAccount
    grantDdl := d.grantDdl
    grantDcl := d.grantDcl
    isSA := d.isSA }

namespace MoonboxCatalog

/-- The rights the session goes by. -/
def rights (catalog : MoonboxCatalog) : Rights :=
  .of catalog.catalogOrg.name catalog.catalogUser

/-- The session with the organization and the user as they are in the catalog, if they are. -/
def current (s : Store) (catalog : MoonboxCatalog) : Option MoonboxCatalog :=
  match (s .organizations).rows.find? fun o => o.id == catalog.userInSession.orgId,
    (s .users).rows.find? fun u => u.id == catalog.userInSession.userId with
  | some o, some u =>
    some { catalog with
      catalogOrg := { name := o.name, config := o.config, description := o.description }
      catalogUser := toCatalogUser o.name ((creatorName s u.createBy).getD "") u }
  | _, _ => none

/-- The rights that its user has in the catalog, if he is there. -/
def currentRights (s : Store) (catalog : MoonboxCatalog) : Option Rights :=
  (catalog.current s).map rights

end MoonboxCatalog

variable [Names]

/-- `PrivilegeAnalysis` lets the plan through. -/
def allows (s : Store) (catalog : MoonboxCatalog) (plan : LogicalPlan) : Bool :=
  (PrivilegeAnalysis.apply catalog plan).run.succeeds s

/-- Every decision of the session is the one the catalog gives. -/
structure DecidesByCatalog (env : Env) (s : Store) (catalog : MoonboxCatalog) : Prop where
  check : ∀ cmd, check env cmd catalog = .ok () ↔
    ∃ now, catalog.current s = some now ∧ CommandChecker.check env cmd now = .ok ()
  analysis : ∀ plan, allows s catalog plan = true ↔
    ∃ now, catalog.current s = some now ∧ allows s now plan = true

/-! ### Runs -/

structure OpenSessions where
  store : Store
  sessions : List MoonboxCatalog

inductive Event
  | login (org user : String)
  | command (i : Nat) (cmd : Command) (now : Nat)
  /-- An operation that no session of the list has asked for. -/
  | elsewhere (op : Operation) (caller : User) (now : Nat)

namespace OpenSessions

def login (s : OpenSessions) (org user : String) : OpenSessions :=
  match (MoonboxCatalog.setCurrentUser org user).run s.store with
  | (.ok catalog, store) => ⟨store, s.sessions ++ [catalog]⟩
  | (.error _, store) => ⟨store, s.sessions⟩

/-- An accepted command of the `i`th session is run. -/
def command (env : Env) (s : OpenSessions) (i : Nat) (cmd : Command) (now : Nat) : OpenSessions :=
  match s.sessions[i]? with
  | none => s
  | some catalog =>
    match check env cmd catalog with
    | .error _ => s
    | .ok () =>
      match (cmd.run env catalog now).run s.store with
      | (.ok catalog', store) => ⟨store, s.sessions.set i catalog'⟩
      | (.error _, store) => ⟨store, s.sessions⟩

def step (env : Env) (s : OpenSessions) : Event → OpenSessions
  | .login org user => s.login org user
  | .command i cmd now => s.command env i cmd now
  | .elsewhere op caller now => ⟨op.exec caller now s.store, s.sessions⟩

def run (env : Env) (s : OpenSessions) (events : List Event) : OpenSessions :=
  events.foldl (step env) s

/-- The event leaves the rights of the users who have a session open as they are. -/
def Spares (env : Env) (s : OpenSessions) (event : Event) : Prop :=
  ∀ catalog ∈ s.sessions,
    catalog.currentRights (s.step env event).store = catalog.currentRights s.store

/-- Every event of the run does. -/
def SparesAll (env : Env) : OpenSessions → List Event → Prop
  | _, [] => True
  | s, event :: events => s.Spares env event ∧ SparesAll env (s.step env event) events

end OpenSessions

/-! ### Decisions go by the rights -/

section Rights

variable {env : Env} {s : Store} {catalog catalog' : MoonboxCatalog}

omit [Names] in
lemma permitted_congr {d d' : CatalogUser} {org org' : String}
    (h : Rights.of org d = Rights.of org' d') (cmd : Command) : permitted d cmd = permitted d' cmd := by
  simp only [Rights.of, Rights.mk.injEq] at h
  obtain ⟨_, _, haccount, hddl, hdcl, hgrantAccount, hgrantDdl, hgrantDcl, hisSA⟩ := h
  have hgrant : hasGrant d = hasGrant d' := by
    funext p
    cases p with
    | ACCOUNT => exact hgrantAccount
    | DDL => exact hgrantDdl
    | DCL => exact hgrantDcl
  simp only [permitted, haccount, hddl, hdcl, hisSA, hgrant]

omit [Names] in
lemma check_congr (h : catalog.rights = catalog'.rights) (cmd : Command) :
    check env cmd catalog = check env cmd catalog' := by
  have hroot : isRoot env catalog = isRoot env catalog' := by
    have horg : catalog.getCurrentOrg = catalog'.getCurrentOrg := congrArg Rights.org h
    have hname : catalog.getCurrentUser = catalog'.getCurrentUser := congrArg Rights.name h
    rw [isRoot, horg, hname, isRoot]
  unfold check notOrganization
  rw [hroot, permitted_congr h cmd]

lemma apply_congr (h : catalog.rights = catalog'.rights)
    (huser : catalog.userInSession = catalog'.userInSession)
    (hdb : catalog.currentDb = catalog'.currentDb) (plan : LogicalPlan) :
    PrivilegeAnalysis.apply catalog plan = PrivilegeAnalysis.apply catalog' plan := by
  have hname : catalog.getCurrentUser = catalog'.getCurrentUser := congrArg Rights.name h
  have hisSA : catalog.catalogUser.isSA = catalog'.catalogUser.isSA := congrArg Rights.isSA h
  have hinsert : PrivilegeAnalysis.checkInsert catalog = PrivilegeAnalysis.checkInsert catalog' := by
    funext identifier
    simp only [PrivilegeAnalysis.checkInsert, PrivilegeAnalysis.isOwner,
      PrivilegeAnalysis.isDatabaseGranted, PrivilegeAnalysis.isTableGranted, hname, huser, hdb]
  have havailable : PrivilegeAnalysis.available catalog = PrivilegeAnalysis.available catalog' := by
    funext dbGranted r
    simp only [PrivilegeAnalysis.available, PrivilegeAnalysis.isOwner,
      PrivilegeAnalysis.isTableGranted, hname, huser]
  have havailables :
      PrivilegeAnalysis.availables catalog = PrivilegeAnalysis.availables catalog' := by
    funext relations
    simp only [PrivilegeAnalysis.availables, PrivilegeAnalysis.isDatabaseGranted, havailable, hname,
      huser]
  have hselect : PrivilegeAnalysis.checkSelect catalog = PrivilegeAnalysis.checkSelect catalog' := by
    funext queryPlan
    simp only [PrivilegeAnalysis.checkSelect, PrivilegeAnalysis.unavailables, havailables, hname, hdb]
  simp only [PrivilegeAnalysis.apply, hisSA, hinsert, hselect]

/-- A session whose copy is up to date decides by the catalog. -/
lemma decidesByCatalog_of_rights (h : catalog.currentRights s = some catalog.rights) :
    DecidesByCatalog env s catalog := by
  obtain ⟨now, hnow, hrights⟩ := Option.map_eq_some_iff.mp h
  have hsame : catalog.userInSession = now.userInSession ∧ catalog.currentDb = now.currentDb := by
    unfold MoonboxCatalog.current at hnow
    split at hnow
    · cases hnow
      exact ⟨rfl, rfl⟩
    · cases hnow
  constructor
  · intro cmd
    rw [hnow]
    simp only [Option.some.injEq, exists_eq_left', check_congr hrights]
  · intro plan
    rw [hnow]
    simp only [Option.some.injEq, exists_eq_left', allows,
      apply_congr hrights.symm hsame.1 hsame.2]

end Rights

/-! ### The copies stay up to date -/

/-- The copy of every session is that of the catalog. -/
def UpToDate (s : OpenSessions) : Prop :=
  ∀ catalog ∈ s.sessions, catalog.currentRights s.store = some catalog.rights

section Steps

variable {env : Env} {s : OpenSessions}

lemma wp_login (org user : String) (s : Store) :
    (MoonboxCatalog.setCurrentUser org user).wp
      (fun catalog s' => s' = s ∧ catalog.currentRights s = some catalog.rights)
      (fun s' => s' = s) s := by
  rw [wp_setCurrentUser]
  cases ho : Store.organization s org with
  | none => trivial
  | some o =>
    cases hu : Store.user s o.id user with
    | none => simp only [hu]
    | some u =>
      cases hcreator : creatorName s u.createBy with
      | none => simp only [hu, hcreator]
      | some createBy =>
        have horg : ((s .organizations).rows.find? fun r => r.id == o.id) = some o :=
          Table.find?_id (Store.organization_some ho).1
        have huser : ((s .users).rows.find? fun r => r.id == u.id) = some u :=
          Table.find?_id (Store.user_some hu).1
        simp only [hu, hcreator, MoonboxCatalog.currentRights, MoonboxCatalog.current, horg, huser]
        exact ⟨trivial, rfl⟩

/-- A command leaves the user and the rights of its session alone. -/
lemma wp_run_answer (env : Env) (catalog : MoonboxCatalog) (now : Nat) (cmd : Command) (s : Store) :
    (cmd.run env catalog now).wp
      (fun catalog' _ => catalog'.userInSession = catalog.userInSession ∧
        catalog'.rights = catalog.rights)
      (fun _ => True) s := by
  have hkeeping {α : Type} (m : DBIO α) : (keeping catalog m).wp
      (fun catalog' _ => catalog'.userInSession = catalog.userInSession ∧
        catalog'.rights = catalog.rights) (fun _ => True) s := by
    rw [keeping, Action.wp_bind]
    exact Action.wp_mono (Actor.Handler.wp_true m.run s) (fun _ _ _ => ⟨rfl, rfl⟩) fun _ => id
  have huse (db : String) (s : Store) : (catalog.setCurrentDb db).wp
      (fun catalog' _ => catalog'.userInSession = catalog.userInSession ∧
        catalog'.rights = catalog.rights) (fun _ => True) s := by
    rw [MoonboxCatalog.setCurrentDb, Action.wp_bind]
    apply Action.wp_mono (Actor.Handler.wp_true _ s)
    · intro b _ _
      cases b with
      | false => trivial
      | true => exact ⟨rfl, rfl⟩
    · exact fun _ => id
  cases cmd
  case useDatabase db => exact huse db s
  case alterDatabaseSetName name newName =>
    show (AlterDatabaseSetName.run env catalog now name newName).wp _ _ s
    rw [AlterDatabaseSetName.run, Action.wp_bind]
    apply Action.wp_mono (Actor.Handler.wp_true _ s)
    · intro _ s' _
      rw [Action.wp_ite]
      split
      · exact huse newName s'
      · exact ⟨rfl, rfl⟩
    · exact fun _ => id
  all_goals first
    | exact hkeeping _
    | exact ⟨rfl, rfl⟩

lemma UpToDate.login (h : UpToDate s) (org user : String) : UpToDate (s.login org user) := by
  have hlogin := wp_login org user s.store
  unfold OpenSessions.login
  rw [Action.wp, Actor.Handler.wp] at hlogin
  split
  · rename_i catalog store hrun
    rw [hrun] at hlogin
    obtain ⟨hstore, hrights⟩ := hlogin
    intro catalog' hmem
    rw [hstore]
    rcases List.mem_append.mp hmem with hmem | hmem
    · exact h catalog' hmem
    · rw [List.mem_singleton.mp hmem]
      exact hrights
  · rename_i e store hrun
    rw [hrun] at hlogin
    intro catalog' hmem
    rw [hlogin]
    exact h catalog' hmem

lemma UpToDate.command (h : UpToDate s) (i : Nat) (cmd : Command) (now : Nat)
    (hspares : s.Spares env (.command i cmd now)) : UpToDate (s.command env i cmd now) := by
  have hcurrent : ∀ catalog ∈ s.sessions,
      catalog.currentRights (s.command env i cmd now).store = some catalog.rights :=
    fun catalog hmem => (hspares catalog hmem).trans (h catalog hmem)
  revert hcurrent
  unfold OpenSessions.command
  cases hi : s.sessions[i]? with
  | none => exact fun _ => h
  | some catalog =>
    simp only
    cases check env cmd catalog with
    | error e => exact fun _ => h
    | ok _ =>
      have hanswer := wp_run_answer env catalog now cmd s.store
      rw [Action.wp, Actor.Handler.wp] at hanswer
      simp only
      split
      · rename_i catalog' store hrun
        rw [hrun] at hanswer
        intro hcurrent catalog₂ hmem
        rcases List.mem_or_eq_of_mem_set hmem with hmem | hmem
        · exact hcurrent catalog₂ hmem
        · have hold := hcurrent catalog (List.mem_of_getElem? hi)
          rw [hmem, hanswer.2, ← hold]
          simp only [MoonboxCatalog.currentRights, MoonboxCatalog.current, hanswer.1]
          split <;> rfl
      · exact fun hcurrent => hcurrent

lemma UpToDate.step (h : UpToDate s) (event : Event) (hspares : s.Spares env event) :
    UpToDate (s.step env event) := by
  cases event with
  | login org user => exact h.login org user
  | command i cmd now => exact h.command i cmd now hspares
  | elsewhere op caller now =>
    intro catalog hmem
    exact (hspares catalog hmem).trans (h catalog hmem)

lemma UpToDate.run (h : UpToDate s) (events : List Event) (hspares : s.SparesAll env events) :
    UpToDate (s.run env events) := by
  induction events generalizing s with
  | nil => exact h
  | cons event events ih => exact ih (h.step event hspares.1) hspares.2

end Steps

/-! ### Events that touch no rights -/

section Spares

variable {env : Env} {s : OpenSessions}

omit [Names] in
lemma currentRights_congr {store store' : Store} {c : MoonboxCatalog}
    (husers : store' .users = store .users)
    (horganizations : store' .organizations = store .organizations) :
    c.currentRights store' = c.currentRights store := by
  simp only [MoonboxCatalog.currentRights, MoonboxCatalog.current, husers, horganizations]
  split <;> rfl

/-- Only a command that writes users or organizations may touch the rights of a user. -/
lemma spares_command (i : Nat) {cmd : Command} (now : Nat) (husers : .users ∉ cmd.writes)
    (horganizations : .organizations ∉ cmd.writes) : s.Spares env (.command i cmd now) := by
  intro catalog _
  show catalog.currentRights (s.command env i cmd now).store = _
  unfold OpenSessions.command
  cases s.sessions[i]? with
  | none => rfl
  | some session =>
    simp only
    cases check env cmd session with
    | error e => rfl
    | ok _ =>
      have hwithin := (cmd.run_within env session now).exec s.store
      have hsame := currentRights_congr (c := catalog) (hwithin .users husers)
        (hwithin .organizations horganizations)
      rw [Actor.Handler.exec] at hsame
      simp only
      split
      · rename_i hrun
        rw [hrun] at hsame
        exact hsame
      · rename_i hrun
        rw [hrun] at hsame
        exact hsame

end Spares

/-! ### The decisions of `CommandChecker` -/

section Check

variable {env : Env} {s : Store} {catalog now : MoonboxCatalog}

/-- The flags of two users that `CommandChecker` asks for. -/
structure SameFlags (d d' : CatalogUser) : Prop where
  account : d.account = d'.account
  ddl : d.ddl = d'.ddl
  dcl : d.dcl = d'.dcl
  isSA : d.isSA = d'.isSA
  grants : hasGrant d = hasGrant d'

omit [Names] in
lemma SameFlags.permitted {d d' : CatalogUser} (h : SameFlags d d') (cmd : Command) :
    permitted d cmd = permitted d' cmd := by
  simp only [CommandChecker.permitted, h.account, h.ddl, h.dcl, h.isSA, h.grants]

omit [Names] in
lemma sameFlags_of_permitted {d d' : CatalogUser}
    (h : ∀ cmd : Command, cmd.mixin ≠ .organization → permitted d cmd = permitted d' cmd) :
    SameFlags d d' where
  account := h (.dropUser "" true) (by decide)
  ddl := h (.dropDatabase "" true true) (by decide)
  dcl := h (.grantResourceToUser ⟨[.select], by decide⟩ { table := "" } "") (by decide)
  isSA := h (.grantGrantToUser ⟨[.DDL], by decide⟩ "") (by decide)
  grants := by
    funext p
    have hdcl : CommandTrait.dcl ≠ .organization := by decide
    have hp := h (.grantPrivilegeToUser ⟨[p], by simp⟩ "") hdcl
    simpa [CommandChecker.permitted, Command.mixin] using hp

omit [Names] in
/-- For a user other than ROOT the checks follow the catalog just as long as his flags there are
those that were copied. -/
theorem check_follows_catalog_iff (hroot : isRoot env catalog = false) :
    (∀ cmd, check env cmd catalog = .ok () ↔
      ∃ now, catalog.current s = some now ∧ check env cmd now = .ok ()) ↔
    ∃ now, catalog.current s = some now ∧ isRoot env now = false ∧
      SameFlags catalog.catalogUser now.catalogUser := by
  constructor
  · intro h
    have hdml : check env (.useDatabase "") catalog = .ok () := by
      rw [check_eq_ok]
      exact ⟨hroot, rfl⟩
    obtain ⟨now, hnow, hcheck⟩ := (h (.useDatabase "")).mp hdml
    rw [check_eq_ok] at hcheck
    refine ⟨now, hnow, hcheck.1, sameFlags_of_permitted fun cmd horg => ?_⟩
    have hcmd := h cmd
    simp only [hnow, Option.some.injEq, exists_eq_left', check_eq_ok, if_neg horg, hroot,
      hcheck.1, true_and] at hcmd
    exact Bool.eq_iff_iff.mpr hcmd
  · rintro ⟨now, hnow, hnotRoot, hflags⟩ cmd
    simp only [hnow, Option.some.injEq, exists_eq_left', check_eq_ok, hroot, hnotRoot,
      hflags.permitted]

end Check

/-! ### Sessions follow the catalog -/

/-- As long as nothing touches the rights of a user who has a session open, every session decides
by the catalog. -/
theorem decisions_follow_catalog (env : Env) (store : Store) (events : List Event)
    (hspares : (OpenSessions.mk store []).SparesAll env events) :
    ∀ catalog ∈ ((OpenSessions.mk store []).run env events).sessions,
      DecidesByCatalog env ((OpenSessions.mk store []).run env events).store catalog := by
  have hstart : UpToDate (OpenSessions.mk store []) := by
    intro catalog hmem
    cases hmem
  intro catalog hmem
  exact decidesByCatalog_of_rights (hstart.run events hspares catalog hmem)

omit [Names] in
theorem decisions_follow_catalog_of_bob :
    let _ := exactNames
    let events : List Event :=
      [.login "a" "bob", .command 0 (.createGroup "g" none false) 3]
    ∀ catalog ∈ ((OpenSessions.mk saAndBob []).run plainEnv events).sessions,
      DecidesByCatalog plainEnv ((OpenSessions.mk saAndBob []).run plainEnv events).store catalog := by
  let _ := exactNames
  apply decisions_follow_catalog
  refine ⟨?_, spares_command 0 3 (by decide) (by decide), trivial⟩
  intro catalog hmem
  cases hmem

/-- The events in which an SA lets bob grant rights while bob has a session open. -/
def grantWhileOpen : List Event :=
  [.login "a" "sa", .login "a" "bob",
    .command 0 (.grantGrantToUser ⟨[.DCL], by decide⟩ "bob") 3]

omit [Names] in
/-- The grant does not reach the session. -/
theorem decisions_follow_catalog_fails :
    let _ := exactNames
    ∃ catalog ∈ ((OpenSessions.mk saAndBob []).run plainEnv grantWhileOpen).sessions,
      ¬ DecidesByCatalog plainEnv
        ((OpenSessions.mk saAndBob []).run plainEnv grantWhileOpen).store catalog := by
  let _ := exactNames
  have hsessions : ((OpenSessions.mk saAndBob []).run plainEnv grantWhileOpen).sessions =
      [sessionOfSa, sessionOfBob] := by decide +kernel
  refine ⟨sessionOfBob, by simp [hsessions], fun h => ?_⟩
  have hdiffers : ((sessionOfBob.current
      ((OpenSessions.mk saAndBob []).run plainEnv grantWhileOpen).store).map fun now =>
        hasGrant now.catalogUser .DCL) = some true := by decide +kernel
  obtain ⟨now, hnow, _, hflags⟩ := (check_follows_catalog_iff (by decide +kernel)).mp h.check
  rw [hnow, Option.map_some, ← hflags.grants] at hdiffers
  exact absurd hdiffers (by decide)

end Moonbox.Core
