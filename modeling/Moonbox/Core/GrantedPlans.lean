import Mathlib.Data.List.TakeDrop
import Mathlib.Data.List.TakeWhile
import Moonbox.Core.AcceptedPlans
import Moonbox.Core.Grants

/-!
# Grants, revocations and the plans that are let through

A command on resources adds to the three tables of privileges or takes from them, and leaves the
rest of the catalog as it is. What the analysis lets through grows and shrinks with them.
-/

namespace Moonbox.Core

open Catalog Relational

/-- The same catalog with more privileges. -/
structure Wider (s s' : Store) : Prop where
  beside : Beside s s'
  rows : ∀ k, (s k).rows ⊆ (s' k).rows

/-- The same catalog with fewer. -/
def Narrower (s s' : Store) : Prop := Wider s' s

lemma Wider.creatorName {s s' : Store} (h : Wider s s') (createBy : Int) :
    creatorName s' createBy = creatorName s createBy := by
  rw [Moonbox.Core.creatorName, h.beside .users (by simp [IsPrivilege]), Moonbox.Core.creatorName]

/-! ### More privileges let more plans through -/

namespace PrivilegeAnalysis

section Plans

variable [Names] {s s' : Store} {catalog : MoonboxCatalog} {db table column privilege : String}
  {r : Relation} {plan : LogicalPlan}

lemma HasDatabase.wider (hdb : HasDatabase s catalog db) (h : Wider s s') :
    HasDatabase s' catalog db := by
  simpa only [HasDatabase, h.beside.user, h.beside.database] using hdb

lemma HasTable.wider (htable : HasTable s catalog db table) (h : Wider s s') :
    HasTable s' catalog db table := by
  simpa only [HasTable, h.beside.database, h.beside.table, h.creatorName] using htable

lemma Owns.wider (howns : Owns s catalog db table) (h : Wider s s') :
    Owns s' catalog db table := by
  simpa only [Owns, h.beside.database, h.beside.table, h.creatorName] using howns

lemma OnDatabase.wider (hon : OnDatabase s catalog privilege db) (h : Wider s s') :
    OnDatabase s' catalog privilege db := by
  obtain ⟨u, d, hu, hd, e, he, hmeets⟩ := hon
  rw [← h.beside.user] at hu
  rw [← h.beside.database] at hd
  exact ⟨u, d, hu, hd, e, h.rows _ he, hmeets⟩

lemma OnTable.wider (hon : OnTable s catalog privilege db table) (h : Wider s s') :
    OnTable s' catalog privilege db table := by
  obtain ⟨u, d, t, hu, hd, ht, e, he, hmeets⟩ := hon
  rw [← h.beside.user] at hu
  rw [← h.beside.database] at hd
  rw [← h.beside.table] at ht
  exact ⟨u, d, t, hu, hd, ht, e, h.rows _ he, hmeets⟩

lemma OnColumn.wider (hon : OnColumn s catalog privilege db table column) (h : Wider s s') :
    OnColumn s' catalog privilege db table column := by
  obtain ⟨u, d, t, hu, hd, ht, e, he, hmeets⟩ := hon
  rw [← h.beside.user] at hu
  rw [← h.beside.database] at hd
  rw [← h.beside.table] at ht
  exact ⟨u, d, t, hu, hd, ht, e, h.rows _ he, hmeets⟩

lemma Found.wider (hfound : Found s catalog r) (h : Wider s s') : Found s' catalog r :=
  ⟨hfound.1.wider h, hfound.2.imp (·.wider h) (·.wider h)⟩

lemma MayRead.wider (hread : MayRead s catalog r column) (h : Wider s s') :
    MayRead s' catalog r column :=
  hread.imp (Or.imp (·.wider h) (Or.imp (·.wider h) (·.wider h))) (·.wider h)

lemma MayInsert.wider {identifier : TableIdentifier} (hinsert : MayInsert s catalog identifier)
    (h : Wider s s') : MayInsert s' catalog identifier :=
  ⟨hinsert.1.wider h, hinsert.2.imp (·.wider h) (Or.imp (·.wider h) (·.wider h))⟩

lemma Accepts.wider (haccepts : Accepts s catalog plan) (h : Wider s s') :
    Accepts s' catalog plan where
  insert table htable := (haccepts.insert table htable).wider h
  relations q r hvisits hq := (haccepts.relations q r hvisits hq).wider h
  columns q a hvisits hrefers hgiven := by
    obtain ⟨p, r, hp, hr, b, hb, heq, hread⟩ := haccepts.columns q a hvisits hrefers hgiven
    exact ⟨p, r, hp, hr, b, hb, heq, hread.wider h⟩

end Plans

end PrivilegeAnalysis

/-! ### What the operations on privileges do -/

instance : Std.Refl Wider := ⟨fun _ => ⟨fun _ _ => rfl, fun _ => List.Subset.refl _⟩⟩

instance : IsTrans Store Wider :=
  ⟨fun _ _ _ h h' => ⟨fun k hk => (h'.beside k hk).trans (h.beside k hk),
    fun k => List.Subset.trans (h.rows k) (h'.rows k)⟩⟩

instance : Std.Refl Narrower := ⟨fun s => (Std.Refl.refl s : Wider s s)⟩

instance : IsTrans Store Narrower :=
  ⟨fun _ _ _ h h' => (IsTrans.trans _ _ _ h' h : Wider _ _)⟩

inductive Adds : Write Entity → Prop
  | insert {k : Kind} (hk : IsPrivilege k) (e : Entity k) : Adds (.insert k e)

inductive Removes : Write Entity → Prop
  | delete {k : Kind} (hk : IsPrivilege k) (cond : Entity k → Bool) : Removes (.delete k cond)

lemma Adds.wider {w : Write Entity} (hw : Adds w) (s : Store) : Wider s (w.exec s) := by
  cases hw with
  | @insert k hk e =>
    constructor
    · intro k' hk'
      apply exec_insert_of_ne
      rintro rfl
      exact hk' hk
    · intro k' r hr
      by_cases heq : k' = k
      · subst heq
        rw [exec_insert, Table.mem_insert]
        exact .inl hr
      · rwa [exec_insert_of_ne e heq]

lemma Removes.narrower {w : Write Entity} (hw : Removes w) (s : Store) :
    Narrower s (w.exec s) := by
  cases hw with
  | @delete k hk cond =>
    constructor
    · intro k' hk'
      symm
      apply exec_delete_of_ne
      rintro rfl
      exact hk' hk
    · intro k' r hr
      by_cases heq : k' = k
      · subst heq
        rw [exec_delete, Table.mem_delete] at hr
        exact hr.1
      · rwa [exec_delete_of_ne cond heq] at hr

section Operations

variable [Names] {caller : User} {now : Nat}

/-- An operation keeps what each of its writes keeps. -/
lemma keeps_of_writes (now : Nat) {R : Store → Store → Prop} [Std.Refl R] [IsTrans Store R]
    {P : Write Entity → Prop} (hP : ∀ w, P w → ∀ s, R s (w.exec s)) (op : Operation)
    (h : ∀ s ws, Effect caller now s op ws → ∀ w ∈ ws, P w) :
    Action.Keeps R (op.action caller now) := by
  apply Action.Keeps.of_exec
  intro s
  obtain ⟨ws, hws, heq⟩ := op.exec_effect caller now s
  show R s (op.exec caller now s)
  rw [heq]
  apply execAll_induction (P := R s) (Std.Refl.refl s)
  intro w hw s' hs'
  exact IsTrans.trans _ _ _ hs' (hP w (h s ws hws w hw) s')

lemma keeps_createDatabasePrivilege (p : CatalogDatabasePrivilege) :
    Action.Keeps Wider (JdbcCatalog.createDatabasePrivilege p caller now) := by
  apply keeps_of_writes now (fun _ => Adds.wider) (.createDatabasePrivilege p)
  intro s ws hws w hw
  cases hws with
  | idle => exact absurd hw List.not_mem_nil
  | createDatabasePrivilege =>
    obtain ⟨e, _, rfl⟩ := List.mem_map.mp hw
    exact .insert (.inl rfl) e

lemma keeps_createTablePrivilege (p : CatalogTablePrivilege) :
    Action.Keeps Wider (JdbcCatalog.createTablePrivilege p caller now) := by
  apply keeps_of_writes now (fun _ => Adds.wider) (.createTablePrivilege p)
  intro s ws hws w hw
  cases hws with
  | idle => exact absurd hw List.not_mem_nil
  | createTablePrivilege =>
    obtain ⟨e, _, rfl⟩ := List.mem_map.mp hw
    exact .insert (.inr (.inl rfl)) e

lemma keeps_createColumnPrivilege (p : CatalogColumnPrivilege) :
    Action.Keeps Wider (JdbcCatalog.createColumnPrivilege p caller now) := by
  apply keeps_of_writes now (fun _ => Adds.wider) (.createColumnPrivilege p)
  intro s ws hws w hw
  cases hws with
  | idle => exact absurd hw List.not_mem_nil
  | createColumnPrivilege =>
    obtain ⟨e, _, rfl⟩ := List.mem_map.mp hw
    exact .insert (.inr (.inr rfl)) e

lemma keeps_dropDatabasePrivilege (user database : String) (privileges : List String) :
    Action.Keeps Narrower
      (JdbcCatalog.dropDatabasePrivilege user database privileges caller) := by
  apply keeps_of_writes 0 (fun _ => Removes.narrower)
    (.dropDatabasePrivilege user database privileges)
  intro s ws hws w hw
  cases hws with
  | idle => exact absurd hw List.not_mem_nil
  | dropDatabasePrivilege =>
    rw [List.mem_singleton.mp hw]
    exact .delete (.inl rfl) _

lemma keeps_dropTablePrivilege (user database table : String) (privileges : List String) :
    Action.Keeps Narrower
      (JdbcCatalog.dropTablePrivilege user database table privileges caller) := by
  apply keeps_of_writes 0 (fun _ => Removes.narrower)
    (.dropTablePrivilege user database table privileges)
  intro s ws hws w hw
  cases hws with
  | idle => exact absurd hw List.not_mem_nil
  | dropTablePrivilege =>
    rw [List.mem_singleton.mp hw]
    exact .delete (.inr (.inl rfl)) _

lemma keeps_dropColumnPrivilege (user database table : String)
    (privileges : List (String × List String)) :
    Action.Keeps Narrower
      (JdbcCatalog.dropColumnPrivilege user database table privileges caller) := by
  apply keeps_of_writes 0 (fun _ => Removes.narrower)
    (.dropColumnPrivilege user database table privileges)
  intro s ws hws w hw
  cases hws with
  | idle => exact absurd hw List.not_mem_nil
  | dropColumnPrivilege =>
    obtain ⟨x, _, rfl⟩ := List.mem_map.mp hw
    exact .delete (.inr (.inr rfl)) _

end Operations

/-! ### What commands do -/

namespace Command

/-- A command that reads, or that gives privileges on resources. To revoke privileges on a table
from a group creates them. -/
def Gives : Command → Prop
  | grantResourceToUser .. | grantResourceToGroup .. => True
  | revokeResourceFromGroup privileges tableIdentifier _ =>
    tableIdentifier.table ≠ "*" ∧ ∀ p ∈ privileges.1, p.isColumnLevel = false
  | cmd => cmd.writes = []

/-- A command that reads, or that takes privileges on resources. -/
def Takes : Command → Prop
  | revokeResourceFromUser .. => True
  | revokeResourceFromGroup privileges tableIdentifier _ =>
    tableIdentifier.table = "*" ∨ ∀ p ∈ privileges.1, p.isColumnLevel = true
  | cmd => cmd.writes = []

end Command

section Commands

variable [Names] {env : Env} {catalog : MoonboxCatalog} {now : Nat} {R : Store → Store → Prop}
  [Std.Refl R] [IsTrans Store R]

/-- Which of the three levels a command comes to. -/
lemma keeps_onResource {privileges : List ResourcePrivilege} {tableIdentifier : TableIdentifier}
    {onDatabase : String → DBIO Unit}
    {onTable onColumns : String → String → List ResourcePrivilege → DBIO Unit}
    (hdatabase : tableIdentifier.table = "*" → ∀ db, Action.Keeps R (onDatabase db))
    (htable : tableIdentifier.table ≠ "*" → (∃ p ∈ privileges, p.isColumnLevel = false) →
      ∀ db table ps, Action.Keeps R (onTable db table ps))
    (hcolumns : tableIdentifier.table ≠ "*" → (∃ p ∈ privileges, p.isColumnLevel = true) →
      ∀ db table ps, Action.Keeps R (onColumns db table ps)) :
    Action.Keeps R
      (onResource catalog privileges tableIdentifier onDatabase onTable onColumns) := by
  unfold onResource
  simp only
  split
  · split
    · exact .throw _
    · next hno =>
      have hall : tableIdentifier.table = "*" := by
        by_contra hne
        exact hno (.inl hne)
      exact keeps_listDatabases.bind fun dbs => .forEach (fun d => hdatabase hall d.name) dbs
  split
  · next hall =>
    apply (keeps_requireDbExists _).bind
    intro _
    exact .ite (.throw _) (hdatabase hall _)
  · next hne =>
    apply (keeps_requireDbExists _).bind
    intro _
    apply (keeps_requireTableExists _ _).bind
    intro _
    have hend : Action.Keeps R
        (if (privileges.span fun p => !p.isColumnLevel).2 ≠ [] then
          onColumns (catalog.databaseOf tableIdentifier.database) tableIdentifier.table privileges
        else pure ()) := by
      split
      · next hnonempty =>
        rw [List.span_eq_takeWhile_dropWhile, ne_eq, List.dropWhile_eq_nil_iff] at hnonempty
        exact hcolumns hne (by simpa using hnonempty) _ _ _
      · exact .pure ()
    split
    · next hnonempty =>
      rw [List.span_eq_takeWhile_dropWhile] at hnonempty
      obtain ⟨p, hp⟩ := List.exists_mem_of_ne_nil _ hnonempty
      have hlevel := List.mem_takeWhile_imp hp
      have hsome := List.takeWhile_subset _ hp
      exact (htable hne ⟨p, hsome, by simpa using hlevel⟩ _ _ _).bind fun _ => hend
    · exact hend

lemma keeps_forUser (user : String) {m : DBIO Unit} (h : Action.Keeps R m) :
    Action.Keeps R (do
      MoonboxCatalog.requireUserExists catalog.getCurrentOrg user
      m) := (keeps_requireUserExists _ user).bind fun _ => h

lemma keeps_forGroup (group : String) {m : List String → DBIO Unit}
    (h : ∀ users, Action.Keeps R (m users)) :
    Action.Keeps R (do
      let users ← catalog.listUserInGroup group
      Action.forEach (MoonboxCatalog.requireUserExists catalog.getCurrentOrg) users
      m users) := by
  apply (keeps_listUserInGroup _).bind
  intro users
  exact (Action.Keeps.forEach (fun user => keeps_requireUserExists _ user) users).bind fun _ =>
    h users

/-- The columns are looked up before they are written. -/
lemma keeps_forColumns (table db onSelect onUpdate : String) (ps : List ResourcePrivilege)
    {m : List (String × String) → DBIO Unit} (h : ∀ columns, Action.Keeps R (m columns)) :
    Action.Keeps R (do
      let schema ← tableSchema env catalog table db
      let columns ← columnsOf onSelect onUpdate ps
      requireColumns columns schema
      m columns) := by
  apply (keeps_tableSchema _ _ _).bind
  intro schema
  apply (keeps_columnsOf _ _ _).bind
  intro columns
  exact (keeps_requireColumns _ _).bind fun _ => h columns

lemma wider_GrantResourceToUser (privileges : List ResourcePrivilege)
    (tableIdentifier : TableIdentifier) (user : String) :
    Action.Keeps Wider
      (GrantResourceToUser.run env catalog now privileges tableIdentifier user) := by
  apply keeps_forUser user
  apply keeps_onResource
  · exact fun _ db => keeps_createDatabasePrivilege _
  · exact fun _ _ db table ps => keeps_createTablePrivilege _
  · exact fun _ _ db table ps => keeps_forColumns table db _ _ ps fun columns =>
      keeps_createColumnPrivilege _

lemma wider_GrantResourceToGroup (privileges : List ResourcePrivilege)
    (tableIdentifier : TableIdentifier) (group : String) :
    Action.Keeps Wider
      (GrantResourceToGroup.run env catalog now privileges tableIdentifier group) := by
  apply keeps_forGroup group
  intro users
  apply keeps_onResource
  · exact fun _ db => .forEach (fun user => keeps_createDatabasePrivilege _) users
  · exact fun _ _ db table ps => .forEach (fun user => keeps_createTablePrivilege _) users
  · exact fun _ _ db table ps => keeps_forColumns table db _ _ ps fun columns =>
      .forEach (fun user => keeps_createColumnPrivilege _) users

lemma narrower_RevokeResourceFromUser (privileges : List ResourcePrivilege)
    (tableIdentifier : TableIdentifier) (user : String) :
    Action.Keeps Narrower
      (RevokeResourceFromUser.run catalog privileges tableIdentifier user) := by
  apply keeps_forUser user
  apply keeps_onResource
  · exact fun _ db => keeps_dropDatabasePrivilege user db _
  · exact fun _ _ db table ps => keeps_dropTablePrivilege user db table _
  · exact fun _ _ db table ps => (keeps_columnsOf _ _ ps).bind fun columns =>
      keeps_dropColumnPrivilege user db table _

/-- Only privileges on the table are named. -/
lemma wider_RevokeResourceFromGroup {privileges : List ResourcePrivilege}
    {tableIdentifier : TableIdentifier} (htable : tableIdentifier.table ≠ "*")
    (hlevel : ∀ p ∈ privileges, p.isColumnLevel = false) (group : String) :
    Action.Keeps Wider
      (RevokeResourceFromGroup.run env catalog now privileges tableIdentifier group) := by
  apply keeps_forGroup group
  intro users
  apply keeps_onResource
  · exact fun hall => absurd hall htable
  · exact fun _ _ db table ps => .forEach (fun user => keeps_createTablePrivilege _) users
  · rintro _ ⟨p, hp, hcolumn⟩
    rw [hlevel p hp] at hcolumn
    cases hcolumn

/-- No privilege on the table is named. -/
lemma narrower_RevokeResourceFromGroup {privileges : List ResourcePrivilege}
    {tableIdentifier : TableIdentifier}
    (h : tableIdentifier.table = "*" ∨ ∀ p ∈ privileges, p.isColumnLevel = true)
    (group : String) :
    Action.Keeps Narrower
      (RevokeResourceFromGroup.run env catalog now privileges tableIdentifier group) := by
  apply keeps_forGroup group
  intro users
  apply keeps_onResource
  · exact fun _ db => .forEach (fun user => keeps_dropDatabasePrivilege user db _) users
  · rintro hne ⟨p, hp, htable⟩
    rw [h.resolve_left hne p hp] at htable
    cases htable
  · exact fun _ _ db table ps => keeps_forColumns table db _ _ ps fun columns =>
      .forEach (fun user => keeps_dropColumnPrivilege user db table _) users

omit [IsTrans Store R] in
lemma keeps_of_reads {cmd : Command} (h : cmd.writes = []) :
    Action.Keeps R (cmd.run env catalog now) := by
  apply Action.Keeps.of_exec
  intro s
  have hwithin := Command.run_within env catalog now cmd
  rw [h] at hwithin
  rw [hwithin.eq s]
  exact Std.Refl.refl s

lemma wider_run {cmd : Command} (h : cmd.Gives) :
    Action.Keeps Wider (cmd.run env catalog now) := by
  cases cmd with
  | grantResourceToUser privileges tableIdentifier user =>
    exact (wider_GrantResourceToUser _ _ user).bind fun _ => .pure _
  | grantResourceToGroup privileges tableIdentifier group =>
    exact (wider_GrantResourceToGroup _ _ group).bind fun _ => .pure _
  | revokeResourceFromGroup privileges tableIdentifier group =>
    exact (wider_RevokeResourceFromGroup h.1 h.2 group).bind fun _ => .pure _
  | _ => exact keeps_of_reads h

lemma narrower_run {cmd : Command} (h : cmd.Takes) :
    Action.Keeps Narrower (cmd.run env catalog now) := by
  cases cmd with
  | revokeResourceFromUser privileges tableIdentifier user =>
    exact (narrower_RevokeResourceFromUser _ _ user).bind fun _ => .pure _
  | revokeResourceFromGroup privileges tableIdentifier group =>
    exact (narrower_RevokeResourceFromGroup h group).bind fun _ => .pure _
  | _ => exact keeps_of_reads h

end Commands

/-! ### Runs -/

/-- A session is opened, reads or gives privileges on resources. -/
def Event.Gives : Event → Prop
  | .login .. => True
  | .command _ cmd _ => cmd.Gives
  | .elsewhere .. => False

/-- A session is opened, reads or takes privileges on resources. -/
def Event.Takes : Event → Prop
  | .login .. => True
  | .command _ cmd _ => cmd.Takes
  | .elsewhere .. => False

section Runs

variable [Names] {env : Env} {R : Store → Store → Prop} [Std.Refl R] [IsTrans Store R]

lemma store_login (s : OpenSessions) (org user : String) : (s.login org user).store = s.store := by
  have hlogin := wp_login org user s.store
  unfold OpenSessions.login
  rw [Action.wp, Actor.Handler.wp] at hlogin
  split
  · next hrun =>
    rw [hrun] at hlogin
    exact hlogin.1
  · next hrun =>
    rw [hrun] at hlogin
    exact hlogin

omit [IsTrans Store R] in
lemma keeps_command (s : OpenSessions) (i : Nat) {cmd : Command} {now : Nat}
    (h : ∀ catalog, Action.Keeps R (cmd.run env catalog now)) :
    R s.store (s.command env i cmd now).store := by
  unfold OpenSessions.command
  cases s.sessions[i]? with
  | none =>
    show R s.store s.store
    exact Std.Refl.refl s.store
  | some catalog =>
    simp only
    cases CommandChecker.check env cmd catalog with
    | error _ =>
      show R s.store s.store
      exact Std.Refl.refl s.store
    | ok _ =>
      have hrun : R s.store ((cmd.run env catalog now).run s.store).2 := (h catalog).exec s.store
      cases hresult : (cmd.run env catalog now).run s.store with
      | mk r store =>
        rw [hresult] at hrun
        cases r with
        | error _ => simpa only [hresult] using hrun
        | ok _ => simpa only [hresult] using hrun

lemma Event.Gives.wider {event : Event} (h : event.Gives) (s : OpenSessions) :
    Wider s.store (s.step env event).store := by
  cases event with
  | login org user =>
    rw [OpenSessions.step, store_login]
    exact Std.Refl.refl s.store
  | command i cmd now => exact keeps_command s i fun catalog => wider_run h
  | elsewhere op caller now => exact h.elim

lemma Event.Takes.narrower {event : Event} (h : event.Takes) (s : OpenSessions) :
    Narrower s.store (s.step env event).store := by
  cases event with
  | login org user =>
    rw [OpenSessions.step, store_login]
    exact Std.Refl.refl s.store
  | command i cmd now => exact keeps_command s i fun catalog => narrower_run h
  | elsewhere op caller now => exact h.elim

/-- What every step of a run keeps. -/
lemma keeps_run {P : Event → Prop} {events : List Event}
    (hstep : ∀ e, P e → ∀ s : OpenSessions, R s.store (s.step env e).store)
    (hevents : ∀ e ∈ events, P e) (s : OpenSessions) : R s.store (s.run env events).store := by
  induction events generalizing s with
  | nil => exact Std.Refl.refl s.store
  | cons e events ih =>
    have hfirst := hstep e (hevents e List.mem_cons_self) s
    have hrest := ih (fun e' he' => hevents e' (List.mem_cons_of_mem e he')) (s.step env e)
    exact IsTrans.trans _ _ _ hfirst hrest

lemma allows_of_wider {s s' : Store} (h : Wider s s') {catalog : MoonboxCatalog}
    {plan : LogicalPlan} (hallows : allows s catalog plan = true) :
    allows s' catalog plan = true := by
  rw [PrivilegeAnalysis.allows_iff_accepts] at hallows ⊢
  exact hallows.imp_right fun haccepts => haccepts.wider h

/-- However sessions give privileges on resources, to users or to groups and whether or not the
commands go through, no plan that was let through is refused. However they take them, none that was
refused is let through. -/
theorem plans_follow_grants (env : Env) (s : OpenSessions) (events : List Event)
    (catalog : MoonboxCatalog) (plan : LogicalPlan) :
    ((∀ e ∈ events, e.Gives) → allows s.store catalog plan = true →
      allows (s.run env events).store catalog plan = true) ∧
    ((∀ e ∈ events, e.Takes) → allows (s.run env events).store catalog plan = true →
      allows s.store catalog plan = true) := by
  constructor
  · intro hgives
    exact allows_of_wider (keeps_run (fun _ => Event.Gives.wider) hgives s)
  · intro htakes
    exact allows_of_wider (keeps_run (R := Narrower) (fun _ => Event.Takes.narrower) htakes s)

end Runs

/-- `SELECT a FROM t` -/
def selectFromT : LogicalPlan :=
  .node [.attribute ⟨1, "a"⟩] [⟨1, "a"⟩] [.catalogRelation { table := "t" } [⟨1, "a"⟩, ⟨2, "b"⟩]]

/-- What bob may not read he may read when it is revoked from a group he is in. -/
example :
    let _ := exactNames
    let sa := { sessionOfSa with catalogUser := { sessionOfSa.catalogUser with dcl := true } }
    let revoke : Event :=
      .command 0 (.revokeResourceFromGroup ⟨[.select], by decide⟩ { table := "t" } "g") 3
    let s : OpenSessions := ⟨groupOfBob, [sa]⟩
    allows s.store sessionOfBob selectFromT = false ∧
      allows (s.run plainEnv [revoke]).store sessionOfBob selectFromT = true := by
  decide +kernel

end Moonbox.Core
