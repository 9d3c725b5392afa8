import Moonbox.Core.IfExists

/-!
# What is dropped

For each command that drops, when its flag is heeded and just what it names is dropped. Along a run
the commands that drop and those that create honour their flags exactly if each does where it is
run.
-/

namespace Moonbox.Core

open Actor Catalog Relational

/-! ### What goes with a row -/

section Clears

variable {s : Store} {k k' : Kind}

lemma refersTo {e : Entity k'} {r : Entity k} {id : Nat} {scope : Option Nat}
    (h : Refers k' e k id scope) (hid : id = Row.id r) : references.RefersTo e r := by
  subst hid
  exact ⟨scope, h⟩

/-- A deletion by the key, after what refers to the row. -/
lemma withoutRow_delete_id {r : Entity k} {cond : Entity k → Bool} {ws : List (Write Entity)}
    (hws : ∀ w ∈ ws, references.Clears r w) (hr : r ∈ (s k).rows)
    (hcond : ∀ e, cond e = true ↔ Row.id e = Row.id r) :
    references.WithoutRow r s (execAll (ws ++ [.delete k cond]) s) := by
  rw [References.withoutRow_delete_iff hws hr ((hcond r).mpr rfl)]
  exact fun e he hc => (s k).eq_of_id he hr ((hcond e).mp hc)

/-- A deletion by the name, after what refers to the row. -/
lemma withoutRow_delete_iff_isOnly {r : Entity k} {cond : Entity k → Bool}
    {ws : List (Write Entity)} (hws : ∀ w ∈ ws, references.Clears r w) (hr : r ∈ (s k).rows)
    (hcond : cond r = true) :
    references.WithoutRow r s (execAll (ws ++ [.delete k cond]) s) ↔ IsOnly s k cond r :=
  References.withoutRow_delete_iff hws hr hcond

lemma clears_user (u : UserEntity) :
    ∀ w ∈ [Write.delete (E := Entity) .groupUserRels fun t : GroupUserRelEntity => t.userId == u.id,
      .delete .databasePrivileges fun t : DatabasePrivilegeEntity => t.userId == u.id,
      .delete .tablePrivileges fun t : TablePrivilegeEntity => t.userId == u.id,
      .delete .columnPrivileges fun t : ColumnPrivilegeEntity => t.userId == u.id],
      references.Clears (t := .users) u w := by
  simp only [List.forall_mem_cons, References.Clears, beq_iff_eq]
  exact ⟨⟨by simp, fun e he => refersTo (.relUser e) he⟩,
    ⟨by simp, fun e he => refersTo (.databasePrivilegeUser e) he⟩,
    ⟨by simp, fun e he => refersTo (.tablePrivilegeUser e) he⟩,
    ⟨by simp, fun e he => refersTo (.columnPrivilegeUser e) he⟩, List.forall_mem_nil _⟩

lemma clears_group (g : GroupEntity) :
    ∀ w ∈ [Write.delete (E := Entity) .groupUserRels fun t : GroupUserRelEntity =>
      t.groupId == g.id], references.Clears (t := .groups) g w := by
  simp only [List.forall_mem_cons, References.Clears, beq_iff_eq]
  exact ⟨⟨by simp, fun e he => refersTo (.relGroup e) he⟩, List.forall_mem_nil _⟩

lemma clears_organization (o : OrganizationEntity) :
    ∀ w ∈ [Write.delete (E := Entity) .databases fun t : DatabaseEntity => t.organizationId == o.id,
      .delete .users fun t : UserEntity => t.organizationId == o.id,
      .delete .timedEvents fun t : TimedEventEntity => t.organizationId == o.id,
      .delete .procedures fun t : ProcedureEntity => t.organizationId == o.id,
      .delete .queries fun t : QueryEntity => t.organizationId == o.id],
      references.Clears (t := .organizations) o w := by
  simp only [List.forall_mem_cons, References.Clears, beq_iff_eq]
  exact ⟨⟨by simp, fun e he => refersTo (.databaseOrganization e) he⟩,
    ⟨by simp, fun e he => refersTo (.userOrganization e) he⟩,
    ⟨by simp, fun e he => refersTo (.eventOrganization e) he⟩,
    ⟨by simp, fun e he => refersTo (.procedureOrganization e) he⟩,
    ⟨by simp, fun e he => refersTo (.queryOrganization e) he⟩, List.forall_mem_nil _⟩

lemma clears_database (d : DatabaseEntity) (cascade : Bool) :
    ∀ w ∈ (if cascade then
        [Write.delete (E := Entity) .functions fun t : FunctionEntity => t.databaseId == d.id,
          .delete .tables fun t : TableEntity => t.databaseId == d.id] else []),
      references.Clears (t := .databases) d w := by
  split
  · simp only [List.forall_mem_cons, References.Clears, beq_iff_eq]
    exact ⟨⟨by simp, fun e he => refersTo (.functionDatabase e) he⟩,
      ⟨by simp, fun e he => refersTo (.tableDatabase e) he⟩, List.forall_mem_nil _⟩
  · exact List.forall_mem_nil _

end Clears

/-! ### What is dropped -/

section Removals

variable [Names] {env : Env} {catalog : MoonboxCatalog} {now : Nat} {s : Store} {ign : Bool}
  {name : String}

lemma Command.honoursFlag_iff_of_removal {cmd : Command} {r : Removal}
    (hc : cmd.creation env catalog now s = none) (hr : cmd.removal catalog s = some r) :
    cmd.HonoursFlag env catalog now s ↔ r.Honoured (cmd.call env catalog now) s := by
  simp [HonoursFlag, hc, hr]

lemma honoured_dropUser_iff {org user : String} :
    (userRemoval s org user ign).Honoured
        (Action.awaited (keeping catalog (JdbcCatalog.dropUser org user ign))) s ↔
      (s.organization org = none → ign = false) := by
  simp only [Removal.Honoured, userRemoval, userOf, wpCall_keeping, JdbcCatalog.dropUser,
    Action.wp_bind, wp_organizationId]
  cases s.organization org with
  | none => simp
  | some o =>
    simp only [Option.bind_some, wp_getUser]
    cases hu : s.user o.id user with
    | none => cases ign <;> simp
    | some u =>
      refine iff_of_true ?_ (by simp)
      exact withoutRow_delete_id (clears_user u) (Store.user_some hu).1 fun e => beq_iff_eq

lemma honours_dropSa_iff {organization : String} :
    (Command.dropSa name organization ign).HonoursFlag env catalog now s ↔
      (Command.dropSa name organization ign).Heeds env catalog s :=
  (Command.honoursFlag_iff_of_removal rfl rfl).trans honoured_dropUser_iff

lemma honours_dropUser_iff :
    (Command.dropUser name ign).HonoursFlag env catalog now s ↔
      (Command.dropUser name ign).Heeds env catalog s :=
  (Command.honoursFlag_iff_of_removal rfl rfl).trans honoured_dropUser_iff

lemma honours_dropProcedure :
    (Command.dropProcedure name ign).HonoursFlag env catalog now s := by
  refine (Command.honoursFlag_iff_of_removal rfl rfl).mpr ?_
  simp only [Removal.Honoured, Command.call, Command.run, wpCall_keeping, DropProcedure.run,
    JdbcCatalog.dropProcedure, Action.wp_bind, wp_getProcedure]
  cases hp : s.procedure catalog.userInSession.orgId name with
  | none => cases ign <;> simp
  | some p =>
    simp only [Action.wp_bind, wp_timedEventExistsOf]
    split
    · rename_i hused
      obtain ⟨e, he, hc⟩ := List.any_eq_true.mp hused
      rw [Bool.and_eq_true, beq_iff_eq, beq_iff_eq] at hc
      exact ⟨⟨e, he, hc.2⟩, rfl⟩
    · exact withoutRow_delete_id (List.forall_mem_nil _) (Store.procedure_some hp).1
        fun e => beq_iff_eq

omit [Names] in
lemma exists_rel_of_members {groupId : Nat} (h : s.members groupId ≠ []) :
    ∃ rel ∈ (s .groupUserRels).rows, rel.groupId = groupId := by
  obtain ⟨user, huser⟩ := List.exists_mem_of_ne_nil _ h
  obtain ⟨rel, hrel, -⟩ := List.mem_flatMap.mp huser
  rw [List.mem_filter, beq_iff_eq] at hrel
  exact ⟨rel, hrel⟩

lemma honours_dropGroup {cascade : Bool} :
    (Command.dropGroup name ign cascade).HonoursFlag env catalog now s := by
  refine (Command.honoursFlag_iff_of_removal rfl rfl).mpr ?_
  simp only [Removal.Honoured, Command.call, Command.run, wpCall_keeping, DropGroup.run,
    JdbcCatalog.dropGroup, Action.wp_bind, wp_getGroup]
  cases hg : s.group catalog.userInSession.orgId name with
  | none => cases ign <;> simp
  | some g =>
    have hmem := (Store.group_some hg).1
    simp only [Action.wp_bind, wp_getGroupUserRelsByGroup]
    split
    · rename_i hrels
      cases cascade with
      | false =>
        refine ⟨⟨rfl, exists_rel_of_members ?_⟩, rfl⟩
        simpa using hrels
      | true => exact withoutRow_delete_id (clears_group g) hmem fun e => beq_iff_eq
    · exact withoutRow_delete_id (List.forall_mem_nil _) hmem fun e => beq_iff_eq

lemma honours_dropOrganization_iff {cascade : Bool} :
    (Command.dropOrganization name ign cascade).HonoursFlag env catalog now s ↔
      (Command.dropOrganization name ign cascade).Heeds env catalog s := by
  refine (Command.honoursFlag_iff_of_removal rfl rfl).trans ?_
  simp only [Removal.Honoured, Command.Heeds]
  cases cascade with
  | true =>
    simp only [Command.call, Command.run, wpCall_keeping, DropOrganization.run,
      JdbcCatalog.dropOrganization, Action.wp_bind, wp_getOrganization]
    cases ho : s.organization name with
    | none => cases ign <;> simp
    | some o =>
      obtain ⟨hmem, hname⟩ := Store.organization_some ho
      simp only [if_true, Option.mem_def, Option.some.injEq, forall_eq']
      exact withoutRow_delete_iff_isOnly (clears_organization o) hmem hname
  | false =>
    simp only [Command.call, DropOrganization.call, Action.wpCall, Action.wp_bind,
      wp_getOrganization]
    cases ho : s.organization name with
    | none => cases ign <;> simp
    | some o =>
      simp only [Bool.false_eq_true, if_false, Option.mem_def, Option.some.injEq, forall_eq']
      show (if (s.listDatabases o.id).isEmpty && (s.listUsers o.id).isEmpty &&
          (s.listTimedEvents o.id).isEmpty && (s.listProcedures o.id).isEmpty &&
          (s.listGroups o.id).isEmpty then pure (JdbcDao.deleteOrganization name)
        else .throw _ : DBIO <| DBIO Unit).wp _ _ s ↔ _
      split_ifs with hempty
      · refine iff_of_false (fun h => References.not_withoutRow_self (h s (.here _ _))) ?_
        simpa [Store.isSeenOrganization_iff, and_assoc] using hempty
      · have hseen : s.IsSeenOrganization o.id := by
          simpa [Store.isSeenOrganization_iff, and_assoc] using hempty
        exact iff_of_true ⟨⟨trivial, hseen.not_empty⟩, rfl⟩ hseen

/-- The database goes, with what is in it if it cascades, unless something in it is seen. -/
lemma wp_dropDatabase_found {cascade : Bool} {caller : User} {d : DatabaseEntity}
    {Q X : Store → Prop}
    (found : s.database caller.orgId (JdbcCatalog.formatDatabaseName name) = some d) :
    (JdbcCatalog.dropDatabase name ign cascade caller).wp (fun _ => Q) X s ↔
      (cascade = true ∨ ¬s.IsSeenDatabase d.id →
        Q (execAll ((if cascade then
            [.delete .functions fun t => t.databaseId == d.id,
              .delete .tables fun t => t.databaseId == d.id] else []) ++
          [.delete .databases fun e => e.organizationId == caller.orgId &&
            sameName e.name (JdbcCatalog.formatDatabaseName name)]) s)) ∧
      (cascade = false → s.IsSeenDatabase d.id → X s) := by
  simp only [JdbcCatalog.dropDatabase, Action.wp_bind, wp_getDatabase, found]
  cases cascade with
  | true =>
    simp only [true_or, true_imp_iff, if_true, reduceCtorEq, false_imp_iff, and_true]
    rfl
  | false =>
    simp only [Bool.false_eq_true, if_false, Action.wp_transactionally, false_or, true_imp_iff,
      Store.isSeenDatabase_iff, not_not]
    show (if (s.listTables d.id).isEmpty && (s.listFunctions d.id).isEmpty then
        JdbcDao.deleteDatabase caller.orgId (JdbcCatalog.formatDatabaseName name)
      else .throw _ : DBIO Unit).wp _ _ s ↔ _
    simp only [Action.wp_ite, Bool.and_eq_true, List.isEmpty_iff]
    split_ifs with hempty
    · simp only [hempty, true_imp_iff, not_true_eq_false, false_imp_iff, and_true]
      rfl
    · simp only [hempty, false_imp_iff, not_false_eq_true, true_imp_iff, true_and]
      rfl

/-- Both commands read the database first, and each refuses the kind of the other. -/
lemma honoured_dropDatabase_iff {isLogical cascade : Bool} (msg : String) :
    (databaseRemoval s catalog.userInSession.orgId name isLogical ign cascade).Honoured
        (Action.awaited (keeping catalog (do
          let existDatabase ← JdbcCatalog.getDatabase name catalog.userInSession
          if existDatabase.isLogical != isLogical then .throw msg
          else catalog.dropDatabase name ign cascade))) s ↔
      dropsDatabase s catalog.userInSession.orgId name isLogical ign cascade := by
  simp only [Removal.Honoured, databaseRemoval, dropsDatabase, wpCall_keeping, Action.wp_bind,
    JdbcCatalog.getDatabase, wp_getDatabase]
  cases hd : s.database catalog.userInSession.orgId (JdbcCatalog.formatDatabaseName name) with
  | none => cases ign <;> simp
  | some d =>
    simp only [Action.wp_bind, wp_userName]
    cases hcreator : creatorName s d.createBy with
    | none => simp
    | some creator =>
      simp only [Action.wp_purely, Option.isSome_some, if_true]
      by_cases hkind : d.isLogical = isLogical
      · by_cases hdefault : JdbcCatalog.formatDatabaseName name = DEFAULT_DATABASE
        · simp [hkind, hdefault, MoonboxCatalog.dropDatabase]
        · simp only [hkind, hdefault, MoonboxCatalog.dropDatabase, bne_self_eq_false,
            Bool.false_eq_true, if_false, wp_dropDatabase_found hd]
          obtain ⟨hmem, horg, hname⟩ := Store.database_some hd
          rw [withoutRow_delete_iff_isOnly (clears_database d cascade) hmem (by simp [horg, hname])]
          constructor
          · exact fun h _ _ => h.1
          · intro h
            refine ⟨h trivial hdefault, fun hcascade hseen => ?_⟩
            exact ⟨.inr (.inr ⟨hcascade, hseen.not_empty⟩), trivial⟩
      · simp [hkind]

lemma honours_unmountDatabase_iff {cascade : Bool} :
    (Command.unmountDatabase name ign cascade).HonoursFlag env catalog now s ↔
      (Command.unmountDatabase name ign cascade).Heeds env catalog s := by
  refine (Command.honoursFlag_iff_of_removal rfl rfl).trans ?_
  refine Iff.trans ?_ (honoured_dropDatabase_iff
    s!"Database {name} is logical. Please use DROP DATABASE command.")
  simp only [Bool.bne_false]
  exact Iff.rfl

lemma honours_dropDatabase_iff {cascade : Bool} :
    (Command.dropDatabase name ign cascade).HonoursFlag env catalog now s ↔
      (Command.dropDatabase name ign cascade).Heeds env catalog s := by
  refine (Command.honoursFlag_iff_of_removal rfl rfl).trans ?_
  refine Iff.trans ?_ (honoured_dropDatabase_iff
    s!"Database {name} is physical. Please use UNMOUNT DATABASE command.")
  simp only [Bool.bne_true]
  exact Iff.rfl

end Removals

/-! ### What is below a database -/

section Below

variable [Names] {env : Env} {catalog : MoonboxCatalog} {now : Nat} {s : Store} {ign : Bool}
  {db name : String} {caller : User} {Q X : Store → Prop}

omit [Names] in
lemma clears_table (t : TableEntity) :
    ∀ w ∈ [Write.delete (E := Entity) .tablePrivileges fun p : TablePrivilegeEntity =>
        p.databaseId == t.databaseId && p.tableId == t.id,
      .delete .columnPrivileges fun p : ColumnPrivilegeEntity =>
        p.databaseId == t.databaseId && p.tableId == t.id],
      references.Clears (t := .tables) t w := by
  simp only [List.forall_mem_cons, References.Clears, Bool.and_eq_true, beq_iff_eq]
  exact ⟨⟨by simp, fun e he => refersTo (.tablePrivilegeTable e) he.2⟩,
    ⟨by simp, fun e he => refersTo (.columnPrivilegeTable e) he.2⟩, List.forall_mem_nil _⟩

lemma wp_dropTable_iff {d : DatabaseEntity} (found : s.database caller.orgId db = some d) :
    (JdbcCatalog.dropTable db name ign caller).wp (fun _ => Q) X s ↔
      match s.table d.id name with
      | some t => Q (execAll
          ([.delete .tablePrivileges fun p => p.databaseId == t.databaseId && p.tableId == t.id,
            .delete .columnPrivileges fun p => p.databaseId == t.databaseId && p.tableId == t.id] ++
          [.delete .tables fun e => e.databaseId == d.id && sameName e.name name]) s)
      | none => if ign then Q s else X s := by
  simp only [JdbcCatalog.dropTable, Action.wp_bind, wp_getDatabase, found, wp_getTable]
  cases ht : s.table d.id name with
  | none => cases ign <;> rfl
  | some t =>
    obtain ⟨-, hdb, -⟩ := Store.table_some ht
    simp only [Action.wp_transactionally, hdb]
    rfl

omit [Names] in
lemma Removal.honoured_none {r : Removal} {call : DBIO <| DBIO Unit} (h : r.found = none) :
    r.Honoured call s ↔
      Action.wpCall call (fun s' => r.ignoreIfNotExists = true ∧ s' = s)
        (fun s' => r.ignoreIfNotExists = false ∧ s' = s) s := by
  rw [Removal.Honoured, h]

omit [Names] in
lemma Removal.honoured_some {r : Removal} {call : DBIO <| DBIO Unit} {e : Entity r.kind}
    (h : r.found = some e) :
    r.Honoured call s ↔
      Action.wpCall call (references.WithoutRow e s) (fun s' => r.refused e ∧ s' = s) s := by
  rw [Removal.Honoured, h]

/-- `UNMOUNT TABLE` gets as far as to look for its table, or fails. -/
lemma wp_unmountTable_iff {table : TableIdentifier} :
    (UnmountTable.run catalog table ign).wp (fun _ => Q) X s ↔
      match unmountsFrom s catalog.userInSession.orgId (catalog.databaseOf table.database) with
      | some _ =>
        (JdbcCatalog.dropTable (catalog.databaseOf table.database) table.table ign
          catalog.userInSession).wp (fun _ => Q) X s
      | none => X s := by
  simp only [UnmountTable.run, JdbcCatalog.getDatabase, Action.wp_bind, wp_getDatabase,
    unmountsFrom]
  cases hd : s.database catalog.userInSession.orgId
      (JdbcCatalog.formatDatabaseName (catalog.databaseOf table.database)) with
  | none => rfl
  | some d =>
    simp only [Action.wp_bind, wp_userName]
    obtain hcreator | ⟨creator, hcreator⟩ := Option.eq_none_or_eq_some (creatorName s d.createBy)
    · simp [hcreator]
    · obtain hlogical | hlogical := Bool.eq_false_or_eq_true d.isLogical
      · simp [hcreator, hlogical]
        cases hraw : s.database catalog.userInSession.orgId (catalog.databaseOf table.database) with
        | some d' => rfl
        | none => simp [JdbcCatalog.dropTable, hraw]
      · simp [hcreator, hlogical]

lemma unmountsFrom_some {orgId : Nat} {d : DatabaseEntity}
    (h : unmountsFrom s orgId db = some d) :
    s.database orgId db = some d ∧ ∀ d' ∈ s.database orgId (JdbcCatalog.formatDatabaseName db),
      d'.isLogical = true := by
  unfold unmountsFrom at h
  split at h
  · rename_i hany
    refine ⟨h, fun d' hd' => ?_⟩
    rw [hd', Option.any_some, Bool.and_eq_true] at hany
    exact hany.2
  · cases h

lemma tableIn_some {orgId : Nat} {t : TableEntity} (h : tableIn s orgId db name = some t) :
    ∃ d, s.database orgId (JdbcCatalog.formatDatabaseName db) = some d ∧
      s.table d.id name = some t := by
  rw [tableIn, Option.bind_eq_some_iff] at h
  exact h

lemma honours_unmountTable_iff {table : TableIdentifier} :
    (Command.unmountTable table ign).HonoursFlag env catalog now s ↔
      (Command.unmountTable table ign).Heeds env catalog s := by
  refine (Command.honoursFlag_iff_of_removal rfl rfl).trans ?_
  simp only [Command.Heeds]
  cases ht : tableIn s catalog.userInSession.orgId (catalog.databaseOf table.database)
      table.table with
  | none =>
    rw [Removal.honoured_none rfl]
    simp only [Command.call, Command.run, wpCall_keeping, wp_unmountTable_iff]
    cases hfrom : unmountsFrom s catalog.userInSession.orgId
        (catalog.databaseOf table.database) with
    | none => cases ign <;> simp
    | some d =>
      simp only [wp_dropTable_iff (unmountsFrom_some hfrom).1, Option.mem_def, Option.some.injEq,
        exists_eq_left', forall_eq']
      cases htable : s.table d.id table.table with
      | none => cases ign <;> simp
      | some t =>
        refine iff_of_false ?_ (by simp)
        rintro ⟨-, hsame⟩
        obtain ⟨hmem, hdb, hname⟩ := Store.table_some htable
        rw [← hsame, References.mem_execAll_delete (clears_table t)] at hmem
        simp [hdb, hname] at hmem
  | some t =>
    rw [Removal.honoured_some rfl]
    simp only [Command.call, Command.run, wpCall_keeping, wp_unmountTable_iff]
    obtain ⟨d, hd, htable⟩ := tableIn_some ht
    simp only [hd, Option.mem_def, Option.some.injEq, exists_eq_left']
    cases hfrom : unmountsFrom s catalog.userInSession.orgId
        (catalog.databaseOf table.database) with
    | none => simp
    | some d' =>
      obtain ⟨hraw, hlogical⟩ := unmountsFrom_some hfrom
      simp only [wp_dropTable_iff hraw, hlogical d hd, Bool.true_eq_false, false_or, false_and,
        Option.some.injEq]
      obtain ⟨hmem, hdb, hname⟩ := Store.table_some htable
      by_cases hsame : d' = d
      · subst hsame
        simp only [htable, true_and]
        exact withoutRow_delete_iff_isOnly (clears_table t) hmem (by simp [hdb, hname])
      · have hne : d'.id ≠ d.id := fun hid => hsame ((s .databases).eq_of_id
          (Store.database_some hraw).1 (Store.database_some hd).1 hid)
        refine iff_of_false ?_ fun h => hsame h.1
        cases s.table d'.id table.table with
        | none =>
          cases ign with
          | false => simp
          | true => simpa using References.not_withoutRow_self
        | some t' =>
          refine References.not_withoutRow_delete (clears_table t') ?_
          simp [hdb, hne.symm]

omit [Names] in
lemma clears_function (f : FunctionEntity) :
    ∀ w ∈ [Write.delete (E := Entity) .functionResources fun t : FunctionResourceEntity =>
      t.funcId == f.id], references.Clears (t := .functions) f w := by
  simp only [List.forall_mem_cons, References.Clears, beq_iff_eq]
  exact ⟨⟨by simp, fun e he => refersTo (.resourceFunction e) he⟩, List.forall_mem_nil _⟩

lemma wp_dropFunction_iff {d : DatabaseEntity} (found : s.database caller.orgId db = some d) :
    (JdbcCatalog.dropFunction db name ign caller).wp (fun _ => Q) X s ↔
      match s.function d.id name with
      | some f => Q (execAll ([.delete .functionResources fun t => t.funcId == f.id] ++
          [.delete .functions fun e => e.databaseId == d.id && sameName e.name name]) s)
      | none => if ign then Q s else X s := by
  simp only [JdbcCatalog.dropFunction, Action.wp_bind, wp_getDatabase, found, wp_getFunction]
  cases s.function d.id name with
  | none => cases ign <;> rfl
  | some f => rfl

/-- `DROP FUNCTION` looks for the database a second time, under the name it has read. -/
lemma wp_dropFunction_found_iff {function : FunctionIdentifier} {d : DatabaseEntity}
    (found : s.database catalog.userInSession.orgId
      (JdbcCatalog.formatDatabaseName (catalog.databaseOf function.database)) = some d) :
    (DropFunction.run catalog function ign).wp (fun _ => Q) X s ↔
      if (creatorName s d.createBy).isSome then
        if (s.database catalog.userInSession.orgId (JdbcCatalog.formatDatabaseName
            (JdbcCatalog.formatDatabaseName (catalog.databaseOf function.database)))).isSome then
          (JdbcCatalog.dropFunction
            (JdbcCatalog.formatDatabaseName (catalog.databaseOf function.database))
            function.funcName ign catalog.userInSession).wp (fun _ => Q) X s
        else Q s
      else X s := by
  simp only [DropFunction.run, JdbcCatalog.getDatabase, Action.wp_bind, wp_getDatabase, found,
    wp_userName, JdbcCatalog.databaseExists, Action.wp_purely]
  cases creatorName s d.createBy with
  | none => rfl
  | some creator =>
    simp only [wp_databaseExists, Option.isSome_some, if_true]
    cases (s.database catalog.userInSession.orgId (JdbcCatalog.formatDatabaseName
        (JdbcCatalog.formatDatabaseName (catalog.databaseOf function.database)))).isSome <;> rfl

lemma functionIn_some {orgId : Nat} {f : FunctionEntity}
    (h : functionIn s orgId db name = some f) :
    ∃ d, s.database orgId (JdbcCatalog.formatDatabaseName db) = some d ∧
      s.function d.id name = some f := by
  rw [functionIn, Option.bind_eq_some_iff] at h
  exact h

lemma honours_dropFunction_iff {function : FunctionIdentifier} :
    (Command.dropFunction function ign).HonoursFlag env catalog now s ↔
      (Command.dropFunction function ign).Heeds env catalog s := by
  refine (Command.honoursFlag_iff_of_removal rfl rfl).trans ?_
  simp only [Command.Heeds]
  cases hf : functionIn s catalog.userInSession.orgId (catalog.databaseOf function.database)
      function.funcName with
  | none =>
    rw [Removal.honoured_none rfl]
    simp only [Command.call, Command.run, wpCall_keeping]
    cases hd : s.database catalog.userInSession.orgId
        (JdbcCatalog.formatDatabaseName (catalog.databaseOf function.database)) with
    | none => cases ign <;> simp [DropFunction.run, JdbcCatalog.getDatabase, hd]
    | some d =>
      rw [functionIn, hd, Option.bind_some] at hf
      simp only [wp_dropFunction_found_iff hd, wp_dropFunction_iff hd, hf, Option.mem_def,
        Option.some.injEq, exists_eq_left', forall_eq']
      cases (creatorName s d.createBy).isSome <;> cases ign <;> simp
  | some f =>
    rw [Removal.honoured_some rfl]
    obtain ⟨d, hd, hfunction⟩ := functionIn_some hf
    obtain ⟨hmem, hdb, hname⟩ := Store.function_some hfunction
    simp only [Command.call, Command.run, wpCall_keeping, wp_dropFunction_found_iff hd,
      wp_dropFunction_iff hd, hfunction, hd, Option.mem_def, Option.some.injEq, exists_eq_left']
    rw [withoutRow_delete_iff_isOnly (clears_function f) hmem (by simp [hdb, hname])]
    split_ifs with hcreator hagain
    · simp [hcreator, hagain]
    · simp [hagain, References.not_withoutRow_self]
    · simp [hcreator]

/-- `DROP VIEW` reads its database and its view before it drops it. -/
lemma wp_dropView_found_iff {view : TableIdentifier} {d : DatabaseEntity} {t : TableEntity}
    (found : s.database catalog.userInSession.orgId
      (JdbcCatalog.formatDatabaseName (catalog.databaseOf view.database)) = some d)
    (there : s.table d.id view.table = some t) :
    (DropView.run catalog view ign).wp (fun _ => Q) X s ↔
      if (creatorName s d.createBy).isSome && (creatorName s t.createBy).isSome &&
          t.tableType == CatalogTableType.VIEW then
        (JdbcCatalog.dropTable
          (JdbcCatalog.formatDatabaseName (catalog.databaseOf view.database)) view.table ign
          catalog.userInSession).wp (fun _ => Q) X s
      else X s := by
  simp only [DropView.run, JdbcCatalog.getDatabase, Action.wp_bind, wp_getDatabase, found,
    wp_userName, Action.wp_purely, JdbcCatalog.getTable, wp_getTable, there]
  obtain hcreator | ⟨creator, hcreator⟩ := Option.eq_none_or_eq_some (creatorName s d.createBy)
  · simp [hcreator]
  · obtain howner | ⟨owner, howner⟩ := Option.eq_none_or_eq_some (creatorName s t.createBy)
    · simp [hcreator, howner]
    · by_cases htype : t.tableType = CatalogTableType.VIEW <;> simp [hcreator, howner, htype]

lemma honours_dropView_iff {view : TableIdentifier} :
    (Command.dropView view ign).HonoursFlag env catalog now s ↔
      (Command.dropView view ign).Heeds env catalog s := by
  refine (Command.honoursFlag_iff_of_removal rfl rfl).trans ?_
  simp only [Command.Heeds]
  cases ht : tableIn s catalog.userInSession.orgId (catalog.databaseOf view.database)
      view.table with
  | none =>
    rw [Removal.honoured_none rfl]
    simp only [Command.call, Command.run, wpCall_keeping, DropView.run, JdbcCatalog.getDatabase,
      Action.wp_bind, wp_getDatabase]
    cases hd : s.database catalog.userInSession.orgId
        (JdbcCatalog.formatDatabaseName (catalog.databaseOf view.database)) with
    | none => simp
    | some d =>
      rw [tableIn, hd, Option.bind_some] at ht
      simp only [Action.wp_bind, wp_userName, Action.wp_purely, JdbcCatalog.getTable,
        wp_getDatabase, hd, wp_getTable, ht]
      cases creatorName s d.createBy <;> simp
  | some t =>
    rw [Removal.honoured_some rfl]
    obtain ⟨d, hd, htable⟩ := tableIn_some ht
    obtain ⟨hmem, hdb, hname⟩ := Store.table_some htable
    simp only [Command.call, Command.run, wpCall_keeping, wp_dropView_found_iff hd htable,
      wp_dropTable_iff hd, htable, hd, Option.mem_def, Option.some.injEq, exists_eq_left']
    rw [withoutRow_delete_iff_isOnly (clears_table t) hmem (by simp [hdb, hname])]
    by_cases htype : t.tableType = CatalogTableType.VIEW
    · cases (creatorName s d.createBy).isSome <;> cases (creatorName s t.createBy).isSome <;>
        simp [htype]
    · simp [htype]

omit [Names] in
lemma wp_procedureName {procId : Nat} {Q : String → Store → Prop} :
    (JdbcCatalog.procedureName procId).wp Q X s ↔
      match (s .procedures).rows.find? fun p => p.id == procId with
      | some p => Q p.name s
      | none => X s := by
  rw [JdbcCatalog.procedureName, Action.wp_bind]
  apply Iff.trans (Action.wp_query _)
  cases (s .procedures).rows.find? (fun p => p.id == procId) <;> rfl

/-- `DROP EVENT` reads its event first. -/
lemma wp_dropTimedEvent_found_iff {e : TimedEventEntity}
    (found : s.timedEvent catalog.userInSession.orgId name = some e) :
    (DropTimedEvent.run catalog name ign).wp (fun _ => Q) X s ↔
      (IsNamed s e ∧ e.enable = false → Q (execAll [.delete .timedEvents fun e' =>
        e'.organizationId == catalog.userInSession.orgId && sameName e'.name name] s)) ∧
      (¬(IsNamed s e ∧ e.enable = false) → X s) := by
  have hprocedure : ((s .procedures).rows.any fun p => p.id == e.procedure) =
      ((s .procedures).rows.find? fun p => p.id == e.procedure).isSome := List.isSome_find?.symm
  simp only [DropTimedEvent.run, whileNotRunning, JdbcCatalog.getTimedEvent, Action.wp_bind,
    wp_getTimedEvent, found, wp_userName, wp_procedureName, IsNamed, hprocedure]
  obtain hdefiner | ⟨definer, hdefiner⟩ := Option.eq_none_or_eq_some (creatorName s e.definer)
  · simp [hdefiner]
  · obtain hproc | ⟨p, hproc⟩ := Option.eq_none_or_eq_some
      ((s .procedures).rows.find? fun p => p.id == e.procedure)
    · simp [hdefiner, hproc]
    · obtain hcreator | ⟨creator, hcreator⟩ := Option.eq_none_or_eq_some (creatorName s e.createBy)
      · simp [hdefiner, hproc, hcreator]
      · simp only [hdefiner, hproc, hcreator, Action.wp_purely, Option.isSome_some, true_and]
        cases henable : e.enable with
        | true => simp
        | false => simp [JdbcCatalog.dropTimedEvent, found]

lemma honours_dropTimedEvent_iff :
    (Command.dropTimedEvent name ign).HonoursFlag env catalog now s ↔
      (Command.dropTimedEvent name ign).Heeds env catalog s := by
  refine (Command.honoursFlag_iff_of_removal rfl rfl).trans ?_
  simp only [Command.Heeds]
  cases he : s.timedEvent catalog.userInSession.orgId name with
  | none =>
    rw [Removal.honoured_none rfl]
    simp only [Command.call, Command.run, wpCall_keeping, DropTimedEvent.run, whileNotRunning,
      JdbcCatalog.getTimedEvent, Action.wp_bind, wp_getTimedEvent, he]
    simp
  | some e =>
    rw [Removal.honoured_some rfl]
    obtain ⟨hmem, horg, hname⟩ := Store.timedEvent_some he
    simp only [Command.call, Command.run, wpCall_keeping, wp_dropTimedEvent_found_iff he]
    have honly : references.WithoutRow (t := .timedEvents) e s
        (execAll [.delete .timedEvents fun e' : TimedEventEntity =>
          e'.organizationId == catalog.userInSession.orgId && sameName e'.name name] s) ↔ _ :=
      withoutRow_delete_iff_isOnly (List.forall_mem_nil _) hmem (by simp [horg, hname])
    rw [honly]
    cases e.enable with
    | true => simp
    | false => by_cases hnamed : IsNamed s e <;> simp [hnamed]

end Below

/-! ### Runs -/

section Runs

variable [Names]

lemma Command.honoursFlag_of_neither {env : Env} {catalog : MoonboxCatalog} {now : Nat} {s : Store}
    {cmd : Command} (creates : cmd.creation env catalog now s = none)
    (drops : cmd.removal catalog s = none) : cmd.HonoursFlag env catalog now s := by
  simp [Command.HonoursFlag, creates, drops]

lemma Command.honoursFlag_iff (env : Env) (catalog : MoonboxCatalog) (now : Nat) (s : Store)
    (cmd : Command) : cmd.HonoursFlag env catalog now s ↔ cmd.Heeds env catalog s := by
  cases cmd
  case createOrganization => exact iff_of_true honours_createOrganization trivial
  case createSa => exact iff_of_true honours_createSa trivial
  case createUser => exact iff_of_true honours_createUser trivial
  case createDatabase => exact iff_of_true honours_createDatabase trivial
  case createProcedure => exact iff_of_true honours_createProcedure trivial
  case createTimedEvent => exact iff_of_true honours_createTimedEvent trivial
  case createGroup => exact iff_of_true honours_createGroup trivial
  case mountDatabase => exact honours_mountDatabase_iff
  case mountTable => exact honours_mountTable_iff
  case createFunction => exact honours_createFunction_iff
  case dropOrganization => exact honours_dropOrganization_iff
  case dropSa => exact honours_dropSa_iff
  case dropUser => exact honours_dropUser_iff
  case unmountDatabase => exact honours_unmountDatabase_iff
  case dropDatabase => exact honours_dropDatabase_iff
  case unmountTable => exact honours_unmountTable_iff
  case dropFunction => exact honours_dropFunction_iff
  case dropView => exact honours_dropView_iff
  case dropTimedEvent => exact honours_dropTimedEvent_iff
  case dropProcedure => exact iff_of_true honours_dropProcedure trivial
  case dropGroup => exact iff_of_true honours_dropGroup trivial
  all_goals exact iff_of_true (honoursFlag_of_neither rfl rfl) trivial

end Runs

end Moonbox.Core
