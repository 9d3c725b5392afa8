import Moonbox.Core.Writes
import Moonbox.Lib.Frames

/-!
# Definitions

What an engine can be told of a table, a view or a function of the catalog, and which definitions
an operation of the catalog leaves as they are: all but those under the names that it is about.
-/

namespace Moonbox.Core

open Catalog Relational

/-! ### Reading a definition -/

inductive TableDefinition
  | view (text : String)
  | table (properties : Properties)
  deriving DecidableEq, Repr

structure FunctionDefinition where
  className : String
  methodName : Option String
  resources : List FunctionResource
  deriving DecidableEq, Repr

/-- A view without a text is none. -/
def definitionOf (t : TableEntity) : Option TableDefinition :=
  if t.tableType = CatalogTableType.VIEW then t.viewText.map .view else some (.table t.properties)

def functionResources (s : Store) (f : FunctionEntity) : List FunctionResource :=
  ((s .functionResources).rows.filter fun r => r.funcId == f.id).map fun r =>
    ⟨r.resourceType, r.resource⟩

def functionDefinitionOf (s : Store) (f : FunctionEntity) : FunctionDefinition :=
  ⟨f.className, f.methodName, functionResources s f⟩

variable [Names]

/-- The definition of the table or view under a name, in the databases of an organization. -/
def tableDefinition (s : Store) (orgId : Nat) (db name : String) : Option TableDefinition :=
  (Store.database s orgId db).bind fun e => (Store.table s e.id name).bind definitionOf

def functionDefinition (s : Store) (orgId : Nat) (db name : String) : Option FunctionDefinition :=
  (Store.database s orgId db).bind fun e =>
    (Store.function s e.id name).map (functionDefinitionOf s)

/-! ### Keeping definitions -/

/-- Names, by organization, database and name: of tables and views, and of functions. -/
structure Target where
  table : Nat → String → String → Prop
  function : Nat → String → String → Prop

namespace Target

def none : Target := ⟨fun _ _ _ => False, fun _ _ _ => False⟩

/-- All in a database. -/
def inDatabase (caller : User) (db : String) : Target :=
  ⟨fun orgId db' _ => orgId = caller.orgId ∧ sameName db' (JdbcCatalog.formatDatabaseName db) = true,
    fun orgId db' _ =>
      orgId = caller.orgId ∧ sameName db' (JdbcCatalog.formatDatabaseName db) = true⟩

def ofTable (caller : User) (db table : String) : Target :=
  ⟨fun orgId db' name => orgId = caller.orgId ∧ sameName db' db = true ∧
    sameName name table = true, fun _ _ _ => False⟩

def ofFunction (caller : User) (db func : String) : Target :=
  ⟨fun _ _ _ => False, fun orgId db' name => orgId = caller.orgId ∧ sameName db' db = true ∧
    sameName name func = true⟩

end Target

/-- Every definition under a name outside the target is still there. -/
structure KeepsDefinitions (T : Target) (s s' : Store) : Prop where
  table : ∀ orgId db name d, ¬ T.table orgId db name →
    tableDefinition s orgId db name = some d → tableDefinition s' orgId db name = some d
  function : ∀ orgId db name d, ¬ T.function orgId db name →
    functionDefinition s orgId db name = some d → functionDefinition s' orgId db name = some d

variable {T : Target} {s s' : Store} {caller : User} {now : Nat}

instance : Std.Refl (KeepsDefinitions T) where
  refl _ := ⟨fun _ _ _ _ _ h => h, fun _ _ _ _ _ h => h⟩

instance : IsTrans Store (KeepsDefinitions T) where
  trans _ _ _ h h' :=
    ⟨fun orgId db name d hT hd => h'.table orgId db name d hT (h.table orgId db name d hT hd),
      fun orgId db name d hT hd =>
        h'.function orgId db name d hT (h.function orgId db name d hT hd)⟩

lemma KeepsDefinitions.mono {T' : Target} (h : KeepsDefinitions T s s')
    (htable : ∀ orgId db name, T.table orgId db name → T'.table orgId db name)
    (hfunction : ∀ orgId db name, T.function orgId db name → T'.function orgId db name) :
    KeepsDefinitions T' s s' :=
  ⟨fun orgId db name d hT => h.table orgId db name d fun h => hT (htable orgId db name h),
    fun orgId db name d hT => h.function orgId db name d fun h => hT (hfunction orgId db name h)⟩

/-- It is enough that the rows that are found are found again. -/
lemma keepsDefinitions_of_rows
    (hdb : ∀ orgId db e, Store.database s orgId db = some e →
      ((∃ t name, Store.table s e.id name = some t ∧ ¬ T.table orgId db name) ∨
        ∃ f name, Store.function s e.id name = some f ∧ ¬ T.function orgId db name) →
      ∃ e', Store.database s' orgId db = some e' ∧ e'.id = e.id)
    (htable : ∀ orgId db name e t, Store.database s orgId db = some e →
      Store.table s e.id name = some t → ¬ T.table orgId db name →
      Store.table s' e.id name = some t)
    (hfunction : ∀ orgId db name e f, Store.database s orgId db = some e →
      Store.function s e.id name = some f → ¬ T.function orgId db name →
      Store.function s' e.id name = some f ∧ functionResources s' f = functionResources s f) :
    KeepsDefinitions T s s' := by
  constructor
  · intro orgId db name d hT hd
    simp only [tableDefinition, Option.bind_eq_some_iff] at hd ⊢
    obtain ⟨e, he, t, ht, hd⟩ := hd
    obtain ⟨e', he', hid⟩ := hdb orgId db e he (.inl ⟨t, name, ht, hT⟩)
    exact ⟨e', he', t, hid ▸ htable orgId db name e t he ht hT, hd⟩
  · intro orgId db name d hT hd
    simp only [functionDefinition, Option.bind_eq_some_iff, Option.map_eq_some_iff] at hd ⊢
    obtain ⟨e, he, f, hf, rfl⟩ := hd
    obtain ⟨e', he', hid⟩ := hdb orgId db e he (.inr ⟨f, name, hf, hT⟩)
    obtain ⟨hf', hresources⟩ := hfunction orgId db name e f he hf hT
    exact ⟨e', he', f, hid ▸ hf', by rw [functionDefinitionOf, functionDefinitionOf, hresources]⟩

/-! ### Operations of the catalog -/

lemma keeps_operation (op : Operation) (now : Nat)
    (h : ∀ s ws, Effect caller now s op ws → KeepsDefinitions T s (execAll ws s)) :
    Action.Keeps (KeepsDefinitions T) (op.action caller now) := by
  refine .of_exec fun s => ?_
  obtain ⟨ws, heffect, hexec⟩ := op.exec_effect caller now s
  rw [Operation.exec] at hexec
  rw [hexec]
  exact h s ws heffect

/-- A write that leaves databases alone leaves them findable. -/
lemma database_of_same (h : s' .databases = s .databases) {orgId : Nat} {db : String}
    {e : DatabaseEntity} (he : Store.database s orgId db = some e) :
    ∃ e', Store.database s' orgId db = some e' ∧ e'.id = e.id :=
  ⟨e, by rwa [Store.database, h], rfl⟩

lemma keeps_createDatabase (d : CatalogDatabase) (ign : Bool) :
    Action.Keeps (KeepsDefinitions T) (JdbcCatalog.createDatabase d ign caller now) := by
  refine keeps_operation (.createDatabase d ign) now fun s ws heffect => ?_
  cases heffect with
  | idle => exact Std.Refl.refl s
  | createDatabase free =>
    refine keepsDefinitions_of_rows (fun orgId db e he _ => ?_) (fun _ _ _ _ _ _ ht _ => ht)
      fun _ _ _ _ _ _ hf _ => ⟨hf, rfl⟩
    exact ⟨e, Table.find?_insert_of he, rfl⟩

lemma keeps_createTable (d : CatalogTable) (ign : Bool) :
    Action.Keeps (KeepsDefinitions T) (JdbcCatalog.createTable d ign caller now) := by
  refine keeps_operation (.createTable d ign) now fun s ws heffect => ?_
  cases heffect with
  | idle => exact Std.Refl.refl s
  | createTable hdb inDatabase free =>
    refine keepsDefinitions_of_rows (fun orgId db e he _ => database_of_same rfl he)
      (fun _ _ _ _ _ _ ht _ => ?_) fun _ _ _ _ _ _ hf _ => ⟨hf, rfl⟩
    exact Table.find?_insert_of ht

lemma sameName_of_sameName {a b c : String} (h : sameName a b = true) (h' : sameName a c = true) :
    sameName b c = true := by
  rw [sameName_iff] at h h' ⊢
  exact h.symm.trans h'

/-- Who looks up a database by two names has looked up names that are the same. -/
lemma database_unique {orgId orgId' : Nat} {db db' : String} {e e' : DatabaseEntity}
    (h : Store.database s orgId db = some e) (h' : Store.database s orgId' db' = some e')
    (hid : e.id = e'.id) : orgId = orgId' ∧ sameName db db' = true := by
  obtain ⟨hmem, horg, hname⟩ := Store.database_some h
  obtain ⟨hmem', horg', hname'⟩ := Store.database_some h'
  obtain rfl : e = e' := (s .databases).eq_of_id hmem hmem' hid
  exact ⟨horg.symm.trans horg', sameName_of_sameName hname hname'⟩

/-- The new resources are those of the new function. -/
lemma keeps_createFunction (d : CatalogFunction) (ign : Bool) :
    Action.Keeps (KeepsDefinitions T) (JdbcCatalog.createFunction d ign caller now) := by
  refine keeps_operation (.createFunction d ign) now fun s ws heffect => ?_
  cases heffect with
  | idle => exact Std.Refl.refl s
  | createFunction hdb inDatabase free =>
    rename_i db dbEntity
    rw [execAll_cons]
    have hsame : ∀ k, k ≠ .functionResources →
        execAll (Write.inserts .functionResources (d.resources.map
          (FunctionResourceEntity.ofResource (s .functions).nextId caller now)))
          ((Write.insert .functions (FunctionEntity.ofDefinition d dbEntity.id caller now)).exec s)
          k = (Write.insert .functions
            (FunctionEntity.ofDefinition d dbEntity.id caller now)).exec s k :=
      fun k hk => execAll_inserts_of_ne hk
    refine keepsDefinitions_of_rows (fun orgId db e he _ => ?_) (fun _ _ _ _ _ _ ht _ => ?_)
      fun _ _ _ _ f _ hf _ => ⟨?_, ?_⟩
    · exact database_of_same (hsame .databases (by decide)) he
    · rw [Store.table, hsame .tables (by decide)]
      exact ht
    · rw [Store.function, hsame .functions (by decide)]
      exact Table.find?_insert_of hf
    · -- The key of the new function is that of no function that there was.
      have hold := (s .functions).fresh f (Store.function_some hf).1
      rw [functionResources, functionResources]
      congr 1
      refine filter_execAll_inserts fun r hr n => ?_
      obtain ⟨resource, -, rfl⟩ := List.mem_map.mp hr
      exact beq_false_of_ne (Nat.ne_of_gt hold)

/-- The row of the database stays where it is. -/
lemma keeps_alterDatabase (d : CatalogDatabase) :
    Action.Keeps (KeepsDefinitions T) (JdbcCatalog.alterDatabase d caller now) := by
  refine keeps_operation (.alterDatabase d) now fun s ws heffect => ?_
  cases heffect with
  | idle => exact Std.Refl.refl s
  | alterDatabase found =>
    rename_i e
    obtain ⟨hmem, horg, hname⟩ := Store.database_some found
    refine keepsDefinitions_of_rows (fun orgId db e' he' _ => ?_) (fun _ _ _ _ _ _ ht _ => ht)
      fun _ _ _ _ _ _ hf _ => ⟨hf, rfl⟩
    refine ⟨_, Table.find?_update_row hmem ?_ he', ?_⟩
    · rw [sameName_iff] at hname
      show (caller.orgId == orgId && Names.collate (JdbcCatalog.formatDatabaseName d.name) ==
        Names.collate db) = (e.organizationId == orgId && Names.collate e.name == Names.collate db)
      rw [horg, hname]
    · split
      · rename_i hid
        exact (beq_iff_eq.mp hid).symm
      · rfl

/-- A database that is not the target is not the one that is found under the target's name. -/
lemma database_ne {db db' : String} {orgId : Nat} {e e' : DatabaseEntity}
    (found : Store.database s caller.orgId db = some e)
    (he' : Store.database s orgId db' = some e')
    (hT : ¬ (orgId = caller.orgId ∧ sameName db' db = true)) : e'.id ≠ e.id :=
  fun hid => hT (database_unique he' found hid)

lemma database_spared {db db' : String} {orgId : Nat} {e' : DatabaseEntity}
    (he' : Store.database s orgId db' = some e')
    (hT : ¬ (orgId = caller.orgId ∧ sameName db' db = true)) :
    (e'.organizationId == caller.orgId && sameName e'.name db) = false := by
  obtain ⟨-, horg, hname⟩ := Store.database_some he'
  rw [Bool.eq_false_iff, Ne, Bool.and_eq_true, beq_iff_eq, horg]
  exact fun h => hT ⟨h.1, sameName_of_sameName hname h.2⟩

/-- Whether a database is the target does not depend on what is found in it. -/
lemma not_inDatabase {db db' : String} {orgId dbId : Nat}
    (h : (∃ t name, Store.table s dbId name = some t ∧
        ¬ (Target.inDatabase caller db).table orgId db' name) ∨
      ∃ f name, Store.function s dbId name = some f ∧
        ¬ (Target.inDatabase caller db).function orgId db' name) :
    ¬ (orgId = caller.orgId ∧ sameName db' (JdbcCatalog.formatDatabaseName db) = true) := by
  rcases h with ⟨_, _, _, hT⟩ | ⟨_, _, _, hT⟩ <;> exact hT

lemma keeps_dropDatabase (database : String) (ign cascade : Bool) :
    Action.Keeps (KeepsDefinitions (.inDatabase caller database))
      (JdbcCatalog.dropDatabase database ign cascade caller) := by
  refine keeps_operation (.dropDatabase database ign cascade) 0
    fun s ws heffect => ?_
  cases heffect with
  | idle => exact Std.Refl.refl s
  | dropDatabaseCascade found =>
    refine keepsDefinitions_of_rows (fun orgId db' e' he' hT => ?_)
      (fun orgId db' name e' t he' ht hT => ?_) fun orgId db' name e' f he' hf hT => ⟨?_, rfl⟩
    · exact ⟨e', Table.find?_delete_of he' (database_spared he' (not_inDatabase hT)), rfl⟩
    · refine Table.find?_delete_of ht (beq_false_of_ne ?_)
      rw [(Store.table_some ht).2.1]
      exact database_ne found he' hT
    · refine Table.find?_delete_of hf (beq_false_of_ne ?_)
      rw [(Store.function_some hf).2.1]
      exact database_ne found he' hT
  | dropDatabase found _ _ =>
    refine keepsDefinitions_of_rows (fun orgId db' e' he' hT => ?_)
      (fun _ _ _ _ _ _ ht _ => ht) fun _ _ _ _ _ _ hf _ => ⟨hf, rfl⟩
    exact ⟨e', Table.find?_delete_of he' (database_spared he' (not_inDatabase hT)), rfl⟩

/-- The new name was free, so no other database is found under it. -/
lemma keeps_renameDatabase (db newDb : String) :
    Action.Keeps (KeepsDefinitions (.inDatabase caller db))
      (JdbcCatalog.renameDatabase db newDb caller now) := by
  refine keeps_operation (.renameDatabase db newDb) now fun s ws heffect => ?_
  cases heffect with
  | idle => exact Std.Refl.refl s
  | renameDatabase found free =>
    refine keepsDefinitions_of_rows (fun orgId db' e' he' hT => ?_)
      (fun _ _ _ _ _ _ ht _ => ht) fun _ _ _ _ _ _ hf _ => ⟨hf, rfl⟩
    refine ⟨e', Table.find?_update_of he' (database_spared he' (not_inDatabase hT))
      fun r hr hcond => ?_, rfl⟩
    obtain ⟨hmem, horg, hname⟩ := Store.database_some he'
    rw [Bool.and_eq_true, beq_iff_eq] at hcond
    show (r.organizationId == orgId && sameName (JdbcCatalog.formatDatabaseName newDb) db') = false
    rw [Bool.eq_false_iff, Ne, Bool.and_eq_true, beq_iff_eq]
    rintro ⟨horg', hname'⟩
    have hfree := Store.database_none free hmem (horg.trans (horg'.symm.trans hcond.1))
    rw [sameName_iff] at hname hname'
    rw [sameName, hname, hname', beq_self_eq_true] at hfree
    cases hfree

section Tables

variable {db table name : String} {orgId : Nat} {e dbEntity : DatabaseEntity}
  {t : TableEntity}

/-- A table that is not the target is not the one that is found under the target's name. -/
lemma table_spared {db' : String} (inDatabase : Store.database s caller.orgId db = some dbEntity)
    (he : Store.database s orgId db' = some e) (ht : Store.table s e.id name = some t)
    (hT : ¬ (orgId = caller.orgId ∧ sameName db' db = true ∧ sameName name table = true)) :
    (t.databaseId == dbEntity.id && sameName t.name table) = false := by
  obtain ⟨-, hid, hname⟩ := Store.table_some ht
  rw [Bool.eq_false_iff, Ne, Bool.and_eq_true, beq_iff_eq, hid]
  rintro ⟨hid, htable⟩
  obtain ⟨horg, hdb⟩ := database_unique he inDatabase hid
  exact hT ⟨horg, hdb, sameName_of_sameName hname htable⟩

lemma keeps_dropTable (db table : String) (ign : Bool) :
    Action.Keeps (KeepsDefinitions (.ofTable caller db table))
      (JdbcCatalog.dropTable db table ign caller) := by
  refine keeps_operation (.dropTable db table ign) 0 fun s ws heffect => ?_
  cases heffect with
  | idle => exact Std.Refl.refl s
  | dropTable inDatabase found =>
    refine keepsDefinitions_of_rows (fun _ _ e he _ => ⟨e, he, rfl⟩)
      (fun orgId db' name e t he ht hT => ?_) fun _ _ _ _ _ _ hf _ => ⟨hf, rfl⟩
    refine Table.find?_delete_of ht ?_
    rw [(Store.table_some found).2.1]
    exact table_spared inDatabase he ht hT

/-- The new name was free, so no other table is found under it. -/
lemma keeps_renameTable (db table newTable : String) :
    Action.Keeps (KeepsDefinitions (.ofTable caller db table))
      (JdbcCatalog.renameTable db table newTable caller now) := by
  refine keeps_operation (.renameTable db table newTable) now fun s ws heffect => ?_
  cases heffect with
  | idle => exact Std.Refl.refl s
  | renameTable inDatabase found free =>
    rename_i dbEntity _
    refine keepsDefinitions_of_rows (fun _ _ e he _ => ⟨e, he, rfl⟩)
      (fun orgId db' name e t he ht hT => ?_) fun _ _ _ _ _ _ hf _ => ⟨hf, rfl⟩
    refine Table.find?_update_of ht (table_spared inDatabase he ht hT) fun r hr hcond => ?_
    obtain ⟨hmem, hid, hname⟩ := Store.table_some ht
    rw [Bool.and_eq_true, beq_iff_eq] at hcond
    show (r.databaseId == e.id && sameName newTable name) = false
    rw [Bool.eq_false_iff, Ne, Bool.and_eq_true, beq_iff_eq]
    rintro ⟨hid', hname'⟩
    have hfree := Store.table_none free hmem (hid.trans (hid'.symm.trans hcond.1))
    rw [sameName_iff] at hname hname'
    rw [sameName, hname, hname', beq_self_eq_true] at hfree
    cases hfree

/-- The row stays where it is. -/
lemma keeps_alterTable (d : CatalogTable) {db : String} (hdb : d.db = some db) :
    Action.Keeps (KeepsDefinitions (.ofTable caller db d.name))
      (JdbcCatalog.alterTable d caller now) := by
  refine keeps_operation (.alterTable d) now fun s ws heffect => ?_
  cases heffect with
  | idle => exact Std.Refl.refl s
  | alterTable hdb' inDatabase found =>
    rename_i db' dbEntity t
    cases hdb.symm.trans hdb'
    obtain ⟨hmem, hid, hname⟩ := Store.table_some found
    refine keepsDefinitions_of_rows (fun _ _ e he _ => ⟨e, he, rfl⟩)
      (fun orgId db' name e t' he ht hT => ?_) fun _ _ _ _ _ _ hf _ => ⟨hf, rfl⟩
    refine (Table.find?_update_row hmem ?_ ht).trans ?_
    · rw [sameName_iff] at hname
      show (dbEntity.id == e.id && Names.collate d.name == Names.collate name) =
        (t.databaseId == e.id && Names.collate t.name == Names.collate name)
      rw [hid, hname]
    · have hne : (t'.id == t.id) = false := by
        refine beq_false_of_ne fun heq => ?_
        have hspared := table_spared inDatabase he ht hT
        rw [(s .tables).eq_of_id (Store.table_some ht).1 hmem heq, hid, hname] at hspared
        simp at hspared
      show some (if (t'.id == t.id) = true then _ else t') = some t'
      rw [hne, if_neg (by simp)]

end Tables

/-- The resources of the other functions stay. -/
lemma keeps_dropFunction (db func : String) (ign : Bool) :
    Action.Keeps (KeepsDefinitions (.ofFunction caller db func))
      (JdbcCatalog.dropFunction db func ign caller) := by
  refine keeps_operation (.dropFunction db func ign) 0 fun s ws heffect => ?_
  cases heffect with
  | idle => exact Std.Refl.refl s
  | dropFunction inDatabase found =>
    rename_i dbEntity f
    obtain ⟨hmem, hid, hname⟩ := Store.function_some found
    refine keepsDefinitions_of_rows (fun _ _ e he _ => ⟨e, he, rfl⟩)
      (fun _ _ _ _ _ _ ht _ => ht) fun orgId db' name e f' he hf hT => ?_
    obtain ⟨hmem', hid', hname'⟩ := Store.function_some hf
    have hspared : (f'.databaseId == dbEntity.id && sameName f'.name func) = false := by
      rw [Bool.eq_false_iff, Ne, Bool.and_eq_true, beq_iff_eq, hid']
      rintro ⟨heq, hfunc⟩
      obtain ⟨horg, hdb⟩ := database_unique he inDatabase heq
      exact hT ⟨horg, hdb, sameName_of_sameName hname' hfunc⟩
    refine ⟨Table.find?_delete_of hf hspared, congrArg _ (filter_delete fun r _ hr => ?_)⟩
    have hne : f'.id ≠ f.id := by
      intro heq
      rw [(s .functions).eq_of_id hmem' hmem heq, hid, hname] at hspared
      simp at hspared
    rw [beq_iff_eq] at hr
    exact beq_false_of_ne (hr ▸ hne.symm)

end Moonbox.Core
