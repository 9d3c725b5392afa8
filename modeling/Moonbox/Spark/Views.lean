import Moonbox.Catalog.Effects
import Moonbox.Lib.Acyclic
import Moonbox.Lib.Runs
import Moonbox.Spark.SparkEngine

/-!
# Views

The texts that stand in the catalog make a graph: a view refers to what its text mentions. Which
database an unqualified name is in depends on the session that reads the text. The commands on
views redefine one view at a time.
-/

namespace Moonbox.Spark

open Catalog Moonbox.Core Fuel Relational Relation Graph

/-- A place for a table: a database and a name up to the collation. -/
abbrev Place := Nat × String

section Texts

variable [Names] {σ : Type} (spark : SparkSession σ) (s : Store)

/-- The text that is gone through when the table is registered: that of a view, here or in
Hive. -/
def textOf (t : TableEntity) : Option String :=
  if t.tableType = CatalogTableType.VIEW then t.viewText
  else if t.properties.lookup "type" = some "hive" then
    match spark.hiveTable t.properties with
    | .ok hiveTable => if hiveTable.isView then hiveTable.viewText else none
    | .error _ => none
  else none

/-- The table has its place there. -/
def isAt (v : Place) (t : TableEntity) : Bool :=
  t.databaseId == v.1 && Names.collate t.name == v.2

lemma isAt_iff {v : Place} {t : TableEntity} :
    isAt v t = true ↔ (t.databaseId, Names.collate t.name) = v := by
  rw [isAt, Bool.and_eq_true, beq_iff_eq, beq_iff_eq, Prod.ext_iff]

lemma table_eq_find? (dbId : Nat) (name : String) :
    Store.table s dbId name = (s .tables).rows.find? (isAt (dbId, Names.collate name)) := rfl

def textAt (v : Place) : Option String := ((s .tables).rows.find? (isAt v)).bind (textOf spark)

/-- The place that a name means in a session of the organization with this current database. -/
def place (orgId : Nat) (currentDb : String) (id : TableIdentifier) : Option Place :=
  (Store.database s orgId (id.database.getD currentDb)).map fun e => (e.id, Names.collate id.table)

variable [IgnoreCase]

/-- The engine looks for the name when it goes through the text. -/
def Mentions (text : String) (id : TableIdentifier) : Prop :=
  ∃ p q, spark.parsePlan text = .ok p ∧ Gives (fun fuel => rewrite fuel p) q ∧
    id ∈ unresolvedTables q

def Refers (orgId : Nat) (currentDb : String) (v w : Place) : Prop :=
  ∃ text id, textAt spark s v = some text ∧ Mentions spark text id ∧
    place s orgId currentDb id = some w

/-- The rewrite of the text ends, if it is one of a query. -/
def TextEnds (text : String) : Prop :=
  ∀ p, spark.parsePlan text = .ok p → ∃ q, Gives (fun fuel => rewrite fuel p) q

/-- No view refers to itself, directly or through others, and every text can be gone through. -/
structure Expandable : Prop where
  acyclic : ∀ orgId currentDb, Acyclic (Refers spark s orgId currentDb)
  textEnds : ∀ v text, textAt spark s v = some text → TextEnds spark text

variable {spark s} {orgId : Nat} {currentDb : String} {v w : Place}

lemma refers_finite : {v | ∃ w, Refers spark s orgId currentDb v w}.Finite := by
  refine Set.Finite.subset
    (List.finite_toSet ((s .tables).rows.map fun t => (t.databaseId, Names.collate t.name))) ?_
  rintro v ⟨w, text, id, htext, -⟩
  obtain ⟨t, ht, -⟩ := Option.bind_eq_some_iff.mp htext
  refine List.mem_map.mpr ⟨t, List.mem_of_find?_eq_some ht, ?_⟩
  exact isAt_iff.mp (List.find?_some ht)

omit [IgnoreCase] in
/-- A name means a place in a database of the organization. -/
lemma place_inOrg {id : TableIdentifier} (h : place s orgId currentDb id = some w) :
    ∃ e ∈ (s .databases).rows, e.id = w.1 ∧ e.organizationId = orgId := by
  obtain ⟨e, he, rfl⟩ := Option.map_eq_some_iff.mp h
  have horg := List.find?_some he
  simp only [Bool.and_eq_true, beq_iff_eq] at horg
  exact ⟨e, List.mem_of_find?_eq_some he, rfl, horg.1⟩

end Texts

/-! ### Writes to the tables -/

section Writes

variable [Names] {σ : Type} {spark : SparkSession σ} {s s' : Store} {v : Place}

/-- At one place the text is another, everything else is as it was. -/
structure Redefined (spark : SparkSession σ) (s s' : Store) (v : Place) (text : Option String) :
    Prop where
  databases : s' .databases = s .databases
  same : ∀ w, w ≠ v → textAt spark s' w = textAt spark s w
  new : textAt spark s' v = text

/-- The privileges play no part. -/
lemma Redefined.of_same {s₁ : Store} {text : Option String} (h : Redefined spark s₁ s' v text)
    (htables : s₁ .tables = s .tables) (hdatabases : s₁ .databases = s .databases) :
    Redefined spark s s' v text where
  databases := h.databases.trans hdatabases
  same := by
    intro w hw
    rw [h.same w hw, textAt, htables]
    rfl
  new := h.new

lemma redefined_insert {t : TableEntity}
    (hfree : (s .tables).rows.find? (isAt (t.databaseId, Names.collate t.name)) = none) :
    Redefined spark s ((Write.insert .tables t).exec s) (t.databaseId, Names.collate t.name)
      (textOf spark t) where
  databases := by
    have hne : Kind.databases ≠ .tables := by decide
    exact exec_insert_of_ne t hne
  same := by
    intro w hw
    have hmiss : isAt w (Row.withId (s .tables).nextId t) = false := by
      rw [Bool.eq_false_iff, Ne, isAt_iff]
      exact fun h => hw h.symm
    rw [textAt, textAt, exec_insert, Table.insert, List.find?_append]
    simp [hmiss]
  new := by
    have hhit : isAt (t.databaseId, Names.collate t.name) (Row.withId (s .tables).nextId t) :=
      isAt_iff.mpr rfl
    rw [textAt, exec_insert, Table.insert, List.find?_append, hfree]
    simp only [List.find?_singleton, hhit, if_true, Option.none_or, Option.bind_some]
    rfl

/-- A row is replaced by one with the same place. -/
lemma redefined_update {t t' : TableEntity} (hfound : (s .tables).rows.find? (isAt v) = some t)
    (hplace : isAt v t' = true) :
    Redefined spark s ((Write.update .tables (fun e => e.id == t.id) fun _ => t').exec s) v
      (textOf spark t') := by
  have ht := List.mem_of_find?_eq_some hfound
  have hv := List.find?_some hfound
  have honly : ∀ r ∈ (s .tables).rows, (r.id == t.id) = true → r = t := fun r hr hid =>
    (s .tables).eq_of_id hr ht (beq_iff_eq.mp hid)
  -- The replaced row stays where it was, so searches find the same row as before.
  have hsearch : ∀ w, ∀ r ∈ (s .tables).rows, (r.id == t.id) = true →
      isAt w (Row.withId (Row.id r) t') = isAt w r := by
    intro w r hr hid
    rw [honly r hr hid, Bool.eq_iff_iff, isAt_iff, isAt_iff, isAt_iff.mp hv]
    rw [isAt_iff] at hplace
    exact Iff.of_eq (congrArg (· = w) hplace)
  refine ⟨?_, ?_, ?_⟩
  · have hne : Kind.databases ≠ .tables := by decide
    exact exec_update_of_ne _ _ hne
  · intro w hw
    rw [textAt, textAt, exec_update, Table.find?_update (hsearch w)]
    cases hr : (s .tables).rows.find? (isAt w) with
    | none => rfl
    | some r =>
      have hid : (r.id == t.id) = false := by
        rw [Bool.eq_false_iff]
        intro hid
        rw [honly r (List.mem_of_find?_eq_some hr) hid] at hr
        exact hw ((isAt_iff.mp (List.find?_some hr)).symm.trans (isAt_iff.mp hv))
      simp only [Option.map_some, hid, Bool.false_eq_true, if_false]
  · rw [textAt, exec_update, Table.find?_update (hsearch v), hfound]
    simp only [Option.map_some, beq_self_eq_true, if_true, Option.bind_some]
    rfl

lemma redefined_delete {cond : TableEntity → Bool} (hcond : ∀ t, cond t = isAt v t) :
    Redefined spark s ((Write.delete .tables cond).exec s) v none := by
  refine ⟨?_, ?_, ?_⟩
  · have hne : Kind.databases ≠ .tables := by decide
    exact exec_delete_of_ne cond hne
  · intro w hw
    have hsearch : ((s .tables).rows.filter fun t => !cond t).find? (isAt w) =
        (s .tables).rows.find? (isAt w) := by
      rw [List.find?_filter]
      apply List.find?_congr
      intro t _
      cases hat : isAt w t with
      | false => simp
      | true =>
        have hv : isAt v t = false := by
          rw [Bool.eq_false_iff]
          exact fun h => hw ((isAt_iff.mp hat).symm.trans (isAt_iff.mp h))
        simp [hcond, hv]
    rw [textAt, textAt, exec_delete, Table.delete, hsearch]
  · have hnone : ((s .tables).rows.filter fun t => !cond t).find? (isAt v) = none := by
      rw [List.find?_eq_none]
      intro t ht
      rw [List.mem_filter, hcond] at ht
      simpa using ht.2
    rw [textAt, exec_delete, Table.delete, hnone]
    rfl

end Writes

/-! ### Commands on views -/

inductive ViewCommand
  | createView (view : TableIdentifier) (query : String) (comment : Option String)
    (replaceIfExists : Bool)
  | alterViewSetQuery (view : TableIdentifier) (query : String)
  | dropView (view : TableIdentifier) (ignoreIfNotExists : Bool)

namespace ViewCommand

def run [Names] (catalog : MoonboxCatalog) (now : Nat) : ViewCommand → DBIO Unit
  | createView view query comment replaceIfExists =>
    CreateView.run catalog now view query comment replaceIfExists
  | alterViewSetQuery view query => AlterViewSetQuery.run catalog now view query
  | dropView view ignoreIfNotExists => DropView.run catalog view ignoreIfNotExists

def view : ViewCommand → TableIdentifier
  | createView view .. => view
  | alterViewSetQuery view _ => view
  | dropView view _ => view

/-- The text that the command gives to its view. -/
def text : ViewCommand → Option String
  | createView _ query .. => some query
  | alterViewSetQuery _ query => some query
  | dropView .. => none

end ViewCommand

section Commands

variable [Names] {σ : Type} (spark : SparkSession σ) (s : Store) (catalog : MoonboxCatalog)
  (now : Nat)

/-- Where a view command of the session looks for its view. -/
def viewPlace (view : TableIdentifier) : Option Place :=
  (Store.database s catalog.userInSession.orgId
    (JdbcCatalog.formatDatabaseName (catalog.databaseOf view.database))).map
      fun e => (e.id, Names.collate view.table)

/-- Nothing happened, or the view was redefined. -/
def Redefines (view : TableIdentifier) (text : Option String) (s' : Store) : Prop :=
  s' = s ∨ ∃ v, viewPlace s catalog view = some v ∧ Redefined spark s s' v text

variable {spark s catalog now} {view : TableIdentifier} {query : String}

/-- A text is given to the view that was found. -/
lemma redefines_alterTable {d : CatalogTable} {dbEntity : DatabaseEntity} {t : TableEntity}
    {db : String} (hdb : d.db = some db)
    (hname : db = JdbcCatalog.formatDatabaseName (catalog.databaseOf view.database))
    (hdatabase : Store.database s catalog.userInSession.orgId db = some dbEntity)
    (ht : Store.table s dbEntity.id view.table = some t) (hd : d.name = t.name)
    (htype : d.tableType = CatalogTableType.VIEW) (htext : d.viewText = some query) :
    Action.wp (JdbcCatalog.alterTable d catalog.userInSession now)
      (fun _ => Redefines spark s catalog view (some query)) (fun s' => s' = s) s := by
  have hplace : viewPlace s catalog view = some (dbEntity.id, Names.collate view.table) := by
    rw [viewPlace, ← hname, hdatabase]
    rfl
  rw [table_eq_find?] at ht
  have hat := isAt_iff.mp (List.find?_some ht)
  have hcollate : Names.collate d.name = Names.collate view.table :=
    hd ▸ congrArg Prod.snd hat
  refine Action.wp_mono (does_alterTable s d) ?_ fun _ h => h
  rintro _ s' ⟨ws, heffect, rfl⟩
  cases heffect with
  | idle => exact .inl rfl
  | @alterTable _ db' dbEntity' t' hdb' inDatabase found =>
    obtain rfl : db = db' := Option.some.inj (hdb.symm.trans hdb')
    obtain rfl : dbEntity = dbEntity' := Option.some.inj (hdatabase.symm.trans inDatabase)
    rw [table_eq_find?, hcollate] at found
    refine .inr ⟨_, hplace, ?_⟩
    have htextOf : textOf spark (TableEntity.altered t' d dbEntity.id catalog.userInSession now) =
        some query := by
      simp [textOf, TableEntity.altered, htype, htext]
    rw [← htextOf]
    exact redefined_update found (isAt_iff.mpr (Prod.ext rfl hcollate))

lemma redefines_CreateView (comment : Option String) (replaceIfExists : Bool) :
    Action.wp (CreateView.run catalog now view query comment replaceIfExists)
      (fun _ => Redefines spark s catalog view (some query)) (fun s' => s' = s) s := by
  rw [CreateView.run, Action.wp_bind]
  refine wp_getDatabase_of ?_ rfl
  intro d dbEntity hdatabase hname
  rw [← hname] at hdatabase
  rw [Action.wp_ite]
  split
  · rfl
  simp only [Action.wp_bind, JdbcCatalog.tableExists, wp_getDatabase, hdatabase, wp_tableExists]
  rw [Action.wp_ite]
  split
  · rw [Action.wp_bind]
    refine wp_getTable_of ?_ rfl
    intro existing dbEntity' t hdatabase' ht hdb hexisting _ _ _
    obtain rfl : dbEntity = dbEntity' := Option.some.inj (hdatabase.symm.trans hdatabase')
    rw [Action.wp_ite]
    split
    · rfl
    · rename_i htype
      exact redefines_alterTable hdb hname hdatabase ht hexisting (not_not.mp htype) rfl
  · refine Action.wp_mono (does_createTable s _ _) ?_ fun _ h => h
    rintro _ s' ⟨ws, heffect, rfl⟩
    cases heffect with
    | idle => exact .inl rfl
    | @createTable _ _ db' dbEntity' hdb' inDatabase free =>
      obtain rfl : d.name = db' := Option.some.inj hdb'
      obtain rfl : dbEntity = dbEntity' := Option.some.inj (hdatabase.symm.trans inDatabase)
      refine .inr ⟨(dbEntity.id, Names.collate view.table), ?_, ?_⟩
      · rw [viewPlace, ← hname, hdatabase]
        rfl
      · exact redefined_insert free

lemma redefines_AlterViewSetQuery :
    Action.wp (AlterViewSetQuery.run catalog now view query)
      (fun _ => Redefines spark s catalog view (some query)) (fun s' => s' = s) s := by
  rw [AlterViewSetQuery.run, Action.wp_bind]
  refine wp_getDatabase_of ?_ rfl
  intro d dbEntity hdatabase hname
  rw [← hname] at hdatabase
  rw [Action.wp_bind]
  refine wp_getTable_of ?_ rfl
  intro existing dbEntity' t hdatabase' ht hdb hexisting _ _ _
  obtain rfl : dbEntity = dbEntity' := Option.some.inj (hdatabase.symm.trans hdatabase')
  rw [Action.wp_ite]
  split
  · rfl
  · rename_i htype
    exact redefines_alterTable hdb hname hdatabase ht hexisting (not_not.mp htype) rfl

lemma redefines_DropView (ign : Bool) :
    Action.wp (DropView.run catalog view ign)
      (fun _ => Redefines spark s catalog view none) (fun s' => s' = s) s := by
  rw [DropView.run, Action.wp_bind]
  refine wp_getDatabase_of ?_ rfl
  intro d dbEntity hdatabase hname
  rw [← hname] at hdatabase
  rw [Action.wp_bind]
  refine wp_getTable_of ?_ rfl
  intro existing dbEntity' t hdatabase' ht hdb hexisting _ _ _
  obtain rfl : dbEntity = dbEntity' := Option.some.inj (hdatabase.symm.trans hdatabase')
  rw [Action.wp_ite]
  split
  · rfl
  · have hdrop := @does_dropTable _ catalog.userInSession 0 s ign d.name view.table
    refine Action.wp_mono hdrop ?_ fun _ h => h
    rintro _ s' ⟨ws, heffect, rfl⟩
    cases heffect with
    | idle => exact .inl rfl
    | @dropTable _ _ _ dbEntity' t' inDatabase found =>
      obtain rfl : dbEntity = dbEntity' := Option.some.inj (hdatabase.symm.trans inDatabase)
      rw [table_eq_find?] at found
      have hid : t'.databaseId = dbEntity.id :=
        congrArg Prod.fst (isAt_iff.mp (List.find?_some found))
      refine .inr ⟨(dbEntity.id, Names.collate view.table), ?_, ?_⟩
      · rw [viewPlace, ← hname, hdatabase]
        rfl
      · simp only [execAll_cons, execAll_nil]
        refine (redefined_delete fun e => ?_).of_same ?_ ?_
        · rw [hid]
          rfl
        all_goals
          rw [exec_delete_of_ne _ (by decide), exec_delete_of_ne _ (by decide)]

lemma ViewCommand.redefines (cmd : ViewCommand) :
    Action.wp (cmd.run catalog now) (fun _ => Redefines spark s catalog cmd.view cmd.text)
      (fun s' => s' = s) s := by
  cases cmd with
  | createView view query comment replaceIfExists => exact redefines_CreateView comment _
  | alterViewSetQuery view query => exact redefines_AlterViewSetQuery
  | dropView view ign => exact redefines_DropView ign

end Commands

end Moonbox.Spark
