import Moonbox.Catalog.Effects
import Moonbox.Core.CommandChecker
import Moonbox.Lib.Outcomes
import Moonbox.Spark.DatasourceTables
import Moonbox.Spark.ViewExpansion

/-!
# Mounted tables

`MOUNT TABLE` writes the properties of its statement into the catalog and leaves the column list
out. The engine has only what is in the catalog.
-/

namespace Moonbox.Spark

open Catalog Moonbox.Core Moonbox.Parser Relational

/-! ### Properties are maps -/

def Keyed (props : Properties) : Prop := (props.map Prod.fst).Nodup

lemma keyed_put {props : Properties} (h : Keyed props) (key value : String) :
    Keyed (put props key value) := by
  rw [put]
  split_ifs with hkey
  · have hkeys : (props.map fun p => if p.1 == key then (key, value) else p).map Prod.fst =
        props.map Prod.fst := by
      rw [List.map_map]
      refine List.map_congr_left fun p _ => ?_
      by_cases hp : p.1 = key <;> simp [hp]
    rw [Keyed, hkeys]
    exact h
  · have hnew : key ∉ props.map Prod.fst := by
      intro hmem
      obtain ⟨p, hp, rfl⟩ := List.mem_map.mp hmem
      exact hkey (List.any_eq_true.mpr ⟨p, hp, by simp⟩)
    rw [Keyed, List.map_append, List.nodup_append]
    refine ⟨h, by simp, ?_⟩
    rintro a ha b hb rfl
    obtain rfl : a = key := by simpa using hb
    exact hnew ha

lemma keyed_toMap (properties : List (String × String)) : Keyed (toMap properties) := by
  have hfold : ∀ props : Properties, Keyed props →
      Keyed (properties.foldl (fun map p => put map p.1 p.2) props) := by
    induction properties with
    | nil => exact fun _ h => h
    | cons p properties ih => exact fun props h => ih _ (keyed_put h p.1 p.2)
  exact hfold [] List.nodup_nil

lemma keyed_addOptions {old new : Properties} (hold : Keyed old) (hnew : Keyed new) :
    Keyed (addOptions old new) := by
  rw [Keyed, addOptions, List.map_append, List.nodup_append]
  refine ⟨hold.sublist (List.filter_sublist.map _), hnew, ?_⟩
  intro key hkey key' hkey' heq
  subst heq
  obtain ⟨p, hp, rfl⟩ := List.mem_map.mp hkey
  obtain ⟨q, hq, hpq⟩ := List.mem_map.mp hkey'
  have hany : new.any (fun q => q.1 == p.1) = true := List.any_eq_true.mpr ⟨q, hq, by simp [hpq]⟩
  simp [List.mem_filter, hany] at hp

/-! ### What the commands write -/

section Rows

variable [Names] {env : Env} {catalog : MoonboxCatalog} {now : Nat} {s : Store}
  {table : TableIdentifier} {props : Properties}

/-- Each table is as it was, or has properties that are `P`. -/
def Writes (P : Properties → Prop) (s s' : Store) : Prop :=
  ∀ t ∈ (s' .tables).rows, t ∈ (s .tables).rows ∨ P t.properties

omit [Names] in
lemma Writes.refl (P : Properties → Prop) : Writes P s s := fun _ ht => .inl ht

lemma writes_MountTable (isStream ign : Bool) :
    Action.wp (MountTable.run env catalog now table props isStream ign)
      (fun _ => Writes (· = props) s) (Writes (· = props) s) s := by
  have hsame : Writes (· = props) s s := Writes.refl _
  rw [MountTable.run, Action.wp_bind]
  refine wp_getDatabase_of ?_ hsame
  intro d dbEntity _ _
  rw [Action.wp_ite]
  split
  · exact hsame
  rw [Action.wp_bind]
  cases env.test props with
  | error e => exact hsame
  | ok _ =>
    change Action.wp (JdbcCatalog.createTable _ _ _ _) _ _ s
    refine Action.wp_mono (does_createTable s _ _) ?_ fun s' h => h ▸ hsame
    rintro _ s' ⟨ws, heffect, rfl⟩
    cases heffect with
    | idle => exact hsame
    | createTable _ _ _ =>
      intro t ht
      rw [execAll_cons, execAll_nil, exec_insert, Table.mem_insert] at ht
      rcases ht with ht | rfl
      · exact .inl ht
      · exact .inr rfl

/-- The options that are set come to those that a table has. -/
def Extends (s : Store) (props p : Properties) : Prop :=
  ∃ t ∈ (s .tables).rows, p = addOptions t.properties props

lemma writes_AlterTableSetOptions : Action.wp (AlterTableSetOptions.run catalog now table props)
    (fun _ => Writes (Extends s props) s) (Writes (Extends s props) s) s := by
  have hsame : Writes (Extends s props) s s := Writes.refl _
  rw [AlterTableSetOptions.run, Action.wp_bind]
  refine wp_getTable_of ?_ hsame
  intro d dbEntity old _ hold _ _ _ _ hproperties
  have hmem : old ∈ (s .tables).rows := List.mem_of_find?_eq_some hold
  rw [Action.wp_ite]
  split
  · exact hsame
  refine Action.wp_mono (does_alterTable s _) ?_ fun s' h => h ▸ hsame
  rintro _ s' ⟨ws, heffect, rfl⟩
  cases heffect with
  | idle => exact hsame
  | alterTable _ _ _ =>
    intro t ht
    rw [execAll_cons, execAll_nil, exec_update, Table.mem_update] at ht
    obtain ⟨t', ht', rfl⟩ := ht
    split_ifs
    · exact .inr ⟨old, hmem, hproperties ▸ rfl⟩
    · exact .inl ht'

end Rows

/-! ### The declaration -/

/-- The commands that write the properties of a table. -/
def declaresTable : Command → Bool
  | .mountTable .. | .alterTableSetOptions .. => true
  | _ => false

section Declaration

variable [Names] {ι : Type} {getText tripText : ι → String} {env : Env} {catalog : MoonboxCatalog}
  {now : Nat} {s : Store}

/-- The properties that a command writes or adds. -/
def declaredProperties : Command → Properties
  | .mountTable _ props _ _ => props
  | .alterTableSetOptions _ props => props
  | _ => []

omit [Names] in
lemma keyed_visit {ctx : Mql ι} {statement : Built}
    (h : visit getText tripText ctx = .ok statement) :
    Keyed (declaredProperties statement.command) := by
  have hnone : Keyed [] := List.nodup_nil
  cases ctx
  case mountTable stream ign table columns options =>
    obtain ⟨schema, _, h⟩ := Outcome.bind_eq_ok.mp h
    cases h
    exact keyed_toMap _
  case setTableProperties name options =>
    cases h
    exact keyed_toMap _
  case createFunction temp ign name className methodName resources =>
    cases h
    cases temp <;> exact hnone
  case dropFunction temp ign name =>
    cases h
    cases temp <;> exact hnone
  case showFunctions scope db pattern =>
    obtain ⟨_, _, h⟩ := Outcome.bind_eq_ok.mp h
    cases h
    exact hnone
  all_goals
    cases h
    exact hnone

/-- What the statement writes is a map. -/
lemma writes_keyed {ctx : Mql ι} {statement : Built}
    (hvisit : visit getText tripText ctx = .ok statement)
    (hdeclares : declaresTable statement.command = true)
    (hkeyed : ∀ t ∈ (s .tables).rows, Keyed t.properties) :
    Writes Keyed s ((statement.command.run env catalog now).run.exec s) := by
  have hprops := keyed_visit hvisit
  refine (Action.wp_run (statement.command.run env catalog now) (Writes Keyed s)).mp ?_
  have hkeep : ∀ {m : DBIO Unit} {P : Store → Prop}, Action.wp m (fun _ => P) P s →
      Action.wp (keeping catalog m) (fun _ => P) P s := by
    intro m P h
    rw [keeping, Action.wp_bind]
    exact h
  cases hcommand : statement.command
  case mountTable table props isStream ign =>
    rw [hcommand] at hprops
    have hwrites {s' : Store} (h : Writes (· = props) s s') : Writes Keyed s s' :=
      fun t ht => (h t ht).imp_right fun (h : t.properties = props) => h ▸ hprops
    exact hkeep (Action.wp_mono (writes_MountTable isStream ign) (fun _ _ h => hwrites h)
      fun _ h => hwrites h)
  case alterTableSetOptions table props =>
    rw [hcommand] at hprops
    have hwrites {s' : Store} (h : Writes (Extends s props) s s') : Writes Keyed s s' :=
      fun t ht => (h t ht).imp_right fun ⟨t, ht, h⟩ => h ▸ keyed_addOptions (hkeyed t ht) hprops
    exact hkeep (Action.wp_mono writes_AlterTableSetOptions (fun _ _ h => hwrites h)
      fun _ h => hwrites h)
  all_goals
    rw [hcommand] at hdeclares
    cases hdeclares

/-- The columns of a table after the statement: those it declares, or those of before. -/
def declaredColumns (before : Option ColumnFields) (statement : Built) : Option ColumnFields :=
  match statement.command with
  | .mountTable .. => statement.schema
  | _ => before

/-- What Spark reads in the text that the engine makes of the properties is the declaration. -/
def RegistersAsDeclared (G : SparkGrammar) (lookupDataSource : String → String)
    (table : TableIdentifier) (declared : Option ColumnFields) (props : Properties) : Prop :=
  ∃ text, registerDatasourceTable lookupDataSource table props = .ok text ∧
    IsDeclared G declared props text

end Declaration

/-! ### A column -/

section OneColumn

def columnA : ColumnFields := .cons "a" .integer .nil

/-- It knows the column `a INT`. -/
def smallGrammar : SparkGrammar where
  colTypeList text := (expect "a INT".toList text).map fun rest => (columnA, rest)
  qualifiedName text := some (text.span fun c => c.isAlphanum || c == '.')
  bareKey _ := none
  bareValue _ := none
  clauses text := text.all JavaStrings.isTrimmed

/-- `MOUNT TABLE t (a INT) OPTIONS (...)` -/
def mountT (options : List (String × String)) : Mql String :=
  .mountTable false false ⟨none, "t"⟩ (some (.cons "a" (.primitive "INT".toList []) .nil))
    (options.map fun p => (.identifiers p.1.toList, p.2.toList))

def mountedT (properties : Properties) : Built :=
  ⟨.mountTable ⟨"t", none⟩ properties false false, some columnA⟩

/-- The tables after the statement is run. -/
def tablesAfter (statement : Built) : List TableEntity :=
  let _ := exactNames
  ((statement.command.run plainEnv sessionOfSa 5).run.exec withDefault .tables).rows

end OneColumn

end Moonbox.Spark
