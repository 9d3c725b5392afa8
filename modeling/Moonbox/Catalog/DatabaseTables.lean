import Moonbox.Catalog.Uniqueness
import Moonbox.Catalog.Writes
import Moonbox.Lib.ActionEnds
import Moonbox.Lib.Collation

/-!
# The tables of a database

What is in a database after tables are added to it and removed from it one by one, and when that
leaves the tables as they were.
-/

namespace Moonbox.Catalog

open Relational Collation

namespace Store

/-- The names of the tables of a database. -/
def tableNames (s : Store) (dbId : Nat) : List String :=
  ((s .tables).rows.filter fun t => t.databaseId == dbId).map TableEntity.name

/-- The names of the tables whose creators are still there. -/
def seenNames (s : Store) (dbId : Nat) : List String := (s.listTables dbId).map fun p => p.1.name

variable [Names]

/-- The row is added unless its database has a table of the name. -/
def withTable (s : Store) (e : TableEntity) : Store :=
  if (s.table e.databaseId e.name).isSome then s else execAll [.insert .tables e] s

def withTables (s : Store) (es : List TableEntity) : Store := es.foldl withTable s

/-- A table goes with the privileges on it. -/
def withoutTable (dbId : Nat) (s : Store) (table : String) : Store :=
  match s.table dbId table with
  | some t =>
    execAll
      [.delete .tablePrivileges fun p => p.databaseId == t.databaseId && p.tableId == t.id,
        .delete .columnPrivileges fun p => p.databaseId == t.databaseId && p.tableId == t.id,
        .delete .tables fun e => e.databaseId == t.databaseId && sameName e.name table] s
  | none => s

def withoutTables (s : Store) (dbId : Nat) (tables : List String) : Store :=
  tables.foldl (withoutTable dbId) s

variable {s : Store} {dbId : Nat} {e : TableEntity} {es : List TableEntity} {name : String}
  {tables : List String}

omit [Names] in
lemma mem_tableNames :
    name ∈ s.tableNames dbId ↔ ∃ t ∈ (s .tables).rows, t.databaseId = dbId ∧ t.name = name := by
  simp [tableNames, and_assoc]

lemma isSome_table_iff :
    (s.table dbId name).isSome = true ↔ ∃ n ∈ s.tableNames dbId, sameName n name = true := by
  simp only [table, List.find?_isSome, Bool.and_eq_true, beq_iff_eq, mem_tableNames]
  constructor
  · rintro ⟨t, ht, hdb, hname⟩
    exact ⟨t.name, ⟨t, ht, hdb, rfl⟩, hname⟩
  · rintro ⟨n, ⟨t, ht, hdb, rfl⟩, hname⟩
    exact ⟨t, ht, hdb, hname⟩

/-! ### Adding tables -/

lemma withTable_of_ne {k : Kind} (hk : k ≠ .tables) : s.withTable e k = s k := by
  unfold withTable
  split
  · rfl
  · exact exec_insert_of_ne (E := Entity) e hk

lemma withTables_of_ne {k : Kind} (hk : k ≠ .tables) : s.withTables es k = s k := by
  induction es generalizing s with
  | nil => rfl
  | cons e es ih => exact ih.trans (withTable_of_ne hk)

lemma rows_withTable : (s.withTable e .tables).rows =
    if (s.table e.databaseId e.name).isSome then (s .tables).rows
    else (s .tables).rows ++ [Row.withId (s .tables).nextId e] := by
  unfold withTable
  split
  · rfl
  · rw [execAll_cons, execAll_nil, exec_insert]
    rfl

lemma tableNames_withTable (he : e.databaseId = dbId) :
    (s.withTable e).tableNames dbId = addNew sameName (s.tableNames dbId) e.name := by
  have hiff : (s.table e.databaseId e.name).isSome =
      (s.tableNames dbId).any (sameName · e.name) := by
    rw [Bool.eq_iff_iff, he, isSome_table_iff, List.any_eq_true]
  rw [tableNames, rows_withTable, hiff, addNew]
  split
  · rfl
  · have hrow : (Row.withId (s .tables).nextId e).databaseId = dbId := he
    rw [List.filter_append, List.map_append, tableNames]
    simp only [List.filter_cons, hrow, beq_self_eq_true, if_true, List.filter_nil, List.map_cons,
      List.map_nil]
    rfl

lemma tableNames_withTables (hes : ∀ e ∈ es, e.databaseId = dbId) :
    (s.withTables es).tableNames dbId =
      addAllNew sameName (s.tableNames dbId) (es.map TableEntity.name) := by
  induction es generalizing s with
  | nil => rfl
  | cons e es ih =>
    rw [List.map_cons, addAllNew_cons, ← tableNames_withTable (hes e List.mem_cons_self)]
    exact ih fun e' he' => hes e' (List.mem_cons_of_mem e he')

lemma isSome_table_withTable {name : String} (h : (s.table dbId name).isSome = true) :
    ((s.withTable e).table dbId name).isSome = true := by
  rw [isSome_table_iff] at h ⊢
  obtain ⟨n, hn, hname⟩ := h
  refine ⟨n, ?_, hname⟩
  obtain ⟨t, ht, hdb, htn⟩ := mem_tableNames.mp hn
  refine mem_tableNames.mpr ⟨t, ?_, hdb, htn⟩
  rw [rows_withTable]
  split
  · exact ht
  · exact List.mem_append_left _ ht

lemma nextId_withTable : (s .tables).nextId ≤ (s.withTable e .tables).nextId := by
  unfold withTable
  split
  · exact Nat.le_refl _
  · rw [execAll_cons, execAll_nil, exec_insert]
    exact Nat.le_succ _

/-- What is added are rows of the given names with new keys, under names that were free. -/
lemma exists_added (s : Store) (es : List TableEntity) : ∃ added,
    (s.withTables es .tables).rows = (s .tables).rows ++ added ∧
    ∀ r ∈ added, (s .tables).nextId ≤ r.id ∧
      ∃ e ∈ es, r.databaseId = e.databaseId ∧ r.name = e.name ∧
        (s.table e.databaseId e.name).isSome = false := by
  induction es generalizing s with
  | nil => exact ⟨[], (List.append_nil _).symm, fun _ hr => absurd hr List.not_mem_nil⟩
  | cons e es ih =>
    obtain ⟨added, hrows, hadded⟩ := ih (s.withTable e)
    have hold : ∀ r ∈ added, (s .tables).nextId ≤ r.id ∧
        ∃ e' ∈ e :: es, r.databaseId = e'.databaseId ∧ r.name = e'.name ∧
          (s.table e'.databaseId e'.name).isSome = false := by
      intro r hr
      obtain ⟨hid, e', he', hdb, hname, hfree⟩ := hadded r hr
      refine ⟨nextId_withTable.trans hid, e', List.mem_cons_of_mem e he', hdb, hname, ?_⟩
      rw [Bool.eq_false_iff] at hfree ⊢
      exact fun h => hfree (isSome_table_withTable h)
    rw [rows_withTable] at hrows
    split at hrows
    · exact ⟨added, hrows, hold⟩
    · rename_i hfree
      refine ⟨Row.withId (s .tables).nextId e :: added, ?_, ?_⟩
      · rw [List.append_cons]
        exact hrows
      · intro r hr
        rcases List.mem_cons.mp hr with rfl | hr
        · exact ⟨Nat.le_refl _, e, List.mem_cons_self, rfl, rfl, by simpa using hfree⟩
        · exact hold r hr

/-! ### Removing tables -/

lemma withoutTable_of_ne {k : Kind} (hk : k ≠ .tables) (hk' : k ≠ .tablePrivileges)
    (hk'' : k ≠ .columnPrivileges) : withoutTable dbId s name k = s k := by
  unfold withoutTable
  cases s.table dbId name with
  | some t =>
    simp only [execAll_cons, execAll_nil]
    rw [exec_delete_of_ne _ hk, exec_delete_of_ne _ hk'', exec_delete_of_ne _ hk']
  | none => rfl

lemma withoutTables_of_ne {k : Kind} (hk : k ≠ .tables) (hk' : k ≠ .tablePrivileges)
    (hk'' : k ≠ .columnPrivileges) : s.withoutTables dbId tables k = s k := by
  induction tables generalizing s with
  | nil => rfl
  | cons name tables ih => exact ih.trans (withoutTable_of_ne hk hk' hk'')

lemma rows_withoutTable : (withoutTable dbId s name .tables).rows =
    (s .tables).rows.filter fun r => !(r.databaseId == dbId && sameName r.name name) := by
  unfold withoutTable
  cases ht : s.table dbId name with
  | some t =>
    obtain ⟨-, hdb, -⟩ := table_some ht
    simp only [hdb]
    rfl
  | none =>
    symm
    rw [List.filter_eq_self]
    intro r hr
    have hcond := List.find?_eq_none.mp ht r hr
    rw [Bool.not_eq_true] at hcond
    rw [hcond]
    rfl

lemma rows_withoutTables : (s.withoutTables dbId tables .tables).rows =
    (s .tables).rows.filter fun r => !(r.databaseId == dbId && tables.any (sameName r.name)) := by
  induction tables generalizing s with
  | nil => simp [withoutTables]
  | cons name tables ih =>
    rw [withoutTables, List.foldl_cons, ← withoutTables, ih, rows_withoutTable, List.filter_filter]
    congr 1
    funext r
    rw [List.any_cons]
    cases r.databaseId == dbId <;> cases sameName r.name name <;> simp

lemma tableNames_withoutTables :
    (s.withoutTables dbId tables).tableNames dbId =
      removeAll sameName (s.tableNames dbId) tables := by
  rw [tableNames, rows_withoutTables, removeAll, tableNames, List.filter_map, List.filter_filter,
    List.filter_filter]
  congr 1
  apply List.filter_congr
  intro r _
  simp only [Function.comp]
  cases r.databaseId == dbId <;> simp

/-! ### The tables that are seen -/

omit [Names] in
/-- A table has at most one creator. -/
lemma seenNames_sublist : (s.seenNames dbId).Sublist (s.tableNames dbId) := by
  have hcreator : ∀ t : TableEntity,
      (((s .users).rows.filter fun u => t.createBy == u.id).map fun u => (t, u)).length ≤ 1 := by
    intro t
    rw [List.length_map]
    cases hf : (s .users).rows.filter fun u => t.createBy == u.id with
    | nil => simp
    | cons u us =>
      cases us with
      | nil => simp
      | cons v us =>
        have hnodup := (s .users).nodup_rows.filter fun u => t.createBy == u.id
        have hmem : ∀ w ∈ u :: v :: us, w ∈ (s .users).rows ∧ t.createBy = w.id := by
          intro w hw
          rw [← hf] at hw
          simpa using List.mem_filter.mp hw
        obtain ⟨hu, huid⟩ := hmem u List.mem_cons_self
        obtain ⟨hv, hvid⟩ := hmem v (List.mem_cons_of_mem _ List.mem_cons_self)
        have huv : u = v := (s .users).eq_of_id hu hv (by
          have hint : (u.id : Int) = v.id := huid.symm.trans hvid
          exact_mod_cast hint)
        rw [hf, huv] at hnodup
        simp at hnodup
  rw [seenNames, listTables, tableNames]
  induction (s .tables).rows.filter fun t => t.databaseId == dbId with
  | nil => exact List.Sublist.refl _
  | cons t ts ih =>
    rw [List.flatMap_cons, List.map_append, List.map_cons]
    rw [← List.singleton_append]
    refine List.Sublist.append ?_ ih
    have hlen := hcreator t
    cases hu : ((s .users).rows.filter fun u => t.createBy == u.id) with
    | nil => simp
    | cons u us =>
      rw [hu] at hlen
      cases us with
      | nil => simp
      | cons v us => simp at hlen

/-! ### Leaving the tables as they were -/

/-- No table is removed that was there, and what is added is there already or removed again. -/
def Leaves (s : Store) (dbId : Nat) (adds drops : List String) : Prop :=
  (∀ x ∈ drops, s.table dbId x = none) ∧
    ∀ t ∈ adds, (s.table dbId t).isSome = true ∨ ∃ x ∈ drops, sameName t x = true

lemma table_eq_none_iff : s.table dbId name = none ↔
    ∀ t ∈ (s .tables).rows, t.databaseId = dbId → sameName t.name name = false := by
  simp [table]

/-- All that is added is there already or removed again. -/
lemma added_iff {added : List TableEntity} (hes : ∀ e ∈ es, e.databaseId = dbId)
    (hrows : (s.withTables es .tables).rows = (s .tables).rows ++ added)
    (hadded : ∀ r ∈ added, (s .tables).nextId ≤ r.id ∧ ∃ e ∈ es, r.databaseId = e.databaseId ∧
      r.name = e.name ∧ (s.table e.databaseId e.name).isSome = false) :
    (∀ t ∈ es.map TableEntity.name, (s.table dbId t).isSome = true ∨
        ∃ x ∈ tables, sameName t x = true) ↔
      ∀ r ∈ added, ∃ x ∈ tables, sameName r.name x = true := by
  constructor
  · intro h r hr
    obtain ⟨-, e, he, -, hname, hfree⟩ := hadded r hr
    rw [hes e he] at hfree
    rw [hname]
    exact (h e.name (List.mem_map_of_mem he)).resolve_left fun hsome => by simp [hfree] at hsome
  · intro h t ht
    have hthere : ((s.withTables es).table dbId t).isSome = true := by
      rw [isSome_table_iff, tableNames_withTables hes]
      exact exists_same_of_mem sameName_self ht
    obtain ⟨r, hr⟩ := Option.isSome_iff_exists.mp hthere
    obtain ⟨hmem, hdb, hname⟩ := table_some hr
    rw [hrows, List.mem_append] at hmem
    rcases hmem with hold | hnew
    · exact .inl (isSome_table_iff.mpr ⟨r.name, mem_tableNames.mpr ⟨r, hold, hdb, rfl⟩, hname⟩)
    · obtain ⟨x, hx, hrx⟩ := h r hnew
      rw [sameName_iff] at hname hrx
      exact .inr ⟨x, hx, sameName_iff.mpr (hname.symm.trans hrx)⟩

/-- No table that was there is removed. -/
lemma kept_iff : (∀ x ∈ tables, s.table dbId x = none) ↔ ∀ r ∈ (s .tables).rows,
    (!(r.databaseId == dbId && tables.any (sameName r.name))) = true := by
  simp only [table_eq_none_iff, Bool.not_eq_true', Bool.and_eq_false_iff, beq_eq_false_iff_ne,
    List.any_eq_false, Bool.not_eq_true]
  constructor
  · intro h r hr
    by_cases hdb : r.databaseId = dbId
    · exact .inr fun x hx => h x hx r hr hdb
    · exact .inl hdb
  · intro h x hx r hr hdb
    exact (h r hr).resolve_left (fun hne => hne hdb) x hx

lemma leaves_of_mem (hes : ∀ e ∈ es, e.databaseId = dbId)
    (h : ∀ r, r ∈ ((s.withTables es).withoutTables dbId tables .tables).rows ↔
      r ∈ (s .tables).rows) :
    s.Leaves dbId (es.map TableEntity.name) tables := by
  obtain ⟨added, hrows, hadded⟩ := exists_added s es
  simp only [rows_withoutTables, hrows, List.filter_append, List.mem_append,
    List.mem_filter] at h
  have hfresh : ∀ r ∈ added, r ∉ (s .tables).rows := fun r hr hmem =>
    Nat.lt_irrefl _ ((hadded r hr).1.trans_lt ((s .tables).fresh r hmem))
  rw [Leaves, kept_iff, added_iff hes hrows hadded]
  constructor
  · intro r hr
    rcases (h r).mpr hr with hkept | hkept
    · exact hkept.2
    · exact absurd hr (hfresh r hkept.1)
  · intro r hr
    by_contra hnone
    have hany : tables.any (sameName r.name) = false := by
      rw [Bool.eq_false_iff]
      exact fun hany => hnone (List.any_eq_true.mp hany)
    refine hfresh r hr ((h r).mp (.inr ⟨hr, ?_⟩))
    rw [hany, Bool.and_false]
    rfl

lemma Leaves.rows_eq (hes : ∀ e ∈ es, e.databaseId = dbId)
    (h : s.Leaves dbId (es.map TableEntity.name) tables) :
    ((s.withTables es).withoutTables dbId tables .tables).rows = (s .tables).rows := by
  obtain ⟨added, hrows, hadded⟩ := exists_added s es
  rw [Leaves, kept_iff, added_iff hes hrows hadded] at h
  have hnone : added.filter
      (fun r => !(r.databaseId == dbId && tables.any (sameName r.name))) = [] := by
    rw [List.filter_eq_nil_iff]
    intro r hr
    obtain ⟨-, e, he, hdb, -⟩ := hadded r hr
    rw [hdb, hes e he, List.any_eq_true.mpr (h.2 r hr)]
    simp
  rw [rows_withoutTables, hrows, List.filter_append, List.filter_eq_self.mpr h.1, hnone,
    List.append_nil]

lemma rows_eq_iff (hes : ∀ e ∈ es, e.databaseId = dbId) :
    ((s.withTables es).withoutTables dbId tables .tables).rows = (s .tables).rows ↔
      s.Leaves dbId (es.map TableEntity.name) tables :=
  ⟨fun h => leaves_of_mem hes fun r => by rw [h], fun h => h.rows_eq hes⟩

/-- What is added is all there already. -/
lemma withTables_eq_self_iff (hes : ∀ e ∈ es, e.databaseId = dbId) :
    s.withTables es = s ↔ s.Leaves dbId (es.map TableEntity.name) [] := by
  constructor
  · intro h
    apply leaves_of_mem hes
    rw [h]
    exact fun r => Iff.rfl
  · rintro ⟨-, hthere⟩
    simp only [List.not_mem_nil, false_and, exists_false, or_false] at hthere
    induction es with
    | nil => rfl
    | cons e es ih =>
      have he := hthere e.name List.mem_cons_self
      rw [← hes e List.mem_cons_self] at he
      rw [withTables, List.foldl_cons, withTable, if_pos he]
      exact ih (fun e' he' => hes e' (List.mem_cons_of_mem e he')) fun t ht =>
        hthere t (List.mem_cons_of_mem _ ht)

/-! ### Just the given tables -/

/-- The database has just these tables, and those of the others are as they were. -/
structure HasExactly (s s' : Store) (dbId : Nat) (tables : List String) : Prop where
  exactly : IsExactly (s'.tableNames dbId) tables
  others : ∀ t : TableEntity, t.databaseId ≠ dbId →
    (t ∈ (s' .tables).rows ↔ t ∈ (s .tables).rows)

variable {s' : Store} {dbId' : Nat} {ts : List String}

omit [Names] in
lemma HasExactly.congr {s₁ : Store} (h : s₁ .tables = s .tables) :
    HasExactly s s' dbId ts ↔ HasExactly s₁ s' dbId ts := by
  constructor
  · rintro ⟨hexactly, hothers⟩
    exact ⟨hexactly, by rwa [h]⟩
  · rintro ⟨hexactly, hothers⟩
    exact ⟨hexactly, by rwa [h] at hothers⟩

lemma mem_withTables_withoutTables (hes : ∀ e ∈ es, e.databaseId = dbId) {t : TableEntity}
    (ht : t.databaseId ≠ dbId) :
    t ∈ ((s.withTables es).withoutTables dbId tables .tables).rows ↔ t ∈ (s .tables).rows := by
  obtain ⟨added, hrows, hadded⟩ := exists_added s es
  rw [rows_withoutTables, hrows, List.filter_append, List.mem_append, List.mem_filter,
    List.mem_filter]
  have hne : (t.databaseId == dbId) = false := beq_false_of_ne ht
  rw [hne]
  simp only [Bool.false_and, Bool.not_false, and_true, or_iff_left_iff_imp]
  intro hnew
  obtain ⟨-, e, he, hdb, -⟩ := hadded t hnew
  exact absurd (hdb.trans (hes e he)) ht

/-- In the database itself it is enough to look at the names. -/
lemma hasExactly_iff (hes : ∀ e ∈ es, e.databaseId = dbId) :
    HasExactly s ((s.withTables es).withoutTables dbId tables) dbId ts ↔
      IsExactly (removeAll sameName
        (addAllNew sameName (s.tableNames dbId) (es.map TableEntity.name)) tables) ts := by
  rw [← tableNames_withTables hes, ← tableNames_withoutTables]
  exact ⟨HasExactly.exactly, fun h => ⟨h, fun t ht => mem_withTables_withoutTables hes ht⟩⟩

/-- In another database nothing may happen. -/
lemma hasExactly_iff_of_ne (hes : ∀ e ∈ es, e.databaseId = dbId') (hne : dbId' ≠ dbId) :
    HasExactly s ((s.withTables es).withoutTables dbId' tables) dbId ts ↔
      s.Leaves dbId' (es.map TableEntity.name) tables ∧ IsExactly (s.tableNames dbId) ts := by
  constructor
  · rintro ⟨hexactly, hothers⟩
    have hmem : ∀ r, r ∈ ((s.withTables es).withoutTables dbId' tables .tables).rows ↔
        r ∈ (s .tables).rows := by
      intro r
      by_cases hr : r.databaseId = dbId
      · exact mem_withTables_withoutTables hes fun h => hne (h.symm.trans hr)
      · exact hothers r hr
    have hleaves := leaves_of_mem hes hmem
    rw [tableNames, hleaves.rows_eq hes] at hexactly
    exact ⟨hleaves, hexactly⟩
  · rintro ⟨hleaves, hexactly⟩
    have hrows := hleaves.rows_eq hes
    refine ⟨?_, fun t _ => by rw [hrows]⟩
    rwa [tableNames, hrows]

omit [Names] in
lemma hasExactly_self_iff : HasExactly s s dbId ts ↔ IsExactly (s.tableNames dbId) ts :=
  ⟨HasExactly.exactly, fun h => ⟨h, fun _ _ => Iff.rfl⟩⟩

end Store

/-! ### How tables are entered -/

section Entered

variable [Names] {s s' : Store} {caller : User} {now : Nat} {op : Operation}
  {ws : List (Write Entity)}

/-- A database has at most one table of a name, and no table is in a database that is still to
come. -/
structure Entered (s : Store) : Prop where
  unique : UniqueIn .tables s
  known : ∀ t ∈ (s .tables).rows, t.databaseId < (s .databases).nextId

lemma entered_empty : Entered Store.empty :=
  ⟨namesUnique_empty _, fun _ ht => absurd ht List.not_mem_nil⟩

lemma Entered.nodup_tableNames (h : Entered s) (dbId : Nat) : (s.tableNames dbId).Nodup := by
  refine List.Nodup.map_on ?_ ((s .tables).nodup_rows.filter _)
  intro t ht t' ht' hname
  simp only [List.mem_filter, beq_iff_eq] at ht ht'
  refine h.unique t ht.1 t' ht'.1 (dbId, Names.collate t.name) ?_ ?_
  · rw [nameKey, ht.2]
  · rw [nameKey, ht'.2, hname]

lemma Entered.eq_of_sameName (h : Entered s) {dbId : Nat} {a b : String}
    (ha : a ∈ s.tableNames dbId) (hb : b ∈ s.tableNames dbId) (hab : sameName a b = true) :
    a = b := by
  obtain ⟨t, ht, hdb, rfl⟩ := Store.mem_tableNames.mp ha
  obtain ⟨t', ht', hdb', rfl⟩ := Store.mem_tableNames.mp hb
  rw [h.unique t ht t' ht' (dbId, Names.collate t'.name) (key_eq hdb hab) (by rw [nameKey, hdb'])]

/-- A database that is still to come has no tables. -/
lemma Entered.tableNames_nextId (h : Entered s) : s.tableNames (s .databases).nextId = [] := by
  rw [Store.tableNames, List.map_eq_nil_iff, List.filter_eq_nil_iff]
  intro t ht
  simpa using (h.known t ht).ne

lemma Entered.of_eq (h : Entered s) (htables : s' .tables = s .tables)
    (hdatabases : (s .databases).nextId ≤ (s' .databases).nextId) : Entered s' := by
  refine ⟨h.unique.of_eq htables, fun t ht => ?_⟩
  rw [htables] at ht
  exact (h.known t ht).trans_le hdatabases

lemma Entered.known_after (h : Entered s) (heffect : Effect caller now s op ws)
    (hop : Kind.tables ∈ op.writes) :
    ∀ t ∈ (execAll ws s .tables).rows, t.databaseId < (s .databases).nextId := by
  cases heffect with
  | idle => exact h.known
  | dropDatabaseCascade =>
    intro t ht
    simp only [execAll_cons, execAll_nil] at ht
    rw [exec_delete_of_ne _ (by decide), exec_delete, Table.mem_delete,
      exec_delete_of_ne _ (by decide)] at ht
    exact h.known t ht.1
  | dropDatabase =>
    intro t ht
    simp only [execAll_cons, execAll_nil] at ht
    rw [exec_delete_of_ne _ (by decide)] at ht
    exact h.known t ht
  | createTable hdb inDatabase free =>
    intro t ht
    rw [execAll_cons, execAll_nil, exec_insert, Table.mem_insert] at ht
    rcases ht with ht | rfl
    · exact h.known t ht
    · exact (s .databases).fresh _ (Store.database_some inDatabase).1
  | dropTable =>
    intro t ht
    simp only [execAll_cons, execAll_nil] at ht
    rw [exec_delete, Table.mem_delete, exec_delete_of_ne _ (by decide),
      exec_delete_of_ne _ (by decide)] at ht
    exact h.known t ht.1
  | renameTable =>
    intro t ht
    rw [execAll_cons, execAll_nil, exec_update, Table.mem_update] at ht
    obtain ⟨t', ht', rfl⟩ := ht
    split
    · exact h.known t' ht'
    · exact h.known t' ht'
  | alterTable hdb inDatabase found =>
    intro t ht
    rw [execAll_cons, execAll_nil, exec_update, Table.mem_update] at ht
    obtain ⟨t', ht', rfl⟩ := ht
    split
    · exact (s .databases).fresh _ (Store.database_some inDatabase).1
    · exact h.known t' ht'
  | _ => simp [Operation.writes] at hop

/-- Every operation keeps it. -/
lemma Entered.exec (h : Entered s) (op : Operation) (caller : User) (now : Nat) :
    Entered (op.exec caller now s) := by
  obtain ⟨ws, hws, heq⟩ := op.exec_effect caller now s
  rw [heq]
  by_cases hop : Kind.tables ∈ op.writes
  · refine ⟨h.unique.execAll ?_, fun t ht => ?_⟩
    · refine hws.free h.unique (fun hk => by cases hk) fun d ign hcreate => ?_
      rw [hcreate] at hop
      simp [Operation.writes] at hop
    · exact (h.known_after hws hop t ht).trans_le (nextId_execAll _)
  · exact h.of_eq (hws.agree _ hop) (nextId_execAll _)

end Entered

end Moonbox.Catalog
