import Mathlib.Data.Set.Lattice
import Mathlib.Order.CompletePartialOrder
import Moonbox.Core.LostUpdates
import Moonbox.Core.ResourceCommands

/-!
# Grants and revokes of resources

When the set change that a grant or a revoke makes is the one it names.
-/

namespace Moonbox.Core

open Catalog Relational

variable [Names]

namespace ResourceCommand

variable {env : Env} {s : Store} {catalog : MoonboxCatalog} {c : ResourceCommand}
  {names : List String}

/-! ### What a command names -/

section Exact

variable (env : Env) (s : Store) (catalog : MoonboxCatalog) (now : Nat) (c : ResourceCommand)

/-- The privileges that the command names on its object. -/
def named : Object → List Privilege
  | .databases =>
    ((s .databases).rows.filter fun d => d.organizationId == catalog.userInSession.orgId).flatMap
      fun d => onDatabase d.id c.types
  | .database d => onDatabase d.id c.types
  | .table d t =>
    onTable d.id t.id
        ((c.privileges.1.filter fun p => !p.isColumnLevel).map ResourcePrivilege.NAME) ++
      onColumns d.id t.id (c.columns "SELECT" "UPDATE")

/-- The privileges of the users that the command names. -/
def namedSet : Set (Nat × Privilege) :=
  match c.grantees s catalog, objectOf s catalog c.tableIdentifier with
  | some names, some o => pairs (idsOf s catalog.userInSession names) (c.named s catalog o)
  | _, _ => ∅

/-- The command computes the set change it names, or fails and changes nothing. -/
def Exact : Prop :=
  Held ((c.run env catalog now).run.exec s) =
    if (c.run env catalog now).run.succeeds s then toggle c.grants (c.namedSet s catalog) (Held s)
    else Held s

/-- The users hold all of the privileges, or none. -/
def Already (grants : Bool) (H : Set (Nat × Privilege)) (users : List Nat)
    (privileges : List Privilege) : Prop :=
  ∀ user ∈ users, ∀ p ∈ privileges, (user, p) ∈ H ↔ grants = true

/-- The columns listed for UPDATE. -/
def updated : List String :=
  c.privileges.1.flatMap fun
    | .columnUpdate column => column
    | _ => []

/-- The columns listed for SELECT. -/
def selected : List String :=
  c.privileges.1.flatMap fun
    | .columnSelect column => column
    | _ => []

/-- Where the command and what it names differ, the difference is there already: in what it has
written when it stops, on the databases it does not list, and in the type of a column listed for
UPDATE. A revoke on a table that gives has no users to give to. -/
structure Meets : Prop where
  stops : ∀ names o, c.grantees s catalog = some names →
    objectOf s catalog c.tableIdentifier = some o → ¬ c.Completes env s catalog names o →
    Already (c.creates o) (Held s) (reached s catalog names) (c.written env s catalog names o)
  databases : ∀ names, c.grantees s catalog = some names →
    objectOf s catalog c.tableIdentifier = some .databases →
    c.Completes env s catalog names .databases →
    ∀ d ∈ (s .databases).rows, d.organizationId = catalog.userInSession.orgId →
      d ∉ listed s catalog →
      Already c.grants (Held s) (idsOf s catalog.userInSession names) (onDatabase d.id c.types)
  tables : ∀ names d t, c.grantees s catalog = some names →
    objectOf s catalog c.tableIdentifier = some (.table d t) → c.OnTables →
    (∀ user ∈ names, found s catalog user = true) → c.createsOnTable ≠ c.grants → names = []
  columns : ∀ names d t, c.grantees s catalog = some names →
    objectOf s catalog c.tableIdentifier = some (.table d t) → c.OnColumns →
    c.HasColumns env s catalog t → (∀ user ∈ names, found s catalog user = true) →
    c.storesUpdateAs ≠ "UPDATE" → ∀ column ∈ c.updated,
      (∀ p ∈ onColumns d.id t.id [(column, "UPDATE")],
        p ∈ onColumns d.id t.id (c.columns "SELECT" "SELECT") ∨
          Already c.grants (Held s) (idsOf s catalog.userInSession names) [p]) ∧
      ∀ p ∈ onColumns d.id t.id [(column, "SELECT")],
        p ∈ onColumns d.id t.id (c.columns "SELECT" "UPDATE") ∨
          Already c.grants (Held s) (idsOf s catalog.userInSession names) [p]

end Exact

section Cases

variable {now : Nat} {o : Object}

lemma reached_of_all (hall : ∀ user ∈ names, found s catalog user = true) :
    reached s catalog names = idsOf s catalog.userInSession names := by
  rw [reached, Action.upTo_of_all hall]

lemma ids_eq_nil (hall : ∀ user ∈ names, found s catalog user = true) :
    idsOf s catalog.userInSession names = [] ↔ names = [] := by
  cases names with
  | nil => simp [idsOf]
  | cons user names =>
    obtain ⟨u, hu⟩ := Option.isSome_iff_exists.mp (hall user (by simp))
    simp [idsOf, hu]

omit [Names] in
/-- The columns listed for UPDATE are those whose type depends on what it is stored as. -/
lemma mem_columns {onSelect onUpdate : String} {x : String × String} :
    x ∈ c.columns onSelect onUpdate ↔
      (x.1 ∈ c.selected ∧ x.2 = onSelect) ∨ (x.1 ∈ c.updated ∧ x.2 = onUpdate) := by
  obtain ⟨name, privilegeType⟩ := x
  simp only [columns, selected, updated, List.mem_flatMap]
  constructor
  · rintro ⟨p, hp, hx⟩
    cases p with
    | columnSelect column =>
      simp at hx
      exact Or.inl ⟨⟨_, hp, hx.1⟩, hx.2.symm⟩
    | columnUpdate column =>
      simp at hx
      exact Or.inr ⟨⟨_, hp, hx.1⟩, hx.2.symm⟩
    | _ => simp at hx
  · rintro (⟨⟨p, hp, hx⟩, htype⟩ | ⟨⟨p, hp, hx⟩, htype⟩)
    · cases p with
      | columnSelect column => exact ⟨_, hp, by simpa [htype] using hx⟩
      | _ => simp at hx
    · cases p with
      | columnUpdate column => exact ⟨_, hp, by simpa [htype] using hx⟩
      | _ => simp at hx

/-- What a command that completes leaves behind is what it names. -/
lemma exact_iff_of_completes (hnames : c.grantees s catalog = some names)
    (hobject : objectOf s catalog c.tableIdentifier = some o)
    (h : c.Completes env s catalog names o) :
    c.Exact env s catalog now ↔
      toggle (c.creates o) (pairs (reached s catalog names) (c.written env s catalog names o)) (Held s) =
        toggle c.grants (pairs (idsOf s catalog.userInSession names) (c.named s catalog o))
          (Held s) := by
  have hrun := changes_run env now hnames hobject
  have hs : Beside s s := fun _ _ => rfl
  rw [Exact, (hrun.exec hs).2, if_pos ((hrun.succeeds_iff hs).mpr h), namedSet, hnames, hobject]

lemma mem_listed {d : DatabaseEntity} (h : d ∈ listed s catalog) :
    d ∈ (s .databases).rows ∧ d.organizationId = catalog.userInSession.orgId := by
  obtain ⟨e, _, hd⟩ := List.mem_filterMap.mp h
  exact ⟨(Store.database_some hd).1, (Store.database_some hd).2.1⟩

/-- A privilege on a database is named on every database of the organization. -/
lemma databases_iff (hon : c.OnTables)
    (hall : listed s catalog = [] ∨ ∀ user ∈ names, found s catalog user = true) :
    toggle (c.creates .databases)
        (pairs (reached s catalog names) (c.written env s catalog names .databases)) (Held s) =
        toggle c.grants (pairs (idsOf s catalog.userInSession names) (c.named s catalog .databases))
          (Held s) ↔
      ∀ d ∈ (s .databases).rows, d.organizationId = catalog.userInSession.orgId →
        d ∉ listed s catalog →
        Already c.grants (Held s) (idsOf s catalog.userInSession names)
          (onDatabase d.id c.types) := by
  have hwritten : toggle (c.creates .databases)
      (pairs (reached s catalog names) (c.written env s catalog names .databases)) (Held s) =
      toggle c.grants (pairs (idsOf s catalog.userInSession names)
        ((listed s catalog).flatMap fun d => onDatabase d.id c.types)) (Held s) := by
    show toggle c.grants _ _ = _
    rw [written, if_pos hon]
    by_cases hfound : ∀ user ∈ names, found s catalog user = true
    · rw [if_pos hfound, reached_of_all hfound]
    · have hnone := hall.resolve_right hfound
      simp only [hnone, List.take_nil, ite_self, List.flatMap_nil, toggle_pairs_no_privileges]
  rw [hwritten, toggle_pairs_eq_iff]
  simp only [named, List.mem_flatMap, List.mem_filter, beq_iff_eq]
  constructor
  · intro h d hd horg hnot user huser p hp
    apply (h user huser p).resolve_left
    intro hiff
    obtain ⟨d', hd', hp'⟩ := hiff.mpr ⟨d, ⟨hd, horg⟩, hp⟩
    have hid : d'.id = d.id := by
      obtain ⟨x, _, hx⟩ := List.mem_map.mp hp
      obtain ⟨x', _, hx'⟩ := List.mem_map.mp hp'
      exact (Privilege.database.inj (hx'.trans hx.symm)).1
    rw [(s .databases).eq_of_id (mem_listed hd').1 hd hid] at hd'
    exact hnot hd'
  · intro h user huser p
    by_cases hp : ∃ d ∈ listed s catalog, p ∈ onDatabase d.id c.types
    · obtain ⟨d, hd, hp⟩ := hp
      exact Or.inl ⟨fun _ => ⟨d, mem_listed hd, hp⟩, fun _ => ⟨d, hd, hp⟩⟩
    · by_cases hp' : ∃ d, (d ∈ (s .databases).rows ∧
          d.organizationId = catalog.userInSession.orgId) ∧ p ∈ onDatabase d.id c.types
      · obtain ⟨d, ⟨hd, horg⟩, hpd⟩ := hp'
        exact Or.inr (h d hd horg (fun hd => hp ⟨d, hd, hpd⟩) user huser p hpd)
      · exact Or.inl ⟨fun h => absurd h hp, fun h => absurd h hp'⟩

omit [Names] in
lemma updated_of_onTables (hon : c.OnTables) : c.selected = [] ∧ c.updated = [] := by
  constructor
  · rw [selected, List.flatMap_eq_nil_iff]
    intro p hp
    have := hon p hp
    cases p <;> simp [ResourcePrivilege.isColumnLevel] at this ⊢
  · rw [updated, List.flatMap_eq_nil_iff]
    intro p hp
    have := hon p hp
    cases p <;> simp [ResourcePrivilege.isColumnLevel] at this ⊢

variable {d : DatabaseEntity} {t : TableEntity}

/-- On the level of a table only the direction can be wrong. -/
lemma tables_iff (hon : c.OnTables) (hall : ∀ user ∈ names, found s catalog user = true) :
    toggle (c.creates (.table d t))
        (pairs (reached s catalog names) (c.written env s catalog names (.table d t))) (Held s) =
        toggle c.grants
          (pairs (idsOf s catalog.userInSession names) (c.named s catalog (.table d t))) (Held s) ↔
      (c.createsOnTable ≠ c.grants → names = []) := by
  have htl : c.tableLevel ≠ [] := by
    rw [tableLevel_of_onTables hon]
    exact c.privileges.2
  have hcolumns : c.columns "SELECT" "UPDATE" = [] := by
    apply List.eq_nil_iff_forall_not_mem.mpr
    intro x hx
    obtain ⟨hselected, hupdated⟩ := updated_of_onTables hon
    simp [mem_columns, hselected, hupdated] at hx
  have hfilter : (c.privileges.1.filter fun p => !p.isColumnLevel) = c.privileges.1 := by
    rw [List.filter_eq_self]
    intro p hp
    simp [hon p hp]
  have hnamed : c.named s catalog (.table d t) = onTable d.id t.id c.types := by
    simp [named, hcolumns, hfilter, onColumns, types]
  have hwritten : c.written env s catalog names (.table d t) = onTable d.id t.id c.types := by
    rw [written, if_pos htl, tableLevel_of_onTables hon]
    rfl
  have htypes : onTable d.id t.id c.types ≠ [] := by
    simp [onTable, types, c.privileges.2]
  rw [hnamed, hwritten, reached_of_all hall, creates, if_pos htl, ← ids_eq_nil hall]
  cases hcreates : c.createsOnTable <;> cases hgrants : c.grants
  · simp
  · simp [createsOnTable, hgrants] at hcreates
  · simp [give_eq_take_iff, htypes]
  · simp

/-- On the level of columns only the type of a column listed for UPDATE can be wrong. -/
lemma columns_iff (hon : c.OnColumns) (hhas : c.HasColumns env s catalog t)
    (hall : ∀ user ∈ names, found s catalog user = true) :
    toggle (c.creates (.table d t))
        (pairs (reached s catalog names) (c.written env s catalog names (.table d t))) (Held s) =
        toggle c.grants
          (pairs (idsOf s catalog.userInSession names) (c.named s catalog (.table d t))) (Held s) ↔
      (c.storesUpdateAs ≠ "UPDATE" → ∀ column ∈ c.updated,
        (∀ p ∈ onColumns d.id t.id [(column, "UPDATE")],
          p ∈ onColumns d.id t.id (c.columns "SELECT" "SELECT") ∨
            Already c.grants (Held s) (idsOf s catalog.userInSession names) [p]) ∧
        ∀ p ∈ onColumns d.id t.id [(column, "SELECT")],
          p ∈ onColumns d.id t.id (c.columns "SELECT" "UPDATE") ∨
            Already c.grants (Held s) (idsOf s catalog.userInSession names) [p]) := by
  have htl := onColumns_of_tableLevel hon
  have hfilter : (c.privileges.1.filter fun p => !p.isColumnLevel) = [] := by
    rw [List.filter_eq_nil_iff]
    intro p hp
    simp [hon p hp]
  have hnamed : c.named s catalog (.table d t) =
      onColumns d.id t.id (c.columns "SELECT" "UPDATE") := by
    simp [named, hfilter, onTable]
  have hwritten : c.written env s catalog names (.table d t) =
      onColumns d.id t.id (c.columns "SELECT" c.storesUpdateAs) := by
    rw [written, if_neg (by simpa using htl), if_pos ⟨hon, hhas⟩]
  rw [hnamed, hwritten, reached_of_all hall, creates, if_neg (by simpa using htl)]
  by_cases hstores : c.storesUpdateAs = "UPDATE"
  · simp [hstores]
  · have hselect : c.storesUpdateAs = "SELECT" := by
      unfold storesUpdateAs at hstores ⊢
      split at hstores <;> simp_all
    rw [hselect, toggle_pairs_eq_iff]
    have hsingle {x : String × String} {p : Privilege} (hp : p ∈ onColumns d.id t.id [x])
        {columns : List (String × String)} (hx : x ∈ columns) :
        p ∈ onColumns d.id t.id columns := by
      obtain ⟨y, hy, heq⟩ := List.mem_map.mp hp
      rw [List.mem_singleton.mp hy] at heq
      exact List.mem_map.mpr ⟨x, hx, heq⟩
    constructor
    · intro h _ column hcolumn
      have hwrite : (column, "SELECT") ∈ c.columns "SELECT" "SELECT" :=
        mem_columns.mpr (Or.inr ⟨hcolumn, rfl⟩)
      have hname : (column, "UPDATE") ∈ c.columns "SELECT" "UPDATE" :=
        mem_columns.mpr (Or.inr ⟨hcolumn, rfl⟩)
      constructor
      · intro p hp
        by_cases hw : p ∈ onColumns d.id t.id (c.columns "SELECT" "SELECT")
        · exact Or.inl hw
        · right
          intro user huser p' hp'
          rw [List.mem_singleton.mp hp']
          exact (h user huser p).resolve_left fun hiff => hw (hiff.mpr (hsingle hp hname))
      · intro p hp
        by_cases hn : p ∈ onColumns d.id t.id (c.columns "SELECT" "UPDATE")
        · exact Or.inl hn
        · right
          intro user huser p' hp'
          rw [List.mem_singleton.mp hp']
          exact (h user huser p).resolve_left fun hiff => hn (hiff.mp (hsingle hp hwrite))
    · intro h user huser p
      have h := h (by simp)
      by_cases hw : p ∈ onColumns d.id t.id (c.columns "SELECT" "SELECT")
      · by_cases hn : p ∈ onColumns d.id t.id (c.columns "SELECT" "UPDATE")
        · exact Or.inl ⟨fun _ => hn, fun _ => hw⟩
        · obtain ⟨x, hx, heq⟩ := List.mem_map.mp hw
          rcases mem_columns.mp hx with hx | hx
          · exact absurd (List.mem_map.mpr ⟨x, mem_columns.mpr (Or.inl hx), heq⟩) hn
          · have hp : p ∈ onColumns d.id t.id [(x.1, "SELECT")] :=
              List.mem_map.mpr ⟨x, by simp [← hx.2], heq⟩
            exact Or.inr (((h x.1 hx.1).2 p hp).resolve_left hn user huser p (by simp))
      · by_cases hn : p ∈ onColumns d.id t.id (c.columns "SELECT" "UPDATE")
        · obtain ⟨x, hx, heq⟩ := List.mem_map.mp hn
          rcases mem_columns.mp hx with hx | hx
          · exact absurd (List.mem_map.mpr ⟨x, mem_columns.mpr (Or.inl hx), heq⟩) hw
          · have hp : p ∈ onColumns d.id t.id [(x.1, "UPDATE")] :=
              List.mem_map.mpr ⟨x, by simp [← hx.2], heq⟩
            exact Or.inr (((h x.1 hx.1).1 p hp).resolve_left hw user huser p (by simp))
        · exact Or.inl ⟨fun h => absurd h hw, fun h => absurd h hn⟩

lemma exact_iff_of_not_completes (hnames : c.grantees s catalog = some names)
    (hobject : objectOf s catalog c.tableIdentifier = some o)
    (h : ¬ c.Completes env s catalog names o) :
    c.Exact env s catalog now ↔ Already (c.creates o) (Held s) (reached s catalog names)
      (c.written env s catalog names o) := by
  have hrun := changes_run env now hnames hobject
  have hs : Beside s s := fun _ _ => rfl
  rw [Exact, (hrun.exec hs).2, if_neg fun hok => h ((hrun.succeeds_iff hs).mp hok)]
  exact toggle_pairs_eq_self_iff

/-- The fields of `Meets` that are about the users and the object there are. -/
lemma meets_of (hnames : c.grantees s catalog = some names)
    (hobject : objectOf s catalog c.tableIdentifier = some o)
    (hstops : ¬ c.Completes env s catalog names o →
      Already (c.creates o) (Held s) (reached s catalog names) (c.written env s catalog names o))
    (hcompletes : c.Completes env s catalog names o →
      toggle (c.creates o) (pairs (reached s catalog names) (c.written env s catalog names o))
          (Held s) =
        toggle c.grants (pairs (idsOf s catalog.userInSession names) (c.named s catalog o))
          (Held s)) : c.Meets env s catalog := by
  have hsame {names' : List String} (h : c.grantees s catalog = some names') : names' = names :=
    Option.some.inj (h.symm.trans hnames)
  have hsame' {o' : Object} (h : objectOf s catalog c.tableIdentifier = some o') : o' = o :=
    Option.some.inj (h.symm.trans hobject)
  constructor
  · intro names' o' h h' hnot
    rw [hsame h, hsame' h'] at hnot ⊢
    exact hstops hnot
  · intro names' h h' hcomp
    rw [hsame h] at hcomp ⊢
    rw [hsame' h'] at hcomp
    have heq := hcompletes hcomp
    rw [← hsame' h'] at heq hcomp
    exact (databases_iff hcomp.1 hcomp.2).mp heq
  · intro names' d t h h' hon hall
    rw [hsame h] at hall ⊢
    rw [← hsame' h'] at hcompletes
    exact (tables_iff hon hall).mp (hcompletes ⟨Or.inl hon, hall⟩)
  · intro names' d t h h' hon hhas hall
    rw [hsame h] at hall ⊢
    rw [← hsame' h'] at hcompletes
    exact (columns_iff hon hhas hall).mp (hcompletes ⟨Or.inr ⟨hon, hhas⟩, hall⟩)

lemma eq_of_meets (hnames : c.grantees s catalog = some names)
    (hobject : objectOf s catalog c.tableIdentifier = some o) (hmeets : c.Meets env s catalog)
    (h : c.Completes env s catalog names o) :
    toggle (c.creates o) (pairs (reached s catalog names) (c.written env s catalog names o))
        (Held s) =
      toggle c.grants (pairs (idsOf s catalog.userInSession names) (c.named s catalog o))
        (Held s) := by
  cases o with
  | databases => exact (databases_iff h.1 h.2).mpr (hmeets.databases names hnames hobject h)
  | database d =>
    show toggle c.grants _ _ = toggle c.grants (pairs _ (onDatabase d.id c.types)) _
    rw [written, if_pos h.1, reached_of_all h.2]
  | table d t =>
    rcases h.1 with hon | ⟨hon, hhas⟩
    · exact (tables_iff hon h.2).mpr (hmeets.tables names d t hnames hobject hon h.2)
    · exact (columns_iff hon hhas h.2).mpr
        (hmeets.columns names d t hnames hobject hon hhas h.2)

/-- When a command does what it names. -/
lemma exact_iff : c.Exact env s catalog now ↔ c.Meets env s catalog := by
  have hs : Beside s s := fun _ _ => rfl
  cases hnames : c.grantees s catalog with
  | none =>
    have hrun : Action.Changes (Beside s) Held (c.run env catalog now) False id :=
      (refuses_run hnames).changes
    have hexact : c.Exact env s catalog now := by
      rw [Exact, (hrun.exec hs).2, if_neg fun hok => (hrun.succeeds_iff hs).mp hok]
      rfl
    have hnone {p : Prop} {names : List String} (h : c.grantees s catalog = some names) : p := by
      rw [hnames] at h
      cases h
    exact ⟨fun _ => ⟨fun _ _ h => hnone h, fun _ h => hnone h, fun _ _ _ h => hnone h,
      fun _ _ _ h => hnone h⟩, fun _ => hexact⟩
  | some names =>
    cases hobject : objectOf s catalog c.tableIdentifier with
    | none =>
      obtain ⟨ok, hrun⟩ := changes_run_of_none env now hnames hobject
      have hexact : c.Exact env s catalog now := by
        rw [Exact, (hrun.exec hs).2, namedSet, hnames, hobject]
        split
        · cases c.grants <;> ext p <;> simp [toggle]
        · rfl
      have hnone {p : Prop} {o : Object} (h : objectOf s catalog c.tableIdentifier = some o) :
          p := by
        rw [hobject] at h
        cases h
      exact ⟨fun _ => ⟨fun _ _ _ h => hnone h, fun _ _ h => hnone h, fun _ _ _ _ h => hnone h,
        fun _ _ _ _ h => hnone h⟩, fun _ => hexact⟩
    | some o =>
      by_cases hcompletes : c.Completes env s catalog names o
      · rw [exact_iff_of_completes hnames hobject hcompletes]
        constructor
        · exact fun h => meets_of hnames hobject (fun hnot => absurd hcompletes hnot) fun _ => h
        · exact fun h => eq_of_meets hnames hobject h hcompletes
      · rw [exact_iff_of_not_completes hnames hobject hcompletes]
        constructor
        · exact fun h => meets_of hnames hobject (fun _ => h) fun h => absurd h hcompletes
        · exact fun h => h.stops names o hnames hobject hcompletes

/-! ### A grant and its revocation -/

lemma beside_run : Beside s ((c.run env catalog now).run.exec s) := by
  have hs : Beside s s := fun _ _ => rfl
  cases hnames : c.grantees s catalog with
  | none =>
    have hrun : Action.Changes (Beside s) Held (c.run env catalog now) False id :=
      (refuses_run hnames).changes
    exact (hrun.exec hs).1
  | some names =>
    cases hobject : objectOf s catalog c.tableIdentifier with
    | none =>
      obtain ⟨ok, hrun⟩ := changes_run_of_none env now hnames hobject
      exact (hrun.exec hs).1
    | some o => exact ((changes_run env now hnames hobject).exec hs).1

/-- What a command names depends on no privilege. -/
lemma namedSet_congr {s' : Store} (h : Beside s s') : c.namedSet s' catalog = c.namedSet s catalog := by
  have hnames : c.grantee.names s' catalog = c.grantee.names s catalog := by
    cases c.grantee with
    | user user => rfl
    | group group => simp only [Grantee.names, h.group, h.members]
  have hknown : known s' catalog = known s catalog := by
    funext user
    simp only [known, h.organization, h.user]
  have hgrantees : c.grantees s' catalog = c.grantees s catalog := by
    rw [grantees, hnames, hknown, grantees]
  have hobject : objectOf s' catalog c.tableIdentifier = objectOf s catalog c.tableIdentifier := by
    simp only [objectOf, h.database, h.table]
  have hids : idsOf s' catalog.userInSession = idsOf s catalog.userInSession := by
    funext names
    simp only [idsOf, h.user]
  have hnamed : c.named s' catalog = c.named s catalog := by
    funext o
    cases o with
    | databases => simp only [named, h .databases (by simp [IsPrivilege])]
    | _ => rfl
  rw [namedSet, hgrantees, hobject, hids, hnamed, namedSet]

/-- The command that takes what the command gives. -/
def revoked (c : ResourceCommand) : ResourceCommand := { c with grants := false }

end Cases

/-- What the commands do is exactly what they name just if they meet the condition. Then revoking
what was granted and not held before restores what was held. -/
theorem grants_exact (env : Env) (catalog : MoonboxCatalog) (now now' : Nat) (c : ResourceCommand)
    (s : Store) :
    (c.Exact env s catalog now ↔ c.Meets env s catalog) ∧
      let s' := (c.run env catalog now).run.exec s
      (c.grants = true → c.Meets env s catalog → c.revoked.Meets env s' catalog →
        (c.run env catalog now).run.succeeds s = true →
        (c.revoked.run env catalog now').run.succeeds s' = true →
        Disjoint (c.namedSet s catalog) (Held s) →
        Held ((c.revoked.run env catalog now').run.exec s') = Held s) := by
  refine ⟨exact_iff, fun hgrants hmeets hmeets' hok hok' hfresh => ?_⟩
  have hgrant : c.Exact env s catalog now := exact_iff.mpr hmeets
  have hrevoke : c.revoked.Exact env _ catalog now' := exact_iff.mpr hmeets'
  have hnamed : c.revoked.namedSet ((c.run env catalog now).run.exec s) catalog =
      c.namedSet s catalog := namedSet_congr (c := c) beside_run
  rw [Exact, if_pos hok, hgrants] at hgrant
  rw [Exact, if_pos hok', hnamed, hgrant] at hrevoke
  rw [hrevoke]
  ext p
  have hp : p ∈ Held s → ¬ p ∈ c.namedSet s catalog := fun h => Set.disjoint_right.mp hfresh h
  simp [toggle, revoked]
  tauto

end ResourceCommand

/-! ### Commands that do something else -/

def rowOfDefault : DatabaseEntity :=
  { id := 1
    name := "default"
    organizationId := 1
    properties := []
    isLogical := true
    createBy := 1
    createTime := 2
    updateBy := 1
    updateTime := 2 }

def rowOfT : TableEntity :=
  { id := 1
    name := "t"
    databaseId := 1
    tableType := "TABLE"
    properties := []
    viewText := none
    createBy := 1
    createTime := 2
    updateBy := 1
    updateTime := 2 }

/-- A table of the default database of a, and a group of which bob is the only member. -/
def groupOfBob : Store :=
  execAll
    [.insert .databases rowOfDefault,
      .insert .tables rowOfT,
      .insert .groups
        { name := "g"
          organizationId := 1
          description := none
          createBy := 1
          createTime := 2
          updateBy := 1
          updateTime := 2 },
      .insert .groupUserRels
        { groupId := 1
          userId := 2
          createBy := 1
          createTime := 2
          updateBy := 1
          updateTime := 2 }] saAndBob

/-- A command on the table t. -/
def onT (grants : Bool) (grantee : Grantee) (privileges : NonemptyList ResourcePrivilege) :
    ResourceCommand := ⟨grants, grantee, privileges, { table := "t" }⟩

omit [Names] in
lemma mem_namedSet_onT {grants : Bool} {grantee : Grantee}
    {privileges : NonemptyList ResourcePrivilege} (names : List String) {p : Nat × Privilege}
    (hnames : letI := exactNames
      (onT grants grantee privileges).grantees groupOfBob sessionOfSa = some names)
    (huser : letI := exactNames; p.1 ∈ idsOf groupOfBob sessionOfSa.userInSession names)
    (hp : letI := exactNames
      p.2 ∈ (onT grants grantee privileges).named groupOfBob sessionOfSa
        (.table rowOfDefault rowOfT)) :
    letI := exactNames
    p ∈ (onT grants grantee privileges).namedSet groupOfBob sessionOfSa := by
  let _ := exactNames
  have hobject : objectOf groupOfBob sessionOfSa (onT grants grantee privileges).tableIdentifier =
      some (.table rowOfDefault rowOfT) := by
    show objectOf groupOfBob sessionOfSa { table := "t" } = _
    decide +kernel
  rw [ResourceCommand.namedSet, hnames, hobject]
  exact ⟨huser, hp⟩

omit [Names] in
/-- A revoke from a group gives, a grant of a column to a group stores another type, and a list
that mixes the levels is done in part. -/
theorem grants_exact_fails :
    letI := exactNames
    ¬ (onT false (.group "g") ⟨[.select], by decide⟩).Exact plainEnv groupOfBob sessionOfSa 3 ∧
    ¬ (onT true (.group "g") ⟨[.columnUpdate ["id"]], by decide⟩).Exact plainEnv groupOfBob
      sessionOfSa 3 ∧
    ¬ (onT true (.user "bob") ⟨[.insert, .columnSelect ["id"]], by decide⟩).Exact plainEnv
      groupOfBob sessionOfSa 3 := by
  let _ := exactNames
  refine ⟨fun h => ?_, fun h => ?_, fun h => ?_⟩
  · rw [ResourceCommand.Exact, if_pos (by decide +kernel)] at h
    have hgiven : (2, Privilege.table 1 1 "SELECT") ∈ Held (((onT false (.group "g")
        ⟨[.select], by decide⟩).run plainEnv sessionOfSa 3).run.exec groupOfBob) :=
      ⟨.tablePrivileges, by decide +kernel⟩
    rw [h] at hgiven
    exact hgiven.2 (mem_namedSet_onT ["bob"] (by decide +kernel) (by decide +kernel)
      (by decide +kernel))
  · rw [ResourceCommand.Exact, if_pos (by decide +kernel)] at h
    have hnamed : (2, Privilege.column 1 1 "id" "UPDATE") ∈ Held (((onT true (.group "g")
        ⟨[.columnUpdate ["id"]], by decide⟩).run plainEnv sessionOfSa 3).run.exec groupOfBob) := by
      rw [h]
      exact Or.inr (mem_namedSet_onT ["bob"] (by decide +kernel) (by decide +kernel)
        (by decide +kernel))
    obtain ⟨k, hk⟩ := hnamed
    revert hk
    cases k <;> decide +kernel
  · rw [ResourceCommand.Exact, if_neg (by decide +kernel)] at h
    have hgiven : (2, Privilege.table 1 1 "INSERT") ∈ Held (((onT true (.user "bob")
        ⟨[.insert, .columnSelect ["id"]], by decide⟩).run plainEnv sessionOfSa 3).run.exec
          groupOfBob) := ⟨.tablePrivileges, by decide +kernel⟩
    rw [h] at hgiven
    obtain ⟨k, hk⟩ := hgiven
    revert hk
    cases k <;> decide +kernel

end Moonbox.Core
