import Mathlib.Data.Set.Basic
import Moonbox.Catalog.Operations
import Moonbox.Core.Dcl
import Moonbox.Lib.Views

/-!
# Privileges as sets

Who holds what, and how the catalog's operations on privileges change it. Types and columns count
as the database compares them.
-/

namespace Moonbox.Core

open Catalog Relational

variable [Names]

inductive Privilege
  | database (db : Nat) (privilegeType : String)
  | table (db table : Nat) (privilegeType : String)
  | column (db table : Nat) (column privilegeType : String)
  deriving DecidableEq

/-- The user and the privilege of a row of the three tables of privileges. -/
def shown : (k : Kind) → Entity k → Option (Nat × Privilege)
  | .databasePrivileges, e =>
    some (e.userId, .database e.databaseId (Names.collate e.privilegeType))
  | .tablePrivileges, e =>
    some (e.userId, .table e.databaseId e.tableId (Names.collate e.privilegeType))
  | .columnPrivileges, e =>
    some (e.userId, .column e.databaseId e.tableId (Names.collate e.column)
      (Names.collate e.privilegeType))
  | _, _ => none

/-- The users by their ids and the privileges they hold. -/
def Held (s : Store) : Set (Nat × Privilege) := { p | ∃ k, ∃ e ∈ (s k).rows, shown k e = some p }

/-- Each of the users with each of the privileges. -/
def pairs (users : List Nat) (privileges : List Privilege) : Set (Nat × Privilege) :=
  { p | p.1 ∈ users ∧ p.2 ∈ privileges }

/-- A set is given or taken away. -/
def toggle (grants : Bool) (A H : Set (Nat × Privilege)) : Set (Nat × Privilege) :=
  if grants then H ∪ A else H \ A

/-- The ids under which the organization of the caller finds the names. -/
def idsOf (s : Store) (caller : User) (names : List String) : List Nat :=
  names.filterMap fun user => (Store.user s caller.orgId user).map UserEntity.id

def IsPrivilege (k : Kind) : Prop :=
  k = .databasePrivileges ∨ k = .tablePrivileges ∨ k = .columnPrivileges

/-- The states that differ from `s` in privileges only. -/
abbrev Beside (s : Store) : Store → Prop := AgreeOutside (E := Entity) IsPrivilege s

section Sets

variable {H : Set (Nat × Privilege)} {users : List Nat} {privileges : List Privilege}

omit [Names]

lemma foldl_toggle {α : Type} (grants : Bool) (A : α → Set (Nat × Privilege)) (as : List α) :
    as.foldl (fun H a => toggle grants (A a) H) H = toggle grants { p | ∃ a ∈ as, p ∈ A a } H := by
  induction as generalizing H with
  | nil => cases grants <;> ext p <;> simp [toggle]
  | cons a as ih =>
    rw [List.foldl_cons, ih]
    cases grants
    · ext p
      simp [toggle, and_assoc]
    · ext p
      simp [toggle, or_assoc]

lemma toggle_pairs_nil (grants : Bool) : toggle grants (pairs [] privileges) H = H := by
  cases grants <;> ext p <;> simp [toggle, pairs]

lemma toggle_pairs_no_privileges (grants : Bool) : toggle grants (pairs users []) H = H := by
  cases grants <;> ext p <;> simp [toggle, pairs]

lemma toggle_pairs_eq_iff {grants : Bool} {A B : List Privilege} :
    toggle grants (pairs users A) H = toggle grants (pairs users B) H ↔
      ∀ user ∈ users, ∀ p, (p ∈ A ↔ p ∈ B) ∨ ((user, p) ∈ H ↔ grants = true) := by
  constructor
  · intro h user huser p
    have hp := Set.ext_iff.mp h (user, p)
    cases grants <;> simp [toggle, pairs, huser] at hp ⊢ <;> tauto
  · intro h
    ext ⟨user, p⟩
    by_cases huser : user ∈ users
    · have hp := h user huser p
      cases grants <;> simp [toggle, pairs, huser] at hp ⊢ <;> tauto
    · cases grants <;> simp [toggle, pairs, huser]

lemma toggle_pairs_eq_self_iff {grants : Bool} :
    toggle grants (pairs users privileges) H = H ↔
      ∀ user ∈ users, ∀ p ∈ privileges, (user, p) ∈ H ↔ grants = true := by
  have h : toggle grants (pairs users privileges) H = toggle grants (pairs users []) H ↔
      ∀ user ∈ users, ∀ p, (p ∈ privileges ↔ p ∈ []) ∨ ((user, p) ∈ H ↔ grants = true) :=
    toggle_pairs_eq_iff
  rw [toggle_pairs_no_privileges] at h
  rw [h]
  simp only [List.not_mem_nil, iff_false, imp_iff_not_or]

/-- To give and to take away are different things. -/
lemma give_eq_take_iff : toggle true (pairs users privileges) H =
    toggle false (pairs users privileges) H ↔ users = [] ∨ privileges = [] := by
  constructor
  · intro h
    by_contra! hne
    obtain ⟨user, huser⟩ := List.exists_mem_of_ne_nil _ hne.1
    obtain ⟨p, hp⟩ := List.exists_mem_of_ne_nil _ hne.2
    have hpair := Set.ext_iff.mp h (user, p)
    simp [toggle, pairs, huser, hp] at hpair
  · rintro (h | h)
    · rw [h, toggle_pairs_nil, toggle_pairs_nil]
    · rw [h, toggle_pairs_no_privileges, toggle_pairs_no_privileges]

end Sets

/-! ### Writes -/

section Writes

variable {s : Store} {k : Kind}

lemma held_inserts (es : List (Entity k)) :
    Held (execAll (Write.inserts k es) s) =
      Held s ∪ { p | ∃ e ∈ es, shown k e = some p } := by
  have hother : ∀ k' ≠ k, execAll (Write.inserts k es) s k' = s k' := by
    intro k' hk'
    apply AgreeOutside.execAll (p := (· = k)) (fun _ _ => rfl) _ k' hk'
    exact fun w hw => Write.table_of_mem_inserts hw
  ext p
  have hk : (∃ e ∈ (execAll (Write.inserts k es) s k).rows, shown k e = some p) ↔
      (∃ e ∈ (s k).rows, shown k e = some p) ∨ ∃ e ∈ es, shown k e = some p := by
    apply exists_execAll_inserts
    intro n e
    cases k <;> exact Iff.rfl
  constructor
  · rintro ⟨k', hk'⟩
    by_cases heq : k' = k
    · subst heq
      rcases hk.mp hk' with h | h
      · exact Or.inl ⟨_, h⟩
      · exact Or.inr h
    · rw [hother k' heq] at hk'
      exact Or.inl ⟨k', hk'⟩
  · rintro (⟨k', hk'⟩ | h)
    · by_cases heq : k' = k
      · subst heq
        exact ⟨_, hk.mpr (Or.inl hk')⟩
      · rw [← hother k' heq] at hk'
        exact ⟨k', hk'⟩
    · exact ⟨k, hk.mpr (Or.inr h)⟩

lemma held_deletes {α : Type} {cond : α → Entity k → Bool} {as : List α}
    {A : Set (Nat × Privilege)}
    (hA : ∀ e p, shown k e = some p → (p ∈ A ↔ ∃ a ∈ as, cond a e = true))
    (hother : ∀ k' ≠ k, ∀ e p, shown k' e = some p → p ∉ A) :
    Held (execAll (as.map fun a => .delete k (cond a)) s) = Held s \ A := by
  have hsame : ∀ k' ≠ k, execAll (as.map fun a => .delete k (cond a)) s k' = s k' := by
    intro k' hk'
    apply AgreeOutside.execAll (p := (· = k)) (fun _ _ => rfl) _ k' hk'
    intro w hw
    obtain ⟨a, _, heq⟩ := List.mem_map.mp hw
    rw [← heq]
    rfl
  ext p
  constructor
  · rintro ⟨k', e, he, hp⟩
    by_cases heq : k' = k
    · subst heq
      have hshown : ∃ r ∈ (execAll (as.map fun a => .delete k' (cond a)) s k').rows,
        shown k' r = some p := ⟨e, he, hp⟩
      obtain ⟨e, he, hp, hcond⟩ := exists_execAll_deletes.mp hshown
      refine ⟨⟨_, e, he, hp⟩, fun hpA => ?_⟩
      obtain ⟨a, ha, htrue⟩ := (hA e p hp).mp hpA
      rw [hcond a ha] at htrue
      cases htrue
    · rw [hsame k' heq] at he
      exact ⟨⟨k', e, he, hp⟩, hother k' heq e p hp⟩
  · rintro ⟨⟨k', e, he, hp⟩, hpA⟩
    by_cases heq : k' = k
    · subst heq
      refine ⟨_, exists_execAll_deletes.mpr ⟨e, he, hp, fun a ha => ?_⟩⟩
      exact Bool.eq_false_iff.mpr fun htrue => hpA ((hA e p hp).mpr ⟨a, ha, htrue⟩)
    · rw [← hsame k' heq] at he
      exact ⟨k', e, he, hp⟩

end Writes

/-! ### The operations of the catalog -/

section Lookups

variable {s s₀ : Store} {name : String} {orgId dbId : Nat}

lemma Beside.user (h : Beside s₀ s) : Store.user s orgId name = Store.user s₀ orgId name := by
  rw [Store.user, h .users (by simp [IsPrivilege]), Store.user]

lemma Beside.database (h : Beside s₀ s) :
    Store.database s orgId name = Store.database s₀ orgId name := by
  rw [Store.database, h .databases (by simp [IsPrivilege]), Store.database]

lemma Beside.table (h : Beside s₀ s) : Store.table s dbId name = Store.table s₀ dbId name := by
  rw [Store.table, h .tables (by simp [IsPrivilege]), Store.table]

end Lookups

section Operations

variable {s s₀ : Store} {caller : User} {now : Nat} {user database table : String}
  {d : DatabaseEntity} {t : TableEntity}

lemma idsOf_singleton : idsOf s caller [user] =
    match Store.user s caller.orgId user with
    | some u => [u.id]
    | none => [] := by
  unfold idsOf
  cases h : Store.user s caller.orgId user <;> simp [h]

/-- What the name of a user decides about an operation on his privileges. -/
lemma changes_of_user {m : DBIO Unit} {f : Nat → DBIO Unit} {grants : Bool} {ps : List Privilege}
    (hm : m = JdbcCatalog.userId caller.orgId user >>= f)
    (hf : ∀ u, Action.Changes (Beside s₀) Held (f u) True (toggle grants (pairs [u] ps))) :
    Action.Changes (Beside s₀) Held m ((Store.user s₀ caller.orgId user).isSome = true)
      (toggle grants (pairs (idsOf s₀ caller [user]) ps)) := by
  intro s hs
  rw [hm, Action.wp_bind, wp_userId, hs.user, idsOf_singleton]
  cases Store.user s₀ caller.orgId user with
  | none => exact ⟨by simp, hs, (toggle_pairs_nil grants).symm⟩
  | some u => exact (hf u.id).congr (by simp) (fun _ => rfl) s hs

/-- An operation that writes to one table of privileges. -/
lemma changes_writes {k : Kind} {ws : List (Write Entity)} {grants : Bool}
    {A : Set (Nat × Privilege)} (hs : Beside s₀ s) (hk : IsPrivilege k)
    (hws : ∀ w ∈ ws, w.table = k) (hheld : Held (execAll ws s) = toggle grants A (Held s)) :
    True ∧ Beside s₀ (execAll ws s) ∧ Held (execAll ws s) = toggle grants A (Held s) := by
  refine ⟨trivial, hs.execAll fun w hw => ?_, hheld⟩
  rw [hws w hw]
  exact hk

/-- An operation that makes rows. -/
lemma changes_inserts {k : Kind} {es : List (Entity k)} {A : Set (Nat × Privilege)}
    (hs : Beside s₀ s) (hk : IsPrivilege k)
    (hes : ∀ p, p ∈ Held s ∨ (∃ e ∈ es, shown k e = some p) ↔ p ∈ Held s ∨ p ∈ A) :
    True ∧ Beside s₀ (execAll (Write.inserts k es) s) ∧
      Held (execAll (Write.inserts k es) s) = toggle true A (Held s) := by
  apply changes_writes hs hk fun w hw => Write.table_of_mem_inserts hw
  rw [held_inserts]
  ext p
  exact hes p

/-- An operation that removes rows. -/
lemma changes_deletes {α : Type} {k : Kind} {cond : α → Entity k → Bool} {as : List α}
    {A : Set (Nat × Privilege)} (hs : Beside s₀ s) (hk : IsPrivilege k)
    (hA : ∀ e p, shown k e = some p → (p ∈ A ↔ ∃ a ∈ as, cond a e = true))
    (hother : ∀ k' ≠ k, ∀ e p, shown k' e = some p → p ∉ A) :
    True ∧ Beside s₀ (execAll (as.map fun a => .delete k (cond a)) s) ∧
      Held (execAll (as.map fun a => .delete k (cond a)) s) = toggle false A (Held s) := by
  apply changes_writes hs hk
  · intro w hw
    obtain ⟨a, _, heq⟩ := List.mem_map.mp hw
    rw [← heq]
    rfl
  · exact held_deletes hA hother

lemma changes_delete {k : Kind} {cond : Entity k → Bool} {A : Set (Nat × Privilege)}
    (hs : Beside s₀ s) (hk : IsPrivilege k)
    (hA : ∀ e p, shown k e = some p → (p ∈ A ↔ cond e = true))
    (hother : ∀ k' ≠ k, ∀ e p, shown k' e = some p → p ∉ A) :
    True ∧ Beside s₀ (execAll [.delete k cond] s) ∧
      Held (execAll [.delete k cond] s) = toggle false A (Held s) := by
  have hA' : ∀ e p, shown k e = some p → (p ∈ A ↔ ∃ a ∈ [()], cond e = true) := by
    simpa using hA
  exact changes_deletes hs hk hA' hother

def onDatabase (db : Nat) (types : List String) : List Privilege :=
  types.map fun x => .database db (Names.collate x)

def onTable (db table : Nat) (types : List String) : List Privilege :=
  types.map fun x => .table db table (Names.collate x)

def onColumns (db table : Nat) (columns : List (String × String)) : List Privilege :=
  columns.map fun x => .column db table (Names.collate x.1) (Names.collate x.2)

section Members

variable {u db tb : Nat} {p : Nat × Privilege}

@[simp] lemma mem_pairs_onDatabase {types : List String} :
    p ∈ pairs [u] (onDatabase db types) ↔ ∃ x ∈ types, (u, .database db (Names.collate x)) = p := by
  obtain ⟨user, privilege⟩ := p
  simp [pairs, onDatabase]
  grind

@[simp] lemma mem_pairs_onTable {types : List String} :
    p ∈ pairs [u] (onTable db tb types) ↔
      ∃ x ∈ types, (u, .table db tb (Names.collate x)) = p := by
  obtain ⟨user, privilege⟩ := p
  simp [pairs, onTable]
  grind

@[simp] lemma mem_pairs_onColumns {columns : List (String × String)} :
    p ∈ pairs [u] (onColumns db tb columns) ↔
      ∃ x ∈ columns, (u, .column db tb (Names.collate x.1) (Names.collate x.2)) = p := by
  obtain ⟨user, privilege⟩ := p
  simp [pairs, onColumns]
  grind

omit [Names] in
/-- Not making what is there already makes no difference. -/
lemma held_or_made_filter {α : Type} [BEq α] [LawfulBEq α] {H : Set (Nat × Privilege)}
    {l existing : List α} {f : α → Nat × Privilege} (h : ∀ x ∈ existing, f x ∈ H) :
    (p ∈ H ∨ ∃ x ∈ l.filter fun x => !existing.contains x, f x = p) ↔
      (p ∈ H ∨ ∃ x ∈ l, f x = p) := by
  constructor
  · rintro (hp | ⟨x, hx, heq⟩)
    · exact Or.inl hp
    · exact Or.inr ⟨x, (List.mem_filter.mp hx).1, heq⟩
  · rintro (hp | ⟨x, hx, heq⟩)
    · exact Or.inl hp
    · by_cases hex : x ∈ existing
      · rw [← heq]
        exact Or.inl (h x hex)
      · exact Or.inr ⟨x, List.mem_filter.mpr ⟨hx, by simpa using hex⟩, heq⟩

omit [Names] in
lemma mem_flatMap_groupColumns (columns : List (String × String)) {x : String × String} :
    x ∈ ((groupColumns columns).flatMap fun y => y.2.map fun z => (y.1, z)) ↔ x ∈ columns := by
  obtain ⟨column, privilegeType⟩ := x
  simp [groupColumns, List.mem_eraseDups]
  exact fun h => ⟨_, h⟩

omit [Names] in
lemma exists_typeToColumns {privileges : List (String × List String)}
    {q : String → String → Prop} :
    (∃ y ∈ JdbcCatalog.typeToColumns privileges, ∃ column ∈ y.2, q y.1 column) ↔
      ∃ x ∈ privileges.flatMap fun y => y.2.map fun z => (y.1, z), q x.2 x.1 := by
  unfold JdbcCatalog.typeToColumns
  simp [List.mem_eraseDups]
  grind

end Members

lemma changes_createDatabasePrivilege {types : List String}
    (hd : Store.database s₀ caller.orgId database = some d) :
    Action.Changes (Beside s₀) Held
      (JdbcCatalog.createDatabasePrivilege
        { user := user, database := database, privileges := types } caller now)
      ((Store.user s₀ caller.orgId user).isSome = true)
      (toggle true (pairs (idsOf s₀ caller [user]) (onDatabase d.id types))) := by
  apply changes_of_user rfl
  intro u s hs
  simp only [Action.wp_bind, wp_getDatabase, hs.database, hd]
  apply changes_inserts (k := .databasePrivileges) hs (by simp [IsPrivilege])
  intro p
  simp [shown, DatabasePrivilegeEntity.ofType]

lemma changes_dropDatabasePrivilege {types : List String}
    (hd : Store.database s₀ caller.orgId database = some d) :
    Action.Changes (Beside s₀) Held
      (JdbcCatalog.dropDatabasePrivilege user database types caller)
      ((Store.user s₀ caller.orgId user).isSome = true)
      (toggle false (pairs (idsOf s₀ caller [user]) (onDatabase d.id types))) := by
  apply changes_of_user rfl
  intro u s hs
  simp only [Action.wp_bind, wp_getDatabase, hs.database, hd]
  apply changes_delete (k := .databasePrivileges) hs (by simp [IsPrivilege])
  · intro e p hp
    cases hp
    simp [sameName]
    grind
  · intro k' hk' e p hp hA
    cases k' <;> cases hp <;> simp at hk' hA

lemma changes_createTablePrivilege {types : List String}
    (hd : Store.database s₀ caller.orgId database = some d)
    (ht : Store.table s₀ d.id table = some t) :
    Action.Changes (Beside s₀) Held
      (JdbcCatalog.createTablePrivilege
        { user := user, database := database, table := table, privileges := types } caller now)
      ((Store.user s₀ caller.orgId user).isSome = true)
      (toggle true (pairs (idsOf s₀ caller [user]) (onTable d.id t.id types))) := by
  apply changes_of_user rfl
  intro u s hs
  simp only [Action.wp_bind, wp_getDatabase, wp_getTable, hs.database, hs.table, hd, ht]
  apply changes_inserts (k := .tablePrivileges) hs (by simp [IsPrivilege])
  intro p
  simp only [mem_pairs_onTable, List.mem_map, exists_exists_and_eq_and, shown,
    TablePrivilegeEntity.ofType, Option.some.injEq]
  apply held_or_made_filter
  intro x hx
  simp only [List.mem_map, List.mem_filter, Bool.and_eq_true, beq_iff_eq] at hx
  obtain ⟨e, ⟨he, ⟨⟨hu, hdb⟩, htb⟩⟩, hx⟩ := hx
  refine ⟨.tablePrivileges, e, he, ?_⟩
  rw [shown, hu, hdb, htb, hx]

lemma changes_dropTablePrivilege {types : List String}
    (hd : Store.database s₀ caller.orgId database = some d)
    (ht : Store.table s₀ d.id table = some t) :
    Action.Changes (Beside s₀) Held
      (JdbcCatalog.dropTablePrivilege user database table types caller)
      ((Store.user s₀ caller.orgId user).isSome = true)
      (toggle false (pairs (idsOf s₀ caller [user]) (onTable d.id t.id types))) := by
  apply changes_of_user rfl
  intro u s hs
  simp only [Action.wp_bind, wp_getDatabase, wp_getTable, hs.database, hs.table, hd, ht]
  apply changes_delete (k := .tablePrivileges) hs (by simp [IsPrivilege])
  · intro e p hp
    cases hp
    simp [sameName]
    grind
  · intro k' hk' e p hp hA
    cases k' <;> cases hp <;> simp at hk' hA

lemma changes_createColumnPrivilege {columns : List (String × String)}
    (hd : Store.database s₀ caller.orgId database = some d)
    (ht : Store.table s₀ d.id table = some t) :
    Action.Changes (Beside s₀) Held
      (JdbcCatalog.createColumnPrivilege
        { user := user
          database := database
          table := table
          privilege := groupColumns columns } caller now)
      ((Store.user s₀ caller.orgId user).isSome = true)
      (toggle true (pairs (idsOf s₀ caller [user]) (onColumns d.id t.id columns))) := by
  apply changes_of_user rfl
  intro u s hs
  simp only [Action.wp_bind, wp_getDatabase, wp_getTable, hs.database, hs.table, hd, ht]
  apply changes_inserts (k := .columnPrivileges) hs (by simp [IsPrivilege])
  intro p
  simp only [mem_pairs_onColumns, List.mem_map, exists_exists_and_eq_and, shown,
    ColumnPrivilegeEntity.ofType, Option.some.injEq]
  simp only [← mem_flatMap_groupColumns columns]
  apply held_or_made_filter
  intro x hx
  simp only [List.mem_map, List.mem_filter, Bool.and_eq_true, beq_iff_eq] at hx
  obtain ⟨e, ⟨he, ⟨⟨hu, hdb⟩, htb⟩⟩, hx⟩ := hx
  refine ⟨.columnPrivileges, e, he, ?_⟩
  rw [shown, hu, hdb, htb, ← hx]

lemma changes_dropColumnPrivilege {columns : List (String × String)}
    (hd : Store.database s₀ caller.orgId database = some d)
    (ht : Store.table s₀ d.id table = some t) :
    Action.Changes (Beside s₀) Held
      (JdbcCatalog.dropColumnPrivilege user database table (groupColumns columns) caller)
      ((Store.user s₀ caller.orgId user).isSome = true)
      (toggle false (pairs (idsOf s₀ caller [user]) (onColumns d.id t.id columns))) := by
  apply changes_of_user rfl
  intro u s hs
  simp only [Action.wp_bind, wp_getDatabase, wp_getTable, hs.database, hs.table, hd, ht,
    Action.wp_transactionally]
  apply (Action.wp_forEach_delete (E := Entity) Kind.columnPrivileges _ _).mpr
  apply changes_deletes (k := .columnPrivileges) hs (by simp [IsPrivilege])
  · intro e p hp
    cases hp
    have hpairs : (∃ y ∈ JdbcCatalog.typeToColumns (groupColumns columns), ∃ column ∈ y.2,
        sameName e.privilegeType y.1 = true ∧ sameName e.column column = true) ↔
        ∃ x ∈ columns, sameName e.privilegeType x.2 = true ∧ sameName e.column x.1 = true := by
      rw [exists_typeToColumns
        (q := fun x y => sameName e.privilegeType x = true ∧ sameName e.column y = true)]
      simp only [mem_flatMap_groupColumns]
    simp [sameName] at hpairs ⊢
    grind
  · intro k' hk' e p hp hA
    cases k' <;> cases hp <;> simp at hk' hA

end Operations

end Moonbox.Core
