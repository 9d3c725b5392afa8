import Moonbox.Catalog.Effects
import Moonbox.Lib.Sessions

/-!
# Unique names

Every operation that makes or renames an entity first asks whether the name is taken. The schema
has no unique constraint, so the answer has to be true still when the name is written.
-/

namespace Moonbox.Catalog

open Relational

section Keys

variable [Names]

/-- Under what a row is looked up: its organization or database and its name as names are
compared. -/
def nameKey : (k : Kind) → Entity k → Option (Nat × String)
  | .organizations, (o : OrganizationEntity) => some (0, Names.collate o.name)
  | .users, (u : UserEntity) => some (u.organizationId, Names.collate u.name)
  | .groups, (g : GroupEntity) => some (g.organizationId, Names.collate g.name)
  | .databases, (d : DatabaseEntity) => some (d.organizationId, Names.collate d.name)
  | .tables, (t : TableEntity) => some (t.databaseId, Names.collate t.name)
  | .functions, (f : FunctionEntity) => some (f.databaseId, Names.collate f.name)
  | .procedures, (p : ProcedureEntity) => some (p.organizationId, Names.collate p.name)
  | .timedEvents, (e : TimedEventEntity) => some (e.organizationId, Names.collate e.name)
  | .queries, (q : QueryEntity) => some (q.organizationId, Names.collate q.name)
  | _, _ => none

/-- At most one row of the kind has a name. -/
def UniqueIn (k : Kind) (s : Store) : Prop :=
  ∀ r ∈ (s k).rows, ∀ r' ∈ (s k).rows, ∀ n, nameKey k r = some n → nameKey k r' = some n → r = r'

def NamesUnique (s : Store) : Prop := ∀ k, UniqueIn k s

/-- What the write makes of a row. -/
def updated {k : Kind} (cond : Entity k → Bool) (set : Entity k → Entity k) (r : Entity k) :
    Entity k := if cond r then Row.withId (Row.id r) (set r) else r

/-- Every name the write enters is free in its organization or database: no row has it, and the
write gives it to one row only. -/
def EntersFree (s : Store) : Write Entity → Prop
  | .insert k e => ∀ n, nameKey k (Row.withId (s k).nextId e) = some n →
      ∀ r ∈ (s k).rows, nameKey k r ≠ some n
  | .delete _ _ => True
  | .update k cond set => ∀ r ∈ (s k).rows, ∀ n, nameKey k (updated cond set r) = some n →
      nameKey k r ≠ some n → ∀ r' ∈ (s k).rows, nameKey k r' ≠ some n ∧
        (nameKey k (updated cond set r') = some n → r' = r)

/-- Every write of a step on the kind, in the state it finds. -/
def FreeFor (k : Kind) : Store → List (Write Entity) → Prop
  | _, [] => True
  | s, w :: ws => (w.table = k → EntersFree s w) ∧ FreeFor k (w.exec s) ws

def AllEnterFree (s : Store) (ws : List (Write Entity)) : Prop := ∀ k, FreeFor k s ws

variable {s : Store} {k : Kind}

lemma UniqueIn.of_eq {s' : Store} (h : UniqueIn k s) (he : s' k = s k) : UniqueIn k s' := by
  simpa only [UniqueIn, he] using h

lemma UniqueIn.insert (h : UniqueIn k s) {e : Entity k} (hfree : EntersFree s (.insert k e)) :
    UniqueIn k ((Write.insert k e).exec s) := by
  intro r hr r' hr' n hn hn'
  rw [exec_insert, Table.mem_insert] at hr hr'
  rcases hr with hr | rfl <;> rcases hr' with hr' | rfl
  · exact h r hr r' hr' n hn hn'
  · exact absurd hn (hfree n hn' r hr)
  · exact absurd hn' (hfree n hn r' hr')
  · rfl

lemma UniqueIn.delete (h : UniqueIn k s) (cond : Entity k → Bool) :
    UniqueIn k ((Write.delete k cond).exec s) := by
  intro r hr r' hr' n hn hn'
  rw [exec_delete, Table.mem_delete] at hr hr'
  exact h r hr.1 r' hr'.1 n hn hn'

lemma UniqueIn.update (h : UniqueIn k s) {cond : Entity k → Bool} {set : Entity k → Entity k}
    (hfree : EntersFree s (.update k cond set)) :
    UniqueIn k ((Write.update k cond set).exec s) := by
  intro r hr r' hr' n hn hn'
  rw [exec_update, Table.mem_update] at hr hr'
  obtain ⟨q, hq, rfl⟩ := hr
  obtain ⟨q', hq', rfl⟩ := hr'
  have hqq' : q = q' := by
    by_cases hold : nameKey k q = some n
    · by_cases hold' : nameKey k q' = some n
      · exact h q hq q' hq' n hold hold'
      · exact absurd hold (hfree q' hq' n hn' hold' q hq).1
    · exact ((hfree q hq n hn hold q' hq').2 hn').symm
  rw [hqq']

lemma UniqueIn.exec (h : UniqueIn k s) {w : Write Entity} (hfree : w.table = k → EntersFree s w) :
    UniqueIn k (w.exec s) := by
  by_cases hk : w.table = k
  · cases w <;> cases hk
    · exact h.insert (hfree rfl)
    · exact h.delete _
    · exact h.update (hfree rfl)
  · exact h.of_eq (Write.exec_of_ne fun he => hk he.symm)

lemma UniqueIn.execAll {ws : List (Write Entity)} (h : UniqueIn k s) (hfree : FreeFor k s ws) :
    UniqueIn k (execAll ws s) := by
  induction ws generalizing s with
  | nil => exact h
  | cons w ws ih => exact ih (h.exec hfree.1) hfree.2

lemma NamesUnique.execAll {ws : List (Write Entity)} (h : NamesUnique s)
    (hfree : AllEnterFree s ws) : NamesUnique (execAll ws s) :=
  fun k => (h k).execAll (hfree k)

/-- A row that is searched by its name is found. -/
lemma UniqueIn.find? (h : UniqueIn k s) {r : Entity k} (hr : r ∈ (s k).rows)
    {cond : Entity k → Bool} {key : Nat × String} (hcond : cond r = true)
    (hkey : ∀ r', cond r' = true → nameKey k r' = some key) :
    (s k).rows.find? cond = some r := by
  cases hfind : (s k).rows.find? cond with
  | none => exact absurd hcond (List.find?_eq_none.mp hfind r hr)
  | some r' =>
    have hr' := List.mem_of_find?_eq_some hfind
    have hcond' := List.find?_some hfind
    rw [h r' hr' r hr key (hkey r' hcond') (hkey r hcond)]

/-! ### An operation alone -/

/-- Overwriting a row by one of the same name. -/
lemma entersFree_overwrite {e e' : Entity k} (he : e ∈ (s k).rows)
    (hkey : nameKey k (Row.withId (Row.id e) e') = nameKey k e) :
    EntersFree s (.update k (fun t => Row.id t == Row.id e) fun _ => e') := by
  intro r hr n hn hold
  unfold updated at hn
  split at hn
  · rename_i hc
    rw [(s k).eq_of_id hr he (beq_iff_eq.mp hc)] at hn hold
    exact absurd (hkey.symm.trans hn) hold
  · exact absurd hn hold

lemma entersFree_insert {e : Entity k} {key : Nat × String}
    (hkey : nameKey k (Row.withId (s k).nextId e) = some key)
    (hfree : ∀ r ∈ (s k).rows, nameKey k r ≠ some key) : EntersFree s (.insert k e) := by
  intro n hn
  rw [hkey] at hn
  cases hn
  exact hfree

/-- An update enters free names if no row has a name it gives and rows that get the same name had
the same name before. -/
lemma entersFree_update {cond : Entity k → Bool} {set : Entity k → Entity k} (hu : UniqueIn k s)
    (hfree : ∀ r ∈ (s k).rows, cond r = true → ∀ n,
      nameKey k (Row.withId (Row.id r) (set r)) = some n → ∀ r' ∈ (s k).rows, nameKey k r' ≠ some n)
    (hsame : ∀ r ∈ (s k).rows, ∀ r' ∈ (s k).rows, cond r = true → cond r' = true →
      nameKey k (Row.withId (Row.id r') (set r')) = nameKey k (Row.withId (Row.id r) (set r)) →
      ∃ n, nameKey k r = some n ∧ nameKey k r' = some n) :
    EntersFree s (.update k cond set) := by
  intro r hr n hn hold r' hr'
  unfold updated at hn
  split at hn
  · rename_i hc
    have hfree' := hfree r hr hc n hn
    refine ⟨hfree' r' hr', fun hn' => ?_⟩
    unfold updated at hn'
    split at hn'
    · rename_i hc'
      obtain ⟨m, hm, hm'⟩ := hsame r hr r' hr' hc hc' (hn'.trans hn.symm)
      exact hu r' hr' r hr m hm' hm
    · exact absurd hn' (hfree' r' hr')
  · exact absurd hn hold

/-- A rename from one key to another finds one row only. -/
lemma entersFree_rename {cond : Entity k → Bool} {set : Entity k → Entity k}
    {key key' : Nat × String} (hu : UniqueIn k s)
    (hcond : ∀ r, cond r = true → nameKey k r = some key)
    (hfree : ∀ r ∈ (s k).rows, nameKey k r ≠ some key')
    (hset : ∀ r, cond r = true → nameKey k (Row.withId (Row.id r) (set r)) = some key') :
    EntersFree s (.update k cond set) := by
  apply entersFree_update hu
  · intro r _ hc n hn
    rw [hset r hc] at hn
    cases hn
    exact hfree
  · intro r _ r' _ hc hc' _
    exact ⟨key, hcond r hc, hcond r' hc'⟩

/-- Inserts of rows that have no name. -/
lemma freeFor_inserts {k' : Kind} {es : List (Entity k')}
    (h : ∀ e : Entity k', ∀ n, nameKey k' (Row.withId n e) = none) :
    FreeFor k s (Write.inserts k' es) := by
  induction es generalizing s with
  | nil => trivial
  | cons e es ih =>
    refine ⟨fun _ n hn => ?_, ih⟩
    rw [h e] at hn
    cases hn

lemma freeFor_deletes {α : Type} {k' : Kind} {cond : α → Entity k' → Bool} {as : List α} :
    FreeFor k s (as.map fun a => .delete k' (cond a)) := by
  induction as generalizing s with
  | nil => trivial
  | cons a as ih => exact ⟨fun _ => trivial, ih⟩

/-! Keys as the lookups compare them. -/

lemma key_ne {x o : Nat} {a b : String} (h : x = o → sameName a b = false) :
    some (x, Names.collate a) ≠ some (o, Names.collate b) := by
  intro he
  simp only [Option.some.injEq, Prod.mk.injEq] at he
  have := h he.1
  rw [sameName_iff.mpr he.2] at this
  cases this

lemma key_eq {x o : Nat} {a b : String} (hx : x = o) (h : sameName a b = true) :
    some (x, Names.collate a) = some (o, Names.collate b) := by
  rw [hx, sameName_iff.mp h]

lemma key_of_cond {x o : Nat} {a b : String} (h : (x == o && sameName a b) = true) :
    some (x, Names.collate a) = some (o, Names.collate b) := by
  simp only [Bool.and_eq_true, beq_iff_eq] at h
  exact key_eq h.1 h.2

lemma key_moved {x o : Nat} {c : Bool} {a : String} (h : (x == o && c) = true) :
    some (x, Names.collate a) = some (o, Names.collate a) := by
  simp only [Bool.and_eq_true, beq_iff_eq] at h
  rw [h.1]

/-- The operation renames a user, and some organization that has a user of the old name has one
of the new name. -/
def Operation.RenamesOnto (s : Store) : Operation → Prop
  | .renameUser _ user newUser => ∃ u ∈ (s .users).rows, ∃ v ∈ (s .users).rows,
      sameName u.name user = true ∧ sameName v.name newUser = true ∧
      v.organizationId = u.organizationId
  | _ => False

variable {caller : User} {now : Nat} {op : Operation} {ws : List (Write Entity)}

lemma entersFree_renameUser {user newUser : String} {caller : User} {now : Nat}
    (hu : UniqueIn .users s) (hren : ¬ ∃ u ∈ (s .users).rows, ∃ v ∈ (s .users).rows,
      sameName u.name user = true ∧ sameName v.name newUser = true ∧
      v.organizationId = u.organizationId) :
    EntersFree s (.update .users (fun t => sameName t.name user) fun t =>
      { t with name := newUser, updateBy := caller.userId, updateTime := now }) := by
  apply entersFree_update hu
  · intro u huser hc n hn v hv
    cases hn
    apply key_ne
    intro hscope
    by_contra hname
    exact hren ⟨u, huser, v, hv, hc, (Bool.not_eq_false _).mp hname, hscope⟩
  · intro u _ v _ hc hc' hkey
    have hscope : v.organizationId = u.organizationId :=
      congrArg Prod.fst (Option.some.inj hkey)
    refine ⟨_, rfl, ?_⟩
    apply key_eq hscope
    rw [sameName_iff] at hc hc' ⊢
    exact hc'.trans hc.symm

/-- Run alone, an operation enters free names only, apart from a rename of a user onto the name of
another one of some other organization. A new organization must not have databases already. -/
lemma Effect.free (h : Effect caller now s op ws) (hk : UniqueIn k s)
    (hren : k = .users → ¬ op.RenamesOnto s)
    (hnew : ∀ d ign, op = .createOrganization d ign → Store.organization s d.name = none →
      ∀ db ∈ (s .databases).rows, db.organizationId ≠ (s .organizations).nextId) :
    FreeFor k s ws := by
  cases h with
  | idle => trivial
  | createQuery free =>
    exact ⟨fun _ => entersFree_insert rfl fun r hr => key_ne (Store.query_none free hr), trivial⟩
  | dropQuery => exact ⟨fun _ => trivial, trivial⟩
  | alterQuery found =>
    have ⟨hmem, hscope, hname⟩ := Store.query_some found
    exact ⟨fun _ => entersFree_overwrite hmem (key_eq hscope hname).symm, trivial⟩
  | createOrganization free =>
    refine ⟨fun _ => ?_, fun _ => ?_, trivial⟩
    · exact entersFree_insert rfl fun r hr => key_ne fun _ => Store.organization_none free hr
    · exact entersFree_insert rfl fun r hr =>
        key_ne fun he => absurd he (hnew _ _ rfl free r hr)
  | dropOrganizationCascade =>
    exact ⟨fun _ => trivial, fun _ => trivial, fun _ => trivial, fun _ => trivial,
      fun _ => trivial, fun _ => trivial, trivial⟩
  | dropOrganization => exact ⟨fun _ => trivial, trivial⟩
  | renameOrganization found free =>
    refine ⟨fun he => ?_, trivial⟩
    subst he
    exact entersFree_rename hk (fun r hc => key_eq rfl hc)
      (fun r hr => key_ne fun _ => Store.organization_none free hr) fun r hc => rfl
  | alterOrganization found =>
    have ⟨hmem, hname⟩ := Store.organization_some found
    exact ⟨fun _ => entersFree_overwrite hmem (key_eq rfl hname).symm, trivial⟩
  | createUser _ free =>
    exact ⟨fun _ => entersFree_insert rfl fun r hr => key_ne (Store.user_none free hr), trivial⟩
  | dropUser =>
    exact ⟨fun _ => trivial, fun _ => trivial, fun _ => trivial, fun _ => trivial, fun _ => trivial,
      trivial⟩
  | @renameUser org user newUser =>
    refine ⟨fun he => ?_, trivial⟩
    subst he
    exact entersFree_renameUser hk (hren rfl)
  | alterUser _ found =>
    have ⟨hmem, _, hname⟩ := Store.user_some found
    exact ⟨fun _ => entersFree_overwrite hmem (key_eq rfl hname).symm, trivial⟩
  | createProcedure free =>
    exact ⟨fun _ => entersFree_insert rfl fun r hr => key_ne (Store.procedure_none free hr),
      trivial⟩
  | dropProcedure => exact ⟨fun _ => trivial, trivial⟩
  | renameProcedure _ free =>
    refine ⟨fun he => ?_, trivial⟩
    subst he
    exact entersFree_rename hk (fun r hc => key_of_cond hc)
      (fun r hr => key_ne (Store.procedure_none free hr)) fun r hc => key_moved hc
  | alterProcedure found =>
    have ⟨hmem, hscope, hname⟩ := Store.procedure_some found
    exact ⟨fun _ => entersFree_overwrite hmem (key_eq hscope hname).symm, trivial⟩
  | createTimedEvent free =>
    exact ⟨fun _ => entersFree_insert rfl fun r hr => key_ne (Store.timedEvent_none free hr),
      trivial⟩
  | renameTimedEvent _ free =>
    refine ⟨fun he => ?_, trivial⟩
    subst he
    exact entersFree_rename hk (fun r hc => key_of_cond hc)
      (fun r hr => key_ne (Store.timedEvent_none free hr)) fun r hc => key_moved hc
  | alterTimedEvent found =>
    have ⟨hmem, hscope, hname⟩ := Store.timedEvent_some found
    exact ⟨fun _ => entersFree_overwrite hmem (key_eq hscope hname).symm, trivial⟩
  | dropTimedEvent => exact ⟨fun _ => trivial, trivial⟩
  | createDatabase free =>
    exact ⟨fun _ => entersFree_insert rfl fun r hr => key_ne (Store.database_none free hr), trivial⟩
  | dropDatabaseCascade => exact ⟨fun _ => trivial, fun _ => trivial, fun _ => trivial, trivial⟩
  | dropDatabase => exact ⟨fun _ => trivial, trivial⟩
  | renameDatabase _ free =>
    refine ⟨fun he => ?_, trivial⟩
    subst he
    exact entersFree_rename hk (fun r hc => key_of_cond hc)
      (fun r hr => key_ne (Store.database_none free hr)) fun r hc => key_moved hc
  | alterDatabase found =>
    have ⟨hmem, hscope, hname⟩ := Store.database_some found
    exact ⟨fun _ => entersFree_overwrite hmem (key_eq hscope hname).symm, trivial⟩
  | createTable _ _ free =>
    exact ⟨fun _ => entersFree_insert rfl fun r hr => key_ne (Store.table_none free hr), trivial⟩
  | dropTable => exact ⟨fun _ => trivial, fun _ => trivial, fun _ => trivial, trivial⟩
  | renameTable _ _ free =>
    refine ⟨fun he => ?_, trivial⟩
    subst he
    exact entersFree_rename hk (fun r hc => key_of_cond hc)
      (fun r hr => key_ne (Store.table_none free hr)) fun r hc => key_moved hc
  | alterTable _ _ found =>
    have ⟨hmem, hscope, hname⟩ := Store.table_some found
    exact ⟨fun _ => entersFree_overwrite hmem (key_eq hscope hname).symm, trivial⟩
  | createFunction _ _ free =>
    refine ⟨fun _ => ?_, freeFor_inserts fun _ _ => rfl⟩
    exact entersFree_insert rfl fun r hr => key_ne (Store.function_none free hr)
  | dropFunction => exact ⟨fun _ => trivial, fun _ => trivial, trivial⟩
  | renameFunction _ _ free =>
    refine ⟨fun he => ?_, trivial⟩
    subst he
    exact entersFree_rename hk (fun r hc => key_of_cond hc)
      (fun r hr => key_ne (Store.function_none free hr)) fun r hc => key_moved hc
  | createDatabasePrivilege => exact freeFor_inserts fun _ _ => rfl
  | dropDatabasePrivilege => exact ⟨fun _ => trivial, trivial⟩
  | createTablePrivilege => exact freeFor_inserts fun _ _ => rfl
  | dropTablePrivilege => exact ⟨fun _ => trivial, trivial⟩
  | createColumnPrivilege => exact freeFor_inserts fun _ _ => rfl
  | dropColumnPrivilege => exact freeFor_deletes
  | createGroup free =>
    exact ⟨fun _ => entersFree_insert rfl fun r hr => key_ne (Store.group_none free hr), trivial⟩
  | renameGroup _ free =>
    refine ⟨fun he => ?_, trivial⟩
    subst he
    exact entersFree_rename hk (fun r hc => key_of_cond hc)
      (fun r hr => key_ne (Store.group_none free hr)) fun r hc => key_moved hc
  | alterGroup found =>
    have ⟨hmem, _, _⟩ := Store.group_some found
    exact ⟨fun _ => entersFree_overwrite hmem rfl, trivial⟩
  | dropGroupCascade => exact ⟨fun _ => trivial, fun _ => trivial, trivial⟩
  | dropGroup => exact ⟨fun _ => trivial, trivial⟩
  | createGroupUserRel => exact freeFor_inserts fun _ _ => rfl
  | dropGroupUserRel => exact ⟨fun _ => trivial, trivial⟩

/-- The sessions run operations of the catalog. -/
def IsOperation (m : DBIO Unit) : Prop :=
  ∃ (op : Operation) (caller : User) (now : Nat), m = op.action caller now

end Keys

def systemRoot : User := { orgId := 1, org := "SYSTEM", userId := 1, user := "ROOT" }

def createA : Operation := .createOrganization { name := "a", config := [] } false

/-- Two sessions that each create the organization a. -/
def twoCreates : Sessions Entity :=
  letI := exactNames
  ⟨Store.empty, [createA.action systemRoot 1, createA.action systemRoot 2]⟩

lemma namesUnique_empty [Names] : NamesUnique Store.empty := by
  intro k r hr
  cases hr

end Moonbox.Catalog
