import Mathlib.Data.List.Lex
import Mathlib.Data.List.Sort
import Moonbox.Catalog.JdbcCatalog
import Moonbox.Lib.JavaStrings

/-!
# Listings of privileges

The rows are sorted and gathered into groups in one loop. The types of a group are collected in a
`ListBuffer`, and an entry of the listing holds the buffer and not what was in it.
-/

namespace Moonbox.Catalog

open JavaStrings

/-- What is in the list buffers. -/
abbrev Buffers := ℕ → List String

def Buffers.append (buffers : Buffers) (b : ℕ) (x : String) : Buffers :=
  Function.update buffers b (buffers b ++ [x])

def Buffers.clear (buffers : Buffers) (b : ℕ) : Buffers := Function.update buffers b []

section Grouping

variable {κ α : Type} [DecidableEq κ]

/-- The variables of the loop. An entry is a key and a buffer. -/
structure Grouping (κ : Type) where
  current : κ
  buffers : Buffers
  entries : List (κ × ℕ)

/-- The buffer `privilegeTypeSeq`. -/
def privilegeTypeSeq : ℕ := 0

def Grouping.step (g : Grouping κ) (privilege : κ × String) : Grouping κ :=
  if privilege.1 = g.current then
    { g with buffers := g.buffers.append privilegeTypeSeq privilege.2 }
  else
    { current := privilege.1
      buffers := (g.buffers.clear privilegeTypeSeq).append privilegeTypeSeq privilege.2
      entries := g.entries ++ [(g.current, privilegeTypeSeq)] }

/-- The groups of the rows, sorted by what ranks their keys. The buffers are read when the loop
has ended. -/
def grouped [LinearOrder α] (rank : κ → α) (rows : List (κ × String)) : List (κ × List String) :=
  match rows.insertionSort fun a b => rank a.1 ≤ rank b.1 with
  | [] => []
  | head :: privileges =>
    let g := (head :: privileges).foldl Grouping.step ⟨head.1, fun _ => [], []⟩
    (g.entries ++ [(g.current, privilegeTypeSeq)]).map fun e => (e.1, g.buffers e.2)

end Grouping

namespace JdbcCatalog

def listDatabasePrivileges
    (privilegeEntities : List ((UserEntity × DatabasePrivilegeEntity) × DatabaseEntity)) :
    List CatalogDatabasePrivilege :=
  (grouped (fun key : String × String => [utf16 key.1, utf16 key.2])
    (privilegeEntities.map fun ((userEntity, databasePrivilegeEntity), databaseEntity) =>
      ((userEntity.name, databaseEntity.name), databasePrivilegeEntity.privilegeType))).map
    fun ((user, database), privileges) => ⟨user, database, privileges⟩

def listTablePrivileges (privilegeEntities :
    List (((UserEntity × TablePrivilegeEntity) × TableEntity) × DatabaseEntity)) :
    List CatalogTablePrivilege :=
  (grouped (fun key : String × String × String => [utf16 key.1, utf16 key.2.1, utf16 key.2.2])
    (privilegeEntities.map
      fun (((userEntity, tablePrivilegeEntity), tableEntity), databaseEntity) =>
        ((userEntity.name, databaseEntity.name, tableEntity.name),
          tablePrivilegeEntity.privilegeType))).map
    fun ((user, database, table), privileges) => ⟨user, database, table, privileges⟩

end JdbcCatalog

/-! ### What the loop comes to -/

/-- One entry for every key, with the types that are stored for it. -/
structure Reports {κ : Type} (rows : List (κ × String)) (listing : List (κ × List String)) :
    Prop where
  nodup : (listing.map Prod.fst).Nodup
  keys : ∀ key, key ∈ listing.map Prod.fst ↔ ∃ x, (key, x) ∈ rows
  types : ∀ e ∈ listing, ∀ x, x ∈ e.2 ↔ (e.1, x) ∈ rows

section Grouping

variable {κ α : Type} [DecidableEq κ] [LinearOrder α] {rank : κ → α} {rows : List (κ × String)}
  {g : Grouping κ}

/-- The keys of the entries, with the one that is current. -/
def Grouping.keys (g : Grouping κ) : List κ := g.entries.map Prod.fst ++ [g.current]

/-- The keys are in strict order and all entries hold the one buffer. -/
structure Grouping.IsOrdered (rank : κ → α) (g : Grouping κ) : Prop where
  order : g.keys.Pairwise fun a b => rank a < rank b
  buffer : ∀ e ∈ g.entries, e.2 = privilegeTypeSeq

lemma Grouping.IsOrdered.step (h : g.IsOrdered rank) (hrank : Function.Injective rank)
    {p : κ × String} (hp : rank g.current ≤ rank p.1) : (g.step p).IsOrdered rank := by
  unfold Grouping.step
  split_ifs with hkey
  · exact ⟨h.order, h.buffer⟩
  · have hlt : rank g.current < rank p.1 := lt_of_le_of_ne hp fun heq => hkey (hrank heq).symm
    have hlast : ∀ a ∈ g.keys, ∀ b ∈ [p.1], rank a < rank b := fun a ha b hb => by
      rw [List.mem_singleton.mp hb]
      rcases List.mem_append.mp ha with ha | ha
      · exact ((List.pairwise_append.mp h.order).2.2 a ha g.current (by simp)).trans hlt
      · rwa [List.mem_singleton.mp ha]
    refine ⟨?_, fun e he => ?_⟩
    · simp only [Grouping.keys, List.map_append, List.map_cons, List.map_nil]
      exact List.pairwise_append.mpr ⟨h.order, List.pairwise_singleton _ _, hlast⟩
    · rcases List.mem_append.mp he with he | he
      · exact h.buffer e he
      · rw [List.mem_singleton.mp he]

omit [LinearOrder α] in
lemma Grouping.current_step (g : Grouping κ) (p : κ × String) : (g.step p).current = p.1 := by
  unfold Grouping.step
  split_ifs with hkey
  · exact hkey.symm
  · rfl

lemma Grouping.mem_keys_step {p : κ × String} {key : κ} :
    key ∈ (g.step p).keys ↔ key ∈ g.keys ∨ key = p.1 := by
  unfold Grouping.step
  split_ifs with hkey
  · simp only [Grouping.keys, List.mem_append, List.mem_singleton, hkey]
    tauto
  · simp [Grouping.keys, or_assoc]

lemma Grouping.mem_buffer_step {p : κ × String} {x : String} :
    x ∈ (g.step p).buffers privilegeTypeSeq ↔
      x = p.2 ∨ p.1 = g.current ∧ x ∈ g.buffers privilegeTypeSeq := by
  unfold Grouping.step
  split_ifs with hkey
  · simp [Buffers.append, hkey, or_comm]
  · simp [Buffers.append, Buffers.clear, hkey]

/-- What the loop has when it has gone through sorted rows. -/
lemma Grouping.foldl (hrank : Function.Injective rank) (hg : g.IsOrdered rank)
    (hsorted : rows.Pairwise fun a b => rank a.1 ≤ rank b.1)
    (hfirst : ∀ p ∈ rows, rank g.current ≤ rank p.1) :
    (rows.foldl Grouping.step g).IsOrdered rank ∧
    (∀ key, key ∈ (rows.foldl Grouping.step g).keys ↔ key ∈ g.keys ∨ ∃ x, (key, x) ∈ rows) ∧
    rank g.current ≤ rank (rows.foldl Grouping.step g).current ∧
    ∀ x, x ∈ (rows.foldl Grouping.step g).buffers privilegeTypeSeq ↔
      ((rows.foldl Grouping.step g).current, x) ∈ rows ∨
        (rows.foldl Grouping.step g).current = g.current ∧ x ∈ g.buffers privilegeTypeSeq := by
  induction rows generalizing g with
  | nil => simp [hg]
  | cons p rows ih =>
    rw [List.pairwise_cons] at hsorted
    have hp := hfirst p List.mem_cons_self
    have hcurrent := g.current_step p
    have hle : ∀ q ∈ rows, rank (g.step p).current ≤ rank q.1 := fun q hq => by
      rw [hcurrent]
      exact hsorted.1 q hq
    obtain ⟨hordered, hkeys, hlast, hbuffer⟩ := ih (hg.step hrank hp) hsorted.2 hle
    rw [List.foldl_cons]
    generalize rows.foldl Grouping.step (g.step p) = g' at *
    rw [hcurrent] at hlast hbuffer
    refine ⟨hordered, fun key => ?_, hp.trans hlast, fun x => ?_⟩
    · rw [hkeys, Grouping.mem_keys_step]
      simp [or_assoc, exists_or, Prod.ext_iff]
    · rw [hbuffer, Grouping.mem_buffer_step, List.mem_cons, Prod.ext_iff]
      constructor
      · rintro (h | ⟨h, rfl | ⟨h', h''⟩⟩)
        · exact Or.inl (Or.inr h)
        · exact Or.inl (Or.inl ⟨h, rfl⟩)
        · exact Or.inr ⟨h.trans h', h''⟩
      · rintro ((⟨h, h'⟩ | h) | ⟨h, h'⟩)
        · exact Or.inr ⟨h, Or.inl h'⟩
        · exact Or.inl h
        · have hkey : p.1 = g.current := hrank (le_antisymm (h ▸ hlast) hp)
          exact Or.inr ⟨h.trans hkey.symm, Or.inr ⟨hkey, h'⟩⟩

/-- All entries of a listing have the types of one key. -/
lemma exists_grouped (hrank : Function.Injective rank) (hrows : rows ≠ []) :
    ∃ (keys : List κ) (types : List String) (last : κ),
      grouped rank rows = keys.map (fun key => (key, types)) ∧ keys.Nodup ∧
      (∀ key, key ∈ keys ↔ ∃ x, (key, x) ∈ rows) ∧ last ∈ keys ∧
        ∀ x, x ∈ types ↔ (last, x) ∈ rows := by
  have hperm := List.perm_insertionSort (fun a b : κ × String => rank a.1 ≤ rank b.1) rows
  have hsorted : (rows.insertionSort fun a b => rank a.1 ≤ rank b.1).Pairwise
      fun a b => rank a.1 ≤ rank b.1 := List.pairwise_insertionSort _ rows
  unfold grouped
  cases hsort : rows.insertionSort fun a b => rank a.1 ≤ rank b.1 with
  | nil => exact absurd (hsort ▸ hperm).nil_eq.symm hrows
  | cons head privileges =>
    rw [hsort] at hperm hsorted
    have hinit : Grouping.IsOrdered rank ⟨head.1, fun _ => [], []⟩ := ⟨by simp [Grouping.keys],
      by simp⟩
    obtain ⟨hordered, hkeys, -, hbuffer⟩ := Grouping.foldl hrank hinit hsorted fun p hp => by
      rcases List.mem_cons.mp hp with rfl | hp
      · exact le_refl _
      · exact (List.pairwise_cons.mp hsorted).1 p hp
    dsimp only
    generalize (head :: privileges).foldl Grouping.step ⟨head.1, fun _ => [], []⟩ = g at *
    refine ⟨g.keys, g.buffers privilegeTypeSeq, g.current, ?_, ?_, fun key => ?_, ?_, fun x => ?_⟩
    · simp only [Grouping.keys, List.map_append, List.map_map, List.map_cons, List.map_nil]
      refine congrArg (· ++ [(g.current, g.buffers privilegeTypeSeq)])
        (List.map_congr_left fun e he => ?_)
      simp [hordered.buffer e he]
    · exact hordered.order.imp fun h => fun heq => h.ne (congrArg rank heq)
    · rw [hkeys]
      simp only [hperm.mem_iff]
      refine ⟨?_, Or.inr⟩
      rintro (h | h)
      · obtain rfl : key = head.1 := by simpa [Grouping.keys] using h
        exact ⟨head.2, hperm.mem_iff.mp List.mem_cons_self⟩
      · exact h
    · simp [Grouping.keys]
    · rw [hbuffer, hperm.mem_iff]
      simp

/-- The listing reports the rows exactly if all keys have the same types. -/
lemma reports_grouped_iff (hrank : Function.Injective rank) :
    Reports rows (grouped rank rows) ↔ ∀ p ∈ rows, ∀ q ∈ rows, (q.1, p.2) ∈ rows := by
  by_cases hrows : rows = []
  · subst hrows
    exact iff_of_true ⟨by simp [grouped], by simp [grouped], by simp [grouped]⟩ (by simp)
  · obtain ⟨keys, types, last, hgrouped, hnodup, hkeys, hlast, htypes⟩ :=
      exists_grouped hrank hrows
    have hfst : (grouped rank rows).map Prod.fst = keys := by simp [hgrouped, Function.comp_def]
    constructor
    · intro h p hp q hq
      have hsame : ∀ key ∈ keys, ∀ x, (key, x) ∈ rows ↔ x ∈ types := fun key hkey x => by
        have := h.types (key, types) (hgrouped ▸ List.mem_map_of_mem hkey) x
        exact this.symm
      have hp' := (hsame p.1 ((hkeys p.1).mpr ⟨p.2, hp⟩) p.2).mp hp
      exact (hsame q.1 ((hkeys q.1).mpr ⟨q.2, hq⟩) p.2).mpr hp'
    · intro h
      refine ⟨hfst ▸ hnodup, fun key => by rw [hfst, hkeys], fun e he x => ?_⟩
      rw [hgrouped] at he
      obtain ⟨key, hkey, rfl⟩ := List.mem_map.mp he
      obtain ⟨y, hy⟩ := (hkeys key).mp hkey
      obtain ⟨z, hz⟩ := (hkeys last).mp hlast
      rw [htypes]
      exact ⟨fun hx => h _ hx _ hy, fun hx => h _ hx _ hz⟩

end Grouping

/-! ### The two listings -/

abbrev DatabaseRow := (UserEntity × DatabasePrivilegeEntity) × DatabaseEntity

abbrev TableRow := ((UserEntity × TablePrivilegeEntity) × TableEntity) × DatabaseEntity

/-- The grantee and the object by their names, and the type. -/
def DatabaseRow.privilege (row : DatabaseRow) : (String × String) × String :=
  ((row.1.1.name, row.2.name), row.1.2.privilegeType)

def TableRow.privilege (row : TableRow) : (String × String × String) × String :=
  ((row.1.1.1.name, row.2.name, row.1.2.name), row.1.1.2.privilegeType)

/-- What `listDatabasePrivileges` answers says what is stored. -/
def ReportsDatabases (rows : List DatabaseRow) : Prop :=
  Reports (rows.map DatabaseRow.privilege)
    ((JdbcCatalog.listDatabasePrivileges rows).map fun e => ((e.user, e.database), e.privileges))

def ReportsTables (rows : List TableRow) : Prop :=
  Reports (rows.map TableRow.privilege)
    ((JdbcCatalog.listTablePrivileges rows).map fun e =>
      ((e.user, e.database, e.table), e.privileges))

lemma reportsDatabases_iff (rows : List DatabaseRow) : ReportsDatabases rows ↔
    ∀ p ∈ rows.map DatabaseRow.privilege, ∀ q ∈ rows.map DatabaseRow.privilege,
      (q.1, p.2) ∈ rows.map DatabaseRow.privilege := by
  have hrank : Function.Injective fun key : String × String => [utf16 key.1, utf16 key.2] := by
    intro key key' h
    simp only [List.cons.injEq, and_true] at h
    exact Prod.ext (utf16_injective h.1) (utf16_injective h.2)
  rw [← reports_grouped_iff hrank, ReportsDatabases, JdbcCatalog.listDatabasePrivileges,
    List.map_map]
  exact iff_of_eq (congrArg _ (List.map_id _))

lemma reportsTables_iff (rows : List TableRow) : ReportsTables rows ↔
    ∀ p ∈ rows.map TableRow.privilege, ∀ q ∈ rows.map TableRow.privilege,
      (q.1, p.2) ∈ rows.map TableRow.privilege := by
  have hrank : Function.Injective fun key : String × String × String =>
      [utf16 key.1, utf16 key.2.1, utf16 key.2.2] := by
    intro key key' h
    simp only [List.cons.injEq, and_true] at h
    exact Prod.ext (utf16_injective h.1)
      (Prod.ext (utf16_injective h.2.1) (utf16_injective h.2.2))
  rw [← reports_grouped_iff hrank, ReportsTables, JdbcCatalog.listTablePrivileges, List.map_map]
  exact iff_of_eq (congrArg _ (List.map_id _))

/-- The listings report the stored rows exactly if the same types are stored for all the pairs of a
grantee and an object that have any. -/
theorem listings_report_iff (databases : List DatabaseRow) (tables : List TableRow) :
    (ReportsDatabases databases ↔
      ∀ p ∈ databases.map DatabaseRow.privilege, ∀ q ∈ databases.map DatabaseRow.privilege,
        (q.1, p.2) ∈ databases.map DatabaseRow.privilege) ∧
    (ReportsTables tables ↔
      ∀ p ∈ tables.map TableRow.privilege, ∀ q ∈ tables.map TableRow.privilege,
        (q.1, p.2) ∈ tables.map TableRow.privilege) :=
  ⟨reportsDatabases_iff databases, reportsTables_iff tables⟩

/-- Bob may read one database and write another. -/
def readAndWrite : List DatabaseRow :=
  let bob : UserEntity := { (default : UserEntity) with name := "bob" }
  [((bob, { (default : DatabasePrivilegeEntity) with privilegeType := "SELECT" }),
      { (default : DatabaseEntity) with name := "a" }),
    ((bob, { (default : DatabasePrivilegeEntity) with privilegeType := "INSERT" }),
      { (default : DatabaseEntity) with name := "b" })]

theorem listings_report_fails :
    ¬ ((∀ rows, ReportsDatabases rows) ∧ ∀ rows, ReportsTables rows) := by
  intro h
  have hall := (reportsDatabases_iff readAndWrite).mp (h.1 readAndWrite)
  exact absurd (hall (("bob", "a"), "SELECT") (by decide) (("bob", "b"), "INSERT") (by decide))
    (by decide)

end Moonbox.Catalog
