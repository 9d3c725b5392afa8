import Mathlib.Data.List.Find
import Mathlib.Data.List.Nodup
import Mathlib.Logic.Function.Basic
import Mathlib.Tactic.Lemma
import Moonbox.Lib.Handler

/-!
# Relational databases and the actions run on them

A database is a family of tables whose primary keys come from a counter. An action reads and
writes it in atomic steps: a statement is one step and so is a whole transaction. Run alone an
action is a handler, so the weakest preconditions of handlers apply; run beside others it is
interrupted between its steps. A step is known by the writes it makes.
-/

namespace Relational

open Actor

/-- Rows know the primary key of their table. -/
class Row (ε : Type) where
  id : ε → Nat
  withId : Nat → ε → ε
  id_withId : ∀ n e, id (withId n e) = n

attribute [simp] Row.id_withId

/-! ### Tables -/

/-- The keys of a table are unique and were all given out by its counter. -/
structure Table (ε : Type) [Row ε] where
  rows : List ε
  nextId : Nat
  nodup : (rows.map Row.id).Nodup
  fresh : ∀ r ∈ rows, Row.id r < nextId

namespace Table

variable {ε : Type} [Row ε]

def empty : Table ε := ⟨[], 1, by simp, by simp⟩

instance : Inhabited (Table ε) := ⟨empty⟩

/-- The key of the inserted row is the next of the counter. -/
def insert (t : Table ε) (e : ε) : Table ε where
  rows := t.rows ++ [Row.withId t.nextId e]
  nextId := t.nextId + 1
  nodup := by
    rw [List.map_append, List.nodup_append]
    refine ⟨t.nodup, by simp, ?_⟩
    intro n hn m hm
    obtain ⟨r, hr, rfl⟩ := List.mem_map.mp hn
    simp only [List.map_cons, Row.id_withId, List.map_nil, List.mem_singleton] at hm
    have := t.fresh r hr
    omega
  fresh := by
    intro r hr
    rcases List.mem_append.mp hr with hr | hr
    · exact Nat.lt_succ_of_lt (t.fresh r hr)
    · rw [List.mem_singleton.mp hr, Row.id_withId]
      exact Nat.lt_succ_self _

def delete (t : Table ε) (cond : ε → Bool) : Table ε where
  rows := t.rows.filter fun r => !cond r
  nextId := t.nextId
  nodup := t.nodup.sublist (List.filter_sublist.map _)
  fresh := fun r hr => t.fresh r (List.mem_filter.mp hr).1

/-- No update touches the key. -/
def update (t : Table ε) (cond : ε → Bool) (set : ε → ε) : Table ε where
  rows := t.rows.map fun r => if cond r then Row.withId (Row.id r) (set r) else r
  nextId := t.nextId
  nodup := by
    rw [List.map_map]
    convert t.nodup using 1
    apply List.map_congr_left
    intro r _
    simp only [Function.comp]
    split <;> simp
  fresh := by
    intro r hr
    obtain ⟨r', hr', rfl⟩ := List.mem_map.mp hr
    have := t.fresh r' hr'
    split <;> simpa using this

variable {t : Table ε} {e r r' : ε} {cond : ε → Bool} {set : ε → ε}

@[simp] lemma rows_empty : (empty : Table ε).rows = [] := rfl

@[simp] lemma mem_insert : r ∈ (t.insert e).rows ↔ r ∈ t.rows ∨ r = Row.withId t.nextId e := by
  simp [insert]

@[simp] lemma mem_delete : r ∈ (t.delete cond).rows ↔ r ∈ t.rows ∧ cond r = false := by
  simp [delete]

lemma mem_update : r ∈ (t.update cond set).rows ↔
    ∃ r' ∈ t.rows, (if cond r' then Row.withId (Row.id r') (set r') else r') = r := by
  simp [update]

@[simp] lemma nextId_insert : (t.insert e).nextId = t.nextId + 1 := rfl

@[simp] lemma nextId_delete : (t.delete cond).nextId = t.nextId := rfl

@[simp] lemma nextId_update : (t.update cond set).nextId = t.nextId := rfl

lemma eq_of_rows {t t' : Table ε} (h : t.rows = t'.rows) (h' : t.nextId = t'.nextId) : t = t' := by
  cases t
  cases t'
  cases h
  cases h'
  rfl

/-- A row is known by its key. -/
lemma eq_of_id (hr : r ∈ t.rows) (hr' : r' ∈ t.rows) (h : Row.id r = Row.id r') : r = r' :=
  List.inj_on_of_nodup_map t.nodup hr hr' h

lemma find?_id (he : e ∈ t.rows) : (t.rows.find? fun r => Row.id r == Row.id e) = some e := by
  cases h : t.rows.find? fun r => Row.id r == Row.id e with
  | none => exact absurd (beq_self_eq_true _) (List.find?_eq_none.mp h e he)
  | some r =>
    have hid := List.find?_some h
    rw [t.eq_of_id (List.mem_of_find?_eq_some h) he (beq_iff_eq.mp hid)]

/-- A search that an update does not disturb finds the same row, updated. -/
lemma find?_update {p : ε → Bool}
    (hp : ∀ r ∈ t.rows, cond r = true → p (Row.withId (Row.id r) (set r)) = p r) :
    (t.update cond set).rows.find? p =
      (t.rows.find? p).map fun r => if cond r then Row.withId (Row.id r) (set r) else r := by
  rw [update, List.find?_map]
  congr 1
  apply List.find?_congr
  intro r hr
  simp only [Function.comp]
  split
  · rename_i hc
    exact hp r hr hc
  · rfl

lemma find?_insert_of {p : ε → Bool} (h : t.rows.find? p = some r) :
    (t.insert e).rows.find? p = some r := by
  rw [insert, List.find?_append, h, Option.some_or]

/-- What is found is found as long as it is not deleted. -/
lemma find?_delete_of {p : ε → Bool} (h : t.rows.find? p = some r) (hr : cond r = false) :
    (t.delete cond).rows.find? p = some r := by
  show (t.rows.filter _).find? p = some r
  revert h
  induction t.rows with
  | nil => exact id
  | cons r' rs ih =>
    intro h
    rw [List.find?_cons] at h
    cases hp : p r' with
    | true =>
      rw [hp] at h
      cases h
      simp [hr, hp]
    | false =>
      rw [hp] at h
      rw [List.filter_cons]
      split
      · rw [List.find?_cons, hp]
        exact ih h
      · exact ih h

/-- What is found is found as long as it is not updated and no updated row takes its place. -/
lemma find?_update_of {p : ε → Bool} (h : t.rows.find? p = some r) (hr : cond r = false)
    (hp : ∀ r' ∈ t.rows, cond r' = true → p (Row.withId (Row.id r') (set r')) = false) :
    (t.update cond set).rows.find? p = some r := by
  show (t.rows.map _).find? p = some r
  revert h hp
  induction t.rows with
  | nil => exact fun h _ => h
  | cons r' rs ih =>
    intro h hset
    have hrest := fun h => ih h fun r'' hr'' => hset r'' (List.mem_cons_of_mem r' hr'')
    rw [List.map_cons, List.find?_cons]
    rw [List.find?_cons] at h
    cases hc : cond r' with
    | true =>
      rw [if_pos rfl, hset r' List.mem_cons_self hc]
      cases hp : p r' with
      | true =>
        rw [hp] at h
        cases h
        rw [hr] at hc
        cases hc
      | false =>
        rw [hp] at h
        exact hrest h
    | false =>
      rw [if_neg (by simp)]
      cases hp : p r' with
      | true =>
        rw [hp] at h
        exact h
      | false =>
        rw [hp] at h
        exact hrest h

/-- A row that is written again with the same place is found where it was. -/
lemma find?_update_row {p : ε → Bool} (he : e ∈ t.rows)
    (hp : p (Row.withId (Row.id e) (set e)) = p e) (h : t.rows.find? p = some r) :
    (t.update (fun r => Row.id r == Row.id e) set).rows.find? p =
      some (if Row.id r == Row.id e then Row.withId (Row.id e) (set e) else r) := by
  rw [find?_update, h, Option.map_some]
  · congr 1
    split
    · rename_i hid
      rw [t.eq_of_id (List.mem_of_find?_eq_some h) he (beq_iff_eq.mp hid)]
    · rfl
  · intro r hr hid
    rw [t.eq_of_id hr he (beq_iff_eq.mp hid)]
    exact hp

lemma nodup_rows (t : Table ε) : t.rows.Nodup := .of_map _ t.nodup

/-- No key is zero. -/
def Positive (t : Table ε) : Prop := 0 < t.nextId ∧ ∀ r ∈ t.rows, 0 < Row.id r

lemma Positive.insert (h : t.Positive) (e : ε) : (t.insert e).Positive := by
  refine ⟨Nat.succ_pos _, fun r hr => ?_⟩
  rcases mem_insert.mp hr with hr | rfl
  · exact h.2 r hr
  · rw [Row.id_withId]
    exact h.1

lemma Positive.delete (h : t.Positive) (cond : ε → Bool) : (t.delete cond).Positive :=
  ⟨h.1, fun r hr => h.2 r (mem_delete.mp hr).1⟩

lemma Positive.update (h : t.Positive) (cond : ε → Bool) (set : ε → ε) :
    (t.update cond set).Positive := by
  refine ⟨h.1, fun r hr => ?_⟩
  obtain ⟨r', hr', rfl⟩ := mem_update.mp hr
  split
  · rw [Row.id_withId]
    exact h.2 r' hr'
  · exact h.2 r' hr'

/-- To write a row changes nothing exactly if the row is the one that was there. -/
lemma rows_update_eq_iff (he : e ∈ t.rows) (hr : Row.withId (Row.id e) r = r) :
    (t.update (fun t => Row.id t == Row.id e) fun _ => r).rows = t.rows ↔ r = e := by
  constructor
  · intro h
    have hmem : r ∈ t.rows := by
      rw [← h, mem_update]
      exact ⟨e, he, by rw [if_pos (beq_self_eq_true _), hr]⟩
    exact t.eq_of_id hmem he (by rw [← hr, Row.id_withId])
  · rintro rfl
    refine (List.map_congr_left fun r' hr' => ?_).trans (List.map_id _)
    split
    · rename_i hid
      rw [t.eq_of_id hr' he (beq_iff_eq.mp hid)]
      exact hr
    · rfl

/-- The key of a deleted row is the key of no row. -/
lemma id_ne_of_mem_delete (he : e ∈ t.rows) (hc : cond e = true) (hr : r ∈ (t.delete cond).rows) :
    Row.id r ≠ Row.id e := by
  intro h
  rw [mem_delete] at hr
  rw [t.eq_of_id hr.1 he h, hc] at hr
  cases hr.2

end Table

/-! ### Databases and writes -/

variable {τ : Type} {E : τ → Type} [∀ t, Row (E t)]

abbrev Database (E : τ → Type) [∀ t, Row (E t)] := (t : τ) → Table (E t)

inductive Write (E : τ → Type) : Type
  | insert (t : τ) (e : E t)
  | delete (t : τ) (cond : E t → Bool)
  | update (t : τ) (cond : E t → Bool) (set : E t → E t)

def Write.table : Write E → τ
  | .insert t _ => t
  | .delete t _ => t
  | .update t _ _ => t

def Write.inserts (t : τ) (es : List (E t)) : List (Write E) := es.map (.insert t)

variable [DecidableEq τ]

def Write.exec : Write E → Database E → Database E
  | .insert t e, s => Function.update s t ((s t).insert e)
  | .delete t cond, s => Function.update s t ((s t).delete cond)
  | .update t cond set, s => Function.update s t ((s t).update cond set)

section Exec

variable {t t' : τ} {s : Database E} (e : E t) (cond : E t → Bool) (set : E t → E t)

@[simp] lemma exec_insert : (Write.insert t e).exec s t = (s t).insert e :=
  Function.update_self ..

@[simp] lemma exec_delete : (Write.delete t cond).exec s t = (s t).delete cond :=
  Function.update_self ..

@[simp] lemma exec_update : (Write.update t cond set).exec s t = (s t).update cond set :=
  Function.update_self ..

@[simp] lemma exec_insert_of_ne (h : t' ≠ t) : (Write.insert t e).exec s t' = s t' :=
  Function.update_of_ne h ..

@[simp] lemma exec_delete_of_ne (h : t' ≠ t) : (Write.delete t cond).exec s t' = s t' :=
  Function.update_of_ne h ..

@[simp] lemma exec_update_of_ne (h : t' ≠ t) : (Write.update t cond set).exec s t' = s t' :=
  Function.update_of_ne h ..

end Exec

/-- The writes of one atomic step, in their order. -/
def execAll (ws : List (Write E)) (s : Database E) : Database E :=
  ws.foldl (fun s w => w.exec s) s

variable {s : Database E} {ws ws' : List (Write E)}

@[simp] lemma execAll_nil : execAll [] s = s := rfl

@[simp] lemma execAll_cons (w : Write E) : execAll (w :: ws) s = execAll ws (w.exec s) := rfl

lemma execAll_append : execAll (ws ++ ws') s = execAll ws' (execAll ws s) := by
  simp [execAll]

lemma execAll_inserts_of_ne {t t' : τ} {es : List (E t)} (h : t' ≠ t) :
    execAll (Write.inserts t es) s t' = s t' := by
  induction es generalizing s with
  | nil => rfl
  | cons e es ih => exact ih.trans (exec_insert_of_ne e h)

lemma mem_execAll_inserts_of_mem {t : τ} {es : List (E t)} {r : E t} (hr : r ∈ (s t).rows) :
    r ∈ (execAll (Write.inserts t es) s t).rows := by
  induction es generalizing s with
  | nil => exact hr
  | cons e es ih =>
    have hr' : r ∈ ((Write.insert t e).exec s t).rows := by
      rw [exec_insert, Table.mem_insert]
      exact .inl hr
    exact ih hr'

lemma exists_mem_execAll_inserts {t : τ} {es : List (E t)} {e : E t} (he : e ∈ es) :
    ∃ n, Row.withId n e ∈ (execAll (Write.inserts t es) s t).rows := by
  induction es generalizing s with
  | nil => cases he
  | cons e' es ih =>
    rcases List.mem_cons.mp he with rfl | he
    · have hrow : Row.withId (s t).nextId e ∈ ((Write.insert t e).exec s t).rows := by
        rw [exec_insert, Table.mem_insert]
        exact .inr rfl
      have hkept : Row.withId (s t).nextId e ∈
          (execAll (Write.inserts t es) ((Write.insert t e).exec s) t).rows :=
        mem_execAll_inserts_of_mem hrow
      exact ⟨_, hkept⟩
    · exact ih he

/-- What the rows show after inserts, when the key does not show. -/
lemma filterMap_rows_inserts {κ : Type} {t : τ} {es : List (E t)} {view : E t → Option κ}
    (hview : ∀ n e, view (Row.withId n e) = view e) :
    (execAll (Write.inserts t es) s t).rows.filterMap view =
      (s t).rows.filterMap view ++ es.filterMap view := by
  induction es generalizing s with
  | nil => simp [Write.inserts]
  | cons e es ih =>
    rw [Write.inserts, List.map_cons, execAll_cons]
    rw [Write.inserts] at ih
    rw [ih, exec_insert]
    simp only [Table.insert, List.filterMap_append, List.append_assoc, List.append_cancel_left_eq]
    cases h : view e with
    | none => simp [hview, h]
    | some k => simp [hview, h]

/-- A property that the writes keep one by one. -/
lemma execAll_induction {P : Database E → Prop} (hs : P s)
    (h : ∀ w ∈ ws, ∀ s, P s → P (w.exec s)) : P (execAll ws s) := by
  induction ws generalizing s with
  | nil => exact hs
  | cons w ws ih =>
    rw [execAll_cons]
    exact ih (h w (by simp) s hs) fun w' hw' => h w' (by simp [hw'])

lemma Write.exec_of_ne {w : Write E} {t : τ} {s : Database E} (h : t ≠ w.table) :
    w.exec s t = s t := by
  cases w with
  | insert _ _ => exact exec_insert_of_ne _ h
  | delete _ _ => exact exec_delete_of_ne _ h
  | update _ _ _ => exact exec_update_of_ne _ _ h

/-- A property of a table that each kind of write keeps -/
lemma exec_rule {t : τ} {w : Write E} {P : Table (E t) → Prop} (h : P (s t))
    (hinsert : ∀ e, P ((s t).insert e)) (hdelete : ∀ cond, P ((s t).delete cond))
    (hupdate : ∀ cond set, P ((s t).update cond set)) : P (w.exec s t) := by
  by_cases ht : t = w.table
  · cases w with
    | insert t' e =>
      obtain rfl : t = t' := ht
      rw [exec_insert]
      exact hinsert e
    | delete t' cond =>
      obtain rfl : t = t' := ht
      rw [exec_delete]
      exact hdelete cond
    | update t' cond set =>
      obtain rfl : t = t' := ht
      rw [exec_update]
      exact hupdate cond set
  · rwa [Write.exec_of_ne ht]

lemma Table.Positive.exec {t : τ} {w : Write E} (h : (s t).Positive) : (w.exec s t).Positive :=
  exec_rule h h.insert h.delete h.update

lemma Table.Positive.execAll {t : τ} (h : (s t).Positive) : (execAll ws s t).Positive :=
  execAll_induction (P := fun s' => (s' t).Positive) h fun _ _ _ hs => hs.exec

lemma nextId_exec (w : Write E) (s : Database E) (t : τ) :
    (s t).nextId ≤ (w.exec s t).nextId :=
  exec_rule (P := fun t' => (s t).nextId ≤ t'.nextId) (Nat.le_refl _) (fun _ => Nat.le_succ _)
    (fun _ => Nat.le_refl _) fun _ _ => Nat.le_refl _

lemma nextId_execAll (t : τ) : (s t).nextId ≤ (execAll ws s t).nextId :=
  execAll_induction (P := fun s' => (s t).nextId ≤ (s' t).nextId) (Nat.le_refl _)
    fun w _ s' hs' => hs'.trans (nextId_exec w s' t)

/-! ### Joins -/

section Joins

variable {α β : Type} {l : List α} {r : List β} {p : α → Bool} {on : α → β → Bool}

lemma mem_innerJoin {x : α × β} :
    x ∈ ((l.filter p).flatMap fun a => (r.filter (on a)).map fun b => (a, b)) ↔
      (x.1 ∈ l ∧ p x.1 = true) ∧ x.2 ∈ r ∧ on x.1 x.2 = true := by
  obtain ⟨a, b⟩ := x
  simp only [List.mem_flatMap, List.mem_map, List.mem_filter, Prod.mk.injEq]
  constructor
  · rintro ⟨a', ha, b', hb, rfl, rfl⟩
    exact ⟨ha, hb⟩
  · rintro ⟨ha, hb⟩
    exact ⟨a, ha, b, hb, rfl, rfl⟩

/-- Nothing is joined where no row has a partner. -/
lemma innerJoin_eq_nil_iff :
    ((l.filter p).flatMap fun a => (r.filter (on a)).map fun b => (a, b)) = [] ↔
      ¬∃ a ∈ l, p a = true ∧ ∃ b ∈ r, on a b = true := by
  rw [List.eq_nil_iff_forall_not_mem]
  constructor
  · rintro h ⟨a, ha, hp, b, hb, hon⟩
    exact h (a, b) (mem_innerJoin.mpr ⟨⟨ha, hp⟩, hb, hon⟩)
  · intro h x hx
    obtain ⟨⟨ha, hp⟩, hb, hon⟩ := mem_innerJoin.mp hx
    exact h ⟨x.1, ha, hp, x.2, hb, hon⟩

section Groups

variable [DecidableEq α] {a : α}

lemma filter_partners (c : α) :
    (((r.filter (on c)).map fun b => (c, b)).filter fun x => x.1 == a).map Prod.snd =
      if c = a then r.filter (on a) else [] := by
  split
  · rename_i hc
    subst hc
    rw [List.filter_eq_self.mpr, List.map_map]
    · exact List.map_id _
    · intro x hx
      obtain ⟨b, _, rfl⟩ := List.mem_map.mp hx
      exact beq_self_eq_true _
  · rename_i hc
    rw [List.filter_eq_nil_iff.mpr]
    · rfl
    · intro x hx
      obtain ⟨b, _, rfl⟩ := List.mem_map.mp hx
      simpa using hc

lemma filter_join_of_not_mem (ha : a ∉ l) :
    ((l.flatMap fun c => (r.filter (on c)).map fun b => (c, b)).filter
      fun x => x.1 == a).map Prod.snd = [] := by
  rw [List.filter_eq_nil_iff.mpr]
  · rfl
  · intro x hx
    obtain ⟨c, hc, hb⟩ := List.mem_flatMap.mp hx
    obtain ⟨b, _, rfl⟩ := List.mem_map.mp hb
    simp only [beq_iff_eq]
    rintro rfl
    exact ha hc

/-- The partners of a row in a join are those it has. -/
lemma filter_join (hl : l.Nodup) (ha : a ∈ l) :
    ((l.flatMap fun c => (r.filter (on c)).map fun b => (c, b)).filter
      fun x => x.1 == a).map Prod.snd = r.filter (on a) := by
  induction l with
  | nil => cases ha
  | cons c cs ih =>
    rw [List.flatMap_cons, List.filter_append, List.map_append, filter_partners]
    obtain ⟨hc, hcs⟩ := List.nodup_cons.mp hl
    rcases List.mem_cons.mp ha with rfl | ha
    · rw [if_pos rfl, filter_join_of_not_mem hc, List.append_nil]
    · rw [if_neg, List.nil_append, ih hcs ha]
      rintro rfl
      exact hc ha

end Groups

end Joins

/-! ### Actions -/

/-- An action over the database that answers an `α`. The writes of a step and what follows it
depend on the state the step finds. -/
inductive Action (E : τ → Type) [∀ t, Row (E t)] (α : Type) : Type
  | pure (a : α)
  | throw (e : String)
  | step (writes : Database E → List (Write E)) (next : Database E → Action E α)

namespace Action

variable {α β : Type}

def bind : Action E α → (α → Action E β) → Action E β
  | .pure a, f => f a
  | .throw e, _ => .throw e
  | .step writes next, f => .step writes fun s => (next s).bind f

instance : Monad (Action E) where
  pure := .pure
  bind := .bind

/-- An action run without interruption. -/
def run : Action E α → Handler (Database E) α
  | .pure a => fun s => (.ok a, s)
  | .throw e => fun s => (.error e, s)
  | .step writes next => fun s => (next s).run (execAll (writes s) s)

/-- What an action answers and writes when it runs alone, or the exception that stops it. -/
def outcome : Action E α → Database E → Except String (α × List (Write E))
  | .pure a => fun _ => .ok (a, [])
  | .throw e => fun _ => .error e
  | .step writes next => fun s =>
    match (next s).outcome (execAll (writes s) s) with
    | .ok (a, ws) => .ok (a, writes s ++ ws)
    | .error e => .error e

def query (f : Database E → α) : Action E α := .step (fun _ => []) fun s => .pure (f s)

/-- An insert answers the key of the new row. -/
def insert (t : τ) (e : E t) : Action E Nat :=
  .step (fun _ => [.insert t e]) fun s => .pure (s t).nextId

def insertMultiple (t : τ) (es : List (E t)) : Action E Unit :=
  .step (fun _ => Write.inserts t es) fun _ => .pure ()

def delete (t : τ) (cond : E t → Bool) : Action E Unit :=
  .step (fun _ => [.delete t cond]) fun _ => .pure ()

def update (t : τ) (cond : E t → Bool) (set : E t → E t) : Action E Unit :=
  .step (fun _ => [.update t cond set]) fun _ => .pure ()

/-- All of the action in one step. An exception undoes what the action wrote before it. -/
def transactionally (m : Action E α) : Action E α :=
  .step
    (fun s =>
      match m.outcome s with
      | .ok (_, ws) => ws
      | .error _ => [])
    fun s =>
      match m.outcome s with
      | .ok (a, _) => .pure a
      | .error e => .throw e

def forEach (f : α → Action E Unit) : List α → Action E Unit
  | [] => pure ()
  | a :: as => do
    f a
    forEach f as

def mapM (f : α → Action E β) : List α → Action E (List β)
  | [] => pure []
  | a :: as => do
    let b ← f a
    let bs ← mapM f as
    pure (b :: bs)

omit [DecidableEq τ] in
lemma bind_assoc {γ : Type} (m : Action E α) (f : α → Action E β) (g : β → Action E γ) :
    m >>= f >>= g = m >>= fun a => f a >>= g := by
  show (m.bind f).bind g = m.bind fun a => (f a).bind g
  induction m with
  | pure a => rfl
  | throw e => rfl
  | step writes next ih =>
    simp only [Action.bind]
    congr 1
    funext s
    exact ih s

/-! ### Actions run alone -/

lemma run_bind (m : Action E α) (f : α → Action E β) :
    (m >>= f).run = m.run >>= fun a => (f a).run := by
  show (m.bind f).run = _
  induction m with
  | pure a => rfl
  | throw e => rfl
  | step writes next ih =>
    funext s
    show ((next s).bind f).run (execAll (writes s) s) = _
    rw [ih s]
    rfl

lemma run_of_outcome {m : Action E α} {a : α} (h : m.outcome s = .ok (a, ws)) :
    m.run s = (.ok a, execAll ws s) := by
  induction m generalizing s ws with
  | pure b =>
    cases h
    rfl
  | throw e => cases h
  | step writes next ih =>
    simp only [outcome] at h
    split at h
    · rename_i b ws' hn
      cases h
      rw [execAll_append]
      exact ih s hn
    · cases h

lemma run_of_outcome_error {m : Action E α} {e : String} (h : m.outcome s = .error e) :
    (m.run s).1 = .error e := by
  induction m generalizing s with
  | pure b => cases h
  | throw e' =>
    cases h
    rfl
  | step writes next ih =>
    simp only [outcome] at h
    split at h
    · cases h
    · rename_i e' hn
      cases h
      exact ih s hn

/-- From `s`, `m` run alone ends normally in `Q` or exceptionally in `X`. -/
def wp (m : Action E α) (Q : α → Database E → Prop) (X : Database E → Prop) (s : Database E) :
    Prop := Handler.wp m.run Q X s

variable {Q Q' : α → Database E → Prop} {X X' : Database E → Prop}

@[simp] lemma wp_pure (a : α) : wp (pure a : Action E α) Q X s ↔ Q a s := Iff.rfl

@[simp] lemma wp_throw (e : String) : wp (.throw e : Action E α) Q X s ↔ X s := Iff.rfl

@[simp] lemma wp_bind (m : Action E α) (f : α → Action E β) {Q : β → Database E → Prop} :
    wp (m >>= f) Q X s ↔ wp m (fun a s' => wp (f a) Q X s') X s := by
  rw [wp, run_bind, Handler.wp_bind]
  rfl

@[simp] lemma wp_map (f : α → β) (m : Action E α) {Q : β → Database E → Prop} :
    wp (f <$> m) Q X s ↔ wp m (fun a => Q (f a)) X s := wp_bind m fun a => pure (f a)

@[simp] lemma wp_query (f : Database E → α) : wp (query f) Q X s ↔ Q (f s) s := Iff.rfl

@[simp] lemma wp_insert (t : τ) (e : E t) {Q : Nat → Database E → Prop} :
    wp (insert t e) Q X s ↔ Q (s t).nextId (execAll [.insert t e] s) := Iff.rfl

@[simp] lemma wp_insertMultiple (t : τ) (es : List (E t)) {Q : Unit → Database E → Prop} :
    wp (insertMultiple t es) Q X s ↔ Q () (execAll (Write.inserts t es) s) := Iff.rfl

@[simp] lemma wp_delete (t : τ) (cond : E t → Bool) {Q : Unit → Database E → Prop} :
    wp (delete t cond) Q X s ↔ Q () (execAll [.delete t cond] s) := Iff.rfl

@[simp] lemma wp_update (t : τ) (cond : E t → Bool) (set : E t → E t)
    {Q : Unit → Database E → Prop} :
    wp (update t cond set) Q X s ↔ Q () (execAll [.update t cond set] s) := Iff.rfl

/-- A transaction that fails leaves the state it found. -/
@[simp] lemma wp_transactionally (m : Action E α) :
    wp m.transactionally Q X s ↔ wp m Q (fun _ => X s) s := by
  simp only [wp, Handler.wp, transactionally, run]
  cases h : m.outcome s with
  | ok r =>
    obtain ⟨a, ws⟩ := r
    simp only [run_of_outcome h, run]
  | error e =>
    have he := run_of_outcome_error h
    cases hm : m.run s with
    | mk r s' =>
      rw [hm] at he
      simp only at he
      subst he
      simp [run]

@[simp] lemma wp_ite (c : Prop) [Decidable c] (m m' : Action E α) :
    wp (if c then m else m') Q X s ↔ if c then wp m Q X s else wp m' Q X s := by
  split <;> rfl

/-- A condition on both exits is a condition on the state left behind. -/
lemma wp_run (m : Action E α) (P : Database E → Prop) :
    wp m (fun _ => P) P s ↔ P (m.run.exec s) := Handler.wp_exec m.run P

lemma wp_mono {m : Action E α} (h : wp m Q X s) (hQ : ∀ a s', Q a s' → Q' a s')
    (hX : ∀ s', X s' → X' s') : wp m Q' X' s := Handler.wp_mono h hQ hX

lemma wp_and {m : Action E α} (h : wp m Q X s) (h' : wp m Q' X' s) :
    wp m (fun a s' => Q a s' ∧ Q' a s') (fun s' => X s' ∧ X' s') s := Handler.wp_and h h'

/-- The loop rule: `I` speaks about the elements still to come. -/
lemma wp_forEach {f : α → Action E Unit} {I : List α → Database E → Prop}
    {Q : Unit → Database E → Prop}
    (hstep : ∀ a as s, I (a :: as) s → wp (f a) (fun _ => I as) X s)
    (hdone : ∀ s, I [] s → Q () s) (as : List α) (s : Database E) (h : I as s) :
    wp (forEach f as) Q X s := by
  induction as generalizing s with
  | nil => exact hdone s h
  | cons a as ih =>
    rw [forEach, wp_bind]
    exact wp_mono (hstep a as s h) (fun _ s' h' => ih s' h') fun _ h' => h'

lemma wp_forEach_delete (t : τ) (cond : α → E t → Bool) (as : List α)
    {Q : Unit → Database E → Prop} :
    wp (forEach (fun a => delete t (cond a)) as) Q X s ↔
      Q () (execAll (as.map fun a => .delete t (cond a)) s) := by
  induction as generalizing s with
  | nil => rfl
  | cons a as ih => rw [forEach, wp_bind, wp_delete, ih, List.map_cons, execAll_cons]; rfl

/-- The same rule for a loop that answers: `I` relates the elements seen to their answers. -/
lemma wp_mapM {f : α → Action E β} {R : α → β → Prop} {Q : List β → Database E → Prop}
    (as : List α) (hstep : ∀ a ∈ as, wp (f a) (fun b s' => R a b ∧ s' = s) X s)
    (hQ : ∀ bs, List.Forall₂ R as bs → Q bs s) : wp (mapM f as) Q X s := by
  induction as generalizing Q with
  | nil => exact hQ [] .nil
  | cons a as ih =>
    rw [mapM, wp_bind]
    refine wp_mono (hstep a List.mem_cons_self) ?_ fun _ h => h
    rintro b s' ⟨hb, rfl⟩
    rw [wp_bind]
    exact ih (fun a' ha' => hstep a' (List.mem_cons_of_mem a ha')) fun bs hbs =>
      hQ (b :: bs) (.cons hb hbs)

/-- The loop answers for each of the elements. -/
lemma wp_mapM_of_mem {f : α → Action E β} {R : α → β → Prop} {Q : List β → Database E → Prop}
    {as : List α} (hstep : ∀ a ∈ as, wp (f a) (fun b s' => R a b ∧ s' = s) X s) {a : α} (ha : a ∈ as)
    (hQ : ∀ bs, (∃ b ∈ bs, R a b) → Q bs s) : wp (mapM f as) Q X s := by
  refine wp_mapM as hstep fun bs hbs => hQ bs ?_
  clear hstep hQ
  induction hbs with
  | nil => cases ha
  | cons hb _ ih =>
    rcases List.mem_cons.mp ha with rfl | ha
    · exact ⟨_, List.mem_cons_self, hb⟩
    · obtain ⟨b, hb, hR⟩ := ih ha
      exact ⟨b, List.mem_cons_of_mem _ hb, hR⟩

end Action

end Relational
