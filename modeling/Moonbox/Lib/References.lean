import Moonbox.Lib.Relational

/-!
# References

What the rows of a database need of other tables, without the database knowing. A reference
names a table, a key in it and perhaps the scope that the row with the key must have.
-/

namespace Relational

variable {τ : Type} {E : τ → Type} [∀ t, Row (E t)]

/-- `Refers r t id scope`: the row `r` needs a row of `t` with the key `id`, and of the scope if
one is given. -/
structure References (E : τ → Type) where
  Refers : {t : τ} → E t → τ → Nat → Option Nat → Prop
  scope : {t : τ} → E t → Nat

namespace References

variable {R : References E} {s : Database E}

/-- The row is one that a reference to `id` and `scope` is satisfied by. -/
def Answers (R : References E) {t : τ} (p : E t) (id : Nat) (scope : Option Nat) : Prop :=
  Row.id p = id ∧ ∀ n, scope = some n → R.scope p = n

/-- There is a row for the reference. -/
def Has (R : References E) (s : Database E) (t : τ) (id : Nat) (scope : Option Nat) : Prop :=
  ∃ p ∈ (s t).rows, R.Answers p id scope

/-- Everything the row needs is there. -/
def Satisfied (R : References E) (s : Database E) {t : τ} (r : E t) : Prop :=
  ∀ t' id scope, R.Refers r t' id scope → R.Has s t' id scope

/-- No row refers to a missing row. -/
def Integrity (R : References E) (s : Database E) : Prop :=
  ∀ t, ∀ r ∈ (s t).rows, R.Satisfied s r

variable {t : τ} {id : Nat} {scope : Option Nat}

lemma Has.intro {p : E t} (hp : p ∈ (s t).rows) (hid : Row.id p = id)
    (hscope : ∀ n, scope = some n → R.scope p = n) : R.Has s t id scope := ⟨p, hp, hid, hscope⟩

/-- A row that is there and has the key of a reference is the one the reference means. -/
lemma Has.answers {p : E t} (h : R.Has s t id scope) (hp : p ∈ (s t).rows) (hid : Row.id p = id) :
    R.Answers p id scope := by
  obtain ⟨q, hq, hqid, hqscope⟩ := h
  have hqp : q = p := (s t).eq_of_id hq hp (hqid.trans hid.symm)
  exact ⟨hid, hqp ▸ hqscope⟩

variable [DecidableEq τ]

/-- What a write has to observe. Its rows need rows that are there, what it deletes is not needed
and what it updates keeps its scope. -/
def Keeps (R : References E) (s : Database E) : Write E → Prop
  | .insert t e => R.Satisfied s (Row.withId (s t).nextId e)
  | .delete t cond => ∀ t', ∀ r ∈ (s t').rows, ∀ id scope, R.Refers r t id scope →
      ∀ p ∈ (s t).rows, R.Answers p id scope → cond p = false
  | .update t cond set => ∀ r ∈ (s t).rows, cond r = true →
      R.scope (Row.withId (Row.id r) (set r)) = R.scope r ∧
      R.Satisfied s (Row.withId (Row.id r) (set r))

/-- The writes of a step, each in the state it finds. -/
def KeepsAll (R : References E) : Database E → List (Write E) → Prop
  | _, [] => True
  | s, w :: ws => R.Keeps s w ∧ R.KeepsAll (w.exec s) ws

lemma Has.insert {t' : τ} {e : E t'} (h : R.Has s t id scope) :
    R.Has ((Write.insert t' e).exec s) t id scope := by
  obtain ⟨p, hp, hans⟩ := h
  refine ⟨p, ?_, hans⟩
  by_cases ht : t = t'
  · subst ht
    rw [exec_insert, Table.mem_insert]
    exact .inl hp
  · rw [exec_insert_of_ne e ht]
    exact hp

/-- The row just inserted is there. -/
lemma Has.inserted (e : E t) : R.Has ((Write.insert t e).exec s) t (s t).nextId none := by
  refine ⟨Row.withId (s t).nextId e, ?_, Row.id_withId _ _, fun _ hn => by cases hn⟩
  rw [exec_insert, Table.mem_insert]
  exact .inr rfl

lemma Integrity.insert {e : E t} (h : R.Integrity s) (hk : R.Keeps s (.insert t e)) :
    R.Integrity ((Write.insert t e).exec s) := by
  intro t' r hr t'' id scope href
  apply Has.insert
  by_cases ht : t' = t
  · subst ht
    rw [exec_insert, Table.mem_insert] at hr
    rcases hr with hr | rfl
    · exact h _ r hr _ _ _ href
    · exact hk _ _ _ href
  · rw [exec_insert_of_ne e ht] at hr
    exact h _ r hr _ _ _ href

lemma Integrity.delete {cond : E t → Bool} (h : R.Integrity s) (hk : R.Keeps s (.delete t cond)) :
    R.Integrity ((Write.delete t cond).exec s) := by
  intro t' r hr t'' id scope href
  have hold : r ∈ (s t').rows := by
    by_cases ht : t' = t
    · subst ht
      rw [exec_delete, Table.mem_delete] at hr
      exact hr.1
    · rwa [exec_delete_of_ne cond ht] at hr
  obtain ⟨p, hp, hid, hscope⟩ := h _ r hold _ _ _ href
  refine ⟨p, ?_, hid, hscope⟩
  by_cases ht : t'' = t
  · subst ht
    rw [exec_delete, Table.mem_delete]
    exact ⟨hp, hk _ r hold _ _ href p hp ⟨hid, hscope⟩⟩
  · rw [exec_delete_of_ne cond ht]
    exact hp

lemma Integrity.update {cond : E t → Bool} {set : E t → E t} (h : R.Integrity s)
    (hk : R.Keeps s (.update t cond set)) :
    R.Integrity ((Write.update t cond set).exec s) := by
  intro t' r hr t'' id scope href
  -- The row needed something that is there before the update.
  have hhas : R.Has s t'' id scope := by
    by_cases ht : t' = t
    · subst ht
      rw [exec_update, Table.mem_update] at hr
      obtain ⟨q, hq, rfl⟩ := hr
      split at href
      · rename_i hc
        exact (hk q hq hc).2 _ _ _ href
      · exact h _ q hq _ _ _ href
    · rw [exec_update_of_ne cond set ht] at hr
      exact h _ r hr _ _ _ href
  obtain ⟨p, hp, hid, hscope⟩ := hhas
  by_cases ht : t'' = t
  · subst ht
    refine ⟨if cond p then Row.withId (Row.id p) (set p) else p, ?_, ?_⟩
    · rw [exec_update, Table.mem_update]
      exact ⟨p, hp, rfl⟩
    · split
      · rename_i hc
        exact ⟨(Row.id_withId _ _).trans hid, fun n hn => (hk p hp hc).1.trans (hscope n hn)⟩
      · exact ⟨hid, hscope⟩
  · refine ⟨p, ?_, hid, hscope⟩
    rw [exec_update_of_ne cond set ht]
    exact hp

lemma Integrity.exec {w : Write E} (h : R.Integrity s) (hk : R.Keeps s w) :
    R.Integrity (w.exec s) := by
  cases w with
  | insert t e => exact h.insert hk
  | delete t cond => exact h.delete hk
  | update t cond set => exact h.update hk

lemma Integrity.execAll {ws : List (Write E)} (h : R.Integrity s) (hk : R.KeepsAll s ws) :
    R.Integrity (execAll ws s) := by
  induction ws generalizing s with
  | nil => exact h
  | cons w ws ih => exact ih (h.exec hk.1) hk.2

omit [DecidableEq τ] in
/-- Overwriting one row by one of the same scope. -/
lemma keeps_overwrite {e e' : E t} (he : e ∈ (s t).rows)
    (hscope : R.scope (Row.withId (Row.id e) e') = R.scope e)
    (hsat : R.Satisfied s (Row.withId (Row.id e) e')) :
    R.Keeps s (.update t (fun r => Row.id r == Row.id e) fun _ => e') := by
  intro r hr hc
  rw [(s t).eq_of_id hr he (beq_iff_eq.mp hc)]
  exact ⟨hscope, hsat⟩

lemma Satisfied.insert {t' : τ} {e : E t'} {r : E t} (h : R.Satisfied s r) :
    R.Satisfied ((Write.insert t' e).exec s) r := fun _ _ _ href => (h _ _ _ href).insert

/-- Inserts of rows whose needs are met before the first of them, whatever keys they get. -/
lemma keepsAll_inserts {es : List (E t)}
    (h : ∀ e ∈ es, ∀ n, R.Satisfied s (Row.withId n e)) : R.KeepsAll s (Write.inserts t es) := by
  induction es generalizing s with
  | nil => trivial
  | cons e es ih =>
    refine ⟨h e (by simp) _, ih fun e' he' n => ?_⟩
    exact (h e' (by simp [he']) n).insert

/-- Nothing refers to a table that is only a child. -/
lemma keepsAll_deletes {α : Type} {cond : α → E t → Bool} {as : List α}
    (h : ∀ t' (r : E t') id scope, ¬ R.Refers r t id scope) :
    R.KeepsAll s (as.map fun a => .delete t (cond a)) := by
  induction as generalizing s with
  | nil => trivial
  | cons a as ih => exact ⟨fun _ r _ id scope href => absurd href (h _ r id scope), ih⟩

end References

end Relational
