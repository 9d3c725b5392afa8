import Moonbox.Lib.Relational

/-!
# Frames

A part of a database is the rows that meet a predicate. A write that spares the predicate leaves
the part as it is.
-/

namespace Relational

variable {τ : Type} {E : τ → Type} [∀ t, Row (E t)]

/-- The rows that meet `P`, table by table. -/
def part (P : (t : τ) → E t → Bool) (s : Database E) (t : τ) : List (E t) :=
  (s t).rows.filter (P t)

/-- The write neither makes nor changes nor removes a row that meets `P`. -/
def Write.Spares (P : (t : τ) → E t → Bool) (s : Database E) : Write E → Prop
  | .insert t e => P t (Row.withId (s t).nextId e) = false
  | .delete t cond => ∀ r ∈ (s t).rows, cond r = true → P t r = false
  | .update t cond set => ∀ r ∈ (s t).rows, cond r = true →
      P t r = false ∧ P t (Row.withId (Row.id r) (set r)) = false

variable {P : (t : τ) → E t → Bool} {s : Database E} {w : Write E} {ws : List (Write E)}

section Tables

variable {ε : Type} [Row ε] {p : ε → Bool} {t : Table ε}

lemma filter_insert {e : ε} (h : p (Row.withId t.nextId e) = false) :
    (t.insert e).rows.filter p = t.rows.filter p := by
  simp [Table.insert, h]

lemma filter_delete {cond : ε → Bool} (h : ∀ r ∈ t.rows, cond r = true → p r = false) :
    (t.delete cond).rows.filter p = t.rows.filter p := by
  simp only [Table.delete, List.filter_filter]
  apply List.filter_congr
  intro r hr
  cases hc : cond r
  · simp
  · simp [h r hr hc]

lemma filter_update {cond : ε → Bool} {set : ε → ε} (h : ∀ r ∈ t.rows, cond r = true →
    p r = false ∧ p (Row.withId (Row.id r) (set r)) = false) :
    (t.update cond set).rows.filter p = t.rows.filter p := by
  show (t.rows.map _).filter p = _
  revert h
  induction t.rows with
  | nil => intro _; rfl
  | cons r rs ih =>
    intro h
    have hrs := ih fun r' hr' => h r' (by simp [hr'])
    rw [List.map_cons]
    cases hc : cond r
    · simp only [Bool.false_eq_true, if_false, List.filter_cons, hrs]
    · obtain ⟨hp, hp'⟩ := h r (by simp) hc
      simp only [if_true, List.filter_cons, hp, hp', Bool.false_eq_true, if_false, hrs]

end Tables

variable [DecidableEq τ]

lemma part_exec (h : w.Spares P s) : part P (w.exec s) = part P s := by
  funext t'
  cases w with
  | insert t e =>
    by_cases ht : t' = t
    · subst ht
      simpa [part] using filter_insert h
    · simp [part, ht]
  | delete t cond =>
    by_cases ht : t' = t
    · subst ht
      simpa [part] using filter_delete h
    · simp [part, ht]
  | update t cond set =>
    by_cases ht : t' = t
    · subst ht
      simpa [part] using filter_update h
    · simp [part, ht]

/-- Every write of the list spares `P` in the state it finds. -/
def SparesAll (P : (t : τ) → E t → Bool) : Database E → List (Write E) → Prop
  | _, [] => True
  | s, w :: ws => w.Spares P s ∧ SparesAll P (w.exec s) ws

lemma part_execAll (h : SparesAll P s ws) : part P (execAll ws s) = part P s := by
  induction ws generalizing s with
  | nil => rfl
  | cons w ws ih =>
    obtain ⟨hw, hws⟩ := h
    rw [execAll_cons, ih hws, part_exec hw]

/-- Inserts of rows that are not of the part whatever their key. -/
lemma sparesAll_inserts {t : τ} {es : List (E t)}
    (h : ∀ e ∈ es, ∀ n, P t (Row.withId n e) = false) : SparesAll P s (Write.inserts t es) := by
  induction es generalizing s with
  | nil => trivial
  | cons e es ih =>
    exact ⟨h e (by simp) _, ih fun e' he' => h e' (by simp [he'])⟩

lemma filter_execAll_inserts {t : τ} {es : List (E t)} {p : E t → Bool}
    (h : ∀ e ∈ es, ∀ n, p (Row.withId n e) = false) :
    (execAll (Write.inserts t es) s t).rows.filter p = (s t).rows.filter p := by
  induction es generalizing s with
  | nil => rfl
  | cons e es ih =>
    refine (ih fun e' he' => h e' (by simp [he'])).trans ?_
    show ((Write.insert t e).exec s t).rows.filter p = _
    rw [exec_insert]
    exact filter_insert (h e (by simp) _)

/-- Deletions of rows that are not of the part. -/
lemma sparesAll_deletes {α : Type} {t : τ} {cond : α → E t → Bool} {as : List α}
    (h : ∀ a ∈ as, ∀ r, cond a r = true → P t r = false) :
    SparesAll P s (as.map fun a => .delete t (cond a)) := by
  induction as generalizing s with
  | nil => trivial
  | cons a as ih =>
    exact ⟨fun r _ => h a (by simp) r, ih fun a' ha' => h a' (by simp [ha'])⟩

end Relational
