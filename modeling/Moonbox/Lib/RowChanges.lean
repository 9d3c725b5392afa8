import Moonbox.Lib.References

/-!
# One row more or less

What it is for a database to be another one without a row. Rows that refer to it may have gone with
it, the rest is as it was. Read backwards it is what an insertion makes.
-/

namespace Relational.References

variable {τ : Type} {E : τ → Type} [∀ t, Row (E t)] {R : References E} {t t' : τ} {r : E t}
  {s s' : Database E}

/-- The row `e` refers to the row `r`. -/
def RefersTo (R : References E) {t' : τ} (e : E t') {t : τ} (r : E t) : Prop :=
  ∃ scope, R.Refers e t (Row.id r) scope

/-- `s'` is `s` without the row `r`, and of the other tables at most without rows that refer to
it. -/
structure WithoutRow (R : References E) {t : τ} (r : E t) (s s' : Database E) : Prop where
  mem : r ∈ (s t).rows
  sub : ∀ t', (s' t').rows ⊆ (s t').rows
  mem_iff : ∀ e ∈ (s t).rows, e ∈ (s' t).rows ↔ e ≠ r
  others : ∀ t', t' ≠ t → ∀ e ∈ (s t').rows, e ∉ (s' t').rows → R.RefersTo e r

lemma not_withoutRow_self : ¬R.WithoutRow r s s := by
  intro h
  exact (h.mem_iff r h.mem).mp h.mem rfl

/-- The write deletes nothing but rows of other tables that refer to `r`. -/
def Clears (R : References E) {t : τ} (r : E t) : Write E → Prop
  | .delete t' cond => t' ≠ t ∧ ∀ e, cond e = true → R.RefersTo e r
  | _ => False

/-- The write inserts into another table a row that refers to `r`. -/
def Attaches (R : References E) {t : τ} (r : E t) : Write E → Prop
  | .insert t' e => t' ≠ t ∧ ∀ n, R.RefersTo (Row.withId n e) r
  | _ => False

variable [DecidableEq τ] {ws : List (Write E)}

/-- What clears a row leaves its table alone. -/
lemma clears_execAll (h : ∀ w ∈ ws, R.Clears r w) :
    execAll ws s t = s t ∧ ∀ t', (execAll ws s t').rows ⊆ (s t').rows ∧
      ∀ e ∈ (s t').rows, e ∉ (execAll ws s t').rows → R.RefersTo e r := by
  apply execAll_induction (P := fun s' => s' t = s t ∧ ∀ t', (s' t').rows ⊆ (s t').rows ∧
      ∀ e ∈ (s t').rows, e ∉ (s' t').rows → R.RefersTo e r)
  · exact ⟨rfl, fun t' => ⟨List.Subset.refl _, fun e he hne => absurd he hne⟩⟩
  · rintro w hw s' ⟨hsame, hothers⟩
    cases w with
    | insert t' e => exact (h _ hw).elim
    | update t' cond set => exact (h _ hw).elim
    | delete t' cond =>
      obtain ⟨hne, hrefers⟩ := h _ hw
      refine ⟨(exec_delete_of_ne cond hne.symm).trans hsame, fun t'' => ?_⟩
      obtain ⟨hsub, hlost⟩ := hothers t''
      by_cases ht : t'' = t'
      · subst ht
        rw [exec_delete]
        refine ⟨fun e he => hsub (Table.mem_delete.mp he).1, fun e he hgone => ?_⟩
        by_cases hmem : e ∈ (s' t'').rows
        · apply hrefers
          rw [Table.mem_delete, not_and, Bool.not_eq_false] at hgone
          exact hgone hmem
        · exact hlost e he hmem
      · rw [exec_delete_of_ne cond ht]
        exact ⟨hsub, hlost⟩

/-- What is left of the table of the row after a deletion in it. -/
lemma mem_execAll_delete (h : ∀ w ∈ ws, R.Clears r w) {cond : E t → Bool} {e : E t} :
    e ∈ (execAll (ws ++ [.delete t cond]) s t).rows ↔ e ∈ (s t).rows ∧ cond e = false := by
  rw [execAll_append, execAll_cons, execAll_nil, exec_delete, Table.mem_delete,
    (clears_execAll h).1]

/-- A row that the deletion does not mean is still there. -/
lemma not_withoutRow_delete (h : ∀ w ∈ ws, R.Clears r w) {cond : E t → Bool} {e : E t}
    (hcond : cond e = false) : ¬R.WithoutRow e s (execAll (ws ++ [.delete t cond]) s) := by
  intro hwithout
  exact (hwithout.mem_iff e hwithout.mem).mp
    ((mem_execAll_delete h).mpr ⟨hwithout.mem, hcond⟩) rfl

/-- A deletion after what clears the row removes just the row when it means no other. -/
lemma withoutRow_delete_iff (h : ∀ w ∈ ws, R.Clears r w) {cond : E t → Bool}
    (hr : r ∈ (s t).rows) (hcond : cond r = true) :
    R.WithoutRow r s (execAll (ws ++ [.delete t cond]) s) ↔
      ∀ e ∈ (s t).rows, cond e = true → e = r := by
  constructor
  · intro hwithout e he hc
    by_contra hne
    have hstays := (mem_execAll_delete h).mp ((hwithout.mem_iff e he).mpr hne)
    rw [hc] at hstays
    cases hstays.2
  · intro halone
    obtain ⟨-, hothers⟩ := clears_execAll (s := s) h
    have hother : ∀ t', t' ≠ t → execAll (ws ++ [.delete t cond]) s t' = execAll ws s t' := by
      intro t' ht
      rw [execAll_append, execAll_cons, execAll_nil, exec_delete_of_ne cond ht]
    refine ⟨hr, fun t' => ?_, fun e he => ?_, fun t' ht => ?_⟩
    · by_cases ht : t' = t
      · subst ht
        exact fun e he => ((mem_execAll_delete h).mp he).1
      · rw [hother t' ht]
        exact (hothers t').1
    · rw [mem_execAll_delete h]
      constructor
      · rintro ⟨-, hc⟩ rfl
        rw [hcond] at hc
        cases hc
      · intro hne
        exact ⟨he, Bool.eq_false_iff.mpr fun hc => hne (halone e he hc)⟩
    · rw [hother t' ht]
      exact (hothers t').2

/-- A row more that refers to `r` makes no difference. -/
lemma WithoutRow.insert {e : E t'} (h : R.WithoutRow r s' s) (ht : t' ≠ t)
    (hrefers : R.RefersTo (Row.withId (s' t').nextId e) r) :
    R.WithoutRow r ((Write.insert t' e).exec s') s := by
  have hsame : (Write.insert t' e).exec s' t = s' t := exec_insert_of_ne e ht.symm
  refine ⟨?_, fun t'' => ?_, fun e' he' => ?_, fun t'' hne e' he' hnew => ?_⟩
  · rw [hsame]
    exact h.mem
  · intro e' he'
    have hold := h.sub t'' he'
    by_cases heq : t'' = t'
    · subst heq
      rw [exec_insert, Table.mem_insert]
      exact .inl hold
    · rw [exec_insert_of_ne e heq]
      exact hold
  · rw [hsame] at he'
    exact h.mem_iff e' he'
  · by_cases heq : t'' = t'
    · subst heq
      rw [exec_insert, Table.mem_insert] at he'
      rcases he' with he' | rfl
      · exact h.others t'' hne e' he' hnew
      · exact hrefers
    · rw [exec_insert_of_ne e heq] at he'
      exact h.others t'' hne e' he' hnew

/-- An insertion, with rows after it that refer to the new row. -/
lemma withoutRow_insert {e : E t}
    (h : ∀ w ∈ ws, R.Attaches (Row.withId (s t).nextId e) w) :
    R.WithoutRow (Row.withId (s t).nextId e) (execAll (.insert t e :: ws) s) s := by
  rw [execAll_cons]
  apply execAll_induction (P := fun s' => R.WithoutRow (Row.withId (s t).nextId e) s' s)
  · have hnew : Row.withId (s t).nextId e ∉ (s t).rows := by
      intro hmem
      have hlt := (s t).fresh _ hmem
      rw [Row.id_withId] at hlt
      exact Nat.lt_irrefl _ hlt
    refine ⟨?_, fun t' => ?_, fun e' he' => ?_, fun t' ht e' he' hgone => ?_⟩
    · rw [exec_insert, Table.mem_insert]
      exact .inr rfl
    · intro e' he'
      by_cases ht : t' = t
      · subst ht
        rw [exec_insert, Table.mem_insert]
        exact .inl he'
      · rw [exec_insert_of_ne e ht]
        exact he'
    · rw [exec_insert, Table.mem_insert] at he'
      constructor
      · rintro hold rfl
        exact hnew hold
      · exact he'.resolve_right
    · rw [exec_insert_of_ne e ht] at he'
      exact absurd he' hgone
  · intro w hw s' hs'
    cases w with
    | insert t' e' =>
      obtain ⟨hne, hrefers⟩ := h _ hw
      exact hs'.insert hne (hrefers _)
    | delete t' cond => exact (h _ hw).elim
    | update t' cond set => exact (h _ hw).elim

end Relational.References
