import Moonbox.Lib.Relational

/-!
# Views

A view is what one looks at of a database. `Changes` says of an action, run alone, whether it ends
normally and how it changes a view, in every database of a frame: those that have what the action
looks up and does not write.
-/

namespace Relational

open Actor

variable {τ : Type} {E : τ → Type} [∀ t, Row (E t)] [DecidableEq τ]

/-- Two databases that are the same outside the tables that meet `p`. -/
def AgreeOutside (p : τ → Prop) (s s' : Database E) : Prop := ∀ t, ¬ p t → s' t = s t

lemma AgreeOutside.execAll {p : τ → Prop} {s s' : Database E} {ws : List (Write E)}
    (h : AgreeOutside p s s') (hws : ∀ w ∈ ws, p w.table) :
    AgreeOutside p s (execAll ws s') := by
  apply execAll_induction h
  intro w hw s' h t ht
  have hne : t ≠ w.table := by
    intro heq
    rw [heq] at ht
    exact ht (hws w hw)
  rw [Write.exec_of_ne hne]
  exact h t ht

omit [(t : τ) → Row (E t)] [DecidableEq τ] in
lemma Write.table_of_mem_inserts {t : τ} {es : List (E t)} {w : Write E}
    (h : w ∈ Write.inserts t es) : w.table = t := by
  obtain ⟨e, _, heq⟩ := List.mem_map.mp h
  rw [← heq]
  rfl

/-- What the rows of a table show after an insert, when the key does not show. -/
lemma exists_execAll_inserts {t : τ} {es : List (E t)} {s : Database E} {q : E t → Prop}
    (hq : ∀ n e, q (Row.withId n e) ↔ q e) :
    (∃ r ∈ (execAll (Write.inserts t es) s t).rows, q r) ↔
      (∃ r ∈ (s t).rows, q r) ∨ ∃ e ∈ es, q e := by
  induction es generalizing s with
  | nil => simp [Write.inserts]
  | cons e es ih =>
    rw [Write.inserts, List.map_cons, execAll_cons]
    rw [Write.inserts] at ih
    rw [ih, exec_insert]
    simp only [Table.mem_insert, or_and_right, exists_or, exists_eq_left, hq, List.mem_cons]
    rw [or_assoc]

/-- What they show after deletes. -/
lemma exists_execAll_deletes {α : Type} {t : τ} {cond : α → E t → Bool} {as : List α}
    {s : Database E} {q : E t → Prop} :
    (∃ r ∈ (execAll (as.map fun a => .delete t (cond a)) s t).rows, q r) ↔
      ∃ r ∈ (s t).rows, q r ∧ ∀ a ∈ as, cond a r = false := by
  induction as generalizing s with
  | nil => simp
  | cons a as ih =>
    rw [List.map_cons, execAll_cons, ih, exec_delete]
    simp only [Table.mem_delete, List.mem_cons, forall_eq_or_imp]
    apply exists_congr
    intro r
    tauto

/-! ### Databases with the same rows -/

namespace Table

variable {ε : Type} [Row ε] {t : Table ε} {cond : ε → Bool} {set : ε → ε}

lemma rows_insert_ne (e : ε) : (t.insert e).rows ≠ t.rows := by
  intro h
  have hlength := congrArg List.length h
  simp [insert] at hlength

lemma rows_delete_eq : (t.delete cond).rows = t.rows ↔ ∀ r ∈ t.rows, cond r = false := by
  simp [delete, List.filter_eq_self]

lemma rows_update_eq : (t.update cond set).rows = t.rows ↔
    ∀ r ∈ t.rows, cond r = true → Row.withId (Row.id r) (set r) = r := by
  have h := @List.map_inj_left _ _ t.rows
    (fun r => if cond r then Row.withId (Row.id r) (set r) else r) id
  rw [List.map_id] at h
  rw [update, h]
  apply forall_congr'
  intro r
  apply forall_congr'
  intro _
  by_cases hc : cond r = true
  · simp [hc]
  · simp [hc]

end Table

/-- The same rows in every table. The counters may differ. -/
def SameRows (s s' : Database E) : Prop := ∀ t, (s' t).rows = (s t).rows

section SameRows

variable {s : Database E} {t : τ} {cond : E t → Bool} {set : E t → E t}

omit [DecidableEq τ] in
lemma SameRows.rfl : SameRows s s := fun _ => Eq.refl _

/-- One write is seen in its table or nowhere. -/
lemma sameRows_exec {w : Write E} :
    SameRows s (w.exec s) ↔ (w.exec s w.table).rows = (s w.table).rows := by
  constructor
  · exact fun h => h w.table
  · intro h t
    by_cases ht : t = w.table
    · rw [ht]
      exact h
    · rw [Write.exec_of_ne ht]

lemma not_sameRows_insert (e : E t) : ¬ SameRows s (execAll [.insert t e] s) := by
  intro h
  have ht := h t
  rw [execAll_cons, execAll_nil, exec_insert] at ht
  exact Table.rows_insert_ne e ht

lemma sameRows_delete :
    SameRows s (execAll [.delete t cond] s) ↔ ∀ r ∈ (s t).rows, cond r = false := by
  rw [execAll_cons, execAll_nil, sameRows_exec]
  show ((Write.delete t cond).exec s t).rows = _ ↔ _
  rw [exec_delete]
  exact Table.rows_delete_eq

lemma sameRows_update :
    SameRows s (execAll [.update t cond set] s) ↔
      ∀ r ∈ (s t).rows, cond r = true → Row.withId (Row.id r) (set r) = r := by
  rw [execAll_cons, execAll_nil, sameRows_exec]
  show ((Write.update t cond set).exec s t).rows = _ ↔ _
  rw [exec_update]
  exact Table.rows_update_eq

lemma rows_execAll_inserts {es : List (E t)} :
    (execAll (Write.inserts t es) s t).rows.length = (s t).rows.length + es.length := by
  induction es generalizing s with
  | nil => simp [Write.inserts]
  | cons e es ih =>
    rw [Write.inserts, List.map_cons, execAll_cons]
    rw [Write.inserts] at ih
    rw [ih, exec_insert]
    simp only [Table.insert, List.length_append, List.length_cons, List.length_nil]
    omega

lemma sameRows_inserts {es : List (E t)} :
    SameRows s (execAll (Write.inserts t es) s) ↔ es = [] := by
  constructor
  · intro h
    have hlength := congrArg List.length (h t)
    rw [rows_execAll_inserts] at hlength
    apply List.length_eq_zero_iff.mp
    omega
  · intro h
    rw [h]
    exact .rfl

end SameRows

instance {p : τ → Prop} : Std.Refl (AgreeOutside (E := E) p) := ⟨fun _ _ _ => rfl⟩

instance {p : τ → Prop} : IsTrans (Database E) (AgreeOutside p) :=
  ⟨fun _ _ _ h h' t ht => (h' t ht).trans (h t ht)⟩

namespace Action

/-! ### Relations kept by an action -/

section Keeps

variable {α β : Type} {R R' : Database E → Database E → Prop} {m : Action E α} {s : Database E}

/-- Run alone, `m` relates the database it finds to the one it leaves behind. -/
def Keeps (R : Database E → Database E → Prop) (m : Action E α) : Prop := Handler.Keeps R m.run

lemma Keeps.exec (h : Keeps R m) (s : Database E) : R s (m.run.exec s) := h s

lemma Keeps.of_exec (h : ∀ s, R s (m.run.exec s)) : Keeps R m := h

lemma Keeps.mono (h : Keeps R m) (hR : ∀ s s', R s s' → R' s s') : Keeps R' m :=
  fun s => hR _ _ (h s)

lemma Keeps.pure [Std.Refl R] (a : α) : Keeps R (pure a : Action E α) := Handler.Keeps.pure a

lemma Keeps.throw [Std.Refl R] (e : String) : Keeps R (.throw e : Action E α) :=
  Handler.Keeps.throw e

lemma Keeps.query [Std.Refl R] (f : Database E → α) : Keeps R (query f) :=
  fun s => Std.Refl.refl s

lemma Keeps.bind [IsTrans _ R] {f : α → Action E β} (hm : Keeps R m)
    (hf : ∀ a, Keeps R (f a)) : Keeps R (m >>= f) := by
  show Handler.Keeps R (m >>= f).run
  rw [run_bind]
  exact Handler.Keeps.bind hm hf

lemma Keeps.map [Std.Refl R] [IsTrans _ R] {f : α → β} (hm : Keeps R m) : Keeps R (f <$> m) :=
  hm.bind fun a => .pure (f a)

lemma Keeps.ite {c : Prop} [Decidable c] {m' : Action E α} (h : Keeps R m) (h' : Keeps R m') :
    Keeps R (if c then m else m') := by
  split
  · exact h
  · exact h'

lemma Keeps.forEach_mem [Std.Refl R] [IsTrans _ R] {f : α → Action E Unit} {as : List α}
    (hf : ∀ a ∈ as, Keeps R (f a)) : Keeps R (forEach f as) := by
  induction as with
  | nil => exact .pure ()
  | cons a as ih => exact (hf a (by simp)).bind fun _ => ih fun a' ha' => hf a' (by simp [ha'])

lemma Keeps.forEach [Std.Refl R] [IsTrans _ R] {f : α → Action E Unit}
    (hf : ∀ a, Keeps R (f a)) (as : List α) : Keeps R (forEach f as) :=
  .forEach_mem fun a _ => hf a

lemma Keeps.mapM [Std.Refl R] [IsTrans _ R] {f : α → Action E β} (hf : ∀ a, Keeps R (f a))
    (as : List α) : Keeps R (mapM f as) := by
  induction as with
  | nil => exact .pure []
  | cons a as ih => exact (hf a).bind fun b => ih.bind fun bs => .pure (b :: bs)

attribute [irreducible] Keeps

/-- Run alone, `m` leaves the tables that are not in `ts` as they are. -/
abbrev Within (ts : List τ) (m : Action E α) : Prop := Keeps (AgreeOutside (· ∈ ts)) m

lemma Within.mono {ts ts' : List τ} (h : Within ts m) (hts : ts ⊆ ts') : Within ts' m :=
  Keeps.mono h fun _ _ hag t ht => hag t fun hmem => ht (hts hmem)

lemma Within.eq (h : Within [] m) (s : Database E) : m.run.exec s = s :=
  funext fun t => h.exec s t (by simp)

/-- Run alone in `s`, `m` answers `a`. -/
def Answers (m : Action E α) (s : Database E) (a : α) : Prop := (m.run s).1 = .ok a

section Answers

variable {Q : α → Database E → Prop} {X : Database E → Prop} {a : α}

lemma Answers.of_wp (ha : Answers m s a) (h : wp m Q X s) : Q a (m.run.exec s) := by
  simp only [wp, Handler.wp, Answers, Handler.exec] at h ha ⊢
  cases hm : m.run s with
  | mk r s' =>
    rw [hm] at h ha
    cases ha
    exact h

/-- A read that answers goes on in the state it found. -/
lemma Within.wp_of_answers (h : Within [] m) (ha : Answers m s a) : wp m Q X s ↔ Q a s := by
  have heq := h.eq s
  simp only [wp, Handler.wp, Answers, Handler.exec] at heq ha ⊢
  cases hm : m.run s with
  | mk r s' =>
    rw [hm] at heq ha
    cases heq
    cases ha
    rfl

/-- A read that does not answer leaves the state it found. -/
lemma Within.wp_of_not_answers (h : Within [] m) (hno : ∀ a, ¬Answers m s a) :
    wp m Q X s ↔ X s := by
  have heq := h.eq s
  simp only [wp, Handler.wp, Answers, Handler.exec] at heq hno ⊢
  cases hm : m.run s with
  | mk r s' =>
    rw [hm] at heq hno
    cases heq
    cases r with
    | ok a => exact absurd rfl (hno a)
    | error e => rfl

end Answers

end Keeps

/-! ### Changes of a view -/

variable {α β V : Type} {frame : Database E → Prop} {view : Database E → V} {s : Database E}
  {m : Action E α} {ok ok' : Prop} {change change' : V → V}

/-- In every database of the frame, `m` ends normally just if `ok`, stays in the frame and
changes the view by `change`. -/
def Changes (frame : Database E → Prop) (view : Database E → V) (m : Action E α) (ok : Prop)
    (change : V → V) : Prop :=
  ∀ s, frame s → wp m (fun _ s' => ok ∧ frame s' ∧ view s' = change (view s))
    (fun s' => ¬ ok ∧ frame s' ∧ view s' = change (view s)) s

lemma Changes.pure (a : α) : Changes frame view (pure a) True id :=
  fun _ hs => ⟨trivial, hs, rfl⟩

lemma Changes.throw (e : String) : Changes frame view (.throw e : Action E α) False id :=
  fun _ hs => ⟨id, hs, rfl⟩

/-- The action answers `a` and changes nothing. -/
def Reads (frame : Database E → Prop) (m : Action E α) (a : α) : Prop :=
  ∀ s, frame s → wp m (fun b s' => b = a ∧ s' = s) (fun _ => False) s

/-- The action fails and changes nothing. -/
def Refuses (frame : Database E → Prop) (m : Action E α) : Prop :=
  ∀ s, frame s → wp m (fun _ _ => False) (fun s' => s' = s) s

lemma Reads.after {a : α} {f : α → Action E β} (h : Reads frame m a)
    (hf : Changes frame view (f a) ok change) : Changes frame view (m >>= f) ok change := by
  intro s hs
  rw [wp_bind]
  apply wp_mono (h s hs)
  · intro b s' hb
    rw [hb.1, hb.2]
    exact hf s hs
  · exact fun _ => False.elim

lemma Refuses.bind {f : α → Action E β} (h : Refuses frame m) : Refuses frame (m >>= f) := by
  intro s hs
  rw [wp_bind]
  exact wp_mono (h s hs) (fun _ _ => False.elim) fun _ => id

lemma Reads.bind {a : α} {b : β} {f : α → Action E β} (h : Reads frame m a)
    (hf : Reads frame (f a) b) : Reads frame (m >>= f) b := by
  intro s hs
  rw [wp_bind]
  apply wp_mono (h s hs)
  · intro b s' hb
    rw [hb.1, hb.2]
    exact hf s hs
  · exact fun _ => False.elim

lemma Reads.bind_refuses {a : α} {f : α → Action E β} (h : Reads frame m a)
    (hf : Refuses frame (f a)) : Refuses frame (m >>= f) := by
  intro s hs
  rw [wp_bind]
  apply wp_mono (h s hs)
  · intro b s' hb
    rw [hb.1, hb.2]
    exact hf s hs
  · exact fun _ => False.elim

lemma Refuses.changes (h : Refuses frame m) : Changes frame view m False id := by
  intro s hs
  apply wp_mono (h s hs)
  · exact fun _ _ => False.elim
  · intro s' heq
    rw [heq]
    exact ⟨id, hs, rfl⟩

/-- Run alone in `s`, the read `m` ends normally just if `found`, and then with a value that
meets `Q`. -/
def Gives (m : Action E α) (s : Database E) (found : Prop) (Q : α → Prop) : Prop :=
  wp m (fun a s' => (found ∧ Q a) ∧ s' = s) (fun s' => ¬ found ∧ s' = s) s

section Gives

variable {found found' : Prop} {Q Q' : α → Prop}

lemma Gives.pure {a : α} (h : Q a) : Gives (Pure.pure a) s True Q := ⟨⟨trivial, h⟩, rfl⟩

lemma Gives.throw {e : String} : Gives (.throw e : Action E α) s False Q := ⟨id, rfl⟩

lemma Gives.congr (h : Gives m s found Q) (hfound : found ↔ found')
    (hQ : ∀ a, found → Q a → Q' a) : Gives m s found' Q' := by
  apply wp_mono h
  · rintro a s' ⟨⟨hf, ha⟩, heq⟩
    exact ⟨⟨hfound.mp hf, hQ a hf ha⟩, heq⟩
  · rintro s' ⟨hf, heq⟩
    exact ⟨fun h => hf (hfound.mpr h), heq⟩

lemma Gives.bind {f : α → Action E β} {R : β → Prop} (h : Gives m s found Q)
    (hf : ∀ a, found → Q a → Gives (f a) s found' R) :
    Gives (m >>= f) s (found ∧ found') R := by
  rw [Gives, wp_bind]
  apply wp_mono h
  · rintro a s' ⟨⟨hfound, ha⟩, rfl⟩
    apply (hf a hfound ha).congr
    · exact ⟨fun h => ⟨hfound, h⟩, And.right⟩
    · exact fun _ _ => id
  · rintro s' ⟨hfound, heq⟩
    exact ⟨fun h => hfound h.1, heq⟩

/-- A loop of reads finds what it asks for just if each of them does. -/
lemma Gives.mapM {f : α → Action E β} {foundOf : α → Prop} {R : α → β → Prop} {as : List α}
    (h : ∀ a ∈ as, Gives (f a) s (foundOf a) (R a)) :
    Gives (mapM f as) s (∀ a ∈ as, foundOf a) fun bs => List.Forall₂ R as bs := by
  induction as with
  | nil => exact (Gives.pure .nil).congr (by simp) fun _ _ => id
  | cons a as ih =>
    have hrest := ih fun a' ha' => h a' (by simp [ha'])
    have hbind := (h a (by simp)).bind fun b _ hb =>
      hrest.bind fun bs _ hbs => Gives.pure (List.Forall₂.cons hb hbs)
    exact hbind.congr (by simp) fun _ _ => id

omit [(t : τ) → Row (E t)] [DecidableEq τ] in
lemma mem_flatten_of_forall₂ {P : α → β → Prop} {as : List α} {bs : List (List β)} {b : β}
    (h : List.Forall₂ (fun a l => ∀ b, b ∈ l ↔ P a b) as bs) :
    b ∈ bs.flatten ↔ ∃ a ∈ as, P a b := by
  induction h with
  | nil => simp
  | cons h _ ih => rw [List.flatten_cons, List.mem_append, h b, ih, List.exists_mem_cons_iff]

/-- What is collected by a loop. -/
lemma Gives.collect {f : α → Action E (List β)} {foundOf : α → Prop} {P : α → β → Prop}
    {as : List α} (h : ∀ a ∈ as, Gives (f a) s (foundOf a) fun l => ∀ b, b ∈ l ↔ P a b) :
    Gives (Action.mapM f as >>= fun bs => Pure.pure bs.flatten) s (∀ a ∈ as, foundOf a)
      fun l => ∀ b, b ∈ l ↔ ∃ a ∈ as, P a b := by
  have hbind := (Gives.mapM h).bind fun bs _ hbs =>
    Gives.pure (Q := fun l => ∀ b, b ∈ l ↔ ∃ a ∈ as, P a b) fun b => mem_flatten_of_forall₂ hbs
  exact hbind.congr (by simp) fun _ _ => id

lemma Gives.succeeds_iff (h : Gives m s found Q) : m.run.succeeds s = true ↔ found := by
  constructor
  · intro hok
    have hwp : wp m (fun _ _ => found) (fun _ => True) s :=
      wp_mono h (fun _ _ h => h.1.1) fun _ _ => trivial
    exact Handler.of_wp_of_succeeds hwp hok
  · intro hfound
    have hwp : wp m (fun _ _ => True) (fun _ => False) s :=
      wp_mono h (fun _ _ _ => trivial) fun _ h => h.1 hfound
    exact Handler.succeeds_of_wp hwp

end Gives

/-- What follows an action that ends normally. -/
lemma Changes.bind {f : α → Action E β} (h : Changes frame view m ok change) (hok : ok)
    (hf : ∀ a, Changes frame view (f a) ok' change') :
    Changes frame view (m >>= f) ok' (change' ∘ change) := by
  intro s hs
  rw [wp_bind]
  apply wp_mono (h s hs)
  · intro a s' h
    rw [Function.comp, ← h.2.2]
    exact hf a s' h.2.1
  · exact fun s' h => absurd hok h.1

/-- Nothing follows one that does not. -/
lemma Changes.bind_of_not {f : α → Action E β} (h : Changes frame view m ok change)
    (hok : ¬ ok) : Changes frame view (m >>= f) False change := by
  intro s hs
  rw [wp_bind]
  apply wp_mono (h s hs)
  · exact fun a s' h => absurd h.1 hok
  · exact fun s' h => ⟨id, h.2⟩

lemma Changes.congr (h : Changes frame view m ok change) (hok : ok ↔ ok')
    (hchange : ∀ v, change v = change' v) : Changes frame view m ok' change' := by
  intro s hs
  rw [← hchange]
  simpa only [hok] using h s hs

/-- The elements up to the first that does not meet `p`, and that one. -/
def upTo (p : α → Bool) : List α → List α
  | [] => []
  | a :: as => a :: if p a then upTo p as else []

omit [DecidableEq τ] in
lemma upTo_of_all {p : α → Bool} {as : List α} (h : ∀ a ∈ as, p a = true) : upTo p as = as := by
  induction as with
  | nil => rfl
  | cons a as ih =>
    rw [upTo, if_pos (h a (by simp)), ih fun a' ha' => h a' (by simp [ha'])]

omit [DecidableEq τ] in
lemma upTo_const {b : Bool} {as : List α} :
    upTo (fun _ => b) as = if b = true then as else as.take 1 := by
  cases b with
  | true => exact upTo_of_all fun _ _ => rfl
  | false => cases as <;> simp [upTo]

/-- A loop goes on up to the first element for which its body fails. -/
lemma Changes.forEach {f : α → Action E Unit} {okOf : α → Bool} {changeOf : α → V → V}
    {as : List α} (h : ∀ a ∈ as, Changes frame view (f a) (okOf a = true) (changeOf a)) :
    Changes frame view (forEach f as) (∀ a ∈ as, okOf a = true)
      (fun v => (upTo okOf as).foldl (fun v a => changeOf a v) v) := by
  induction as with
  | nil => exact (Changes.pure ()).congr (by simp) fun _ => rfl
  | cons a as ih =>
    have ha := h a (by simp)
    rw [Action.forEach]
    cases hok : okOf a with
    | false =>
      rw [hok] at ha
      apply (ha.bind_of_not (by simp)).congr (by simp [hok])
      intro v
      simp [upTo, hok]
    | true =>
      rw [hok] at ha
      apply (ha.bind rfl fun _ => ih fun a' ha' => h a' (by simp [ha'])).congr (by simp [hok])
      intro v
      simp [upTo, hok]

lemma Changes.succeeds_iff (h : Changes frame view m ok change) (hs : frame s) :
    m.run.succeeds s = true ↔ ok := by
  constructor
  · intro hok
    have hwp : wp m (fun _ _ => ok) (fun _ => True) s :=
      wp_mono (h s hs) (fun _ _ h => h.1) fun _ _ => trivial
    exact Handler.of_wp_of_succeeds hwp hok
  · intro hok
    have hwp : wp m (fun _ _ => True) (fun _ => False) s :=
      wp_mono (h s hs) (fun _ _ _ => trivial) fun _ h => h.1 hok
    exact Handler.succeeds_of_wp hwp

lemma Changes.exec (h : Changes frame view m ok change) (hs : frame s) :
    frame (m.run.exec s) ∧ view (m.run.exec s) = change (view s) := by
  apply (Action.wp_run m fun s' => frame s' ∧ view s' = change (view s)).mp
  exact wp_mono (h s hs) (fun _ _ h => h.2) fun _ h => h.2

end Action

end Relational
