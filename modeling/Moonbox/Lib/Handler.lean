import Mathlib.Logic.Relation
import Mathlib.Tactic.Lemma

/-!
# Message handlers

A handler is a state transformer that may stop with an exception. Unlike a transaction it is
not rolled back: what it changed before the exception stays changed. The rules below are those of
a weakest precondition with one postcondition for the normal and one for the exceptional exit,
and of relations that hold between the first and the last state whatever the exit.
-/

namespace Actor

/-- A handler over the state `σ` that answers an `α`. -/
def Handler (σ α : Type) := σ → Except String α × σ

namespace Handler

variable {σ α β : Type}

instance : Monad (Handler σ) where
  pure a := fun s => (.ok a, s)
  bind m f := fun s =>
    match m s with
    | (.ok a, s') => f a s'
    | (.error e, s') => (.error e, s')

def get : Handler σ σ := fun s => (.ok s, s)

def modify (f : σ → σ) : Handler σ Unit := fun s => (.ok (), f s)

def throw (e : String) : Handler σ α := fun s => (.error e, s)

/-- Catching an exception keeps the changes of the part that threw it. -/
def tryCatch (m : Handler σ α) (h : String → Handler σ α) : Handler σ α := fun s =>
  match m s with
  | (.ok a, s') => (.ok a, s')
  | (.error e, s') => h e s'

def forEach (f : α → Handler σ Unit) : List α → Handler σ Unit
  | [] => pure ()
  | a :: as => do
    f a
    forEach f as

/-- The state a handler leaves behind, by either exit. -/
def exec (m : Handler σ α) (s : σ) : σ := (m s).2

/-- Whether the handler ends without an exception. -/
def succeeds (m : Handler σ α) (s : σ) : Bool :=
  match (m s).1 with
  | .ok _ => true
  | .error _ => false

/-! ### Weakest preconditions -/

/-- From `s`, `m` ends normally in `Q` or exceptionally in `E`. -/
def wp (m : Handler σ α) (Q : α → σ → Prop) (E : σ → Prop) (s : σ) : Prop :=
  match m s with
  | (.ok a, s') => Q a s'
  | (.error _, s') => E s'

variable {Q Q' : α → σ → Prop} {E E' : σ → Prop} {s : σ}

@[simp] lemma wp_pure (a : α) : wp (pure a : Handler σ α) Q E s ↔ Q a s := Iff.rfl

@[simp] lemma wp_bind (m : Handler σ α) (f : α → Handler σ β) {Q : β → σ → Prop} :
    wp (m >>= f) Q E s ↔ wp m (fun a s' => wp (f a) Q E s') E s := by
  simp only [wp, Bind.bind]
  cases h : m s with
  | mk r s' => cases r <;> rfl

@[simp] lemma wp_get {Q : σ → σ → Prop} : wp get Q E s ↔ Q s s := Iff.rfl

@[simp] lemma wp_modify (f : σ → σ) {Q : Unit → σ → Prop} : wp (modify f) Q E s ↔ Q () (f s) :=
  Iff.rfl

@[simp] lemma wp_throw (e : String) : wp (throw e : Handler σ α) Q E s ↔ E s := Iff.rfl

@[simp] lemma wp_tryCatch (m : Handler σ α) (h : String → Handler σ α) :
    wp (tryCatch m h) Q E s ↔
      match m s with
      | (.ok a, s') => Q a s'
      | (.error e, s') => wp (h e) Q E s' := by
  simp only [wp, tryCatch]
  cases h : m s with
  | mk r s' => cases r <;> rfl

/-- A handler whose catch clause ignores the exception. -/
lemma wp_tryCatch_of (m : Handler σ α) (h : String → Handler σ α)
    (hm : wp m Q (fun s' => ∀ e, wp (h e) Q E s') s) : wp (tryCatch m h) Q E s := by
  rw [wp_tryCatch]
  simp only [wp] at hm
  split at hm <;> simp_all [wp]

@[simp] lemma wp_ite (c : Prop) [Decidable c] (m m' : Handler σ α) :
    wp (if c then m else m') Q E s ↔ if c then wp m Q E s else wp m' Q E s := by
  split <;> rfl

lemma wp_mono {m : Handler σ α} (h : wp m Q E s) (hQ : ∀ a s', Q a s' → Q' a s')
    (hE : ∀ s', E s' → E' s') : wp m Q' E' s := by
  simp only [wp] at h ⊢
  split
  · rename_i a s' he
    rw [he] at h
    exact hQ a s' h
  · rename_i e s' he
    rw [he] at h
    exact hE s' h

/-- The loop rule: `I` speaks about the elements still to come. -/
lemma wp_forEach {f : α → Handler σ Unit} {I : List α → σ → Prop} {Q : Unit → σ → Prop}
    (step : ∀ a as s, I (a :: as) s → wp (f a) (fun _ => I as) E s) (done : ∀ s, I [] s → Q () s) :
    ∀ (as : List α) (s : σ), I as s → wp (forEach f as) Q E s
  | [], s, h => done s h
  | a :: as, s, h => by
    rw [forEach, wp_bind]
    refine wp_mono (step a as s h) (fun _ s' h' => ?_) (fun _ h' => h')
    exact wp_forEach step done as s' h'

lemma wp_and {m : Handler σ α} (h : wp m Q E s) (h' : wp m Q' E' s) :
    wp m (fun a s' => Q a s' ∧ Q' a s') (fun s' => E s' ∧ E' s') s := by
  simp only [wp] at h h' ⊢
  split <;> simp_all

/-- A condition on both exits is a condition on the state left behind. -/
lemma wp_exec (m : Handler σ α) (P : σ → Prop) : wp m (fun _ => P) P s ↔ P (m.exec s) := by
  simp only [wp, exec]
  cases h : m s with
  | mk r s' => cases r <;> rfl

lemma wp_true (m : Handler σ α) (s : σ) : wp m (fun _ _ => True) (fun _ => True) s :=
  (wp_exec m fun _ => True).mpr trivial

lemma succeeds_of_wp {m : Handler σ α} (h : wp m Q (fun _ => False) s) : m.succeeds s = true := by
  simp only [wp, succeeds] at h ⊢
  cases hm : m s with
  | mk r s' => cases r <;> simp_all

lemma of_wp_of_succeeds {m : Handler σ α} {P : σ → Prop} (h : wp m (fun _ => P) E s)
    (hs : m.succeeds s = true) : P (m.exec s) := by
  simp only [wp, succeeds, exec] at h hs ⊢
  cases hm : m s with
  | mk r s' => cases r <;> simp_all

lemma of_wp_of_fails {m : Handler σ α} {P : σ → Prop} (h : wp m Q P s)
    (hs : m.succeeds s = false) : P (m.exec s) := by
  simp only [wp, succeeds, exec] at h hs ⊢
  cases hm : m s with
  | mk r s' => cases r <;> simp_all

lemma succeeds_iff_of_wp {m : Handler σ α} {P : Prop} (h : wp m (fun _ _ => P) (fun _ => ¬P) s) :
    m.succeeds s = true ↔ P := by
  simp only [wp, succeeds] at h ⊢
  cases hm : m s with
  | mk r s' => cases r <;> simp_all

/-! ### Relations kept by a handler -/

/-- `m` relates the state it starts in to the state it leaves behind. -/
def Keeps (R : σ → σ → Prop) (m : Handler σ α) : Prop := ∀ s, R s (m.exec s)

lemma Keeps.wp {R : σ → σ → Prop} {m : Handler σ α} (h : Keeps R m) (s : σ) :
    wp m (fun _ => R s) (R s) s := (wp_exec m (R s)).mpr (h s)

variable {R : σ → σ → Prop}

lemma Keeps.pure [Std.Refl R] (a : α) : Keeps R (pure a : Handler σ α) :=
  fun s => Std.Refl.refl s

lemma Keeps.get [Std.Refl R] : Keeps R (get : Handler σ σ) := fun s => Std.Refl.refl s

lemma Keeps.throw [Std.Refl R] (e : String) : Keeps R (throw e : Handler σ α) :=
  fun s => Std.Refl.refl s

lemma Keeps.modify {f : σ → σ} (h : ∀ s, R s (f s)) : Keeps R (modify f) := h

lemma Keeps.bind [IsTrans σ R] {m : Handler σ α} {f : α → Handler σ β} (hm : Keeps R m)
    (hf : ∀ a, Keeps R (f a)) : Keeps R (m >>= f) := by
  intro s
  have h := hm s
  simp only [exec, Bind.bind] at h ⊢
  cases he : m s with
  | mk r s' =>
    rw [he] at h
    cases r with
    | ok a => exact IsTrans.trans _ _ _ h (hf a s')
    | error e => exact h

lemma Keeps.forEach [Std.Refl R] [IsTrans σ R] {f : α → Handler σ Unit} (hf : ∀ a, Keeps R (f a)) :
    ∀ as, Keeps R (forEach f as)
  | [] => Keeps.pure ()
  | a :: as => (hf a).bind fun _ => Keeps.forEach hf as

lemma Keeps.tryCatch [IsTrans σ R] {m : Handler σ α} {h : String → Handler σ α} (hm : Keeps R m)
    (hh : ∀ e, Keeps R (h e)) : Keeps R (tryCatch m h) := by
  intro s
  have h' := hm s
  simp only [exec, Handler.tryCatch] at h' ⊢
  cases he : m s with
  | mk r s' =>
    rw [he] at h'
    cases r with
    | ok a => exact h'
    | error e => exact IsTrans.trans _ _ _ h' (hh e s')

lemma Keeps.ite {c : Prop} [Decidable c] {m m' : Handler σ α} (h : Keeps R m) (h' : Keeps R m') :
    Keeps R (if c then m else m') := by
  split
  · exact h
  · exact h'

end Handler

end Actor
