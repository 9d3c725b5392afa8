import Moonbox.Lib.Relational

/-!
# How actions end

The exception an action raises, and what is there when a call returns while an action that it has
started still runs.
-/

namespace Relational.Action

variable {τ : Type} {E : τ → Type} [∀ t, Row (E t)] [DecidableEq τ] {α β : Type}
  {s s' : Database E}

/-- The rule for the `pure` of the monad. -/
@[simp] lemma wp_purely (a : α) {Q : α → Database E → Prop} {X : Database E → Prop} :
    wp (Pure.pure a : Action E α) Q X s ↔ Q a s := Iff.rfl

/-- A loop of rounds that each either go through or change nothing and stop it. -/
lemma wp_rounds {f : α → Action E Unit} {ok : α → Bool} {next : Database E → α → Database E}
    {I : Database E → Prop} {Q : Unit → Database E → Prop} {X : Database E → Prop}
    (hround : ∀ a s, I s → ∀ Q : Unit → Database E → Prop,
      wp (f a) Q X s ↔ if ok a then Q () (next s a) else X s)
    (hnext : ∀ s a, I s → I (next s a)) (hs : I s) (as : List α) :
    wp (forEach f as) Q X s ↔
      if as.all ok then Q () (as.foldl next s) else X ((as.takeWhile ok).foldl next s) := by
  induction as generalizing s with
  | nil => rfl
  | cons a as ih =>
    rw [forEach, wp_bind, hround a s hs]
    cases hok : ok a with
    | true => simpa [hok] using ih (hnext s a hs)
    | false => simp [hok]

/-! ### Exceptions -/

/-- From `s`, `m` ends with the exception `e`. -/
def Raises (m : Action E α) (s : Database E) (e : String) : Prop := (m.run s).1 = .error e

variable {e : String}

@[simp] lemma raises_pure (a : α) : Raises (Pure.pure a : Action E α) s e ↔ False := by
  show Except.ok a = .error e ↔ False
  simp

@[simp] lemma raises_throw (e' : String) : Raises (.throw e' : Action E α) s e ↔ e' = e := by
  show (Except.error e' : Except String α) = .error e ↔ _
  rw [Except.error.injEq]

@[simp] lemma raises_ite (c : Prop) [Decidable c] (m m' : Action E α) :
    Raises (if c then m else m') s e ↔ if c then Raises m s e else Raises m' s e := by
  split <;> rfl

lemma raises_bind (m : Action E α) (f : α → Action E β) :
    Raises (m >>= f) s e ↔
      Raises m s e ∨ wp m (fun a s' => Raises (f a) s' e) (fun _ => False) s := by
  rw [Raises, run_bind]
  simp only [Raises, wp, Actor.Handler.wp, Bind.bind]
  cases h : m.run s with
  | mk r s' => cases r <;> simp

/-- A query raises nothing itself. -/
lemma raises_query_bind (f : Database E → α) (g : α → Action E β) :
    Raises (query f >>= g) s e ↔ Raises (g (f s)) s e := Iff.rfl

section Writes

variable {t : τ} {r : E t} {es : List (E t)} {cond : E t → Bool} {set : E t → E t}

@[simp] lemma not_raises_insert : ¬Raises (insert t r) s e := by
  simp [Raises, insert, run]

@[simp] lemma not_raises_insertMultiple : ¬Raises (insertMultiple t es) s e := by
  simp [Raises, insertMultiple, run]

@[simp] lemma not_raises_delete : ¬Raises (delete t cond) s e := by
  simp [Raises, delete, run]

@[simp] lemma not_raises_update : ¬Raises (update t cond set) s e := by
  simp [Raises, update, run]

end Writes

lemma raises_transactionally (m : Action E α) : Raises m.transactionally s e ↔ Raises m s e := by
  simp only [Raises, transactionally, run]
  cases h : m.outcome s with
  | ok r =>
    obtain ⟨a, ws⟩ := r
    rw [run_of_outcome h]
    rfl
  | error e' =>
    rw [run_of_outcome_error h]
    rfl

/-- A loop raises what one of its rounds raises. -/
lemma Raises.of_forEach {f : α → Action E Unit} {as : List α} (h : Raises (forEach f as) s e) :
    ∃ a ∈ as, ∃ s', Raises (f a) s' e := by
  induction as generalizing s with
  | nil => exact ((raises_pure ()).mp h).elim
  | cons a as ih =>
    rcases (raises_bind _ _).mp h with hfirst | hrest
    · exact ⟨a, List.mem_cons_self, s, hfirst⟩
    · simp only [wp, Actor.Handler.wp] at hrest
      split at hrest
      · obtain ⟨a', ha', s', hraises⟩ := ih hrest
        exact ⟨a', List.mem_cons_of_mem a ha', s', hraises⟩
      · exact hrest.elim

lemma Raises.of_mapM {f : α → Action E β} {as : List α} (h : Raises (mapM f as) s e) :
    ∃ a ∈ as, ∃ s', Raises (f a) s' e := by
  induction as generalizing s with
  | nil => exact ((raises_pure []).mp h).elim
  | cons a as ih =>
    rcases (raises_bind _ _).mp h with hfirst | hrest
    · exact ⟨a, List.mem_cons_self, s, hfirst⟩
    · simp only [wp, Actor.Handler.wp] at hrest
      split at hrest
      · rcases (raises_bind _ _).mp hrest with hothers | hlast
        · obtain ⟨a', ha', s', hraises⟩ := ih hothers
          exact ⟨a', List.mem_cons_of_mem a ha', s', hraises⟩
        · simp only [wp, Actor.Handler.wp] at hlast
          split at hlast <;> cases hlast
      · exact hrest.elim

/-! ### Actions that are started only -/

/-- The states `m` passes when it runs from `s`, the first and the last among them. -/
inductive Passes : Action E α → Database E → Database E → Prop
  | here (m : Action E α) (s : Database E) : Passes m s s
  | there {writes : Database E → List (Write E)} {next : Database E → Action E α}
    {s s' : Database E} (h : Passes (next s) (execAll (writes s) s) s') :
    Passes (.step writes next) s s'

@[simp] lemma passes_pure (a : α) : Passes (Pure.pure a : Action E α) s s' ↔ s' = s := by
  constructor
  · rintro ⟨⟩
    rfl
  · rintro rfl
    exact .here _ _

@[simp] lemma passes_throw (e : String) : Passes (.throw e : Action E α) s s' ↔ s' = s := by
  constructor
  · rintro ⟨⟩
    rfl
  · rintro rfl
    exact .here _ _

/-- A query leaves the state to what comes after it. -/
lemma passes_query_bind (f : Database E → β) (g : β → Action E α) :
    Passes (query f >>= g) s s' ↔ Passes (g (f s)) s s' := by
  constructor
  · rintro (_ | h)
    · exact .here _ _
    · exact h
  · exact fun h => .there h

/-- When the call returns, what it has started has come to any state that it passes. -/
def wpCall (m : Action E (Action E Unit)) (Q X : Database E → Prop) (s : Database E) : Prop :=
  wp m (fun started s' => ∀ s'', Passes started s' s'' → Q s'') X s

/-- A call that waits for all it does. -/
def awaited (m : Action E α) : Action E (Action E Unit) := do
  let _ ← m
  Pure.pure (Pure.pure ())

@[simp] lemma wpCall_awaited (m : Action E α) {Q X : Database E → Prop} :
    wpCall (awaited m) Q X s ↔ wp m (fun _ => Q) X s := by
  simp [wpCall, awaited]

end Relational.Action
