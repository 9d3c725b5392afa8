import Mathlib.Tactic.Lemma

/-!
# Runs of a deterministic system

A system takes a step for each event. A condition on the steps of a run speaks of each event in
the state that it finds.
-/

namespace Actor

universe u v

variable {σ : Type u} {ε : Type v} {step : σ → ε → σ} {I : σ → Prop} {P Q : σ → ε → Prop} {s : σ}
  {events : List ε}

/-- `P` holds of every step of the run from `s`. -/
def EachStep (step : σ → ε → σ) (P : σ → ε → Prop) : σ → List ε → Prop
  | _, [] => True
  | s, e :: events => P s e ∧ EachStep step P (step s e) events

/-- What the steps keep holds at the end of the run. -/
lemma EachStep.invariant (hstep : ∀ s e, I s → P s e → I (step s e)) (hs : I s)
    (h : EachStep step P s events) : I (events.foldl step s) := by
  induction events generalizing s with
  | nil => exact hs
  | cons e events ih => exact ih (hstep s e hs h.1) h.2

/-- The condition holds of the last step. -/
lemma EachStep.last {e : ε} (h : EachStep step P s (events ++ [e])) :
    P (events.foldl step s) e := by
  induction events generalizing s with
  | nil => exact h.1
  | cons e' events ih => exact ih h.2

/-- What follows from the condition wherever the invariant holds follows along the run. -/
lemma EachStep.imp (himp : ∀ s e, I s → P s e → Q s e) (hstep : ∀ s e, I s → P s e → I (step s e))
    (hs : I s) (h : EachStep step P s events) : EachStep step Q s events := by
  induction events generalizing s with
  | nil => trivial
  | cons e events ih => exact ⟨himp s e hs h.1, ih (hstep s e hs h.1) h.2⟩

/-- If the steps that keep `T` are those that satisfy `P`, then `T` holds all along a run if and only if
all its steps satisfy `P`. The invariant `I` holds in any case. -/
lemma forall_prefix_iff {T : σ → Prop} (hI : ∀ s e, I s → Q s e → I (step s e))
    (hT : ∀ s e, I s → T s → Q s e → (T (step s e) ↔ P s e)) (hs : I s) (ht : T s)
    (h : EachStep step Q s events) :
    (∀ earlier, earlier <+: events → T (earlier.foldl step s)) ↔ EachStep step P s events := by
  induction events generalizing s with
  | nil =>
    refine ⟨fun _ => trivial, fun _ earlier hearlier => ?_⟩
    rw [List.prefix_nil.mp hearlier]
    exact ht
  | cons e events ih =>
    have hnext := hT s e hs ht h.1
    constructor
    · intro hall
      have ht' : T (step s e) := hall [e] (List.prefix_append [e] events)
      refine ⟨hnext.mp ht', (ih (hI s e hs h.1) ht' h.2).mp fun earlier hearlier => ?_⟩
      exact hall (e :: earlier) (List.cons_prefix_cons.mpr ⟨rfl, hearlier⟩)
    · intro hP earlier hearlier
      cases earlier with
      | nil => exact ht
      | cons e' earlier =>
        obtain ⟨he, htail⟩ := List.cons_prefix_cons.mp hearlier
        subst he
        exact (ih (hI s e' hs h.1) (hnext.mpr hP.1) h.2).mpr hP.2 earlier htail

/-- Two conditions that agree wherever the invariant holds hold of the same runs. The invariant
may rest on the condition for the steps before. -/
lemma eachStep_iff (hiff : ∀ s e, I s → (P s e ↔ Q s e))
    (hstep : ∀ s e, I s → Q s e → I (step s e)) (hs : I s) :
    EachStep step P s events ↔ EachStep step Q s events := by
  induction events generalizing s with
  | nil => exact Iff.rfl
  | cons e events ih =>
    constructor
    · intro h
      have hQ := (hiff s e hs).mp h.1
      exact ⟨hQ, (ih (hstep s e hs hQ)).mp h.2⟩
    · intro h
      exact ⟨(hiff s e hs).mpr h.1, (ih (hstep s e hs h.1)).mpr h.2⟩

end Actor
