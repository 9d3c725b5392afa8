import Mathlib.Logic.Relation
import Mathlib.Tactic.Lemma

/-!
# Runs and invariants

A system is a step relation over its states and its runs are the reflexive transitive closure.
A condition on steps restricts a system to the runs all of whose steps meet it.
-/

namespace Actor

open Relation

variable {σ : Type} {step : σ → σ → Prop} {I : σ → Prop} {s s' : σ}

/-- What holds at the start and is kept by every step holds at every state reached. -/
lemma invariant_of_run (h : ReflTransGen step s s') (hstep : ∀ s s', step s s' → I s → I s')
    (hs : I s) : I s' := by
  induction h with
  | refl => exact hs
  | tail _ hlast ih => exact hstep _ _ hlast ih

end Actor
