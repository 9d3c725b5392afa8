import Mathlib.Data.Set.Finite.Basic
import Mathlib.Logic.Relation
import Mathlib.Order.WellFoundedSet
import Mathlib.Tactic.Lemma

/-!
# Graphs whose nodes are redefined

A graph in which one node after the other gets new successors. It stays without cycles as long as
no new successor of a node leads back to it.
-/

namespace Graph

open Relation

variable {α : Type} {r r' : α → α → Prop} {k : α}

def Acyclic (r : α → α → Prop) : Prop := ∀ a, ¬ TransGen r a a

lemma Acyclic.mono (h : Acyclic r) (hsub : ∀ a b, r' a b → r a b) : Acyclic r' :=
  fun a ha => h a (TransGen.mono hsub a a ha)

/-- A way to `k` leaves `k` only at its end, or a shorter one does. -/
lemma reaches_of_redefined (hsame : ∀ a, a ≠ k → ∀ b, r' a b → r a b) {a : α}
    (h : ReflTransGen r' a k) : ReflTransGen r a k := by
  induction h using ReflTransGen.head_induction_on with
  | refl => exact .refl
  | @head a b hab _ ih =>
    by_cases ha : a = k
    · subst ha
      exact .refl
    · exact ih.head (hsame a ha b hab)

/-- A way that leaves `k` nowhere was there before. -/
lemma transGen_or_through (hsame : ∀ a, a ≠ k → ∀ b, r' a b → r a b) {a c : α}
    (h : TransGen r' a c) : TransGen r a c ∨ ReflTransGen r' a k ∧ TransGen r' k c := by
  induction h using TransGen.head_induction_on with
  | @single a hac =>
    by_cases ha : a = k
    · subst ha
      exact .inr ⟨.refl, .single hac⟩
    · exact .inl (.single (hsame a ha c hac))
  | @head a b hab hbc ih =>
    by_cases ha : a = k
    · subst ha
      exact .inr ⟨.refl, .head hab hbc⟩
    · rcases ih with h | ⟨hbk, hkc⟩
      · exact .inl (.head (hsame a ha b hab) h)
      · exact .inr ⟨.head hab hbk, hkc⟩

/-- Redefining `k` closes no cycle if no new successor leads to `k`. -/
lemma Acyclic.redefine (h : Acyclic r) (hsame : ∀ a, a ≠ k → ∀ b, r' a b → r a b)
    (hnew : ∀ b, r' k b → ¬ ReflTransGen r b k) : Acyclic r' := by
  have hk : ¬ TransGen r' k k := by
    intro hcycle
    obtain ⟨b, hkb, hbk⟩ := TransGen.head'_iff.mp hcycle
    exact hnew b hkb (reaches_of_redefined hsame hbk)
  intro a ha
  rcases transGen_or_through hsame ha with hold | ⟨hak, hka⟩
  · exact h a hold
  · exact hk (TransGen.trans_left hka hak)

/-- Without cycles and with finitely many nodes that have successors every way ends. -/
lemma Acyclic.wellFounded (h : Acyclic r) (hfin : {a | ∃ b, r a b}.Finite) :
    WellFounded (flip r) := by
  have : IsStrictOrder α (flip (TransGen r)) :=
    { irrefl := h
      trans := fun _ _ _ hab hbc => TransGen.trans hbc hab }
  have hleaf : ∀ a, (¬ ∃ b, r a b) → Acc (flip r) a :=
    fun a ha => ⟨a, fun b hab => absurd ⟨b, hab⟩ ha⟩
  refine ⟨fun a => ?_⟩
  by_cases ha : ∃ b, r a b
  · refine (hfin.wellFoundedOn (r := flip (TransGen r))).induction ha fun b _ ih => ⟨b, ?_⟩
    intro c hbc
    by_cases hc : ∃ d, r c d
    · exact ih c hc (.single hbc)
    · exact hleaf c hc
  · exact hleaf a ha

end Graph
