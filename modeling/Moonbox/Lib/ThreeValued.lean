import Mathlib.Tactic.Lemma

/-!
# Three-valued logic

`none` is the unknown truth of SQL. Where a condition is kept if it is true, its negation is kept
if it is false, so that for a negated condition it matters where it is not false.
-/

namespace ThreeValued

abbrev Truth := Option Bool

namespace Truth

variable {s t : Truth}

def not (t : Truth) : Truth := t.map (!·)

def and : Truth → Truth → Truth
  | some false, _ => some false
  | _, some false => some false
  | some true, some true => some true
  | _, _ => none

def or (s t : Truth) : Truth := (s.not.and t.not).not

/-- True, or for a negated condition not false -/
def Stands (negated : Bool) (t : Truth) : Prop :=
  if negated then t ≠ some false else t = some true

@[simp] lemma stands_false : Stands false t ↔ t = some true := Iff.rfl

@[simp] lemma stands_true : Stands true t ↔ t ≠ some false := Iff.rfl

instance (negated : Bool) (t : Truth) : Decidable (Stands negated t) := by
  cases negated <;> unfold Stands <;> infer_instance

lemma stands_and (negated : Bool) :
    Stands negated (s.and t) ↔ Stands negated s ∧ Stands negated t := by
  rcases s with - | - | - <;> rcases t with - | - | - <;> cases negated <;> decide

lemma stands_or (negated : Bool) :
    Stands negated (s.or t) ↔ Stands negated s ∨ Stands negated t := by
  rcases s with - | - | - <;> rcases t with - | - | - <;> cases negated <;> decide

lemma stands_not (negated : Bool) : Stands negated t.not ↔ ¬Stands (!negated) t := by
  rcases t with - | - | - <;> cases negated <;> decide

/-- A truth that is known stands or does not, negated or not. -/
lemma stands_some (negated b : Bool) : Stands negated (some b) ↔ b = true := by
  cases negated <;> cases b <;> decide

lemma and_eq_true : s.and t = some true ↔ s = some true ∧ t = some true := stands_and false

end Truth

end ThreeValued
