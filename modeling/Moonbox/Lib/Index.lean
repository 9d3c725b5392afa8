import Mathlib.Logic.Function.Basic
import Mathlib.Tactic.Lemma

/-!
# Indexes

A lookup table indexes a set of members by a key when it sends every key to the member that has
it, and to nothing if there is none. Then keys are unique among the members, and the table
stays an index when a member enters under a new key or leaves.
-/

namespace Actor

variable {κ α : Type} [DecidableEq κ]

/-- `index` finds exactly the `members`, each under its `key`. -/
def Indexes (index : κ → Option α) (members : α → Prop) (key : α → κ) : Prop :=
  ∀ k a, index k = some a ↔ members a ∧ key a = k

namespace Indexes

variable {index : κ → Option α} {members members' : α → Prop} {key key' : α → κ}

omit [DecidableEq κ] in
lemma empty (h : ∀ a, ¬ members a) : Indexes (fun _ => none) members key := by
  intro k a
  simp [h a]

omit [DecidableEq κ] in
lemma congr (h : Indexes index members key) (hm : ∀ a, members' a ↔ members a)
    (hk : ∀ a, members a → key' a = key a) : Indexes index members' key' := by
  intro k a
  rw [h k a, hm a]
  constructor
  · rintro ⟨ha, rfl⟩
    exact ⟨ha, hk a ha⟩
  · rintro ⟨ha, rfl⟩
    exact ⟨ha, (hk a ha).symm⟩

omit [DecidableEq κ] in
lemma lookup (h : Indexes index members key) {a : α} (ha : members a) :
    index (key a) = some a := (h _ a).mpr ⟨ha, rfl⟩

omit [DecidableEq κ] in
lemma key_injective (h : Indexes index members key) {a b : α} (ha : members a) (hb : members b)
    (he : key a = key b) : a = b := by
  have h' := h.lookup ha
  rw [he, h.lookup hb] at h'
  exact (Option.some.inj h').symm

omit [DecidableEq κ] in
/-- No two keys find the same member. -/
lemma injective (h : Indexes index members key) {k k' : κ} {a : α} (hk : index k = some a)
    (hk' : index k' = some a) : k = k' :=
  ((h k a).mp hk).2.symm.trans ((h k' a).mp hk').2

omit [DecidableEq κ] in
lemma range (h : Indexes index members key) (a : α) : (∃ k, index k = some a) ↔ members a := by
  constructor
  · rintro ⟨k, hk⟩
    exact ((h k a).mp hk).1
  · intro ha
    exact ⟨key a, h.lookup ha⟩

lemma erase (h : Indexes index members key) {a : α} (ha : members a) :
    Indexes (Function.update index (key a) none) (fun b => members b ∧ b ≠ a) key := by
  intro k b
  rw [Function.update_apply]
  split
  · rename_i hk
    constructor
    · intro hc
      cases hc
    · rintro ⟨⟨hb, hne⟩, hkb⟩
      exact absurd (h.key_injective hb ha (hkb.trans hk)) hne
  · rename_i hk
    rw [h k b]
    constructor
    · rintro ⟨hb, rfl⟩
      exact ⟨⟨hb, fun he => hk (he ▸ rfl)⟩, rfl⟩
    · rintro ⟨⟨hb, _⟩, hkb⟩
      exact ⟨hb, hkb⟩

lemma insert (h : Indexes index members key) {a : α} (hk : index (key a) = none) :
    Indexes (Function.update index (key a) (some a)) (fun b => members b ∨ b = a) key := by
  intro k b
  rw [Function.update_apply]
  split
  · rename_i he
    subst he
    constructor
    · intro hb
      cases hb
      exact ⟨Or.inr rfl, rfl⟩
    · rintro ⟨hb | rfl, hkb⟩
      · rw [← hkb, h.lookup hb] at hk
        cases hk
      · rfl
  · rename_i hne
    rw [h k b]
    constructor
    · rintro ⟨hb, rfl⟩
      exact ⟨Or.inl hb, rfl⟩
    · rintro ⟨hb | rfl, hkb⟩
      · exact ⟨hb, hkb⟩
      · exact absurd hkb.symm hne

end Indexes

end Actor
