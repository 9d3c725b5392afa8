import Mathlib.Data.List.Basic
import Mathlib.Data.List.Nodup
import Mathlib.Tactic.Lemma

/-!
# Names under a collation

A collation takes different names for the same. A name is added to a list only if the list has no
name that is the same, and a name that is removed takes all that are the same with it.
-/

namespace Collation

universe u

variable {α : Type u} (same : α → α → Bool) {l as bs : List α} {a b : α}

def addNew (l : List α) (a : α) : List α := if l.any (same · a) then l else l ++ [a]

def addAllNew (l as : List α) : List α := as.foldl (addNew same) l

def removeAll (l as : List α) : List α := l.filter fun n => !as.any (same n)

variable {same}

@[simp] lemma addAllNew_nil : addAllNew same l [] = l := rfl

@[simp] lemma addAllNew_cons : addAllNew same l (a :: as) = addAllNew same (addNew same l a) as :=
  rfl

lemma mem_addNew_of_mem (h : b ∈ l) : b ∈ addNew same l a := by
  unfold addNew
  split
  · exact h
  · exact List.mem_append_left _ h

lemma mem_addNew (h : b ∈ addNew same l a) : b ∈ l ∨ b = a := by
  unfold addNew at h
  split at h
  · exact .inl h
  · simpa using h

lemma mem_addAllNew_of_mem (h : b ∈ l) : b ∈ addAllNew same l as := by
  induction as generalizing l with
  | nil => exact h
  | cons a as ih => exact ih (mem_addNew_of_mem h)

lemma mem_addAllNew (h : b ∈ addAllNew same l as) : b ∈ l ∨ b ∈ as := by
  induction as generalizing l with
  | nil => exact .inl h
  | cons a as ih =>
    rcases ih h with hl | has
    · rcases mem_addNew hl with hl | rfl
      · exact .inl hl
      · exact .inr List.mem_cons_self
    · exact .inr (List.mem_cons_of_mem a has)

/-- After it a list has every name that was to be added, or one that is the same. -/
lemma exists_same_of_mem (hrefl : ∀ a, same a a = true) (h : a ∈ as) :
    ∃ n ∈ addAllNew same l as, same n a = true := by
  induction as generalizing l with
  | nil => cases h
  | cons b as ih =>
    rcases List.mem_cons.mp h with rfl | h
    · have hsame : ∃ n ∈ addNew same l a, same n a = true := by
        unfold addNew
        split
        · rename_i hany
          exact List.any_eq_true.mp hany
        · exact ⟨a, List.mem_append_right _ List.mem_cons_self, hrefl a⟩
      obtain ⟨n, hn, hna⟩ := hsame
      rw [addAllNew_cons]
      exact ⟨n, mem_addAllNew_of_mem hn, hna⟩
    · exact ih h

/-- Two names of the list that are the same were there before. -/
lemma eq_or_mem_of_same (hsymm : ∀ a b, same a b = true → same b a = true) {x y : α}
    (hx : x ∈ addAllNew same l as) (hy : y ∈ addAllNew same l as) (h : same x y = true) :
    x = y ∨ x ∈ l ∧ y ∈ l := by
  induction as generalizing l with
  | nil => exact .inr ⟨hx, hy⟩
  | cons a as ih =>
    rcases ih hx hy with heq | ⟨hx', hy'⟩
    · exact .inl heq
    · unfold addNew at hx' hy'
      split at hx'
      · rename_i hany
        rw [if_pos hany] at hy'
        exact .inr ⟨hx', hy'⟩
      · rename_i hany
        rw [if_neg hany] at hy'
        have hnone : ∀ n ∈ l, same n a ≠ true := fun n hn hna =>
          hany (List.any_eq_true.mpr ⟨n, hn, hna⟩)
        simp only [List.mem_append, List.mem_singleton] at hx' hy'
        rcases hx' with hx' | rfl <;> rcases hy' with hy' | rfl
        · exact .inr ⟨hx', hy'⟩
        · exact absurd h (hnone x hx')
        · exact absurd (hsymm _ _ h) (hnone y hy')
        · exact .inl rfl

lemma nodup_addAllNew (hrefl : ∀ a, same a a = true) (hl : l.Nodup) :
    (addAllNew same l as).Nodup := by
  induction as generalizing l with
  | nil => exact hl
  | cons a as ih =>
    apply ih
    unfold addNew
    split
    · exact hl
    · rename_i hany
      rw [List.nodup_append]
      refine ⟨hl, List.nodup_singleton a, fun x hx y hy => ?_⟩
      rintro rfl
      obtain rfl := List.mem_singleton.mp hy
      exact hany (List.any_eq_true.mpr ⟨x, hx, hrefl x⟩)

/-- The names of the list are the given ones, each once. -/
def IsExactly (l as : List α) : Prop := l.Nodup ∧ ∀ a, a ∈ l ↔ a ∈ as

@[simp] lemma isExactly_nil_iff : IsExactly l [] ↔ l = [] := by
  constructor
  · rintro ⟨-, hmem⟩
    exact List.eq_nil_iff_forall_not_mem.mpr fun a ha => List.not_mem_nil ((hmem a).mp ha)
  · rintro rfl
    exact ⟨List.nodup_nil, fun _ => Iff.rfl⟩

@[simp] lemma isExactly_nil_left_iff : IsExactly [] as ↔ as = [] := by
  constructor
  · rintro ⟨-, hmem⟩
    exact List.eq_nil_iff_forall_not_mem.mpr fun a ha => List.not_mem_nil ((hmem a).mpr ha)
  · rintro rfl
    exact ⟨List.nodup_nil, fun _ => Iff.rfl⟩

/-- A name that is to be added is no other name's double. -/
def Distinct (same : α → α → Bool) (l as : List α) : Prop :=
  ∀ a ∈ as, a ∉ l → ∀ n ∈ l ++ as, same n a = true → n = a

/-- Of a list, on which the collation is equality, some names are seen. What is not seen is added
and what is seen and not given is removed. -/
lemma isExactly_removeAll_iff {seen adds drops : List α} (hrefl : ∀ a, same a a = true)
    (hsymm : ∀ a b, same a b = true → same b a = true) (hnodup : l.Nodup)
    (hunique : ∀ a ∈ l, ∀ b ∈ l, same a b = true → a = b) (hseen : seen ⊆ l) (hsub : adds ⊆ as)
    (hadds : ∀ a ∈ as, a ∉ seen → a ∈ adds) (hdrops : ∀ a, a ∈ drops ↔ a ∈ seen ∧ a ∉ as) :
    IsExactly (removeAll same (addAllNew same l adds) drops) as ↔
      (∀ a ∈ l, a ∉ seen → a ∈ as) ∧ Distinct same l as := by
  have hmem : ∀ a, a ∈ removeAll same (addAllNew same l adds) drops ↔
      a ∈ addAllNew same l adds ∧ ∀ b ∈ drops, same a b ≠ true := by
    intro a
    simp [removeAll]
  constructor
  · rintro ⟨-, hexact⟩
    constructor
    · intro a ha hunseen
      apply (hexact a).mp
      rw [hmem]
      refine ⟨mem_addAllNew_of_mem ha, fun b hb hab => hunseen ?_⟩
      obtain ⟨hbseen, -⟩ := (hdrops b).mp hb
      rwa [hunique a ha b (hseen hbseen) hab]
    · intro a ha hal n hn hna
      have hn' : n ∈ addAllNew same l adds := by
        rcases List.mem_append.mp hn with hn | hn
        · exact mem_addAllNew_of_mem hn
        · exact ((hmem n).mp ((hexact n).mpr hn)).1
      have ha' := ((hmem a).mp ((hexact a).mpr ha)).1
      exact (eq_or_mem_of_same hsymm hn' ha' hna).resolve_right fun h => hal h.2
  · rintro ⟨hunseen, hdistinct⟩
    refine ⟨(nodup_addAllNew hrefl hnodup).filter _, fun a => ?_⟩
    rw [hmem]
    constructor
    · rintro ⟨ha, hkept⟩
      rcases mem_addAllNew ha with hl | hadd
      · by_contra hnot
        have hs : a ∈ seen := by
          by_contra hs
          exact hnot (hunseen a hl hs)
        exact hkept a ((hdrops a).mpr ⟨hs, hnot⟩) (hrefl a)
      · exact hsub hadd
    · intro ha
      have hadded : a ∈ addAllNew same l adds := by
        by_cases hal : a ∈ l
        · exact mem_addAllNew_of_mem hal
        · have hadd := hadds a ha fun hs => hal (hseen hs)
          obtain ⟨n, hn, hna⟩ := exists_same_of_mem (l := l) hrefl hadd
          have hn' : n ∈ l ++ as := by
            rcases mem_addAllNew hn with hl | hadd
            · exact List.mem_append_left _ hl
            · exact List.mem_append_right _ (hsub hadd)
          rwa [hdistinct a ha hal n hn' hna] at hn
      refine ⟨hadded, fun b hb hab => ?_⟩
      obtain ⟨hbseen, hnot⟩ := (hdrops b).mp hb
      by_cases hal : a ∈ l
      · rw [hunique a hal b (hseen hbseen) hab] at ha
        exact hnot ha
      · have hba := hdistinct a ha hal b (List.mem_append_left _ (hseen hbseen)) (hsymm _ _ hab)
        rw [hba] at hnot
        exact hnot ha

end Collation
