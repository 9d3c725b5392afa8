import Mathlib.Data.List.TakeWhile
import Mathlib.Tactic.Lemma

/-!
# Parsing expressions

Parsers that read from left to right. A repetition takes as much as it can, and of two
alternatives the second is tried only where the first fails.
-/

abbrev Peg (α : Type*) := List Char → Option (α × List Char)

namespace Peg

variable {α β : Type*} {p : Char → Bool} {least : ℕ} {most : Option ℕ} {taken text rest : List Char}
  {P : Peg α} {Q : Peg β} {x : α} {y : β}

/-- As many characters as there are, up to `most`; it fails if they are less than `least`. -/
def chars (p : Char → Bool) (least : ℕ) (most : Option ℕ) : Peg (List Char) := fun text =>
  let taken := (text.takeWhile p).take (most.getD text.length)
  if taken.length < least then none else some (taken, text.drop taken.length)

def char (c : Char) : Peg Char
  | [] => none
  | d :: text => if d = c then some (d, text) else none

def andThen (P : Peg α) (Q : Peg β) : Peg (α × β) := fun text =>
  (P text).bind fun (x, text) => (Q text).bind fun (y, text) => some ((x, y), text)

def orElse (P P' : Peg α) : Peg α := fun text => (P text).or (P' text)

def map (f : α → β) (P : Peg α) : Peg β := fun text =>
  (P text).map fun (x, text) => (f x, text)

/-- More elements, each after a separator. There are no more of them than the bound. -/
def more (P : Peg α) (sep : Peg β) : ℕ → List Char → List α × List Char
  | 0, text => ([], text)
  | bound + 1, text =>
    match sep.andThen P text with
    | none => ([], text)
    | some ((_, x), rest) => (x :: (more P sep bound rest).1, (more P sep bound rest).2)

/-- Elements with separators between them. The separator is not empty. -/
def rep (P : Peg α) (sep : Peg β) : Peg (List α) := fun text =>
  match P text with
  | none => some ([], text)
  | some (x, rest) =>
    some (x :: (more P sep rest.length rest).1, (more P sep rest.length rest).2)

/-- With the end of the text after it. -/
def parse (P : Peg α) (text : List Char) : Option α :=
  (P text).bind fun (x, rest) => if rest = [] then some x else none

lemma drop_length_takeWhile (p : Char → Bool) (text : List Char) :
    text.drop (text.takeWhile p).length = text.dropWhile p := by
  have h := @List.drop_left _ (text.takeWhile p) (text.dropWhile p)
  rwa [List.takeWhile_append_dropWhile] at h

lemma chars_eq_some (h : chars p least most text = some (taken, rest)) :
    text = taken ++ rest ∧ least ≤ taken.length ∧ (∀ c ∈ taken, p c) ∧
      (most = none → ∀ c ∈ rest.head?, p c = false) := by
  simp only [chars] at h
  split_ifs at h with hlength
  obtain ⟨rfl, rfl⟩ := Prod.mk.inj (Option.some.inj h)
  refine ⟨?_, not_lt.mp hlength, fun c hc => ?_, ?_⟩
  · have hpre : (text.takeWhile p).take (most.getD text.length) <+: text :=
      (List.take_prefix _ _).trans (List.takeWhile_prefix p)
    exact List.prefix_iff_eq_append.mp hpre |>.symm
  · exact List.mem_takeWhile_imp (List.mem_of_mem_take hc)
  · rintro rfl c hc
    have hall : (text.takeWhile p).take text.length = text.takeWhile p :=
      List.take_of_length_le (List.takeWhile_prefix p).length_le
    rw [Option.getD_none, hall, drop_length_takeWhile] at hc
    have hnot := List.head?_dropWhile_not p text
    rw [hc] at hnot
    simpa using hnot

lemma chars_append (h : ∀ c ∈ taken, p c) (hleast : least ≤ taken.length)
    (hrest : ∀ c ∈ rest.head?, p c = false) :
    chars p least none (taken ++ rest) = some (taken, rest) := by
  have htake : (taken ++ rest).takeWhile p = taken := by
    rw [List.takeWhile_append_of_pos h]
    cases rest with
    | nil => simp
    | cons c rest => simp [hrest c rfl]
  have hall : taken.take (taken ++ rest).length = taken := List.take_of_length_le (by simp)
  simp only [chars, htake, Option.getD_none, hall, List.drop_left]
  rw [if_neg (not_lt.mpr hleast)]

lemma chars_eq_none (hleast : 0 < least) (h : ∀ c ∈ text.head?, p c = false) :
    chars p least most text = none := by
  cases text with
  | nil => simp [chars, hleast]
  | cons c text => simp [chars, h c rfl, hleast]

lemma char_eq_some {c : Char} {r : Char × List Char} :
    char c text = some r ↔ text = c :: r.2 ∧ r.1 = c := by
  obtain ⟨d, rest⟩ := r
  cases text with
  | nil => simp [char]
  | cons e text =>
    simp only [char, List.cons.injEq]
    split_ifs with he
    · subst he
      simp [eq_comm, and_comm]
    · simp [he]

lemma andThen_eq_some {r : (α × β) × List Char} : P.andThen Q text = some r ↔
    ∃ between, P text = some (r.1.1, between) ∧ Q between = some (r.1.2, r.2) := by
  obtain ⟨⟨x, y⟩, rest⟩ := r
  simp only [andThen, Option.bind_eq_some_iff, Prod.exists, Option.some.injEq, Prod.mk.injEq]
  constructor
  · rintro ⟨x', between, hP, y', rest', hQ, ⟨rfl, rfl⟩, rfl⟩
    exact ⟨between, hP, hQ⟩
  · rintro ⟨between, hP, hQ⟩
    exact ⟨x, between, hP, y, rest, hQ, ⟨rfl, rfl⟩, rfl⟩

lemma map_eq_some {f : α → β} {r : β × List Char} : P.map f text = some r ↔
    ∃ x, P text = some (x, r.2) ∧ f x = r.1 := by
  obtain ⟨y, rest⟩ := r
  simp only [map, Option.map_eq_some_iff, Prod.exists, Prod.mk.injEq]
  constructor
  · rintro ⟨x, rest', hP, rfl, rfl⟩
    exact ⟨x, hP, rfl⟩
  · rintro ⟨x, hP, rfl⟩
    exact ⟨x, rest, hP, rfl, rfl⟩

lemma orElse_left {P' : Peg α} {r : α × List Char} (h : P text = some r) :
    orElse P P' text = some r := by
  simp [orElse, h]

lemma orElse_right {P' : Peg α} (h : P text = none) : orElse P P' text = P' text := by
  simp [orElse, h]

lemma map_eq_none {f : α → β} (h : P text = none) : P.map f text = none := by
  simp [map, h]

lemma parse_eq_some : P.parse text = some x ↔ P text = some (x, []) := by
  simp only [parse, Option.bind_eq_some_iff, Prod.exists]
  constructor
  · rintro ⟨x', rest, hP, h⟩
    split_ifs at h with hrest
    rw [hP, hrest, Option.some.inj h]
  · intro hP
    exact ⟨x, [], hP, rfl⟩

end Peg
