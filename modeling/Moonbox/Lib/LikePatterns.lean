import Mathlib.Data.List.Infix
import Mathlib.Tactic.Lemma

/-!
# Patterns of `LIKE`

A pattern is read from left to right. Some characters are special: what they stand for may depend
on what follows, and may take some of it away. The others stand for themselves.
-/

namespace LikePattern

/-- What is matched by one step of a pattern. -/
inductive Item
  | char (c : Char)
  | oneOf (accepts : Char → Bool)
  | many

def Item.accepts : Item → Char → Bool
  | char c, x => x = c
  | oneOf accepts, x => accepts x
  | many, _ => true

/-- For the special characters, with the text after them, what they stand for and how many
characters of the text belong to it. -/
structure Grammar where
  special : Char → Option (List Char → Item × Nat)

variable {g : Grammar} {c x : Char} {s t u v rest : List Char} {i : Item} {items : List Item}

def Grammar.item (g : Grammar) (c : Char) (text : List Char) : Item × Nat :=
  match g.special c with
  | none => (.char c, 0)
  | some meaning => meaning text

/-- The first characters may be skipped, as parts of an item that was read. -/
def Grammar.parse (g : Grammar) : Nat → List Char → List Item
  | _, [] => []
  | skip + 1, _ :: text => g.parse skip text
  | 0, c :: text => (g.item c text).1 :: g.parse (g.item c text).2 text

def matchItems : List Item → List Char → Bool
  | [], t => t.isEmpty
  | .many :: items, t => t.tails.any (matchItems items)
  | _ :: _, [] => false
  | i :: items, c :: t => i.accepts c && matchItems items t

def Grammar.like (g : Grammar) (pattern t : List Char) : Bool := matchItems (g.parse 0 pattern) t

/-! ### What items match -/

lemma matchItems_many : matchItems (.many :: items) t = true ↔
    ∃ u v, u ++ v = t ∧ matchItems items v = true := by
  rw [matchItems, List.any_eq_true]
  constructor
  · rintro ⟨v, hv, hmatch⟩
    obtain ⟨u, hu⟩ := (List.mem_tails v t).mp hv
    exact ⟨u, v, hu, hmatch⟩
  · rintro ⟨u, v, hu, hmatch⟩
    exact ⟨v, (List.mem_tails v t).mpr ⟨u, hu⟩, hmatch⟩

lemma matchItems_cons (hi : i ≠ .many) : matchItems (i :: items) t = true ↔
    ∃ x v, x :: v = t ∧ i.accepts x = true ∧ matchItems items v = true := by
  cases t with
  | nil => cases i <;> simp_all [matchItems]
  | cons c t => cases i <;> simp_all [matchItems]

lemma matchItems_chars : matchItems (s.map .char ++ items) t = true ↔
    ∃ v, s ++ v = t ∧ matchItems items v = true := by
  induction s generalizing t with
  | nil => simp
  | cons c s ih =>
    rw [List.map_cons, List.cons_append, matchItems_cons (by simp)]
    constructor
    · rintro ⟨x, v, rfl, hx, hv⟩
      obtain ⟨w, rfl, hw⟩ := ih.mp hv
      exact ⟨w, by simpa [Item.accepts, eq_comm] using hx, hw⟩
    · rintro ⟨v, rfl, hv⟩
      exact ⟨c, s ++ v, rfl, by simp [Item.accepts], ih.mpr ⟨v, rfl, hv⟩⟩

lemma matchItems_nil : matchItems [] t = true ↔ t = [] := by simp [matchItems]

lemma matchItems_prefix : matchItems (s.map .char ++ [.many]) t = true ↔ s <+: t := by
  rw [matchItems_chars]
  constructor
  · rintro ⟨v, rfl, -⟩
    exact List.prefix_append s v
  · rintro ⟨v, rfl⟩
    exact ⟨v, rfl, matchItems_many.mpr ⟨v, [], by simp, rfl⟩⟩

lemma matchItems_suffix : matchItems (.many :: s.map .char) t = true ↔ s <:+ t := by
  have hchars {v : List Char} : matchItems (s.map .char) v = true ↔ v = s := by
    have h := @matchItems_chars s v []
    simp only [List.append_nil, matchItems_nil] at h
    rw [h]
    constructor
    · rintro ⟨_, hv, rfl⟩
      rw [← hv, List.append_nil]
    · rintro rfl
      exact ⟨[], List.append_nil _, rfl⟩
  simp only [matchItems_many, hchars]
  constructor
  · rintro ⟨u, v, rfl, rfl⟩
    exact List.suffix_append u v
  · rintro ⟨u, rfl⟩
    exact ⟨u, s, rfl, rfl⟩

lemma matchItems_infix : matchItems (.many :: (s.map .char ++ [.many])) t = true ↔ s <:+: t := by
  simp only [matchItems_many, matchItems_prefix]
  constructor
  · rintro ⟨u, v, rfl, w, rfl⟩
    exact ⟨u, w, by simp⟩
  · rintro ⟨u, w, rfl⟩
    exact ⟨u, s ++ w, by simp, w, rfl⟩

/-! ### Texts that stand for themselves -/

/-- The characters of the text stand for themselves, whatever else of them is special. -/
def Grammar.Plain (g : Grammar) : List Char → List Char → Prop
  | [], _ => True
  | c :: s, rest => g.item c (s ++ rest) = (.char c, 0) ∧ g.Plain s rest

lemma parse_plain (h : g.Plain s rest) :
    g.parse 0 (s ++ rest) = s.map .char ++ g.parse 0 rest := by
  induction s with
  | nil => rfl
  | cons c s ih =>
    rw [List.cons_append, Grammar.parse, h.1, ih h.2]
    rfl

/-- A text is plain, or there is a first character that does not stand for itself. -/
lemma plain_or_special (g : Grammar) (s rest : List Char) :
    g.Plain s rest ∨ ∃ u c v, s = u ++ c :: v ∧ g.Plain u (c :: v ++ rest) ∧
      g.item c (v ++ rest) ≠ (.char c, 0) := by
  induction s with
  | nil => exact .inl trivial
  | cons c s ih =>
    by_cases hc : g.item c (s ++ rest) = (.char c, 0)
    · rcases ih with h | ⟨u, x, v, rfl, hu, hx⟩
      · exact .inl ⟨hc, h⟩
      · exact .inr ⟨c :: u, x, v, rfl, ⟨by simpa using hc, hu⟩, hx⟩
    · exact .inr ⟨[], c, s, rfl, trivial, hc⟩

/-- The characters that a text has to have at least to be matched -/
def minLength : List Item → Nat
  | [] => 0
  | .many :: items => minLength items
  | _ :: items => minLength items + 1

/-- What is matched can be cut down to what has to be there. -/
lemma exists_shortest (h : matchItems items t = true) :
    ∃ t', matchItems items t' = true ∧ t'.length = minLength items := by
  induction items generalizing t with
  | nil => exact ⟨[], rfl, rfl⟩
  | cons i items ih =>
    by_cases hi : i = .many
    · subst hi
      obtain ⟨u, v, rfl, hv⟩ := matchItems_many.mp h
      obtain ⟨t', ht', hlength⟩ := ih hv
      exact ⟨t', matchItems_many.mpr ⟨[], t', rfl, ht'⟩, hlength⟩
    · obtain ⟨x, v, rfl, hx, hv⟩ := (matchItems_cons hi).mp h
      obtain ⟨t', ht', hlength⟩ := ih hv
      refine ⟨x :: t', (matchItems_cons hi).mpr ⟨x, t', rfl, hx, ht'⟩, ?_⟩
      cases i <;> simp_all [minLength]

lemma minLength_cons_le : minLength (i :: items) ≤ minLength items + 1 := by
  cases i <;> simp [minLength]

/-- Before a final `%` each item takes a character, so that no more are needed than there are. -/
lemma minLength_parse_le (hg : g.item '%' [] = (.many, 0)) (skip : Nat) (v : List Char) :
    minLength (g.parse skip (v ++ ['%'])) ≤ v.length - skip := by
  induction v generalizing skip with
  | nil =>
    cases skip with
    | zero => simp [Grammar.parse, hg, minLength]
    | succ skip => simp [Grammar.parse, minLength]
  | cons c v ih =>
    rw [List.cons_append]
    cases skip with
    | succ skip =>
      have := ih skip
      simpa [Grammar.parse] using this
    | zero =>
      have := ih (g.item c (v ++ ['%'])).2
      have hcons := @minLength_cons_le (g.item c (v ++ ['%'])).1
        (g.parse (g.item c (v ++ ['%'])).2 (v ++ ['%']))
      rw [Grammar.parse, List.length_cons]
      omega

/-- Before a final `%` a character stands for itself, or for nothing or something else, or it takes
away some of the text. -/
def Grammar.Departs (g : Grammar) : Prop :=
  g.item '%' [] = (.many, 0) ∧ ∀ c v, g.item c (v ++ ['%']) = (.char c, 0) ∨
    (∀ x, (g.item c (v ++ ['%'])).1.accepts x = false) ∨
    (∃ x, x ≠ c ∧ (g.item c (v ++ ['%'])).1.accepts x = true) ∨
    (v ≠ [] ∧ 0 < (g.item c (v ++ ['%'])).2)

/-- What an item accepts can be put before what the rest of the pattern matches. -/
lemma matchItems_accepts (hx : i.accepts x = true) (hv : matchItems items v = true) :
    matchItems (i :: items) (x :: v) = true := by
  by_cases hi : i = .many
  · rw [hi, matchItems_many]
    exact ⟨[x], v, rfl, hv⟩
  · exact (matchItems_cons hi).mpr ⟨x, v, rfl, hx, hv⟩

lemma exists_matchItems_of_cons (h : matchItems (i :: items) t = true) :
    (∃ x, i.accepts x = true) ∧ ∃ v, matchItems items v = true := by
  by_cases hi : i = .many
  · subst hi
    obtain ⟨u, v, -, hv⟩ := matchItems_many.mp h
    exact ⟨⟨'a', rfl⟩, v, hv⟩
  · obtain ⟨x, v, -, hx, hv⟩ := (matchItems_cons hi).mp h
    exact ⟨⟨x, hx⟩, v, hv⟩

/-- A text with `%` behind it matches what begins with the text, exactly if it is plain. -/
theorem like_prefix_iff (hg : g.Departs) :
    (∀ t, g.like (s ++ ['%']) t = true ↔ s <+: t) ↔ g.Plain s ['%'] := by
  have hend : g.parse 0 ['%'] = [.many] := by simp [Grammar.parse, hg.1]
  constructor
  · intro hexact
    rcases plain_or_special g s ['%'] with h | ⟨u, c, v, rfl, hu, hc⟩
    · exact h
    exfalso
    have hparse : g.parse 0 (u ++ c :: v ++ ['%']) = u.map .char ++
        ((g.item c (v ++ ['%'])).1 :: g.parse (g.item c (v ++ ['%'])).2 (v ++ ['%'])) := by
      rw [List.append_assoc, parse_plain hu]
      rfl
    -- whatever the rest of the pattern matches is to begin with the text
    have hbegins {t : List Char} (ht : matchItems ((g.item c (v ++ ['%'])).1 ::
        g.parse (g.item c (v ++ ['%'])).2 (v ++ ['%'])) t = true) : c :: v <+: t := by
      have h := (hexact (u ++ t)).mp (by
        rw [Grammar.like, hparse]
        exact matchItems_chars.mpr ⟨t, rfl, ht⟩)
      exact (List.prefix_append_right_inj u).mp h
    obtain ⟨t, -, ht⟩ := matchItems_chars.mp (by
      have h := (hexact _).mpr (List.prefix_refl (u ++ c :: v))
      rwa [Grammar.like, hparse] at h)
    obtain ⟨⟨x, hx⟩, w, hw⟩ := exists_matchItems_of_cons ht
    rcases hg.2 c v with h | h | ⟨y, hne, hy⟩ | ⟨hv, hskip⟩
    · exact hc h
    · rw [h x] at hx
      cases hx
    · obtain ⟨z, hz⟩ := hbegins (matchItems_accepts hy hw)
      exact hne (List.cons.inj hz).1.symm
    · obtain ⟨w', hw', hlength⟩ := exists_shortest hw
      have hle := (hbegins (matchItems_accepts hx hw')).length_le
      have hmin := minLength_parse_le hg.1 (g.item c (v ++ ['%'])).2 v
      have hpos := List.length_pos_iff.mpr hv
      simp only [List.length_cons] at hle
      omega
  · intro h t
    rw [Grammar.like, parse_plain h, hend, matchItems_prefix]

lemma like_suffix (hg : g.special '%' = some fun _ => (.many, 0)) (h : g.Plain s []) :
    g.like ('%' :: s) t = true ↔ s <:+ t := by
  have hparse : g.parse 0 ('%' :: s) = .many :: s.map .char := by
    have hs := parse_plain h
    rw [List.append_nil, Grammar.parse, List.append_nil] at hs
    rw [Grammar.parse, Grammar.item, hg, hs]
  rw [Grammar.like, hparse, matchItems_suffix]

lemma like_infix (hg : g.special '%' = some fun _ => (.many, 0)) (h : g.Plain s ['%']) :
    g.like ('%' :: (s ++ ['%'])) t = true ↔ s <:+: t := by
  have hparse : g.parse 0 ('%' :: (s ++ ['%'])) = .many :: (s.map .char ++ [.many]) := by
    simp [Grammar.parse, Grammar.item, hg, parse_plain h]
  rw [Grammar.like, hparse, matchItems_infix]

/-- Where it does not depend on what follows, the characters can be looked at one by one. -/
lemma plain_iff_forall {P : Char → Prop}
    (h : ∀ c v, g.item c (v ++ rest) = (.char c, 0) ↔ P c) : g.Plain s rest ↔ ∀ c ∈ s, P c := by
  induction s with
  | nil => simp [Grammar.Plain]
  | cons c s ih => rw [Grammar.Plain, h, ih, List.forall_mem_cons]

end LikePattern
