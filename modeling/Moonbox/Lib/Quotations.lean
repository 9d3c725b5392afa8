import Mathlib.Data.List.Flatten
import Mathlib.Data.List.Count
import Mathlib.Tactic.Lemma

/-!
# Quotations

Texts between quotes, read up to the closing quote. A quote inside is doubled, or escaped, or
cannot be.
-/

structure Quotation where
  quote : Char
  doubled : Bool
  /-- For a text after a backslash what the escape stands for, and its length. -/
  escape : Option (List Char → List Char × Nat)

namespace Quotation

variable {k : Quotation} {c quote : Char} {name text value rest : List Char}

def prepend (cs : List Char) (r : Option (List Char × List Char)) :
    Option (List Char × List Char) :=
  r.map fun (value, rest) => (cs ++ value, rest)

/-- The value and what is after the closing quote. The first characters may be skipped, as parts
of an escape that was read. -/
def read (k : Quotation) : Nat → List Char → Option (List Char × List Char)
  | _, [] => none
  | skip + 1, _ :: text => k.read skip text
  | 0, c :: text =>
    if c = k.quote then
      if k.doubled ∧ text.head? = some k.quote then prepend [c] (k.read 1 text)
      else some ([], text)
    else
      match k.escape with
      | none => prepend [c] (k.read 0 text)
      | some escape =>
        if c = '\\' then prepend (escape text).1 (k.read (escape text).2 text)
        else prepend [c] (k.read 0 text)

def replace (c : Char) (cs text : List Char) : List Char :=
  text.flatMap fun x => if x = c then cs else [x]

def double (quote : Char) (text : List Char) : List Char := replace quote [quote, quote] text

lemma double_cons : double quote (c :: text) =
    if c = quote then c :: c :: double quote text else c :: double quote text := by
  by_cases hc : c = quote
  · simp [double, replace, hc]
  · simp [double, replace, hc]

lemma double_append (quote : Char) (text rest : List Char) :
    double quote (text ++ rest) = double quote text ++ double quote rest := by
  simp [double, replace]

lemma double_of_not_mem (h : quote ∉ text) : double quote text = text := by
  induction text with
  | nil => rfl
  | cons c text ih =>
    obtain ⟨hc, hrest⟩ := not_or.mp (mt List.mem_cons.mpr h)
    rw [double_cons, if_neg (Ne.symm hc), ih hrest]

lemma count_double_of_ne (h : c ≠ quote) (text : List Char) :
    (double quote text).count c = text.count c := by
  induction text with
  | nil => rfl
  | cons x text ih =>
    rw [double_cons]
    split
    · rename_i hx
      rw [hx, List.count_cons_of_ne h.symm, List.count_cons_of_ne h.symm,
        List.count_cons_of_ne h.symm, ih]
    · rw [List.count_cons, List.count_cons, ih]

/-- In the quotation a backslash is one like others, or the name has none. -/
def Plain (k : Quotation) (name : List Char) : Prop := k.escape.isSome → '\\' ∉ name

lemma prepend_eq_some {cs : List Char} {r : Option (List Char × List Char)} :
    prepend cs r = some (value, rest) ↔
      ∃ value', r = some (value', rest) ∧ cs ++ value' = value := by
  cases r with
  | none => simp [prepend]
  | some p => simp [prepend, Prod.ext_iff, and_comm]

lemma read_cons_plain (hc : c ≠ k.quote) (hplain : k.escape.isSome → c ≠ '\\') :
    k.read 0 (c :: text) = prepend [c] (k.read 0 text) := by
  rw [read, if_neg hc]
  split
  · rfl
  · rename_i escape hescape
    rw [if_neg (hplain (by simp [hescape]))]

lemma read_cons_doubled (hd : k.doubled = true) :
    k.read 0 (k.quote :: k.quote :: text) = prepend [k.quote] (k.read 0 text) := by
  simp [read, hd]

lemma read_close (hrest : k.doubled = true → rest.head? ≠ some k.quote) :
    k.read 0 (k.quote :: rest) = some ([], rest) := by
  rw [read, if_pos rfl, if_neg (fun h => hrest h.1 h.2)]

/-- A name without the quote comes back. -/
lemma read_plain (hq : k.quote ∉ name) (hplain : k.Plain name)
    (hrest : k.doubled = true → rest.head? ≠ some k.quote) :
    k.read 0 (name ++ k.quote :: rest) = some (name, rest) := by
  induction name with
  | nil => exact read_close hrest
  | cons c name ih =>
    rw [List.mem_cons, not_or] at hq
    have hplain' : k.escape.isSome → c ≠ '\\' ∧ '\\' ∉ name := fun h => by
      simpa [eq_comm] using hplain h
    rw [List.cons_append, read_cons_plain (Ne.symm hq.1) fun h => (hplain' h).1,
      ih hq.2 fun h => (hplain' h).2]
    rfl

/-- With its quotes doubled any name comes back. -/
lemma read_double (hd : k.doubled = true) (hplain : k.Plain name)
    (hrest : rest.head? ≠ some k.quote) :
    k.read 0 (double k.quote name ++ k.quote :: rest) = some (name, rest) := by
  induction name with
  | nil => exact read_close fun _ => hrest
  | cons c name ih =>
    have hplain' : k.escape.isSome → c ≠ '\\' ∧ '\\' ∉ name := fun h => by
      simpa [eq_comm] using hplain h
    have htail := ih fun h => (hplain' h).2
    rw [double_cons]
    split
    · rename_i hc
      rw [hc, List.cons_append, List.cons_append, read_cons_doubled hd, htail]
      rfl
    · rename_i hc
      rw [List.cons_append, read_cons_plain hc fun h => (hplain' h).1, htail]
      rfl

/-- Where nothing is escaped, what is read are the characters of the value, its quotes doubled. -/
lemma eq_double_of_read (hescape : k.escape = none)
    (h : k.read 0 text = some (value, rest)) : text = double k.quote value ++ k.quote :: rest := by
  -- after a doubled quote its second half is skipped
  have main : (∀ value, k.read 0 text = some (value, rest) →
      text = double k.quote value ++ k.quote :: rest) ∧
        ∀ value c text', text = c :: text' → k.read 1 text = some (value, rest) →
          text' = double k.quote value ++ k.quote :: rest := by
    clear h
    induction text with
    | nil =>
      constructor
      · intro value h
        cases h
      · intro value c text' heq
        cases heq
    | cons c text ih =>
      constructor
      · intro value h
        rw [read, hescape] at h
        split at h
        · rename_i hc
          split at h
          · rename_i hhead
            obtain ⟨value', hread, rfl⟩ := prepend_eq_some.mp h
            obtain ⟨text', rfl⟩ : ∃ text', text = k.quote :: text' :=
              List.head?_eq_some_iff.mp hhead.2
            rw [List.singleton_append, double_cons, if_pos hc, ← hc, List.cons_append,
              List.cons_append, hc, ← ih.2 value' _ _ rfl hread]
          · cases h
            rw [hc]
            rfl
        · rename_i hc
          obtain ⟨value', hread, rfl⟩ := prepend_eq_some.mp h
          rw [List.singleton_append, double_cons, if_neg hc, List.cons_append,
            ← ih.1 value' hread]
      · rintro value c' text' heq h
        cases heq
        exact ih.1 value h
  exact main.1 value h

/-! ### What is read is shorter -/

/-- An escape of one character stands for one at most, a longer one for fewer. -/
def Shortens (k : Quotation) : Prop :=
  ∀ escape ∈ k.escape, ∀ text, 2 * (escape text).1.length ≤ (escape text).2 + 1

/-- A quote counts for a half, since it is there twice, and an escape is lost. -/
def Weighs (k : Quotation) (value body : List Char) : Prop :=
  2 * value.length + body.count k.quote ≤ 2 * body.length ∧
    (k.escape.isSome → '\\' ∈ body → 2 * value.length + body.count k.quote < 2 * body.length)

lemma weighs_cons (hc : c ≠ k.quote) {body : List Char} (h : k.Weighs value body)
    (hplain : k.escape.isSome → c ≠ '\\') : k.Weighs ([c] ++ value) (c :: body) := by
  have hcount : (c :: body).count k.quote = body.count k.quote := List.count_cons_of_ne hc
  refine ⟨?_, fun hescape hmem => ?_⟩
  · have := h.1
    simp only [hcount, List.length_append, List.length_cons, List.length_nil]
    omega
  · have := h.2 hescape ((List.mem_cons.mp hmem).resolve_left (hplain hescape).symm)
    simp only [hcount, List.length_append, List.length_cons, List.length_nil]
    omega

lemma read_weighs_skip (hs : k.Shortens) (hquote : k.quote ≠ '\\') {skip : Nat}
    (h : k.read skip text = some (value, rest)) :
    ∃ skipped body, text = skipped ++ body ++ k.quote :: rest ∧ skipped.length = skip ∧
      k.Weighs value body := by
  induction text generalizing skip value with
  | nil => cases skip <;> cases h
  | cons c text ih =>
    cases skip with
    | succ skip =>
      obtain ⟨skipped, body, rfl, rfl, hw⟩ := ih h
      exact ⟨c :: skipped, body, rfl, rfl, hw⟩
    | zero =>
      rw [read] at h
      split at h
      · rename_i hc
        split at h
        · obtain ⟨value', hread, rfl⟩ := prepend_eq_some.mp h
          obtain ⟨skipped, body, rfl, hlength, hw⟩ := ih hread
          obtain ⟨c', rfl⟩ := List.length_eq_one_iff.mp hlength
          rename_i hhead
          obtain rfl : c' = k.quote := by simpa using hhead.2
          subst hc
          refine ⟨[], k.quote :: k.quote :: body, rfl, rfl, ?_, fun hescape hmem => ?_⟩
          · have := hw.1
            simp only [List.count_cons_self, List.length_append, List.length_cons,
              List.length_nil]
            omega
          · have := hw.2 hescape (by simpa [hquote.symm] using hmem)
            simp only [List.count_cons_self, List.length_append, List.length_cons,
              List.length_nil]
            omega
        · cases h
          subst hc
          exact ⟨[], [], rfl, rfl, by simp [Weighs]⟩
      · rename_i hc
        split at h
        · rename_i hnone
          obtain ⟨value', hread, rfl⟩ := prepend_eq_some.mp h
          obtain ⟨skipped, body, rfl, hlength, hw⟩ := ih hread
          obtain rfl := List.length_eq_zero_iff.mp hlength
          exact ⟨[], c :: body, rfl, rfl, weighs_cons hc hw (by simp [hnone])⟩
        · rename_i escape hescape
          split at h
          · rename_i hbackslash
            obtain ⟨value', hread, rfl⟩ := prepend_eq_some.mp h
            obtain ⟨skipped, body, htext, hlength, hw⟩ := ih hread
            -- what is skipped may have quotes, each of which counts for a half
            have hshort := hs escape hescape text
            have hcount : skipped.count k.quote ≤ skipped.length := List.count_le_length
            have := hw.1
            refine ⟨[], c :: (skipped ++ body), by simp [htext], rfl, ?_⟩
            have hweigh : 2 * ((escape text).1 ++ value').length +
                (c :: (skipped ++ body)).count k.quote <
                  2 * (c :: (skipped ++ body)).length := by
              simp only [List.count_cons_of_ne hc, List.count_append, List.length_append,
                List.length_cons]
              omega
            exact ⟨Nat.le_of_lt hweigh, fun _ _ => hweigh⟩
          · rename_i hbackslash
            obtain ⟨value', hread, rfl⟩ := prepend_eq_some.mp h
            obtain ⟨skipped, body, rfl, hlength, hw⟩ := ih hread
            obtain rfl := List.length_eq_zero_iff.mp hlength
            exact ⟨[], c :: body, rfl, rfl, weighs_cons hc hw fun _ => hbackslash⟩

lemma read_weighs (hs : k.Shortens) (hquote : k.quote ≠ '\\') {body : List Char}
    (h : k.read 0 (body ++ [k.quote]) = some (value, [])) : k.Weighs value body := by
  obtain ⟨skipped, body', heq, hlength, hw⟩ := read_weighs_skip hs hquote h
  obtain rfl := List.length_eq_zero_iff.mp hlength
  rwa [List.append_cancel_right heq]

lemma double_length (quote : Char) (text : List Char) :
    (double quote text).length = text.length + text.count quote := by
  induction text with
  | nil => rfl
  | cons c text ih =>
    rw [double_cons]
    by_cases hc : c = quote
    · simp only [hc, if_true, List.length_cons, List.count_cons_self, ih]
      omega
    · simp only [hc, if_false, List.length_cons, List.count_cons_of_ne hc, ih]
      omega

lemma double_count (quote : Char) (text : List Char) :
    (double quote text).count quote = 2 * text.count quote := by
  induction text with
  | nil => rfl
  | cons c text ih =>
    rw [double_cons]
    by_cases hc : c = quote
    · simp only [hc, if_true, List.count_cons_self, ih]
      omega
    · simp only [hc, if_false, List.count_cons_of_ne hc, ih]

/-- A text that is read as long as it is stands for itself. -/
lemma eq_of_read (hs : k.Shortens) (hquote : k.quote ≠ '\\') {body : List Char}
    (h : k.read 0 (body ++ [k.quote]) = some (value, [])) (hlength : body.length ≤ value.length) :
    value = body ∧ k.quote ∉ body := by
  have hw := read_weighs hs hquote h
  have hcount : body.count k.quote = 0 := by
    have := hw.1
    omega
  have hq : k.quote ∉ body := List.count_eq_zero.mp hcount
  have hplain : k.Plain body := fun hescape hmem => by
    have := hw.2 hescape hmem
    omega
  rw [read_plain hq hplain (by simp)] at h
  cases h
  exact ⟨rfl, hq⟩

end Quotation
