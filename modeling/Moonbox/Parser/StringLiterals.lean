import Moonbox.Lib.Quotations
import Moonbox.Parser.MoonboxAstBuilder

/-!
# String literals

How a `STRING` is read, by the grammar and by `ParserUtils.string`, when any text is put between
single quotes.
-/

namespace Moonbox.Parser

open ParserUtils JavaStrings
open Quotation (prepend prepend_eq_some)

/-- The text up to the quote that closes a `STRING`, and what is after it. A character after a
backslash is any. -/
def stringBody (quote : Char) : Bool → Text → Option (Text × Text)
  | _, [] => none
  | true, c :: text => prepend [c] (stringBody quote false text)
  | false, c :: text =>
    if c = quote then some ([], text) else prepend [c] (stringBody quote (c == '\\') text)

/-- A `STRING` and its value. -/
def readString : Text → Option (Text × Text)
  | [] => none
  | c :: text =>
    if c = '\'' ∨ c = '"' then
      (stringBody c false text).map fun (body, rest) => (string (c :: body ++ [c]), rest)
    else none

variable {q c x : Char} {enclosure : Option Char} {skip : Nat}
  {escaping : Bool} {text body rest value : Text}

/-! ### Escapes -/

lemma unescape_skip : unescape enclosure skip text = unescape enclosure 0 (text.drop skip) := by
  induction text generalizing skip with
  | nil => cases skip <;> simp [unescape]
  | cons c text ih =>
    cases skip with
    | zero => rfl
    | succ skip => rw [unescape, ih, List.drop_succ_cons]

lemma string_quoted (hq : q = '\'' ∨ q = '"') :
    string (q :: body ++ [q]) = unescape (some q) 0 (body ++ [q]) := by
  simp [string, unescape, hq]

lemma length_appendEscapedChar :
    (appendEscapedChar c).length = if c = '%' ∨ c = '_' then 2 else 1 := by
  unfold appendEscapedChar
  split <;> simp_all

/-- After a backslash one character is read, three octal digits, or `u` and four characters. -/
lemma escaped_cases (c c2 : Char) (text : Text) :
    escaped (c :: c2 :: text) = (appendEscapedChar c, 1) ∨
      (∃ d, escaped (c :: c2 :: text) = ([d], 5) ∧ 4 ≤ text.length) ∨
      ∃ d d3 text', escaped (c :: c2 :: text) = ([d], 3) ∧ text = d3 :: text' ∧ text' ≠ [] ∧
        (octalDigit '7' c2).isSome ∧ (octalDigit '7' d3).isSome := by
  simp only [escaped]
  split
  · rename_i hu
    exact .inr (.inl ⟨_, rfl, hu.2⟩)
  · split
    · rename_i d3 d4 more _
      split
      · rename_i h1 h2 h3
        exact .inr (.inr ⟨_, d3, d4 :: more, rfl, rfl, List.cons_ne_nil _ _, by simp [h2],
          by simp [h3]⟩)
      · exact .inl rfl
    · exact .inl rfl

lemma unescape_plain (hq : c ≠ q) (hc : c ≠ '\\') :
    unescape (some q) 0 (c :: text) = c :: unescape (some q) 0 text := by
  simp [unescape, hq, hc]

lemma unescape_escape (hq : q ≠ '\\') : unescape (some q) 0 ('\\' :: text) =
    (escaped text).1 ++ unescape (some q) (escaped text).2 text := by
  simp [unescape, hq.symm]

/-! ### What is read is shorter -/

lemma length_escaped_le (text : Text) :
    (escaped text).1.length + (text.length - (escaped text).2) ≤ text.length + 1 := by
  match text with
  | [] | [c] => simp [escaped]
  | c :: c2 :: text =>
    rcases escaped_cases c c2 text with h | ⟨d, h, hlength⟩ | ⟨d, d3, text', h, rfl, -⟩
    · simp only [h, length_appendEscapedChar, List.length_cons]
      split <;> omega
    · simp only [h, List.length_cons, List.length_nil]
      omega
    · simp only [h, List.length_cons, List.length_nil]
      omega

lemma length_unescape_le : (unescape enclosure skip text).length ≤ text.length - skip := by
  induction text generalizing enclosure skip with
  | nil => simp [unescape]
  | cons c text ih =>
    cases skip with
    | succ skip => simpa [unescape] using @ih enclosure skip
    | zero =>
      cases enclosure with
      | none =>
        have := @ih (if c = '\'' ∨ c = '"' then some c else none) 0
        simp only [unescape, List.length_cons]
        omega
      | some quote =>
        simp only [unescape, List.length_cons]
        split_ifs
        · have := @ih none 0
          omega
        · have := @ih (some quote) (escaped text).2
          have := length_escaped_le text
          simp only [List.length_append]
          omega
        · have := @ih (some quote) 0
          simp only [List.length_cons]
          omega

/-- The text stands for itself between quotes: a backslash is followed by `%` or `_`. -/
def Verbatim (quote : Char) : Text → Prop
  | [] => True
  | c :: text =>
    (if c = '\\' then text.head? = some '%' ∨ text.head? = some '_' else c ≠ quote) ∧
      Verbatim quote text

/-- What is read between quotes is no longer than what stands there, and as long only if that
stands for itself. -/
lemma length_unescape_quoted (hq : q = '\'' ∨ q = '"') (hskip : skip ≤ text.length) :
    (unescape (some q) skip (text ++ [q])).length ≤ text.length - skip ∧
      (text.length - skip ≤ (unescape (some q) skip (text ++ [q])).length →
        Verbatim q (text.drop skip)) := by
  have hback : q ≠ '\\' := by rcases hq with rfl | rfl <;> decide
  induction text generalizing skip with
  | nil =>
    obtain rfl : skip = 0 := Nat.le_zero.mp hskip
    simp [unescape, Verbatim]
  | cons c text ih =>
    cases skip with
    | succ skip =>
      simpa [unescape] using @ih skip (by simpa using hskip)
    | zero =>
      by_cases hcq : c = q
      · subst hcq
        have hclosed : (unescape none 0 (text ++ [c])).length ≤ text.length := by
          cases text with
          | nil => simp [unescape]
          | cons d text =>
            have := @length_unescape_le (if d = '\'' ∨ d = '"' then some d else none) 0 (text ++ [c])
            simpa [unescape] using this
        simp only [List.cons_append, unescape, if_true, List.length_cons, List.drop_zero]
        omega
      · by_cases hc : c = '\\'
        · subst hc
          rw [List.cons_append, unescape_escape hback]
          cases text with
          | nil => simp [escaped, unescape]
          | cons c2 text =>
            obtain ⟨c3, more, hmore⟩ : ∃ c3 more, text ++ [q] = c3 :: more :=
              List.exists_cons_of_ne_nil (by simp)
            have hlength : text.length = more.length := by simpa using congrArg List.length hmore
            have hread := @ih (escaped (c2 :: text ++ [q])).2
            rw [List.cons_append, hmore] at hread ⊢
            simp only [List.length_append, List.length_cons, List.drop_zero] at hread ⊢
            rcases escaped_cases c2 c3 more with h | ⟨d, h, h4⟩ | ⟨d, d3, more', h, rfl, hne, -⟩
            · obtain ⟨hle, heq⟩ := hread (by simp [h])
              simp only [h, length_appendEscapedChar] at hle heq ⊢
              refine ⟨by split <;> omega, fun hsame => ?_⟩
              split at hsame
              · rename_i hkept
                have hrest : Verbatim q text := heq (by omega)
                refine ⟨by simpa using hkept, ?_, hrest⟩
                rcases hkept with rfl | rfl <;> rcases hq with rfl | rfl <;> simp
              · omega
            · obtain ⟨hle, heq⟩ := hread (by simp [h]; omega)
              simp only [h, List.length_cons, List.length_nil] at hle ⊢
              omega
            · have := List.length_pos_iff.mpr hne
              simp only [List.length_cons] at hlength
              obtain ⟨hle, heq⟩ := hread (by simp [h]; omega)
              simp only [h, List.length_cons, List.length_nil] at hle ⊢
              omega
        · obtain ⟨hle, heq⟩ := @ih 0 (Nat.zero_le _)
          rw [List.cons_append, unescape_plain hcq hc]
          simp only [List.length_cons, List.drop_zero, Verbatim, if_neg hc] at *
          exact ⟨by omega, fun h => ⟨hcq, heq (by omega)⟩⟩

/-! ### What stands for itself -/

lemma escaped_kept (hc : c = '%' ∨ c = '_') (c2 : Char) (text : Text) :
    escaped (c :: c2 :: text) = (['\\', c], 1) := by
  have hu : c ≠ 'u' := by rcases hc with rfl | rfl <;> decide
  have hdigit : octalDigit '1' c = none := by rcases hc with rfl | rfl <;> decide
  have happend : appendEscapedChar c = ['\\', c] := by rcases hc with rfl | rfl <;> rfl
  simp only [escaped, hu, false_and, if_false, hdigit, happend]
  split <;> rfl

lemma unescape_verbatim (hq : q = '\'' ∨ q = '"') (h : Verbatim q text)
    (hskip : skip ≤ text.length) :
    unescape (some q) skip (text ++ [q]) = text.drop skip := by
  have hback : q ≠ '\\' := by rcases hq with rfl | rfl <;> decide
  induction text generalizing skip with
  | nil =>
    obtain rfl : skip = 0 := Nat.le_zero.mp hskip
    simp [unescape]
  | cons c text ih =>
    obtain ⟨hc, hrest⟩ := h
    cases skip with
    | succ skip => simpa [unescape] using ih hrest (by simpa using hskip)
    | zero =>
      by_cases hslash : c = '\\'
      · subst hslash
        rw [List.cons_append, unescape_escape hback]
        cases text with
        | nil => simp at hc
        | cons c2 text =>
          obtain ⟨c3, more, hmore⟩ : ∃ c3 more, text ++ [q] = c3 :: more :=
            List.exists_cons_of_ne_nil (by simp)
          have hescaped : escaped (c2 :: text ++ [q]) = (['\\', c2], 1) := by
            rw [List.cons_append, hmore]
            exact escaped_kept (by simpa using hc) c3 more
          rw [hescaped, ih hrest (by simp)]
          rfl
      · rw [if_neg hslash] at hc
        rw [List.cons_append, unescape_plain hc hslash, ih hrest (Nat.zero_le _)]
        simp

lemma stringBody_verbatim (hq : q ≠ '\\') (h : Verbatim q text) (hescaping : escaping = true →
    text.head? = some '%' ∨ text.head? = some '_') :
    stringBody q escaping (text ++ q :: rest) = some (text, rest) := by
  induction text generalizing escaping with
  | nil =>
    cases escaping with
    | true => simp at hescaping
    | false => simp [stringBody]
  | cons c text ih =>
    obtain ⟨hc, hrest⟩ := h
    rw [List.cons_append]
    cases escaping with
    | true =>
      rw [stringBody, ih hrest (by simp)]
      rfl
    | false =>
      have hcq : c ≠ q := by
        rintro rfl
        simp [hq] at hc
      have hnext : (c == '\\') = true → text.head? = some '%' ∨ text.head? = some '_' :=
        fun hslash => by simpa [beq_iff_eq.mp hslash] using hc
      rw [stringBody, if_neg hcq, ih hrest hnext]
      rfl

lemma readString_verbatim (hq : q = '\'' ∨ q = '"') (h : Verbatim q text) :
    readString (q :: text ++ q :: rest) = some (text, rest) := by
  have hbody : stringBody q false (text ++ q :: rest) = some (text, rest) :=
    stringBody_verbatim (by rcases hq with rfl | rfl <;> decide) h (by simp)
  have hvalue : string (q :: text ++ [q]) = text := by
    rw [string_quoted hq, unescape_verbatim hq h (Nat.zero_le _), List.drop_zero]
  rw [List.cons_append, readString, if_pos hq, hbody]
  simpa using hvalue

/-! ### What does not -/

lemma stringBody_of_not_mem (hq : q ∉ text) : stringBody q escaping text = none := by
  induction text generalizing escaping with
  | nil => cases escaping <;> rfl
  | cons c text ih =>
    obtain ⟨hc, hrest⟩ := not_or.mp (mt List.mem_cons.mpr hq)
    cases escaping with
    | true => rw [stringBody, ih hrest]; rfl
    | false => rw [stringBody, if_neg (Ne.symm hc), ih hrest]; rfl

/-- The text has no quote but after a backslash, and no backslash is open at its end. -/
def Closed (quote : Char) : Bool → Text → Prop
  | escaping, [] => escaping = false
  | true, _ :: text => Closed quote false text
  | false, c :: text => c ≠ quote ∧ Closed quote (c == '\\') text

/-- How the body of a `STRING` ends, if the text is put between its quotes. -/
inductive Ends (q : Char) (rest : Text) (escaping : Bool) (text : Text) : Prop
  | before (front back : Text) (htext : text = front ++ q :: back)
    (hbody : stringBody q escaping (text ++ q :: rest) = some (front, back ++ q :: rest))
  | there (hbody : stringBody q escaping (text ++ q :: rest) = some (text, rest))
  /-- The last backslash takes the quote that was to close the text. -/
  | after (hclosed : Closed q escaping (text ++ [q]))
    (hlast : (escaping = true ∧ text = []) ∨ text.getLast? = some '\\')
    (hbody : stringBody q escaping (text ++ q :: rest) =
      prepend (text ++ [q]) (stringBody q false rest))

lemma prepend_prepend {r : Option (Text × Text)} :
    prepend [c] (prepend text r) = prepend (c :: text) r := by
  cases r <;> rfl

lemma Ends.cons {next : Bool} (h : Ends q rest next text)
    (hread : ∀ body, stringBody q escaping (c :: body) = prepend [c] (stringBody q next body))
    (hclosed : Closed q next (text ++ [q]) → Closed q escaping (c :: text ++ [q]))
    (hnext : next = true → c = '\\') : Ends q rest escaping (c :: text) := by
  cases h with
  | before front back htext hbody =>
    refine .before (c :: front) back (by rw [htext]; rfl) ?_
    rw [List.cons_append, hread, hbody]
    rfl
  | there hbody =>
    refine .there ?_
    rw [List.cons_append, hread, hbody]
    rfl
  | after h hlast hbody =>
    refine .after (hclosed h) (.inr ?_) ?_
    · rcases hlast with ⟨hnext', rfl⟩ | hlast
      · simp [hnext hnext']
      · simp [List.getLast?_cons, hlast]
    · rw [List.cons_append, hread, hbody, prepend_prepend]
      rfl

lemma stringBody_ends (q : Char) (rest : Text) (escaping : Bool) (text : Text) :
    Ends q rest escaping text := by
  induction text generalizing escaping with
  | nil =>
    cases escaping with
    | true => exact .after rfl (.inl ⟨rfl, rfl⟩) rfl
    | false => exact .there (by simp [stringBody])
  | cons c text ih =>
    cases escaping with
    | true => exact (ih false).cons (fun _ => rfl) (fun h => h) (by simp)
    | false =>
      by_cases hc : c = q
      · subst hc
        exact .before [] text rfl (by simp [stringBody])
      · exact (ih (c == '\\')).cons (fun _ => by rw [stringBody, if_neg hc]) (fun h => ⟨hc, h⟩)
          (by simp)

lemma Closed.of_octal (hc : (octalDigit '7' c).isSome) (h : Closed q false (c :: text)) :
    Closed q false text := by
  have hslash : (c == '\\') = false := by
    cases hslash : c == '\\' with
    | false => rfl
    | true =>
      rw [beq_iff_eq.mp hslash] at hc
      exact absurd hc (by decide)
  simpa [Closed, hslash] using h.2

/-- Read behind a text in which no quote and no backslash is open, the last character stays, or at
least four are lost. -/
lemma unescape_last (hq : q = '\'' ∨ q = '"') (hx : x ≠ '\\') (hxq : x ≠ q)
    (hdigit : octalDigit '7' x = none) (h : Closed q false text) :
    (∃ before, unescape (some q) 0 (text ++ [x, q]) = before ++ [x]) ∨
      (unescape (some q) 0 (text ++ [x, q])).length + 4 ≤ text.length := by
  have hback : q ≠ '\\' := by rcases hq with rfl | rfl <;> decide
  induction hlength : text.length using Nat.strong_induction_on generalizing text with
  | _ n ih =>
    match text with
    | [] => exact .inl ⟨[], by simp [unescape, hx, hxq]⟩
    | c :: text =>
      simp only [List.length_cons] at hlength
      by_cases hc : c = '\\'
      · subst hc
        match text with
        | [] => exact absurd h.2 (by simp [Closed])
        | c2 :: text =>
          have hclosed : Closed q false text := h.2
          obtain ⟨c3, more, hmore⟩ : ∃ c3 more, text ++ [x, q] = c3 :: more :=
            List.exists_cons_of_ne_nil (by simp)
          have hsize : text.length + 1 = more.length := by simpa using congrArg List.length hmore
          simp only [List.length_cons] at hlength
          rw [List.cons_append, unescape_escape hback, List.cons_append, hmore]
          rcases escaped_cases c2 c3 more with hread | ⟨d, hread, h4⟩ |
            ⟨d, d3, more', hread, rfl, hne, hd2, hd3⟩
          · rw [hread, unescape_skip, List.drop_one, List.tail_cons, ← hmore]
            rcases ih text.length (by omega) hclosed rfl with ⟨before, hbefore⟩ | hshort
            · exact .inl ⟨appendEscapedChar c2 ++ before, by simp [hbefore]⟩
            · have := length_appendEscapedChar (c := c2)
              refine .inr ?_
              simp only [List.length_append] at hshort ⊢
              split at this <;> omega
          · have hle := (@length_unescape_quoted q 5 (c2 :: text ++ [x]) hq (by simp; omega)).1
            rw [List.append_assoc, List.cons_append, List.singleton_append, hmore] at hle
            refine .inr ?_
            rw [hread]
            simp only [List.length_append, List.length_cons, List.length_nil] at hle ⊢
            omega
          · match text with
            | [] =>
              obtain rfl : x = c3 := (List.cons.inj hmore).1
              simp [hdigit] at hd2
            | [t2] =>
              obtain rfl : x = d3 := (List.cons.inj (List.cons.inj hmore).2).1
              simp [hdigit] at hd3
            | t2 :: t3 :: text =>
              obtain ⟨rfl, rfl, rfl⟩ : t2 = c3 ∧ t3 = d3 ∧ text ++ [x, q] = more' := by
                simpa using hmore
              rw [hread, unescape_skip]
              rcases ih text.length (by simp at hlength ⊢; omega)
                ((hclosed.of_octal hd2).of_octal hd3) rfl with ⟨before, hbefore⟩ | hshort
              · exact .inl ⟨d :: before, by simpa using hbefore⟩
              · refine .inr ?_
                simp only [List.length_cons] at hlength hshort ⊢
                simp only [List.drop_succ_cons, List.drop_zero, List.cons_append,
                  List.nil_append, List.length_cons]
                omega
      · have hclosed : Closed q false text := by
          rw [Closed, beq_false_of_ne hc] at h
          exact h.2
        rw [List.cons_append, unescape_plain h.1 hc]
        rcases ih text.length (by omega) hclosed rfl with ⟨before, hbefore⟩ | hshort
        · exact .inl ⟨c :: before, by rw [hbefore]; rfl⟩
        · refine .inr ?_
          simp only [List.length_cons] at hshort ⊢
          omega

/-- A text that is put between quotes without its margins, and is read as it was, stands for
itself, if behind the quotes at most one character follows before the next quote. -/
lemma verbatim_of_readString (hq : q = '\'' ∨ q = '"') {after : Text}
    (hafter : ∀ body rest, stringBody q false after = some (body, rest) →
      body = [' '] ∨ body = [','])
    (h : readString (q :: stripFrom none value ++ q :: after) = some (value, rest)) :
    stripFrom none value = value ∧ Verbatim q value ∧ rest = after := by
  have hstrip : (stripFrom none value).length ≤ value.length := by
    simpa using length_stripFrom_le none value
  rw [List.cons_append, readString, if_pos hq] at h
  obtain ⟨⟨body, rest'⟩, hbody, hvalue⟩ := Option.map_eq_some_iff.mp h
  simp only [string_quoted hq, Prod.mk.injEq] at hvalue
  obtain ⟨hvalue, rfl⟩ := hvalue
  have hle := length_unescape_quoted hq (Nat.zero_le body.length)
  rw [hvalue] at hle
  cases stringBody_ends q after false (stripFrom none value) with
  | before front back htext hread =>
    obtain ⟨rfl, -⟩ : front = body ∧ _ := by simpa [hread] using hbody
    have := congrArg List.length htext
    simp only [List.length_append, List.length_cons] at this
    omega
  | there hread =>
    obtain ⟨rfl, rfl⟩ : stripFrom none value = body ∧ after = rest' := by
      simpa [hread] using hbody
    have hverbatim : Verbatim q (stripFrom none value) := hle.2 (by omega)
    rw [unescape_verbatim hq hverbatim (Nat.zero_le _), List.drop_zero] at hvalue
    rw [hvalue] at hverbatim
    exact ⟨hvalue, hverbatim, rfl⟩
  | after hclosed hlast hread =>
    obtain ⟨next, hnext, rfl⟩ := prepend_eq_some.mp (hread.symm.trans hbody)
    obtain ⟨x, rfl, hx⟩ : ∃ x, next = [x] ∧ (x = ' ' ∨ x = ',') := by
      rcases hafter next rest' hnext with rfl | rfl
      · exact ⟨' ', rfl, .inl rfl⟩
      · exact ⟨',', rfl, .inr rfl⟩
    have hcases := unescape_last (x := x) hq (by rcases hx with rfl | rfl <;> decide)
      (by rcases hx with rfl | rfl <;> rcases hq with rfl | rfl <;> decide)
      (by rcases hx with rfl | rfl <;> rfl) hclosed
    have hsplit : stripFrom none value ++ [q] ++ [x, q] =
        stripFrom none value ++ [q] ++ [x] ++ [q] := by simp
    rw [hsplit, hvalue] at hcases
    rcases hcases with ⟨before, hbefore⟩ | hshort
    · obtain ⟨front, hfront⟩ := @stripFrom_concat x before none
        (by rcases hx with rfl | rfl <;> decide)
      rw [hbefore, hfront] at hlast
      rcases hx with rfl | rfl <;> simp at hlast
    · simp only [List.length_append, List.length_cons, List.length_nil] at hshort
      omega

end Moonbox.Parser
