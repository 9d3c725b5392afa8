import Mathlib.Data.Nat.Digits.Defs
import Moonbox.Parser.StringLiterals

/-!
# `unescapeSQLString`

The loop of `ParserUtils.unescapeSQLString` over the code units of a string, with its indices, and
what the escapes of a `STRING` stand for.
-/

namespace Moonbox.Parser.CodeUnits

/-- The code unit of a character that has one. -/
def unit (c : Char) : UInt16 := UInt16.ofNat c.toNat

/-! ### Digits -/

/-- The zeros of the decimal digits with one code unit, in the version 6.2 of Unicode. -/
def decimalZeros : List UInt16 :=
  [0x0030, 0x0660, 0x06F0, 0x07C0, 0x0966, 0x09E6, 0x0A66, 0x0AE6, 0x0B66, 0x0BE6, 0x0C66, 0x0CE6,
    0x0D66, 0x0E50, 0x0ED0, 0x0F20, 0x1040, 0x1090, 0x17E0, 0x1810, 0x1946, 0x19D0, 0x1A80, 0x1A90,
    0x1B50, 0x1BB0, 0x1C40, 0x1C50, 0xA620, 0xA8D0, 0xA900, 0xA9D0, 0xAA50, 0xABF0, 0xFF10]

/-- The letters of ASCII and those of full width -/
def letterAs : List UInt16 := [unit 'A', unit 'a', 0xFF21, 0xFF41]

def offset? (starts : List UInt16) (count : Nat) (c : UInt16) : Option Nat :=
  (starts.find? fun z => z ≤ c ∧ c.toNat - z.toNat < count).map fun z => c.toNat - z.toNat

/-- A digit in base 16, as `Character.digit` takes it -/
def hexValue? (c : UInt16) : Option Nat :=
  offset? decimalZeros 10 c <|> (offset? letterAs 6 c).map (10 + ·)

/-- `Character.digit` in base 16 -/
def digit (c : UInt16) : Int := ((hexValue? c).map Int.ofNat).getD (-1)

def isOctal (most : Char) (c : UInt16) : Bool := unit '0' ≤ c && c ≤ unit most

/-! ### The loop -/

def appendEscapedChar (n : UInt16) : List UInt16 :=
  if n = unit '0' then [0]
  else if n = unit 'b' then [unit '\x08']
  else if n = unit 'n' then [unit '\n']
  else if n = unit 'r' then [unit '\r']
  else if n = unit 't' then [unit '\t']
  else if n = unit 'Z' then [unit '\x1a']
  else if n = unit '%' then [unit '\\', unit '%']
  else if n = unit '_' then [unit '\\', unit '_']
  else [n]

/-- It throws outside of the string. -/
def charAt (b : List UInt16) (i : Nat) : Option UInt16 := b[i]?

/-- At a backslash: what is appended, and how much more the index is moved. -/
def escape (b : List UInt16) (i : Nat) : Option (List UInt16 × Nat) := do
  let isUnicode ← if i + 6 < b.length then (charAt b (i + 1)).map (· == unit 'u') else some false
  if isUnicode then
    let base := i + 2
    let code ← (List.range 4).foldlM (fun (mid : Int) j => do
      let c ← charAt b (j + base)
      some (mid * 16 + digit c)) 0
    some ([UInt16.ofInt code], 5)
  else if i + 4 < b.length then
    let i1 ← charAt b (i + 1)
    let i2 ← charAt b (i + 2)
    let i3 ← charAt b (i + 3)
    if isOctal '1' i1 && isOctal '7' i2 && isOctal '7' i3 then
      some ([(i3 - unit '0') + (i2 - unit '0') * 8 + (i1 - unit '0') * 64], 3)
    else some (appendEscapedChar i1, 1)
  else if i + 2 < b.length then
    let n ← charAt b (i + 1)
    some (appendEscapedChar n, 1)
  else some ([], 0)

structure Scan where
  enclosure : Option UInt16
  sb : List UInt16
  i : Nat

/-- One pass through the loop -/
def pass (b : List UInt16) (s : Scan) : Option Scan := do
  let currentChar ← charAt b s.i
  match s.enclosure with
  | none =>
    if currentChar = unit '\'' ∨ currentChar = unit '"' then
      some { s with enclosure := some currentChar, i := s.i + 1 }
    else some { s with i := s.i + 1 }
  | some enclosure =>
    if enclosure = currentChar then some { s with enclosure := none, i := s.i + 1 }
    else if currentChar = unit '\\' then
      let (appended, moved) ← escape b s.i
      some { s with sb := s.sb ++ appended, i := s.i + moved + 1 }
    else some { s with sb := s.sb ++ [currentChar], i := s.i + 1 }

/-! ### The indices -/

section Indices

variable {b before text : List UInt16} {c n : UInt16} {s s' : Scan}

lemma charAt_append (before text : List UInt16) (k : Nat) :
    charAt (before ++ text) (before.length + k) = text[k]? := by
  rw [charAt, List.getElem?_append_right (Nat.le_add_right _ _), Nat.add_sub_cancel_left]

/-- The escape in what is left of the string after a backslash -/
def escaped : List UInt16 → List UInt16 × Nat
  | n :: x1 :: rest =>
    if n = unit 'u' ∧ 4 ≤ rest.length then
      let code := ((x1 :: rest).take 4).foldl (fun mid c => mid * 16 + digit c) 0
      ([UInt16.ofInt code], 5)
    else
      match rest with
      | x2 :: _ :: _ =>
        if isOctal '1' n && isOctal '7' x1 && isOctal '7' x2 then
          ([(x2 - unit '0') + (x1 - unit '0') * 8 + (n - unit '0') * 64], 3)
        else (appendEscapedChar n, 1)
      | _ => (appendEscapedChar n, 1)
  | _ => ([], 0)

/-- No index is outside of the string. -/
lemma escape_append (before : List UInt16) (c : UInt16) (text : List UInt16) :
    escape (before ++ c :: text) before.length = some (escaped text) := by
  have hat := charAt_append before (c :: text)
  have hbase : ∀ j, j + (before.length + 2) = before.length + (j + 2) := fun j => by omega
  have hlength : (before ++ c :: text).length = before.length + (text.length + 1) := by simp
  unfold escape
  rw [hlength]
  simp only [hat, hbase, Nat.add_lt_add_iff_left]
  match text with
  | [] => rfl
  | [n] => rfl
  | [n, x1] | [n, x1, x2] => simp [escaped]
  | [n, x1, x2, x3] | [n, x1, x2, x3, x4] => simp [escaped, apply_ite some]
  | n :: x1 :: x2 :: x3 :: x4 :: x5 :: more =>
    by_cases hn : n = unit 'u'
    · simp [escaped, hn, List.range_succ]
    · simp [escaped, hn, apply_ite some]

lemma lt_of_pass (h : pass b s = some s') : s.i < s'.i := by
  simp only [pass, Option.bind_eq_bind, Option.bind_eq_some_iff] at h
  obtain ⟨currentChar, -, h⟩ := h
  split at h
  · split at h <;> cases h <;> exact Nat.lt_succ_self _
  · split at h
    · cases h
      exact Nat.lt_succ_self _
    split at h
    · simp only [Option.bind_eq_some_iff, Option.some.injEq] at h
      obtain ⟨⟨appended, moved⟩, -, rfl⟩ := h
      simp only
      omega
    · cases h
      exact Nat.lt_succ_self _

end Indices

/-- `while (i < strLength)` -/
def loop (b : List UInt16) (s : Scan) : Option Scan :=
  if s.i < b.length then
    match _h : pass b s with
    | some s' => loop b s'
    | none => none
  else some s
termination_by b.length - s.i
decreasing_by
  have := lt_of_pass _h
  omega

def unescapeSQLString (b : List UInt16) : Option (List UInt16) :=
  (loop b { enclosure := none, sb := [], i := 0 }).map Scan.sb

section Indices

variable {b before text : List UInt16} {c q : UInt16} {enclosure : Option UInt16} {s s' : Scan}

/-- What is appended for what is left of the string, of which the next `skip` are passed over -/
def unescape (enclosure : Option UInt16) : Nat → List UInt16 → List UInt16
  | _, [] => []
  | skip + 1, _ :: text => unescape enclosure skip text
  | 0, c :: text =>
    match enclosure with
    | none => unescape (if c = unit '\'' ∨ c = unit '"' then some c else none) 0 text
    | some quote =>
      if quote = c then unescape none 0 text
      else if c = unit '\\' then (escaped text).1 ++ unescape enclosure (escaped text).2 text
      else c :: unescape enclosure 0 text

lemma unescape_skip (enclosure : Option UInt16) (skip : Nat) (text : List UInt16) :
    unescape enclosure skip text = unescape enclosure 0 (text.drop skip) := by
  induction text generalizing skip with
  | nil => cases skip <;> simp [unescape]
  | cons c text ih =>
    cases skip with
    | zero => rfl
    | succ skip => rw [unescape, ih, List.drop_succ_cons]

lemma loop_of_le (h : b.length ≤ s.i) : loop b s = some s := by
  rw [loop, if_neg (Nat.not_lt.mpr h)]

lemma loop_of_pass (hlt : s.i < b.length) (h : pass b s = some s') : loop b s = loop b s' := by
  rw [loop, if_pos hlt]
  split
  · simp_all
  · simp_all

/-- One pass reads no further than the string, and appends what its part stands for. -/
lemma pass_append (before : List UInt16) (c : UInt16) (text : List UInt16)
    (enclosure : Option UInt16) (sb : List UInt16) :
    ∃ enclosure' appended moved,
      pass (before ++ c :: text) ⟨enclosure, sb, before.length⟩ =
        some ⟨enclosure', sb ++ appended, before.length + moved + 1⟩ ∧
      unescape enclosure 0 (c :: text) = appended ++ unescape enclosure' moved text := by
  have hat := charAt_append before (c :: text) 0
  simp only [Nat.add_zero, List.getElem?_cons_zero] at hat
  simp only [pass, hat, Option.bind_eq_bind, Option.bind_some, unescape]
  cases enclosure with
  | none =>
    refine ⟨_, [], 0, ?_, rfl⟩
    by_cases hc : c = unit '\'' ∨ c = unit '"' <;> simp [hc]
  | some quote =>
    simp only
    split
    · exact ⟨none, [], 0, by simp, rfl⟩
    split
    · exact ⟨some quote, _, _, by rw [escape_append]; rfl, rfl⟩
    · exact ⟨some quote, [c], 0, rfl, rfl⟩

/-- The loop ends with what the rest of the string stands for. -/
lemma loop_append (before text : List UInt16) (enclosure : Option UInt16) (sb : List UInt16) :
    (loop (before ++ text) ⟨enclosure, sb, before.length⟩).map Scan.sb =
      some (sb ++ unescape enclosure 0 text) := by
  induction hlength : text.length using Nat.strong_induction_on
    generalizing before text enclosure sb with
  | _ n ih =>
    match text with
    | [] => simp [loop_of_le, unescape]
    | c :: text =>
      obtain ⟨enclosure', appended, moved, hpass, hvalue⟩ := pass_append before c text enclosure sb
      rw [loop_of_pass (by simp) hpass, hvalue, unescape_skip, ← List.append_assoc]
      by_cases hmoved : moved ≤ text.length
      · have hbefore : (before ++ c :: text.take moved).length = before.length + moved + 1 := by
          simp [Nat.min_eq_left hmoved]
          omega
        have hsplit : before ++ c :: text = before ++ c :: text.take moved ++ text.drop moved := by
          simp
        rw [← hbefore, hsplit]
        refine ih _ ?_ _ _ _ _ rfl
        simp only [List.length_cons] at hlength
        simp only [List.length_drop]
        omega
      · rw [loop_of_le (by simp; omega), List.drop_eq_nil_of_le (by omega)]
        simp [unescape]

/-- Whatever the string, no index is outside of it. -/
lemma unescapeSQLString_eq (b : List UInt16) : unescapeSQLString b = some (unescape none 0 b) := by
  simpa [unescapeSQLString] using loop_append [] b none []

end Indices

/-! ### What the escapes stand for -/

/-- A piece of the body of a `STRING` -/
inductive Item
  | plain (c : UInt16)
  | unicode (x1 x2 x3 x4 : UInt16)
  | octal (d1 d2 d3 : UInt16)
  | single (c : UInt16)

/-- The escapes of one character that do not stand for the character itself -/
def singles : List (Char × List Char) :=
  [('0', ['\x00']), ('b', ['\x08']), ('n', ['\n']), ('r', ['\r']), ('t', ['\t']), ('Z', ['\x1a']),
    ('%', ['\\', '%']), ('_', ['\\', '_'])]

namespace Item

def text : Item → List UInt16
  | plain c => [c]
  | unicode x1 x2 x3 x4 => [unit '\\', unit 'u', x1, x2, x3, x4]
  | octal d1 d2 d3 => [unit '\\', d1, d2, d3]
  | single c => [unit '\\', c]

def value : Item → List UInt16
  | plain c => [c]
  | unicode x1 x2 x3 x4 =>
    [UInt16.ofNat (Nat.ofDigits 16 ([x4, x3, x2, x1].map fun x => (hexValue? x).getD 0))]
  | octal d1 d2 d3 =>
    [UInt16.ofNat (Nat.ofDigits 8 ([d3, d2, d1].map fun d => d.toNat - (unit '0').toNat))]
  | single c =>
    ((singles.find? fun e => c = unit e.1).map fun e => e.2.map unit).getD [c]

def unicode? : List UInt16 → Option Item
  | u :: x1 :: x2 :: x3 :: x4 :: _ =>
    if u = unit 'u' ∧ [x1, x2, x3, x4].all fun x => (hexValue? x).isSome then
      some (unicode x1 x2 x3 x4)
    else none
  | _ => none

def octal? : List UInt16 → Option Item
  | d1 :: d2 :: d3 :: _ =>
    if isOctal '1' d1 && isOctal '7' d2 && isOctal '7' d3 then some (octal d1 d2 d3) else none
  | _ => none

def single? : List UInt16 → Option Item
  | c :: _ => some (single c)
  | [] => none

/-- The escape after a backslash -/
def escape? (text : List UInt16) : Option Item := unicode? text <|> octal? text <|> single? text

end Item

/-- The pieces of a body, after the next `skip` code units -/
def items : Nat → List UInt16 → List Item
  | _, [] => []
  | skip + 1, _ :: text => items skip text
  | 0, c :: text =>
    match if c = unit '\\' then Item.escape? text else none with
    | some item => item :: items (item.text.length - 1) text
    | none => .plain c :: items 0 text

/-- The body with each piece replaced by what it stands for, wherever it is -/
def decode (body : List UInt16) : List UInt16 := (items 0 body).flatMap Item.value

/-- The body of a `STRING` between two quotes -/
inductive IsBody (quote : UInt16) : List UInt16 → Prop
  | nil : IsBody quote []
  | plain {c : UInt16} {text : List UInt16} (hc : c ≠ quote) (hback : c ≠ unit '\\')
    (htext : IsBody quote text) : IsBody quote (c :: text)
  | escape {text : List UInt16} (c : UInt16) (htext : IsBody quote text) :
    IsBody quote (unit '\\' :: c :: text)

structure StringToken where
  quote : UInt16
  body : List UInt16
  isQuote : quote = unit '\'' ∨ quote = unit '"'
  isBody : IsBody quote body

def StringToken.text (t : StringToken) : List UInt16 := t.quote :: t.body ++ [t.quote]

/-- Each `u` after a backslash, with four characters behind it, has four digits there. -/
def WellEscaped (pieces : List Item) : Prop :=
  ∀ before after, pieces = before ++ .single (unit 'u') :: after →
    (after.flatMap Item.text).length < 4

/-! ### Digits and single characters -/

section Values

variable {c n q x x1 x2 x3 x4 d1 d2 d3 : UInt16} {text rest : List UInt16} {starts : List UInt16}
  {count v : Nat}

lemma lt_of_offset? (h : offset? starts count c = some v) : v < count := by
  obtain ⟨z, hz, rfl⟩ := Option.map_eq_some_iff.mp h
  have hfound := List.find?_some hz
  simp only [decide_eq_true_eq] at hfound
  exact hfound.2

lemma hexValue?_lt (h : hexValue? c = some v) : v < 16 := by
  simp only [hexValue?, Option.orElse_eq_orElse, Option.orElse_eq_or, Option.or_eq_some_iff] at h
  rcases h with h | ⟨-, h⟩
  · have := lt_of_offset? h
    omega
  · obtain ⟨w, hw, rfl⟩ := Option.map_eq_some_iff.mp h
    have := lt_of_offset? hw
    omega

lemma digit_of_some (h : hexValue? c = some v) : digit c = v := by
  rw [digit, h]
  rfl

lemma digit_eq (c : UInt16) :
    (hexValue? c = none ∧ digit c = -1) ∨ ∃ v < 16, hexValue? c = some v ∧ digit c = v := by
  cases h : hexValue? c with
  | none => exact .inl ⟨rfl, by simp [digit, h]⟩
  | some v => exact .inr ⟨v, hexValue?_lt h, rfl, digit_of_some h⟩

lemma toNat_ofInt (x : Int) : ((UInt16.ofInt x).toNat : Int) = x % 65536 := by
  have hnonneg : 0 ≤ x % 65536 := Int.emod_nonneg _ (by decide)
  have hlt : x % 65536 < 65536 := Int.emod_lt_of_pos _ (by decide)
  rw [UInt16.ofInt, UInt16.toNat_ofNat']
  omega

/-- A character that is no digit makes another character than `u`. -/
lemma ofInt_code_ne (h : ¬∀ x ∈ [x1, x2, x3, x4], (hexValue? x).isSome) :
    UInt16.ofInt ([x1, x2, x3, x4].foldl (fun mid c => mid * 16 + digit c) 0) ≠ unit 'u' := by
  intro heq
  have hmod := toNat_ofInt ([x1, x2, x3, x4].foldl (fun mid c => mid * 16 + digit c) 0)
  have hu : (unit 'u').toNat = 117 := rfl
  rw [heq, hu] at hmod
  simp only [List.foldl_cons, List.foldl_nil] at hmod
  have hbound : ∀ x, -1 ≤ digit x ∧ digit x < 16 := by
    intro x
    rcases digit_eq x with ⟨-, hx⟩ | ⟨v, hv, -, hx⟩ <;> rw [hx] <;> omega
  have hsome : ∀ x, digit x ≠ -1 → (hexValue? x).isSome := by
    intro x hne
    rcases digit_eq x with ⟨-, hx⟩ | ⟨v, -, hx, -⟩
    · exact absurd hx hne
    · rw [hx]
      rfl
  have h1 := hbound x1
  have h2 := hbound x2
  have h3 := hbound x3
  have h4 := hbound x4
  refine h ?_
  simp only [List.forall_mem_cons, List.not_mem_nil, false_implies, implies_true, and_true]
  exact ⟨hsome x1 (by omega), hsome x2 (by omega), hsome x3 (by omega), hsome x4 (by omega)⟩

lemma ofInt_code_eq (h : ∀ x ∈ [x1, x2, x3, x4], (hexValue? x).isSome) :
    [UInt16.ofInt ([x1, x2, x3, x4].foldl (fun mid c => mid * 16 + digit c) 0)] =
      (Item.unicode x1 x2 x3 x4).value := by
  simp only [List.forall_mem_cons, Option.isSome_iff_exists] at h
  obtain ⟨⟨v1, hv1⟩, ⟨v2, hv2⟩, ⟨v3, hv3⟩, ⟨v4, hv4⟩, -⟩ := h
  have hlt1 := hexValue?_lt hv1
  have hlt2 := hexValue?_lt hv2
  have hlt3 := hexValue?_lt hv3
  have hlt4 := hexValue?_lt hv4
  simp only [Item.value, List.map_cons, List.map_nil, List.foldl_cons, List.foldl_nil,
    digit_of_some hv1, digit_of_some hv2, digit_of_some hv3, digit_of_some hv4, hv1, hv2, hv3, hv4,
    Option.getD_some, Nat.ofDigits_cons, Nat.ofDigits_nil, List.cons.injEq, and_true]
  rw [← UInt16.toNat_inj]
  zify
  rw [toNat_ofInt, UInt16.toNat_ofNat']
  push_cast
  omega

lemma octal_value (h : (isOctal '1' d1 && isOctal '7' d2 && isOctal '7' d3) = true) :
    [(d3 - unit '0') + (d2 - unit '0') * 8 + (d1 - unit '0') * 64] =
      (Item.octal d1 d2 d3).value := by
  simp only [isOctal, Bool.and_eq_true, decide_eq_true_eq] at h
  obtain ⟨⟨⟨h1, h1'⟩, h2, h2'⟩, h3, h3'⟩ := h
  simp only [Item.value, List.map_cons, List.map_nil, Nat.ofDigits_cons, Nat.ofDigits_nil,
    List.cons.injEq, and_true]
  rw [← UInt16.toNat_inj]
  simp only [UInt16.toNat_add, UInt16.toNat_mul, UInt16.toNat_sub_of_le _ _ h1,
    UInt16.toNat_sub_of_le _ _ h2, UInt16.toNat_sub_of_le _ _ h3, UInt16.toNat_ofNat']
  simp only [UInt16.reduceToNat]
  omega

lemma single_value (n : UInt16) : appendEscapedChar n = (Item.single n).value := by
  unfold appendEscapedChar
  split_ifs
  case neg => simp [Item.value, singles, *]
  all_goals
    subst n
    rfl

end Values

/-! ### Pieces -/

section Pieces

variable {c n q x1 x2 x3 x4 : UInt16} {text rest : List UInt16} {item : Item} {its : List Item}

lemma items_skip (skip : Nat) (text : List UInt16) :
    items skip text = items 0 (text.drop skip) := by
  induction text generalizing skip with
  | nil => cases skip <;> simp [items]
  | cons c text ih =>
    cases skip with
    | zero => rfl
    | succ skip => rw [items, ih, List.drop_succ_cons]

lemma items_plain (hc : c ≠ unit '\\') : items 0 (c :: text) = .plain c :: items 0 text := by
  simp [items, hc]

lemma items_escape (h : Item.escape? text = some item) :
    items 0 (unit '\\' :: text) = item :: items 0 (text.drop (item.text.length - 1)) := by
  rw [items, if_pos rfl, h, ← items_skip]

lemma Item.text_of_escape? (h : escape? text = some item) :
    unit '\\' :: text = item.text ++ text.drop (item.text.length - 1) := by
  simp only [escape?, Option.orElse_eq_orElse, Option.orElse_eq_or, Option.or_eq_some_iff] at h
  rcases h with h | ⟨-, h | ⟨-, h⟩⟩
  · unfold unicode? at h
    split at h
    · split at h
      · rename_i hu
        cases h
        rw [hu.1]
        rfl
      · cases h
    · cases h
  · unfold octal? at h
    split at h
    · split at h
      · cases h
        rfl
      · cases h
    · cases h
  · cases text with
    | nil => cases h
    | cons c text =>
      cases h
      rfl

/-- The pieces are the body. -/
lemma flatMap_text_items (text : List UInt16) : (items 0 text).flatMap Item.text = text := by
  induction hlength : text.length using Nat.strong_induction_on generalizing text with
  | _ n ih =>
    match text with
    | [] => rfl
    | c :: text =>
      simp only [List.length_cons] at hlength
      have hplain : (Item.plain c :: items 0 text).flatMap Item.text = c :: text := by
        rw [List.flatMap_cons, ih text.length (by omega) text rfl]
        rfl
      by_cases hc : c = unit '\\'
      · subst hc
        cases h : Item.escape? text with
        | none => simpa [items, h] using hplain
        | some item =>
          rw [items_escape h, List.flatMap_cons, ih _ ?_ _ rfl, ← Item.text_of_escape? h]
          simp only [List.length_drop]
          omega
      · rw [items_plain hc, hplain]

lemma wellEscaped_cons : WellEscaped (item :: its) ↔
    (item = .single (unit 'u') → (its.flatMap Item.text).length < 4) ∧ WellEscaped its := by
  constructor
  · intro h
    refine ⟨fun hitem => h [] its (by rw [hitem]; rfl), fun before after heq => ?_⟩
    exact h (item :: before) after (by rw [heq]; rfl)
  · rintro ⟨hitem, h⟩ before after heq
    cases before with
    | nil =>
      obtain ⟨rfl, rfl⟩ := List.cons.inj heq
      exact hitem rfl
    | cons first before => exact h before after (List.cons.inj heq).2

lemma IsBody.of_ne (h : IsBody q (c :: text)) (hc : c ≠ unit '\\') : c ≠ q ∧ IsBody q text := by
  cases h with
  | plain hq _ htext => exact ⟨hq, htext⟩
  | escape => exact absurd rfl hc

lemma ne_of_isOctal {most : Char} (hmost : most = '1' ∨ most = '7') (h : isOctal most c = true) :
    c ≠ unit '\\' := by
  rintro rfl
  rcases hmost with rfl | rfl <;> exact absurd h (by decide)

lemma ne_of_hexValue? (h : (hexValue? c).isSome) : c ≠ unit '\\' := by
  rintro rfl
  exact absurd h (by decide)

end Pieces

/-! ### Tokens -/

section Tokens

variable {c n q d2 d3 : UInt16} {text rest : List UInt16} {item : Item}

lemma escaped_unicode (x1 x2 x3 x4 : UInt16) (rest : List UInt16) :
    escaped (unit 'u' :: x1 :: x2 :: x3 :: x4 :: (rest ++ [q])) =
      ([UInt16.ofInt ([x1, x2, x3, x4].foldl (fun mid c => mid * 16 + digit c) 0)], 5) := by
  simp [escaped]

/-- Three digits are read up to the end of the body, before the quote. -/
lemma escaped_digits (hu : ¬(n = unit 'u' ∧ 4 ≤ (d2 :: d3 :: rest).length)) :
    escaped (n :: (d2 :: d3 :: rest ++ [q])) =
      if isOctal '1' n && isOctal '7' d2 && isOctal '7' d3 then ((Item.octal n d2 d3).value, 3)
      else ((Item.single n).value, 1) := by
  obtain ⟨x, more, hmore⟩ : ∃ x more, rest ++ [q] = x :: more :=
    List.exists_cons_of_ne_nil (by simp)
  have hlength : rest.length = more.length := by simpa using congrArg List.length hmore
  have hu' : ¬(n = unit 'u' ∧ 4 ≤ (d3 :: x :: more).length) := by
    simpa [hlength] using hu
  simp only [List.cons_append, hmore, escaped, if_neg hu', single_value]
  split
  · rw [octal_value ‹_›]
  · rfl

lemma escaped_octal (hu : ¬(n = unit 'u' ∧ 4 ≤ rest.length))
    (h : Item.octal? (n :: rest) = some item) :
    escaped (n :: (rest ++ [q])) = (item.value, 3) := by
  match rest with
  | [] | [d2] => cases h
  | d2 :: d3 :: rest =>
    rw [escaped_digits hu]
    simp only [Item.octal?] at h
    split at h
    · cases h
      rw [if_pos ‹_›]
    · cases h

lemma escaped_single (hu : ¬(n = unit 'u' ∧ 4 ≤ rest.length))
    (h : Item.octal? (n :: rest) = none) :
    escaped (n :: (rest ++ [q])) = ((Item.single n).value, 1) := by
  match rest with
  | [] | [d2] => simp [escaped, single_value]
  | d2 :: d3 :: rest =>
    rw [escaped_digits hu]
    simp only [Item.octal?] at h
    split at h
    · cases h
    · rw [if_neg ‹_›]

lemma IsBody.of_octal (h : IsBody q rest) (hitem : Item.octal? (n :: rest) = some item) :
    item.text.length - 1 = 3 ∧ 2 ≤ rest.length ∧ IsBody q (rest.drop 2) := by
  match rest with
  | [] | [d2] => cases hitem
  | d2 :: d3 :: rest =>
    simp only [Item.octal?] at hitem
    split at hitem
    · rename_i hdigits
      simp only [Bool.and_eq_true] at hdigits
      cases hitem
      have h2 := (h.of_ne (ne_of_isOctal (.inr rfl) hdigits.1.2)).2
      exact ⟨rfl, by simp, (h2.of_ne (ne_of_isOctal (.inr rfl) hdigits.2)).2⟩
    · cases hitem

lemma escape?_of_digits {x1 x2 x3 x4 : UInt16} (h : ∀ x ∈ [x1, x2, x3, x4], (hexValue? x).isSome) :
    Item.escape? (unit 'u' :: x1 :: x2 :: x3 :: x4 :: rest) = some (.unicode x1 x2 x3 x4) := by
  simp only [Item.escape?, Item.unicode?, true_and, if_pos (List.all_eq_true.mpr h)]
  rfl

lemma escape?_of_not_digits {x1 x2 x3 x4 : UInt16}
    (h : ¬∀ x ∈ [x1, x2, x3, x4], (hexValue? x).isSome) :
    Item.escape? (unit 'u' :: x1 :: x2 :: x3 :: x4 :: rest) = some (.single (unit 'u')) := by
  have hunicode : Item.unicode? (unit 'u' :: x1 :: x2 :: x3 :: x4 :: rest) = none := by
    rw [Item.unicode?, if_neg (fun hu => h (List.all_eq_true.mp hu.2))]
  simp only [Item.escape?, hunicode]
  rfl

/-- The digits are none of the characters of the body that need a backslash. -/
lemma IsBody.of_digits {x1 x2 x3 x4 : UInt16} (h : IsBody q (x1 :: x2 :: x3 :: x4 :: rest))
    (hhex : ∀ x ∈ [x1, x2, x3, x4], (hexValue? x).isSome) : IsBody q rest := by
  have hback : ∀ x ∈ [x1, x2, x3, x4], x ≠ unit '\\' := fun x hx => ne_of_hexValue? (hhex x hx)
  simp only [List.forall_mem_cons] at hback
  obtain ⟨h1, h2, h3, h4, -⟩ := hback
  exact ((((h.of_ne h1).2.of_ne h2).2.of_ne h3).2.of_ne h4).2

lemma unicode?_eq_none (hu : ¬(n = unit 'u' ∧ 4 ≤ rest.length)) :
    Item.unicode? (n :: rest) = none := by
  unfold Item.unicode?
  split
  · rename_i heq
    obtain ⟨rfl, rfl⟩ := List.cons.inj heq
    rw [if_neg fun hn => hu ⟨hn.1, by simp⟩]
  · rfl

/-- Read up to the quote at its end, a body is what its pieces stand for, unless a `u` takes four
characters that are no digits. -/
lemma unescape_body_iff (hq : q ≠ unit '\\') (h : IsBody q text) :
    unescape (some q) 0 (text ++ [q]) = decode text ↔ WellEscaped (items 0 text) := by
  induction hlength : text.length using Nat.strong_induction_on generalizing text with
  | _ n ih =>
    cases h with
    | nil => simp [unescape, decode, items, WellEscaped]
    | @plain c text hc hback htext =>
      simp only [List.length_cons] at hlength
      have hread : unescape (some q) 0 (c :: text ++ [q]) =
          c :: unescape (some q) 0 (text ++ [q]) := by
        simp [unescape, hback, hc.symm]
      rw [hread, decode, items_plain hback, wellEscaped_cons]
      simpa [Item.value, decode] using ih text.length (by omega) htext rfl
    | @escape rest c hrest =>
      simp only [List.length_cons] at hlength
      have hread : unescape (some q) 0 (unit '\\' :: c :: rest ++ [q]) =
          (escaped (c :: (rest ++ [q]))).1 ++
            unescape (some q) 0 ((c :: (rest ++ [q])).drop (escaped (c :: (rest ++ [q]))).2) := by
        rw [← unescape_skip]
        simp [unescape, hq]
      rw [hread]
      by_cases hu : c = unit 'u' ∧ 4 ≤ rest.length
      · obtain ⟨rfl, h4⟩ := hu
        match rest, h4 with
        | x1 :: x2 :: x3 :: x4 :: rest, _ =>
          simp only [List.cons_append, escaped_unicode]
          change [UInt16.ofInt ([x1, x2, x3, x4].foldl (fun mid c => mid * 16 + digit c) 0)] ++ _ =
            _ ↔ _
          by_cases hhex : ∀ x ∈ [x1, x2, x3, x4], (hexValue? x).isSome
          · have hih := ih rest.length (by simp at hlength; omega) (hrest.of_digits hhex) rfl
            rw [ofInt_code_eq hhex, decode, items_escape (escape?_of_digits hhex), wellEscaped_cons]
            simpa [decode, Item.text] using hih
          · rw [decode, items_escape (escape?_of_not_digits hhex), wellEscaped_cons]
            refine iff_of_false (fun heq => ?_) fun h => ?_
            · exact ofInt_code_ne hhex (List.cons.inj heq).1
            · have hshort := h.1 rfl
              rw [flatMap_text_items] at hshort
              exact absurd hshort (by simp [Item.text])
      · have hunicode := unicode?_eq_none hu
        cases hoctal : Item.octal? (c :: rest) with
        | some item =>
          have hitem : Item.escape? (c :: rest) = some item := by
            simp [Item.escape?, hunicode, hoctal]
          obtain ⟨htext, h2, hbody⟩ := hrest.of_octal hoctal
          have hne : item ≠ .single (unit 'u') := by
            rintro rfl
            cases htext
          rw [escaped_octal hu hoctal, decode, items_escape hitem, htext, wellEscaped_cons]
          have hih := ih (rest.drop 2).length (by simp; omega) hbody rfl
          simpa [decode, hne, List.drop_append_of_le_length h2] using hih
        | none =>
          have hitem : Item.escape? (c :: rest) = some (.single c) := by
            simp [Item.escape?, hunicode, hoctal, Item.single?]
          have hdrop : (c :: rest).drop ((Item.single c).text.length - 1) = rest := rfl
          have hshort : c = unit 'u' → rest.length < 4 :=
            fun hc => Nat.lt_of_not_le fun h4 => hu ⟨hc, h4⟩
          rw [escaped_single hu hoctal, decode, items_escape hitem, hdrop, wellEscaped_cons,
            flatMap_text_items]
          simpa [decode, and_iff_right hshort] using ih rest.length (by omega) hrest rfl

/-- The value of a `STRING` is the one that its escapes stand for exactly if each `u` after a
backslash that has four characters behind it has four digits there. No index is outside of any
string. -/
theorem unescapeSQLString_eq_decode_iff (token : StringToken) :
    (∃ value, unescapeSQLString token.text = some value) ∧
      (unescapeSQLString token.text = some (decode token.body) ↔
        WellEscaped (items 0 token.body)) := by
  refine ⟨⟨_, unescapeSQLString_eq _⟩, ?_⟩
  have hopen : unescape none 0 token.text =
      unescape (some token.quote) 0 (token.body ++ [token.quote]) := by
    rw [StringToken.text, List.cons_append, unescape, if_pos token.isQuote]
  have hquote : token.quote ≠ unit '\\' := by
    rcases token.isQuote with hq | hq <;> rw [hq] <;> decide
  rw [unescapeSQLString_eq, hopen, Option.some.injEq]
  exact unescape_body_iff hquote token.isBody

end Tokens

/-- Of the digits of `'\uzzzz'` none is looked at. -/
theorem unescapeSQLString_fails :
    ¬∀ token : StringToken, unescapeSQLString token.text = some (decode token.body) := by
  intro h
  have hz : unit 'z' ≠ unit '\'' ∧ unit 'z' ≠ unit '\\' := by decide
  have hbody : IsBody (unit '\'') [unit '\\', unit 'u', unit 'z', unit 'z', unit 'z', unit 'z'] :=
    .escape _ (.plain hz.1 hz.2 (.plain hz.1 hz.2 (.plain hz.1 hz.2 (.plain hz.1 hz.2 .nil))))
  have hread : unescapeSQLString ("'\\uzzzz'".toList.map unit) =
      some (decode ("\\uzzzz".toList.map unit)) := h ⟨unit '\'', _, .inl rfl, hbody⟩
  rw [unescapeSQLString_eq] at hread
  exact absurd hread (by decide +kernel)

/-! ### Characters -/

section Characters

open ParserUtils (string hexDigit octalDigit)

variable {c quote : Char} {text : Text} {enclosure : Option Char} {skip : Nat}

lemma digit_unit (hc : c.toNat < 128) : digit (unit c) = hexDigit c := by
  have hall : ∀ n < 128, digit (unit (Char.ofNat n)) = hexDigit (Char.ofNat n) := by decide +kernel
  simpa using hall c.toNat hc

lemma isOctal_unit {most : Char} (hmost : most = '1' ∨ most = '7') (hc : c.toNat < 128) :
    isOctal most (unit c) = (octalDigit most c).isSome := by
  have hall : ∀ n < 128,
      isOctal '1' (unit (Char.ofNat n)) = (octalDigit '1' (Char.ofNat n)).isSome ∧
      isOctal '7' (unit (Char.ofNat n)) = (octalDigit '7' (Char.ofNat n)).isSome := by
    decide +kernel
  rcases hmost with rfl | rfl
  · simpa using (hall c.toNat hc).1
  · simpa using (hall c.toNat hc).2

lemma appendEscapedChar_unit (hc : c.toNat < 128) :
    appendEscapedChar (unit c) = (ParserUtils.appendEscapedChar c).map unit := by
  have hall : ∀ n < 128, appendEscapedChar (unit (Char.ofNat n)) =
      (ParserUtils.appendEscapedChar (Char.ofNat n)).map unit := by
    decide +kernel
  simpa using hall c.toNat hc

lemma unit_eq_iff {d : Char} (hc : c.toNat < 128) (hd : d.toNat < 128) :
    unit c = unit d ↔ c = d := by
  rw [← UInt16.toNat_inj, unit, unit, UInt16.toNat_ofNat_of_lt' (Nat.lt_trans hc (by decide)),
    UInt16.toNat_ofNat_of_lt' (Nat.lt_trans hd (by decide)), Char.toNat_inj]

/-- Half of a pair for a character with two code units -/
def IsHalf (x : UInt16) : Prop := 0xD800 ≤ x ∧ x < 0xE000

lemma unit_ofNat {n : Nat} (hn : n < 65536) (h : ¬IsHalf (UInt16.ofNat n)) :
    unit (Char.ofNat n) = UInt16.ofNat n := by
  have hvalid : n.isValidChar := by
    simp [IsHalf, UInt16.le_iff_toNat_le, UInt16.lt_iff_toNat_lt] at h
    unfold Nat.isValidChar
    omega
  have hnat : (Char.ofNat n).toNat = n := by
    rw [Char.ofNat, dif_pos hvalid]
    rfl
  rw [unit, hnat]

lemma foldl_digit_unit (h : ∀ c ∈ text, c.toNat < 128) (mid : Int) :
    (text.map unit).foldl (fun mid c => mid * 16 + digit c) mid =
      text.foldl (fun mid c => mid * 16 + hexDigit c) mid := by
  induction text generalizing mid with
  | nil => rfl
  | cons c text ih =>
    rw [List.forall_mem_cons] at h
    rw [List.map_cons, List.foldl_cons, List.foldl_cons, digit_unit h.1, ih h.2]

lemma octalDigit_some {most : Char} {d : Nat} (hc : c.toNat < 128)
    (h : octalDigit most c = some d) : d = (unit c).toNat - (unit '0').toNat ∧ d < 128 := by
  rw [octalDigit] at h
  split at h
  · obtain rfl := Option.some.inj h
    rw [unit, UInt16.toNat_ofNat_of_lt' (Nat.lt_trans hc (by decide))]
    exact ⟨rfl, Nat.lt_of_le_of_lt (Nat.sub_le _ _) hc⟩
  · cases h

/-- Three octal digits are read alike as characters and as code units. -/
lemma octal_value_unit {c1 c2 c3 : Char} {d1 d2 d3 : Nat} (hc1 : c1.toNat < 128)
    (hc2 : c2.toNat < 128) (hc3 : c3.toNat < 128) (h1 : octalDigit '1' c1 = some d1)
    (h2 : octalDigit '7' c2 = some d2) (h3 : octalDigit '7' c3 = some d3)
    (hvalue : ∀ x ∈ (Item.octal (unit c1) (unit c2) (unit c3)).value, ¬IsHalf x) :
    (Item.octal (unit c1) (unit c2) (unit c3)).value =
      [Char.ofNat (64 * d1 + 8 * d2 + d3)].map unit := by
  obtain ⟨rfl, hlt1⟩ := octalDigit_some hc1 h1
  obtain ⟨rfl, hlt2⟩ := octalDigit_some hc2 h2
  obtain ⟨rfl, hlt3⟩ := octalDigit_some hc3 h3
  have hdigits : Nat.ofDigits 8 ([unit c3, unit c2, unit c1].map
      fun d => d.toNat - (unit '0').toNat) = 64 * ((unit c1).toNat - (unit '0').toNat) +
        8 * ((unit c2).toNat - (unit '0').toNat) + ((unit c3).toNat - (unit '0').toNat) := by
    simp only [List.map_cons, List.map_nil, Nat.ofDigits_cons, Nat.ofDigits_nil]
    omega
  simp only [Item.value, hdigits] at hvalue ⊢
  have hunit := unit_ofNat (by omega) (hvalue _ (List.mem_singleton_self _))
  rw [List.map_singleton, hunit]

/-- The characters of ASCII are read as their code units are, as long as no escape makes half of a
pair. -/
lemma escaped_unit (hascii : ∀ c ∈ text, c.toNat < 128)
    (hvalue : ∀ x ∈ (escaped (text.map unit)).1, ¬IsHalf x) :
    escaped (text.map unit) =
      ((ParserUtils.escaped text).1.map unit, (ParserUtils.escaped text).2) := by
  obtain _ | ⟨c, _ | ⟨c2, text⟩⟩ := text
  · rfl
  · rfl
  · simp only [List.forall_mem_cons] at hascii
    obtain ⟨hc, hc2, htext⟩ := hascii
    have hu : unit c = unit 'u' ↔ c = 'u' := unit_eq_iff hc (by decide)
    simp only [List.map_cons, escaped, ParserUtils.escaped, hu, List.length_map] at hvalue ⊢
    by_cases hunicode : c = 'u' ∧ 4 ≤ text.length
    · have hmore : ∀ c ∈ c2 :: text, c.toNat < 128 := by simpa [hc2] using htext
      have htake : ∀ c ∈ (c2 :: text).take 4, c.toNat < 128 :=
        fun c hmem => hmore c (List.mem_of_mem_take hmem)
      simp only [if_pos hunicode, ← List.map_cons, ← List.map_take,
        foldl_digit_unit htake] at hvalue ⊢
      have hunit := unit_ofNat (by omega) (hvalue _ (List.mem_singleton_self _))
      exact congrArg (fun x => ([x], 5)) hunit.symm
    · simp only [if_neg hunicode] at hvalue ⊢
      obtain _ | ⟨c3, _ | ⟨c4, text⟩⟩ := text
      · simp [appendEscapedChar_unit hc]
      · simp [appendEscapedChar_unit hc]
      · simp only [List.forall_mem_cons] at htext
        simp only [List.map_cons, isOctal_unit (.inl rfl) hc, isOctal_unit (.inr rfl) hc2,
          isOctal_unit (.inr rfl) htext.1, appendEscapedChar_unit hc] at hvalue ⊢
        cases h1 : octalDigit '1' c with
        | none => simp
        | some d1 =>
          cases h2 : octalDigit '7' c2 with
          | none => simp
          | some d2 =>
            cases h3 : octalDigit '7' c3 with
            | none => simp
            | some d3 =>
              have hoctal : (isOctal '1' (unit c) && isOctal '7' (unit c2) &&
                  isOctal '7' (unit c3)) = true := by
                simp [isOctal_unit (.inl rfl) hc, isOctal_unit (.inr rfl) hc2,
                  isOctal_unit (.inr rfl) htext.1, h1, h2, h3]
              simp only [h1, h2, h3, Option.isSome_some, Bool.and_self, if_true,
                octal_value hoctal] at hvalue ⊢
              rw [octal_value_unit hc hc2 htext.1 h1 h2 h3 hvalue]

lemma unescape_unit (hascii : ∀ c ∈ text, c.toNat < 128)
    (hvalue : ∀ x ∈ unescape (enclosure.map unit) skip (text.map unit), ¬IsHalf x)
    (hquote : ∀ q ∈ enclosure, q.toNat < 128) :
    unescape (enclosure.map unit) skip (text.map unit) =
      (ParserUtils.unescape enclosure skip text).map unit := by
  induction text generalizing enclosure skip with
  | nil => simp [unescape, ParserUtils.unescape]
  | cons c text ih =>
    obtain ⟨hc, htext⟩ := List.forall_mem_cons.mp hascii
    cases skip with
    | succ skip => exact ih htext hvalue hquote
    | zero =>
      have hback : unit c = unit '\\' ↔ c = '\\' := unit_eq_iff hc (by decide)
      cases enclosure with
      | none =>
        have hsingle : unit c = unit '\'' ↔ c = '\'' := unit_eq_iff hc (by decide)
        have hdouble : unit c = unit '"' ↔ c = '"' := unit_eq_iff hc (by decide)
        have henclosure : (if unit c = unit '\'' ∨ unit c = unit '"' then some (unit c) else none) =
            (if c = '\'' ∨ c = '"' then some c else none).map unit := by
          simp only [hsingle, hdouble]
          split <;> rfl
        simp only [List.map_cons, Option.map_none, unescape, henclosure] at hvalue ⊢
        refine ih htext hvalue fun q hq => ?_
        split at hq
        · cases hq
          exact hc
        · cases hq
      | some q =>
        have hq : unit q = unit c ↔ c = q := (unit_eq_iff (hquote q rfl) hc).trans eq_comm
        simp only [List.map_cons, Option.map_some, unescape, ParserUtils.unescape, hq, hback]
          at hvalue ⊢
        by_cases hclosed : c = q
        · simp only [if_pos hclosed] at hvalue ⊢
          exact @ih none 0 htext hvalue (by simp)
        · simp only [if_neg hclosed] at hvalue ⊢
          by_cases hescape : c = '\\'
          · simp only [if_pos hescape, List.forall_mem_append] at hvalue ⊢
            have hescaped := escaped_unit htext hvalue.1
            rw [hescaped] at hvalue ⊢
            rw [List.map_append]
            exact congrArg _ (@ih (some q) _ htext hvalue.2 hquote)
          · simp only [if_neg hescape, List.forall_mem_cons] at hvalue ⊢
            exact congrArg _ (@ih (some q) 0 htext hvalue.2 hquote)

/-- `ParserUtils.string` reads what the loop reads. -/
lemma unescapeSQLString_map_unit (hascii : ∀ c ∈ text, c.toNat < 128)
    (hvalue : ∀ value ∈ unescapeSQLString (text.map unit), ∀ x ∈ value, ¬IsHalf x) :
    unescapeSQLString (text.map unit) = some ((string text).map unit) := by
  rw [unescapeSQLString_eq] at hvalue ⊢
  exact congrArg some (@unescape_unit text none 0 hascii (hvalue _ rfl) (by simp))

end Characters

end Moonbox.Parser.CodeUnits
