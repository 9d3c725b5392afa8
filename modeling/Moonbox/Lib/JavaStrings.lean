import Mathlib.Data.List.DropRight
import Mathlib.Data.List.Infix
import Mathlib.Tactic.Lemma

/-!
# Strings of Java

Methods of Java's and Scala's strings, on lists of characters.
-/

namespace JavaStrings

/-- What `trim` takes away. -/
def isTrimmed (c : Char) : Bool := c.toNat ≤ 32

def trim (text : List Char) : List Char := (text.rdropWhile isTrimmed).dropWhile isTrimmed

/-- What stands around the trimmed text. -/
lemma exists_trim (text : List Char) : ∃ pre post, text = pre ++ trim text ++ post ∧
    (∀ c ∈ pre, isTrimmed c = true) ∧ ∀ c ∈ post, isTrimmed c = true := by
  refine ⟨(text.rdropWhile isTrimmed).takeWhile isTrimmed, text.rtakeWhile isTrimmed, ?_,
    fun c hc => List.mem_takeWhile_imp hc, fun c hc => List.mem_rtakeWhile_imp hc⟩
  rw [trim, List.takeWhile_append_dropWhile, List.rdropWhile_append_rtakeWhile]

lemma trim_infix (text : List Char) : trim text <:+: text :=
  (List.dropWhile_suffix _).isInfix.trans (List.rdropWhile_prefix _ _).isInfix

lemma trim_trim (text : List Char) : trim (trim text) = trim text := by
  have hright : (trim text).rdropWhile isTrimmed = trim text := by
    refine List.rdropWhile_eq_self_iff.mpr fun hne => ?_
    have hsuffix : trim text <:+ text.rdropWhile isTrimmed := List.dropWhile_suffix _
    rw [hsuffix.getLast hne]
    exact List.rdropWhile_last_not _ _ _
  unfold trim at hright ⊢
  rw [hright, List.dropWhile_idempotent]

def stripPrefix (c : Char) (text : List Char) : List Char :=
  if text.head? = some c then text.tail else text

def stripSuffix (c : Char) (text : List Char) : List Char :=
  if text.getLast? = some c then text.dropLast else text

/-! ### Margins -/

def isLineBreak (c : Char) : Bool := c = '\n' || c = '\x0c'

/-- At the beginning of a line, with the blanks that were read of it, or in it. -/
abbrev LineState := Option (List Char)

/-- `stripMargin`: a `|` that is the first on its line goes, with the blanks before it. -/
def stripFrom : LineState → List Char → List Char
  | none, [] => []
  | some blanks, [] => blanks
  | none, c :: text => c :: stripFrom (if isLineBreak c then some [] else none) text
  | some blanks, c :: text =>
    if isLineBreak c then blanks ++ c :: stripFrom (some []) text
    else if isTrimmed c then stripFrom (some (blanks ++ [c])) text
    else if c = '|' then stripFrom none text
    else blanks ++ c :: stripFrom none text

def stripMargin (text : List Char) : List Char := stripFrom (some []) text

/-- Neither a blank nor `|`. -/
def IsSolid (c : Char) : Prop := isTrimmed c = false ∧ c ≠ '|'

instance (c : Char) : Decidable (IsSolid c) := inferInstanceAs (Decidable (_ ∧ _))

variable {c : Char} {text rest : List Char} {state : LineState}

lemma IsSolid.not_isLineBreak (hc : IsSolid c) : isLineBreak c = false := by
  cases h : isLineBreak c with
  | false => rfl
  | true =>
    rcases (by simpa [isLineBreak] using h : c = '\n' ∨ c = '\x0c') with rfl | rfl
    · exact absurd hc.1 (by decide)
    · exact absurd hc.1 (by decide)

/-- What stands before a character that is no blank does not depend on what stands after it. -/
lemma stripFrom_append (hc : IsSolid c) :
    stripFrom state (text ++ c :: rest) = stripFrom state text ++ c :: stripFrom none rest := by
  induction text generalizing state with
  | nil =>
    cases state with
    | none => simp [stripFrom, hc.not_isLineBreak]
    | some blanks => simp [stripFrom, hc.not_isLineBreak, hc.1, hc.2]
  | cons d text ih =>
    cases state with
    | none => simp [stripFrom, ih]
    | some blanks =>
      simp only [List.cons_append, stripFrom, ih]
      split_ifs
      · simp
      · rfl
      · rfl
      · simp

lemma stripFrom_solid (hc : IsSolid c) :
    stripFrom none (c :: rest) = c :: stripFrom none rest := by
  simp [stripFrom, hc.not_isLineBreak]

/-- A text without line breaks stays. -/
lemma stripFrom_line (h : text.any isLineBreak = false) :
    stripFrom none (text ++ rest) = text ++ stripFrom none rest := by
  induction text with
  | nil => rfl
  | cons c text ih =>
    rw [List.any_cons, Bool.or_eq_false_iff] at h
    simp [stripFrom, h.1, ih h.2]

lemma length_stripFrom_le (state : LineState) (text : List Char) :
    (stripFrom state text).length ≤ (state.getD []).length + text.length := by
  induction text generalizing state with
  | nil => cases state <;> simp [stripFrom]
  | cons c text ih =>
    cases state with
    | none =>
      have := ih (if isLineBreak c then some [] else none)
      simp only [stripFrom, List.length_cons, Option.getD_none, List.length_nil]
      split_ifs at this ⊢ <;> simp at this ⊢ <;> omega
    | some blanks =>
      simp only [stripFrom, Option.getD_some]
      split_ifs
      · have := ih (some [])
        simp at this ⊢
        omega
      · have := ih (some (blanks ++ [c]))
        simp at this ⊢
        omega
      · have := ih none
        simp at this ⊢
        omega
      · have := ih none
        simp at this ⊢
        omega

/-- The last character stays, if it is not `|`. -/
lemma stripFrom_concat (hc : c ≠ '|') :
    ∃ before, stripFrom state (text ++ [c]) = before ++ [c] := by
  induction text generalizing state with
  | nil =>
    cases state with
    | none =>
      refine ⟨[], ?_⟩
      simp only [List.nil_append, stripFrom]
      split_ifs <;> rfl
    | some blanks => exact ⟨blanks, by simp [stripFrom, hc]⟩
  | cons d text ih =>
    cases state with
    | none =>
      obtain ⟨before, h⟩ := @ih (if isLineBreak d then some [] else none)
      exact ⟨d :: before, by rw [List.cons_append, stripFrom, h]; rfl⟩
    | some blanks =>
      simp only [List.cons_append, stripFrom]
      split_ifs
      · obtain ⟨before, h⟩ := @ih (some [])
        exact ⟨blanks ++ d :: before, by simp [h]⟩
      · exact ih
      · exact ih
      · obtain ⟨before, h⟩ := @ih none
        exact ⟨blanks ++ d :: before, by simp [h]⟩

/-! ### Splitting -/

/-- What stands between the occurrences of the separator, with the piece that was begun. The first
characters may be skipped, as parts of an occurrence. -/
def pieces (sep : List Char) : Nat → List Char → List Char → List (List Char)
  | _, piece, [] => [piece]
  | skip + 1, piece, _ :: text => pieces sep skip piece text
  | 0, piece, c :: text =>
    if sep.isPrefixOf (c :: text) then piece :: pieces sep (sep.length - 1) [] text
    else pieces sep 0 (piece ++ [c]) text

/-- `split`: the pieces, without empty ones at the end unless the text is the only piece. -/
def split (sep text : List Char) : List (List Char) :=
  let ps := pieces sep 0 [] text
  if ps.length = 1 then ps else ps.rdropWhile (·.isEmpty)

variable {a b : Char} {piece : List Char} {ps : List (List Char)}

lemma pieces_sep (rest : List Char) :
    pieces [a, b] 0 piece (a :: b :: rest) = piece :: pieces [a, b] 0 [] rest := by
  simp [pieces]

lemma pieces_cons (h : ¬[a, b] <+: c :: rest) :
    pieces [a, b] 0 piece (c :: rest) = pieces [a, b] 0 (piece ++ [c]) rest := by
  rw [pieces, if_neg (by simpa using h)]

lemma not_prefix_append (hab : a ≠ b) (h : ¬[a, b] <:+: c :: text) :
    ¬[a, b] <+: c :: (text ++ a :: rest) := by
  rintro ⟨t, ht⟩
  cases text with
  | nil =>
    simp only [List.cons_append, List.nil_append, List.cons.injEq] at ht
    exact hab ht.2.1.symm
  | cons d text =>
    simp only [List.cons_append, List.nil_append, List.cons.injEq] at ht
    exact h ⟨[], text, by simp [ht.1, ht.2.1]⟩

/-- A piece ends at the separator. -/
lemma pieces_append (hab : a ≠ b) (h : ¬[a, b] <:+: text) :
    pieces [a, b] 0 piece (text ++ a :: b :: rest) =
      (piece ++ text) :: pieces [a, b] 0 [] rest := by
  induction text generalizing piece with
  | nil => simp [pieces_sep]
  | cons c text ih =>
    have htail : ¬[a, b] <:+: text := fun ht => h (ht.trans (List.infix_cons List.infix_rfl))
    rw [List.cons_append, pieces_cons (not_prefix_append hab h), ih htail, List.append_assoc,
      List.singleton_append]

lemma pieces_of_not_infix (h : ¬[a, b] <:+: text) :
    pieces [a, b] 0 piece text = [piece ++ text] := by
  induction text generalizing piece with
  | nil => simp [pieces]
  | cons c text ih =>
    have htail : ¬[a, b] <:+: text := fun ht => h (ht.trans (List.infix_cons List.infix_rfl))
    rw [pieces_cons fun hp => h hp.isInfix, ih htail, List.append_assoc, List.singleton_append]

/-- Texts without the separator are the pieces of what they are joined to. -/
lemma pieces_intercalate (hab : a ≠ b) (hne : ps ≠ []) (h : ∀ p ∈ ps, ¬[a, b] <:+: p) :
    pieces [a, b] 0 [] ([a, b].intercalate ps) = ps := by
  induction ps with
  | nil => exact absurd rfl hne
  | cons p ps ih =>
    rw [List.forall_mem_cons] at h
    cases ps with
    | nil =>
      have hone : pieces [a, b] 0 [] p = [[] ++ p] := pieces_of_not_infix h.1
      simpa [List.intercalate] using hone
    | cons q ps =>
      rw [List.intercalate_cons_cons, List.append_assoc]
      exact (pieces_append hab h.1).trans (congrArg _ (ih (List.cons_ne_nil _ _) h.2))

lemma not_infix_concat (h : ¬[a, b] <:+: text) (hlast : ¬(text.getLast? = some a ∧ c = b)) :
    ¬[a, b] <:+: text ++ [c] := by
  rintro ⟨before, after, heq⟩
  rcases List.eq_nil_or_concat after with rfl | ⟨after, d, rfl⟩
  · have heq' : (before ++ [a]) ++ [b] = text ++ [c] := by simpa using heq
    obtain ⟨htext, hb⟩ := List.append_inj' heq' rfl
    exact hlast ⟨by simp [← htext], by simpa using hb.symm⟩
  · have heq' : (before ++ [a, b] ++ after) ++ [d] = text ++ [c] := by simpa using heq
    exact h ⟨before, after, (List.append_inj' heq' rfl).1⟩

/-- No piece has the separator in it. -/
lemma not_infix_of_mem_pieces {n : ℕ} (hpiece : ¬[a, b] <:+: piece)
    (hlink : n = 0 → ¬(piece.getLast? = some a ∧ text.head? = some b))
    (hskip : n ≠ 0 → piece = []) {p : List Char} (hp : p ∈ pieces [a, b] n piece text) :
    ¬[a, b] <:+: p := by
  induction text generalizing n piece with
  | nil =>
    obtain rfl : p = piece := by simpa [pieces] using hp
    exact hpiece
  | cons c text ih =>
    cases n with
    | succ n =>
      obtain rfl := hskip (Nat.succ_ne_zero n)
      exact ih hpiece (fun _ h => by simp at h) (fun _ => rfl) hp
    | zero =>
      rw [pieces] at hp
      split_ifs at hp with hc
      · rcases List.mem_cons.mp hp with rfl | hp
        · exact hpiece
        · exact ih (by simp) (fun h => by simp at h) (fun _ => rfl) hp
      · refine ih (not_infix_concat hpiece fun h => hlink rfl ⟨h.1, by simp [h.2]⟩) ?_
          (fun h => absurd rfl h) hp
        rintro - ⟨ha, hb⟩
        obtain rfl : c = a := by simpa using ha
        cases text with
        | nil => simp at hb
        | cons d text => exact hc (by simpa using hb.symm)

lemma not_infix_of_mem_split {p : List Char} (hp : p ∈ split [a, b] text) :
    ¬[a, b] <:+: p := by
  have hmem : p ∈ pieces [a, b] 0 [] text := by
    simp only [split] at hp
    split_ifs at hp
    · exact hp
    · exact (List.rdropWhile_prefix _ _).subset hp
  exact not_infix_of_mem_pieces (by simp) (fun _ h => by simp at h) (fun _ => rfl) hmem

/-- `replace` with texts. -/
def replace (old new text : List Char) : List Char := new.intercalate (pieces old 0 [] text)

/-! ### Tokens -/

/-- `\s` -/
def isSpace (c : Char) : Bool := [' ', '\t', '\n', '\x0b', '\x0c', '\r'].contains c

lemma isTrimmed_of_isSpace {c : Char} (hc : isSpace c = true) : isTrimmed c = true := by
  have hall : ∀ d ∈ [' ', '\t', '\n', '\x0b', '\x0c', '\r'], isTrimmed d = true :=
    List.all_eq_true.mp rfl
  exact hall c (List.contains_iff_mem.mp hc)

/-- What stands between spaces, with the token that was begun. -/
def tokens : List Char → List Char → List (List Char)
  | [], [] => []
  | c :: token, [] => [c :: token]
  | token, c :: text =>
    if isSpace c then if token = [] then tokens [] text else token :: tokens [] text
    else tokens (token ++ [c]) text

/-- `split("\\s+")` of a text that does not begin with a space. -/
def splitSpaces (text : List Char) : List (List Char) :=
  if text = [] then [[]] else tokens [] text

/-- A token that was begun goes on to a space or to the end. -/
lemma exists_of_tokens_begun {token : List Char} (htoken : token ≠ []) (text : List Char) :
    ∃ u rest, text = u ++ rest ∧
      (rest = [] ∧ tokens token text = [token ++ u] ∨
        ∃ c rest', rest = c :: rest' ∧ isSpace c = true ∧
          tokens token text = (token ++ u) :: tokens [] rest') := by
  induction text generalizing token with
  | nil =>
    cases token with
    | nil => exact absurd rfl htoken
    | cons c token => exact ⟨[], [], rfl, .inl ⟨rfl, by simp [tokens]⟩⟩
  | cons c text ih =>
    by_cases hc : isSpace c = true
    · refine ⟨[], c :: text, rfl, .inr ⟨c, text, rfl, hc, ?_⟩⟩
      rw [tokens, if_pos hc, if_neg htoken, List.append_nil]
    · obtain ⟨u, rest, rfl, h⟩ := ih (List.append_ne_nil_of_right_ne_nil token (List.cons_ne_nil c []))
      refine ⟨c :: u, rest, rfl, ?_⟩
      have hstep : tokens token (c :: (u ++ rest)) = tokens (token ++ [c]) (u ++ rest) := by
        rw [tokens, if_neg hc]
      rw [hstep]
      simpa using h

/-- The first token stands after spaces, and up to a space or the end. -/
lemma exists_of_tokens {text token : List Char} {ts : List (List Char)}
    (h : tokens [] text = token :: ts) :
    ∃ gap rest, text = gap ++ (token ++ rest) ∧ (∀ c ∈ gap, isSpace c = true) ∧
      (rest = [] ∧ ts = [] ∨ ∃ c rest', rest = c :: rest' ∧ isSpace c = true ∧
        tokens [] rest' = ts) := by
  induction text with
  | nil => cases h
  | cons c text ih =>
    by_cases hc : isSpace c = true
    · rw [tokens, if_pos hc, if_pos rfl] at h
      obtain ⟨gap, rest, rfl, hgap, hrest⟩ := ih h
      exact ⟨c :: gap, rest, rfl, List.forall_mem_cons.mpr ⟨hc, hgap⟩, hrest⟩
    · rw [tokens, if_neg hc, List.nil_append] at h
      obtain ⟨u, rest, rfl, hrest⟩ := exists_of_tokens_begun (List.cons_ne_nil c []) text
      rcases hrest with ⟨rfl, heq⟩ | ⟨d, rest', rfl, hd, heq⟩
      · rw [heq, List.cons.injEq] at h
        obtain ⟨rfl, rfl⟩ := h
        exact ⟨[], [], rfl, by simp, .inl ⟨rfl, rfl⟩⟩
      · rw [heq, List.cons.injEq] at h
        obtain ⟨rfl, rfl⟩ := h
        exact ⟨[], d :: rest', rfl, by simp, .inr ⟨d, rest', rfl, hd, rfl⟩⟩

/-! ### Comparing -/

/-- The code units of UTF-16. -/
def codeUnits (c : Char) : List ℕ :=
  if c.toNat < 65536 then [c.toNat]
  else [55296 + (c.toNat - 65536) / 1024, 56320 + (c.toNat - 65536) % 1024]

def utf16 (s : String) : List ℕ := s.toList.flatMap codeUnits

lemma codeUnits_append_inj {c d : Char} {u v : List ℕ}
    (h : codeUnits c ++ u = codeUnits d ++ v) : c = d ∧ u = v := by
  have hc : c.toNat < 55296 ∨ 57343 < c.toNat ∧ c.toNat < 1114112 := c.valid
  have hd : d.toNat < 55296 ∨ 57343 < d.toNat ∧ d.toNat < 1114112 := d.valid
  have hnat : c.toNat = d.toNat ∧ u = v := by
    unfold codeUnits at h
    split_ifs at h with hc' hd' hd'
    · simpa using h
    · simp only [List.cons_append, List.nil_append, List.cons.injEq] at h
      omega
    · simp only [List.cons_append, List.nil_append, List.cons.injEq] at h
      omega
    · simp only [List.cons_append, List.nil_append, List.cons.injEq] at h
      exact ⟨by omega, h.2.2⟩
  exact ⟨Char.toNat_inj.mp hnat.1, hnat.2⟩

lemma codeUnits_ne_nil (c : Char) : codeUnits c ≠ [] := by
  unfold codeUnits
  split_ifs <;> simp

/-- Strings that compare as equal are equal. -/
lemma utf16_injective : Function.Injective utf16 := by
  intro s t h
  refine String.toList_injective ?_
  unfold utf16 at h
  revert h
  generalize s.toList = cs, t.toList = ds
  intro h
  induction cs generalizing ds with
  | nil =>
    cases ds with
    | nil => rfl
    | cons d ds => exact absurd (List.flatMap_eq_nil_iff.mp h.symm d (by simp)) (codeUnits_ne_nil d)
  | cons c cs ih =>
    cases ds with
    | nil => exact absurd (List.flatMap_eq_nil_iff.mp h c (by simp)) (codeUnits_ne_nil c)
    | cons d ds =>
      obtain ⟨rfl, htail⟩ := codeUnits_append_inj h
      rw [ih ds htail]

end JavaStrings
