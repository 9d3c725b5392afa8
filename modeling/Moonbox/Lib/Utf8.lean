import Mathlib.Data.List.Basic
import Mathlib.Tactic.Lemma
import Moonbox.Lib.JavaStrings

/-!
# The order of UTF-8

Strings that are encoded in UTF-8 and compared byte by byte are in the order of their code points.
A string that is kept in UTF-16 loses the code units that are no half of a pair when it is encoded.
-/

namespace Utf8

open JavaStrings

/-! ### The lexicographic order -/

/-- The first list comes before the second. -/
def precedes : List ℕ → List ℕ → Bool
  | _, [] => false
  | [], _ :: _ => true
  | a :: as, b :: bs => a < b || a == b && precedes as bs

section Order

variable {a b : ℕ} {as bs cs : List ℕ}

@[simp] lemma precedes_nil (as : List ℕ) : precedes as [] = false := by
  cases as <;> rfl

@[simp] lemma nil_precedes_cons (b : ℕ) (bs : List ℕ) : precedes [] (b :: bs) = true := rfl

lemma cons_precedes_cons :
    precedes (a :: as) (b :: bs) = true ↔ a < b ∨ a = b ∧ precedes as bs = true := by
  simp [precedes]

lemma precedes_append_left (cs as bs : List ℕ) :
    precedes (cs ++ as) (cs ++ bs) = precedes as bs := by
  induction cs with
  | nil => rfl
  | cons c cs ih => simp [precedes, ih]

lemma precedes_asymm (h : precedes as bs = true) : precedes bs as = false := by
  induction as generalizing bs with
  | nil => simp
  | cons a as ih =>
    cases bs with
    | nil => cases h
    | cons b bs =>
      rw [Bool.eq_false_iff, ne_eq, cons_precedes_cons]
      rcases cons_precedes_cons.mp h with hlt | ⟨rfl, hrest⟩
      · rintro (hgt | ⟨rfl, -⟩) <;> omega
      · simp [ih hrest]

/-- Between a list and the one with the next last element are its continuations. -/
lemma between_iff (as front : List ℕ) (last : ℕ) :
    precedes as (front ++ [last]) = false ∧ precedes as (front ++ [last + 1]) = true ↔
      front ++ [last] <+: as := by
  induction front generalizing as with
  | nil =>
    cases as with
    | nil => simp
    | cons a as =>
      rw [Bool.eq_false_iff, ne_eq, List.nil_append, List.nil_append, cons_precedes_cons,
        cons_precedes_cons, List.cons_prefix_cons]
      simp only [precedes_nil, Bool.false_eq_true, and_false, or_false, List.nil_prefix, and_true]
      omega
  | cons b front ih =>
    cases as with
    | nil => simp
    | cons a as =>
      rw [Bool.eq_false_iff, ne_eq, List.cons_append, List.cons_append, cons_precedes_cons,
        cons_precedes_cons, List.cons_prefix_cons, ← ih, Bool.eq_false_iff]
      by_cases hab : a = b
      · subst hab
        simp
      · have hba : b ≠ a := fun h => hab h.symm
        simp only [hab, hba, false_and, or_false, iff_false, not_and]
        exact fun h h' => h h'

end Order

/-! ### Encodings that keep the order -/

section Encoding

variable {α : Type} {key : α → ℕ} {enc : α → List ℕ}

/-- An encoding letter by letter keeps the order if one letter does before any two texts. -/
lemma precedes_flatMap (hkey : Function.Injective key) (hne : ∀ c, enc c ≠ [])
    (hlt : ∀ c d u v, key c < key d → precedes (enc c ++ u) (enc d ++ v) = true)
    (s t : List α) :
    precedes (s.flatMap enc) (t.flatMap enc) = precedes (s.map key) (t.map key) := by
  induction s generalizing t with
  | nil =>
    cases t with
    | nil => rfl
    | cons d t =>
      obtain ⟨b, bs, hbs⟩ := List.exists_cons_of_ne_nil (hne d)
      rw [List.flatMap_nil, List.flatMap_cons, hbs]
      rfl
  | cons c s ih =>
    cases t with
    | nil => simp
    | cons d t =>
      rw [List.flatMap_cons, List.flatMap_cons, List.map_cons, List.map_cons]
      rcases Nat.lt_trichotomy (key c) (key d) with h | h | h
      · rw [hlt c d _ _ h, cons_precedes_cons.mpr (.inl h)]
      · obtain rfl := hkey h
        rw [precedes_append_left, ih]
        simp [precedes]
      · have hfirst : precedes (key d :: t.map key) (key c :: s.map key) = true :=
          cons_precedes_cons.mpr (.inl h)
        rw [precedes_asymm (hlt d c _ _ h), precedes_asymm hfirst]

end Encoding

/-! ### UTF-8 -/

def bytes (c : Char) : List ℕ :=
  if c.toNat < 128 then [c.toNat]
  else if c.toNat < 2048 then [192 + c.toNat / 64, 128 + c.toNat % 64]
  else if c.toNat < 65536 then
    [224 + c.toNat / 4096, 128 + c.toNat / 64 % 64, 128 + c.toNat % 64]
  else
    [240 + c.toNat / 262144, 128 + c.toNat / 4096 % 64, 128 + c.toNat / 64 % 64,
      128 + c.toNat % 64]

def encode (s : List Char) : List ℕ := s.flatMap bytes

def points (s : List Char) : List ℕ := s.map Char.toNat

lemma bytes_precedes {c d : Char} (h : c.toNat < d.toNat) (u v : List ℕ) :
    precedes (bytes c ++ u) (bytes d ++ v) = true := by
  have hbound : d.toNat < 1114112 := by
    have hd : d.toNat < 55296 ∨ 57343 < d.toNat ∧ d.toNat < 1114112 := d.valid
    omega
  unfold bytes
  split_ifs <;> simp only [List.cons_append, List.nil_append, cons_precedes_cons] <;> omega

lemma precedes_encode (s t : List Char) :
    precedes (encode s) (encode t) = precedes (points s) (points t) := by
  refine precedes_flatMap (fun c d h => Char.toNat_inj.mp h) (fun c => ?_)
    (fun c d u v h => bytes_precedes h u v) s t
  unfold bytes
  split_ifs <;> simp

/-! ### Strings of UTF-16 -/

/-- The character of one code unit, for which half a pair is none. -/
def single (u : ℕ) : Char := if 55296 ≤ u ∧ u < 57344 then '?' else Char.ofNat u

/-- The characters that are encoded of a string with these code units. -/
def decode : List ℕ → List Char
  | [] => []
  | [u] => [single u]
  | u :: v :: rest =>
    if (55296 ≤ u ∧ u < 56320) ∧ 56320 ≤ v ∧ v < 57344 then
      Char.ofNat (65536 + (u - 55296) * 1024 + (v - 56320)) :: decode rest
    else single u :: decode (v :: rest)

lemma decode_single {u : ℕ} (h : ¬ (55296 ≤ u ∧ u < 56320)) (rest : List ℕ) :
    decode (u :: rest) = single u :: decode rest := by
  cases rest with
  | nil => rfl
  | cons v rest => rw [decode, if_neg fun hpair => h hpair.1]

lemma decode_pair {u v : ℕ} (h : (55296 ≤ u ∧ u < 56320) ∧ 56320 ≤ v ∧ v < 57344) (rest : List ℕ) :
    decode (u :: v :: rest) =
      Char.ofNat (65536 + (u - 55296) * 1024 + (v - 56320)) :: decode rest := by
  rw [decode, if_pos h]

lemma decode_unpaired {u v : ℕ} (h : ¬ (56320 ≤ v ∧ v < 57344)) (rest : List ℕ) :
    decode (u :: v :: rest) = single u :: decode (v :: rest) := by
  rw [decode, if_neg fun hpair => h hpair.2]

lemma decode_codeUnits (c : Char) (rest : List ℕ) :
    decode (codeUnits c ++ rest) = c :: decode rest := by
  have hc : c.toNat < 55296 ∨ 57343 < c.toNat ∧ c.toNat < 1114112 := c.valid
  unfold codeUnits
  split_ifs with h
  · rw [List.singleton_append, decode_single (by omega), single, if_neg (by omega),
      Char.ofNat_toNat]
  · rw [List.cons_append, List.singleton_append, decode_pair (by omega)]
    have hsame : 65536 + (55296 + (c.toNat - 65536) / 1024 - 55296) * 1024 +
        (56320 + (c.toNat - 65536) % 1024 - 56320) = c.toNat := by omega
    rw [hsame, Char.ofNat_toNat]

lemma decode_flatMap_codeUnits (s : List Char) (rest : List ℕ) :
    decode (s.flatMap codeUnits ++ rest) = s ++ decode rest := by
  induction s with
  | nil => rfl
  | cons c s ih =>
    rw [List.flatMap_cons, List.append_assoc, decode_codeUnits, ih, List.cons_append]

/-! ### Bytes of a string of UTF-16 -/

/-- `String.getBytes` -/
def getBytes (s : List UInt16) : List UInt8 :=
  (String.ofList (decode (s.map UInt16.toNat))).toUTF8.data.toList

/-- The string of some bytes, where `malformed` stands for what comes of those that are not UTF-8 -/
def ofBytes (malformed : List UInt8 → List UInt16) (bs : List UInt8) : List UInt16 :=
  match String.fromUTF8? ⟨bs.toArray⟩ with
  | some text => (utf16 text).map UInt16.ofNat
  | none => malformed bs

/-- The code units are those of a text: each half of a pair is next to the other. -/
def IsText (s : List UInt16) : Prop := ∃ text : String, s.map UInt16.toNat = utf16 text

variable {s : List UInt16}

lemma lt_of_mem_codeUnits {c : Char} {u : ℕ} (h : u ∈ codeUnits c) : u < 65536 := by
  have hc : c.toNat < 55296 ∨ 57343 < c.toNat ∧ c.toNat < 1114112 := c.valid
  unfold codeUnits at h
  split at h
  · rw [List.mem_singleton] at h
    omega
  · simp only [List.mem_cons, List.not_mem_nil, or_false] at h
    omega

lemma map_toNat_utf16 (text : String) :
    ((utf16 text).map UInt16.ofNat).map UInt16.toNat = utf16 text := by
  rw [List.map_map]
  refine (List.map_congr_left fun u hu => ?_).trans (List.map_id _)
  obtain ⟨c, -, hc⟩ := List.mem_flatMap.mp hu
  exact UInt16.toNat_ofNat_of_lt' (lt_of_mem_codeUnits hc)

lemma ofBytes_getBytes (malformed : List UInt8 → List UInt16) (s : List UInt16) :
    ofBytes malformed (getBytes s) =
      (utf16 (String.ofList (decode (s.map UInt16.toNat)))).map UInt16.ofNat := by
  have hvalid := (String.ofList (decode (s.map UInt16.toNat))).isValidUTF8
  have hread : String.fromUTF8? ⟨(getBytes s).toArray⟩ =
      some (String.ofList (decode (s.map UInt16.toNat))) := dif_pos hvalid
  rw [ofBytes, hread]


/-- A string comes back exactly if it is a text. -/
lemma utf16_decode_eq_iff :
    (utf16 (String.ofList (decode (s.map UInt16.toNat)))).map UInt16.ofNat = s ↔ IsText s := by
  constructor
  · intro h
    refine ⟨String.ofList (decode (s.map UInt16.toNat)), ?_⟩
    nth_rewrite 1 [← h]
    exact map_toNat_utf16 _
  · rintro ⟨text, htext⟩
    have hdecode : decode (utf16 text) = text.toList := by
      simpa [decode, utf16] using decode_flatMap_codeUnits text.toList []
    rw [htext, hdecode, String.ofList_toList, ← htext, List.map_map]
    have hsame : UInt16.ofNat ∘ UInt16.toNat = id := by
      funext u
      simp
    rw [hsame, List.map_id]

end Utf8
