import Mathlib.Tactic.Lemma
import Mathlib.Tactic.Ring

/-!
# Decimal texts

The text of an integer as Java writes it, and what `parseInt` and `parseLong` make of a text, with
the digits of ASCII.
-/

namespace Decimals

def text (n : Int) : List Char :=
  if n < 0 then '-' :: Nat.toDigits 10 n.natAbs else Nat.toDigits 10 n.natAbs

def parseNat (text : List Char) : Option Nat :=
  if text ≠ [] ∧ text.all Char.isDigit then some (Nat.ofDigitChars 10 text 0) else none

def parseSigned : List Char → Option Int
  | '-' :: digits => (parseNat digits).map fun n : Nat => -(n : Int)
  | '+' :: digits => (parseNat digits).map fun n : Nat => (n : Int)
  | digits => (parseNat digits).map fun n : Nat => (n : Int)

/-- An integer of so many bits. -/
def parse (bits : Nat) (text : List Char) : Option Int :=
  (parseSigned text).filter fun n => -2 ^ (bits - 1) ≤ n ∧ n < 2 ^ (bits - 1)

/-! ### What is written is read -/

lemma parseNat_toDigits (n : Nat) : parseNat (Nat.toDigits 10 n) = some n := by
  have hdigits : (Nat.toDigits 10 n).all Char.isDigit = true := by
    rw [List.all_eq_true]
    exact fun c hc => Nat.isDigit_of_mem_toDigits (by decide) (by decide) hc
  rw [parseNat, if_pos ⟨Nat.toDigits_ne_nil, hdigits⟩, Nat.ofDigitChars_ten_toDigits]

lemma parseSigned_toDigits (n : Nat) : parseSigned (Nat.toDigits 10 n) = some (n : Int) := by
  have hparse := parseNat_toDigits n
  cases htext : Nat.toDigits 10 n with
  | nil => exact absurd htext Nat.toDigits_ne_nil
  | cons c digits =>
    have hdigit : c.isDigit = true :=
      Nat.isDigit_of_mem_toDigits (b := 10) (n := n) (by decide) (by decide) (by simp [htext])
    rw [htext] at hparse
    unfold parseSigned
    split
    · simp_all
    · simp_all
    · rw [hparse]
      rfl

lemma parseSigned_text (n : Int) : parseSigned (text n) = some n := by
  unfold text
  split
  · rename_i hneg
    rw [parseSigned, parseNat_toDigits, Option.map_some, Option.some.injEq]
    omega
  · rw [parseSigned_toDigits, Option.some.injEq]
    omega

lemma parse_text {bits : Nat} {n : Int} (h : -2 ^ (bits - 1) ≤ n) (h' : n < 2 ^ (bits - 1)) :
    parse bits (text n) = some n := by
  simp [parse, parseSigned_text, h, h']

lemma not_mem_text {c : Char} (hminus : c ≠ '-') (hdigit : c.isDigit = false) (n : Int) :
    c ∉ text n := by
  have hnot : c ∉ Nat.toDigits 10 n.natAbs := by
    intro hc
    rw [Nat.isDigit_of_mem_toDigits (by decide) (by decide) hc] at hdigit
    cases hdigit
  unfold text
  split <;> simp [hminus, hnot]

lemma text_ne_nil (n : Int) : text n ≠ [] := by
  unfold text
  split
  · exact List.cons_ne_nil _ _
  · exact Nat.toDigits_ne_nil

end Decimals
