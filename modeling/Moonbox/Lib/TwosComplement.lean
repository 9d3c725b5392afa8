import Mathlib.Data.Nat.Size
import Mathlib.Tactic.Lemma
import Mathlib.Tactic.Positivity
import Mathlib.Tactic.Ring

/-!
# Two's complement

The bytes of an integer of any size, the most significant first and as few as hold its sign, and
the integer of a nonempty list of bytes.
-/

namespace TwosComplement

/-- The bits of the shortest representation, without the one for the sign. -/
def bitLength (n : Int) : Nat := (if 0 ≤ n then n.toNat else (-n - 1).toNat).size

/-- The last `k` bytes. -/
def lastBytes : Nat → Int → List UInt8
  | 0, _ => []
  | k + 1, n => lastBytes k (n / 256) ++ [UInt8.ofNat (n % 256).toNat]

def toBytes (n : Int) : List UInt8 := lastBytes (bitLength n / 8 + 1) n

/-- The first byte has the sign. -/
def signed (b : UInt8) : Int := if b.toNat < 128 then b.toNat else b.toNat - 256

def ofBytes : List UInt8 → Option Int
  | [] => none
  | b :: bs => some (bs.foldl (fun n b => n * 256 + b.toNat) (signed b))

lemma ofBytes_append {bs : List UInt8} {n : Int} (b : UInt8) (h : ofBytes bs = some n) :
    ofBytes (bs ++ [b]) = some (n * 256 + b.toNat) := by
  cases bs with
  | nil => cases h
  | cons b' bs =>
    simp only [ofBytes, Option.some.injEq] at h
    simp [ofBytes, h]

lemma toNat_ofNat_emod (n : Int) : ((UInt8.ofNat (n % 256).toNat).toNat : Int) = n % 256 := by
  have hlt : (n % 256).toNat < 256 := by omega
  rw [UInt8.toNat_ofNat_of_lt' hlt]
  omega

lemma ofBytes_lastBytes (k : Nat) {n : Int} (h : -2 ^ (8 * k + 7) ≤ n)
    (h' : n < 2 ^ (8 * k + 7)) : ofBytes (lastBytes (k + 1) n) = some n := by
  induction k generalizing n with
  | zero =>
    have hbyte := toNat_ofNat_emod n
    simp only [lastBytes, List.nil_append, ofBytes, List.foldl_nil, signed, Option.some.injEq]
    split <;> omega
  | succ k ih =>
    have hpow : (2 : Int) ^ (8 * (k + 1) + 7) = 256 * 2 ^ (8 * k + 7) := by
      rw [show 8 * (k + 1) + 7 = 8 + (8 * k + 7) by ring, pow_add]
      norm_num
    rw [hpow] at h h'
    have hdiv := ih (n := n / 256) (by omega) (by omega)
    rw [lastBytes, ofBytes_append _ hdiv, toNat_ofNat_emod]
    congr 1
    omega

lemma bounds_bitLength (n : Int) : -2 ^ bitLength n ≤ n ∧ n < 2 ^ bitLength n := by
  unfold bitLength
  split
  · rename_i hn
    have hlt : (n.toNat : Int) < (2 ^ n.toNat.size : Nat) := by exact_mod_cast Nat.lt_size_self _
    have hpos : (0 : Int) ≤ 2 ^ n.toNat.size := by positivity
    push_cast at hlt
    constructor <;> omega
  · rename_i hn
    have hlt : ((-n - 1).toNat : Int) < (2 ^ (-n - 1).toNat.size : Nat) := by
      exact_mod_cast Nat.lt_size_self _
    have hpos : (0 : Int) ≤ 2 ^ (-n - 1).toNat.size := by positivity
    push_cast at hlt
    constructor <;> omega

/-- The bytes of an integer are those of no other. -/
lemma ofBytes_toBytes (n : Int) : ofBytes (toBytes n) = some n := by
  obtain ⟨hge, hlt⟩ := bounds_bitLength n
  have hle : (2 : Int) ^ bitLength n ≤ 2 ^ (8 * (bitLength n / 8) + 7) :=
    pow_le_pow_right₀ (by norm_num) (by omega)
  exact ofBytes_lastBytes _ (by omega) (by omega)

end TwosComplement
