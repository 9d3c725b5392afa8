import Mathlib.Data.List.Lex
import Mathlib.Order.WithBot
import Moonbox.Lib.ByteBuffers

/-!
# The order of byte arrays

Arrays of bytes are in lexicographic order, where a byte has no sign. The bytes of two integers
are in the order of the integers if these have the same sign, and those of a negative integer come
after those of one that is not.
-/

namespace ByteOrder

open TwosComplement

abbrev Bytes := List UInt8

scoped instance instLinearOrder : LinearOrder UInt8 where
  le_refl := UInt8.le_refl
  le_trans _ _ _ := UInt8.le_trans
  lt_iff_le_not_ge a b := by
    rw [UInt8.lt_iff_toNat_lt, UInt8.le_iff_toNat_le, UInt8.le_iff_toNat_le]
    omega
  le_antisymm _ _ := UInt8.le_antisymm
  le_total := UInt8.le_total
  toDecidableLE := inferInstance
  toDecidableEq := inferInstance
  toDecidableLT := inferInstance

variable {as bs cs ds : Bytes} {a b : UInt8} {k : Nat} {m n : Int}

lemma nil_le (as : Bytes) : [] ≤ as := by
  cases as with
  | nil => exact le_rfl
  | cons a as => exact le_of_lt (List.nil_lt_cons a as)

/-- A byte of zero behind an array makes the next one. -/
lemma lt_append_zero_iff (as bs : Bytes) : as < bs ++ [0] ↔ as ≤ bs := by
  induction bs generalizing as with
  | nil =>
    cases as with
    | nil => simp
    | cons a as => simp [List.cons_lt_cons_iff, ← not_lt]
  | cons b bs ih =>
    cases as with
    | nil => simp [nil_le]
    | cons a as =>
      rw [List.cons_append, List.cons_lt_cons_iff, ih, ← not_lt (a := b :: bs),
        List.cons_lt_cons_iff, ← not_lt]
      rcases lt_trichotomy a b with h | rfl | h
      · simp [h, h.not_gt, h.ne']
      · simp
      · simp [h, h.not_gt, h.ne']

lemma append_lt_append_iff (h : as.length = bs.length) :
    as ++ cs < bs ++ ds ↔ as < bs ∨ as = bs ∧ cs < ds := by
  induction as generalizing bs with
  | nil =>
    obtain rfl := List.eq_nil_of_length_eq_zero h.symm
    simp
  | cons a as ih =>
    cases bs with
    | nil => cases h
    | cons b bs =>
      simp only [List.cons_append, List.cons_lt_cons_iff, ih (Nat.succ_injective h),
        List.cons.injEq]
      tauto

/-! ### Integers -/

lemma emod_pow_succ (k : Nat) (n : Int) :
    n % 256 ^ (k + 1) = n % 256 + 256 * (n / 256 % 256 ^ k) := by
  have hdiv : n / 256 / 256 ^ k = n / 256 ^ (k + 1) := by
    rw [Int.ediv_ediv_of_nonneg (by norm_num), pow_succ']
  rw [Int.emod_def, Int.emod_def n 256, Int.emod_def (n / 256), hdiv, pow_succ']
  ring

lemma lastBytes_add (k j : Nat) (n : Int) :
    lastBytes (k + j) n = lastBytes k (n / 256 ^ j) ++ lastBytes j n := by
  induction j generalizing n with
  | zero => simp [lastBytes]
  | succ j ih =>
    have hdiv : n / 256 / 256 ^ j = n / 256 ^ (j + 1) := by
      rw [Int.ediv_ediv_of_nonneg (by norm_num), pow_succ']
    rw [← Nat.add_assoc, lastBytes, ih, hdiv, lastBytes, List.append_assoc]

/-- The last bytes are those of the remainder. -/
lemma lastBytes_eq_iff : lastBytes k m = lastBytes k n ↔ m % 256 ^ k = n % 256 ^ k := by
  induction k generalizing m n with
  | zero => simp [lastBytes]
  | succ k ih =>
    have hm := toNat_ofNat_emod m
    have hn := toNat_ofNat_emod n
    have hlast : UInt8.ofNat (m % 256).toNat = UInt8.ofNat (n % 256).toNat ↔
        m % 256 = n % 256 := by
      rw [← UInt8.toNat_inj]
      omega
    have hconcat {as bs : Bytes} {a b : UInt8} : as ++ [a] = bs ++ [b] ↔ as = bs ∧ a = b := by
      rw [← List.concat_eq_append, ← List.concat_eq_append, List.concat_inj]
    rw [lastBytes, lastBytes, hconcat, ih, hlast, emod_pow_succ, emod_pow_succ k n]
    omega

lemma lastBytes_lt_iff : lastBytes k m < lastBytes k n ↔ m % 256 ^ k < n % 256 ^ k := by
  induction k generalizing m n with
  | zero => simp [lastBytes]
  | succ k ih =>
    have hm := toNat_ofNat_emod m
    have hn := toNat_ofNat_emod n
    have hlen : (lastBytes k (m / 256)).length = (lastBytes k (n / 256)).length := by
      rw [ByteBuf.length_lastBytes, ByteBuf.length_lastBytes]
    have hlast : [UInt8.ofNat (m % 256).toNat] < [UInt8.ofNat (n % 256).toNat] ↔
        m % 256 < n % 256 := by
      rw [List.cons_lt_cons_iff, UInt8.lt_iff_toNat_lt]
      simp only [List.not_lt_nil, and_false, or_false]
      omega
    rw [lastBytes, lastBytes, append_lt_append_iff hlen, ih, lastBytes_eq_iff, hlast,
      emod_pow_succ, emod_pow_succ k n]
    omega

/-- The remainder of an integer that has a place in the bytes. -/
lemma emod_of_bounds {P : Int} (hm : -P ≤ 2 * m) (hm' : 2 * m < P) :
    m % P = if m < 0 then m + P else m := by
  split
  · rw [← Int.add_emod_right, Int.emod_eq_of_lt] <;> omega
  · rw [Int.emod_eq_of_lt] <;> omega

lemma lastBytes_lt_iff_of_bounds (hm : -256 ^ k ≤ 2 * m) (hm' : 2 * m < 256 ^ k)
    (hn : -256 ^ k ≤ 2 * n) (hn' : 2 * n < 256 ^ k) :
    lastBytes k m < lastBytes k n ↔
      0 ≤ m ∧ n < 0 ∨ (0 ≤ m ↔ 0 ≤ n) ∧ m < n := by
  rw [lastBytes_lt_iff, emod_of_bounds hm hm', emod_of_bounds hn hn']
  split_ifs <;> omega

end ByteOrder
