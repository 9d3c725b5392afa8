import Mathlib.Tactic.Lemma
import Mathlib.Tactic.NormNum

/-!
# Timestamps of SQL

`java.sql.Timestamp` has the whole seconds of an instant, in milliseconds, and its nanoseconds. The
integers are those of the machine, which wrap around and are divided towards zero.
-/

structure Timestamp where
  fastTime : Int64
  nanos : Int32
  deriving DecidableEq, Repr

namespace Timestamp

def ofTime (time : Int64) : Timestamp :=
  let nanos := (time % 1000 * 1000000).toInt32
  if nanos < 0 then
    { fastTime := (time / 1000 - 1) * 1000
      nanos := 1000000000 + nanos }
  else
    { fastTime := time / 1000 * 1000
      nanos := nanos }

def getTime (t : Timestamp) : Int64 := t.fastTime + (t.nanos / 1000000).toInt64

def setNanos (t : Timestamp) (n : Int32) : Except String Timestamp :=
  if n > 999999999 || n < 0 then .error "nanos > 999999999 or < 0" else .ok { t with nanos := n }

/-- The nanoseconds since the epoch. -/
def instant (t : Timestamp) : Int := t.fastTime.toInt * 1000000 + t.nanos.toInt

/-- The nanoseconds are less than a second. -/
def IsLegal (t : Timestamp) : Prop := 0 ≤ t.nanos.toInt ∧ t.nanos.toInt ≤ 999999999

/-! ### Division towards zero -/

lemma tdiv_eq (a b : Int) : a.tdiv b = if 0 ≤ a then a / b else -(-a / b) := by
  split
  · exact Int.tdiv_eq_ediv_of_nonneg ‹_›
  · rw [← Int.tdiv_eq_ediv_of_nonneg (by omega), Int.neg_tdiv, neg_neg]

lemma tmod_eq (a b : Int) : a.tmod b = if 0 ≤ a then a % b else -(-a % b) := by
  split
  · exact Int.tmod_eq_emod_of_nonneg ‹_›
  · rw [← Int.tmod_eq_emod_of_nonneg (by omega), Int.neg_tmod, neg_neg]

/-! ### The constructor -/

variable {time : Int64} {t : Timestamp}

lemma toInt_remainder (time : Int64) :
    (time % 1000 * 1000000).toInt32.toInt = time.toInt.tmod 1000 * 1000000 := by
  have hmod := tmod_eq time.toInt 1000
  simp only [Int64.toInt_toInt32, Int64.toInt_mul, Int64.toInt_mod, Int64.reduceToInt]
  rw [Int.bmod_eq_of_le_mul_two (x := time.toInt.tmod 1000 * 1000000) (y := 2 ^ 64) (by omega)
    (by omega), Int.bmod_eq_of_le_mul_two (by omega) (by omega)]

/-- Milliseconds before the epoch are rounded down as well. -/
lemma toInt_fastTime_ofTime (h : -9223372036854775000 ≤ time.toInt) :
    (ofTime time).fastTime.toInt = time.toInt / 1000 * 1000 := by
  have hlt := time.toInt_lt
  have hdiv := tdiv_eq time.toInt 1000
  have hmod := tmod_eq time.toInt 1000
  have hquot : (time / 1000).toInt = time.toInt.tdiv 1000 :=
    Int64.toInt_div_of_ne_right _ _ (by decide)
  unfold ofTime
  simp only [Int32.lt_iff_toInt_lt, toInt_remainder, Int32.reduceToInt]
  split
  · simp only [Int64.toInt_mul, Int64.toInt_sub, hquot, Int64.reduceToInt]
    rw [Int.bmod_eq_of_le_mul_two (x := time.toInt.tdiv 1000 - 1) (y := 2 ^ 64) (by omega)
      (by omega), Int.bmod_eq_of_le_mul_two (by omega) (by omega)]
    split at hmod <;> split at hdiv <;> omega
  · simp only [Int64.toInt_mul, hquot, Int64.reduceToInt]
    rw [Int.bmod_eq_of_le_mul_two (by omega) (by omega)]
    split at hmod <;> split at hdiv <;> omega

/-! ### Reading and setting -/

lemma setNanos_of_legal {n : Int32} (h : 0 ≤ n.toInt) (h' : n.toInt ≤ 999999999) :
    ∃ t', t.setNanos n = .ok t' ∧ t'.IsLegal ∧
      t'.instant = t.fastTime.toInt * 1000000 + n.toInt := by
  refine ⟨{ t with nanos := n }, ?_, ⟨h, h'⟩, rfl⟩
  simp [setNanos, Int32.lt_iff_toInt_lt]
  omega

/-- A second and the nanoseconds in it. -/
lemma setNanos_ofTime (time n : Int64) (h : -9223372036854775000 ≤ time.toInt) (hn : 0 ≤ n.toInt)
    (hn' : n.toInt ≤ 999999999) :
    ∃ t, (ofTime time).setNanos n.toInt32 = .ok t ∧ t.IsLegal ∧
      t.instant = time.toInt / 1000 * 1000000000 + n.toInt := by
  have hcast : n.toInt32.toInt = n.toInt := by
    rw [Int64.toInt_toInt32, Int.bmod_eq_of_le_mul_two (by omega) (by omega)]
  obtain ⟨t, ht, hlegal, hinstant⟩ :=
    @setNanos_of_legal (ofTime time) n.toInt32 (by omega) (by omega)
  refine ⟨t, ht, hlegal, ?_⟩
  rw [hinstant, toInt_fastTime_ofTime h, hcast, Int.mul_assoc]
  norm_num

lemma toInt_getTime (h : t.IsLegal) : t.getTime.toInt = (t.instant / 1000000).bmod (2 ^ 64) := by
  have hquot : (t.nanos / 1000000).toInt = t.nanos.toInt / 1000000 := by
    rw [Int32.toInt_div_of_ne_right _ _ (by decide)]
    exact Int.tdiv_eq_ediv_of_nonneg h.1
  rw [getTime, Int64.toInt_add, Int32.toInt_toInt64, hquot, instant,
    Int.add_comm (_ * _), Int.add_mul_ediv_right _ _ (by decide), Int.add_comm]

end Timestamp
