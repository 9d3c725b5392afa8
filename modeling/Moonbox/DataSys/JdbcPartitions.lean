import Mathlib.Tactic.Linarith
import Mathlib.Tactic.Ring
import Moonbox.Lib.ThreeValued

/-!
# Partitions of a table read with JDBC

A table is read in partitions, each with a condition on one column of integers.
-/

namespace Moonbox.DataSys

open ThreeValued

/-- A condition on the partition column -/
inductive WhereClause
  /-- `column >= value` -/
  | ge (value : Int64)
  /-- `column < value` -/
  | lt (value : Int64)
  /-- `column is null` -/
  | isNull
  | and (left right : WhereClause)
  | or (left right : WhereClause)

namespace WhereClause

def eval (v : Option Int) : WhereClause → Truth
  | ge value => v.map fun n => value.toInt ≤ n
  | lt value => v.map fun n => n < value.toInt
  | isNull => some v.isNone
  | and left right => (left.eval v).and (right.eval v)
  | or left right => (left.eval v).or (right.eval v)

end WhereClause

/-- A partition without a condition is the whole table. -/
structure JDBCPartition where
  whereClause : Option WhereClause
  idx : Nat

def JDBCPartition.Selects (p : JDBCPartition) (v : Option Int) : Bool :=
  p.whereClause.all fun c => c.eval v = some true

structure JDBCPartitioningInfo where
  lowerBound : Int64
  upperBound : Int64
  numPartitions : Int32

namespace MbJDBCRelation

/-- The clause of a partition with its bounds, where it has them. -/
def whereClause : (lBound uBound : Option WhereClause) → Option WhereClause
  | lBound, none => lBound
  | none, some uBound => some (.or uBound .isNull)
  | some lBound, some uBound => some (.and lBound uBound)

/-- The loop, with the number of partitions that are left. -/
def partitions (numPartitions stride : Int64) : Nat → Nat → Int64 → List JDBCPartition
  | 0, _, _ => []
  | rest + 1, i, currentValue =>
    let lBound := if i ≠ 0 then some (WhereClause.ge currentValue) else none
    let currentValue := currentValue + stride
    let uBound := if i ≠ numPartitions.toInt - 1 then some (WhereClause.lt currentValue) else none
    ⟨whereClause lBound uBound, i⟩ :: partitions numPartitions stride rest (i + 1) currentValue

def columnPartition (partitioning : Option JDBCPartitioningInfo) :
    Except String (List JDBCPartition) :=
  match partitioning with
  | none => .ok [⟨none, 0⟩]
  | some info =>
    if info.numPartitions ≤ 1 ∨ info.lowerBound = info.upperBound then .ok [⟨none, 0⟩]
    else if ¬info.lowerBound ≤ info.upperBound then
      .error <| "requirement failed: Operation not allowed: the lower bound of partitioning " ++
        "column is larger than the upper bound."
    else
      let numPartitions :=
        if info.numPartitions.toInt64 ≤ info.upperBound - info.lowerBound then
          info.numPartitions.toInt64
        else info.upperBound - info.lowerBound
      let stride := info.upperBound / numPartitions - info.lowerBound / numPartitions
      .ok (partitions numPartitions stride numPartitions.toInt.toNat 0 info.lowerBound)

end MbJDBCRelation

/-! ### Cuts -/

/-- Each integer, and `NULL`, is in one partition. -/
def CoversOnce (parts : List JDBCPartition) : Prop :=
  parts ≠ [] ∧ ∀ v, parts.countP (·.Selects v) = 1

namespace MbJDBCRelation

variable {numPartitions stride c : Int64} {rest i : Nat}

lemma selects_last {v : Option Int} :
    (⟨whereClause (some (.ge c)) none, i⟩ : JDBCPartition).Selects v =
      v.any (c.toInt ≤ ·) := by
  cases v <;> simp [JDBCPartition.Selects, whereClause, WhereClause.eval]

lemma selects_first {v : Option Int} :
    (⟨whereClause none (some (.lt c)), i⟩ : JDBCPartition).Selects v = v.all (· < c.toInt) := by
  cases v with
  | none => rfl
  | some n =>
    by_cases h : n < c.toInt <;>
      simp [JDBCPartition.Selects, whereClause, WhereClause.eval, h, Truth.or, Truth.not,
        Truth.and]

lemma selects_middle {c' : Int64} {v : Option Int} :
    (⟨whereClause (some (.ge c)) (some (.lt c')), i⟩ : JDBCPartition).Selects v =
      v.any fun n => c.toInt ≤ n && n < c'.toInt := by
  cases v with
  | none => rfl
  | some n =>
    by_cases h : c.toInt ≤ n <;> by_cases h' : n < c'.toInt <;>
      simp [JDBCPartition.Selects, whereClause, WhereClause.eval, h, h', Truth.and]

/-- The lower bound of the partition after `k` more. -/
def bound (c stride : Int64) : Nat → Int64
  | 0 => c
  | k + 1 => bound (c + stride) stride k

lemma toInt_bound (k : Nat) : (bound c stride k).toInt =
    (c.toInt + k * stride.toInt).bmod 18446744073709551616 := by
  induction k generalizing c with
  | zero => simp [bound]
  | succ k ih =>
    rw [bound, ih, Int64.toInt_add]
    change (Int.bmod _ 18446744073709551616 + _).bmod _ = _
    rw [Int.bmod_add_bmod]
    congr 1
    push_cast
    ring

/-- As long as the bounds do not overflow, the partitions from one on take what is not below it. -/
lemma countP_partitions (hi : i ≠ 0) (hn : (i + rest + 1 : Int) = numPartitions.toInt)
    (hs : 0 ≤ stride.toInt) (hc : c.toInt + rest * stride.toInt < 9223372036854775808)
    (v : Option Int) :
    (partitions numPartitions stride (rest + 1) i c).countP (·.Selects v) =
      if v.any (c.toInt ≤ ·) then 1 else 0 := by
  induction rest generalizing i c with
  | zero =>
    have hlast : (i : Int) = numPartitions.toInt - 1 := by omega
    rw [partitions, if_pos hi, if_neg (not_not.mpr hlast), partitions, List.countP_singleton,
      selects_last]
  | succ rest ih =>
    push_cast at hn hc
    have hmiddle : (i : Int) ≠ numPartitions.toInt - 1 := by omega
    have hmul : 0 ≤ (rest : Int) * stride.toInt := mul_nonneg (by omega) hs
    have hmin := c.le_toInt
    have hadd : (c + stride).toInt = c.toInt + stride.toInt := by
      rw [Int64.toInt_add]
      exact Int.bmod_eq_of_le (by norm_num; linarith) (by norm_num; linarith)
    rw [partitions, if_pos hi, if_pos hmiddle, List.countP_cons, selects_middle,
      ih (Nat.succ_ne_zero i) (by push_cast; linarith) (by rw [hadd]; linarith), hadd]
    cases v with
    | none => rfl
    | some n =>
      simp only [Option.any_some, Bool.and_eq_true, decide_eq_true_eq]
      split_ifs <;> omega

lemma mem_partitions (hi : i ≠ 0) (hn : (i + rest + 1 : Int) = numPartitions.toInt) :
    ∃ idx, ⟨some (.ge (bound c stride rest)), idx⟩ ∈
      partitions numPartitions stride (rest + 1) i c := by
  induction rest generalizing i c with
  | zero =>
    have hlast : (i : Int) = numPartitions.toInt - 1 := by omega
    rw [partitions, if_pos hi, if_neg (not_not.mpr hlast)]
    exact ⟨i, List.mem_cons_self⟩
  | succ rest ih =>
    obtain ⟨idx, h⟩ := ih (Nat.succ_ne_zero i) (c := c + stride) (by push_cast at hn ⊢; linarith)
    exact ⟨idx, List.mem_cons_of_mem _ h⟩

lemma partitions_first {n : Nat} (hn : numPartitions.toInt = n + 2) :
    partitions numPartitions stride (n + 2) 0 c =
      ⟨some (.or (.lt (c + stride)) .isNull), 0⟩ ::
        partitions numPartitions stride (n + 1) 1 (c + stride) := by
  have h : ((0 : Nat) : Int) ≠ numPartitions.toInt - 1 := by omega
  rw [partitions, if_neg (by simp), if_pos h]
  rfl

/-- With two partitions or more the last bound decides. -/
lemma coversOnce_iff {n : Nat} (hn : numPartitions.toInt = n + 2) (hs : 0 ≤ stride.toInt)
    (hfirst : c.toInt + stride.toInt < 9223372036854775808)
    (hlast : c.toInt + (n + 1) * stride.toInt < 18446744073709551616 + c.toInt + stride.toInt) :
    CoversOnce (partitions numPartitions stride (n + 2) 0 c) ↔
      c.toInt + (n + 1) * stride.toInt < 9223372036854775808 := by
  have hmin := c.le_toInt
  have hmul : 0 ≤ (n : Int) * stride.toInt := mul_nonneg (by omega) hs
  have hadd : (c + stride).toInt = c.toInt + stride.toInt := by
    rw [Int64.toInt_add]
    exact Int.bmod_eq_of_le (by norm_num; linarith) (by norm_num; linarith)
  rw [partitions_first hn]
  constructor
  · intro h
    by_contra hover
    -- The value of the last bound is below the first bound as well.
    obtain ⟨idx, hmem⟩ := @mem_partitions numPartitions stride (c + stride) n 1 (by decide)
      (by omega)
    have hb : (bound (c + stride) stride n).toInt =
        c.toInt + (n + 1) * stride.toInt - 18446744073709551616 := by
      rw [toInt_bound, hadd, show c.toInt + stride.toInt + n * stride.toInt =
        c.toInt + (n + 1) * stride.toInt - 18446744073709551616 + 18446744073709551616 by ring]
      rw [show (18446744073709551616 : Int) = ((18446744073709551616 : Nat) : Int) from rfl,
        Int.add_bmod_right]
      have hmax := (bound (c + stride) stride n).toInt_lt
      exact Int.bmod_eq_of_le (by norm_num; linarith) (by norm_num; linarith)
    have hone := h.2 (some (bound (c + stride) stride n).toInt)
    rw [List.countP_cons_of_pos] at hone
    · have hzero := List.countP_eq_zero.mp (Nat.succ.inj hone) _ hmem
      exact hzero (by
        change (⟨whereClause (some (.ge _)) none, idx⟩ : JDBCPartition).Selects _ = true
        rw [selects_last]
        simp)
    · change (⟨whereClause none (some (.lt _)), 0⟩ : JDBCPartition).Selects _ = true
      rw [selects_first, hadd, hb]
      simpa using by linarith
  · intro h
    refine ⟨List.cons_ne_nil _ _, fun v => ?_⟩
    rw [List.countP_cons, countP_partitions (by decide) (by omega) hs (by rw [hadd]; linarith)]
    change _ + (if (⟨whereClause none (some (.lt _)), 0⟩ : JDBCPartition).Selects v = true then 1
      else 0) = 1
    rw [selects_first]
    cases v with
    | none => rfl
    | some n =>
      simp only [Option.any_some, Option.all_some, decide_eq_true_eq]
      split_ifs <;> omega

/-! ### Bounds -/

/-- The stride goes down neither, nor past the upper bound. -/
lemma stride_bounds {l u n : Int} (hn : 2 ≤ n) (hd : n ≤ u - l) :
    0 ≤ u.tdiv n - l.tdiv n ∧ l + (u.tdiv n - l.tdiv n) ≤ u ∧
      n * (u.tdiv n - l.tdiv n) ≤ u - l + 2 * n - 2 := by
  have hpos : 0 < n := by omega
  have hu := Int.mul_tdiv_add_tmod u n
  have hl := Int.mul_tdiv_add_tmod l n
  have hul := Int.lt_tmod_of_pos u hpos
  have huu := Int.tmod_lt_of_pos u hpos
  have hll := Int.lt_tmod_of_pos l hpos
  have hlu := Int.tmod_lt_of_pos l hpos
  have hmul : n * (u.tdiv n - l.tdiv n) = u - l - (u.tmod n - l.tmod n) := by
    rw [mul_sub]
    linarith
  have hle : n * (u.tdiv n - l.tdiv n) ≤ u - l + 2 * n - 2 := by omega
  refine ⟨?_, ?_, hle⟩
  · by_contra h
    have : n * (u.tdiv n - l.tdiv n) ≤ n * (-1) := mul_le_mul_of_nonneg_left (by omega) hpos.le
    omega
  · by_contra h
    have hd' : u - l + 1 ≤ u.tdiv n - l.tdiv n := by omega
    have : n * (u - l + 1) ≤ n * (u.tdiv n - l.tdiv n) := mul_le_mul_of_nonneg_left hd' hpos.le
    nlinarith

end MbJDBCRelation

open MbJDBCRelation

/-- The difference of the bounds is a `Long`, and so is the last bound that is computed. -/
def JDBCPartitioningInfo.Fits (info : JDBCPartitioningInfo) : Prop :=
  let lower := info.lowerBound.toInt
  let upper := info.upperBound.toInt
  let n := min info.numPartitions.toInt (upper - lower)
  info.numPartitions.toInt ≤ 1 ∨ lower = upper ∨
    upper - lower < 9223372036854775808 ∧
      lower + (n - 1) * (upper.tdiv n - lower.tdiv n) < 9223372036854775808

lemma toInt_div_of_two_le {a n : Int64} (hn : 2 ≤ n.toInt) :
    (a / n).toInt = a.toInt.tdiv n.toInt := by
  have hmin := a.le_toInt
  have hmax := a.toInt_lt
  have hle := Int.natAbs_tdiv_le_natAbs a.toInt n.toInt
  have hmul := Int.mul_tdiv_add_tmod a.toInt n.toInt
  have hlt := Int.tmod_lt_of_pos a.toInt (b := n.toInt) (by omega)
  have hgt := Int.lt_tmod_of_pos a.toInt (b := n.toInt) (by omega)
  rw [Int64.toInt_div]
  refine Int.bmod_eq_of_le ?_ ?_
  · norm_num
    omega
  · norm_num
    by_contra h
    have : a.toInt.tdiv n.toInt = 9223372036854775808 := by omega
    rw [this] at hmul
    omega

/-- The partitions cover every row exactly once exactly if no bound overflows. -/
theorem coversOnce_columnPartition_iff (info : JDBCPartitioningInfo)
    (hbounds : info.lowerBound ≤ info.upperBound) :
    (∃ parts, columnPartition (some info) = .ok parts ∧ CoversOnce parts) ↔ info.Fits := by
  have hwhole : CoversOnce [⟨none, 0⟩] := ⟨List.cons_ne_nil _ _, fun v => by cases v <;> rfl⟩
  have hone : (1 : Int32).toInt = 1 := rfl
  have hle := Int64.le_iff_toInt_le.mp hbounds
  have hlmin := info.lowerBound.le_toInt
  have humax := info.upperBound.toInt_lt
  rw [columnPartition, JDBCPartitioningInfo.Fits]
  by_cases hsmall : info.numPartitions ≤ 1 ∨ info.lowerBound = info.upperBound
  · rw [if_pos hsmall]
    refine iff_of_true ⟨_, rfl, hwhole⟩ ?_
    rcases hsmall with h | h
    · exact .inl (hone ▸ Int32.le_iff_toInt_le.mp h)
    · exact .inr (.inl (congrArg _ h))
  rw [not_or] at hsmall
  obtain ⟨hnum, hne⟩ := hsmall
  have hnum' : 2 ≤ info.numPartitions.toInt := by
    rw [Int32.le_iff_toInt_le, hone] at hnum
    omega
  have hne' : info.lowerBound.toInt ≠ info.upperBound.toInt := fun h => hne (Int64.toInt_inj.mp h)
  have hnmax := info.numPartitions.toInt_lt
  rw [if_neg (not_or.mpr ⟨hnum, hne⟩), if_neg (not_not.mpr hbounds)]
  simp only [Except.ok.injEq, exists_eq_left']
  have hsub := Int64.toInt_sub info.upperBound info.lowerBound
  by_cases hover : info.upperBound.toInt - info.lowerBound.toInt < 9223372036854775808
  · have hdiff : (info.upperBound - info.lowerBound).toInt =
        info.upperBound.toInt - info.lowerBound.toInt := by
      rw [hsub]
      exact Int.bmod_eq_of_le (by norm_num; omega) (by norm_num; omega)
    generalize hN : (if info.numPartitions.toInt64 ≤ info.upperBound - info.lowerBound then
      info.numPartitions.toInt64 else info.upperBound - info.lowerBound) = N
    have hmin : N.toInt =
        min info.numPartitions.toInt (info.upperBound.toInt - info.lowerBound.toInt) := by
      rw [← hN, min_def, ← hdiff, ← Int32.toInt_toInt64]
      simp only [← Int64.le_iff_toInt_le]
      split <;> rfl
    rw [← hmin]
    have hd : N.toInt ≤ info.upperBound.toInt - info.lowerBound.toInt := by omega
    simp only [hover, true_and, show ¬info.numPartitions.toInt ≤ 1 by omega, hne', false_or]
    rcases (show N.toInt = 1 ∨ 2 ≤ N.toInt by omega) with h | h
    · refine iff_of_true ?_ (by rw [h]; omega)
      have hlast : ((0 : Nat) : Int) = N.toInt - 1 := by omega
      rw [h, show (1 : Int).toNat = 1 from rfl, partitions, if_neg (by simp),
        if_neg (not_not.mpr hlast), partitions]
      exact hwhole
    · obtain ⟨hs, hfirst, hmul⟩ := stride_bounds h hd
      have hstride : (info.upperBound / N - info.lowerBound / N).toInt =
          info.upperBound.toInt.tdiv N.toInt - info.lowerBound.toInt.tdiv N.toInt := by
        rw [Int64.toInt_sub, toInt_div_of_two_le h, toInt_div_of_two_le h]
        exact Int.bmod_eq_of_le (by norm_num; omega) (by norm_num; omega)
      rw [← hstride] at hs hfirst hmul ⊢
      obtain ⟨n, hn⟩ : ∃ n : Nat, N.toInt = n + 2 := ⟨(N.toInt - 2).toNat, by omega⟩
      rw [show N.toInt.toNat = n + 2 by omega, coversOnce_iff hn hs (by omega), hn]
      · rw [show ((n : Int) + 2 - 1) = n + 1 by ring]
      · rw [hn] at hmul
        have hmono := mul_le_mul_of_nonneg_right (show (n : Int) ≤ n + 2 by omega) hs
        have hsucc := add_one_mul (n : Int) (info.upperBound / N - info.lowerBound / N).toInt
        omega
  · refine iff_of_false ?_ (by simp [hover, hne', show ¬info.numPartitions.toInt ≤ 1 by omega])
    have hdiff : (info.upperBound - info.lowerBound).toInt =
        info.upperBound.toInt - info.lowerBound.toInt - 18446744073709551616 := by
      have humin := info.upperBound.le_toInt
      have hlmax := info.lowerBound.toInt_lt
      have hadd := Int.add_bmod_right (info.upperBound.toInt - info.lowerBound.toInt -
        18446744073709551616) 18446744073709551616
      rw [show info.upperBound.toInt - info.lowerBound.toInt - 18446744073709551616 +
        (18446744073709551616 : Nat) = info.upperBound.toInt - info.lowerBound.toInt by omega]
        at hadd
      rw [hsub]
      exact hadd.trans (Int.bmod_eq_of_le (by norm_num; omega) (by norm_num; omega))
    have hneg : ¬info.numPartitions.toInt64 ≤ info.upperBound - info.lowerBound := by
      rw [Int64.le_iff_toInt_le, hdiff, Int32.toInt_toInt64]
      omega
    rw [if_neg hneg, hdiff, show (info.upperBound.toInt - info.lowerBound.toInt -
      18446744073709551616).toNat = 0 by omega, partitions]
    exact fun h => h.1 rfl

/-- Four partitions of the values from 1 to 20 -/
theorem coversOnce_columnPartition_four :
    (1 : Int64) ≤ 20 ∧
      ((∃ parts, columnPartition (some ⟨1, 20, 4⟩) = .ok parts ∧ CoversOnce parts) ↔
        JDBCPartitioningInfo.Fits ⟨1, 20, 4⟩) :=
  ⟨by decide, coversOnce_columnPartition_iff ⟨1, 20, 4⟩ (by decide)⟩

/-- Bounds whose difference is no `Long` leave no partition, and so no row. -/
theorem coversOnce_columnPartition_fails :
    ¬ ∀ info : JDBCPartitioningInfo, info.lowerBound ≤ info.upperBound →
      ∃ parts, columnPartition (some info) = .ok parts ∧ CoversOnce parts := by
  intro h
  obtain ⟨parts, hparts, hcovers⟩ := h ⟨-9000000000000000000, 9000000000000000000, 4⟩ (by decide)
  cases hparts
  exact hcovers.1 (by decide)

end Moonbox.DataSys
