import Moonbox.HBase.RowKeyFilter

/-!
# Scans of a table

The ranges and points of row keys that are to be read, cut along the regions of the table, and how
often the partitions together read a row key.
-/

namespace Moonbox.HBase

open ByteOrder

structure Bound where
  b : Bytes
  inc : Bool

structure Range where
  lower : Option Bound
  upper : Option Bound

/-- The keys from the start on, before the stop. The stop of the last region is empty. -/
structure HBaseRegion where
  start : Bytes
  stop : Bytes

structure HBaseScanPartition where
  regions : HBaseRegion
  scanRanges : List Range
  points : List Bytes

def Range.ofRegion (region : HBaseRegion) : Range where
  lower := some ⟨region.start, true⟩
  upper := if region.stop.isEmpty then none else some ⟨region.stop, false⟩

/-- An upper bound that is in the range is made one that is not, by a byte of zero behind it. -/
def ScanRange.addRange (r : ScanRange) : Range where
  lower := if r.lowerBound.isEmpty then none else some ⟨r.lowerBound, r.isLowerBoundEqualTo⟩
  upper :=
    match r.upperBound with
    | none => none
    | some upperBound =>
      if upperBound.isEmpty then none
      else if r.isUpperBoundEqualTo then some ⟨upperBound ++ [0], false⟩
      else some ⟨upperBound, false⟩

def andLower : Option Bound → Option Bound → Option Bound
  | some x, some y => some (if x.b < y.b then y else x)
  | some x, none => some x
  | none, y => y

def andUpper : Option Bound → Option Bound → Option Bound
  | some x, some y => some (if y.b ≤ x.b then y else x)
  | some x, none => some x
  | none, y => y

/-- A range that ends before it begins is left out. -/
def nonempty (lower upper : Option Bound) : Bool :=
  match lower, upper with
  | some x, some y => x.b < y.b
  | _, _ => true

/-- `Ranges.and` -/
def Range.and (r : Range) (rs : List Range) : List Range :=
  rs.filterMap fun s =>
    let lower := andLower s.lower r.lower
    let upper := andUpper s.upper r.upper
    if nonempty lower upper then some ⟨lower, upper⟩ else none

/-- `Points.and`. The lower bound of a region is there. -/
def Range.andPoints (r : Range) (ps : List Bytes) : List Bytes :=
  ps.filter fun p => (r.lower.all fun lower => lower.b ≤ p) && r.upper.all fun upper => p < upper.b

def getPartitions (regions : List HBaseRegion) (ranges : List Range) (points : List Bytes) :
    List HBaseScanPartition :=
  regions.filterMap fun x =>
    let rs := (Range.ofRegion x).and ranges
    let ps := (Range.ofRegion x).andPoints points
    if rs.isEmpty && ps.isEmpty then none else some ⟨x, rs, ps⟩

/-! ### What is read -/

/-- A scan starts with the lower bound and stops before the upper bound, whatever `inc` says. -/
def Range.reads (r : Range) (x : Bytes) : Bool :=
  (r.lower.all fun lower => lower.b ≤ x) && r.upper.all fun upper => x < upper.b

/-- How often the scans and gets of a partition read the row key -/
def HBaseScanPartition.timesRead (p : HBaseScanPartition) (x : Bytes) : Nat :=
  p.scanRanges.countP (·.reads x) + p.points.count x

def timesRead (partitions : List HBaseScanPartition) (x : Bytes) : Nat :=
  (partitions.map (·.timesRead x)).sum

/-- The regions are those of a table, from a start on: each begins where the one before it stops. -/
def IsSplit : Bytes → List HBaseRegion → Prop
  | _, [] => False
  | start, [r] => r.start = start ∧ r.stop = []
  | start, r :: next :: rs => r.start = start ∧ start < r.stop ∧ IsSplit r.stop (next :: rs)

variable {r s : Range} {x start : Bytes} {regions : List HBaseRegion}

lemma reads_iff : r.reads x = true ↔
    (∀ lower ∈ r.lower, lower.b ≤ x) ∧ ∀ upper ∈ r.upper, x < upper.b := by
  simp [Range.reads, Option.all_eq_true]

lemma andLower_le_iff (l l' : Option Bound) (x : Bytes) :
    (∀ lower ∈ andLower l l', lower.b ≤ x) ↔
      (∀ lower ∈ l, lower.b ≤ x) ∧ ∀ lower ∈ l', lower.b ≤ x := by
  rcases l with - | l <;> rcases l' with - | l' <;> simp only [andLower, Option.mem_def,
    Option.some.injEq, forall_eq', reduceCtorEq, false_implies, implies_true, true_and, and_true]
  split
  · rename_i hlt
    exact ⟨fun h => ⟨hlt.le.trans h, h⟩, And.right⟩
  · rename_i hle
    exact ⟨fun h => ⟨h, (not_lt.mp hle).trans h⟩, And.left⟩

lemma lt_andUpper_iff (u u' : Option Bound) (x : Bytes) :
    (∀ upper ∈ andUpper u u', x < upper.b) ↔
      (∀ upper ∈ u, x < upper.b) ∧ ∀ upper ∈ u', x < upper.b := by
  rcases u with - | u <;> rcases u' with - | u' <;> simp only [andUpper, Option.mem_def,
    Option.some.injEq, forall_eq', reduceCtorEq, false_implies, implies_true, true_and, and_true]
  split
  · rename_i hle
    exact ⟨fun h => ⟨h.trans_le hle, h⟩, And.right⟩
  · rename_i hlt
    exact ⟨fun h => ⟨h, h.trans (not_le.mp hlt)⟩, And.left⟩

/-- A range that is left out reads nothing. -/
lemma not_reads_of_empty (h : nonempty r.lower r.upper = false) : r.reads x = false := by
  rw [Bool.eq_false_iff, ne_eq, reads_iff]
  rintro ⟨hlower, hupper⟩
  unfold nonempty at h
  split at h
  · rename_i lower upper hl hu
    simp only [decide_eq_false_iff_not] at h
    exact h ((hlower lower hl).trans_lt (hupper upper hu))
  · cases h

/-- The part of a range that is in another is read just where both are. -/
lemma countP_and (r : Range) (rs : List Range) (x : Bytes) :
    (r.and rs).countP (·.reads x) = if r.reads x = true then rs.countP (·.reads x) else 0 := by
  have hreads (s : Range) : Range.reads ⟨andLower s.lower r.lower, andUpper s.upper r.upper⟩ x =
      (s.reads x && r.reads x) := by
    rw [Bool.eq_iff_iff, Bool.and_eq_true, reads_iff, reads_iff, reads_iff, andLower_le_iff,
      lt_andUpper_iff]
    tauto
  induction rs with
  | nil => simp [Range.and]
  | cons s rs ih =>
    have hs := hreads s
    simp only [Range.and, List.filterMap_cons] at ih ⊢
    cases hempty : nonempty (andLower s.lower r.lower) (andUpper s.upper r.upper) with
    | true =>
      simp only [if_true, List.countP_cons, ih, hs]
      cases r.reads x <;> simp
    | false =>
      have hnot : Range.reads ⟨andLower s.lower r.lower, andUpper s.upper r.upper⟩ x = false :=
        not_reads_of_empty hempty
      rw [hs] at hnot
      simp only [Bool.false_eq_true, if_false, ih, List.countP_cons]
      cases hr : r.reads x <;> simp_all

lemma count_andPoints (r : Range) (ps : List Bytes) (x : Bytes) :
    (r.andPoints ps).count x = if r.reads x = true then ps.count x else 0 := by
  split
  · rename_i hreads
    exact List.count_filter hreads
  · rename_i hreads
    refine List.count_eq_zero.mpr fun hmem => hreads ?_
    exact (List.mem_filter.mp hmem).2

lemma reads_ofRegion {region : HBaseRegion} : (Range.ofRegion region).reads x = true ↔
    region.start ≤ x ∧ (region.stop ≠ [] → x < region.stop) := by
  rw [reads_iff, Range.ofRegion]
  cases hstop : region.stop <;> simp

/-- A row key is in one region only. -/
lemma sum_reads (hsplit : IsSplit start regions) (n : Nat) (x : Bytes) :
    (regions.map fun region => if (Range.ofRegion region).reads x = true then n else 0).sum =
      if start ≤ x then n else 0 := by
  induction regions generalizing start with
  | nil => cases hsplit
  | cons r regions ih =>
    cases regions with
    | nil =>
      obtain ⟨rfl, hstop⟩ := hsplit
      simp [reads_ofRegion, hstop]
    | cons next regions =>
      obtain ⟨rfl, hlt, hsplit⟩ := hsplit
      have hne : r.stop ≠ [] := fun h => (nil_le r.start).not_gt (h ▸ hlt)
      rw [List.map_cons, List.sum_cons, ih hsplit]
      simp only [reads_ofRegion, hne, ne_eq, not_false_eq_true, true_implies]
      rcases lt_or_ge x r.stop with h | h
      · simp [h, h.not_ge]
      · simp [h, h.not_gt, hlt.le.trans h]

lemma timesRead_eq_sum (regions : List HBaseRegion) (ranges : List Range) (points : List Bytes)
    (x : Bytes) :
    timesRead (getPartitions regions ranges points) x =
      (regions.map fun region => if (Range.ofRegion region).reads x = true then
        ranges.countP (·.reads x) + points.count x else 0).sum := by
  induction regions with
  | nil => rfl
  | cons region regions ih =>
    have hranges := countP_and (Range.ofRegion region) ranges x
    have hpoints := count_andPoints (Range.ofRegion region) points x
    rw [List.map_cons, List.sum_cons, ← ih, getPartitions, List.filterMap_cons]
    dsimp only
    cases hempty : ((Range.ofRegion region).and ranges).isEmpty &&
      ((Range.ofRegion region).andPoints points).isEmpty with
    | true =>
      -- A region where nothing is to be read has no partition.
      rw [Bool.and_eq_true, List.isEmpty_iff, List.isEmpty_iff] at hempty
      rw [hempty.1, List.countP_nil] at hranges
      rw [hempty.2, List.count_nil] at hpoints
      split_ifs at hranges hpoints ⊢ <;> simp_all [getPartitions]
    | false =>
      have htimes : HBaseScanPartition.timesRead ⟨region, (Range.ofRegion region).and ranges,
          (Range.ofRegion region).andPoints points⟩ x =
          if (Range.ofRegion region).reads x = true then
            ranges.countP (·.reads x) + points.count x else 0 := by
        rw [HBaseScanPartition.timesRead, hranges, hpoints]
        split_ifs <;> rfl
      rw [← htimes]
      rfl

/-- However a table is split into regions, a row key is read as often as it is among the points and
in the ranges. -/
theorem timesRead_getPartitions {regions : List HBaseRegion} (hsplit : IsSplit [] regions)
    (ranges : List Range) (points : List Bytes) (x : Bytes) :
    timesRead (getPartitions regions ranges points) x =
      ranges.countP (·.reads x) + points.count x := by
  rw [timesRead_eq_sum, sum_reads hsplit, if_pos (nil_le x)]

/-! ### Row keys that a filter takes -/

lemma reads_addRange {r : ScanRange} (h : r.containsPoint x = true) :
    r.addRange.reads x = true := by
  obtain ⟨habove, hbelow⟩ := ScanRange.containsPoint_iff.mp h
  refine reads_iff.mpr ⟨fun lower hlower => ?_, fun upper hupper => ?_⟩
  · unfold ScanRange.addRange at hlower
    dsimp only at hlower
    split at hlower
    · cases hlower
    · obtain rfl := Option.some.inj hlower
      exact habove.le
  · obtain ⟨upperBound, isUpperBoundEqualTo, lowerBound, isLowerBoundEqualTo⟩ := r
    cases upperBound with
    | top => cases hupper
    | coe upperBound =>
      have hle := WithTop.coe_le_coe.mp hbelow.le
      unfold ScanRange.addRange at hupper
      dsimp only at hupper
      split_ifs at hupper with hnil hinc
      · cases hupper
      · obtain rfl := Option.some.inj hupper
        exact (lt_append_zero_iff x upperBound).mpr hle
      · obtain rfl := Option.some.inj hupper
        refine WithTop.coe_lt_coe.mp (hbelow.resolve_right ?_)
        rintro ⟨hinc', -⟩
        exact hinc hinc'

lemma countP_addRange_pos {ranges : List ScanRange}
    (h : ∃ r ∈ ranges, r.containsPoint x = true) :
    0 < (ranges.map (·.addRange)).countP (·.reads x) := by
  obtain ⟨r, hr, hx⟩ := h
  exact List.countP_pos_iff.mpr ⟨_, List.mem_map_of_mem hr, reads_addRange hx⟩

/-- The partitions of a scan with the points and ranges of a filter -/
def RowKeyFilter.getPartitions (f : RowKeyFilter) (regions : List HBaseRegion) :
    List HBaseScanPartition :=
  HBase.getPartitions regions (f.ranges.map (·.addRange)) f.points

/-- A row key that a filter takes is read. -/
lemma timesRead_pos {f : RowKeyFilter} (hsplit : IsSplit [] regions) (h : f.Takes x) :
    0 < timesRead (f.getPartitions regions) x := by
  rw [RowKeyFilter.getPartitions, timesRead_getPartitions hsplit]
  rcases h with h | h
  · have hgets := List.count_pos_iff.mpr h
    omega
  · have hscans := countP_addRange_pos h
    omega

end Moonbox.HBase
