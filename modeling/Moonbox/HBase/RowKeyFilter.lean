import Moonbox.Lib.ByteOrder

/-!
# Filters of row keys

The row keys that a condition leaves to be read: single points, and ranges that are merged where
the condition is a conjunction or a disjunction.
-/

namespace Moonbox.HBase

open ByteOrder

/-- The absent upper bound is `⊤`. A lower bound is never absent. -/
structure ScanRange where
  upperBound : WithTop Bytes
  isUpperBoundEqualTo : Bool
  lowerBound : Bytes
  isLowerBoundEqualTo : Bool

/-- The absent bound is the greatest. -/
def compareRange (left right : WithTop Bytes) : Ordering :=
  if left < right then .lt else if right < left then .gt else .eq

section CompareRange

variable {left right : WithTop Bytes}

@[simp] lemma compareRange_eq_lt : compareRange left right = .lt ↔ left < right := by
  unfold compareRange
  split_ifs <;> simp_all

@[simp] lemma compareRange_eq_gt : compareRange left right = .gt ↔ right < left := by
  unfold compareRange
  split_ifs with hlt
  · simp [hlt.not_gt]
  · simp_all
  · simp_all

@[simp] lemma compareRange_eq_eq : compareRange left right = .eq ↔ left = right := by
  unfold compareRange
  split_ifs with hlt hgt
  · simp [hlt.ne]
  · simp [hgt.ne']
  · simpa using le_antisymm (not_lt.mp hgt) (not_lt.mp hlt)

@[simp] lemma isGE_compareRange : (compareRange left right).isGE = true ↔ right ≤ left := by
  rw [Ordering.isGE_iff_ne_lt, compareRange_eq_lt, not_lt]

@[simp] lemma isLE_compareRange : (compareRange left right).isLE = true ↔ left ≤ right := by
  rw [Ordering.isLE_iff_ne_gt, compareRange_eq_gt, not_lt]

end CompareRange

namespace ScanRange

variable {r other : ScanRange} {x : Bytes}

def mergeUnion (r other : ScanRange) : ScanRange :=
  let upperBoundCompare := compareRange r.upperBound other.upperBound
  let lowerBoundCompare := compareRange r.lowerBound other.lowerBound
  { upperBound := if upperBoundCompare.isGT then r.upperBound else other.upperBound
    lowerBound := if lowerBoundCompare.isLT then r.lowerBound else other.lowerBound
    isLowerBoundEqualTo :=
      if lowerBoundCompare.isEq then r.isLowerBoundEqualTo || other.isLowerBoundEqualTo
      else if lowerBoundCompare.isLT then r.isLowerBoundEqualTo else other.isLowerBoundEqualTo
    isUpperBoundEqualTo :=
      if upperBoundCompare.isEq then r.isUpperBoundEqualTo || other.isUpperBoundEqualTo
      else if upperBoundCompare.isLT then other.isUpperBoundEqualTo else r.isUpperBoundEqualTo }

def hasOverlap (left right : ScanRange) : Bool :=
  (compareRange left.upperBound right.lowerBound).isGE

/-- The lower bound is that of the range which is taken to be the right one. -/
def getOverLapScanRange (r other : ScanRange) : Option ScanRange :=
  let isLeft := (compareRange r.lowerBound other.lowerBound).isLT ||
    (compareRange r.upperBound other.upperBound).isLT
  let leftRange := if isLeft then r else other
  let rightRange := if isLeft then other else r
  if hasOverlap leftRange rightRange then
    if (compareRange leftRange.upperBound rightRange.upperBound).isGE then
      some rightRange
    else
      some { upperBound := leftRange.upperBound
             isUpperBoundEqualTo := leftRange.isUpperBoundEqualTo
             lowerBound := rightRange.lowerBound
             isLowerBoundEqualTo := rightRange.isLowerBoundEqualTo }
  else none

def containsPoint (r : ScanRange) (point : Bytes) : Bool :=
  let lowerCompare := compareRange point r.lowerBound
  let upperCompare := compareRange point r.upperBound
  (r.isLowerBoundEqualTo && lowerCompare.isGE || !r.isLowerBoundEqualTo && lowerCompare.isGT) &&
    (r.isUpperBoundEqualTo && upperCompare.isLE || !r.isUpperBoundEqualTo && upperCompare.isLT)

/-! ### Points of a range -/

/-- The point is not below the range. -/
def Above (r : ScanRange) (x : Bytes) : Prop :=
  r.lowerBound < x ∨ r.isLowerBoundEqualTo = true ∧ r.lowerBound = x

/-- The point is not above the range. -/
def Below (r : ScanRange) (x : Bytes) : Prop :=
  x < r.upperBound ∨ r.isUpperBoundEqualTo = true ∧ x = r.upperBound

lemma containsPoint_iff : r.containsPoint x = true ↔ r.Above x ∧ r.Below x := by
  simp only [containsPoint, Above, Below, Bool.and_eq_true]
  refine and_congr ?_ ?_
  · cases r.isLowerBoundEqualTo <;> simp [le_iff_lt_or_eq]
  · cases r.isUpperBoundEqualTo <;> simp [le_iff_lt_or_eq]

lemma Above.le (h : r.Above x) : r.lowerBound ≤ x := h.elim le_of_lt fun h => h.2.le

lemma Below.le (h : r.Below x) : (x : WithTop Bytes) ≤ r.upperBound :=
  h.elim le_of_lt fun h => h.2.le

lemma above_mergeUnion (h : r.Above x ∨ other.Above x) : (r.mergeUnion other).Above x := by
  rcases lt_trichotomy r.lowerBound other.lowerBound with hlt | heq | hgt
  · have hmerge : (r.mergeUnion other).Above x ↔ r.Above x := by
      simp [Above, mergeUnion, hlt, hlt.ne]
    exact hmerge.mpr (h.elim id fun h => .inl (hlt.trans_le h.le))
  · have hmerge : (r.mergeUnion other).Above x ↔ r.Above x ∨ other.Above x := by
      simp [Above, mergeUnion, heq]
      tauto
    exact hmerge.mpr h
  · have hmerge : (r.mergeUnion other).Above x ↔ other.Above x := by
      simp [Above, mergeUnion, hgt.not_gt, hgt.ne']
    exact hmerge.mpr (h.elim (fun h => .inl (hgt.trans_le h.le)) id)

lemma below_mergeUnion (h : r.Below x ∨ other.Below x) : (r.mergeUnion other).Below x := by
  rcases lt_trichotomy r.upperBound other.upperBound with hlt | heq | hgt
  · have hmerge : (r.mergeUnion other).Below x ↔ other.Below x := by
      simp [Below, mergeUnion, hlt, hlt.ne, hlt.not_gt]
    exact hmerge.mpr (h.elim (fun h => .inl (h.le.trans_lt hlt)) id)
  · have hmerge : (r.mergeUnion other).Below x ↔ r.Below x ∨ other.Below x := by
      simp [Below, mergeUnion, heq]
      tauto
    exact hmerge.mpr h
  · have hmerge : (r.mergeUnion other).Below x ↔ r.Below x := by
      simp [Below, mergeUnion, hgt, hgt.not_gt, hgt.ne']
    exact hmerge.mpr (h.elim id fun h => .inl (h.le.trans_lt hgt))

/-- A union has the points of both ranges, and those between them. -/
lemma containsPoint_mergeUnion (h : r.containsPoint x = true ∨ other.containsPoint x = true) :
    (r.mergeUnion other).containsPoint x = true := by
  simp only [containsPoint_iff] at h ⊢
  exact ⟨above_mergeUnion (h.imp And.left And.left), below_mergeUnion (h.imp And.right And.right)⟩

/-- An overlap has the points that both ranges have. -/
lemma exists_getOverLapScanRange (h : r.containsPoint x = true)
    (h' : other.containsPoint x = true) :
    ∃ overlap, r.getOverLapScanRange other = some overlap ∧ overlap.containsPoint x = true := by
  have hoverlap (left right : ScanRange) (hl : left.containsPoint x = true)
      (hr : right.containsPoint x = true) : ∃ overlap,
      (if hasOverlap left right then
        if (compareRange left.upperBound right.upperBound).isGE then some right
        else some { upperBound := left.upperBound
                    isUpperBoundEqualTo := left.isUpperBoundEqualTo
                    lowerBound := right.lowerBound
                    isLowerBoundEqualTo := right.isLowerBoundEqualTo }
      else none) = some overlap ∧ overlap.containsPoint x = true := by
    rw [containsPoint_iff] at hl hr
    have hle : (right.lowerBound : WithTop Bytes) ≤ left.upperBound :=
      (WithTop.coe_le_coe.mpr hr.1.le).trans hl.2.le
    rw [if_pos (by simpa [hasOverlap] using hle)]
    split
    · exact ⟨_, rfl, containsPoint_iff.mpr hr⟩
    · exact ⟨_, rfl, containsPoint_iff.mpr ⟨hr.1, hl.2⟩⟩
  unfold getOverLapScanRange
  dsimp only
  split
  · exact hoverlap r other h h'
  · exact hoverlap other r h' h

end ScanRange

/-! ### Filters -/

/-- All row keys -/
def ScanRange.all : ScanRange := ⟨⊤, true, [], true⟩

structure RowKeyFilter where
  points : List Bytes
  ranges : List ScanRange

namespace RowKeyFilter

variable {f other : RowKeyFilter} {ranges : List ScanRange} {r : ScanRange} {x : Bytes}

def ofPoint (currentPoint : Bytes) : RowKeyFilter := ⟨[currentPoint], []⟩

def ofRange (currentRange : ScanRange) : RowKeyFilter := ⟨[], [currentRange]⟩

def all : RowKeyFilter := ofRange .all

/-- A range is merged into all that overlap with it. -/
def addRange (ranges : List ScanRange) (otherR : ScanRange) : List ScanRange :=
  if ranges.any fun r => (r.getOverLapScanRange otherR).isSome then
    ranges.map fun r => if (r.getOverLapScanRange otherR).isSome then r.mergeUnion otherR else r
  else ranges ++ [otherR]

def mergeUnion (f other : RowKeyFilter) : RowKeyFilter :=
  { points := f.points ++ other.points
    ranges := other.ranges.foldl addRange f.ranges }

/-- The points that are in one of the filters only are looked up in the ranges of the first. -/
def mergeIntersect (f other : RowKeyFilter) : RowKeyFilter :=
  let survivingPoints := f.points.flatMap fun p => other.points.filter fun otherP => p == otherP
  let didntSurviveFirstPassPoints :=
    if f.points.isEmpty then other.points
    else f.points.flatMap fun p =>
      if other.points.isEmpty then [p]
      else (other.points.filter fun otherP => p != otherP).map fun _ => p
  { points := survivingPoints ++
      if f.ranges.isEmpty then didntSurviveFirstPassPoints
      else f.ranges.flatMap fun r => didntSurviveFirstPassPoints.filter r.containsPoint
    ranges := f.ranges.flatMap fun r => other.ranges.filterMap r.getOverLapScanRange }

lemma points_mergeIntersect (h : f.points = []) (h' : other.points = []) :
    (f.mergeIntersect other).points = [] := by
  simp [mergeIntersect, h, h']

lemma ranges_mergeIntersect (h : f.ranges = [] ∨ other.ranges = []) :
    (f.mergeIntersect other).ranges = [] := by
  rcases h with h | h <;> simp [mergeIntersect, h]

/-- The row key is a point of the filter or in one of its ranges. -/
def Takes (f : RowKeyFilter) (x : Bytes) : Prop :=
  x ∈ f.points ∨ ∃ r ∈ f.ranges, r.containsPoint x = true

lemma takes_all (x : Bytes) : all.Takes x := by
  refine .inr ⟨.all, List.mem_singleton_self _, ScanRange.containsPoint_iff.mpr ⟨?_, ?_⟩⟩
  · rcases (nil_le x).lt_or_eq with h | h
    · exact .inl h
    · exact .inr ⟨rfl, h⟩
  · exact .inl (WithTop.coe_lt_top x)

lemma exists_mem_addRange {otherR : ScanRange}
    (h : (∃ r ∈ ranges, r.containsPoint x = true) ∨ otherR.containsPoint x = true) :
    ∃ r ∈ addRange ranges otherR, r.containsPoint x = true := by
  unfold addRange
  split
  · rename_i hany
    rcases h with ⟨r, hr, hx⟩ | hx
    · refine ⟨_, List.mem_map_of_mem hr, ?_⟩
      split
      · exact ScanRange.containsPoint_mergeUnion (.inl hx)
      · exact hx
    · obtain ⟨r, hr, hoverlap⟩ := List.any_eq_true.mp hany
      refine ⟨_, List.mem_map_of_mem hr, ?_⟩
      rw [if_pos hoverlap]
      exact ScanRange.containsPoint_mergeUnion (.inr hx)
  · rcases h with ⟨r, hr, hx⟩ | hx
    · exact ⟨r, List.mem_append_left _ hr, hx⟩
    · exact ⟨otherR, List.mem_append_right _ (List.mem_singleton_self _), hx⟩

lemma exists_mem_foldl_addRange {others : List ScanRange}
    (h : (∃ r ∈ ranges, r.containsPoint x = true) ∨ ∃ r ∈ others, r.containsPoint x = true) :
    ∃ r ∈ others.foldl addRange ranges, r.containsPoint x = true := by
  induction others generalizing ranges with
  | nil => simpa using h
  | cons otherR others ih =>
    refine ih ?_
    rcases h with h | ⟨r, hr, hx⟩
    · exact .inl (exists_mem_addRange (.inl h))
    · rcases List.mem_cons.mp hr with rfl | hr
      · exact .inl (exists_mem_addRange (.inr hx))
      · exact .inr ⟨r, hr, hx⟩

/-- A disjunction keeps what either side takes. -/
lemma takes_mergeUnion (h : f.Takes x ∨ other.Takes x) : (f.mergeUnion other).Takes x := by
  rcases h with (h | h) | (h | h)
  · exact .inl (List.mem_append_left _ h)
  · exact .inr (exists_mem_foldl_addRange (.inl h))
  · exact .inl (List.mem_append_right _ h)
  · exact .inr (exists_mem_foldl_addRange (.inr h))

/-- A conjunction keeps what both sides take, if the first has no points or no ranges. -/
lemma takes_mergeIntersect (hpure : f.points = [] ∨ f.ranges = []) (h : f.Takes x)
    (h' : other.Takes x) : (f.mergeIntersect other).Takes x := by
  rcases h with h | ⟨r, hr, hx⟩
  · have hranges : f.ranges = [] := hpure.resolve_left (List.ne_nil_of_mem h)
    have hne : f.points.isEmpty = false := by simpa using List.ne_nil_of_mem h
    refine .inl ?_
    simp only [mergeIntersect, hranges, hne, List.isEmpty_nil, if_true, Bool.false_eq_true,
      if_false, List.mem_append, List.mem_flatMap]
    by_cases hmem : x ∈ other.points
    · exact .inl ⟨x, h, by simp [hmem]⟩
    · refine .inr ⟨x, h, ?_⟩
      cases hpoints : other.points with
      | nil => simp
      | cons p points =>
        rw [hpoints, List.mem_cons, not_or] at hmem
        simp [hmem.1]
  · have hpoints : f.points = [] := hpure.resolve_right (List.ne_nil_of_mem hr)
    have hne : f.ranges.isEmpty = false := by simpa using List.ne_nil_of_mem hr
    rcases h' with h' | ⟨r', hr', hx'⟩
    · refine .inl ?_
      simp only [mergeIntersect, hpoints, hne, List.isEmpty_nil, if_true, Bool.false_eq_true,
        if_false, List.flatMap_nil, List.nil_append, List.mem_flatMap]
      exact ⟨r, hr, List.mem_filter.mpr ⟨h', hx⟩⟩
    · obtain ⟨overlap, hoverlap, hmem⟩ := ScanRange.exists_getOverLapScanRange hx hx'
      exact .inr ⟨overlap, List.mem_flatMap.mpr ⟨r, hr, List.mem_filterMap.mpr ⟨r', hr', hoverlap⟩⟩,
        hmem⟩

end RowKeyFilter

end Moonbox.HBase
