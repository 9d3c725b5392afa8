import Moonbox.HBase.DynamicLogicExpression
import Moonbox.HBase.TableScan
import Moonbox.Lib.ThreeValued

/-!
# The conditions of a query on an HBase relation

Out of the filters of a query `transverseFilterTree` makes the expression that the region servers
evaluate, with the bytes of its literals, and the filter of the row keys that are read at all. The
row keys that satisfy a condition are all read if no conjunction has both points and ranges on its
left.
-/

namespace Moonbox.HBase

open ByteOrder TwosComplement ThreeValued Outcome

/-- The filters that Spark gives to a relation. Those that are not handed on, such as negations,
are known by their truth. -/
inductive Filter
  | equalTo (attr : List Char) (value : Value)
  | compare (ops : JavaBytesEncoder) (attr : List Char) (value : Value)
  | or (left right : Filter)
  | and (left right : Filter)
  | isNull (attr : List Char)
  | isNotNull (attr : List Char)
  | other (truth : (List Char → Option Value) → Truth)

namespace Filter

abbrev lessThan := compare .less
abbrev lessThanOrEqual := compare .lessEqual
abbrev greaterThan := compare .greater
abbrev greaterThanOrEqual := compare .greaterEqual

/-- The truth of a filter in a row, as Spark has it -/
def eval (row : List Char → Option Value) : Filter → Truth
  | equalTo attr value => (row attr).bind fun v => (v.compare value).map (·.isEq)
  | compare ops attr value => (row attr).bind fun v => (v.compare value).map ops.compare
  | or left right => (left.eval row).or (right.eval row)
  | and left right => (left.eval row).and (right.eval row)
  | isNull attr => some (row attr).isNone
  | isNotNull attr => some (row attr).isSome
  | other truth => truth row

end Filter

/-! ### The relation -/

structure Field where
  colName : List Char
  cf : String
  dt : DataType
  deriving DecidableEq

def Field.isRowKey (field : Field) : Bool := field.cf == "rowkey"

structure HBaseTableCatalog where
  fields : List Field

def HBaseTableCatalog.getField (catalog : HBaseTableCatalog) (name : List Char) :
    Except String Field :=
  match catalog.fields.find? fun field => field.colName == name with
  | some field => .ok field
  | none => .error s!"java.util.NoSuchElementException: key not found: {String.ofList name}"

/-- The characters of a text in ASCII -/
def characters (text : Bytes) : List Char := text.map fun b => Char.ofNat b.toNat

def getByteValue (field : Field) (value : Bytes) : Except String Bytes :=
  match field.dt with
  | .integer =>
    match Decimals.parse 32 (characters value) with
    | some n => .ok (lastBytes 4 n)
    | none => .error "java.lang.NumberFormatException"
  | .long =>
    match Decimals.parse 64 (characters value) with
    | some n => .ok (lastBytes 8 n)
    | none => .error "java.lang.NumberFormatException"
  | _ => .ok value

/-- The ranges below a literal, which is in the first of them if `inc` holds -/
def lessRanges (inc : Bool) (b : BoundRanges) : List ScanRange :=
  b.less.mapIdx fun i x => ⟨x.upper, inc || i != 0, x.low, true⟩

/-- The ranges above a literal, which is in the first of them if `inc` holds -/
def greaterRanges (inc : Bool) (b : BoundRanges) : List ScanRange :=
  b.greater.mapIdx fun i x => ⟨x.upper, true, x.low, inc || i != 0⟩

def scanRanges (ops : JavaBytesEncoder) (b : BoundRanges) : List ScanRange :=
  match ops with
  | .less => lessRanges false b
  | .greater => greaterRanges false b
  | .lessEqual => lessRanges true b
  | .greaterEqual => greaterRanges true b

/-- `reduce` with `mergeUnion` -/
def union : List ScanRange → Except String RowKeyFilter
  | [] => .error "java.lang.UnsupportedOperationException: empty.reduceLeft"
  | r :: rs => .ok (rs.foldl (fun f r => f.mergeUnion (.ofRange r)) (.ofRange r))

section Relation

variable (encoder : BytesEncoder) (hashCode : Bytes → Bytes) (catalog : HBaseTableCatalog)

/-- The index of the last value -/
def lastIndex (valueArray : List Bytes) : Int32 := Int32.ofInt ((valueArray.length : Int) - 1)

/-- Where the encoder has no ranges for the literal, the filter is left as it is. -/
def mergeRanges (parentRowKeyFilter : RowKeyFilter) (field : Field) (ops : JavaBytesEncoder)
    (value : Value) : Except String RowKeyFilter :=
  match field.isRowKey, encoder.ranges value with
  | true, some b => do pure (parentRowKeyFilter.mergeIntersect (← union (scanRanges ops b)))
  | _, _ => pure parentRowKeyFilter

def transverseFilterTree (parentRowKeyFilter : RowKeyFilter) (valueArray : List Bytes) :
    Filter → Except String (DynamicLogicExpression × RowKeyFilter × List Bytes)
  | .equalTo attr value => do
    let field ← catalog.getField attr
    let byteValue ← getByteValue field (value.toString hashCode)
    let rowKeyFilter :=
      if field.isRowKey then parentRowKeyFilter.mergeIntersect (.ofPoint byteValue)
      else parentRowKeyFilter
    let valueArray := valueArray ++ [byteValue]
    pure (.equal attr (lastIndex valueArray) false, rowKeyFilter, valueArray)
  | .compare ops attr value => do
    let field ← catalog.getField attr
    let rowKeyFilter ← mergeRanges encoder parentRowKeyFilter field ops value
    let byteValue ← encoder.encode field.dt value
    let valueArray := valueArray ++ [byteValue]
    pure (.compare ops attr (lastIndex valueArray), rowKeyFilter, valueArray)
  | .or left right => do
    let (leftExpression, rowKeyFilter, valueArray) ←
      transverseFilterTree parentRowKeyFilter valueArray left
    let (rightExpression, rightSideRowKeyFilter, valueArray) ←
      transverseFilterTree .all valueArray right
    pure (.or leftExpression rightExpression, rowKeyFilter.mergeUnion rightSideRowKeyFilter,
      valueArray)
  | .and left right => do
    let (leftExpression, rowKeyFilter, valueArray) ←
      transverseFilterTree parentRowKeyFilter valueArray left
    let (rightExpression, rightSideRowKeyFilter, valueArray) ←
      transverseFilterTree .all valueArray right
    pure (.and leftExpression rightExpression, rowKeyFilter.mergeIntersect rightSideRowKeyFilter,
      valueArray)
  | .isNull attr => pure (.isNull attr false, parentRowKeyFilter, valueArray)
  | .isNotNull attr => pure (.isNull attr true, parentRowKeyFilter, valueArray)
  | .other _ => pure (.passThrough, parentRowKeyFilter, valueArray)

/-- The filters of an array are taken like one conjunction. -/
def buildPushDownPredicatesResource : List Filter →
    Except String (RowKeyFilter × Option DynamicLogicExpression × List Bytes)
  | [] => pure (.all, none, [])
  | f :: fs => do
    let (expression, rowKeyFilter, valueArray) ←
      transverseFilterTree encoder hashCode catalog .all [] f
    fs.foldlM (fun (superRowKeyFilter, superExpression, valueArray) f => do
        let (expression, rowKeyFilter, valueArray) ←
          transverseFilterTree encoder hashCode catalog .all valueArray f
        pure (superRowKeyFilter.mergeIntersect rowKeyFilter,
          superExpression.map (.and · expression), valueArray))
      (rowKeyFilter, some expression, valueArray)

end Relation

/-! ### Points and ranges -/

def HBaseTableCatalog.isRowKey (catalog : HBaseTableCatalog) (attr : List Char) : Bool :=
  match catalog.getField attr with
  | .ok field => field.isRowKey
  | .error _ => false

namespace Filter

variable (catalog : HBaseTableCatalog)

/-- The filter may leave points of row keys. -/
def givesPoints : Filter → Bool
  | equalTo attr _ => catalog.isRowKey attr
  | or left right => left.givesPoints || right.givesPoints
  | and left right => left.givesPoints || right.givesPoints
  | _ => false

/-- The filter may leave ranges of row keys. -/
def givesRanges : Filter → Bool
  | equalTo attr _ => !catalog.isRowKey attr
  | or left right => left.givesRanges || right.givesRanges
  | and left right => left.givesRanges && right.givesRanges
  | _ => true

/-- No conjunction has both points and ranges on its left. -/
def Separable : Filter → Prop
  | or left right => left.Separable ∧ right.Separable
  | and left right => left.Separable ∧ right.Separable ∧
      ¬(left.givesPoints catalog = true ∧ left.givesRanges catalog = true)
  | _ => True

/-- On the row key, equality is with a literal whose text is read back, and no comparison is of
bytes, which are ordered without a sign. -/
def Prunable : Filter → Prop
  | equalTo attr _ => ∀ field, catalog.getField attr = .ok field → field.isRowKey = true →
      field.dt = .integer ∨ field.dt = .long ∨ field.dt = .string
  | compare _ attr _ => ∀ field, catalog.getField attr = .ok field → field.isRowKey = true →
      field.dt ≠ .byte
  | or left right => left.Prunable ∧ right.Prunable
  | and left right => left.Prunable ∧ right.Prunable
  | _ => True

end Filter

/-- The conjunction of the filters of an array -/
def Filter.conjunction : List Filter → Filter
  | [] => .other fun _ => some true
  | f :: fs => fs.foldl .and f

/-- The column of the row key has the value that the key has been made from. -/
def StoredUnder (catalog : HBaseTableCatalog) (row : List Char → Option Value) (x : Bytes) : Prop :=
  ∀ attr field, catalog.getField attr = .ok field → field.isRowKey = true →
    ∃ v, row attr = some v ∧ v.dt = field.dt ∧ Utils.toBytes v = x

/-! ### Row keys that are taken -/

variable {catalog : HBaseTableCatalog} {hashCode : Bytes → Bytes} {f f' : RowKeyFilter}
  {rs : List ScanRange} {r : ScanRange} {v w : Value} {x : Bytes} {k : Nat} {m n lo hi : Int}

lemma points_foldl_mergeUnion (hf : f.points = []) :
    (rs.foldl (fun f r => f.mergeUnion (.ofRange r)) f).points = [] := by
  induction rs generalizing f with
  | nil => exact hf
  | cons r rs ih => exact ih (by simp [RowKeyFilter.mergeUnion, RowKeyFilter.ofRange, hf])

lemma takes_foldl_mergeUnion (h : f.Takes x ∨ ∃ r ∈ rs, r.containsPoint x = true) :
    (rs.foldl (fun f r => f.mergeUnion (.ofRange r)) f).Takes x := by
  induction rs generalizing f with
  | nil => simpa using h
  | cons r rs ih =>
    refine ih ?_
    rcases h with h | ⟨r', hr', hx⟩
    · exact .inl (RowKeyFilter.takes_mergeUnion (.inl h))
    · rcases List.mem_cons.mp hr' with rfl | hr'
      · exact .inl (RowKeyFilter.takes_mergeUnion (.inr (.inr ⟨r', List.mem_singleton_self _, hx⟩)))
      · exact .inr ⟨r', hr', hx⟩

lemma points_union (h : union rs = .ok f) : f.points = [] := by
  cases rs with
  | nil => cases h
  | cons r rs =>
    obtain rfl := Except.ok.inj h
    exact points_foldl_mergeUnion rfl

lemma takes_union (h : union rs = .ok f) (hr : r ∈ rs) (hx : r.containsPoint x = true) :
    f.Takes x := by
  cases rs with
  | nil => cases h
  | cons r' rs =>
    obtain rfl := Except.ok.inj h
    refine takes_foldl_mergeUnion ?_
    rcases List.mem_cons.mp hr with rfl | hr
    · exact .inl (.inr ⟨r, List.mem_singleton_self _, hx⟩)
    · exact .inr ⟨r, hr, hx⟩

/-! ### Ranges of integers -/

/-- The integers that have a place in so many bytes -/
def Fits (k : Nat) (n : Int) : Prop := -2 ^ (8 * k - 1) ≤ n ∧ n < 2 ^ (8 * k - 1)

lemma pow_double (hk : 0 < k) : (256 : Int) ^ k = 2 * 2 ^ (8 * k - 1) := by
  rw [show (256 : Int) = 2 ^ 8 by norm_num, ← pow_mul, ← pow_succ']
  congr 1
  omega

lemma lastBytes_lt (hk : 0 < k) (hm : Fits k m) (hn : Fits k n) (hsign : 0 ≤ m ↔ 0 ≤ n) :
    lastBytes k m < lastBytes k n ↔ m < n := by
  have hpow := pow_double hk
  obtain ⟨hm, hm'⟩ := hm
  obtain ⟨hn, hn'⟩ := hn
  rw [lastBytes_lt_iff_of_bounds (by omega) (by omega) (by omega) (by omega)]
  omega

/-- Between two integers of one sign are the bytes of the integers between them. -/
lemma containsPoint_lastBytes {incUpper incLower : Bool} (hk : 0 < k) (hlo : Fits k lo)
    (hhi : Fits k hi) (hn : Fits k n) (hsign : (0 ≤ lo ↔ 0 ≤ n) ∧ (0 ≤ n ↔ 0 ≤ hi))
    (hlower : lo < n ∨ incLower = true ∧ lo = n) (hupper : n < hi ∨ incUpper = true ∧ n = hi) :
    ScanRange.containsPoint ⟨(lastBytes k hi : Bytes), incUpper, lastBytes k lo, incLower⟩
      (lastBytes k n) = true := by
  refine ScanRange.containsPoint_iff.mpr ⟨?_, ?_⟩
  · refine hlower.imp (fun h => (lastBytes_lt hk hlo hn hsign.1).mpr h) ?_
    rintro ⟨hinc, rfl⟩
    exact ⟨hinc, rfl⟩
  · refine hupper.imp (fun h => WithTop.coe_lt_coe.mpr ((lastBytes_lt hk hn hhi hsign.2).mpr h)) ?_
    rintro ⟨hinc, rfl⟩
    exact ⟨hinc, rfl⟩

lemma fits_zero (k : Nat) : Fits k 0 := by
  have hpos : (0 : Int) < 2 ^ (8 * k - 1) := by positivity
  exact ⟨by omega, hpos⟩

lemma fits_neg_one (k : Nat) : Fits k (-1) := by
  have hpos : (0 : Int) < 2 ^ (8 * k - 1) := by positivity
  exact ⟨by omega, by omega⟩

lemma fits_minValue (k : Nat) : Fits k (-2 ^ (8 * k - 1)) := by
  have hpos : (0 : Int) < 2 ^ (8 * k - 1) := by positivity
  exact ⟨le_rfl, by omega⟩

lemma fits_maxValue (k : Nat) : Fits k (2 ^ (8 * k - 1) - 1) := by
  have hpos : (0 : Int) < 2 ^ (8 * k - 1) := by positivity
  exact ⟨by omega, by omega⟩

variable {inc : Bool} {ops : JavaBytesEncoder} {b : BoundRanges} {o : Ordering}
  {row : List Char → Option Value}

lemma lt_or_included {α : Type*} [PartialOrder α] {a b : α} (h : a ≤ b) :
    a < b ∨ true = true ∧ a = b :=
  h.lt_or_eq.imp_right fun h => ⟨rfl, h⟩

/-- An integer that is below the literal, or is it where that is in, is in a range. -/
lemma exists_lessRanges_integer (hk : 0 < k) (hm : Fits k m) (hn : Fits k n)
    (h : n < m ∨ inc = true ∧ n = m) :
    ∃ r ∈ lessRanges inc (NaiveEncoder.integerRanges k m),
      r.containsPoint (lastBytes k n) = true := by
  have hpos : (0 : Int) < 2 ^ (8 * k - 1) := by positivity
  have hle : n ≤ m := h.elim le_of_lt fun h => h.2.le
  rcases lt_or_ge m 0 with hm0 | hm0
  · have hranges : lessRanges inc (NaiveEncoder.integerRanges k m) =
        [⟨(lastBytes k m : Bytes), inc, lastBytes k (-2 ^ (8 * k - 1)), true⟩] := by
      simp [lessRanges, NaiveEncoder.integerRanges, hm0.not_ge]
    rw [hranges]
    have hmin := fits_minValue k
    exact ⟨_, List.mem_singleton_self _, containsPoint_lastBytes hk hmin hm hn (by omega)
      (lt_or_included hn.1) h⟩
  · have hranges : lessRanges inc (NaiveEncoder.integerRanges k m) =
        [⟨(lastBytes k m : Bytes), inc, lastBytes k 0, true⟩,
          ⟨(lastBytes k (-1) : Bytes), true, lastBytes k (-2 ^ (8 * k - 1)), true⟩] := by
      simp [lessRanges, NaiveEncoder.integerRanges, hm0]
    rw [hranges]
    rcases lt_or_ge n 0 with hn0 | hn0
    · exact ⟨_, List.mem_cons_of_mem _ (List.mem_singleton_self _),
        containsPoint_lastBytes hk (fits_minValue k) (fits_neg_one k) hn (by omega)
          (lt_or_included hn.1) (lt_or_included (by omega))⟩
    · exact ⟨_, List.mem_cons_self, containsPoint_lastBytes hk (fits_zero k) hm hn (by omega)
        (lt_or_included hn0) h⟩

lemma exists_greaterRanges_integer (hk : 0 < k) (hm : Fits k m) (hn : Fits k n)
    (h : m < n ∨ inc = true ∧ m = n) :
    ∃ r ∈ greaterRanges inc (NaiveEncoder.integerRanges k m),
      r.containsPoint (lastBytes k n) = true := by
  have hle : m ≤ n := h.elim le_of_lt fun h => h.2.le
  have hmax : n ≤ 2 ^ (8 * k - 1) - 1 := by
    have hlt := hn.2
    omega
  rcases lt_or_ge m 0 with hm0 | hm0
  · have hranges : greaterRanges inc (NaiveEncoder.integerRanges k m) =
        [⟨(lastBytes k (-1) : Bytes), true, lastBytes k m, inc⟩,
          ⟨(lastBytes k (2 ^ (8 * k - 1) - 1) : Bytes), true, lastBytes k 0, true⟩] := by
      simp [greaterRanges, NaiveEncoder.integerRanges, hm0.not_ge]
    rw [hranges]
    rcases lt_or_ge n 0 with hn0 | hn0
    · exact ⟨_, List.mem_cons_self, containsPoint_lastBytes hk hm (fits_neg_one k) hn (by omega) h
        (lt_or_included (by omega))⟩
    · exact ⟨_, List.mem_cons_of_mem _ (List.mem_singleton_self _),
        containsPoint_lastBytes hk (fits_zero k) (fits_maxValue k) hn (by omega)
          (lt_or_included hn0) (lt_or_included hmax)⟩
  · have hranges : greaterRanges inc (NaiveEncoder.integerRanges k m) =
        [⟨(lastBytes k (2 ^ (8 * k - 1) - 1) : Bytes), true, lastBytes k m, inc⟩] := by
      simp [greaterRanges, NaiveEncoder.integerRanges, hm0]
    rw [hranges]
    exact ⟨_, List.mem_singleton_self _, containsPoint_lastBytes hk hm (fits_maxValue k) hn
      (by omega) h (lt_or_included hmax)⟩

lemma exists_lessRanges_bytes {bytes : Bytes} (h : x < bytes ∨ inc = true ∧ x = bytes) :
    ∃ r ∈ lessRanges inc (NaiveEncoder.bytesRanges bytes), r.containsPoint x = true := by
  have hranges : lessRanges inc (NaiveEncoder.bytesRanges bytes) =
      [⟨(bytes : Bytes), inc, [], true⟩] := by
    simp [lessRanges, NaiveEncoder.bytesRanges]
  rw [hranges]
  refine ⟨_, List.mem_singleton_self _, ScanRange.containsPoint_iff.mpr ⟨?_, ?_⟩⟩
  · exact lt_or_included (nil_le x)
  · exact h.imp WithTop.coe_lt_coe.mpr fun h => ⟨h.1, congrArg _ h.2⟩

lemma exists_greaterRanges_bytes {bytes : Bytes} (h : bytes < x ∨ inc = true ∧ bytes = x) :
    ∃ r ∈ greaterRanges inc (NaiveEncoder.bytesRanges bytes), r.containsPoint x = true := by
  have hranges : greaterRanges inc (NaiveEncoder.bytesRanges bytes) =
      [⟨⊤, true, bytes, inc⟩] := by
    simp [greaterRanges, NaiveEncoder.bytesRanges]
  rw [hranges]
  exact ⟨_, List.mem_singleton_self _, ScanRange.containsPoint_iff.mpr
    ⟨h, .inl (WithTop.coe_lt_top x)⟩⟩

/-- What is below or above the literal, as a comparison asks, is in a range of the comparison. -/
lemma exists_scanRanges {α : Type} [LinearOrder α] [dec : DecidableLT α] {a c : α}
    (hless : ∀ inc : Bool, a < c ∨ inc = true ∧ a = c →
      ∃ r ∈ lessRanges inc b, r.containsPoint x = true)
    (hgreater : ∀ inc : Bool, c < a ∨ inc = true ∧ c = a →
      ∃ r ∈ greaterRanges inc b, r.containsPoint x = true)
    (h : ops.compare (cmp a c) = true) : ∃ r ∈ scanRanges ops b, r.containsPoint x = true := by
  obtain rfl : dec = LinearOrder.toDecidableLT := Subsingleton.elim _ _
  cases ops with
  | less => exact hless false (.inl ((cmp_eq_lt_iff a c).mp (Ordering.isLT_iff_eq_lt.mp h)))
  | lessEqual =>
    rw [JavaBytesEncoder.compare, Ordering.isLE_iff_ne_gt, cmp_eq_gt_iff, not_lt] at h
    exact hless true (lt_or_included h)
  | greater => exact hgreater false (.inl ((cmp_eq_gt_iff a c).mp (Ordering.isGT_iff_eq_gt.mp h)))
  | greaterEqual =>
    rw [JavaBytesEncoder.compare, Ordering.isGE_iff_ne_lt, cmp_eq_lt_iff, not_lt] at h
    exact hgreater true (lt_or_included h)

lemma exists_scanRanges_integer (hk : 0 < k) (hm : Fits k m) (hn : Fits k n)
    (h : ops.compare (cmp n m) = true) :
    ∃ r ∈ scanRanges ops (NaiveEncoder.integerRanges k m),
      r.containsPoint (lastBytes k n) = true :=
  exists_scanRanges (fun _ => exists_lessRanges_integer hk hm hn)
    (fun _ => exists_greaterRanges_integer hk hm hn) h

lemma exists_scanRanges_bytes {bytes : Bytes} (h : ops.compare (cmp x bytes) = true) :
    ∃ r ∈ scanRanges ops (NaiveEncoder.bytesRanges bytes), r.containsPoint x = true :=
  exists_scanRanges (fun _ => exists_lessRanges_bytes) (fun _ => exists_greaterRanges_bytes) h

lemma fits_toInt16 (n : Int16) : Fits 2 n.toInt := ⟨n.le_toInt, n.toInt_lt⟩
lemma fits_toInt32 (n : Int32) : Fits 4 n.toInt := ⟨n.le_toInt, n.toInt_lt⟩
lemma fits_toInt64 (n : Int64) : Fits 8 n.toInt := ⟨n.le_toInt, n.toInt_lt⟩

/-- A value that compares with the literal as asked is in a range, where bytes are compared
without a sign. -/
lemma exists_scanRanges_ranges (hbyte : v.dt ≠ .byte) (ho : v.compare w = some o)
    (hops : ops.compare o = true) (hb : NaiveEncoder.ranges w = some b) :
    ∃ r ∈ scanRanges ops b, r.containsPoint (Utils.toBytes v) = true := by
  cases v with
  | boolean a =>
    cases w with
    | boolean c => cases hb
    | _ => cases ho
  | byte n => exact absurd rfl hbyte
  | short n =>
    cases w with
    | short m =>
      obtain rfl := Option.some.inj ho
      obtain rfl := Option.some.inj hb
      exact exists_scanRanges_integer (by decide) (fits_toInt16 m) (fits_toInt16 n) hops
    | _ => cases ho
  | integer n =>
    cases w with
    | integer m =>
      obtain rfl := Option.some.inj ho
      obtain rfl := Option.some.inj hb
      exact exists_scanRanges_integer (by decide) (fits_toInt32 m) (fits_toInt32 n) hops
    | _ => cases ho
  | long n =>
    cases w with
    | long m =>
      obtain rfl := Option.some.inj ho
      obtain rfl := Option.some.inj hb
      exact exists_scanRanges_integer (by decide) (fits_toInt64 m) (fits_toInt64 n) hops
    | _ => cases ho
  | string as =>
    cases w with
    | string bs =>
      obtain rfl := Option.some.inj ho
      obtain rfl := Option.some.inj hb
      exact exists_scanRanges_bytes hops
    | _ => cases ho
  | binary as =>
    cases w with
    | binary bs =>
      obtain rfl := Option.some.inj ho
      obtain rfl := Option.some.inj hb
      exact exists_scanRanges_bytes hops
    | _ => cases ho

/-! ### Literals -/

lemma cmp_eq {α : Type} [LinearOrder α] [dec : DecidableLT α] {a c : α} :
    cmp a c = .eq ↔ a = c := by
  obtain rfl : dec = LinearOrder.toDecidableLT := Subsingleton.elim _ _
  exact cmp_eq_eq_iff a c

lemma eq_of_compare (h : v.compare w = some .eq) : v = w := by
  cases v <;> cases w <;> try cases h
  case boolean.boolean => exact congrArg _ (cmp_eq.mp (Option.some.inj h))
  case byte.byte => exact congrArg _ (Int8.toInt_inj.mp (cmp_eq.mp (Option.some.inj h)))
  case short.short => exact congrArg _ (Int16.toInt_inj.mp (cmp_eq.mp (Option.some.inj h)))
  case integer.integer => exact congrArg _ (Int32.toInt_inj.mp (cmp_eq.mp (Option.some.inj h)))
  case long.long => exact congrArg _ (Int64.toInt_inj.mp (cmp_eq.mp (Option.some.inj h)))
  case string.string => exact congrArg _ (cmp_eq.mp (Option.some.inj h))
  case binary.binary => exact congrArg _ (cmp_eq.mp (Option.some.inj h))

lemma characters_ascii {text : List Char} (h : ∀ c ∈ text, c.toNat < 256) :
    characters (Value.ascii text) = text := by
  rw [characters, Value.ascii, List.map_map]
  conv_rhs => rw [← List.map_id text]
  refine List.map_congr_left fun c hc => ?_
  rw [Function.comp_apply, UInt8.toNat_ofNat_of_lt' (h c hc), Char.ofNat_toNat, id]

lemma characters_decimal (n : Int) : characters (Value.decimal n) = Decimals.text n := by
  refine characters_ascii fun c hc => ?_
  by_contra hlt
  refine Decimals.not_mem_text ?_ ?_ n hc
  · rintro rfl
    exact hlt (by decide)
  · rw [Bool.eq_false_iff]
    intro hdigit
    have hle : c.toNat ≤ 57 := (Char.isDigit_iff_toNat.mp hdigit).2
    omega

/-- The text of an integer or a string is made into the bytes that are stored. -/
lemma getByteValue_toString {field : Field} {byteValue : Bytes} (hdt : v.dt = field.dt)
    (hfield : field.dt = .integer ∨ field.dt = .long ∨ field.dt = .string)
    (h : getByteValue field (v.toString hashCode) = .ok byteValue) :
    byteValue = Utils.toBytes v := by
  unfold getByteValue at h
  rw [← hdt] at h hfield
  cases v with
  | integer n =>
    have hn := fits_toInt32 n
    simp only [Value.dt, Value.toString, characters_decimal, Decimals.parse_text hn.1 hn.2] at h
    exact (Except.ok.inj h).symm
  | long n =>
    have hn := fits_toInt64 n
    simp only [Value.dt, Value.toString, characters_decimal, Decimals.parse_text hn.1 hn.2] at h
    exact (Except.ok.inj h).symm
  | string bytes => exact (Except.ok.inj h).symm
  | _ => simp [Value.dt] at hfield

/-! ### What a filter leaves -/

section Traversal

variable {encoder : BytesEncoder} {parent : RowKeyFilter} {values values' : List Bytes}
  {attr : List Char} {left right filter : Filter} {e : DynamicLogicExpression}

lemma transverse_equalTo
    (h : transverseFilterTree encoder hashCode catalog parent values (.equalTo attr w) =
      .ok (e, f, values')) :
    ∃ field byteValue, catalog.getField attr = .ok field ∧
      getByteValue field (w.toString hashCode) = .ok byteValue ∧
      f = (if field.isRowKey then parent.mergeIntersect (.ofPoint byteValue) else parent) ∧
      values' = values ++ [byteValue] ∧ e = .equal attr (lastIndex values') false := by
  obtain ⟨field, hfield, h⟩ := bind_eq_ok.mp h
  obtain ⟨byteValue, hbyteValue, h⟩ := bind_eq_ok.mp h
  cases h
  exact ⟨field, byteValue, hfield, hbyteValue, rfl, rfl, rfl⟩

lemma transverse_compare
    (h : transverseFilterTree encoder hashCode catalog parent values (.compare ops attr w) =
      .ok (e, f, values')) :
    ∃ field byteValue, catalog.getField attr = .ok field ∧
      encoder.encode field.dt w = .ok byteValue ∧
      (f = parent ∨ field.isRowKey = true ∧ ∃ b ranges, encoder.ranges w = some b ∧
        union (scanRanges ops b) = .ok ranges ∧ f = parent.mergeIntersect ranges) ∧
      values' = values ++ [byteValue] ∧ e = .compare ops attr (lastIndex values') := by
  obtain ⟨field, hfield, h⟩ := bind_eq_ok.mp h
  obtain ⟨rowKeyFilter, hrowKeyFilter, h⟩ := bind_eq_ok.mp h
  obtain ⟨byteValue, hbyteValue, h⟩ := bind_eq_ok.mp h
  cases h
  refine ⟨field, byteValue, hfield, hbyteValue, ?_, rfl, rfl⟩
  unfold mergeRanges at hrowKeyFilter
  split at hrowKeyFilter
  · rename_i b hkey hb
    obtain ⟨ranges, hranges, hmerge⟩ := bind_eq_ok.mp hrowKeyFilter
    exact .inr ⟨hkey, b, ranges, hb, hranges, (pure_eq_ok.mp hmerge).symm⟩
  · exact .inl (pure_eq_ok.mp hrowKeyFilter).symm

lemma transverse_or
    (h : transverseFilterTree encoder hashCode catalog parent values (.or left right) =
      .ok (e, f, values')) :
    ∃ e₁ f₁ values₁ e₂ f₂,
      transverseFilterTree encoder hashCode catalog parent values left = .ok (e₁, f₁, values₁) ∧
      transverseFilterTree encoder hashCode catalog .all values₁ right = .ok (e₂, f₂, values') ∧
      f = f₁.mergeUnion f₂ ∧ e = .or e₁ e₂ := by
  obtain ⟨⟨e₁, f₁, values₁⟩, hleft, h⟩ := bind_eq_ok.mp h
  obtain ⟨⟨e₂, f₂, values₂⟩, hright, h⟩ := bind_eq_ok.mp h
  cases h
  exact ⟨e₁, f₁, values₁, e₂, f₂, hleft, hright, rfl, rfl⟩

lemma transverse_and
    (h : transverseFilterTree encoder hashCode catalog parent values (.and left right) =
      .ok (e, f, values')) :
    ∃ e₁ f₁ values₁ e₂ f₂,
      transverseFilterTree encoder hashCode catalog parent values left = .ok (e₁, f₁, values₁) ∧
      transverseFilterTree encoder hashCode catalog .all values₁ right = .ok (e₂, f₂, values') ∧
      f = f₁.mergeIntersect f₂ ∧ e = .and e₁ e₂ := by
  obtain ⟨⟨e₁, f₁, values₁⟩, hleft, h⟩ := bind_eq_ok.mp h
  obtain ⟨⟨e₂, f₂, values₂⟩, hright, h⟩ := bind_eq_ok.mp h
  cases h
  exact ⟨e₁, f₁, values₁, e₂, f₂, hleft, hright, rfl, rfl⟩

/-- Without an equality on the row key no points are left. -/
lemma points_of_not_givesPoints
    (h : transverseFilterTree encoder hashCode catalog .all values filter = .ok (e, f, values'))
    (hpoints : filter.givesPoints catalog = false) : f.points = [] := by
  induction filter generalizing values values' e f with
  | equalTo attr w =>
    obtain ⟨field, byteValue, hfield, -, rfl, -⟩ := transverse_equalTo h
    have hkey : field.isRowKey = false := by
      simpa [Filter.givesPoints, HBaseTableCatalog.isRowKey, hfield] using hpoints
    simp [hkey, RowKeyFilter.all, RowKeyFilter.ofRange]
  | compare ops attr w =>
    obtain ⟨field, byteValue, hfield, -, hf, -⟩ := transverse_compare h
    rcases hf with rfl | ⟨hkey, b, ranges, hb, hranges, rfl⟩
    · rfl
    · exact RowKeyFilter.points_mergeIntersect rfl (points_union hranges)
  | or left right ihleft ihright =>
    rw [Filter.givesPoints, Bool.or_eq_false_iff] at hpoints
    obtain ⟨e₁, f₁, values₁, e₂, f₂, hleft, hright, rfl, -⟩ := transverse_or h
    rw [RowKeyFilter.mergeUnion, ihleft hleft hpoints.1, ihright hright hpoints.2]
    rfl
  | and left right ihleft ihright =>
    rw [Filter.givesPoints, Bool.or_eq_false_iff] at hpoints
    obtain ⟨e₁, f₁, values₁, e₂, f₂, hleft, hright, rfl, -⟩ := transverse_and h
    exact RowKeyFilter.points_mergeIntersect (ihleft hleft hpoints.1) (ihright hright hpoints.2)
  | isNull attr => cases h; rfl
  | isNotNull attr => cases h; rfl
  | other truth => cases h; rfl

/-- An equality on the row key leaves no ranges, alone or in a conjunction. -/
lemma ranges_of_not_givesRanges
    (h : transverseFilterTree encoder hashCode catalog .all values filter = .ok (e, f, values'))
    (hranges : filter.givesRanges catalog = false) : f.ranges = [] := by
  induction filter generalizing values values' e f with
  | equalTo attr w =>
    obtain ⟨field, byteValue, hfield, -, rfl, -⟩ := transverse_equalTo h
    have hkey : field.isRowKey = true := by
      simpa [Filter.givesRanges, HBaseTableCatalog.isRowKey, hfield] using hranges
    rw [if_pos hkey]
    exact RowKeyFilter.ranges_mergeIntersect (.inr rfl)
  | or left right ihleft ihright =>
    rw [Filter.givesRanges, Bool.or_eq_false_iff] at hranges
    obtain ⟨e₁, f₁, values₁, e₂, f₂, hleft, hright, rfl, -⟩ := transverse_or h
    rw [RowKeyFilter.mergeUnion, ihleft hleft hranges.1, ihright hright hranges.2]
    rfl
  | and left right ihleft ihright =>
    rw [Filter.givesRanges, Bool.and_eq_false_iff] at hranges
    obtain ⟨e₁, f₁, values₁, e₂, f₂, hleft, hright, rfl, -⟩ := transverse_and h
    exact RowKeyFilter.ranges_mergeIntersect (hranges.imp (ihleft hleft) (ihright hright))
  | _ => cases hranges

variable {row : List Char → Option Value}

/-- The row key of a row that satisfies a filter is taken. -/
lemma takes_transverse
    (h : transverseFilterTree (naiveEncoder hashCode) hashCode catalog .all values filter =
      .ok (e, f, values'))
    (hprunable : filter.Prunable catalog) (hseparable : filter.Separable catalog)
    (hstored : StoredUnder catalog row x) (heval : filter.eval row = some true) : f.Takes x := by
  induction filter generalizing values values' e f with
  | equalTo attr w =>
    obtain ⟨field, byteValue, hfield, hbyteValue, rfl, -⟩ := transverse_equalTo h
    split
    · rename_i hkey
      obtain ⟨v, hv, hdt, rfl⟩ := hstored attr field hfield hkey
      obtain ⟨o, ho, hisEq⟩ : ∃ o, v.compare w = some o ∧ o.isEq = true := by
        simpa [Filter.eval, hv] using heval
      obtain rfl := eq_of_compare (ho.trans (congrArg some (Ordering.isEq_iff_eq_eq.mp hisEq)))
      obtain rfl := getByteValue_toString hdt (hprunable field hfield hkey) hbyteValue
      exact RowKeyFilter.takes_mergeIntersect (.inl rfl) (RowKeyFilter.takes_all _)
        (.inl (List.mem_singleton_self _))
    · exact RowKeyFilter.takes_all x
  | compare ops attr w =>
    obtain ⟨field, byteValue, hfield, -, hf, -⟩ := transverse_compare h
    rcases hf with rfl | ⟨hkey, b, ranges, hb, hranges, rfl⟩
    · exact RowKeyFilter.takes_all x
    · obtain ⟨v, hv, hdt, rfl⟩ := hstored attr field hfield hkey
      obtain ⟨o, ho, hops⟩ : ∃ o, v.compare w = some o ∧ ops.compare o = true := by
        simpa [Filter.eval, hv] using heval
      have hbyte : v.dt ≠ .byte := hdt ▸ hprunable field hfield hkey
      obtain ⟨r, hr, hx⟩ := exists_scanRanges_ranges hbyte ho hops hb
      exact RowKeyFilter.takes_mergeIntersect (.inl rfl) (RowKeyFilter.takes_all _)
        (takes_union hranges hr hx)
  | or left right ihleft ihright =>
    obtain ⟨e₁, f₁, values₁, e₂, f₂, hleft, hright, rfl, -⟩ := transverse_or h
    refine RowKeyFilter.takes_mergeUnion (((Truth.stands_or false).mp heval).imp ?_ ?_)
    · exact ihleft hleft hprunable.1 hseparable.1
    · exact ihright hright hprunable.2 hseparable.2
  | and left right ihleft ihright =>
    obtain ⟨e₁, f₁, values₁, e₂, f₂, hleft, hright, rfl, -⟩ := transverse_and h
    obtain ⟨hsepleft, hsepright, hmixed⟩ := hseparable
    obtain ⟨hevalleft, hevalright⟩ := Truth.and_eq_true.mp heval
    have hpure : f₁.points = [] ∨ f₁.ranges = [] := by
      cases hpoints : left.givesPoints catalog with
      | false => exact .inl (points_of_not_givesPoints hleft hpoints)
      | true =>
        refine .inr (ranges_of_not_givesRanges hleft ?_)
        exact Bool.eq_false_iff.mpr fun hranges => hmixed ⟨hpoints, hranges⟩
    exact RowKeyFilter.takes_mergeIntersect hpure (ihleft hleft hprunable.1 hsepleft hevalleft)
      (ihright hright hprunable.2 hsepright hevalright)
  | isNull attr => cases h; exact RowKeyFilter.takes_all x
  | isNotNull attr => cases h; exact RowKeyFilter.takes_all x
  | other truth => cases h; exact RowKeyFilter.takes_all x

end Traversal

/-! ### The filters of a scan -/

section Scan

variable {encoder : BytesEncoder} {filters : List Filter} {filter : Filter}
  {valueArray values values' : List Bytes} {expression : Option DynamicLogicExpression}
  {e : DynamicLogicExpression} {regions : List HBaseRegion}

/-- Filters that come behind others are taken like the right sides of conjunctions. -/
lemma transverse_foldl
    (hfilter : transverseFilterTree encoder hashCode catalog .all [] filter = .ok (e, f, values))
    (h : filters.foldlM (fun (superRowKeyFilter, superExpression, valueArray) f => do
        let (expression, rowKeyFilter, valueArray) ←
          transverseFilterTree encoder hashCode catalog .all valueArray f
        pure (superRowKeyFilter.mergeIntersect rowKeyFilter,
          superExpression.map (.and · expression), valueArray))
      (f, some e, values) = (.ok (f', expression, values') : Except String _)) :
    ∃ e', transverseFilterTree encoder hashCode catalog .all [] (filters.foldl .and filter) =
      .ok (e', f', values') ∧ expression = some e' := by
  induction filters generalizing filter e f values with
  | nil =>
    cases h
    exact ⟨e, hfilter, rfl⟩
  | cons right filters ih =>
    rw [List.foldlM_cons] at h
    obtain ⟨⟨f₁, e₁, values₁⟩, hright, h⟩ := bind_eq_ok.mp h
    obtain ⟨⟨e₂, f₂, values₂⟩, hright, hmerge⟩ := bind_eq_ok.mp hright
    cases hmerge
    refine ih ?_ h
    exact bind_eq_ok.mpr ⟨_, hfilter, bind_eq_ok.mpr ⟨_, hright, rfl⟩⟩

lemma transverse_conjunction
    (h : buildPushDownPredicatesResource encoder hashCode catalog filters =
      .ok (f, expression, valueArray)) :
    ∃ e, transverseFilterTree encoder hashCode catalog .all [] (.conjunction filters) =
      .ok (e, f, valueArray) ∧ ∀ e', expression = some e' → e' = e := by
  cases filters with
  | nil =>
    cases h
    exact ⟨.passThrough, rfl, nofun⟩
  | cons filter filters =>
    obtain ⟨⟨e₁, f₁, values⟩, hfilter, h⟩ := bind_eq_ok.mp h
    obtain ⟨e, htransverse, rfl⟩ := transverse_foldl hfilter h
    exact ⟨e, htransverse, fun e' he => (Option.some.inj he).symm⟩

lemma eval_foldl_and {row : List Char → Option Value} (hfilter : filter.eval row = some true)
    (h : ∀ filter ∈ filters, filter.eval row = some true) :
    (filters.foldl .and filter).eval row = some true := by
  induction filters generalizing filter with
  | nil => exact hfilter
  | cons right filters ih =>
    rw [List.forall_mem_cons] at h
    exact ih (Truth.and_eq_true.mpr ⟨hfilter, h.1⟩) h.2

lemma eval_conjunction {row : List Char → Option Value}
    (h : ∀ filter ∈ filters, filter.eval row = some true) :
    (Filter.conjunction filters).eval row = some true := by
  cases filters with
  | nil => rfl
  | cons filter filters =>
    rw [List.forall_mem_cons] at h
    exact eval_foldl_and h.1 h.2

/-- No row that satisfies the filters is lost: however the table is split into regions, its key is
read by the scans and gets of the partitions. -/
theorem pruning_keeps_rows {row : List Char → Option Value}
    (hbuild : buildPushDownPredicatesResource (naiveEncoder hashCode) hashCode catalog filters =
      .ok (f, expression, valueArray))
    (hprunable : (Filter.conjunction filters).Prunable catalog)
    (hseparable : (Filter.conjunction filters).Separable catalog)
    (hstored : StoredUnder catalog row x) (heval : ∀ filter ∈ filters, filter.eval row = some true)
    (hsplit : IsSplit [] regions) : 0 < timesRead (f.getPartitions regions) x := by
  obtain ⟨e, htransverse, -⟩ := transverse_conjunction hbuild
  exact timesRead_pos hsplit
    (takes_transverse htransverse hprunable hseparable hstored (eval_conjunction heval))

lemma eq_of_getField_singleton {attr : List Char} {field field' : Field}
    (h : HBaseTableCatalog.getField ⟨[field]⟩ attr = .ok field') : field' = field := by
  unfold HBaseTableCatalog.getField at h
  split at h
  · rename_i hfind
    obtain rfl := Except.ok.inj h
    exact List.mem_singleton.mp (List.mem_of_find?_eq_some hfind)
  · cases h

lemma storedUnder_singleton {field : Field} (hdt : v.dt = field.dt) :
    StoredUnder ⟨[field]⟩ (fun _ => some v) (Utils.toBytes v) := by
  intro attr field' h hkey
  obtain rfl := eq_of_getField_singleton h
  exact ⟨v, rfl, hdt, rfl⟩

/-- A key of seven is read, by a scan of the first of two regions. -/
theorem pruning_keeps_rows_seven :
    ∃ f expression valueArray,
      buildPushDownPredicatesResource (naiveEncoder id) id ⟨[⟨['k'], "rowkey", .integer⟩]⟩
        [.isNotNull ['k'], .or (.equalTo ['k'] (.integer 1)) (.greaterThan ['k'] (.integer 5))] =
          .ok (f, expression, valueArray) ∧
      0 < timesRead (f.getPartitions [⟨[], [128]⟩, ⟨[128], []⟩]) [0, 0, 0, 7] := by
  obtain ⟨⟨f, expression, valueArray⟩, hbuild⟩ :
      ∃ result, buildPushDownPredicatesResource (naiveEncoder id) id
        ⟨[⟨['k'], "rowkey", .integer⟩]⟩
        [.isNotNull ['k'], .or (.equalTo ['k'] (.integer 1)) (.greaterThan ['k'] (.integer 5))] =
          .ok result := ⟨_, rfl⟩
  refine ⟨f, expression, valueArray, hbuild, pruning_keeps_rows hbuild ?_ ?_
    (storedUnder_singleton (v := .integer 7) rfl) (by decide) ⟨rfl, by decide, rfl, rfl⟩⟩
  · simp [Filter.conjunction, Filter.Prunable, HBaseTableCatalog.getField]
  · simp [Filter.conjunction, Filter.Separable, Filter.givesPoints]

/-- A key of one is not read where there are points and ranges on the left of a conjunction. -/
example :
    ∃ f expression valueArray,
      buildPushDownPredicatesResource (naiveEncoder id) id ⟨[⟨['k'], "rowkey", .integer⟩]⟩
        [.and (.or (.equalTo ['k'] (.integer 1)) (.greaterThan ['k'] (.integer 5)))
          (.lessThan ['k'] (.integer 3))] = .ok (f, expression, valueArray) ∧
      timesRead (f.getPartitions [⟨[], []⟩]) [0, 0, 0, 1] = 0 :=
  ⟨_, _, _, rfl, by decide⟩

/-- A row is read twice where both sides of a disjunction are true of it, one with points and the
other with ranges. -/
theorem two_le_timesRead {row : List Char → Option Value} {left right : Filter}
    (hbuild : buildPushDownPredicatesResource (naiveEncoder hashCode) hashCode catalog
      [.or left right] = .ok (f, expression, valueArray))
    (hranges : left.givesRanges catalog = false) (hpoints : right.givesPoints catalog = false)
    (hprunable : (left.or right).Prunable catalog)
    (hseparable : (left.or right).Separable catalog) (hstored : StoredUnder catalog row x)
    (hleft : left.eval row = some true) (hright : right.eval row = some true)
    (hsplit : IsSplit [] regions) : 2 ≤ timesRead (f.getPartitions regions) x := by
  obtain ⟨e, htransverse, -⟩ := transverse_conjunction hbuild
  obtain ⟨e₁, f₁, values₁, e₂, f₂, hf₁, hf₂, rfl, -⟩ := transverse_or htransverse
  have hpoint : x ∈ f₁.points := by
    refine (takes_transverse hf₁ hprunable.1 hseparable.1 hstored hleft).resolve_right ?_
    simp [ranges_of_not_givesRanges hf₁ hranges]
  have hrange : ∃ r ∈ f₂.ranges, r.containsPoint x = true := by
    refine (takes_transverse hf₂ hprunable.2 hseparable.2 hstored hright).resolve_left ?_
    simp [points_of_not_givesPoints hf₂ hpoints]
  have hmerge : ∃ r ∈ (f₁.mergeUnion f₂).ranges, r.containsPoint x = true :=
    RowKeyFilter.exists_mem_foldl_addRange (.inr hrange)
  have hcount : 0 < (f₁.mergeUnion f₂).points.count x :=
    List.count_pos_iff.mpr (List.mem_append_left _ hpoint)
  have hscans := countP_addRange_pos hmerge
  rw [RowKeyFilter.getPartitions, timesRead_getPartitions hsplit]
  omega

/-- A key of one is read twice where it is to be one or less than three. -/
theorem two_le_timesRead_one :
    ∃ f expression valueArray,
      buildPushDownPredicatesResource (naiveEncoder id) id ⟨[⟨['k'], "rowkey", .integer⟩]⟩
        [.or (.equalTo ['k'] (.integer 1)) (.lessThan ['k'] (.integer 3))] =
          .ok (f, expression, valueArray) ∧
      2 ≤ timesRead (f.getPartitions [⟨[], []⟩]) [0, 0, 0, 1] := by
  obtain ⟨⟨f, expression, valueArray⟩, hbuild⟩ :
      ∃ result, buildPushDownPredicatesResource (naiveEncoder id) id
        ⟨[⟨['k'], "rowkey", .integer⟩]⟩
        [.or (.equalTo ['k'] (.integer 1)) (.lessThan ['k'] (.integer 3))] = .ok result := ⟨_, rfl⟩
  refine ⟨f, expression, valueArray, hbuild, two_le_timesRead hbuild (by decide) (by decide) ?_ ?_
    (storedUnder_singleton (v := .integer 1) rfl) (by decide) (by decide) ⟨rfl, rfl⟩⟩
  · simp [Filter.Prunable, HBaseTableCatalog.getField]
  · simp [Filter.Separable]

end Scan

end Moonbox.HBase
