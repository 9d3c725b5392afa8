import Moonbox.HBase.Pushdown

/-!
# The filter of the region servers

A region server builds the expression from its text and leaves out a row that it is not true of.
Only the rows that satisfy the filters of the query are left then, as far as the filters are handed
on, except that of two longs only the upper halves are compared.
-/

namespace Moonbox.HBase

open ByteOrder TwosComplement ThreeValued Outcome DynamicLogicExpression

structure SparkSQLPushDownFilter where
  dynamicLogicExpression : DynamicLogicExpression
  valueFromQueryArray : List Bytes

namespace SparkSQLPushDownFilter

/-- What `parseFrom` makes of the bytes of `toByteArray`. The values come as they were. -/
def sent (filter : SparkSQLPushDownFilter) : Except String SparkSQLPushDownFilter := do
  let expression ← build filter.dynamicLogicExpression.toExpressionString
  pure ⟨expression, filter.valueFromQueryArray⟩

/-- Whether the row is left out. It is not if the expression fails. -/
def filterRow (encoder : BytesEncoder) (filter : SparkSQLPushDownFilter) (cells : RowValues) :
    Bool :=
  match filter.dynamicLogicExpression.execute encoder cells filter.valueFromQueryArray with
  | .ok result => !result
  | .error _ => false

end SparkSQLPushDownFilter

/-! ### Filters that are handed on -/

namespace Filter

/-- A filter that is not handed on is true of every row. -/
def handedOn : Filter → Filter
  | equalTo attr value => equalTo attr value
  | compare ops attr value => compare ops attr value
  | or left right => or left.handedOn right.handedOn
  | and left right => and left.handedOn right.handedOn
  | isNull attr => isNull attr
  | isNotNull attr => isNotNull attr
  | other _ => other fun _ => some true

/-- Literals have the type of their column, and columns a name and a type that the bytes follow. -/
def WellTyped (catalog : HBaseTableCatalog) : Filter → Prop
  | equalTo attr value => IsName attr ∧ ∀ field, catalog.getField attr = .ok field →
      value.dt = field.dt ∧ (field.dt = .integer ∨ field.dt = .long ∨ field.dt = .string)
  | compare _ attr value => IsName attr ∧ ∀ field, catalog.getField attr = .ok field →
      value.dt = field.dt ∧ (field.dt = .boolean ∨ field.dt = .short ∨ field.dt = .integer ∨
        field.dt = .string)
  | or left right => left.WellTyped catalog ∧ right.WellTyped catalog
  | and left right => left.WellTyped catalog ∧ right.WellTyped catalog
  | isNull attr => IsName attr
  | isNotNull attr => IsName attr
  | other _ => True

end Filter

/-- The cells of a row have the bytes of its values, which have the types of their columns. -/
structure CellsOf (catalog : HBaseTableCatalog) (row : List Char → Option Value)
    (cells : RowValues) : Prop where
  cells_eq : ∀ attr, cells attr = (row attr).map Utils.toBytes
  dt_eq : ∀ attr field v, catalog.getField attr = .ok field → row attr = some v → v.dt = field.dt

/-! ### Comparisons -/

variable {hashCode : Bytes → Bytes} {catalog : HBaseTableCatalog} {v w : Value} {k : Nat}
  {m n : Int} {ops : JavaBytesEncoder} {byteValue : Bytes} {dt : DataType}

lemma readInteger_lastBytes (hk : 0 < k) (hn : Fits k n) :
    readInteger k (lastBytes k n) = .ok n := by
  obtain ⟨k, rfl⟩ := Nat.exists_eq_add_one_of_ne_zero hk.ne'
  have hlen := ByteBuf.length_lastBytes (k + 1) n
  have htake : (lastBytes (k + 1) n).take (k + 1) = lastBytes (k + 1) n :=
    List.take_of_length_le hlen.le
  rw [readInteger, htake, ofBytes_lastBytes k hn.1 hn.2, hlen]
  simp

lemma lastBytes_inj (hk : 0 < k) (hm : Fits k m) (hn : Fits k n)
    (h : lastBytes k m = lastBytes k n) : m = n := by
  have hread := readInteger_lastBytes hk hm
  rw [h, readInteger_lastBytes hk hn] at hread
  exact (Except.ok.inj hread).symm

lemma toBytes_inj (hdt : v.dt = w.dt)
    (hv : v.dt = .integer ∨ v.dt = .long ∨ v.dt = .string)
    (h : Utils.toBytes v = Utils.toBytes w) : v = w := by
  cases v <;> simp only [Value.dt, reduceCtorEq, or_self, or_false] at hv
  all_goals cases w <;> cases hdt
  case integer m n =>
    exact congrArg _ (Int32.toInt_inj.mp
      (lastBytes_inj (by decide) (fits_toInt32 m) (fits_toInt32 n) h))
  case long m n =>
    exact congrArg _ (Int64.toInt_inj.mp
      (lastBytes_inj (by decide) (fits_toInt64 m) (fits_toInt64 n) h))
  case string as bs => exact congrArg _ h

/-- Values of one type are compared. -/
lemma exists_compare (hdt : v.dt = w.dt) : ∃ o, v.compare w = some o ∧ (o = .eq ↔ v = w) := by
  have hsome : ∃ o, v.compare w = some o := by
    cases v <;> cases w <;> cases hdt <;> exact ⟨_, rfl⟩
  obtain ⟨o, ho⟩ := hsome
  refine ⟨o, ho, fun h => eq_of_compare (h ▸ ho), ?_⟩
  rintro rfl
  cases v <;> exact (Option.some.inj ho).symm.trans (cmp_eq.mpr rfl)

lemma filter_integers {size : Nat} {input value : Bytes} (ops : JavaBytesEncoder)
    (hn : readInteger size input = .ok n) (hm : readInteger size value = .ok m) :
    (do pure (ops.compare (cmp (← readInteger size input) (← readInteger size value))) :
      Except String Bool) = .ok (ops.compare (cmp n m)) := by
  rw [hn, hm]
  rfl

/-- The filter compares as Spark does. -/
lemma filter_encode (ops : JavaBytesEncoder) (hv : v.dt = dt) (hw : w.dt = dt)
    (hdt : dt = .boolean ∨ dt = .short ∨ dt = .integer ∨ dt = .string)
    (h : NaiveEncoder.encode hashCode dt w = .ok byteValue) :
    ∃ o, v.compare w = some o ∧
      NaiveEncoder.filter (Utils.toBytes v) byteValue ops = .ok (ops.compare o) := by
  subst hv
  cases v with
  | boolean a =>
    cases w with
    | boolean c =>
      cases h
      refine ⟨_, rfl, ?_⟩
      cases a <;> cases c <;> cases ops <;> decide
    | _ => cases hw
  | short n =>
    cases w with
    | short m =>
      cases h
      refine ⟨_, rfl, ?_⟩
      exact filter_integers ops (readInteger_lastBytes (by decide) (fits_toInt16 n))
        (readInteger_lastBytes (by decide) (fits_toInt16 m))
    | _ => cases hw
  | integer n =>
    cases w with
    | integer m =>
      cases h
      refine ⟨_, rfl, ?_⟩
      exact filter_integers ops (readInteger_lastBytes (by decide) (fits_toInt32 n))
        (readInteger_lastBytes (by decide) (fits_toInt32 m))
    | _ => cases hw
  | string as =>
    cases w with
    | string bs =>
      cases h
      exact ⟨_, rfl, rfl⟩
    | _ => cases hw
  | _ => simp [Value.dt] at hdt

/-- Of two longs the upper halves are compared. -/
theorem filter_longs (m n : Int64) (ops : JavaBytesEncoder) :
    ∃ byteValue, NaiveEncoder.encode hashCode .long (.long m) = .ok byteValue ∧
      NaiveEncoder.filter (Utils.toBytes (.long n)) byteValue ops =
        .ok (ops.compare (cmp (n.toInt / 2 ^ 32) (m.toInt / 2 ^ 32))) := by
  have hread (n : Int64) : readInteger 4 (lastBytes 8 n.toInt) = .ok (n.toInt / 2 ^ 32) := by
    obtain ⟨hge, hlt⟩ := fits_toInt64 n
    have hfits : Fits 4 (n.toInt / 2 ^ 32) := by
      constructor <;> omega
    have htake : (lastBytes 8 n.toInt).take 4 = lastBytes 4 (n.toInt / 2 ^ 32) := by
      rw [lastBytes_add 4 4, List.take_left' (ByteBuf.length_lastBytes 4 _)]
      norm_num
    rw [readInteger, htake, ofBytes_lastBytes 3 hfits.1 hfits.2, ByteBuf.length_lastBytes]
    rfl
  exact ⟨_, rfl, filter_integers ops (hread n) (hread m)⟩

/-! ### Execution -/

section Execution

variable {parent f : RowKeyFilter} {values values' valueArray : List Bytes} {filter : Filter}
  {e : DynamicLogicExpression} {row : List Char → Option Value} {cells : RowValues}

/-- A literal is found where the expression says as long as the index is not out of range. -/
lemma valueAt_lastIndex (h : values ++ [byteValue] <+: valueArray)
    (hlen : valueArray.length < 2 ^ 31) :
    valueAt valueArray (lastIndex (values ++ [byteValue])) = .ok byteValue := by
  obtain ⟨rest, rfl⟩ := h
  have hindex : (lastIndex (values ++ [byteValue])).toInt = values.length := by
    simp only [List.length_append, List.length_singleton] at hlen
    rw [lastIndex, List.length_append, List.length_singleton, Int32.toInt_ofInt_of_le] <;>
      push_cast <;> omega
  rw [valueAt, hindex, if_pos (Int.natCast_nonneg _), Int.toNat_natCast, List.append_assoc,
    List.getElem?_append_right le_rfl, Nat.sub_self]
  rfl

lemma prefix_transverse {encoder : BytesEncoder}
    (h : transverseFilterTree encoder hashCode catalog parent values filter =
      .ok (e, f, values')) : values <+: values' := by
  induction filter generalizing parent values values' e f with
  | equalTo attr w =>
    obtain ⟨field, byteValue, -, -, -, rfl, -⟩ := transverse_equalTo h
    exact List.prefix_append values _
  | compare ops attr w =>
    obtain ⟨field, byteValue, -, -, -, rfl, -⟩ := transverse_compare h
    exact List.prefix_append values _
  | or left right ihleft ihright =>
    obtain ⟨e₁, f₁, values₁, e₂, f₂, hleft, hright, -, -⟩ := transverse_or h
    exact (ihleft hleft).trans (ihright hright)
  | and left right ihleft ihright =>
    obtain ⟨e₁, f₁, values₁, e₂, f₂, hleft, hright, -, -⟩ := transverse_and h
    exact (ihleft hleft).trans (ihright hright)
  | isNull attr => cases h; exact List.prefix_rfl
  | isNotNull attr => cases h; exact List.prefix_rfl
  | other truth => cases h; exact List.prefix_rfl

lemma wellNamed_transverse {encoder : BytesEncoder}
    (h : transverseFilterTree encoder hashCode catalog parent values filter = .ok (e, f, values'))
    (htyped : filter.WellTyped catalog) : e.WellNamed := by
  induction filter generalizing parent values values' e f with
  | equalTo attr w =>
    obtain ⟨field, byteValue, -, -, -, -, rfl⟩ := transverse_equalTo h
    exact htyped.1
  | compare ops attr w =>
    obtain ⟨field, byteValue, -, -, -, -, rfl⟩ := transverse_compare h
    exact htyped.1
  | or left right ihleft ihright =>
    obtain ⟨e₁, f₁, values₁, e₂, f₂, hleft, hright, -, rfl⟩ := transverse_or h
    exact ⟨ihleft hleft htyped.1, ihright hright htyped.2⟩
  | and left right ihleft ihright =>
    obtain ⟨e₁, f₁, values₁, e₂, f₂, hleft, hright, -, rfl⟩ := transverse_and h
    exact ⟨ihleft hleft htyped.1, ihright hright htyped.2⟩
  | isNull attr => cases h; exact htyped
  | isNotNull attr => cases h; exact htyped
  | other truth => cases h; trivial

/-- The expression is true of a row just if the filter is, as far as it is handed on. -/
lemma execute_transverse
    (h : transverseFilterTree (naiveEncoder hashCode) hashCode catalog parent values filter =
      .ok (e, f, values'))
    (hbegins : values' <+: valueArray) (hlen : valueArray.length < 2 ^ 31)
    (htyped : filter.WellTyped catalog) (hcells : CellsOf catalog row cells) :
    e.execute (naiveEncoder hashCode) cells valueArray =
      .ok (decide (filter.handedOn.eval row = some true)) := by
  induction filter generalizing parent values values' e f with
  | equalTo attr w =>
    obtain ⟨field, byteValue, hfield, hbyteValue, -, rfl, rfl⟩ := transverse_equalTo h
    obtain ⟨hdt, htype⟩ := htyped.2 field hfield
    obtain rfl := getByteValue_toString hdt htype hbyteValue
    rw [execute, valueAt_lastIndex hbegins hlen, hcells.cells_eq, Filter.handedOn, Filter.eval]
    cases hv : row attr with
    | none => rfl
    | some v =>
      have hdtv := hcells.dt_eq attr field v hfield hv
      obtain ⟨o, ho, heq⟩ := exists_compare (hdtv.trans hdt.symm)
      have hbytes : (Utils.toBytes w == Utils.toBytes v) = o.isEq := by
        rw [Bool.eq_iff_iff, beq_iff_eq, Ordering.isEq_iff_eq_eq, heq]
        refine ⟨fun h => (toBytes_inj (hdt.trans hdtv.symm) (hdt ▸ htype) h).symm, ?_⟩
        rintro rfl
        rfl
      rw [Option.bind_some, ho]
      change Except.ok ((Utils.toBytes w == Utils.toBytes v) != false) = _
      rw [hbytes]
      cases o <;> rfl
  | compare ops attr w =>
    obtain ⟨field, byteValue, hfield, hbyteValue, -, rfl, rfl⟩ := transverse_compare h
    obtain ⟨hdt, htype⟩ := htyped.2 field hfield
    rw [execute, valueAt_lastIndex hbegins hlen, hcells.cells_eq, Filter.handedOn, Filter.eval]
    cases hv : row attr with
    | none => rfl
    | some v =>
      obtain ⟨o, ho, hfilter⟩ :=
        filter_encode ops (hcells.dt_eq attr field v hfield hv) hdt htype hbyteValue
      rw [Option.bind_some, ho]
      refine hfilter.trans ?_
      cases hcompare : ops.compare o <;> simp [hcompare]
  | or left right ihleft ihright =>
    obtain ⟨e₁, f₁, values₁, e₂, f₂, hleft, hright, -, rfl⟩ := transverse_or h
    have hleft' := ihleft hleft ((prefix_transverse hright).trans hbegins) htyped.1
    have hright' := ihright hright hbegins htyped.2
    have hor : (Filter.or left right).handedOn.eval row = some true ↔
        left.handedOn.eval row = some true ∨ right.handedOn.eval row = some true :=
      Truth.stands_or false
    rw [execute, hleft', hright', decide_eq_decide.mpr hor, Bool.decide_or]
    cases decide (left.handedOn.eval row = some true) <;> rfl
  | and left right ihleft ihright =>
    obtain ⟨e₁, f₁, values₁, e₂, f₂, hleft, hright, -, rfl⟩ := transverse_and h
    have hleft' := ihleft hleft ((prefix_transverse hright).trans hbegins) htyped.1
    have hright' := ihright hright hbegins htyped.2
    have hand : (Filter.and left right).handedOn.eval row = some true ↔
        left.handedOn.eval row = some true ∧ right.handedOn.eval row = some true :=
      Truth.and_eq_true
    rw [execute, hleft', hright', decide_eq_decide.mpr hand, Bool.decide_and]
    cases decide (left.handedOn.eval row = some true) <;> rfl
  | isNull attr =>
    cases h
    rw [execute, hcells.cells_eq, Filter.handedOn, Filter.eval]
    cases row attr <;> rfl
  | isNotNull attr =>
    cases h
    rw [execute, hcells.cells_eq, Filter.handedOn, Filter.eval]
    cases row attr <;> rfl
  | other truth => cases h; rfl

lemma eval_handedOn (h : filter.eval row = some true) : filter.handedOn.eval row = some true := by
  induction filter with
  | or left right ihleft ihright =>
    exact (Truth.stands_or false).mpr (((Truth.stands_or false).mp h).imp ihleft ihright)
  | and left right ihleft ihright =>
    exact Truth.and_eq_true.mpr ((Truth.and_eq_true.mp h).imp ihleft ihright)
  | other truth => rfl
  | _ => exact h

/-- The region servers leave out just the rows of which the filters are not true, as far as they
are handed on, and so no row that satisfies them. -/
theorem filterRow_exact {filters : List Filter}
    (hbuild : buildPushDownPredicatesResource (naiveEncoder hashCode) hashCode catalog filters =
      .ok (f, some e, valueArray))
    (hlen : valueArray.length < 2 ^ 31) (htyped : (Filter.conjunction filters).WellTyped catalog)
    (hcells : CellsOf catalog row cells) :
    ∃ sent, (SparkSQLPushDownFilter.mk e valueArray).sent = .ok sent ∧
      (sent.filterRow (naiveEncoder hashCode) cells = false ↔
        (Filter.conjunction filters).handedOn.eval row = some true) ∧
      ((∀ filter ∈ filters, filter.eval row = some true) →
        sent.filterRow (naiveEncoder hashCode) cells = false) := by
  obtain ⟨e', htransverse, he⟩ := transverse_conjunction hbuild
  obtain rfl := he e rfl
  have hbuilt := build_toExpressionString (wellNamed_transverse htransverse htyped)
  have hexecute := execute_transverse htransverse List.prefix_rfl hlen htyped hcells
  have hexact : (SparkSQLPushDownFilter.mk e valueArray).filterRow (naiveEncoder hashCode) cells =
      false ↔ (Filter.conjunction filters).handedOn.eval row = some true := by
    rw [SparkSQLPushDownFilter.filterRow, hexecute]
    simp
  refine ⟨⟨e, valueArray⟩, ?_, hexact, fun heval => ?_⟩
  · rw [SparkSQLPushDownFilter.sent, hbuilt]
    rfl
  · exact hexact.mpr (eval_handedOn (eval_conjunction heval))

/-- A row with a negative number is left where it is to be less than five. -/
theorem filterRow_exact_negative :
    ∃ f e sent,
      buildPushDownPredicatesResource (naiveEncoder id) id ⟨[⟨['n'], "f", .integer⟩]⟩
        [.isNotNull ['n'], .lessThan ['n'] (.integer 5), .other fun _ => some true] =
          .ok (f, some e, [[2, 0, 0, 0, 5]]) ∧
      (SparkSQLPushDownFilter.mk e [[2, 0, 0, 0, 5]]).sent = .ok sent ∧
      sent.filterRow (naiveEncoder id) (fun _ => some [255, 255, 255, 255]) = false := by
  obtain ⟨f, e, hbuild⟩ : ∃ f e,
      buildPushDownPredicatesResource (naiveEncoder id) id ⟨[⟨['n'], "f", .integer⟩]⟩
        [.isNotNull ['n'], .lessThan ['n'] (.integer 5), .other fun _ => some true] =
          .ok (f, some e, [[2, 0, 0, 0, 5]]) := ⟨_, _, rfl⟩
  have hfield {attr : List Char} {field : Field}
      (h : HBaseTableCatalog.getField ⟨[⟨['n'], "f", .integer⟩]⟩ attr = .ok field) :
      field.dt = .integer := by
    rw [eq_of_getField_singleton h]
  have hcells : CellsOf ⟨[⟨['n'], "f", .integer⟩]⟩ (fun _ => some (.integer (-1)))
      (fun _ => some [255, 255, 255, 255]) := by
    refine ⟨fun attr => by decide, ?_⟩
    rintro attr field v h ⟨⟩
    exact (hfield h).symm
  have hname : IsName ['n'] := by decide
  obtain ⟨sent, hsent, -, hkept⟩ := filterRow_exact hbuild (by decide)
    ⟨⟨hname, hname, fun field h => ⟨(hfield h).symm, .inr (.inr (.inl (hfield h)))⟩⟩, trivial⟩
    hcells
  exact ⟨f, e, sent, hbuild, hsent, hkept (by decide)⟩

end Execution

end Moonbox.HBase
