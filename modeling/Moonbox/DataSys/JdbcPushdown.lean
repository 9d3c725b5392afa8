import Mathlib.Tactic.Ring
import Moonbox.Lib.Outcomes

/-!
# Pushdown to a database with JDBC

A query that is pushed down whole is read with Spark's conversion of a result set, one that is
pushed down in part with the objects of the driver, which Spark takes into a data frame.
-/

namespace Moonbox.DataSys

open Outcome

/-! ### Objects of a driver -/

/-- `java.math.BigDecimal` -/
structure BigDecimal where
  unscaled : Int
  scale : Int

namespace BigDecimal

/-- The part before the point. -/
def toBigInteger (d : BigDecimal) : Int :=
  if d.scale ≤ 0 then d.unscaled * 10 ^ d.scale.natAbs else d.unscaled.tdiv (10 ^ d.scale.natAbs)

/-- The low bits, as a signed number. -/
def wrap (bits : Nat) (n : Int) : Int := n.bmod (2 ^ bits)

def longValue (d : BigDecimal) : Int := wrap 64 d.toBigInteger

def intValue (d : BigDecimal) : Int := wrap 32 d.toBigInteger

def shortValue (d : BigDecimal) : Int := wrap 16 d.intValue

def byteValue (d : BigDecimal) : Int := wrap 8 d.intValue

def doubleValue (d : BigDecimal) : Float :=
  let m := Float.ofScientific d.unscaled.natAbs (decide (0 < d.scale)) d.scale.natAbs
  if d.unscaled < 0 then -m else m

def floatValue (d : BigDecimal) : Float32 :=
  let m := Float32.ofScientific d.unscaled.natAbs (decide (0 < d.scale)) d.scale.natAbs
  if d.unscaled < 0 then -m else m

/-- `setScale` with `ROUND_HALF_UP` -/
def setScale (scale : Nat) (d : BigDecimal) : BigDecimal :=
  let k := (scale : Int) - d.scale
  if 0 ≤ k then ⟨d.unscaled * 10 ^ k.natAbs, scale⟩
  else ⟨d.unscaled.sign * ((2 * d.unscaled.natAbs + 10 ^ k.natAbs) / (2 * 10 ^ k.natAbs) : Nat),
    scale⟩

end BigDecimal

/-- What `getObject` may give. The dates and times are those of `java.sql`. -/
inductive JavaObject
  | null
  | boolean (b : Bool)
  | byte (n : Int)
  | short (n : Int)
  | integer (n : Int)
  | long (n : Int)
  | float (x : Float32)
  | double (x : Float)
  | bigDecimal (d : BigDecimal)
  | string (s : String)
  | date (days : Int)
  | timestamp (nanos : Int)
  | bytes (bs : List UInt8)
  | other (className : String)

/-! ### Spark -/

inductive DataType
  | boolean
  | byte
  | short
  | integer
  | long
  | float
  | double
  | decimal (precision scale : Nat)
  | string
  | date
  | timestamp
  | binary
  deriving DecidableEq

structure StructField where
  dataType : DataType
  nullable : Bool

/-- The class of the objects that stand for a type in a `Row`. -/
def IsExternal : DataType → JavaObject → Prop
  | .boolean, .boolean _ => True
  | .byte, .byte _ => True
  | .short, .short _ => True
  | .integer, .integer _ => True
  | .long, .long _ => True
  | .float, .float _ => True
  | .double, .double _ => True
  | .decimal _ _, .bigDecimal _ => True
  | .string, .string _ => True
  | .date, .date _ => True
  | .timestamp, .timestamp _ => True
  | .binary, .bytes _ => True
  | _, _ => False

instance : DecidableRel IsExternal := fun t o => by
  cases t <;> cases o <;> first | exact .isTrue trivial | exact .isFalse id

/-- A decimal with the scale of its type, unless it has too many digits then. -/
def toPrecision (precision scale : Nat) (d : BigDecimal) : Option BigDecimal :=
  let d := d.setScale scale
  if d.unscaled.natAbs < 10 ^ precision then some d else none

/-- An object as it comes out of a data frame. A decimal that does not fit comes out as `NULL`. -/
def carried : DataType → JavaObject → JavaObject
  | .decimal precision scale, .bigDecimal d =>
    ((toPrecision precision scale d).map .bigDecimal).getD .null
  | _, o => o

/-- `createDataFrame` looks at the class of each object. -/
def throughDataFrame (f : StructField) (o : JavaObject) : Except String JavaObject :=
  match o with
  | .null => if f.nullable then .ok .null else .error "The field of input row cannot be null."
  | o =>
    if IsExternal f.dataType o then .ok (carried f.dataType o)
    else .error "The object is not a valid external type for the schema."

/-! ### Data systems -/

inductive JdbcDataSystem
  | mysql
  | sqlServer
  | oracle
  | postgres
  deriving DecidableEq

/-- `typeConvert` of Oracle and of Postgres. -/
def typeConvert (original : JavaObject) (dataType : DataType) : JavaObject :=
  match original, dataType with
  | .bigDecimal d, .double => .double d.doubleValue
  | .bigDecimal d, .float => .float d.floatValue
  | .bigDecimal d, .byte => .byte d.byteValue
  | .bigDecimal d, .short => .short d.shortValue
  | .bigDecimal d, .long => .long d.longValue
  | .bigDecimal d, .integer => .integer d.intValue
  | _, _ => original

namespace JdbcDataSystem

def converts : JdbcDataSystem → Bool
  | mysql | sqlServer => false
  | oracle | postgres => true

/-- An object, given the type at its place in the plan that is pushed down. -/
def convert (system : JdbcDataSystem) (type : Option DataType) (o : JavaObject) :
    Except String JavaObject :=
  if system.converts = true then
    match type with
    | some t => .ok (typeConvert o t)
    | none => .error "ArrayIndexOutOfBoundsException"
  else .ok o

/-- The objects of a row. -/
def resultSetToObjectArray (system : JdbcDataSystem) :
    List JavaObject → List DataType → Except String (List JavaObject)
  | [], _ => .ok []
  | o :: os, types => do
    pure ((← system.convert types.head? o) :: (← resultSetToObjectArray system os types.tail))

end JdbcDataSystem

/-- The fields of a data frame from the objects of a row. -/
def createRow : List StructField → List JavaObject → Except String (List JavaObject)
  | [], _ => .ok []
  | _ :: _, [] => .error "ArrayIndexOutOfBoundsException"
  | f :: fs, o :: os => do pure ((← throughDataFrame f o) :: (← createRow fs os))

/-- A row of `buildScan`; `types` are those of the plan, `schema` is that of the plan that is
printed. -/
def scanRow (system : JdbcDataSystem) (schema : List StructField) (types : List DataType)
    (row : List JavaObject) : Except String (List JavaObject) := do
  createRow schema (← system.resultSetToObjectArray row types)

def buildScan (system : JdbcDataSystem) (schema : List StructField) (types : List DataType)
    (resultSet : List (List JavaObject)) : Except String (List (List JavaObject)) :=
  resultSet.mapM (scanRow system schema types)

/-- The integers of a width. -/
def Fits (bits : Nat) (n : Int) : Prop := -2 ^ (bits - 1) ≤ n ∧ n < 2 ^ (bits - 1)

/-- A number of a type that is the part of a decimal before the point, or the nearest one of the
type. -/
def IsNumber : DataType → BigDecimal → JavaObject → Prop
  | .short, d, o => Fits 16 d.toBigInteger ∧ o = .short d.toBigInteger
  | .integer, d, o => Fits 32 d.toBigInteger ∧ o = .integer d.toBigInteger
  | .long, d, o => Fits 64 d.toBigInteger ∧ o = .long d.toBigInteger
  | .float, d, o => o = .float d.floatValue
  | .double, d, o => o = .double d.doubleValue
  | _, _, _ => False

def isNumeric : DataType → Bool
  | .short | .integer | .long | .float | .double => true
  | _ => false

/-- How Spark reads a column with the typed methods of a driver: an object of the class of the
type is what it is, a decimal gets the scale of its type or is too long, and there is no method for
bytes. Oracle and Postgres give of a `NUMBER` or `numeric` the number of the type. -/
structure JdbcConversion (system : JdbcDataSystem) where
  get : StructField → JavaObject → Except String JavaObject
  get_null : ∀ f v, get f .null = .ok v → v = .null
  get_external : ∀ f o v, IsExternal f.dataType o → (∀ p s, f.dataType ≠ .decimal p s) →
    get f o = .ok v → v = o
  get_decimal : ∀ p s nullable d v, get ⟨.decimal p s, nullable⟩ (.bigDecimal d) = .ok v →
    ∃ d', toPrecision p s d = some d' ∧ v = .bigDecimal d'
  get_byte : ∀ nullable o, ∃ e, get ⟨.byte, nullable⟩ o = .error e
  get_number : system.converts = true → ∀ f d v, isNumeric f.dataType = true →
    get f (.bigDecimal d) = .ok v → IsNumber f.dataType d v

section Rows

variable {system : JdbcDataSystem} (conv : JdbcConversion system)

def getRow : List StructField → List JavaObject → Except String (List JavaObject)
  | [], _ => .ok []
  | _ :: _, [] => .error "The column index is out of range."
  | f :: fs, o :: os => do pure ((← conv.get f o) :: (← getRow fs os))

/-- `JdbcUtils.resultSetToRows` -/
def buildQuery (schema : List StructField) (resultSet : List (List JavaObject)) :
    Except String (List (List JavaObject)) :=
  resultSet.mapM (getRow conv schema)

/-! ### The same rows -/

/-- `NULL` or of the type. -/
def HasType (f : StructField) (o : JavaObject) : Prop := o = .null ∨ IsExternal f.dataType o

structure SameRows (schema : List StructField) (types : List DataType)
    (resultSet : List (List JavaObject)) : Prop where
  same : ∀ rows, buildScan system schema types resultSet = .ok rows ↔
    buildQuery conv schema resultSet = .ok rows
  typed : ∀ rows, buildScan system schema types resultSet = .ok rows →
    ∀ row ∈ rows, List.Forall₂ HasType schema row

/-- An object that `createDataFrame` takes. -/
def Taken (f : StructField) (o : JavaObject) : Prop :=
  (o = .null ∧ f.nullable = true) ∨ IsExternal f.dataType o

/-- After the conversion, if there is one, each object of the row is `NULL` where it may be, or of
the class of its type. -/
def RowTaken (system : JdbcDataSystem) : List StructField → List DataType → List JavaObject → Prop
  | [], _, _ => True
  | _ :: _, _, [] => False
  | f :: fs, types, o :: os =>
    (∃ o', system.convert types.head? o = .ok o' ∧ Taken f o') ∧ RowTaken system fs types.tail os

/-- Spark's own conversion takes each object of the row. -/
def RowConverted (schema : List StructField) (row : List JavaObject) : Prop :=
  List.Forall₂ (fun f o => ∃ v, conv.get f o = .ok v) schema row

variable {conv} {f : StructField} {fs : List StructField} {o o' v w : JavaObject}
  {os r : List JavaObject} {types : List DataType}

lemma not_isExternal_null (t : DataType) : ¬ IsExternal t .null := by
  cases t <;> exact id

lemma throughDataFrame_of_external (h : IsExternal f.dataType o) :
    throughDataFrame f o = .ok (carried f.dataType o) := by
  unfold throughDataFrame
  split
  · exact absurd h (not_isExternal_null _)
  · rw [if_pos h]

lemma carried_plain {t : DataType} (h : ∀ p s, t ≠ .decimal p s) : carried t o = o := by
  unfold carried
  split
  · exact absurd rfl (h _ _)
  · rfl

lemma taken_of_throughDataFrame (h : throughDataFrame f o = .ok v) : Taken f o := by
  unfold throughDataFrame at h
  split at h
  · split_ifs at h with hnull
    exact .inl ⟨rfl, hnull⟩
  · split_ifs at h with hexternal
    exact .inr hexternal

lemma throughDataFrame_ok : (∃ v, throughDataFrame f o = .ok v) ↔ Taken f o := by
  refine ⟨fun ⟨v, h⟩ => taken_of_throughDataFrame h, ?_⟩
  rintro (⟨rfl, hnull⟩ | h)
  · exact ⟨.null, by simp [throughDataFrame, hnull]⟩
  · exact ⟨_, throughDataFrame_of_external h⟩

lemma hasType_carried (h : IsExternal f.dataType o) : HasType f (carried f.dataType o) := by
  unfold carried
  split
  · rename_i p s d htype
    cases toPrecision p s d with
    | none => exact .inl rfl
    | some d' =>
      right
      rw [htype]
      trivial
  · exact .inr h

lemma hasType_throughDataFrame (h : throughDataFrame f o = .ok v) : HasType f v := by
  rcases taken_of_throughDataFrame h with ⟨rfl, hnull⟩ | hexternal
  · left
    simpa [throughDataFrame, hnull, eq_comm] using h
  · rw [throughDataFrame_of_external hexternal] at h
    rw [← Except.ok.inj h]
    exact hasType_carried hexternal

/-! ### What both give is the same -/

lemma throughDataFrame_eq_get (hscan : throughDataFrame f o = .ok v) (hget : conv.get f o = .ok w) :
    v = w := by
  rcases taken_of_throughDataFrame hscan with ⟨rfl, hnull⟩ | hexternal
  · rw [conv.get_null f w hget]
    simpa [throughDataFrame, hnull, eq_comm] using hscan
  · by_cases hdecimal : ∀ p s, f.dataType ≠ .decimal p s
    · rw [throughDataFrame_of_external hexternal, carried_plain hdecimal] at hscan
      rw [conv.get_external f o w hexternal hdecimal hget, Except.ok.inj hscan]
    · push Not at hdecimal
      obtain ⟨p, s, hdecimal⟩ := hdecimal
      obtain ⟨dataType, nullable⟩ := f
      subst hdecimal
      cases o with
      | bigDecimal d =>
        obtain ⟨d', hd', rfl⟩ := conv.get_decimal p s nullable d w hget
        rw [throughDataFrame_of_external hexternal] at hscan
        simpa [carried, hd', eq_comm] using hscan
      | _ => exact hexternal.elim

lemma wrap_of_fits_16 {n : Int} (h : Fits 16 n) :
    BigDecimal.wrap 16 (BigDecimal.wrap 32 n) = n := by
  simp only [Fits, BigDecimal.wrap, Int.bmod] at *
  norm_num at *
  omega

lemma wrap_of_fits_32 {n : Int} (h : Fits 32 n) : BigDecimal.wrap 32 n = n := by
  simp only [Fits, BigDecimal.wrap, Int.bmod] at *
  norm_num at *
  omega

lemma wrap_of_fits_64 {n : Int} (h : Fits 64 n) : BigDecimal.wrap 64 n = n := by
  simp only [Fits, BigDecimal.wrap, Int.bmod] at *
  norm_num at *
  omega

lemma typeConvert_of_isNumber {t : DataType} {d : BigDecimal} (h : IsNumber t d o) :
    typeConvert (.bigDecimal d) t = o := by
  cases t
  case short =>
    obtain ⟨hfits, rfl⟩ := h
    exact congrArg JavaObject.short (wrap_of_fits_16 hfits)
  case integer =>
    obtain ⟨hfits, rfl⟩ := h
    exact congrArg JavaObject.integer (wrap_of_fits_32 hfits)
  case long =>
    obtain ⟨hfits, rfl⟩ := h
    exact congrArg JavaObject.long (wrap_of_fits_64 hfits)
  case float => exact h.symm
  case double => exact h.symm
  all_goals exact h.elim

/-- A number has the class of one type only. -/
lemma eq_of_isExternal_typeConvert {t type : DataType} {d : BigDecimal}
    (hnumeric : isNumeric type = true ∨ type = .byte)
    (h : IsExternal t (typeConvert (.bigDecimal d) type)) : t = type := by
  cases type
  case byte => cases t <;> first | rfl | exact h.elim
  case short => cases t <;> first | rfl | exact h.elim
  case integer => cases t <;> first | rfl | exact h.elim
  case long => cases t <;> first | rfl | exact h.elim
  case float => cases t <;> first | rfl | exact h.elim
  case double => cases t <;> first | rfl | exact h.elim
  all_goals simp [isNumeric] at hnumeric

lemma typeConvert_eq_get {type : DataType} {d : BigDecimal} (hsystem : system.converts = true)
    (hscan : throughDataFrame f (typeConvert (.bigDecimal d) type) = .ok v)
    (hget : conv.get f (.bigDecimal d) = .ok w) : v = w := by
  by_cases hnumeric : isNumeric type = true ∨ type = .byte
  · have hnull : typeConvert (.bigDecimal d) type ≠ .null := by cases type <;> simp [typeConvert]
    have hexternal := (taken_of_throughDataFrame hscan).resolve_left fun h => hnull h.1
    obtain ⟨dataType, nullable⟩ := f
    obtain rfl : dataType = type := eq_of_isExternal_typeConvert hnumeric hexternal
    rcases hnumeric with hnumeric | rfl
    · have hplain : ∀ p s, dataType ≠ .decimal p s := by
        rintro p s rfl
        cases hnumeric
      rw [throughDataFrame_of_external hexternal, carried_plain hplain,
        typeConvert_of_isNumber (conv.get_number hsystem _ d w hnumeric hget)] at hscan
      exact (Except.ok.inj hscan).symm
    · obtain ⟨e, he⟩ := conv.get_byte nullable (.bigDecimal d)
      rw [he] at hget
      cases hget
  · have hkept : typeConvert (.bigDecimal d) type = .bigDecimal d := by
      cases type <;> first | rfl | simp [isNumeric] at hnumeric
    rw [hkept] at hscan
    exact throughDataFrame_eq_get hscan hget

/-- What becomes of an object is what Spark reads, if both are something. -/
lemma convert_eq_get {type : Option DataType} (hobject : system.convert type o = .ok o')
    (hscan : throughDataFrame f o' = .ok v) (hget : conv.get f o = .ok w) : v = w := by
  unfold JdbcDataSystem.convert at hobject
  split_ifs at hobject with hsystem
  · cases type with
    | none => cases hobject
    | some t =>
      obtain rfl := Except.ok.inj hobject
      cases o with
      | bigDecimal d => exact typeConvert_eq_get hsystem hscan hget
      | _ => exact throughDataFrame_eq_get hscan hget
  · obtain rfl := Except.ok.inj hobject
    exact throughDataFrame_eq_get hscan hget

/-! ### Rows -/

lemma scanRow_cons : scanRow system (f :: fs) types (o :: os) = .ok r ↔
    ∃ o' v vs, system.convert types.head? o = .ok o' ∧ throughDataFrame f o' = .ok v ∧
      scanRow system fs types.tail os = .ok vs ∧ v :: vs = r := by
  simp only [scanRow, JdbcDataSystem.resultSetToObjectArray, bind_eq_ok, pure_eq_ok]
  constructor
  · rintro ⟨_, ⟨o', hobject, objects, hobjects, rfl⟩, hrow⟩
    simp only [createRow, bind_eq_ok, pure_eq_ok] at hrow
    obtain ⟨v, hv, vs, hvs, rfl⟩ := hrow
    exact ⟨o', v, vs, hobject, hv, ⟨objects, hobjects, hvs⟩, rfl⟩
  · rintro ⟨o', v, vs, hobject, hv, ⟨objects, hobjects, hvs⟩, rfl⟩
    refine ⟨_, ⟨o', hobject, objects, hobjects, rfl⟩, ?_⟩
    simp only [createRow, bind_eq_ok, pure_eq_ok]
    exact ⟨v, hv, vs, hvs, rfl⟩

lemma getRow_cons : getRow conv (f :: fs) (o :: os) = .ok r ↔
    ∃ v vs, conv.get f o = .ok v ∧ getRow conv fs os = .ok vs ∧ v :: vs = r := by
  simp only [getRow, bind_eq_ok, pure_eq_ok]
  tauto

lemma scanRow_ok (hlength : os.length = fs.length) :
    (∃ r, scanRow system fs types os = .ok r) ↔ RowTaken system fs types os := by
  induction fs generalizing types os with
  | nil =>
    obtain rfl := List.length_eq_zero_iff.mp hlength
    exact ⟨fun _ => trivial, fun _ => ⟨[], rfl⟩⟩
  | cons f fs ih =>
    obtain ⟨o, os, rfl⟩ := List.exists_cons_of_length_eq_add_one hlength
    have hrest := @ih os types.tail (by simpa using hlength)
    simp only [scanRow_cons, RowTaken, ← hrest, ← throughDataFrame_ok]
    constructor
    · rintro ⟨_, o', v, vs, hobject, hv, hvs, -⟩
      exact ⟨⟨o', hobject, v, hv⟩, vs, hvs⟩
    · rintro ⟨⟨o', hobject, v, hv⟩, vs, hvs⟩
      exact ⟨_, o', v, vs, hobject, hv, hvs, rfl⟩

lemma getRow_ok (hlength : os.length = fs.length) :
    (∃ r, getRow conv fs os = .ok r) ↔ RowConverted conv fs os := by
  induction fs generalizing os with
  | nil =>
    obtain rfl := List.length_eq_zero_iff.mp hlength
    exact ⟨fun _ => .nil, fun _ => ⟨[], rfl⟩⟩
  | cons f fs ih =>
    obtain ⟨o, os, rfl⟩ := List.exists_cons_of_length_eq_add_one hlength
    have hrest := @ih os (by simpa using hlength)
    rw [RowConverted, List.forall₂_cons, ← RowConverted, ← hrest]
    simp only [getRow_cons]
    constructor
    · rintro ⟨_, v, vs, hv, hvs, -⟩
      exact ⟨⟨v, hv⟩, vs, hvs⟩
    · rintro ⟨⟨v, hv⟩, vs, hvs⟩
      exact ⟨_, v, vs, hv, hvs, rfl⟩

lemma scanRow_eq_getRow {r' : List JavaObject} (hscan : scanRow system fs types os = .ok r)
    (hget : getRow conv fs os = .ok r') : r = r' := by
  induction fs generalizing types os r r' with
  | nil =>
    simp only [scanRow, bind_eq_ok, createRow] at hscan
    obtain ⟨_, -, hr⟩ := hscan
    exact (Except.ok.inj hr).symm.trans (Except.ok.inj hget)
  | cons f fs ih =>
    cases os with
    | nil => cases hget
    | cons o os =>
      obtain ⟨o', v, vs, hobject, hv, hvs, rfl⟩ := scanRow_cons.mp hscan
      obtain ⟨w, ws, hw, hws, rfl⟩ := getRow_cons.mp hget
      rw [convert_eq_get hobject hv hw, ih hvs hws]

lemma hasType_scanRow (hscan : scanRow system fs types os = .ok r) :
    List.Forall₂ HasType fs r := by
  induction fs generalizing types os r with
  | nil =>
    simp only [scanRow, bind_eq_ok, createRow] at hscan
    obtain ⟨_, -, hr⟩ := hscan
    rw [← Except.ok.inj hr]
    exact .nil
  | cons f fs ih =>
    cases os with
    | nil => cases hscan
    | cons o os =>
      obtain ⟨o', v, vs, hobject, hv, hvs, rfl⟩ := scanRow_cons.mp hscan
      exact .cons (hasType_throughDataFrame hv) (ih hvs)

/-! ### Result sets -/

variable {schema : List StructField} {resultSet rows : List (List JavaObject)}

end Rows

/-! ### A sum -/

section Sum

instance (bits : Nat) (n : Int) : Decidable (Fits bits n) := inferInstanceAs (Decidable (_ ∧ _))

/-- Decimals and what needs no conversion. -/
def plainGet (f : StructField) (o : JavaObject) : Except String JavaObject :=
  match f.dataType, o with
  | .byte, _ => .error "Unsupported type tinyint"
  | _, .null => .ok .null
  | .decimal p s, .bigDecimal d =>
    match toPrecision p s d with
    | some d => .ok (.bigDecimal d)
    | none => .error "Overflowed precision"
  | .short, .bigDecimal d =>
    if Fits 16 d.toBigInteger then .ok (.short d.toBigInteger) else .error "Bad value for type short"
  | .integer, .bigDecimal d =>
    if Fits 32 d.toBigInteger then .ok (.integer d.toBigInteger) else .error "Bad value for type int"
  | .long, .bigDecimal d =>
    if Fits 64 d.toBigInteger then .ok (.long d.toBigInteger) else .error "Bad value for type long"
  | .float, .bigDecimal d => .ok (.float d.floatValue)
  | .double, .bigDecimal d => .ok (.double d.doubleValue)
  | t, o => if IsExternal t o then .ok o else .error "Bad value"

lemma plainGet_external {f : StructField} {o : JavaObject} (h : IsExternal f.dataType o)
    (hbyte : f.dataType ≠ .byte) (hdecimal : ∀ p s, f.dataType ≠ .decimal p s) :
    plainGet f o = .ok o := by
  obtain ⟨t, nullable⟩ := f
  cases t
  case byte => exact absurd rfl hbyte
  case decimal p s => exact absurd rfl (hdecimal p s)
  all_goals cases o <;> first | exact h.elim | rfl

def plainConversion (system : JdbcDataSystem) : JdbcConversion system where
  get := plainGet
  get_null f v h := by
    obtain ⟨t, nullable⟩ := f
    cases t <;> cases h <;> rfl
  get_external f o v hexternal hdecimal h := by
    by_cases hbyte : f.dataType = .byte
    · simp only [plainGet, hbyte] at h
      cases h
    · rw [plainGet_external hexternal hbyte hdecimal] at h
      exact (Except.ok.inj h).symm
  get_decimal p s nullable d v h := by
    simp only [plainGet] at h
    split at h
    · rename_i d' hd'
      exact ⟨d', hd', (Except.ok.inj h).symm⟩
    · cases h
  get_byte nullable o := ⟨_, rfl⟩
  get_number _ f d v hnumeric h := by
    obtain ⟨t, nullable⟩ := f
    cases t
    case short =>
      simp only [plainGet] at h
      split_ifs at h with hfits
      exact ⟨hfits, (Except.ok.inj h).symm⟩
    case integer =>
      simp only [plainGet] at h
      split_ifs at h with hfits
      exact ⟨hfits, (Except.ok.inj h).symm⟩
    case long =>
      simp only [plainGet] at h
      split_ifs at h with hfits
      exact ⟨hfits, (Except.ok.inj h).symm⟩
    case float => exact (Except.ok.inj h).symm
    case double => exact (Except.ok.inj h).symm
    all_goals cases hnumeric

/-- `SUM` over integers. -/
def sumSchema : List StructField := [⟨.long, true⟩]

def sumOf (unscaled : Int) : List (List JavaObject) := [[.bigDecimal ⟨unscaled, 0⟩]]

end Sum

end Moonbox.DataSys
