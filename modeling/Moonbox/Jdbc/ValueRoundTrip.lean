import Moonbox.Jdbc.MoonboxResult
import Moonbox.Lib.Outcomes

/-!
# Values on their way to the client

Which values the client gets back as they were.
-/

namespace Moonbox.Jdbc

open Moonbox.Interactive Outcome

/-! ### Values of a type -/

mutual

/-- The values of a type but for null. A row of Spark has strings for the types of characters. -/
def OfType : DataType → Obj → Prop
  | .byteType, v => ∃ n, v = .byte n
  | .shortType, v => ∃ n, v = .short n
  | .integerType, v => ∃ n, v = .int n
  | .longType, v => ∃ n, v = .long n
  | .floatType, v => ∃ bits, v = .float bits
  | .doubleType, v => ∃ bits, v = .double bits
  | .decimalType precision scale, v =>
    ∃ unscaled : Int, v = .bigDecimal unscaled scale ∧ unscaled.natAbs < 10 ^ precision
  | .booleanType, v => ∃ b, v = .boolean b
  | .charType, v => ∃ s, v = .string s
  | .varcharType, v => ∃ s, v = .string s
  | .stringType, v => ∃ s, v = .string s
  | .dateType, v => ∃ time, v = .date time
  | .timestampType, v => ∃ time micros, v = .timestamp time micros
  | .binaryType, v => ∃ bs, v = .bytes bs
  | .arrayType elementType, v =>
    ∃ xs, v = .seq xs ∧ ∀ x ∈ xs, x = .null ∨ OfType elementType x
  | .mapType keyType valueType, v =>
    ∃ entries, v = .map entries ∧ (entries.map Prod.fst).Nodup ∧
      ∀ e ∈ entries, OfType keyType e.1 ∧ (e.2 = .null ∨ OfType valueType e.2)
  | .structType schema, v => ∃ xs, v = .row xs ∧ FieldsOfType schema xs
  | .objectType, v => v = .other
  | .nullType, _ => False
  | .calendarIntervalType, v => v = .other
  | .userDefinedType, v => v = .other

def FieldsOfType : StructType → List Obj → Prop
  | .nil, xs => xs = []
  | .cons _ _ _ dataType fields, xs =>
    ∃ x xs', xs = x :: xs' ∧ (x = .null ∨ OfType dataType x) ∧ FieldsOfType fields xs'

end

def HasType (dataType : DataType) (v : Obj) : Prop := v = .null ∨ OfType dataType v

mutual

/-- The client has the same value: it holds arrays and structures as arrays of objects. -/
def Same : DataType → Obj → Obj → Prop
  | .arrayType elementType, v, w =>
    v = .null ∧ w = .null ∨
      ∃ xs ys, v = .seq xs ∧ w = .objects ys ∧ List.Forall₂ (Same elementType) xs ys
  | .mapType keyType valueType, v, w =>
    v = .null ∧ w = .null ∨
      ∃ es es', v = .map es ∧ w = .map es' ∧
        List.Forall₂ (fun e e' => Same keyType e.1 e'.1 ∧ Same valueType e.2 e'.2) es es'
  | .structType schema, v, w =>
    v = .null ∧ w = .null ∨ ∃ xs ys, v = .row xs ∧ w = .objects ys ∧ SameFields schema xs ys
  | _, v, w => v = w

def SameFields : StructType → List Obj → List Obj → Prop
  | .nil, xs, ys => xs = [] ∧ ys = []
  | .cons _ _ _ dataType fields, xs, ys =>
    ∃ x xs' y ys', xs = x :: xs' ∧ ys = y :: ys' ∧ Same dataType x y ∧ SameFields fields xs' ys'

end

/-! ### What survives -/

def isText : DataType → Bool
  | .charType => true
  | .varcharType => true
  | .stringType => true
  | _ => false

mutual

/-- The server has a message for the type. -/
def Convertible : DataType → Prop
  | .arrayType elementType => Convertible elementType
  | .mapType keyType valueType => Convertible keyType ∧ Convertible valueType
  | .structType schema => FieldsConvertible schema
  | .calendarIntervalType => False
  | .userDefinedType => False
  | _ => True

def FieldsConvertible : StructType → Prop
  | .nil => True
  | .cons _ _ _ dataType fields => Convertible dataType ∧ FieldsConvertible fields

end

mutual

/-- Nothing in the value is null but what has the type of null, no time has microseconds, and maps
have strings for keys. -/
def Survives : DataType → Obj → Prop
  | .charType, _ => False
  | .timestampType, v => ∃ time micros, v = .timestamp time micros ∧ micros.val = 0
  | .arrayType elementType, v => ∃ xs, v = .seq xs ∧ ∀ x ∈ xs, Survives elementType x
  | .mapType keyType valueType, v =>
    ∃ entries, v = .map entries ∧
      (entries ≠ [] → isText keyType = true) ∧ ∀ e ∈ entries, Survives valueType e.2
  | .structType schema, v => ∃ xs, v = .row xs ∧ FieldsSurvive schema xs
  | .objectType, _ => False
  | .nullType, _ => True
  | .calendarIntervalType, _ => False
  | .userDefinedType, _ => False
  | _, v => v ≠ .null

def FieldsSurvive : StructType → List Obj → Prop
  | .nil, _ => True
  | .cons _ _ _ dataType fields, xs =>
    ∃ x xs', xs = x :: xs' ∧ Survives dataType x ∧ FieldsSurvive fields xs'

end

/-! ### Types -/

mutual

lemma dataTypeConvert_ok : (dataType : DataType) →
    ((∃ pb, dataTypeConvert dataType = .ok pb) ↔ Convertible dataType)
  | .arrayType elementType => by
    simp [dataTypeConvert, Convertible, map_eq_ok, ← dataTypeConvert_ok elementType]
  | .mapType keyType valueType => by
    simp [dataTypeConvert, Convertible, bind_eq_ok, map_eq_ok, ← dataTypeConvert_ok keyType,
      ← dataTypeConvert_ok valueType]
  | .structType schema => by
    simp [dataTypeConvert, Convertible, map_eq_ok, ← schemaConvert_ok schema]
  | .calendarIntervalType => by simp [dataTypeConvert, Convertible]
  | .userDefinedType => by simp [dataTypeConvert, Convertible]
  | .byteType | .shortType | .integerType | .longType | .floatType | .doubleType
  | .decimalType _ _ | .booleanType | .charType | .varcharType | .stringType | .dateType
  | .timestampType | .binaryType | .objectType | .nullType => by
    simp [dataTypeConvert, Convertible]

lemma schemaConvert_ok : (schema : StructType) →
    ((∃ pb, schemaConvert schema = .ok pb) ↔ FieldsConvertible schema)
  | .nil => by simp [schemaConvert, FieldsConvertible]
  | .cons _ _ _ dataType fields => by
    simp [schemaConvert, FieldsConvertible, bind_eq_ok, map_eq_ok, ← dataTypeConvert_ok dataType,
      ← schemaConvert_ok fields]

end

/-! ### Maps -/

section Maps

variable (toString : Obj → String)

/-- What is put for the entries of a map. -/
def putEntries (valueType : DataType) (values : List (String × Value))
    (entries : List (Obj × Obj)) : Except String (List (String × Value)) :=
  entries.foldlM (fun values e => do
    let v ← valueConvert toString e.2 valueType
    pure (put values (keyToString toString e.1) v)) values

lemma put_fresh {values : List (String × Value)} {key : String} (value : Value)
    (h : ∀ e ∈ values, e.1 ≠ key) : put values key value = values ++ [(key, value)] := by
  have hany : (values.any fun e => e.1 == key) = false := by
    rw [List.any_eq_false]
    intro e he
    simpa using h e he
  rw [put, hany, if_neg (by simp)]

variable {toString} {valueType : DataType}

/-- If the keys are different strings, every entry stays. -/
lemma putEntries_eq_ok {values values' : List (String × Value)} {entries : List (Obj × Obj)}
    (htext : ∀ e ∈ entries, ∃ s, e.1 = .string s) (hnodup : (entries.map Prod.fst).Nodup)
    (hfresh : ∀ e ∈ entries, ∀ e' ∈ values, e.1 ≠ .string e'.1) :
    putEntries toString valueType values entries = .ok values' ↔
      ∃ new, List.Forall₂ (fun e e' => valueConvert toString e.2 valueType = .ok e'.2 ∧
        e.1 = .string e'.1) entries new ∧ values' = values ++ new := by
  induction entries generalizing values with
  | nil =>
    rw [putEntries, List.foldlM_nil, pure_eq_ok]
    simp [eq_comm]
  | cons e entries ih =>
    obtain ⟨s, hs⟩ := htext e (by simp)
    have hput : ∀ v, put values (keyToString toString e.1) v = values ++ [(s, v)] := by
      intro v
      rw [hs, keyToString, put_fresh v fun e' he' heq => ?_]
      exact hfresh e (by simp) e' he' (by rw [hs, heq])
    rw [List.map_cons, List.nodup_cons] at hnodup
    have hrest : ∀ v, putEntries toString valueType (values ++ [(s, v)]) entries = .ok values' ↔
        ∃ new, List.Forall₂ (fun e e' => valueConvert toString e.2 valueType = .ok e'.2 ∧
          e.1 = .string e'.1) entries new ∧ values' = values ++ [(s, v)] ++ new := by
      intro v
      refine ih (fun e he => htext e (by simp [he])) hnodup.2 fun e' he' e'' he'' => ?_
      rcases List.mem_append.mp he'' with he'' | he''
      · exact hfresh e' (by simp [he']) e'' he''
      · rw [List.mem_singleton.mp he'', ← hs]
        exact fun heq => hnodup.1 (heq ▸ List.mem_map_of_mem he')
    rw [putEntries, List.foldlM_cons, bind_eq_ok]
    constructor
    · rintro ⟨next, hnext, h⟩
      obtain ⟨v, hv, rfl⟩ := map_eq_ok.mp hnext
      rw [hput] at h
      obtain ⟨new, hnew, rfl⟩ := (hrest v).mp h
      exact ⟨(s, v) :: new, .cons ⟨hv, hs⟩ hnew, by simp⟩
    · rintro ⟨new, hnew, rfl⟩
      cases hnew with
      | @cons _ e' _ new hv hnew =>
        obtain ⟨hv, he'⟩ := hv
        obtain ⟨s', v⟩ := e'
        cases hs.symm.trans he'
        refine ⟨_, map_eq_ok.mpr ⟨v, hv, hput v⟩, (hrest v).mpr ⟨new, hnew, ?_⟩⟩
        simp

end Maps

/-! ### Keys -/

lemma ofType_text {keyType : DataType} {k : Obj} (htext : isText keyType = true)
    (h : OfType keyType k) : ∃ s, k = .string s := by
  cases keyType <;> first | exact h | cases htext

lemma same_text {keyType : DataType} {s s' : String} (htext : isText keyType = true) :
    Same keyType (.string s) (.string s') ↔ s = s' := by
  cases keyType <;> simp [Same, isText] at htext ⊢

/-- No other value of the client is a string. -/
lemma isText_of_same {keyType : DataType} {k : Obj} {s : String} (h : OfType keyType k)
    (hsame : Same keyType k (.string s)) : isText keyType = true := by
  cases keyType
  case charType | varcharType | stringType => rfl
  case nullType => cases h
  case objectType | calendarIntervalType | userDefinedType =>
    cases h
    simp [Same] at hsame
  case timestampType =>
    obtain ⟨_, _, rfl⟩ := h
    simp [Same] at hsame
  case arrayType | mapType | structType | decimalType =>
    obtain ⟨_, rfl, _⟩ := h
    simp [Same] at hsame
  all_goals
    obtain ⟨_, rfl⟩ := h
    simp [Same] at hsame

/-! ### Round trips -/

section RoundTrips

variable (toString : Obj → String)

/-- The client gets the value that the server sends it. -/
def Returned (dataType : DataType) (pb : DataTypePB) (v : Obj) : Prop :=
  ∃ m w, valueConvert toString v dataType = .ok m ∧ convertValue m pb = .ok w ∧ Same dataType v w

def FieldsReturned (schema : StructType) (pb : StructTypePB) (xs : List Obj) : Prop :=
  ∃ ms ws, rowConvert toString xs schema = .ok ms ∧ convertFields ms pb = .ok ws ∧
    SameFields schema xs ws

variable {toString}

lemma fieldsReturned_cons {name name' metadata metadata' : String} {nullable nullable' : Bool}
    {dataType : DataType} {fields : StructType} {pb : DataTypePB} {fieldsPb : StructTypePB}
    {x : Obj} {xs : List Obj} :
    FieldsReturned toString (.cons name nullable metadata dataType fields)
        (.cons name' nullable' metadata' pb fieldsPb) (x :: xs) ↔
      Returned toString dataType pb x ∧ FieldsReturned toString fields fieldsPb xs := by
  constructor
  · rintro ⟨ms, ws, hms, hws, hsame⟩
    obtain ⟨m, hm, hms⟩ := bind_eq_ok.mp hms
    obtain ⟨ms', hms', rfl⟩ := map_eq_ok.mp hms
    obtain ⟨w, hw, hws⟩ := bind_eq_ok.mp hws
    obtain ⟨ws', hws', rfl⟩ := map_eq_ok.mp hws
    obtain ⟨_, _, _, _, hx, hy, hxy, hrest⟩ := hsame
    cases hx
    cases hy
    exact ⟨⟨m, w, hm, hw, hxy⟩, ms', ws', hms', hws', hrest⟩
  · rintro ⟨⟨m, w, hm, hw, hxy⟩, ms, ws, hms, hws, hrest⟩
    refine ⟨m :: ms, w :: ws, bind_eq_ok.mpr ⟨m, hm, map_eq_ok.mpr ⟨ms, hms, rfl⟩⟩,
      bind_eq_ok.mpr ⟨w, hw, map_eq_ok.mpr ⟨ws, hws, rfl⟩⟩, ?_⟩
    exact ⟨x, xs, w, ws, rfl, rfl, hxy, hrest⟩

/-- A map is put entry by entry, taken entry by entry. -/
lemma returned_map {keyType valueType : DataType} {keyPb valuePb : DataTypePB}
    {entries : List (Obj × Obj)} :
    Returned toString (.mapType keyType valueType) (.mapType keyPb valuePb) (.map entries) ↔
      ∃ ms ws, putEntries toString valueType [] entries = .ok ms ∧
        List.Forall₂ (fun e w => ∃ v, convertValue e.2 valuePb = .ok v ∧ (.string e.1, v) = w)
          ms ws ∧
        List.Forall₂ (fun e e' => Same keyType e.1 e'.1 ∧ Same valueType e.2 e'.2) entries ws := by
  simp [Returned, valueConvert, setUnlessNull, convertValue, Same, Value.getValuesMap,
    map_eq_ok, mapM_eq_ok, putEntries]

/-- With keys that are no strings only the empty map comes back. -/
lemma returned_map_of_not_text {keyType valueType : DataType} {keyPb valuePb : DataTypePB}
    {entries : List (Obj × Obj)} (hentries : ∀ e ∈ entries, OfType keyType e.1)
    (htext : isText keyType = false) :
    Returned toString (.mapType keyType valueType) (.mapType keyPb valuePb) (.map entries) ↔
      entries = [] := by
  rw [returned_map]
  constructor
  · rintro ⟨ms, ws, hms, hws, hsame⟩
    cases hsame with
    | nil => rfl
    | @cons e w _ _ hew _ =>
      cases hws with
      | cons hw _ =>
        obtain ⟨v, -, rfl⟩ := hw
        rw [isText_of_same (hentries e (by simp)) hew.1] at htext
        cases htext
  · rintro rfl
    exact ⟨[], [], rfl, .nil, .nil⟩

lemma returned_map_of_text {keyType valueType : DataType} {keyPb valuePb : DataTypePB}
    {entries : List (Obj × Obj)} (hnodup : (entries.map Prod.fst).Nodup)
    (hentries : ∀ e ∈ entries, OfType keyType e.1) (htext : isText keyType = true) :
    Returned toString (.mapType keyType valueType) (.mapType keyPb valuePb) (.map entries) ↔
      ∀ e ∈ entries, Returned toString valueType valuePb e.2 := by
  have hstring : ∀ e ∈ entries, ∃ s, e.1 = .string s := fun e he =>
    ofType_text htext (hentries e he)
  have hfresh : ∀ e ∈ entries, ∀ e' ∈ ([] : List (String × Value)), e.1 ≠ .string e'.1 := by simp
  rw [returned_map]
  simp only [putEntries_eq_ok hstring hnodup hfresh,
    List.nil_append, exists_eq_right', forall₂_forall₂_iff]
  refine forall₂_congr fun e he => ?_
  obtain ⟨s, hs⟩ := hstring e he
  rw [hs]
  constructor
  · rintro ⟨b, c, ⟨hb, -⟩, ⟨v, hv, rfl⟩, -, hsame⟩
    exact ⟨b.2, v, hb, hv, hsame⟩
  · rintro ⟨m, w, hm, hw, hsame⟩
    exact ⟨(s, m), (.string s, w), ⟨hm, rfl⟩, ⟨w, hw, rfl⟩, (same_text htext).mpr rfl, hsame⟩

lemma newBigInteger_toBytes (n : Int) : newBigInteger (TwosComplement.toBytes n) = .ok n := by
  rw [newBigInteger, TwosComplement.ofBytes_toBytes]

mutual

lemma returned_iff : (dataType : DataType) → ∀ {pb v}, dataTypeConvert dataType = .ok pb →
    HasType dataType v → (Returned toString dataType pb v ↔ Survives dataType v)
  | .byteType, _, _, hpb, h | .shortType, _, _, hpb, h | .integerType, _, _, hpb, h
  | .longType, _, _, hpb, h | .floatType, _, _, hpb, h | .doubleType, _, _, hpb, h
  | .booleanType, _, _, hpb, h | .charType, _, _, hpb, h | .varcharType, _, _, hpb, h
  | .stringType, _, _, hpb, h | .dateType, _, _, hpb, h | .binaryType, _, _, hpb, h => by
    cases hpb
    rcases h with rfl | ⟨_, rfl⟩ <;>
      simp [Returned, valueConvert, setUnlessNull, convertValue, Same, Survives,
        Value.getIntValue, Value.getLongValue, Value.getFloatValue, Value.getDoubleValue,
        Value.getBooleanValue, Value.getStringValue, Value.getBytesValue]
  | .decimalType precision scale, pb, v, hpb, h => by
    cases hpb
    rcases h with rfl | ⟨n, rfl, -⟩
    -- A big integer has at least one byte, the default of its field has none.
    · simp [Returned, valueConvert, setUnlessNull, convertValue, Same, Survives, newBigInteger,
        Value.getIntVals, TwosComplement.ofBytes]
    · simp [Returned, valueConvert, setUnlessNull, convertValue, Same, Survives,
        Value.getIntVals, newBigInteger_toBytes]
  | .timestampType, pb, v, hpb, h => by
    cases hpb
    rcases h with rfl | ⟨time, micros, rfl⟩ <;>
      simp [Returned, valueConvert, setUnlessNull, convertValue, Same, Survives,
        Value.getLongValue]
  | .arrayType elementType, pb, v, hpb, h => by
    obtain ⟨pb', hpb', rfl⟩ := map_eq_ok.mp hpb
    rcases h with rfl | ⟨xs, rfl, hxs⟩
    · simp [Returned, valueConvert, setUnlessNull, convertValue, Same, Survives,
        Value.getArrayValues, map_eq_ok]
    · have hmap : Returned toString (.arrayType elementType) (.arrayType pb') (.seq xs) ↔
          ∃ ms ws, xs.mapM (fun v => valueConvert toString v elementType) = .ok ms ∧
            ms.mapM (fun v => convertValue v pb') = .ok ws ∧
            List.Forall₂ (Same elementType) xs ws := by
        simp [Returned, valueConvert, setUnlessNull, convertValue, Same, Value.getArrayValues,
          map_eq_ok]
      simp only [hmap, mapM_eq_ok, forall₂_forall₂_iff, Survives, Obj.seq.injEq,
        exists_eq_left']
      exact forall₂_congr fun x hx => returned_iff elementType hpb' (hxs x hx)
  | .mapType keyType valueType, pb, v, hpb, h => by
    obtain ⟨keyPb, hkey, hpb⟩ := bind_eq_ok.mp hpb
    obtain ⟨valuePb, hvalue, rfl⟩ := map_eq_ok.mp hpb
    rcases h with rfl | ⟨entries, rfl, hnodup, hentries⟩
    · simp [Returned, valueConvert, setUnlessNull, convertValue, Same, Survives,
        Value.getValuesMap, map_eq_ok]
    · have hkeys : ∀ e ∈ entries, OfType keyType e.1 := fun e he => (hentries e he).1
      simp only [Survives, Obj.map.injEq, exists_eq_left']
      cases htext : isText keyType with
      | true =>
        rw [returned_map_of_text hnodup hkeys htext]
        simp only [implies_true, true_and]
        exact forall₂_congr fun e he => returned_iff valueType hvalue (hentries e he).2
      | false =>
        rw [returned_map_of_not_text hkeys htext]
        constructor
        · rintro rfl
          simp
        · rintro ⟨h, -⟩
          by_contra hne
          exact Bool.false_ne_true (h hne)
  | .structType schema, pb, v, hpb, h => by
    obtain ⟨pb', hpb', rfl⟩ := map_eq_ok.mp hpb
    rcases h with rfl | ⟨xs, rfl, hxs⟩
    · simp [Returned, valueConvert, setUnlessNull, convertValue, Same, Survives,
        Value.getRowFields, map_eq_ok]
    · have hfields : Returned toString (.structType schema) (.strucType pb') (.row xs) ↔
          FieldsReturned toString schema pb' xs := by
        simp [Returned, FieldsReturned, valueConvert, setUnlessNull, convertValue, Same,
          Value.getRowFields, map_eq_ok]
      rw [hfields, fieldsReturned_iff schema hpb' hxs]
      simp [Survives]
  | .nullType, pb, v, hpb, h => by
    cases hpb
    rcases h with rfl | h
    · simp [Returned, valueConvert, convertValue, Same, Survives]
    · cases h
  | .objectType, _, _, _, _ | .calendarIntervalType, _, _, _, _
  | .userDefinedType, _, _, _, _ => by
    simp [Returned, valueConvert, Survives]

lemma fieldsReturned_iff : (schema : StructType) → ∀ {pb xs}, schemaConvert schema = .ok pb →
    FieldsOfType schema xs → (FieldsReturned toString schema pb xs ↔ FieldsSurvive schema xs)
  | .nil, pb, xs, hpb, h => by
    cases hpb
    cases h
    simp [FieldsReturned, rowConvert, convertFields, SameFields, FieldsSurvive]
  | .cons _ _ _ dataType fields, pb, xs, hpb, h => by
    obtain ⟨pb', hpb', hpb⟩ := bind_eq_ok.mp hpb
    obtain ⟨fieldsPb, hfieldsPb, rfl⟩ := map_eq_ok.mp hpb
    obtain ⟨x, xs, rfl, hx, hxs⟩ := h
    rw [fieldsReturned_cons, returned_iff dataType hpb' hx, fieldsReturned_iff fields hfieldsPb hxs]
    simp [FieldsSurvive]

end

variable (toString) in
/-- The server can send the value, and the client gets the same one. -/
def RoundTrips (dataType : DataType) (v : Obj) : Prop :=
  ∃ pb, dataTypeConvert dataType = .ok pb ∧ Returned toString dataType pb v

/-- A value comes back if and only if its type can be sent and it holds no null, no microseconds
and no keys but strings. -/
theorem roundTrips_iff (dataType : DataType) (v : Obj) (h : HasType dataType v) :
    RoundTrips toString dataType v ↔ Convertible dataType ∧ Survives dataType v := by
  rw [← dataTypeConvert_ok]
  constructor
  · rintro ⟨pb, hpb, hreturned⟩
    exact ⟨⟨pb, hpb⟩, (returned_iff dataType hpb h).mp hreturned⟩
  · rintro ⟨⟨pb, hpb⟩, hsurvives⟩
    exact ⟨pb, hpb, (returned_iff dataType hpb h).mpr hsurvives⟩

end RoundTrips

/-- A map from strings to decimals. -/
theorem roundTrips_map :
    RoundTrips (fun _ => "") (.mapType .stringType (.decimalType 5 2))
      (.map [(.string "a", .bigDecimal (-12345) 2)]) := by
  have htype : HasType (.mapType .stringType (.decimalType 5 2))
      (.map [(.string "a", .bigDecimal (-12345) 2)]) := .inr ⟨_, rfl, by simp, by simp [OfType]⟩
  exact (roundTrips_iff _ _ htype).mpr
    ⟨⟨trivial, trivial⟩, _, rfl, fun _ => rfl, by simp [Survives]⟩

/-- A null in a column of integers is a zero for the client. -/
theorem roundTrips_fails :
    ¬ ∀ (toString : Obj → String) (dataType : DataType) (v : Obj), HasType dataType v →
      RoundTrips toString dataType v := by
  intro h
  obtain ⟨pb, hpb, m, w, hm, hw, hsame⟩ := h (fun _ => "") .integerType .null (.inl rfl)
  cases hpb
  cases hm
  cases hw
  simp [Same] at hsame

end Moonbox.Jdbc
