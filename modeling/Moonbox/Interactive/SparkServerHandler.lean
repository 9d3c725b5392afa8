import Moonbox.Lib.TwosComplement

/-!
# `SparkServerHandler`

How the server puts the types and the values of a result into messages. A scalar field of a message
that is not set reads as its default, and the keys of a map are strings.
-/

namespace Moonbox.Interactive

/-! ### Types and values of Spark -/

mutual

inductive DataType
  | byteType
  | shortType
  | integerType
  | longType
  | floatType
  | doubleType
  | decimalType (precision scale : Nat)
  | booleanType
  | charType
  | varcharType
  | stringType
  | dateType
  | timestampType
  | binaryType
  | arrayType (elementType : DataType)
  | mapType (keyType valueType : DataType)
  | structType (schema : StructType)
  | objectType
  | nullType
  | calendarIntervalType
  | userDefinedType

/-- The fields of a structure, in their order. -/
inductive StructType
  | nil
  | cons (name : String) (nullable : Bool) (metadata : String) (dataType : DataType)
    (fields : StructType)

end

/-- An object of the JVM, in a row of Spark or of the client. Floating point numbers are their
bits; a timestamp has the time in milliseconds and the microseconds beyond. -/
inductive Obj
  | null
  | byte (n : Int8)
  | short (n : Int16)
  | int (n : Int32)
  | long (n : Int64)
  | float (bits : UInt32)
  | double (bits : UInt64)
  | bigDecimal (unscaled scale : Int)
  | boolean (b : Bool)
  | char (c : UInt16)
  | string (s : String)
  | date (time : Int64)
  | timestamp (time : Int64) (micros : Fin 1000)
  | bytes (bs : List UInt8)
  | seq (xs : List Obj)
  | map (entries : List (Obj × Obj))
  | row (xs : List Obj)
  | objects (xs : List Obj)
  | other

/-! ### Messages -/

mutual

inductive DataTypePB
  | byteType
  | shortType
  | integerType
  | longType
  | floatType
  | doubleType
  | decimalType (precision scale : Nat)
  | booleanType
  | charType
  | varcharType
  | stringType
  | dateType
  | timestampType
  | binaryType
  | arrayType (elementType : DataTypePB)
  | mapType (keyType valueType : DataTypePB)
  | strucType (schema : StructTypePB)
  | objectType
  | nullType

inductive StructTypePB
  | nil
  | cons (name : String) (nullable : Bool) (metaData : String) (dataType : DataTypePB)
    (fields : StructTypePB)

end

/-- The message `Value`: at most one of its fields is set. -/
inductive Value
  | notSet
  | booleanValue (b : Bool)
  | intValue (n : Int32)
  | floatValue (bits : UInt32)
  | longValue (n : Int64)
  | doubleValue (bits : UInt64)
  | stringValue (s : String)
  | bytesValue (bs : List UInt8)
  | bigDecimalValue (intVals : List UInt8)
  | structValue (fields : List Value)
  | arrayValue (values : List Value)
  | mapValue (values : List (String × Value))
  | nullValue

/-! ### Schemas -/

mutual

def dataTypeConvert : DataType → Except String DataTypePB
  | .byteType => .ok .byteType
  | .shortType => .ok .shortType
  | .integerType => .ok .integerType
  | .longType => .ok .longType
  | .floatType => .ok .floatType
  | .doubleType => .ok .doubleType
  | .decimalType precision scale => .ok (.decimalType precision scale)
  | .booleanType => .ok .booleanType
  | .charType => .ok .charType
  | .varcharType => .ok .varcharType
  | .stringType => .ok .stringType
  | .dateType => .ok .dateType
  | .timestampType => .ok .timestampType
  | .binaryType => .ok .binaryType
  | .arrayType elementType => do
    let elementType ← dataTypeConvert elementType
    pure (.arrayType elementType)
  | .mapType keyType valueType => do
    let keyType ← dataTypeConvert keyType
    let valueType ← dataTypeConvert valueType
    pure (.mapType keyType valueType)
  | .structType schema => do
    let schema ← schemaConvert schema
    pure (.strucType schema)
  | .objectType => .ok .objectType
  | .nullType => .ok .nullType
  | .calendarIntervalType => .error "unsupport datatype CalendarIntervalType"
  | .userDefinedType => .error "unsupport datatype UserDefinedType"

def schemaConvert : StructType → Except String StructTypePB
  | .nil => .ok .nil
  | .cons name nullable metadata dataType fields => do
    let dataType ← dataTypeConvert dataType
    let fields ← schemaConvert fields
    pure (.cons name nullable metadata dataType fields)

end

/-! ### Values -/

def classCastException : String := "java.lang.ClassCastException"

/-- A field that is set unless the value is null. -/
def setUnlessNull (value : Obj) (set : Obj → Except String Value) : Except String Value :=
  match value with
  | .null => .ok .notSet
  | value => set value

/-- `Map.map` and `putAllValues`: a later entry of a key replaces an earlier one. -/
def put (values : List (String × Value)) (key : String) (value : Value) :
    List (String × Value) :=
  if values.any fun e => e.1 == key then
    values.map fun e => if e.1 == key then (key, value) else e
  else values ++ [(key, value)]

/-- `toString` of an object that is no string is a parameter. -/
def keyToString (toString : Obj → String) : Obj → String
  | .string s => s
  | k => toString k

section Values

variable (toString : Obj → String)

mutual

def valueConvert : Obj → DataType → Except String Value
  | value, .byteType => setUnlessNull value fun
    | .byte n => .ok (.intValue n.toInt32)
    | _ => .error classCastException
  | value, .shortType => setUnlessNull value fun
    | .short n => .ok (.intValue n.toInt32)
    | _ => .error classCastException
  | value, .integerType => setUnlessNull value fun
    | .int n => .ok (.intValue n)
    | _ => .error classCastException
  | value, .longType => setUnlessNull value fun
    | .long n => .ok (.longValue n)
    | _ => .error classCastException
  | value, .floatType => setUnlessNull value fun
    | .float bits => .ok (.floatValue bits)
    | _ => .error classCastException
  | value, .doubleType => setUnlessNull value fun
    | .double bits => .ok (.doubleValue bits)
    | _ => .error classCastException
  | value, .decimalType _ _ => setUnlessNull value fun
    | .bigDecimal unscaled _ => .ok (.bigDecimalValue (TwosComplement.toBytes unscaled))
    | _ => .error classCastException
  | value, .booleanType => setUnlessNull value fun
    | .boolean b => .ok (.booleanValue b)
    | _ => .error classCastException
  | value, .charType => setUnlessNull value fun
    | .char c => .ok (.intValue c.toUInt32.toInt32)
    | _ => .error classCastException
  | value, .varcharType => setUnlessNull value fun
    | .string s => .ok (.stringValue s)
    | _ => .error classCastException
  | value, .stringType => setUnlessNull value fun
    | .string s => .ok (.stringValue s)
    | _ => .error classCastException
  | value, .dateType => setUnlessNull value fun
    | .date time => .ok (.longValue time)
    | _ => .error classCastException
  | value, .timestampType => setUnlessNull value fun
    | .timestamp time _ => .ok (.longValue time)
    | _ => .error classCastException
  | value, .binaryType => setUnlessNull value fun
    | .bytes bs => .ok (.bytesValue bs)
    | _ => .error classCastException
  | value, .arrayType elementType => setUnlessNull value fun
    | .seq xs => do
      let arrayValues ← xs.mapM fun v => valueConvert v elementType
      pure (.arrayValue arrayValues)
    | _ => .error classCastException
  | value, .mapType _ valueType => setUnlessNull value fun
    | .map entries => do
      let mapValues ← entries.foldlM (fun values e => do
        let v ← valueConvert e.2 valueType
        pure (put values (keyToString toString e.1) v)) []
      pure (.mapValue mapValues)
    | _ => .error classCastException
  | value, .structType schema => setUnlessNull value fun
    | .row xs => do
      let fields ← rowConvert xs schema
      pure (.structValue fields)
    | _ => .error classCastException
  | _, .nullType => .ok .nullValue
  | _, .objectType => .error "unsupport datatype ObjectType"
  | _, .calendarIntervalType => .error "unsupport datatype CalendarIntervalType"
  | _, .userDefinedType => .error "unsupport datatype UserDefinedType"

/-- The fields of the schema are taken by the places of the values. -/
def rowConvert : List Obj → StructType → Except String (List Value)
  | [], _ => .ok []
  | x :: xs, .cons _ _ _ dataType fields => do
    let value ← valueConvert x dataType
    let values ← rowConvert xs fields
    pure (value :: values)
  | _ :: _, .nil => .error "java.lang.ArrayIndexOutOfBoundsException"

end

end Values

end Moonbox.Interactive
