import Moonbox.Interactive.SparkServerHandler

/-!
# `MoonboxResult`

How the client takes the values of a result out of messages.
-/

namespace Moonbox.Jdbc

open Moonbox.Interactive

/-! ### Fields of a message

A field that is not set reads as its default. -/

def Value.getIntValue : Value → Int32
  | .intValue n => n
  | _ => 0

def Value.getLongValue : Value → Int64
  | .longValue n => n
  | _ => 0

def Value.getFloatValue : Value → UInt32
  | .floatValue bits => bits
  | _ => 0

def Value.getDoubleValue : Value → UInt64
  | .doubleValue bits => bits
  | _ => 0

def Value.getBooleanValue : Value → Bool
  | .booleanValue b => b
  | _ => false

def Value.getStringValue : Value → String
  | .stringValue s => s
  | _ => ""

def Value.getBytesValue : Value → List UInt8
  | .bytesValue bs => bs
  | _ => []

/-- The bytes of the big integer in the big decimal. -/
def Value.getIntVals : Value → List UInt8
  | .bigDecimalValue intVals => intVals
  | _ => []

def Value.getArrayValues : Value → List Value
  | .arrayValue values => values
  | _ => []

def Value.getValuesMap : Value → List (String × Value)
  | .mapValue values => values
  | _ => []

/-- The fields of the row in the struct. -/
def Value.getRowFields : Value → List Value
  | .structValue fields => fields
  | _ => []

/-! ### Conversion -/

def newBigInteger (bs : List UInt8) : Except String Int :=
  match TwosComplement.ofBytes bs with
  | some n => .ok n
  | none => .error "java.lang.NumberFormatException: Zero length BigInteger"

mutual

def convertValue : Value → DataTypePB → Except String Obj
  | value, .byteType => .ok (.byte (Value.getIntValue value).toInt8)
  | value, .shortType => .ok (.short (Value.getIntValue value).toInt16)
  | value, .integerType => .ok (.int (Value.getIntValue value))
  | value, .longType => .ok (.long (Value.getLongValue value))
  | value, .floatType => .ok (.float (Value.getFloatValue value))
  | value, .doubleType => .ok (.double (Value.getDoubleValue value))
  | value, .decimalType _ scale => do
    let unscaled ← newBigInteger (Value.getIntVals value)
    pure (.bigDecimal unscaled scale)
  | value, .booleanType => .ok (.boolean (Value.getBooleanValue value))
  | value, .charType => .ok (.char (Value.getIntValue value).toUInt32.toUInt16)
  | value, .varcharType => .ok (.string (Value.getStringValue value))
  | value, .stringType => .ok (.string (Value.getStringValue value))
  | value, .dateType => .ok (.date (Value.getLongValue value))
  | value, .timestampType => .ok (.timestamp (Value.getLongValue value) 0)
  | value, .binaryType => .ok (.bytes (Value.getBytesValue value))
  | value, .arrayType elementType => do
    let objects ← (Value.getArrayValues value).mapM fun v => convertValue v elementType
    pure (.objects objects)
  | value, .mapType _ valueType => do
    let objects ← (Value.getValuesMap value).mapM fun e => do
      let v ← convertValue e.2 valueType
      pure (Obj.string e.1, v)
    pure (.map objects)
  | value, .strucType schema => do
    let objects ← convertFields (Value.getRowFields value) schema
    pure (.objects objects)
  | value, .objectType => .ok (.bytes (Value.getBytesValue value))
  | _, .nullType => .ok .null

/-- The fields of a struct are taken by the places of its type. -/
def convertFields : List Value → StructTypePB → Except String (List Obj)
  | _, .nil => .ok []
  | value :: values, .cons _ _ _ dataType fields => do
    let x ← convertValue value dataType
    let xs ← convertFields values fields
    pure (x :: xs)
  | [], .cons .. => .error "java.lang.IndexOutOfBoundsException"

end

end Moonbox.Jdbc
