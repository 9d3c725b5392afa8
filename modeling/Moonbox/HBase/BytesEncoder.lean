import Moonbox.Lib.ByteOrder
import Moonbox.Lib.Decimals

/-!
# Encoders of bytes

The bytes of a value in an HBase table, and what `NaiveEncoder` makes of the literal of a
comparison: the bytes that go to the region servers with the type in front, and the ranges of row
keys. Java's arithmetic types are compared with their sign, arrays of bytes without.
-/

namespace Moonbox.HBase

open ByteOrder TwosComplement

/-- The types of columns, without those of floating-point numbers and of Avro -/
inductive DataType
  | boolean
  | byte
  | short
  | integer
  | long
  | string
  | binary
  deriving DecidableEq

/-- A string is its bytes in UTF-8. -/
inductive Value
  | boolean (b : Bool)
  | byte (n : Int8)
  | short (n : Int16)
  | integer (n : Int32)
  | long (n : Int64)
  | string (bytes : Bytes)
  | binary (bytes : Bytes)
  deriving DecidableEq

namespace Value

def dt : Value → DataType
  | boolean _ => .boolean
  | byte _ => .byte
  | short _ => .short
  | integer _ => .integer
  | long _ => .long
  | string _ => .string
  | binary _ => .binary

/-- The order of Spark SQL. Values of two types are not compared. -/
def compare : Value → Value → Option Ordering
  | boolean a, boolean b => some (cmp a b)
  | byte m, byte n => some (cmp m.toInt n.toInt)
  | short m, short n => some (cmp m.toInt n.toInt)
  | integer m, integer n => some (cmp m.toInt n.toInt)
  | long m, long n => some (cmp m.toInt n.toInt)
  | string as, string bs => some (cmp as bs)
  | binary as, binary bs => some (cmp as bs)
  | _, _ => none

def ascii (text : List Char) : Bytes := text.map fun c => UInt8.ofNat c.toNat

def decimal (n : Int) : Bytes := ascii (Decimals.text n)

/-- The text of an array has its hash code, and not what is in it. -/
def toString (hashCode : Bytes → Bytes) : Value → Bytes
  | boolean true => ascii ['t', 'r', 'u', 'e']
  | boolean false => ascii ['f', 'a', 'l', 's', 'e']
  | byte n => decimal n.toInt
  | short n => decimal n.toInt
  | integer n => decimal n.toInt
  | long n => decimal n.toInt
  | string bytes => bytes
  | binary bytes => ascii ['[', 'B', '@'] ++ hashCode bytes

end Value

/-! ### Cells -/

namespace Utils

def toBytes : Value → Bytes
  | .boolean b => [if b then 255 else 0]
  | .byte n => [n.toUInt8]
  | .short n => lastBytes 2 n.toInt
  | .integer n => lastBytes 4 n.toInt
  | .long n => lastBytes 8 n.toInt
  | .string bytes => bytes
  | .binary bytes => bytes

end Utils

/-- The integer of the first `size` bytes -/
def readInteger (size : Nat) (bytes : Bytes) : Except String Int :=
  match ofBytes (bytes.take size) with
  | some n =>
    if size ≤ bytes.length then .ok n else .error "java.lang.IllegalArgumentException"
  | none => .error "java.lang.IllegalArgumentException"

/-! ### Ranges -/

/-- Whether a bound is in the range is for the caller to say. The absent upper bound is `⊤`. -/
structure BoundRange where
  low : Bytes
  upper : WithTop Bytes

structure BoundRanges where
  less : List BoundRange
  greater : List BoundRange
  value : Bytes

/-- The comparisons that `filter` can make. -/
inductive JavaBytesEncoder
  | greater
  | greaterEqual
  | less
  | lessEqual
  deriving DecidableEq

def JavaBytesEncoder.compare (ops : JavaBytesEncoder) (c : Ordering) : Bool :=
  match ops with
  | greater => c.isGT
  | greaterEqual => c.isGE
  | less => c.isLT
  | lessEqual => c.isLE

structure BytesEncoder where
  encode : DataType → Value → Except String Bytes
  filter : Bytes → Bytes → JavaBytesEncoder → Except String Bool
  ranges : Value → Option BoundRanges

namespace NaiveEncoder

def booleanEnc : UInt8 := 0
def shortEnc : UInt8 := 1
def intEnc : UInt8 := 2
def longEnc : UInt8 := 3
def stringEnc : UInt8 := 6
def timestampEnc : UInt8 := 8
def unknownEnc : UInt8 := 9

/-- An array of bytes is cast to an array of `Bytes`, the class. -/
def encode (hashCode : Bytes → Bytes) (dt : DataType) (value : Value) : Except String Bytes :=
  match dt, value with
  | .boolean, .boolean b => .ok [booleanEnc, if b then 255 else 0]
  | .short, .short n => .ok (shortEnc :: lastBytes 2 n.toInt)
  | .integer, .integer n => .ok (intEnc :: lastBytes 4 n.toInt)
  | .long, .long n => .ok (longEnc :: lastBytes 8 n.toInt)
  | .string, .string bytes => .ok (stringEnc :: bytes)
  | .byte, value => .ok (unknownEnc :: value.toString hashCode)
  | _, _ => .error "java.lang.ClassCastException"

/-- Of the bytes of a `long` the first four are compared. -/
def filter (input filterBytes : Bytes) (ops : JavaBytesEncoder) : Except String Bool :=
  match filterBytes with
  | [] => .error "java.lang.ArrayIndexOutOfBoundsException"
  | code :: value =>
    if code = shortEnc then do
      pure (ops.compare (cmp (← readInteger 2 input) (← readInteger 2 value)))
    else if code = intEnc then do
      pure (ops.compare (cmp (← readInteger 4 input) (← readInteger 4 value)))
    else if code = longEnc ∨ code = timestampEnc then do
      pure (ops.compare (cmp (← readInteger 4 input) (← readInteger 4 value)))
    else
      .ok (ops.compare (cmp input value))

/-- The ranges of integers of `size` bytes, where those of the negative ones come last. -/
def integerRanges (size : Nat) (n : Int) : BoundRanges :=
  let bytes := lastBytes size
  let minValue := bytes (-2 ^ (8 * size - 1))
  let maxValue := bytes (2 ^ (8 * size - 1) - 1)
  if 0 ≤ n then
    { less := [⟨bytes 0, bytes n⟩, ⟨minValue, bytes (-1)⟩]
      greater := [⟨bytes n, maxValue⟩]
      value := bytes n }
  else
    { less := [⟨minValue, bytes n⟩]
      greater := [⟨bytes n, bytes (-1)⟩, ⟨bytes 0, maxValue⟩]
      value := bytes n }

def bytesRanges (bytes : Bytes) : BoundRanges :=
  { less := [⟨[], bytes⟩], greater := [⟨bytes, ⊤⟩], value := bytes }

def ranges : Value → Option BoundRanges
  | .integer n => some (integerRanges 4 n.toInt)
  | .long n => some (integerRanges 8 n.toInt)
  | .short n => some (integerRanges 2 n.toInt)
  | .binary bytes => some (bytesRanges bytes)
  | .byte n => some (bytesRanges [n.toUInt8])
  | .string bytes => some (bytesRanges bytes)
  | .boolean _ => none

end NaiveEncoder

def naiveEncoder (hashCode : Bytes → Bytes) : BytesEncoder where
  encode := NaiveEncoder.encode hashCode
  filter := NaiveEncoder.filter
  ranges := NaiveEncoder.ranges

end Moonbox.HBase
