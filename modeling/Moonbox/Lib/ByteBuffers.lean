import Moonbox.Lib.TwosComplement

/-!
# Buffers of bytes

A buffer has no more bytes than the greatest `int`. What does not fit is not written, and what is
not there is not read. Integers have their most significant byte first.
-/

@[ext] structure ByteBuf where
  bytes : List UInt8
  fits : bytes.length < 2 ^ 31

namespace ByteBuf

open TwosComplement

def ofBytes? (bs : List UInt8) : Option ByteBuf :=
  if h : bs.length < 2 ^ 31 then some ⟨bs, h⟩ else none

def empty : ByteBuf := ⟨[], by decide⟩

/-! ### Writing -/

def write (buf : ByteBuf) (bs : List UInt8) : Option ByteBuf := ofBytes? (buf.bytes ++ bs)

def writeByte (buf : ByteBuf) (b : UInt8) : Option ByteBuf := buf.write [b]

def writeInt (buf : ByteBuf) (n : Int32) : Option ByteBuf := buf.write (lastBytes 4 n.toInt)

def writeLong (buf : ByteBuf) (n : Int64) : Option ByteBuf := buf.write (lastBytes 8 n.toInt)

/-! ### Reading -/

/-- The next bytes, and what is left -/
def read (buf : ByteBuf) (n : Nat) : Option (List UInt8 × ByteBuf) :=
  if n ≤ buf.bytes.length then
    some (buf.bytes.take n, ⟨buf.bytes.drop n, by have := buf.fits; simp; omega⟩)
  else none

def readByte (buf : ByteBuf) : Option (UInt8 × ByteBuf) := do
  let (bs, buf) ← buf.read 1
  some (← bs.head?, buf)

def readInt (buf : ByteBuf) : Option (Int32 × ByteBuf) := do
  let (bs, buf) ← buf.read 4
  some (Int32.ofInt (← ofBytes bs), buf)

def readLong (buf : ByteBuf) : Option (Int64 × ByteBuf) := do
  let (bs, buf) ← buf.read 8
  some (Int64.ofInt (← ofBytes bs), buf)

/-! ### What is written is read -/

variable {buf buf' rest : ByteBuf} {bs : List UInt8}

@[simp] lemma ofBytes?_eq_some : ofBytes? bs = some buf ↔ buf.bytes = bs := by
  unfold ofBytes?
  split
  · rw [Option.some.injEq, ByteBuf.ext_iff, eq_comm]
  · refine iff_of_false (by simp) ?_
    rintro rfl
    exact absurd buf.fits ‹_›

@[simp] lemma write_eq_some : buf.write bs = some buf' ↔ buf'.bytes = buf.bytes ++ bs :=
  ofBytes?_eq_some

@[simp] lemma ofBytes?_eq_none : ofBytes? bs = none ↔ 2 ^ 31 ≤ bs.length := by
  simp [ofBytes?]

lemma write_eq_none : buf.write bs = none ↔ 2 ^ 31 ≤ buf.bytes.length + bs.length := by
  rw [write, ofBytes?_eq_none, List.length_append]

lemma write_append (buf : ByteBuf) (as bs : List UInt8) :
    ((buf.write as).bind fun buf => buf.write bs) = buf.write (as ++ bs) := by
  cases h : buf.write as with
  | none =>
    rw [write_eq_none] at h
    rw [Option.bind_none, eq_comm, write_eq_none, List.length_append]
    omega
  | some written =>
    rw [write_eq_some] at h
    rw [Option.bind_some, write, write, h, List.append_assoc]

lemma length_lastBytes (k : Nat) (n : Int) : (lastBytes k n).length = k := by
  induction k generalizing n with
  | zero => rfl
  | succ k ih => simp [lastBytes, ih]

lemma read_append (h : buf.bytes = bs ++ rest.bytes) : buf.read bs.length = some (bs, rest) := by
  have hle : bs.length ≤ buf.bytes.length := by simp [h]
  rw [read, if_pos hle, Option.some.injEq, Prod.mk.injEq, ByteBuf.ext_iff]
  simp [h]

lemma readByte_append {b : UInt8} (h : buf.bytes = [b] ++ rest.bytes) :
    buf.readByte = some (b, rest) := by
  have hread : buf.read 1 = some ([b], rest) := read_append h
  rw [readByte, hread]
  rfl

lemma readInt_append {n : Int32} (h : buf.bytes = lastBytes 4 n.toInt ++ rest.bytes) :
    buf.readInt = some (n, rest) := by
  have hread := read_append h
  rw [length_lastBytes] at hread
  have hbytes : ofBytes (lastBytes 4 n.toInt) = some n.toInt :=
    ofBytes_lastBytes 3 n.le_toInt n.toInt_lt
  rw [readInt, hread]
  simp [hbytes]

lemma readLong_append {n : Int64} (h : buf.bytes = lastBytes 8 n.toInt ++ rest.bytes) :
    buf.readLong = some (n, rest) := by
  have hread := read_append h
  rw [length_lastBytes] at hread
  have hbytes : ofBytes (lastBytes 8 n.toInt) = some n.toInt :=
    ofBytes_lastBytes 7 n.le_toInt n.toInt_lt
  rw [readLong, hread]
  simp [hbytes]

end ByteBuf
