import Xten.ByteArray.Nodes
import Xten.Std.IntegerCodec

/-!
# Typed reads and writes

The `Write…` and `Read…` methods of `ByteArray` for numbers and strings, on the
host of the build: its byte order is little endian. Signed integers, floats and
doubles are given by their bits.
-/

namespace Xten.ByteArray

open Std.IntegerCodec

/-- `XTEN_BYTE_ORDER`. -/
def byteOrder : Endian := .little

section Fixed

/-- The common body of the fixed-width writes: `htons`, `htonl` and `htobe64` swap
the bytes on this host. -/
def writeFixed (count : Nat) (val : BitVec (8 * count)) : Action Unit := do
  let ba ← get
  write (memory count (if ba.endian ≠ byteOrder then byteSwap count val else val))

/-- The common body of the fixed-width reads. -/
def readFixed (count : Nat) : Action (BitVec (8 * count)) := do
  let tmp := ofMemory (← read count)
  let ba ← get
  return if ba.endian ≠ byteOrder then byteSwap count tmp else tmp

def writeFint8 (val : BitVec 8) : Action Unit := write (memory 1 val)
def writeFUint8 (val : BitVec 8) : Action Unit := write (memory 1 val)
def writeFint16 (val : BitVec 16) : Action Unit := writeFixed 2 val
def writeFUint16 (val : BitVec 16) : Action Unit := writeFixed 2 val
def writeFint32 (val : BitVec 32) : Action Unit := writeFixed 4 val
def writeFUint32 (val : BitVec 32) : Action Unit := writeFixed 4 val
def writeFint64 (val : BitVec 64) : Action Unit := writeFixed 8 val
def writeFUint64 (val : BitVec 64) : Action Unit := writeFixed 8 val

def readFint8 : Action (BitVec 8) := return ofMemory (← read 1)
def readFUint8 : Action (BitVec 8) := return ofMemory (← read 1)
def readFint16 : Action (BitVec 16) := readFixed 2
def readFUint16 : Action (BitVec 16) := readFixed 2
def readFint32 : Action (BitVec 32) := readFixed 4
def readFUint32 : Action (BitVec 32) := readFixed 4
def readFint64 : Action (BitVec 64) := readFixed 8
def readFUint64 : Action (BitVec 64) := readFixed 8

def writeFloat (val : BitVec 32) : Action Unit := writeFUint32 val
def writeDouble (val : BitVec 64) : Action Unit := writeFUint64 val
def readFloat : Action (BitVec 32) := readFUint32
def readDouble : Action (BitVec 64) := readFUint64

end Fixed

section Variable

/-- The common body of the variable-length writes, with a local buffer `tmp` of
`room` bytes. -/
def writeGroups {width : Nat} (room : Nat) (val : BitVec width) : Action Unit :=
  match groups room val with
  | none => throw .overrun
  | some tmp => write tmp

/-- The loop of the variable-length reads. Each round reads a byte, so that there are
no more of them than readable bytes, and one that finds no byte throws. -/
def readGroups {width : Nat} : Nat → Nat → BitVec width → Action (BitVec width)
  | 0, _, _ => throw (.outOfRange "no enough readSize")
  | rounds + 1, i, val => do
      let tmp ← readFUint8
      if width ≤ i then
        throw .shift
      else if tmp.toNat < 0x80 then
        return val ||| (tmp.setWidth width <<< i)
      else
        readGroups rounds (i + 7) (val ||| ((tmp &&& 0x7F).setWidth width <<< i))

def writeVarUint32 (val : BitVec 32) : Action Unit := writeGroups 5 val
def writeVarUint64 (val : BitVec 64) : Action Unit := writeGroups 10 val
def writeVarint32 (val : BitVec 32) : Action Unit := writeVarUint32 (encodeZigzag val)
def writeVarint64 (val : BitVec 64) : Action Unit := writeVarUint64 (encodeZigzag val)

def readVarUint32 : Action (BitVec 32) := do readGroups (← get).getReadSize 0 0
def readVarUint64 : Action (BitVec 64) := do readGroups (← get).getReadSize 0 0
def readVarint32 : Action (BitVec 32) := return decodeZigzag (← readVarUint32)
def readVarint64 : Action (BitVec 64) := return decodeZigzag (← readVarUint64)

end Variable

section Strings

/-- `std::string(buf)`: the bytes of a buffer up to its first zero. -/
def cString (buf : List Byte) : List Byte :=
  buf.takeWhile (· ≠ 0)

def writeStringF32 (str : List Byte) : Action Unit := do
  writeFUint32 (BitVec.ofNat 32 str.length)
  write str

/-- `ReadStringF32`. The size `len + 1` of `buf` is a `uint32_t`; where it wraps to
zero, storing the last character is already outside. The stack is taken to hold any
other `buf`. -/
def readStringF32 : Action (List Byte) := do
  let len ← readFUint32
  if len + 1 = 0 then
    throw .overrun
  else
    return cString (← read len.toNat)

end Strings

section Values

/-- The numeric types with a write and a read of their own. -/
inductive Kind where
  | fint8 | fuint8 | fint16 | fuint16 | fint32 | fuint32 | fint64 | fuint64
  | varint32 | varUint32 | varint64 | varUint64 | float | double
deriving DecidableEq, Repr

/-- The width of a type in bits. -/
def Kind.width : Kind → Nat
  | .fint8 | .fuint8 => 8
  | .fint16 | .fuint16 => 16
  | .fint32 | .fuint32 | .varint32 | .varUint32 | .float => 32
  | .fint64 | .fuint64 | .varint64 | .varUint64 | .double => 64

/-- The write of a type. -/
def Kind.write : (kind : Kind) → BitVec kind.width → Action Unit
  | .fint8 => writeFint8
  | .fuint8 => writeFUint8
  | .fint16 => writeFint16
  | .fuint16 => writeFUint16
  | .fint32 => writeFint32
  | .fuint32 => writeFUint32
  | .fint64 => writeFint64
  | .fuint64 => writeFUint64
  | .varint32 => writeVarint32
  | .varUint32 => writeVarUint32
  | .varint64 => writeVarint64
  | .varUint64 => writeVarUint64
  | .float => writeFloat
  | .double => writeDouble

/-- The read that matches a write. -/
def Kind.read : (kind : Kind) → Action (BitVec kind.width)
  | .fint8 => readFint8
  | .fuint8 => readFUint8
  | .fint16 => readFint16
  | .fuint16 => readFUint16
  | .fint32 => readFint32
  | .fuint32 => readFUint32
  | .fint64 => readFint64
  | .fuint64 => readFUint64
  | .varint32 => readVarint32
  | .varUint32 => readVarUint32
  | .varint64 => readVarint64
  | .varUint64 => readVarUint64
  | .float => readFloat
  | .double => readDouble

/-- A number with its type. -/
abbrev Value := (kind : Kind) × BitVec kind.width

/-- Write values one after the other. -/
def writeValues : List Value → Action Unit
  | [] => return
  | ⟨kind, val⟩ :: values => do
      kind.write val
      writeValues values

/-- Read values of given types one after the other. -/
def readValues : List Kind → Action (List Value)
  | [] => return []
  | kind :: kinds => do
      let val ← kind.read
      return ⟨kind, val⟩ :: (← readValues kinds)

end Values

end Xten.ByteArray
