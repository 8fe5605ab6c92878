import Xten.ByteArray.Typed
import Xten.Std.Programs

/-!
# The public methods

The remaining methods of `ByteArray`: the positional read, the strings, the texts and
the files. The states that an array can reach are those after any calls, as long as
none of them was undefined.
-/

namespace Xten.ByteArray

open Std.IntegerCodec
open Std.Programs (stopped)

section Strings

def writeStringF16 (str : List Byte) : Action Unit := do
  writeFUint16 (BitVec.ofNat 16 str.length)
  write str

/-- `WriteStringF64`, which writes a length of 32 bits. -/
def writeStringF64 (str : List Byte) : Action Unit := do
  writeFUint32 (BitVec.ofNat 32 str.length)
  write str

def writeStringVar64 (str : List Byte) : Action Unit := do
  writeVarUint64 (BitVec.ofNat 64 str.length)
  write str

/-- `ReadStringF16`. The size `len + 1` of `buf` is an `int` and does not wrap. -/
def readStringF16 : Action (List Byte) := do
  let len ← readFUint16
  return cString (← read len.toNat)

/-- The common body of the reads of strings with a length of 64 bits. -/
def readString64 (readLen : Action (BitVec 64)) : Action (List Byte) := do
  let len ← readLen
  if len + 1 = 0 then
    throw .overrun
  else
    return cString (← read len.toNat)

def readStringF64 : Action (List Byte) := readString64 readFUint64

def readStringVar64 : Action (List Byte) := readString64 readVarUint64

end Strings

section Positions

/-- `_size - position` for a `size_t`. -/
def sizeFrom (ba : ByteArray) (position : Nat) : Nat :=
  (ba.size + 2 ^ 64 - position) % 2 ^ 64

/-- The steps of the walk from `_root` to a position. They are counted in an `int64_t`, which
is negative from `2 ^ 63` on, and then no step is taken. -/
def linkCount (ba : ByteArray) (position : Nat) : Nat :=
  if position / ba.nodeSize < 2 ^ 63 then position / ba.nodeSize else 0

/-- `Read(buf, size, position)`. The walk from `_root` ends at the node that its count of
steps leads to, or uses a null node on the way. -/
def readAt (size position : Nat) : Action (List Byte) := fun ba =>
  if ba.sizeFrom position < size then
    .error (.outOfRange "no enough readSize") ba
  else
    match readLoop (ba.chain (ba.nodeAt (ba.linkCount position))) (position % ba.nodeSize) size with
    | none => .error .nullNode ba
    | some (bytes, _) => .ok bytes ba

/-- `ToString`. -/
def toString : Action (List Byte) := do
  let ba ← get
  if ba.getReadSize = 0 then
    return []
  else
    readAt ba.getReadSize ba.position

end Positions

section Files

/-- `getMd5`, which is not finished. -/
def getMd5 : String := "MD5"

/-- `WriteToFile`: what is in the file and in that with the digest; none where the file
does not open. -/
def writeToFile (opens withMd5 : Bool) : Action (Option (List Byte × Option String)) := fun ba =>
  if opens then
    match readLoop (ba.chain ba.cur) (ba.position % ba.nodeSize) ba.getReadSize with
    | none => .error .nullNode ba
    | some (bytes, _) => .ok (some (bytes, if withMd5 then some getMd5 else none)) ba
  else
    .ok none ba

/-- `ReadFromFile`, with the pieces that the calls of `ifs.read` yield; none where the
file does not open. -/
def readFromFile (pieces : Option (List (List Byte))) : Action Bool :=
  match pieces with
  | none => return false
  | some pieces => do
      pieces.forM write
      return true

end Files

/-- The calls that change an array. -/
inductive Call where
  | write (buf : List Byte)
  | writeValue (value : Value)
  | writeStringF16 (str : List Byte)
  | writeStringF32 (str : List Byte)
  | writeStringF64 (str : List Byte)
  | writeStringVar64 (str : List Byte)
  | read (size : Nat)
  | readValue (kind : Kind)
  | readStringF16
  | readStringF32
  | readStringF64
  | readStringVar64
  | setLittleEndian (val : Bool)
  | setPosition (pos : Nat)
  | clear
  | getWriteBuffers (len : Nat)
  | readFromFile (pieces : Option (List (List Byte)))

/-- A call, without the value that it returns. -/
def Call.perform : Call → Action Unit
  | .write buf => ByteArray.write buf
  | .writeValue value => value.1.write value.2
  | .writeStringF16 str => ByteArray.writeStringF16 str
  | .writeStringF32 str => ByteArray.writeStringF32 str
  | .writeStringF64 str => ByteArray.writeStringF64 str
  | .writeStringVar64 str => ByteArray.writeStringVar64 str
  | .read size => do let _ ← ByteArray.read size
  | .readValue kind => do let _ ← kind.read
  | .readStringF16 => do let _ ← ByteArray.readStringF16
  | .readStringF32 => do let _ ← ByteArray.readStringF32
  | .readStringF64 => do let _ ← ByteArray.readStringF64
  | .readStringVar64 => do let _ ← ByteArray.readStringVar64
  | .setLittleEndian val => ByteArray.setLittleEndian val
  | .setPosition pos => ByteArray.setPosition pos
  | .clear => ByteArray.clear
  | .getWriteBuffers len => do let _ ← ByteArray.getWriteBuffers len
  | .readFromFile pieces => do let _ ← ByteArray.readFromFile pieces

/-- The states that an array reaches: each call returns or throws, and the regions that
are handed out may be filled with anything. -/
inductive Reachable (nodeSize : Nat) (fresh : Nat → Byte) : ByteArray → Prop where
  | made : Reachable nodeSize fresh (make nodeSize fresh)
  | returned {before after : ByteArray} (reached : Reachable nodeSize fresh before) (call : Call)
      (done : call.perform before = .ok () after) : Reachable nodeSize fresh after
  | thrown {before after : ByteArray} {what : String} (reached : Reachable nodeSize fresh before)
      (call : Call) (stopped : call.perform before = .error (.outOfRange what) after) :
      Reachable nodeSize fresh after
  | filled {before : ByteArray} (reached : Reachable nodeSize fresh before)
      (nodes : List (List Byte)) (sizes : nodes.map List.length = before.nodes.map List.length) :
      Reachable nodeSize fresh { before with nodes := nodes }

/-- The public read operations. -/
inductive ReadCall where
  | read (size : Nat)
  | readAt (size position : BitVec 64)
  | readStringF16
  | readStringF32
  | readStringF64
  | readStringVar64
  | toString
  | writeToFile (opens withMd5 : Bool)

/-- How a read operation stops short on an array, if it does. -/
def ReadCall.fault : ReadCall → ByteArray → Option Fault
  | .read size => stopped (ByteArray.read size)
  | .readAt size position => stopped (ByteArray.readAt size.toNat position.toNat)
  | .readStringF16 => stopped ByteArray.readStringF16
  | .readStringF32 => stopped ByteArray.readStringF32
  | .readStringF64 => stopped ByteArray.readStringF64
  | .readStringVar64 => stopped ByteArray.readStringVar64
  | .toString => stopped ByteArray.toString
  | .writeToFile opens withMd5 => stopped (ByteArray.writeToFile opens withMd5)

end Xten.ByteArray
