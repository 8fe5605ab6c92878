import Mathlib.Data.BitVec
import Xten.Std.Chunks

/-!
# The byte array

`ByteArray` of `bytearray.cpp`: a chain of nodes of one size, with a cursor kept
twice, as the number `_position` and as the node pointer `_cur`. Every operation
walks the chain from `_cur` with its own copy of the arithmetic.

A pointer to a node is its index in the chain, none when it is null. Sizes and
positions are natural numbers: no operation here makes them wrap.
-/

namespace Xten

open Std.Chunks

abbrev Byte := BitVec 8

instance : LawfulBEq Byte := inferInstance

/-- `XTEN_LITTLE_ENDIAN` and `XTEN_BIG_ENDIAN`. -/
inductive Endian where
  | little
  | big
deriving DecidableEq, Repr

/-- How a call stops short: an exception that a caller can catch, or a step that is
undefined in C++. -/
inductive Fault where
  /-- `std::out_of_range`, with its text. -/
  | outOfRange (what : String)
  /-- A member of a null node is used. -/
  | nullNode
  /-- A write past the end of a local buffer. -/
  | overrun
  /-- A shift by the width of the shifted type, or by more. -/
  | shift
deriving DecidableEq, Repr

/-- `ByteArray`. Index zero of `nodes` is `_root`. `fresh` is what the memory that
`new char[]` returns happens to hold, byte after byte. -/
structure ByteArray where
  nodeSize : Nat
  nodes : List (List Byte)
  cur : Option Nat
  position : Nat
  size : Nat
  capacity : Nat
  endian : Endian
  fresh : Nat → Byte

namespace ByteArray

/-- A method: it returns or stops short, and leaves the array changed either way. -/
abbrev Action := EStateM Fault ByteArray

/-- The bytes of one new node. -/
def newNode (nodeSize : Nat) (fresh : Nat → Byte) : List Byte :=
  (List.range nodeSize).map fresh

/-- The constructor. -/
def make (nodeSize : Nat) (fresh : Nat → Byte) : ByteArray where
  nodeSize := nodeSize
  nodes := [newNode nodeSize fresh]
  cur := some 0
  position := 0
  size := 0
  capacity := nodeSize
  endian := .big
  fresh := fun index => fresh (nodeSize + index)

def setLittleEndian (val : Bool) : Action Unit :=
  modify fun ba => { ba with endian := if val then .little else .big }

def getReadSize (ba : ByteArray) : Nat :=
  ba.size - ba.position

def getFreeCapacity (ba : ByteArray) : Nat :=
  ba.capacity - ba.position

/-- The node with an index, null past the end of the chain. -/
def nodeAt (ba : ByteArray) (index : Nat) : Option Nat :=
  if index < ba.nodes.length then some index else none

/-- The chain from a node on; empty from the null pointer. -/
def chain (ba : ByteArray) : Option Nat → List (List Byte)
  | none => []
  | some index => ba.nodes.drop index

/-- A node pointer moved along `next` a number of times. -/
def next (ba : ByteArray) (node : Option Nat) (steps : Nat) : Option Nat :=
  node.bind fun index => ba.nodeAt (index + steps)

/-- The loop of `addFreeCapacity` that links new nodes to the last one. -/
def appendNodes : Nat → ByteArray → ByteArray
  | 0, ba => ba
  | count + 1, ba =>
      appendNodes count { ba with
        nodes := ba.nodes ++ [newNode ba.nodeSize ba.fresh]
        capacity := ba.capacity + ba.nodeSize
        fresh := fun index => ba.fresh (ba.nodeSize + index) }

/-- `addFreeCapacity`. The number of nodes is the quotient rounded up; the code
computes it in `double`, which is exact for sizes below `2 ^ 53`. -/
def addFreeCapacity (ba : ByteArray) (size : Nat) : ByteArray :=
  let oldCap := ba.getFreeCapacity
  if size ≤ oldCap then
    ba
  else
    let count := (size - oldCap + ba.nodeSize - 1) / ba.nodeSize
    let first := if count = 0 then none else some ba.nodes.length
    let grown := appendNodes count ba
    if oldCap = 0 then { grown with cur := first } else grown

/-- The loop of `Write` over the chain from `_cur`: the nodes it leaves and how many
times it moves `_cur` on. -/
def writeLoop : List (List Byte) → Nat → List Byte → Option (List (List Byte) × Nat)
  | [], _, _ => none
  | node :: rest, npos, buf =>
      let ncap := node.length - npos
      if buf.length ≤ ncap then
        some (overwrite node npos buf :: rest, if ncap = buf.length then 1 else 0)
      else
        (writeLoop rest 0 (buf.drop ncap)).map fun (rest, steps) =>
          (overwrite node npos (buf.take ncap) :: rest, steps + 1)

/-- `Write(buf, size)`, with the `size` bytes at `buf`. -/
def write (buf : List Byte) : Action Unit := fun ba =>
  if buf.length = 0 then
    .ok () ba
  else
    let ba := ba.addFreeCapacity buf.length
    let npos := ba.position % ba.nodeSize
    match writeLoop (ba.chain ba.cur) npos buf with
    | none => .error .nullNode ba
    | some (nodes, steps) =>
        .ok () { ba with
          nodes := ba.nodes.take (ba.cur.getD 0) ++ nodes
          cur := ba.next ba.cur steps
          position := ba.position + buf.length
          size := max ba.size (ba.position + buf.length) }

/-- The loop of `Read`: the bytes copied and how many times `_cur` moves on. -/
def readLoop : List (List Byte) → Nat → Nat → Option (List Byte × Nat)
  | [], _, _ => none
  | node :: rest, npos, size =>
      let ncap := node.length - npos
      if size = 0 then
        some ([], 0)
      else if size ≤ ncap then
        some (slice node npos size, if size = ncap then 1 else 0)
      else
        (readLoop rest 0 (size - ncap)).map fun (bytes, steps) =>
          (slice node npos ncap ++ bytes, steps + 1)

/-- `Read(buf, size)`, returning the bytes put into `buf`. -/
def read (size : Nat) : Action (List Byte) := fun ba =>
  if ba.getReadSize < size then
    .error (.outOfRange "no enough readSize") ba
  else
    match readLoop (ba.chain ba.cur) (ba.position % ba.nodeSize) size with
    | none => .error .nullNode ba
    | some (bytes, steps) =>
        .ok bytes { ba with
          cur := ba.next ba.cur steps
          position := ba.position + size }

/-- The nodes after the first are deleted. -/
def clear : Action Unit := fun ba =>
  .ok () { ba with
    nodes := ba.nodes.take 1
    cur := some 0
    position := 0
    size := 0
    capacity := ba.nodeSize }

/-- The loop of `SetPosition` with the test after it: how far `_cur` is from the
root. -/
def seek : List (List Byte) → Nat → Option Nat
  | [], _ => none
  | node :: rest, pos =>
      if node.length < pos then
        (seek rest (pos - node.length)).map (· + 1)
      else
        some (if pos = node.length then 1 else 0)

def setPosition (pos : Nat) : Action Unit := fun ba =>
  if ba.capacity < pos then
    .error (.outOfRange "position out of range") ba
  else
    let ba := { ba with position := pos, size := max ba.size pos }
    match seek ba.nodes pos with
    | none => .error .nullNode ba
    | some steps => .ok () { ba with cur := ba.nodeAt steps }

/-- `iovec`: a region of one node. -/
structure Iovec where
  node : Nat
  offset : Nat
  len : Nat
deriving DecidableEq, Repr

/-- The bytes at a region. -/
def iovecBytes (ba : ByteArray) (iov : Iovec) : List Byte :=
  slice (ba.nodes.getD iov.node []) iov.offset iov.len

/-- The loop of `GetReadBuffers`. -/
def readBuffersLoop : List (List Byte) → Nat → Nat → Nat → Option (List Iovec)
  | [], _, _, _ => none
  | node :: rest, index, npos, len =>
      let ncap := node.length - npos
      if len ≤ ncap then
        some [⟨index, npos, len⟩]
      else
        (readBuffersLoop rest (index + 1) 0 (len - ncap)).map (⟨index, npos, ncap⟩ :: ·)

/-- `GetReadBuffers(buffers, len)`: the regions pushed onto `buffers`, and the value
returned. -/
def getReadBuffers (len : Nat) : Action (List Iovec × Nat) := fun ba =>
  let len := min ba.getReadSize len
  if len = 0 then
    .ok ([], 0) ba
  else
    match readBuffersLoop (ba.chain ba.cur) (ba.cur.getD 0) (ba.position % ba.nodeSize) len with
    | none => .error .nullNode ba
    | some iovs => .ok (iovs, len) ba

/-- The loop of `GetWriteBuffers`. Its last region runs to the end of the node. -/
def writeBuffersLoop : List (List Byte) → Nat → Nat → Nat → Option (List Iovec)
  | [], _, _, _ => none
  | node :: rest, index, npos, len =>
      let ncap := node.length - npos
      if len ≤ ncap then
        some [⟨index, npos, ncap⟩]
      else
        (writeBuffersLoop rest (index + 1) 0 (len - ncap)).map (⟨index, npos, ncap⟩ :: ·)

/-- `GetWriteBuffers(buffers, len)`. -/
def getWriteBuffers (len : Nat) : Action (List Iovec × Nat) := fun ba =>
  if len = 0 then
    .ok ([], 0) ba
  else
    let ba := ba.addFreeCapacity len
    match writeBuffersLoop (ba.chain ba.cur) (ba.cur.getD 0) (ba.position % ba.nodeSize) len with
    | none => .error .nullNode ba
    | some iovs => .ok (iovs, len) ba

/-- The calls of a user of the array. The empty read, which looks at `_cur` even
where it is null, is not one of them. -/
inductive Op where
  | write (buf : List Byte)
  | read (size : Nat) (positive : 0 < size)
  | setPosition (pos : Nat)
  | clear
  | getReadBuffers (len : Nat)
  | getWriteBuffers (len : Nat)

/-- What a call shows to its user. Regions to be read are shown with their bytes. -/
inductive Outcome where
  | done
  | bytes (read : List Byte)
  | buffers (contents : List Byte) (returned : Nat)
  | room (returned : Nat)
  | stopped (fault : Fault)
deriving DecidableEq, Repr

/-- The outcome of a method, and the array after it. -/
def Action.observe {α : Type} (action : Action α) (shown : ByteArray → α → Outcome)
    (ba : ByteArray) : ByteArray × Outcome :=
  match action ba with
  | .ok value after => (after, shown after value)
  | .error fault after => (after, .stopped fault)

/-- One call. -/
def step (ba : ByteArray) : Op → ByteArray × Outcome
  | .write buf => (write buf).observe (fun _ _ => .done) ba
  | .read size _ => (read size).observe (fun _ bytes => .bytes bytes) ba
  | .setPosition pos => (setPosition pos).observe (fun _ _ => .done) ba
  | .clear => clear.observe (fun _ _ => .done) ba
  | .getReadBuffers len =>
      (getReadBuffers len).observe
        (fun after result => .buffers (result.1.flatMap after.iovecBytes) result.2) ba
  | .getWriteBuffers len => (getWriteBuffers len).observe (fun _ result => .room result.2) ba

/-- A sequence of calls, each made whatever the ones before it did. -/
def run (ba : ByteArray) : List Op → ByteArray × List Outcome
  | [] => (ba, [])
  | op :: ops =>
      let next := ba.step op
      let done := next.1.run ops
      (done.1, next.2 :: done.2)

end ByteArray
end Xten
