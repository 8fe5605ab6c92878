import Xten.ByteArray.Nodes

/-!
# The flat array

What a byte array is for, without nodes: one block of storage with a cursor in it
and the number of bytes written. Storage grows by whole blocks of `nodeSize`
bytes, whose first contents are whatever the memory holds.
-/

namespace Xten

open Std.Chunks

/-- Storage, a cursor and a size, in this order of magnitude. -/
@[ext] structure FlatArray where
  nodeSize : Nat
  storage : List Byte
  position : Nat
  size : Nat
  fresh : Nat → Byte
  positive : 0 < nodeSize
  inside : position ≤ size
  held : size ≤ storage.length

namespace FlatArray

open Xten.ByteArray (Op Outcome newNode)

def make (nodeSize : Nat) (positive : 0 < nodeSize) (fresh : Nat → Byte) : FlatArray where
  nodeSize := nodeSize
  storage := newNode nodeSize fresh
  position := 0
  size := 0
  fresh := fun index => fresh (nodeSize + index)
  positive := positive
  inside := Nat.le_refl 0
  held := Nat.zero_le _

/-- Bytes between the cursor and the end of the data. -/
def readSize (flat : FlatArray) : Nat :=
  flat.size - flat.position

/-- Storage longer by some fresh bytes. -/
def extend (flat : FlatArray) (count : Nat) : FlatArray :=
  { flat with
    storage := flat.storage ++ newNode count flat.fresh
    fresh := fun index => flat.fresh (count + index)
    held := flat.held.trans (by simp) }

/-- Number of blocks missing for `size` bytes after the cursor. -/
def missing (flat : FlatArray) (size : Nat) : Nat :=
  (size - (flat.storage.length - flat.position) + flat.nodeSize - 1) / flat.nodeSize

/-- Storage for `size` bytes after the cursor. -/
def reserve (flat : FlatArray) (size : Nat) : FlatArray :=
  if size ≤ flat.storage.length - flat.position then flat
  else flat.extend (flat.nodeSize * flat.missing size)

theorem reserve_position (flat : FlatArray) (size : Nat) :
    (flat.reserve size).position = flat.position := by
  unfold reserve
  split <;> rfl

theorem reserve_size (flat : FlatArray) (size : Nat) : (flat.reserve size).size = flat.size := by
  unfold reserve
  split <;> rfl

theorem reserve_nodeSize (flat : FlatArray) (size : Nat) :
    (flat.reserve size).nodeSize = flat.nodeSize := by
  unfold reserve
  split <;> rfl

/-- A quotient rounded up covers its dividend. -/
theorem le_mul_ceil {divisor : Nat} (positive : 0 < divisor) (size : Nat) :
    size ≤ divisor * ((size + divisor - 1) / divisor) := by
  have whole := Nat.div_add_mod (size + divisor - 1) divisor
  have rest := Nat.mod_lt (size + divisor - 1) positive
  omega

theorem reserve_holds (flat : FlatArray) (size : Nat) :
    flat.position + size ≤ (flat.reserve size).storage.length := by
  have inside := flat.inside
  have held := flat.held
  unfold reserve
  split
  · omega
  · have enough := le_mul_ceil flat.positive (size - (flat.storage.length - flat.position))
    simp only [extend, List.length_append, newNode, List.length_map, List.length_range, missing]
    omega

/-- Overwrite a region of the storage from the cursor on. -/
def put (flat : FlatArray) (buf : List Byte)
    (fits : flat.position + buf.length ≤ flat.storage.length) : FlatArray :=
  { flat with
    storage := overwrite flat.storage flat.position buf
    position := flat.position + buf.length
    size := max flat.size (flat.position + buf.length)
    inside := le_max_right _ _
    held := by
      rw [length_overwrite fits]
      exact max_le flat.held fits }

theorem put_congr {first second : FlatArray} {buf : List Byte} (same : first = second)
    (fits : first.position + buf.length ≤ first.storage.length) :
    first.put buf fits = second.put buf (same ▸ fits) := by
  subst same
  rfl

/-- Overwrite from the cursor on, extending the data. -/
def write (flat : FlatArray) (buf : List Byte) : FlatArray :=
  if buf = [] then flat
  else (flat.reserve buf.length).put buf (by
    rw [reserve_position]
    exact flat.reserve_holds buf.length)

/-- Move the cursor past bytes that are there. -/
def skip (flat : FlatArray) (size : Nat) (enough : size ≤ flat.readSize) : FlatArray :=
  { flat with
    position := flat.position + size
    inside := by
      have inside := flat.inside
      simp only [readSize] at enough
      omega }

/-- Move the cursor inside the storage; the data reaches at least that far. -/
def seek (flat : FlatArray) (pos : Nat) (within : pos ≤ flat.storage.length) : FlatArray :=
  { flat with
    position := pos
    size := max flat.size pos
    inside := le_max_right _ _
    held := max_le flat.held within }

/-- Keep the first block of storage. -/
def clear (flat : FlatArray) : FlatArray :=
  { flat with
    storage := flat.storage.take flat.nodeSize
    position := 0
    size := 0
    inside := Nat.le_refl 0
    held := Nat.zero_le _ }

/-- One call on the flat array. -/
def step (flat : FlatArray) : Op → FlatArray × Outcome
  | .write buf => (flat.write buf, .done)
  | .read size _ =>
      if enough : size ≤ flat.readSize then
        (flat.skip size enough, .bytes (slice flat.storage flat.position size))
      else
        (flat, .stopped (.outOfRange "no enough readSize"))
  | .setPosition pos =>
      if within : pos ≤ flat.storage.length then
        (flat.seek pos within, .done)
      else
        (flat, .stopped (.outOfRange "position out of range"))
  | .clear => (flat.clear, .done)
  | .getReadBuffers len =>
      let len := min flat.readSize len
      (flat, .buffers (slice flat.storage flat.position len) len)
  | .getWriteBuffers len => (if len = 0 then flat else flat.reserve len, .room len)

/-- A sequence of calls. -/
def run (flat : FlatArray) : List Op → FlatArray × List Outcome
  | [] => (flat, [])
  | op :: ops =>
      let next := flat.step op
      let done := next.1.run ops
      (done.1, next.2 :: done.2)

end FlatArray
end Xten
