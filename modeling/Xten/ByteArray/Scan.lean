import Xten.ByteArray.RoundTrip

/-!
# Reading from a sequence of bytes

The reads of a byte array seen from the bytes around its cursor alone. A cursor in a
sequence of bytes is all that decides what a read returns and whether it stops
short; of the nodes only the capacity matters, where a read of no bytes finds the
cursor at the end of the last of them.
-/

namespace Xten

open Std.IntegerCodec Std.Programs

/-- The bytes around the cursor of an array, and what else its reads depend on. -/
structure Cursor where
  endian : Endian
  capacity : Nat
  before : List Byte
  after : List Byte
deriving DecidableEq, Repr

/-- A byte array shows a cursor. -/
def ByteArray.Shows (ba : ByteArray) (cursor : Cursor) : Prop :=
  ∃ nodeSize, ByteArray.At cursor.endian nodeSize cursor.capacity cursor.before cursor.after ba

namespace Cursor

abbrev Scan := EStateM Fault Cursor

/-- The cursor after some more bytes. -/
def pass (cursor : Cursor) (size : Nat) : Cursor :=
  { cursor with
    before := cursor.before ++ cursor.after.take size
    after := cursor.after.drop size }

/-- `Read(buf, size)` on a sequence of bytes. -/
def read (size : Nat) : Scan (List Byte) := fun cursor =>
  if cursor.after.length < size then
    .error (.outOfRange "no enough readSize") cursor
  else if size = 0 ∧ cursor.before.length = cursor.capacity then
    .error .nullNode cursor
  else
    .ok (cursor.after.take size) (cursor.pass size)

/-- The fault of `Read(buf, size)`, none where it returns. -/
def readFault (size : Nat) (cursor : Cursor) : Option Fault :=
  if cursor.after.length < size then
    some (.outOfRange "no enough readSize")
  else if size = 0 ∧ cursor.before.length = cursor.capacity then
    some .nullNode
  else
    none

theorem read_ok {size : Nat} {cursor : Cursor} (clear : cursor.readFault size = none) :
    read size cursor = .ok (cursor.after.take size) (cursor.pass size) := by
  simp only [readFault, read] at clear ⊢
  split_ifs at clear ⊢
  rfl

theorem read_error {size : Nat} {cursor : Cursor} {fault : Fault}
    (faulty : cursor.readFault size = some fault) : read size cursor = .error fault cursor := by
  simp only [readFault, read] at faulty ⊢
  split_ifs at faulty ⊢
  all_goals
    cases faulty
    rfl

def readFixed (count : Nat) : Scan (BitVec (8 * count)) := do
  let tmp := ofMemory (← read count)
  let cursor ← get
  return if cursor.endian ≠ ByteArray.byteOrder then byteSwap count tmp else tmp

def readFUint8 : Scan (BitVec 8) := return ofMemory (← read 1)

def readFUint32 : Scan (BitVec 32) := readFixed 4

def readStringF32 : Scan (List Byte) := do
  let len ← readFUint32
  if len + 1 = 0 then
    throw .overrun
  else
    return ByteArray.cString (← read len.toNat)

end Cursor

section Simulation

variable {ba : ByteArray} {cursor : Cursor}

theorem read_simulates (size : Nat) :
    Simulates ByteArray.Shows (ByteArray.read size) (Cursor.read size) := by
  rintro ba cursor ⟨nodeSize, cut⟩
  unfold Cursor.read
  split_ifs with short none
  · rw [cut.read_short short]
    exact .error _ ⟨nodeSize, cut⟩
  · obtain ⟨rfl, full⟩ := none
    rw [cut.read_none, if_pos full]
    exact .error _ ⟨nodeSize, cut⟩
  · by_cases zero : size = 0
    · subst zero
      have room : cursor.before.length ≠ cursor.capacity := fun full => none ⟨rfl, full⟩
      rw [cut.read_none, if_neg room]
      exact .ok _ ⟨nodeSize, by simpa [Cursor.pass] using cut⟩
    · have length : (cursor.after.take size).length = size :=
        List.length_take_of_le (Nat.le_of_not_lt short)
      have some : cursor.after.take size ≠ [] := by
        apply List.ne_nil_of_length_pos
        omega
      rw [← List.take_append_drop size cursor.after] at cut
      obtain ⟨later, done, cut⟩ := cut.read some
      rw [length] at done
      rw [done]
      exact .ok _ ⟨nodeSize, cut⟩

theorem readFixed_simulates (count : Nat) :
    Simulates ByteArray.Shows (ByteArray.readFixed count) (Cursor.readFixed count) := by
  apply (read_simulates count).bind
  rintro bytes ba cursor ⟨nodeSize, cut⟩
  rw [get_bind, get_bind, cut.endian]
  exact .ok _ ⟨nodeSize, cut⟩

theorem readFUint8_simulates :
    Simulates ByteArray.Shows ByteArray.readFUint8 Cursor.readFUint8 :=
  (read_simulates 1).map _

theorem readFUint32_simulates :
    Simulates ByteArray.Shows ByteArray.readFUint32 Cursor.readFUint32 :=
  readFixed_simulates 4

theorem readStringF32_simulates :
    Simulates ByteArray.Shows ByteArray.readStringF32 Cursor.readStringF32 := by
  apply readFUint32_simulates.bind
  intro len
  apply Simulates.ite
  · exact Simulates.throw _
  · exact (read_simulates _).map _

end Simulation

namespace Cursor

variable {endian : Endian} {capacity : Nat} {before rest : List Byte}

theorem read_append {taken : List Byte}
    (node : taken = [] → before.length ≠ capacity) :
    read taken.length ⟨endian, capacity, before, taken ++ rest⟩ =
      .ok taken ⟨endian, capacity, before ++ taken, rest⟩ := by
  have enough : ¬ (taken ++ rest).length < taken.length := by simp
  have there : ¬ (taken.length = 0 ∧ before.length = capacity) := by
    rintro ⟨empty, full⟩
    exact node (List.length_eq_zero_iff.mp empty) full
  rw [read, if_neg enough, if_neg there]
  simp [pass]

theorem readFUint8_append (byte : Byte) :
    readFUint8 ⟨endian, capacity, before, byte :: rest⟩ =
      .ok byte ⟨endian, capacity, before ++ [byte], rest⟩ := by
  have some : ([byte] : List Byte) = [] → before.length ≠ capacity := by
    intro none
    cases none
  have taken : read 1 ⟨endian, capacity, before, byte :: rest⟩ = .ok [byte] _ := read_append some
  have value : (ofMemory [byte] : Byte) = byte := by simp [ofMemory]
  rw [readFUint8, bind_ok taken, value]
  rfl

end Cursor

end Xten
