import Xten.ByteArray.Refinement
import Xten.Std.Programs

/-!
# The bytes around the cursor

A byte array in use is a sequence of bytes cut by the cursor. This module says what
writes at the end and reads do to the two parts, and composes them: an action is
described by the bytes that it writes or takes and the value that it returns.
-/

namespace Xten

open Std.Chunks

/-- The data of a flat array, cut at the cursor. -/
structure FlatArray.Holds (flat : FlatArray) (nodeSize capacity : Nat)
    (before after : List Byte) : Prop where
  nodeSize : flat.nodeSize = nodeSize
  capacity : flat.storage.length = capacity
  position : flat.position = before.length
  contents : flat.storage.take flat.size = before ++ after

/-- The capacity of an array filled from empty: whole nodes, and at least one. -/
def capacityFor (nodeSize length : Nat) : Nat :=
  nodeSize * max 1 ((length + nodeSize - 1) / nodeSize)

theorem le_capacityFor {nodeSize : Nat} (positive : 0 < nodeSize) (length : Nat) :
    length ≤ capacityFor nodeSize length :=
  (FlatArray.le_mul_ceil positive length).trans (Nat.mul_le_mul_left _ (le_max_right _ _))

/-- Growing by whole nodes keeps the capacity that of the data. -/
theorem capacityFor_add {nodeSize : Nat} (positive : 0 < nodeSize) (length more : Nat) :
    capacityFor nodeSize (length + more) =
      if more ≤ capacityFor nodeSize length - length then capacityFor nodeSize length
      else capacityFor nodeSize length + nodeSize *
        ((more - (capacityFor nodeSize length - length) + nodeSize - 1) / nodeSize) := by
  have covers := le_capacityFor positive length
  unfold capacityFor at covers ⊢
  generalize count : max 1 ((length + nodeSize - 1) / nodeSize) = nodes at covers ⊢
  have least : 1 ≤ nodes := count ▸ le_max_left _ _
  have quotient : (length + nodeSize - 1) / nodeSize ≤ nodes := count ▸ le_max_right _ _
  split_ifs with enough
  · have upper : (length + more + nodeSize - 1) / nodeSize ≤ nodes := by
      rw [← Nat.lt_add_one_iff, Nat.div_lt_iff_lt_mul positive, Nat.mul_comm, Nat.mul_succ]
      omega
    have lower : (length + nodeSize - 1) / nodeSize ≤ (length + more + nodeSize - 1) / nodeSize :=
      Nat.div_le_div_right (by omega)
    congr 1
    omega
  · have sum : length + more + nodeSize - 1 =
        more - (nodeSize * nodes - length) + nodeSize - 1 + nodeSize * nodes := by
      omega
    rw [sum, Nat.add_mul_div_left _ _ positive, ← Nat.mul_add]
    generalize (more - (nodeSize * nodes - length) + nodeSize - 1) / nodeSize = added
    congr 1
    omega

namespace FlatArray

variable {flat : FlatArray} {nodeSize capacity : Nat} {before after : List Byte}

theorem Holds.size (holds : flat.Holds nodeSize capacity before after) :
    flat.size = (before ++ after).length := by
  rw [← holds.contents, List.length_take_of_le flat.held]

theorem Holds.readSize (holds : flat.Holds nodeSize capacity before after) :
    flat.readSize = after.length := by
  rw [FlatArray.readSize, holds.size, holds.position, List.length_append, Nat.add_sub_cancel_left]

/-- Bytes inside the data are those of the contents. -/
theorem Holds.taken {taken rest : List Byte}
    (holds : flat.Holds nodeSize capacity before (taken ++ rest)) :
    slice flat.storage flat.position taken.length = taken := by
  have size := holds.size
  have tail : (flat.storage.take flat.size).drop flat.position = taken ++ rest := by
    rw [holds.contents, holds.position, List.drop_left]
  have first := congrArg (List.take taken.length) tail
  rw [List.take_left, List.drop_take, List.take_take] at first
  rw [slice]
  rwa [Nat.min_eq_left] at first
  rw [size, holds.position]
  simp

theorem Holds.skip {taken rest : List Byte}
    (holds : flat.Holds nodeSize capacity before (taken ++ rest))
    (enough : taken.length ≤ flat.readSize) :
    (flat.skip taken.length enough).Holds nodeSize capacity (before ++ taken) rest where
  nodeSize := holds.nodeSize
  capacity := holds.capacity
  position := by
    rw [List.length_append, ← holds.position]
    rfl
  contents := by
    rw [List.append_assoc]
    exact holds.contents

/-- Moving the cursor back. -/
theorem Holds.seek {between : List Byte}
    (holds : flat.Holds nodeSize capacity (before ++ between) after)
    (within : before.length ≤ flat.storage.length) :
    (flat.seek before.length within).Holds nodeSize capacity before (between ++ after) where
  nodeSize := holds.nodeSize
  capacity := holds.capacity
  position := rfl
  contents := by
    have behind : before.length ≤ flat.size := by
      rw [holds.size, List.length_append, List.length_append]
      omega
    have same : (flat.seek before.length within).size = flat.size := Nat.max_eq_left behind
    rw [same, ← List.append_assoc]
    exact holds.contents

/-- Making room moves nothing. -/
theorem Holds.reserve (holds : flat.Holds nodeSize capacity before after) (size : Nat) :
    (flat.reserve size).Holds nodeSize (flat.reserve size).storage.length before after where
  nodeSize := by
    rw [← holds.nodeSize, FlatArray.reserve]
    split <;> rfl
  capacity := rfl
  position := (flat.reserve_position size).trans holds.position
  contents := by
    rw [reserve_size, ← holds.contents, FlatArray.reserve]
    split
    · rfl
    · exact List.take_append_of_le_length flat.held

/-- Overwriting the storage from the cursor on. -/
theorem Holds.overwrite (holds : flat.Holds nodeSize capacity before after) {buf : List Byte}
    (fits : flat.position + buf.length ≤ flat.storage.length) :
    (flat.put buf fits).Holds nodeSize capacity (before ++ buf) (after.drop buf.length) where
  nodeSize := holds.nodeSize
  capacity := (length_overwrite fits).trans holds.capacity
  position := by
    rw [List.length_append, ← holds.position]
    rfl
  contents := by
    have size := holds.size
    have position := holds.position
    have lead : flat.storage.take flat.position = before := by
      have first := congrArg (List.take flat.position) holds.contents
      rw [List.take_take, Nat.min_eq_left flat.inside] at first
      rw [first, position, List.take_left]
    have tail : (flat.storage.drop (flat.position + buf.length)).take
        (flat.size - (flat.position + buf.length)) = after.drop buf.length := by
      rw [← List.drop_take, holds.contents, position, ← List.drop_drop, List.drop_left]
    have length : (before ++ buf).length = flat.position + buf.length := by
      rw [List.length_append, position]
    have rest : max flat.size (flat.position + buf.length) - (flat.position + buf.length) =
        flat.size - (flat.position + buf.length) := by
      omega
    simp only [FlatArray.put, Std.Chunks.overwrite, lead]
    rw [List.take_append, length, rest, tail, List.take_of_length_le]
    rw [length]
    exact le_max_right _ _

/-- Filling the storage after the data. -/
theorem Holds.put (holds : flat.Holds nodeSize capacity before []) {buf : List Byte}
    (fits : flat.position + buf.length ≤ flat.storage.length) :
    (flat.put buf fits).Holds nodeSize capacity (before ++ buf) [] := by
  have filled := holds.overwrite fits
  rwa [List.drop_nil] at filled

/-- The capacity once there is room up to some position: whole nodes. -/
def capacityUpTo (nodeSize capacity reached : Nat) : Nat :=
  max capacity (nodeSize * ((reached + nodeSize - 1) / nodeSize))

/-- Making room adds the nodes that the region needs. -/
theorem length_reserve (whole : flat.nodeSize ∣ flat.storage.length) (size : Nat) :
    (flat.reserve size).storage.length =
      capacityUpTo flat.nodeSize flat.storage.length (flat.position + size) := by
  have positive := flat.positive
  have inside := flat.inside.trans flat.held
  obtain ⟨count, whole⟩ := whole
  rw [reserve, capacityUpTo, whole]
  split_ifs with enough
  · have few : (flat.position + size + flat.nodeSize - 1) / flat.nodeSize ≤ count := by
      rw [← Nat.lt_add_one_iff, Nat.div_lt_iff_lt_mul positive, Nat.mul_comm, Nat.mul_succ]
      omega
    rw [whole, Nat.max_eq_left (Nat.mul_le_mul_left _ few)]
  · have sum : flat.position + size + flat.nodeSize - 1 =
        size - (flat.nodeSize * count - flat.position) + flat.nodeSize - 1 +
          flat.nodeSize * count := by
      omega
    simp only [extend, missing, ByteArray.newNode, List.length_append, List.length_map,
      List.length_range]
    rw [whole, sum, Nat.add_mul_div_left _ _ positive, Nat.mul_add, Nat.add_comm,
      Nat.max_eq_right (Nat.le_add_left _ _)]

/-- Writing at the end of the data. -/
theorem Holds.write (holds : flat.Holds nodeSize (capacityFor nodeSize before.length) before [])
    (buf : List Byte) :
    (flat.write buf).Holds nodeSize (capacityFor nodeSize (before ++ buf).length) (before ++ buf)
      [] := by
  by_cases empty : buf = []
  · rw [FlatArray.write, if_pos empty, empty, List.append_nil]
    exact holds
  · have grown := capacityFor_add (holds.nodeSize ▸ flat.positive) before.length buf.length
    have capacity : (flat.reserve buf.length).storage.length =
        capacityFor nodeSize (before ++ buf).length := by
      rw [List.length_append, grown, FlatArray.reserve, holds.capacity, holds.position]
      split
      · exact holds.capacity
      · simp only [extend, missing, ByteArray.newNode, List.length_append, List.length_map,
          List.length_range, holds.capacity, holds.position, holds.nodeSize]
    have reserved := holds.reserve buf.length
    rw [capacity] at reserved
    rw [FlatArray.write, if_neg empty]
    exact reserved.put _

end FlatArray

namespace ByteArray

open Std.Programs

/-- The data of a byte array, cut at the cursor, with what reads do not change. -/
structure At (endian : Endian) (nodeSize capacity : Nat) (before after : List Byte)
    (ba : ByteArray) : Prop where
  endian : ba.endian = endian
  flat : ∃ flat, Represents ba flat ∧ flat.Holds nodeSize capacity before after

/-- An array filled from empty, with the cursor at the end. -/
def Filled (endian : Endian) (nodeSize : Nat) (contents : List Byte) (ba : ByteArray) : Prop :=
  At endian nodeSize (capacityFor nodeSize contents.length) contents [] ba

section Calls

variable {endian : Endian} {nodeSize capacity : Nat} {before after taken rest : List Byte}
  {ba : ByteArray}

theorem make_filled (positive : 0 < nodeSize) (fresh : Nat → Byte) :
    Filled .big nodeSize [] (make nodeSize fresh) where
  endian := rfl
  flat := by
    refine ⟨_, make_represents nodeSize positive fresh, rfl, ?_, rfl, rfl⟩
    have none : (nodeSize - 1) / nodeSize = 0 := Nat.div_eq_of_lt (by omega)
    simp [FlatArray.make, newNode, capacityFor, none]

theorem setLittleEndian_filled (filled : Filled endian nodeSize taken ba) (val : Bool) :
    ∃ later, setLittleEndian val ba = .ok () later ∧
      Filled (if val then .little else .big) nodeSize taken later := by
  obtain ⟨flat, ⟨valid, same⟩, holds⟩ := filled.flat
  exact ⟨_, rfl, rfl, flat, ⟨⟨valid.positive, valid.uniform, valid.root, valid.capacity,
    valid.inside, valid.held, valid.cur⟩, same⟩, holds⟩

theorem Filled.write (filled : Filled endian nodeSize taken ba) (buf : List Byte) :
    ∃ later, ByteArray.write buf ba = .ok () later ∧
      Filled endian nodeSize (taken ++ buf) later := by
  obtain ⟨flat, ⟨valid, rfl⟩, holds⟩ := filled.flat
  obtain ⟨later, wrote, represents, kept⟩ := valid.write_eq buf
  exact ⟨later, wrote, kept.trans filled.endian, _, represents, holds.write buf⟩

theorem Valid.nodeSize_dvd (valid : Valid ba) : ba.nodeSize ∣ valid.flat.storage.length :=
  ⟨ba.nodes.length, valid.length_storage.trans valid.capacity⟩

/-- Writing wherever the cursor is. -/
theorem At.write (cut : At endian nodeSize capacity before after ba) {buf : List Byte}
    (some : buf ≠ []) :
    ∃ later, ByteArray.write buf ba = .ok () later ∧
      At endian nodeSize (FlatArray.capacityUpTo nodeSize capacity (before ++ buf).length)
        (before ++ buf) (after.drop buf.length) later := by
  obtain ⟨flat, ⟨valid, rfl⟩, holds⟩ := cut.flat
  obtain ⟨later, wrote, represents, kept⟩ := valid.write_eq buf
  refine ⟨later, wrote, kept.trans cut.endian, _, represents, ?_⟩
  have room := FlatArray.length_reserve valid.nodeSize_dvd buf.length
  rw [holds.position, holds.capacity, ← List.length_append] at room
  have size : valid.flat.nodeSize = nodeSize := holds.nodeSize
  have reserved := holds.reserve buf.length
  rw [room, size] at reserved
  rw [FlatArray.write, if_neg some]
  exact reserved.overwrite _

/-- `SetPosition` back to bytes that are there. -/
theorem At.seek {between : List Byte}
    (cut : At endian nodeSize capacity (before ++ between) after ba) :
    ∃ later, setPosition before.length ba = .ok () later ∧
      At endian nodeSize capacity before (between ++ after) later := by
  obtain ⟨flat, ⟨valid, rfl⟩, holds⟩ := cut.flat
  have within : before.length ≤ valid.flat.storage.length := by
    have position := holds.position
    have inside := valid.flat.inside.trans valid.flat.held
    rw [List.length_append] at position
    omega
  obtain ⟨later, moved, represents, kept⟩ := valid.setPosition_eq within
  exact ⟨later, moved, kept.trans cut.endian, _, represents, holds.seek _⟩

/-- `SetPosition(0)`. -/
theorem At.rewind (cut : At endian nodeSize capacity before after ba) :
    ∃ later, setPosition 0 ba = .ok () later ∧
      At endian nodeSize capacity [] (before ++ after) later := by
  rw [← List.nil_append before] at cut
  exact cut.seek

/-- Reading bytes that are there. -/
theorem At.read (cut : At endian nodeSize capacity before (taken ++ rest) ba)
    (some : taken ≠ []) :
    ∃ later, ByteArray.read taken.length ba = .ok taken later ∧
      At endian nodeSize capacity (before ++ taken) rest later := by
  obtain ⟨flat, ⟨valid, rfl⟩, holds⟩ := cut.flat
  have enough : taken.length ≤ valid.flat.readSize := by
    rw [holds.readSize, List.length_append]
    exact Nat.le_add_right _ _
  obtain ⟨later, done, represents, kept⟩ :=
    valid.read_eq (List.length_pos_iff.mpr some) enough
  have bytes : slice ba.storage ba.position taken.length = taken := holds.taken
  rw [bytes] at done
  exact ⟨later, done, kept.trans cut.endian, _, represents, holds.skip enough⟩

/-- Reading more bytes than there are. -/
theorem At.read_short (cut : At endian nodeSize capacity before after ba) {size : Nat}
    (short : after.length < size) :
    ByteArray.read size ba = .error (.outOfRange "no enough readSize") ba := by
  obtain ⟨flat, ⟨valid, rfl⟩, holds⟩ := cut.flat
  apply valid.read_short
  rw [holds.readSize]
  exact Nat.not_le.mpr short

/-- Reading no bytes still looks at the node of the cursor. -/
theorem At.read_none (cut : At endian nodeSize capacity before after ba) :
    ByteArray.read 0 ba =
      if before.length = capacity then .error .nullNode ba else .ok [] ba := by
  obtain ⟨flat, ⟨valid, rfl⟩, holds⟩ := cut.flat
  have position : ba.position = before.length := holds.position
  have full : ba.capacity = capacity := valid.length_storage.symm.trans holds.capacity
  have inside := valid.inside.trans valid.held
  rw [← position, ← full]
  split_ifs with atEnd
  · simp only [ByteArray.read, getReadSize, Nat.not_lt_zero, if_false, valid.cur, if_pos atEnd,
      chain, readLoop]
  · have room : ba.position < ba.capacity := by omega
    obtain ⟨node, nodes, split⟩ : ∃ node nodes,
        ba.nodes.drop (ba.position / ba.nodeSize) = node :: nodes := by
      apply List.exists_cons_of_length_pos
      rw [List.length_drop]
      exact Nat.sub_pos_of_lt (valid.index_lt room)
    have stay : ba.next (some (ba.position / ba.nodeSize)) 0 = ba.cur := by
      rw [valid.cur_of_room room, next, Option.bind_some, nodeAt, Nat.add_zero,
        if_pos (valid.index_lt room)]
    simp only [ByteArray.read, getReadSize, Nat.not_lt_zero, if_false, valid.cur_of_room room,
      chain, split, readLoop, if_true, stay, Nat.add_zero]
    rw [← valid.cur_of_room room]

theorem At.getReadSize_eq (cut : At endian nodeSize capacity before after ba) :
    ba.getReadSize = after.length := by
  obtain ⟨flat, ⟨valid, rfl⟩, holds⟩ := cut.flat
  exact holds.readSize

end Calls

section Actions

variable {α β : Type}

/-- At the end of the data, an action writes some bytes and returns a value. -/
def Writes (action : Action α) (value : α) (encoded : Endian → List Byte) : Prop :=
  ∀ ⦃endian nodeSize contents ba⦄, Filled endian nodeSize contents ba →
    ∃ later, action ba = .ok value later ∧
      Filled endian nodeSize (contents ++ encoded endian) later

/-- An action takes some bytes, where they come next, and returns a value. -/
def Reads (action : Action α) (value : α) (encoded : Endian → List Byte) : Prop :=
  ∀ ⦃endian nodeSize capacity before rest ba⦄,
    At endian nodeSize capacity before (encoded endian ++ rest) ba →
    ∃ later, action ba = .ok value later ∧
      At endian nodeSize capacity (before ++ encoded endian) rest later

theorem Writes.write (buf : List Byte) : Writes (ByteArray.write buf) () fun _ => buf :=
  fun _ _ _ _ filled => filled.write buf

theorem Writes.pure (value : α) : Writes (pure value) value fun _ => [] := by
  intro endian nodeSize contents ba filled
  exact ⟨ba, rfl, by rwa [List.append_nil]⟩

theorem Writes.bind {first : Action α} {next : α → Action β} {value : α} {result : β}
    {head tail : Endian → List Byte} (writesHead : Writes first value head)
    (writesTail : Writes (next value) result tail) :
    Writes (first >>= next) result fun endian => head endian ++ tail endian := by
  intro endian nodeSize contents ba filled
  obtain ⟨middle, done, filled⟩ := writesHead filled
  obtain ⟨later, again, filled⟩ := writesTail filled
  refine ⟨later, (bind_ok done).trans again, ?_⟩
  rwa [← List.append_assoc]

theorem Writes.seq {first : Action Unit} {second : Action α} {value : α}
    {head tail : Endian → List Byte} (writesHead : Writes first () head)
    (writesTail : Writes second value tail) :
    Writes (do first; second) value fun endian => head endian ++ tail endian :=
  Writes.bind writesHead writesTail

theorem Reads.read {taken : List Byte} (some : taken ≠ []) :
    Reads (ByteArray.read taken.length) taken fun _ => taken :=
  fun _ _ _ _ _ _ cut => cut.read some

theorem Reads.pure (value : α) : Reads (pure value) value fun _ => [] := by
  intro endian nodeSize capacity before rest ba cut
  exact ⟨ba, rfl, by rwa [List.append_nil]⟩

theorem Reads.bind {first : Action α} {next : α → Action β} {value : α} {result : β}
    {head tail : Endian → List Byte} (readsHead : Reads first value head)
    (readsTail : Reads (next value) result tail) :
    Reads (first >>= next) result fun endian => head endian ++ tail endian := by
  intro endian nodeSize capacity before rest ba cut
  rw [List.append_assoc] at cut
  obtain ⟨middle, done, cut⟩ := readsHead cut
  obtain ⟨later, again, cut⟩ := readsTail cut
  refine ⟨later, (bind_ok done).trans again, ?_⟩
  rwa [← List.append_assoc]

theorem Reads.map {action : Action α} {value : α} {encoded : Endian → List Byte}
    (reads : Reads action value encoded) (post : α → β) :
    Reads (do return post (← action)) (post value) encoded := by
  intro endian nodeSize capacity before rest ba cut
  obtain ⟨later, done, cut⟩ := reads cut
  exact ⟨later, bind_ok done, cut⟩

end Actions

end ByteArray

end Xten
