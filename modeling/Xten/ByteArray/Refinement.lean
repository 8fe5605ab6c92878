import Xten.ByteArray.Walk

/-!
# The byte array is a flat array

The invariant that ties the two cursors of a byte array to each other and to the
chain, and the abstraction that forgets the nodes. Every call keeps the invariant
and does to the flat array what its specification says.
-/

namespace Xten.ByteArray

open Std.Chunks

/-- The invariant of a byte array. -/
structure Valid (ba : ByteArray) : Prop where
  positive : 0 < ba.nodeSize
  uniform : Uniform ba.nodeSize ba.nodes
  root : ba.nodes ≠ []
  capacity : ba.capacity = ba.nodeSize * ba.nodes.length
  inside : ba.position ≤ ba.size
  held : ba.size ≤ ba.capacity
  cur : ba.cur = if ba.position = ba.capacity then none else some (ba.position / ba.nodeSize)

/-- The bytes of all nodes. -/
def storage (ba : ByteArray) : List Byte :=
  ba.nodes.flatten

theorem Valid.length_storage {ba : ByteArray} (valid : Valid ba) :
    ba.storage.length = ba.capacity := by
  rw [storage, valid.uniform.length_flatten, valid.capacity]

/-- The flat array that a byte array stands for. -/
def Valid.flat {ba : ByteArray} (valid : Valid ba) : FlatArray where
  nodeSize := ba.nodeSize
  storage := ba.storage
  position := ba.position
  size := ba.size
  fresh := ba.fresh
  positive := valid.positive
  inside := valid.inside
  held := valid.held.trans valid.length_storage.ge

theorem Valid.flat_fits {ba : ByteArray} (valid : Valid ba) {size : Nat}
    (fits : ba.position + size ≤ ba.capacity) :
    valid.flat.position + size ≤ valid.flat.storage.length :=
  fits.trans valid.length_storage.ge

/-- A byte array keeps its invariant and stands for a flat array. -/
def Represents (ba : ByteArray) (flat : FlatArray) : Prop :=
  ∃ valid : Valid ba, valid.flat = flat

section Cursor

variable {ba : ByteArray}

/-- The node that holds a position, null at the end of the chain. -/
theorem nodeAt_div (positive : 0 < ba.nodeSize)
    (capacity : ba.capacity = ba.nodeSize * ba.nodes.length) {position : Nat}
    (within : position ≤ ba.capacity) :
    ba.nodeAt (position / ba.nodeSize) =
      if position = ba.capacity then none else some (position / ba.nodeSize) := by
  unfold nodeAt
  by_cases full : position = ba.capacity
  · rw [if_pos full, full, capacity, Nat.mul_div_cancel_left _ positive, if_neg (lt_irrefl _)]
  · have inside : position < ba.nodes.length * ba.nodeSize := by
      rw [Nat.mul_comm, ← capacity]
      omega
    rw [if_neg full, if_pos (Nat.div_lt_of_lt_mul (by rwa [Nat.mul_comm]))]

theorem Valid.cur_of_room (valid : Valid ba) (room : ba.position < ba.capacity) :
    ba.cur = some (ba.position / ba.nodeSize) := by
  rw [valid.cur, if_neg room.ne]

theorem Valid.index_lt (valid : Valid ba) {position : Nat} (room : position < ba.capacity) :
    position / ba.nodeSize < ba.nodes.length := by
  rw [valid.capacity] at room
  exact Nat.div_lt_of_lt_mul room

/-- The nodes before that of a position hold the bytes before the node offset. -/
theorem Valid.length_before (valid : Valid ba) {position : Nat} (room : position < ba.capacity) :
    (ba.nodes.take (position / ba.nodeSize)).flatten.length + position % ba.nodeSize =
      position := by
  rw [valid.uniform.length_flatten_take (valid.index_lt room).le, Nat.div_add_mod]

theorem storage_split (ba : ByteArray) (index : Nat) :
    (ba.nodes.take index).flatten ++ (ba.nodes.drop index).flatten = ba.storage := by
  rw [← List.flatten_append, List.take_append_drop, storage]

/-- A region from a position on is a region of the chain from the node of the position. -/
theorem Valid.fits_chain (valid : Valid ba) {position : Nat} (room : position < ba.capacity)
    {size : Nat} (fits : position + size ≤ ba.capacity) :
    position % ba.nodeSize + size ≤
      (ba.nodes.drop (position / ba.nodeSize)).flatten.length := by
  have whole := congrArg List.length (storage_split ba (position / ba.nodeSize))
  rw [List.length_append, valid.length_storage] at whole
  have before := valid.length_before room
  omega

theorem Valid.slice_chain (valid : Valid ba) {position : Nat} (room : position < ba.capacity)
    (size : Nat) :
    slice (ba.nodes.drop (position / ba.nodeSize)).flatten (position % ba.nodeSize) size =
      slice ba.storage position size := by
  have shifted := slice_append_shift (ba.nodes.take (position / ba.nodeSize)).flatten
    (ba.nodes.drop (position / ba.nodeSize)).flatten (position % ba.nodeSize) size
  rw [storage_split, valid.length_before room] at shifted
  exact shifted.symm

/-- Moving on from `_cur` past a region of the chain. -/
theorem Valid.next_cur (valid : Valid ba) (room : ba.position < ba.capacity) {size : Nat}
    (fits : ba.position + size ≤ ba.capacity) :
    ba.next ba.cur ((ba.position % ba.nodeSize + size) / ba.nodeSize) =
      if ba.position + size = ba.capacity then none
      else some ((ba.position + size) / ba.nodeSize) := by
  have steps : ba.position / ba.nodeSize + (ba.position % ba.nodeSize + size) / ba.nodeSize =
      (ba.position + size) / ba.nodeSize := by
    conv_rhs => rw [← Nat.div_add_mod ba.position ba.nodeSize, Nat.add_assoc,
      Nat.mul_add_div valid.positive]
  rw [valid.cur_of_room room, next, Option.bind_some, steps,
    nodeAt_div valid.positive valid.capacity fits]

end Cursor

section Growth

variable {ba : ByteArray}

theorem newNode_add (first second : Nat) (fresh : Nat → Byte) :
    newNode (first + second) fresh =
      newNode first fresh ++ newNode second fun index => fresh (first + index) := by
  simp [newNode, List.range_add, Function.comp_def]

/-- What the linking of new nodes changes. -/
theorem appendNodes_eq (count : Nat) (ba : ByteArray) :
    ∃ nodes, Uniform ba.nodeSize nodes ∧ nodes.length = count ∧
      nodes.flatten = newNode (ba.nodeSize * count) ba.fresh ∧
      appendNodes count ba = { ba with
        nodes := ba.nodes ++ nodes
        capacity := ba.capacity + ba.nodeSize * count
        fresh := fun index => ba.fresh (ba.nodeSize * count + index) } := by
  induction count generalizing ba with
  | zero => exact ⟨[], Uniform.nil, rfl, rfl, by simp [appendNodes]⟩
  | succ count ih =>
      obtain ⟨nodes, uniform, length, flat, same⟩ := ih { ba with
        nodes := ba.nodes ++ [newNode ba.nodeSize ba.fresh]
        capacity := ba.capacity + ba.nodeSize
        fresh := fun index => ba.fresh (ba.nodeSize + index) }
      have product : ba.nodeSize * (count + 1) = ba.nodeSize + ba.nodeSize * count := by
        rw [Nat.mul_succ, Nat.add_comm]
      refine ⟨newNode ba.nodeSize ba.fresh :: nodes, Uniform.cons (by simp [newNode]) uniform,
        by rw [List.length_cons, length], ?_, ?_⟩
      · rw [List.flatten_cons, flat, product, newNode_add]
      · rw [appendNodes, same, product]
        simp [Nat.add_assoc]

/-- `addFreeCapacity` makes room after the cursor, as the flat array does. -/
theorem Valid.addFreeCapacity (valid : Valid ba) (size : Nat) :
    Represents (ba.addFreeCapacity size) (valid.flat.reserve size) := by
  have capacity := valid.capacity
  have inside := valid.inside
  have held := valid.held
  have room : valid.flat.storage.length - valid.flat.position = ba.getFreeCapacity := by
    rw [getFreeCapacity, ← valid.length_storage]
    rfl
  by_cases enough : size ≤ ba.getFreeCapacity
  · have same : ba.addFreeCapacity size = ba := if_pos enough
    have flat : valid.flat.reserve size = valid.flat := if_pos (by rw [room]; exact enough)
    rw [flat, Represents, same]
    exact ⟨valid, rfl⟩
  · have missing : valid.flat.missing size =
        (size - ba.getFreeCapacity + ba.nodeSize - 1) / ba.nodeSize := by
      rw [FlatArray.missing, room]
      rfl
    have flat : valid.flat.reserve size =
        valid.flat.extend (ba.nodeSize * valid.flat.missing size) :=
      if_neg (by rw [room]; exact enough)
    have some : 0 < valid.flat.missing size := by
      have covers := FlatArray.le_mul_ceil valid.positive (size - ba.getFreeCapacity)
      rw [← missing] at covers
      refine Nat.pos_of_ne_zero fun none => ?_
      rw [none] at covers
      omega
    obtain ⟨nodes, uniform, length, bytes, appended⟩ := appendNodes_eq (valid.flat.missing size) ba
    -- The pointer stays in its node, or moves to the first new one.
    have grownEq : ba.addFreeCapacity size = { ba with
        nodes := ba.nodes ++ nodes
        capacity := ba.capacity + ba.nodeSize * valid.flat.missing size
        fresh := fun index => ba.fresh (ba.nodeSize * valid.flat.missing size + index)
        cur := Option.some (ba.position / ba.nodeSize) } := by
      simp only [ByteArray.addFreeCapacity, if_neg enough, ← missing, appended, if_neg some.ne']
      by_cases full : ba.position = ba.capacity
      · have none : ba.getFreeCapacity = 0 := by
          rw [getFreeCapacity, full, Nat.sub_self]
        have index : ba.position / ba.nodeSize = ba.nodes.length := by
          rw [full, capacity, Nat.mul_div_cancel_left _ valid.positive]
        rw [if_pos none, index]
      · have left : ba.getFreeCapacity ≠ 0 := by
          rw [getFreeCapacity]
          omega
        rw [if_neg left, ← valid.cur_of_room (by omega)]
    have more : 0 < ba.nodeSize * valid.flat.missing size := Nat.mul_pos valid.positive some
    rw [flat, Represents, grownEq]
    refine ⟨⟨valid.positive, valid.uniform.append uniform, ?_, ?_, inside, ?_, ?_⟩, ?_⟩
    · simp [valid.root]
    · rw [List.length_append, length, Nat.mul_add, ← capacity]
    · exact held.trans (Nat.le_add_right _ _)
    · rw [if_neg]
      simp only
      omega
    · ext1
      case storage =>
        simp only [Valid.flat, FlatArray.extend, storage, List.flatten_append, bytes]
      all_goals rfl

theorem appendNodes_endian (count : Nat) (ba : ByteArray) :
    (appendNodes count ba).endian = ba.endian := by
  induction count generalizing ba with
  | zero => rfl
  | succ count ih => rw [appendNodes, ih]

theorem addFreeCapacity_endian (ba : ByteArray) (size : Nat) :
    (ba.addFreeCapacity size).endian = ba.endian := by
  by_cases enough : size ≤ ba.getFreeCapacity
  · rw [addFreeCapacity, if_pos enough]
  · simp only [addFreeCapacity, if_neg enough]
    split <;> exact appendNodes_endian _ _

/-- What is known once room has been made: the cursor has not moved. -/
theorem Valid.reserved (valid : Valid ba) (size : Nat) :
    ∃ grown : Valid (ba.addFreeCapacity size), grown.flat = valid.flat.reserve size ∧
      (ba.addFreeCapacity size).position + size ≤ (ba.addFreeCapacity size).capacity := by
  obtain ⟨grown, same⟩ := valid.addFreeCapacity size
  have position : (ba.addFreeCapacity size).position = ba.position :=
    (congrArg FlatArray.position same).trans (valid.flat.reserve_position size)
  have length : (ba.addFreeCapacity size).capacity = (valid.flat.reserve size).storage.length :=
    grown.length_storage.symm.trans (congrArg (fun flat => flat.storage.length) same)
  refine ⟨grown, same, ?_⟩
  rw [position, length]
  exact valid.flat.reserve_holds size

end Growth

section Calls

variable {ba : ByteArray}

theorem make_represents (nodeSize : Nat) (positive : 0 < nodeSize) (fresh : Nat → Byte) :
    Represents (make nodeSize fresh) (FlatArray.make nodeSize positive fresh) := by
  refine ⟨⟨positive, Uniform.cons (by simp [newNode, make]) Uniform.nil, by simp [make],
    by simp [make], Nat.le_refl _, Nat.zero_le _, ?_⟩, ?_⟩
  · simp [make, positive.ne]
  · ext1
    case storage => simp [Valid.flat, storage, make, FlatArray.make]
    all_goals rfl

/-- The nodes written by the loop of `Write`, in place of those from `_cur` on. -/
theorem Valid.put (valid : Valid ba) {buf : List Byte} (some : 0 < buf.length)
    (fits : ba.position + buf.length ≤ ba.capacity) :
    ∃ nodes steps, writeLoop (ba.chain ba.cur) (ba.position % ba.nodeSize) buf =
        .some (nodes, steps) ∧
      Represents { ba with
          nodes := ba.nodes.take (ba.cur.getD 0) ++ nodes
          cur := ba.next ba.cur steps
          position := ba.position + buf.length
          size := max ba.size (ba.position + buf.length) }
        (valid.flat.put buf (valid.flat_fits fits)) := by
  have room : ba.position < ba.capacity := by omega
  obtain ⟨written, walked, flat, uniform, length⟩ := writeLoop_eq valid.positive
    (valid.uniform.drop (ba.position / ba.nodeSize)) (Nat.mod_lt _ valid.positive) some
    (valid.fits_chain room fits)
  have next := valid.next_cur room fits
  rw [valid.cur_of_room room] at next ⊢
  refine ⟨written, _, walked, ?_⟩
  have bytes : (ba.nodes.take (ba.position / ba.nodeSize) ++ written).flatten =
      overwrite ba.storage ba.position buf := by
    have shifted := overwrite_append_shift (ba.nodes.take (ba.position / ba.nodeSize)).flatten
      (ba.nodes.drop (ba.position / ba.nodeSize)).flatten (ba.position % ba.nodeSize) buf
    rw [storage_split, valid.length_before room] at shifted
    rw [List.flatten_append, flat, shifted]
  have count : (ba.nodes.take (ba.position / ba.nodeSize) ++ written).length =
      ba.nodes.length := by
    rw [List.length_append, length, ← List.length_append, List.take_append_drop]
  refine ⟨⟨valid.positive, (valid.uniform.take _).append uniform, ?_, ?_, le_max_right _ _,
    max_le valid.held fits, next⟩, ?_⟩
  · intro none
    simp only [Option.getD_some] at none
    rw [← List.length_eq_zero_iff, count, List.length_eq_zero_iff] at none
    exact valid.root none
  · simp only [Option.getD_some, count]
    exact valid.capacity
  · ext1
    case storage => exact bytes
    all_goals rfl

/-- `Write` overwrites and extends the flat array. -/
theorem Valid.write_eq (valid : Valid ba) (buf : List Byte) :
    ∃ after, write buf ba = .ok () after ∧ Represents after (valid.flat.write buf) ∧
      after.endian = ba.endian := by
  by_cases empty : buf = []
  · refine ⟨ba, if_pos (by rw [empty]; rfl), ⟨valid, ?_⟩, rfl⟩
    rw [FlatArray.write, if_pos empty]
  · have some : 0 < buf.length := List.length_pos_iff.mpr empty
    obtain ⟨grown, same, fits⟩ := valid.reserved buf.length
    obtain ⟨nodes, steps, walked, represents⟩ := grown.put some fits
    rw [FlatArray.put_congr same] at represents
    simp only [write, if_neg some.ne', walked]
    refine ⟨_, rfl, ?_, addFreeCapacity_endian ba buf.length⟩
    rw [FlatArray.write, if_neg empty]
    exact represents

/-- `Read` of bytes that are there. -/
theorem Valid.read_eq (valid : Valid ba) {size : Nat} (positive : 0 < size)
    (enough : size ≤ valid.flat.readSize) :
    ∃ after, read size ba = .ok (slice ba.storage ba.position size) after ∧
      Represents after (valid.flat.skip size enough) ∧ after.endian = ba.endian := by
  have available : size ≤ ba.size - ba.position := enough
  have held := valid.held
  have fits : ba.position + size ≤ ba.capacity := by omega
  have room : ba.position < ba.capacity := by omega
  have walked := readLoop_eq valid.positive
    (valid.uniform.drop (ba.position / ba.nodeSize)) (Nat.mod_lt _ valid.positive) positive
    (valid.fits_chain room fits)
  rw [valid.slice_chain room] at walked
  have next := valid.next_cur room fits
  rw [valid.cur_of_room room] at next
  have short : ¬ ba.getReadSize < size := by
    rw [getReadSize]
    omega
  simp only [read, if_neg short, valid.cur_of_room room, chain, walked, next]
  refine ⟨_, rfl, ⟨⟨valid.positive, valid.uniform, valid.root, valid.capacity, ?_, held, rfl⟩,
    rfl⟩, rfl⟩
  simp only
  omega

/-- `Read` of more bytes than there are. -/
theorem Valid.read_short (valid : Valid ba) {size : Nat} (short : ¬ size ≤ valid.flat.readSize) :
    read size ba = .error (.outOfRange "no enough readSize") ba :=
  if_pos (Nat.lt_of_not_le short)

/-- `SetPosition` inside the storage. -/
theorem Valid.setPosition_eq (valid : Valid ba) {pos : Nat}
    (within : pos ≤ valid.flat.storage.length) :
    ∃ after, setPosition pos ba = .ok () after ∧ Represents after (valid.flat.seek pos within) ∧
      after.endian = ba.endian := by
  have bound : pos ≤ ba.capacity := valid.length_storage ▸ within
  have found := seek_eq valid.positive valid.uniform valid.root within
  simp only [setPosition, if_neg (Nat.not_lt.mpr bound), found]
  refine ⟨_, rfl, ⟨⟨valid.positive, valid.uniform, valid.root, valid.capacity, le_max_right _ _,
    max_le valid.held bound, ?_⟩, rfl⟩, rfl⟩
  exact nodeAt_div valid.positive valid.capacity bound

theorem Valid.setPosition_beyond (valid : Valid ba) {pos : Nat}
    (beyond : ¬ pos ≤ valid.flat.storage.length) :
    setPosition pos ba = .error (.outOfRange "position out of range") ba := by
  refine if_pos ?_
  rw [← valid.length_storage]
  exact Nat.lt_of_not_le beyond

/-- `Clear` keeps the root node. -/
theorem Valid.clear_eq (valid : Valid ba) :
    ∃ after, clear ba = .ok () after ∧ Represents after valid.flat.clear ∧
      after.endian = ba.endian := by
  have first : (ba.nodes.take 1).length = 1 :=
    List.length_take_of_le (List.length_pos_iff.mpr valid.root)
  refine ⟨_, rfl, ⟨⟨valid.positive, valid.uniform.take 1, ?_, ?_, Nat.le_refl 0, Nat.zero_le _,
    ?_⟩, ?_⟩, rfl⟩
  · exact List.ne_nil_of_length_pos (first.symm ▸ Nat.one_pos)
  · simp only [first, Nat.mul_one]
  · simp [valid.positive.ne]
  · have kept : (ba.nodes.take 1).flatten.length = ba.nodeSize := by
      rw [(valid.uniform.take 1).length_flatten, first, Nat.mul_one]
    ext1
    case storage =>
      change (ba.nodes.take 1).flatten = ba.storage.take ba.nodeSize
      rw [← storage_split ba 1, ← kept, List.take_left]
    all_goals rfl

/-- The regions of `GetReadBuffers` hold the bytes after the cursor. -/
theorem Valid.getReadBuffers_eq (valid : Valid ba) (len : Nat) :
    ∃ iovs, getReadBuffers len ba = .ok (iovs, min valid.flat.readSize len) ba ∧
      iovs.flatMap ba.iovecBytes = slice ba.storage ba.position (min valid.flat.readSize len) := by
  have same : min ba.getReadSize len = min valid.flat.readSize len := rfl
  have available : min valid.flat.readSize len ≤ ba.size - ba.position := min_le_left _ _
  simp only [getReadBuffers, same]
  generalize min valid.flat.readSize len = len at *
  by_cases none : len = 0
  · refine ⟨[], by rw [if_pos none, none], ?_⟩
    rw [none, slice_zero]
    rfl
  · have held := valid.held
    have room : ba.position < ba.capacity := by omega
    obtain ⟨iovs, walked, contents⟩ := readBuffersLoop_eq valid.positive
      (valid.uniform.drop (ba.position / ba.nodeSize)) rfl (Nat.mod_lt _ valid.positive)
      (Nat.pos_of_ne_zero none) (valid.fits_chain room (show ba.position + len ≤ _ by omega))
    rw [valid.slice_chain room] at contents
    exact ⟨iovs, by simp only [if_neg none, valid.cur_of_room room, chain, Option.getD_some,
      walked], contents⟩

/-- `GetWriteBuffers` makes room and leaves the data. -/
theorem Valid.getWriteBuffers_eq (valid : Valid ba) (len : Nat) :
    ∃ iovs after, getWriteBuffers len ba = .ok (iovs, len) after ∧
      Represents after (if len = 0 then valid.flat else valid.flat.reserve len) ∧
      after.endian = ba.endian := by
  by_cases none : len = 0
  · subst none
    exact ⟨[], ba, rfl, ⟨valid, rfl⟩, rfl⟩
  · obtain ⟨grown, same, fits⟩ := valid.reserved len
    have endian := addFreeCapacity_endian ba len
    simp only [getWriteBuffers, if_neg none]
    generalize ba.addFreeCapacity len = reserved at *
    have room : reserved.position < reserved.capacity := by omega
    obtain ⟨iovs, walked⟩ := writeBuffersLoop_isSome grown.positive
      (reserved.position / reserved.nodeSize)
      (grown.uniform.drop (reserved.position / reserved.nodeSize))
      (Nat.mod_lt _ grown.positive) (Nat.pos_of_ne_zero none) (grown.fits_chain room fits)
    exact ⟨iovs, reserved, by simp only [grown.cur_of_room room, chain, Option.getD_some, walked],
      ⟨grown, same⟩, endian⟩

end Calls

section Runs

variable {ba : ByteArray} {flat : FlatArray}

/-- One call shows the same on both sides and leaves them in step. -/
theorem Represents.step (represents : Represents ba flat) (op : Op) :
    (ba.step op).2 = (flat.step op).2 ∧ Represents (ba.step op).1 (flat.step op).1 := by
  obtain ⟨valid, rfl⟩ := represents
  cases op with
  | write buf =>
      obtain ⟨after, wrote, represents, -⟩ := valid.write_eq buf
      simp only [ByteArray.step, Action.observe, wrote]
      exact ⟨rfl, represents⟩
  | read size positive =>
      by_cases enough : size ≤ valid.flat.readSize
      · obtain ⟨after, done, represents, -⟩ := valid.read_eq positive enough
        simp only [ByteArray.step, Action.observe, done, FlatArray.step, dif_pos enough]
        exact ⟨rfl, represents⟩
      · simp only [ByteArray.step, Action.observe, valid.read_short enough, FlatArray.step,
          dif_neg enough]
        exact ⟨trivial, valid, rfl⟩
  | setPosition pos =>
      by_cases within : pos ≤ valid.flat.storage.length
      · obtain ⟨after, moved, represents, -⟩ := valid.setPosition_eq within
        simp only [ByteArray.step, Action.observe, moved, FlatArray.step, dif_pos within]
        exact ⟨trivial, represents⟩
      · simp only [ByteArray.step, Action.observe, valid.setPosition_beyond within,
          FlatArray.step, dif_neg within]
        exact ⟨trivial, valid, rfl⟩
  | clear =>
      obtain ⟨after, cleared, represents, -⟩ := valid.clear_eq
      simp only [ByteArray.step, Action.observe, cleared]
      exact ⟨rfl, represents⟩
  | getReadBuffers len =>
      obtain ⟨iovs, got, contents⟩ := valid.getReadBuffers_eq len
      simp only [ByteArray.step, Action.observe, got, contents]
      exact ⟨rfl, valid, rfl⟩
  | getWriteBuffers len =>
      obtain ⟨iovs, after, got, represents, -⟩ := valid.getWriteBuffers_eq len
      simp only [ByteArray.step, Action.observe, got]
      exact ⟨rfl, represents⟩

theorem Represents.run (represents : Represents ba flat) (ops : List Op) :
    (ba.run ops).2 = (flat.run ops).2 ∧ Represents (ba.run ops).1 (flat.run ops).1 := by
  induction ops generalizing ba flat with
  | nil => exact ⟨rfl, represents⟩
  | cons op ops ih =>
      obtain ⟨same, next⟩ := represents.step op
      obtain ⟨outcomes, last⟩ := ih next
      exact ⟨congrArg₂ List.cons same outcomes, last⟩

/-- From an empty array with nodes of any size, every sequence of calls keeps the
invariant and shows what it shows on the flat array, which the array stands for. -/
theorem run_represents_flat (nodeSize : Nat) (positive : 0 < nodeSize) (fresh : Nat → Byte)
    (ops : List Op) :
    ((make nodeSize fresh).run ops).2 = ((FlatArray.make nodeSize positive fresh).run ops).2 ∧
      Represents ((make nodeSize fresh).run ops).1
        ((FlatArray.make nodeSize positive fresh).run ops).1 :=
  (make_represents nodeSize positive fresh).run ops

/-- Nodes of two bytes, written across a boundary and read back at another. -/
theorem run_represents_flat_two :
    0 < 2 ∧
      ((make 2 fun _ => 0).run [.write [1, 2, 3], .setPosition 1, .read 2 (by decide)]).2 =
        ((FlatArray.make 2 (by decide) fun _ => 0).run
          [.write [1, 2, 3], .setPosition 1, .read 2 (by decide)]).2 ∧
      Represents ((make 2 fun _ => 0).run
          [.write [1, 2, 3], .setPosition 1, .read 2 (by decide)]).1
        ((FlatArray.make 2 (by decide) fun _ => 0).run
          [.write [1, 2, 3], .setPosition 1, .read 2 (by decide)]).1 :=
  ⟨by decide, run_represents_flat 2 (by decide) (fun _ => 0) _⟩

end Runs

end Xten.ByteArray
