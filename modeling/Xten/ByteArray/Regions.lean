import Xten.ByteArray.Cursor

/-!
# Regions handed to the kernel

What a system call does with the regions of a byte array. `GetWriteBuffers` hands out
whole ends of nodes, so that a receive may fill more than was asked for; the cursor is
then moved past whatever came.
-/

namespace Xten.ByteArray

open Std.Chunks

/-- What a receive leaves in the nodes: the regions are filled one after the other. -/
def scatter : List Iovec → List Byte → ByteArray → ByteArray
  | [], _, ba => ba
  | iov :: iovs, data, ba =>
      scatter iovs (data.drop iov.len)
        { ba with nodes := ba.nodes.modify iov.node (overwrite · iov.offset (data.take iov.len)) }

/-- Number of bytes in some regions. -/
def total (iovs : List Iovec) : Nat :=
  (iovs.map (·.len)).sum

/-- Number of bytes from a position to the end of the node that holds the last of the
next `len` bytes. -/
def reach (nodeSize position len : Nat) : Nat :=
  nodeSize * ((position + len + nodeSize - 1) / nodeSize) - position

theorem le_reach {nodeSize : Nat} (positive : 0 < nodeSize) (position len : Nat) :
    len ≤ reach nodeSize position len := by
  have covers := FlatArray.le_mul_ceil positive (position + len)
  rw [reach]
  omega

/-- Only the offset in its node matters of a position. -/
theorem reach_mod {nodeSize : Nat} (positive : 0 < nodeSize) (position len : Nat) :
    reach nodeSize (position % nodeSize) len = reach nodeSize position len := by
  have whole := Nat.div_add_mod position nodeSize
  have quotient : (position + len + nodeSize - 1) / nodeSize =
      position / nodeSize + (position % nodeSize + len + nodeSize - 1) / nodeSize := by
    have split : position + len + nodeSize - 1 =
        nodeSize * (position / nodeSize) + (position % nodeSize + len + nodeSize - 1) := by
      omega
    rw [split, Nat.mul_add_div positive]
  rw [reach, reach, quotient, Nat.mul_add]
  omega

/-- The end of a node that is reached within it. -/
theorem reach_in_node {nodeSize npos len : Nat} (inside : npos < nodeSize) (some : 0 < len)
    (last : len ≤ nodeSize - npos) : reach nodeSize npos len = nodeSize - npos := by
  have one : (npos + len + nodeSize - 1) / nodeSize = 1 := by
    apply Nat.div_eq_of_lt_le <;> omega
  rw [reach, one, Nat.mul_one]

/-- The end of a later node, from the start of the next one. -/
theorem reach_past_node {nodeSize : Nat} (positive : 0 < nodeSize) {npos len : Nat}
    (inside : npos < nodeSize) (beyond : nodeSize - npos < len) :
    reach nodeSize npos len = nodeSize - npos + reach nodeSize 0 (len - (nodeSize - npos)) := by
  have shift : npos + len + nodeSize - 1 =
      0 + (len - (nodeSize - npos)) + nodeSize - 1 + nodeSize := by
    omega
  have covers := FlatArray.le_mul_ceil positive (0 + (len - (nodeSize - npos)))
  rw [reach, reach, shift, Nat.add_div_right _ positive, Nat.mul_succ]
  omega

section Walk

variable {width : Nat} {nodes : List (List Byte)}

/-- A walk ends in its first node, or goes on behind it. -/
theorem writeBuffersLoop_walked {node : List Byte} {index npos len : Nat} {iovs : List Iovec}
    (head : node.length = width)
    (walked : writeBuffersLoop (node :: nodes) index npos len = .some iovs) :
    len ≤ width - npos ∧ iovs = [⟨index, npos, width - npos⟩] ∨
      width - npos < len ∧ ∃ others,
        writeBuffersLoop nodes (index + 1) 0 (len - (width - npos)) = .some others ∧
          iovs = ⟨index, npos, width - npos⟩ :: others := by
  simp only [writeBuffersLoop, head] at walked
  by_cases last : len ≤ width - npos
  · rw [if_pos last] at walked
    exact .inl ⟨last, (Option.some.inj walked).symm⟩
  · rw [if_neg last] at walked
    obtain ⟨others, again, same⟩ := Option.map_eq_some_iff.mp walked
    exact .inr ⟨Nat.lt_of_not_le last, others, again, same.symm⟩

theorem readBuffersLoop_walked {node : List Byte} {index npos len : Nat} {iovs : List Iovec}
    (head : node.length = width)
    (walked : readBuffersLoop (node :: nodes) index npos len = .some iovs) :
    len ≤ width - npos ∧ iovs = [⟨index, npos, len⟩] ∨
      width - npos < len ∧ ∃ others,
        readBuffersLoop nodes (index + 1) 0 (len - (width - npos)) = .some others ∧
          iovs = ⟨index, npos, width - npos⟩ :: others := by
  simp only [readBuffersLoop, head] at walked
  by_cases last : len ≤ width - npos
  · rw [if_pos last] at walked
    exact .inl ⟨last, (Option.some.inj walked).symm⟩
  · rw [if_neg last] at walked
    obtain ⟨others, again, same⟩ := Option.map_eq_some_iff.mp walked
    exact .inr ⟨Nat.lt_of_not_le last, others, again, same.symm⟩

/-- The regions of `GetWriteBuffers` run to the end of the last node they touch. -/
theorem total_writeBuffersLoop (positive : 0 < width) {index npos len : Nat} {iovs : List Iovec}
    (uniform : Uniform width nodes) (inside : npos < width) (some : 0 < len)
    (walked : writeBuffersLoop nodes index npos len = .some iovs) :
    total iovs = reach width npos len := by
  induction nodes generalizing index npos len iovs with
  | nil => cases walked
  | cons node rest ih =>
      obtain ⟨head, tail⟩ := uniform.uncons
      obtain ⟨last, rfl⟩ | ⟨more, others, again, rfl⟩ := writeBuffersLoop_walked head walked
      · rw [reach_in_node inside some last]
        rfl
      · have sum : total (⟨index, npos, width - npos⟩ :: others) =
            width - npos + total others := by
          rw [total, List.map_cons, List.sum_cons, total]
        rw [sum, ih tail positive (by omega) again, reach_past_node positive inside more]

theorem scatter_nil (iovs : List Iovec) (ba : ByteArray) : scatter iovs [] ba = ba := by
  induction iovs generalizing ba with
  | nil => rfl
  | cons iov iovs ih =>
      have same : ba.nodes.modify iov.node (overwrite · iov.offset ([].take iov.len)) =
          ba.nodes := by
        have unchanged : (overwrite · iov.offset ([].take iov.len)) = (id : List Byte → _) := by
          funext node
          simp [overwrite]
        rw [unchanged, List.modify_id]
      rw [scatter, List.drop_nil, same]
      exact ih ba

/-- Filling the regions of `GetWriteBuffers` changes the nodes as `Write` does. -/
theorem scatter_writeBuffersLoop {lead : List (List Byte)} {index npos len : Nat}
    {iovs : List Iovec} {ba : ByteArray} (same : ba.nodes = lead ++ nodes)
    (start : lead.length = index) {data : List Byte} {written : List (List Byte)} {steps : Nat}
    (walked : writeBuffersLoop nodes index npos len = .some iovs)
    (room : data.length ≤ total iovs)
    (wrote : writeLoop nodes npos data = .some (written, steps)) :
    scatter iovs data ba = { ba with nodes := lead ++ written } := by
  subst start
  induction nodes generalizing lead npos len iovs ba data written steps with
  | nil => cases walked
  | cons node rest ih =>
      have first (piece : List Byte) :
          ba.nodes.modify lead.length (overwrite · npos piece) =
            lead ++ overwrite node npos piece :: rest := by
        rw [same, List.modify_eq_take_drop, List.take_left, List.drop_left, List.modifyHead_cons]
      simp only [writeBuffersLoop] at walked
      simp only [writeLoop] at wrote
      by_cases last : len ≤ node.length - npos
      · rw [if_pos last] at walked
        cases walked
        have fits : data.length ≤ node.length - npos := by
          simpa [total] using room
        rw [if_pos fits] at wrote
        cases wrote
        simp only [scatter, first, List.take_of_length_le fits]
      · rw [if_neg last] at walked
        obtain ⟨others, again, rfl⟩ := Option.map_eq_some_iff.mp walked
        simp only [scatter, first]
        by_cases fits : data.length ≤ node.length - npos
        · rw [if_pos fits] at wrote
          cases wrote
          rw [List.take_of_length_le fits, List.drop_eq_nil_of_le fits, scatter_nil]
        · rw [if_neg fits] at wrote
          obtain ⟨⟨tail, more⟩, rest', pair⟩ := Option.map_eq_some_iff.mp wrote
          cases pair
          have left : (data.drop (node.length - npos)).length ≤ total others := by
            have sum : data.length ≤ node.length - npos + total others := room
            rw [List.length_drop]
            omega
          have index : (lead ++ [overwrite node npos (data.take (node.length - npos))]).length =
              lead.length + 1 := by
            simp
          rw [← index] at again
          have shifted : { ba with
              nodes := lead ++ overwrite node npos (data.take (node.length - npos)) :: rest }.nodes =
              lead ++ [overwrite node npos (data.take (node.length - npos))] ++ rest := by
            simp
          have filled := ih shifted left rest' again
          rw [List.append_assoc] at filled
          exact filled

end Walk

section Calls

variable {ba : ByteArray}

/-- A node end that is reached lies within the nodes. -/
theorem Valid.reach_fits (valid : Valid ba) {len : Nat}
    (fits : ba.position + len ≤ ba.capacity) (some : 0 < len) :
    ba.position + reach ba.nodeSize ba.position len ≤ ba.capacity := by
  have positive := valid.positive
  have count : (ba.position + len + ba.nodeSize - 1) / ba.nodeSize ≤ ba.nodes.length := by
    rw [valid.capacity, Nat.mul_comm] at fits
    apply Nat.le_of_lt_succ
    rw [Nat.div_lt_iff_lt_mul positive, Nat.succ_mul]
    omega
  have product := Nat.mul_le_mul_left ba.nodeSize count
  have covers := FlatArray.le_mul_ceil positive (ba.position + len)
  rw [reach, valid.capacity]
  omega

/-- The regions are filled with some bytes and the cursor is moved past them: what was
there is overwritten from the cursor on. -/
theorem Valid.fill (valid : Valid ba) {data : List Byte} (some : 0 < data.length)
    (fits : ba.position + data.length ≤ ba.capacity) {len : Nat} {iovs : List Iovec}
    (walked : writeBuffersLoop (ba.chain ba.cur) (ba.cur.getD 0) (ba.position % ba.nodeSize) len =
      .some iovs)
    (within : data.length ≤ total iovs) :
    ∃ after, setPosition (ba.position + data.length) (scatter iovs data ba) = .ok () after ∧
      Represents after (valid.flat.put data (valid.flat_fits fits)) ∧
      after.endian = ba.endian := by
  have room : ba.position < ba.capacity := by omega
  obtain ⟨written, steps, wrote, put⟩ := valid.put some fits
  rw [valid.cur_of_room room] at walked wrote put
  obtain ⟨validPut, flat⟩ := put
  have filled := scatter_writeBuffersLoop
    (List.take_append_drop (ba.position / ba.nodeSize) ba.nodes).symm
    (List.length_take_of_le (valid.index_lt room).le) walked within wrote
  -- Until it is moved, the cursor is the one from before.
  have validFilled : Valid { ba with
      nodes := ba.nodes.take (ba.position / ba.nodeSize) ++ written } :=
    ⟨valid.positive, validPut.uniform, validPut.root, validPut.capacity, valid.inside,
      valid.held, valid.cur⟩
  have inside : ba.position + data.length ≤ validFilled.flat.storage.length :=
    validFilled.flat_fits fits
  obtain ⟨after, moved, represents, kept⟩ := validFilled.setPosition_eq inside
  rw [filled]
  refine ⟨after, moved, ?_, kept⟩
  rw [← flat]
  exact represents

/-- `GetWriteBuffers` makes room and walks the nodes from the cursor on. -/
theorem Valid.getWriteBuffers_walks (valid : Valid ba) {len : Nat} (some : 0 < len) :
    ∃ iovs grown, ∃ validGrown : Valid grown, getWriteBuffers len ba = .ok (iovs, len) grown ∧
      validGrown.flat = valid.flat.reserve len ∧ grown.endian = ba.endian ∧
      grown.position = ba.position ∧ grown.nodeSize = ba.nodeSize ∧
      grown.position + len ≤ grown.capacity ∧
      writeBuffersLoop (grown.nodes.drop (grown.position / grown.nodeSize))
        (grown.position / grown.nodeSize) (grown.position % grown.nodeSize) len = .some iovs := by
  obtain ⟨grown, same, fits⟩ := valid.reserved len
  have endian := addFreeCapacity_endian ba len
  have position : (ba.addFreeCapacity len).position = ba.position :=
    (congrArg FlatArray.position same).trans (valid.flat.reserve_position len)
  have nodeSize : (ba.addFreeCapacity len).nodeSize = ba.nodeSize :=
    (congrArg FlatArray.nodeSize same).trans (valid.flat.reserve_nodeSize len)
  simp only [getWriteBuffers, if_neg some.ne']
  generalize ba.addFreeCapacity len = reserved at *
  have room : reserved.position < reserved.capacity := by omega
  obtain ⟨iovs, walked⟩ := writeBuffersLoop_isSome grown.positive
    (reserved.position / reserved.nodeSize)
    (grown.uniform.drop (reserved.position / reserved.nodeSize))
    (Nat.mod_lt reserved.position grown.positive) some (grown.fits_chain room fits)
  have found : writeBuffersLoop (reserved.chain reserved.cur) (reserved.cur.getD 0)
      (reserved.position % reserved.nodeSize) len = .some iovs := by
    rw [grown.cur_of_room room]
    exact walked
  exact ⟨iovs, reserved, grown, by simp only [found], same, endian, position, nodeSize, fits, walked⟩

/-- Regions are handed out for some bytes and filled with whatever comes. -/
theorem Valid.receive (valid : Valid ba) {len : Nat} (some : 0 < len) :
    ∃ iovs grown, getWriteBuffers len ba = .ok (iovs, len) grown ∧
      grown.position = ba.position ∧ total iovs = reach ba.nodeSize ba.position len ∧
      ∀ data : List Byte, 0 < data.length → data.length ≤ total iovs →
        ∃ fits after, setPosition (grown.position + data.length) (scatter iovs data grown) =
            .ok () after ∧
          Represents after ((valid.flat.reserve len).put data fits) ∧
          after.endian = ba.endian := by
  obtain ⟨iovs, reserved, grown, handed, same, endian, position, nodeSize, fits, walked⟩ :=
    valid.getWriteBuffers_walks some
  have room : reserved.position < reserved.capacity := by omega
  have sum := total_writeBuffersLoop grown.positive
    (grown.uniform.drop (reserved.position / reserved.nodeSize))
    (Nat.mod_lt reserved.position grown.positive) some walked
  rw [reach_mod grown.positive] at sum
  have bound := grown.reach_fits fits some
  rw [← sum] at bound
  have found : writeBuffersLoop (reserved.chain reserved.cur) (reserved.cur.getD 0)
      (reserved.position % reserved.nodeSize) len = .some iovs := by
    rw [grown.cur_of_room room]
    exact walked
  refine ⟨iovs, reserved, handed, position, ?_, ?_⟩
  · rw [sum, nodeSize, position]
  · intro data more within
    have held : reserved.position + data.length ≤ reserved.capacity := by omega
    obtain ⟨after, moved, represents, kept⟩ := grown.fill more held found within
    rw [FlatArray.put_congr same] at represents
    exact ⟨_, after, moved, represents, kept.trans endian⟩

end Calls

section Filling

/-- An array that is being filled up to a number of bytes: no more room has been made
than they take. -/
def Filling (endian : Endian) (nodeSize limit : Nat) (before : List Byte) (ba : ByteArray) :
    Prop :=
  ∃ capacity, At endian nodeSize capacity before [] ba ∧ capacity ≤ capacityFor nodeSize limit

variable {endian : Endian} {nodeSize limit : Nat} {before : List Byte} {ba : ByteArray}

theorem make_filling (positive : 0 < nodeSize) (fresh : Nat → Byte) (limit : Nat) :
    Filling .big nodeSize limit [] (make nodeSize fresh) := by
  refine ⟨_, make_filled positive fresh, ?_⟩
  apply Nat.mul_le_mul_left
  apply max_le_max (Nat.le_refl 1)
  apply Nat.div_le_div_right
  simp only [List.length_nil]
  omega

/-- Room for bytes within the limit takes no more nodes than the limit does. -/
theorem Valid.reserve_le (valid : Valid ba) {len : Nat} (within : ba.position + len ≤ limit)
    (bounded : ba.capacity ≤ capacityFor ba.nodeSize limit) :
    (valid.flat.reserve len).storage.length ≤ capacityFor ba.nodeSize limit := by
  rw [FlatArray.reserve]
  split_ifs with enough
  · exact valid.length_storage.trans_le bounded
  · have inside := valid.inside.trans valid.held
    have length : valid.flat.storage.length = ba.capacity := valid.length_storage
    have position : valid.flat.position = ba.position := rfl
    have extended : (valid.flat.extend (valid.flat.nodeSize * valid.flat.missing len)).storage.length =
        ba.nodeSize * (ba.nodes.length + valid.flat.missing len) := by
      rw [Nat.mul_add, ← valid.capacity, ← length]
      simp only [FlatArray.extend, newNode, List.length_append, List.length_map, List.length_range]
      rfl
    have blocks : ba.nodes.length + valid.flat.missing len =
        (ba.nodeSize * ba.nodes.length + (len - (ba.capacity - ba.position) + ba.nodeSize - 1)) /
          ba.nodeSize := by
      rw [Nat.mul_add_div valid.positive, FlatArray.missing, length]
      rfl
    rw [extended, blocks, capacityFor, ← valid.capacity]
    apply Nat.mul_le_mul_left
    apply le_max_of_le_right
    apply Nat.div_le_div_right
    omega

/-- One receive of an array that is being filled. -/
theorem Filling.receive (filling : Filling endian nodeSize limit before ba) {len : Nat}
    (some : 0 < len) (within : before.length + len ≤ limit) :
    ∃ iovs grown, getWriteBuffers len ba = .ok (iovs, len) grown ∧
      total iovs = reach nodeSize before.length len ∧
      ∀ data : List Byte, 0 < data.length → data.length ≤ total iovs →
        ∃ after, setPosition (grown.position + data.length) (scatter iovs data grown) =
            .ok () after ∧
          Filling endian nodeSize limit (before ++ data) after := by
  obtain ⟨capacity, cut, bounded⟩ := filling
  obtain ⟨flat, ⟨valid, rfl⟩, holds⟩ := cut.flat
  have position : ba.position = before.length := holds.position
  have size : ba.nodeSize = nodeSize := holds.nodeSize
  have full : ba.capacity = capacity := valid.length_storage.symm.trans holds.capacity
  obtain ⟨iovs, grown, handed, -, sum, filled⟩ := valid.receive some
  rw [position, size] at sum
  refine ⟨iovs, grown, handed, sum, fun data more fits => ?_⟩
  obtain ⟨inside, after, moved, represents, kept⟩ := filled data more fits
  have room := valid.reserve_le (position.symm ▸ within) (by rwa [full, size])
  rw [size] at room
  exact ⟨after, moved, _, ⟨kept.trans cut.endian, _, represents, (holds.reserve len).put inside⟩,
    room⟩

/-- At the limit the array is as if it had been written. -/
theorem Filling.full (filling : Filling endian nodeSize limit before ba)
    (reached : before.length = limit) : Filled endian nodeSize before ba := by
  obtain ⟨capacity, cut, bounded⟩ := filling
  obtain ⟨flat, ⟨valid, rfl⟩, holds⟩ := cut.flat
  have positive := valid.positive
  have size : ba.nodeSize = nodeSize := holds.nodeSize
  have position : ba.position = before.length := holds.position
  have full : ba.capacity = capacity := valid.length_storage.symm.trans holds.capacity
  have inside := valid.inside.trans valid.held
  have enough : capacityFor nodeSize limit ≤ capacity := by
    rw [← full, valid.capacity, capacityFor, ← size]
    apply Nat.mul_le_mul_left
    apply max_le (List.length_pos_iff.mpr valid.root)
    apply Nat.le_of_lt_succ
    rw [Nat.div_lt_iff_lt_mul positive, Nat.succ_mul, Nat.mul_comm, ← valid.capacity]
    omega
  have same : capacity = capacityFor nodeSize before.length := by
    rw [reached]
    exact Nat.le_antisymm bounded enough
  rw [Filled, ← same]
  exact cut

end Filling

section Sending

variable {endian : Endian} {nodeSize capacity : Nat} {before after : List Byte} {ba : ByteArray}

theorem At.size_eq (cut : At endian nodeSize capacity before after ba) :
    ba.size = (before ++ after).length := by
  obtain ⟨flat, ⟨valid, rfl⟩, holds⟩ := cut.flat
  exact holds.size

/-- The regions of `GetReadBuffers` hold the bytes after the cursor. -/
theorem At.getReadBuffers_eq (cut : At endian nodeSize capacity before after ba) (len : Nat) :
    ∃ iovs, getReadBuffers len ba = .ok (iovs, min after.length len) ba ∧
      iovs.flatMap ba.iovecBytes = after.take len := by
  obtain ⟨flat, ⟨valid, rfl⟩, holds⟩ := cut.flat
  obtain ⟨iovs, handed, contents⟩ := valid.getReadBuffers_eq len
  have length : (after.take len).length = min after.length len := by
    rw [List.length_take, Nat.min_comm]
  rw [holds.readSize] at handed contents
  rw [← List.take_append_drop len after] at holds
  have taken := holds.taken
  rw [length] at taken
  exact ⟨iovs, handed, contents.trans taken⟩

/-- Moving the cursor on within the data. -/
theorem At.advance (cut : At endian nodeSize capacity before after ba) {count : Nat}
    (enough : count ≤ after.length) :
    ∃ later, setPosition (ba.position + count) ba = .ok () later ∧
      At endian nodeSize capacity (before ++ after.take count) (after.drop count) later := by
  obtain ⟨flat, ⟨valid, rfl⟩, holds⟩ := cut.flat
  have size := holds.size
  have position : valid.flat.position = before.length := holds.position
  have held := valid.flat.held
  rw [List.length_append] at size
  have within : ba.position + count ≤ valid.flat.storage.length := by
    have same : ba.position = valid.flat.position := rfl
    omega
  obtain ⟨later, moved, represents, kept⟩ := valid.setPosition_eq within
  refine ⟨later, moved, kept.trans cut.endian, _, represents, holds.nodeSize, holds.capacity,
    ?_, ?_⟩
  · rw [List.length_append, List.length_take_of_le enough, ← holds.position]
    rfl
  · have whole : max valid.flat.size (ba.position + count) = valid.flat.size := by
      apply Nat.max_eq_left
      have same : ba.position = valid.flat.position := rfl
      omega
    rw [List.append_assoc, List.take_append_drop, ← holds.contents]
    simp only [FlatArray.seek, whole]

end Sending

end Xten.ByteArray
