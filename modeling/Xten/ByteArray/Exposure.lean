import Xten.ByteArray.NullNode
import Xten.ByteArray.Regions

/-!
# The positions that regions cover

Regions are handed out as pieces of nodes. Counted along the chain they cover a run of
positions: that of `GetReadBuffers` ends where the caller asked, and that of
`GetWriteBuffers` at the end of a node.
-/

namespace Xten.ByteArray

open Std.Chunks

/-- The positions in the array that a region covers. -/
def Iovec.positions (nodeSize : Nat) (iov : Iovec) : List Nat :=
  List.range' (nodeSize * iov.node + iov.offset) iov.len

/-- Regions cover the `len` positions from `position` on, in order, without gap or overlap,
each within one node of the array. -/
structure Exposes (position len : Nat) (iovs : List Iovec) (ba : ByteArray) : Prop where
  covered : iovs.flatMap (·.positions ba.nodeSize) = List.range' position len
  within : ∀ iov ∈ iovs, iov.node < ba.nodes.length ∧ iov.offset + iov.len ≤ ba.nodeSize
  sum : total iovs = len

section Walk

variable {width : Nat} {nodes : List (List Byte)}

theorem length_positions (nodeSize : Nat) (iovs : List Iovec) :
    (iovs.flatMap (·.positions nodeSize)).length = total iovs := by
  induction iovs with
  | nil => rfl
  | cons iov iovs ih =>
      rw [List.flatMap_cons, List.length_append, ih, Iovec.positions, List.length_range', total,
        total, List.map_cons, List.sum_cons]

/-- The rest of a node and what is covered from the next node on. -/
theorem positions_past_node {npos : Nat} (inside : npos < width) (index more : Nat) :
    List.range' (width * index + npos) (width - npos) ++ List.range' (width * (index + 1) + 0) more =
      List.range' (width * index + npos) (width - npos + more) := by
  have next : width * (index + 1) + 0 = width * index + npos + (width - npos) := by
    rw [Nat.mul_succ]
    omega
  rw [next, List.range'_append_1]

/-- A last region lies within its node. -/
theorem within_last {index npos len count : Nat} (inside : npos < width) (last : len ≤ width - npos) :
    ∀ iov ∈ [(⟨index, npos, len⟩ : Iovec)],
      iov.node < index + (count + 1) ∧ iov.offset + iov.len ≤ width := by
  intro iov member
  obtain rfl := List.mem_singleton.mp member
  exact ⟨by simp, by simp only; omega⟩

/-- The rest of a node lies within it, and the other regions within the next nodes. -/
theorem within_cons {index npos count : Nat} {others : List Iovec} (inside : npos < width)
    (within : ∀ iov ∈ others, iov.node < index + 1 + count ∧ iov.offset + iov.len ≤ width) :
    ∀ iov ∈ (⟨index, npos, width - npos⟩ : Iovec) :: others,
      iov.node < index + (count + 1) ∧ iov.offset + iov.len ≤ width := by
  intro iov member
  rcases List.mem_cons.mp member with rfl | member
  · exact ⟨by simp, by simp only; omega⟩
  · have bound := within iov member
    exact ⟨by omega, bound.2⟩

/-- The regions of `GetWriteBuffers` cover everything up to the end of the last node that
they touch. -/
theorem writeBuffersLoop_positions (positive : 0 < width) {index npos len : Nat}
    {iovs : List Iovec} (uniform : Uniform width nodes) (inside : npos < width) (some : 0 < len)
    (walked : writeBuffersLoop nodes index npos len = .some iovs) :
    iovs.flatMap (·.positions width) =
        List.range' (width * index + npos) (reach width npos len) ∧
      ∀ iov ∈ iovs, iov.node < index + nodes.length ∧ iov.offset + iov.len ≤ width := by
  induction nodes generalizing index npos len iovs with
  | nil => cases walked
  | cons node rest ih =>
      obtain ⟨head, tail⟩ := uniform.uncons
      obtain ⟨last, rfl⟩ | ⟨more, others, again, rfl⟩ := writeBuffersLoop_walked head walked
      · rw [reach_in_node inside some last]
        exact ⟨List.flatMap_singleton _ _, within_last inside (Nat.le_refl _)⟩
      · obtain ⟨covered, within⟩ := ih tail positive (by omega) again
        refine ⟨?_, within_cons inside within⟩
        rw [List.flatMap_cons, covered, reach_past_node positive inside more]
        exact positions_past_node inside index _

/-- The regions of `GetReadBuffers` cover what was asked for. -/
theorem readBuffersLoop_positions (positive : 0 < width) {index npos len : Nat}
    {iovs : List Iovec} (uniform : Uniform width nodes) (inside : npos < width)
    (walked : readBuffersLoop nodes index npos len = .some iovs) :
    iovs.flatMap (·.positions width) = List.range' (width * index + npos) len ∧
      ∀ iov ∈ iovs, iov.node < index + nodes.length ∧ iov.offset + iov.len ≤ width := by
  induction nodes generalizing index npos len iovs with
  | nil => cases walked
  | cons node rest ih =>
      obtain ⟨head, tail⟩ := uniform.uncons
      obtain ⟨last, rfl⟩ | ⟨more, others, again, rfl⟩ := readBuffersLoop_walked head walked
      · exact ⟨List.flatMap_singleton _ _, within_last inside last⟩
      · obtain ⟨covered, within⟩ := ih tail positive again
        refine ⟨?_, within_cons inside within⟩
        have whole : width - npos + (len - (width - npos)) = len := by omega
        rw [List.flatMap_cons, covered]
        exact (positions_past_node inside index _).trans (by rw [whole])

/-- The regions of `GetReadBuffers` are as many as the nodes that they touch. -/
theorem length_readBuffersLoop (positive : 0 < width) {index npos len : Nat} {iovs : List Iovec}
    (uniform : Uniform width nodes) (inside : npos < width) (some : 0 < len)
    (walked : readBuffersLoop nodes index npos len = .some iovs) :
    iovs.length = (npos + len + width - 1) / width := by
  induction nodes generalizing index npos len iovs with
  | nil => cases walked
  | cons node rest ih =>
      obtain ⟨head, tail⟩ := uniform.uncons
      obtain ⟨last, rfl⟩ | ⟨more, others, again, rfl⟩ := readBuffersLoop_walked head walked
      · apply Eq.symm
        apply Nat.div_eq_of_lt_le <;> simp <;> omega
      · have shift : npos + len + width - 1 = 0 + (len - (width - npos)) + width - 1 + width := by
          omega
        rw [List.length_cons, ih tail positive (by omega) again, shift, Nat.add_div_right _ positive]

end Walk

section Reading

variable {endian : Endian} {nodeSize capacity : Nat} {contents : List Byte} {ba : ByteArray}

/-- The regions of all the data: what they hold, how large they are and how many. -/
theorem At.iovecs (cut : At endian nodeSize capacity [] contents ba) :
    ∃ iovs, getReadBuffers ba.getReadSize ba = .ok (iovs, contents.length) ba ∧
      (iovs.map ba.iovecBytes).flatten = contents ∧
      (∀ piece ∈ iovs.map ba.iovecBytes, piece.length ≤ nodeSize) ∧
      iovs.length = (contents.length + nodeSize - 1) / nodeSize := by
  obtain ⟨iovs, handed, held⟩ := cut.getReadBuffers_eq ba.getReadSize
  rw [cut.getReadSize_eq, Nat.min_self] at handed
  rw [cut.getReadSize_eq, List.take_length] at held
  obtain ⟨flat, ⟨valid, rfl⟩, holds⟩ := cut.flat
  have start : ba.position = 0 := holds.position
  have size : ba.nodeSize = nodeSize := holds.nodeSize
  have positive : 0 < nodeSize := size ▸ valid.positive
  have pieces (iov : Iovec) : (ba.iovecBytes iov).length ≤ iov.len := List.length_take_le _ _
  have bounds : (∀ iov ∈ iovs, iov.len ≤ nodeSize) ∧
      iovs.length = (contents.length + nodeSize - 1) / nodeSize := by
    simp only [getReadBuffers, cut.getReadSize_eq, Nat.min_self] at handed
    by_cases none : contents.length = 0
    · rw [if_pos none] at handed
      obtain ⟨pair, -⟩ := EStateM.Result.ok.inj handed
      obtain ⟨rfl, -⟩ := Prod.mk.inj pair
      refine ⟨fun _ member => absurd member List.not_mem_nil, ?_⟩
      rw [none, Nat.div_eq_of_lt (by omega)]
      rfl
    · rw [if_neg none] at handed
      have inside := Nat.mod_lt ba.position valid.positive
      have uniform : Uniform ba.nodeSize (ba.chain ba.cur) := by
        rw [valid.cur]
        split_ifs
        · exact fun _ member => absurd member List.not_mem_nil
        · exact valid.uniform.drop _
      split at handed
      · cases handed
      case h_2 walked =>
        cases handed
        have within := (readBuffersLoop_positions valid.positive uniform inside walked).2
        have count := length_readBuffersLoop valid.positive uniform inside
          (Nat.pos_of_ne_zero none) walked
        rw [start, Nat.zero_mod, Nat.zero_add, size] at count
        refine ⟨fun iov member => ?_, count⟩
        have bound := (within iov member).2
        omega
  refine ⟨iovs, by rwa [cut.getReadSize_eq], held, ?_, bounds.2⟩
  intro piece member
  obtain ⟨iov, here, rfl⟩ := List.mem_map.mp member
  exact (pieces iov).trans (bounds.1 iov here)

end Reading

section Room

variable {ba : ByteArray}

/-- The regions reach no further than asked if a node ends there. -/
theorem reach_eq_iff {nodeSize : Nat} (positive : 0 < nodeSize) (position len : Nat) :
    reach nodeSize position len = len ↔ nodeSize ∣ position + len := by
  have covers := FlatArray.le_mul_ceil positive (position + len)
  rw [reach]
  constructor
  · intro same
    refine ⟨(position + len + nodeSize - 1) / nodeSize, ?_⟩
    omega
  · rintro ⟨count, whole⟩
    have quotient : (position + len + nodeSize - 1) / nodeSize = count := by
      rw [whole, Nat.add_sub_assoc positive, Nat.mul_add_div positive,
        Nat.div_eq_of_lt (Nat.sub_lt positive Nat.one_pos), Nat.add_zero]
    rw [quotient, ← whole, Nat.add_sub_cancel_left]

/-- What `GetWriteBuffers` hands out of a valid array. -/
theorem Valid.getWriteBuffers_positions (valid : Valid ba) {len : Nat} (some : 0 < len) :
    ∃ iovs after, getWriteBuffers len ba = .ok (iovs, len) after ∧ after.nodeSize = ba.nodeSize ∧
      iovs.flatMap (·.positions ba.nodeSize) =
        List.range' ba.position (reach ba.nodeSize ba.position len) ∧
      ∀ iov ∈ iovs, iov.node < after.nodes.length ∧ iov.offset + iov.len ≤ ba.nodeSize := by
  obtain ⟨iovs, reserved, grown, handed, -, -, position, nodeSize, fits, walked⟩ :=
    valid.getWriteBuffers_walks some
  have room : reserved.position < reserved.capacity := by omega
  obtain ⟨covered, within⟩ := writeBuffersLoop_positions grown.positive
    (grown.uniform.drop (reserved.position / reserved.nodeSize))
    (Nat.mod_lt reserved.position grown.positive) some walked
  rw [Nat.div_add_mod, reach_mod grown.positive] at covered
  refine ⟨iovs, reserved, handed, nodeSize, ?_, fun iov member => ?_⟩
  · rw [← nodeSize, ← position, covered]
  · have bound := within iov member
    have index := grown.index_lt room
    rw [List.length_drop] at bound
    exact ⟨by omega, nodeSize ▸ bound.2⟩

/-- `GetWriteBuffers` exposes exactly the region that was asked for, and returns its length,
if nothing was asked for or the region ends with a node. Elsewhere the last region runs on
to the end of its node. -/
theorem getWriteBuffers_exposes_iff {nodeSize : Nat} {fresh : Nat → Byte} (positive : 0 < nodeSize)
    (reached : Reachable nodeSize fresh ba) (len : Nat) :
    (∃ iovs after, getWriteBuffers len ba = .ok (iovs, len) after ∧
        Exposes ba.position len iovs after) ↔
      len = 0 ∨ ba.nodeSize ∣ ba.position + len := by
  have valid := reached.valid positive
  rcases Nat.eq_zero_or_pos len with rfl | some
  · refine iff_of_true ⟨[], ba, rfl, rfl, ?_, rfl⟩ (.inl rfl)
    intro iov member
    cases member
  · obtain ⟨iovs, after, handed, nodeSize, covered, within⟩ := valid.getWriteBuffers_positions some
    rw [← reach_eq_iff valid.positive, or_iff_right some.ne']
    constructor
    · rintro ⟨iovs', after', handed', exposes⟩
      rw [handed] at handed'
      cases handed'
      have length := exposes.sum
      rwa [← length_positions ba.nodeSize, covered, List.length_range'] at length
    · intro exact_
      rw [exact_] at covered
      refine ⟨iovs, after, handed, by rwa [nodeSize], by rwa [nodeSize], ?_⟩
      rw [← length_positions ba.nodeSize, covered, List.length_range']

/-- In nodes of two bytes, the two bytes behind the first one end in the middle of a node,
and the three bytes behind it do not. -/
theorem getWriteBuffers_exposes_iff_two :
    ∃ ba, Reachable 2 (fun _ => 0) ba ∧
      ((∃ iovs after, getWriteBuffers 2 ba = .ok (iovs, 2) after ∧
        Exposes ba.position 2 iovs after) ↔ 2 = 0 ∨ ba.nodeSize ∣ ba.position + 2) ∧
      ((∃ iovs after, getWriteBuffers 3 ba = .ok (iovs, 3) after ∧
        Exposes ba.position 3 iovs after) ↔ 3 = 0 ∨ ba.nodeSize ∣ ba.position + 3) := by
  have reached : Reachable 2 (fun _ => 0) (Std.Programs.final (write [1] (make 2 fun _ => 0))) :=
    .returned .made (.write [1]) rfl
  exact ⟨_, reached, getWriteBuffers_exposes_iff (by decide) reached 2,
    getWriteBuffers_exposes_iff (by decide) reached 3⟩

/-- One byte is asked for, and four are handed out. -/
theorem getWriteBuffers_exposes_more :
    Reachable 4 (fun _ => 0) (make 4 fun _ => 0) ∧
      ¬ ∃ iovs after, getWriteBuffers 1 (make 4 fun _ => 0) = .ok (iovs, 1) after ∧
        Exposes 0 1 iovs after := by
  refine ⟨.made, ?_⟩
  rintro ⟨iovs, after, handed, exposes⟩
  have whole : getWriteBuffers 1 (make 4 fun _ => 0) = .ok ([⟨0, 0, 4⟩], 1) (make 4 fun _ => 0) := rfl
  rw [whole] at handed
  cases handed
  have length : 4 = 1 := exposes.sum
  cases length

end Room

end Xten.ByteArray
