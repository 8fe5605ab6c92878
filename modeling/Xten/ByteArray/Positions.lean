import Xten.ByteArray.Exposure

/-!
# Reads at a position

The calls that read from a position of their own and leave the cursor alone. Both compute
what is left behind the position as `_size - position`, which wraps for a position beyond
the data.
-/

namespace Xten.ByteArray

open Std.Chunks

/-- `GetReadBuffers(buffers, len, pos)`. -/
def getReadBuffersAt (len pos : Nat) : Action (List Iovec × Nat) := fun ba =>
  let canRead := ba.sizeFrom pos
  let len := min canRead len
  if len = 0 then
    .ok ([], 0) ba
  else
    match readBuffersLoop (ba.chain (ba.nodeAt (ba.linkCount pos))) (ba.linkCount pos)
        (pos % ba.nodeSize) len with
    | none => .error .nullNode ba
    | some iovs => .ok (iovs, len) ba

/-- A positional read returns the bytes at its position if they are all there, and throws
otherwise. The array is left as it was. -/
def ReadsAt (ba : ByteArray) (size position : Nat) : Prop :=
  readAt size position ba =
    if position + size ≤ ba.size then .ok (slice ba.storage position size) ba
    else .error (.outOfRange "no enough readSize") ba

/-- The regions handed out for a position are those of the bytes that are there, and none
behind the data. The array is left as it was. -/
def ExposesAt (ba : ByteArray) (len pos : Nat) : Prop :=
  ∃ iovs, getReadBuffersAt len pos ba = .ok (iovs, min len (ba.size - pos)) ba ∧
    Exposes pos (min len (ba.size - pos)) iovs ba ∧
    iovs.flatMap ba.iovecBytes = slice ba.storage pos (min len (ba.size - pos)) ∧
    (ba.size ≤ pos → iovs = [])

variable {ba : ByteArray}

/-- Within the data nothing wraps. -/
theorem sizeFrom_eq {position : Nat} (small : ba.size < 2 ^ 64) (within : position ≤ ba.size) :
    ba.sizeFrom position = ba.size - position := by
  rw [sizeFrom]
  omega

/-- Beyond the data there always seems to be something. -/
theorem sizeFrom_pos {position : Nat} (small : ba.size < 2 ^ 64) (word : position < 2 ^ 64)
    (beyond : ba.size < position) : 0 < ba.sizeFrom position := by
  rw [sizeFrom]
  omega

theorem linkCount_eq {position : Nat} (small : position < 2 ^ 63) :
    ba.linkCount position = position / ba.nodeSize :=
  if_pos ((Nat.div_le_self _ _).trans_lt small)

/-- The chain from the node of a position in the storage. -/
theorem Valid.chain_linkCount (valid : Valid ba) {position : Nat} (small : ba.capacity < 2 ^ 63)
    (room : position < ba.capacity) :
    ba.chain (ba.nodeAt (ba.linkCount position)) = ba.nodes.drop (position / ba.nodeSize) := by
  rw [linkCount_eq (room.trans small), nodeAt, if_pos (valid.index_lt room), chain]

/-- A read of nothing needs a node, and takes nothing of it. -/
theorem readLoop_zero {nodes : List (List Byte)} (some : nodes ≠ []) (npos : Nat) :
    readLoop nodes npos 0 = .some ([], 0) := by
  cases nodes with
  | nil => exact absurd rfl some
  | cons node rest => rfl

/-- A positional read within the data, from a node. -/
theorem Valid.readAt_eq (valid : Valid ba) (small : ba.capacity < 2 ^ 63) {size position : Nat}
    (there : position + size ≤ ba.size) (room : position < ba.capacity) :
    readAt size position ba = .ok (slice ba.storage position size) ba := by
  have held := valid.held
  have left : ¬ ba.sizeFrom position < size := by
    rw [sizeFrom_eq (by omega) (by omega)]
    omega
  simp only [readAt, if_neg left, valid.chain_linkCount small room]
  rcases Nat.eq_zero_or_pos size with rfl | some
  · have nodes : ba.nodes.drop (position / ba.nodeSize) ≠ [] := by
      rw [Ne, List.drop_eq_nil_iff]
      exact Nat.not_le.mpr (valid.index_lt room)
    rw [readLoop_zero nodes, slice_zero]
  · have walked := readLoop_eq valid.positive (valid.uniform.drop (position / ba.nodeSize))
      (Nat.mod_lt position valid.positive) some
      (valid.fits_chain room (there.trans held))
    rw [walked, valid.slice_chain room]

/-- A positional read that is accepted beyond the data does not throw. -/
theorem readAt_ne_error {size position : Nat} (accepted : ¬ ba.sizeFrom position < size)
    (what : String) : readAt size position ba ≠ .error (.outOfRange what) ba := by
  simp only [readAt, if_neg accepted]
  cases readLoop (ba.chain (ba.nodeAt (ba.linkCount position))) (position % ba.nodeSize) size <;>
    simp

/-- A positional read does what it should within the data, unless it is a read of nothing at
the end of the last node; beyond the data, if what seems to be left there is not enough. -/
theorem Valid.readsAt_iff (valid : Valid ba) (small : ba.capacity < 2 ^ 63) (size position : Nat) :
    ReadsAt ba size position ↔
      if position ≤ ba.size then size = 0 → position ≠ ba.capacity
      else ba.sizeFrom position < size := by
  have held := valid.held
  rw [ReadsAt]
  split_ifs with there within within
  · by_cases full : position = ba.capacity
    · have none : size = 0 := by omega
      subst none
      have null : readAt 0 position ba = .error .nullNode ba := by
        have beyond := (valid.readLoop_eq_none_iff 0 (ba.linkCount position)
          (Nat.mod_lt position valid.positive)).mpr (.inl ?_)
        · simp only [readAt, Nat.not_lt_zero, if_false, beyond]
        · rw [linkCount_eq (by omega), Nat.div_add_mod]
          exact full.ge
      rw [null]
      exact iff_of_false (by simp) fun other => other rfl full
    · have room : position < ba.capacity := by omega
      exact iff_of_true (valid.readAt_eq small there room) fun _ => full
  · omega
  · refine iff_of_true (if_pos ?_) fun none => ?_
    · rw [sizeFrom_eq (by omega) within]
      omega
    · omega
  · constructor
    · intro throws
      by_contra accepted
      exact readAt_ne_error accepted _ throws
    · intro rejected
      exact if_pos rejected

theorem Valid.exposesAt_iff (valid : Valid ba) (small : ba.capacity < 2 ^ 63) {len pos : Nat}
    (word : pos < 2 ^ 64) : ExposesAt ba len pos ↔ len = 0 ∨ pos ≤ ba.size := by
  have held := valid.held
  by_cases none : min (ba.sizeFrom pos) len = 0
  · have handed : getReadBuffersAt len pos ba = .ok ([], 0) ba := by
      simp only [getReadBuffersAt, if_pos none]
    have zero : len = 0 ∨ pos ≤ ba.size := by
      by_contra other
      have beyond := sizeFrom_pos (by omega) word (show ba.size < pos by omega)
      omega
    have same : min len (ba.size - pos) = 0 := by
      rcases zero with zero | within
      · omega
      · rw [sizeFrom_eq (by omega) within] at none
        omega
    refine iff_of_true ⟨[], ?_, ⟨?_, ?_, ?_⟩, ?_, fun _ => rfl⟩ zero
    · rw [handed, same]
    · rw [same]
      rfl
    · intro iov member
      cases member
    · exact same.symm
    · rw [same, slice_zero]
      rfl
  · by_cases within : pos ≤ ba.size
    · rw [sizeFrom_eq (by omega) within] at none
      have room : pos < ba.capacity := by omega
      have same : min (ba.size - pos) len = min len (ba.size - pos) := min_comm _ _
      have uniform := valid.uniform.drop (pos / ba.nodeSize)
      have offset := Nat.mod_lt pos valid.positive
      obtain ⟨iovs, walked, contents⟩ := readBuffersLoop_eq valid.positive uniform rfl offset
        (Nat.pos_of_ne_zero none)
        (valid.fits_chain room (show pos + min (ba.size - pos) len ≤ ba.capacity by omega))
      obtain ⟨covered, inside⟩ :=
        readBuffersLoop_positions valid.positive uniform offset walked
      rw [valid.slice_chain room, same] at contents
      rw [Nat.div_add_mod, same] at covered
      refine iff_of_true ⟨iovs, ?_, ⟨covered, fun iov member => ?_, ?_⟩, contents, ?_⟩ (.inr within)
      · simp only [getReadBuffersAt, sizeFrom_eq (show ba.size < 2 ^ 64 by omega) within,
          if_neg none, valid.chain_linkCount small room]
        rw [linkCount_eq (room.trans small), walked, same]
      · have bound := inside iov member
        have index := valid.index_lt room
        rw [List.length_drop] at bound
        exact ⟨by omega, bound.2⟩
      · rw [← length_positions ba.nodeSize, covered, List.length_range']
      · intro past
        omega
    · refine iff_of_false ?_ (by omega)
      rintro ⟨iovs, handed, -⟩
      simp only [getReadBuffersAt, if_neg none] at handed
      split at handed
      · cases handed
      · simp only [EStateM.Result.ok.injEq, Prod.mk.injEq] at handed
        omega

/-- Both positional reads, in every state that an array reaches and for all arguments. An
array is smaller than the address space. -/
theorem positional_iff {nodeSize : Nat} {fresh : Nat → Byte} (positive : 0 < nodeSize)
    (reached : Reachable nodeSize fresh ba) (small : ba.capacity < 2 ^ 63)
    (size len pos : BitVec 64) :
    (ReadsAt ba size.toNat pos.toNat ↔
      if pos.toNat ≤ ba.size then size.toNat = 0 → pos.toNat ≠ ba.capacity
      else ba.sizeFrom pos.toNat < size.toNat) ∧
    (ExposesAt ba len.toNat pos.toNat ↔ len.toNat = 0 ∨ pos.toNat ≤ ba.size) :=
  ⟨(reached.valid positive).readsAt_iff small _ _,
    (reached.valid positive).exposesAt_iff small pos.isLt⟩

/-- Two bytes in a node of four, read from the second on and from behind the data. -/
theorem positional_iff_two :
    ∃ ba, Reachable 4 (fun _ => 0) ba ∧
      (ReadsAt ba 1 1 ↔ if 1 ≤ ba.size then 1 = 0 → 1 ≠ ba.capacity else ba.sizeFrom 1 < 1) ∧
      (ExposesAt ba 9 3 ↔ 9 = 0 ∨ 3 ≤ ba.size) := by
  have reached : Reachable 4 (fun _ => 0) (Std.Programs.final (write [1, 2] (make 4 fun _ => 0))) :=
    .returned .made (.write [1, 2]) rfl
  exact ⟨_, reached, (positional_iff (by decide) reached (by decide) 1 0 1).1,
    (positional_iff (by decide) reached (by decide) 0 9 3).2⟩

/-- Behind two bytes of data both calls hand out what the node happens to hold. -/
theorem positional_beyond :
    ∃ ba, Reachable 4 (fun _ => 0) ba ∧ ba.size = 2 ∧ ¬ ReadsAt ba 1 3 ∧ ¬ ExposesAt ba 1 3 := by
  have reached : Reachable 4 (fun _ => 0) (Std.Programs.final (write [1, 2] (make 4 fun _ => 0))) :=
    .returned .made (.write [1, 2]) rfl
  have valid := reached.valid (by decide)
  refine ⟨_, reached, rfl, ?_, ?_⟩
  · rw [valid.readsAt_iff (by decide)]
    decide
  · rw [valid.exposesAt_iff (by decide) (by decide)]
    decide

end Xten.ByteArray
