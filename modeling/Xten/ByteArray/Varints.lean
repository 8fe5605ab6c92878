import Xten.ByteArray.NullNode

/-!
# Variable-length numbers from hostile bytes

The loops of `ReadVarUint32` and `ReadVarUint64` go on as long as the bytes say. Which bytes
keep them within the type of the result: those in which the last group that has room there
ends the number and leaves the bits above the type clear.
-/

namespace Xten

open Std.IntegerCodec Std.Programs

/-- A number in groups at the front of some bytes stays within `room` groups, of which the
last has `bits` bits: if all before it go on, it is the end and no larger, or the bytes end
with it. -/
def GroupsFit (room bits : Nat) (bytes : List Byte) : Prop :=
  ∀ lead group rest, bytes = lead ++ group :: rest → lead.length + 1 = room →
    (∀ byte ∈ lead, 0x80 ≤ byte.toNat) →
      if group.toNat < 0x80 then group.toNat < 2 ^ bits else rest = []

namespace GroupsFit

variable {room bits : Nat} {group : Byte} {rest : List Byte}

theorem nil : GroupsFit room bits [] := by
  intro lead group rest split
  simp at split

/-- The last group with room. -/
theorem one_iff : GroupsFit 1 bits (group :: rest) ↔
    if group.toNat < 0x80 then group.toNat < 2 ^ bits else rest = [] := by
  constructor
  · intro fits
    exact fits [] group rest rfl rfl (by simp)
  · intro fits lead group' rest' split length going
    obtain rfl : lead = [] := List.length_eq_zero_iff.mp (by omega)
    cases split
    exact fits

/-- A group with more room behind it. -/
theorem cons_iff (more : 0 < room) : GroupsFit (room + 1) bits (group :: rest) ↔
    (0x80 ≤ group.toNat → GroupsFit room bits rest) := by
  constructor
  · rintro fits large lead group' rest' rfl length going
    apply fits (group :: lead) group' rest' rfl
    · rw [List.length_cons, length]
    · intro byte member
      rcases List.mem_cons.mp member with rfl | member
      · exact large
      · exact going byte member
  · intro fits lead group' rest' split length going
    cases lead with
    | nil =>
        simp only [List.length_nil] at length
        omega
    | cons first lead =>
        obtain ⟨rfl, rfl⟩ := List.cons.inj split
        have large := going group List.mem_cons_self
        exact fits large lead group' rest' rfl (by simpa using length) fun byte member =>
          going byte (List.mem_cons_of_mem _ member)

end GroupsFit

namespace Cursor

def readVarUint32 : Scan (BitVec 32) := do readGroups (← get).after.length 0 0

/-- A number in groups is read soundly, on top of the bits read so far: its bytes are taken,
no more than `room` of them, and make up its value. Nothing but an exception stops the
read. -/
def Sound {width : Nat} (room offset base : Nat) (before after : List Byte) :
    EStateM.Result Fault Cursor (BitVec width) → Prop
  | .error fault _ => ∃ what, fault = .outOfRange what
  | .ok result later => ∃ taken, after = taken ++ later.after ∧
      later.before.length = before.length + taken.length ∧ taken.length ≤ room ∧
      result.toNat = base + 2 ^ offset * base128 taken

variable {width rounds offset room bits base : Nat} {endian : Endian} {capacity : Nat}
  {before after : List Byte} {val : BitVec width}

/-- A read that returns has moved the cursor over the bytes that it took. -/
theorem readGroups_moves (enough : after.length ≤ rounds) {result : BitVec width} {later : Cursor}
    (done : readGroups rounds offset val ⟨endian, capacity, before, after⟩ = .ok result later) :
    ∃ taken, after = taken ++ later.after ∧ later.before = before ++ taken := by
  have read := @readGroups_eq width rounds offset val endian capacity before after enough
  split at read
  · obtain ⟨taken, split, returned⟩ := read
    rw [returned] at done
    cases done
    exact ⟨taken, split, rfl⟩
  · obtain ⟨fault, later', stops, -⟩ := read
    rw [stops] at done
    cases done

/-- A group in front of a number. -/
theorem sound_cons_iff (group : Byte) (enough : after.length ≤ rounds) :
    Sound room (offset + 7) (base + 2 ^ offset * (group.toNat % 0x80)) (before ++ [group]) after
        (readGroups rounds (offset + 7) val ⟨endian, capacity, before ++ [group], after⟩) ↔
      Sound (room + 1) offset base before (group :: after)
        (readGroups rounds (offset + 7) val ⟨endian, capacity, before ++ [group], after⟩) := by
  cases done : readGroups rounds (offset + 7) val ⟨endian, capacity, before ++ [group], after⟩ with
  | error fault later => exact Iff.rfl
  | ok result later =>
      obtain ⟨taken, split, moved⟩ := readGroups_moves enough done
      have value : 2 ^ offset * (group.toNat % 0x80) + 2 ^ (offset + 7) * base128 taken =
          2 ^ offset * base128 (group :: taken) := by
        rw [base128, Nat.mul_add, Nat.pow_add, Nat.mul_assoc]
      constructor
      · rintro ⟨taken', split', -, few, sum⟩
        obtain rfl : taken = taken' := List.append_cancel_right (split.symm.trans split')
        refine ⟨group :: taken, by rw [split, List.cons_append], ?_, ?_, ?_⟩
        · rw [moved, List.append_assoc, List.singleton_append, List.length_append]
        · rw [List.length_cons]
          omega
        · rw [sum, Nat.add_assoc, value]
      · rintro ⟨taken', split', -, few, sum⟩
        rw [split, ← List.cons_append] at split'
        obtain rfl : group :: taken = taken' := List.append_cancel_right split'
        refine ⟨taken, split, by rw [moved, List.length_append], ?_, ?_⟩
        · rw [List.length_cons] at few
          omega
        · rw [sum, Nat.add_assoc, value]

/-- Where no byte is left, the loop throws. -/
theorem readGroups_nil (rounds offset : Nat) (val : BitVec width) (endian : Endian)
    (capacity : Nat) (before : List Byte) :
    readGroups rounds offset val ⟨endian, capacity, before, []⟩ =
      .error (.outOfRange "no enough readSize") ⟨endian, capacity, before, []⟩ := by
  cases rounds with
  | zero => rfl
  | succ rounds => exact bind_error rfl

/-- A group that would be shifted out of the type. -/
theorem readGroups_shift (beyond : width ≤ offset) (rounds : Nat) (val : BitVec width)
    (endian : Endian) (capacity : Nat) (before : List Byte) (group : Byte) (after : List Byte) :
    readGroups (rounds + 1) offset val ⟨endian, capacity, before, group :: after⟩ =
      .error .shift ⟨endian, capacity, before ++ [group], after⟩ := by
  rw [readGroups, bind_ok (readFUint8_append group), if_pos beyond]
  rfl

theorem sound_nil (endian : Endian) (capacity : Nat) :
    Sound room offset base before []
      (readGroups rounds offset val ⟨endian, capacity, before, []⟩) := by
  rw [readGroups_nil]
  exact ⟨_, rfl⟩

/-- The last group of a number. -/
theorem sound_last_iff {group : Byte} (small : group.toNat < 0x80) (inside : offset ≤ width)
    (below : val.toNat < 2 ^ offset) (endian : Endian) (capacity : Nat) :
    Sound (room + 1) offset val.toNat before (group :: after)
        (.ok (val ||| (group.setWidth width <<< offset))
          ⟨endian, capacity, before ++ [group], after⟩) ↔
      group.toNat < 2 ^ (width - offset) := by
  have value := toNat_putGroup group below inside
  have single : base128 [group] = group.toNat := by
    rw [base128, base128, Nat.mod_eq_of_lt small, Nat.mul_zero, Nat.add_zero]
  constructor
  · rintro ⟨taken, split, -, -, sum⟩
    obtain rfl : [group] = taken := @List.append_cancel_right _ _ after _ split
    rw [value, single, Nat.add_left_cancel_iff, Nat.mul_left_cancel_iff (Nat.two_pow_pos _)] at sum
    exact sum ▸ Nat.mod_lt _ (Nat.two_pow_pos _)
  · intro fits
    refine ⟨[group], rfl, List.length_append, by simp, ?_⟩
    rw [value, single, Nat.mod_eq_of_lt fits]

/-- The loop reads a number soundly exactly if its groups fit. -/
theorem readGroups_sound_iff (enough : after.length ≤ rounds)
    (wide : offset + 7 * room + bits = width) (some : 0 < bits) (few : bits ≤ 7)
    (below : val.toNat < 2 ^ offset) :
    Sound (room + 1) offset val.toNat before after
        (readGroups rounds offset val ⟨endian, capacity, before, after⟩) ↔
      GroupsFit (room + 1) bits after := by
  induction room generalizing rounds offset val before after with
  | zero =>
      cases after with
      | nil => exact iff_of_true (sound_nil endian capacity) GroupsFit.nil
      | cons group after =>
          obtain ⟨rounds, rfl⟩ : ∃ fewer, rounds = fewer + 1 := Nat.exists_eq_add_one.mpr
            (lt_of_lt_of_le (Nat.succ_pos _) enough)
          rw [List.length_cons, Nat.add_le_add_iff_right] at enough
          have left : width - offset = bits := by omega
          rw [readGroups, bind_ok (readFUint8_append group), if_neg (show ¬ width ≤ offset by omega),
            GroupsFit.one_iff]
          split_ifs with last
          · have sound := @sound_last_iff width offset 0 before after val group last (by omega)
              below endian capacity
            rwa [left] at sound
          · cases after with
            | nil =>
                rw [readGroups_nil]
                exact iff_of_true ⟨_, rfl⟩ rfl
            | cons next after =>
                obtain ⟨rounds, rfl⟩ : ∃ fewer, rounds = fewer + 1 := Nat.exists_eq_add_one.mpr
                  (lt_of_lt_of_le (Nat.succ_pos _) enough)
                rw [readGroups_shift (by omega)]
                refine iff_of_false ?_ (List.cons_ne_nil _ _)
                rintro ⟨what, thrown⟩
                cases thrown
  | succ room ih =>
      cases after with
      | nil => exact iff_of_true (sound_nil endian capacity) GroupsFit.nil
      | cons group after =>
          obtain ⟨rounds, rfl⟩ : ∃ fewer, rounds = fewer + 1 := Nat.exists_eq_add_one.mpr
            (lt_of_lt_of_le (Nat.succ_pos _) enough)
          rw [List.length_cons, Nat.add_le_add_iff_right] at enough
          have seven : 2 ^ 7 ≤ 2 ^ (width - offset) :=
            Nat.pow_le_pow_right (by decide) (by omega)
          rw [readGroups, bind_ok (readFUint8_append group), if_neg (show ¬ width ≤ offset by omega),
            GroupsFit.cons_iff (Nat.succ_pos room)]
          split_ifs with last
          · refine iff_of_true ?_ fun large => absurd last (Nat.not_lt.mpr large)
            exact (sound_last_iff last (by omega) below endian capacity).mpr (last.trans_le seven)
          · have payload := group.toNat.mod_lt (show 0x80 > 0 by decide)
            have value : (val ||| ((group &&& 0x7F).setWidth width <<< offset)).toNat =
                val.toNat + 2 ^ offset * (group.toNat % 0x80) := by
              rw [toNat_putGroup _ below (by omega), toNat_payload,
                Nat.mod_eq_of_lt (payload.trans_le seven)]
            have bound : val.toNat + 2 ^ offset * (group.toNat % 0x80) < 2 ^ (offset + 7) := by
              have product := Nat.mul_le_mul_left (2 ^ offset) (Nat.le_of_lt_succ payload)
              rw [Nat.pow_add]
              omega
            rw [← sound_cons_iff group enough, ← value]
            rw [ih enough (by omega) (by rw [value]; exact bound)]
            exact ⟨fun fits _ => fits, fun fits => fits (Nat.le_of_not_lt last)⟩

end Cursor

namespace ByteArray

variable {ba : ByteArray}

theorem readVarUint32_simulates : Simulates Shows readVarUint32 Cursor.readVarUint32 := by
  rintro ba cursor ⟨nodeSize, cut⟩
  rw [ByteArray.readVarUint32, Cursor.readVarUint32, get_bind, get_bind, cut.getReadSize_eq]
  exact readGroups_simulates _ _ _ ⟨nodeSize, cut⟩

/-- A variable-length read is safe: it throws, or it moves the cursor over at most `room`
bytes and returns the number that they stand for. No shift is undefined. -/
def VarintSafe {width : Nat} (room : Nat) (read : Action (BitVec width)) (ba : ByteArray) : Prop :=
  match read ba with
  | .error fault _ => ∃ what, fault = .outOfRange what
  | .ok val later => ∃ taken, ba.unread = taken ++ later.unread ∧
      later.position = ba.position + taken.length ∧ taken.length ≤ room ∧
      val.toNat = base128 taken

/-- A read and its specification, from the bytes behind the cursor. -/
theorem Valid.safe_iff (valid : Valid ba) {width room bits : Nat}
    {read : Action (BitVec width)} {spec : Cursor.Scan (BitVec width)}
    (simulates : Simulates Shows read spec)
    (sound : Cursor.Sound room 0 0 ba.cursor.before ba.cursor.after (spec ba.cursor) ↔
      GroupsFit room bits ba.cursor.after) :
    VarintSafe room read ba ↔ GroupsFit room bits ba.unread := by
  have agree := simulates valid.shows
  refine Iff.trans ?_ sound
  rw [VarintSafe]
  generalize read ba = result at agree
  generalize spec ba.cursor = specResult at agree
  cases agree with
  | error fault states => exact Iff.rfl
  | @ok val later cursor states =>
      obtain ⟨nodeSize, cut⟩ := states
      obtain ⟨position, unread⟩ := cut.unread_eq
      have before := valid.length_before_cursor
      simp only [Cursor.Sound, unread, position, before, Nat.pow_zero, Nat.one_mul, Nat.zero_add]
      exact Iff.rfl

theorem Valid.varint32Safe_iff (valid : Valid ba) :
    VarintSafe 5 readVarUint32 ba ↔ GroupsFit 5 4 ba.unread := by
  apply valid.safe_iff readVarUint32_simulates
  exact @Cursor.readGroups_sound_iff 32 ba.cursor.after.length 0 4 4 ba.cursor.endian
    ba.cursor.capacity ba.cursor.before ba.cursor.after 0 (Nat.le_refl _) rfl (by decide)
    (by decide) (by decide)

theorem Valid.varint64Safe_iff (valid : Valid ba) :
    VarintSafe 10 readVarUint64 ba ↔ GroupsFit 10 1 ba.unread := by
  apply valid.safe_iff readVarUint64_simulates
  exact @Cursor.readGroups_sound_iff 64 ba.cursor.after.length 0 9 1 ba.cursor.endian
    ba.cursor.capacity ba.cursor.before ba.cursor.after 0 (Nat.le_refl _) rfl (by decide)
    (by decide) (by decide)

/-- The variable-length reads, in every state that an array reaches. -/
theorem varintSafe_iff {nodeSize : Nat} {fresh : Nat → Byte} (positive : 0 < nodeSize)
    (reached : Reachable nodeSize fresh ba) :
    (VarintSafe 5 readVarUint32 ba ↔ GroupsFit 5 4 ba.unread) ∧
      (VarintSafe 10 readVarUint64 ba ↔ GroupsFit 10 1 ba.unread) :=
  ⟨(reached.valid positive).varint32Safe_iff, (reached.valid positive).varint64Safe_iff⟩

/-- Bytes written to an empty array, with the cursor in front of them. -/
theorem exists_reachable_shows {nodeSize : Nat} (positive : 0 < nodeSize) (bytes : List Byte) :
    ∃ ba, Reachable nodeSize (fun _ => 0) ba ∧
      ba.Shows ⟨.big, capacityFor nodeSize bytes.length, [], bytes⟩ := by
  obtain ⟨full, wrote, filled⟩ := (make_filled positive fun _ => 0).write bytes
  obtain ⟨start, moved, cut⟩ := At.rewind filled
  rw [List.nil_append, List.append_nil] at cut
  exact ⟨start, (Reachable.made.returned (.write bytes) wrote).returned (.setPosition 0) moved,
    nodeSize, cut⟩

/-- A number of three bytes, and the same bytes read as a number of the other width. -/
theorem varintSafe_iff_three :
    ∃ ba, Reachable 4 (fun _ => 0) ba ∧ ba.unread = [0x80, 0x80, 0x01] ∧
      (VarintSafe 5 readVarUint32 ba ↔ GroupsFit 5 4 ba.unread) ∧
      (VarintSafe 10 readVarUint64 ba ↔ GroupsFit 10 1 ba.unread) := by
  obtain ⟨ba, reached, shown⟩ :=
    exists_reachable_shows (show 0 < 4 by decide) [0x80, 0x80, 0x01]
  exact ⟨ba, reached, shown.unread_eq, varintSafe_iff (by decide) reached⟩

/-- A fifth group with seven bits loses three of them, and a sixth group is shifted by more
than the width; so is an eleventh of a longer number. -/
theorem not_varintSafe :
    (∃ ba, Reachable 8 (fun _ => 0) ba ∧ ba.unread = [0xFF, 0xFF, 0xFF, 0xFF, 0x7F] ∧
      ¬ VarintSafe 5 readVarUint32 ba) ∧
    (∃ ba, Reachable 8 (fun _ => 0) ba ∧ ba.unread = [0x80, 0x80, 0x80, 0x80, 0x80, 0x00] ∧
      stopped readVarUint32 ba = some .shift ∧ ¬ VarintSafe 5 readVarUint32 ba) ∧
    ∃ ba, Reachable 8 (fun _ => 0) ba ∧ ba.unread = List.replicate 10 0x80 ++ [0x00] ∧
      stopped readVarUint64 ba = some .shift ∧ ¬ VarintSafe 10 readVarUint64 ba := by
  have positive : 0 < 8 := by decide
  refine ⟨?_, ?_, ?_⟩
  · obtain ⟨ba, reached, shown⟩ := exists_reachable_shows positive [0xFF, 0xFF, 0xFF, 0xFF, 0x7F]
    refine ⟨ba, reached, shown.unread_eq, ?_⟩
    rw [(reached.valid positive).varint32Safe_iff, shown.unread_eq]
    intro fits
    exact absurd (fits [0xFF, 0xFF, 0xFF, 0xFF] 0x7F [] rfl rfl (by decide)) (by decide)
  · obtain ⟨ba, reached, shown⟩ :=
      exists_reachable_shows positive [0x80, 0x80, 0x80, 0x80, 0x80, 0x00]
    refine ⟨ba, reached, shown.unread_eq, ?_, ?_⟩
    · rw [readVarUint32_simulates.stopped_eq shown]
      decide
    · rw [(reached.valid positive).varint32Safe_iff, shown.unread_eq]
      intro fits
      exact absurd (fits [0x80, 0x80, 0x80, 0x80] 0x80 [0x00] rfl rfl (by decide)) (by decide)
  · obtain ⟨ba, reached, shown⟩ :=
      exists_reachable_shows positive (List.replicate 10 0x80 ++ [0x00])
    refine ⟨ba, reached, shown.unread_eq, ?_, ?_⟩
    · rw [readVarUint64_simulates.stopped_eq shown]
      decide
    · rw [(reached.valid positive).varint64Safe_iff, shown.unread_eq]
      intro fits
      exact absurd (fits (List.replicate 9 0x80) 0x80 [0x00] rfl rfl (by decide)) (by decide)

end ByteArray

end Xten
