import Xten.ByteArray.Strings
import Xten.ByteArray.Varints

/-!
# The buffers of the string reads

Each read of a string declares a `buf` of the length that it has just read, and one byte.
What is there to be read is looked at only afterwards, by the read that fills the buffer.
-/

namespace Xten

open Std.IntegerCodec Std.Programs

/-- Of the groups at the front of some bytes one of the first `room` is the last, unless no
byte follows them. -/
def GroupsEnd (room : Nat) (bytes : List Byte) : Prop :=
  ∀ lead next rest, bytes = lead ++ next :: rest → lead.length = room →
    ∃ byte ∈ lead, byte.toNat < 0x80

namespace GroupsEnd

variable {room : Nat} {group : Byte} {rest : List Byte}

theorem nil : GroupsEnd room [] := by
  intro lead next rest split
  simp at split

theorem not_zero_cons : ¬ GroupsEnd 0 (group :: rest) := by
  intro ends
  obtain ⟨byte, member, -⟩ := ends [] group rest rfl rfl
  cases member

theorem cons_iff : GroupsEnd (room + 1) (group :: rest) ↔
    group.toNat < 0x80 ∨ GroupsEnd room rest := by
  constructor
  · intro ends
    by_cases last : group.toNat < 0x80
    · exact .inl last
    · right
      rintro lead next rest' rfl length
      obtain ⟨byte, member, small⟩ := ends (group :: lead) next rest' rfl (by simp [length])
      rcases List.mem_cons.mp member with rfl | member
      · exact absurd small last
      · exact ⟨byte, member, small⟩
  · rintro cases_ lead next rest' split length
    cases lead with
    | nil => cases length
    | cons first lead =>
        obtain ⟨rfl, rfl⟩ := List.cons.inj split
        rcases cases_ with last | ends
        · exact ⟨group, List.mem_cons_self, last⟩
        · obtain ⟨byte, member, small⟩ := ends lead next rest' rfl (by simpa using length)
          exact ⟨byte, List.mem_cons_of_mem _ member, small⟩

end GroupsEnd

namespace Cursor

/-- A program stops short by exceptions only. -/
def Throws {α : Type} (program : Scan α) (cursor : Cursor) : Prop :=
  ∀ fault, stopped program cursor = some fault → ∃ what, fault = .outOfRange what

theorem throws_nil {width : Nat} (rounds offset : Nat) (val : BitVec width) (endian : Endian)
    (capacity : Nat) (before : List Byte) :
    Throws (readGroups rounds offset val) ⟨endian, capacity, before, []⟩ := by
  intro fault stops
  rw [stopped_error (readGroups_nil rounds offset val endian capacity before)] at stops
  exact ⟨_, (Option.some.inj stops).symm⟩

/-- The loop of the variable-length reads shifts by too much exactly if the groups go on. -/
theorem readGroups_throws_iff {width rounds offset room slack : Nat} {val : BitVec width}
    {endian : Endian} {capacity : Nat} {before after : List Byte} (enough : after.length ≤ rounds)
    (wide : offset + 7 * room = width + slack) (narrow : slack < 7) :
    Throws (readGroups rounds offset val) ⟨endian, capacity, before, after⟩ ↔
      GroupsEnd room after := by
  induction room generalizing rounds offset val before after with
  | zero =>
      cases after with
      | nil => exact iff_of_true (throws_nil rounds offset val endian capacity before) GroupsEnd.nil
      | cons group after =>
          obtain ⟨rounds, rfl⟩ : ∃ fewer, rounds = fewer + 1 := Nat.exists_eq_add_one.mpr
            (lt_of_lt_of_le (Nat.succ_pos _) enough)
          have beyond : width ≤ offset := by omega
          have stops := readGroups_shift beyond rounds val endian capacity before group after
          refine iff_of_false (fun throws => ?_) GroupsEnd.not_zero_cons
          obtain ⟨what, other⟩ := throws _ (stopped_error stops)
          cases other
  | succ room ih =>
      cases after with
      | nil => exact iff_of_true (throws_nil rounds offset val endian capacity before) GroupsEnd.nil
      | cons group after =>
          obtain ⟨rounds, rfl⟩ : ∃ fewer, rounds = fewer + 1 := Nat.exists_eq_add_one.mpr
            (lt_of_lt_of_le (Nat.succ_pos _) enough)
          rw [List.length_cons, Nat.add_le_add_iff_right] at enough
          rw [GroupsEnd.cons_iff, Throws, stopped, readGroups, bind_ok (readFUint8_append group),
            if_neg (show ¬ width ≤ offset by omega)]
          by_cases last : group.toNat < 0x80
          · rw [if_pos last]
            refine iff_of_true (fun fault stops => ?_) (.inl last)
            cases stops
          · rw [if_neg last, or_iff_right last, ← stopped]
            exact ih enough (by omega)

end Cursor

namespace ByteArray

namespace LengthPrefix

/-- The size `len + 1` of `buf`: an `int` behind a length of 16 bits, and of the type of the
length otherwise. -/
def bufferSize : (form : LengthPrefix) → BitVec form.width → Nat
  | .f16, len => len.toNat + 1
  | .f32, len => (len + 1).toNat
  | .f64, len => (len + 1).toNat
  | .var64, len => (len + 1).toNat

/-- The first part of a read, up to the declaration of `buf`: the length and the size of
`buf`. -/
def buffer (form : LengthPrefix) : Action (BitVec form.width × Nat) := do
  let len ← form.readLen
  return (len, form.bufferSize len)

theorem toNat_add_one {width : Nat} {len : BitVec width} (narrow : ¬ len + 1 = 0) :
    (len + 1).toNat = len.toNat + 1 := by
  have bound := len.isLt
  have sum : (len + 1).toNat = (len.toNat + 1) % 2 ^ width := by
    rw [BitVec.toNat_add]
    exact Nat.add_mod_mod _ _ _
  rcases Nat.lt_or_eq_of_le (Nat.succ_le_of_lt bound) with inside | full
  · rw [sum, Nat.mod_eq_of_lt inside]
  · refine absurd (BitVec.eq_of_toNat_eq ?_) narrow
    rw [sum, show len.toNat + 1 = 2 ^ width from full, Nat.mod_self]
    rfl

/-- The buffer holds the string and its end, or has no size at all. -/
theorem bufferSize_eq (form : LengthPrefix) (len : BitVec form.width) :
    form.bufferSize len = if form.Wraps len then 0 else len.toNat + 1 := by
  have wide {width : Nat} (len : BitVec width) :
      (len + 1).toNat = if len + 1 = 0 then 0 else len.toNat + 1 := by
    split_ifs with wraps
    · rw [wraps]
      rfl
    · exact toNat_add_one wraps
  cases form with
  | f16 => exact (if_neg not_false).symm
  | f32 => exact wide len
  | f64 => exact wide len
  | var64 => exact wide len

/-- The second part of a read: `buf[len]` lies outside of a `buf` without a size. -/
theorem readString_buffer (form : LengthPrefix) :
    form.readString = (do
      let (len, size) ← form.buffer
      if size = 0 then
        throw .overrun
      else
        return cString (← read len.toNat)) := by
  rw [form.readString_eq, buffer, bind_assoc]
  congr 1
  funext len
  have wraps : form.bufferSize len = 0 ↔ form.Wraps len := by
    rw [bufferSize_eq]
    by_cases wraps : form.Wraps len
    · exact iff_of_true (if_pos wraps) wraps
    · rw [if_neg wraps]
      exact iff_of_false (Nat.succ_ne_zero _) wraps
  simp only [pure_bind, wraps]

/-- The length in front of the unread bytes and what follows it; none if they end first. -/
def decode : (form : LengthPrefix) → Cursor → Option (BitVec form.width × List Byte)
  | .f16, cursor =>
      if 2 ≤ cursor.after.length then some (cursor.number 2, cursor.after.drop 2) else none
  | .f32, cursor =>
      if 4 ≤ cursor.after.length then some (cursor.number 4, cursor.after.drop 4) else none
  | .f64, cursor =>
      if 8 ≤ cursor.after.length then some (cursor.number 8, cursor.after.drop 8) else none
  | .var64, cursor => ofGroups 0 0 cursor.after

/-- A read of a string sizes its buffer safely: the buffer has room for the string and its
end, and for no more than the bytes that can be read. Nothing but an exception stops the read
before. -/
def BuffersWithin (form : LengthPrefix) (ba : ByteArray) : Prop :=
  match form.buffer ba with
  | .error fault _ => ∃ what, fault = .outOfRange what
  | .ok (len, size) later => len.toNat + 1 ≤ size ∧ size ≤ later.getReadSize + 1

/-- The unread bytes do not deceive the read: a length of variable width ends within ten
groups, and what a length promises is there. -/
structure Honest (form : LengthPrefix) (cursor : Cursor) : Prop where
  ends : form = .var64 → GroupsEnd 10 cursor.after
  promised : ∀ len rest, form.decode cursor = some (len, rest) →
    len.toNat ≤ rest.length ∧ ¬ form.Wraps len

/-- How the read of a length ends: with the length and what is left behind it, or with a
fault that is an exception exactly if the groups end. -/
def Ends {width : Nat} (read : Action (BitVec width)) (ba : ByteArray) (groups : Prop) :
    Option (BitVec width × List Byte) → Prop
  | some (len, rest) => groups ∧ ∃ later, read ba = .ok len later ∧ later.getReadSize = rest.length
  | none => ∃ fault later, read ba = .error fault later ∧ ((∃ what, fault = .outOfRange what) ↔ groups)

/-- A length of fixed width. -/
theorem readFixed_ends {ba : ByteArray} {cursor : Cursor} (shown : ba.Shows cursor) {count : Nat}
    (some : 0 < count) {groups : Prop} (holds : groups) :
    Ends (readFixed count) ba groups
      (if count ≤ cursor.after.length then .some (cursor.number count, cursor.after.drop count)
        else none) := by
  have spec := Cursor.readFixed_eq some cursor
  split_ifs at spec ⊢ with there
  · obtain ⟨later, read, nodeSize, cut⟩ := (readFixed_simulates count).ok shown spec
    exact ⟨holds, later, read, cut.getReadSize_eq⟩
  · obtain ⟨later, read, -⟩ := (readFixed_simulates count).error shown spec
    exact ⟨_, later, read, iff_of_true ⟨_, rfl⟩ holds⟩

/-- A length of variable width. -/
theorem readVarUint64_ends {ba : ByteArray} {cursor : Cursor} (shown : ba.Shows cursor) :
    Ends readVarUint64 ba (GroupsEnd 10 cursor.after) (ofGroups 0 0 cursor.after) := by
  obtain ⟨endian, capacity, before, after⟩ := cursor
  have read := @Cursor.readGroups_eq 64 after.length 0 0 endian capacity before after (Nat.le_refl _)
  have throws := @Cursor.readGroups_throws_iff 64 after.length 0 10 6 0 endian capacity before after
    (Nat.le_refl _) rfl (by decide)
  rw [Cursor.Throws] at throws
  cases decoded : ofGroups 0 (0 : BitVec 64) after with
  | some pair =>
      rw [decoded] at read
      obtain ⟨taken, rfl, done⟩ := read
      obtain ⟨later, returned, nodeSize, cut⟩ := readVarUint64_simulates.ok shown done
      refine ⟨throws.mp fun fault stops => ?_, later, returned, cut.getReadSize_eq⟩
      rw [stopped_ok done] at stops
      cases stops
  | none =>
      rw [decoded] at read
      obtain ⟨fault, later', stops, -⟩ := read
      obtain ⟨later, stops', -⟩ := readVarUint64_simulates.error shown stops
      rw [stopped_error stops] at throws
      refine ⟨fault, later, stops', ?_⟩
      rw [← throws]
      constructor
      · rintro thrown other same
        cases same
        exact thrown
      · intro thrown
        exact thrown fault rfl

/-- A length is read, or none is there. -/
theorem readLen_ends {ba : ByteArray} {cursor : Cursor} (shown : ba.Shows cursor)
    (form : LengthPrefix) :
    Ends form.readLen ba (form = .var64 → GroupsEnd 10 cursor.after) (form.decode cursor) := by
  cases form with
  | f16 => exact readFixed_ends shown (by decide) (by simp)
  | f32 => exact readFixed_ends shown (by decide) (by simp)
  | f64 => exact readFixed_ends shown (by decide) (by simp)
  | var64 =>
      have same : (LengthPrefix.var64 = .var64 → GroupsEnd 10 cursor.after) =
          GroupsEnd 10 cursor.after := by simp
      rw [same]
      exact readVarUint64_ends shown

/-- Buffers are sized safely exactly if the bytes are honest. -/
theorem buffersWithin_shows {ba : ByteArray} {cursor : Cursor} (shown : ba.Shows cursor)
    (form : LengthPrefix) : form.BuffersWithin ba ↔ form.Honest cursor := by
  have read := readLen_ends shown form
  rw [BuffersWithin, buffer]
  cases decoded : form.decode cursor with
  | some pair =>
      rw [decoded] at read
      obtain ⟨ends, later, done, left⟩ := read
      rw [bind_ok done]
      change pair.1.toNat + 1 ≤ form.bufferSize pair.1 ∧
        form.bufferSize pair.1 ≤ later.getReadSize + 1 ↔ _
      rw [bufferSize_eq, left]
      constructor
      · rintro ⟨room, within⟩
        refine ⟨ends, fun len rest other => ?_⟩
        obtain rfl := Option.some.inj (decoded.symm.trans other)
        split_ifs at room within with wraps
        · omega
        · exact ⟨Nat.le_of_succ_le_succ within, wraps⟩
      · intro honest
        obtain ⟨there, narrow⟩ := honest.promised pair.1 pair.2 decoded
        rw [if_neg narrow]
        omega
  | none =>
      rw [decoded] at read
      obtain ⟨fault, later, stops, throws⟩ := read
      rw [bind_error stops]
      change (∃ what, fault = .outOfRange what) ↔ _
      rw [throws]
      constructor
      · intro ends
        refine ⟨ends, fun len rest other => ?_⟩
        rw [decoded] at other
        cases other
      · exact Honest.ends

/-- The buffers of the string reads, in every state that an array reaches. -/
theorem buffersWithin_iff {nodeSize : Nat} {fresh : Nat → Byte} {ba : ByteArray}
    (positive : 0 < nodeSize) (reached : Reachable nodeSize fresh ba) (form : LengthPrefix) :
    form.BuffersWithin ba ↔ form.Honest ba.cursor :=
  buffersWithin_shows (reached.valid positive).shows form

/-- A length of one, and one byte behind it. -/
theorem buffersWithin_iff_one :
    ∃ ba, Reachable 4 (fun _ => 0) ba ∧ ba.unread = [0x00, 0x01, 0x41] ∧
      (LengthPrefix.f16.BuffersWithin ba ↔ LengthPrefix.f16.Honest ba.cursor) := by
  obtain ⟨ba, reached, shown⟩ := exists_reachable_shows (show 0 < 4 by decide) [0x00, 0x01, 0x41]
  exact ⟨ba, reached, shown.unread_eq, buffersWithin_iff (by decide) reached .f16⟩

/-- Lengths without anything behind them: their buffers are declared all the same, and those
of the largest lengths have no size. -/
theorem not_buffersWithin :
    (∃ ba, Reachable 4 (fun _ => 0) ba ∧ ba.unread = [0xFF, 0xFF] ∧
      ¬ LengthPrefix.f16.BuffersWithin ba) ∧
    (∃ ba, Reachable 4 (fun _ => 0) ba ∧ ba.unread = List.replicate 4 0xFF ∧
      ¬ LengthPrefix.f32.BuffersWithin ba) ∧
    (∃ ba, Reachable 4 (fun _ => 0) ba ∧ ba.unread = List.replicate 8 0xFF ∧
      ¬ LengthPrefix.f64.BuffersWithin ba) ∧
    ∃ ba, Reachable 4 (fun _ => 0) ba ∧ ba.unread = List.replicate 9 0xFF ++ [0x01] ∧
      ¬ LengthPrefix.var64.BuffersWithin ba := by
  have positive : 0 < 4 := by decide
  refine ⟨?_, ?_, ?_, ?_⟩
  · obtain ⟨ba, reached, shown⟩ := exists_reachable_shows positive [0xFF, 0xFF]
    refine ⟨ba, reached, shown.unread_eq, ?_⟩
    rw [buffersWithin_shows shown]
    intro honest
    exact absurd (honest.promised 0xFFFF [] (by decide)).1 (by decide)
  · obtain ⟨ba, reached, shown⟩ := exists_reachable_shows positive (List.replicate 4 0xFF)
    refine ⟨ba, reached, shown.unread_eq, ?_⟩
    rw [buffersWithin_shows shown]
    intro honest
    exact absurd (honest.promised 0xFFFFFFFF [] (by decide)).1 (by decide)
  · obtain ⟨ba, reached, shown⟩ := exists_reachable_shows positive (List.replicate 8 0xFF)
    refine ⟨ba, reached, shown.unread_eq, ?_⟩
    rw [buffersWithin_shows shown]
    intro honest
    exact absurd (honest.promised 0xFFFFFFFFFFFFFFFF [] (by decide)).1 (by decide)
  · obtain ⟨ba, reached, shown⟩ := exists_reachable_shows positive (List.replicate 9 0xFF ++ [0x01])
    refine ⟨ba, reached, shown.unread_eq, ?_⟩
    rw [buffersWithin_shows shown]
    intro honest
    exact absurd (honest.promised 0xFFFFFFFFFFFFFFFF [] (by decide)).1 (by decide)

end LengthPrefix

end ByteArray

end Xten
