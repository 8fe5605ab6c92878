import Xten.ByteArray.Cursor
import Xten.ByteArray.Typed

/-!
# Numbers come back as they were written

Every numeric type has one encoding for each byte order: its write appends it and
its read takes it. A list of values written to an empty array is read back from the
start, whatever the node size.
-/

namespace Xten.ByteArray

open Std.IntegerCodec Std.Programs

section Fixed

variable (count : Nat)

/-- The bytes of a fixed-width number in a byte order. -/
def fixedBytes (count : Nat) (val : BitVec (8 * count)) (endian : Endian) : List Byte :=
  memory count (if endian ≠ byteOrder then byteSwap count val else val)

@[simp] theorem length_fixedBytes (val : BitVec (8 * count)) (endian : Endian) :
    (fixedBytes count val endian).length = count :=
  length_memory _ _

theorem writes_fixed (val : BitVec (8 * count)) :
    Writes (writeFixed count val) () (fixedBytes count val) := by
  intro endian nodeSize contents ba filled
  obtain ⟨later, wrote, filled'⟩ := filled.write (fixedBytes count val endian)
  refine ⟨later, ?_, filled'⟩
  rw [← filled.endian] at wrote
  exact wrote

/-- Bytes that hold a value in memory are read as that value. -/
theorem reads_memory (some : 0 < count) (val : BitVec (8 * count)) :
    Reads (do return ofMemory (← read count)) val fun _ => memory count val := by
  have full : memory count val ≠ [] := by
    rw [← List.length_pos_iff, length_memory]
    exact some
  have reads := (Reads.read full).map fun bytes => (ofMemory bytes : BitVec (8 * count))
  rwa [length_memory, ofMemory_memory] at reads

theorem reads_fixed (some : 0 < count) (val : BitVec (8 * count)) :
    Reads (readFixed count) val (fixedBytes count val) := by
  intro endian nodeSize capacity before rest ba cut
  have full : fixedBytes count val endian ≠ [] := by
    rw [← List.length_pos_iff, length_fixedBytes]
    exact some
  obtain ⟨later, done, cut⟩ := cut.read full
  refine ⟨later, ?_, cut⟩
  rw [length_fixedBytes] at done
  rw [readFixed, bind_ok done, get_bind, cut.endian, fixedBytes, ofMemory_memory]
  by_cases other : endian ≠ byteOrder
  · simp only [if_pos other, byteSwap_byteSwap]
    rfl
  · simp only [if_neg other]
    rfl

end Fixed

section Groups

variable {width : Nat}

theorem reads_byte (byte : Byte) : Reads readFUint8 byte fun _ => [byte] := by
  have single : memory 1 byte = [byte] := by simp [memory]
  have reads := reads_memory 1 Nat.one_pos byte
  rwa [single] at reads

/-- The loop of the variable-length reads follows the groups. -/
theorem readGroups_eq {endian : Endian} {nodeSize capacity rounds i : Nat}
    {val result : BitVec width} {before after rest : List Byte} {ba : ByteArray}
    (cut : At endian nodeSize capacity before after ba)
    (groups : ofGroups i val after = some (result, rest)) (enough : after.length ≤ rounds) :
    ∃ taken later, after = taken ++ rest ∧ readGroups rounds i val ba = .ok result later ∧
      At endian nodeSize capacity (before ++ taken) rest later := by
  induction after generalizing rounds i val before ba with
  | nil => cases groups
  | cons group after ih =>
      obtain ⟨rounds, rfl⟩ : ∃ fewer, rounds = fewer + 1 := Nat.exists_eq_add_one.mpr
        (lt_of_lt_of_le (Nat.succ_pos _) enough)
      rw [List.length_cons, Nat.add_le_add_iff_right] at enough
      obtain ⟨middle, read, next⟩ := reads_byte group cut
      rw [ofGroups] at groups
      rw [readGroups, bind_ok read]
      split_ifs at groups with past last
      · simp only [Option.some.injEq, Prod.mk.injEq] at groups
        obtain ⟨rfl, rfl⟩ := groups
        rw [if_neg past, if_pos last]
        exact ⟨[group], middle, rfl, rfl, next⟩
      · obtain ⟨taken, later, rfl, done, cut⟩ := ih next groups enough
        rw [if_neg past, if_neg last]
        refine ⟨group :: taken, later, rfl, done, ?_⟩
        rwa [List.append_assoc] at cut

/-- The bytes of a variable-length number. -/
def groupBytes (room : Nat) (val : BitVec width) : List Byte :=
  (groups room val).getD []

variable {room : Nat}

theorem groups_eq (some : 0 < room) (wide : width ≤ 7 * room) (val : BitVec width) :
    groups room val = .some (groupBytes room val) := by
  obtain ⟨bytes, same⟩ := groups_isSome some
    (val.isLt.trans_le (Nat.pow_le_pow_right Nat.two_pos wide))
  rw [groupBytes, same, Option.getD_some]

theorem writes_groups (some : 0 < room) (wide : width ≤ 7 * room) (val : BitVec width) :
    Writes (writeGroups room val) () fun _ => groupBytes room val := by
  rw [writeGroups, groups_eq some wide]
  exact Writes.write _

theorem reads_groups (some : 0 < room) (wide : width ≤ 7 * room) (bits : 0 < width)
    (val : BitVec width) :
    Reads (do readGroups (← get).getReadSize 0 0) val fun _ => groupBytes room val := by
  intro endian nodeSize capacity before rest ba cut
  have fits : val.toNat < 2 ^ (width - 0) := val.isLt
  have parsed := ofGroups_groups (groups_eq some wide val) bits fits 0 rest
  rw [BitVec.shiftLeft_zero, show (0 : BitVec width) ||| val = val from BitVec.zero_or] at parsed
  obtain ⟨taken, later, split, done, cut'⟩ := readGroups_eq cut parsed cut.getReadSize_eq.ge
  rw [List.append_cancel_right split]
  exact ⟨later, get_bind.trans done, cut'⟩

end Groups

section Values

/-- The bytes that the write of a type appends. -/
def Kind.encoded : (kind : Kind) → BitVec kind.width → Endian → List Byte
  | .fint8, val | .fuint8, val => fun _ => memory 1 val
  | .fint16, val | .fuint16, val => fixedBytes 2 val
  | .fint32, val | .fuint32, val | .float, val => fixedBytes 4 val
  | .fint64, val | .fuint64, val | .double, val => fixedBytes 8 val
  | .varint32, val => fun _ => groupBytes 5 (encodeZigzag val)
  | .varUint32, val => fun _ => groupBytes 5 val
  | .varint64, val => fun _ => groupBytes 10 (encodeZigzag val)
  | .varUint64, val => fun _ => groupBytes 10 val

theorem Kind.writes (kind : Kind) (val : BitVec kind.width) :
    Writes (kind.write val) () (kind.encoded val) := by
  cases kind with
  | fint8 => exact Writes.write (memory 1 val)
  | fuint8 => exact Writes.write (memory 1 val)
  | fint16 => exact writes_fixed 2 val
  | fuint16 => exact writes_fixed 2 val
  | fint32 => exact writes_fixed 4 val
  | fuint32 => exact writes_fixed 4 val
  | fint64 => exact writes_fixed 8 val
  | fuint64 => exact writes_fixed 8 val
  | varint32 => exact writes_groups (by decide) (by decide) _
  | varUint32 => exact writes_groups (by decide) (by decide) _
  | varint64 => exact writes_groups (by decide) (by decide) _
  | varUint64 => exact writes_groups (by decide) (by decide) _
  | float => exact writes_fixed 4 val
  | double => exact writes_fixed 8 val

/-- A zigzag read unfolds what a zigzag write folded. -/
theorem reads_zigzag {width : Nat} {read : Action (BitVec width)} {val : BitVec width}
    {encoded : Endian → List Byte} (reads : Reads read (encodeZigzag val) encoded) :
    Reads (do return decodeZigzag (← read)) val encoded := by
  have unfolded := reads.map decodeZigzag
  rwa [decodeZigzag_encodeZigzag] at unfolded

theorem Kind.reads (kind : Kind) (val : BitVec kind.width) :
    Reads kind.read val (kind.encoded val) := by
  cases kind with
  | fint8 => exact reads_memory 1 (by decide) val
  | fuint8 => exact reads_memory 1 (by decide) val
  | fint16 => exact reads_fixed 2 (by decide) val
  | fuint16 => exact reads_fixed 2 (by decide) val
  | fint32 => exact reads_fixed 4 (by decide) val
  | fuint32 => exact reads_fixed 4 (by decide) val
  | fint64 => exact reads_fixed 8 (by decide) val
  | fuint64 => exact reads_fixed 8 (by decide) val
  | varint32 => exact reads_zigzag (reads_groups (by decide) (by decide) (by decide) _)
  | varUint32 => exact reads_groups (by decide) (by decide) (by decide) _
  | varint64 => exact reads_zigzag (reads_groups (by decide) (by decide) (by decide) _)
  | varUint64 => exact reads_groups (by decide) (by decide) (by decide) _
  | float => exact reads_fixed 4 (by decide) val
  | double => exact reads_fixed 8 (by decide) val

/-- The bytes of a list of values. -/
def encodedValues : List Value → Endian → List Byte
  | [] => fun _ => []
  | ⟨kind, val⟩ :: values => fun endian => kind.encoded val endian ++ encodedValues values endian

theorem writes_values (values : List Value) :
    Writes (writeValues values) () (encodedValues values) := by
  induction values with
  | nil => exact Writes.pure ()
  | cons value values ih => exact (value.1.writes value.2).bind ih

theorem reads_values (values : List Value) :
    Reads (readValues (values.map Sigma.fst)) values (encodedValues values) := by
  induction values with
  | nil => exact Reads.pure []
  | cons value values ih =>
      exact (value.1.reads value.2).bind (ih.map fun others => ⟨value.1, value.2⟩ :: others)

/-- Values of any types, written to an empty array in either byte order and read from
the start by the matching reads, come back unchanged, and nothing is left. -/
theorem readValues_writeValues (nodeSize : Nat) (positive : 0 < nodeSize) (fresh : Nat → Byte)
    (little : Bool) (values : List Value) :
    ∃ later, (do
        setLittleEndian little
        writeValues values
        setPosition 0
        readValues (values.map Sigma.fst)) (make nodeSize fresh) = .ok values later ∧
      later.getReadSize = 0 := by
  obtain ⟨empty, ordered, filled⟩ := setLittleEndian_filled (make_filled positive fresh) little
  obtain ⟨full, wrote, filled⟩ := writes_values values filled
  obtain ⟨start, moved, cut⟩ := At.rewind filled
  rw [List.nil_append, List.append_nil, ← List.append_nil (encodedValues values _)] at cut
  obtain ⟨later, read, cut⟩ := reads_values values cut
  refine ⟨later, ?_, cut.getReadSize_eq⟩
  rw [bind_ok ordered, bind_ok wrote, bind_ok moved, read]

/-- The least integers, in one-byte nodes. -/
theorem readValues_writeValues_least :
    0 < 1 ∧ ∃ later, (do
        setLittleEndian false
        writeValues [⟨.varint32, 0x80000000#32⟩, ⟨.varint64, 0x8000000000000000#64⟩]
        setPosition 0
        readValues [.varint32, .varint64]) (make 1 fun _ => 0) =
          .ok [⟨.varint32, 0x80000000#32⟩, ⟨.varint64, 0x8000000000000000#64⟩] later ∧
      later.getReadSize = 0 :=
  ⟨by decide, readValues_writeValues 1 (by decide) (fun _ => 0) false
    [⟨.varint32, 0x80000000#32⟩, ⟨.varint64, 0x8000000000000000#64⟩]⟩

end Values

end Xten.ByteArray
