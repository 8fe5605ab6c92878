import Mathlib.Data.List.TakeWhile
import Xten.ByteArray.NullNode

/-!
# Strings with a length in front

The pairs of a write and a read for strings, wherever the cursor is. What is read back is
the C string in a local buffer, so that a zero byte cuts it, and an empty string is read
through the node of the cursor.
-/

namespace Xten

open Std.IntegerCodec Std.Programs

namespace ByteArray

/-- How a string says its length. -/
inductive LengthPrefix where
  | f16 | f32 | f64 | var64
deriving DecidableEq, Repr

namespace LengthPrefix

def writeString : LengthPrefix → List Byte → Action Unit
  | .f16 => writeStringF16
  | .f32 => writeStringF32
  | .f64 => writeStringF64
  | .var64 => writeStringVar64

def readString : LengthPrefix → Action (List Byte)
  | .f16 => readStringF16
  | .f32 => readStringF32
  | .f64 => readStringF64
  | .var64 => readStringVar64

/-- The width of the length that is read. -/
def width : LengthPrefix → Nat
  | .f16 => 16
  | .f32 => 32
  | .f64 | .var64 => 64

def readLen : (form : LengthPrefix) → Action (BitVec form.width)
  | .f16 => readFUint16
  | .f32 => readFUint32
  | .f64 => readFUint64
  | .var64 => readVarUint64

/-- `len + 1` wraps, where it is not computed in a wider type. -/
def Wraps : (form : LengthPrefix) → BitVec form.width → Prop
  | .f16, _ => False
  | .f32, len => len + 1 = 0
  | .f64, len => len + 1 = 0
  | .var64, len => len + 1 = 0

instance (form : LengthPrefix) : DecidablePred form.Wraps := fun len =>
  match form, len with
  | .f16, _ => inferInstanceAs (Decidable False)
  | .f32, len => inferInstanceAs (Decidable (len + 1 = 0))
  | .f64, len => inferInstanceAs (Decidable (len + 1 = 0))
  | .var64, len => inferInstanceAs (Decidable (len + 1 = 0))

/-- The bytes that are written for a length. -/
def lengthBytes (form : LengthPrefix) (length : Nat) : Endian → List Byte :=
  match form with
  | .f16 => fixedBytes 2 (BitVec.ofNat 16 length)
  | .f32 | .f64 => fixedBytes 4 (BitVec.ofNat 32 length)
  | .var64 => fun _ => groupBytes 10 (BitVec.ofNat 64 length)

/-- The common body of the reads. -/
theorem readString_eq (form : LengthPrefix) :
    form.readString = (do
      let len ← form.readLen
      if form.Wraps len then
        throw .overrun
      else
        return cString (← read len.toNat)) := by
  cases form with
  | f16 =>
      have same : readStringF16 = (do
          let len ← readFUint16
          if False then
            throw .overrun
          else
            return cString (← read len.toNat)) := by
        simp only [if_false]
        rfl
      exact same
  | f32 => rfl
  | f64 => rfl
  | var64 => rfl

/-- The common body of the writes. -/
theorem writeString_eq (form : LengthPrefix) (str : List Byte) (ba : ByteArray) :
    form.writeString str ba =
      (do write (form.lengthBytes str.length ba.endian); write str : Action Unit) ba := by
  cases form with
  | f16 => rfl
  | f32 => rfl
  | f64 => rfl
  | var64 =>
      have groups := groups_eq (show 0 < 10 by decide) (show 64 ≤ 7 * 10 by decide)
        (BitVec.ofNat 64 str.length)
      rw [writeString, writeStringVar64, writeVarUint64, writeGroups, groups]
      rfl

/-- All but one of the pairs agree on how a length is written. -/
theorem reads_length {form : LengthPrefix} (matched : form ≠ .f64) (length : Nat) :
    Reads form.readLen (BitVec.ofNat form.width length) (form.lengthBytes length) := by
  cases form with
  | f16 => exact reads_fixed 2 (by decide) _
  | f32 => exact reads_fixed 4 (by decide) _
  | f64 => exact absurd rfl matched
  | var64 => exact reads_groups (by decide) (by decide) (by decide) _

theorem lengthBytes_ne_nil (form : LengthPrefix) (length : Nat) (endian : Endian) :
    form.lengthBytes length endian ≠ [] := by
  cases form with
  | f16 => exact List.ne_nil_of_length_pos (by simp [lengthBytes])
  | f32 => exact List.ne_nil_of_length_pos (by simp [lengthBytes])
  | f64 => exact List.ne_nil_of_length_pos (by simp [lengthBytes])
  | var64 =>
      have groups := groups_eq (show 0 < 10 by decide) (show 64 ≤ 7 * 10 by decide)
        (BitVec.ofNat 64 length)
      exact groups_ne_nil groups

/-- A string comes back: written, with the position set back, and read, and the position is
then where the write left it. -/
def RoundTrips (form : LengthPrefix) (str : List Byte) (ba : ByteArray) : Prop :=
  ∃ written moved later, form.writeString str ba = .ok () written ∧
    setPosition ba.position written = .ok () moved ∧
    form.readString moved = .ok str later ∧ later.position = written.position

end LengthPrefix

section Write

variable {endian : Endian} {nodeSize capacity : Nat} {before after : List Byte} {ba : ByteArray}

/-- The capacity after the write of a string: an empty string takes no room. -/
def stringCapacity (nodeSize capacity : Nat) (lead str : List Byte) : Nat :=
  if str = [] then FlatArray.capacityUpTo nodeSize capacity lead.length
  else FlatArray.capacityUpTo nodeSize (FlatArray.capacityUpTo nodeSize capacity lead.length)
    (lead ++ str).length

theorem At.writeString (cut : At endian nodeSize capacity before after ba) (form : LengthPrefix)
    (str : List Byte) :
    ∃ later, form.writeString str ba = .ok () later ∧
      At endian nodeSize
        (stringCapacity nodeSize capacity (before ++ form.lengthBytes str.length endian) str)
        (before ++ (form.lengthBytes str.length endian ++ str))
        ((after.drop (form.lengthBytes str.length endian).length).drop str.length) later := by
  obtain ⟨middle, wrote, cut'⟩ := cut.write (form.lengthBytes_ne_nil str.length endian)
  rw [form.writeString_eq, cut.endian, bind_ok wrote, stringCapacity]
  by_cases empty : str = []
  · subst empty
    rw [if_pos rfl, List.append_nil, List.length_nil, List.drop_zero]
    exact ⟨middle, rfl, cut'⟩
  · obtain ⟨later, wrote', cut''⟩ := cut'.write empty
    rw [if_neg empty, ← List.append_assoc]
    exact ⟨later, wrote', cut''⟩

end Write

section Read

variable {endian : Endian} {nodeSize capacity : Nat} {before rest str : List Byte}
  {ba : ByteArray} {form : LengthPrefix}

theorem cString_eq_iff {buf : List Byte} : cString buf = buf ↔ ∀ byte ∈ buf, byte ≠ 0 := by
  rw [cString, List.takeWhile_eq_self_iff]
  simp

/-- What the read of a string does on the bytes that were written for one. -/
theorem At.readString_iff (matched : form ≠ .f64) (fits : str.length < 2 ^ form.width)
    (cut : At endian nodeSize capacity before (form.lengthBytes str.length endian ++ str ++ rest) ba) :
    (∃ later, form.readString ba = .ok str later ∧
        later.position = (before ++ (form.lengthBytes str.length endian ++ str)).length) ↔
      (∀ byte ∈ str, byte ≠ 0) ∧ ¬ form.Wraps (BitVec.ofNat form.width str.length) ∧
        (str = [] → (before ++ form.lengthBytes str.length endian).length ≠ capacity) := by
  rw [List.append_assoc] at cut
  obtain ⟨middle, done, cut⟩ := LengthPrefix.reads_length matched str.length cut
  rw [form.readString_eq, bind_ok done]
  have value : (BitVec.ofNat form.width str.length).toNat = str.length := by
    rw [BitVec.toNat_ofNat, Nat.mod_eq_of_lt fits]
  by_cases wraps : form.Wraps (BitVec.ofNat form.width str.length)
  · rw [if_pos wraps]
    refine iff_of_false ?_ fun holds => holds.2.1 wraps
    rintro ⟨later, returned, -⟩
    cases returned
  · rw [if_neg wraps, value]
    by_cases empty : str = []
    · subst empty
      have read := cut.read_none
      rw [List.length_nil] at read ⊢
      by_cases full : (before ++ form.lengthBytes 0 endian).length = capacity
      · rw [if_pos full] at read
        rw [bind_error read]
        refine iff_of_false ?_ fun holds => holds.2.2 rfl full
        rintro ⟨later, returned, -⟩
        cases returned
      · rw [if_neg full] at read
        rw [bind_ok read]
        refine iff_of_true ⟨middle, rfl, ?_⟩ ⟨by simp, wraps, fun _ => full⟩
        rw [cut.unread_eq.1, List.append_nil]
        rfl
    · obtain ⟨later, read, cut⟩ := cut.read empty
      rw [bind_ok read]
      have position : later.position =
          (before ++ (form.lengthBytes str.length endian ++ str)).length := by
        rw [cut.unread_eq.1, List.append_assoc]
      constructor
      · rintro ⟨last, returned, -⟩
        obtain ⟨same, -⟩ := EStateM.Result.ok.inj returned
        exact ⟨cString_eq_iff.mp same, wraps, fun none => absurd none empty⟩
      · rintro ⟨zeros, -, -⟩
        refine ⟨later, ?_, position⟩
        have whole : cString str = str := cString_eq_iff.mpr zeros
        change EStateM.Result.ok (cString str) later = _
        rw [whole]

/-- A position behind room that was made for it is the capacity if whole nodes end there. -/
theorem capacityUpTo_eq_iff (positive : 0 < nodeSize) (reached : Nat) :
    reached = FlatArray.capacityUpTo nodeSize capacity reached ↔
      capacity ≤ reached ∧ nodeSize ∣ reached := by
  have covers := FlatArray.le_mul_ceil positive reached
  rw [FlatArray.capacityUpTo]
  constructor
  · intro same
    have whole : reached = nodeSize * ((reached + nodeSize - 1) / nodeSize) := by omega
    exact ⟨by omega, _, whole⟩
  · rintro ⟨within, count, rfl⟩
    have quotient : (nodeSize * count + nodeSize - 1) / nodeSize = count := by
      rw [Nat.add_sub_assoc positive, Nat.mul_add_div positive,
        Nat.div_eq_of_lt (Nat.sub_lt positive Nat.one_pos), Nat.add_zero]
    rw [quotient, Nat.max_eq_right within]

/-- Strings come back unless they hold a zero byte, or have a length whose successor wraps,
or are empty where their length fills the last node. -/
theorem Valid.comes_back_iff (valid : Valid ba) (matched : form ≠ .f64) {str : List Byte}
    (fits : str.length < 2 ^ form.width) :
    form.RoundTrips str ba ↔
      (∀ byte ∈ str, byte ≠ 0) ∧ ¬ form.Wraps (BitVec.ofNat form.width str.length) ∧
        (str = [] → ¬ (ba.capacity ≤ ba.position + (form.lengthBytes 0 ba.endian).length ∧
          ba.nodeSize ∣ ba.position + (form.lengthBytes 0 ba.endian).length)) := by
  have position := valid.length_before_cursor
  obtain ⟨written, wrote, cut⟩ := valid.cut.writeString form str
  obtain ⟨moved, back, cut'⟩ := cut.seek
  rw [position] at back
  have read := cut'.readString_iff matched fits
  have iff : form.RoundTrips str ba ↔ ∃ later, form.readString moved = .ok str later ∧
      later.position =
        (ba.cursor.before ++ (form.lengthBytes str.length ba.endian ++ str)).length := by
    rw [← cut.unread_eq.1]
    constructor
    · rintro ⟨written', moved', later, wrote', back', returned, same⟩
      obtain ⟨-, rfl⟩ := EStateM.Result.ok.inj (wrote.symm.trans wrote')
      obtain ⟨-, rfl⟩ := EStateM.Result.ok.inj (back.symm.trans back')
      exact ⟨later, returned, same⟩
    · rintro ⟨later, returned, same⟩
      exact ⟨written, moved, later, wrote, back, returned, same⟩
  rw [iff, read]
  refine and_congr_right fun zeros => and_congr_right fun narrow => ?_
  constructor
  · rintro other rfl whole
    apply other rfl
    rw [stringCapacity, if_pos rfl, capacityUpTo_eq_iff valid.positive, List.length_append, position]
    exact whole
  · rintro other rfl full
    apply other rfl
    rwa [stringCapacity, if_pos rfl, capacityUpTo_eq_iff valid.positive, List.length_append,
      position] at full

/-- The strings with a length of 16, 32 or up to 64 bits, in every state that an array
reaches. -/
theorem roundTrips_iff {nodeSize : Nat} {fresh : Nat → Byte} {ba : ByteArray}
    (positive : 0 < nodeSize) (reached : Reachable nodeSize fresh ba) {form : LengthPrefix}
    (matched : form ≠ .f64) (str : List Byte) (fits : str.length < 2 ^ form.width) :
    form.RoundTrips str ba ↔
      (∀ byte ∈ str, byte ≠ 0) ∧ ¬ form.Wraps (BitVec.ofNat form.width str.length) ∧
        (str = [] → ¬ (ba.capacity ≤ ba.position + (form.lengthBytes 0 ba.endian).length ∧
          ba.nodeSize ∣ ba.position + (form.lengthBytes 0 ba.endian).length)) :=
  (reached.valid positive).comes_back_iff matched fits

/-- Three bytes, and no bytes, in nodes of four. -/
theorem roundTrips_iff_four :
    Reachable 4 (fun _ => 0) (make 4 fun _ => 0) ∧
      LengthPrefix.f32.RoundTrips [1, 2, 3] (make 4 fun _ => 0) ∧
      LengthPrefix.f16.RoundTrips [] (make 4 fun _ => 0) :=
  ⟨.made, (roundTrips_iff (by decide) .made (by decide) [1, 2, 3] (by decide)).mpr (by decide),
    (roundTrips_iff (by decide) .made (by decide) [] (by decide)).mpr (by decide)⟩

/-- A zero byte cuts a string, and an empty one whose length fills a node uses the null
node. -/
theorem not_roundTrips :
    (∀ form : LengthPrefix, form ≠ .f64 →
      ¬ form.RoundTrips [1, 0, 2] (make 4 fun _ => 0)) ∧
    ¬ LengthPrefix.f16.RoundTrips [] (make 2 fun _ => 0) ∧
    ¬ LengthPrefix.f32.RoundTrips [] (make 4 fun _ => 0) ∧
    ¬ LengthPrefix.var64.RoundTrips [] (make 1 fun _ => 0) := by
  have made (nodeSize : Nat) (positive : 0 < nodeSize) : Valid (make nodeSize fun _ => 0) :=
    Reachable.made.valid positive
  refine ⟨fun form matched => ?_, ?_, ?_, ?_⟩
  · have fits : [1, 0, 2].length < 2 ^ form.width := by
      cases form <;> decide
    rw [(made 4 (by decide)).comes_back_iff matched fits]
    rintro ⟨zeros, -, -⟩
    exact zeros 0 (by decide) rfl
  · rw [(made 2 (by decide)).comes_back_iff (by decide) (by decide)]
    decide
  · rw [(made 4 (by decide)).comes_back_iff (by decide) (by decide)]
    decide
  · rw [(made 1 (by decide)).comes_back_iff (by decide) (by decide)]
    decide

end Read

end ByteArray

end Xten
