import Xten.ByteArray.Typed

/-!
# The parameters of a prepared statement

The buffers that a `MySQLStmt` keeps for its parameters. A value of a fixed size is copied to the
buffer that is there; the first value and a longer text get a new one.
-/

namespace Xten

open Xten.ByteArray (cString)
open Std.IntegerCodec (memory)

/-- The types of MySQL that are bound. What has been set to zero is a decimal. -/
inductive EnumFieldTypes where
  | decimal
  | tiny
  | short
  | long
  | longlong
  | float
  | double
  | string
  | blob
  | null
deriving DecidableEq, Repr

/-- `MYSQL_BIND`. The buffer is null, or what is allocated for it. -/
structure MysqlBind where
  bufferType : EnumFieldTypes
  buffer : Option (List Byte)
  bufferLength : Nat
  isUnsigned : Bool
deriving DecidableEq, Repr

namespace MysqlBind

/-- What `memset` leaves. -/
def zeroed : MysqlBind where
  bufferType := .decimal
  buffer := none
  bufferLength := 0
  isUnsigned := false

/-- Nobody looks at the bytes of a new buffer before they are written over. -/
def malloc (size : Nat) : List Byte :=
  List.replicate size 0

/-- `memcpy(buffer, ptr, size)`, or none where it writes behind the end of the buffer. -/
def memcpy (buffer value : List Byte) : Option (List Byte) :=
  if value.length ≤ buffer.length then some (value ++ buffer.drop value.length) else none

variable (slot : MysqlBind)

/-- `BIND_COPY(ptr, size)`. -/
def bindCopy (value : List Byte) : Option MysqlBind :=
  let buffer := slot.buffer.getD (malloc value.length)
  (memcpy buffer value).map fun buffer => { slot with buffer := some buffer }

/-- `BIND_COPY_LEN(ptr, size)`. -/
def bindCopyLen (value : List Byte) : Option MysqlBind :=
  let buffer :=
    match slot.buffer with
    | none => malloc value.length
    | some buffer => if slot.bufferLength < value.length then malloc value.length else buffer
  (memcpy buffer value).map fun buffer =>
    { slot with buffer := some buffer, bufferLength := value.length }

/-- A value of a fixed size. Those that are no integers leave the sign alone. -/
def bindFixed (type : EnumFieldTypes) (isUnsigned : Option Bool) (value : List Byte) :
    Option MysqlBind := do
  let slot ← bindCopy { slot with bufferType := type } value
  some { slot with
    isUnsigned := isUnsigned.getD slot.isUnsigned
    bufferLength := value.length }

/-- A text or a blob. -/
def bindText (type : EnumFieldTypes) (value : List Byte) : Option MysqlBind :=
  bindCopyLen { slot with bufferType := type } value

end MysqlBind

structure MySQLStmt where
  binds : List MysqlBind
deriving DecidableEq, Repr

namespace MySQLStmt

/-- The statement that `Create` returns, by the number of its parameters. -/
def create (count : Nat) : MySQLStmt where
  binds := List.replicate count .zeroed

variable (stmt : MySQLStmt) (idx : Nat)

/-- What is done with `m_binds[idx - 1]`, or none where there is no such parameter or the buffer is
left. -/
def bindAt (change : MysqlBind → Option MysqlBind) : Option MySQLStmt :=
  match idx with
  | 0 => none
  | place + 1 => do
      let slot ← stmt.binds[place]?
      let slot ← change slot
      some { stmt with binds := stmt.binds.set place slot }

def bindInt8 (value : BitVec 8) : Option MySQLStmt :=
  stmt.bindAt idx (·.bindFixed .tiny (some false) (memory 1 value))

def bindUint8 (value : BitVec 8) : Option MySQLStmt :=
  stmt.bindAt idx (·.bindFixed .tiny (some true) (memory 1 value))

def bindInt16 (value : BitVec 16) : Option MySQLStmt :=
  stmt.bindAt idx (·.bindFixed .short (some false) (memory 2 value))

def bindUint16 (value : BitVec 16) : Option MySQLStmt :=
  stmt.bindAt idx (·.bindFixed .short (some true) (memory 2 value))

def bindInt32 (value : BitVec 32) : Option MySQLStmt :=
  stmt.bindAt idx (·.bindFixed .long (some false) (memory 4 value))

def bindUint32 (value : BitVec 32) : Option MySQLStmt :=
  stmt.bindAt idx (·.bindFixed .long (some true) (memory 4 value))

def bindInt64 (value : BitVec 64) : Option MySQLStmt :=
  stmt.bindAt idx (·.bindFixed .longlong (some false) (memory 8 value))

def bindUint64 (value : BitVec 64) : Option MySQLStmt :=
  stmt.bindAt idx (·.bindFixed .longlong (some true) (memory 8 value))

/-- The bits of the number. -/
def bindFloat (value : BitVec 32) : Option MySQLStmt :=
  stmt.bindAt idx (·.bindFixed .float none (memory 4 value))

def bindDouble (value : BitVec 64) : Option MySQLStmt :=
  stmt.bindAt idx (·.bindFixed .double none (memory 8 value))

/-- `bindString(idx, value)` of a C string. -/
def bindCString (value : List Byte) : Option MySQLStmt :=
  stmt.bindAt idx (·.bindText .string (cString value))

def bindString (value : List Byte) : Option MySQLStmt :=
  stmt.bindAt idx (·.bindText .string value)

/-- `bindBlob(idx, value, size)`, and of a string. -/
def bindBlob (value : List Byte) : Option MySQLStmt :=
  stmt.bindAt idx (·.bindText .blob value)

/-- `bindTime(idx, value)`, with how the C library writes a time. -/
def bindTime (time2Str : Int → List Byte) (value : Int) : Option MySQLStmt :=
  stmt.bindString idx (time2Str value)

/-- `bindNull(idx)` and `bind(idx)`. -/
def bindNull : Option MySQLStmt :=
  stmt.bindAt idx fun slot => some { slot with bufferType := .null }

end MySQLStmt

/-- A call that binds a parameter. The overloads of `bind` are these under another name. -/
inductive BindCall where
  | int8 (value : BitVec 8)
  | uint8 (value : BitVec 8)
  | int16 (value : BitVec 16)
  | uint16 (value : BitVec 16)
  | int32 (value : BitVec 32)
  | uint32 (value : BitVec 32)
  | int64 (value : BitVec 64)
  | uint64 (value : BitVec 64)
  | float (value : BitVec 32)
  | double (value : BitVec 64)
  | cstring (value : List Byte)
  | string (value : List Byte)
  | blob (value : List Byte)
  | time (value : Int)
  | null
deriving DecidableEq, Repr

namespace BindCall

variable (time2Str : Int → List Byte)

def run (stmt : MySQLStmt) (idx : Nat) : BindCall → Option MySQLStmt
  | .int8 value => stmt.bindInt8 idx value
  | .uint8 value => stmt.bindUint8 idx value
  | .int16 value => stmt.bindInt16 idx value
  | .uint16 value => stmt.bindUint16 idx value
  | .int32 value => stmt.bindInt32 idx value
  | .uint32 value => stmt.bindUint32 idx value
  | .int64 value => stmt.bindInt64 idx value
  | .uint64 value => stmt.bindUint64 idx value
  | .float value => stmt.bindFloat idx value
  | .double value => stmt.bindDouble idx value
  | .cstring value => stmt.bindCString idx value
  | .string value => stmt.bindString idx value
  | .blob value => stmt.bindBlob idx value
  | .time value => stmt.bindTime idx time2Str value
  | .null => stmt.bindNull idx

/-- Whether the value has the size of its type. -/
def isFixed : BindCall → Bool
  | .cstring _ | .string _ | .blob _ | .time _ | .null => false
  | _ => true

/-- The bytes of the value, if there is one. -/
def bytes : BindCall → Option (List Byte)
  | .int8 value | .uint8 value => some (memory 1 value)
  | .int16 value | .uint16 value => some (memory 2 value)
  | .int32 value | .uint32 value | .float value => some (memory 4 value)
  | .int64 value | .uint64 value | .double value => some (memory 8 value)
  | .cstring value => some (cString value)
  | .string value | .blob value => some value
  | .time value => some (time2Str value)
  | .null => none

end BindCall

/-- The bytes that are allocated for the parameter. -/
def MysqlBind.allocated (slot : MysqlBind) : List Byte :=
  slot.buffer.getD []

/-- What MySQL will read is allocated, and is the value if there is one. -/
structure MysqlBind.Holds (slot : MysqlBind) (value : Option (List Byte)) : Prop where
  inside : slot.bufferLength ≤ slot.allocated.length
  same : ∀ bytes ∈ value, slot.allocated.take slot.bufferLength = bytes

/-- No call of a run writes behind the end of the buffer, and each leaves what it has bound. -/
def MySQLStmt.BigEnough (time2Str : Int → List Byte) (place : Nat) :
    MySQLStmt → List BindCall → Prop
  | _, [] => True
  | stmt, call :: later =>
      ∃ after, call.run time2Str stmt (place + 1) = some after ∧
        (∃ slot, after.binds[place]? = some slot ∧ slot.Holds (call.bytes time2Str)) ∧
          BigEnough time2Str place after later

/-- For what size a buffer was made last, and the size of the last value. -/
structure BindSizes where
  madeFor : Option Nat
  length : Nat
deriving DecidableEq, Repr

namespace BindSizes

variable (time2Str : Int → List Byte) (sizes : BindSizes)

/-- A buffer is made for the first value, and for a text that is longer than the value before. -/
def next (call : BindCall) : BindSizes :=
  match call.bytes time2Str with
  | none => sizes
  | some value =>
      if sizes.madeFor = none ∨ ¬ call.isFixed ∧ sizes.length < value.length then
        ⟨some value.length, value.length⟩
      else
        { sizes with length := value.length }

/-- A value of a fixed size is not larger than the one that the last buffer was made for. -/
def Fits (call : BindCall) : Prop :=
  call.isFixed → ∀ size ∈ sizes.madeFor, ∀ value ∈ call.bytes time2Str, value.length ≤ size

/-- All of the calls fit. -/
def AllFit : BindSizes → List BindCall → Prop
  | _, [] => True
  | sizes, call :: later =>
      sizes.Fits time2Str call ∧ AllFit (sizes.next time2Str call) later

end BindSizes

section Runs

variable {time2Str : Int → List Byte} {slot : MysqlBind} {sizes : BindSizes} {call : BindCall}

/-- What a call does with its parameter. -/
inductive BindCall.Does (time2Str : Int → List Byte) (call : BindCall) :
    (MysqlBind → Option MysqlBind) → Prop
  | null (none : call.bytes time2Str = none) (notFixed : ¬ call.isFixed) :
      Does time2Str call fun slot => some { slot with bufferType := .null }
  | fixed (type : EnumFieldTypes) (isUnsigned : Option Bool) {value : List Byte}
      (isValue : call.bytes time2Str = some value) (isFixed : call.isFixed) :
      Does time2Str call (·.bindFixed type isUnsigned value)
  | text (type : EnumFieldTypes) {value : List Byte}
      (isValue : call.bytes time2Str = some value) (notFixed : ¬ call.isFixed) :
      Does time2Str call (·.bindText type value)

theorem BindCall.run_does (time2Str : Int → List Byte) (call : BindCall) :
    ∃ change, call.Does time2Str change ∧
      ∀ stmt idx, call.run time2Str stmt idx = MySQLStmt.bindAt stmt idx change := by
  cases call with
  | int8 => exact ⟨_, .fixed _ _ rfl rfl, fun _ _ => rfl⟩
  | uint8 => exact ⟨_, .fixed _ _ rfl rfl, fun _ _ => rfl⟩
  | int16 => exact ⟨_, .fixed _ _ rfl rfl, fun _ _ => rfl⟩
  | uint16 => exact ⟨_, .fixed _ _ rfl rfl, fun _ _ => rfl⟩
  | int32 => exact ⟨_, .fixed _ _ rfl rfl, fun _ _ => rfl⟩
  | uint32 => exact ⟨_, .fixed _ _ rfl rfl, fun _ _ => rfl⟩
  | int64 => exact ⟨_, .fixed _ _ rfl rfl, fun _ _ => rfl⟩
  | uint64 => exact ⟨_, .fixed _ _ rfl rfl, fun _ _ => rfl⟩
  | float => exact ⟨_, .fixed _ _ rfl rfl, fun _ _ => rfl⟩
  | double => exact ⟨_, .fixed _ _ rfl rfl, fun _ _ => rfl⟩
  | cstring => exact ⟨_, .text _ rfl Bool.false_ne_true, fun _ _ => rfl⟩
  | string => exact ⟨_, .text _ rfl Bool.false_ne_true, fun _ _ => rfl⟩
  | blob => exact ⟨_, .text _ rfl Bool.false_ne_true, fun _ _ => rfl⟩
  | time => exact ⟨_, .text _ rfl Bool.false_ne_true, fun _ _ => rfl⟩
  | null => exact ⟨_, .null rfl Bool.false_ne_true, fun _ _ => rfl⟩

namespace MysqlBind

/-- The parameter has the sizes, and its length is inside of them. -/
structure Sized (slot : MysqlBind) (sizes : BindSizes) : Prop where
  madeFor : sizes.madeFor = slot.buffer.map List.length
  length : sizes.length = slot.bufferLength
  inside : slot.bufferLength ≤ slot.allocated.length

/-- The parameter with a value that has been copied to a buffer. -/
def copied (type : EnumFieldTypes) (isUnsigned : Bool) (value buffer : List Byte) : MysqlBind :=
  ⟨type, some (value ++ buffer.drop value.length), value.length, isUnsigned⟩

theorem sized_copied {buffer value : List Byte} (room : value.length ≤ buffer.length)
    (type : EnumFieldTypes) (isUnsigned : Bool) :
    (copied type isUnsigned value buffer).Holds (some value) ∧
      (copied type isUnsigned value buffer).Sized ⟨some buffer.length, value.length⟩ := by
  have length : (value ++ buffer.drop value.length).length = buffer.length := by
    rw [List.length_append, List.length_drop]
    omega
  have inside : value.length ≤ (value ++ buffer.drop value.length).length := by
    rwa [length]
  refine ⟨⟨inside, ?_⟩, ?_, rfl, inside⟩
  · rintro bytes ⟨⟩
    exact List.take_left
  · exact congrArg some length.symm

theorem length_malloc (size : Nat) : (malloc size).length = size :=
  List.length_replicate

theorem sized_copied_malloc (value : List Byte) (type : EnumFieldTypes) (isUnsigned : Bool) :
    (copied type isUnsigned value (malloc value.length)).Holds (some value) ∧
      (copied type isUnsigned value (malloc value.length)).Sized
        ⟨some value.length, value.length⟩ := by
  have sized := sized_copied (length_malloc value.length).ge type isUnsigned
  rwa [length_malloc] at sized

theorem bindFixed_of_le {buffer value : List Byte} (room : value.length ≤ buffer.length)
    (uses : slot.buffer.getD (malloc value.length) = buffer) (type : EnumFieldTypes)
    (sign : Option Bool) : slot.bindFixed type sign value =
      some (copied type (sign.getD slot.isUnsigned) value buffer) := by
  simp only [bindFixed, bindCopy, uses, memcpy, if_pos room]
  rfl

theorem bindText_of_le {buffer value : List Byte} (room : value.length ≤ buffer.length)
    (uses : slot.buffer = none ∧ malloc value.length = buffer ∨
      ∃ old, slot.buffer = some old ∧
        (if slot.bufferLength < value.length then malloc value.length else old) = buffer)
    (type : EnumFieldTypes) :
    slot.bindText type value = some (copied type slot.isUnsigned value buffer) := by
  obtain ⟨none, rfl⟩ | ⟨old, isOld, rfl⟩ := uses
  · simp only [bindText, bindCopyLen, none, memcpy, if_pos room]
    rfl
  · simp only [bindText, bindCopyLen, isOld, memcpy, if_pos room]
    rfl

end MysqlBind

theorem BindSizes.next_of_none (none : call.bytes time2Str = none) :
    sizes.next time2Str call = sizes := by
  rw [next, none]

theorem BindSizes.next_of_making {value : List Byte} (isValue : call.bytes time2Str = some value)
    (makes : sizes.madeFor = none ∨ ¬ call.isFixed ∧ sizes.length < value.length) :
    sizes.next time2Str call = ⟨some value.length, value.length⟩ := by
  rw [next, isValue]
  exact if_pos makes

theorem BindSizes.next_of_keeping {value : List Byte} (isValue : call.bytes time2Str = some value)
    (keeps : ¬ (sizes.madeFor = none ∨ ¬ call.isFixed ∧ sizes.length < value.length)) :
    sizes.next time2Str call = { sizes with length := value.length } := by
  rw [next, isValue]
  exact if_neg keeps

/-- A call that fits leaves what it has bound. -/
theorem BindCall.Does.of_fits {change : MysqlBind → Option MysqlBind}
    (does : call.Does time2Str change) (sized : slot.Sized sizes)
    (fits : sizes.Fits time2Str call) :
    ∃ after, change slot = some after ∧ after.Holds (call.bytes time2Str) ∧
      after.Sized (sizes.next time2Str call) := by
  obtain ⟨oldType, buffer, length, oldSign⟩ := slot
  obtain ⟨madeFor, sizesLength⟩ := sizes
  obtain rfl : madeFor = buffer.map List.length := sized.madeFor
  obtain rfl : sizesLength = length := sized.length
  have inside : sizesLength ≤ (buffer.getD []).length := sized.inside
  cases does with
  | null none =>
      rw [BindSizes.next_of_none none, none]
      exact ⟨_, rfl, ⟨inside, fun bytes isValue => by cases isValue⟩, ⟨rfl, rfl, inside⟩⟩
  | @fixed type sign value isValue isFixed =>
      rw [isValue]
      cases buffer with
      | none =>
          rw [BindSizes.next_of_making isValue (.inl rfl)]
          exact ⟨_, MysqlBind.bindFixed_of_le (MysqlBind.length_malloc _).ge rfl type sign,
            MysqlBind.sized_copied_malloc value type _⟩
      | some buffer =>
          have room : value.length ≤ buffer.length := fits isFixed _ rfl _ isValue
          have keeps : ¬ (some buffer.length = none ∨
              ¬ call.isFixed ∧ sizesLength < value.length) := by
            simp [isFixed]
          rw [BindSizes.next_of_keeping isValue keeps]
          exact ⟨_, MysqlBind.bindFixed_of_le room rfl type sign,
            MysqlBind.sized_copied room type _⟩
  | @text type value isValue notFixed =>
      rw [isValue]
      cases buffer with
      | none =>
          rw [BindSizes.next_of_making isValue (.inl rfl)]
          exact ⟨_, MysqlBind.bindText_of_le (MysqlBind.length_malloc _).ge (.inl ⟨rfl, rfl⟩) type,
            MysqlBind.sized_copied_malloc value type _⟩
      | some buffer =>
          by_cases longer : sizesLength < value.length
          · rw [BindSizes.next_of_making isValue (.inr ⟨notFixed, longer⟩)]
            exact ⟨_, MysqlBind.bindText_of_le (MysqlBind.length_malloc _).ge
              (.inr ⟨buffer, rfl, if_pos longer⟩) type,
              MysqlBind.sized_copied_malloc value type _⟩
          · have room : value.length ≤ buffer.length :=
              Nat.le_trans (Nat.le_of_not_lt longer) inside
            have keeps : ¬ (some buffer.length = none ∨
                ¬ call.isFixed ∧ sizesLength < value.length) := by
              simp [longer]
            rw [BindSizes.next_of_keeping isValue keeps]
            exact ⟨_, MysqlBind.bindText_of_le room (.inr ⟨buffer, rfl, if_neg longer⟩) type,
              MysqlBind.sized_copied room type _⟩

/-- A call that stays inside of the buffer fits. -/
theorem BindCall.Does.fits {change : MysqlBind → Option MysqlBind} {after : MysqlBind}
    (does : call.Does time2Str change) (sized : slot.Sized sizes)
    (bound : change slot = some after) : sizes.Fits time2Str call := by
  intro isFixed size isSize value isValue
  rw [sized.madeFor] at isSize
  obtain ⟨buffer, isBuffer, rfl⟩ := Option.map_eq_some_iff.mp isSize
  cases does with
  | null none => cases none.symm.trans isValue
  | text _ _ notFixed => exact absurd isFixed notFixed
  | @fixed type sign other isOther _ =>
      obtain rfl : other = value := Option.some.inj (isOther.symm.trans isValue)
      by_contra small
      simp [MysqlBind.bindFixed, MysqlBind.bindCopy, isBuffer, MysqlBind.memcpy, small] at bound

theorem MySQLStmt.bindAt_of_slot {stmt : MySQLStmt} {place : Nat}
    (isSlot : stmt.binds[place]? = some slot) (change : MysqlBind → Option MysqlBind) :
    stmt.bindAt (place + 1) change =
      (change slot).map fun slot => { stmt with binds := stmt.binds.set place slot } := by
  simp only [bindAt, isSlot, Option.bind_eq_bind, Option.bind_some]
  cases change slot <;> rfl

/-- The sizes say from any parameter on whether the calls keep to the buffers. -/
theorem MySQLStmt.bigEnough_iff_allFit {stmt : MySQLStmt} {place : Nat}
    (isSlot : stmt.binds[place]? = some slot) (sized : slot.Sized sizes) (calls : List BindCall) :
    stmt.BigEnough time2Str place calls ↔ sizes.AllFit time2Str calls := by
  induction calls generalizing stmt slot sizes with
  | nil => exact Iff.rfl
  | cons call later ih =>
      obtain ⟨change, does, runs⟩ := call.run_does time2Str
      have bound := bindAt_of_slot isSlot change
      have inside : place < stmt.binds.length := (List.getElem?_eq_some_iff.mp isSlot).1
      have isNext : ∀ next, (stmt.binds.set place next)[place]? = some next :=
        fun next => List.getElem?_set_self inside
      constructor
      · rintro ⟨after, ran, -, more⟩
        rw [runs, bound] at ran
        obtain ⟨next, changed, rfl⟩ := Option.map_eq_some_iff.mp ran
        have fits := does.fits sized changed
        obtain ⟨same, changedSame, -, sizedNext⟩ := does.of_fits sized fits
        obtain rfl := Option.some.inj (changed.symm.trans changedSame)
        exact ⟨fits, (ih (isNext next) sizedNext).mp more⟩
      · rintro ⟨fits, more⟩
        obtain ⟨next, changed, holds, sizedNext⟩ := does.of_fits sized fits
        refine ⟨{ stmt with binds := stmt.binds.set place next }, ?_, ⟨next, isNext next, holds⟩,
          (ih (isNext next) sizedNext).mpr more⟩
        rw [runs, bound, changed]
        rfl

end Runs

namespace MySQLStmt

/-- The buffers are big enough in exactly the runs in which every value of a fixed size fits to the
value that the last buffer was made for. -/
theorem bigEnough_create_iff (time2Str : Int → List Byte) {count place : Nat}
    (inside : place < count) (calls : List BindCall) :
    (create count).BigEnough time2Str place calls ↔
      BindSizes.AllFit time2Str ⟨none, 0⟩ calls := by
  have isSlot : (create count).binds[place]? = some .zeroed :=
    List.getElem?_replicate_of_lt inside
  have sized : MysqlBind.zeroed.Sized ⟨none, 0⟩ := ⟨rfl, rfl, Nat.le_refl 0⟩
  exact bigEnough_iff_allFit isSlot sized calls

theorem bigEnough_create_iff_one :
    (create 1).BigEnough (fun _ => []) 0 [.int64 1, .int8 2] ↔
      BindSizes.AllFit (fun _ => []) ⟨none, 0⟩ [.int64 1, .int8 2] :=
  bigEnough_create_iff _ Nat.zero_lt_one _

/-- Eight bytes for a buffer of one. -/
theorem int64_overruns_int8 : ¬ (create 1).BigEnough (fun _ => []) 0 [.int8 1, .int64 2] := by
  rintro ⟨after, ran, -, last, overran, -⟩
  obtain rfl := Option.some.inj ran
  cases overran

end MySQLStmt

end Xten
