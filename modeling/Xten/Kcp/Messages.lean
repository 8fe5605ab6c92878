import Xten.Std.Delimiters
import Xten.Std.IntegerCodec
import Xten.ByteArray.Typed

/-!
# Messages over KCP

`KcpMessage::SetMsgBodyAsPB`, `SerializeToBuffer` and `ParseFromBuffer`. A buffer is the memory
that belongs to it; what reads or writes beyond it has no result.
-/

namespace Xten.Kcp

open Std.Delimiters Std.IntegerCodec
open Xten.ByteArray (byteOrder cString)

/-- `MsgId`. -/
inductive MsgId where
  | none
  | test
deriving DecidableEq, Repr

/-- `FindValueByNumber`. -/
def MsgId.findValueByNumber (number : BitVec 32) : Option MsgId :=
  if number = 0 then some .none else if number = 1 then some .test else Option.none

/-- `htons` and `ntohs`. -/
def htons (val : BitVec 16) : BitVec 16 :=
  if byteOrder = .little then byteSwap 2 val else val

/-- `htonl` and `ntohl`. -/
def htonl (val : BitVec 32) : BitVec 32 :=
  if byteOrder = .little then byteSwap 4 val else val

section Memory

/-- The memory after some bytes have been put there. -/
def store (buffer : List Byte) (offset : Nat) (data : List Byte) : Option (List Byte) :=
  if offset + data.length ≤ buffer.length then
    some (buffer.take offset ++ (data ++ buffer.drop (offset + data.length)))
  else
    none

def load (buffer : List Byte) (offset count : Nat) : Option (List Byte) :=
  if offset + count ≤ buffer.length then some ((buffer.drop offset).take count) else none

/-- The string that begins somewhere. -/
def loadString (buffer : List Byte) (offset : Nat) : Option (List Byte) :=
  if 0 ∈ buffer.drop offset then some (cString (buffer.drop offset)) else none

end Memory

structure KcpMessage where
  len : BitVec 16
  id : BitVec 32
  body : List Byte
deriving DecidableEq, Repr

namespace KcpMessage

/-- `SetMsgId`. -/
def setMsgId (message : KcpMessage) (id : BitVec 32) : KcpMessage :=
  { message with id := id }

/-- `SetMsgBodyAsPB`, for what `SerializeToString` writes. -/
def setMsgBody (message : KcpMessage) (body : List Byte) : KcpMessage :=
  { message with body := body, len := BitVec.ofNat 16 body.length }

/-- `sizeof(KcpMsgLenType) + sizeof(KcpMsgIdType)`. -/
def headSize : Nat := 2 + 4

/-- `SerializeToBuffer`: the size, or none for -1, and the buffer after it. -/
def serializeToBuffer (message : KcpMessage) (buffer : List Byte) :
    Option (Option Nat × List Byte) :=
  let rlSize := headSize + message.len.toNat
  if rlSize ≥ buffer.length then
    some (none, buffer)
  else do
    let buffer ← store buffer 0 (memory 2 (htons message.len))
    let buffer ← store buffer 2 (memory 4 (htonl message.id))
    let buffer ← store buffer headSize message.body
    return (some rlSize, buffer)

/-- `ParseFromBuffer`: what it returns, and the message after it. -/
def parseFromBuffer (message : KcpMessage) (buffer : List Byte) : Option (Bool × KcpMessage) := do
  let message := { message with len := htons (ofMemory (← load buffer 0 2)) }
  let message := { message with id := htonl (ofMemory (← load buffer 2 4)) }
  if (MsgId.findValueByNumber message.id).isNone then
    return (false, message)
  return (true, { message with body := ← loadString buffer headSize })

/-- The bytes of a length and an id. -/
def head (len : BitVec 16) (id : BitVec 32) : List Byte :=
  memory 2 (htons len) ++ memory 4 (htonl id)

end KcpMessage

section Memory

variable {buffer before data rest str : List Byte} {offset : Nat}

theorem htons_htons (val : BitVec 16) : htons (htons val) = val :=
  @byteSwap_byteSwap 2 val

theorem htonl_htonl (val : BitVec 32) : htonl (htonl val) = val :=
  @byteSwap_byteSwap 4 val

theorem load_append (isBefore : before.length = offset) (data rest : List Byte) :
    load (before ++ (data ++ rest)) offset data.length = some data := by
  subst isBefore
  rw [load, List.drop_left, List.take_left, if_pos]
  rw [List.length_append, List.length_append]
  omega

theorem cString_of_zero (zero : 0 ∈ buffer) :
    0 ∉ cString buffer ∧ ∃ rest, buffer = cString buffer ++ 0 :: rest := by
  obtain none | ⟨before, rest, none, rfl⟩ := absent_or_split 0 buffer
  · exact absurd zero none
  · rw [cString, takeWhile_split none]
    exact ⟨none, rest, rfl⟩

theorem cString_append_zero (none : 0 ∉ str) (rest : List Byte) : cString (str ++ 0 :: rest) = str :=
  takeWhile_split none

/-- A string is read up to its first zero byte, which must be there. -/
theorem loadString_eq_some : loadString (before ++ buffer) before.length = some str ↔
    0 ∉ str ∧ ∃ rest, buffer = str ++ 0 :: rest := by
  rw [loadString, List.drop_left, Option.ite_none_right_eq_some]
  constructor
  · rintro ⟨zero, taken⟩
    obtain rfl := Option.some.inj taken
    exact cString_of_zero zero
  · rintro ⟨none, rest, rfl⟩
    exact ⟨by simp, congrArg some (cString_append_zero none rest)⟩

/-- What is before the bytes that are put there is kept, and so is what is behind them. -/
theorem store_append (isBefore : before.length = offset) (rest data : List Byte) :
    store (before ++ rest) offset data =
      if data.length ≤ rest.length then some (before ++ (data ++ rest.drop data.length))
      else none := by
  subst isBefore
  rw [store, List.length_append, List.take_left, List.drop_length_add_append]
  simp only [Nat.add_le_add_iff_left]

end Memory

namespace KcpMessage

theorem length_head (len : BitVec 16) (id : BitVec 32) : (head len id).length = headSize := by
  simp [head, headSize]

/-- What is written, and when. -/
theorem serializeToBuffer_eq (message : KcpMessage) (buffer : List Byte) :
    message.serializeToBuffer buffer =
      if headSize + message.len.toNat ≥ buffer.length then some (none, buffer)
      else if headSize + message.body.length ≤ buffer.length then
        some (some (headSize + message.len.toNat), head message.len message.id ++
          (message.body ++ buffer.drop (headSize + message.body.length)))
      else none := by
  unfold serializeToBuffer
  simp only
  split
  case isTrue => rfl
  case isFalse room =>
    have first : store buffer 0 (memory 2 (htons message.len)) =
        some (memory 2 (htons message.len) ++ buffer.drop 2) := by
      have stored := @store_append [] 0 rfl buffer (memory 2 (htons message.len))
      rw [length_memory, if_pos (by unfold headSize at room; omega)] at stored
      exact stored
    have second : store (memory 2 (htons message.len) ++ buffer.drop 2) 2
        (memory 4 (htonl message.id)) =
          some (head message.len message.id ++ buffer.drop headSize) := by
      rw [store_append (length_memory _ _), length_memory, if_pos, List.drop_drop, head,
        List.append_assoc, headSize]
      rw [List.length_drop]
      unfold headSize at room
      omega
    simp only [first, second, Option.bind_eq_bind, Option.bind_some,
      store_append (length_head message.len message.id)]
    have fits : message.body.length ≤ (buffer.drop headSize).length ↔
        headSize + message.body.length ≤ buffer.length := by
      rw [List.length_drop]
      omega
    simp only [fits, List.drop_drop]
    split
    case isTrue => rfl
    case isFalse => rfl

/-- What is read back of the bytes of a length and an id, and of what is behind them. -/
theorem parseFromBuffer_head (old : KcpMessage) (len : BitVec 16) (id : BitVec 32)
    (rest : List Byte) : old.parseFromBuffer (head len id ++ rest) =
      if (MsgId.findValueByNumber id).isNone then some (false, { old with len := len, id := id })
      else (loadString (head len id ++ rest) headSize).map fun body => (true, ⟨len, id, body⟩) := by
  have first : load (head len id ++ rest) 0 2 = some (memory 2 (htons len)) := by
    have loaded := @load_append [] 0 rfl (memory 2 (htons len))
      (memory 4 (htonl id) ++ rest)
    rwa [length_memory, List.nil_append, ← List.append_assoc] at loaded
  have second : load (head len id ++ rest) 2 4 = some (memory 4 (htonl id)) := by
    have loaded := load_append (length_memory 2 (htons len)) (memory 4 (htonl id)) rest
    rwa [length_memory, ← List.append_assoc] at loaded
  have isLen : htons (ofMemory (memory 2 (htons len))) = len := by
    rw [show ofMemory (memory 2 (htons len)) = htons len from @ofMemory_memory 2 (htons len),
      htons_htons]
  have isId : htonl (ofMemory (memory 4 (htonl id))) = id := by
    rw [show ofMemory (memory 4 (htonl id)) = htonl id from @ofMemory_memory 4 (htonl id),
      htonl_htonl]
  simp only [parseFromBuffer, first, second, Option.bind_eq_bind, Option.bind_some, isLen, isId]
  split
  case isTrue => rfl
  case isFalse => cases loadString (head len id ++ rest) headSize <;> rfl

section RoundTrip

variable {id : BitVec 32} {body buffer written further : List Byte} {size : Nat}
  {made old : KcpMessage}

/-- The length is that of the body, as far as it can be. -/
def Measured (message : KcpMessage) : Prop :=
  message.len = BitVec.ofNat 16 message.body.length

theorem Measured.le (measured : made.Measured) : made.len.toNat ≤ made.body.length := by
  rw [measured, BitVec.toNat_ofNat]
  exact Nat.mod_le _ _

/-- What a call that succeeds has written, up to the size that it returns. -/
theorem written_take (measured : made.Measured)
    (serialized : made.serializeToBuffer buffer = some (some size, written)) :
    written.take size = head made.len made.id ++ made.body.take made.len.toNat := by
  rw [serializeToBuffer_eq] at serialized
  split at serialized
  case isTrue => cases serialized
  case isFalse =>
    obtain ⟨-, done⟩ := Option.ite_none_right_eq_some.mp serialized
    cases done
    rw [← length_head made.len made.id, List.take_length_add_append,
      List.take_append_of_le_length measured.le]

/-- Of a known id, exactly the body that is read decides whether the message comes back. -/
theorem parse_eq_iff (known : MsgId.findValueByNumber made.id ≠ none) (rest : List Byte) :
    old.parseFromBuffer (head made.len made.id ++ rest) = some (true, made) ↔
      0 ∉ made.body ∧ ∃ behind, rest = made.body ++ 0 :: behind := by
  rw [parseFromBuffer_head, if_neg (mt Option.isNone_iff_eq_none.mp known),
    Option.map_eq_some_iff, ← length_head made.len made.id, ← loadString_eq_some]
  constructor
  · rintro ⟨body, loaded, same⟩
    have isBody : body = made.body := congrArg KcpMessage.body (Prod.mk.inj same).2
    rwa [isBody] at loaded
  · exact fun loaded => ⟨made.body, loaded, rfl⟩

/-- A message comes back as it was exactly if its body has no zero byte, and the bytes behind
those that were written are what the length leaves out of the body, and a zero byte. -/
theorem parses_back_iff (start old : KcpMessage) (id : BitVec 32) (body further : List Byte)
    (known : MsgId.findValueByNumber id ≠ none)
    (serialized : ((start.setMsgId id).setMsgBody body).serializeToBuffer buffer =
      some (some size, written)) :
    old.parseFromBuffer (written.take size ++ further) =
        some (true, (start.setMsgId id).setMsgBody body) ↔
      0 ∉ body ∧ ∃ rest, further = body.drop (body.length % 2 ^ 16) ++ 0 :: rest := by
  have measured : ((start.setMsgId id).setMsgBody body).Measured := rfl
  have length : ((start.setMsgId id).setMsgBody body).len.toNat = body.length % 2 ^ 16 :=
    BitVec.toNat_ofNat _ _
  rw [written_take measured serialized, List.append_assoc, parse_eq_iff known, length]
  refine and_congr_right fun _ => exists_congr fun rest => ?_
  have cut : body ++ 0 :: rest = body.take (body.length % 2 ^ 16) ++
      (body.drop (body.length % 2 ^ 16) ++ 0 :: rest) := by
    rw [← List.append_assoc, List.take_append_drop]
  exact (Eq.congr_right cut).trans (List.append_right_inj _)

/-- A message of one byte, in a buffer of eight. -/
theorem parses_back_iff_short :
    (⟨0, 0, []⟩ : KcpMessage).parseFromBuffer ([0, 1, 0, 0, 0, 1, 7] ++ [0]) =
      some (true, ⟨1, 1, [7]⟩) :=
  (@parses_back_iff (List.replicate 8 0) [0, 1, 0, 0, 0, 1, 7, 0] 7 ⟨0, 0, []⟩ ⟨0, 0, []⟩ 1 [7] [0]
    (by decide) (by decide)).mpr ⟨by decide, [], rfl⟩

/-- A body that is a zero byte comes back empty. -/
theorem zero_is_lost : ¬ ∀ (start old : KcpMessage) (id : BitVec 32)
    (body buffer written further : List Byte) (size : Nat),
    MsgId.findValueByNumber id ≠ none →
      ((start.setMsgId id).setMsgBody body).serializeToBuffer buffer = some (some size, written) →
        old.parseFromBuffer (written.take size ++ further) =
          some (true, (start.setMsgId id).setMsgBody body) := by
  intro all
  have back := all ⟨0, 0, []⟩ ⟨0, 0, []⟩ 1 [0] (List.replicate 8 1) [0, 1, 0, 0, 0, 1, 0, 1] [0] 7
    (by decide) (by decide)
  exact absurd back (by decide)

end RoundTrip

end KcpMessage

end Xten.Kcp
