import Xten.Kcp.Delivery

/-!
# The bounds of messages

Whether `SerializeToBuffer` and `ReadMessage` stay within their buffers. The length of a body has
16 bits, a message is parsed with no regard to how much has been received, and a zero byte is put
behind all of it.
-/

namespace Xten.Kcp

open Std.Delimiters Std.IntegerCodec
open Xten.ByteArray (cString)

namespace KcpMessage

/-- In every buffer of a size: what does not fit is refused, and of what fits as many bytes are
written as the call returns. -/
def WritesWithin (message : KcpMessage) (size : Nat) : Prop :=
  if headSize + message.body.length ≤ size then
    ∃ data : List Byte, ∀ buffer, buffer.length = size →
      message.serializeToBuffer buffer = some (some data.length, data ++ buffer.drop data.length)
  else
    ∀ buffer, buffer.length = size → message.serializeToBuffer buffer = some (none, buffer)

section Writing

variable {message : KcpMessage} {size : Nat}

/-- A call that returns less than it has written would change what is behind, too. -/
theorem eq_of_writes {data : List Byte} (fits : headSize + message.body.length ≤ size)
    (measured : message.Measured)
    (writes : ∀ buffer, buffer.length = size →
      message.serializeToBuffer buffer = some (some data.length, data ++ buffer.drop data.length)) :
    message.len.toNat = message.body.length ∧ headSize + message.len.toNat < size := by
  have each : ∀ byte, headSize + message.len.toNat < size ∧
      (message.len.toNat < message.body.length → message.body[message.len.toNat]? = some byte) := by
    intro byte
    have written := writes (List.replicate size byte) List.length_replicate
    rw [serializeToBuffer_eq, List.length_replicate] at written
    split at written
    case isTrue => cases written
    case isFalse room =>
      obtain ⟨count, same⟩ := Prod.mk.inj (Option.some.inj written)
      refine ⟨by omega, fun shorter => ?_⟩
      have count : data.length = headSize + message.len.toNat := (Option.some.inj count).symm
      have here := congrArg (fun bytes : List Byte => bytes[headSize + message.len.toNat]?) same
      rw [← count, List.getElem?_append_right (Nat.le_refl _), Nat.sub_self, List.getElem?_drop,
        Nat.add_zero, List.getElem?_replicate_of_lt (by omega), count,
        List.getElem?_append_right (by rw [length_head]; omega), length_head,
        Nat.add_sub_cancel_left, List.getElem?_append_left shorter] at here
      exact here
  refine ⟨Nat.le_antisymm measured.le (Nat.le_of_not_lt fun shorter => ?_), (each 0).1⟩
  have zero := (each 0).2 shorter
  rw [(each 1).2 shorter] at zero
  exact absurd zero (by decide)

/-- The length of what `SetMsgBodyAsPB` sets, cut to its field. -/
theorem toNat_len (start : KcpMessage) (body : List Byte) :
    (start.setMsgBody body).len.toNat = body.length % 2 ^ 16 :=
  BitVec.toNat_ofNat _ _

theorem body_setMsgBody (start : KcpMessage) (body : List Byte) :
    (start.setMsgBody body).body = body :=
  rfl

/-- A message stays in the bounds of a buffer exactly if it does not just fill it, and its length
fits into the field, or what the field has of it is refused as well. -/
theorem writesWithin_iff (start : KcpMessage) (body : List Byte) (size : Nat) :
    (start.setMsgBody body).WritesWithin size ↔
      headSize + body.length ≠ size ∧
        (body.length < 2 ^ 16 ∨ size ≤ headSize + body.length % 2 ^ 16) := by
  by_cases fits : headSize + body.length ≤ size
  · rw [WritesWithin, body_setMsgBody, if_pos fits]
    constructor
    · rintro ⟨data, writes⟩
      have measured : (start.setMsgBody body).Measured := rfl
      obtain ⟨whole, room⟩ := eq_of_writes fits measured writes
      rw [toNat_len, body_setMsgBody] at whole
      rw [toNat_len] at room
      omega
    · rintro ⟨apart, short⟩
      have whole : body.length % 2 ^ 16 = body.length := by omega
      refine ⟨head (start.setMsgBody body).len start.id ++ body, fun buffer length => ?_⟩
      rw [serializeToBuffer_eq, toNat_len, body_setMsgBody, length, whole, if_neg (by omega),
        if_pos fits, List.length_append, length_head, List.append_assoc]
      rfl
  · rw [WritesWithin, body_setMsgBody, if_neg fits]
    constructor
    · intro refuses
      have refused := refuses (List.replicate size 0) List.length_replicate
      rw [serializeToBuffer_eq, List.length_replicate, toNat_len, body_setMsgBody,
        if_neg fits] at refused
      split at refused
      case isTrue => omega
      case isFalse => cases refused
    · rintro ⟨apart, short⟩ buffer length
      rw [serializeToBuffer_eq, length, toNat_len, if_pos (by omega)]

theorem overruns (start : KcpMessage) {body : List Byte} (length : body.length = 2 ^ 16) :
    ¬ (start.setMsgBody body).WritesWithin writeSize := by
  have large : ¬ headSize + body.length ≤ writeSize := by
    rw [length, headSize, writeSize]
    omega
  rw [WritesWithin, body_setMsgBody, if_neg large]
  intro within
  have refused := within (List.replicate writeSize 0) List.length_replicate
  rw [serializeToBuffer_eq, toNat_len, body_setMsgBody, List.length_replicate, if_neg large, length,
    Nat.mod_self, if_neg (by decide)] at refused
  cases refused

/-- A body of 65536 bytes, which the length field has as none, in the buffer of `write`. -/
theorem not_writesWithin :
    ¬ (KcpMessage.setMsgBody ⟨0, 0, []⟩ (List.replicate (2 ^ 16) 0)).WritesWithin writeSize :=
  overruns ⟨0, 0, []⟩ List.length_replicate

end Writing

end KcpMessage

section Reading

variable {bytes payload buf tail more : List Byte} {reader : Reader}

/-- Any six bytes are those of a header. -/
theorem exists_head (enough : KcpMessage.headSize ≤ bytes.length) :
    ∃ len id rest, bytes = KcpMessage.head len id ++ rest := by
  rw [KcpMessage.headSize] at enough
  have first := memory_ofMemory 16 (bytes.take 2) (by rw [List.length_take]; omega)
  have second := memory_ofMemory 32 ((bytes.drop 2).take 4)
    (by rw [List.length_take, List.length_drop]; omega)
  rw [List.length_take, Nat.min_eq_left (by omega)] at first
  rw [List.length_take, List.length_drop, Nat.min_eq_left (by omega)] at second
  refine ⟨htons (ofMemory (bytes.take 2)), htonl (ofMemory ((bytes.drop 2).take 4)),
    (bytes.drop 2).drop 4, ?_⟩
  rw [KcpMessage.head, htons_htons, htonl_htonl, first, second, List.append_assoc,
    List.take_append_drop, List.take_append_drop]

theorem cString_prefix_append (tail more : List Byte) : cString (tail ++ 0 :: more) <+: tail := by
  obtain none | ⟨before, rest, none, rfl⟩ := absent_or_split 0 tail
  · rw [cString_append_zero none]
  · rw [List.append_assoc, List.cons_append, cString_append_zero none]
    exact List.prefix_append before (0 :: rest)

/-- Of a payload with a header, the message that is parsed is made. -/
theorem parseFromBuffer_made (old : KcpMessage) (len : BitVec 16) (id : BitVec 32)
    (tail more : List Byte) : ∃ made message,
      old.parseFromBuffer (KcpMessage.head len id ++ tail ++ 0 :: more) = some (made, message) ∧
        (made = true →
          KcpMessage.head message.len message.id ++ message.body <+: KcpMessage.head len id ++ tail) := by
  rw [List.append_assoc, KcpMessage.parseFromBuffer_head]
  split
  case isTrue => exact ⟨false, _, rfl, nofun⟩
  case isFalse =>
    have loaded : loadString (KcpMessage.head len id ++ (tail ++ 0 :: more)) KcpMessage.headSize =
        some (cString (tail ++ 0 :: more)) := by
      rw [← KcpMessage.length_head len id, loadString, List.drop_left, if_pos (by simp)]
    rw [loaded]
    exact ⟨true, _, rfl, fun _ =>
      (List.prefix_append_right_inj _).mpr (cString_prefix_append tail more)⟩

/-- The id of a message that is known begins with three zero bytes. -/
theorem known_bytes {id : BitVec 32} (known : MsgId.findValueByNumber id ≠ none) :
    ∃ last, memory 4 (htonl id) = [0, 0, 0, last] := by
  unfold MsgId.findValueByNumber at known
  split at known
  case isTrue zero => exact ⟨0, by rw [zero]; decide⟩
  case isFalse =>
    split at known
    case isTrue one => exact ⟨1, by rw [one]; decide⟩
    case isFalse => exact absurd rfl known

/-- Where the header ends in what has not been received, a byte of the id that has been and that
is not zero keeps it unknown. -/
theorem parseFromBuffer_unknown (old : KcpMessage) {byte : Byte}
    (short : payload.length < KcpMessage.headSize) (mem : byte ∈ payload.drop 2) (apart : byte ≠ 0)
    (enough : KcpMessage.headSize ≤ (payload ++ 0 :: more).length) :
    ∃ message, old.parseFromBuffer (payload ++ 0 :: more) = some (false, message) := by
  obtain ⟨len, id, rest, same⟩ := exists_head enough
  rw [same, KcpMessage.parseFromBuffer_head, if_pos]
  · exact ⟨_, rfl⟩
  · by_contra known
    obtain ⟨last, zeros⟩ := known_bytes (mt Option.isNone_iff_eq_none.mpr known)
    have received := congrArg (List.drop 2) same
    have some := List.length_pos_of_mem mem
    rw [List.length_drop] at some
    rw [KcpMessage.head, zeros, List.append_assoc,
      List.drop_left' (length_memory 2 (htons len)),
      List.drop_append_of_le_length (by omega)] at received
    have first : payload.drop 2 <+: [0, 0, 0] := by
      refine List.prefix_of_prefix_length_le (received ▸ List.prefix_append _ _)
        (List.prefix_append [0, 0, 0] (last :: rest)) ?_
      rw [List.length_drop]
      unfold KcpMessage.headSize at short
      simp only [List.length_cons, List.length_nil]
      omega
    have zero := first.subset mem
    simp only [List.mem_cons, List.not_mem_nil, or_false, or_self] at zero
    exact apart zero

/-- Where all of it is zero and zeros are behind it, a message is made of them. -/
theorem parseFromBuffer_zeros (old : KcpMessage) (zeros : ∀ byte ∈ bytes.drop 2, byte = 0)
    (enough : KcpMessage.headSize < bytes.length) :
    ∃ message, old.parseFromBuffer bytes = some (true, message) := by
  obtain ⟨len, id, rest, rfl⟩ := exists_head (Nat.le_of_lt enough)
  rw [List.length_append, KcpMessage.length_head] at enough
  rw [KcpMessage.head, List.append_assoc, List.drop_left' (length_memory 2 (htons len))] at zeros
  have noId : htonl id = 0 := by
    have all : memory 4 (htonl id) = List.replicate 4 0 :=
      List.eq_replicate_iff.mpr ⟨length_memory _ _, fun byte mem =>
        zeros byte (List.mem_append_left rest mem)⟩
    have back : ofMemory (memory 4 (htonl id)) = htonl id := @ofMemory_memory 4 (htonl id)
    rw [all] at back
    exact back.symm
  have known : id = 0 := by
    rw [← htonl_htonl id, noId]
    decide
  have ends : 0 ∈ rest := by
    obtain ⟨byte, mem⟩ := List.exists_mem_of_length_pos (show 0 < rest.length by omega)
    rwa [← zeros byte (List.mem_append_right _ mem)]
  rw [KcpMessage.parseFromBuffer_head, known, if_neg (by decide), loadString,
    ← KcpMessage.length_head len 0, List.drop_left, if_pos ends]
  exact ⟨_, rfl⟩

namespace Reader

/-- With whatever the buffer holds first: none of the memory outside of it is used, and the bytes
of the header and the body of a message that is returned are the first of the payload. -/
def ReadsWithin (reader : Reader) : Prop :=
  ∀ buf error, buf.length = bufferSize →
    (reader.readMessage buf error).1 ≠ .outside ∧
      ∀ message returned, (reader.readMessage buf error).1 = .returned (some message) returned →
        ∃ payload ∈ reader.rcvQueue.head?,
          KcpMessage.head message.len message.id ++ message.body <+: payload

/-- A payload that leaves room for the zero byte behind it, and that has a header, or some byte of
an id that is not known. -/
def Harmless (payload : List Byte) : Prop :=
  payload.length ≠ bufferSize ∧
    (payload = [] ∨ KcpMessage.headSize ≤ payload.length ∨ ∃ byte ∈ payload.drop 2, byte ≠ 0)

theorem returns_none (notOpen : ¬ reader.Open) (error : ReadErrno) :
    ∃ returned, (reader.readMessage buf error).1 = .returned none returned := by
  have some : ¬ (¬ reader.bClose ∧ ¬ reader.bReadError ∧ ¬ reader.bReadTimeout) := by
    rintro ⟨notClosed, noError, noTimeout⟩
    exact notOpen ⟨by simpa using notClosed, by simpa using noError, by simpa using noTimeout⟩
  rw [readMessage, if_neg fun all => some all.2]
  split
  case isTrue => exact ⟨_, rfl⟩
  case isFalse noTimeout =>
    split
    case isTrue => exact ⟨_, rfl⟩
    case isFalse notClosed =>
      split
      case isTrue => exact ⟨_, rfl⟩
      case isFalse noError => exact absurd ⟨notClosed, noError, noTimeout⟩ some

theorem readsWithin_notOpen (notOpen : ¬ reader.Open) : reader.ReadsWithin := by
  intro buf error size
  obtain ⟨returned, same⟩ := @returns_none buf reader notOpen error
  rw [same]
  exact ⟨nofun, nofun⟩

theorem readsWithin_waiting (waits : reader.ikcpPeeksize ≤ 0) : reader.ReadsWithin := by
  by_cases isOpen : reader.Open
  · obtain ⟨notClosed, noError, noTimeout⟩ := isOpen
    intro buf error size
    rw [readMessage, if_pos ⟨waits, by simp [notClosed, noError, noTimeout]⟩]
    exact ⟨by rintro ⟨⟩, by rintro _ _ ⟨⟩⟩
  · exact readsWithin_notOpen isOpen

section Received

variable {rest : List (List Byte)} {message : KcpMessage}

/-- What is returned for a payload that leaves room for the zero byte. -/
theorem Open.read_eq (isOpen : reader.Open) (queue : reader.rcvQueue = payload :: rest)
    (nonempty : payload ≠ []) (room : payload.length < bufferSize) (size : buf.length = bufferSize)
    {made : Bool} (error : ReadErrno)
    (parsed : KcpMessage.parseFromBuffer ⟨0, 0, []⟩
      (payload ++ 0 :: buf.drop (payload.length + 1)) = some (made, message)) :
    (reader.readMessage buf error).1 =
      .returned (if made = true then some message else none) error := by
  rw [isOpen.readMessage_eq queue nonempty, if_neg (by omega), parsed_eq size, if_pos room, parsed]
  cases made <;> rfl

theorem Open.read_large (isOpen : reader.Open) (queue : reader.rcvQueue = payload :: rest)
    (large : bufferSize < payload.length) : reader.ReadsWithin := by
  have nonempty : payload ≠ [] := List.ne_nil_of_length_pos (by omega)
  intro buf error size
  rw [isOpen.readMessage_eq queue nonempty, if_pos large]
  exact ⟨nofun, nofun⟩

/-- A payload that just fills the buffer has the zero byte put behind it. -/
theorem Open.read_full (isOpen : reader.Open) (queue : reader.rcvQueue = payload :: rest)
    (full : payload.length = bufferSize) : ¬ reader.ReadsWithin := by
  have nonempty : payload ≠ [] := List.ne_nil_of_length_pos (by rw [full]; decide)
  intro within
  refine (within (List.replicate bufferSize 0) .success List.length_replicate).1 ?_
  rw [isOpen.readMessage_eq queue nonempty, if_neg (by omega),
    parsed_eq List.length_replicate, if_neg (by omega)]

theorem Open.read_header (isOpen : reader.Open) (queue : reader.rcvQueue = payload :: rest)
    (header : KcpMessage.headSize ≤ payload.length) (room : payload.length < bufferSize) :
    reader.ReadsWithin := by
  have nonempty : payload ≠ [] :=
    List.ne_nil_of_length_pos (Nat.lt_of_lt_of_le (by decide) header)
  intro buf error size
  obtain ⟨len, id, tail, rfl⟩ := exists_head header
  obtain ⟨made, message, parsed, made_of⟩ := parseFromBuffer_made ⟨0, 0, []⟩ len id tail
    (buf.drop ((KcpMessage.head len id ++ tail).length + 1))
  rw [isOpen.read_eq queue nonempty room size error parsed, queue]
  refine ⟨nofun, fun result returned same => ⟨_, rfl, ?_⟩⟩
  obtain ⟨same, -⟩ := Read.returned.inj same
  obtain ⟨isMade, isMessage⟩ := Option.ite_none_right_eq_some.mp same
  rw [← Option.some.inj isMessage]
  exact made_of isMade

theorem Open.read_unknown (isOpen : reader.Open) (queue : reader.rcvQueue = payload :: rest)
    (short : payload.length < KcpMessage.headSize) {byte : Byte} (mem : byte ∈ payload.drop 2)
    (apart : byte ≠ 0) : reader.ReadsWithin := by
  have nonempty : payload ≠ [] := List.ne_nil_of_mem (List.mem_of_mem_drop mem)
  have room : payload.length < bufferSize := Nat.lt_trans short (by decide)
  intro buf error size
  have enough : KcpMessage.headSize ≤ (payload ++ 0 :: buf.drop (payload.length + 1)).length := by
    simp only [List.length_append, List.length_cons, List.length_drop, size]
    unfold KcpMessage.headSize bufferSize at *
    omega
  obtain ⟨message, parsed⟩ := parseFromBuffer_unknown ⟨0, 0, []⟩ short mem apart enough
  rw [isOpen.read_eq queue nonempty room size error parsed]
  exact ⟨nofun, nofun⟩

/-- In a buffer of zeros, a payload of no more than zeros behind its length is taken for a
message, whose header it does not have. -/
theorem Open.read_zeros (isOpen : reader.Open) (queue : reader.rcvQueue = payload :: rest)
    (nonempty : payload ≠ []) (short : payload.length < KcpMessage.headSize)
    (zeros : ∀ byte ∈ payload.drop 2, byte = 0) : ¬ reader.ReadsWithin := by
  have room : payload.length < bufferSize := Nat.lt_trans short (by decide)
  intro within
  have size : (List.replicate bufferSize (0 : Byte)).length = bufferSize := List.length_replicate
  obtain ⟨message, parsed⟩ := @parseFromBuffer_zeros
    (payload ++ 0 :: (List.replicate bufferSize 0).drop (payload.length + 1)) ⟨0, 0, []⟩
    (fun byte mem => by
      rw [List.drop_append, List.mem_append] at mem
      obtain received | behind := mem
      · exact zeros byte received
      · obtain rfl | stale := List.mem_cons.mp (List.mem_of_mem_drop behind)
        · rfl
        · exact List.eq_of_mem_replicate (List.mem_of_mem_drop stale))
    (by
      simp only [List.length_append, List.length_cons, List.length_drop, List.length_replicate]
      unfold KcpMessage.headSize bufferSize at *
      omega)
  obtain ⟨other, isPayload, received⟩ := (within _ .success size).2 message .success
    (isOpen.read_eq queue nonempty room size .success parsed)
  rw [queue, List.head?_cons, Option.mem_some_iff] at isPayload
  have length := received.length_le
  rw [← isPayload, List.length_append, KcpMessage.length_head] at length
  omega

theorem Open.within_iff (isOpen : reader.Open) (queue : reader.rcvQueue = payload :: rest)
    (nonempty : payload ≠ []) : reader.ReadsWithin ↔ Harmless payload := by
  rw [Harmless]
  obtain room | full | large := Nat.lt_trichotomy payload.length bufferSize
  · by_cases header : KcpMessage.headSize ≤ payload.length
    · exact iff_of_true (isOpen.read_header queue header room) ⟨by omega, .inr (.inl header)⟩
    · have short := Nat.lt_of_not_le header
      constructor
      · intro within
        refine ⟨by omega, .inr (.inr ?_)⟩
        by_contra none
        simp only [not_exists, not_and, not_not] at none
        exact isOpen.read_zeros queue nonempty short none within
      · rintro ⟨-, empty | enough | ⟨byte, mem, apart⟩⟩
        · exact absurd empty nonempty
        · exact absurd enough header
        · exact isOpen.read_unknown queue short mem apart
  · exact iff_of_false (isOpen.read_full queue full) fun harmless => harmless.1 full
  · refine iff_of_true (isOpen.read_large queue large) ⟨by omega, .inr (.inl ?_)⟩
    exact Nat.le_of_lt (Nat.lt_trans (by decide) large)

/-- Reading stays within the buffer and what has been received exactly if no session that is open
has a harmful payload to read. -/
theorem readsWithin_iff (reader : Reader) : reader.ReadsWithin ↔
    (reader.Open → ∀ payload ∈ reader.rcvQueue.head?, Harmless payload) := by
  by_cases isOpen : reader.Open
  · cases queue : reader.rcvQueue with
    | nil =>
        have waits : reader.ikcpPeeksize ≤ 0 := by rw [ikcpPeeksize, queue]; decide
        exact iff_of_true (readsWithin_waiting waits) fun _ _ member => by cases member
    | cons payload rest =>
        simp only [isOpen, forall_const, List.head?_cons, Option.mem_some_iff, forall_eq']
        obtain rfl | nonempty := eq_or_ne payload []
        · have waits : reader.ikcpPeeksize ≤ 0 := by
            rw [ikcpPeeksize, queue]
            exact Int.le_refl 0
          exact iff_of_true (readsWithin_waiting waits) ⟨by decide, .inl rfl⟩
        · exact isOpen.within_iff queue nonempty
  · exact iff_of_true (readsWithin_notOpen isOpen) fun now => absurd now isOpen

/-- A payload of as many bytes as the buffer has. -/
theorem not_readsWithin :
    ¬ (⟨[List.replicate bufferSize 0], false, false, false, 0⟩ : Reader).ReadsWithin :=
  Open.read_full ⟨rfl, rfl, rfl⟩ rfl List.length_replicate

end Received

end Reader

end Reading

end Xten.Kcp
