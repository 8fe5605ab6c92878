import Xten.Rock.Decoder

/-!
# What is sent and what is accepted

The two ends of a connection have the same settings. A message is sent whatever its
size, with a length field of 32 bits; the other end refuses a body above the limit.
-/

namespace Xten

open Std.Programs
open MessageDecoder (Arrives Readable payload exceeds headOf)

/-- The last bytes of a stream come without an overrun. -/
theorem Socket.takes_all {socket : Socket} {rooms : Nat → Nat → Nat} {position left : Nat}
    (room : ∀ position left, 0 < left → 0 < rooms position left)
    (all : socket.incoming.length = left) :
    ∃ later, socket.Takes rooms position left later := by
  induction left using Nat.strong_induction_on generalizing position socket with
  | _ left ih =>
      rcases Nat.eq_zero_or_pos left with rfl | some
      · exact ⟨socket, .done⟩
      · have comes := Socket.delivery_pos (room position left some) (all ▸ some)
        have within := @Socket.delivery_le_incoming socket (rooms position left)
        rw [all] at within
        obtain ⟨later, rest⟩ := @ih (left - socket.delivery (rooms position left)) (by omega)
          (socket.received (socket.delivery (rooms position left)))
          (position + socket.delivery (rooms position left))
          (by rw [Socket.received, List.length_drop, all])
        exact ⟨later, .more some comes within rest⟩

namespace RockMessageDecoder

/-- What the parser of the other end is given of the body of a message that is sent:
only as many bytes as the length field counts are compressed. -/
def given (settings : Settings) (nodeSize : Nat) (msg : Message) : Cursor :=
  let length := BitVec.ofNat 32 msg.bytes.length
  if settings.minGzipBodyLength < length then
    let bytes := msg.bytes.take length.toNat
    ⟨.big, capacityFor Message.defaultNodeSize bytes.length, [], bytes⟩
  else
    ⟨.big, capacityFor nodeSize msg.bytes.length, [], msg.bytes⟩

/-- A stream that holds one frame is accepted: the length field counts the bytes behind
the head, the limit allows them, and a message is returned. -/
structure Accepted (settings : Settings) (gzip : Gzip) (fresh : Nat → Byte) (nodeSize : Nat)
    (socket : Socket) : Prop where
  counted : RockMsgHead.size + headLength socket.incoming = socket.incoming.length
  within : headLength socket.incoming ≤ settings.maxBodyLength.toNat
  returns : ∃ msg later,
    parseFromStream settings gzip fresh nodeSize socket = .ok (some msg) later

section Accepting

variable {settings : Settings} {gzip : Gzip} {fresh : Nat → Byte} {nodeSize : Nat}
  {flag : Byte} {body : List Byte} {msg : Message} {socket : Socket}

/-- What is compressed and decompressed again is what was given to the stream. -/
theorem payload_packed
    (inverse : ∀ data output, gzip.deflate data = .ok output → gzip.inflate output = .ok data)
    (sent : packed settings gzip msg = .ok (flag, body)) :
    payload gzip flag (capacityFor nodeSize body.length) body =
      some (given settings nodeSize msg) := by
  simp only [packed] at sent
  simp only [given]
  by_cases large : settings.minGzipBodyLength < BitVec.ofNat 32 msg.bytes.length
  · rw [if_pos large] at sent ⊢
    generalize deflated : gzip.deflate _ = output at sent
    cases output with
    | error call => cases sent
    | ok output =>
        cases sent
        rw [payload, if_pos (by decide), inverse _ _ deflated]
  · rw [if_neg large] at sent ⊢
    cases sent
    rw [payload, if_neg (by decide)]

/-- The bytes given to the parser start with the type byte of the message. -/
theorem given_type (settings : Settings) (nodeSize : Nat) (msg : Message) :
    ∃ rest, (given settings nodeSize msg).after = msg.getMessageType.toByte :: rest := by
  simp only [given]
  split_ifs with large
  · have some : 0 < (BitVec.ofNat 32 msg.bytes.length).toNat :=
      (Nat.zero_le _).trans_lt (BitVec.lt_def.mp large)
    obtain ⟨count, same⟩ := Nat.exists_eq_succ_of_ne_zero some.ne'
    rw [same]
    exact ⟨_, rfl⟩
  · exact ⟨_, rfl⟩

/-- A frame alone, with a body within the limit, comes in. -/
theorem receives_alone (positive : 0 < nodeSize) (nonempty : body ≠ [])
    (within : body.length ≤ settings.maxBodyLength.toNat) (connected : socket.connected = true)
    (incoming : socket.incoming = frame flag body) :
    (MessageDecoder.headOf socket).flag = flag ∧
      MessageDecoder.Receives settings.bufferSize (some settings.maxBodyLength) nodeSize socket
        (capacityFor nodeSize body.length) body := by
  have small : body.length < 2 ^ 32 := within.trans_lt settings.maxBodyLength.isLt
  have behind : socket.incoming = frame flag body ++ [] := by rw [incoming, List.append_nil]
  have whole : RockMsgHead.size ≤ socket.incoming.length := by
    rw [incoming, length_frame]
    exact Nat.le_add_right _ _
  obtain ⟨middle, head⟩ := Socket.takes_buffer settings.positive 0 whole
  have left : middle.incoming.length = body.length := by
    rw [incoming_body behind head, List.append_nil]
  obtain ⟨later, takes⟩ := @Socket.takes_all _ (arrayRoom nodeSize settings.bufferSize) 0 _
    (fun position left some => (lt_min some settings.positive).trans_le
      (ByteArray.le_reach positive _ _)) left
  have allowed : exceeds (some settings.maxBodyLength) (BitVec.ofNat 32 body.length) = false := by
    rw [exceeds, decide_eq_false_iff_not, BitVec.lt_def, Nat.not_lt]
    exact (Nat.mod_le _ _).trans within
  exact MessageDecoder.receives_frame settings.positive positive connected behind small nonempty
    allowed head takes

/-- A frame whose body is within the limit arrives. -/
theorem arrives_packed (positive : 0 < nodeSize)
    (inverse : ∀ data output, gzip.deflate data = .ok output → gzip.inflate output = .ok data)
    (sent : packed settings gzip msg = .ok (flag, body)) (nonempty : body ≠ [])
    (within : body.length ≤ settings.maxBodyLength.toNat) (connected : socket.connected = true)
    (incoming : socket.incoming = frame flag body) :
    Arrives settings.bufferSize (some settings.maxBodyLength) gzip nodeSize socket
      (given settings nodeSize msg) := by
  obtain ⟨flagged, receives⟩ := receives_alone positive nonempty within connected incoming
  refine ⟨_, _, receives, ?_⟩
  rw [flagged]
  exact payload_packed inverse sent

/-- The other end accepts a frame exactly if its body is within the limit and can be
read. -/
theorem accepted_iff (positive : 0 < nodeSize)
    (inverse : ∀ data output, gzip.deflate data = .ok output → gzip.inflate output = .ok data)
    (sent : packed settings gzip msg = .ok (flag, body)) (nonempty : body ≠ [])
    (connected : socket.connected = true) (incoming : socket.incoming = frame flag body) :
    Accepted settings gzip fresh nodeSize socket ↔
      body.length ≤ settings.maxBodyLength.toNat ∧
        Readable Fault.isException Message.announced (given settings nodeSize msg) := by
  have field := headLength_frame flag body []
  rw [List.append_nil, ← incoming] at field
  have parsed := @MessageDecoder.parseBody_eq _ _ Message.announced Message.make _
    (fun type => Option.map_eq_none_iff) Message.announced_heeds (given settings nodeSize msg)
  rw [← parseBody_eq] at parsed
  have simulates := parseBody_simulates ByteArray.readers_simulate
  constructor
  · rintro ⟨counted, within, ret, later, returns⟩
    have whole : body.length ≤ settings.maxBodyLength.toNat := by
      rw [incoming, length_frame] at counted
      rw [incoming] at within
      omega
    refine ⟨whole, ?_⟩
    by_contra unreadable
    obtain ⟨fault, after, stopped⟩ := parsed.2 unreadable
    obtain ⟨last, escaped⟩ := (@MessageDecoder.parseFromStream_arrives _ _ _ _ _ _ _ fresh _ _
      settings.positive positive simulates (arrives_packed positive inverse sent nonempty whole
        connected incoming)).2 _ _ stopped
    rw [← parseFromStream_eq, returns] at escaped
    cases escaped
  · rintro ⟨within, readable⟩
    have small : body.length < 2 ^ 32 := within.trans_lt settings.maxBodyLength.isLt
    rw [Nat.mod_eq_of_lt small] at field
    obtain ⟨ret, after, done, known⟩ := parsed.1 readable
    obtain ⟨rest, typed⟩ := given_type settings nodeSize msg
    have some : ret ≠ none := by
      rw [Ne, known _ _ typed, Message.announced, make_type]
      exact Option.some_ne_none _
    obtain ⟨ret, rfl⟩ := Option.ne_none_iff_exists'.mp some
    obtain ⟨later, returns⟩ := (@MessageDecoder.parseFromStream_arrives _ _ _ _ _ _ _ fresh _ _
      settings.positive positive simulates (arrives_packed positive inverse sent nonempty within
        connected incoming)).1 _ _ done
    rw [← parseFromStream_eq] at returns
    refine ⟨?_, field ▸ within, ret, later, returns⟩
    rw [field, incoming, length_frame]

end Accepting

section Agreement

variable {settings : Settings} {gzip : Gzip} {fresh : Nat → Byte} {nodeSize : Nat}
  {msg : Message} {sender sent receiver : Socket} {ret : Int}

/-- What the sender accepts, the other end accepts exactly if the body that is sent is
within the limit and no read of a string in it is undefined. -/
theorem sent_accepted (fresh' : Nat → Byte) (positive : 0 < nodeSize)
    (inverse : ∀ data output, gzip.deflate data = .ok output → gzip.inflate output = .ok data)
    (returned : serializeToStream settings gzip fresh msg sender = .ok ret sent)
    (accepts : 0 < ret) (connected : receiver.connected = true)
    (stream : sent.outgoing = sender.outgoing ++ receiver.incoming) :
    Accepted settings gzip fresh' nodeSize receiver ↔
      bodyLength settings gzip msg ≤ settings.maxBodyLength.toNat ∧
        Readable Fault.isException Message.announced (given settings nodeSize msg) := by
  obtain ⟨flag, body, packs, nonempty, outgoing⟩ := sent_of_positive returned accepts
  rw [outgoing] at stream
  rw [bodyLength_eq packs]
  exact accepted_iff positive inverse packs nonempty connected (List.append_cancel_left stream).symm

/-- A notification that is accepted. -/
theorem sent_accepted_one :
    ∃ sent : Socket,
      serializeToStream .default ⟨.ok, .ok⟩ (fun _ => 0) (.notify { notify := 5, data := [7] })
        ⟨true, [], [], fun _ => 100⟩ = .ok 18 sent ∧
      Accepted .default ⟨.ok, .ok⟩ (fun _ => 0) 4096 ⟨true, sent.outgoing, [], fun _ => 100⟩ := by
  have packs : packed .default ⟨.ok, .ok⟩ (.notify { notify := 5, data := [7] }) =
      .ok (0, [3, 0, 0, 0, 5, 0, 0, 0, 1, 7]) := rfl
  obtain ⟨sent, done, outgoing, -⟩ := @serializeToStream_eq .default ⟨.ok, .ok⟩ (fun _ => 0) _
    ⟨true, [], [], fun _ => 100⟩ _ _ packs rfl
  have inverse : ∀ data output, (⟨.ok, .ok⟩ : Gzip).deflate data = .ok output →
      (⟨.ok, .ok⟩ : Gzip).inflate output = .ok data := by
    rintro data output ⟨⟩
    rfl
  refine ⟨sent, done, ?_⟩
  exact (@sent_accepted _ _ _ _ _ _ _ ⟨true, sent.outgoing, [], fun _ => 100⟩ _ (fun _ => 0)
    (by decide) inverse done (by decide) rfl (List.nil_append _).symm).mpr (by decide)

/-- Settings with a limit of four bytes. -/
def fourBytes : Settings :=
  { Settings.default with maxBodyLength := 4 }

/-- A notification of ten bytes is sent and not accepted where the limit is four. -/
theorem not_accepted :
    ∃ sent : Socket,
      serializeToStream fourBytes ⟨.ok, .ok⟩ (fun _ => 0) (.notify { notify := 5, data := [7] })
        ⟨true, [], [], fun _ => 100⟩ = .ok 18 sent ∧
      ¬ Accepted fourBytes ⟨.ok, .ok⟩ (fun _ => 0) 4096
        ⟨true, sent.outgoing, [], fun _ => 100⟩ := by
  have packs : packed fourBytes ⟨.ok, .ok⟩ (.notify { notify := 5, data := [7] }) =
      .ok (0, [3, 0, 0, 0, 5, 0, 0, 0, 1, 7]) := rfl
  obtain ⟨sent, done, outgoing, -⟩ := @serializeToStream_eq fourBytes ⟨.ok, .ok⟩ (fun _ => 0) _
    ⟨true, [], [], fun _ => 100⟩ _ _ packs rfl
  refine ⟨sent, done, fun accepted => ?_⟩
  have within := accepted.within
  rw [outgoing] at within
  exact absurd within (by decide)

end Agreement

end RockMessageDecoder

end Xten
