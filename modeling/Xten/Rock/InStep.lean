import Xten.Rock.BodyRoundTrip
import Xten.Rock.Framing
import Xten.Stream.Transfer

/-!
# Frames stay in step

Which streams of frames are read back frame by frame. A receive into the array of a
body has room up to the end of a node, so that it may take bytes of the next frame; the
count of the bytes left then wraps.
-/

namespace Xten

open Std.IntegerCodec Std.Programs
open Xten.ByteArray (At Filled fixedBytes byteOrder)

/-- The bytes of a message before they are framed. -/
def Message.bytes (msg : Message) : List Byte :=
  msg.getMessageType.toByte :: msg.encoded .big

section Heads

theorem htobe32_htobe32 (val : BitVec 32) : htobe32 (htobe32 val) = val :=
  @byteSwap_byteSwap 4 val

/-- A frame: its head in front of its body. -/
def frame (flag : Byte) (body : List Byte) : List Byte :=
  ({ flag := flag, length := htobe32 (BitVec.ofNat 32 body.length) } : RockMsgHead).toBytes ++ body

variable {flag : Byte} {body rest : List Byte}

theorem RockMsgHead.length_toBytes (flag : Byte) (length : BitVec 32) :
    ({ flag := flag, length := length } : RockMsgHead).toBytes.length = RockMsgHead.size := by
  simp [toBytes, RockMsgHead.size]

theorem RockMsgHead.ofBytes_toBytes (flag : Byte) (length : BitVec 32) :
    RockMsgHead.ofBytes ({ flag := flag, length := length } : RockMsgHead).toBytes =
      { flag := flag, length := length } := by
  have field : (ofMemory (memory 4 length) : BitVec 32) = length :=
    @ofMemory_memory 4 length
  simp [toBytes, ofBytes, field]

theorem take_frame (flag : Byte) (body rest : List Byte) :
    (frame flag body ++ rest).take RockMsgHead.size =
      ({ flag := flag, length := htobe32 (BitVec.ofNat 32 body.length) } : RockMsgHead).toBytes := by
  rw [frame, List.append_assoc,
    ← RockMsgHead.length_toBytes flag (htobe32 (BitVec.ofNat 32 body.length)), List.take_left]

theorem drop_frame (flag : Byte) (body rest : List Byte) :
    (frame flag body ++ rest).drop RockMsgHead.size = body ++ rest := by
  rw [frame, List.append_assoc,
    ← RockMsgHead.length_toBytes flag (htobe32 (BitVec.ofNat 32 body.length)), List.drop_left]

theorem length_frame (flag : Byte) (body : List Byte) :
    (frame flag body).length = RockMsgHead.size + body.length := by
  rw [frame, List.length_append, RockMsgHead.length_toBytes]

theorem headLength_frame (flag : Byte) (body rest : List Byte) :
    RockMessageDecoder.headLength (frame flag body ++ rest) = body.length % 2 ^ 32 := by
  rw [RockMessageDecoder.headLength, take_frame, RockMsgHead.ofBytes_toBytes]
  simp only [htobe32_htobe32, BitVec.toNat_ofNat]

end Heads

namespace RockMessageDecoder

section Sending

variable {settings : Settings} {gzip : Gzip} {fresh : Nat → Byte}

/-- The flag and the body that a message is sent with. -/
def packed (settings : Settings) (gzip : Gzip) (msg : Message) : Except ZlibCall (Byte × List Byte) :=
  let length := BitVec.ofNat 32 msg.bytes.length
  if settings.minGzipBodyLength < length then
    (gzip.deflate (msg.bytes.take length.toNat)).map fun output => (1, output)
  else
    .ok (0, msg.bytes)

variable {capacity nodeSize : Nat} {before after : List Byte} {ba : ByteArray}

theorem zlibInput_eq (cut : At .big nodeSize capacity before after ba) (len : Nat) :
    zlibInput len ba = .ok (after.take len) ba := by
  obtain ⟨iovs, handed, contents⟩ := cut.getReadBuffers_eq len
  rw [zlibInput, bind_ok handed, ← contents]
  rfl

theorem zlibByteArray_eq (fresh : Nat → Byte) (output : List Byte) (ba : ByteArray) :
    ∃ later, zlibByteArray fresh output ba = .ok () later ∧
      At .big Message.defaultNodeSize (capacityFor Message.defaultNodeSize output.length) []
        output later := by
  have positive : 0 < Message.defaultNodeSize := by decide
  obtain ⟨written, wrote, filled⟩ := (ByteArray.make_filled positive fresh).write output
  obtain ⟨later, moved, cut⟩ := At.rewind filled
  rw [List.nil_append, List.append_nil] at cut
  refine ⟨later, ?_, cut⟩
  have replaced : (set (ByteArray.make Message.defaultNodeSize fresh) : ByteArray.Action Unit) ba =
      .ok ⟨⟩ (ByteArray.make Message.defaultNodeSize fresh) := rfl
  rw [zlibByteArray, bind_ok replaced, bind_ok wrote]
  exact moved

/-- The first part of `SerializeToStream` leaves the array at the start of the body. -/
theorem pack_eq (msg : Message)
    (filled : Filled .big Message.defaultNodeSize msg.bytes ba) :
    match packed settings gzip msg with
    | .error _ => ∃ ret later, pack settings gzip fresh ba = .ok (.error ret) later ∧ ret < 0
    | .ok (flag, body) => ∃ later capacity, pack settings gzip fresh ba =
          .ok (.ok { flag := flag, length := BitVec.ofNat 32 body.length }) later ∧
        At .big Message.defaultNodeSize capacity [] body later := by
  obtain ⟨start, moved, cut⟩ := At.rewind filled
  rw [List.append_nil] at cut
  have size : start.size = msg.bytes.length := cut.size_eq
  simp only [packed]
  by_cases large : settings.minGzipBodyLength < BitVec.ofNat 32 msg.bytes.length
  · have given := zlibInput_eq cut (BitVec.ofNat 32 msg.bytes.length).toNat
    simp only [if_pos large]
    generalize result : gzip.deflate (msg.bytes.take (BitVec.ofNat 32 msg.bytes.length).toNat) = out
    cases out with
    | error call =>
        cases call with
        | write =>
            refine ⟨-2, start, ?_, by decide⟩
            rw [pack, bind_ok moved, get_bind, size, if_pos large, bind_ok given, result]
            rfl
        | flush =>
            refine ⟨-3, start, ?_, by decide⟩
            rw [pack, bind_ok moved, get_bind, size, if_pos large, bind_ok given, result]
            rfl
    | ok output =>
        obtain ⟨later, made, cut⟩ := zlibByteArray_eq fresh output start
        refine ⟨later, _, ?_, cut⟩
        rw [pack, bind_ok moved, get_bind, size, if_pos large, bind_ok given, result]
        simp only [bind_ok made, get_bind, cut.size_eq, List.nil_append]
        rfl
  · simp only [if_neg large]
    refine ⟨start, _, ?_, cut⟩
    rw [pack, bind_ok moved, get_bind, size, if_neg large]
    rfl

/-- A message is framed and sent through a connected socket. -/
theorem serializeToStream_eq {msg : Message} {socket : Socket} {flag : Byte} {body : List Byte}
    (packs : packed settings gzip msg = .ok (flag, body)) (connected : socket.connected = true) :
    ∃ later, serializeToStream settings gzip fresh msg socket =
        .ok (if body.length = 0 then -5
          else (BitVec.ofNat 32 (RockMsgHead.size + body.length)).toInt) later ∧
      later.outgoing = socket.outgoing ++ frame flag body ∧ later.connected = true := by
  obtain ⟨ba, made, filled⟩ := msg.toByteArray_filled fresh
  have pack := @pack_eq settings gzip fresh ba msg filled
  rw [packs] at pack
  obtain ⟨start, capacity, packed, cut⟩ := pack
  obtain ⟨middle, headSent, outgoing, kept⟩ := Stream.writeFixBuffer_eq settings.positive connected
    ({ flag := flag, length := htobe32 (BitVec.ofNat 32 body.length) } : RockMsgHead).toBytes
  obtain ⟨last, after, bodySent, outgoing', still, cut'⟩ := Stream.writeFixSize_eq settings.positive
    cut kept (Nat.le_refl body.length)
  have readSize : start.getReadSize = body.length := cut.getReadSize_eq
  have size : last.size = body.length := by
    rw [cut'.size_eq, List.nil_append, List.take_append_drop]
  rw [RockMsgHead.length_toBytes] at headSent
  refine ⟨after, ?_, ?_, still⟩
  · simp only [serializeToStream, made, packed, headSent, readSize, bodySent, size]
    rw [if_neg (by decide)]
    by_cases none : body.length = 0
    · rw [if_pos (by omega), if_pos none]
    · rw [if_neg (by omega), if_neg none]
  · rw [outgoing', outgoing, List.take_length, frame, List.append_assoc]

/-- A message for which a positive value is returned has been framed and sent. -/
theorem sent_of_positive {msg : Message} {socket later : Socket} {ret : Int}
    (sent : serializeToStream settings gzip fresh msg socket = .ok ret later) (positive : 0 < ret) :
    ∃ flag body, packed settings gzip msg = .ok (flag, body) ∧ body ≠ [] ∧
      later.outgoing = socket.outgoing ++ frame flag body := by
  generalize packs : packed settings gzip msg = result
  cases result with
  | error call =>
      obtain ⟨ba, made, filled⟩ := msg.toByteArray_filled fresh
      have pack := @pack_eq settings gzip fresh ba msg filled
      rw [packs] at pack
      obtain ⟨code, start, stopped, negative⟩ := pack
      simp only [serializeToStream, made, stopped] at sent
      cases sent
      omega
  | ok result =>
      obtain ⟨flag, body⟩ := result
      refine ⟨flag, body, rfl, ?_⟩
      by_cases connected : socket.connected = true
      · obtain ⟨after, done, outgoing, -⟩ :=
          @serializeToStream_eq settings gzip fresh msg socket flag body packs connected
        rw [done] at sent
        cases sent
        refine ⟨?_, outgoing⟩
        rintro rfl
        simp at positive
      · obtain ⟨ba, made, filled⟩ := msg.toByteArray_filled fresh
        have pack := @pack_eq settings gzip fresh ba msg filled
        rw [packs] at pack
        obtain ⟨start, capacity, packed, cut⟩ := pack
        have some : ({ flag := flag, length := htobe32 (BitVec.ofNat 32 body.length) } :
            RockMsgHead).toBytes ≠ [] := List.cons_ne_nil _ _
        have closed := Bool.eq_false_iff.mpr connected
        simp only [serializeToStream, made, packed, Stream.writeFixBuffer_closed closed some] at sent
        rw [if_pos (by decide)] at sent
        cases sent
        omega

end Sending

section Receiving

variable {settings : Settings} {gzip : Gzip} {fresh : Nat → Byte} {nodeSize capacity : Nat}
  {flag : Byte} {body rest : List Byte} {socket middle later : Socket} {ba : ByteArray}

/-- The calls before the body: only a length above the limit is refused. -/
theorem parseFromStream_frame (connected : socket.connected = true)
    (incoming : socket.incoming = frame flag body ++ rest) (small : body.length < 2 ^ 32)
    (head : socket.Takes (bufferRoom settings.bufferSize) 0 RockMsgHead.size middle) :
    parseFromStream settings gzip fresh nodeSize socket =
      if settings.maxBodyLength.toNat < body.length then .ok none middle
      else receiveBody settings gzip fresh nodeSize flag body.length middle := by
  have read := Stream.readFixBuffer_eq head connected
  rw [incoming, take_frame] at read
  have length : (BitVec.ofNat 32 body.length).toNat = body.length := Nat.mod_eq_of_lt small
  simp only [parseFromStream, read, RockMsgHead.ofBytes_toBytes, htobe32_htobe32, BitVec.lt_def,
    length]
  rw [if_neg (by decide), if_neg (by decide), if_neg (by decide)]

/-- A body that is complete is parsed. -/
theorem receiveBody_eq (positive : 0 < nodeSize) (connected : socket.connected = true)
    (small : body.length < 2 ^ 32) (some : body ≠ [])
    (incoming : socket.incoming = body ++ rest)
    (takes : socket.Takes (arrayRoom nodeSize settings.bufferSize) 0 body.length later) :
    ∃ ba, Filled .big nodeSize body ba ∧
      (∀ msg last, unpack gzip fresh flag ba = .ok msg last →
        receiveBody settings gzip fresh nodeSize flag body.length socket = .ok msg later) ∧
      ∀ fault last, unpack gzip fresh flag ba = .error fault last →
        receiveBody settings gzip fresh nodeSize flag body.length socket = .error fault later := by
  obtain ⟨ba, read, filled⟩ := Stream.readFixSize_eq settings.positive positive fresh takes connected
    (by omega)
  have length := List.length_pos_iff.mpr some
  rw [incoming, List.take_left] at filled
  have answered : ¬ (body.length : Int) ≤ 0 := by omega
  refine ⟨ba, filled, fun msg last done => ?_, fun fault last stopped => ?_⟩
  · simp only [receiveBody, read, if_neg answered, done]
  · simp only [receiveBody, read, if_neg answered, stopped]

/-- Where a receive overruns a body, more than the body is gone if anything is
returned. -/
theorem receiveBody_overrun (positive : 0 < nodeSize) (connected : socket.connected = true)
    (small : body.length < 2 ^ 32) (incoming : socket.incoming = body ++ rest)
    (overrun : ∀ later,
      ¬ socket.Takes (arrayRoom nodeSize settings.bufferSize) 0 body.length later)
    {msg : Option Message}
    (returns : receiveBody settings gzip fresh nodeSize flag body.length socket = .ok msg later) :
    later.incoming.length + body.length < socket.incoming.length := by
  have there : body.length ≤ socket.incoming.length := by
    rw [incoming, List.length_append]
    exact Nat.le_add_right _ _
  simp only [receiveBody] at returns
  generalize read : Stream.readFixSize settings.bufferSize body.length
    (ByteArray.make nodeSize fresh, socket) = result at returns
  cases result with
  | error fault state => cases returns
  | ok ret state =>
      obtain ⟨ba, after⟩ := state
      have gone := Stream.readFixSize_overrun settings.positive positive fresh overrun connected
        there (by omega) read
      simp only at returns
      split at returns
      · cases returns
        exact gone
      · split at returns <;> cases returns
        exact gone

/-- Capacity of the array in which a message is parsed: that of the body as it came, or
that of the output of the decompression. -/
def parsedCapacity (settings : Settings) (nodeSize : Nat) (msg : Message) : Nat :=
  if settings.minGzipBodyLength < BitVec.ofNat 32 msg.bytes.length then
    capacityFor Message.defaultNodeSize msg.bytes.length
  else
    capacityFor nodeSize msg.bytes.length

theorem make_type (msg : Message) :
    Message.make msg.getMessageType.toByte = some msg.blank := by
  cases msg <;> rfl

/-- The message that is parsed from the bytes of one: its strings are cut. -/
theorem parseBody_bytes (msg : Message) (fits : msg.Fits)
    (shows : ba.Shows ⟨.big, capacity, [], msg.bytes⟩) :
    (msg.Sound capacity 1 →
      ∃ last, parseBody ByteArray.readers ba = .ok (some msg.cut) last) ∧
    (¬ msg.Sound capacity 1 →
      ∃ fault last, parseBody ByteArray.readers ba = .error fault last) := by
  have simulates := parseBody_simulates ByteArray.readers_simulate
  have typed : Cursor.readers.readFUint8 ⟨.big, capacity, [], msg.bytes⟩ =
      .ok msg.getMessageType.toByte ⟨.big, capacity, [msg.getMessageType.toByte], msg.encoded .big⟩ :=
    Cursor.readFUint8_append _
  constructor
  · intro sound
    have parsed := Message.parse_encoded .big [msg.getMessageType.toByte] [] msg msg.blank
      msg.blank_type fits sound
    rw [List.append_nil] at parsed
    have done : parseBody Cursor.readers ⟨.big, capacity, [], msg.bytes⟩ =
        .ok (some msg.cut) ⟨.big, capacity, [msg.getMessageType.toByte] ++ msg.encoded .big, []⟩ := by
      rw [parseBody, bind_ok typed, make_type]
      simp only
      rw [bind_ok parsed]
      rfl
    obtain ⟨last, done, -⟩ := simulates.ok shows done
    exact ⟨last, done⟩
  · intro unsound
    obtain ⟨fault, state, parsed⟩ := Message.parse_unsound .big [msg.getMessageType.toByte] [] msg
      msg.blank msg.blank_type fits unsound
    rw [List.append_nil] at parsed
    have stopped : parseBody Cursor.readers ⟨.big, capacity, [], msg.bytes⟩ = .error fault state := by
      rw [parseBody, bind_ok typed, make_type]
      simp only
      rw [bind_error parsed]
    obtain ⟨last, stopped, -⟩ := simulates.error shows stopped
    exact ⟨fault, last, stopped⟩

/-- A message of a size that fits the length field has strings that fit theirs. -/
theorem fits_of_size {msg : Message} (size : msg.bytes.length < 2 ^ 32) : msg.Fits := by
  cases msg with
  | request self =>
      simp only [Message.bytes, Message.encoded, List.length_cons, List.length_append,
        length_stringBytes] at size
      simp only [Message.Fits]
      omega
  | response self =>
      simp only [Message.bytes, Message.encoded, Response.encoded, List.length_cons,
        List.length_append, length_stringBytes] at size
      simp only [Message.Fits]
      omega
  | notify self =>
      simp only [Message.bytes, Message.encoded, List.length_cons, List.length_append,
        length_stringBytes] at size
      simp only [Message.Fits]
      omega

/-- What is made of the body that a message was sent with. -/
theorem unpack_eq {msg : Message}
    (inverse : ∀ data output, gzip.deflate data = .ok output → gzip.inflate output = .ok data)
    (sent : packed settings gzip msg = .ok (flag, body)) (size : msg.bytes.length < 2 ^ 32)
    (filled : Filled .big nodeSize body ba) :
    (msg.Sound (parsedCapacity settings nodeSize msg) 1 →
      ∃ last, unpack gzip fresh flag ba = .ok (some msg.cut) last) ∧
    (¬ msg.Sound (parsedCapacity settings nodeSize msg) 1 →
      ∃ fault last, unpack gzip fresh flag ba = .error fault last) := by
  obtain ⟨start, moved, cut⟩ := At.rewind filled
  rw [List.append_nil] at cut
  simp only [packed] at sent
  rw [parsedCapacity]
  by_cases large : settings.minGzipBodyLength < BitVec.ofNat 32 msg.bytes.length
  · have whole : (BitVec.ofNat 32 msg.bytes.length).toNat = msg.bytes.length :=
      Nat.mod_eq_of_lt size
    rw [if_pos large, whole, List.take_length] at sent
    rw [if_pos large]
    generalize deflated : gzip.deflate msg.bytes = output at sent
    cases output with
    | error call => cases sent
    | ok output =>
        cases sent
        have given := zlibInput_eq cut start.getReadSize
        rw [cut.getReadSize_eq, List.take_length] at given
        obtain ⟨made, written, again⟩ := zlibByteArray_eq fresh msg.bytes start
        have same : unpack gzip fresh 1 ba = parseBody ByteArray.readers made := by
          rw [unpack, bind_ok moved, if_pos (by decide), get_bind, cut.getReadSize_eq, bind_ok given,
            inverse _ _ deflated]
          simp only
          rw [bind_ok written]
        rw [same]
        exact parseBody_bytes msg (fits_of_size size) ⟨_, again⟩
  · rw [if_neg large] at sent
    rw [if_neg large]
    cases sent
    have same : unpack gzip fresh 0 ba = parseBody ByteArray.readers start := by
      rw [unpack, bind_ok moved, if_neg (by decide)]
    rw [same]
    exact parseBody_bytes msg (fits_of_size size) ⟨_, cut⟩

end Receiving

section InStep

/-- Number of bytes of the body that a message is sent with. -/
def bodyLength (settings : Settings) (gzip : Gzip) (msg : Message) : Nat :=
  match packed settings gzip msg with
  | .error _ => 0
  | .ok (_, body) => body.length

/-- A message that comes through its frame: it and its body are no longer than the two
ends allow, and its strings are read as they were written. -/
structure Travels (sending receiving : Settings) (gzip : Gzip) (nodeSize : Nat)
    (msg : Message) : Prop where
  size : msg.bytes.length < 2 ^ 32
  body : bodyLength sending gzip msg ≤ receiving.maxBodyLength.toNat
  sound : msg.Sound (parsedCapacity sending nodeSize msg) 1
  uncut : msg.cut = msg

/-- The receives of frames with bodies of some lengths: none of those made for a body
delivers more than is left of it. -/
inductive Paced (settings : Settings) (nodeSize : Nat) : Socket → List Nat → Prop where
  | nil (socket : Socket) : Paced settings nodeSize socket []
  | cons {length : Nat} {lengths : List Nat} {socket middle later : Socket}
      (head : socket.Takes (bufferRoom settings.bufferSize) 0 RockMsgHead.size middle)
      (body : middle.Takes (arrayRoom nodeSize settings.bufferSize) 0 length later)
      (rest : Paced settings nodeSize later lengths) :
      Paced settings nodeSize socket (length :: lengths)

variable {sending receiving : Settings} {gzip : Gzip} {fresh : Nat → Byte} {nodeSize : Nat}
  {flag : Byte} {body rest : List Byte} {socket middle later after : Socket} {msg : Message}

theorem bodyLength_eq (sent : packed sending gzip msg = .ok (flag, body)) :
    bodyLength sending gzip msg = body.length := by
  rw [bodyLength, sent]

/-- What is left in front of the body once the head is taken. -/
theorem incoming_body (incoming : socket.incoming = frame flag body ++ rest)
    (head : socket.Takes (bufferRoom receiving.bufferSize) 0 RockMsgHead.size middle) :
    middle.incoming = body ++ rest := by
  rw [head.incoming.2, incoming, drop_frame]

/-- One call on a paced frame returns its message and takes its bytes. -/
theorem parseFromStream_paced (positive : 0 < nodeSize)
    (inverse : ∀ data output, gzip.deflate data = .ok output → gzip.inflate output = .ok data)
    (sent : packed sending gzip msg = .ok (flag, body)) (nonempty : body ≠ [])
    (connected : socket.connected = true) (incoming : socket.incoming = frame flag body ++ rest)
    (travels : Travels sending receiving gzip nodeSize msg)
    (head : socket.Takes (bufferRoom receiving.bufferSize) 0 RockMsgHead.size middle)
    (takes : middle.Takes (arrayRoom nodeSize receiving.bufferSize) 0 body.length later) :
    parseFromStream receiving gzip fresh nodeSize socket = .ok (some msg) later ∧
      later.incoming = rest := by
  have within := travels.body
  rw [bodyLength_eq sent] at within
  have small : body.length < 2 ^ 32 := within.trans_lt receiving.maxBodyLength.isLt
  have before := incoming_body incoming head
  obtain ⟨ba, filled, parsed, -⟩ := @receiveBody_eq receiving gzip fresh nodeSize flag body rest
    middle later positive (head.kept.1.trans connected) small nonempty before takes
  obtain ⟨last, unpacked⟩ := (unpack_eq inverse sent travels.size filled).1 travels.sound
  rw [travels.uncut] at unpacked
  rw [parseFromStream_frame connected incoming small head, if_neg (Nat.not_lt.mpr within)]
  refine ⟨parsed _ _ unpacked, ?_⟩
  rw [takes.incoming.2, before, List.drop_left]

/-- A call that returns the message and takes its frame is one on a paced frame. -/
theorem parseFromStream_in_step (positive : 0 < nodeSize)
    (inverse : ∀ data output, gzip.deflate data = .ok output → gzip.inflate output = .ok data)
    (sent : packed sending gzip msg = .ok (flag, body)) (nonempty : body ≠ [])
    (connected : socket.connected = true) (incoming : socket.incoming = frame flag body ++ rest)
    (size : msg.bytes.length < 2 ^ 32) (small : body.length < 2 ^ 32)
    (returns : parseFromStream receiving gzip fresh nodeSize socket = .ok (some msg) after)
    (consumed : socket.incoming.length =
      after.incoming.length + (RockMsgHead.size + headLength socket.incoming)) :
    Travels sending receiving gzip nodeSize msg ∧
      ∃ middle, socket.Takes (bufferRoom receiving.bufferSize) 0 RockMsgHead.size middle ∧
        middle.Takes (arrayRoom nodeSize receiving.bufferSize) 0 body.length after := by
  have enough : RockMsgHead.size ≤ socket.incoming.length := by
    rw [incoming, List.length_append, length_frame]
    omega
  obtain ⟨middle, head⟩ := Socket.takes_buffer receiving.positive 0 enough
  have before := incoming_body incoming head
  have kept := head.kept.1.trans connected
  have field := headLength_frame flag body rest
  rw [← incoming, Nat.mod_eq_of_lt small] at field
  rw [parseFromStream_frame connected incoming small head] at returns
  split at returns
  · cases returns
  case isFalse within =>
    by_cases paced : ∃ later, middle.Takes (arrayRoom nodeSize receiving.bufferSize) 0 body.length
        later
    · obtain ⟨later, takes⟩ := paced
      obtain ⟨ba, filled, parsed, stopped⟩ := @receiveBody_eq receiving gzip fresh nodeSize flag
        body rest middle later positive kept small nonempty before takes
      have unpacked := @unpack_eq sending gzip fresh nodeSize flag body ba msg inverse sent size filled
      by_cases sound : msg.Sound (parsedCapacity sending nodeSize msg) 1
      · obtain ⟨last, done⟩ := unpacked.1 sound
        rw [parsed _ _ done] at returns
        simp only [EStateM.Result.ok.injEq, Option.some.injEq] at returns
        obtain ⟨uncut, rfl⟩ := returns
        refine ⟨⟨size, ?_, sound, uncut⟩, middle, head, takes⟩
        rw [bodyLength_eq sent]
        exact Nat.le_of_not_lt within
      · obtain ⟨fault, last, failed⟩ := unpacked.2 sound
        rw [stopped _ _ failed] at returns
        cases returns
    · have gone := receiveBody_overrun positive kept small before (not_exists.mp paced) returns
      rw [field] at consumed
      rw [incoming, List.length_append, length_frame] at consumed
      rw [before, List.length_append] at gone
      omega

/-- The first message sent is a frame in front of those of the others. -/
theorem Sends.cons_frame {msgs : List Message} {sender first sent receiver : Socket} {ret : Int}
    (head : serializeToStream sending gzip fresh msg sender = .ok ret first) (more : 0 < ret)
    (tail : Sends sending gzip fresh first msgs sent)
    (stream : sent.outgoing = sender.outgoing ++ receiver.incoming) :
    ∃ flag body rest, packed sending gzip msg = .ok (flag, body) ∧ body ≠ [] ∧
      receiver.incoming = frame flag body ++ rest ∧ sent.outgoing = first.outgoing ++ rest := by
  have extends_ : ∀ {before msgs after}, Sends sending gzip fresh before msgs after →
      ∃ rest, after.outgoing = before.outgoing ++ rest := by
    intro before msgs after sends
    induction sends with
    | nil => exact ⟨[], (List.append_nil _).symm⟩
    | cons sent positive rest ih =>
        obtain ⟨flag, body, -, -, outgoing⟩ := sent_of_positive sent positive
        obtain ⟨others, same⟩ := ih
        exact ⟨frame flag body ++ others, by rw [same, outgoing, List.append_assoc]⟩
  obtain ⟨flag, body, sent, nonempty, outgoing⟩ := sent_of_positive head more
  obtain ⟨rest, same⟩ := extends_ tail
  refine ⟨flag, body, rest, sent, nonempty, ?_, same⟩
  rw [same, outgoing, List.append_assoc] at stream
  exact (List.append_cancel_left stream).symm

theorem Sends.parses {msgs : List Message} {sender sent receiver : Socket} {fresh' : Nat → Byte}
    (positive : 0 < nodeSize)
    (inverse : ∀ data output, gzip.deflate data = .ok output → gzip.inflate output = .ok data)
    (sends : Sends sending gzip fresh sender msgs sent)
    (connected : receiver.connected = true)
    (stream : sent.outgoing = sender.outgoing ++ receiver.incoming)
    (travels : ∀ msg ∈ msgs, Travels sending receiving gzip nodeSize msg)
    (paced : Paced receiving nodeSize receiver (msgs.map (bodyLength sending gzip))) :
    ∃ after, Parses receiving gzip fresh' nodeSize receiver msgs after := by
  induction sends generalizing receiver with
  | nil => exact ⟨receiver, .nil receiver⟩
  | cons head more tail ih =>
      obtain ⟨flag, body, rest, packed, nonempty, incoming, others⟩ :=
        Sends.cons_frame head more tail stream
      obtain ⟨first, following⟩ := List.forall_mem_cons.mp travels
      rw [List.map_cons, bodyLength_eq packed] at paced
      cases paced with
      | cons headTakes bodyTakes restPaced =>
          obtain ⟨returns, left⟩ := @parseFromStream_paced sending receiving gzip fresh' _ _ _ _ _ _
            _ _ positive inverse packed nonempty connected incoming first headTakes bodyTakes
          have kept := (bodyTakes.kept.1.trans headTakes.kept.1).trans connected
          obtain ⟨after, parses⟩ := ih kept (left ▸ others) following restPaced
          have small : body.length < 2 ^ 32 :=
            (bodyLength_eq packed ▸ first.body).trans_lt receiving.maxBodyLength.isLt
          refine ⟨after, .cons returns ?_ parses⟩
          rw [left, incoming, headLength_frame, Nat.mod_eq_of_lt small, List.length_append,
            length_frame, Nat.add_comm]

theorem Sends.travels {msgs : List Message} {sender sent receiver after : Socket}
    {fresh' : Nat → Byte} (positive : 0 < nodeSize)
    (inverse : ∀ data output, gzip.deflate data = .ok output → gzip.inflate output = .ok data)
    (sends : Sends sending gzip fresh sender msgs sent)
    (connected : receiver.connected = true)
    (stream : sent.outgoing = sender.outgoing ++ receiver.incoming)
    (sizes : ∀ msg ∈ msgs, msg.bytes.length < 2 ^ 32 ∧ bodyLength sending gzip msg < 2 ^ 32)
    (parses : Parses receiving gzip fresh' nodeSize receiver msgs after) :
    (∀ msg ∈ msgs, Travels sending receiving gzip nodeSize msg) ∧
      Paced receiving nodeSize receiver (msgs.map (bodyLength sending gzip)) := by
  induction sends generalizing receiver with
  | nil => exact ⟨fun _ none => (List.not_mem_nil none).elim, .nil receiver⟩
  | cons head more tail ih =>
      obtain ⟨flag, body, rest, packed, nonempty, incoming, others⟩ :=
        Sends.cons_frame head more tail stream
      obtain ⟨⟨size, small⟩, following⟩ := List.forall_mem_cons.mp sizes
      rw [bodyLength_eq packed] at small
      cases parses with
      | cons returns consumed restParses =>
          obtain ⟨first, middle, headTakes, bodyTakes⟩ := parseFromStream_in_step positive inverse
            packed nonempty connected incoming size small returns consumed
          have kept := (bodyTakes.kept.1.trans headTakes.kept.1).trans connected
          have left : _ = rest := bodyTakes.incoming.2.trans (by
            rw [incoming_body incoming headTakes, List.drop_left])
          obtain ⟨rests, paced⟩ := ih kept (left ▸ others) following restParses
          refine ⟨List.forall_mem_cons.mpr ⟨first, rests⟩, ?_⟩
          rw [List.map_cons, bodyLength_eq packed]
          exact .cons headTakes bodyTakes paced

/-- Frames sent through a socket are read back message by message, each with its own
bytes, if every message comes through its frame and no receive made for a body delivers
more than is left of it. Of messages whose lengths fit the head nothing else is read
back so. -/
theorem parses_in_step {msgs : List Message} {sender sent receiver : Socket}
    (fresh' : Nat → Byte) (positive : 0 < nodeSize)
    (inverse : ∀ data output, gzip.deflate data = .ok output → gzip.inflate output = .ok data)
    (sends : Sends sending gzip fresh sender msgs sent)
    (connected : receiver.connected = true)
    (stream : sent.outgoing = sender.outgoing ++ receiver.incoming) :
    ((∀ msg ∈ msgs, Travels sending receiving gzip nodeSize msg) →
      Paced receiving nodeSize receiver (msgs.map (bodyLength sending gzip)) →
      ∃ after, Parses receiving gzip fresh' nodeSize receiver msgs after) ∧
    ((∀ msg ∈ msgs, msg.bytes.length < 2 ^ 32 ∧ bodyLength sending gzip msg < 2 ^ 32) →
      (∃ after, Parses receiving gzip fresh' nodeSize receiver msgs after) →
      (∀ msg ∈ msgs, Travels sending receiving gzip nodeSize msg) ∧
        Paced receiving nodeSize receiver (msgs.map (bodyLength sending gzip))) := by
  constructor
  · intro travels paced
    exact sends.parses positive inverse connected stream travels paced
  · rintro sizes ⟨after, parses⟩
    exact sends.travels positive inverse connected stream sizes parses

/-- A notification that is read with nothing behind it. -/
theorem parses_in_step_one :
    ∃ sent : Socket,
      Sends .default ⟨.ok, .ok⟩ (fun _ => 0) ⟨true, [], [], fun _ => 100⟩
        [.notify { notify := 5, data := [7] }] sent ∧
      ∃ after, Parses .default ⟨.ok, .ok⟩ (fun _ => 0) 4096
        ⟨true, [0x12, 0x21, 1, 0, 0, 0, 0, 10, 3, 0, 0, 0, 5, 0, 0, 0, 1, 7], [], fun _ => 100⟩
        [.notify { notify := 5, data := [7] }] after := by
  have packs : packed .default ⟨.ok, .ok⟩ (.notify { notify := 5, data := [7] }) =
      .ok (0, [3, 0, 0, 0, 5, 0, 0, 0, 1, 7]) := rfl
  obtain ⟨sent, done, outgoing, -⟩ := @serializeToStream_eq .default ⟨.ok, .ok⟩ (fun _ => 0) _
    ⟨true, [], [], fun _ => 100⟩ _ _ packs rfl
  have sends := Sends.cons done (by decide) (.nil sent)
  refine ⟨sent, sends, ?_⟩
  have travels : Travels .default .default ⟨.ok, .ok⟩ 4096
      (.notify { notify := 5, data := [7] }) := ⟨by decide, by decide,
    by simp [Message.Sound, ReadsSoundly], rfl⟩
  have inverse : ∀ data output, (⟨.ok, .ok⟩ : Gzip).deflate data = .ok output →
      (⟨.ok, .ok⟩ : Gzip).inflate output = .ok data := by
    rintro data output ⟨⟩
    rfl
  apply (parses_in_step (fun _ => 0) (by decide) inverse sends rfl outgoing).1
  · exact List.forall_mem_singleton.mpr travels
  · exact .cons (.once (by decide) (by decide)) (.once (by decide) (by decide)) (.nil _)

/-- Two notifications that have both arrived when the first is read: its body takes the
bytes of the second. -/
theorem not_parses_two :
    ∃ sent : Socket,
      Sends .default ⟨.ok, .ok⟩ (fun _ => 0) ⟨true, [], [], fun _ => 100⟩
        [.notify { notify := 5, data := [7] }, .notify { notify := 6, data := [8] }] sent ∧
      sent.outgoing =
        [0x12, 0x21, 1, 0, 0, 0, 0, 10, 3, 0, 0, 0, 5, 0, 0, 0, 1, 7,
          0x12, 0x21, 1, 0, 0, 0, 0, 10, 3, 0, 0, 0, 6, 0, 0, 0, 1, 8] ∧
      ¬ ∃ after, Parses .default ⟨.ok, .ok⟩ (fun _ => 0) 4096 ⟨true, sent.outgoing, [], fun _ => 100⟩
        [.notify { notify := 5, data := [7] }, .notify { notify := 6, data := [8] }] after := by
  have packs : packed .default ⟨.ok, .ok⟩ (.notify { notify := 5, data := [7] }) =
      .ok (0, [3, 0, 0, 0, 5, 0, 0, 0, 1, 7]) := rfl
  have packs' : packed .default ⟨.ok, .ok⟩ (.notify { notify := 6, data := [8] }) =
      .ok (0, [3, 0, 0, 0, 6, 0, 0, 0, 1, 8]) := rfl
  obtain ⟨middle, first, outgoing, connected⟩ := @serializeToStream_eq .default ⟨.ok, .ok⟩
    (fun _ => 0) _ ⟨true, [], [], fun _ => 100⟩ _ _ packs rfl
  obtain ⟨sent, second, outgoing', -⟩ := @serializeToStream_eq .default ⟨.ok, .ok⟩
    (fun _ => 0) _ middle _ _ packs' connected
  have sends := Sends.cons first (by decide) (.cons second (by decide) (.nil sent))
  have stream : sent.outgoing =
      [0x12, 0x21, 1, 0, 0, 0, 0, 10, 3, 0, 0, 0, 5, 0, 0, 0, 1, 7,
        0x12, 0x21, 1, 0, 0, 0, 0, 10, 3, 0, 0, 0, 6, 0, 0, 0, 1, 8] := by
    rw [outgoing', outgoing]
    rfl
  have inverse : ∀ data output, (⟨.ok, .ok⟩ : Gzip).deflate data = .ok output →
      (⟨.ok, .ok⟩ : Gzip).inflate output = .ok data := by
    rintro data output ⟨⟩
    rfl
  refine ⟨sent, sends, stream, ?_⟩
  rintro ⟨after, parses⟩
  obtain ⟨-, paced⟩ := sends.travels (by decide) inverse rfl (List.nil_append _).symm
    (by decide) parses
  rw [stream] at paced
  cases paced with
  | cons head body rest =>
      have taken := head.unique (.once (by decide) (by decide))
      subst taken
      cases body with
      | more _ _ within _ => exact absurd within (by decide)

end InStep

end RockMessageDecoder

end Xten
