import Xten.Xftp.Messages

/-!
# What escapes from the decoders

On which streams the two message decoders return. The parsers of the Rock classes
handle exceptions, the decoder itself and the parsers of the Xftp classes do not.
-/

namespace Xten

open Std.Programs
open MessageDecoder (Arrives Readable)

namespace Xftp

section Simulation

/-- The reads of a sequence of bytes. -/
def cursorReaders : Readers Cursor where
  toReaders := Cursor.readers
  readFUint64 := Cursor.readFixed 8

theorem Part.parse_simulates :
    Simulates (Beside ByteArray.Shows Part) (Part.parseFromByteArray readers)
      (Part.parseFromByteArray cursorReaders) := by
  apply (assign_simulates readStringF32_simulates _).bind
  intro _
  apply (assign_simulates readStringF32_simulates _).bind
  intro _
  apply (assign_simulates (readFixed_simulates 8) _).bind
  intro _
  apply (assign_simulates (readFixed_simulates 8) _).bind
  intro _
  apply (assign_simulates readFUint8_simulates _).bind
  intro _
  apply (assign_simulates readFUint32_simulates _).bind
  intro _
  exact assign_simulates readStringF32_simulates _

theorem Message.parse_simulates (msg : Message) :
    Simulates ByteArray.Shows (msg.parseFromByteArray readers)
      (msg.parseFromByteArray cursorReaders) := by
  cases msg with
  | request self =>
      apply MessageDecoder.callOn_simulates
      apply (onBase_simulates (Request.parse_simulates ByteArray.readers_simulate)).bind
      intro ret
      exact (onBase_simulates Part.parse_simulates).bind fun _ => Simulates.pure ret
  | response self =>
      apply MessageDecoder.callOn_simulates
      apply (onBase_simulates (Response.parse_simulates ByteArray.readers_simulate)).bind
      intro ret
      exact (onBase_simulates Part.parse_simulates).bind fun _ => Simulates.pure ret

end Simulation

section Classes

/-- The reads of the lines that the two parsers have in common. -/
def Part.reads : List Read :=
  [.string, .string, .fixed 8, .fixed 8, .fixed 1, .fixed 4, .string]

theorem Part.follows : Follows (Part.parseFromByteArray cursorReaders) () Part.reads :=
  (makes_string.assign _).seq ((makes_string.assign _).seq (((makes_fixed 8).assign _).seq
    (((makes_fixed 8).assign _).seq ((makes_byte.assign _).seq ((makes_word.assign _).seq
      (makes_string.assign _))))))

namespace Message

/-- The reads of the class of a message, after its type byte. -/
def reads : Message → List Read
  | .request _ => [.fixed 4, .fixed 4] ++ Part.reads
  | .response _ => [.fixed 4, .fixed 4, .fixed 4, .string] ++ Part.reads

/-- The reads that a type byte announces, if it is that of a class. -/
def announced (type : Byte) : Option (List Read) :=
  (make type).map reads

theorem request_follows :
    Follows (XftpRequest.parseFromByteArray cursorReaders) true
      ([.fixed 4, .fixed 4] ++ (Part.reads ++ [])) := by
  apply Request.follows.onBase.bind
  exact Part.follows.onBase.seq (Follows.pure true)

theorem response_follows :
    Follows (XftpResponse.parseFromByteArray cursorReaders) true
      ([.fixed 4, .fixed 4, .fixed 4, .string] ++ (Part.reads ++ [])) := by
  apply Response.follows.onBase.bind
  exact Part.follows.onBase.seq (Follows.pure true)

/-- The parsers of the classes handle no fault. -/
theorem heeds (msg : Message) :
    MessageDecoder.Heeds (fun _ => false) (msg.parseFromByteArray cursorReaders) msg.reads := by
  cases msg with
  | request self => exact MessageDecoder.heeds_of_answers request_follows.answers self _
  | response self => exact MessageDecoder.heeds_of_answers response_follows.answers self _

theorem announced_heeds (type : Byte) (list : List Read) (msg : Message)
    (read : announced type = some list) (made : make type = some msg) :
    MessageDecoder.Heeds (fun _ => false) (msg.parseFromByteArray cursorReaders) list := by
  rw [announced, made] at read
  cases read
  exact msg.heeds

end Message

end Classes

end Xftp

section Decoders

variable {gzip : Gzip} {fresh : Nat → Byte} {nodeSize : Nat} {socket : Socket}

theorem RockMessageDecoder.parseFromStream_returns_iff {settings : Settings}
    (positive : 0 < nodeSize) :
    Returns (RockMessageDecoder.parseFromStream settings gzip fresh nodeSize) socket ↔
      ∀ cursor, Arrives settings.bufferSize (some settings.maxBodyLength) gzip nodeSize socket cursor →
        Readable Fault.isException Message.announced cursor := by
  have simulates := parseBody_simulates ByteArray.readers_simulate
  rw [RockMessageDecoder.parseFromStream_eq,
    MessageDecoder.parseFromStream_returns_iff settings.positive positive simulates]
  refine forall₂_congr fun cursor arrives => ?_
  rw [RockMessageDecoder.parseBody_eq]
  exact MessageDecoder.parseBody_returns_iff (fun type => Option.map_eq_none_iff)
    Message.announced_heeds cursor

theorem Xftp.XftpMessageDecoder.parseFromStream_returns_iff {bufferSize : Nat}
    (positive : 0 < bufferSize) (positiveNode : 0 < nodeSize) :
    Returns (Xftp.XftpMessageDecoder.parseFromStream bufferSize gzip fresh nodeSize) socket ↔
      ∀ cursor, Arrives bufferSize none gzip nodeSize socket cursor →
        Readable (fun _ => false) Xftp.Message.announced cursor := by
  have simulates : Simulates ByteArray.Shows
      (Xftp.XftpMessageDecoder.parseBody Xftp.readers)
      (Xftp.XftpMessageDecoder.parseBody Xftp.cursorReaders) :=
    MessageDecoder.parseBody_simulates readFUint8_simulates _ Xftp.Message.parse_simulates
  rw [Xftp.XftpMessageDecoder.parseFromStream,
    MessageDecoder.parseFromStream_returns_iff positive positiveNode simulates]
  refine forall₂_congr fun cursor arrives => ?_
  exact MessageDecoder.parseBody_returns_iff (fun type => Option.map_eq_none_iff)
    Xftp.Message.announced_heeds cursor

/-- The streams on which the decoders return a message, be it null. In the Rock decoder
the bytes that arrive must start with a type byte, and a read of the class for it may at
most throw; in the Xftp decoder no read may fail at all. -/
theorem decoders_return (settings : Settings) (gzip : Gzip) (fresh : Nat → Byte) (nodeSize : Nat)
    (positive : 0 < nodeSize) (socket : Socket) :
    (Returns (RockMessageDecoder.parseFromStream settings gzip fresh nodeSize) socket ↔
      ∀ cursor,
        Arrives settings.bufferSize (some settings.maxBodyLength) gzip nodeSize socket cursor →
          Readable Fault.isException Message.announced cursor) ∧
    (Returns (Xftp.XftpMessageDecoder.parseFromStream settings.bufferSize gzip fresh nodeSize)
        socket ↔
      ∀ cursor, Arrives settings.bufferSize none gzip nodeSize socket cursor →
        Readable (fun _ => false) Xftp.Message.announced cursor) :=
  ⟨RockMessageDecoder.parseFromStream_returns_iff positive,
    Xftp.XftpMessageDecoder.parseFromStream_returns_iff settings.positive positive⟩

/-- An open stream with some bytes, which come at once. -/
def streamOf (bytes : List Byte) : Socket where
  connected := true
  incoming := bytes
  outgoing := []
  turns := fun _ => bytes.length

/-- A gzip in which the first byte of a header makes no output yet. -/
def noOutput : Gzip where
  deflate := fun _ => .error .write
  inflate := fun data => if data = [0x1f] then .ok [] else .error .write

theorem decoders_return_default :
    0 < 4096 ∧
    (Returns (RockMessageDecoder.parseFromStream Settings.default noOutput (fun _ => 0) 4096)
        (streamOf []) ↔
      ∀ cursor, Arrives Settings.default.bufferSize (some Settings.default.maxBodyLength) noOutput
          4096 (streamOf []) cursor →
        Readable Fault.isException Message.announced cursor) ∧
    (Returns (Xftp.XftpMessageDecoder.parseFromStream Settings.default.bufferSize noOutput
        (fun _ => 0) 4096) (streamOf []) ↔
      ∀ cursor, Arrives Settings.default.bufferSize none noOutput 4096 (streamOf []) cursor →
        Readable (fun _ => false) Xftp.Message.announced cursor) :=
  ⟨by decide, decoders_return Settings.default noOutput (fun _ => 0) 4096 (by decide)
    (streamOf [])⟩

/-- One byte that comes behind its head arrives. -/
theorem arrives_byte (flag byte : Byte) {limit : Option (BitVec 32)} {cursor : Cursor}
    (within : MessageDecoder.exceeds limit 1 = false)
    (given : MessageDecoder.payload noOutput flag (capacityFor 4096 1) [byte] = some cursor) :
    Arrives Settings.default.bufferSize limit noOutput 4096 (streamOf (frame flag [byte])) cursor := by
  have head : (streamOf (frame flag [byte])).Takes (bufferRoom Settings.default.bufferSize) 0
      RockMsgHead.size ((streamOf (frame flag [byte])).received RockMsgHead.size) := by
    apply Socket.Takes.once (by decide)
    simp only [Socket.delivery, Socket.share, streamOf, length_frame, List.length_singleton]
    decide
  have body : ((streamOf (frame flag [byte])).received RockMsgHead.size).Takes
      (arrayRoom 4096 Settings.default.bufferSize) 0 [byte].length
      (((streamOf (frame flag [byte])).received RockMsgHead.size).received [byte].length) := by
    apply Socket.Takes.once Nat.one_pos
    simp only [Socket.delivery, Socket.share, Socket.received, streamOf, List.length_drop,
      length_frame, List.length_singleton]
    decide
  have incoming : (streamOf (frame flag [byte])).incoming = frame flag [byte] ++ [] :=
    (List.append_nil _).symm
  obtain ⟨flagged, receives⟩ := MessageDecoder.receives_frame Settings.default.positive
    (by decide) rfl incoming (by simp) (List.cons_ne_nil _ _) within head body
  exact ⟨_, _, receives, by rwa [flagged]⟩

/-- A compressed body that decompresses to nothing makes the Rock decoder throw, and a
request that ends after its type byte the Xftp decoder. -/
theorem decoders_throw :
    ¬ Returns (RockMessageDecoder.parseFromStream Settings.default noOutput (fun _ => 0) 4096)
        (streamOf (frame 1 [0x1f])) ∧
      ¬ Returns (Xftp.XftpMessageDecoder.parseFromStream Settings.default.bufferSize noOutput
        (fun _ => 0) 4096) (streamOf (frame 0 [1])) := by
  rw [RockMessageDecoder.parseFromStream_returns_iff (by decide),
    Xftp.XftpMessageDecoder.parseFromStream_returns_iff Settings.default.positive (by decide)]
  constructor
  · intro readable
    exact readable ⟨.big, capacityFor 4096 0, [], []⟩ (arrives_byte 1 0x1f (by decide) (by decide))
  · intro readable
    exact absurd (readable ⟨.big, capacityFor 4096 1, [], [1]⟩
      (arrives_byte 0 1 (by decide) (by decide))) (by decide)

end Decoders

end Xten
