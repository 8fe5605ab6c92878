import Xten.Rock.Messages
import Xten.Stream.Socket

/-!
# Frames on a stream

`RockMessageDecoder::SerializeToStream` and `ParseFromStream`: a head of eight bytes
and a body, which is compressed from some length on.
-/

namespace Xten

open Std.IntegerCodec
open Xten.ByteArray (Action byteOrder)

/-- `htobe32` and `be32toh`. -/
def htobe32 (val : BitVec 32) : BitVec 32 :=
  if byteOrder = .little then byteSwap 4 val else val

/-- `RockMsgHead`. The length is kept as it is in memory. -/
structure RockMsgHead where
  magic : List Byte := [0x12, 0x21]
  version : Byte := 1
  flag : Byte := 0
  length : BitVec 32 := 0
deriving DecidableEq, Repr

namespace RockMsgHead

/-- `sizeof(RockMsgHead)`. -/
def size : Nat := 8

/-- The bytes of a head in memory. -/
def toBytes (head : RockMsgHead) : List Byte :=
  head.magic ++ [head.version, head.flag] ++ memory 4 head.length

/-- The head that some bytes in memory are. -/
def ofBytes (bytes : List Byte) : RockMsgHead where
  magic := bytes.take 2
  version := bytes.getD 2 0
  flag := bytes.getD 3 0
  length := ofMemory (bytes.drop 4)

end RockMsgHead

/-- A call of a `ZlibStream`. -/
inductive ZlibCall where
  | write
  | flush
deriving DecidableEq, Repr

/-- What a gzip `ZlibStream` makes of some bytes, written to it at once and flushed:
the bytes of `GetByteArray`, or the call that does not return `Z_OK`. The streams rest
on zlib. -/
structure Gzip where
  deflate : List Byte → Except ZlibCall (List Byte)
  inflate : List Byte → Except ZlibCall (List Byte)

/-- The settings of both ends: `stream_buffer.size`, `rock.protocol.max_body_length` and
`rock.protocol.min_gzip_body_length`. -/
structure Settings where
  bufferSize : Nat
  maxBodyLength : BitVec 32
  minGzipBodyLength : BitVec 32
  positive : 0 < bufferSize

/-- The settings where the configuration says nothing else. -/
def Settings.default : Settings where
  bufferSize := 1024 * 16
  maxBodyLength := 1024 * 1024 * 64
  minGzipBodyLength := 1024 * 4
  positive := by decide

namespace RockMessageDecoder

variable (settings : Settings) (gzip : Gzip) (fresh : Nat → Byte)

/-- `GetByteArray` of a `ZlibStream` with some output. -/
def zlibByteArray (output : List Byte) : Action Unit := do
  set (ByteArray.make Message.defaultNodeSize fresh)
  ByteArray.write output
  ByteArray.setPosition 0

/-- The bytes that a `ZlibStream` is given of an array. -/
def zlibInput (len : Nat) : Action (List Byte) := do
  let (iovs, _) ← ByteArray.getReadBuffers len
  return iovs.flatMap (← get).iovecBytes

/-- The first part of `SerializeToStream`, on the array with the body: the head, with
its length in host order, or the value that is returned at once. -/
def pack : Action (Except Int RockMsgHead) := do
  ByteArray.setPosition 0
  let length := BitVec.ofNat 32 (← get).size
  if settings.minGzipBodyLength < length then
    match gzip.deflate (← zlibInput length.toNat) with
    | .error .write => return .error (-2)
    | .error .flush => return .error (-3)
    | .ok output =>
        zlibByteArray fresh output
        return .ok { flag := 1, length := BitVec.ofNat 32 (← get).size }
  else
    return .ok { length := length }

/-- `SerializeToStream`. The value returned is an `int32_t`. -/
def serializeToStream (msg : Message) : EStateM Fault Socket Int := fun socket =>
  match msg.toByteArray fresh with
  | .error fault => .error fault socket
  | .ok none => .ok (-1) socket
  | .ok (some ba) =>
      match pack settings gzip fresh ba with
      | .error fault _ => .error fault socket
      | .ok (.error ret) _ => .ok ret socket
      | .ok (.ok head) ba =>
          let head := { head with length := htobe32 head.length }
          let (ret, socket) := Stream.writeFixBuffer settings.bufferSize head.toBytes socket
          if ret ≤ 0 then
            .ok (-4) socket
          else
            match Stream.writeFixSize settings.bufferSize ba.getReadSize (ba, socket) with
            | .error fault (_, socket) => .error fault socket
            | .ok ret (ba, socket) =>
                if ret ≤ 0 then .ok (-5) socket
                else .ok (BitVec.ofNat 32 (RockMsgHead.size + ba.size)).toInt socket

/-- The last part of `ParseFromStream`, on the array with the body as it came. -/
def unpack (flag : Byte) : Action (Option Message) := do
  ByteArray.setPosition 0
  if flag &&& 1 ≠ 0 then
    match gzip.inflate (← zlibInput (← get).getReadSize) with
    | .error _ => return none
    | .ok output =>
        zlibByteArray fresh output
        parseBody ByteArray.readers
  else
    parseBody ByteArray.readers

/-- The part of `ParseFromStream` after the checks of the head: the body is read into
an array with nodes of some size. -/
def receiveBody (nodeSize : Nat) (flag : Byte) (length : Nat) :
    EStateM Fault Socket (Option Message) := fun socket =>
  match Stream.readFixSize settings.bufferSize length (ByteArray.make nodeSize fresh, socket) with
  | .error fault (_, socket) => .error fault socket
  | .ok ret (ba, socket) =>
      if ret ≤ 0 then
        .ok none socket
      else
        match unpack gzip fresh flag ba with
        | .error fault _ => .error fault socket
        | .ok msg _ => .ok msg socket

/-- `ParseFromStream`; none is the null message. -/
def parseFromStream (nodeSize : Nat) : EStateM Fault Socket (Option Message) := fun socket =>
  let ((ret, bytes), socket) :=
    Stream.readFixBuffer settings.bufferSize RockMsgHead.size socket
  let head := RockMsgHead.ofBytes bytes
  let length := htobe32 head.length
  if ret ≤ 0 then
    .ok none socket
  else if head.magic ≠ [0x12, 0x21] then
    .ok none socket
  else if head.version ≠ 1 then
    .ok none socket
  else if settings.maxBodyLength < length then
    .ok none socket
  else
    receiveBody settings gzip fresh nodeSize head.flag length.toNat socket

/-- Messages sent one after the other through one socket, each with a positive value
returned. -/
inductive Sends : Socket → List Message → Socket → Prop where
  | nil (socket : Socket) : Sends socket [] socket
  | cons {msg : Message} {msgs : List Message} {before middle after : Socket} {ret : Int}
      (sent : serializeToStream settings gzip fresh msg before = .ok ret middle)
      (positive : 0 < ret) (rest : Sends middle msgs after) :
      Sends before (msg :: msgs) after

/-- The length field of the head in front of a stream, in host order. -/
def headLength (incoming : List Byte) : Nat :=
  (htobe32 (RockMsgHead.ofBytes (incoming.take RockMsgHead.size)).length).toNat

/-- Successive calls of `ParseFromStream` return some messages in order, and each takes
the head and the bytes that its length field says. -/
inductive Parses (nodeSize : Nat) : Socket → List Message → Socket → Prop where
  | nil (socket : Socket) : Parses nodeSize socket [] socket
  | cons {msg : Message} {msgs : List Message} {before middle after : Socket}
      (returns : parseFromStream settings gzip fresh nodeSize before = .ok (some msg) middle)
      (consumed : before.incoming.length =
        middle.incoming.length + (RockMsgHead.size + headLength before.incoming))
      (rest : Parses nodeSize middle msgs after) :
      Parses nodeSize before (msg :: msgs) after

end RockMessageDecoder

end Xten
