import Xten.Rock.Decoder

/-!
# Xftp messages

The message classes of `xftp_protocol.cpp`, their parsers and their decoder. The
classes lack the handlers of the Rock classes, and the decoder the limit to the length
of a body.
-/

namespace Xten.Xftp

open Std.Programs
open Xten.ByteArray (Action)

/-- The reads of an array that these parsers use. -/
structure Readers (σ : Type) extends Xten.Readers σ where
  readFUint64 : EStateM Fault σ (BitVec 64)

/-- The reads of a byte array. -/
def readers : Readers ByteArray where
  toReaders := ByteArray.readers
  readFUint64 := ByteArray.readFUint64

/-- The fields that the two classes have in common: the digest and the name of the file,
how much of it has been sent, its size, whether this is its last packet, the number of
that packet, and the data. -/
@[ext] structure Part where
  md5 : List Byte := []
  name : List Byte := []
  transSize : BitVec 64 := 0
  totalSize : BitVec 64 := 0
  last : BitVec 8 := 0
  lastSn : BitVec 32 := 0
  data : List Byte := []
deriving DecidableEq, Repr

@[ext] structure XftpRequest extends Request, Part
deriving DecidableEq, Repr

@[ext] structure XftpResponse extends Response, Part
deriving DecidableEq, Repr

section Parsers

variable {σ : Type} (ba : Readers σ)

/-- The lines that the two parsers have in common. -/
def Part.parseFromByteArray : EStateM Fault (σ × Part) Unit := do
  assign ba.readStringF32 fun value self => { self with md5 := value }
  assign ba.readStringF32 fun value self => { self with name := value }
  assign ba.readFUint64 fun value self => { self with transSize := value }
  assign ba.readFUint64 fun value self => { self with totalSize := value }
  assign ba.readFUint8 fun value self => { self with last := value }
  assign ba.readFUint32 fun value self => { self with lastSn := value }
  assign ba.readStringF32 fun value self => { self with data := value }

def XftpRequest.parseFromByteArray : EStateM Fault (σ × XftpRequest) Bool := do
  let ret ← onBase (·.toRequest) (fun part self => { self with toRequest := part })
    (Request.parseFromByteArray ba.toReaders)
  onBase (·.toPart) (fun part self => { self with toPart := part }) (Part.parseFromByteArray ba)
  return ret

def XftpResponse.parseFromByteArray : EStateM Fault (σ × XftpResponse) Bool := do
  let ret ← onBase (·.toResponse) (fun part self => { self with toResponse := part })
    (Response.parseFromByteArray ba.toReaders)
  onBase (·.toPart) (fun part self => { self with toPart := part }) (Part.parseFromByteArray ba)
  return ret

end Parsers

/-- An object of one of the two classes. -/
inductive Message where
  | request (self : XftpRequest)
  | response (self : XftpResponse)
deriving DecidableEq, Repr

namespace Message

/-- The new object that the decoder makes for a type byte, null for the other types. -/
def make (type : Byte) : Option Message :=
  if type = MessageType.request.toByte then some (.request {})
  else if type = MessageType.response.toByte then some (.response {})
  else none

/-- `ParseFromByteArray`: the value returned and the object it leaves. -/
def parseFromByteArray {σ : Type} (ba : Readers σ) : Message → EStateM Fault σ (Bool × Message)
  | .request self => MessageDecoder.callOn (XftpRequest.parseFromByteArray ba) self .request
  | .response self => MessageDecoder.callOn (XftpResponse.parseFromByteArray ba) self .response

end Message

namespace XftpMessageDecoder

/-- The end of `ParseFromStream`, on the array with the body. -/
def parseBody {σ : Type} (ba : Readers σ) : EStateM Fault σ (Option Message) :=
  MessageDecoder.parseBody ba.toReaders Message.make (Message.parseFromByteArray ba)

/-- `ParseFromStream`; none is the null message. -/
def parseFromStream (bufferSize : Nat) (gzip : Gzip) (fresh : Nat → Byte) (nodeSize : Nat) :
    EStateM Fault Socket (Option Message) :=
  MessageDecoder.parseFromStream (parseBody readers) bufferSize gzip fresh none nodeSize

end XftpMessageDecoder

end Xten.Xftp
