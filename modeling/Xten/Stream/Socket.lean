import Xten.ByteArray.Regions

/-!
# Streams over a socket

`Socket`, `SocketStream` and the fixed-size transfers of `Stream`. The network moves
at least one byte and at most as many as a call has room for; which number it is, is
up to the network, and given here for every call to come.
-/

namespace Xten

open Xten.ByteArray (Iovec total scatter)

/-- One end of a connection: the bytes that the peer sends, before its shutdown, and
are not received yet; the bytes sent; and what the network would like to move at the
calls to come. -/
structure Socket where
  connected : Bool
  incoming : List Byte
  outgoing : List Byte
  turns : Nat → Nat

namespace Socket

/-- How many bytes the next call moves, of the most it can. -/
def share (socket : Socket) (most : Nat) : Nat :=
  min most (max 1 (socket.turns 0))

/-- The socket after a receive of some bytes. -/
def received (socket : Socket) (count : Nat) : Socket :=
  { socket with
    incoming := socket.incoming.drop count
    turns := fun turn => socket.turns (turn + 1) }

/-- The socket after some bytes are sent. -/
def sent (socket : Socket) (data : List Byte) : Socket :=
  { socket with
    outgoing := socket.outgoing ++ data
    turns := fun turn => socket.turns (turn + 1) }

/-- How many bytes the next receive with some room delivers. -/
def delivery (socket : Socket) (room : Nat) : Nat :=
  socket.share (min room socket.incoming.length)

/-- `Recv(buf, len)`: the value returned and the bytes put into `buf`. -/
def recv (len : Nat) (socket : Socket) : (Int × List Byte) × Socket :=
  if socket.connected then
    let ret := socket.delivery len
    ((ret, socket.incoming.take ret), socket.received ret)
  else
    ((-1, []), socket)

/-- `RecvV(iov, iovcnt)`: the bytes go into the regions one after the other. -/
def recvV (iovs : List Iovec) (socket : Socket) : (Int × List Byte) × Socket :=
  socket.recv (total iovs)

/-- `Send(buf, len)`. -/
def send (buf : List Byte) (socket : Socket) : Int × Socket :=
  if socket.connected then
    let ret := socket.share buf.length
    (ret, socket.sent (buf.take ret))
  else
    (-1, socket)

/-- `SendV(iov, iovcnt)`, with the regions of an array. -/
def sendV (iovs : List Iovec) (ba : ByteArray) (socket : Socket) : Int × Socket :=
  socket.send (iovs.flatMap ba.iovecBytes)

end Socket

/-- A method that works on a byte array and a socket. -/
abbrev Transfer := EStateM Fault (ByteArray × Socket)

namespace SocketStream

/-- `Read(buffer, len)`. -/
def readBuffer (len : Nat) (socket : Socket) : (Int × List Byte) × Socket :=
  if socket.connected then socket.recv len else ((-1, []), socket)

/-- `Read(ba, len)`. -/
def read (len : Nat) : Transfer Int := fun (ba, socket) =>
  if socket.connected then
    match ByteArray.getWriteBuffers len ba with
    | .error fault ba => .error fault (ba, socket)
    | .ok (iovs, _) ba =>
        let ((ret, data), socket) := socket.recvV iovs
        let ba := scatter iovs data ba
        if 0 < ret then
          match ByteArray.setPosition (ba.position + ret.toNat) ba with
          | .error fault ba => .error fault (ba, socket)
          | .ok () ba => .ok ret (ba, socket)
        else
          .ok ret (ba, socket)
  else
    .ok (-1) (ba, socket)

/-- `Write(buffer, len)`. -/
def writeBuffer (buffer : List Byte) (socket : Socket) : Int × Socket :=
  if socket.connected then socket.send buffer else (-1, socket)

/-- `Write(ba, len)`. -/
def write (len : Nat) : Transfer Int := fun (ba, socket) =>
  if socket.connected then
    match ByteArray.getReadBuffers len ba with
    | .error fault ba => .error fault (ba, socket)
    | .ok (iovs, _) ba =>
        let (ret, socket) := socket.sendV iovs ba
        if 0 < ret then
          match ByteArray.setPosition (ba.position + ret.toNat) ba with
          | .error fault ba => .error fault (ba, socket)
          | .ok () ba => .ok ret (ba, socket)
        else
          .ok ret (ba, socket)
  else
    .ok (-1) (ba, socket)

end SocketStream

/-! A round of a fixed-size transfer moves a byte or ends it, so that the bytes there
are bound its rounds. -/

namespace Stream

section Read

variable (bufferSize len : Nat)

/-- The loop of `ReadFixSize(buffer, len)`, with the bytes that are in the buffer. -/
def readBufferLoop : Nat → Nat → List Byte → Socket → (Int × List Byte) × Socket
  | 0, _, buffer, socket => ((0, buffer), socket)
  | rounds + 1, left, buffer, socket =>
      if left = 0 then
        ((len, buffer), socket)
      else
        let ((tmp, data), socket) := SocketStream.readBuffer (min left bufferSize) socket
        if tmp ≤ 0 then
          ((tmp, buffer), socket)
        else
          readBufferLoop rounds (left - tmp.toNat) (buffer ++ data) socket

/-- `ReadFixSize(buffer, len)`. -/
def readFixBuffer (socket : Socket) : (Int × List Byte) × Socket :=
  readBufferLoop bufferSize len (socket.incoming.length + 1) len [] socket

/-- The loop of `ReadFixSize(ba, len)`. The bytes left are a `size_t`, from which more
than it is may be subtracted. -/
def readLoop : Nat → BitVec 64 → Transfer Int
  | 0, _ => return 0
  | rounds + 1, left => do
      if left = 0 then
        return len
      else
        let tmp ← SocketStream.read (min left.toNat bufferSize)
        if tmp ≤ 0 then return tmp else readLoop rounds (left - BitVec.ofInt 64 tmp)

/-- `ReadFixSize(ba, len)`. -/
def readFixSize : Transfer Int := fun (ba, socket) =>
  readLoop bufferSize len (socket.incoming.length + 1) (BitVec.ofNat 64 len) (ba, socket)

end Read

section Write

variable (bufferSize len : Nat)

/-- The loop of `WriteFixSize(buffer, len)`, with the bytes of the buffer left. -/
def writeBufferLoop : Nat → List Byte → Socket → Int × Socket
  | 0, _, socket => (0, socket)
  | rounds + 1, buffer, socket =>
      if buffer.length = 0 then
        (len, socket)
      else
        let (tmp, socket) := SocketStream.writeBuffer (buffer.take bufferSize) socket
        if tmp ≤ 0 then (tmp, socket) else writeBufferLoop rounds (buffer.drop tmp.toNat) socket

/-- The loop of `WriteFixSize(ba, len)`. -/
def writeLoop : Nat → Nat → Transfer Int
  | 0, _ => return 0
  | rounds + 1, left => do
      if left = 0 then
        return len
      else
        let tmp ← SocketStream.write (min left bufferSize)
        if tmp ≤ 0 then return tmp else writeLoop rounds (left - tmp.toNat)

/-- `WriteFixSize(ba, len)`. -/
def writeFixSize : Transfer Int :=
  writeLoop bufferSize len (len + 1) len

end Write

/-- `WriteFixSize(buffer, len)`. -/
def writeFixBuffer (bufferSize : Nat) (buffer : List Byte) (socket : Socket) : Int × Socket :=
  writeBufferLoop bufferSize buffer.length (buffer.length + 1) buffer socket

end Stream

end Xten
