import Xten.Std.IntegerCodec
import Xten.Stream.Transfer

/-!
# WebSocket frames

`WSFrameHead`, `WSSendMessage` and `WSRecvMessage`. Both work on a `Stream`, of which they
call `ReadFixSize`, `WriteFixSize` and `Close`. A round of the loop of `WSRecvMessage`
takes the two bytes of a head or ends it, so that the bytes there are bound its rounds.
-/

namespace Xten.http

open Std.IntegerCodec

/-- The two bytes of a `WSFrameHead`, of which the first field has the lowest bits. -/
structure WSFrameHead where
  opcode : BitVec 4
  rsv3 : Bool
  rsv2 : Bool
  rsv1 : Bool
  fin : Bool
  payload : BitVec 7
  mask : Bool
deriving DecidableEq, Repr

namespace WSFrameHead

def CONTINUE : BitVec 4 := 0
def TEXT_FRAME : BitVec 4 := 1
def BIN_FRAME : BitVec 4 := 2
def CLOSE : BitVec 4 := 8
def PING : BitVec 4 := 9
def PONG : BitVec 4 := 10

def bytes (head : WSFrameHead) : List Byte :=
  [BitVec.ofBool head.fin ++ BitVec.ofBool head.rsv1 ++ BitVec.ofBool head.rsv2 ++
      BitVec.ofBool head.rsv3 ++ head.opcode,
    BitVec.ofBool head.mask ++ head.payload]

def ofBytes (bytes : List Byte) : WSFrameHead where
  opcode := (bytes.getD 0 0).setWidth 4
  rsv3 := (bytes.getD 0 0).getLsbD 4
  rsv2 := (bytes.getD 0 0).getLsbD 5
  rsv1 := (bytes.getD 0 0).getLsbD 6
  fin := (bytes.getD 0 0).getLsbD 7
  payload := (bytes.getD 1 0).setWidth 7
  mask := (bytes.getD 1 0).getLsbD 7

end WSFrameHead

/-- `WSFrameMessage`. -/
structure WSFrameMessage where
  opcode : Int
  data : List Byte
deriving DecidableEq, Repr

/-- What is called of a `Stream`. -/
structure Transport (σ : Type) where
  readFixSize : Nat → σ → (Int × List Byte) × σ
  writeFixSize : List Byte → σ → Int × σ
  close : σ → σ

/-- A `SocketStream`, with the buffer size of the configuration. -/
def socketTransport (bufferSize : Nat) : Transport Socket where
  readFixSize := Stream.readFixBuffer bufferSize
  writeFixSize := Stream.writeFixBuffer bufferSize
  close := fun socket => { socket with connected := false }

/-- `data[i] ^ mask[i % 4]`. -/
def applyMask (mask data : List Byte) : List Byte :=
  data.mapIdx fun index byte => byte ^^^ mask.getD (index % 4) 0

section Send

variable {σ : Type} (stream : Transport σ)

/-- The writes of `WSSendMessage`, up to the first that fails. -/
def writeEach : List (List Byte) → σ → Bool × σ
  | [], state => (true, state)
  | buffer :: buffers, state =>
      let (ret, state) := stream.writeFixSize buffer state
      if ret ≤ 0 then (false, state) else writeEach buffers state

/-- The head of a frame with a payload of a length. -/
def sendHead (opcode : Int) (payloadlen : Int) (client fin : Bool) : WSFrameHead where
  opcode := BitVec.ofInt 4 opcode
  rsv3 := false
  rsv2 := false
  rsv1 := false
  fin := fin
  payload :=
    if payloadlen < 126 then BitVec.ofInt 7 payloadlen
    else if payloadlen < 65535 then 126
    else 127
  mask := client

/-- The extended length that goes with a head. -/
def extendedLength (head : WSFrameHead) (payloadlen : Int) : List (List Byte) :=
  if head.payload = 126 then [memory 2 (byteSwap 2 (BitVec.ofInt 16 payloadlen))]
  else if head.payload = 127 then [memory 8 (byteSwap 8 (BitVec.ofInt 64 payloadlen))]
  else []

/-- `WSSendMessage`, with the mask that `rand()` gives. None where the length of the
payload, as an `int`, is negative: the last write then runs past the end of the data. -/
def wsSendMessage (rand : BitVec 32) (msg : WSFrameMessage) (client fin : Bool) (state : σ) :
    Option (Int × σ) :=
  let data :=
    if msg.opcode = 8 then memory 2 (byteSwap 2 (1000 : BitVec 16)) ++ msg.data else msg.data
  let payloadlen := (BitVec.ofNat 32 data.length).toInt
  let head := sendHead msg.opcode payloadlen client fin
  let mask := memory 4 rand
  let start := head.bytes :: extendedLength head payloadlen ++ if client then [mask] else []
  match writeEach stream start state with
  | (false, state) => some (-1, stream.close state)
  | (true, state) =>
      if payloadlen < 0 then
        none
      else
        let data := if client then applyMask mask data else data
        let (ret, state) := stream.writeFixSize (data.take payloadlen.toNat) state
        if ret ≤ 0 then some (-1, stream.close state) else some (payloadlen + 2, state)

/-- `WSPong`. -/
def wsPong (state : σ) : Int × σ :=
  let head : WSFrameHead := ⟨WSFrameHead.PONG, false, false, false, true, 0, false⟩
  let (ret, state) := stream.writeFixSize head.bytes state
  if ret ≤ 0 then (-1, stream.close state) else (2, state)

end Send

/-- What `WSRecvMessage` comes to: a message, a null pointer, or an exception. -/
inductive Received where
  | message (msg : WSFrameMessage)
  | null
  | thrown
deriving DecidableEq, Repr

/-- The locals `data`, `opcode` and `cur_len` of `WSRecvMessage`. -/
structure Receiving where
  data : List Byte
  opcode : Int
  curLen : BitVec 32
deriving DecidableEq, Repr

section Receive

variable {σ : Type} (stream : Transport σ) (maxSize : BitVec 32) (client : Bool)

/-- A read that ends the loop if it returns nothing. -/
def readOr (len : Nat) (state : σ) : Option (List Byte) × σ :=
  let ((ret, bytes), state) := stream.readFixSize len state
  (if ret ≤ 0 then none else some bytes, state)

/-- The real length of a payload. -/
def readLength (head : WSFrameHead) (state : σ) : Option Nat × σ :=
  if head.payload = 126 then
    let (bytes, state) := readOr stream 2 state
    (bytes.map fun bytes => (byteSwap 2 (ofMemory bytes)).toNat, state)
  else if head.payload = 127 then
    -- The comparison is inside the call: the size that is read is `sizeof(real_len) <= 0`.
    let ((ret, _), state) := stream.readFixSize 0 state
    (if ret ≠ 0 then none else some (byteSwap 8 0).toNat, state)
  else
    (some head.payload.toNat, state)

def readMask (head : WSFrameHead) (state : σ) : Option (List Byte) × σ :=
  if head.mask then readOr stream 4 state else (some [], state)

/-- The locals after the payload of a frame. -/
def Receiving.add (self : Receiving) (head : WSFrameHead) (mask bytes : List Byte) : Receiving where
  data := self.data ++ if head.mask then applyMask mask bytes else bytes
  opcode :=
    if self.opcode = 0 ∧ head.opcode ≠ WSFrameHead.CONTINUE then head.opcode.toNat
    else self.opcode
  curLen := self.curLen + BitVec.ofNat 32 bytes.length

/-- A frame that is neither a `PING` nor a `PONG`: what the call returns, or the locals of
the next round. -/
def Receiving.frame (self : Receiving) (head : WSFrameHead) (state : σ) :
    Except Received Receiving × σ :=
  if client = false ∧ head.mask = false then
    (.error .null, state)
  else
    match readLength stream head state with
    | (none, state) => (.error .null, state)
    | (some len, state) =>
        if maxSize ≤ self.curLen + BitVec.ofNat 32 len then
          (.error .null, state)
        else
          match readMask stream head state with
          | (none, state) => (.error .null, state)
          | (some mask, state) =>
              -- `resize` refuses what does not fit a string, such as a negative `cur_len`.
              if 2 ^ 63 ≤ (self.curLen.signExtend 64 + BitVec.ofNat 64 len).toNat then
                (.error .thrown, state)
              else
                match readOr stream len state with
                | (none, state) => (.error .null, state)
                | (some bytes, state) =>
                    let next := self.add head mask bytes
                    (if head.fin then .error (.message ⟨next.opcode, next.data⟩) else .ok next,
                      state)

/-- The loop of `WSRecvMessage`. -/
def wsRecvLoop : Nat → Receiving → σ → Received × σ
  | 0, _, state => (.null, stream.close state)
  | rounds + 1, self, state =>
      match readOr stream 2 state with
      | (none, state) => (.null, stream.close state)
      | (some bytes, state) =>
          let head := WSFrameHead.ofBytes bytes
          if head.opcode = WSFrameHead.PING then
            let (ret, state) := wsPong stream state
            if ret ≤ 0 then (.null, stream.close state) else wsRecvLoop rounds self state
          else if head.opcode = WSFrameHead.PONG then
            wsRecvLoop rounds self state
          else
            -- `opcode == TEXT_FRAME || BIN_FRAME || CONTINUE` is always true.
            match self.frame stream maxSize client head state with
            | (.ok next, state) => wsRecvLoop rounds next state
            | (.error .null, state) => (.null, stream.close state)
            | (.error received, state) => (received, state)

/-- `WSRecvMessage`. -/
def wsRecvMessage (bufferSize : Nat) (socket : Socket) : Received × Socket :=
  wsRecvLoop (socketTransport bufferSize) maxSize client (socket.incoming.length + 1) ⟨[], 0, 0⟩
    socket

end Receive

end Xten.http
