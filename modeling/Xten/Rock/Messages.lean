import Xten.ByteArray.Typed

/-!
# Rock messages

The message classes of `protocol.cpp` and `rock_protocol.cpp` with their encoders and
parsers. A parser fills the fields of an object one after the other, so that an
exception leaves it partly filled; its reads are those of the array it is given.
-/

namespace Xten

open Xten.ByteArray (Action)

/-- `Message::MessageType`. -/
inductive MessageType where
  | common | request | response | notify | ping | pong | close
deriving DecidableEq, Repr

/-- The number of a message type. -/
def MessageType.toByte : MessageType → Byte
  | .common => 0
  | .request => 1
  | .response => 2
  | .notify => 3
  | .ping => 4
  | .pong => 5
  | .close => 6

/-- A string literal as bytes. -/
def bytesOf (text : String) : List Byte :=
  text.toList.map fun char => BitVec.ofNat 8 char.toNat

/-- Whether `catch (...)` takes a fault. -/
def Fault.isException : Fault → Bool
  | .outOfRange _ => true
  | .nullNode | .overrun | .shift => false

/-- The reads of an array that parsers use. -/
structure Readers (σ : Type) where
  readFUint8 : EStateM Fault σ (BitVec 8)
  readFUint32 : EStateM Fault σ (BitVec 32)
  readStringF32 : EStateM Fault σ (List Byte)

/-- The reads of a byte array. -/
def ByteArray.readers : Readers ByteArray where
  readFUint8 := ByteArray.readFUint8
  readFUint32 := ByteArray.readFUint32
  readStringF32 := ByteArray.readStringF32

section Objects

variable {σ α Object Part : Type}

/-- Assign the value of a read to a field of an object. -/
def assign (read : EStateM Fault σ α) (set : α → Object → Object) :
    EStateM Fault (σ × Object) Unit := fun (state, self) =>
  match read state with
  | .ok value state => .ok () (state, set value self)
  | .error fault state => .error fault (state, self)

/-- A method of a base class, called on the base of an object. -/
def onBase (base : Object → Part) (set : Part → Object → Object)
    (method : EStateM Fault (σ × Part) α) : EStateM Fault (σ × Object) α := fun (state, self) =>
  match method (state, base self) with
  | .ok value (state, part) => .ok value (state, set part self)
  | .error fault (state, part) => .error fault (state, set part self)

/-- The common body of the Rock encoders and parsers: the method of the base message
and that of the body, both inside `try`. The value returned is true until a method
has returned another. -/
def tryBoth (message body : EStateM Fault σ Bool) : EStateM Fault σ Bool := fun state =>
  match message state with
  | .error fault state => if fault.isException then .ok true state else .error fault state
  | .ok ret state =>
      match body state with
      | .error fault state => if fault.isException then .ok ret state else .error fault state
      | .ok more state => .ok (ret && more) state

end Objects

/-- `Request`. The time at which an object was made is not part of its encoding. -/
structure Request where
  sn : BitVec 32 := 0
  cmd : BitVec 32 := 0
deriving DecidableEq, Repr

@[ext] structure Response where
  sn : BitVec 32 := 0
  cmd : BitVec 32 := 0
  result : BitVec 32 := 404
  resultString : List Byte := bytesOf "unhandle"
deriving DecidableEq, Repr

structure Notify where
  notify : BitVec 32 := 0
deriving DecidableEq, Repr

@[ext] structure RockBody where
  data : List Byte := []
deriving DecidableEq, Repr

@[ext] structure RockRequest extends Request, RockBody
deriving DecidableEq, Repr

@[ext] structure RockResponse extends Response, RockBody
deriving DecidableEq, Repr

@[ext] structure RockNotify extends Notify, RockBody
deriving DecidableEq, Repr

section Encoders

open Xten.ByteArray (writeFUint8 writeFUint32 writeStringF32)

def Request.serializeToByteArray (type : MessageType) (self : Request) : Action Bool := do
  writeFUint8 type.toByte
  writeFUint32 self.sn
  writeFUint32 self.cmd
  return true

def Response.serializeToByteArray (type : MessageType) (self : Response) : Action Bool := do
  writeFUint8 type.toByte
  writeFUint32 self.sn
  writeFUint32 self.cmd
  writeFUint32 self.result
  writeStringF32 self.resultString
  return true

def Notify.serializeToByteArray (type : MessageType) (self : Notify) : Action Bool := do
  writeFUint8 type.toByte
  writeFUint32 self.notify
  return true

def RockBody.serializeToByteArray (self : RockBody) : Action Bool := do
  writeStringF32 self.data
  return true

def RockRequest.serializeToByteArray (self : RockRequest) : Action Bool :=
  tryBoth (self.toRequest.serializeToByteArray .request) self.toRockBody.serializeToByteArray

def RockResponse.serializeToByteArray (self : RockResponse) : Action Bool :=
  tryBoth (self.toResponse.serializeToByteArray .response) self.toRockBody.serializeToByteArray

def RockNotify.serializeToByteArray (self : RockNotify) : Action Bool :=
  tryBoth (self.toNotify.serializeToByteArray .notify) self.toRockBody.serializeToByteArray

end Encoders

section Parsers

variable {σ : Type} (ba : Readers σ)

def Request.parseFromByteArray : EStateM Fault (σ × Request) Bool := do
  assign ba.readFUint32 fun value self => { self with sn := value }
  assign ba.readFUint32 fun value self => { self with cmd := value }
  return true

def Response.parseFromByteArray : EStateM Fault (σ × Response) Bool := do
  assign ba.readFUint32 fun value self => { self with sn := value }
  assign ba.readFUint32 fun value self => { self with cmd := value }
  assign ba.readFUint32 fun value self => { self with result := value }
  assign ba.readStringF32 fun value self => { self with resultString := value }
  return true

def Notify.parseFromByteArray : EStateM Fault (σ × Notify) Bool := do
  assign ba.readFUint32 fun value self => { self with notify := value }
  return true

def RockBody.parseFromByteArray : EStateM Fault (σ × RockBody) Bool := do
  assign ba.readStringF32 fun value self => { self with data := value }
  return true

def RockRequest.parseFromByteArray : EStateM Fault (σ × RockRequest) Bool :=
  tryBoth
    (onBase (·.toRequest) (fun part self => { self with toRequest := part })
      (Request.parseFromByteArray ba))
    (onBase (·.toRockBody) (fun part self => { self with toRockBody := part })
      (RockBody.parseFromByteArray ba))

def RockResponse.parseFromByteArray : EStateM Fault (σ × RockResponse) Bool :=
  tryBoth
    (onBase (·.toResponse) (fun part self => { self with toResponse := part })
      (Response.parseFromByteArray ba))
    (onBase (·.toRockBody) (fun part self => { self with toRockBody := part })
      (RockBody.parseFromByteArray ba))

def RockNotify.parseFromByteArray : EStateM Fault (σ × RockNotify) Bool :=
  tryBoth
    (onBase (·.toNotify) (fun part self => { self with toNotify := part })
      (Notify.parseFromByteArray ba))
    (onBase (·.toRockBody) (fun part self => { self with toRockBody := part })
      (RockBody.parseFromByteArray ba))

end Parsers

/-- An object of one of the three message classes. -/
inductive Message where
  | request (self : RockRequest)
  | response (self : RockResponse)
  | notify (self : RockNotify)
deriving DecidableEq, Repr

namespace Message

/-- `GetMessageType`. -/
def getMessageType : Message → MessageType
  | .request _ => .request
  | .response _ => .response
  | .notify _ => .notify

/-- A new object of the same class. -/
def blank : Message → Message
  | .request _ => .request {}
  | .response _ => .response {}
  | .notify _ => .notify {}

def serializeToByteArray : Message → Action Bool
  | .request self => self.serializeToByteArray
  | .response self => self.serializeToByteArray
  | .notify self => self.serializeToByteArray

/-- A method that changes an object, with the object it leaves. -/
def callOn {σ α Object : Type} (method : EStateM Fault (σ × Object) α) (self : Object)
    (class_ : Object → Message) : EStateM Fault σ (α × Message) := fun state =>
  match method (state, self) with
  | .ok value (state, self) => .ok (value, class_ self) state
  | .error fault (state, _) => .error fault state

/-- `ParseFromByteArray`: the value returned and the object it leaves. -/
def parseFromByteArray {σ : Type} (ba : Readers σ) : Message → EStateM Fault σ (Bool × Message)
  | .request self => callOn (RockRequest.parseFromByteArray ba) self .request
  | .response self => callOn (RockResponse.parseFromByteArray ba) self .response
  | .notify self => callOn (RockNotify.parseFromByteArray ba) self .notify

/-- The node size of a byte array made without one. -/
def defaultNodeSize : Nat := 4096

/-- `ToByteArray`: null if the encoder returns false. -/
def toByteArray (self : Message) (fresh : Nat → Byte) : Except Fault (Option ByteArray) :=
  match self.serializeToByteArray (ByteArray.make defaultNodeSize fresh) with
  | .ok ret ba => .ok (if ret then some ba else none)
  | .error fault _ => .error fault

/-- The new object that the decoder makes for a type byte, null for the other types. -/
def make (type : Byte) : Option Message :=
  if type = MessageType.request.toByte then some (.request {})
  else if type = MessageType.response.toByte then some (.response {})
  else if type = MessageType.notify.toByte then some (.notify {})
  else none

end Message

namespace RockMessageDecoder

/-- The end of `ParseFromStream`, on the array with the body: the type byte, the class
and its parser. A null message is returned for an unknown type. -/
def parseBody {σ : Type} (ba : Readers σ) : EStateM Fault σ (Option Message) := do
  match Message.make (← ba.readFUint8) with
  | none => return none
  | some msg =>
      let (ret, msg) ← msg.parseFromByteArray ba
      return if ret then some msg else none

end RockMessageDecoder

end Xten
