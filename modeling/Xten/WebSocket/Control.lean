import Xten.WebSocket.Fragments

/-!
# Control frames between fragments

`WSRecvMessage` takes the head of a `PING` or a `PONG` and goes on behind it. What else such
a frame carries, its mask or a payload, is read as the head of the next frame.
-/

namespace Xten.http

open Std.IntegerCodec

/-- A `PING` or a `PONG`. -/
def Frame.IsControl (frame : Frame) : Prop :=
  frame.head.opcode = WSFrameHead.PING ∨ frame.head.opcode = WSFrameHead.PONG

instance (frame : Frame) : Decidable frame.IsControl :=
  inferInstanceAs (Decidable (_ ∨ _))

/-- The fragments of a message with control frames between them, the last fragment, and
the control frames that come after it. -/
structure Mixed where
  before : List Frame
  last : Frame
  after : List Frame

namespace Mixed

/-- The data frames have the form of one message, and the control frames that of the
standard, as the other side of a connection sends them. -/
structure WellFormed (mixed : Mixed) (client : Bool) : Prop where
  valid : ∀ frame ∈ mixed.before ++ mixed.last :: mixed.after, frame.Valid
  masked : ∀ frame ∈ mixed.before ++ mixed.last :: mixed.after, frame.head.mask = !client
  fragments : ∀ frame ∈ mixed.before, ¬ frame.IsControl → frame.head.fin = false
  last : ¬ mixed.last.IsControl ∧ mixed.last.head.fin = true
  after : ∀ frame ∈ mixed.after, frame.IsControl
  short : ∀ frame ∈ mixed.before ++ mixed.after, frame.IsControl → frame.payload.length ≤ 125

/-- All frames. -/
def bytes (mixed : Mixed) : List Byte :=
  (mixed.before ++ mixed.last :: mixed.after).flatMap Frame.bytes

end Mixed

section Control

variable {bufferSize : Nat} {maxSize : BitVec 32} {client : Bool} {self : Receiving}
  {frame last : Frame} {frames : List Frame} {carried rest other : List Byte}

theorem WSFrameHead.bytes_ofBytes (first second : Byte) :
    (WSFrameHead.ofBytes [first, second]).bytes = [first, second] := by
  have low : ∀ byte : Byte, (BitVec.ofBool (byte.getLsbD 7) ++ BitVec.ofBool (byte.getLsbD 6) ++
      BitVec.ofBool (byte.getLsbD 5) ++ BitVec.ofBool (byte.getLsbD 4) ++ byte.setWidth 4 : Byte) =
        byte := by decide
  have high : ∀ byte : Byte, (BitVec.ofBool (byte.getLsbD 7) ++ byte.setWidth 7 : Byte) = byte := by
    decide
  simp only [ofBytes, bytes, List.getD_cons_zero, List.getD_cons_succ, low, high]

end Control

section WebSocket

variable {bufferSize : Nat} {mixed : Mixed} {client : Bool}

/-- A client's text of two bytes. -/
def maskedText : Frame := ⟨sendHead 1 2 true true, 0, [0x68, 0x69]⟩

end WebSocket

end Xten.http
