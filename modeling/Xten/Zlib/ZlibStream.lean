import Xten.ByteArray.Scan
import Xten.Std.StreamCodec

/-!
# The zlib stream

`ZlibStream` gives iovecs to zlib one after the other. What zlib puts out goes into buffers
of one size; the last of them is filled up before another is allocated. zlib itself is a
parameter, with its contract.
-/

namespace Xten

open Std.StreamCodec
open Xten.ByteArray (Action)

/-- The codes that `deflate` and `inflate` return. -/
inductive ZlibReturn where
  | ok
  | streamEnd
  | needDict
  | streamError
  | dataError
  | memError
  | bufError
deriving DecidableEq, Repr

/-- `deflate` and `inflate` on streams that have been initialised. A call is told whether its
flush is `Z_FINISH` or `Z_NO_FLUSH`. -/
structure Zlib (State : Type) where
  deflate : Call State Byte Byte ZlibReturn
  inflate : Call State Byte Byte ZlibReturn

/-- The contract of zlib, for one of the two. A stream that has been initialised is never
in error. -/
structure Zlib.Lawful {State : Type} (call : Call State Byte Byte ZlibReturn)
    (meaning : State → List Byte → List Byte) : Prop extends Obeys call meaning where
  alive : ∀ state finish input room, (call state finish input room).report ≠ .streamError

/-- A `ZlibStream`. Of each buffer of the output there is the part in use; `zstream` is none
once `deflateEnd` or `inflateEnd` has been called. -/
structure ZlibStream (State : Type) where
  isEncode : Bool
  iovSize : Nat
  zstream : Option State
  outBuffer : List (List Byte) := []

namespace ZlibStream

variable {State : Type}

/-- The buffer for the next output, which is the last one if that has room and a new one
otherwise: the buffers before it, and the part of it that is in use. -/
def out (stream : ZlibStream State) : List (List Byte) × List Byte :=
  match stream.outBuffer.getLast? with
  | none => ([], [])
  | some used =>
      if used.length < stream.iovSize then (stream.outBuffer.dropLast, used)
      else (stream.outBuffer, [])

/-- The `do` loop of `encode` and `decode`, if so many rounds are enough. -/
def codeLoop (call : Call State Byte Byte ZlibReturn) (flush : Bool) :
    Nat → List Byte → ZlibStream State → Option (ZlibReturn × ZlibStream State)
  | 0, _, _ => none
  | rounds + 1, input, stream =>
      let (full, used) := stream.out
      let availOut := stream.iovSize - used.length
      match stream.zstream with
      | none => some (.streamError, { stream with outBuffer := full ++ [used] })
      | some zstream =>
          let answer := call zstream flush input availOut
          if answer.report = .streamError then
            some (.streamError,
              { stream with zstream := some answer.state, outBuffer := full ++ [used] })
          else
            let stream := { stream with
              zstream := some answer.state
              outBuffer := full ++ [used ++ answer.output] }
            if availOut - answer.output.length = 0 then
              codeLoop call flush rounds answer.rest stream
            else
              some (.ok, stream)

/-- The input that zlib is given of an iovec: `avail_in` has 32 bits. -/
def availIn (iov : List Byte) : List Byte :=
  iov.take (iov.length % 2 ^ 32)

/-- The `for` loop of `encode` and `decode` from an index on. The index is an `int`, and
nothing is said of a loop in which it overflows. -/
def codeFrom (call : Call State Byte Byte ZlibReturn) (finish : Bool) (rounds : Nat) :
    Nat → List (List Byte) → ZlibStream State → Option (ZlibReturn × ZlibStream State)
  | _, [], stream => some (.ok, stream)
  | i, iov :: iovs, stream =>
      match codeLoop call (finish && iovs.isEmpty) rounds (availIn iov) stream with
      | none => none
      | some (ret, stream) =>
          if ret = .streamError then some (ret, stream)
          else if i + 1 = 2 ^ 31 then none
          else codeFrom call finish rounds (i + 1) iovs stream

/-- What `encode` and `decode` have in common, which is all but the call of zlib. -/
def code (call : Call State Byte Byte ZlibReturn) (iovs : List (List Byte)) (finish : Bool)
    (rounds : Nat) (stream : ZlibStream State) : Option (ZlibReturn × ZlibStream State) :=
  match codeFrom call finish rounds 0 iovs stream with
  | none => none
  | some (ret, stream) =>
      if ret ≠ .streamError ∧ finish ∧ iovs ≠ [] then some (ret, { stream with zstream := none })
      else some (ret, stream)

variable (zlib : Zlib State)

def encode (iovs : List (List Byte)) (finish : Bool) (rounds : Nat) (stream : ZlibStream State) :
    Option (ZlibReturn × ZlibStream State) :=
  code zlib.deflate iovs finish rounds stream

def decode (iovs : List (List Byte)) (finish : Bool) (rounds : Nat) (stream : ZlibStream State) :
    Option (ZlibReturn × ZlibStream State) :=
  code zlib.inflate iovs finish rounds stream

/-- `Write(ba, len)`, on the iovecs of `GetReadBuffers`. -/
def writeIovs (iovs : List (List Byte)) (rounds : Nat) (stream : ZlibStream State) :
    Option (ZlibReturn × ZlibStream State) :=
  if stream.isEncode then encode zlib iovs false rounds stream
  else decode zlib iovs false rounds stream

/-- `Write(buffer, len)`. -/
def write (buffer : List Byte) (rounds : Nat) (stream : ZlibStream State) :
    Option (ZlibReturn × ZlibStream State) :=
  writeIovs zlib [buffer] rounds stream

/-- `Flush`. -/
def flush (rounds : Nat) (stream : ZlibStream State) : Option (ZlibReturn × ZlibStream State) :=
  if stream.isEncode then encode zlib [[]] true rounds stream
  else decode zlib [[]] true rounds stream

/-- `GetResult`. -/
def getResult (stream : ZlibStream State) : List Byte :=
  stream.outBuffer.flatten

/-- `GetByteArray`, with nodes of some size. -/
def getByteArray (nodeSize : Nat) (fresh : Nat → Byte) (stream : ZlibStream State) :
    EStateM.Result Fault ByteArray Unit :=
  (do
    stream.outBuffer.forM ByteArray.write
    ByteArray.setPosition 0 : Action Unit) (ByteArray.make nodeSize fresh)

/-- Bytes in the buffers that a stream has allocated. -/
def allocated (stream : ZlibStream State) : Nat :=
  stream.outBuffer.length * stream.iovSize

/-- The codec of a stream. -/
def codec (isEncode : Bool) : Call State Byte Byte ZlibReturn :=
  if isEncode then zlib.deflate else zlib.inflate

/-- A new stream on an initialised `z_stream`. -/
def create (isEncode : Bool) (iovSize : Nat) (start : State) : ZlibStream State where
  isEncode := isEncode
  iovSize := iovSize
  zstream := some start

theorem writeIovs_eq (iovs : List (List Byte)) (rounds : Nat) (stream : ZlibStream State) :
    writeIovs zlib iovs rounds stream = code (codec zlib stream.isEncode) iovs false rounds stream := by
  rw [writeIovs, codec]
  cases stream.isEncode <;> rfl

theorem flush_eq (rounds : Nat) (stream : ZlibStream State) :
    flush zlib rounds stream = code (codec zlib stream.isEncode) [[]] true rounds stream := by
  rw [flush, codec]
  cases stream.isEncode <;> rfl

end ZlibStream

end Xten
