import Xten.Fiber.Exclusion
import Xten.WebSocket.Frames

/-!
# The fibers of a WebSocket session

`pushMessage` with the functions that call it, `doSend`, `waitSender`, and `WSRecvMessage` as
far as it writes: any number of fibers run them on one session. A section under the thread
mutexes is one step, and so is each `Write` of the stream. Nothing that `doSend` calls throws.
-/

namespace Xten.http

open Std.IntegerCodec

/-- The head of a `PING` or a `PONG`, which is the whole frame. -/
def controlHead (opcode : BitVec 4) : WSFrameHead :=
  ⟨opcode, false, false, false, true, 0, false⟩

/-- The payload of a message as it is sent: that of a `CLOSE` begins with a status code. -/
def WSFrameMessage.sent (msg : WSFrameMessage) : List Byte :=
  if msg.opcode = 8 then memory 2 (byteSwap 2 (1000 : BitVec 16)) ++ msg.data else msg.data

/-- `payloadlen`. -/
def WSFrameMessage.payloadlen (msg : WSFrameMessage) : Int :=
  (BitVec.ofNat 32 msg.sent.length).toInt

/-- What a server writes before the payload of a message. -/
def WSFrameMessage.start (msg : WSFrameMessage) (fin : Bool) : List (List Byte) :=
  let head := sendHead msg.opcode msg.payloadlen false fin
  head.bytes :: extendedLength head msg.payloadlen

/-- The buffers that a server gives to `WriteFixSize` in `WSSendMessage`. None where the length
of the payload, as an `int`, is negative: that write runs past the end of the data. -/
def messageBuffers (msg : WSFrameMessage) (fin : Bool) : List (Option (List Byte)) :=
  (msg.start fin).map some ++
    [if msg.payloadlen < 0 then none else some (msg.sent.take msg.payloadlen.toNat)]

/-- The buffers of what `doSend` makes of a message: `WSPing`, `WSPong`, or `WSSendMessage`. -/
def frameBuffers (msg : WSFrameMessage) (fin : Bool) : List (Option (List Byte)) :=
  if msg.opcode = 9 then [some (controlHead WSFrameHead.PING).bytes]
  else if msg.opcode = 10 then [some (controlHead WSFrameHead.PONG).bytes]
  else messageBuffers msg fin

section Buffers

variable {σ : Type} (stream : Transport σ) {msg : WSFrameMessage} {fin : Bool}

theorem writeEach_append (first second : List (List Byte)) (state : σ) :
    writeEach stream (first ++ second) state =
      match writeEach stream first state with
      | (true, state) => writeEach stream second state
      | (false, state) => (false, state) := by
  induction first generalizing state with
  | nil => rfl
  | cons buffer first ih =>
      simp only [List.cons_append, writeEach]
      split
      · rfl
      · exact ih _

/-- `WSSendMessage` gives these buffers to the stream, up to the first that fails. -/
theorem wsSendMessage_buffers (rand : BitVec 32) (length : 0 ≤ msg.payloadlen) (state : σ) :
    wsSendMessage stream rand msg false fin state =
      match writeEach stream
        (msg.start fin ++ [msg.sent.take msg.payloadlen.toNat]) state with
      | (true, state) => some (msg.payloadlen + 2, state)
      | (false, state) => some (-1, stream.close state) := by
  have sent : (if msg.opcode = 8 then memory 2 (byteSwap 2 (1000 : BitVec 16)) ++ msg.data
      else msg.data) = msg.sent := rfl
  have payloadlen : (BitVec.ofNat 32 msg.sent.length).toInt = msg.payloadlen := rfl
  have start : (sendHead msg.opcode msg.payloadlen false fin).bytes ::
      extendedLength (sendHead msg.opcode msg.payloadlen false fin) msg.payloadlen =
        msg.start fin := rfl
  simp only [wsSendMessage, sent, payloadlen, start, Bool.false_eq_true, if_false, List.append_nil]
  rw [writeEach_append]
  generalize writeEach stream (msg.start fin) state = written
  obtain ⟨succeeds, state⟩ := written
  cases succeeds with
  | false => rfl
  | true =>
      simp only [if_neg (Int.not_lt.mpr length), writeEach]
      split <;> rfl

/-- `WSPong` gives its head to the stream. -/
theorem wsPong_buffers (state : σ) :
    wsPong stream state =
      match writeEach stream [(controlHead WSFrameHead.PONG).bytes] state with
      | (true, state) => (2, state)
      | (false, state) => (-1, stream.close state) := by
  rw [wsPong, writeEach]
  by_cases failed : (stream.writeFixSize (controlHead WSFrameHead.PONG).bytes state).1 ≤ 0
  · exact (if_pos failed).trans (by simp only [if_pos failed]; rfl)
  · exact (if_neg failed).trans (by simp only [if_neg failed, writeEach]; rfl)

end Buffers

namespace WSSession

open Std.Interleaving
open FiberSemphore (FiberId Waiter)

/-- An entry of `_sendQueue`. -/
structure Entry where
  msg : Option WSFrameMessage
  fin : Bool
deriving DecidableEq, Repr

/-- A frame of which a byte has been written: an entry that `doSend` sends, or the `PONG` that
answers a `PING`. -/
inductive Begun where
  | entry (msg : WSFrameMessage) (fin : Bool)
  | answer
deriving DecidableEq, Repr

/-- The buffers of a frame. -/
def Begun.buffers : Begun → List (Option (List Byte))
  | .entry msg fin => frameBuffers msg fin
  | .answer => [some (controlHead WSFrameHead.PONG).bytes]

/-- The bytes in some buffers. -/
def content (buffers : List (Option (List Byte))) : List Byte :=
  buffers.flatMap fun buffer => buffer.getD []

/-- The bytes of a frame. -/
def Begun.bytes (frame : Begun) : List Byte :=
  content frame.buffers

/-- The entry that a frame comes from. -/
def Begun.entry? : Begun → Option Entry
  | .entry msg fin => some ⟨some msg, fin⟩
  | .answer => none

/-- The members that the fibers use, and the bytes written to the socket. `pushed` are the
entries so far, in order, and `begun` the frames of which something has been written. -/
structure Shared where
  connected : Bool
  sendQueue : List Entry
  mtx : FiberMutex.Shared
  sem : FiberSemphore.Shared
  wire : List Byte
  pushed : List Entry
  begun : List Begun

/-- Why `doSend` closes the connection: an entry without a message, a send that has failed, or
the connection is closed. -/
inductive Reason where
  | forceStop
  | failed
  | disconnected
deriving DecidableEq, Repr

/-- What a fiber does once it has `_mtx`. -/
inductive Goal where
  | test
  | push (entry : Entry)
deriving DecidableEq, Repr

/-- Where a fiber goes on once it has given `_mtx` back. -/
inductive After where
  | send (tmp : List Entry)
  | signal
deriving DecidableEq, Repr

/-- What a frame is written for: an entry of `tmp`, with those behind it, or an answer. -/
inductive Writer where
  | doSend (msg : WSFrameMessage) (fin : Bool) (rest : List Entry)
  | answer
deriving DecidableEq, Repr

/-- Where a fiber is. `acquiring` and `parked` are in `_sem.wait()`, of `doSend` or not;
`waiting` has found nothing to send and is about to call `_cond.wait()`; `blocked` is in a queue
of `_mtx` or `_cond`. `writing` has the buffers that are left of a frame, and whether a byte of
it has been written; `failing` is about to close the stream after a write has failed. -/
inductive Thread where
  | outside
  | acquiring (sender : Bool)
  | parked (sender suspended : Bool)
  | locking (goal : Goal)
  | blocked (suspended : Bool) (goal : Goal)
  | holding (goal : Goal)
  | waiting
  | unlocking (after : After)
  | signal
  | signalling (next : Waiter)
  | sending (tmp : List Entry)
  | writing (writer : Writer) (begun : Bool) (buffers : List (Option (List Byte)))
  | failing (writer : Writer) (begun : Bool) (buffers : List (Option (List Byte)))
  | checking
  | closing (reason : Reason)
  | posting
  | receiving
  | receiveFailed
deriving DecidableEq, Repr

/-- What comes of a `Write`, or of the reads of `WSRecvMessage` up to the next thing it does. -/
inductive Outcome where
  | moves (count : Nat)
  | fails
  | ping
  | message
deriving DecidableEq, Repr

inductive Action where
  | pushMessage (entry : Entry)
  | doSend
  | waitSender
  | wsRecvMessage
  | close
  | go (outcome : Outcome)
  | resume
deriving DecidableEq, Repr

def Action.sendMessage (msg : WSFrameMessage) (fin : Bool) : Action :=
  .pushMessage ⟨some msg, fin⟩

def Action.forceClose : Action :=
  .pushMessage ⟨none, true⟩

def Action.ping : Action :=
  .pushMessage ⟨some ⟨9, []⟩, true⟩

def Action.pong : Action :=
  .pushMessage ⟨some ⟨10, []⟩, true⟩

def After.thread : After → Thread
  | .send tmp => .sending tmp
  | .signal => .signal

/-- The frame that is written. -/
def Writer.frame : Writer → Begun
  | .doSend msg fin _ => .entry msg fin
  | .answer => .answer

/-- Where a writer goes on when its frame is written. -/
def Writer.done : Writer → Thread
  | .doSend _ _ rest => .sending rest
  | .answer => .receiving

/-- Where a writer goes on when it has closed the stream. -/
def Writer.failed : Writer → Thread
  | .doSend _ _ _ => .closing .failed
  | .answer => .receiveFailed

/-- Behind a `Write` of so many bytes of a buffer. -/
def Writer.advance (writer : Writer) (left : List Byte) (rest : List (Option (List Byte))) :
    Thread :=
  if left ≠ [] then .writing writer true (some left :: rest)
  else if rest ≠ [] then .writing writer true rest
  else writer.done

/-- Behind `_sem.wait()`. -/
def acquired (sender : Bool) : Thread :=
  if sender then .locking .test else .outside

namespace Shared

def setMutex (shared : Shared) (mtx : FiberMutex.Shared) : Shared :=
  { shared with mtx := mtx }

def setSem (shared : Shared) (sem : FiberSemphore.Shared) : Shared :=
  { shared with sem := sem }

/-- `Close`. -/
def close (shared : Shared) : Shared :=
  { shared with connected := false }

/-- What a fiber does with `_mtx`. -/
def perform (shared : Shared) : Goal → Shared × Thread
  | .test =>
      if shared.sendQueue.isEmpty && shared.connected then
        (shared, .waiting)
      else
        ({ shared with sendQueue := [] }, .unlocking (.send shared.sendQueue))
  | .push entry =>
      ({ shared with
        sendQueue := shared.sendQueue ++ [entry]
        pushed := shared.pushed ++ [entry] }, .unlocking .signal)

/-- `_mtx.lock()`. -/
def lock (shared : Shared) (self : Waiter) (goal : Goal) : Shared × Thread :=
  let (mtx, entered) := shared.mtx.lock self
  (shared.setMutex mtx, if entered then .holding goal else .blocked false goal)

/-- `_sem.wait()`, up to the switch. -/
def wait (shared : Shared) (self : Waiter) (sender : Bool) : Shared × Thread :=
  let (sem, point) := shared.sem.wait self
  (shared.setSem sem, if point = .running then acquired sender else .parked sender false)

/-- Some bytes of a frame are written, the first of it or more. -/
def write (shared : Shared) (writer : Writer) (begun : Bool) (bytes : List Byte) : Shared :=
  { shared with
    wire := shared.wire ++ bytes
    begun := if begun then shared.begun else shared.begun ++ [writer.frame] }

/-- One step of a fiber; none if it has to wait. -/
def exec (bufferSize : Nat) (self : Waiter) (shared : Shared) :
    Thread → Action → Option (Shared × Thread)
  | .outside, .pushMessage entry => some (shared, .locking (.push entry))
  | .outside, .doSend => some (shared, .acquiring true)
  | .outside, .waitSender => some (shared, .acquiring false)
  | .outside, .wsRecvMessage => some (shared, .receiving)
  | .outside, .close => some (shared.close, .outside)
  | .acquiring sender, .go _ => some (shared.wait self sender)
  | .parked sender false, .go _ => some (shared, .parked sender true)
  | .parked sender true, .resume =>
      if self ∈ shared.sem.ready then
        some (shared.setSem { shared.sem with ready := shared.sem.ready.erase self },
          acquired sender)
      else
        none
  | .locking goal, .go _ => some (shared.lock self goal)
  | .blocked false goal, .go _ => some (shared, .blocked true goal)
  | .blocked true goal, .resume =>
      if self ∈ shared.mtx.ready then
        some (shared.setMutex (shared.mtx.resume self), .holding goal)
      else
        none
  | .holding goal, .go _ => some (shared.perform goal)
  | .waiting, .go _ => some (shared.setMutex (shared.mtx.wait self), .blocked false .test)
  | .unlocking after, .go _ =>
      some (shared.setMutex (shared.mtx.unlockNoLock self.fiber), after.thread)
  | .signal, .go _ =>
      match shared.mtx.signal with
      | none => some (shared, .outside)
      | some (rest, next) => some (shared.setMutex rest, .signalling next)
  | .signalling next, .go _ => some (shared.setMutex (shared.mtx.enter next), .outside)
  | .sending [], .go _ => some (shared, .checking)
  | .sending (⟨none, _⟩ :: _), .go _ => some (shared, .closing .forceStop)
  | .sending (⟨some msg, fin⟩ :: rest), .go _ =>
      some (shared, .writing (.doSend msg fin rest) false (frameBuffers msg fin))
  | .writing writer begun (some buffer :: rest), .go (.moves count) =>
      if shared.connected ∧ 0 < count ∧ count ≤ min buffer.length bufferSize then
        some (shared.write writer begun (buffer.take count),
          writer.advance (buffer.drop count) rest)
      else
        none
  | .writing writer begun (some buffer :: rest), .go .fails =>
      some (shared, .failing writer begun (some buffer :: rest))
  | .failing writer _ _, .go _ => some (shared.close, writer.failed)
  | .checking, .go _ =>
      some (shared, if shared.connected then .locking .test else .closing .disconnected)
  | .closing _, .go _ => some (shared.close, .posting)
  | .posting, .go _ => some (shared.setSem shared.sem.post, .outside)
  | .receiving, .go .ping =>
      some (shared, .writing .answer false [some (controlHead WSFrameHead.PONG).bytes])
  | .receiving, .go .message => some (shared, .outside)
  | .receiving, .go .fails => some (shared, .receiveFailed)
  | .receiveFailed, .go _ => some (shared.close, .outside)
  | _, _ => none

/-- The frames that `doSend` has handed to the wire. -/
def handed (shared : Shared) : List Entry :=
  shared.begun.filterMap Begun.entry?

end Shared

abbrev State := Config Shared Thread

/-- A step of a fiber, on the scheduler that it runs on. -/
def step (bufferSize : Nat) (state : State) (action : Waiter × Action) : Option State :=
  (state.shared.exec bufferSize action.1 (state.threads action.1.fiber) action.2).map fun next =>
    state.put action.1.fiber next.1 next.2

theorem step_frame {bufferSize : Nat} ⦃state : State⦄ ⦃action : Waiter × Action⦄ ⦃next : State⦄
    ⦃other : Nat⦄ (taken : step bufferSize state action = some next)
    (apart : some action.1.fiber ≠ some other) : next.threads other = state.threads other :=
  Config.map_put_other taken apart

/-- A new session. -/
def fresh : State where
  shared :=
    { connected := true
      sendQueue := []
      mtx := ⟨none, [], [], [], [], [], false⟩
      sem := ⟨1, [], [], [], [], 0, 0⟩
      wire := []
      pushed := []
      begun := [] }
  threads := fun _ => .outside

end WSSession

end Xten.http
