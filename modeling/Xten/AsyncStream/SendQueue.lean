import Xten.Fiber.Mutex

/-!
# The send queue of an asynchronous stream

`doWrite`, `enqueue`, `innerClose` and `Close` of one connection, and `doRead` with what it does
to the connection. A section under the thread mutexes of `_queMtx` and `_cond` is one step,
and so is what happens between two of them while a fiber has `_queMtx`. Callbacks return.
-/

namespace Xten.AsyncSocketStream.SendQueue

open Std.Interleaving
open FiberSemphore (FiberId Waiter)

/-- The connection, the contexts to be sent, and `_queMtx` with `_cond`. -/
structure Shared where
  connected : Bool
  sendCtxQue : List Nat
  queMtx : FiberMutex.Shared

/-- Who calls `innerClose`: `doRecv` in the loop of `doRead`, `doRead` behind its loop,
`doWrite` when a send fails, or somebody else. -/
inductive Caller where
  | recv
  | readEnd
  | send
  | other
deriving DecidableEq, Repr

/-- What a fiber does once it has `_queMtx`. -/
inductive Goal where
  | test
  | push (ctx : Nat)
  | clear (caller : Caller)
  | lastClear
deriving DecidableEq, Repr

/-- Where a fiber goes on once it has given `_queMtx` back. -/
inductive After where
  | send (copyQue : List Nat)
  | signal
  | returned (caller : Caller)
  | post
deriving DecidableEq, Repr

/-- Where a fiber is. `waiting` has found nothing to send and is about to call
`_cond.wait()`; `blocked` is in a queue of `_queMtx` or `_cond`. -/
inductive Thread where
  | outside
  | reading
  | checking
  | sending (copyQue : List Nat)
  | posting
  | closing (caller : Caller)
  | broadcasting (caller : Caller)
  | locking (goal : Goal)
  | blocked (suspended : Bool) (goal : Goal)
  | holding (goal : Goal)
  | waiting
  | unlocking (after : After)
  | signal
  | signalling (next : Waiter)
deriving DecidableEq, Repr

/-- What comes of `doRecv` and `doSend`. -/
inductive Outcome where
  | succeeds
  | fails
  | throws
deriving DecidableEq, Repr

inductive Action where
  | enqueue (ctx : Nat)
  | innerClose
  | close
  | go (outcome : Outcome)
  | resume
deriving DecidableEq, Repr

/-- Where `innerClose` returns to. -/
def Caller.thread : Caller → Thread
  | .recv => .reading
  | .readEnd => .posting
  | .send => .checking
  | .other => .outside

def After.thread : After → Thread
  | .send copyQue => .sending copyQue
  | .signal => .signal
  | .returned caller => caller.thread
  | .post => .posting

/-- The scheduler that all of this runs on. -/
def ioWorker : Nat :=
  0

namespace Shared

def setMutex (shared : Shared) (queMtx : FiberMutex.Shared) : Shared :=
  { shared with queMtx := queMtx }

/-- What a fiber does with `_queMtx`. -/
def perform (shared : Shared) : Goal → Shared × Thread
  | .test =>
      if shared.sendCtxQue.isEmpty && shared.connected then
        (shared, .waiting)
      else
        ({ shared with sendCtxQue := [] }, .unlocking (.send shared.sendCtxQue))
  | .push ctx => ({ shared with sendCtxQue := shared.sendCtxQue ++ [ctx] }, .unlocking .signal)
  | .clear caller => ({ shared with sendCtxQue := [] }, .unlocking (.returned caller))
  | .lastClear => ({ shared with sendCtxQue := [] }, .unlocking .post)

/-- `_queMtx.lock()`. -/
def lock (shared : Shared) (self : FiberId) (goal : Goal) : Shared × Thread :=
  let (queMtx, entered) := shared.queMtx.lock ⟨ioWorker, self⟩
  (shared.setMutex queMtx, if entered then .holding goal else .blocked false goal)

/-- One step of a fiber; none if it has to wait. -/
def exec (self : FiberId) (shared : Shared) : Thread → Action → Option (Shared × Thread)
  | .outside, .enqueue ctx => some (shared, .locking (.push ctx))
  | .outside, .innerClose => some (shared, .closing .other)
  | .outside, .close => some ({ shared with connected := false }, .outside)
  | .reading, .go outcome =>
      some (shared,
        if !shared.connected || outcome = .throws then .closing .readEnd
        else if outcome = .fails then .closing .recv
        else .reading)
  | .checking, .go _ =>
      some (shared, if shared.connected then .locking .test else .locking .lastClear)
  | .sending [], .go _ => some (shared, .checking)
  | .sending (_ :: rest), .go outcome =>
      some (shared,
        match outcome with
        | .succeeds => .sending rest
        | .fails => .closing .send
        | .throws => .locking .lastClear)
  | .posting, .go _ => some (shared, .outside)
  | .closing caller, .go _ => some ({ shared with connected := false }, .broadcasting caller)
  | .broadcasting caller, .go _ =>
      some (shared.setMutex shared.queMtx.broadcast, .locking (.clear caller))
  | .locking goal, .go _ => some (shared.lock self goal)
  | .blocked false goal, .go _ => some (shared, .blocked true goal)
  | .blocked true goal, .resume =>
      if ⟨ioWorker, self⟩ ∈ shared.queMtx.ready then
        some (shared.setMutex (shared.queMtx.resume ⟨ioWorker, self⟩), .holding goal)
      else
        none
  | .holding goal, .go _ => some (shared.perform goal)
  | .waiting, .go _ =>
      some (shared.setMutex (shared.queMtx.wait ⟨ioWorker, self⟩), .blocked false .test)
  | .unlocking after, .go _ =>
      some (shared.setMutex (shared.queMtx.unlockNoLock self), after.thread)
  | .signal, .go _ =>
      match shared.queMtx.signal with
      | none => some (shared, .outside)
      | some (rest, next) => some (shared.setMutex rest, .signalling next)
  | .signalling next, .go _ => some (shared.setMutex (shared.queMtx.enter next), .outside)
  | _, _ => none

end Shared

abbrev State := Config Shared Thread

def step (state : State) (action : FiberId × Action) : Option State :=
  (state.shared.exec action.1 (state.threads action.1) action.2).map fun next =>
    state.put action.1 next.1 next.2

/-- The fibers that `Start` has scheduled. -/
def reader : FiberId :=
  0

def writer : FiberId :=
  1

/-- `doRead` and `doWrite` begin; contexts may have been enqueued, and the connection closed,
before that. -/
def begun (connected : Bool) (sendCtxQue : List Nat) : State where
  shared := ⟨connected, sendCtxQue, ⟨none, [], [], [], [], [], false⟩⟩
  threads := fun fiber =>
    if fiber = reader then .reading else if fiber = writer then .checking else .outside

end Xten.AsyncSocketStream.SendQueue
