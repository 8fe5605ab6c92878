import Xten.Fiber.Semaphore

/-!
# The life of an asynchronous stream

`AsyncSocketStream::Start`, the fibers `doRead` and `doWrite` as far as they come and go, and
the timers that start the stream again. What the two fibers do with the connection is left
open: `doRecv` and `doSend` succeed, fail or throw as they like.
-/

namespace Xten.AsyncSocketStream

open Std.Interleaving
open FiberSemphore (FiberId)

/-- An armed timer that calls `Start`. -/
structure Timer where
  id : Nat
  ms : Nat
deriving DecidableEq, Repr

/-- The members that `Start` and the fibers use. `reads` and `writes` are the fibers that have
been scheduled and not yet begun; `made` numbers the timers. -/
structure Shared where
  connected : Bool
  autoConnect : Bool
  tryConnectCount : Nat
  timer : Option Nat
  timers : List Timer
  made : Nat
  waitFiberSem : FiberSemphore.Shared
  reads : Nat
  writes : Nat

/-- Where a fiber is: inside `Start`, which waits for its first permit and then for its second
one; inside `doRead`; or inside `doWrite`. -/
inductive Thread where
  | idle
  | starting
  | waiting (second : Bool) (point : FiberSemphore.Point)
  | halfway
  | entered
  | calling
  | failing
  | posting (left : Nat)
  | startingRead
  | startingWrite
  | started
  | retrying
  | reading
  | closing
  | postingRead
  | rearming
  | writing
  | postingWrite
deriving DecidableEq, Repr

/-- `go` has the outcome of what the fiber does. -/
inductive Action where
  | start
  | fire (timer : Nat)
  | close
  | beginRead
  | beginWrite
  | go (succeeds : Bool)
  | fail
  | resume
deriving DecidableEq, Repr

/-- The scheduler that all of this runs on. -/
def ioWorker : Nat :=
  0

namespace Shared

/-- `_timer->cancel(); _timer = nullptr;`. -/
def cancelTimer (shared : Shared) : Shared :=
  { shared with
    timers := shared.timers.filter fun armed => shared.timer ≠ some armed.id
    timer := none }

/-- `_timer = _ioWorker->addTimer(ms, ...)`. -/
def addTimer (shared : Shared) (ms : Nat) : Shared :=
  { shared with
    timers := ⟨shared.made, ms⟩ :: shared.timers
    timer := some shared.made
    made := shared.made + 1 }

/-- `Close`. -/
def close (shared : Shared) : Shared :=
  { { shared with autoConnect := false }.cancelTimer with connected := false }

/-- What `Start` does when it has failed. -/
def retry (shared : Shared) : Shared :=
  let counted := { shared with tryConnectCount := shared.tryConnectCount + 1 }
  if counted.autoConnect then
    counted.cancelTimer.addTimer (min (counted.tryConnectCount * 2 * 50) 2000)
  else
    counted

/-- What `doRead` does when it has given its permit back. -/
def rearm (shared : Shared) : Shared :=
  if shared.autoConnect then shared.addTimer 10 else shared

/-- `_waitFiberSem.post()`. -/
def post (shared : Shared) : Shared :=
  { shared with waitFiberSem := shared.waitFiberSem.post }

/-- `_waitFiberSem.wait()`, up to the switch; true if there is a permit. -/
def wait (shared : Shared) (self : FiberId) (second : Bool) : Shared × Thread :=
  let (waited, point) := shared.waitFiberSem.wait ⟨ioWorker, self⟩
  ({ shared with waitFiberSem := waited },
    if point = .running then (if second then .entered else .halfway) else .waiting second point)

/-- One step of a fiber; none if it has to wait. An exception is caught in the loops of
`doRead` and `doWrite`, but not in the call of `innerClose` behind the loop of `doRead`. -/
def exec (self : FiberId) (shared : Shared) : Thread → Action → Option (Shared × Thread)
  | .idle, .start => some (shared, .starting)
  | .idle, .fire timer =>
      if timer ∈ shared.timers.map Timer.id then
        some ({ shared with timers := shared.timers.filter fun armed => armed.id ≠ timer },
          .starting)
      else
        none
  | .idle, .close => some (shared.close, .idle)
  | .starting, .go _ => some (shared.wait self false)
  | .waiting second .leaving, .go _ => some (shared, .waiting second .suspended)
  | .waiting second .suspended, .resume =>
      if ⟨ioWorker, self⟩ ∈ shared.waitFiberSem.ready then
        some ({ shared with waitFiberSem :=
          { shared.waitFiberSem with
            ready := shared.waitFiberSem.ready.erase ⟨ioWorker, self⟩ } },
          if second then .entered else .halfway)
      else
        none
  | .halfway, .go _ => some (shared.wait self true)
  | .entered, .go reconnects =>
      if shared.connected then
        some (shared, .calling)
      else if reconnects then
        some ({ shared with connected := true }, .calling)
      else
        some (shared, .failing)
  | .calling, .go accepts => some (shared, if accepts then .startingRead else .failing)
  | .failing, .go _ => some ({ shared with connected := false }, .posting 2)
  | .posting (left + 1), .go _ => some (shared.post, .posting left)
  | .posting 0, .go _ => some (shared, .retrying)
  | .retrying, .go _ => some (shared.retry, .idle)
  | .startingRead, .go _ => some ({ shared with reads := shared.reads + 1 }, .startingWrite)
  | .startingWrite, .go _ => some ({ shared with writes := shared.writes + 1 }, .started)
  | .started, .go _ => some ({ shared with tryConnectCount := 0 }, .idle)
  | .idle, .beginRead =>
      if 0 < shared.reads then
        some ({ shared with reads := shared.reads - 1 }, .reading)
      else
        none
  | .reading, .go succeeds =>
      some (shared, if shared.connected && succeeds then .reading else .closing)
  | .closing, .go returns =>
      if returns then
        some ({ shared with connected := false }, .postingRead)
      else
        some (shared, .idle)
  | .postingRead, .go _ => some (shared.post, .rearming)
  | .rearming, .go _ => some (shared.rearm, .idle)
  | .idle, .beginWrite =>
      if 0 < shared.writes then
        some ({ shared with writes := shared.writes - 1 }, .writing)
      else
        none
  | .writing, .go succeeds =>
      some (shared, if shared.connected && succeeds then .writing else .postingWrite)
  | .writing, .fail => some ({ shared with connected := false }, .writing)
  | .postingWrite, .go _ => some (shared.post, .idle)
  | _, _ => none

end Shared

abbrev State := Config Shared Thread

def step (state : State) (action : FiberId × Action) : Option State :=
  (state.shared.exec action.1 (state.threads action.1) action.2).map fun next =>
    state.put action.1 next.1 next.2

theorem step_frame ⦃state : State⦄ ⦃action : FiberId × Action⦄ ⦃next : State⦄ ⦃other : Nat⦄
    (taken : step state action = some next) (apart : some action.1 ≠ some other) :
    next.threads other = state.threads other :=
  Config.map_put_other taken apart

/-- A new stream, with the two permits of `_waitFiberSem`. -/
def fresh (connected autoConnect : Bool) : State where
  shared :=
    { connected := connected
      autoConnect := autoConnect
      tryConnectCount := 0
      timer := none
      timers := []
      made := 0
      waitFiberSem := ⟨2, [], [], [], [], 0, 0⟩
      reads := 0
      writes := 0 }
  threads := fun _ => .idle

end Xten.AsyncSocketStream
