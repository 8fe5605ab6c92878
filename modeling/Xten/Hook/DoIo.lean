import Xten.IOManager.Calls

/-!
# Hooked IO

`do_io` and `close` of the hook layer, with what they meet: the table of `FdCtxMgr`, the
sections of `AddEvent`, `CancelEvent`, `CancelAll` and the dispatch of an event, and the
condition timers. Everything runs on the workers of one `IOManager`, whose table is large
enough; a section under the lock of an `FdContext` is one step. No descriptor is duplicated.
-/

namespace Xten.Hook

open Std.Interleaving
open IOManager (Event Events Report)

abbrev FiberId := Nat

/-- `SO_RCVTIMEO` and `SO_SNDTIMEO`. -/
inductive TimeOutType where
  | SO_RCVTIMEO
  | SO_SNDTIMEO
deriving DecidableEq, Repr

/-- `(uint64_t)-1`. -/
def noTimeOut : BitVec 64 :=
  -1

/-- An `FdCtx`, as far as `do_io` reads it. -/
structure FdCtx where
  isSocket : Bool
  isClose : Bool
  isUserSetNoBlock : Bool
  readTimeOut_ms : BitVec 64
  writeTimeOut_ms : BitVec 64
deriving DecidableEq, Repr

namespace FdCtx

/-- `FdCtx(fd)`, with what `fstat` says. -/
def init (isSocket : Bool) : FdCtx :=
  ⟨isSocket, false, false, noTimeOut, noTimeOut⟩

def getTimeOut (ctx : FdCtx) : TimeOutType → BitVec 64
  | .SO_RCVTIMEO => ctx.readTimeOut_ms
  | .SO_SNDTIMEO => ctx.writeTimeOut_ms

def setTimeOut (ctx : FdCtx) (time_ms : BitVec 64) : TimeOutType → FdCtx
  | .SO_RCVTIMEO => { ctx with readTimeOut_ms := time_ms }
  | .SO_SNDTIMEO => { ctx with writeTimeOut_ms := time_ms }

end FdCtx

/-- A call of `do_io` that has made its `timer_condition`, whose place in memory stands for
it here. `socket` is what the descriptor has denoted at the beginning. -/
structure Call where
  fiber : FiberId
  number : Nat
  fd : Nat
  event : Event
  timeout : BitVec 64
  socket : Option Nat
deriving DecidableEq, Repr

/-- The condition timer of one round of a call. -/
structure Timer where
  call : Call
  round : Nat
deriving DecidableEq, Repr

/-- A system call of a round, on what the descriptor denotes. -/
structure Syscall where
  call : Call
  round : Nat
  target : Option Nat
deriving DecidableEq, Repr

/-- `descriptor` is the kernel's table, `watched` what epoll watches; `events` are the
fibers that the `FdContext` of each descriptor keeps. `cancelled` and `useCount` are of the
`timer_condition` of a call, a callback counting once. -/
structure Shared where
  descriptor : Nat → Option Nat
  sockets : Nat
  fds : Nat → Option FdCtx
  events : Nat → Event → Option FiberId
  watched : Nat → Events
  timers : List Timer
  calls : Nat
  cancelled : Call → Bool
  useCount : Call → Nat
  scheduled : List FiberId
  syscalls : List Syscall

/-- Where a call is: about to try, to add its timer, to add its event, to cancel the timer
as the event could not be added, to suspend, or suspended; resumed, and about to cancel the
timer; about to look at `cancelled`. -/
inductive Point where
  | trying
  | arming
  | adding
  | failed
  | yielding
  | suspended
  | resumed
  | judging
deriving DecidableEq, Repr

/-- Where the callback of a timer is: before `OnTimer`, or with the condition in hand and
about to test `cancelled`, to set it, or to cancel the event. -/
inductive Stage where
  | expired
  | testing
  | setting
  | cancelling
deriving DecidableEq, Repr

/-- Where a fiber is, or a worker that runs a callback or handles an event. -/
inductive Thread where
  | outside
  | direct (fd : Nat)
  | inside (call : Call) (round : Nat) (point : Point)
  | callback (timer : Timer) (stage : Stage)
  | reported (fd : Nat) (report : Report)
  | closing (fd : Nat)
  | deleting (fd : Nat)
  | closingF (fd : Nat)
  | opened (fd : Nat) (isSocket : Bool)
deriving DecidableEq

/-- What a system call comes to. -/
inductive Reply where
  | success
  | EAGAIN
  | EINTR
  | failure
deriving DecidableEq, Repr

/-- `hooked` is `is_hook_enable()`. `socket` is any call that makes a socket, with the
descriptor that the kernel gives out. -/
inductive Action where
  | doIo (hooked : Bool) (fd : Nat) (event : Event) (timeoutType : TimeOutType)
  | close (hooked : Bool) (fd : Nat)
  | socket (fd : Nat) (isSocket : Bool)
  | setTimeOut (fd : Nat) (timeoutType : TimeOutType) (time_ms : BitVec 64)
  | setUserNoBlock (fd : Nat) (v : Bool)
  | cancelEvent (fd : Nat) (event : Event) (reply : Reply)
  | expire (timer : Timer)
  | wait (fd : Nat) (report : Report)
  | resume
  | go (reply : Reply)

namespace Shared

/-- `Get`, and a change of what it returns. -/
def modifyFdCtx (shared : Shared) (fd : Nat) (change : FdCtx → FdCtx) : Shared :=
  { shared with
    fds := fun other => if other = fd then (shared.fds fd).map change else shared.fds other }

/-- Whether `epoll_ctl` succeeds; on a closed descriptor it does not. -/
def ctl (shared : Shared) (fd : Nat) (reply : Reply) : Bool :=
  reply = .success && (shared.descriptor fd).isSome

/-- The events that are registered on a descriptor. -/
def mask (shared : Shared) (fd : Nat) : Events :=
  fun event => (shared.events fd event).isSome

/-- Epoll watches what is registered. -/
def watch (shared : Shared) (fd : Nat) : Shared :=
  { shared with
    watched := fun other => if other = fd then shared.mask fd else shared.watched other }

def setEvent (shared : Shared) (fd : Nat) (event : Event) (fiber : Option FiberId) : Shared :=
  { shared with
    events := fun otherFd other =>
      if otherFd = fd ∧ other = event then fiber else shared.events otherFd other }

/-- `triggerEvent`. -/
def triggerEvent (shared : Shared) (fd : Nat) (event : Event) : Shared :=
  match shared.events fd event with
  | none => shared
  | some fiber =>
      { shared.setEvent fd event none with scheduled := shared.scheduled ++ [fiber] }

/-- `CancelEvent`. -/
def cancelEvent (shared : Shared) (fd : Nat) (event : Event) (reply : Reply) : Shared :=
  if shared.mask fd event && shared.ctl fd reply then
    (shared.triggerEvent fd event).watch fd
  else
    shared

/-- `CancelAll`. -/
def cancelAll (shared : Shared) (fd : Nat) (reply : Reply) : Shared :=
  if !(shared.mask fd).isEmpty && shared.ctl fd reply then
    ((shared.triggerEvent fd .READ).triggerEvent fd .WRITE).watch fd
  else
    shared

/-- The dispatch of a reported event in `Idle`. -/
def dispatch (shared : Shared) (fd : Nat) (report : Report) (reply : Reply) : Shared :=
  let realEvent := report.realEvent (shared.mask fd)
  if (realEvent .READ && shared.mask fd .READ || realEvent .WRITE && shared.mask fd .WRITE) &&
      shared.ctl fd reply then
    let read := if realEvent .READ then shared.triggerEvent fd .READ else shared
    (if realEvent .WRITE then read.triggerEvent fd .WRITE else read).watch fd
  else
    shared

/-- `timer->cancel()`, or the timer leaves the set as it expires. -/
def cancelTimer (shared : Shared) (timer : Timer) : Shared :=
  { shared with timers := shared.timers.filter (· ≠ timer) }

def setCancelled (shared : Shared) (call : Call) (cancelled : Bool) : Shared :=
  { shared with
    cancelled := fun other => if other = call then cancelled else shared.cancelled other }

def setUseCount (shared : Shared) (call : Call) (useCount : Nat) : Shared :=
  { shared with
    useCount := fun other => if other = call then useCount else shared.useCount other }

/-- The condition is given back. -/
def release (shared : Shared) (call : Call) : Shared :=
  shared.setUseCount call (shared.useCount call - 1)

/-- `make_shared<timer_condition>()`. -/
def makeCondition (shared : Shared) (call : Call) : Shared :=
  { (shared.setCancelled call false).setUseCount call 1 with calls := shared.calls + 1 }

/-- The beginning of `do_io`, up to the first try. -/
def doIo (self : FiberId) (shared : Shared) (hooked : Bool) (fd : Nat) (event : Event)
    (timeoutType : TimeOutType) : Shared × Thread :=
  match if hooked then shared.fds fd else none with
  | none => (shared, .direct fd)
  | some ctx =>
      if ctx.isClose then
        (shared, .outside)
      else if !ctx.isSocket || ctx.isUserSetNoBlock then
        (shared, .direct fd)
      else
        let call : Call :=
          ⟨self, shared.calls, fd, event, ctx.getTimeOut timeoutType, shared.descriptor fd⟩
        (shared.makeCondition call, .inside call 0 .trying)

/-- `do_io` returns. -/
def finish (shared : Shared) (call : Call) : Shared × Thread :=
  (shared.release call, .outside)

/-- `do_io` tries, for the first time or again. -/
def attempt (shared : Shared) (call : Call) (round : Nat) (reply : Reply) : Shared × Thread :=
  let tried :=
    { shared with
      syscalls := shared.syscalls ++ [⟨call, round, shared.descriptor call.fd⟩] }
  match shared.descriptor call.fd, reply with
  | some _, .EINTR => (tried, .inside call round .trying)
  | some _, .EAGAIN => (tried, .inside call round .arming)
  | _, _ => tried.finish call

/-- `addConditionTimer`, if there is a timeout. -/
def arm (shared : Shared) (call : Call) (round : Nat) : Shared :=
  if call.timeout = noTimeOut then
    shared
  else
    { shared with timers := shared.timers ++ [⟨call, round⟩] }

/-- `AddEvent`; none if the assertion fails. -/
def addEvent (shared : Shared) (call : Call) (round : Nat) (reply : Reply) :
    Option (Shared × Thread) :=
  if shared.mask call.fd call.event then
    none
  else if shared.ctl call.fd reply then
    some ((shared.setEvent call.fd call.event call.fiber).watch call.fd,
      .inside call round .yielding)
  else
    some (shared, .inside call round .failed)

/-- A step of `do_io`. -/
def advance (shared : Shared) (call : Call) (round : Nat) (reply : Reply) :
    Point → Option (Shared × Thread)
  | .trying => some (shared.attempt call round reply)
  | .arming => some (shared.arm call round, .inside call round .adding)
  | .adding => shared.addEvent call round reply
  | .failed => some ((shared.cancelTimer ⟨call, round⟩).finish call)
  | .yielding => some (shared, .inside call round .suspended)
  | .suspended => none
  | .resumed => some (shared.cancelTimer ⟨call, round⟩, .inside call round .judging)
  | .judging =>
      some (if shared.cancelled call then shared.finish call
        else (shared, .inside call (round + 1) .trying))

/-- A step of a callback. -/
def fire (shared : Shared) (timer : Timer) (reply : Reply) : Stage → Shared × Thread
  | .expired =>
      if shared.useCount timer.call = 0 then
        (shared, .outside)
      else
        (shared.setUseCount timer.call (shared.useCount timer.call + 1),
          .callback timer .testing)
  | .testing =>
      if shared.cancelled timer.call then
        (shared.release timer.call, .outside)
      else
        (shared, .callback timer .setting)
  | .setting => (shared.setCancelled timer.call true, .callback timer .cancelling)
  | .cancelling =>
      ((shared.cancelEvent timer.call.fd timer.call.event reply).release timer.call, .outside)

/-- The kernel gives out a descriptor that is free. -/
def openSocket (shared : Shared) (fd : Nat) : Shared :=
  { shared with
    descriptor := fun other =>
      if other = fd then some shared.sockets else shared.descriptor other
    sockets := shared.sockets + 1 }

/-- `close_f`; epoll forgets the socket. -/
def closeF (shared : Shared) (fd : Nat) : Shared :=
  { shared with
    descriptor := fun other => if other = fd then none else shared.descriptor other
    watched := fun other => if other = fd then Events.none else shared.watched other }

/-- `Get(fd, true)`. -/
def create (shared : Shared) (fd : Nat) (isSocket : Bool) : Shared :=
  { shared with
    fds := fun other =>
      if other = fd then some ((shared.fds fd).getD (.init isSocket)) else shared.fds other }

/-- `Del`. -/
def del (shared : Shared) (fd : Nat) : Shared :=
  { shared with fds := fun other => if other = fd then none else shared.fds other }

/-- One step; none if it is not possible. -/
def exec (self : FiberId) (shared : Shared) : Thread → Action → Option (Shared × Thread)
  | .outside, .doIo hooked fd event timeoutType =>
      some (shared.doIo self hooked fd event timeoutType)
  | .outside, .close hooked fd =>
      some (shared, if hooked && (shared.fds fd).isSome then .closing fd else .closingF fd)
  | .outside, .socket fd isSocket =>
      if shared.descriptor fd = none then some (shared.openSocket fd, .opened fd isSocket)
      else none
  | .outside, .setTimeOut fd timeoutType time_ms =>
      some (shared.modifyFdCtx fd fun ctx => ctx.setTimeOut time_ms timeoutType, .outside)
  | .outside, .setUserNoBlock fd v =>
      some (shared.modifyFdCtx fd fun ctx =>
        if ctx.isClose || !ctx.isSocket then ctx else { ctx with isUserSetNoBlock := v },
        .outside)
  | .outside, .cancelEvent fd event reply => some (shared.cancelEvent fd event reply, .outside)
  | .outside, .expire timer =>
      if timer ∈ shared.timers then some (shared.cancelTimer timer, .callback timer .expired)
      else none
  | .outside, .wait fd report =>
      if (report.epollIn → shared.watched fd .READ) ∧
          (report.epollOut → shared.watched fd .WRITE) then
        some (shared, .reported fd report)
      else
        none
  | .inside call round .suspended, .resume =>
      if self ∈ shared.scheduled then
        some ({ shared with scheduled := shared.scheduled.erase self },
          .inside call round .resumed)
      else
        none
  | .inside call round point, .go reply => shared.advance call round reply point
  | .callback timer stage, .go reply => some (shared.fire timer reply stage)
  | .reported fd report, .go reply => some (shared.dispatch fd report reply, .outside)
  | .closing fd, .go reply => some (shared.cancelAll fd reply, .deleting fd)
  | .deleting fd, .go _ => some (shared.del fd, .closingF fd)
  | .closingF fd, .go _ => some (shared.closeF fd, .outside)
  | .opened fd isSocket, .go _ => some (shared.create fd isSocket, .outside)
  | .direct _, .go _ => some (shared, .outside)
  | _, _ => none

end Shared

abbrev State := Config Shared Thread

def step (state : State) (action : FiberId × Action) : Option State :=
  (state.shared.exec action.1 (state.threads action.1) action.2).map fun next =>
    state.put action.1 next.1 next.2

/-- Nothing is open. -/
def fresh : State where
  shared :=
    { descriptor := fun _ => none
      sockets := 0
      fds := fun _ => none
      events := fun _ _ => none
      watched := fun _ => Events.none
      timers := []
      calls := 0
      cancelled := fun _ => false
      useCount := fun _ => 0
      scheduled := []
      syscalls := [] }
  threads := fun _ => .outside

end Xten.Hook
