import Xten.IOManager.FdContexts

/-!
# The calls on events

`AddEvent`, `DelEvent`, `CancelEvent`, `CancelAll` and the dispatch of one event in `Idle`, as
threads that take steps. A section under the read or the write lock of the table is one
step. A section under the lock of an `FdContext` is cut at every access to
`_pendingEventNum`, which other sections share. A worker in `Idle` that handles several
events is a thread for each of them.
-/

namespace Xten.IOManager

open Std.Interleaving

/-- The arguments of `AddEvent`: whether it is given a callback, and `Scheduler::GetThis()`
where it is called. -/
structure Adding where
  ev : Event
  func : Bool
  scheduler : Option Nat
deriving DecidableEq, Repr

inductive Call where
  | addEvent (adding : Adding)
  | delEvent (ev : Event)
  | cancelEvent (ev : Event)
  | cancelAll
deriving DecidableEq, Repr

/-- Whether a call finds an fd beyond the table. -/
def Call.beyond (fd : BitVec 32) (size : Nat) : Call → Bool
  | .addEvent _ | .delEvent _ => overLast fd size
  | .cancelEvent _ | .cancelAll => overSize fd size

/-- What `epoll_wait` reports; `epollErr` stands for `EPOLLERR` and `EPOLLHUP`. -/
structure Report where
  epollIn : Bool
  epollOut : Bool
  epollErr : Bool
deriving DecidableEq, Repr

/-- `real_event`, given the events of the context. -/
def Report.realEvent (report : Report) (events : Events) : Events
  | .READ => report.epollIn || (report.epollErr && events .READ)
  | .WRITE => report.epollOut || (report.epollErr && events .WRITE)

/-- Who takes events away. -/
inductive Pass where
  | delEvent
  | cancelEvent
  | cancelAll
  | dispatch (realEvent : Events)

/-- `if (fd_ctx->events & ev)` in `CancelAll`, `if (real_event & ev)` in `Idle`. -/
def Pass.triggers (events : Events) (ev : Event) : Pass → Bool
  | .delEvent | .cancelEvent => true
  | .cancelAll => events ev
  | .dispatch realEvent => realEvent ev

/-- Where a thread is. `outside` keeps what the last call returned. -/
inductive Thread where
  | outside (ret : Option Int)
  | growing (fd : BitVec 32) (adding : Adding)
  | found (context : Nat) (call : Call)
  | reported (context : Nat) (report : Report)
  | counting (context : Nat) (adding : Adding)
  | entering (context : Nat) (adding : Adding)
  | triggering (context : Nat) (pass : Pass) (ev : Event)
  | discounting (context : Nat) (pass : Pass) (ev : Event)
  | passed (context : Nat) (pass : Pass) (ev : Event)

/-- A call is begun, `epoll_wait` returns an event of a context, or the thread goes on;
`ctl` is whether `epoll_ctl` succeeds. -/
inductive Action where
  | call (fd : BitVec 32) (call : Call)
  | wait (context : Nat) (report : Report)
  | go (ctl : Bool)

/-- What a thread does with a context once it has its lock, up to the first access to the
count of events. -/
inductive Entry where
  | returned (ret : Option Int)
  | aborted
  | entered (context : FdContext) (deleted : List Nat) (next : Thread)

/-- The context is as before, with epoll told what to watch. -/
def FdContext.watch (self : FdContext) (events : Events) : FdContext :=
  { self with watched := events }

def Call.enter (context : Nat) (self : FdContext) (ctl : Bool) : Call → Entry
  | .addEvent adding =>
      if self.events adding.ev then
        .aborted
      else if ctl then
        .entered (self.watch (self.events.add adding.ev)) [] (.counting context adding)
      else
        .returned (some (-1))
  | .delEvent ev =>
      if self.events ev && ctl then
        .entered ((self.drop ev).watch (self.events.remove ev))
          (self.getEvContext ev).registered (.discounting context .delEvent ev)
      else
        .returned (some 0)
  | .cancelEvent ev =>
      if self.events ev && ctl then
        .entered (self.watch (self.events.remove ev)) [] (.triggering context .cancelEvent ev)
      else
        .returned (some 0)
  | .cancelAll =>
      if !self.events.isEmpty && ctl then
        .entered (self.watch .none) [] (.triggering context .cancelAll .READ)
      else
        .returned (some 0)

/-- The events of a context that a report leaves. -/
def Report.leaveEvent (report : Report) (events : Events) : Events :=
  fun ev => events ev && !report.realEvent events ev

def Report.enter (context : Nat) (self : FdContext) (ctl : Bool) (report : Report) : Entry :=
  if (report.realEvent self.events .READ && self.events .READ ||
      report.realEvent self.events .WRITE && self.events .WRITE) && ctl then
    .entered (self.watch (report.leaveEvent self.events)) []
      (.triggering context (.dispatch (report.realEvent self.events)) .READ)
  else
    .returned none

namespace Shared

/-- The lock of a context is given back, and the call returns. -/
def finish (shared : Shared) (context : Nat) (ret : Option Int) : Shared × Thread :=
  (shared.write context { shared.contexts context with mutex := none }, .outside ret)

def abort (shared : Shared) : Shared :=
  { shared with aborted := true }

/-- `_fdContexts[fd]`; none beyond the table. -/
def lookup (shared : Shared) (fd : BitVec 32) (call : Call) : Option Nat :=
  if call.beyond fd shared.fdContexts.length then none else shared.fdContexts[index fd]?

/-- The section of a call under the read lock. -/
def look (shared : Shared) (fd : BitVec 32) (call : Call) : Thread :=
  match shared.lookup fd call, call with
  | some context, _ => .found context call
  | none, .addEvent adding => .growing fd adding
  | none, .delEvent _ | none, .cancelEvent _ => .outside (some 0)
  | none, .cancelAll => .outside (some 1)

/-- The section of `AddEvent` under the write lock. -/
def grow (shared : Shared) (fd : BitVec 32) (adding : Adding) : Shared × Thread :=
  match shared.FdContextsResize (fd * 2) with
  | none => (shared, .outside none)
  | some resized =>
      match resized.fdContexts[index fd]? with
      | none => (resized, .outside none)
      | some context => (resized, .found context (.addEvent adding))

/-- A section under the lock of a context begins. -/
def enter (shared : Shared) (thread : ThreadId) (context : Nat) (now : Thread) :
    Entry → Shared × Thread
  | .returned ret => (shared, .outside ret)
  | .aborted => (shared.abort, now)
  | .entered value deleted next =>
      ({ shared.write context { value with mutex := some thread } with
        deleted := shared.deleted ++ deleted }, next)

/-- `AddEvent` once the event is counted. -/
def register (shared : Shared) (context : Nat) (adding : Adding) : Shared × Thread :=
  let self := shared.contexts context
  let evctx := self.getEvContext adding.ev
  if evctx.fiber.isSome && evctx.cb.isSome && evctx.scheduler.isSome then
    (shared.abort, .entering context adding)
  else
    let entered : EventContext :=
      if adding.func then
        { evctx with scheduler := adding.scheduler, cb := some shared.registrations }
      else
        { evctx with scheduler := adding.scheduler, fiber := some shared.registrations }
    ({ shared.write context { self with
        events := self.events.add adding.ev
        getEvContext := self.setEvContext adding.ev entered
        mutex := none } with
      registrations := shared.registrations + 1 }, .outside (some 0))

/-- What comes after an event that is dealt with. -/
def proceed (shared : Shared) (context : Nat) : Pass → Event → Shared × Thread
  | .delEvent, _ | .cancelEvent, _ => shared.finish context (some 1)
  | .cancelAll, .READ => (shared, .triggering context .cancelAll .WRITE)
  | .cancelAll, .WRITE =>
      if (shared.contexts context).events.isEmpty then
        shared.finish context (some 1)
      else
        (shared.abort, .passed context .cancelAll .WRITE)
  | .dispatch realEvent, .READ => (shared, .triggering context (.dispatch realEvent) .WRITE)
  | .dispatch _, .WRITE => shared.finish context none

def trigger (shared : Shared) (context : Nat) (pass : Pass) (ev : Event) : Shared × Thread :=
  let self := shared.contexts context
  if pass.triggers self.events ev then
    match self.triggerEvent ev with
    | none => (shared.abort, .triggering context pass ev)
    | some (left, scheduled) =>
        ({ shared.write context left with scheduled := shared.scheduled ++ scheduled },
          .discounting context pass ev)
  else
    (shared, .passed context pass ev)

/-- One step of a thread; none if it has to wait, or cannot take that action. -/
def exec (thread : ThreadId) (shared : Shared) : Thread → Action → Option (Shared × Thread)
  | .outside _, .call fd call => some (shared, shared.look fd call)
  | .outside _, .wait context report =>
      if context < shared.made ∧
          (report.epollIn → (shared.contexts context).watched .READ) ∧
          (report.epollOut → (shared.contexts context).watched .WRITE) then
        some (shared, .reported context report)
      else
        none
  | .growing fd adding, .go _ => some (shared.grow fd adding)
  | .found context call, .go ctl =>
      if (shared.contexts context).mutex.isNone then
        some (shared.enter thread context (.found context call)
          (call.enter context (shared.contexts context) ctl))
      else
        none
  | .reported context report, .go ctl =>
      if (shared.contexts context).mutex.isNone then
        some (shared.enter thread context (.reported context report)
          (report.enter context (shared.contexts context) ctl))
      else
        none
  | .counting context adding, .go _ =>
      some ({ shared with pendingEventNum := shared.pendingEventNum + 1 },
        .entering context adding)
  | .entering context adding, .go _ => some (shared.register context adding)
  | .triggering context pass ev, .go _ => some (shared.trigger context pass ev)
  | .discounting context pass ev, .go _ =>
      some ({ shared with pendingEventNum := shared.pendingEventNum - 1 },
        .passed context pass ev)
  | .passed context pass ev, .go _ => some (shared.proceed context pass ev)
  | _, _ => none

end Shared

abbrev State := Config Shared Thread

/-- Nothing goes on once an assertion has failed. -/
def step (state : State) (action : ThreadId × Action) : Option State :=
  if state.shared.aborted then
    none
  else
    (state.shared.exec action.1 (state.threads action.1) action.2).map fun next =>
      state.put action.1 next.1 next.2

/-- The table that the constructor makes, of 32 contexts. -/
def fresh : State where
  shared :=
    { fdContexts := List.range 32
      contexts := .create
      made := 32
      pendingEventNum := 0
      registrations := 0
      scheduled := []
      deleted := []
      aborted := false }
  threads := fun _ => .outside none

end Xten.IOManager
