import Xten.Std.Interleaving

/-!
# The scheduler and its workers

`Scheduler::Run` with one task queue (`OPTIMIZE` is `OFF`), the fibers it switches to, and
`IOManager::Idle` with `Tickle` and `IsStopping`. A thread takes a step for every access
to what the threads share. A section under `_mutex` is one step, except for the scan of
the queue, which reads the status of one fiber after the other while it holds the lock,
and which erases a task before it counts itself active.

Which code runs on a fiber is up to the caller: it may call `Schedule`, set timers and
register events, and end its turn in any way. Deadlines and file descriptors are left
out: any timer may expire and any event may come at any time.
-/

namespace Xten

/-- `Fiber::Status`. -/
inductive Status where
  | init | exec | hold | ready | term | except
deriving DecidableEq, Repr

/-- Whether the suspension of a fiber has been answered by an enqueue: the one it is in,
or the next one. The code does not keep this. -/
inductive Wake where
  | closed | awaited | enqueued
deriving DecidableEq, Repr

/-- A `Fiber`. `func` is the entry function of a fiber made for a callback, named by the
ticket of the task. -/
structure Fiber where
  status : Status := .init
  func : Option Nat := none
  wake : Wake := .closed
deriving DecidableEq, Repr

namespace Scheduler

abbrev FiberId := Nat

abbrev ThreadId := Nat

/-- The `fiber` or the `func` of a `FuncOrFiber`. -/
inductive Job where
  | fiber (fiber : FiberId)
  | func
deriving DecidableEq, Repr

/-- The fiber of a task. -/
def Job.fiber? : Job → Option FiberId
  | .fiber named => some named
  | .func => none

/-- `FuncOrFiber`. `ticket` numbers the tasks in the order in which they were scheduled;
it stands for the callback of a task that is one. -/
structure Task where
  ticket : Nat
  job : Job
  threadId : Option ThreadId
deriving DecidableEq, Repr

/-- A timer of the `TimerManager`. -/
structure Timer where
  id : Nat
  recurring : Bool
deriving DecidableEq, Repr

/-- What the threads share. `isIOManager` decides which overrides are called. `events` are
the bodies of the registered events; `scheduled` are all the tasks so far, and `ran` those
that a worker has switched to, with the worker. -/
structure Shared where
  isIOManager : Bool
  threadsNum : Nat
  mutex : Option ThreadId
  funFibers : List Task
  activeThreadNum : Int
  idleThreadNum : Int
  stopping : Bool
  autoStopping : Bool
  pendingEventNum : Int
  pipe : Nat
  timers : List Timer
  events : List Job
  fibers : FiberId → Fiber
  made : Nat
  scheduled : List Task
  ran : List (Task × ThreadId)

/-- The locals of `Run` that outlive a round of its loop: `cb_fiber`, and whether
`idle_fiber` has ended. -/
structure Worker where
  cbFiber : Option FiberId
  idleTerm : Bool
deriving DecidableEq, Repr

/-- A task and the fiber it is run on. -/
structure Running where
  task : Task
  fiber : FiberId
deriving DecidableEq, Repr

/-- `cb_fiber` once the fiber may not be used again. -/
def Worker.release (self : Worker) (running : Running) : Worker :=
  if running.task.job = .func then { self with cbFiber := none } else self

/-- Where a thread goes on after a call of `Schedule` or `Tickle`. -/
inductive After where
  | outside
  | took (self : Worker) (task : Option Task)
  | running (self : Worker) (running : Running)
  | loop (self : Worker)
  | handling (self : Worker) (tickled : Bool)
  | event (after : After)
  | waking (count : Nat)
deriving DecidableEq, Repr

/-- What a thread does next. -/
inductive Thread where
  /-- Code outside the workers. -/
  | outside
  /-- A round of the loop of `Run` begins with `_mutex`. -/
  | loop (self : Worker)
  /-- The scan has come to a position of the queue. -/
  | scanning (self : Worker) (index : Nat) (tickle : Bool)
  /-- The task is erased, `_active_threadNum++` comes next. -/
  | erased (self : Worker) (task : Task) (tickle : Bool)
  /-- `HasIdleThread()` in `Tickle`. -/
  | tickling (after : After)
  /-- `write(_pipeTicklefd[1], "T", 1)`. -/
  | writing (after : After)
  /-- The scan is over, with the task it took. -/
  | took (self : Worker) (task : Option Task)
  /-- `_active_threadNum--` where there is neither a live fiber nor a callback. -/
  | dropping (self : Worker)
  /-- `SwapIn`. -/
  | entering (self : Worker) (running : Running)
  /-- The code of the fiber. -/
  | running (self : Worker) (running : Running)
  /-- `SwapOut` after the fiber has written its status. -/
  | leaving (self : Worker) (running : Running)
  /-- `_active_threadNum--` after `SwapIn`. -/
  | returned (self : Worker) (running : Running)
  /-- `GetStatus() == READY`. -/
  | judging (self : Worker) (running : Running)
  /-- `Schedule(fcb.fiber, fcb.threadId)`. -/
  | rescheduling (self : Worker) (running : Running)
  /-- `GetStatus() == TERM` or `EXCEPT`, and the reset of a callback's fiber. -/
  | settling (self : Worker) (running : Running)
  /-- `_status = HOLD`. -/
  | holding (self : Worker) (running : Running)
  /-- The idle fiber's status, up to `_idle_threadNum++`. -/
  | idling (self : Worker)
  /-- `getNextTimer()` in `IsStopping`. -/
  | timing (self : Worker)
  /-- `_pendingEventNum == 0`. -/
  | pending (self : Worker)
  /-- `_stopping`. -/
  | stopRead (self : Worker)
  /-- `_auto_stopping`. -/
  | autoRead (self : Worker)
  /-- `_fun_fibers.empty()`. -/
  | emptyRead (self : Worker)
  /-- `!_active_threadNum`. -/
  | activeRead (self : Worker)
  /-- `epoll_wait`. -/
  | waiting (self : Worker)
  /-- `listExpiredCb`. -/
  | expiring (self : Worker) (tickled : Bool)
  /-- `Schedule` of the callbacks of expired timers. -/
  | expired (self : Worker) (tickled : Bool) (count : Nat)
  /-- The loop over the events that `epoll_wait` has returned; `tickled` says whether the
  read end of the pipe is still among them. -/
  | handling (self : Worker) (tickled : Bool)
  /-- `Schedule` in `triggerEvent`. -/
  | triggering (job : Job) (after : After)
  /-- `_pendingEventNum--` after `triggerEvent`. -/
  | triggered (after : After)
  /-- `_idle_threadNum--`. -/
  | idled (self : Worker)
  /-- `_stopping = true` in `Stop`. -/
  | stopping
  /-- The calls of `Tickle` that `Stop` still makes. -/
  | waking (count : Nat)
  /-- `Run` has returned. -/
  | left
  /-- An assertion has failed. -/
  | failed
deriving DecidableEq, Repr

/-- What is up to the code that runs on a thread, or to the kernel. -/
inductive Choice where
  | go
  | schedule (jobs : List Job) (threadId : Option ThreadId)
  | newFiber
  | addTimer (timer : Timer) (front : Bool)
  | cancelTimer (id : Nat)
  | addEvent (job : Job)
  | delEvent (index : Nat)
  | cancelEvent (index : Nat)
  | yieldToHold
  | yieldToReady
  | finish
  | throw
  | wake
  | timeout
  | expire (ids : List Nat)
  | event (index : Nat)
  | stale
  | stop
deriving DecidableEq, Repr

/-- The thread that goes on after `Schedule` or `Tickle`. -/
def After.resume : After → Thread
  | .outside => .outside
  | .took self task => .took self task
  | .running self current => .running self current
  | .loop self => .loop self
  | .handling self tickled => .handling self tickled
  | .event after => .triggered after
  | .waking count => .waking count

namespace Shared

/-- Change one fiber. -/
@[simps isIOManager threadsNum mutex funFibers activeThreadNum idleThreadNum stopping autoStopping
  pendingEventNum pipe timers events made scheduled ran]
def modify (shared : Shared) (fiber : FiberId) (change : Fiber → Fiber) : Shared :=
  { shared with
    fibers := fun other =>
      if other = fiber then change (shared.fibers fiber) else shared.fibers other }

/-- The suspension of a job's fiber is answered. -/
def answer (shared : Shared) : Job → Shared
  | .fiber fiber => shared.modify fiber fun self => { self with wake := .enqueued }
  | .func => shared

/-- `_fun_fibers.push_back`. -/
def pushBack (threadId : Option ThreadId) (shared : Shared) (job : Job) : Shared :=
  { shared.answer job with
    funFibers := shared.funFibers ++ [⟨shared.scheduled.length, job, threadId⟩]
    scheduled := shared.scheduled ++ [⟨shared.scheduled.length, job, threadId⟩] }

/-- Either `Schedule`, with the tasks it is given. -/
def schedule (shared : Shared) (jobs : List Job) (threadId : Option ThreadId) (after : After) :
    Option (Shared × Thread) :=
  if shared.mutex = none then
    some (jobs.foldl (pushBack threadId) shared,
      if shared.funFibers = [] then .tickling after else after.resume)
  else
    none

/-- `NewFiber`, for a callback or for a caller. -/
@[simps isIOManager threadsNum mutex funFibers activeThreadNum idleThreadNum stopping autoStopping
  pendingEventNum pipe timers events made scheduled ran]
def newFiber (shared : Shared) (fiber : Fiber) : Shared :=
  { shared.modify shared.made fun _ => fiber with made := shared.made + 1 }

/-- The calls that any code may make. -/
def call (shared : Shared) (after : After) : Choice → Option (Shared × Thread)
  | .schedule jobs threadId => shared.schedule jobs threadId after
  | .newFiber => some (shared.newFiber { wake := .awaited }, after.resume)
  | .addTimer timer front =>
      some ({ shared with timers := timer :: shared.timers },
        if front then .tickling after else after.resume)
  | .cancelTimer id =>
      some ({ shared with timers := shared.timers.filter fun timer => timer.id ≠ id }, after.resume)
  | .addEvent job =>
      some ({ shared with
        pendingEventNum := shared.pendingEventNum + 1
        events := job :: shared.events }, after.resume)
  | .delEvent index =>
      if index < shared.events.length then
        some ({ shared with
          events := shared.events.eraseIdx index
          pendingEventNum := shared.pendingEventNum - 1 }, after.resume)
      else
        some (shared, after.resume)
  | .cancelEvent index =>
      match shared.events[index]? with
      | some job =>
          some ({ shared with events := shared.events.eraseIdx index }, .triggering job after)
      | none => some (shared, after.resume)
  | _ => none

/-- A fiber writes its status and switches out. -/
def yield (shared : Shared) (self : Worker) (running : Running) (status : Status) :
    Option (Shared × Thread) :=
  if (shared.fibers running.fiber).status = .exec then
    some (shared.modify running.fiber fun fiber =>
      { fiber with status := status, wake := .closed }, .leaving self running)
  else
    some (shared, .failed)

/-- A fiber ends: `_func = nullptr`, and its last status. -/
def ends (shared : Shared) (self : Worker) (running : Running) (status : Status) :
    Option (Shared × Thread) :=
  some (shared.modify running.fiber fun _ => { status := status }, .leaving self running)

end Shared

/-- The task that is counted for the entry into a fiber: the callback that a fiber at its
start was made or reset for, or the task that named the fiber. -/
def Running.entry (running : Running) (fiber : Fiber) : Option Task :=
  match running.task.job with
  | .fiber _ => some running.task
  | .func =>
      if fiber.status = .init then
        fiber.func.map fun ticket => { running.task with ticket := ticket }
      else
        none

/-- One step of a thread; none if it has to wait. -/
def exec (thread : ThreadId) (shared : Shared) : Thread → Choice → Option (Shared × Thread)
  | .outside, .stop => some ({ shared with autoStopping := true }, .stopping)
  | .outside, choice => shared.call .outside choice
  | .loop self, .go =>
      if shared.mutex = none then
        some ({ shared with mutex := some thread }, .scanning self 0 false)
      else
        none
  | .scanning self index tickle, .go =>
      match shared.funFibers[index]? with
      | none =>
          some ({ shared with mutex := none },
            if tickle || !shared.funFibers.isEmpty then .tickling (.took self none)
            else .took self none)
      | some task =>
          if task.threadId ≠ none ∧ task.threadId ≠ some thread then
            some (shared, .scanning self (index + 1) true)
          else
            match task.job with
            | .func =>
                some ({ shared with funFibers := shared.funFibers.eraseIdx index },
                  .erased self task tickle)
            | .fiber fiber =>
                if (shared.fibers fiber).status = .exec then
                  some (shared, .scanning self (index + 1) tickle)
                else
                  some ({ shared with funFibers := shared.funFibers.eraseIdx index },
                    .erased self task tickle)
  | .erased self task tickle, .go =>
      some ({ shared with activeThreadNum := shared.activeThreadNum + 1, mutex := none },
        if tickle || !shared.funFibers.isEmpty then .tickling (.took self (some task))
        else .took self (some task))
  | .tickling after, .go =>
      if shared.isIOManager ∧ 0 < shared.idleThreadNum then
        some (shared, .writing after)
      else
        some (shared, after.resume)
  | .writing after, .go => some ({ shared with pipe := shared.pipe + 1 }, after.resume)
  | .took self none, .go => some (shared, .idling self)
  | .took self (some task), .go =>
      match task.job with
      | .fiber fiber =>
          if (shared.fibers fiber).status = .except ∨ (shared.fibers fiber).status = .term then
            some (shared, .dropping self)
          else
            some (shared, .entering self ⟨task, fiber⟩)
      | .func =>
          match self.cbFiber with
          | some fiber =>
              if (shared.fibers fiber).status ∈ [.init, .except, .term] then
                some (shared.modify fiber fun fiber =>
                  { fiber with func := some task.ticket, status := .init },
                  .entering self ⟨task, fiber⟩)
              else
                some (shared, .failed)
          | none =>
              some (shared.newFiber { func := some task.ticket },
                .entering { self with cbFiber := some shared.made } ⟨task, shared.made⟩)
  | .dropping self, .go =>
      some ({ shared with activeThreadNum := shared.activeThreadNum - 1 }, .loop self)
  | .entering self running, .go =>
      if (shared.fibers running.fiber).status = .exec then
        some (shared, .failed)
      else
        some ({ shared.modify running.fiber fun fiber =>
            { fiber with status := .exec, wake := .awaited } with
          ran := ((running.entry (shared.fibers running.fiber)).map (·, thread)).toList ++
            shared.ran },
          .running self running)
  | .running self running, .yieldToHold =>
      if (shared.fibers running.fiber).status = .exec then
        some (shared, .returned self running)
      else
        some (shared, .failed)
  | .running self running, .yieldToReady => shared.yield self running .ready
  | .running self running, .finish => shared.ends self running .term
  | .running self running, .throw => shared.ends self running .except
  | .running self running, choice => shared.call (.running self running) choice
  | .leaving self running, .go => some (shared, .returned self running)
  | .returned self running, .go =>
      some ({ shared with activeThreadNum := shared.activeThreadNum - 1 }, .judging self running)
  | .judging self running, .go =>
      if (shared.fibers running.fiber).status = .ready then
        some (shared, .rescheduling self running)
      else
        some (shared, .settling self running)
  | .rescheduling self running, .go =>
      shared.schedule [.fiber running.fiber] running.task.threadId (.loop (self.release running))
  | .settling self running, .go =>
      if (shared.fibers running.fiber).status = .term ∨
          (shared.fibers running.fiber).status = .except then
        match running.task.job with
        | .func =>
            some (shared.modify running.fiber fun fiber =>
              { fiber with func := none, status := .init }, .loop self)
        | .fiber _ => some (shared, .loop self)
      else
        some (shared, .holding self running)
  | .holding self running, .go =>
      some (shared.modify running.fiber fun fiber => { fiber with status := .hold },
        .loop (self.release running))
  | .idling self, .go =>
      if self.idleTerm then
        some (shared, .left)
      else
        some ({ shared with idleThreadNum := shared.idleThreadNum + 1 },
          if shared.isIOManager then .timing self else .idled { self with idleTerm := true })
  | .timing self, .go =>
      some (shared, if shared.timers = [] then .pending self else .waiting self)
  | .pending self, .go =>
      some (shared, if shared.pendingEventNum = 0 then .stopRead self else .waiting self)
  | .stopRead self, .go => some (shared, if shared.stopping then .autoRead self else .waiting self)
  | .autoRead self, .go =>
      some (shared, if shared.autoStopping then .emptyRead self else .waiting self)
  | .emptyRead self, .go =>
      some (shared, if shared.funFibers = [] then .activeRead self else .waiting self)
  | .activeRead self, .go =>
      some (shared, if shared.activeThreadNum = 0 then .idled { self with idleTerm := true }
        else .waiting self)
  | .waiting self, .wake =>
      if 0 < shared.pipe then
        some ({ shared with pipe := shared.pipe - 1 }, .expiring self true)
      else
        none
  | .waiting self, .timeout => some (shared, .expiring self false)
  | .expiring self tickled, .expire ids =>
      let due := shared.timers.filter fun timer => timer.id ∈ ids
      some ({ shared with
        timers := shared.timers.filter fun timer => timer.id ∉ ids ∨ timer.recurring = true },
        if due = [] then .handling self tickled else .expired self tickled due.length)
  | .expired self tickled count, .go =>
      shared.schedule (List.replicate count .func) none (.handling self tickled)
  | .handling self tickled, .event index =>
      match shared.events[index]? with
      | some job =>
          some ({ shared with events := shared.events.eraseIdx index },
            .triggering job (.handling self tickled))
      | none => none
  | .handling self tickled, .stale =>
      some ({ shared with pendingEventNum := shared.pendingEventNum - 1 }, .handling self tickled)
  | .handling self true, .go => some ({ shared with pipe := 0 }, .handling self false)
  | .handling self false, .go => some (shared, .idled self)
  | .triggering job after, .go => shared.schedule [job] none (.event after)
  | .triggered after, .go =>
      some ({ shared with pendingEventNum := shared.pendingEventNum - 1 }, after.resume)
  | .idled self, .go =>
      some ({ shared with idleThreadNum := shared.idleThreadNum - 1 }, .loop self)
  | .stopping, .go => some ({ shared with stopping := true }, .waking shared.threadsNum)
  | .waking 0, .go => some (shared, .outside)
  | .waking (count + 1), .go => some (shared, .tickling (.waking count))
  | _, _ => none

abbrev State := Std.Interleaving.Config Shared Thread

/-- What happens next: a thread takes a step, or comes to call `Run`. -/
inductive Action where
  | exec (thread : ThreadId) (choice : Choice)
  | enter (thread : ThreadId)
deriving DecidableEq, Repr

/-- One step of the scheduler and its callers. -/
def step (state : State) : Action → Option State
  | .exec thread choice =>
      (exec thread state.shared (state.threads thread) choice).map fun next =>
        state.put thread next.1 next.2
  | .enter thread =>
      if state.threads thread = .outside then
        some (state.put thread state.shared (.loop ⟨none, false⟩))
      else
        none

/-- A scheduler before its first thread. -/
structure Initial (state : State) : Prop where
  mutex : state.shared.mutex = none
  funFibers : state.shared.funFibers = []
  activeThreadNum : state.shared.activeThreadNum = 0
  idleThreadNum : state.shared.idleThreadNum = 0
  pendingEventNum : state.shared.pendingEventNum = 0
  pipe : state.shared.pipe = 0
  timers : state.shared.timers = []
  events : state.shared.events = []
  fibers : ∀ fiber, state.shared.fibers fiber = {}
  scheduled : state.shared.scheduled = []
  ran : state.shared.ran = []
  threads : ∀ thread, state.threads thread = .outside

/-- A scheduler that nothing has been done with. -/
def unstarted (isIOManager : Bool) (threadsNum : Nat) : State where
  shared := {
    isIOManager := isIOManager, threadsNum := threadsNum, mutex := none, funFibers := []
    activeThreadNum := 0, idleThreadNum := 0, stopping := false, autoStopping := false
    pendingEventNum := 0, pipe := 0, timers := [], events := [], fibers := fun _ => {}
    made := 0, scheduled := [], ran := [] }
  threads := fun _ => .outside

theorem initial_unstarted (isIOManager : Bool) (threadsNum : Nat) :
    Initial (unstarted isIOManager threadsNum) := by
  constructor <;> simp [unstarted]

end Scheduler

end Xten
