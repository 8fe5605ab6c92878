import Xten.Scheduler.Workers

/-!
# The scheduler with a queue for every worker

`Scheduler::Run`, `Schedule` and `autoLoadBalance` where `OPTIMIZE` is `ON`: every worker
has a queue with a lock and a size of its own, and steals from the others when its queue
is empty. Thread `i` is the one whose `t_queue_index` is `i`, if it calls `Run`. A section
under the lock of a queue is one step. The sizes are also read without a lock, each read
being a step.

Any code may run on a fiber and in `Idle`, which is overridden: it may call `Schedule` and
`autoLoadBalance`. `SwitchTo` is a call of `Schedule` with the fiber itself, and then
`YieldToHold`. `Tickle` does nothing to the queues and is left out.
-/

namespace Xten.Scheduler.LocalQueues

open Std.Interleaving

/-- `DistributePolicy`. -/
inductive DistributePolicy where
  | roundRobin | leastLoaded | random
deriving DecidableEq, Repr

/-- What the threads share. There are `threadNum` queues. The sizes and the two counters are
integers here, so that one below zero would show. `scheduled` are all the tasks so far, and
`taken` those that a worker has taken, with the index of the queue. -/
structure Shared where
  threadNum : Nat
  policy : DistributePolicy
  localQueues : Nat → List Task
  queueSizes : Nat → Int
  roundRobinCounter : UInt64
  activeThreadNum : Int
  idleThreadNum : Int
  fibers : FiberId → Fiber
  made : Nat
  scheduled : List Task
  taken : List (Task × Nat)

/-- Where a thread goes on after a call. -/
inductive After where
  | outside
  | running (self : Worker) (running : Running)
  | idle (self : Worker)
  | loop (self : Worker)
deriving DecidableEq, Repr

/-- What a thread does next. -/
inductive Thread where
  /-- Code outside the workers. -/
  | outside
  /-- `selectBestQueue` in `Schedule`. -/
  | selecting (tasks : List Task) (threadId : Option Nat) (after : After)
  /-- `selectBestQueue` has come to the size at `index`. -/
  | choosing (tasks : List Task) (index bestQueue : Nat) (min : Int) (after : After)
  /-- The section of `Schedule`, or the second one of `autoLoadBalance`. -/
  | pushing (tasks : List Task) (queue : Nat) (after : After)
  /-- `autoLoadBalance` has come to the size at `index`. -/
  | measuring (index : Nat) (maxQueue minQueue : Option Nat) (maxTask minTask : Int)
      (after : After)
  /-- The first section of `autoLoadBalance`. -/
  | unloading (maxQueue minQueue : Nat) (after : After)
  /-- A round of the loop of `Run` begins with the worker's own queue. -/
  | loop (self : Worker)
  /-- The worker looks for a queue to steal from, and has come to the size at `index`. -/
  | surveying (self : Worker) (index : Nat) (bestQueue : Option Nat) (max : Int)
  /-- The section in which it steals. -/
  | stealing (self : Worker) (bestQueue : Nat)
  /-- The search is over, with the task that was found. -/
  | took (self : Worker) (task : Option Task)
  /-- `_active_threadNum--` where there is neither a live fiber nor a callback. -/
  | dropping (self : Worker)
  /-- `SwapIn`. -/
  | entering (self : Worker) (running : Running)
  /-- The code of the fiber. -/
  | running (self : Worker) (running : Running)
  /-- `SwapOut` after the fiber has written its status. -/
  | leaving (self : Worker) (running : Running)
  /-- `_active_threadNum--` after `SwapIn`. -/
  | returned (self : Worker) (running : Running)
  /-- `GetStatus() == READY`. -/
  | judging (self : Worker) (running : Running)
  /-- `Schedule(fcb.fiber, fcb.threadId)`. -/
  | rescheduling (self : Worker) (running : Running)
  /-- `GetStatus() == TERM` or `EXCEPT`, and the reset of a callback's fiber. -/
  | settling (self : Worker) (running : Running)
  /-- `_status = HOLD`. -/
  | holding (self : Worker) (running : Running)
  /-- The idle fiber's status, up to `_idle_threadNum++`. -/
  | idling (self : Worker)
  /-- The code of `Idle`. -/
  | idle (self : Worker)
  /-- `_idle_threadNum--`. -/
  | idled (self : Worker)
  /-- `Run` has returned. -/
  | left
  /-- An assertion has failed. -/
  | failed
deriving DecidableEq, Repr

/-- What is up to the code that runs on a thread, or to the generator of random numbers. An
index that names no queue stands for every `threadId` but -1 that is out of range. -/
inductive Choice where
  | go
  | schedule (jobs : List Job) (threadId : Option Nat)
  | newFiber
  | autoLoadBalance
  | draw (index : Nat)
  | yieldToHold
  | yieldToReady
  | finish
  | throw
deriving DecidableEq, Repr

/-- The thread that goes on after a call. -/
def After.resume : After → Thread
  | .outside => .outside
  | .running self current => .running self current
  | .idle self => .idle self
  | .loop self => .loop self

/-- The walk from the back of a queue, past the tasks that name a thread: the tasks that it
takes out, at most `limit`, and the tasks it leaves, from the back. -/
def walk : Nat → List Task → List Task × List Task
  | _, [] => ([], [])
  | 0, tasks => ([], tasks)
  | limit + 1, task :: tasks =>
      if task.threadId = none then
        (walk limit tasks).map (task :: ·) id
      else
        (walk (limit + 1) tasks).map id (task :: ·)

namespace Shared

/-- Change one fiber. -/
def modify (shared : Shared) (fiber : FiberId) (change : Fiber → Fiber) : Shared :=
  { shared with fibers := Function.update shared.fibers fiber (change (shared.fibers fiber)) }

theorem modify_self (shared : Shared) (fiber : FiberId) (change : Fiber → Fiber) :
    (shared.modify fiber change).fibers fiber = change (shared.fibers fiber) :=
  Function.update_self ..

theorem modify_other {fiber other : FiberId} (apart : other ≠ fiber) (shared : Shared)
    (change : Fiber → Fiber) : (shared.modify fiber change).fibers other = shared.fibers other :=
  Function.update_of_ne apart ..

/-- `NewFiber`, for a callback or for a caller. -/
def newFiber (shared : Shared) (fiber : Fiber) : Shared :=
  { shared.modify shared.made fun _ => fiber with made := shared.made + 1 }

/-- One queue is replaced, and its size changes. -/
def store (shared : Shared) (queue : Nat) (tasks : List Task) (change : Int) : Shared :=
  { shared with
    localQueues := Function.update shared.localQueues queue tasks
    queueSizes := Function.update shared.queueSizes queue (shared.queueSizes queue + change) }

/-- `_localQueues[queue].push_back` and `_queueSizes[queue]++`. -/
def pushBack (queue : Nat) (shared : Shared) (task : Task) : Shared :=
  shared.store queue (shared.localQueues queue ++ [task]) 1

/-- A task leaves its queue for a worker: `_queueSizes[queue]--`, `_active_threadNum++`. -/
def take (shared : Shared) (queue : Nat) (task : Task) (rest : List Task) : Shared :=
  { shared.store queue rest (-1) with
    activeThreadNum := shared.activeThreadNum + 1
    taken := (task, queue) :: shared.taken }

/-- The tasks of a call of `Schedule`. -/
def tasks (shared : Shared) (jobs : List Job) (threadId : Option Nat) : List Task :=
  (jobs.zipIdx shared.scheduled.length).map fun entry => ⟨entry.2, entry.1, threadId⟩

/-- Either `Schedule` is called. -/
def schedule (shared : Shared) (jobs : List Job) (threadId : Option Nat) (after : After) :
    Shared × Thread :=
  ({ shared with scheduled := shared.scheduled ++ shared.tasks jobs threadId },
    .selecting (shared.tasks jobs threadId) threadId after)

/-- The calls that any code may make. A caller can only have fibers that have been made. -/
def call (shared : Shared) (after : After) : Choice → Option (Shared × Thread)
  | .schedule jobs threadId =>
      if ∀ fiber ∈ jobs.filterMap Job.fiber?, fiber < shared.made then
        some (shared.schedule jobs threadId after)
      else
        none
  | .newFiber => some (shared.newFiber {}, after.resume)
  | .autoLoadBalance =>
      some (shared, .measuring 1 none none (shared.queueSizes 0) (shared.queueSizes 0) after)
  | _ => none

/-- `selectBestQueue`, up to the first size that it reads. -/
def selectBestQueue (shared : Shared) (tasks : List Task) (threadId : Option Nat) (after : After)
    (choice : Choice) : Option (Shared × Thread) :=
  match threadId.filter (· < shared.threadNum), shared.policy, choice with
  | some queue, _, .go => some (shared, .pushing tasks queue after)
  | none, .roundRobin, .go =>
      some ({ shared with roundRobinCounter := shared.roundRobinCounter + 1 },
        .pushing tasks (shared.roundRobinCounter.toNat % shared.threadNum) after)
  | none, .random, .draw index =>
      if index < shared.threadNum then some (shared, .pushing tasks index after) else none
  | none, .leastLoaded, .go =>
      some (shared, .choosing tasks 1 0 (shared.queueSizes 0) after)
  | _, _, _ => none

/-- A worker steals the last task of a queue that names no thread. -/
def steal (shared : Shared) (self : Worker) (queue : Nat) : Shared × Thread :=
  match walk 1 (shared.localQueues queue).reverse with
  | (task :: _, rest) => (shared.take queue task rest.reverse, .took self (some task))
  | ([], _) => (shared, .took self none)

/-- `autoLoadBalance` takes up to five tasks from the back of a queue. -/
def unload (shared : Shared) (maxQueue minQueue : Nat) (after : After) : Shared × Thread :=
  match walk 5 (shared.localQueues maxQueue).reverse with
  | ([], _) => (shared, after.resume)
  | (tasks, rest) =>
      (shared.store maxQueue rest.reverse (-tasks.length), .pushing tasks minQueue after)

end Shared

/-- One step of a thread; none if the choice is not open to it. -/
def exec (thread : Nat) (shared : Shared) : Thread → Choice → Option (Shared × Thread)
  | .outside, choice => shared.call .outside choice
  | .selecting tasks threadId after, choice => shared.selectBestQueue tasks threadId after choice
  | .choosing tasks index bestQueue min after, .go =>
      if index < shared.threadNum then
        if shared.queueSizes index < min then
          some (shared, .choosing tasks (index + 1) index (shared.queueSizes index) after)
        else
          some (shared, .choosing tasks (index + 1) bestQueue min after)
      else
        some (shared, .pushing tasks bestQueue after)
  | .pushing tasks queue after, .go =>
      some (tasks.foldl (Shared.pushBack queue) shared, after.resume)
  | .measuring index maxQueue minQueue maxTask minTask after, .go =>
      if index < shared.threadNum then
        if maxTask < shared.queueSizes index then
          some (shared, .measuring (index + 1) (some index) minQueue (shared.queueSizes index)
            minTask after)
        else if shared.queueSizes index < minTask then
          some (shared, .measuring (index + 1) maxQueue (some index) maxTask
            (shared.queueSizes index) after)
        else
          some (shared, .measuring (index + 1) maxQueue minQueue maxTask minTask after)
      else
        match maxQueue, minQueue with
        | some maxQueue, some minQueue =>
            if 10 < maxTask - minTask then
              some (shared, .unloading maxQueue minQueue after)
            else
              some (shared, after.resume)
        | _, _ => some (shared, after.resume)
  | .unloading maxQueue minQueue after, .go => some (shared.unload maxQueue minQueue after)
  | .loop self, .go =>
      match shared.localQueues thread with
      | [] => some (shared, .surveying self 0 none 0)
      | task :: rest => some (shared.take thread task rest, .took self (some task))
  | .surveying self index bestQueue max, .go =>
      if index < shared.threadNum then
        if index ≠ thread ∧ max < shared.queueSizes index ∧ 1 < shared.queueSizes index then
          some (shared, .surveying self (index + 1) (some index) (shared.queueSizes index))
        else
          some (shared, .surveying self (index + 1) bestQueue max)
      else
        match bestQueue with
        | some queue => some (shared, .stealing self queue)
        | none => some (shared, .took self none)
  | .stealing self queue, .go => some (shared.steal self queue)
  | .took self none, .go => some (shared, .idling self)
  | .took self (some task), .go =>
      match task.job with
      | .fiber fiber =>
          if (shared.fibers fiber).status = .except ∨ (shared.fibers fiber).status = .term then
            some (shared, .dropping self)
          else
            some (shared, .entering self ⟨task, fiber⟩)
      | .func =>
          match self.cbFiber with
          | some fiber =>
              if (shared.fibers fiber).status ∈ [.init, .except, .term] then
                some (shared.modify fiber fun fiber =>
                  { fiber with func := some task.ticket, status := .init },
                  .entering self ⟨task, fiber⟩)
              else
                some (shared, .failed)
          | none =>
              some (shared.newFiber { func := some task.ticket },
                .entering { self with cbFiber := some shared.made } ⟨task, shared.made⟩)
  | .dropping self, .go =>
      some ({ shared with activeThreadNum := shared.activeThreadNum - 1 }, .loop self)
  | .entering self running, .go =>
      if (shared.fibers running.fiber).status = .exec then
        some (shared, .failed)
      else
        some (shared.modify running.fiber fun fiber => { fiber with status := .exec },
          .running self running)
  | .running self running, .yieldToHold =>
      if (shared.fibers running.fiber).status = .exec then
        some (shared, .returned self running)
      else
        some (shared, .failed)
  | .running self running, .yieldToReady =>
      if (shared.fibers running.fiber).status = .exec then
        some (shared.modify running.fiber fun fiber => { fiber with status := .ready },
          .leaving self running)
      else
        some (shared, .failed)
  | .running self running, .finish =>
      some (shared.modify running.fiber fun _ => { status := .term }, .leaving self running)
  | .running self running, .throw =>
      some (shared.modify running.fiber fun _ => { status := .except }, .leaving self running)
  | .running self running, choice => shared.call (.running self running) choice
  | .leaving self running, .go => some (shared, .returned self running)
  | .returned self running, .go =>
      some ({ shared with activeThreadNum := shared.activeThreadNum - 1 }, .judging self running)
  | .judging self running, .go =>
      if (shared.fibers running.fiber).status = .ready then
        some (shared, .rescheduling self running)
      else
        some (shared, .settling self running)
  | .rescheduling self running, .go =>
      some (shared.schedule [.fiber running.fiber] running.task.threadId
        (.loop (self.release running)))
  | .settling self running, .go =>
      if (shared.fibers running.fiber).status = .term ∨
          (shared.fibers running.fiber).status = .except then
        match running.task.job with
        | .func =>
            some (shared.modify running.fiber fun fiber =>
              { fiber with func := none, status := .init }, .loop self)
        | .fiber _ => some (shared, .loop self)
      else
        some (shared, .holding self running)
  | .holding self running, .go =>
      some (shared.modify running.fiber fun fiber => { fiber with status := .hold },
        .loop (self.release running))
  | .idling self, .go =>
      if self.idleTerm then
        some (shared, .left)
      else
        some ({ shared with idleThreadNum := shared.idleThreadNum + 1 }, .idle self)
  | .idle self, .yieldToHold => some (shared, .idled self)
  | .idle self, .finish => some (shared, .idled { self with idleTerm := true })
  | .idle self, .throw => some (shared, .idled { self with idleTerm := true })
  | .idle self, choice => shared.call (.idle self) choice
  | .idled self, .go =>
      some ({ shared with idleThreadNum := shared.idleThreadNum - 1 }, .loop self)
  | _, _ => none

abbrev State := Config Shared Thread

/-- What happens next: a thread takes a step, or one that has a queue comes to call `Run`. -/
inductive Action where
  | exec (thread : Nat) (choice : Choice)
  | enter (thread : Nat)
deriving DecidableEq, Repr

/-- One step of the scheduler and its callers. -/
def step (state : State) : Action → Option State
  | .exec thread choice =>
      (exec thread state.shared (state.threads thread) choice).map fun next =>
        state.put thread next.1 next.2
  | .enter thread =>
      if state.threads thread = .outside ∧ thread < state.shared.threadNum then
        some (state.put thread state.shared (.loop ⟨none, false⟩))
      else
        none

/-- A scheduler before its first thread. -/
structure Initial (state : State) : Prop where
  threadNum : 0 < state.shared.threadNum
  localQueues : ∀ queue, state.shared.localQueues queue = []
  queueSizes : ∀ queue, state.shared.queueSizes queue = 0
  activeThreadNum : state.shared.activeThreadNum = 0
  idleThreadNum : state.shared.idleThreadNum = 0
  fibers : ∀ fiber, state.shared.fibers fiber = {}
  scheduled : state.shared.scheduled = []
  taken : state.shared.taken = []
  threads : ∀ thread, state.threads thread = .outside

/-- A scheduler that nothing has been done with. -/
def unstarted (threadNum : Nat) (policy : DistributePolicy) : State where
  shared := {
    threadNum := threadNum, policy := policy, localQueues := fun _ => []
    queueSizes := fun _ => 0, roundRobinCounter := 0, activeThreadNum := 0, idleThreadNum := 0
    fibers := fun _ => {}, made := 0, scheduled := [], taken := [] }
  threads := fun _ => .outside

theorem initial_unstarted {threadNum : Nat} (some : 0 < threadNum) (policy : DistributePolicy) :
    Initial (unstarted threadNum policy) := by
  constructor <;> simp [unstarted, some]

end Xten.Scheduler.LocalQueues
