import Xten.Scheduler.LocalQueues

/-!
# What a step can do with local queues

Every step of a thread, once and with its guards, where every worker has a queue of its
own. The invariants go through this list of moves.
-/

namespace Xten.Scheduler.LocalQueues

open Std.Interleaving

/-- Code of the callers runs: outside the workers, on a fiber, or in `Idle`. -/
inductive Calls : Thread → After → Prop where
  | outside : Calls .outside .outside
  | running (self : Worker) (running : Running) :
      Calls (.running self running) (.running self running)
  | idle (self : Worker) : Calls (.idle self) (.idle self)

/-- A step of a search among the queues, which changes nothing. -/
inductive Reads (thread : Nat) (shared : Shared) : Thread → Choice → Thread → Prop where
  | named (tasks : List Task) (queue : Nat) (after : After) (inside : queue < shared.threadNum) :
      Reads thread shared (.selecting tasks (some queue) after) .go (.pushing tasks queue after)
  | drawn (tasks : List Task) (threadId : Option Nat) (after : After) (index : Nat)
      (unnamed : threadId.filter (· < shared.threadNum) = none)
      (inside : index < shared.threadNum) :
      Reads thread shared (.selecting tasks threadId after) (.draw index)
        (.pushing tasks index after)
  | compare (tasks : List Task) (threadId : Option Nat) (after : After)
      (unnamed : threadId.filter (· < shared.threadNum) = none) :
      Reads thread shared (.selecting tasks threadId after) .go
        (.choosing tasks 1 0 (shared.queueSizes 0) after)
  | less (tasks : List Task) (index bestQueue : Nat) (min : Int) (after : After)
      (inside : index < shared.threadNum) (less : shared.queueSizes index < min) :
      Reads thread shared (.choosing tasks index bestQueue min after) .go
        (.choosing tasks (index + 1) index (shared.queueSizes index) after)
  | notLess (tasks : List Task) (index bestQueue : Nat) (min : Int) (after : After)
      (inside : index < shared.threadNum) (notLess : ¬ shared.queueSizes index < min) :
      Reads thread shared (.choosing tasks index bestQueue min after) .go
        (.choosing tasks (index + 1) bestQueue min after)
  | chosen (tasks : List Task) (index bestQueue : Nat) (min : Int) (after : After)
      (last : ¬ index < shared.threadNum) :
      Reads thread shared (.choosing tasks index bestQueue min after) .go
        (.pushing tasks bestQueue after)
  | most (index : Nat) (maxQueue minQueue : Option Nat) (maxTask minTask : Int) (after : After)
      (inside : index < shared.threadNum) (most : maxTask < shared.queueSizes index) :
      Reads thread shared (.measuring index maxQueue minQueue maxTask minTask after) .go
        (.measuring (index + 1) (some index) minQueue (shared.queueSizes index) minTask after)
  | fewest (index : Nat) (maxQueue minQueue : Option Nat) (maxTask minTask : Int) (after : After)
      (inside : index < shared.threadNum) (notMost : ¬ maxTask < shared.queueSizes index)
      (fewest : shared.queueSizes index < minTask) :
      Reads thread shared (.measuring index maxQueue minQueue maxTask minTask after) .go
        (.measuring (index + 1) maxQueue (some index) maxTask (shared.queueSizes index) after)
  | between (index : Nat) (maxQueue minQueue : Option Nat) (maxTask minTask : Int)
      (after : After) (inside : index < shared.threadNum)
      (notMost : ¬ maxTask < shared.queueSizes index)
      (notFewest : ¬ shared.queueSizes index < minTask) :
      Reads thread shared (.measuring index maxQueue minQueue maxTask minTask after) .go
        (.measuring (index + 1) maxQueue minQueue maxTask minTask after)
  | uneven (index maxQueue minQueue : Nat) (maxTask minTask : Int) (after : After)
      (last : ¬ index < shared.threadNum) (uneven : 10 < maxTask - minTask) :
      Reads thread shared
        (.measuring index (some maxQueue) (some minQueue) maxTask minTask after) .go
        (.unloading maxQueue minQueue after)
  | even (index : Nat) (maxQueue minQueue : Option Nat) (maxTask minTask : Int) (after : After)
      (last : ¬ index < shared.threadNum) :
      Reads thread shared (.measuring index maxQueue minQueue maxTask minTask after) .go
        after.resume
  | fuller (self : Worker) (index : Nat) (bestQueue : Option Nat) (max : Int)
      (inside : index < shared.threadNum)
      (fuller : index ≠ thread ∧ max < shared.queueSizes index ∧ 1 < shared.queueSizes index) :
      Reads thread shared (.surveying self index bestQueue max) .go
        (.surveying self (index + 1) (some index) (shared.queueSizes index))
  | notFuller (self : Worker) (index : Nat) (bestQueue : Option Nat) (max : Int)
      (inside : index < shared.threadNum)
      (notFuller :
        ¬ (index ≠ thread ∧ max < shared.queueSizes index ∧ 1 < shared.queueSizes index)) :
      Reads thread shared (.surveying self index bestQueue max) .go
        (.surveying self (index + 1) bestQueue max)
  | victim (self : Worker) (index queue : Nat) (max : Int) (last : ¬ index < shared.threadNum) :
      Reads thread shared (.surveying self index (some queue) max) .go (.stealing self queue)
  | noVictim (self : Worker) (index : Nat) (max : Int) (last : ¬ index < shared.threadNum) :
      Reads thread shared (.surveying self index none max) .go (.took self none)

/-- A worker switches to a fiber or comes back from it, with no queue involved. -/
inductive Switches (shared : Shared) : Thread → Choice → Shared → Thread → Prop where
  | drop (self : Worker) (task : Task) (fiber : FiberId) (job : task.job = .fiber fiber)
      (ended : (shared.fibers fiber).status = .except ∨ (shared.fibers fiber).status = .term) :
      Switches shared (.took self (some task)) .go shared (.dropping self)
  | fiber (self : Worker) (task : Task) (fiber : FiberId) (job : task.job = .fiber fiber)
      (live : ¬ ((shared.fibers fiber).status = .except ∨ (shared.fibers fiber).status = .term)) :
      Switches shared (.took self (some task)) .go shared (.entering self ⟨task, fiber⟩)
  | reset (self : Worker) (task : Task) (fiber : FiberId) (job : task.job = .func)
      (spare : self.cbFiber = some fiber)
      (ended : (shared.fibers fiber).status ∈ [Status.init, .except, .term]) :
      Switches shared (.took self (some task)) .go
        (shared.modify fiber fun fiber => { fiber with func := some task.ticket, status := .init })
        (.entering self ⟨task, fiber⟩)
  | resetFails (self : Worker) (task : Task) (fiber : FiberId) (job : task.job = .func)
      (spare : self.cbFiber = some fiber)
      (live : (shared.fibers fiber).status ∉ [Status.init, .except, .term]) :
      Switches shared (.took self (some task)) .go shared .failed
  | make (self : Worker) (task : Task) (job : task.job = .func) (none : self.cbFiber = none) :
      Switches shared (.took self (some task)) .go
        (shared.newFiber { func := some task.ticket })
        (.entering { self with cbFiber := some shared.made } ⟨task, shared.made⟩)
  | swapIn (self : Worker) (running : Running)
      (free : (shared.fibers running.fiber).status ≠ .exec) :
      Switches shared (.entering self running) .go
        (shared.modify running.fiber fun fiber => { fiber with status := .exec })
        (.running self running)
  | swapInFails (self : Worker) (running : Running)
      (executing : (shared.fibers running.fiber).status = .exec) :
      Switches shared (.entering self running) .go shared .failed
  | yieldToHold (self : Worker) (running : Running)
      (executing : (shared.fibers running.fiber).status = .exec) :
      Switches shared (.running self running) .yieldToHold shared (.returned self running)
  | yieldToReady (self : Worker) (running : Running)
      (executing : (shared.fibers running.fiber).status = .exec) :
      Switches shared (.running self running) .yieldToReady
        (shared.modify running.fiber fun fiber => { fiber with status := .ready })
        (.leaving self running)
  | yieldFails (self : Worker) (running : Running) (choice : Choice)
      (yields : choice = .yieldToHold ∨ choice = .yieldToReady)
      (free : (shared.fibers running.fiber).status ≠ .exec) :
      Switches shared (.running self running) choice shared .failed
  | ends (self : Worker) (running : Running) (choice : Choice) (status : Status)
      (last : choice = .finish ∧ status = .term ∨ choice = .throw ∧ status = .except) :
      Switches shared (.running self running) choice
        (shared.modify running.fiber fun _ => { status := status }) (.leaving self running)
  | leaving (self : Worker) (running : Running) :
      Switches shared (.leaving self running) .go shared (.returned self running)
  | ready (self : Worker) (running : Running)
      (ready : (shared.fibers running.fiber).status = .ready) :
      Switches shared (.judging self running) .go shared (.rescheduling self running)
  | unready (self : Worker) (running : Running)
      (unready : (shared.fibers running.fiber).status ≠ .ready) :
      Switches shared (.judging self running) .go shared (.settling self running)
  | recycle (self : Worker) (running : Running) (job : running.task.job = .func)
      (ended : (shared.fibers running.fiber).status = .term ∨
        (shared.fibers running.fiber).status = .except) :
      Switches shared (.settling self running) .go
        (shared.modify running.fiber fun fiber => { fiber with func := none, status := .init })
        (.loop self)
  | forget (self : Worker) (running : Running) (fiber : FiberId)
      (job : running.task.job = .fiber fiber)
      (ended : (shared.fibers running.fiber).status = .term ∨
        (shared.fibers running.fiber).status = .except) :
      Switches shared (.settling self running) .go shared (.loop self)
  | suspend (self : Worker) (running : Running)
      (live : ¬ ((shared.fibers running.fiber).status = .term ∨
        (shared.fibers running.fiber).status = .except)) :
      Switches shared (.settling self running) .go shared (.holding self running)
  | hold (self : Worker) (running : Running) :
      Switches shared (.holding self running) .go
        (shared.modify running.fiber fun fiber => { fiber with status := .hold })
        (.loop (self.release running))

/-- A thread moves. -/
inductive Moves (thread : Nat) (shared : Shared) : Thread → Choice → Shared → Thread → Prop where
  | enter (inside : thread < shared.threadNum) :
      Moves thread shared .outside .go shared (.loop ⟨none, false⟩)
  | schedule {now : Thread} {after : After} (calls : Calls now after) (jobs : List Job)
      (threadId : Option Nat)
      (made : ∀ fiber ∈ jobs.filterMap Job.fiber?, fiber < shared.made) :
      Moves thread shared now (.schedule jobs threadId) (shared.schedule jobs threadId after).1
        (shared.schedule jobs threadId after).2
  | reschedule (self : Worker) (running : Running) :
      Moves thread shared (.rescheduling self running) .go
        (shared.schedule [.fiber running.fiber] running.task.threadId
          (.loop (self.release running))).1
        (shared.schedule [.fiber running.fiber] running.task.threadId
          (.loop (self.release running))).2
  | newFiber {now : Thread} {after : After} (calls : Calls now after) :
      Moves thread shared now .newFiber (shared.newFiber {}) after.resume
  | autoLoadBalance {now : Thread} {after : After} (calls : Calls now after) :
      Moves thread shared now .autoLoadBalance shared
        (.measuring 1 none none (shared.queueSizes 0) (shared.queueSizes 0) after)
  | read {now next : Thread} {choice : Choice} (reads : Reads thread shared now choice next) :
      Moves thread shared now choice shared next
  | roundRobin (tasks : List Task) (threadId : Option Nat) (after : After)
      (unnamed : threadId.filter (· < shared.threadNum) = none) :
      Moves thread shared (.selecting tasks threadId after) .go
        { shared with roundRobinCounter := shared.roundRobinCounter + 1 }
        (.pushing tasks (shared.roundRobinCounter.toNat % shared.threadNum) after)
  | push (tasks : List Task) (queue : Nat) (after : After) :
      Moves thread shared (.pushing tasks queue after) .go
        (tasks.foldl (Shared.pushBack queue) shared) after.resume
  | unload (maxQueue minQueue : Nat) (after : After) (tasks rest : List Task)
      (found : walk 5 (shared.localQueues maxQueue).reverse = (tasks, rest)) (some : tasks ≠ []) :
      Moves thread shared (.unloading maxQueue minQueue after) .go
        (shared.store maxQueue rest.reverse (-tasks.length)) (.pushing tasks minQueue after)
  | unloadNone (maxQueue minQueue : Nat) (after : After)
      (named : (walk 5 (shared.localQueues maxQueue).reverse).1 = []) :
      Moves thread shared (.unloading maxQueue minQueue after) .go shared after.resume
  | pop (self : Worker) (task : Task) (rest : List Task)
      (front : shared.localQueues thread = task :: rest) :
      Moves thread shared (.loop self) .go (shared.take thread task rest) (.took self (some task))
  | empty (self : Worker) (empty : shared.localQueues thread = []) :
      Moves thread shared (.loop self) .go shared (.surveying self 0 none 0)
  | steal (self : Worker) (queue : Nat) (task : Task) (tasks rest : List Task)
      (found : walk 1 (shared.localQueues queue).reverse = (task :: tasks, rest)) :
      Moves thread shared (.stealing self queue) .go (shared.take queue task rest.reverse)
        (.took self (some task))
  | stealNone (self : Worker) (queue : Nat)
      (named : (walk 1 (shared.localQueues queue).reverse).1 = []) :
      Moves thread shared (.stealing self queue) .go shared (.took self none)
  | nothing (self : Worker) : Moves thread shared (.took self none) .go shared (.idling self)
  | switch {now next : Thread} {choice : Choice} {later : Shared}
      (switches : Switches shared now choice later next) :
      Moves thread shared now choice later next
  | dropping (self : Worker) :
      Moves thread shared (.dropping self) .go
        { shared with activeThreadNum := shared.activeThreadNum - 1 } (.loop self)
  | returned (self : Worker) (running : Running) :
      Moves thread shared (.returned self running) .go
        { shared with activeThreadNum := shared.activeThreadNum - 1 } (.judging self running)
  | leave (self : Worker) (ended : self.idleTerm) :
      Moves thread shared (.idling self) .go shared .left
  | idle (self : Worker) (live : ¬ self.idleTerm) :
      Moves thread shared (.idling self) .go
        { shared with idleThreadNum := shared.idleThreadNum + 1 } (.idle self)
  | idleYields (self : Worker) : Moves thread shared (.idle self) .yieldToHold shared (.idled self)
  | idleEnds (self : Worker) (choice : Choice) (ends : choice = .finish ∨ choice = .throw) :
      Moves thread shared (.idle self) choice shared (.idled { self with idleTerm := true })
  | idled (self : Worker) :
      Moves thread shared (.idled self) .go
        { shared with idleThreadNum := shared.idleThreadNum - 1 } (.loop self)

section Inversion

variable {thread : Nat} {shared : Shared} {now : Thread} {after : After} {choice : Choice}
  {next : Shared × Thread}

theorem call_moves (calls : Calls now after) (taken : shared.call after choice = some next) :
    Moves thread shared now choice next.1 next.2 := by
  revert taken
  fun_cases Shared.call shared after choice
  all_goals rintro ⟨⟩
  case case1 jobs threadId made => exact .schedule calls jobs threadId made
  case case3 => exact .newFiber calls
  case case4 => exact .autoLoadBalance calls

theorem select_moves {tasks : List Task} {threadId : Option Nat}
    (taken : shared.selectBestQueue tasks threadId after choice = some next) :
    Moves thread shared (.selecting tasks threadId after) choice next.1 next.2 := by
  revert taken
  fun_cases Shared.selectBestQueue shared tasks threadId after choice
  all_goals rintro ⟨⟩
  case case1 queue found =>
    obtain ⟨rfl, inside⟩ := Option.filter_eq_some_iff.mp found
    exact .read (.named tasks queue after (of_decide_eq_true inside))
  case case2 policy unnamed => exact .roundRobin tasks threadId after unnamed
  case case3 index policy unnamed inside =>
    exact .read (.drawn tasks threadId after index unnamed inside)
  case case5 policy unnamed => exact .read (.compare tasks threadId after unnamed)

theorem steal_moves (self : Worker) (queue : Nat) :
    Moves thread shared (.stealing self queue) .go (shared.steal self queue).1
      (shared.steal self queue).2 := by
  fun_cases Shared.steal shared self queue
  case case1 task tasks rest found => exact .steal self queue task tasks rest found
  case case2 rest found => exact .stealNone self queue (congrArg Prod.fst found)

theorem unload_moves (maxQueue minQueue : Nat) (after : After) :
    Moves thread shared (.unloading maxQueue minQueue after) .go
      (shared.unload maxQueue minQueue after).1 (shared.unload maxQueue minQueue after).2 := by
  fun_cases Shared.unload shared maxQueue minQueue after
  case case1 rest found => exact .unloadNone maxQueue minQueue after (congrArg Prod.fst found)
  case case2 tasks rest some found =>
    exact .unload maxQueue minQueue after tasks rest found fun none => some none

/-- What `exec` does is one of the moves. -/
theorem exec_moves (taken : exec thread shared now choice = some next) :
    Moves thread shared now choice next.1 next.2 := by
  revert taken
  fun_cases exec thread shared now choice
  -- The calls that share a list of moves.
  case case1 => exact call_moves .outside
  case case2 => exact select_moves
  case case36 self running _ _ _ _ => exact call_moves (.running self running)
  case case51 self _ _ _ => exact call_moves (.idle self)
  all_goals rintro ⟨⟩
  case case6 tasks queue after => exact .push tasks queue after
  case case13 maxQueue minQueue after => exact unload_moves maxQueue minQueue after
  case case14 self empty => exact .empty self empty
  case case15 self task rest front => exact .pop self task rest front
  case case20 self queue => exact steal_moves self queue
  case case21 self => exact .nothing self
  case case27 self => exact .dropping self
  case case31 self running free => exact .switch (.yieldFails self running _ (.inl rfl) free)
  case case33 self running free => exact .switch (.yieldFails self running _ (.inr rfl) free)
  case case34 self running => exact .switch (.ends self running _ _ (.inl ⟨rfl, rfl⟩))
  case case35 self running => exact .switch (.ends self running _ _ (.inr ⟨rfl, rfl⟩))
  case case38 self running => exact .returned self running
  case case41 self running => exact .reschedule self running
  case case46 self ended => exact .leave self ended
  case case47 self live => exact .idle self live
  case case48 self => exact .idleYields self
  case case49 self => exact .idleEnds self _ (.inl rfl)
  case case50 self => exact .idleEnds self _ (.inr rfl)
  case case52 self => exact .idled self
  case case3 | case4 | case5 | case7 | case8 | case9 | case10 | case11 | case12 | case16 | case17
  | case18 | case19 => exact .read (by constructor <;> assumption)
  all_goals exact .switch (by constructor <;> assumption)

/-- The thread that takes an action, and what is up to it. -/
def Action.actor : Action → Nat × Choice
  | .exec thread choice => (thread, choice)
  | .enter thread => (thread, .go)

/-- What holds after every move of the thread that acts holds after the step. -/
@[elab_as_elim]
theorem step_cases {state later : State} {action : Action} {motive : State → Prop}
    (taken : step state action = some later)
    (moved : ∀ thread now choice shared next, action.actor = (thread, choice) →
      state.threads thread = now → Moves thread state.shared now choice shared next →
        motive (state.put thread shared next)) : motive later := by
  cases action with
  | exec thread choice =>
      obtain ⟨next, executed, rfl⟩ := Option.map_eq_some_iff.mp taken
      exact moved thread _ _ _ _ rfl rfl (exec_moves executed)
  | enter thread =>
      obtain ⟨⟨outside, inside⟩, rfl⟩ : (state.threads thread = .outside ∧
          thread < state.shared.threadNum) ∧
            state.put thread state.shared (.loop ⟨none, false⟩) = later := by
        simpa only [step, Option.ite_none_right_eq_some, Option.some.injEq] using taken
      exact moved thread _ _ _ _ rfl outside (.enter inside)

end Inversion

end Xten.Scheduler.LocalQueues
