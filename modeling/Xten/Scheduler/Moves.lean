import Xten.Scheduler.Workers

/-!
# What a step of the scheduler can do

Every step of a thread, once and with its guards. The invariants of the scheduler go
through this list of moves, and never unfold `exec` or `step`.
-/

namespace Xten.Scheduler

open Std.Interleaving

/-- Code of the callers runs: outside the workers, or on a fiber. -/
inductive Calls : Thread → After → Prop where
  | outside : Calls .outside .outside
  | running (self : Worker) (running : Running) :
      Calls (.running self running) (.running self running)

/-- A thread is about to call `Schedule`. -/
inductive Pushes : Thread → Choice → List Job → Option ThreadId → After → Prop where
  | call {thread : Thread} {after : After} (calls : Calls thread after) (jobs : List Job)
      (threadId : Option ThreadId) : Pushes thread (.schedule jobs threadId) jobs threadId after
  | rescheduling (self : Worker) (running : Running) :
      Pushes (.rescheduling self running) .go [.fiber running.fiber] running.task.threadId
        (.loop (self.release running))
  | expired (self : Worker) (tickled : Bool) (count : Nat) :
      Pushes (.expired self tickled count) .go (List.replicate count .func) none
        (.handling self tickled)
  | triggering (job : Job) (after : After) :
      Pushes (.triggering job after) .go [job] none (.event after)

/-- A part of `IsStopping` in `Idle` is evaluated. -/
inductive Tests (shared : Shared) : Thread → Thread → Prop where
  | timing (self : Worker) (none : shared.timers = []) : Tests shared (.timing self) (.pending self)
  | timers (self : Worker) (some : shared.timers ≠ []) : Tests shared (.timing self) (.waiting self)
  | pending (self : Worker) (none : shared.pendingEventNum = 0) :
      Tests shared (.pending self) (.stopRead self)
  | events (self : Worker) (some : shared.pendingEventNum ≠ 0) :
      Tests shared (.pending self) (.waiting self)
  | stopping (self : Worker) (stops : shared.stopping) : Tests shared (.stopRead self) (.autoRead self)
  | runs (self : Worker) (goesOn : ¬ shared.stopping) : Tests shared (.stopRead self) (.waiting self)
  | autoStopping (self : Worker) (stops : shared.autoStopping) :
      Tests shared (.autoRead self) (.emptyRead self)
  | stays (self : Worker) (goesOn : ¬ shared.autoStopping) :
      Tests shared (.autoRead self) (.waiting self)
  | empty (self : Worker) (none : shared.funFibers = []) :
      Tests shared (.emptyRead self) (.activeRead self)
  | queued (self : Worker) (some : shared.funFibers ≠ []) :
      Tests shared (.emptyRead self) (.waiting self)
  | inactive (self : Worker) (none : shared.activeThreadNum = 0) :
      Tests shared (.activeRead self) (.idled { self with idleTerm := true })
  | active (self : Worker) (some : shared.activeThreadNum ≠ 0) :
      Tests shared (.activeRead self) (.waiting self)

/-- A thread calls `Tickle`, or goes on. -/
def tickled (tickle : Bool) (after : After) : Thread :=
  if tickle then .tickling after else after.resume

/-- A thread moves. -/
inductive Moves (thread : ThreadId) (shared : Shared) :
    Thread → Choice → Shared → Thread → Prop where
  | enter : Moves thread shared .outside .go shared (.loop ⟨none, false⟩)
  | stop : Moves thread shared .outside .stop { shared with autoStopping := true } .stopping
  | stopping :
      Moves thread shared .stopping .go { shared with stopping := true } (.waking shared.threadsNum)
  | woken : Moves thread shared (.waking 0) .go shared .outside
  | waking (count : Nat) :
      Moves thread shared (.waking (count + 1)) .go shared (.tickling (.waking count))
  | newFiber {now : Thread} {after : After} (calls : Calls now after) :
      Moves thread shared now .newFiber (shared.newFiber { wake := .awaited }) after.resume
  | addTimer {now : Thread} {after : After} (calls : Calls now after) (timer : Timer)
      (front : Bool) :
      Moves thread shared now (.addTimer timer front)
        { shared with timers := timer :: shared.timers } (tickled front after)
  | cancelTimer {now : Thread} {after : After} (calls : Calls now after) (id : Nat) :
      Moves thread shared now (.cancelTimer id)
        { shared with timers := shared.timers.filter fun timer => timer.id ≠ id } after.resume
  | addEvent {now : Thread} {after : After} (calls : Calls now after) (job : Job) :
      Moves thread shared now (.addEvent job)
        { shared with
          pendingEventNum := shared.pendingEventNum + 1
          events := job :: shared.events }
        after.resume
  | delEvent {now : Thread} {after : After} (calls : Calls now after) (index : Nat)
      (found : index < shared.events.length) :
      Moves thread shared now (.delEvent index)
        { shared with
          events := shared.events.eraseIdx index
          pendingEventNum := shared.pendingEventNum - 1 }
        after.resume
  | notDeleted {now : Thread} {after : After} (calls : Calls now after) (index : Nat)
      (missing : ¬ index < shared.events.length) :
      Moves thread shared now (.delEvent index) shared after.resume
  | cancelEvent {now : Thread} {after : After} (calls : Calls now after) (index : Nat) (job : Job)
      (found : shared.events[index]? = some job) :
      Moves thread shared now (.cancelEvent index)
        { shared with events := shared.events.eraseIdx index } (.triggering job after)
  | notCancelled {now : Thread} {after : After} (calls : Calls now after) (index : Nat)
      (missing : shared.events[index]? = none) :
      Moves thread shared now (.cancelEvent index) shared after.resume
  | lock (self : Worker) (free : shared.mutex = none) :
      Moves thread shared (.loop self) .go { shared with mutex := some thread }
        (.scanning self 0 false)
  | exhausted (self : Worker) (index : Nat) (tickle : Bool)
      (last : shared.funFibers[index]? = none) :
      Moves thread shared (.scanning self index tickle) .go { shared with mutex := none }
        (tickled (tickle || !shared.funFibers.isEmpty) (.took self none))
  | elsewhere (self : Worker) (index : Nat) (tickle : Bool) (task : Task)
      (found : shared.funFibers[index]? = some task)
      (pinned : task.threadId ≠ none ∧ task.threadId ≠ some thread) :
      Moves thread shared (.scanning self index tickle) .go shared (.scanning self (index + 1) true)
  | skip (self : Worker) (index : Nat) (tickle : Bool) (task : Task) (fiber : FiberId)
      (found : shared.funFibers[index]? = some task)
      (mine : task.threadId = none ∨ task.threadId = some thread)
      (job : task.job = .fiber fiber) (executing : (shared.fibers fiber).status = .exec) :
      Moves thread shared (.scanning self index tickle) .go shared
        (.scanning self (index + 1) tickle)
  | erase (self : Worker) (index : Nat) (tickle : Bool) (task : Task)
      (found : shared.funFibers[index]? = some task)
      (mine : task.threadId = none ∨ task.threadId = some thread)
      (free : ∀ fiber, task.job = .fiber fiber → (shared.fibers fiber).status ≠ .exec) :
      Moves thread shared (.scanning self index tickle) .go
        { shared with funFibers := shared.funFibers.eraseIdx index } (.erased self task tickle)
  | erased (self : Worker) (task : Task) (tickle : Bool) :
      Moves thread shared (.erased self task tickle) .go
        { shared with activeThreadNum := shared.activeThreadNum + 1, mutex := none }
        (tickled (tickle || !shared.funFibers.isEmpty) (.took self (some task)))
  | tickle (after : After) (overrides : shared.isIOManager) (idle : 0 < shared.idleThreadNum) :
      Moves thread shared (.tickling after) .go shared (.writing after)
  | untickled (after : After) (none : ¬ (shared.isIOManager ∧ 0 < shared.idleThreadNum)) :
      Moves thread shared (.tickling after) .go shared after.resume
  | write (after : After) :
      Moves thread shared (.writing after) .go { shared with pipe := shared.pipe + 1 } after.resume
  | nothing (self : Worker) : Moves thread shared (.took self none) .go shared (.idling self)
  | drop (self : Worker) (task : Task) (fiber : FiberId) (job : task.job = .fiber fiber)
      (ended : (shared.fibers fiber).status = .except ∨ (shared.fibers fiber).status = .term) :
      Moves thread shared (.took self (some task)) .go shared (.dropping self)
  | fiber (self : Worker) (task : Task) (fiber : FiberId) (job : task.job = .fiber fiber)
      (live : ¬ ((shared.fibers fiber).status = .except ∨ (shared.fibers fiber).status = .term)) :
      Moves thread shared (.took self (some task)) .go shared (.entering self ⟨task, fiber⟩)
  | reset (self : Worker) (task : Task) (fiber : FiberId) (job : task.job = .func)
      (spare : self.cbFiber = some fiber)
      (ended : (shared.fibers fiber).status ∈ [Status.init, .except, .term]) :
      Moves thread shared (.took self (some task)) .go
        (shared.modify fiber fun fiber => { fiber with func := some task.ticket, status := .init })
        (.entering self ⟨task, fiber⟩)
  | resetFails (self : Worker) (task : Task) (fiber : FiberId) (job : task.job = .func)
      (spare : self.cbFiber = some fiber)
      (live : (shared.fibers fiber).status ∉ [Status.init, .except, .term]) :
      Moves thread shared (.took self (some task)) .go shared .failed
  | make (self : Worker) (task : Task) (job : task.job = .func) (none : self.cbFiber = none) :
      Moves thread shared (.took self (some task)) .go
        (shared.newFiber { func := some task.ticket })
        (.entering { self with cbFiber := some shared.made } ⟨task, shared.made⟩)
  | dropping (self : Worker) :
      Moves thread shared (.dropping self) .go
        { shared with activeThreadNum := shared.activeThreadNum - 1 } (.loop self)
  | swapIn (self : Worker) (running : Running)
      (free : (shared.fibers running.fiber).status ≠ .exec) :
      Moves thread shared (.entering self running) .go
        { shared.modify running.fiber fun fiber =>
            { fiber with status := .exec, wake := .awaited } with
          ran := ((running.entry (shared.fibers running.fiber)).map (·, thread)).toList ++
            shared.ran }
        (.running self running)
  | swapInFails (self : Worker) (running : Running)
      (executing : (shared.fibers running.fiber).status = .exec) :
      Moves thread shared (.entering self running) .go shared .failed
  | yieldToHold (self : Worker) (running : Running)
      (executing : (shared.fibers running.fiber).status = .exec) :
      Moves thread shared (.running self running) .yieldToHold shared (.returned self running)
  | yieldToReady (self : Worker) (running : Running)
      (executing : (shared.fibers running.fiber).status = .exec) :
      Moves thread shared (.running self running) .yieldToReady
        (shared.modify running.fiber fun fiber => { fiber with status := .ready, wake := .closed })
        (.leaving self running)
  | yieldFails (self : Worker) (running : Running) (choice : Choice)
      (yields : choice = .yieldToHold ∨ choice = .yieldToReady)
      (free : (shared.fibers running.fiber).status ≠ .exec) :
      Moves thread shared (.running self running) choice shared .failed
  | ends (self : Worker) (running : Running) (choice : Choice) (status : Status)
      (last : choice = .finish ∧ status = .term ∨ choice = .throw ∧ status = .except) :
      Moves thread shared (.running self running) choice
        (shared.modify running.fiber fun _ => { status := status }) (.leaving self running)
  | leaving (self : Worker) (running : Running) :
      Moves thread shared (.leaving self running) .go shared (.returned self running)
  | returned (self : Worker) (running : Running) :
      Moves thread shared (.returned self running) .go
        { shared with activeThreadNum := shared.activeThreadNum - 1 } (.judging self running)
  | ready (self : Worker) (running : Running)
      (ready : (shared.fibers running.fiber).status = .ready) :
      Moves thread shared (.judging self running) .go shared (.rescheduling self running)
  | unready (self : Worker) (running : Running)
      (unready : (shared.fibers running.fiber).status ≠ .ready) :
      Moves thread shared (.judging self running) .go shared (.settling self running)
  | recycle (self : Worker) (running : Running) (job : running.task.job = .func)
      (ended : (shared.fibers running.fiber).status = .term ∨
        (shared.fibers running.fiber).status = .except) :
      Moves thread shared (.settling self running) .go
        (shared.modify running.fiber fun fiber => { fiber with func := none, status := .init })
        (.loop self)
  | forget (self : Worker) (running : Running) (fiber : FiberId)
      (job : running.task.job = .fiber fiber)
      (ended : (shared.fibers running.fiber).status = .term ∨
        (shared.fibers running.fiber).status = .except) :
      Moves thread shared (.settling self running) .go shared (.loop self)
  | suspend (self : Worker) (running : Running)
      (live : ¬ ((shared.fibers running.fiber).status = .term ∨
        (shared.fibers running.fiber).status = .except)) :
      Moves thread shared (.settling self running) .go shared (.holding self running)
  | hold (self : Worker) (running : Running) :
      Moves thread shared (.holding self running) .go
        (shared.modify running.fiber fun fiber => { fiber with status := .hold })
        (.loop (self.release running))
  | leave (self : Worker) (ended : self.idleTerm) : Moves thread shared (.idling self) .go shared .left
  | idle (self : Worker) (live : ¬ self.idleTerm) (overrides : shared.isIOManager) :
      Moves thread shared (.idling self) .go
        { shared with idleThreadNum := shared.idleThreadNum + 1 } (.timing self)
  | idleBase (self : Worker) (live : ¬ self.idleTerm) (base : ¬ shared.isIOManager) :
      Moves thread shared (.idling self) .go
        { shared with idleThreadNum := shared.idleThreadNum + 1 }
        (.idled { self with idleTerm := true })
  | wake (self : Worker) (byte : 0 < shared.pipe) :
      Moves thread shared (.waiting self) .wake { shared with pipe := shared.pipe - 1 }
        (.expiring self true)
  | timeout (self : Worker) :
      Moves thread shared (.waiting self) .timeout shared (.expiring self false)
  | expire (self : Worker) (tickled : Bool) (ids : List Nat) (next : Thread)
      (goesOn : next = .handling self tickled ∨
        shared.timers ≠ [] ∧ ∃ count, next = .expired self tickled count) :
      Moves thread shared (.expiring self tickled) (.expire ids)
        { shared with
          timers := shared.timers.filter fun timer => timer.id ∉ ids ∨ timer.recurring = true }
        next
  | event (self : Worker) (tickled : Bool) (index : Nat) (job : Job)
      (found : shared.events[index]? = some job) :
      Moves thread shared (.handling self tickled) (.event index)
        { shared with events := shared.events.eraseIdx index }
        (.triggering job (.handling self tickled))
  | stale (self : Worker) (tickled : Bool) :
      Moves thread shared (.handling self tickled) .stale
        { shared with pendingEventNum := shared.pendingEventNum - 1 } (.handling self tickled)
  | drain (self : Worker) :
      Moves thread shared (.handling self true) .go { shared with pipe := 0 }
        (.handling self false)
  | handled (self : Worker) : Moves thread shared (.handling self false) .go shared (.idled self)
  | triggered (after : After) :
      Moves thread shared (.triggered after) .go
        { shared with pendingEventNum := shared.pendingEventNum - 1 } after.resume
  | idled (self : Worker) :
      Moves thread shared (.idled self) .go
        { shared with idleThreadNum := shared.idleThreadNum - 1 } (.loop self)
  | test {now next : Thread} (tests : Tests shared now next) :
      Moves thread shared now .go shared next
  | schedule {now : Thread} {choice : Choice} {jobs : List Job} {threadId : Option ThreadId}
      {after : After} (pushes : Pushes now choice jobs threadId after)
      (free : shared.mutex = none) :
      Moves thread shared now choice (jobs.foldl (Shared.pushBack threadId) shared)
        (tickled shared.funFibers.isEmpty after)

section Enqueue

variable {shared : Shared} {jobs : List Job} {threadId : Option ThreadId} {task : Task}

/-- The tasks that a call of `Schedule` makes. -/
def Shared.pushed (shared : Shared) (jobs : List Job) (threadId : Option ThreadId) : List Task :=
  (jobs.zipIdx shared.scheduled.length).map fun entry => ⟨entry.2, entry.1, threadId⟩

/-- `Schedule` touches the queue, and what is noted of the fibers. -/
theorem Shared.pushAll (shared : Shared) (jobs : List Job) (threadId : Option ThreadId) :
    ∃ fibers, jobs.foldl (pushBack threadId) shared = { shared with
      fibers := fibers
      funFibers := shared.funFibers ++ shared.pushed jobs threadId
      scheduled := shared.scheduled ++ shared.pushed jobs threadId } := by
  induction jobs generalizing shared with
  | nil => exact ⟨shared.fibers, by simp [pushed]⟩
  | cons job jobs ih =>
      obtain ⟨fibers, pushed⟩ := ih (shared.pushBack threadId job)
      refine ⟨fibers, ?_⟩
      rw [List.foldl_cons, pushed]
      cases job <;> simp [pushBack, answer, Shared.pushed, List.zipIdx_cons]

theorem Shared.tickets_pushed :
    (shared.pushed jobs threadId).map Task.ticket =
      List.range' shared.scheduled.length jobs.length := by
  rw [pushed, List.map_map]
  exact List.zipIdx_map_snd _ jobs

theorem Shared.threadId_pushed (member : task ∈ shared.pushed jobs threadId) :
    task.threadId = threadId := by
  obtain ⟨entry, -, rfl⟩ := List.mem_map.mp member
  rfl

end Enqueue

section Inversion

variable {thread : ThreadId} {shared : Shared} {now : Thread} {after : After} {choice : Choice}
  {next : Shared × Thread}

theorem schedule_moves {jobs : List Job} {threadId : Option ThreadId}
    (pushes : Pushes now choice jobs threadId after)
    (taken : shared.schedule jobs threadId after = some next) :
    Moves thread shared now choice next.1 next.2 := by
  unfold Shared.schedule at taken
  split at taken
  case isTrue free =>
    cases taken
    have moves := @Moves.schedule thread _ _ _ _ _ _ pushes free
    unfold tickled at moves
    simpa only [List.isEmpty_iff] using moves
  case isFalse => cases taken

theorem call_moves (calls : Calls now after) (taken : shared.call after choice = some next) :
    Moves thread shared now choice next.1 next.2 := by
  revert taken
  fun_cases Shared.call shared after choice
  case case1 jobs threadId => exact schedule_moves (.call calls jobs threadId)
  all_goals rintro ⟨⟩
  case case2 => exact .newFiber calls
  case case3 timer front => exact .addTimer calls timer front
  case case4 id => exact .cancelTimer calls id
  case case5 job => exact .addEvent calls job
  case case6 index found => exact .delEvent calls index found
  case case7 index missing => exact .notDeleted calls index missing
  case case8 index job found => exact .cancelEvent calls index job found
  case case9 index missing => exact .notCancelled calls index missing

/-- What `exec` does is one of the moves. -/
theorem exec_moves (taken : exec thread shared now choice = some next) :
    Moves thread shared now choice next.1 next.2 := by
  have mine : ∀ {threadId : Option ThreadId}, ¬ (threadId ≠ none ∧ threadId ≠ some thread) →
      threadId = none ∨ threadId = some thread := fun other => by
    rwa [not_and_or, not_not, not_not] at other
  revert taken
  fun_cases exec thread shared now choice
  -- The calls that share a list of moves.
  case case2 _ => exact call_moves .outside
  case case28 self running _ _ _ _ => exact call_moves (.running self running)
  case case33 self running => exact schedule_moves (.rescheduling self running)
  case case50 self tickled count => exact schedule_moves (.expired self tickled count)
  case case56 job after => exact schedule_moves (.triggering job after)
  case case25 self running =>
    unfold Shared.yield
    split
    case isTrue executing =>
      rintro ⟨⟩
      exact .yieldToReady self running executing
    case isFalse free =>
      rintro ⟨⟩
      exact .yieldFails self running _ (.inr rfl) free
  all_goals rintro ⟨⟩
  case case7 self index tickle task found other job =>
    exact .erase self index tickle task found (mine other) fun fiber same => by
      rw [job] at same
      cases same
  case case8 self index tickle task found other fiber job executing =>
    exact .skip self index tickle task fiber found (mine other) job executing
  case case9 self index tickle task found other fiber job free =>
    refine .erase self index tickle task found (mine other) fun executed same => ?_
    rw [job] at same
    cases same
    exact free
  case case11 after both => exact .tickle after both.1 both.2
  case case24 self running free => exact .yieldFails self running _ (.inl rfl) free
  case case26 self running => exact .ends self running _ _ (.inl ⟨rfl, rfl⟩)
  case case27 self running => exact .ends self running _ _ (.inr ⟨rfl, rfl⟩)
  case case39 self live =>
    split
    case isTrue overrides => exact .idle self live overrides
    case isFalse base => exact .idleBase self live base
  case case40 self =>
    split
    case isTrue none => exact .test (.timing self none)
    case isFalse some => exact .test (.timers self some)
  case case41 self =>
    split
    case isTrue none => exact .test (.pending self none)
    case isFalse some => exact .test (.events self some)
  case case42 self =>
    split
    case isTrue stops => exact .test (.stopping self stops)
    case isFalse goesOn => exact .test (.runs self goesOn)
  case case43 self =>
    split
    case isTrue stops => exact .test (.autoStopping self stops)
    case isFalse goesOn => exact .test (.stays self goesOn)
  case case44 self =>
    split
    case isTrue none => exact .test (.empty self none)
    case isFalse some => exact .test (.queued self some)
  case case45 self =>
    split
    case isTrue none => exact .test (.inactive self none)
    case isFalse some => exact .test (.active self some)
  case case49 self tickled ids due =>
    refine .expire self tickled ids _ ?_
    split
    case isTrue => exact .inl rfl
    case isFalse some =>
      refine .inr ⟨fun none => some ?_, _, rfl⟩
      change shared.timers.filter _ = []
      rw [none]
      rfl
  all_goals constructor <;> assumption

/-- The thread that takes an action, and what is up to it. -/
def Action.actor : Action → ThreadId × Choice
  | .exec thread choice => (thread, choice)
  | .enter thread => (thread, .go)

/-- What holds after every move of the thread that acts holds after the step. -/
@[elab_as_elim]
theorem step_cases {state later : State} {action : Action} {motive : State → Prop}
    (taken : step state action = some later)
    (moved : ∀ thread now choice shared next, action.actor = (thread, choice) →
      state.threads thread = now → Moves thread state.shared now choice shared next →
        motive (state.put thread shared next)) : motive later := by
  cases action with
  | exec thread choice =>
      obtain ⟨next, executed, rfl⟩ := Option.map_eq_some_iff.mp taken
      exact moved thread _ _ _ _ rfl rfl (exec_moves executed)
  | enter thread =>
      obtain ⟨outside, rfl⟩ : state.threads thread = .outside ∧
          state.put thread state.shared (.loop ⟨none, false⟩) = later := by
        simpa only [step, Option.ite_none_right_eq_some, Option.some.injEq] using taken
      exact moved thread _ _ _ _ rfl outside .enter

end Inversion

end Xten.Scheduler
