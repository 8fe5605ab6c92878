import Xten.Std.Holdings
import Xten.Fiber.Semaphore

/-!
# A group of tasks with a timeout

`TimedWorkGroup::Schedule` for one task and for several, `WaitAll`, `OnTimer` and `doWork`. The
flag of the timeout is tested before each wait, outside of the lock of the semaphore; `OnTimer`
sets it and then schedules the fibers that wait.
-/

namespace Xten.TimedWorkGroup

open Std.Interleaving
open FiberSemphore (FiberId)

variable {Task : Type}

/-- Where a fiber is in a function of the group. A function may be null; `cbs` are the functions
of a vector that are left. -/
inductive Call (Task : Type) where
  | outside
  /-- In `Schedule`, before `_isTimeouted` is tested. -/
  | testing (cb : Option Task) (cbs : List (Option Task))
  /-- At `_fiberSem.wait()`. -/
  | waiting (cb : Task) (cbs : List (Option Task))
  | scheduling (cb : Option Task) (cbs : List (Option Task))
  /-- In `WaitAll`, before `_isFinish` is tested. -/
  | finishing
  /-- Before it is set. -/
  | marking
  /-- In the loop, before `_isTimeouted` is tested. -/
  | looping (i : Nat)
  /-- At `_fiberSem.wait()`. -/
  | collecting (i : Nat)
  /-- Behind the loop. -/
  | collected
  | cancelling
  /-- In `OnTimer`, before `_timer` is reset. -/
  | expired
  /-- Before `_isTimeouted` is set. -/
  | timingOut
  | notifying
deriving DecidableEq, Repr

/-- Where a fiber is in `doWork`. -/
inductive Work (Task : Type) where
  | idle
  | inside (cb : Option Task)
  | posting
deriving DecidableEq, Repr

structure Thread (Task : Type) where
  work : Work Task
  call : Call Task
  point : FiberSemphore.Point
deriving DecidableEq, Repr

/-- The group and its scheduler. `timer` says that `_timer` is not null, `armed` that the timer
has neither expired nor been cancelled, and `timedOut` that `OnTimer` has finished. -/
structure Shared (Task : Type) where
  batchSize : Nat
  isFinish : Bool
  isTimeouted : Bool
  timer : Bool
  armed : Bool
  fiberSem : FiberSemphore.Shared
  queue : List (Option Task)
  timedOut : Bool

inductive Request (Task : Type) where
  | schedule (cb : Option Task)
  | scheduleAll (cbs : List (Option Task))
  | waitAll
deriving DecidableEq, Repr

inductive Action (Task : Type) where
  | call (request : Request Task)
  | wait (scheduler : Nat)
  | leave
  | resume (scheduler : Nat)
  | go
  | expire
  | start (index : Nat)
  | finish (throws : Bool)
  | post
deriving DecidableEq, Repr

/-- What is left of a vector. -/
def Call.rest : List (Option Task) → Call Task
  | [] => .outside
  | cb :: cbs => .testing cb cbs

/-- Where a function of the group begins. -/
def Request.begin : Request Task → Call Task
  | .schedule cb => .testing cb []
  | .scheduleAll cbs => .rest cbs
  | .waitAll => .finishing

/-- Where a call is when its wait has returned; none if it is not at a wait. -/
def Call.waited : Call Task → Option (Call Task)
  | .waiting cb cbs => some (.scheduling (some cb) cbs)
  | .collecting i => some (.looping (i + 1))
  | _ => none

namespace Shared

variable (shared : Shared Task)

/-- One step of a call that is not a wait; a null `_timer` cannot be cancelled. -/
def go : Call Task → Option (Shared Task × Call Task)
  | .testing none cbs => some (shared, .scheduling none cbs)
  | .testing (some cb) cbs =>
      if shared.isTimeouted then some (shared, .scheduling (some cb) cbs)
      else some (shared, .waiting cb cbs)
  | .scheduling cb cbs => some ({ shared with queue := shared.queue ++ [cb] }, .rest cbs)
  | .finishing => if shared.isFinish then some (shared, .outside) else some (shared, .marking)
  | .marking => some ({ shared with isFinish := true }, .looping 0)
  | .looping i =>
      if i < shared.batchSize ∧ shared.isTimeouted = false then some (shared, .collecting i)
      else some (shared, .collected)
  | .collected =>
      if shared.isTimeouted = false ∧ shared.timer then some (shared, .cancelling)
      else some (shared, .outside)
  | .cancelling =>
      if shared.timer then some ({ shared with timer := false, armed := false }, .outside)
      else none
  | .expired => some ({ shared with timer := false }, .timingOut)
  | .timingOut => some ({ shared with isTimeouted := true }, .notifying)
  | .notifying =>
      some ({ shared with fiberSem := shared.fiberSem.notifyAll, timedOut := true }, .outside)
  | _ => none

/-- One step of a fiber; none if it has to wait. -/
def exec (self : FiberId) : Thread Task → Action Task → Option (Shared Task × Thread Task)
  | ⟨.posting, .outside, .running⟩, .post =>
      some ({ shared with fiberSem := shared.fiberSem.post }, ⟨.idle, .outside, .running⟩)
  | ⟨.inside _, .outside, .running⟩, .finish true => some (shared, ⟨.idle, .outside, .running⟩)
  | ⟨.inside (some _), .outside, .running⟩, .finish false =>
      some (shared, ⟨.posting, .outside, .running⟩)
  | ⟨.idle, .outside, .running⟩, .start index =>
      shared.queue[index]?.map fun cb =>
        ({ shared with queue := shared.queue.eraseIdx index }, ⟨.inside cb, .outside, .running⟩)
  | ⟨.idle, .outside, .running⟩, .expire =>
      if shared.armed then some ({ shared with armed := false }, ⟨.idle, .expired, .running⟩)
      else none
  | ⟨.idle, .outside, .running⟩, .call request =>
      some (shared, ⟨.idle, request.begin, .running⟩)
  | ⟨.inside (some cb), .outside, .running⟩, .call request =>
      some (shared, ⟨.inside (some cb), request.begin, .running⟩)
  | ⟨work, call, .running⟩, .wait scheduler =>
      call.waited.map fun next =>
        let waited := shared.fiberSem.wait ⟨scheduler, self⟩
        ({ shared with fiberSem := waited.1 },
          ⟨work, if waited.2 = .running then next else call, waited.2⟩)
  | ⟨work, call, .leaving⟩, .leave => some (shared, ⟨work, call, .suspended⟩)
  | ⟨work, call, .suspended⟩, .resume scheduler =>
      if ⟨scheduler, self⟩ ∈ shared.fiberSem.ready then
        call.waited.map fun next =>
          ({ shared with fiberSem := { shared.fiberSem with
            ready := shared.fiberSem.ready.erase ⟨scheduler, self⟩ } }, ⟨work, next, .running⟩)
      else
        none
  | ⟨work, call, .running⟩, .go =>
      (shared.go call).map fun next => (next.1, ⟨work, next.2, .running⟩)
  | _, _ => none

end Shared

abbrev State (Task : Type) := Config (Shared Task) (Thread Task)

def step (state : State Task) (action : FiberId × Action Task) : Option (State Task) :=
  (state.shared.exec action.1 (state.threads action.1) action.2).map fun next =>
    state.put action.1 next.1 next.2

theorem step_frame ⦃state : State Task⦄ ⦃action : FiberId × Action Task⦄ ⦃next : State Task⦄
    ⦃other : Nat⦄ (taken : step state action = some next) (apart : some action.1 ≠ some other) :
    next.threads other = state.threads other :=
  Config.map_put_other taken apart

/-- A group as `Create` returns it. -/
def fresh (batchSize : Nat) : State Task where
  shared := {
    batchSize := batchSize
    isFinish := false
    isTimeouted := false
    timer := true
    armed := true
    fiberSem := (FiberSemphore.fresh batchSize).shared
    queue := []
    timedOut := false }
  threads := fun _ => ⟨.idle, .outside, .running⟩

/-!
## What a step does
-/

/-- What a fiber can do in one step. -/
inductive Move (shared : Shared Task) (self : FiberId) :
    Action Task → Thread Task → Shared Task → Thread Task → Prop where
  | calls (work : Work Task) (request : Request Task) :
      Move shared self (.call request) ⟨work, .outside, .running⟩ shared
        ⟨work, request.begin, .running⟩
  | takes (work : Work Task) {call next : Call Task} (scheduler : Nat)
      (waited : call.waited = some next) (available : 0 < shared.fiberSem.concurrency) :
      Move shared self (.wait scheduler) ⟨work, call, .running⟩
        { shared with fiberSem := shared.fiberSem.take } ⟨work, next, .running⟩
  | queues (work : Work Task) {call next : Call Task} (scheduler : Nat)
      (waited : call.waited = some next) (none : ¬ 0 < shared.fiberSem.concurrency) :
      Move shared self (.wait scheduler) ⟨work, call, .running⟩
        { shared with fiberSem := { shared.fiberSem with
          waitQueue := shared.fiberSem.waitQueue ++ [⟨scheduler, self⟩]
          arrived := shared.fiberSem.arrived ++ [⟨scheduler, self⟩] } } ⟨work, call, .leaving⟩
  | leaves (work : Work Task) (call : Call Task) :
      Move shared self .leave ⟨work, call, .leaving⟩ shared ⟨work, call, .suspended⟩
  | resumes (work : Work Task) {call next : Call Task} (scheduler : Nat)
      (waited : call.waited = some next) (ready : ⟨scheduler, self⟩ ∈ shared.fiberSem.ready) :
      Move shared self (.resume scheduler) ⟨work, call, .suspended⟩
        { shared with fiberSem := { shared.fiberSem with
          ready := shared.fiberSem.ready.erase ⟨scheduler, self⟩ } } ⟨work, next, .running⟩
  | goes (work : Work Task) {call now : Call Task} {next : Shared Task}
      (gone : shared.go call = some (next, now)) :
      Move shared self .go ⟨work, call, .running⟩ next ⟨work, now, .running⟩
  | expires (armed : shared.armed = true) :
      Move shared self .expire ⟨.idle, .outside, .running⟩ { shared with armed := false }
        ⟨.idle, .expired, .running⟩
  | starts (index : Nat) (cb : Option Task) (isTask : shared.queue[index]? = some cb) :
      Move shared self (.start index) ⟨.idle, .outside, .running⟩
        { shared with queue := shared.queue.eraseIdx index } ⟨.inside cb, .outside, .running⟩
  | throws (cb : Option Task) :
      Move shared self (.finish true) ⟨.inside cb, .outside, .running⟩ shared
        ⟨.idle, .outside, .running⟩
  | returns (cb : Task) :
      Move shared self (.finish false) ⟨.inside (some cb), .outside, .running⟩ shared
        ⟨.posting, .outside, .running⟩
  | posts :
      Move shared self .post ⟨.posting, .outside, .running⟩
        { shared with fiberSem := shared.fiberSem.post } ⟨.idle, .outside, .running⟩

section Moves

variable {state after : State Task} {shared next : Shared Task} {self : FiberId}
  {was now : Thread Task} {action : Action Task}

/-- Whatever a step does, it is one of the moves. -/
theorem Move.of_exec (taken : shared.exec self was action = some (next, now)) :
    Move shared self action was next now := by
  revert taken
  fun_cases Shared.exec shared self was action
  case case1 =>
    rintro ⟨⟩
    exact .posts
  case case2 cb =>
    rintro ⟨⟩
    exact .throws cb
  case case3 cb =>
    rintro ⟨⟩
    exact .returns cb
  case case4 index =>
    intro taken
    obtain ⟨cb, isTask, moved⟩ := Option.map_eq_some_iff.mp taken
    cases moved
    exact .starts index cb isTask
  case case5 armed =>
    rintro ⟨⟩
    exact .expires armed
  case case7 request =>
    rintro ⟨⟩
    exact .calls .idle request
  case case8 cb request =>
    rintro ⟨⟩
    exact .calls (.inside (some cb)) request
  case case9 work call scheduler =>
    intro taken
    obtain ⟨next, waited, moved⟩ := Option.map_eq_some_iff.mp taken
    simp only [FiberSemphore.Shared.wait] at moved
    split at moved
    case isTrue available =>
      cases moved
      exact .takes work scheduler waited available
    case isFalse none =>
      cases moved
      exact .queues work scheduler waited none
  case case10 work call =>
    rintro ⟨⟩
    exact .leaves work call
  case case11 work call scheduler ready =>
    intro taken
    obtain ⟨next, waited, moved⟩ := Option.map_eq_some_iff.mp taken
    cases moved
    exact .resumes work scheduler waited ready
  case case13 work call =>
    intro taken
    obtain ⟨⟨next, now⟩, gone, moved⟩ := Option.map_eq_some_iff.mp taken
    cases moved
    exact .goes work gone
  all_goals nofun

theorem Move.of_step {action : FiberId × Action Task} (taken : step state action = some after) :
    ∃ next now, Move state.shared action.1 action.2 (state.threads action.1) next now ∧
      after = state.put action.1 next now := by
  obtain ⟨⟨next, now⟩, executed, rfl⟩ := Option.map_eq_some_iff.mp taken
  exact ⟨next, now, .of_exec executed, rfl⟩

end Moves

/-!
## The semaphore
-/

/-- `_fiberSem`, and the fibers in its functions. -/
def sem (state : State Task) : FiberSemphore.State :=
  state.view Shared.fiberSem Thread.point

section Semaphore

variable {state after : State Task} {shared next : Shared Task} {self : FiberId}
  {was now : Thread Task} {action : Action Task}

/-- Outside of its waits, a call leaves the semaphore alone, unless it is the end of `OnTimer`. -/
theorem go_sem {call later : Call Task} (gone : shared.go call = some (next, later)) :
    call = .notifying ∧ next.fiberSem = shared.fiberSem.notifyAll ∨
      next.fiberSem = shared.fiberSem ∧ next.timedOut = shared.timedOut := by
  revert gone
  fun_cases Shared.go shared call
  all_goals rintro ⟨⟩
  case case16 => exact .inl ⟨rfl, rfl⟩
  all_goals exact .inr ⟨rfl, rfl⟩

theorem go_batchSize {call later : Call Task} (gone : shared.go call = some (next, later)) :
    next.batchSize = shared.batchSize := by
  revert gone
  fun_cases Shared.go shared call
  all_goals rintro ⟨⟩
  all_goals rfl

theorem Move.batchSize (move : Move shared self action was next now) :
    next.batchSize = shared.batchSize := by
  cases move with
  | goes work gone => exact go_batchSize gone
  | _ => rfl

/-- Whatever a step of the group does to its semaphore, no permit is lost. -/
theorem Move.conserved {initial : Nat} (move : Move state.shared self action was next now)
    (isWas : state.threads self = was) (conserved : FiberSemphore.Conserved initial (sem state)) :
    FiberSemphore.Conserved initial (sem (state.put self next now)) := by
  have acts : ∀ call, FiberSemphore.exec self state.shared.fiberSem was.point call =
      some (next.fiberSem, now.point) →
      FiberSemphore.Conserved initial (sem (state.put self next now)) := by
    intro call executed
    have taken : FiberSemphore.step (sem state) (self, call) =
        some (sem (state.put self next now)) := by
      rw [sem, sem, Config.view_put]
      subst isWas
      exact congrArg (Option.map _) executed
    exact conserved.step taken
  have same : next.fiberSem = state.shared.fiberSem → now.point = was.point →
      FiberSemphore.Conserved initial (sem (state.put self next now)) := by
    intro sameSem samePoint
    rw [sem, Config.view_put, samePoint, ← isWas, sameSem]
    exact (Config.put_back rfl : (sem state).put self _ _ = sem state) ▸ conserved
  cases move with
  | calls | expires | starts | throws | returns => exact same rfl rfl
  | goes work gone =>
      obtain ⟨-, notified⟩ | ⟨untouched, -⟩ := go_sem gone
      · rw [sem, Config.view_put, notified]
        apply conserved.notifyAll
        show _ ↔ (state.threads self).point = .running
        rw [isWas]
      · exact same untouched rfl
  | takes work scheduler waited available =>
      refine acts (.wait scheduler) ?_
      simp only [FiberSemphore.exec, FiberSemphore.Shared.wait, if_pos available]
  | queues work scheduler waited none =>
      refine acts (.wait scheduler) ?_
      simp only [FiberSemphore.exec, FiberSemphore.Shared.wait, if_neg none]
  | leaves => exact acts .leave rfl
  | resumes work scheduler waited ready => exact acts (.resume scheduler) (if_pos ready)
  | posts => exact acts .post rfl

end Semaphore

/-!
## The waiters
-/

/-- The task of a fiber, if it is one that posts in the end. -/
def Work.pending : Work Task → Nat
  | .inside (some _) | .posting => 1
  | _ => 0

/-- The tasks in the scheduler that post in the end. -/
def Shared.tasks (shared : Shared Task) : Nat :=
  shared.queue.countP Option.isSome

/-- So many tasks have not posted yet, in the scheduler and in fibers. -/
def Unfinished (state : State Task) (count : Nat) : Prop :=
  ∃ begun, state.Sums (fun thread => thread.work.pending) begun ∧
    count = state.shared.tasks + begun

/-- So many tasks other than that of the fiber have not posted yet. -/
def Others (state : State Task) (fiber : FiberId) (count : Nat) : Prop :=
  Unfinished state (count + (state.threads fiber).work.pending)

/-- After `OnTimer` has finished, a fiber that has to wait finds more other tasks than fibers that
wait already. When a task throws there are others for all of these, and one more if the last of
them is itself in a task. -/
def Attended (state : State Task) (action : FiberId × Action Task) : Prop :=
  match action.2 with
  | .wait _ => state.shared.timedOut = true → state.shared.fiberSem.concurrency = 0 →
      ∃ others, Others state action.1 others ∧ state.shared.fiberSem.waitQueue.length < others
  | .finish true => state.shared.timedOut = true →
      ∀ last ∈ state.shared.fiberSem.waitQueue.getLast?, ∃ others, Others state action.1 others ∧
        state.shared.fiberSem.waitQueue.length + (state.threads last.fiber).work.pending ≤ others
  | _ => True

/-- There are tasks for all fibers that wait, the last of which does not wait for its own. -/
def Covers (state : State Task) (count : Nat) : Prop :=
  ∀ last ∈ state.shared.fiberSem.waitQueue.getLast?,
    state.shared.fiberSem.waitQueue.length + (state.threads last.fiber).work.pending ≤ count

structure Covered (state : State Task) : Prop where
  conserved : FiberSemphore.Conserved state.shared.batchSize (sem state)
  covers : ∃ count, Unfinished state count ∧ (state.shared.timedOut = true → Covers state count)

section Waiters

variable {state after : State Task} {shared next : Shared Task} {self : FiberId}
  {was now : Thread Task} {action : Action Task}

theorem Covered.initial (batchSize : Nat) : Covered (fresh batchSize : State Task) where
  conserved := FiberSemphore.conserves batchSize (.refl _)
  covers := ⟨0, ⟨0, .zero fun _ => rfl, rfl⟩, fun timedOut => absurd timedOut Bool.false_ne_true⟩

theorem Work.pending_le (work : Work Task) : work.pending ≤ 1 := by
  fun_cases Work.pending work
  all_goals omega

/-- There is one number of tasks that have not posted. -/
theorem Unfinished.unique {one other : Nat} (first : Unfinished state one)
    (second : Unfinished state other) : one = other := by
  obtain ⟨begun, sums, rfl⟩ := first
  obtain ⟨started, others, rfl⟩ := second
  have le : begun ≤ started := by
    simpa using sums.add_card_le others ∅ (fun _ => Nat.le_refl _) (by simp)
  have ge : started ≤ begun := by
    simpa using others.add_card_le sums ∅ (fun _ => Nat.le_refl _) (by simp)
  omega

/-- Only the tasks in the scheduler and with the fiber that moves change. -/
theorem Unfinished.put {count later : Nat} (unfinished : Unfinished state count)
    (moved : later + state.shared.tasks + (state.threads self).work.pending =
      count + next.tasks + now.work.pending) : Unfinished (state.put self next now) later := by
  obtain ⟨begun, sums, rfl⟩ := unfinished
  have own : (state.threads self).work.pending ≤ begun := sums.le self
  refine ⟨begun + now.work.pending - (state.threads self).work.pending, sums.put ?_, ?_⟩
  · omega
  · rw [Config.put_shared]
    omega

/-- Whoever waits has left its own code. -/
theorem Covered.away (covered : Covered state) {waiter : FiberSemphore.Waiter}
    (waits : waiter ∈ state.shared.fiberSem.waitQueue) :
    (state.threads waiter.fiber).point ≠ .running :=
  (covered.conserved.waits waiter.fiber).mp
    (List.mem_map_of_mem (List.mem_append_left _ waits))

/-- The fibers that wait stay the same. -/
theorem Covered.keep (covered : Covered state)
    (move : Move state.shared self action was next now) (isWas : state.threads self = was)
    (waitQueue : next.fiberSem.waitQueue = state.shared.fiberSem.waitQueue)
    (timedOut : next.timedOut = state.shared.timedOut)
    (pending : now.work.pending = was.work.pending ∨ was.point = .running)
    (moved : ∀ count, Unfinished state count → (state.shared.timedOut = true → Covers state count) →
      ∃ later, later + state.shared.tasks + was.work.pending =
        count + next.tasks + now.work.pending ∧ (state.shared.timedOut = true →
          Covers state later)) : Covered (state.put self next now) where
  conserved := by
    rw [Config.put_shared, move.batchSize]
    exact move.conserved isWas covered.conserved
  covers := by
    obtain ⟨count, unfinished, covers⟩ := covered.covers
    obtain ⟨later, sum, enough⟩ := moved count unfinished covers
    refine ⟨later, unfinished.put (by rw [isWas]; exact sum), fun isTimedOut last isLast => ?_⟩
    rw [Config.put_shared, waitQueue] at isLast ⊢
    rw [Config.put_shared, timedOut] at isTimedOut
    have same : ((state.put self next now).threads last.fiber).work.pending =
        (state.threads last.fiber).work.pending := by
      obtain ⟨isSelf, current⟩ | ⟨-, current⟩ := state.put_cases self next now last.fiber
      all_goals rw [current]
      obtain pending | running := pending
      · rw [pending, isSelf, isWas]
      · refine absurd ?_ (covered.away (List.mem_of_getLast? isLast))
        rw [isSelf, isWas, running]
    rw [same]
    exact enough isTimedOut last isLast

theorem Covers.mono {count more : Nat} (covers : Covers state count) (le : count ≤ more) :
    Covers state more :=
  fun last isLast => (covers last isLast).trans le

/-- Neither the fibers that wait nor what the fiber is to post changes; tasks may be added. -/
theorem Covered.same (covered : Covered state)
    (move : Move state.shared self action was next now) (isWas : state.threads self = was)
    (waitQueue : next.fiberSem.waitQueue = state.shared.fiberSem.waitQueue)
    (timedOut : next.timedOut = state.shared.timedOut)
    (pending : now.work.pending = was.work.pending)
    (tasks : state.shared.tasks ≤ next.tasks) : Covered (state.put self next now) := by
  refine covered.keep move isWas waitQueue timedOut (.inl pending) fun count _ covers => ?_
  refine ⟨count + (next.tasks - state.shared.tasks), by omega, fun isTimedOut => ?_⟩
  exact (covers isTimedOut).mono (Nat.le_add_right _ _)

theorem go_tasks {call later : Call Task} (gone : shared.go call = some (next, later)) :
    shared.tasks ≤ next.tasks := by
  revert gone
  fun_cases Shared.go shared call
  all_goals rintro ⟨⟩
  case case4 cb cbs =>
    simp only [Shared.tasks, List.countP_append]
    exact Nat.le_add_right _ _
  all_goals exact Nat.le_refl _

/-- A task comes from the scheduler into a fiber. -/
theorem tasks_eraseIdx {index : Nat} {cb : Option Task}
    (isTask : shared.queue[index]? = some cb) :
    (shared.queue.eraseIdx index).countP Option.isSome + (Work.inside cb).pending =
      shared.tasks := by
  obtain ⟨inside, rfl⟩ := List.getElem?_eq_some_iff.mp isTask
  have count := (List.getElem_cons_eraseIdx_perm inside).countP_eq Option.isSome
  rw [List.countP_cons] at count
  rw [Shared.tasks, ← count]
  cases shared.queue[index] <;> rfl

/-- The end of `OnTimer` leaves nobody behind that waits already. -/
theorem Covered.notifies (covered : Covered state) {work : Work Task} {call later : Call Task}
    (isWas : state.threads self = ⟨work, call, .running⟩)
    (gone : state.shared.go call = some (next, later))
    (notified : next.fiberSem = state.shared.fiberSem.notifyAll) :
    Covered (state.put self next ⟨work, later, .running⟩) where
  conserved := by
    rw [Config.put_shared, go_batchSize gone]
    exact (Move.goes work gone).conserved isWas covered.conserved
  covers := by
    obtain ⟨count, unfinished, -⟩ := covered.covers
    have tasks := go_tasks gone
    refine ⟨count + (next.tasks - state.shared.tasks), unfinished.put ?_, fun _ last isLast => ?_⟩
    · rw [isWas]
      simp only
      omega
    · rw [Config.put_shared, notified] at isLast
      cases isLast

/-- A fiber that waits for other tasks than its own. -/
theorem Covered.queues (covered : Covered state) {work : Work Task} {call next : Call Task}
    {scheduler : Nat} (isWas : state.threads self = ⟨work, call, .running⟩)
    (waited : call.waited = some next) (none : ¬ 0 < state.shared.fiberSem.concurrency)
    (attended : Attended state (self, .wait scheduler)) :
    Covered (state.put self { state.shared with fiberSem := { state.shared.fiberSem with
      waitQueue := state.shared.fiberSem.waitQueue ++ [⟨scheduler, self⟩]
      arrived := state.shared.fiberSem.arrived ++ [⟨scheduler, self⟩] } }
        ⟨work, call, .leaving⟩) where
  conserved := (Move.queues work scheduler waited none).conserved isWas covered.conserved
  covers := by
    obtain ⟨count, unfinished, -⟩ := covered.covers
    refine ⟨count, unfinished.put (by rw [isWas]; rfl), fun timedOut last isLast => ?_⟩
    obtain ⟨others, areOthers, more⟩ := attended timedOut (Nat.eq_zero_of_not_pos none)
    obtain rfl := areOthers.unique unfinished
    rw [Config.put_shared, List.getLast?_concat] at isLast
    obtain rfl : ⟨scheduler, self⟩ = last := Option.mem_some.mp isLast
    rw [Config.put_self, Config.put_shared, List.length_append, List.length_singleton, isWas]
    simp only
    omega

/-- A task that is done lets one of the waiters go. -/
theorem Covered.posts (covered : Covered state)
    (isWas : state.threads self = ⟨.posting, .outside, .running⟩) :
    Covered (state.put self { state.shared with fiberSem := state.shared.fiberSem.post }
      ⟨.idle, .outside, .running⟩) where
  conserved := Move.posts.conserved isWas covered.conserved
  covers := by
    obtain ⟨count, unfinished, covers⟩ := covered.covers
    have own : 1 ≤ count := by
      obtain ⟨begun, sums, rfl⟩ := unfinished
      have le := sums.le self
      rw [isWas] at le
      exact le.trans (Nat.le_add_left _ _)
    refine ⟨count - 1, unfinished.put ?_, fun timedOut last isLast => ?_⟩
    · rw [isWas]
      show count - 1 + state.shared.tasks + 1 = count + state.shared.tasks + 0
      omega
    · rw [Config.put_shared] at isLast ⊢
      change last ∈ state.shared.fiberSem.post.waitQueue.getLast? at isLast
      change state.shared.fiberSem.post.waitQueue.length + _ ≤ _
      unfold FiberSemphore.Shared.post at isLast ⊢
      split at isLast
      case h_1 first rest queue =>
        have wasLast : last ∈ state.shared.fiberSem.waitQueue.getLast? := by
          cases rest with
          | nil => cases isLast
          | cons second rest => rw [queue, List.getLast?_cons_cons]; exact isLast
        have waits := covered.away (List.mem_of_getLast? wasLast)
        have apart : last.fiber ≠ self := fun same => waits (by rw [same, isWas])
        have enough := covers timedOut last wasLast
        rw [queue, List.length_cons] at enough
        rw [Config.put_other apart]
        show rest.length + _ ≤ count - 1
        omega
      case h_2 empty =>
        change last ∈ state.shared.fiberSem.waitQueue.getLast? at isLast
        rw [empty] at isLast
        cases isLast

/-- What a step of a fiber leaves behind. -/
theorem Covered.move (covered : Covered state)
    (move : Move state.shared self action was next now) (isWas : state.threads self = was)
    (attended : Attended state (self, action)) : Covered (state.put self next now) := by
  cases move with
  | calls work request =>
      exact covered.same (.calls work request) isWas rfl rfl rfl (Nat.le_refl _)
  | takes work scheduler waited available =>
      exact covered.same (.takes work scheduler waited available) isWas rfl rfl rfl (Nat.le_refl _)
  | queues work scheduler waited none => exact covered.queues isWas waited none attended
  | leaves work call => exact covered.same (.leaves work call) isWas rfl rfl rfl (Nat.le_refl _)
  | resumes work scheduler waited ready =>
      exact covered.same (.resumes work scheduler waited ready) isWas rfl rfl rfl (Nat.le_refl _)
  | goes work gone =>
      obtain ⟨-, notified⟩ | ⟨untouched, timedOut⟩ := go_sem gone
      · exact covered.notifies isWas gone notified
      · exact covered.same (.goes work gone) isWas (by rw [untouched]) timedOut rfl (go_tasks gone)
  | expires armed => exact covered.same (.expires armed) isWas rfl rfl rfl (Nat.le_refl _)
  | starts index cb isTask =>
      refine covered.keep (.starts index cb isTask) isWas rfl rfl (.inr rfl) fun count _ covers =>
        ⟨count, ?_, covers⟩
      have tasks := tasks_eraseIdx isTask
      show count + state.shared.tasks + 0 =
        count + (state.shared.queue.eraseIdx index).countP Option.isSome + (Work.inside cb).pending
      omega
  | throws cb =>
      refine covered.keep (.throws cb) isWas rfl rfl (.inr rfl) fun count unfinished _ => ?_
      have own : (Work.inside cb).pending ≤ count := by
        obtain ⟨begun, sums, rfl⟩ := unfinished
        have le := sums.le self
        rw [isWas] at le
        exact le.trans (Nat.le_add_left _ _)
      refine ⟨count - (Work.inside cb).pending, ?_, fun timedOut last isLast => ?_⟩
      · show count - (Work.inside cb).pending + state.shared.tasks + (Work.inside cb).pending =
          count + state.shared.tasks + 0
        omega
      · obtain ⟨others, areOthers, enough⟩ := attended timedOut last isLast
        have same := areOthers.unique unfinished
        rw [isWas] at same
        simp only at same
        omega
  | returns cb => exact covered.same (.returns cb) isWas rfl rfl rfl (Nat.le_refl _)
  | posts => exact covered.posts isWas

theorem Covered.of_runs {batchSize : Nat} (run : Runs step Attended (fresh batchSize) state) :
    Covered state := by
  refine run.invariant (fun state action after covered attended taken => ?_) (.initial batchSize)
  obtain ⟨next, now, move, rfl⟩ := Move.of_step taken
  exact covered.move move rfl attended

/-- The fiber is suspended in `_fiberSem.wait()`, and has not been scheduled since. -/
def Suspended (state : State Task) (fiber : FiberId) : Prop :=
  fiber ∈ state.shared.fiberSem.waitQueue.map FiberSemphore.Waiter.fiber

/-- A task that posts in the end is in the scheduler, or in a fiber that is not suspended. -/
def Busy (state : State Task) : Prop :=
  0 < state.shared.tasks ∨
    ∃ fiber, (state.threads fiber).work.pending ≠ 0 ∧ ¬ Suspended state fiber

/-- The fibers that wait are more than the tasks, if all tasks are with them. -/
theorem Covered.stuck (covered : Covered state) {count : Nat} (unfinished : Unfinished state count)
    (idle : ¬ Busy state) {last : FiberSemphore.Waiter}
    (isLast : last ∈ state.shared.fiberSem.waitQueue.getLast?) :
    count < state.shared.fiberSem.waitQueue.length + (state.threads last.fiber).work.pending := by
  obtain ⟨begun, sums, rfl⟩ := unfinished
  rw [Busy, not_or, Nat.not_lt, Nat.le_zero, not_exists] at idle
  obtain ⟨noTask, nobody⟩ := idle
  have once := covered.conserved.once
  change ((state.shared.fiberSem.waitQueue ++ state.shared.fiberSem.ready).map _).Nodup at once
  rw [List.map_append] at once
  have card := List.toFinset_card_of_nodup (List.nodup_append.mp once).1
  rw [List.length_map] at card
  have suspended : ∀ fiber, (state.threads fiber).work.pending ≠ 0 → fiber ∈
      (state.shared.fiberSem.waitQueue.map FiberSemphore.Waiter.fiber).toFinset := by
    intro fiber busy
    by_contra awake
    exact nobody fiber ⟨busy, fun suspended => awake (List.mem_toFinset.mpr suspended)⟩
  have light := fun fiber => (state.threads fiber).work.pending_le
  have member : last.fiber ∈
      (state.shared.fiberSem.waitQueue.map FiberSemphore.Waiter.fiber).toFinset :=
    List.mem_toFinset.mpr (List.mem_map_of_mem (List.mem_of_getLast? isLast))
  have pos : 0 < (state.shared.fiberSem.waitQueue.map FiberSemphore.Waiter.fiber).toFinset.card :=
    Finset.card_pos.mpr ⟨_, member⟩
  by_cases own : (state.threads last.fiber).work.pending = 0
  · have few := sums.le_card (Finset.erase _ last.fiber) light fun fiber busy =>
      Finset.mem_erase.mpr ⟨fun same => busy (by rw [same, own]), suspended fiber busy⟩
    rw [Finset.card_erase_of_mem member] at few
    omega
  · have few := sums.le_card _ light suspended
    omega

/-- As long as no fiber comes too late for the timeout without a task to wait for, nobody is left
behind in `Schedule` or `WaitAll` once `OnTimer` has finished. -/
theorem leaves_no_waiter {batchSize : Nat} {fiber : FiberId}
    (run : Runs step Attended (fresh batchSize) state) (timedOut : state.shared.timedOut = true)
    (suspended : Suspended state fiber) : Busy state := by
  have covered := Covered.of_runs run
  obtain ⟨count, unfinished, covers⟩ := covered.covers
  by_contra idle
  cases isLast : state.shared.fiberSem.waitQueue.getLast? with
  | none =>
      rw [Suspended, List.getLast?_eq_none_iff.mp isLast] at suspended
      exact List.not_mem_nil suspended
  | some last =>
      have enough := covers timedOut last isLast
      exact absurd enough (Nat.not_le_of_lt (covered.stuck unfinished idle isLast))

end Waiters

/-!
## A fiber that comes between the test and the wait
-/

/-- A `WaitAll` and a `Schedule` have tested the flag when the timer expires; there is one permit
for them, and no task. -/
def lateRun : List (FiberId × Action Unit) :=
  [(0, .call .waitAll), (0, .go), (0, .go), (0, .go), (1, .call (.schedule (some ()))), (1, .go),
    (2, .expire), (2, .go), (2, .go), (2, .go), (0, .wait 0), (1, .wait 0)]

def lateState : State Unit :=
  (replay step (fun _ _ => true) lateRun (fresh 1)).get (by decide)

/-- The `Schedule` waits for ever. -/
theorem late_waits : ∃ (state : State Unit) (fiber : FiberId),
    Runs step (fun _ _ => True) (fresh 1) state ∧ state.shared.timedOut = true ∧
      Suspended state fiber ∧ ¬ Busy state := by
  have taken : replay step (fun _ _ => true) lateRun (fresh 1) = some lateState :=
    (Option.some_get _).symm
  have idle : ∀ fiber, (lateState.threads fiber).work.pending = 0 :=
    replay_forall (motive := fun thread : Thread Unit => thread.work.pending = 0)
      step_frame 3 taken (by decide) (by decide) fun _ _ => rfl
  refine ⟨lateState, 1, .of_replay (fun _ _ _ => trivial) taken, by decide,
    by unfold Suspended; decide, ?_⟩
  rintro (queued | ⟨fiber, busy⟩)
  · exact absurd queued (by decide)
  · exact busy.1 (idle fiber)

/-- A task has the permit when the timer expires, and a `Schedule` has tested the flag. -/
def timeoutRun : List (FiberId × Action Unit) :=
  [(1, .call (.schedule (some ()))), (1, .go), (1, .wait 0), (1, .go),
    (0, .call (.schedule (some ()))), (0, .go), (2, .expire), (2, .go), (2, .go), (2, .go)]

/-- Whether `OnTimer` has not finished. -/
def early (state : State Task) (_ : FiberId × Action Task) : Bool :=
  !state.shared.timedOut

theorem early_attended (state : State Task) (action : FiberId × Action Task)
    (isEarly : early state action = true) : Attended state action := by
  have notYet : state.shared.timedOut ≠ true := by
    rw [early, Bool.not_eq_true'] at isEarly
    simp [isEarly]
  unfold Attended
  split
  · exact fun timedOut => absurd timedOut notYet
  · exact fun timedOut => absurd timedOut notYet
  · trivial

def timedOutState : State Unit :=
  (replay step early timeoutRun (fresh 1)).get (by decide)

def attendedState : State Unit :=
  (step timedOutState (0, .wait 0)).get (by decide)

theorem attendedState_reached : Runs step Attended (fresh 1) attendedState := by
  have taken : replay step early timeoutRun (fresh 1) = some timedOutState :=
    (Option.some_get _).symm
  have idle : ∀ fiber, (timedOutState.threads fiber).work.pending = 0 :=
    replay_forall (motive := fun thread : Thread Unit => thread.work.pending = 0)
      step_frame 3 taken (by decide) (by decide) fun _ _ => rfl
  have others : Others timedOutState 0 1 := by
    rw [Others, idle]
    exact ⟨0, .zero idle, rfl⟩
  have attended : Attended timedOutState (0, .wait 0) := fun _ _ => ⟨1, others, by decide⟩
  exact (Runs.of_replay early_attended taken).tail attended (Option.some_get (by decide)).symm

theorem leaves_no_waiter_attended : attendedState.shared.timedOut = true ∧
    Suspended attendedState 0 ∧ Busy attendedState := by
  have timedOut : attendedState.shared.timedOut = true := by decide
  have suspended : Suspended attendedState 0 := by
    unfold Suspended
    decide
  exact ⟨timedOut, suspended, leaves_no_waiter attendedState_reached timedOut suspended⟩

end Xten.TimedWorkGroup
