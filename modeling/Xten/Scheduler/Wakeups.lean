import Xten.Scheduler.Tasks

/-!
# No worker sleeps while it has work

A worker that has found nothing in its scan is woken up for a task that it may run, as long
as a call of `Tickle` that finds no idle thread, or of `Schedule` that finds the queue in
use, does not leave such a worker alone with such a task.
-/

namespace Xten.Scheduler

open Std.Interleaving

/-- Whether the thread comes to a scan without running code of the callers before. -/
def After.Scans : After → Prop
  | .loop _ | .handling _ _ => True
  | _ => False

/-- A thread that is on its way to send a tickle, or to scan the queue. -/
def Thread.OnWay : Thread → Prop
  | .tickling _ | .writing _ | .loop _ | .scanning _ _ _ | .erased _ _ _ | .dropping _
  | .leaving _ _ | .returned _ _ | .judging _ _ | .rescheduling _ _ | .settling _ _
  | .holding _ _ | .expiring _ _ | .expired _ _ _ | .handling _ _ | .idled _ => True
  | .triggering _ after | .triggered after => after.Scans
  | .waking count => 0 < count
  | _ => False

/-- A worker that has found nothing in its scan, and has not been woken since. -/
def Thread.Sleeps : Thread → Prop
  | .took _ none | .idling _ | .timing _ | .pending _ | .stopRead _ | .autoRead _
  | .emptyRead _ | .activeRead _ | .waiting _ => True
  | _ => False

/-- The scan does not pass over the task on account of its fiber. -/
def Shared.Runnable (shared : Shared) (job : Job) : Prop :=
  ∀ fiber ∈ job.fiber?, (shared.fibers fiber).status ≠ .exec

/-- No worker is blocked in `epoll_wait` with a task in the queue that it may run, no byte in
the pipe and nobody on the way; unless an assertion has failed. -/
def Wakeful (state : State) : Prop :=
  ∀ thread self, state.threads thread = .waiting self → ∀ task ∈ state.shared.funFibers,
    task.Allows thread → state.shared.Runnable task.job → state.shared.pipe = 0 →
      ∃ other, (state.threads other).OnWay ∨ state.threads other = .failed

/-- Once the thread has gone on, there is a byte in the pipe or somebody on the way. -/
def Wakes (state : State) (thread : ThreadId) (after : After) : Prop :=
  0 < state.shared.pipe ∨ after.resume.OnWay ∨
    ∃ other ≠ thread, (state.threads other).OnWay ∨ state.threads other = .failed

/-- Where no tickle is sent, nobody needs it. -/
structure Heard (state : State) (action : Action) : Prop where
  /-- The callers enqueue fibers that there are. -/
  exist : ∀ fiber ∈ ((state.threads action.actor.1).enqueues action.actor.2).filterMap Job.fiber?,
    fiber < state.shared.made
  /-- `Tickle` finds no idle thread. -/
  tickles : ∀ after, state.threads action.actor.1 = .tickling after →
    ¬ (state.shared.isIOManager ∧ 0 < state.shared.idleThreadNum) →
      ∀ sleeper, (state.threads sleeper).Sleeps ∨ sleeper = action.actor.1 ∧ after.resume.Sleeps →
        ∀ task ∈ state.shared.funFibers, task.Allows sleeper → state.shared.Runnable task.job →
          Wakes state action.actor.1 after
  /-- `Schedule` finds the queue in use. -/
  pushes : ∀ jobs threadId after,
    Pushes (state.threads action.actor.1) action.actor.2 jobs threadId after →
      state.shared.funFibers ≠ [] → ∀ sleeper, (state.threads sleeper).Sleeps → ∀ job ∈ jobs,
        threadId = none ∨ threadId = some sleeper → state.shared.Runnable job →
          Wakes state action.actor.1 after

section Names

/-- The fiber that a worker keeps. -/
def Worker.names (self : Worker) : List FiberId :=
  self.cbFiber.toList

def Task.names (task : Option Task) : List FiberId :=
  (task.bind fun task => task.job.fiber?).toList

def After.names : After → List FiberId
  | .outside | .waking _ => []
  | .took self task => Task.names task ++ self.names
  | .running self current => current.fiber :: self.names
  | .loop self | .handling self _ => self.names
  | .event after => after.names

/-- The fibers that a thread knows of. -/
def Thread.names : Thread → List FiberId
  | .outside | .stopping | .waking _ | .left | .failed => []
  | .loop self | .scanning self _ _ | .dropping self | .idling self | .timing self
  | .pending self | .stopRead self | .autoRead self | .emptyRead self | .activeRead self
  | .waiting self | .expiring self _ | .expired self _ _ | .handling self _ | .idled self =>
      self.names
  | .erased self task _ => Task.names (some task) ++ self.names
  | .tickling after | .writing after | .triggering _ after | .triggered after => after.names
  | .took self task => Task.names task ++ self.names
  | .entering self current | .running self current | .leaving self current
  | .returned self current | .judging self current | .rescheduling self current
  | .settling self current | .holding self current => current.fiber :: self.names

/-- Events are triggered by the callers' code and while a worker handles events. -/
def After.Called : After → Prop
  | .outside | .running _ _ | .handling _ _ => True
  | _ => False

def After.Shaped : After → Prop
  | .event after => after.Called
  | _ => True

def Thread.Shaped : Thread → Prop
  | .tickling after | .writing after => after.Shaped
  | .triggering _ after | .triggered after => after.Called
  | _ => True

/-- The fibers that are known have been made. -/
structure Named (state : State) : Prop where
  names : ∀ thread, ∀ fiber ∈ (state.threads thread).names, fiber < state.shared.made
  queued : ∀ fiber ∈ state.shared.queued, fiber < state.shared.made
  shaped : ∀ thread, (state.threads thread).Shaped

variable {state later : State} {thread : ThreadId} {shared : Shared} {now next : Thread}
  {choice : Choice}

@[simp] theorem After.names_resume (after : After) : after.resume.names = after.names := by
  cases after <;> rfl

@[simp] theorem names_tickled (tickle : Bool) (after : After) :
    (tickled tickle after).names = after.names := by
  cases tickle
  · exact after.names_resume
  · rfl

@[simp] theorem After.shaped_resume {after : After} : after.resume.Shaped = after.Shaped := by
  cases after <;> rfl

@[simp] theorem shaped_tickled (tickle : Bool) (after : After) :
    (tickled tickle after).Shaped = after.Shaped := by
  cases tickle
  · exact after.shaped_resume
  · rfl

theorem Calls.names_eq {after : After} (calls : Calls now after) : after.names = now.names := by
  cases calls <;> rfl

theorem Calls.called {after : After} (calls : Calls now after) : after.Called := by
  cases calls <;> trivial

theorem Calls.shaped {after : After} (calls : Calls now after) : after.Shaped := by
  cases calls <;> trivial

theorem Worker.names_release (self : Worker) (running : Running) :
    (self.release running).names ⊆ self.names := by
  unfold release
  split
  · exact List.nil_subset _
  · exact List.Subset.refl _

/-- A thread moves, and knows of no fiber that has not been made. -/
theorem Named.put (named : Named state) (grows : state.shared.made ≤ shared.made)
    (names : ∀ fiber ∈ next.names, fiber ∈ (state.threads thread).names ∨ fiber < shared.made)
    (queued : ∀ fiber ∈ shared.queued, fiber ∈ state.shared.queued ∨ fiber < shared.made)
    (shaped : next.Shaped) : Named (state.put thread shared next) := by
  refine ⟨fun other fiber member => ?_, fun fiber member => ?_, fun other => ?_⟩
  · obtain ⟨-, current⟩ | ⟨-, current⟩ := state.put_cases thread shared next other
    all_goals rw [current] at member
    · exact (names fiber member).elim (fun old => (named.names thread fiber old).trans_le grows) id
    · exact (named.names other fiber member).trans_le grows
  · exact (queued fiber member).elim (fun old => (named.queued fiber old).trans_le grows) id
  · obtain ⟨-, current⟩ | ⟨-, current⟩ := state.put_cases thread shared next other
    all_goals rw [current]
    · exact shaped
    · exact named.shaped other

/-- A thread goes on with the fibers that it knows of. -/
theorem Named.quiet (named : Named state) (made : shared.made = state.shared.made)
    (names : next.names ⊆ (state.threads thread).names)
    (queued : ∀ fiber ∈ shared.queued, fiber ∈ state.shared.queued) (shaped : next.Shaped) :
    Named (state.put thread shared next) :=
  named.put made.ge (fun _ member => .inl (names member))
    (fun fiber member => .inl (queued fiber member)) shaped

/-- The fibers of the tasks that are pushed. -/
theorem Shared.queued_pushed (shared : Shared) (jobs : List Job) (threadId : Option ThreadId) :
    (shared.pushed jobs threadId).filterMap (fun task => task.job.fiber?) =
      jobs.filterMap Job.fiber? := by
  rw [Shared.pushed, List.filterMap_map]
  calc List.filterMap (fun entry : Job × Nat => entry.1.fiber?) (jobs.zipIdx shared.scheduled.length)
      = List.filterMap Job.fiber? ((jobs.zipIdx shared.scheduled.length).map Prod.fst) := by
        rw [List.filterMap_map]
        rfl
    _ = jobs.filterMap Job.fiber? := by rw [List.zipIdx_map_fst]

/-- After `Schedule` a thread goes on with the fibers that it knows of. -/
theorem Pushes.names_subset {jobs : List Job} {threadId : Option ThreadId} {after : After}
    (pushes : Pushes now choice jobs threadId after) : after.names ⊆ now.names := by
  cases pushes with
  | call calls =>
      rw [calls.names_eq]
      exact List.Subset.refl _
  | rescheduling self running =>
      exact List.Subset.trans (self.names_release running) (List.subset_cons_self _ _)
  | expired | triggering => exact List.Subset.refl _

theorem Pushes.shaped {jobs : List Job} {threadId : Option ThreadId} {after : After}
    (pushes : Pushes now choice jobs threadId after) (shaped : now.Shaped) : after.Shaped := by
  cases pushes with
  | call calls => exact calls.shaped
  | rescheduling | expired => trivial
  | triggering => exact shaped

/-- The fibers that are enqueued have been made. -/
theorem Pushes.known {jobs : List Job} {threadId : Option ThreadId} {after : After}
    (pushes : Pushes now choice jobs threadId after) (named : Named state)
    (was : state.threads thread = now)
    (exist : ∀ fiber ∈ (now.enqueues choice).filterMap Job.fiber?, fiber < state.shared.made) :
    ∀ fiber ∈ jobs.filterMap Job.fiber?, fiber < state.shared.made := by
  cases pushes with
  | call calls =>
      rw [calls.enqueues_eq] at exist
      exact exist
  | rescheduling self running =>
      intro fiber member
      rw [List.mem_singleton.mp member]
      refine named.names thread _ ?_
      rw [was]
      exact List.mem_cons_self
  | expired self tickled count =>
      intro fiber member
      obtain ⟨job, callback, isFiber⟩ := List.mem_filterMap.mp member
      rw [List.eq_of_mem_replicate callback] at isFiber
      cases isFiber
  | triggering job after => exact exist

theorem Moves.named (moves : Moves thread state.shared now choice shared next)
    (named : Named state) (was : state.threads thread = now)
    (exist : ∀ fiber ∈ (now.enqueues choice).filterMap Job.fiber?, fiber < state.shared.made) :
    Named (state.put thread shared next) := by
  have names := congrArg Thread.names was
  have shaped := was ▸ named.shaped thread
  cases moves with
  | newFiber calls =>
      refine named.put (Nat.le_succ _) (fun fiber member => .inl ?_) (fun _ => .inl)
        (by rw [After.shaped_resume]; exact calls.shaped)
      rwa [names, ← calls.names_eq, ← After.names_resume]
  | addTimer calls =>
      refine named.quiet rfl ?_ (fun _ => id) (by rw [shaped_tickled]; exact calls.shaped)
      rw [names_tickled, calls.names_eq, names]
      exact List.Subset.refl _
  | cancelTimer calls | addEvent calls | delEvent calls | notDeleted calls | notCancelled calls =>
      refine named.quiet rfl ?_ (fun _ => id) (by rw [After.shaped_resume]; exact calls.shaped)
      rw [After.names_resume, calls.names_eq, names]
      exact List.Subset.refl _
  | cancelEvent calls =>
      refine named.quiet rfl ?_ (fun _ => id) calls.called
      rw [names, ← calls.names_eq]
      exact List.Subset.refl _
  | exhausted =>
      refine named.quiet rfl ?_ (fun _ => id) (by rw [shaped_tickled]; trivial)
      rw [names_tickled, names]
      exact List.Subset.refl _
  | erased =>
      refine named.quiet rfl ?_ (fun _ => id) (by rw [shaped_tickled]; trivial)
      rw [names_tickled, names]
      exact List.Subset.refl _
  | erase self index tickle task found mine free =>
      have queue := Shared.queued_erase found
      refine named.put le_rfl (fun fiber member => ?_) (fun fiber member => .inl ?_) trivial
      · rw [names]
        obtain taken | kept := List.mem_append.mp member
        · exact .inr (named.queued fiber (queue.mem_iff.mp (List.mem_append_left _ taken)))
        · exact .inl kept
      · exact queue.mem_iff.mp (List.mem_append_right _ member)
  | untickled after | write after =>
      refine named.quiet rfl ?_ (fun _ => id) (by rw [After.shaped_resume]; exact shaped)
      rw [After.names_resume, names]
      exact List.Subset.refl _
  | triggered after =>
      refine named.quiet rfl ?_ (fun _ => id) ?_
      · rw [After.names_resume, names]
        exact List.Subset.refl _
      · rw [After.shaped_resume]
        cases after <;> trivial
  | drop self task fiber job =>
      exact named.quiet rfl (by rw [names]; exact List.subset_append_right _ _) (fun _ => id) trivial
  | fiber self task fiber job live =>
      refine named.quiet rfl ?_ (fun _ => id) trivial
      rw [names, Thread.names, Thread.names, Task.names, Option.bind_some, job]
      exact List.Subset.refl _
  | reset self task fiber job spare ended =>
      refine named.quiet rfl ?_ (fun _ => id) trivial
      rw [names]
      intro other member
      obtain rfl | kept := List.mem_cons.mp member
      · refine List.mem_append_right _ ?_
        rw [Worker.names, spare]
        exact List.mem_cons_self
      · exact List.mem_append_right _ kept
  | make self task job none =>
      refine named.put (Nat.le_succ _) (fun fiber member => .inr ?_) (fun _ => .inl) trivial
      obtain rfl | same := List.mem_cons.mp member
      · exact Nat.lt_succ_self _
      · rw [List.mem_singleton.mp same]
        exact Nat.lt_succ_self _
  | resetFails | swapInFails | yieldFails =>
      exact named.quiet rfl (List.nil_subset _) (fun _ => id) trivial
  | recycle self running | forget self running =>
      refine named.quiet rfl ?_ (fun _ => id) trivial
      rw [names]
      exact List.subset_cons_self _ _
  | hold self running =>
      refine named.quiet rfl ?_ (fun _ => id) trivial
      rw [names]
      exact List.Subset.trans (self.names_release running) (List.subset_cons_self _ _)
  | leave => exact named.quiet rfl (List.nil_subset _) (fun _ => id) trivial
  | expire self tickled ids next goesOn =>
      obtain rfl | ⟨-, count, rfl⟩ := goesOn
      all_goals
        refine named.quiet rfl ?_ (fun _ => id) trivial
        rw [names]
        exact List.Subset.refl _
  | test tests =>
      cases tests
      all_goals
        refine named.quiet rfl ?_ (fun _ => id) trivial
        rw [names]
        exact List.Subset.refl _
  | tickle after =>
      refine named.quiet rfl ?_ (fun _ => id) shaped
      rw [names]
      exact List.Subset.refl _
  | schedule pushes free =>
      have known : ∀ fiber ∈ List.filterMap Job.fiber? _, fiber < state.shared.made :=
        pushes.known named was exist
      obtain ⟨fibers, pushed⟩ := state.shared.pushAll _ _
      rw [pushed]
      refine named.put le_rfl (fun fiber member => .inl ?_) (fun fiber member => ?_) ?_
      · rw [names]
        exact pushes.names_subset (names_tickled _ _ ▸ member)
      · rw [Shared.queued, List.filterMap_append, Shared.queued_pushed] at member
        exact (List.mem_append.mp member).imp_right (known fiber)
      · rw [shaped_tickled]
        exact pushes.shaped shaped
  | _ =>
      refine named.quiet rfl ?_ (fun _ => id) trivial
      rw [names]
      exact List.Subset.refl _

end Names

section Alert

variable {state later : State} {thread : ThreadId} {shared : Shared} {now next : Thread}
  {choice : Choice}

/-- A worker that sleeps, or is about to, could run a task of the queue. -/
def Missing (state : State) : Prop :=
  ∃ sleeper, (state.threads sleeper).Sleeps ∧ ∃ task ∈ state.shared.funFibers,
    task.Allows sleeper ∧ state.shared.Runnable task.job

/-- A worker is going to be woken up, or an assertion has failed. -/
def Coming (state : State) : Prop :=
  0 < state.shared.pipe ∨ ∃ other, (state.threads other).OnWay ∨ state.threads other = .failed

/-- The invariant. -/
def Alert (state : State) : Prop :=
  Missing state → Coming state

/-- The thread that moves is on its way. -/
theorem Alert.onWay (onWay : next.OnWay ∨ next = .failed) :
    Alert (state.put thread shared next) :=
  fun _ => .inr ⟨thread, by rwa [Config.put_self]⟩

theorem Alert.byte (byte : 0 < shared.pipe) : Alert (state.put thread shared next) :=
  fun _ => .inl byte

theorem Alert.empty (none : shared.funFibers = []) : Alert (state.put thread shared next) := by
  rintro ⟨sleeper, -, task, member, -⟩
  rw [Config.put_shared, none] at member
  cases member

/-- What was coming for the others still is. -/
theorem Coming.put (coming : Coming state) (pipe : state.shared.pipe ≤ shared.pipe)
    (kept : (state.threads thread).OnWay ∨ state.threads thread = .failed →
      next.OnWay ∨ next = .failed) : Coming (state.put thread shared next) := by
  refine coming.imp (fun byte => byte.trans_le pipe) fun someone => ?_
  exact @Config.exists_put _ _ _ _ _ _ (fun thread : Thread => thread.OnWay ∨ thread = .failed)
    someone kept

/-- A thread that was not on its way moves, and nobody more sleeps on a task. -/
theorem Alert.quiet (alert : Alert state) (pipe : state.shared.pipe ≤ shared.pipe)
    (still : ¬ (state.threads thread).OnWay) (unfailed : state.threads thread ≠ .failed)
    (sleeps : next.Sleeps → (state.threads thread).Sleeps)
    (queue : shared.funFibers = state.shared.funFibers)
    (runnable : ∀ task ∈ state.shared.funFibers, shared.Runnable task.job →
      state.shared.Runnable task.job) : Alert (state.put thread shared next) := by
  rintro ⟨sleeper, asleep, task, member, allows, free⟩
  rw [Config.put_shared, queue] at member
  refine Coming.put (alert ⟨sleeper, ?_, task, member, allows, runnable task member free⟩) pipe
    fun gone => absurd gone (not_or.mpr ⟨still, unfailed⟩)
  obtain ⟨rfl, current⟩ | ⟨-, current⟩ := state.put_cases thread shared next sleeper
  all_goals rw [current] at asleep
  · exact sleeps asleep
  · exact asleep

/-- Nothing is sent, and nothing is needed. -/
theorem Alert.wakes {after : After} (pipe : state.shared.pipe ≤ shared.pipe)
    (wakes : Missing (state.put thread shared after.resume) → Wakes state thread after) :
    Alert (state.put thread shared after.resume) := by
  intro missing
  obtain byte | onWay | ⟨other, apart, onWay⟩ := wakes missing
  · exact .inl (byte.trans_le pipe)
  · exact .inr ⟨thread, .inl (by rwa [Config.put_self])⟩
  · exact .inr ⟨other, by rwa [Config.put_other apart]⟩

/-- `Schedule` changes the status of no fiber. -/
theorem Shared.status_pushAll (shared : Shared) (jobs : List Job) (threadId : Option ThreadId)
    (fiber : FiberId) :
    ((jobs.foldl (Shared.pushBack threadId) shared).fibers fiber).status =
      (shared.fibers fiber).status := by
  induction jobs generalizing shared with
  | nil => rfl
  | cons job jobs ih =>
      rw [List.foldl_cons, ih]
      cases job with
      | func => rfl
      | fiber named =>
          change ((if fiber = named then _ else _ : Fiber)).status = _
          split
          case isTrue same => rw [same]
          case isFalse => rfl

theorem Pushes.elsewhere {jobs : List Job} {threadId : Option ThreadId} {after : After}
    (pushes : Pushes now choice jobs threadId after) :
    now ≠ .failed ∧ ∀ after, now ≠ .tickling after ∧ now ≠ .writing after := by
  cases pushes with
  | call calls => cases calls <;> exact ⟨nofun, fun _ => ⟨nofun, nofun⟩⟩
  | _ => exact ⟨nofun, fun _ => ⟨nofun, nofun⟩⟩

theorem Pushes.onWay {jobs : List Job} {threadId : Option ThreadId} {after : After}
    (pushes : Pushes now choice jobs threadId after) (onWay : now.OnWay) : after.resume.OnWay := by
  cases pushes with
  | call calls => cases calls <;> exact onWay
  | rescheduling | expired => trivial
  | triggering => exact onWay

theorem Pushes.awake {jobs : List Job} {threadId : Option ThreadId} {after : After}
    (pushes : Pushes now choice jobs threadId after) : ¬ after.resume.Sleeps := by
  cases pushes with
  | call calls => cases calls <;> exact not_false
  | _ => exact not_false

/-- A fiber that has not been made is in no task. -/
theorem Named.runnable_newFiber {fiber : Fiber} {task : Task} (named : Named state)
    (member : task ∈ state.shared.funFibers)
    (runnable : (state.shared.newFiber fiber).Runnable task.job) :
    state.shared.Runnable task.job := by
  intro other isFiber
  have made := named.queued other (List.mem_filterMap.mpr ⟨task, member, isFiber⟩)
  have status := runnable other isFiber
  rwa [Shared.newFiber, Shared.modify_other made.ne] at status

theorem Calls.still {after : After} (calls : Calls now after) :
    ¬ now.OnWay ∧ now ≠ .failed ∧ ¬ after.resume.Sleeps := by
  cases calls <;> exact ⟨not_false, nofun, not_false⟩

theorem Moves.alert (moves : Moves thread state.shared now choice shared next)
    (alert : Alert state) (named : Named state) (was : state.threads thread = now)
    (tickles : ∀ after, now = .tickling after →
      ¬ (state.shared.isIOManager ∧ 0 < state.shared.idleThreadNum) →
        ∀ sleeper, (state.threads sleeper).Sleeps ∨ sleeper = thread ∧ after.resume.Sleeps →
          ∀ task ∈ state.shared.funFibers, task.Allows sleeper →
            state.shared.Runnable task.job → Wakes state thread after)
    (pushes : ∀ jobs threadId after, Pushes now choice jobs threadId after →
      state.shared.funFibers ≠ [] → ∀ sleeper, (state.threads sleeper).Sleeps → ∀ job ∈ jobs,
        threadId = none ∨ threadId = some sleeper → state.shared.Runnable job →
          Wakes state thread after) :
    Alert (state.put thread shared next) := by
  have shaped := was ▸ named.shaped thread
  cases moves with
  | newFiber calls =>
      obtain ⟨still, unfailed, awake⟩ := calls.still
      exact alert.quiet le_rfl (was ▸ still) (was ▸ unfailed) (fun sleeps => absurd sleeps awake) rfl
        fun task member => named.runnable_newFiber member
  | addTimer calls timer front =>
      obtain ⟨still, unfailed, awake⟩ := calls.still
      cases front
      · exact alert.quiet le_rfl (was ▸ still) (was ▸ unfailed) (fun sleeps => absurd sleeps awake)
          rfl fun _ _ => id
      · exact .onWay (.inl trivial)
  | cancelTimer calls | addEvent calls | delEvent calls | notDeleted calls | notCancelled calls =>
      obtain ⟨still, unfailed, awake⟩ := calls.still
      exact alert.quiet le_rfl (was ▸ still) (was ▸ unfailed) (fun sleeps => absurd sleeps awake) rfl
        fun _ _ => id
  | cancelEvent calls =>
      obtain ⟨still, unfailed, -⟩ := calls.still
      exact alert.quiet le_rfl (was ▸ still) (was ▸ unfailed) False.elim rfl fun _ _ => id
  | exhausted self index tickle last =>
      by_cases none : state.shared.funFibers = []
      · exact .empty none
      · have some : state.shared.funFibers.isEmpty = false := by simpa using none
        refine .onWay (.inl ?_)
        rw [some, Bool.not_false, Bool.or_true]
        trivial
  | erased self task tickle =>
      by_cases none : state.shared.funFibers = []
      · exact .empty none
      · have some : state.shared.funFibers.isEmpty = false := by simpa using none
        refine .onWay (.inl ?_)
        rw [some, Bool.not_false, Bool.or_true]
        trivial
  | untickled after none =>
      refine .wakes le_rfl ?_
      rintro ⟨sleeper, asleep, task, member, allows, free⟩
      refine tickles after rfl none sleeper ?_ task member allows free
      obtain ⟨rfl, current⟩ | ⟨-, current⟩ :=
        state.put_cases thread state.shared after.resume sleeper
      all_goals rw [current] at asleep
      · exact .inr ⟨rfl, asleep⟩
      · exact .inl asleep
  | write after => exact .byte (Nat.succ_pos _)
  | triggered after =>
      cases after with
      | outside | running =>
          exact alert.quiet le_rfl (by rw [was]; exact not_false) (by rw [was]; exact nofun)
            False.elim rfl fun _ _ => id
      | handling => exact .onWay (.inl trivial)
      | _ => exact shaped.elim
  | fiber =>
      exact alert.quiet le_rfl (by rw [was]; exact not_false) (by rw [was]; exact nofun) False.elim
        rfl fun _ _ => id
  | make =>
      exact alert.quiet le_rfl (by rw [was]; exact not_false) (by rw [was]; exact nofun) False.elim
        rfl fun task member => named.runnable_newFiber member
  | swapIn self running free =>
      refine alert.quiet le_rfl (by rw [was]; exact not_false) (by rw [was]; exact nofun) False.elim
        rfl fun task member runnable fiber isFiber => ?_
      by_cases same : fiber = running.fiber
      · rwa [same]
      · have status := runnable fiber isFiber
        rwa [Shared.modify_other same] at status
  | reset self task fiber job spare ended =>
      refine alert.quiet le_rfl (by rw [was]; exact not_false) (by rw [was]; exact nofun) False.elim
        rfl fun task member runnable other isFiber => ?_
      by_cases same : other = fiber
      · rw [same]
        rintro executing
        rw [executing] at ended
        simp at ended
      · have status := runnable other isFiber
        rwa [Shared.modify_other same] at status
  | schedule sends free =>
      rename_i jobs threadId after
      by_cases none : state.shared.funFibers = []
      · rw [none]
        exact .onWay (.inl trivial)
      · have some : state.shared.funFibers.isEmpty = false := by simpa using none
        have status := state.shared.status_pushAll jobs threadId
        obtain ⟨fibers, pushed⟩ := state.shared.pushAll jobs threadId
        rw [pushed] at status ⊢
        rw [some]
        refine .wakes le_rfl ?_
        rintro ⟨sleeper, asleep, task, member, allows, runnable⟩
        have before : (state.threads sleeper).Sleeps := by
          obtain ⟨-, current⟩ | ⟨-, current⟩ := state.put_cases thread _ after.resume sleeper
          all_goals rw [current] at asleep
          · exact absurd asleep sends.awake
          · exact asleep
        have free : state.shared.Runnable task.job := fun fiber isFiber => by
          rw [← status]
          exact runnable fiber isFiber
        obtain old | new := List.mem_append.mp member
        · obtain byte | ⟨other, onWay⟩ := alert ⟨sleeper, before, task, old, allows, free⟩
          · exact .inl byte
          · by_cases same : other = thread
            · subst same
              rw [was] at onWay
              exact .inr (.inl (sends.onWay (onWay.resolve_right sends.elsewhere.1)))
            · exact .inr (.inr ⟨other, same, onWay⟩)
        · have pinned := Shared.threadId_pushed new
          obtain ⟨⟨job, ticket⟩, entry, rfl⟩ := List.mem_map.mp new
          refine pushes jobs threadId after sends none sleeper before job ?_ allows free
          have named := List.mem_map_of_mem (f := Prod.fst) entry
          rwa [List.zipIdx_map_fst] at named
  | expire self tickled ids next goesOn =>
      obtain rfl | ⟨-, count, rfl⟩ := goesOn <;> exact .onWay (.inl trivial)
  | test tests =>
      cases tests with
      | inactive => exact .onWay (.inl trivial)
      | _ =>
          exact alert.quiet le_rfl (by rw [was]; exact not_false) (by rw [was]; exact nofun)
            (fun _ => by rw [was]; trivial) rfl fun _ _ => id
  | enter | waking | lock | elsewhere | skip | erase | tickle | drop | dropping | yieldToHold
  | yieldToReady | ends | leaving | returned | ready | unready | recycle | forget | suspend | hold
  | idleBase | wake | timeout | event | stale | drain | handled | idled =>
      exact .onWay (.inl trivial)
  | resetFails | swapInFails | yieldFails => exact .onWay (.inr rfl)
  | stop | leave =>
      exact alert.quiet le_rfl (by rw [was]; exact not_false) (by rw [was]; exact nofun) False.elim
        rfl fun _ _ => id
  | stopping =>
      exact alert.quiet le_rfl (by rw [was]; exact not_false) (by rw [was]; exact nofun) False.elim
        rfl fun _ _ => id
  | woken =>
      exact alert.quiet le_rfl (by rw [was]; exact Nat.lt_irrefl 0) (by rw [was]; exact nofun)
        False.elim rfl fun _ _ => id
  | nothing | idle =>
      exact alert.quiet le_rfl (by rw [was]; exact not_false) (by rw [was]; exact nofun)
        (fun _ => by rw [was]; trivial) rfl fun _ _ => id

theorem Alert.step {action : Action} (alert : Alert state) (named : Named state)
    (heard : Heard state action) (taken : step state action = some later) :
    Alert later ∧ Named later := by
  refine step_cases (motive := fun later => Alert later ∧ Named later) taken ?_
  intro thread now choice shared next actor was moves
  obtain ⟨exist, tickles, pushes⟩ := heard
  simp only [actor, was] at exist tickles pushes
  exact ⟨moves.alert alert named was tickles pushes, moves.named named was exist⟩

end Alert

section Runs

variable {start state : State}

/-- No worker sleeps while it has work. -/
theorem wakeful (initial : Initial start) (run : Runs step Heard start state) : Wakeful state := by
  have both : Alert state ∧ Named state := by
    refine @Runs.invariant _ _ _ _ _ _ (fun state => Alert state ∧ Named state)
      (fun _ _ _ both heard taken => both.1.step both.2 heard taken) run ⟨?_, ?_, ?_, ?_⟩
    · rintro ⟨sleeper, -, task, member, -⟩
      rw [initial.funFibers] at member
      cases member
    · intro thread fiber member
      rw [initial.threads] at member
      cases member
    · intro fiber member
      rw [Shared.queued, initial.funFibers] at member
      cases member
    · intro thread
      rw [initial.threads]
      trivial
  intro thread self waiting task member allows free none
  have coming := both.1 ⟨thread, by rw [waiting]; trivial, task, member, allows, free⟩
  exact coming.resolve_left (by rw [none]; exact Nat.lt_irrefl 0)

/-- A worker finds nothing and waits; a callback is scheduled, and its byte written. -/
def tickleRun : List Action :=
  .enter 0 :: List.replicate 7 (.exec 0 .go) ++
    [.exec 1 (.schedule [.func] none), .exec 1 .go, .exec 1 .go]

/-- Every call of `Schedule` finds the queue empty, and every `Tickle` an idle thread. -/
def hears (state : State) (action : Action) : Bool :=
  let now := state.threads action.actor.1
  decide ((now.enqueues action.actor.2).filterMap Job.fiber? = []) &&
    match now with
    | .tickling _ => state.shared.isIOManager && decide (0 < state.shared.idleThreadNum)
    | .writing _ => true
    | _ => state.shared.funFibers.isEmpty

theorem hears_sound (state : State) (action : Action) (passes : hears state action) :
    Heard state action := by
  unfold hears at passes
  obtain ⟨callbacks, passes⟩ := Bool.and_eq_true_iff.mp passes
  rw [decide_eq_true_eq] at callbacks
  refine ⟨fun fiber member => ?_, fun after tickles none => ?_, fun jobs threadId after sends some => ?_⟩
  · rw [callbacks] at member
    cases member
  · simp only [tickles, Bool.and_eq_true, decide_eq_true_eq] at passes
    exact absurd passes none
  · split at passes
    case h_1 tickles => exact absurd tickles (sends.elsewhere.2 _).1
    case h_2 writes => exact absurd writes (sends.elsewhere.2 _).2
    case h_3 => exact absurd (List.isEmpty_iff.mp passes) some

def tickledWorker : State := (replay step hears tickleRun (unstarted true 1)).get (by decide)

theorem wakeful_tickled : tickledWorker.shared.pipe = 1 ∧
    tickledWorker.threads 0 = .waiting ⟨none, false⟩ ∧ Wakeful tickledWorker :=
  ⟨by decide, by decide, wakeful (initial_unstarted true 1)
    (.of_replay hears_sound (Option.some_get _).symm)⟩

/-- The callback is scheduled when the worker has ended its scan and is not yet idle. -/
def missRun : List Action :=
  .enter 0 :: List.replicate 2 (.exec 0 .go) ++
    [.exec 1 (.schedule [.func] none), .exec 1 .go] ++ List.replicate 5 (.exec 0 .go)

def sleeping : State := (replay step (fun _ _ => true) missRun (unstarted true 1)).get (by decide)

theorem step_frame ⦃state : State⦄ ⦃action : Action⦄ ⦃next : State⦄ ⦃other : Nat⦄
    (taken : step state action = some next) (apart : some action.actor.1 ≠ some other) :
    next.threads other = state.threads other := by
  refine step_cases (motive := fun next => next.threads other = state.threads other) taken ?_
  intro thread now choice shared next actor was moves
  rw [actor] at apart
  exact Config.put_other fun same => apart (congrArg some same.symm)

theorem not_wakeful : ¬ ∀ start state : State, Initial start → start.shared.isIOManager →
    Runs step (fun _ _ => True) start state → Wakeful state := by
  intro claimed
  have run : replay step (fun _ _ => true) missRun (unstarted true 1) = some sleeping :=
    (Option.some_get _).symm
  have still : ∀ thread, sleeping.threads thread = .outside ∨
      sleeping.threads thread = .waiting ⟨none, false⟩ :=
    replay_forall (motive := fun thread : Thread => thread = .outside ∨
      thread = .waiting ⟨none, false⟩) step_frame 2 run (by decide) (by decide) fun _ _ => .inl rfl
  obtain ⟨other, coming⟩ := claimed (unstarted true 1) sleeping (initial_unstarted true 1) rfl
    (.of_replay (fun _ _ _ => trivial) run) 0 ⟨none, false⟩ (by decide) ⟨0, .func, none⟩ (by decide)
    (.inl rfl) nofun (by decide)
  obtain outside | waiting := still other
  · rw [outside] at coming
    exact coming.elim id nofun
  · rw [waiting] at coming
    exact coming.elim id nofun

end Runs

end Xten.Scheduler
