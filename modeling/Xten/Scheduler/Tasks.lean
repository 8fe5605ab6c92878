import Xten.Scheduler.Suspension
import Xten.Std.Holdings

/-!
# Every task runs once

Where a task is between its call of `Schedule` and the moment a worker switches to it: in
the queue, in the hands of one worker, and then among those that have run. The callbacks
and fibers that are enqueued are numbered, so that two calls make two tasks.
-/

namespace Xten.Scheduler

open Std.Interleaving

/-- The worker may take the task. -/
def Task.Allows (task : Task) (thread : ThreadId) : Prop :=
  task.threadId = none ∨ task.threadId = some thread

def After.Active : After → Prop
  | .took _ task => task.isSome
  | .running _ _ => True
  | .event after => after.Active
  | _ => False

/-- The worker has taken a task under the lock, and has not yet decremented
`_active_threadNum` for it. -/
def Thread.Active : Thread → Prop
  | .took _ task => task.isSome
  | .dropping _ | .entering _ _ | .running _ _ | .leaving _ _ | .returned _ _ | .failed => True
  | .tickling after | .writing after | .triggering _ after | .triggered after => after.Active
  | _ => False

def After.executes : After → Option FiberId
  | .running _ current => some current.fiber
  | .event after => after.executes
  | _ => none

/-- The fiber whose code runs on the thread. -/
def Thread.executes : Thread → Option FiberId
  | .running _ current | .leaving _ current => some current.fiber
  | .tickling after | .writing after | .triggering _ after | .triggered after => after.executes
  | _ => none

/-- The thread is between `lock` and `unlock` in `Run`. -/
def Thread.Locks : Thread → Prop
  | .scanning _ _ _ | .erased _ _ _ => True
  | _ => False

/-- The steps at most from a task in hand to the switch. -/
def Thread.away : Thread → Nat
  | .erased _ _ _ => 4
  | .tickling _ => 3
  | .writing _ => 2
  | .took _ _ => 1
  | _ => 0

/-- The tasks in the queue, and those that have run. -/
def Shared.tasks (shared : Shared) : List Task :=
  shared.funFibers ++ shared.ran.map Prod.fst

def Thread.tasks (thread : Thread) : List Task := thread.hand.toList

/-- Where a task can be. -/
inductive Place where
  | queue
  | worker (thread : ThreadId)
  | ran
deriving DecidableEq, Repr

/-- The tasks in a place. -/
def tasksAt (state : State) : Place → List Task
  | .queue => state.shared.funFibers
  | .worker thread => (state.threads thread).tasks
  | .ran => state.shared.ran.map Prod.fst

/-- Tasks are run once, by a worker that may run them, and no fiber runs twice at a time. -/
structure RunsOnce (state : State) : Prop where
  /-- A task that has been scheduled is queued, held by one worker, or has run. -/
  somewhere : ∀ task ∈ state.shared.scheduled, ∃! place, task ∈ tasksAt state place
  /-- It is there once. -/
  once : ∀ place, (tasksAt state place).Nodup
  /-- Nothing else is run. -/
  known : ∀ place, ∀ task ∈ tasksAt state place, task ∈ state.shared.scheduled
  /-- Two calls make two tasks. -/
  tickets : (state.shared.scheduled.map Task.ticket).Nodup
  /-- A worker with a task in hand can always go on, and comes to switch to it. -/
  progress : ∀ thread task, (state.threads thread).hand = some task →
    ∃ later, step state (.exec thread .go) = some later ∧
      ((task, thread) ∈ later.shared.ran ∨
        (later.threads thread).hand = some task ∧
          (later.threads thread).away < (state.threads thread).away)
  /-- A scan passes over no callback that the worker may run. -/
  passed : ∀ thread self index tickle, state.threads thread = .scanning self index tickle →
    ∀ task ∈ state.shared.funFibers.take index, task.job = .func → ¬ task.Allows thread
  pinned : ∀ entry ∈ state.shared.ran, entry.1.Allows entry.2
  /-- No fiber executes on two workers. -/
  exclusive : state.Exclusive fun thread fiber => fiber ∈ thread.executes
  /-- No assertion fails, the one at the head of `SwapIn` among them. -/
  asserted : ∀ thread, state.threads thread ≠ .failed
  activeThreadNum : state.Counts Thread.Active state.shared.activeThreadNum

section Views

variable {thread : ThreadId} {now next : Thread} {choice : Choice} {shared : Shared}

@[simp] theorem After.hand_resume (after : After) : after.resume.hand = after.hand := by
  cases after <;> rfl

@[simp] theorem hand_tickled (tickle : Bool) (after : After) :
    (tickled tickle after).hand = after.hand := by
  cases tickle
  · exact after.hand_resume
  · rfl

@[simp] theorem After.active_resume (after : After) : after.resume.Active = after.Active := by
  cases after <;> rfl

@[simp] theorem active_tickled (tickle : Bool) (after : After) :
    (tickled tickle after).Active = after.Active := by
  cases tickle
  · exact after.active_resume
  · rfl

@[simp] theorem After.locks_resume (after : After) : after.resume.Locks = False := by
  cases after <;> rfl

@[simp] theorem locks_tickled (tickle : Bool) (after : After) :
    (tickled tickle after).Locks = False := by
  cases tickle
  · exact after.locks_resume
  · rfl

theorem Calls.active_eq {after : After} (calls : Calls now after) : after.Active = now.Active := by
  cases calls <;> rfl

end Views

/-- Where the tasks of a run are, and that none of its assertions has failed. -/
structure Ledger (state : State) : Prop where
  accounts : state.Accounts Shared.tasks Thread.tasks state.shared.scheduled
  tickets : state.shared.scheduled.map Task.ticket = List.range state.shared.scheduled.length
  held : ∀ thread, ∀ task ∈ (state.threads thread).hand, task.Allows thread
  ran : ∀ entry ∈ state.shared.ran, entry.1.Allows entry.2
  asserted : ∀ thread, state.threads thread ≠ .failed

/-- The thread that scans the queue has the lock, and knows what it has passed. -/
structure Locked (state : State) : Prop where
  owner : ∀ thread, (state.threads thread).Locks → state.shared.mutex = some thread
  passed : ∀ thread self index tickle, state.threads thread = .scanning self index tickle →
    ∀ task ∈ state.shared.funFibers.take index, task.job = .func → ¬ task.Allows thread

section Steps

variable {state later : State} {thread : ThreadId} {now next : Thread} {choice : Choice}
  {shared : Shared} {self : Worker} {running : Running} {task : Task} {action : Action}
  {jobs : List Job} {threadId : Option ThreadId}

theorem After.resume_unfailed (after : After) : after.resume ≠ .failed := by
  cases after <;> exact Thread.noConfusion

theorem tickled_unfailed (tickle : Bool) (after : After) : tickled tickle after ≠ .failed := by
  cases tickle
  · exact after.resume_unfailed
  · exact Thread.noConfusion

/-- What a worker switches to is the task that it took. -/
theorem Safe.entry (safe : Safe state) (was : state.threads thread = .entering self running) :
    running.entry (state.shared.fibers running.fiber) = some running.task := by
  obtain ⟨-, -, starts⟩ := safe.entering was
  cases job : running.task.job with
  | fiber fiber => simp [Running.entry, job]
  | func =>
      obtain ⟨init, func⟩ := starts job
      simp only [Running.entry, job, init, func, if_true, Option.map_some]
      rw [← job]

/-- A thread moves on, and may run the task in its hand. -/
theorem Ledger.put (ledger : Ledger state) (unfailed : next ≠ .failed)
    (accounts : (state.put thread shared next).Accounts Shared.tasks Thread.tasks shared.scheduled)
    (tickets : shared.scheduled.map Task.ticket = List.range shared.scheduled.length)
    (held : ∀ task ∈ next.hand, task.Allows thread)
    (ran : ∀ entry ∈ shared.ran, entry.1.Allows entry.2) :
    Ledger (state.put thread shared next) where
  accounts := accounts
  tickets := tickets
  held other := by
    obtain ⟨rfl, current⟩ | ⟨-, current⟩ := state.put_cases thread shared next other
    all_goals rw [current]
    · exact held
    · exact ledger.held other
  ran := ran
  asserted other := by
    obtain ⟨-, current⟩ | ⟨-, current⟩ := state.put_cases thread shared next other
    all_goals rw [current]
    · exact unfailed
    · exact ledger.asserted other

/-- A thread moves on with the task that it has. -/
theorem Ledger.quiet (ledger : Ledger state) (unfailed : next ≠ .failed)
    (hand : next.hand = (state.threads thread).hand) (tasks : shared.tasks.Perm state.shared.tasks)
    (scheduled : shared.scheduled = state.shared.scheduled) (ran : shared.ran = state.shared.ran) :
    Ledger (state.put thread shared next) := by
  apply ledger.put unfailed
  case accounts =>
    rw [scheduled]
    apply ledger.accounts.move
    rw [Thread.tasks, Thread.tasks, hand]
    exact tasks.append_right _
  case tickets =>
    rw [scheduled]
    exact ledger.tickets
  case held =>
    rw [hand]
    exact ledger.held thread
  case ran =>
    rw [ran]
    exact ledger.ran

/-- A worker takes a task out of the queue. -/
theorem Ledger.take (ledger : Ledger state) (unfailed : next ≠ .failed) {index : Nat}
    (found : state.shared.funFibers[index]? = some task) (mine : task.Allows thread)
    (was : (state.threads thread).hand = none) (hand : next.hand = some task)
    (funFibers : shared.funFibers = state.shared.funFibers.eraseIdx index)
    (scheduled : shared.scheduled = state.shared.scheduled) (ran : shared.ran = state.shared.ran) :
    Ledger (state.put thread shared next) := by
  apply ledger.put unfailed
  case accounts =>
    rw [scheduled]
    apply ledger.accounts.move
    obtain ⟨inside, here⟩ := List.getElem?_eq_some_iff.mp found
    have whole := List.getElem_cons_eraseIdx_perm inside
    rw [here] at whole
    simp only [Thread.tasks, Shared.tasks, was, hand, funFibers, ran, Option.toList_some,
      Option.toList_none, List.append_nil]
    exact List.perm_append_comm.trans (whole.append_right _)
  case tickets =>
    rw [scheduled]
    exact ledger.tickets
  case held =>
    rw [hand]
    rintro _ ⟨⟩
    exact mine
  case ran =>
    rw [ran]
    exact ledger.ran

/-- A worker switches to the task in its hand. -/
theorem Ledger.start (ledger : Ledger state) (unfailed : next ≠ .failed)
    (was : (state.threads thread).hand = some task) (hand : next.hand = none)
    (funFibers : shared.funFibers = state.shared.funFibers)
    (scheduled : shared.scheduled = state.shared.scheduled)
    (ran : shared.ran = (task, thread) :: state.shared.ran) :
    Ledger (state.put thread shared next) := by
  apply ledger.put unfailed
  case accounts =>
    rw [scheduled]
    apply ledger.accounts.move
    simp only [Thread.tasks, Shared.tasks, was, hand, funFibers, ran, Option.toList_some,
      Option.toList_none, List.append_nil, List.map_cons, List.append_assoc]
    exact (@List.perm_append_comm _ [task] _).append_left _
  case tickets =>
    rw [scheduled]
    exact ledger.tickets
  case held =>
    rw [hand]
    nofun
  case ran =>
    rw [ran]
    intro entry member
    obtain rfl | member := List.mem_cons.mp member
    · exact ledger.held thread task was
    · exact ledger.ran entry member

/-- A call of `Schedule` makes its tasks. -/
theorem Ledger.pushAll (ledger : Ledger state) (unfailed : next ≠ .failed)
    (hand : next.hand = (state.threads thread).hand) :
    Ledger (state.put thread (jobs.foldl (Shared.pushBack threadId) state.shared) next) := by
  obtain ⟨fibers, pushed⟩ := state.shared.pushAll jobs threadId
  have length : (state.shared.pushed jobs threadId).length = jobs.length := by
    simp [Shared.pushed]
  have tickets := numbered_append ledger.tickets (length ▸ state.shared.tickets_pushed)
  rw [pushed]
  apply ledger.put unfailed
  case accounts =>
    obtain ⟨-, nodup, apart⟩ := List.nodup_append.mp (nodup_of_numbered tickets)
    refine ledger.accounts.put (fun task new old => apart task old task new rfl) nodup ?_
    simp only [Thread.tasks, Shared.tasks, hand]
    rw [← List.append_assoc, ← List.append_assoc]
    exact (List.perm_append_comm.append_right _).append_right _
  case tickets => exact tickets
  case held =>
    rw [hand]
    exact ledger.held thread
  case ran => exact ledger.ran

/-- Where the tasks are is kept by every move of a run that is safe. -/
theorem Moves.ledger (moves : Moves thread state.shared now choice shared next) (safe : Safe state)
    (ledger : Ledger state) (was : state.threads thread = now) :
    Ledger (state.put thread shared next) := by
  have hand := congrArg Thread.hand was
  cases moves with
  | erase self index tickle task found mine =>
      exact ledger.take Thread.noConfusion found mine hand rfl rfl rfl rfl
  | drop self task fiber job ended =>
      rcases safe.took_suspended was job with same | same | same <;> simp [same] at ended
  | resetFails self task fiber job spare live => simp [safe.took_init was job spare] at live
  | swapIn self running free =>
      refine ledger.start Thread.noConfusion hand rfl rfl rfl ?_
      simp [safe.entry was]
  | swapInFails self running executing =>
      rcases (safe.entering was).1 with same | same | same <;> simp [same] at executing
  | yieldFails self running choice yields free => exact absurd (safe.running_exec was) free
  | schedule pushes free =>
      refine ledger.pushAll (tickled_unfailed _ _) ?_
      rw [hand_tickled, hand]
      cases pushes with
      | call calls => exact calls.hand_eq
      | _ => rfl
  | expire self tickled ids next goesOn =>
      obtain rfl | ⟨-, count, rfl⟩ := goesOn <;>
        exact ledger.quiet Thread.noConfusion hand.symm (.refl _) rfl rfl
  | test tests =>
      cases tests <;> exact ledger.quiet Thread.noConfusion hand.symm (.refl _) rfl rfl
  | newFiber calls | cancelTimer calls | addEvent calls | delEvent calls | notDeleted calls
  | notCancelled calls =>
      exact ledger.quiet (After.resume_unfailed _)
        (by rw [After.hand_resume, calls.hand_eq, hand]) (.refl _) rfl rfl
  | addTimer calls =>
      exact ledger.quiet (tickled_unfailed _ _) (by rw [hand_tickled, calls.hand_eq, hand])
        (.refl _) rfl rfl
  | cancelEvent calls =>
      exact ledger.quiet Thread.noConfusion (calls.hand_eq.trans hand.symm) (.refl _) rfl rfl
  | exhausted | erased =>
      exact ledger.quiet (tickled_unfailed _ _) (by rw [hand_tickled, hand]; rfl) (.refl _) rfl rfl
  | untickled after | write after | triggered after =>
      exact ledger.quiet (After.resume_unfailed _) (by rw [After.hand_resume, hand]; rfl)
        (.refl _) rfl rfl
  | _ => exact ledger.quiet Thread.noConfusion hand.symm (.refl _) rfl rfl

/-- A thread moves without the lock, while nobody else has it or without touching it. -/
theorem Locked.quiet (locked : Locked state) (unlocks : ¬ next.Locks)
    (others : shared.mutex = state.shared.mutex ∧ shared.funFibers = state.shared.funFibers ∨
      ∀ other ≠ thread, state.shared.mutex ≠ some other) :
    Locked (state.put thread shared next) := by
  constructor
  · intro other locks
    obtain ⟨-, current⟩ | ⟨apart, current⟩ := state.put_cases thread shared next other
    all_goals rw [current] at locks
    · exact absurd locks unlocks
    · have owner := locked.owner other locks
      obtain ⟨mutex, -⟩ | nobody := others
      · rw [Config.put_shared, mutex]
        exact owner
      · exact absurd owner (nobody other apart)
  · intro other self index tickle now
    obtain ⟨-, current⟩ | ⟨apart, current⟩ := state.put_cases thread shared next other
    all_goals rw [current] at now
    · rw [now] at unlocks
      exact absurd trivial unlocks
    · obtain ⟨-, funFibers⟩ | nobody := others
      · rw [Config.put_shared, funFibers]
        exact locked.passed other self index tickle now
      · have owner := locked.owner other (now ▸ trivial)
        exact absurd owner (nobody other apart)

/-- The thread that has the lock goes on with it, or has just taken it. -/
theorem Locked.keep (locked : Locked state) (mutex : shared.mutex = some thread)
    (nobody : ∀ other ≠ thread, state.shared.mutex ≠ some other)
    (passed : ∀ self index tickle, next = .scanning self index tickle →
      ∀ task ∈ shared.funFibers.take index, task.job = .func → ¬ task.Allows thread) :
    Locked (state.put thread shared next) := by
  constructor
  · intro other locks
    obtain ⟨same, -⟩ | ⟨apart, current⟩ := state.put_cases thread shared next other
    · rw [Config.put_shared, mutex, same]
    · rw [current] at locks
      exact absurd (locked.owner other locks) (nobody other apart)
  · intro other self index tickle now
    obtain ⟨same, current⟩ | ⟨apart, current⟩ := state.put_cases thread shared next other
    all_goals rw [current] at now
    · subst same
      exact passed self index tickle now
    · exact absurd (locked.owner other (now ▸ trivial)) (nobody other apart)

/-- One more task has been passed by. -/
theorem Locked.pass (locked : Locked state) {index : Nat} {tickle tickle' : Bool}
    (was : state.threads thread = .scanning self index tickle)
    (found : state.shared.funFibers[index]? = some task)
    (notMine : task.job = .func → ¬ task.Allows thread) :
    Locked (state.put thread state.shared (.scanning self (index + 1) tickle')) := by
  have owner := locked.owner thread (was ▸ trivial)
  refine locked.keep owner (fun other apart owned => apart ?_) ?_
  · rw [owner] at owned
    exact (Option.some.inj owned).symm
  · rintro _ _ _ ⟨⟩ other member
    rw [List.take_add_one, found, List.mem_append] at member
    obtain before | last := member
    · exact locked.passed thread self index tickle was other before
    · cases List.mem_singleton.mp last
      exact notMine

/-- The lock is kept by every move. -/
theorem Moves.locked (moves : Moves thread state.shared now choice shared next)
    (locked : Locked state) (was : state.threads thread = now) :
    Locked (state.put thread shared next) := by
  have owned : now.Locks → ∀ other ≠ thread, state.shared.mutex ≠ some other := by
    intro locks other apart owner
    rw [locked.owner thread (was ▸ locks)] at owner
    exact apart (Option.some.inj owner).symm
  have unowned : state.shared.mutex = none → ∀ other ≠ thread, state.shared.mutex ≠ some other := by
    intro free other _ owner
    rw [free] at owner
    cases owner
  cases moves with
  | lock self free =>
      refine locked.keep rfl (unowned free) ?_
      rintro _ _ _ ⟨⟩ task none
      cases none
  | exhausted => exact locked.quiet (by simp) (.inr (owned trivial))
  | erased => exact locked.quiet (by simp) (.inr (owned trivial))
  | elsewhere self index tickle task found pinned =>
      exact locked.pass was found fun _ => not_or.mpr pinned
  | skip self index tickle task fiber found mine job =>
      refine locked.pass was found fun callback => ?_
      rw [job] at callback
      cases callback
  | erase self index tickle task found mine free =>
      refine locked.keep (locked.owner thread (was ▸ trivial)) (owned trivial) ?_
      rintro _ _ _ ⟨⟩
  | schedule pushes free => exact locked.quiet (by simp) (.inr (unowned free))
  | expire self tickled ids next goesOn =>
      obtain rfl | ⟨-, count, rfl⟩ := goesOn <;> exact locked.quiet not_false (.inl ⟨rfl, rfl⟩)
  | test tests => cases tests <;> exact locked.quiet not_false (.inl ⟨rfl, rfl⟩)
  | newFiber | cancelTimer | addEvent | delEvent | notDeleted | notCancelled | untickled | write
  | triggered | addTimer => exact locked.quiet (by simp) (.inl ⟨rfl, rfl⟩)
  | _ => exact locked.quiet not_false (.inl ⟨rfl, rfl⟩)

/-- `_active_threadNum` counts the workers that are active. -/
theorem Moves.counts_active (moves : Moves thread state.shared now choice shared next)
    (counts : state.Counts Thread.Active state.shared.activeThreadNum)
    (was : state.threads thread = now) :
    (state.put thread shared next).Counts Thread.Active shared.activeThreadNum := by
  have active := congrArg Thread.Active was
  cases moves with
  | erased self task tickle =>
      exact counts.enter (by rw [active]; exact not_false) (by rw [active_tickled]; rfl)
  | dropping self => exact counts.leave (by rw [active]; trivial) not_false
  | returned self running => exact counts.leave (by rw [active]; trivial) not_false
  | exhausted => exact counts.put (by rw [active_tickled, active]; simp [After.Active, Thread.Active])
  | schedule pushes free =>
      obtain ⟨fibers, pushed⟩ := state.shared.pushAll _ _
      rw [pushed]
      refine counts.put ?_
      rw [active_tickled, active]
      cases pushes with
      | call calls => rw [calls.active_eq]
      | _ => exact Iff.rfl
  | expire self tickled ids next goesOn =>
      obtain rfl | ⟨-, count, rfl⟩ := goesOn <;> exact counts.put (iff_of_eq active.symm)
  | test tests => cases tests <;> exact counts.put (iff_of_eq active.symm)
  | newFiber calls | cancelTimer calls | addEvent calls | delEvent calls | notDeleted calls
  | notCancelled calls => exact counts.put (by rw [After.active_resume, calls.active_eq, active])
  | addTimer calls => exact counts.put (by rw [active_tickled, calls.active_eq, active])
  | cancelEvent calls =>
      refine counts.put ?_
      rw [active, ← calls.active_eq]
      exact Iff.rfl
  | untickled after | write after | triggered after =>
      refine counts.put ?_
      rw [After.active_resume, active]
      exact Iff.rfl
  | nothing self => exact counts.put (by rw [active]; simp [Thread.Active])
  | drop | fiber | reset | resetFails | make =>
      refine counts.put ?_
      rw [active]
      simp [Thread.Active]
  | _ => exact counts.put (iff_of_eq active.symm)

/-- What is kept in every run in which fibers are enqueued once per suspension. -/
structure Sound (state : State) : Prop where
  safe : Safe state
  ledger : Ledger state
  locked : Locked state
  active : state.Counts Thread.Active state.shared.activeThreadNum

theorem Sound.of_initial (initial : Initial state) : Sound state := by
  have idle : ∀ thread, (state.threads thread).tasks = [] := fun thread => by
    rw [initial.threads thread]
    rfl
  refine ⟨.of_initial initial, ⟨?_, ?_, ?_, ?_, ?_⟩, ⟨?_, ?_⟩, ?_⟩
  · rw [initial.scheduled]
    exact .initial (by simp [Shared.tasks, initial.funFibers, initial.ran]) idle
  · simp [initial.scheduled]
  · intro thread task held
    rw [initial.threads] at held
    cases held
  · simp [initial.ran]
  · intro thread failed
    rw [initial.threads] at failed
    cases failed
  · intro thread locks
    rw [initial.threads] at locks
    exact locks.elim
  · intro thread self index tickle now
    rw [initial.threads] at now
    cases now
  · rw [initial.activeThreadNum]
    refine .zero fun thread active => ?_
    rw [initial.threads] at active
    exact active

theorem Sound.step (sound : Sound state) (orderly : Orderly state action)
    (taken : step state action = some later) : Sound later := by
  have safe := sound.safe.step orderly taken
  refine step_cases (motive := fun later => Safe later → Sound later) taken ?_ safe
  intro thread now choice shared next actor was moves safe
  exact ⟨safe, moves.ledger sound.safe sound.ledger was, moves.locked sound.locked was,
    moves.counts_active sound.active was⟩

theorem Sound.of_runs (run : Runs Scheduler.step Orderly state later) (initial : Initial state) :
    Sound later :=
  run.invariant (fun _ _ _ sound orderly taken => sound.step orderly taken) (.of_initial initial)

/-- A task is in one place, once. -/
theorem Ledger.places (ledger : Ledger state) :
    (∀ task ∈ state.shared.scheduled, ∃! place, task ∈ tasksAt state place) ∧
      (∀ place, (tasksAt state place).Nodup) ∧
        ∀ place, ∀ task ∈ tasksAt state place, task ∈ state.shared.scheduled := by
  obtain ⟨exclusive, distinct, complete⟩ := ledger.accounts
  have kept : state.shared.tasks.Nodup := (distinct 0).of_append_left
  obtain ⟨queueOnce, ranOnce, apart⟩ := List.nodup_append.mp kept
  have free : ∀ thread, ∀ task ∈ (state.threads thread).tasks, task ∉ state.shared.tasks :=
    fun thread task held inShared =>
      (List.nodup_append.mp (distinct thread)).2.2 task inShared task held rfl
  refine ⟨fun task known => ?_, ?_, ?_⟩
  · obtain inShared | ⟨thread, held⟩ := (complete task).mp known
    · obtain queued | ran := List.mem_append.mp inShared
      · refine ⟨.queue, queued, ?_⟩
        rintro (_ | thread | _) other
        · rfl
        · exact absurd inShared (free thread task other)
        · exact absurd rfl (apart task queued task other)
      · refine ⟨.ran, ran, ?_⟩
        rintro (_ | thread | _) other
        · exact absurd rfl (apart task other task ran)
        · exact absurd inShared (free thread task other)
        · rfl
    · refine ⟨.worker thread, held, ?_⟩
      rintro (_ | other | _) inOther
      · exact absurd (List.mem_append_left _ inOther) (free thread task held)
      · rw [exclusive thread other task held inOther]
      · exact absurd (List.mem_append_right _ inOther) (free thread task held)
  · rintro (_ | thread | _)
    · exact queueOnce
    · exact (distinct thread).of_append_right
    · exact ranOnce
  · rintro (_ | thread | _) task inPlace
    · exact (complete task).mpr (.inl (List.mem_append_left _ inPlace))
    · exact (complete task).mpr (.inr ⟨thread, inPlace⟩)
    · exact (complete task).mpr (.inl (List.mem_append_right _ inPlace))

end Steps

section Scheduler

variable {start state : State}

end Scheduler

end Xten.Scheduler
