import Xten.Scheduler.LocalMoves
import Xten.Std.Holdings

/-!
# Local queues conserve tasks

Where a task is from its call of `Schedule` on: on its way to a queue, in a queue, or
taken by a worker. `Stock` is the invariant of every run; it says as well that the sizes
are the lengths of the queues, and that a task which names a queue is in no other.
-/

namespace Xten.Scheduler.LocalQueues

open Std.Interleaving

/-- The task may be in the queue: it names no other one. -/
def Belongs (threadNum queue : Nat) (task : Task) : Prop :=
  ∀ index ∈ task.threadId, index < threadNum → queue = index

/-- The tasks on their way to a queue: those of a call of `Schedule`, or those that
`autoLoadBalance` has taken out of another one. -/
def Thread.transit : Thread → List Task
  | .selecting tasks _ _ | .choosing tasks _ _ _ _ | .pushing tasks _ _ => tasks
  | _ => []

/-- Where a task can be. -/
inductive Place where
  | transit (thread : Nat)
  | queue (index : Nat)
  | taken (index : Nat)
deriving DecidableEq, Repr

/-- The tasks in a place. -/
def tasksAt (state : State) : Place → List Task
  | .transit thread => (state.threads thread).transit
  | .queue index => state.shared.localQueues index
  | .taken index => (state.shared.taken.filter fun entry => entry.2 = index).map Prod.fst

/-- The tasks in the queues, and those that have been taken. -/
def Shared.stored (shared : Shared) : List Task :=
  shelved shared.localQueues shared.threadNum ++ shared.taken.map Prod.fst

/-- The tasks are on their way to a queue where they may be. -/
def Thread.Routed (threadNum : Nat) : Thread → Prop
  | .selecting tasks threadId _ => ∀ task ∈ tasks, task.threadId = threadId
  | .choosing tasks _ bestQueue _ _ =>
      bestQueue < threadNum ∧ ∀ task ∈ tasks, ∀ queue, Belongs threadNum queue task
  | .pushing tasks queue _ => queue < threadNum ∧ ∀ task ∈ tasks, Belongs threadNum queue task
  | .measuring _ _ minQueue _ _ _ => ∀ queue ∈ minQueue, queue < threadNum
  | .unloading _ minQueue _ => minQueue < threadNum
  | _ => True

def After.Active : After → Prop
  | .running _ _ => True
  | _ => False

/-- The worker has taken a task, and has not yet decremented `_active_threadNum` for it. -/
def Thread.Active : Thread → Prop
  | .took _ task => task.isSome
  | .dropping _ | .entering _ _ | .running _ _ | .leaving _ _ | .returned _ _ | .failed => True
  | .selecting _ _ after | .choosing _ _ _ _ after | .pushing _ _ after
  | .measuring _ _ _ _ _ after | .unloading _ _ after => after.Active
  | _ => False

def After.Idle : After → Prop
  | .idle _ => True
  | _ => False

/-- The worker is in `Idle`. -/
def Thread.Idle : Thread → Prop
  | .idle _ | .idled _ => True
  | .selecting _ _ after | .choosing _ _ _ _ after | .pushing _ _ after
  | .measuring _ _ _ _ _ after | .unloading _ _ after => after.Idle
  | _ => False

/-- No task is lost or doubled, the sizes and counters are right, and a task that names a
queue gets to no other one. -/
structure Conserves (state : State) : Prop where
  /-- A task that has been scheduled is on its way, in a queue, or has been taken. -/
  somewhere : ∀ task ∈ state.shared.scheduled, ∃! place, task ∈ tasksAt state place
  /-- It is there once. -/
  once : ∀ place, (tasksAt state place).Nodup
  /-- There is nothing else. -/
  known : ∀ place, ∀ task ∈ tasksAt state place, task ∈ state.shared.scheduled
  /-- Two calls make two tasks. -/
  tickets : (state.shared.scheduled.map Task.ticket).Nodup
  queueSizes : ∀ queue,
    state.shared.queueSizes queue = (state.shared.localQueues queue).length
  activeThreadNum : state.Counts Thread.Active state.shared.activeThreadNum
  idleThreadNum : state.Counts Thread.Idle state.shared.idleThreadNum
  /-- No counter is below zero. -/
  unsigned : (∀ queue, 0 ≤ state.shared.queueSizes queue) ∧
    0 ≤ state.shared.activeThreadNum ∧ 0 ≤ state.shared.idleThreadNum
  /-- A task is queued in the queue that it names, and taken from there. -/
  named : ∀ task, ∀ index ∈ task.threadId, index < state.shared.threadNum →
    ∀ queue, task ∈ tasksAt state (.queue queue) ∨ task ∈ tasksAt state (.taken queue) →
      queue = index
  /-- It is about to be pushed into no other. -/
  bound : ∀ thread tasks queue after, state.threads thread = .pushing tasks queue after →
    ∀ task ∈ tasks, ∀ index ∈ task.threadId, index < state.shared.threadNum → queue = index

section Walk

variable {limit : Nat} {tasks : List Task} {task : Task}

/-- What is taken out and what is left are the tasks of the queue. -/
theorem walk_perm : ((walk limit tasks).1 ++ (walk limit tasks).2).Perm tasks := by
  fun_induction walk limit tasks with
  | case1 => exact .refl _
  | case2 => exact .refl _
  | case3 limit task tasks named ih => exact ih.cons task
  | case4 limit task tasks named ih => exact List.perm_middle.trans (ih.cons task)

theorem walk_length : (walk limit tasks).1.length ≤ limit := by
  fun_induction walk limit tasks with
  | case1 => exact Nat.zero_le _
  | case2 => exact le_rfl
  | case3 limit task tasks named ih => exact Nat.succ_le_succ ih
  | case4 limit task tasks named ih => exact ih

/-- No task that names a thread is taken out. -/
theorem walk_unnamed (member : task ∈ (walk limit tasks).1) : task.threadId = none := by
  fun_induction walk limit tasks with
  | case1 => cases member
  | case2 => cases member
  | case3 limit first tasks named ih =>
      obtain rfl | member := List.mem_cons.mp member
      · exact named
      · exact ih member
  | case4 limit first tasks named ih => exact ih member

/-- A walk over a queue, from its back. -/
theorem walk_queue {queue rest : List Task} (found : walk limit queue.reverse = (tasks, rest)) :
    (tasks ++ rest.reverse).Perm queue := by
  have whole : (tasks ++ rest).Perm queue.reverse := by
    have perm := @walk_perm limit queue.reverse
    rwa [found] at perm
  exact ((rest.reverse_perm.append_left tasks).trans whole).trans queue.reverse_perm

end Walk

/-- What the threads share about the tasks. -/
def Shared.queues (shared : Shared) :
    Nat × (Nat → List Task) × (Nat → Int) × List Task × List (Task × Nat) :=
  (shared.threadNum, shared.localQueues, shared.queueSizes, shared.scheduled, shared.taken)

/-- Where the tasks of a run are. -/
structure Stock (state : State) : Prop where
  threadNum : 0 < state.shared.threadNum
  accounts : state.Accounts Shared.stored Thread.transit state.shared.scheduled
  tickets : state.shared.scheduled.map Task.ticket = List.range state.shared.scheduled.length
  outside : ∀ queue, state.shared.threadNum ≤ queue → state.shared.localQueues queue = []
  queueSizes : ∀ queue,
    state.shared.queueSizes queue = (state.shared.localQueues queue).length
  queued : ∀ queue, ∀ task ∈ state.shared.localQueues queue,
    Belongs state.shared.threadNum queue task
  taken : ∀ entry ∈ state.shared.taken, Belongs state.shared.threadNum entry.2 entry.1
  routed : ∀ thread, (state.threads thread).Routed state.shared.threadNum

/-- The two counters are right. -/
structure Tally (state : State) : Prop where
  active : state.Counts Thread.Active state.shared.activeThreadNum
  idle : state.Counts Thread.Idle state.shared.idleThreadNum

/-- A thread that counts as before. -/
structure Steady (now next : Thread) : Prop where
  active : next.Active ↔ now.Active
  idle : next.Idle ↔ now.Idle

section Steps

variable {state later : State} {thread queue : Nat} {now next : Thread} {choice : Choice}
  {shared : Shared} {after : After} {task : Task} {rest : List Task} {jobs : List Job}
  {threadId : Option Nat}

@[simp] theorem After.transit_resume (after : After) : after.resume.transit = [] := by
  cases after <;> rfl

theorem After.routed_resume (after : After) (threadNum : Nat) : after.resume.Routed threadNum := by
  cases after <;> trivial

/-- A queue with tasks in it is one of the queues. -/
theorem Stock.inside (stock : Stock state) (some : state.shared.localQueues queue ≠ []) :
    queue < state.shared.threadNum :=
  Nat.lt_of_not_le fun beyond => some (stock.outside queue beyond)

/-- A thread moves, and the tasks are where they were. -/
theorem Stock.quiet (stock : Stock state) (same : shared.queues = state.shared.queues)
    (transit : next.transit = (state.threads thread).transit)
    (routed : next.Routed state.shared.threadNum) : Stock (state.put thread shared next) := by
  simp only [Shared.queues, Prod.mk.injEq] at same
  obtain ⟨threadNum, localQueues, queueSizes, scheduled, taken⟩ := same
  have stored : shared.stored = state.shared.stored := by
    rw [Shared.stored, Shared.stored, threadNum, localQueues, taken]
  constructor
  all_goals simp only [Config.put_shared, threadNum, localQueues, queueSizes, scheduled, taken]
  · exact stock.threadNum
  · exact stock.accounts.move (by rw [stored, transit])
  · exact stock.tickets
  · exact stock.outside
  · exact stock.queueSizes
  · exact stock.queued
  · exact stock.taken
  · intro other
    obtain ⟨-, current⟩ | ⟨-, current⟩ := state.put_cases thread shared next other
    all_goals rw [current]
    · exact routed
    · exact stock.routed other

/-- One queue is replaced: tasks move between it, the thread's hands and those that have
been taken. -/
theorem Stock.store (stock : Stock state) (kept : List Task) (new : List (Task × Nat))
    (inside : queue < state.shared.threadNum)
    (same : shared.queues = (state.shared.threadNum,
      Function.update state.shared.localQueues queue kept,
      Function.update state.shared.queueSizes queue kept.length, state.shared.scheduled,
      new ++ state.shared.taken))
    (perm : (new.map Prod.fst ++ (kept ++ next.transit)).Perm
      (state.shared.localQueues queue ++ (state.threads thread).transit))
    (queued : ∀ task ∈ kept, Belongs state.shared.threadNum queue task)
    (taken : ∀ entry ∈ new, Belongs state.shared.threadNum entry.2 entry.1)
    (routed : next.Routed state.shared.threadNum) : Stock (state.put thread shared next) := by
  simp only [Shared.queues, Prod.mk.injEq] at same
  obtain ⟨threadNum, localQueues, queueSizes, scheduled, taken'⟩ := same
  constructor
  all_goals simp only [Config.put_shared, threadNum, localQueues, queueSizes, scheduled, taken']
  · exact stock.threadNum
  · refine stock.accounts.move ?_
    have moved : ((new.map Prod.fst ++ next.transit) ++ kept).Perm
        ((state.threads thread).transit ++ state.shared.localQueues queue) := by
      rw [List.append_assoc]
      exact (List.perm_append_comm.append_left _).trans (perm.trans List.perm_append_comm)
    have whole := shelved_update inside moved
    simp only [Shared.stored, threadNum, localQueues, taken', List.map_append]
    rw [List.perm_iff_count] at whole ⊢
    intro item
    have count := whole item
    simp only [List.count_append] at count ⊢
    omega
  · exact stock.tickets
  · intro other beyond
    rw [Function.update_of_ne (Nat.ne_of_gt (inside.trans_le beyond))]
    exact stock.outside other beyond
  · intro other
    by_cases isQueue : other = queue
    · subst isQueue
      rw [Function.update_self, Function.update_self]
    · rw [Function.update_of_ne isQueue, Function.update_of_ne isQueue]
      exact stock.queueSizes other
  · intro other task member
    by_cases isQueue : other = queue
    · subst isQueue
      rw [Function.update_self] at member
      exact queued task member
    · rw [Function.update_of_ne isQueue] at member
      exact stock.queued other task member
  · intro entry member
    obtain isNew | old := List.mem_append.mp member
    · exact taken entry isNew
    · exact stock.taken entry old
  · intro other
    obtain ⟨-, current⟩ | ⟨-, current⟩ := state.put_cases thread shared next other
    all_goals rw [current]
    · exact routed
    · exact stock.routed other

/-- A worker takes a task out of a queue. -/
theorem Stock.take (stock : Stock state)
    (whole : (task :: rest).Perm (state.shared.localQueues queue))
    (was : (state.threads thread).transit = []) (hand : next.transit = [])
    (routed : next.Routed state.shared.threadNum) :
    Stock (state.put thread (state.shared.take queue task rest) next) := by
  have belong : ∀ other ∈ task :: rest, Belongs state.shared.threadNum queue other :=
    fun other member => stock.queued queue other (whole.mem_iff.mp member)
  have inside : queue < state.shared.threadNum :=
    stock.inside (List.ne_nil_of_mem (whole.mem_iff.mp List.mem_cons_self))
  refine stock.store rest [(task, queue)] inside ?_ ?_ ?_ ?_ routed
  · have length := whole.length_eq
    rw [List.length_cons] at length
    simp [Shared.queues, Shared.take, Shared.store, stock.queueSizes queue, ← length]
  · rw [was, hand, List.append_nil, List.append_nil]
    exact whole
  · exact fun task member => belong task (List.mem_cons_of_mem _ member)
  · intro entry member
    rw [List.mem_singleton.mp member]
    exact belong task List.mem_cons_self

/-- `Schedule` is called, and its tasks are on their way. -/
theorem Stock.schedule (stock : Stock state) (free : (state.threads thread).transit = []) :
    Stock (state.put thread (state.shared.schedule jobs threadId after).1
      (state.shared.schedule jobs threadId after).2) := by
  have numbers : (state.shared.tasks jobs threadId).map Task.ticket =
      List.range' state.shared.scheduled.length (state.shared.tasks jobs threadId).length := by
    rw [Shared.tasks, List.map_map, List.length_map, List.length_zipIdx]
    exact List.zipIdx_map_snd _ jobs
  have tickets := numbered_append stock.tickets numbers
  obtain ⟨-, nodup, apart⟩ := List.nodup_append.mp (nodup_of_numbered tickets)
  refine ⟨stock.threadNum, ?_, tickets, stock.outside, stock.queueSizes, stock.queued,
    stock.taken, ?_⟩
  · refine stock.accounts.put (fun task new old => apart task old task new rfl) nodup ?_
    rw [free, List.append_nil]
    exact List.perm_append_comm
  · intro other
    obtain ⟨-, current⟩ | ⟨-, current⟩ := state.put_cases thread _ _ other
    all_goals rw [current]
    · intro task member
      obtain ⟨entry, -, rfl⟩ := List.mem_map.mp member
      rfl
    · exact stock.routed other

/-- The section of `Schedule`: all its tasks are pushed. -/
theorem Shared.foldl_pushBack (shared : Shared) (queue : Nat) (tasks : List Task) :
    tasks.foldl (Shared.pushBack queue) shared =
      shared.store queue (shared.localQueues queue ++ tasks) tasks.length := by
  induction tasks generalizing shared with
  | nil => simp [Shared.store]
  | cons task tasks ih =>
      rw [List.foldl_cons, ih]
      simp [Shared.pushBack, Shared.store, add_assoc, add_comm]

/-- A task that names none of the queues may be in any of them. -/
theorem belongs_of_unnamed {threadNum : Nat} (unnamed : threadId.filter (· < threadNum) = none)
    (same : task.threadId = threadId) : Belongs threadNum queue task := by
  intro index named inside
  rw [same] at named
  have found : threadId.filter (· < threadNum) = some index :=
    Option.filter_eq_some_iff.mpr ⟨named, decide_eq_true inside⟩
  rw [unnamed] at found
  cases found

/-- A search keeps to the queues that there are. -/
theorem Reads.routed (reads : Reads thread shared now choice next) (some : 0 < shared.threadNum)
    (routed : now.Routed shared.threadNum) : next.Routed shared.threadNum := by
  cases reads with
  | named tasks queue after inside =>
      refine ⟨inside, fun task member index named _ => ?_⟩
      rw [routed task member] at named
      exact Option.some.inj named
  | drawn tasks threadId after index unnamed inside =>
      exact ⟨inside, fun task member => belongs_of_unnamed unnamed (routed task member)⟩
  | compare tasks threadId after unnamed =>
      exact ⟨some, fun task member queue => belongs_of_unnamed unnamed (routed task member)⟩
  | less tasks index bestQueue min after inside => exact ⟨inside, routed.2⟩
  | notLess => exact routed
  | chosen tasks index bestQueue =>
      exact ⟨routed.1, fun task member => routed.2 task member bestQueue⟩
  | most => exact routed
  | fewest index maxQueue minQueue maxTask minTask after inside =>
      rintro queue ⟨⟩
      exact inside
  | between => exact routed
  | uneven => exact routed _ rfl
  | even index maxQueue minQueue maxTask minTask after => exact after.routed_resume _
  | _ => trivial

theorem Calls.transit_nil (calls : Calls now after) : now.transit = [] := by
  cases calls <;> rfl

theorem Reads.transit_eq (reads : Reads thread shared now choice next) :
    next.transit = now.transit := by
  cases reads with
  | even index maxQueue minQueue maxTask minTask after => exact after.transit_resume
  | _ => rfl

/-- No queue is involved in a switch. -/
theorem Switches.quiet {shared' : Shared} (switches : Switches shared now choice shared' next) :
    shared'.queues = shared.queues ∧ next.transit = now.transit ∧
      ∀ threadNum, next.Routed threadNum := by
  cases switches <;> exact ⟨rfl, rfl, fun _ => trivial⟩

/-- Every move keeps account of the tasks. -/
theorem Moves.stock (moves : Moves thread state.shared now choice shared next) (stock : Stock state)
    (was : state.threads thread = now) : Stock (state.put thread shared next) := by
  have transit := congrArg Thread.transit was
  have routed := stock.routed thread
  rw [was] at routed
  cases moves with
  | schedule calls => exact stock.schedule (transit.trans calls.transit_nil)
  | reschedule => exact stock.schedule transit
  | newFiber calls =>
      exact stock.quiet rfl (by rw [After.transit_resume, transit, calls.transit_nil])
        (After.routed_resume _ _)
  | autoLoadBalance calls =>
      exact stock.quiet rfl (transit.trans calls.transit_nil).symm nofun
  | read reads =>
      exact stock.quiet rfl (reads.transit_eq.trans transit.symm)
        (reads.routed stock.threadNum routed)
  | roundRobin tasks threadId after unnamed =>
      refine stock.quiet rfl transit.symm ⟨Nat.mod_lt _ stock.threadNum, fun task member => ?_⟩
      exact belongs_of_unnamed unnamed (routed task member)
  | push tasks queue after =>
      rw [Shared.foldl_pushBack]
      obtain ⟨inside, belong⟩ := routed
      refine stock.store (state.shared.localQueues queue ++ tasks) [] inside ?_ ?_ ?_ nofun
        (after.routed_resume _)
      · simp [Shared.queues, Shared.store, stock.queueSizes queue]
      · rw [After.transit_resume, transit]
        simp [Thread.transit]
      · intro task member
        obtain old | new := List.mem_append.mp member
        · exact stock.queued queue task old
        · exact belong task new
  | unload maxQueue minQueue after tasks rest found some =>
      have whole := walk_queue found
      have unnamed : ∀ task ∈ tasks, task.threadId = none := by
        have unnamed := @walk_unnamed 5 (state.shared.localQueues maxQueue).reverse
        rw [found] at unnamed
        exact fun task => unnamed
      have full : state.shared.localQueues maxQueue ≠ [] := by
        intro empty
        rw [empty] at whole
        exact some (List.append_eq_nil_iff.mp whole.eq_nil).1
      refine stock.store rest.reverse [] (stock.inside full) ?_ ?_ ?_ nofun ⟨routed, ?_⟩
      · have length := whole.length_eq
        rw [List.length_append] at length
        simp [Shared.queues, Shared.store, stock.queueSizes maxQueue, ← length]
      · rw [transit]
        simpa [Thread.transit] using List.perm_append_comm.trans whole
      · exact fun task member =>
          stock.queued maxQueue task (whole.mem_iff.mp (List.mem_append_right _ member))
      · intro task member index named
        rw [unnamed task member] at named
        cases named
  | unloadNone maxQueue minQueue after =>
      exact stock.quiet rfl (by rw [After.transit_resume, transit]; rfl) (after.routed_resume _)
  | pop self task rest front => exact stock.take (.of_eq front.symm) transit rfl trivial
  | steal self queue task tasks rest found =>
      have none : tasks = [] := by
        have length := @walk_length 1 (state.shared.localQueues queue).reverse
        rw [found] at length
        exact List.eq_nil_of_length_eq_zero (Nat.le_zero.mp (Nat.le_of_succ_le_succ length))
      subst none
      exact stock.take (walk_queue found) transit rfl trivial
  | switch switches =>
      obtain ⟨same, stays, anywhere⟩ := switches.quiet
      exact stock.quiet same (stays.trans transit.symm) (anywhere _)
  | _ => exact stock.quiet rfl transit.symm trivial

theorem After.active_resume (after : After) : after.resume.Active ↔ after.Active := by
  cases after <;> exact .rfl

theorem After.idle_resume (after : After) : after.resume.Idle ↔ after.Idle := by
  cases after <;> exact .rfl

theorem Calls.steady (calls : Calls now after) (active : next.Active ↔ after.Active)
    (idle : next.Idle ↔ after.Idle) : Steady now next := by
  cases calls <;> exact ⟨active, idle⟩

theorem Reads.steady (reads : Reads thread shared now choice next) : Steady now next := by
  cases reads with
  | even index maxQueue minQueue maxTask minTask after =>
      exact ⟨after.active_resume, after.idle_resume⟩
  | noVictim => exact ⟨iff_of_false Bool.false_ne_true not_false, .rfl⟩
  | _ => exact ⟨.rfl, .rfl⟩

theorem Switches.steady {shared' : Shared} (switches : Switches shared now choice shared' next) :
    Steady now next ∧ shared'.activeThreadNum = shared.activeThreadNum ∧
      shared'.idleThreadNum = shared.idleThreadNum := by
  cases switches with
  | drop | fiber | reset | resetFails | make =>
      exact ⟨⟨iff_of_true trivial rfl, .rfl⟩, rfl, rfl⟩
  | _ => exact ⟨⟨.rfl, .rfl⟩, rfl, rfl⟩

/-- A thread moves that counts as before. -/
theorem Tally.quiet (tally : Tally state) (was : state.threads thread = now)
    (steady : Steady now next) (active : shared.activeThreadNum = state.shared.activeThreadNum)
    (idle : shared.idleThreadNum = state.shared.idleThreadNum) :
    Tally (state.put thread shared next) := by
  constructor
  · rw [Config.put_shared, active]
    exact tally.active.put (by rw [was]; exact steady.active)
  · rw [Config.put_shared, idle]
    exact tally.idle.put (by rw [was]; exact steady.idle)

/-- Every move keeps the counters right. -/
theorem Moves.tally (moves : Moves thread state.shared now choice shared next) (tally : Tally state)
    (was : state.threads thread = now) : Tally (state.put thread shared next) := by
  have active := congrArg Thread.Active was
  have idle := congrArg Thread.Idle was
  cases moves with
  | schedule calls | autoLoadBalance calls =>
      exact tally.quiet was (calls.steady .rfl .rfl) rfl rfl
  | newFiber calls =>
      exact tally.quiet was (calls.steady (After.active_resume _) (After.idle_resume _)) rfl rfl
  | read reads => exact tally.quiet was reads.steady rfl rfl
  | push tasks queue after =>
      rw [Shared.foldl_pushBack]
      exact tally.quiet was ⟨after.active_resume, after.idle_resume⟩ rfl rfl
  | unloadNone maxQueue minQueue after =>
      exact tally.quiet was ⟨after.active_resume, after.idle_resume⟩ rfl rfl
  | pop self task rest =>
      exact ⟨tally.active.enter (by rw [active]; exact not_false) rfl,
        tally.idle.put (by rw [idle]; exact .rfl)⟩
  | steal self queue task tasks rest =>
      exact ⟨tally.active.enter (by rw [active]; exact not_false) rfl,
        tally.idle.put (by rw [idle]; exact .rfl)⟩
  | stealNone | nothing =>
      exact tally.quiet was ⟨by simp [Thread.Active], .rfl⟩ rfl rfl
  | switch switches =>
      obtain ⟨steady, active, idle⟩ := switches.steady
      exact tally.quiet was steady active idle
  | dropping | returned =>
      exact ⟨tally.active.leave (by rw [active]; trivial) not_false,
        tally.idle.put (by rw [idle]; exact .rfl)⟩
  | idle self =>
      exact ⟨tally.active.put (by rw [active]; exact .rfl),
        tally.idle.enter (by rw [idle]; exact not_false) trivial⟩
  | idled self =>
      exact ⟨tally.active.put (by rw [active]; exact .rfl),
        tally.idle.leave (by rw [idle]; trivial) not_false⟩
  | _ => exact tally.quiet was ⟨.rfl, .rfl⟩ rfl rfl

theorem Stock.of_initial (initial : Initial state) : Stock state := by
  constructor
  · exact initial.threadNum
  · rw [initial.scheduled]
    refine .initial ?_ fun thread => ?_
    · simp [Shared.stored, shelved, initial.localQueues, initial.taken]
    · rw [initial.threads]
      rfl
  · simp [initial.scheduled]
  · exact fun queue _ => initial.localQueues queue
  · simp [initial.queueSizes, initial.localQueues]
  · simp [initial.localQueues]
  · simp [initial.taken]
  · intro thread
    rw [initial.threads]
    trivial

theorem Tally.of_initial (initial : Initial state) : Tally state := by
  constructor
  · rw [initial.activeThreadNum]
    refine .zero fun thread active => ?_
    rw [initial.threads] at active
    exact active
  · rw [initial.idleThreadNum]
    refine .zero fun thread idle => ?_
    rw [initial.threads] at idle
    exact idle

/-- The invariants hold wherever a run gets to. -/
theorem kept_of_runs {allowed : State → Action → Prop} (run : Runs step allowed state later)
    (initial : Initial state) : Stock later ∧ Tally later := by
  refine @Runs.invariant _ _ _ _ _ _ (fun state => Stock state ∧ Tally state) ?_ run
    ⟨.of_initial initial, .of_initial initial⟩
  rintro state action later ⟨stock, tally⟩ - taken
  refine step_cases (motive := fun later => Stock later ∧ Tally later) taken ?_
  intro thread now choice shared next actor was moves
  exact ⟨moves.stock stock was, moves.tally tally was⟩

theorem mem_taken : task ∈ tasksAt state (.taken queue) ↔ (task, queue) ∈ state.shared.taken := by
  simp [tasksAt]

/-- A task is in one place, once. -/
theorem Stock.places (stock : Stock state) :
    (∀ task ∈ state.shared.scheduled, ∃! place, task ∈ tasksAt state place) ∧
      (∀ place, (tasksAt state place).Nodup) ∧
        ∀ place, ∀ task ∈ tasksAt state place, task ∈ state.shared.scheduled := by
  obtain ⟨exclusive, distinct, complete⟩ := stock.accounts
  obtain ⟨queuedOnce, takenOnce, apart⟩ := List.nodup_append.mp (distinct 0).of_append_left
  have inside : ∀ {index task}, task ∈ state.shared.localQueues index →
      index < state.shared.threadNum := fun member => stock.inside (List.ne_nil_of_mem member)
  have queued : ∀ {index task}, task ∈ state.shared.localQueues index →
      task ∈ shelved state.shared.localQueues state.shared.threadNum :=
    fun member => mem_shelved.mpr ⟨_, inside member, member⟩
  have taken : ∀ {index task}, task ∈ tasksAt state (.taken index) →
      task ∈ state.shared.taken.map Prod.fst :=
    fun member => List.mem_map_of_mem (mem_taken.mp member)
  have free : ∀ {thread task}, task ∈ (state.threads thread).transit →
      task ∉ state.shared.stored :=
    fun held kept => stock.accounts.apart kept held
  refine ⟨fun task known => ?_, ?_, ?_⟩
  · obtain kept | ⟨thread, held⟩ := (complete task).mp known
    · obtain inQueue | wasTaken := List.mem_append.mp kept
      · obtain ⟨index, below, member⟩ := mem_shelved.mp inQueue
        refine ⟨.queue index, member, ?_⟩
        rintro (thread | other | other) here
        · exact absurd kept (free here)
        · rw [shelved_unique queuedOnce below member (inside here) here]
        · exact absurd rfl (apart task inQueue task (taken here))
      · obtain ⟨⟨task, index⟩, member, rfl⟩ := List.mem_map.mp wasTaken
        refine ⟨.taken index, mem_taken.mpr member, ?_⟩
        rintro (thread | other | other) here
        · exact absurd kept (free here)
        · exact absurd rfl (apart _ (queued here) _ wasTaken)
        · have same : (task, other) = (task, index) :=
            List.inj_on_of_nodup_map takenOnce (mem_taken.mp here) member rfl
          rw [(Prod.mk.inj same).2]
    · refine ⟨.transit thread, held, ?_⟩
      rintro (other | other | other) here
      · rw [exclusive thread other task held here]
      · exact absurd (List.mem_append_left _ (queued here)) (free held)
      · exact absurd (List.mem_append_right _ (taken here)) (free held)
  · rintro (thread | index | index)
    · exact (distinct thread).of_append_right
    · by_cases below : index < state.shared.threadNum
      · exact (List.nodup_flatMap.mp queuedOnce).1 index (List.mem_range.mpr below)
      · rw [tasksAt, stock.outside index (Nat.le_of_not_lt below)]
        exact List.nodup_nil
    · exact (List.filter_sublist.map Prod.fst).nodup takenOnce
  · rintro (thread | index | index) task here
    · exact (complete task).mpr (.inr ⟨thread, here⟩)
    · exact (complete task).mpr (.inl (List.mem_append_left _ (queued here)))
    · exact (complete task).mpr (.inl (List.mem_append_right _ (taken here)))

/-- What has been counted is not below zero. -/
theorem counts_nonneg {shows : Thread → Prop} {count : Int} (counts : state.Counts shows count) :
    0 ≤ count := by
  obtain ⟨threads, -, rfl⟩ := counts
  exact Int.natCast_nonneg _

end Steps

section Runs

variable {start state : State}

/-- The local queues conserve the tasks, whatever the workers and the callers do. -/
theorem tasks_conserved (initial : Initial start) (run : Runs step (fun _ _ => True) start state) :
    Conserves state := by
  obtain ⟨stock, tally⟩ := kept_of_runs run initial
  obtain ⟨somewhere, once, known⟩ := stock.places
  refine ⟨somewhere, once, known, ?_, stock.queueSizes, tally.active, tally.idle,
    ⟨?_, ?_, ?_⟩, ?_, ?_⟩
  · rw [stock.tickets]
    exact List.nodup_range
  · intro queue
    rw [stock.queueSizes]
    exact Int.natCast_nonneg _
  · exact counts_nonneg tally.active
  · exact counts_nonneg tally.idle
  · rintro task index names inside queue (queued | taken)
    · exact stock.queued queue task queued index names inside
    · exact stock.taken (task, queue) (mem_taken.mp taken) index names inside
  · intro thread tasks queue after pushes task member index names inside
    have routed := stock.routed thread
    rw [pushes] at routed
    exact routed.2 task member index names inside

/-- Two callbacks are put into the first queue, and the second worker steals one. -/
def stealRun : List Action :=
  [.enter 1, .exec 2 (.schedule [.func, .func] none), .exec 2 .go, .exec 2 .go] ++
    List.replicate 5 (.exec 1 .go)

def stolen : State :=
  (replay step (fun _ _ => true) stealRun (unstarted 2 .roundRobin)).get (by decide)

theorem tasks_conserved_stolen : stolen.shared.taken = [(⟨1, .func, none⟩, 0)] ∧
    stolen.shared.localQueues 0 = [⟨0, .func, none⟩] ∧ Conserves stolen :=
  ⟨by decide, by decide, tasks_conserved (initial_unstarted (by decide) .roundRobin)
    (.of_replay (fun _ _ _ => trivial) (Option.some_get _).symm)⟩

end Runs

end Xten.Scheduler.LocalQueues
