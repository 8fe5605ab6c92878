import Xten.Scheduler.Conservation

/-!
# Who switches to a fiber with local queues

The scan of the single queue passes over a task whose fiber is executing. A pop of a local
queue does not, nor does a steal: the assertion at the head of `SwapIn` then depends on
when the fiber is enqueued. It holds as long as a worker takes a fiber only while that is
not executing, and while no other worker has it in hand.
-/

namespace Xten.Scheduler.LocalQueues

open Std.Interleaving

/-- The fiber that a worker is about to switch to. -/
def Thread.hand : Thread → Option FiberId
  | .took _ (some task) => task.job.fiber?
  | .entering _ current => some current.fiber
  | _ => none

/-- The fiber of the task that a worker pops or steals next. -/
def Thread.pops (thread : Nat) (shared : Shared) : Thread → Option FiberId
  | .loop _ => (shared.localQueues thread).head?.bind fun task => task.job.fiber?
  | .stealing _ queue =>
      (walk 1 (shared.localQueues queue).reverse).1.head?.bind fun task => task.job.fiber?
  | _ => none

/-- The fiber that a worker resets next for a callback. -/
def Thread.resets : Thread → Option FiberId
  | .took self (some task) => if task.job = .func then self.cbFiber else none
  | _ => none

/-- A worker takes a fiber only while it is not executing, and while no other worker has it
in hand. -/
def Attentive (state : State) (action : Action) : Prop :=
  let thread := action.actor.1
  let now := state.threads thread
  (∀ fiber ∈ now.pops thread state.shared, (state.shared.fibers fiber).status ≠ .exec) ∧
    ∀ fiber, fiber ∈ now.pops thread state.shared ∨ fiber ∈ now.resets →
      ∀ other ≠ thread, (state.threads other).hand ≠ some fiber

/-- No worker comes to `SwapIn` with a fiber that is executing. -/
def Unexecuted (state : State) : Prop :=
  ∀ thread self running, state.threads thread = .entering self running →
    (state.shared.fibers running.fiber).status ≠ .exec

def After.fibers : After → List FiberId
  | .outside => []
  | .running self current => current.fiber :: self.cbFiber.toList
  | .idle self | .loop self => self.cbFiber.toList

/-- The fibers that a thread knows of. -/
def Thread.fibers : Thread → List FiberId
  | .outside | .left | .failed => []
  | .selecting _ _ after | .choosing _ _ _ _ after | .pushing _ _ after
  | .measuring _ _ _ _ _ after | .unloading _ _ after => after.fibers
  | .loop self | .surveying self _ _ _ | .stealing self _ | .dropping self | .idling self
  | .idle self | .idled self => self.cbFiber.toList
  | .took self task => (task.bind fun task => task.job.fiber?).toList ++ self.cbFiber.toList
  | .entering self current | .running self current | .leaving self current
  | .returned self current | .judging self current | .rescheduling self current
  | .settling self current | .holding self current => current.fiber :: self.cbFiber.toList

/-- Only fibers that have been made are known or scheduled. -/
structure Known (state : State) : Prop where
  held : ∀ thread, ∀ fiber ∈ (state.threads thread).fibers, fiber < state.shared.made
  scheduled : ∀ task ∈ state.shared.scheduled, ∀ fiber ∈ task.job.fiber?, fiber < state.shared.made

/-- The fiber that a worker is about to switch to is in its hands alone, and is not
executing. -/
structure Guarded (state : State) : Prop where
  exclusive : state.Exclusive fun thread fiber => thread.hand = some fiber
  free : ∀ thread fiber, (state.threads thread).hand = some fiber →
    (state.shared.fibers fiber).status ≠ .exec

section Steps

variable {state later : State} {thread : Nat} {now next : Thread} {choice : Choice}
  {shared shared' : Shared} {after : After} {fiber other : FiberId} {self : Worker}
  {running : Running} {task : Task} {change : Fiber → Fiber} {jobs : List Job}
  {threadId : Option Nat} {action : Action}

@[simp] theorem After.fibers_resume (after : After) : after.resume.fibers = after.fibers := by
  cases after <;> rfl

@[simp] theorem After.hand_resume (after : After) : after.resume.hand = none := by
  cases after <;> rfl

theorem Calls.fibers_eq (calls : Calls now after) : after.fibers = now.fibers := by
  cases calls <;> rfl

theorem Reads.fibers_eq (reads : Reads thread shared now choice next) :
    next.fibers = now.fibers := by
  cases reads with
  | even index maxQueue minQueue maxTask minTask after => exact after.fibers_resume
  | _ => rfl

theorem Reads.hand_none (reads : Reads thread shared now choice next) : next.hand = none := by
  cases reads with
  | even index maxQueue minQueue maxTask minTask after => exact after.hand_resume
  | _ => rfl

theorem release_subset : (self.release running).cbFiber.toList ⊆ self.cbFiber.toList := by
  unfold Worker.release
  split
  · exact List.nil_subset _
  · exact List.Subset.refl _

/-- A worker only comes to know of the fiber that it makes. -/
theorem Switches.known (switches : Switches shared now choice shared' next) :
    shared.made ≤ shared'.made ∧ shared'.scheduled = shared.scheduled ∧
      ∀ fiber ∈ next.fibers, fiber ∈ now.fibers ∨ fiber < shared'.made := by
  cases switches with
  | fiber self task fiber job =>
      refine ⟨le_rfl, rfl, fun known member => .inl ?_⟩
      simpa [Thread.fibers, job, Job.fiber?] using member
  | make self task job none =>
      refine ⟨Nat.le_succ _, rfl, fun known member => .inr ?_⟩
      simp only [Thread.fibers, Option.toList_some, List.mem_cons, List.not_mem_nil, or_false,
        or_self] at member
      rw [member]
      exact Nat.lt_succ_self _
  | reset self task fiber job spare =>
      refine ⟨le_rfl, rfl, fun known member => .inl ?_⟩
      simpa [Thread.fibers, job, Job.fiber?, spare] using member
  | hold self running =>
      refine ⟨le_rfl, rfl, fun known member => .inl ?_⟩
      exact List.mem_cons_of_mem _ (release_subset member)
  | drop | recycle | forget =>
      exact ⟨le_rfl, rfl, fun known member => .inl (by simp_all [Thread.fibers])⟩
  | resetFails | swapInFails | yieldFails => exact ⟨le_rfl, rfl, nofun⟩
  | _ => exact ⟨le_rfl, rfl, fun known member => .inl member⟩

/-- A thread moves, and a fiber may have been made. -/
theorem Known.put (known : Known state) (made : state.shared.made ≤ shared.made)
    (held : ∀ fiber ∈ next.fibers, fiber < shared.made)
    (scheduled : ∀ task ∈ shared.scheduled, ∀ fiber ∈ task.job.fiber?, fiber < shared.made) :
    Known (state.put thread shared next) := by
  refine ⟨fun other => ?_, scheduled⟩
  obtain ⟨-, current⟩ | ⟨-, current⟩ := state.put_cases thread shared next other
  all_goals rw [current]
  · exact held
  · exact fun fiber member => (known.held other fiber member).trans_le made

/-- A thread moves that comes to know of nothing new. -/
theorem Known.quiet (known : Known state) (was : state.threads thread = now)
    (made : state.shared.made ≤ shared.made) (scheduled : shared.scheduled = state.shared.scheduled)
    (fewer : ∀ fiber ∈ next.fibers, fiber ∈ now.fibers ∨ fiber < shared.made) :
    Known (state.put thread shared next) := by
  refine known.put made (fun fiber member => ?_) ?_
  · obtain old | new := fewer fiber member
    · exact (known.held thread fiber (was ▸ old)).trans_le made
    · exact new
  · rw [scheduled]
    exact fun task member fiber named => (known.scheduled task member fiber named).trans_le made

/-- `Schedule` is called with fibers that have been made. -/
theorem Known.schedule (known : Known state) (was : state.threads thread = now)
    (fewer : after.fibers ⊆ now.fibers)
    (made : ∀ fiber ∈ jobs.filterMap Job.fiber?, fiber < state.shared.made) :
    Known (state.put thread (state.shared.schedule jobs threadId after).1
      (state.shared.schedule jobs threadId after).2) := by
  refine known.put le_rfl (fun fiber member => known.held thread fiber (was ▸ fewer member)) ?_
  intro task member fiber named
  obtain old | new := List.mem_append.mp member
  · exact known.scheduled task old fiber named
  · obtain ⟨⟨job, ticket⟩, inJobs, rfl⟩ := List.mem_map.mp new
    exact made fiber (List.mem_filterMap.mpr ⟨job, List.fst_mem_of_mem_zipIdx inJobs, named⟩)

/-- A worker takes a task that is in a queue. -/
theorem Known.take (known : Known state) (stock : Stock state) {queue : Nat} {rest : List Task}
    (was : state.threads thread = now) (queued : task ∈ state.shared.localQueues queue)
    (cbFiber : self.cbFiber.toList ⊆ now.fibers) :
    Known (state.put thread (state.shared.take queue task rest) (.took self (some task))) := by
  refine known.quiet was le_rfl rfl fun fiber member => ?_
  obtain named | spare := List.mem_append.mp member
  · have scheduled := stock.places.2.2 (.queue queue) task queued
    exact .inr (known.scheduled task scheduled fiber (Option.mem_toList.mp named))
  · exact .inl (cbFiber spare)

/-- The fibers that are scheduled have been made. -/
theorem Moves.known (moves : Moves thread state.shared now choice shared next)
    (stock : Stock state) (known : Known state) (was : state.threads thread = now) :
    Known (state.put thread shared next) := by
  cases moves with
  | schedule calls jobs threadId made =>
      exact known.schedule was (fun fiber member => calls.fibers_eq ▸ member) made
  | reschedule self running =>
      refine known.schedule was (fun fiber member => ?_) fun fiber member => ?_
      · exact List.mem_cons_of_mem _ (release_subset member)
      · rw [List.mem_singleton.mp member]
        exact known.held thread running.fiber (was ▸ List.mem_cons_self)
  | newFiber calls =>
      refine known.quiet was (Nat.le_succ _) rfl fun fiber member => .inl ?_
      rwa [After.fibers_resume, calls.fibers_eq] at member
  | autoLoadBalance calls =>
      exact known.quiet was le_rfl rfl fun fiber member => .inl (calls.fibers_eq ▸ member)
  | read reads =>
      exact known.quiet was le_rfl rfl fun fiber member => .inl (reads.fibers_eq ▸ member)
  | push tasks queue after =>
      rw [Shared.foldl_pushBack]
      refine known.quiet was le_rfl rfl fun fiber member => .inl ?_
      rwa [After.fibers_resume] at member
  | unloadNone maxQueue minQueue after =>
      refine known.quiet was le_rfl rfl fun fiber member => .inl ?_
      rwa [After.fibers_resume] at member
  | pop self task rest front =>
      exact known.take stock was (by rw [front]; exact List.mem_cons_self) (List.Subset.refl _)
  | steal self queue task tasks rest found =>
      exact known.take stock was ((walk_queue found).mem_iff.mp List.mem_cons_self)
        (List.Subset.refl _)
  | switch switches =>
      obtain ⟨made, scheduled, fewer⟩ := switches.known
      exact known.quiet was made scheduled fewer
  | enter | leave => exact known.quiet was le_rfl rfl nofun
  | _ => exact known.quiet was le_rfl rfl fun fiber member => .inl member

/-- A fiber that is changed does not come to execute. -/
theorem Shared.exec_modify (ends : (change (shared.fibers fiber)).status ≠ .exec)
    (executing : ((shared.modify fiber change).fibers other).status = .exec) :
    (shared.fibers other).status = .exec := by
  by_cases same : other = fiber
  · subst same
    rw [shared.modify_self] at executing
    exact absurd executing ends
  · rwa [Shared.modify_other same] at executing

theorem Shared.exec_newFiber {new : Fiber} (ends : new.status ≠ .exec)
    (executing : ((shared.newFiber new).fibers other).status = .exec) :
    (shared.fibers other).status = .exec :=
  @Shared.exec_modify shared shared.made other (fun _ => new) ends executing

/-- A worker takes a fiber that nobody else has in hand, or none. -/
theorem Guarded.put (guarded : Guarded state)
    (alone : ∀ fiber, next.hand = some fiber → (shared.fibers fiber).status ≠ .exec ∧
      ∀ other ≠ thread, (state.threads other).hand ≠ some fiber)
    (others : ∀ other ≠ thread, ∀ fiber, (state.threads other).hand = some fiber →
      (shared.fibers fiber).status = .exec → (state.shared.fibers fiber).status = .exec) :
    Guarded (state.put thread shared next) := by
  constructor
  · exact guarded.exclusive.put fun fiber held => (alone fiber held).2
  · intro other fiber held
    obtain ⟨-, current⟩ | ⟨apart, current⟩ := state.put_cases thread shared next other
    all_goals rw [current] at held
    · exact (alone fiber held).1
    · exact fun executing => guarded.free other fiber held (others other apart fiber held executing)

/-- A thread moves that has nothing in hand afterwards, and no fiber comes to execute. -/
theorem Guarded.quiet (guarded : Guarded state) (hand : next.hand = none)
    (still : ∀ fiber, (shared.fibers fiber).status = .exec →
      (state.shared.fibers fiber).status = .exec) : Guarded (state.put thread shared next) :=
  guarded.put (fun fiber held => by rw [hand] at held; cases held) fun _ _ fiber _ => still fiber

/-- A worker takes a task out of a queue. -/
theorem Guarded.take (guarded : Guarded state) {queue : Nat} {rest : List Task}
    (alone : ∀ fiber ∈ task.job.fiber?, (state.shared.fibers fiber).status ≠ .exec ∧
      ∀ other ≠ thread, (state.threads other).hand ≠ some fiber) :
    Guarded (state.put thread (state.shared.take queue task rest) (.took self (some task))) :=
  guarded.put alone fun _ _ _ _ => id

/-- A worker goes on with the fiber that it has in hand, or gives it away. -/
theorem Guarded.keep (guarded : Guarded state)
    (hand : ∀ fiber, next.hand = some fiber → (state.threads thread).hand = some fiber) :
    Guarded (state.put thread state.shared next) :=
  guarded.put (fun fiber held => ⟨guarded.free thread fiber (hand fiber held),
    fun other apart held' => apart (guarded.exclusive other thread fiber held' (hand fiber held))⟩)
    fun _ _ _ _ => id

/-- A worker knows of the fiber that it has in hand. -/
theorem Thread.fibers_hand (held : now.hand = some fiber) : fiber ∈ now.fibers := by
  cases now with
  | took self task =>
      cases task with
      | none => cases held
      | some task => exact List.mem_append_left _ (Option.mem_toList.mpr held)
  | entering self current =>
      cases held
      exact List.mem_cons_self
  | _ => cases held

/-- Nobody has a fiber in hand that is yet to be made. -/
theorem Known.unmade (known : Known state) :
    (state.threads thread).hand ≠ some state.shared.made :=
  fun held => Nat.lt_irrefl _ (known.held thread _ (Thread.fibers_hand held))

/-- A switch of a worker that resets only what nobody else has in hand. -/
theorem Switches.guarded (switches : Switches state.shared now choice shared next)
    (known : Known state) (guarded : Guarded state) (was : state.threads thread = now)
    (alone : ∀ fiber ∈ now.resets, ∀ other ≠ thread, (state.threads other).hand ≠ some fiber) :
    Guarded (state.put thread shared next) := by
  cases switches with
  | fiber self task fiber job =>
      refine guarded.keep fun held hand => ?_
      rw [was]
      simpa [Thread.hand, job, Job.fiber?] using hand
  | reset self task fiber job spare =>
      refine guarded.put ?_ fun other _ held _ => Shared.exec_modify Status.noConfusion
      rintro held ⟨⟩
      refine ⟨?_, alone fiber (by simp [Thread.resets, job, spare])⟩
      rw [Shared.modify_self]
      exact Status.noConfusion
  | make self task job =>
      refine guarded.put ?_ fun other _ held _ => Shared.exec_newFiber Status.noConfusion
      rintro held ⟨⟩
      refine ⟨?_, fun other _ => known.unmade⟩
      rw [Shared.newFiber, Shared.modify_self]
      exact Status.noConfusion
  | swapIn self running free =>
      refine guarded.put nofun fun other apart fiber held executing => ?_
      have mine : (state.threads thread).hand = some running.fiber := by
        rw [was]
        rfl
      have different : fiber ≠ running.fiber := by
        rintro rfl
        exact apart (guarded.exclusive other thread _ held mine)
      rwa [Shared.modify_other different] at executing
  | yieldToReady | recycle | hold =>
      exact guarded.quiet rfl fun other => Shared.exec_modify Status.noConfusion
  | ends self running choice status last =>
      refine guarded.quiet rfl fun other => Shared.exec_modify ?_
      obtain ⟨-, rfl⟩ | ⟨-, rfl⟩ := last <;> exact Status.noConfusion
  | _ => exact guarded.quiet rfl fun _ => id

/-- Every move of an attentive worker leaves the fibers in hand alone. -/
theorem Moves.guarded (moves : Moves thread state.shared now choice shared next)
    (known : Known state) (guarded : Guarded state) (was : state.threads thread = now)
    (asleep : ∀ fiber ∈ now.pops thread state.shared, (state.shared.fibers fiber).status ≠ .exec)
    (alone : ∀ fiber, fiber ∈ now.pops thread state.shared ∨ fiber ∈ now.resets →
      ∀ other ≠ thread, (state.threads other).hand ≠ some fiber) :
    Guarded (state.put thread shared next) := by
  cases moves with
  | newFiber calls =>
      exact guarded.quiet (After.hand_resume _) fun other => Shared.exec_newFiber Status.noConfusion
  | read reads => exact guarded.quiet reads.hand_none fun _ => id
  | push tasks queue after =>
      rw [Shared.foldl_pushBack]
      exact guarded.quiet after.hand_resume fun _ => id
  | unloadNone maxQueue minQueue after => exact guarded.quiet after.hand_resume fun _ => id
  | pop self task rest front =>
      refine guarded.take fun fiber named => ?_
      have pops : fiber ∈ (Thread.loop self).pops thread state.shared := by
        rw [Thread.pops, front]
        exact named
      exact ⟨asleep fiber pops, alone fiber (.inl pops)⟩
  | steal self queue task tasks rest found =>
      refine guarded.take fun fiber named => ?_
      have pops : fiber ∈ (Thread.stealing self queue).pops thread state.shared := by
        rw [Thread.pops, found]
        exact named
      exact ⟨asleep fiber pops, alone fiber (.inl pops)⟩
  | switch switches =>
      exact switches.guarded known guarded was fun fiber resets => alone fiber (.inr resets)
  | _ => exact guarded.quiet rfl fun _ => id

theorem Guarded.of_initial (initial : Initial state) : Guarded state := by
  constructor
  all_goals
    intro thread
    simp [initial.threads, Thread.hand]

theorem Known.of_initial (initial : Initial state) : Known state := by
  constructor
  · simp [initial.threads, Thread.fibers]
  · simp [initial.scheduled]

end Steps

section Runs

variable {start state : State}

/-- `SwapIn` is called for no fiber that is executing, as long as the workers take none
that is, and none that another worker has in hand. -/
theorem unexecuted (initial : Initial start) (run : Runs step Attentive start state) :
    Unexecuted state := by
  have kept : Stock state ∧ Known state ∧ Guarded state := by
    refine @Runs.invariant _ _ _ _ _ _ (fun state => Stock state ∧ Known state ∧ Guarded state) ?_
      run ⟨.of_initial initial, .of_initial initial, .of_initial initial⟩
    rintro state action later ⟨stock, known, guarded⟩ ⟨asleep, alone⟩ taken
    revert asleep alone
    refine step_cases (motive := fun later => _ → _ → Stock later ∧ Known later ∧ Guarded later)
      taken ?_
    intro thread now choice shared next actor was moves asleep alone
    rw [actor, was] at asleep alone
    exact ⟨moves.stock stock was, moves.known stock known was,
      moves.guarded known guarded was asleep alone⟩
  intro thread self running enters
  refine kept.2.2.free thread running.fiber ?_
  rw [enters]
  rfl

/-- A worker with the task of an executing fiber comes to `SwapIn` with it. -/
theorem took_executing {thread : Nat} {self : Worker} {task : Task} {fiber : FiberId}
    (took : state.threads thread = .took self (some task)) (named : task.job.fiber? = some fiber)
    (executing : (state.shared.fibers fiber).status = .exec) :
    ∃ later, step state (.exec thread .go) = some later ∧ ¬ Unexecuted later := by
  obtain ⟨ticket, _ | _, threadId⟩ := task <;> cases named
  refine ⟨state.put thread state.shared (.entering self ⟨⟨ticket, .fiber fiber, threadId⟩, fiber⟩),
    ?_, fun claimed => claimed thread self _ Config.put_self executing⟩
  simp [step, took, exec, executing]

/-- A worker that pops or steals an executing fiber comes to `SwapIn` with it. -/
theorem taken_executing {thread : Nat} {fiber : FiberId}
    (pops : fiber ∈ (state.threads thread).pops thread state.shared)
    (executing : (state.shared.fibers fiber).status = .exec) :
    ∃ later, Runs step (fun _ _ => True) state later ∧ ¬ Unexecuted later := by
  obtain ⟨self, task, queue, rest, named, first⟩ : ∃ self task queue rest,
      task.job.fiber? = some fiber ∧ step state (.exec thread .go) =
        some (state.put thread (state.shared.take queue task rest) (.took self (some task))) := by
    cases now : state.threads thread with
    | loop self =>
        rw [now, Thread.pops, Option.mem_def, Option.bind_eq_some_iff] at pops
        obtain ⟨task, front, named⟩ := pops
        obtain ⟨rest, queued⟩ := List.head?_eq_some_iff.mp front
        refine ⟨self, task, thread, rest, named, ?_⟩
        rw [step, now, exec, queued]
        rfl
    | stealing self queue =>
        rw [now, Thread.pops, Option.mem_def, Option.bind_eq_some_iff] at pops
        obtain ⟨task, front, named⟩ := pops
        obtain ⟨more, walked⟩ := List.head?_eq_some_iff.mp front
        obtain ⟨rest, found⟩ : ∃ rest,
            walk 1 (state.shared.localQueues queue).reverse = (task :: more, rest) :=
          ⟨_, Prod.ext walked rfl⟩
        refine ⟨self, task, queue, rest.reverse, named, ?_⟩
        rw [step, now, exec, Shared.steal, found]
        rfl
    | _ =>
        rw [now] at pops
        cases pops
  obtain ⟨later, second, reached⟩ :=
    @took_executing (state.put thread (state.shared.take queue task rest) (.took self (some task)))
      thread self task fiber Config.put_self named executing
  exact ⟨later, ((Runs.refl state).tail trivial first).tail trivial second, reached⟩

/-- No fiber is popped, stolen or reset. -/
def plain (state : State) (action : Action) : Bool :=
  let thread := action.actor.1
  decide ((state.threads thread).pops thread state.shared = none) &&
    decide ((state.threads thread).resets = none)

theorem plain_sound (state : State) (action : Action) (passes : plain state action) :
    Attentive state action := by
  obtain ⟨popsNone, resetsNone⟩ := Bool.and_eq_true_iff.mp passes
  rw [decide_eq_true_eq] at popsNone resetsNone
  constructor
  · rw [popsNone]
    exact nofun
  · rw [popsNone, resetsNone]
    exact nofun

theorem step_frame ⦃state : State⦄ ⦃action : Action⦄ ⦃next : State⦄ ⦃other : Nat⦄
    (taken : step state action = some next) (apart : some action.actor.1 ≠ some other) :
    next.threads other = state.threads other := by
  refine step_cases (motive := fun next => next.threads other = state.threads other) taken ?_
  intro thread now choice shared next actor was moves
  rw [actor] at apart
  exact Config.put_other fun same => apart (congrArg some same.symm)

/-- A fiber is made and scheduled. -/
def queueRun : List Action :=
  [.enter 0, .exec 1 .newFiber, .exec 1 (.schedule [.fiber 0] none), .exec 1 .go, .exec 1 .go]

def queued : State := (replay step plain queueRun (unstarted 1 .roundRobin)).get (by decide)

/-- The worker pops its task. -/
def popped : State := (step queued (.exec 0 .go)).get (by decide)

/-- It comes to `SwapIn`. -/
def entered : State := (step popped (.exec 0 .go)).get (by decide)

theorem unexecuted_entered :
    entered.threads 0 = .entering ⟨none, false⟩ ⟨⟨0, .fiber 0, none⟩, 0⟩ ∧ Unexecuted entered := by
  refine ⟨by decide, unexecuted (initial_unstarted Nat.one_pos .roundRobin) ?_⟩
  have run : replay step plain queueRun (unstarted 1 .roundRobin) = some queued :=
    (Option.some_get _).symm
  have idle : ∀ thread, (queued.threads thread).hand = none :=
    replay_forall (motive := fun thread => thread.hand = none) step_frame 2 run (by decide)
      (by decide) fun _ _ => rfl
  have attentive : Attentive queued (.exec 0 .go) := by
    refine ⟨by decide, fun fiber _ other _ held => ?_⟩
    rw [idle other] at held
    cases held
  have first : Runs step Attentive (unstarted 1 .roundRobin) popped :=
    (Runs.of_replay plain_sound run).tail attentive (Option.some_get _).symm
  exact first.tail (plain_sound popped _ (by decide)) (Option.some_get _).symm

/-- A fiber runs on the first worker when its next task is put into the second queue. -/
def overtakeRun : List Action :=
  [.enter 0, .enter 1, .exec 2 .newFiber, .exec 2 (.schedule [.fiber 0] none), .exec 2 .go,
    .exec 2 .go, .exec 0 .go, .exec 0 .go, .exec 0 .go, .exec 2 (.schedule [.fiber 0] (some 1)),
    .exec 2 .go, .exec 2 .go, .exec 1 .go, .exec 1 .go]

def overtaken : State :=
  (replay step (fun _ _ => true) overtakeRun (unstarted 2 .roundRobin)).get (by decide)

theorem not_unexecuted : ¬ ∀ start state : State, Initial start →
    Runs step (fun _ _ => True) start state → Unexecuted state := by
  intro claimed
  have run : Runs step (fun _ _ => True) (unstarted 2 .roundRobin) overtaken :=
    .of_replay (fun _ _ _ => trivial) (Option.some_get _).symm
  exact claimed _ _ (initial_unstarted (by decide) .roundRobin) run 1 ⟨none, false⟩
    ⟨⟨1, .fiber 0, some 1⟩, 0⟩ (by decide) (by decide)

end Runs

end Xten.Scheduler.LocalQueues
