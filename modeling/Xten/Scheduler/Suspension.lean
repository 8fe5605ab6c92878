import Xten.Scheduler.Moves

/-!
# Who runs a fiber

A fiber may be enqueued before it has switched out: the scan passes over it while its
status is `EXEC`, and only the worker that it has left turns `EXEC` into `HOLD`. `Safe` is
the invariant behind this. It holds in every run in which the callers answer a suspension
once: each fiber is then in the hands of one thread at most.
-/

namespace Xten.Scheduler

open Std.Interleaving

/-- The jobs that the callers' code enqueues, or the kernel for them. -/
def Thread.enqueues : Thread → Choice → List Job
  | .outside, .schedule jobs _ => jobs
  | .running _ _, .schedule jobs _ => jobs
  | .triggering job _, .go => [job]
  | _, _ => []

/-- The fiber that gives up its turn without waiting for an enqueue. -/
def Thread.closes : Thread → Choice → Option FiberId
  | .running _ current, .yieldToReady => some current.fiber
  | .running _ current, .finish => some current.fiber
  | .running _ current, .throw => some current.fiber
  | _, _ => none

/-- Fibers are enqueued at most once per suspension: a fiber that is enqueued waits for
it, and one that has been enqueued does come to wait. -/
def Orderly (state : State) (action : Action) : Prop :=
  let now := state.threads action.actor.1
  ((now.enqueues action.actor.2).filterMap Job.fiber?).Nodup ∧
    (∀ fiber ∈ (now.enqueues action.actor.2).filterMap Job.fiber?,
      (state.shared.fibers fiber).wake = .awaited) ∧
    ∀ fiber ∈ now.closes action.actor.2, (state.shared.fibers fiber).wake = .awaited

instance (state : State) (action : Action) : Decidable (Orderly state action) :=
  inferInstanceAs (Decidable (_ ∧ _ ∧ _))

/-- What a thread has to do with a fiber. -/
inductive Stage where
  | spare
  | popped
  | fresh (ticket : Nat)
  | running
  | leaving
  | back
  | ready
  | settling
  | holding
deriving DecidableEq, Repr

/-- The fiber that a worker keeps for its next callback. -/
def Worker.roles (self : Worker) : List (FiberId × Stage) :=
  self.cbFiber.toList.map (·, .spare)

/-- The fiber that a worker has switched to, and the one that it keeps. -/
def Running.roles (running : Running) (self : Worker) (stage : Stage) : List (FiberId × Stage) :=
  (running.fiber, stage) :: (self.release running).roles

def Task.roles (task : Option Task) (self : Worker) : List (FiberId × Stage) :=
  ((task.bind fun task => task.job.fiber?).toList.map (·, .popped)) ++ self.roles

def After.roles : After → List (FiberId × Stage)
  | .outside | .waking _ => []
  | .took self task => Task.roles task self
  | .running self current => current.roles self .running
  | .loop self | .handling self _ => self.roles
  | .event after => after.roles

/-- The fibers in the hands of a thread. -/
def Thread.roles : Thread → List (FiberId × Stage)
  | .outside | .stopping | .waking _ | .left | .failed => []
  | .loop self | .scanning self _ _ | .dropping self | .idling self | .timing self
  | .pending self | .stopRead self | .autoRead self | .emptyRead self | .activeRead self
  | .waiting self | .expiring self _ | .expired self _ _ | .handling self _ | .idled self =>
      self.roles
  | .erased self task _ => Task.roles (some task) self
  | .tickling after | .writing after | .triggering _ after | .triggered after => after.roles
  | .took self task => Task.roles task self
  | .entering self current =>
      current.roles self
        (if current.task.job = .func then .fresh current.task.ticket else .popped)
  | .running self current => current.roles self .running
  | .leaving self current => current.roles self .leaving
  | .returned self current | .judging self current => current.roles self .back
  | .rescheduling self current => current.roles self .ready
  | .settling self current => current.roles self .settling
  | .holding self current => current.roles self .holding

/-- The fibers that the threads hold. -/
def Thread.holds (thread : Thread) : List FiberId := thread.roles.map Prod.fst

def After.hand : After → Option Task
  | .took _ task => task
  | .event after => after.hand
  | _ => none

/-- The task that a worker has taken and not yet switched to. -/
def Thread.hand : Thread → Option Task
  | .erased _ task _ => some task
  | .took _ task => task
  | .entering _ current => some current.task
  | .tickling after | .writing after | .triggering _ after | .triggered after => after.hand
  | _ => none

/-- The fiber of a callback is the one the worker keeps, any other the one of its task. -/
def Running.Fits (running : Running) (self : Worker) : Prop :=
  match running.task.job with
  | .func => self.cbFiber = some running.fiber
  | .fiber fiber => fiber = running.fiber

/-- A thread that triggers an event has no task in hand. -/
def After.Fits : After → Prop
  | .running self current => current.Fits self
  | .event after => after.hand = none ∧ after.Fits
  | _ => True

def Thread.Fits : Thread → Prop
  | .tickling after | .writing after => after.Fits
  | .triggering _ after | .triggered after => After.Fits (.event after)
  | .entering self current | .running self current | .leaving self current
  | .returned self current | .judging self current | .rescheduling self current
  | .settling self current | .holding self current => current.Fits self
  | _ => True

/-- The fibers in the queue. -/
def Shared.queued (shared : Shared) : List FiberId :=
  shared.funFibers.filterMap fun task => task.job.fiber?

/-- Nothing is to be enqueued, and nothing is. -/
def Closed (queued : Prop) (fiber : Fiber) : Prop :=
  fiber.wake = .closed ∧ ¬ queued

/-- A suspension has been answered exactly if the fiber is in the queue. -/
def Live (queued : Prop) (fiber : Fiber) : Prop :=
  fiber.wake = .awaited ∧ ¬ queued ∨ fiber.wake = .enqueued ∧ queued

def Status.Suspended (status : Status) : Prop :=
  status = .init ∨ status = .hold ∨ status = .ready

def Status.Ended (status : Status) : Prop :=
  status = .term ∨ status = .except

/-- What is known of a fiber in the hands of a thread. -/
def Stage.Ok (queued : Prop) (fiber : Fiber) : Stage → Prop
  | .spare => fiber.status = .init ∧ Closed queued fiber
  | .popped => Status.Suspended fiber.status ∧ fiber.wake = .enqueued ∧ ¬ queued
  | .fresh ticket => fiber.status = .init ∧ fiber.func = some ticket ∧ Closed queued fiber
  | .running | .holding => fiber.status = .exec ∧ Live queued fiber
  | .leaving => (fiber.status = .ready ∨ Status.Ended fiber.status) ∧ Closed queued fiber
  | .back => fiber.status = .exec ∧ Live queued fiber ∨
      (fiber.status = .ready ∨ Status.Ended fiber.status) ∧ Closed queued fiber
  | .ready => fiber.status = .ready ∧ Closed queued fiber
  | .settling => fiber.status = .exec ∧ Live queued fiber ∨
      Status.Ended fiber.status ∧ Closed queued fiber

/-- What is known of a fiber in the hands of no thread. -/
def Free (queued : Prop) (fiber : Fiber) : Prop :=
  Closed queued fiber ∨ Status.Suspended fiber.status ∧ Live queued fiber

/-- Each fiber is in the hands of one thread at most, in a state that goes with it. -/
structure Safe (state : State) : Prop where
  exclusive : state.Exclusive fun thread fiber => fiber ∈ thread.holds
  nodup : ∀ thread, (state.threads thread).holds.Nodup
  fits : ∀ thread, (state.threads thread).Fits
  role : ∀ thread, ∀ entry ∈ (state.threads thread).roles,
    entry.2.Ok (entry.1 ∈ state.shared.queued) (state.shared.fibers entry.1)
  free : ∀ fiber, (∀ thread, fiber ∉ (state.threads thread).holds) →
    Free (fiber ∈ state.shared.queued) (state.shared.fibers fiber)
  queue : state.shared.queued.Nodup
  unmade : ∀ fiber, state.shared.made ≤ fiber →
    (∀ thread, fiber ∉ (state.threads thread).holds) ∧
      Closed (fiber ∈ state.shared.queued) (state.shared.fibers fiber)

section Threads

variable {state : State} {thread : ThreadId} {shared : Shared} {next : Thread}

@[simp] theorem After.roles_resume (after : After) : after.resume.roles = after.roles := by
  cases after <;> rfl

@[simp] theorem roles_tickled (tickle : Bool) (after : After) :
    (tickled tickle after).roles = after.roles := by
  cases tickle
  · exact after.roles_resume
  · rfl

@[simp] theorem After.fits_resume (after : After) : after.resume.Fits = after.Fits := by
  cases after <;> rfl

@[simp] theorem fits_tickled (tickle : Bool) (after : After) :
    (tickled tickle after).Fits = after.Fits := by
  cases tickle
  · exact after.fits_resume
  · rfl

/-- A fiber that some thread holds has been made. -/
theorem Safe.held_lt (safe : Safe state) {fiber : FiberId}
    (held : fiber ∈ (state.threads thread).holds) : fiber < state.shared.made := by
  by_contra beyond
  exact (safe.unmade fiber (Nat.le_of_not_lt beyond)).1 thread held

/-- A thread moves: the fibers that it comes to hold were free, those that it lets go
are, and the others are as before. -/
theorem Safe.put (safe : Safe state) (fits : next.Fits) (nodup : next.holds.Nodup)
    (taken : ∀ fiber ∈ next.holds, fiber ∈ (state.threads thread).holds ∨
      ∀ other, fiber ∉ (state.threads other).holds)
    (role : ∀ entry ∈ next.roles, entry.2.Ok (entry.1 ∈ shared.queued) (shared.fibers entry.1))
    (same : ∀ fiber, fiber ∉ (state.threads thread).holds → fiber ∉ next.holds →
      fiber < state.shared.made ∨ shared.made ≤ fiber →
        shared.fibers fiber = state.shared.fibers fiber ∧
          (fiber ∈ shared.queued ↔ fiber ∈ state.shared.queued))
    (released : ∀ fiber ∈ (state.threads thread).holds, fiber ∉ next.holds →
      Free (fiber ∈ shared.queued) (shared.fibers fiber))
    (fresh : ∀ fiber, state.shared.made ≤ fiber → fiber < shared.made → fiber ∉ next.holds →
      Free (fiber ∈ shared.queued) (shared.fibers fiber))
    (queue : shared.queued.Nodup) (grows : state.shared.made ≤ shared.made)
    (below : ∀ fiber ∈ next.holds, fiber < shared.made) : Safe (state.put thread shared next) := by
  have apart : ∀ fiber other, other ≠ thread → fiber ∈ (state.threads other).holds →
      fiber ∉ (state.threads thread).holds ∧ fiber ∉ next.holds := by
    intro fiber other distinct held
    have notOwn : fiber ∉ (state.threads thread).holds := fun own =>
      distinct (safe.exclusive other thread fiber held own)
    refine ⟨notOwn, fun comes => ?_⟩
    obtain own | nobody := taken fiber comes
    · exact notOwn own
    · exact nobody other held
  constructor
  · exact safe.exclusive.put fun fiber comes other distinct held =>
      (apart fiber other distinct held).2 comes
  · intro other
    obtain ⟨_, now⟩ | ⟨_, now⟩ := state.put_cases thread shared next other <;> rw [now]
    · exact nodup
    · exact safe.nodup other
  · intro other
    obtain ⟨_, now⟩ | ⟨_, now⟩ := state.put_cases thread shared next other <;> rw [now]
    · exact fits
    · exact safe.fits other
  · intro other entry member
    obtain ⟨_, now⟩ | ⟨distinct, now⟩ := state.put_cases thread shared next other
    all_goals rw [now] at member
    · exact role entry member
    · have held : entry.1 ∈ (state.threads other).holds := List.mem_map_of_mem member
      obtain ⟨notOwn, notNext⟩ := apart entry.1 other distinct held
      obtain ⟨sameFiber, sameQueue⟩ := same entry.1 notOwn notNext (.inl (safe.held_lt held))
      rw [Config.put_shared, sameFiber, propext sameQueue]
      exact safe.role other entry member
  · intro fiber nobody
    have notNext : fiber ∉ next.holds := by
      have own := nobody thread
      rwa [Config.put_self] at own
    rw [Config.put_shared]
    by_cases own : fiber ∈ (state.threads thread).holds
    · exact released fiber own notNext
    by_cases new : state.shared.made ≤ fiber ∧ fiber < shared.made
    · exact fresh fiber new.1 new.2 notNext
    obtain ⟨sameFiber, sameQueue⟩ := same fiber own notNext
      ((not_and_or.mp new).imp Nat.lt_of_not_le Nat.le_of_not_lt)
    rw [sameFiber, propext sameQueue]
    refine safe.free fiber fun other held => ?_
    by_cases isOwn : other = thread
    · rw [isOwn] at held
      exact own held
    · have still := nobody other
      rw [Config.put_other isOwn] at still
      exact still held
  · exact queue
  · intro fiber beyond
    rw [Config.put_shared] at beyond ⊢
    obtain ⟨nobody, closed⟩ := safe.unmade fiber (grows.trans beyond)
    have notNext : fiber ∉ next.holds := fun comes => Nat.not_lt.mpr beyond (below fiber comes)
    obtain ⟨sameFiber, sameQueue⟩ := same fiber (nobody thread) notNext (.inr beyond)
    refine ⟨fun other => ?_, by rwa [sameFiber, propext sameQueue]⟩
    obtain ⟨_, now⟩ | ⟨_, now⟩ := state.put_cases thread shared next other <;> rw [now]
    · exact notNext
    · exact nobody other

/-- A thread moves on with the fibers that it has. -/
theorem Safe.quiet (safe : Safe state) (fits : next.Fits)
    (roles : next.roles = (state.threads thread).roles)
    (fibers : shared.fibers = state.shared.fibers)
    (queued : shared.queued.Perm state.shared.queued) (made : shared.made = state.shared.made) :
    Safe (state.put thread shared next) := by
  have holds : next.holds = (state.threads thread).holds := congrArg (List.map Prod.fst) roles
  apply safe.put fits
  · rw [holds]
    exact safe.nodup thread
  · rw [holds]
    exact fun fiber held => .inl held
  · rw [roles, fibers]
    intro entry member
    rw [propext queued.mem_iff]
    exact safe.role thread entry member
  · rw [fibers]
    exact fun _ _ _ _ => ⟨rfl, queued.mem_iff⟩
  · rw [holds]
    exact fun fiber held free => absurd held free
  · rw [made]
    exact fun fiber new old => absurd old (Nat.not_lt.mpr new)
  · exact queued.nodup_iff.mpr safe.queue
  · exact made.ge
  · rw [holds, made]
    exact fun fiber held => safe.held_lt held

variable {fiber : FiberId} {stage later : Stage} {rest : List (FiberId × Stage)}

/-- A thread goes on with the fiber in its hands. -/
theorem Safe.advance (safe : Safe state) (fits : next.Fits)
    (was : (state.threads thread).roles = (fiber, stage) :: rest)
    (becomes : next.roles = (fiber, later) :: rest)
    (ok : later.Ok (fiber ∈ state.shared.queued) (shared.fibers fiber))
    (others : ∀ other ≠ fiber, shared.fibers other = state.shared.fibers other)
    (queued : shared.queued = state.shared.queued) (made : shared.made = state.shared.made) :
    Safe (state.put thread shared next) := by
  have holds : next.holds = (state.threads thread).holds := by
    rw [Thread.holds, Thread.holds, was, becomes, List.map_cons, List.map_cons]
  have held : fiber ∈ (state.threads thread).holds := by
    rw [Thread.holds, was]
    exact List.mem_cons_self
  have nodup : fiber ∉ rest.map Prod.fst := by
    have distinct := safe.nodup thread
    rw [Thread.holds, was, List.map_cons] at distinct
    exact (List.nodup_cons.mp distinct).1
  apply safe.put fits
  · rw [holds]
    exact safe.nodup thread
  · rw [holds]
    exact fun fiber held => .inl held
  · rw [becomes, queued]
    intro entry member
    obtain rfl | inRest := List.mem_cons.mp member
    · exact ok
    · have apart : entry.1 ≠ fiber := fun same => nodup (same ▸ List.mem_map_of_mem inRest)
      rw [others entry.1 apart]
      exact safe.role thread entry (was ▸ List.mem_cons_of_mem _ inRest)
  · rw [queued]
    exact fun other free _ _ => ⟨others other fun same => free (same ▸ held), Iff.rfl⟩
  · rw [holds]
    exact fun other own free => absurd own free
  · rw [made]
    exact fun other new old => absurd old (Nat.not_lt.mpr new)
  · rw [queued]
    exact safe.queue
  · exact made.ge
  · rw [holds, made]
    exact fun other own => safe.held_lt own

/-- A thread lets go of a fiber. -/
theorem Safe.release (safe : Safe state) (fits : next.Fits)
    (was : (state.threads thread).roles = (fiber, stage) :: rest) (becomes : next.roles = rest)
    (ok : Free (fiber ∈ shared.queued) (shared.fibers fiber))
    (others : ∀ other ≠ fiber, shared.fibers other = state.shared.fibers other ∧
      (other ∈ shared.queued ↔ other ∈ state.shared.queued))
    (queue : shared.queued.Nodup) (made : shared.made = state.shared.made) :
    Safe (state.put thread shared next) := by
  have held : fiber ∈ (state.threads thread).holds := by
    rw [Thread.holds, was]
    exact List.mem_cons_self
  have own : ∀ other ∈ next.holds, other ∈ (state.threads thread).holds := by
    intro other member
    rw [Thread.holds, was]
    rw [Thread.holds, becomes] at member
    exact List.mem_cons_of_mem _ member
  have distinct := safe.nodup thread
  rw [Thread.holds, was, List.map_cons] at distinct
  obtain ⟨notRest, nodup⟩ := List.nodup_cons.mp distinct
  apply safe.put fits
  · rw [Thread.holds, becomes]
    exact nodup
  · exact fun other member => .inl (own other member)
  · rw [becomes]
    intro entry member
    have inRest : entry.1 ∈ rest.map Prod.fst := List.mem_map_of_mem member
    have apart : entry.1 ≠ fiber := fun same => notRest (same ▸ inRest)
    obtain ⟨sameFiber, sameQueue⟩ := others entry.1 apart
    rw [sameFiber, propext sameQueue]
    exact safe.role thread entry (was ▸ List.mem_cons_of_mem _ member)
  · exact fun other free _ _ => others other fun same => free (same ▸ held)
  · intro other member free
    have same : other = fiber := by
      rw [Thread.holds, was, List.map_cons] at member
      obtain same | inRest := List.mem_cons.mp member
      · exact same
      · rw [Thread.holds, becomes] at free
        exact absurd inRest free
    rw [same]
    exact ok
  · rw [made]
    exact fun other new old => absurd old (Nat.not_lt.mpr new)
  · exact queue
  · exact made.ge
  · rw [made]
    exact fun other member => safe.held_lt (own other member)

/-- A thread takes a fiber that nobody has. -/
theorem Safe.acquire (safe : Safe state) (fits : next.Fits)
    (nobody : ∀ other, fiber ∉ (state.threads other).holds)
    (becomes : next.roles = (fiber, later) :: (state.threads thread).roles)
    (ok : later.Ok (fiber ∈ shared.queued) (shared.fibers fiber))
    (others : ∀ other ≠ fiber, shared.fibers other = state.shared.fibers other ∧
      (other ∈ shared.queued ↔ other ∈ state.shared.queued))
    (queue : shared.queued.Nodup) (grows : state.shared.made ≤ shared.made)
    (below : fiber < shared.made)
    (only : ∀ other, state.shared.made ≤ other → other < shared.made → other = fiber) :
    Safe (state.put thread shared next) := by
  have holds : next.holds = fiber :: (state.threads thread).holds :=
    congrArg (List.map Prod.fst) becomes
  apply safe.put fits
  · rw [holds]
    exact List.nodup_cons.mpr ⟨nobody thread, safe.nodup thread⟩
  · rw [holds]
    intro other member
    obtain rfl | own := List.mem_cons.mp member
    · exact .inr nobody
    · exact .inl own
  · rw [becomes]
    intro entry member
    obtain rfl | own := List.mem_cons.mp member
    · exact ok
    · have apart : entry.1 ≠ fiber := fun same =>
        nobody thread (same ▸ List.mem_map_of_mem own)
      obtain ⟨sameFiber, sameQueue⟩ := others entry.1 apart
      rw [sameFiber, propext sameQueue]
      exact safe.role thread entry own
  · rw [holds]
    exact fun other _ free _ => others other fun same => free (same ▸ List.mem_cons_self)
  · rw [holds]
    exact fun other own free => absurd (List.mem_cons_of_mem _ own) free
  · rw [holds]
    exact fun other new old free => absurd (only other new old ▸ List.mem_cons_self) free
  · exact queue
  · exact grows
  · rw [holds]
    intro other member
    obtain rfl | own := List.mem_cons.mp member
    · exact below
    · exact (safe.held_lt own).trans_le grows

end Threads

section Enqueue

variable {state : State} {queued : Prop} {fiber : Fiber} {named other : FiberId}
  {shared : Shared} {threadId : Option ThreadId} {job : Job} {jobs : List Job}

@[simp] theorem Shared.modify_self {change : Fiber → Fiber} :
    (shared.modify named change).fibers named = change (shared.fibers named) :=
  if_pos rfl

theorem Shared.modify_other {change : Fiber → Fiber} (apart : other ≠ named) :
    (shared.modify named change).fibers other = shared.fibers other :=
  if_neg apart

@[simp] theorem Shared.queued_pushBack :
    (shared.pushBack threadId job).queued = shared.queued ++ job.fiber?.toList := by
  cases job <;> simp [Shared.queued, Shared.pushBack, Job.fiber?]

@[simp] theorem Shared.made_pushBack : (shared.pushBack threadId job).made = shared.made := by
  cases job <;> rfl

theorem Shared.fibers_pushBack (apart : other ∉ job.fiber?) :
    (shared.pushBack threadId job).fibers other = shared.fibers other := by
  cases job with
  | fiber named =>
      have distinct : other ≠ named := by
        rintro rfl
        exact apart rfl
      simp only [pushBack, answer]
      exact modify_other distinct
  | func => rfl

theorem Shared.fibers_pushBack_self :
    (shared.pushBack threadId (.fiber named)).fibers named =
      { shared.fibers named with wake := .enqueued } := by
  simp only [pushBack, answer]
  exact modify_self

/-- A fiber that is to be enqueued may be, whoever has it. -/
theorem Stage.Ok.answer {stage : Stage} (ok : stage.Ok queued fiber)
    (awaited : fiber.wake = .awaited) {inQueue : Prop} (enters : inQueue) :
    stage.Ok inQueue { fiber with wake := .enqueued } := by
  have live : Live inQueue { fiber with wake := .enqueued } := .inr ⟨rfl, enters⟩
  have unclosed : ¬ Closed queued fiber := fun closed => by
    rw [closed.1] at awaited
    cases awaited
  cases stage with
  | spare | leaving | ready => exact absurd ok.2 unclosed
  | fresh ticket => exact absurd ok.2.2 unclosed
  | popped =>
      rw [ok.2.1] at awaited
      cases awaited
  | running | holding => exact ⟨ok.1, live⟩
  | back | settling => exact .inl ⟨(ok.resolve_right fun ended => unclosed ended.2).1, live⟩

theorem Free.answer (free : Free queued fiber) (awaited : fiber.wake = .awaited) {inQueue : Prop}
    (enters : inQueue) : Free inQueue { fiber with wake := .enqueued } := by
  obtain closed | ⟨suspended, _⟩ := free
  · rw [closed.1] at awaited
    cases awaited
  · exact .inr ⟨suspended, .inr ⟨rfl, enters⟩⟩

/-- A fiber that is awaited is not in the queue. -/
theorem Safe.awaited_unqueued (safe : Safe state)
    (awaited : (state.shared.fibers named).wake = .awaited) : named ∉ state.shared.queued := by
  intro inQueue
  have unlive : ¬ Live (named ∈ state.shared.queued) (state.shared.fibers named) := by
    rintro (⟨_, free⟩ | ⟨enqueued, _⟩)
    · exact free inQueue
    · rw [awaited] at enqueued
      cases enqueued
  have unclosed : ¬ Closed (named ∈ state.shared.queued) (state.shared.fibers named) :=
    fun closed => closed.2 inQueue
  by_cases held : ∃ thread, named ∈ (state.threads thread).holds
  · obtain ⟨thread, held⟩ := held
    obtain ⟨⟨_, stage⟩, member, rfl⟩ := List.mem_map.mp held
    have ok := safe.role thread _ member
    cases stage with
    | spare | leaving | ready => exact unclosed ok.2
    | fresh ticket => exact unclosed ok.2.2
    | popped => exact ok.2.2 inQueue
    | running | holding => exact unlive ok.2
    | back | settling => exact ok.elim (fun live => unlive live.2) fun ended => unclosed ended.2
  · obtain closed | live := safe.free named (not_exists.mp held)
    · exact unclosed closed
    · exact unlive live.2

/-- A task whose fiber is awaited comes into the queue. -/
theorem Safe.pushBack (safe : Safe state)
    (once : ∀ named ∈ job.fiber?, (state.shared.fibers named).wake = .awaited) :
    Safe ⟨state.shared.pushBack threadId job, state.threads⟩ := by
  cases job with
  | func =>
      have queued : (state.shared.pushBack threadId .func).queued = state.shared.queued := by
        simp [Job.fiber?]
      obtain ⟨exclusive, nodup, fits, role, free, queue, unmade⟩ := safe
      exact ⟨exclusive, nodup, fits, by rwa [queued], by rwa [queued], by rwa [queued],
        by rwa [queued]⟩
  | fiber named =>
      have awaited := once named rfl
      have unqueued := safe.awaited_unqueued awaited
      have queued : (state.shared.pushBack threadId (.fiber named)).queued =
          state.shared.queued ++ [named] := Shared.queued_pushBack
      have enters : named ∈ (state.shared.pushBack threadId (.fiber named)).queued := by
        simp [queued]
      have others : ∀ other ≠ named,
          (state.shared.pushBack threadId (.fiber named)).fibers other =
              state.shared.fibers other ∧
            (other ∈ (state.shared.pushBack threadId (.fiber named)).queued ↔
              other ∈ state.shared.queued) := by
        intro other apart
        refine ⟨Shared.fibers_pushBack fun same => apart (Option.some.inj same).symm, ?_⟩
        simp [queued, apart]
      refine ⟨safe.exclusive, safe.nodup, safe.fits, ?_, ?_, ?_, ?_⟩
      · intro thread entry member
        by_cases same : entry.1 = named
        · subst same
          rw [Shared.fibers_pushBack_self]
          exact (safe.role thread entry member).answer awaited enters
        · obtain ⟨sameFiber, sameQueue⟩ := others entry.1 same
          rw [sameFiber, propext sameQueue]
          exact safe.role thread entry member
      · intro other nobody
        by_cases same : other = named
        · subst same
          rw [Shared.fibers_pushBack_self]
          exact (safe.free other nobody).answer awaited enters
        · obtain ⟨sameFiber, sameQueue⟩ := others other same
          rw [sameFiber, propext sameQueue]
          exact safe.free other nobody
      · rw [queued]
        exact List.nodup_append.mpr ⟨safe.queue, List.nodup_singleton _,
          fun other inQueue last isLast => by
            rw [List.mem_singleton.mp isLast]
            exact fun same => unqueued (same ▸ inQueue)⟩
      · intro other beyond
        obtain ⟨nobody, closed⟩ := safe.unmade other beyond
        have apart : other ≠ named := by
          rintro rfl
          rw [closed.1] at awaited
          cases awaited
        obtain ⟨sameFiber, sameQueue⟩ := others other apart
        exact ⟨nobody, by rwa [sameFiber, propext sameQueue]⟩

/-- The tasks of one call of `Schedule`, none of whose fibers has been enqueued. -/
theorem Safe.pushAll (safe : Safe state) (distinct : (jobs.filterMap Job.fiber?).Nodup)
    (once : ∀ named ∈ jobs.filterMap Job.fiber?, (state.shared.fibers named).wake = .awaited) :
    Safe ⟨jobs.foldl (Shared.pushBack threadId) state.shared, state.threads⟩ := by
  induction jobs generalizing state with
  | nil => exact safe
  | cons job jobs ih =>
      have first : ∀ named ∈ job.fiber?, (state.shared.fibers named).wake = .awaited := by
        intro named isFiber
        exact once named (List.mem_filterMap.mpr ⟨job, List.mem_cons_self, isFiber⟩)
      have pushed := @Safe.pushBack state threadId job safe first
      apply ih pushed
      · exact distinct.sublist ((List.sublist_cons_self job jobs).filterMap Job.fiber?)
      · intro named later
        have apart : named ∉ job.fiber? := by
          intro isFiber
          rw [List.filterMap_cons, isFiber] at distinct
          exact (List.nodup_cons.mp distinct).1 later
        rw [Shared.fibers_pushBack apart]
        obtain ⟨other, member, isFiber⟩ := List.mem_filterMap.mp later
        exact once named (List.mem_filterMap.mpr ⟨other, List.mem_cons_of_mem _ member, isFiber⟩)

end Enqueue

section Steps

variable {state later : State} {thread : ThreadId} {now next : Thread} {choice : Choice}
  {shared : Shared} {self : Worker} {running : Running} {task : Task} {action : Action}
  {fiber : FiberId}

theorem Calls.roles_eq {after : After} (calls : Calls now after) : after.roles = now.roles := by
  cases calls <;> rfl

theorem Calls.fits_eq {after : After} (calls : Calls now after) : after.Fits = now.Fits := by
  cases calls <;> rfl

theorem Calls.hand_eq {after : After} (calls : Calls now after) : after.hand = now.hand := by
  cases calls <;> rfl

theorem Calls.hand_none {after : After} (calls : Calls now after) : after.hand = none := by
  cases calls <;> rfl

theorem Calls.enqueues_eq {after : After} (calls : Calls now after) (jobs : List Job)
    (threadId : Option ThreadId) : now.enqueues (.schedule jobs threadId) = jobs := by
  cases calls <;> rfl

theorem Worker.release_fiber (job : running.task.job = .fiber fiber) :
    self.release running = self := by
  rw [Worker.release, if_neg]
  rw [job]
  exact Job.noConfusion

theorem Worker.roles_release (job : running.task.job = .func) :
    (self.release running).roles = [] := by
  rw [Worker.release, if_pos job]
  rfl

theorem Worker.roles_spare (spare : self.cbFiber = some fiber) : self.roles = [(fiber, .spare)] := by
  rw [Worker.roles, spare]
  rfl

theorem Task.roles_fiber (job : task.job = .fiber fiber) :
    Task.roles (some task) self = (fiber, .popped) :: self.roles := by
  rw [Task.roles, Option.bind_some, job]
  rfl

theorem Task.roles_func (job : task.job = .func) : Task.roles (some task) self = self.roles := by
  rw [Task.roles, Option.bind_some, job]
  rfl

theorem Running.roles_fiber {stage : Stage} (job : running.task.job = .fiber fiber) :
    running.roles self stage = (running.fiber, stage) :: self.roles := by
  rw [Running.roles, Worker.release_fiber job]

theorem Running.roles_func {stage : Stage} (job : running.task.job = .func) :
    running.roles self stage = [(running.fiber, stage)] := by
  rw [Running.roles, Worker.roles_release job]

/-- What is known of the fiber that a thread has switched to. -/
theorem Safe.role_head (safe : Safe state) {stage : Stage} {rest : List (FiberId × Stage)}
    (roles : (state.threads thread).roles = (fiber, stage) :: rest) :
    stage.Ok (fiber ∈ state.shared.queued) (state.shared.fibers fiber) :=
  safe.role thread (fiber, stage) (roles ▸ List.mem_cons_self)

theorem Safe.took_suspended (safe : Safe state) (was : state.threads thread = .took self (some task))
    (job : task.job = .fiber fiber) : Status.Suspended (state.shared.fibers fiber).status :=
  (safe.role_head ((congrArg Thread.roles was).trans (Task.roles_fiber job))).1

theorem Safe.took_init (safe : Safe state) (was : state.threads thread = .took self (some task))
    (job : task.job = .func) (spare : self.cbFiber = some fiber) :
    (state.shared.fibers fiber).status = .init :=
  (safe.role_head ((congrArg Thread.roles was).trans
    ((Task.roles_func job).trans (Worker.roles_spare spare)))).1

theorem Safe.running_exec (safe : Safe state) (was : state.threads thread = .running self running) :
    (state.shared.fibers running.fiber).status = .exec :=
  (safe.role_head (congrArg Thread.roles was)).1

/-- The fiber that a worker is about to switch to starts with the callback, or is the
suspended fiber of the task; it is not in the queue again. -/
theorem Safe.entering (safe : Safe state) (was : state.threads thread = .entering self running) :
    Status.Suspended (state.shared.fibers running.fiber).status ∧
      running.fiber ∉ state.shared.queued ∧
        (running.task.job = .func → (state.shared.fibers running.fiber).status = .init ∧
          (state.shared.fibers running.fiber).func = some running.task.ticket) := by
  have ok := safe.role_head (congrArg Thread.roles was)
  split at ok
  case isTrue =>
    obtain ⟨init, func, -, unqueued⟩ := ok
    exact ⟨.inl init, unqueued, fun _ => ⟨init, func⟩⟩
  case isFalse named =>
    exact ⟨ok.1, ok.2.2, fun callback => absurd callback named⟩

/-- A fiber in the queue that is not executing is in nobody's hands. -/
theorem Safe.queued_unheld (safe : Safe state) (queued : fiber ∈ state.shared.queued)
    (free : (state.shared.fibers fiber).status ≠ .exec) :
    (∀ other, fiber ∉ (state.threads other).holds) ∧
      Status.Suspended (state.shared.fibers fiber).status ∧
      (state.shared.fibers fiber).wake = .enqueued := by
  have nobody : ∀ other, fiber ∉ (state.threads other).holds := by
    intro other held
    obtain ⟨⟨_, stage⟩, member, rfl⟩ := List.mem_map.mp held
    have ok := safe.role other _ member
    cases stage with
    | spare | leaving | ready => exact ok.2.2 queued
    | fresh ticket => exact ok.2.2.2 queued
    | popped => exact ok.2.2 queued
    | running | holding => exact free ok.1
    | back | settling => exact ok.elim (fun live => free live.1) fun ended => ended.2.2 queued
  refine ⟨nobody, ?_⟩
  obtain closed | ⟨suspended, live⟩ := safe.free fiber nobody
  · exact absurd queued closed.2
  · exact ⟨suspended, (live.resolve_left fun awaited => awaited.2 queued).1⟩

/-- The queue without one task. -/
theorem Shared.queued_erase {index : Nat} (found : shared.funFibers[index]? = some task) :
    (task.job.fiber?.toList ++
      (shared.funFibers.eraseIdx index).filterMap fun task => task.job.fiber?).Perm
        shared.queued := by
  obtain ⟨inside, here⟩ := List.getElem?_eq_some_iff.mp found
  have whole := (List.getElem_cons_eraseIdx_perm inside).filterMap fun task => task.job.fiber?
  rw [here] at whole
  refine List.Perm.trans ?_ whole
  rw [List.filterMap_cons]
  cases task.job.fiber? with
  | none => exact .refl _
  | some fiber => exact .refl _

/-- A caller's new fiber is in nobody's hands. -/
theorem Safe.newFiber (safe : Safe state) :
    Safe ⟨state.shared.newFiber { wake := .awaited }, state.threads⟩ := by
  have others : ∀ other ≠ state.shared.made,
      (state.shared.newFiber { wake := .awaited }).fibers other = state.shared.fibers other :=
    fun other apart => if_neg apart
  obtain ⟨nobody, closed⟩ := safe.unmade state.shared.made le_rfl
  refine ⟨safe.exclusive, safe.nodup, safe.fits, ?_, ?_, safe.queue, ?_⟩
  · intro thread entry member
    have below : entry.1 < state.shared.made := safe.held_lt (List.mem_map_of_mem member)
    rw [others entry.1 (Nat.ne_of_lt below)]
    exact safe.role thread entry member
  · intro other unheld
    by_cases same : other = state.shared.made
    · subst same
      refine .inr ⟨.inl ?_, .inl ⟨?_, closed.2⟩⟩ <;> simp [Shared.newFiber]
    · rw [others other same]
      exact safe.free other unheld
  · intro other beyond
    have past : state.shared.made < other := beyond
    rw [others other (Nat.ne_of_gt past)]
    exact safe.unmade other past.le

/-- Everything a thread does to the fibers and the queue keeps the invariant. -/
theorem Moves.safe (moves : Moves thread state.shared now choice shared next) (safe : Safe state)
    (was : state.threads thread = now)
    (distinct : ((now.enqueues choice).filterMap Job.fiber?).Nodup)
    (once : ∀ fiber ∈ (now.enqueues choice).filterMap Job.fiber?,
      (state.shared.fibers fiber).wake = .awaited)
    (gives : ∀ fiber ∈ now.closes choice, (state.shared.fibers fiber).wake = .awaited) :
    Safe (state.put thread shared next) := by
  have fits := safe.fits thread
  have roles := congrArg Thread.roles was
  rw [was] at fits
  cases moves with
  | enter => exact safe.quiet trivial roles.symm rfl (.refl _) rfl
  | newFiber calls =>
      exact safe.newFiber.quiet (by rwa [After.fits_resume, calls.fits_eq])
        (by rw [After.roles_resume, calls.roles_eq, roles]) rfl (.refl _) rfl
  | erase self index tickle task found mine free =>
      have queue := Shared.queued_erase found
      cases job : task.job with
      | func =>
          rw [job] at queue
          exact safe.quiet trivial ((Task.roles_func job).trans roles.symm) rfl queue rfl
      | fiber fiber =>
          rw [job] at queue
          have distinct := queue.nodup_iff.mpr safe.queue
          obtain ⟨notLeft, leftNodup⟩ := List.nodup_cons.mp distinct
          obtain ⟨nobody, suspended, enqueued⟩ :=
            safe.queued_unheld (queue.mem_iff.mp List.mem_cons_self) (free fiber job)
          have ok : Stage.popped.Ok
              (fiber ∈ (state.shared.funFibers.eraseIdx index).filterMap fun task =>
                task.job.fiber?) (state.shared.fibers fiber) := ⟨suspended, enqueued, notLeft⟩
          refine safe.acquire trivial nobody ((Task.roles_fiber job).trans (by rw [roles]; rfl))
            ok ?_ leftNodup le_rfl ?_ ?_
          · intro other apart
            refine ⟨rfl, Iff.trans ?_ queue.mem_iff⟩
            exact (List.mem_cons.trans (or_iff_right apart)).symm
          · by_contra beyond
            exact (safe.unmade fiber (Nat.le_of_not_lt beyond)).2.2
              (queue.mem_iff.mp List.mem_cons_self)
          · exact fun other new old => absurd old (Nat.not_lt.mpr new)
  | drop self task fiber job ended =>
      rcases safe.took_suspended was job with same | same | same <;> rw [same] at ended <;> simp at ended
  | fiber self task fiber job live =>
      refine safe.quiet ?_ ?_ rfl (.refl _) rfl
      · simp [Thread.Fits, Running.Fits, job]
      · have enters : (Thread.entering self ⟨task, fiber⟩).roles = (fiber, .popped) :: self.roles := by
          rw [Thread.roles, Running.roles_fiber job, job]
          rfl
        exact enters.trans ((Task.roles_fiber job).symm.trans roles.symm)
  | reset self task fiber job spare ended =>
      have was := roles.trans ((Task.roles_func job).trans (Worker.roles_spare spare))
      obtain ⟨-, closed⟩ := safe.role_head was
      have becomes : (Thread.entering self ⟨task, fiber⟩).roles = [(fiber, .fresh task.ticket)] := by
        rw [Thread.roles, Running.roles_func job, if_pos job]
      refine safe.advance ?_ was becomes ?_ (fun other apart => Shared.modify_other apart) rfl rfl
      · simp [Thread.Fits, Running.Fits, job, spare]
      · rw [Shared.modify_self]
        exact ⟨rfl, rfl, closed⟩
  | resetFails self task fiber job spare live =>
      simp [safe.took_init was job spare] at live
  | make self task job none =>
      have own : (state.threads thread).roles = [] := by
        rw [roles, Thread.roles, Task.roles_func job, Worker.roles, none]
        rfl
      obtain ⟨nobody, -, unqueued⟩ := safe.unmade state.shared.made le_rfl
      have becomes : (Thread.entering { self with cbFiber := some state.shared.made }
          ⟨task, state.shared.made⟩).roles =
            (state.shared.made, .fresh task.ticket) :: (state.threads thread).roles := by
        rw [own, Thread.roles, Running.roles_func job, if_pos job]
      have fresh : (state.shared.newFiber { func := some task.ticket }).fibers state.shared.made =
          { func := some task.ticket } := if_pos rfl
      refine safe.acquire ?_ nobody becomes ?_ ?_ safe.queue (Nat.le_succ _) (Nat.lt_succ_self _) ?_
      · simp [Thread.Fits, Running.Fits, job]
      · rw [fresh]
        exact ⟨rfl, rfl, rfl, unqueued⟩
      · exact fun other apart => ⟨if_neg apart, Iff.rfl⟩
      · exact fun other new old => Nat.le_antisymm (Nat.le_of_lt_succ old) new
  | swapIn self running free =>
      obtain ⟨-, unqueued, -⟩ := safe.entering was
      refine safe.advance fits roles rfl ?_ (fun other apart => if_neg apart) rfl rfl
      refine ⟨?_, .inl ⟨?_, unqueued⟩⟩ <;> exact congrArg _ (if_pos rfl)
  | swapInFails self running executing =>
      rcases (safe.entering was).1 with same | same | same <;> rw [same] at executing <;>
        cases executing
  | yieldToHold self running executing =>
      exact safe.advance fits roles rfl (.inl (safe.role_head roles)) (fun _ _ => rfl) rfl rfl
  | yieldToReady self running executing =>
      have unqueued := safe.awaited_unqueued (gives running.fiber rfl)
      refine safe.advance fits roles rfl ?_ (fun other apart => Shared.modify_other apart) rfl rfl
      rw [Shared.modify_self]
      exact ⟨.inl rfl, rfl, unqueued⟩
  | yieldFails self running choice yields free =>
      exact absurd (safe.running_exec was) free
  | ends self running choice status last =>
      have awaited : (state.shared.fibers running.fiber).wake = .awaited := by
        obtain ⟨rfl, -⟩ | ⟨rfl, -⟩ := last <;> exact gives running.fiber rfl
      have ended : Status.Ended status := last.imp And.right And.right
      refine safe.advance fits roles rfl ?_ (fun other apart => Shared.modify_other apart) rfl rfl
      rw [Shared.modify_self]
      exact ⟨.inr ended, rfl, safe.awaited_unqueued awaited⟩
  | leaving self running =>
      exact safe.advance fits roles rfl (.inr (safe.role_head roles)) (fun _ _ => rfl) rfl rfl
  | ready self running ready =>
      refine safe.advance fits roles rfl ?_ (fun _ _ => rfl) rfl rfl
      obtain ⟨executing, -⟩ | ⟨-, closed⟩ := safe.role_head roles
      · rw [ready] at executing
        cases executing
      · exact ⟨ready, closed⟩
  | unready self running unready =>
      refine safe.advance fits roles rfl ?_ (fun _ _ => rfl) rfl rfl
      obtain live | ⟨ready | ended, closed⟩ := safe.role_head roles
      · exact .inl live
      · exact absurd ready unready
      · exact .inr ⟨ended, closed⟩
  | recycle self running job ended =>
      have spare : self.cbFiber = some running.fiber := by
        simpa only [Thread.Fits, Running.Fits, job] using fits
      have was := roles.trans (Running.roles_func job)
      refine safe.advance trivial was (Worker.roles_spare spare) ?_
        (fun other apart => Shared.modify_other apart) rfl rfl
      rw [Shared.modify_self]
      obtain ⟨executing, -⟩ | ⟨-, closed⟩ := safe.role_head was
      · simp [executing] at ended
      · exact ⟨rfl, closed⟩
  | forget self running fiber job ended =>
      have was := roles.trans (Running.roles_fiber job)
      refine safe.release trivial was rfl ?_ (fun _ _ => ⟨rfl, Iff.rfl⟩) safe.queue rfl
      obtain ⟨executing, -⟩ | ⟨-, closed⟩ := safe.role_head was
      · simp [executing] at ended
      · exact .inl closed
  | suspend self running live =>
      refine safe.advance fits roles rfl ?_ (fun _ _ => rfl) rfl rfl
      obtain executing | ⟨ended, -⟩ := safe.role_head roles
      · exact executing
      · exact absurd ended live
  | hold self running =>
      refine safe.release trivial roles rfl ?_
        (fun other apart => ⟨Shared.modify_other apart, Iff.rfl⟩) safe.queue rfl
      rw [Shared.modify_self]
      exact .inr ⟨.inr (.inl rfl), (safe.role_head roles).2⟩
  | leave self ended =>
      cases spare : self.cbFiber with
      | none =>
          have was : self.roles = [] := by rw [Worker.roles, spare]; rfl
          exact safe.quiet trivial (roles.trans was).symm rfl (.refl _) rfl
      | some fiber =>
          have was := roles.trans (Worker.roles_spare spare)
          exact safe.release trivial was rfl (.inl (safe.role_head was).2)
            (fun _ _ => ⟨rfl, Iff.rfl⟩) safe.queue rfl
  | test tests => cases tests <;> exact safe.quiet trivial roles.symm rfl (.refl _) rfl
  | schedule pushes free =>
      cases pushes with
      | call calls jobs threadId =>
          rw [calls.enqueues_eq] at distinct once
          exact (safe.pushAll distinct once).quiet (by rwa [fits_tickled, calls.fits_eq])
            (by rw [roles_tickled, calls.roles_eq, roles]) rfl (.refl _) rfl
      | rescheduling self running =>
          obtain ⟨ready, -, unqueued⟩ := safe.role_head roles
          have queued : (state.shared.pushBack running.task.threadId (.fiber running.fiber)).queued =
              state.shared.queued ++ [running.fiber] := Shared.queued_pushBack
          refine safe.release (by rw [fits_tickled]; trivial) roles (by rw [roles_tickled]; rfl) ?_
            ?_ ?_ Shared.made_pushBack <;> rw [List.foldl_cons, List.foldl_nil]
          · rw [Shared.fibers_pushBack_self, queued]
            exact .inr ⟨.inr (.inr ready), .inr ⟨rfl, by simp⟩⟩
          · intro other apart
            refine ⟨Shared.fibers_pushBack fun same => apart (Option.some.inj same).symm, ?_⟩
            simp [queued, apart]
          · rw [queued, List.nodup_append_comm]
            exact List.nodup_cons.mpr ⟨unqueued, safe.queue⟩
      | expired self tickled count =>
          have none : (List.replicate count Job.func).filterMap Job.fiber? = [] := by
            simp [List.filterMap_replicate, Job.fiber?]
          refine (safe.pushAll ?_ ?_).quiet (by rw [fits_tickled]; trivial)
            (by rw [roles_tickled, roles]; rfl) rfl (.refl _) rfl
          · simp [none]
          · simp [none]
      | triggering job after =>
          exact (safe.pushAll distinct once).quiet (by rw [fits_tickled]; exact fits)
            (by rw [roles_tickled, roles]; rfl) rfl (.refl _) rfl
  | expire self tickled ids next goesOn =>
      obtain rfl | ⟨-, count, rfl⟩ := goesOn <;>
        exact safe.quiet trivial roles.symm rfl (.refl _) rfl
  | addTimer calls timer front =>
      exact safe.quiet (by rwa [fits_tickled, calls.fits_eq])
        (by rw [roles_tickled, calls.roles_eq, roles]) rfl (.refl _) rfl
  | cancelEvent calls index job found =>
      exact safe.quiet ⟨calls.hand_none, calls.fits_eq.mpr fits⟩ (calls.roles_eq.trans roles.symm) rfl (.refl _) rfl
  | cancelTimer calls | addEvent calls | delEvent calls | notDeleted calls | notCancelled calls =>
      exact safe.quiet (by rwa [After.fits_resume, calls.fits_eq])
        (by rw [After.roles_resume, calls.roles_eq, roles]) rfl (.refl _) rfl
  | exhausted | erased =>
      exact safe.quiet (by rw [fits_tickled]; exact fits) (by rw [roles_tickled, roles]; rfl)
        rfl (.refl _) rfl
  | event => exact safe.quiet ⟨rfl, trivial⟩ roles.symm rfl (.refl _) rfl
  | triggered after =>
      exact safe.quiet (by rw [After.fits_resume]; exact fits.2)
        (by rw [After.roles_resume, roles]; rfl) rfl (.refl _) rfl
  | untickled after | write after =>
      exact safe.quiet (by rw [After.fits_resume]; exact fits)
        (by rw [After.roles_resume, roles]; rfl) rfl (.refl _) rfl
  | _ => exact safe.quiet fits roles.symm rfl (.refl _) rfl

/-- A step that enqueues each fiber once per suspension keeps the invariant. -/
theorem Safe.step (safe : Safe state) (orderly : Orderly state action)
    (taken : step state action = some later) : Safe later := by
  refine step_cases taken fun thread now choice shared next actor was moves => ?_
  rw [Orderly, actor] at orderly
  obtain ⟨distinct, once, gives⟩ := orderly
  subst was
  exact moves.safe safe rfl distinct once gives

theorem Safe.of_initial (initial : Initial state) : Safe state := by
  have roles : ∀ thread, (state.threads thread).roles = [] := fun thread => by
    rw [initial.threads thread]
    rfl
  have holds : ∀ thread, (state.threads thread).holds = [] := fun thread =>
    congrArg (List.map Prod.fst) (roles thread)
  have queued : state.shared.queued = [] := by rw [Shared.queued, initial.funFibers]; rfl
  have closed : ∀ fiber, Closed (fiber ∈ state.shared.queued) (state.shared.fibers fiber) := by
    intro fiber
    rw [initial.fibers, queued]
    exact ⟨rfl, List.not_mem_nil⟩
  constructor
  · intro one other fiber held
    rw [holds] at held
    cases held
  · intro thread
    rw [holds]
    exact List.nodup_nil
  · intro thread
    rw [initial.threads]
    trivial
  · intro thread entry member
    rw [roles] at member
    cases member
  · exact fun fiber _ => .inl (closed fiber)
  · rw [queued]
    exact List.nodup_nil
  · refine fun fiber _ => ⟨fun thread => ?_, closed fiber⟩
    rw [holds]
    exact List.not_mem_nil

/-- The invariant holds wherever an orderly run gets to. -/
theorem Safe.of_runs (run : Runs Scheduler.step Orderly state later) (initial : Initial state) :
    Safe later :=
  run.invariant (fun _ _ _ safe orderly taken => safe.step orderly taken) (.of_initial initial)

end Steps

end Xten.Scheduler
