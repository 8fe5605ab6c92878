import Xten.Scheduler.Wakeups

/-!
# A graceful stop loses no task

A worker that has found the scheduler stopping leaves `Run` with nothing left to do, and
nothing to come, as long as its last look at `_active_threadNum` does not miss a task that
is neither in the queue nor counted there.
-/

namespace Xten.Scheduler

open Std.Interleaving

/-- A task is with the thread, and neither in the queue nor in `_active_threadNum`: it has
been erased and not yet been counted, or is about to be enqueued. -/
def Thread.Between (shared : Shared) : Thread → Prop
  | .erased _ _ _ | .rescheduling _ _ | .expired _ _ _ | .triggering _ _ => True
  | .judging _ current => (shared.fibers current.fiber).status = .ready
  | _ => False

/-- No timer, no event, and no task that is not counted in `_active_threadNum`. -/
structure Settled (state : State) : Prop where
  timers : state.shared.timers = []
  events : state.shared.events = []
  queue : state.shared.funFibers = []
  between : ∀ thread, ¬ (state.threads thread).Between state.shared

/-- A task is made, or the timer or event of one. -/
def Choice.feeds : Choice → Bool
  | .schedule _ _ | .addTimer _ _ | .addEvent _ => true
  | _ => false

/-- Once `Stop` has been called, tasks come from the queue, from running tasks, timers and
events. -/
def Drains (state : State) (action : Action) : Prop :=
  Orderly state action ∧ (state.shared.autoStopping → state.threads action.actor.1 = .outside →
    action.actor.2.feeds = false)

instance (state : State) (action : Action) : Decidable (Drains state action) :=
  inferInstanceAs (Decidable (_ ∧ _))

/-- The scheduler is settled whenever `IsStopping` comes out true. -/
structure Conclusive (state : State) (action : Action) : Prop where
  drains : Drains state action
  decides : ∀ self, state.threads action.actor.1 = .activeRead self → action.actor.2 = .go →
    state.shared.activeThreadNum = 0 → Settled state

/-- A thread that is not in `Run`. -/
def Thread.Away : Thread → Prop
  | .outside | .stopping | .waking _ | .left => True
  | .tickling after | .writing after | .triggering _ after | .triggered after =>
      after = .outside ∨ (∃ count, after = .waking count) ∨ after = .event .outside
  | _ => False

/-- No worker has left a task behind. -/
structure Graceful (state : State) : Prop where
  pinned : ∀ thread, state.threads thread = .left → ∀ task ∈ state.shared.funFibers,
    task.threadId ≠ some thread
  finished : (∃ thread, state.threads thread = .left) →
    (∀ thread, (state.threads thread).Away) → state.shared.funFibers = [] ∧
      ∀ task ∈ state.shared.scheduled, task ∈ state.shared.ran.map Prod.fst

/-- Nothing is left to do, and nothing is to come. -/
structure Quiet (state : State) : Prop where
  settled : Settled state
  inactive : ∀ thread, ¬ (state.threads thread).Active

def After.Ends : After → Prop
  | .outside | .waking _ => False
  | .took self _ | .running self _ | .loop self | .handling self _ => self.idleTerm
  | .event after => after.Ends

/-- The idle fiber of the worker has ended. -/
def Thread.Ends : Thread → Prop
  | .outside | .stopping | .waking _ | .failed => False
  | .left => True
  | .loop self | .scanning self _ _ | .erased self _ _ | .took self _ | .dropping self
  | .entering self _ | .running self _ | .leaving self _ | .returned self _ | .judging self _
  | .rescheduling self _ | .settling self _ | .holding self _ | .idling self | .timing self
  | .pending self | .stopRead self | .autoRead self | .emptyRead self | .activeRead self
  | .waiting self | .expiring self _ | .expired self _ _ | .handling self _ | .idled self =>
      self.idleTerm
  | .tickling after | .writing after | .triggering _ after | .triggered after => after.Ends

section Quiet

variable {state later : State} {thread : ThreadId} {shared : Shared} {now next : Thread}
  {choice : Choice}

@[simp] theorem After.ends_resume {after : After} : after.resume.Ends = after.Ends := by
  cases after <;> rfl

@[simp] theorem ends_tickled (tickle : Bool) (after : After) :
    (tickled tickle after).Ends = after.Ends := by
  cases tickle
  · exact after.ends_resume
  · rfl

@[simp] theorem After.between_resume {after : After} : ¬ after.resume.Between shared := by
  cases after <;> exact not_false

@[simp] theorem between_tickled (tickle : Bool) (after : After) :
    ¬ (tickled tickle after).Between shared := by
  cases tickle
  · exact after.between_resume
  · exact not_false

/-- A thread without a task moves. -/
theorem Quiet.put (quiet : Quiet state) (timers : shared.timers = []) (events : shared.events = [])
    (queue : shared.funFibers = [])
    (ready : ∀ fiber, (shared.fibers fiber).status = .ready →
      (state.shared.fibers fiber).status = .ready)
    (between : ¬ next.Between shared) (inactive : ¬ next.Active) :
    Quiet (state.put thread shared next) := by
  refine ⟨⟨timers, events, queue, fun other => ?_⟩, fun other => ?_⟩
  · obtain ⟨-, current⟩ | ⟨-, current⟩ := state.put_cases thread shared next other
    all_goals rw [current]
    · exact between
    · intro now
      apply quiet.settled.between other
      cases here : state.threads other with
      | judging self running =>
          rw [here] at now
          exact ready _ now
      | erased | rescheduling | expired | triggering => trivial
      | _ =>
          rw [here] at now
          exact now
  · obtain ⟨-, current⟩ | ⟨-, current⟩ := state.put_cases thread shared next other
    all_goals rw [current]
    · exact inactive
    · exact quiet.inactive other

/-- A thread without a task moves, and leaves what is shared alone. -/
theorem Quiet.keep (quiet : Quiet state) (timers : shared.timers = state.shared.timers)
    (events : shared.events = state.shared.events)
    (queue : shared.funFibers = state.shared.funFibers)
    (fibers : shared.fibers = state.shared.fibers)
    (between : ¬ next.Between shared) (inactive : ¬ next.Active) :
    Quiet (state.put thread shared next) :=
  quiet.put (timers.trans quiet.settled.timers) (events.trans quiet.settled.events)
    (queue.trans quiet.settled.queue) (fun fiber ready => by rwa [← fibers]) between inactive

theorem Calls.outside_of_inactive {after : After} (calls : Calls now after) (quiet : ¬ now.Active) :
    now = .outside ∧ after = .outside := by
  cases calls with
  | outside => exact ⟨rfl, rfl⟩
  | running => exact absurd trivial quiet

/-- What is quiet stays quiet. -/
theorem Moves.quiet (moves : Moves thread state.shared now choice shared next)
    (quiet : Quiet state) (was : state.threads thread = now)
    (sources : now = .outside → choice.feeds = false) : Quiet (state.put thread shared next) := by
  have between := was ▸ quiet.settled.between thread
  have inactive := was ▸ quiet.inactive thread
  have queue := quiet.settled.queue
  cases moves with
  | newFiber calls =>
      obtain ⟨rfl, rfl⟩ := calls.outside_of_inactive inactive
      refine quiet.put quiet.settled.timers quiet.settled.events queue (fun fiber ready => ?_)
        not_false not_false
      change ((if fiber = state.shared.made then _ else _ : Fiber)).status = .ready at ready
      split at ready
      · cases ready
      · exact ready
  | addTimer calls | addEvent calls =>
      obtain ⟨rfl, rfl⟩ := calls.outside_of_inactive inactive
      cases sources rfl
  | cancelTimer calls id =>
      obtain ⟨rfl, rfl⟩ := calls.outside_of_inactive inactive
      refine quiet.put ?_ quiet.settled.events queue (fun _ ready => ready) not_false not_false
      change state.shared.timers.filter _ = []
      rw [quiet.settled.timers]
      rfl
  | delEvent calls index found =>
      rw [quiet.settled.events] at found
      cases found
  | cancelEvent calls index job found | event self tickled index job found =>
      rw [quiet.settled.events] at found
      cases found
  | notDeleted calls | notCancelled calls =>
      obtain ⟨rfl, rfl⟩ := calls.outside_of_inactive inactive
      exact quiet.keep rfl rfl rfl rfl not_false not_false
  | exhausted self index tickle =>
      refine quiet.keep rfl rfl rfl rfl (between_tickled _ _) ?_
      rw [active_tickled]
      exact nofun
  | elsewhere self index tickle task found | skip self index tickle task fiber found
  | erase self index tickle task found =>
      rw [queue] at found
      cases found
  | erased => exact absurd trivial between
  | drop | fiber | reset | resetFails | make => exact absurd rfl inactive
  | dropping | swapIn | swapInFails | yieldToHold
  | yieldToReady | yieldFails | ends | leaving | returned => exact absurd trivial inactive
  | ready self running ready => exact absurd ready between
  | untickled after | write after =>
      refine quiet.keep rfl rfl rfl rfl After.between_resume ?_
      rw [After.active_resume]
      exact inactive
  | triggered after =>
      refine quiet.keep rfl rfl rfl rfl After.between_resume ?_
      rw [After.active_resume]
      exact inactive
  | tickle after => exact quiet.keep rfl rfl rfl rfl not_false inactive
  | recycle | hold =>
      refine quiet.put quiet.settled.timers quiet.settled.events queue (fun fiber ready => ?_)
        not_false not_false
      change ((if fiber = _ then _ else _ : Fiber)).status = .ready at ready
      split at ready
      · cases ready
      · exact ready
  | expire self tickled ids next goesOn =>
      obtain rfl | ⟨some, -⟩ := goesOn
      · refine quiet.put ?_ quiet.settled.events queue (fun _ => id) not_false not_false
        change state.shared.timers.filter _ = []
        rw [quiet.settled.timers]
        rfl
      · exact absurd quiet.settled.timers some
  | test tests => cases tests <;> exact quiet.keep rfl rfl rfl rfl not_false not_false
  | schedule pushes free =>
      cases pushes with
      | call calls =>
          obtain ⟨rfl, rfl⟩ := calls.outside_of_inactive inactive
          cases sources rfl
      | _ => exact absurd trivial between
  | _ => exact quiet.keep rfl rfl rfl rfl not_false not_false

theorem Calls.ends_eq {after : After} (calls : Calls now after) : after.Ends = now.Ends := by
  cases calls <;> rfl

theorem Worker.idleTerm_of_release {self : Worker} {running : Running}
    (ended : (self.release running).idleTerm) : self.idleTerm := by
  unfold release at ended
  split at ended <;> exact ended

/-- The idle fiber of a worker ends when `IsStopping` has come out true. -/
theorem Moves.ends_of_next (moves : Moves thread state.shared now choice shared next)
    (overrides : state.shared.isIOManager) (ends : next.Ends) :
    now.Ends ∨ choice = .go ∧ state.shared.activeThreadNum = 0 ∧ ∃ self, now = .activeRead self := by
  cases moves with
  | newFiber calls | cancelTimer calls | addEvent calls | delEvent calls | notDeleted calls
  | notCancelled calls =>
      rw [After.ends_resume, calls.ends_eq] at ends
      exact .inl ends
  | addTimer calls =>
      rw [ends_tickled, calls.ends_eq] at ends
      exact .inl ends
  | cancelEvent calls => exact .inl (calls.ends_eq ▸ ends)
  | exhausted | erased =>
      rw [ends_tickled] at ends
      exact .inl ends
  | untickled | write | triggered =>
      rw [After.ends_resume] at ends
      exact .inl ends
  | hold self running => exact .inl (Worker.idleTerm_of_release ends)
  | leave self ended => exact .inl ended
  | idleBase self live base => exact absurd overrides base
  | expire self tickled ids next goesOn =>
      obtain rfl | ⟨-, count, rfl⟩ := goesOn <;> exact .inl ends
  | test tests =>
      cases tests with
      | inactive self none => exact .inr ⟨rfl, none, self, rfl⟩
      | _ => exact .inl ends
  | schedule pushes free =>
      rw [ends_tickled] at ends
      cases pushes with
      | call calls => exact .inl (calls.ends_eq ▸ ends)
      | rescheduling self running => exact .inl (Worker.idleTerm_of_release ends)
      | expired | triggering => exact .inl ends
  | enter => cases ends
  | _ => first | exact .inl ends | exact ends.elim

theorem Moves.isIOManager (moves : Moves thread state.shared now choice shared next) :
    shared.isIOManager = state.shared.isIOManager := by
  cases moves with
  | schedule pushes free =>
      obtain ⟨fibers, pushed⟩ := state.shared.pushAll _ _
      rw [pushed]
  | _ => rfl

theorem Moves.autoStopping (moves : Moves thread state.shared now choice shared next)
    (stops : state.shared.autoStopping) : shared.autoStopping := by
  cases moves with
  | schedule pushes free =>
      obtain ⟨fibers, pushed⟩ := state.shared.pushAll _ _
      rw [pushed]
      exact stops
  | stop => rfl
  | _ => exact stops

/-- `IsStopping` has found `_auto_stopping` set. -/
def Thread.Told : Thread → Prop
  | .emptyRead _ | .activeRead _ => True
  | _ => False

theorem After.not_told_resume {after : After} : ¬ after.resume.Told := by
  cases after <;> exact not_false

theorem not_told_tickled {tickle : Bool} {after : After} : ¬ (tickled tickle after).Told := by
  cases tickle
  · exact After.not_told_resume
  · exact not_false

theorem Moves.told_of_next (moves : Moves thread state.shared now choice shared next)
    (told : next.Told) : now.Told ∨ state.shared.autoStopping := by
  cases moves with
  | newFiber | cancelTimer | addEvent | delEvent | notDeleted | notCancelled | untickled | write
  | triggered => exact absurd told After.not_told_resume
  | addTimer | exhausted | erased | schedule => exact absurd told not_told_tickled
  | expire self tickled ids next goesOn =>
      obtain rfl | ⟨-, count, rfl⟩ := goesOn <;> exact told.elim
  | test tests =>
      cases tests with
      | autoStopping self stops => exact .inr stops
      | empty => exact .inl trivial
      | _ => exact told.elim
  | _ => exact told.elim

/-- A thread with a task in hand is counted, or about to be. -/
theorem Thread.hand_none {thread : Thread} (between : ¬ thread.Between shared)
    (inactive : ¬ thread.Active) : thread.hand = none := by
  have after : ∀ after : After, ¬ after.Active → after.hand = none := by
    intro after
    induction after with
    | took self task => exact Option.not_isSome_iff_eq_none.mp
    | event after ih => exact ih
    | _ => exact fun _ => rfl
  cases thread with
  | erased | triggering => exact absurd trivial between
  | entering => exact absurd trivial inactive
  | took self task => exact Option.not_isSome_iff_eq_none.mp inactive
  | tickling next | writing next | triggered next => exact after next inactive
  | _ => rfl

/-- The invariant: a worker whose idle fiber has ended leaves nothing behind. -/
structure Leaving (state : State) : Prop where
  sound : Sound state
  overrides : state.shared.isIOManager
  told : ∀ thread, (state.threads thread).Told → state.shared.autoStopping
  ended : ∀ thread, (state.threads thread).Ends → Quiet state ∧ state.shared.autoStopping

theorem Leaving.step {action : Action} (leaving : Leaving state)
    (conclusive : Conclusive state action) (taken : step state action = some later) :
    Leaving later := by
  obtain ⟨⟨orderly, sources⟩, decides⟩ := conclusive
  have sound := leaving.sound.step orderly taken
  refine step_cases (motive := fun later => Sound later → Leaving later) taken ?_ sound
  intro thread now choice shared next actor was moves sound
  simp only [actor, was] at sources decides
  refine ⟨sound, moves.isIOManager.trans leaving.overrides, fun other told => ?_,
    fun other ends => ?_⟩
  · apply moves.autoStopping
    obtain ⟨-, current⟩ | ⟨-, current⟩ := state.put_cases thread shared next other
    all_goals rw [current] at told
    · exact (moves.told_of_next told).elim (fun before => leaving.told thread (was ▸ before)) id
    · exact leaving.told other told
  · have before : Quiet state ∧ state.shared.autoStopping := by
      obtain ⟨-, current⟩ | ⟨-, current⟩ := state.put_cases thread shared next other
      all_goals rw [current] at ends
      · obtain ended | ⟨rfl, none, self, rfl⟩ := moves.ends_of_next leaving.overrides ends
        · exact leaving.ended thread (was ▸ ended)
        · have active := leaving.sound.active
          rw [none] at active
          exact ⟨⟨decides self rfl rfl none, active.none_of_zero⟩, leaving.told thread (by rw [was]; trivial)⟩
      · exact leaving.ended other ends
    exact ⟨moves.quiet before.1 was (sources before.2), moves.autoStopping before.2⟩

end Quiet

section Runs

variable {start state : State}

/-- A graceful stop loses no task. -/
theorem graceful (initial : Initial start) (overrides : start.shared.isIOManager)
    (run : Runs step Conclusive start state) : Graceful state := by
  have leaving : Leaving state := by
    refine run.invariant (fun _ _ _ leaving conclusive taken => leaving.step conclusive taken) ?_
    refine ⟨.of_initial initial, overrides, fun thread told => ?_, fun thread ends => ?_⟩
    · rw [initial.threads] at told
      exact told.elim
    · rw [initial.threads] at ends
      exact ends.elim
  have quiet : ∀ thread, state.threads thread = .left → Quiet state := fun thread left =>
    (leaving.ended thread (by rw [left]; trivial)).1
  refine ⟨fun thread left task member => ?_, fun ⟨thread, left⟩ _ => ?_⟩
  · rw [(quiet thread left).settled.queue] at member
    cases member
  · obtain ⟨settled, inactive⟩ := quiet thread left
    refine ⟨settled.queue, fun task known => ?_⟩
    obtain inShared | ⟨other, held⟩ := (leaving.sound.ledger.accounts.complete task).mp known
    · rw [Shared.tasks, settled.queue] at inShared
      exact inShared
    · rw [Thread.tasks, Thread.hand_none (settled.between other) (inactive other)] at held
      cases held

/-- A callback is run, and the scheduler is stopped, up to the end of `IsStopping`. -/
def stopRun : List Action :=
  [.exec 1 (.schedule [.func] none), .exec 1 .go, .enter 0] ++ List.replicate 5 (.exec 0 .go) ++
    .exec 0 .finish :: List.replicate 8 (.exec 0 .go) ++
    .exec 1 .stop :: List.replicate 5 (.exec 1 .go) ++ List.replicate 5 (.exec 0 .go)

/-- The worker leaves. -/
def leaveRun : List Action :=
  List.replicate 5 (.exec 0 .go)

def undecided (state : State) (action : Action) : Bool :=
  decide (Drains state action) &&
    match state.threads action.actor.1 with
    | .activeRead _ => false
    | _ => true

theorem undecided_sound (state : State) (action : Action) (passes : undecided state action) :
    Conclusive state action := by
  unfold undecided at passes
  obtain ⟨drains, passes⟩ := Bool.and_eq_true_iff.mp passes
  refine ⟨of_decide_eq_true drains, fun self decides => ?_⟩
  rw [decides] at passes
  cases passes

def stopped : State := (replay step undecided stopRun (unstarted true 1)).get (by decide)

/-- `IsStopping` comes out true with nothing left to do. -/
theorem conclusive_stopped : Conclusive stopped (.exec 0 .go) := by
  have run : replay step undecided stopRun (unstarted true 1) = some stopped :=
    (Option.some_get _).symm
  have still : ∀ thread, stopped.threads thread = .outside ∨
      stopped.threads thread = .activeRead ⟨some 0, false⟩ :=
    replay_forall (motive := fun thread : Thread => thread = .outside ∨
      thread = .activeRead ⟨some 0, false⟩) step_frame 2 run (by decide) (by decide)
      fun _ _ => .inl rfl
  refine ⟨by decide, fun _ _ _ _ => ⟨by decide, by decide, by decide, fun thread => ?_⟩⟩
  obtain outside | reads := still thread
  · rw [outside]
    exact not_false
  · rw [reads]
    exact not_false

def decided : State := (step stopped (.exec 0 .go)).get (by decide)

def finished : State := (replay step undecided leaveRun decided).get (by decide)

theorem graceful_finished : finished.threads 0 = .left ∧ finished.shared.ran.length = 1 ∧
    Graceful finished := by
  have run : Runs step Conclusive (unstarted true 1) decided :=
    (Runs.of_replay undecided_sound (Option.some_get _).symm).tail conclusive_stopped
      (Option.some_get _).symm
  exact ⟨by decide, by decide, graceful (initial_unstarted true 1) rfl
    (run.trans (.of_replay undecided_sound (Option.some_get _).symm))⟩

/-- One worker has erased a callback and not yet counted it when another one looks at
`_active_threadNum`; the callback enqueues a task for that one. -/
def lossRun : List Action :=
  .enter 1 :: List.replicate 4 (.exec 1 .go) ++
    .exec 2 (.schedule [.func] none) :: List.replicate 2 (.exec 2 .go) ++
    [.exec 2 .stop, .exec 2 .go, .enter 0] ++ List.replicate 2 (.exec 0 .go) ++
    List.replicate 6 (.exec 1 .go) ++ .exec 0 .go :: List.replicate 5 (.exec 1 .go) ++
    [.exec 0 .go, .exec 0 .go, .exec 0 (.schedule [.func] (some 1))]

def lost : State :=
  (replay step (fun state action => decide (Drains state action)) lossRun
    (unstarted true 2)).get (by decide)

theorem not_graceful : ¬ ∀ start state : State, Initial start → start.shared.isIOManager →
    Runs step Drains start state → Graceful state := by
  intro claimed
  have run : Runs step Drains (unstarted true 2) lost :=
    .of_replay (fun _ _ passes => of_decide_eq_true passes) (Option.some_get _).symm
  exact (claimed (unstarted true 2) lost (initial_unstarted true 2) rfl run).pinned 1 (by decide)
    ⟨1, .func, some 1⟩ (by decide) rfl

end Runs

end Xten.Scheduler
