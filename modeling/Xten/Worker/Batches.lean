import Xten.Worker.WaitAll

/-!
# Tasks that are submitted together

A `Schedule` for several tasks takes a permit for each of them before it schedules the first. It
gets them all as long as the calls in progress ask for no more permits together than there are in
the group; the permits that have been kept or lost are not among these.
-/

namespace Xten.WorkerGroup

open Std.Interleaving
open FiberSemphore (FiberId)

variable {Task : Type}

/-- The permits that a call asks for, those that it has taken already included. -/
def Call.demand (batchSize : Nat) : Call Task → Nat
  | .single _ | .scheduling _ => 1
  | .batch workcbs cbs => workcbs.length + cbs.length
  | .marking | .collecting _ => batchSize
  | _ => 0

/-- The permits that a fiber has to do without as long as it is in a call: if the call is within
a task, that of the task is one of them. -/
def demandOf (batchSize : Nat) (work : Work Task) (call : Call Task) : Nat :=
  if call.demand batchSize = 0 then 0 else call.demand batchSize + work.permits

/-- The permits that a step asks for, or takes away for good. -/
def asks (state : State Task) (action : FiberId × Action Task) : Nat :=
  match action.2 with
  | .call request =>
      demandOf state.shared.batchSize (state.threads action.1).work request.begin
  | .go =>
      match (state.threads action.1).call, state.shared.isFinish with
      | .testing, false =>
          demandOf state.shared.batchSize (state.threads action.1).work .marking
      | _, _ => 0
  | .finish true => 1
  | _ => 0

/-- The calls in progress ask for so many permits together. -/
def Demands (state : State Task) (demand : Nat) : Prop :=
  state.Sums (fun thread => demandOf state.shared.batchSize thread.work thread.call) demand

/-- A step that asks for permits finds that the group has enough of them, beside those that the
calls in progress ask for, that have been lost and that have been kept. -/
def Fits (state : State Task) (action : FiberId × Action Task) : Prop :=
  asks state action = 0 ∨ ∃ demand, Demands state demand ∧
    demand + state.shared.thrown + state.shared.kept + asks state action ≤ state.shared.batchSize

/-- The calls in progress get what they ask for. -/
structure Fitting (state : State Task) : Prop extends Accounted state where
  fits : ∃ demand, Demands state demand ∧
    demand + state.shared.thrown + state.shared.kept ≤ state.shared.batchSize

section Steps

variable {state after : State Task} {next : Shared Task} {self : FiberId} {was now : Thread Task}
  {action : Action Task}

theorem Fitting.initial (batchSize : Nat) : Fitting (fresh batchSize : State Task) where
  toAccounted := .initial batchSize
  fits := ⟨0, .zero fun _ => rfl, Nat.zero_le _⟩

/-- A wait does not change what its call asks for. -/
theorem Call.demand_waited {batchSize : Nat} {call later : Call Task}
    (waited : call.waited batchSize = some later) :
    later.demand batchSize = call.demand batchSize ∧ call.permits < call.demand batchSize := by
  revert waited
  fun_cases Call.waited batchSize call
  all_goals rintro ⟨⟩
  case case1 => exact ⟨rfl, Nat.one_pos⟩
  case case2 workcbs cb cbs =>
    simp only [Call.demand, Call.permits, List.length_append, List.length_cons, List.length_nil]
    omega
  case case3 got short => exact ⟨rfl, short⟩

theorem demandOf_waited {batchSize : Nat} {call later : Call Task} (work : Work Task)
    (waited : call.waited batchSize = some later) :
    demandOf batchSize work later = demandOf batchSize work call ∧
      call.permits + work.permits < demandOf batchSize work call := by
  obtain ⟨same, less⟩ := Call.demand_waited waited
  unfold demandOf
  rw [same, if_neg (Nat.ne_of_gt (Nat.zero_lt_of_lt less))]
  exact ⟨rfl, Nat.add_lt_add_right less _⟩

/-- What the other calls ask for, and what this one does now. -/
theorem Fitting.put (fitting : Fitting state) (accounted : Accounted (state.put self next now))
    (batchSize : next.batchSize = state.shared.batchSize)
    (moved : ∀ demand, Demands state demand →
      demand + state.shared.thrown + state.shared.kept ≤ state.shared.batchSize →
      ∃ later, later +
          demandOf state.shared.batchSize (state.threads self).work (state.threads self).call =
            demand + demandOf state.shared.batchSize now.work now.call ∧
        later + next.thrown + next.kept ≤ state.shared.batchSize) :
    Fitting (state.put self next now) where
  toAccounted := accounted
  fits := by
    obtain ⟨demand, demands, few⟩ := fitting.fits
    obtain ⟨later, sum, enough⟩ := moved demand demands few
    refine ⟨later, ?_, ?_⟩
    · rw [Demands, Config.put_shared, batchSize]
      exact Config.Sums.put demands sum
    · rw [Config.put_shared, batchSize]
      exact enough

/-- The calls ask for the same as before. -/
theorem Fitting.same (fitting : Fitting state) (accounted : Accounted (state.put self next now))
    (batchSize : next.batchSize = state.shared.batchSize)
    (demand : demandOf state.shared.batchSize now.work now.call =
      demandOf state.shared.batchSize (state.threads self).work (state.threads self).call)
    (thrown : next.thrown = state.shared.thrown) (kept : next.kept = state.shared.kept) :
    Fitting (state.put self next now) :=
  fitting.put accounted batchSize fun total _ few =>
    ⟨total, by rw [demand], by rwa [thrown, kept]⟩

/-- There is one sum of what the calls ask for. -/
theorem Demands.unique {one other : Nat} (first : Demands state one)
    (second : Demands state other) : one = other :=
  Nat.le_antisymm
    (by simpa using first.add_card_le second ∅ (fun _ => Nat.le_refl _) (by simp))
    (by simpa using second.add_card_le first ∅ (fun _ => Nat.le_refl _) (by simp))

/-- A step that asks for permits. -/
theorem Fitting.enough (fitting : Fitting state) (fits : Fits state (self, action)) :
    ∃ demand, Demands state demand ∧ demand + state.shared.thrown + state.shared.kept +
      asks state (self, action) ≤ state.shared.batchSize := by
  obtain none | enough := fits
  · obtain ⟨demand, demands, few⟩ := fitting.fits
    exact ⟨demand, demands, none ▸ few⟩
  · exact enough

/-- A step of a call that is not a wait. -/
theorem Fitting.goes (fitting : Fitting state) (accounted : Accounted (state.put self next now))
    {work : Work Task} {call later : Call Task}
    (isWas : state.threads self = ⟨work, call, .running⟩)
    (gone : state.shared.go call = some (next, later)) (fits : Fits state (self, .go))
    (isNow : now = ⟨work, later, .running⟩) : Fitting (state.put self next now) := by
  obtain ⟨demand, demands, enough⟩ := fitting.enough fits
  refine fitting.put accounted (go_same gone).2.1 fun total totals few => ?_
  obtain rfl := totals.unique demands
  have own : demandOf state.shared.batchSize work call ≤ total := by
    have le := totals.le self
    rwa [isWas] at le
  have less : ∀ lost, total - lost + state.shared.thrown + state.shared.kept ≤
      state.shared.batchSize := fun lost => by omega
  rw [isWas, isNow]
  simp only [asks, isWas] at enough
  revert gone
  fun_cases Shared.go state.shared call
  all_goals rintro ⟨⟩
  case case1 cb => exact ⟨_, Nat.sub_add_cancel own, less _⟩
  case case2 workcbs => exact ⟨_, Nat.sub_add_cancel own, less _⟩
  case case3 finished => exact ⟨total, rfl, few⟩
  case case4 unfinished =>
    rw [Bool.eq_false_of_not_eq_true unfinished] at enough
    exact ⟨total + demandOf state.shared.batchSize work .marking, rfl, by
      simp only at enough
      omega⟩
  case case5 => exact ⟨total, rfl, few⟩
  case case7 got short =>
    obtain ⟨held, taken, -, calls, whole⟩ := fitting.balance
    have some : got ≤ taken := by
      have le := calls.le self
      rwa [isWas] at le
    have all : state.shared.batchSize ≤
        demandOf state.shared.batchSize work (.collecting got) := by
      unfold demandOf
      split
      case isTrue none => exact Nat.le_of_eq none
      case isFalse => exact Nat.le_add_right _ _
    refine ⟨_, Nat.sub_add_cancel own, ?_⟩
    show total - demandOf state.shared.batchSize work (.collecting got) + state.shared.thrown +
      (state.shared.kept + got) ≤ _
    omega

/-- A step that fits keeps the demand within the permits. -/
theorem Fitting.move (fitting : Fitting state)
    (move : Move state.shared self action was next now) (isWas : state.threads self = was)
    (fits : Fits state (self, action)) : Fitting (state.put self next now) := by
  have accounted := fitting.toAccounted.move move isWas
  obtain ⟨demand, demands, enough⟩ := fitting.enough fits
  cases move with
  | calls work request free =>
      refine fitting.put accounted rfl fun total totals _ => ?_
      obtain rfl := totals.unique demands
      simp only [asks, isWas] at enough
      rw [isWas]
      exact ⟨total + demandOf state.shared.batchSize work request.begin, rfl, by omega⟩
  | takes work scheduler waited available =>
      exact fitting.same accounted rfl (by rw [isWas]; exact (demandOf_waited work waited).1) rfl
        rfl
  | resumes work scheduler waited ready =>
      exact fitting.same accounted rfl (by rw [isWas]; exact (demandOf_waited work waited).1) rfl
        rfl
  | queues work scheduler waited none => exact fitting.same accounted rfl (by rw [isWas]) rfl rfl
  | leaves work call => exact fitting.same accounted rfl (by rw [isWas]) rfl rfl
  | goes work gone => exact fitting.goes accounted isWas gone fits rfl
  | starts index cb isTask | returns cb | posts =>
      exact fitting.same accounted rfl (by rw [isWas]; rfl) rfl rfl
  | throws cb =>
      refine fitting.put accounted rfl fun total totals _ => ?_
      obtain rfl := totals.unique demands
      rw [isWas]
      refine ⟨total, rfl, ?_⟩
      show total + (state.shared.thrown + 1) + state.shared.kept ≤ state.shared.batchSize
      simp only [asks] at enough
      omega

theorem Fitting.of_runs {batchSize : Nat} (run : Runs step Fits (fresh batchSize) state) :
    Fitting state := by
  refine run.invariant (fun state action after fitting fits taken => ?_) (.initial batchSize)
  obtain ⟨next, now, move, rfl⟩ := Move.of_step taken
  exact fitting.move move rfl fits

end Steps

section Waiting

variable {state : State Task} {fiber : FiberId}

/-- The fiber is suspended in `_fiberSem.wait()`, and has not been scheduled since. -/
def Suspended (state : State Task) (fiber : FiberId) : Prop :=
  fiber ∈ state.shared.fiberSem.waitQueue.map FiberSemphore.Waiter.fiber

/-- A task is in the scheduler, or in a fiber that is not suspended itself. -/
def Busy (state : State Task) : Prop :=
  state.shared.queue ≠ [] ∨
    ∃ fiber, (state.threads fiber).work ≠ .idle ∧ ¬ Suspended state fiber

/-- If all tasks that have been begun wait, then the permits of the calls and of the tasks,
together with those that are waited for, are within what the calls ask for. -/
theorem Fitting.waiters (fitting : Fitting state) {held taken demand : Nat}
    (works : state.Sums (fun thread => thread.work.permits) held)
    (calls : state.Sums (fun thread => thread.call.permits) taken)
    (demands : Demands state demand) (whole : taken ≤ state.shared.batchSize)
    (asleep : ∀ fiber, (state.threads fiber).work ≠ .idle → Suspended state fiber) :
    taken + held + (state.shared.fiberSem.waitQueue.length +
      state.shared.fiberSem.ready.length) ≤ demand := by
  have once := fitting.conserved.once
  change ((state.shared.fiberSem.waitQueue ++ state.shared.fiberSem.ready).map _).Nodup at once
  have card := List.toFinset_card_of_nodup once
  rw [List.length_map, List.length_append] at card
  have more : ∀ other ∈ ((state.shared.fiberSem.waitQueue ++
      state.shared.fiberSem.ready).map FiberSemphore.Waiter.fiber).toFinset,
      (state.threads other).call.permits + (state.threads other).work.permits <
        demandOf state.shared.batchSize (state.threads other).work (state.threads other).call := by
    intro other member
    have away : (state.threads other).point ≠ .running :=
      (fitting.conserved.waits other).mp (List.mem_toFinset.mp member)
    obtain ⟨later, waited⟩ := Option.isSome_iff_exists.mp (fitting.waits other away)
    exact (demandOf_waited _ waited).2
  rw [← card]
  refine (calls.add works).add_card_le demands _ (fun other => ?_) more
  by_cases idle : (state.threads other).work = .idle
  · have few := (calls.le other).trans whole
    rw [idle]
    generalize (state.threads other).call = call at few
    have within : call.permits ≤ call.demand state.shared.batchSize := by
      cases call with
      | scheduling cb => exact Nat.le_refl 1
      | batch workcbs cbs => exact Nat.le_add_right _ _
      | collecting got => exact few
      | _ => exact Nat.zero_le _
    unfold demandOf
    split
    case isTrue none => exact none ▸ within
    case isFalse => exact Nat.add_le_add_right within _
  · refine Nat.le_of_lt (more other (List.mem_toFinset.mpr ?_))
    rw [List.map_append]
    exact List.mem_append_left _ (asleep other idle)

/-- As long as the calls ask for no more permits than there are, no call, of `Schedule` for
several tasks or another, waits for a permit while there is no task to give one back. -/
theorem waits_for_tasks {batchSize : Nat} (run : Runs step Fits (fresh batchSize) state)
    (suspended : Suspended state fiber) : Busy state := by
  have fitting := Fitting.of_runs run
  obtain ⟨held, taken, works, calls, whole⟩ := fitting.balance
  obtain ⟨demand, demands, few⟩ := fitting.fits
  have queued : state.shared.fiberSem.waitQueue ≠ [] := fun none => by
    rw [Suspended, none] at suspended
    exact List.not_mem_nil suspended
  have some := List.length_pos_of_ne_nil queued
  have none : state.shared.fiberSem.concurrency = 0 := fitting.conserved.queued queued
  by_contra notBusy
  rw [Busy, not_or, not_not] at notBusy
  obtain ⟨noTask, nobody⟩ := notBusy
  have asleep : ∀ fiber, (state.threads fiber).work ≠ .idle → Suspended state fiber :=
    fun fiber busy => by
      by_contra awake
      exact nobody ⟨fiber, busy, awake⟩
  have waiters := fitting.waiters works calls demands (by omega) asleep
  unfold Shared.permits at whole
  rw [noTask, List.length_nil] at whole
  omega

end Waiting

/-!
## Two tasks in groups of two and of one
-/

/-- Two tasks for a group of one. -/
def deadlockRun : List (FiberId × Action Unit) :=
  [(0, .call (.scheduleAll [(), ()])), (0, .wait 0), (0, .wait 0), (0, .leave)]

def deadlockState : State Unit :=
  (replay step (fun _ _ => true) deadlockRun (fresh 1)).get (by decide)

/-- The fiber waits for ever: no task has been given to the scheduler. -/
theorem batch_deadlocks : ∃ (state : State Unit) (fiber : FiberId) (workcbs cbs : List Unit),
    Runs step (fun _ _ => True) (fresh 1) state ∧
      (state.threads fiber).call = .batch workcbs cbs ∧ Suspended state fiber ∧
      ¬ Busy state := by
  have taken : replay step (fun _ _ => true) deadlockRun (fresh 1) = some deadlockState :=
    (Option.some_get _).symm
  have idle : ∀ fiber, (deadlockState.threads fiber).work = .idle :=
    replay_forall (motive := fun thread : Thread Unit => thread.work = .idle)
      step_frame 1 taken (by decide) (by decide) fun _ _ => rfl
  refine ⟨deadlockState, 0, [()], [()], .of_replay (fun _ _ _ => trivial) taken, by decide,
    by unfold Suspended; decide, ?_⟩
  rintro (queued | ⟨fiber, busy⟩)
  · exact queued (by decide)
  · exact busy.1 (idle fiber)

/-- Two tasks for a group of two, which has a task already. -/
def firstRun : List (FiberId × Action Unit) :=
  [(1, .wait 0), (1, .go)]

def secondRun : List (FiberId × Action Unit) :=
  [(0, .wait 0), (0, .wait 0), (0, .leave)]

/-- Whether a step asks for nothing. -/
def asksNothing (state : State Task) (action : FiberId × Action Task) : Bool :=
  asks state action == 0

theorem fits_nothing (state : State Task) (action : FiberId × Action Task)
    (nothing : asksNothing state action = true) : Fits state action :=
  .inl (beq_iff_eq.mp nothing)

def onceState : State Unit :=
  (step (fresh 2) (1, .call (.schedule (some ())))).get (by decide)

def scheduledState : State Unit :=
  (replay step asksNothing firstRun onceState).get (by decide)

def twiceState : State Unit :=
  (step scheduledState (0, .call (.scheduleAll [(), ()]))).get (by decide)

def waitingState : State Unit :=
  (replay step asksNothing secondRun twiceState).get (by decide)

theorem waitingState_reached : Runs step Fits (fresh 2) waitingState := by
  have called : step (fresh 2) (1, .call (.schedule (some ()))) = some onceState :=
    (Option.some_get _).symm
  have taken : replay step asksNothing firstRun onceState = some scheduledState :=
    (Option.some_get _).symm
  have once : Runs step Fits (fresh 2) onceState :=
    (Runs.refl _).tail (.inr ⟨0, .zero fun _ => rfl, by decide⟩) called
  have scheduled : Runs step Fits onceState scheduledState := .of_replay fits_nothing taken
  have outside : ∀ fiber, (scheduledState.threads fiber).call = .outside := by
    refine replay_forall (motive := fun thread : Thread Unit => thread.call = .outside)
      step_frame 2 taken (by decide) (by decide) fun fiber late => ?_
    rw [step_frame called fun same => absurd (Option.some.inj same ▸ late) (by decide)]
    rfl
  have twice : Runs step Fits scheduledState twiceState :=
    (Runs.refl _).tail (.inr ⟨0, .zero fun fiber => by rw [outside]; rfl, by decide⟩)
      (Option.some_get (by decide)).symm
  exact ((once.trans scheduled).trans twice).trans
    (.of_replay fits_nothing (Option.some_get (by decide)).symm)

theorem waits_for_tasks_second : Suspended waitingState 0 ∧ Busy waitingState := by
  have suspended : Suspended waitingState 0 := by
    unfold Suspended
    decide
  exact ⟨suspended, waits_for_tasks waitingState_reached suspended⟩

end Xten.WorkerGroup
