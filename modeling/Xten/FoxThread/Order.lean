import Xten.FoxThread.Dispatch

/-!
# Callbacks are executed once and in order

What has been executed, the rest of the batch and the queue together are what has been pushed.
A callback in the queue has a byte in the pipe, or one that is about to be sent, or a worker
that is about to take it. A worker that goes on gets through all of them.
-/

namespace Xten.FoxThread

open Std.Interleaving

variable {Task : Type}

/-- The callbacks before the first null one. -/
def beforeStop : List (Option Task) → List Task
  | some task :: rest => task :: beforeStop rest
  | _ => []

@[simp] theorem beforeStop_executed (executed : List Task) (rest : List (Option Task)) :
    beforeStop (executed.map some ++ rest) = executed ++ beforeStop rest := by
  induction executed with
  | nil => rfl
  | cons task executed ih => exact congrArg (task :: ·) ih

@[simp] theorem beforeStop_tasks (tasks : List Task) : beforeStop (tasks.map some) = tasks := by
  simpa [beforeStop] using beforeStop_executed tasks []

/-- Later callbacks come behind. -/
theorem beforeStop_grows (pushed later : List (Option Task)) :
    beforeStop pushed <+: beforeStop (pushed ++ later) := by
  induction pushed with
  | nil => exact List.nil_prefix
  | cons callback pushed ih =>
      cases callback with
      | none => exact List.nil_prefix
      | some task => exact (List.prefix_cons_inj task).mpr ih

theorem beforeStop_length_le (pushed : List (Option Task)) :
    (beforeStop pushed).length ≤ pushed.length := by
  induction pushed with
  | nil => exact Nat.le_refl 0
  | cons callback pushed ih =>
      cases callback with
      | none => exact Nat.zero_le _
      | some task => exact Nat.succ_le_succ ih

/-- What the worker has taken and not executed; the null callback that has ended it included. -/
def Worker.batch : Worker Task → List (Option Task)
  | .looping => []
  | .received => []
  | .going _ callbacks => callbacks
  | .within _ _ callbacks => callbacks
  | .ended callbacks => none :: callbacks

section Log

variable {shared next : Shared Task} {size : Nat}

/-- What has been pushed is what has been executed, the rest of the batch, and the queue. -/
def Shared.Logged (shared : Shared Task) : Prop :=
  shared.pushed = shared.executed.map some ++ (shared.worker.batch ++ shared.callbacks)

/-- Some callbacks come into the queue, and the worker stays where it is. -/
structure Shared.Pushes (before after : Shared Task) (cbs : List (Option Task)) : Prop where
  worker : after.worker = before.worker
  executed : after.executed = before.executed
  callbacks : after.callbacks = before.callbacks ++ cbs
  pushed : after.pushed = before.pushed ++ cbs

theorem Shared.Logged.pushes (logged : shared.Logged) {cbs : List (Option Task)}
    (pushes : shared.Pushes next cbs) : next.Logged := by
  rw [Shared.Logged, pushes.pushed, pushes.executed, pushes.worker, pushes.callbacks, logged]
  simp only [List.append_assoc]

/-- The worker moves what it has in hand. -/
theorem Shared.Logged.works (logged : shared.Logged)
    (callbacks : next.callbacks = shared.callbacks) (pushed : next.pushed = shared.pushed)
    (moved : next.executed.map some ++ next.worker.batch =
      shared.executed.map some ++ shared.worker.batch) : next.Logged := by
  rw [Shared.Logged, pushed, callbacks, logged, ← List.append_assoc, ← List.append_assoc, moved]

theorem Shared.Logged.readCb (logged : shared.Logged) (read : shared.readCb size = some next) :
    next.Logged := by
  cases Shared.reads read with
  | receives looping =>
      refine logged.works rfl rfl ?_
      rw [looping]
      rfl
  | swaps received =>
      rw [Shared.Logged, logged, received]
      simp [Worker.batch]
  | calls going =>
      refine logged.works rfl rfl ?_
      simp [Worker.batch, going]
  | breaks going =>
      refine logged.works rfl rfl ?_
      simp [Shared.finish, Worker.batch, going]
  | ends going =>
      refine logged.works rfl rfl ?_
      simp [Shared.finish, Worker.batch, going]
  | returns within =>
      refine logged.works rfl rfl ?_
      simp [Worker.batch, within]

/-- A queue that `read_cb` leaves something in is the one before. The pipe is then as it was, or
the worker has received and is going to take the queue. -/
theorem Shared.readCb_leaves (read : shared.readCb size = some next)
    (queued : next.callbacks ≠ []) : next.callbacks = shared.callbacks ∧
      (next.worker = .received ∨ next.pipe = shared.pipe ∧ shared.worker ≠ .received) := by
  cases Shared.reads read with
  | receives looping => exact ⟨rfl, .inl rfl⟩
  | swaps received => exact absurd rfl queued
  | calls here | breaks here | ends here | returns here =>
      exact ⟨rfl, .inr ⟨rfl, by rw [here]; nofun⟩⟩

/-- A step of `read_cb` pushes nothing, and takes nothing back. -/
theorem Shared.readCb_logs (read : shared.readCb size = some next) :
    next.pushed = shared.pushed ∧ next.thread = shared.thread ∧
      shared.executed.length ≤ next.executed.length := by
  cases Shared.reads read with
  | calls => exact ⟨rfl, rfl, (List.prefix_append _ _).length_le⟩
  | receives | swaps | breaks | ends | returns => exact ⟨rfl, rfl, Nat.le_refl _⟩

/-- What has been executed is how the callbacks before the first null one begin. -/
theorem Shared.Logged.executed_first (logged : shared.Logged) :
    shared.executed <+: beforeStop shared.pushed := by
  rw [logged, beforeStop_executed]
  exact List.prefix_append _ _

/-- A worker that has ended has executed them all. -/
theorem Shared.Logged.ended (logged : shared.Logged) {callbacks : List (Option Task)}
    (ended : shared.worker = .ended callbacks) : beforeStop shared.pushed = shared.executed := by
  rw [logged, beforeStop_executed, ended]
  exact List.append_nil _

/-- A worker that is not in its loop can go on, unless it has ended and executed them all. -/
theorem Shared.Logged.able (logged : shared.Logged) (away : shared.worker ≠ .looping) :
    shared.executed = beforeStop shared.pushed ∨ ∃ size, (shared.readCb size).isSome := by
  cases worker : shared.worker with
  | looping => exact absurd worker away
  | received => exact .inr ⟨0, by simp [Shared.readCb, worker]⟩
  | within task size callbacks => exact .inr ⟨0, by simp [Shared.readCb, worker]⟩
  | ended callbacks => exact .inl (logged.ended worker).symm
  | going size callbacks =>
      refine .inr ⟨0, ?_⟩
      rcases callbacks with - | ⟨- | task, rest⟩ <;> simp [Shared.readCb, worker]

/-- A worker in its loop has something to receive, if the pipe has. -/
theorem Shared.able_looping (looping : shared.worker = .looping) (sent : shared.pipe ≠ []) :
    (shared.readCb 1).isSome := by
  have some : 1 ≤ shared.pipe.length := List.length_pos_of_ne_nil sent
  simp [Shared.readCb, looping, cmdSize, some]

end Log

/-- The worker will look at the queue, or is going to be told to. -/
def Notified (state : State Task) : Prop :=
  state.shared.pipe ≠ [] ∨ (∃ thread, state.threads thread = .sending) ∨
    state.shared.worker = .received

/-- What holds between any two steps. -/
structure Ordered (state : State Task) : Prop where
  thread : state.shared.thread = true
  pushed : state.shared.pushed =
    state.shared.executed.map some ++ (state.shared.worker.batch ++ state.shared.callbacks)
  notified : state.shared.callbacks ≠ [] → Notified state

section Steps

variable {state after : State Task}

theorem Ordered.initial : Ordered (started : State Task) where
  thread := rfl
  pushed := rfl
  notified := fun queued => absurd rfl queued

theorem Ordered.logged (ordered : Ordered state) : state.shared.Logged :=
  ordered.pushed

/-- A section of a caller pushes some callbacks, and sends or is about to. -/
theorem Ordered.pushes (ordered : Ordered state) {thread : Nat} {caller : Caller}
    {shared : Shared Task} {cbs : List (Option Task)} (flag : shared.thread = true)
    (pushes : state.shared.Pushes shared cbs) (told : shared.pipe ≠ [] ∨ caller = .sending) :
    Ordered (state.put thread shared caller) where
  thread := flag
  pushed := ordered.logged.pushes pushes
  notified := fun _ => by
    obtain sent | rfl := told
    · exact .inl sent
    · exact .inr (.inl ⟨thread, Config.put_self⟩)

/-- What a step of a call does to the thread. -/
theorem Shared.call_pushes {shared next : Shared Task} {before after : Caller} {call : Call Task}
    (called : shared.call before call = some (next, after)) : ∃ cbs, shared.Pushes next cbs := by
  cases before <;> cases call <;> cases called
  case outside.dispatch cb => exact ⟨[cb], rfl, rfl, rfl, rfl⟩
  case outside.batchDispatch cbs => exact ⟨cbs, rfl, rfl, rfl, rfl⟩
  case outside.stop =>
    unfold Shared.stop
    split <;> exact ⟨[none], rfl, rfl, rfl, rfl⟩
  case sending.send => exact ⟨[], rfl, rfl, (List.append_nil _).symm, (List.append_nil _).symm⟩

/-- A step of a call keeps the order. -/
theorem Ordered.call (ordered : Ordered state) {thread : Nat} {call : Call Task}
    (taken : step state (.caller thread call) = some after) : Ordered after := by
  obtain ⟨⟨shared, caller⟩, called, rfl⟩ := Option.map_eq_some_iff.mp taken
  obtain ⟨cbs, pushes⟩ := Shared.call_pushes called
  generalize state.threads thread = before at called
  cases before <;> cases call <;> cases called
  case outside.dispatch cb => exact ordered.pushes ordered.thread pushes (.inr rfl)
  case outside.batchDispatch cbs => exact ordered.pushes ordered.thread pushes (.inr rfl)
  case outside.stop =>
    have sent : (Shared.stop state.shared) = (state.shared.push [none]).send 0 :=
      if_pos ordered.thread
    rw [sent] at pushes ⊢
    exact ordered.pushes ordered.thread pushes
      (.inl (List.append_ne_nil_of_right_ne_nil _ (List.cons_ne_nil _ _)))
  case sending.send =>
    exact ordered.pushes ordered.thread pushes
      (.inl (List.append_ne_nil_of_right_ne_nil _ (List.cons_ne_nil _ _)))

/-- A step of `read_cb` keeps the order. -/
theorem Ordered.readCb (ordered : Ordered state) {size : Nat}
    (taken : step state (.readCb size) = some after) : Ordered after := by
  obtain ⟨shared, read, rfl⟩ := Option.map_eq_some_iff.mp taken
  refine ⟨(Shared.readCb_logs read).2.1.trans ordered.thread, ordered.logged.readCb read, ?_⟩
  intro queued
  obtain ⟨same, received | ⟨pipe, away⟩⟩ := Shared.readCb_leaves read queued
  · exact .inr (.inr received)
  · obtain sent | sending | received := ordered.notified (same ▸ queued)
    · exact .inl (pipe ▸ sent)
    · exact .inr (.inl sending)
    · exact absurd received away

theorem Ordered.preserved (ordered : Ordered state) {action : Action Task}
    (taken : step state action = some after) : Ordered after := by
  cases action with
  | caller thread call => exact ordered.call taken
  | readCb size => exact ordered.readCb taken

theorem Ordered.of_runs (run : Runs step (fun _ _ => True) started state) : Ordered state :=
  run.invariant (fun _ _ _ ordered _ taken => ordered.preserved taken) .initial

theorem Ordered.executed_first (ordered : Ordered state) :
    state.shared.executed <+: beforeStop state.shared.pushed :=
  ordered.logged.executed_first

/-- Something of the worker or of a call is still to come, unless all has been executed. -/
theorem Ordered.able (ordered : Ordered state) :
    state.shared.executed = beforeStop state.shared.pushed ∨
      (∃ size, (step state (.readCb size)).isSome) ∨
      ∃ thread, (step state (.caller thread .send)).isSome := by
  by_cases looping : state.shared.worker = .looping
  · by_cases queued : state.shared.callbacks = []
    · have all : state.shared.pushed = state.shared.executed.map some ++ [] := by
        rw [ordered.pushed, looping, queued]
        rfl
      rw [all, beforeStop_executed]
      exact .inl (List.append_nil _).symm
    · obtain sent | ⟨thread, sending⟩ | received := ordered.notified queued
      · exact .inr (.inl ⟨1, by
          rw [step, Option.isSome_map]
          exact Shared.able_looping looping sent⟩)
      · exact .inr (.inr ⟨thread, by simp [step, Shared.call, sending]⟩)
      · cases looping.symm.trans received
  · obtain all | ⟨size, able⟩ := ordered.logged.able looping
    · exact .inl all
    · exact .inr (.inl ⟨size, by rwa [step, Option.isSome_map]⟩)

end Steps

/-!
## How long it takes

The worker needs two steps for a callback, and three for the end of a batch, the pipe and the
queue. Callbacks that are pushed later do not come before.
-/

/-- How many steps of `read_cb` are to come at most until `owed` more callbacks have been
executed. -/
def Worker.remaining (owed : Nat) : Worker Task → Nat
  | .looping => 2 * owed + 2
  | .received => 2 * owed + 1
  | .going _ callbacks => 2 * owed + if owed ≤ callbacks.length then 0 else 3
  | .within _ _ callbacks => 2 * owed + 1 + if owed ≤ callbacks.length then 0 else 3
  | .ended _ => 0

/-- How many steps of `read_cb` are to come at most until so many callbacks have been
executed. -/
def Shared.remaining (goal : Nat) (shared : Shared Task) : Nat :=
  if goal ≤ shared.executed.length then 0
  else shared.worker.remaining (goal - shared.executed.length)

section Progress

variable {shared next : Shared Task} {goal size : Nat}

theorem Shared.remaining_le (goal : Nat) (shared : Shared Task) :
    shared.remaining goal ≤ 2 * (goal - shared.executed.length) + 4 := by
  unfold Shared.remaining
  split
  · exact Nat.zero_le _
  · cases shared.worker <;> simp only [Worker.remaining] <;> (try split) <;> omega

theorem Shared.remaining_short (short : ¬ goal ≤ shared.executed.length) :
    shared.remaining goal = shared.worker.remaining (goal - shared.executed.length) :=
  if_neg short

/-- Pushes do not keep the worker back. -/
theorem Shared.Pushes.remaining {cbs : List (Option Task)} (pushes : shared.Pushes next cbs)
    (goal : Nat) : next.remaining goal = shared.remaining goal := by
  rw [Shared.remaining, pushes.executed, pushes.worker, Shared.remaining]

/-- Each step of `read_cb` comes nearer to a goal that has not been reached. -/
theorem Shared.Logged.remaining_readCb (logged : shared.Logged)
    (within : goal ≤ (beforeStop shared.pushed).length) (read : shared.readCb size = some next) :
    next.remaining goal ≤ shared.remaining goal - 1 := by
  by_cases reached : goal ≤ shared.executed.length
  · have still := reached.trans (Shared.readCb_logs read).2.2
    rw [Shared.remaining, if_pos still]
    exact Nat.zero_le _
  rw [logged, beforeStop_executed, List.length_append] at within
  have few := beforeStop_length_le (shared.worker.batch ++ shared.callbacks)
  rw [Shared.remaining_short reached]
  cases Shared.reads read with
  | receives looping =>
      simp only [Shared.remaining, if_neg reached, looping, Worker.remaining]
      omega
  | swaps received =>
      simp only [received, Worker.batch, List.nil_append] at within few
      have all : goal - shared.executed.length ≤ shared.callbacks.length := by omega
      simp only [Shared.remaining, if_neg reached, received, Worker.remaining, if_pos all]
      omega
  | calls going =>
      simp only [Shared.remaining, going, Worker.remaining, List.length_append, List.length_cons,
        List.length_nil]
      split
      · exact Nat.zero_le _
      · split <;> split <;> omega
  | breaks going =>
      simp only [going, Worker.batch, List.cons_append, beforeStop, List.length_nil] at within
      omega
  | @ends count going =>
      have short : ¬ goal ≤ (shared.finish count .looping).executed.length := reached
      rw [Shared.remaining_short short, going]
      simp only [Shared.finish, Worker.remaining, List.length_nil]
      rw [if_neg (by omega)]
      omega
  | returns within =>
      simp only [Shared.remaining, if_neg reached, within, Worker.remaining]
      omega

/-- What is no longer remaining has been executed. -/
theorem Shared.Logged.reached (logged : shared.Logged)
    (within : goal ≤ (beforeStop shared.pushed).length) (none : shared.remaining goal = 0) :
    goal ≤ shared.executed.length := by
  by_contra short
  rw [Shared.remaining_short short] at none
  cases worker : shared.worker with
  | ended callbacks =>
      rw [logged.ended worker] at within
      exact short within
  | looping =>
      rw [worker] at none
      exact absurd none (by simp [Worker.remaining])
  | received =>
      rw [worker] at none
      exact absurd none (by simp [Worker.remaining])
  | going size callbacks =>
      rw [worker, Worker.remaining] at none
      omega
  | within task size callbacks =>
      rw [worker, Worker.remaining] at none
      omega

end Progress

/-- A system that a thread is part of: some of its steps are those of `read_cb`, and the others
push callbacks at most. -/
structure Drives {State Action : Type} (step : State → Action → Option State)
    (view : State → Shared Task) (reads : Action → Bool) : Prop where
  read : ∀ ⦃state action after⦄, step state action = some after → reads action = true →
    ∃ size, (view state).readCb size = some (view after)
  push : ∀ ⦃state action after⦄, step state action = some after → reads action = false →
    ∃ cbs, (view state).Pushes (view after) cbs

section Systems

variable {State Action : Type} {step : State → Action → Option State} {view : State → Shared Task}
  {reads : Action → Bool} {state after : State} {action : Action}

theorem Drives.logged (drives : Drives step view reads) (logged : (view state).Logged)
    (taken : step state action = some after) :
    (view after).Logged ∧ (view state).pushed <+: (view after).pushed := by
  cases isRead : reads action with
  | true =>
      obtain ⟨size, read⟩ := drives.read taken isRead
      exact ⟨logged.readCb read, (Shared.readCb_logs read).1 ▸ List.prefix_rfl⟩
  | false =>
      obtain ⟨cbs, pushes⟩ := drives.push taken isRead
      exact ⟨logged.pushes pushes, pushes.pushed ▸ List.prefix_append _ _⟩

/-- After so many steps of `read_cb`, whatever else is done between them, the callbacks up to
the goal have been executed. -/
theorem Drives.reaches (drives : Drives step view reads) (logged : (view state).Logged)
    {goal : Nat} (within : goal ≤ (beforeStop (view state).pushed).length) {actions : List Action}
    (taken : replay step (fun _ _ => true) actions state = some after)
    (long : (view state).remaining goal ≤ actions.countP reads) :
    (view after).Logged ∧ (view state).pushed <+: (view after).pushed ∧
      (view after).remaining goal = 0 := by
  induction actions generalizing state with
  | nil =>
      cases taken
      exact ⟨logged, List.prefix_rfl, Nat.le_zero.mp long⟩
  | cons action actions ih =>
      rw [replay, if_pos rfl] at taken
      obtain ⟨middle, one, later⟩ := Option.bind_eq_some_iff.mp taken
      obtain ⟨kept, grown⟩ := drives.logged logged one
      have nearer : (view middle).remaining goal ≤ actions.countP reads := by
        cases isRead : reads action with
        | true =>
            obtain ⟨size, read⟩ := drives.read one isRead
            have less := logged.remaining_readCb within read
            rw [List.countP_cons_of_pos isRead] at long
            omega
        | false =>
            obtain ⟨cbs, pushes⟩ := drives.push one isRead
            rw [List.countP_cons_of_neg (by simp [isRead])] at long
            rwa [pushes.remaining]
      have further : goal ≤ (beforeStop (view middle).pushed).length := by
        obtain ⟨more, same⟩ := grown
        rw [← same]
        exact within.trans (beforeStop_grows _ _).length_le
      obtain ⟨stays, more, none⟩ := ih kept further later nearer
      exact ⟨stays, grown.trans more, none⟩

/-- Enough steps of `read_cb` execute what has been pushed before them. -/
theorem Drives.serves (drives : Drives step view reads) (logged : (view state).Logged)
    {goal : Nat} (within : goal ≤ (beforeStop (view state).pushed).length) {actions : List Action}
    (taken : replay step (fun _ _ => true) actions state = some after)
    (long : 2 * (goal - (view state).executed.length) + 4 ≤ actions.countP reads) :
    (view after).Logged ∧ (view state).pushed <+: (view after).pushed ∧
      goal ≤ (view after).executed.length := by
  have enough := ((view state).remaining_le goal).trans long
  obtain ⟨kept, ⟨more, grown⟩, none⟩ := drives.reaches logged within taken enough
  refine ⟨kept, ⟨more, grown⟩, kept.reached ?_ none⟩
  rw [← grown]
  exact within.trans (beforeStop_grows _ _).length_le

end Systems

/-- Whether an action is a step of `read_cb`. -/
def Action.isReadCb : Action Task → Bool
  | .readCb _ => true
  | .caller _ _ => false

theorem drives : Drives (@step Task) Config.shared Action.isReadCb where
  read := fun state action after taken isRead => by
    cases action with
    | caller thread call => cases isRead
    | readCb size =>
        obtain ⟨shared, read, rfl⟩ := Option.map_eq_some_iff.mp taken
        exact ⟨size, read⟩
  push := fun state action after taken isRead => by
    cases action with
    | caller thread call =>
        obtain ⟨⟨shared, caller⟩, called, rfl⟩ := Option.map_eq_some_iff.mp taken
        exact Shared.call_pushes called
    | readCb size => cases isRead

/-- The callbacks that have been pushed will have been executed after so many steps of
`read_cb`. -/
def Shared.due (shared : Shared Task) : Nat :=
  2 * ((beforeStop shared.pushed).length - shared.executed.length) + 4

theorem Ordered.served {state after : State Task} (ordered : Ordered state)
    {actions : List (Action Task)}
    (taken : replay step (fun _ _ => true) actions state = some after)
    (long : state.shared.due ≤ actions.countP Action.isReadCb) :
    beforeStop state.shared.pushed <+: after.shared.executed := by
  obtain ⟨kept, ⟨more, grown⟩, reached⟩ :=
    drives.serves ordered.logged (Nat.le_refl _) taken long
  have early : beforeStop state.shared.pushed <+: beforeStop after.shared.pushed :=
    grown ▸ beforeStop_grows _ _
  exact List.prefix_of_prefix_length_le early kept.executed_first reached

/-- The callbacks before the first null one are executed in the order of their pushes, none of
them twice and none behind; nobody has to wait for a notification; and they are all executed,
whatever else is done, by a worker that goes on. -/
structure InOrder (state : State Task) : Prop where
  executed : state.shared.executed <+: beforeStop state.shared.pushed
  notified : state.shared.callbacks ≠ [] → Notified state
  able : state.shared.executed = beforeStop state.shared.pushed ∨
    (∃ size, (step state (.readCb size)).isSome) ∨
    ∃ thread, (step state (.caller thread .send)).isSome
  served : ∀ actions after, replay step (fun _ _ => true) actions state = some after →
    state.shared.due ≤ actions.countP Action.isReadCb →
    beforeStop state.shared.pushed <+: after.shared.executed

theorem callbacks_in_order {state : State Task}
    (run : Runs step (fun _ _ => True) started state) : InOrder state where
  executed := (Ordered.of_runs run).executed_first
  notified := (Ordered.of_runs run).notified
  able := (Ordered.of_runs run).able
  served := fun _ _ taken long => (Ordered.of_runs run).served taken long

/-- One byte wakes the worker for two callbacks, the second of which comes before the worker
looks at the queue; its byte is for an empty queue. -/
theorem callbacks_in_order_merged : ∃ state : State Nat,
    Runs step (fun _ _ => True) started state ∧ state.shared.executed = [1, 2] ∧
      state.shared.pipe = [1] ∧ InOrder state := by
  let actions : List (Action Nat) := [.caller 0 (.dispatch (some 1)), .caller 0 .send, .readCb 1,
    .caller 1 (.dispatch (some 2)), .readCb 0, .caller 1 .send, .readCb 0, .readCb 0, .readCb 0]
  obtain ⟨state, taken, shown⟩ : ∃ state, replay step (fun _ _ => true) actions started =
      some state ∧ state.shared.executed = [1, 2] ∧ state.shared.pipe = [1] := ⟨_, rfl, rfl, rfl⟩
  have run : Runs step (fun _ _ => True) started state :=
    Runs.of_replay (fun _ _ _ => trivial) taken
  exact ⟨state, run, shown.1, shown.2, callbacks_in_order run⟩

end Xten.FoxThread
