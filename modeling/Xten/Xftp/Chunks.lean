import Xten.Xftp.Ordering

/-!
# Each chunk is handled once, in the order of the calls

The history has no event twice. For a worker thread it shows what has been pushed to the thread,
and the beginning and the end of each handler that the thread has executed.
-/

namespace Xten.Xftp.Serving

open Std.Interleaving Std.Histories

def Event.task : Event → XftpTask
  | .called task | .pushed task | .returned task | .started task | .finished task => task

/-- The task that an event pushes to a worker thread. -/
def pushedTo (server : Server) (worker : WorkerId) : Event → Option XftpTask
  | .pushed task => if server.worker task = worker then some task else none
  | _ => none

/-- Whether an event is of a handler on a worker thread. -/
def runsOn (server : Server) (worker : WorkerId) : Event → Bool
  | .started task | .finished task => decide (server.worker task = worker)
  | _ => false

/-- What the history shows of handlers that have been executed one after the other. -/
def handled (tasks : List XftpTask) : List Event :=
  tasks.flatMap fun task => [.started task, .finished task]

/-- The end of the handler that is being executed. -/
def pending : FoxThread.Worker XftpTask → List Event
  | .within task _ _ => [.finished task]
  | _ => []

/-- What a session is about to do with a task. -/
def Session.holds : Session → XftpTask → Prop
  | .calling task, other | .sending task, other => other = task
  | _, _ => False

theorem handled_append (tasks : List XftpTask) (task : XftpTask) :
    handled (tasks ++ [task]) = handled tasks ++ [.started task, .finished task] := by
  simp [handled]

theorem mem_handled {tasks : List XftpTask} {event : Event} (member : event ∈ handled tasks) :
    event.task ∈ tasks := by
  obtain ⟨task, inTasks, isEvent⟩ := List.mem_flatMap.mp member
  simp only [List.mem_cons, List.not_mem_nil, or_false] at isEvent
  obtain rfl | rfl := isEvent <;> exact inTasks

theorem handled_nodup {tasks : List XftpTask} (unique : tasks.Nodup) : (handled tasks).Nodup := by
  refine List.nodup_flatMap.mpr ⟨fun task _ => by simp, unique.imp fun apart => ?_⟩
  simpa [Function.onFun] using Ne.symm apart

/-- Handlers that are executed one after the other do not overlap. -/
theorem handled_before {tasks : List XftpTask} {first second : XftpTask}
    (before : Before tasks first second) :
    Before (handled tasks) (.finished first) (.started second) := by
  obtain ⟨earlier, later, rfl, inEarlier, inLater⟩ := before_iff.mp before
  refine before_iff.mpr ⟨handled earlier, handled later, List.flatMap_append, ?_, ?_⟩
  · exact List.mem_flatMap.mpr ⟨first, inEarlier, by simp⟩
  · exact List.mem_flatMap.mpr ⟨second, inLater, by simp⟩

/-- What the sessions have done. -/
structure Called (server : Server) (state : State) : Prop where
  numbered : ∀ event ∈ state.shared.history, event.task.number < state.shared.received
  calling : ∀ session task, state.threads session = .calling task →
    .called task ∈ state.shared.history ∧ .pushed task ∉ state.shared.history ∧
      .returned task ∉ state.shared.history
  sending : ∀ session task, state.threads session = .sending task →
    .pushed task ∈ state.shared.history ∧ .returned task ∉ state.shared.history
  exclusive : state.Exclusive Session.holds
  pushed : ∀ task, Preceded state.shared.history (.called task) (.pushed task)
  returned : ∀ task, server.handles task.req.cmd = true →
    Preceded state.shared.history (.pushed task) (.returned task)

/-- What the history tells about the worker threads. -/
structure Told (server : Server) (state : State) : Prop where
  unique : state.shared.history.Nodup
  pushed : ∀ worker, (state.shared.threads worker).pushed =
    (state.shared.history.filterMap (pushedTo server worker)).map some
  ran : ∀ worker, state.shared.history.filter (runsOn server worker) ++
    pending (state.shared.threads worker).worker = handled (state.shared.threads worker).executed

section Steps

variable {server : Server} {state after : State}

theorem Called.initial : Called server begun where
  numbered := fun _ member => absurd member List.not_mem_nil
  calling := fun _ _ here => Session.noConfusion here
  sending := fun _ _ here => Session.noConfusion here
  exclusive := fun _ _ _ held => held.elim
  pushed := fun _ => .nil
  returned := fun _ _ => .nil

theorem Told.initial : Told server begun where
  unique := List.nodup_nil
  pushed := fun _ => rfl
  ran := fun _ => rfl

/-- A session does something with a task that no other session holds. -/
theorem Called.moves (called : Called server state) {session : Nat} {shared : Shared}
    {next : Session} {event : Event} (received : state.shared.received ≤ shared.received)
    (history : shared.history = state.shared.history ++ [event])
    (numbered : event.task.number < shared.received)
    (alone : ∀ other ≠ session, ¬ (state.threads other).holds event.task)
    (calling : ∀ task, next = .calling task → .called task ∈ shared.history ∧
      .pushed task ∉ shared.history ∧ .returned task ∉ shared.history)
    (sending : ∀ task, next = .sending task → .pushed task ∈ shared.history ∧
      .returned task ∉ shared.history)
    (held : ∀ task, next.holds task → task = event.task)
    (pushed : ∀ task, event = .pushed task → .called task ∈ state.shared.history)
    (returned : ∀ task, server.handles task.req.cmd = true → event = .returned task →
      .pushed task ∈ state.shared.history) :
    Called server (state.put session shared next) where
  numbered := by
    rw [Config.put_shared, history]
    intro other member
    obtain old | new := List.mem_append.mp member
    · exact (called.numbered other old).trans_le received
    · exact List.mem_singleton.mp new ▸ numbered
  calling := by
    intro other task here
    rw [Config.put_shared]
    obtain ⟨-, now⟩ | ⟨apart, now⟩ := state.put_cases session shared next other
    all_goals rw [now] at here
    · exact calling task here
    · have other : task ≠ event.task := fun same =>
        alone other apart (by rw [here]; exact same.symm)
      obtain ⟨inside, notPushed, notReturned⟩ := called.calling _ task here
      simp only [history, List.mem_append, List.mem_singleton, not_or]
      exact ⟨.inl inside, ⟨notPushed, fun same => other (congrArg Event.task same)⟩,
        notReturned, fun same => other (congrArg Event.task same)⟩
  sending := by
    intro other task here
    rw [Config.put_shared]
    obtain ⟨-, now⟩ | ⟨apart, now⟩ := state.put_cases session shared next other
    all_goals rw [now] at here
    · exact sending task here
    · have other : task ≠ event.task := fun same =>
        alone other apart (by rw [here]; exact same.symm)
      obtain ⟨inside, notReturned⟩ := called.sending _ task here
      simp only [history, List.mem_append, List.mem_singleton, not_or]
      exact ⟨.inl inside, notReturned, fun same => other (congrArg Event.task same)⟩
  exclusive := called.exclusive.put fun task holds other apart => held task holds ▸ alone other apart
  pushed := fun task => by
    rw [Config.put_shared, history]
    exact (called.pushed task).append (pushed task)
  returned := fun task handles => by
    rw [Config.put_shared, history]
    exact (called.returned task handles).append (returned task handles)

/-- A session closes without an event. -/
theorem Called.closes (called : Called server state) {session received : Nat}
    (more : state.shared.received ≤ received) :
    Called server (state.put session { state.shared with received := received } .closed) where
  numbered := fun event member => (called.numbered event member).trans_le more
  calling := by
    intro other task here
    obtain ⟨-, now⟩ | ⟨-, now⟩ :=
      state.put_cases session { state.shared with received := received } .closed other
    all_goals rw [now] at here
    · cases here
    · exact called.calling other task here
  sending := by
    intro other task here
    obtain ⟨-, now⟩ | ⟨-, now⟩ :=
      state.put_cases session { state.shared with received := received } .closed other
    all_goals rw [now] at here
    · cases here
    · exact called.sending other task here
  exclusive := called.exclusive.put fun _ held => held.elim
  pushed := called.pushed
  returned := called.returned

/-- The tasks that sessions have are those of the history. -/
theorem Called.held (called : Called server state) {session : Nat} {task : XftpTask}
    (holds : (state.threads session).holds task) : task.number < state.shared.received := by
  cases here : state.threads session with
  | receiving => rw [here] at holds; exact holds.elim
  | closed => rw [here] at holds; exact holds.elim
  | calling own =>
      rw [here] at holds
      cases holds
      exact called.numbered _ (called.calling session task here).1
  | sending own =>
      rw [here] at holds
      cases holds
      exact called.numbered _ (called.sending session task here).1

/-- Nobody else has the task of a session. -/
theorem Called.alone (called : Called server state) {session : Nat} {task : XftpTask}
    (mine : (state.threads session).holds task) (other : Nat) (apart : other ≠ session) :
    ¬ (state.threads other).holds task :=
  fun holds => apart (called.exclusive other session task holds mine)

theorem holds_loop (connected : Bool) (task : XftpTask) :
    ¬ (Session.loop connected).holds task := by
  cases connected <;> exact id

/-- A worker thread begins or ends a handler, or goes on otherwise. -/
theorem Called.works (called : Called server state) {shared : Shared} {new : List Event}
    (received : shared.received = state.shared.received)
    (history : shared.history = state.shared.history ++ new)
    (numbered : ∀ event ∈ new, event.task.number < state.shared.received)
    (kind : ∀ event ∈ new, event = .started event.task ∨ event = .finished event.task) :
    Called server { state with shared := shared } := by
  have notPushed : ∀ task, .pushed task ∉ new := fun task member => by
    obtain shape | shape := kind _ member <;> cases shape
  have notReturned : ∀ task, .returned task ∉ new := fun task member => by
    obtain shape | shape := kind _ member <;> cases shape
  refine ⟨?_, fun session task here => ?_, fun session task here => ?_, called.exclusive,
    fun task => ?_, fun task handles => ?_⟩
  all_goals simp only [history, received, List.mem_append, not_or]
  · rintro event (old | recent)
    · exact called.numbered event old
    · exact numbered event recent
  · obtain ⟨inside, before, still⟩ := called.calling session task here
    exact ⟨.inl inside, ⟨before, notPushed task⟩, still, notReturned task⟩
  · obtain ⟨inside, still⟩ := called.sending session task here
    exact ⟨.inl inside, still, notReturned task⟩
  · exact (called.pushed task).append_other (notPushed task)
  · exact (called.returned task handles).append_other (notReturned task)

/-- An event of a session, and what it does to the worker threads. -/
theorem Told.calls (told : Told server state) {shared : Shared} {threads : Nat → Session}
    {event : Event} (history : shared.history = state.shared.history ++ [event])
    (fresh : event ∉ state.shared.history) (kind : ∀ worker, runsOn server worker event = false)
    (pushed : ∀ worker, (shared.threads worker).pushed =
      (state.shared.threads worker).pushed ++ (pushedTo server worker event).toList.map some)
    (executed : ∀ worker, (shared.threads worker).executed =
      (state.shared.threads worker).executed)
    (same : ∀ worker, (shared.threads worker).worker = (state.shared.threads worker).worker) :
    Told server ⟨shared, threads⟩ where
  unique := by
    rw [history]
    exact told.unique.append (List.nodup_singleton _) (List.disjoint_singleton.mpr fresh)
  pushed := fun worker => by
    rw [pushed, told.pushed, history, List.filterMap_append, List.map_append]
    rfl
  ran := fun worker => by
    rw [history, executed, same, ← told.ran, List.filter_append,
      List.filter_singleton, kind]
    simp

theorem pushedTo_eq_some {worker : WorkerId} {event : Event} {task : XftpTask} :
    pushedTo server worker event = some task ↔
      event = .pushed task ∧ server.worker task = worker := by
  cases event with
  | pushed other =>
      rw [pushedTo, Option.ite_none_right_eq_some, Event.pushed.injEq]
      constructor
      · rintro ⟨mine, same⟩
        cases same
        exact ⟨rfl, mine⟩
      · rintro ⟨rfl, mine⟩
        exact ⟨mine, rfl⟩
  | _ => simp [pushedTo]

/-- The tasks of a worker thread are different ones. -/
theorem Told.tasks_nodup (told : Told server state) (worker : WorkerId) :
    (state.shared.history.filterMap (pushedTo server worker)).Nodup := by
  refine told.unique.filterMap fun one other task first second => ?_
  rw [(pushedTo_eq_some.mp first).1, (pushedTo_eq_some.mp second).1]

/-- A thread has executed the first of its tasks. -/
theorem Told.executed_first (told : Told server state) {worker : WorkerId}
    (ordered : FoxThread.Ordered (view server worker state)) :
    (state.shared.threads worker).executed <+:
      state.shared.history.filterMap (pushedTo server worker) := by
  have early : (state.shared.threads worker).executed <+:
      FoxThread.beforeStop (state.shared.threads worker).pushed := ordered.executed_first
  rwa [told.pushed, FoxThread.beforeStop_tasks] at early

/-- Where a task has been pushed. -/
theorem mem_pushedTo {history : List Event} {worker : WorkerId} {task : XftpTask} :
    task ∈ history.filterMap (pushedTo server worker) ↔
      .pushed task ∈ history ∧ server.worker task = worker := by
  rw [List.mem_filterMap]
  constructor
  · rintro ⟨event, member, shown⟩
    obtain ⟨rfl, mine⟩ := pushedTo_eq_some.mp shown
    exact ⟨member, mine⟩
  · rintro ⟨member, mine⟩
    exact ⟨_, member, if_pos mine⟩

theorem mem_events {before after : FoxThread.Worker XftpTask} {event : Event}
    (member : event ∈ events before after) :
    event = .started event.task ∨ event = .finished event.task := by
  cases before <;> cases after <;> simp_all [events, Event.task]

theorem events_nodup (before after : FoxThread.Worker XftpTask) :
    (events before after).Nodup := by
  cases before <;> cases after <;> simp [events]

/-- What `read_cb` shows in the history is how it goes on with the handlers. -/
theorem readCb_shows {thread next : FoxThread.Shared XftpTask} {size : Nat}
    (read : thread.readCb size = some next) : next.pushed = thread.pushed ∧
      ((events thread.worker next.worker = [] ∧ pending next.worker = pending thread.worker ∧
        next.executed = thread.executed) ∨
      (∃ task, events thread.worker next.worker = [.started task] ∧
        pending thread.worker = [] ∧ pending next.worker = [.finished task] ∧
        next.executed = thread.executed ++ [task]) ∨
      ∃ task, events thread.worker next.worker = [.finished task] ∧
        pending thread.worker = [.finished task] ∧ pending next.worker = [] ∧
        next.executed = thread.executed) := by
  cases FoxThread.Shared.reads read with
  | receives shown | swaps shown => exact ⟨rfl, .inl (by simp [events, pending, shown])⟩
  | @calls _ task _ going => exact ⟨rfl, .inr (.inl ⟨task, by simp [events, pending, going]⟩)⟩
  | @returns _ task _ within => exact ⟨rfl, .inr (.inr ⟨task, by simp [events, pending, within]⟩)⟩
  | breaks shown | ends shown =>
      exact ⟨rfl, .inl (by simp [FoxThread.Shared.finish, events, pending, shown])⟩

/-- A worker thread goes on. -/
theorem Told.works (told : Told server state) {worker : WorkerId} {size : Nat}
    {thread : FoxThread.Shared XftpTask}
    (read : (state.shared.threads worker).readCb size = some thread)
    (fresh : ∀ event ∈ events (state.shared.threads worker).worker thread.worker,
      event ∉ state.shared.history ∧ server.worker event.task = worker) :
    Told server { state with
      shared := state.shared.put worker thread
        (events (state.shared.threads worker).worker thread.worker) } := by
  obtain ⟨pushed, kind⟩ := readCb_shows read
  have quiet : ∀ other, (events (state.shared.threads worker).worker thread.worker).filterMap
      (pushedTo server other) = [] := fun other => List.filterMap_eq_nil_iff.mpr
    fun event member => by obtain shape | shape := mem_events member <;> rw [shape] <;> rfl
  have shown : ∀ other, (events (state.shared.threads worker).worker thread.worker).filter
      (runsOn server other) = if worker = other then
        events (state.shared.threads worker).worker thread.worker else [] := by
    intro other
    split
    case isTrue same =>
      refine List.filter_eq_self.mpr fun event member => ?_
      obtain shape | shape := mem_events member
      all_goals
        rw [shape]
        exact decide_eq_true (same ▸ (fresh event member).2)
    case isFalse apart =>
      refine List.filter_eq_nil_iff.mpr fun event member => ?_
      obtain shape | shape := mem_events member
      all_goals
        rw [shape]
        exact ne_true_of_eq_false (decide_eq_false fun mine =>
          apart ((fresh event member).2.symm.trans mine))
  refine ⟨?_, fun other => ?_, fun other => ?_⟩
  · exact told.unique.append (events_nodup _ _) fun event old new => (fresh event new).1 old
  · have same : ((state.shared.put worker thread
        (events (state.shared.threads worker).worker thread.worker)).threads other).pushed =
        (state.shared.threads other).pushed := by
      by_cases mine : other = worker
      · rw [mine, Shared.put_self, pushed]
      · rw [Shared.put_other _ _ _ mine]
    rw [same, told.pushed, Shared.put, List.filterMap_append, quiet, List.append_nil]
  · have before := told.ran other
    rw [Shared.put, List.filter_append, shown]
    by_cases mine : worker = other
    · subst mine
      simp only [Function.update_self, if_true, List.append_assoc]
      obtain ⟨none, still, same⟩ | ⟨task, one, was, now, grown⟩ | ⟨task, one, was, now, same⟩ := kind
      · rw [none, still, same]
        exact before
      · rw [was, List.append_nil] at before
        rw [one, now, grown, handled_append, ← before]
        rfl
      · rw [one, now, same, ← before, was]
        rfl
    · rw [if_neg mine, List.append_nil]
      simp only [Function.update_of_ne (Ne.symm mine)]
      exact before

/-- A handler begins or ends that has not done so before, of a task of the thread. -/
theorem Told.fresh (told : Told server state) {worker : WorkerId} {size : Nat}
    {thread : FoxThread.Shared XftpTask}
    (ordered : FoxThread.Ordered (view server worker state))
    (read : (state.shared.threads worker).readCb size = some thread) :
    ∀ event ∈ events (state.shared.threads worker).worker thread.worker,
      event ∉ state.shared.history ∧ event.task ∈
        state.shared.history.filterMap (pushedTo server worker) := by
  obtain ⟨pushed, kind⟩ := readCb_shows read
  have next : FoxThread.Ordered ⟨thread, (view server worker state).threads⟩ :=
    ordered.readCb (congrArg (Option.map _) read)
  have early : thread.executed <+:
      state.shared.history.filterMap (pushedTo server worker) := by
    have known : thread.executed <+: FoxThread.beforeStop thread.pushed := next.executed_first
    rwa [pushed, told.pushed, FoxThread.beforeStop_tasks] at known
  have unique : thread.executed.Nodup := (told.tasks_nodup worker).sublist early.sublist
  have ran := told.ran worker
  obtain ⟨none, -⟩ | ⟨task, one, was, now, grown⟩ | ⟨task, one, was, now, same⟩ := kind
  · rw [none]
    exact fun _ member => absurd member List.not_mem_nil
  · rw [one]
    intro event isEvent
    rw [List.mem_singleton.mp isEvent]
    have inTasks : task ∈ state.shared.history.filterMap (pushedTo server worker) :=
      early.subset (by simp [grown])
    refine ⟨fun old => ?_, inTasks⟩
    rw [was, List.append_nil] at ran
    have inRan : Event.started task ∈ state.shared.history.filter (runsOn server worker) :=
      List.mem_filter.mpr ⟨old, decide_eq_true (mem_pushedTo.mp inTasks).2⟩
    rw [ran] at inRan
    rw [grown] at unique
    exact List.disjoint_of_nodup_append unique (mem_handled inRan) (List.mem_singleton_self task)
  · rw [one]
    intro event isEvent
    rw [List.mem_singleton.mp isEvent]
    rw [was, ← same] at ran
    have inRan : Event.finished task ∈ handled thread.executed := by
      rw [← ran]
      exact List.mem_append_right _ (List.mem_singleton_self _)
    have inTasks : task ∈ state.shared.history.filterMap (pushedTo server worker) :=
      early.subset (mem_handled inRan)
    refine ⟨fun old => ?_, inTasks⟩
    have inFilter : Event.finished task ∈ state.shared.history.filter (runsOn server worker) :=
      List.mem_filter.mpr ⟨old, decide_eq_true (mem_pushedTo.mp inTasks).2⟩
    exact List.disjoint_of_nodup_append (ran ▸ handled_nodup unique) inFilter
      (List.mem_singleton_self _)

/-- What holds between any two steps. -/
structure Recorded (server : Server) (state : State) : Prop where
  ordered : ∀ worker, FoxThread.Ordered (view server worker state)
  called : Called server state
  told : Told server state

theorem Called.preserved {action : Action} (called : Called server state)
    (ordered : ∀ worker, FoxThread.Ordered (view server worker state))
    (told : Told server state) (taken : step server state action = some after) :
    Called server after := by
  refine step_cases (motive := fun _ after => Called server after) taken
    ?refused ?called ?pushed ?unhandled ?returned ?worked
  case refused =>
    intro session req received was more
    exact called.closes more
  case called =>
    intro session req was known
    have new : ∀ event ∈ state.shared.history, event.task ≠ ⟨state.shared.received, req⟩ :=
      fun event member same => (called.numbered event member).ne (congrArg XftpTask.number same)
    refine called.moves (Nat.le_succ _) rfl (Nat.lt_succ_self _) (fun other _ holds => ?_) ?_ ?_ ?_
      ?_ ?_
    · exact (called.held holds).ne rfl
    · rintro task ⟨⟩
      simp only [List.mem_append, List.mem_singleton, not_or, reduceCtorEq, not_false_eq_true,
        and_true, or_true, true_and]
      exact ⟨fun member => new _ member rfl, fun member => new _ member rfl⟩
    · exact fun task here => Session.noConfusion here
    · exact fun task holds => holds
    · exact fun task here => Event.noConfusion here
    · exact fun task _ here => Event.noConfusion here
  case pushed =>
    intro session task connected was handles
    obtain ⟨inside, notPushed, notReturned⟩ := called.calling session task was
    have mine : (state.threads session).holds task := by rw [was]; exact rfl
    refine called.moves (Nat.le_refl _) rfl (called.held mine) (called.alone mine) ?_ ?_ ?_ ?_ ?_
    · exact fun task here => Session.noConfusion here
    · rintro task ⟨⟩
      simp [Shared.put, notReturned]
    · exact fun task holds => holds
    · rintro task ⟨⟩
      exact inside
    · exact fun task _ here => Event.noConfusion here
  case unhandled =>
    intro session task connected was missing
    have mine : (state.threads session).holds task := by rw [was]; exact rfl
    refine called.moves (Nat.le_refl _) rfl (called.held mine) (called.alone mine) ?_ ?_ ?_ ?_ ?_
    · intro task here
      cases connected <;> cases here
    · intro task here
      cases connected <;> cases here
    · exact fun task holds => absurd holds (holds_loop connected task)
    · exact fun task here => Event.noConfusion here
    · rintro other handles ⟨⟩
      rw [missing] at handles
      exact Bool.noConfusion handles
  case returned =>
    intro session task connected was
    have mine : (state.threads session).holds task := by rw [was]; exact rfl
    refine called.moves (Nat.le_refl _) rfl (called.held mine) (called.alone mine) ?_ ?_ ?_ ?_ ?_
    · intro task here
      cases connected <;> cases here
    · intro task here
      cases connected <;> cases here
    · exact fun task holds => absurd holds (holds_loop connected task)
    · exact fun task here => Event.noConfusion here
    · rintro other - ⟨⟩
      exact (called.sending session task was).1
  case worked =>
    intro worker size thread read
    refine called.works rfl rfl (fun event member => ?_) fun event member => mem_events member
    exact called.numbered (.pushed _) (mem_pushedTo.mp (told.fresh (ordered worker) read event member).2).1

theorem Told.preserved {action : Action} (called : Called server state)
    (ordered : ∀ worker, FoxThread.Ordered (view server worker state))
    (told : Told server state) (taken : step server state action = some after) :
    Told server after := by
  refine step_cases (motive := fun _ after => Told server after) taken
    ?refused ?called ?pushed ?unhandled ?returned ?worked
  case refused => exact fun _ _ _ _ _ => ⟨told.unique, told.pushed, told.ran⟩
  case called =>
    intro session req was known
    refine told.calls rfl (fun member => ?_) (fun _ => rfl) ?_ (fun _ => rfl) fun _ => rfl
    · exact (called.numbered _ member).ne rfl
    · exact fun worker => (List.append_nil _).symm
  case unhandled =>
    intro session task connected was missing
    refine told.calls rfl (called.calling session task was).2.2 (fun _ => rfl) ?_
      (fun _ => rfl) fun _ => rfl
    exact fun worker => (List.append_nil _).symm
  case pushed =>
    intro session task connected was handles
    refine told.calls rfl (called.calling session task was).2.1 (fun _ => rfl) (fun worker => ?_)
      (Shared.put_view (·.executed) rfl) (Shared.put_view (·.worker) rfl)
    by_cases mine : server.worker task = worker
    · subst mine
      simp [pushedTo, FoxThread.Shared.push]
    · rw [Shared.put_other _ _ _ (Ne.symm mine)]
      simp [pushedTo, mine]
  case returned =>
    intro session task connected was
    refine told.calls rfl (called.sending session task was).2 (fun _ => rfl) (fun worker => ?_)
      (Shared.put_view (·.executed) rfl) (Shared.put_view (·.worker) rfl)
    have same : ((state.shared.put (server.worker task)
        ((state.shared.threads (server.worker task)).send 1) [.returned task]).threads
        worker).pushed = (state.shared.threads worker).pushed := by
      refine Shared.put_view (·.pushed) ?_ worker
      rfl
    exact same.trans (List.append_nil _).symm
  case worked =>
    intro worker size thread read
    refine told.works read fun event member => ?_
    obtain ⟨fresh, mine⟩ := told.fresh (ordered worker) read event member
    exact ⟨fresh, (mem_pushedTo.mp mine).2⟩

theorem Recorded.of_runs (run : Runs (step server) (fun _ _ => True) begun state) :
    Recorded server state :=
  run.invariant (fun _ _ _ kept _ taken => {
    ordered := fun worker => ordered_step taken (kept.ordered worker)
    called := kept.called.preserved kept.ordered kept.told taken
    told := kept.told.preserved kept.called kept.ordered taken })
    ⟨fun _ => .initial, .initial, .initial⟩

/-- What has been started has been pushed to its worker thread and executed there. -/
theorem Told.started (told : Told server state) {task : XftpTask}
    (member : .started task ∈ state.shared.history) :
    task ∈ (state.shared.threads (server.worker task)).executed := by
  have inFilter : Event.started task ∈
      state.shared.history.filter (runsOn server (server.worker task)) :=
    List.mem_filter.mpr ⟨member, decide_eq_true rfl⟩
  have inRan := List.mem_append_left (pending (state.shared.threads (server.worker task)).worker)
    inFilter
  rw [told.ran] at inRan
  exact mem_handled inRan

/-- A handler that has been called shows in the history. -/
theorem Told.mem_started (told : Told server state) {worker : WorkerId} {task : XftpTask}
    (member : task ∈ (state.shared.threads worker).executed) :
    .started task ∈ state.shared.history := by
  have inRan : Event.started task ∈ handled (state.shared.threads worker).executed :=
    List.mem_flatMap.mpr ⟨task, member, by simp⟩
  rw [← told.ran, List.mem_append] at inRan
  obtain inFilter | inPending := inRan
  · exact (List.mem_filter.mp inFilter).1
  · cases here : (state.shared.threads worker).worker <;> simp [pending, here] at inPending

/-- Handlers of one worker thread run in the order in which they were given to it. -/
theorem Recorded.before (recorded : Recorded server state) {first second : XftpTask}
    (order : Before (state.shared.threads (server.worker second)).executed first second) :
    Before state.shared.history (.finished first) (.started second) := by
  let worker := server.worker second
  have unique : (state.shared.threads worker).executed.Nodup :=
    (recorded.told.tasks_nodup worker).sublist
      (recorded.told.executed_first (recorded.ordered worker)).sublist
  have inFilter : Event.started second ∈ state.shared.history.filter (runsOn server worker) :=
    List.mem_filter.mpr ⟨recorded.told.mem_started order.mem_right, decide_eq_true rfl⟩
  have early : state.shared.history.filter (runsOn server worker) <+:
      handled (state.shared.threads worker).executed :=
    ⟨_, recorded.told.ran worker⟩
  have shown : Before (state.shared.history.filter (runsOn server worker))
      (.finished first) (.started second) :=
    (handled_before order).restrict (handled_nodup unique) early inFilter
  exact shown.trans List.filter_sublist

end Steps

/-- Requests of one file and of one kind. -/
def SameFile (one other : XftpTask) : Prop :=
  one.req.name = other.req.name ∧ one.req.cmd % 2 = other.req.cmd % 2

theorem SameFile.worker {one other : XftpTask} (same : SameFile one other) (server : Server) :
    server.worker one = server.worker other := by
  obtain ⟨name, kind⟩ := same
  simp only [Server.worker, Server.workers, name, kind]

/-- The handlers of the requests of one file and of one kind run one after the other, those of
calls one after the other in the order of these, and none twice. Each that has been given to its
worker thread is called, whatever else is done, by a worker thread that goes on. -/
structure Serialized (server : Server) (state : State) : Prop where
  once : ∀ task, state.shared.history.count (.started task) ≤ 1 ∧
    state.shared.history.count (.finished task) ≤ 1
  apart : ∀ one other, SameFile one other → one ≠ other →
    .started one ∈ state.shared.history → .started other ∈ state.shared.history →
    Before state.shared.history (.finished one) (.started other) ∨
      Before state.shared.history (.finished other) (.started one)
  inOrder : ∀ first second, SameFile first second → server.handles first.req.cmd = true →
    Before state.shared.history (.returned first) (.called second) →
    .started second ∈ state.shared.history →
    Before state.shared.history (.finished first) (.started second)
  given : ∀ task, server.handles task.req.cmd = true → .returned task ∈ state.shared.history →
    .pushed task ∈ state.shared.history
  able : ∀ task, .pushed task ∈ state.shared.history →
    .started task ∈ state.shared.history ∨
      (∃ size, (step server state (.work (server.worker task) size)).isSome) ∨
      ∃ session other, state.threads session = .sending other ∧
        server.worker other = server.worker task
  served : ∀ task, .pushed task ∈ state.shared.history → ∀ actions after,
    replay (step server) (fun _ _ => true) actions state = some after →
    (state.shared.threads (server.worker task)).due ≤
      actions.countP (Action.worksOn (server.worker task)) →
    .started task ∈ after.shared.history

section Runs

variable {server : Server} {state : State}

theorem Recorded.apart (recorded : Recorded server state) {one other : XftpTask}
    (same : SameFile one other) (differ : one ≠ other)
    (startedOne : .started one ∈ state.shared.history)
    (startedOther : .started other ∈ state.shared.history) :
    Before state.shared.history (.finished one) (.started other) ∨
      Before state.shared.history (.finished other) (.started one) := by
  have inOne := recorded.told.started startedOne
  have inOther := recorded.told.started startedOther
  rw [same.worker] at inOne
  obtain order | order := before_or_before inOne inOther differ
  · exact .inl (recorded.before order)
  · exact .inr (recorded.before (by rwa [same.worker]))

theorem Recorded.inOrder (recorded : Recorded server state) {first second : XftpTask}
    (same : SameFile first second) (handles : server.handles first.req.cmd = true)
    (calls : Before state.shared.history (.returned first) (.called second))
    (started : .started second ∈ state.shared.history) :
    Before state.shared.history (.finished first) (.started second) := by
  let worker := server.worker second
  have inSecond := recorded.told.started started
  have early := recorded.told.executed_first (recorded.ordered worker)
  have isPushed : Event.pushed second ∈ state.shared.history :=
    (mem_pushedTo.mp (early.subset inSecond)).1
  have pushes : Before state.shared.history (.pushed first) (.pushed second) :=
    calls.of_causes recorded.told.unique (recorded.called.returned first handles)
      (recorded.called.pushed second) isPushed
  have given : Before (state.shared.history.filterMap (pushedTo server worker)) first second :=
    pushes.filterMap (if_pos (same.worker server)) (if_pos rfl)
  exact recorded.before (given.restrict (recorded.told.tasks_nodup worker) early inSecond)

/-- What has been pushed is among what the worker thread has been given. -/
theorem Told.mem_pushed (told : Told server state) {task : XftpTask}
    (pushed : .pushed task ∈ state.shared.history) :
    task ∈ FoxThread.beforeStop (state.shared.threads (server.worker task)).pushed := by
  rw [told.pushed, FoxThread.beforeStop_tasks]
  exact mem_pushedTo.mpr ⟨pushed, rfl⟩

theorem Recorded.able (recorded : Recorded server state) {task : XftpTask}
    (pushed : .pushed task ∈ state.shared.history) :
    .started task ∈ state.shared.history ∨
      (∃ size, (step server state (.work (server.worker task) size)).isSome) ∨
      ∃ session other, state.threads session = .sending other ∧
        server.worker other = server.worker task := by
  obtain all | ⟨size, next⟩ | ⟨session, next⟩ := (recorded.ordered (server.worker task)).able
  · have given := recorded.told.mem_pushed pushed
    exact .inl (recorded.told.mem_started (all.symm ▸ given))
  · refine .inr (.inl ⟨size, ?_⟩)
    simpa [step, Shared.work, FoxThread.step, view] using next
  · refine .inr (.inr ⟨session, ?_⟩)
    cases here : state.threads session with
    | sending other =>
        refine ⟨other, rfl, ?_⟩
        by_contra apart
        simp [FoxThread.step, view, here, Session.caller, apart, FoxThread.Shared.call] at next
    | _ => simp [FoxThread.step, view, here, Session.caller, FoxThread.Shared.call] at next

theorem chunks_serialized (run : Runs (step server) (fun _ _ => True) begun state) :
    Serialized server state := by
  have recorded := Recorded.of_runs run
  refine {
    once := fun task => ⟨List.nodup_iff_count_le_one.mp recorded.told.unique _,
      List.nodup_iff_count_le_one.mp recorded.told.unique _⟩
    apart := fun _ _ => recorded.apart
    inOrder := fun _ _ => recorded.inOrder
    given := fun task handles returned =>
      ((recorded.called.returned task handles).before returned).mem_left
    able := fun _ => recorded.able
    served := fun task pushed actions after taken long => ?_ }
  obtain ⟨own, replayed, counted⟩ := view_replay taken (server.worker task)
  have enough := (recorded.ordered (server.worker task)).served replayed (counted ▸ long)
  have later : Recorded server after := Recorded.of_runs
    (run.trans (Runs.of_replay (fun _ _ _ => trivial) taken))
  exact later.told.mem_started (enough.subset (recorded.told.mem_pushed pushed))

/-- A server with four threads for uploads. -/
def fourThreads : Server :=
  ⟨fun _ => true, fun _ => true, .pool 4 (by decide), .thread⟩

/-- A chunk of a file. -/
def chunk (data : List Byte) : XftpRequest :=
  { name := bytesOf "a", data := data }

/-- Two sessions send one chunk each of the same file; the second one is taken with the first. -/
theorem chunks_serialized_two : ∃ state, ∃ first second : XftpTask,
    Runs (step fourThreads) (fun _ _ => True) begun state ∧ first.req.name = second.req.name ∧
      state.shared.history = [.called first, .pushed first, .returned first, .called second,
        .pushed second, .started first, .finished first, .started second] ∧
      Serialized fourThreads state := by
  let actions : List Action := [.receive 0 (some (chunk [1])), .go 0 true, .go 0 true,
    .receive 1 (some (chunk [2])), .go 1 true, .work (0, 0) 1, .work (0, 0) 0, .work (0, 0) 0,
    .work (0, 0) 0, .work (0, 0) 0]
  have reached : (replay (step fourThreads) (fun _ _ => true) actions begun).map
      (·.shared.history) = some [.called ⟨0, chunk [1]⟩, .pushed ⟨0, chunk [1]⟩,
        .returned ⟨0, chunk [1]⟩, .called ⟨1, chunk [2]⟩, .pushed ⟨1, chunk [2]⟩,
        .started ⟨0, chunk [1]⟩, .finished ⟨0, chunk [1]⟩, .started ⟨1, chunk [2]⟩] := rfl
  obtain ⟨state, taken, shown⟩ := Option.map_eq_some_iff.mp reached
  have run : Runs (step fourThreads) (fun _ _ => True) begun state :=
    Runs.of_replay (fun _ _ _ => trivial) taken
  exact ⟨state, ⟨0, chunk [1]⟩, ⟨1, chunk [2]⟩, run, rfl, shown, chunks_serialized run⟩

end Runs

end Xten.Xftp.Serving
