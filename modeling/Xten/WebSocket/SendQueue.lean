import Xten.WebSocket.Session

/-!
# The send queue of a WebSocket session

The frames that the `doSend` fibers hand to the wire are the first of those that were pushed,
in that order. Nothing is left out as long as the connection is open and no `doSend` has come to
an entry without a message or has failed; and no `doSend` waits with something to send.
-/

namespace Xten.http.WSSession

open Std.Interleaving
open FiberSemphore (FiberId Waiter)

/-- What a fiber is to `_mtx` and `_cond`. -/
def Thread.point : Thread → FiberMutex.Point
  | .blocked false _ => .leaving
  | .blocked true _ => .suspended
  | .holding _ | .waiting | .unlocking _ => .running true
  | .signalling next => .signalling false next
  | _ => .running false

/-- What the run is to `_mtx` and `_cond`. -/
def mutexOf (state : State) : FiberMutex.State :=
  state.view Shared.mtx Thread.point

/-- A fiber in `doSend`, between `_sem.wait()` and `_sem.post()`. -/
def Thread.Sends : Thread → Prop
  | .locking goal | .blocked _ goal | .holding goal => goal = .test
  | .unlocking after => after ≠ .signal
  | .writing writer _ _ | .failing writer _ _ => writer ≠ .answer
  | .waiting | .sending _ | .checking | .closing _ | .posting => True
  | _ => False

/-- The entries behind the frame that is written, with its own if none of it is. -/
def Writer.batch (begun : Bool) : Writer → List Entry
  | .doSend msg fin rest => if begun then rest else ⟨some msg, fin⟩ :: rest
  | .answer => []

/-- The entries that `doSend` has taken out of the queue and not handed to the wire. -/
def Thread.batch : Thread → List Entry
  | .unlocking (.send tmp) | .sending tmp => tmp
  | .writing writer begun _ => writer.batch begun
  | _ => []

/-- `doSend` has come to an entry without a message, or a send has failed, and it is about to
close the connection. -/
def Thread.Stops : Thread → Prop
  | .failing writer _ _ => writer ≠ .answer
  | .closing reason => reason ≠ .disconnected
  | _ => False

/-- A signal of `pushMessage` is still to come. -/
def Thread.Signals : Thread → Prop
  | .locking goal | .blocked _ goal | .holding goal => goal ≠ .test
  | .unlocking after => after = .signal
  | .signal => True
  | _ => False

/-- The send queue is first in, first out, and loses nothing without a cause. -/
structure Fifo (state : State) : Prop where
  /-- The frames handed to the wire are the first that were pushed, each of them once. -/
  handed : state.shared.handed <+: state.shared.pushed
  /-- None of them has been pushed behind an entry without a message. -/
  unmarked : ∀ before marker after, state.shared.pushed = before ++ marker :: after →
    marker.msg = none → state.shared.handed.length ≤ before.length
  /-- The rest is in the hands of one `doSend` and in the queue. -/
  complete : state.shared.connected = true → (∀ fiber, ¬ (state.threads fiber).Stops) →
    ∃ fiber, (∀ other ≠ fiber, (state.threads other).batch = []) ∧
      state.shared.pushed =
        state.shared.handed ++ (state.threads fiber).batch ++ state.shared.sendQueue
  /-- A `doSend` that stops has handed over all that was pushed before the entry at which it
  does, unless a send has failed. -/
  stopped : state.shared.connected = true → ∀ fiber,
    state.threads fiber = .closing .forceStop →
      ∃ marker : Entry, marker.msg = none ∧ state.shared.handed ++ [marker] <+: state.shared.pushed
  /-- While a `doSend` is in the waiters of `_cond` and there is something to send, a signal is
  to come. -/
  woken : ∀ waiter ∈ state.shared.mtx.condition, (state.threads waiter.fiber).Sends ∧
    (state.shared.sendQueue ≠ [] → ∃ fiber, (state.threads fiber).Signals)

section Mutex

variable {bufferSize : Nat} {state later : State} {fiber : FiberId} {shared : Shared}
  {next : Thread}

theorem mutexOf_put :
    mutexOf (state.put fiber shared next) = (mutexOf state).put fiber shared.mtx next.point :=
  Config.view_put

/-- A step that leaves the mutex alone. -/
theorem mutex_keep (correct : FiberMutex.Correct (mutexOf state))
    (same : shared.mtx = state.shared.mtx) (point : next.point = (state.threads fiber).point) :
    FiberMutex.Correct (mutexOf (state.put fiber shared next)) := by
  rw [mutexOf_put, same, point]
  exact correct.keep Iff.rfl Iff.rfl rfl

theorem After.thread_point (after : After) : after.thread.point = .running false := by
  cases after <;> rfl

theorem acquired_point (sender : Bool) : (acquired sender).point = .running false := by
  cases sender <;> rfl

theorem Writer.done_point (writer : Writer) : writer.done.point = .running false := by
  cases writer <;> rfl

theorem Writer.failed_point (writer : Writer) : writer.failed.point = .running false := by
  cases writer <;> rfl

theorem Writer.advance_point (writer : Writer) (left : List Byte)
    (rest : List (Option (List Byte))) : (writer.advance left rest).point = .running false := by
  unfold Writer.advance
  split
  · rfl
  · split
    · rfl
    · exact writer.done_point

/-- With the mutex, a fiber goes on to wait or to unlock it. -/
theorem perform_point (shared : Shared) (goal : Goal) :
    (shared.perform goal).1.mtx = shared.mtx ∧ (shared.perform goal).2.point = .running true := by
  cases goal with
  | push entry => exact ⟨rfl, rfl⟩
  | test =>
      rw [Shared.perform]
      split <;> exact ⟨rfl, rfl⟩

theorem wait_point (shared : Shared) (self : Waiter) (sender : Bool) :
    (shared.wait self sender).1.mtx = shared.mtx ∧
      (shared.wait self sender).2.point = .running false := by
  unfold Shared.wait
  simp only
  split
  · exact ⟨rfl, acquired_point sender⟩
  · exact ⟨rfl, rfl⟩

/-- The session uses its mutex and its condition as they are meant to be used. -/
theorem mutex_step {action : Waiter × Action} (correct : FiberMutex.Correct (mutexOf state))
    (taken : step bufferSize state action = some later) : FiberMutex.Correct (mutexOf later) := by
  obtain ⟨⟨scheduler, fiber⟩, choice⟩ := action
  obtain ⟨result, executed, rfl⟩ := Option.map_eq_some_iff.mp taken
  change state.shared.exec bufferSize ⟨scheduler, fiber⟩ (state.threads fiber) choice = some result
    at executed
  change FiberMutex.Correct (mutexOf (state.put fiber result.1 result.2))
  clear taken
  generalize was : state.threads fiber = here at executed
  have point : (mutexOf state).threads fiber = here.point := congrArg Thread.point was
  revert executed
  fun_cases Shared.exec bufferSize ⟨scheduler, fiber⟩ state.shared here choice
  all_goals rintro ⟨⟩
  case case6 sender outcome =>
    obtain ⟨same, outside⟩ := wait_point state.shared ⟨scheduler, fiber⟩ sender
    exact mutex_keep correct same (outside.trans point.symm)
  case case10 goal outcome =>
    have locked := @FiberMutex.Correct.lock _ _ scheduler correct point
    rw [mutexOf_put]
    change FiberMutex.Correct ((mutexOf state).put fiber
      (state.shared.mtx.lock ⟨scheduler, fiber⟩).1
      (if (state.shared.mtx.lock ⟨scheduler, fiber⟩).2 then
        Thread.holding goal else Thread.blocked false goal).point)
    rw [apply_ite Thread.point]
    exact locked
  case case11 =>
    rw [mutexOf_put]
    exact correct.keep (by rw [point]; rfl) (by rw [point]; rfl) (by rw [point]; rfl)
  case case12 ready =>
    rw [mutexOf_put]
    exact correct.resume point ready
  case case14 goal outcome =>
    obtain ⟨same, holds⟩ := perform_point state.shared goal
    exact mutex_keep correct same (holds.trans point.symm)
  case case15 =>
    rw [mutexOf_put]
    exact correct.wait point
  case case16 after outcome =>
    rw [mutexOf_put, After.thread_point]
    exact correct.unlock point
  case case18 taken =>
    rw [mutexOf_put]
    exact correct.signal point taken
  case case19 =>
    rw [mutexOf_put]
    exact correct.hand_over point
  case case8 sender ready => exact mutex_keep correct rfl ((acquired_point sender).trans point.symm)
  case case23 writer begun buffer rest count moves =>
    exact mutex_keep correct rfl ((writer.advance_point _ rest).trans point.symm)
  case case26 writer begun buffers outcome =>
    exact mutex_keep correct rfl (writer.failed_point.trans point.symm)
  case case27 =>
    refine mutex_keep correct rfl (Eq.trans ?_ point.symm)
    split <;> rfl
  all_goals exact mutex_keep correct rfl point.symm

end Mutex

section Alone

variable {bufferSize : Nat} {state later : State} {fiber : FiberId} {shared : Shared}
  {next : Thread}

/-- The permits of `_sem` that are available, the ones that have been handed over, and the fibers
in `doSend`: one at most. -/
def Alone (state : State) : Prop :=
  ∃ senders : Int, state.Counts Thread.Sends senders ∧
    state.shared.sem.concurrency + state.shared.sem.ready.length + senders ≤ 1

theorem Alone.unique {other : FiberId} (alone : Alone state)
    (first : (state.threads fiber).Sends) (second : (state.threads other).Sends) :
    fiber = other := by
  obtain ⟨senders, counts, few⟩ := alone
  exact counts.unique (by omega) first second

/-- No permit changes hands. -/
theorem Alone.keep (alone : Alone state) (sends : next.Sends ↔ (state.threads fiber).Sends)
    (sem : shared.sem = state.shared.sem) : Alone (state.put fiber shared next) := by
  obtain ⟨senders, counts, few⟩ := alone
  refine ⟨senders, counts.put sends, ?_⟩
  rw [Config.put_shared, sem]
  exact few

/-- A permit goes to a fiber, which keeps it in `doSend`. -/
theorem Alone.acquire {sender : Bool} (alone : Alone state) (outside : ¬ (state.threads fiber).Sends)
    (taken : shared.sem.concurrency + shared.sem.ready.length + 1 =
      state.shared.sem.concurrency + state.shared.sem.ready.length) :
    Alone (state.put fiber shared (acquired sender)) := by
  obtain ⟨senders, counts, few⟩ := alone
  cases sender with
  | true => exact ⟨senders + 1, counts.enter outside rfl, by rw [Config.put_shared]; omega⟩
  | false =>
      exact ⟨senders, counts.put (iff_of_false id outside), by rw [Config.put_shared]; omega⟩

theorem Alone.wait {self : Waiter} {sender : Bool} (alone : Alone state)
    (outside : ¬ (state.threads fiber).Sends) :
    Alone (state.put fiber (state.shared.wait self sender).1
      (state.shared.wait self sender).2) := by
  unfold Shared.wait FiberSemphore.Shared.wait
  by_cases some : 0 < state.shared.sem.concurrency
  · simp only [if_pos some, if_true]
    refine alone.acquire outside ?_
    simp only [Shared.setSem, FiberSemphore.Shared.take]
    omega
  · simp only [if_neg some, reduceCtorEq, if_false]
    obtain ⟨senders, counts, few⟩ := alone
    exact ⟨senders, counts.put (iff_of_false id outside), few⟩

theorem Alone.resume {self : Waiter} {sender : Bool} (alone : Alone state)
    (outside : ¬ (state.threads fiber).Sends) (ready : self ∈ state.shared.sem.ready) :
    Alone (state.put fiber
      (state.shared.setSem { state.shared.sem with ready := state.shared.sem.ready.erase self })
      (acquired sender)) := by
  refine alone.acquire outside ?_
  have shorter := List.length_erase_of_mem ready
  have some := List.length_pos_of_mem ready
  simp only [Shared.setSem]
  omega

theorem Alone.post (alone : Alone state) (sends : (state.threads fiber).Sends) :
    Alone (state.put fiber (state.shared.setSem state.shared.sem.post) .outside) := by
  obtain ⟨senders, counts, few⟩ := alone
  refine ⟨senders - 1, counts.leave sends id, ?_⟩
  rw [Config.put_shared]
  simp only [Shared.setSem, FiberSemphore.Shared.post]
  split
  · simp only [List.length_append, List.length_singleton]
    omega
  · simp only
    omega

theorem perform_sends (goal : Goal) :
    (shared.perform goal).1.sem = shared.sem ∧
      ((shared.perform goal).2.Sends ↔ (Thread.holding goal).Sends) := by
  cases goal with
  | push entry => exact ⟨rfl, iff_of_false (not_not.mpr rfl) nofun⟩
  | test =>
      rw [Shared.perform]
      split
      · exact ⟨rfl, iff_of_true trivial rfl⟩
      · exact ⟨rfl, iff_of_true nofun rfl⟩

theorem Writer.advance_sends (writer : Writer) (left : List Byte)
    (rest : List (Option (List Byte))) : (writer.advance left rest).Sends ↔ writer ≠ .answer := by
  unfold Writer.advance
  split
  · exact Iff.rfl
  · split
    · exact Iff.rfl
    · cases writer
      · exact iff_of_true trivial nofun
      · exact iff_of_false id (not_not.mpr rfl)

theorem Alone.step {action : Waiter × Action} (alone : Alone state)
    (taken : step bufferSize state action = some later) : Alone later := by
  obtain ⟨self, choice⟩ := action
  obtain ⟨result, executed, rfl⟩ := Option.map_eq_some_iff.mp taken
  change state.shared.exec bufferSize self (state.threads self.fiber) choice = some result
    at executed
  change Alone (state.put self.fiber result.1 result.2)
  clear taken
  generalize was : state.threads self.fiber = here at executed
  revert executed
  fun_cases Shared.exec bufferSize self state.shared here choice
  all_goals rintro ⟨⟩
  case case6 => exact alone.wait (by rw [was]; exact id)
  case case8 ready => exact alone.resume (by rw [was]; exact id) ready
  case case10 goal outcome =>
    refine alone.keep ?_ rfl
    rw [was]
    unfold Shared.lock
    simp only
    split <;> exact Iff.rfl
  case case14 goal outcome =>
    obtain ⟨sem, sends⟩ := @perform_sends state.shared goal
    exact alone.keep (by rw [was]; exact sends) sem
  case case16 after outcome =>
    refine alone.keep ?_ rfl
    rw [was]
    cases after
    · exact iff_of_true trivial nofun
    · exact iff_of_false id (not_not.mpr rfl)
  case case23 writer begun buffer rest count moves =>
    exact alone.keep (by rw [was]; exact writer.advance_sends _ rest) rfl
  case case26 writer begun buffers outcome =>
    refine alone.keep ?_ rfl
    rw [was]
    cases writer
    · exact iff_of_true trivial nofun
    · exact iff_of_false id (not_not.mpr rfl)
  case case27 =>
    refine alone.keep ?_ rfl
    rw [was]
    split
    · exact iff_of_true rfl trivial
    · exact Iff.rfl
  case case29 => exact alone.post (by rw [was]; trivial)
  case case1 => exact alone.keep (by rw [was]; exact iff_of_false nofun id) rfl
  case case15 => exact alone.keep (by rw [was]; exact iff_of_true rfl trivial) rfl
  case case22 => exact alone.keep (by rw [was]; exact iff_of_true nofun trivial) rfl
  case case30 => exact alone.keep (by rw [was]; exact iff_of_false (not_not.mpr rfl) id) rfl
  all_goals exact alone.keep (was ▸ Iff.rfl) rfl

end Alone

section Books

variable {bufferSize : Nat} {state later : State} {fiber : FiberId} {shared : Shared}
  {next : Thread}

/-- What a step is to the entries that are pushed, taken and handed over. -/
inductive Effect (state : State) (fiber : FiberId) (shared : Shared) (next : Thread) : Prop where
  /-- The entries stay where they are, or what a fiber has taken is dropped as it stops. -/
  | keep (queue : shared.sendQueue = state.shared.sendQueue)
      (pushed : shared.pushed = state.shared.pushed) (handed : shared.handed = state.shared.handed)
      (connected : shared.connected = true → state.shared.connected = true)
      (stops : shared.connected = true → (state.threads fiber).Stops → next.Stops)
      (batch : next.batch = (state.threads fiber).batch ∨ next.Stops)
      (goes : next ≠ .closing .forceStop)
  /-- A fiber comes to an entry without a message. -/
  | stop (fin : Bool) (rest : List Entry) (was : state.threads fiber = .sending (⟨none, fin⟩ :: rest))
      (same : shared = state.shared) (now : next = .closing .forceStop)
  | push (entry : Entry) (was : state.threads fiber = .holding (.push entry))
      (same : shared = { state.shared with
        sendQueue := state.shared.sendQueue ++ [entry], pushed := state.shared.pushed ++ [entry] })
      (now : next = .unlocking .signal)
  | take (was : state.threads fiber = .holding .test)
      (same : shared = { state.shared with sendQueue := [] })
      (now : next = .unlocking (.send state.shared.sendQueue))
  /-- The first bytes of a frame are written. -/
  | hand (msg : WSFrameMessage) (fin : Bool) (rest : List Entry) (left : List (Option (List Byte)))
      (was : state.threads fiber = .writing (.doSend msg fin rest) false left)
      (queue : shared.sendQueue = state.shared.sendQueue)
      (pushed : shared.pushed = state.shared.pushed)
      (handed : shared.handed = state.shared.handed ++ [⟨some msg, fin⟩])
      (connected : state.shared.connected = true) (batch : next.batch = rest)
      (goes : ¬ next.Stops)

theorem Writer.advance_batch (writer : Writer) (left : List Byte)
    (rest : List (Option (List Byte))) : (writer.advance left rest).batch = writer.batch true := by
  unfold Writer.advance
  split
  · rfl
  · split
    · rfl
    · cases writer <;> rfl

theorem Writer.advance_stops (writer : Writer) (left : List Byte)
    (rest : List (Option (List Byte))) : ¬ (writer.advance left rest).Stops := by
  unfold Writer.advance
  split
  · exact id
  · split
    · exact id
    · cases writer <;> exact id

theorem not_stops_closing {thread : Thread} (goes : ¬ thread.Stops) :
    thread ≠ .closing .forceStop := by
  rintro rfl
  exact goes nofun

/-- A step that has nothing to do with the entries. -/
theorem Effect.same (queue : shared.sendQueue = state.shared.sendQueue)
    (pushed : shared.pushed = state.shared.pushed) (begun : shared.begun = state.shared.begun)
    (connected : shared.connected = true → state.shared.connected = true)
    (was : ¬ (state.threads fiber).Stops) (batch : next.batch = (state.threads fiber).batch)
    (goes : next ≠ .closing .forceStop) : Effect state fiber shared next :=
  .keep queue pushed (congrArg (List.filterMap Begun.entry?) begun) connected
    (fun _ stops => absurd stops was) (.inl batch) goes

/-- The first bytes of a frame, or more of them. -/
theorem Effect.write {writer : Writer} {begun : Bool} {left rest : List (Option (List Byte))}
    {bytes after : List Byte} (was : state.threads fiber = .writing writer begun left)
    (connected : state.shared.connected = true) :
    Effect state fiber (state.shared.write writer begun bytes) (writer.advance after rest) := by
  have goes := writer.advance_stops after rest
  have batch := writer.advance_batch after rest
  have still : ¬ (state.threads fiber).Stops := by
    rw [was]
    exact id
  have on : (state.shared.write writer begun bytes).handed = state.shared.handed →
      writer.batch true = (state.threads fiber).batch →
        Effect state fiber (state.shared.write writer begun bytes) (writer.advance after rest) :=
    fun handed same => .keep rfl rfl handed id (fun _ stops => absurd stops still)
      (.inl (batch.trans same)) (not_stops_closing goes)
  cases begun with
  | true => exact on rfl (by rw [was]; rfl)
  | false =>
      have handed : (state.shared.write writer false bytes).handed =
          state.shared.handed ++ [writer.frame].filterMap Begun.entry? :=
        List.filterMap_append
      cases writer with
      | answer => exact on (handed.trans (List.append_nil _)) (by rw [was]; rfl)
      | doSend msg fin others => exact .hand msg fin others left was rfl rfl handed connected batch goes

theorem effect_of_step {self : Waiter} {choice : Action} {result : Shared × Thread}
    (executed : state.shared.exec bufferSize self (state.threads self.fiber) choice = some result) :
    Effect state self.fiber result.1 result.2 := by
  generalize was : state.threads self.fiber = here at executed
  revert executed
  fun_cases Shared.exec bufferSize self state.shared here choice
  all_goals rintro ⟨⟩
  case case6 sender outcome =>
    unfold Shared.wait
    simp only
    split
    all_goals refine .same rfl rfl rfl id (by rw [was]; exact id) ?_ ?_
    all_goals cases sender <;> first | exact (congrArg Thread.batch was).symm | nofun
  case case8 sender ready =>
    refine .same rfl rfl rfl id (by rw [was]; exact id) ?_ ?_
    all_goals cases sender <;> first | exact (congrArg Thread.batch was).symm | nofun
  case case10 goal outcome =>
    unfold Shared.lock
    simp only
    refine .same rfl rfl rfl id (by rw [was]; exact id) ?_ ?_
    all_goals split <;> first | exact (congrArg Thread.batch was).symm | nofun
  case case14 goal outcome =>
    cases goal with
    | push entry => exact .push entry was rfl rfl
    | test =>
        rw [Shared.perform]
        split
        · exact .same rfl rfl rfl id (by rw [was]; exact id) (congrArg Thread.batch was).symm nofun
        · exact .take was rfl rfl
  case case16 after outcome =>
    refine .same rfl rfl rfl id (by rw [was]; exact id) ?_ ?_
    all_goals cases after <;> first | exact (congrArg Thread.batch was).symm | nofun
  case case21 fin rest outcome => exact .stop fin rest was rfl rfl
  case case23 writer begun buffer rest count moves => exact .write was moves.1
  case case25 writer begun buffer rest =>
    cases writer with
    | answer => exact .same rfl rfl rfl id (by rw [was]; exact id) (congrArg Thread.batch was).symm nofun
    | doSend msg fin others =>
        exact .keep rfl rfl rfl id (by rw [was]; exact fun _ => False.elim) (.inr nofun) nofun
  case case26 writer begun buffers outcome =>
    refine .keep rfl rfl rfl nofun nofun (.inl ?_) ?_
    all_goals cases writer <;> first | exact (congrArg Thread.batch was).symm | nofun
  case case27 =>
    refine .same rfl rfl rfl id (by rw [was]; exact id) ?_ ?_
    all_goals split <;> first | exact (congrArg Thread.batch was).symm | nofun
  case case28 => exact .keep rfl rfl rfl nofun nofun (.inl (congrArg Thread.batch was).symm) nofun
  case case5 | case33 =>
    exact .same rfl rfl rfl nofun (by rw [was]; exact id) (congrArg Thread.batch was).symm nofun
  all_goals exact .same rfl rfl rfl id (by rw [was]; exact id) (congrArg Thread.batch was).symm nofun

/-- The entries are where they should be. -/
structure Booked (state : State) : Prop where
  handed : state.shared.handed <+: state.shared.pushed
  messages : ∀ entry ∈ state.shared.handed, entry.msg ≠ none
  complete : state.shared.connected = true → (∀ fiber, ¬ (state.threads fiber).Stops) →
    ∃ fiber, (∀ other ≠ fiber, (state.threads other).batch = []) ∧
      state.shared.pushed =
        state.shared.handed ++ (state.threads fiber).batch ++ state.shared.sendQueue
  stopped : state.shared.connected = true → ∀ fiber,
    state.threads fiber = .closing .forceStop →
      ∃ marker : Entry, marker.msg = none ∧ state.shared.handed ++ [marker] <+: state.shared.pushed

/-- A fiber with entries is in `doSend`. -/
theorem Thread.batch_nil {thread : Thread} (outside : ¬ thread.Sends) : thread.batch = [] := by
  cases thread with
  | unlocking after =>
      cases after with
      | send => exact absurd nofun outside
      | signal => rfl
  | writing writer =>
      cases writer with
      | doSend => exact absurd nofun outside
      | answer => rfl
  | sending => exact absurd trivial outside
  | _ => rfl

theorem Thread.Stops.sends {thread : Thread} (stops : thread.Stops) : thread.Sends := by
  cases thread with
  | failing => exact stops
  | closing => trivial
  | _ => exact stops.elim

/-- Beside a fiber in `doSend`, the others have no entries. -/
theorem Alone.others (alone : Alone state) (sends : (state.threads fiber).Sends)
    {other : FiberId} (apart : other ≠ fiber) : (state.threads other).batch = [] :=
  Thread.batch_nil fun also => apart (alone.unique also sends)

/-- While a fiber in `doSend` goes on, the rest is in its hands and in the queue. -/
theorem Booked.at_sender (booked : Booked state) (alone : Alone state)
    (sends : (state.threads fiber).Sends) (goes : ¬ (state.threads fiber).Stops)
    (connected : state.shared.connected = true) :
    state.shared.pushed =
      state.shared.handed ++ (state.threads fiber).batch ++ state.shared.sendQueue := by
  obtain ⟨holder, others, pushed⟩ := booked.complete connected fun other stops =>
    goes (alone.unique stops.sends sends ▸ stops)
  by_cases same : holder = fiber
  · exact same ▸ pushed
  · rw [alone.others sends same] at pushed
    rw [others fiber (Ne.symm same)]
    exact pushed

/-- Beside a fiber in `doSend`, no other is about to stop. -/
theorem Alone.closing_put (alone : Alone state) (sends : (state.threads fiber).Sends)
    (goes : next ≠ .closing .forceStop) {other : FiberId} :
    (state.put fiber shared next).threads other ≠ .closing .forceStop := by
  intro closing
  obtain ⟨-, current⟩ | ⟨apart, current⟩ := state.put_cases fiber shared next other
  all_goals rw [current] at closing
  · exact goes closing
  · exact apart (alone.unique (by rw [closing]; trivial) sends)

/-- A step of a fiber in `doSend`, after which the rest is in its hands and in the queue. -/
theorem Alone.put_sender (alone : Alone state)
    (sends : (state.threads fiber).Sends) (goes : next ≠ .closing .forceStop)
    (handed : shared.handed <+: shared.pushed) (messages : ∀ entry ∈ shared.handed, entry.msg ≠ none)
    (complete : shared.connected = true →
      shared.pushed = shared.handed ++ next.batch ++ shared.sendQueue) :
    Booked (state.put fiber shared next) := by
  refine ⟨handed, messages, fun connected _ => ⟨fiber, fun other apart => ?_, ?_⟩,
    fun _ other closing => absurd closing (alone.closing_put sends goes)⟩
  · rw [Config.put_other apart]
    exact alone.others sends apart
  · rw [Config.put_self]
    exact complete connected

theorem Booked.keep (booked : Booked state) (queue : shared.sendQueue = state.shared.sendQueue)
    (pushed : shared.pushed = state.shared.pushed) (handed : shared.handed = state.shared.handed)
    (connected : shared.connected = true → state.shared.connected = true)
    (stops : shared.connected = true → (state.threads fiber).Stops → next.Stops)
    (batch : next.batch = (state.threads fiber).batch ∨ next.Stops)
    (goes : next ≠ .closing .forceStop) : Booked (state.put fiber shared next) := by
  constructor
  · rw [Config.put_shared, handed, pushed]
    exact booked.handed
  · rw [Config.put_shared, handed]
    exact booked.messages
  · rw [Config.put_shared, handed, pushed, queue]
    intro still free
    have here : ¬ next.Stops := by
      have now := free fiber
      rwa [Config.put_self] at now
    have before : ∀ other, ¬ (state.threads other).Stops := by
      intro other
      by_cases same : other = fiber
      · exact same ▸ mt (stops still) here
      · have now := free other
        rwa [Config.put_other same] at now
    obtain ⟨holder, others, whole⟩ := booked.complete (connected still) before
    have same : ∀ other, ((state.put fiber shared next).threads other).batch =
        (state.threads other).batch := state.put_view Thread.batch (batch.resolve_right here)
    refine ⟨holder, fun other apart => (same other).trans (others other apart), ?_⟩
    rw [same]
    exact whole
  · rw [Config.put_shared, handed, pushed]
    intro still other closing
    obtain ⟨-, current⟩ | ⟨-, current⟩ := state.put_cases fiber shared next other
    all_goals rw [current] at closing
    · exact absurd closing goes
    · exact booked.stopped (connected still) other closing

theorem Booked.push {entry : Entry} (booked : Booked state)
    (was : state.threads fiber = .holding (.push entry)) (same : shared = { state.shared with
      sendQueue := state.shared.sendQueue ++ [entry], pushed := state.shared.pushed ++ [entry] }) :
    Booked (state.put fiber shared (.unlocking .signal)) := by
  subst same
  refine ⟨booked.handed.trans (List.prefix_append _ _), booked.messages, fun connected free => ?_,
    fun connected other closing => ?_⟩
  · have before : ∀ other, ¬ (state.threads other).Stops := by
      intro other
      by_cases same : other = fiber
      · rw [same, was]
        exact id
      · have now := free other
        rwa [Config.put_other same] at now
    obtain ⟨holder, others, whole⟩ := booked.complete connected before
    have same := @Config.put_view _ _ state fiber { state.shared with
      sendQueue := state.shared.sendQueue ++ [entry], pushed := state.shared.pushed ++ [entry] }
      (.unlocking .signal) _ Thread.batch (congrArg Thread.batch was).symm
    refine ⟨holder, fun other apart => (same other).trans (others other apart), ?_⟩
    rw [same, Config.put_shared]
    simp only
    rw [whole, List.append_assoc]
    rfl
  · obtain ⟨-, current⟩ | ⟨-, current⟩ := state.put_cases fiber _ (.unlocking .signal) other
    all_goals rw [current] at closing
    · cases closing
    · obtain ⟨marker, none, before⟩ := booked.stopped connected other closing
      exact ⟨marker, none, before.trans (List.prefix_append _ _)⟩

theorem Booked.step {self : Waiter} (booked : Booked state) (alone : Alone state)
    (effect : Effect state self.fiber shared next) : Booked (state.put self.fiber shared next) := by
  cases effect with
  | keep queue pushed handed connected stops batch goes =>
      exact booked.keep queue pushed handed connected stops batch goes
  | push entry was same now =>
      rw [now]
      exact booked.push was same
  | take was same now =>
      have sends : (state.threads self.fiber).Sends := by rw [was]; rfl
      refine alone.put_sender sends (by rw [now]; nofun) ?_ ?_ fun connected => ?_
      · rw [same]
        exact booked.handed
      · rw [same]
        exact booked.messages
      · rw [same] at connected
        have whole := booked.at_sender alone sends (by rw [was]; exact id) connected
        rw [was] at whole
        rw [same, now]
        rw [Thread.batch, List.append_nil] at whole
        · exact whole.trans (List.append_nil _).symm
        all_goals nofun
  | hand msg fin rest left was queue pushed handed connected batch goes =>
      have sends : (state.threads self.fiber).Sends := by rw [was]; nofun
      have whole := booked.at_sender alone sends (by rw [was]; exact id) connected
      rw [was] at whole
      change state.shared.pushed =
        state.shared.handed ++ (⟨some msg, fin⟩ :: rest) ++ state.shared.sendQueue at whole
      have next' : state.shared.pushed =
          state.shared.handed ++ [⟨some msg, fin⟩] ++ (rest ++ state.shared.sendQueue) := by
        rw [whole]
        simp
      refine alone.put_sender sends (not_stops_closing goes) ?_ ?_ fun _ => ?_
      · rw [handed, pushed]
        exact ⟨_, next'.symm⟩
      · rw [handed]
        intro entry member
        obtain old | new := List.mem_append.mp member
        · exact booked.messages entry old
        · rw [List.mem_singleton.mp new]
          nofun
      · rw [handed, pushed, queue, batch, next']
        simp only [List.append_assoc]
  | stop fin rest was same now =>
      have sends : (state.threads self.fiber).Sends := by rw [was]; trivial
      subst same now
      refine ⟨booked.handed, booked.messages, fun _ free => ?_, fun connected other _ => ?_⟩
      · have stops := free self.fiber
        rw [Config.put_self] at stops
        exact absurd nofun stops
      · have whole := booked.at_sender alone sends (by rw [was]; exact id) connected
        rw [was] at whole
        refine ⟨⟨none, fin⟩, rfl, rest ++ state.shared.sendQueue, ?_⟩
        rw [Config.put_shared, whole]
        simp [Thread.batch]

end Books

section Wakes

variable {bufferSize : Nat} {state later : State} {fiber : FiberId} {shared : Shared}
  {next : Thread}

/-- Who is in the waiters of `_cond`, and what is to come for it. -/
structure Woken (state : State) : Prop where
  waiters : ∀ waiter ∈ state.shared.mtx.condition, (state.threads waiter.fiber).Sends
  idle : ∀ fiber, state.threads fiber = .waiting → state.shared.sendQueue = []
  signals : state.shared.mtx.condition ≠ [] → state.shared.sendQueue ≠ [] →
    ∃ fiber, (state.threads fiber).Signals

/-- A fiber goes on without taking a signal away. -/
structure Thread.Follows (before next : Thread) : Prop where
  sends : before.point.Blocked → before.Sends → next.Sends
  signals : before.Signals → next.Signals
  waits : next ≠ .waiting

theorem waiting_put {other : FiberId} (waits : next ≠ .waiting)
    (now : (state.put fiber shared next).threads other = .waiting) :
    state.threads other = .waiting := by
  obtain ⟨-, current⟩ | ⟨-, current⟩ := state.put_cases fiber shared next other
  all_goals rw [current] at now
  · exact absurd now waits
  · exact now

/-- Who is in the waiters of `_cond` stays in `doSend`. -/
theorem Woken.waiters_put {waiter : Waiter} (woken : Woken state)
    (correct : FiberMutex.Correct (mutexOf state)) (member : waiter ∈ state.shared.mtx.condition)
    (sends : (state.threads fiber).point.Blocked → (state.threads fiber).Sends → next.Sends) :
    ((state.put fiber shared next).threads waiter.fiber).Sends := by
  have before := woken.waiters waiter member
  have blocked : (state.threads waiter.fiber).point.Blocked :=
    correct.blocked (List.mem_map_of_mem (List.mem_append_left _ (List.mem_append_right _ member)))
  obtain ⟨isFiber, current⟩ | ⟨-, current⟩ := state.put_cases fiber shared next waiter.fiber
  all_goals rw [current]
  · rw [isFiber] at before blocked
    exact sends blocked before
  · exact before

theorem Woken.keep (woken : Woken state) (correct : FiberMutex.Correct (mutexOf state))
    (condition : shared.mtx.condition = state.shared.mtx.condition)
    (queue : shared.sendQueue = [] ∨ shared.sendQueue = state.shared.sendQueue)
    (follows : (state.threads fiber).Follows next) : Woken (state.put fiber shared next) := by
  obtain ⟨sends, signals, waits⟩ := follows
  refine ⟨fun waiter member => ?_, fun other now => ?_, ?_⟩
  · rw [Config.put_shared, condition] at member
    exact woken.waiters_put correct member sends
  · exact queue.elim id fun same => same.trans (woken.idle other (waiting_put waits now))
  · rw [Config.put_shared, condition]
    intro parked some
    have before := queue.resolve_left some
    rw [before] at some
    exact Config.exists_put (woken.signals parked some) signals

/-- A `doSend` goes into the waiters of `_cond`. -/
theorem Woken.wait {self : Waiter} (woken : Woken state)
    (correct : FiberMutex.Correct (mutexOf state)) (was : state.threads self.fiber = .waiting) :
    Woken (state.put self.fiber (state.shared.setMutex (state.shared.mtx.wait self))
      (.blocked false .test)) := by
  have empty := woken.idle self.fiber was
  refine ⟨fun waiter member => ?_, fun _ _ => empty, fun _ some => absurd empty some⟩
  obtain old | rfl := FiberMutex.Shared.condition_wait member
  · exact woken.waiters_put correct old fun _ _ => rfl
  · rw [Config.put_self]
    rfl

/-- A `doSend` has found nothing to send. -/
theorem Woken.test (woken : Woken state) (correct : FiberMutex.Correct (mutexOf state))
    (empty : state.shared.sendQueue = []) : Woken (state.put fiber state.shared .waiting) :=
  ⟨fun _ member => woken.waiters_put correct member fun _ _ => trivial, fun _ _ => empty,
    fun _ some => absurd empty some⟩

/-- A fiber pushes an entry, with its signal to come. -/
theorem Woken.push {entry : Entry} (woken : Woken state)
    (correct : FiberMutex.Correct (mutexOf state))
    (was : state.threads fiber = .holding (.push entry))
    (condition : shared.mtx.condition = state.shared.mtx.condition) :
    Woken (state.put fiber shared (.unlocking .signal)) := by
  refine ⟨fun waiter member => ?_, fun other now => ?_, fun _ _ => ⟨fiber, ?_⟩⟩
  · rw [Config.put_shared, condition] at member
    refine woken.waiters_put correct member fun blocked => ?_
    rw [was] at blocked
    exact blocked.elim
  · have goes : Thread.unlocking .signal ≠ .waiting := nofun
    have before := waiting_put goes now
    have first : (state.threads fiber).point.Holds := by
      rw [was]
      rfl
    have second : (state.threads other).point.Holds := by
      rw [before]
      rfl
    have same := correct.holder_unique first second
    rw [← same, was] at before
    cases before
  · rw [Config.put_self]
    rfl

/-- A signal finds the only waiter, or nobody. -/
theorem Woken.signal {rest : FiberMutex.Shared} {waiter : Waiter} (woken : Woken state)
    (correct : FiberMutex.Correct (mutexOf state)) (alone : Alone state)
    (taken : state.shared.mtx.signal = some (rest, waiter)) : rest.condition = [] :=
  correct.signal_only (fun first one second other =>
    alone.unique (woken.waiters first one) (woken.waiters second other)) taken

/-- After a signal nobody is in the waiters of `_cond`. -/
theorem Woken.unparked (woken : Woken state) (queue : shared.sendQueue = state.shared.sendQueue)
    (empty : shared.mtx.condition = []) (waits : next ≠ .waiting) :
    Woken (state.put fiber shared next) := by
  refine ⟨?_, fun other now => ?_, fun parked => absurd empty parked⟩
  · rw [Config.put_shared, empty]
    exact fun _ member => absurd member List.not_mem_nil
  · exact queue.trans (woken.idle other (waiting_put waits now))

theorem Woken.perform {goal : Goal} (woken : Woken state)
    (correct : FiberMutex.Correct (mutexOf state)) (was : state.threads fiber = .holding goal) :
    Woken (state.put fiber (state.shared.perform goal).1 (state.shared.perform goal).2) := by
  cases goal with
  | push entry => exact woken.push correct was rfl
  | test =>
      rw [Shared.perform]
      split
      case isTrue both =>
        rw [Bool.and_eq_true, List.isEmpty_iff] at both
        exact woken.test correct both.1
      case isFalse =>
        refine woken.keep correct rfl (.inl rfl) ?_
        rw [was]
        exact ⟨fun _ _ => nofun, fun signals => absurd rfl signals, nofun⟩

/-- A step that is neither of the mutex nor of the queue. -/
theorem Woken.aside (woken : Woken state) (correct : FiberMutex.Correct (mutexOf state))
    (mtx : shared.mtx = state.shared.mtx) (queue : shared.sendQueue = state.shared.sendQueue)
    (free : ¬ (state.threads fiber).point.Blocked)
    (signals : (state.threads fiber).Signals → next.Signals) (waits : next ≠ .waiting) :
    Woken (state.put fiber shared next) :=
  woken.keep correct (congrArg FiberMutex.Shared.condition mtx) (.inr queue)
    ⟨fun blocked => absurd blocked free, signals, waits⟩

theorem ne_waiting {thread : Thread} (free : thread.point = .running false) :
    thread ≠ .waiting := by
  rintro rfl
  cases free

theorem Woken.step {self : Waiter} {choice : Action} {result : Shared × Thread}
    (woken : Woken state) (correct : FiberMutex.Correct (mutexOf state)) (alone : Alone state)
    (executed : state.shared.exec bufferSize self (state.threads self.fiber) choice =
      some result) : Woken (state.put self.fiber result.1 result.2) := by
  generalize was : state.threads self.fiber = here at executed
  revert executed
  fun_cases Shared.exec bufferSize self state.shared here choice
  all_goals rintro ⟨⟩
  case case10 goal outcome =>
    refine woken.keep correct FiberMutex.Shared.condition_lock (.inr rfl) ?_
    rw [was]
    unfold Shared.lock
    simp only
    split <;> exact ⟨fun _ => id, id, nofun⟩
  case case11 | case12 =>
    refine woken.keep correct rfl (.inr rfl) ?_
    rw [was]
    exact ⟨fun _ => id, id, nofun⟩
  case case14 goal outcome => exact woken.perform correct was
  case case15 => exact woken.wait correct was
  case case16 after outcome =>
    refine woken.keep correct FiberMutex.Shared.condition_unlockNoLock (.inr rfl) ?_
    rw [was]
    refine ⟨False.elim, fun signals => ?_, ?_⟩
    · cases signals
      trivial
    · cases after <;> exact Thread.noConfusion
  case case17 none =>
    exact woken.unparked rfl (FiberMutex.Shared.condition_signal_none none) nofun
  case case18 taken => exact woken.unparked rfl (woken.signal correct alone taken) nofun
  case case19 =>
    refine woken.keep correct FiberMutex.Shared.condition_enter (.inr rfl) ?_
    rw [was]
    exact ⟨False.elim, False.elim, nofun⟩
  case case6 sender outcome =>
    obtain ⟨mtx, outside⟩ := wait_point state.shared self sender
    refine woken.aside correct mtx ?_ (by rw [was]; exact id) (by rw [was]; exact False.elim)
      (ne_waiting outside)
    unfold Shared.wait
    rfl
  case case8 sender ready =>
    exact woken.aside correct rfl rfl (by rw [was]; exact id) (by rw [was]; exact False.elim)
      (ne_waiting (acquired_point sender))
  case case23 writer begun buffer rest count moves =>
    exact woken.aside correct rfl rfl (by rw [was]; exact id) (by rw [was]; exact False.elim)
      (ne_waiting (writer.advance_point _ rest))
  case case26 writer begun buffers outcome =>
    exact woken.aside correct rfl rfl (by rw [was]; exact id) (by rw [was]; exact False.elim)
      (ne_waiting writer.failed_point)
  case case27 =>
    refine woken.aside correct rfl rfl (by rw [was]; exact id) (by rw [was]; exact False.elim)
      (ne_waiting ?_)
    split <;> rfl
  all_goals
    exact woken.aside correct rfl rfl (by rw [was]; exact id) (by rw [was]; exact False.elim) nofun

end Wakes

section Runs

variable {bufferSize : Nat} {state later : State}

/-- The invariant. -/
structure Ordered (state : State) : Prop where
  correct : FiberMutex.Correct (mutexOf state)
  alone : Alone state
  booked : Booked state
  woken : Woken state

theorem Ordered.step {action : Waiter × Action} (ordered : Ordered state)
    (taken : step bufferSize state action = some later) : Ordered later := by
  have correct := mutex_step ordered.correct taken
  have alone := ordered.alone.step taken
  obtain ⟨result, executed, rfl⟩ := Option.map_eq_some_iff.mp taken
  exact ⟨correct, alone, ordered.booked.step ordered.alone (effect_of_step executed),
    ordered.woken.step ordered.correct ordered.alone executed⟩

theorem ordered_fresh : Ordered fresh where
  correct := by
    have points : ∀ fiber, (mutexOf fresh).threads fiber = .running false := fun _ => rfl
    refine ⟨.initial rfl (fun fiber => by rw [points]; rfl) fun fiber => ?_, fun fiber => ?_,
      fun _ => rfl, rfl, rfl⟩
    · rw [points]
      exact not_false
    · rw [points]
      exact iff_of_false nofun (by rintro (holds | ready) <;> contradiction)
  alone := ⟨0, .zero fun _ => id, by decide⟩
  booked := ⟨List.nil_prefix, nofun, fun _ _ => ⟨0, fun _ _ => rfl, rfl⟩, fun _ _ => nofun⟩
  woken := ⟨nofun, fun _ => nofun, fun parked => absurd rfl parked⟩

/-- Whatever the fibers of a session do, its send queue is first in, first out. -/
theorem fifo (run : Runs (step bufferSize) (fun _ _ => True) fresh state) : Fifo state := by
  have ordered : Ordered state :=
    run.invariant (fun _ _ _ ordered _ taken => ordered.step taken) ordered_fresh
  obtain ⟨-, -, ⟨handed, messages, complete, stopped⟩, woken⟩ := ordered
  refine ⟨handed, fun before marker after pushed none => ?_, complete, stopped,
    fun waiter member => ⟨woken.waiters waiter member,
      woken.signals (List.ne_nil_of_mem member)⟩⟩
  by_contra long
  have inside : before.length < state.shared.handed.length := Nat.lt_of_not_le long
  have same : state.shared.handed[before.length] = marker := by
    rw [handed.getElem inside]
    simp [pushed]
  exact messages _ (List.getElem_mem inside) (same ▸ none)

/-- A text is pushed, then an entry without a message, then another text; a `doSend` takes all
of them and stops behind the first. -/
def stopRun : List (Waiter × Action) :=
  let text : WSFrameMessage := ⟨1, [0x68, 0x69]⟩
  let calls : List Action := [.sendMessage text true, .forceClose, .sendMessage text true]
  calls.flatMap (fun call => (⟨0, 0⟩, call) :: List.replicate 4 (⟨0, 0⟩, .go .fails)) ++
    (⟨0, 1⟩, .doSend) :: List.replicate 5 (⟨0, 1⟩, .go .fails) ++
      List.replicate 2 (⟨0, 1⟩, .go (.moves 2)) ++ [(⟨0, 1⟩, .go .fails)]

def stoppedSend : State :=
  (replay (step 16384) (fun _ _ => true) stopRun fresh).get (by decide)

theorem fifo_stopped : stoppedSend.shared.pushed.length = 3 ∧
    stoppedSend.shared.handed = [⟨some ⟨1, [0x68, 0x69]⟩, true⟩] ∧
      stoppedSend.threads 1 = .closing .forceStop ∧ Fifo stoppedSend :=
  ⟨by decide, by decide, by decide, fifo (.of_replay (fun _ _ _ => trivial) (Option.some_get _).symm)⟩

end Runs

end Xten.http.WSSession
