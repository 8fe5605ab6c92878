import Xten.Fiber.Exclusion
import Xten.AsyncStream.SendQueue

/-!
# The write fiber is woken up

A write fiber in the waiters of `_cond` has nothing to do, or a signal or an `innerClose` is
still to come, as long as the last `innerClose` does not broadcast between the test of the
write fiber and its wait.
-/

namespace Xten.AsyncSocketStream.SendQueue

open Std.Interleaving
open FiberSemphore (FiberId Waiter)

/-- What a fiber is to `_queMtx` and `_cond`. -/
def Thread.point : Thread → FiberMutex.Point
  | .blocked false _ => .leaving
  | .blocked true _ => .suspended
  | .holding _ | .waiting | .unlocking _ => .running true
  | .signalling next => .signalling false next
  | _ => .running false

/-- What the run is to `_queMtx` and `_cond`. -/
def mutexOf (state : State) : FiberMutex.State where
  shared := state.shared.queMtx
  threads := fun fiber => (state.threads fiber).point

/-- A fiber in the loop of `doRead`, or on its way to the `innerClose` behind it. -/
def Thread.ReadsOn : Thread → Prop
  | .reading => True
  | .closing caller => caller = .recv ∨ caller = .readEnd
  | .broadcasting caller => caller = .recv
  | .locking goal | .blocked _ goal | .holding goal => goal = .clear .recv
  | .unlocking after => after = .returned .recv
  | _ => False

/-- A fiber in the loop of `doWrite`. -/
def Thread.WritesOn : Thread → Prop
  | .checking | .sending _ | .waiting => True
  | .closing caller | .broadcasting caller => caller = .send
  | .locking goal | .blocked _ goal | .holding goal => goal = .test ∨ goal = .clear .send
  | .unlocking after => (∃ copyQue, after = .send copyQue) ∨ after = .returned .send
  | _ => False

/-- A broadcast of an `innerClose` is still to come. -/
def Thread.Closes : Thread → Prop
  | .closing _ | .broadcasting _ => True
  | thread => thread.ReadsOn

/-- A context is about to be pushed. -/
def Goal.Pushes : Goal → Prop
  | .push _ => True
  | _ => False

/-- A signal of an `enqueue` is still to come. -/
def Thread.Signals : Thread → Prop
  | .locking goal | .blocked _ goal | .holding goal => goal.Pushes
  | .unlocking after => after = .signal
  | .signal => True
  | _ => False

/-- The last `innerClose` does not broadcast while the write fiber is between its test and
its wait. -/
def Watched (state : State) (action : FiberId × Action) : Prop :=
  ∀ caller, state.threads action.1 = .broadcasting caller → state.threads writer = .waiting →
    caller = .recv ∨ ∃ other ≠ action.1, (state.threads other).Closes

/-- The write fiber is not left in the waiters of `_cond` with something to do. -/
def Attended (state : State) : Prop :=
  (∃ waiter ∈ state.shared.queMtx.condition, waiter.fiber = writer) →
    state.shared.connected = false ∨ state.shared.sendCtxQue ≠ [] →
      ∃ fiber, (state.threads fiber).Signals ∨ (state.threads fiber).Closes

section Mutex

variable {state later : State} {fiber : FiberId} {shared : Shared} {next : Thread}

theorem mutexOf_put : mutexOf (state.put fiber shared next) =
    (mutexOf state).put fiber shared.queMtx next.point :=
  @Config.view_put _ _ state fiber shared next _ _ Shared.queMtx Thread.point

/-- A step that leaves the mutex alone. -/
theorem mutex_keep (correct : FiberMutex.Correct (mutexOf state))
    (same : shared.queMtx = state.shared.queMtx)
    (point : next.point = (state.threads fiber).point) :
    FiberMutex.Correct (mutexOf (state.put fiber shared next)) := by
  rw [mutexOf_put, same, point]
  exact correct.keep Iff.rfl Iff.rfl rfl

theorem After.thread_point (after : After) : after.thread.point = .running false := by
  cases after with
  | returned caller => cases caller <;> rfl
  | send | signal | post => rfl

/-- With the mutex, a fiber goes on to wait or to unlock it. -/
theorem perform_point (shared : Shared) (goal : Goal) :
    (shared.perform goal).1.queMtx = shared.queMtx ∧
      (shared.perform goal).2.point = .running true := by
  cases goal
  case test =>
    rw [Shared.perform]
    split <;> exact ⟨rfl, rfl⟩
  all_goals exact ⟨rfl, rfl⟩

/-- The stream uses its mutex and its condition as they are meant to be used. -/
theorem mutex_step {action : FiberId × Action} (correct : FiberMutex.Correct (mutexOf state))
    (taken : step state action = some later) : FiberMutex.Correct (mutexOf later) := by
  obtain ⟨fiber, choice⟩ := action
  obtain ⟨result, executed, rfl⟩ := Option.map_eq_some_iff.mp taken
  change state.shared.exec fiber (state.threads fiber) choice = some result at executed
  clear taken
  generalize was : state.threads fiber = here at executed
  have point : (mutexOf state).threads fiber = here.point := congrArg Thread.point was
  revert executed
  fun_cases Shared.exec fiber state.shared here choice
  all_goals rintro ⟨⟩
  case case10 =>
    have moved := @FiberMutex.Correct.foldl_enter _ fiber _ correct rfl
    rw [point] at moved
    rw [mutexOf_put]
    exact moved
  case case11 goal outcome =>
    have locked := @FiberMutex.Correct.lock _ _ ioWorker correct point
    rw [mutexOf_put]
    change FiberMutex.Correct ((mutexOf state).put fiber
      (state.shared.queMtx.lock ⟨ioWorker, fiber⟩).1
      (if (state.shared.queMtx.lock ⟨ioWorker, fiber⟩).2 then
        Thread.holding goal else Thread.blocked false goal).point)
    rw [apply_ite Thread.point]
    exact locked
  case case12 =>
    rw [mutexOf_put]
    exact correct.keep (by rw [point]; rfl) (by rw [point]; rfl) (by rw [point]; rfl)
  case case13 ready =>
    rw [mutexOf_put]
    exact correct.resume point ready
  case case15 goal outcome =>
    obtain ⟨same, holds⟩ := perform_point state.shared goal
    exact mutex_keep correct same (holds.trans point.symm)
  case case16 =>
    rw [mutexOf_put]
    exact correct.wait point
  case case17 after outcome =>
    rw [mutexOf_put, After.thread_point]
    exact correct.unlock point
  case case19 taken =>
    rw [mutexOf_put]
    exact correct.signal point taken
  case case20 =>
    rw [mutexOf_put]
    exact correct.hand_over point
  case case4 | case5 | case7 | case1 | case2 | case3 | case6 | case8 | case9 | case18 =>
    refine mutex_keep correct rfl (Eq.trans ?_ point.symm)
    first | rfl | (split <;> first | rfl | (split <;> rfl))

end Mutex

section Wakes

/-- A fiber goes on without taking a wake-up away. -/
structure Thread.Follows (connected : Bool) (before next : Thread) : Prop where
  writes : next.WritesOn → before.WritesOn
  reads : connected → before.ReadsOn → next.ReadsOn
  closes : before.Closes → next.Closes
  signals : before.Signals → next.Signals
  waits : next ≠ .waiting

/-- The invariant. -/
structure Woken (state : State) : Prop where
  correct : FiberMutex.Correct (mutexOf state)
  writes : ∀ fiber, (state.threads fiber).WritesOn → fiber = writer
  reads : state.shared.connected → (state.threads reader).ReadsOn
  waiters : ∀ waiter ∈ state.shared.queMtx.condition, waiter.fiber = writer
  idle : state.threads writer = .waiting → state.shared.sendCtxQue = []
  signals : state.shared.queMtx.condition ≠ [] → state.shared.sendCtxQue ≠ [] →
    ∃ fiber, (state.threads fiber).Signals
  closes : state.shared.connected = false →
    state.threads writer = .waiting ∨ state.shared.queMtx.condition ≠ [] →
      ∃ fiber, (state.threads fiber).Closes

variable {state later : State} {fiber : FiberId} {shared : Shared} {next : Thread}

theorem Thread.ReadsOn.closes {thread : Thread} (reads : thread.ReadsOn) : thread.Closes := by
  cases thread <;> trivial

/-- What a fiber in the loop of `doWrite` does next. -/
theorem writes_put (woken : Woken state)
    (same : next.WritesOn → (state.threads fiber).WritesOn) (other : FiberId)
    (writes : ((state.put fiber shared next).threads other).WritesOn) : other = writer := by
  obtain ⟨rfl, current⟩ | ⟨-, current⟩ := state.put_cases fiber shared next other
  all_goals rw [current] at writes
  · exact woken.writes _ (same writes)
  · exact woken.writes other writes

theorem reads_put (woken : Woken state)
    (connected : shared.connected → state.shared.connected ∧
      ((state.threads fiber).ReadsOn → next.ReadsOn)) (open' : shared.connected) :
    ((state.put fiber shared next).threads reader).ReadsOn := by
  obtain ⟨before, reads⟩ := connected open'
  obtain ⟨isReader, current⟩ | ⟨-, current⟩ := state.put_cases fiber shared next reader
  all_goals rw [current]
  · exact reads (isReader ▸ woken.reads before)
  · exact woken.reads before

/-- The write fiber is about to wait only if it was. -/
theorem waiting_put (now : (state.put fiber shared next).threads writer = .waiting)
    (waits : next ≠ .waiting) :
    state.threads writer = .waiting := by
  obtain ⟨-, current⟩ | ⟨-, current⟩ := state.put_cases fiber shared next writer
  all_goals rw [current] at now
  · exact absurd now waits
  · exact now

/-- Nothing changes for a write fiber that waits or is about to. -/
theorem Woken.keep (woken : Woken state)
    (correct : FiberMutex.Correct (mutexOf (state.put fiber shared next)))
    (connected : shared.connected = state.shared.connected)
    (queue : shared.sendCtxQue = [] ∨ shared.sendCtxQue = state.shared.sendCtxQue)
    (condition : shared.queMtx.condition = state.shared.queMtx.condition)
    (follows : (state.threads fiber).Follows shared.connected next) :
    Woken (state.put fiber shared next) := by
  obtain ⟨writes, reads, closes, signals, waits⟩ := follows
  have still := fun now => @waiting_put state fiber shared next now waits
  refine ⟨correct, writes_put woken writes, reads_put woken fun open' => ?_, ?_, ?_, ?_, ?_⟩
  · exact ⟨connected ▸ open', reads open'⟩
  · rw [Config.put_shared, condition]
    exact woken.waiters
  · intro waiting
    exact queue.elim id fun same => same.trans (woken.idle (still waiting))
  · rw [Config.put_shared, condition]
    intro parked some
    have before := queue.resolve_left some
    rw [before] at some
    exact Config.exists_put (woken.signals parked some) signals
  · rw [Config.put_shared, condition, connected]
    intro closed waiting
    exact Config.exists_put (woken.closes closed (waiting.imp_left still)) closes

/-- The connection is closed by somebody whose broadcast is to come, or while `doRead` is in
its loop. -/
theorem Woken.close (woken : Woken state)
    (correct : FiberMutex.Correct (mutexOf (state.put fiber shared next)))
    (closed : shared.connected = false)
    (queue : shared.sendCtxQue = state.shared.sendCtxQue)
    (condition : shared.queMtx.condition = state.shared.queMtx.condition)
    (writes : next.WritesOn → (state.threads fiber).WritesOn)
    (closes : next.Closes ∨ ¬ (state.threads fiber).Closes)
    (signals : (state.threads fiber).Signals → next.Signals) (waits : next ≠ .waiting) :
    Woken (state.put fiber shared next) := by
  have still := fun now => @waiting_put state fiber shared next now waits
  refine ⟨correct, writes_put woken writes, fun open' => ?_, ?_, ?_, ?_, ?_⟩
  · cases closed.symm.trans open'
  · rw [Config.put_shared, condition]
    exact woken.waiters
  · intro waiting
    exact queue.trans (woken.idle (still waiting))
  · rw [Config.put_shared, condition, queue]
    exact fun parked some => Config.exists_put (woken.signals parked some) signals
  · rw [Config.put_shared, condition]
    intro _ waiting
    have before : ∃ other, (state.threads other).Closes := by
      cases connected : state.shared.connected with
      | true => exact ⟨reader, (woken.reads connected).closes⟩
      | false => exact woken.closes connected (waiting.imp_left still)
    exact Config.exists_put before fun was => closes.resolve_right fun not => not was

/-- An `innerClose` wakes the write fiber up, or another one is still to come. -/
theorem Woken.broadcast {caller : Caller} (woken : Woken state)
    (watched : state.threads writer = .waiting →
      caller = .recv ∨ ∃ other ≠ fiber, (state.threads other).Closes)
    (was : state.threads fiber = .broadcasting caller)
    (correct : FiberMutex.Correct (mutexOf (state.put fiber
      (state.shared.setMutex state.shared.queMtx.broadcast) (.locking (.clear caller))))) :
    Woken (state.put fiber (state.shared.setMutex state.shared.queMtx.broadcast)
      (.locking (.clear caller))) := by
  refine ⟨correct, writes_put woken ?_, reads_put woken fun open' => ⟨open', ?_⟩, nofun, ?_,
    fun parked => absurd rfl parked, ?_⟩
  · rw [was]
    rintro (none | same)
    · cases none
    · cases same
      rfl
  · rw [was]
    rintro rfl
    rfl
  · exact fun waiting => woken.idle (waiting_put waiting nofun)
  · rintro closed (waiting | parked)
    · obtain rfl | ⟨other, apart, closes⟩ := watched (waiting_put waiting nofun)
      · exact ⟨fiber, by rw [Config.put_self]; rfl⟩
      · exact ⟨other, by rwa [Config.put_other apart]⟩
    · exact absurd rfl parked

/-- The write fiber goes into the waiters of `_cond`. -/
theorem Woken.wait (woken : Woken state) (was : state.threads fiber = .waiting)
    (correct : FiberMutex.Correct (mutexOf (state.put fiber
      (state.shared.setMutex (state.shared.queMtx.wait ⟨ioWorker, fiber⟩))
      (.blocked false .test)))) :
    Woken (state.put fiber (state.shared.setMutex (state.shared.queMtx.wait ⟨ioWorker, fiber⟩))
      (.blocked false .test)) := by
  have isWriter : fiber = writer := woken.writes fiber (by rw [was]; trivial)
  have empty : state.shared.sendCtxQue = [] := woken.idle (isWriter ▸ was)
  have condition : ∀ waiter ∈ (state.shared.queMtx.wait ⟨ioWorker, fiber⟩).condition,
      waiter.fiber = writer := by
    intro waiter member
    obtain old | rfl := FiberMutex.Shared.condition_wait member
    · exact woken.waiters waiter old
    · exact isWriter
  refine ⟨correct, writes_put woken fun _ => ?_, reads_put woken fun open' => ⟨open', ?_⟩,
    condition, fun _ => empty, fun _ some => absurd empty some, fun closed _ => ?_⟩
  · rw [was]
    trivial
  · rw [was]
    exact False.elim
  · refine Config.exists_put (woken.closes closed (.inl (isWriter ▸ was))) ?_
    rw [was]
    exact False.elim

/-- A fiber pushes a context, with its signal to come. -/
theorem Woken.push {ctx : Nat} (woken : Woken state) (was : state.threads fiber = .holding (.push ctx))
    (correct : FiberMutex.Correct (mutexOf (state.put fiber
      { state.shared with sendCtxQue := state.shared.sendCtxQue ++ [ctx] }
      (.unlocking .signal)))) :
    Woken (state.put fiber { state.shared with sendCtxQue := state.shared.sendCtxQue ++ [ctx] }
      (.unlocking .signal)) := by
  have holds : ((mutexOf state).threads fiber).Holds := by
    change (state.threads fiber).point.Holds
    rw [was]
    rfl
  refine ⟨correct, writes_put woken ?_, reads_put woken fun open' => ⟨open', ?_⟩, woken.waiters,
    fun waiting => ?_, fun _ _ => ⟨fiber, by rw [Config.put_self]; rfl⟩, fun closed waiting => ?_⟩
  · rintro (⟨_, none⟩ | none) <;> cases none
  · rw [was]
    exact nofun
  · have before := waiting_put waiting nofun
    have writes : ((mutexOf state).threads writer).Holds := by
      change (state.threads writer).point.Holds
      rw [before]
      rfl
    have isWriter := woken.correct.holder_unique writes holds
    rw [isWriter, was] at before
    cases before
  · have before : state.threads writer = .waiting ∨ state.shared.queMtx.condition ≠ [] := by
      obtain now | parked := waiting
      · exact .inl (waiting_put now nofun)
      · exact .inr parked
    refine Config.exists_put (woken.closes closed before) ?_
    rw [was]
    exact nofun

/-- A signal finds the write fiber, or nobody. -/
theorem Woken.signal {rest : FiberMutex.Shared} {waiter : Waiter} (woken : Woken state)
    (taken : state.shared.queMtx.signal = some (rest, waiter)) : rest.condition = [] :=
  woken.correct.signal_only (fun first one second other =>
    (woken.waiters first one).trans (woken.waiters second other).symm) taken

/-- After a signal nobody is in the waiters of `_cond`. -/
theorem Woken.unparked (woken : Woken state) (was : state.threads fiber = .signal)
    (correct : FiberMutex.Correct (mutexOf (state.put fiber shared next)))
    (connected : shared.connected = state.shared.connected)
    (queue : shared.sendCtxQue = state.shared.sendCtxQue) (empty : shared.queMtx.condition = [])
    (writes : ¬ next.WritesOn) (waits : next ≠ .waiting) :
    Woken (state.put fiber shared next) := by
  have still := fun now => @waiting_put state fiber shared next now waits
  refine ⟨correct, writes_put woken fun now => absurd now writes, reads_put woken fun open' => ?_,
    ?_, ?_, fun parked => absurd empty parked, fun closed waiting => ?_⟩
  · refine ⟨connected ▸ open', ?_⟩
    rw [was]
    exact False.elim
  · rw [Config.put_shared, empty]
    exact fun _ member => absurd member List.not_mem_nil
  · exact fun waiting => queue.trans (woken.idle (still waiting))
  · have before := waiting.resolve_right fun parked => parked empty
    refine Config.exists_put (woken.closes (connected.symm.trans closed) (.inl (still before))) ?_
    rw [was]
    exact False.elim

/-- The write fiber has found nothing to send on a connection. -/
theorem Woken.test (woken : Woken state) (was : state.threads fiber = .holding .test)
    (correct : FiberMutex.Correct (mutexOf (state.put fiber state.shared .waiting)))
    (empty : state.shared.sendCtxQue = []) (connected : state.shared.connected) :
    Woken (state.put fiber state.shared .waiting) := by
  refine ⟨correct, writes_put woken fun _ => ?_, reads_put woken fun open' => ⟨open', ?_⟩,
    woken.waiters, fun _ => empty, fun _ some => absurd empty some, fun closed => ?_⟩
  · rw [was]
    exact .inl rfl
  · rw [was]
    exact nofun
  · cases connected.symm.trans closed

/-- A fiber does what it has come for. -/
theorem Woken.perform {goal : Goal} (woken : Woken state) (was : state.threads fiber = .holding goal)
    (correct : FiberMutex.Correct
      (mutexOf (state.put fiber (state.shared.perform goal).1 (state.shared.perform goal).2))) :
    Woken (state.put fiber (state.shared.perform goal).1 (state.shared.perform goal).2) := by
  cases goal with
  | push ctx => exact woken.push was correct
  | clear caller =>
      refine woken.keep correct rfl (.inl rfl) rfl ?_
      rw [was]
      refine ⟨?_, ?_, ?_, nofun, nofun⟩
      · rintro (⟨_, none⟩ | same)
        · cases none
        · cases same
          exact .inr rfl
      · rintro - ⟨⟩
        rfl
      · rintro ⟨⟩
        rfl
  | lastClear =>
      refine woken.keep correct rfl (.inl rfl) rfl ?_
      rw [was]
      exact ⟨nofun, fun _ => nofun, nofun, nofun, nofun⟩
  | test =>
      rw [Shared.perform] at correct ⊢
      split at correct
      case isTrue both =>
        rw [if_pos both]
        rw [Bool.and_eq_true, List.isEmpty_iff] at both
        exact woken.test was correct both.1 both.2
      case isFalse other =>
        rw [if_neg other]
        refine woken.keep correct rfl (.inl rfl) rfl ?_
        rw [was]
        exact ⟨fun _ => .inl rfl, fun _ => nofun, nofun, nofun, nofun⟩

/-- Behind `_queMtx`, a fiber goes on as it has meant to. -/
theorem After.follows {connected : Bool} (after : After) :
    (Thread.unlocking after).Follows connected after.thread := by
  cases after with
  | send copyQue => exact ⟨fun _ => .inl ⟨copyQue, rfl⟩, fun _ => nofun, nofun, nofun, nofun⟩
  | signal => exact ⟨nofun, fun _ => nofun, nofun, fun _ => trivial, nofun⟩
  | post => exact ⟨nofun, fun _ => nofun, nofun, nofun, nofun⟩
  | returned caller =>
      cases caller with
      | recv => exact ⟨nofun, fun _ _ => trivial, fun _ => trivial, nofun, nofun⟩
      | readEnd => exact ⟨nofun, fun _ => nofun, nofun, nofun, nofun⟩
      | send => exact ⟨fun _ => .inr rfl, fun _ => nofun, nofun, nofun, nofun⟩
      | other => exact ⟨nofun, fun _ => nofun, nofun, nofun, nofun⟩

theorem Woken.step {action : FiberId × Action} (woken : Woken state)
    (watched : Watched state action) (taken : step state action = some later) : Woken later := by
  have correct := mutex_step woken.correct taken
  obtain ⟨fiber, choice⟩ := action
  obtain ⟨result, executed, rfl⟩ := Option.map_eq_some_iff.mp taken
  change state.shared.exec fiber (state.threads fiber) choice = some result at executed
  clear taken
  unfold Watched at watched
  generalize was : state.threads fiber = here at executed watched
  revert executed correct
  fun_cases Shared.exec fiber state.shared here choice
  all_goals
    rintro correct ⟨⟩
  case case3 =>
    refine woken.close correct rfl rfl rfl ?_ (.inr ?_) ?_ nofun
    all_goals rw [was]; try exact id
  case case9 caller outcome =>
    refine woken.close correct rfl rfl rfl ?_ (.inl trivial) ?_ nofun
    all_goals rw [was]; exact id
  case case10 caller outcome => exact woken.broadcast (watched caller rfl) was correct
  case case16 => exact woken.wait was correct
  case case18 none =>
    exact woken.unparked was correct rfl rfl (FiberMutex.Shared.condition_signal_none none)
      not_false nofun
  case case19 taken => exact woken.unparked was correct rfl rfl (woken.signal taken) not_false nofun
  case case4 outcome =>
    refine woken.keep correct rfl (.inr rfl) rfl ?_
    rw [was]
    split
    · exact ⟨nofun, fun _ _ => .inr rfl, fun _ => trivial, False.elim, nofun⟩
    · split
      · exact ⟨nofun, fun _ _ => .inl rfl, fun _ => trivial, False.elim, nofun⟩
      · exact ⟨nofun, fun _ _ => trivial, fun _ => trivial, False.elim, nofun⟩
  case case5 outcome =>
    refine woken.keep correct rfl (.inr rfl) rfl ?_
    rw [was]
    split <;> exact ⟨fun _ => trivial, fun _ => False.elim, False.elim, False.elim, nofun⟩
  case case7 outcome =>
    refine woken.keep correct rfl (.inr rfl) rfl ?_
    rw [was]
    split <;> exact ⟨fun _ => trivial, fun _ => False.elim, False.elim, False.elim, nofun⟩
  case case11 goal outcome =>
    refine woken.keep correct rfl (.inr rfl) FiberMutex.Shared.condition_lock ?_
    rw [was]
    unfold Shared.lock
    simp only
    split <;> exact ⟨id, fun _ => id, id, id, nofun⟩
  case case12 | case13 =>
    refine woken.keep correct rfl (.inr rfl) rfl ?_
    rw [was]
    exact ⟨id, fun _ => id, id, id, nofun⟩
  case case15 goal outcome => exact woken.perform was correct
  case case17 after outcome =>
    refine woken.keep correct rfl (.inr rfl) FiberMutex.Shared.condition_unlockNoLock ?_
    rw [was]
    exact after.follows
  case case20 =>
    refine woken.keep correct rfl (.inr rfl) FiberMutex.Shared.condition_enter ?_
    rw [was]
    exact ⟨False.elim, fun _ => False.elim, False.elim, False.elim, nofun⟩
  case case6 =>
    refine woken.keep correct rfl (.inr rfl) rfl ?_
    rw [was]
    exact ⟨fun _ => trivial, fun _ => False.elim, False.elim, False.elim, nofun⟩
  case case1 | case8 =>
    refine woken.keep correct rfl (.inr rfl) rfl ?_
    rw [was]
    exact ⟨nofun, fun _ => False.elim, False.elim, False.elim, nofun⟩
  case case2 =>
    refine woken.keep correct rfl (.inr rfl) rfl ?_
    rw [was]
    exact ⟨nofun, fun _ => False.elim, fun _ => trivial, False.elim, nofun⟩

end Wakes

section Runs

/-- The write fiber finds nothing to send and waits; somebody closes the connection. -/
def closeRun : List (FiberId × Action) :=
  List.replicate 4 (writer, .go .succeeds) ++ [(2, .innerClose), (2, .go .succeeds)]

def watches (state : State) (action : FiberId × Action) : Bool :=
  match state.threads action.1 with
  | .broadcasting _ => state.threads writer ≠ .waiting
  | _ => true

theorem watches_sound (state : State) (action : FiberId × Action)
    (passes : watches state action) : Watched state action := by
  intro caller broadcasts waits
  simp [watches, broadcasts, waits] at passes

def closed : State := (replay step watches closeRun (begun true [])).get (by decide)

/-- `doRecv` throws, and the `innerClose` behind the loop broadcasts between the test of the
write fiber and its wait. -/
def missRun : List (FiberId × Action) :=
  List.replicate 3 (writer, .go .succeeds) ++
    [(reader, .go .throws), (reader, .go .succeeds), (reader, .go .succeeds),
      (writer, .go .succeeds)] ++ List.replicate 4 (reader, .go .succeeds)

def missed : State := (replay step (fun _ _ => true) missRun (begun true [])).get (by decide)

theorem step_frame ⦃state : State⦄ ⦃action : FiberId × Action⦄ ⦃next : State⦄ ⦃other : Nat⦄
    (taken : step state action = some next) (apart : some action.1 ≠ some other) :
    next.threads other = state.threads other :=
  Config.map_put_other taken apart

end Runs

end Xten.AsyncSocketStream.SendQueue
