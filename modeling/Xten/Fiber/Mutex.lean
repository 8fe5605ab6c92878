import Xten.Fiber.Semaphore

/-!
# The fiber mutex and the fiber condition

`FiberMutex` and a `FiberCondition` on it. A section under the thread mutexes is one step;
`signal` has two of them, and is between them with the waiter that it has taken out. A
fiber that has put itself into a queue leaves its thread in a step of its own.
-/

namespace Xten.FiberMutex

open Std.Interleaving

open FiberSemphore (FiberId Waiter)

/-- A `FiberMutex` with its owner and waiters, and the waiters of a condition. `ready` are the
fibers that have been scheduled and not yet resumed; `arrived` have come to the waiters of
the mutex so far, and `granted` have been made the owner from there, in order. -/
structure Shared where
  owner : Option FiberId
  waiters : List Waiter
  condition : List Waiter
  ready : List Waiter
  arrived : List Waiter
  granted : List Waiter
  failed : Bool

namespace Shared

/-- An assertion does not hold. -/
def fail (shared : Shared) : Shared :=
  { shared with failed := true }

/-- `unlockNoLock`. -/
def unlockNoLock (shared : Shared) (fiber : FiberId) : Shared :=
  if shared.owner = some fiber then
    match shared.waiters with
    | [] => { shared with owner := none }
    | next :: rest =>
        { shared with
          owner := some next.fiber
          waiters := rest
          ready := shared.ready ++ [next]
          granted := shared.granted ++ [next] }
  else
    shared.fail

/-- `lock`; false if the fiber has to wait. -/
def lock (shared : Shared) (waiter : Waiter) : Shared × Bool :=
  if shared.owner = some waiter.fiber ∨ waiter ∈ shared.waiters then
    (shared.fail, true)
  else if shared.owner = none then
    ({ shared with owner := some waiter.fiber }, true)
  else
    ({ shared with
      waiters := shared.waiters ++ [waiter]
      arrived := shared.arrived ++ [waiter] }, false)

/-- `unlockIfNotUnique`; true if the mutex has been unlocked. -/
def unlockIfNotUnique (shared : Shared) (fiber : FiberId) : Shared × Bool :=
  if shared.owner = some fiber then
    if shared.waiters.isEmpty then (shared, false) else (shared.unlockNoLock fiber, true)
  else
    (shared.fail, false)

/-- The first part of `FiberCondition::wait`, up to the switch. -/
def wait (shared : Shared) (waiter : Waiter) : Shared :=
  if shared.owner = some waiter.fiber then
    { shared with condition := shared.condition ++ [waiter] }.unlockNoLock waiter.fiber
  else
    shared.fail

/-- A fiber that comes from the condition becomes the owner, or waits for the mutex. -/
def enter (shared : Shared) (next : Waiter) : Shared :=
  if shared.owner = some next.fiber ∨ next ∈ shared.waiters then
    shared.fail
  else if shared.owner = none then
    { shared with owner := some next.fiber, ready := shared.ready ++ [next] }
  else
    { shared with
      waiters := shared.waiters ++ [next]
      arrived := shared.arrived ++ [next] }

/-- The first section of `FiberCondition::signal`. -/
def signal (shared : Shared) : Option (Shared × Waiter) :=
  match shared.condition with
  | [] => none
  | next :: rest => some ({ shared with condition := rest }, next)

/-- `FiberCondition::broadcast`. -/
def broadcast (shared : Shared) : Shared :=
  { shared.condition.foldl enter shared with condition := [] }

/-- A scheduled fiber is resumed. -/
def resume (shared : Shared) (waiter : Waiter) : Shared :=
  { shared with ready := shared.ready.erase waiter }

section Condition

variable {shared : Shared} {fiber : FiberId} {waiter next : Waiter}

@[simp] theorem condition_unlockNoLock :
    (shared.unlockNoLock fiber).condition = shared.condition := by
  unfold unlockNoLock
  split
  · split <;> rfl
  · rfl

@[simp] theorem condition_lock : (shared.lock waiter).1.condition = shared.condition := by
  unfold lock
  split
  · rfl
  · split <;> rfl

@[simp] theorem condition_enter : (shared.enter next).condition = shared.condition := by
  unfold enter
  split
  · rfl
  · split <;> rfl

theorem condition_signal_none (none : shared.signal = none) : shared.condition = [] := by
  unfold signal at none
  split at none
  · assumption
  · cases none

/-- A signal takes the first waiter out. -/
theorem condition_signal_some {rest : Shared} (taken : shared.signal = some (rest, next)) :
    rest.condition = shared.condition.tail := by
  unfold signal at taken
  split at taken
  case h_1 => cases taken
  case h_2 waiting =>
    cases taken
    rw [waiting]
    rfl

/-- Only the fiber that waits comes to the condition. -/
theorem condition_wait (member : next ∈ (shared.wait waiter).condition) :
    next ∈ shared.condition ∨ next = waiter := by
  unfold wait at member
  split at member
  · rw [condition_unlockNoLock] at member
    exact (List.mem_append.mp member).imp_right List.mem_singleton.mp
  · exact .inl member

end Condition

end Shared

/-- Where a fiber is: in its own code, with the mutex or without; between the sections of
`signal`; before the switch in `YieldToHold`; or behind it. -/
inductive Point where
  | running (holds : Bool)
  | signalling (holds : Bool) (next : Waiter)
  | leaving
  | suspended
deriving DecidableEq, Repr

inductive Call where
  | lock (scheduler : Nat)
  | unlock
  | unlockIfNotUnique
  | wait (scheduler : Nat)
  | signal
  | broadcast
  | go
  | resume (scheduler : Nat)
deriving DecidableEq, Repr

/-- One step of a fiber; none if it has to wait. -/
def exec (fiber : FiberId) (shared : Shared) : Point → Call → Option (Shared × Point)
  | .running _, .lock scheduler =>
      let (locked, entered) := shared.lock ⟨scheduler, fiber⟩
      some (locked, if entered then .running true else .leaving)
  | .running _, .unlock => some (shared.unlockNoLock fiber, .running false)
  | .running holds, .unlockIfNotUnique =>
      let (unlocked, gone) := shared.unlockIfNotUnique fiber
      some (unlocked, .running (holds && !gone))
  | .running _, .wait scheduler => some (shared.wait ⟨scheduler, fiber⟩, .leaving)
  | .running holds, .signal =>
      match shared.signal with
      | none => some (shared, .running holds)
      | some (rest, next) => some (rest, .signalling holds next)
  | .signalling holds next, .go => some (shared.enter next, .running holds)
  | .running holds, .broadcast => some (shared.broadcast, .running holds)
  | .leaving, .go => some (shared, .suspended)
  | .suspended, .resume scheduler =>
      if ⟨scheduler, fiber⟩ ∈ shared.ready then
        some (shared.resume ⟨scheduler, fiber⟩, .running true)
      else
        none
  | _, _ => none

abbrev State := Config Shared Point

def step (state : State) (action : FiberId × Call) : Option State :=
  (exec action.1 state.shared (state.threads action.1) action.2).map fun next =>
    state.put action.1 next.1 next.2

def fresh : State where
  shared := ⟨none, [], [], [], [], [], false⟩
  threads := fun _ => .running false

/-- The documented preconditions: a fiber locks the mutex only if it does not have it, and
unlocks it and waits only if it does. -/
def Documented (state : State) (action : FiberId × Call) : Prop :=
  match action.2 with
  | .lock _ => state.threads action.1 = .running false
  | .unlock | .unlockIfNotUnique | .wait _ => state.threads action.1 = .running true
  | _ => True

end Xten.FiberMutex
