import Xten.Std.Interleaving

/-!
# The fiber semaphore

`FiberSemphore::wait`, `trywait` and `post`. A section under the spin lock is one step. A
fiber that has put itself into the queue leaves its thread in a step of its own, so a post
may find it before that; it goes on once it has left and has been scheduled.
-/

namespace Xten.FiberSemphore

open Std.Interleaving

abbrev FiberId := Nat

/-- An entry of `_waitQueue`. -/
structure Waiter where
  scheduler : Nat
  fiber : FiberId
deriving DecidableEq, Repr

/-- A `FiberSemphore`. `ready` are the fibers that have been scheduled and not yet resumed;
`arrived` and `scheduled` are the waiters so far, in order; `succeeded` are the waits and
trywaits that have got a permit. -/
structure Shared where
  concurrency : Nat
  waitQueue : List Waiter
  ready : List Waiter
  arrived : List Waiter
  scheduled : List Waiter
  succeeded : Nat
  posts : Nat

/-- Where a fiber is: its own code, before the switch in `YieldToHold`, or behind it. -/
inductive Point where
  | running
  | leaving
  | suspended
deriving DecidableEq, Repr

inductive Call where
  | wait (scheduler : Nat)
  | trywait
  | post
  | leave
  | resume (scheduler : Nat)
deriving DecidableEq, Repr

namespace Shared

/-- `_concurrency--`. -/
def take (shared : Shared) : Shared :=
  { shared with concurrency := shared.concurrency - 1, succeeded := shared.succeeded + 1 }

def wait (shared : Shared) (waiter : Waiter) : Shared × Point :=
  if 0 < shared.concurrency then
    (shared.take, .running)
  else
    ({ shared with
      waitQueue := shared.waitQueue ++ [waiter]
      arrived := shared.arrived ++ [waiter] }, .leaving)

def trywait (shared : Shared) : Shared × Point :=
  if 0 < shared.concurrency then (shared.take, .running) else (shared, .running)

def post (shared : Shared) : Shared :=
  match shared.waitQueue with
  | next :: rest =>
      { shared with
        waitQueue := rest
        ready := shared.ready ++ [next]
        scheduled := shared.scheduled ++ [next]
        succeeded := shared.succeeded + 1
        posts := shared.posts + 1 }
  | [] => { shared with concurrency := shared.concurrency + 1, posts := shared.posts + 1 }

def notifyAll (shared : Shared) : Shared :=
  { shared with
    waitQueue := []
    ready := shared.ready ++ shared.waitQueue
    scheduled := shared.scheduled ++ shared.waitQueue }

end Shared

/-- One step of a fiber; none if it has to wait. -/
def exec (fiber : FiberId) (shared : Shared) : Point → Call → Option (Shared × Point)
  | .running, .wait scheduler => some (shared.wait ⟨scheduler, fiber⟩)
  | .running, .trywait => some shared.trywait
  | .running, .post => some (shared.post, .running)
  | .leaving, .leave => some (shared, .suspended)
  | .suspended, .resume scheduler =>
      if ⟨scheduler, fiber⟩ ∈ shared.ready then
        some ({ shared with ready := shared.ready.erase ⟨scheduler, fiber⟩ }, .running)
      else
        none
  | _, _ => none

abbrev State := Config Shared Point

def step (state : State) (action : FiberId × Call) : Option State :=
  (exec action.1 state.shared (state.threads action.1) action.2).map fun next =>
    state.put action.1 next.1 next.2

/-- A semaphore with so many permits. -/
def fresh (concurrency : Nat) : State where
  shared := ⟨concurrency, [], [], [], [], 0, 0⟩
  threads := fun _ => .running

/-- Permits are neither lost nor made, and the waiters get them in order. -/
structure Conserved (initial : Nat) (state : State) : Prop where
  /-- Whoever waits does so because there is no permit. -/
  queued : state.shared.waitQueue ≠ [] → state.shared.concurrency = 0
  permits : state.shared.succeeded + state.shared.concurrency = initial + state.shared.posts
  /-- The waiters have been scheduled in the order of their arrival, up to those that still
  wait, each once. -/
  fifo : state.shared.arrived = state.shared.scheduled ++ state.shared.waitQueue
  once : ((state.shared.waitQueue ++ state.shared.ready).map Waiter.fiber).Nodup
  /-- A fiber in `wait` is in the queue or has been scheduled. -/
  waits : ∀ fiber, fiber ∈ (state.shared.waitQueue ++ state.shared.ready).map Waiter.fiber ↔
    state.threads fiber ≠ .running

section Steps

variable {initial : Nat} {state later : State} {fiber scheduler : Nat} {shared : Shared}
  {next : Point}

/-- A fiber stays in `wait` or outside of it. -/
theorem Conserved.put (conserved : Conserved initial state)
    (same : next = .running ↔ state.threads fiber = .running)
    (queued : shared.waitQueue ≠ [] → shared.concurrency = 0)
    (permits : shared.succeeded + shared.concurrency = initial + shared.posts)
    (fifo : shared.arrived = shared.scheduled ++ shared.waitQueue)
    (waiters : (shared.waitQueue ++ shared.ready).Perm
      (state.shared.waitQueue ++ state.shared.ready)) :
    Conserved initial (state.put fiber shared next) := by
  refine ⟨queued, permits, fifo, ?_, fun other => ?_⟩
  · exact (waiters.map Waiter.fiber).nodup_iff.mpr conserved.once
  · rw [Config.put_shared, (waiters.map Waiter.fiber).mem_iff, conserved.waits other]
    obtain ⟨isFiber, current⟩ | ⟨-, current⟩ := state.put_cases fiber shared next other
    all_goals rw [current]
    rw [isFiber]
    exact not_congr same.symm

theorem Conserved.take (conserved : Conserved initial state) (some : 0 < state.shared.concurrency)
    (running : state.threads fiber = .running) :
    Conserved initial (state.put fiber state.shared.take .running) := by
  have permits := conserved.permits
  refine conserved.put (by simp [running]) ?_ ?_ conserved.fifo (.refl _)
  · intro queued
    have none := conserved.queued queued
    omega
  · simp only [Shared.take]
    omega

theorem Conserved.wait (conserved : Conserved initial state)
    (running : state.threads fiber = .running) :
    Conserved initial (state.put fiber (state.shared.wait ⟨scheduler, fiber⟩).1
      (state.shared.wait ⟨scheduler, fiber⟩).2) := by
  unfold Shared.wait
  split
  case isTrue some => exact conserved.take some running
  case isFalse none =>
    have free := mt (conserved.waits fiber).mp (not_not.mpr running)
    have waiters : ((state.shared.waitQueue ++ [(⟨scheduler, fiber⟩ : Waiter)] ++
        state.shared.ready).map Waiter.fiber).Perm
          (fiber :: (state.shared.waitQueue ++ state.shared.ready).map Waiter.fiber) := by
      rw [List.append_assoc]
      exact List.perm_middle.map Waiter.fiber
    constructor
    · exact fun _ => Nat.eq_zero_of_not_pos none
    · exact conserved.permits
    · rw [Config.put_shared, conserved.fifo, List.append_assoc]
    · exact waiters.nodup_iff.mpr (List.nodup_cons.mpr ⟨free, conserved.once⟩)
    · intro other
      rw [Config.put_shared, waiters.mem_iff, List.mem_cons, conserved.waits other]
      obtain ⟨same, current⟩ | ⟨apart, current⟩ := state.put_cases fiber _ .leaving other
      all_goals rw [current]
      · simp [same]
      · exact or_iff_right apart

theorem Conserved.post (conserved : Conserved initial state)
    (running : state.threads fiber = .running) :
    Conserved initial (state.put fiber state.shared.post .running) := by
  have permits := conserved.permits
  have fifo := conserved.fifo
  have same : Point.running = .running ↔ state.threads fiber = .running := by simp [running]
  unfold Shared.post
  split
  case h_1 first rest queue =>
    have none : state.shared.concurrency = 0 := conserved.queued (by simp [queue])
    refine conserved.put same (fun _ => none) ?_ ?_ ?_
    · simp only
      omega
    · rw [fifo, queue, List.append_assoc]
      rfl
    · rw [queue, ← List.append_assoc]
      exact List.perm_append_comm
  case h_2 empty =>
    refine conserved.put same (fun some => absurd empty some) ?_ fifo (.refl _)
    simp only
    omega

/-- All waiters are scheduled, without a permit for them. -/
theorem Conserved.notifyAll (conserved : Conserved initial state)
    (same : next = .running ↔ state.threads fiber = .running) :
    Conserved initial (state.put fiber state.shared.notifyAll next) := by
  apply conserved.put same
  case queued => exact fun none => absurd rfl none
  case permits => exact conserved.permits
  case fifo => exact conserved.fifo.trans (List.append_nil _).symm
  case waiters =>
    show (state.shared.ready ++ state.shared.waitQueue).Perm _
    exact List.perm_append_comm

/-- A fiber that was scheduled goes on. -/
theorem Conserved.resume (conserved : Conserved initial state)
    (ready : ⟨scheduler, fiber⟩ ∈ state.shared.ready) :
    Conserved initial (state.put fiber
      { state.shared with ready := state.shared.ready.erase ⟨scheduler, fiber⟩ } .running) := by
  have waiters : ((state.shared.waitQueue ++ state.shared.ready).map Waiter.fiber).Perm
      (fiber :: (state.shared.waitQueue ++
        state.shared.ready.erase ⟨scheduler, fiber⟩).map Waiter.fiber) := by
    have moved := (List.perm_cons_erase ready).append_left state.shared.waitQueue
    exact (moved.trans List.perm_middle).map Waiter.fiber
  obtain ⟨free, nodup⟩ := List.nodup_cons.mp (waiters.nodup_iff.mp conserved.once)
  refine ⟨conserved.queued, conserved.permits, conserved.fifo, nodup, fun other => ?_⟩
  obtain ⟨same, current⟩ | ⟨apart, current⟩ := state.put_cases fiber _ .running other
  all_goals rw [current]
  · rw [same]
    exact iff_of_false free (not_not.mpr rfl)
  · rw [← conserved.waits other, waiters.mem_iff, List.mem_cons]
    exact (or_iff_right apart).symm

theorem Conserved.step {action : FiberId × Call} (conserved : Conserved initial state)
    (taken : step state action = some later) : Conserved initial later := by
  obtain ⟨fiber, call⟩ := action
  obtain ⟨next, executed, rfl⟩ := Option.map_eq_some_iff.mp taken
  change exec fiber state.shared (state.threads fiber) call = some next at executed
  generalize point : state.threads fiber = here at executed
  revert executed
  fun_cases exec fiber state.shared here call
  all_goals rintro ⟨⟩
  case case1 scheduler => exact conserved.wait point
  case case2 =>
    simp only [Shared.trywait]
    split
    case isTrue some => exact conserved.take some point
    case isFalse none =>
      exact conserved.put (by simp [point]) conserved.queued conserved.permits conserved.fifo
        (.refl _)
  case case3 => exact conserved.post point
  case case4 =>
    exact conserved.put (by simp [point]) conserved.queued conserved.permits conserved.fifo
      (.refl _)
  case case5 scheduler ready => exact conserved.resume ready

end Steps

/-- Whatever the fibers do with a semaphore, permits are conserved. -/
theorem conserves (initial : Nat) {state : State}
    (run : Runs step (fun _ _ => True) (fresh initial) state) : Conserved initial state := by
  refine run.invariant (fun _ _ _ conserved _ taken => conserved.step taken) ?_
  constructor <;> simp [fresh]

/-- A post finds a waiter that has not left its thread yet. -/
def handover : List (FiberId × Call) :=
  [(0, .wait 0), (1, .post), (0, .leave), (0, .resume 0), (1, .trywait)]

theorem conserves_handover : ∃ state,
    replay step (fun _ _ => true) handover (fresh 0) = some state ∧ Conserved 0 state := by
  obtain ⟨state, taken⟩ := Option.isSome_iff_exists.mp
    (show (replay step (fun _ _ => true) handover (fresh 0)).isSome by decide)
  exact ⟨state, taken, conserves 0 (Runs.of_replay (fun _ _ _ => trivial) taken)⟩

end Xten.FiberSemphore
