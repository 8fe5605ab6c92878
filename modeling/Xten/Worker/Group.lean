import Xten.Std.Holdings
import Xten.Fiber.Semaphore

/-!
# A group of tasks

`WorkerGroup::Schedule` for one task and for several, `WaitAll` and `doWork`. The fibers that
call them are those of the user, or those that are within a task of the group. The scheduler is a
list of tasks, from which any task may be begun next; an exception that leaves a task ends its
fiber in `Fiber::MainFunc`.
-/

namespace Xten.WorkerGroup

open Std.Interleaving
open FiberSemphore (FiberId)

variable {Task : Type}

/-- Where a fiber is in a function of the group. -/
inductive Call (Task : Type) where
  | outside
  /-- In `Schedule` for one task, at `_fiberSem.wait()`. -/
  | single (cb : Task)
  /-- Behind it. -/
  | scheduling (cb : Task)
  /-- In `Schedule` for several tasks, at `_fiberSem.wait()` for the next of them or, when there
  is none, behind the loop. -/
  | batch (workcbs cbs : List Task)
  /-- In `WaitAll`, before `_isFinish` is tested. -/
  | testing
  /-- Before it is set. -/
  | marking
  /-- In the loop, after so many permits. -/
  | collecting (got : Nat)
deriving DecidableEq, Repr

/-- Where a fiber is in `doWork`. -/
inductive Work (Task : Type) where
  | idle
  | inside (cb : Task)
  | posting
deriving DecidableEq, Repr

structure Thread (Task : Type) where
  work : Work Task
  call : Call Task
  point : FiberSemphore.Point
deriving DecidableEq, Repr

/-- The group and its scheduler. `queue` are the tasks that have been scheduled and not begun,
`thrown` counts those that have thrown, and `kept` the permits of the calls of `WaitAll` that have
returned; `returned` says that there is one. -/
structure Shared (Task : Type) where
  batchSize : Nat
  isFinish : Bool
  fiberSem : FiberSemphore.Shared
  queue : List Task
  thrown : Nat
  kept : Nat
  returned : Bool

/-- A call of a function of the group. A null function for one task is `none`; among several it
is a task that throws. -/
inductive Request (Task : Type) where
  | schedule (cb : Option Task)
  | scheduleAll (cbs : List Task)
  | waitAll
deriving DecidableEq, Repr

inductive Action (Task : Type) where
  | call (request : Request Task)
  | wait (scheduler : Nat)
  | leave
  | resume (scheduler : Nat)
  | go
  | start (index : Nat)
  | finish (throws : Bool)
  | post
deriving DecidableEq, Repr

/-- What a function of the group does before its first wait or test. -/
def Request.begin : Request Task → Call Task
  | .schedule none => .outside
  | .schedule (some cb) => .single cb
  | .scheduleAll [] => .outside
  | .scheduleAll (cb :: cbs) => .batch [] (cb :: cbs)
  | .waitAll => .testing

/-- Where a call is when its wait has returned; none if it is not at a wait. -/
def Call.waited (batchSize : Nat) : Call Task → Option (Call Task)
  | .single cb => some (.scheduling cb)
  | .batch workcbs (cb :: cbs) => some (.batch (workcbs ++ [cb]) cbs)
  | .collecting got => if got < batchSize then some (.collecting (got + 1)) else none
  | _ => none

namespace Shared

variable (shared : Shared Task)

/-- One step of a call that is not a wait. -/
def go : Call Task → Option (Shared Task × Call Task)
  | .scheduling cb => some ({ shared with queue := shared.queue ++ [cb] }, .outside)
  | .batch workcbs [] => some ({ shared with queue := shared.queue ++ workcbs }, .outside)
  | .testing =>
      if shared.isFinish then some ({ shared with returned := true }, .outside)
      else some (shared, .marking)
  | .marking => some ({ shared with isFinish := true }, .collecting 0)
  | .collecting got =>
      if got < shared.batchSize then none
      else some ({ shared with kept := shared.kept + got, returned := true }, .outside)
  | _ => none

/-- One step of a fiber; none if it has to wait. -/
def exec (self : FiberId) : Thread Task → Action Task → Option (Shared Task × Thread Task)
  | ⟨.posting, .outside, .running⟩, .post =>
      some ({ shared with fiberSem := shared.fiberSem.post }, ⟨.idle, .outside, .running⟩)
  | ⟨.inside _, .outside, .running⟩, .finish throws =>
      if throws then
        some ({ shared with thrown := shared.thrown + 1 }, ⟨.idle, .outside, .running⟩)
      else
        some (shared, ⟨.posting, .outside, .running⟩)
  | ⟨.idle, .outside, .running⟩, .start index =>
      shared.queue[index]?.map fun cb =>
        ({ shared with queue := shared.queue.eraseIdx index }, ⟨.inside cb, .outside, .running⟩)
  | ⟨.posting, .outside, .running⟩, .call _ => none
  | ⟨work, .outside, .running⟩, .call request => some (shared, ⟨work, request.begin, .running⟩)
  | ⟨work, call, .running⟩, .wait scheduler =>
      (call.waited shared.batchSize).map fun next =>
        let waited := shared.fiberSem.wait ⟨scheduler, self⟩
        ({ shared with fiberSem := waited.1 },
          ⟨work, if waited.2 = .running then next else call, waited.2⟩)
  | ⟨work, call, .leaving⟩, .leave => some (shared, ⟨work, call, .suspended⟩)
  | ⟨work, call, .suspended⟩, .resume scheduler =>
      if ⟨scheduler, self⟩ ∈ shared.fiberSem.ready then
        (call.waited shared.batchSize).map fun next =>
          ({ shared with fiberSem := { shared.fiberSem with
            ready := shared.fiberSem.ready.erase ⟨scheduler, self⟩ } }, ⟨work, next, .running⟩)
      else
        none
  | ⟨work, call, .running⟩, .go =>
      (shared.go call).map fun next => (next.1, ⟨work, next.2, .running⟩)
  | _, _ => none

end Shared

abbrev State (Task : Type) := Config (Shared Task) (Thread Task)

def step (state : State Task) (action : FiberId × Action Task) : Option (State Task) :=
  (state.shared.exec action.1 (state.threads action.1) action.2).map fun next =>
    state.put action.1 next.1 next.2

theorem step_frame ⦃state : State Task⦄ ⦃action : FiberId × Action Task⦄ ⦃next : State Task⦄
    ⦃other : Nat⦄ (taken : step state action = some next) (apart : some action.1 ≠ some other) :
    next.threads other = state.threads other :=
  Config.map_put_other taken apart

/-- A new group. -/
def fresh (batchSize : Nat) : State Task where
  shared := {
    batchSize := batchSize
    isFinish := false
    fiberSem := (FiberSemphore.fresh batchSize).shared
    queue := []
    thrown := 0
    kept := 0
    returned := false }
  threads := fun _ => ⟨.idle, .outside, .running⟩

end Xten.WorkerGroup
