import Xten.Worker.Group

/-!
# The permits of a group

A permit is available, or it is with a task, with a call that has taken it or to which it has been
handed over, or with a `WaitAll` that has returned. A task that throws takes its permit along.
-/

namespace Xten.WorkerGroup

open Std.Interleaving
open FiberSemphore (FiberId)

variable {Task : Type}

/-- What a fiber can do in one step. -/
inductive Move (shared : Shared Task) (self : FiberId) :
    Action Task → Thread Task → Shared Task → Thread Task → Prop where
  | calls (work : Work Task) (request : Request Task) (free : work ≠ .posting) :
      Move shared self (.call request) ⟨work, .outside, .running⟩ shared
        ⟨work, request.begin, .running⟩
  | takes (work : Work Task) {call next : Call Task} (scheduler : Nat)
      (waited : call.waited shared.batchSize = some next)
      (available : 0 < shared.fiberSem.concurrency) :
      Move shared self (.wait scheduler) ⟨work, call, .running⟩
        { shared with fiberSem := shared.fiberSem.take } ⟨work, next, .running⟩
  | queues (work : Work Task) {call next : Call Task} (scheduler : Nat)
      (waited : call.waited shared.batchSize = some next)
      (none : ¬ 0 < shared.fiberSem.concurrency) :
      Move shared self (.wait scheduler) ⟨work, call, .running⟩
        { shared with fiberSem := { shared.fiberSem with
          waitQueue := shared.fiberSem.waitQueue ++ [⟨scheduler, self⟩]
          arrived := shared.fiberSem.arrived ++ [⟨scheduler, self⟩] } } ⟨work, call, .leaving⟩
  | leaves (work : Work Task) (call : Call Task) :
      Move shared self .leave ⟨work, call, .leaving⟩ shared ⟨work, call, .suspended⟩
  | resumes (work : Work Task) {call next : Call Task} (scheduler : Nat)
      (waited : call.waited shared.batchSize = some next)
      (ready : ⟨scheduler, self⟩ ∈ shared.fiberSem.ready) :
      Move shared self (.resume scheduler) ⟨work, call, .suspended⟩
        { shared with fiberSem := { shared.fiberSem with
          ready := shared.fiberSem.ready.erase ⟨scheduler, self⟩ } } ⟨work, next, .running⟩
  | goes (work : Work Task) {call now : Call Task} {next : Shared Task}
      (gone : shared.go call = some (next, now)) :
      Move shared self .go ⟨work, call, .running⟩ next ⟨work, now, .running⟩
  | starts (index : Nat) (cb : Task) (isTask : shared.queue[index]? = some cb) :
      Move shared self (.start index) ⟨.idle, .outside, .running⟩
        { shared with queue := shared.queue.eraseIdx index } ⟨.inside cb, .outside, .running⟩
  | throws (cb : Task) :
      Move shared self (.finish true) ⟨.inside cb, .outside, .running⟩
        { shared with thrown := shared.thrown + 1 } ⟨.idle, .outside, .running⟩
  | returns (cb : Task) :
      Move shared self (.finish false) ⟨.inside cb, .outside, .running⟩ shared
        ⟨.posting, .outside, .running⟩
  | posts :
      Move shared self .post ⟨.posting, .outside, .running⟩
        { shared with fiberSem := shared.fiberSem.post } ⟨.idle, .outside, .running⟩

section Moves

variable {state after : State Task} {shared next : Shared Task} {self : FiberId}
  {was now : Thread Task} {action : Action Task}

/-- Whatever a step does, it is one of the moves. -/
theorem Move.of_exec (taken : shared.exec self was action = some (next, now)) :
    Move shared self action was next now := by
  revert taken
  fun_cases Shared.exec shared self was action
  case case1 =>
    rintro ⟨⟩
    exact .posts
  case case2 cb =>
    rintro ⟨⟩
    exact .throws cb
  case case3 cb throws returns =>
    rintro ⟨⟩
    rw [Bool.eq_false_of_not_eq_true returns]
    exact .returns cb
  case case4 index =>
    intro taken
    obtain ⟨cb, isTask, moved⟩ := Option.map_eq_some_iff.mp taken
    cases moved
    exact .starts index cb isTask
  case case6 work request free =>
    rintro ⟨⟩
    exact .calls work request fun posting => free posting
  case case7 work call scheduler =>
    intro taken
    obtain ⟨next, waited, moved⟩ := Option.map_eq_some_iff.mp taken
    simp only [FiberSemphore.Shared.wait] at moved
    split at moved
    case isTrue available =>
      cases moved
      exact .takes work scheduler waited available
    case isFalse none =>
      cases moved
      exact .queues work scheduler waited none
  case case8 work call =>
    rintro ⟨⟩
    exact .leaves work call
  case case9 work call scheduler ready =>
    intro taken
    obtain ⟨next, waited, moved⟩ := Option.map_eq_some_iff.mp taken
    cases moved
    exact .resumes work scheduler waited ready
  case case11 work call =>
    intro taken
    obtain ⟨⟨next, now⟩, gone, moved⟩ := Option.map_eq_some_iff.mp taken
    cases moved
    exact .goes work gone
  all_goals nofun

theorem Move.of_step {action : FiberId × Action Task} (taken : step state action = some after) :
    ∃ next now, Move state.shared action.1 action.2 (state.threads action.1) next now ∧
      after = state.put action.1 next now := by
  obtain ⟨⟨next, now⟩, executed, rfl⟩ := Option.map_eq_some_iff.mp taken
  exact ⟨next, now, .of_exec executed, rfl⟩

/-- Outside of its waits and posts, a call leaves the semaphore alone. -/
theorem go_same {call now : Call Task} (gone : shared.go call = some (next, now)) :
    next.fiberSem = shared.fiberSem ∧ next.batchSize = shared.batchSize ∧
      next.thrown = shared.thrown := by
  revert gone
  fun_cases Shared.go shared call
  all_goals rintro ⟨⟩
  all_goals exact ⟨rfl, rfl, rfl⟩

end Moves

/-!
## The semaphore
-/

/-- `_fiberSem`, and the fibers in its functions. -/
def sem (state : State Task) : FiberSemphore.State :=
  state.view Shared.fiberSem Thread.point

section Semaphore

variable {state after : State Task} {next : Shared Task} {self : FiberId} {was now : Thread Task}
  {action : Action Task}

/-- A step of the group is one of its semaphore, or none. -/
theorem Move.sem (move : Move state.shared self action was next now) (isWas : state.threads self = was) :
    sem (state.put self next now) = sem state ∨
      ∃ call, FiberSemphore.step (sem state) (self, call) = some (sem (state.put self next now)) := by
  have same : next.fiberSem = state.shared.fiberSem → now.point = was.point →
      WorkerGroup.sem (state.put self next now) = WorkerGroup.sem state := by
    intro sameSem samePoint
    rw [WorkerGroup.sem, Config.view_put, samePoint, ← isWas, sameSem]
    exact Config.put_back rfl
  have acts : ∀ call, FiberSemphore.exec self state.shared.fiberSem was.point call =
      some (next.fiberSem, now.point) → FiberSemphore.step (WorkerGroup.sem state) (self, call) =
        some (WorkerGroup.sem (state.put self next now)) := by
    intro call executed
    rw [WorkerGroup.sem, WorkerGroup.sem, Config.view_put]
    subst isWas
    exact congrArg (Option.map _) executed
  cases move with
  | calls | starts | throws | returns => exact .inl (same rfl rfl)
  | goes work gone => exact .inl (same (go_same gone).1 rfl)
  | takes work scheduler waited available =>
      refine .inr ⟨.wait scheduler, acts _ ?_⟩
      simp only [FiberSemphore.exec, FiberSemphore.Shared.wait, if_pos available]
  | queues work scheduler waited none =>
      refine .inr ⟨.wait scheduler, acts _ ?_⟩
      simp only [FiberSemphore.exec, FiberSemphore.Shared.wait, if_neg none]
  | leaves => exact .inr ⟨.leave, acts _ rfl⟩
  | resumes work scheduler waited ready =>
      exact .inr ⟨.resume scheduler, acts _ (if_pos ready)⟩
  | posts => exact .inr ⟨.post, acts _ rfl⟩

end Semaphore

/-!
## The balance
-/

/-- The permit of a task. -/
def Work.permits : Work Task → Nat
  | .idle => 0
  | _ => 1

/-- The permits that a call has taken. -/
def Call.permits : Call Task → Nat
  | .scheduling _ => 1
  | .batch workcbs _ => workcbs.length
  | .collecting got => got
  | _ => 0

/-- The permits that no fiber has. -/
def Shared.permits (shared : Shared Task) : Nat :=
  shared.fiberSem.concurrency + shared.fiberSem.ready.length + shared.queue.length +
    shared.thrown + shared.kept

/-- The permits of the group, with `held` of them in tasks and `taken` in calls. -/
structure Balanced (state : State Task) (held taken : Nat) : Prop where
  works : state.Sums (fun thread => thread.work.permits) held
  calls : state.Sums (fun thread => thread.call.permits) taken
  whole : state.shared.permits + held + taken = state.shared.batchSize

def InBalance (state : State Task) : Prop :=
  ∃ held taken, Balanced state held taken

section Balance

variable {state after : State Task} {shared next : Shared Task} {self : FiberId}
  {was now : Thread Task} {action : Action Task}

/-- Permits go from hand to hand. -/
theorem InBalance.put (balance : InBalance state) (batchSize : next.batchSize = state.shared.batchSize)
    (moved : next.permits + now.work.permits + now.call.permits = state.shared.permits +
      (state.threads self).work.permits + (state.threads self).call.permits) :
    InBalance (state.put self next now) := by
  obtain ⟨held, taken, works, calls, whole⟩ := balance
  have held_le := works.le self
  have taken_le := calls.le self
  refine ⟨held + now.work.permits - (state.threads self).work.permits,
    taken + now.call.permits - (state.threads self).call.permits, works.put ?_, calls.put ?_, ?_⟩
  · omega
  · omega
  · rw [Config.put_shared, batchSize]
    omega

/-- A wait that has returned has brought one permit. -/
theorem Call.permits_waited {batchSize : Nat} {call next : Call Task}
    (waited : call.waited batchSize = some next) : next.permits = call.permits + 1 := by
  revert waited
  fun_cases Call.waited batchSize call
  all_goals rintro ⟨⟩
  all_goals simp [Call.permits]

theorem Request.permits_begin (request : Request Task) : request.begin.permits = 0 := by
  fun_cases Request.begin request
  all_goals rfl

/-- Outside of its waits, a call gives its permits to its tasks, or keeps them. -/
theorem go_permits {call now : Call Task} (gone : shared.go call = some (next, now)) :
    next.permits + now.permits = shared.permits + call.permits := by
  revert gone
  fun_cases Shared.go shared call
  all_goals rintro ⟨⟩
  all_goals simp [Shared.permits, Call.permits]
  all_goals omega

/-- A post gives one permit back. -/
theorem post_permits (sem : FiberSemphore.Shared) :
    sem.post.concurrency + sem.post.ready.length = sem.concurrency + sem.ready.length + 1 := by
  unfold FiberSemphore.Shared.post
  split
  · simp only [List.length_append, List.length_singleton]
    omega
  · simp only
    omega

/-- Whatever the fibers do, the permits stay in balance. -/
theorem Move.inBalance (move : Move state.shared self action was next now)
    (isWas : state.threads self = was) (balance : InBalance state) :
    InBalance (state.put self next now) := by
  cases move with
  | calls work request free =>
      refine balance.put rfl ?_
      rw [isWas, Request.permits_begin]
      rfl
  | takes work scheduler waited available =>
      refine balance.put rfl ?_
      rw [isWas, Call.permits_waited waited]
      simp only [Shared.permits, FiberSemphore.Shared.take]
      omega
  | queues work scheduler waited none =>
      refine balance.put rfl ?_
      rw [isWas]
      rfl
  | leaves work call =>
      refine balance.put rfl ?_
      rw [isWas]
  | resumes work scheduler waited ready =>
      have shorter := List.length_erase_of_mem ready
      have some := List.length_pos_of_mem ready
      refine balance.put rfl ?_
      rw [isWas, Call.permits_waited waited]
      simp only [Shared.permits, shorter]
      omega
  | goes work gone =>
      have moved := go_permits gone
      refine balance.put (go_same gone).2.1 ?_
      rw [isWas]
      simp only
      omega
  | starts index cb isTask =>
      obtain ⟨inside, -⟩ := List.getElem?_eq_some_iff.mp isTask
      refine balance.put rfl ?_
      rw [isWas]
      simp only [Shared.permits, List.length_eraseIdx_of_lt inside, Work.permits, Call.permits]
      omega
  | throws cb =>
      refine balance.put rfl ?_
      rw [isWas]
      simp only [Shared.permits, Work.permits, Call.permits]
      omega
  | returns cb =>
      refine balance.put rfl ?_
      rw [isWas]
      rfl
  | posts =>
      have posted := post_permits state.shared.fiberSem
      refine balance.put rfl ?_
      rw [isWas]
      simp only [Shared.permits, Work.permits, Call.permits]
      omega

end Balance

end Xten.WorkerGroup
