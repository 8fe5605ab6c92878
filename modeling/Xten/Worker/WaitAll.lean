import Xten.Worker.Balance

/-!
# What `WaitAll` waits for

As long as no task throws and there is one `WaitAll` at a time, all permits are accounted for by
tasks and calls, so that a `WaitAll` returns when every task has finished, and not before.
-/

namespace Xten.WorkerGroup

open Std.Interleaving
open FiberSemphore (FiberId)

variable {Task : Type}

/-- The call is one of `WaitAll`. -/
def Call.finishing : Call Task → Prop
  | .testing | .marking | .collecting _ => True
  | _ => False

/-- No task throws, and `WaitAll` is not called while another call of it is in progress. -/
def Calm (state : State Task) (action : FiberId × Action Task) : Prop :=
  action.2 ≠ .finish true ∧
    (action.2 = .call .waitAll → ∀ fiber, ¬ (state.threads fiber).call.finishing)

/-- Fibers that wait are at a wait of theirs, and the permits are in balance. -/
structure Accounted (state : State Task) : Prop where
  balance : InBalance state
  conserved : FiberSemphore.Conserved state.shared.batchSize (sem state)
  waits : ∀ fiber, (state.threads fiber).point ≠ .running →
    ((state.threads fiber).call.waited state.shared.batchSize).isSome

/-- What holds between any two calm steps. -/
structure Settled (state : State Task) : Prop extends Accounted state where
  noneThrown : state.shared.thrown = 0
  one : ∀ first second, (state.threads first).call.finishing →
    (state.threads second).call.finishing → first = second
  opened : state.shared.isFinish = false → state.shared.kept = 0
  marks : ∀ fiber, (state.threads fiber).call = .marking → state.shared.isFinish = false
  collects : ∀ fiber got, (state.threads fiber).call = .collecting got →
    state.shared.isFinish = true ∧ state.shared.kept = 0
  closed : state.shared.isFinish = true → state.shared.kept = state.shared.batchSize ∨
    ∃ fiber, ∃ got, (state.threads fiber).call = .collecting got
  returned : state.shared.returned = true → state.shared.kept = state.shared.batchSize

section Steps

variable {state after : State Task} {next : Shared Task} {self : FiberId} {was now : Thread Task}
  {action : Action Task}

theorem Accounted.initial (batchSize : Nat) : Accounted (fresh batchSize : State Task) where
  balance := ⟨0, 0, .zero fun _ => rfl, .zero fun _ => rfl, rfl⟩
  conserved := FiberSemphore.conserves batchSize (.refl _)
  waits := fun _ away => absurd rfl away

/-- The batch size stays what it was. -/
theorem Move.batchSize (move : Move state.shared self action was next now) :
    next.batchSize = state.shared.batchSize := by
  cases move with
  | goes work gone => exact (go_same gone).2.1
  | _ => rfl

/-- A step of a fiber keeps the account. -/
theorem Accounted.move (accounted : Accounted state) (move : Move state.shared self action was next now)
    (isWas : state.threads self = was) : Accounted (state.put self next now) where
  balance := move.inBalance isWas accounted.balance
  conserved := by
    rw [Config.put_shared, move.batchSize]
    obtain same | ⟨call, acted⟩ := move.sem isWas
    · rw [same]
      exact accounted.conserved
    · exact accounted.conserved.step acted
  waits := fun fiber away => by
    rw [Config.put_shared, move.batchSize]
    obtain ⟨-, current⟩ | ⟨-, current⟩ := state.put_cases self next now fiber
    all_goals rw [current] at away ⊢
    · cases move with
      | queues work scheduler waited none => exact Option.isSome_iff_exists.mpr ⟨_, waited⟩
      | leaves work call =>
          have waits := accounted.waits self (by rw [isWas]; exact nofun)
          rwa [isWas] at waits
      | _ => exact absurd rfl away
    · exact accounted.waits fiber away

theorem Accounted.of_runs {allowed : State Task → FiberId × Action Task → Prop} {batchSize : Nat}
    (run : Runs step allowed (fresh batchSize) state) : Accounted state := by
  refine run.invariant (fun state action after accounted _ taken => ?_) (.initial batchSize)
  obtain ⟨next, now, move, rfl⟩ := Move.of_step taken
  exact accounted.move move rfl

theorem Settled.initial (batchSize : Nat) : Settled (fresh batchSize : State Task) where
  toAccounted := .initial batchSize
  noneThrown := rfl
  one := fun _ _ finishing => absurd finishing id
  opened := fun _ => rfl
  marks := fun _ marking => by cases marking
  collects := fun _ _ collecting => by cases collecting
  closed := fun finished => absurd finished Bool.false_ne_true
  returned := fun returned => absurd returned Bool.false_ne_true

/-- A step that has nothing to do with `WaitAll`. -/
theorem Settled.apart (settled : Settled state) (accounted : Accounted (state.put self next now))
    (batchSize : next.batchSize = state.shared.batchSize) (kept : next.kept = state.shared.kept)
    (isFinish : next.isFinish = state.shared.isFinish)
    (returned : next.returned = state.shared.returned)
    (thrown : next.thrown = state.shared.thrown)
    (wasApart : ¬ (state.threads self).call.finishing) (nowApart : ¬ now.call.finishing) :
    Settled (state.put self next now) := by
  have before : ∀ fiber, ((state.put self next now).threads fiber).call.finishing →
      (state.put self next now).threads fiber = state.threads fiber := by
    intro fiber finishing
    obtain ⟨-, current⟩ | ⟨-, current⟩ := state.put_cases self next now fiber
    · rw [current] at finishing
      exact absurd finishing nowApart
    · exact current
  refine ⟨accounted, thrown.trans settled.noneThrown, ?_, ?_, ?_, ?_, ?_, ?_⟩
  · intro first second firstIn secondIn
    rw [before first firstIn] at firstIn
    rw [before second secondIn] at secondIn
    exact settled.one first second firstIn secondIn
  · rw [Config.put_shared, isFinish, kept]
    exact settled.opened
  · intro fiber marking
    rw [before fiber (by rw [marking]; trivial)] at marking
    rw [Config.put_shared, isFinish]
    exact settled.marks fiber marking
  · intro fiber got collecting
    rw [before fiber (by rw [collecting]; trivial)] at collecting
    rw [Config.put_shared, isFinish, kept]
    exact settled.collects fiber got collecting
  · rw [Config.put_shared, isFinish, kept, batchSize]
    intro finished
    refine (settled.closed finished).imp_right fun ⟨fiber, got, collecting⟩ => ⟨fiber, got, ?_⟩
    obtain ⟨rfl, -⟩ | ⟨-, current⟩ := state.put_cases self next now fiber
    · exact absurd (by rw [collecting]; trivial) wasApart
    · rw [current]
      exact collecting
  · rw [Config.put_shared, returned, kept, batchSize]
    exact settled.returned

/-- A step of the only fiber in `WaitAll`, or into it. -/
theorem Settled.alone (settled : Settled state) (accounted : Accounted (state.put self next now))
    (only : ∀ other ≠ self, ¬ (state.threads other).call.finishing)
    (thrown : next.thrown = state.shared.thrown)
    (opened : next.isFinish = false → next.kept = 0)
    (marks : now.call = .marking → next.isFinish = false)
    (collects : ∀ got, now.call = .collecting got → next.isFinish = true ∧ next.kept = 0)
    (closed : next.isFinish = true → next.kept = next.batchSize ∨
      ∃ got, now.call = .collecting got)
    (returned : next.returned = true → next.kept = next.batchSize) :
    Settled (state.put self next now) := by
  have itself : ∀ fiber, ((state.put self next now).threads fiber).call.finishing →
      fiber = self := by
    intro fiber finishing
    obtain ⟨same, -⟩ | ⟨apart, current⟩ := state.put_cases self next now fiber
    · exact same
    · rw [current] at finishing
      exact absurd finishing (only fiber apart)
  refine ⟨accounted, thrown.trans settled.noneThrown, ?_, opened, ?_, ?_, ?_, returned⟩
  · intro first second firstIn secondIn
    exact (itself first firstIn).trans (itself second secondIn).symm
  · intro fiber marking
    obtain rfl := itself fiber (by rw [marking]; trivial)
    rw [Config.put_self] at marking
    exact marks marking
  · intro fiber got collecting
    obtain rfl := itself fiber (by rw [collecting]; trivial)
    rw [Config.put_self] at collecting
    exact collects got collecting
  · intro finished
    refine (closed finished).imp_right fun ⟨got, collecting⟩ => ⟨self, got, ?_⟩
    rw [Config.put_self]
    exact collecting

/-- A wait takes place within one function of the group. -/
theorem Call.finishing_waited {batchSize : Nat} {call after : Call Task}
    (waited : call.waited batchSize = some after) :
    (call.finishing ↔ ∃ got, call = .collecting got) ∧
      (after.finishing ↔ call.finishing) ∧
      (call.finishing → ∃ got, after = .collecting got) := by
  revert waited
  fun_cases Call.waited batchSize call
  all_goals rintro ⟨⟩
  all_goals simp [Call.finishing]

/-- A step within a wait. -/
theorem Settled.within (settled : Settled state) (accounted : Accounted (state.put self next now))
    (isNext : ∃ sem, next = { state.shared with fiberSem := sem })
    (still : now.call.finishing ↔ (state.threads self).call.finishing)
    (collecting : (state.threads self).call.finishing →
      (∃ got, (state.threads self).call = .collecting got) ∧ ∃ got, now.call = .collecting got) :
    Settled (state.put self next now) := by
  obtain ⟨sem, rfl⟩ := isNext
  by_cases finishing : (state.threads self).call.finishing
  · obtain ⟨⟨got, was⟩, later, isNow⟩ := collecting finishing
    exact settled.alone accounted (fun other apart there => apart (settled.one other self there finishing))
      rfl settled.opened (fun marking => by rw [isNow] at marking; cases marking)
      (fun _ _ => settled.collects self got was) (fun _ => .inr ⟨later, isNow⟩) settled.returned
  · exact settled.apart accounted rfl rfl rfl rfl rfl finishing (mt still.mp finishing)

/-- A step of a call that is not a wait. -/
theorem Settled.goes (settled : Settled state) (accounted : Accounted (state.put self next now))
    {work : Work Task} {call later : Call Task}
    (isWas : state.threads self = ⟨work, call, .running⟩)
    (gone : state.shared.go call = some (next, later)) (isNow : now.call = later) :
    Settled (state.put self next now) := by
  have only : call.finishing → ∀ other ≠ self, ¬ (state.threads other).call.finishing :=
    fun finishing other apart there =>
      apart (settled.one other self there (by rw [isWas]; exact finishing))
  have same := go_same gone
  revert gone
  fun_cases Shared.go state.shared call
  case case1 cb =>
    rintro ⟨⟩
    exact settled.apart accounted rfl rfl rfl rfl rfl (by rw [isWas]; exact id) (by rw [isNow]; exact id)
  case case2 workcbs =>
    rintro ⟨⟩
    exact settled.apart accounted rfl rfl rfl rfl rfl (by rw [isWas]; exact id) (by rw [isNow]; exact id)
  case case3 finished =>
    rintro ⟨⟩
    have whole : state.shared.kept = state.shared.batchSize := by
      refine (settled.closed finished).resolve_right ?_
      rintro ⟨fiber, got, there⟩
      obtain rfl := settled.one fiber self (by rw [there]; trivial) (by rw [isWas]; trivial)
      rw [isWas] at there
      cases there
    exact settled.alone accounted (only trivial) rfl settled.opened
      (fun marking => by rw [isNow] at marking; cases marking)
      (fun got collecting => by rw [isNow] at collecting; cases collecting) (fun _ => .inl whole)
      (fun _ => whole)
  case case4 unfinished =>
    rintro ⟨⟩
    exact settled.alone accounted (only trivial) rfl settled.opened
      (fun _ => Bool.eq_false_of_not_eq_true unfinished)
      (fun got collecting => by rw [isNow] at collecting; cases collecting)
      (fun finished => absurd finished unfinished) settled.returned
  case case5 =>
    rintro ⟨⟩
    have none := settled.opened (settled.marks self (by rw [isWas]))
    exact settled.alone accounted (only trivial) rfl (by rintro ⟨⟩)
      (fun marking => by rw [isNow] at marking; cases marking) (fun _ _ => ⟨rfl, none⟩)
      (fun _ => .inr ⟨0, isNow⟩) settled.returned
  case case7 got short =>
    rintro ⟨⟩
    obtain ⟨finished, none⟩ := settled.collects self got (by rw [isWas])
    obtain ⟨held, taken, -, -, whole⟩ := accounted.balance
    have all : state.shared.kept + got = state.shared.batchSize := by
      simp only [Config.put_shared, Shared.permits] at whole
      omega
    exact settled.alone accounted (only trivial) rfl
      (fun unfinished => absurd (finished.symm.trans unfinished) Bool.noConfusion)
      (fun marking => by rw [isNow] at marking; cases marking)
      (fun got collecting => by rw [isNow] at collecting; cases collecting) (fun _ => .inl all)
      (fun _ => all)
  all_goals rintro ⟨⟩

/-- A calm step keeps it all. -/
theorem Settled.move (settled : Settled state)
    (move : Move state.shared self action was next now) (isWas : state.threads self = was)
    (calm : Calm state (self, action)) : Settled (state.put self next now) := by
  have accounted := settled.toAccounted.move move isWas
  cases move with
  | calls work request free =>
      cases request with
      | waitAll =>
          exact settled.alone accounted (fun other _ => calm.2 rfl other) rfl settled.opened nofun nofun
            (fun finished => .inl ((settled.closed finished).resolve_right fun ⟨fiber, got, there⟩ =>
              calm.2 rfl fiber (by rw [there]; trivial))) settled.returned
      | schedule cb =>
          refine settled.apart accounted rfl rfl rfl rfl rfl (by rw [isWas]; exact id) ?_
          cases cb <;> exact id
      | scheduleAll cbs =>
          refine settled.apart accounted rfl rfl rfl rfl rfl (by rw [isWas]; exact id) ?_
          cases cbs <;> exact id
  | takes work scheduler waited available =>
      obtain ⟨is, still, later⟩ := Call.finishing_waited waited
      exact settled.within accounted ⟨_, rfl⟩ (by rw [isWas]; exact still) fun finishing => by
        rw [isWas] at finishing ⊢
        exact ⟨is.mp finishing, later finishing⟩
  | resumes work scheduler waited ready =>
      obtain ⟨is, still, later⟩ := Call.finishing_waited waited
      exact settled.within accounted ⟨_, rfl⟩ (by rw [isWas]; exact still) fun finishing => by
        rw [isWas] at finishing ⊢
        exact ⟨is.mp finishing, later finishing⟩
  | queues work scheduler waited none =>
      obtain ⟨is, -⟩ := Call.finishing_waited waited
      exact settled.within accounted ⟨_, rfl⟩ (by rw [isWas]) fun finishing => by
        rw [isWas] at finishing ⊢
        exact ⟨is.mp finishing, is.mp finishing⟩
  | leaves work call =>
      obtain ⟨later, waited⟩ := Option.isSome_iff_exists.mp
        (settled.waits self (by rw [isWas]; exact nofun))
      rw [isWas] at waited
      obtain ⟨is, -⟩ := Call.finishing_waited waited
      exact settled.within accounted ⟨_, rfl⟩ (by rw [isWas]) fun finishing => by
        rw [isWas] at finishing ⊢
        exact ⟨is.mp finishing, is.mp finishing⟩
  | goes work gone => exact settled.goes accounted isWas gone rfl
  | starts index cb isTask | returns cb | posts =>
      exact settled.apart accounted rfl rfl rfl rfl rfl (by rw [isWas]; exact id) id
  | throws cb => exact absurd rfl calm.1

theorem Settled.of_runs {batchSize : Nat} (run : Runs step Calm (fresh batchSize) state) :
    Settled state := by
  refine run.invariant (fun state action after settled calm taken => ?_) (.initial batchSize)
  obtain ⟨next, now, move, rfl⟩ := Move.of_step taken
  exact settled.move move rfl calm

end Steps

/-!
## The return of `WaitAll`
-/

/-- The fiber gets out of its call by steps of its own. -/
def Returns (state : State Task) (fiber : FiberId) : Prop :=
  ∃ actions after, (∀ action ∈ actions, Prod.fst action = fiber) ∧
    replay step (fun _ _ => true) actions state = some after ∧
    (after.threads fiber).call = .outside

section Returning

variable {state middle : State Task} {next : Shared Task} {fiber : FiberId} {work : Work Task}
  {call now : Call Task} {got : Nat}

theorem step_go (isThread : state.threads fiber = ⟨work, call, .running⟩)
    (gone : state.shared.go call = some (next, now)) :
    step state (fiber, .go) = some (state.put fiber next ⟨work, now, .running⟩) := by
  have executed : state.shared.exec fiber ⟨work, call, .running⟩ .go =
      some (next, ⟨work, now, .running⟩) := by
    cases work <;> cases call <;> simp [Shared.exec, gone]
  rw [step, isThread, executed]
  rfl

theorem step_wait (isThread : state.threads fiber = ⟨work, call, .running⟩)
    (waited : call.waited state.shared.batchSize = some now)
    (available : 0 < state.shared.fiberSem.concurrency) :
    step state (fiber, .wait 0) = some (state.put fiber
      { state.shared with fiberSem := state.shared.fiberSem.take } ⟨work, now, .running⟩) := by
  have executed : state.shared.exec fiber ⟨work, call, .running⟩ (.wait 0) =
      some ({ state.shared with fiberSem := state.shared.fiberSem.take },
        ⟨work, now, .running⟩) := by
    cases work <;> cases call <;>
      simp [Shared.exec, waited, FiberSemphore.Shared.wait, available]
  rw [step, isThread, executed]
  rfl

theorem step_leave (isThread : state.threads fiber = ⟨work, call, .leaving⟩) :
    step state (fiber, .leave) =
      some (state.put fiber state.shared ⟨work, call, .suspended⟩) := by
  rw [step, isThread]
  cases work <;> cases call <;> rfl

theorem step_resume {scheduler : Nat} (isThread : state.threads fiber = ⟨work, call, .suspended⟩)
    (waited : call.waited state.shared.batchSize = some now)
    (ready : ⟨scheduler, fiber⟩ ∈ state.shared.fiberSem.ready) :
    step state (fiber, .resume scheduler) = some (state.put fiber
      { state.shared with fiberSem := { state.shared.fiberSem with
        ready := state.shared.fiberSem.ready.erase ⟨scheduler, fiber⟩ } }
      ⟨work, now, .running⟩) := by
  have executed : state.shared.exec fiber ⟨work, call, .suspended⟩ (.resume scheduler) =
      some ({ state.shared with fiberSem := { state.shared.fiberSem with
        ready := state.shared.fiberSem.ready.erase ⟨scheduler, fiber⟩ } },
        ⟨work, now, .running⟩) := by
    cases work <;> cases call <;> simp [Shared.exec, waited, ready]
  rw [step, isThread, executed]
  rfl

theorem Returns.cons {action : Action Task} (next : step state (fiber, action) = some middle)
    (returns : Returns middle fiber) : Returns state fiber := by
  obtain ⟨actions, after, own, taken, outside⟩ := returns
  refine ⟨(fiber, action) :: actions, after, ?_, ?_, outside⟩
  · exact List.forall_mem_cons.mpr ⟨rfl, own⟩
  · rw [replay, if_pos rfl, next]
    exact taken

/-- A `WaitAll` that lacks no more permits than there are gets them one after the other. -/
theorem Returns.collecting (count : Nat)
    (isThread : state.threads fiber = ⟨work, .collecting got, .running⟩)
    (available : state.shared.fiberSem.concurrency = count)
    (whole : count + got = state.shared.batchSize) : Returns state fiber := by
  induction count generalizing state got with
  | zero =>
      have all : ¬ got < state.shared.batchSize := by omega
      have last := step_go isThread (if_neg all)
      exact .cons last ⟨[], _, nofun, rfl, by rw [Config.put_self]⟩
  | succ count ih =>
      have some : 0 < state.shared.fiberSem.concurrency := available ▸ Nat.succ_pos count
      have short : got < state.shared.batchSize := by omega
      refine .cons (step_wait isThread (if_pos short) some) (ih (Config.put_self ..) ?_ ?_)
      · simp only [Config.put_shared, FiberSemphore.Shared.take]
        omega
      · simp only [Config.put_shared]
        omega

/-- The fiber has been scheduled, and the permit that it has got is the last but those that are
available. -/
theorem Returns.resumed {scheduler : Nat} (isThread : state.threads fiber =
      ⟨work, .collecting got, .suspended⟩)
    (ready : ⟨scheduler, fiber⟩ ∈ state.shared.fiberSem.ready)
    (whole : state.shared.fiberSem.concurrency + 1 + got = state.shared.batchSize) :
    Returns state fiber := by
  have short : got < state.shared.batchSize := by omega
  refine .cons (step_resume isThread (if_pos short) ready)
    (.collecting state.shared.fiberSem.concurrency (Config.put_self ..) rfl ?_)
  simp only [Config.put_shared]
  omega

/-- No call but this one has a permit, or has been handed one. -/
def Alone (state : State Task) (fiber : FiberId) : Prop :=
  ∀ other ≠ fiber, (state.threads other).call.permits = 0 ∧
    other ∉ state.shared.fiberSem.ready.map FiberSemphore.Waiter.fiber

/-- All tasks have been finished. -/
def Finished (state : State Task) : Prop :=
  state.shared.queue = [] ∧ ∀ fiber, (state.threads fiber).work = .idle

/-- A fiber that has been handed a permit while no other has is the only one that is ready. -/
theorem Alone.ready (alone : Alone state fiber) {batchSize : Nat}
    (conserved : FiberSemphore.Conserved batchSize (sem state)) :
    state.shared.fiberSem.ready = [] ∨
      ∃ scheduler, state.shared.fiberSem.ready = [⟨scheduler, fiber⟩] := by
  have own : ∀ waiter ∈ state.shared.fiberSem.ready, waiter.fiber = fiber := by
    intro waiter member
    by_contra apart
    exact (alone waiter.fiber apart).2 (List.mem_map_of_mem member)
  have once := conserved.once
  rw [List.map_append] at once
  have nodup : (state.shared.fiberSem.ready.map FiberSemphore.Waiter.fiber).Nodup :=
    once.of_append_right
  match ready : state.shared.fiberSem.ready with
  | [] => exact .inl rfl
  | [⟨scheduler, other⟩] =>
      obtain rfl : other = fiber := own ⟨scheduler, other⟩ (ready ▸ List.mem_cons_self)
      exact .inr ⟨scheduler, rfl⟩
  | one :: other :: rest =>
      rw [ready] at nodup own
      have same : one.fiber = other.fiber := (own one (by simp)).trans (own other (by simp)).symm
      simp [same] at nodup

/-- A `WaitAll` returns once all tasks have been finished. -/
theorem Settled.returns (settled : Settled state) (finished : Finished state)
    (isCall : (state.threads fiber).call = .collecting got) (alone : Alone state fiber) :
    Returns state fiber := by
  obtain ⟨held, taken, works, calls, whole⟩ := settled.balance
  have noneHeld : held = 0 := works.eq_zero fun other => by
    rw [finished.2 other]
    rfl
  have own : taken = got := by
    obtain ⟨others, out, -, sum⟩ := calls.split fiber
    rw [Finset.sum_eq_zero fun other member =>
      (alone other fun same => out (same ▸ member)).1, isCall] at sum
    exact sum
  obtain ⟨-, noneKept⟩ := settled.collects fiber got isCall
  have noneThrown := settled.noneThrown
  have waits := settled.waits fiber
  have isWaiter := settled.conserved.waits fiber
  have queued : state.shared.fiberSem.waitQueue ≠ [] → state.shared.fiberSem.concurrency = 0 :=
    settled.conserved.queued
  simp only [Shared.permits, finished.1, List.length_nil] at whole
  change fiber ∈ (state.shared.fiberSem.waitQueue ++ state.shared.fiberSem.ready).map _ ↔
    (state.threads fiber).point ≠ .running at isWaiter
  have ready := alone.ready settled.conserved
  generalize isThread : state.threads fiber = thread at isCall waits isWaiter
  obtain ⟨work, call, point⟩ := thread
  subst isCall
  by_cases running : point = .running
  · subst running
    obtain none | ⟨scheduler, one⟩ := ready
    · rw [none, List.length_nil] at whole
      exact .collecting state.shared.fiberSem.concurrency isThread rfl (by omega)
    · exact absurd rfl (isWaiter.mp (by simp [one]))
  · have short : got < state.shared.batchSize := by
      by_contra all
      simpa [Call.waited, all] using waits running
    obtain none | ⟨scheduler, one⟩ := ready
    · -- A waiter that has not been scheduled is in the queue, so that all permits are its own.
      have member := isWaiter.mpr running
      rw [none, List.append_nil] at member
      have empty := queued fun nobody => by simp [nobody] at member
      rw [none, List.length_nil] at whole
      omega
    · have isReady : ⟨scheduler, fiber⟩ ∈ state.shared.fiberSem.ready := one ▸ List.mem_cons_self
      rw [one, List.length_singleton] at whole
      cases point with
      | running => exact absurd rfl running
      | leaving =>
          refine .cons (step_leave isThread) (.resumed (Config.put_self ..) isReady ?_)
          simp only [Config.put_shared]
          omega
      | suspended => exact .resumed isThread isReady (by omega)

end Returning

/-- What the group promises. -/
structure Promised (state : State Task) : Prop where
  balance : ∃ held taken, state.Sums (fun thread => thread.work.permits) held ∧
    state.Sums (fun thread => thread.call.permits) taken ∧
    state.shared.fiberSem.concurrency + (state.shared.queue.length + held) +
      (taken + state.shared.fiberSem.ready.length + state.shared.kept) = state.shared.batchSize
  few : ∀ fibers : Finset FiberId, (∀ fiber ∈ fibers, (state.threads fiber).work ≠ .idle) →
    fibers.card ≤ state.shared.batchSize
  done : state.shared.returned = true → Finished state
  returns : ∀ fiber got, (state.threads fiber).call = .collecting got → Finished state →
    Alone state fiber → Returns state fiber

section Promises

variable {state : State Task}

theorem Work.permits_pos {work : Work Task} (busy : work ≠ .idle) : 0 < work.permits := by
  cases work with
  | idle => exact absurd rfl busy
  | _ => exact Nat.one_pos

/-- The permits of the group are accounted for, no more tasks run at once than its batch size, and
a `WaitAll` returns if and only if all tasks have been finished. -/
theorem keeps_promises {batchSize : Nat} (run : Runs step Calm (fresh batchSize) state) :
    Promised state := by
  have settled := Settled.of_runs run
  have noneThrown := settled.noneThrown
  obtain ⟨held, taken, works, calls, whole⟩ := settled.balance
  unfold Shared.permits at whole
  constructor
  · exact ⟨held, taken, works, calls, by omega⟩
  · intro fibers busy
    have some := works.card_le fibers fun fiber member => Work.permits_pos (busy fiber member)
    omega
  · intro returned
    have all := settled.returned returned
    refine ⟨List.eq_nil_of_length_eq_zero (by omega), fun fiber => ?_⟩
    have none := works.le fiber
    by_contra busy
    have some := Work.permits_pos busy
    omega
  · exact fun fiber got isCall finished alone => settled.returns finished isCall alone

end Promises

/-!
## A task that returns, and a task that throws
-/

/-- Whether an action neither throws nor calls `WaitAll`. -/
def Action.plain : Action Task → Bool
  | .finish throws => !throws
  | .call .waitAll => false
  | _ => true

theorem Action.calm (state : State Task) (action : FiberId × Action Task)
    (plain : action.2.plain = true) : Calm state action := by
  obtain ⟨fiber, action⟩ := action
  refine ⟨?_, ?_⟩
  · rintro rfl
    exact Bool.false_ne_true plain
  · rintro rfl
    exact absurd plain Bool.false_ne_true

/-- A task is scheduled, and returns. -/
def taskRun : List (FiberId × Action Unit) :=
  [(0, .call (.schedule (some ()))), (0, .wait 0), (0, .go), (1, .start 0), (1, .finish false),
    (1, .post)]

/-- `WaitAll`, which has been called, returns. -/
def waitRun : List (FiberId × Action Unit) :=
  [(0, .go), (0, .go), (0, .wait 0), (0, .go)]

def taskState : State Unit :=
  (replay step (fun _ action => action.2.plain) taskRun (fresh 1)).get (by decide)

def calledState : State Unit :=
  (step taskState (0, .call .waitAll)).get (by decide)

def waitState : State Unit :=
  (replay step (fun _ action => action.2.plain) waitRun calledState).get (by decide)

theorem waitState_reached : Runs step Calm (fresh 1) waitState := by
  have first : replay step (fun _ action => action.2.plain) taskRun (fresh 1) = some taskState :=
    (Option.some_get _).symm
  have last : replay step (fun _ action => action.2.plain) waitRun calledState = some waitState :=
    (Option.some_get _).symm
  have idle : ∀ fiber, taskState.threads fiber = ⟨.idle, .outside, .running⟩ :=
    replay_forall (motive := fun thread : Thread Unit => thread = ⟨.idle, .outside, .running⟩)
      step_frame 2 first (by decide) (by decide) fun _ _ => rfl
  have outside : ∀ fiber, ¬ (taskState.threads fiber).call.finishing := fun fiber => by
    rw [idle fiber]
    exact id
  have called : Runs step Calm taskState calledState :=
    (Runs.refl _).tail ⟨fun same => (by cases same), fun _ => outside⟩ (Option.some_get (by decide)).symm
  exact ((Runs.of_replay Action.calm first).trans called).trans (Runs.of_replay Action.calm last)

theorem keeps_promises_wait : waitState.shared.returned = true ∧ Promised waitState :=
  ⟨by decide, keeps_promises waitState_reached⟩

/-- A task is scheduled, and throws. -/
def throwRun : List (FiberId × Action Unit) :=
  [(0, .call (.schedule (some ()))), (0, .wait 0), (0, .go), (1, .start 0), (1, .finish true)]

def throwState : State Unit :=
  (replay step (fun _ _ => true) throwRun (fresh 1)).get (by decide)

/-- All tasks have been finished and no call is in progress, but there is no permit any more. -/
theorem throw_takes_permit : ∃ state : State Unit,
    Runs step (fun _ _ => True) (fresh 1) state ∧ Finished state ∧
      (∀ fiber, (state.threads fiber).call = .outside) ∧ ¬ Promised state := by
  have taken : replay step (fun _ _ => true) throwRun (fresh 1) = some throwState :=
    (Option.some_get _).symm
  have idle : ∀ fiber, throwState.threads fiber = ⟨.idle, .outside, .running⟩ :=
    replay_forall (motive := fun thread : Thread Unit => thread = ⟨.idle, .outside, .running⟩)
      step_frame 2 taken (by decide) (by decide) fun _ _ => rfl
  refine ⟨throwState, .of_replay (fun _ _ _ => trivial) taken, ⟨by decide, fun fiber => ?_⟩,
    fun fiber => ?_, fun promised => ?_⟩
  · rw [idle]
  · rw [idle]
  · obtain ⟨held, taken, works, calls, whole⟩ := promised.balance
    have noneHeld : held = 0 := works.eq_zero fun fiber => by
      rw [idle]
      rfl
    have noneTaken : taken = 0 := calls.eq_zero fun fiber => by
      rw [idle]
      rfl
    rw [noneHeld, noneTaken] at whole
    exact absurd whole (by decide)

end Xten.WorkerGroup
