import Xten.Std.Holdings
import Xten.Fiber.Mutex

/-!
# Mutual exclusion

In every run in which fibers keep the documented preconditions, one fiber at most has the
mutex, every fiber that is blocked is in one place, and the waiters get the mutex in the
order in which they have come to it.
-/

namespace Xten.FiberMutex

open Std.Interleaving
open FiberSemphore (FiberId Waiter)

/-- The fiber is inside `lock` or `wait`, behind the section that has put it into a queue. -/
def Point.Blocked : Point → Prop
  | .leaving | .suspended => True
  | .running _ | .signalling _ _ => False

/-- The fiber has returned from `lock` or `wait` with the mutex. -/
def Point.Holds : Point → Prop
  | .running holds | .signalling holds _ => holds = true
  | .leaving | .suspended => False

/-- The fiber that is in transit inside `signal`. -/
def Point.hand : Point → List FiberId
  | .signalling _ next => [next.fiber]
  | .running _ | .leaving | .suspended => []

/-- The fibers in the waiters of the mutex, in those of the condition, and scheduled. -/
def Shared.queued (shared : Shared) : List FiberId :=
  (shared.waiters ++ shared.condition ++ shared.ready).map Waiter.fiber

/-- What `FiberMutex` and `FiberCondition` are for. -/
structure Correct (state : State) : Prop where
  /-- Every blocked fiber is in one place, and is there once. -/
  places : state.Places Shared.queued Point.hand fun fiber => (state.threads fiber).Blocked
  /-- The owner has the mutex, or has been scheduled to go on with it. -/
  owner : ∀ fiber, state.shared.owner = some fiber ↔
    (state.threads fiber).Holds ∨ fiber ∈ state.shared.ready.map Waiter.fiber
  /-- Nobody waits for a mutex without an owner. -/
  free : state.shared.owner = none → state.shared.waiters = []
  fifo : state.shared.arrived = state.shared.granted ++ state.shared.waiters
  asserted : state.shared.failed = false

section Queues

variable {shared : Shared} {fiber : FiberId} {next : Waiter}

theorem Shared.queued_unlockNoLock (owner : shared.owner = some fiber) :
    (shared.unlockNoLock fiber).queued.Perm shared.queued := by
  unfold Shared.unlockNoLock
  rw [if_pos owner]
  cases waiting : shared.waiters with
  | nil => simp only [Shared.queued, waiting, List.Perm.refl]
  | cons next rest =>
      simp only [Shared.queued, waiting]
      refine List.Perm.map _ ?_
      rw [← List.append_assoc]
      exact List.perm_append_singleton next _

theorem Shared.queued_enter (apart : shared.owner ≠ some next.fiber) (new : next ∉ shared.waiters) :
    (shared.enter next).queued.Perm (next.fiber :: shared.queued) := by
  unfold Shared.enter
  rw [if_neg (not_or.mpr ⟨apart, new⟩)]
  split
  · simp only [Shared.queued]
    rw [← List.map_cons, ← List.append_assoc]
    exact (List.perm_append_singleton next _).map _
  · simp only [Shared.queued]
    rw [← List.map_cons, List.append_assoc, List.append_assoc, List.append_assoc]
    exact List.perm_middle.map _

end Queues

section Steps

variable {state : State} {fiber other : FiberId} {shared : Shared} {point : Point} {next : Waiter}

theorem Correct.blocked (correct : Correct state) (queued : other ∈ state.shared.queued) :
    (state.threads other).Blocked :=
  (correct.places.complete other).mpr (.inl queued)

/-- A fiber that goes on is in no queue. -/
theorem Correct.not_queued (correct : Correct state) (free : ¬ (state.threads fiber).Blocked) :
    fiber ∉ state.shared.queued :=
  mt correct.blocked free

theorem Shared.ready_queued {waiter : Waiter} (member : waiter ∈ state.shared.ready) :
    waiter.fiber ∈ state.shared.queued :=
  List.mem_map_of_mem (List.mem_append_right _ member)

theorem Shared.waiters_queued {waiter : Waiter} (member : waiter ∈ state.shared.waiters) :
    waiter.fiber ∈ state.shared.queued :=
  List.mem_map_of_mem (List.mem_append_left _ (List.mem_append_left _ member))

/-- While a fiber goes on with the mutex, no other is scheduled to have it. -/
theorem Correct.ready_nil (correct : Correct state) (owner : state.shared.owner = some fiber)
    (free : ¬ (state.threads fiber).Blocked) : state.shared.ready = [] := by
  refine List.eq_nil_iff_forall_not_mem.mpr fun waiter member => ?_
  have owns := (correct.owner waiter.fiber).mpr (.inr (List.mem_map_of_mem member))
  rw [owner] at owns
  have same := Option.some.inj owns
  exact correct.not_queued free (same ▸ Shared.ready_queued member)

theorem Correct.ready_of_free (correct : Correct state) (free : state.shared.owner = none) :
    state.shared.ready = [] := by
  refine List.eq_nil_iff_forall_not_mem.mpr fun waiter member => ?_
  have owns := (correct.owner waiter.fiber).mpr (.inr (List.mem_map_of_mem member))
  rw [free] at owns
  cases owns

/-- One fiber at most goes on with the mutex. -/
theorem Correct.holder_unique (correct : Correct state) (first : (state.threads fiber).Holds)
    (second : (state.threads other).Holds) : fiber = other := by
  have one := (correct.owner fiber).mpr (.inl first)
  have two := (correct.owner other).mpr (.inl second)
  exact Option.some.inj (one.symm.trans two)

theorem Correct.condition_nodup (correct : Correct state) :
    (state.shared.condition.map Waiter.fiber).Nodup := by
  have distinct := (correct.places.distinct 0).of_append_left
  change ((state.shared.waiters ++ state.shared.condition ++
    state.shared.ready).map Waiter.fiber).Nodup at distinct
  rw [List.map_append, List.map_append] at distinct
  exact distinct.of_append_left.of_append_right

/-- A signal leaves nobody, where only one fiber ever waits for the condition. -/
theorem Correct.signal_only (correct : Correct state) {rest : Shared} {waiter : Waiter}
    (only : ∀ first ∈ state.shared.condition, ∀ second ∈ state.shared.condition,
      first.fiber = second.fiber)
    (taken : state.shared.signal = some (rest, waiter)) : rest.condition = [] := by
  have once := correct.condition_nodup
  unfold Shared.signal at taken
  split at taken
  case h_1 => cases taken
  case h_2 others waiting =>
    cases taken
    rw [waiting] at once only
    cases others with
    | nil => rfl
    | cons second others =>
        have same := only waiter List.mem_cons_self second
          (List.mem_cons_of_mem _ List.mem_cons_self)
        rw [List.map_cons, List.map_cons, same] at once
        simp at once

theorem Correct.owner_same (correct : Correct state) (owner : shared.owner = state.shared.owner)
    (ready : shared.ready = state.shared.ready)
    (holds : point.Holds ↔ (state.threads fiber).Holds) (other : FiberId) :
    shared.owner = some other ↔ ((state.put fiber shared point).threads other).Holds ∨
      other ∈ shared.ready.map Waiter.fiber := by
  rw [owner, ready, state.put_view Point.Holds (propext holds)]
  exact correct.owner other

theorem blocked_same (same : point.Blocked ↔ (state.threads fiber).Blocked) (other : FiberId) :
    ((state.put fiber shared point).threads other).Blocked ↔ (state.threads other).Blocked :=
  iff_of_eq (state.put_view Point.Blocked (propext same) other)

/-- A fiber with the mutex gives it to the next waiter, or leaves it free; it may have put
itself into the waiters of the condition. -/
theorem Correct.release {condition : List Waiter} {added : List FiberId} (correct : Correct state)
    (holding : state.threads fiber = .running true)
    (queued : Shared.queued { state.shared with condition := condition } |>.Perm
      (added ++ state.shared.queued)) (nodup : added.Nodup)
    (isAdded : ∀ other, other ∈ added ↔ other = fiber ∧ point.Blocked)
    (empty : point.hand = []) (released : ¬ point.Holds) :
    Correct (state.put fiber
      (Shared.unlockNoLock { state.shared with condition := condition } fiber) point) := by
  have running : ¬ (state.threads fiber).Blocked := by
    rw [holding]
    exact not_false
  have owner : state.shared.owner = some fiber :=
    (correct.owner fiber).mpr (.inl (by rw [holding]; rfl))
  have ready := correct.ready_nil owner running
  have others (shared : Shared) (other : FiberId) :
      ¬ ((state.put fiber shared point).threads other).Holds := by
    obtain ⟨-, current⟩ | ⟨apart, current⟩ := state.put_cases fiber shared point other
    all_goals rw [current]
    · exact released
    · intro holds
      have owns := (correct.owner other).mpr (.inl holds)
      exact apart (Option.some.inj (owns.symm.trans owner))
  have places (shared : Shared) (moved : shared.queued.Perm
      (Shared.queued { state.shared with condition := condition })) :
      (state.put fiber shared point).Places Shared.queued Point.hand
        fun other => ((state.put fiber shared point).threads other).Blocked := by
    refine @Config.Places.put _ _ _ _ _ _ _ _ _ _ _ added [] correct.places ?_ nodup ?_ ?_
    · intro other member
      rw [((isAdded other).mp member).1]
      exact running
    · rw [empty, holding]
      simp only [Point.hand, List.append_nil, List.nil_append]
      exact moved.trans queued
    · intro other
      obtain ⟨isFiber, current⟩ | ⟨apart, current⟩ := state.put_cases fiber shared point other
      all_goals rw [current, isAdded]
      · rw [isFiber]
        simp [running]
      · simp [apart]
  replace places := places _ (Shared.queued_unlockNoLock owner)
  unfold Shared.unlockNoLock at places ⊢
  rw [if_pos owner] at places ⊢
  cases waiting : state.shared.waiters with
  | nil =>
      simp only [waiting] at places ⊢
      refine ⟨places, fun other => ?_, fun _ => rfl, ?_, correct.asserted⟩
      · simp [others, ready]
      · exact correct.fifo.trans (congrArg _ waiting)
  | cons next rest =>
      simp only [waiting] at places ⊢
      refine ⟨places, fun other => ?_, nofun, ?_, correct.asserted⟩
      · simp [others, ready, eq_comm]
      · simp [correct.fifo, waiting]

theorem Correct.unlock (correct : Correct state) (holding : state.threads fiber = .running true) :
    Correct (state.put fiber (state.shared.unlockNoLock fiber) (.running false)) :=
  correct.release holding (.refl _) List.nodup_nil (fun _ => by simp [Point.Blocked]) rfl
    Bool.false_ne_true

theorem Correct.wait {scheduler : Nat} (correct : Correct state)
    (holding : state.threads fiber = .running true) :
    Correct (state.put fiber (state.shared.wait ⟨scheduler, fiber⟩) .leaving) := by
  have owner : state.shared.owner = some fiber :=
    (correct.owner fiber).mpr (.inl (by rw [holding]; rfl))
  rw [Shared.wait, if_pos owner]
  refine @Correct.release _ _ _ _ [fiber] correct holding ?_ (List.nodup_singleton _)
    (fun _ => ?_) rfl not_false
  · simp only [Shared.queued]
    refine @List.Perm.map _ _ Waiter.fiber _ (⟨scheduler, fiber⟩ :: _) ?_
    rw [← List.append_assoc, List.append_assoc]
    exact List.perm_middle
  · simp [Point.Blocked]

/-- A fiber stays outside of the queues, or inside, and with the mutex or without. -/
theorem Correct.keep (correct : Correct state)
    (blocked : point.Blocked ↔ (state.threads fiber).Blocked)
    (holds : point.Holds ↔ (state.threads fiber).Holds)
    (hand : point.hand = (state.threads fiber).hand) :
    Correct (state.put fiber state.shared point) := by
  refine ⟨correct.places.move ?_ (blocked_same blocked), correct.owner_same rfl rfl holds,
    correct.free, correct.fifo, correct.asserted⟩
  rw [hand]

theorem Correct.lock {scheduler : Nat} (correct : Correct state)
    (free : state.threads fiber = .running false) :
    Correct (state.put fiber (state.shared.lock ⟨scheduler, fiber⟩).1
      (if (state.shared.lock ⟨scheduler, fiber⟩).2 then .running true else .leaving)) := by
  have running : ¬ (state.threads fiber).Blocked := by
    rw [free]
    exact not_false
  have outside : ¬ (state.threads fiber).Holds := by
    rw [free]
    exact Bool.false_ne_true
  have apart : state.shared.owner ≠ some fiber := by
    intro owner
    obtain holds | ready := (correct.owner fiber).mp owner
    · exact outside holds
    · rw [correct.ready_nil owner running] at ready
      cases ready
  have new : (⟨scheduler, fiber⟩ : Waiter) ∉ state.shared.waiters :=
    fun member => correct.not_queued running (Shared.waiters_queued member)
  unfold Shared.lock
  rw [if_neg (not_or.mpr ⟨apart, new⟩)]
  by_cases unowned : state.shared.owner = none
  · rw [if_pos unowned]
    change Correct (state.put fiber { state.shared with owner := some fiber } (.running true))
    refine ⟨correct.places.move ?_ (blocked_same (iff_of_false not_false running)), ?_, nofun,
      correct.fifo, correct.asserted⟩
    · rw [free]
      exact .refl _
    · intro other
      have notOwner := (correct.owner other).mpr
      rw [unowned] at notOwner
      have ready := correct.ready_of_free unowned
      obtain ⟨rfl, current⟩ | ⟨apart', current⟩ := state.put_cases fiber
        { state.shared with owner := some fiber } (.running true) other
      all_goals rw [current, Config.put_shared, ready]
      · simp [Point.Holds]
      · simp only [Option.some.injEq, List.map_nil, List.not_mem_nil, or_false]
        exact iff_of_false (Ne.symm apart') fun holds => nomatch notOwner (.inl holds)
  · rw [if_neg unowned]
    have waits : (Shared.queued { state.shared with
        waiters := state.shared.waiters ++ [⟨scheduler, fiber⟩]
        arrived := state.shared.arrived ++ [⟨scheduler, fiber⟩] }).Perm
          ([fiber] ++ state.shared.queued) := by
      simp only [Shared.queued]
      refine @List.Perm.map _ _ Waiter.fiber _ (⟨scheduler, fiber⟩ :: _) ?_
      rw [List.append_assoc, List.append_assoc, List.append_assoc]
      exact List.perm_middle
    refine ⟨?_, correct.owner_same rfl rfl (iff_of_false not_false outside),
      fun none => absurd none unowned, ?_, correct.asserted⟩
    · refine @Config.Places.put _ _ _ _ _ _ _ _ _ _ _ [fiber] [] correct.places ?_
        (List.nodup_singleton _) ?_ fun other => ?_
      · intro other member
        rw [List.mem_singleton.mp member]
        exact running
      · rw [free]
        simpa [Point.hand] using waits
      · obtain ⟨isFiber, current⟩ | ⟨apart', current⟩ := state.put_cases fiber
          { state.shared with
            waiters := state.shared.waiters ++ [⟨scheduler, fiber⟩]
            arrived := state.shared.arrived ++ [⟨scheduler, fiber⟩] } .leaving other
        all_goals simp only [Bool.false_eq_true, if_false, current]
        · simp [Point.Blocked, isFiber]
        · simp [apart']
    · rw [Config.put_shared, correct.fifo, List.append_assoc]

/-- A waiter of the condition becomes the owner of the mutex, or waits for it. -/
theorem Correct.enter {condition : List Waiter} (correct : Correct state)
    (moved : (next.fiber ::
        (Shared.queued { state.shared with condition := condition } ++ point.hand)).Perm
      (state.shared.queued ++ (state.threads fiber).hand))
    (blocked : point.Blocked ↔ (state.threads fiber).Blocked)
    (holds : point.Holds ↔ (state.threads fiber).Holds) :
    Correct (state.put fiber
      (Shared.enter { state.shared with condition := condition } next) point) := by
  have isBlocked : (state.threads next.fiber).Blocked := by
    refine (correct.places.complete next.fiber).mpr ?_
    have member := List.mem_append.mp (moved.subset List.mem_cons_self)
    exact member.imp_right fun held => ⟨fiber, held⟩
  have notHolds : ¬ (state.threads next.fiber).Holds := by
    cases here : state.threads next.fiber <;> rw [here] at isBlocked <;>
      first | exact isBlocked.elim | exact not_false
  have once := moved.nodup_iff.mpr (correct.places.distinct fiber)
  have elsewhere : next.fiber ∉ Shared.queued { state.shared with condition := condition } :=
    fun member => (List.nodup_cons.mp once).1 (List.mem_append_left _ member)
  have apart : state.shared.owner ≠ some next.fiber := by
    intro owner
    refine elsewhere (List.map_subset _ (List.subset_append_right _ _) ?_)
    exact ((correct.owner next.fiber).mp owner).resolve_left notHolds
  have new : next ∉ state.shared.waiters := fun member =>
    elsewhere (List.mem_map_of_mem (List.mem_append_left _ (List.mem_append_left _ member)))
  have places (shared : Shared)
      (queued : shared.queued.Perm
        (next.fiber :: Shared.queued { state.shared with condition := condition })) :
      (state.put fiber shared point).Places Shared.queued Point.hand
        fun other => ((state.put fiber shared point).threads other).Blocked :=
    correct.places.move ((queued.append_right _).trans moved) (blocked_same blocked)
  replace places := places _ (@Shared.queued_enter { state.shared with condition := condition } _
    apart new)
  unfold Shared.enter at places ⊢
  rw [if_neg (not_or.mpr ⟨apart, new⟩)] at places ⊢
  by_cases unowned : state.shared.owner = none
  · rw [if_pos unowned] at places ⊢
    refine ⟨places, fun other => ?_, nofun, correct.fifo, correct.asserted⟩
    have notOwner := (correct.owner other).mpr
    rw [unowned] at notOwner
    rw [state.put_view Point.Holds (propext holds)]
    simp only [Config.put_shared, correct.ready_of_free unowned, List.nil_append, List.map_cons,
      List.map_nil, List.mem_singleton, Option.some.injEq]
    exact ⟨fun same => .inr same.symm, fun either => (either.resolve_left fun holds =>
      nomatch notOwner (.inl holds)).symm⟩
  · rw [if_neg unowned] at places ⊢
    refine ⟨places, correct.owner_same rfl rfl holds, fun none => absurd none unowned, ?_,
      correct.asserted⟩
    rw [Config.put_shared, correct.fifo, List.append_assoc]

/-- The waiter that a signal has taken out goes over to the mutex. -/
theorem Correct.hand_over {holds : Bool} (correct : Correct state)
    (signalling : state.threads fiber = .signalling holds next) :
    Correct (state.put fiber (state.shared.enter next) (.running holds)) := by
  refine correct.enter ?_ (by rw [signalling]; rfl) (by rw [signalling]; rfl)
  rw [signalling]
  simpa [Point.hand] using (List.perm_append_singleton next.fiber state.shared.queued).symm

theorem Correct.signal (correct : Correct state) {holds : Bool} {rest : Shared}
    (running : state.threads fiber = .running holds)
    (taken : state.shared.signal = some (rest, next)) :
    Correct (state.put fiber rest (.signalling holds next)) := by
  unfold Shared.signal at taken
  split at taken
  case h_1 => cases taken
  case h_2 first others waiting =>
    cases taken
    refine ⟨correct.places.move ?_ (blocked_same ?_), correct.owner_same rfl rfl ?_, correct.free,
      correct.fifo, correct.asserted⟩
    · rw [running]
      simp only [Point.hand, Shared.queued, waiting, List.append_nil]
      refine (List.perm_append_singleton _ _).trans ?_
      rw [← List.map_cons, List.append_assoc, List.append_assoc]
      exact List.perm_middle.symm.map Waiter.fiber
    · rw [running]
      exact Iff.rfl
    · rw [running]
      exact Iff.rfl

theorem Shared.enter_condition (condition : List Waiter) :
    Shared.enter { shared with condition := condition } next =
      { shared.enter next with condition := condition } := by
  unfold Shared.enter
  simp only
  split
  · rfl
  · split <;> rfl

/-- What the condition has left plays no part while its waiters are moved. -/
theorem Shared.foldl_enter_condition (waiters condition : List Waiter) :
    waiters.foldl enter { shared with condition := condition } =
      { waiters.foldl enter shared with condition := condition } := by
  induction waiters generalizing shared with
  | nil => rfl
  | cons next rest ih => rw [List.foldl_cons, List.foldl_cons, enter_condition, ih]

/-- The waiters of the condition go over to the mutex one by one. -/
theorem Correct.foldl_enter {waiters : List Waiter} (correct : Correct state)
    (waiting : state.shared.condition = waiters) :
    Correct (state.put fiber { waiters.foldl Shared.enter state.shared with condition := [] }
      (state.threads fiber)) := by
  induction waiters generalizing state with
  | nil =>
      rw [List.foldl_nil, ← waiting]
      exact correct.keep Iff.rfl Iff.rfl rfl
  | cons next rest ih =>
      have one : Correct (state.put fiber
          (Shared.enter { state.shared with condition := rest } next) (state.threads fiber)) := by
        refine correct.enter ?_ Iff.rfl Iff.rfl
        rw [← List.cons_append]
        refine List.Perm.append_right _ ?_
        simp only [Shared.queued, waiting]
        rw [← List.map_cons, List.append_assoc, List.append_assoc]
        exact List.perm_middle.symm.map Waiter.fiber
      rw [Shared.enter_condition] at one
      have all := ih one rfl
      rw [Config.put_put, Config.put_self, Config.put_shared, Shared.foldl_enter_condition] at all
      exact all

theorem Correct.resume {scheduler : Nat} (correct : Correct state)
    (suspended : state.threads fiber = .suspended)
    (ready : ⟨scheduler, fiber⟩ ∈ state.shared.ready) :
    Correct (state.put fiber (state.shared.resume ⟨scheduler, fiber⟩) (.running true)) := by
  have queued : state.shared.queued.Perm
      (fiber :: (state.shared.resume ⟨scheduler, fiber⟩).queued) := by
    simp only [Shared.queued, Shared.resume]
    have moved := (List.perm_cons_erase ready).append_left
      (state.shared.waiters ++ state.shared.condition)
    exact (moved.trans List.perm_middle).map Waiter.fiber
  have owner := (correct.owner fiber).mpr (.inr (List.mem_map_of_mem ready))
  have gone : fiber ∉ (state.shared.resume ⟨scheduler, fiber⟩).queued := by
    have nodup := queued.nodup_iff.mp (correct.places.distinct fiber).of_append_left
    exact (List.nodup_cons.mp nodup).1
  refine ⟨?_, fun other => ?_, correct.free, correct.fifo, correct.asserted⟩
  · refine @Config.Places.put _ _ _ _ _ _ _ _ _ _ _ [] [fiber] correct.places
      (fun _ member => absurd member List.not_mem_nil) List.nodup_nil ?_ fun other => ?_
    · rw [suspended]
      simpa [Point.hand] using queued.symm
    · obtain ⟨isFiber, current⟩ | ⟨apart, current⟩ := state.put_cases fiber
        (state.shared.resume ⟨scheduler, fiber⟩) (.running true) other
      all_goals rw [current]
      · simp [Point.Blocked, isFiber]
      · simp [apart]
  · have others : other ∉ (state.shared.resume ⟨scheduler, fiber⟩).ready.map Waiter.fiber := by
      intro member
      obtain ⟨waiter, still, rfl⟩ := List.mem_map.mp member
      have owns := (correct.owner waiter.fiber).mpr
        (.inr (List.mem_map_of_mem (List.mem_of_mem_erase still)))
      have there : waiter.fiber ∈ (state.shared.resume ⟨scheduler, fiber⟩).queued :=
        List.mem_map_of_mem (List.mem_append_right _ still)
      rw [Option.some.inj (owns.symm.trans owner)] at there
      exact gone there
    have before := correct.owner other
    rw [owner] at before
    simp only [Config.put_shared, others, or_false]
    obtain ⟨isFiber, current⟩ | ⟨apart, current⟩ := state.put_cases fiber
      (state.shared.resume ⟨scheduler, fiber⟩) (.running true) other
    all_goals rw [current]
    · exact iff_of_true (owner.trans (congrArg some isFiber.symm)) rfl
    · refine iff_of_false (fun owns => apart ?_) fun holds => apart ?_
      · exact (Option.some.inj (owner.symm.trans owns)).symm
      · exact (Option.some.inj (before.mpr (.inl holds))).symm

theorem Correct.step {action : FiberId × Call} {later : State} (correct : Correct state)
    (documented : Documented state action) (taken : step state action = some later) :
    Correct later := by
  obtain ⟨fiber, call⟩ := action
  obtain ⟨result, executed, rfl⟩ := Option.map_eq_some_iff.mp taken
  change exec fiber state.shared (state.threads fiber) call = some result at executed
  unfold Documented at documented
  clear taken
  generalize point : state.threads fiber = here at executed documented
  revert executed
  fun_cases exec fiber state.shared here call
  all_goals rintro ⟨⟩
  case case1 holds scheduler locked entered taken =>
    have lock := @Correct.lock _ _ scheduler correct (point.trans documented)
    rw [taken] at lock
    exact lock
  case case2 =>
    cases documented
    exact correct.unlock point
  case case3 holds unlocked gone taken =>
    cases documented
    have owner : state.shared.owner = some fiber :=
      (correct.owner fiber).mpr (.inl (by rw [point]; rfl))
    unfold Shared.unlockIfNotUnique at taken
    rw [if_pos owner] at taken
    split at taken
    all_goals cases taken
    · exact correct.keep (by rw [point]; rfl) (by rw [point]; rfl) (by rw [point]; rfl)
    · exact correct.unlock point
  case case4 =>
    cases documented
    exact correct.wait point
  case case5 => exact correct.keep (by rw [point]) (by rw [point]) (by rw [point])
  case case6 taken => exact correct.signal point taken
  case case7 => exact correct.hand_over point
  case case8 =>
    rw [← point]
    exact correct.foldl_enter rfl
  case case9 => exact correct.keep (by rw [point]; rfl) (by rw [point]; rfl) (by rw [point]; rfl)
  case case10 scheduler ready => exact correct.resume point ready

end Steps

/-- In every run in which fibers keep the documented preconditions, the mutex and the
condition are correct. -/
theorem mutex_correct {state : State} (run : Runs step Documented fresh state) : Correct state := by
  refine run.invariant (fun _ _ _ correct documented taken => correct.step documented taken) ?_
  refine ⟨.initial rfl (fun _ => rfl) fun _ => not_false, fun fiber => ?_, fun _ => rfl, rfl, rfl⟩
  exact iff_of_false nofun (by simp [fresh, Point.Holds])

/-- A fiber waits for the condition and is signalled by one that has the mutex by then. -/
def signalled : List (FiberId × Call) :=
  [(0, .lock 0), (0, .wait 0), (1, .lock 0), (1, .signal), (0, .go), (1, .go), (1, .unlock),
    (0, .resume 0)]

def documents (state : State) (action : FiberId × Call) : Bool :=
  match action.2 with
  | .lock _ => state.threads action.1 = .running false
  | .unlock | .unlockIfNotUnique | .wait _ => state.threads action.1 = .running true
  | _ => true

theorem documents_sound (state : State) (action : FiberId × Call)
    (passes : documents state action) : Documented state action := by
  obtain ⟨fiber, call⟩ := action
  cases call <;> first | trivial | simpa [documents, Documented] using passes

theorem mutex_correct_signalled : ∃ state, replay step documents signalled fresh = some state ∧
    state.shared.owner = some 0 ∧ Correct state := by
  obtain ⟨state, taken⟩ := Option.isSome_iff_exists.mp
    (show (replay step documents signalled fresh).isSome by decide)
  have owner : (replay step documents signalled fresh).map (fun state => state.shared.owner) =
    some (some 0) := by decide
  rw [taken] at owner
  exact ⟨state, taken, Option.some.inj owner, mutex_correct (.of_replay documents_sound taken)⟩

end Xten.FiberMutex
