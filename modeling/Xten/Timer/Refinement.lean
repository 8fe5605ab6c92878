import Xten.Timer.Tracking

/-!
# A tick of the wheel is a tick of the alarm queue

`timerUpdate` runs the near slot of the current time, advances the time, moves a
slot down and runs the near slot again. The first run finds nothing, the shift
leaves exactly the timers with no time left in the near slot of the new time, and
the second run collects them. Over whole runs the wheel is therefore an alarm queue
which admits the delays that `Reaches` describes.
-/

namespace Xten.TimerWheelManager

open Xten.Std

variable {β : Type} {tracked : β → Prop} [DecidablePred tracked] {wheel : TimerWheelManager β}
  {now : Nat}

/-- What running the given timers of a slot does: they are collected, and the
recurring ones are armed again. -/
structure Executed (tracked : β → Prop) [DecidablePred tracked] (now : Nat)
    (before after : TimerWheelManager β × List β) (timers : List (TimerW β)) : Prop where
  tracking : Tracking tracked Waiting after.1
  time : after.1.time = before.1.time
  cancelled : after.1.cancelled = before.1.cancelled
  handles : after.1.handles = before.1.handles
  grown : before.1.allocated ≤ after.1.allocated
  tasks : (after.2 : Multiset β).filter tracked =
    (before.2 : Multiset β).filter tracked +
      (trackedTimers tracked timers).map TimerW.callback
  entries : entries tracked now after.1 =
    AlarmQueue.rearm Reaches now ((trackedTimers tracked timers).map alarmOf) +
      entries tracked now before.1

theorem Executed.trans {first second third : TimerWheelManager β × List β}
    {earlier later : List (TimerW β)} (head : Executed tracked now first second earlier)
    (tail : Executed tracked now second third later) :
    Executed tracked now first third (earlier ++ later) where
  tracking := tail.tracking
  time := tail.time.trans head.time
  cancelled := tail.cancelled.trans head.cancelled
  handles := tail.handles.trans head.handles
  grown := head.grown.trans tail.grown
  tasks := by
    rw [tail.tasks, head.tasks, ← Multiset.coe_add]
    simp only [trackedTimers_add, Multiset.map_add, add_assoc]
  entries := by
    rw [tail.entries, head.entries, ← Multiset.coe_add]
    simp only [trackedTimers_add, AlarmQueue.rearm, Multiset.filter_add, Multiset.map_add,
      Multiset.add_bind]
    abel

/-- One round of `timer_execute`. -/
theorem executeOne_executed (tasks : List β) {timer : TimerW β}
    (tracking : Tracking tracked Waiting wheel) (clock : wheel.time = BitVec.ofNat 32 now)
    (known : Known tracked wheel timer) :
    Executed tracked now (wheel, tasks) (executeOne (wheel, tasks) timer) [timer] := by
  have collected : ((tasks ++ [timer.callback] : List β) : Multiset β).filter tracked =
      (tasks : Multiset β).filter tracked +
        (trackedTimers tracked ([timer] : List (TimerW β))).map TimerW.callback := by
    by_cases isTracked : tracked timer.callback <;>
      simp [← Multiset.coe_add, Multiset.filter_singleton, isTracked]
  by_cases cancelled : wheel.cancelled timer.addr = true
  · have untracked : ¬ tracked timer.callback := fun isTracked => by
      rw [known.kept isTracked] at cancelled
      exact Bool.false_ne_true cancelled
    simp only [executeOne, cancelled, if_true]
    exact ⟨tracking, rfl, rfl, rfl, le_rfl, by simp [untracked], by simp [untracked]⟩
  by_cases recurs : timer.recurring = true
  · obtain ⟨again, armed⟩ :=
      tracking.make_addNode clock timer.subTime timer.callback true known.positive
    simp only [executeOne, cancelled, recurs, if_true, if_false, Bool.false_eq_true]
    refine ⟨again, rfl, rfl, rfl, Nat.le_succ _, collected, armed.trans ?_⟩
    by_cases isTracked : tracked timer.callback <;>
      simp [isTracked, AlarmQueue.rearm_singleton, alarmOf, recurs]
  · simp only [executeOne, cancelled, recurs, if_false, Bool.false_eq_true]
    refine ⟨tracking, rfl, rfl, rfl, le_rfl, collected, ?_⟩
    by_cases isTracked : tracked timer.callback <;>
      simp [isTracked, AlarmQueue.rearm_singleton, alarmOf, recurs]

/-- The loop of `timer_execute` over the nodes of a slot already emptied. -/
theorem foldl_executed {timers : List (TimerW β)} (tasks : List β)
    (tracking : Tracking tracked Waiting wheel) (clock : wheel.time = BitVec.ofNat 32 now)
    (known : ∀ timer ∈ timers, Known tracked wheel timer) :
    Executed tracked now (wheel, tasks) (timers.foldl executeOne (wheel, tasks)) timers := by
  induction timers generalizing wheel tasks with
  | nil => exact ⟨tracking, rfl, rfl, rfl, le_rfl, by simp, by simp⟩
  | cons timer timers ih =>
      have head := executeOne_executed tasks tracking clock (known timer List.mem_cons_self)
      have later : ∀ other ∈ timers, Known tracked (executeOne (wheel, tasks) timer).1 other :=
        fun other member => (known other (List.mem_cons_of_mem _ member)).of_grown
          head.grown head.cancelled head.handles
      exact head.trans (ih (executeOne (wheel, tasks) timer).2 head.tracking
        (head.time.trans clock) later)

omit [DecidablePred tracked] in
/-- The wheel as it stands when the second run of a tick begins on its slot. -/
theorem Tracking.clear_due (tracking : Tracking tracked Placed wheel) :
    Tracking tracked Waiting (wheel.clear (.near (nearIndex wheel.time))) where
  placed := by
    intro slot moves timer member
    by_cases same : slot = .near (nearIndex wheel.time)
    · subst same
      simp [clear] at member
    · simp only [clear, Function.update_of_ne same] at member
      have placed := tracking.placed slot moves timer member
      refine ⟨placed, Nat.pos_of_ne_zero fun none => ?_⟩
      have expired := expire_of_left_zero none
      cases slot with
      | near index => exact same (by rw [← placed.1, expired, clear_time])
      | t level index =>
          have low := placed.2.1
          have nothing : left wheel.time timer.expire = 0 := none
          omega
  known := by
    intro slot moves timer member
    by_cases same : slot = .near (nearIndex wheel.time)
    · subst same
      simp [clear] at member
    · simp only [clear, Function.update_of_ne same] at member
      exact (tracking.known slot moves timer member).of_grown le_rfl rfl rfl
  handles := tracking.handles
  flags := tracking.flags

omit [DecidablePred tracked] in
/-- The timers in the near slot of the current time have nothing left. -/
theorem Tracking.left_due (tracking : Tracking tracked Placed wheel) {timer : TimerW β}
    (member : timer ∈ wheel.slots (.near (nearIndex wheel.time))) :
    left wheel.time timer.expire = 0 := by
  obtain ⟨slot, near⟩ := tracking.placed _ (by simp [Slot.Dead]) timer member
  have expireBound := timer.expire.isLt
  have timeBound := wheel.time.isLt
  rw [Fin.ext_iff, nearIndex_val, nearIndex_val] at slot
  rw [left_eq] at near ⊢
  omega

/-- Timers with nothing left are the alarms due. -/
theorem due_pendingAt (now : Nat) {time : BitVec 32} {timers : Multiset (TimerW β)}
    (none : ∀ timer ∈ timers, left time timer.expire = 0) :
    AlarmQueue.due now (timers.map (pendingAt now time)) = timers.map alarmOf ∧
      AlarmQueue.rest now (timers.map (pendingAt now time)) = 0 := by
  have all : ∀ entry ∈ timers.map (pendingAt now time), entry.1 = now := by
    simpa [pendingAt] using none
  constructor
  · rw [AlarmQueue.due, Multiset.filter_eq_self.mpr all, Multiset.map_map]
    rfl
  · exact Multiset.filter_eq_nil.mpr fun entry member => not_not.mpr (all entry member)

/-- Timers with time left are not due. -/
theorem rest_pendingAt (now : Nat) {time : BitVec 32} {timers : Multiset (TimerW β)}
    (some : ∀ timer ∈ timers, 0 < left time timer.expire) :
    AlarmQueue.due now (timers.map (pendingAt now time)) = 0 ∧
      AlarmQueue.rest now (timers.map (pendingAt now time)) = timers.map (pendingAt now time) := by
  have all : ∀ entry ∈ timers.map (pendingAt now time), entry.1 ≠ now := by
    intro entry member
    obtain ⟨timer, inside, rfl⟩ := Multiset.mem_map.mp member
    have positive := some timer inside
    simp only [pendingAt]
    omega
  constructor
  · rw [AlarmQueue.due, Multiset.filter_eq_nil.mpr all, Multiset.map_zero]
  · exact Multiset.filter_eq_self.mpr all

/-- The entries of the wheel, split into those due now and the others. -/
theorem Tracking.split_due (now : Nat) (tracking : Tracking tracked Placed wheel) :
    AlarmQueue.due now (entries tracked now wheel) =
        (trackedTimers tracked (wheel.slots (.near (nearIndex wheel.time)))).map alarmOf ∧
      AlarmQueue.rest now (entries tracked now wheel) =
        entries tracked now (wheel.clear (.near (nearIndex wheel.time))) := by
  have moves : ¬ Slot.Dead (.near (nearIndex wheel.time)) := by simp [Slot.Dead]
  have parts := live_clear wheel moves
  have later : ∀ timer ∈ trackedTimers tracked (wheel.clear (.near (nearIndex wheel.time))).live,
      0 < left wheel.time timer.expire := by
    intro timer member
    obtain ⟨slot, live, member⟩ := mem_live.mp (mem_trackedTimers.mp member).1
    have placed := tracking.clear_due.placed slot live timer member
    rw [clear_time] at placed
    exact placed.2
  have expired : ∀ timer ∈ trackedTimers tracked (wheel.slots (.near (nearIndex wheel.time))),
      left wheel.time timer.expire = 0 := fun timer member =>
    tracking.left_due (Multiset.mem_coe.mp (mem_trackedTimers.mp member).1)
  have waiting := rest_pendingAt now later
  have due := due_pendingAt now expired
  rw [entries, ← parts, trackedTimers_add, Multiset.map_add, AlarmQueue.due_add,
    AlarmQueue.rest_add, waiting.1, waiting.2, due.1, due.2, zero_add, add_zero]
  exact ⟨rfl, rfl⟩

/-- One `timer_update` is one tick of the alarm queue. -/
theorem timerUpdate_tick (tracking : Tracking tracked Waiting wheel)
    (clock : wheel.time = BitVec.ofNat 32 now) :
    let done := wheel.timerUpdate
    Tracking tracked Waiting done.1 ∧ done.1.time = BitVec.ofNat 32 (now + 1) ∧
      done.1.handles = wheel.handles ∧
      entries tracked (now + 1) done.1 =
        AlarmQueue.afterTick Reaches (now + 1) (entries tracked now wheel) ∧
      (done.2 : Multiset β).filter tracked =
        (AlarmQueue.due (now + 1) (entries tracked now wheel)).map Alarm.label := by
  obtain ⟨placed, live, time, handles⟩ := tracking.timerShift
  have nextClock : wheel.timerShift.time = BitVec.ofNat 32 (now + 1) := by
    rw [time, clock]
    simp [BitVec.ofNat_add]
  have same : entries tracked (now + 1) wheel.timerShift = entries tracked now wheel := by
    rw [entries, entries, live, time]
    refine Multiset.map_congr rfl fun timer member => ?_
    have isLive : timer ∈ wheel.live := (mem_trackedTimers.mp member).1
    obtain ⟨slot, moves, inside⟩ := mem_live.mp isLive
    have waiting := (tracking.placed slot moves timer inside).2
    simp only [pendingAt, left_succ waiting]
    congr 1
    omega
  obtain ⟨due, rest⟩ := placed.split_due (now + 1)
  rw [same] at due rest
  have inSlot : ∀ timer ∈ wheel.timerShift.slots (.near (nearIndex wheel.timerShift.time)),
      Known tracked (wheel.timerShift.clear (.near (nearIndex wheel.timerShift.time))) timer :=
    fun timer member => (placed.known _ (by simp [Slot.Dead]) timer member).of_grown le_rfl rfl rfl
  have executed := foldl_executed [] placed.clear_due ((clear_time _).trans nextClock) inSlot
  have unfolded : wheel.timerUpdate = wheel.timerShift.timerExecute [] := by
    simp only [timerUpdate, timerExecute_idle tracking]
  simp only [unfolded]
  refine ⟨executed.tracking, executed.time.trans nextClock, executed.handles.trans handles, ?_, ?_⟩
  · rw [timerExecute, executed.entries, AlarmQueue.afterTick, rest, due, add_comm]
  · rw [timerExecute, executed.tasks, due, Multiset.map_map]
    simp [Function.comp_def, alarmOf]

end Xten.TimerWheelManager
