import Mathlib.Algebra.BigOperators.Group.Finset.Basic
import Mathlib.Algebra.Order.BigOperators.Group.Multiset
import Xten.Std.AlarmQueue
import Xten.Timer.Placement

/-!
# Timers in the wheel, as pending alarms

`live` collects the timers the wheel still moves down; each of them is a pending
alarm due `left` ticks from now. `Tracking` is the invariant kept between ticks: a
live timer is where its remaining time says, and a timer whose callback is tracked
has not been cancelled. The lemmas here say what each step of the wheel does to
`Tracking` and to the pending alarms of the tracked callbacks.
-/

namespace Xten.TimerWheelManager

open Xten.Std

variable {β : Type}

/-- The slots that ticks move down, kept folded: there are hundreds of them. -/
@[irreducible] def liveSlots : Finset Slot :=
  Finset.univ.filter fun slot => ¬ slot.Dead

theorem mem_liveSlots {slot : Slot} : slot ∈ liveSlots ↔ ¬ slot.Dead := by
  unfold liveSlots
  simp

/-- The timers in the slots that ticks move down. -/
def live (wheel : TimerWheelManager β) : Multiset (TimerW β) :=
  ∑ slot ∈ liveSlots, (wheel.slots slot : Multiset (TimerW β))

theorem mem_live {wheel : TimerWheelManager β} {timer : TimerW β} :
    timer ∈ wheel.live ↔ ∃ slot, ¬ slot.Dead ∧ timer ∈ wheel.slots slot := by
  simp [live, Multiset.mem_sum, mem_liveSlots]

/-- A live slot's list is part of the live timers. -/
theorem live_split (wheel : TimerWheelManager β) {slot : Slot} (moves : ¬ slot.Dead) :
    wheel.live = (wheel.slots slot : Multiset (TimerW β)) +
      ∑ other ∈ liveSlots.erase slot, (wheel.slots other : Multiset (TimerW β)) := by
  rw [live, Finset.add_sum_erase _ (fun other => (wheel.slots other : Multiset (TimerW β)))]
  exact mem_liveSlots.mpr moves

theorem live_update (wheel changed : TimerWheelManager β) {slot : Slot} (moves : ¬ slot.Dead)
    (others : ∀ other, other ≠ slot → changed.slots other = wheel.slots other) :
    changed.live + (wheel.slots slot : Multiset (TimerW β)) =
      wheel.live + (changed.slots slot : Multiset (TimerW β)) := by
  rw [live_split changed moves, live_split wheel moves,
    Finset.sum_congr rfl fun other member => by rw [others other (Finset.ne_of_mem_erase member)]]
  abel

theorem live_pushBack (wheel : TimerWheelManager β) (slot : Slot) (timer : TimerW β) :
    (wheel.pushBack slot timer).live = if slot.Dead then wheel.live else timer ::ₘ wheel.live := by
  by_cases dead : slot.Dead
  · rw [if_pos dead]
    refine Finset.sum_congr rfl fun other member => ?_
    have apart : other ≠ slot := by
      rintro rfl
      exact mem_liveSlots.mp member dead
    simp [pushBack, Function.update_of_ne apart]
  · rw [if_neg dead]
    have pushed : ((wheel.pushBack slot timer).slots slot : Multiset (TimerW β)) =
        (wheel.slots slot : Multiset (TimerW β)) + {timer} := by
      simp [pushBack, ← Multiset.coe_add]
    have moved := live_update wheel (wheel.pushBack slot timer) dead
      fun other apart => by simp [pushBack, Function.update_of_ne apart]
    rw [pushed, ← add_assoc, add_right_comm] at moved
    rw [add_right_cancel moved, add_comm, Multiset.singleton_add]

theorem live_clear (wheel : TimerWheelManager β) {slot : Slot} (moves : ¬ slot.Dead) :
    (wheel.clear slot).live + (wheel.slots slot : Multiset (TimerW β)) = wheel.live := by
  have moved := live_update wheel (wheel.clear slot) moves
    fun other apart => by simp [clear, Function.update_of_ne apart]
  simpa [clear] using moved

/-- The lists of the slots after a list of timers has been added. -/
theorem foldl_addNode (timers : List (TimerW β)) (wheel : TimerWheelManager β) :
    timers.foldl addNode wheel =
      { wheel with slots := fun slot => wheel.slots slot ++
          timers.filter fun timer => slotFor wheel.time timer.expire = slot } := by
  induction timers generalizing wheel with
  | nil => simp
  | cons timer timers ih =>
      rw [List.foldl_cons, ih]
      simp only [addNode, pushBack]
      congr 1
      funext slot
      by_cases same : slotFor wheel.time timer.expire = slot
      · subst same
        simp only [Function.update_self, List.filter_cons, decide_true, if_true,
          List.append_assoc, List.singleton_append]
        rfl
      · simp only [Function.update_of_ne (Ne.symm same), List.filter_cons, same, decide_false,
          if_false, Bool.false_eq_true]
        rfl

theorem live_foldl_addNode {timers : List (TimerW β)} (wheel : TimerWheelManager β)
    (moves : ∀ timer ∈ timers, ¬ (slotFor wheel.time timer.expire).Dead) :
    (timers.foldl addNode wheel).live = wheel.live + (timers : Multiset (TimerW β)) := by
  induction timers generalizing wheel with
  | nil => simp
  | cons timer timers ih =>
      have head := moves timer List.mem_cons_self
      rw [List.foldl_cons, ih (wheel.addNode timer)
        fun other member => moves other (List.mem_cons_of_mem _ member)]
      simp [addNode, live_pushBack, head, ← Multiset.cons_coe]

/-- What is known of a timer object wherever the wheel keeps it: a tracked
callback's timer is not cancelled, and no handle of another callback shares its
flag. -/
structure Known (tracked : β → Prop) (wheel : TimerWheelManager β) (timer : TimerW β) : Prop where
  positive : 0 < timer.subTime.toNat
  allocated : timer.addr < wheel.allocated
  kept : tracked timer.callback → wheel.cancelled timer.addr = false
  handle : ∀ handle, some handle ∈ wheel.handles → handle.addr = timer.addr →
    handle.callback = timer.callback

/-- The invariant of a wheel whose tracked callbacks are never cancelled. `where_`
says where a timer may be kept; it changes in the course of a tick. -/
structure Tracking (tracked : β → Prop) (where_ : BitVec 32 → BitVec 32 → Slot → Prop)
    (wheel : TimerWheelManager β) : Prop where
  placed : ∀ slot, ¬ slot.Dead → ∀ timer ∈ wheel.slots slot,
    where_ wheel.time timer.expire slot
  known : ∀ slot, ¬ slot.Dead → ∀ timer ∈ wheel.slots slot, Known tracked wheel timer
  handles : ∀ handle, some handle ∈ wheel.handles → handle.addr < wheel.allocated
  flags : ∀ addr, wheel.cancelled addr = true → addr < wheel.allocated

/-- The alarm that a timer stands for. -/
def alarmOf (timer : TimerW β) : Alarm β :=
  ⟨timer.subTime.toNat, timer.recurring, timer.callback⟩

/-- A timer as a pending alarm, at the tick `now` whose time is `time`. -/
def pendingAt (now : Nat) (time : BitVec 32) (timer : TimerW β) : Nat × Alarm β :=
  (now + left time timer.expire, alarmOf timer)

/-- The timers of tracked callbacks. -/
def trackedTimers (tracked : β → Prop) [DecidablePred tracked] (timers : Multiset (TimerW β)) : Multiset (TimerW β) :=
  timers.filter fun timer => tracked timer.callback

@[simp] theorem trackedTimers_zero (tracked : β → Prop) [DecidablePred tracked] :
    trackedTimers tracked 0 = 0 := rfl

@[simp] theorem trackedTimers_singleton (tracked : β → Prop) [DecidablePred tracked]
    (timer : TimerW β) :
    trackedTimers tracked {timer} = if tracked timer.callback then {timer} else 0 := by
  by_cases isTracked : tracked timer.callback <;>
    simp [trackedTimers, Multiset.filter_singleton, isTracked]

theorem mem_trackedTimers {tracked : β → Prop} [DecidablePred tracked]
    {timers : Multiset (TimerW β)} {timer : TimerW β} :
    timer ∈ trackedTimers tracked timers ↔ timer ∈ timers ∧ tracked timer.callback :=
  Multiset.mem_filter

theorem trackedTimers_add (tracked : β → Prop) [DecidablePred tracked]
    (first second : Multiset (TimerW β)) :
    trackedTimers tracked (first + second) =
      trackedTimers tracked first + trackedTimers tracked second := by
  simp [trackedTimers]

/-- The live timers of tracked callbacks, as pending alarms at the tick `now`. -/
def entries (tracked : β → Prop) [DecidablePred tracked] (now : Nat)
    (wheel : TimerWheelManager β) : Multiset (Nat × Alarm β) :=
  (trackedTimers tracked wheel.live).map (pendingAt now wheel.time)

/-- A delay that the wheel serves when it is armed at a tick: the digit of the
due tick at the delay's level is not zero, unless the delay stays in the near
wheel or reaches the top level. -/
def Reaches (armed delay : Nat) : Prop :=
  (2 ^ 8 ≤ delay → delay < 2 ^ 14 → (armed + delay) / 2 ^ 8 % 64 ≠ 0) ∧
  (2 ^ 14 ≤ delay → delay < 2 ^ 20 → (armed + delay) / 2 ^ 14 % 64 ≠ 0) ∧
  (2 ^ 20 ≤ delay → delay < 2 ^ 26 → (armed + delay) / 2 ^ 20 % 64 ≠ 0)

instance : DecidableRel Reaches := fun _ _ =>
  inferInstanceAs (Decidable (_ ∧ _ ∧ _))

/-- `addNode` puts a timer into a dead slot exactly when its delay is not served. -/
theorem slotFor_dead_iff {now : Nat} {time : BitVec 32} (expire : BitVec 32)
    (clock : time = BitVec.ofNat 32 now) :
    (slotFor time expire).Dead ↔ ¬ Reaches now (left time expire) := by
  have bound := expire.isLt
  have sum : expire.toNat = (now + left time expire) % 2 ^ 32 := by
    rw [left_eq, clock, BitVec.toNat_ofNat]
    omega
  have delay : left time expire < 2 ^ 32 := (expire - time).isLt
  have digitZero : ∀ level, digit level expire = 0 ↔
      expire.toNat / 2 ^ levelShift level % 64 = 0 := by
    intro level
    rw [Fin.ext_iff, digit_val]
    rfl
  have zeroth := digitZero 0
  have first := digitZero 1
  have second := digitZero 2
  change _ ↔ expire.toNat / 256 % 64 = 0 at zeroth
  change _ ↔ expire.toNat / 16384 % 64 = 0 at first
  change _ ↔ expire.toNat / 1048576 % 64 = 0 at second
  rw [slotFor_eq]
  split_ifs with near low middle high <;>
    simp only [Slot.Dead, Reaches, zeroth, first, second, sum, ne_eq, Fin.reduceEq,
      not_false_eq_true, true_and, not_true_eq_false, false_and, false_iff, not_not] <;>
    omega

section AddNode

variable {tracked : β → Prop} {where_ : BitVec 32 → BitVec 32 → Slot → Prop} {wheel : TimerWheelManager β}
  {timer : TimerW β}

theorem Known.of_grown {wider : TimerWheelManager β} (known : Known tracked wheel timer)
    (grown : wheel.allocated ≤ wider.allocated) (flags : wider.cancelled = wheel.cancelled)
    (handles : wider.handles = wheel.handles) : Known tracked wider timer where
  positive := known.positive
  allocated := known.allocated.trans_le grown
  kept := by rw [flags]; exact known.kept
  handle := by rw [handles]; exact known.handle

theorem mem_pushBack {slot other : Slot} {pushed : TimerW β} :
    timer ∈ (wheel.pushBack slot pushed).slots other ↔
      timer ∈ wheel.slots other ∨ other = slot ∧ timer = pushed := by
  by_cases same : other = slot
  · subst same
    simp [pushBack]
  · simp [pushBack, same]

/-- Adding a known timer that may stay where `addNode` puts it keeps the invariant. -/
theorem Tracking.addNode (tracking : Tracking tracked where_ wheel)
    (known : Known tracked wheel timer)
    (fits : where_ wheel.time timer.expire (slotFor wheel.time timer.expire)) :
    Tracking tracked where_ (wheel.addNode timer) where
  placed := by
    intro slot moves other member
    rcases mem_pushBack.mp member with member | ⟨rfl, rfl⟩
    · exact tracking.placed slot moves other member
    · exact fits
  known := by
    intro slot moves other member
    rcases mem_pushBack.mp member with member | ⟨rfl, rfl⟩
    · exact (tracking.known slot moves other member).of_grown le_rfl rfl rfl
    · exact known.of_grown le_rfl rfl rfl
  handles := tracking.handles
  flags := tracking.flags

/-- A wheel that has allocated an object without storing it. -/
theorem Tracking.makeTimer (tracking : Tracking tracked where_ wheel)
    (expire sub : BitVec 32) (callback : β) (recurring : Bool) :
    Tracking tracked where_ (wheel.makeTimer expire sub callback recurring).2 where
  placed := tracking.placed
  known := fun slot moves other member =>
    (tracking.known slot moves other member).of_grown (Nat.le_succ _) rfl rfl
  handles := fun handle member => (tracking.handles handle member).trans (Nat.lt_succ_self _)
  flags := fun addr raised => (tracking.flags addr raised).trans (Nat.lt_succ_self _)

/-- A fresh object is known: nothing refers to its address. -/
theorem Tracking.makeTimer_known (tracking : Tracking tracked where_ wheel)
    (expire sub : BitVec 32) (callback : β) (recurring : Bool) (positive : 0 < sub.toNat) :
    Known tracked (wheel.makeTimer expire sub callback recurring).2
      (wheel.makeTimer expire sub callback recurring).1 where
  positive := positive
  allocated := Nat.lt_succ_self _
  kept := by
    intro _
    by_contra raised
    exact lt_irrefl _ (tracking.flags wheel.allocated (by simpa [TimerWheelManager.makeTimer] using raised))
  handle := by
    intro handle member same
    have old := tracking.handles handle member
    simp only [TimerWheelManager.makeTimer] at same
    omega

variable [DecidablePred tracked]

/-- The pending alarm of an added timer is the one armed now, if its callback is
tracked. -/
theorem entries_addNode {now : Nat} (wheel : TimerWheelManager β) (timer : TimerW β)
    (clock : wheel.time = BitVec.ofNat 32 now)
    (period : left wheel.time timer.expire = timer.subTime.toNat) :
    entries tracked now (wheel.addNode timer) =
      (if tracked timer.callback then AlarmQueue.arm Reaches now (alarmOf timer) else 0) +
        entries tracked now wheel := by
  have dead := slotFor_dead_iff timer.expire clock
  rw [period] at dead
  have time : (wheel.addNode timer).time = wheel.time := rfl
  simp only [entries, time]
  rw [TimerWheelManager.addNode, live_pushBack]
  by_cases served : Reaches now timer.subTime.toNat
  · rw [if_neg (mt dead.mp (not_not.mpr served))]
    by_cases isTracked : tracked timer.callback
    · have armed : AlarmQueue.arm Reaches now (alarmOf timer) = {pendingAt now wheel.time timer} := by
        rw [AlarmQueue.arm, if_pos (by exact served), pendingAt, period]
        rfl
      simp [trackedTimers, isTracked, armed]
    · simp [trackedTimers, isTracked]
  · rw [if_pos (dead.mpr served)]
    simp [AlarmQueue.arm, alarmOf, served]

/-- A timer made with a delay, added at once: it waits, and is armed for that delay. -/
theorem Tracking.make_addNode {now : Nat} (tracking : Tracking tracked Waiting wheel)
    (clock : wheel.time = BitVec.ofNat 32 now) (sub : BitVec 32) (callback : β)
    (recurring : Bool) (positive : 0 < sub.toNat) :
    let made := wheel.makeTimer (wheel.time + sub) sub callback recurring
    Tracking tracked Waiting (made.2.addNode made.1) ∧
      entries tracked now (made.2.addNode made.1) =
        (if tracked callback then
          AlarmQueue.arm Reaches now ⟨sub.toNat, recurring, callback⟩ else 0) +
          entries tracked now wheel := by
  intro made
  have period : left wheel.time (wheel.time + sub) = sub.toNat := by
    simp [left, add_sub_cancel_left]
  constructor
  · refine (tracking.makeTimer _ _ _ _).addNode (tracking.makeTimer_known _ _ _ _ positive) ?_
    exact ⟨placed_slotFor _ _, by simpa [made, TimerWheelManager.makeTimer, period] using positive⟩
  · exact entries_addNode made.2 made.1 clock period

end AddNode

section Shift

variable {tracked : β → Prop} {wheel : TimerWheelManager β}

@[simp] theorem clear_time (slot : Slot) : (wheel.clear slot).time = wheel.time := rfl

/-- The first run of a tick finds its slot empty. -/
theorem timerExecute_idle {tasks : List β} (tracking : Tracking tracked Waiting wheel) :
    wheel.timerExecute tasks = (wheel, tasks) := by
  have empty : wheel.slots (.near (nearIndex wheel.time)) = [] := by
    refine List.eq_nil_iff_forall_not_mem.mpr fun timer member => ?_
    obtain ⟨⟨slot, near⟩, waiting⟩ := tracking.placed _ (by simp [Slot.Dead]) timer member
    have expireBound := timer.expire.isLt
    have timeBound := wheel.time.isLt
    rw [Fin.ext_iff, nearIndex_val, nearIndex_val] at slot
    rw [left_eq] at near waiting
    omega
  have cleared : wheel.clear (.near (nearIndex wheel.time)) = wheel := by
    rw [clear, ← empty, Function.update_eq_self]
  simp only [timerExecute, empty, cleared, List.foldl_nil]

/-- The wheel whose time has advanced, before any slot is moved down. -/
theorem Tracking.advance (tracking : Tracking tracked Waiting wheel) :
    Tracking tracked Shifting { wheel with time := wheel.time + 1 } where
  placed := fun slot moves timer member => (tracking.placed slot moves timer member).succ
  known := fun slot moves timer member =>
    (tracking.known slot moves timer member).of_grown le_rfl rfl rfl
  handles := tracking.handles
  flags := tracking.flags

theorem moveList_slots (level : Fin 4) (index : Fin 64) (slot : Slot) :
    (wheel.moveList level index).slots slot =
      if slot = .t level index then []
      else wheel.slots slot ++ (wheel.slots (.t level index)).filter
        fun timer => slotFor wheel.time timer.expire = slot := by
  by_cases same : slot = .t level index
  · simp [moveList, clear, same]
  · rw [moveList, foldl_addNode]
    simp only [clear, Function.update_of_ne same, same, if_false]

theorem moveList_frame (wheel : TimerWheelManager β) (level : Fin 4) (index : Fin 64) :
    (wheel.moveList level index).time = wheel.time ∧
      (wheel.moveList level index).cancelled = wheel.cancelled ∧
      (wheel.moveList level index).allocated = wheel.allocated ∧
      (wheel.moveList level index).handles = wheel.handles := by
  rw [moveList, foldl_addNode]
  exact ⟨rfl, rfl, rfl, rfl⟩

/-- Moving down the slot that fires puts each of its timers where its remaining
time says, and loses none. -/
theorem Tracking.moveList {level : Fin 4} {index : Fin 64}
    (tracking : Tracking tracked Shifting wheel) (fires : Fires wheel.time level index) :
    Tracking tracked Placed (wheel.moveList level index) ∧
      (wheel.moveList level index).live = wheel.live := by
  obtain ⟨time, flags, allocated, handles⟩ := moveList_frame wheel level index
  have due : ∀ timer ∈ wheel.slots (.t level index),
      left wheel.time timer.expire = timer.expire.toNat % 2 ^ levelShift level := by
    intro timer member
    obtain ⟨same, low, high⟩ := tracking.placed _ fires.2.2 timer member
    exact (fires_iff_due fires.2.2 same low high).mp fires
  have known : ∀ slot, ¬ slot.Dead → ∀ timer ∈ (wheel.moveList level index).slots slot,
      (timer ∈ wheel.slots slot ∧ slot ≠ .t level index ∨
        slotFor wheel.time timer.expire = slot ∧ timer ∈ wheel.slots (.t level index)) := by
    intro slot _ timer member
    rw [moveList_slots] at member
    split_ifs at member with same
    · simp at member
    · rcases List.mem_append.mp member with member | member
      · exact .inl ⟨member, same⟩
      · simpa [and_comm] using (Or.inr member : _ ∨ _)
  constructor
  · refine ⟨?_, ?_, ?_, ?_⟩
    · intro slot moves timer member
      rw [time]
      rcases known slot moves timer member with ⟨member, other⟩ | ⟨same, _⟩
      · refine (tracking.placed slot moves timer member).placed moves ?_
        rintro level' index' rfl fires'
        obtain ⟨rfl, rfl⟩ := fires.unique fires'
        exact other rfl
      · rw [← same]
        exact placed_slotFor _ _
    · intro slot moves timer member
      rcases known slot moves timer member with ⟨member, _⟩ | ⟨_, member⟩
      · exact (tracking.known slot moves timer member).of_grown allocated.ge flags handles
      · exact (tracking.known _ fires.2.2 timer member).of_grown allocated.ge flags handles
    · intro handle member
      rw [handles] at member
      rw [allocated]
      exact tracking.handles handle member
    · intro addr raised
      rw [flags] at raised
      rw [allocated]
      exact tracking.flags addr raised
  · have lower := fun timer member => slotFor_lower index (due timer member)
    have added := live_foldl_addNode wheel fun timer member => (lower timer member).1
    have cleared := live_clear ((wheel.slots (.t level index)).foldl TimerWheelManager.addNode wheel)
      fires.2.2
    have unmoved : ((wheel.slots (.t level index)).foldl TimerWheelManager.addNode wheel).slots
        (.t level index) = wheel.slots (.t level index) := by
      rw [foldl_addNode]
      simp only [List.append_right_eq_self, List.filter_eq_nil_iff, decide_eq_true_eq]
      exact fun timer member => (lower timer member).2
    rw [added, unmoved] at cleared
    exact add_right_cancel cleared

/-- After the shift every live timer is placed, and the same timers are live. -/
theorem Tracking.timerShift (tracking : Tracking tracked Waiting wheel) :
    Tracking tracked Placed wheel.timerShift ∧ wheel.timerShift.live = wheel.live ∧
      wheel.timerShift.time = wheel.time + 1 ∧ wheel.timerShift.handles = wheel.handles := by
  rcases timerShift_cases wheel with ⟨level, index, fires, shifted⟩ | ⟨none, shifted⟩
  · obtain ⟨placed, same⟩ := tracking.advance.moveList fires
    obtain ⟨time, _, _, handles⟩ := moveList_frame
      { wheel with time := wheel.time + 1 } level index
    rw [shifted]
    exact ⟨placed, same, time, handles⟩
  · rw [shifted]
    refine ⟨⟨?_, tracking.advance.known, tracking.handles, tracking.flags⟩, rfl, rfl, rfl⟩
    intro slot moves timer member
    exact (tracking.advance.placed slot moves timer member).placed moves
      fun level index _ => none level index

end Shift

end Xten.TimerWheelManager
