import Xten.Timer.Refinement

/-!
# When the wheel collects its timers

A run of the wheel is compared with the due ticks of the timers added in it. Ticks
are counted without wrapping from the starting value of `_time`, so that the tick
`n` is the one during which `_time` becomes `n` modulo `2 ^ 32`. A callback none of
whose timers is cancelled is collected exactly at the due ticks of its timers if
and only if each of them, every time it is armed, is armed with a delay that the
wheel serves from there.
-/

namespace Xten.TimerWheelManager

open Xten.Std

variable {β : Type}

/-- The delay in ticks of a timer that `AddTimer` keeps; none if it runs the
callback at once. -/
def delay? (timeMs : BitVec 32) : Option Nat :=
  if (timeMs.sdiv 10).sle 0 then none else some (timeMs.sdiv 10).toNat

/-- An operation as seen by the callbacks of interest. -/
def alarmOp? (tracked : β → Prop) [DecidablePred tracked] : Op β → Option (AlarmOp β)
  | .addTimer timeMs func recurring =>
      if tracked func then (delay? timeMs).map fun ticks => .set ⟨ticks, recurring, func⟩ else none
  | .cancel _ => none
  | .refresh _ => none
  | .timerUpdate => some .tick

/-- No handle of a tracked callback is cancelled or refreshed. `made` lists the
callbacks of the calls of `AddTimer` so far. -/
def Untouched (tracked : β → Prop) (made : List β) : List (Op β) → Prop
  | [] => True
  | .addTimer _ func _ :: ops => Untouched tracked (made ++ [func]) ops
  | .cancel handle :: ops =>
      (∀ func, made[handle]? = some func → ¬ tracked func) ∧ Untouched tracked made ops
  | .refresh handle :: ops =>
      (∀ func, made[handle]? = some func → ¬ tracked func) ∧ Untouched tracked made ops
  | .timerUpdate :: ops => Untouched tracked made ops

/-- The handles returned so far belong to the callbacks they were made for. -/
def HandlesOf (made : List β) (wheel : TimerWheelManager β) : Prop :=
  wheel.handles.length = made.length ∧
    ∀ (index : Nat) (handle : TimerW β), wheel.handles[index]? = some (some handle) →
      made[index]? = some handle.callback

section Steps

variable {tracked : β → Prop} {wheel : TimerWheelManager β} {timeMs : BitVec 32} {func : β}
  {recurring : Bool}

/-- A delay of at least one tick is a positive period. -/
theorem delay?_positive {ticks : Nat} (kept : delay? timeMs = some ticks) : 0 < ticks := by
  unfold delay? at kept
  split at kept
  · simp at kept
  · rename_i notLe
    have ticksEq : (timeMs.sdiv 10).toNat = ticks := by simpa using kept
    rw [← ticksEq]
    refine Nat.pos_of_ne_zero fun zero => notLe ?_
    have noTicks : timeMs.sdiv 10 = 0#32 := BitVec.eq_of_toNat_eq zero
    rw [noTicks]
    decide

/-- A new handle may be recorded once its object is known. -/
theorem Tracking.addHandle {handle : Option (TimerW β)} (tracking : Tracking tracked Waiting wheel)
    (allocated : ∀ made, handle = some made → made.addr < wheel.allocated)
    (same : ∀ made, handle = some made → ∀ timer ∈ wheel.live, made.addr = timer.addr →
      made.callback = timer.callback) :
    Tracking tracked Waiting { wheel with handles := wheel.handles ++ [handle] } where
  placed := tracking.placed
  known := by
    intro slot moves timer member
    have known := tracking.known slot moves timer member
    refine ⟨known.positive, known.allocated, known.kept, ?_⟩
    intro made inside sameAddr
    rcases List.mem_append.mp inside with old | new
    · exact known.handle made old sameAddr
    · exact same made (List.mem_singleton.mp new).symm timer (mem_live.mpr ⟨slot, moves, member⟩)
        sameAddr
  handles := by
    intro made inside
    rcases List.mem_append.mp inside with old | new
    · exact tracking.handles made old
    · exact allocated made (List.mem_singleton.mp new).symm
  flags := tracking.flags

/-- Cancelling a handle of another callback. -/
theorem Tracking.cancel {handle : TimerW β} (tracking : Tracking tracked Waiting wheel)
    (member : some handle ∈ wheel.handles) (other : ¬ tracked handle.callback) :
    Tracking tracked Waiting (wheel.cancel handle) where
  placed := tracking.placed
  known := by
    intro slot moves timer inside
    have known := tracking.known slot moves timer inside
    refine ⟨known.positive, known.allocated, fun isTracked => ?_, known.handle⟩
    have apart : timer.addr ≠ handle.addr := fun same =>
      other (by rw [known.handle handle member same.symm]; exact isTracked)
    simpa [TimerWheelManager.cancel, Function.update_of_ne apart] using known.kept isTracked
  handles := tracking.handles
  flags := by
    intro addr raised
    by_cases same : addr = handle.addr
    · rw [same]
      exact tracking.handles handle member
    · exact tracking.flags addr (by
        simpa [TimerWheelManager.cancel, Function.update_of_ne same] using raised)

variable [DecidablePred tracked] {now : Nat}

/-- What `AddTimer` adds to the pending alarms. -/
def armed (tracked : β → Prop) [DecidablePred tracked] (now : Nat) (timeMs : BitVec 32)
    (func : β) (recurring : Bool) : Multiset (Nat × Alarm β) :=
  if tracked func then
    (delay? timeMs).elim 0 fun ticks => AlarmQueue.arm Reaches now ⟨ticks, recurring, func⟩
  else 0

/-- `AddTimer` keeps the invariant and arms its alarm. -/
theorem Tracking.addTimer (tracking : Tracking tracked Waiting wheel)
    (clock : wheel.time = BitVec.ofNat 32 now) (timeMs : BitVec 32) (func : β)
    (recurring : Bool) :
    let done := wheel.addTimer timeMs func recurring
    Tracking tracked Waiting done.2 ∧ done.2.time = wheel.time ∧
      done.2.handles = wheel.handles ∧
      entries tracked now done.2 =
        armed tracked now timeMs func recurring + entries tracked now wheel ∧
      ∀ made, done.1 = some made → made.callback = func ∧ made.addr < done.2.allocated ∧
        ∀ timer ∈ done.2.live, made.addr = timer.addr → made.callback = timer.callback := by
  by_cases atOnce : (timeMs.sdiv 10).sle 0 = true
  · simp only [TimerWheelManager.addTimer, atOnce, if_true, armed, delay?, Option.elim_none,
      ite_self, zero_add]
    exact ⟨tracking.makeTimer _ _ _ _, rfl, rfl, rfl, fun made none => by simp at none⟩
  · have kept : delay? timeMs = some (timeMs.sdiv 10).toNat := by
      rw [delay?, if_neg atOnce]
    obtain ⟨added, entries⟩ := tracking.make_addNode clock (timeMs.sdiv 10) func recurring
      (delay?_positive kept)
    simp only [TimerWheelManager.addTimer, atOnce, if_false, armed, kept, Option.elim_some,
      Bool.false_eq_true]
    refine ⟨added, rfl, rfl, entries, ?_⟩
    rintro made same
    obtain rfl := Option.some.inj same
    refine ⟨rfl, Nat.lt_succ_self _, ?_⟩
    intro timer member sameAddr
    obtain ⟨slot, moves, inside⟩ := mem_live.mp member
    rcases mem_pushBack.mp inside with old | ⟨_, rfl⟩
    · have below := (tracking.known slot moves timer old).allocated
      simp only [TimerWheelManager.makeTimer] at sameAddr
      omega
    · rfl

end Steps

section Runs

variable {tracked : β → Prop} [DecidablePred tracked]

/-- A wheel in the course of a run that leaves the tracked callbacks' handles alone. -/
structure Running (tracked : β → Prop) (now : Nat) (made : List β)
    (wheel : TimerWheelManager β) : Prop where
  tracking : Tracking tracked Waiting wheel
  clock : wheel.time = BitVec.ofNat 32 now
  handles : HandlesOf made wheel

theorem HandlesOf.known {made : List β} {wheel : TimerWheelManager β} (handles : HandlesOf made wheel)
    {index : Nat} {handle : TimerW β} (found : wheel.handle? index = some handle) :
    some handle ∈ wheel.handles ∧ made[index]? = some handle.callback := by
  have entry : wheel.handles[index]? = some (some handle) := by
    simpa [handle?, Option.join_eq_some_iff] using found
  exact ⟨List.mem_of_getElem? entry, handles.2 index handle entry⟩

theorem HandlesOf.append {made : List β} {wheel : TimerWheelManager β} (handles : HandlesOf made wheel)
    {handle : Option (TimerW β)} {func : β}
    (same : ∀ timer, handle = some timer → timer.callback = func) :
    HandlesOf (made ++ [func]) { wheel with handles := wheel.handles ++ [handle] } := by
  obtain ⟨length, found⟩ := handles
  refine ⟨by simp [length], ?_⟩
  intro index timer entry
  rcases Nat.lt_trichotomy index made.length with earlier | last | later
  · rw [List.getElem?_append_left (by omega)] at entry ⊢
    exact found index timer entry
  · rw [List.getElem?_append_right (by omega)] at entry ⊢
    have here : handle = some timer := by simpa [length, last] using entry
    simp [last, same timer here]
  · rw [List.getElem?_eq_none (by simp; omega)] at entry
    simp at entry

/-- One operation of a run: the invariant is kept, and the pending alarms and the
tasks are those of the alarm queue. -/
theorem Running.step {now : Nat} {made : List β} {wheel : TimerWheelManager β} {op : Op β}
    {ops : List (Op β)} (running : Running tracked now made wheel)
    (untouched : Untouched tracked made (op :: ops)) :
    let done := wheel.step op
    let queue := (alarmOp? tracked op).elim (⟨now, entries tracked now wheel⟩, none)
      (AlarmQueue.step Reaches ⟨now, entries tracked now wheel⟩)
    (∃ made', Running tracked queue.1.now made' done.1 ∧ Untouched tracked made' ops) ∧
      entries tracked queue.1.now done.1 = queue.1.pending ∧
      done.2.map (fun tasks : List β => (tasks : Multiset β).filter tracked) = queue.2 := by
  obtain ⟨tracking, clock, handles⟩ := running
  cases op with
  | addTimer timeMs func recurring =>
      obtain ⟨again, time, sameHandles, entries, fresh⟩ :=
        tracking.addTimer clock timeMs func recurring
      have recorded : ∀ timer, (wheel.addTimer timeMs func recurring).1 = some timer →
          timer.callback = func := fun timer made => (fresh timer made).1
      have handlesAfter : HandlesOf made (wheel.addTimer timeMs func recurring).2 := by
        rw [HandlesOf, sameHandles]
        exact handles
      have running : Running tracked now (made ++ [func])
          (wheel.step (.addTimer timeMs func recurring)).1 :=
        ⟨again.addHandle (fun timer made => (fresh timer made).2.1)
          (fun timer made => (fresh timer made).2.2), time.trans clock,
          handlesAfter.append recorded⟩
      simp only [alarmOp?]
      by_cases isTracked : tracked func
      · cases kept : delay? timeMs with
        | none =>
            simp only [armed, isTracked, kept, if_true, Option.elim_none, zero_add] at entries
            simp only [isTracked, if_true, Option.map_none, Option.elim_none]
            exact ⟨⟨_, running, untouched⟩, entries, rfl⟩
        | some ticks =>
            simp only [armed, isTracked, kept, if_true, Option.elim_some] at entries
            simp only [isTracked, if_true, Option.map_some, Option.elim_some]
            exact ⟨⟨_, running, untouched⟩, entries, rfl⟩
      · simp only [armed, isTracked, if_false, zero_add] at entries
        simp only [isTracked, if_false, Option.elim_none]
        exact ⟨⟨_, running, untouched⟩, entries, rfl⟩
  | cancel handle =>
      simp only [alarmOp?, Option.elim_none, TimerWheelManager.step]
      cases found : wheel.handle? handle with
      | none => exact ⟨⟨made, ⟨tracking, clock, handles⟩, untouched.2⟩, rfl, rfl⟩
      | some timer =>
          obtain ⟨member, callback⟩ := handles.known found
          have other := untouched.1 timer.callback callback
          exact ⟨⟨made, ⟨tracking.cancel member other, clock, handles⟩, untouched.2⟩, rfl, rfl⟩
  | refresh handle =>
      simp only [alarmOp?, Option.elim_none, TimerWheelManager.step]
      cases found : wheel.handle? handle with
      | none => exact ⟨⟨made, ⟨tracking, clock, handles⟩, untouched.2⟩, rfl, rfl⟩
      | some timer =>
          obtain ⟨member, callback⟩ := handles.known found
          have other := untouched.1 timer.callback callback
          obtain ⟨again, time, sameHandles, entries, _⟩ :=
            (tracking.cancel member other).addTimer clock (timer.subTime * 10) timer.callback
              timer.recurring
          simp only [armed, other, if_false, zero_add] at entries
          have handlesAfter : HandlesOf made (wheel.refresh timer) := by
            rw [HandlesOf, refresh, sameHandles]
            exact handles
          exact ⟨⟨made, ⟨again, time.trans clock, handlesAfter⟩, untouched.2⟩, entries, rfl⟩
  | timerUpdate =>
      obtain ⟨again, time, sameHandles, entries, tasks⟩ := timerUpdate_tick tracking clock
      have handlesAfter : HandlesOf made wheel.timerUpdate.1 := by
        rw [HandlesOf, sameHandles]
        exact handles
      exact ⟨⟨made, ⟨again, time, handlesAfter⟩, untouched⟩, entries, congrArg some tasks⟩

/-- The tasks of tracked callbacks, tick by tick, are what the alarm queue rings. -/
theorem Running.run {ops : List (Op β)} {now : Nat} {made : List β} {wheel : TimerWheelManager β}
    (running : Running tracked now made wheel) (untouched : Untouched tracked made ops) :
    (wheel.run ops).2.map (fun tasks : List β => (tasks : Multiset β).filter tracked) =
      (AlarmQueue.run Reaches ⟨now, entries tracked now wheel⟩
        (ops.filterMap (alarmOp? tracked))).2 := by
  induction ops generalizing now made wheel with
  | nil => rfl
  | cons op ops ih =>
      obtain ⟨⟨made', next, rest⟩, entries, tasks⟩ := running.step untouched
      have tail := ih next rest
      rw [entries] at tail
      rw [TimerWheelManager.run, List.map_append, tail, ← Option.toList_map, tasks]
      cases same : alarmOp? tracked op with
      | none => simp [same]
      | some alarmOp => simp [same, AlarmQueue.run]

end Runs

section Claim

variable [DecidableEq β]

/-- The timers kept by a run for one callback, each with the tick at which it is
added: `AlarmQueue.Due` names the ticks at which they are to be collected. -/
def timersOf (callback : β) (start : BitVec 32) (ops : List (Op β)) : Multiset (Nat × Alarm β) :=
  AlarmQueue.settings start.toNat (ops.filterMap (alarmOp? (· = callback)))

/-- Every tick of a run collects a callback once for each of its timers that is due
at that tick, and no more. -/
def CollectedExactly (callback : β) (start : BitVec 32) (ops : List (Op β)) : Prop :=
  ∀ index tasks, ((TimerWheelManager.start start).run ops).2[index]? = some tasks →
    tasks.count callback =
      (timersOf callback start ops).countP fun timer =>
        AlarmQueue.Due timer (start.toNat + index + 1)

/-- Number of ticks in a run. -/
def updates (ops : List (Op β)) : Nat :=
  ops.countP fun op => match op with
    | .timerUpdate => true
    | _ => false

/-- Every timer of a callback is armed, for each due tick of the run, with a delay
that the wheel serves from the tick at which it is armed. -/
def ServedThroughout (callback : β) (start : BitVec 32) (ops : List (Op β)) : Prop :=
  ∀ timer ∈ timersOf callback start ops,
    ∀ tick ≤ start.toNat + updates ops, AlarmQueue.Due timer tick →
      Reaches (tick - timer.2.period) timer.2.period

theorem timersOf_positive {callback : β} {ops : List (Op β)} {now : Nat} :
    ∀ timer ∈ AlarmQueue.settings now (ops.filterMap (alarmOp? (· = callback))),
      0 < timer.2.period := by
  induction ops generalizing now with
  | nil => simp [AlarmQueue.settings]
  | cons op ops ih =>
      intro timer member
      rw [List.filterMap_cons] at member
      cases op with
      | addTimer timeMs func recurring =>
          by_cases same : func = callback
          · cases kept : delay? timeMs with
            | none => exact ih timer (by simpa [alarmOp?, same, kept] using member)
            | some ticks =>
                have cases : timer = (now, ⟨ticks, recurring, callback⟩) ∨
                    timer ∈ AlarmQueue.settings now
                      (ops.filterMap (alarmOp? (· = callback))) := by
                  simpa [alarmOp?, same, kept, AlarmQueue.settings] using member
                rcases cases with rfl | member
                · exact delay?_positive kept
                · exact ih timer member
          · exact ih timer (by simpa [alarmOp?, same] using member)
      | cancel handle => exact ih timer member
      | refresh handle => exact ih timer member
      | timerUpdate => exact ih timer member

omit [DecidableEq β] in
theorem start_running (tracked : β → Prop) (start : BitVec 32) :
    Running tracked start.toNat [] (TimerWheelManager.start start) where
  tracking := ⟨by simp [TimerWheelManager.start], by simp [TimerWheelManager.start],
    by simp [TimerWheelManager.start], by simp [TimerWheelManager.start]⟩
  clock := by simp [TimerWheelManager.start]
  handles := ⟨rfl, by simp [TimerWheelManager.start]⟩

omit [DecidableEq β] in
theorem run_length (wheel : TimerWheelManager β) (ops : List (Op β)) :
    (wheel.run ops).2.length = updates ops := by
  induction ops generalizing wheel with
  | nil => rfl
  | cons op ops ih =>
      rw [TimerWheelManager.run, List.length_append, ih, updates, updates, List.countP_cons]
      cases op <;> simp [TimerWheelManager.step, Nat.add_comm]

/-- What a run collects of one callback, in closed form. -/
theorem run_collected {callback : β} (start : BitVec 32) {ops : List (Op β)}
    (untouched : Untouched (· = callback) [] ops) :
    ((TimerWheelManager.start start).run ops).2.map (fun tasks => tasks.count callback) =
      (List.range ((TimerWheelManager.start (β := β) start).run ops).2.length).map fun index =>
        (timersOf callback start ops).countP fun timer =>
          AlarmQueue.Rings Reaches timer (start.toNat + index + 1) := by
  have queue := (start_running (· = callback) start).run untouched
  have empty : entries (· = callback) start.toNat (TimerWheelManager.start (β := β) start) = 0 := by
    simp [entries, live, TimerWheelManager.start]
  rw [empty, AlarmQueue.run_rung _ _ timersOf_positive] at queue
  have length := congrArg List.length queue
  rw [List.length_map, List.length_map, List.length_range] at length
  have counts := congrArg (List.map Multiset.card) queue
  rw [List.map_map, List.map_map, ← length] at counts
  refine Eq.trans ?_ (counts.trans ?_)
  · refine List.map_congr_left fun tasks _ => ?_
    simp only [Function.comp_apply, ← Multiset.countP_eq_card_filter, Multiset.coe_countP,
      List.count]
    rfl
  · refine List.map_congr_left fun index _ => ?_
    simp only [Function.comp_apply, AlarmQueue.ringing, Multiset.card_map,
      ← Multiset.countP_eq_card_filter]
    rfl

/-- The same, timer by timer: whatever is due rings in the alarm queue. -/
theorem collectedExactly_iff_rings {callback : β} {start : BitVec 32} {ops : List (Op β)}
    (untouched : Untouched (· = callback) [] ops) :
    CollectedExactly callback start ops ↔
      ∀ timer ∈ timersOf callback start ops, ∀ tick ≤ start.toNat + updates ops,
        AlarmQueue.Due timer tick → AlarmQueue.Rings Reaches timer tick := by
  have collected := run_collected start untouched
  constructor
  · intro exact timer member tick bound due
    have after := AlarmQueue.settings_later _ _ timer member
    have later := due.later (timersOf_positive timer member)
    obtain ⟨index, rfl⟩ : ∃ index, tick = start.toNat + index + 1 :=
      ⟨tick - start.toNat - 1, by omega⟩
    have inside : index < ((TimerWheelManager.start start).run ops).2.length := by
      rw [run_length]
      omega
    have entry := congrArg (fun counts : List Nat => counts[index]?) collected
    simp only [List.getElem?_map, List.getElem?_range inside, List.getElem?_eq_getElem inside,
      Option.map_some, Option.some.injEq] at entry
    have count := exact index _ (List.getElem?_eq_getElem inside)
    rw [entry] at count
    exact (AlarmQueue.countP_rings_iff _ _).mp count timer member due
  · intro rings index tasks found
    have entry := congrArg (fun counts : List Nat => counts[index]?) collected
    have inside := (List.getElem?_eq_some_iff.mp found).1
    simp only [List.getElem?_map, found, List.getElem?_range inside, Option.map_some,
      Option.some.injEq] at entry
    rw [run_length] at inside
    rw [entry, AlarmQueue.countP_rings_iff]
    exact fun timer member due => rings timer member _ (by omega) due

/-- A callback whose timers are never cancelled is collected exactly when due, in a
run of any operations from any starting tick, if and only if its timers are armed
with delays that the wheel serves. -/
theorem collectedExactly_iff (callback : β) (start : BitVec 32) (ops : List (Op β))
    (untouched : Untouched (· = callback) [] ops) :
    CollectedExactly callback start ops ↔ ServedThroughout callback start ops := by
  rw [collectedExactly_iff_rings untouched]
  exact forall₂_congr fun timer member =>
    AlarmQueue.rings_all_iff (timersOf_positive timer member)

/-- A delay of one tick, from the tick zero, is collected by the next tick. -/
theorem collectedExactly_next_tick :
    Untouched (· = 7) [] [Op.addTimer 10#32 7 false, Op.timerUpdate] ∧
      CollectedExactly 7 0#32 [Op.addTimer 10#32 7 false, Op.timerUpdate] := by
  have untouched : Untouched (· = 7) [] [Op.addTimer 10#32 7 false, Op.timerUpdate] := by
    simp [Untouched]
  refine ⟨untouched, (collectedExactly_iff 7 0#32 _ untouched).mpr ?_⟩
  intro timer member tick bound due
  have single : timer = (0, ⟨1, false, 7⟩) := by
    simpa [timersOf, alarmOp?, delay?, AlarmQueue.settings] using member
  subst single
  simp [Reaches]

omit [DecidableEq β] in
theorem updates_ticks (count : Nat) :
    updates (List.replicate count (Op.timerUpdate (β := β))) = count := by
  rw [updates, List.countP_replicate]
  rfl

omit [DecidableEq β] in
theorem untouched_ticks (tracked : β → Prop) (made : List β) (count : Nat) :
    Untouched tracked made (List.replicate count Op.timerUpdate) := by
  induction count with
  | zero => trivial
  | succ count ih => exact ih

/-- Armed at the tick 16128 for the tick 16384, a timer is put into slot zero of the
lowest level, which no carry moves: the run passes the due tick without it. -/
theorem not_collectedExactly_at_carry :
    ¬ CollectedExactly 0 16128#32
      (Op.addTimer 2560#32 0 false :: List.replicate 256 Op.timerUpdate) := by
  intro exact
  generalize ticks : List.replicate 256 (Op.timerUpdate (β := Nat)) = later at exact
  have untouched : Untouched (· = 0) [] (Op.addTimer 2560#32 0 false :: later) := by
    rw [Untouched, ← ticks]
    exact untouched_ticks _ _ 256
  have kept : delay? 2560#32 = some 256 := by decide
  have member : (16128, ⟨256, false, 0⟩) ∈
      timersOf 0 16128#32 (Op.addTimer 2560#32 0 false :: later) := by
    rw [timersOf, List.filterMap_cons]
    simp only [alarmOp?, if_true, kept, Option.map_some]
    exact Multiset.mem_cons_self _ _
  have count : updates (Op.addTimer 2560#32 0 false :: later) = 256 := by
    have rest := updates_ticks (β := Nat) 256
    rw [ticks] at rest
    rw [← rest, updates, updates, List.countP_cons]
    rfl
  have rings := (collectedExactly_iff_rings untouched).mp exact _ member 16384
    (by simp [count]) (by simp [AlarmQueue.Due])
  exact absurd rings.2 (by decide)

end Claim

end Xten.TimerWheelManager
