import Xten.Timer.Exactness
import Xten.Timer.Labels

/-!
# What a cancelled timer still does

`Cancel` and `DelTimer` raise the flag of the object behind the handle. A recurring
timer that fires goes on as a new object, and so does a timer that is refreshed:
neither shares the flag. In runs whose callbacks carry the number of their call of
`AddTimer`, a cancelled handle's timer is collected by no later tick exactly when,
at the cancellation, the wheel kept no object of it but the handle's own.
-/

namespace Xten.TimerWheelManager

open Xten.Std

section Ticks

variable {β : Type} {holds : TimerW β → Prop} {before : TimerWheelManager β} {collects : β → Prop}

/-- A tick under way: what is known of every timer that ticks reach, under the flags
of the wheel before the tick, and of the tasks collected so far. -/
structure Collecting (holds : TimerW β → Prop) (before : TimerWheelManager β)
    (collects : β → Prop) (state : TimerWheelManager β × List β) : Prop where
  flags : state.1.cancelled = before.cancelled
  handles : state.1.handles = before.handles
  nodes : ∀ timer ∈ state.1.live, holds timer
  tasks : ∀ task ∈ state.2, collects task

/-- What is known of a timer allows it to be collected unless its flag is raised,
and passes to the object it goes on as. -/
def Passes (holds : TimerW β → Prop) (before : TimerWheelManager β) (collects : β → Prop) : Prop :=
  ∀ timer, holds timer → before.cancelled timer.addr = false → collects timer.callback ∧
    (timer.recurring = true → ∀ addr expire, holds { timer with addr := addr, expire := expire })

theorem mem_live_addNode {wheel : TimerWheelManager β} {timer node : TimerW β}
    (member : node ∈ (wheel.addNode timer).live) : node = timer ∨ node ∈ wheel.live := by
  rw [addNode, live_pushBack] at member
  split at member
  · exact .inr member
  · exact Multiset.mem_cons.mp member

theorem mem_live_clear {wheel : TimerWheelManager β} {slot : Slot} {node : TimerW β}
    (member : node ∈ (wheel.clear slot).live) : node ∈ wheel.live := by
  obtain ⟨other, moves, inside⟩ := mem_live.mp member
  by_cases same : other = slot
  · subst same
    simp [clear] at inside
  · simp only [clear, Function.update_of_ne same] at inside
    exact mem_live.mpr ⟨other, moves, inside⟩

theorem mem_live_moveList {wheel : TimerWheelManager β} {level : Fin 4} {index : Fin 64}
    (moves : ¬ Slot.Dead (.t level index)) {node : TimerW β}
    (member : node ∈ (wheel.moveList level index).live) : node ∈ wheel.live := by
  obtain ⟨slot, live, inside⟩ := mem_live.mp member
  rw [moveList_slots] at inside
  split at inside
  · simp at inside
  · rcases List.mem_append.mp inside with stayed | moved
    · exact mem_live.mpr ⟨slot, live, stayed⟩
    · exact mem_live.mpr ⟨_, moves, (List.mem_filter.mp moved).1⟩

theorem Collecting.executeOne {state : TimerWheelManager β × List β} {timer : TimerW β}
    (collecting : Collecting holds before collects state)
    (passes : Passes holds before collects) (own : holds timer) :
    Collecting holds before collects (executeOne state timer) := by
  obtain ⟨wheel, tasks⟩ := state
  obtain ⟨flags, handles, nodes, collected⟩ := collecting
  unfold TimerWheelManager.executeOne
  by_cases raised : wheel.cancelled timer.addr = true
  · simp only [raised, if_true]
    exact ⟨flags, handles, nodes, collected⟩
  have lowered : before.cancelled timer.addr = false := by
    rw [← flags]
    exact Bool.eq_false_iff.mpr raised
  obtain ⟨fires, goesOn⟩ := passes timer own lowered
  have grown : ∀ task ∈ tasks ++ [timer.callback], collects task := by
    intro task member
    rcases List.mem_append.mp member with old | new
    · exact collected task old
    · rw [List.mem_singleton.mp new]
      exact fires
  by_cases recurs : timer.recurring = true
  · simp only [raised, recurs, if_true, if_false, Bool.false_eq_true]
    refine ⟨flags, handles, fun node member => ?_, grown⟩
    rcases mem_live_addNode member with rfl | old
    · have successor := goesOn recurs wheel.allocated (wheel.time + timer.subTime)
      rw [recurs] at successor
      exact successor
    · exact nodes node old
  · simp only [raised, recurs, if_false, Bool.false_eq_true]
    exact ⟨flags, handles, nodes, grown⟩

theorem Collecting.foldl {state : TimerWheelManager β × List β} {timers : List (TimerW β)}
    (collecting : Collecting holds before collects state)
    (passes : Passes holds before collects) (own : ∀ timer ∈ timers, holds timer) :
    Collecting holds before collects (timers.foldl TimerWheelManager.executeOne state) := by
  induction timers generalizing state with
  | nil => exact collecting
  | cons timer timers ih =>
      exact ih (collecting.executeOne passes (own timer List.mem_cons_self))
        fun other member => own other (List.mem_cons_of_mem _ member)

theorem Collecting.timerExecute {wheel : TimerWheelManager β} {tasks : List β}
    (collecting : Collecting holds before collects (wheel, tasks))
    (passes : Passes holds before collects) :
    Collecting holds before collects (wheel.timerExecute tasks) := by
  have cleared : Collecting holds before collects
      (wheel.clear (.near (nearIndex wheel.time)), tasks) :=
    ⟨collecting.flags, collecting.handles,
      fun node member => collecting.nodes node (mem_live_clear member), collecting.tasks⟩
  exact cleared.foldl passes fun timer member =>
    collecting.nodes timer (mem_live.mpr ⟨_, by simp [Slot.Dead], member⟩)

theorem Collecting.timerShift {wheel : TimerWheelManager β} {tasks : List β}
    (collecting : Collecting holds before collects (wheel, tasks)) :
    Collecting holds before collects (wheel.timerShift, tasks) := by
  obtain ⟨flags, handles, nodes, collected⟩ := collecting
  rcases timerShift_cases wheel with ⟨level, index, fires, shifted⟩ | ⟨_, shifted⟩
  · obtain ⟨_, sameFlags, _, sameHandles⟩ := moveList_frame
      { wheel with time := wheel.time + 1 } level index
    rw [shifted]
    refine ⟨sameFlags.trans flags, sameHandles.trans handles, fun node member => ?_, collected⟩
    have kept : node ∈ ({ wheel with time := wheel.time + 1 } : TimerWheelManager β).live :=
      mem_live_moveList fires.2.2 member
    exact nodes node kept
  · rw [shifted]
    exact ⟨flags, handles, nodes, collected⟩

/-- What a tick collects and leaves behind. -/
theorem timerUpdate_collecting (nodes : ∀ timer ∈ before.live, holds timer)
    (passes : Passes holds before collects) :
    Collecting holds before collects before.timerUpdate := by
  have start : Collecting holds before collects (before, []) := ⟨rfl, rfl, nodes, by simp⟩
  exact (start.timerExecute passes).timerShift.timerExecute passes

end Ticks

section Runs

variable {β : Type}

/-- Number of calls of `AddTimer` in a run. -/
def calls (ops : List (Op β)) : Nat :=
  ops.countP fun op => match op with
    | .addTimer _ _ _ => true
    | _ => false

theorem numbered_append (made : Nat) (earlier later : List (Op β)) :
    numbered made (earlier ++ later) = numbered made earlier ++ numbered (made + calls earlier) later := by
  induction earlier generalizing made with
  | nil => rfl
  | cons op earlier ih =>
      cases op with
      | addTimer timeMs func recurring =>
          simp only [List.cons_append, numbered, ih, calls, List.countP_cons, if_true]
          rw [Nat.add_assoc, Nat.add_comm 1]
      | cancel handle => simp [numbered, ih, calls]
      | refresh handle => simp [numbered, ih, calls]
      | timerUpdate => simp [numbered, ih, calls]

theorem updates_numbered (made : Nat) (ops : List (Op β)) : updates (numbered made ops) = updates ops := by
  induction ops generalizing made with
  | nil => rfl
  | cons op ops ih =>
      cases op with
      | addTimer timeMs func recurring => simpa [numbered, updates] using ih (made + 1)
      | cancel handle => simpa [numbered, updates] using ih made
      | refresh handle => simpa [numbered, updates] using ih made
      | timerUpdate => simpa [numbered, updates] using ih made

theorem run_append (wheel : TimerWheelManager β) (earlier later : List (Op β)) :
    wheel.run (earlier ++ later) =
      (((wheel.run earlier).1.run later).1,
        (wheel.run earlier).2 ++ ((wheel.run earlier).1.run later).2) := by
  induction earlier generalizing wheel with
  | nil => rfl
  | cons op earlier ih => simp [run, ih]

/-- A wheel whose handles carry the numbers of the calls that returned them. -/
structure Numbered (made : Nat) (wheel : TimerWheelManager (Nat × β)) : Prop where
  count : wheel.handles.length = made
  handles : ∀ handle timer, wheel.handle? handle = some timer → timer.callback.1 = handle

theorem Numbered.of_handles {made : Nat} {wheel changed : TimerWheelManager (Nat × β)}
    (numbered : Numbered made wheel) (same : changed.handles = wheel.handles) :
    Numbered made changed where
  count := by rw [same]; exact numbered.count
  handles := by
    intro handle timer found
    rw [handle?, same] at found
    exact numbered.handles handle timer found

theorem addTimer_frame (wheel : TimerWheelManager β) (timeMs : BitVec 32) (func : β)
    (recurring : Bool) :
    let done := wheel.addTimer timeMs func recurring
    done.2.handles = wheel.handles ∧ done.2.cancelled = wheel.cancelled ∧
      (∀ timer, done.1 = some timer → timer.callback = func) ∧
      ∀ node ∈ done.2.live, node.callback = func ∨ node ∈ wheel.live := by
  by_cases atOnce : (timeMs.sdiv 10).sle 0 = true
  · simp only [addTimer, atOnce, if_true]
    exact ⟨rfl, rfl, fun timer none => by simp at none, fun node member => .inr member⟩
  · simp only [addTimer, atOnce, if_false, Bool.false_eq_true]
    refine ⟨rfl, rfl, ?_, fun node member => ?_⟩
    · rintro timer same
      rw [← Option.some.inj same]
      rfl
    · rcases mem_live_addNode member with rfl | old
      · exact .inl rfl
      · exact .inr old

theorem Numbered.addTimer {made : Nat} {wheel : TimerWheelManager (Nat × β)}
    (numbered : Numbered made wheel) (timeMs : BitVec 32) (func : β) (recurring : Bool) :
    Numbered (made + 1) (wheel.step (.addTimer timeMs (made, func) recurring)).1 := by
  obtain ⟨sameHandles, -, callback, -⟩ := addTimer_frame wheel timeMs (made, func) recurring
  have handles : (wheel.step (.addTimer timeMs (made, func) recurring)).1.handles =
      wheel.handles ++ [(wheel.addTimer timeMs (made, func) recurring).1] := by
    simp only [TimerWheelManager.step, sameHandles]
  constructor
  · rw [handles, List.length_append, numbered.count]
    rfl
  · intro handle timer found
    rw [handle?, handles] at found
    rcases Nat.lt_or_ge handle wheel.handles.length with old | new
    · rw [List.getElem?_append_left old] at found
      exact numbered.handles handle timer found
    · rw [List.getElem?_append_right new] at found
      rcases Nat.eq_or_lt_of_le new with last | beyond
      · have here : (wheel.addTimer timeMs (made, func) recurring).1 = some timer := by
          simpa [← last] using found
        rw [callback timer here, ← last]
        exact numbered.count.symm
      · rw [List.getElem?_eq_none (by simpa using Nat.le_sub_of_add_le' beyond)] at found
        simp at found

/-- Every operation but `AddTimer` leaves the handles as they are. -/
theorem step_handles (wheel : TimerWheelManager β) :
    (∀ handle, (wheel.step (.cancel handle)).1.handles = wheel.handles) ∧
      (∀ handle, (wheel.step (.refresh handle)).1.handles = wheel.handles) ∧
      (wheel.step .timerUpdate).1.handles = wheel.handles := by
  refine ⟨fun handle => ?_, fun handle => ?_, ?_⟩
  · simp only [step]
    cases wheel.handle? handle with
    | none => rfl
    | some timer => rfl
  · simp only [step]
    cases wheel.handle? handle with
    | none => rfl
    | some timer => exact (addTimer_frame (wheel.cancel timer) _ _ _).1
  · have collecting : Collecting (fun _ => True) wheel (fun _ => True) wheel.timerUpdate :=
      timerUpdate_collecting (by simp) (by simp [Passes])
    exact collecting.handles

theorem Numbered.run {made : Nat} {wheel : TimerWheelManager (Nat × β)}
    (numbered : Numbered made wheel) (ops : List (Op β)) :
    Numbered (made + calls ops) (wheel.run (TimerWheelManager.numbered made ops)).1 := by
  induction ops generalizing made wheel with
  | nil => exact numbered
  | cons op ops ih =>
      cases op with
      | addTimer timeMs func recurring =>
          have count : made + calls (.addTimer timeMs func recurring :: ops) =
              made + 1 + calls ops := by
            simp only [calls, List.countP_cons, if_true]
            omega
          rw [count]
          exact ih (numbered.addTimer timeMs func recurring)
      | cancel handle => exact ih (numbered.of_handles ((step_handles wheel).1 handle))
      | refresh handle => exact ih (numbered.of_handles ((step_handles wheel).2.1 handle))
      | timerUpdate => exact ih (numbered.of_handles (step_handles wheel).2.2)

/-- A handle's timer is silent: every timer of it that ticks reach is cancelled. -/
structure Silenced (handle made : Nat) (wheel : TimerWheelManager (Nat × β)) : Prop where
  numbered : Numbered made wheel
  returned : handle < made
  nodes : ∀ node ∈ wheel.live, node.callback.1 = handle → wheel.cancelled node.addr = true

section Silenced

variable {handle made : Nat} {wheel : TimerWheelManager (Nat × β)}

theorem Silenced.addTimer (silenced : Silenced handle made wheel) (timeMs : BitVec 32) (func : β)
    (recurring : Bool) :
    Silenced handle (made + 1) (wheel.step (.addTimer timeMs (made, func) recurring)).1 where
  numbered := silenced.numbered.addTimer timeMs func recurring
  returned := silenced.returned.trans (Nat.lt_succ_self made)
  nodes := by
    obtain ⟨-, flags, -, nodes⟩ := addTimer_frame wheel timeMs (made, func) recurring
    intro node member own
    have raised : (wheel.addTimer timeMs (made, func) recurring).2.cancelled node.addr = true := by
      rw [flags]
      rcases nodes node member with new | old
      · have same : made = handle := by simpa [new] using own
        exact absurd silenced.returned (by omega)
      · exact silenced.nodes node old own
    exact raised

theorem cancel_raised {timer : TimerW β} {wheel : TimerWheelManager β} {addr : Nat}
    (raised : wheel.cancelled addr = true) : (wheel.cancel timer).cancelled addr = true := by
  simp only [cancel, Function.update_apply, raised, ite_self]

theorem Silenced.cancel (silenced : Silenced handle made wheel) (other : Nat) :
    Silenced handle made (wheel.step (.cancel other)).1 where
  numbered := silenced.numbered.of_handles ((step_handles wheel).1 other)
  returned := silenced.returned
  nodes := by
    simp only [TimerWheelManager.step]
    cases wheel.handle? other with
    | none => exact silenced.nodes
    | some timer => exact fun node member own => cancel_raised (silenced.nodes node member own)

theorem Silenced.refresh (silenced : Silenced handle made wheel) {other : Nat}
    (apart : other ≠ handle) : Silenced handle made (wheel.step (.refresh other)).1 where
  numbered := silenced.numbered.of_handles ((step_handles wheel).2.1 other)
  returned := silenced.returned
  nodes := by
    simp only [TimerWheelManager.step]
    cases found : wheel.handle? other with
    | none => exact silenced.nodes
    | some timer =>
        obtain ⟨-, flags, -, nodes⟩ := addTimer_frame (wheel.cancel timer) (timer.subTime * 10)
          timer.callback timer.recurring
        intro node member own
        have raised : (wheel.refresh timer).cancelled node.addr = true := by
          rw [TimerWheelManager.refresh, flags]
          rcases nodes node member with new | old
          · rw [new, silenced.numbered.handles other timer found] at own
            exact absurd own apart
          · exact cancel_raised (silenced.nodes node old own)
        exact raised

/-- A tick collects nothing of a silent timer, and leaves it silent. -/
theorem Silenced.timerUpdate (silenced : Silenced handle made wheel) :
    Silenced handle made wheel.timerUpdate.1 ∧ ∀ task ∈ wheel.timerUpdate.2, task.1 ≠ handle := by
  have passes : Passes (fun timer => timer.callback.1 = handle → wheel.cancelled timer.addr = true)
      wheel (fun task => task.1 ≠ handle) := by
    intro timer raised lowered
    have other : timer.callback.1 ≠ handle := fun own => by
      rw [raised own] at lowered
      exact Bool.noConfusion lowered
    exact ⟨other, fun _ _ _ own => absurd own other⟩
  have collecting := timerUpdate_collecting silenced.nodes passes
  refine ⟨⟨silenced.numbered.of_handles collecting.handles, silenced.returned, ?_⟩,
    collecting.tasks⟩
  rw [collecting.flags]
  exact collecting.nodes

theorem Silenced.run (silenced : Silenced handle made wheel) {ops : List (Op β)}
    (unrefreshed : .refresh handle ∉ ops) :
    ∀ tasks ∈ (wheel.run (TimerWheelManager.numbered made ops)).2, ∀ task ∈ tasks,
      task.1 ≠ handle := by
  induction ops generalizing made wheel with
  | nil => simp [TimerWheelManager.numbered, TimerWheelManager.run]
  | cons op ops ih =>
      have later := fun found => unrefreshed (List.mem_cons_of_mem op found)
      cases op with
      | addTimer timeMs func recurring => exact ih (silenced.addTimer timeMs func recurring) later
      | cancel other => exact ih (silenced.cancel other) later
      | refresh other =>
          have apart : other ≠ handle := fun same => unrefreshed (by simp [same])
          exact ih (silenced.refresh apart) later
      | timerUpdate =>
          obtain ⟨next, collected⟩ := silenced.timerUpdate
          intro tasks member
          rcases List.mem_cons.mp member with rfl | after
          · exact collected
          · exact ih next later tasks after

end Silenced

end Runs

section Firing

variable {β : Type}

/-- The same object, its callback with the object's address. -/
def TimerW.addressed (timer : TimerW β) : TimerW (Nat × β) :=
  timer.map fun callback => (timer.addr, callback)

/-- The same wheel, each callback with the address of the object that holds it. -/
def addressed (wheel : TimerWheelManager β) : TimerWheelManager (Nat × β) where
  time := wheel.time
  slots := fun slot => (wheel.slots slot).map TimerW.addressed
  cancelled := wheel.cancelled
  allocated := wheel.allocated
  handles := wheel.handles.map (Option.map TimerW.addressed)

theorem addressed_forget (wheel : TimerWheelManager β) : wheel.addressed.map Prod.snd = wheel := by
  have object : TimerW.map Prod.snd ∘ TimerW.addressed = (id : TimerW β → TimerW β) := rfl
  simp only [addressed, map, List.map_map, Option.map_comp_map, object, List.map_id,
    Option.map_id]

/-- The objects of one address are tracked in the addressed wheel, if their flag is
not raised. -/
theorem Tracking.addressed {wheel : TimerWheelManager β} {addr : Nat}
    (tracking : Tracking (fun _ => False) Waiting wheel) (lowered : wheel.cancelled addr = false) :
    Tracking (fun label => label.1 = addr) Waiting wheel.addressed where
  placed := by
    intro slot moves timer member
    obtain ⟨original, inside, rfl⟩ := List.mem_map.mp member
    exact tracking.placed slot moves original inside
  known := by
    intro slot moves timer member
    obtain ⟨original, inside, rfl⟩ := List.mem_map.mp member
    obtain ⟨positive, allocated, -, handle⟩ := tracking.known slot moves original inside
    refine ⟨positive, allocated, fun same => ?_, ?_⟩
    · have here : original.addr = addr := same
      rw [← here] at lowered
      exact lowered
    · intro made inside same
      obtain ⟨entry, found, object⟩ := List.mem_map.mp inside
      obtain ⟨original', rfl, rfl⟩ := Option.map_eq_some_iff.mp object
      exact Prod.ext same (handle original' found same)
  handles := by
    intro made inside
    obtain ⟨entry, found, object⟩ := List.mem_map.mp inside
    obtain ⟨original, rfl, rfl⟩ := Option.map_eq_some_iff.mp object
    exact tracking.handles original found
  flags := tracking.flags

/-- A pending alarm of a tracked callback is collected when its due tick comes. -/
theorem Tracking.collects {tracked : β → Prop} [DecidablePred tracked] {now : Nat}
    {wheel : TimerWheelManager β} {alarm : Alarm β} (ticks : Nat)
    (tracking : Tracking tracked Waiting wheel) (clock : wheel.time = BitVec.ofNat 32 now)
    (pending : (now + 1 + ticks, alarm) ∈ entries tracked now wheel) :
    ∃ tasks ∈ (wheel.run (List.replicate (ticks + 1) .timerUpdate)).2, alarm.label ∈ tasks := by
  induction ticks generalizing now wheel with
  | zero =>
      obtain ⟨-, -, -, -, rung⟩ := timerUpdate_tick tracking clock
      have due : alarm ∈ AlarmQueue.due (now + 1) (entries tracked now wheel) :=
        Multiset.mem_map.mpr ⟨_, Multiset.mem_filter.mpr ⟨pending, rfl⟩, rfl⟩
      have collected := Multiset.mem_map_of_mem Alarm.label due
      rw [← rung] at collected
      exact ⟨_, List.mem_cons_self, (Multiset.mem_filter.mp collected).1⟩
  | succ ticks ih =>
      obtain ⟨again, time, -, after, -⟩ := timerUpdate_tick tracking clock
      have later : (now + 1 + 1 + ticks, alarm) ∈ entries tracked (now + 1) wheel.timerUpdate.1 := by
        rw [after]
        refine Multiset.mem_add.mpr (.inl (Multiset.mem_filter.mpr ⟨?_, ?_⟩))
        · rw [Nat.add_assoc _ 1 ticks, Nat.add_comm 1 ticks]
          exact pending
        · simp only
          omega
      obtain ⟨tasks, member, inside⟩ := ih again time later
      exact ⟨tasks, List.mem_cons_of_mem _ member, inside⟩

/-- A timer that ticks reach is collected sooner or later, unless it is cancelled. -/
theorem Tracking.fires {now : Nat} {wheel : TimerWheelManager β} {timer : TimerW β}
    (tracking : Tracking (fun _ => False) Waiting wheel)
    (clock : wheel.time = BitVec.ofNat 32 now) (member : timer ∈ wheel.live)
    (lowered : wheel.cancelled timer.addr = false) :
    ∃ ticks, ∃ tasks ∈ (wheel.run (List.replicate ticks .timerUpdate)).2,
      timer.callback ∈ tasks := by
  obtain ⟨slot, moves, inside⟩ := mem_live.mp member
  have positive := (tracking.placed slot moves timer inside).2
  have pending : (now + 1 + (left wheel.time timer.expire - 1), alarmOf (TimerW.addressed timer)) ∈
      entries (fun label => label.1 = timer.addr) now wheel.addressed := by
    refine Multiset.mem_map.mpr ⟨TimerW.addressed timer, mem_trackedTimers.mpr ⟨?_, rfl⟩, ?_⟩
    · exact mem_live.mpr ⟨slot, moves, List.mem_map_of_mem inside⟩
    · refine Prod.ext ?_ rfl
      have total : now + left wheel.time timer.expire =
          now + 1 + (left wheel.time timer.expire - 1) := by omega
      exact total
  obtain ⟨tasks, collected, label⟩ := (tracking.addressed lowered).collects _ clock pending
  have forgotten := @map_run _ _ Prod.snd wheel.addressed
    (List.replicate (left wheel.time timer.expire - 1 + 1) .timerUpdate)
  rw [addressed_forget, List.map_replicate] at forgotten
  refine ⟨left wheel.time timer.expire - 1 + 1, tasks.map Prod.snd, ?_, ?_⟩
  · have runs := congrArg Prod.snd forgotten
    rw [show Op.map Prod.snd (.timerUpdate : Op (Nat × β)) = .timerUpdate from rfl] at runs
    rw [runs]
    exact List.mem_map_of_mem collected
  · exact List.mem_map_of_mem label

end Firing

section Claim

variable {β : Type}

/-- The wheel after a run whose callbacks carry the numbers of their timers. -/
def labelled (start : BitVec 32) (ops : List (Op β)) : TimerWheelManager (Nat × β) :=
  ((TimerWheelManager.start start).run (numbered 0 ops)).1

/-- No tick that follows a cancellation of a handle collects its timer's callback. -/
def SilentAfter (start : BitVec 32) (before : List (Op β)) (handle : Nat)
    (after : List (Op β)) : Prop :=
  ∀ tasks ∈ ((TimerWheelManager.start start).run
      (numbered 0 (before ++ .cancel handle :: after))).2.drop (updates before),
    ∀ task ∈ tasks, task.1 ≠ handle

/-- Of a handle's timer, the wheel keeps no object that is not cancelled but the one
behind the handle, in the slots that ticks move down. -/
def OnlyOwn (wheel : TimerWheelManager (Nat × β)) (handle : Nat) (timer : TimerW (Nat × β)) :
    Prop :=
  ∀ node ∈ wheel.live, node.callback.1 = handle → wheel.cancelled node.addr = false →
    node.addr = timer.addr

theorem labelled_numbered (start : BitVec 32) (ops : List (Op β)) :
    Numbered (calls ops) (labelled start ops) := by
  have fresh : Numbered 0 (TimerWheelManager.start (β := Nat × β) start) :=
    ⟨rfl, by simp [handle?, TimerWheelManager.start]⟩
  have numbered := fresh.run ops
  rw [Nat.zero_add] at numbered
  exact numbered

theorem Running.exists_run {now : Nat} {made : List β} {wheel : TimerWheelManager β}
    (running : Running (fun _ => False) now made wheel) (ops : List (Op β)) :
    ∃ now made, Running (fun _ => False) now made (wheel.run ops).1 := by
  have untouched : ∀ (ops : List (Op β)) (made : List β), Untouched (fun _ => False) made ops := by
    intro ops
    induction ops with
    | nil => exact fun _ => trivial
    | cons op ops ih =>
        intro made
        cases op with
        | addTimer timeMs func recurring => exact ih _
        | cancel handle => exact ⟨by simp, ih made⟩
        | refresh handle => exact ⟨by simp, ih made⟩
        | timerUpdate => exact ih made
  induction ops generalizing now made wheel with
  | nil => exact ⟨now, made, running⟩
  | cons op ops ih =>
      obtain ⟨⟨_, next, _⟩, _⟩ := running.step (untouched (op :: ops) made)
      exact ih next

/-- The tasks after a cancellation are those of the run that begins there. -/
theorem silentAfter_iff (start : BitVec 32) (before : List (Op β)) (handle : Nat)
    (after : List (Op β)) :
    SilentAfter start before handle after ↔
      ∀ tasks ∈ (((labelled start before).step (.cancel handle)).1.run
        (numbered (calls before) after)).2, ∀ task ∈ tasks, task.1 ≠ handle := by
  have length : ((TimerWheelManager.start start).run (numbered (β := β) 0 before)).2.length =
      updates before := by
    rw [run_length, updates_numbered]
  rw [SilentAfter, numbered_append, run_append, Nat.zero_add, ← length, List.drop_left]
  rfl

theorem numbered_ticks (made count : Nat) :
    numbered made (List.replicate count (.timerUpdate : Op β)) =
      List.replicate count .timerUpdate := by
  induction count with
  | zero => rfl
  | succ count ih => simp [List.replicate_succ, numbered, ih]

/-- After `Cancel` or `DelTimer`, whatever happens but a refresh of the handle, no
tick collects the timer's callback if and only if the wheel keeps no object of the
timer but the handle's own when it is cancelled. -/
theorem cancel_silences_iff (start : BitVec 32) (before : List (Op β)) (handle : Nat)
    (timer : TimerW (Nat × β)) (returned : (labelled start before).handle? handle = some timer) :
    (∀ after, .refresh handle ∉ after → SilentAfter start before handle after) ↔
      OnlyOwn (labelled start before) handle timer := by
  have cancelled : ((labelled start before).step (.cancel handle)).1 =
      (labelled start before).cancel timer := by
    simp only [step, returned, Option.elim_some]
  constructor
  · intro silent node member own lowered
    by_contra apart
    obtain ⟨now, made, tracking, clock, handles⟩ :=
      (start_running (fun _ : Nat × β => False) start).exists_run (numbered 0 before)
    have stillLowered : ((labelled start before).cancel timer).cancelled node.addr = false := by
      simp only [cancel, Function.update_of_ne apart]
      exact lowered
    obtain ⟨ticks, tasks, collected, inside⟩ :=
      (tracking.cancel (handles.known returned).1 not_false).fires clock member stillLowered
    have quiet := silent (List.replicate ticks .timerUpdate) (by simp)
    rw [silentAfter_iff, cancelled, numbered_ticks] at quiet
    exact quiet tasks collected node.callback inside own
  · intro onlyOwn after unrefreshed
    have numbered := labelled_numbered start before
    have silenced : Silenced handle (calls before) ((labelled start before).step (.cancel handle)).1 := by
      refine ⟨numbered.of_handles ((step_handles _).1 handle), ?_, ?_⟩
      · rw [← numbered.count]
        exact (List.getElem?_eq_some_iff.mp (Option.join_eq_some_iff.mp returned)).1
      · rw [cancelled]
        intro node member own
        by_cases raised : (labelled start before).cancelled node.addr = true
        · exact cancel_raised raised
        · have same := onlyOwn node member own (Bool.eq_false_iff.mpr raised)
          simp only [cancel, same, Function.update_self]
    rw [silentAfter_iff]
    exact silenced.run unrefreshed

/-- A recurring timer cancelled before its first firing is not collected. -/
theorem cancel_silences_unfired :
    (labelled 0#32 [.addTimer 10#32 7 true]).handle? 0 = some ⟨0, true, 1#32, (0, 7), 1#32⟩ ∧
      SilentAfter 0#32 [.addTimer 10#32 7 true] 0 [.timerUpdate, .timerUpdate] := by
  have returned : (labelled 0#32 [.addTimer 10#32 7 true]).handle? 0 =
      some ⟨0, true, 1#32, (0, 7), 1#32⟩ := by decide
  refine ⟨returned, (cancel_silences_iff 0#32 [.addTimer 10#32 7 true] 0 _ returned).mpr ?_ _
    (by simp)⟩
  intro node member _ _
  obtain ⟨slot, _, inside⟩ := mem_live.mp member
  have only : (labelled 0#32 [.addTimer 10#32 7 true]).slots =
      Function.update (fun _ => []) (.near 1) [⟨0, true, 1#32, (0, 7), 1#32⟩] := rfl
  rw [only] at inside
  by_cases same : slot = .near 1
  · simp only [same, Function.update_self, List.mem_singleton] at inside
    rw [inside]
  · simp [Function.update_of_ne same] at inside

/-- A recurring timer cancelled after it has fired fires again, and so does a timer
cancelled after it has been refreshed. -/
theorem not_silent :
    ((labelled 0#32 [.addTimer 10#32 7 true, .timerUpdate]).handle? 0).isSome = true ∧
      ¬ SilentAfter 0#32 [.addTimer 10#32 7 true, .timerUpdate] 0 [.timerUpdate] ∧
      ((labelled 0#32 [.addTimer 10#32 7 false, .refresh 0]).handle? 0).isSome = true ∧
      ¬ SilentAfter 0#32 [.addTimer 10#32 7 false, .refresh 0] 0 [.timerUpdate] := by
  unfold SilentAfter
  decide

end Claim

end Xten.TimerWheelManager
