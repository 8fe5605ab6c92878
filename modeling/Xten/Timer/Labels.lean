import Xten.Timer.Wheel

/-!
# The wheel does not look at callbacks

No operation of the wheel depends on what its callbacks are, so a function may be
applied to all of them before a run or after it. In particular each callback can
carry the number of the call of `AddTimer` that made it: the numbers take no part
in the run, and tell which timer a collected callback belongs to.
-/

namespace Xten

variable {β γ : Type}

/-- The same object with another callback. -/
def TimerW.map (label : β → γ) (timer : TimerW β) : TimerW γ where
  addr := timer.addr
  recurring := timer.recurring
  expire := timer.expire
  callback := label timer.callback
  subTime := timer.subTime

namespace TimerWheelManager

variable (label : β → γ) (wheel : TimerWheelManager β)

/-- The same wheel with other callbacks. -/
def map : TimerWheelManager γ where
  time := wheel.time
  slots := fun slot => (wheel.slots slot).map (TimerW.map label)
  cancelled := wheel.cancelled
  allocated := wheel.allocated
  handles := wheel.handles.map (Option.map (TimerW.map label))

theorem map_pushBack (slot : Slot) (timer : TimerW β) :
    (wheel.pushBack slot timer).map label = (wheel.map label).pushBack slot (timer.map label) := by
  simp only [map, pushBack, TimerWheelManager.mk.injEq, true_and, and_true]
  ext1 other
  by_cases same : other = slot
  · subst same
    simp
  · simp [Function.update_of_ne same]

theorem map_clear (slot : Slot) :
    (wheel.clear slot).map label = (wheel.map label).clear slot := by
  simp only [map, clear, TimerWheelManager.mk.injEq, true_and, and_true]
  ext1 other
  by_cases same : other = slot
  · subst same
    simp
  · simp [Function.update_of_ne same]

theorem map_addNode (timer : TimerW β) :
    (wheel.addNode timer).map label = (wheel.map label).addNode (timer.map label) :=
  map_pushBack label wheel _ timer

theorem map_foldl_addNode (timers : List (TimerW β)) :
    (timers.foldl addNode wheel).map label =
      (timers.map (TimerW.map label)).foldl addNode (wheel.map label) := by
  induction timers generalizing wheel with
  | nil => rfl
  | cons timer timers ih =>
      rw [List.foldl_cons, ih, map_addNode]
      rfl

theorem map_addTimer (timeMs : BitVec 32) (func : β) (recurring : Bool) :
    (wheel.map label).addTimer timeMs (label func) recurring =
      ((wheel.addTimer timeMs func recurring).1.map (TimerW.map label),
        (wheel.addTimer timeMs func recurring).2.map label) := by
  unfold addTimer
  by_cases atOnce : (timeMs.sdiv 10).sle 0 = true
  · simp only [atOnce, if_true]
    rfl
  · simp only [atOnce, if_false, Bool.false_eq_true, map_addNode]
    rfl

theorem map_refresh (timer : TimerW β) :
    (wheel.refresh timer).map label = (wheel.map label).refresh (timer.map label) := by
  have added := map_addTimer label (wheel.cancel timer) (timer.subTime * 10) timer.callback
    timer.recurring
  exact (congrArg Prod.snd added).symm

theorem map_moveList (level : Fin 4) (index : Fin 64) :
    (wheel.moveList level index).map label = (wheel.map label).moveList level index := by
  rw [moveList, map_clear, map_foldl_addNode]
  rfl

theorem map_shiftLoop (ct mask time : BitVec 32) (levels : List (Fin 4)) :
    (wheel.shiftLoop ct mask time levels).map label =
      (wheel.map label).shiftLoop ct mask time levels := by
  induction levels generalizing mask time with
  | nil => rfl
  | cons level levels ih =>
      unfold shiftLoop
      split_ifs with carries moves
      · exact map_moveList label wheel level _
      · exact ih _ _
      · rfl

theorem map_timerShift : wheel.timerShift.map label = (wheel.map label).timerShift := by
  unfold timerShift
  by_cases wraps : wheel.time + 1 = 0
  · have there : (wheel.map label).time + 1 = 0 := wraps
    simp only [wraps, there, if_true]
    exact map_moveList label { wheel with time := 0 } 3 0
  · have there : (wheel.map label).time + 1 ≠ 0 := wraps
    simp only [wraps, there, if_false]
    exact map_shiftLoop label { wheel with time := wheel.time + 1 } _ _ _ _

/-- One round of `timer_execute`, on other callbacks. -/
theorem map_executeOne (tasks : List β) (timer : TimerW β) :
    executeOne (wheel.map label, tasks.map label) (timer.map label) =
      ((executeOne (wheel, tasks) timer).1.map label,
        (executeOne (wheel, tasks) timer).2.map label) := by
  unfold executeOne
  by_cases raised : wheel.cancelled timer.addr = true
  · have there : (wheel.map label).cancelled (timer.map label).addr = true := raised
    simp only [raised, there, if_true]
  have there : ¬ (wheel.map label).cancelled (timer.map label).addr = true := raised
  by_cases recurs : timer.recurring = true
  · have again : (timer.map label).recurring = true := recurs
    simp only [raised, there, recurs, again, if_true, if_false, Bool.false_eq_true, map_addNode,
      List.map_append, List.map_cons, List.map_nil]
    rfl
  · have again : ¬ (timer.map label).recurring = true := recurs
    simp only [raised, there, recurs, again, if_false, Bool.false_eq_true, List.map_append,
      List.map_cons, List.map_nil]
    rfl

theorem map_foldl_executeOne (tasks : List β) (timers : List (TimerW β)) :
    (timers.map (TimerW.map label)).foldl executeOne (wheel.map label, tasks.map label) =
      ((timers.foldl executeOne (wheel, tasks)).1.map label,
        (timers.foldl executeOne (wheel, tasks)).2.map label) := by
  induction timers generalizing wheel tasks with
  | nil => rfl
  | cons timer timers ih =>
      rw [List.map_cons, List.foldl_cons, List.foldl_cons, map_executeOne, ih]

theorem map_timerExecute (tasks : List β) :
    (wheel.map label).timerExecute (tasks.map label) =
      ((wheel.timerExecute tasks).1.map label, (wheel.timerExecute tasks).2.map label) := by
  have executed := map_foldl_executeOne label
    (wheel.clear (.near (nearIndex wheel.time))) tasks (wheel.slots (.near (nearIndex wheel.time)))
  rw [map_clear] at executed
  exact executed

theorem map_timerUpdate :
    (wheel.map label).timerUpdate =
      (wheel.timerUpdate.1.map label, wheel.timerUpdate.2.map label) := by
  have first := map_timerExecute label wheel []
  rw [List.map_nil] at first
  simp only [timerUpdate, first, ← map_timerShift]
  exact map_timerExecute label _ _

variable {label wheel}

theorem handle?_map (handle : Nat) :
    (wheel.map label).handle? handle = (wheel.handle? handle).map (TimerW.map label) := by
  simp only [handle?, map, List.getElem?_map]
  cases wheel.handles[handle]? with
  | none => rfl
  | some entry => rfl

/-- The same operation with another callback. -/
def Op.map (label : β → γ) : Op β → Op γ
  | .addTimer timeMs func recurring => .addTimer timeMs (label func) recurring
  | .cancel handle => .cancel handle
  | .refresh handle => .refresh handle
  | .timerUpdate => .timerUpdate

theorem map_step (op : Op β) :
    (wheel.map label).step (op.map label) =
      ((wheel.step op).1.map label, (wheel.step op).2.map (List.map label)) := by
  cases op with
  | addTimer timeMs func recurring =>
      simp only [Op.map, step, map_addTimer]
      simp [map]
  | cancel handle =>
      simp only [Op.map, step, handle?_map]
      cases wheel.handle? handle with
      | none => rfl
      | some timer => rfl
  | refresh handle =>
      simp only [Op.map, step, handle?_map]
      cases wheel.handle? handle with
      | none => rfl
      | some timer => exact Prod.ext (map_refresh label wheel timer).symm rfl
  | timerUpdate =>
      simp only [Op.map, step, map_timerUpdate]
      rfl

/-- A run on other callbacks collects the images of what the run collects. -/
theorem map_run (ops : List (Op β)) :
    (wheel.map label).run (ops.map (Op.map label)) =
      ((wheel.run ops).1.map label, (wheel.run ops).2.map (List.map label)) := by
  induction ops generalizing wheel with
  | nil => rfl
  | cons op ops ih =>
      simp only [List.map_cons, run, map_step, ih, List.map_append, ← Option.toList_map]

/-- The operations of a run, each callback with the number of its call of
`AddTimer`; `made` counts the earlier calls. -/
def numbered (made : Nat) : List (Op β) → List (Op (Nat × β))
  | [] => []
  | .addTimer timeMs func recurring :: ops =>
      .addTimer timeMs (made, func) recurring :: numbered (made + 1) ops
  | .cancel handle :: ops => .cancel handle :: numbered made ops
  | .refresh handle :: ops => .refresh handle :: numbered made ops
  | .timerUpdate :: ops => .timerUpdate :: numbered made ops

theorem numbered_forget (made : Nat) (ops : List (Op β)) :
    (numbered made ops).map (Op.map Prod.snd) = ops := by
  induction ops generalizing made with
  | nil => rfl
  | cons op ops ih =>
      cases op with
      | addTimer timeMs func recurring => simp [numbered, Op.map, ih]
      | cancel handle => simp [numbered, Op.map, ih]
      | refresh handle => simp [numbered, Op.map, ih]
      | timerUpdate => simp [numbered, Op.map, ih]

/-- Numbering the callbacks changes nothing in a run but the numbers. -/
theorem run_numbered (start : BitVec 32) (ops : List (Op β)) :
    ((TimerWheelManager.start start).run (numbered 0 ops)).2.map (List.map Prod.snd) =
      ((TimerWheelManager.start start).run ops).2 := by
  have forgotten := @map_run (Nat × β) β Prod.snd (TimerWheelManager.start start)
    (numbered 0 ops)
  rw [numbered_forget] at forgotten
  exact (congrArg Prod.snd forgotten).symm

end TimerWheelManager
end Xten
