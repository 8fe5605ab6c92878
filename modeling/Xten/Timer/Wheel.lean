import Mathlib.Data.Fintype.Basic
import Mathlib.Data.Fintype.Prod
import Mathlib.Data.BitVec
import Mathlib.Tactic

/-!
# The timer wheel

`TimerWheelManager` of `timer.cpp`: a 256-slot near wheel and four 64-slot
levels above it. A 32-bit expiry is split into one 8-bit digit for the near wheel
and four 6-bit digits for the levels. `addNode` picks the level from the
remaining time and the slot from the absolute digit; `timerShift` moves a level's
slot down when the digits below it have all become zero.

Times are `BitVec 32`, as `_time`, `_expire` and `_sub_time` are `uint32_t`.
-/

namespace Xten

/-- A `TimerW` object. `addr` is the identity of the shared object: its handle and
the slot that holds it share the `_cancel` flag kept under that address. -/
structure TimerW (β : Type) where
  addr : Nat
  recurring : Bool
  expire : BitVec 32
  callback : β
  subTime : BitVec 32
deriving DecidableEq, Repr

namespace TimerWheelManager

def timeNearShift : Nat := 8
def timeNear : BitVec 32 := 1#32 <<< timeNearShift
def timeLevelShift : Nat := 6
def timeLevel : BitVec 32 := 1#32 <<< timeLevelShift
def timeNearMask : BitVec 32 := timeNear - 1
def timeLevelMask : BitVec 32 := timeLevel - 1

/-- A slot of the wheel: `_near[index]` or `_t[level][index]`. -/
inductive Slot where
  | near (index : Fin 256)
  | t (level : Fin 4) (index : Fin 64)
deriving DecidableEq, Repr, Fintype

/-- `time & TIME_NEAR_MASK`, as an index of `_near`. -/
def nearIndex (time : BitVec 32) : Fin 256 :=
  Fin.ofNat 256 (time &&& timeNearMask).toNat

/-- `time & TIME_LEVEL_MASK`, as an index of a level. -/
def levelIndex (time : BitVec 32) : Fin 64 :=
  Fin.ofNat 64 (time &&& timeLevelMask).toNat

/-- The slot `add_node` pushes a timer onto. -/
def slotFor (currentTime time : BitVec 32) : Slot :=
  let msec := time - currentTime
  if msec < timeNear then
    .near (nearIndex time)
  else if msec < 1#32 <<< (timeNearShift + timeLevelShift) then
    .t 0 (levelIndex (time >>> timeNearShift))
  else if msec < 1#32 <<< (timeNearShift + 2 * timeLevelShift) then
    .t 1 (levelIndex (time >>> (timeNearShift + timeLevelShift)))
  else if msec < 1#32 <<< (timeNearShift + 3 * timeLevelShift) then
    .t 2 (levelIndex (time >>> (timeNearShift + 2 * timeLevelShift)))
  else
    .t 3 (levelIndex (time >>> (timeNearShift + 3 * timeLevelShift)))

end TimerWheelManager

open TimerWheelManager in
/-- `TimerWheelManager`, with the objects it allocates. `cancelled` holds the
`_cancel` flags by address, `allocated` counts the `TimerW` objects made so far,
and `handles` lists what the calls of `AddTimer` returned (`none` for the null
pointer given back when the callback was run at once). -/
structure TimerWheelManager (β : Type) where
  time : BitVec 32
  slots : Slot → List (TimerW β)
  cancelled : Nat → Bool
  allocated : Nat
  handles : List (Option (TimerW β))

namespace TimerWheelManager

variable {β : Type}

/-- The constructor, with an arbitrary starting tick in place of zero. -/
def start (time : BitVec 32) : TimerWheelManager β where
  time := time
  slots := fun _ => []
  cancelled := fun _ => false
  allocated := 0
  handles := []

/-- `push_back` on the list of one slot. -/
def pushBack (wheel : TimerWheelManager β) (slot : Slot) (timer : TimerW β) :
    TimerWheelManager β :=
  { wheel with slots := Function.update wheel.slots slot (wheel.slots slot ++ [timer]) }

/-- `clear` on the list of one slot. -/
def clear (wheel : TimerWheelManager β) (slot : Slot) : TimerWheelManager β :=
  { wheel with slots := Function.update wheel.slots slot [] }

def addNode (wheel : TimerWheelManager β) (timer : TimerW β) : TimerWheelManager β :=
  wheel.pushBack (slotFor wheel.time timer.expire) timer

/-- Allocate a `TimerW`; `expire` and `sub` are stored as `uint32_t`. -/
def makeTimer (wheel : TimerWheelManager β) (expire sub : BitVec 32) (callback : β)
    (recurring : Bool) : TimerW β × TimerWheelManager β :=
  (⟨wheel.allocated, recurring, expire, callback, sub⟩,
    { wheel with allocated := wheel.allocated + 1 })

/-- `AddTimer`. `time_ms` is an `int`, given by its bits; the division by ten
truncates. A null handle means that the callback was run by the call itself. -/
def addTimer (wheel : TimerWheelManager β) (timeMs : BitVec 32) (func : β) (recurring : Bool) :
    Option (TimerW β) × TimerWheelManager β :=
  let ticks := timeMs.sdiv 10
  let made := wheel.makeTimer (wheel.time + ticks) ticks func recurring
  if ticks.sle 0 then
    (none, made.2)
  else
    (some made.1, made.2.addNode made.1)

/-- `TimerW::Cancel` and `DelTimer`: raise the object's flag. -/
def cancel (wheel : TimerWheelManager β) (timer : TimerW β) : TimerWheelManager β :=
  { wheel with cancelled := Function.update wheel.cancelled timer.addr true }

/-- `TimerW::Refresh`: the new handle is dropped. -/
def refresh (wheel : TimerWheelManager β) (timer : TimerW β) : TimerWheelManager β :=
  ((wheel.cancel timer).addTimer (timer.subTime * 10) timer.callback timer.recurring).2

/-- `move_list(level, index)`. -/
def moveList (wheel : TimerWheelManager β) (level : Fin 4) (index : Fin 64) :
    TimerWheelManager β :=
  ((wheel.slots (.t level index)).foldl addNode wheel).clear (.t level index)

/-- The `while` loop of `timer_shift` over the levels not yet looked at. `ct` is
not zero, so some digit of it stops the loop before the levels run out. -/
def shiftLoop (wheel : TimerWheelManager β) (ct mask time : BitVec 32) :
    List (Fin 4) → TimerWheelManager β
  | [] => wheel
  | level :: levels =>
      if ct &&& (mask - 1) = 0 then
        if levelIndex time ≠ 0 then
          wheel.moveList level (levelIndex time)
        else
          wheel.shiftLoop ct (mask <<< timeLevelShift) (time >>> timeLevelShift) levels
      else
        wheel

def timerShift (wheel : TimerWheelManager β) : TimerWheelManager β :=
  let ct := wheel.time + 1
  let wheel := { wheel with time := ct }
  if ct = 0 then
    wheel.moveList 3 0
  else
    wheel.shiftLoop ct timeNear (ct >>> timeNearShift) [0, 1, 2, 3]

/-- One round of the loop of `timer_execute`: the callback of a timer that is not
cancelled is collected, and a recurring one is put back as a new object. -/
def executeOne (state : TimerWheelManager β × List β) (timer : TimerW β) :
    TimerWheelManager β × List β :=
  let (wheel, tasks) := state
  if wheel.cancelled timer.addr then
    (wheel, tasks)
  else if timer.recurring then
    let made := wheel.makeTimer (wheel.time + timer.subTime) timer.subTime timer.callback true
    (made.2.addNode made.1, tasks ++ [timer.callback])
  else
    (wheel, tasks ++ [timer.callback])

/-- `timer_execute`: the loop erases each node of the slot as it passes it. A node
put back lands in another slot, its `_sub_time` being positive. -/
def timerExecute (wheel : TimerWheelManager β) (tasks : List β) :
    TimerWheelManager β × List β :=
  let slot := Slot.near (nearIndex wheel.time)
  (wheel.slots slot).foldl executeOne (wheel.clear slot, tasks)

/-- `timer_update`, with the callbacks it hands to the worker. -/
def timerUpdate (wheel : TimerWheelManager β) : TimerWheelManager β × List β :=
  let (wheel, tasks) := wheel.timerExecute []
  wheel.timerShift.timerExecute tasks

/-- What callers and the timer thread do to the wheel. A handle is named by the
call of `AddTimer` that returned it. -/
inductive Op (β : Type) where
  | addTimer (timeMs : BitVec 32) (func : β) (recurring : Bool)
  | cancel (handle : Nat)
  | refresh (handle : Nat)
  | timerUpdate

/-- The object behind a handle, if it is not null. -/
def handle? (wheel : TimerWheelManager β) (handle : Nat) : Option (TimerW β) :=
  (wheel.handles[handle]?).join

/-- One operation, with the tasks collected by a tick. -/
def step (wheel : TimerWheelManager β) : Op β → TimerWheelManager β × Option (List β)
  | .addTimer timeMs func recurring =>
      let (made, wheel) := wheel.addTimer timeMs func recurring
      ({ wheel with handles := wheel.handles ++ [made] }, none)
  | .cancel handle => ((wheel.handle? handle).elim wheel wheel.cancel, none)
  | .refresh handle => ((wheel.handle? handle).elim wheel wheel.refresh, none)
  | .timerUpdate =>
      let (wheel, tasks) := wheel.timerUpdate
      (wheel, some tasks)

/-- A sequence of operations, with the tasks of each tick, in order. -/
def run (wheel : TimerWheelManager β) : List (Op β) → TimerWheelManager β × List (List β)
  | [] => (wheel, [])
  | op :: ops =>
      let next := wheel.step op
      let done := next.1.run ops
      (done.1, next.2.toList ++ done.2)

end TimerWheelManager
end Xten
