import Xten.Std.Interleaving
import Xten.Std.OrderedSet

/-!
# TimerManager

`Timer` and `TimerManager` of `timer.cpp`, the timers in a set that is ordered by `m_next` and
the address. Each call gets the clock readings that it makes as arguments. Two things that the
code takes for granted are checked here: what is erased is not the end of the set, and `m_next`
is not written while the timer is in the set.

A new timer may get any address whose timer has no callback. Those that have been let go of are
among these.
-/

namespace Xten

/-- `Timer`; `cb` is none for a null callback. -/
structure Timer (Callback : Type) where
  recurring : Bool := false
  ms : BitVec 64 := 0
  next : BitVec 64 := 0
  cb : Option Callback := none

namespace Timer

abbrev Address := Nat

/-- `Timer::Comparator`, of pointers that are `m_next` with the address, or null. -/
def comparator : Option (BitVec 64 × Nat) → Option (BitVec 64 × Nat) → Bool
  | none, none => false
  | none, some _ => true
  | some _, none => false
  | some lhs, some rhs =>
      if lhs.1 < rhs.1 then true
      else if rhs.1 < lhs.1 then false
      else decide (lhs.2 < rhs.2)

end Timer

/-- The timers by their addresses, and the members of `TimerManager`. -/
structure TimerManager (Callback : Type) where
  timer : Timer.Address → Timer Callback
  timers : List Timer.Address
  tickled : Bool
  previouseTime : BitVec 64

namespace TimerManager

open Timer (Address)

variable {Callback : Type}

inductive Fault where
  /-- `erase` is given the end of the set. -/
  | eraseEnd
  /-- `m_next` is written while the timer is in the set. -/
  | keyChanged
deriving DecidableEq, Repr

variable (self : TimerManager Callback)

def less (lhs rhs : Address) : Bool :=
  Timer.comparator (some ((self.timer lhs).next, lhs)) (some ((self.timer rhs).next, rhs))

def find (address : Address) : Option Nat :=
  Std.OrderedSet.find self.less self.timers address

def erase : Option Nat → Except Fault (TimerManager Callback)
  | some it => .ok { self with timers := self.timers.eraseIdx it }
  | none => .error .eraseEnd

def insert (address : Address) : TimerManager Callback × Nat :=
  let (timers, it) := Std.OrderedSet.insert self.less self.timers address
  ({ self with timers := timers }, it)

/-- Write the members of a timer other than `m_next`. -/
def store (address : Address) (timer : Timer Callback) : TimerManager Callback :=
  { self with timer := Function.update self.timer address timer }

def setNext (address : Address) (next : BitVec 64) : Except Fault (TimerManager Callback) :=
  if address ∈ self.timers then .error .keyChanged
  else .ok (self.store address { self.timer address with next := next })

/-- `addTimer` under the lock, and whether `onTimerInsertedAtFront` is to be called. -/
def addTimerLocked (val : Address) : TimerManager Callback × Bool :=
  let (self, it) := self.insert val
  let atFront := it == 0 && !self.tickled
  ({ self with tickled := self.tickled || atFront }, atFront)

/-- `addTimer` of a new timer. -/
def addTimer (now ms : BitVec 64) (cb : Callback) (recurring : Bool) (address : Address) :
    TimerManager Callback × Bool :=
  (self.store address ⟨recurring, ms, now + ms, some cb⟩).addTimerLocked address

/-- `Timer::cancel`. -/
def cancel (address : Address) : Except Fault (TimerManager Callback × Bool) :=
  if (self.timer address).cb.isSome then do
    let self := self.store address { self.timer address with cb := none }
    let self ← self.erase (self.find address)
    return (self, true)
  else
    return (self, false)

/-- `Timer::refresh`. -/
def refresh (address : Address) (now : BitVec 64) :
    Except Fault (TimerManager Callback × Bool) :=
  if (self.timer address).cb.isNone then
    return (self, false)
  else
    match self.find address with
    | none => return (self, false)
    | some it => do
        let self ← self.erase (some it)
        let self ← self.setNext address (now + (self.timer address).ms)
        return ((self.insert address).1, true)

/-- `Timer::reset` under the lock: what it returns, and whether `onTimerInsertedAtFront` is to
be called. -/
def resetLocked (address : Address) (ms : BitVec 64) (fromNow : Bool) (now : BitVec 64) :
    Except Fault (TimerManager Callback × Bool × Bool) :=
  if (self.timer address).cb.isNone then
    return (self, false, false)
  else
    match self.find address with
    | none => return (self, false, false)
    | some it => do
        let self ← self.erase (some it)
        let timer := self.timer address
        let start := if fromNow then now else timer.next - timer.ms
        let self := self.store address { timer with ms := ms }
        let self ← self.setNext address (start + ms)
        let (self, atFront) := self.addTimerLocked address
        return (self, true, atFront)

/-- `Timer::reset`. -/
def reset (address : Address) (ms : BitVec 64) (fromNow : Bool) (now : BitVec 64) :
    Except Fault (TimerManager Callback × Bool × Bool) :=
  if ms = (self.timer address).ms && !fromNow then
    return (self, true, false)
  else
    self.resetLocked address ms fromNow now

/-- `getNextTimer`. -/
def getNextTimer (now : BitVec 64) : TimerManager Callback × BitVec 64 :=
  ({ self with tickled := false },
    match self.timers with
    | [] => ~~~0
    | front :: _ =>
        let next := (self.timer front).next
        if next ≤ now then 0 else next - now)

/-- `detectClockRollover`. -/
def detectClockRollover (now : BitVec 64) : TimerManager Callback × Bool :=
  ({ self with previouseTime := now },
    now < self.previouseTime && now < self.previouseTime - 60 * 60 * 1000)

/-- How many timers are before `now_timer` in the set or have its `m_next`. -/
def passed (now : BitVec 64) (nowTimer : Address) : Nat :=
  let it := Std.OrderedSet.lowerBound (self.store nowTimer { next := now }).less self.timers nowTimer
  it + ((self.timers.drop it).takeWhile fun other => (self.timer other).next = now).length

/-- One round of the loop of `listExpiredCb`. -/
def expire (now : BitVec 64) (address : Address) : Except Fault (TimerManager Callback) :=
  let timer := self.timer address
  if timer.recurring then do
    let self ← self.setNext address (now + timer.ms)
    return (self.insert address).1
  else
    return self.store address { timer with cb := none }

/-- The loop of `listExpiredCb`, with the callbacks so far. -/
def expireAll (now : BitVec 64) (self : TimerManager Callback) (cbs : List (Option Callback)) :
    List Address → Except Fault (TimerManager Callback × List (Option Callback))
  | [] => return (self, cbs)
  | address :: rest => do
      let after ← self.expire now address
      expireAll now after (cbs ++ [(self.timer address).cb]) rest

/-- The section of `listExpiredCb` under the write lock; `nowTimer` is the address of
`now_timer`. -/
def listExpiredLocked (now : BitVec 64) (nowTimer : Address) :
    Except Fault (TimerManager Callback × List (Option Callback)) :=
  match self.timers with
  | [] => return (self, [])
  | front :: _ =>
      let (self, rollover) := self.detectClockRollover now
      if !rollover && now < (self.timer front).next then
        return (self, [])
      else
        let it := if rollover then self.timers.length else self.passed now nowTimer
        expireAll now { self with timers := self.timers.drop it } [] (self.timers.take it)

/-- `listExpiredCb`. -/
def listExpiredCb (now : BitVec 64) (nowTimer : Address) :
    Except Fault (TimerManager Callback × List (Option Callback)) :=
  if self.timers.isEmpty then return (self, []) else self.listExpiredLocked now nowTimer

/-- A call of one of the operations, with what it reads from the clock. -/
inductive Op (Callback : Type) where
  | addTimer (now ms : BitVec 64) (cb : Callback) (recurring : Bool) (address : Address)
  | cancel (address : Address)
  | refresh (address : Address) (now : BitVec 64)
  | reset (address : Address) (ms : BitVec 64) (fromNow : Bool) (now : BitVec 64)
  | listExpiredCb (now : BitVec 64) (nowTimer : Address)
  | getNextTimer (now : BitVec 64)

/-- What a call does to the manager. -/
def call : Op Callback → Except Fault (TimerManager Callback)
  | .addTimer now ms cb recurring address => return (self.addTimer now ms cb recurring address).1
  | .cancel address => return (← self.cancel address).1
  | .refresh address now => return (← self.refresh address now).1
  | .reset address ms fromNow now => return (← self.reset address ms fromNow now).1
  | .listExpiredCb now nowTimer => return (← self.listExpiredCb now nowTimer).1
  | .getNextTimer now => return (self.getNextTimer now).1

/-- A new timer does not get the address of one that has a callback, nor does `now_timer`. -/
def Allowed : Op Callback → Prop
  | .addTimer _ _ _ _ address => (self.timer address).cb = none
  | .listExpiredCb _ nowTimer => (self.timer nowTimer).cb = none
  | _ => True

instance (op : Op Callback) : Decidable (self.Allowed op) :=
  match op with
  | .addTimer _ _ _ _ address => inferInstanceAs (Decidable ((self.timer address).cb = none))
  | .listExpiredCb _ nowTimer => inferInstanceAs (Decidable ((self.timer nowTimer).cb = none))
  | .cancel _ | .refresh _ _ | .reset _ _ _ _ | .getNextTimer _ => isTrue trivial

def step (op : Op Callback) : Option (TimerManager Callback) :=
  (self.call op).toOption

/-- `TimerManager()`. -/
def fresh (now : BitVec 64) : TimerManager Callback :=
  ⟨fun _ => {}, [], false, now⟩

end TimerManager

end Xten
