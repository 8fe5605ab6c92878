import Xten.FoxThread.Dispatch

/-!
# A FoxThreadPool in advance mode

`start`, `dispatch`, `batchDispatch`, `check`, `wrapcb` and `releaseFoxThread`, with the
`FoxThread`s of the pool below them. A section under a lock is one step. `start` is one step up
to its `check`, since nobody looks at the free threads before `m_start` is set.

The pointers to a thread that count are the one in a round of `check`, and one in each callback
that `wrapcb` is bound to. The copies that a call of `dispatch` or of a bound callback makes for
itself go before the one they were made from.
-/

namespace Xten.FoxThreadPool

open Std.Interleaving

variable {Task : Type}

/-- A callback of one of the threads. -/
inductive Callback (Task : Type) where
  /-- `wrapcb`, bound to a pointer to the thread and to a callback of the pool. -/
  | wrapcb (thr : Nat) (cb : Task)
  /-- A callback that has been given to this thread. -/
  | direct (cb : Task)
deriving DecidableEq, Repr

/-- The pool. `taken` is the local list of `read_cb` in each thread, and `useCount` how many
pointers to a thread there are. `passed` are the callbacks that have been passed to the pool, and
`handed` the ones that `check` has taken, each with its thread. -/
structure Shared (Task : Type) where
  size : Nat
  start : Bool
  callbacks : List Task
  free : List Nat
  threads : Nat → FoxThread.Shared (Callback Task)
  taken : Nat → List (Option (Callback Task))
  useCount : Nat → Nat
  total : UInt64
  passed : List Task
  handed : List (Nat × Task)

/-- Where a thread is in a function of the pool. Below a `check` there are the checks that go on
when it ends: it runs at the end of one of their rounds. -/
inductive Call (Task : Type) where
  | outside
  /-- At the beginning of a round of `check`. -/
  | checking (below : Nat)
  /-- The pointer `thr` has been made, and the callback has been taken. -/
  | handing (below thr : Nat) (cb : Task)
  /-- `wrapcb` is in the queue of the thread, which is not told yet. -/
  | sending (below thr : Nat)
  /-- At the end of the round, where the pointer goes. -/
  | leaving (below thr : Nat)
  /-- In `releaseFoxThread`. -/
  | releasing (below thr : Nat)
  /-- In the `dispatch` for one thread, which is not told yet. -/
  | telling (thr : Nat)
deriving DecidableEq, Repr

/-- A call of the pool from outside, or of `stop` of one of its threads. -/
inductive Request (Task : Type) where
  | start
  | dispatch (cb : Task)
  | batchDispatch (cbs : List Task)
  | dispatchTo (id : Nat) (cb : Task)
  | stop (thr : Nat)
deriving DecidableEq, Repr

inductive Action (Task : Type) where
  | call (thread : Nat) (request : Request Task)
  | go (thread : Nat)
  | readCb (thread size : Nat)
deriving DecidableEq, Repr

namespace Shared

variable (shared : Shared Task)

/-- Callbacks are pushed to the pool. -/
def push (cbs : List Task) : Shared Task :=
  { shared with
    callbacks := shared.callbacks ++ cbs
    passed := shared.passed ++ cbs
    total := shared.total + UInt64.ofNat cbs.length }

def setThread (thr : Nat) (thread : FoxThread.Shared (Callback Task)) : Shared Task :=
  { shared with threads := Function.update shared.threads thr thread }

/-- A function of the pool is called. A second `start` throws. -/
def request : Request Task → Option (Shared Task × Call Task)
  | .start =>
      if shared.start then none
      else some ({ shared with free := List.range shared.size, start := true }, .checking 0)
  | .dispatch cb => some (shared.push [cb], .checking 0)
  | .batchDispatch cbs => some (shared.push cbs, .checking 0)
  | .dispatchTo id cb =>
      if 0 < shared.size then
        let thr := id % shared.size
        some ({ shared.setThread thr ((shared.threads thr).push [some (.direct cb)]) with
          total := shared.total + 1 }, .telling thr)
      else
        none
  | .stop thr =>
      if thr < shared.size then
        some (shared.setThread thr (shared.threads thr).stop, .outside)
      else
        none

/-- A pointer goes; `last` is where the thread is then if it was the last one. -/
def drop (thr : Nat) (last more : Call Task) : Shared Task × Call Task :=
  ({ shared with useCount := Function.update shared.useCount thr (shared.useCount thr - 1) },
    if shared.useCount thr = 1 then last else more)

/-- The end of a `check`. -/
def back : Nat → Call Task
  | 0 => .outside
  | below + 1 => .checking below

/-- The first part of a round of `check`, under the lock. -/
def check (below : Nat) : Shared Task × Call Task :=
  match shared.start, shared.free, shared.callbacks with
  | true, thr :: free, cb :: callbacks =>
      ({ shared with
        free := free
        callbacks := callbacks
        useCount := Function.update shared.useCount thr 1
        handed := shared.handed ++ [(thr, cb)] }, .handing below thr cb)
  | _, _, _ => (shared, back below)

/-- One step within a function of the pool. -/
def go : Call Task → Option (Shared Task × Call Task)
  | .outside => none
  | .checking below => some (shared.check below)
  | .handing below thr cb =>
      if (shared.threads thr).start then
        some ({ shared.setThread thr ((shared.threads thr).push [some (.wrapcb thr cb)]) with
          useCount := Function.update shared.useCount thr (shared.useCount thr + 1) },
          .sending below thr)
      else
        some ({ shared with callbacks := cb :: shared.callbacks }, .leaving below thr)
  | .sending below thr =>
      some (shared.setThread thr ((shared.threads thr).send 1), .leaving below thr)
  | .leaving below thr => some (shared.drop thr (.releasing (below + 1) thr) (.checking below))
  | .releasing below thr => some ({ shared with free := shared.free ++ [thr] }, .checking below)
  | .telling thr => some (shared.setThread thr ((shared.threads thr).send 1), .outside)

/-- A callback of the local list of `read_cb` is destroyed. -/
def destroy : Option (Callback Task) → Shared Task × Call Task
  | some (.wrapcb thr _) => shared.drop thr (.releasing 0 thr) .outside
  | _ => (shared, .outside)

/-- One step of `read_cb` in a thread of the pool. When it is done, its local list is destroyed
one by one. -/
def readCb (thread size : Nat) : Option (Shared Task × Call Task) :=
  match (shared.threads thread).worker, shared.taken thread with
  | .looping, callback :: rest | .ended _, callback :: rest =>
      some ({ shared with taken := Function.update shared.taken thread rest }.destroy callback)
  | .received, _ =>
      ((shared.threads thread).readCb size).map fun next =>
        ({ shared.setThread thread next with
          taken := Function.update shared.taken thread (shared.threads thread).callbacks },
          .outside)
  | _, _ => ((shared.threads thread).readCb size).map fun next =>
      (shared.setThread thread next, .outside)

/-- A thread of the pool calls a function from within a callback only. -/
def mayCall (thread : Nat) : Bool :=
  match (shared.threads thread).worker with
  | .within _ _ _ => true
  | _ => decide (shared.size ≤ thread)

end Shared

/-- The pool, and the threads that are in one of its functions. The first of them are those of
the pool itself. -/
abbrev State (Task : Type) := Config (Shared Task) (Call Task)

/-- One step of a thread. -/
def Shared.act (shared : Shared Task) (call : Call Task) :
    Action Task → Option (Shared Task × Call Task)
  | .call thread request =>
      match call with
      | .outside => if shared.mayCall thread then shared.request request else none
      | _ => none
  | .go _ => shared.go call
  | .readCb thread size =>
      match call with
      | .outside =>
          if shared.start ∧ thread < shared.size then shared.readCb thread size else none
      | _ => none

def Action.thread : Action Task → Nat
  | .call thread _ | .go thread | .readCb thread _ => thread

def step (state : State Task) (action : Action Task) : Option (State Task) :=
  (state.shared.act (state.threads action.thread) action).map fun next =>
    state.put action.thread next.1 next.2

/-- A new pool. Its threads are taken as they are when they have been started: until `start`
they do nothing, and nobody looks at them. -/
def constructed (size : Nat) : State Task where
  shared := {
    size := size
    start := false
    callbacks := []
    free := []
    threads := fun _ => FoxThread.started.shared
    taken := fun _ => []
    useCount := fun _ => 0
    total := 0
    passed := []
    handed := [] }
  threads := fun _ => .outside

/-- No thread is stopped. -/
def Unstopped (_ : State Task) (action : Action Task) : Prop :=
  ∀ thread thr, action ≠ .call thread (.stop thr)

end Xten.FoxThreadPool
