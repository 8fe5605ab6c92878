import Xten.Std.Interleaving

/-!
# A FoxThread

`dispatch`, `batchDispatch` and `stop` with `read_cb`, of a thread that `start` has been called
for. A section under `m_mutex` is one step, and so is a `send` outside of one. A `send` puts its
byte into the socket pair. `recv` takes what is there, or a part of it.

Callbacks may throw, which `read_cb` catches, and may call `dispatch` themselves, which is then
one more call beside those of the other threads.
-/

namespace Xten.FoxThread

open Std.Interleaving

variable {Task : Type}

/-- Where the worker thread is. A null callback is `none` here. -/
inductive Worker (Task : Type) where
  /-- In `event_base_loop`. -/
  | looping
  /-- `read_cb` has received. -/
  | received
  /-- `read_cb` goes on with the rest of the callbacks it has taken; `size` is the length of
  all of them. -/
  | going (size : Nat) (callbacks : List (Option Task))
  /-- `read_cb` is within a callback. -/
  | within (task : Task) (size : Nat) (callbacks : List (Option Task))
  /-- The loop has been broken, and the callbacks behind the null one are dropped. -/
  | ended (callbacks : List (Option Task))
deriving DecidableEq, Repr

/-- The thread. `thread` says that `m_thread` is not null, and `pipe` are the bytes that have
been sent and not received. `pushed` are all the callbacks so far, and `executed` those that
have been called. -/
structure Shared (Task : Type) where
  callbacks : List (Option Task)
  thread : Bool
  pipe : List UInt8
  worker : Worker Task
  working : Bool
  start : Bool
  total : UInt64
  pushed : List (Option Task)
  executed : List Task
deriving DecidableEq, Repr

/-- A call of `dispatch` or `batchDispatch` between its push and its `send`, or no call. -/
inductive Caller where
  | outside
  | sending
deriving DecidableEq, Repr

inductive Call (Task : Type) where
  | dispatch (cb : Option Task)
  | batchDispatch (cbs : List (Option Task))
  | stop
  | send
deriving DecidableEq, Repr

inductive Action (Task : Type) where
  | caller (thread : Nat) (call : Call Task)
  | readCb (size : Nat)
deriving DecidableEq, Repr

/-- `sizeof(cmd)`. -/
def cmdSize : Nat :=
  4096

namespace Shared

variable (shared : Shared Task)

/-- `m_callbacks.push_back` for each of some callbacks. -/
def push (cbs : List (Option Task)) : Shared Task :=
  { shared with callbacks := shared.callbacks ++ cbs, pushed := shared.pushed ++ cbs }

/-- `send(m_write, &cmd, sizeof(cmd), 0)`. -/
def send (cmd : UInt8) : Shared Task :=
  { shared with pipe := shared.pipe ++ [cmd] }

/-- `stop`, which sends under the lock. -/
def stop : Shared Task :=
  if shared.thread then (shared.push [none]).send 0 else shared.push [none]

/-- One step of a call. -/
def call : Caller → Call Task → Option (Shared Task × Caller)
  | .outside, .dispatch cb => some (shared.push [cb], .sending)
  | .outside, .batchDispatch cbs => some (shared.push cbs, .sending)
  | .outside, .stop => some (shared.stop, .outside)
  | .sending, .send => some (shared.send 1, .outside)
  | _, _ => none

/-- The end of `read_cb`. -/
def finish (size : Nat) (worker : Worker Task) : Shared Task :=
  { shared with worker := worker, working := false, total := shared.total + UInt64.ofNat size }

/-- One step of `read_cb`; `size` is what `recv` returns. -/
def readCb (size : Nat) : Option (Shared Task) :=
  match shared.worker with
  | .looping =>
      if 0 < size ∧ size ≤ cmdSize ∧ size ≤ shared.pipe.length then
        some { shared with worker := .received, pipe := shared.pipe.drop size }
      else
        none
  | .received =>
      some { shared with
        worker := .going shared.callbacks.length shared.callbacks
        callbacks := []
        working := true }
  | .going size (some task :: rest) =>
      some { shared with worker := .within task size rest, executed := shared.executed ++ [task] }
  | .going size (none :: rest) => some ({ shared with start := false }.finish size (.ended rest))
  | .going size [] => some (shared.finish size .looping)
  | .within _ size rest => some { shared with worker := .going size rest }
  | .ended _ => none

/-- What a step of `read_cb` can do. -/
inductive Reads (size : Nat) : Shared Task → Prop where
  | receives (looping : shared.worker = .looping)
      (sent : 0 < size ∧ size ≤ cmdSize ∧ size ≤ shared.pipe.length) :
      Reads size { shared with worker := .received, pipe := shared.pipe.drop size }
  | swaps (received : shared.worker = .received) :
      Reads size { shared with
        worker := .going shared.callbacks.length shared.callbacks
        callbacks := []
        working := true }
  | calls {count : Nat} {task : Task} {rest : List (Option Task)}
      (going : shared.worker = .going count (some task :: rest)) :
      Reads size { shared with
        worker := .within task count rest
        executed := shared.executed ++ [task] }
  | breaks {count : Nat} {rest : List (Option Task)}
      (going : shared.worker = .going count (none :: rest)) :
      Reads size ({ shared with start := false }.finish count (.ended rest))
  | ends {count : Nat} (going : shared.worker = .going count []) :
      Reads size (shared.finish count .looping)
  | returns {count : Nat} {task : Task} {rest : List (Option Task)}
      (within : shared.worker = .within task count rest) :
      Reads size { shared with worker := .going count rest }

variable {shared} in
theorem reads {size : Nat} {next : Shared Task} (read : shared.readCb size = some next) :
    shared.Reads size next := by
  unfold readCb at read
  split at read
  case h_1 looping =>
    obtain ⟨sent, read⟩ := Option.ite_none_right_eq_some.mp read
    cases read
    exact .receives looping sent
  case h_2 received =>
    cases read
    exact .swaps received
  case h_3 going =>
    cases read
    exact .calls going
  case h_4 going =>
    cases read
    exact .breaks going
  case h_5 going =>
    cases read
    exact .ends going
  case h_6 within =>
    cases read
    exact .returns within
  case h_7 => cases read

end Shared

/-- The thread, and the calls that are made of it. -/
abbrev State (Task : Type) := Config (Shared Task) Caller

def step (state : State Task) : Action Task → Option (State Task)
  | .caller thread call =>
      (state.shared.call (state.threads thread) call).map fun next =>
        state.put thread next.1 next.2
  | .readCb size => (state.shared.readCb size).map fun shared => { state with shared := shared }

/-- What `start` has made of a new thread. -/
def started : State Task where
  shared := ⟨[], true, [], .looping, false, true, 0, [], []⟩
  threads := fun _ => .outside

end Xten.FoxThread
