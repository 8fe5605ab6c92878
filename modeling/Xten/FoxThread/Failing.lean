import Xten.FoxThread.Order

/-!
# Dispatches that fail

`dispatch` and `batchDispatch` push their callbacks, and return false if the `send` behind that
fails. The socket pair does not block, so that it does if it is full; here it may at any time. A
callback is told by its place among all that have been pushed.
-/

namespace Xten.FoxThread.Failing

open Std.Interleaving

variable {Task : Type}

/-- A call of `dispatch` or `batchDispatch` between its push and its `send`, with the place of the
first of its callbacks; or no call. -/
inductive Caller (Task : Type) where
  | outside
  | sending (first : Nat) (cbs : List (Option Task))
deriving DecidableEq, Repr

/-- A call that has returned. -/
structure Return (Task : Type) where
  first : Nat
  cbs : List (Option Task)
  result : Bool
deriving DecidableEq, Repr

structure Ledger (Task : Type) where
  thread : Shared Task
  returned : List (Return Task)
deriving DecidableEq, Repr

/-- A `send` succeeds, or it does not. -/
inductive Call (Task : Type) where
  | dispatch (cb : Option Task)
  | batchDispatch (cbs : List (Option Task))
  | stop (sends : Bool)
  | send (sends : Bool)
deriving DecidableEq, Repr

inductive Action (Task : Type) where
  | caller (thread : Nat) (call : Call Task)
  | readCb (size : Nat)
deriving DecidableEq, Repr

namespace Ledger

variable (ledger : Ledger Task)

/-- The section of `dispatch` and `batchDispatch` under the lock. -/
def push (cbs : List (Option Task)) : Ledger Task × Caller Task :=
  ({ ledger with thread := ledger.thread.push cbs }, .sending ledger.thread.pushed.length cbs)

/-- One step of a call. `stop` ignores what its `send` returns. -/
def call : Caller Task → Call Task → Option (Ledger Task × Caller Task)
  | .outside, .dispatch cb => some (ledger.push [cb])
  | .outside, .batchDispatch cbs => some (ledger.push cbs)
  | .outside, .stop sends =>
      let thread := if sends then ledger.thread.stop else ledger.thread.push [none]
      some ({ ledger with thread := thread }, .outside)
  | .sending first cbs, .send sends =>
      let thread := if sends then ledger.thread.send 1 else ledger.thread
      some (⟨thread, ledger.returned ++ [⟨first, cbs, sends⟩]⟩, .outside)
  | _, _ => none

end Ledger

abbrev State (Task : Type) := Config (Ledger Task) (Caller Task)

def step (state : State Task) : Action Task → Option (State Task)
  | .caller thread call =>
      (state.shared.call (state.threads thread) call).map fun next =>
        state.put thread next.1 next.2
  | .readCb size =>
      (state.shared.thread.readCb size).map fun thread =>
        { state with shared := { state.shared with thread := thread } }

/-- What `start` has made of a new thread. -/
def started : State Task where
  shared := ⟨FoxThread.started.shared, []⟩
  threads := fun _ => .outside

def Action.isReadCb : Action Task → Bool
  | .readCb _ => true
  | .caller _ _ => false

/-- How many callbacks the worker has taken from the queue. -/
def taken (thread : Shared Task) : Nat :=
  thread.pushed.length - thread.callbacks.length

/-- What the calls that have returned have been promised. -/
structure Reported (state : State Task) : Prop where
  /-- The callbacks before the first null one are executed in order, none of them twice. -/
  executed : state.shared.thread.executed <+: beforeStop state.shared.thread.pushed
  places : ∀ ret ∈ state.shared.returned, ret.cbs <+: state.shared.thread.pushed.drop ret.first
  /-- None of the callbacks of a call that has returned false is in the queue, nor has one been
  executed. -/
  failed : ∀ ret ∈ state.shared.returned, ret.result = false →
    ∀ place, ret.first ≤ place → place < ret.first + ret.cbs.length →
      place < taken state.shared.thread ∧ ¬ place < state.shared.thread.executed.length
  /-- A callback of a call that has returned true has been executed or will be, unless it is behind
  a null one: `read_cb` can go on, and so many steps of it are enough, whatever else is done. -/
  done : ∀ ret ∈ state.shared.returned, ret.result = true →
    ∀ place, ret.first ≤ place → place < ret.first + ret.cbs.length →
      place < (beforeStop state.shared.thread.pushed).length →
        (place < state.shared.thread.executed.length ∨ ∃ size, (step state (.readCb size)).isSome) ∧
        ∀ actions after, replay step (fun _ _ => true) actions state = some after →
          2 * (place + 1) + 4 ≤ actions.countP Action.isReadCb →
            place < after.shared.thread.executed.length

/-- The callbacks at some places have been dropped by the worker: it has taken them, and a null
one is before them. -/
def Dropped (thread : Shared Task) (first : Nat) (cbs : List (Option Task)) : Prop :=
  first + cbs.length ≤ taken thread ∧ (beforeStop thread.pushed).length ≤ first

instance (thread : Shared Task) (first : Nat) (cbs : List (Option Task)) :
    Decidable (Dropped thread first cbs) :=
  inferInstanceAs (Decidable (_ ∧ _))

/-- A `send` fails only for a call that has no callbacks, or none that the worker has not
dropped. -/
def Harmless (state : State Task) : Action Task → Prop
  | .caller thread (.send false) => ∀ first cbs, state.threads thread = .sending first cbs →
      cbs ≠ [] → Dropped state.shared.thread first cbs
  | _ => True

/-- What holds between any two steps. -/
structure Held (state : State Task) : Prop where
  logged : state.shared.thread.Logged
  sending : ∀ thread first cbs, state.threads thread = .sending first cbs →
    cbs <+: state.shared.thread.pushed.drop first
  places : ∀ ret ∈ state.shared.returned, ret.cbs <+: state.shared.thread.pushed.drop ret.first
  told : ∀ ret ∈ state.shared.returned, ret.result = true → ret.cbs ≠ [] →
    taken state.shared.thread < ret.first + ret.cbs.length →
      state.shared.thread.pipe ≠ [] ∨ state.shared.thread.worker = .received
  dropped : ∀ ret ∈ state.shared.returned, ret.result = false → ret.cbs ≠ [] →
    Dropped state.shared.thread ret.first ret.cbs

section Threads

variable {thread next : Shared Task} {cbs more : List (Option Task)} {first size : Nat}

theorem beforeStop_append_of_lt {pushed : List (Option Task)}
    (stopped : (beforeStop pushed).length < pushed.length) (later : List (Option Task)) :
    beforeStop (pushed ++ later) = beforeStop pushed := by
  induction pushed with
  | nil => exact absurd stopped (Nat.lt_irrefl 0)
  | cons callback pushed ih =>
      cases callback with
      | none => rfl
      | some task => exact congrArg (task :: ·) (ih (Nat.lt_of_succ_lt_succ stopped))

theorem taken_pushes (pushes : thread.Pushes next more) : taken next = taken thread := by
  rw [taken, pushes.pushed, pushes.callbacks, List.length_append, List.length_append,
    Nat.add_sub_add_right, taken]

theorem taken_le_readCb (read : thread.readCb size = some next) : taken thread ≤ taken next := by
  rw [taken, taken, (Shared.readCb_logs read).1]
  by_cases queued : next.callbacks = []
  · rw [queued]
    exact Nat.sub_le _ _
  · rw [(Shared.readCb_leaves read queued).1]

theorem places_append (within : cbs <+: thread.pushed.drop first)
    (pushes : thread.Pushes next more) : cbs <+: next.pushed.drop first := by
  rw [pushes.pushed, List.drop_append]
  exact within.trans (List.prefix_append _ _)

theorem end_le (some : cbs ≠ []) (within : cbs <+: thread.pushed.drop first) :
    first + cbs.length ≤ thread.pushed.length := by
  have length := within.length_le
  have positive := List.length_pos_iff.mpr some
  rw [List.length_drop] at length
  omega

theorem Dropped.pushes (dropped : Dropped thread first cbs) (some : cbs ≠ [])
    (pushes : thread.Pushes next more) : Dropped next first cbs := by
  have positive := List.length_pos_iff.mpr some
  have all : taken thread ≤ thread.pushed.length := Nat.sub_le _ _
  obtain ⟨past, behind⟩ := dropped
  rw [Dropped, taken_pushes pushes, pushes.pushed, beforeStop_append_of_lt (by omega)]
  exact ⟨past, behind⟩

theorem Dropped.readCb (dropped : Dropped thread first cbs)
    (read : thread.readCb size = some next) : Dropped next first cbs := by
  obtain ⟨past, behind⟩ := dropped
  rw [Dropped, (Shared.readCb_logs read).1]
  exact ⟨past.trans (taken_le_readCb read), behind⟩

end Threads

section Steps

variable {state after : State Task}

theorem Held.initial : Held (started : State Task) where
  logged := rfl
  sending := nofun
  places := nofun
  told := nofun
  dropped := nofun

/-- A step of a call: it pushes at most, the pipe keeps what it has, and a call may return. -/
theorem Held.put (held : Held state) {self : Nat} {now : Caller Task} {next : Shared Task}
    {more : List (Option Task)} {fresh : List (Return Task)}
    (pushes : state.shared.thread.Pushes next more)
    (pipe : state.shared.thread.pipe ≠ [] → next.pipe ≠ [])
    (sending : ∀ first cbs, now = .sending first cbs → cbs <+: next.pushed.drop first)
    (places : ∀ ret ∈ fresh, ret.cbs <+: next.pushed.drop ret.first)
    (told : ∀ ret ∈ fresh, ret.result = true → next.pipe ≠ [])
    (dropped : ∀ ret ∈ fresh, ret.result = false → ret.cbs ≠ [] →
      Dropped next ret.first ret.cbs) :
    Held (state.put self ⟨next, state.shared.returned ++ fresh⟩ now) where
  logged := held.logged.pushes pushes
  sending := fun thread first cbs calls => by
    obtain ⟨-, current⟩ | ⟨-, current⟩ := state.put_cases self _ now thread
    all_goals rw [current] at calls
    · exact sending first cbs calls
    · exact places_append (held.sending thread first cbs calls) pushes
  places := fun ret mem => by
    obtain before | isFresh := List.mem_append.mp mem
    · exact places_append (held.places ret before) pushes
    · exact places ret isFresh
  told := fun ret mem succeeded some left => by
    obtain before | isFresh := List.mem_append.mp mem
    · rw [Config.put_shared, taken_pushes pushes] at left
      obtain sent | received := held.told ret before succeeded some left
      · exact .inl (pipe sent)
      · exact .inr (pushes.worker.trans received)
    · exact .inl (told ret isFresh succeeded)
  dropped := fun ret mem failed some => by
    obtain before | isFresh := List.mem_append.mp mem
    · exact (held.dropped ret before failed some).pushes some pushes
    · exact dropped ret isFresh failed some

/-- A section under the lock that pushes some callbacks, and returns nothing. -/
theorem Held.pushes (held : Held state) {self : Nat} {now : Caller Task} {next : Shared Task}
    {more : List (Option Task)} (pushes : state.shared.thread.Pushes next more)
    (pipe : state.shared.thread.pipe ≠ [] → next.pipe ≠ [])
    (sending : ∀ first cbs, now = .sending first cbs → cbs <+: next.pushed.drop first) :
    Held (state.put self { state.shared with thread := next } now) := by
  have put : Held (state.put self ⟨next, state.shared.returned ++ []⟩ now) :=
    held.put pushes pipe sending nofun nofun nofun
  rwa [List.append_nil] at put

theorem drop_push (thread : Shared Task) (cbs : List (Option Task)) {first : Nat}
    {mine : List (Option Task)}
    (calls : Caller.sending thread.pushed.length cbs = .sending first mine) :
    mine <+: (thread.push cbs).pushed.drop first := by
  obtain ⟨rfl, rfl⟩ := Caller.sending.inj calls
  rw [Shared.push, List.drop_left]

/-- What a step of a call does to the thread. -/
theorem Ledger.call_pushes {ledger next : Ledger Task} {before now : Caller Task} {call : Call Task}
    (called : ledger.call before call = some (next, now)) :
    ∃ cbs, ledger.thread.Pushes next.thread cbs ∧
      (ledger.thread.pipe ≠ [] → next.thread.pipe ≠ []) := by
  cases before <;> cases call <;> cases called
  case outside.dispatch cb => exact ⟨[cb], ⟨rfl, rfl, rfl, rfl⟩, id⟩
  case outside.batchDispatch cbs => exact ⟨cbs, ⟨rfl, rfl, rfl, rfl⟩, id⟩
  case outside.stop sends =>
    refine ⟨[none], ?_⟩
    dsimp only
    unfold Shared.stop
    split
    case isTrue =>
      split
      case isTrue =>
        exact ⟨⟨rfl, rfl, rfl, rfl⟩, fun some => List.append_ne_nil_of_left_ne_nil some _⟩
      case isFalse => exact ⟨⟨rfl, rfl, rfl, rfl⟩, id⟩
    case isFalse => exact ⟨⟨rfl, rfl, rfl, rfl⟩, id⟩
  case sending.send first cbs sends =>
    refine ⟨[], ?_⟩
    dsimp only
    split
    case isTrue =>
      exact ⟨⟨rfl, rfl, (List.append_nil _).symm, (List.append_nil _).symm⟩, fun some =>
        List.append_ne_nil_of_left_ne_nil some _⟩
    case isFalse =>
      exact ⟨⟨rfl, rfl, (List.append_nil _).symm, (List.append_nil _).symm⟩, id⟩

/-- A step of a call keeps it, if no `send` fails that should not. -/
theorem Held.call (held : Held state) {self : Nat} {call : Call Task}
    (harmless : Harmless state (.caller self call))
    (stepped : step state (.caller self call) = some after) : Held after := by
  obtain ⟨⟨ledger, caller⟩, called, rfl⟩ := Option.map_eq_some_iff.mp stepped
  obtain ⟨more, pushes, pipe⟩ := Ledger.call_pushes called
  generalize calls : state.threads self = before at called
  cases before <;> cases call <;> cases called
  case outside.dispatch cb => exact held.pushes pushes pipe fun first mine => drop_push _ [cb]
  case outside.batchDispatch cbs => exact held.pushes pushes pipe fun first mine => drop_push _ cbs
  case outside.stop sends => exact held.pushes pushes pipe nofun
  case sending.send first cbs sends =>
    have mine := held.sending self first cbs calls
    refine held.put pushes pipe nofun ?_ ?_ ?_
    all_goals simp only [List.forall_mem_singleton]
    · exact places_append mine pushes
    · rintro rfl
      exact List.append_ne_nil_of_right_ne_nil _ (List.cons_ne_nil _ _)
    · rintro rfl some
      exact harmless first cbs calls some

theorem Held.readCb (held : Held state) {size : Nat}
    (stepped : step state (.readCb size) = some after) : Held after := by
  obtain ⟨next, read, rfl⟩ := Option.map_eq_some_iff.mp stepped
  have same := (Shared.readCb_logs read).1
  refine ⟨held.logged.readCb read, ?_, ?_, ?_, ?_⟩
  all_goals dsimp only
  · rw [same]
    exact held.sending
  · rw [same]
    exact held.places
  · intro ret mem succeeded some left
    have ends := end_le some (held.places ret mem)
    -- What has been taken is all of it, so that the rest of the queue must be what it was.
    have queued : next.callbacks ≠ [] := by
      intro empty
      rw [taken, empty, same, List.length_nil] at left
      omega
    obtain ⟨kept, received | ⟨pipe, away⟩⟩ := Shared.readCb_leaves read queued
    · exact .inr received
    · rw [taken, kept, same] at left
      rw [pipe]
      exact .inl ((held.told ret mem succeeded some left).resolve_right away)
  · exact fun ret mem failed some => (held.dropped ret mem failed some).readCb read

theorem Held.preserved (held : Held state) {action : Action Task} (harmless : Harmless state action)
    (stepped : step state action = some after) : Held after := by
  cases action with
  | caller thread call => exact held.call harmless stepped
  | readCb size => exact held.readCb stepped

theorem drives : Drives (@step Task) (fun state => state.shared.thread) Action.isReadCb where
  read := fun state action after stepped isRead => by
    cases action with
    | caller thread call => cases isRead
    | readCb size =>
        obtain ⟨next, read, rfl⟩ := Option.map_eq_some_iff.mp stepped
        exact ⟨size, read⟩
  push := fun state action after stepped isRead => by
    cases action with
    | caller thread call =>
        obtain ⟨⟨ledger, caller⟩, called, rfl⟩ := Option.map_eq_some_iff.mp stepped
        obtain ⟨cbs, pushes, -⟩ := Ledger.call_pushes called
        exact ⟨cbs, pushes⟩
    | readCb size => cases isRead

theorem Held.of_runs (run : Runs step Harmless started state) : Held state :=
  run.invariant (fun _ _ _ held harmless stepped => held.preserved harmless stepped) .initial

/-- A worker in its loop has executed all that it has taken. -/
theorem taken_looping {thread : Shared Task} (logged : thread.Logged)
    (looping : thread.worker = .looping) : taken thread = thread.executed.length := by
  rw [taken, logged, looping]
  simp [Worker.batch]

/-- While a callback of a call that has returned true has not been executed, `read_cb` can go
on. -/
theorem Held.able (held : Held state) {ret : Return Task} (mem : ret ∈ state.shared.returned)
    (succeeded : ret.result = true) {place : Nat} (inside : place < ret.first + ret.cbs.length)
    (some : ret.cbs ≠ []) (live : place < (beforeStop state.shared.thread.pushed).length)
    (left : ¬ place < state.shared.thread.executed.length) :
    ∃ size, (step state (.readCb size)).isSome := by
  suffices able : ∃ size, (state.shared.thread.readCb size).isSome by
    obtain ⟨size, able⟩ := able
    exact ⟨size, by rwa [step, Option.isSome_map]⟩
  by_cases looping : state.shared.thread.worker = .looping
  · have queued : taken state.shared.thread < ret.first + ret.cbs.length := by
      rw [taken_looping held.logged looping]
      omega
    obtain sent | received := held.told ret mem succeeded some queued
    · exact ⟨1, Shared.able_looping looping sent⟩
    · cases looping.symm.trans received
  · refine (held.logged.able looping).resolve_left fun all => ?_
    rw [all] at left
    exact left live

theorem Held.reported (held : Held state) : Reported state where
  executed := held.logged.executed_first
  places := held.places
  failed := fun ret mem failed place behind inside => by
    have some : ret.cbs ≠ [] := List.ne_nil_of_length_pos (by omega)
    obtain ⟨past, stopped⟩ := held.dropped ret mem failed some
    have few := held.logged.executed_first.length_le
    exact ⟨by omega, by omega⟩
  done := fun ret mem succeeded place behind inside live => by
    have some : ret.cbs ≠ [] := List.ne_nil_of_length_pos (by omega)
    refine ⟨?_, fun actions after replayed long => ?_⟩
    · by_cases executed : place < state.shared.thread.executed.length
      · exact .inl executed
      · exact .inr (held.able mem succeeded inside some live executed)
    · exact (drives.serves held.logged live replayed (by omega)).2.2

end Steps

/-- In a run whose sends fail only for callbacks that the worker has dropped, calls do what they
return. -/
theorem reported_of_runs {state : State Task} (run : Runs step Harmless started state) :
    Reported state :=
  (Held.of_runs run).reported

section Examples

/-- A `send` succeeds for the first callback, and the next fails before the worker has received. -/
def full : List (Action Nat) :=
  [.caller 0 (.dispatch (some 1)), .caller 0 (.send true), .caller 1 (.dispatch (some 2)),
    .caller 1 (.send false)]

/-- A worker that receives one byte, and goes through the callbacks it takes. -/
def worked : List (Action Nat) :=
  List.replicate 6 (.readCb 1)

/-- A callback is executed for which `dispatch` has returned false. -/
theorem not_reported : ∃ state : State Nat, Runs step (fun _ _ => True) started state ∧
    state.shared.returned = [⟨0, [some 1], true⟩, ⟨1, [some 2], false⟩] ∧
      state.shared.thread.executed = [1, 2] ∧ ¬ Reported state := by
  obtain ⟨state, replayed, returned, executed⟩ : ∃ state,
      replay step (fun _ _ => true) (full ++ worked) started = some state ∧
        state.shared.returned = [⟨0, [some 1], true⟩, ⟨1, [some 2], false⟩] ∧
          state.shared.thread.executed = [1, 2] := ⟨_, rfl, rfl, rfl⟩
  refine ⟨state, Runs.of_replay (fun _ _ _ => trivial) replayed, returned, executed, ?_⟩
  intro reported
  have last : ⟨1, [some 2], false⟩ ∈ state.shared.returned := by rw [returned]; decide
  have never := (reported.failed _ last rfl 1 (by decide) (by decide)).2
  rw [executed] at never
  exact never (by decide)

/-- Whether a `send` may fail. -/
def checks (state : State Task) : Action Task → Bool
  | .caller thread (.send false) =>
      match state.threads thread with
      | .sending first cbs => Dropped state.shared.thread first cbs
      | .outside => true
  | _ => true

theorem harmless_of_checks (state : State Task) (action : Action Task)
    (checked : checks state action = true) : Harmless state action := by
  unfold Harmless
  split
  case h_1 thread =>
    intro first cbs calls some
    rw [checks, calls] at checked
    exact of_decide_eq_true checked
  case h_2 => trivial

/-- A callback is pushed behind a null one, and its `send` fails after the worker has ended. -/
def late : List (Action Nat) :=
  [.caller 0 (.dispatch (some 1)), .caller 0 (.send true), .caller 1 (.stop true),
    .caller 2 (.dispatch (some 2))] ++ List.replicate 5 (.readCb 1) ++ [.caller 2 (.send false)]

/-- It is neither in the queue nor executed. -/
theorem reported_of_runs_late : ∃ state : State Nat, Runs step Harmless started state ∧
    state.shared.returned = [⟨0, [some 1], true⟩, ⟨2, [some 2], false⟩] ∧
      state.shared.thread.executed = [1] ∧ Reported state := by
  obtain ⟨state, replayed, returned, executed⟩ : ∃ state,
      replay step checks late started = some state ∧
        state.shared.returned = [⟨0, [some 1], true⟩, ⟨2, [some 2], false⟩] ∧
          state.shared.thread.executed = [1] := ⟨_, rfl, rfl, rfl⟩
  have run : Runs step Harmless started state := Runs.of_replay harmless_of_checks replayed
  exact ⟨state, run, returned, executed, reported_of_runs run⟩

end Examples

end Xten.FoxThread.Failing
