import Xten.FoxThread.Pool
import Xten.Std.Rounds

/-!
# Whether `check` ends

`check` with the calls of `releaseFoxThread` and `check` at the end of its rounds, while nobody
else does anything. A thread that cannot take work goes behind the other free ones, and its
callback is the next again.
-/

namespace Xten.FoxThreadPool

open StateTransition Std.Interleaving Std.Rounds

variable {Task : Type}

/-- One step within a function of the pool. -/
def goAlone (place : Shared Task × Call Task) : Option (Shared Task × Call Task) :=
  place.1.go place.2

/-- The thread with `wrapcb` in its queue, which it has been told of. -/
def given (threads : Nat → FoxThread.Shared (Callback Task)) (thr : Nat) (cb : Task) :
    Nat → FoxThread.Shared (Callback Task) :=
  Function.update threads thr (((threads thr).push [some (.wrapcb thr cb)]).send 1)

/-- What is made of the threads by some callbacks that they are given. -/
def dispatched (threads : Nat → FoxThread.Shared (Callback Task)) (handed : List (Nat × Task)) :
    Nat → FoxThread.Shared (Callback Task) :=
  handed.foldl (fun threads entry => given threads entry.1 entry.2) threads

/-- A call of `check` ends, and the callbacks that have not been given to a thread by then are
those that are left in the queue. -/
def CheckEnds (shared : Shared Task) : Prop :=
  ∃ after handed, (after, .outside) ∈ eval goAlone (shared, .checking 0) ∧
    shared.callbacks = handed.map Prod.snd ++ after.callbacks ∧
      after.threads = dispatched shared.threads handed

/-- The same of one of the checks, with those that go on when it ends. -/
def EndsFrom (below : Nat) (shared : Shared Task) : Prop :=
  ∃ after handed, Reaches goAlone (shared, .checking below) (after, .outside) ∧
    shared.callbacks = handed.map Prod.snd ++ after.callbacks ∧
      after.threads = dispatched shared.threads handed

def Shared.isStart (shared : Shared Task) (thr : Nat) : Bool :=
  (shared.threads thr).start

section Rounds

variable {shared next : Shared Task} {thr below : Nat} {rest : List Nat} {cb : Task}
  {cbs : List Task}

/-- There is nothing that `check` could do. -/
theorem EndsFrom.of_idle (idle : shared.start = true → shared.free = [] ∨ shared.callbacks = [])
    (below : Nat) : EndsFrom below shared := by
  have ends : ∀ below, goAlone (shared, .checking below) = some (shared, Shared.back below) := by
    intro below
    rw [goAlone, Shared.go, Shared.check]
    split
    case h_1 on free queue =>
      obtain empty | empty := idle on
      · cases free.symm.trans empty
      · cases queue.symm.trans empty
    case h_2 => rfl
  refine ⟨shared, [], ?_, rfl, rfl⟩
  induction below with
  | zero => exact .single (ends 0)
  | succ below ih => exact .head (ends (below + 1)) ih

/-- What `check` takes in its first section. -/
def Shared.takes (shared : Shared Task) (thr : Nat) (rest : List Nat) (cb : Task)
    (cbs : List Task) : Shared Task :=
  { shared with
    free := rest
    callbacks := cbs
    useCount := Function.update shared.useCount thr 1
    handed := shared.handed ++ [(thr, cb)] }

theorem go_takes (on : shared.start = true) (free : shared.free = thr :: rest)
    (queue : shared.callbacks = cb :: cbs) (below : Nat) :
    goAlone (shared, .checking below) =
      some (shared.takes thr rest cb cbs, .handing below thr cb) := by
  simp [goAlone, Shared.go, Shared.check, Shared.takes, on, free, queue]

theorem go_leaves (below : Nat) : goAlone (shared, .leaving below thr) =
    some ({ shared with
      useCount := Function.update shared.useCount thr (shared.useCount thr - 1) },
      if shared.useCount thr = 1 then .releasing (below + 1) thr else .checking below) :=
  rfl

/-- A thread that has not been started: it goes behind the others, and the check that comes with
its release finds the same callbacks. -/
theorem round_stopped (on : shared.start = true) (free : shared.free = thr :: rest)
    (queue : shared.callbacks = cb :: cbs) (stopped : shared.isStart thr = false) (below : Nat) :
    ∃ next, Reaches₁ goAlone (shared, .checking below) (next, .checking (below + 1)) ∧
      next.start = true ∧ next.free = rest ++ [thr] ∧ next.callbacks = shared.callbacks ∧
        next.threads = shared.threads := by
  have puts : goAlone (shared.takes thr rest cb cbs, .handing below thr cb) =
      some ({ shared.takes thr rest cb cbs with callbacks := cb :: cbs }, .leaving below thr) :=
    if_neg (by rw [Bool.not_eq_true]; exact stopped)
  have last : (shared.takes thr rest cb cbs).useCount thr = 1 := Function.update_self _ _ _
  have leaves := @go_leaves _ { shared.takes thr rest cb cbs with callbacks := cb :: cbs } thr below
  rw [if_pos last] at leaves
  exact ⟨_, .head (go_takes on free queue below) (.head puts (.head leaves (.single rfl))), on, rfl,
    queue.symm, rfl⟩

/-- A thread that has been started takes the callback, and is free no longer. -/
theorem round_started (on : shared.start = true) (free : shared.free = thr :: rest)
    (queue : shared.callbacks = cb :: cbs) (started : shared.isStart thr = true) (below : Nat) :
    ∃ next, Reaches₁ goAlone (shared, .checking below) (next, .checking below) ∧
      next.start = true ∧ next.free = rest ∧ next.callbacks = cbs ∧
        next.threads = given shared.threads thr cb := by
  let taken := shared.takes thr rest cb cbs
  let pushed := { taken.setThread thr ((taken.threads thr).push [some (.wrapcb thr cb)]) with
    useCount := Function.update taken.useCount thr (taken.useCount thr + 1) }
  have pushes : goAlone (taken, .handing below thr cb) = some (pushed, .sending below thr) :=
    if_pos started
  let sent := pushed.setThread thr ((pushed.threads thr).send 1)
  have more : ¬ sent.useCount thr = 1 := by
    have one : taken.useCount thr = 1 := Function.update_self _ _ _
    have two : sent.useCount thr = taken.useCount thr + 1 := Function.update_self _ _ _
    omega
  have leaves := @go_leaves _ sent thr below
  rw [if_neg more] at leaves
  refine ⟨_, .head (go_takes on free queue below) (.head pushes (.head rfl (.single leaves))), on,
    rfl, rfl, ?_⟩
  change Function.update (Function.update shared.threads thr _) thr _ = _
  rw [Function.update_idem, given]
  congr 1
  exact congrArg (fun thread => FoxThread.Shared.send thread 1) (Function.update_self _ _ _)

theorem start_given (threads : Nat → FoxThread.Shared (Callback Task)) (thr : Nat) (cb : Task)
    (other : Nat) : (given threads thr cb other).start = (threads other).start := by
  obtain rfl | apart := eq_or_ne other thr
  · rw [given, Function.update_self]
    rfl
  · rw [given, Function.update_of_ne apart]

theorem isStart_of_given (threads : next.threads = given shared.threads thr cb) :
    next.isStart = shared.isStart := by
  funext other
  rw [Shared.isStart, threads, start_given, Shared.isStart]

theorem isStart_of_same (threads : next.threads = shared.threads) :
    next.isStart = shared.isStart := by
  funext other
  rw [Shared.isStart, threads, Shared.isStart]

end Rounds

section Ending

variable {shared : Shared Task} {free rest : List Nat} {started : Nat → Bool} {count thr : Nat}

/-- All the free threads have been started, or enough of them for the callbacks. -/
def Serves (started : Nat → Bool) (free : List Nat) (count : Nat) : Prop :=
  (∀ thr ∈ free, started thr = true) ∨ count ≤ free.countP started

theorem Serves.rotate (serves : Serves started (thr :: rest) count) :
    Serves started (rest ++ [thr]) count := by
  have same : (rest ++ [thr]).Perm (thr :: rest) := List.perm_append_singleton thr rest
  refine serves.imp (fun all other mem => all other (same.mem_iff.mp mem)) fun enough => ?_
  rwa [same.countP_eq]

theorem Serves.tail (serves : Serves started (thr :: rest) (count + 1)) :
    Serves started rest count := by
  refine serves.imp (fun all other mem => all other (List.mem_cons_of_mem _ mem)) fun enough => ?_
  have most : (thr :: rest).countP started ≤ rest.countP started + 1 := by
    rw [List.countP_cons]
    split <;> omega
  omega

/-- Below the first thread that has been started, the others make their rounds. -/
theorem EndsFrom.behind {cb : Task} {cbs : List Task} (started : shared.isStart thr = true)
    (taken : ∀ next : Shared Task, next.start = true → next.callbacks = cbs →
      Serves next.isStart next.free cbs.length → ∀ below, EndsFrom below next)
    (front : List Nat) (stopped : ∀ other ∈ front, shared.isStart other = false)
    (on : shared.start = true) (isFree : shared.free = front ++ thr :: rest)
    (queue : shared.callbacks = cb :: cbs)
    (serves : Serves shared.isStart shared.free (cbs.length + 1)) (below : Nat) :
    EndsFrom below shared := by
  induction front generalizing shared rest below with
  | nil =>
      obtain ⟨next, round, stillOn, left, callbacks, threads⟩ :=
        round_started on isFree queue started below
      have same := isStart_of_given threads
      obtain ⟨after, handed, reaches, rest, given⟩ := taken next stillOn callbacks (by
        rw [same, left]
        rw [isFree] at serves
        exact serves.tail) below
      refine ⟨after, (thr, cb) :: handed, round.to_reflTransGen.trans reaches, ?_, ?_⟩
      · rw [queue, ← callbacks, rest]
        rfl
      · rw [given, threads]
        rfl
  | cons other front ih =>
      rw [List.cons_append] at isFree
      obtain ⟨next, round, stillOn, left, callbacks, threads⟩ :=
        round_stopped on isFree queue (stopped other List.mem_cons_self) below
      have same := isStart_of_same threads
      rw [List.append_assoc, List.cons_append] at left
      have ends := @ih next (rest ++ [other]) (same ▸ started)
        (fun one mem => same ▸ stopped one (List.mem_cons_of_mem _ mem)) stillOn left
        (callbacks.trans queue) (by
          rw [same, left, ← List.cons_append, ← List.append_assoc]
          rw [isFree] at serves
          exact serves.rotate) (below + 1)
      obtain ⟨after, handed, reaches, rest, given⟩ := ends
      exact ⟨after, handed, round.to_reflTransGen.trans reaches, callbacks ▸ rest, threads ▸ given⟩

/-- With enough threads that have been started, the callbacks are given one by one. -/
theorem EndsFrom.of_serves (cbs : List Task) (shared : Shared Task) (on : shared.start = true)
    (queue : shared.callbacks = cbs) (serves : Serves shared.isStart shared.free cbs.length)
    (below : Nat) : EndsFrom below shared := by
  induction cbs generalizing shared below with
  | nil => exact .of_idle (fun _ => .inr queue) below
  | cons cb cbs ih =>
      match found : shared.free.find? shared.isStart with
      | some thr =>
          obtain ⟨started, front, rest, isFree, stopped⟩ := List.find?_eq_some_iff_append.mp found
          refine .behind started (fun next on queue serves below => ih next on queue serves below)
            front (fun other mem => ?_) on isFree queue serves below
          simpa using stopped other mem
      | none =>
          have none : ∀ thr ∈ shared.free, shared.isStart thr = false := by
            simpa [List.find?_eq_none] using found
          obtain all | enough := serves
          · refine .of_idle (fun _ => .inl (List.eq_nil_iff_forall_not_mem.mpr fun thr mem => ?_)) below
            cases (all thr mem).symm.trans (none thr mem)
          · have zero : shared.free.countP shared.isStart = 0 :=
              List.countP_eq_zero.mpr fun thr mem => by simp [none thr mem]
            rw [zero] at enough
            cases enough

end Ending

section Standing

/-- There are more callbacks than free threads that could take them, and a thread that cannot. -/
structure Overdue (shared : Shared Task) : Prop where
  on : shared.start = true
  stopped : ∃ thr ∈ shared.free, shared.isStart thr = false
  short : shared.free.countP shared.isStart < shared.callbacks.length

/-- The next round does not change that. -/
theorem Overdue.round {shared : Shared Task} (overdue : Overdue shared) (below : Nat) :
    ∃ next deeper, Reaches₁ goAlone (shared, .checking below) (next, .checking deeper) ∧
      Overdue next := by
  obtain ⟨on, ⟨stopped, isFree, isStopped⟩, short⟩ := overdue
  match free : shared.free, queue : shared.callbacks with
  | [], _ =>
      rw [free] at isFree
      cases isFree
  | thr :: rest, [] =>
      rw [queue] at short
      cases short
  | thr :: rest, cb :: cbs =>
      rw [free] at isFree short
      rw [queue, List.length_cons] at short
      cases started : shared.isStart thr with
      | true =>
          obtain ⟨next, round, stillOn, left, callbacks, threads⟩ :=
            round_started on free queue started below
          have same := isStart_of_given threads
          rw [List.countP_cons_of_pos started] at short
          refine ⟨next, below, round, stillOn, ⟨stopped, ?_, same ▸ isStopped⟩, ?_⟩
          · rw [left]
            obtain rfl | mem := List.mem_cons.mp isFree
            · cases started.symm.trans isStopped
            · exact mem
          · rw [left, callbacks, same]
            omega
      | false =>
          obtain ⟨next, round, stillOn, left, callbacks, threads⟩ :=
            round_stopped on free queue started below
          have same := isStart_of_same threads
          have perm : (rest ++ [thr]).Perm (thr :: rest) := List.perm_append_singleton thr rest
          refine ⟨next, below + 1, round, stillOn, ⟨stopped, ?_, same ▸ isStopped⟩, ?_⟩
          · rw [left]
            exact perm.mem_iff.mpr isFree
          · rw [left, callbacks, queue, same, perm.countP_eq]
            exact short

theorem Overdue.not_checkEnds {shared : Shared Task} (overdue : Overdue shared) :
    ¬ CheckEnds shared := by
  rintro ⟨after, handed, ends, -⟩
  let standing (place : Shared Task × Call Task) : Prop :=
    Overdue place.1 ∧ ∃ below, place.2 = .checking below
  refine @not_dom_of_rounds _ goAlone standing ?_ (shared, .checking 0) ⟨overdue, 0, rfl⟩
    (Part.dom_iff_mem.mpr ⟨_, ends⟩)
  rintro ⟨shared, call⟩ ⟨overdue, below, rfl⟩
  obtain ⟨next, deeper, round, still⟩ := overdue.round below
  exact ⟨(next, .checking deeper), round, still, deeper, rfl⟩

end Standing

/-- A call of `check` ends exactly if the pool is not started, or all its free threads are, or
there are no more callbacks than free threads that are. -/
theorem checkEnds_iff (shared : Shared Task) : CheckEnds shared ↔
    shared.start = false ∨ (∀ thr ∈ shared.free, shared.isStart thr = true) ∨
      shared.callbacks.length ≤ shared.free.countP shared.isStart := by
  constructor
  · intro ends
    by_contra none
    rw [not_or, not_or, Bool.not_eq_false, Nat.not_le] at none
    obtain ⟨on, some, short⟩ := none
    refine Overdue.not_checkEnds ⟨on, ?_, short⟩ ends
    simpa using some
  · intro enough
    have ends : EndsFrom 0 shared := by
      obtain off | serves := enough
      · exact .of_idle (fun on => by cases off.symm.trans on) 0
      · by_cases on : shared.start = true
        · exact .of_serves shared.callbacks shared on rfl serves 0
        · exact .of_idle (fun isOn => absurd isOn on) 0
    obtain ⟨after, handed, reaches, rest, given⟩ := ends
    exact ⟨after, handed, mem_eval.mpr ⟨reaches, rfl⟩, rest, given⟩

/-- The one thread of a pool is stopped, and a callback is passed to the pool. -/
def stoppedRun : List (Action Nat) :=
  [.call 1 .start, .go 1, .call 1 (.stop 0), .readCb 0 1, .readCb 0 0, .readCb 0 0,
    .call 1 (.dispatch 7)]

/-- The call of `check` for it does not end. -/
theorem not_checkEnds : ∃ state : State Nat, Runs step (fun _ _ => True) (constructed 1) state ∧
    state.threads 1 = .checking 0 ∧ ¬ CheckEnds state.shared := by
  obtain ⟨state, replayed, checks, on, free, off, queue⟩ : ∃ state,
      replay step (fun _ _ => true) stoppedRun (constructed 1) = some state ∧
        state.threads 1 = .checking 0 ∧ state.shared.start = true ∧ state.shared.free = [0] ∧
          state.shared.isStart 0 = false ∧ state.shared.callbacks = [7] :=
    ⟨_, rfl, rfl, rfl, rfl, rfl, rfl⟩
  refine ⟨state, Runs.of_replay (fun _ _ _ => trivial) replayed, checks, Overdue.not_checkEnds ?_⟩
  exact ⟨on, ⟨0, by rw [free]; decide, off⟩, by simp [free, queue, off]⟩

end Xten.FoxThreadPool
