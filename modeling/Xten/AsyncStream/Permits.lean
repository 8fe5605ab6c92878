import Xten.Std.Holdings
import Xten.AsyncStream.Connection

/-!
# One reader and one writer

The permits of `_waitFiberSem` are available, with a call of `Start`, or with a fiber that
reads or writes; there are two of them, as long as no exception leaves the `innerClose` at
the end of `doRead`.
-/

namespace Xten.AsyncSocketStream

open Std.Interleaving
open FiberSemphore (FiberId)

/-- The permits that a call of `Start` has taken. -/
def Thread.permits : Thread → Nat
  | .waiting second _ => if second then 1 else 0
  | .halfway | .startingWrite => 1
  | .entered | .calling | .failing | .startingRead => 2
  | .posting left => left
  | _ => 0

/-- A fiber in `doRead` that has not given its permit back. -/
def Thread.reader : Thread → Nat
  | .reading | .closing | .postingRead => 1
  | _ => 0

/-- A fiber in `doWrite` that has not given its permit back. -/
def Thread.writer : Thread → Nat
  | .writing | .postingWrite => 1
  | _ => 0

/-- No exception leaves the `innerClose` at the end of `doRead`. -/
def Contained (state : State) (action : FiberId × Action) : Prop :=
  state.threads action.1 = .closing → action.2 ≠ .go false

/-- The permits available, the ones that calls of `Start` have (`taken`, and those that have
been handed over and wait for their fiber), and the fibers that read and write. -/
structure Permits (state : State) (taken readers writers : Nat) : Prop where
  starts : state.Sums Thread.permits taken
  reads : state.Sums Thread.reader readers
  writes : state.Sums Thread.writer writers
  two : state.shared.waitFiberSem.concurrency +
    (taken + state.shared.waitFiberSem.ready.length) +
      (state.shared.reads + readers + (state.shared.writes + writers)) = 2
  oneReader : state.shared.reads + readers ≤ 1
  oneWriter : state.shared.writes + writers ≤ 1
  /-- A new pair is started when both fibers of the old one have ended. -/
  ended : ∀ fiber, state.threads fiber = .startingRead →
    state.shared.reads + readers = 0 ∧ state.shared.writes + writers = 0

/-- One reader and one writer at most, which start when the ones before have ended. -/
def OnePair (state : State) : Prop :=
  ∃ taken readers writers, Permits state taken readers writers

/-- A call of `Start` that is about to schedule `doWrite`. -/
def Thread.willWrite : Thread → Nat
  | .startingWrite => 1
  | _ => 0

theorem Thread.willWrite_le (thread : Thread) : thread.willWrite ≤ thread.permits := by
  cases thread <;> first | exact Nat.zero_le _ | exact le_rfl

/-- The invariant: there is no other writer while one is about to be scheduled. -/
structure Balanced (state : State) (taken readers writers coming : Nat) : Prop where
  starts : state.Sums Thread.permits taken
  reads : state.Sums Thread.reader readers
  writes : state.Sums Thread.writer writers
  comes : state.Sums Thread.willWrite coming
  two : state.shared.waitFiberSem.concurrency +
    (taken + state.shared.waitFiberSem.ready.length) +
      (state.shared.reads + readers + (state.shared.writes + writers)) = 2
  oneReader : state.shared.reads + readers ≤ 1
  oneWriter : state.shared.writes + writers + coming ≤ 1

section Steps

variable {state later : State} {fiber : FiberId} {shared : Shared} {next : Thread}
  {taken readers writers coming : Nat}

theorem Balanced.permits (balanced : Balanced state taken readers writers coming) :
    Permits state taken readers writers := by
  have two := balanced.two
  have oneWriter := balanced.oneWriter
  refine ⟨balanced.starts, balanced.reads, balanced.writes, two, balanced.oneReader, by omega,
    fun fiber starting => ?_⟩
  have both := balanced.starts.le fiber
  rw [starting] at both
  change 2 ≤ taken at both
  omega

/-- The permits go from hand to hand. -/
theorem Balanced.put {taken' readers' writers' coming' : Nat}
    (balanced : Balanced state taken readers writers coming)
    (starts : taken' + (state.threads fiber).permits = taken + next.permits)
    (reads : readers' + (state.threads fiber).reader = readers + next.reader)
    (writes : writers' + (state.threads fiber).writer = writers + next.writer)
    (comes : coming' + (state.threads fiber).willWrite = coming + next.willWrite)
    (two : shared.waitFiberSem.concurrency + (taken' + shared.waitFiberSem.ready.length) +
      (shared.reads + readers' + (shared.writes + writers')) = 2)
    (oneReader : shared.reads + readers' ≤ 1)
    (oneWriter : shared.writes + writers' + coming' ≤ 1) :
    Balanced (state.put fiber shared next) taken' readers' writers' coming' :=
  ⟨balanced.starts.put starts, balanced.reads.put reads, balanced.writes.put writes,
    balanced.comes.put comes, two, oneReader, oneWriter⟩

/-- Some numbers are in balance. -/
def InBalance (state : State) : Prop :=
  ∃ taken readers writers coming, Balanced state taken readers writers coming

/-- No permit changes hands. -/
theorem InBalance.keep (balance : InBalance state)
    (permits : next.permits = (state.threads fiber).permits)
    (reader : next.reader = (state.threads fiber).reader)
    (writer : next.writer = (state.threads fiber).writer)
    (willWrite : next.willWrite = (state.threads fiber).willWrite)
    (sem : shared.waitFiberSem = state.shared.waitFiberSem)
    (reads : shared.reads = state.shared.reads) (writes : shared.writes = state.shared.writes) :
    InBalance (state.put fiber shared next) := by
  obtain ⟨taken, readers, writers, coming, balanced⟩ := balance
  refine ⟨taken, readers, writers, coming, balanced.put ?_ ?_ ?_ ?_ ?_ ?_ ?_⟩
  · rw [permits]
  · rw [reader]
  · rw [writer]
  · rw [willWrite]
  · rw [sem, reads, writes]
    exact balanced.two
  · rw [reads]
    exact balanced.oneReader
  · rw [writes]
    exact balanced.oneWriter

/-- A permit is given back, or handed to the next waiter. -/
theorem InBalance.post (balance : InBalance state)
    (one : next.permits + next.reader + next.writer + 1 = (state.threads fiber).permits +
      (state.threads fiber).reader + (state.threads fiber).writer)
    (writer : next.writer ≤ (state.threads fiber).writer)
    (willWrite : next.willWrite = (state.threads fiber).willWrite) :
    InBalance (state.put fiber state.shared.post next) := by
  obtain ⟨taken, readers, writers, coming, balanced⟩ := balance
  have two := balanced.two
  have oneReader := balanced.oneReader
  have oneWriter := balanced.oneWriter
  have starts := balanced.starts.le fiber
  have reads := balanced.reads.le fiber
  have writes := balanced.writes.le fiber
  have posted : state.shared.post.waitFiberSem.concurrency +
      state.shared.post.waitFiberSem.ready.length =
        state.shared.waitFiberSem.concurrency + state.shared.waitFiberSem.ready.length + 1 := by
    simp only [Shared.post, FiberSemphore.Shared.post]
    split
    · simp only [List.length_append, List.length_singleton]
      omega
    · simp only
      omega
  refine ⟨taken + next.permits - (state.threads fiber).permits,
    readers + next.reader - (state.threads fiber).reader,
    writers + next.writer - (state.threads fiber).writer, coming,
    balanced.put ?_ ?_ ?_ (by rw [willWrite]) ?_ ?_ ?_⟩
  all_goals
    have sameReads : state.shared.post.reads = state.shared.reads := rfl
    have sameWrites : state.shared.post.writes = state.shared.writes := rfl
    omega

/-- A permit is taken, or waited for. -/
theorem InBalance.wait {second : Bool} (balance : InBalance state)
    (was : state.threads fiber = if second then .halfway else .starting) :
    InBalance (state.put fiber (state.shared.wait fiber second).1
      (state.shared.wait fiber second).2) := by
  obtain ⟨taken, readers, writers, coming, balanced⟩ := balance
  have two := balanced.two
  unfold Shared.wait FiberSemphore.Shared.wait
  by_cases some : 0 < state.shared.waitFiberSem.concurrency
  · rw [if_pos some]
    have next : state.shared.waitFiberSem.concurrency - 1 +
        (taken + 1 + state.shared.waitFiberSem.ready.length) +
          (state.shared.reads + readers + (state.shared.writes + writers)) = 2 := by omega
    refine ⟨taken + 1, readers, writers, coming, balanced.put ?_ ?_ ?_ ?_ next balanced.oneReader
      balanced.oneWriter⟩
    all_goals
      rw [was]
      cases second <;> rfl
  · rw [if_neg some]
    refine ⟨taken, readers, writers, coming, balanced.put ?_ ?_ ?_ ?_ two balanced.oneReader
      balanced.oneWriter⟩
    all_goals
      rw [was]
      cases second <;> rfl

/-- A fiber that has been scheduled takes the permit that was handed to it. -/
theorem InBalance.resume {second : Bool} (balance : InBalance state)
    (was : state.threads fiber = .waiting second .suspended)
    (ready : ⟨ioWorker, fiber⟩ ∈ state.shared.waitFiberSem.ready) :
    InBalance (state.put fiber { state.shared with waitFiberSem :=
      { state.shared.waitFiberSem with
        ready := state.shared.waitFiberSem.ready.erase ⟨ioWorker, fiber⟩ } }
      (if second then .entered else .halfway)) := by
  obtain ⟨taken, readers, writers, coming, balanced⟩ := balance
  have two := balanced.two
  have shorter := List.length_erase_of_mem ready
  have some := List.length_pos_of_mem ready
  refine ⟨taken + 1, readers, writers, coming, balanced.put ?_ ?_ ?_ ?_ ?_ balanced.oneReader
    balanced.oneWriter⟩
  case refine_5 =>
    simp only
    omega
  all_goals
    rw [was]
    cases second <;> rfl

/-- `doRead` is scheduled by a call of `Start` that has both permits. -/
theorem InBalance.startRead (balance : InBalance state)
    (was : state.threads fiber = .startingRead) :
    InBalance (state.put fiber { state.shared with reads := state.shared.reads + 1 }
      .startingWrite) := by
  obtain ⟨taken, readers, writers, coming, balanced⟩ := balance
  have two := balanced.two
  have both := balanced.starts.le fiber
  have alone := balanced.comes.mono balanced.starts Thread.willWrite_le fiber
  rw [was] at both alone
  change 2 ≤ taken at both
  change coming + 2 ≤ taken + 0 at alone
  refine ⟨taken - 1, readers, writers, coming + 1, balanced.put ?_ ?_ ?_ ?_ ?_ ?_ ?_⟩
  case refine_1 =>
    rw [was]
    change taken - 1 + 2 = taken + 1
    omega
  case refine_5 | refine_6 | refine_7 =>
    simp only
    omega
  all_goals rw [was]; rfl

/-- `doWrite` is scheduled when there is no other writer. -/
theorem InBalance.startWrite (balance : InBalance state)
    (was : state.threads fiber = .startingWrite) :
    InBalance (state.put fiber { state.shared with writes := state.shared.writes + 1 }
      .started) := by
  obtain ⟨taken, readers, writers, coming, balanced⟩ := balance
  have two := balanced.two
  have oneWriter := balanced.oneWriter
  have one := balanced.starts.le fiber
  have comes := balanced.comes.le fiber
  rw [was] at one comes
  change 1 ≤ taken at one
  change 1 ≤ coming at comes
  refine ⟨taken - 1, readers, writers, coming - 1, balanced.put ?_ ?_ ?_ ?_ ?_ balanced.oneReader ?_⟩
  case refine_1 =>
    rw [was]
    change taken - 1 + 1 = taken + 0
    omega
  case refine_4 =>
    rw [was]
    change coming - 1 + 1 = coming + 0
    omega
  case refine_5 | refine_6 =>
    simp only
    omega
  all_goals rw [was]; rfl

/-- A fiber that has been scheduled begins to read. -/
theorem InBalance.beginRead (balance : InBalance state) (was : state.threads fiber = .idle)
    (some : 0 < state.shared.reads) :
    InBalance (state.put fiber { state.shared with reads := state.shared.reads - 1 } .reading) := by
  obtain ⟨taken, readers, writers, coming, balanced⟩ := balance
  have two := balanced.two
  have oneReader := balanced.oneReader
  refine ⟨taken, readers + 1, writers, coming, balanced.put ?_ ?_ ?_ ?_ ?_ ?_ balanced.oneWriter⟩
  case refine_5 | refine_6 =>
    simp only
    omega
  all_goals rw [was]; rfl

theorem InBalance.beginWrite (balance : InBalance state) (was : state.threads fiber = .idle)
    (some : 0 < state.shared.writes) :
    InBalance (state.put fiber { state.shared with writes := state.shared.writes - 1 }
      .writing) := by
  obtain ⟨taken, readers, writers, coming, balanced⟩ := balance
  have two := balanced.two
  have oneWriter := balanced.oneWriter
  refine ⟨taken, readers, writers + 1, coming, balanced.put ?_ ?_ ?_ ?_ ?_ balanced.oneReader ?_⟩
  case refine_5 | refine_6 =>
    simp only
    omega
  all_goals rw [was]; rfl

theorem retry_same : state.shared.retry.waitFiberSem = state.shared.waitFiberSem ∧
    state.shared.retry.reads = state.shared.reads ∧
      state.shared.retry.writes = state.shared.writes := by
  unfold Shared.retry
  simp only
  split <;> exact ⟨rfl, rfl, rfl⟩

theorem rearm_same : state.shared.rearm.waitFiberSem = state.shared.waitFiberSem ∧
    state.shared.rearm.reads = state.shared.reads ∧
      state.shared.rearm.writes = state.shared.writes := by
  unfold Shared.rearm
  split <;> exact ⟨rfl, rfl, rfl⟩

theorem InBalance.step {action : FiberId × Action} (balance : InBalance state)
    (contained : Contained state action) (taken : step state action = some later) :
    InBalance later := by
  obtain ⟨fiber, choice⟩ := action
  obtain ⟨result, executed, rfl⟩ := Option.map_eq_some_iff.mp taken
  change state.shared.exec fiber (state.threads fiber) choice = some result at executed
  clear taken
  unfold Contained at contained
  generalize was : state.threads fiber = here at executed contained
  revert executed
  fun_cases Shared.exec fiber state.shared here choice
  all_goals rintro ⟨⟩
  case case5 => exact balance.wait was
  case case7 second ready => exact balance.resume was ready
  case case9 => exact balance.wait was
  case case13 | case23 | case30 =>
    refine balance.keep ?_ ?_ ?_ ?_ rfl rfl rfl
    all_goals
      rw [was]
      split <;> rfl
  case case15 | case26 | case32 =>
    refine balance.post ?_ ?_ ?_
    all_goals rw [was]
    all_goals first | rfl | exact Nat.zero_le _
  case case17 =>
    obtain ⟨sem, reads, writes⟩ := @retry_same state
    refine balance.keep ?_ ?_ ?_ ?_ sem reads writes
    all_goals rw [was]; try rfl
  case case18 => exact balance.startRead was
  case case19 => exact balance.startWrite was
  case case21 some => exact balance.beginRead was some
  case case25 returns throws =>
    cases returns
    · exact absurd rfl (contained rfl)
    · exact absurd rfl throws
  case case27 =>
    obtain ⟨sem, reads, writes⟩ := @rearm_same state
    refine balance.keep ?_ ?_ ?_ ?_ sem reads writes
    all_goals rw [was]; try rfl
  case case28 some => exact balance.beginWrite was some
  all_goals
    refine balance.keep ?_ ?_ ?_ ?_ rfl rfl rfl
    all_goals rw [was]; try rfl

end Steps

section Runs

variable {connected autoConnect : Bool} {state : State}

/-- As long as no exception leaves the `innerClose` at the end of `doRead`, there are two
permits, and one reader and one writer at most. -/
theorem one_pair (run : Runs step Contained (fresh connected autoConnect) state) :
    OnePair state := by
  have start : InBalance (fresh connected autoConnect) :=
    ⟨0, 0, 0, 0, .zero fun _ => rfl, .zero fun _ => rfl, .zero fun _ => rfl, .zero fun _ => rfl, rfl,
      Nat.zero_le _, Nat.zero_le _⟩
  obtain ⟨taken, readers, writers, coming, balanced⟩ := run.invariant
    (fun _ _ _ balance contained taken => InBalance.step balance contained taken) start
  exact ⟨taken, readers, writers, balanced.permits⟩

/-- `Start` with a connected socket, up to the two fibers. -/
def startRun : List (FiberId × Action) :=
  (0, .start) :: List.replicate 7 (0, .go true)

def contains (state : State) (action : FiberId × Action) : Bool :=
  state.threads action.1 ≠ .closing || action.2 ≠ .go false

theorem contains_sound (state : State) (action : FiberId × Action)
    (passes : contains state action) : Contained state action := by
  intro closing
  simpa [contains, closing] using passes

def startedBoth : State := (replay step contains startRun (fresh true false)).get (by decide)

theorem one_pair_startRun : startedBoth.shared.reads = 1 ∧ startedBoth.shared.writes = 1 ∧
    OnePair startedBoth :=
  ⟨by decide, by decide, one_pair (.of_replay contains_sound (Option.some_get _).symm)⟩

/-- `doRecv` throws, and then a callback in the `innerClose` behind the loop does. -/
def throwRun : List (FiberId × Action) :=
  startRun ++ [(1, .beginRead), (1, .go false), (1, .go false)]

def thrown : State := (replay step (fun _ _ => true) throwRun (fresh true false)).get (by decide)

theorem not_one_pair : ¬ ∀ (connected autoConnect : Bool) (state : State),
    Runs step (fun _ _ => True) (fresh connected autoConnect) state → OnePair state := by
  intro claimed
  obtain ⟨taken, readers, writers, permits⟩ :=
    claimed true false thrown (.of_replay (fun _ _ _ => trivial) (Option.some_get _).symm)
  have idle : ∀ fiber, thrown.threads fiber = .idle := by
    have run : replay step (fun _ _ => true) throwRun (fresh true false) = some thrown :=
      (Option.some_get _).symm
    exact replay_forall (motive := fun thread : Thread => thread = .idle) step_frame 2 run
      (by decide) (by decide) fun _ _ => rfl
  have noTaken := permits.starts.eq_zero fun fiber => by rw [idle]; rfl
  have noReaders := permits.reads.eq_zero fun fiber => by rw [idle]; rfl
  have noWriters := permits.writes.eq_zero fun fiber => by rw [idle]; rfl
  have two := permits.two
  rw [noTaken, noReaders, noWriters] at two
  revert two
  decide

end Runs

end Xten.AsyncSocketStream
