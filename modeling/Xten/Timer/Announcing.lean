import Xten.Timer.Representation

/-!
# The thread that sleeps until the next timer

`TimerManager` with any number of threads and a clock that does not go back. A section under
`m_mutex` is one step; `addTimer` and `listExpiredCb` read the clock before they lock, and
`reset` compares the periods before. What `getNextTimer` has reported last, and whether
`onTimerInsertedAtFront` has been called for a timer that was inserted since, is kept beside
the manager.
-/

namespace Xten.TimerManager.Announcing

open Std.Interleaving
open Timer (Address)

variable {Callback : Type}

/-- `reported` is the earliest deadline at the last call of `getNextTimer`, if there has been
one, and `queries` counts these calls. -/
structure Shared (Callback : Type) where
  manager : TimerManager Callback
  clock : BitVec 64
  reported : Option (Option (BitVec 64))
  queries : Nat
  announced : Bool

/-- What a thread does next. -/
inductive Thread (Callback : Type) where
  | outside
  /-- `addTimer` has made a timer. -/
  | adding (now ms : BitVec 64) (cb : Callback) (recurring : Bool)
  /-- `reset` is about to lock. -/
  | resetting (address : Address) (ms : BitVec 64) (fromNow : Bool)
  /-- `listExpiredCb` has read the clock. -/
  | expiring (now : BitVec 64)
  /-- `listExpiredCb` has found the set not to be empty. -/
  | listing (now : BitVec 64)
  /-- A timer is in front, and `onTimerInsertedAtFront` about to be called. -/
  | announcing (query : Nat)

/-- What a thread is told to do; `go` lets it go on, and gives it the address of a new timer. -/
inductive Call (Callback : Type) where
  | addTimer (ms : BitVec 64) (cb : Callback) (recurring : Bool)
  | cancel (address : Address)
  | refresh (address : Address)
  | reset (address : Address) (ms : BitVec 64) (fromNow : Bool)
  | listExpiredCb
  | getNextTimer
  | go (address : Address)

inductive Action (Callback : Type) where
  | thread (thread : Nat) (call : Call Callback)
  /-- Time passes. -/
  | tick (clock : BitVec 64)

namespace Shared

variable (shared : Shared Callback)

/-- A section that leaves a manager. -/
def leave {Result : Type} (result : Except Fault (TimerManager Callback × Result))
    (next : Result → Thread Callback) : Option (Shared Callback × Thread Callback) :=
  match result with
  | .ok (manager, value) => some ({ shared with manager := manager }, next value)
  | .error _ => none

/-- Where an inserter goes on. -/
def inserted (atFront : Bool) : Thread Callback :=
  if atFront then .announcing shared.queries else .outside

/-- One step of a thread; none if it cannot be taken. -/
def exec : Thread Callback → Call Callback → Option (Shared Callback × Thread Callback)
  | .outside, .addTimer ms cb recurring => some (shared, .adding shared.clock ms cb recurring)
  | .outside, .cancel address =>
      shared.leave (shared.manager.cancel address) fun _ => .outside
  | .outside, .refresh address =>
      shared.leave (shared.manager.refresh address shared.clock) fun _ => .outside
  | .outside, .reset address ms fromNow =>
      if ms = (shared.manager.timer address).ms && !fromNow then some (shared, .outside)
      else some (shared, .resetting address ms fromNow)
  | .outside, .listExpiredCb => some (shared, .expiring shared.clock)
  | .outside, .getNextTimer =>
      some ({ shared with
        manager := (shared.manager.getNextTimer shared.clock).1
        reported := some (shared.manager.timers.head?.map fun front =>
          (shared.manager.timer front).next)
        queries := shared.queries + 1
        announced := false }, .outside)
  | .adding now ms cb recurring, .go address =>
      if (shared.manager.timer address).cb.isNone then
        shared.leave (.ok (shared.manager.addTimer now ms cb recurring address)) shared.inserted
      else
        none
  | .resetting address ms fromNow, .go _ =>
      shared.leave (shared.manager.resetLocked address ms fromNow shared.clock) fun result =>
        shared.inserted result.2
  | .expiring now, .go _ =>
      some (shared, if shared.manager.timers.isEmpty then .outside else .listing now)
  | .listing now, .go address =>
      if (shared.manager.timer address).cb.isNone then
        shared.leave (shared.manager.listExpiredLocked now address) fun _ => .outside
      else
        none
  | .announcing query, .go _ =>
      some ({ shared with announced := shared.announced || query == shared.queries }, .outside)
  | _, _ => none

end Shared

abbrev State (Callback : Type) := Config (Shared Callback) (Thread Callback)

def step (state : State Callback) : Action Callback → Option (State Callback)
  | .thread thread call =>
      (state.shared.exec (state.threads thread) call).map fun next =>
        state.put thread next.1 next.2
  | .tick clock =>
      if state.shared.clock ≤ clock then
        some { state with shared := { state.shared with clock := clock } }
      else
        none

/-- A new manager. -/
def started (clock : BitVec 64) : State Callback where
  shared := ⟨fresh clock, clock, none, 0, false⟩
  threads := fun _ => .outside

/-- A timer is due before what was reported; nothing is, if there was no timer. -/
def Sooner (next : BitVec 64) : Option (BitVec 64) → Prop
  | none => True
  | some deadline => next < deadline

/-- If a timer is due before what was reported last, `onTimerInsertedAtFront` has been called
since then, or is about to be called by an inserter that came since then. -/
def Announced (state : State Callback) : Prop :=
  ∀ reported, state.shared.reported = some reported →
    (∃ address ∈ state.shared.manager.timers,
      Sooner (state.shared.manager.timer address).next reported) →
    state.shared.announced = true ∨
      ∃ thread, state.threads thread = .announcing state.shared.queries

/-- No timer that `refresh` moves, or that `listExpiredCb` puts back, is due before all that were
in the set. -/
def Unhurried (state : State Callback) : Action Callback → Prop
  | .thread thread call =>
      let manager := state.shared.manager
      match state.threads thread, call with
      | .outside, .refresh address => (manager.timer address).cb.isSome →
          manager.Behind (state.shared.clock + (manager.timer address).ms)
      | .listing now, .go nowTimer => ∀ address ∈ manager.expired now nowTimer,
          (manager.timer address).recurring = true →
            manager.Behind (now + (manager.timer address).ms)
      | _, _ => True
  | .tick _ => True

section Steps

variable {state after : State Callback}

theorem Sooner.mono {next other : BitVec 64} {reported : Option (BitVec 64)}
    (sooner : Sooner next reported) (le : other ≤ next) : Sooner other reported := by
  cases reported with
  | none => trivial
  | some deadline =>
      have lt : next < deadline := sooner
      rw [BitVec.lt_def] at lt
      rw [BitVec.le_def] at le
      exact BitVec.lt_def.mpr (le.trans_lt lt)

/-- What holds between any two steps: if `m_tickled` is set, its inserter has called or is about
to, and otherwise nothing is due before what was reported. -/
structure Watched (state : State Callback) : Prop where
  linked : Linked state.shared.manager []
  told : state.shared.manager.tickled = true → state.shared.announced = true ∨
    ∃ thread, state.threads thread = .announcing state.shared.queries
  quiet : state.shared.manager.tickled = false →
    ∀ reported, state.shared.reported = some reported →
      ∀ address ∈ state.shared.manager.timers,
        ¬ Sooner (state.shared.manager.timer address).next reported

theorem Watched.announced (watched : Watched state) : Announced state := by
  rintro reported isLast ⟨address, member, sooner⟩
  cases tickled : state.shared.manager.tickled with
  | true => exact watched.told tickled
  | false => exact absurd sooner (watched.quiet tickled reported isLast address member)

theorem Watched.started (clock : BitVec 64) : Watched (started clock : State Callback) where
  linked := .fresh clock
  told := fun tickled => Bool.noConfusion tickled
  quiet := fun _ _ none => absurd none (Option.some_ne_none _).symm

/-- Whether a thread is about to call `onTimerInsertedAtFront`. -/
def Thread.Announces : Thread Callback → Prop
  | .announcing _ => True
  | _ => False

/-- Who is about to call `onTimerInsertedAtFront` still is when another one goes on. -/
theorem still_announces {thread query : Nat} {shared : Shared Callback} {next : Thread Callback}
    (some : ∃ thread, state.threads thread = .announcing query)
    (was : ¬ (state.threads thread).Announces) :
    ∃ other, (state.put thread shared next).threads other = .announcing query :=
  @Config.exists_put _ _ state thread shared next (fun here => here = .announcing query) some
    fun here => absurd (by rw [here]; trivial) was

theorem not_announces {thread : Nat} {now : Thread Callback} (here : state.threads thread = now)
    (quiet : ¬ now.Announces) : ¬ (state.threads thread).Announces :=
  here ▸ quiet

/-- A thread goes on without the manager. -/
theorem Watched.goes (watched : Watched state) {thread : Nat} {next : Thread Callback}
    (was : ¬ (state.threads thread).Announces) : Watched (state.put thread state.shared next) where
  linked := watched.linked
  told := fun tickled => (watched.told tickled).imp_right fun some => still_announces some was
  quiet := watched.quiet

/-- A section that keeps the set, and puts no timer before all others unless this is announced. -/
theorem Watched.leaves (watched : Watched state) {thread : Nat} {manager : TimerManager Callback}
    {moved : Address → BitVec 64 → Prop} {atFront : Bool} {next : Thread Callback}
    (was : ¬ (state.threads thread).Announces) (kept : Keeps state.shared.manager manager moved)
    (tickled : manager.tickled = (state.shared.manager.tickled || atFront))
    (behind : ∀ address next, moved address next → atFront = true ∨
      state.shared.manager.tickled = true ∨ Behind state.shared.manager next)
    (goes : atFront = true → next = .announcing state.shared.queries) :
    Watched (state.put thread { state.shared with manager := manager } next) where
  linked := kept.linked
  told := fun now => by
    obtain before | front := (Bool.or_eq_true _ _).mp (tickled.symm.trans now)
    · exact (watched.told before).imp_right fun some => still_announces some was
    · exact .inr ⟨thread, Config.put_self.trans (goes front)⟩
  quiet := fun now reported isLast address member sooner => by
    obtain ⟨before, notFront⟩ := (Bool.or_eq_false_iff).mp (tickled.symm.trans now)
    have quiet := watched.quiet before reported isLast
    obtain isMoved | ⟨inSet, same⟩ := kept.shifts address member
    · obtain front | isSet | ⟨other, inSet, le⟩ := behind address _ isMoved
      · exact Bool.noConfusion (notFront.symm.trans front)
      · exact Bool.noConfusion (before.symm.trans isSet)
      · exact quiet other inSet (sooner.mono le)
    · exact quiet address inSet (same ▸ sooner)

/-- The thread that asks for the next timer learns the earliest deadline. -/
theorem Watched.asks (watched : Watched state) (thread : Nat) :
    Watched (state.put thread { state.shared with
        manager := (state.shared.manager.getNextTimer state.shared.clock).1
        reported := some (state.shared.manager.timers.head?.map fun front =>
          (state.shared.manager.timer front).next)
        queries := state.shared.queries + 1
        announced := false } .outside) where
  linked := ⟨watched.linked.members, watched.linked.ordered⟩
  told := fun tickled => Bool.noConfusion tickled
  quiet := by
    rintro - reported ⟨⟩ address member sooner
    have ordered := watched.linked.ordered
    change address ∈ state.shared.manager.timers at member
    cases timers : state.shared.manager.timers with
    | nil =>
        rw [timers] at member
        exact List.not_mem_nil member
    | cons front rest =>
        rw [timers] at member ordered sooner
        have lt : (state.shared.manager.timer address).next <
            (state.shared.manager.timer front).next := sooner
        rw [BitVec.lt_def] at lt
        obtain rfl | later := List.mem_cons.mp member
        · exact absurd lt (Nat.lt_irrefl _)
        · have least := (List.pairwise_cons.mp ordered).1 address later
          rw [less, comparator_iff] at least
          simp only at least
          omega

/-- A thread calls the manager. -/
theorem Watched.enters (watched : Watched state) {thread : Nat} {call : Call Callback}
    {shared : Shared Callback} {next : Thread Callback} (here : state.threads thread = .outside)
    (unhurried : Unhurried state (.thread thread call))
    (moved : state.shared.exec .outside call = some (shared, next)) :
    Watched (state.put thread shared next) := by
  have was := not_announces here id
  simp only [Unhurried, here] at unhurried
  cases call with
  | addTimer ms cb recurring =>
      cases moved
      exact watched.goes was
  | cancel address =>
      obtain ⟨manager, result, cancelled, tickled, kept⟩ := watched.linked.cancel address
      rw [Shared.exec, cancelled] at moved
      cases moved
      exact watched.leaves was kept (tickled.trans (Bool.or_false _).symm)
        (fun _ _ none => none.elim) Bool.noConfusion
  | refresh address =>
      obtain ⟨manager, result, refreshed, tickled, kept⟩ :=
        watched.linked.refresh address state.shared.clock
      rw [Shared.exec, refreshed] at moved
      cases moved
      refine watched.leaves was kept (tickled.trans (Bool.or_false _).symm) ?_
        Bool.noConfusion
      rintro other next ⟨-, callback, rfl⟩
      exact .inr (.inr (unhurried callback))
  | reset address ms fromNow =>
      simp only [Shared.exec] at moved
      split at moved <;> cases moved <;> exact watched.goes was
  | listExpiredCb =>
      cases moved
      exact watched.goes was
  | getNextTimer =>
      cases moved
      exact watched.asks thread
  | go address => cases moved

theorem Watched.preserved (watched : Watched state) {action : Action Callback}
    (unhurried : Unhurried state action) (taken : step state action = some after) :
    Watched after := by
  cases action with
  | tick clock =>
      rw [step, Option.ite_none_right_eq_some] at taken
      obtain ⟨-, taken⟩ := taken
      cases taken
      exact ⟨watched.linked, watched.told, watched.quiet⟩
  | thread thread call =>
      obtain ⟨⟨shared, next⟩, moved, rfl⟩ := Option.map_eq_some_iff.mp taken
      cases here : state.threads thread with
      | outside => exact watched.enters here unhurried (here ▸ moved)
      | adding now ms cb recurring =>
          have was := not_announces here id
          rw [here] at moved
          cases call with
          | go address =>
              simp only [Shared.exec] at moved
              rw [Option.ite_none_right_eq_some, Option.isNone_iff_eq_none] at moved
              obtain ⟨free, moved⟩ := moved
              obtain ⟨manager, atFront, added, tickled, kept⟩ :=
                watched.linked.addTimer now ms cb recurring free
              rw [added] at moved
              cases moved
              exact watched.leaves was kept tickled (fun _ _ moved => moved) fun front => if_pos front
          | _ => cases moved
      | resetting address ms fromNow =>
          have was := not_announces here id
          rw [here] at moved
          cases call with
          | go _ =>
              obtain ⟨manager, result, atFront, reset, tickled, kept⟩ :=
                watched.linked.resetLocked address ms fromNow state.shared.clock
              rw [Shared.exec, reset] at moved
              cases moved
              exact watched.leaves was kept tickled (fun _ _ moved => moved) fun front => if_pos front
          | _ => cases moved
      | expiring now =>
          have was := not_announces here id
          rw [here] at moved
          cases call with
          | go _ =>
              cases moved
              exact watched.goes was
          | _ => cases moved
      | listing now =>
          have was := not_announces here id
          rw [here] at moved
          cases call with
          | go nowTimer =>
              simp only [Unhurried, here] at unhurried
              simp only [Shared.exec] at moved
              rw [Option.ite_none_right_eq_some] at moved
              obtain ⟨-, moved⟩ := moved
              obtain ⟨manager, result, listed, tickled, kept⟩ :=
                watched.linked.listExpiredLocked now nowTimer
              rw [listed] at moved
              cases moved
              refine watched.leaves was kept (tickled.trans (Bool.or_false _).symm) ?_
                Bool.noConfusion
              rintro other next ⟨isExpired, recurring, rfl⟩
              exact .inr (.inr (unhurried other isExpired recurring))
          | _ => cases moved
      | announcing query =>
          rw [here] at moved
          cases call with
          | go _ =>
              cases moved
              refine ⟨watched.linked, fun tickled => ?_, watched.quiet⟩
              obtain announced | ⟨other, announcing⟩ := watched.told tickled
              · exact .inl (by rw [Config.put_shared, announced]; rfl)
              · by_cases mine : other = thread
                · subst mine
                  cases announcing.symm.trans here
                  exact .inl (by simp)
                · exact .inr ⟨other, (Config.put_other mine).trans announcing⟩
          | _ => cases moved

end Steps

/-- As long as no timer is moved before all others without `addTimer`, an earlier deadline is
announced. -/
theorem earlier_announced {clock : BitVec 64} {state : State Callback}
    (run : Runs step Unhurried (started clock) state) : Announced state :=
  (run.invariant (fun _ _ _ watched unhurried taken => watched.preserved unhurried taken)
    (Watched.started clock)).announced

/-- A timer in front of one that is refreshed; it comes after a query, and is announced. -/
def frontRun : List (Action Nat) :=
  [.thread 0 (.addTimer 20 1 false), .thread 0 (.go 1), .thread 0 (.go 0), .tick 12,
    .thread 0 (.refresh 1), .thread 0 .getNextTimer, .thread 1 (.addTimer 5 2 false),
    .thread 1 (.go 2)]

/-- Whether a step leaves the condition out of account, or meets it. -/
def unhurries (state : State Nat) : Action Nat → Bool
  | .thread thread call =>
      match state.threads thread, call with
      | .outside, .refresh address => state.shared.manager.timers.any fun other =>
          (state.shared.manager.timer other).next ≤
            state.shared.clock + (state.shared.manager.timer address).ms
      | .listing _, _ => false
      | _, _ => true
  | .tick _ => true

theorem unhurries_sound (state : State Nat) (action : Action Nat)
    (passes : unhurries state action = true) : Unhurried state action := by
  cases action with
  | tick clock => trivial
  | thread thread call =>
      simp only [unhurries] at passes
      simp only [Unhurried]
      generalize state.threads thread = here at passes
      cases here with
      | outside =>
          cases call with
          | refresh address =>
              intro _
              obtain ⟨other, member, le⟩ := List.any_eq_true.mp passes
              exact ⟨other, member, of_decide_eq_true le⟩
          | _ => trivial
      | listing now => exact Bool.noConfusion passes
      | _ => trivial

def inFront : State Nat :=
  (replay step unhurries frontRun (started 10)).get (by decide)

theorem earlier_announced_front : inFront.shared.reported = some (some 32) ∧
    inFront.shared.manager.timers = [2, 1] ∧ inFront.threads 1 = .announcing 1 ∧
    Announced inFront :=
  ⟨by decide, by decide, rfl,
    earlier_announced (.of_replay unhurries_sound (Option.some_get _).symm)⟩

/-- The deadline of a timer that is refreshed exceeds the clock's range. -/
def overflowRun : List (Action Nat) :=
  [.thread 0 (.addTimer (-11) 1 false), .thread 0 (.go 1), .thread 0 (.go 0),
    .thread 0 .getNextTimer, .tick 12, .thread 0 (.refresh 1)]

def overflown : State Nat :=
  (replay step (fun _ _ => true) overflowRun (started 10)).get (by decide)

def Action.actor : Action Callback → Option Nat
  | .thread self _ => some self
  | .tick _ => none

theorem step_frame ⦃state : State Callback⦄ ⦃action : Action Callback⦄ ⦃next : State Callback⦄
    ⦃other : Nat⦄ (taken : step state action = some next) (apart : action.actor ≠ some other) :
    next.threads other = state.threads other := by
  cases action with
  | thread thread call => exact Config.map_put_other taken apart
  | tick clock =>
      rw [step, Option.ite_none_right_eq_some] at taken
      obtain ⟨-, taken⟩ := taken
      cases taken
      rfl

theorem not_earlier_announced : ¬ ∀ (clock : BitVec 64) (state : State Nat),
    Runs step (fun _ _ => True) (started clock) state → Announced state := by
  intro claimed
  have run : replay step (fun _ _ => true) overflowRun (started 10) = some overflown :=
    (Option.some_get _).symm
  have outside : ∀ thread, ¬ (overflown.threads thread).Announces := by
    refine replay_forall (motive := fun thread : Thread Nat => ¬ thread.Announces) step_frame 1 run
      (by decide) (fun thread early => ?_) fun _ _ => id
    obtain rfl : thread = 0 := by omega
    exact id
  have sooner : (overflown.shared.manager.timer 1).next < -1 := by decide
  obtain announced | ⟨thread, announces⟩ := claimed 10 overflown
    (.of_replay (fun _ _ _ => trivial) run) (some (-1)) rfl ⟨1, by decide, sooner⟩
  · exact absurd announced (by decide)
  · exact outside thread (announces ▸ trivial)

end Xten.TimerManager.Announcing
