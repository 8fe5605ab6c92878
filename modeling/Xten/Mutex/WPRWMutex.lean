import Xten.Std.Holdings

/-!
# The writer-preferring lock

`WPRWMutex` of `mutex.h`. Each section under its inner mutex is a step, from taking the mutex
to giving it back, which a wait on a condition does as well. A condition is the list of the
threads that are asleep on it; a thread that has been woken, by a notification or for no
reason at all, takes the mutex again in a step of its own and looks again.

The threads unlock what they hold, as the guards of `mutex.h` do. The counters are `int`s,
and there are never so many threads that they overflow.
-/

namespace Xten.WPRWMutex

open Std.Interleaving

/-- Where a thread is: outside, in the loop of `rdlock` or of `wrlock`, or with the lock. -/
inductive Place where
  | outside
  | readWait
  | writeWait
  | reading
  | writing
deriving DecidableEq, Repr

/-- The members of a `WPRWMutex`. -/
structure Shared where
  activeReader : Int := 0
  activeWriter : Bool := false
  waitWriter : Int := 0
  readCv : List Nat := []
  writeCv : List Nat := []
deriving DecidableEq, Repr

/-- `notify_one` of a condition: one of its threads is woken, and which one is not said. -/
def notifyOne (cv : List Nat) (choice : Nat) : List Nat :=
  cv.eraseIdx (choice % cv.length)

namespace Shared

/-- The loop of `wrlock`, from the test on: it ends with the lock, or asleep. -/
def wrlockLoop (shared : Shared) (thread : Nat) : Shared × Place :=
  if shared.activeReader ≠ 0 ∨ shared.activeWriter then
    ({ shared with writeCv := shared.writeCv ++ [thread] }, .writeWait)
  else
    ({ shared with activeWriter := true, waitWriter := shared.waitWriter - 1 }, .writing)

/-- `wrlock`. -/
def wrlock (shared : Shared) (thread : Nat) : Shared × Place :=
  { shared with waitWriter := shared.waitWriter + 1 }.wrlockLoop thread

/-- `rdlock`, which is a loop and what follows it. -/
def rdlock (shared : Shared) (thread : Nat) : Shared × Place :=
  if shared.activeWriter ∨ shared.waitWriter ≠ 0 then
    ({ shared with readCv := shared.readCv ++ [thread] }, .readWait)
  else
    ({ shared with activeReader := shared.activeReader + 1 }, .reading)

/-- `wrUnlock`. -/
def wrUnlock (shared : Shared) (choice : Nat) : Shared :=
  let shared := { shared with activeWriter := false }
  if shared.waitWriter ≠ 0 then
    { shared with writeCv := notifyOne shared.writeCv choice }
  else
    { shared with readCv := [] }

/-- `rdUnlock`. -/
def rdUnlock (shared : Shared) (choice : Nat) : Shared :=
  let shared := { shared with activeReader := shared.activeReader - 1 }
  if shared.waitWriter ≠ 0 ∧ shared.activeReader = 0 then
    { shared with writeCv := notifyOne shared.writeCv choice }
  else
    { shared with readCv := [] }

/-- A thread is woken for no reason. -/
def wake (shared : Shared) (thread : Nat) : Shared :=
  { shared with
    readCv := shared.readCv.erase thread
    writeCv := shared.writeCv.erase thread }

/-- A thread is asleep on one of the conditions. -/
def Asleep (shared : Shared) (thread : Nat) : Prop :=
  thread ∈ shared.readCv ∨ thread ∈ shared.writeCv

instance (shared : Shared) (thread : Nat) : Decidable (shared.Asleep thread) :=
  inferInstanceAs (Decidable (_ ∨ _))

end Shared

/-- The lock and its threads. -/
abbrev State := Config Shared Place

inductive Action where
  | rdlock (thread : Nat)
  | wrlock (thread : Nat)
  | rdUnlock (thread choice : Nat)
  | wrUnlock (thread choice : Nat)
  /-- A spurious wake-up. -/
  | wake (thread : Nat)
  /-- A thread that has been woken takes the mutex and goes on with its loop. -/
  | resume (thread : Nat)
deriving DecidableEq, Repr

/-- A thread has been given a part of the lock and a place. -/
def State.move (state : State) (thread : Nat) (next : Shared × Place) : State :=
  state.put thread next.1 next.2

/-- One section; none if it is not the thread's turn. -/
def step (state : State) : Action → Option State
  | .rdlock thread =>
      if state.threads thread = .outside then
        some (state.move thread (state.shared.rdlock thread))
      else none
  | .wrlock thread =>
      if state.threads thread = .outside then
        some (state.move thread (state.shared.wrlock thread))
      else none
  | .rdUnlock thread choice =>
      if state.threads thread = .reading then
        some (state.put thread (state.shared.rdUnlock choice) .outside)
      else none
  | .wrUnlock thread choice =>
      if state.threads thread = .writing then
        some (state.put thread (state.shared.wrUnlock choice) .outside)
      else none
  | .wake thread =>
      if state.shared.Asleep thread then
        some { state with shared := state.shared.wake thread }
      else none
  | .resume thread =>
      if state.shared.Asleep thread then none
      else match state.threads thread with
        | .readWait => some (state.move thread (state.shared.rdlock thread))
        | .writeWait => some (state.move thread (state.shared.wrlockLoop thread))
        | _ => none

/-- A new lock. -/
def initial : State where
  shared := {}
  threads := fun _ => .outside

/-- A thread that waits for the lock. -/
def Waiting (place : Place) : Prop :=
  place = .readWait ∨ place = .writeWait

/-- A thread that waits has been notified: it is asleep on no condition. -/
def Notified (state : State) (thread : Nat) : Prop :=
  Waiting (state.threads thread) ∧ ¬ state.shared.Asleep thread

/-- What a writer-preferring lock promises. -/
structure Correct (state : State) : Prop where
  /-- A writer excludes every other holder. -/
  exclusion : ∀ writer other, state.threads writer = .writing →
    state.threads other = .reading ∨ state.threads other = .writing → other = writer
  readers : state.Counts (· = .reading) state.shared.activeReader
  writers : state.Counts (· = .writeWait) state.shared.waitWriter
  /-- No reader comes in while a writer waits. -/
  preference : ∀ action next thread other, step state action = some next →
    state.threads thread ≠ .reading → next.threads thread = .reading →
    state.threads other ≠ .writeWait
  /-- No thread waits for a free lock, unless a waiting thread has been notified. -/
  noneLost : (∀ thread, state.threads thread ≠ .reading ∧ state.threads thread ≠ .writing) →
    ∀ waiting, Waiting (state.threads waiting) → ∃ thread, Notified state thread

section Sections

/-- What one section does. -/
inductive Moves (state : State) : State → Prop where
  | rdlock {thread : Nat} (outside : state.threads thread = .outside) :
      Moves state (state.move thread (state.shared.rdlock thread))
  | wrlock {thread : Nat} (outside : state.threads thread = .outside) :
      Moves state (state.move thread (state.shared.wrlock thread))
  | rdUnlock {thread : Nat} (reads : state.threads thread = .reading) (choice : Nat) :
      Moves state (state.put thread (state.shared.rdUnlock choice) .outside)
  | wrUnlock {thread : Nat} (writes : state.threads thread = .writing) (choice : Nat) :
      Moves state (state.put thread (state.shared.wrUnlock choice) .outside)
  | wake (thread : Nat) : Moves state { state with shared := state.shared.wake thread }
  | readOn {thread : Nat} (waits : state.threads thread = .readWait)
      (awake : thread ∉ state.shared.readCv) :
      Moves state (state.move thread (state.shared.rdlock thread))
  | writeOn {thread : Nat} (waits : state.threads thread = .writeWait)
      (awake : thread ∉ state.shared.writeCv) :
      Moves state (state.move thread (state.shared.wrlockLoop thread))

theorem step_cases {state next : State} {action : Action} (taken : step state action = some next) :
    Moves state next := by
  cases action with
  | rdlock thread =>
      obtain ⟨outside, same⟩ := Option.ite_none_right_eq_some.mp taken
      cases same
      exact .rdlock outside
  | wrlock thread =>
      obtain ⟨outside, same⟩ := Option.ite_none_right_eq_some.mp taken
      cases same
      exact .wrlock outside
  | rdUnlock thread choice =>
      obtain ⟨reads, same⟩ := Option.ite_none_right_eq_some.mp taken
      cases same
      exact .rdUnlock reads choice
  | wrUnlock thread choice =>
      obtain ⟨writes, same⟩ := Option.ite_none_right_eq_some.mp taken
      cases same
      exact .wrUnlock writes choice
  | wake thread =>
      obtain ⟨-, same⟩ := Option.ite_none_right_eq_some.mp taken
      cases same
      exact .wake thread
  | resume thread =>
      obtain ⟨woken, taken⟩ := Option.ite_none_left_eq_some.mp taken
      obtain ⟨awakeReader, awakeWriter⟩ := not_or.mp woken
      split at taken
      case h_1 waits =>
        cases taken
        exact .readOn waits awakeReader
      case h_2 waits =>
        cases taken
        exact .writeOn waits awakeWriter
      case h_3 => cases taken

end Sections

section Conditions

variable {state : State} {cv : List Nat} {place : Place} {thread : Nat}

/-- The threads asleep on a condition are in one loop, and each is there once. -/
structure Blocked (state : State) (cv : List Nat) (place : Place) : Prop where
  distinct : cv.Nodup
  waits : ∀ thread ∈ cv, state.threads thread = place

theorem Blocked.sublist {fewer : List Nat} (blocked : Blocked state cv place)
    (sub : fewer.Sublist cv) : Blocked state fewer place where
  distinct := blocked.distinct.sublist sub
  waits := fun thread member => blocked.waits thread (sub.subset member)

/-- The members change, and the threads stay where they are. -/
theorem Blocked.still (blocked : Blocked state cv place) (shared : Shared) :
    Blocked { state with shared := shared } cv place :=
  ⟨blocked.distinct, blocked.waits⟩

/-- A thread that is not asleep moves. -/
theorem Blocked.put (blocked : Blocked state cv place) (awake : thread ∉ cv) (shared : Shared)
    (next : Place) : Blocked (state.put thread shared next) cv place where
  distinct := blocked.distinct
  waits := by
    intro other member
    rw [Config.put_other fun same : other = thread => awake (same ▸ member)]
    exact blocked.waits other member

/-- A thread falls asleep. -/
theorem Blocked.sleep (blocked : Blocked state cv place) (awake : thread ∉ cv)
    (shared : Shared) : Blocked (state.put thread shared place) (cv ++ [thread]) place where
  distinct := by
    apply List.nodup_append.mpr
    refine ⟨blocked.distinct, List.nodup_singleton thread, ?_⟩
    rintro other member last isLast rfl
    exact awake (List.mem_singleton.mp isLast ▸ member)
  waits := by
    intro other member
    rcases List.mem_append.mp member with member | member
    · exact (blocked.put awake shared place).waits other member
    · rw [List.mem_singleton.mp member, Config.put_self]

/-- A thread in another place is not asleep here. -/
theorem Blocked.awake (blocked : Blocked state cv place)
    (elsewhere : state.threads thread ≠ place) : thread ∉ cv :=
  fun member => elsewhere (blocked.waits thread member)

/-- `notify_one` wakes one of the threads, if any is asleep. -/
theorem Blocked.notifyOne (blocked : Blocked state cv place) (choice : Nat)
    (some : WPRWMutex.notifyOne cv choice ≠ []) :
    ∃ thread, state.threads thread = place ∧ thread ∉ WPRWMutex.notifyOne cv choice := by
  have inside : choice % cv.length < cv.length := by
    apply Nat.mod_lt
    apply List.length_pos_of_ne_nil
    rintro rfl
    exact some rfl
  refine ⟨cv[choice % cv.length], blocked.waits _ (List.getElem_mem inside), ?_⟩
  rw [WPRWMutex.notifyOne, List.mem_eraseIdx_iff_getElem]
  rintro ⟨index, bound, apart, same⟩
  exact apart ((blocked.distinct.getElem_inj_iff).mp same)

end Conditions

section Invariant

variable {state next : State} {thread choice : Nat} {action : Action}

/-- The members say what the threads do. -/
structure Core (state : State) : Prop where
  readers : state.Counts (· = .reading) state.shared.activeReader
  writing : state.Counts (· = .writing) (if state.shared.activeWriter then 1 else 0)
  writers : state.Counts (· = .writeWait) state.shared.waitWriter
  apart : state.shared.activeWriter = true → state.shared.activeReader = 0
  readCv : Blocked state state.shared.readCv .readWait
  writeCv : Blocked state state.shared.writeCv .writeWait

/-- Moreover readers sleep only as long as a writer is ahead of them, and writers on a free
lock only if one of them has been notified. -/
structure Consistent (state : State) : Prop extends Core state where
  readersHeld : state.shared.readCv ≠ [] →
    state.shared.activeWriter = true ∨ state.shared.waitWriter ≠ 0
  writersHeld : state.shared.writeCv ≠ [] → state.shared.activeWriter = false →
    state.shared.activeReader = 0 →
    ∃ thread, state.threads thread = .writeWait ∧ thread ∉ state.shared.writeCv

theorem initial_consistent : Consistent initial where
  readers := .zero fun _ => Place.noConfusion
  writing := .zero fun _ => Place.noConfusion
  writers := .zero fun _ => Place.noConfusion
  apart := fun active => absurd active (by decide)
  readCv := ⟨List.nodup_nil, fun _ member => absurd member List.not_mem_nil⟩
  writeCv := ⟨List.nodup_nil, fun _ member => absurd member List.not_mem_nil⟩
  readersHeld := fun some => absurd rfl some
  writersHeld := fun some => absurd rfl some

/-- A sleeping writer is counted. -/
theorem Core.waitWriter_pos (core : Core state) (some : state.shared.writeCv ≠ []) :
    0 < state.shared.waitWriter := by
  obtain ⟨thread, member⟩ := List.exists_mem_of_ne_nil _ some
  exact core.writers.pos (core.writeCv.waits thread member)

/-- A writer is the only one. -/
theorem Core.oneWriter (core : Core state) (writes : state.threads thread = .writing) :
    state.shared.activeWriter = true ∧ state.Counts (· = .writing) 1 := by
  have one := core.writing
  by_cases active : state.shared.activeWriter = true
  · rw [if_pos active] at one
    exact ⟨active, one⟩
  · rw [if_neg active] at one
    exact absurd writes (one.none_of_zero thread)

theorem Core.activeReader_nonneg (core : Core state) : 0 ≤ state.shared.activeReader := by
  obtain ⟨threads, -, count⟩ := core.readers
  omega

theorem Core.waitWriter_nonneg (core : Core state) : 0 ≤ state.shared.waitWriter := by
  obtain ⟨threads, -, count⟩ := core.writers
  omega

/-- A notified writer stays one while another thread moves. -/
theorem notified_put
    (some : ∃ other, state.threads other = .writeWait ∧ other ∉ state.shared.writeCv)
    (elsewhere : state.threads thread ≠ .writeWait) (shared : Shared) (place : Place) :
    ∃ other, (state.put thread shared place).threads other = .writeWait ∧
      other ∉ state.shared.writeCv := by
  obtain ⟨other, waits, awake⟩ := some
  refine ⟨other, ?_, awake⟩
  rwa [Config.put_other fun same : other = thread => elsewhere (same ▸ waits)]

/-- A call of `rdlock` comes to its loop. -/
theorem Consistent.enterRead (kept : Consistent state)
    (outside : state.threads thread = .outside) :
    Consistent (state.put thread state.shared .readWait) where
  readers := kept.readers.put (by simp [outside])
  writing := kept.writing.put (by simp [outside])
  writers := kept.writers.put (by simp [outside])
  apart := kept.apart
  readCv := kept.readCv.put (kept.readCv.awake (by simp [outside])) _ _
  writeCv := kept.writeCv.put (kept.writeCv.awake (by simp [outside])) _ _
  readersHeld := kept.readersHeld
  writersHeld := fun some inactive none =>
    notified_put (kept.writersHeld some inactive none) (by simp [outside]) _ _

/-- A call of `wrlock` comes to its loop. -/
theorem Consistent.enterWrite (kept : Consistent state)
    (outside : state.threads thread = .outside) :
    Consistent (state.put thread { state.shared with waitWriter := state.shared.waitWriter + 1 }
      .writeWait) where
  readers := kept.readers.put (by simp [outside])
  writing := kept.writing.put (by simp [outside])
  writers := kept.writers.enter (by simp [outside]) rfl
  apart := kept.apart
  readCv := kept.readCv.put (kept.readCv.awake (by simp [outside])) _ _
  writeCv := kept.writeCv.put (kept.writeCv.awake (by simp [outside])) _ _
  readersHeld := fun _ => .inr (by
    have nonneg := kept.waitWriter_nonneg
    simp only [Config.put_shared]
    omega)
  writersHeld := fun _ _ _ => ⟨thread, Config.put_self,
    kept.writeCv.awake (by simp [outside])⟩

/-- The loop of `rdlock`. -/
theorem Consistent.rdlock (kept : Consistent state) (waits : state.threads thread = .readWait)
    (awake : thread ∉ state.shared.readCv) :
    Consistent (state.move thread (state.shared.rdlock thread)) := by
  have elsewhere : thread ∉ state.shared.writeCv := kept.writeCv.awake (by simp [waits])
  rw [State.move, Shared.rdlock]
  split_ifs with ahead
  · exact {
      readers := kept.readers.put (by simp [waits])
      writing := kept.writing.put (by simp [waits])
      writers := kept.writers.put (by simp [waits])
      apart := kept.apart
      readCv := kept.readCv.sleep awake _
      writeCv := kept.writeCv.put elsewhere _ _
      readersHeld := fun _ => ahead
      writersHeld := fun some inactive none =>
        notified_put (kept.writersHeld some inactive none) (by simp [waits]) _ _ }
  · have inactive : state.shared.activeWriter = false := Bool.eq_false_iff.mpr fun active =>
      ahead (.inl active)
    exact {
      readers := kept.readers.enter (by simp [waits]) rfl
      writing := kept.writing.put (by simp [waits])
      writers := kept.writers.put (by simp [waits])
      apart := fun active => absurd (.inl active) ahead
      readCv := kept.readCv.put awake _ _
      writeCv := kept.writeCv.put elsewhere _ _
      readersHeld := kept.readersHeld
      writersHeld := fun _ _ none => by
        have nonneg := kept.activeReader_nonneg
        simp only [Config.put_shared] at none
        omega }

/-- The loop of `wrlock`. -/
theorem Consistent.wrlockLoop (kept : Consistent state)
    (waits : state.threads thread = .writeWait) (awake : thread ∉ state.shared.writeCv) :
    Consistent (state.move thread (state.shared.wrlockLoop thread)) := by
  have elsewhere : thread ∉ state.shared.readCv := kept.readCv.awake (by simp [waits])
  rw [State.move, Shared.wrlockLoop]
  split_ifs with held
  · exact {
      readers := kept.readers.put (by simp [waits])
      writing := kept.writing.put (by simp [waits])
      writers := kept.writers.put (by simp [waits])
      apart := kept.apart
      readCv := kept.readCv.put elsewhere _ _
      writeCv := kept.writeCv.sleep awake _
      readersHeld := kept.readersHeld
      writersHeld := fun _ inactive none => by
        rcases held with reading | active
        · exact absurd none reading
        · exact absurd (inactive.symm.trans active) Bool.false_ne_true }
  · obtain ⟨none, inactive⟩ := not_or.mp held
    have one := kept.writing
    rw [if_neg inactive] at one
    exact {
      readers := kept.readers.put (by simp [waits])
      writing := one.enter (by simp [waits]) rfl
      writers := kept.writers.leave waits (by simp)
      apart := fun _ => Classical.not_not.mp none
      readCv := kept.readCv.put elsewhere _ _
      writeCv := kept.writeCv.put awake _ _
      readersHeld := fun _ => .inl rfl
      writersHeld := fun _ inactive => absurd inactive (by simp) }

/-- After a thread has left, one writer is woken. -/
theorem Core.wakeWriter (core : Core state) (ahead : state.shared.waitWriter ≠ 0) (choice : Nat) :
    Consistent { state with
      shared := { state.shared with writeCv := notifyOne state.shared.writeCv choice } } where
  readers := core.readers
  writing := core.writing
  writers := core.writers
  apart := core.apart
  readCv := core.readCv.still _
  writeCv := (core.writeCv.sublist (List.eraseIdx_sublist _ _)).still _
  readersHeld := fun _ => .inr ahead
  writersHeld := fun some _ _ => core.writeCv.notifyOne choice some

/-- After a thread has left, all readers are woken: no writer sleeps on a free lock. -/
theorem Core.wakeReaders (core : Core state)
    (held : state.shared.waitWriter ≠ 0 → state.shared.activeReader ≠ 0) :
    Consistent { state with shared := { state.shared with readCv := [] } } where
  readers := core.readers
  writing := core.writing
  writers := core.writers
  apart := core.apart
  readCv := ⟨List.nodup_nil, fun _ member => absurd member List.not_mem_nil⟩
  writeCv := core.writeCv.still _
  readersHeld := fun some => absurd rfl some
  writersHeld := fun some _ none => absurd none (held (core.waitWriter_pos some).ne')

theorem Consistent.rdUnlock (kept : Consistent state) (reads : state.threads thread = .reading)
    (choice : Nat) :
    Consistent (state.put thread (state.shared.rdUnlock choice) .outside) := by
  have some : 0 < state.shared.activeReader := kept.readers.pos reads
  have left : Core (state.put thread
      { state.shared with activeReader := state.shared.activeReader - 1 } .outside) := {
    readers := kept.readers.leave reads (by simp)
    writing := kept.writing.put (by simp [reads])
    writers := kept.writers.put (by simp [reads])
    apart := fun active => absurd (kept.apart active) some.ne'
    readCv := kept.readCv.put (kept.readCv.awake (by simp [reads])) _ _
    writeCv := kept.writeCv.put (kept.writeCv.awake (by simp [reads])) _ _ }
  rw [Shared.rdUnlock]
  split_ifs with last
  · exact left.wakeWriter last.1 choice
  · exact left.wakeReaders fun ahead none => last ⟨ahead, none⟩

theorem Consistent.wrUnlock (kept : Consistent state) (writes : state.threads thread = .writing)
    (choice : Nat) :
    Consistent (state.put thread (state.shared.wrUnlock choice) .outside) := by
  obtain ⟨-, one⟩ := kept.oneWriter writes
  have left : Core (state.put thread { state.shared with activeWriter := false } .outside) := {
    readers := kept.readers.put (by simp [writes])
    writing := one.leave writes (by simp)
    writers := kept.writers.put (by simp [writes])
    apart := fun active => absurd active (by simp)
    readCv := kept.readCv.put (kept.readCv.awake (by simp [writes])) _ _
    writeCv := kept.writeCv.put (kept.writeCv.awake (by simp [writes])) _ _ }
  rw [Shared.wrUnlock]
  split_ifs with ahead
  · exact left.wakeWriter ahead choice
  · exact left.wakeReaders fun other => absurd other ahead

theorem Consistent.wake (kept : Consistent state) (thread : Nat) :
    Consistent { state with shared := state.shared.wake thread } where
  readers := kept.readers
  writing := kept.writing
  writers := kept.writers
  apart := kept.apart
  readCv := (kept.readCv.sublist List.erase_sublist).still _
  writeCv := (kept.writeCv.sublist List.erase_sublist).still _
  readersHeld := by
    intro some
    apply kept.readersHeld
    rintro none
    exact some (by simp [Shared.wake, none])
  writersHeld := by
    intro some inactive none
    have asleep : state.shared.writeCv ≠ [] := by
      rintro empty
      exact some (by simp [Shared.wake, empty])
    obtain ⟨other, waits, awake⟩ := kept.writersHeld asleep inactive none
    exact ⟨other, waits, fun member => awake (List.mem_of_mem_erase member)⟩

/-- Every section keeps the invariant. -/
theorem Consistent.step (kept : Consistent state)
    (taken : WPRWMutex.step state action = some next) : Consistent next := by
  cases step_cases taken with
  | rdlock outside =>
      have entered := (kept.enterRead outside).rdlock Config.put_self
        (kept.readCv.awake (by simp [outside]))
      rwa [State.move, Config.put_put] at entered
  | wrlock outside =>
      have entered := (kept.enterWrite outside).wrlockLoop Config.put_self
        (kept.writeCv.awake (by simp [outside]))
      rwa [State.move, Config.put_put] at entered
  | rdUnlock reads choice => exact kept.rdUnlock reads choice
  | wrUnlock writes choice => exact kept.wrUnlock writes choice
  | wake thread => exact kept.wake thread
  | readOn waits awake => exact kept.rdlock waits awake
  | writeOn waits awake => exact kept.wrlockLoop waits awake

/-- No section of a run leaves the invariant. -/
theorem Consistent.run {allowed : State → Action → Prop}
    (run : Runs WPRWMutex.step allowed initial state) : Consistent state :=
  @Runs.invariant _ _ _ _ _ _ (fun state : State => Consistent state)
    (fun _ _ _ kept _ taken => kept.step taken) run initial_consistent

end Invariant

section Preference

variable {state next : State} {shared : Shared} {actor thread : Nat} {action : Action}

/-- The loop of `rdlock` ends with the lock only when no writer is counted. -/
theorem Shared.none_waits (acquired : (shared.rdlock thread).2 = .reading) :
    shared.waitWriter = 0 := by
  rw [Shared.rdlock] at acquired
  split_ifs at acquired with ahead
  exact Classical.not_not.mp (not_or.mp ahead).2

/-- The loop of `wrlock` does not end with the lock for reading. -/
theorem Shared.wrlockLoop_apart : (shared.wrlockLoop thread).2 ≠ .reading := by
  rw [Shared.wrlockLoop]
  split_ifs <;> exact Place.noConfusion

/-- The thread that has come in is the one that has moved. -/
theorem acquires_self {place : Place} (before : state.threads thread ≠ .reading)
    (after : (state.put actor shared place).threads thread = .reading) : place = .reading := by
  obtain ⟨rfl, current⟩ | ⟨-, current⟩ := state.put_cases actor shared place thread
  · exact current.symm.trans after
  · exact absurd (current.symm.trans after) before

/-- A reader comes in only when no writer is counted. -/
theorem step_preference (taken : step state action = some next)
    (before : state.threads thread ≠ .reading) (after : next.threads thread = .reading) :
    state.shared.waitWriter = 0 := by
  cases step_cases taken with
  | rdlock | readOn => exact Shared.none_waits (acquires_self before after)
  | wrlock | writeOn => exact absurd (acquires_self before after) Shared.wrlockLoop_apart
  | rdUnlock | wrUnlock => exact absurd (acquires_self before after) Place.noConfusion
  | wake => exact absurd after before

end Preference

section Results

variable {state : State}

theorem Core.exclusion (core : Core state) {writer other : Nat}
    (writes : state.threads writer = .writing)
    (holds : state.threads other = .reading ∨ state.threads other = .writing) :
    other = writer := by
  obtain ⟨active, one⟩ := core.oneWriter writes
  rcases holds with reads | alsoWrites
  · exact absurd (core.apart active) (core.readers.pos reads).ne'
  · exact one.unique le_rfl alsoWrites writes

/-- Whoever sleeps on a free lock has a notified writer ahead. -/
theorem Consistent.notified (kept : Consistent state)
    (free : ∀ thread, state.threads thread ≠ .reading ∧ state.threads thread ≠ .writing)
    {thread : Nat} (asleep : state.shared.Asleep thread) : ∃ thread, Notified state thread := by
  have none : state.shared.activeReader = 0 :=
    (Config.counts_iff.mp kept.readers).eq_zero fun thread => (free thread).1
  have inactive : state.shared.activeWriter = false := by
    by_contra active
    have one := kept.writing
    rw [if_pos (Bool.of_not_eq_false active)] at one
    exact one_ne_zero ((Config.counts_iff.mp one).eq_zero fun thread => (free thread).2)
  have writer : ∃ writer, state.threads writer = .writeWait := by
    rcases asleep with reader | writer
    · rcases kept.readersHeld (List.ne_nil_of_mem reader) with active | waits
      · exact absurd (inactive.symm.trans active) Bool.false_ne_true
      · by_contra absent
        apply waits
        apply (Config.counts_iff.mp kept.writers).eq_zero
        exact fun other isWriter => absent ⟨other, isWriter⟩
    · exact ⟨thread, kept.writeCv.waits thread writer⟩
  obtain ⟨other, waits, awake⟩ : ∃ other, state.threads other = .writeWait ∧
      other ∉ state.shared.writeCv := by
    obtain ⟨writer, waits⟩ := writer
    by_cases sleeps : writer ∈ state.shared.writeCv
    · exact kept.writersHeld (List.ne_nil_of_mem sleeps) inactive none
    · exact ⟨writer, waits, sleeps⟩
  exact ⟨other, .inr waits, not_or.mpr ⟨kept.readCv.awake (by simp [waits]), awake⟩⟩

theorem Consistent.correct (kept : Consistent state) : Correct state where
  exclusion := fun _ _ writes holds => kept.exclusion writes holds
  readers := kept.readers
  writers := kept.writers
  preference := by
    intro action next thread other taken before after
    have noWriter := kept.writers
    rw [step_preference taken before after] at noWriter
    exact noWriter.none_of_zero other
  noneLost := by
    intro free waiting waits
    by_cases asleep : state.shared.Asleep waiting
    · exact kept.notified free asleep
    · exact ⟨waiting, waits, asleep⟩

/-- The lock keeps its promises whatever its threads do, and however they are woken. -/
theorem run_correct (run : Runs step (fun _ _ => True) initial state) : Correct state :=
  (Consistent.run run).correct

/-- One thread reads, another waits to write, and a third, which would read, waits behind it. -/
def crowded : State :=
  (replay step (fun _ _ => true) [.rdlock 1, .wrlock 2, .rdlock 3] initial).get (by decide)

theorem run_correct_crowded : crowded.threads 3 = .readWait ∧ Correct crowded :=
  ⟨by decide, run_correct (.of_replay (fun _ _ _ => trivial) (Option.some_get _).symm)⟩

end Results

end Xten.WPRWMutex
