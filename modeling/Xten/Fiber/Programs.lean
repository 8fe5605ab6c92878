import Xten.Fiber.Exclusion

/-!
# Fibers that wait for a condition in a loop

Programs over fiber mutexes, each with one condition, that wait as in
`while (nothing there && no flag set) cond.wait()`. What is there is guarded by the mutex, and
the flags are not. A program is orderly if its locks go in pairs and if it signals what it
changes.
-/

namespace Xten.FiberProgram

open Std.Interleaving
open FiberSemphore (FiberId Waiter)

variable {Name Lock Data : Type}

/-- What a fiber still has to do. -/
inductive Code (Name Lock Data : Type) where
  | done
  /-- The body of a name, from its beginning. -/
  | goto (name : Name)
  | lock (mutex : Lock) (next : Code Name Lock Data)
  | unlock (mutex : Lock) (next : Code Name Lock Data)
  /-- `while (...) cond.wait()`, for the condition of the mutex. -/
  | await (mutex : Lock) (next : Code Name Lock Data)
  | signal (mutex : Lock) (next : Code Name Lock Data)
  /-- Changes the data in one step, as soon as they are ready for it, and goes on by what they
  have been. -/
  | act (ready : Data → Bool) (effect : Data → Data) (next : Data → Code Name Lock Data)
  /-- Goes on by an answer from outside. -/
  | ask (next : Bool → Code Name Lock Data)

/-- `std::once_flag`. -/
inductive Once where
  | idle
  | running
  | done
deriving DecidableEq, Repr

/-- What ends a wait: something is there, or a flag is set. `untold` says that what is announced
only once has not been announced yet. -/
structure Conditions (Lock Data : Type) where
  full : Lock → Data → Bool
  raised : Lock → Data → Bool
  untold : Data → Bool

/-- The predicate of the wait is false. -/
def Conditions.Busy (conditions : Conditions Lock Data) (mutex : Lock) (data : Data) : Prop :=
  conditions.full mutex data ∨ conditions.raised mutex data

instance (conditions : Conditions Lock Data) (mutex : Lock) (data : Data) :
    Decidable (conditions.Busy mutex data) :=
  inferInstanceAs (Decidable (_ ∨ _))

namespace Code

/-- A flag is read. -/
def test (flag : Data → Bool) (yes no : Code Name Lock Data) : Code Name Lock Data :=
  .act (fun _ => true) id fun data => if flag data then yes else no

/-- `std::call_once`. The others wait until the one call has returned. -/
def callOnce (flag : Data → Once) (set : Once → Data → Data)
    (body : Code Name Lock Data → Code Name Lock Data) (next : Code Name Lock Data) :
    Code Name Lock Data :=
  .act (fun data => flag data ≠ .running)
    (fun data => if flag data = .idle then set .running data else data)
    fun data =>
      if flag data = .idle then
        body (.act (fun data => flag data = .running) (set .done) fun _ => next)
      else next

/-- A signal to a condition is still to come, whatever the data are, with `untold` as it is. -/
def Signals (conditions : Conditions Lock Data) (mutex : Lock) :
    Bool → Code Name Lock Data → Prop
  | _, .done | _, .goto _ | _, .await _ _ => False
  | untold, .lock _ next | untold, .unlock _ next => next.Signals conditions mutex untold
  | untold, .signal other next => other = mutex ∨ next.Signals conditions mutex untold
  | untold, .act ready effect next => ∀ data, conditions.untold data = untold → ready data →
      (next data).Signals conditions mutex (conditions.untold (effect data))
  | untold, .ask next => ∀ answer, (next answer).Signals conditions mutex untold

/-- A change is orderly if what a waiter waits for comes with its mutex, and if a signal follows
to everybody whom the change concerns. -/
structure Announced (conditions : Conditions Lock Data) (held : Lock → Bool) (data changed : Data)
    (next : Code Name Lock Data) : Prop where
  guarded : ∀ mutex, conditions.full mutex changed → conditions.full mutex data ∨ held mutex
  busy : ∀ mutex, conditions.Busy mutex changed →
    conditions.Busy mutex data ∨ next.Signals conditions mutex (conditions.untold changed)
  told : ∀ mutex, conditions.untold changed = conditions.untold data ∨
    next.Signals conditions mutex (conditions.untold changed)

/-- A change that ends no wait. -/
theorem Announced.quiet {conditions : Conditions Lock Data} {held : Lock → Bool}
    {data changed : Data} {next : Code Name Lock Data}
    (full : ∀ mutex, conditions.full mutex changed → conditions.full mutex data)
    (raised : ∀ mutex, conditions.raised mutex changed → conditions.raised mutex data)
    (untold : conditions.untold changed = conditions.untold data) :
    Announced conditions held data changed next where
  guarded := fun mutex now => .inl (full mutex now)
  busy := fun mutex now => .inl (now.imp (full mutex) (raised mutex))
  told := fun _ => .inl untold

variable [DecidableEq Lock]

/-- The code is in order, for a fiber that has some of the mutexes. -/
def Orderly (conditions : Conditions Lock Data) : (Lock → Bool) → Code Name Lock Data → Prop
  | held, .done | held, .goto _ => held = fun _ => false
  | held, .lock mutex next =>
      held mutex = false ∧ next.Orderly conditions (Function.update held mutex true)
  | held, .unlock mutex next =>
      held mutex = true ∧ next.Orderly conditions (Function.update held mutex false)
  | held, .await mutex next => held mutex = true ∧ next.Orderly conditions held
  | held, .signal _ next => next.Orderly conditions held
  | held, .act ready effect next => ∀ data, ready data →
      Announced conditions held data (effect data) (next data) ∧
        (next data).Orderly conditions held
  | held, .ask next => ∀ answer, (next answer).Orderly conditions held

theorem Orderly.test {conditions : Conditions Lock Data} {held : Lock → Bool} {flag : Data → Bool}
    {yes no : Code Name Lock Data} (whenYes : yes.Orderly conditions held)
    (whenNo : no.Orderly conditions held) : (Code.test flag yes no).Orderly conditions held := by
  refine fun data _ => ⟨.quiet (fun _ => id) (fun _ => id) rfl, ?_⟩
  dsimp only
  split
  · exact whenYes
  · exact whenNo

/-- A mutex is given back. -/
theorem Orderly.unlock {conditions : Conditions Lock Data} {held : Lock → Bool} {mutex : Lock}
    {next : Code Name Lock Data} (after : next.Orderly conditions held)
    (free : held mutex = false) :
    (Code.unlock mutex next).Orderly conditions (Function.update held mutex true) := by
  refine ⟨Function.update_self _ _ _, ?_⟩
  rw [Function.update_idem, ← free, Function.update_eq_self]
  exact after

theorem Orderly.callOnce {conditions : Conditions Lock Data} {held : Lock → Bool}
    {flag : Data → Once} {set : Once → Data → Data}
    {body : Code Name Lock Data → Code Name Lock Data} {next : Code Name Lock Data}
    (first : ∀ data finish, flag data = .idle →
      Announced conditions held data (set .running data) (body finish))
    (last : ∀ data, flag data = .running → Announced conditions held data (set .done data) next)
    (inside : ∀ finish : Code Name Lock Data, finish.Orderly conditions held →
      (body finish).Orderly conditions held)
    (after : next.Orderly conditions held) :
    (Code.callOnce flag set body next).Orderly conditions held := by
  intro data _
  by_cases idle : flag data = .idle
  all_goals simp only [idle, if_true, if_false]
  · refine ⟨first data _ idle, inside _ fun data running => ⟨last data ?_, after⟩⟩
    exact of_decide_eq_true running
  · exact ⟨.quiet (fun _ => id) (fun _ => id) rfl, after⟩

end Code

/-- Where a fiber is: in its own code; between the test of a wait and the wait; before the switch
in `YieldToHold`, for a mutex or its condition; behind it; or between the sections of
`signal`. -/
inductive Position (Lock : Type) where
  | running
  | waiting (mutex : Lock)
  | leaving (mutex : Lock)
  | suspended (mutex : Lock)
  | signalling (mutex : Lock) (next : Waiter)
deriving DecidableEq, Repr

structure Thread (Name Lock Data : Type) where
  code : Code Name Lock Data
  held : Lock → Bool
  position : Position Lock

structure Shared (Lock Data : Type) where
  mutexes : Lock → FiberMutex.Shared
  data : Data

inductive Action (Name : Type) where
  | call (name : Name)
  /-- The fiber goes on, at a scheduler, with an answer if it asks for one. -/
  | go (scheduler : Nat) (answer : Bool)
deriving DecidableEq, Repr

variable [DecidableEq Lock]

/-- Programs, each of them in order, and those of them that are called from outside. -/
structure Program (Name Lock Data : Type) [DecidableEq Lock] extends Conditions Lock Data where
  body : Name → Code Name Lock Data
  called : Name → Bool
  orderly : ∀ name, (body name).Orderly toConditions fun _ => false

def Shared.set (shared : Shared Lock Data) (mutex : Lock) (state : FiberMutex.Shared) :
    Shared Lock Data :=
  { shared with mutexes := Function.update shared.mutexes mutex state }

@[simp] theorem Shared.set_data (shared : Shared Lock Data) (mutex : Lock)
    (state : FiberMutex.Shared) : (shared.set mutex state).data = shared.data :=
  rfl

@[simp] theorem Shared.set_self (shared : Shared Lock Data) (mutex : Lock)
    (state : FiberMutex.Shared) : (shared.set mutex state).mutexes mutex = state :=
  Function.update_self _ _ _

theorem Shared.set_other {mutex other : Lock} (apart : other ≠ mutex) (shared : Shared Lock Data)
    (state : FiberMutex.Shared) :
    (shared.set mutex state).mutexes other = shared.mutexes other :=
  Function.update_of_ne apart _ _

namespace Program

variable (program : Program Name Lock Data)

/-- One step of a fiber; none if it has to wait. -/
def exec (fiber : FiberId) (shared : Shared Lock Data) :
    Thread Name Lock Data → Action Name → Option (Shared Lock Data × Thread Name Lock Data)
  | ⟨.done, held, .running⟩, .call name =>
      if program.called name then some (shared, ⟨program.body name, held, .running⟩) else none
  | ⟨.goto name, held, .running⟩, .go _ _ => some (shared, ⟨program.body name, held, .running⟩)
  | ⟨.lock mutex next, held, .running⟩, .go scheduler _ =>
      let (locked, entered) := (shared.mutexes mutex).lock ⟨scheduler, fiber⟩
      some (shared.set mutex locked,
        if entered then ⟨next, Function.update held mutex true, .running⟩
        else ⟨next, held, .leaving mutex⟩)
  | ⟨.unlock mutex next, held, .running⟩, .go _ _ =>
      some (shared.set mutex ((shared.mutexes mutex).unlockNoLock fiber),
        ⟨next, Function.update held mutex false, .running⟩)
  | ⟨.await mutex next, held, .running⟩, .go _ _ =>
      if program.Busy mutex shared.data then some (shared, ⟨next, held, .running⟩)
      else some (shared, ⟨.await mutex next, held, .waiting mutex⟩)
  | ⟨.signal mutex next, held, .running⟩, .go _ _ =>
      match (shared.mutexes mutex).signal with
      | none => some (shared, ⟨next, held, .running⟩)
      | some (rest, first) => some (shared.set mutex rest, ⟨next, held, .signalling mutex first⟩)
  | ⟨.act ready effect next, held, .running⟩, .go _ _ =>
      if ready shared.data then
        some ({ shared with data := effect shared.data }, ⟨next shared.data, held, .running⟩)
      else
        none
  | ⟨.ask next, held, .running⟩, .go _ answer => some (shared, ⟨next answer, held, .running⟩)
  | ⟨code, held, .waiting mutex⟩, .go scheduler _ =>
      some (shared.set mutex ((shared.mutexes mutex).wait ⟨scheduler, fiber⟩),
        ⟨code, Function.update held mutex false, .leaving mutex⟩)
  | ⟨code, held, .leaving mutex⟩, .go _ _ => some (shared, ⟨code, held, .suspended mutex⟩)
  | ⟨code, held, .suspended mutex⟩, .go scheduler _ =>
      if ⟨scheduler, fiber⟩ ∈ (shared.mutexes mutex).ready then
        some (shared.set mutex ((shared.mutexes mutex).resume ⟨scheduler, fiber⟩),
          ⟨code, Function.update held mutex true, .running⟩)
      else
        none
  | ⟨code, held, .signalling mutex next⟩, .go _ _ =>
      some (shared.set mutex ((shared.mutexes mutex).enter next), ⟨code, held, .running⟩)
  | _, _ => none

abbrev State (Name Lock Data : Type) := Config (Shared Lock Data) (Thread Name Lock Data)

def step (state : State Name Lock Data) (action : FiberId × Action Name) :
    Option (State Name Lock Data) :=
  (program.exec action.1 state.shared (state.threads action.1) action.2).map fun next =>
    state.put action.1 next.1 next.2

end Program

/-- What a fiber is to a mutex and its condition. -/
def Thread.point (thread : Thread Name Lock Data) (mutex : Lock) : FiberMutex.Point :=
  match thread.position with
  | .running | .waiting _ => .running (thread.held mutex)
  | .leaving other => if other = mutex then .leaving else .running (thread.held mutex)
  | .suspended other => if other = mutex then .suspended else .running (thread.held mutex)
  | .signalling other next =>
      if other = mutex then .signalling (thread.held mutex) next else .running (thread.held mutex)

/-- What the run is to a mutex and its condition. -/
def mutexOf (mutex : Lock) (state : Program.State Name Lock Data) : FiberMutex.State :=
  state.view (fun shared => shared.mutexes mutex) fun thread => thread.point mutex

/-- What a fiber still has to do is in order. -/
def Thread.Orderly (conditions : Conditions Lock Data) (thread : Thread Name Lock Data) : Prop :=
  match thread.position with
  | .running | .signalling _ _ => thread.code.Orderly conditions thread.held
  | .waiting mutex => thread.held mutex = true ∧ thread.code.Orderly conditions thread.held
  | .leaving mutex | .suspended mutex =>
      thread.held mutex = false ∧
        thread.code.Orderly conditions (Function.update thread.held mutex true)

section Mutex

variable {program : Program Name Lock Data} {state later : Program.State Name Lock Data}
  {fiber : FiberId} {shared : Shared Lock Data} {next : Thread Name Lock Data} {mutex : Lock}

@[simp] theorem mutexOf_shared : (mutexOf mutex state).shared = state.shared.mutexes mutex :=
  rfl

theorem mutexOf_put : mutexOf mutex (state.put fiber shared next) =
    (mutexOf mutex state).put fiber (shared.mutexes mutex) (next.point mutex) :=
  @Config.view_put _ _ state fiber shared next _ _ (fun shared => shared.mutexes mutex)
    fun thread => thread.point mutex

/-- A step that leaves a mutex alone. -/
theorem correct_keep (correct : FiberMutex.Correct (mutexOf mutex state))
    (same : shared.mutexes mutex = state.shared.mutexes mutex)
    (point : next.point mutex = (state.threads fiber).point mutex) :
    FiberMutex.Correct (mutexOf mutex (state.put fiber shared next)) := by
  rw [mutexOf_put, same, point]
  exact correct.keep Iff.rfl Iff.rfl rfl

/-- A step at one of the mutexes. -/
theorem correct_set {other : Lock} {changed : FiberMutex.Shared} {thread : Thread Name Lock Data}
    (was : state.threads fiber = thread) (correct : FiberMutex.Correct (mutexOf mutex state))
    (there : other = mutex →
      FiberMutex.Correct ((mutexOf mutex state).put fiber changed (next.point mutex)))
    (elsewhere : other ≠ mutex → next.point mutex = thread.point mutex) :
    FiberMutex.Correct (mutexOf mutex (state.put fiber (state.shared.set other changed) next)) := by
  subst was
  obtain rfl | apart := eq_or_ne other mutex
  · rw [mutexOf_put, Shared.set_self]
    exact there rfl
  · exact correct_keep correct (Shared.set_other apart.symm _ _) (elsewhere apart)

theorem held_back {held : Lock → Bool} (holds : held mutex = true) :
    Function.update (Function.update held mutex false) mutex true = held := by
  rw [Function.update_idem, ← holds, Function.update_eq_self]

/-- What is in order stays so. -/
theorem Thread.Orderly.exec {before : Shared Lock Data} {thread : Thread Name Lock Data}
    {action : Action Name} (orderly : thread.Orderly program.toConditions)
    (executed : program.exec fiber before thread action = some (shared, next)) :
    next.Orderly program.toConditions := by
  revert executed
  fun_cases Program.exec program fiber before thread action
  all_goals
    unfold Thread.Orderly at orderly
    rintro ⟨⟩
  case case1 held name _ =>
    obtain rfl : held = fun _ => false := orderly
    exact program.orderly name
  case case3 name held _ _ =>
    obtain rfl : held = fun _ => false := orderly
    exact program.orderly name
  case case4 entered _ =>
    cases entered with
    | false => exact orderly
    | true => exact And.right orderly
  case case5 | case6 | case15 => exact And.right orderly
  case case7 => exact ⟨And.left orderly, orderly⟩
  case case8 | case9 | case14 | case17 => exact orderly
  case case10 ready => exact (orderly _ ready).2
  case case12 => exact orderly _
  case case13 =>
    obtain ⟨holds, orderly⟩ := orderly
    refine ⟨Function.update_self _ _ _, ?_⟩
    rw [held_back holds]
    exact orderly

/-- Programs in order use their mutexes and conditions as they are meant to be used. -/
theorem correct_exec {thread : Thread Name Lock Data} {action : Action Name}
    (was : state.threads fiber = thread) (correct : FiberMutex.Correct (mutexOf mutex state))
    (orderly : thread.Orderly program.toConditions)
    (executed : program.exec fiber state.shared thread action = some (shared, next)) :
    FiberMutex.Correct (mutexOf mutex (state.put fiber shared next)) := by
  have point : (mutexOf mutex state).threads fiber = thread.point mutex :=
    congrArg (fun thread => thread.point mutex) was
  revert executed
  fun_cases Program.exec program fiber state.shared thread action
  all_goals
    unfold Thread.Orderly at orderly
    rintro ⟨⟩
  case case1 | case3 | case6 | case7 | case8 | case10 | case12 =>
    exact correct_keep correct rfl (congrArg (fun thread => thread.point mutex) was).symm
  case case4 _ _ held scheduler _ locked entered outcome =>
    apply correct_set was correct
    case there =>
      rintro rfl
      have locks := @FiberMutex.Correct.lock _ fiber scheduler correct
        (point.trans (congrArg _ (And.left orderly)))
      change FiberMutex.Correct ((mutexOf _ state).put fiber
        ((state.shared.mutexes _).lock ⟨scheduler, fiber⟩).1
        (if ((state.shared.mutexes _).lock ⟨scheduler, fiber⟩).2 then _ else _)) at locks
      rw [outcome] at locks
      cases entered
      all_goals simpa [Thread.point] using locks
    case elsewhere =>
      intro apart
      cases entered
      all_goals simp [Thread.point, apart, apart.symm]
  case case5 =>
    apply correct_set was correct
    case there =>
      rintro rfl
      simpa [Thread.point] using correct.unlock (point.trans (congrArg _ (And.left orderly)))
    case elsewhere =>
      intro apart
      simp [Thread.point, apart.symm]
  case case9 taken =>
    apply correct_set was correct
    case there =>
      rintro rfl
      simpa [Thread.point] using correct.signal point taken
    case elsewhere =>
      intro apart
      simp [Thread.point, apart]
  case case13 =>
    apply correct_set was correct
    case there =>
      rintro rfl
      simpa [Thread.point] using correct.wait (point.trans (congrArg _ (And.left orderly)))
    case elsewhere =>
      intro apart
      simp [Thread.point, apart, apart.symm]
  case case14 other _ _ =>
    rw [mutexOf_put]
    refine correct.keep ?_ ?_ ?_
    all_goals
      rw [point]
      unfold Thread.point
      by_cases same : other = mutex
      all_goals simp [same, FiberMutex.Point.Blocked, FiberMutex.Point.Holds, FiberMutex.Point.hand]
  case case15 ready =>
    apply correct_set was correct
    case there =>
      rintro rfl
      simpa [Thread.point] using correct.resume (point.trans (by simp [Thread.point])) ready
    case elsewhere =>
      intro apart
      simp [Thread.point, apart, apart.symm]
  case case17 =>
    apply correct_set was correct
    case there =>
      rintro rfl
      simpa [Thread.point] using correct.hand_over (point.trans (if_pos rfl))
    case elsewhere =>
      intro apart
      simp [Thread.point, apart]

end Mutex

section Runs

variable {program : Program Name Lock Data} {mutex : Lock} {data : Data}
  {state later : Program.State Name Lock Data}

/-- No fiber has begun yet. -/
def Program.fresh (data : Data) : Program.State Name Lock Data where
  shared := ⟨fun _ => FiberMutex.fresh.shared, data⟩
  threads := fun _ => ⟨.done, fun _ => false, .running⟩

/-- The programs are in order, and use a mutex and its condition as they are meant to be used. -/
structure Sound (program : Program Name Lock Data) (mutex : Lock)
    (state : Program.State Name Lock Data) : Prop where
  correct : FiberMutex.Correct (mutexOf mutex state)
  orderly : ∀ fiber, (state.threads fiber).Orderly program.toConditions

theorem Sound.fresh : Sound program mutex (Program.fresh data) :=
  ⟨FiberMutex.mutex_correct (.refl _), fun _ => rfl⟩

theorem Sound.step {action : FiberId × Action Name} (sound : Sound program mutex state)
    (taken : program.step state action = some later) : Sound program mutex later := by
  obtain ⟨fiber, choice⟩ := action
  obtain ⟨⟨shared, next⟩, executed, rfl⟩ := Option.map_eq_some_iff.mp taken
  refine ⟨correct_exec rfl sound.correct (sound.orderly fiber) executed, fun one => ?_⟩
  obtain ⟨-, now⟩ | ⟨-, now⟩ := state.put_cases fiber shared next one
  all_goals rw [now]
  · exact (sound.orderly fiber).exec executed
  · exact sound.orderly one

/-- Whatever the fibers do. -/
theorem Program.sound (run : Runs program.step (fun _ _ => True) (fresh data) state) :
    Sound program mutex state :=
  run.invariant (fun _ _ _ sound _ taken => sound.step taken) .fresh

end Runs

end Xten.FiberProgram
