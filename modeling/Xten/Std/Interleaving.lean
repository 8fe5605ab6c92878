import Mathlib.Tactic

/-!
# Interleavings

Threads over a shared state, and runs of a step function. A thread is named by a
number; there is no bound on how many there are. A rule says which steps a run may take,
and a property kept by all of these holds wherever the run gets to.
-/

namespace Xten.Std.Interleaving

section Threads

variable {Shared Local : Type}

/-- A shared state and the state of every thread. -/
structure Config (Shared Local : Type) where
  shared : Shared
  threads : Nat → Local

/-- One thread and the shared state are replaced. -/
def Config.put (config : Config Shared Local) (thread : Nat) (shared : Shared) (state : Local) :
    Config Shared Local where
  shared := shared
  threads := fun other => if other = thread then state else config.threads other

variable {config : Config Shared Local} {thread other : Nat} {shared : Shared} {state : Local}

@[simp] theorem Config.put_shared : (config.put thread shared state).shared = shared :=
  rfl

@[simp] theorem Config.put_self : (config.put thread shared state).threads thread = state :=
  if_pos rfl

theorem Config.put_other (apart : other ≠ thread) :
    (config.put thread shared state).threads other = config.threads other :=
  if_neg apart

/-- A thread that may replace itself leaves the others alone. -/
theorem Config.map_put_other {result : Option (Shared × Local)} {after : Config Shared Local}
    (taken : (result.map fun next => config.put thread next.1 next.2) = some after)
    (apart : some thread ≠ some other) : after.threads other = config.threads other := by
  obtain ⟨next, -, rfl⟩ := Option.map_eq_some_iff.mp taken
  exact put_other fun same => apart (congrArg some same.symm)

/-- The later of two replacements counts. -/
theorem Config.put_put (shared' : Shared) (state' : Local) :
    (config.put thread shared state).put thread shared' state' = config.put thread shared' state' :=
  congrArg (Config.mk _) (funext fun other => by
    simp only [Config.put]
    split <;> rfl)

/-- A thread that stays where it is. -/
theorem Config.put_back (same : state = config.threads thread) :
    config.put thread shared state = { config with shared := shared } := by
  subst same
  refine congrArg (Config.mk _) (funext fun other => ?_)
  split
  case isTrue same => rw [same]
  case isFalse => rfl

/-- What a part of the shared state and of every thread is. -/
def Config.view {Part View : Type} (part : Shared → Part) (view : Local → View)
    (config : Config Shared Local) : Config Part View where
  shared := part config.shared
  threads := fun thread => view (config.threads thread)

theorem Config.view_put {Part View : Type} {part : Shared → Part} {view : Local → View} :
    (config.put thread shared state).view part view =
      (config.view part view).put thread (part shared) (view state) :=
  congrArg (Config.mk _) (funext fun _ => apply_ite view _ _ _)

/-- Each thread is the one that was replaced, or as before. -/
theorem Config.put_cases (config : Config Shared Local) (thread : Nat) (shared : Shared)
    (state : Local) (other : Nat) :
    other = thread ∧ (config.put thread shared state).threads other = state ∨
      other ≠ thread ∧ (config.put thread shared state).threads other = config.threads other := by
  by_cases same : other = thread
  · exact .inl ⟨same, if_pos same⟩
  · exact .inr ⟨same, put_other same⟩

/-- Some thread shows something, if the one that was replaced does not cease to. -/
theorem Config.exists_put {shows : Local → Prop} (some : ∃ other, shows (config.threads other))
    (kept : shows (config.threads thread) → shows state) :
    ∃ other, shows ((config.put thread shared state).threads other) := by
  obtain ⟨other, shown⟩ := some
  refine ⟨other, ?_⟩
  obtain ⟨rfl, now⟩ | ⟨-, now⟩ := config.put_cases thread shared state other
  all_goals rw [now]
  · exact kept shown
  · exact shown

/-- What is seen of the threads is as before, if it is of the one that was replaced. -/
theorem Config.put_view {Value : Type} (view : Local → Value)
    (same : view state = view (config.threads thread)) (other : Nat) :
    view ((config.put thread shared state).threads other) = view (config.threads other) := by
  obtain ⟨rfl, now⟩ | ⟨_, now⟩ := config.put_cases thread shared state other
  · rw [now, same]
  · rw [now]

/-- No two threads show the same. -/
def Config.Exclusive {Key : Type} (config : Config Shared Local) (shows : Local → Key → Prop) :
    Prop :=
  ∀ one other key, shows (config.threads one) key → shows (config.threads other) key → one = other

/-- A thread may come to show what no other thread shows. -/
theorem Config.Exclusive.put {Key : Type} {shows : Local → Key → Prop}
    (exclusive : config.Exclusive shows)
    (free : ∀ key, shows state key → ∀ other ≠ thread, ¬ shows (config.threads other) key) :
    (config.put thread shared state).Exclusive shows := by
  intro one other key first second
  obtain ⟨isOne, nowOne⟩ | ⟨isNotOne, nowOne⟩ := config.put_cases thread shared state one
  all_goals
    rw [nowOne] at first
    obtain ⟨isOther, nowOther⟩ | ⟨isNotOther, nowOther⟩ :=
      config.put_cases thread shared state other
    all_goals rw [nowOther] at second
  · rw [isOne, isOther]
  · exact absurd second (free key first other isNotOther)
  · exact absurd first (free key second one isNotOne)
  · exact exclusive one other key first second

end Threads

section Runs

variable {State Action : Type} {step : State → Action → Option State}
  {allowed stricter : State → Action → Prop} {before middle after : State}

/-- A run all of whose steps are allowed where they are taken. -/
inductive Runs (step : State → Action → Option State) (allowed : State → Action → Prop) :
    State → State → Prop where
  | refl (state : State) : Runs step allowed state state
  | tail {before middle after : State} {action : Action} (run : Runs step allowed before middle)
      (may : allowed middle action) (next : step middle action = some after) :
      Runs step allowed before after

theorem Runs.trans (first : Runs step allowed before middle)
    (second : Runs step allowed middle after) : Runs step allowed before after := by
  induction second with
  | refl => exact first
  | tail _ may next ih => exact ih.tail may next

/-- A stricter rule, which need only imply the other in the states that are reached. -/
theorem Runs.weaken {always : State → Prop}
    (holds : ∀ ⦃state⦄, Runs step stricter before state → always state)
    (weaker : ∀ ⦃state action⦄, always state → stricter state action → allowed state action)
    (run : Runs step stricter before after) : Runs step allowed before after := by
  induction run with
  | refl => exact .refl _
  | tail run may next ih => exact ih.tail (weaker (holds run) may) next

/-- What every allowed step keeps, every run keeps. -/
theorem Runs.invariant {property : State → Prop}
    (kept : ∀ ⦃state action next⦄, property state → allowed state action →
      step state action = some next → property next)
    (run : Runs step allowed before after) (start : property before) : property after := by
  induction run with
  | refl => exact start
  | tail _ may next ih => exact kept ih may next

/-- Take some actions one after the other, as long as each passes a check. -/
def replay (step : State → Action → Option State) (check : State → Action → Bool) :
    List Action → State → Option State
  | [], state => some state
  | action :: actions, state =>
      if check state action then (step state action).bind (replay step check actions) else none

theorem Runs.of_replay {check : State → Action → Bool} {actions : List Action}
    (sound : ∀ state action, check state action → allowed state action)
    (taken : replay step check actions before = some after) : Runs step allowed before after := by
  induction actions generalizing before with
  | nil =>
      cases taken
      exact .refl _
  | cons action actions ih =>
      rw [replay, Option.ite_none_right_eq_some] at taken
      obtain ⟨passes, taken⟩ := taken
      obtain ⟨middle, next, later⟩ := Option.bind_eq_some_iff.mp taken
      have one : Runs step allowed before middle := (Runs.refl _).tail (sound _ _ passes) next
      exact one.trans (ih later)

theorem replay_one {check : State → Action → Bool} {action : Action}
    (passes : check before action) (next : step before action = some after) :
    replay step check [action] before = some after := by
  rw [replay, if_pos passes, next]
  rfl

theorem replay_append {check : State → Action → Bool} {first second : List Action}
    (taken : replay step check first before = some middle)
    (rest : replay step check second middle = some after) :
    replay step check (first ++ second) before = some after := by
  induction first generalizing before with
  | nil =>
      cases taken
      exact rest
  | cons action first ih =>
      rw [replay, Option.ite_none_right_eq_some] at taken
      obtain ⟨passes, taken⟩ := taken
      obtain ⟨next, one, later⟩ := Option.bind_eq_some_iff.mp taken
      rw [List.cons_append, replay, if_pos passes, one]
      exact ih later

/-- Whoever does not act stays where it is. -/
theorem replay_other {Shared Local : Type} {step : Config Shared Local → Action →
      Option (Config Shared Local)} {check : Config Shared Local → Action → Bool}
    {actions : List Action} {state after : Config Shared Local} {actor : Action → Option Nat}
    (frame : ∀ ⦃state action next other⦄, step state action = some next → actor action ≠ some other →
      next.threads other = state.threads other)
    {thread : Nat} (taken : replay step check actions state = some after)
    (idle : ∀ action ∈ actions, actor action ≠ some thread) :
    after.threads thread = state.threads thread := by
  induction actions generalizing state with
  | nil =>
      cases taken
      rfl
  | cons action actions ih =>
      rw [replay, Option.ite_none_right_eq_some] at taken
      obtain ⟨-, taken⟩ := taken
      obtain ⟨middle, next, later⟩ := Option.bind_eq_some_iff.mp taken
      rw [ih later fun other member => idle other (List.mem_cons_of_mem _ member)]
      exact frame next (idle action List.mem_cons_self)

/-- What holds of the threads that act, and of the others where the run begins, holds of
all threads. -/
theorem replay_forall {Shared Local : Type} {step : Config Shared Local → Action →
      Option (Config Shared Local)} {check : Config Shared Local → Action → Bool}
    {actions : List Action} {state after : Config Shared Local} {actor : Action → Option Nat}
    {motive : Local → Prop}
    (frame : ∀ ⦃state action next other⦄, step state action = some next → actor action ≠ some other →
      next.threads other = state.threads other)
    (bound : Nat) (taken : replay step check actions state = some after)
    (few : ∀ action ∈ actions, ∀ thread ∈ actor action, thread < bound)
    (early : ∀ thread < bound, motive (after.threads thread))
    (late : ∀ thread, bound ≤ thread → motive (state.threads thread)) (thread : Nat) :
    motive (after.threads thread) := by
  by_cases takes : thread < bound
  · exact early thread takes
  · rw [replay_other frame taken fun action member acting => takes (few action member thread acting)]
    exact late thread (Nat.le_of_not_lt takes)

end Runs

end Xten.Std.Interleaving
