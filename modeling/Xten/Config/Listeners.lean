import Xten.Std.Interleaving

/-!
# The listeners of a ConfigVar

`SetValue` tells the listeners under the read lock of a new value, and stores it under the write
lock later. Each section under the lock is one step, and so are the calls of the listeners in one.
-/

namespace Xten.ConfigVar

open Std.Interleaving

variable {T : Type}

/-- A listener. `initial` is the value of the variable when it was added, and `last` the one that
it was called with last. -/
structure Listener (T : Type) where
  initial : T
  last : Option T
deriving DecidableEq, Repr

/-- A setting that a listener sets to the value of the variable, as `RockLengthInit` makes them. -/
def Listener.mirror (listener : Listener T) : T :=
  listener.last.getD listener.initial

/-- A call of `SetValue` that has told the listeners. `ticket` says how many had done so then. -/
structure Setter (T : Type) where
  ticket : Nat
  val : T
deriving DecidableEq, Repr

/-- `changeCbs` has the listeners by an `int`, and `cbCount` is what all variables of a type
share. `notified` counts how often the listeners have been told. -/
structure State (T : Type) where
  val : T
  changeCbs : List (BitVec 32 × Listener T)
  cbCount : BitVec 64
  setters : List (Setter T)
  notified : Nat
deriving DecidableEq, Repr

inductive Action (T : Type) where
  /-- `SetValue` compares and tells the listeners. -/
  | notify (val : T)
  /-- One of the listeners throws, after some have been called. -/
  | throw (val : T) (called : List (BitVec 32))
  /-- `SetValue` stores its value. -/
  | store (index : Nat)
  | addListener
  /-- A listener is added to another variable of the type. -/
  | addElsewhere
  | delListener (key : BitVec 64)
  | clearListener
deriving DecidableEq, Repr

namespace State

variable (state : State T)

/-- Some listeners are called with a value. -/
def call (val : T) (called : BitVec 32 → Bool) : State T :=
  { state with changeCbs := state.changeCbs.map fun (key, listener) =>
      (key, if called key then { listener with last := some val } else listener) }

/-- `SetValue` up to where it leaves the read lock. -/
def notify [BEq T] (val : T) : State T :=
  if state.val == val then state
  else
    { state.call val (fun _ => true) with
      setters := state.setters ++ [⟨state.notified + 1, val⟩]
      notified := state.notified + 1 }

/-- `SetValue` where a listener throws. -/
def throw [BEq T] (val : T) (called : List (BitVec 32)) : Option (State T) :=
  if state.val == val then none else some (state.call val (· ∈ called))

def store (index : Nat) : Option (State T) :=
  (state.setters[index]?).map fun setter =>
    { state with val := setter.val, setters := state.setters.eraseIdx index }

/-- `AddListener`. A key that has been used before is taken over. -/
def addListener : State T :=
  let count := state.cbCount + 1
  let key := count.truncate 32
  { state with
    cbCount := count
    changeCbs := state.changeCbs.filter (·.1 ≠ key) ++ [(key, ⟨state.val, none⟩)] }

def delListener (key : BitVec 64) : State T :=
  { state with changeCbs := state.changeCbs.filter (·.1 ≠ key.truncate 32) }

end State

def step [BEq T] (state : State T) : Action T → Option (State T)
  | .notify val => some (state.notify val)
  | .throw val called => state.throw val called
  | .store index => state.store index
  | .addListener => some state.addListener
  | .addElsewhere => some { state with cbCount := state.cbCount + 1 }
  | .delListener key => some (state.delListener key)
  | .clearListener => some { state with changeCbs := [] }

/-- A new variable, of a type that has had listeners before. -/
def fresh (val : T) (cbCount : BitVec 64) : State T where
  val := val
  changeCbs := []
  cbCount := cbCount
  setters := []
  notified := 0

section Agreement

/-- As long as no value is being set, the listeners have been called with the one that the variable
has, if they have been called. -/
def Agreed (state : State T) : Prop :=
  state.setters = [] →
    ∀ listener ∈ state.changeCbs, ∀ val, listener.2.last = some val → val = state.val

/-- No listener throws, and of the values that are being set the last one to be stored is the one
that the listeners were told of last. -/
def Ordered (state : State T) : Action T → Prop
  | .throw _ _ => False
  | .store _ => ∀ setter, state.setters = [setter] → setter.ticket = state.notified
  | _ => True

/-- Listeners are added while no value is being set. -/
def Quiet (state : State T) : Action T → Prop
  | .addListener => state.setters = []
  | _ => True

/-- `latest` is the value that the listeners were told of last. -/
structure Told (state : State T) (latest : Option T) : Prop where
  listeners : ∀ listener ∈ state.changeCbs, listener.2.last = none ∨ listener.2.last = latest
  early : ∀ setter ∈ state.setters, setter.ticket ≤ state.notified
  setters : ∀ setter ∈ state.setters, setter.ticket = state.notified → latest = some setter.val
  stored : state.setters = [] → ∀ val, latest = some val → val = state.val

variable {state next : State T} {latest : Option T} {val : T} {index : Nat}

theorem Told.fresh (val : T) (cbCount : BitVec 64) : Told (fresh val cbCount) none where
  listeners _ member := absurd member List.not_mem_nil
  early _ member := absurd member List.not_mem_nil
  setters _ member := absurd member List.not_mem_nil
  stored _ _ := nofun

/-- Other listeners, of which none has been called that is new. -/
theorem Told.relist (told : Told state latest) (setters : next.setters = state.setters)
    (notified : next.notified = state.notified) (val : next.val = state.val)
    (listeners : ∀ listener ∈ next.changeCbs,
      listener ∈ state.changeCbs ∨ listener.2.last = none) : Told next latest where
  listeners listener member := (listeners listener member).elim (told.listeners listener) .inl
  early := by
    rw [setters, notified]
    exact told.early
  setters := by
    rw [setters, notified]
    exact told.setters
  stored := by
    rw [setters, val]
    exact told.stored

theorem Told.store (told : Told state latest) (ordered : Ordered state (.store index))
    (taken : state.store index = some next) : Told next latest := by
  obtain ⟨setter, found, rfl⟩ := Option.map_eq_some_iff.mp taken
  constructor
  case listeners => exact told.listeners
  case early => exact fun other member => told.early other (List.mem_of_mem_eraseIdx member)
  case setters => exact fun other member => told.setters other (List.mem_of_mem_eraseIdx member)
  case stored =>
    -- nobody else is setting a value, so this was the last one to tell the listeners
    intro none val isLatest
    obtain ⟨bound, rfl⟩ := List.getElem?_eq_some_iff.mp found
    have perm := List.getElem_cons_eraseIdx_perm bound
    rw [show state.setters.eraseIdx index = [] from none] at perm
    have alone : state.setters = [state.setters[index]] := List.perm_singleton.mp perm.symm
    have told := told.setters _ (List.getElem_mem bound) (ordered _ alone)
    exact Option.some.inj (isLatest.symm.trans told)

theorem Told.agreed (told : Told state latest) : Agreed state := by
  intro idle listener member value called
  obtain never | isLatest := told.listeners listener member
  · rw [never] at called
    cases called
  · exact told.stored idle value (isLatest.symm.trans called)

theorem ordered_store_iff : Ordered state (.store index) ↔
    ∀ setter ∈ state.setters, state.setters.length = 1 → setter.ticket = state.notified := by
  constructor
  · intro ordered setter member single
    obtain ⟨only, alone⟩ := List.length_eq_one_iff.mp single
    rw [alone, List.mem_singleton] at member
    exact ordered setter (member ▸ alone)
  · intro tickets setter alone
    exact tickets setter (by simp [alone]) (by simp [alone])

instance (state : State T) (action : Action T) : Decidable (Ordered state action) :=
  match action with
  | .throw _ _ => isFalse id
  | .store _ => decidable_of_iff _ ordered_store_iff.symm
  | .notify _ | .addListener | .addElsewhere | .delListener _ | .clearListener => isTrue trivial

variable [BEq T]

theorem Told.notify (told : Told state latest) (val : T) :
    ∃ latest, Told (state.notify val) latest := by
  rw [State.notify]
  split
  case isTrue => exact ⟨latest, told⟩
  case isFalse =>
    refine ⟨some val, fun listener member => ?_, fun setter member => ?_, fun setter member now => ?_,
      fun none => ?_⟩
    · obtain ⟨_, -, rfl⟩ := List.mem_map.mp member
      exact .inr rfl
    · obtain old | new := List.mem_append.mp member
      · exact Nat.le_succ_of_le (told.early setter old)
      · rw [List.mem_singleton.mp new]
    · obtain old | new := List.mem_append.mp member
      · exact absurd now (Nat.ne_of_lt (Nat.lt_succ_of_le (told.early setter old)))
      · rw [List.mem_singleton.mp new]
    · exact absurd none (List.append_ne_nil_of_right_ne_nil _ (List.cons_ne_nil _ _))

/-- Each step that is in order keeps to what the listeners have been told. -/
theorem Told.step {action : Action T} (told : Told state latest) (ordered : Ordered state action)
    (taken : ConfigVar.step state action = some next) : ∃ latest, Told next latest := by
  cases action with
  | notify val =>
      cases taken
      exact told.notify val
  | throw val called => exact absurd ordered id
  | store index => exact ⟨latest, told.store ordered taken⟩
  | addListener =>
      cases taken
      refine ⟨latest, told.relist rfl rfl rfl fun listener member => ?_⟩
      obtain old | new := List.mem_append.mp member
      · exact .inl (List.mem_of_mem_filter old)
      · rw [List.mem_singleton.mp new]
        exact .inr rfl
  | addElsewhere =>
      cases taken
      exact ⟨latest, told.relist rfl rfl rfl fun _ member => .inl member⟩
  | delListener key =>
      cases taken
      exact ⟨latest, told.relist rfl rfl rfl fun _ member => .inl (List.mem_of_mem_filter member)⟩
  | clearListener =>
      cases taken
      exact ⟨latest, told.relist rfl rfl rfl fun _ member => absurd member List.not_mem_nil⟩

theorem told_of_run {val : T} {cbCount : BitVec 64}
    (run : Runs step Ordered (fresh val cbCount) state) : ∃ latest, Told state latest :=
  @Runs.invariant _ _ _ _ _ _ (fun state : State T => ∃ latest, Told state latest)
    (fun _ _ _ ⟨_, told⟩ ordered taken => told.step ordered taken) run ⟨none, .fresh val cbCount⟩

/-- The listeners agree with the variable, as long as the last value to be stored is always the
one that they were told of last. -/
theorem listeners_agree {val : T} {cbCount : BitVec 64}
    (run : Runs step Ordered (fresh val cbCount) state) : Agreed state := by
  obtain ⟨latest, told⟩ := told_of_run run
  exact told.agreed

/-- Two calls of `SetValue`, which overlap, and store in the order in which they have called the
listener. -/
def setTwice : State Nat :=
  (replay step (fun state action => decide (Ordered state action))
    [.addListener, .notify 1, .notify 2, .store 0, .store 0] (fresh 0 0)).get (by decide)

theorem listeners_agree_twice : Agreed setTwice :=
  @listeners_agree Nat setTwice _ 0 0
    (.of_replay (fun _ _ => of_decide_eq_true) (Option.some_get _).symm)

/-- The same, but the first one stores its value last. -/
def setAcross : State Nat :=
  (replay step (fun _ _ => true)
    [.addListener, .notify 1, .notify 2, .store 1, .store 0] (fresh 0 0)).get (by decide)

/-- The listener has been called with a value that the variable no longer has. -/
theorem not_listeners_agree : ¬ ∀ (val : Nat) (cbCount : BitVec 64) (state : State Nat),
    Runs step (fun _ _ => True) (fresh val cbCount) state → Agreed state := by
  intro claim
  have agreed := claim 0 0 setAcross (.of_replay (fun _ _ _ => trivial) (Option.some_get _).symm)
  have same : (2 : Nat) = 1 := agreed rfl (1, ⟨0, some 2⟩) (by decide) 2 rfl
  cases same

/-- A listener that has not been called was added to the variable as it is. -/
def Unchanged (state : State T) : Prop :=
  ∀ listener ∈ state.changeCbs, listener.2.last = none →
    state.setters = [] ∧ listener.2.initial = state.val

theorem Unchanged.step {action : Action T} (unchanged : Unchanged state)
    (ordered : Ordered state action) (quiet : Quiet state action)
    (taken : ConfigVar.step state action = some next) : Unchanged next := by
  intro listener member never
  cases action with
  | notify val =>
      cases taken
      rw [State.notify] at member ⊢
      split at member
      case isTrue same =>
        rw [if_pos same]
        exact unchanged listener member never
      case isFalse =>
        obtain ⟨_, -, rfl⟩ := List.mem_map.mp member
        cases never
  | throw val called => exact absurd ordered id
  | store index =>
      obtain ⟨setter, found, rfl⟩ := Option.map_eq_some_iff.mp taken
      have none := (unchanged listener member never).1
      rw [none] at found
      cases found
  | addListener =>
      cases taken
      obtain old | new := List.mem_append.mp member
      · exact unchanged listener (List.mem_of_mem_filter old) never
      · rw [List.mem_singleton.mp new]
        exact ⟨quiet, rfl⟩
  | addElsewhere =>
      cases taken
      exact unchanged listener member never
  | delListener key =>
      cases taken
      exact unchanged listener (List.mem_of_mem_filter member) never
  | clearListener =>
      cases taken
      exact absurd member List.not_mem_nil

/-- The settings that listeners mirror agree with the variable, if they are added while no value
is being set. -/
theorem mirrors_agree {val : T} {cbCount : BitVec 64}
    (run : Runs step (fun state action => Ordered state action ∧ Quiet state action)
      (fresh val cbCount) state) (idle : state.setters = []) :
    ∀ listener ∈ state.changeCbs, listener.2.mirror = state.val := by
  have unchanged : Unchanged state :=
    @Runs.invariant _ _ _ _ _ _ (fun state : State T => Unchanged state)
      (fun _ _ _ unchanged may taken => unchanged.step may.1 may.2 taken) run
      (fun _ member => absurd member List.not_mem_nil)
  obtain ⟨latest, told⟩ : ∃ latest, Told state latest :=
    told_of_run (run.weaken (fun _ _ => trivial) fun _ _ _ may => may.1)
  intro listener member
  rw [Listener.mirror]
  cases called : listener.2.last with
  | none => exact (unchanged listener member called).2
  | some value => exact told.agreed idle listener member value called

end Agreement

end Xten.ConfigVar
