import Mathlib.Tactic

/-!
# Programs that return or stop short

Results of `EStateM` programs, and the simulation of one program by another over a
relation between their states: both return the same value, or both stop short with
the same fault. Simulation is closed under the ways of building programs.
-/

namespace Xten.Std.Programs

variable {ε σ τ α β γ : Type}

section Results

variable {program : EStateM ε σ α} {next : α → EStateM ε σ β} {before after : σ}

theorem bind_ok {value : α} (done : program before = .ok value after) :
    (program >>= next) before = next value after := by
  change EStateM.bind program next before = _
  rw [EStateM.bind, done]

theorem bind_error {fault : ε} (stopped : program before = .error fault after) :
    (program >>= next) before = .error fault after := by
  change EStateM.bind program next before = _
  rw [EStateM.bind, stopped]

/-- What a composed program returned, its second part returned after its first. -/
theorem of_bind_ok {value : β} (done : (program >>= next) before = .ok value after) :
    ∃ first middle, program before = .ok first middle ∧ next first middle = .ok value after := by
  cases result : program before with
  | ok first middle =>
      rw [bind_ok result] at done
      exact ⟨first, middle, rfl, done⟩
  | error fault middle =>
      rw [bind_error result] at done
      cases done

theorem get_bind {next : σ → EStateM ε σ β} :
    (get >>= next : EStateM ε σ β) before = next before before :=
  rfl

/-- A program returns from a state, whatever it returns. -/
def Returns (program : EStateM ε σ α) (before : σ) : Prop :=
  ∃ value after, program before = .ok value after

theorem not_returns {fault : ε} (stopped : program before = .error fault after) :
    ¬ Returns program before := by
  rintro ⟨value, later, done⟩
  rw [stopped] at done
  cases done

/-- How a program stops short from a state, if it does. -/
def stopped (program : EStateM ε σ α) (before : σ) : Option ε :=
  match program before with
  | .ok _ _ => none
  | .error fault _ => some fault

theorem stopped_ok {value : α} (done : program before = .ok value after) :
    stopped program before = none := by
  rw [stopped, done]

theorem stopped_error {fault : ε} (stops : program before = .error fault after) :
    stopped program before = some fault := by
  rw [stopped, stops]

end Results

section Invariants

/-- The state in which a program ends, whether it returns or stops short. -/
def final : EStateM.Result ε σ α → σ
  | .ok _ after => after
  | .error _ after => after

/-- A program keeps an invariant of its states. -/
def Keeps (invariant : σ → Prop) (program : EStateM ε σ α) : Prop :=
  ∀ ⦃before⦄, invariant before → invariant (final (program before))

variable {invariant : σ → Prop}

theorem Keeps.pure (value : α) : Keeps invariant (pure value : EStateM ε σ α) :=
  fun _ holds => holds

theorem Keeps.throw (fault : ε) : Keeps invariant (throw fault : EStateM ε σ α) :=
  fun _ holds => holds

theorem Keeps.bind {program : EStateM ε σ α} {next : α → EStateM ε σ β}
    (head : Keeps invariant program) (tail : ∀ value, Keeps invariant (next value)) :
    Keeps invariant (program >>= next) := by
  intro before holds
  have middle := head holds
  cases done : program before with
  | ok value after =>
      rw [done] at middle
      rw [bind_ok done]
      exact tail value middle
  | error fault after =>
      rw [done] at middle
      rw [bind_error done]
      exact middle

/-- A program that looks at its state first. -/
theorem Keeps.get {next : σ → EStateM ε σ α} (tail : ∀ state, Keeps invariant (next state)) :
    Keeps invariant (get >>= next) :=
  fun before holds => tail before holds

theorem Keeps.map {program : EStateM ε σ α} (keeps : Keeps invariant program) (post : α → β) :
    Keeps invariant (do return post (← program)) :=
  keeps.bind fun value => Keeps.pure (post value)

theorem Keeps.ite {condition : Prop} [Decidable condition] {yes no : EStateM ε σ α}
    (whenYes : Keeps invariant yes) (whenNo : Keeps invariant no) :
    Keeps invariant (if condition then yes else no) := by
  split
  · exact whenYes
  · exact whenNo

theorem Keeps.forM {program : γ → EStateM ε σ PUnit} (items : List γ)
    (each : ∀ item, Keeps invariant (program item)) : Keeps invariant (items.forM program) := by
  induction items with
  | nil => exact Keeps.pure PUnit.unit
  | cons item items ih => exact (each item).bind fun _ => ih

end Invariants

section Simulation

/-- Two results that differ in their states only, which are related. -/
inductive Agree (related : σ → τ → Prop) :
    EStateM.Result ε σ α → EStateM.Result ε τ α → Prop where
  | ok (value : α) {left : σ} {right : τ} (states : related left right) :
      Agree related (.ok value left) (.ok value right)
  | error (fault : ε) {left : σ} {right : τ} (states : related left right) :
      Agree related (.error fault left) (.error fault right)

/-- From related states a program does what another one does. -/
def Simulates (related : σ → τ → Prop) (program : EStateM ε σ α) (spec : EStateM ε τ α) :
    Prop :=
  ∀ ⦃left right⦄, related left right → Agree related (program left) (spec right)

variable {related : σ → τ → Prop}

theorem Simulates.pure (value : α) :
    Simulates related (pure value : EStateM ε σ α) (pure value) :=
  fun _ _ states => .ok value states

theorem Simulates.throw (fault : ε) :
    Simulates related (throw fault : EStateM ε σ α) (throw fault) :=
  fun _ _ states => .error fault states

theorem Simulates.bind {program : EStateM ε σ α} {spec : EStateM ε τ α}
    {next : α → EStateM ε σ β} {specNext : α → EStateM ε τ β}
    (head : Simulates related program spec)
    (tail : ∀ value, Simulates related (next value) (specNext value)) :
    Simulates related (program >>= next) (spec >>= specNext) := by
  intro left right states
  have first := head states
  generalize one : program left = result at first
  generalize other : spec right = specResult at first
  cases first with
  | ok value states =>
      rw [bind_ok one, bind_ok other]
      exact tail value states
  | error fault states =>
      rw [bind_error one, bind_error other]
      exact .error fault states

theorem Simulates.map {program : EStateM ε σ α} {spec : EStateM ε τ α}
    (simulates : Simulates related program spec) (post : α → β) :
    Simulates related (do return post (← program)) (do return post (← spec)) :=
  simulates.bind fun value => Simulates.pure (post value)

theorem Simulates.ite {condition : Prop} [Decidable condition] {yes no : EStateM ε σ α}
    {specYes specNo : EStateM ε τ α} (whenYes : Simulates related yes specYes)
    (whenNo : Simulates related no specNo) :
    Simulates related (if condition then yes else no) (if condition then specYes else specNo) := by
  split
  · exact whenYes
  · exact whenNo

/-- What the specification returns, the program returns. -/
theorem Simulates.ok {program : EStateM ε σ α} {spec : EStateM ε τ α}
    (simulates : Simulates related program spec) {left : σ} {right right' : τ}
    (states : related left right) {value : α} (done : spec right = .ok value right') :
    ∃ left', program left = .ok value left' ∧ related left' right' := by
  have agree := simulates states
  rw [done] at agree
  generalize same : program left = result at agree
  cases agree with
  | ok _ states => exact ⟨_, rfl, states⟩

theorem Simulates.error {program : EStateM ε σ α} {spec : EStateM ε τ α}
    (simulates : Simulates related program spec) {left : σ} {right right' : τ}
    (states : related left right) {fault : ε} (stopped : spec right = .error fault right') :
    ∃ left', program left = .error fault left' ∧ related left' right' := by
  have agree := simulates states
  rw [stopped] at agree
  generalize same : program left = result at agree
  cases agree with
  | error _ states => exact ⟨_, rfl, states⟩

/-- Of two programs one of which does what the other does, both stop short in one way. -/
theorem Simulates.stopped_eq {program : EStateM ε σ α} {spec : EStateM ε τ α}
    (simulates : Simulates related program spec) {left : σ} {right : τ}
    (states : related left right) : stopped program left = stopped spec right := by
  have agree := simulates states
  simp only [stopped]
  generalize program left = result at agree
  generalize spec right = specResult at agree
  cases agree with
  | ok value states => rfl
  | error fault states => rfl

end Simulation

end Xten.Std.Programs
