import Xten.Fiber.Programs

/-!
# Orderly programs lose a wake-up only by a flag, or by one signal for two

A fiber in the waiters of a condition has nothing to go on with, or a signal is still to come,
as long as the last signal does not come between a fiber's test and its wait once a flag is set,
and does not find two fibers in the waiters. A last signal that does so leaves somebody there.
-/

namespace Xten.FiberProgram

open Std.Interleaving
open FiberSemphore (FiberId Waiter)

variable {Name Lock Data : Type}

/-- A signal to the condition of a mutex is still to come. -/
def Coming (conditions : Conditions Lock Data) (mutex : Lock)
    (state : Program.State Name Lock Data) : Prop :=
  ∃ fiber, (state.threads fiber).code.Signals conditions mutex (conditions.untold state.shared.data)

/-- Nobody is left in the waiters of a condition with something to go on with. -/
def Attended (conditions : Conditions Lock Data) (mutex : Lock)
    (state : Program.State Name Lock Data) : Prop :=
  (state.shared.mutexes mutex).condition ≠ [] → conditions.Busy mutex state.shared.data →
    Coming conditions mutex state

/-- A last signal to a condition does not come between a fiber's test and its wait, if a flag is
set, and finds one fiber at most in the waiters, if there is something to go on with. -/
def Watched (conditions : Conditions Lock Data) (mutex : Lock)
    (state : Program.State Name Lock Data) (action : FiberId × Action Name) : Prop :=
  ∀ next held, state.threads action.1 = ⟨.signal mutex next, held, .running⟩ →
    Coming conditions mutex (state.put action.1 state.shared ⟨next, held, .running⟩) ∨
      (conditions.raised mutex state.shared.data →
        ∀ fiber, (state.threads fiber).position ≠ .waiting mutex) ∧
      (conditions.Busy mutex state.shared.data →
        (state.shared.mutexes mutex).condition.length ≤ 1)

/-- The invariant. -/
structure Woken [DecidableEq Lock] (program : Program Name Lock Data) (mutex : Lock)
    (state : Program.State Name Lock Data) : Prop extends Sound program mutex state where
  /-- Whoever is about to wait has found nothing, and has kept others from putting it there. -/
  empty : ∀ fiber, (state.threads fiber).position = .waiting mutex →
    ¬ program.full mutex state.shared.data
  coming : (∃ fiber, (state.threads fiber).position = .waiting mutex) ∨
      (state.shared.mutexes mutex).condition ≠ [] →
    program.Busy mutex state.shared.data → Coming program.toConditions mutex state

section Signals

variable {conditions : Conditions Lock Data} {mutex : Lock}
  {state : Program.State Name Lock Data} {fiber : FiberId} {shared : Shared Lock Data}
  {next : Thread Name Lock Data}

/-- A signal that is to come counts wherever its fiber is. -/
theorem Coming.same {state' : Program.State Name Lock Data}
    (coming : Coming conditions mutex state)
    (codes : ∀ fiber, (state'.threads fiber).code = (state.threads fiber).code)
    (data : state'.shared.data = state.shared.data) :
    Coming conditions mutex state' := by
  obtain ⟨fiber, signals⟩ := coming
  refine ⟨fiber, ?_⟩
  rw [codes, data]
  exact signals

theorem code_put {shared' : Shared Lock Data} {next' : Thread Name Lock Data}
    (code : next'.code = next.code) (one : FiberId) :
    ((state.put fiber shared' next').threads one).code =
      ((state.put fiber shared next).threads one).code := by
  obtain ⟨rfl, now⟩ | ⟨apart, now⟩ := state.put_cases fiber shared next one
  all_goals rw [now]
  · rw [Config.put_self, code]
  · rw [Config.put_other apart]

/-- A fiber that changes the data, and sees to those who go by what has been told. -/
theorem Coming.change (coming : Coming conditions mutex state)
    (own : (state.threads fiber).code.Signals conditions mutex
        (conditions.untold state.shared.data) →
      next.code.Signals conditions mutex (conditions.untold shared.data))
    (told : conditions.untold shared.data = conditions.untold state.shared.data ∨
      next.code.Signals conditions mutex (conditions.untold shared.data)) :
    Coming conditions mutex (state.put fiber shared next) := by
  obtain ⟨one, signals⟩ := coming
  obtain rfl | apart := eq_or_ne one fiber
  · refine ⟨one, ?_⟩
    rw [Config.put_self]
    exact own signals
  · obtain same | signals' := told
    · refine ⟨one, ?_⟩
      rw [Config.put_other apart, Config.put_shared, same]
      exact signals
    · refine ⟨fiber, ?_⟩
      rw [Config.put_self]
      exact signals'

/-- A fiber that goes on without a signal of its own, and leaves the data as they are. -/
theorem Coming.keep (coming : Coming conditions mutex state)
    (data : shared.data = state.shared.data)
    (signals : ∀ untold, (state.threads fiber).code.Signals conditions mutex untold →
      next.code.Signals conditions mutex untold) :
    Coming conditions mutex (state.put fiber shared next) := by
  refine coming.change (fun own => ?_) (.inl (congrArg _ data))
  rw [data]
  exact signals _ own

/-- Who waits in the next state, if the fiber that has gone on does not begin to. -/
theorem waiting_put (waits : next.position = .waiting mutex →
      (state.threads fiber).position = .waiting mutex) {one : FiberId}
    (waiting : ((state.put fiber shared next).threads one).position = .waiting mutex) :
    (state.threads one).position = .waiting mutex := by
  obtain ⟨rfl, now⟩ | ⟨-, now⟩ := state.put_cases fiber shared next one
  all_goals rw [now] at waiting
  · exact waits waiting
  · exact waiting

end Signals

section Steps

variable [DecidableEq Lock] {program : Program Name Lock Data} {mutex other : Lock}
  {state later : Program.State Name Lock Data} {fiber : FiberId} {shared : Shared Lock Data}
  {thread next : Thread Name Lock Data}

theorem condition_set {changed : FiberMutex.Shared}
    (same : changed.condition = (shared.mutexes other).condition) :
    ((shared.set other changed).mutexes mutex).condition = (shared.mutexes mutex).condition := by
  obtain rfl | apart := eq_or_ne other mutex
  · rw [Shared.set_self, same]
  · rw [Shared.set_other apart.symm]

/-- A step that neither changes the data nor concerns the condition. -/
theorem Woken.keep (woken : Woken program mutex state)
    (sound : Sound program mutex (state.put fiber shared next))
    (data : shared.data = state.shared.data)
    (condition : (shared.mutexes mutex).condition = (state.shared.mutexes mutex).condition)
    (waits : next.position = .waiting mutex → (state.threads fiber).position = .waiting mutex)
    (signals : ∀ untold, (state.threads fiber).code.Signals program.toConditions mutex untold →
      next.code.Signals program.toConditions mutex untold) :
    Woken program mutex (state.put fiber shared next) := by
  refine ⟨sound, fun one waiting => ?_, fun parked busy => ?_⟩
  · rw [Config.put_shared, data]
    exact woken.empty one (waiting_put waits waiting)
  · rw [Config.put_shared, data] at busy
    rw [Config.put_shared, condition] at parked
    refine (woken.coming (parked.imp_left ?_) busy).keep data signals
    rintro ⟨one, waiting⟩
    exact ⟨one, waiting_put waits waiting⟩

/-- As long as there is nothing to go on with, nobody misses it. -/
theorem Woken.idle (sound : Sound program mutex state)
    (idle : ¬ program.Busy mutex state.shared.data) : Woken program mutex state :=
  ⟨sound, fun _ _ full => idle (.inl full), fun _ busy => absurd busy idle⟩

/-- A fiber goes into the waiters of the condition. -/
theorem Woken.wait (woken : Woken program mutex state)
    (waiting : (state.threads fiber).position = .waiting mutex)
    (sound : Sound program mutex (state.put fiber shared next))
    (data : shared.data = state.shared.data)
    (left : next.position ≠ .waiting mutex) (code : next.code = (state.threads fiber).code) :
    Woken program mutex (state.put fiber shared next) := by
  refine ⟨sound, fun one waits => ?_, fun _ busy => ?_⟩
  · rw [Config.put_shared, data]
    exact woken.empty one (waiting_put (fun none => absurd none left) waits)
  · rw [Config.put_shared, data] at busy
    refine (woken.coming (.inl ⟨fiber, waiting⟩) busy).keep data fun _ signals => ?_
    rw [code]
    exact signals

/-- What a fiber at a signal does. -/
theorem Program.step_signal {action : Action Name} {next : Code Name Lock Data}
    {held : Lock → Bool} (was : state.threads fiber = ⟨.signal mutex next, held, .running⟩)
    (taken : program.step state (fiber, action) = some later) :
    ∃ shared thread, later = state.put fiber shared thread ∧ thread.code = next ∧
      thread.position ≠ .waiting mutex ∧ shared.data = state.shared.data ∧
      (shared.mutexes mutex).condition = (state.shared.mutexes mutex).condition.tail := by
  obtain ⟨⟨shared, thread⟩, executed, rfl⟩ := Option.map_eq_some_iff.mp taken
  refine ⟨shared, thread, rfl, ?_⟩
  change program.exec fiber state.shared (state.threads fiber) action = some _ at executed
  rw [was] at executed
  cases action with
  | call name => cases executed
  | go scheduler answer =>
      simp only [Program.exec] at executed
      split at executed
      case h_1 none =>
        cases executed
        refine ⟨rfl, nofun, rfl, ?_⟩
        rw [FiberMutex.Shared.condition_signal_none none]
        rfl
      case h_2 first =>
        cases executed
        refine ⟨rfl, nofun, rfl, ?_⟩
        rw [Shared.set_self]
        exact FiberMutex.Shared.condition_signal_some first

/-- A fiber signals the condition. -/
theorem Woken.signal {code : Code Name Lock Data} {held : Lock → Bool} {action : Action Name}
    (woken : Woken program mutex state) (sound : Sound program mutex later)
    (was : state.threads fiber = ⟨.signal mutex code, held, .running⟩)
    (watched : Watched program.toConditions mutex state (fiber, action))
    (taken : program.step state (fiber, action) = some later) : Woken program mutex later := by
  obtain ⟨shared, next, rfl, same, left, data, rest⟩ := Program.step_signal was taken
  have waits {one : FiberId} := @waiting_put _ _ _ mutex state fiber shared next
    (fun none => absurd none left) one
  refine ⟨sound, fun one waiting => ?_, fun parked busy => ?_⟩
  · rw [Config.put_shared, data]
    exact woken.empty one (waits waiting)
  · rw [Config.put_shared, data] at busy
    obtain coming | ⟨nobody, few⟩ := watched code held was
    · exact coming.same (code_put same) data
    · obtain ⟨one, waiting⟩ | some := parked
      · have raised := busy.resolve_left (woken.empty one (waits waiting))
        exact absurd (waits waiting) (nobody raised one)
      · have nobody : (state.shared.mutexes mutex).condition.tail.length = 0 := by
          rw [List.length_tail]
          exact Nat.sub_eq_zero_of_le (few busy)
        refine absurd ?_ some
        rw [Config.put_shared, rest]
        exact List.length_eq_zero_iff.mp nobody

/-- While a fiber is about to wait, no other has the mutex. -/
theorem Woken.only_holder (woken : Woken program mutex state) {one : FiberId}
    (waiting : (state.threads one).position = .waiting mutex)
    (running : (state.threads fiber).position = .running)
    (holds : (state.threads fiber).held mutex = true) : False := by
  have ordered := woken.orderly one
  rw [Thread.Orderly, waiting] at ordered
  have first : ((mutexOf mutex state).threads one).Holds := by
    change ((state.threads one).point mutex).Holds
    rw [Thread.point, waiting]
    exact ordered.1
  have second : ((mutexOf mutex state).threads fiber).Holds := by
    change ((state.threads fiber).point mutex).Holds
    rw [Thread.point, running]
    exact holds
  rw [woken.correct.holder_unique first second, running] at waiting
  cases waiting

/-- A fiber changes the data. -/
theorem Woken.act {ready : Data → Bool} {effect : Data → Data} {code : Data → Code Name Lock Data}
    {held : Lock → Bool} (woken : Woken program mutex state)
    (was : state.threads fiber = ⟨.act ready effect code, held, .running⟩)
    (may : ready state.shared.data)
    (sound : Sound program mutex (state.put fiber
      { state.shared with data := effect state.shared.data }
      ⟨code state.shared.data, held, .running⟩)) :
    Woken program mutex (state.put fiber
      { state.shared with data := effect state.shared.data }
      ⟨code state.shared.data, held, .running⟩) := by
  have ordered := woken.orderly fiber
  rw [was] at ordered
  obtain ⟨announced, -⟩ := ordered _ may
  have waits {one : FiberId} := @waiting_put _ _ _ mutex state fiber
    { state.shared with data := effect state.shared.data } ⟨code state.shared.data, held, .running⟩
    nofun one
  refine ⟨sound, fun one waiting full => ?_, fun parked busy => ?_⟩
  · obtain before | holds := announced.guarded mutex full
    · exact woken.empty one (waits waiting) before
    · exact woken.only_holder (waits waiting) (by rw [was]) (by rw [was]; exact holds)
  · obtain before | signals := announced.busy mutex busy
    · refine (woken.coming (parked.imp_left fun ⟨one, now⟩ => ⟨one, waits now⟩) before).change ?_ ?_
      · rw [was]
        exact fun signals => signals _ rfl may
      · exact announced.told mutex
    · exact ⟨fiber, by rw [Config.put_self]; exact signals⟩

theorem Woken.step {action : FiberId × Action Name} (woken : Woken program mutex state)
    (watched : Watched program.toConditions mutex state action)
    (taken : program.step state action = some later) : Woken program mutex later := by
  have sound := woken.toSound.step taken
  obtain ⟨fiber, choice⟩ := action
  obtain ⟨⟨shared, next⟩, executed, rfl⟩ := Option.map_eq_some_iff.mp taken
  change program.exec fiber state.shared (state.threads fiber) choice = some _ at executed
  generalize was : state.threads fiber = here at executed
  revert executed sound taken
  fun_cases Program.exec program fiber state.shared here choice
  all_goals rintro sound taken ⟨⟩
  case case1 | case3 | case6 =>
    refine woken.keep sound rfl rfl (by rintro ⟨⟩) ?_
    rw [was]
    exact fun _ => False.elim
  case case4 other next held scheduler _ locked entered outcome =>
    have condition : locked.condition = (state.shared.mutexes other).condition := by
      rw [← @FiberMutex.Shared.condition_lock (state.shared.mutexes other) ⟨scheduler, fiber⟩,
        outcome]
    refine woken.keep sound rfl (condition_set condition) ?_ ?_
    all_goals cases entered
    · rintro ⟨⟩
    · rintro ⟨⟩
    all_goals
      rw [was]
      exact fun _ => id
  case case5 =>
    refine woken.keep sound rfl (condition_set FiberMutex.Shared.condition_unlockNoLock) (by rintro ⟨⟩) ?_
    rw [was]
    exact fun _ => id
  case case7 other next held _ _ idle =>
    obtain rfl | apart := eq_or_ne other mutex
    · exact .idle sound idle
    · refine woken.keep sound rfl rfl ?_ ?_
      · rintro ⟨⟩
        contradiction
      · rw [was]
        exact fun _ => id
  case case8 other next held _ _ none =>
    obtain rfl | apart := eq_or_ne other mutex
    · exact woken.signal sound was watched taken
    · refine woken.keep sound rfl rfl (by rintro ⟨⟩) ?_
      rw [was]
      exact fun _ signals => signals.resolve_left apart
  case case9 other next held _ _ rest first _ =>
    obtain rfl | apart := eq_or_ne other mutex
    · exact woken.signal sound was watched taken
    · refine woken.keep sound rfl (congrArg _ (Shared.set_other apart.symm _ _)) (by rintro ⟨⟩) ?_
      rw [was]
      exact fun _ signals => signals.resolve_left apart
  case case10 ready => exact woken.act was ready sound
  case case12 =>
    refine woken.keep sound rfl rfl (by rintro ⟨⟩) ?_
    rw [was]
    exact fun _ signals => signals _
  case case13 code held other _ _ =>
    obtain rfl | apart := eq_or_ne other mutex
    · refine woken.wait ?_ sound rfl (by rintro ⟨⟩) ?_
      all_goals rw [was]
    · refine woken.keep sound rfl (congrArg _ (Shared.set_other apart.symm _ _)) (by rintro ⟨⟩) ?_
      rw [was]
      exact fun _ => id
  case case14 =>
    refine woken.keep sound rfl rfl (by rintro ⟨⟩) ?_
    rw [was]
    exact fun _ => id
  case case15 =>
    refine woken.keep sound rfl (condition_set rfl) (by rintro ⟨⟩) ?_
    rw [was]
    exact fun _ => id
  case case17 =>
    refine woken.keep sound rfl (condition_set FiberMutex.Shared.condition_enter) (by rintro ⟨⟩) ?_
    rw [was]
    exact fun _ => id

end Steps

section Runs

variable [DecidableEq Lock] {program : Program Name Lock Data} {mutex : Lock} {data : Data}
  {state later : Program.State Name Lock Data} {fiber : FiberId}

theorem Woken.fresh : Woken program mutex (Program.fresh data) where
  toSound := .fresh
  empty := nofun
  coming := by
    rintro (⟨_, waiting⟩ | parked)
    · cases waiting
    · exact absurd rfl parked

/-- In a run of orderly programs, a wake-up is lost only to a last signal that is not watched. -/
theorem Program.attends
    (run : Runs program.step (Watched program.toConditions mutex) (fresh data) state) :
    Attended program.toConditions mutex state := by
  have woken : Woken program mutex state :=
    run.invariant (fun _ _ _ woken watched taken => woken.step watched taken) .fresh
  exact fun parked => woken.coming (.inr parked)

theorem Program.exec_waiting (shared : Shared Lock Data) (code : Code Name Lock Data)
    (held : Lock → Bool) (scheduler : Nat) (answer : Bool) :
    program.exec fiber shared ⟨code, held, .waiting mutex⟩ (.go scheduler answer) =
      some (shared.set mutex ((shared.mutexes mutex).wait ⟨scheduler, fiber⟩),
        ⟨code, Function.update held mutex false, .leaving mutex⟩) := by
  cases code <;> rfl

/-- A fiber that is about to wait, with a flag set and no signal to come, is left in the
waiters. -/
theorem Program.wait_unattended (sound : Sound program mutex state)
    (waiting : (state.threads fiber).position = .waiting mutex)
    (raised : program.raised mutex state.shared.data)
    (none : ¬ Coming program.toConditions mutex state) :
    ∃ last, program.step state (fiber, .go 0 false) = some last ∧
      ¬ Attended program.toConditions mutex last := by
  have orderly := sound.orderly fiber
  generalize was : state.threads fiber = thread at orderly waiting
  obtain ⟨code, held, position⟩ := thread
  cases waiting
  refine ⟨state.put fiber _ _, by rw [Program.step, was, exec_waiting]; rfl,
    fun attended => none ?_⟩
  have owner : (state.shared.mutexes mutex).owner = some fiber := by
    refine (sound.correct.owner fiber).mpr (.inl ?_)
    change ((state.threads fiber).point mutex).Holds
    rw [was]
    exact orderly.1
  have parked : ((state.shared.mutexes mutex).wait ⟨0, fiber⟩).condition ≠ [] := by
    rw [FiberMutex.Shared.wait, if_pos owner, FiberMutex.Shared.condition_unlockNoLock]
    exact List.append_ne_nil_of_right_ne_nil _ (List.cons_ne_nil _ _)
  have coming := attended ?_ (.inr raised)
  · exact coming.same (fun one => (state.put_view Thread.code (by rw [was]) one).symm) rfl
  · rw [Config.put_shared, Shared.set_self]
    exact parked

/-- A last signal that is not watched loses a wake-up: somebody is left in the waiters, at once
or as soon as a fiber that is about to wait does so. -/
theorem Program.unattended {action : FiberId × Action Name}
    (run : Runs program.step (fun _ _ => True) (fresh data) state)
    (unwatched : ¬ Watched program.toConditions mutex state action)
    (taken : program.step state action = some later) :
    ∃ last, Runs program.step (fun _ _ => True) (fresh data) last ∧
      ¬ Attended program.toConditions mutex last := by
  have on : Runs program.step (fun _ _ => True) (fresh data) later := run.tail trivial taken
  obtain ⟨fiber, choice⟩ := action
  unfold Watched at unwatched
  push Not at unwatched
  obtain ⟨next, held, was, none, missed⟩ := unwatched
  obtain ⟨shared, thread, rfl, code, -, same, tail⟩ := Program.step_signal was taken
  replace none : ¬ Coming program.toConditions mutex (state.put fiber shared thread) :=
    fun coming => none (coming.same (code_put code.symm) same.symm)
  by_cases nobody : program.raised mutex state.shared.data →
      ∀ fiber, (state.threads fiber).position ≠ .waiting mutex
  · obtain ⟨busy, many⟩ := missed nobody
    refine ⟨_, on, fun attended => none (attended ?_ ?_)⟩
    · rw [Config.put_shared, tail]
      refine List.ne_nil_of_length_pos ?_
      rw [List.length_tail]
      exact Nat.sub_pos_of_lt many
    · rw [Config.put_shared, same]
      exact busy
  · push Not at nobody
    obtain ⟨raised, one, waiting⟩ := nobody
    have apart : one ≠ fiber := by
      rintro rfl
      rw [was] at waiting
      cases waiting
    rw [← same] at raised
    rw [← Config.put_other apart] at waiting
    obtain ⟨last, taken, left⟩ := Program.wait_unattended (Program.sound on) waiting raised none
    exact ⟨last, on.tail trivial taken, left⟩

end Runs

section Replays

variable {conditions : Conditions Lock Data} {mutex : Lock}

/-- So many steps of a fiber, with one answer to whatever it asks. -/
def goes (fiber : FiberId) (count : Nat) (answer : Bool) : List (FiberId × Action Name) :=
  List.replicate count (fiber, .go 0 answer)

/-- The fiber has nothing more to do, or waits before it does. -/
def Code.rests : Code Name Lock Data → Bool
  | .done | .await _ _ => true
  | _ => false

theorem Code.rests_silent {code : Code Name Lock Data} {untold : Bool} (rests : code.rests) :
    ¬ code.Signals conditions mutex untold := by
  cases code with
  | done | await => exact False.elim
  | _ => cases rests

/-- A signal finds one fiber at most in the waiters, with no flag set. -/
def watches [DecidableEq Lock] (conditions : Conditions Lock Data) (mutex : Lock)
    (state : Program.State Name Lock Data) (action : FiberId × Action Name) : Bool :=
  match state.threads action.1 with
  | ⟨.signal other _, _, .running⟩ => other ≠ mutex ||
      !conditions.raised mutex state.shared.data &&
        (state.shared.mutexes mutex).condition.length ≤ 1
  | _ => true

theorem watches_sound [DecidableEq Lock] (state : Program.State Name Lock Data)
    (action : FiberId × Action Name) (passes : watches conditions mutex state action) :
    Watched conditions mutex state action := by
  intro next held was
  simp [watches, was] at passes
  exact .inr ⟨fun raised => absurd raised (by simp [passes.1]), fun _ => passes.2⟩

theorem step_frame [DecidableEq Lock] {program : Program Name Lock Data}
    ⦃state : Program.State Name Lock Data⦄ ⦃action : FiberId × Action Name⦄
    ⦃next : Program.State Name Lock Data⦄ ⦃other : Nat⦄
    (taken : program.step state action = some next) (apart : some action.1 ≠ some other) :
    next.threads other = state.threads other :=
  Config.map_put_other taken apart

/-- Nobody signals any more, if those who have acted rest. -/
theorem silent [DecidableEq Lock] {program : Program Name Lock Data} {data : Data}
    {state : Program.State Name Lock Data} {actions : List (FiberId × Action Name)} (bound : Nat)
    (taken : replay program.step (fun _ _ => true) actions (Program.fresh data) = some state)
    (few : ∀ action ∈ actions, ∀ thread ∈ some action.1, thread < bound)
    (early : ∀ thread < bound, (state.threads thread).code.rests) :
    ¬ Coming conditions mutex state := by
  rintro ⟨fiber, signals⟩
  refine Code.rests_silent ?_ signals
  exact replay_forall (motive := fun thread : Thread Name Lock Data => thread.code.rests)
    step_frame bound taken few early (fun _ _ => rfl) fiber

/-- A fiber is in the waiters, there is something to go on with, and the first fibers rest. -/
def misses (conditions : Conditions Lock Data) (mutex : Lock) (bound : Nat)
    (state : Program.State Name Lock Data) : Bool :=
  (state.shared.mutexes mutex).condition ≠ [] ∧ conditions.Busy mutex state.shared.data ∧
    ∀ thread < bound, (state.threads thread).code.rests

/-- A run of a few fibers that ends so. -/
theorem missed [DecidableEq Lock] {program : Program Name Lock Data} {data : Data}
    (actions : List (FiberId × Action Name)) (bound : Nat)
    (few : ∀ action ∈ actions, ∀ thread ∈ some action.1, thread < bound)
    (ends : (replay program.step (fun _ _ => true) actions (Program.fresh data)).any
      (misses conditions mutex bound)) :
    ¬ ∀ state, Runs program.step (fun _ _ => True) (Program.fresh data) state →
      Attended conditions mutex state := by
  intro claimed
  obtain ⟨state, taken, left⟩ := (Option.any_eq_true ..).mp ends
  obtain ⟨parked, busy, early⟩ := of_decide_eq_true left
  exact silent bound taken few early
    (claimed state (.of_replay (fun _ _ _ => trivial) taken) parked busy)

end Replays

end Xten.FiberProgram
