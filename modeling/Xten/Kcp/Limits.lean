import Xten.Kcp.Listener

/-!
# The limits of the listener

The size of the backlog and the number of sessions are tested before a session is created, and not
again. They are kept as long as a fiber that passes the tests finds room beside the sessions that
other fibers are about to create.
-/

namespace Xten.Kcp.KcpListener

open Std.Interleaving

variable {Addr : Type} [DecidableEq Addr]

/-- The sessions that a fiber is about to put into the map. -/
def Point.creations : Point Addr → Nat
  | .numbering _ | .answering _ _ | .inserting _ _ => 1
  | _ => 0

/-- The sessions that it is about to put into the backlog. -/
def Point.pushes : Point Addr → Nat
  | .numbering _ | .answering _ _ | .inserting _ _ | .pushing _ _ => 1
  | _ => 0

/-- The sessions and those that are about to be put into the map are at most so many. -/
def SessionsWithin (state : State Addr) (limit : Nat) : Prop :=
  ∃ creations, state.Sums (fun point => point.creations) creations ∧
    state.shared.sessions.length + creations ≤ limit

/-- The backlog, with what is about to be put there, has at most so many sessions. -/
def BacklogWithin (state : State Addr) (limit : Nat) : Prop :=
  ∃ pushes, state.Sums (fun point => point.pushes) pushes ∧
    state.shared.acceptBacklog.length + pushes ≤ limit

/-- A fiber that passes both tests finds room for its session beside those of other fibers. -/
def Roomy (state : State Addr) (action : Fd × Action Addr) : Prop :=
  match state.threads action.1, action.2 with
  | .counting _, .go => state.shared.sessions.length < state.shared.maxConnNum →
      (∃ limit < state.shared.maxConnNum, SessionsWithin state limit) ∧
        ∃ limit < state.shared.backlogSize, BacklogWithin state limit
  | _, _ => True

structure Limited (state : State Addr) : Prop where
  sessions : SessionsWithin state state.shared.maxConnNum
  backlog : BacklogWithin state state.shared.backlogSize

section Steps

variable {state : State Addr} {next : Shared Addr} {self : Fd} {was now : Point Addr}
  {action : Action Addr} {limit later : Nat}

omit [DecidableEq Addr] in
theorem Limited.initial (backlogSize maxConnNum : Nat) (convid : BitVec 32) :
    Limited (fresh backlogSize maxConnNum convid : State Addr) where
  sessions := ⟨0, .zero fun _ => rfl, Nat.zero_le _⟩
  backlog := ⟨0, .zero fun _ => rfl, Nat.zero_le _⟩

omit [DecidableEq Addr] in
theorem SessionsWithin.put (within : SessionsWithin state limit)
    (moved : next.sessions.length + now.creations + limit ≤
      state.shared.sessions.length + (state.threads self).creations + later) :
    SessionsWithin (state.put self next now) later := by
  obtain ⟨creations, sums, few⟩ := within
  have own := sums.le self
  refine ⟨creations + now.creations - (state.threads self).creations, sums.put ?_, ?_⟩
  · omega
  · rw [Config.put_shared]
    omega

omit [DecidableEq Addr] in
theorem BacklogWithin.put (within : BacklogWithin state limit)
    (moved : next.acceptBacklog.length + now.pushes + limit ≤
      state.shared.acceptBacklog.length + (state.threads self).pushes + later) :
    BacklogWithin (state.put self next now) later := by
  obtain ⟨pushes, sums, few⟩ := within
  have own := sums.le self
  refine ⟨pushes + now.pushes - (state.threads self).pushes, sums.put ?_, ?_⟩
  · omega
  · rw [Config.put_shared]
    omega

omit [DecidableEq Addr] in
/-- A step by which neither grows, with what is about to come. -/
theorem Limited.put (limited : Limited state) (isWas : state.threads self = was)
    (maxConnNum : next.maxConnNum = state.shared.maxConnNum)
    (backlogSize : next.backlogSize = state.shared.backlogSize)
    (sessions : next.sessions.length + now.creations ≤
      state.shared.sessions.length + was.creations)
    (backlog : next.acceptBacklog.length + now.pushes ≤
      state.shared.acceptBacklog.length + was.pushes) : Limited (state.put self next now) where
  sessions := by
    rw [Config.put_shared, maxConnNum]
    exact limited.sessions.put (by rw [isWas]; omega)
  backlog := by
    rw [Config.put_shared, backlogSize]
    exact limited.backlog.put (by rw [isWas]; omega)

theorem length_without_le (shared : Shared Addr) (fd : Fd) (addr : Addr) :
    (shared.without fd addr).length ≤ shared.sessions.length :=
  List.length_filter_le _ _

/-- A step that finds room keeps the limits. -/
theorem Limited.move (limited : Limited state) (move : Move state.shared self was action next now)
    (isWas : state.threads self = was) (roomy : Roomy state (self, action)) :
    Limited (state.put self next now) := by
  cases move with
  | @admits packet room =>
      simp only [Roomy, isWas] at roomy
      obtain ⟨⟨fewer, less, sessions⟩, short, shorter, backlog⟩ := roomy room
      constructor
      · refine sessions.put ?_
        rw [isWas]
        show _ + 1 + fewer ≤ _ + 0 + state.shared.maxConnNum
        omega
      · refine backlog.put ?_
        rw [isWas]
        show _ + 1 + short ≤ _ + 0 + state.shared.backlogSize
        omega
  | @accepts first rest isBacklog =>
      refine limited.put isWas rfl rfl (Nat.le_refl _) ?_
      rw [isBacklog]
      exact Nat.le_succ _
  | @inserts packet convid =>
      refine limited.put isWas rfl rfl ?_ (Nat.le_refl _)
      have fewer := length_without_le state.shared self packet.remote
      show (_ ++ [_]).length + 0 ≤ _ + 1
      rw [List.length_append]
      exact Nat.add_le_add_right fewer 1
  | @pushes packet session =>
      refine limited.put isWas rfl rfl (Nat.le_refl _) ?_
      show (_ ++ [_]).length + 0 ≤ _ + 1
      rw [List.length_append]
      exact Nat.le_refl _
  | erases fd found =>
      exact limited.put isWas rfl rfl (length_without_le _ _ _) (Nat.le_refl _)
  | strays answer large =>
      cases answer <;> exact limited.put isWas rfl rfl (Nat.le_refl _) (Nat.le_refl _)
  | _ => exact limited.put isWas rfl rfl (Nat.le_refl _) (Nat.le_refl _)

end Steps

/-- As long as fibers that pass the tests find room beside each other, the listener has no more
sessions, and its backlog no more, than it may. -/
theorem limits_hold {state : State Addr} {backlogSize maxConnNum : Nat} {convid : BitVec 32}
    (run : Runs step Roomy (fresh backlogSize maxConnNum convid) state) :
    state.shared.sessions.length ≤ state.shared.maxConnNum ∧
      state.shared.acceptBacklog.length ≤ state.shared.backlogSize := by
  have limited : Limited state := by
    refine run.invariant (fun state action after limited roomy taken => ?_) (.initial _ _ _)
    obtain ⟨next, now, move, rfl⟩ := Move.of_step taken
    exact limited.move move rfl roomy
  obtain ⟨_, -, sessions⟩ := limited.sessions
  obtain ⟨_, -, backlog⟩ := limited.backlog
  exact ⟨(Nat.le_add_right _ _).trans sessions, (Nat.le_add_right _ _).trans backlog⟩

/-- A fiber treats a connect packet up to the tests of the limits. -/
def arrival (fd : Fd) : List (Fd × Action Nat) :=
  [(fd, .receive connectPacket fd), (fd, .go), (fd, .go), (fd, .compare true), (fd, .go), (fd, .go)]

/-- It creates the session. -/
def creating (fd : Fd) : List (Fd × Action Nat) :=
  [(fd, .go), (fd, .go), (fd, .go), (fd, .go)]

/-- Two fibers pass the tests before either creates its session. -/
def crowdedState : State Nat :=
  (replay step (fun _ _ => true) (arrival 0 ++ arrival 1 ++ creating 0 ++ creating 1)
    (fresh 1 1 10000)).get (by decide)

/-- There is room for one session, and two are created. -/
theorem limits_exceeded : ∃ state : State Nat,
    Runs step (fun _ _ => True) (fresh 1 1 10000) state ∧
      state.shared.maxConnNum < state.shared.sessions.length ∧
        state.shared.backlogSize < state.shared.acceptBacklog.length := by
  have taken : replay step (fun _ _ => true)
      (arrival 0 ++ arrival 1 ++ creating 0 ++ creating 1) (fresh 1 1 10000) =
        some crowdedState := (Option.some_get _).symm
  exact ⟨crowdedState, .of_replay (fun _ _ _ => trivial) taken, by decide, by decide⟩

/-- Whether a step is no test of the number of sessions. -/
def countsNothing (state : State Addr) (action : Fd × Action Addr) : Bool :=
  match state.threads action.1 with
  | .counting _ => false
  | _ => true

omit [DecidableEq Addr] in
theorem roomy_nothing (state : State Addr) (action : Fd × Action Addr)
    (nothing : countsNothing state action = true) : Roomy state action := by
  unfold Roomy
  split
  case h_1 isPoint _ =>
    rw [countsNothing, isPoint] at nothing
    cases nothing
  case h_2 => trivial

def testedState : State Nat :=
  (replay step countsNothing (arrival 0).dropLast (fresh 1 1 10000)).get (by decide)

def roomState : State Nat :=
  (step testedState (0, .go)).get (by decide)

def singleState : State Nat :=
  (replay step countsNothing (creating 0) roomState).get (by decide)

theorem singleState_reached : Runs step Roomy (fresh 1 1 10000) singleState := by
  have tested : replay step countsNothing (arrival 0).dropLast (fresh 1 1 10000) =
      some testedState := (Option.some_get _).symm
  have idle : ∀ fd, (testedState.threads fd).pushes = 0 :=
    replay_forall (motive := fun point : Point Nat => point.pushes = 0)
      step_frame 1 tested (by decide) (by decide) fun _ _ => rfl
  have none : ∀ fd, (testedState.threads fd).creations = 0 :=
    replay_forall (motive := fun point : Point Nat => point.creations = 0)
      step_frame 1 tested (by decide) (by decide) fun _ _ => rfl
  have roomy : Roomy testedState (0, .go) := fun _ =>
    ⟨⟨0, by decide, 0, .zero none, by decide⟩, 0, by decide, 0, .zero idle, by decide⟩
  have room : Runs step Roomy (fresh 1 1 10000) roomState :=
    (Runs.of_replay roomy_nothing tested).tail roomy (Option.some_get (by decide)).symm
  exact room.trans (.of_replay roomy_nothing (Option.some_get (by decide)).symm)

theorem limits_hold_single : singleState.shared.sessions.length = 1 ∧
    singleState.shared.sessions.length ≤ singleState.shared.maxConnNum ∧
      singleState.shared.acceptBacklog.length ≤ singleState.shared.backlogSize :=
  ⟨by decide, limits_hold singleState_reached⟩

end Xten.Kcp.KcpListener
