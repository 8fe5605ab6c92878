import Xten.Kcp.Listener

/-!
# Connect packets that come twice

A connect packet of an address whose session is open closes the session if it comes to the same
socket, as it begins with another conversation; at another socket it creates a second session. It
does no harm only if it is dropped: the address is blacklisted, or there is no room.
-/

namespace Xten.Kcp.KcpListener

open Std.Interleaving

variable {Addr : Type} [DecidableEq Addr]

/-- The session that a duplicate has found. -/
def Point.mistaken : Point Addr → Option (Session Addr)
  | .matching packet session | .inputting packet session =>
      if packet.duplicate then some session else none
  | .closing duplicate session => if duplicate then some session else none
  | _ => none

/-- A duplicate that is looked up finds no session at its socket, or one whose `Close` has begun;
and it finds no room for another. -/
def Dropped (state : State Addr) (action : Fd × Action Addr) : Prop :=
  match state.threads action.1, action.2 with
  | .finding packet, .go => packet.duplicate = true →
      ∀ session, state.shared.find action.1 packet.remote = some session →
        session.id ∈ state.shared.closed
  | .counting packet, .go => packet.duplicate = true →
      state.shared.maxConnNum ≤ state.shared.sessions.length
  | _, _ => True

/-- No duplicate has done harm, or is about to. -/
structure Unharmed (state : State Addr) : Prop where
  harmless : state.shared.harmed = false
  mistaken : ∀ fd session, (state.threads fd).mistaken = some session →
    session.id ∈ state.shared.closed
  admitted : ∀ fd packet, (state.threads fd).admitted = some packet → packet.duplicate = false

section Steps

variable {state : State Addr} {next : Shared Addr} {self : Fd} {was now : Point Addr}
  {action : Action Addr}

omit [DecidableEq Addr] in
theorem Unharmed.initial (backlogSize maxConnNum : Nat) (convid : BitVec 32) :
    Unharmed (fresh backlogSize maxConnNum convid : State Addr) where
  harmless := rfl
  mistaken := nofun
  admitted := nofun

omit [DecidableEq Addr] in
theorem Unharmed.put (unharmed : Unharmed state) (harmless : next.harmed = false)
    (closed : state.shared.closed ⊆ next.closed)
    (mistaken : ∀ session, now.mistaken = some session → session.id ∈ next.closed)
    (admitted : ∀ packet, now.admitted = some packet → packet.duplicate = false) :
    Unharmed (state.put self next now) where
  harmless := harmless
  mistaken := fun fd session => by
    obtain ⟨-, current⟩ | ⟨-, current⟩ := state.put_cases self next now fd
    all_goals rw [current]
    · exact mistaken session
    · exact fun isMistaken => closed (unharmed.mistaken fd session isMistaken)
  admitted := fun fd packet => by
    obtain ⟨-, current⟩ | ⟨-, current⟩ := state.put_cases self next now fd
    all_goals rw [current]
    · exact admitted packet
    · exact unharmed.admitted fd packet

/-- A step in which duplicates are dropped does no harm. -/
theorem Unharmed.move (unharmed : Unharmed state) (move : Move state.shared self was action next now)
    (isWas : state.threads self = was) (dropped : Dropped state (self, action)) :
    Unharmed (state.put self next now) := by
  have known := unharmed.mistaken self
  have ahead := unharmed.admitted self
  rw [isWas] at known ahead
  have harmless := unharmed.harmless
  cases move with
  | @finds packet session found =>
      simp only [Dropped, isWas] at dropped
      refine unharmed.put harmless (List.Subset.refl _) (fun other isOther => ?_) nofun
      obtain ⟨duplicate, same⟩ := Option.ite_none_right_eq_some.mp isOther
      rw [← Option.some.inj same]
      exact dropped duplicate session found
  | mismatches apart | agrees same => exact unharmed.put harmless (List.Subset.refl _) known nofun
  | @admits packet room =>
      simp only [Dropped, isWas] at dropped
      refine unharmed.put harmless (List.Subset.refl _) nofun ?_
      rintro _ ⟨⟩
      by_contra duplicate
      exact Nat.not_le_of_lt room (dropped (Bool.eq_true_of_not_eq_false duplicate))
  | numbers | answers => exact unharmed.put harmless (List.Subset.refl _) nofun ahead
  | @inserts packet convid =>
      refine unharmed.put ?_ (List.Subset.refl _) nofun nofun
      show (_ || packet.duplicate) = false
      rw [harmless, ahead packet rfl]
      rfl
  | @fails packet session error =>
      refine unharmed.put ?_ (List.Subset.refl _) nofun nofun
      show (_ || (packet.duplicate && _)) = false
      rw [harmless]
      cases duplicate : packet.duplicate with
      | false => rfl
      | true =>
          have closed := known session (if_pos duplicate)
          simp [closed]
  | @flushes duplicate session first =>
      refine unharmed.put ?_ (List.subset_cons_self _ _) nofun nofun
      show (_ || duplicate) = false
      rw [harmless]
      cases duplicate with
      | false => rfl
      | true => exact absurd (known session rfl) first
  | @strays packet answer large =>
      cases answer <;> exact unharmed.put harmless (List.Subset.refl _) nofun nofun
  | _ => exact unharmed.put harmless (List.Subset.refl _) nofun nofun

end Steps

/-- As long as duplicates of a connect packet are dropped, none of them closes a session that is
open or creates a second one. -/
theorem duplicates_do_no_harm {state : State Addr} {backlogSize maxConnNum : Nat}
    {convid : BitVec 32} (run : Runs step Dropped (fresh backlogSize maxConnNum convid) state) :
    state.shared.harmed = false := by
  have unharmed : Unharmed state := by
    refine run.invariant (fun state action after unharmed dropped taken => ?_) (.initial _ _ _)
    obtain ⟨next, now, move, rfl⟩ := Move.of_step taken
    exact unharmed.move move rfl dropped
  exact unharmed.harmless

section Harm

variable {state : State Addr} {next : Shared Addr} {self : Fd} {point now : Point Addr}
  {packet : Packet Addr} {session : Session Addr}

/-- A step of a fiber that is somewhere. -/
theorem step_go (isPoint : state.threads self = point)
    (executed : state.shared.exec self point .go = some (next, now)) :
    step state (self, .go) = some (state.put self next now) := by
  subst isPoint
  exact congrArg (Option.map _) executed

/-- A duplicate that finds an open session does harm to it, if nobody closes it before. -/
theorem duplicate_harms (isPoint : state.threads self = .finding packet)
    (isConnect : packet.data = connectPacket) (duplicate : packet.duplicate = true)
    (found : state.shared.find self packet.remote = some session)
    (isOpen : session.id ∉ state.shared.closed) :
    ∃ later, Runs step (fun _ _ => True) state later ∧ later.shared.harmed = true := by
  have long : ¬ packet.data.length < 4 := by
    rw [isConnect]
    decide
  have finds : step state (self, .go) =
      some (state.put self state.shared (.matching packet session)) :=
    step_go isPoint (by simp only [Shared.exec, found])
  have found : Runs step (fun _ _ => True) state
      (state.put self state.shared (.matching packet session)) := (Runs.refl state).tail trivial finds
  by_cases same : ikcpGetconv packet.data = session.convid
  · have error : ikcpInput session.convid packet.data < 0 := by
      rw [← same, isConnect]
      decide
    have agrees : step (state.put self state.shared (.matching packet session)) (self, .go) =
        some ((state.put self state.shared (.matching packet session)).put self state.shared
          (.inputting packet session)) :=
      step_go Config.put_self (by
        simp only [Config.put_shared, Shared.exec, if_neg long, if_pos same])
    refine ⟨_, (found.tail trivial agrees).tail trivial (step_go Config.put_self (if_pos error)), ?_⟩
    simp [duplicate, isOpen]
  · have differs : step (state.put self state.shared (.matching packet session)) (self, .go) =
        some ((state.put self state.shared (.matching packet session)).put self state.shared
          (.closing packet.duplicate session)) :=
      step_go Config.put_self (by
        simp only [Config.put_shared, Shared.exec, if_neg long, if_neg same])
    refine ⟨_, (found.tail trivial differs).tail trivial (step_go Config.put_self (if_neg isOpen)), ?_⟩
    simp [duplicate]

end Harm

/-- A fiber treats a connect packet up to the creation of a session. -/
def connection : List (Fd × Action Nat) :=
  [(0, .receive connectPacket 0), (0, .go), (0, .go), (0, .compare true), (0, .go), (0, .go),
    (0, .go), (0, .go), (0, .go), (0, .go)]

/-- The packet comes again, to the same socket. -/
def again : List (Fd × Action Nat) :=
  [(0, .receive connectPacket 0), (0, .go), (0, .go), (0, .go), (0, .go)]

def closedState : State Nat :=
  (replay step (fun _ _ => true) (connection ++ again) (fresh 2 2 10000)).get (by decide)

/-- The session that the first packet has created is closed by the second. -/
theorem duplicate_closes : ∃ state : State Nat,
    Runs step (fun _ _ => True) (fresh 2 2 10000) state ∧ state.shared.harmed = true ∧
      state.shared.created.map (fun entry => entry.2.id) = [0] ∧ state.shared.closed = [0] := by
  have taken : replay step (fun _ _ => true) (connection ++ again) (fresh 2 2 10000) =
      some closedState := (Option.some_get _).symm
  exact ⟨closedState, .of_replay (fun _ _ _ => trivial) taken, by decide, by decide, by decide⟩

/-- The packet comes again, to another socket. -/
def elsewhere : List (Fd × Action Nat) :=
  [(1, .receive connectPacket 0), (1, .go), (1, .go), (1, .compare true), (1, .go)]

/-- Whether a duplicate is dropped. -/
def isDropped (state : State Addr) (action : Fd × Action Addr) : Bool :=
  match state.threads action.1, action.2 with
  | .finding packet, .go => !packet.duplicate ||
      (state.shared.find action.1 packet.remote).all (·.id ∈ state.shared.closed)
  | .counting packet, .go => !packet.duplicate ||
      decide (state.shared.maxConnNum ≤ state.shared.sessions.length)
  | _, _ => true

theorem isDropped_sound (state : State Addr) (action : Fd × Action Addr)
    (check : isDropped state action = true) : Dropped state action := by
  unfold Dropped
  split
  case h_1 packet isPoint isAction =>
    intro duplicate session found
    simpa [isDropped, isPoint, isAction, duplicate, found] using check
  case h_2 packet isPoint isAction =>
    intro duplicate
    simpa [isDropped, isPoint, isAction, duplicate] using check
  case h_3 => trivial

def fullState : State Nat :=
  (replay step isDropped (connection ++ elsewhere) (fresh 1 1 10000)).get (by decide)

/-- There is no room for a second session, so the second packet is dropped. -/
theorem duplicates_do_no_harm_full : fullState.shared.created.length = 1 ∧
    fullState.shared.harmed = false :=
  ⟨by decide,
    duplicates_do_no_harm (.of_replay isDropped_sound (Option.some_get (by decide)).symm)⟩

end Xten.Kcp.KcpListener
