import Xten.Kcp.Listener

/-!
# What creates a session

`is_connect_packet` compares as many bytes as the datagram has. It takes every beginning of the
constant for the constant, and the constant with its zero byte; of a longer datagram it compares
more bytes than the constant has.
-/

namespace Xten.Kcp.KcpListener

open Std.Interleaving

variable {Addr : Type} [DecidableEq Addr]

/-- The datagram of a call that has compared it. -/
def Point.compared : Point Addr → Option (Packet Addr)
  | .testing packet | .counting packet => some packet
  | _ => none

/-- No datagram is compared that is longer than the constant with its zero byte; and none finds
room for a session that is a beginning of the constant, or the constant with its zero byte. -/
def Genuine (state : State Addr) (action : Fd × Action Addr) : Prop :=
  match state.threads action.1, action.2 with
  | .comparing packet, .compare _ => packet.data.length ≤ connectPacket.length + 1
  | .counting packet, .go => state.shared.sessions.length < state.shared.maxConnNum →
      ¬ (packet.data <+: connectPacket ∧ packet.data ≠ connectPacket) ∧
        packet.data ≠ connectPacket ++ [0]
  | _, _ => True

/-- What `is_connect_packet` has let through. -/
structure Screened (state : State Addr) : Prop where
  within : state.shared.outside = false
  compared : ∀ fd packet, (state.threads fd).compared = some packet →
    packet.data <+: connectPacket ++ [0]
  admitted : ∀ fd packet, (state.threads fd).admitted = some packet → packet.data = connectPacket
  created : ∀ entry ∈ state.shared.created,
    entry.1.data = connectPacket ∧ entry.2.remoteAddr = entry.1.remote

section Steps

variable {state : State Addr} {next : Shared Addr} {self : Fd} {was now : Point Addr}
  {action : Action Addr} {data : List Byte}

/-- Whatever is compared is a beginning of the constant with its zero byte, or is refused. -/
theorem isConnectPacket_eq_true (same : isConnectPacket data = some true) :
    data <+: connectPacket ++ [0] := by
  obtain ⟨-, isPrefix⟩ := Option.ite_none_right_eq_some.mp same
  exact List.isPrefixOf_iff_prefix.mp (Option.some.inj isPrefix)

/-- What the comparison lets through is the constant, if it is neither shorter nor longer. -/
theorem eq_connectPacket (isPrefix : data <+: connectPacket ++ [0])
    (notShorter : ¬ (data <+: connectPacket ∧ data ≠ connectPacket))
    (notLonger : data ≠ connectPacket ++ [0]) : data = connectPacket := by
  obtain longer | shorter := List.prefix_concat_iff.mp isPrefix
  · exact absurd longer notLonger
  · by_contra apart
    exact notShorter ⟨shorter, apart⟩

omit [DecidableEq Addr] in
theorem Screened.initial (backlogSize maxConnNum : Nat) (convid : BitVec 32) :
    Screened (fresh backlogSize maxConnNum convid : State Addr) where
  within := rfl
  compared := nofun
  admitted := nofun
  created := fun _ none => absurd none List.not_mem_nil

omit [DecidableEq Addr] in
theorem Screened.put (screened : Screened state) (within : next.outside = false)
    (compared : ∀ packet, now.compared = some packet → packet.data <+: connectPacket ++ [0])
    (admitted : ∀ packet, now.admitted = some packet → packet.data = connectPacket)
    (created : ∀ entry ∈ next.created,
      entry.1.data = connectPacket ∧ entry.2.remoteAddr = entry.1.remote) :
    Screened (state.put self next now) where
  within := within
  compared := fun fd packet => by
    obtain ⟨-, current⟩ | ⟨-, current⟩ := state.put_cases self next now fd
    all_goals rw [current]
    · exact compared packet
    · exact screened.compared fd packet
  admitted := fun fd packet => by
    obtain ⟨-, current⟩ | ⟨-, current⟩ := state.put_cases self next now fd
    all_goals rw [current]
    · exact admitted packet
    · exact screened.admitted fd packet
  created := created

/-- A step of a genuine run lets nothing else through. -/
theorem Screened.move (screened : Screened state) (move : Move state.shared self was action next now)
    (isWas : state.threads self = was) (genuine : Genuine state (self, action)) :
    Screened (state.put self next now) := by
  have ready := screened.compared self
  have ahead := screened.admitted self
  rw [isWas] at ready ahead
  cases move with
  | strays answer large =>
      simp only [Genuine, isWas] at genuine
      unfold isConnectPacket at large
      rw [if_pos genuine] at large
      cases large
  | confirms answer same =>
      refine screened.put screened.within ?_ nofun screened.created
      rintro packet ⟨⟩
      exact isConnectPacket_eq_true same
  | fits room => exact screened.put screened.within ready nofun screened.created
  | @admits packet room =>
      simp only [Genuine, isWas] at genuine
      obtain ⟨notShorter, notLonger⟩ := genuine room
      refine screened.put screened.within nofun ?_ screened.created
      rintro packet ⟨⟩
      exact eq_connectPacket (ready _ rfl) notShorter notLonger
  | numbers => exact screened.put screened.within nofun ahead screened.created
  | answers => exact screened.put screened.within nofun ahead screened.created
  | @inserts packet convid =>
      refine screened.put screened.within nofun nofun fun entry member => ?_
      obtain before | isNew := List.mem_append.mp member
      · exact screened.created entry before
      · rw [List.mem_singleton.mp isNew]
        exact ⟨ahead packet rfl, rfl⟩
  | _ => exact screened.put screened.within nofun nofun screened.created

end Steps

/-- In a run of genuine datagrams, a session is created for the address of a datagram that is the
connect packet, and nothing beyond the constant is compared. -/
theorem creates_for_connectPacket {state : State Addr} {backlogSize maxConnNum : Nat}
    {convid : BitVec 32} (run : Runs step Genuine (fresh backlogSize maxConnNum convid) state) :
    (∀ entry ∈ state.shared.created,
      entry.1.data = connectPacket ∧ entry.2.remoteAddr = entry.1.remote) ∧
        state.shared.outside = false := by
  have screened : Screened state := by
    refine run.invariant (fun state action after screened genuine taken => ?_) (.initial _ _ _)
    obtain ⟨next, now, move, rfl⟩ := Move.of_step taken
    exact screened.move move rfl genuine
  exact ⟨screened.created, screened.within⟩

/-- A fiber treats a datagram up to the creation of a session. -/
def creation (data : List Byte) : List (Fd × Action Nat) :=
  [(0, .receive data 0), (0, .go), (0, .go), (0, .compare true), (0, .go), (0, .go), (0, .go),
    (0, .go), (0, .go)]

/-- Whether what is compared, and what finds room, is the connect packet. -/
def isGenuine (state : State Addr) (action : Fd × Action Addr) : Bool :=
  match state.threads action.1, action.2 with
  | .comparing packet, .compare _ | .counting packet, .go => packet.data = connectPacket
  | _, _ => true

omit [DecidableEq Addr] in
theorem isGenuine_sound (state : State Addr) (action : Fd × Action Addr)
    (check : isGenuine state action = true) : Genuine state action := by
  unfold Genuine
  split
  case h_1 packet answer isPoint isAction =>
    have same : packet.data = connectPacket := by
      simpa [isGenuine, isPoint, isAction] using check
    rw [same]
    exact Nat.le_succ _
  case h_2 packet isPoint isAction =>
    have same : packet.data = connectPacket := by
      simpa [isGenuine, isPoint, isAction] using check
    rw [same]
    refine fun _ => ⟨fun shorter => shorter.2 rfl, fun longer => ?_⟩
    exact List.cons_ne_nil _ _ (List.self_eq_append_right.mp longer)
  case h_3 => trivial

def createdState : State Nat :=
  (replay step isGenuine (creation connectPacket) (fresh 1 1 0)).get (by decide)

theorem creates_for_connectPacket_once : createdState.shared.created.length = 1 ∧
    (∀ entry ∈ createdState.shared.created,
      entry.1.data = connectPacket ∧ entry.2.remoteAddr = entry.1.remote) ∧
        createdState.shared.outside = false :=
  ⟨by decide,
    creates_for_connectPacket (.of_replay isGenuine_sound (Option.some_get (by decide)).symm)⟩

def emptyState : State Nat :=
  (replay step (fun _ _ => true) (creation []) (fresh 1 1 0)).get (by decide)

/-- An empty datagram creates a session. -/
theorem empty_creates : ∃ state : State Nat, Runs step (fun _ _ => True) (fresh 1 1 0) state ∧
    ∃ entry ∈ state.shared.created, entry.1.data ≠ connectPacket := by
  have taken : replay step (fun _ _ => true) (creation []) (fresh 1 1 0) = some emptyState :=
    (Option.some_get _).symm
  exact ⟨emptyState, .of_replay (fun _ _ _ => trivial) taken, by decide⟩

end Xten.Kcp.KcpListener
