import Xten.Std.Holdings
import Xten.Std.IntegerCodec
import Xten.Util.Strings

/-!
# The listener

`KcpListener::packetInput`, with `Accept` and the close of a session, for any number of fibers
that receive. A fiber receives from one socket, by whose descriptor it is named. A section under a
mutex is one step, and between two of them any other fiber may go on.
-/

namespace Xten.Kcp

open Std.IntegerCodec

/-- `XTEN_KCP_CONNECT_PACKET`. -/
def connectPacket : List Byte := ascii "xten_kcp_connect_packet#get_convid"

/-- `making_connect_backpacket`, and the conversation behind it. -/
def connectBackpacket (convid : BitVec 32) : List Byte :=
  ascii "xten_kcp_connect_backpacket#return_convid:" ++ ascii (toString convid.toNat)

/-- `memcmp(data, XTEN_KCP_CONNECT_PACKET, len) == 0`. Both have to be `len` bytes long, the text
with the zero byte at its end. -/
def isConnectPacket (data : List Byte) : Option Bool :=
  if data.length ≤ connectPacket.length + 1 then some (data.isPrefixOf (connectPacket ++ [0]))
  else none

/-- `ikcp_getconv`. -/
def ikcpGetconv (data : List Byte) : BitVec 32 := ofMemory (data.take 4)

/-- `IKCP_OVERHEAD`. -/
def ikcpOverhead : Nat := 24

/-- The segments of a datagram, as far as they decide what `ikcp_input` returns. -/
def ikcpSegments (conv : BitVec 32) : Nat → List Byte → Int
  | 0, _ => 0
  | fuel + 1, data =>
      if data.length < ikcpOverhead then 0
      else if ikcpGetconv data ≠ conv then -1
      else
        let len := (ofMemory ((data.drop 20).take 4) : BitVec 32).toNat
        let data' := data.drop ikcpOverhead
        if data'.length < len then -2
        else if ¬ (81 ≤ (data.getD 4 0).toNat ∧ (data.getD 4 0).toNat ≤ 84) then -3
        else ikcpSegments conv fuel (data'.drop len)

/-- `ikcp_input`. -/
def ikcpInput (conv : BitVec 32) (data : List Byte) : Int :=
  if data.length < ikcpOverhead then -1 else ikcpSegments conv data.length data

namespace KcpListener

open Std.Interleaving

variable {Addr : Type} [DecidableEq Addr]

abbrev Fd := Nat

/-- A session, the number of those that have been created before it among its fields. -/
structure Session (Addr : Type) where
  id : Nat
  remoteAddr : Addr
  convid : BitVec 32
deriving DecidableEq, Repr

/-- A datagram. `duplicate` says that it is a connect packet of an address that has a session
already when it arrives. -/
structure Packet (Addr : Type) where
  data : List Byte
  remote : Addr
  duplicate : Bool
deriving DecidableEq, Repr

/-- Where a fiber is: in `packetInput`, or in `KcpSession::Close`. -/
inductive Point (Addr : Type) where
  | idle
  /-- Before `isBlacklisted`. -/
  | received (packet : Packet Addr)
  /-- Before the session is looked for. -/
  | finding (packet : Packet Addr)
  /-- Before `is_connect_packet`. -/
  | comparing (packet : Packet Addr)
  /-- Before `reportInvalidPacket`. -/
  | reporting (packet : Packet Addr)
  /-- Before the size of the backlog is tested. -/
  | testing (packet : Packet Addr)
  /-- Before the sessions are counted. -/
  | counting (packet : Packet Addr)
  /-- Before `_convid++`. -/
  | numbering (packet : Packet Addr)
  /-- In `SendTo`. -/
  | answering (packet : Packet Addr) (convid : BitVec 32)
  /-- Before the session is put into the map. -/
  | inserting (packet : Packet Addr) (convid : BitVec 32)
  /-- Before the session is put into the backlog. -/
  | pushing (packet : Packet Addr) (session : Session Addr)
  /-- A session has been found. -/
  | matching (packet : Packet Addr) (session : Session Addr)
  /-- Before its `packetInput`. -/
  | inputting (packet : Packet Addr) (session : Session Addr)
  /-- Before its `Close`, for a packet that is a duplicate or for anything else. -/
  | closing (duplicate : Bool) (session : Session Addr)
  /-- In its `Close`, before `onSessionClose`. -/
  | flushing (session : Session Addr)
deriving DecidableEq, Repr

/-- The datagram of a call that has found room for a session, and has not created it yet. -/
def Point.admitted : Point Addr → Option (Packet Addr)
  | .numbering packet | .answering packet _ | .inserting packet _ => some packet
  | _ => none

/-- The listener. Of the history, `created` are the sessions with the datagrams that they were
created for, `closed` the sessions whose `Close` has begun, `failed` those that were told of a
read error, and `sent` the answers to connect packets. `harmed` says that for a duplicate a session
has been created, or one that was open has been closed or told of an error, and `outside` that
`is_connect_packet` has been called for more bytes than the constant has. -/
structure Shared (Addr : Type) where
  backlogSize : Nat
  maxConnNum : Nat
  blacklist : List Addr
  sessions : List (Fd × Session Addr)
  acceptBacklog : List (Session Addr)
  convid : BitVec 32
  created : List (Packet Addr × Session Addr)
  closed : List Nat
  failed : List Nat
  sent : List (Addr × List Byte)
  harmed : Bool
  outside : Bool

inductive Action (Addr : Type) where
  | receive (data : List Byte) (remote : Addr)
  | go
  /-- `is_connect_packet`, with its answer where the comparison goes too far. -/
  | compare (answer : Bool)
  /-- `onSessionClose`, with the map in which the address is found first. -/
  | erase (fd : Fd)
  | accept
  | close (session : Session Addr)
  | cleanupBlacklist
deriving DecidableEq, Repr

namespace Shared

variable (shared : Shared Addr)

/-- `_sessions[fd].find(addr)`. -/
def find (fd : Fd) (addr : Addr) : Option (Session Addr) :=
  (shared.sessions.find? fun entry => entry.1 = fd ∧ entry.2.remoteAddr = addr).map Prod.snd

/-- The sessions without the one of an address at a socket. -/
def without (fd : Fd) (addr : Addr) : List (Fd × Session Addr) :=
  shared.sessions.filter fun entry => ¬ (entry.1 = fd ∧ entry.2.remoteAddr = addr)

/-- The datagram is a connect packet, and a session of its address is open. -/
def duplicates (data : List Byte) (remote : Addr) : Bool :=
  data = connectPacket ∧
    ∃ session ∈ shared.created.map Prod.snd, session.remoteAddr = remote ∧
      session.id ∉ shared.closed

/-- The session that a connect packet creates. -/
def new (packet : Packet Addr) (convid : BitVec 32) : Session Addr :=
  ⟨shared.created.length, packet.remote, convid⟩

/-- One step of a fiber; none if it has to wait. -/
def exec (self : Fd) : Point Addr → Action Addr → Option (Shared Addr × Point Addr)
  | .idle, .receive data remote =>
      some (shared, .received ⟨data, remote, shared.duplicates data remote⟩)
  | .idle, .accept =>
      match shared.acceptBacklog with
      | [] => none
      | _ :: rest => some ({ shared with acceptBacklog := rest }, .idle)
  | .idle, .close session =>
      if session ∈ shared.created.map Prod.snd then some (shared, .closing false session) else none
  | .idle, .cleanupBlacklist => some ({ shared with blacklist := [] }, .idle)
  | .received packet, .go =>
      if packet.remote ∈ shared.blacklist then some (shared, .idle)
      else some (shared, .finding packet)
  | .finding packet, .go =>
      match shared.find self packet.remote with
      | some session => some (shared, .matching packet session)
      | none => some (shared, .comparing packet)
  | .comparing packet, .compare answer =>
      match isConnectPacket packet.data with
      | some true => some (shared, .testing packet)
      | some false => some (shared, .reporting packet)
      | none => some ({ shared with outside := true },
          if answer then .testing packet else .reporting packet)
  | .reporting packet, .go =>
      some ({ shared with blacklist := shared.blacklist.insert packet.remote }, .idle)
  | .testing packet, .go =>
      if shared.backlogSize ≤ shared.acceptBacklog.length then some (shared, .idle)
      else some (shared, .counting packet)
  | .counting packet, .go =>
      if shared.maxConnNum ≤ shared.sessions.length then some (shared, .idle)
      else some (shared, .numbering packet)
  | .numbering packet, .go =>
      some ({ shared with convid := shared.convid + 1 }, .answering packet shared.convid)
  | .answering packet convid, .go =>
      some ({ shared with sent := shared.sent ++ [(packet.remote, connectBackpacket convid)] },
        .inserting packet convid)
  | .inserting packet convid, .go =>
      some ({ shared with
        sessions := shared.without self packet.remote ++ [(self, shared.new packet convid)]
        created := shared.created ++ [(packet, shared.new packet convid)]
        harmed := shared.harmed || packet.duplicate }, .pushing packet (shared.new packet convid))
  | .pushing _ session, .go =>
      some ({ shared with acceptBacklog := shared.acceptBacklog ++ [session] }, .idle)
  | .matching packet session, .go =>
      if packet.data.length < 4 then some (shared, .closing packet.duplicate session)
      else if ikcpGetconv packet.data = session.convid then some (shared, .inputting packet session)
      else some (shared, .closing packet.duplicate session)
  | .inputting packet session, .go =>
      if ikcpInput session.convid packet.data < 0 then
        some ({ shared with
          failed := shared.failed.insert session.id
          harmed := shared.harmed || (packet.duplicate && session.id ∉ shared.closed) }, .idle)
      else
        some (shared, .idle)
  | .closing duplicate session, .go =>
      if session.id ∈ shared.closed then some (shared, .idle)
      else some ({ shared with
        closed := session.id :: shared.closed
        harmed := shared.harmed || duplicate }, .flushing session)
  | .flushing session, .erase fd =>
      if (shared.find fd session.remoteAddr).isSome then
        some ({ shared with sessions := shared.without fd session.remoteAddr }, .idle)
      else if ∀ entry ∈ shared.sessions, entry.2.remoteAddr ≠ session.remoteAddr then
        some (shared, .idle)
      else
        none
  | _, _ => none

end Shared

abbrev State (Addr : Type) := Config (Shared Addr) (Point Addr)

def step (state : State Addr) (action : Fd × Action Addr) : Option (State Addr) :=
  (state.shared.exec action.1 (state.threads action.1) action.2).map fun next =>
    state.put action.1 next.1 next.2

theorem step_frame ⦃state : State Addr⦄ ⦃action : Fd × Action Addr⦄ ⦃next : State Addr⦄
    ⦃other : Nat⦄ (taken : step state action = some next) (apart : some action.1 ≠ some other) :
    next.threads other = state.threads other :=
  Config.map_put_other taken apart

/-- A listener with no sessions. -/
def fresh (backlogSize maxConnNum : Nat) (convid : BitVec 32) : State Addr where
  shared := {
    backlogSize := backlogSize
    maxConnNum := maxConnNum
    blacklist := []
    sessions := []
    acceptBacklog := []
    convid := convid
    created := []
    closed := []
    failed := []
    sent := []
    harmed := false
    outside := false }
  threads := fun _ => .idle

/-!
## What a step does
-/

/-- What a fiber can do in one step. -/
inductive Move (shared : Shared Addr) (self : Fd) :
    Point Addr → Action Addr → Shared Addr → Point Addr → Prop where
  | receives (data : List Byte) (remote : Addr) :
      Move shared self .idle (.receive data remote) shared
        (.received ⟨data, remote, shared.duplicates data remote⟩)
  | accepts {first : Session Addr} {rest : List (Session Addr)}
      (backlog : shared.acceptBacklog = first :: rest) :
      Move shared self .idle .accept { shared with acceptBacklog := rest } .idle
  | closes {session : Session Addr} (known : session ∈ shared.created.map Prod.snd) :
      Move shared self .idle (.close session) shared (.closing false session)
  | cleans :
      Move shared self .idle .cleanupBlacklist { shared with blacklist := [] } .idle
  | ignores {packet : Packet Addr} (listed : packet.remote ∈ shared.blacklist) :
      Move shared self (.received packet) .go shared .idle
  | takes {packet : Packet Addr} (unlisted : packet.remote ∉ shared.blacklist) :
      Move shared self (.received packet) .go shared (.finding packet)
  | finds {packet : Packet Addr} {session : Session Addr}
      (found : shared.find self packet.remote = some session) :
      Move shared self (.finding packet) .go shared (.matching packet session)
  | misses {packet : Packet Addr} (unknown : shared.find self packet.remote = none) :
      Move shared self (.finding packet) .go shared (.comparing packet)
  | confirms {packet : Packet Addr} (answer : Bool)
      (same : isConnectPacket packet.data = some true) :
      Move shared self (.comparing packet) (.compare answer) shared (.testing packet)
  | refuses {packet : Packet Addr} (answer : Bool)
      (other : isConnectPacket packet.data = some false) :
      Move shared self (.comparing packet) (.compare answer) shared (.reporting packet)
  | strays {packet : Packet Addr} (answer : Bool)
      (large : isConnectPacket packet.data = none) :
      Move shared self (.comparing packet) (.compare answer) { shared with outside := true }
        (if answer then .testing packet else .reporting packet)
  | reports {packet : Packet Addr} :
      Move shared self (.reporting packet) .go
        { shared with blacklist := shared.blacklist.insert packet.remote } .idle
  | overflows {packet : Packet Addr} (full : shared.backlogSize ≤ shared.acceptBacklog.length) :
      Move shared self (.testing packet) .go shared .idle
  | fits {packet : Packet Addr} (room : shared.acceptBacklog.length < shared.backlogSize) :
      Move shared self (.testing packet) .go shared (.counting packet)
  | exceeds {packet : Packet Addr} (full : shared.maxConnNum ≤ shared.sessions.length) :
      Move shared self (.counting packet) .go shared .idle
  | admits {packet : Packet Addr} (room : shared.sessions.length < shared.maxConnNum) :
      Move shared self (.counting packet) .go shared (.numbering packet)
  | numbers {packet : Packet Addr} :
      Move shared self (.numbering packet) .go { shared with convid := shared.convid + 1 }
        (.answering packet shared.convid)
  | answers {packet : Packet Addr} {convid : BitVec 32} :
      Move shared self (.answering packet convid) .go
        { shared with sent := shared.sent ++ [(packet.remote, connectBackpacket convid)] }
        (.inserting packet convid)
  | inserts {packet : Packet Addr} {convid : BitVec 32} :
      Move shared self (.inserting packet convid) .go
        { shared with
          sessions := shared.without self packet.remote ++ [(self, shared.new packet convid)]
          created := shared.created ++ [(packet, shared.new packet convid)]
          harmed := shared.harmed || packet.duplicate }
        (.pushing packet (shared.new packet convid))
  | pushes {packet : Packet Addr} {session : Session Addr} :
      Move shared self (.pushing packet session) .go
        { shared with acceptBacklog := shared.acceptBacklog ++ [session] } .idle
  | mismatches {packet : Packet Addr} {session : Session Addr}
      (apart : packet.data.length < 4 ∨ ikcpGetconv packet.data ≠ session.convid) :
      Move shared self (.matching packet session) .go shared (.closing packet.duplicate session)
  | agrees {packet : Packet Addr} {session : Session Addr}
      (same : ikcpGetconv packet.data = session.convid) :
      Move shared self (.matching packet session) .go shared (.inputting packet session)
  | fails {packet : Packet Addr} {session : Session Addr}
      (error : ikcpInput session.convid packet.data < 0) :
      Move shared self (.inputting packet session) .go
        { shared with
          failed := shared.failed.insert session.id
          harmed := shared.harmed || (packet.duplicate && session.id ∉ shared.closed) } .idle
  | inputs {packet : Packet Addr} {session : Session Addr}
      (good : ¬ ikcpInput session.convid packet.data < 0) :
      Move shared self (.inputting packet session) .go shared .idle
  | returns {duplicate : Bool} {session : Session Addr} (late : session.id ∈ shared.closed) :
      Move shared self (.closing duplicate session) .go shared .idle
  | flushes {duplicate : Bool} {session : Session Addr} (first : session.id ∉ shared.closed) :
      Move shared self (.closing duplicate session) .go
        { shared with
          closed := session.id :: shared.closed
          harmed := shared.harmed || duplicate } (.flushing session)
  | erases {session : Session Addr} (fd : Fd)
      (found : (shared.find fd session.remoteAddr).isSome) :
      Move shared self (.flushing session) (.erase fd)
        { shared with sessions := shared.without fd session.remoteAddr } .idle
  | vanished {session : Session Addr} (fd : Fd)
      (none : ∀ entry ∈ shared.sessions, entry.2.remoteAddr ≠ session.remoteAddr) :
      Move shared self (.flushing session) (.erase fd) shared .idle

section Moves

variable {state after : State Addr} {shared next : Shared Addr} {self : Fd}
  {was now : Point Addr} {action : Action Addr}

/-- Whatever a step does, it is one of the moves. -/
theorem Move.of_exec (taken : shared.exec self was action = some (next, now)) :
    Move shared self was action next now := by
  revert taken
  fun_cases Shared.exec shared self was action
  all_goals rintro ⟨⟩
  case case1 => exact .receives _ _
  case case3 backlog => exact .accepts backlog
  case case4 known => exact .closes known
  case case6 => exact .cleans
  case case7 listed => exact .ignores listed
  case case8 unlisted => exact .takes unlisted
  case case9 found => exact .finds found
  case case10 unknown => exact .misses unknown
  case case11 same => exact .confirms _ same
  case case12 other => exact .refuses _ other
  case case13 large => exact .strays _ large
  case case14 => exact .reports
  case case15 full => exact .overflows full
  case case16 room => exact .fits (Nat.lt_of_not_le room)
  case case17 full => exact .exceeds full
  case case18 room => exact .admits (Nat.lt_of_not_le room)
  case case19 => exact .numbers
  case case20 => exact .answers
  case case21 => exact .inserts
  case case22 => exact .pushes
  case case23 short => exact .mismatches (.inl short)
  case case24 same => exact .agrees same
  case case25 other => exact .mismatches (.inr other)
  case case26 error => exact .fails error
  case case27 good => exact .inputs good
  case case28 late => exact .returns late
  case case29 first => exact .flushes first
  case case30 found => exact .erases _ found
  case case31 none => exact .vanished _ none

theorem Move.of_step {action : Fd × Action Addr} (taken : step state action = some after) :
    ∃ next now, Move state.shared action.1 (state.threads action.1) action.2 next now ∧
      after = state.put action.1 next now := by
  obtain ⟨⟨next, now⟩, executed, rfl⟩ := Option.map_eq_some_iff.mp taken
  exact ⟨next, now, .of_exec executed, rfl⟩

end Moves

end KcpListener

end Xten.Kcp
