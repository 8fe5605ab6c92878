import Xten.Stream.Socket

/-!
# Fixed-size transfers

What `ReadFixSize` and `WriteFixSize` move. A read into a buffer takes exactly its
bytes. A read into a byte array takes them if no receive delivers more than is left,
and otherwise more than them, whatever it returns.
-/

namespace Xten

open Std.Programs
open Xten.ByteArray (At Filling reach le_reach scatter)

namespace Socket

variable {socket : Socket} {room : Nat}

theorem delivery_le : socket.delivery room ≤ room :=
  (min_le_left _ _).trans (min_le_left _ _)

theorem delivery_le_incoming : socket.delivery room ≤ socket.incoming.length :=
  (min_le_left _ _).trans (min_le_right _ _)

theorem delivery_pos (some : 0 < room) (more : 0 < socket.incoming.length) :
    0 < socket.delivery room :=
  lt_min (lt_min some more) (Nat.lt_of_lt_of_le Nat.one_pos (le_max_left _ _))

/-- A number of bytes come by receives none of which delivers more than is left. The
room that a receive has follows from the bytes that came before and those left. -/
inductive Takes (room : Nat → Nat → Nat) : Nat → Nat → Socket → Socket → Prop where
  | done {position : Nat} {socket : Socket} : Takes room position 0 socket socket
  | more {position left : Nat} {socket later : Socket} (some : 0 < left)
      (comes : 0 < socket.delivery (room position left))
      (within : socket.delivery (room position left) ≤ left)
      (rest : Takes room (position + socket.delivery (room position left))
        (left - socket.delivery (room position left))
        (socket.received (socket.delivery (room position left))) later) :
      Takes room position left socket later

variable {rooms : Nat → Nat → Nat} {position left : Nat} {later : Socket}

theorem Takes.incoming (takes : Takes rooms position left socket later) :
    left ≤ socket.incoming.length ∧ later.incoming = socket.incoming.drop left := by
  induction takes with
  | done => exact ⟨Nat.zero_le _, rfl⟩
  | @more position left socket later some comes within rest ih =>
      have inside := @delivery_le_incoming socket (rooms position left)
      obtain ⟨enough, same⟩ := ih
      simp only [received, List.length_drop, List.drop_drop] at enough same
      refine ⟨by omega, same.trans ?_⟩
      rw [Nat.add_sub_cancel' within]

theorem Takes.kept (takes : Takes rooms position left socket later) :
    later.connected = socket.connected ∧ later.outgoing = socket.outgoing := by
  induction takes with
  | done => exact ⟨rfl, rfl⟩
  | more some comes within rest ih => exact ih

/-- The bytes may come at once. -/
theorem Takes.once (some : 0 < left) (all : socket.delivery (rooms position left) = left) :
    socket.Takes rooms position left (socket.received left) := by
  have rest : (socket.received left).Takes rooms (position + left) (left - left)
      (socket.received left) := by
    rw [Nat.sub_self]
    exact .done
  apply Takes.more some
  · rwa [all]
  · exact all.le
  · rwa [all]

/-- The network decides how the bytes come. -/
theorem Takes.unique {other : Socket} (first : socket.Takes rooms position left later)
    (second : socket.Takes rooms position left other) : later = other := by
  induction first with
  | done =>
      cases second with
      | done => rfl
      | more some => exact absurd some (Nat.lt_irrefl 0)
  | more some comes within rest ih =>
      cases second with
      | done => exact absurd some (Nat.lt_irrefl 0)
      | more _ _ _ again => exact ih again

end Socket

section Buffer

variable {bufferSize len : Nat} {socket later : Socket}

/-- The room of a receive into a buffer. -/
def bufferRoom (bufferSize : Nat) (_position left : Nat) : Nat :=
  min left bufferSize

/-- A buffer has no room for more than is left. -/
theorem Socket.takes_buffer (positive : 0 < bufferSize) (position : Nat) {left : Nat}
    (enough : left ≤ socket.incoming.length) :
    ∃ later, socket.Takes (bufferRoom bufferSize) position left later := by
  induction left using Nat.strong_induction_on generalizing position socket with
  | _ left ih =>
      rcases Nat.eq_zero_or_pos left with rfl | some
      · exact ⟨socket, .done⟩
      · have room : 0 < bufferRoom bufferSize position left := lt_min some positive
        have comes := Socket.delivery_pos room (some.trans_le enough)
        have within : socket.delivery (bufferRoom bufferSize position left) ≤ left :=
          Socket.delivery_le.trans (min_le_left _ _)
        obtain ⟨later, rest⟩ := @ih (left - socket.delivery (bufferRoom bufferSize position left))
          (by omega) (socket.received (socket.delivery (bufferRoom bufferSize position left)))
          (position + socket.delivery (bufferRoom bufferSize position left))
          (by rw [Socket.received, List.length_drop]; omega)
        exact ⟨later, .more some comes within rest⟩

theorem Stream.readBufferLoop_eq {position left rounds : Nat} {buffer : List Byte}
    (takes : socket.Takes (bufferRoom bufferSize) position left later)
    (connected : socket.connected = true) (enough : left < rounds) :
    Stream.readBufferLoop bufferSize len rounds left buffer socket =
      (((len : Int), buffer ++ socket.incoming.take left), later) := by
  induction takes generalizing rounds buffer with
  | done =>
      obtain ⟨rounds, rfl⟩ := Nat.exists_eq_succ_of_ne_zero enough.ne'
      simp [readBufferLoop]
  | @more position left socket later some comes within rest ih =>
      obtain ⟨rounds, rfl⟩ := Nat.exists_eq_succ_of_ne_zero (Nat.ne_zero_of_lt enough)
      have received : SocketStream.readBuffer (min left bufferSize) socket =
          (((socket.delivery (bufferRoom bufferSize position left) : Int),
            socket.incoming.take (socket.delivery (bufferRoom bufferSize position left))),
            socket.received (socket.delivery (bufferRoom bufferSize position left))) := by
        simp only [SocketStream.readBuffer, Socket.recv, connected, if_true, bufferRoom]
      rw [readBufferLoop, if_neg some.ne', received]
      generalize socket.delivery (bufferRoom bufferSize position left) = count at *
      have again := @ih rounds (buffer ++ socket.incoming.take count) connected (by omega)
      simp only
      rw [if_neg (by omega), Int.toNat_natCast, again, List.append_assoc]
      simp only [Socket.received]
      rw [← List.take_add, Nat.add_sub_cancel' within]

/-- `ReadFixSize` into a buffer takes the next bytes. -/
theorem Stream.readFixBuffer_eq
    (takes : socket.Takes (bufferRoom bufferSize) 0 len later)
    (connected : socket.connected = true) :
    Stream.readFixBuffer bufferSize len socket = (((len : Int), socket.incoming.take len), later) :=
  readBufferLoop_eq takes connected (Nat.lt_succ_of_le takes.incoming.1)

theorem Stream.readBufferLoop_short {left rounds : Nat} {buffer : List Byte}
    (short : socket.incoming.length < left) :
    (Stream.readBufferLoop bufferSize len rounds left buffer socket).1.1 ≤ 0 := by
  induction rounds generalizing left buffer socket with
  | zero => exact Int.le_refl 0
  | succ rounds ih =>
      rw [readBufferLoop, if_neg (Nat.ne_zero_of_lt short)]
      by_cases connected : socket.connected = true
      · have bounded := @Socket.delivery_le_incoming socket (min left bufferSize)
        simp only [SocketStream.readBuffer, Socket.recv, connected, if_true]
        generalize socket.delivery (min left bufferSize) = count at *
        split_ifs with none
        · exact none
        · apply ih
          rw [Socket.received, List.length_drop, Int.toNat_natCast]
          omega
      · simp [SocketStream.readBuffer, connected]

/-- `ReadFixSize` into a buffer fails if the stream is closed or ends early. -/
theorem Stream.readFixBuffer_fails (some : 0 < len)
    (fails : socket.connected = false ∨ socket.incoming.length < len) :
    (Stream.readFixBuffer bufferSize len socket).1.1 ≤ 0 := by
  rcases fails with closed | short
  · rw [readFixBuffer, readBufferLoop, if_neg some.ne']
    simp [SocketStream.readBuffer, closed]
  · exact readBufferLoop_short short

end Buffer

section Array

variable {bufferSize len nodeSize limit : Nat} {endian : Endian} {before : List Byte}
  {ba : ByteArray} {socket later : Socket}

/-- The room of a receive into an array runs to the end of a node. -/
def arrayRoom (nodeSize bufferSize : Nat) (position left : Nat) : Nat :=
  reach nodeSize position (min left bufferSize)

theorem scatter_position (iovs : List ByteArray.Iovec) (data : List Byte) (ba : ByteArray) :
    (scatter iovs data ba).position = ba.position := by
  induction iovs generalizing data ba with
  | nil => rfl
  | cons iov iovs ih => exact ih _ _

/-- One read of an array that is being filled. -/
theorem SocketStream.read_eq {left : Nat} (filling : Filling endian nodeSize limit before ba)
    (connected : socket.connected = true) (some : 0 < min left bufferSize)
    (within : before.length + left ≤ limit)
    (comes : 0 < socket.delivery (arrayRoom nodeSize bufferSize before.length left)) :
    ∃ filled, SocketStream.read (min left bufferSize) (ba, socket) =
        .ok ↑(socket.delivery (arrayRoom nodeSize bufferSize before.length left))
          (filled,
            socket.received (socket.delivery (arrayRoom nodeSize bufferSize before.length left))) ∧
      Filling endian nodeSize limit (before ++ socket.incoming.take
        (socket.delivery (arrayRoom nodeSize bufferSize before.length left))) filled := by
  obtain ⟨iovs, grown, handed, sum, fill⟩ := filling.receive some (by omega)
  have bounded := @Socket.delivery_le socket (arrayRoom nodeSize bufferSize before.length left)
  have inside := @Socket.delivery_le_incoming socket
    (arrayRoom nodeSize bufferSize before.length left)
  change ByteArray.total iovs = arrayRoom nodeSize bufferSize before.length left at sum
  simp only [SocketStream.read, connected, if_true, handed, Socket.recvV, Socket.recv, sum,
    scatter_position]
  generalize socket.delivery (arrayRoom nodeSize bufferSize before.length left) = count at *
  have length : (socket.incoming.take count).length = count := List.length_take_of_le inside
  obtain ⟨filled, moved, filling⟩ := fill (socket.incoming.take count) (by omega) (by omega)
  rw [length] at moved
  rw [if_pos (by omega), Int.toNat_natCast, moved]
  exact ⟨filled, rfl, filling⟩

theorem left_sub {left count : Nat} (within : count ≤ left) :
    BitVec.ofNat 64 left - BitVec.ofInt 64 count = BitVec.ofNat 64 (left - count) := by
  rw [BitVec.ofInt_natCast]
  apply BitVec.eq_of_toNat_eq
  simp only [BitVec.toNat_sub, BitVec.toNat_ofNat]
  omega

/-- The bytes left are zero as a `size_t` only if there are none. -/
theorem left_ne_zero {left : Nat} (some : 0 < left) (small : left < 2 ^ 64) :
    BitVec.ofNat 64 left ≠ 0 := by
  intro none
  have zero := congrArg BitVec.toNat none
  rw [BitVec.toNat_ofNat, Nat.mod_eq_of_lt small] at zero
  exact some.ne' zero

/-- A round of the loop of `ReadFixSize`. -/
theorem Stream.readLoop_succ {left rounds : Nat} (some : 0 < left) (small : left < 2 ^ 64)
    {count : Nat} (comes : 0 < count) {filled : ByteArray} {after : Socket}
    (read : SocketStream.read (min left bufferSize) (ba, socket) = .ok ↑count (filled, after)) :
    Stream.readLoop bufferSize len (rounds + 1) (BitVec.ofNat 64 left) (ba, socket) =
      Stream.readLoop bufferSize len rounds (BitVec.ofNat 64 left - BitVec.ofInt 64 count)
        (filled, after) := by
  have same : (BitVec.ofNat 64 left).toNat = left := Nat.mod_eq_of_lt small
  rw [readLoop, if_neg (left_ne_zero some small), same, bind_ok read, if_neg (by omega)]

theorem Stream.readLoop_eq {left rounds : Nat} (positive : 0 < bufferSize)
    (takes : socket.Takes (arrayRoom nodeSize bufferSize) before.length left later)
    (filling : Filling endian nodeSize limit before ba) (reached : before.length + left = limit)
    (connected : socket.connected = true) (small : left < 2 ^ 64) (enough : left < rounds) :
    ∃ filled, Stream.readLoop bufferSize len rounds (BitVec.ofNat 64 left) (ba, socket) =
        .ok ↑len (filled, later) ∧
      Filling endian nodeSize limit (before ++ socket.incoming.take left) filled := by
  generalize start : before.length = position at takes
  induction takes generalizing rounds before ba with
  | done =>
      obtain ⟨rounds, rfl⟩ := Nat.exists_eq_succ_of_ne_zero enough.ne'
      exact ⟨ba, rfl, by rwa [List.take_zero, List.append_nil]⟩
  | @more position left socket later some comes within rest ih =>
      subst start
      obtain ⟨rounds, rfl⟩ := Nat.exists_eq_succ_of_ne_zero (Nat.ne_zero_of_lt enough)
      have inside := @Socket.delivery_le_incoming socket
        (arrayRoom nodeSize bufferSize before.length left)
      obtain ⟨filled, read, filling⟩ := SocketStream.read_eq filling connected
        (lt_min some positive) reached.le comes
      rw [Stream.readLoop_succ some small comes read]
      generalize socket.delivery (arrayRoom nodeSize bufferSize before.length left) = count at *
      have length : (before ++ socket.incoming.take count).length = before.length + count := by
        rw [List.length_append, List.length_take_of_le inside]
      obtain ⟨last, done, filling⟩ := ih filling (by omega) connected (by omega)
        (show left - count < rounds by omega) length
      refine ⟨last, by rw [left_sub within, done], ?_⟩
      rw [List.append_assoc] at filling
      simp only [Socket.received] at filling
      rwa [← List.take_add, Nat.add_sub_cancel' within] at filling

theorem SocketStream.read_shrinks {ret : Int} {filled : ByteArray} {after : Socket}
    (done : SocketStream.read len (ba, socket) = .ok ret (filled, after)) :
    after.incoming.length ≤ socket.incoming.length := by
  have shorter (count : Nat) : (socket.received count).incoming.length ≤ socket.incoming.length := by
    rw [Socket.received, List.length_drop]
    exact Nat.sub_le _ _
  simp only [SocketStream.read, Socket.recvV, Socket.recv] at done
  by_cases connected : socket.connected = true
  · simp only [connected, if_true] at done
    split at done
    · cases done
    · split at done
      · split at done <;> cases done
        exact shorter _
      · cases done
        exact shorter _
  · simp only [connected] at done
    cases done
    exact Nat.le_refl _

/-- Bytes once received are not given back. -/
theorem Stream.readLoop_shrinks {rounds : Nat} {left : BitVec 64} {ret : Int}
    {filled : ByteArray} {after : Socket}
    (done : Stream.readLoop bufferSize len rounds left (ba, socket) = .ok ret (filled, after)) :
    after.incoming.length ≤ socket.incoming.length := by
  induction rounds generalizing left ba socket with
  | zero =>
      cases done
      exact Nat.le_refl _
  | succ rounds ih =>
      rw [readLoop] at done
      split at done
      · cases done
        exact Nat.le_refl _
      · generalize read : SocketStream.read (min left.toNat bufferSize) (ba, socket) = result at done
        cases result with
        | error fault state =>
            rw [bind_error read] at done
            cases done
        | ok tmp state =>
            obtain ⟨middle, rest⟩ := state
            have shorter := SocketStream.read_shrinks read
            rw [bind_ok read] at done
            split at done
            · cases done
              exact shorter
            · exact (ih done).trans shorter

/-- Where a receive delivers more than is left, more than the bytes asked for are gone
afterwards. -/
theorem Stream.readLoop_overrun {left rounds : Nat} (positive : 0 < bufferSize)
    (positiveNode : 0 < nodeSize)
    (overrun : ∀ later, ¬ socket.Takes (arrayRoom nodeSize bufferSize) before.length left later)
    (filling : Filling endian nodeSize limit before ba) (reached : before.length + left = limit)
    (connected : socket.connected = true) (there : left ≤ socket.incoming.length)
    (small : left < 2 ^ 64) (enough : left < rounds) {ret : Int} {last : ByteArray}
    {after : Socket}
    (done : Stream.readLoop bufferSize len rounds (BitVec.ofNat 64 left) (ba, socket) =
      .ok ret (last, after)) :
    after.incoming.length + left < socket.incoming.length := by
  induction rounds generalizing left before ba socket with
  | zero => cases enough
  | succ rounds ih =>
      rcases Nat.eq_zero_or_pos left with rfl | some
      · exact absurd .done (overrun socket)
      have room : 0 < arrayRoom nodeSize bufferSize before.length left :=
        (lt_min some positive).trans_le (le_reach positiveNode _ _)
      have comes := Socket.delivery_pos room (some.trans_le there)
      have inside := @Socket.delivery_le_incoming socket
        (arrayRoom nodeSize bufferSize before.length left)
      have other (within : socket.delivery (arrayRoom nodeSize bufferSize before.length left) ≤ left)
          (later : Socket) := fun rest => overrun later (.more some comes within rest)
      obtain ⟨filled, read, filling⟩ := SocketStream.read_eq filling connected
        (lt_min some positive) reached.le comes
      rw [Stream.readLoop_succ some small comes read] at done
      generalize socket.delivery (arrayRoom nodeSize bufferSize before.length left) = count at *
      have shorter := Stream.readLoop_shrinks done
      rw [Socket.received, List.length_drop] at shorter
      by_cases within : count ≤ left
      · have length : (before ++ socket.incoming.take count).length = before.length + count := by
          rw [List.length_append, List.length_take_of_le inside]
        rw [left_sub within] at done
        rw [← length] at other
        have fewer := ih (other within) filling (by omega) connected
          (by rw [Socket.received, List.length_drop]; omega) (by omega) (by omega) done
        rw [Socket.received, List.length_drop] at fewer
        omega
      · omega

/-- `ReadFixSize` into a new array takes the next bytes, if no receive delivers more
than is left. -/
theorem Stream.readFixSize_eq (positive : 0 < bufferSize) (positiveNode : 0 < nodeSize)
    (fresh : Nat → Byte) (takes : socket.Takes (arrayRoom nodeSize bufferSize) 0 len later)
    (connected : socket.connected = true) (small : len < 2 ^ 64) :
    ∃ filled, Stream.readFixSize bufferSize len (ByteArray.make nodeSize fresh, socket) =
        .ok ↑len (filled, later) ∧
      ByteArray.Filled .big nodeSize (socket.incoming.take len) filled := by
  have start : ([] : List Byte).length + len = len := Nat.zero_add len
  obtain ⟨filled, done, filling⟩ := Stream.readLoop_eq positive takes
    (ByteArray.make_filling positiveNode fresh len) start connected small
    (Nat.lt_succ_of_le takes.incoming.1)
  exact ⟨filled, done, filling.full (List.length_take_of_le takes.incoming.1)⟩

/-- Otherwise more than these bytes are gone afterwards. -/
theorem Stream.readFixSize_overrun (positive : 0 < bufferSize) (positiveNode : 0 < nodeSize)
    (fresh : Nat → Byte)
    (overrun : ∀ later, ¬ socket.Takes (arrayRoom nodeSize bufferSize) 0 len later)
    (connected : socket.connected = true) (there : len ≤ socket.incoming.length)
    (small : len < 2 ^ 64) {ret : Int} {last : ByteArray} {after : Socket}
    (done : Stream.readFixSize bufferSize len (ByteArray.make nodeSize fresh, socket) =
      .ok ret (last, after)) :
    after.incoming.length + len < socket.incoming.length := by
  have start : ([] : List Byte).length + len = len := Nat.zero_add len
  have never : ∀ later, ¬ socket.Takes (arrayRoom nodeSize bufferSize) ([] : List Byte).length len
      later := overrun
  exact Stream.readLoop_overrun positive positiveNode never
    (ByteArray.make_filling positiveNode fresh len) start connected there small
    (Nat.lt_succ_of_le there) done

end Array

section Writes

variable {bufferSize len nodeSize capacity : Nat} {endian : Endian} {before after : List Byte}
  {ba : ByteArray} {socket : Socket}

theorem Socket.share_le (most : Nat) : socket.share most ≤ most :=
  min_le_left _ _

theorem Socket.share_pos {most : Nat} (some : 0 < most) : 0 < socket.share most :=
  lt_min some (Nat.lt_of_lt_of_le Nat.one_pos (le_max_left _ _))

theorem Stream.writeBufferLoop_eq {rounds : Nat} {buffer : List Byte} (positive : 0 < bufferSize)
    (connected : socket.connected = true) (enough : buffer.length < rounds) :
    ∃ later, Stream.writeBufferLoop bufferSize len rounds buffer socket = (↑len, later) ∧
      later.outgoing = socket.outgoing ++ buffer ∧ later.connected = true := by
  induction rounds generalizing buffer socket with
  | zero => cases enough
  | succ rounds ih =>
      by_cases none : buffer.length = 0
      · refine ⟨socket, by rw [writeBufferLoop, if_pos none], ?_, connected⟩
        rw [List.length_eq_zero_iff.mp none, List.append_nil]
      · have some : 0 < (buffer.take bufferSize).length := by
          rw [List.length_take]
          omega
        have moved := @Socket.share_pos socket _ some
        have bounded := @Socket.share_le socket (buffer.take bufferSize).length
        have sends : SocketStream.writeBuffer (buffer.take bufferSize) socket =
            (↑(socket.share (buffer.take bufferSize).length), socket.sent
              ((buffer.take bufferSize).take (socket.share (buffer.take bufferSize).length))) := by
          simp only [SocketStream.writeBuffer, Socket.send, connected, if_true]
        rw [writeBufferLoop, if_neg none, sends]
        generalize socket.share (buffer.take bufferSize).length = count at *
        have piece : (buffer.take bufferSize).take count = buffer.take count := by
          rw [List.take_take]
          congr 1
          rw [List.length_take] at bounded
          omega
        obtain ⟨later, done, outgoing, kept⟩ := @ih
          (socket.sent (buffer.take count)) (buffer.drop count) connected
          (by rw [List.length_drop]; omega)
        simp only [piece]
        rw [if_neg (by omega), Int.toNat_natCast, done]
        refine ⟨later, rfl, ?_, kept⟩
        rw [outgoing, Socket.sent, List.append_assoc, List.take_append_drop]

/-- `WriteFixSize` of a buffer sends its bytes. -/
theorem Stream.writeFixBuffer_eq (positive : 0 < bufferSize) (connected : socket.connected = true)
    (buffer : List Byte) :
    ∃ later, Stream.writeFixBuffer bufferSize buffer socket = (↑buffer.length, later) ∧
      later.outgoing = socket.outgoing ++ buffer ∧ later.connected = true :=
  writeBufferLoop_eq positive connected (Nat.lt_succ_self _)

theorem Stream.writeBufferLoop_incoming {len rounds : Nat} {buffer : List Byte} :
    (Stream.writeBufferLoop bufferSize len rounds buffer socket).2.incoming = socket.incoming := by
  induction rounds generalizing buffer socket with
  | zero => rfl
  | succ rounds ih =>
      have kept : (SocketStream.writeBuffer (buffer.take bufferSize) socket).2.incoming =
          socket.incoming := by
        unfold SocketStream.writeBuffer Socket.send
        split <;> rfl
      rw [writeBufferLoop]
      split
      · rfl
      · simp only
        split
        · exact kept
        · exact ih.trans kept

/-- Sending leaves what has come. -/
theorem Stream.writeFixBuffer_incoming {buffer : List Byte} :
    (Stream.writeFixBuffer bufferSize buffer socket).2.incoming = socket.incoming :=
  writeBufferLoop_incoming

/-- Nothing is sent through a closed socket. -/
theorem Stream.writeFixBuffer_closed (closed : socket.connected = false) {buffer : List Byte}
    (some : buffer ≠ []) :
    Stream.writeFixBuffer bufferSize buffer socket = (-1, socket) := by
  have length : ¬ buffer.length = 0 := fun none => some (List.length_eq_zero_iff.mp none)
  simp only [writeFixBuffer, writeBufferLoop, if_neg length, SocketStream.writeBuffer, closed]
  rfl

theorem SocketStream.write_eq {len : Nat} (cut : At endian nodeSize capacity before after ba)
    (connected : socket.connected = true) (some : 0 < len) (there : len ≤ after.length) :
    ∃ count later, 0 < count ∧ count ≤ len ∧
      SocketStream.write len (ba, socket) = .ok ↑count (later, socket.sent (after.take count)) ∧
      At endian nodeSize capacity (before ++ after.take count) (after.drop count) later := by
  obtain ⟨iovs, handed, contents⟩ := cut.getReadBuffers_eq len
  have length : (after.take len).length = len := List.length_take_of_le there
  have moved := @Socket.share_pos socket _ some
  have bounded := @Socket.share_le socket len
  simp only [SocketStream.write, connected, if_true, handed, Socket.sendV, Socket.send, contents,
    length]
  generalize socket.share len = count at *
  obtain ⟨later, advanced, cut⟩ := cut.advance (bounded.trans there)
  have piece : (after.take len).take count = after.take count := by
    rw [List.take_take, Nat.min_eq_left bounded]
  rw [if_pos (by omega), Int.toNat_natCast, advanced, piece]
  exact ⟨count, later, moved, bounded, rfl, cut⟩

theorem Stream.writeLoop_eq {left rounds : Nat} (positive : 0 < bufferSize)
    (cut : At endian nodeSize capacity before after ba) (connected : socket.connected = true)
    (there : left ≤ after.length) (enough : left < rounds) :
    ∃ last later, Stream.writeLoop bufferSize len rounds left (ba, socket) = .ok ↑len (last, later) ∧
      later.outgoing = socket.outgoing ++ after.take left ∧ later.connected = true ∧
      At endian nodeSize capacity (before ++ after.take left) (after.drop left) last := by
  induction rounds generalizing left before after ba socket with
  | zero => cases enough
  | succ rounds ih =>
      rcases Nat.eq_zero_or_pos left with rfl | some
      · refine ⟨ba, socket, rfl, ?_, connected, ?_⟩
        · rw [List.take_zero, List.append_nil]
        · rwa [List.take_zero, List.append_nil, List.drop_zero]
      · obtain ⟨count, next, moved, bounded, wrote, cut⟩ := SocketStream.write_eq cut connected
          (lt_min some positive) ((min_le_left _ _).trans there)
        have within : count ≤ left := bounded.trans (min_le_left _ _)
        have shorter : left - count ≤ (after.drop count).length := by
          rw [List.length_drop]
          omega
        obtain ⟨last, later, done, outgoing, kept, cut⟩ := ih cut
          (show (socket.sent (after.take count)).connected = true from connected) shorter (by omega)
        have whole : after.take count ++ (after.drop count).take (left - count) =
            after.take left := by
          rw [← List.take_add, Nat.add_sub_cancel' within]
        refine ⟨last, later, ?_, ?_, kept, ?_⟩
        · rw [writeLoop, if_neg some.ne', bind_ok wrote, if_neg (by omega), Int.toNat_natCast, done]
        · rw [outgoing, Socket.sent, List.append_assoc, whole]
        · rw [List.append_assoc, whole, List.drop_drop, Nat.add_sub_cancel' within] at cut
          exact cut

/-- `WriteFixSize` of an array sends the bytes after its cursor. -/
theorem Stream.writeFixSize_eq (positive : 0 < bufferSize)
    (cut : At endian nodeSize capacity before after ba) (connected : socket.connected = true)
    (there : len ≤ after.length) :
    ∃ last later, Stream.writeFixSize bufferSize len (ba, socket) = .ok ↑len (last, later) ∧
      later.outgoing = socket.outgoing ++ after.take len ∧ later.connected = true ∧
      At endian nodeSize capacity (before ++ after.take len) (after.drop len) last :=
  writeLoop_eq positive cut connected there (Nat.lt_succ_self _)

end Writes

end Xten
