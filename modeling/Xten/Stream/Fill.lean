import Xten.Stream.Transfer

/-!
# What a fixed-size read leaves in an array

`ReadFixSize` into a byte array on any stream: it returns a positive number exactly
where the receives use up the count of the bytes left, which they may overrun as long
as it wraps to zero in the end. The bytes received are then in the array.
-/

namespace Xten

open Std.Programs
open Xten.ByteArray (At reach le_reach scatter)

section Room

/-- The capacity of an array once room is made for some bytes behind a position. -/
def roomFor (nodeSize capacity position len : Nat) : Nat :=
  if len ≤ capacity - position then capacity
  else capacity + nodeSize * ((len - (capacity - position) + nodeSize - 1) / nodeSize)

theorem FlatArray.Holds.reserve_length {flat : FlatArray} {nodeSize capacity : Nat}
    {before after : List Byte} (holds : flat.Holds nodeSize capacity before after) (len : Nat) :
    (flat.reserve len).storage.length = roomFor nodeSize capacity before.length len := by
  rw [FlatArray.reserve, roomFor, holds.capacity, holds.position]
  split
  · exact holds.capacity
  · simp only [FlatArray.extend, FlatArray.missing, ByteArray.newNode, List.length_append,
      List.length_map, List.length_range, holds.capacity, holds.position, holds.nodeSize]

variable {endian : Endian} {nodeSize capacity len : Nat} {before : List Byte} {ba : ByteArray}

theorem ByteArray.At.capacity_eq {after : List Byte} (cut : At endian nodeSize capacity before after ba) :
    ba.capacity = capacity := by
  obtain ⟨flat, ⟨valid, rfl⟩, holds⟩ := cut.flat
  exact valid.length_storage.symm.trans holds.capacity

/-- One receive at the end of the data of an array. -/
theorem ByteArray.At.receive (cut : At endian nodeSize capacity before [] ba) (some : 0 < len) :
    ∃ iovs grown, ByteArray.getWriteBuffers len ba = .ok (iovs, len) grown ∧
      ByteArray.total iovs = reach nodeSize before.length len ∧
      ∀ data : List Byte, 0 < data.length → data.length ≤ ByteArray.total iovs →
        ∃ after, ByteArray.setPosition (grown.position + data.length)
            (scatter iovs data grown) = .ok () after ∧
          At endian nodeSize (roomFor nodeSize capacity before.length len) (before ++ data) []
            after := by
  obtain ⟨flat, ⟨valid, rfl⟩, holds⟩ := cut.flat
  have position : ba.position = before.length := holds.position
  have size : ba.nodeSize = nodeSize := holds.nodeSize
  obtain ⟨iovs, grown, handed, -, sum, filled⟩ := valid.receive some
  rw [position, size] at sum
  refine ⟨iovs, grown, handed, sum, fun data more fits => ?_⟩
  obtain ⟨inside, after, moved, represents, kept⟩ := filled data more fits
  have reserved := holds.reserve len
  rw [holds.reserve_length len] at reserved
  exact ⟨after, moved, kept.trans cut.endian, _, represents, reserved.put inside⟩

end Room

/-- The receives of `ReadFixSize` use up the bytes left: the capacity of the array, its
contents and the socket before and after. -/
inductive Stream.Fills (nodeSize bufferSize : Nat) :
    Nat → List Byte → BitVec 64 → Socket → Nat → List Byte → Socket → Prop where
  | done {capacity : Nat} {contents : List Byte} {socket : Socket} :
      Fills nodeSize bufferSize capacity contents 0 socket capacity contents socket
  | more {capacity last count : Nat} {before contents : List Byte} {left : BitVec 64}
      {socket later : Socket} (some : left ≠ 0)
      (delivers : socket.delivery (arrayRoom nodeSize bufferSize before.length left.toNat) = count)
      (comes : 0 < count)
      (rest : Fills nodeSize bufferSize
        (roomFor nodeSize capacity before.length (min left.toNat bufferSize))
        (before ++ socket.incoming.take count) (left - BitVec.ofNat 64 count)
        (socket.received count) last contents later) :
      Fills nodeSize bufferSize capacity before left socket last contents later

section Filling

variable {nodeSize bufferSize len capacity last : Nat} {endian : Endian}
  {before contents : List Byte} {left : BitVec 64} {ba : ByteArray} {socket later : Socket}

namespace Stream

/-- The network decides what is in the array in the end. -/
theorem Fills.unique {last' : Nat} {contents' : List Byte} {later' : Socket}
    (first : Fills nodeSize bufferSize capacity before left socket last contents later)
    (second : Fills nodeSize bufferSize capacity before left socket last' contents' later') :
    last = last' ∧ contents = contents' := by
  induction first with
  | done =>
      cases second with
      | done => exact ⟨rfl, rfl⟩
      | more some => exact absurd rfl some
  | more some delivers comes rest ih =>
      subst delivers
      cases second with
      | done => exact absurd rfl some
      | more _ delivers _ again =>
          subst delivers
          exact ih again

/-- What is in the array in the end is as long as was asked for, up to wrapping around. -/
theorem Fills.length (fills : Fills nodeSize bufferSize capacity before left socket last contents
    later) : BitVec.ofNat 64 contents.length = BitVec.ofNat 64 before.length + left := by
  induction fills with
  | done => exact (BitVec.add_zero _).symm
  | @more capacity last count before contents left socket later some delivers comes rest ih =>
      have inside := @Socket.delivery_le_incoming socket
        (arrayRoom nodeSize bufferSize before.length left.toNat)
      rw [delivers] at inside
      rw [ih, List.length_append, List.length_take_of_le inside, BitVec.ofNat_add]
      bv_omega

/-- Nothing comes from a stream that has ended. -/
theorem not_fills (some : left ≠ 0) (ended : socket.incoming = []) :
    ¬ Fills nodeSize bufferSize capacity before left socket last contents later := by
  intro fills
  cases fills with
  | done => exact some rfl
  | more _ delivers comes =>
      have bounded := @Socket.delivery_le_incoming socket
        (arrayRoom nodeSize bufferSize before.length left.toNat)
      rw [ended, delivers] at bounded
      exact absurd comes (Nat.not_lt.mpr bounded)

/-- Receives none of which delivers more than is left fill an array with the bytes asked
for. -/
theorem Fills.of_takes {position left : Nat}
    (takes : socket.Takes (arrayRoom nodeSize bufferSize) position left later)
    (start : before.length = position) (small : left < 2 ^ 64) :
    ∃ last, Fills nodeSize bufferSize capacity before (BitVec.ofNat 64 left) socket last
      (before ++ socket.incoming.take left) later := by
  induction takes generalizing capacity before with
  | @done position socket =>
      refine ⟨capacity, ?_⟩
      rw [List.take_zero, List.append_nil]
      exact .done
  | @more position left socket later some comes within rest ih =>
      subst start
      have inside := @Socket.delivery_le_incoming socket
        (arrayRoom nodeSize bufferSize before.length left)
      have same : (BitVec.ofNat 64 left).toNat = left := Nat.mod_eq_of_lt small
      generalize delivers : socket.delivery (arrayRoom nodeSize bufferSize before.length left) =
        count at *
      have length : (before ++ socket.incoming.take count).length = before.length + count := by
        rw [List.length_append, List.length_take_of_le inside]
      obtain ⟨last, fills⟩ := @ih
        (roomFor nodeSize capacity before.length (min left bufferSize)) _ length (by omega)
      have fewer := left_sub within
      rw [BitVec.ofInt_natCast] at fewer
      refine ⟨last, .more (left_ne_zero some small) (by rwa [same]) comes ?_⟩
      rw [same, fewer]
      rw [List.append_assoc] at fills
      simp only [Socket.received] at fills ⊢
      rwa [← List.take_add, Nat.add_sub_cancel' within] at fills

end Stream

/-- One read into an array on an open stream that has not ended. -/
theorem SocketStream.read_fills {len : Nat} (cut : At endian nodeSize capacity before [] ba)
    (positive : 0 < nodeSize) (connected : socket.connected = true) (some : 0 < len)
    (more : socket.incoming ≠ []) :
    ∃ count filled, socket.delivery (reach nodeSize before.length len) = count ∧ 0 < count ∧
      SocketStream.read len (ba, socket) = .ok ↑count (filled, socket.received count) ∧
      At endian nodeSize (roomFor nodeSize capacity before.length len)
        (before ++ socket.incoming.take count) [] filled := by
  obtain ⟨iovs, grown, handed, sum, fill⟩ := cut.receive some
  have room : 0 < reach nodeSize before.length len := some.trans_le (le_reach positive _ _)
  have comes := Socket.delivery_pos room (List.length_pos_iff.mpr more)
  have bounded := @Socket.delivery_le socket (reach nodeSize before.length len)
  have inside := @Socket.delivery_le_incoming socket (reach nodeSize before.length len)
  simp only [SocketStream.read, connected, if_true, handed, Socket.recvV, Socket.recv, sum,
    scatter_position]
  generalize socket.delivery (reach nodeSize before.length len) = count at *
  have length : (socket.incoming.take count).length = count := List.length_take_of_le inside
  obtain ⟨filled, moved, cut⟩ := fill (socket.incoming.take count) (by omega) (by omega)
  rw [length] at moved
  rw [if_pos (by omega), Int.toNat_natCast, moved]
  exact ⟨count, filled, rfl, comes, rfl, cut⟩

/-- A read on a stream that has ended returns zero. -/
theorem SocketStream.read_ended {len : Nat} (cut : At endian nodeSize capacity before [] ba)
    (connected : socket.connected = true) (some : 0 < len) (ended : socket.incoming = []) :
    ∃ state, SocketStream.read len (ba, socket) = .ok 0 state := by
  obtain ⟨iovs, grown, handed, -, -⟩ := cut.receive some
  have none (room : Nat) : socket.delivery room = 0 := by
    have inside := @Socket.delivery_le_incoming socket room
    rw [ended] at inside
    exact Nat.le_zero.mp inside
  simp only [SocketStream.read, connected, if_true, handed, Socket.recvV, Socket.recv, none]
  exact ⟨_, rfl⟩

namespace Stream

theorem readLoop_fills {rounds : Nat} (positive : 0 < bufferSize) (positiveNode : 0 < nodeSize)
    (cut : At endian nodeSize capacity before [] ba) (connected : socket.connected = true)
    (enough : socket.incoming.length < rounds) :
    (∃ last contents later filled,
      Fills nodeSize bufferSize capacity before left socket last contents later ∧
      readLoop bufferSize len rounds left (ba, socket) = .ok ↑len (filled, later) ∧
      At endian nodeSize last contents [] filled) ∨
    ((∀ last contents later,
      ¬ Fills nodeSize bufferSize capacity before left socket last contents later) ∧
      ∃ ret state, readLoop bufferSize len rounds left (ba, socket) = .ok ret state ∧ ret ≤ 0) := by
  induction rounds generalizing capacity before left ba socket with
  | zero => cases enough
  | succ rounds ih =>
      rw [readLoop]
      by_cases none : left = 0
      · subst none
        exact .inl ⟨capacity, before, socket, ba, .done, rfl, cut⟩
      have some : 0 < min left.toNat bufferSize := by
        apply lt_min _ positive
        rw [Nat.pos_iff_ne_zero]
        exact fun zero => none (BitVec.eq_of_toNat_eq zero)
      rw [if_neg none]
      by_cases ended : socket.incoming = []
      · obtain ⟨state, read⟩ := SocketStream.read_ended cut connected some ended
        refine .inr ⟨fun _ _ _ => not_fills none ended, 0, state, ?_, Int.le_refl 0⟩
        rw [bind_ok read, if_pos (Int.le_refl 0)]
        rfl
      · obtain ⟨count, filled, delivers, comes, read, cut⟩ :=
          SocketStream.read_fills cut positiveNode connected some ended
        have shorter : (socket.received count).incoming.length < rounds := by
          have more := List.length_pos_iff.mpr ended
          rw [Socket.received, List.length_drop]
          omega
        rw [bind_ok read, if_neg (by omega), BitVec.ofInt_natCast]
        rcases @ih _ _ (left - BitVec.ofNat 64 count) _ (socket.received count) cut connected shorter
          with ⟨last, contents, later, full, fills, done, cut⟩ | ⟨never, ret, state, done, bound⟩
        · exact .inl ⟨last, contents, later, full, .more none delivers comes fills, done, cut⟩
        · refine .inr ⟨fun last contents later fills => ?_, ret, state, done, bound⟩
          cases fills with
          | done => exact none rfl
          | more _ again _ rest =>
              obtain rfl := delivers.symm.trans again
              exact never _ _ _ rest

/-- `ReadFixSize` into a new array, on any open stream. -/
theorem readFixSize_fills (positive : 0 < bufferSize) (positiveNode : 0 < nodeSize)
    (fresh : Nat → Byte) (connected : socket.connected = true) :
    (∃ last contents later filled,
      Fills nodeSize bufferSize nodeSize [] (BitVec.ofNat 64 len) socket last contents later ∧
      readFixSize bufferSize len (ByteArray.make nodeSize fresh, socket) =
        .ok ↑len (filled, later) ∧
      At .big nodeSize last contents [] filled) ∨
    ((∀ last contents later,
      ¬ Fills nodeSize bufferSize nodeSize [] (BitVec.ofNat 64 len) socket last contents later) ∧
      ∃ ret state, readFixSize bufferSize len (ByteArray.make nodeSize fresh, socket) =
        .ok ret state ∧ ret ≤ 0) := by
  have empty := ByteArray.make_filled positiveNode fresh
  have one : capacityFor nodeSize ([] : List Byte).length = nodeSize := by
    have none : (0 + nodeSize - 1) / nodeSize = 0 := Nat.div_eq_of_lt (by omega)
    rw [capacityFor, List.length_nil, none]
    simp
  rw [ByteArray.Filled, one] at empty
  exact readLoop_fills positive positiveNode empty connected (Nat.lt_succ_self _)

/-- Receives that keep to the bytes asked for make no more room than these take. -/
theorem Fills.of_takes_new (positive : 0 < bufferSize) (positiveNode : 0 < nodeSize)
    (takes : socket.Takes (arrayRoom nodeSize bufferSize) 0 len later)
    (connected : socket.connected = true) (small : len < 2 ^ 64) :
    Fills nodeSize bufferSize nodeSize [] (BitVec.ofNat 64 len) socket (capacityFor nodeSize len)
      (socket.incoming.take len) later := by
  obtain ⟨last, fills⟩ := @Fills.of_takes _ _ nodeSize [] _ _ _ _ takes rfl small
  obtain ⟨filled, read, full⟩ := readFixSize_eq positive positiveNode (fun _ => 0) takes connected
    small
  rcases @readFixSize_fills _ _ len _ positive positiveNode (fun _ => 0) connected with
    ⟨last', contents', later', filled', fills', read', cut⟩ | ⟨never, -⟩
  · obtain ⟨rfl, -⟩ := fills.unique fills'
    rw [read] at read'
    cases read'
    have length : (socket.incoming.take len).length = len :=
      List.length_take_of_le takes.incoming.1
    have same : last = capacityFor nodeSize len := by
      rw [← cut.capacity_eq, full.capacity_eq, length]
    rw [← same]
    exact fills
  · exact absurd fills (never _ _ _)

end Stream

end Filling

end Xten
