import Xten.Ikcp.Wire
import Xten.Std.Interleaving

/-!
# Two sessions and a network

Two control blocks of one number, and a network that loses, repeats and reorders: a datagram that
has ever been handed to `output` may arrive at the other side at any time, any number of times.
-/

namespace Xten.Ikcp

open Std.Interleaving
open Ikcpcb (Settings session fragments fragmentCount)

/-- The segments of a message. -/
def pieces (mss : Nat) (message : List Byte) : List Segment :=
  fragments mss 0 (fragmentCount mss message.length) message

/-- A control block, the messages that `ikcp_send` has taken, those that `ikcp_recv` has returned,
and every datagram so far. -/
structure Party where
  kcp : Ikcpcb
  accepted : List (List Byte)
  read : List (List Byte)
  posted : List (List Byte)
deriving DecidableEq, Repr

namespace Party

def send (party : Party) (buffer : List Byte) : Party :=
  let sent := party.kcp.send buffer
  { party with
    kcp := sent.2
    accepted := if sent.1 = 0 then party.accepted ++ [buffer] else party.accepted }

def recv (party : Party) (len : Nat) : Party :=
  let received := party.kcp.recv len
  { party with
    kcp := received.2.2
    read := if 0 ≤ received.1 then party.read ++ [received.2.1] else party.read }

def input (party : Party) (datagram : List Byte) : Party :=
  { party with kcp := (party.kcp.input datagram).2 }

/-- `ikcp_flush` or `ikcp_update`. -/
def post (party : Party) (flushed : Ikcpcb × List (List Byte)) : Party :=
  { party with kcp := flushed.1, posted := party.posted ++ flushed.2 }

/-- All segments of the messages that have been taken. -/
def wire (party : Party) : List Segment :=
  party.accepted.flatMap (pieces party.kcp.mss)

end Party

/-- The two sides. -/
abbrev Peers := Bool → Party

inductive Event where
  | send (side : Bool) (buffer : List Byte)
  | recv (side : Bool) (len : Nat)
  | update (side : Bool) (current : BitVec 32)
  | flush (side : Bool)
  /-- A datagram of the other side arrives. -/
  | arrive (side : Bool) (datagram : List Byte)
deriving DecidableEq, Repr

namespace Peers

/-- One event; none if a datagram arrives that has never been sent. -/
def step (peers : Peers) : Event → Option Peers
  | .send side buffer => some (Function.update peers side ((peers side).send buffer))
  | .recv side len => some (Function.update peers side ((peers side).recv len))
  | .update side current =>
      some (Function.update peers side ((peers side).post ((peers side).kcp.update current)))
  | .flush side => some (Function.update peers side ((peers side).post (peers side).kcp.flush))
  | .arrive side datagram =>
      if (peers !side).posted.contains datagram then
        some (Function.update peers side ((peers side).input datagram))
      else
        none

/-- Two sessions that have done nothing yet. -/
def fresh (conv : BitVec 32) (settings : Bool → Settings) : Peers :=
  fun side => ⟨session conv (settings side), [], [], []⟩

/-- Neither side has been given segments for half of the numbers. -/
def Few (peers : Peers) : Prop :=
  ∀ side, (peers side).wire.length < 2 ^ 31

end Peers

namespace Segment

/-- What `snd_queue` holds of a segment. -/
def frag (seg : Segment) : Segment :=
  fragment seg.frg seg.data

@[simp] theorem frg_fragment (frg : BitVec 32) (data : List Byte) : (fragment frg data).frg = frg :=
  rfl

@[simp] theorem data_fragment (frg : BitVec 32) (data : List Byte) :
    (fragment frg data).data = data :=
  rfl

theorem frag_of_load {first second : Segment} (same : first.load = second.load) :
    first.frag = second.frag := by
  have frg : first.frg = second.frg := congrArg (fun load => load.frg) same
  have data : first.data = second.data := congrArg (fun load => load.data) same
  rw [frag, frag, frg, data]

end Segment

section Pieces

variable {mss count : Nat} {data : List Byte} {queue rest : List Segment}

theorem length_fragments (mss : Nat) (stream : Int) (count : Nat) (data : List Byte) :
    (fragments mss stream count data).length = count := by
  induction count generalizing data with
  | zero => rfl
  | succ count ih => rw [fragments, List.length_cons, ih]

theorem length_pieces (mss : Nat) (message : List Byte) :
    (pieces mss message).length = fragmentCount mss message.length :=
  length_fragments _ _ _ _

theorem fragmentCount_pos (positive : 0 < mss) (len : Nat) : 0 < fragmentCount mss len := by
  rw [fragmentCount]
  split
  · exact Nat.one_pos
  · exact Nat.div_pos (by omega) positive

/-- The segments have room for all of the data. -/
theorem le_fragmentCount (positive : 0 < mss) (len : Nat) : len ≤ fragmentCount mss len * mss := by
  rw [fragmentCount]
  split
  · omega
  · have whole := Nat.div_add_mod (len + mss - 1) mss
    have rest := Nat.mod_lt (len + mss - 1) positive
    rw [Nat.mul_comm]
    omega

theorem frag_fragments (mss count : Nat) (stream : Int) (data : List Byte) :
    (fragments mss stream count data).map Segment.frag = fragments mss stream count data := by
  induction count generalizing data with
  | zero => rfl
  | succ count ih =>
      rw [fragments, List.map_cons, ih]
      rfl

theorem frag_pieces (mss : Nat) (message : List Byte) :
    (pieces mss message).map Segment.frag = pieces mss message :=
  frag_fragments _ _ _ _

/-- `ikcp_recv` looks at fragment numbers and data only. -/
theorem merge_frag (queue : List Segment) :
    (Ikcpcb.merge (queue.map Segment.frag)).1 = (Ikcpcb.merge queue).1 ∧
      (Ikcpcb.merge (queue.map Segment.frag)).2 = (Ikcpcb.merge queue).2.map Segment.frag := by
  induction queue with
  | nil => exact ⟨rfl, rfl⟩
  | cons seg queue ih =>
      obtain ⟨data, left⟩ := ih
      have frg : seg.frag.frg = seg.frg := rfl
      rw [List.map_cons, Ikcpcb.merge, Ikcpcb.merge, frg]
      by_cases last : seg.frg = 0
      · rw [if_pos last, if_pos last]
        exact ⟨rfl, rfl⟩
      · rw [if_neg last, if_neg last]
        exact ⟨by rw [data]; rfl, left⟩

theorem merge_fragments (few : count < 2 ^ 32) :
    Ikcpcb.merge (fragments mss 0 (count + 1) data ++ rest) =
      (data.take ((count + 1) * mss), rest) := by
  induction count generalizing data with
  | zero =>
      rw [fragments, List.cons_append, Ikcpcb.merge]
      exact if_pos rfl |>.trans (by rw [Nat.zero_add, Nat.one_mul]; rfl)
  | succ count ih =>
      have number : (BitVec.ofNat 32 (count + 1)) ≠ 0 := by
        intro zero
        have := congrArg BitVec.toNat zero
        rw [BitVec.toNat_ofNat, Nat.mod_eq_of_lt few] at this
        exact absurd this (Nat.succ_ne_zero count)
      rw [fragments, List.cons_append, Ikcpcb.merge, if_pos rfl, Segment.frg_fragment,
        if_neg number, ih (by omega)]
      have split : data.take ((count + 1 + 1) * mss) =
          data.take mss ++ (data.drop mss).take ((count + 1) * mss) := by
        rw [Nat.succ_mul (count + 1), Nat.add_comm, List.take_add]
      rw [split]
      rfl

/-- The first message is put together again. -/
theorem merge_pieces (positive : 0 < mss) {message : List Byte}
    (few : fragmentCount mss message.length < 2 ^ 32) :
    Ikcpcb.merge (pieces mss message ++ rest) = (message, rest) := by
  have some := fragmentCount_pos positive message.length
  have room := le_fragmentCount positive message.length
  obtain ⟨count, isCount⟩ := Nat.exists_eq_succ_of_ne_zero some.ne'
  rw [isCount] at few room
  rw [pieces, isCount, Nat.succ_eq_add_one, merge_fragments (by omega), List.take_of_length_le room]

end Pieces

end Xten.Ikcp
