import Xten.Ikcp.Ordering

/-!
# Messages arrive whole, once and in order

Every datagram ever sent tells the truth about its sender, and goes on to do so. So each event
keeps what the sides know of each other, and what has been read is what was sent first.
-/

namespace Xten.Ikcp

open Std.Interleaving Std.SerialNumbers
open Ikcpcb (Settings session fragmentCount)

namespace Ikcpcb

/-- A segment tells the truth about its sender. -/
structure Honest (wire : List Segment) (kcp : Ikcpcb) (seg : Segment) : Prop where
  una : seg.una.toNat ≤ kcp.rcvNxt.toNat
  push : seg.cmd = cmdPush →
    seg.sn.toNat < kcp.sndNxt.toNat ∧ wire[seg.sn.toNat]? = some seg.frag
  ack : seg.cmd = cmdAck → kcp.Has seg.sn.toNat

section Honest

variable {kcp after : Ikcpcb} {wire : List Segment} {seg : Segment}

theorem Honest.later (honest : kcp.Honest wire seg) (grows : kcp.Grows after)
    (more : List Segment) : after.Honest (wire ++ more) seg := by
  refine ⟨honest.una.trans grows.received, fun isPush => ?_, fun isAck =>
    grows.has _ (honest.ack isAck)⟩
  obtain ⟨before, stands⟩ := honest.push isPush
  refine ⟨before.trans_le grows.sent, ?_⟩
  rw [List.getElem?_append_left (List.getElem?_eq_some_iff.mp stands).1]
  exact stands

theorem Honest.received {conv : BitVec 32} (honest : kcp.Honest wire seg)
    (known : seg.Known conv) : kcp.Honest wire seg.received := by
  have frag : seg.received.frag = seg.frag := by
    rw [Segment.frag, Segment.frag, known.received_frg]
    rfl
  refine ⟨honest.una, ?_, ?_⟩
  all_goals rw [known.received_cmd]
  · rw [frag]
    exact honest.push
  · exact honest.ack

end Honest

section Flush

variable {kcp : Ikcpcb} {wire wire' begun : List Segment} {has : Nat → Prop} {sent : Nat}

theorem incoming_flush : kcp.flush.1.incoming = kcp.incoming := by
  obtain ⟨wait, ts, same⟩ := commanded_eq kcp
  obtain ⟨thresh, cwnd, incr, last⟩ := updateThresh_eq
    { kcp.moved with sndBuf := kcp.flushed.1, state := kcp.flushed.2.state }
    kcp.flushed.2 kcp.commanded.flushWindow
  have moved : kcp.moved.incoming = kcp.incoming := by
    rw [Ikcpcb.moved, same]
    rfl
  rw [flush]
  split
  · rfl
  · dsimp only
    rw [last]
    exact moved

theorem acklist_flush : kcp.flush.1.acklist ⊆ kcp.acklist := by
  obtain ⟨thresh, cwnd, incr, last⟩ := updateThresh_eq
    { kcp.moved with sndBuf := kcp.flushed.1, state := kcp.flushed.2.state }
    kcp.flushed.2 kcp.commanded.flushWindow
  rw [flush]
  split
  · exact List.Subset.refl _
  · dsimp only
    rw [last]
    exact List.nil_subset _

theorem Receives.flush (receives : kcp.Receives wire sent begun) :
    kcp.flush.1.Receives wire sent begun :=
  receives.congr incoming_flush fun ack isAck => receives.acks ack (acklist_flush isAck)

theorem Sends.moved (sends : kcp.Sends wire has) (sound : kcp.Sound) (few : wire.length < 2 ^ 31)
    (plain : wire.map Segment.frag = wire) : kcp.moved.Sends wire has ∧ kcp.Grows kcp.moved := by
  obtain ⟨wait, ts, same⟩ := commanded_eq kcp
  have first : kcp.commanded.Sends wire has := by
    rw [same]
    exact { sends with }
  have grows : kcp.Grows kcp.commanded := by
    rw [same]
    exact .congr rfl rfl
  obtain ⟨moved, more⟩ := first.moveQueue sound.commanded few plain
  exact ⟨moved, grows.trans more⟩

theorem Sends.flush (sends : kcp.Sends wire has) (sound : kcp.Sound) (few : wire.length < 2 ^ 31)
    (plain : wire.map Segment.frag = wire) :
    kcp.flush.1.Sends wire has ∧ kcp.Grows kcp.flush.1 := by
  obtain ⟨thresh, cwnd, incr, last⟩ := updateThresh_eq
    { kcp.moved with sndBuf := kcp.flushed.1, state := kcp.flushed.2.state }
    kcp.flushed.2 kcp.commanded.flushWindow
  obtain ⟨moved, grows⟩ := sends.moved sound few plain
  rw [Ikcpcb.flush]
  split
  · exact ⟨sends, .refl kcp⟩
  · dsimp only
    rw [last]
    have flushed := moved.relabel (flushed_load kcp)
    exact ⟨{ flushed with }, grows.trans (.congr rfl rfl)⟩

/-- What is flushed is true. -/
theorem honest_flushSegs (sends : kcp.Sends wire has) (receives : kcp.Receives wire' sent begun)
    (sound : kcp.Sound) (few : wire.length < 2 ^ 31) (plain : wire.map Segment.frag = wire)
    (updated : kcp.updated = true) {seg : Segment} (isSeg : seg ∈ kcp.flushSegs) :
    kcp.flush.1.Honest wire seg := by
  have held : kcp.flush.1.rcvNxt = kcp.rcvNxt := congrArg Prod.fst incoming_flush
  have next : kcp.flush.1.sndNxt = kcp.moved.sndNxt := by
    obtain ⟨thresh, cwnd, incr, last⟩ := updateThresh_eq
      { kcp.moved with sndBuf := kcp.flushed.1, state := kcp.flushed.2.state }
      kcp.flushed.2 kcp.commanded.flushWindow
    rw [flush, if_neg (by rw [updated]; decide)]
    dsimp only
    rw [last]
  have grows := (sends.flush sound few plain).2
  have moved := (sends.moved sound few plain).1
  rcases List.mem_append.mp isSeg with isCommand | isDue
  · obtain ⟨sn, ts, cmd, rfl, isCmd⟩ := mem_commandSegs isCommand
    refine ⟨?_, ?_, ?_⟩
    · change kcp.rcvNxt.toNat ≤ _
      rw [held]
    · intro isPush
      rcases isCmd with ⟨isAck, -⟩ | isAsk | isTell
      · exact absurd (isPush.symm.trans isAck) (by decide)
      · exact absurd (isPush.symm.trans isAsk) (by decide)
      · exact absurd (isPush.symm.trans isTell) (by decide)
    · intro isAck
      rcases isCmd with ⟨-, isListed⟩ | isAsk | isTell
      · exact grows.has _ (receives.acks _ isListed)
      · exact absurd (isAck.symm.trans isAsk) (by decide)
      · exact absurd (isAck.symm.trans isTell) (by decide)
  · obtain ⟨other, isOther, alike, una, -⟩ := mem_due isDue
    have same : kcp.moved.rcvNxt = kcp.rcvNxt := by
      obtain ⟨wait, ts, same⟩ := commanded_eq kcp
      rw [Ikcpcb.moved, same]
      rfl
    have cmd : seg.cmd = other.cmd := congrArg (fun load => load.cmd) alike
    have number : seg.sn = other.sn := congrArg (fun load => load.sn) alike
    refine ⟨?_, ?_, ?_⟩
    · rw [una, same, held]
    · intro _
      rw [number, Segment.frag_of_load alike, next]
      exact moved.buf other isOther
    · intro isAck
      have isPush := ((Sound.moveQueue sound.commanded).pushes other isOther).2.1
      rw [cmd, isPush] at isAck
      exact absurd isAck (by decide)

end Flush

section Reading

variable {kcp : Ikcpcb} {wire begun begun' rest : List Segment} {sent mss place : Nat}
  {message : List Byte}

theorem outgoing_recv (len : Int) : (kcp.recv len).2.2.outgoing = kcp.outgoing := by
  rcases kcp.recv_cases len with ⟨-, same⟩ | ⟨-, -, -, same⟩
  · rw [same]
  · obtain ⟨probe, recovered⟩ := fastRecover_eq (kcp.taken len).moveReady
      (kcp.rcvQueue.length ≥ kcp.rcvWnd.toNat)
    rw [same, recovered, taken]
    split <;> rfl

theorem Receives.recv (receives : kcp.Receives wire sent begun) (sound : kcp.Sound)
    (few : sent < 2 ^ 31) {len : Nat} (received : 0 ≤ (kcp.recv len).1)
    (split : begun' ++ (merge kcp.rcvQueue).2.map Segment.frag =
      begun ++ kcp.rcvQueue.map Segment.frag) :
    (kcp.recv len).2.2.Receives wire sent begun' ∧ kcp.Grows (kcp.recv len).2.2 := by
  rcases kcp.recv_cases len with ⟨failed, -⟩ | ⟨-, -, -, same⟩
  · omega
  · have out : kcp.taken len = { kcp with rcvQueue := (merge kcp.rcvQueue).2 } :=
      if_neg (by omega)
    obtain ⟨probe, recovered⟩ := fastRecover_eq (kcp.taken len).moveReady
      (kcp.rcvQueue.length ≥ kcp.rcvWnd.toNat)
    have left : (kcp.taken len).Receives wire sent begun' := by
      rw [out]
      exact { receives with queue := split.trans receives.queue }
    have room : (kcp.taken len).rcvQueue.length ≤ (kcp.taken len).rcvWnd.toNat := by
      rw [out]
      exact (merge_length _).trans sound.queued
    have window : Ahead (kcp.taken len).rcvNxt (kcp.taken len).rcvWnd.toNat
        (sns (kcp.taken len).rcvBuf) := by
      rw [out]
      exact sound.ahead
    obtain ⟨moved, grows⟩ := left.moveReady few window room
    have first : kcp.Grows (kcp.taken len) := by
      rw [out]
      exact ⟨le_rfl, le_rfl, fun _ => id⟩
    rw [same]
    dsimp only
    rw [recovered]
    exact ⟨moved.congr rfl moved.acks, (first.trans grows).trans (.congr rfl rfl)⟩

/-- A message that has been announced is there as a whole. -/
theorem first_message (positive : 0 < mss) (few : fragmentCount mss message.length < 2 ^ 31)
    (queue : kcp.rcvQueue.map Segment.frag = (pieces mss message ++ rest).take place)
    (complete : 0 ≤ kcp.peeksize) :
    (merge kcp.rcvQueue).1 = message ∧
      pieces mss message ++ (merge kcp.rcvQueue).2.map Segment.frag =
        kcp.rcvQueue.map Segment.frag := by
  have some := fragmentCount_pos positive message.length
  obtain ⟨count, isCount⟩ := Nat.exists_eq_succ_of_ne_zero some.ne'
  have enough : (pieces mss message).length ≤ kcp.rcvQueue.length := by
    rw [length_pieces, isCount]
    rw [peeksize] at complete
    cases isQueue : kcp.rcvQueue with
    | nil =>
        rw [isQueue] at complete
        exact absurd complete (by decide)
    | cons seg left =>
        rw [isQueue] at complete queue
        rw [pieces, isCount, fragments] at queue
        have frg : seg.frg = BitVec.ofNat 32 count := by
          cases place with
          | zero => cases queue
          | succ place => exact congrArg Segment.frg (List.cons.inj queue).1
        have number : seg.frg.toNat = count := by
          rw [frg, BitVec.toNat_ofNat, Nat.mod_eq_of_lt (by omega)]
        have next : (seg.frg + 1).toNat = count + 1 := by
          have counted : (seg.frg + BitVec.ofNat 32 1).toNat = seg.frg.toNat + 1 :=
            toNat_add_ofNat (by omega)
          rw [← number]
          exact counted
        dsimp only at complete
        by_cases last : seg.frg = 0
        · rw [last] at number
          change 0 = count at number
          rw [List.length_cons]
          omega
        · rw [if_neg last, next] at complete
          by_cases short : (seg :: left).length < count + 1
          · rw [if_pos short] at complete
            exact absurd complete (by decide)
          · exact not_lt.mp short
  have cut : (pieces mss message).length ≤ place := by
    have total := congrArg List.length queue
    rw [List.length_map, List.length_take] at total
    omega
  have whole : kcp.rcvQueue.map Segment.frag =
      pieces mss message ++ rest.take (place - (pieces mss message).length) := by
    rw [queue, List.take_append, List.take_of_length_le cut]
  obtain ⟨data, left⟩ := merge_frag kcp.rcvQueue
  rw [whole, merge_pieces positive (by omega)] at data left
  exact ⟨data.symm, by rw [← left, whole]⟩

end Reading

end Ikcpcb

theorem Party.plain_wire (party : Party) : party.wire.map Segment.frag = party.wire := by
  rw [wire, List.map_flatMap]
  exact congrArg (party.accepted.flatMap ·) (funext (frag_pieces party.kcp.mss))

/-- A control block of a session. -/
structure Party.Steady (conv : BitVec 32) (party : Party) : Prop where
  sound : party.kcp.Sound
  conv : party.kcp.conv = conv
  stream : party.kcp.stream = 0

/-- What holds of the messages that one side sends to the other. -/
structure Direction (sender receiver : Party) : Prop where
  short : ∀ message ∈ sender.accepted,
    fragmentCount sender.kcp.mss message.length < wndRcv.toNat
  order : receiver.read = sender.accepted.take receiver.read.length
  sends : sender.kcp.Sends sender.wire receiver.kcp.Has
  receives : receiver.kcp.Receives sender.wire sender.kcp.sndNxt.toNat
    (receiver.read.flatMap (pieces sender.kcp.mss))
  posted : ∀ datagram ∈ sender.posted, ∃ segs, segs ≠ [] ∧ datagram = encode segs ∧
    ∀ seg ∈ segs, seg.Known sender.kcp.conv ∧ sender.kcp.Honest sender.wire seg

namespace Direction

variable {sender receiver : Party} {kcp : Ikcpcb}

theorem read_le (dir : Direction sender receiver) :
    receiver.read.length ≤ sender.accepted.length := by
  have length := congrArg List.length dir.order
  rw [List.length_take] at length
  omega

/-- The sender goes on: it may take messages, and say what is true. -/
theorem sending (dir : Direction sender receiver) (messages read datagrams : List (List Byte))
    (sends : kcp.Sends (sender.wire ++ messages.flatMap (pieces sender.kcp.mss)) receiver.kcp.Has)
    (fixed : kcp.fixed = sender.kcp.fixed) (grows : sender.kcp.Grows kcp)
    (short : ∀ message ∈ messages, fragmentCount sender.kcp.mss message.length < wndRcv.toNat)
    (told : ∀ datagram ∈ datagrams, ∃ segs, segs ≠ [] ∧ datagram = encode segs ∧
      ∀ seg ∈ segs, seg.Known sender.kcp.conv ∧
        kcp.Honest (sender.wire ++ messages.flatMap (pieces sender.kcp.mss)) seg) :
    Direction ⟨kcp, sender.accepted ++ messages, read, sender.posted ++ datagrams⟩ receiver := by
  have mss : kcp.mss = sender.kcp.mss := congrArg (fun fixed => fixed.2.2.1) fixed
  have conv : kcp.conv = sender.kcp.conv := congrArg Prod.fst fixed
  have wire : Party.wire ⟨kcp, sender.accepted ++ messages, read, sender.posted ++ datagrams⟩ =
      sender.wire ++ messages.flatMap (pieces sender.kcp.mss) := by
    rw [Party.wire, Party.wire, List.flatMap_append, mss]
  have held := dir.sends.count
  constructor
  · intro message isMessage
    change fragmentCount kcp.mss _ < _
    rw [mss]
    rcases List.mem_append.mp isMessage with isOld | isNew
    · exact dir.short message isOld
    · exact short message isNew
  · change receiver.read = (sender.accepted ++ messages).take receiver.read.length
    rw [List.take_append_of_le_length dir.read_le]
    exact dir.order
  · rw [wire]
    exact sends
  · rw [wire]
    change receiver.kcp.Receives _ kcp.sndNxt.toNat (receiver.read.flatMap (pieces kcp.mss))
    have receives := dir.receives
    have nxt := receives.nxt
    rw [mss]
    refine { receives with nxt := nxt.trans grows.sent, buf := ?_, queue := ?_ }
    · intro seg isSeg
      obtain ⟨before, stands⟩ := receives.buf seg isSeg
      refine ⟨before.trans_le grows.sent, ?_⟩
      rw [List.getElem?_append_left (by omega)]
      exact stands
    · rw [List.take_append_of_le_length (by omega)]
      exact receives.queue
  · rw [wire]
    intro datagram isPosted
    rcases List.mem_append.mp isPosted with isOld | isNew
    · obtain ⟨segs, some, bytes, honest⟩ := dir.posted datagram isOld
      refine ⟨segs, some, bytes, fun seg isSeg => ?_⟩
      change seg.Known kcp.conv ∧ _
      rw [conv]
      exact ⟨(honest seg isSeg).1, (honest seg isSeg).2.later grows _⟩
    · change ∃ segs : List Segment, segs ≠ [] ∧ datagram = encode segs ∧
        ∀ seg ∈ segs, seg.Known kcp.conv ∧ _
      rw [conv]
      exact told datagram isNew

/-- The receiver goes on: it may receive, and return the next messages. -/
theorem receiving (dir : Direction sender receiver) (messages datagrams : List (List Byte))
    {read : List (List Byte)} (grows : receiver.kcp.Grows kcp) (order : read = sender.accepted.take read.length)
    (receives : kcp.Receives sender.wire sender.kcp.sndNxt.toNat
      (read.flatMap (pieces sender.kcp.mss))) :
    Direction sender ⟨kcp, messages, read, datagrams⟩ :=
  { dir with
    order := order
    sends := dir.sends.weaken grows.has
    receives := receives }

end Direction

end Xten.Ikcp
