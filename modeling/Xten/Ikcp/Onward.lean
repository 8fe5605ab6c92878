import Xten.Ikcp.Exchange
import Xten.Ikcp.Progress

/-!
# Going on without new messages

What is sure to have happened at the end of a datagram of the other side, whatever else it holds,
and what updates, arrivals and reads never take back. A receiver that reads on makes room for the
segment that it waits for.
-/

namespace Xten.Ikcp

open Std.Interleaving Std.SerialNumbers
open Ikcpcb (Settings session fragmentCount)

/-- Segments that one side has sent, and that are about to arrive at the other. -/
structure Handover (sender receiver : Party) (group : List Segment) : Prop where
  forth : Direction sender receiver
  back : Direction receiver sender
  sound : receiver.kcp.Sound
  few : sender.wire.length < 2 ^ 31
  fewBack : receiver.wire.length < 2 ^ 31
  honest : ∀ seg ∈ group, seg.Known receiver.kcp.conv ∧ sender.kcp.Honest sender.wire seg

namespace Handover

open Ikcpcb

variable {sender receiver : Party} {group segs : List Segment} {kcp : Ikcpcb}

theorem start (hands : Handover sender receiver group) : Intake sender receiver receiver.kcp :=
  ⟨hands.sound, rfl, .refl _, hands.back.sends, hands.forth.receives⟩

theorem segment (hands : Handover sender receiver group) (intake : Intake sender receiver kcp)
    (maxack : Option (BitVec 32)) {seg : Segment} (isSeg : seg ∈ group) :
    Intake sender receiver (kcp.inputSegment maxack seg.received).1 ∧
      kcp.Grows (kcp.inputSegment maxack seg.received).1 := by
  obtain ⟨known, true⟩ := hands.honest seg isSeg
  exact intake.segment hands.few hands.fewBack hands.forth hands.back known true

theorem sent (hands : Handover sender receiver group) : sender.kcp.sndNxt.toNat < 2 ^ 31 :=
  hands.forth.sends.count.trans_lt hands.few

/-- The segment that the receiver waits for gets there. -/
theorem has_segments (hands : Handover sender receiver group) (intake : Intake sender receiver kcp)
    (sub : segs ⊆ group) (maxack : Option (BitVec 32)) {n : Nat}
    (here : kcp.Has n ∨
      ∃ seg ∈ segs, seg.cmd = cmdPush ∧ seg.sn = receiver.kcp.rcvNxt ∧ seg.sn.toNat = n) :
    (inputSegments (kcp, maxack) segs).1.Has n := by
  induction segs generalizing kcp maxack with
  | nil =>
      rcases here with has | ⟨seg, isSeg, -⟩
      · exact has
      · cases isSeg
  | cons seg segs ih =>
      have isSeg : seg ∈ group := sub List.mem_cons_self
      obtain ⟨next, grows⟩ := hands.segment intake maxack isSeg
      refine ih next (fun other isOther => sub (List.mem_cons_of_mem _ isOther)) _ ?_
      rcases here with has | ⟨other, isOther, isPush, isNext, rfl⟩
      · exact .inl (grows.has n has)
      · rcases List.mem_cons.mp isOther with rfl | isOther
        · left
          obtain ⟨known, true⟩ := hands.honest other isSeg
          have pushed : other.received.cmd = cmdPush := known.received_cmd.trans isPush
          have received := intake.grows.received
          by_cases now : kcp.rcvNxt = other.sn
          · have small : other.received.wnd.toNat < 2 ^ 16 := by
              change ((other.wnd.setWidth 16).setWidth 32).toNat < _
              rw [BitVec.toNat_setWidth, BitVec.toNat_setWidth]
              omega
            exact has_push intake.receives intake.sound hands.sent small pushed
              ((true.received known).push pushed) now
          · have apart : kcp.rcvNxt.toNat ≠ other.sn.toNat := fun same =>
              now (BitVec.eq_of_toNat_eq same)
            rw [← isNext] at received
            exact grows.has _ (.inl (by omega))
        · exact .inr ⟨other, isOther, isPush, isNext, rfl⟩

/-- A question, or a segment that has been received before, makes the receiver answer. -/
theorem answers_segments (hands : Handover sender receiver group)
    (intake : Intake sender receiver kcp) (sub : segs ⊆ group) (maxack : Option (BitVec 32))
    (small : receiver.kcp.rcvWnd.toNat < 2 ^ 16)
    (here : kcp.Answers ∨ ∃ seg ∈ segs, seg.cmd = cmdWask ∨
      seg.cmd = cmdPush ∧ seg.sn.toNat ≤ receiver.kcp.rcvNxt.toNat ∧
        sender.kcp.sndNxt.toNat ≤ seg.sn.toNat + 2 ^ 16) :
    (inputSegments (kcp, maxack) segs).1.Answers := by
  induction segs generalizing kcp maxack with
  | nil =>
      rcases here with answers | ⟨seg, isSeg, -⟩
      · exact answers
      · cases isSeg
  | cons seg segs ih =>
      have isSeg : seg ∈ group := sub List.mem_cons_self
      obtain ⟨next, -⟩ := hands.segment intake maxack isSeg
      refine ih next (fun other isOther => sub (List.mem_cons_of_mem _ isOther)) _ ?_
      rcases here with answers | ⟨other, isOther, asks⟩
      · exact .inl answers.inputSegment
      · rcases List.mem_cons.mp isOther with rfl | isOther
        · left
          have cmd := (hands.honest other isSeg).1.received_cmd
          rcases asks with isAsk | ⟨isPush, old, near⟩
          · exact .inr (tells_wask (cmd.trans isAsk))
          · have received := intake.grows.received
            have nxt := intake.receives.nxt
            have window := intake.sound.window.1
            have wnd : kcp.rcvWnd = receiver.kcp.rcvWnd :=
              congrArg (fun fixed => fixed.2.2.2.2.1) intake.fixed
            have least : wndRcv.toNat = 128 := rfl
            refine .inl (acks_push (cmd.trans isPush) (old.trans received) ?_ (by omega))
            change kcp.rcvNxt.toNat - other.sn.toNat + _ < _
            rw [wnd]
            omega
        · exact .inr ⟨other, isOther, asks⟩

/-- Segments that acknowledge everything leave nothing to be acknowledged. -/
theorem empties_segments (hands : Handover sender receiver group)
    (intake : Intake sender receiver kcp) (sub : segs ⊆ group) (maxack : Option (BitVec 32))
    {wnd : BitVec 32} (small : wnd.toNat < 2 ^ 16)
    (all : ∀ seg ∈ segs, seg.una = receiver.kcp.sndNxt ∧ seg.wnd = wnd)
    (nxt : kcp.sndNxt = receiver.kcp.sndNxt)
    (here : segs ≠ [] ∨ kcp.sndBuf = [] ∧ kcp.rmtWnd = wnd) :
    (inputSegments (kcp, maxack) segs).1.sndBuf = [] ∧
      (inputSegments (kcp, maxack) segs).1.rmtWnd = wnd ∧
      (inputSegments (kcp, maxack) segs).1.sndNxt = receiver.kcp.sndNxt := by
  induction segs generalizing kcp maxack with
  | nil =>
      rcases here with some | ⟨none, window⟩
      · exact absurd rfl some
      · exact ⟨none, window, nxt⟩
  | cons seg segs ih =>
      have isSeg : seg ∈ group := sub List.mem_cons_self
      obtain ⟨next, -⟩ := hands.segment intake maxack isSeg
      obtain ⟨una, window⟩ := all seg List.mem_cons_self
      have full : (kcp.acknowledged seg.received).sndBuf = [] :=
        acknowledges_all intake.sound (una.trans nxt.symm)
      obtain ⟨none, told⟩ := sndBuf_inputSegment maxack full
      have whole : seg.received.wnd = wnd := by
        change (seg.wnd.setWidth 16).setWidth 32 = wnd
        rw [window]
        apply BitVec.eq_of_toNat_eq
        rw [BitVec.toNat_setWidth, BitVec.toNat_setWidth]
        omega
      exact ih next (fun other isOther => sub (List.mem_cons_of_mem _ isOther)) _
        (fun other isOther => all other (List.mem_cons_of_mem _ isOther))
        ((unsent_inputSegment _ _ _).1.trans nxt) (.inr ⟨none, told.trans whole⟩)

/-- What the whole datagram comes to. -/
theorem input_eq (hands : Handover sender receiver group) (some : group ≠ []) :
    ∃ buf cwnd incr, (receiver.input (encode group)).kcp =
        { (inputSegments (receiver.kcp, none) group).1 with sndBuf := buf, cwnd, incr } ∧
      buf.map Segment.load =
        (inputSegments (receiver.kcp, none) group).1.sndBuf.map Segment.load := by
  rw [Party.input, input_encode some fun seg isSeg => (hands.honest seg isSeg).1]
  exact inputEnd_eq _ _ _

theorem has (hands : Handover sender receiver group) {seg : Segment} (isSeg : seg ∈ group)
    (isPush : seg.cmd = cmdPush) (isNext : seg.sn = receiver.kcp.rcvNxt) :
    (receiver.input (encode group)).kcp.Has seg.sn.toNat := by
  obtain ⟨buf, cwnd, incr, same, -⟩ := hands.input_eq (List.ne_nil_of_mem isSeg)
  have has := hands.has_segments hands.start (List.Subset.refl _) none
    (.inr ⟨seg, isSeg, isPush, isNext, rfl⟩)
  rw [same]
  exact has

theorem answers (hands : Handover sender receiver group) {seg : Segment} (isSeg : seg ∈ group)
    (small : receiver.kcp.rcvWnd.toNat < 2 ^ 16)
    (asks : seg.cmd = cmdWask ∨ seg.cmd = cmdPush ∧
      seg.sn.toNat ≤ receiver.kcp.rcvNxt.toNat ∧
        sender.kcp.sndNxt.toNat ≤ seg.sn.toNat + 2 ^ 16) :
    (receiver.input (encode group)).kcp.Answers := by
  obtain ⟨buf, cwnd, incr, same, -⟩ := hands.input_eq (List.ne_nil_of_mem isSeg)
  have answers := hands.answers_segments hands.start (List.Subset.refl _) none small
    (.inr ⟨seg, isSeg, asks⟩)
  rw [same]
  exact answers

theorem empties (hands : Handover sender receiver group) (some : group ≠ []) {wnd : BitVec 32}
    (small : wnd.toNat < 2 ^ 16)
    (all : ∀ seg ∈ group, seg.una = receiver.kcp.sndNxt ∧ seg.wnd = wnd) :
    (receiver.input (encode group)).kcp.sndBuf = [] ∧
      (receiver.input (encode group)).kcp.rmtWnd = wnd ∧
      (receiver.input (encode group)).kcp.sndNxt = receiver.kcp.sndNxt := by
  obtain ⟨buf, cwnd, incr, same, loads⟩ := hands.input_eq some
  obtain ⟨none, window, nxt⟩ := hands.empties_segments hands.start (List.Subset.refl _) none
    small all rfl (.inl some)
  rw [none, List.map_nil] at loads
  rw [same]
  exact ⟨List.map_eq_nil_iff.mp loads, window, nxt⟩

end Handover

namespace Ikcpcb

section Idle

variable {kcp : Ikcpcb}

/-- Nothing waits to be sent or to be acknowledged. -/
theorem waitsnd_eq_zero : kcp.waitsnd = 0 ↔ kcp.sndBuf = [] ∧ kcp.sndQueue = [] := by
  rw [waitsnd, Nat.add_eq_zero_iff, List.length_eq_zero_iff, List.length_eq_zero_iff]

theorem waitsnd_recv (len : Int) : (kcp.recv len).2.2.waitsnd = kcp.waitsnd := by
  have same : (kcp.recv len).2.2.outgoing = kcp.outgoing := outgoing_recv len
  have queue : (kcp.recv len).2.2.sndQueue = kcp.sndQueue := congrArg (fun out => out.2.1) same
  have buf : (kcp.recv len).2.2.sndBuf = kcp.sndBuf := congrArg (fun out => out.2.2) same
  rw [waitsnd, waitsnd, queue, buf]

theorem idle_moved (idle : kcp.waitsnd = 0) : kcp.moved.sndBuf = [] ∧ kcp.moved.sndQueue = [] := by
  obtain ⟨buf, queue⟩ := waitsnd_eq_zero.mp idle
  obtain ⟨wait, ts, same⟩ := commanded_eq kcp
  rw [Ikcpcb.moved, same, moveQueue]
  dsimp only
  rw [queue, buf]
  exact ⟨rfl, rfl⟩

theorem idle_flush (idle : kcp.waitsnd = 0) : kcp.flush.1.waitsnd = 0 := by
  obtain ⟨buf, queue⟩ := idle_moved idle
  by_cases updated : kcp.updated = true
  · obtain ⟨-, -, -, -, left, sent, -⟩ := flush_numbers updated
    have loads := flushed_load kcp
    rw [buf, List.map_nil] at loads
    exact waitsnd_eq_zero.mpr ⟨sent.trans (List.map_eq_nil_iff.mp loads), left.trans queue⟩
  · rw [flush, if_pos (by simpa using updated)]
    exact idle

theorem idle_update (idle : kcp.waitsnd = 0) (current : BitVec 32) :
    (kcp.update current).1.waitsnd = 0 := by
  obtain ⟨tsFlush, flushes | waits⟩ := kcp.update_eq current
  · rw [flushes]
    exact idle_flush idle
  · rw [waits]
    exact idle

theorem idle_inputSegment (idle : kcp.waitsnd = 0) (maxack : Option (BitVec 32)) (seg : Segment) :
    (kcp.inputSegment maxack seg).1.waitsnd = 0 := by
  obtain ⟨buf, queue⟩ := waitsnd_eq_zero.mp idle
  have first : (kcp.acknowledged seg).sndBuf = [] := by
    rw [acknowledged, shrinkBuf_eq]
    change kcp.sndBuf.dropWhile _ = []
    rw [buf, List.dropWhile_nil]
  exact waitsnd_eq_zero.mpr
    ⟨(sndBuf_inputSegment maxack first).1, (unsent_inputSegment kcp maxack seg).2.trans queue⟩

theorem idle_inputSegments (idle : kcp.waitsnd = 0) (maxack : Option (BitVec 32))
    (segs : List Segment) : (inputSegments (kcp, maxack) segs).1.waitsnd = 0 := by
  induction segs generalizing kcp maxack with
  | nil => exact idle
  | cons seg segs ih => exact ih (idle_inputSegment idle maxack seg.received) _

theorem idle_input (idle : kcp.waitsnd = 0) {segs : List Segment} (some : segs ≠ [])
    (known : ∀ seg ∈ segs, seg.Known kcp.conv) : (kcp.input (encode segs)).2.waitsnd = 0 := by
  obtain ⟨buf, queue⟩ := waitsnd_eq_zero.mp (idle_inputSegments idle none segs)
  rw [input_encode some known]
  obtain ⟨buf', cwnd, incr, same, loads⟩ := inputEnd_eq (inputSegments (kcp, none) segs).1
    kcp.sndUna (inputSegments (kcp, none) segs).2
  rw [buf, List.map_nil] at loads
  dsimp only
  rw [same]
  exact waitsnd_eq_zero.mpr ⟨List.map_eq_nil_iff.mp loads, queue⟩

end Idle

end Ikcpcb

theorem Ikcpcb.Answers.recv {kcp : Ikcpcb} (answers : kcp.Answers) (len : Int) :
    (kcp.recv len).2.2.Answers := by
  rcases kcp.recv_cases len with ⟨-, same⟩ | ⟨-, -, -, same⟩
  · rw [same]
    exact answers
  · have ready : (kcp.taken len).moveReady.Answers := by
      rw [Ikcpcb.taken]
      split <;> exact answers
    rw [same, Ikcpcb.fastRecover]
    split
    · exact ready.imp_right fun tells => Ikcpcb.tell_or tells askTell
    · exact ready

namespace Direction

variable {sender receiver : Party} {k : Nat}

/-- What has arrived has been sent. -/
theorem sent_le (dir : Direction sender receiver) (before : ∀ n < k, receiver.kcp.Has n) :
    k ≤ sender.kcp.sndNxt.toNat := by
  have nxt := dir.receives.nxt
  by_contra behind
  rcases before _ (not_le.mp behind) with early | ⟨seg, isSeg, number⟩
  · omega
  · have := (dir.receives.buf seg isSeg).1
    omega

/-- A receiver that has nothing to read has room. -/
theorem drained (dir : Direction sender receiver) (positive : 0 < sender.kcp.mss)
    (incomplete : receiver.kcp.peeksize < 0) :
    receiver.kcp.rcvQueue.length < wndRcv.toNat := by
  have least : wndRcv.toNat = 128 := rfl
  by_contra full
  have total := congrArg List.length dir.receives.queue
  rw [List.length_append, List.length_map, List.length_take] at total
  have unread : receiver.read.length < sender.accepted.length := by
    by_contra all
    have order := dir.order
    rw [List.take_of_length_le (by omega)] at order
    have wire : sender.wire = receiver.read.flatMap (pieces sender.kcp.mss) := by
      rw [Party.wire, ← order]
    rw [wire] at total
    omega
  obtain ⟨message, later, split, wire⟩ := dir.next_message unread
  have isMessage : message ∈ sender.accepted := by
    rw [split]
    simp
  have short : fragmentCount sender.kcp.mss message.length < 128 := dir.short message isMessage
  obtain ⟨-, peek⟩ := dir.announced positive split wire (by omega)
  omega

/-- So it does not have the segment that it waits for. -/
theorem awaits (dir : Direction sender receiver) (sound : receiver.kcp.Sound)
    (positive : 0 < sender.kcp.mss) (incomplete : receiver.kcp.peeksize < 0) :
    ¬ receiver.kcp.Has receiver.kcp.rcvNxt.toNat := by
  have room := dir.drained positive incomplete
  have window := sound.window.1
  rintro (before | ⟨seg, isSeg, number⟩)
  · exact lt_irrefl _ before
  · have isNext : seg.sn = receiver.kcp.rcvNxt := BitVec.eq_of_toNat_eq number
    have := sound.stalled (isNext ▸ List.mem_map_of_mem isSeg)
    omega

theorem frontier (dir : Direction sender receiver) (sound : receiver.kcp.Sound)
    (positive : 0 < sender.kcp.mss) (incomplete : receiver.kcp.peeksize < 0)
    (before : ∀ n < k, receiver.kcp.Has n) : k ≤ receiver.kcp.rcvNxt.toNat := by
  by_contra behind
  exact dir.awaits sound positive incomplete (before _ (not_le.mp behind))

end Direction

/-- What is left of one side when no message is sent: it takes nothing back. -/
structure Party.Onward (before after : Party) : Prop where
  accepted : after.accepted = before.accepted
  fixed : after.kcp.fixed = before.kcp.fixed
  grows : before.kcp.Grows after.kcp
  read : before.read <+: after.read
  idle : before.kcp.waitsnd = 0 → after.kcp.waitsnd = 0

theorem Party.Onward.refl (party : Party) : party.Onward party :=
  ⟨rfl, rfl, .refl _, List.prefix_refl _, id⟩

theorem Party.Onward.trans {first second third : Party} (one : first.Onward second)
    (two : second.Onward third) : first.Onward third where
  accepted := two.accepted.trans one.accepted
  fixed := two.fixed.trans one.fixed
  grows := one.grows.trans two.grows
  read := one.read.trans two.read
  idle := fun idle => two.idle (one.idle idle)

namespace Peers

variable {conv : BitVec 32} {peers middle after : Peers} {event : Event} {side one other : Bool}

/-- No message is sent. -/
def Quiet (_ : Peers) (event : Event) : Prop :=
  ∀ side buffer, event ≠ .send side buffer

/-- Quiet events lead from one state to the other. -/
structure Onward (before after : Peers) : Prop where
  run : Runs step Quiet before after
  sides : ∀ side, (before side).Onward (after side)

theorem Onward.refl (peers : Peers) : peers.Onward peers :=
  ⟨.refl peers, fun _ => .refl _⟩

theorem Onward.trans (first : peers.Onward middle) (second : middle.Onward after) :
    peers.Onward after :=
  ⟨first.run.trans second.run, fun side => (first.sides side).trans (second.sides side)⟩

theorem Onward.wire (onward : peers.Onward after) (side : Bool) :
    (after side).wire = (peers side).wire := by
  have mss : (after side).kcp.mss = (peers side).kcp.mss :=
    congrArg (fun fixed => fixed.2.2.1) (onward.sides side).fixed
  rw [Party.wire, Party.wire, mss, (onward.sides side).accepted]

theorem Onward.few (onward : peers.Onward after) (few : peers.Few) : after.Few := by
  intro side
  rw [onward.wire side]
  exact few side

theorem Onward.inv (onward : peers.Onward after) (inv : peers.Inv conv) (few : peers.Few) :
    after.Inv conv :=
  inv.reaches (onward.run.weaken (fun _ _ => trivial) fun _ _ _ _ => trivial) (onward.few few)

/-- One side goes on. -/
theorem Onward.put {party : Party} (next : peers.step event = some (Function.update peers side party))
    (quiet : Quiet peers event) (onward : (peers side).Onward party) :
    peers.Onward (Function.update peers side party) := by
  refine ⟨(Runs.refl peers).tail quiet next, fun acting => ?_⟩
  by_cases same : acting = side
  · subst same
    rwa [Function.update_self]
  · rw [Function.update_of_ne same]
    exact .refl _

theorem Inv.between (inv : peers.Inv conv) (apart : one ≠ other) :
    Direction (peers one) (peers other) := by
  have isOther : other = !one := by
    cases one <;> cases other <;> simp_all
  rw [isOther]
  exact inv.direction one

/-- A side reads. -/
theorem Inv.reads (inv : peers.Inv conv) (few : peers.Few) (side : Bool) (len : Nat) :
    peers.Onward (Function.update peers side ((peers side).recv len)) := by
  have forth := inv.direction !side
  rw [Bool.not_not] at forth
  have sent := forth.sends.count
  have grows : (peers side).kcp.Grows ((peers side).kcp.recv len).2.2 := by
    rcases (peers side).kcp.recv_cases len with ⟨failed, same⟩ | ⟨some, complete, -, same⟩
    · rw [same]
      exact .refl _
    · obtain ⟨message, later, split, isFirst, whole⟩ :=
        forth.next (inv.steady !side).sound.mss.1 complete
      have received : 0 ≤ ((peers side).kcp.recv len).1 := by
        rw [same]
        exact Int.natCast_nonneg _
      have begun : ((peers side).read.flatMap (pieces (peers !side).kcp.mss) ++
          pieces (peers !side).kcp.mss message) ++
          (Ikcpcb.merge (peers side).kcp.rcvQueue).2.map Segment.frag =
          (peers side).read.flatMap (pieces (peers !side).kcp.mss) ++
            (peers side).kcp.rcvQueue.map Segment.frag := by
        rw [List.append_assoc, whole]
      exact (forth.receives.recv (inv.steady side).sound ((sent.trans_lt (few !side))) received
        begun).2
  have next : peers.step (.recv side len) =
      some (Function.update peers side ((peers side).recv len)) := rfl
  have read : (peers side).read <+: ((peers side).recv len).read := by
    rw [Party.recv]
    dsimp only
    split
    · exact List.prefix_append _ _
    · exact List.prefix_refl _
  exact Onward.put next (fun _ _ => by rintro ⟨⟩)
    ⟨rfl, Ikcpcb.fixed_recv _, grows, read, (Ikcpcb.waitsnd_recv _).trans⟩

/-- The other side reads until there is nothing more to read. -/
theorem Inv.drain (inv : peers.Inv conv) (few : peers.Few) (apart : one ≠ other) {len : Nat}
    (fits : ∀ message ∈ (peers one).accepted, message.length ≤ len) :
    ∃ after : Peers, peers.Onward after ∧ after one = peers one ∧
      (after other).kcp.peeksize < 0 ∧
      ((peers other).kcp.Answers → (after other).kcp.Answers) := by
  obtain ⟨unread, enough⟩ : ∃ unread,
      (peers one).accepted.length ≤ (peers other).read.length + unread := ⟨_, Nat.le_add_left _ _⟩
  induction unread generalizing peers with
  | zero =>
      refine ⟨peers, .refl peers, rfl, ?_, id⟩
      by_contra complete
      obtain ⟨message, later, split, -⟩ :=
        (inv.between apart).next (inv.steady one).sound.mss.1 (not_lt.mp complete)
      rw [split, List.length_append, List.length_cons] at enough
      omega
  | succ unread ih =>
      by_cases complete : 0 ≤ (peers other).kcp.peeksize
      · obtain ⟨message, later, split, isFirst, -⟩ :=
          (inv.between apart).next (inv.steady one).sound.mss.1 complete
        have isMessage : message ∈ (peers one).accepted := by
          rw [split]
          simp
        have peek := Ikcpcb.peeksize_eq complete
        rw [isFirst] at peek
        have some : (peers other).kcp.rcvQueue ≠ [] := by
          intro none
          rw [Ikcpcb.peeksize, none] at complete
          exact absurd complete (by decide)
        have short := fits message isMessage
        have received := @Ikcpcb.recv_succeeds _ (len : Int) some complete (by omega)
        have first := inv.reads few other len
        have sameOne : (Function.update peers other ((peers other).recv len)) one = peers one :=
          Function.update_of_ne apart _ _
        obtain ⟨after, onward, same, empty, answers⟩ :=
          ih (first.inv inv few) (first.few few) (by rwa [sameOne]) (by
            rw [sameOne, Function.update_self, Party.recv, if_pos received, List.length_append]
            simp only [List.length_singleton]
            omega)
        refine ⟨after, first.trans onward, same.trans sameOne, empty, fun isDue => answers ?_⟩
        rw [Function.update_self]
        exact isDue.recv _
      · exact ⟨peers, .refl peers, rfl, not_le.mp complete, id⟩

end Peers

end Xten.Ikcp
