import Mathlib.Data.List.TakeWhile
import Xten.Ikcp.Exchange

/-!
# What one call brings about

A segment that is due goes out with the next flush, and what arrives is answered: for one control
block, each of the steps that a message needs to get to the other side.
-/

namespace Xten.Ikcp

open Std.SerialNumbers

namespace Ikcpcb

section Clock

variable {kcp : Ikcpcb}

theorem diff_self (ts : BitVec 32) : itimediff ts ts = 0 := by
  rw [itimediff, diff, BitVec.sub_self]
  rfl

theorem diff_add_ofNat {later earlier : BitVec 32} {count : Nat} (behind : diff later earlier < 0)
    (small : count < 2 ^ 31) :
    diff (later + BitVec.ofNat 32 count) earlier = diff later earlier + count := by
  have moved : later + BitVec.ofNat 32 count - earlier =
      (later - earlier) + BitVec.ofNat 32 count := add_sub_right_comm _ _ _
  have low : -(2 ^ 31 : Int) ≤ (later - earlier).toInt := BitVec.le_toInt _
  have added : (BitVec.ofNat 32 count).toInt = count := by
    rw [BitVec.toInt_ofNat', Int.bmod_eq_of_le] <;> omega
  rw [diff] at behind
  rw [diff, diff, moved, BitVec.toInt_add, added, Int.bmod_eq_of_le] <;> omega

/-- Unless the next flush is less than ten seconds ahead, an update flushes. -/
theorem update_flushes {current : BitVec 32}
    (due : kcp.updated = true → itimediff current kcp.tsFlush < 0 →
      itimediff current kcp.tsFlush < -10000) :
    ∃ tsFlush, kcp.update current = { kcp with current, updated := true, tsFlush }.flush := by
  rw [update]
  dsimp only
  by_cases updated : kcp.updated = true
  · rw [if_pos updated]
    by_cases far : itimediff current kcp.tsFlush ≥ 10000 ∨ itimediff current kcp.tsFlush < -10000
    · rw [if_pos far, if_pos far, if_pos le_rfl]
      simp only [updated]
      exact ⟨_, rfl⟩
    · have now : itimediff current kcp.tsFlush ≥ 0 := by
        by_contra behind
        exact far (.inr (due updated (not_le.mp behind)))
      rw [if_neg far, if_neg far, if_pos now]
      simp only [updated]
      exact ⟨_, rfl⟩
  · rw [if_neg updated]
    dsimp only
    have near : ¬ ((0 : Int) ≥ 10000 ∨ (0 : Int) < -10000) := by norm_num
    rw [diff_self, if_neg near, if_neg near, if_pos le_rfl]
    exact ⟨_, rfl⟩

/-- At some time, no earlier than a given one, an update flushes. -/
theorem exists_update (kcp : Ikcpcb) (ts : BitVec 32) : ∃ current tsFlush,
    0 ≤ itimediff current ts ∧
      kcp.update current = { kcp with current, updated := true, tsFlush }.flush := by
  by_cases soon : -10000 ≤ itimediff ts kcp.tsFlush ∧ itimediff ts kcp.tsFlush < 0
  · -- Then the flush is long past at twenty seconds later.
    have late : itimediff (ts + BitVec.ofNat 32 20000) kcp.tsFlush =
        itimediff ts kcp.tsFlush + 20000 := diff_add_ofNat soon.2 (by norm_num)
    have passed : itimediff (ts + BitVec.ofNat 32 20000) ts = 20000 := by
      rw [itimediff, diff, BitVec.add_comm, BitVec.add_sub_cancel]
      rfl
    obtain ⟨tsFlush, flushes⟩ := @update_flushes kcp (ts + BitVec.ofNat 32 20000)
      fun _ behind => by omega
    exact ⟨_, tsFlush, by omega, flushes⟩
  · obtain ⟨tsFlush, flushes⟩ := @update_flushes kcp ts fun _ behind => by omega
    exact ⟨ts, tsFlush, (diff_self ts).ge, flushes⟩

end Clock

section Posting

variable {kcp : Ikcpcb} {seg : Segment}

/-- What a flush sends is in some datagram, together with other segments of the flush. -/
theorem posts (sound : kcp.Sound) (updated : kcp.updated = true) (isSeg : seg ∈ kcp.flushSegs) :
    ∃ group, seg ∈ group ∧ (∀ other ∈ group, other ∈ kcp.flushSegs) ∧
      encode group ∈ kcp.flush.2 := by
  obtain ⟨groups, flushed, whole, -⟩ := flush_groups sound updated
  rw [← whole] at isSeg ⊢
  obtain ⟨group, isGroup, isSeg⟩ := List.mem_flatten.mp isSeg
  refine ⟨group, isSeg, fun other isOther => List.mem_flatten.mpr ⟨group, isGroup, isOther⟩, ?_⟩
  rw [flushed]
  exact List.mem_map_of_mem isGroup

/-- Each of its segments tells of the same window. -/
theorem tells_of_flushSegs (isSeg : seg ∈ kcp.flushSegs) :
    seg.una = kcp.rcvNxt ∧ seg.wnd = kcp.wndUnused := by
  obtain ⟨wait, ts, same⟩ := commanded_eq kcp
  rcases List.mem_append.mp isSeg with isCommand | isDue
  · obtain ⟨sn, ts, cmd, rfl, -⟩ := mem_commandSegs isCommand
    exact ⟨rfl, rfl⟩
  · obtain ⟨other, -, -, una, wnd⟩ := mem_due isDue
    rw [una, wnd, Ikcpcb.moved, same]
    exact ⟨rfl, rfl⟩

theorem intoBuf_prefix (cwnd : BitVec 32) (queue buf : List Segment) (nxt : BitVec 32) :
    buf <+: (kcp.intoBuf cwnd queue buf nxt).2.1 := by
  induction queue generalizing buf nxt with
  | nil => exact List.prefix_refl buf
  | cons first queue ih =>
      rw [intoBuf]
      split
      · exact (List.prefix_append buf _).trans (ih _ _)
      · exact List.prefix_refl buf

theorem sndBuf_moved (kcp : Ikcpcb) : kcp.sndBuf <+: kcp.moved.sndBuf := by
  obtain ⟨wait, ts, same⟩ := commanded_eq kcp
  rw [Ikcpcb.moved, same]
  exact intoBuf_prefix _ _ _ _

/-- A segment whose time has come is sent. -/
theorem flushes_due (isSeg : seg ∈ kcp.sndBuf) (due : 0 ≤ itimediff kcp.current seg.resendts) :
    ∃ other ∈ kcp.flushSegs, other.load = seg.load := by
  have now : kcp.moved.current = kcp.current := by
    obtain ⟨wait, ts, same⟩ := commanded_eq kcp
    rw [Ikcpcb.moved, same]
    rfl
  have isMoved : seg ∈ kcp.moved.sndBuf := kcp.sndBuf_moved.subset isSeg
  obtain ⟨cause, isCause⟩ : ∃ cause, kcp.moved.cause seg = some cause := by
    rw [Ikcpcb.cause, now]
    split
    · exact ⟨_, rfl⟩
    · exact ⟨_, rfl⟩
  refine ⟨kcp.moved.sent cause seg, List.mem_append_right _ ?_, sent_load cause seg⟩
  refine List.mem_filterMap.mpr ⟨seg, isMoved, ?_⟩
  rw [isCause, Option.map_some]

end Posting

section Probing

variable {kcp : Ikcpcb} {seg : Segment}

/-- The other side is to be told of the window. -/
def Tells (kcp : Ikcpcb) : Prop :=
  kcp.probe &&& askTell ≠ 0

/-- The next flush answers something. -/
def Answers (kcp : Ikcpcb) : Prop :=
  kcp.acklist ≠ [] ∨ kcp.Tells

theorem tell_or {probe : BitVec 32} (tells : probe &&& askTell ≠ 0) (more : BitVec 32) :
    (probe ||| more) &&& askTell ≠ 0 := by
  intro none
  rw [BitVec.and_or_distrib_right] at none
  exact tells (BitVec.or_eq_zero_iff.mp none).1

theorem Tells.timeProbe (tells : kcp.Tells) : kcp.timeProbe.Tells := by
  rw [Tells] at tells ⊢
  rw [Ikcpcb.timeProbe]
  dsimp only
  split
  · split
    · exact tells
    · split
      · dsimp only
        exact tell_or tells askSend
      · exact tells
  · exact tells

theorem Answers.flushes (answers : kcp.Answers) : ∃ seg, seg ∈ kcp.flushSegs := by
  rcases answers with acks | tells
  · obtain ⟨ack, rest, isList⟩ := List.exists_cons_of_ne_nil acks
    have isAck : { kcp.ackSeg with sn := ack.1, ts := ack.2 } ∈ kcp.ackSegs := by
      rw [ackSegs, isList]
      exact List.mem_cons_self
    exact ⟨_, List.mem_append_left _ (List.mem_append_left _ isAck)⟩
  · refine ⟨{ kcp.lastSeg with cmd := cmdWins }, List.mem_append_left _ ?_⟩
    refine List.mem_append_right _ (List.mem_append_right _ ?_)
    have told : kcp.timeProbe.probe &&& askTell ≠ 0 := tells.timeProbe
    rw [if_pos told]
    exact List.mem_singleton_self _

/-- A closed window is asked for when its time has come. -/
theorem flushes_ask (closed : kcp.rmtWnd = 0) (waiting : kcp.probeWait ≠ 0)
    (due : 0 ≤ itimediff kcp.current kcp.tsProbe) : ∃ seg ∈ kcp.flushSegs, seg.cmd = cmdWask := by
  have asks : kcp.timeProbe.probe &&& askSend ≠ 0 := by
    rw [timeProbe, if_pos closed, if_neg waiting, if_pos due]
    dsimp only
    rw [BitVec.and_or_distrib_right]
    intro none
    exact absurd (BitVec.or_eq_zero_iff.mp none).2 (by decide)
  refine ⟨{ kcp.lastSeg with cmd := cmdWask }, List.mem_append_left _ ?_, rfl⟩
  refine List.mem_append_right _ (List.mem_append_left _ ?_)
  rw [if_pos asks]
  exact List.mem_singleton_self _

end Probing

section Opening

variable {kcp : Ikcpcb}

/-- What a flush leaves of the numbers and of the window of the other side. -/
theorem flush_numbers (updated : kcp.updated = true) :
    kcp.flush.1.sndNxt = kcp.moved.sndNxt ∧ kcp.flush.1.sndUna = kcp.sndUna ∧
      kcp.flush.1.rmtWnd = kcp.rmtWnd ∧ kcp.flush.1.nocwnd = kcp.nocwnd ∧
      kcp.flush.1.sndQueue = kcp.moved.sndQueue ∧ kcp.flush.1.sndBuf = kcp.flushed.1 ∧
      kcp.flush.1.probeWait = kcp.timeProbe.probeWait ∧
      kcp.flush.1.tsProbe = kcp.timeProbe.tsProbe ∧ kcp.flush.1.updated = true := by
  obtain ⟨thresh, cwnd, incr, last⟩ := updateThresh_eq
    { kcp.moved with sndBuf := kcp.flushed.1, state := kcp.flushed.2.state }
    kcp.flushed.2 kcp.commanded.flushWindow
  obtain ⟨wait, ts, probe, probed⟩ := kcp.timeProbe_eq
  rw [flush, if_neg (by rw [updated]; decide)]
  dsimp only
  rw [last, Ikcpcb.moved, moveQueue, commanded, probed]
  exact ⟨rfl, rfl, rfl, rfl, rfl, rfl, rfl, rfl, updated⟩

theorem refilled_cwnd (kcp : Ikcpcb) (incr : BitVec 32) :
    (if kcp.cwnd < 1 then { kcp with cwnd := 1, incr := incr } else kcp).cwnd ≠ 0 := by
  split
  case isTrue =>
    change (1 : BitVec 32) ≠ 0
    decide
  case isFalse large =>
    intro none
    rw [none] at large
    exact large (by decide)

theorem updateThresh_cwnd (pass : Pass) (window : BitVec 32) :
    (kcp.updateThresh pass window).cwnd ≠ 0 :=
  refilled_cwnd _ _

/-- After a flush there is always some congestion window. -/
theorem flush_cwnd (updated : kcp.updated = true) : kcp.flush.1.cwnd ≠ 0 := by
  rw [flush, if_neg (by rw [updated]; decide)]
  exact updateThresh_cwnd _ _

theorem toNat_pos {number : BitVec 32} (some : number ≠ 0) : 0 < number.toNat := by
  rcases Nat.eq_zero_or_pos number.toNat with zero | positive
  · exact absurd (BitVec.eq_of_toNat_eq zero) some
  · exact positive

/-- All windows are open. -/
structure Open (kcp : Ikcpcb) : Prop where
  updated : kcp.updated = true
  sending : kcp.sndWnd ≠ 0
  remote : kcp.rmtWnd ≠ 0
  congestion : kcp.cwnd ≠ 0

theorem Open.flushWindow (opened : kcp.Open) : 0 < kcp.commanded.flushWindow.toNat := by
  have sending := toNat_pos opened.sending
  have remote := toNat_pos opened.remote
  have congestion := toNat_pos opened.congestion
  obtain ⟨wait, ts, same⟩ := commanded_eq kcp
  rw [same, Ikcpcb.flushWindow]
  dsimp only
  split <;> simp only [imin_toNat] <;> omega

/-- While nothing waits for an acknowledgement and the windows are open, something new is sent. -/
theorem Open.moves (opened : kcp.Open) (sound : kcp.Sound) (none : kcp.sndBuf = [])
    (some : kcp.sndQueue ≠ [])
    (few : kcp.sndNxt.toNat + kcp.sndQueue.length < 2 ^ 31) :
    kcp.sndNxt.toNat < kcp.flush.1.sndNxt.toNat := by
  have positive := opened.flushWindow
  have fits := flushWindow_le sound.commanded
  have small : kcp.commanded.sndBound < 2 ^ 31 := by
    rw [sndBound]
    omega
  obtain ⟨moved, rest, split, taken, -, -, full⟩ :=
    @intoBuf_cases kcp.commanded _ kcp.commanded.sndQueue _ _ _ small fits
      sound.commanded.unacked sound.commanded.una
  have first := sound.una
  obtain ⟨wait, ts, same⟩ := commanded_eq kcp
  have queue : kcp.sndQueue = moved ++ rest := by
    rw [same] at split
    exact split
  have nxt : kcp.moved.sndNxt = kcp.sndNxt + BitVec.ofNat 32 moved.length := by
    rw [Ikcpcb.moved, moveQueue, taken, same]
  have total := congrArg List.length queue
  rw [List.length_append] at total
  have count : 0 < moved.length := by
    rcases full with all | wide
    · have := List.length_pos_iff.mpr some
      rw [all, List.length_nil] at total
      omega
    · have una : kcp.commanded.sndUna = kcp.sndNxt := by
        rw [same]
        rw [none] at first
        exact first
      have next : kcp.commanded.sndNxt = kcp.sndNxt := by rw [same]
      rw [una, next, offset_add (by omega)] at wide
      omega
  rw [(flush_numbers opened.updated).1, nxt, toNat_add_ofNat (by omega)]
  omega

/-- A window that is closed is waited for. -/
theorem flush_waits (updated : kcp.updated = true) (closed : kcp.rmtWnd = 0)
    (none : kcp.probeWait = 0) : kcp.flush.1.probeWait ≠ 0 := by
  rw [(flush_numbers updated).2.2.2.2.2.2.1, timeProbe, if_pos closed, if_pos none]
  change probeInit ≠ 0
  decide

end Opening

section Arriving

variable {kcp : Ikcpcb} {seg : Segment} {maxack : Option (BitVec 32)} {wire begun : List Segment}
  {sent : Nat}

/-- What every segment of a datagram does first: the window of the other side, and what it has. -/
def acknowledged (kcp : Ikcpcb) (seg : Segment) : Ikcpcb :=
  ({ kcp with rmtWnd := seg.wnd }.parseUna seg.una).shrinkBuf

theorem acknowledged_eq (kcp : Ikcpcb) (seg : Segment) : ∃ buf una,
    kcp.acknowledged seg = { kcp with rmtWnd := seg.wnd, sndBuf := buf, sndUna := una } := by
  rw [acknowledged, shrinkBuf_eq]
  exact ⟨_, _, rfl⟩

theorem inputSegment_eq (kcp : Ikcpcb) (maxack : Option (BitVec 32)) (seg : Segment) :
    kcp.inputSegment maxack seg =
      if seg.cmd = cmdAck then
        ((kcp.acknowledged seg).inputAck seg, some (newerAck maxack seg.sn))
      else if seg.cmd = cmdPush then ((kcp.acknowledged seg).inputPush seg, maxack)
      else if seg.cmd = cmdWask then
        ({ kcp.acknowledged seg with probe := (kcp.acknowledged seg).probe ||| askTell }, maxack)
      else (kcp.acknowledged seg, maxack) :=
  rfl

theorem acklist_parseData (kcp : Ikcpcb) (seg : Segment) :
    (kcp.parseData seg).acklist = kcp.acklist ∧ (kcp.parseData seg).probe = kcp.probe ∧
      (kcp.parseData seg).rmtWnd = kcp.rmtWnd := by
  rw [parseData]
  split <;> exact ⟨rfl, rfl, rfl⟩

theorem inputPush_tells (kcp : Ikcpcb) (seg : Segment) :
    kcp.acklist <+: (kcp.inputPush seg).acklist ∧ (kcp.inputPush seg).probe = kcp.probe ∧
      (kcp.inputPush seg).rmtWnd = kcp.rmtWnd := by
  have pushed : kcp.acklist <+: (kcp.ackPush seg.sn seg.ts).acklist := List.prefix_append _ _
  rw [inputPush]
  dsimp only
  split
  · split
    · obtain ⟨acks, probe, wnd⟩ := acklist_parseData (kcp.ackPush seg.sn seg.ts) seg
      rw [acks, probe, wnd]
      exact ⟨pushed, rfl, rfl⟩
    · exact ⟨pushed, rfl, rfl⟩
  · exact ⟨List.prefix_refl _, rfl, rfl⟩

/-- A segment inside the window is acknowledged, whether it is new or not. -/
theorem inputPush_acks (below : itimediff seg.sn (kcp.rcvNxt + kcp.rcvWnd) < 0) :
    (kcp.inputPush seg).acklist ≠ [] := by
  have pushed : (kcp.ackPush seg.sn seg.ts).acklist ≠ [] := List.concat_ne_nil _ _
  rw [inputPush, if_pos below]
  dsimp only
  split
  · rw [(acklist_parseData _ seg).1]
    exact pushed
  · exact pushed

theorem inputAck_tells (kcp : Ikcpcb) (seg : Segment) :
    (kcp.inputAck seg).acklist = kcp.acklist ∧ (kcp.inputAck seg).probe = kcp.probe ∧
      (kcp.inputAck seg).rmtWnd = kcp.rmtWnd := by
  obtain ⟨rttval, srtt, rto, same⟩ := kcp.inputAck_eq seg
  rw [same, shrinkBuf_eq, parseAck]
  split <;> exact ⟨rfl, rfl, rfl⟩

/-- What has to be answered is not forgotten while a datagram is taken. -/
theorem Answers.inputSegment (answers : kcp.Answers) :
    (kcp.inputSegment maxack seg).1.Answers := by
  obtain ⟨buf, una, same⟩ := kcp.acknowledged_eq seg
  have first : (kcp.acknowledged seg).Answers := by
    rw [same]
    exact answers
  rw [inputSegment_eq]
  split
  · obtain ⟨acks, probe, -⟩ := inputAck_tells (kcp.acknowledged seg) seg
    rw [Answers, Tells, acks, probe]
    exact first
  · split
    · obtain ⟨acks, probe, -⟩ := inputPush_tells (kcp.acknowledged seg) seg
      rw [Answers, Tells, probe]
      exact first.imp_left fun some none => some (List.prefix_nil.mp (none ▸ acks))
    · split
      · exact first.imp_right fun tells => tell_or tells askTell
      · exact first

theorem tells_wask (isAsk : seg.cmd = cmdWask) : (kcp.inputSegment maxack seg).1.Tells := by
  have notAck : ¬ seg.cmd = cmdAck := by rw [isAsk]; decide
  have notPush : ¬ seg.cmd = cmdPush := by rw [isAsk]; decide
  rw [inputSegment_eq, if_neg notAck, if_neg notPush, if_pos isAsk, Tells]
  dsimp only
  rw [BitVec.and_or_distrib_right]
  intro none
  exact absurd (BitVec.or_eq_zero_iff.mp none).2 (by decide)

theorem inputSegment_push (isPush : seg.cmd = cmdPush) :
    kcp.inputSegment maxack seg = ((kcp.acknowledged seg).inputPush seg, maxack) := by
  have notAck : ¬ seg.cmd = cmdAck := by rw [isPush]; decide
  rw [inputSegment_eq, if_neg notAck, if_pos isPush]

/-- A segment that has been received before is acknowledged again, unless it is very old. -/
theorem acks_push (isPush : seg.cmd = cmdPush) (old : seg.sn.toNat ≤ kcp.rcvNxt.toNat)
    (near : kcp.rcvNxt.toNat - seg.sn.toNat + kcp.rcvWnd.toNat < 2 ^ 31)
    (positive : 0 < kcp.rcvWnd.toNat) :
    (kcp.inputSegment maxack seg).1.acklist ≠ [] := by
  obtain ⟨buf, una, same⟩ := kcp.acknowledged_eq seg
  rw [inputSegment_push isPush]
  apply inputPush_acks
  rw [same]
  change itimediff seg.sn (kcp.rcvNxt + kcp.rcvWnd) < 0
  have far : offset seg.sn (kcp.rcvNxt + kcp.rcvWnd) =
      kcp.rcvNxt.toNat - seg.sn.toNat + kcp.rcvWnd.toNat := by
    have moved : kcp.rcvNxt + kcp.rcvWnd - seg.sn = (kcp.rcvNxt - seg.sn) + kcp.rcvWnd :=
      add_sub_right_comm _ _ _
    rw [offset, moved, BitVec.toNat_add, BitVec.toNat_sub_of_le old]
    omega
  have none : offset seg.sn seg.sn = 0 := offset_self _
  rw [@itimediff_eq seg.sn _ _ (by omega) (by omega), far, none]
  omega

theorem has_inputPush (receives : kcp.Receives wire sent begun) (sound : kcp.Sound)
    (few : sent < 2 ^ 31) (stands : seg.sn.toNat < sent ∧ wire[seg.sn.toNat]? = some seg.frag)
    (next : kcp.rcvNxt = seg.sn) : (kcp.inputPush seg).Has seg.sn.toNat := by
  have least : wndRcv.toNat = 128 := rfl
  have window := sound.window
  have inside : offset kcp.rcvNxt seg.sn < kcp.rcvWnd.toNat := by
    rw [next, offset_self]
    omega
  obtain ⟨below, ahead⟩ := (in_window_iff window.2).mpr inside
  have has := (receives.parseData sound few stands inside).2.2
  rw [inputPush, if_pos below]
  dsimp only
  have same : (kcp.ackPush seg.sn seg.ts).rcvNxt = kcp.rcvNxt := rfl
  rw [parseData_ackPush, same, if_pos ahead]
  exact has

/-- The next segment is received. -/
theorem has_push (receives : kcp.Receives wire sent begun) (sound : kcp.Sound) (few : sent < 2 ^ 31)
    (remote : seg.wnd.toNat < 2 ^ 16) (isPush : seg.cmd = cmdPush)
    (stands : seg.sn.toNat < sent ∧ wire[seg.sn.toNat]? = some seg.frag)
    (next : kcp.rcvNxt = seg.sn) : (kcp.inputSegment maxack seg).1.Has seg.sn.toNat := by
  obtain ⟨buf, una, same⟩ := kcp.acknowledged_eq seg
  have known : ({ kcp with rmtWnd := seg.wnd } : Ikcpcb).Sound := { sound with remote := remote }
  have first : (kcp.acknowledged seg).Sound := known.shrink (List.dropWhile_sublist _)
  have received : (kcp.acknowledged seg).Receives wire sent begun := by
    rw [same]
    exact receives.congr rfl receives.acks
  have here : (kcp.acknowledged seg).rcvNxt = seg.sn := by
    rw [same]
    exact next
  rw [inputSegment_push isPush]
  exact has_inputPush received first few stands here

/-- Everything that has been sent is acknowledged. -/
theorem acknowledges_all (sound : kcp.Sound) (all : seg.una = kcp.sndNxt) :
    (kcp.acknowledged seg).sndBuf = [] := by
  rw [acknowledged, shrinkBuf_eq]
  change kcp.sndBuf.dropWhile _ = []
  rw [List.dropWhile_eq_nil_iff]
  intro other isOther
  obtain ⟨apart, near⟩ := sound.unacked.near other.sn (List.mem_map_of_mem isOther)
  have small : kcp.sndBound ≤ 2 ^ 16 := by
    rw [sndBound]
    omega
  have none : offset other.sn other.sn = 0 := offset_self _
  rw [all, @itimediff_eq other.sn _ _ (by omega) (by omega), none]
  simpa using apart

theorem sndBuf_inputSegment (maxack : Option (BitVec 32))
    (none : (kcp.acknowledged seg).sndBuf = []) :
    (kcp.inputSegment maxack seg).1.sndBuf = [] ∧
      (kcp.inputSegment maxack seg).1.rmtWnd = seg.wnd := by
  obtain ⟨buf, una, same⟩ := kcp.acknowledged_eq seg
  have wnd : (kcp.acknowledged seg).rmtWnd = seg.wnd := by rw [same]
  rw [inputSegment_eq]
  split
  · refine ⟨?_, (inputAck_tells _ seg).2.2.trans wnd⟩
    obtain ⟨rttval, srtt, rto, timed⟩ := (kcp.acknowledged seg).inputAck_eq seg
    rw [timed, shrinkBuf_eq, parseAck]
    split
    · exact none
    · change removeAcked _ (kcp.acknowledged seg).sndBuf = []
      rw [none]
      rfl
  · split
    · refine ⟨?_, (inputPush_tells _ seg).2.2.trans wnd⟩
      have out := congrArg (fun out => out.2.2) (@outgoing_inputPush (kcp.acknowledged seg) seg)
      exact out.trans none
    · split
      · exact ⟨none, wnd⟩
      · exact ⟨none, wnd⟩

/-- What has not been sent yet is left as it is. -/
theorem unsent_inputSegment (kcp : Ikcpcb) (maxack : Option (BitVec 32)) (seg : Segment) :
    (kcp.inputSegment maxack seg).1.sndNxt = kcp.sndNxt ∧
      (kcp.inputSegment maxack seg).1.sndQueue = kcp.sndQueue := by
  obtain ⟨buf, una, same⟩ := kcp.acknowledged_eq seg
  have first : (kcp.acknowledged seg).sndNxt = kcp.sndNxt ∧
      (kcp.acknowledged seg).sndQueue = kcp.sndQueue := by
    rw [same]
    exact ⟨rfl, rfl⟩
  rw [inputSegment_eq]
  split
  · obtain ⟨rttval, srtt, rto, timed⟩ := (kcp.acknowledged seg).inputAck_eq seg
    rw [timed, shrinkBuf_eq, parseAck]
    split <;> exact first
  · split
    · have out := @outgoing_inputPush (kcp.acknowledged seg) seg
      exact ⟨(congrArg Prod.fst out).trans first.1, (congrArg (fun out => out.2.1) out).trans first.2⟩
    · split <;> exact first

end Arriving

end Ikcpcb

end Xten.Ikcp
