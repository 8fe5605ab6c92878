import Xten.Ikcp.Windows

/-!
# Every call keeps the windows

A control block is given calls in any order, and datagrams with any bytes. What `Sound` says holds
after each of them.
-/

namespace Xten.Ikcp

open Std.SerialNumbers

namespace Ikcpcb

section Sending

variable {kcp : Ikcpcb} {buf queue : List Segment} {nxt cwnd : BitVec 32} {bound : Nat}

/-- The segments of `snd_queue` with their numbers. -/
def stamped (kcp : Ikcpcb) (nxt : BitVec 32) : List Segment → List Segment
  | [] => []
  | seg :: queue => kcp.stamp nxt seg :: kcp.stamped (nxt + 1) queue

theorem fits_of_stamped {mss : Nat} (fits : ∀ seg ∈ queue, seg.Fits mss) {seg : Segment}
    (isSeg : seg ∈ kcp.stamped nxt queue) :
    seg.conv = kcp.conv ∧ seg.cmd = cmdPush ∧ seg.Fits mss := by
  induction queue generalizing nxt with
  | nil => cases isSeg
  | cons first queue ih =>
      rcases List.mem_cons.mp isSeg with rfl | isSeg
      · exact ⟨rfl, rfl, fits first List.mem_cons_self⟩
      · exact ih (fun other isOther => fits other (List.mem_cons_of_mem _ isOther)) isSeg

/-- No number of the window is further behind than the first. -/
theorem offset_le_first {number : BitVec 32} (window : Behind nxt bound (sns buf))
    (isNumber : number ∈ sns buf) : offset number nxt ≤ offset (firstUnacked nxt buf) nxt := by
  cases buf with
  | nil => cases isNumber
  | cons seg buf =>
      rcases List.mem_cons.mp isNumber with rfl | isNumber
      · exact le_rfl
      · exact ((List.pairwise_cons.mp window.sorted).1 _ isNumber).le

theorem first_le (window : Behind nxt bound (sns buf)) :
    offset (firstUnacked nxt buf) nxt ≤ bound := by
  cases buf with
  | nil => simp [firstUnacked]
  | cons seg buf => exact (window.near _ List.mem_cons_self).2

theorem firstUnacked_push (seg : Segment) (isNext : seg.sn = nxt) :
    firstUnacked (nxt + 1) (buf ++ [seg]) = firstUnacked nxt buf := by
  cases buf with
  | nil => exact isNext
  | cons first buf => rfl

/-- What `snd_buf` is given: the first segments of `snd_queue`, as far as the window has room. -/
theorem intoBuf_cases (small : bound < 2 ^ 31) (fits : cwnd.toNat ≤ bound)
    (window : Behind nxt bound (sns buf)) (una : kcp.sndUna = firstUnacked nxt buf) :
    ∃ moved rest, queue = moved ++ rest ∧
      kcp.intoBuf cwnd queue buf nxt =
        (rest, buf ++ kcp.stamped nxt moved, nxt + BitVec.ofNat 32 moved.length) ∧
      Behind (nxt + BitVec.ofNat 32 moved.length) bound (sns (buf ++ kcp.stamped nxt moved)) ∧
      kcp.sndUna = firstUnacked (nxt + BitVec.ofNat 32 moved.length)
        (buf ++ kcp.stamped nxt moved) ∧
      (rest = [] ∨ cwnd.toNat ≤ offset kcp.sndUna (nxt + BitVec.ofNat 32 moved.length)) := by
  induction queue generalizing buf nxt with
  | nil => exact ⟨[], [], rfl, by simp [intoBuf, stamped], by simpa [stamped] using window,
      by simpa [stamped] using una, .inl rfl⟩
  | cons seg queue ih =>
      have near : offset kcp.sndUna nxt ≤ bound := una ▸ first_le window
      have reach : offset kcp.sndUna (kcp.sndUna + cwnd) = cwnd.toNat := offset_add_self _ _
      have open_iff : itimediff nxt (kcp.sndUna + cwnd) < 0 ↔
          offset kcp.sndUna nxt < cwnd.toNat := by
        have difference : itimediff nxt (kcp.sndUna + cwnd) =
            (offset kcp.sndUna nxt : Int) - offset kcp.sndUna (kcp.sndUna + cwnd) :=
          itimediff_eq (by omega) (by omega)
        rw [difference, reach]
        omega
      rw [intoBuf]
      by_cases room : itimediff nxt (kcp.sndUna + cwnd) < 0
      · have below := open_iff.mp room
        have space : ∀ number ∈ sns buf, offset number nxt < bound := by
          intro number isNumber
          have := offset_le_first window isNumber
          rw [← una] at this
          omega
        have pushed : Behind (nxt + 1) bound (sns (buf ++ [kcp.stamp nxt seg])) := by
          rw [sns, List.map_append]
          exact window.push (by omega) (by omega) space
        have still : kcp.sndUna = firstUnacked (nxt + 1) (buf ++ [kcp.stamp nxt seg]) :=
          una.trans (firstUnacked_push (kcp.stamp nxt seg) rfl).symm
        obtain ⟨moved, rest, rfl, admitted, behind, isFirst, full⟩ := ih pushed still
        have counted : nxt + BitVec.ofNat 32 (moved.length + 1) =
            nxt + 1 + BitVec.ofNat 32 moved.length := by
          rw [BitVec.ofNat_add, BitVec.add_assoc, BitVec.add_comm 1]
          rfl
        rw [List.append_assoc] at admitted behind isFirst
        rw [if_pos room, admitted]
        refine ⟨seg :: moved, rest, rfl, ?_, ?_, ?_, ?_⟩
        all_goals rw [List.length_cons, counted]
        · rfl
        · exact behind
        · exact isFirst
        · exact full
      · rw [if_neg room]
        refine ⟨[], seg :: queue, rfl, by simp [stamped], by simpa [stamped] using window,
          by simpa [stamped] using una, .inr ?_⟩
        have := mt open_iff.mpr room
        simpa using this

theorem sent_load (cause : Cause) (seg : Segment) : (kcp.sent cause seg).load = seg.load := by
  cases cause <;> rfl

theorem flushBuf_load (pass : Pass) :
    (kcp.flushBuf buf pass).1.map Segment.load = buf.map Segment.load := by
  induction buf generalizing pass with
  | nil => rfl
  | cons seg buf ih =>
      rw [flushBuf]
      split
      · exact congrArg (seg.load :: ·) (ih _)
      · rw [List.map_cons, List.map_cons, ih, sent_load]

end Sending

section Calls

variable {kcp : Ikcpcb}

theorem imin_toNat (a b : BitVec 32) : (imin a b).toNat = min a.toNat b.toNat := by
  rw [imin]
  split
  case isTrue le => exact (min_eq_left le).symm
  case isFalse gt => exact (min_eq_right (le_of_not_ge gt)).symm

theorem flushWindow_le (sound : kcp.Sound) : kcp.flushWindow.toNat ≤ kcp.sndBound := by
  have := sound.remote
  rw [flushWindow, sndBound]
  split <;> simp only [imin_toNat] <;> omega

theorem Sound.moveQueue (sound : kcp.Sound) : (kcp.moveQueue kcp.flushWindow).Sound := by
  have small : kcp.sndBound < 2 ^ 31 := by
    rw [sndBound]
    omega
  obtain ⟨moved, rest, split, admitted, behind, isFirst, -⟩ :=
    intoBuf_cases small (flushWindow_le sound) sound.unacked sound.una
  rw [Ikcpcb.moveQueue, admitted]
  have fits := sound.waiting
  rw [split] at fits
  refine { sound with una := isFirst, unacked := behind, waiting := ?_, pushes := ?_ }
  · intro seg isRest
    exact fits seg (List.mem_append_right _ isRest)
  · intro seg isSent
    rcases List.mem_append.mp isSent with isOld | isNew
    · exact sound.pushes seg isOld
    · have pushed : kcp.Pushes seg :=
        fits_of_stamped (fun other isOther => fits other (List.mem_append_left _ isOther)) isNew
      exact pushed

theorem commanded_eq (kcp : Ikcpcb) : ∃ wait ts,
    kcp.commanded = { kcp with probeWait := wait, tsProbe := ts, acklist := [], probe := 0 } := by
  obtain ⟨wait, ts, probe, probed⟩ := kcp.timeProbe_eq
  refine ⟨wait, ts, ?_⟩
  rw [commanded, probed]

theorem Sound.commanded (sound : kcp.Sound) : kcp.commanded.Sound := by
  obtain ⟨wait, ts, same⟩ := commanded_eq kcp
  rw [same]
  exact { sound with }

theorem flushed_load (kcp : Ikcpcb) :
    kcp.flushed.1.map Segment.load = kcp.moved.sndBuf.map Segment.load :=
  flushBuf_load _

theorem Sound.flush (sound : kcp.Sound) : kcp.flush.1.Sound := by
  rw [Ikcpcb.flush]
  split
  · exact sound
  · obtain ⟨thresh, cwnd, incr, same⟩ := updateThresh_eq
      { kcp.moved with sndBuf := kcp.flushed.1, state := kcp.flushed.2.state }
      kcp.flushed.2 kcp.commanded.flushWindow
    have sent := sound.commanded.moveQueue.relabel (flushed_load kcp)
    dsimp only
    rw [same]
    exact { sent with }

theorem Sound.update (sound : kcp.Sound) (current : BitVec 32) : (kcp.update current).1.Sound := by
  obtain ⟨tsFlush, flushes | waits⟩ := kcp.update_eq current
  · rw [flushes]
    exact Sound.flush { sound with }
  · rw [waits]
    exact { sound with }

end Calls

section Messages

variable {kcp : Ikcpcb} {buffer : List Byte}

theorem fits_of_fragments {mss count : Nat} {stream : Int} (few : count ≤ 2 ^ 7) {seg : Segment}
    (isSeg : seg ∈ fragments mss stream count buffer) : seg.Fits mss := by
  induction count generalizing buffer with
  | zero => cases isSeg
  | succ count ih =>
      rcases List.mem_cons.mp isSeg with rfl | isSeg
      · refine ⟨?_, List.length_take_le _ _⟩
        change (if stream = 0 then BitVec.ofNat 32 count else 0).toNat < 2 ^ 7
        split
        · rw [BitVec.toNat_ofNat]
          omega
        · decide
      · exact ih (by omega) isSeg

theorem Sound.sendRest (sound : kcp.Sound) : (kcp.sendRest buffer).2.Sound := by
  rw [Ikcpcb.sendRest]
  split
  case isTrue => exact sound
  case isFalse few =>
    have least : wndRcv.toNat = 128 := rfl
    refine { sound with waiting := ?_ }
    intro seg isSeg
    rcases List.mem_append.mp isSeg with isOld | isNew
    · exact sound.waiting seg isOld
    · exact fits_of_fragments (by omega) isNew

theorem Sound.fillLast (sound : kcp.Sound) : (kcp.fillLast buffer).1.Sound := by
  rw [Ikcpcb.fillLast]
  split
  · exact sound
  case h_2 old isLast =>
    split
    case isFalse => exact sound
    case isTrue =>
      refine { sound with waiting := ?_ }
      intro seg isSeg
      rcases List.mem_append.mp isSeg with isOld | isNew
      · exact sound.waiting seg (List.mem_of_mem_dropLast isOld)
      · rw [List.mem_singleton.mp isNew]
        refine ⟨Nat.two_pow_pos 7, ?_⟩
        change (old.data ++ buffer.take _).length ≤ kcp.mss
        rw [List.length_append, List.length_take]
        omega

theorem Sound.send (sound : kcp.Sound) : (kcp.send buffer).2.Sound := by
  rw [Ikcpcb.send]
  dsimp only
  split
  · split
    · exact sound.fillLast
    · exact sound.fillLast.sendRest
  · exact sound.sendRest

theorem merge_length (queue : List Segment) : (merge queue).2.length ≤ queue.length := by
  induction queue with
  | nil => exact le_rfl
  | cons seg queue ih =>
      rw [merge]
      split
      · exact Nat.le_succ _
      · exact ih.trans (Nat.le_succ _)

/-- Segments that are next in order are taken, whatever the buffer and the queue were before. -/
theorem Sound.moveReady {buf queue : List Segment} (sound : kcp.Sound)
    (window : Ahead kcp.rcvNxt kcp.rcvWnd.toNat (sns buf))
    (room : queue.length ≤ kcp.rcvWnd.toNat) :
    ({ kcp with rcvBuf := buf, rcvQueue := queue }.moveReady).Sound := by
  obtain ⟨moved, rest, -, taken, -, ahead, fits, stalls⟩ := takeReady_cases window room
  rw [Ikcpcb.moveReady, taken]
  exact { sound with ahead := ahead, queued := fits, stalled := stalls }

theorem fastRecover_eq (kcp : Ikcpcb) (recover : Bool) :
    ∃ probe, kcp.fastRecover recover = { kcp with probe := probe } := by
  rw [fastRecover]
  split <;> exact ⟨_, rfl⟩

theorem Sound.ready (sound : kcp.Sound) (len : Int) : (kcp.taken len).moveReady.Sound := by
  rw [taken]
  split
  · exact sound.moveReady sound.ahead sound.queued
  · exact sound.moveReady sound.ahead ((merge_length _).trans sound.queued)

theorem Sound.recv (sound : kcp.Sound) (len : Int) : (kcp.recv len).2.2.Sound := by
  rw [Ikcpcb.recv]
  split
  · exact sound
  · split
    · exact sound
    · split
      · exact sound
      · obtain ⟨probe, same⟩ := fastRecover_eq (kcp.taken len).moveReady
          (kcp.rcvQueue.length ≥ kcp.rcvWnd.toNat)
        have ready := sound.ready len
        dsimp only
        rw [same]
        exact { ready with }

end Messages

section Input

variable {kcp : Ikcpcb} {seg : Segment} {maxack : Option (BitVec 32)}

/-- The two comparisons of `ikcp_parse_data`. -/
theorem in_window_iff {sn : BitVec 32} (small : kcp.rcvWnd.toNat < 2 ^ 31) :
    itimediff sn (kcp.rcvNxt + kcp.rcvWnd) < 0 ∧ 0 ≤ itimediff sn kcp.rcvNxt ↔
      offset kcp.rcvNxt sn < kcp.rcvWnd.toNat := by
  have reach : offset kcp.rcvNxt (kcp.rcvNxt + kcp.rcvWnd) = kcp.rcvWnd.toNat :=
    offset_add_self _ _
  rw [itimediff_nonneg_iff]
  constructor
  · rintro ⟨below, ahead⟩
    rw [itimediff_eq ahead (by omega), reach] at below
    omega
  · intro inside
    have ahead : offset kcp.rcvNxt sn < 2 ^ 31 := by omega
    refine ⟨?_, ahead⟩
    rw [itimediff_eq ahead (by omega), reach]
    omega

theorem Sound.place (sound : kcp.Sound) (inside : offset kcp.rcvNxt seg.sn < kcp.rcvWnd.toNat) :
    Ahead kcp.rcvNxt kcp.rcvWnd.toNat (sns (Ikcpcb.place seg kcp.rcvBuf)) := by
  have range : kcp.rcvWnd.toNat ≤ 2 ^ 31 := sound.window.2.le
  rcases place_cases range inside sound.ahead with
    ⟨same, -⟩ | ⟨before, behind, split, placed, isBefore, isBehind⟩
  · rw [same]
    exact sound.ahead
  · have window := sound.ahead
    rw [split, sns, List.map_append] at window
    rw [placed, sns, List.map_append, List.map_cons]
    apply window.insert inside
    · simpa using isBefore
    · simpa using isBehind

theorem Sound.parseData (sound : kcp.Sound) : (kcp.parseData seg).Sound := by
  rw [Ikcpcb.parseData]
  split
  case isTrue => exact sound
  case isFalse inside =>
    rw [not_or, not_le, not_lt, in_window_iff sound.window.2] at inside
    exact sound.moveReady (sound.place inside) sound.queued

theorem Sound.inputPush (sound : kcp.Sound) : (kcp.inputPush seg).Sound := by
  have pushed : (kcp.ackPush seg.sn seg.ts).Sound := { sound with }
  rw [Ikcpcb.inputPush]
  dsimp only
  split
  · split
    · exact pushed.parseData
    · exact pushed
  · exact sound

theorem Sound.inputAck (sound : kcp.Sound) : (kcp.inputAck seg).Sound := by
  obtain ⟨rttval, srtt, rto, same⟩ := kcp.inputAck_eq seg
  have timed : ({ kcp with rxRttval := rttval, rxSrtt := srtt, rxRto := rto } : Ikcpcb).Sound :=
    { sound with }
  rw [same, parseAck]
  split
  · exact timed.shrink (.refl _)
  · exact timed.shrink removeAcked_sublist

theorem Sound.inputSegment (sound : kcp.Sound) (window : seg.wnd.toNat < 2 ^ 16) :
    (kcp.inputSegment maxack seg).1.Sound := by
  have known : ({ kcp with rmtWnd := seg.wnd } : Ikcpcb).Sound := { sound with remote := window }
  have shrunk : ({ kcp with rmtWnd := seg.wnd }.parseUna seg.una).shrinkBuf.Sound :=
    known.shrink (List.dropWhile_sublist _)
  rw [Ikcpcb.inputSegment]
  split
  · exact shrunk.inputAck
  · split
    · exact shrunk.inputPush
    · split
      · exact { shrunk with }
      · exact shrunk

/-- What every segment keeps, a datagram keeps, whatever it holds. -/
theorem inputLoop_keeps {property : Ikcpcb → Prop}
    (kept : ∀ kcp maxack seg, property kcp → seg.wnd.toNat < 2 ^ 16 →
      property (inputSegment kcp maxack seg).1)
    (fuel : Nat) (data : List Byte) (holds : property kcp) :
    property (inputLoop fuel kcp maxack data).2.1 := by
  induction fuel generalizing kcp maxack data with
  | zero => exact holds
  | succ fuel ih =>
      rw [inputLoop]
      dsimp only
      repeat' split
      any_goals exact holds
      refine ih _ (kept _ _ _ holds ?_)
      have := (decode16u (decode8u (decode8u (decode32u data).2).2).2).1.isLt
      simp only [BitVec.toNat_setWidth]
      omega

theorem Sound.inputEnd (sound : kcp.Sound) (una : BitVec 32) : (kcp.inputEnd una maxack).Sound := by
  obtain ⟨buf, cwnd, incr, same, loads⟩ := kcp.inputEnd_eq una maxack
  rw [same]
  exact { sound.relabel loads with }

/-- Any bytes. -/
theorem Sound.input (sound : kcp.Sound) (data : List Byte) : (kcp.input data).2.Sound := by
  have looped : (inputLoop data.length kcp none data).2.1.Sound :=
    inputLoop_keeps (fun _ _ _ sound window => sound.inputSegment window) _ _ sound
  rw [Ikcpcb.input]
  dsimp only
  split
  · exact sound
  · split
    · exact looped
    · exact looped.inputEnd _

end Input

section Fixed

variable {kcp : Ikcpcb}

/-- What is set when a session is constructed, and never again. -/
def fixed (kcp : Ikcpcb) : BitVec 32 × Nat × Nat × BitVec 32 × BitVec 32 × Int :=
  (kcp.conv, kcp.mtu, kcp.mss, kcp.sndWnd, kcp.rcvWnd, kcp.stream)

theorem fixed_sendRest (buffer : List Byte) : (kcp.sendRest buffer).2.fixed = kcp.fixed := by
  rw [sendRest]
  split <;> rfl

theorem fixed_send (buffer : List Byte) : (kcp.send buffer).2.fixed = kcp.fixed := by
  have filled : (kcp.fillLast buffer).1.fixed = kcp.fixed := by
    rw [fillLast]
    split
    · rfl
    · split <;> rfl
  rw [send]
  dsimp only
  split
  · split
    · exact filled
    · exact (fixed_sendRest _).trans filled
  · exact fixed_sendRest _

theorem fixed_recv (len : Int) : (kcp.recv len).2.2.fixed = kcp.fixed := by
  have ready : (kcp.taken len).moveReady.fixed = kcp.fixed := by
    rw [taken]
    split <;> rfl
  obtain ⟨probe, same⟩ := fastRecover_eq (kcp.taken len).moveReady
    (kcp.rcvQueue.length ≥ kcp.rcvWnd.toNat)
  rw [recv]
  dsimp only
  rw [same]
  split
  · rfl
  · split
    · rfl
    · split
      · rfl
      · exact ready

theorem fixed_flush : kcp.flush.1.fixed = kcp.fixed := by
  obtain ⟨wait, ts, same⟩ := commanded_eq kcp
  obtain ⟨thresh, cwnd, incr, last⟩ := updateThresh_eq
    { kcp.moved with sndBuf := kcp.flushed.1, state := kcp.flushed.2.state }
    kcp.flushed.2 kcp.commanded.flushWindow
  have moved : kcp.moved.fixed = kcp.fixed := by
    rw [Ikcpcb.moved, same]
    rfl
  rw [flush]
  split
  · rfl
  · dsimp only
    rw [last]
    exact moved

theorem fixed_update (current : BitVec 32) : (kcp.update current).1.fixed = kcp.fixed := by
  obtain ⟨tsFlush, flushes | waits⟩ := kcp.update_eq current
  · rw [flushes, fixed_flush]
    rfl
  · rw [waits]
    rfl

theorem fixed_shrinkBuf : kcp.shrinkBuf.fixed = kcp.fixed := by
  rw [shrinkBuf_eq]
  rfl

theorem fixed_parseAck (sn : BitVec 32) : (kcp.parseAck sn).fixed = kcp.fixed := by
  rw [parseAck]
  split <;> rfl

theorem fixed_inputPush (seg : Segment) : (kcp.inputPush seg).fixed = kcp.fixed := by
  have parsed (kcp : Ikcpcb) : (kcp.parseData seg).fixed = kcp.fixed := by
    rw [parseData]
    split <;> rfl
  rw [inputPush]
  dsimp only
  split
  · split
    · exact parsed _
    · rfl
  · rfl

theorem fixed_inputSegment (maxack : Option (BitVec 32)) (seg : Segment) :
    (kcp.inputSegment maxack seg).1.fixed = kcp.fixed := by
  have shrunk : ({ kcp with rmtWnd := seg.wnd }.parseUna seg.una).shrinkBuf.fixed = kcp.fixed :=
    fixed_shrinkBuf
  rw [inputSegment]
  split
  · obtain ⟨rttval, srtt, rto, same⟩ :=
      inputAck_eq ({ kcp with rmtWnd := seg.wnd }.parseUna seg.una).shrinkBuf seg
    dsimp only
    rw [same, fixed_shrinkBuf, fixed_parseAck]
    exact shrunk
  · split
    · exact (fixed_inputPush seg).trans shrunk
    · split <;> exact shrunk

theorem fixed_inputEnd (una : BitVec 32) (maxack : Option (BitVec 32)) :
    (kcp.inputEnd una maxack).fixed = kcp.fixed := by
  obtain ⟨buf, cwnd, incr, same, -⟩ := kcp.inputEnd_eq una maxack
  rw [same]
  rfl

theorem fixed_input (data : List Byte) : (kcp.input data).2.fixed = kcp.fixed := by
  have looped : (inputLoop data.length kcp none data).2.1.fixed = kcp.fixed := by
    have kept : ∀ (now : Ikcpcb) maxack (seg : Segment), now.fixed = kcp.fixed →
        seg.wnd.toNat < 2 ^ 16 → (now.inputSegment maxack seg).1.fixed = kcp.fixed := by
      intro now maxack seg same _
      exact (fixed_inputSegment maxack seg).trans same
    exact @inputLoop_keeps kcp none (fun now => now.fixed = kcp.fixed) kept _ _ rfl
  rw [input]
  dsimp only
  split
  · rfl
  · split
    · exact looped
    · exact (fixed_inputEnd _ _).trans looped

end Fixed

section Session

/-- The calls of a `KcpSession` for its control block. -/
inductive Call where
  | send (buffer : List Byte)
  | recv (len : Int)
  | input (data : List Byte)
  | update (current : BitVec 32)
  | flush
deriving DecidableEq, Repr

/-- The control block after a call. -/
def call (kcp : Ikcpcb) : Call → Ikcpcb
  | .send buffer => (kcp.send buffer).2
  | .recv len => (kcp.recv len).2.2
  | .input data => (kcp.input data).2
  | .update current => (kcp.update current).1
  | .flush => kcp.flush.1

variable {kcp : Ikcpcb} {conv : BitVec 32} {settings : Settings}

theorem Sound.call (sound : kcp.Sound) (call : Call) : (kcp.call call).Sound := by
  cases call with
  | send buffer => exact sound.send
  | recv len => exact sound.recv len
  | input data => exact sound.input data
  | update current => exact sound.update current
  | flush => exact sound.flush

/-- The values are `int`s of C++. -/
structure Settings.Ints (settings : Settings) : Prop where
  mtxsize : settings.mtxsize < 2 ^ 31
  sndwnd : settings.sndwnd < 2 ^ 31
  rcvwnd : settings.rcvwnd < 2 ^ 31

theorem setNodelay_eq (kcp : Ikcpcb) (nodelay interval resend nc : Int) :
    ∃ nodelay' rxMinrto interval' fastresend nocwnd,
      kcp.setNodelay nodelay interval resend nc =
        { kcp with
          nodelay := nodelay'
          rxMinrto := rxMinrto
          interval := interval'
          fastresend := fastresend
          nocwnd := nocwnd } := by
  rw [setNodelay]
  repeat' split
  all_goals exact ⟨_, _, _, _, _, rfl⟩

theorem imax_toNat (a b : BitVec 32) : (imax a b).toNat = max a.toNat b.toNat := by
  rw [imax]
  split
  case isTrue ge => exact (max_eq_left ge).symm
  case isFalse lt => exact (max_eq_right (le_of_not_ge lt)).symm

theorem toNat_of_int {value : Int} (positive : 0 < value) (small : value < 2 ^ 31) :
    (BitVec.ofInt 32 value).toNat = value.toNat := by
  rw [BitVec.toNat_ofInt]
  omega

/-- Nothing has been sent or received. -/
theorem Sound.of_empty (una : kcp.sndUna = kcp.sndNxt) (sndQueue : kcp.sndQueue = [])
    (sndBuf : kcp.sndBuf = []) (rcvQueue : kcp.rcvQueue = []) (rcvBuf : kcp.rcvBuf = [])
    (window : wndRcv.toNat ≤ kcp.rcvWnd.toNat ∧ kcp.rcvWnd.toNat < 2 ^ 31)
    (remote : kcp.rmtWnd.toNat < 2 ^ 16) (mss : 0 < kcp.mss ∧ kcp.mtu = kcp.mss + overhead ∧ kcp.mtu < 2 ^ 31) :
    kcp.Sound where
  una := by rw [una, sndBuf]; rfl
  unacked := by rw [sndBuf]; exact .nil
  ahead := by rw [rcvBuf]; exact .nil
  queued := by rw [rcvQueue]; exact Nat.zero_le _
  stalled := by rw [rcvBuf]; rintro ⟨⟩
  window := window
  remote := remote
  mss := mss
  waiting := by rw [sndQueue]; rintro seg ⟨⟩
  pushes := by rw [sndBuf]; rintro seg ⟨⟩

theorem setmtu_eq (kcp : Ikcpcb) {size : Int} (small : size < 2 ^ 31)
    (mss : 0 < kcp.mss ∧ kcp.mtu = kcp.mss + overhead ∧ kcp.mtu < 2 ^ 31) :
    ∃ mtu' mss', (kcp.setmtu size).2 = { kcp with mtu := mtu', mss := mss' } ∧
      0 < mss' ∧ mtu' = mss' + overhead ∧ mtu' < 2 ^ 31 := by
  rw [setmtu]
  split
  · exact ⟨_, _, rfl, mss⟩
  · refine ⟨_, _, rfl, ?_⟩
    simp only [overhead] at *
    omega

theorem wndsize_eq (kcp : Ikcpcb) (sndwnd : Int) {rcvwnd : Int} (small : rcvwnd < 2 ^ 31)
    (window : wndRcv.toNat ≤ kcp.rcvWnd.toNat ∧ kcp.rcvWnd.toNat < 2 ^ 31) :
    ∃ sndWnd' rcvWnd', kcp.wndsize sndwnd rcvwnd = { kcp with sndWnd := sndWnd', rcvWnd := rcvWnd' } ∧
      wndRcv.toNat ≤ rcvWnd'.toNat ∧ rcvWnd'.toNat < 2 ^ 31 := by
  have larger : 0 < rcvwnd → wndRcv.toNat ≤ (imax (BitVec.ofInt 32 rcvwnd) wndRcv).toNat ∧
      (imax (BitVec.ofInt 32 rcvwnd) wndRcv).toNat < 2 ^ 31 := by
    intro positive
    have least : wndRcv.toNat = 128 := rfl
    rw [imax_toNat, toNat_of_int positive small]
    omega
  rw [wndsize]
  by_cases positive : 0 < rcvwnd
  · rw [if_pos positive]
    split <;> exact ⟨_, _, rfl, larger positive⟩
  · rw [if_neg positive]
    split <;> exact ⟨_, _, rfl, window⟩

theorem sound_session (conv : BitVec 32) (ints : settings.Ints) : (session conv settings).Sound := by
  have sizes : 0 < mtuDef - overhead ∧ mtuDef = mtuDef - overhead + overhead ∧ mtuDef < 2 ^ 31 := by
    decide
  have windows : wndRcv.toNat ≤ wndRcv.toNat ∧ wndRcv.toNat < 2 ^ 31 := by decide
  have remote : wndRcv.toNat < 2 ^ 16 := by decide
  rw [session]
  obtain ⟨nodelay, rxMinrto, interval, fastresend, nocwnd, timed⟩ := setNodelay_eq (create conv)
    settings.nodelay settings.interval settings.resend settings.nc
  rw [timed]
  obtain ⟨mtu, mss, sized, positive, exact⟩ := setmtu_eq
    { create conv with
      nodelay := nodelay
      rxMinrto := rxMinrto
      interval := interval
      fastresend := fastresend
      nocwnd := nocwnd } ints.mtxsize sizes
  rw [sized]
  obtain ⟨sndWnd, rcvWnd, windowed, window⟩ := wndsize_eq
    { create conv with
      nodelay := nodelay
      rxMinrto := rxMinrto
      interval := interval
      fastresend := fastresend
      nocwnd := nocwnd
      mtu := mtu
      mss := mss } settings.sndwnd ints.rcvwnd windows
  rw [windowed]
  exact .of_empty rfl rfl rfl rfl rfl window remote ⟨positive, exact⟩

theorem firstLength_eq (queue : List Segment) : firstLength queue = (merge queue).1.length := by
  induction queue with
  | nil => rfl
  | cons seg queue ih =>
      rw [firstLength, merge]
      split
      · rfl
      · rw [ih, List.length_append]

/-- What `ikcp_recv` does: nothing, or it takes the first message. -/
theorem recv_cases (kcp : Ikcpcb) (len : Int) :
    (kcp.recv len).1 < 0 ∧ (kcp.recv len).2 = ([], kcp) ∨
      kcp.rcvQueue ≠ [] ∧ 0 ≤ kcp.peeksize ∧ kcp.peeksize ≤ len.natAbs ∧
        kcp.recv len = (((merge kcp.rcvQueue).1.length : Int), (merge kcp.rcvQueue).1,
          (kcp.taken len).moveReady.fastRecover (kcp.rcvQueue.length ≥ kcp.rcvWnd.toNat)) := by
  rw [recv]
  by_cases none : kcp.rcvQueue = []
  · rw [if_pos none]
    exact .inl ⟨Int.negSucc_lt_zero 0, rfl⟩
  rw [if_neg none]
  by_cases incomplete : kcp.peeksize < 0
  · rw [if_pos incomplete]
    exact .inl ⟨Int.negSucc_lt_zero 1, rfl⟩
  rw [if_neg incomplete]
  by_cases large : kcp.peeksize > len.natAbs
  · rw [if_pos large]
    exact .inl ⟨Int.negSucc_lt_zero 2, rfl⟩
  · rw [if_neg large]
    exact .inr ⟨none, not_lt.mp incomplete, not_lt.mp large, rfl⟩

theorem peeksize_eq (complete : 0 ≤ kcp.peeksize) :
    kcp.peeksize = (merge kcp.rcvQueue).1.length := by
  rw [← firstLength_eq]
  rw [peeksize] at complete ⊢
  cases isQueue : kcp.rcvQueue with
  | nil =>
      rw [isQueue] at complete
      exact absurd complete (by decide)
  | cons seg queue =>
      rw [isQueue] at complete
      dsimp only at complete ⊢
      by_cases whole : seg.frg = 0
      · rw [if_pos whole, firstLength, if_pos whole]
      rw [if_neg whole] at complete ⊢
      by_cases missing : (seg :: queue).length < (seg.frg + 1).toNat
      · rw [if_pos missing] at complete
        exact absurd complete (by decide)
      · rw [if_neg missing]

theorem Sound.calls (sound : kcp.Sound) (calls : List Call) :
    (calls.foldl Ikcpcb.call kcp).Sound := by
  induction calls generalizing kcp with
  | nil => exact sound
  | cons call calls ih => exact ih (sound.call call)

theorem session_fixed (conv : BitVec 32) (settings : Settings) :
    (session conv settings).conv = conv ∧ (session conv settings).stream = 0 := by
  obtain ⟨nodelay, rxMinrto, interval, fastresend, nocwnd, timed⟩ := setNodelay_eq (create conv)
    settings.nodelay settings.interval settings.resend settings.nc
  rw [session, timed, setmtu, wndsize]
  repeat' split
  all_goals exact ⟨rfl, rfl⟩

end Session

end Ikcpcb

end Xten.Ikcp
