import Xten.Ikcp.Flush

/-!
# The windows

What holds of a control block whatever datagrams it is given. Both windows are stated relative to
a number that moves on, so that nothing depends on where in the 32-bit range they are.
-/

namespace Xten.Ikcp

open Std.SerialNumbers

/-- What all copies of a segment that is sent share. -/
def Segment.load (seg : Segment) : Segment :=
  { seg with wnd := 0, ts := 0, una := 0, resendts := 0, rto := 0, fastack := 0, xmit := 0 }

theorem itimediff_eq {base first second : BitVec 32} (firstIn : offset base first < 2 ^ 31)
    (secondIn : offset base second < 2 ^ 31) :
    itimediff first second = (offset base first : Int) - offset base second :=
  diff_eq_offset (by norm_num) firstIn secondIn

theorem itimediff_nonneg_iff {base number : BitVec 32} :
    0 ≤ itimediff number base ↔ offset base number < 2 ^ 31 :=
  diff_nonneg_iff (by norm_num)

/-- A segment that fits into a datagram, and its fragment number into a byte. -/
def Segment.Fits (mss : Nat) (seg : Segment) : Prop :=
  seg.frg.toNat < 2 ^ 7 ∧ seg.data.length ≤ mss

/-- The numbers of some segments. -/
abbrev sns (segs : List Segment) : List (BitVec 32) :=
  segs.map Segment.sn

theorem sns_of_load {first second : List Segment}
    (same : first.map Segment.load = second.map Segment.load) : sns first = sns second := by
  have numbers := congrArg (List.map Segment.sn) same
  rwa [List.map_map, List.map_map] at numbers

theorem load_mem {first second : List Segment} {seg : Segment}
    (same : first.map Segment.load = second.map Segment.load) (isFirst : seg ∈ first) :
    ∃ other ∈ second, other.load = seg.load := by
  have isLoad : seg.load ∈ second.map Segment.load := same ▸ List.mem_map_of_mem isFirst
  exact List.mem_map.mp isLoad

namespace Ikcpcb

/-- The first number of `snd_buf`, or the next if there is none. -/
def firstUnacked (nxt : BitVec 32) : List Segment → BitVec 32
  | [] => nxt
  | seg :: _ => seg.sn

theorem firstUnacked_eq (nxt : BitVec 32) (buf : List Segment) :
    firstUnacked nxt buf = (sns buf).headD nxt := by
  cases buf <;> rfl

/-- No more than this many segments are on their way. -/
def sndBound (kcp : Ikcpcb) : Nat :=
  min kcp.sndWnd.toNat (2 ^ 16 - 1)

/-- A segment of `snd_buf`. -/
def Pushes (kcp : Ikcpcb) (seg : Segment) : Prop :=
  seg.conv = kcp.conv ∧ seg.cmd = cmdPush ∧ seg.Fits kcp.mss

/-- What every call keeps. -/
structure Sound (kcp : Ikcpcb) : Prop where
  una : kcp.sndUna = firstUnacked kcp.sndNxt kcp.sndBuf
  unacked : Behind kcp.sndNxt kcp.sndBound (sns kcp.sndBuf)
  ahead : Ahead kcp.rcvNxt kcp.rcvWnd.toNat (sns kcp.rcvBuf)
  queued : kcp.rcvQueue.length ≤ kcp.rcvWnd.toNat
  /-- The next segment waits in `rcv_buf` only while `rcv_queue` is full. -/
  stalled : kcp.rcvNxt ∈ sns kcp.rcvBuf → kcp.rcvWnd.toNat ≤ kcp.rcvQueue.length
  window : wndRcv.toNat ≤ kcp.rcvWnd.toNat ∧ kcp.rcvWnd.toNat < 2 ^ 31
  remote : kcp.rmtWnd.toNat < 2 ^ 16
  mss : 0 < kcp.mss ∧ kcp.mtu = kcp.mss + overhead ∧ kcp.mtu < 2 ^ 31
  waiting : ∀ seg ∈ kcp.sndQueue, seg.Fits kcp.mss
  pushes : ∀ seg ∈ kcp.sndBuf, kcp.Pushes seg

section Frames

variable (kcp : Ikcpcb)

/-- `ikcp_update_ack` changes nothing but the round trip times. -/
theorem updateAck_eq (rtt : BitVec 32) : ∃ rttval srtt rto,
    kcp.updateAck rtt = { kcp with rxRttval := rttval, rxSrtt := srtt, rxRto := rto } := by
  rw [updateAck]
  split <;> exact ⟨_, _, _, rfl⟩

theorem growWindow_eq : ∃ cwnd incr, kcp.growWindow = { kcp with cwnd := cwnd, incr := incr } := by
  rw [growWindow]
  dsimp only
  repeat' split
  all_goals exact ⟨_, _, rfl⟩

theorem timeProbe_eq : ∃ wait ts probe,
    kcp.timeProbe = { kcp with probeWait := wait, tsProbe := ts, probe := probe } := by
  rw [timeProbe]
  dsimp only
  split
  · split
    · exact ⟨_, _, _, rfl⟩
    · split <;> exact ⟨_, _, _, rfl⟩
  · exact ⟨_, _, _, rfl⟩

theorem updateThresh_eq (pass : Pass) (window : BitVec 32) : ∃ thresh cwnd incr,
    kcp.updateThresh pass window = { kcp with ssthresh := thresh, cwnd := cwnd, incr := incr } := by
  rw [updateThresh]
  dsimp only
  repeat' split
  all_goals exact ⟨_, _, _, rfl⟩

theorem shrinkBuf_eq : kcp.shrinkBuf = { kcp with sndUna := firstUnacked kcp.sndNxt kcp.sndBuf } := by
  rw [shrinkBuf]
  split <;> rename_i buf <;> rw [buf] <;> rfl

theorem inputAck_eq (seg : Segment) : ∃ rttval srtt rto,
    kcp.inputAck seg =
      ({ kcp with rxRttval := rttval, rxSrtt := srtt, rxRto := rto }.parseAck seg.sn).shrinkBuf := by
  rw [inputAck]
  split
  · obtain ⟨rttval, srtt, rto, same⟩ := kcp.updateAck_eq (kcp.current - seg.ts)
    rw [same]
    exact ⟨_, _, _, rfl⟩
  · exact ⟨_, _, _, rfl⟩

/-- `ikcp_update` sets the clock, and may flush. -/
theorem update_eq (current : BitVec 32) : ∃ tsFlush,
    kcp.update current = { kcp with current, updated := true, tsFlush }.flush ∨
      kcp.update current = ({ kcp with current, updated := true, tsFlush }, []) := by
  rw [update]
  dsimp only
  by_cases updated : kcp.updated = true
  · rw [if_pos updated]
    split <;> split
    all_goals simp only [← updated]
    all_goals first | exact ⟨_, .inl rfl⟩ | exact ⟨_, .inr rfl⟩
  · rw [if_neg updated]
    split <;> split <;> first | exact ⟨_, .inl rfl⟩ | exact ⟨_, .inr rfl⟩

end Frames

section Acknowledged

variable {kcp : Ikcpcb} {sn : BitVec 32} {buf : List Segment}

theorem removeAcked_sublist : (removeAcked sn buf).Sublist buf := by
  induction buf with
  | nil => exact .slnil
  | cons seg buf ih =>
      rw [removeAcked]
      split
      · exact .cons _ (.refl _)
      · split
        · exact .refl _
        · exact .cons_cons _ ih

/-- Only the segment that has the number is gone. -/
theorem mem_removeAcked {seg : Segment} (isSeg : seg ∈ buf) (other : seg.sn ≠ sn) :
    seg ∈ removeAcked sn buf := by
  induction buf with
  | nil => cases isSeg
  | cons first buf ih =>
      rw [removeAcked]
      split
      case isTrue same =>
        rcases List.mem_cons.mp isSeg with rfl | isSeg
        · exact absurd same.symm other
        · exact isSeg
      case isFalse =>
        split
        · exact isSeg
        · rcases List.mem_cons.mp isSeg with rfl | isSeg
          · exact List.mem_cons_self
          · exact List.mem_cons_of_mem _ (ih isSeg)

theorem skipped_load : (skipped sn buf).map Segment.load = buf.map Segment.load := by
  induction buf with
  | nil => rfl
  | cons seg buf ih =>
      rw [skipped]
      split
      · rfl
      · split <;> exact congrArg (seg.load :: ·) ih

/-- The end of a datagram changes the congestion window, and no segment but in its times. -/
theorem inputEnd_eq (kcp : Ikcpcb) (una : BitVec 32) (maxack : Option (BitVec 32)) :
    ∃ buf cwnd incr, kcp.inputEnd una maxack = { kcp with sndBuf := buf, cwnd, incr } ∧
      buf.map Segment.load = kcp.sndBuf.map Segment.load := by
  have acked : ∃ buf, kcp.fastAcked maxack = { kcp with sndBuf := buf } ∧
      buf.map Segment.load = kcp.sndBuf.map Segment.load := by
    cases maxack with
    | none => exact ⟨_, rfl, rfl⟩
    | some maxack =>
        change ∃ buf, kcp.parseFastack maxack = _ ∧ _
        rw [parseFastack]
        split
        · exact ⟨_, rfl, rfl⟩
        · exact ⟨_, rfl, skipped_load⟩
  obtain ⟨buf, same, loads⟩ := acked
  obtain ⟨cwnd, incr, grown⟩ := ({ kcp with sndBuf := buf } : Ikcpcb).growWindow_eq
  rw [inputEnd, same]
  split
  · exact ⟨buf, cwnd, incr, grown, loads⟩
  · exact ⟨buf, _, _, rfl, loads⟩

/-- Fewer segments on their way. -/
theorem Sound.shrink (sound : kcp.Sound) (fewer : buf.Sublist kcp.sndBuf) :
    ({ kcp with sndBuf := buf }.shrinkBuf).Sound := by
  rw [shrinkBuf_eq]
  refine { sound with una := rfl, unacked := ?_, pushes := ?_ }
  · exact sound.unacked.sublist (fewer.map _)
  · intro seg isSeg
    exact sound.pushes seg (fewer.subset isSeg)

/-- The same segments with other times. -/
theorem Sound.relabel (sound : kcp.Sound)
    (same : buf.map Segment.load = kcp.sndBuf.map Segment.load) :
    ({ kcp with sndBuf := buf } : Ikcpcb).Sound := by
  have numbers := sns_of_load same
  refine { sound with una := ?_, unacked := ?_, pushes := ?_ }
  · change kcp.sndUna = _
    rw [sound.una, firstUnacked_eq, firstUnacked_eq, numbers]
  · change Behind _ _ (sns buf)
    rw [numbers]
    exact sound.unacked
  · intro seg isSeg
    obtain ⟨other, isOther, alike⟩ := load_mem same isSeg
    have pushes := sound.pushes other isOther
    have conv : other.conv = seg.conv := congrArg (fun load => load.conv) alike
    have cmd : other.cmd = seg.cmd := congrArg (fun load => load.cmd) alike
    have frg : other.frg = seg.frg := congrArg (fun load => load.frg) alike
    have data : other.data = seg.data := congrArg (fun load => load.data) alike
    rw [Pushes, Segment.Fits, conv, cmd, frg, data] at pushes
    exact pushes

end Acknowledged

section Arrived

variable {kcp : Ikcpcb} {newseg : Segment} {buf queue : List Segment} {base nxt wnd : BitVec 32}
  {bound : Nat}

/-- Where a new segment is put: nowhere if its number is there, else in order. -/
theorem placeBack_cases (range : bound ≤ 2 ^ 31) (near : offset base newseg.sn < bound)
    (window : Ahead base bound (sns buf.reverse)) :
    placeBack newseg buf = none ∧ newseg.sn ∈ sns buf ∨
      ∃ behind before, buf = behind ++ before ∧
        placeBack newseg buf = some (behind ++ newseg :: before) ∧
        (∀ seg ∈ behind, offset base newseg.sn < offset base seg.sn) ∧
        ∀ seg ∈ before, offset base seg.sn < offset base newseg.sn := by
  induction buf with
  | nil => exact .inr ⟨[], [], rfl, rfl, by simp, by simp⟩
  | cons last buf ih =>
      rw [sns, List.reverse_cons, List.map_append] at window
      obtain ⟨sorted, -, across⟩ := List.pairwise_append.mp window.sorted
      have lastNear : offset base last.sn < bound := window.near _ (by simp)
      have before : ∀ seg ∈ buf, offset base seg.sn < offset base last.sn := by
        intro seg isSeg
        apply across <;> simp
        exact ⟨seg, isSeg, rfl⟩
      have smaller : Ahead base bound (sns buf.reverse) :=
        ⟨sorted, fun number isNumber => window.near number (List.mem_append_left _ isNumber)⟩
      rw [placeBack]
      by_cases same : last.sn = newseg.sn
      · exact .inl ⟨if_pos same, by simp [same]⟩
      have apart : offset base last.sn ≠ offset base newseg.sn := fun equal =>
        same (offset_inj.mp equal)
      have ahead : itimediff newseg.sn last.sn > 0 ↔
          offset base last.sn < offset base newseg.sn := by
        have difference : itimediff newseg.sn last.sn =
            (offset base newseg.sn : Int) - offset base last.sn :=
          itimediff_eq (by omega) (by omega)
        rw [difference]
        omega
      rw [if_neg same]
      by_cases larger : itimediff newseg.sn last.sn > 0
      · rw [if_pos larger]
        refine .inr ⟨[], last :: buf, rfl, rfl, by simp, ?_⟩
        intro seg isSeg
        rcases List.mem_cons.mp isSeg with rfl | isSeg
        · exact ahead.mp larger
        · exact (before seg isSeg).trans (ahead.mp larger)
      rw [if_neg larger]
      rcases ih smaller with ⟨none, isThere⟩ | ⟨behind, rest, rfl, placed, isBehind, isBefore⟩
      · exact .inl ⟨by rw [none]; rfl, List.mem_cons_of_mem _ isThere⟩
      · refine .inr ⟨last :: behind, rest, rfl, by rw [placed]; rfl, ?_, isBefore⟩
        intro seg isSeg
        rcases List.mem_cons.mp isSeg with rfl | isSeg
        · have := mt ahead.mpr larger
          omega
        · exact isBehind seg isSeg

theorem place_cases (range : bound ≤ 2 ^ 31) (near : offset base newseg.sn < bound)
    (window : Ahead base bound (sns buf)) :
    place newseg buf = buf ∧ newseg.sn ∈ sns buf ∨
      ∃ before behind, buf = before ++ behind ∧ place newseg buf = before ++ newseg :: behind ∧
        (∀ seg ∈ before, offset base seg.sn < offset base newseg.sn) ∧
        ∀ seg ∈ behind, offset base newseg.sn < offset base seg.sn := by
  have reversed : Ahead base bound (sns buf.reverse.reverse) := by
    rwa [List.reverse_reverse]
  rw [place]
  rcases placeBack_cases range near reversed with
    ⟨none, isThere⟩ | ⟨behind, before, split, placed, isBehind, isBefore⟩
  · rw [none]
    exact .inl ⟨rfl, by simpa using isThere⟩
  · rw [placed]
    refine .inr ⟨before.reverse, behind.reverse, ?_, by simp, by simpa using isBefore,
      by simpa using isBehind⟩
    rw [← List.reverse_append, ← split, List.reverse_reverse]

/-- Numbers that follow on each other. -/
def Follows (nxt : BitVec 32) : List Segment → Prop
  | [] => True
  | seg :: segs => seg.sn = nxt ∧ Follows (nxt + 1) segs

/-- What `rcv_queue` is given: the segments that are next in order, as far as it has room. -/
theorem takeReady_cases (window : Ahead nxt bound (sns buf)) (room : queue.length ≤ wnd.toNat) :
    ∃ moved rest, buf = moved ++ rest ∧
      takeReady wnd buf queue nxt =
        (rest, queue ++ moved, nxt + BitVec.ofNat 32 moved.length) ∧
      Follows nxt moved ∧
      Ahead (nxt + BitVec.ofNat 32 moved.length) bound (sns rest) ∧
      (queue ++ moved).length ≤ wnd.toNat ∧
      (nxt + BitVec.ofNat 32 moved.length ∈ sns rest → wnd.toNat ≤ (queue ++ moved).length) := by
  induction buf generalizing queue nxt with
  | nil => exact ⟨[], [], rfl, by simp [takeReady], trivial, .nil, by simpa using room, by simp⟩
  | cons seg buf ih =>
      rw [takeReady]
      by_cases ready : seg.sn = nxt ∧ queue.length < wnd.toNat
      · obtain ⟨isNext, free⟩ := ready
        subst isNext
        have longer : (queue ++ [seg]).length ≤ wnd.toNat := by simpa using free
        obtain ⟨moved, rest, rfl, taken, follows, ahead, fits, stalls⟩ := ih window.advance longer
        have counted : seg.sn + BitVec.ofNat 32 (moved.length + 1) =
            seg.sn + 1 + BitVec.ofNat 32 moved.length := by
          rw [BitVec.ofNat_add, BitVec.add_assoc, BitVec.add_comm 1]
          rfl
        rw [if_pos ⟨rfl, free⟩, taken]
        refine ⟨seg :: moved, rest, rfl, ?_, ⟨rfl, follows⟩, ?_, ?_, ?_⟩
        · rw [List.length_cons, counted, List.append_assoc]
          rfl
        · rwa [List.length_cons, counted]
        · simpa [List.append_assoc] using fits
        · rw [List.length_cons, counted]
          simpa [List.append_assoc] using stalls
      · rw [if_neg ready]
        refine ⟨[], seg :: buf, rfl, by simp, trivial, by simpa using window, by simpa using room, ?_⟩
        intro isNext
        rw [List.append_nil]
        by_contra free
        -- No number but the first can be the next: the others are further ahead.
        rcases List.mem_cons.mp isNext with same | later
        · exact ready ⟨by simpa using same.symm, not_le.mp free⟩
        · have further := (List.pairwise_cons.mp window.sorted).1 _ later
          simp at further

end Arrived

end Ikcpcb

end Xten.Ikcp
