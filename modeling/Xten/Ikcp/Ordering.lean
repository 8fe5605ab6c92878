import Xten.Ikcp.Peers

/-!
# What each side knows of the other

The segments of one direction are the positions of one list, `wire`. The sender has put some of
them on the wire and forgets one only when the receiver has it; what the receiver holds under a
number is what stands at that position. Both survive every call, for as long as fewer than half of
the numbers are used.
-/

namespace Xten.Ikcp

open Std.SerialNumbers

theorem toNat_add_ofNat {nxt : BitVec 32} {count : Nat} (small : nxt.toNat + count < 2 ^ 32) :
    (nxt + BitVec.ofNat 32 count).toNat = nxt.toNat + count := by
  rw [BitVec.toNat_add, BitVec.toNat_ofNat]
  omega

theorem itimediff_toNat {later earlier : BitVec 32} (laterSmall : later.toNat < 2 ^ 31)
    (earlierSmall : earlier.toNat < 2 ^ 31) :
    itimediff later earlier = (later.toNat : Int) - earlier.toNat := by
  have range : (offset 0 later < 2 ^ 31) ∧ offset 0 earlier < 2 ^ 31 := by
    rw [offset_zero, offset_zero]
    exact ⟨laterSmall, earlierSmall⟩
  rw [itimediff_eq range.1 range.2, offset_zero, offset_zero]

/-- Numbers of a window do not come before its base, as long as nothing wraps. -/
theorem le_of_offset {base number : BitVec 32} (near : offset base number < 2 ^ 31)
    (baseSmall : base.toNat < 2 ^ 31) (numberSmall : number.toNat < 2 ^ 31) :
    base.toNat ≤ number.toNat := by
  rw [offset, BitVec.toNat_sub] at near
  omega

namespace Ikcpcb

/-- The segment with a number has arrived. -/
def Has (kcp : Ikcpcb) (n : Nat) : Prop :=
  n < kcp.rcvNxt.toNat ∨ ∃ seg ∈ kcp.rcvBuf, seg.sn.toNat = n

/-- The sender of `wire`, where `has` tells what the other side has. -/
structure Sends (wire : List Segment) (has : Nat → Prop) (kcp : Ikcpcb) : Prop where
  count : kcp.sndNxt.toNat ≤ wire.length
  queue : kcp.sndQueue = wire.drop kcp.sndNxt.toNat
  buf : ∀ seg ∈ kcp.sndBuf, seg.sn.toNat < kcp.sndNxt.toNat ∧ wire[seg.sn.toNat]? = some seg.frag
  /-- Nothing is forgotten before it has arrived. -/
  gone : ∀ n < kcp.sndNxt.toNat, (∃ seg ∈ kcp.sndBuf, seg.sn.toNat = n) ∨ has n

/-- The receiver of `wire`, of which the first `sent` segments have been on their way and those of
`begun` have been read. -/
structure Receives (wire : List Segment) (sent : Nat) (begun : List Segment) (kcp : Ikcpcb) :
    Prop where
  nxt : kcp.rcvNxt.toNat ≤ sent
  buf : ∀ seg ∈ kcp.rcvBuf, seg.sn.toNat < sent ∧ wire[seg.sn.toNat]? = some seg.frag
  queue : begun ++ kcp.rcvQueue.map Segment.frag = wire.take kcp.rcvNxt.toNat
  acks : ∀ ack ∈ kcp.acklist, kcp.Has ack.1.toNat

/-- What a control block has sent and received is not taken back. -/
structure Grows (before after : Ikcpcb) : Prop where
  sent : before.sndNxt.toNat ≤ after.sndNxt.toNat
  received : before.rcvNxt.toNat ≤ after.rcvNxt.toNat
  has : ∀ n, before.Has n → after.Has n

theorem Grows.refl (kcp : Ikcpcb) : kcp.Grows kcp :=
  ⟨le_rfl, le_rfl, fun _ => id⟩

theorem Grows.trans {first second third : Ikcpcb} (one : first.Grows second)
    (two : second.Grows third) : first.Grows third :=
  ⟨one.sent.trans two.sent, one.received.trans two.received, fun n has => two.has n (one.has n has)⟩

section Sending

variable {kcp : Ikcpcb} {wire more queue buf : List Segment} {has has' : Nat → Prop}
  {nxt : BitVec 32}

theorem Sends.weaken (sends : kcp.Sends wire has) (more : ∀ n, has n → has' n) :
    kcp.Sends wire has' :=
  { sends with
    gone := fun n isSent => (sends.gone n isSent).imp_right (more n) }

/-- Segments may go that the other side has. -/
theorem Sends.shrink (sends : kcp.Sends wire has) (fewer : buf ⊆ kcp.sndBuf)
    (known : ∀ seg ∈ kcp.sndBuf, seg ∈ buf ∨ has seg.sn.toNat) :
    ({ kcp with sndBuf := buf } : Ikcpcb).Sends wire has := by
  refine { sends with buf := fun seg isSeg => sends.buf seg (fewer isSeg), gone := ?_ }
  intro n isSent
  rcases sends.gone n isSent with ⟨seg, isSeg, rfl⟩ | arrived
  · rcases known seg isSeg with kept | arrived
    · exact .inl ⟨seg, kept, rfl⟩
    · exact .inr arrived
  · exact .inr arrived

theorem Sends.relabel (sends : kcp.Sends wire has)
    (same : buf.map Segment.load = kcp.sndBuf.map Segment.load) :
    ({ kcp with sndBuf := buf } : Ikcpcb).Sends wire has := by
  refine { sends with buf := ?_, gone := ?_ }
  · intro seg isSeg
    obtain ⟨other, isOther, alike⟩ := load_mem same isSeg
    have number : other.sn = seg.sn := congrArg (fun load => load.sn) alike
    rw [← number, ← Segment.frag_of_load alike]
    exact sends.buf other isOther
  · intro n isSent
    rcases sends.gone n isSent with ⟨seg, isSeg, rfl⟩ | arrived
    · obtain ⟨other, isOther, alike⟩ := load_mem same.symm isSeg
      have number : other.sn = seg.sn := congrArg (fun load => load.sn) alike
      exact .inl ⟨other, isOther, by rw [number]⟩
    · exact .inr arrived

theorem mem_stamped {seg : Segment} (isSeg : seg ∈ kcp.stamped nxt queue) :
    ∃ place < queue.length, seg.sn = nxt + BitVec.ofNat 32 place ∧
      (queue.map Segment.frag)[place]? = some seg.frag := by
  induction queue generalizing nxt with
  | nil => cases isSeg
  | cons first queue ih =>
      rcases List.mem_cons.mp isSeg with rfl | isSeg
      · exact ⟨0, Nat.succ_pos _, by simp [stamp], rfl⟩
      · obtain ⟨place, inside, number, frag⟩ := ih isSeg
        refine ⟨place + 1, Nat.succ_lt_succ inside, ?_, frag⟩
        rw [number, BitVec.ofNat_add, BitVec.add_assoc, BitVec.add_comm 1]
        rfl

theorem stamped_mem (kcp : Ikcpcb) (nxt : BitVec 32) {place : Nat} (inside : place < queue.length) :
    ∃ seg ∈ kcp.stamped nxt queue, seg.sn = nxt + BitVec.ofNat 32 place := by
  induction queue generalizing nxt place with
  | nil => exact absurd inside (Nat.not_lt_zero _)
  | cons first queue ih =>
      cases place with
      | zero => exact ⟨_, List.mem_cons_self, by simp [stamp]⟩
      | succ place =>
          have smaller : place < queue.length := Nat.lt_of_succ_lt_succ inside
          obtain ⟨seg, isSeg, number⟩ := ih (nxt + 1) smaller
          refine ⟨seg, List.mem_cons_of_mem _ isSeg, ?_⟩
          rw [number, BitVec.ofNat_add, BitVec.add_assoc, BitVec.add_comm 1]
          rfl

/-- More segments are put on the wire. -/
theorem Sends.moveQueue (sends : kcp.Sends wire has) (sound : kcp.Sound)
    (few : wire.length < 2 ^ 31) (plain : wire.map Segment.frag = wire) :
    (kcp.moveQueue kcp.flushWindow).Sends wire has ∧
      kcp.Grows (kcp.moveQueue kcp.flushWindow) := by
  have small : kcp.sndBound < 2 ^ 31 := by
    rw [sndBound]
    omega
  obtain ⟨moved, rest, split, admitted, -⟩ :=
    intoBuf_cases small (flushWindow_le sound) sound.unacked sound.una
  have queue : wire.drop kcp.sndNxt.toNat = moved ++ rest := sends.queue ▸ split
  have length : kcp.sndNxt.toNat + moved.length ≤ wire.length := by
    have count := sends.count
    have total := congrArg List.length queue
    rw [List.length_drop, List.length_append] at total
    omega
  have nxt : (kcp.sndNxt + BitVec.ofNat 32 moved.length).toNat =
      kcp.sndNxt.toNat + moved.length := toNat_add_ofNat (by omega)
  rw [Ikcpcb.moveQueue, admitted]
  refine ⟨⟨?_, ?_, ?_, ?_⟩, ⟨?_, le_rfl, fun _ => id⟩⟩
  · change (kcp.sndNxt + _).toNat ≤ wire.length
    rwa [nxt]
  · change rest = wire.drop (kcp.sndNxt + _).toNat
    rw [nxt, ← List.drop_drop, queue, List.drop_left]
  · intro seg isSeg
    change seg.sn.toNat < (kcp.sndNxt + _).toNat ∧ _
    rw [nxt]
    rcases List.mem_append.mp isSeg with isOld | isNew
    · obtain ⟨before, stands⟩ := sends.buf seg isOld
      exact ⟨by omega, stands⟩
    · obtain ⟨place, inside, number, frag⟩ := mem_stamped isNew
      have position : seg.sn.toNat = kcp.sndNxt.toNat + place := by
        rw [number]
        exact toNat_add_ofNat (by omega)
      have stands : wire[kcp.sndNxt.toNat + place]? = some seg.frag := by
        rw [← plain, ← frag, ← List.getElem?_drop, ← List.map_drop, queue, List.map_append,
          List.getElem?_append_left]
        rwa [List.length_map]
      rw [position]
      exact ⟨by omega, stands⟩
  · intro n isSent
    change n < (kcp.sndNxt + _).toNat at isSent
    rw [nxt] at isSent
    by_cases old : n < kcp.sndNxt.toNat
    · rcases sends.gone n old with ⟨seg, isSeg, number⟩ | arrived
      · exact .inl ⟨seg, List.mem_append_left _ isSeg, number⟩
      · exact .inr arrived
    · have inside : n - kcp.sndNxt.toNat < moved.length := by omega
      obtain ⟨seg, isSeg, number⟩ := stamped_mem kcp kcp.sndNxt inside
      refine .inl ⟨seg, List.mem_append_right _ isSeg, ?_⟩
      rw [number, toNat_add_ofNat (by omega)]
      omega
  · change kcp.sndNxt.toNat ≤ (kcp.sndNxt + _).toNat
    rw [nxt]
    exact Nat.le_add_right _ _

end Sending

section Receiving

variable {kcp : Ikcpcb} {wire begun moved : List Segment} {sent : Nat} {nxt : BitVec 32}

/-- The segments that are taken in order stand one after the other. -/
theorem follows_wire (follows : Follows nxt moved) (few : sent < 2 ^ 31) (le : nxt.toNat ≤ sent)
    (stands : ∀ seg ∈ moved, seg.sn.toNat < sent ∧ wire[seg.sn.toNat]? = some seg.frag) :
    (nxt + BitVec.ofNat 32 moved.length).toNat = nxt.toNat + moved.length ∧
      nxt.toNat + moved.length ≤ sent ∧
      moved.map Segment.frag = (wire.drop nxt.toNat).take moved.length ∧
      ∀ seg ∈ moved, seg.sn.toNat < nxt.toNat + moved.length := by
  induction moved generalizing nxt with
  | nil => exact ⟨by simp, le, rfl, by simp⟩
  | cons seg moved ih =>
      obtain ⟨rfl, follows⟩ := follows
      obtain ⟨before, here⟩ := stands seg List.mem_cons_self
      have next : (seg.sn + 1).toNat = seg.sn.toNat + 1 := 
        @toNat_add_ofNat seg.sn 1 (by omega)
      obtain ⟨inside, isHere⟩ := List.getElem?_eq_some_iff.mp here
      obtain ⟨count, bound, rest, near⟩ := ih follows (by omega) fun other isOther =>
        stands other (List.mem_cons_of_mem _ isOther)
      have counted : seg.sn + BitVec.ofNat 32 (moved.length + 1) =
          seg.sn + 1 + BitVec.ofNat 32 moved.length := by
        rw [BitVec.ofNat_add, BitVec.add_assoc, BitVec.add_comm 1]
        rfl
      rw [next] at count bound rest near
      rw [List.length_cons, counted]
      refine ⟨by omega, by omega, ?_, ?_⟩
      · rw [List.map_cons, rest, List.drop_eq_getElem_cons inside, isHere, List.take_succ_cons]
      · intro other isOther
        rcases List.mem_cons.mp isOther with rfl | isOther
        · omega
        · have := near other isOther
          omega

/-- The segments that are next in order are taken. -/
theorem Receives.moveReady (receives : kcp.Receives wire sent begun) (few : sent < 2 ^ 31)
    (window : Ahead kcp.rcvNxt kcp.rcvWnd.toNat (sns kcp.rcvBuf))
    (room : kcp.rcvQueue.length ≤ kcp.rcvWnd.toNat) :
    kcp.moveReady.Receives wire sent begun ∧ kcp.Grows kcp.moveReady := by
  obtain ⟨moved, rest, split, taken, follows, -⟩ := takeReady_cases window room
  have stands := receives.buf
  rw [split] at stands
  obtain ⟨count, bound, frags, near⟩ := follows_wire follows few receives.nxt fun seg isSeg =>
    stands seg (List.mem_append_left _ isSeg)
  have grows : kcp.Grows kcp.moveReady := by
    rw [Ikcpcb.moveReady, taken]
    refine ⟨le_rfl, ?_, ?_⟩
    · change kcp.rcvNxt.toNat ≤ (kcp.rcvNxt + _).toNat
      omega
    · rintro n (before | ⟨seg, isSeg, rfl⟩)
      · left
        change n < (kcp.rcvNxt + _).toNat
        omega
      · rw [split] at isSeg
        rcases List.mem_append.mp isSeg with isMoved | isRest
        · left
          change seg.sn.toNat < (kcp.rcvNxt + _).toNat
          rw [count]
          exact near seg isMoved
        · exact .inr ⟨seg, isRest, rfl⟩
  refine ⟨⟨?_, ?_, ?_, fun ack isAck => grows.has _ (receives.acks ack isAck)⟩, grows⟩
  all_goals rw [Ikcpcb.moveReady, taken]
  · change (kcp.rcvNxt + _).toNat ≤ sent
    omega
  · exact fun seg isRest => stands seg (List.mem_append_right _ isRest)
  · change begun ++ (kcp.rcvQueue ++ moved).map Segment.frag = wire.take (kcp.rcvNxt + _).toNat
    rw [count, List.map_append, ← List.append_assoc, receives.queue, frags, List.take_add]

end Receiving

section Frames

variable {kcp after : Ikcpcb} {wire begun : List Segment} {sent : Nat} {has : Nat → Prop}

/-- What `Sends` looks at. -/
def outgoing (kcp : Ikcpcb) : BitVec 32 × List Segment × List Segment :=
  (kcp.sndNxt, kcp.sndQueue, kcp.sndBuf)

/-- What `Receives` looks at, but for the acknowledgements that are due. -/
def incoming (kcp : Ikcpcb) : BitVec 32 × List Segment × List Segment :=
  (kcp.rcvNxt, kcp.rcvQueue, kcp.rcvBuf)

theorem Sends.congr (sends : kcp.Sends wire has) (same : after.outgoing = kcp.outgoing) :
    after.Sends wire has := by
  have nxt : after.sndNxt = kcp.sndNxt := congrArg Prod.fst same
  have queue : after.sndQueue = kcp.sndQueue := congrArg (fun out => out.2.1) same
  have buf : after.sndBuf = kcp.sndBuf := congrArg (fun out => out.2.2) same
  constructor <;> rw [nxt]
  · exact sends.count
  · rw [queue]
    exact sends.queue
  · rw [buf]
    exact sends.buf
  · rw [buf]
    exact sends.gone

theorem has_congr (same : after.incoming = kcp.incoming) (n : Nat) : after.Has n ↔ kcp.Has n := by
  have nxt : after.rcvNxt = kcp.rcvNxt := congrArg Prod.fst same
  have buf : after.rcvBuf = kcp.rcvBuf := congrArg (fun held => held.2.2) same
  rw [Has, Has, nxt, buf]

theorem Receives.congr (receives : kcp.Receives wire sent begun)
    (same : after.incoming = kcp.incoming) (acks : ∀ ack ∈ after.acklist, kcp.Has ack.1.toNat) :
    after.Receives wire sent begun := by
  have nxt : after.rcvNxt = kcp.rcvNxt := congrArg Prod.fst same
  have queue : after.rcvQueue = kcp.rcvQueue := congrArg (fun held => held.2.1) same
  have buf : after.rcvBuf = kcp.rcvBuf := congrArg (fun held => held.2.2) same
  refine ⟨?_, ?_, ?_, fun ack isAck => (has_congr same _).mpr (acks ack isAck)⟩
  · rw [nxt]
    exact receives.nxt
  · rw [buf]
    exact receives.buf
  · rw [nxt, queue]
    exact receives.queue

theorem Grows.congr (outgoing : after.sndNxt = kcp.sndNxt)
    (incoming : after.incoming = kcp.incoming) : kcp.Grows after := by
  have nxt : after.rcvNxt = kcp.rcvNxt := congrArg Prod.fst incoming
  exact ⟨by rw [outgoing], by rw [nxt], fun n has => (has_congr incoming n).mpr has⟩

end Frames

section Input

variable {kcp : Ikcpcb} {wire begun : List Segment} {sent : Nat} {has : Nat → Prop}
  {seg : Segment} {maxack : Option (BitVec 32)}

theorem mem_dropWhile {gone : Segment → Bool} {buf : List Segment} (isSeg : seg ∈ buf)
    (stays : gone seg = false) : seg ∈ buf.dropWhile gone := by
  induction buf with
  | nil => cases isSeg
  | cons first buf ih =>
      rw [List.dropWhile_cons]
      split
      case isTrue drops =>
        rcases List.mem_cons.mp isSeg with rfl | isSeg
        · exact absurd drops (by rw [stays]; decide)
        · exact ih isSeg
      case isFalse => exact isSeg

/-- What the other side has acknowledged is forgotten. -/
theorem Sends.parseUna (sends : kcp.Sends wire has) (few : wire.length < 2 ^ 31) {una : BitVec 32}
    (small : una.toNat < 2 ^ 31) (acked : ∀ n < una.toNat, has n) :
    (kcp.parseUna una).Sends wire has := by
  refine sends.shrink (List.dropWhile_sublist _).subset fun seg isSeg => ?_
  by_cases passed : itimediff una seg.sn > 0
  · right
    have before := (sends.buf seg isSeg).1
    have count := sends.count
    rw [itimediff_toNat small (by omega)] at passed
    exact acked _ (by omega)
  · exact .inl (mem_dropWhile isSeg (by simpa using passed))

theorem Sends.parseAck (sends : kcp.Sends wire has) {sn : BitVec 32} (acked : has sn.toNat) :
    (kcp.parseAck sn).Sends wire has := by
  rw [Ikcpcb.parseAck]
  split
  · exact sends
  · refine sends.shrink removeAcked_sublist.subset fun seg isSeg => ?_
    by_cases same : seg.sn = sn
    · exact .inr (same ▸ acked)
    · exact .inl (mem_removeAcked isSeg same)

theorem outgoing_shrinkBuf : kcp.shrinkBuf.outgoing = kcp.outgoing := by
  rw [shrinkBuf_eq]
  rfl

theorem incoming_shrinkBuf : kcp.shrinkBuf.incoming = kcp.incoming := by
  rw [shrinkBuf_eq]
  rfl

theorem acklist_shrinkBuf : kcp.shrinkBuf.acklist = kcp.acklist := by
  rw [shrinkBuf_eq]

theorem sndNxt_shrinkBuf : kcp.shrinkBuf.sndNxt = kcp.sndNxt := by
  rw [shrinkBuf_eq]

theorem Sends.inputAck (sends : kcp.Sends wire has) (acked : has seg.sn.toNat) :
    (kcp.inputAck seg).Sends wire has := by
  obtain ⟨rttval, srtt, rto, same⟩ := kcp.inputAck_eq seg
  have timed : ({ kcp with rxRttval := rttval, rxSrtt := srtt, rxRto := rto } : Ikcpcb).Sends
      wire has := { sends with }
  rw [same]
  exact (timed.parseAck acked).congr outgoing_shrinkBuf

theorem outgoing_inputPush : (kcp.inputPush seg).outgoing = kcp.outgoing := by
  have parsed (kcp : Ikcpcb) : (kcp.parseData seg).outgoing = kcp.outgoing := by
    rw [parseData]
    split <;> rfl
  rw [inputPush]
  dsimp only
  split
  · split
    · exact parsed _
    · rfl
  · rfl

/-- What the sender knows survives a segment of the other side that tells the truth. -/
theorem Sends.inputSegment (sends : kcp.Sends wire has) (few : wire.length < 2 ^ 31)
    (small : seg.una.toNat < 2 ^ 31) (acked : ∀ n < seg.una.toNat, has n)
    (ack : seg.cmd = cmdAck → has seg.sn.toNat) :
    (kcp.inputSegment maxack seg).1.Sends wire has := by
  have known : ({ kcp with rmtWnd := seg.wnd } : Ikcpcb).Sends wire has := { sends with }
  have shrunk : ({ kcp with rmtWnd := seg.wnd }.parseUna seg.una).shrinkBuf.Sends wire has :=
    (known.parseUna few small acked).congr outgoing_shrinkBuf
  rw [Ikcpcb.inputSegment]
  split
  case isTrue isAck => exact shrunk.inputAck (ack isAck)
  case isFalse =>
    split
    · exact shrunk.congr outgoing_inputPush
    · split
      · exact { shrunk with }
      · exact shrunk

theorem Has.place {buf : List Segment} {n : Nat} (newseg : Segment)
    (has : ({ kcp with rcvBuf := buf } : Ikcpcb).Has n) (kept : buf ⊆ Ikcpcb.place newseg buf) :
    ({ kcp with rcvBuf := Ikcpcb.place newseg buf } : Ikcpcb).Has n := by
  rcases has with before | ⟨seg, isSeg, number⟩
  · exact .inl before
  · exact .inr ⟨seg, kept isSeg, number⟩

/-- A segment of the wire arrives. -/
theorem Receives.parseData (receives : kcp.Receives wire sent begun) (sound : kcp.Sound)
    (few : sent < 2 ^ 31) (stands : seg.sn.toNat < sent ∧ wire[seg.sn.toNat]? = some seg.frag)
    (inside : offset kcp.rcvNxt seg.sn < kcp.rcvWnd.toNat) :
    (kcp.parseData seg).Receives wire sent begun ∧ kcp.Grows (kcp.parseData seg) ∧
      (kcp.parseData seg).Has seg.sn.toNat := by
  have within := (in_window_iff sound.window.2).mpr inside
  have range : kcp.rcvWnd.toNat ≤ 2 ^ 31 := sound.window.2.le
  have placed : kcp.rcvBuf ⊆ Ikcpcb.place seg kcp.rcvBuf ∧
      (∀ other ∈ Ikcpcb.place seg kcp.rcvBuf, other = seg ∨ other ∈ kcp.rcvBuf) ∧
      ∃ other ∈ Ikcpcb.place seg kcp.rcvBuf, other.sn = seg.sn := by
    rcases place_cases range inside sound.ahead with
      ⟨same, isThere⟩ | ⟨before, behind, split, same, -, -⟩
    · rw [same]
      exact ⟨List.Subset.refl _, fun other => .inr, List.mem_map.mp isThere⟩
    · rw [same, split]
      refine ⟨?_, ?_, seg, by simp, rfl⟩
      · intro other isOther
        rcases List.mem_append.mp isOther with isOther | isOther <;> simp [isOther]
      · intro other isOther
        simpa [or_left_comm] using isOther
  obtain ⟨kept, onlyNew, isIn⟩ := placed
  have grown : ({ kcp with rcvBuf := Ikcpcb.place seg kcp.rcvBuf } : Ikcpcb).Receives wire sent
      begun := by
    refine { receives with buf := ?_, acks := ?_ }
    · intro other isOther
      rcases onlyNew other isOther with rfl | isOld
      · exact stands
      · exact receives.buf other isOld
    · intro ack isAck
      exact Has.place seg (receives.acks ack isAck) kept
  have moved := grown.moveReady few (sound.place inside) sound.queued
  rw [Ikcpcb.parseData, if_neg (by rw [not_or, not_le, not_lt]; exact within)]
  refine ⟨moved.1, ⟨moved.2.sent, moved.2.received, fun n has => moved.2.has n ?_⟩,
    moved.2.has _ ?_⟩
  · exact Has.place seg has kept
  · obtain ⟨other, isOther, number⟩ := isIn
    exact .inr ⟨other, isOther, by rw [number]⟩

theorem Receives.ackPush (receives : kcp.Receives wire sent begun) {sn : BitVec 32}
    (has : kcp.Has sn.toNat) (ts : BitVec 32) : (kcp.ackPush sn ts).Receives wire sent begun := by
  refine receives.congr rfl fun ack isAck => ?_
  rcases List.mem_append.mp isAck with isOld | isNew
  · exact receives.acks ack isOld
  · rwa [List.mem_singleton.mp isNew]

theorem parseData_ackPush (sn ts : BitVec 32) :
    (kcp.ackPush sn ts).parseData seg = (kcp.parseData seg).ackPush sn ts := by
  rw [parseData, parseData]
  change (if itimediff seg.sn (kcp.rcvNxt + kcp.rcvWnd) ≥ 0 ∨ itimediff seg.sn kcp.rcvNxt < 0 then _
    else _) = _
  split <;> rfl

/-- A segment is acknowledged only once it has arrived. -/
theorem Receives.inputPush (receives : kcp.Receives wire sent begun) (sound : kcp.Sound)
    (few : sent < 2 ^ 31) (stands : seg.sn.toNat < sent ∧ wire[seg.sn.toNat]? = some seg.frag) :
    (kcp.inputPush seg).Receives wire sent begun ∧ kcp.Grows (kcp.inputPush seg) := by
  rw [Ikcpcb.inputPush]
  split
  case isFalse => exact ⟨receives, .refl kcp⟩
  case isTrue below =>
    have nxt := receives.nxt
    dsimp only
    split
    case isTrue ahead =>
      have inside := (in_window_iff sound.window.2).mp ⟨below, ahead⟩
      obtain ⟨parsed, grows, has⟩ := receives.parseData sound few stands inside
      rw [parseData_ackPush]
      exact ⟨parsed.ackPush has _, grows.trans (.congr rfl rfl)⟩
    case isFalse old =>
      change ¬ itimediff seg.sn kcp.rcvNxt ≥ 0 at old
      rw [itimediff_toNat (by omega) (by omega)] at old
      exact ⟨receives.ackPush (.inl (by omega)) _, .congr rfl rfl⟩

theorem incoming_inputAck (kcp : Ikcpcb) (seg : Segment) :
    (kcp.inputAck seg).incoming = kcp.incoming ∧ (kcp.inputAck seg).acklist = kcp.acklist ∧
      (kcp.inputAck seg).sndNxt = kcp.sndNxt := by
  obtain ⟨rttval, srtt, rto, same⟩ := kcp.inputAck_eq seg
  rw [same, incoming_shrinkBuf, acklist_shrinkBuf, shrinkBuf_eq, parseAck]
  split <;> exact ⟨rfl, rfl, rfl⟩

/-- What the receiver knows survives a segment of the other side that tells the truth. -/
theorem Receives.inputSegment (receives : kcp.Receives wire sent begun) (sound : kcp.Sound)
    (few : sent < 2 ^ 31) (remote : seg.wnd.toNat < 2 ^ 16)
    (push : seg.cmd = cmdPush → seg.sn.toNat < sent ∧ wire[seg.sn.toNat]? = some seg.frag) :
    (kcp.inputSegment maxack seg).1.Receives wire sent begun ∧
      kcp.Grows (kcp.inputSegment maxack seg).1 := by
  have known : ({ kcp with rmtWnd := seg.wnd } : Ikcpcb).Sound := { sound with remote := remote }
  have shrunk : ({ kcp with rmtWnd := seg.wnd }.parseUna seg.una).shrinkBuf.Sound :=
    known.shrink (List.dropWhile_sublist _)
  have same : ({ kcp with rmtWnd := seg.wnd }.parseUna seg.una).shrinkBuf.incoming = kcp.incoming :=
    incoming_shrinkBuf
  have acks : ({ kcp with rmtWnd := seg.wnd }.parseUna seg.una).shrinkBuf.acklist = kcp.acklist :=
    acklist_shrinkBuf
  have nxt : ({ kcp with rmtWnd := seg.wnd }.parseUna seg.una).shrinkBuf.sndNxt = kcp.sndNxt :=
    sndNxt_shrinkBuf
  rw [Ikcpcb.inputSegment]
  generalize ({ kcp with rmtWnd := seg.wnd }.parseUna seg.una).shrinkBuf = middle at *
  have first : middle.Receives wire sent begun := receives.congr same (by rw [acks]; exact receives.acks)
  have grows : kcp.Grows middle := .congr nxt same
  split
  · obtain ⟨held, left, next⟩ := incoming_inputAck middle seg
    exact ⟨first.congr held (by rw [left]; exact first.acks), grows.trans (.congr next held)⟩
  · split
    case isTrue isPush =>
      obtain ⟨received, more⟩ := first.inputPush shrunk few (push isPush)
      exact ⟨received, grows.trans more⟩
    case isFalse =>
      split
      · exact ⟨first.congr rfl first.acks, grows.trans (.congr rfl rfl)⟩
      · exact ⟨first, grows⟩

end Input

end Ikcpcb

end Xten.Ikcp
