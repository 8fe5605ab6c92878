import Xten.Ikcp.Onward

/-!
# No state is stuck

From every state that two sessions get to, updates, arrivals and reads bring every message to the
other side, and every acknowledgement back.
-/

namespace Xten.Ikcp

open Std.Interleaving Std.SerialNumbers
open Ikcpcb (Settings session fragmentCount)

/-- A control block at a time at which it flushes. -/
def Ikcpcb.timed (kcp : Ikcpcb) (current tsFlush : BitVec 32) : Ikcpcb :=
  { kcp with current, updated := true, tsFlush }

theorem Ikcpcb.Sound.timed {kcp : Ikcpcb} (sound : kcp.Sound) (current tsFlush : BitVec 32) :
    (kcp.timed current tsFlush).Sound :=
  { sound with }

theorem Ikcpcb.wndsize_wnd (kcp : Ikcpcb) (sndwnd rcvwnd : Int) :
    (kcp.wndsize sndwnd rcvwnd).rcvWnd =
        (if rcvwnd > 0 then imax (BitVec.ofInt 32 rcvwnd) wndRcv else kcp.rcvWnd) ∧
      (kcp.wndsize sndwnd rcvwnd).sndWnd =
        if sndwnd > 0 then BitVec.ofInt 32 sndwnd else kcp.sndWnd := by
  rw [wndsize]
  by_cases receives : rcvwnd > 0
  · rw [if_pos receives, if_pos receives]
    split <;> exact ⟨rfl, rfl⟩
  · rw [if_neg receives, if_neg receives]
    split <;> exact ⟨rfl, rfl⟩

theorem Ikcpcb.setmtu_wnd (kcp : Ikcpcb) (size : Int) :
    (kcp.setmtu size).2.rcvWnd = kcp.rcvWnd ∧ (kcp.setmtu size).2.sndWnd = kcp.sndWnd := by
  rw [setmtu]
  split <;> exact ⟨rfl, rfl⟩

theorem Ikcpcb.session_usable (conv : BitVec 32) {settings : Settings} (ints : settings.Ints)
    (narrow : settings.rcvwnd < 2 ^ 16) :
    (session conv settings).rcvWnd.toNat < 2 ^ 16 ∧ (session conv settings).sndWnd ≠ 0 := by
  have least : wndRcv.toNat = 128 := rfl
  obtain ⟨nodelay, rxMinrto, interval, fastresend, nocwnd, timed⟩ := setNodelay_eq (create conv)
    settings.nodelay settings.interval settings.resend settings.nc
  obtain ⟨rcvWnd, sndWnd⟩ := setmtu_wnd ((create conv).setNodelay settings.nodelay
    settings.interval settings.resend settings.nc) settings.mtxsize
  obtain ⟨rcvWnd', sndWnd'⟩ := wndsize_wnd (((create conv).setNodelay settings.nodelay
    settings.interval settings.resend settings.nc).setmtu settings.mtxsize).2
    settings.sndwnd settings.rcvwnd
  rw [session, rcvWnd', sndWnd', rcvWnd, sndWnd, timed]
  constructor
  · split
    case isTrue positive =>
      rw [imax_toNat, toNat_of_int positive ints.rcvwnd]
      omega
    case isFalse =>
      change wndRcv.toNat < 2 ^ 16
      decide
  · split
    case isTrue positive =>
      intro none
      have count := toNat_of_int positive ints.sndwnd
      rw [none] at count
      change 0 = _ at count
      omega
    case isFalse =>
      change wndSnd ≠ 0
      decide

/-- Nothing is owed to a sender whose numbers have all been acknowledged. -/
theorem Ikcpcb.Sound.empty {kcp : Ikcpcb} (sound : kcp.Sound) (all : kcp.sndUna = kcp.sndNxt) :
    kcp.sndBuf = [] := by
  have first := sound.una
  cases isBuf : kcp.sndBuf with
  | nil => rfl
  | cons seg buf =>
      rw [isBuf] at first
      have isFirst : seg.sn = kcp.sndNxt := first.symm.trans all
      have apart := (sound.unacked.near seg.sn (by rw [isBuf]; exact List.mem_cons_self)).1
      rw [isFirst, offset_self] at apart
      exact absurd apart (lt_irrefl 0)

namespace Peers

variable {conv : BitVec 32} {peers after : Peers} {one other : Bool}

theorem not_eq_of_ne (apart : one ≠ other) : (!other) = one := by
  cases one <;> cases other <;> simp_all

/-- A datagram of one side arrives at the other. -/
theorem Inv.arrives (inv : peers.Inv conv) (few : peers.Few) (apart : one ≠ other)
    {group : List Segment} (some : group ≠ []) (isPosted : encode group ∈ (peers one).posted)
    (honest : ∀ seg ∈ group,
      seg.Known (peers other).kcp.conv ∧ (peers one).kcp.Honest (peers one).wire seg) :
    Handover (peers one) (peers other) group ∧
      peers.Onward (Function.update peers other ((peers other).input (encode group))) := by
  have forth := inv.between apart
  have back := inv.between apart.symm
  have conv_eq : (peers one).kcp.conv = (peers other).kcp.conv :=
    (inv.steady one).conv.trans (inv.steady other).conv.symm
  have intake := Intake.input (few one) (few other) forth back (inv.steady other).sound conv_eq
    isPosted
  have next : peers.step (.arrive other (encode group)) =
      .some (Function.update peers other ((peers other).input (encode group))) := by
    rw [Peers.step, not_eq_of_ne apart, if_pos (List.contains_iff_mem.mpr isPosted)]
  refine ⟨⟨forth, back, (inv.steady other).sound, few one, few other, honest⟩, ?_⟩
  exact Onward.put next (fun _ _ => by rintro ⟨⟩)
    ⟨rfl, Ikcpcb.fixed_input _, intake.grows, List.prefix_refl _,
      fun idle => Ikcpcb.idle_input idle some fun seg isSeg => (honest seg isSeg).1⟩

/-- One side flushes, at some time that is no earlier than a given one. Whatever it sends may
arrive at the other side. -/
theorem Inv.exchange (inv : peers.Inv conv) (few : peers.Few) (apart : one ≠ other)
    (ts : BitVec 32) : ∃ current tsFlush, 0 ≤ itimediff current ts ∧
      ∃ after : Peers, peers.Onward after ∧ after other = peers other ∧
        after one = (peers one).post ((peers one).kcp.timed current tsFlush).flush ∧
        ∀ seg ∈ ((peers one).kcp.timed current tsFlush).flushSegs, ∃ group,
          seg ∈ group ∧
          (∀ also ∈ group, also ∈ ((peers one).kcp.timed current tsFlush).flushSegs) ∧
          Handover (after one) (after other) group ∧
          ∃ later : Peers, after.Onward later ∧ later one = after one ∧
            later other = (after other).input (encode group) := by
  obtain ⟨current, tsFlush, passed, flushes⟩ := (peers one).kcp.exists_update ts
  have sound := (inv.steady one).sound
  have soundNow := sound.timed current tsFlush
  have forth := inv.between apart
  have back := inv.between apart.symm
  have sendsNow : ((peers one).kcp.timed current tsFlush).Sends (peers one).wire
      (peers other).kcp.Has := { forth.sends with }
  have receivesNow : ((peers one).kcp.timed current tsFlush).Receives (peers other).wire
      (peers other).kcp.sndNxt.toNat ((peers one).read.flatMap (pieces (peers other).kcp.mss)) :=
    back.receives.congr rfl back.receives.acks
  have next : peers.step (.update one current) = some (Function.update peers one
      ((peers one).post ((peers one).kcp.timed current tsFlush).flush)) := by
    rw [Peers.step, flushes]
    rfl
  have first : (peers one).kcp.Grows ((peers one).kcp.timed current tsFlush) := .congr rfl rfl
  have grows : (peers one).kcp.Grows ((peers one).kcp.timed current tsFlush).flush.1 :=
    first.trans (sendsNow.flush soundNow (few one) (peers one).plain_wire).2
  have idle (none : (peers one).kcp.waitsnd = 0) :
      ((peers one).kcp.timed current tsFlush).flush.1.waitsnd = 0 := Ikcpcb.idle_flush none
  have flushed : peers.Onward (Function.update peers one
      ((peers one).post ((peers one).kcp.timed current tsFlush).flush)) :=
    Onward.put next (fun _ _ => by rintro ⟨⟩)
      ⟨rfl, Ikcpcb.fixed_flush, grows, List.prefix_refl _, idle⟩
  have self := Function.update_self one ((peers one).post
    ((peers one).kcp.timed current tsFlush).flush) peers
  have rest := Function.update_of_ne apart.symm ((peers one).post
    ((peers one).kcp.timed current tsFlush).flush) peers
  generalize Function.update peers one
    ((peers one).post ((peers one).kcp.timed current tsFlush).flush) = after at *
  refine ⟨current, tsFlush, passed, after, flushed, rest, self, fun seg isSeg => ?_⟩
  obtain ⟨group, isIn, whole, isFlushed⟩ := Ikcpcb.posts soundNow rfl isSeg
  have isPosted : encode group ∈ (after one).posted := by
    rw [self]
    exact List.mem_append_right _ isFlushed
  have conv_eq : (peers one).kcp.conv = (after other).kcp.conv := by
    rw [rest]
    exact (inv.steady one).conv.trans (inv.steady other).conv.symm
  have honest : ∀ also ∈ group,
      also.Known (after other).kcp.conv ∧ (after one).kcp.Honest (after one).wire also := by
    intro also isAlso
    have isSent := whole also isAlso
    refine ⟨conv_eq ▸ (Ikcpcb.known_flushSegs soundNow isSent).1, ?_⟩
    rw [flushed.wire one, self]
    exact Ikcpcb.honest_flushSegs sendsNow receivesNow soundNow (few one) (peers one).plain_wire rfl
      isSent
  obtain ⟨hands, arrived⟩ := (flushed.inv inv few).arrives (flushed.few few) apart
    (List.ne_nil_of_mem isIn) isPosted honest
  exact ⟨group, isIn, whole, hands, _, arrived, Function.update_of_ne apart _ _,
    Function.update_self _ _ _⟩

/-- A segment that has been sent, and that comes next, can be delivered. -/
theorem Inv.delivers (inv : peers.Inv conv) (few : peers.Few) (apart : one ≠ other) {len k : Nat}
    (fits : ∀ message ∈ (peers one).accepted, message.length ≤ len)
    (isSent : k < (peers one).kcp.sndNxt.toNat) (before : ∀ n < k, (peers other).kcp.Has n) :
    ∃ after : Peers, peers.Onward after ∧ (after other).kcp.Has k := by
  obtain ⟨middle, first, sameOne, drained, -⟩ := inv.drain few apart fits
  by_cases has : (middle other).kcp.Has k
  · exact ⟨middle, first, has⟩
  have invMiddle := first.inv inv few
  have fewMiddle := first.few few
  have forth := invMiddle.between apart
  have isFrontier := forth.frontier (invMiddle.steady other).sound (invMiddle.steady one).sound.mss.1
    drained fun n isBefore => (first.sides other).grows.has n (before n isBefore)
  have isNext : (middle other).kcp.rcvNxt.toNat = k := by
    rcases Nat.lt_or_ge k (middle other).kcp.rcvNxt.toNat with early | late
    · exact absurd (.inl early) has
    · exact le_antisymm late isFrontier
  rw [← sameOne] at isSent
  obtain ⟨seg, isSeg, number⟩ := (forth.sends.gone k isSent).resolve_right has
  obtain ⟨current, tsFlush, passed, flushed, second, rest, self, delivers⟩ :=
    invMiddle.exchange fewMiddle apart seg.resendts
  obtain ⟨copy, isCopy, alike⟩ := @Ikcpcb.flushes_due
    ((middle one).kcp.timed current tsFlush) seg isSeg passed
  obtain ⟨group, isIn, -, hands, later, third, -, taken⟩ := delivers copy isCopy
  have cmd : copy.cmd = seg.cmd := congrArg (fun load => load.cmd) alike
  have sn : copy.sn = seg.sn := congrArg (fun load => load.sn) alike
  have isPush : copy.cmd = cmdPush := cmd.trans ((invMiddle.steady one).sound.pushes seg isSeg).2.1
  have isNumber : copy.sn = (flushed other).kcp.rcvNxt := by
    apply BitVec.eq_of_toNat_eq
    rw [sn, number, rest, isNext]
  have arrived := hands.has isIn isPush isNumber
  rw [sn, number, ← taken] at arrived
  exact ⟨later, (first.trans second).trans third, arrived⟩

/-- The window that a receiver tells of, once it has nothing to read. -/
theorem wndUnused_toNat {kcp : Ikcpcb} (sound : kcp.Sound)
    (room : kcp.rcvQueue.length < wndRcv.toNat) :
    kcp.wndUnused ≠ 0 ∧ kcp.wndUnused.toNat ≤ kcp.rcvWnd.toNat := by
  have least : wndRcv.toNat = 128 := rfl
  have window := sound.window
  have count : (BitVec.ofNat 32 kcp.rcvQueue.length).toNat = kcp.rcvQueue.length := by
    rw [BitVec.toNat_ofNat]
    omega
  have unused : kcp.wndUnused.toNat = kcp.rcvWnd.toNat - kcp.rcvQueue.length := by
    rw [Ikcpcb.wndUnused, if_pos (by omega), BitVec.toNat_sub_of_le, count]
    rw [BitVec.le_def, count]
    omega
  refine ⟨fun none => ?_, by omega⟩
  rw [none] at unused
  change 0 = _ at unused
  omega

/-- Every window is one that can be told of and that lets something through. -/
def Usable (peers : Peers) : Prop :=
  ∀ side, (peers side).kcp.rcvWnd.toNat < 2 ^ 16 ∧ (peers side).kcp.sndWnd ≠ 0

theorem Onward.usable (onward : peers.Onward after) (usable : peers.Usable) : after.Usable := by
  intro side
  have rcvWnd : (after side).kcp.rcvWnd = (peers side).kcp.rcvWnd :=
    congrArg (fun fixed => fixed.2.2.2.2.1) (onward.sides side).fixed
  have sndWnd : (after side).kcp.sndWnd = (peers side).kcp.sndWnd :=
    congrArg (fun fixed => fixed.2.2.2.1) (onward.sides side).fixed
  rw [rcvWnd, sndWnd]
  exact usable side

/-- A receiver that has everything that has been sent can say so. -/
theorem Inv.answered (inv : peers.Inv conv) (few : peers.Few) (usable : peers.Usable)
    (apart : one ≠ other) {len : Nat} (fits : ∀ message ∈ (peers one).accepted, message.length ≤ len)
    (all : ∀ n < (peers one).kcp.sndNxt.toNat, (peers other).kcp.Has n)
    (answers : (peers other).kcp.Answers) :
    ∃ after : Peers, peers.Onward after ∧ (after one).kcp.sndBuf = [] ∧
      (after one).kcp.rmtWnd ≠ 0 ∧ (after one).kcp.sndNxt = (peers one).kcp.sndNxt := by
  obtain ⟨middle, first, sameOne, drained, stillDue⟩ := inv.drain few apart fits
  have invMiddle := first.inv inv few
  have fewMiddle := first.few few
  have forth := invMiddle.between apart
  have positive := (invMiddle.steady one).sound.mss.1
  have sound := (invMiddle.steady other).sound
  have isFrontier := forth.frontier sound positive drained fun n isBefore =>
    (first.sides other).grows.has n (all n isBefore)
  have reached := forth.receives.nxt
  rw [sameOne] at reached
  have isNext : (middle other).kcp.rcvNxt = (peers one).kcp.sndNxt :=
    BitVec.eq_of_toNat_eq (le_antisymm reached isFrontier)
  obtain ⟨some, small⟩ := wndUnused_toNat sound (forth.drained positive drained)
  obtain ⟨current, tsFlush, -, flushed, second, rest, self, delivers⟩ :=
    invMiddle.exchange fewMiddle apart.symm 0
  have due : ((middle other).kcp.timed current tsFlush).Answers := stillDue answers
  obtain ⟨seg, isSeg⟩ := due.flushes
  obtain ⟨group, isIn, whole, hands, later, third, -, taken⟩ := delivers seg isSeg
  have tells : ∀ also ∈ group, also.una = (flushed one).kcp.sndNxt ∧
      also.wnd = (middle other).kcp.wndUnused := by
    intro also isAlso
    obtain ⟨una, wnd⟩ := Ikcpcb.tells_of_flushSegs (whole also isAlso)
    rw [una, wnd, rest, sameOne]
    exact ⟨isNext, rfl⟩
  obtain ⟨none, window, nxt⟩ := hands.empties (List.ne_nil_of_mem isIn)
    (small.trans_lt (first.usable usable other).1) tells
  rw [← taken] at none window nxt
  refine ⟨later, (first.trans second).trans third, none, window.symm ▸ some, ?_⟩
  rw [nxt, rest, sameOne]

/-- A sender to which nothing is owed sends more, once it knows of some window. -/
theorem Inv.flows (inv : peers.Inv conv) (few : peers.Few) (apart : one ≠ other)
    (none : (peers one).kcp.sndBuf = []) (remote : (peers one).kcp.rmtWnd ≠ 0)
    (sending : (peers one).kcp.sndWnd ≠ 0)
    (more : (peers one).kcp.sndNxt.toNat < (peers one).wire.length) :
    ∃ after : Peers, peers.Onward after ∧
      (peers one).kcp.sndNxt.toNat < (after one).kcp.sndNxt.toNat := by
  obtain ⟨current, tsFlush, -, flushed, first, -, self, -⟩ := inv.exchange few apart 0
  rcases (first.sides one).grows.sent.lt_or_eq with grown | same
  · exact ⟨flushed, first, grown⟩
  have invFlushed := first.inv inv few
  obtain ⟨-, una, wnd, -⟩ := @Ikcpcb.flush_numbers ((peers one).kcp.timed current tsFlush) rfl
  have congestion := @Ikcpcb.flush_cwnd ((peers one).kcp.timed current tsFlush) rfl
  have isUna : (flushed one).kcp.sndUna = (flushed one).kcp.sndNxt := by
    have start := (inv.steady one).sound.una
    rw [none] at start
    rw [← BitVec.eq_of_toNat_eq same, self]
    exact una.trans start
  have stillNone := (invFlushed.steady one).sound.empty isUna
  have queue := (invFlushed.between apart).sends.queue
  have sameWire := first.wire one
  rw [← same, sameWire] at queue
  have sndWnd : (flushed one).kcp.sndWnd = (peers one).kcp.sndWnd :=
    congrArg (fun fixed => fixed.2.2.2.1) (first.sides one).fixed
  obtain ⟨current', tsFlush', -, after, second, -, self', -⟩ :=
    invFlushed.exchange (first.few few) apart 0
  have opened : ((flushed one).kcp.timed current' tsFlush').Open := by
    refine ⟨rfl, ?_, ?_, ?_⟩
    · change (flushed one).kcp.sndWnd ≠ 0
      rwa [sndWnd]
    · change (flushed one).kcp.rmtWnd ≠ 0
      rw [self]
      exact wnd.symm ▸ remote
    · change (flushed one).kcp.cwnd ≠ 0
      rw [self]
      exact congestion
  have length : (flushed one).kcp.sndQueue.length =
      (peers one).wire.length - (peers one).kcp.sndNxt.toNat := by
    rw [queue, List.length_drop]
  have isFew := few one
  have waiting : (flushed one).kcp.sndQueue ≠ [] := by
    rw [← List.length_pos_iff, length]
    omega
  have moves := opened.moves ((invFlushed.steady one).sound.timed _ _) stillNone waiting (by
    change (flushed one).kcp.sndNxt.toNat + (flushed one).kcp.sndQueue.length < _
    omega)
  refine ⟨after, first.trans second, ?_⟩
  rw [same, self']
  exact moves

/-- A sender that knows of no window asks for it. -/
theorem Inv.probes (inv : peers.Inv conv) (few : peers.Few) (usable : peers.Usable)
    (apart : one ≠ other) (closed : (peers one).kcp.rmtWnd = 0)
    (waiting : (peers one).kcp.probeWait ≠ 0) :
    ∃ after : Peers, peers.Onward after ∧ (after other).kcp.Answers := by
  obtain ⟨current, tsFlush, passed, flushed, first, -, -, delivers⟩ :=
    inv.exchange few apart (peers one).kcp.tsProbe
  obtain ⟨seg, isSeg, isAsk⟩ := @Ikcpcb.flushes_ask ((peers one).kcp.timed current tsFlush) closed
    waiting passed
  obtain ⟨group, isIn, -, hands, later, second, -, taken⟩ := delivers seg isSeg
  have answers := hands.answers isIn (first.usable usable other).1 (.inl isAsk)
  rw [← taken] at answers
  exact ⟨later, first.trans second, answers⟩

/-- A segment that has not been acknowledged, but has been received, makes the receiver answer. -/
theorem Inv.repeats (inv : peers.Inv conv) (few : peers.Few) (usable : peers.Usable)
    (apart : one ≠ other) {seg : Segment} (isSeg : seg ∈ (peers one).kcp.sndBuf)
    (all : (peers one).kcp.sndNxt.toNat ≤ (peers other).kcp.rcvNxt.toNat) :
    ∃ after : Peers, peers.Onward after ∧
      ((peers one).kcp.sndNxt.toNat < (after one).kcp.sndNxt.toNat ∨
        (after other).kcp.Answers) := by
  obtain ⟨current, tsFlush, passed, flushed, first, rest, -, delivers⟩ :=
    inv.exchange few apart seg.resendts
  rcases (first.sides one).grows.sent.lt_or_eq with grown | same
  · exact ⟨flushed, first, .inl grown⟩
  obtain ⟨copy, isCopy, alike⟩ := @Ikcpcb.flushes_due
    ((peers one).kcp.timed current tsFlush) seg isSeg passed
  obtain ⟨group, isIn, -, hands, later, second, -, taken⟩ := delivers copy isCopy
  have cmd : copy.cmd = seg.cmd := congrArg (fun load => load.cmd) alike
  have sn : copy.sn = seg.sn := congrArg (fun load => load.sn) alike
  have isPush : copy.cmd = cmdPush := cmd.trans ((inv.steady one).sound.pushes seg isSeg).2.1
  have behind := ((inv.between apart).sends.buf seg isSeg).1
  have near := ((inv.steady one).sound.unacked.near seg.sn (List.mem_map_of_mem isSeg)).2
  rw [offset, BitVec.toNat_sub_of_le (BitVec.le_def.mpr behind.le), Ikcpcb.sndBound] at near
  have answers := hands.answers isIn (first.usable usable other).1 (.inr ⟨isPush, by
    rw [sn, rest]
    omega, by
    rw [sn, ← same]
    omega⟩)
  rw [← taken] at answers
  exact ⟨later, first.trans second, .inr answers⟩

/-- A sender that is held up hears from a receiver that has everything. -/
theorem Inv.asks (inv : peers.Inv conv) (few : peers.Few) (usable : peers.Usable)
    (apart : one ≠ other) {len : Nat} (fits : ∀ message ∈ (peers one).accepted, message.length ≤ len)
    (all : ∀ n < (peers one).kcp.sndNxt.toNat, (peers other).kcp.Has n)
    (closed : (peers one).kcp.sndBuf ≠ [] ∨ (peers one).kcp.rmtWnd = 0) :
    ∃ after : Peers, peers.Onward after ∧
      ((peers one).kcp.sndNxt.toNat < (after one).kcp.sndNxt.toNat ∨
        (after other).kcp.Answers) := by
  rcases closed with some | closed
  · obtain ⟨middle, first, sameOne, drained, -⟩ := inv.drain few apart fits
    have invMiddle := first.inv inv few
    have isFrontier := (invMiddle.between apart).frontier (invMiddle.steady other).sound
      (invMiddle.steady one).sound.mss.1 drained fun n isBefore =>
        (first.sides other).grows.has n (all n isBefore)
    obtain ⟨seg, isSeg⟩ := List.exists_mem_of_ne_nil _ some
    rw [← sameOne] at isSeg isFrontier ⊢
    obtain ⟨after, second, answers⟩ := invMiddle.repeats (first.few few) (first.usable usable) apart
      isSeg isFrontier
    exact ⟨after, first.trans second, answers⟩
  · by_cases waiting : (peers one).kcp.probeWait = 0
    · obtain ⟨current, tsFlush, -, flushed, first, -, self, -⟩ := inv.exchange few apart 0
      have window := (@Ikcpcb.flush_numbers ((peers one).kcp.timed current tsFlush) rfl).2.2.1
      have waits := @Ikcpcb.flush_waits ((peers one).kcp.timed current tsFlush) rfl closed waiting
      obtain ⟨after, second, answers⟩ := (first.inv inv few).probes (first.few few)
        (first.usable usable) apart (by rw [self]; exact window.trans closed)
        (by rw [self]; exact waits)
      exact ⟨after, first.trans second, .inr answers⟩
    · obtain ⟨after, onward, answers⟩ := inv.probes few usable apart closed waiting
      exact ⟨after, onward, .inr answers⟩

/-- A sender is never held up for good by a receiver that has everything. -/
theorem Inv.opens (inv : peers.Inv conv) (few : peers.Few) (usable : peers.Usable)
    (apart : one ≠ other) {len : Nat} (fits : ∀ message ∈ (peers one).accepted, message.length ≤ len)
    (all : ∀ n < (peers one).kcp.sndNxt.toNat, (peers other).kcp.Has n)
    (more : (peers one).kcp.sndNxt.toNat < (peers one).wire.length) :
    ∃ after : Peers, peers.Onward after ∧
      (peers one).kcp.sndNxt.toNat < (after one).kcp.sndNxt.toNat := by
  by_cases closed : (peers one).kcp.sndBuf ≠ [] ∨ (peers one).kcp.rmtWnd = 0
  · obtain ⟨asked, first, grown | answers⟩ := inv.asks few usable apart fits all closed
    · exact ⟨asked, first, grown⟩
    rcases (first.sides one).grows.sent.lt_or_eq with grown | same
    · exact ⟨asked, first, grown⟩
    obtain ⟨middle, second, none, remote, nxt⟩ := (first.inv inv few).answered (first.few few)
      (first.usable usable) apart (by rwa [(first.sides one).accepted])
      (fun n isBefore => (first.sides other).grows.has n (all n (by omega))) answers
    have both := first.trans second
    obtain ⟨after, third, grown⟩ := (both.inv inv few).flows (both.few few) apart none remote
      (both.usable usable one).2 (by rw [nxt, ← same, both.wire one]; exact more)
    rw [nxt, ← same] at grown
    exact ⟨after, both.trans third, grown⟩
  · rw [not_or, not_not] at closed
    exact inv.flows few apart closed.1 closed.2 (usable one).2 more

/-- All segments can be delivered. -/
theorem Inv.delivered (inv : peers.Inv conv) (few : peers.Few) (usable : peers.Usable)
    (apart : one ≠ other) {len k : Nat}
    (fits : ∀ message ∈ (peers one).accepted, message.length ≤ len)
    (inside : k ≤ (peers one).wire.length) :
    ∃ after : Peers, peers.Onward after ∧ ∀ n < k, (after other).kcp.Has n := by
  induction k with
  | zero => exact ⟨peers, .refl peers, fun n isBefore => absurd isBefore (Nat.not_lt_zero n)⟩
  | succ k ih =>
      obtain ⟨middle, first, before⟩ := ih (by omega)
      have invMiddle := first.inv inv few
      have fitsMiddle : ∀ message ∈ (middle one).accepted, message.length ≤ len := by
        rwa [(first.sides one).accepted]
      -- The sender has sent the segment, or does so next.
      obtain ⟨sending, second, isSent⟩ : ∃ sending : Peers, middle.Onward sending ∧
          k < (sending one).kcp.sndNxt.toNat := by
        by_cases isSent : k < (middle one).kcp.sndNxt.toNat
        · exact ⟨middle, .refl middle, isSent⟩
        · have sent := (invMiddle.between apart).sent_le before
          obtain ⟨sending, second, grown⟩ := invMiddle.opens (first.few few) (first.usable usable)
            apart fitsMiddle (fun n isBefore => before n (by omega))
            (by rw [first.wire one]; omega)
          exact ⟨sending, second, by omega⟩
      have both := first.trans second
      obtain ⟨after, third, has⟩ := (both.inv inv few).delivers (both.few few) apart
        (by rwa [(both.sides one).accepted]) isSent fun n isBefore =>
          (second.sides other).grows.has n (before n isBefore)
      refine ⟨after, both.trans third, fun n isBefore => ?_⟩
      rcases Nat.lt_succ_iff_lt_or_eq.mp isBefore with early | rfl
      · exact ((second.trans third).sides other).grows.has n (before n early)
      · exact has

/-- All messages of one side can be read and acknowledged. -/
theorem Inv.settles (inv : peers.Inv conv) (few : peers.Few) (usable : peers.Usable)
    (apart : one ≠ other) {len : Nat}
    (fits : ∀ message ∈ (peers one).accepted, message.length ≤ len) :
    ∃ after : Peers, peers.Onward after ∧ (after other).read = (after one).accepted ∧
      (after one).kcp.waitsnd = 0 := by
  obtain ⟨arrived, first, has⟩ := inv.delivered few usable apart fits le_rfl
  have invArrived := first.inv inv few
  have count := (invArrived.between apart).sends.count
  have sent := (invArrived.between apart).sent_le has
  rw [first.wire one] at count
  obtain ⟨settled, second, none⟩ : ∃ settled : Peers, arrived.Onward settled ∧
      (settled one).kcp.sndBuf = [] := by
    by_cases none : (arrived one).kcp.sndBuf = []
    · exact ⟨arrived, .refl arrived, none⟩
    have fitsArrived : ∀ message ∈ (arrived one).accepted, message.length ≤ len := by
      rwa [(first.sides one).accepted]
    obtain ⟨asked, second, grown | answers⟩ := invArrived.asks (first.few few)
      (first.usable usable) apart fitsArrived (fun n isBefore => has n (by omega)) (.inl none)
    all_goals
      have both := first.trans second
      have countAsked := ((both.inv inv few).between apart).sends.count
      rw [both.wire one] at countAsked
    · omega
    · obtain ⟨settled, third, done, -⟩ := (both.inv inv few).answered (both.few few)
        (both.usable usable) apart (by rwa [(both.sides one).accepted])
        (fun n isBefore => (second.sides other).grows.has n (has n (by omega))) answers
      exact ⟨settled, second.trans third, done⟩
  have both := first.trans second
  have invSettled := both.inv inv few
  have idle : (settled one).kcp.waitsnd = 0 := by
    have sentSettled := (second.sides one).grows.sent
    refine Ikcpcb.waitsnd_eq_zero.mpr ⟨none, ?_⟩
    rw [(invSettled.between apart).sends.queue, List.drop_eq_nil_iff, both.wire one]
    omega
  have fitsSettled : ∀ message ∈ (settled one).accepted, message.length ≤ len := by
    rwa [(both.sides one).accepted]
  obtain ⟨after, third, sameOne, drained, -⟩ := invSettled.drain (both.few few) apart fitsSettled
  have all := both.trans third
  have invAfter := all.inv inv few
  have forth := invAfter.between apart
  refine ⟨after, all, ?_, (third.sides one).idle idle⟩
  have read : (after one).accepted.length ≤ (after other).read.length := by
    by_contra unread
    have received := forth.recv_next (invAfter.steady other).sound (invAfter.steady one).sound.mss.1
      (fun n isBefore => ((second.trans third).sides other).grows.has n
        (has n (all.wire one ▸ isBefore))) (not_le.mp unread) (by rwa [sameOne])
    rcases (after other).kcp.recv_cases len with ⟨failed, -⟩ | ⟨-, complete, -⟩
    · omega
    · omega
  have order := forth.order
  rwa [List.take_of_length_le read] at order

theorem usable_reaches {settings : Bool → Settings} (ints : ∀ side, (settings side).Ints)
    (narrow : ∀ side, (settings side).rcvwnd < 2 ^ 16)
    (run : (fresh conv settings).Reaches peers) : peers.Usable := by
  intro side
  have fixed := fixed_reaches run side
  have rcvWnd : (peers side).kcp.rcvWnd = (session conv (settings side)).rcvWnd :=
    congrArg (fun fixed => fixed.2.2.2.2.1) fixed
  have sndWnd : (peers side).kcp.sndWnd = (session conv (settings side)).sndWnd :=
    congrArg (fun fixed => fixed.2.2.2.1) fixed
  rw [rcvWnd, sndWnd]
  exact Ikcpcb.session_usable conv (ints side) (narrow side)

/-- Whatever the network has done so far, both sides can go on until every message has been read
and nothing waits any more. -/
theorem completes {settings : Bool → Settings} (ints : ∀ side, (settings side).Ints)
    (narrow : ∀ side, (settings side).rcvwnd < 2 ^ 16) (run : (fresh conv settings).Reaches peers)
    (few : peers.Few) :
    ∃ after : Peers, Runs step Quiet peers after ∧
      ∀ side, (after !side).read = (peers side).accepted ∧ (after side).kcp.waitsnd = 0 := by
  have inv := (inv_fresh conv ints).reaches run few
  have usable := usable_reaches ints narrow run
  have fits (side : Bool) : ∀ message ∈ (peers side).accepted,
      message.length ≤ (peers side).accepted.flatten.length := fun message isMessage =>
    (List.sublist_flatten_of_mem isMessage).length_le
  obtain ⟨middle, first, readThere, idleThere⟩ := inv.settles few usable Bool.false_ne_true
    (fits false)
  obtain ⟨after, second, readBack, idleBack⟩ := (first.inv inv few).settles (first.few few)
    (first.usable usable) Bool.false_ne_true.symm (by
      rw [(first.sides true).accepted]
      exact fits true)
  have both := first.trans second
  refine ⟨after, both.run, fun side => ?_⟩
  cases side with
  | false =>
      refine ⟨?_, (second.sides false).idle idleThere⟩
      have kept := (second.sides true).read
      have most := ((both.inv inv few).direction false).read_le
      rw [readThere, (first.sides false).accepted] at kept
      rw [(both.sides false).accepted] at most
      exact (kept.eq_of_length_le most).symm
  | true => exact ⟨readBack.trans (both.sides true).accepted, idleBack⟩

/-- Two datagrams have been sent, and neither has arrived. -/
theorem completes_lost :
    let sent := (fresh 7 fun _ => ⟨1, 20, 2, 1, 50, 32, 32⟩).events
      [.send false (List.replicate 30 1), .update false 100]
    ∃ after : Peers, Runs step Quiet sent after ∧
      ∀ side, (after !side).read = (sent side).accepted ∧ (after side).kcp.waitsnd = 0 := by
  intro sent
  have int : Settings.Ints ⟨1, 20, 2, 1, 50, 32, 32⟩ := ⟨by decide, by decide, by decide⟩
  have few : sent.Few := by
    intro side
    cases side <;> decide +kernel
  exact completes (fun _ => int) (fun _ => by decide) (reaches_events _ _) few

end Peers

end Xten.Ikcp
