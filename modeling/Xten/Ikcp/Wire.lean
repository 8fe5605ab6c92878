import Xten.Ikcp.Soundness

/-!
# The format of a datagram

What `ikcp_flush` hands on is cut between segments, no datagram is longer than `mtu`, and
`ikcp_input` of the other side takes each segment as it was sent.
-/

namespace Xten.Ikcp

open Std.IntegerCodec

section Decoding

variable {rest : List Byte}

theorem decode8u_memory (value : BitVec 8) : decode8u (memory 1 value ++ rest) = (value, rest) := by
  rw [decode8u, List.take_left' (length_memory 1 value), List.drop_left' (length_memory 1 value)]
  exact congrArg (·, rest) (@ofMemory_memory 1 value)

theorem decode16u_memory (value : BitVec 16) :
    decode16u (memory 2 value ++ rest) = (value, rest) := by
  rw [decode16u, List.take_left' (length_memory 2 value), List.drop_left' (length_memory 2 value)]
  exact congrArg (·, rest) (@ofMemory_memory 2 value)

theorem decode32u_memory (value : BitVec 32) :
    decode32u (memory 4 value ++ rest) = (value, rest) := by
  rw [decode32u, List.take_left' (length_memory 4 value), List.drop_left' (length_memory 4 value)]
  exact congrArg (·, rest) (@ofMemory_memory 4 value)

end Decoding

namespace Segment

/-- A segment as the other side takes it. -/
def received (seg : Segment) : Segment :=
  { seg with
    cmd := (seg.cmd.setWidth 8).setWidth 32
    frg := (seg.frg.setWidth 8).setWidth 32
    wnd := (seg.wnd.setWidth 16).setWidth 32
    resendts := 0
    rto := 0
    fastack := 0
    xmit := 0 }

/-- A segment that `ikcp_input` can take. -/
structure Known (conv : BitVec 32) (seg : Segment) : Prop where
  conv : seg.conv = conv
  cmd : seg.cmd = cmdPush ∨ seg.cmd = cmdAck ∨ seg.cmd = cmdWask ∨ seg.cmd = cmdWins
  frg : seg.frg.toNat < 2 ^ 8
  data : seg.data.length < 2 ^ 32

variable {conv : BitVec 32} {seg : Segment}

theorem length_bytes (seg : Segment) : seg.bytes.length = overhead + seg.data.length := by
  simp only [bytes, encodeSeg, List.length_append, length_memory, overhead]

theorem Known.received_cmd (known : seg.Known conv) : seg.received.cmd = seg.cmd := by
  change (seg.cmd.setWidth 8).setWidth 32 = seg.cmd
  rcases known.cmd with same | same | same | same <;> rw [same] <;> rfl

theorem Known.received_frg (known : seg.Known conv) : seg.received.frg = seg.frg := by
  apply BitVec.eq_of_toNat_eq
  have small := known.frg
  change ((seg.frg.setWidth 8).setWidth 32).toNat = _
  rw [BitVec.toNat_setWidth, BitVec.toNat_setWidth]
  omega

end Segment

/-- The bytes of some segments. -/
abbrev encode (segs : List Segment) : List Byte :=
  segs.flatMap Segment.bytes

theorem encode_cons (seg : Segment) (segs : List Segment) :
    encode (seg :: segs) = seg.bytes ++ encode segs :=
  List.flatMap_cons

theorem encode_append (first second : List Segment) :
    encode (first ++ second) = encode first ++ encode second :=
  List.flatMap_append

theorem length_le_encode (segs : List Segment) :
    overhead * segs.length ≤ (encode segs).length := by
  induction segs with
  | nil => exact le_rfl
  | cons seg segs ih =>
      rw [encode_cons, List.length_append, Segment.length_bytes, List.length_cons]
      rw [Nat.mul_succ]
      omega

namespace Ikcpcb

/-- One segment after another, with the largest number that they acknowledge. -/
def inputSegments (taken : Ikcpcb × Option (BitVec 32)) (segs : List Segment) :
    Ikcpcb × Option (BitVec 32) :=
  segs.foldl (fun taken seg => taken.1.inputSegment taken.2 seg.received) taken

section Input

variable {kcp : Ikcpcb} {maxack : Option (BitVec 32)} {seg : Segment} {segs : List Segment}

theorem conv_inputSegment : (kcp.inputSegment maxack seg).1.conv = kcp.conv :=
  congrArg Prod.fst (fixed_inputSegment maxack seg)

/-- One segment is read back. -/
theorem inputLoop_bytes (known : seg.Known kcp.conv) (fuel : Nat) (rest : List Byte) :
    inputLoop (fuel + 1) kcp maxack (seg.bytes ++ rest) =
      inputLoop fuel (kcp.inputSegment maxack seg.received).1
        (kcp.inputSegment maxack seg.received).2 rest := by
  have long : ¬ (seg.bytes ++ rest).length < overhead := by
    rw [List.length_append, Segment.length_bytes]
    omega
  have len : (BitVec.ofNat 32 seg.data.length).toNat = seg.data.length := by
    rw [BitVec.toNat_ofNat]
    exact Nat.mod_eq_of_lt known.data
  have whole : ¬ (seg.data ++ rest).length < seg.data.length := by
    rw [List.length_append]
    omega
  have cmd : (seg.cmd.setWidth 8).setWidth 32 = seg.cmd := known.received_cmd
  have isCmd : ¬ (seg.cmd ≠ cmdPush ∧ seg.cmd ≠ cmdAck ∧ seg.cmd ≠ cmdWask ∧ seg.cmd ≠ cmdWins) := by
    rintro ⟨notPush, notAck, notWask, notWins⟩
    rcases known.cmd with same | same | same | same <;> contradiction
  rw [inputLoop, if_neg long]
  simp only [Segment.bytes, encodeSeg, List.append_assoc, decode32u_memory, decode8u_memory,
    decode16u_memory]
  rw [if_neg (not_not_intro known.conv), len, if_neg whole, cmd, if_neg isCmd,
    List.take_left, List.drop_left]
  rw [← cmd]
  rfl

theorem inputLoop_encode (known : ∀ seg ∈ segs, seg.Known kcp.conv) {fuel : Nat}
    (enough : segs.length ≤ fuel) :
    inputLoop fuel kcp maxack (encode segs) =
      (0, inputSegments (kcp, maxack) segs) := by
  induction segs generalizing fuel kcp maxack with
  | nil =>
      cases fuel with
      | zero => rfl
      | succ fuel => rfl
  | cons seg segs ih =>
      obtain ⟨fuel, rfl⟩ := Nat.exists_eq_add_of_le' enough
      have later : ∀ other ∈ segs, other.Known (kcp.inputSegment maxack seg.received).1.conv := by
        intro other isOther
        rw [conv_inputSegment]
        exact known other (List.mem_cons_of_mem _ isOther)
      rw [encode_cons, List.length_cons, ← Nat.add_assoc,
        inputLoop_bytes (known seg List.mem_cons_self)]
      exact ih later (Nat.le_add_left _ _)

/-- What `ikcp_input` makes of a datagram that holds whole segments. -/
theorem input_encode (some : segs ≠ []) (known : ∀ seg ∈ segs, seg.Known kcp.conv) :
    kcp.input (encode segs) =
      (0, (inputSegments (kcp, none) segs).1.inputEnd kcp.sndUna
        (inputSegments (kcp, none) segs).2) := by
  have count : 0 < segs.length := List.length_pos_iff.mpr some
  have bytes := length_le_encode segs
  simp only [overhead] at bytes
  rw [input, if_neg (by simp only [overhead]; omega), inputLoop_encode known (by omega)]
  rfl

end Input

end Ikcpcb

/-- Some segments have been put into the buffer one after the other. -/
structure Output.Carries (mtu : Nat) (out : Output) (groups : List (List Segment))
    (last : List Segment) : Prop where
  datagrams : out.datagrams = groups.map encode
  buffer : out.buffer = encode last
  full : ∀ group ∈ groups, group ≠ [] ∧ (encode group).length ≤ mtu
  room : (encode last).length ≤ mtu

namespace Output

variable {mtu : Nat} {out : Output} {groups : List (List Segment)} {last segs : List Segment}

theorem Carries.ikcpOutput (carries : out.Carries mtu groups last) :
    ∃ sent, out.ikcpOutput.Carries mtu sent [] ∧ sent.flatten = groups.flatten ++ last := by
  rw [Output.ikcpOutput]
  by_cases none : last = []
  · subst none
    rw [if_pos (by rw [carries.buffer]; rfl)]
    exact ⟨groups, ⟨carries.datagrams, rfl, carries.full, Nat.zero_le _⟩, by simp⟩
  · have some : (encode last).length ≠ 0 := by
      have := length_le_encode last
      have := List.length_pos_iff.mpr none
      simp only [overhead] at *
      omega
    rw [if_neg (by rwa [carries.buffer])]
    refine ⟨groups ++ [last], ⟨?_, rfl, ?_, Nat.zero_le _⟩, by simp⟩
    · rw [List.map_append, ← carries.datagrams, carries.buffer]
      rfl
    · intro group isGroup
      rcases List.mem_append.mp isGroup with isOld | isNew
      · exact carries.full group isOld
      · rw [List.mem_singleton.mp isNew]
        exact ⟨none, carries.room⟩

theorem Carries.put {seg : Segment} (carries : out.Carries mtu groups last)
    (fits : seg.bytes.length ≤ mtu) :
    ∃ sent left, (out.put mtu seg).Carries mtu sent left ∧
      sent.flatten ++ left = groups.flatten ++ last ++ [seg] := by
  rw [Output.put]
  by_cases full : out.buffer.length + seg.bytes.length > mtu
  · rw [if_pos full]
    obtain ⟨sent, flushed, all⟩ := carries.ikcpOutput
    refine ⟨sent, [seg], ⟨flushed.datagrams, ?_, flushed.full, by simpa using fits⟩, by rw [all]⟩
    change out.ikcpOutput.buffer ++ seg.bytes = encode [seg]
    rw [flushed.buffer]
    simp
  · rw [if_neg full]
    refine ⟨groups, last ++ [seg], ⟨carries.datagrams, ?_, carries.full, ?_⟩, by simp⟩
    · change out.buffer ++ seg.bytes = encode (last ++ [seg])
      rw [carries.buffer]
      simp
    · rw [carries.buffer] at full
      rw [encode_append, List.length_append]
      simpa using full

theorem Carries.puts (carries : out.Carries mtu groups last)
    (fits : ∀ seg ∈ segs, seg.bytes.length ≤ mtu) :
    ∃ sent left, (segs.foldl (Output.put mtu) out).Carries mtu sent left ∧
      sent.flatten ++ left = groups.flatten ++ last ++ segs := by
  induction segs generalizing out groups last with
  | nil => exact ⟨groups, last, carries, by simp⟩
  | cons seg segs ih =>
      obtain ⟨sent, left, carries, all⟩ := carries.put (fits seg List.mem_cons_self)
      obtain ⟨later, rest, carries, whole⟩ :=
        ih carries fun other isOther => fits other (List.mem_cons_of_mem _ isOther)
      refine ⟨later, rest, carries, ?_⟩
      rw [whole, all, List.append_assoc]
      rfl

end Output

namespace Ikcpcb

section Flush

variable {kcp : Ikcpcb} {buf : List Segment}

/-- The segments that are due, as they are sent. -/
def due (kcp : Ikcpcb) (buf : List Segment) : List Segment :=
  buf.filterMap fun seg => (kcp.cause seg).map (kcp.sent · seg)

theorem flushBuf_out (pass : Pass) :
    (kcp.flushBuf buf pass).2.out = (kcp.due buf).foldl (Output.put kcp.mtu) pass.out := by
  induction buf generalizing pass with
  | nil => rfl
  | cons seg buf ih =>
      rw [flushBuf, due, List.filterMap_cons]
      split
      case h_1 none =>
        rw [none, ih]
        rfl
      case h_2 cause isDue =>
        rw [isDue, ih]
        rfl

/-- All that a flush sends. -/
def flushSegs (kcp : Ikcpcb) : List Segment :=
  kcp.commandSegs ++ kcp.moved.due kcp.moved.sndBuf

theorem mem_due {seg : Segment} (isDue : seg ∈ kcp.due buf) :
    ∃ other ∈ buf, seg.load = other.load ∧ seg.una = kcp.rcvNxt ∧ seg.wnd = kcp.wndUnused := by
  obtain ⟨other, isOther, isSent⟩ := List.mem_filterMap.mp isDue
  obtain ⟨cause, -, rfl⟩ := Option.map_eq_some_iff.mp isSent
  exact ⟨other, isOther, sent_load cause other, rfl, rfl⟩

theorem mem_ackSegs {seg : Segment} (isSeg : seg ∈ kcp.ackSegs) :
    ∃ ack ∈ kcp.acklist, seg = { kcp.ackSeg with sn := ack.1, ts := ack.2 } := by
  obtain ⟨ack, isAck, same⟩ := List.mem_map.mp isSeg
  exact ⟨ack, isAck, same.symm⟩

theorem lastSeg_eq (kcp : Ikcpcb) : ∃ sn ts, kcp.lastSeg = { kcp.ackSeg with sn := sn, ts := ts } := by
  rw [lastSeg]
  cases isLast : kcp.ackSegs.getLast? with
  | none => exact ⟨_, _, rfl⟩
  | some seg =>
      obtain ⟨ack, -, rfl⟩ := mem_ackSegs (List.mem_of_getLast? isLast)
      exact ⟨_, _, rfl⟩

/-- An acknowledgement, or a window probe. -/
theorem mem_commandSegs {seg : Segment} (isCommand : seg ∈ kcp.commandSegs) :
    ∃ sn ts cmd, seg = { kcp.ackSeg with cmd := cmd, sn := sn, ts := ts } ∧
      (cmd = cmdAck ∧ (sn, ts) ∈ kcp.acklist ∨ cmd = cmdWask ∨ cmd = cmdWins) := by
  rcases List.mem_append.mp isCommand with isSeg | isProbe
  · obtain ⟨ack, isAck, rfl⟩ := mem_ackSegs isSeg
    exact ⟨_, _, _, rfl, .inl ⟨rfl, isAck⟩⟩
  · obtain ⟨sn, ts, same⟩ := kcp.lastSeg_eq
    rw [same, probeSegs] at isProbe
    rcases List.mem_append.mp isProbe with isAsk | isTell
    · obtain ⟨-, isAsk⟩ := List.mem_ite_nil_right.mp isAsk
      exact ⟨sn, ts, cmdWask, List.mem_singleton.mp isAsk, .inr (.inl rfl)⟩
    · obtain ⟨-, isTell⟩ := List.mem_ite_nil_right.mp isTell
      exact ⟨sn, ts, cmdWins, List.mem_singleton.mp isTell, .inr (.inr rfl)⟩

theorem fixed_moved (kcp : Ikcpcb) : kcp.moved.fixed = kcp.fixed := by
  obtain ⟨wait, ts, same⟩ := commanded_eq kcp
  rw [Ikcpcb.moved, same]
  rfl

/-- What is sent can be taken, and fits into a datagram. -/
theorem known_flushSegs (sound : kcp.Sound) {seg : Segment} (isSeg : seg ∈ kcp.flushSegs) :
    seg.Known kcp.conv ∧ seg.bytes.length ≤ kcp.mtu := by
  obtain ⟨positive, mtu, small⟩ := sound.mss
  rw [Segment.length_bytes]
  rcases List.mem_append.mp isSeg with isCommand | isDue
  · obtain ⟨sn, ts, cmd, rfl, isCmd⟩ := mem_commandSegs isCommand
    refine ⟨⟨rfl, ?_, Nat.two_pow_pos 8, Nat.two_pow_pos 32⟩, ?_⟩
    · rcases isCmd with ⟨isAck, -⟩ | isProbe
      · exact .inr (.inl isAck)
      · exact .inr (.inr isProbe)
    · change overhead + 0 ≤ kcp.mtu
      omega
  · obtain ⟨other, isOther, alike, -, -⟩ := mem_due isDue
    obtain ⟨conv, cmd, frg, data⟩ := (Sound.moveQueue sound.commanded).pushes other isOther
    have sameConv : kcp.moved.conv = kcp.conv := congrArg Prod.fst kcp.fixed_moved
    have sameMss : kcp.moved.mss = kcp.mss := congrArg (fun fixed => fixed.2.2.1) kcp.fixed_moved
    have convSeg : seg.conv = other.conv := congrArg (fun load => load.conv) alike
    have cmdSeg : seg.cmd = other.cmd := congrArg (fun load => load.cmd) alike
    have frgSeg : seg.frg = other.frg := congrArg (fun load => load.frg) alike
    have dataSeg : seg.data = other.data := congrArg (fun load => load.data) alike
    change other.data.length ≤ kcp.moved.mss at data
    change other.conv = kcp.moved.conv at conv
    rw [sameMss] at data
    rw [dataSeg]
    refine ⟨⟨?_, .inl ?_, ?_, ?_⟩, by omega⟩
    · rw [convSeg, conv, sameConv]
    · rw [cmdSeg, cmd]
    · rw [frgSeg]
      omega
    · rw [dataSeg]
      omega

/-- The datagrams of a flush are its segments, in groups. -/
theorem flush_groups (sound : kcp.Sound) (updated : kcp.updated = true) :
    ∃ groups : List (List Segment), kcp.flush.2 = groups.map encode ∧ groups.flatten = kcp.flushSegs ∧
      ∀ group ∈ groups, group ≠ [] ∧ (encode group).length ≤ kcp.mtu := by
  have empty : Output.Carries kcp.mtu ⟨[], []⟩ [] [] :=
    ⟨rfl, rfl, by simp, Nat.zero_le _⟩
  obtain ⟨sent, left, carries, all⟩ := empty.puts fun seg isSeg => (known_flushSegs sound isSeg).2
  obtain ⟨groups, flushed, whole⟩ := carries.ikcpOutput
  have sameMtu : kcp.moved.mtu = kcp.mtu := congrArg (fun fixed => fixed.2.1) kcp.fixed_moved
  have out : kcp.flushed.2.out = kcp.flushSegs.foldl (Output.put kcp.mtu) ⟨[], []⟩ := by
    rw [Ikcpcb.flushed, flushBuf_out, flushSegs, List.foldl_append, sameMtu]
  refine ⟨groups, ?_, ?_, flushed.full⟩
  · rw [flush, if_neg (by rw [updated]; decide)]
    dsimp only
    rw [out, flushed.datagrams]
  · rw [whole, all]
    rfl

end Flush

end Ikcpcb

end Xten.Ikcp
