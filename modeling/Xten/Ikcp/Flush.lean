import Xten.Ikcp.Input

/-!
# What is sent

`ikcp_flush` with the calls that drive it: acknowledgements, window probes and the segments of
`snd_buf` that are due go into a buffer, which is handed on whenever it holds `mtu` bytes.
-/

namespace Xten.Ikcp

open Std.IntegerCodec Std.SerialNumbers

/-- `ikcp_encode_seg`. -/
def encodeSeg (seg : Segment) : List Byte :=
  memory 4 seg.conv ++ (memory 1 (seg.cmd.setWidth 8) ++ (memory 1 (seg.frg.setWidth 8) ++
    (memory 2 (seg.wnd.setWidth 16) ++ (memory 4 seg.ts ++ (memory 4 seg.sn ++
      (memory 4 seg.una ++ memory 4 (BitVec.ofNat 32 seg.data.length)))))))

/-- A segment and its data. -/
def Segment.bytes (seg : Segment) : List Byte :=
  encodeSeg seg ++ seg.data

/-- The buffer of `ikcp_flush`, and the datagrams that `output` has been called with. -/
structure Output where
  datagrams : List (List Byte)
  buffer : List Byte
deriving DecidableEq, Repr

namespace Output

/-- `ikcp_output`, of the whole buffer. -/
def ikcpOutput (out : Output) : Output :=
  ⟨if out.buffer.length = 0 then out.datagrams else out.datagrams ++ [out.buffer], []⟩

/-- A segment is put into the buffer, which is handed on first if it has no room. -/
def put (mtu : Nat) (out : Output) (seg : Segment) : Output :=
  let out := if out.buffer.length + seg.bytes.length > mtu then out.ikcpOutput else out
  { out with buffer := out.buffer ++ seg.bytes }

end Output

/-- What a pass through `snd_buf` keeps. -/
structure Pass where
  out : Output
  change : Bool
  lost : Bool
  state : BitVec 32
deriving DecidableEq, Repr

namespace Ikcpcb

variable (kcp : Ikcpcb)

/-- `ikcp_wnd_unused`. -/
def wndUnused : BitVec 32 :=
  if kcp.rcvQueue.length < kcp.rcvWnd.toNat then
    kcp.rcvWnd - BitVec.ofNat 32 kcp.rcvQueue.length
  else
    0

section Commands

/-- `seg`, before the first acknowledgement. -/
def ackSeg : Segment :=
  ⟨kcp.conv, cmdAck, 0, kcp.wndUnused, 0, 0, kcp.rcvNxt, 0, 0, 0, 0, []⟩

/-- The acknowledgements. -/
def ackSegs : List Segment :=
  kcp.acklist.map fun ack => { kcp.ackSeg with sn := ack.1, ts := ack.2 }

/-- `seg`, after the last acknowledgement. -/
def lastSeg : Segment :=
  kcp.ackSegs.getLast?.getD kcp.ackSeg

/-- Whether the other side has to be asked for its window. -/
def timeProbe : Ikcpcb :=
  if kcp.rmtWnd = 0 then
    if kcp.probeWait = 0 then
      { kcp with probeWait := probeInit, tsProbe := kcp.current + probeInit }
    else if itimediff kcp.current kcp.tsProbe ≥ 0 then
      let wait := if kcp.probeWait < probeInit then probeInit else kcp.probeWait
      let wait := wait + wait / 2
      let wait := if wait > probeLimit then probeLimit else wait
      { kcp with
        probeWait := wait
        tsProbe := kcp.current + wait
        probe := kcp.probe ||| askSend }
    else
      kcp
  else
    { kcp with tsProbe := 0, probeWait := 0 }

/-- The window probes, for `seg` as it is before them. -/
def probeSegs (seg : Segment) : List Segment :=
  (if kcp.probe &&& askSend ≠ 0 then [{ seg with cmd := cmdWask }] else []) ++
    if kcp.probe &&& askTell ≠ 0 then [{ seg with cmd := cmdWins }] else []

/-- What is sent before any data. -/
def commandSegs : List Segment :=
  kcp.ackSegs ++ kcp.timeProbe.probeSegs kcp.lastSeg

end Commands

section Moving

/-- How far `snd_nxt` may be ahead of `snd_una`. -/
def flushWindow : BitVec 32 :=
  let cwnd := imin kcp.sndWnd kcp.rmtWnd
  if kcp.nocwnd = 0 then imin kcp.cwnd cwnd else cwnd

/-- A segment that goes from `snd_queue` to `snd_buf`. -/
def stamp (sn : BitVec 32) (seg : Segment) : Segment :=
  { seg with
    conv := kcp.conv
    cmd := cmdPush
    wnd := kcp.wndUnused
    ts := kcp.current
    sn := sn
    una := kcp.rcvNxt
    resendts := kcp.current
    rto := kcp.rxRto
    fastack := 0
    xmit := 0 }

/-- Segments go from `snd_queue` to `snd_buf` while the window has room: both and `snd_nxt`
after it. -/
def intoBuf (cwnd : BitVec 32) : List Segment → List Segment → BitVec 32 →
    List Segment × List Segment × BitVec 32
  | [], buf, nxt => ([], buf, nxt)
  | seg :: queue, buf, nxt =>
      if itimediff nxt (kcp.sndUna + cwnd) < 0 then
        intoBuf cwnd queue (buf ++ [kcp.stamp nxt seg]) (nxt + 1)
      else
        (seg :: queue, buf, nxt)

def moveQueue (cwnd : BitVec 32) : Ikcpcb :=
  let moved := kcp.intoBuf cwnd kcp.sndQueue kcp.sndBuf kcp.sndNxt
  { kcp with sndQueue := moved.1, sndBuf := moved.2.1, sndNxt := moved.2.2 }

end Moving

section Sending

def resent : BitVec 32 :=
  if kcp.fastresend > 0 then BitVec.ofInt 32 kcp.fastresend else 0xffffffff

def rtomin : BitVec 32 :=
  if kcp.nodelay = 0 then kcp.rxRto.sshiftRight 3 else 0

/-- Why a segment of `snd_buf` is sent. -/
inductive Cause where
  | first
  | timeout
  | skipped
deriving DecidableEq, Repr

def cause (seg : Segment) : Option Cause :=
  if seg.xmit = 0 then some .first
  else if itimediff kcp.current seg.resendts ≥ 0 then some .timeout
  else if seg.fastack ≥ kcp.resent then some .skipped
  else none

/-- A segment that is sent, with the time of the next try. -/
def schedule (cause : Cause) (seg : Segment) : Segment :=
  match cause with
  | .first =>
      { seg with
        xmit := seg.xmit + 1
        rto := kcp.rxRto
        resendts := kcp.current + kcp.rxRto + kcp.rtomin }
  | .timeout =>
      let rto := seg.rto + if kcp.nodelay = 0 then kcp.rxRto else kcp.rxRto.sdiv 2
      { seg with xmit := seg.xmit + 1, rto := rto, resendts := kcp.current + rto }
  | .skipped =>
      { seg with xmit := seg.xmit + 1, fastack := 0, resendts := kcp.current + seg.rto }

/-- A segment as it is put into the buffer. -/
def sent (cause : Cause) (seg : Segment) : Segment :=
  { kcp.schedule cause seg with
    ts := kcp.current
    wnd := kcp.wndUnused
    una := kcp.rcvNxt }

/-- The segments of `snd_buf` that are due are sent. -/
def flushBuf : List Segment → Pass → List Segment × Pass
  | [], pass => ([], pass)
  | seg :: buf, pass =>
      match kcp.cause seg with
      | none =>
          let rest := flushBuf buf pass
          (seg :: rest.1, rest.2)
      | some cause =>
          let seg := kcp.sent cause seg
          let rest := flushBuf buf
            { out := pass.out.put kcp.mtu seg
              change := pass.change || cause == .skipped
              lost := pass.lost || cause == .timeout
              state := if seg.xmit ≥ kcp.deadLink then -1 else pass.state }
          (seg :: rest.1, rest.2)

end Sending

section Flushing

/-- The slow start threshold, no smaller than two. -/
def boundThresh (thresh : BitVec 32) : BitVec 32 :=
  if thresh < threshMin then threshMin else thresh

/-- The congestion window after a pass through `snd_buf`, for the window it was made with. -/
def updateThresh (pass : Pass) (cwnd : BitVec 32) : Ikcpcb :=
  let mss := BitVec.ofNat 32 kcp.mss
  let kcp :=
    if pass.change then
      let thresh := boundThresh ((kcp.sndNxt - kcp.sndUna) / 2)
      let window := thresh + kcp.resent
      { kcp with ssthresh := thresh, cwnd := window, incr := window * mss }
    else
      kcp
  let kcp :=
    if pass.lost then
      { kcp with ssthresh := boundThresh (cwnd / 2), cwnd := 1, incr := mss }
    else
      kcp
  if kcp.cwnd < 1 then { kcp with cwnd := 1, incr := mss } else kcp

/-- The control block once acknowledgements and probes are in the buffer. -/
def commanded : Ikcpcb :=
  { kcp.timeProbe with acklist := [], probe := 0 }

/-- The control block once `snd_buf` has what it is sent from. -/
def moved : Ikcpcb :=
  kcp.commanded.moveQueue kcp.commanded.flushWindow

/-- `snd_buf` once it has been sent from, and what the pass has kept. -/
def flushed : List Segment × Pass :=
  let out := kcp.commandSegs.foldl (Output.put kcp.mtu) ⟨[], []⟩
  kcp.moved.flushBuf kcp.moved.sndBuf ⟨out, false, false, kcp.state⟩

/-- `ikcp_flush`: the control block after it, and the datagrams in order. -/
def flush : Ikcpcb × List (List Byte) :=
  if kcp.updated = false then
    (kcp, [])
  else
    ({ kcp.moved with
      sndBuf := kcp.flushed.1
      state := kcp.flushed.2.state }.updateThresh kcp.flushed.2 kcp.commanded.flushWindow,
      kcp.flushed.2.out.ikcpOutput.datagrams)

/-- `ikcp_update`. -/
def update (current : BitVec 32) : Ikcpcb × List (List Byte) :=
  let kcp := { kcp with current := current }
  let kcp := if kcp.updated then kcp else { kcp with updated := true, tsFlush := current }
  let slap := itimediff current kcp.tsFlush
  let far := slap ≥ 10000 ∨ slap < -10000
  let kcp := if far then { kcp with tsFlush := current } else kcp
  let slap := if far then 0 else slap
  if slap ≥ 0 then
    let next := kcp.tsFlush + kcp.interval
    let next := if itimediff current next ≥ 0 then current + kcp.interval else next
    { kcp with tsFlush := next }.flush
  else
    (kcp, [])

/-- The time until the first segment is due, none if one is. -/
def untilDue (current : BitVec 32) : Int → List Segment → Option Int
  | tmPacket, [] => some tmPacket
  | tmPacket, seg :: buf =>
      let left := itimediff seg.resendts current
      if left ≤ 0 then none else untilDue current (if left < tmPacket then left else tmPacket) buf

/-- `ikcp_check`. -/
def check (current : BitVec 32) : BitVec 32 :=
  if kcp.updated = false then
    current
  else
    let slap := itimediff current kcp.tsFlush
    let tsFlush := if slap ≥ 10000 ∨ slap < -10000 then current else kcp.tsFlush
    if itimediff current tsFlush ≥ 0 then
      current
    else
      match untilDue current 0x7fffffff kcp.sndBuf with
      | none => current
      | some tmPacket =>
          let tmFlush := itimediff tsFlush current
          let minimal := BitVec.ofInt 32 (if tmPacket < tmFlush then tmPacket else tmFlush)
          current + if minimal ≥ kcp.interval then kcp.interval else minimal

end Flushing

end Ikcpcb

end Xten.Ikcp
