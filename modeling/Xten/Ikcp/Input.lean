import Xten.Ikcp.ControlBlock

/-!
# What arrives

`ikcp_input`: the segments of a datagram one after the other, each of which may take
acknowledged segments out of `snd_buf` and put a new one into `rcv_buf`.
-/

namespace Xten.Ikcp

open Std.IntegerCodec Std.SerialNumbers

section Decoding

/-- `ikcp_decode8u`: the value, and where the pointer is after it. -/
def decode8u (p : List Byte) : BitVec 8 × List Byte :=
  (ofMemory (p.take 1), p.drop 1)

/-- `ikcp_decode16u`. -/
def decode16u (p : List Byte) : BitVec 16 × List Byte :=
  (ofMemory (p.take 2), p.drop 2)

/-- `ikcp_decode32u`. -/
def decode32u (p : List Byte) : BitVec 32 × List Byte :=
  (ofMemory (p.take 4), p.drop 4)

/-- `ikcp_getconv`. -/
def getconv (ptr : List Byte) : BitVec 32 :=
  (decode32u ptr).1

end Decoding

namespace Ikcpcb

section Acknowledged

variable (kcp : Ikcpcb)

/-- `ikcp_update_ack`. -/
def updateAck (rtt : BitVec 32) : Ikcpcb :=
  let kcp :=
    if kcp.rxSrtt = 0 then
      { kcp with rxSrtt := rtt, rxRttval := rtt.sdiv 2 }
    else
      let delta := (rtt - kcp.rxSrtt).toInt.natAbs
      let srtt := (7 * kcp.rxSrtt + rtt).sdiv 8
      { kcp with
        rxRttval := BitVec.ofInt 32 (((3 * kcp.rxRttval).toInt + delta).tdiv 4)
        rxSrtt := if srtt.toInt < 1 then 1 else srtt }
  let rto := kcp.rxSrtt + imax kcp.interval (4 * kcp.rxRttval)
  { kcp with rxRto := ibound kcp.rxMinrto rto rtoMax }

/-- `ikcp_shrink_buf`. -/
def shrinkBuf : Ikcpcb :=
  match kcp.sndBuf with
  | seg :: _ => { kcp with sndUna := seg.sn }
  | [] => { kcp with sndUna := kcp.sndNxt }

/-- `snd_buf` without the segment that has a number. -/
def removeAcked (sn : BitVec 32) : List Segment → List Segment
  | [] => []
  | seg :: buf =>
      if sn = seg.sn then buf
      else if itimediff sn seg.sn < 0 then seg :: buf
      else seg :: removeAcked sn buf

/-- `ikcp_parse_ack`. -/
def parseAck (sn : BitVec 32) : Ikcpcb :=
  if itimediff sn kcp.sndUna < 0 ∨ itimediff sn kcp.sndNxt ≥ 0 then
    kcp
  else
    { kcp with sndBuf := removeAcked sn kcp.sndBuf }

/-- `ikcp_parse_una`. -/
def parseUna (una : BitVec 32) : Ikcpcb :=
  { kcp with sndBuf := kcp.sndBuf.dropWhile fun seg => itimediff una seg.sn > 0 }

/-- `snd_buf` after an acknowledgement has skipped the segments before its own. -/
def skipped (sn : BitVec 32) : List Segment → List Segment
  | [] => []
  | seg :: buf =>
      if itimediff sn seg.sn < 0 then seg :: buf
      else if sn ≠ seg.sn then { seg with fastack := seg.fastack + 1 } :: skipped sn buf
      else seg :: skipped sn buf

/-- `ikcp_parse_fastack`. -/
def parseFastack (sn : BitVec 32) : Ikcpcb :=
  if itimediff sn kcp.sndUna < 0 ∨ itimediff sn kcp.sndNxt ≥ 0 then
    kcp
  else
    { kcp with sndBuf := skipped sn kcp.sndBuf }

end Acknowledged

section Data

variable (kcp : Ikcpcb)

/-- `ikcp_ack_push`. -/
def ackPush (sn ts : BitVec 32) : Ikcpcb :=
  { kcp with acklist := kcp.acklist ++ [(sn, ts)] }

/-- `rcv_buf` from its end, with a new segment put behind the first that comes before it; none
if its number is there. -/
def placeBack (newseg : Segment) : List Segment → Option (List Segment)
  | [] => some [newseg]
  | seg :: buf =>
      if seg.sn = newseg.sn then none
      else if itimediff newseg.sn seg.sn > 0 then some (newseg :: seg :: buf)
      else (placeBack newseg buf).map (seg :: ·)

/-- `rcv_buf` with a new segment. -/
def place (newseg : Segment) (buf : List Segment) : List Segment :=
  match placeBack newseg buf.reverse with
  | none => buf
  | some placed => placed.reverse

/-- `ikcp_parse_data`. -/
def parseData (newseg : Segment) : Ikcpcb :=
  if itimediff newseg.sn (kcp.rcvNxt + kcp.rcvWnd) ≥ 0 ∨ itimediff newseg.sn kcp.rcvNxt < 0 then
    kcp
  else
    { kcp with rcvBuf := place newseg kcp.rcvBuf }.moveReady

end Data

section Input

variable (kcp : Ikcpcb)

/-- The largest number that has been acknowledged in a datagram. -/
def newerAck (maxack : Option (BitVec 32)) (sn : BitVec 32) : BitVec 32 :=
  match maxack with
  | none => sn
  | some maxack => if itimediff sn maxack > 0 then sn else maxack

/-- The case `IKCP_CMD_ACK`. -/
def inputAck (seg : Segment) : Ikcpcb :=
  let kcp :=
    if itimediff kcp.current seg.ts ≥ 0 then kcp.updateAck (kcp.current - seg.ts) else kcp
  (kcp.parseAck seg.sn).shrinkBuf

/-- The case `IKCP_CMD_PUSH`. -/
def inputPush (seg : Segment) : Ikcpcb :=
  if itimediff seg.sn (kcp.rcvNxt + kcp.rcvWnd) < 0 then
    let kcp := kcp.ackPush seg.sn seg.ts
    if itimediff seg.sn kcp.rcvNxt ≥ 0 then kcp.parseData seg else kcp
  else
    kcp

/-- One segment of a datagram, the command of which is known. -/
def inputSegment (maxack : Option (BitVec 32)) (seg : Segment) :
    Ikcpcb × Option (BitVec 32) :=
  let kcp := { kcp with rmtWnd := seg.wnd }
  let kcp := (kcp.parseUna seg.una).shrinkBuf
  if seg.cmd = cmdAck then (kcp.inputAck seg, some (newerAck maxack seg.sn))
  else if seg.cmd = cmdPush then (kcp.inputPush seg, maxack)
  else if seg.cmd = cmdWask then ({ kcp with probe := kcp.probe ||| askTell }, maxack)
  else (kcp, maxack)

/-- The segments of a datagram until one cannot be taken: zero at its end, or what `ikcp_input`
returns. Each takes at least the bytes of its header. -/
def inputLoop : Nat → Ikcpcb → Option (BitVec 32) → List Byte →
    Int × Ikcpcb × Option (BitVec 32)
  | 0, kcp, maxack, _ => (0, kcp, maxack)
  | fuel + 1, kcp, maxack, data =>
      if data.length < overhead then
        (0, kcp, maxack)
      else
        let (conv, data) := decode32u data
        if conv ≠ kcp.conv then
          (-1, kcp, maxack)
        else
          let (cmd, data) := decode8u data
          let (frg, data) := decode8u data
          let (wnd, data) := decode16u data
          let (ts, data) := decode32u data
          let (sn, data) := decode32u data
          let (una, data) := decode32u data
          let (len, data) := decode32u data
          let cmd := cmd.setWidth 32
          if data.length < len.toNat then
            (-2, kcp, maxack)
          else if cmd ≠ cmdPush ∧ cmd ≠ cmdAck ∧ cmd ≠ cmdWask ∧ cmd ≠ cmdWins then
            (-3, kcp, maxack)
          else
            let seg : Segment :=
              ⟨conv, cmd, frg.setWidth 32, wnd.setWidth 32, ts, sn, una, 0, 0, 0, 0,
                data.take len.toNat⟩
            let taken := kcp.inputSegment maxack seg
            inputLoop fuel taken.1 taken.2 (data.drop len.toNat)

/-- The congestion window grows with what has been acknowledged. -/
def growWindow : Ikcpcb :=
  if kcp.cwnd < kcp.rmtWnd then
    let mss := BitVec.ofNat 32 kcp.mss
    let kcp : Ikcpcb :=
      if kcp.cwnd < kcp.ssthresh then
        { kcp with cwnd := kcp.cwnd + 1, incr := kcp.incr + mss }
      else
        let incr := if kcp.incr < mss then mss else kcp.incr
        let incr := incr + ((mss * mss) / incr + mss / 16)
        { kcp with
          incr := incr
          cwnd := if (kcp.cwnd + 1) * mss ≤ incr then kcp.cwnd + 1 else kcp.cwnd }
    if kcp.cwnd > kcp.rmtWnd then
      { kcp with cwnd := kcp.rmtWnd, incr := kcp.rmtWnd * mss }
    else
      kcp
  else
    kcp

/-- The segments that the acknowledgements of a datagram have skipped are marked. -/
def fastAcked (maxack : Option (BitVec 32)) : Ikcpcb :=
  match maxack with
  | none => kcp
  | some maxack => kcp.parseFastack maxack

/-- The end of `ikcp_input`, for the value of `snd_una` at its beginning. -/
def inputEnd (una : BitVec 32) (maxack : Option (BitVec 32)) : Ikcpcb :=
  let acked := kcp.fastAcked maxack
  if itimediff acked.sndUna una > 0 then acked.growWindow else acked

/-- `ikcp_input`. -/
def input (data : List Byte) : Int × Ikcpcb :=
  if data.length < overhead then
    (-1, kcp)
  else
    let taken := inputLoop data.length kcp none data
    if taken.1 ≠ 0 then (taken.1, taken.2.1)
    else (0, taken.2.1.inputEnd kcp.sndUna taken.2.2)

end Input

end Ikcpcb

end Xten.Ikcp
