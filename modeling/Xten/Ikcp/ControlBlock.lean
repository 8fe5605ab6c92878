import Xten.ByteArray.Nodes
import Xten.Std.IntegerCodec
import Xten.Std.SerialNumbers

/-!
# The control block of `ikcp`

`IKCPSEG`, `IKCPCB`, what a `KcpSession` sets up, and the two calls through which its user sends
and receives. A queue is a list, and the counter beside it is its length. The length field of a
segment is that of its data. Signed arithmetic wraps where C++ leaves it open.
-/

namespace Xten.Ikcp

open Std.IntegerCodec Std.SerialNumbers

section Constants

def rtoNdl : BitVec 32 := 30
def rtoMin : BitVec 32 := 100
def rtoDef : BitVec 32 := 200
def rtoMax : BitVec 32 := 60000
def cmdPush : BitVec 32 := 81
def cmdAck : BitVec 32 := 82
def cmdWask : BitVec 32 := 83
def cmdWins : BitVec 32 := 84
def askSend : BitVec 32 := 1
def askTell : BitVec 32 := 2
def wndSnd : BitVec 32 := 32
def wndRcv : BitVec 32 := 128
def mtuDef : Nat := 1400
def defaultInterval : BitVec 32 := 100
def overhead : Nat := 24
def defaultDeadLink : BitVec 32 := 20
def threshInit : BitVec 32 := 2
def threshMin : BitVec 32 := 2
def probeInit : BitVec 32 := 7000
def probeLimit : BitVec 32 := 120000

end Constants

section Numbers

/-- `_imin_`. -/
def imin (a b : BitVec 32) : BitVec 32 :=
  if a ≤ b then a else b

/-- `_imax_`. -/
def imax (a b : BitVec 32) : BitVec 32 :=
  if a ≥ b then a else b

/-- `_ibound_`. -/
def ibound (lower middle upper : BitVec 32) : BitVec 32 :=
  imin (imax lower middle) upper

/-- `_itimediff`. -/
abbrev itimediff (later earlier : BitVec 32) : Int :=
  diff later earlier

end Numbers

/-- `IKCPSEG`. -/
structure Segment where
  conv : BitVec 32
  cmd : BitVec 32
  frg : BitVec 32
  wnd : BitVec 32
  ts : BitVec 32
  sn : BitVec 32
  una : BitVec 32
  resendts : BitVec 32
  rto : BitVec 32
  fastack : BitVec 32
  xmit : BitVec 32
  data : List Byte
deriving DecidableEq, Repr

/-- A segment of `snd_queue`: `ikcp_flush` sets the other fields before it reads them. -/
def Segment.fragment (frg : BitVec 32) (data : List Byte) : Segment :=
  ⟨0, 0, frg, 0, 0, 0, 0, 0, 0, 0, 0, data⟩

/-- `IKCPCB`. -/
structure Ikcpcb where
  conv : BitVec 32
  mtu : Nat
  mss : Nat
  state : BitVec 32
  sndUna : BitVec 32
  sndNxt : BitVec 32
  rcvNxt : BitVec 32
  ssthresh : BitVec 32
  rxRttval : BitVec 32
  rxSrtt : BitVec 32
  rxRto : BitVec 32
  rxMinrto : BitVec 32
  sndWnd : BitVec 32
  rcvWnd : BitVec 32
  rmtWnd : BitVec 32
  cwnd : BitVec 32
  probe : BitVec 32
  current : BitVec 32
  interval : BitVec 32
  tsFlush : BitVec 32
  nodelay : BitVec 32
  updated : Bool
  tsProbe : BitVec 32
  probeWait : BitVec 32
  deadLink : BitVec 32
  incr : BitVec 32
  sndQueue : List Segment
  rcvQueue : List Segment
  sndBuf : List Segment
  rcvBuf : List Segment
  acklist : List (BitVec 32 × BitVec 32)
  fastresend : Int
  nocwnd : Int
  stream : Int
deriving DecidableEq, Repr

namespace Ikcpcb

section Setup

/-- `ikcp_create`. -/
def create (conv : BitVec 32) : Ikcpcb where
  conv := conv
  mtu := mtuDef
  mss := mtuDef - overhead
  state := 0
  sndUna := 0
  sndNxt := 0
  rcvNxt := 0
  ssthresh := threshInit
  rxRttval := 0
  rxSrtt := 0
  rxRto := rtoDef
  rxMinrto := rtoMin
  sndWnd := wndSnd
  rcvWnd := wndRcv
  rmtWnd := wndRcv
  cwnd := 0
  probe := 0
  current := 0
  interval := defaultInterval
  tsFlush := defaultInterval
  nodelay := 0
  updated := false
  tsProbe := 0
  probeWait := 0
  deadLink := defaultDeadLink
  incr := 0
  sndQueue := []
  rcvQueue := []
  sndBuf := []
  rcvBuf := []
  acklist := []
  fastresend := 0
  nocwnd := 0
  stream := 0

/-- An interval between 10 ms and 5 s. -/
def boundInterval (interval : Int) : BitVec 32 :=
  if interval > 5000 then 5000 else if interval < 10 then 10 else BitVec.ofInt 32 interval

/-- `ikcp_nodelay`. A negative argument leaves its field as it is. -/
def setNodelay (kcp : Ikcpcb) (nodelay interval resend nc : Int) : Ikcpcb :=
  let kcp :=
    if nodelay ≥ 0 then
      { kcp with
        nodelay := BitVec.ofInt 32 nodelay
        rxMinrto := if nodelay ≠ 0 then rtoNdl else rtoMin }
    else
      kcp
  let kcp := if interval ≥ 0 then { kcp with interval := boundInterval interval } else kcp
  let kcp := if resend ≥ 0 then { kcp with fastresend := resend } else kcp
  if nc ≥ 0 then { kcp with nocwnd := nc } else kcp

/-- `ikcp_setmtu`. -/
def setmtu (kcp : Ikcpcb) (mtu : Int) : Int × Ikcpcb :=
  if mtu < 50 ∨ mtu < overhead then
    (-1, kcp)
  else
    (0, { kcp with mtu := mtu.toNat, mss := mtu.toNat - overhead })

/-- `ikcp_wndsize`. -/
def wndsize (kcp : Ikcpcb) (sndwnd rcvwnd : Int) : Ikcpcb :=
  let kcp := if sndwnd > 0 then { kcp with sndWnd := BitVec.ofInt 32 sndwnd } else kcp
  if rcvwnd > 0 then { kcp with rcvWnd := imax (BitVec.ofInt 32 rcvwnd) wndRcv } else kcp

end Setup

/-- What a `KcpSession` is constructed with. -/
structure Settings where
  nodelay : Int
  interval : Int
  resend : Int
  nc : Int
  mtxsize : Int
  sndwnd : Int
  rcvwnd : Int
deriving DecidableEq, Repr

/-- The control block that the constructor of `KcpSession` sets up. -/
def session (convid : BitVec 32) (settings : Settings) : Ikcpcb :=
  let kcp := (create convid).setNodelay settings.nodelay settings.interval settings.resend
    settings.nc
  (kcp.setmtu settings.mtxsize).2.wndsize settings.sndwnd settings.rcvwnd

section Send

/-- The segments of a message, the last of which has number zero. In stream mode each has. -/
def fragments (mss : Nat) (stream : Int) : Nat → List Byte → List Segment
  | 0, _ => []
  | count + 1, buffer =>
      Segment.fragment (if stream = 0 then BitVec.ofNat 32 count else 0) (buffer.take mss) ::
        fragments mss stream count (buffer.drop mss)

/-- How many segments some bytes need. -/
def fragmentCount (mss len : Nat) : Nat :=
  if len ≤ mss then 1 else (len + mss - 1) / mss

/-- In stream mode the last segment of `snd_queue` is filled up first. -/
def fillLast (kcp : Ikcpcb) (buffer : List Byte) : Ikcpcb × List Byte :=
  match kcp.sndQueue.getLast? with
  | none => (kcp, buffer)
  | some old =>
      if old.data.length < kcp.mss then
        let extend := min buffer.length (kcp.mss - old.data.length)
        ({ kcp with
          sndQueue := kcp.sndQueue.dropLast ++
            [Segment.fragment 0 (old.data ++ buffer.take extend)] },
          buffer.drop extend)
      else
        (kcp, buffer)

/-- The bytes become segments of their own. -/
def sendRest (kcp : Ikcpcb) (buffer : List Byte) : Int × Ikcpcb :=
  let count := fragmentCount kcp.mss buffer.length
  if count ≥ wndRcv.toNat then
    (-2, kcp)
  else
    (0, { kcp with sndQueue := kcp.sndQueue ++ fragments kcp.mss kcp.stream count buffer })

/-- `ikcp_send`. -/
def send (kcp : Ikcpcb) (buffer : List Byte) : Int × Ikcpcb :=
  if kcp.stream ≠ 0 then
    let (kcp, buffer) := kcp.fillLast buffer
    if buffer.length = 0 then (0, kcp) else kcp.sendRest buffer
  else
    kcp.sendRest buffer

/-- `ikcp_waitsnd`. -/
def waitsnd (kcp : Ikcpcb) : Nat :=
  kcp.sndBuf.length + kcp.sndQueue.length

end Send

section Receive

/-- The length of the first message. -/
def firstLength : List Segment → Nat
  | [] => 0
  | seg :: queue => if seg.frg = 0 then seg.data.length else seg.data.length + firstLength queue

/-- `ikcp_peeksize`. -/
def peeksize (kcp : Ikcpcb) : Int :=
  match kcp.rcvQueue with
  | [] => -1
  | seg :: _ =>
      if seg.frg = 0 then
        seg.data.length
      else if kcp.rcvQueue.length < (seg.frg + 1).toNat then
        -1
      else
        firstLength kcp.rcvQueue

/-- The data of the first message, and the segments behind it. -/
def merge : List Segment → List Byte × List Segment
  | [] => ([], [])
  | seg :: queue =>
      if seg.frg = 0 then
        (seg.data, queue)
      else
        (seg.data ++ (merge queue).1, (merge queue).2)

/-- The segments that are next in order go from `rcv_buf` to `rcv_queue`, while this has room:
both queues and `rcv_nxt` after it. -/
def takeReady (wnd : BitVec 32) : List Segment → List Segment → BitVec 32 →
    List Segment × List Segment × BitVec 32
  | [], queue, nxt => ([], queue, nxt)
  | seg :: buf, queue, nxt =>
      if seg.sn = nxt ∧ queue.length < wnd.toNat then
        takeReady wnd buf (queue ++ [seg]) (nxt + 1)
      else
        (seg :: buf, queue, nxt)

def moveReady (kcp : Ikcpcb) : Ikcpcb :=
  let taken := takeReady kcp.rcvWnd kcp.rcvBuf kcp.rcvQueue kcp.rcvNxt
  { kcp with rcvBuf := taken.1, rcvQueue := taken.2.1, rcvNxt := taken.2.2 }

/-- The first message is taken out, unless a negative length only looks at it. -/
def taken (kcp : Ikcpcb) (len : Int) : Ikcpcb :=
  if len < 0 then kcp else { kcp with rcvQueue := (merge kcp.rcvQueue).2 }

/-- The other side is told of the window, if this was closed before and is not now. -/
def fastRecover (kcp : Ikcpcb) (recover : Bool) : Ikcpcb :=
  if kcp.rcvQueue.length < kcp.rcvWnd.toNat ∧ recover then
    { kcp with probe := kcp.probe ||| askTell }
  else
    kcp

/-- `ikcp_recv`: what it returns, what it puts into the buffer, and the control block after it. -/
def recv (kcp : Ikcpcb) (len : Int) : Int × List Byte × Ikcpcb :=
  if kcp.rcvQueue = [] then
    (-1, [], kcp)
  else if kcp.peeksize < 0 then
    (-2, [], kcp)
  else if kcp.peeksize > len.natAbs then
    (-3, [], kcp)
  else
    let recover := kcp.rcvQueue.length ≥ kcp.rcvWnd.toNat
    let data := (merge kcp.rcvQueue).1
    (data.length, data, (kcp.taken len).moveReady.fastRecover recover)

end Receive

end Ikcpcb

end Xten.Ikcp
