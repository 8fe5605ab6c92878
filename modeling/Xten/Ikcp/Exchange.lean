import Xten.Ikcp.Reliability

/-!
# Runs of two sessions

Each event of either side or of the network keeps both directions. So in every run what has been
read is the beginning of what the other side has sent. Once `ikcp_waitsnd` is zero, the other side
has every message, and need only read.
-/

namespace Xten.Ikcp

open Std.Interleaving Std.SerialNumbers
open Ikcpcb (Settings session fragmentCount)

section Arriving

variable {conv : BitVec 32} {sender receiver : Party} {kcp : Ikcpcb} {seg : Segment}
  {maxack : Option (BitVec 32)}

/-- A control block of the receiver while it takes the segments of a datagram. -/
structure Intake (sender receiver : Party) (kcp : Ikcpcb) : Prop where
  sound : kcp.Sound
  fixed : kcp.fixed = receiver.kcp.fixed
  grows : receiver.kcp.Grows kcp
  sends : kcp.Sends receiver.wire sender.kcp.Has
  receives : kcp.Receives sender.wire sender.kcp.sndNxt.toNat
    (receiver.read.flatMap (pieces sender.kcp.mss))

theorem Intake.segment (intake : Intake sender receiver kcp)
    (few : sender.wire.length < 2 ^ 31) (fewBack : receiver.wire.length < 2 ^ 31)
    (forth : Direction sender receiver) (back : Direction receiver sender)
    (known : seg.Known conv) (honest : sender.kcp.Honest sender.wire seg) :
    Intake sender receiver (kcp.inputSegment maxack seg.received).1 ∧
      kcp.Grows (kcp.inputSegment maxack seg.received).1 := by
  have true := honest.received known
  have sent := forth.sends.count
  have sentBack := back.sends.count
  have nxt := back.receives.nxt
  have una := true.una
  have window : seg.received.wnd.toNat < 2 ^ 16 := by
    change ((seg.wnd.setWidth 16).setWidth 32).toNat < _
    rw [BitVec.toNat_setWidth, BitVec.toNat_setWidth]
    omega
  obtain ⟨receives, grows⟩ := intake.receives.inputSegment intake.sound (by omega) window true.push
  have sends : (kcp.inputSegment maxack seg.received).1.Sends receiver.wire sender.kcp.Has :=
    intake.sends.inputSegment fewBack (by omega) (fun n before => .inl (by omega)) true.ack
  exact ⟨{
    sound := intake.sound.inputSegment window
    fixed := (Ikcpcb.fixed_inputSegment maxack seg.received).trans intake.fixed
    grows := intake.grows.trans grows
    sends := sends
    receives := receives }, grows⟩

theorem Intake.segments (intake : Intake sender receiver kcp)
    (few : sender.wire.length < 2 ^ 31) (fewBack : receiver.wire.length < 2 ^ 31)
    (forth : Direction sender receiver) (back : Direction receiver sender) {segs : List Segment}
    (honest : ∀ seg ∈ segs, seg.Known conv ∧ sender.kcp.Honest sender.wire seg) :
    Intake sender receiver (Ikcpcb.inputSegments (kcp, maxack) segs).1 := by
  induction segs generalizing kcp maxack with
  | nil => exact intake
  | cons seg segs ih =>
      obtain ⟨known, true⟩ := honest seg List.mem_cons_self
      exact ih (intake.segment few fewBack forth back known true).1 fun other isOther =>
        honest other (List.mem_cons_of_mem _ isOther)

theorem Intake.inputEnd (intake : Intake sender receiver kcp) (una : BitVec 32) :
    Intake sender receiver (kcp.inputEnd una maxack) := by
  obtain ⟨buf, cwnd, incr, same, loads⟩ := kcp.inputEnd_eq una maxack
  rw [same]
  exact {
    sound := { intake.sound.relabel loads with }
    fixed := intake.fixed
    grows := intake.grows.trans (.congr rfl rfl)
    sends := { intake.sends.relabel loads with }
    receives := intake.receives.congr rfl intake.receives.acks }

/-- A datagram that the other side has posted is taken as a whole. -/
theorem Intake.input (few : sender.wire.length < 2 ^ 31) (fewBack : receiver.wire.length < 2 ^ 31)
    (forth : Direction sender receiver) (back : Direction receiver sender)
    (sound : receiver.kcp.Sound) (same : sender.kcp.conv = receiver.kcp.conv)
    {datagram : List Byte} (isPosted : datagram ∈ sender.posted) :
    Intake sender receiver (receiver.kcp.input datagram).2 := by
  obtain ⟨segs, some, rfl, honest⟩ := forth.posted datagram isPosted
  have known : ∀ seg ∈ segs, seg.Known receiver.kcp.conv := fun seg isSeg =>
    same ▸ (honest seg isSeg).1
  have start : Intake sender receiver receiver.kcp :=
    ⟨sound, rfl, .refl _, back.sends, forth.receives⟩
  rw [Ikcpcb.input_encode some known]
  exact (start.segments few fewBack forth back honest).inputEnd _

end Arriving

section Events

variable {conv : BitVec 32} {sender receiver : Party}

theorem Ikcpcb.send_eq {kcp : Ikcpcb} (stream : kcp.stream = 0) (buffer : List Byte) :
    kcp.send buffer = kcp.sendRest buffer :=
  if_neg (not_not_intro stream)

theorem Party.send_cases {party : Party} (stream : party.kcp.stream = 0) (buffer : List Byte) :
    party.send buffer = party ∨
      fragmentCount party.kcp.mss buffer.length < wndRcv.toNat ∧
        party.send buffer = { party with
          kcp := { party.kcp with
            sndQueue := party.kcp.sndQueue ++ pieces party.kcp.mss buffer }
          accepted := party.accepted ++ [buffer] } := by
  rw [Party.send, Ikcpcb.send_eq stream, Ikcpcb.sendRest]
  by_cases many : fragmentCount party.kcp.mss buffer.length ≥ wndRcv.toNat
  · left
    rw [if_pos many]
    rfl
  · right
    have whole : Ikcpcb.fragments party.kcp.mss party.kcp.stream
        (fragmentCount party.kcp.mss buffer.length) buffer = pieces party.kcp.mss buffer := by
      rw [stream, pieces]
    rw [if_neg many, whole]
    exact ⟨not_le.mp many, rfl⟩

namespace Direction

/-- The sender takes a message. -/
theorem send (dir : Direction sender receiver) (stream : sender.kcp.stream = 0)
    (buffer : List Byte) : Direction (sender.send buffer) receiver := by
  rcases Party.send_cases stream buffer with same | ⟨short, same⟩
  · rw [same]
    exact dir
  · rw [same]
    have sends := dir.sends
    have held := sends.count
    have longer : ({ sender.kcp with
        sndQueue := sender.kcp.sndQueue ++ pieces sender.kcp.mss buffer } : Ikcpcb).Sends
        (sender.wire ++ [buffer].flatMap (pieces sender.kcp.mss)) receiver.kcp.Has := by
      refine { sends with count := ?_, queue := ?_, buf := ?_ }
      · rw [List.length_append]
        exact held.trans (Nat.le_add_right _ _)
      · change sender.kcp.sndQueue ++ _ = _
        rw [List.drop_append_of_le_length held, sends.queue, List.flatMap_singleton]
      · intro seg isSeg
        obtain ⟨before, stands⟩ := sends.buf seg isSeg
        refine ⟨before, ?_⟩
        rw [List.getElem?_append_left (by omega)]
        exact stands
    have taken := dir.sending [buffer] sender.read [] longer rfl (.congr rfl rfl)
      (by simpa using short) (by simp)
    simpa using taken

theorem sendBack (dir : Direction receiver sender) (stream : sender.kcp.stream = 0)
    (buffer : List Byte) : Direction receiver (sender.send buffer) := by
  rcases Party.send_cases stream buffer with same | ⟨-, same⟩
  · rw [same]
    exact dir
  · rw [same]
    exact dir.receiving _ _ (.congr rfl rfl) dir.order (dir.receives.congr rfl dir.receives.acks)

/-- Nothing is taken and nothing is said. -/
theorem keeping {kcp : Ikcpcb} (dir : Direction sender receiver) (read : List (List Byte))
    (sends : kcp.Sends sender.wire receiver.kcp.Has) (fixed : kcp.fixed = sender.kcp.fixed)
    (grows : sender.kcp.Grows kcp) :
    Direction { sender with kcp := kcp, read := read } receiver := by
  have taken := dir.sending [] read [] (by simpa using sends) fixed grows (by simp) (by simp)
  simpa using taken

/-- A message that is announced is the next that has been accepted. -/
theorem next (forth : Direction sender receiver) (positive : 0 < sender.kcp.mss)
    (complete : 0 ≤ receiver.kcp.peeksize) :
    ∃ message later, sender.accepted = receiver.read ++ message :: later ∧
      (Ikcpcb.merge receiver.kcp.rcvQueue).1 = message ∧
      pieces sender.kcp.mss message ++ (Ikcpcb.merge receiver.kcp.rcvQueue).2.map Segment.frag =
        receiver.kcp.rcvQueue.map Segment.frag := by
  have split : sender.accepted =
      receiver.read ++ sender.accepted.drop receiver.read.length := by
    nth_rewrite 1 [← List.take_append_drop receiver.read.length sender.accepted, ← forth.order]
    rfl
  have wire : sender.wire = receiver.read.flatMap (pieces sender.kcp.mss) ++
      (sender.accepted.drop receiver.read.length).flatMap (pieces sender.kcp.mss) := by
    rw [Party.wire, ← List.flatMap_append, ← split]
  have queue := congrArg (List.drop (receiver.read.flatMap (pieces sender.kcp.mss)).length)
    forth.receives.queue
  rw [List.drop_left, wire, List.drop_take, List.drop_left] at queue
  cases isLater : sender.accepted.drop receiver.read.length with
  | nil =>
      rw [isLater] at queue
      simp at queue
      rw [Ikcpcb.peeksize, queue] at complete
      exact absurd complete (by decide)
  | cons message later =>
      rw [isLater] at split
      rw [isLater, List.flatMap_cons] at queue
      have isMessage : message ∈ sender.accepted := by
        rw [split]
        simp
      have short : fragmentCount sender.kcp.mss message.length < 128 := forth.short message isMessage
      obtain ⟨isFirst, whole⟩ := Ikcpcb.first_message positive (by omega) queue complete
      exact ⟨message, later, split, isFirst, whole⟩

/-- The next message is returned. -/
theorem recv (forth : Direction sender receiver) (back : Direction receiver sender)
    (sound : receiver.kcp.Sound) (positive : 0 < sender.kcp.mss)
    (few : sender.wire.length < 2 ^ 31) (len : Nat) :
    Direction sender (receiver.recv len) ∧ Direction (receiver.recv len) sender := by
  have sent := forth.sends.count
  rcases receiver.kcp.recv_cases len with ⟨failed, same⟩ | ⟨some, complete, -, same⟩
  · rw [Party.recv, if_neg (by omega), same]
    exact ⟨forth, back⟩
  · have received : 0 ≤ (receiver.kcp.recv len).1 := by
      rw [same]
      exact Int.natCast_nonneg _
    have data : (receiver.kcp.recv len).2.1 = (Ikcpcb.merge receiver.kcp.rcvQueue).1 := by
      rw [same]
    obtain ⟨message, later, split, isFirst, whole⟩ := forth.next positive complete
    have begun : (receiver.read ++ [message]).flatMap (pieces sender.kcp.mss) ++
        (Ikcpcb.merge receiver.kcp.rcvQueue).2.map Segment.frag =
        receiver.read.flatMap (pieces sender.kcp.mss) ++
          receiver.kcp.rcvQueue.map Segment.frag := by
      rw [List.flatMap_append, List.flatMap_singleton, List.append_assoc, whole]
    obtain ⟨receives, grows⟩ := forth.receives.recv sound (by omega) received begun
    have order : receiver.read ++ [message] =
        sender.accepted.take (receiver.read ++ [message]).length := by
      rw [split, List.length_append, List.take_length_add_append]
      rfl
    rw [Party.recv, if_pos received, data, isFirst]
    exact ⟨forth.receiving _ _ grows order receives,
      back.keeping _ (back.sends.congr (Ikcpcb.outgoing_recv _)) (Ikcpcb.fixed_recv _) grows⟩

/-- The sender flushes. -/
theorem flush (forth : Direction sender receiver) (back : Direction receiver sender)
    (sound : sender.kcp.Sound) (few : sender.wire.length < 2 ^ 31) :
    Direction (sender.post sender.kcp.flush) receiver ∧
      Direction receiver (sender.post sender.kcp.flush) := by
  obtain ⟨sends, grows⟩ := forth.sends.flush sound few sender.plain_wire
  have told : ∀ datagram ∈ sender.kcp.flush.2, ∃ segs, segs ≠ [] ∧ datagram = encode segs ∧
      ∀ seg ∈ segs, seg.Known sender.kcp.conv ∧
        sender.kcp.flush.1.Honest
          (sender.wire ++ ([] : List (List Byte)).flatMap (pieces sender.kcp.mss)) seg := by
    intro datagram isFlushed
    by_cases updated : sender.kcp.updated = true
    · obtain ⟨groups, flushed, whole, full⟩ := Ikcpcb.flush_groups sound updated
      rw [flushed] at isFlushed
      obtain ⟨group, isGroup, rfl⟩ := List.mem_map.mp isFlushed
      refine ⟨group, (full group isGroup).1, rfl, fun seg isSeg => ?_⟩
      have isSent : seg ∈ sender.kcp.flushSegs :=
        whole ▸ List.mem_flatten.mpr ⟨group, isGroup, isSeg⟩
      rw [List.flatMap_nil, List.append_nil]
      exact ⟨(Ikcpcb.known_flushSegs sound isSent).1,
        Ikcpcb.honest_flushSegs forth.sends back.receives sound few sender.plain_wire updated isSent⟩
    · rw [Ikcpcb.flush, if_pos (by simpa using updated)] at isFlushed
      cases isFlushed
  have flushed := forth.sending [] sender.read sender.kcp.flush.2 (by simpa using sends)
    Ikcpcb.fixed_flush grows (by simp) told
  rw [List.append_nil] at flushed
  exact ⟨flushed, back.receiving _ _ grows back.order back.receives.flush⟩

/-- The sender updates. -/
theorem update (forth : Direction sender receiver) (back : Direction receiver sender)
    (sound : sender.kcp.Sound) (few : sender.wire.length < 2 ^ 31) (current : BitVec 32) :
    Direction (sender.post (sender.kcp.update current)) receiver ∧
      Direction receiver (sender.post (sender.kcp.update current)) := by
  obtain ⟨tsFlush, same⟩ := sender.kcp.update_eq current
  have timed : Direction { sender with
      kcp := { sender.kcp with current, updated := true, tsFlush } } receiver :=
    forth.keeping sender.read { forth.sends with } rfl (.congr rfl rfl)
  have timedBack : Direction receiver { sender with
      kcp := { sender.kcp with current, updated := true, tsFlush } } :=
    back.receiving _ _ (.congr rfl rfl) back.order (back.receives.congr rfl back.receives.acks)
  rcases same with flushes | waits
  · rw [flushes]
    exact timed.flush timedBack { sound with } few
  · rw [waits, Party.post, List.append_nil]
    exact ⟨timed, timedBack⟩

/-- A datagram arrives. -/
theorem input (forth : Direction sender receiver) (back : Direction receiver sender)
    (sound : receiver.kcp.Sound) (same : sender.kcp.conv = receiver.kcp.conv)
    (few : sender.wire.length < 2 ^ 31) (fewBack : receiver.wire.length < 2 ^ 31)
    {datagram : List Byte} (isPosted : datagram ∈ sender.posted) :
    Direction sender (receiver.input datagram) ∧ Direction (receiver.input datagram) sender := by
  have intake := Intake.input few fewBack forth back sound same isPosted
  exact ⟨forth.receiving _ _ intake.grows forth.order intake.receives,
    back.keeping _ intake.sends intake.fixed intake.grows⟩

end Direction

end Events

theorem Ikcpcb.session_empty (conv : BitVec 32) (settings : Settings) :
    (session conv settings).outgoing = (0, [], []) ∧
      (session conv settings).incoming = (0, [], []) ∧ (session conv settings).acklist = [] := by
  obtain ⟨nodelay, rxMinrto, interval, fastresend, nocwnd, timed⟩ := setNodelay_eq (create conv)
    settings.nodelay settings.interval settings.resend settings.nc
  rw [session, timed, setmtu, wndsize]
  repeat' split
  all_goals exact ⟨rfl, rfl, rfl⟩

namespace Party

variable {conv : BitVec 32} {party : Party}

theorem Steady.of_fixed {after : Party} (steady : party.Steady conv) (sound : after.kcp.Sound)
    (fixed : after.kcp.fixed = party.kcp.fixed) : after.Steady conv := by
  have same : after.kcp.conv = party.kcp.conv := congrArg Prod.fst fixed
  have stream : after.kcp.stream = party.kcp.stream :=
    congrArg (fun fixed => fixed.2.2.2.2.2) fixed
  exact ⟨sound, same.trans steady.conv, stream.trans steady.stream⟩

/-- No event takes back what has been sent. -/
theorem wire_le {after : Party} (fixed : after.kcp.fixed = party.kcp.fixed)
    (accepted : party.accepted <+: after.accepted) : party.wire.length ≤ after.wire.length := by
  have mss : after.kcp.mss = party.kcp.mss := congrArg (fun fixed => fixed.2.2.1) fixed
  obtain ⟨messages, accepted⟩ := accepted
  rw [wire, wire, mss, ← accepted, List.flatMap_append, List.length_append]
  exact Nat.le_add_right _ _

end Party

namespace Peers

variable {conv : BitVec 32} {peers after : Peers} {event : Event}

/-- What every event keeps. -/
structure Inv (conv : BitVec 32) (peers : Peers) : Prop where
  steady : ∀ side, (peers side).Steady conv
  direction : ∀ side, Direction (peers side) (peers !side)

/-- One side goes on. -/
theorem Inv.put (inv : peers.Inv conv) {side : Bool} {party : Party}
    (steady : party.Steady conv)
    (kept : Direction party (peers !side) ∧ Direction (peers !side) party) :
    Inv conv (Function.update peers side party) := by
  constructor
  · intro other
    by_cases same : other = side
    · subst same
      rwa [Function.update_self]
    · rw [Function.update_of_ne same]
      exact inv.steady other
  · intro other
    by_cases same : other = side
    · subst same
      rw [Function.update_self, Function.update_of_ne (by simp)]
      exact kept.1
    · have opposite : side = !other := by
        cases side <;> cases other <;> simp_all
      subst opposite
      rw [Function.update_self, Function.update_of_ne same]
      simpa using kept.2

/-- Which side an event is at, and what it may bring about. -/
theorem Inv.step (inv : peers.Inv conv) (few : peers.Few) (next : peers.step event = some after) :
    after.Inv conv := by
  have back (side : Bool) : Direction (peers !side) (peers side) := by
    simpa using inv.direction !side
  have conv_eq (side : Bool) : (peers side).kcp.conv = (peers !side).kcp.conv :=
    (inv.steady side).conv.trans (inv.steady !side).conv.symm
  cases event with
  | send side buffer =>
      cases next
      have steady := inv.steady side
      exact inv.put (steady.of_fixed steady.sound.send (Ikcpcb.fixed_send buffer))
        ⟨(inv.direction side).send steady.stream buffer, (back side).sendBack steady.stream buffer⟩
  | recv side len =>
      cases next
      have steady := inv.steady side
      have read := (back side).recv (inv.direction side) steady.sound
        (inv.steady !side).sound.mss.1 (few !side) len
      exact inv.put (steady.of_fixed (steady.sound.recv len) (Ikcpcb.fixed_recv len)) read.symm
  | update side current =>
      cases next
      have steady := inv.steady side
      exact inv.put (steady.of_fixed (steady.sound.update current) (Ikcpcb.fixed_update current))
        ((inv.direction side).update (back side) steady.sound (few side) current)
  | flush side =>
      cases next
      have steady := inv.steady side
      exact inv.put (steady.of_fixed steady.sound.flush Ikcpcb.fixed_flush)
        ((inv.direction side).flush (back side) steady.sound (few side))
  | arrive side datagram =>
      obtain ⟨isPosted, taken⟩ := Option.ite_none_right_eq_some.mp next
      cases taken
      have steady := inv.steady side
      have arrived := (back side).input (inv.direction side) steady.sound (conv_eq side).symm
        (few !side) (few side) (List.contains_iff_mem.mp isPosted)
      exact inv.put (steady.of_fixed (steady.sound.input datagram) (Ikcpcb.fixed_input datagram))
        arrived.symm

/-- No event takes back a message, or changes what is set. -/
theorem step_keeps (next : peers.step event = some after) (side : Bool) :
    (peers side).accepted <+: (after side).accepted ∧
      (after side).kcp.fixed = (peers side).kcp.fixed := by
  have put {acting : Bool} {party : Party} (accepted : (peers acting).accepted <+: party.accepted)
      (fixed : party.kcp.fixed = (peers acting).kcp.fixed) :
      (peers side).accepted <+: (Function.update peers acting party side).accepted ∧
        (Function.update peers acting party side).kcp.fixed = (peers side).kcp.fixed := by
    by_cases same : side = acting
    · subst same
      rw [Function.update_self]
      exact ⟨accepted, fixed⟩
    · rw [Function.update_of_ne same]
      exact ⟨List.prefix_refl _, rfl⟩
  cases event with
  | send acting buffer =>
      cases next
      refine put ?_ (Ikcpcb.fixed_send buffer)
      change _ <+: if _ then _ else _
      split
      · exact List.prefix_append _ _
      · exact List.prefix_refl _
  | recv acting len =>
      cases next
      exact put (List.prefix_refl _) (Ikcpcb.fixed_recv len)
  | update acting current =>
      cases next
      exact put (List.prefix_refl _) (Ikcpcb.fixed_update current)
  | flush acting =>
      cases next
      exact put (List.prefix_refl _) Ikcpcb.fixed_flush
  | arrive acting datagram =>
      obtain ⟨-, taken⟩ := Option.ite_none_right_eq_some.mp next
      cases taken
      exact put (List.prefix_refl _) (Ikcpcb.fixed_input datagram)

theorem wire_step (next : peers.step event = some after) (side : Bool) :
    (peers side).wire.length ≤ (after side).wire.length :=
  Party.wire_le (step_keeps next side).2 (step_keeps next side).1

/-- Every event is allowed. -/
abbrev Reaches (before after : Peers) : Prop :=
  Runs step (fun _ _ => True) before after

theorem Inv.reaches (inv : peers.Inv conv) (run : peers.Reaches after) (few : after.Few) :
    after.Inv conv := by
  induction run with
  | refl => exact inv
  | tail run _ next ih =>
      have fewBefore : Few _ := fun side => (wire_step next side).trans_lt (few side)
      exact (ih fewBefore).step fewBefore next

theorem fixed_reaches (run : peers.Reaches after) (side : Bool) :
    (after side).kcp.fixed = (peers side).kcp.fixed := by
  induction run with
  | refl => rfl
  | tail run _ next ih => exact (step_keeps next side).2.trans ih

theorem inv_fresh (conv : BitVec 32) {settings : Bool → Settings}
    (ints : ∀ side, (settings side).Ints) : (fresh conv settings).Inv conv := by
  constructor
  · intro side
    obtain ⟨same, stream⟩ := Ikcpcb.session_fixed conv (settings side)
    exact ⟨Ikcpcb.sound_session conv (ints side), same, stream⟩
  · intro side
    obtain ⟨outgoing, -, -⟩ := Ikcpcb.session_empty conv (settings side)
    obtain ⟨-, incoming, acks⟩ := Ikcpcb.session_empty conv (settings !side)
    have nothing : ({ session conv (settings side) with
        sndNxt := 0, sndQueue := [], sndBuf := [] } : Ikcpcb).Sends []
        (session conv (settings !side)).Has := ⟨le_rfl, rfl, by simp, by simp⟩
    have noneYet : ({ session conv (settings !side) with
        rcvNxt := 0, rcvQueue := [], rcvBuf := [], acklist := [] } : Ikcpcb).Receives [] 0 [] :=
      ⟨le_rfl, by simp, rfl, by simp⟩
    have sndNxt : (session conv (settings side)).sndNxt = 0 := congrArg Prod.fst outgoing
    refine ⟨by simp [fresh], rfl, nothing.congr outgoing, ?_, by simp [fresh]⟩
    change (session conv (settings !side)).Receives [] (session conv (settings side)).sndNxt.toNat []
    rw [sndNxt]
    exact noneYet.congr incoming (by rw [acks]; simp)

/-- What has been read on one side are the first messages that the other side has sent: each
whole, once and in order. -/
theorem read_isPrefix {settings : Bool → Settings} (ints : ∀ side, (settings side).Ints)
    (run : (fresh conv settings).Reaches peers) (few : peers.Few) (side : Bool) :
    (peers side).read <+: (peers !side).accepted := by
  have dir := ((inv_fresh conv ints).reaches run few).direction !side
  rw [Bool.not_not] at dir
  rw [dir.order]
  exact List.take_prefix _ _

/-- Some events, which a state without the datagrams that arrive would not allow. -/
def events (peers : Peers) (events : List Event) : Peers :=
  (replay step (fun _ _ => true) events peers).getD peers

theorem reaches_events (peers : Peers) (actions : List Event) :
    peers.Reaches (peers.events actions) := by
  rw [events]
  cases taken : replay step (fun _ _ => true) actions peers with
  | none => exact .refl _
  | some after => exact .of_replay (fun _ _ _ => trivial) taken

/-- Two segments arrive in the wrong order, and one of them twice. -/
theorem read_isPrefix_reordered :
    let message := List.replicate 30 (1 : Byte)
    let sent := (fresh 7 fun _ => ⟨1, 20, 2, 1, 50, 32, 32⟩).events
      [.send false message, .update false 100]
    let peers := sent.events (((sent false).posted.reverse ++ (sent false).posted).map
      (.arrive true ·) ++ [.recv true 1536])
    (peers true).read <+: (peers false).accepted ∧ (peers true).read = [message] := by
  intro message sent peers
  have int : Settings.Ints ⟨1, 20, 2, 1, 50, 32, 32⟩ := ⟨by decide, by decide, by decide⟩
  have run : (fresh 7 fun _ => ⟨1, 20, 2, 1, 50, 32, 32⟩).Reaches peers :=
    (reaches_events _ _).trans (reaches_events _ _)
  have few : peers.Few := by
    intro side
    cases side <;> decide +kernel
  exact ⟨read_isPrefix (fun _ => int) run few true, by decide +kernel⟩

end Peers

namespace Ikcpcb

variable {kcp : Ikcpcb} {mss : Nat} {message : List Byte} {rest : List Segment}

theorem recv_succeeds {len : Int} (some : kcp.rcvQueue ≠ []) (complete : 0 ≤ kcp.peeksize)
    (fits : kcp.peeksize ≤ len.natAbs) : 0 ≤ (kcp.recv len).1 := by
  rw [recv, if_neg some, if_neg (not_lt.mpr complete), if_neg (not_lt.mpr fits)]
  exact Int.natCast_nonneg _

/-- A message that is there as a whole is announced. -/
theorem peeksize_of_pieces (positive : 0 < mss)
    (few : fragmentCount mss message.length < 2 ^ 31)
    (queue : kcp.rcvQueue.map Segment.frag = pieces mss message ++ rest) :
    kcp.rcvQueue ≠ [] ∧ kcp.peeksize = message.length := by
  have some := fragmentCount_pos positive message.length
  obtain ⟨count, isCount⟩ := Nat.exists_eq_succ_of_ne_zero some.ne'
  have merged : (merge kcp.rcvQueue).1 = message := by
    rw [← (merge_frag kcp.rcvQueue).1, queue, merge_pieces positive (by omega)]
  cases isQueue : kcp.rcvQueue with
  | nil =>
      rw [isQueue, pieces, isCount] at queue
      cases queue
  | cons seg left =>
      refine ⟨List.cons_ne_nil _ _, ?_⟩
      have total := congrArg List.length queue
      rw [List.length_map, List.length_append, length_pieces, isCount, isQueue] at total
      rw [isQueue, pieces, isCount, fragments] at queue
      have frg : seg.frg = BitVec.ofNat 32 count := congrArg Segment.frg (List.cons.inj queue).1
      have number : seg.frg.toNat = count := by
        rw [frg, BitVec.toNat_ofNat, Nat.mod_eq_of_lt (by omega)]
      have next : (seg.frg + 1).toNat = count + 1 := by
        have counted : (seg.frg + BitVec.ofNat 32 1).toNat = seg.frg.toNat + 1 :=
          toNat_add_ofNat (by omega)
        rw [← number]
        exact counted
      have complete : 0 ≤ kcp.peeksize := by
        rw [peeksize, isQueue]
        dsimp only
        split
        · exact Int.natCast_nonneg _
        · rw [if_neg (by omega)]
          exact Int.natCast_nonneg _
      rw [peeksize_eq complete, merged]

end Ikcpcb

namespace Direction

variable {sender receiver : Party}

/-- A sender that holds nothing back. -/
theorem has_all (dir : Direction sender receiver) (done : sender.kcp.waitsnd = 0) {n : Nat}
    (inside : n < sender.wire.length) : receiver.kcp.Has n := by
  rw [Ikcpcb.waitsnd] at done
  have buf : sender.kcp.sndBuf = [] := List.eq_nil_of_length_eq_zero (by omega)
  have queue : sender.kcp.sndQueue = [] := List.eq_nil_of_length_eq_zero (by omega)
  have left := dir.sends.queue
  rw [queue] at left
  have all : sender.wire.length ≤ sender.kcp.sndNxt.toNat := List.drop_eq_nil_iff.mp left.symm
  rcases dir.sends.gone n (by omega) with ⟨seg, isSeg, -⟩ | arrived
  · rw [buf] at isSeg
    cases isSeg
  · exact arrived

/-- The next message that has not been read. -/
theorem next_message (dir : Direction sender receiver)
    (unread : receiver.read.length < sender.accepted.length) :
    ∃ message later, sender.accepted = receiver.read ++ message :: later ∧
      sender.wire = receiver.read.flatMap (pieces sender.kcp.mss) ++
        (pieces sender.kcp.mss message ++ later.flatMap (pieces sender.kcp.mss)) := by
  have split := List.take_append_drop receiver.read.length sender.accepted
  rw [← dir.order] at split
  cases isLater : sender.accepted.drop receiver.read.length with
  | nil =>
      have := List.drop_eq_nil_iff.mp isLater
      omega
  | cons message later =>
      rw [isLater] at split
      refine ⟨message, later, split.symm, ?_⟩
      rw [Party.wire, ← split, List.flatMap_append, List.flatMap_cons]

/-- A message of which all segments are in `rcv_queue` is announced. -/
theorem announced (dir : Direction sender receiver) (positive : 0 < sender.kcp.mss)
    {message : List Byte} {later : List (List Byte)}
    (split : sender.accepted = receiver.read ++ message :: later)
    (wire : sender.wire = receiver.read.flatMap (pieces sender.kcp.mss) ++
      (pieces sender.kcp.mss message ++ later.flatMap (pieces sender.kcp.mss)))
    (enough : fragmentCount sender.kcp.mss message.length ≤ receiver.kcp.rcvQueue.length) :
    receiver.kcp.rcvQueue ≠ [] ∧ receiver.kcp.peeksize = message.length := by
  have isMessage : message ∈ sender.accepted := by
    rw [split]
    simp
  have short : fragmentCount sender.kcp.mss message.length < 128 := dir.short message isMessage
  have held := dir.receives.queue
  have total := congrArg List.length held
  rw [List.length_append, List.length_map, List.length_take] at total
  rw [← length_pieces] at enough
  have queue := congrArg (List.drop (receiver.read.flatMap (pieces sender.kcp.mss)).length) held
  rw [List.drop_left, wire, List.drop_take, List.drop_left, List.take_append,
    List.take_of_length_le (by omega)] at queue
  exact Ikcpcb.peeksize_of_pieces positive (by omega) queue

/-- Where everything has arrived, the next message is there. -/
theorem recv_next (dir : Direction sender receiver) (sound : receiver.kcp.Sound)
    (positive : 0 < sender.kcp.mss) (arrived : ∀ n < sender.wire.length, receiver.kcp.Has n)
    (unread : receiver.read.length < sender.accepted.length) {len : Nat}
    (fits : ∀ message ∈ sender.accepted, message.length ≤ len) :
    0 ≤ (receiver.kcp.recv len).1 := by
  obtain ⟨message, later, split, wire⟩ := dir.next_message unread
  have isMessage : message ∈ sender.accepted := by
    rw [split]
    simp
  have short : fragmentCount sender.kcp.mss message.length < 128 := dir.short message isMessage
  have total := congrArg List.length dir.receives.queue
  have all := congrArg List.length wire
  rw [List.length_append, List.length_map, List.length_take] at total
  rw [List.length_append, List.length_append, length_pieces] at all
  have nxt := dir.receives.nxt
  have sent := dir.sends.count
  have enough : fragmentCount sender.kcp.mss message.length ≤ receiver.kcp.rcvQueue.length := by
    by_contra lacking
    -- The queue has room, so that the segment that is lacking cannot wait in `rcv_buf`.
    have window : 128 ≤ receiver.kcp.rcvWnd.toNat := sound.window.1
    rcases arrived receiver.kcp.rcvNxt.toNat (by omega) with before | ⟨seg, isSeg, number⟩
    · omega
    · have isNext : seg.sn = receiver.kcp.rcvNxt := BitVec.eq_of_toNat_eq number
      have := sound.stalled (isNext ▸ List.mem_map_of_mem isSeg)
      omega
  obtain ⟨some, peek⟩ := dir.announced positive split wire enough
  refine Ikcpcb.recv_succeeds some (by omega) ?_
  have := fits message isMessage
  omega

end Direction

namespace Party

/-- Some calls of `ikcp_recv`. -/
def reads (len : Nat) : Nat → Party → Party
  | 0, party => party
  | count + 1, party => reads len count (party.recv len)

end Party

namespace Direction

variable {conv : BitVec 32} {sender receiver : Party}

/-- Reading on returns all that has been sent. -/
theorem reads (forth : Direction sender receiver) (back : Direction receiver sender)
    (sound : receiver.kcp.Sound) (positive : 0 < sender.kcp.mss)
    (few : sender.wire.length < 2 ^ 31) (done : sender.kcp.waitsnd = 0) {len count : Nat}
    (fits : ∀ message ∈ sender.accepted, message.length ≤ len)
    (enough : sender.accepted.length ≤ receiver.read.length + count) :
    (receiver.reads len count).read = sender.accepted := by
  induction count generalizing receiver with
  | zero =>
      have order := forth.order
      rwa [List.take_of_length_le (by omega)] at order
  | succ count ih =>
      obtain ⟨forth', back'⟩ := forth.recv back sound positive few len
      refine ih forth' back' (sound.recv len) ?_
      change sender.accepted.length ≤
        (if 0 ≤ (receiver.kcp.recv len).1 then _ else receiver.read).length + count
      by_cases unread : receiver.read.length < sender.accepted.length
      · have received := forth.recv_next sound positive (fun _ => forth.has_all done) unread fits
        rw [if_pos received, List.length_append, List.length_singleton]
        omega
      · split
        · rw [List.length_append]
          omega
        · omega

end Direction

namespace Peers

/-- Whatever the network has lost, repeated or held up: once nothing waits to be sent on one side,
reading on the other returns every message that has been sent and not yet read. -/
theorem reads_all {conv : BitVec 32} {settings : Bool → Settings} {peers : Peers}
    (ints : ∀ side, (settings side).Ints) (run : (fresh conv settings).Reaches peers)
    (few : peers.Few) (side : Bool) (done : (peers side).kcp.waitsnd = 0) {len : Nat}
    (fits : ∀ message ∈ (peers side).accepted, message.length ≤ len) :
    ((peers !side).reads len (peers side).accepted.length).read = (peers side).accepted := by
  have inv := (inv_fresh conv ints).reaches run few
  have back : Direction (peers !side) (peers side) := by
    simpa using inv.direction !side
  exact (inv.direction side).reads back (inv.steady !side).sound (inv.steady side).sound.mss.1
    (few side) done fits (Nat.le_add_left _ _)

/-- The acknowledgements have come back before anything has been read. -/
theorem reads_all_acknowledged :
    let message := List.replicate 30 (1 : Byte)
    let sent := (fresh 7 fun _ => ⟨1, 20, 2, 1, 50, 32, 32⟩).events
      [.send false message, .send false [2], .update false 100]
    let arrived := sent.events
      (((sent false).posted.reverse).map (.arrive true ·) ++ [.update true 100])
    let peers := arrived.events ((arrived true).posted.map (.arrive false ·))
    (peers true).read = [] ∧ ((peers true).reads 1536 2).read = [message, [2]] := by
  intro message sent arrived peers
  have int : Settings.Ints ⟨1, 20, 2, 1, 50, 32, 32⟩ := ⟨by decide, by decide, by decide⟩
  have run : (fresh 7 fun _ => ⟨1, 20, 2, 1, 50, 32, 32⟩).Reaches peers :=
    ((reaches_events _ _).trans (reaches_events _ _)).trans (reaches_events _ _)
  have few : peers.Few := by
    intro side
    cases side <;> decide +kernel
  have accepted : (peers false).accepted = [message, [2]] := by decide +kernel
  have fits : ∀ message ∈ (peers false).accepted, message.length ≤ 1536 := by
    rw [accepted]
    decide
  have all := reads_all (fun _ => int) run few false (by decide +kernel) fits
  rw [accepted] at all
  exact ⟨by decide +kernel, all⟩

end Peers

end Xten.Ikcp
