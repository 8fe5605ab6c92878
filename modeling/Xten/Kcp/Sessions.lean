import Xten.Ikcp.Exchange
import Xten.Kcp.Delivery
import Xten.Kcp.Listener

/-!
# Sessions over `ikcp`

`KcpSession::write`, `ReadMessage` and `packetInput` over the control block itself, and a network
that loses, repeats and reorders. Two sessions do what a `Link` does, which has nothing of that.
-/

namespace Xten.Kcp

open Std.Interleaving
open Ikcp (Party Peers)

/-- A `KcpSession`: the control block, what has ended its reading, the messages for which `write`
has returned true, and what its calls of `ReadMessage` have come to. -/
structure Endpoint where
  party : Party
  bClose : Bool
  bReadError : Bool
  bReadTimeout : Bool
  readErrorCode : Int
  messages : List KcpMessage
  reads : List Read
deriving DecidableEq, Repr

namespace Endpoint

variable (endpoint : Endpoint)

/-- `notifyReadError`, the first call of which counts. -/
def notifyReadError (code : Int) : Endpoint :=
  if endpoint.bReadError then endpoint
  else { endpoint with bReadError := true, readErrorCode := code }

/-- `ReadMessage`, for what its buffer holds first and what `error` is before. An `ikcp_recv` that
fails is repeated, unless the buffer is too small. -/
def readMessage (buf : List Byte) (error : ReadErrno) : Read × Endpoint :=
  if endpoint.party.kcp.peeksize ≤ 0 ∧ ¬ endpoint.bClose ∧ ¬ endpoint.bReadError ∧
      ¬ endpoint.bReadTimeout then
    (.waits, endpoint)
  else if endpoint.bReadTimeout then
    (.returned none .readTimeout, { endpoint with bReadTimeout := false })
  else if endpoint.bClose then
    (.returned none .sessionClose, endpoint)
  else if endpoint.bReadError then
    (.returned none .readError, endpoint)
  else
    let received := endpoint.party.kcp.recv Reader.bufferSize
    if received.1 = -3 then
      (.returned none .readError, endpoint.notifyReadError (-3))
    else if received.1 < 0 then
      (.waits, endpoint)
    else
      let endpoint := { endpoint with party := endpoint.party.recv Reader.bufferSize }
      match Reader.parsed buf received.2.1 with
      | none => (.outside, endpoint)
      | some (true, msg) => (.returned (some msg) error, endpoint)
      | some (false, _) => (.returned none error, endpoint.notifyReadError received.1)

/-- `write`, for what its buffer holds first. -/
def write (message : KcpMessage) (buffer : List Byte) : Option Endpoint :=
  (message.serializeToBuffer buffer).map fun serialized =>
    match serialized.1 with
    | none => endpoint
    | some size =>
        let payload := serialized.2.take size
        { endpoint with
          party := endpoint.party.send payload
          messages :=
            if (endpoint.party.kcp.send payload).1 < 0 then endpoint.messages
            else endpoint.messages ++ [message] }

/-- `packetInput`. -/
def packetInput (datagram : List Byte) : Endpoint :=
  let ret := (endpoint.party.kcp.input datagram).1
  let endpoint := { endpoint with party := endpoint.party.input datagram }
  if ret < 0 then endpoint.notifyReadError ret else endpoint

end Endpoint

/-- The two sides. -/
abbrev Sessions := Bool → Endpoint

namespace Sessions

inductive Event where
  /-- A message whose id and body have been set is written. -/
  | write (side : Bool) (id : BitVec 32) (body buffer : List Byte)
  | read (side : Bool) (buf : List Byte)
  | update (side : Bool) (current : BitVec 32)
  | flush (side : Bool)
  | arrive (side : Bool) (datagram : List Byte)
deriving DecidableEq, Repr

/-- One event; none where a call has to wait, after memory has been misused, or if a datagram
arrives that has never been sent. -/
def step (sessions : Sessions) : Event → Option Sessions
  | .write side id body buffer =>
      if buffer.length = KcpMessage.writeSize then
        ((sessions side).write (Link.made id body) buffer).map (Function.update sessions side)
      else
        none
  | .read side buf =>
      if buf.length = Reader.bufferSize ∧ Read.outside ∉ (sessions side).reads then
        match (sessions side).readMessage buf .success with
        | (.waits, _) => none
        | (read, endpoint) =>
            some (Function.update sessions side
              { endpoint with reads := endpoint.reads ++ [read] })
      else
        none
  | .update side current =>
      let party := (sessions side).party
      some (Function.update sessions side
        { sessions side with party := party.post (party.kcp.update current) })
  | .flush side =>
      let party := (sessions side).party
      some (Function.update sessions side { sessions side with party := party.post party.kcp.flush })
  | .arrive side datagram =>
      if (sessions !side).party.posted.contains datagram then
        some (Function.update sessions side ((sessions side).packetInput datagram))
      else
        none

/-- Two sessions that have done nothing yet. -/
def fresh (conv : BitVec 32) (settings : Bool → Ikcp.Ikcpcb.Settings) : Sessions :=
  fun side => ⟨Peers.fresh conv settings side, false, false, false, 0, [], []⟩

/-- Every event is allowed. -/
abbrev Reaches (before after : Sessions) : Prop :=
  Runs step (fun _ _ => True) before after

/-- The control blocks. -/
def peers (sessions : Sessions) : Peers :=
  fun side => (sessions side).party

end Sessions

section Frames

variable {endpoint : Endpoint} {sender receiver : Endpoint} {link after : Link} {buf : List Byte}

/-- The receiving half of a session, for the payloads that it has in full. -/
def Endpoint.reader (endpoint : Endpoint) (rcvQueue : List (List Byte)) : Reader :=
  ⟨rcvQueue, endpoint.bClose, endpoint.bReadError, endpoint.bReadTimeout, endpoint.readErrorCode⟩

/-- What one session has written and the other has read is what a link has. -/
structure Simulates (sender receiver : Endpoint) (link : Link) : Prop where
  accepted : link.accepted = sender.messages
  payloads : receiver.party.read ++ (link.reader.rcvQueue ++ link.underway) = sender.party.accepted
  reads : link.reads = receiver.reads
  reader : link.reader = receiver.reader link.reader.rcvQueue

theorem Simulates.of_sender (simulates : Simulates sender receiver link) {next : Endpoint}
    (messages : next.messages = sender.messages)
    (accepted : next.party.accepted = sender.party.accepted) : Simulates next receiver link :=
  ⟨simulates.accepted.trans messages.symm, simulates.payloads.trans accepted.symm,
    simulates.reads, simulates.reader⟩

theorem Simulates.of_receiver (simulates : Simulates sender receiver link) {next : Endpoint}
    (read : next.party.read = receiver.party.read) (reads : next.reads = receiver.reads)
    (reader : next.reader = receiver.reader) : Simulates sender next link := by
  refine ⟨simulates.accepted, ?_, simulates.reads.trans reads.symm, ?_⟩
  · rw [read]
    exact simulates.payloads
  · rw [reader]
    exact simulates.reader

theorem recv_read {party : Party} (complete : 0 ≤ party.kcp.peeksize) {message : List Byte}
    (isNext : (Ikcp.Ikcpcb.merge party.kcp.rcvQueue).1 = message) {len : Nat}
    (fits : message.length ≤ len) : (party.recv len).read = party.read ++ [message] := by
  have peek := Ikcp.Ikcpcb.peeksize_eq complete
  rw [isNext] at peek
  have some : party.kcp.rcvQueue ≠ [] := by
    intro none
    rw [Ikcp.Ikcpcb.peeksize, none] at complete
    exact absurd complete (by decide)
  have received : 0 ≤ (party.kcp.recv len).1 :=
    Ikcp.Ikcpcb.recv_succeeds some complete (by omega)
  obtain ⟨failed, -⟩ | ⟨-, -, -, same⟩ := party.kcp.recv_cases len
  · omega
  · rw [Party.recv, if_pos received, same, isNext]

theorem send_fst (kcp : Ikcp.Ikcpcb) (buffer : List Byte) :
    (kcp.send buffer).1 = 0 ∨ (kcp.send buffer).1 < 0 := by
  have rest (kcp : Ikcp.Ikcpcb) (buffer : List Byte) :
      (kcp.sendRest buffer).1 = 0 ∨ (kcp.sendRest buffer).1 < 0 := by
    rw [Ikcp.Ikcpcb.sendRest]
    split
    · exact .inr (Int.negSucc_lt_zero 1)
    · exact .inl rfl
  rw [Ikcp.Ikcpcb.send]
  split
  · dsimp only
    split
    · exact .inl rfl
    · exact rest _ _
  · exact rest _ _

theorem Simulates.write (simulates : Simulates sender receiver link) {id : BitVec 32}
    {body buffer : List Byte} {next : Endpoint} (size : buffer.length = KcpMessage.writeSize)
    (written : sender.write (Link.made id body) buffer = some next) :
    ∃ after, Runs Link.step (fun _ _ => True) link after ∧ Simulates next receiver after := by
  obtain ⟨⟨result, filled⟩, isSerialized, rfl⟩ := Option.map_eq_some_iff.mp written
  cases result with
  | none => exact ⟨link, .refl link, simulates⟩
  | some count =>
      rcases send_fst sender.party.kcp (filled.take count) with accepted | refused
      · have taken : link.step (.write id body buffer true) = some { link with
            accepted := link.accepted ++ [Link.made id body]
            underway := link.underway ++ [filled.take count] } := by
          rw [Link.step, if_pos size, KcpMessage.write, isSerialized]
          rfl
        refine ⟨_, (Runs.refl link).tail trivial taken, ?_, ?_, simulates.reads, simulates.reader⟩
        · dsimp only
          rw [if_neg (by omega), simulates.accepted]
        · dsimp only
          rw [Party.send, if_pos accepted, ← simulates.payloads]
          simp only [List.append_assoc]
      · refine ⟨link, .refl link, simulates.of_sender ?_ ?_⟩
        · dsimp only
          rw [if_pos refused]
        · dsimp only
          rw [Party.send, if_neg (by omega)]

/-- The payload that has been received next is delivered, if it has not been yet. -/
theorem Simulates.deliver (simulates : Simulates sender receiver link) {payload : List Byte}
    {later : List (List Byte)}
    (next : sender.party.accepted = receiver.party.read ++ payload :: later) :
    ∃ after rest, Runs Link.step (fun _ _ => True) link after ∧
      Simulates sender receiver after ∧ after.reader.rcvQueue = payload :: rest ∧
      after.reads = link.reads := by
  have left := simulates.payloads
  rw [next] at left
  have held := List.append_cancel_left left
  cases queue : link.reader.rcvQueue with
  | cons first rest =>
      rw [queue] at held
      obtain ⟨rfl, -⟩ := List.cons.inj held
      exact ⟨link, rest, .refl link, simulates, queue, rfl⟩
  | nil =>
      rw [queue, List.nil_append] at held
      have taken : link.step .deliver = some { link with
          underway := later
          reader := { link.reader with rcvQueue := [payload] } } := by
        simp only [Link.step, held, queue]
        rfl
      refine ⟨_, [], (Runs.refl link).tail trivial taken,
        ⟨simulates.accepted, next.symm, simulates.reads, ?_⟩, rfl, rfl⟩
      rw [simulates.reader]
      rfl

theorem returned_ne_waits (message : Option KcpMessage) (error : ReadErrno) :
    Read.returned message error ≠ .waits := by
  simp

/-- What has ended a session's reading is returned, whatever has been received. -/
theorem Simulates.ended (simulates : Simulates sender receiver link)
    (ended : receiver.bReadTimeout ∨ receiver.bClose ∨ receiver.bReadError) (buf : List Byte)
    (error : ReadErrno) :
    ∃ read next, receiver.readMessage buf error = (read, next) ∧
      next.party = receiver.party ∧ next.reads = receiver.reads ∧
      link.reader.readMessage buf error = (read, next.reader link.reader.rcvQueue) ∧
      read ≠ .waits := by
  have busy (peek : Int) : ¬ (peek ≤ 0 ∧ ¬ receiver.bClose ∧ ¬ receiver.bReadError ∧
      ¬ receiver.bReadTimeout) := by
    tauto
  rw [Endpoint.readMessage, if_neg (busy _), simulates.reader, Reader.readMessage,
    Endpoint.reader, if_neg (busy _)]
  dsimp only
  by_cases late : receiver.bReadTimeout
  · rw [if_pos late, if_pos late]
    exact ⟨_, _, rfl, rfl, rfl, rfl, returned_ne_waits _ _⟩
  rw [if_neg late, if_neg late]
  by_cases closed : receiver.bClose
  · rw [if_pos closed, if_pos closed]
    exact ⟨_, _, rfl, rfl, rfl, rfl, returned_ne_waits _ _⟩
  have failed : receiver.bReadError := by tauto
  rw [if_neg closed, if_neg closed, if_pos failed, if_pos failed]
  exact ⟨_, _, rfl, rfl, rfl, rfl, returned_ne_waits _ _⟩

/-- A message that has been announced is read. -/
theorem Endpoint.readMessage_eq (isOpen : ¬ (endpoint.bReadTimeout ∨ endpoint.bClose ∨
    endpoint.bReadError)) (announced : 0 < endpoint.party.kcp.peeksize) {payload : List Byte}
    (isNext : (Ikcp.Ikcpcb.merge endpoint.party.kcp.rcvQueue).1 = payload) (error : ReadErrno) :
    endpoint.readMessage buf error =
      if Reader.bufferSize < payload.length then
        (.returned none .readError, endpoint.notifyReadError (-3))
      else
        match Reader.parsed buf payload with
        | none => (.outside, { endpoint with party := endpoint.party.recv Reader.bufferSize })
        | some (true, msg) => (.returned (some msg) error,
            { endpoint with party := endpoint.party.recv Reader.bufferSize })
        | some (false, _) => (.returned none error,
            { endpoint with party := endpoint.party.recv Reader.bufferSize }.notifyReadError
              payload.length) := by
  rw [not_or, not_or] at isOpen
  obtain ⟨noTimeout, notClosed, noError⟩ := isOpen
  have peek := Ikcp.Ikcpcb.peeksize_eq announced.le
  rw [isNext] at peek
  have queue : endpoint.party.kcp.rcvQueue ≠ [] := by
    intro none
    rw [Ikcp.Ikcpcb.peeksize, none] at announced
    exact absurd announced (by decide)
  rw [readMessage, if_neg fun all => absurd announced (not_lt.mpr all.1), if_neg noTimeout,
    if_neg notClosed, if_neg noError, Ikcp.Ikcpcb.recv, if_neg queue,
    if_neg (not_lt.mpr announced.le)]
  by_cases large : Reader.bufferSize < payload.length
  · have tooLarge : endpoint.party.kcp.peeksize > (Reader.bufferSize : Int).natAbs := by
      rw [peek]
      omega
    rw [if_pos tooLarge, if_pos large]
    rfl
  · have hasRoom : ¬ endpoint.party.kcp.peeksize > (Reader.bufferSize : Int).natAbs := by
      rw [peek]
      omega
    have received : ¬ ((payload.length : Int) = -3) := by omega
    have complete : ¬ ((payload.length : Int) < 0) := by omega
    rw [if_neg hasRoom, if_neg large]
    dsimp only
    rw [isNext, if_neg received, if_neg complete]

theorem Endpoint.reader_notifyReadError (endpoint : Endpoint) (code : Int)
    (rcvQueue : List (List Byte)) :
    (endpoint.notifyReadError code).reader rcvQueue =
      (endpoint.reader rcvQueue).notifyReadError code := by
  rw [notifyReadError, Reader.notifyReadError]
  change _ = if endpoint.bReadError then _ else _
  split <;> rfl

theorem Endpoint.notifyReadError_keeps (endpoint : Endpoint) (code : Int) :
    (endpoint.notifyReadError code).party = endpoint.party ∧
      (endpoint.notifyReadError code).reads = endpoint.reads ∧
      (endpoint.notifyReadError code).messages = endpoint.messages := by
  rw [notifyReadError]
  split <;> exact ⟨rfl, rfl, rfl⟩

/-- A call that returns on both sides, and leaves the same. -/
theorem Simulates.returned (simulates : Simulates sender receiver link)
    (size : buf.length = Reader.bufferSize) (defined : Read.outside ∉ receiver.reads)
    {read : Read} {next : Endpoint} {left : List (List Byte)} (returns : read ≠ .waits)
    (called : link.reader.readMessage buf .success = (read, next.reader left))
    (reads : next.reads = receiver.reads)
    (payloads : next.party.read ++ (left ++ link.underway) = sender.party.accepted) :
    ∃ after, Runs Link.step (fun _ _ => True) link after ∧
      Simulates sender { next with reads := next.reads ++ [read] } after := by
  rw [← simulates.reads] at defined
  have taken := Link.step_read size defined called returns
  refine ⟨_, (Runs.refl link).tail trivial taken, simulates.accepted, payloads, ?_, rfl⟩
  dsimp only
  rw [reads, simulates.reads]

/-- A call of `ReadMessage` that finds the next payload. -/
theorem Simulates.finds (simulates : Simulates sender receiver link) (buf : List Byte)
    (isOpen : ¬ (receiver.bReadTimeout ∨ receiver.bClose ∨ receiver.bReadError))
    (announced : 0 < receiver.party.kcp.peeksize) {payload : List Byte} {rest : List (List Byte)}
    (isNext : (Ikcp.Ikcpcb.merge receiver.party.kcp.rcvQueue).1 = payload)
    (queue : link.reader.rcvQueue = payload :: rest) :
    ∃ read next left, receiver.readMessage buf .success = (read, next) ∧
      next.reads = receiver.reads ∧
      link.reader.readMessage buf .success = (read, next.reader left) ∧
      next.party.read ++ (left ++ link.underway) = sender.party.accepted ∧ read ≠ .waits := by
  have peek := Ikcp.Ikcpcb.peeksize_eq announced.le
  rw [isNext] at peek
  have nonempty : payload ≠ [] := by
    rintro rfl
    rw [peek] at announced
    exact absurd announced (by decide)
  have readerOpen : link.reader.Open := by
    simp only [not_or, Bool.not_eq_true] at isOpen
    rw [simulates.reader]
    exact ⟨isOpen.2.1, isOpen.2.2, isOpen.1⟩
  rw [Endpoint.readMessage_eq isOpen announced isNext, readerOpen.readMessage_eq queue nonempty]
  by_cases large : Reader.bufferSize < payload.length
  · rw [if_pos large, if_pos large]
    obtain ⟨party, reads, -⟩ := receiver.notifyReadError_keeps (-3)
    refine ⟨_, _, link.reader.rcvQueue, rfl, reads, ?_, ?_, returned_ne_waits _ _⟩
    · rw [Endpoint.reader_notifyReadError, ← simulates.reader]
    · rw [party]
      exact simulates.payloads
  · rw [if_neg large, if_neg large]
    have state : { link.reader with rcvQueue := rest } =
        { receiver with party := receiver.party.recv Reader.bufferSize }.reader rest := by
      rw [simulates.reader]
      rfl
    have payloads : (receiver.party.recv Reader.bufferSize).read ++ (rest ++ link.underway) =
        sender.party.accepted := by
      rw [← simulates.payloads, queue, recv_read announced.le isNext (by omega)]
      simp
    cases parsed : Reader.parsed buf payload with
    | none =>
        exact ⟨_, _, rest, rfl, rfl, congrArg (Prod.mk Read.outside) state, payloads, by simp⟩
    | some result =>
        obtain ⟨isMessage, msg⟩ := result
        cases isMessage with
        | true =>
            exact ⟨_, _, rest, rfl, rfl, congrArg (Prod.mk (Read.returned (some msg) _)) state,
              payloads, returned_ne_waits _ _⟩
        | false =>
            obtain ⟨party, reads, -⟩ := Endpoint.notifyReadError_keeps
              { receiver with party := receiver.party.recv Reader.bufferSize } payload.length
            refine ⟨_, _, rest, rfl, reads, ?_, ?_, returned_ne_waits _ _⟩
            · rw [Endpoint.reader_notifyReadError, ← state]
            · rw [party]
              exact payloads

/-- A call of `ReadMessage` that returns. -/
theorem Simulates.read (simulates : Simulates sender receiver link)
    (forth : Ikcp.Direction sender.party receiver.party) (positive : 0 < sender.party.kcp.mss)
    (size : buf.length = Reader.bufferSize) (defined : Read.outside ∉ receiver.reads)
    {read : Read} {next : Endpoint} (returns : read ≠ .waits)
    (called : receiver.readMessage buf .success = (read, next)) :
    ∃ after, Runs Link.step (fun _ _ => True) link after ∧
      Simulates sender { next with reads := next.reads ++ [read] } after := by
  by_cases ended : receiver.bReadTimeout ∨ receiver.bClose ∨ receiver.bReadError
  · obtain ⟨_, _, same, party, reads, calls, -⟩ :=
      simulates.ended ended buf .success
    obtain ⟨rfl, rfl⟩ := Prod.mk.inj (called.symm.trans same)
    refine simulates.returned size defined returns calls reads ?_
    rw [party]
    exact simulates.payloads
  · have announced : 0 < receiver.party.kcp.peeksize := by
      by_contra nothing
      rw [not_or, not_or] at ended
      rw [Endpoint.readMessage, if_pos ⟨not_lt.mp nothing, ended.2.1, ended.2.2, ended.1⟩] at called
      exact returns (congrArg Prod.fst called).symm
    obtain ⟨payload, later, split, isNext, -⟩ := forth.next positive announced.le
    obtain ⟨middle, rest, delivered, simulates, queue, -⟩ := simulates.deliver split
    obtain ⟨_, _, left, same, reads, calls, payloads, -⟩ :=
      simulates.finds buf ended announced isNext queue
    obtain ⟨rfl, rfl⟩ := Prod.mk.inj (called.symm.trans same)
    obtain ⟨after, run, done⟩ := simulates.returned size defined returns calls reads payloads
    exact ⟨after, delivered.trans run, done⟩

/-- A datagram that the other side has posted is taken without an error. -/
theorem Endpoint.packetInput_posted (endpoint : Endpoint)
    (forth : Ikcp.Direction sender.party endpoint.party)
    (same : sender.party.kcp.conv = endpoint.party.kcp.conv) {datagram : List Byte}
    (isPosted : datagram ∈ sender.party.posted) :
    endpoint.packetInput datagram = { endpoint with party := endpoint.party.input datagram } := by
  obtain ⟨segs, some, rfl, honest⟩ := forth.posted datagram isPosted
  have known : ∀ seg ∈ segs, seg.Known endpoint.party.kcp.conv := fun seg isSeg =>
    same ▸ (honest seg isSeg).1
  have accepted := congrArg Prod.fst (Ikcp.Ikcpcb.input_encode some known)
  rw [packetInput]
  refine if_neg ?_
  rw [accepted]
  exact lt_irrefl 0

end Frames

namespace Sessions

variable {conv : BitVec 32} {settings : Bool → Ikcp.Ikcpcb.Settings} {sessions after : Sessions} {event : Event}

/-- Each direction is that of a link. -/
def Linked (sessions : Sessions) : Prop :=
  ∀ side, ∃ link, Runs Link.step (fun _ _ => True) Link.fresh link ∧
    Simulates (sessions side) (sessions !side) link

/-- One side goes on, as a sender and as a receiver. -/
theorem Linked.put (linked : sessions.Linked) {side : Bool} {endpoint : Endpoint}
    (sends : ∀ link, Simulates (sessions side) (sessions !side) link →
      ∃ after, Runs Link.step (fun _ _ => True) link after ∧
        Simulates endpoint (sessions !side) after)
    (receives : ∀ link, Simulates (sessions !side) (sessions side) link →
      ∃ after, Runs Link.step (fun _ _ => True) link after ∧
        Simulates (sessions !side) endpoint after) :
    Linked (Function.update sessions side endpoint) := by
  intro other
  obtain ⟨link, run, simulates⟩ := linked other
  by_cases same : other = side
  · subst same
    rw [Function.update_self, Function.update_of_ne (by simp)]
    obtain ⟨after, further, simulates⟩ := sends link simulates
    exact ⟨after, run.trans further, simulates⟩
  · have opposite : other = !side := by
      cases side <;> cases other <;> simp_all
    subst opposite
    rw [Bool.not_not] at simulates ⊢
    rw [Function.update_self, Function.update_of_ne same]
    obtain ⟨after, further, simulates⟩ := receives link simulates
    exact ⟨after, run.trans further, simulates⟩

/-- What `ReadMessage` leaves of a session. -/
theorem readMessage_keeps (endpoint : Endpoint) (buf : List Byte) (error : ReadErrno) :
    (endpoint.readMessage buf error).2.messages = endpoint.messages ∧
      ((endpoint.readMessage buf error).2.party = endpoint.party ∨
        (endpoint.readMessage buf error).2.party = endpoint.party.recv Reader.bufferSize) := by
  rw [Endpoint.readMessage]
  split
  · exact ⟨rfl, .inl rfl⟩
  split
  · exact ⟨rfl, .inl rfl⟩
  split
  · exact ⟨rfl, .inl rfl⟩
  split
  · exact ⟨rfl, .inl rfl⟩
  dsimp only
  split
  · obtain ⟨party, -, messages⟩ := endpoint.notifyReadError_keeps (-3)
    exact ⟨messages, .inl party⟩
  split
  · exact ⟨rfl, .inl rfl⟩
  split
  · exact ⟨rfl, .inr rfl⟩
  · exact ⟨rfl, .inr rfl⟩
  · obtain ⟨party, -, messages⟩ := Endpoint.notifyReadError_keeps
      { endpoint with party := endpoint.party.recv Reader.bufferSize }
      (endpoint.party.kcp.recv Reader.bufferSize).1
    exact ⟨messages, .inr party⟩

/-- What `write` makes of a session. -/
theorem write_cases {endpoint next : Endpoint} {message : KcpMessage} {buffer : List Byte}
    (written : endpoint.write message buffer = some next) :
    next = endpoint ∨ ∃ payload messages,
      next = { endpoint with party := endpoint.party.send payload, messages } := by
  obtain ⟨⟨result, filled⟩, -, rfl⟩ := Option.map_eq_some_iff.mp written
  cases result with
  | none => exact .inl rfl
  | some count => exact .inr ⟨filled.take count, _, rfl⟩

theorem read_eq_some {side : Bool} {buf : List Byte}
    (next : sessions.step (.read side buf) = some after) :
    buf.length = Reader.bufferSize ∧ Read.outside ∉ (sessions side).reads ∧ ∃ read endpoint,
      read ≠ .waits ∧ (sessions side).readMessage buf .success = (read, endpoint) ∧
      after = Function.update sessions side
        { endpoint with reads := endpoint.reads ++ [read] } := by
  obtain ⟨⟨size, defined⟩, called⟩ := Option.ite_none_right_eq_some.mp next
  refine ⟨size, defined, ?_⟩
  split at called
  case h_1 => cases called
  case h_2 read endpoint returns same =>
    exact ⟨read, endpoint, returns, same, (Option.some.inj called).symm⟩

/-- Each event is some steps of both links, or none. -/
theorem Linked.step (linked : sessions.Linked) (inv : sessions.peers.Inv conv)
    (next : sessions.step event = some after) : after.Linked := by
  cases event with
  | write side id body buffer =>
      obtain ⟨size, written⟩ := Option.ite_none_right_eq_some.mp next
      obtain ⟨endpoint, wrote, rfl⟩ := Option.map_eq_some_iff.mp written
      refine linked.put (fun link simulates => simulates.write size wrote)
        fun link simulates => ⟨link, .refl link, ?_⟩
      obtain rfl | ⟨payload, messages, rfl⟩ := write_cases wrote
      · exact simulates
      · exact simulates.of_receiver rfl rfl rfl
  | read side buf =>
      obtain ⟨size, defined, read, endpoint, returns, called, rfl⟩ := read_eq_some next
      have forth : Ikcp.Direction (sessions !side).party (sessions side).party := by
        simpa [peers] using inv.direction !side
      have positive := (inv.steady !side).sound.mss.1
      refine linked.put (fun link simulates => ⟨link, .refl link, ?_⟩) fun link simulates =>
        simulates.read forth positive size defined returns called
      obtain ⟨messages, party⟩ := readMessage_keeps (sessions side) buf .success
      rw [called] at messages party
      refine simulates.of_sender messages ?_
      obtain same | received := party
      · exact congrArg Party.accepted same
      · exact (congrArg Party.accepted received).trans rfl
  | update side current =>
      cases next
      exact linked.put (fun link simulates => ⟨link, .refl link, simulates.of_sender rfl rfl⟩)
        fun link simulates => ⟨link, .refl link, simulates.of_receiver rfl rfl rfl⟩
  | flush side =>
      cases next
      exact linked.put (fun link simulates => ⟨link, .refl link, simulates.of_sender rfl rfl⟩)
        fun link simulates => ⟨link, .refl link, simulates.of_receiver rfl rfl rfl⟩
  | arrive side datagram =>
      obtain ⟨isPosted, taken⟩ := Option.ite_none_right_eq_some.mp next
      cases taken
      have forth : Ikcp.Direction (sessions !side).party (sessions side).party := by
        simpa [peers] using inv.direction !side
      have same := (inv.steady !side).conv.trans (inv.steady side).conv.symm
      rw [Endpoint.packetInput_posted (sessions side) forth same (List.contains_iff_mem.mp isPosted)]
      exact linked.put (fun link simulates => ⟨link, .refl link, simulates.of_sender rfl rfl⟩)
        fun link simulates => ⟨link, .refl link, simulates.of_receiver rfl rfl rfl⟩

end Sessions

section Reading

variable {link : Link}

/-- As long as the messages fit, they are what the first calls of `ReadMessage` have returned. -/
theorem Link.InOrder.take (inOrder : link.InOrder) {count : Nat}
    (fit : ∀ message ∈ link.accepted.take count, message.Fits) :
    link.reads.take count =
      ((link.accepted.take count).map KcpMessage.read).take link.reads.length := by
  obtain ⟨done, left, clean⟩ | ⟨done, spoilt, left, accepted, large, wrong, later, -, reads⟩ :=
    inOrder
  · rw [clean.reads, clean.accepted, List.map_take, List.map_append, List.length_map,
      List.take_take, min_comm, ← List.take_take, ← List.length_map (f := KcpMessage.read),
      List.take_left]
  · have early : count ≤ done.length := by
      by_contra beyond
      refine large (fit spoilt ?_)
      rw [accepted, List.take_append, List.take_of_length_le (by omega)]
      refine List.mem_append_right _ (List.mem_take_iff_getElem.mpr ⟨0, ?_, rfl⟩)
      rw [List.length_cons]
      omega
    have longer : done.length ≤ link.reads.length := by
      rw [reads, List.length_append, List.length_map]
      exact Nat.le_add_right _ _
    have short : ((done.take count).map KcpMessage.read).length ≤ link.reads.length := by
      rw [List.length_map, List.length_take]
      omega
    rw [accepted, List.take_append_of_le_length early, List.take_of_length_le short, reads,
      List.take_append_of_le_length (by rwa [List.length_map]), List.map_take]

end Reading

namespace Sessions

variable {conv : BitVec 32} {settings : Bool → Ikcp.Ikcpcb.Settings} {sessions : Sessions}

/-- Some events, which a state without the datagrams that arrive would not allow. -/
def events (sessions : Sessions) (events : List Event) : Sessions :=
  (replay step (fun _ _ => true) events sessions).getD sessions

theorem reaches_events (sessions : Sessions) (actions : List Event) :
    sessions.Reaches (sessions.events actions) := by
  rw [events]
  cases taken : replay step (fun _ _ => true) actions sessions with
  | none => exact .refl _
  | some after => exact .of_replay (fun _ _ _ => trivial) taken

end Sessions

end Xten.Kcp
