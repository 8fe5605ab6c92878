import Xten.Std.Interleaving
import Xten.Kcp.Messages

/-!
# From `write` to `ReadMessage`

`KcpSession::write` and `ReadMessage` over an `ikcp` that delivers the payloads of `ikcp_send`
intact and in order. What they do between two tests of a condition is done here at once.
-/

namespace Xten.Kcp

open Std.Interleaving

/-- `READ_ERRNO`. -/
inductive ReadErrno where
  | success
  | readTimeout
  | readError
  | sessionClose
deriving DecidableEq, Repr

/-- A session that reads. `rcvQueue` are the payloads that `ikcp` has received in full. -/
structure Reader where
  rcvQueue : List (List Byte)
  bClose : Bool
  bReadError : Bool
  bReadTimeout : Bool
  readErrorCode : Int
deriving DecidableEq, Repr

/-- What a call of `ReadMessage` comes to. -/
inductive Read where
  | waits
  /-- Memory outside of its buffer is used. -/
  | outside
  | returned (message : Option KcpMessage) (error : ReadErrno)
deriving DecidableEq, Repr

namespace Reader

/-- The size of the buffer of `ReadMessage`. -/
def bufferSize : Nat := 1024 + 512

def ikcpPeeksize (reader : Reader) : Int :=
  match reader.rcvQueue with
  | [] => -1
  | payload :: _ => payload.length

/-- `notifyReadError`, the first call of which counts. -/
def notifyReadError (reader : Reader) (code : Int) : Reader :=
  if reader.bReadError then reader else { reader with bReadError := true, readErrorCode := code }

/-- A payload that `ikcp_recv` has put into the buffer, and the zero byte behind it. -/
def parsed (buf payload : List Byte) : Option (Bool × KcpMessage) := do
  let buf ← store buf 0 payload
  let buf ← store buf payload.length [0]
  KcpMessage.parseFromBuffer ⟨0, 0, []⟩ buf

/-- `ReadMessage`, for what its buffer holds first and what `error` is before. -/
def readMessage (reader : Reader) (buf : List Byte) (error : ReadErrno) : Read × Reader :=
  if reader.ikcpPeeksize ≤ 0 ∧ ¬ reader.bClose ∧ ¬ reader.bReadError ∧ ¬ reader.bReadTimeout then
    (.waits, reader)
  else if reader.bReadTimeout then
    (.returned none .readTimeout, { reader with bReadTimeout := false })
  else if reader.bClose then
    (.returned none .sessionClose, reader)
  else if reader.bReadError then
    (.returned none .readError, reader)
  else
    match reader.rcvQueue with
    | [] => (.waits, reader)
    | payload :: rest =>
        if bufferSize < payload.length then
          (.returned none .readError, reader.notifyReadError (-3))
        else
          let reader := { reader with rcvQueue := rest }
          match parsed buf payload with
          | none => (.outside, reader)
          | some (true, msg) => (.returned (some msg) error, reader)
          | some (false, _) => (.returned none error, reader.notifyReadError payload.length)

end Reader

namespace KcpMessage

/-- The size of the buffer of `write`. -/
def writeSize : Nat := 4096

/-- `write`, for what its buffer holds first and whether `ikcp_send` takes the payload: the
payload that is sent, if it returns true. -/
def write (message : KcpMessage) (buffer : List Byte) (takes : Bool) :
    Option (Option (List Byte)) :=
  (message.serializeToBuffer buffer).map fun serialized =>
    serialized.1.bind fun size =>
      if takes then some (serialized.2.take size) else none

end KcpMessage

/-- Two peers: the messages for which `write` has returned true at one of them, the payloads that
are still underway to the other, and what its calls of `ReadMessage` have come to. -/
structure Link where
  accepted : List KcpMessage
  underway : List (List Byte)
  reader : Reader
  reads : List Read
deriving DecidableEq, Repr

inductive Transfer where
  /-- A message whose id and body have been set is written. -/
  | write (id : BitVec 32) (body buffer : List Byte) (takes : Bool)
  | deliver
  | read (buf : List Byte)
deriving DecidableEq, Repr

namespace Link

/-- The message with an id and a body. -/
def made (id : BitVec 32) (body : List Byte) : KcpMessage :=
  (KcpMessage.setMsgId ⟨0, 0, []⟩ id).setMsgBody body

/-- One step of either peer or of the network; none where it has to wait, or after memory has
been misused. -/
def step (link : Link) : Transfer → Option Link
  | .write id body buffer takes =>
      if buffer.length = KcpMessage.writeSize then
        ((made id body).write buffer takes).map fun sent =>
          match sent with
          | none => link
          | some payload =>
              { link with
                accepted := link.accepted ++ [made id body]
                underway := link.underway ++ [payload] }
      else
        none
  | .deliver =>
      match link.underway with
      | [] => none
      | payload :: rest =>
          some { link with
            underway := rest
            reader := { link.reader with rcvQueue := link.reader.rcvQueue ++ [payload] } }
  | .read buf =>
      if buf.length = Reader.bufferSize ∧ Read.outside ∉ link.reads then
        match link.reader.readMessage buf .success with
        | (.waits, _) => none
        | (read, reader) => some { link with reader := reader, reads := link.reads ++ [read] }
      else
        none

/-- Nothing has been written yet. -/
def fresh : Link where
  accepted := []
  underway := []
  reader := ⟨[], false, false, false, 0⟩
  reads := []

end Link

/-- A known id, and a body without zero bytes that leaves room for a zero byte in the buffer of
the reader. -/
structure KcpMessage.Fits (message : KcpMessage) : Prop where
  known : MsgId.findValueByNumber message.id ≠ none
  plain : 0 ∉ message.body
  short : KcpMessage.headSize + message.body.length < Reader.bufferSize

/-- A call that returns the message. -/
def KcpMessage.read (message : KcpMessage) : Read :=
  .returned (some message) .success

section Payloads

variable {message : KcpMessage} {buffer buf sent : List Byte} {takes : Bool}

/-- The payload of a message whose length field is right. -/
def KcpMessage.payload (message : KcpMessage) : List Byte :=
  KcpMessage.head message.len message.id ++ message.body

theorem KcpMessage.length_payload (message : KcpMessage) :
    message.payload.length = KcpMessage.headSize + message.body.length := by
  rw [payload, List.length_append, length_head]

/-- The length field is that of the body. -/
def KcpMessage.Sized (message : KcpMessage) : Prop :=
  message.len.toNat = message.body.length

/-- What is sent of a message that `write` accepts. -/
theorem KcpMessage.write_eq_some (measured : message.Measured)
    (size : buffer.length = KcpMessage.writeSize)
    (written : message.write buffer takes = some (some sent)) :
    message.Sized ∧ sent = message.payload := by
  obtain ⟨⟨result, filled⟩, serialized, isSent⟩ := Option.map_eq_some_iff.mp written
  cases result with
  | none => cases isSent
  | some count =>
      obtain ⟨-, taken⟩ := Option.ite_none_right_eq_some.mp isSent
      have cut := written_take measured serialized
      rw [serializeToBuffer_eq] at serialized
      split at serialized
      case isTrue => cases serialized
      case isFalse =>
        obtain ⟨room, -⟩ := Option.ite_none_right_eq_some.mp serialized
        have sized : message.Sized := by
          rw [Sized, measured, BitVec.toNat_ofNat, Nat.mod_eq_of_lt]
          rw [size, writeSize, headSize] at room
          omega
        refine ⟨sized, ?_⟩
        rw [← Option.some.inj taken, cut, sized, List.take_length, payload]

/-- A payload that leaves room for the zero byte is parsed with the byte behind it. -/
theorem Reader.parsed_eq (size : buf.length = Reader.bufferSize) :
    Reader.parsed buf sent =
      if sent.length < Reader.bufferSize then
        KcpMessage.parseFromBuffer ⟨0, 0, []⟩ (sent ++ 0 :: buf.drop (sent.length + 1))
      else none := by
  have first : store buf 0 sent =
      if sent.length ≤ Reader.bufferSize then some (sent ++ buf.drop sent.length) else none :=
    size ▸ @store_append [] 0 rfl buf sent
  have second := @store_append sent _ rfl (buf.drop sent.length) [0]
  rw [List.length_singleton, List.length_drop, size, List.drop_drop] at second
  unfold Reader.parsed
  rw [first]
  split
  case isTrue fits =>
    rw [Option.bind_eq_bind, Option.bind_some, second]
    by_cases room : sent.length < Reader.bufferSize
    · rw [if_pos (by omega), if_pos room]
      rfl
    · rw [if_neg (by omega), if_neg room]
      rfl
  case isFalse large =>
    rw [if_neg (by omega)]
    rfl

/-- A payload is parsed as the message that it was made of exactly if the message fits. -/
theorem Reader.parsed_eq_iff (size : buf.length = Reader.bufferSize) (message : KcpMessage) :
    Reader.parsed buf message.payload = some (true, message) ↔ message.Fits := by
  rw [parsed_eq size, message.length_payload, KcpMessage.payload, List.append_assoc]
  constructor
  · intro parsed
    obtain ⟨short, parsed⟩ := Option.ite_none_right_eq_some.mp parsed
    have known : MsgId.findValueByNumber message.id ≠ none := by
      intro unknown
      rw [KcpMessage.parseFromBuffer_head, unknown] at parsed
      cases parsed
    exact ⟨known, ((KcpMessage.parse_eq_iff known _).mp parsed).1, short⟩
  · rintro ⟨known, plain, short⟩
    rw [if_pos short, KcpMessage.parse_eq_iff known]
    exact ⟨plain, _, rfl⟩

end Payloads

section Reading

variable {reader : Reader} {buf : List Byte} {message : KcpMessage} {rest : List (List Byte)}

/-- No event has ended the session's reading. -/
structure Reader.Open (reader : Reader) : Prop where
  notClosed : reader.bClose = false
  noError : reader.bReadError = false
  noTimeout : reader.bReadTimeout = false

theorem Reader.Open.queue (isOpen : reader.Open) (payloads : List (List Byte)) :
    { reader with rcvQueue := payloads }.Open :=
  ⟨isOpen.notClosed, isOpen.noError, isOpen.noTimeout⟩

theorem Reader.Open.waits (isOpen : reader.Open) (empty : reader.rcvQueue = []) :
    reader.readMessage buf .success = (.waits, reader) := by
  obtain ⟨notClosed, noError, noTimeout⟩ := isOpen
  simp [readMessage, ikcpPeeksize, empty, notClosed, noError, noTimeout]

/-- What a call makes of a payload. -/
theorem Reader.Open.readMessage_eq (isOpen : reader.Open) {payload : List Byte}
    (queue : reader.rcvQueue = payload :: rest) (nonempty : payload ≠ []) (error : ReadErrno) :
    reader.readMessage buf error =
      if Reader.bufferSize < payload.length then
        (.returned none .readError, reader.notifyReadError (-3))
      else
        match Reader.parsed buf payload with
        | none => (.outside, { reader with rcvQueue := rest })
        | some (true, msg) => (.returned (some msg) error, { reader with rcvQueue := rest })
        | some (false, _) => (.returned none error,
            { reader with rcvQueue := rest }.notifyReadError payload.length) := by
  obtain ⟨notClosed, noError, noTimeout⟩ := isOpen
  have peek : ¬ reader.ikcpPeeksize ≤ 0 := by
    rw [ikcpPeeksize, queue]
    show ¬ (payload.length : Int) ≤ 0
    have length := List.length_pos_iff.mpr nonempty
    omega
  rw [readMessage, if_neg fun all => peek all.1, if_neg (by simp [noTimeout]),
    if_neg (by simp [notClosed]), if_neg (by simp [noError]), queue]

theorem KcpMessage.payload_ne_nil (message : KcpMessage) : message.payload ≠ [] := by
  rw [← List.length_pos_iff, message.length_payload, KcpMessage.headSize]
  omega

/-- A message that fits is returned. -/
theorem Reader.Open.reads (isOpen : reader.Open) (size : buf.length = Reader.bufferSize)
    (queue : reader.rcvQueue = message.payload :: rest) (fits : message.Fits) :
    reader.readMessage buf .success = (message.read, { reader with rcvQueue := rest }) := by
  have short := fits.short
  rw [isOpen.readMessage_eq queue message.payload_ne_nil, (Reader.parsed_eq_iff size message).mpr fits, if_neg]
  · rfl
  · rw [message.length_payload]
    omega

/-- A message that does not fit is not. -/
theorem Reader.Open.spoils (isOpen : reader.Open) (size : buf.length = Reader.bufferSize)
    (queue : reader.rcvQueue = message.payload :: rest) (large : ¬ message.Fits) :
    (reader.readMessage buf .success).1 ≠ .waits ∧
      (reader.readMessage buf .success).1 ≠ message.read := by
  rw [isOpen.readMessage_eq queue message.payload_ne_nil]
  split
  case isTrue => exact ⟨nofun, nofun⟩
  case isFalse =>
    split
    case h_1 => exact ⟨nofun, nofun⟩
    case h_2 msg parsed =>
      refine ⟨nofun, fun same => large ((Reader.parsed_eq_iff size message).mp ?_)⟩
      have isMessage : msg = message := by
        injection same with isSome
        exact Option.some.inj isSome
      rw [parsed, isMessage]
    case h_3 => exact ⟨nofun, nofun⟩

end Reading

/-!
## Runs of a link
-/

/-- The reader has returned some of the messages, all of which fit, and `left` are still to
come. -/
structure Link.Clean (link : Link) (done left : List KcpMessage) : Prop where
  accepted : link.accepted = done ++ left
  reads : link.reads = done.map KcpMessage.read
  fit : ∀ message ∈ done, message.Fits
  payloads : link.reader.rcvQueue ++ link.underway = left.map KcpMessage.payload
  isOpen : link.reader.Open

/-- A message that does not fit has not been returned where it should have been. -/
def Link.Spoilt (link : Link) : Prop :=
  ∃ done spoilt left, link.accepted = done ++ spoilt :: left ∧ ¬ spoilt.Fits ∧
    ∃ wrong later, wrong ≠ spoilt.read ∧
      link.reads = done.map KcpMessage.read ++ wrong :: later

def Link.InOrder (link : Link) : Prop :=
  (∃ done left, link.Clean done left) ∨ link.Spoilt

/-- The calls of `ReadMessage` have returned the messages in their order. -/
def Link.Kept (link : Link) : Prop :=
  link.reads = (link.accepted.take link.reads.length).map KcpMessage.read

/-- Nothing more is written. -/
def Quiet (_ : Link) (transfer : Transfer) : Prop :=
  ∀ id body buffer takes, transfer ≠ .write id body buffer takes

/-- The messages are returned in their order so far, and all of them in the end, as payloads are
delivered and read. -/
structure Link.Delivers (link : Link) : Prop where
  kept : link.Kept
  finishes : ∃ later, Runs Link.step Quiet link later ∧ later.accepted = link.accepted ∧
    later.reads = link.accepted.map KcpMessage.read

section Runs

variable {link after : Link} {done left : List KcpMessage} {transfer : Transfer}

theorem Link.Clean.fresh : Link.fresh.Clean [] [] where
  accepted := rfl
  reads := rfl
  fit := fun _ member => absurd member List.not_mem_nil
  payloads := rfl
  isOpen := ⟨rfl, rfl, rfl⟩

/-- A payload is delivered. -/
theorem Link.Clean.deliver (clean : link.Clean done left)
    (taken : link.step .deliver = some after) : after.Clean done left := by
  simp only [step] at taken
  split at taken
  case h_1 => cases taken
  case h_2 payload rest underway =>
    cases taken
    refine ⟨clean.accepted, clean.reads, clean.fit, ?_, clean.isOpen.queue _⟩
    rw [List.append_assoc, ← clean.payloads, underway]
    rfl

/-- A message is written, or is not accepted. -/
theorem Link.Clean.write (clean : link.Clean done left) {id : BitVec 32} {body buffer : List Byte}
    {takes : Bool} (taken : link.step (.write id body buffer takes) = some after) :
    ∃ left, after.Clean done left := by
  simp only [step] at taken
  obtain ⟨size, written⟩ := Option.ite_none_right_eq_some.mp taken
  obtain ⟨sent, written, isAfter⟩ := Option.map_eq_some_iff.mp written
  cases sent with
  | none => exact ⟨left, isAfter ▸ clean⟩
  | some sent =>
      have measured : (made id body).Measured := rfl
      obtain ⟨-, isPayload⟩ := KcpMessage.write_eq_some measured size written
      cases isAfter
      refine ⟨left ++ [made id body], ?_, clean.reads, clean.fit, ?_, clean.isOpen⟩
      · rw [clean.accepted, List.append_assoc]
      · rw [← List.append_assoc, clean.payloads, List.map_append, isPayload]
        rfl

/-- The next message is read, or is the first that does not fit. -/
theorem Link.Clean.read (clean : link.Clean done left) {buf : List Byte}
    (taken : link.step (.read buf) = some after) :
    ∃ next rest, left = next :: rest ∧
      (next.Fits ∧ after.Clean (done ++ [next]) rest ∨ ¬ next.Fits ∧ after.Spoilt) := by
  simp only [step] at taken
  obtain ⟨⟨size, -⟩, called⟩ := Option.ite_none_right_eq_some.mp taken
  cases queue : link.reader.rcvQueue with
  | nil =>
      rw [clean.isOpen.waits queue] at called
      cases called
  | cons payload payloads =>
      have whole := clean.payloads
      rw [queue] at whole
      cases left with
      | nil => cases whole
      | cons next rest =>
          obtain ⟨isPayload, others⟩ := List.cons.inj whole
          rw [isPayload] at queue
          refine ⟨next, rest, rfl, ?_⟩
          by_cases fits : next.Fits
          · rw [clean.isOpen.reads size queue fits] at called
            cases called
            refine .inl ⟨fits, ?_, ?_, ?_, others, clean.isOpen.queue _⟩
            · rw [clean.accepted, List.append_assoc]
              rfl
            · rw [clean.reads, List.map_append]
              rfl
            · intro message member
              obtain early | isNext := List.mem_append.mp member
              · exact clean.fit message early
              · rwa [List.mem_singleton.mp isNext]
          · obtain ⟨returns, wrong⟩ := clean.isOpen.spoils size queue fits
            generalize link.reader.readMessage buf .success = result at called returns wrong
            obtain ⟨read, reader⟩ := result
            have isAfter : after = { link with reader := reader, reads := link.reads ++ [read] } := by
              cases read with
              | waits => exact absurd rfl returns
              | outside => exact (Option.some.inj called).symm
              | returned message error => exact (Option.some.inj called).symm
            rw [isAfter]
            exact .inr ⟨fits, done, next, rest, clean.accepted, fits, read, [], wrong,
              congrArg (· ++ [read]) clean.reads⟩

/-- What has gone wrong stays in what has been read. -/
theorem Link.Spoilt.step (spoilt : link.Spoilt) (taken : link.step transfer = some after) :
    after.Spoilt := by
  obtain ⟨done, bad, left, accepted, large, wrong, later, isWrong, reads⟩ := spoilt
  cases transfer with
  | write id body buffer takes =>
      simp only [Link.step] at taken
      obtain ⟨-, written⟩ := Option.ite_none_right_eq_some.mp taken
      obtain ⟨sent, -, isAfter⟩ := Option.map_eq_some_iff.mp written
      cases sent with
      | none => exact isAfter ▸ ⟨done, bad, left, accepted, large, wrong, later, isWrong, reads⟩
      | some payload =>
          cases isAfter
          refine ⟨done, bad, left ++ [made id body], ?_, large, wrong, later, isWrong, reads⟩
          rw [accepted, List.append_assoc]
          rfl
  | deliver =>
      simp only [Link.step] at taken
      split at taken
      case h_1 => cases taken
      case h_2 =>
        cases taken
        exact ⟨done, bad, left, accepted, large, wrong, later, isWrong, reads⟩
  | read buf =>
      simp only [Link.step] at taken
      obtain ⟨-, called⟩ := Option.ite_none_right_eq_some.mp taken
      split at called
      case h_1 => cases called
      case h_2 read reader _ _ =>
        cases called
        refine ⟨done, bad, left, accepted, large, wrong, later ++ [read], isWrong, ?_⟩
        rw [reads, List.append_assoc]
        rfl

/-- Whatever is written, delivered and read, the reads are clean up to a message that does not
fit. -/
theorem Link.of_runs (run : Runs Link.step (fun _ _ => True) Link.fresh link) :
    link.InOrder := by
  refine run.invariant (fun link transfer after one _ taken => ?_) (.inl ⟨[], [], .fresh⟩)
  obtain ⟨done, left, clean⟩ | spoilt := one
  · cases transfer with
    | write id body buffer takes =>
        obtain ⟨left, clean⟩ := clean.write taken
        exact .inl ⟨done, left, clean⟩
    | deliver => exact .inl ⟨done, left, clean.deliver taken⟩
    | read buf =>
        obtain ⟨next, rest, -, ⟨-, clean⟩ | ⟨-, spoilt⟩⟩ := clean.read taken
        · exact .inl ⟨_, _, clean⟩
        · exact .inr spoilt
  · exact .inr (spoilt.step taken)

theorem Link.step_read {buf : List Byte} {read : Read} {reader : Reader}
    (size : buf.length = Reader.bufferSize) (defined : Read.outside ∉ link.reads)
    (called : link.reader.readMessage buf .success = (read, reader)) (returns : read ≠ .waits) :
    link.step (.read buf) = some { link with reader := reader, reads := link.reads ++ [read] } := by
  rw [step, if_pos ⟨size, defined⟩, called]
  cases read with
  | waits => exact absurd rfl returns
  | outside => rfl
  | returned message error => rfl

/-- The next payload arrives, if it has not yet. -/
theorem Link.Clean.arrives {next : KcpMessage} (clean : link.Clean done (next :: left)) :
    ∃ later rest, Runs Link.step Quiet link later ∧ later.accepted = link.accepted ∧
      later.Clean done (next :: left) ∧ later.reader.rcvQueue = next.payload :: rest := by
  have whole := clean.payloads
  cases queue : link.reader.rcvQueue with
  | cons payload rest =>
      rw [queue] at whole
      exact ⟨link, rest, .refl link, rfl, clean, by rw [queue, (List.cons.inj whole).1]⟩
  | nil =>
      rw [queue, List.nil_append] at whole
      have taken : link.step .deliver = some { link with
          underway := left.map KcpMessage.payload
          reader := { link.reader with rcvQueue := [next.payload] } } := by
        simp only [step, whole, queue]
        rfl
      have quiet : Quiet link .deliver := fun _ _ _ _ => nofun
      exact ⟨_, [], (Runs.refl link).tail quiet taken, rfl, clean.deliver taken, rfl⟩

/-- Messages that fit are all read in the end. -/
theorem Link.Clean.finishes (clean : link.Clean done left) (fit : ∀ message ∈ left, message.Fits) :
    ∃ later, Runs Link.step Quiet link later ∧ later.accepted = link.accepted ∧
      later.reads = link.accepted.map KcpMessage.read := by
  induction left generalizing link done with
  | nil =>
      refine ⟨link, .refl link, rfl, ?_⟩
      rw [clean.reads, clean.accepted, List.append_nil]
  | cons next left ih =>
      obtain ⟨middle, rest, arrives, sameHere, clean, queue⟩ := clean.arrives
      have fits : next.Fits := fit next List.mem_cons_self
      have size : (List.replicate Reader.bufferSize (0 : Byte)).length = Reader.bufferSize :=
        List.length_replicate
      have defined : Read.outside ∉ middle.reads := by
        rw [clean.reads]
        intro member
        obtain ⟨message, -, same⟩ := List.mem_map.mp member
        cases same
      have taken := step_read size defined (clean.isOpen.reads size queue fits) nofun
      have quiet : Quiet middle (.read (List.replicate Reader.bufferSize 0)) :=
        fun _ _ _ _ => nofun
      obtain ⟨_, _, same, ⟨-, after⟩ | ⟨large, -⟩⟩ := clean.read taken
      · obtain ⟨rfl, rfl⟩ := List.cons.inj same
        obtain ⟨later, reads, sameThere, all⟩ :=
          ih after fun message member => fit message (List.mem_cons_of_mem _ member)
        refine ⟨later, (arrives.tail quiet taken).trans reads, ?_, ?_⟩
        · rw [sameThere]
          exact sameHere
        · rw [all]
          exact congrArg _ sameHere
      · obtain ⟨rfl, -⟩ := List.cons.inj same
        exact absurd fits large

/-- Whatever is left to come of clean reads, those before are in order. -/
theorem Link.Clean.kept (clean : link.Clean done left) : link.Kept := by
  have length : link.reads.length = done.length := by rw [clean.reads, List.length_map]
  rw [Kept, length, clean.accepted, List.take_left, clean.reads]

/-- The reads are not the messages, once they have been spoilt. -/
theorem Link.Spoilt.lost (spoilt : link.Spoilt) :
    link.reads ≠ link.accepted.map KcpMessage.read := by
  obtain ⟨done, bad, left, accepted, -, wrong, later, isWrong, reads⟩ := spoilt
  rw [accepted, reads, List.map_append, List.map_cons]
  intro same
  exact isWrong (List.cons.inj (List.append_cancel_left same)).1

/-- A message that does not fit is never returned in its place. -/
theorem Link.Delivers.fit (run : Runs Link.step (fun _ _ => True) Link.fresh link)
    (delivers : link.Delivers) : ∀ message ∈ link.accepted, message.Fits := by
  obtain ⟨-, later, drain, same, all⟩ := delivers
  rw [← same] at all ⊢
  have whole := run.trans (drain.weaken (fun _ _ => trivial) fun _ _ _ _ => trivial)
  obtain ⟨done, left, clean⟩ | spoilt := Link.of_runs whole
  · have length := congrArg List.length all
    rw [clean.reads, clean.accepted, List.length_map, List.length_map, List.length_append]
      at length
    have none : left = [] := List.length_eq_zero_iff.mp (by omega)
    rw [clean.accepted, none, List.append_nil]
    exact clean.fit
  · exact absurd all spoilt.lost

/-- What has been accepted is delivered, in any order of the steps, exactly if every message
fits. -/
theorem Link.delivers_iff (run : Runs Link.step (fun _ _ => True) Link.fresh link) :
    link.Delivers ↔ ∀ message ∈ link.accepted, message.Fits := by
  refine ⟨fun delivers => delivers.fit run, fun fit => ?_⟩
  obtain ⟨done, left, clean⟩ | ⟨done, bad, left, accepted, large, -⟩ := Link.of_runs run
  · refine ⟨clean.kept, clean.finishes fun message member => fit message ?_⟩
    rw [clean.accepted]
    exact List.mem_append_right _ member
  · refine absurd (fit bad ?_) large
    rw [accepted]
    exact List.mem_append_right _ List.mem_cons_self

end Runs

/-!
## A short message and a long one
-/

section Bounds

variable {message : KcpMessage} {buffer : List Byte}

/-- `write` takes every message that its buffer has room for. -/
theorem KcpMessage.write_of_room (sized : message.Sized)
    (size : buffer.length = KcpMessage.writeSize)
    (room : KcpMessage.headSize + message.body.length < KcpMessage.writeSize) :
    message.write buffer true = some (some message.payload) := by
  rw [write, serializeToBuffer_eq, sized, size, if_neg (Nat.not_le_of_lt room),
    if_pos (Nat.le_of_lt room), Option.map_some]
  refine congrArg (fun sent => some (some sent)) ?_
  rw [← length_head message.len message.id, List.take_length_add_append, List.take_left, payload]

/-- The first message of a link is on its way. -/
def Link.sent (message : KcpMessage) : Link :=
  { Link.fresh with accepted := [message], underway := [message.payload] }

theorem Link.sent_reached {id : BitVec 32} {body : List Byte}
    (room : KcpMessage.headSize + body.length < KcpMessage.writeSize) :
    Runs Link.step (fun _ _ => True) Link.fresh (Link.sent (Link.made id body)) := by
  have sized : (Link.made id body).Sized := by
    show (BitVec.ofNat 16 body.length).toNat = body.length
    rw [BitVec.toNat_ofNat, Nat.mod_eq_of_lt]
    rw [KcpMessage.headSize, KcpMessage.writeSize] at room
    omega
  have size : (List.replicate KcpMessage.writeSize (0 : Byte)).length = KcpMessage.writeSize :=
    List.length_replicate
  have taken : Link.fresh.step (.write id body (List.replicate KcpMessage.writeSize 0) true) =
      some (Link.sent (Link.made id body)) := by
    rw [Link.step, if_pos size, KcpMessage.write_of_room sized size room]
    rfl
  exact (Runs.refl _).tail trivial taken

end Bounds

theorem Link.delivers_iff_short : (Link.sent (Link.made 1 [7])).Delivers := by
  refine (Link.delivers_iff (Link.sent_reached (by decide))).mpr fun message member => ?_
  rw [List.mem_singleton.mp member]
  exact ⟨by decide, by decide, by decide⟩

/-- A message of two thousand bytes is accepted and cannot be read. -/
theorem long_is_lost : ¬ ∀ link, Runs Link.step (fun _ _ => True) Link.fresh link →
    link.Delivers := by
  intro all
  have run := @Link.sent_reached 1 (List.replicate 2000 1) (by
    rw [List.length_replicate]
    decide)
  have fits := (all _ run).fit run (Link.made 1 (List.replicate 2000 1)) List.mem_cons_self
  have isBody : (Link.made 1 (List.replicate 2000 1)).body = List.replicate 2000 1 := rfl
  have short := fits.short
  rw [isBody, List.length_replicate] at short
  exact absurd short (by decide)

end Xten.Kcp
