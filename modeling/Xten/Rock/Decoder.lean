import Xten.Rock.Faults
import Xten.Rock.InStep
import Xten.Stream.Fill

/-!
# What message decoders share

`ParseFromStream` of the message decoders, for messages of any classes: the head is
checked, the body is received and decompressed, its first byte chooses a class, and the
parser of the class does the rest. Such a decoder returns on a stream exactly if it
returns on the bytes of the body that arrives there, if any does.
-/

namespace Xten

open Std.IntegerCodec Std.Programs
open Xten.ByteArray (Action At)
open RockMessageDecoder (incoming_body)

namespace MessageDecoder

section Bodies

variable {σ Msg Object : Type}

/-- `ParseFromByteArray` of an object of some class: the value returned and the object it
leaves. -/
def callOn (method : EStateM Fault (σ × Object) Bool) (self : Object) (class_ : Object → Msg) :
    EStateM Fault σ (Bool × Msg) := fun state =>
  match method (state, self) with
  | .ok value (state, self) => .ok (value, class_ self) state
  | .error fault (state, _) => .error fault state

/-- The end of `ParseFromStream`, on the array with the body: the type byte, a new object
of the class for it, and its parser. A null message is returned for an unknown type. -/
def parseBody (ba : Readers σ) (make : Byte → Option Msg)
    (parse : Msg → EStateM Fault σ (Bool × Msg)) : EStateM Fault σ (Option Msg) := do
  match make (← ba.readFUint8) with
  | none => return none
  | some msg =>
      let (ret, msg) ← parse msg
      return if ret then some msg else none

end Bodies

section Frames

variable {Msg : Type} (parse : Action (Option Msg)) (bufferSize : Nat) (gzip : Gzip)
  (fresh : Nat → Byte)

/-- The last part of `ParseFromStream`, on the array with the body as it came. -/
def unpack (flag : Byte) : Action (Option Msg) := do
  ByteArray.setPosition 0
  if flag &&& 1 ≠ 0 then
    match gzip.inflate (← RockMessageDecoder.zlibInput (← get).getReadSize) with
    | .error _ => return none
    | .ok output =>
        RockMessageDecoder.zlibByteArray fresh output
        parse
  else
    parse

/-- The part of `ParseFromStream` after the checks of the head. -/
def receiveBody (nodeSize : Nat) (flag : Byte) (length : Nat) :
    EStateM Fault Socket (Option Msg) := fun socket =>
  match Stream.readFixSize bufferSize length (ByteArray.make nodeSize fresh, socket) with
  | .error fault (_, socket) => .error fault socket
  | .ok ret (ba, socket) =>
      if ret ≤ 0 then
        .ok none socket
      else
        match unpack parse gzip fresh flag ba with
        | .error fault _ => .error fault socket
        | .ok msg _ => .ok msg socket

/-- A length is above a limit, if there is one. -/
def exceeds (limit : Option (BitVec 32)) (length : BitVec 32) : Bool :=
  match limit with
  | none => false
  | some maxBodyLength => maxBodyLength < length

/-- `ParseFromStream`, with a head of the layout of `RockMsgHead` and, in some decoders,
a limit to the length of the body. -/
def parseFromStream (limit : Option (BitVec 32)) (nodeSize : Nat) :
    EStateM Fault Socket (Option Msg) := fun socket =>
  let ((ret, bytes), socket) := Stream.readFixBuffer bufferSize RockMsgHead.size socket
  let head := RockMsgHead.ofBytes bytes
  let length := htobe32 head.length
  if ret ≤ 0 then
    .ok none socket
  else if head.magic ≠ [0x12, 0x21] then
    .ok none socket
  else if head.version ≠ 1 then
    .ok none socket
  else if exceeds limit length then
    .ok none socket
  else
    receiveBody parse bufferSize gzip fresh nodeSize head.flag length.toNat socket

/-- The first part of `ParseFromStream`: the flag of the head and the array with the body as
it came; none where a null message is returned at once. -/
def receive (limit : Option (BitVec 32)) (nodeSize : Nat) :
    EStateM Fault Socket (Option (Byte × ByteArray)) := fun socket =>
  let ((ret, bytes), socket) := Stream.readFixBuffer bufferSize RockMsgHead.size socket
  let head := RockMsgHead.ofBytes bytes
  let length := htobe32 head.length
  if ret ≤ 0 then
    .ok none socket
  else if head.magic ≠ [0x12, 0x21] then
    .ok none socket
  else if head.version ≠ 1 then
    .ok none socket
  else if exceeds limit length then
    .ok none socket
  else
    match Stream.readFixSize bufferSize length.toNat (ByteArray.make nodeSize fresh, socket) with
    | .error fault (_, socket) => .error fault socket
    | .ok ret (ba, socket) =>
        if ret ≤ 0 then .ok none socket else .ok (some (head.flag, ba)) socket

theorem parseFromStream_eq_receive (limit : Option (BitVec 32)) (nodeSize : Nat)
    (socket : Socket) :
    parseFromStream parse bufferSize gzip fresh limit nodeSize socket =
      match receive bufferSize fresh limit nodeSize socket with
      | .error fault socket => .error fault socket
      | .ok none socket => .ok none socket
      | .ok (some (flag, ba)) socket =>
          match unpack parse gzip fresh flag ba with
          | .error fault _ => .error fault socket
          | .ok msg _ => .ok msg socket := by
  rw [parseFromStream, receive]
  obtain ⟨⟨ret, bytes⟩, socket⟩ := Stream.readFixBuffer bufferSize RockMsgHead.size socket
  simp only [receiveBody]
  split_ifs
  · rfl
  · rfl
  · rfl
  · rfl
  · generalize Stream.readFixSize bufferSize _ (ByteArray.make nodeSize fresh, socket) = result
    cases result with
    | error fault state => rfl
    | ok ret state =>
        simp only
        split_ifs <;> rfl

end Frames

end MessageDecoder

section Rock

theorem RockMessageDecoder.parseBody_eq {σ : Type} (ba : Readers σ) :
    RockMessageDecoder.parseBody ba =
      MessageDecoder.parseBody ba Message.make (Message.parseFromByteArray ba) := by
  rw [RockMessageDecoder.parseBody, MessageDecoder.parseBody]
  congr 1
  funext type
  cases Message.make type <;> rfl

theorem RockMessageDecoder.unpack_eq_parse (gzip : Gzip) (fresh : Nat → Byte) (flag : Byte) :
    RockMessageDecoder.unpack gzip fresh flag =
      MessageDecoder.unpack (RockMessageDecoder.parseBody ByteArray.readers) gzip fresh flag := by
  unfold RockMessageDecoder.unpack MessageDecoder.unpack
  congr

theorem RockMessageDecoder.receiveBody_eq_parse (settings : Settings) (gzip : Gzip)
    (fresh : Nat → Byte) (nodeSize : Nat) (flag : Byte) (length : Nat) :
    RockMessageDecoder.receiveBody settings gzip fresh nodeSize flag length =
      MessageDecoder.receiveBody (RockMessageDecoder.parseBody ByteArray.readers)
        settings.bufferSize gzip fresh nodeSize flag length := by
  funext socket
  rw [RockMessageDecoder.receiveBody, MessageDecoder.receiveBody,
    RockMessageDecoder.unpack_eq_parse]
  generalize Stream.readFixSize settings.bufferSize length
    (ByteArray.make nodeSize fresh, socket) = result
  cases result with
  | error fault state => rfl
  | ok ret state =>
      simp only
      split
      · rfl
      · generalize MessageDecoder.unpack _ gzip fresh flag state.1 = unpacked
        cases unpacked <;> rfl

theorem RockMessageDecoder.parseFromStream_eq (settings : Settings) (gzip : Gzip)
    (fresh : Nat → Byte) (nodeSize : Nat) :
    RockMessageDecoder.parseFromStream settings gzip fresh nodeSize =
      MessageDecoder.parseFromStream (RockMessageDecoder.parseBody ByteArray.readers)
        settings.bufferSize gzip fresh (some settings.maxBodyLength) nodeSize := by
  funext socket
  simp only [RockMessageDecoder.parseFromStream, MessageDecoder.parseFromStream,
    MessageDecoder.exceeds, decide_eq_true_eq, RockMessageDecoder.receiveBody_eq_parse]

end Rock

namespace MessageDecoder

section Arriving

/-- The head in front of a stream. -/
def headOf (socket : Socket) : RockMsgHead :=
  RockMsgHead.ofBytes (socket.incoming.take RockMsgHead.size)

/-- A body comes in: the head in front of the stream passes the checks, and the receives
of the body use up its length, which leaves some contents in an array of some capacity. -/
structure Receives (bufferSize : Nat) (limit : Option (BitVec 32)) (nodeSize : Nat)
    (socket : Socket) (capacity : Nat) (contents : List Byte) : Prop where
  connected : socket.connected = true
  whole : RockMsgHead.size ≤ socket.incoming.length
  magic : (headOf socket).magic = [0x12, 0x21]
  version : (headOf socket).version = 1
  within : exceeds limit (htobe32 (headOf socket).length) = false
  nonempty : 0 < (htobe32 (headOf socket).length).toNat
  body : ∃ middle later, socket.Takes (bufferRoom bufferSize) 0 RockMsgHead.size middle ∧
    Stream.Fills nodeSize bufferSize nodeSize []
      (BitVec.ofNat 64 (htobe32 (headOf socket).length).toNat) middle capacity contents later

/-- What a parser is given of a body: the contents from the start, or what they are
decompressed to, in an array of its own. -/
def payload (gzip : Gzip) (flag : Byte) (capacity : Nat) (contents : List Byte) :
    Option Cursor :=
  if flag &&& 1 ≠ 0 then
    match gzip.inflate contents with
    | .error _ => none
    | .ok output => some ⟨.big, capacityFor Message.defaultNodeSize output.length, [], output⟩
  else
    some ⟨.big, capacity, [], contents⟩

/-- Some bytes arrive at a parser, with the cursor in front of them. -/
def Arrives (bufferSize : Nat) (limit : Option (BitVec 32)) (gzip : Gzip) (nodeSize : Nat)
    (socket : Socket) (cursor : Cursor) : Prop :=
  ∃ capacity contents, Receives bufferSize limit nodeSize socket capacity contents ∧
    payload gzip (headOf socket).flag capacity contents = some cursor

variable {Msg : Type} {parse : Action (Option Msg)} {bufferSize nodeSize capacity : Nat}
  {limit : Option (BitVec 32)} {gzip : Gzip} {fresh : Nat → Byte} {socket : Socket}
  {cursor : Cursor} {contents : List Byte} {ba : ByteArray}

/-- At most one sequence of bytes arrives. -/
theorem Arrives.unique {other : Cursor} (first : Arrives bufferSize limit gzip nodeSize socket cursor)
    (second : Arrives bufferSize limit gzip nodeSize socket other) : cursor = other := by
  obtain ⟨capacity, contents, receives, given⟩ := first
  obtain ⟨capacity', contents', receives', given'⟩ := second
  obtain ⟨middle, later, head, fills⟩ := receives.body
  obtain ⟨middle', later', head', fills'⟩ := receives'.body
  obtain rfl := head.unique head'
  obtain ⟨rfl, rfl⟩ := fills.unique fills'
  rw [given] at given'
  exact Option.some.inj given'

/-- The last part of a decoder gives the parser its bytes, unless decompressing fails. -/
theorem unpack_eq (cut : At .big nodeSize capacity contents [] ba) (flag : Byte) :
    match payload gzip flag capacity contents with
    | none => ∃ later, unpack parse gzip fresh flag ba = .ok none later
    | some cursor =>
        ∃ shown : ByteArray, shown.Shows cursor ∧ unpack parse gzip fresh flag ba = parse shown := by
  obtain ⟨start, moved, cut⟩ := At.rewind cut
  rw [List.append_nil] at cut
  rw [unpack, bind_ok moved]
  by_cases compressed : flag &&& 1 ≠ 0
  · have input := RockMessageDecoder.zlibInput_eq cut start.getReadSize
    rw [cut.getReadSize_eq, List.take_length] at input
    simp only [payload, if_pos compressed, get_bind, cut.getReadSize_eq, bind_ok input]
    cases gzip.inflate contents with
    | error call => exact ⟨start, rfl⟩
    | ok output =>
        obtain ⟨shown, written, cut⟩ := RockMessageDecoder.zlibByteArray_eq fresh output start
        exact ⟨shown, ⟨_, cut⟩, bind_ok written⟩
  · simp only [payload, if_neg compressed]
    exact ⟨start, ⟨_, cut⟩, rfl⟩

/-- A head that does not pass, or a body that does not come in, makes a null message. -/
theorem receive_refuses (positive : 0 < bufferSize) (positiveNode : 0 < nodeSize)
    (nothing : ∀ capacity contents, ¬ Receives bufferSize limit nodeSize socket capacity contents) :
    ∃ later, receive bufferSize fresh limit nodeSize socket = .ok none later := by
  rw [receive]
  by_cases head : socket.connected = true ∧ RockMsgHead.size ≤ socket.incoming.length
  · obtain ⟨connected, whole⟩ := head
    obtain ⟨middle, takes⟩ := Socket.takes_buffer positive 0 whole
    simp only [Stream.readFixBuffer_eq takes connected]
    split_ifs with none magic version within
    · exact ⟨_, rfl⟩
    · exact ⟨_, rfl⟩
    · exact ⟨_, rfl⟩
    · exact ⟨_, rfl⟩
    · rcases @Stream.readFixSize_fills _ _ (htobe32 (headOf socket).length).toNat _ positive
          positiveNode fresh (takes.kept.1.trans connected) with
        ⟨last, contents, later, filled, fills, read, -⟩ | ⟨-, ret, ⟨filled, later⟩, read, failed⟩
      · have empty : (htobe32 (headOf socket).length).toNat = 0 := by
          by_contra some
          exact nothing last contents ⟨connected, whole, Classical.not_not.mp magic,
            Classical.not_not.mp version, Bool.eq_false_iff.mpr within, Nat.pos_of_ne_zero some,
            middle, later, takes, fills⟩
        simp only [headOf] at read empty
        simp only [read]
        rw [if_pos (by omega)]
        exact ⟨_, rfl⟩
      · simp only [headOf] at read
        simp only [read]
        rw [if_pos failed]
        exact ⟨_, rfl⟩
  · have fails : socket.connected = false ∨ socket.incoming.length < RockMsgHead.size := by
      rcases Bool.eq_false_or_eq_true socket.connected with connected | closed
      · exact .inr (Nat.lt_of_not_le fun whole => head ⟨connected, whole⟩)
      · exact .inl closed
    simp only
    rw [if_pos (Stream.readFixBuffer_fails (by decide) fails)]
    exact ⟨_, rfl⟩

/-- A body that comes in is there, with the flag of its head. -/
theorem receive_receives (positive : 0 < bufferSize) (positiveNode : 0 < nodeSize)
    (receives : Receives bufferSize limit nodeSize socket capacity contents) :
    ∃ ba later, At .big nodeSize capacity contents [] ba ∧
      receive bufferSize fresh limit nodeSize socket =
        .ok (some ((headOf socket).flag, ba)) later := by
  obtain ⟨middle, later, takes, fills⟩ := receives.body
  have kept := takes.kept.1.trans receives.connected
  rcases @Stream.readFixSize_fills _ _ (htobe32 (headOf socket).length).toNat _ positive
      positiveNode fresh kept with
    ⟨last, contents', later', filled, fills', read, cut⟩ | ⟨never, -⟩
  · obtain ⟨rfl, rfl⟩ := fills.unique fills'
    refine ⟨filled, later', cut, ?_⟩
    have nonempty := receives.nonempty
    have within := receives.within
    have magic := receives.magic
    have version := receives.version
    simp only [headOf] at read nonempty within magic version
    simp only [receive, Stream.readFixBuffer_eq takes receives.connected, magic, version, within,
      read, headOf]
    rw [if_neg (by decide), if_neg (by decide), if_neg (by decide), if_neg (by decide),
      if_neg (by omega)]
  · exact absurd fills (never _ _ _)

theorem parseFromStream_refuses (positive : 0 < bufferSize) (positiveNode : 0 < nodeSize)
    (nothing : ∀ capacity contents, ¬ Receives bufferSize limit nodeSize socket capacity contents) :
    ∃ later, parseFromStream parse bufferSize gzip fresh limit nodeSize socket = .ok none later := by
  obtain ⟨later, refused⟩ := @receive_refuses _ _ _ fresh _ positive positiveNode nothing
  rw [parseFromStream_eq_receive, refused]
  exact ⟨later, rfl⟩

/-- A body that comes in is unpacked. -/
theorem parseFromStream_receives (positive : 0 < bufferSize) (positiveNode : 0 < nodeSize)
    (receives : Receives bufferSize limit nodeSize socket capacity contents) :
    ∃ ba later, At .big nodeSize capacity contents [] ba ∧
      parseFromStream parse bufferSize gzip fresh limit nodeSize socket =
        match unpack parse gzip fresh (headOf socket).flag ba with
        | .error fault _ => .error fault later
        | .ok msg _ => .ok msg later := by
  obtain ⟨ba, later, cut, received⟩ := @receive_receives _ _ _ _ fresh _ _ positive positiveNode
    receives
  refine ⟨ba, later, cut, ?_⟩
  rw [parseFromStream_eq_receive, received]

/-- A frame that is paced comes in with its body. -/
theorem receives_frame {flag : Byte} {body rest : List Byte} {middle later : Socket}
    (positive : 0 < bufferSize) (positiveNode : 0 < nodeSize) (connected : socket.connected = true)
    (incoming : socket.incoming = frame flag body ++ rest) (small : body.length < 2 ^ 32)
    (some : body ≠ []) (within : exceeds limit (BitVec.ofNat 32 body.length) = false)
    (head : socket.Takes (bufferRoom bufferSize) 0 RockMsgHead.size middle)
    (takes : middle.Takes (arrayRoom nodeSize bufferSize) 0 body.length later) :
    (headOf socket).flag = flag ∧
      Receives bufferSize limit nodeSize socket (capacityFor nodeSize body.length) body := by
  have shown : headOf socket =
      { flag := flag, length := htobe32 (BitVec.ofNat 32 body.length) } := by
    rw [headOf, incoming, take_frame, RockMsgHead.ofBytes_toBytes]
  have length : (htobe32 (headOf socket).length).toNat = body.length := by
    rw [shown, htobe32_htobe32]
    exact Nat.mod_eq_of_lt small
  refine ⟨by rw [shown], connected, ?_, by rw [shown], by rw [shown], ?_, ?_, middle, later, head, ?_⟩
  · rw [incoming, List.length_append, length_frame]
    omega
  · rwa [shown, htobe32_htobe32]
  · rw [length]
    exact List.length_pos_iff.mpr some
  · have fills := Stream.Fills.of_takes_new positive positiveNode takes
      (head.kept.1.trans connected) (by omega)
    rw [@incoming_body ⟨bufferSize, 0, 0, positive⟩ _ _ _ _ _ incoming head, List.take_left]
      at fills
    rwa [length]

end Arriving

section Returning

variable {Msg : Type} {parse : Action (Option Msg)} {spec : Cursor.Scan (Option Msg)}
  {bufferSize nodeSize : Nat} {limit : Option (BitVec 32)} {gzip : Gzip} {fresh : Nat → Byte}
  {socket : Socket} {cursor : Cursor}

/-- A decoder does on a stream what its parser does on the bytes that arrive. -/
theorem parseFromStream_arrives (positive : 0 < bufferSize) (positiveNode : 0 < nodeSize)
    (simulates : Simulates ByteArray.Shows parse spec)
    (arrives : Arrives bufferSize limit gzip nodeSize socket cursor) :
    (∀ msg after, spec cursor = .ok msg after →
      ∃ later, parseFromStream parse bufferSize gzip fresh limit nodeSize socket =
        .ok msg later) ∧
    ∀ fault after, spec cursor = .error fault after →
      ∃ later, parseFromStream parse bufferSize gzip fresh limit nodeSize socket =
        .error fault later := by
  obtain ⟨capacity, contents, receives, given⟩ := arrives
  obtain ⟨ba, later, cut, result⟩ := @parseFromStream_receives _ parse _ _ _ _ gzip fresh _ _
    positive positiveNode receives
  have unpacked := @unpack_eq _ parse _ _ gzip fresh _ _ cut (headOf socket).flag
  rw [given] at unpacked
  obtain ⟨shown, shows, same⟩ := unpacked
  rw [result, same]
  refine ⟨fun msg after done => ?_, fun fault after stopped => ?_⟩
  · obtain ⟨last, done, -⟩ := simulates.ok shows done
    exact ⟨later, by rw [done]⟩
  · obtain ⟨last, stopped, -⟩ := simulates.error shows stopped
    exact ⟨later, by rw [stopped]⟩

/-- Where no bytes arrive a decoder returns a null message. -/
theorem parseFromStream_nothing (positive : 0 < bufferSize) (positiveNode : 0 < nodeSize)
    (nothing : ∀ cursor, ¬ Arrives bufferSize limit gzip nodeSize socket cursor) :
    ∃ later, parseFromStream parse bufferSize gzip fresh limit nodeSize socket = .ok none later := by
  by_cases some : ∃ capacity contents, Receives bufferSize limit nodeSize socket capacity contents
  · obtain ⟨capacity, contents, receives⟩ := some
    obtain ⟨ba, later, cut, result⟩ := @parseFromStream_receives _ parse _ _ _ _ gzip fresh _ _
      positive positiveNode receives
    have unpacked := @unpack_eq _ parse _ _ gzip fresh _ _ cut (headOf socket).flag
    cases given : payload gzip (headOf socket).flag capacity contents with
    | none =>
        rw [given] at unpacked
        obtain ⟨last, unpacked⟩ := unpacked
        rw [result, unpacked]
        exact ⟨later, rfl⟩
    | some cursor => exact absurd ⟨capacity, contents, receives, given⟩ (nothing cursor)
  · exact parseFromStream_refuses positive positiveNode fun capacity contents receives =>
      some ⟨capacity, contents, receives⟩

/-- A decoder returns on a stream exactly if its parser returns on the bytes that arrive. -/
theorem parseFromStream_returns_iff (positive : 0 < bufferSize) (positiveNode : 0 < nodeSize)
    (simulates : Simulates ByteArray.Shows parse spec) :
    Returns (parseFromStream parse bufferSize gzip fresh limit nodeSize) socket ↔
      ∀ cursor, Arrives bufferSize limit gzip nodeSize socket cursor → Returns spec cursor := by
  by_cases some : ∃ cursor, Arrives bufferSize limit gzip nodeSize socket cursor
  · obtain ⟨cursor, arrives⟩ := some
    obtain ⟨returns, stops⟩ := @parseFromStream_arrives _ _ _ _ _ _ _ fresh _ _ positive
      positiveNode simulates arrives
    have only (other : Cursor) (also : Arrives bufferSize limit gzip nodeSize socket other) :
        other = cursor := also.unique arrives
    cases done : spec cursor with
    | ok msg after =>
        obtain ⟨later, returned⟩ := returns msg after done
        refine iff_of_true ⟨_, _, returned⟩ fun other also => ?_
        rw [only other also]
        exact ⟨_, _, done⟩
    | error fault after =>
        obtain ⟨later, stopped⟩ := stops fault after done
        exact iff_of_false (not_returns stopped) fun all => not_returns done (all cursor arrives)
  · obtain ⟨later, refused⟩ := @parseFromStream_nothing _ parse _ _ _ _ fresh _ positive positiveNode
      (not_exists.mp some)
    exact iff_of_true ⟨_, _, refused⟩ fun cursor arrives => absurd ⟨cursor, arrives⟩ some

end Returning

section Readable

/-- A body can be taken by a decoder: there is a type byte, and if it is that of a class,
the parser of the class handles the first fault of its reads, if there is one. -/
def Readable (handled : Fault → Bool) (reads : Byte → Option (List Read)) (cursor : Cursor) :
    Prop :=
  match cursor.after with
  | [] => False
  | type :: rest => ∀ list ∈ reads type,
      Read.Passable handled list { cursor with before := cursor.before ++ [type], after := rest }

instance decidableReadable (handled : Fault → Bool) (reads : Byte → Option (List Read)) :
    (cursor : Cursor) → Decidable (Readable handled reads cursor)
  | ⟨_, _, _, []⟩ => inferInstanceAs (Decidable False)
  | ⟨endian, capacity, before, type :: rest⟩ =>
      inferInstanceAs (Decidable (∀ list ∈ reads type,
        Read.Passable handled list ⟨endian, capacity, before ++ [type], rest⟩))

variable {Msg : Type} {handled : Fault → Bool} {reads : Byte → Option (List Read)}
  {make : Byte → Option Msg} {parse : Msg → EStateM Fault Cursor (Bool × Msg)}

/-- A parser for the objects of a class answers as its reads say. -/
structure Heeds (handled : Fault → Bool) (parse : EStateM Fault Cursor (Bool × Msg))
    (reads : List Read) : Prop where
  returns : ∀ {cursor}, Read.Passable handled reads cursor →
    ∃ left later, parse cursor = .ok (true, left) later
  stops : ∀ {cursor}, ¬ Read.Passable handled reads cursor →
    ∃ fault later, parse cursor = .error fault later

theorem heeds_of_answers {Object : Type} {method : EStateM Fault (Cursor × Object) Bool}
    {reads : List Read} (answers : Answers handled method reads) (self : Object)
    (class_ : Object → Msg) : Heeds handled (callOn method self class_) reads where
  returns := by
    intro cursor passable
    obtain ⟨⟨later, left⟩, done⟩ := answers.returns self passable
    exact ⟨class_ left, later, by simp only [callOn, done]⟩
  stops := by
    intro cursor stuck
    obtain ⟨fault, ⟨later, left⟩, stopped⟩ := answers.stops self stuck
    exact ⟨fault, later, by simp only [callOn, stopped]⟩

/-- What a decoder makes of the bytes after its cursor. -/
theorem parseBody_eq (classes : ∀ type, reads type = none ↔ make type = none)
    (heeds : ∀ type list msg, reads type = some list → make type = some msg →
      Heeds handled (parse msg) list) (cursor : Cursor) :
    (Readable handled reads cursor → ∃ msg later,
      parseBody Cursor.readers make parse cursor = .ok msg later ∧
        ∀ type rest, cursor.after = type :: rest → (msg = none ↔ reads type = none)) ∧
    (¬ Readable handled reads cursor → ∃ fault later,
      parseBody Cursor.readers make parse cursor = .error fault later) := by
  obtain ⟨endian, capacity, before, after⟩ := cursor
  cases after with
  | nil =>
      refine ⟨False.elim, fun _ => ⟨.outOfRange "no enough readSize", _, bind_error (?_ :
        Cursor.readFUint8 ⟨endian, capacity, before, []⟩ = .error _ ⟨endian, capacity, before, []⟩)⟩⟩
      rfl
  | cons type rest =>
      have typed : Cursor.readers.readFUint8 ⟨endian, capacity, before, type :: rest⟩ =
          .ok type ⟨endian, capacity, before ++ [type], rest⟩ := Cursor.readFUint8_append type
      rw [parseBody, bind_ok typed]
      cases made : make type with
      | none =>
          have unread := (classes type).mpr made
          have readable : Readable handled reads ⟨endian, capacity, before, type :: rest⟩ := by
            intro list read
            rw [unread] at read
            cases read
          refine ⟨fun _ => ⟨none, _, rfl, ?_⟩, fun unreadable => absurd readable unreadable⟩
          rintro _ _ ⟨⟩
          exact iff_of_true rfl unread
      | some msg =>
          obtain ⟨list, read⟩ : ∃ list, reads type = some list := by
            apply Option.ne_none_iff_exists'.mp
            rw [Ne, classes, made]
            exact Option.some_ne_none msg
          have heeds := heeds type list msg read made
          have readable : Readable handled reads ⟨endian, capacity, before, type :: rest⟩ ↔
              Read.Passable handled list ⟨endian, capacity, before ++ [type], rest⟩ := by
            simp [Readable, read]
          rw [readable]
          refine ⟨fun passable => ?_, fun stuck => ?_⟩
          · obtain ⟨left, later, done⟩ := heeds.returns passable
            refine ⟨some left, later, ?_, ?_⟩
            · simp only [bind_ok done]
              rfl
            · rintro _ _ ⟨⟩
              simp [read]
          · obtain ⟨fault, later, stopped⟩ := heeds.stops stuck
            exact ⟨fault, later, bind_error stopped⟩

theorem parseBody_returns_iff (classes : ∀ type, reads type = none ↔ make type = none)
    (heeds : ∀ type list msg, reads type = some list → make type = some msg →
      Heeds handled (parse msg) list) (cursor : Cursor) :
    Returns (parseBody Cursor.readers make parse) cursor ↔ Readable handled reads cursor := by
  obtain ⟨returns, stops⟩ := parseBody_eq classes heeds cursor
  by_cases readable : Readable handled reads cursor
  · obtain ⟨msg, later, done, -⟩ := returns readable
    exact iff_of_true ⟨_, _, done⟩ readable
  · obtain ⟨fault, later, stopped⟩ := stops readable
    exact iff_of_false (not_returns stopped) readable

end Readable

section Simulation

variable {σ τ Msg Object : Type} {related : σ → τ → Prop} {ba : Readers σ} {spec : Readers τ}

theorem callOn_simulates {method : EStateM Fault (σ × Object) Bool}
    {specMethod : EStateM Fault (τ × Object) Bool}
    (simulates : Simulates (Beside related Object) method specMethod) (self : Object)
    (class_ : Object → Msg) :
    Simulates related (callOn method self class_) (callOn specMethod self class_) := by
  intro left right states
  have agree := @simulates (left, self) (right, self) ⟨states, rfl⟩
  simp only [callOn]
  generalize method (left, self) = result at agree
  generalize specMethod (right, self) = specResult at agree
  cases agree with
  | @ok value left right states =>
      obtain ⟨left, _⟩ := left
      obtain ⟨right, _⟩ := right
      obtain ⟨states, rfl⟩ := states
      exact .ok _ states
  | error fault states => exact .error fault states.1

theorem parseBody_simulates (typed : Simulates related ba.readFUint8 spec.readFUint8)
    (make : Byte → Option Msg) {parse : Msg → EStateM Fault σ (Bool × Msg)}
    {specParse : Msg → EStateM Fault τ (Bool × Msg)}
    (parses : ∀ msg, Simulates related (parse msg) (specParse msg)) :
    Simulates related (parseBody ba make parse) (parseBody spec make specParse) := by
  apply typed.bind
  intro type
  cases make type with
  | none => exact Simulates.pure none
  | some msg => exact (parses msg).bind fun result => Simulates.pure _

end Simulation

end MessageDecoder

section Rock

namespace Message

/-- The reads that a type byte announces, if it is that of a class. -/
def announced (type : Byte) : Option (List Read) :=
  (make type).map reads

theorem callOn_eq {σ Object : Type} (method : EStateM Fault (σ × Object) Bool) (self : Object)
    (class_ : Object → Message) :
    callOn method self class_ = MessageDecoder.callOn method self class_ := by
  funext state
  simp only [callOn, MessageDecoder.callOn]
  generalize method (state, self) = result
  cases result <;> rfl

/-- The parsers of the classes handle exceptions. -/
theorem heeds (msg : Message) :
    MessageDecoder.Heeds Fault.isException (msg.parseFromByteArray Cursor.readers) msg.reads := by
  cases msg with
  | request self =>
      simp only [parseFromByteArray, callOn_eq]
      exact MessageDecoder.heeds_of_answers
        (Answers.tryBoth Request.follows.onBase RockBody.follows.onBase) self _
  | response self =>
      simp only [parseFromByteArray, callOn_eq]
      exact MessageDecoder.heeds_of_answers
        (Answers.tryBoth Response.follows.onBase RockBody.follows.onBase) self _
  | notify self =>
      simp only [parseFromByteArray, callOn_eq]
      exact MessageDecoder.heeds_of_answers
        (Answers.tryBoth Notify.follows.onBase RockBody.follows.onBase) self _

theorem announced_heeds (type : Byte) (list : List Read) (msg : Message)
    (read : announced type = some list) (made : make type = some msg) :
    MessageDecoder.Heeds Fault.isException (msg.parseFromByteArray Cursor.readers) list := by
  rw [announced, made] at read
  cases read
  exact msg.heeds

end Message

end Rock

end Xten
