import Xten.ByteArray.Exposure
import Xten.Rock.Agreement
import Xten.Zlib.Buffering

/-!
# Bodies that are decompressed

`ParseFromStream` with the `ZlibStream` that it uses. A body that comes in is parsed as it is,
or in an array of what zlib makes of it; the stream has allocated buffers for all of that.
-/

namespace Xten

open Std.StreamCodec Std.Programs Filter

namespace RockMessageDecoder

section Functions

variable {State : Type} (settings : Settings) (zlib : Zlib State) (start : State)
  (fresh : Nat → Byte) (rounds : Nat)

/-- What is parsed: the array with the body in it, and the bytes in the buffers that were
allocated for its decompression. -/
structure Body where
  ba : ByteArray
  allocated : Nat

/-- The size of the buffers of `Creategzip(false)`. -/
def iovSize : Nat := 4096

/-- A new stream is given some iovecs and flushed: the stream in the end, if both calls
return `Z_OK`. -/
def decompress (iovs : List (List Byte)) : Option (Option (ZlibStream State)) :=
  match ZlibStream.writeIovs zlib iovs rounds (.create false iovSize start) with
  | none => none
  | some (ret, stream) =>
      if ret ≠ .ok then some none
      else
        match ZlibStream.flush zlib rounds stream with
        | none => none
        | some (ret, stream) => if ret ≠ .ok then some none else some (some stream)

/-- The part of `ParseFromStream` between the receives of the body and its parse. -/
def inflateBody (flag : Byte) (ba : ByteArray) : Option (Except Fault (Option Body)) :=
  match ByteArray.setPosition 0 ba with
  | .error fault _ => some (.error fault)
  | .ok () ba =>
      if flag &&& 1 ≠ 0 then
        match ByteArray.getReadBuffers ba.getReadSize ba with
        | .error fault _ => some (.error fault)
        | .ok (iovs, _) ba =>
            match decompress zlib start rounds (iovs.map ba.iovecBytes) with
            | none => none
            | some none => some (.ok none)
            | some (some stream) =>
                match stream.getByteArray Message.defaultNodeSize fresh with
                | .error fault _ => some (.error fault)
                | .ok () ba => some (.ok (some ⟨ba, stream.allocated⟩))
      else
        some (.ok (some ⟨ba, 0⟩))

/-- `ParseFromStream` up to the parse; none is the null message. -/
def bodyFromStream (socket : Socket) : Option (EStateM.Result Fault Socket (Option Body)) :=
  match MessageDecoder.receive settings.bufferSize fresh (some settings.maxBodyLength)
      Message.defaultNodeSize socket with
  | .error fault socket => some (.error fault socket)
  | .ok none socket => some (.ok none socket)
  | .ok (some (flag, ba)) socket =>
      match inflateBody zlib start fresh rounds flag ba with
      | none => none
      | some (.error fault) => some (.error fault socket)
      | some (.ok body) => some (.ok body socket)

/-- `ParseFromStream`, if so many rounds of the loops are enough. -/
def messageFromStream (socket : Socket) : Option (EStateM.Result Fault Socket (Option Message)) :=
  match bodyFromStream settings zlib start fresh rounds socket with
  | none => none
  | some (.error fault socket) => some (.error fault socket)
  | some (.ok none socket) => some (.ok none socket)
  | some (.ok (some body) socket) =>
      match parseBody ByteArray.readers body.ba with
      | .error fault _ => some (.error fault socket)
      | .ok msg _ => some (.ok msg socket)

/-- A body comes in for `ParseFromStream`. -/
abbrev Receives (socket : Socket) (capacity : Nat) (contents : List Byte) : Prop :=
  MessageDecoder.Receives settings.bufferSize (some settings.maxBodyLength) Message.defaultNodeSize
    socket capacity contents

/-- The head in front of a stream says that the body is compressed. -/
def Compressed (socket : Socket) : Prop :=
  (MessageDecoder.headOf socket).flag &&& 1 ≠ 0

end Functions

section Receiving

variable {settings : Settings} {socket : Socket} {capacity : Nat} {contents : List Byte}

/-- The body is within the limit unless the count of the bytes left has wrapped around. -/
theorem Receives.within_iff (receives : Receives settings socket capacity contents) :
    contents.length ≤ settings.maxBodyLength.toNat ↔ contents.length < 2 ^ 64 := by
  obtain ⟨middle, later, -, fills⟩ := receives.body
  have length := congrArg BitVec.toNat fills.length
  have within := receives.within
  have limit := settings.maxBodyLength.isLt
  have small := (htobe32 (MessageDecoder.headOf socket).length).isLt
  rw [MessageDecoder.exceeds, decide_eq_false_iff_not, BitVec.lt_def, Nat.not_lt] at within
  simp only [List.length_nil, BitVec.toNat_add, BitVec.toNat_ofNat] at length
  omega

end Receiving

section Outcomes

variable {State : Type} {settings : Settings} {zlib : Zlib State}
  {meaning : State → List Byte → List Byte} {socket : Socket} {capacity : Nat}
  {contents : List Byte} {flag : Byte} {ba : ByteArray}

/-- Decompression puts out what zlib makes of the input, in as many buffers as this takes and
never none. -/
theorem decompress_eq (lawful : Zlib.Lawful zlib.inflate meaning) (start : State)
    {iovs : List (List Byte)} (few : iovs.length < 2 ^ 31) :
    ∃ stream, (∀ᶠ rounds in atTop, decompress zlib start rounds iovs = some (some stream)) ∧
      stream.getResult = meaning start (iovs.flatMap ZlibStream.availIn) ∧
      stream.allocated = iovSize * (stream.getResult.length / iovSize + 1) := by
  have positive : 0 < iovSize := by decide
  have decodes : Zlib.Lawful (ZlibStream.codec zlib false) meaning := lawful
  obtain ⟨middle, written, carries⟩ := (@ZlibStream.Carries.create _ meaning start false _
    positive).writeIovs decodes few
  obtain ⟨stream, flushed, result, size, roomy⟩ := carries.flush decodes
  refine ⟨stream, ?_, by rw [result, List.nil_append], ?_⟩
  · filter_upwards [written, flushed] with rounds one two
    simp [decompress, one, two]
  · rw [ZlibStream.allocated, roomy.length, size, Nat.mul_comm]
    rfl

/-- Nothing is said of a decompression of too many iovecs. -/
theorem decompress_overflows (lawful : Zlib.Lawful zlib.inflate meaning) (start : State)
    {iovs : List (List Byte)} (many : 2 ^ 31 ≤ iovs.length) :
    ∀ᶠ rounds in atTop, decompress zlib start rounds iovs = none := by
  have positive : 0 < iovSize := by decide
  have decodes : Zlib.Lawful (ZlibStream.codec zlib false) meaning := lawful
  filter_upwards [(@ZlibStream.Carries.create _ meaning start false _
    positive).writeIovs_overflows decodes many] with rounds none
  rw [decompress, none]

/-- A body that was not compressed is parsed as it is. -/
theorem inflateBody_plain (zlib : Zlib State) (start : State) (fresh : Nat → Byte)
    (cut : ByteArray.At .big Message.defaultNodeSize capacity contents [] ba)
    (plain : ¬ flag &&& 1 ≠ 0) :
    ∃ later, ByteArray.At .big Message.defaultNodeSize capacity [] contents later ∧
      ∀ rounds, inflateBody zlib start fresh rounds flag ba = some (.ok (some ⟨later, 0⟩)) := by
  obtain ⟨later, moved, cut⟩ := ByteArray.At.rewind cut
  rw [List.append_nil] at cut
  refine ⟨later, cut, fun rounds => ?_⟩
  simp only [inflateBody, moved, if_neg plain]

/-- A compressed body is parsed in an array of what zlib makes of it. -/
theorem inflateBody_compressed (lawful : Zlib.Lawful zlib.inflate meaning) (start : State)
    (fresh : Nat → Byte)
    (cut : ByteArray.At .big Message.defaultNodeSize capacity contents [] ba)
    (compressed : flag &&& 1 ≠ 0) (small : contents.length < 2 ^ 32) :
    ∃ later, ByteArray.At .big Message.defaultNodeSize
        (capacityFor Message.defaultNodeSize (meaning start contents).length) []
        (meaning start contents) later ∧
      ∀ᶠ rounds in atTop, inflateBody zlib start fresh rounds flag ba = some (.ok (some
        ⟨later, iovSize * ((meaning start contents).length / iovSize + 1)⟩)) := by
  obtain ⟨middle, moved, cut⟩ := ByteArray.At.rewind cut
  rw [List.append_nil] at cut
  obtain ⟨iovs, handed, held, bounded, count⟩ := cut.iovecs
  have few : (iovs.map middle.iovecBytes).length < 2 ^ 31 := by
    rw [List.length_map, count]
    apply Nat.div_lt_of_lt_mul
    simp only [Message.defaultNodeSize]
    omega
  obtain ⟨stream, done, result, allocated⟩ := decompress_eq lawful start few
  have whole : (iovs.map middle.iovecBytes).flatMap ZlibStream.availIn = contents := by
    rw [ZlibStream.flatMap_availIn_of_small, held]
    intro piece member
    exact (bounded piece member).trans_lt (by decide)
  rw [whole] at result
  rw [result] at allocated
  obtain ⟨later, got, cut⟩ := @ZlibStream.getByteArray_shows _ stream Message.defaultNodeSize
    (by decide) fresh
  rw [result] at cut
  refine ⟨later, cut, ?_⟩
  filter_upwards [done] with rounds done
  simp only [inflateBody, moved, if_pos compressed, handed, done, got, allocated]

/-- Nothing is said of a compressed body whose length has wrapped around. -/
theorem inflateBody_overflows (lawful : Zlib.Lawful zlib.inflate meaning) (start : State)
    (fresh : Nat → Byte)
    (cut : ByteArray.At .big Message.defaultNodeSize capacity contents [] ba)
    (compressed : flag &&& 1 ≠ 0) (huge : 2 ^ 64 ≤ contents.length) :
    ∀ᶠ rounds in atTop, inflateBody zlib start fresh rounds flag ba = none := by
  obtain ⟨middle, moved, cut⟩ := ByteArray.At.rewind cut
  rw [List.append_nil] at cut
  obtain ⟨iovs, handed, held, bounded, count⟩ := cut.iovecs
  have many : 2 ^ 31 ≤ (iovs.map middle.iovecBytes).length := by
    rw [List.length_map, count]
    apply (Nat.le_div_iff_mul_le (by decide)).mpr
    simp only [Message.defaultNodeSize]
    omega
  filter_upwards [decompress_overflows lawful start many] with rounds none
  simp only [inflateBody, moved, if_pos compressed, handed, none]

/-- A frame whose body does not come in makes a null message. -/
theorem bodyFromStream_refuses (settings : Settings) (zlib : Zlib State) (start : State)
    (fresh : Nat → Byte)
    (nothing : ∀ capacity contents, ¬ Receives settings socket capacity contents) :
    ∃ later, ∀ rounds, bodyFromStream settings zlib start fresh rounds socket =
      some (.ok none later) := by
  obtain ⟨later, refused⟩ := @MessageDecoder.receive_refuses _ _ _ fresh _ settings.positive
    (by decide) nothing
  refine ⟨later, fun rounds => ?_⟩
  simp only [bodyFromStream, refused]

theorem bodyFromStream_plain (zlib : Zlib State) (start : State) (fresh : Nat → Byte)
    (receives : Receives settings socket capacity contents) (plain : ¬ Compressed socket) :
    ∃ ba later, ByteArray.At .big Message.defaultNodeSize capacity [] contents ba ∧
      ∀ rounds, bodyFromStream settings zlib start fresh rounds socket =
        some (.ok (some ⟨ba, 0⟩) later) := by
  obtain ⟨ba, later, cut, received⟩ := @MessageDecoder.receive_receives _ _ _ _ fresh _ _
    settings.positive (by decide) receives
  obtain ⟨parsed, cut, done⟩ := inflateBody_plain zlib start fresh cut plain
  refine ⟨parsed, later, cut, fun rounds => ?_⟩
  simp only [bodyFromStream, received, done]

theorem bodyFromStream_compressed (lawful : Zlib.Lawful zlib.inflate meaning) (start : State)
    (fresh : Nat → Byte) (receives : Receives settings socket capacity contents)
    (compressed : Compressed socket) (small : contents.length < 2 ^ 32) :
    ∃ ba later, ByteArray.At .big Message.defaultNodeSize
        (capacityFor Message.defaultNodeSize (meaning start contents).length) []
        (meaning start contents) ba ∧
      ∀ᶠ rounds in atTop, bodyFromStream settings zlib start fresh rounds socket = some (.ok (some
        ⟨ba, iovSize * ((meaning start contents).length / iovSize + 1)⟩) later) := by
  obtain ⟨ba, later, cut, received⟩ := @MessageDecoder.receive_receives _ _ _ _ fresh _ _
    settings.positive (by decide) receives
  obtain ⟨parsed, cut, done⟩ := inflateBody_compressed lawful start fresh cut compressed small
  refine ⟨parsed, later, cut, ?_⟩
  filter_upwards [done] with rounds done
  simp only [bodyFromStream, received, done]

theorem bodyFromStream_overflows (lawful : Zlib.Lawful zlib.inflate meaning) (start : State)
    (fresh : Nat → Byte) (receives : Receives settings socket capacity contents)
    (compressed : Compressed socket) (huge : 2 ^ 64 ≤ contents.length) :
    ∀ᶠ rounds in atTop, bodyFromStream settings zlib start fresh rounds socket = none := by
  obtain ⟨ba, later, cut, received⟩ := @MessageDecoder.receive_receives _ _ _ _ fresh _ _
    settings.positive (by decide) receives
  filter_upwards [inflateBody_overflows lawful start fresh cut compressed huge] with rounds none
  simp only [bodyFromStream, received, none]

/-- At most one body comes in. -/
theorem Receives.unique {capacity' : Nat} {contents' : List Byte}
    (first : Receives settings socket capacity contents)
    (second : Receives settings socket capacity' contents') : contents = contents' := by
  obtain ⟨middle, later, head, fills⟩ := first.body
  obtain ⟨middle', later', head', fills'⟩ := second.body
  obtain rfl := head.unique head'
  exact (fills.unique fills').2

end Outcomes

section Recorded

variable {stream output : List Byte} {enough : Nat}

/-- What comes of some bytes: all that the stream stands for, as soon as so many bytes of it
are there. -/
def recordedOutput (stream : List Byte) (enough : Nat) (output bytes : List Byte) : List Byte :=
  if stream.take enough <+: bytes then output else []

/-- The end is reported once the whole stream is there and all is out. -/
def recordedReport (stream : List Byte) (finish : Bool) (bytes : List Byte) (done : Bool) :
    ZlibReturn :=
  if stream <+: bytes ∧ done then .streamEnd else if finish then .bufError else .ok

/-- zlib on one compressed stream. -/
def recorded (stream : List Byte) (enough : Nat) (output : List Byte) : Zlib (List Byte × Nat) where
  deflate := gradual id fun _ _ _ => .ok
  inflate := gradual (recordedOutput stream enough output) (recordedReport stream)

theorem recordedOutput_grows (earlier later : List Byte) :
    recordedOutput stream enough output earlier <+:
      recordedOutput stream enough output (earlier ++ later) := by
  rw [recordedOutput, recordedOutput]
  split_ifs with there still
  · exact List.prefix_rfl
  · exact absurd (there.trans (List.prefix_append _ _)) still
  · exact List.nil_prefix
  · exact List.nil_prefix

theorem recorded_lawful :
    Zlib.Lawful (recorded stream enough output).inflate fun state more =>
      (recordedOutput stream enough output (state.1 ++ more)).drop state.2 where
  toObeys := @gradual_obeys _ _ _ _ (recordedReport stream) recordedOutput_grows
  alive := by
    intro state finish input room
    simp only [recorded, gradual, recordedReport]
    split_ifs <;> exact ZlibReturn.noConfusion

theorem recordedOutput_self : recordedOutput stream enough output stream = output :=
  if_pos (List.take_prefix _ _)

/-- A notification of ten bytes. -/
def notifyBody : List Byte :=
  [3, 0, 0, 0, 5, 0, 0, 0, 1, 7]

/-- The notification compressed: a head, one stored block, a checksum and a length. -/
def notifyStream : List Byte :=
  [31, 139, 8, 0, 0, 0, 0, 0, 4, 3] ++ [1, 10, 0, 245, 255] ++ notifyBody ++
    [36, 230, 15, 223, 10, 0, 0, 0]

end Recorded

end RockMessageDecoder

end Xten
