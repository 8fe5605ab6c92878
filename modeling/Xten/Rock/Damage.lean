import Xten.Rock.Inflating

/-!
# Compressed bodies that are damaged

A decompressing `ZlibStream` looks at no code of zlib but `Z_STREAM_ERROR`, which never comes.
Its calls return `Z_OK` on any input, and a body of which something is missing is parsed as
far as it goes.
-/

namespace Xten

open Std.StreamCodec Std.Programs Filter

section Streams

variable {State : Type} {zlib : Zlib State} {meaning : State → List Byte → List Byte}
  {start : State} {size : Nat} {iovs : List (List Byte)}

/-- An input is a complete stream: zlib reports the end when it is given all of it, with no
end of room. -/
def Zlib.Complete (inflate : Call State Byte Byte ZlibReturn) (start : State)
    (input : List Byte) : Prop :=
  ∀ᶠ room in atTop, (inflate start true input room).report = .streamEnd

namespace ZlibStream

/-- What `Write` and then `Flush` return. -/
def returns (zlib : Zlib State) (rounds : Nat) (iovs : List (List Byte))
    (stream : ZlibStream State) : Option (ZlibReturn × ZlibReturn) :=
  match writeIovs zlib iovs rounds stream with
  | none => none
  | some (ret, stream) => (flush zlib rounds stream).map fun (ret', _) => (ret, ret')

/-- Decompression returns, and `Z_OK` twice only for a complete stream. -/
def RejectsDamage (zlib : Zlib State) (size : Nat) (start : State) (iovs : List (List Byte)) :
    Prop :=
  ∃ rets, (∀ᶠ rounds in atTop, returns zlib rounds iovs (create false size start) = some rets) ∧
    (rets = (.ok, .ok) → Zlib.Complete zlib.inflate start iovs.flatten)

/-- Both calls return `Z_OK`, whatever the input. -/
theorem returns_ok (lawful : Zlib.Lawful zlib.inflate meaning) (positive : 0 < size)
    (start : State) (few : iovs.length < 2 ^ 31) :
    ∀ᶠ rounds in atTop, returns zlib rounds iovs (create false size start) = some (.ok, .ok) := by
  have decodes : Zlib.Lawful (codec zlib false) meaning := lawful
  obtain ⟨middle, written, carries⟩ :=
    (@Carries.create _ meaning start false _ positive).writeIovs decodes few
  obtain ⟨later, flushed, -⟩ := carries.flush decodes
  filter_upwards [written, flushed] with rounds one two
  simp only [returns, one, two, Option.map_some]

theorem returns_overflows (lawful : Zlib.Lawful zlib.inflate meaning) (positive : 0 < size)
    (start : State) (many : 2 ^ 31 ≤ iovs.length) :
    ∀ᶠ rounds in atTop, returns zlib rounds iovs (create false size start) = none := by
  have decodes : Zlib.Lawful (codec zlib false) meaning := lawful
  filter_upwards [(@Carries.create _ meaning start false _ positive).writeIovs_overflows decodes
    many] with rounds none
  rw [returns, none]

theorem rejectsDamage_iff (lawful : Zlib.Lawful zlib.inflate meaning) (positive : 0 < size) :
    RejectsDamage zlib size start iovs ↔
      Zlib.Complete zlib.inflate start iovs.flatten ∧ iovs.length < 2 ^ 31 := by
  constructor
  · rintro ⟨rets, returned, complete⟩
    have few : iovs.length < 2 ^ 31 := by
      by_contra many
      have overflows := returns_overflows lawful positive start (Nat.le_of_not_lt many)
      cases eventually_unique returned overflows
    have both := eventually_unique returned (returns_ok lawful positive start few)
    exact ⟨complete (Option.some.inj both), few⟩
  · rintro ⟨complete, few⟩
    exact ⟨_, returns_ok lawful positive start few, fun _ => complete⟩

end ZlibStream

end Streams

namespace RockMessageDecoder

section Bodies

variable {nodeSize capacity : Nat} {contents : List Byte} {ba : ByteArray}

/-- The parse of a body returns null exactly if its first byte is not that of a class. -/
theorem parseBody_null_iff (cut : ByteArray.At .big nodeSize capacity [] contents ba) :
    (∃ later, parseBody ByteArray.readers ba = .ok none later) ↔
      ∃ type rest, contents = type :: rest ∧ Message.make type = none := by
  have shows : ba.Shows ⟨.big, capacity, [], contents⟩ := ⟨nodeSize, cut⟩
  have simulates := parseBody_simulates ByteArray.readers_simulate
  obtain ⟨returns, stops⟩ := @MessageDecoder.parseBody_eq _ _ Message.announced Message.make _
    (fun type => Option.map_eq_none_iff) Message.announced_heeds ⟨.big, capacity, [], contents⟩
  rw [← RockMessageDecoder.parseBody_eq] at returns stops
  by_cases readable : MessageDecoder.Readable Fault.isException Message.announced
      ⟨.big, capacity, [], contents⟩
  · obtain ⟨msg, later, done, null⟩ := returns readable
    obtain ⟨last, parsed, -⟩ := simulates.ok shows done
    cases contents with
    | nil => exact readable.elim
    | cons type rest =>
        have unknown : msg = none ↔ Message.make type = none :=
          (null type rest rfl).trans Option.map_eq_none_iff
        rw [parsed]
        constructor
        · rintro ⟨later, same⟩
          cases same
          exact ⟨type, rest, rfl, unknown.mp rfl⟩
        · rintro ⟨_, _, ⟨⟩, none⟩
          rw [unknown.mpr none]
          exact ⟨last, rfl⟩
  · obtain ⟨fault, later, stopped⟩ := stops readable
    obtain ⟨last, parsed, -⟩ := simulates.error shows stopped
    rw [parsed]
    constructor
    · rintro ⟨later, ⟨⟩⟩
    · rintro ⟨type, rest, rfl, none⟩
      refine absurd ?_ readable
      intro list announced
      rw [Message.announced, none] at announced
      cases announced

end Bodies

section Frames

variable {State : Type} {settings : Settings} {zlib : Zlib State}
  {meaning : State → List Byte → List Byte} {start : State} {fresh : Nat → Byte}
  {socket : Socket} {capacity size : Nat} {contents : List Byte} {iovs : List (List Byte)}

/-- `ParseFromStream` returns a null message where a compressed body comes in that is not
complete. -/
def RefusesDamage (settings : Settings) (zlib : Zlib State) (start : State) (fresh : Nat → Byte)
    (socket : Socket) : Prop :=
  ∀ capacity contents, Receives settings socket capacity contents → Compressed socket →
    ¬ Zlib.Complete zlib.inflate start contents →
      ∃ later, ∀ᶠ rounds in atTop,
        messageFromStream settings zlib start fresh rounds socket = some (.ok none later)

/-- A compressed body is parsed as far as it goes. -/
theorem messageFromStream_compressed (lawful : Zlib.Lawful zlib.inflate meaning)
    (receives : Receives settings socket capacity contents) (compressed : Compressed socket)
    (small : contents.length < 2 ^ 32) :
    ∃ ba later, ByteArray.At .big Message.defaultNodeSize
        (capacityFor Message.defaultNodeSize (meaning start contents).length) []
        (meaning start contents) ba ∧
      ∀ᶠ rounds in atTop, messageFromStream settings zlib start fresh rounds socket =
        match parseBody ByteArray.readers ba with
        | .error fault _ => some (.error fault later)
        | .ok msg _ => some (.ok msg later) := by
  obtain ⟨ba, later, cut, done⟩ := bodyFromStream_compressed lawful start fresh receives compressed
    small
  refine ⟨ba, later, cut, ?_⟩
  filter_upwards [done] with rounds done
  cases parsed : parseBody ByteArray.readers ba with
  | error fault after => simp only [messageFromStream, done, parsed]
  | ok msg after => simp only [messageFromStream, done, parsed]

/-- Null is returned exactly if what there is does not begin like a message. -/
theorem messageFromStream_null_iff (lawful : Zlib.Lawful zlib.inflate meaning)
    (receives : Receives settings socket capacity contents) (compressed : Compressed socket) :
    (∃ later, ∀ᶠ rounds in atTop,
        messageFromStream settings zlib start fresh rounds socket = some (.ok none later)) ↔
      contents.length ≤ settings.maxBodyLength.toNat ∧
        ∃ type rest, RunsOnce zlib.inflate start contents (type :: rest) ∧
          Message.make type = none := by
  have limit := settings.maxBodyLength.isLt
  by_cases huge : 2 ^ 64 ≤ contents.length
  · apply iff_of_false
    · rintro ⟨later, returned⟩
      obtain ⟨rounds, one, two⟩ := (returned.and (bodyFromStream_overflows lawful start fresh
        receives compressed huge)).exists
      rw [messageFromStream, two] at one
      cases one
    · rintro ⟨within, -⟩
      omega
  · have within := receives.within_iff.mpr (Nat.lt_of_not_le huge)
    obtain ⟨ba, later, cut, done⟩ := @messageFromStream_compressed _ _ _ _ start fresh _ _ _ lawful
      receives compressed (by omega)
    have once := lawful.runsOnce start contents
    rw [and_iff_right within]
    constructor
    · rintro ⟨last, returned⟩
      have null := eventually_unique returned done
      have parsed : ∃ after, parseBody ByteArray.readers ba = .ok none after := by
        split at null
        · cases null
        case h_2 after parsed =>
          cases null
          exact ⟨after, parsed⟩
      obtain ⟨type, rest, begins, unknown⟩ := (parseBody_null_iff cut).mp parsed
      exact ⟨type, rest, begins ▸ once, unknown⟩
    · rintro ⟨type, rest, put, unknown⟩
      obtain ⟨after, parsed⟩ := (parseBody_null_iff cut).mpr ⟨type, rest, once.unique put, unknown⟩
      rw [parsed] at done
      exact ⟨later, done⟩

theorem refusesDamage_iff (lawful : Zlib.Lawful zlib.inflate meaning) :
    RefusesDamage settings zlib start fresh socket ↔
      ∀ capacity contents, Receives settings socket capacity contents → Compressed socket →
        ¬ Zlib.Complete zlib.inflate start contents →
          contents.length ≤ settings.maxBodyLength.toNat ∧
            ∃ type rest, RunsOnce zlib.inflate start contents (type :: rest) ∧
              Message.make type = none := by
  constructor
  all_goals intro refuses capacity contents receives compressed damaged
  · exact (messageFromStream_null_iff lawful receives compressed).mp
      (refuses capacity contents receives compressed damaged)
  · exact (messageFromStream_null_iff lawful receives compressed).mpr
      (refuses capacity contents receives compressed damaged)

/-- A stream rejects nothing, so that it keeps what it promises on complete streams only; a
frame with a damaged body is refused exactly if what there is of it begins with an unknown
type. -/
theorem damage_iff (lawful : Zlib.Lawful zlib.inflate meaning) (positive : 0 < size) :
    (ZlibStream.RejectsDamage zlib size start iovs ↔
      Zlib.Complete zlib.inflate start iovs.flatten ∧ iovs.length < 2 ^ 31) ∧
    (RefusesDamage settings zlib start fresh socket ↔
      ∀ capacity contents, Receives settings socket capacity contents → Compressed socket →
        ¬ Zlib.Complete zlib.inflate start contents →
          contents.length ≤ settings.maxBodyLength.toNat ∧
            ∃ type rest, RunsOnce zlib.inflate start contents (type :: rest) ∧
              Message.make type = none) :=
  ⟨ZlibStream.rejectsDamage_iff lawful positive, refusesDamage_iff lawful⟩

end Frames

section Notification

variable {stream output bytes : List Byte} {enough : Nat}

/-- A whole stream is complete. -/
theorem recorded_complete :
    Zlib.Complete (recorded stream enough output).inflate ([], 0) stream := by
  filter_upwards [eventually_ge_atTop output.length] with room wide
  have all : recordedOutput stream enough output stream = output := recordedOutput_self
  simp [recorded, gradual, recordedReport, all, wide]

/-- Less than the whole stream is not. -/
theorem recorded_incomplete (short : bytes.length < stream.length) :
    ¬ Zlib.Complete (recorded stream enough output).inflate ([], 0) bytes := by
  intro complete
  obtain ⟨room, report⟩ := complete.exists
  have part : ¬ stream <+: bytes := fun whole => Nat.not_lt.mpr whole.length_le short
  simp [recorded, gradual, recordedReport, part] at report

/-- The compressed notification, in two pieces and in a frame. -/
theorem damage_iff_notify :
    ZlibStream.RejectsDamage (recorded notifyStream 25 notifyBody) 4 ([], 0)
        [notifyStream.take 20, notifyStream.drop 20] ∧
      RefusesDamage .default (recorded notifyStream 25 notifyBody) ([], 0) (fun _ => 0)
        ⟨true, frame 1 notifyStream, [], fun _ => 100⟩ := by
  have settled := @damage_iff _ .default _ _ ([], 0) (fun _ => 0)
    ⟨true, frame 1 notifyStream, [], fun _ => 100⟩ 4
    [notifyStream.take 20, notifyStream.drop 20] (@recorded_lawful notifyStream notifyBody 25)
    (by decide)
  refine ⟨settled.1.mpr ⟨?_, by decide⟩, settled.2.mpr ?_⟩
  · exact recorded_complete
  · intro capacity contents receives _ damaged
    obtain ⟨-, alone⟩ := @receives_alone Settings.default Message.defaultNodeSize 1 notifyStream
      ⟨true, frame 1 notifyStream, [], fun _ => 100⟩ (by decide) (by decide) (by decide) rfl rfl
    obtain rfl := receives.unique alone
    exact absurd recorded_complete damaged

/-- The compressed notification without its last eight bytes, which are its checksum and its
length: both calls return `Z_OK`, and the message is taken for good. -/
theorem damage_passed :
    (∃ meaning, Zlib.Lawful (recorded notifyStream 25 notifyBody).inflate meaning) ∧
      ¬ Zlib.Complete (recorded notifyStream 25 notifyBody).inflate ([], 0)
        (notifyStream.take 25) ∧
      ¬ ZlibStream.RejectsDamage (recorded notifyStream 25 notifyBody) 4096 ([], 0)
        [notifyStream.take 25] ∧
      ∃ later, ∀ᶠ rounds in atTop,
        messageFromStream .default (recorded notifyStream 25 notifyBody) ([], 0) (fun _ => 0) rounds
          ⟨true, frame 1 (notifyStream.take 25), [], fun _ => 100⟩ =
            some (.ok (some (.notify { notify := 5, data := [7] })) later) := by
  have lawful := @recorded_lawful notifyStream notifyBody 25
  have damaged : ¬ Zlib.Complete (recorded notifyStream 25 notifyBody).inflate ([], 0)
      (notifyStream.take 25) := recorded_incomplete (by decide)
  refine ⟨⟨_, lawful⟩, damaged, fun rejects => ?_, ?_⟩
  · exact damaged ((ZlibStream.rejectsDamage_iff lawful (by decide)).mp rejects).1
  · obtain ⟨flagged, receives⟩ := @receives_alone Settings.default Message.defaultNodeSize 1
      (notifyStream.take 25) ⟨true, frame 1 (notifyStream.take 25), [], fun _ => 100⟩ (by decide)
      (by decide) (by decide) rfl rfl
    have compressed : Compressed ⟨true, frame 1 (notifyStream.take 25), [], fun _ => 100⟩ := by
      rw [Compressed, flagged]
      decide
    obtain ⟨ba, later, cut, done⟩ := @messageFromStream_compressed _ _ _ _ ([], 0) (fun _ => 0)
      _ _ _ lawful receives compressed (by decide)
    have all : recordedOutput notifyStream 25 notifyBody (notifyStream.take 25) = notifyBody :=
      if_pos List.prefix_rfl
    simp only [List.nil_append, List.drop_zero, all] at cut
    have parsed : RockMessageDecoder.parseBody Cursor.readers
        ⟨.big, capacityFor Message.defaultNodeSize notifyBody.length, [], notifyBody⟩ =
          .ok (some (.notify { notify := 5, data := [7] }))
            ⟨.big, capacityFor Message.defaultNodeSize notifyBody.length, notifyBody, []⟩ := rfl
    obtain ⟨last, parsed, -⟩ := (parseBody_simulates ByteArray.readers_simulate).ok
      ⟨Message.defaultNodeSize, cut⟩ parsed
    rw [parsed] at done
    exact ⟨later, done⟩

end Notification

end RockMessageDecoder

end Xten
