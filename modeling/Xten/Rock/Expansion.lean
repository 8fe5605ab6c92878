import Xten.Rock.Inflating

/-!
# The limit after decompression

The length of a body is compared with the limit before the body is decompressed. What it is
decompressed to is of any size, and so are the buffers that are allocated for it.
-/

namespace Xten.RockMessageDecoder

open Std.StreamCodec Filter

section Limit

variable {State : Type} {settings : Settings} {zlib : Zlib State} {start : State}
  {fresh : Nat → Byte} {socket : Socket}

/-- `ParseFromStream` comes to its parse, or to a null message, and the array that it parses
and the buffers of its `ZlibStream` are within the limit. -/
def Bounded (settings : Settings) (zlib : Zlib State) (start : State) (fresh : Nat → Byte)
    (socket : Socket) : Prop :=
  ∃ body later, (∀ᶠ rounds in atTop,
      bodyFromStream settings zlib start fresh rounds socket = some (.ok body later)) ∧
    ∀ parsed ∈ body, parsed.ba.size ≤ settings.maxBodyLength.toNat ∧
      parsed.allocated ≤ settings.maxBodyLength.toNat

/-- What is parsed in the end decides. -/
theorem bounded_parsed_iff {parsed : Body} {later : Socket}
    (done : ∀ᶠ rounds in atTop,
      bodyFromStream settings zlib start fresh rounds socket = some (.ok (some parsed) later)) :
    Bounded settings zlib start fresh socket ↔
      parsed.ba.size ≤ settings.maxBodyLength.toNat ∧
        parsed.allocated ≤ settings.maxBodyLength.toNat := by
  constructor
  · rintro ⟨body, later, again, within⟩
    cases eventually_unique done again
    exact within parsed rfl
  · intro within
    refine ⟨_, later, done, ?_⟩
    rintro _ ⟨⟩
    exact within

theorem bounded_refuses (nothing : ∀ capacity contents, ¬ Receives settings socket capacity contents) :
    Bounded settings zlib start fresh socket := by
  obtain ⟨later, refused⟩ := bodyFromStream_refuses settings zlib start fresh nothing
  refine ⟨none, later, .of_forall refused, ?_⟩
  rintro parsed ⟨⟩

theorem not_bounded (overflows : ∀ᶠ rounds in atTop,
    bodyFromStream settings zlib start fresh rounds socket = none) :
    ¬ Bounded settings zlib start fresh socket := by
  rintro ⟨body, later, done, -⟩
  cases eventually_unique done overflows

variable {meaning : State → List Byte → List Byte} {capacity : Nat} {contents : List Byte}

/-- A body that comes in: the limit holds for what was received, and for the buffers. -/
theorem bounded_receives_iff (lawful : Zlib.Lawful zlib.inflate meaning)
    (receives : Receives settings socket capacity contents) :
    Bounded settings zlib start fresh socket ↔
      contents.length ≤ settings.maxBodyLength.toNat ∧
        (Compressed socket → iovSize * ((meaning start contents).length / iovSize + 1) ≤
          settings.maxBodyLength.toNat) := by
  by_cases compressed : Compressed socket
  · rw [receives.within_iff, forall_prop_of_true compressed]
    have limit := settings.maxBodyLength.isLt
    by_cases huge : 2 ^ 64 ≤ contents.length
    · have fails := not_bounded (bodyFromStream_overflows lawful start fresh receives compressed huge)
      exact iff_of_false fails fun both => absurd both.1 (Nat.not_lt.mpr huge)
    · have within := receives.within_iff.mpr (Nat.lt_of_not_le huge)
      obtain ⟨ba, later, cut, done⟩ := bodyFromStream_compressed lawful start fresh receives
        compressed (by omega)
      have size : ba.size = (meaning start contents).length := cut.size_eq
      have room := Nat.lt_mul_div_succ (meaning start contents).length (by decide : 0 < iovSize)
      rw [bounded_parsed_iff done, size]
      constructor
      · rintro ⟨-, buffers⟩
        exact ⟨Nat.lt_of_not_le huge, buffers⟩
      · rintro ⟨-, buffers⟩
        exact ⟨room.le.trans buffers, buffers⟩
  · obtain ⟨ba, later, cut, done⟩ := bodyFromStream_plain zlib start fresh receives compressed
    have size : ba.size = contents.length := cut.size_eq
    rw [bounded_parsed_iff (.of_forall done), size]
    constructor
    · rintro ⟨within, -⟩
      exact ⟨within, fun is => absurd is compressed⟩
    · rintro ⟨within, -⟩
      exact ⟨within, Nat.zero_le _⟩

/-- The limit holds exactly where no body comes in, or where the bytes received are within it
and, if they are compressed, so are the buffers that take what they are decompressed to. -/
theorem bounded_iff (lawful : Zlib.Lawful zlib.inflate meaning) :
    Bounded settings zlib start fresh socket ↔
      ∀ capacity contents, Receives settings socket capacity contents →
        contents.length ≤ settings.maxBodyLength.toNat ∧
          (Compressed socket → ∀ output, RunsOnce zlib.inflate start contents output →
            iovSize * (output.length / iovSize + 1) ≤ settings.maxBodyLength.toNat) := by
  by_cases some : ∃ capacity contents, Receives settings socket capacity contents
  · obtain ⟨capacity, contents, receives⟩ := some
    have once := lawful.runsOnce start contents
    rw [bounded_receives_iff lawful receives]
    constructor
    · rintro ⟨within, buffers⟩ capacity' contents' again
      obtain rfl := receives.unique again
      refine ⟨within, fun compressed output put => ?_⟩
      rw [put.unique once]
      exact buffers compressed
    · intro bounds
      obtain ⟨within, buffers⟩ := bounds capacity contents receives
      exact ⟨within, fun compressed => buffers compressed _ once⟩
  · refine iff_of_true (bounded_refuses ?_) fun capacity contents receives => ?_
    · exact fun capacity contents receives => some ⟨capacity, contents, receives⟩
    · exact absurd ⟨capacity, contents, receives⟩ some

end Limit

section Frames

/-- The compressed notification is ten bytes long in the end, in one buffer. -/
theorem bounded_iff_notify :
    Bounded .default (recorded notifyStream 25 notifyBody) ([], 0) (fun _ => 0)
      ⟨true, frame 1 notifyStream, [], fun _ => 100⟩ := by
  have lawful := @recorded_lawful notifyStream notifyBody 25
  apply (bounded_iff lawful).mpr
  intro capacity contents receives
  obtain ⟨-, alone⟩ := @receives_alone Settings.default Message.defaultNodeSize 1 notifyStream
    ⟨true, frame 1 notifyStream, [], fun _ => 100⟩ (by decide) (by decide) (by decide) rfl rfl
  obtain rfl := receives.unique alone
  refine ⟨by decide, fun _ output once => ?_⟩
  rw [once.unique (lawful.runsOnce ([], 0) notifyStream), List.nil_append, List.drop_zero,
    recordedOutput_self]
  decide

/-- Settings with a limit of 64 bytes. -/
def sixtyFourBytes : Settings :=
  { Settings.default with maxBodyLength := 64 }

/-- A notification of 300 equal bytes. -/
def evenBody : List Byte :=
  [3, 0, 0, 0, 5, 0, 0, 1, 44] ++ List.replicate 300 7

theorem length_evenBody : evenBody.length = 309 := by
  rw [evenBody, List.length_append, List.length_replicate]
  rfl

/-- The notification compressed. -/
def evenStream : List Byte :=
  [31, 139, 8, 0, 0, 0, 0, 0, 0, 3, 99, 102, 96, 96, 96, 101, 96, 96, 212, 97, 31, 5, 68, 3, 0,
    154, 216, 103, 10, 53, 1, 0, 0]

/-- A body of 33 bytes passes a limit of 64, and 309 bytes are parsed. -/
theorem bounded_passed :
    (∃ meaning, Zlib.Lawful (recorded evenStream 33 evenBody).inflate meaning) ∧
      (∃ body later, (∀ᶠ rounds in atTop,
          bodyFromStream sixtyFourBytes (recorded evenStream 33 evenBody) ([], 0) (fun _ => 0) rounds
            ⟨true, frame 1 evenStream, [], fun _ => 100⟩ = some (.ok (some body) later)) ∧
        body.ba.size = 309 ∧ body.allocated = 4096) ∧
      ¬ Bounded sixtyFourBytes (recorded evenStream 33 evenBody) ([], 0) (fun _ => 0)
        ⟨true, frame 1 evenStream, [], fun _ => 100⟩ := by
  have lawful := @recorded_lawful evenStream evenBody 33
  obtain ⟨flagged, receives⟩ := @receives_alone sixtyFourBytes Message.defaultNodeSize 1 evenStream
    ⟨true, frame 1 evenStream, [], fun _ => 100⟩ (by decide) (by decide) (by decide) rfl rfl
  have compressed : Compressed ⟨true, frame 1 evenStream, [], fun _ => 100⟩ := by
    rw [Compressed, flagged]
    decide
  obtain ⟨ba, later, cut, done⟩ := bodyFromStream_compressed lawful ([], 0) (fun _ => 0) receives
    compressed (by decide)
  simp only [List.nil_append, List.drop_zero, recordedOutput_self, length_evenBody] at cut done
  have size : ba.size = 309 := cut.size_eq.trans length_evenBody
  refine ⟨⟨_, lawful⟩, ⟨_, later, done, size, rfl⟩, fun bounded => ?_⟩
  have within := ((bounded_parsed_iff done).mp bounded).1
  rw [size] at within
  exact absurd within (by decide)

end Frames

end Xten.RockMessageDecoder
