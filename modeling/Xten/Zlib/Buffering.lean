import Xten.Zlib.ZlibStream

/-!
# Output without regard to buffers

What comes out of a `ZlibStream` is what its codec makes of the whole input, wherever the
input is cut and whatever the size of the buffers, as long as the length of each iovec fits
the 32 bits of `avail_in` and the index of the iovecs its `int`.
-/

namespace Xten.ZlibStream

open Std.StreamCodec Filter

section Buffers

variable {State : Type} {size : Nat} {buffers : List (List Byte)} {stream : ZlibStream State}

/-- The buffers before the last are full. -/
structure Packed (size : Nat) (buffers : List (List Byte)) : Prop where
  full : ∀ used ∈ buffers.dropLast, used.length = size
  last : ∀ used ∈ buffers.getLast?, used.length ≤ size

/-- There is a last buffer, and it has room. -/
def Roomy (size : Nat) (buffers : List (List Byte)) : Prop :=
  ∃ full last, buffers = full ++ [last] ∧ (∀ used ∈ full, used.length = size) ∧
    last.length < size

theorem Packed.nil : Packed size [] where
  full := fun _ member => absurd member List.not_mem_nil
  last := fun _ none => by cases none

theorem Packed.concat {full : List (List Byte)} {last : List Byte}
    (filled : ∀ used ∈ full, used.length = size) (fits : last.length ≤ size) :
    Packed size (full ++ [last]) where
  full := by rwa [List.dropLast_concat]
  last := by
    rw [List.getLast?_concat]
    rintro used ⟨⟩
    exact fits

theorem Roomy.packed (roomy : Roomy size buffers) : Packed size buffers := by
  obtain ⟨full, last, rfl, filled, room⟩ := roomy
  exact .concat filled room.le

theorem length_flatten_full {full : List (List Byte)}
    (filled : ∀ used ∈ full, used.length = size) : full.flatten.length = full.length * size := by
  induction full with
  | nil => simp
  | cons used full ih =>
      obtain ⟨first, others⟩ := List.forall_mem_cons.mp filled
      rw [List.flatten_cons, List.length_append, first, ih others, List.length_cons, Nat.succ_mul]
      exact Nat.add_comm _ _

/-- The output decides how many buffers there are. -/
theorem Roomy.length (roomy : Roomy size buffers) :
    buffers.length = buffers.flatten.length / size + 1 := by
  obtain ⟨full, last, rfl, filled, room⟩ := roomy
  have length : (full ++ [last]).flatten.length = size * full.length + last.length := by
    rw [List.flatten_append, List.flatten_singleton, List.length_append,
      length_flatten_full filled, Nat.mul_comm]
  rw [length, Nat.mul_add_div (Nat.zero_lt_of_lt room), Nat.div_eq_of_lt room, List.length_append]
  rfl

/-- The buffer for the next output has room, behind buffers that are full. -/
theorem out_spec (packed : Packed stream.iovSize stream.outBuffer)
    (positive : 0 < stream.iovSize) :
    (∀ used ∈ stream.out.1, used.length = stream.iovSize) ∧
      stream.out.2.length < stream.iovSize ∧
      stream.out.1.flatten ++ stream.out.2 = stream.getResult := by
  obtain ⟨full, last⟩ := packed
  rw [out, getResult]
  rcases List.eq_nil_or_concat' stream.outBuffer with empty | ⟨front, used, whole⟩
  · rw [empty]
    exact ⟨fun _ member => absurd member List.not_mem_nil, positive, rfl⟩
  · rw [whole, List.getLast?_concat] at last
    rw [whole, List.dropLast_concat] at full
    have fits := last used rfl
    rw [whole, List.getLast?_concat]
    simp only
    split_ifs with room
    · rw [List.dropLast_concat]
      exact ⟨full, room, by simp⟩
    · refine ⟨?_, positive, by simp⟩
      intro other member
      rcases List.mem_append.mp member with member | member
      · exact full other member
      · rw [List.mem_singleton.mp member]
        omega

end Buffers

section Loop

variable {State : Type} {call : Call State Byte Byte ZlibReturn}
  {meaning : State → List Byte → List Byte} {stream : ZlibStream State} {state : State}

/-- A stream after a call of zlib with its next buffer. -/
def taking (stream : ZlibStream State) (answer : Answer State Byte Byte ZlibReturn) :
    ZlibStream State :=
  { stream with
    zstream := some answer.state
    outBuffer := stream.out.1 ++ [stream.out.2 ++ answer.output] }

/-- Room in the next buffer. -/
def availOut (stream : ZlibStream State) : Nat :=
  stream.iovSize - stream.out.2.length

/-- One round of the loop. -/
theorem codeLoop_succ (lawful : Zlib.Lawful call meaning) (live : stream.zstream = some state)
    (flush : Bool) (rounds : Nat) (input : List Byte) :
    codeLoop call flush (rounds + 1) input stream =
      if (call state flush input stream.availOut).output.length < stream.availOut then
        some (.ok, stream.taking (call state flush input stream.availOut))
      else
        codeLoop call flush rounds (call state flush input stream.availOut).rest
          (stream.taking (call state flush input stream.availOut)) := by
  have alive := lawful.alive state flush input stream.availOut
  by_cases room : (call state flush input stream.availOut).output.length < stream.availOut
  all_goals simp only [room, if_true, if_false]
  all_goals simp only [availOut] at alive room ⊢
  all_goals simp only [codeLoop, live, if_neg alive, taking]
  · exact if_neg (by omega)
  · exact if_pos (by omega)

/-- What a call puts out comes behind the result so far. -/
theorem taking_result (packed : Packed stream.iovSize stream.outBuffer)
    (positive : 0 < stream.iovSize) (answer : Answer State Byte Byte ZlibReturn) :
    (stream.taking answer).getResult = stream.getResult ++ answer.output := by
  rw [← (out_spec packed positive).2.2, getResult, taking, List.flatten_append,
    List.flatten_singleton, List.append_assoc]

/-- The `do` loop drains the codec into the buffers, and ends. -/
theorem codeLoop_drains (lawful : Zlib.Lawful call meaning) (positive : 0 < stream.iovSize)
    (packed : Packed stream.iovSize stream.outBuffer) (live : stream.zstream = some state)
    (flush : Bool) (input : List Byte) :
    ∃ output after buffers, Drains call flush state input output after ∧
      (∀ rounds, (meaning state input).length < rounds →
        codeLoop call flush rounds input stream =
          some (.ok, { stream with zstream := some after, outBuffer := buffers })) ∧
      buffers.flatten = stream.getResult ++ output ∧ Roomy stream.iovSize buffers := by
  induction count : (meaning state input).length using Nat.strong_induction_on
    generalizing stream state input with
  | _ count ih =>
    subst count
    obtain ⟨filled, room, -⟩ := out_spec packed positive
    have fits := lawful.fits state flush input stream.availOut
    have some : 0 < stream.availOut := Nat.sub_pos_of_lt room
    have left : stream.availOut = stream.iovSize - stream.out.2.length := rfl
    have round := codeLoop_succ lawful live flush
    have result := taking_result packed positive (call state flush input stream.availOut)
    have length : (stream.out.2 ++ (call state flush input stream.availOut).output).length =
        stream.out.2.length + (call state flush input stream.availOut).output.length :=
      List.length_append
    by_cases leaves : (call state flush input stream.availOut).output.length < stream.availOut
    · refine ⟨_, _, _, .last leaves, ?_, result, _, _, rfl, filled, ?_⟩
      · intro rounds enough
        obtain ⟨rounds, rfl⟩ := Nat.exists_eq_add_of_lt enough
        rw [round, if_pos leaves]
        rfl
      · rw [length]
        omega
    · have full := Nat.le_antisymm fits (Nat.le_of_not_lt leaves)
      have fewer := lawful.decreases some full
      have fits : (stream.out.2 ++ (call state flush input stream.availOut).output).length ≤
          stream.iovSize := by omega
      obtain ⟨output, after, buffers, drains, done, flat, roomy⟩ :=
        @ih _ fewer (stream.taking (call state flush input stream.availOut)) _ positive
          (.concat filled fits) rfl _ rfl
      refine ⟨_, after, buffers, .more full drains, ?_, ?_, roomy⟩
      · intro rounds enough
        obtain ⟨rounds, rfl⟩ := Nat.exists_eq_add_of_lt enough
        rw [round, if_neg leaves, done _ (by omega)]
        rfl
      · rw [flat, result, List.append_assoc]

end Loop

section Calls

variable {State : Type} {call : Call State Byte Byte ZlibReturn}
  {meaning : State → List Byte → List Byte} {start : State} {written : List Byte}
  {isEncode : Bool} {iovSize : Nat} {stream : ZlibStream State}

/-- A stream to which some input has been written: what has come out, and what is still to
come whatever follows, is what the codec makes of the whole. -/
structure Carries (meaning : State → List Byte → List Byte) (start : State) (isEncode : Bool)
    (iovSize : Nat) (written : List Byte) (stream : ZlibStream State) : Prop where
  kind : stream.isEncode = isEncode
  size : stream.iovSize = iovSize
  positive : 0 < iovSize
  packed : Packed iovSize stream.outBuffer
  live : ∃ state, stream.zstream = some state ∧
    ∀ more, meaning start (written ++ more) = stream.getResult ++ meaning state more

theorem Carries.create (positive : 0 < iovSize) :
    Carries meaning start isEncode iovSize [] (create isEncode iovSize start) where
  kind := rfl
  size := rfl
  positive := positive
  packed := .nil
  live := ⟨start, rfl, fun _ => rfl⟩

/-- One iovec, as long as the input goes on. -/
theorem Carries.codeLoop (lawful : Zlib.Lawful call meaning)
    (carries : Carries meaning start isEncode iovSize written stream) (input : List Byte) :
    ∃ later, (∀ᶠ rounds in atTop,
        ZlibStream.codeLoop call false rounds input stream = some (.ok, later)) ∧
      Carries meaning start isEncode iovSize (written ++ input) later := by
  obtain ⟨kind, rfl, positive, packed, state, live, whole⟩ := carries
  obtain ⟨output, after, buffers, drains, done, flat, roomy⟩ :=
    codeLoop_drains lawful positive packed live false input
  refine ⟨_, (eventually_gt_atTop _).mono done, kind, rfl, positive, roomy.packed, after, rfl, ?_⟩
  intro more
  rw [List.append_assoc, whole, drains.goesOn lawful.toObeys more, ← List.append_assoc, ← flat]
  rfl

/-- The iovecs of a call that does not finish. -/
theorem Carries.codeFrom (lawful : Zlib.Lawful call meaning)
    (carries : Carries meaning start isEncode iovSize written stream) {i : Nat}
    {iovs : List (List Byte)} (few : i + iovs.length < 2 ^ 31) :
    ∃ later, (∀ᶠ rounds in atTop,
        ZlibStream.codeFrom call false rounds i iovs stream = some (.ok, later)) ∧
      Carries meaning start isEncode iovSize (written ++ iovs.flatMap availIn) later := by
  induction iovs generalizing i written stream with
  | nil => exact ⟨stream, .of_forall fun _ => rfl, by rwa [List.flatMap_nil, List.append_nil]⟩
  | cons iov iovs ih =>
      rw [List.length_cons] at few
      obtain ⟨middle, first, carries⟩ := carries.codeLoop lawful (availIn iov)
      obtain ⟨later, others, carries⟩ := @ih _ _ carries (i + 1) (by omega)
      refine ⟨later, ?_, ?_⟩
      · filter_upwards [first, others] with rounds one rest
        simp only [ZlibStream.codeFrom, Bool.false_and, one]
        rw [if_neg ZlibReturn.noConfusion, if_neg (by omega), rest]
      · rwa [List.flatMap_cons, ← List.append_assoc]

/-- The index overflows where there are too many iovecs. -/
theorem Carries.codeFrom_overflows (lawful : Zlib.Lawful call meaning)
    (carries : Carries meaning start isEncode iovSize written stream) {i : Nat}
    {iovs : List (List Byte)} (low : i < 2 ^ 31) (many : 2 ^ 31 ≤ i + iovs.length) :
    ∀ᶠ rounds in atTop, ZlibStream.codeFrom call false rounds i iovs stream = none := by
  induction iovs generalizing i written stream with
  | nil => exact absurd low (Nat.not_lt.mpr many)
  | cons iov iovs ih =>
      rw [List.length_cons] at many
      obtain ⟨middle, first, carries⟩ := carries.codeLoop lawful (availIn iov)
      by_cases last : i + 1 = 2 ^ 31
      · filter_upwards [first] with rounds one
        simp only [ZlibStream.codeFrom, Bool.false_and, one]
        rw [if_neg ZlibReturn.noConfusion, if_pos last]
      · filter_upwards [first, @ih _ _ carries (i + 1) (by omega) (by omega)] with rounds one rest
        simp only [ZlibStream.codeFrom, Bool.false_and, one]
        rw [if_neg ZlibReturn.noConfusion, if_neg last, rest]

theorem code_continues (iovs : List (List Byte)) (rounds : Nat) :
    code call iovs false rounds stream = ZlibStream.codeFrom call false rounds 0 iovs stream := by
  rw [code]
  cases ZlibStream.codeFrom call false rounds 0 iovs stream <;> simp

/-- A call of `Write`. -/
theorem Carries.writeIovs {zlib : Zlib State} (lawful : Zlib.Lawful (codec zlib isEncode) meaning)
    (carries : Carries meaning start isEncode iovSize written stream) {iovs : List (List Byte)}
    (few : iovs.length < 2 ^ 31) :
    ∃ later, (∀ᶠ rounds in atTop,
        ZlibStream.writeIovs zlib iovs rounds stream = some (.ok, later)) ∧
      Carries meaning start isEncode iovSize (written ++ iovs.flatMap availIn) later := by
  simp only [writeIovs_eq, carries.kind, code_continues]
  exact carries.codeFrom lawful (by omega)

theorem Carries.writeIovs_overflows {zlib : Zlib State}
    (lawful : Zlib.Lawful (codec zlib isEncode) meaning)
    (carries : Carries meaning start isEncode iovSize written stream) {iovs : List (List Byte)}
    (many : 2 ^ 31 ≤ iovs.length) :
    ∀ᶠ rounds in atTop, ZlibStream.writeIovs zlib iovs rounds stream = none := by
  simp only [writeIovs_eq, carries.kind, code_continues]
  exact carries.codeFrom_overflows lawful (by decide) (by omega)

/-- `Flush`: all that there is has come out. -/
theorem Carries.flush {zlib : Zlib State} (lawful : Zlib.Lawful (codec zlib isEncode) meaning)
    (carries : Carries meaning start isEncode iovSize written stream) :
    ∃ later, (∀ᶠ rounds in atTop, ZlibStream.flush zlib rounds stream = some (.ok, later)) ∧
      later.getResult = meaning start written ∧ later.iovSize = iovSize ∧
      Roomy iovSize later.outBuffer := by
  obtain ⟨rfl, rfl, positive, packed, state, live, whole⟩ := carries
  obtain ⟨output, after, buffers, drains, done, flat, roomy⟩ :=
    codeLoop_drains lawful positive packed live true []
  refine ⟨{ stream with zstream := none, outBuffer := buffers }, ?_, ?_, rfl, roomy⟩
  · filter_upwards [eventually_gt_atTop (meaning state []).length] with rounds enough
    rw [flush_eq]
    simp [code, ZlibStream.codeFrom, availIn, done rounds enough]
  · have all := whole []
    rw [List.append_nil, drains.finishes lawful.toObeys, ← flat] at all
    exact all.symm

end Calls

section Sessions

variable {State : Type}

/-- Calls of `Write`, whatever they return, each with some iovecs. -/
def writes (zlib : Zlib State) (rounds : Nat) :
    List (List (List Byte)) → ZlibStream State → Option (ZlibStream State)
  | [], stream => some stream
  | iovs :: splits, stream =>
      match writeIovs zlib iovs rounds stream with
      | none => none
      | some (_, stream) => writes zlib rounds splits stream

/-- Calls of `Write` and one of `Flush`. -/
def session (zlib : Zlib State) (rounds : Nat) (splits : List (List (List Byte)))
    (stream : ZlibStream State) : Option (ZlibStream State) :=
  match writes zlib rounds splits stream with
  | none => none
  | some stream => (flush zlib rounds stream).map Prod.snd

/-- The result of a session is what the codec puts out in one call on all of the input, with
no end of room. -/
def Unbuffered (zlib : Zlib State) (isEncode : Bool) (iovSize : Nat) (start : State)
    (splits : List (List (List Byte))) : Prop :=
  ∃ output stream, RunsOnce (codec zlib isEncode) start splits.flatten.flatten output ∧
    (∀ᶠ rounds in atTop,
      session zlib rounds splits (create isEncode iovSize start) = some stream) ∧
    stream.getResult = output ∧
    ∀ nodeSize fresh, 0 < nodeSize → ∃ capacity ba,
      stream.getByteArray nodeSize fresh = .ok () ba ∧ ba.Shows ⟨.big, capacity, [], output⟩

/-- Each iovec has a length of 32 bits, and the iovecs of each call can be counted in an
`int`. -/
def Fits (splits : List (List (List Byte))) : Prop :=
  ∀ iovs ∈ splits, iovs.length < 2 ^ 31 ∧ ∀ iov ∈ iovs, iov.length < 2 ^ 32

variable {zlib : Zlib State} {meaning : State → List Byte → List Byte} {start : State}
  {written : List Byte} {isEncode : Bool} {iovSize : Nat} {stream : ZlibStream State}
  {splits : List (List (List Byte))}

theorem Carries.writes (lawful : Zlib.Lawful (codec zlib isEncode) meaning)
    (carries : Carries meaning start isEncode iovSize written stream)
    (few : ∀ iovs ∈ splits, iovs.length < 2 ^ 31) :
    ∃ later, (∀ᶠ rounds in atTop, ZlibStream.writes zlib rounds splits stream = some later) ∧
      Carries meaning start isEncode iovSize (written ++ splits.flatten.flatMap availIn) later := by
  induction splits generalizing written stream with
  | nil => exact ⟨stream, .of_forall fun _ => rfl, by simpa using carries⟩
  | cons iovs splits ih =>
      obtain ⟨head, tail⟩ := List.forall_mem_cons.mp few
      obtain ⟨middle, first, carries⟩ := carries.writeIovs lawful head
      obtain ⟨later, others, carries⟩ := ih carries tail
      refine ⟨later, ?_, ?_⟩
      · filter_upwards [first, others] with rounds one rest
        simp only [ZlibStream.writes, one, rest]
      · rwa [List.flatten_cons, List.flatMap_append, ← List.append_assoc]

theorem Carries.writes_overflow (lawful : Zlib.Lawful (codec zlib isEncode) meaning)
    (carries : Carries meaning start isEncode iovSize written stream)
    (many : ∃ iovs ∈ splits, 2 ^ 31 ≤ iovs.length) :
    ∀ᶠ rounds in atTop, ZlibStream.writes zlib rounds splits stream = none := by
  induction splits generalizing written stream with
  | nil => simp at many
  | cons iovs splits ih =>
      by_cases first : iovs.length < 2 ^ 31
      · obtain ⟨middle, one, carries⟩ := carries.writeIovs lawful first
        have later : ∃ iovs ∈ splits, 2 ^ 31 ≤ iovs.length := by
          obtain ⟨other, member, long⟩ := many
          rcases List.mem_cons.mp member with rfl | member
          · exact absurd first (Nat.not_lt.mpr long)
          · exact ⟨other, member, long⟩
        filter_upwards [one, ih carries later] with rounds one rest
        simp only [ZlibStream.writes, one, rest]
      · filter_upwards [carries.writeIovs_overflows lawful (Nat.le_of_not_lt first)] with rounds none
        simp only [ZlibStream.writes, none]

/-- A session puts out what the codec makes of the input that reaches it. -/
theorem session_result (lawful : Zlib.Lawful (codec zlib isEncode) meaning)
    (positive : 0 < iovSize) (start : State) (few : ∀ iovs ∈ splits, iovs.length < 2 ^ 31) :
    ∃ stream, (∀ᶠ rounds in atTop,
        session zlib rounds splits (create isEncode iovSize start) = some stream) ∧
      stream.getResult = meaning start (splits.flatten.flatMap availIn) := by
  obtain ⟨middle, written, carries⟩ := (Carries.create positive).writes lawful few
  obtain ⟨later, flushed, result, -, -⟩ := carries.flush lawful
  refine ⟨later, ?_, result⟩
  filter_upwards [written, flushed] with rounds one two
  simp only [session, one, two]
  rfl

/-- The array has the result, with the cursor in front of it. -/
theorem getByteArray_shows (stream : ZlibStream State) {nodeSize : Nat} (positive : 0 < nodeSize)
    (fresh : Nat → Byte) :
    ∃ ba, stream.getByteArray nodeSize fresh = .ok () ba ∧
      ByteArray.At .big nodeSize (capacityFor nodeSize stream.getResult.length) []
        stream.getResult ba := by
  have writes (buffers : List (List Byte)) :
      ByteArray.Writes (buffers.forM ByteArray.write) () fun _ => buffers.flatten := by
    induction buffers with
    | nil => exact .pure ()
    | cons used buffers ih => exact (ByteArray.Writes.write used).seq ih
  obtain ⟨middle, written, filled⟩ := writes stream.outBuffer (ByteArray.make_filled positive fresh)
  obtain ⟨ba, moved, cut⟩ := ByteArray.At.rewind filled
  rw [List.append_nil] at cut
  exact ⟨ba, (Std.Programs.bind_ok written).trans moved, cut⟩

end Sessions

section Truncation

variable {iovs : List (List Byte)}

theorem length_availIn (iov : List Byte) : (availIn iov).length = iov.length % 2 ^ 32 := by
  rw [availIn, List.length_take, Nat.min_eq_left (Nat.mod_le _ _)]

theorem availIn_of_small {iov : List Byte} (small : iov.length < 2 ^ 32) : availIn iov = iov := by
  rw [availIn, Nat.mod_eq_of_lt small, List.take_length]

theorem flatMap_availIn_of_small (small : ∀ iov ∈ iovs, iov.length < 2 ^ 32) :
    iovs.flatMap availIn = iovs.flatten := by
  induction iovs with
  | nil => rfl
  | cons iov iovs ih =>
      obtain ⟨head, tail⟩ := List.forall_mem_cons.mp small
      rw [List.flatMap_cons, List.flatten_cons, availIn_of_small head, ih tail]

theorem length_flatMap_availIn_le :
    (iovs.flatMap availIn).length ≤ iovs.flatten.length := by
  induction iovs with
  | nil => exact Nat.le_refl 0
  | cons iov iovs ih =>
      have less := Nat.mod_le iov.length (2 ^ 32)
      rw [List.flatMap_cons, List.flatten_cons, List.length_append, List.length_append,
        length_availIn]
      omega

/-- All of the input reaches zlib only if no iovec is cut. -/
theorem small_of_flatMap_availIn (same : iovs.flatMap availIn = iovs.flatten) :
    ∀ iov ∈ iovs, iov.length < 2 ^ 32 := by
  have length := congrArg List.length same
  clear same
  induction iovs with
  | nil => exact fun _ member => absurd member List.not_mem_nil
  | cons iov iovs ih =>
      have less := Nat.mod_le iov.length (2 ^ 32)
      have others := @length_flatMap_availIn_le iovs
      rw [List.flatMap_cons, List.flatten_cons, List.length_append, List.length_append,
        length_availIn] at length
      have bound : iov.length % 2 ^ 32 < 2 ^ 32 := Nat.mod_lt _ (by decide)
      rw [List.forall_mem_cons]
      exact ⟨by omega, ih (by omega)⟩

end Truncation

section Results

variable {isEncode : Bool} {iovSize : Nat} {splits : List (List (List Byte))}

/-- A codec that puts out its input as it is. -/
def copying : Zlib (List Byte × Nat) where
  deflate := gradual id fun _ _ _ => .ok
  inflate := gradual id fun _ _ _ => .ok

theorem copying_lawful (isEncode : Bool) :
    Zlib.Lawful (codec copying isEncode) fun state more => (state.1 ++ more).drop state.2 := by
  have obeys := @gradual_obeys Byte Byte _ id (fun _ _ _ => ZlibReturn.ok) List.prefix_append
  cases isEncode <;> exact ⟨obeys, fun _ _ _ _ => ZlibReturn.noConfusion⟩

theorem unbuffered_of_fits {State : Type} {zlib : Zlib State}
    {meaning : State → List Byte → List Byte}
    (lawful : Zlib.Lawful (codec zlib isEncode) meaning) (positive : 0 < iovSize) (start : State)
    (fits : Fits splits) : Unbuffered zlib isEncode iovSize start splits := by
  obtain ⟨stream, done, result⟩ := session_result lawful positive start fun iovs member =>
    (fits iovs member).1
  have small : ∀ iov ∈ splits.flatten, iov.length < 2 ^ 32 := by
    intro iov member
    obtain ⟨iovs, here, inside⟩ := List.mem_flatten.mp member
    exact (fits iovs here).2 iov inside
  rw [flatMap_availIn_of_small small] at result
  refine ⟨_, stream, lawful.runsOnce start _, done, result, ?_⟩
  intro nodeSize fresh some
  obtain ⟨ba, got, cut⟩ := stream.getByteArray_shows some fresh
  rw [result] at cut
  exact ⟨_, ba, got, nodeSize, cut⟩

/-- Too many iovecs, or one that is too long, show where the input is copied. -/
theorem fits_of_copying (positive : 0 < iovSize)
    (unbuffered : Unbuffered copying isEncode iovSize ([], 0) splits) : Fits splits := by
  obtain ⟨output, stream, once, done, result, -⟩ := unbuffered
  have lawful := copying_lawful isEncode
  have few : ∀ iovs ∈ splits, iovs.length < 2 ^ 31 := by
    by_contra many
    push Not at many
    have none := (@Carries.create _ _ ([], 0) _ _ positive).writes_overflow lawful many
    obtain ⟨rounds, ends, stops⟩ := (done.and none).exists
    rw [session, stops] at ends
    cases ends
  obtain ⟨other, again, copied⟩ := session_result lawful positive ([], 0) few
  obtain rfl := Option.some.inj (eventually_unique done again)
  have whole := (lawful.runsOnce ([], 0) splits.flatten.flatten).unique once
  have small := small_of_flatMap_availIn (copied.symm.trans (result.trans whole.symm))
  exact fun iovs member => ⟨few iovs member, fun iov inside =>
    small iov (List.mem_flatten.mpr ⟨iovs, member, inside⟩)⟩

/-- Buffers of any size make no difference to any codec exactly where the lengths fit. -/
theorem unbuffered_iff (positive : 0 < iovSize) :
    (∀ {State : Type} (zlib : Zlib State) (meaning : State → List Byte → List Byte),
        Zlib.Lawful (codec zlib isEncode) meaning →
          ∀ start, Unbuffered zlib isEncode iovSize start splits) ↔ Fits splits := by
  constructor
  · intro unbuffered
    exact fits_of_copying positive (unbuffered copying _ (copying_lawful isEncode) ([], 0))
  · intro fits State zlib meaning lawful start
    exact unbuffered_of_fits lawful positive start fits

/-- Two writes through buffers of three bytes. -/
theorem unbuffered_iff_three :
    (∀ {State : Type} (zlib : Zlib State) (meaning : State → List Byte → List Byte),
        Zlib.Lawful (codec zlib true) meaning →
          ∀ start, Unbuffered zlib true 3 start [[[1, 2], []], [[3, 4, 5, 6]]]) ↔
      Fits [[[1, 2], []], [[3, 4, 5, 6]]] :=
  unbuffered_iff (by decide)

/-- Nothing is written of an iovec of `2 ^ 32` bytes. -/
theorem not_unbuffered :
    (∃ meaning, Zlib.Lawful (codec copying true) meaning) ∧
      ¬ Unbuffered copying true 4096 ([], 0) [[List.replicate (2 ^ 32) 0]] := by
  refine ⟨⟨_, copying_lawful true⟩, fun unbuffered => ?_⟩
  have fits := fits_of_copying (by decide) unbuffered _ (List.mem_singleton.mpr rfl)
  have small := fits.2 _ (List.mem_singleton.mpr rfl)
  rw [List.length_replicate] at small
  exact absurd small (Nat.lt_irrefl _)

end Results

end Xten.ZlibStream
