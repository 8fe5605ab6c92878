import Xten.WebSocket.Exchange
import Xten.WebSocket.SendQueue

/-!
# Frames on the wire

A frame is written piece by piece, and an answer to a `PING` is written past the send queue. The
bytes on the wire are those of whole frames, one after the other, if no frame is begun while
another one is partly written.
-/

namespace Xten.http.WSSession

open Std.Interleaving
open FiberSemphore (Waiter)

/-- What is left to write of a frame that is begun. -/
def Thread.left : Thread → List (Option (List Byte))
  | .writing _ true buffers | .failing _ true buffers => buffers
  | _ => []

/-- A part of a frame has been written, and not all of it. -/
def Thread.partlyWritten (thread : Thread) : Bool :=
  thread.left.any (· ≠ some [])

/-- A fiber writes the first bytes of a frame while no frame is partly written. -/
def Separate (state : State) (action : Waiter × Action) : Prop :=
  ∀ writer buffers count, state.threads action.1.fiber = .writing writer false buffers →
    action.2 = .go (.moves count) → ∀ fiber, (state.threads fiber).partlyWritten = false

/-- The bytes of the frames that are begun, one after the other. -/
def Shared.frames (shared : Shared) : List Byte :=
  shared.begun.flatMap Begun.bytes

/-- The wire has whole frames one after the other, up to an end of the last one. -/
structure Whole (state : State) (rest : List Byte) : Prop where
  frames : state.shared.wire ++ rest = state.shared.frames
  last : rest <:+ (state.shared.begun.getLast?.map Begun.bytes).getD []
  /-- The end is missing only while it is still to be written, or on a closed connection. -/
  missing : rest ≠ [] → state.shared.connected = true →
    ∃ fiber, (state.threads fiber).partlyWritten = true

section Contents

variable {buffer : Option (List Byte)} {buffers : List (Option (List Byte))} {thread : Thread}

@[simp] theorem content_cons : content (buffer :: buffers) = buffer.getD [] ++ content buffers :=
  List.flatMap_cons

theorem content_map_some (written : List (List Byte)) :
    content (written.map some) = written.flatten := by
  induction written with
  | nil => rfl
  | cons first written ih => rw [List.map_cons, content_cons, ih, List.flatten_cons]; rfl

/-- A data frame of the queue is what a receiver takes for one. -/
theorem Begun.bytes_entry {msg : WSFrameMessage} {fin : Bool} (notClose : msg.opcode ≠ 8)
    (notPing : msg.opcode ≠ 9) (notPong : msg.opcode ≠ 10) (small : msg.data.length < 2 ^ 31) :
    (Begun.entry msg fin).bytes = frameBytes msg.opcode 0 false fin msg.data := by
  have sent : msg.sent = msg.data := if_neg notClose
  have payloadlen : msg.payloadlen = msg.data.length := by
    rw [WSFrameMessage.payloadlen, sent, toInt_length small]
  have buffers : frameBuffers msg fin = (msg.start fin ++ [msg.data]).map some := by
    rw [frameBuffers, if_neg notPing, if_neg notPong, messageBuffers, payloadlen, sent,
      if_neg (Int.not_lt.mpr (Int.natCast_nonneg _)), Int.toNat_natCast, List.take_length,
      List.map_append]
    rfl
  rw [Begun.bytes, Begun.buffers, buffers, content_map_some, List.flatten_append,
    List.flatten_singleton, WSFrameMessage.start, payloadlen, frameBytes, frameStart]
  simp [masked]

/-- Nothing is left of a frame that is not partly written. -/
theorem content_left (whole : thread.partlyWritten = false) : content thread.left = [] := by
  refine List.flatMap_eq_nil_iff.mpr fun buffer member => ?_
  have empty := List.any_eq_false.mp whole buffer member
  rw [decide_eq_true_eq, not_not] at empty
  rw [empty]
  rfl

theorem Writer.left_advance (writer : Writer) (left : List Byte) :
    content (writer.advance left buffers).left = left ++ content buffers := by
  unfold Writer.advance
  split
  case isTrue => exact content_cons
  case isFalse none =>
    rw [not_not.mp none]
    split
    case isTrue => rfl
    case isFalse empty =>
      rw [not_not.mp empty]
      cases writer <;> rfl

end Contents

section Steps

variable {bufferSize : Nat} {state later : State} {fiber : Nat} {shared : Shared} {next : Thread}
  {rest : List Byte}

/-- The invariant: one frame at most is partly written, and its end is what is missing. -/
structure Framed (state : State) (rest : List Byte) : Prop where
  frames : state.shared.wire ++ rest = state.shared.frames
  last : rest <:+ (state.shared.begun.getLast?.map Begun.bytes).getD []
  missing : state.shared.connected = true →
    (∀ fiber, (state.threads fiber).partlyWritten = false) → rest = []
  left : ∀ fiber, (state.threads fiber).partlyWritten = true →
    content (state.threads fiber).left = rest
  one : state.Exclusive fun thread (_ : Unit) => thread.partlyWritten = true
  /-- A frame that is not begun is there as a whole. -/
  unbegun : ∀ fiber writer buffers, state.threads fiber = .writing writer false buffers →
    buffers = writer.frame.buffers

theorem unbegun_put (framed : Framed state rest)
    (whole : ∀ writer buffers, next = .writing writer false buffers →
      buffers = writer.frame.buffers) (other : Nat) (writer : Writer)
    (buffers : List (Option (List Byte)))
    (now : (state.put fiber shared next).threads other = .writing writer false buffers) :
    buffers = writer.frame.buffers := by
  obtain ⟨-, current⟩ | ⟨-, current⟩ := state.put_cases fiber shared next other
  all_goals rw [current] at now
  · exact whole writer buffers now
  · exact framed.unbegun other writer buffers now

/-- Nothing is written. -/
theorem Framed.keep (framed : Framed state rest) (wire : shared.wire = state.shared.wire)
    (begun : shared.begun = state.shared.begun)
    (connected : shared.connected = true → state.shared.connected = true)
    (left : next.left = (state.threads fiber).left)
    (whole : ∀ writer buffers, next = .writing writer false buffers →
      buffers = writer.frame.buffers) : Framed (state.put fiber shared next) rest := by
  have same : ∀ other, ((state.put fiber shared next).threads other).left =
      (state.threads other).left := state.put_view Thread.left left
  have partly : ∀ other, ((state.put fiber shared next).threads other).partlyWritten =
      (state.threads other).partlyWritten :=
    fun other => congrArg (List.any · _) (same other)
  refine ⟨?_, ?_, fun still none => ?_, fun other part => ?_, fun one other key first second => ?_,
    unbegun_put framed whole⟩
  · rw [Config.put_shared, wire, Shared.frames, begun]
    exact framed.frames
  · rw [Config.put_shared, begun]
    exact framed.last
  · exact framed.missing (connected still) fun other => (partly other).symm.trans (none other)
  · rw [same]
    exact framed.left other ((partly other).symm.trans part)
  · exact framed.one one other key ((partly one).symm.trans first)
      ((partly other).symm.trans second)

/-- A fiber without a frame. -/
def Thread.Aside (thread : Thread) : Prop :=
  thread.left = [] ∧ ∀ writer buffers, thread ≠ .writing writer false buffers

theorem acquired_aside (sender : Bool) : (acquired sender).Aside := by
  cases sender <;> exact ⟨rfl, nofun⟩

theorem Writer.failed_aside (writer : Writer) : writer.failed.Aside := by
  cases writer <;> exact ⟨rfl, nofun⟩

/-- A fiber without a frame does something else. -/
theorem Framed.aside (framed : Framed state rest) (wire : shared.wire = state.shared.wire)
    (begun : shared.begun = state.shared.begun)
    (connected : shared.connected = true → state.shared.connected = true)
    (free : (state.threads fiber).left = []) (aside : next.Aside) :
    Framed (state.put fiber shared next) rest :=
  framed.keep wire begun connected (aside.1.trans free.symm) fun writer buffers now =>
    absurd now (aside.2 writer buffers)

/-- A frame is given up on a connection that is closed. -/
theorem Framed.drop (framed : Framed state rest) (wire : shared.wire = state.shared.wire)
    (begun : shared.begun = state.shared.begun) (closed : shared.connected = false)
    (left : next.left = [])
    (whole : ∀ writer buffers, next = .writing writer false buffers →
      buffers = writer.frame.buffers) : Framed (state.put fiber shared next) rest := by
  have gone : next.partlyWritten = false := congrArg (List.any · _) left
  refine ⟨?_, ?_, fun still => ?_, fun other part => ?_,
    framed.one.put fun _ now => absurd (gone.symm.trans now) Bool.false_ne_true,
    unbegun_put framed whole⟩
  · rw [Config.put_shared, wire, Shared.frames, begun]
    exact framed.frames
  · rw [Config.put_shared, begun]
    exact framed.last
  · cases closed.symm.trans still
  · obtain ⟨-, current⟩ | ⟨-, current⟩ := state.put_cases fiber shared next other
    all_goals rw [current] at part ⊢
    · cases gone.symm.trans part
    · exact framed.left other part

/-- Some bytes of the only frame that is not whole are written. -/
theorem Framed.put {after : List Byte} (framed : Framed state rest)
    (others : ∀ other ≠ fiber, (state.threads other).partlyWritten = false)
    (left : content next.left = after) (frames : shared.wire ++ after = shared.frames)
    (last : after <:+ (shared.begun.getLast?.map Begun.bytes).getD [])
    (whole : ∀ writer buffers, next = .writing writer false buffers →
      buffers = writer.frame.buffers) : Framed (state.put fiber shared next) after := by
  refine ⟨frames, last, fun _ none => ?_, fun other part => ?_, ?_, unbegun_put framed whole⟩
  · have mine := none fiber
    rw [Config.put_self] at mine
    exact left.symm.trans (content_left mine)
  · obtain ⟨-, current⟩ | ⟨apart, current⟩ := state.put_cases fiber shared next other
    all_goals rw [current] at part ⊢
    · exact left
    · cases (others other apart).symm.trans part
  · exact framed.one.put fun _ _ other apart part =>
      absurd ((others other apart).symm.trans part) Bool.false_ne_true

theorem Writer.advance_begun (writer : Writer) (left : List Byte)
    (rest : List (Option (List Byte))) (other : Writer) (buffers : List (Option (List Byte))) :
    writer.advance left rest ≠ .writing other false buffers := by
  unfold Writer.advance
  split
  · nofun
  · split
    · nofun
    · cases writer <;> nofun

/-- The first bytes of a frame are written while no frame is partly written. -/
theorem Framed.first {writer : Writer} {buffer : List Byte} {buffers : List (Option (List Byte))}
    {count : Nat} (framed : Framed state rest) (connected : state.shared.connected = true)
    (none : ∀ other, (state.threads other).partlyWritten = false)
    (was : state.threads fiber = .writing writer false (some buffer :: buffers)) :
    Framed (state.put fiber (state.shared.write writer false (buffer.take count))
      (writer.advance (buffer.drop count) buffers)) (buffer.drop count ++ content buffers) := by
  have empty := framed.missing connected none
  subst empty
  have frames := framed.frames
  have bytes : writer.frame.bytes = buffer ++ content buffers := by
    rw [Begun.bytes, ← framed.unbegun fiber writer _ was, content_cons]
    rfl
  refine framed.put (fun other _ => none other) (writer.left_advance _) ?_ ?_ fun other left now =>
    absurd now (writer.advance_begun _ _ _ _)
  · rw [List.append_nil] at frames
    simp only [Shared.write, Shared.frames, Bool.false_eq_true, if_false, List.flatMap_append,
      List.flatMap_singleton, bytes]
    rw [frames, Shared.frames, List.append_assoc, ← List.append_assoc (buffer.take count),
      List.take_append_drop]
  · simp only [Shared.write, Bool.false_eq_true, if_false, List.getLast?_concat, Option.map_some,
      Option.getD_some, bytes]
    refine ⟨buffer.take count, ?_⟩
    rw [← List.append_assoc, List.take_append_drop]

/-- More bytes of a frame are written. -/
theorem Framed.more {writer : Writer} {buffer : List Byte} {buffers : List (Option (List Byte))}
    {count : Nat} (framed : Framed state rest) (some' : buffer ≠ [])
    (was : state.threads fiber = .writing writer true (some buffer :: buffers)) :
    Framed (state.put fiber (state.shared.write writer true (buffer.take count))
      (writer.advance (buffer.drop count) buffers)) (buffer.drop count ++ content buffers) := by
  have part : (state.threads fiber).partlyWritten = true := by
    rw [was]
    simp [Thread.partlyWritten, Thread.left, some']
  have left : buffer ++ content buffers = rest := by
    have same := framed.left fiber part
    rwa [was, Thread.left, content_cons] at same
  refine framed.put (fun other apart => ?_) (writer.left_advance _) ?_ ?_ fun other left now =>
    absurd now (writer.advance_begun _ _ _ _)
  · rw [Bool.eq_false_iff]
    exact fun also => apart (framed.one other fiber () also part)
  · change state.shared.wire ++ buffer.take count ++ (buffer.drop count ++ content buffers) =
      state.shared.frames
    rw [List.append_assoc, ← List.append_assoc (buffer.take count), List.take_append_drop, left]
    exact framed.frames
  · refine List.IsSuffix.trans ⟨buffer.take count, ?_⟩ framed.last
    rw [← List.append_assoc, List.take_append_drop, left]

theorem Framed.step {action : Waiter × Action} (framed : Framed state rest)
    (separate : Separate state action) (taken : step bufferSize state action = some later) :
    ∃ after, Framed later after := by
  obtain ⟨self, choice⟩ := action
  obtain ⟨result, executed, rfl⟩ := Option.map_eq_some_iff.mp taken
  change state.shared.exec bufferSize self (state.threads self.fiber) choice = some result
    at executed
  change ∃ after, Framed (state.put self.fiber result.1 result.2) after
  clear taken
  unfold Separate at separate
  generalize was : state.threads self.fiber = here at executed separate
  revert executed
  fun_cases Shared.exec bufferSize self state.shared here choice
  all_goals rintro ⟨⟩
  case case23 writer begun buffer buffers count moves =>
    obtain ⟨connected, positive, few⟩ := moves
    cases begun with
    | false => exact ⟨_, framed.first connected (separate writer _ count rfl rfl) was⟩
    | true =>
        refine ⟨_, framed.more ?_ was⟩
        rintro rfl
        simp at few
        omega
  case case6 sender outcome =>
    refine ⟨rest, ?_⟩
    unfold Shared.wait
    simp only
    split
    · exact framed.aside rfl rfl id (by rw [was]; rfl) (acquired_aside sender)
    · exact framed.aside rfl rfl id (by rw [was]; rfl) ⟨rfl, by rintro _ _ ⟨⟩⟩
  case case8 sender ready =>
    exact ⟨rest, framed.aside rfl rfl id (by rw [was]; rfl) (acquired_aside sender)⟩
  case case10 goal outcome =>
    refine ⟨rest, ?_⟩
    unfold Shared.lock
    simp only
    split <;> exact framed.aside rfl rfl id (by rw [was]; rfl) ⟨rfl, by rintro _ _ ⟨⟩⟩
  case case14 goal outcome =>
    refine ⟨rest, ?_⟩
    cases goal with
    | push entry => exact framed.aside rfl rfl id (by rw [was]; rfl) ⟨rfl, by rintro _ _ ⟨⟩⟩
    | test =>
        rw [Shared.perform]
        split <;> exact framed.aside rfl rfl id (by rw [was]; rfl) ⟨rfl, by rintro _ _ ⟨⟩⟩
  case case16 after outcome =>
    refine ⟨rest, ?_⟩
    cases after <;> exact framed.aside rfl rfl id (by rw [was]; rfl) ⟨rfl, by rintro _ _ ⟨⟩⟩
  case case22 fin buffers msg outcome =>
    refine ⟨rest, framed.keep rfl rfl id (by rw [was]; rfl) ?_⟩
    rintro writer buffers ⟨⟩
    rfl
  case case25 writer begun buffer buffers =>
    refine ⟨rest, framed.keep rfl rfl id ?_ (by rintro _ _ ⟨⟩)⟩
    rw [was]
    cases begun <;> rfl
  case case26 writer begun buffers outcome =>
    obtain ⟨left, whole⟩ := writer.failed_aside
    exact ⟨rest, framed.drop rfl rfl rfl left fun other left now => absurd now (whole other left)⟩
  case case27 =>
    refine ⟨rest, ?_⟩
    split <;> exact framed.aside rfl rfl id (by rw [was]; rfl) ⟨rfl, by rintro _ _ ⟨⟩⟩
  case case30 =>
    refine ⟨rest, framed.keep rfl rfl id (by rw [was]; rfl) ?_⟩
    rintro writer buffers ⟨⟩
    rfl
  case case5 | case28 | case33 =>
    exact ⟨rest, framed.aside rfl rfl (by rintro ⟨⟩) (by rw [was]; rfl) ⟨rfl, by rintro _ _ ⟨⟩⟩⟩
  all_goals exact ⟨rest, framed.aside rfl rfl id (by rw [was]; rfl) ⟨rfl, by rintro _ _ ⟨⟩⟩⟩

end Steps

section Runs

variable {bufferSize : Nat} {state : State}

theorem framed_fresh : Framed fresh [] :=
  ⟨rfl, List.nil_suffix, fun _ _ => rfl, fun _ part => absurd part Bool.false_ne_true,
    fun _ _ _ part => absurd part Bool.false_ne_true, fun _ _ _ => nofun⟩

/-- If no frame is begun while another is partly written, the wire has whole frames. -/
theorem wire_whole (run : Runs (step bufferSize) Separate fresh state) :
    ∃ rest, Whole state rest := by
  have framed : ∃ rest, Framed state rest := by
    refine @Runs.invariant _ _ _ _ _ _ (fun state => ∃ rest, Framed state rest) ?step run
      ⟨[], framed_fresh⟩
    rintro _ _ _ ⟨rest, framed⟩ separate taken
    exact framed.step separate taken
  obtain ⟨rest, framed⟩ := framed
  refine ⟨rest, framed.frames, framed.last, fun some connected => ?_⟩
  by_contra none
  refine some (framed.missing connected fun fiber => ?_)
  rw [Bool.eq_false_iff]
  exact fun part => none ⟨fiber, part⟩

/-- A text is pushed and taken by a `doSend`, which writes its head; a `PING` is read. -/
def pingRun : List (Waiter × Action) :=
  (⟨0, 0⟩, .sendMessage ⟨1, [0x68, 0x69]⟩ true) :: List.replicate 4 (⟨0, 0⟩, .go .fails) ++
    (⟨0, 1⟩, .doSend) :: List.replicate 5 (⟨0, 1⟩, .go .fails) ++
      [(⟨0, 1⟩, .go (.moves 2)), (⟨0, 2⟩, .wsRecvMessage), (⟨0, 2⟩, .go .ping)]

/-- Three fibers act, and none of them has a frame that is partly written when another begins
one. -/
def separates (state : State) (action : Waiter × Action) : Bool :=
  decide (action.1.fiber < 3) &&
    match state.threads action.1.fiber, action.2 with
    | .writing _ false _, .go (.moves _) =>
        (List.range 3).all fun fiber => !(state.threads fiber).partlyWritten
    | _, _ => true

theorem separates_sound (run : Runs (step bufferSize) (fun state action => separates state action)
    fresh state) : Runs (step bufferSize) Separate fresh state := by
  have idle : ∀ ⦃state⦄, Runs (step bufferSize) (fun state action => separates state action) fresh
      state → ∀ fiber, 3 ≤ fiber → state.threads fiber = .outside := by
    intro state run
    refine @Runs.invariant _ _ _ _ _ _
      (fun state => ∀ fiber, 3 ≤ fiber → state.threads fiber = .outside) ?step run fun _ _ => rfl
    intro _ action _ idle passes taken fiber late
    have acts : action.1.fiber < 3 := of_decide_eq_true (Bool.and_eq_true_iff.mp passes).1
    have apart : some action.1.fiber ≠ some fiber :=
      fun same => absurd acts (Nat.not_lt.mpr (Option.some.inj same ▸ late))
    rw [step_frame taken apart]
    exact idle fiber late
  refine run.weaken idle fun state action idle passes writer buffers count was moves fiber => ?_
  rcases Nat.lt_or_ge fiber 3 with early | late
  · have all := (Bool.and_eq_true_iff.mp passes).2
    rw [was, moves] at all
    have none := List.all_eq_true.mp all fiber (List.mem_range.mpr early)
    rwa [Bool.not_eq_true'] at none
  · rw [idle fiber late]
    rfl

/-- The text is written before the answer. -/
def answeredAfter : State :=
  (replay (step 16384) separates (pingRun ++
    [(⟨0, 1⟩, .go (.moves 2)), (⟨0, 2⟩, .go (.moves 2))]) fresh).get (by decide)

theorem wire_whole_after :
    answeredAfter.shared.wire = [0x81, 0x02, 0x68, 0x69, 0x8A, 0x00] ∧
      ∃ rest, Whole answeredAfter rest :=
  ⟨by decide, wire_whole (separates_sound
    (.of_replay (fun _ _ passes => passes) (Option.some_get _).symm))⟩

/-- The answer is written behind the head of the text. -/
def answeredWithin : State :=
  (replay (step 16384) (fun _ _ => true) (pingRun ++ [(⟨0, 2⟩, .go (.moves 2))]) fresh).get
    (by decide)

theorem not_wire_whole : ¬ ∀ (bufferSize : Nat) (state : State),
    Runs (step bufferSize) (fun _ _ => True) fresh state → ∃ rest, Whole state rest := by
  intro claimed
  obtain ⟨rest, whole⟩ := claimed 16384 answeredWithin
    (.of_replay (fun _ _ _ => trivial) (Option.some_get _).symm)
  have start : answeredWithin.shared.wire <+: answeredWithin.shared.frames := ⟨rest, whole.frames⟩
  revert start
  decide

end Runs

end Xten.http.WSSession
