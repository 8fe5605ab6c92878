import Xten.Rock.Acceptance

/-!
# Where a parser stops short

A parser makes some reads one after the other. The first of them that does not return
decides how the parser stops short, and the bytes around the cursor decide which one it
is. A parser that handles its fault returns all the same.
-/

namespace Xten

open Std.IntegerCodec Std.Programs

/-- A read of a parser: a number of some bytes, or a string with its length in front. -/
inductive Read where
  | fixed (count : Nat)
  | string
deriving DecidableEq, Repr

namespace Read

/-- The fault of a read. The length of a string is looked at before its bytes are
read. -/
def fault : Read → Cursor → Option Fault
  | .fixed count, cursor => cursor.readFault count
  | .string, cursor =>
      (cursor.readFault 4).or <|
        if cursor.word + 1 = 0 then some .overrun
        else (cursor.pass 4).readFault cursor.word.toNat

/-- The cursor after a read. -/
def pass : Read → Cursor → Cursor
  | .fixed count, cursor => cursor.pass count
  | .string, cursor => cursor.passString

end Read

namespace Cursor

/-- The cursor after some reads. -/
def passAll : List Read → Cursor → Cursor
  | [], cursor => cursor
  | read :: reads, cursor => passAll reads (read.pass cursor)

/-- The fault of the first of some reads that does not return. -/
def fault : List Read → Cursor → Option Fault
  | [], _ => none
  | read :: reads, cursor => (read.fault cursor).or (fault reads (read.pass cursor))

theorem passAll_append {first second : List Read} {cursor : Cursor} :
    passAll (first ++ second) cursor = passAll second (passAll first cursor) := by
  induction first generalizing cursor with
  | nil => rfl
  | cons read first ih => exact ih

theorem fault_append {first second : List Read} {cursor : Cursor} :
    fault (first ++ second) cursor =
      (fault first cursor).or (fault second (passAll first cursor)) := by
  induction first generalizing cursor with
  | nil => rfl
  | cons read first ih => simp only [List.cons_append, fault, passAll, ih, Option.or_assoc]

theorem fault_append_some {first second : List Read} {cursor : Cursor} {fault_ : Fault}
    (faulty : cursor.fault first = some fault_) :
    cursor.fault (first ++ second) = some fault_ := by
  rw [fault_append, faulty, Option.some_or]

theorem fault_append_none {first second : List Read} {cursor : Cursor}
    (clear : cursor.fault first = none) :
    cursor.fault (first ++ second) = (cursor.passAll first).fault second := by
  rw [fault_append, clear, Option.none_or]

end Cursor

/-- A program makes one read: it returns behind it or stops with its fault. -/
structure Makes {α : Type} (program : Cursor.Scan α) (read : Read) : Prop where
  returns : ∀ {cursor}, read.fault cursor = none →
    ∃ value, program cursor = .ok value (read.pass cursor)
  stops : ∀ {cursor fault}, read.fault cursor = some fault →
    ∃ later, program cursor = .error fault later

section Makes

theorem makes_fixed (count : Nat) : Makes (Cursor.readFixed count) (.fixed count) where
  returns := by
    intro cursor clear
    exact ⟨_, bind_ok (Cursor.read_ok clear)⟩
  stops := by
    intro cursor fault faulty
    exact ⟨_, bind_error (Cursor.read_error faulty)⟩

theorem makes_byte : Makes Cursor.readFUint8 (.fixed 1) where
  returns := by
    intro cursor clear
    exact ⟨_, bind_ok (Cursor.read_ok clear)⟩
  stops := by
    intro cursor fault faulty
    exact ⟨_, bind_error (Cursor.read_error faulty)⟩

theorem Cursor.readFUint32_clear {cursor : Cursor} (clear : cursor.readFault 4 = none) :
    Cursor.readFUint32 cursor = .ok cursor.word (cursor.pass 4) := by
  apply Cursor.readFUint32_there
  by_contra short
  simp [Cursor.readFault, Nat.lt_of_not_le short] at clear

theorem makes_string : Makes Cursor.readStringF32 .string where
  returns := by
    intro cursor clear
    obtain ⟨there, clear⟩ := Option.or_eq_none_iff.mp clear
    split_ifs at clear with wraps
    refine ⟨ByteArray.cString ((cursor.pass 4).after.take cursor.word.toNat), ?_⟩
    rw [Cursor.readStringF32, bind_ok (Cursor.readFUint32_clear there), if_neg wraps,
      bind_ok (Cursor.read_ok clear)]
    rfl
  stops := by
    intro cursor fault faulty
    rcases Option.or_eq_some_iff.mp faulty with short | ⟨there, faulty⟩
    · have stopped : Cursor.readFUint32 cursor = .error fault cursor :=
        bind_error (Cursor.read_error short)
      exact ⟨_, bind_error stopped⟩
    · rw [Cursor.readStringF32, bind_ok (Cursor.readFUint32_clear there)]
      split_ifs at faulty ⊢ with wraps
      · cases faulty
        exact ⟨_, rfl⟩
      · exact ⟨_, bind_error (Cursor.read_error faulty)⟩

end Makes

/-- A method makes some reads one after the other: it returns a value if all of them
return, and stops with the fault of the first that does not. -/
structure Follows {α Object : Type} (method : EStateM Fault (Cursor × Object) α) (value : α)
    (reads : List Read) : Prop where
  returns : ∀ {cursor} (self), cursor.fault reads = none →
    ∃ left, method (cursor, self) = .ok value (cursor.passAll reads, left)
  stops : ∀ {cursor} (self) {fault}, cursor.fault reads = some fault →
    ∃ later, method (cursor, self) = .error fault later

section Follows

variable {α β Object Part : Type}

theorem Follows.pure (value : α) :
    Follows (pure value : EStateM Fault (Cursor × Object) α) value [] where
  returns := fun self _ => ⟨self, rfl⟩
  stops := by
    intro cursor self fault faulty
    cases faulty

theorem Follows.bind {first : EStateM Fault (Cursor × Object) α}
    {next : α → EStateM Fault (Cursor × Object) β} {value : α} {result : β}
    {head tail : List Read} (followsHead : Follows first value head)
    (followsTail : Follows (next value) result tail) :
    Follows (first >>= next) result (head ++ tail) where
  returns := by
    intro cursor self clear
    rw [Cursor.fault_append] at clear
    obtain ⟨clearHead, clearTail⟩ := Option.or_eq_none_iff.mp clear
    obtain ⟨middle, done⟩ := followsHead.returns self clearHead
    obtain ⟨left, again⟩ := followsTail.returns middle clearTail
    rw [bind_ok done, Cursor.passAll_append]
    exact ⟨left, again⟩
  stops := by
    intro cursor self fault faulty
    rw [Cursor.fault_append] at faulty
    rcases Option.or_eq_some_iff.mp faulty with faulty | ⟨clear, faulty⟩
    · obtain ⟨later, stopped⟩ := followsHead.stops self faulty
      exact ⟨later, bind_error stopped⟩
    · obtain ⟨middle, done⟩ := followsHead.returns self clear
      obtain ⟨later, stopped⟩ := followsTail.stops middle faulty
      rw [bind_ok done]
      exact ⟨later, stopped⟩

theorem Follows.seq {first : EStateM Fault (Cursor × Object) Unit}
    {second : EStateM Fault (Cursor × Object) α} {value : α} {head tail : List Read}
    (followsHead : Follows first () head) (followsTail : Follows second value tail) :
    Follows (do first; second) value (head ++ tail) :=
  Follows.bind followsHead followsTail

theorem Follows.onBase {base : Object → Part} {set : Part → Object → Object}
    {method : EStateM Fault (Cursor × Part) α} {value : α} {reads : List Read}
    (follows : Follows method value reads) : Follows (onBase base set method) value reads where
  returns := by
    intro cursor self clear
    obtain ⟨left, done⟩ := follows.returns (base self) clear
    exact ⟨_, onBase_ok done⟩
  stops := by
    intro cursor self fault faulty
    obtain ⟨later, stopped⟩ := follows.stops (base self) faulty
    exact ⟨_, onBase_error stopped⟩

theorem Makes.assign {read : Cursor.Scan α} {kind : Read} (makes : Makes read kind)
    (set : α → Object → Object) : Follows (assign read set) () [kind] where
  returns := by
    intro cursor self clear
    obtain ⟨value, done⟩ := makes.returns (Option.or_eq_none_iff.mp clear).1
    exact ⟨_, assign_ok done set self⟩
  stops := by
    intro cursor self fault faulty
    have first : kind.fault cursor = some fault := by
      rcases Option.or_eq_some_iff.mp faulty with faulty | ⟨-, none⟩
      · exact faulty
      · cases none
    obtain ⟨later, stopped⟩ := makes.stops first
    exact ⟨_, assign_error stopped set self⟩

end Follows

/-- Whether a parser returns where its reads stop at a fault, if at any: it does if it
handles that one. -/
def Read.Passable (handled : Fault → Bool) (reads : List Read) (cursor : Cursor) : Prop :=
  (cursor.fault reads).all handled = true

instance (handled : Fault → Bool) (reads : List Read) (cursor : Cursor) :
    Decidable (Read.Passable handled reads cursor) :=
  inferInstanceAs (Decidable (_ = true))

/-- A parser makes some reads and handles some faults: it returns true, unless its first
fault is another. -/
structure Answers {Object : Type} (handled : Fault → Bool)
    (method : EStateM Fault (Cursor × Object) Bool) (reads : List Read) : Prop where
  returns : ∀ {cursor} (self), Read.Passable handled reads cursor →
    ∃ later, method (cursor, self) = .ok true later
  stops : ∀ {cursor} (self), ¬ Read.Passable handled reads cursor →
    ∃ fault later, method (cursor, self) = .error fault later

section Answers

variable {Object : Type} {handled : Fault → Bool} {cursor : Cursor} {reads : List Read}

theorem Read.passable_of_none (clear : cursor.fault reads = none) :
    Read.Passable handled reads cursor := by
  rw [Read.Passable, clear]
  rfl

theorem Read.passable_some {fault : Fault} (faulty : cursor.fault reads = some fault) :
    Read.Passable handled reads cursor ↔ handled fault = true := by
  rw [Read.Passable, faulty]
  rfl

/-- A parser outside `try` handles no fault. -/
theorem Follows.answers {method : EStateM Fault (Cursor × Object) Bool}
    (follows : Follows method true reads) : Answers (fun _ => false) method reads where
  returns := by
    intro cursor self passable
    have clear : cursor.fault reads = none := by
      cases faulty : cursor.fault reads with
      | none => rfl
      | some fault => cases (Read.passable_some faulty).mp passable
    obtain ⟨left, done⟩ := follows.returns self clear
    exact ⟨_, done⟩
  stops := by
    intro cursor self stuck
    cases faulty : cursor.fault reads with
    | none => exact absurd (Read.passable_of_none faulty) stuck
    | some fault =>
        obtain ⟨later, stopped⟩ := follows.stops self faulty
        exact ⟨fault, later, stopped⟩

theorem tryBoth_caught {message body : EStateM Fault (Cursor × Object) Bool}
    {state : Cursor × Object} {fault : Fault} {later : Cursor × Object}
    (stopped : message state = .error fault later) (caught : fault.isException = true) :
    tryBoth message body state = .ok true later := by
  simp only [tryBoth, stopped, if_pos caught]

theorem tryBoth_caught_second {message body : EStateM Fault (Cursor × Object) Bool}
    {state middle later : Cursor × Object} {first : Bool} {fault : Fault}
    (done : message state = .ok first middle) (stopped : body middle = .error fault later)
    (caught : fault.isException = true) : tryBoth message body state = .ok first later := by
  simp only [tryBoth, done, stopped, if_pos caught]

/-- Two methods inside `try` handle exceptions. -/
theorem Answers.tryBoth {message body : EStateM Fault (Cursor × Object) Bool}
    {head tail : List Read} (followsHead : Follows message true head)
    (followsTail : Follows body true tail) :
    Answers Fault.isException (tryBoth message body) (head ++ tail) where
  returns := by
    intro cursor self passable
    cases faulty : cursor.fault head with
    | some fault =>
        obtain ⟨later, stopped⟩ := followsHead.stops self faulty
        have first := @Cursor.fault_append_some head tail cursor fault faulty
        exact ⟨later, tryBoth_caught stopped ((Read.passable_some first).mp passable)⟩
    | none =>
        obtain ⟨middle, done⟩ := followsHead.returns self faulty
        have rest := @Cursor.fault_append_none head tail cursor faulty
        cases second : (cursor.passAll head).fault tail with
        | none =>
            obtain ⟨left, again⟩ := followsTail.returns middle second
            exact ⟨_, tryBoth_ok done again⟩
        | some fault =>
            obtain ⟨later, stopped⟩ := followsTail.stops middle second
            have caught := (Read.passable_some (rest.trans second)).mp passable
            exact ⟨later, tryBoth_caught_second done stopped caught⟩
  stops := by
    intro cursor self stuck
    cases faulty : cursor.fault head with
    | some fault =>
        obtain ⟨later, stopped⟩ := followsHead.stops self faulty
        have first := @Cursor.fault_append_some head tail cursor fault faulty
        have escapes := mt (Read.passable_some first).mpr stuck
        exact ⟨fault, later, tryBoth_first stopped (Bool.eq_false_iff.mpr escapes)⟩
    | none =>
        obtain ⟨middle, done⟩ := followsHead.returns self faulty
        have rest := @Cursor.fault_append_none head tail cursor faulty
        cases second : (cursor.passAll head).fault tail with
        | none => exact absurd (Read.passable_of_none (rest.trans second)) stuck
        | some fault =>
            obtain ⟨later, stopped⟩ := followsTail.stops middle second
            have escapes := mt (Read.passable_some (rest.trans second)).mpr stuck
            exact ⟨fault, later, tryBoth_second done stopped (Bool.eq_false_iff.mpr escapes)⟩

end Answers

namespace Message

/-- The reads of the class of a message, after its type byte. -/
def reads : Message → List Read
  | .request _ => [.fixed 4, .fixed 4, .string]
  | .response _ => [.fixed 4, .fixed 4, .fixed 4, .string, .string]
  | .notify _ => [.fixed 4, .string]

end Message

section Classes

theorem makes_word : Makes Cursor.readers.readFUint32 (.fixed 4) :=
  makes_fixed 4

theorem Request.follows :
    Follows (Request.parseFromByteArray Cursor.readers) true [.fixed 4, .fixed 4] :=
  (makes_word.assign _).seq ((makes_word.assign _).seq (Follows.pure true))

theorem Response.follows :
    Follows (Response.parseFromByteArray Cursor.readers) true
      [.fixed 4, .fixed 4, .fixed 4, .string] :=
  (makes_word.assign _).seq ((makes_word.assign _).seq ((makes_word.assign _).seq
    ((makes_string.assign _).seq (Follows.pure true))))

theorem Notify.follows : Follows (Notify.parseFromByteArray Cursor.readers) true [.fixed 4] :=
  (makes_word.assign _).seq (Follows.pure true)

theorem RockBody.follows : Follows (RockBody.parseFromByteArray Cursor.readers) true [.string] :=
  (makes_string.assign _).seq (Follows.pure true)

end Classes

end Xten
