import Xten.Rock.BodyRoundTrip

/-!
# Which bodies the parsers accept

Each parser skims the fields of its class. The value it returns is true from the
start, and a missing byte is an exception that leaves it so: a truncated body is not
refused. A body is judged rightly if it is complete and no read of a string in it is
undefined.
-/

namespace Xten

open Std.IntegerCodec Std.Programs

/-- A field of an encoding. -/
inductive Field where
  | word
  | string
deriving DecidableEq, Repr

namespace Cursor

/-- The word in front of the cursor. -/
def word (cursor : Cursor) : BitVec 32 :=
  let tmp : BitVec (8 * 4) := ofMemory (cursor.after.take 4)
  if cursor.endian ≠ ByteArray.byteOrder then byteSwap 4 tmp else tmp

/-- The cursor after a string and its length. -/
def passString (cursor : Cursor) : Cursor :=
  (cursor.pass 4).pass cursor.word.toNat

/-- The cursor after some fields. -/
def skip : List Field → Cursor → Cursor
  | [], cursor => cursor
  | .word :: fields, cursor => skip fields (cursor.pass 4)
  | .string :: fields, cursor => skip fields cursor.passString

/-- The bytes after the cursor hold every field with all its bytes, whatever follows. -/
def Complete : List Field → Cursor → Prop
  | [], _ => True
  | .word :: fields, cursor => 4 ≤ cursor.after.length ∧ Complete fields (cursor.pass 4)
  | .string :: fields, cursor =>
      (4 ≤ cursor.after.length ∧ cursor.word.toNat ≤ (cursor.pass 4).after.length) ∧
        Complete fields cursor.passString

/-- No read of a string among the fields is undefined: its length is not all ones, and
it is not empty at the end of the array's capacity. -/
def Defined : List Field → Cursor → Prop
  | [], _ => True
  | .word :: fields, cursor => Defined fields (cursor.pass 4)
  | .string :: fields, cursor =>
      (cursor.word + 1 ≠ 0 ∧
        (cursor.word = 0 → (cursor.pass 4).before.length ≠ cursor.capacity)) ∧
        Defined fields cursor.passString

instance decidableComplete :
    (fields : List Field) → (cursor : Cursor) → Decidable (Complete fields cursor)
  | [], _ => inferInstanceAs (Decidable True)
  | .word :: fields, cursor =>
      have := decidableComplete fields (cursor.pass 4)
      inferInstanceAs (Decidable (_ ∧ _))
  | .string :: fields, cursor =>
      have := decidableComplete fields cursor.passString
      inferInstanceAs (Decidable (_ ∧ _))

instance decidableDefined :
    (fields : List Field) → (cursor : Cursor) → Decidable (Defined fields cursor)
  | [], _ => inferInstanceAs (Decidable True)
  | .word :: fields, cursor => decidableDefined fields (cursor.pass 4)
  | .string :: fields, cursor =>
      have := decidableDefined fields cursor.passString
      inferInstanceAs (Decidable ((_ ∧ _) ∧ _))

variable {first second : List Field} {cursor : Cursor}

theorem skip_append : skip (first ++ second) cursor = skip second (skip first cursor) := by
  induction first generalizing cursor with
  | nil => rfl
  | cons field first ih => cases field <;> exact ih

theorem complete_append :
    Complete (first ++ second) cursor ↔
      Complete first cursor ∧ Complete second (skip first cursor) := by
  induction first generalizing cursor with
  | nil => exact (iff_of_eq (true_and _)).symm
  | cons field first ih => cases field <;> simp only [List.cons_append, Complete, skip, ih, and_assoc]

theorem defined_append :
    Defined (first ++ second) cursor ↔
      Defined first cursor ∧ Defined second (skip first cursor) := by
  induction first generalizing cursor with
  | nil => exact (iff_of_eq (true_and _)).symm
  | cons field first ih => cases field <;> simp only [List.cons_append, Defined, skip, ih, and_assoc]

end Cursor

section Skim

variable {α β Object Part : Type}

/-- A program reads fields: it returns behind them if they are all there and their
reads are defined, and stops short otherwise. -/
structure Skims (program : EStateM Fault (Cursor × Object) α) (value : α)
    (fields : List Field) : Prop where
  returns : ∀ {cursor : Cursor} (self), cursor.Complete fields → cursor.Defined fields →
    ∃ left, program (cursor, self) = .ok value (cursor.skip fields, left)
  undefined : ∀ {cursor : Cursor} (self), cursor.Complete fields → ¬ cursor.Defined fields →
    ∃ fault later, program (cursor, self) = .error fault later ∧ fault.isException = false
  misses : ∀ {cursor : Cursor} (self), ¬ cursor.Complete fields →
    ∃ fault later, program (cursor, self) = .error fault later

theorem Skims.pure (value : α) :
    Skims (pure value : EStateM Fault (Cursor × Object) α) value [] where
  returns := fun self _ _ => ⟨self, rfl⟩
  undefined := fun _ _ undefined => absurd trivial undefined
  misses := fun _ incomplete => absurd trivial incomplete

theorem Skims.seq {first : EStateM Fault (Cursor × Object) Unit}
    {second : EStateM Fault (Cursor × Object) α} {value : α} {head tail : List Field}
    (skimsHead : Skims first () head) (skimsTail : Skims second value tail) :
    Skims (do first; second) value (head ++ tail) where
  returns := by
    intro cursor self complete defined
    rw [Cursor.complete_append] at complete
    rw [Cursor.defined_append] at defined
    obtain ⟨middle, done⟩ := skimsHead.returns self complete.1 defined.1
    obtain ⟨left, again⟩ := skimsTail.returns middle complete.2 defined.2
    rw [bind_ok done, Cursor.skip_append]
    exact ⟨left, again⟩
  undefined := by
    intro cursor self complete undefined
    rw [Cursor.complete_append] at complete
    rw [Cursor.defined_append] at undefined
    by_cases defined : cursor.Defined head
    · obtain ⟨middle, done⟩ := skimsHead.returns self complete.1 defined
      rw [bind_ok done]
      exact skimsTail.undefined middle complete.2 fun later => undefined ⟨defined, later⟩
    · obtain ⟨fault, later, stopped, notCaught⟩ := skimsHead.undefined self complete.1 defined
      exact ⟨fault, later, bind_error stopped, notCaught⟩
  misses := by
    intro cursor self incomplete
    rw [Cursor.complete_append] at incomplete
    by_cases complete : cursor.Complete head
    · by_cases defined : cursor.Defined head
      · obtain ⟨middle, done⟩ := skimsHead.returns self complete defined
        rw [bind_ok done]
        exact skimsTail.misses middle fun later => incomplete ⟨complete, later⟩
      · obtain ⟨fault, later, stopped, -⟩ := skimsHead.undefined self complete defined
        exact ⟨fault, later, bind_error stopped⟩
    · obtain ⟨fault, later, stopped⟩ := skimsHead.misses self complete
      exact ⟨fault, later, bind_error stopped⟩

theorem Skims.onBase {base : Object → Part} {set : Part → Object → Object}
    {method : EStateM Fault (Cursor × Part) α} {value : α} {fields : List Field}
    (skims : Skims method value fields) : Skims (onBase base set method) value fields where
  returns := by
    intro cursor self complete defined
    obtain ⟨left, done⟩ := skims.returns (base self) complete defined
    exact ⟨_, onBase_ok done⟩
  undefined := by
    intro cursor self complete undefined
    obtain ⟨fault, later, stopped, notCaught⟩ := skims.undefined (base self) complete undefined
    exact ⟨fault, _, onBase_error stopped, notCaught⟩
  misses := by
    intro cursor self incomplete
    obtain ⟨fault, later, stopped⟩ := skims.misses (base self) incomplete
    exact ⟨fault, _, onBase_error stopped⟩

theorem Cursor.readFUint32_there {cursor : Cursor} (enough : 4 ≤ cursor.after.length) :
    Cursor.readFUint32 cursor = .ok cursor.word (cursor.pass 4) := by
  have taken : Cursor.read 4 cursor = .ok (cursor.after.take 4) (cursor.pass 4) := by
    rw [Cursor.read, if_neg (Nat.not_lt.mpr enough), if_neg]
    rintro ⟨none, -⟩
    cases none
  rw [Cursor.readFUint32, Cursor.readFixed, bind_ok taken]
  rfl

theorem Cursor.readFUint32_short {cursor : Cursor} (short : cursor.after.length < 4) :
    ∃ fault, Cursor.readFUint32 cursor = .error fault cursor := by
  have stopped : Cursor.read 4 cursor = .error (.outOfRange "no enough readSize") cursor :=
    if_pos short
  exact ⟨_, bind_error stopped⟩

/-- Reading a word skims it. -/
theorem skims_word (set : BitVec 32 → Object → Object) :
    Skims (assign Cursor.readers.readFUint32 set) () [.word] where
  returns := by
    rintro cursor self ⟨enough, -⟩ -
    exact ⟨_, assign_ok (Cursor.readFUint32_there enough) set self⟩
  undefined := fun _ _ undefined => absurd trivial undefined
  misses := by
    intro cursor self incomplete
    have short : cursor.after.length < 4 := by
      by_contra enough
      exact incomplete ⟨Nat.le_of_not_lt enough, trivial⟩
    obtain ⟨fault, stopped⟩ := Cursor.readFUint32_short short
    exact ⟨fault, _, assign_error stopped set self⟩

/-- Reading a string skims it. -/
theorem skims_string (set : List Byte → Object → Object) :
    Skims (assign Cursor.readers.readStringF32 set) () [.string] where
  returns := by
    rintro cursor self ⟨⟨enough, there⟩, -⟩ ⟨⟨narrow, node⟩, -⟩
    have taken : Cursor.read cursor.word.toNat (cursor.pass 4) =
        .ok ((cursor.pass 4).after.take cursor.word.toNat) cursor.passString := by
      rw [Cursor.read, if_neg (Nat.not_lt.mpr there), if_neg]
      · rfl
      · rintro ⟨none, full⟩
        exact node (BitVec.eq_of_toNat_eq none) full
    have done : Cursor.readStringF32 cursor =
        .ok (ByteArray.cString ((cursor.pass 4).after.take cursor.word.toNat))
          cursor.passString := by
      rw [Cursor.readStringF32, bind_ok (Cursor.readFUint32_there enough), if_neg narrow,
        bind_ok taken]
      rfl
    exact ⟨_, assign_ok done set self⟩
  undefined := by
    rintro cursor self ⟨⟨enough, there⟩, -⟩ undefined
    by_cases wraps : cursor.word + 1 = 0
    · have stopped : Cursor.readStringF32 cursor = .error .overrun (cursor.pass 4) := by
        rw [Cursor.readStringF32, bind_ok (Cursor.readFUint32_there enough), if_pos wraps]
        rfl
      exact ⟨_, _, assign_error stopped set self, rfl⟩
    · obtain ⟨none, full⟩ :
          cursor.word = 0 ∧ (cursor.pass 4).before.length = cursor.capacity := by
        by_contra other
        exact undefined ⟨⟨wraps, fun none full => other ⟨none, full⟩⟩, trivial⟩
      have empty : cursor.word.toNat = 0 := by
        rw [none]
        rfl
      have null : Cursor.read cursor.word.toNat (cursor.pass 4) =
          .error .nullNode (cursor.pass 4) := by
        rw [Cursor.read, if_neg (Nat.not_lt.mpr there), if_pos ⟨empty, full⟩]
      have stopped : Cursor.readStringF32 cursor = .error .nullNode (cursor.pass 4) := by
        rw [Cursor.readStringF32, bind_ok (Cursor.readFUint32_there enough), if_neg wraps,
          bind_error null]
      exact ⟨_, _, assign_error stopped set self, rfl⟩
  misses := by
    intro cursor self incomplete
    by_cases enough : 4 ≤ cursor.after.length
    · have missing : (cursor.pass 4).after.length < cursor.word.toNat := by
        by_contra there
        exact incomplete ⟨⟨enough, Nat.le_of_not_lt there⟩, trivial⟩
      have short : Cursor.read cursor.word.toNat (cursor.pass 4) =
          .error (.outOfRange "no enough readSize") (cursor.pass 4) := if_pos missing
      have stopped : ∃ fault, Cursor.readStringF32 cursor = .error fault (cursor.pass 4) := by
        rw [Cursor.readStringF32, bind_ok (Cursor.readFUint32_there enough)]
        by_cases wraps : cursor.word + 1 = 0
        · rw [if_pos wraps]
          exact ⟨_, rfl⟩
        · rw [if_neg wraps, bind_error short]
          exact ⟨_, rfl⟩
      obtain ⟨fault, stopped⟩ := stopped
      exact ⟨fault, _, assign_error stopped set self⟩
    · obtain ⟨fault, short⟩ := Cursor.readFUint32_short (Nat.lt_of_not_le enough)
      have stopped : Cursor.readStringF32 cursor = .error fault cursor := bind_error short
      exact ⟨fault, _, assign_error stopped set self⟩

end Skim

section Judging

/-- A parser of a class with some fields: it returns true, behind the fields, if they
are complete and defined, stops short if they are complete and not defined, and
never returns false. -/
structure Judges {Object : Type} (method : EStateM Fault (Cursor × Object) Bool)
    (fields : List Field) : Prop where
  returns : ∀ {cursor : Cursor} (self), cursor.Complete fields → cursor.Defined fields →
    ∃ left, method (cursor, self) = .ok true (cursor.skip fields, left)
  undefined : ∀ {cursor : Cursor} (self), cursor.Complete fields → ¬ cursor.Defined fields →
    ∃ fault later, method (cursor, self) = .error fault later
  never : ∀ {cursor : Cursor} (self later), method (cursor, self) ≠ .ok false later

variable {Object : Type} {message body : EStateM Fault (Cursor × Object) Bool}
  {head tail : List Field}

/-- A method that skims returns true or stops short. -/
theorem Skims.true_or_stops {method : EStateM Fault (Cursor × Object) Bool} {fields : List Field}
    (skims : Skims method true fields) (cursor : Cursor) (self : Object) :
    (∃ left, method (cursor, self) = .ok true (cursor.skip fields, left)) ∨
      ∃ fault later, method (cursor, self) = .error fault later := by
  by_cases complete : cursor.Complete fields
  · by_cases defined : cursor.Defined fields
    · exact .inl (skims.returns self complete defined)
    · obtain ⟨fault, later, stopped, -⟩ := skims.undefined self complete defined
      exact .inr ⟨fault, later, stopped⟩
  · exact .inr (skims.misses self complete)

theorem Judges.tryBoth (skimsHead : Skims message true head) (skimsTail : Skims body true tail) :
    Judges (tryBoth message body) (head ++ tail) where
  returns := by
    intro cursor self complete defined
    rw [Cursor.complete_append] at complete
    rw [Cursor.defined_append] at defined
    obtain ⟨middle, done⟩ := skimsHead.returns self complete.1 defined.1
    obtain ⟨left, again⟩ := skimsTail.returns middle complete.2 defined.2
    rw [Cursor.skip_append]
    exact ⟨left, tryBoth_ok done again⟩
  undefined := by
    intro cursor self complete undefined
    rw [Cursor.complete_append] at complete
    rw [Cursor.defined_append] at undefined
    by_cases defined : cursor.Defined head
    · obtain ⟨middle, done⟩ := skimsHead.returns self complete.1 defined
      obtain ⟨fault, later, stopped, notCaught⟩ := skimsTail.undefined middle complete.2
        fun later => undefined ⟨defined, later⟩
      exact ⟨fault, later, tryBoth_second done stopped notCaught⟩
    · obtain ⟨fault, later, stopped, notCaught⟩ := skimsHead.undefined self complete.1 defined
      exact ⟨fault, later, tryBoth_first stopped notCaught⟩
  never := by
    intro cursor self later
    rcases skimsHead.true_or_stops cursor self with ⟨middle, done⟩ | ⟨fault, state, stopped⟩
    · rcases skimsTail.true_or_stops (cursor.skip head) middle with
        ⟨left, again⟩ | ⟨fault, state, stopped⟩
      · simp [Xten.tryBoth, done, again]
      · simp only [Xten.tryBoth, done, stopped]
        split <;> simp
    · simp only [Xten.tryBoth, stopped]
      split <;> simp

end Judging

namespace Message

/-- The fields of the class of a message, after its type byte. -/
def fields : Message → List Field
  | .request _ => [.word, .word, .string]
  | .response _ => [.word, .word, .word, .string, .string]
  | .notify _ => [.word, .string]

end Message

section Classes

theorem Request.skims :
    Skims (Request.parseFromByteArray Cursor.readers) true [.word, .word] :=
  (skims_word _).seq ((skims_word _).seq (Skims.pure true))

theorem Response.skims :
    Skims (Response.parseFromByteArray Cursor.readers) true [.word, .word, .word, .string] :=
  (skims_word _).seq ((skims_word _).seq ((skims_word _).seq
    ((skims_string _).seq (Skims.pure true))))

theorem Notify.skims : Skims (Notify.parseFromByteArray Cursor.readers) true [.word] :=
  (skims_word _).seq (Skims.pure true)

theorem RockBody.skims : Skims (RockBody.parseFromByteArray Cursor.readers) true [.string] :=
  (skims_string _).seq (Skims.pure true)

theorem RockRequest.judges :
    Judges (RockRequest.parseFromByteArray Cursor.readers) [.word, .word, .string] :=
  Judges.tryBoth Request.skims.onBase RockBody.skims.onBase

theorem RockResponse.judges :
    Judges (RockResponse.parseFromByteArray Cursor.readers)
      [.word, .word, .word, .string, .string] :=
  Judges.tryBoth Response.skims.onBase RockBody.skims.onBase

theorem RockNotify.judges :
    Judges (RockNotify.parseFromByteArray Cursor.readers) [.word, .string] :=
  Judges.tryBoth Notify.skims.onBase RockBody.skims.onBase

variable {Object : Type} {method : EStateM Fault (Cursor × Object) Bool} {fields : List Field}
  {cursor : Cursor}

/-- What a parser says of an object of its class. -/
theorem Judges.callOn (judges : Judges method fields) (self : Object)
    (class_ : Object → Message) :
    (cursor.Complete fields → cursor.Defined fields →
      ∃ msg later, Message.callOn method self class_ cursor = .ok (true, msg) later) ∧
    (cursor.Complete fields → ¬ cursor.Defined fields →
      ∃ fault later, Message.callOn method self class_ cursor = .error fault later) ∧
    ∀ msg later, Message.callOn method self class_ cursor ≠ .ok (false, msg) later := by
  refine ⟨fun complete defined => ?_, fun complete undefined => ?_, fun msg later => ?_⟩
  · obtain ⟨left, done⟩ := judges.returns self complete defined
    exact ⟨_, _, Message.callOn_ok done class_⟩
  · obtain ⟨fault, later, stopped⟩ := judges.undefined self complete undefined
    exact ⟨fault, _, Message.callOn_error stopped class_⟩
  · intro refused
    have never := @judges.never cursor self
    simp only [Message.callOn] at refused
    split at refused
    case h_1 value state left done =>
      cases refused
      exact never _ done
    case h_2 => cases refused

/-- What the parser of a class says of the bytes after the type byte. -/
theorem Message.judged (msg : Message) (cursor : Cursor) :
    (cursor.Complete msg.fields → cursor.Defined msg.fields →
      ∃ left later, msg.parseFromByteArray Cursor.readers cursor = .ok (true, left) later) ∧
    (cursor.Complete msg.fields → ¬ cursor.Defined msg.fields →
      ∃ fault later, msg.parseFromByteArray Cursor.readers cursor = .error fault later) ∧
    ∀ left later, msg.parseFromByteArray Cursor.readers cursor ≠ .ok (false, left) later := by
  cases msg with
  | request self => exact RockRequest.judges.callOn self _
  | response self => exact RockResponse.judges.callOn self _
  | notify self => exact RockNotify.judges.callOn self _

end Classes

section Bodies

namespace Message

/-- What the parser of the class of a message returns on an array with a body, once
the type byte is read. -/
def accepts (msg : Message) (ba : ByteArray) : Except Fault Bool :=
  let parse : ByteArray.Action (Bool × Message) := do
    let _ ← ByteArray.readFUint8
    msg.parseFromByteArray ByteArray.readers
  match parse ba with
  | .ok (ret, _) _ => .ok ret
  | .error fault _ => .error fault

/-- What the decoder makes of an array with a body; none is the null message. -/
def decoded (ba : ByteArray) : Except Fault (Option Message) :=
  match RockMessageDecoder.parseBody ByteArray.readers ba with
  | .ok msg _ => .ok msg
  | .error fault _ => .error fault

/-- A body is judged by its class as it should be: accepted if and only if it is
complete, and otherwise refused, by the decoder too. -/
def JudgedRightly (msg : Message) (complete : Prop) (ba : ByteArray) : Prop :=
  (msg.accepts ba = .ok true ↔ complete) ∧
    (¬ complete → msg.accepts ba = .ok false ∧ decoded ba = .ok none)

variable {endian : Endian} {capacity : Nat} {type : Byte} {body : List Byte} {ba : ByteArray}

/-- A parser says of an array what it says of the bytes after the type byte. -/
theorem accepts_eq (shows : ba.Shows ⟨endian, capacity, [], type :: body⟩) (msg : Message) :
    msg.accepts ba =
      match msg.parseFromByteArray Cursor.readers ⟨endian, capacity, [type], body⟩ with
      | .ok (ret, _) _ => .ok ret
      | .error fault _ => .error fault := by
  obtain ⟨fields, typed, shows⟩ := readFUint8_simulates.ok shows (Cursor.readFUint8_append _)
  rw [List.nil_append] at shows
  have agree := parse_simulates ByteArray.readers_simulate msg shows
  simp only [accepts, bind_ok typed]
  generalize msg.parseFromByteArray ByteArray.readers fields = result at agree
  generalize msg.parseFromByteArray Cursor.readers _ = specResult at agree
  cases agree with
  | ok value states => rfl
  | error fault states => rfl

/-- Whether each of the three classes judges a body rightly: it does exactly if all
the fields are there and no read of a string among them is undefined. A body that
lacks a byte of some field is never refused. -/
theorem judgedRightly_iff (msg : Message)
    (shows : ba.Shows ⟨endian, capacity, [], type :: body⟩) :
    msg.JudgedRightly (Cursor.Complete msg.fields ⟨endian, capacity, [type], body⟩) ba ↔
      Cursor.Complete msg.fields ⟨endian, capacity, [type], body⟩ ∧
        Cursor.Defined msg.fields ⟨endian, capacity, [type], body⟩ := by
  obtain ⟨returns, undefined, never⟩ := msg.judged ⟨endian, capacity, [type], body⟩
  have same := accepts_eq shows msg
  constructor
  · rintro ⟨accepted, refused⟩
    have complete : Cursor.Complete msg.fields ⟨endian, capacity, [type], body⟩ := by
      by_contra incomplete
      have rejects := (refused incomplete).1
      rw [same] at rejects
      split at rejects
      case h_1 ret left later done =>
        cases rejects
        exact never _ _ done
      case h_2 => cases rejects
    refine ⟨complete, ?_⟩
    by_contra bad
    obtain ⟨fault, later, stopped⟩ := undefined complete bad
    have accepts := accepted.mpr complete
    rw [same, stopped] at accepts
    cases accepts
  · rintro ⟨complete, defined⟩
    obtain ⟨left, later, done⟩ := returns complete defined
    rw [done] at same
    exact ⟨iff_of_true same complete, fun incomplete => absurd complete incomplete⟩

end Message

/-- Any bytes are shown from the start by an array that they were written to. -/
theorem ByteArray.shows_written {nodeSize : Nat} (positive : 0 < nodeSize)
    (contents : List Byte) :
    ∃ ba : ByteArray,
      ba.Shows ⟨.big, capacityFor nodeSize contents.length, [], contents⟩ := by
  obtain ⟨ba, -, filled⟩ := (make_filled positive fun _ => 0).write contents
  obtain ⟨start, -, cut⟩ := At.rewind filled
  rw [List.nil_append, List.append_nil] at cut
  exact ⟨start, nodeSize, cut⟩

/-- A notification with one byte of data, in nodes of four bytes, is judged rightly. -/
theorem Message.judgedRightly_notify :
    ∃ ba : ByteArray, ba.Shows ⟨.big, 12, [], [3, 0, 0, 0, 5, 0, 0, 0, 1, 7]⟩ ∧
      (Message.notify {}).JudgedRightly
        (Cursor.Complete [.word, .string] ⟨.big, 12, [3], [0, 0, 0, 5, 0, 0, 0, 1, 7]⟩) ba := by
  obtain ⟨ba, shows⟩ := ByteArray.shows_written (by decide : 0 < 4)
    [3, 0, 0, 0, 5, 0, 0, 0, 1, 7]
  exact ⟨ba, shows, (Message.judgedRightly_iff (.notify {}) shows).mpr (by decide)⟩

/-- A request that ends after its type byte is accepted and returned. -/
theorem Message.accepts_truncated :
    ∃ ba : ByteArray, ba.Shows ⟨.big, 4096, [], [1]⟩ ∧
      (Message.request {}).accepts ba = .ok true ∧
      Message.decoded ba = .ok (some (.request {})) ∧
      ¬ (Message.request {}).JudgedRightly
        (Cursor.Complete (Message.request {}).fields ⟨.big, 4096, [1], []⟩) ba := by
  obtain ⟨ba, shows⟩ := ByteArray.shows_written (by decide : 0 < 4096) [1]
  have accepted : (Message.request {}).accepts ba = .ok true := (accepts_eq shows _).trans rfl
  obtain ⟨later, parsed, -⟩ := (parseBody_simulates ByteArray.readers_simulate).ok shows
    (rfl : RockMessageDecoder.parseBody Cursor.readers ⟨.big, 4096, [], [1]⟩ = .ok _ _)
  have returned : Message.decoded ba = .ok (some (.request {})) := by
    rw [decoded, parsed]
    rfl
  refine ⟨ba, shows, accepted, returned, ?_⟩
  rintro ⟨exact, -⟩
  exact absurd (exact.mp accepted) (by decide)

end Bodies

end Xten
