import Xten.Std.Delimiters
import Xten.Rock.Parsing

/-!
# Messages come back as they were sent

The encoding of a message, what its parser makes of it, and the condition under
which that is the message again: a string is cut at its first zero byte, a length of
all ones wraps the size of the local buffer, and an empty string that ends a full
node is read through a null pointer.
-/

namespace Xten

open Std.Delimiters Std.IntegerCodec Std.Programs
open Xten.ByteArray (fixedBytes length_fixedBytes Writes Filled writes_fixed cString)

section Steps

variable {σ α Object Part : Type} {state later last : σ}

theorem assign_ok {read : EStateM Fault σ α} {value : α} (done : read state = .ok value later)
    (set : α → Object → Object) (self : Object) :
    assign read set (state, self) = .ok () (later, set value self) := by
  simp only [assign, done]

theorem assign_error {read : EStateM Fault σ α} {fault : Fault}
    (stopped : read state = .error fault later) (set : α → Object → Object) (self : Object) :
    assign read set (state, self) = .error fault (later, self) := by
  simp only [assign, stopped]

theorem onBase_ok {base : Object → Part} {set : Part → Object → Object} {self : Object}
    {method : EStateM Fault (σ × Part) α} {value : α} {part : Part}
    (done : method (state, base self) = .ok value (later, part)) :
    onBase base set method (state, self) = .ok value (later, set part self) := by
  simp only [onBase, done]

theorem onBase_error {base : Object → Part} {set : Part → Object → Object} {self : Object}
    {method : EStateM Fault (σ × Part) α} {fault : Fault} {part : Part}
    (stopped : method (state, base self) = .error fault (later, part)) :
    onBase base set method (state, self) = .error fault (later, set part self) := by
  simp only [onBase, stopped]

variable {message body : EStateM Fault σ Bool}

theorem tryBoth_ok {first second : Bool} (head : message state = .ok first later)
    (tail : body later = .ok second last) :
    tryBoth message body state = .ok (first && second) last := by
  simp only [tryBoth, head, tail]

/-- An undefined step in the first method is one of both. -/
theorem tryBoth_first {fault : Fault} (stopped : message state = .error fault later)
    (undefined : fault.isException = false) :
    tryBoth message body state = .error fault later := by
  simp only [tryBoth, stopped, undefined, Bool.false_eq_true, if_false]

theorem tryBoth_second {first : Bool} {fault : Fault} (head : message state = .ok first later)
    (stopped : body later = .error fault last) (undefined : fault.isException = false) :
    tryBoth message body state = .error fault last := by
  simp only [tryBoth, head, stopped, undefined, Bool.false_eq_true, if_false]

end Steps

section Encodings

/-- A string with its length in front. -/
def stringBytes (str : List Byte) (endian : Endian) : List Byte :=
  fixedBytes 4 (BitVec.ofNat 32 str.length) endian ++ str

theorem length_stringBytes (str : List Byte) (endian : Endian) :
    (stringBytes str endian).length = 4 + str.length := by
  rw [stringBytes, List.length_append, length_fixedBytes]

theorem writes_byte (byte : Byte) :
    Writes (ByteArray.writeFUint8 byte) () fun _ => [byte] := by
  have single : memory 1 byte = [byte] := by simp [memory]
  have writes := Writes.write (memory 1 byte)
  rwa [single] at writes

theorem writes_word (val : BitVec 32) :
    Writes (ByteArray.writeFUint32 val) () (fixedBytes 4 val) :=
  writes_fixed 4 val

theorem writes_string (str : List Byte) :
    Writes (ByteArray.writeStringF32 str) () (stringBytes str) :=
  (writes_word _).bind (Writes.write str)

def Request.encoded (self : Request) (endian : Endian) : List Byte :=
  fixedBytes 4 self.sn endian ++ fixedBytes 4 self.cmd endian

def Response.encoded (self : Response) (endian : Endian) : List Byte :=
  fixedBytes 4 self.sn endian ++ (fixedBytes 4 self.cmd endian ++
    (fixedBytes 4 self.result endian ++ stringBytes self.resultString endian))

def Notify.encoded (self : Notify) (endian : Endian) : List Byte :=
  fixedBytes 4 self.notify endian

/-- The bytes of a message after its type byte. -/
def Message.encoded : Message → Endian → List Byte
  | .request self => fun endian => self.toRequest.encoded endian ++ stringBytes self.data endian
  | .response self => fun endian => self.toResponse.encoded endian ++ stringBytes self.data endian
  | .notify self => fun endian => self.toNotify.encoded endian ++ stringBytes self.data endian

theorem writes_tryBoth {message body : ByteArray.Action Bool} {head tail : Endian → List Byte}
    (first : Writes message true head) (second : Writes body true tail) :
    Writes (tryBoth message body) true fun endian => head endian ++ tail endian := by
  intro endian nodeSize contents ba filled
  obtain ⟨middle, done, filled⟩ := first filled
  obtain ⟨later, again, filled⟩ := second filled
  refine ⟨later, tryBoth_ok done again, ?_⟩
  rwa [← List.append_assoc]

theorem RockBody.writes (self : RockBody) :
    Writes self.serializeToByteArray true (stringBytes self.data) := by
  have writes := (writes_string self.data).seq (Writes.pure true)
  simp only [List.append_nil] at writes
  exact writes

/-- The encoders write the type byte and the fields. -/
theorem Message.writes (msg : Message) :
    Writes msg.serializeToByteArray true fun endian =>
      msg.getMessageType.toByte :: msg.encoded endian := by
  cases msg with
  | request self =>
      have base := (writes_byte MessageType.request.toByte).seq
        ((writes_word self.sn).seq ((writes_word self.cmd).seq (Writes.pure true)))
      have writes := writes_tryBoth base self.toRockBody.writes
      simp only [List.append_nil, List.cons_append] at writes
      exact writes
  | response self =>
      have base := (writes_byte MessageType.response.toByte).seq
        ((writes_word self.sn).seq ((writes_word self.cmd).seq ((writes_word self.result).seq
          ((writes_string self.resultString).seq (Writes.pure true)))))
      have writes := writes_tryBoth base self.toRockBody.writes
      simp only [List.append_nil, List.cons_append] at writes
      exact writes
  | notify self =>
      have base := (writes_byte MessageType.notify.toByte).seq
        ((writes_word self.notify).seq (Writes.pure true))
      have writes := writes_tryBoth base self.toRockBody.writes
      simp only [List.append_nil, List.cons_append] at writes
      exact writes

end Encodings

section Reads

variable {endian : Endian} {capacity : Nat} {before rest : List Byte}

theorem Cursor.readFixed_append (count : Nat) (some : 0 < count) (val : BitVec (8 * count)) :
    Cursor.readFixed count ⟨endian, capacity, before, fixedBytes count val endian ++ rest⟩ =
      .ok val ⟨endian, capacity, before ++ fixedBytes count val endian, rest⟩ := by
  have full : fixedBytes count val endian = [] → before.length ≠ capacity := by
    intro none
    have length := length_fixedBytes count val endian
    rw [none] at length
    exact absurd length some.ne
  have taken : Cursor.read (fixedBytes count val endian).length
      ⟨endian, capacity, before, fixedBytes count val endian ++ rest⟩ =
        .ok (fixedBytes count val endian)
          ⟨endian, capacity, before ++ fixedBytes count val endian, rest⟩ :=
    Cursor.read_append full
  rw [length_fixedBytes] at taken
  rw [Cursor.readFixed, bind_ok taken, get_bind, fixedBytes, ofMemory_memory]
  by_cases other : endian ≠ ByteArray.byteOrder
  · simp only [if_pos other, byteSwap_byteSwap]
    rfl
  · simp only [if_neg other]
    rfl

theorem Cursor.readFUint32_append (val : BitVec 32) :
    Cursor.readFUint32 ⟨endian, capacity, before, fixedBytes 4 val endian ++ rest⟩ =
      .ok val ⟨endian, capacity, before ++ fixedBytes 4 val endian, rest⟩ :=
  Cursor.readFixed_append 4 (by decide) val

/-- No step of the read of a string is undefined. -/
def ReadsSoundly (capacity start : Nat) (str : List Byte) : Prop :=
  str.length + 1 ≠ 2 ^ 32 ∧ (str = [] → start + 4 ≠ capacity)

/-- The length in front of a string makes the size of the buffer wrap for one length. -/
theorem length_wraps {str : List Byte} (fits : str.length < 2 ^ 32) :
    BitVec.ofNat 32 str.length + 1 = 0 ↔ str.length + 1 = 2 ^ 32 := by
  rw [← BitVec.toNat_inj, BitVec.toNat_add, BitVec.toNat_ofNat]
  change (str.length % 2 ^ 32 + 1) % 2 ^ 32 = 0 ↔ _
  omega

theorem Cursor.readStringF32_append {str : List Byte} (fits : str.length < 2 ^ 32)
    (sound : ReadsSoundly capacity before.length str) :
    Cursor.readStringF32 ⟨endian, capacity, before, stringBytes str endian ++ rest⟩ =
      .ok (cString str) ⟨endian, capacity, before ++ stringBytes str endian, rest⟩ := by
  have length : (BitVec.ofNat 32 str.length).toNat = str.length := Nat.mod_eq_of_lt fits
  have node : str = [] →
      (before ++ fixedBytes 4 (BitVec.ofNat 32 str.length) endian).length ≠ capacity := by
    intro none
    rw [List.length_append, length_fixedBytes]
    exact sound.2 none
  rw [Cursor.readStringF32, stringBytes, List.append_assoc, bind_ok (Cursor.readFUint32_append _),
    if_neg (mt (length_wraps fits).mp sound.1), length, bind_ok (Cursor.read_append node),
    List.append_assoc]
  rfl

theorem Cursor.readStringF32_unsound {str : List Byte} (fits : str.length < 2 ^ 32)
    (unsound : ¬ ReadsSoundly capacity before.length str) :
    ∃ fault later, Cursor.readStringF32
        ⟨endian, capacity, before, stringBytes str endian ++ rest⟩ = .error fault later ∧
      fault.isException = false := by
  have length : (BitVec.ofNat 32 str.length).toNat = str.length := Nat.mod_eq_of_lt fits
  rw [Cursor.readStringF32, stringBytes, List.append_assoc, bind_ok (Cursor.readFUint32_append _)]
  by_cases wraps : BitVec.ofNat 32 str.length + 1 = 0
  · rw [if_pos wraps]
    exact ⟨_, _, rfl, rfl⟩
  · obtain ⟨none, full⟩ : str = [] ∧ before.length + 4 = capacity := by
      by_contra other
      exact unsound ⟨mt (length_wraps fits).mpr wraps, fun none full => other ⟨none, full⟩⟩
    rw [if_neg wraps, length, none]
    have stopped : ∀ later, Cursor.read 0 ⟨endian, capacity,
        before ++ fixedBytes 4 (BitVec.ofNat 32 0) endian, later⟩ = .error .nullNode
          ⟨endian, capacity, before ++ fixedBytes 4 (BitVec.ofNat 32 0) endian, later⟩ := by
      intro later
      rw [Cursor.read, if_neg (Nat.not_lt_zero _), if_pos]
      simp [length_fixedBytes, full]
    exact ⟨_, _, bind_error (stopped _), rfl⟩

variable {Object : Type}

theorem assign_word (val : BitVec 32) (set : BitVec 32 → Object → Object) (self : Object) :
    assign Cursor.readers.readFUint32 set
        (⟨endian, capacity, before, fixedBytes 4 val endian ++ rest⟩, self) =
      .ok () (⟨endian, capacity, before ++ fixedBytes 4 val endian, rest⟩, set val self) :=
  assign_ok (Cursor.readFUint32_append val) set self

theorem assign_string {str : List Byte} (fits : str.length < 2 ^ 32)
    (sound : ReadsSoundly capacity before.length str) (set : List Byte → Object → Object)
    (self : Object) :
    assign Cursor.readers.readStringF32 set
        (⟨endian, capacity, before, stringBytes str endian ++ rest⟩, self) =
      .ok () (⟨endian, capacity, before ++ stringBytes str endian, rest⟩,
        set (cString str) self) :=
  assign_ok (Cursor.readStringF32_append fits sound) set self

theorem Request.parse_encoded (self old : Request) :
    Request.parseFromByteArray Cursor.readers
        (⟨endian, capacity, before, self.encoded endian ++ rest⟩, old) =
      .ok true (⟨endian, capacity, before ++ self.encoded endian, rest⟩, self) := by
  rw [Request.parseFromByteArray, Request.encoded, List.append_assoc,
    bind_ok (assign_word _ _ _), bind_ok (assign_word _ _ _), List.append_assoc]
  rfl

theorem Notify.parse_encoded (self old : Notify) :
    Notify.parseFromByteArray Cursor.readers
        (⟨endian, capacity, before, self.encoded endian ++ rest⟩, old) =
      .ok true (⟨endian, capacity, before ++ self.encoded endian, rest⟩, self) := by
  rw [Notify.parseFromByteArray, Notify.encoded, bind_ok (assign_word _ _ _)]
  rfl

/-- The words in front of the result string. -/
def Response.words (self : Response) (endian : Endian) : List Byte :=
  fixedBytes 4 self.sn endian ++ (fixedBytes 4 self.cmd endian ++ fixedBytes 4 self.result endian)

theorem Response.parse_words (self old : Response) :
    Response.parseFromByteArray Cursor.readers
        (⟨endian, capacity, before, self.words endian ++ rest⟩, old) =
      (do
        assign Cursor.readers.readStringF32 fun value self => { self with resultString := value }
        return true : EStateM Fault (Cursor × Response) Bool)
        (⟨endian, capacity, before ++ self.words endian, rest⟩,
          { self with resultString := old.resultString }) := by
  simp only [Response.parseFromByteArray, Response.words, List.append_assoc]
  rw [bind_ok (assign_word _ _ _), bind_ok (assign_word _ _ _), bind_ok (assign_word _ _ _)]
  simp only [List.append_assoc]

theorem Response.encoded_eq (self : Response) (endian : Endian) :
    self.encoded endian = self.words endian ++ stringBytes self.resultString endian := by
  simp only [Response.encoded, Response.words, List.append_assoc]

theorem Response.parse_encoded (self old : Response) (fits : self.resultString.length < 2 ^ 32)
    (sound : ReadsSoundly capacity (before.length + 12) self.resultString) :
    Response.parseFromByteArray Cursor.readers
        (⟨endian, capacity, before, self.encoded endian ++ rest⟩, old) =
      .ok true (⟨endian, capacity, before ++ self.encoded endian, rest⟩,
        { self with resultString := cString self.resultString }) := by
  have start : (before ++ self.words endian).length = before.length + 12 := by
    simp [Response.words, length_fixedBytes]
  rw [← start] at sound
  rw [Response.encoded_eq, List.append_assoc, Response.parse_words,
    bind_ok (assign_string fits sound _ _), List.append_assoc]
  rfl

theorem Response.parse_unsound (self old : Response) (fits : self.resultString.length < 2 ^ 32)
    (unsound : ¬ ReadsSoundly capacity (before.length + 12) self.resultString) :
    ∃ fault later, Response.parseFromByteArray Cursor.readers
        (⟨endian, capacity, before, self.encoded endian ++ rest⟩, old) = .error fault later ∧
      fault.isException = false := by
  have start : (before ++ self.words endian).length = before.length + 12 := by
    simp [Response.words, length_fixedBytes]
  rw [← start] at unsound
  obtain ⟨fault, later, stopped, undefined⟩ := Cursor.readStringF32_unsound fits unsound
  rw [Response.encoded_eq, List.append_assoc, Response.parse_words]
  exact ⟨fault, _, bind_error (assign_error stopped _ _), undefined⟩

theorem RockBody.parse_encoded (self old : RockBody) (fits : self.data.length < 2 ^ 32)
    (sound : ReadsSoundly capacity before.length self.data) :
    RockBody.parseFromByteArray Cursor.readers
        (⟨endian, capacity, before, stringBytes self.data endian ++ rest⟩, old) =
      .ok true (⟨endian, capacity, before ++ stringBytes self.data endian, rest⟩,
        ⟨cString self.data⟩) := by
  rw [RockBody.parseFromByteArray, bind_ok (assign_string fits sound _ _)]
  rfl

theorem RockBody.parse_unsound (self old : RockBody) (fits : self.data.length < 2 ^ 32)
    (unsound : ¬ ReadsSoundly capacity before.length self.data) :
    ∃ fault later, RockBody.parseFromByteArray Cursor.readers
        (⟨endian, capacity, before, stringBytes self.data endian ++ rest⟩, old) =
          .error fault later ∧ fault.isException = false := by
  obtain ⟨fault, later, stopped, undefined⟩ := Cursor.readStringF32_unsound fits unsound
  exact ⟨fault, _, bind_error (assign_error stopped _ _), undefined⟩

end Reads

namespace Message

/-- The strings of a message are shorter than their length prefixes allow. -/
def Fits : Message → Prop
  | .request self => self.data.length < 2 ^ 32
  | .response self => self.resultString.length < 2 ^ 32 ∧ self.data.length < 2 ^ 32
  | .notify self => self.data.length < 2 ^ 32

/-- No read of a string of a message is undefined, where its fields start at a
position in an array of some capacity. -/
def Sound (capacity start : Nat) : Message → Prop
  | .request self => ReadsSoundly capacity (start + 8) self.data
  | .response self => ReadsSoundly capacity (start + 12) self.resultString ∧
      ReadsSoundly capacity (start + 16 + self.resultString.length) self.data
  | .notify self => ReadsSoundly capacity (start + 4) self.data

/-- The message with its strings cut at their first zero bytes. -/
def cut : Message → Message
  | .request self => .request { self with data := cString self.data }
  | .response self => .response { self with
      resultString := cString self.resultString, data := cString self.data }
  | .notify self => .notify { self with data := cString self.data }

variable {endian : Endian} {capacity : Nat} {before rest : List Byte}

theorem callOn_ok {σ α Object : Type} {method : EStateM Fault (σ × Object) α} {state later : σ}
    {self left : Object} {value : α} (done : method (state, self) = .ok value (later, left))
    (class_ : Object → Message) :
    callOn method self class_ state = .ok (value, class_ left) later := by
  simp only [callOn, done]

theorem callOn_error {σ α Object : Type} {method : EStateM Fault (σ × Object) α} {state : σ}
    {self : Object} {fault : Fault} {later : σ × Object}
    (stopped : method (state, self) = .error fault later) (class_ : Object → Message) :
    callOn method self class_ state = .error fault later.1 := by
  simp only [callOn, stopped]

theorem length_request (before : List Byte) (endian : Endian) (self : Request) :
    (before ++ self.encoded endian).length = before.length + 8 := by
  simp [Request.encoded, length_fixedBytes]

theorem length_notify (before : List Byte) (endian : Endian) (self : Notify) :
    (before ++ self.encoded endian).length = before.length + 4 := by
  simp [Notify.encoded, length_fixedBytes]

theorem length_response (before : List Byte) (endian : Endian) (self : Response) :
    (before ++ self.encoded endian).length = before.length + 16 + self.resultString.length := by
  simp only [Response.encoded, List.length_append, length_fixedBytes, length_stringBytes]
  omega

/-- A parser takes the encoding of a message of its class, and cuts its strings. -/
theorem parse_encoded (endian : Endian) (before rest : List Byte) (msg old : Message)
    (same : old.getMessageType = msg.getMessageType)
    (fits : msg.Fits) (sound : msg.Sound capacity before.length) :
    old.parseFromByteArray Cursor.readers
        ⟨endian, capacity, before, msg.encoded endian ++ rest⟩ =
      .ok (true, msg.cut) ⟨endian, capacity, before ++ msg.encoded endian, rest⟩ := by
  cases msg with
  | request self =>
      cases old <;> cases same
      simp only [Sound, ← length_request before endian self.toRequest] at sound
      simp only [encoded, ← List.append_assoc]
      rw [List.append_assoc]
      exact callOn_ok (tryBoth_ok (onBase_ok (Request.parse_encoded _ _))
        (onBase_ok (RockBody.parse_encoded _ _ fits sound))) _
  | response self =>
      cases old <;> cases same
      obtain ⟨resultFits, dataFits⟩ := fits
      obtain ⟨resultSound, dataSound⟩ := sound
      rw [← length_response before endian self.toResponse] at dataSound
      simp only [encoded, ← List.append_assoc]
      rw [List.append_assoc]
      exact callOn_ok (tryBoth_ok (onBase_ok (Response.parse_encoded _ _ resultFits resultSound))
        (onBase_ok (RockBody.parse_encoded _ _ dataFits dataSound))) _
  | notify self =>
      cases old <;> cases same
      simp only [Sound, ← length_notify before endian self.toNotify] at sound
      simp only [encoded, ← List.append_assoc]
      rw [List.append_assoc]
      exact callOn_ok (tryBoth_ok (onBase_ok (Notify.parse_encoded _ _))
        (onBase_ok (RockBody.parse_encoded _ _ fits sound))) _

theorem parse_unsound (endian : Endian) (before rest : List Byte) (msg old : Message)
    (same : old.getMessageType = msg.getMessageType)
    (fits : msg.Fits) (unsound : ¬ msg.Sound capacity before.length) :
    ∃ fault later, old.parseFromByteArray Cursor.readers
        ⟨endian, capacity, before, msg.encoded endian ++ rest⟩ = .error fault later := by
  cases msg with
  | request self =>
      cases old <;> cases same
      simp only [Sound, ← length_request before endian self.toRequest] at unsound
      obtain ⟨fault, later, stopped, undefined⟩ := RockBody.parse_unsound _ _ fits unsound
      simp only [encoded, List.append_assoc]
      exact ⟨fault, _, callOn_error (tryBoth_second (onBase_ok (Request.parse_encoded _ _))
        (onBase_error stopped) undefined) _⟩
  | response self =>
      cases old <;> cases same
      obtain ⟨resultFits, dataFits⟩ := fits
      simp only [encoded, List.append_assoc]
      by_cases resultSound : ReadsSoundly capacity (before.length + 12) self.resultString
      · have dataUnsound := fun dataSound => unsound ⟨resultSound, dataSound⟩
        rw [← length_response before endian self.toResponse] at dataUnsound
        obtain ⟨fault, later, stopped, undefined⟩ :=
          RockBody.parse_unsound _ _ dataFits dataUnsound
        exact ⟨fault, _, callOn_error (tryBoth_second
          (onBase_ok (Response.parse_encoded _ _ resultFits resultSound))
          (onBase_error stopped) undefined) _⟩
      · obtain ⟨fault, later, stopped, undefined⟩ :=
          Response.parse_unsound _ _ resultFits resultSound
        exact ⟨fault, _, callOn_error (tryBoth_first (onBase_error stopped) undefined) _⟩
  | notify self =>
      cases old <;> cases same
      simp only [Sound, ← length_notify before endian self.toNotify] at unsound
      obtain ⟨fault, later, stopped, undefined⟩ := RockBody.parse_unsound _ _ fits unsound
      simp only [encoded, List.append_assoc]
      exact ⟨fault, _, callOn_error (tryBoth_second (onBase_ok (Notify.parse_encoded _ _))
        (onBase_error stopped) undefined) _⟩

/-- The message made of the bytes that `ToByteArray` gives, by a new object of its
class, with the value that its parser returns; none if `ToByteArray` gives null. -/
def reparse (msg : Message) (fresh : Nat → Byte) : Except Fault (Option (Bool × Message)) :=
  match msg.toByteArray fresh with
  | .error fault => .error fault
  | .ok none => .ok none
  | .ok (some ba) =>
      let parse : ByteArray.Action (Bool × Message) := do
        ByteArray.setPosition 0
        let _ ← ByteArray.readFUint8
        msg.blank.parseFromByteArray ByteArray.readers
      match parse ba with
      | .ok result _ => .ok (some result)
      | .error fault _ => .error fault

/-- Capacity of the array that `ToByteArray` fills. -/
def bodyCapacity (msg : Message) : Nat :=
  capacityFor defaultNodeSize (1 + (msg.encoded .big).length)

theorem blank_type (msg : Message) : msg.blank.getMessageType = msg.getMessageType := by
  cases msg <;> rfl

/-- `ToByteArray` fills an array with the type byte and the encoding. -/
theorem toByteArray_filled (msg : Message) (fresh : Nat → Byte) :
    ∃ ba, msg.toByteArray fresh = .ok (some ba) ∧
      Filled .big defaultNodeSize (msg.getMessageType.toByte :: msg.encoded .big) ba := by
  have positive : 0 < defaultNodeSize := by decide
  obtain ⟨ba, wrote, filled⟩ := msg.writes (ByteArray.make_filled positive fresh)
  refine ⟨ba, ?_, filled⟩
  simp only [toByteArray, wrote, if_true]

/-- The array that `ToByteArray` gives shows the encoding from the start, once the
position is reset. -/
theorem toByteArray_eq (msg : Message) (fresh : Nat → Byte) :
    ∃ ba start, msg.toByteArray fresh = .ok (some ba) ∧ ByteArray.setPosition 0 ba = .ok () start ∧
      start.Shows ⟨.big, msg.bodyCapacity, [], msg.getMessageType.toByte :: msg.encoded .big⟩ := by
  obtain ⟨ba, made, filled⟩ := msg.toByteArray_filled fresh
  obtain ⟨start, moved, cut⟩ := ByteArray.At.rewind filled
  refine ⟨ba, start, made, moved, defaultNodeSize, ?_⟩
  rw [List.append_nil] at cut
  rw [bodyCapacity, Nat.add_comm, ← List.length_cons]
  exact cut

/-- What comes back: the message with its strings cut, or an undefined step. -/
theorem reparse_eq (msg : Message) (fresh : Nat → Byte) (fits : msg.Fits) :
    (msg.Sound msg.bodyCapacity 1 → msg.reparse fresh = .ok (some (true, msg.cut))) ∧
      (¬ msg.Sound msg.bodyCapacity 1 → ∃ fault, msg.reparse fresh = .error fault) := by
  obtain ⟨ba, start, made, moved, shows⟩ := msg.toByteArray_eq fresh
  obtain ⟨fields, typed, shows⟩ := readFUint8_simulates.ok shows (Cursor.readFUint8_append _)
  have simulates := Message.parse_simulates ByteArray.readers_simulate msg.blank
  rw [List.nil_append] at shows
  constructor
  · intro sound
    have parsed := parse_encoded .big [msg.getMessageType.toByte] [] msg msg.blank msg.blank_type fits
      sound
    rw [List.append_nil] at parsed
    obtain ⟨later, done, -⟩ := simulates.ok shows parsed
    simp only [reparse, made, bind_ok moved, bind_ok typed, done]
  · intro unsound
    obtain ⟨fault, last, stopped⟩ := parse_unsound .big [msg.getMessageType.toByte] [] msg msg.blank
      msg.blank_type fits unsound
    rw [List.append_nil] at stopped
    obtain ⟨later, stopped, -⟩ := simulates.error shows stopped
    exact ⟨fault, by simp only [reparse, made, bind_ok moved, bind_ok typed, stopped]⟩

end Message

section Clean

/-- A string without zero bytes, and not of the length that wraps. -/
def Plain (str : List Byte) : Prop :=
  0 ∉ str ∧ str.length + 1 ≠ 2 ^ 32

/-- The messages that come back: their strings are plain, and in a response without
data the result string does not end a node. -/
def Message.Clean : Message → Prop
  | .request self => Plain self.data
  | .response self => Plain self.resultString ∧ Plain self.data ∧
      (self.data = [] → ¬ 4096 ∣ 21 + self.resultString.length)
  | .notify self => Plain self.data

theorem cString_eq_iff (str : List Byte) : cString str = str ↔ 0 ∉ str :=
  ⟨absent_of_takeWhile, takeWhile_absent⟩

theorem capacityFor_eq_iff {nodeSize length : Nat} (positive : 0 < nodeSize) (some : 0 < length) :
    length = capacityFor nodeSize length ↔ nodeSize ∣ length := by
  constructor
  · intro full
    rw [full]
    exact Nat.dvd_mul_right _ _
  · rintro ⟨nodes, rfl⟩
    have least : 0 < nodes := Nat.pos_of_mul_pos_left some
    have quotient : (nodeSize * nodes + nodeSize - 1) / nodeSize = nodes := by
      rw [Nat.add_sub_assoc positive, Nat.mul_add_div positive, Nat.div_eq_of_lt (by omega),
        Nat.add_zero]
    rw [capacityFor, quotient, max_eq_right least]

/-- A position that is not a multiple of the node size is not the capacity. -/
theorem ne_capacityFor {nodeSize position : Nat} (within : ¬ nodeSize ∣ position) (length : Nat) :
    position ≠ capacityFor nodeSize length := by
  rintro rfl
  exact within (Nat.dvd_mul_right _ _)

/-- A string that ends the encoding is read soundly, but for its length and the end of
a node. -/
theorem readsSoundly_last (start : Nat) (str : List Byte) :
    ReadsSoundly (capacityFor 4096 (start + 4 + str.length)) start str ↔
      str.length + 1 ≠ 2 ^ 32 ∧ (str = [] → ¬ 4096 ∣ start + 4) := by
  refine and_congr_right fun _ => forall_congr' ?_
  rintro rfl
  exact (capacityFor_eq_iff (by decide) (Nat.succ_pos _)).not

/-- A string that ends the encoding, at a position within a node. -/
theorem readsSoundly_within {start : Nat} {str : List Byte} (within : ¬ 4096 ∣ start + 4) :
    ReadsSoundly (capacityFor 4096 (start + 4 + str.length)) start str ↔
      str.length + 1 ≠ 2 ^ 32 := by
  rw [readsSoundly_last]
  exact and_iff_left fun _ => within

theorem Message.sound_and_uncut_iff (msg : Message) :
    (msg.Sound msg.bodyCapacity 1 ∧ msg.cut = msg) ↔ msg.Clean := by
  cases msg with
  | request self =>
      obtain ⟨base, data⟩ := self
      have length : 1 + ((Message.request ⟨base, data⟩).encoded .big).length =
          1 + 8 + 4 + data.data.length := by
        simp only [encoded, Request.encoded, List.length_append, length_fixedBytes,
          length_stringBytes]
        omega
      rw [Sound, bodyCapacity, length, defaultNodeSize, readsSoundly_within (by decide)]
      simp [cut, Clean, Plain, RockBody.ext_iff, cString_eq_iff, and_comm]
  | notify self =>
      obtain ⟨base, data⟩ := self
      have length : 1 + ((Message.notify ⟨base, data⟩).encoded .big).length =
          1 + 4 + 4 + data.data.length := by
        simp only [encoded, Notify.encoded, List.length_append, length_fixedBytes,
          length_stringBytes]
        omega
      rw [Sound, bodyCapacity, length, defaultNodeSize, readsSoundly_within (by decide)]
      simp [cut, Clean, Plain, RockBody.ext_iff, cString_eq_iff, and_comm]
  | response self =>
      obtain ⟨base, data⟩ := self
      have length : 1 + ((Message.response ⟨base, data⟩).encoded .big).length =
          1 + 16 + base.resultString.length + 4 + data.data.length := by
        simp only [encoded, Response.encoded, List.length_append, length_fixedBytes,
          length_stringBytes]
        omega
      have first : ReadsSoundly (capacityFor 4096
          (1 + 16 + base.resultString.length + 4 + data.data.length)) (1 + 12) base.resultString ↔
            base.resultString.length + 1 ≠ 2 ^ 32 :=
        and_iff_left fun _ => ne_capacityFor (by decide) _
      have ends : 1 + 16 + base.resultString.length + 4 = 21 + base.resultString.length := by
        omega
      rw [Sound, bodyCapacity, length, defaultNodeSize, first, readsSoundly_last, ends]
      simp only [cut, Clean, Plain, Message.response.injEq, RockResponse.mk.injEq,
        Response.ext_iff, RockBody.ext_iff, cString_eq_iff]
      tauto

/-- A message comes back from its encoding, in every field, exactly if it is clean. -/
theorem Message.reparse_eq_iff (msg : Message) (fresh : Nat → Byte) (fits : msg.Fits) :
    msg.reparse fresh = .ok (some (true, msg)) ↔ msg.Clean := by
  obtain ⟨sound, unsound⟩ := msg.reparse_eq fresh fits
  rw [← msg.sound_and_uncut_iff]
  constructor
  · intro same
    by_cases safe : msg.Sound msg.bodyCapacity 1
    · have back := sound safe
      rw [same] at back
      simp only [Except.ok.injEq, Option.some.injEq, Prod.mk.injEq, true_and] at back
      exact ⟨safe, back.symm⟩
    · obtain ⟨fault, stopped⟩ := unsound safe
      rw [stopped] at same
      cases same
  · rintro ⟨safe, uncut⟩
    have back := sound safe
    rwa [uncut] at back

/-- A notification with one byte of data comes back. -/
theorem Message.reparse_notify :
    (Message.notify { notify := 5, data := [7] }).Fits ∧
      (Message.notify { notify := 5, data := [7] }).reparse (fun _ => 0) =
        .ok (some (true, .notify { notify := 5, data := [7] })) := by
  have fits : (Message.notify { notify := 5, data := [7] }).Fits := by
    simp [Fits]
  have clean : (Message.notify { notify := 5, data := [7] }).Clean := by
    simp [Clean, Plain]
  exact ⟨fits, (Message.reparse_eq_iff _ _ fits).mpr clean⟩

/-- The data of a request ends at its zero byte. -/
theorem Message.reparse_zero_byte :
    (Message.request { data := [97, 0, 98] }).reparse (fun _ => 0) =
        .ok (some (true, .request { data := [97] })) ∧
      (Message.request { data := [97, 0, 98] }).reparse (fun _ => 0) ≠
        .ok (some (true, .request { data := [97, 0, 98] })) := by
  have back := ((Message.request { data := [97, 0, 98] }).reparse_eq (fun _ => 0)
    (by simp [Fits])).1 ⟨by decide, by simp⟩
  have cut : (Message.request { data := [97, 0, 98] }).cut = .request { data := [97] } := by
    decide
  rw [cut] at back
  refine ⟨back, ?_⟩
  rw [back]
  decide

end Clean

end Xten
