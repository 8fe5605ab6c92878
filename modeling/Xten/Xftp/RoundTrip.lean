import Xten.Rock.BodyRoundTrip
import Xten.Xftp.Escapes

/-!
# Xftp messages come back as they were sent

The encoders of the two classes, what their parsers make of an encoding, and the condition under
which that is the message again. A file chunk with a zero byte in it comes back cut there.
-/

namespace Xten.Xftp

open Std.IntegerCodec Std.Programs
open Xten.ByteArray (Action fixedBytes length_fixedBytes Writes Filled writes_fixed cString
  writeFUint8 writeFUint32 writeFUint64 writeStringF32)

section Encoders

/-- The lines that the two encoders have in common. -/
def Part.serializeToByteArray (self : Part) : Action Unit := do
  writeStringF32 self.md5
  writeStringF32 self.name
  writeFUint64 self.transSize
  writeFUint64 self.totalSize
  writeFUint8 self.last
  writeFUint32 self.lastSn
  writeStringF32 self.data

def XftpRequest.serializeToByteArray (self : XftpRequest) : Action Bool := do
  let ret ← self.toRequest.serializeToByteArray .request
  self.toPart.serializeToByteArray
  return ret

def XftpResponse.serializeToByteArray (self : XftpResponse) : Action Bool := do
  let ret ← self.toResponse.serializeToByteArray .response
  self.toPart.serializeToByteArray
  return ret

namespace Message

/-- `GetMessageType`. -/
def getMessageType : Message → MessageType
  | .request _ => .request
  | .response _ => .response

def serializeToByteArray : Message → Action Bool
  | .request self => self.serializeToByteArray
  | .response self => self.serializeToByteArray

/-- A message is written to an array in a byte order, the type byte is read again, and an object
parses the rest. -/
def roundTrip (msg old : Message) (little : Bool) : Action (Bool × Message) := do
  ByteArray.setLittleEndian little
  let _ ← msg.serializeToByteArray
  ByteArray.setPosition 0
  let _ ← ByteArray.readFUint8
  old.parseFromByteArray readers

/-- The fields that both classes have. -/
def part : Message → Part
  | .request self => self.toPart
  | .response self => self.toPart

/-- The string fields. -/
def strings : Message → List (List Byte)
  | .request self => [self.md5, self.name, self.data]
  | .response self => [self.resultString, self.md5, self.name, self.data]

/-- The strings of a message are shorter than their length prefixes allow. -/
def Fits (msg : Message) : Prop :=
  ∀ str ∈ msg.strings, str.length < 2 ^ 32

end Message

end Encoders

section Encodings

/-- The numbers between the name and the data. -/
def Part.words (self : Part) (endian : Endian) : List Byte :=
  fixedBytes 8 self.transSize endian ++ (fixedBytes 8 self.totalSize endian ++
    ([self.last] ++ fixedBytes 4 self.lastSn endian))

def Part.encoded (self : Part) (endian : Endian) : List Byte :=
  stringBytes self.md5 endian ++ (stringBytes self.name endian ++
    (self.words endian ++ stringBytes self.data endian))

/-- The bytes of a message after its type byte. -/
def Message.encoded : Message → Endian → List Byte
  | .request self => fun endian => self.toRequest.encoded endian ++ self.toPart.encoded endian
  | .response self => fun endian => self.toResponse.encoded endian ++ self.toPart.encoded endian

theorem Part.length_words (self : Part) (endian : Endian) : (self.words endian).length = 21 := by
  simp [Part.words, length_fixedBytes]

theorem Part.length_encoded (self : Part) (endian : Endian) : (self.encoded endian).length =
    4 + self.md5.length + (4 + self.name.length) + 21 + (4 + self.data.length) := by
  simp only [Part.encoded, List.length_append, length_stringBytes, Part.length_words]
  omega

theorem writes_wide (val : BitVec 64) : Writes (writeFUint64 val) () (fixedBytes 8 val) :=
  writes_fixed 8 val

theorem Part.writes (self : Part) : Writes self.serializeToByteArray () self.encoded := by
  have writes := (writes_string self.md5).seq ((writes_string self.name).seq
    ((writes_wide self.transSize).seq ((writes_wide self.totalSize).seq
      ((writes_byte self.last).seq ((writes_word self.lastSn).seq (writes_string self.data))))))
  intro endian nodeSize contents ba filled
  obtain ⟨later, wrote, filled⟩ := writes filled
  refine ⟨later, wrote, ?_⟩
  simpa only [Part.encoded, Part.words, List.append_assoc] using filled

/-- The common lines behind the encoder of a base. -/
theorem writes_part {base : Action Bool} {head : Endian → List Byte}
    (writes : Writes base true head) (self : Part) :
    Writes (do
      let ret ← base
      self.serializeToByteArray
      return ret) true fun endian => head endian ++ (self.encoded endian ++ []) :=
  writes.bind (self.writes.seq (Writes.pure true))

/-- The encoders write the type byte and the fields. -/
theorem Message.writes (msg : Message) :
    Writes msg.serializeToByteArray true fun endian =>
      msg.getMessageType.toByte :: msg.encoded endian := by
  cases msg with
  | request self =>
      have base := (writes_byte MessageType.request.toByte).seq
        ((writes_word self.sn).seq ((writes_word self.cmd).seq (Writes.pure true)))
      have writes := writes_part base self.toPart
      simp only [List.append_nil, List.cons_append] at writes
      exact writes
  | response self =>
      have base := (writes_byte MessageType.response.toByte).seq
        ((writes_word self.sn).seq ((writes_word self.cmd).seq ((writes_word self.result).seq
          ((writes_string self.resultString).seq (Writes.pure true)))))
      have writes := writes_part base self.toPart
      simp only [List.append_nil, List.cons_append] at writes
      exact writes

end Encodings

section Leads

variable {σ α β Object Base : Type} {program : EStateM Fault σ α} {next : α → EStateM Fault σ β}
  {state middle later : σ} {value : α} {result : β} {sound other : Prop}

/-- What a program makes of a state: it returns in another one if a condition holds, and else an
undefined step stops it. -/
def Leads (program : EStateM Fault σ α) (state : σ) (value : α) (later : σ) (sound : Prop) : Prop :=
  (sound → program state = .ok value later) ∧
    (¬ sound → ∃ fault last, program state = .error fault last)

theorem Leads.of_ok (done : program state = .ok value later) :
    Leads program state value later True :=
  ⟨fun _ => done, fun not => absurd trivial not⟩

theorem Leads.congr (leads : Leads program state value later sound) (same : other ↔ sound) :
    Leads program state value later other :=
  ⟨fun holds => leads.1 (same.mp holds), fun not => leads.2 (mt same.mpr not)⟩

theorem Leads.bind (first : Leads program state value middle sound)
    (second : Leads (next value) middle result later other) :
    Leads (program >>= next) state result later (sound ∧ other) := by
  by_cases holds : sound
  · have done := first.1 holds
    unfold Leads
    rw [bind_ok done]
    exact ⟨fun both => second.1 both.2, fun not => second.2 fun also => not ⟨holds, also⟩⟩
  · obtain ⟨fault, last, stopped⟩ := first.2 holds
    exact ⟨fun both => absurd both.1 holds, fun _ => ⟨fault, last, bind_error stopped⟩⟩

theorem Leads.onBase {base : Object → Base} {set : Base → Object → Object} {self : Object}
    {method : EStateM Fault (σ × Base) α} {part : Base}
    (leads : Leads method (state, base self) value (later, part) sound) :
    Leads (onBase base set method) (state, self) value (later, set part self) sound := by
  refine ⟨fun holds => onBase_ok (leads.1 holds), fun not => ?_⟩
  obtain ⟨fault, last, stopped⟩ := leads.2 not
  exact ⟨fault, _, onBase_error stopped⟩

/-- The method of a base, behind which a value is returned. -/
theorem Leads.then_return {base : Object → Base} {method : EStateM Fault (σ × Base) α} {part left : Base}
    (leads : Leads method (state, part) value (later, left) sound) (set : Base → Object → Object)
    (self : Object) (result : β) (same : base self = part) :
    Leads (do let _ ← Xten.onBase base set method; return result) (state, self) result
      (later, set left self) sound := by
  subst same
  have returned : Leads (pure result : EStateM Fault (σ × Object) β) (later, set left self) result
      (later, set left self) True := .of_ok rfl
  have both : Leads (Xten.onBase base set method >>= fun _ => pure result) _ _ _ _ :=
    leads.onBase.bind returned
  exact both.congr (iff_of_eq (and_true _)).symm

theorem Leads.callOn {method : EStateM Fault (σ × Object) Bool} {self left : Object} {ret : Bool}
    (leads : Leads method (state, self) ret (later, left) sound) (class_ : Object → Message) :
    Leads (MessageDecoder.callOn method self class_) state (ret, class_ left) later sound := by
  refine ⟨fun holds => ?_, fun not => ?_⟩
  · simp only [MessageDecoder.callOn, leads.1 holds]
  · obtain ⟨fault, last, stopped⟩ := leads.2 not
    exact ⟨fault, last.1, by simp only [MessageDecoder.callOn, stopped]⟩

end Leads

section Reads

variable {endian : Endian} {capacity : Nat} {before rest : List Byte}

/-- No read of a string of a part is undefined, where its fields start at a position in an array
of some capacity. -/
def Part.Sound (capacity start : Nat) (self : Part) : Prop :=
  ReadsSoundly capacity start self.md5 ∧
    ReadsSoundly capacity (start + (4 + self.md5.length)) self.name ∧
      ReadsSoundly capacity (start + (4 + self.md5.length) + (4 + self.name.length) + 21) self.data

/-- The strings of a part cut at their first zero bytes. -/
def Part.cut (self : Part) : Part :=
  { self with md5 := cString self.md5, name := cString self.name, data := cString self.data }

/-- The common lines behind the name. -/
def Part.parseWords : EStateM Fault (Cursor × Part) Unit := do
  assign cursorReaders.readFUint64 fun value self => { self with transSize := value }
  assign cursorReaders.readFUint64 fun value self => { self with totalSize := value }
  assign cursorReaders.readFUint8 fun value self => { self with last := value }
  assign cursorReaders.readFUint32 fun value self => { self with lastSn := value }
  assign cursorReaders.readStringF32 fun value self => { self with data := value }

theorem string_leads {Object : Type} {str : List Byte} (fits : str.length < 2 ^ 32)
    (set : List Byte → Object → Object) (old : Object) :
    Leads (assign cursorReaders.readStringF32 set)
      (⟨endian, capacity, before, stringBytes str endian ++ rest⟩, old) ()
      (⟨endian, capacity, before ++ stringBytes str endian, rest⟩, set (cString str) old)
      (ReadsSoundly capacity before.length str) := by
  refine ⟨fun sound => assign_ok (Cursor.readStringF32_append fits sound) set old, fun not => ?_⟩
  obtain ⟨fault, last, stopped, -⟩ := Cursor.readStringF32_unsound fits not
  exact ⟨fault, _, assign_error stopped set old⟩

theorem Part.words_leads (self old : Part) (data : self.data.length < 2 ^ 32) :
    Leads Part.parseWords
      (⟨endian, capacity, before, self.words endian ++ (stringBytes self.data endian ++ rest)⟩, old)
      () (⟨endian, capacity, before ++ self.words endian ++ stringBytes self.data endian, rest⟩,
        { self with md5 := old.md5, name := old.name, data := cString self.data })
      (ReadsSoundly capacity (before ++ self.words endian).length self.data) := by
  have wide : ∀ {before rest : List Byte} (val : BitVec 64) (set : BitVec 64 → Part → Part)
      (part : Part), assign cursorReaders.readFUint64 set
        (⟨endian, capacity, before, fixedBytes 8 val endian ++ rest⟩, part) =
      .ok () (⟨endian, capacity, before ++ fixedBytes 8 val endian, rest⟩, set val part) :=
    fun val set part => assign_ok (Cursor.readFixed_append 8 (by decide) val) set part
  have byte : ∀ {before rest : List Byte} (val : Byte) (set : Byte → Part → Part)
      (part : Part), assign cursorReaders.readFUint8 set
        (⟨endian, capacity, before, [val] ++ rest⟩, part) =
      .ok () (⟨endian, capacity, before ++ [val], rest⟩, set val part) :=
    fun val set part => assign_ok (Cursor.readFUint8_append val) set part
  have word : ∀ {before rest : List Byte} (val : BitVec 32) (set : BitVec 32 → Part → Part)
      (part : Part), assign cursorReaders.readFUint32 set
        (⟨endian, capacity, before, fixedBytes 4 val endian ++ rest⟩, part) =
      .ok () (⟨endian, capacity, before ++ fixedBytes 4 val endian, rest⟩, set val part) :=
    fun val set part => assign_ok (Cursor.readFUint32_append val) set part
  unfold Leads Part.parseWords
  simp only [Part.words, List.append_assoc]
  rw [bind_ok (wide _ _ _), bind_ok (wide _ _ _), bind_ok (byte _ _ _), bind_ok (word _ _ _)]
  simp only [List.append_assoc]
  have leads := @string_leads endian capacity (before ++ self.words endian) rest _ _ data
    (fun value (part : Part) => { part with data := value })
    { self with md5 := old.md5, name := old.name, data := old.data }
  simp only [Part.words, List.append_assoc] at leads
  exact leads

/-- What the common lines make of an encoding: its strings cut, or an undefined step. -/
theorem Part.parse_leads (self old : Part) (md5 : self.md5.length < 2 ^ 32)
    (name : self.name.length < 2 ^ 32) (data : self.data.length < 2 ^ 32) :
    Leads (Part.parseFromByteArray cursorReaders)
      (⟨endian, capacity, before, self.encoded endian ++ rest⟩, old) ()
      (⟨endian, capacity, before ++ self.encoded endian, rest⟩, self.cut)
      (self.Sound capacity before.length) := by
  have first := @string_leads endian capacity before
    (stringBytes self.name endian ++ (self.words endian ++ (stringBytes self.data endian ++ rest)))
    _ _ md5 (fun value (part : Part) => { part with md5 := value }) old
  have second := @string_leads endian capacity (before ++ stringBytes self.md5 endian)
    (self.words endian ++ (stringBytes self.data endian ++ rest)) _ _ name
    (fun value (part : Part) => { part with name := value })
    { old with md5 := cString self.md5 }
  have third := @Part.words_leads endian capacity
    (before ++ stringBytes self.md5 endian ++ stringBytes self.name endian) rest self
    { old with md5 := cString self.md5, name := cString self.name } data
  have leads : Leads (Part.parseFromByteArray cursorReaders) _ _ _ _ :=
    first.bind (second.bind third)
  simp only [Part.encoded, Part.Sound, List.append_assoc, List.length_append, length_stringBytes,
    Part.length_words, Nat.add_assoc] at leads ⊢
  exact leads

end Reads

namespace Message

variable {endian : Endian} {capacity : Nat} {before rest : List Byte}

/-- No read of a string of a message is undefined, where its fields start at a position in an
array of some capacity. -/
def Sound (capacity start : Nat) : Message → Prop
  | .request self => self.toPart.Sound capacity (start + 8)
  | .response self => ReadsSoundly capacity (start + 12) self.resultString ∧
      self.toPart.Sound capacity (start + 16 + self.resultString.length)

/-- The message with its strings cut at their first zero bytes. -/
def cut : Message → Message
  | .request self => .request { self with toPart := self.toPart.cut }
  | .response self => .response { self with
      resultString := cString self.resultString, toPart := self.toPart.cut }

theorem response_leads (self old : Response) (fits : self.resultString.length < 2 ^ 32) :
    Leads (Response.parseFromByteArray cursorReaders.toReaders)
      (⟨endian, capacity, before, self.encoded endian ++ rest⟩, old) true
      (⟨endian, capacity, before ++ self.encoded endian, rest⟩,
        { self with resultString := cString self.resultString })
      (ReadsSoundly capacity (before.length + 12) self.resultString) := by
  refine ⟨fun sound => Response.parse_encoded self old fits sound, fun not => ?_⟩
  obtain ⟨fault, last, stopped, -⟩ := Response.parse_unsound self old fits not
  exact ⟨fault, last, stopped⟩

/-- What a parser makes of the encoding of a message of its class. -/
theorem parse_leads (endian : Endian) (before rest : List Byte) (msg old : Message)
    (same : old.getMessageType = msg.getMessageType) (fits : msg.Fits) :
    Leads (old.parseFromByteArray cursorReaders)
      ⟨endian, capacity, before, msg.encoded endian ++ rest⟩ (true, msg.cut)
      ⟨endian, capacity, before ++ msg.encoded endian, rest⟩ (msg.Sound capacity before.length) := by
  cases msg with
  | request self =>
      cases old with
      | response => cases same
      | request old =>
          have md5 := fits self.md5 (by simp [strings])
          have name := fits self.name (by simp [strings])
          have data := fits self.data (by simp [strings])
          simp only [encoded, Sound, ← Xten.Message.length_request before endian self.toRequest,
            ← List.append_assoc]
          rw [List.append_assoc]
          have base := Leads.of_ok (@Request.parse_encoded endian capacity before
            (self.toPart.encoded endian ++ rest) self.toRequest old.toRequest)
          have part := @Part.parse_leads endian capacity (before ++ self.toRequest.encoded endian)
            rest self.toPart old.toPart md5 name data
          have leads : Leads (XftpRequest.parseFromByteArray cursorReaders) (_, old) true _ _ :=
            base.onBase.bind (part.then_return _ { old with toRequest := self.toRequest } true rfl)
          exact (leads.callOn _).congr (iff_of_eq (true_and _)).symm
  | response self =>
      cases old with
      | request => cases same
      | response old =>
          have resultFits := fits self.resultString (by simp [strings])
          have md5 := fits self.md5 (by simp [strings])
          have name := fits self.name (by simp [strings])
          have data := fits self.data (by simp [strings])
          simp only [encoded, Sound, ← Xten.Message.length_response before endian self.toResponse,
            ← List.append_assoc]
          rw [List.append_assoc]
          have base := @response_leads endian capacity before
            (self.toPart.encoded endian ++ rest) self.toResponse old.toResponse resultFits
          have part := @Part.parse_leads endian capacity (before ++ self.toResponse.encoded endian)
            rest self.toPart old.toPart md5 name data
          have leads : Leads (XftpResponse.parseFromByteArray cursorReaders) (_, old) true _ _ :=
            base.onBase.bind (part.then_return _ { old with toResponse := { self.toResponse with
              resultString := cString self.resultString } } true rfl)
          exact leads.callOn _

/-- How many bytes a message takes, with its type byte. -/
def size : Message → Nat
  | .request self => 30 + (4 + self.md5.length) + (4 + self.name.length) + (4 + self.data.length)
  | .response self => 38 + self.resultString.length + (4 + self.md5.length) +
      (4 + self.name.length) + (4 + self.data.length)

theorem length_encoded (msg : Message) (endian : Endian) :
    (msg.getMessageType.toByte :: msg.encoded endian).length = msg.size := by
  cases msg with
  | request self =>
      simp only [encoded, size, Request.encoded, List.length_cons, List.length_append,
        length_fixedBytes, Part.length_encoded]
      omega
  | response self =>
      simp only [encoded, size, Response.encoded, List.length_cons, List.length_append,
        length_fixedBytes, length_stringBytes, Part.length_encoded]
      omega

/-- What comes back: the message with its strings cut, or an undefined step. -/
theorem roundTrip_eq (msg old : Message) (same : old.getMessageType = msg.getMessageType)
    (fits : msg.Fits) {nodeSize : Nat} (positive : 0 < nodeSize) (fresh : Nat → Byte)
    (little : Bool) :
    (msg.Sound (capacityFor nodeSize msg.size) 1 → ∃ later,
      msg.roundTrip old little (ByteArray.make nodeSize fresh) = .ok (true, msg.cut) later) ∧
    (¬ msg.Sound (capacityFor nodeSize msg.size) 1 → ∃ fault later,
      msg.roundTrip old little (ByteArray.make nodeSize fresh) = .error fault later) := by
  obtain ⟨empty, ordered, filled⟩ :=
    ByteArray.setLittleEndian_filled (ByteArray.make_filled positive fresh) little
  obtain ⟨full, wrote, filled⟩ := msg.writes filled
  obtain ⟨start, moved, cut⟩ := ByteArray.At.rewind filled
  rw [List.append_nil, List.nil_append, length_encoded] at cut
  have shows : start.Shows ⟨if little then .little else .big, _, [], _⟩ := ⟨nodeSize, cut⟩
  obtain ⟨fields, typed, shows⟩ :=
    readFUint8_simulates.ok shows (Cursor.readFUint8_append _)
  rw [List.nil_append] at shows
  have leads := @parse_leads (capacityFor nodeSize msg.size) (if little then .little else .big)
    [msg.getMessageType.toByte] [] msg old same fits
  rw [List.append_nil] at leads
  have program : msg.roundTrip old little (ByteArray.make nodeSize fresh) =
      old.parseFromByteArray readers fields := by
    rw [roundTrip, bind_ok ordered, bind_ok wrote, bind_ok moved, bind_ok typed]
  rw [program]
  refine ⟨fun sound => ?_, fun unsound => ?_⟩
  · obtain ⟨later, done, -⟩ := (parse_simulates old).ok shows (leads.1 sound)
    exact ⟨later, done⟩
  · obtain ⟨fault, last, stopped⟩ := leads.2 unsound
    obtain ⟨later, stopped, -⟩ := (parse_simulates old).error shows stopped
    exact ⟨fault, later, stopped⟩

/-- The messages that come back: their strings are plain, and where the data is empty, the message
does not end at the end of a node. -/
structure Clean (nodeSize : Nat) (msg : Message) : Prop where
  plain : ∀ str ∈ msg.strings, Plain str
  ends : msg.part.data = [] → ¬ nodeSize ∣ msg.size

/-- A string within an encoding, with more behind it. -/
theorem readsSoundly_inside {nodeSize start total : Nat} {str : List Byte} (positive : 0 < nodeSize)
    (more : start + 4 + str.length < total) :
    ReadsSoundly (capacityFor nodeSize total) start str ↔ str.length + 1 ≠ 2 ^ 32 := by
  have covers := le_capacityFor positive total
  refine and_iff_left fun _ => ?_
  omega

/-- The string that ends an encoding. -/
theorem readsSoundly_ends {nodeSize start total : Nat} {str : List Byte} (positive : 0 < nodeSize)
    (all : start + 4 + str.length = total) :
    ReadsSoundly (capacityFor nodeSize total) start str ↔
      str.length + 1 ≠ 2 ^ 32 ∧ (str = [] → ¬ nodeSize ∣ total) := by
  refine and_congr_right fun _ => forall_congr' ?_
  rintro rfl
  rw [← all]
  exact (capacityFor_eq_iff positive (Nat.succ_pos _)).not

theorem part_sound_iff {nodeSize start total : Nat} (positive : 0 < nodeSize) (self : Part)
    (all : start + (4 + self.md5.length) + (4 + self.name.length) + 21 + 4 + self.data.length =
      total) :
    (self.Sound (capacityFor nodeSize total) start ∧ self.cut = self) ↔
      (Plain self.md5 ∧ Plain self.name ∧ Plain self.data) ∧
        (self.data = [] → ¬ nodeSize ∣ total) := by
  rw [Part.Sound, readsSoundly_inside positive (by omega), readsSoundly_inside positive (by omega),
    readsSoundly_ends positive all]
  simp only [Part.cut, Part.ext_iff, cString_eq_iff, Plain]
  tauto

theorem sound_and_uncut_iff {nodeSize : Nat} (positive : 0 < nodeSize) (msg : Message) :
    (msg.Sound (capacityFor nodeSize msg.size) 1 ∧ msg.cut = msg) ↔ msg.Clean nodeSize := by
  cases msg with
  | request self =>
      have part := @part_sound_iff nodeSize (1 + 8) (Message.request self).size positive self.toPart
        (by simp only [size]; omega)
      have same : (Message.request self).cut = .request self ↔ self.toPart.cut = self.toPart := by
        simp [cut, XftpRequest.ext_iff, Part.ext_iff]
      rw [Sound, same, part]
      constructor
      · rintro ⟨plain, ends⟩
        exact ⟨by simpa [strings] using plain, ends⟩
      · rintro ⟨plain, ends⟩
        exact ⟨by simpa [strings] using plain, ends⟩
  | response self =>
      have part := @part_sound_iff nodeSize (1 + 16 + self.resultString.length)
        (Message.response self).size positive self.toPart (by simp only [size]; omega)
      have same : (Message.response self).cut = .response self ↔
          0 ∉ self.resultString ∧ self.toPart.cut = self.toPart := by
        simp [cut, XftpResponse.ext_iff, Part.ext_iff, cString_eq_iff]
      have result := @readsSoundly_inside nodeSize (1 + 12) (Message.response self).size
        self.resultString positive (by simp only [size]; omega)
      rw [Sound, same, result]
      constructor
      · rintro ⟨⟨wraps, sound⟩, zero, uncut⟩
        obtain ⟨plain, ends⟩ := part.mp ⟨sound, uncut⟩
        exact ⟨by simpa [strings] using ⟨⟨zero, wraps⟩, plain⟩, ends⟩
      · rintro ⟨plain, ends⟩
        have all : Plain self.resultString ∧ Plain self.md5 ∧ Plain self.name ∧ Plain self.data := by
          simpa [strings] using plain
        obtain ⟨sound, uncut⟩ := part.mpr ⟨all.2, ends⟩
        exact ⟨⟨all.1.2, sound⟩, all.1.1, uncut⟩

/-- A message comes back from its encoding, in every field, exactly if it is clean. -/
theorem roundTrip_iff (msg old : Message) (same : old.getMessageType = msg.getMessageType)
    (fits : msg.Fits) {nodeSize : Nat} (positive : 0 < nodeSize) (fresh : Nat → Byte)
    (little : Bool) :
    (∃ later, msg.roundTrip old little (ByteArray.make nodeSize fresh) = .ok (true, msg) later) ↔
      msg.Clean nodeSize := by
  obtain ⟨sound, unsound⟩ := roundTrip_eq msg old same fits positive fresh little
  rw [← sound_and_uncut_iff positive]
  constructor
  · rintro ⟨later, back⟩
    by_cases safe : msg.Sound (capacityFor nodeSize msg.size) 1
    · obtain ⟨last, came⟩ := sound safe
      rw [back] at came
      have same : msg = msg.cut := by
        simp only [EStateM.Result.ok.injEq, Prod.mk.injEq, true_and] at came
        exact came.1
      exact ⟨safe, same.symm⟩
    · obtain ⟨fault, last, stopped⟩ := unsound safe
      rw [back] at stopped
      cases stopped
  · rintro ⟨safe, uncut⟩
    obtain ⟨later, came⟩ := sound safe
    rw [uncut] at came
    exact ⟨later, came⟩

/-- The last chunk of a file. -/
def lastChunk : Message :=
  .request
    { md5 := [1]
      name := [97]
      transSize := 5
      totalSize := 5
      last := 1
      data := [7] }

/-- It comes back, in nodes of the default size. -/
theorem roundTrip_lastChunk : ∃ later,
    lastChunk.roundTrip (.request {}) false (ByteArray.make 4096 fun _ => 0) =
      .ok (true, lastChunk) later := by
  refine (roundTrip_iff lastChunk (.request {}) rfl ?fits (by decide) _ false).mpr ⟨?plain, nofun⟩
  case fits => simp [Fits, strings, lastChunk]
  case plain => simp [strings, Plain, lastChunk]

/-- A file chunk with a zero byte in it. -/
def zeroChunk : Message :=
  .request { data := [97, 0, 98] }

theorem not_roundTrip : ¬ ∀ (msg old : Message) (nodeSize : Nat) (fresh : Nat → Byte)
    (little : Bool), old.getMessageType = msg.getMessageType → msg.Fits → 0 < nodeSize →
      ∃ later, msg.roundTrip old little (ByteArray.make nodeSize fresh) = .ok (true, msg) later := by
  intro claimed
  have fits : zeroChunk.Fits := by simp [Fits, strings, zeroChunk]
  obtain ⟨later, back⟩ := claimed zeroChunk (.request {}) 4096 (fun _ => 0) false rfl fits
    (by decide)
  have sound : zeroChunk.Sound (capacityFor 4096 zeroChunk.size) 1 :=
    ⟨⟨by decide, by decide⟩, ⟨by decide, by decide⟩, ⟨by decide, by decide⟩⟩
  obtain ⟨last, came⟩ := (roundTrip_eq zeroChunk (.request {}) rfl fits (by decide) (fun _ => 0)
    false).1 sound
  rw [back] at came
  have same : zeroChunk = zeroChunk.cut := by
    simp only [EStateM.Result.ok.injEq, Prod.mk.injEq, true_and] at came
    exact came.1
  revert same
  decide

end Message

end Xten.Xftp
