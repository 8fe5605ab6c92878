import Xten.ByteArray.Strings

/-!
# The string with a length of 64 bits

`WriteStringF64` writes a length of 32 bits, and `ReadStringF64` reads one of 64. Whatever
stands around such a string, its read takes more bytes than its write made, and no other read
of a value takes fewer.
-/

namespace Xten.ByteArray

open Std.Chunks Std.IntegerCodec Std.Programs

section Taking

variable {α β : Type}

/-- Where it returns a value, an action has taken at least so many bytes. -/
def Takes (action : Action α) (value : α) (count : Nat) : Prop :=
  ∀ ⦃ba later⦄, action ba = .ok value later → count + later.getReadSize ≤ ba.getReadSize

theorem Takes.bind {first : Action α} {next : α → Action β} {value : β} {count : α → Nat}
    {total : Nat} (head : ∀ middle, Takes first middle (count middle))
    (tail : ∀ middle ⦃ba later⦄, next middle ba = .ok value later →
      total + later.getReadSize ≤ count middle + ba.getReadSize) :
    Takes (first >>= next) value total := by
  intro ba later done
  obtain ⟨middle, between, one, two⟩ := of_bind_ok done
  have before := head middle one
  have after := tail middle two
  omega

/-- A result that is made of what an action returned. -/
theorem Takes.map {action : Action α} {post : α → β} {value : β} {count : Nat}
    (takes : ∀ middle, post middle = value → Takes action middle count) :
    Takes (do return post (← action)) value count := by
  intro ba later done
  obtain ⟨middle, between, one, two⟩ := of_bind_ok done
  obtain ⟨same, rfl⟩ := EStateM.Result.ok.inj two
  exact takes middle same one

/-- No more bytes are copied than were asked for. -/
theorem length_readLoop_le {nodes : List (List Byte)} {npos size steps : Nat} {bytes : List Byte}
    (walked : readLoop nodes npos size = some (bytes, steps)) : bytes.length ≤ size := by
  induction nodes generalizing npos size steps bytes with
  | nil => cases walked
  | cons node rest ih =>
      simp only [readLoop] at walked
      by_cases none : size = 0
      · rw [if_pos none] at walked
        cases walked
        exact Nat.zero_le _
      rw [if_neg none] at walked
      by_cases last : size ≤ node.length - npos
      · rw [if_pos last] at walked
        cases walked
        exact List.length_take_le _ _
      · rw [if_neg last] at walked
        obtain ⟨⟨tail, more⟩, again, pair⟩ := Option.map_eq_some_iff.mp walked
        cases pair
        have first : (slice node npos (node.length - npos)).length ≤ node.length - npos :=
          List.length_take_le _ _
        have others : tail.length ≤ size - (node.length - npos) := ih again
        simp only [List.length_append]
        omega

/-- A read moves over what was asked for. -/
theorem read_takes {size : Nat} {bytes : List Byte} {ba later : ByteArray}
    (done : read size ba = .ok bytes later) :
    size + later.getReadSize = ba.getReadSize ∧ bytes.length ≤ size := by
  rw [read] at done
  split_ifs at done with short
  split at done
  · cases done
  · rename_i taken steps walked
    cases done
    simp only [getReadSize] at short ⊢
    exact ⟨by omega, length_readLoop_le walked⟩

theorem takes_read (size : Nat) (bytes : List Byte) : Takes (read size) bytes size :=
  fun _ _ done => (read_takes done).1.le

theorem takes_readFixed {count : Nat} (val : BitVec (8 * count)) :
    Takes (readFixed count) val count := by
  apply Takes.bind (takes_read count)
  intro bytes ba later done
  obtain ⟨ba', between, one, two⟩ := of_bind_ok done
  cases one
  cases two
  exact Nat.le_refl _

theorem takes_byte (byte : Byte) : Takes readFUint8 byte 1 :=
  Takes.map fun bytes _ => takes_read 1 bytes

end Taking

section Groups

variable {width : Nat}

/-- A number put above the bits read so far stays below the next group. -/
theorem putGroup_lt {val : BitVec width} {offset : Nat} {group : BitVec 8}
    (below : val.toNat < 2 ^ offset) (small : group.toNat < 2 ^ 7) :
    (val ||| (group.setWidth width <<< offset)).toNat < 2 ^ (offset + 7) := by
  rw [BitVec.toNat_or]
  apply Nat.or_lt_two_pow
  · exact below.trans_le (Nat.pow_le_pow_right (by decide) (Nat.le_add_right _ _))
  · rw [BitVec.toNat_shiftLeft, BitVec.toNat_setWidth, Nat.shiftLeft_eq, Nat.pow_add, Nat.mul_comm]
    apply (Nat.mod_le _ _).trans_lt
    apply Nat.mul_lt_mul_of_pos_left _ (Nat.two_pow_pos offset)
    exact (Nat.mod_le _ _).trans_lt small

/-- The bytes taken by the loop of the variable-length reads bound its result. -/
theorem readGroups_takes {rounds offset : Nat} {val result : BitVec width} {ba later : ByteArray}
    (below : val.toNat < 2 ^ offset)
    (done : readGroups rounds offset val ba = .ok result later) :
    ∃ count, 0 < count ∧ count + later.getReadSize ≤ ba.getReadSize ∧
      result.toNat < 2 ^ (offset + 7 * count) := by
  induction rounds generalizing offset val ba with
  | zero => cases done
  | succ rounds ih =>
      rw [readGroups] at done
      obtain ⟨group, middle, one, two⟩ := of_bind_ok done
      have taken := takes_byte group one
      split_ifs at two with past last
      · cases two
      · cases two
        exact ⟨1, Nat.one_pos, taken, putGroup_lt below last⟩
      · have payload : (group &&& 0x7F).toNat < 2 ^ 7 := by
          rw [toNat_payload]
          exact Nat.mod_lt _ (by decide)
        obtain ⟨count, -, more, bound⟩ := ih (putGroup_lt below payload) two
        refine ⟨count + 1, Nat.succ_pos _, by omega, ?_⟩
        rwa [show offset + 7 * (count + 1) = offset + 7 + 7 * count by omega]

theorem readVar_takes {val : BitVec width} {ba later : ByteArray}
    (done : (do readGroups (← get).getReadSize 0 0 : Action (BitVec width)) ba = .ok val later) :
    ∃ count, 0 < count ∧ count + later.getReadSize ≤ ba.getReadSize ∧
      val.toNat < 2 ^ (7 * count) := by
  rw [get_bind] at done
  have taken := readGroups_takes (by simp) done
  simpa only [Nat.zero_add] using taken

/-- A number of variable width is read from no fewer bytes than it is written to. -/
theorem takes_readVar {room : Nat} (some : 0 < room) (wide : width ≤ 7 * room)
    (val : BitVec width) :
    Takes (do readGroups (← get).getReadSize 0 0) val (groupBytes room val).length := by
  intro ba later done
  obtain ⟨count, more, taken, bound⟩ := readVar_takes done
  have few := length_groups_le (groups_eq some wide val) more bound
  omega

end Groups

section Values

/-- A number is read from no fewer bytes than it is written to. -/
theorem Kind.takes (kind : Kind) (val : BitVec kind.width) (endian : Endian) :
    Takes kind.read val (kind.encoded val endian).length := by
  have zigzag {width room : Nat} (some : 0 < room) (wide : width ≤ 7 * room) (val : BitVec width) :
      Takes (do return decodeZigzag (← (do readGroups (← get).getReadSize 0 0))) val
        (groupBytes room (encodeZigzag val)).length := by
    apply Takes.map
    intro middle same
    rw [← same, encodeZigzag_decodeZigzag]
    exact takes_readVar some wide middle
  have fixed {count : Nat} (val : BitVec (8 * count)) :
      Takes (readFixed count) val (fixedBytes count val endian).length := by
    rw [length_fixedBytes]
    exact takes_readFixed val
  cases kind with
  | fint8 => exact takes_byte val
  | fuint8 => exact takes_byte val
  | fint16 => exact @fixed 2 val
  | fuint16 => exact @fixed 2 val
  | fint32 => exact @fixed 4 val
  | fuint32 => exact @fixed 4 val
  | fint64 => exact @fixed 8 val
  | fuint64 => exact @fixed 8 val
  | varint32 => exact zigzag (by decide) (by decide) val
  | varUint32 => exact takes_readVar (by decide) (by decide) val
  | varint64 => exact zigzag (by decide) (by decide) val
  | varUint64 => exact takes_readVar (by decide) (by decide) val
  | float => exact @fixed 4 val
  | double => exact @fixed 8 val

end Values

section Strings

/-- After its length, a string is read from no fewer bytes than it has. -/
theorem readString_rest {form : LengthPrefix} {len : BitVec form.width} {str : List Byte}
    {ba later : ByteArray}
    (done : (if form.Wraps len then throw .overrun
      else return cString (← read len.toNat) : Action (List Byte)) ba = .ok str later) :
    str.length ≤ len.toNat ∧ len.toNat + later.getReadSize = ba.getReadSize := by
  split_ifs at done with wraps
  · cases done
  · obtain ⟨buf, middle, one, two⟩ := of_bind_ok done
    obtain ⟨rfl, rfl⟩ := EStateM.Result.ok.inj two
    obtain ⟨taken, short⟩ := read_takes one
    exact ⟨(List.takeWhile_sublist _).length_le.trans short, taken⟩

/-- A string with a length of fixed width. -/
theorem takes_readString {form : LengthPrefix} {count : Nat} (str : List Byte)
    (length : ∀ len, Takes form.readLen len count) :
    Takes form.readString str (count + str.length) := by
  rw [form.readString_eq]
  apply Takes.bind length
  intro len ba later done
  obtain ⟨short, taken⟩ := readString_rest done
  omega

/-- A string with a length of variable width. -/
theorem takes_readStringVar64 (str : List Byte) :
    Takes LengthPrefix.var64.readString str
      ((groupBytes 10 (BitVec.ofNat 64 str.length)).length + str.length) := by
  rw [LengthPrefix.readString_eq]
  intro ba later done
  obtain ⟨len, middle, one, two⟩ := of_bind_ok done
  obtain ⟨short, rest⟩ := readString_rest two
  obtain ⟨count, more, taken, bound⟩ := @readVar_takes 64 len _ _ one
  have value : (BitVec.ofNat 64 str.length).toNat = str.length := by
    rw [BitVec.toNat_ofNat]
    exact Nat.mod_eq_of_lt (short.trans_lt len.isLt)
  have few := length_groups_le
    (groups_eq (show 0 < 10 by decide) (show 64 ≤ 7 * 10 by decide) (BitVec.ofNat 64 str.length))
    more (value.trans_lt (short.trans_lt bound))
  omega

/-- A string is read from no fewer bytes than it is written to. -/
theorem LengthPrefix.takes (form : LengthPrefix) (str : List Byte) (endian : Endian) :
    Takes form.readString str (form.lengthBytes str.length endian ++ str).length := by
  rw [List.length_append]
  cases form with
  | f16 => exact takes_readString str fun len => @takes_readFixed 2 len
  | f32 => exact takes_readString str fun len => @takes_readFixed 4 len
  | f64 =>
      intro ba later done
      have taken := (@takes_readString .f64 8 str fun len => @takes_readFixed 8 len) done
      simp only [lengthBytes, length_fixedBytes]
      omega
  | var64 => exact takes_readStringVar64 str

/-- With a length of 64 bits it is read from four bytes more. -/
theorem takes_readStringF64 (str : List Byte) : Takes readStringF64 str (8 + str.length) :=
  @takes_readString .f64 _ str fun len => @takes_readFixed 8 len

theorem LengthPrefix.writes (form : LengthPrefix) (str : List Byte) :
    Writes (form.writeString str) () fun endian => form.lengthBytes str.length endian ++ str := by
  intro endian nodeSize contents ba filled
  rw [form.writeString_eq, filled.endian]
  exact (Writes.write (form.lengthBytes str.length endian)).seq (Writes.write str) filled

end Strings

section Items

/-- A typed value: a number or a string. -/
inductive Item where
  | number (value : Value)
  | text (form : LengthPrefix) (str : List Byte)

/-- The type of a value. -/
inductive Shape where
  | number (kind : Kind)
  | text (form : LengthPrefix)

def Item.shape : Item → Shape
  | .number value => .number value.1
  | .text form _ => .text form

def Item.write : Item → Action Unit
  | .number value => value.1.write value.2
  | .text form str => form.writeString str

def Shape.read : Shape → Action Item
  | .number kind => return .number ⟨kind, ← kind.read⟩
  | .text form => return .text form (← form.readString)

/-- Write typed values one after the other. -/
def writeItems : List Item → Action Unit
  | [] => return
  | item :: items => do
      item.write
      writeItems items

/-- Read values of given types one after the other. -/
def readItems : List Shape → Action (List Item)
  | [] => return []
  | shape :: shapes => do
      let item ← shape.read
      return item :: (← readItems shapes)

def Item.encoded : Item → Endian → List Byte
  | .number value => value.1.encoded value.2
  | .text form str => fun endian => form.lengthBytes str.length endian ++ str

def encodedItems : List Item → Endian → List Byte
  | [] => fun _ => []
  | item :: items => fun endian => item.encoded endian ++ encodedItems items endian

theorem writes_items (items : List Item) : Writes (writeItems items) () (encodedItems items) := by
  induction items with
  | nil => exact Writes.pure ()
  | cons item items ih =>
      cases item with
      | number value => exact (value.1.writes value.2).seq ih
      | text form str => exact (form.writes str).seq ih

theorem Item.takes (item : Item) (endian : Endian) :
    Takes item.shape.read item (item.encoded endian).length := by
  cases item with
  | number value =>
      obtain ⟨kind, val⟩ := value
      apply Takes.map
      rintro middle same
      cases same
      exact kind.takes val endian
  | text form str =>
      apply Takes.map
      rintro middle same
      cases same
      exact form.takes str endian

/-- Values are read from no fewer bytes than they are written to. -/
theorem takes_items (items : List Item) (endian : Endian) :
    Takes (readItems (items.map Item.shape)) items (encodedItems items endian).length := by
  induction items with
  | nil =>
      intro ba later done
      cases done
      exact (Nat.zero_add _).le
  | cons item items ih =>
      intro ba later done
      obtain ⟨first, middle, one, two⟩ := of_bind_ok done
      obtain ⟨others, last, three, four⟩ := of_bind_ok two
      cases four
      have head := item.takes endian one
      have tail := ih three
      rw [encodedItems, List.length_append]
      omega

end Items

/-- Whatever values are written before and after it, a string that is written with a length
of 64 bits does not come back together with them. -/
theorem stringF64_never (nodeSize : Nat) (positive : 0 < nodeSize) (fresh : Nat → Byte)
    (little : Bool) (before after : List Item) (str : List Byte) :
    ¬ ∃ later, (do
        setLittleEndian little
        writeItems before
        writeStringF64 str
        writeItems after
        setPosition 0
        let first ← readItems (before.map Item.shape)
        let middle ← readStringF64
        let last ← readItems (after.map Item.shape)
        return (first, middle, last) : Action (List Item × List Byte × List Item))
      (make nodeSize fresh) = .ok (before, str, after) later := by
  rintro ⟨later, done⟩
  obtain ⟨ordered, set, filled⟩ := setLittleEndian_filled (make_filled positive fresh) little
  generalize (if little then Endian.little else Endian.big) = endian at filled
  obtain ⟨one, wroteBefore, filled⟩ := writes_items before filled
  obtain ⟨two, wroteString, filled⟩ := LengthPrefix.f64.writes str filled
  rw [LengthPrefix.writeString] at wroteString
  obtain ⟨three, wroteAfter, filled⟩ := writes_items after filled
  obtain ⟨start, moved, cut⟩ := At.rewind filled
  rw [bind_ok set, bind_ok wroteBefore, bind_ok wroteString, bind_ok wroteAfter,
    bind_ok moved] at done
  obtain ⟨first, four, readBefore, done⟩ := of_bind_ok done
  obtain ⟨middle, five, readString, done⟩ := of_bind_ok done
  obtain ⟨last, six, readAfter, done⟩ := of_bind_ok done
  cases done
  -- The reads together take four bytes more than there are.
  have head := takes_items before endian readBefore
  have string := takes_readStringF64 str readString
  have tail := takes_items after endian readAfter
  have size := cut.getReadSize_eq
  simp only [List.length_append, List.nil_append, List.length_nil, LengthPrefix.lengthBytes,
    length_fixedBytes] at size
  omega

/-- A string between two numbers, in nodes of four bytes. -/
theorem stringF64_never_between :
    0 < 4 ∧ ¬ ∃ later, (do
        setLittleEndian false
        writeItems [.number ⟨.fuint8, 7#8⟩]
        writeStringF64 [0x41, 0x42]
        writeItems [.number ⟨.varint32, 9#32⟩]
        setPosition 0
        let first ← readItems [.number .fuint8]
        let middle ← readStringF64
        let last ← readItems [.number .varint32]
        return (first, middle, last) : Action (List Item × List Byte × List Item))
      (make 4 fun _ => 0) =
        .ok ([.number ⟨.fuint8, 7#8⟩], [0x41, 0x42], [.number ⟨.varint32, 9#32⟩]) later :=
  ⟨by decide, stringF64_never 4 (by decide) (fun _ => 0) false [.number ⟨.fuint8, 7#8⟩]
    [.number ⟨.varint32, 9#32⟩] [0x41, 0x42]⟩

/-- One letter on its own: its length of four bytes and the letter are no length of eight. -/
theorem stringF64_lost :
    stopped (do
        writeStringF64 [0x41]
        setPosition 0
        readStringF64) (make 8 fun _ => 0) = some (.outOfRange "no enough readSize") ∧
    ¬ ∃ later, (do
        writeStringF64 [0x41]
        setPosition 0
        readStringF64) (make 8 fun _ => 0) = .ok [0x41] later := by
  have stops : stopped (do
      writeStringF64 [0x41]
      setPosition 0
      readStringF64) (make 8 fun _ => 0) = some (.outOfRange "no enough readSize") := by decide
  refine ⟨stops, ?_⟩
  rintro ⟨later, done⟩
  rw [stopped_ok done] at stops
  cases stops

end Xten.ByteArray
