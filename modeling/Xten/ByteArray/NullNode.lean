import Xten.ByteArray.Calls
import Xten.ByteArray.Scan

/-!
# Reads through the null node

The node of the cursor is null exactly at the end of the last node. Which read operations
use it there is said for every state that an array reaches.
-/

namespace Xten

open Std.Chunks Std.IntegerCodec Std.Programs

namespace ByteArray

/-- The bytes between the cursor and the end of the data. -/
def unread (ba : ByteArray) : List Byte :=
  (ba.storage.take ba.size).drop ba.position

/-- What an array shows of itself. -/
def cursor (ba : ByteArray) : Cursor where
  endian := ba.endian
  capacity := ba.capacity
  before := (ba.storage.take ba.size).take ba.position
  after := ba.unread

section Shown

variable {ba : ByteArray}

theorem Valid.length_before_cursor (valid : Valid ba) : ba.cursor.before.length = ba.position := by
  have length := valid.length_storage
  have inside := valid.inside
  have held := valid.held
  simp only [cursor, List.length_take]
  omega

theorem Valid.length_unread (valid : Valid ba) : ba.unread.length = ba.size - ba.position := by
  have length := valid.length_storage
  have held := valid.held
  simp only [unread, List.length_drop, List.length_take]
  omega

theorem Valid.cut (valid : Valid ba) :
    At ba.endian ba.nodeSize ba.capacity ba.cursor.before ba.unread ba where
  endian := rfl
  flat := by
    refine ⟨valid.flat, ⟨valid, rfl⟩, rfl, valid.length_storage,
      valid.length_before_cursor.symm, ?_⟩
    exact (List.take_append_drop ba.position (ba.storage.take ba.size)).symm

theorem Valid.shows (valid : Valid ba) : ba.Shows ba.cursor :=
  ⟨ba.nodeSize, valid.cut⟩

theorem At.unread_eq {endian : Endian} {nodeSize capacity : Nat} {before after : List Byte}
    (cut : At endian nodeSize capacity before after ba) :
    ba.position = before.length ∧ ba.unread = after := by
  obtain ⟨flat, ⟨valid, rfl⟩, holds⟩ := cut.flat
  have position : ba.position = before.length := holds.position
  have contents : ba.storage.take ba.size = before ++ after := holds.contents
  refine ⟨position, ?_⟩
  rw [unread, contents, position, List.drop_left]

theorem Shows.unread_eq {cursor : Cursor} (shows' : ba.Shows cursor) :
    ba.unread = cursor.after := by
  obtain ⟨nodeSize, cut⟩ := shows'
  exact cut.unread_eq.2

end Shown

section Invariant

theorem keeps_write (buf : List Byte) : Keeps Valid (write buf) := by
  intro ba valid
  obtain ⟨after, wrote, ⟨later, -⟩, -⟩ := valid.write_eq buf
  rw [wrote]
  exact later

theorem keeps_read (size : Nat) : Keeps Valid (read size) := by
  intro ba valid
  by_cases enough : size ≤ valid.flat.readSize
  · rcases Nat.eq_zero_or_pos size with rfl | some
    · rw [valid.cut.read_none]
      split <;> exact valid
    · obtain ⟨after, done, ⟨later, -⟩, -⟩ := valid.read_eq some enough
      rw [done]
      exact later
  · rw [valid.read_short enough]
    exact valid

theorem keeps_setPosition (pos : Nat) : Keeps Valid (setPosition pos) := by
  intro ba valid
  by_cases within : pos ≤ valid.flat.storage.length
  · obtain ⟨after, moved, ⟨later, -⟩, -⟩ := valid.setPosition_eq within
    rw [moved]
    exact later
  · rw [valid.setPosition_beyond within]
    exact valid

theorem keeps_clear : Keeps Valid clear := by
  intro ba valid
  obtain ⟨after, cleared, ⟨later, -⟩, -⟩ := valid.clear_eq
  rw [cleared]
  exact later

theorem keeps_getWriteBuffers (len : Nat) : Keeps Valid (getWriteBuffers len) := by
  intro ba valid
  obtain ⟨iovs, after, handed, represents, -⟩ := valid.getWriteBuffers_eq len
  rw [handed]
  exact represents.1

theorem keeps_setLittleEndian (val : Bool) : Keeps Valid (setLittleEndian val) :=
  fun _ valid => ⟨valid.positive, valid.uniform, valid.root, valid.capacity, valid.inside,
    valid.held, valid.cur⟩

theorem keeps_writeFixed (count : Nat) (val : BitVec (8 * count)) :
    Keeps Valid (writeFixed count val) :=
  Keeps.get fun _ => keeps_write _

theorem keeps_readFixed (count : Nat) : Keeps Valid (readFixed count) :=
  (keeps_read count).bind fun _ => Keeps.get fun _ => Keeps.pure _

theorem keeps_writeGroups {width : Nat} (room : Nat) (val : BitVec width) :
    Keeps Valid (writeGroups room val) := by
  rw [writeGroups]
  cases groups room val with
  | none => exact Keeps.throw _
  | some tmp => exact keeps_write tmp

theorem keeps_readFUint8 : Keeps Valid readFUint8 :=
  (keeps_read 1).map _

theorem keeps_readGroups {width : Nat} (rounds i : Nat) (val : BitVec width) :
    Keeps Valid (readGroups rounds i val) := by
  induction rounds generalizing i val with
  | zero => exact Keeps.throw _
  | succ rounds ih =>
      apply keeps_readFUint8.bind
      intro tmp
      exact Keeps.ite (Keeps.throw _) (Keeps.ite (Keeps.pure _) (ih _ _))

theorem keeps_readVar {width : Nat} :
    Keeps Valid (do readGroups (← get).getReadSize 0 (0 : BitVec width)) :=
  Keeps.get fun _ => keeps_readGroups _ _ _

theorem Kind.keeps_write (kind : Kind) (val : BitVec kind.width) :
    Keeps Valid (kind.write val) := by
  cases kind with
  | fint8 | fuint8 => exact ByteArray.keeps_write (memory 1 val)
  | fint16 | fuint16 => exact keeps_writeFixed 2 val
  | fint32 | fuint32 | float => exact keeps_writeFixed 4 val
  | fint64 | fuint64 | double => exact keeps_writeFixed 8 val
  | varint32 | varUint32 => exact keeps_writeGroups 5 _
  | varint64 | varUint64 => exact keeps_writeGroups 10 _

theorem Kind.keeps_read (kind : Kind) : Keeps Valid kind.read := by
  cases kind with
  | fint8 | fuint8 => exact keeps_readFUint8
  | fint16 | fuint16 => exact keeps_readFixed 2
  | fint32 | fuint32 | float => exact keeps_readFixed 4
  | fint64 | fuint64 | double => exact keeps_readFixed 8
  | varUint32 | varUint64 => exact keeps_readVar
  | varint32 | varint64 => exact keeps_readVar.map _

theorem keeps_readString64 {readLen : Action (BitVec 64)} (keeps : Keeps Valid readLen) :
    Keeps Valid (readString64 readLen) :=
  keeps.bind fun _ => Keeps.ite (Keeps.throw _) ((keeps_read _).map _)

/-- Every call keeps the invariant. -/
theorem Call.keeps (call : Call) : Keeps Valid call.perform := by
  cases call with
  | write buf => exact keeps_write buf
  | writeValue value => exact value.1.keeps_write value.2
  | writeStringF16 str => exact (keeps_writeFixed 2 _).bind fun _ => keeps_write str
  | writeStringF32 str => exact (keeps_writeFixed 4 _).bind fun _ => keeps_write str
  | writeStringF64 str => exact (keeps_writeFixed 4 _).bind fun _ => keeps_write str
  | writeStringVar64 str => exact (keeps_writeGroups 10 _).bind fun _ => keeps_write str
  | read size => exact (keeps_read size).map _
  | readValue kind => exact kind.keeps_read.map _
  | readStringF16 =>
      have keeps : Keeps Valid ByteArray.readStringF16 :=
        (keeps_readFixed 2).bind fun _ => (keeps_read _).map _
      exact keeps.map _
  | readStringF32 =>
      have keeps : Keeps Valid ByteArray.readStringF32 :=
        (keeps_readFixed 4).bind fun _ => Keeps.ite (Keeps.throw _) ((keeps_read _).map _)
      exact keeps.map _
  | readStringF64 => exact (keeps_readString64 (keeps_readFixed 8)).map _
  | readStringVar64 => exact (keeps_readString64 keeps_readVar).map _
  | setLittleEndian val => exact keeps_setLittleEndian val
  | setPosition pos => exact keeps_setPosition pos
  | clear => exact keeps_clear
  | getWriteBuffers len => exact (keeps_getWriteBuffers len).map _
  | readFromFile pieces =>
      have keeps : Keeps Valid (ByteArray.readFromFile pieces) := by
        cases pieces with
        | none => exact Keeps.pure _
        | some pieces => exact (Keeps.forM pieces keeps_write).bind fun _ => Keeps.pure _
      exact keeps.map _

/-- The invariant holds in every state that an array reaches. -/
theorem Reachable.valid {nodeSize : Nat} {fresh : Nat → Byte} {ba : ByteArray}
    (positive : 0 < nodeSize) (reached : Reachable nodeSize fresh ba) : Valid ba := by
  induction reached with
  | made => exact (make_represents nodeSize positive fresh).1
  | returned reached call done ih =>
      have kept := call.keeps ih
      rwa [done] at kept
  | thrown reached call stopped ih =>
      have kept := call.keeps ih
      rwa [stopped] at kept
  | @filled before reached nodes sizes ih =>
      have count : nodes.length = before.nodes.length := by
        simpa using congrArg List.length sizes
      refine ⟨ih.positive, ?_, ?_, ?_, ih.inside, ih.held, ih.cur⟩
      · intro node member
        have length : node.length ∈ before.nodes.map List.length :=
          sizes ▸ List.mem_map_of_mem member
        obtain ⟨other, among, same⟩ := List.mem_map.mp length
        exact same ▸ ih.uniform other among
      · rintro rfl
        exact ih.root (List.length_eq_zero_iff.mp count.symm)
      · rw [ih.capacity, ← count]

end Invariant

section Walks

variable {width : Nat} {nodes : List (List Byte)} {ba : ByteArray}

/-- A walk of reads leaves the chain, or starts behind it. -/
theorem readLoop_eq_none_iff {npos size : Nat} (uniform : Uniform width nodes)
    (inside : npos < width) :
    readLoop nodes npos size = none ↔ nodes = [] ∨ nodes.flatten.length < npos + size := by
  induction nodes generalizing npos size with
  | nil => exact iff_of_true rfl (.inl rfl)
  | cons node rest ih =>
      obtain ⟨head, tail⟩ := uniform.uncons
      have positive : 0 < width := Nat.zero_lt_of_lt inside
      have length : (node :: rest).flatten.length = width + rest.flatten.length := by
        rw [List.flatten_cons, List.length_append, head]
      rw [length]
      simp only [readLoop, head, List.cons_ne_nil, false_or]
      by_cases zero : size = 0
      · rw [if_pos zero]
        exact iff_of_false (Option.some_ne_none _) (by omega)
      · rw [if_neg zero]
        by_cases last : size ≤ width - npos
        · rw [if_pos last]
          exact iff_of_false (Option.some_ne_none _) (by omega)
        · rw [if_neg last, Option.map_eq_none_iff, ih tail positive]
          constructor
          · rintro (rfl | beyond)
            · simp only [List.flatten_nil, List.length_nil]
              omega
            · omega
          · intro beyond
            exact .inr (by omega)

/-- A walk from an offset in some node. -/
theorem Valid.readLoop_eq_none_iff (valid : Valid ba) (size index : Nat) {npos : Nat}
    (offset : npos < ba.nodeSize) :
    readLoop (ba.chain (ba.nodeAt index)) npos size = none ↔
      ba.capacity ≤ ba.nodeSize * index + npos ∨
        ba.capacity < ba.nodeSize * index + npos + size := by
  have uniform := valid.uniform.drop index
  rw [nodeAt]
  by_cases within : index < ba.nodes.length
  · have length : ba.nodeSize * index + (ba.nodes.drop index).flatten.length = ba.capacity := by
      rw [uniform.length_flatten, List.length_drop, ← Nat.mul_add, valid.capacity]
      congr 1
      omega
    have some : ba.nodes.drop index ≠ [] := by
      rw [Ne, List.drop_eq_nil_iff]
      omega
    have room : ba.nodeSize * index + ba.nodeSize ≤ ba.capacity := by
      rw [valid.capacity, ← Nat.mul_succ]
      exact Nat.mul_le_mul_left _ within
    rw [if_pos within, chain, ByteArray.readLoop_eq_none_iff uniform offset]
    constructor
    · rintro (none | beyond)
      · exact absurd none some
      · exact .inr (by omega)
    · rintro (past | beyond)
      · omega
      · exact .inr (by omega)
  · rw [if_neg within, chain, readLoop]
    refine iff_of_true rfl (.inl ?_)
    have past : ba.capacity ≤ ba.nodeSize * index := by
      rw [valid.capacity]
      exact Nat.mul_le_mul_left _ (Nat.le_of_not_lt within)
    omega

/-- Where a positional read really starts. -/
def landing (ba : ByteArray) (position : Nat) : Nat :=
  ba.nodeSize * ba.linkCount position + position % ba.nodeSize

theorem landing_eq {position : Nat} (counted : position / ba.nodeSize < 2 ^ 63) :
    ba.landing position = position := by
  rw [landing, linkCount, if_pos counted, Nat.div_add_mod]

theorem landing_le (position : Nat) : ba.landing position ≤ position := by
  by_cases counted : position / ba.nodeSize < 2 ^ 63
  · exact (landing_eq counted).le
  · rw [landing, linkCount, if_neg counted, Nat.mul_zero, Nat.zero_add]
    exact Nat.mod_le _ _

theorem Valid.nodeAt_position (valid : Valid ba) :
    ba.cur = ba.nodeAt (ba.position / ba.nodeSize) := by
  rw [valid.cur, nodeAt_div valid.positive valid.capacity (valid.inside.trans valid.held)]

end Walks

end ByteArray

namespace Cursor

section Numbers

/-- Whether a cursor stands at the end of the last node. -/
def Ended (cursor : Cursor) : Prop :=
  cursor.before.length = cursor.capacity

/-- The number of the next bytes. -/
def number (count : Nat) (cursor : Cursor) : BitVec (8 * count) :=
  let tmp : BitVec (8 * count) := ofMemory (cursor.after.take count)
  if cursor.endian ≠ ByteArray.byteOrder then byteSwap count tmp else tmp

theorem number_eq_zero_iff {count : Nat} {cursor : Cursor} (there : count ≤ cursor.after.length) :
    cursor.number count = 0 ↔ cursor.after.take count = List.replicate count 0 := by
  have length : (cursor.after.take count).length = count := List.length_take_of_le there
  rw [← ofMemory_eq_zero_iff length, number]
  split
  · exact byteSwap_eq_zero_iff _
  · exact Iff.rfl

theorem readFixed_eq {count : Nat} (some : 0 < count) (cursor : Cursor) :
    readFixed count cursor =
      if count ≤ cursor.after.length then .ok (cursor.number count) (cursor.pass count)
      else .error (.outOfRange "no enough readSize") cursor := by
  by_cases there : count ≤ cursor.after.length
  · have taken : read count cursor = .ok (cursor.after.take count) (cursor.pass count) := by
      rw [read, if_neg (Nat.not_lt.mpr there), if_neg (fun full => some.ne' full.1)]
    rw [if_pos there, readFixed, bind_ok taken]
    rfl
  · have short : read count cursor = .error (.outOfRange "no enough readSize") cursor :=
      if_pos (Nat.lt_of_not_le there)
    rw [if_neg there, readFixed, bind_error short]

def readGroups {width : Nat} : Nat → Nat → BitVec width → Scan (BitVec width)
  | 0, _, _ => throw (.outOfRange "no enough readSize")
  | rounds + 1, i, val => do
      let tmp ← readFUint8
      if width ≤ i then
        throw .shift
      else if tmp.toNat < 0x80 then
        return val ||| (tmp.setWidth width <<< i)
      else
        readGroups rounds (i + 7) (val ||| ((tmp &&& 0x7F).setWidth width <<< i))

def readVarUint64 : Scan (BitVec 64) := do readGroups (← get).after.length 0 0

/-- A variable-length number is the value of its groups; there is no other way to stop
than at an exception or a shift. -/
theorem readGroups_eq {width rounds i : Nat} {val : BitVec width} {endian : Endian}
    {capacity : Nat} {before after : List Byte} (enough : after.length ≤ rounds) :
    match ofGroups i val after with
    | some (result, rest) => ∃ taken, after = taken ++ rest ∧
        readGroups rounds i val ⟨endian, capacity, before, after⟩ =
          .ok result ⟨endian, capacity, before ++ taken, rest⟩
    | none => ∃ fault later,
        readGroups rounds i val ⟨endian, capacity, before, after⟩ = .error fault later ∧
          fault ≠ .nullNode := by
  induction after generalizing rounds i val before with
  | nil =>
      cases rounds with
      | zero => exact ⟨_, _, rfl, by simp⟩
      | succ rounds => exact ⟨_, _, bind_error (rfl : readFUint8 _ = .error _ _), by simp⟩
  | cons group after ih =>
      obtain ⟨rounds, rfl⟩ : ∃ fewer, rounds = fewer + 1 := Nat.exists_eq_add_one.mpr
        (lt_of_lt_of_le (Nat.succ_pos _) enough)
      rw [List.length_cons, Nat.add_le_add_iff_right] at enough
      rw [ofGroups, readGroups, bind_ok (readFUint8_append group)]
      by_cases past : width ≤ i
      · simp only [if_pos past]
        exact ⟨_, _, rfl, by simp⟩
      · by_cases last : group.toNat < 0x80
        · simp only [if_neg past, if_pos last]
          exact ⟨[group], rfl, rfl⟩
        · simp only [if_neg past, if_neg last]
          have later := @ih rounds (i + 7)
            (val ||| ((group &&& 0x7F).setWidth width <<< i)) (before ++ [group]) enough
          generalize ofGroups (i + 7) _ after = decoded at later ⊢
          cases decoded with
          | none => exact later
          | some pair =>
              obtain ⟨taken, rfl, done⟩ := later
              rw [List.append_assoc] at done
              exact ⟨group :: taken, rfl, done⟩

end Numbers

section Strings

/-- The reads of strings: a length, which may be refused, and the bytes. -/
def readString {width : Nat} (readLen : Scan (BitVec width)) (wraps : BitVec width → Prop)
    [DecidablePred wraps] : Scan (List Byte) := do
  let len ← readLen
  if wraps len then
    throw .overrun
  else
    return ByteArray.cString (← read len.toNat)

variable {width : Nat} {readLen : Scan (BitVec width)} {wraps : BitVec width → Prop}
  [DecidablePred wraps] {cursor later : Cursor}

/-- After its length a string is read through a null node if it is empty and the cursor
stands at the end of the last node. -/
theorem stopped_readString {len : BitVec width} (done : readLen cursor = .ok len later)
    (narrow : ¬ wraps 0) :
    stopped (readString readLen wraps) cursor = some .nullNode ↔ len = 0 ∧ later.Ended := by
  by_cases refused : wraps len
  · have stops : readString readLen wraps cursor = .error .overrun later := by
      rw [readString, bind_ok done, if_pos refused]
      rfl
    rw [stopped_error stops]
    refine iff_of_false (by simp) ?_
    rintro ⟨rfl, -⟩
    exact narrow refused
  · cases faulty : later.readFault len.toNat with
    | some fault =>
        have stops : readString readLen wraps cursor = .error fault later := by
          rw [readString, bind_ok done, if_neg refused, bind_error (read_error faulty)]
        rw [stopped_error stops, Option.some_inj]
        simp only [readFault] at faulty
        split_ifs at faulty with short null
        · cases faulty
          refine iff_of_false (by simp) ?_
          rintro ⟨rfl, -⟩
          simp at short
        · cases faulty
          exact iff_of_true rfl ⟨BitVec.eq_of_toNat_eq null.1, null.2⟩
    | none =>
        have returns : ∃ str last, readString readLen wraps cursor = .ok str last := by
          rw [readString, bind_ok done, if_neg refused, bind_ok (read_ok faulty)]
          exact ⟨_, _, rfl⟩
        obtain ⟨str, last, returned⟩ := returns
        rw [stopped_ok returned]
        refine iff_of_false (by simp) ?_
        rintro ⟨rfl, full⟩
        simp only [readFault] at faulty
        split_ifs at faulty with short null
        exact null ⟨rfl, full⟩

theorem stopped_readString_error {fault : Fault} (stops : readLen cursor = .error fault later)
    (other : fault ≠ .nullNode) : stopped (readString readLen wraps) cursor ≠ some .nullNode := by
  have string : readString readLen wraps cursor = .error fault later := bind_error stops
  rw [stopped_error string]
  simpa using other

/-- An empty string with a length of fixed width is read through a null node if its
length is all that is left of a full array. -/
theorem stopped_readString_fixed {count : Nat} (some : 0 < count)
    {wraps : BitVec (8 * count) → Prop} [DecidablePred wraps] (narrow : ¬ wraps 0)
    (held : cursor.before.length + cursor.after.length ≤ cursor.capacity) :
    stopped (readString (readFixed count) wraps) cursor = .some .nullNode ↔
      cursor.before.length + cursor.after.length = cursor.capacity ∧
        cursor.after = List.replicate count 0 := by
  have read := readFixed_eq some cursor
  by_cases there : count ≤ cursor.after.length
  · rw [if_pos there] at read
    have length : (cursor.after.take count).length = count := List.length_take_of_le there
    have moved : (cursor.pass count).Ended ↔ cursor.before.length + count = cursor.capacity := by
      simp only [Ended, pass, List.length_append, length]
    rw [stopped_readString read narrow, number_eq_zero_iff there, moved]
    constructor
    · rintro ⟨zeros, full⟩
      have whole : cursor.after.length ≤ count := by omega
      rw [List.take_of_length_le whole] at zeros
      exact ⟨by omega, zeros⟩
    · rintro ⟨full, zeros⟩
      have whole : cursor.after.length = count := by rw [zeros, List.length_replicate]
      rw [List.take_of_length_le whole.le]
      exact ⟨zeros, by omega⟩
  · rw [if_neg there] at read
    refine iff_of_false (stopped_readString_error read (by simp)) ?_
    rintro ⟨-, zeros⟩
    rw [zeros, List.length_replicate] at there
    exact there (Nat.le_refl _)

/-- The same for a length of variable width. -/
theorem stopped_readString_var {wraps : BitVec 64 → Prop} [DecidablePred wraps]
    (narrow : ¬ wraps 0)
    (held : cursor.before.length + cursor.after.length ≤ cursor.capacity) :
    stopped (readString readVarUint64 wraps) cursor = some .nullNode ↔
      cursor.before.length + cursor.after.length = cursor.capacity ∧
        ofGroups 0 (0 : BitVec 64) cursor.after = some (0, []) := by
  obtain ⟨endian, capacity, before, after⟩ := cursor
  have read := @readGroups_eq 64 after.length 0 0 endian capacity before after (Nat.le_refl _)
  split at read
  case h_1 len rest decoded =>
    obtain ⟨taken, rfl, done⟩ := read
    have number : readVarUint64 ⟨endian, capacity, before, taken ++ rest⟩ =
        .ok len ⟨endian, capacity, before ++ taken, rest⟩ := done
    rw [decoded, stopped_readString number narrow]
    simp only [Ended, List.length_append, Option.some.injEq, Prod.mk.injEq] at held ⊢
    constructor
    · rintro ⟨zero, full⟩
      have none : rest.length = 0 := by omega
      exact ⟨by omega, zero, List.length_eq_zero_iff.mp none⟩
    · rintro ⟨full, zero, rfl⟩
      simp only [List.length_nil] at full
      exact ⟨zero, by omega⟩
  case h_2 decoded =>
    obtain ⟨fault, later, stops, other⟩ := read
    have number : readVarUint64 ⟨endian, capacity, before, after⟩ = .error fault later := stops
    rw [decoded]
    exact iff_of_false (stopped_readString_error number other) (by simp)

end Strings

end Cursor

section Simulation

theorem readStringF16_simulates :
    Simulates ByteArray.Shows ByteArray.readStringF16
      (Cursor.readString (Cursor.readFixed 2) fun _ => False) := by
  apply (readFixed_simulates 2).bind
  intro len
  rw [if_neg not_false]
  exact (read_simulates _).map _

theorem readString64_simulates {readLen : ByteArray.Action (BitVec 64)}
    {spec : Cursor.Scan (BitVec 64)} (simulates : Simulates ByteArray.Shows readLen spec) :
    Simulates ByteArray.Shows (ByteArray.readString64 readLen)
      (Cursor.readString spec fun len => len + 1 = 0) := by
  apply simulates.bind
  intro len
  exact Simulates.ite (Simulates.throw _) ((read_simulates _).map _)

theorem readGroups_simulates {width : Nat} (rounds i : Nat) (val : BitVec width) :
    Simulates ByteArray.Shows (ByteArray.readGroups rounds i val)
      (Cursor.readGroups rounds i val) := by
  induction rounds generalizing i val with
  | zero => exact Simulates.throw _
  | succ rounds ih =>
      apply readFUint8_simulates.bind
      intro tmp
      exact Simulates.ite (Simulates.throw _) (Simulates.ite (Simulates.pure _) (ih _ _))

theorem readVarUint64_simulates :
    Simulates ByteArray.Shows ByteArray.readVarUint64 Cursor.readVarUint64 := by
  rintro ba cursor ⟨nodeSize, cut⟩
  rw [ByteArray.readVarUint64, Cursor.readVarUint64, get_bind, get_bind, cut.getReadSize_eq]
  exact readGroups_simulates _ _ _ ⟨nodeSize, cut⟩

end Simulation

namespace ByteArray

section Guards

/-- A read operation stays away from the null node: a read of nothing has a node under the
cursor, a positional read is rejected or lies within the nodes, an empty string is not the
end of a full array, and a file is written from a node. -/
def ReadCall.Guarded : ReadCall → ByteArray → Prop
  | .read size, ba => 0 < size ∨ ba.position ≠ ba.capacity
  | .readAt size position, ba => ba.sizeFrom position.toNat < size.toNat ∨
      (ba.landing position.toNat < ba.capacity ∧
        ba.landing position.toNat + size.toNat ≤ ba.capacity)
  | .readStringF16, ba => ba.size = ba.capacity → ba.unread ≠ List.replicate 2 0
  | .readStringF32, ba => ba.size = ba.capacity → ba.unread ≠ List.replicate 4 0
  | .readStringF64, ba => ba.size = ba.capacity → ba.unread ≠ List.replicate 8 0
  | .readStringVar64, ba =>
      ba.size = ba.capacity → ofGroups 0 (0 : BitVec 64) ba.unread ≠ some (0, [])
  | .toString, _ => True
  | .writeToFile opens _, ba => opens = true → ba.position ≠ ba.capacity

variable {ba : ByteArray}

theorem stopped_readAt (valid : Valid ba) (size position : Nat) :
    stopped (readAt size position) ba = some .nullNode ↔
      ¬ ba.sizeFrom position < size ∧
        (ba.capacity ≤ ba.landing position ∨ ba.capacity < ba.landing position + size) := by
  rw [landing, ← valid.readLoop_eq_none_iff size _ (Nat.mod_lt position valid.positive)]
  by_cases rejected : ba.sizeFrom position < size
  · have stops : readAt size position ba = .error (.outOfRange "no enough readSize") ba :=
      if_pos rejected
    rw [stopped_error stops]
    exact iff_of_false (by simp) fun both => both.1 rejected
  · rw [stopped, readAt, if_neg rejected]
    cases readLoop (ba.chain (ba.nodeAt (ba.linkCount position))) (position % ba.nodeSize) size with
    | none => exact iff_of_true rfl ⟨rejected, rfl⟩
    | some result => exact iff_of_false (by simp) (by simp)

theorem stopped_toString (valid : Valid ba) : stopped ByteArray.toString ba ≠ some .nullNode := by
  have held := valid.held
  by_cases empty : ba.getReadSize = 0
  · have returned : ByteArray.toString ba = .ok [] ba := by
      rw [ByteArray.toString, get_bind, if_pos empty]
      rfl
    rw [stopped_ok returned]
    exact (Option.some_ne_none _).symm
  · have same : ByteArray.toString ba = readAt ba.getReadSize ba.position ba := by
      rw [ByteArray.toString, get_bind, if_neg empty]
    have start := ba.landing_le ba.position
    rw [stopped, same, ← stopped, Ne, stopped_readAt valid]
    rw [getReadSize] at empty ⊢
    omega

theorem stopped_writeToFile (valid : Valid ba) (opens withMd5 : Bool) :
    stopped (writeToFile opens withMd5) ba = some .nullNode ↔
      opens = true ∧ ba.position = ba.capacity := by
  have inside := valid.inside
  have held := valid.held
  cases opens with
  | false => exact iff_of_false (by simp [stopped, writeToFile]) (by simp)
  | true =>
      have walks := valid.readLoop_eq_none_iff ba.getReadSize (ba.position / ba.nodeSize)
        (Nat.mod_lt ba.position valid.positive)
      rw [Nat.div_add_mod] at walks
      simp only [stopped, writeToFile, if_true, true_and]
      rw [valid.nodeAt_position]
      generalize readLoop (ba.chain (ba.nodeAt (ba.position / ba.nodeSize)))
        (ba.position % ba.nodeSize) ba.getReadSize = result at walks ⊢
      rw [getReadSize] at walks
      cases result with
      | none =>
          have past := walks.mp rfl
          exact iff_of_true rfl (by omega)
      | some pair =>
          refine iff_of_false (by simp) fun full => ?_
          exact absurd (walks.mpr (.inl full.ge)) (Option.some_ne_none pair)

/-- A string read and its specification, on the cursor that the array shows. -/
theorem stopped_string (valid : Valid ba) {program : Action (List Byte)}
    {spec : Cursor.Scan (List Byte)} (simulates : Simulates Shows program spec)
    {condition : Prop}
    (exact_ : ba.cursor.before.length + ba.cursor.after.length ≤ ba.cursor.capacity →
      (stopped spec ba.cursor = some .nullNode ↔
        ba.cursor.before.length + ba.cursor.after.length = ba.cursor.capacity ∧ condition)) :
    stopped program ba ≠ some .nullNode ↔ (ba.size = ba.capacity → ¬ condition) := by
  have whole : ba.cursor.before.length + ba.cursor.after.length = ba.size := by
    have inside := valid.inside
    have after : ba.cursor.after.length = ba.size - ba.position := valid.length_unread
    have before := valid.length_before_cursor
    omega
  rw [whole] at exact_
  rw [Ne, simulates.stopped_eq valid.shows, exact_ valid.held, not_and]
  exact Iff.rfl

/-- Which read operations are safe, in every state that an array reaches: those that stay
away from the null node. -/
theorem ne_nullNode_iff {nodeSize : Nat} {fresh : Nat → Byte} (positive : 0 < nodeSize)
    (reached : Reachable nodeSize fresh ba) (call : ReadCall) :
    call.fault ba ≠ some .nullNode ↔ call.Guarded ba := by
  have valid := reached.valid positive
  cases call with
  | read size =>
      have inside := valid.inside
      have position := valid.length_before_cursor
      simp only [ReadCall.fault, ReadCall.Guarded]
      rw [(read_simulates size).stopped_eq valid.shows]
      cases faulty : ba.cursor.readFault size with
      | none =>
          rw [stopped_ok (Cursor.read_ok faulty)]
          refine iff_of_true (Option.some_ne_none _).symm ?_
          simp only [Cursor.readFault] at faulty
          split_ifs at faulty with short null
          rw [position] at null
          rcases Nat.eq_zero_or_pos size with zero | some
          · exact .inr fun full => null ⟨zero, full⟩
          · exact .inl some
      | some fault =>
          rw [stopped_error (Cursor.read_error faulty)]
          simp only [Cursor.readFault] at faulty
          split_ifs at faulty with short null
          · cases faulty
            refine iff_of_true (by simp) (.inl ?_)
            exact Nat.zero_lt_of_lt short
          · cases faulty
            rw [position] at null
            refine iff_of_false (fun other => other rfl) ?_
            rintro (some | other)
            · exact some.ne' null.1
            · exact other null.2
  | readAt size position =>
      simp only [ReadCall.fault, ReadCall.Guarded]
      rw [Ne, stopped_readAt valid]
      omega
  | readStringF16 =>
      exact stopped_string valid readStringF16_simulates
        (@Cursor.stopped_readString_fixed _ 2 (by decide) _ _ not_false)
  | readStringF32 =>
      exact stopped_string valid readStringF32_simulates
        (@Cursor.stopped_readString_fixed _ 4 (by decide) (fun len => len + 1 = 0) _
          (by decide))
  | readStringF64 =>
      exact stopped_string valid (readString64_simulates (readFixed_simulates 8))
        (@Cursor.stopped_readString_fixed _ 8 (by decide) (fun len => len + 1 = 0) _
          (by decide))
  | readStringVar64 =>
      exact stopped_string valid (readString64_simulates readVarUint64_simulates)
        (Cursor.stopped_readString_var (by decide))
  | toString => exact iff_of_true (stopped_toString valid) trivial
  | writeToFile opens withMd5 =>
      simp only [ReadCall.fault, ReadCall.Guarded]
      rw [Ne, stopped_writeToFile valid, not_and]

/-- In a full node a file cannot be written, and a text can be made. -/
theorem ne_nullNode_iff_full :
    ∃ ba, Reachable 4 (fun _ => 0) ba ∧
      (((ReadCall.writeToFile true false).fault ba ≠ some .nullNode ↔
        (ReadCall.writeToFile true false).Guarded ba)) ∧
      ReadCall.toString.fault ba ≠ some .nullNode := by
  have reached : Reachable 4 (fun _ => 0) (final (write [1, 2, 3, 4] (make 4 fun _ => 0))) :=
    .returned .made (.write [1, 2, 3, 4]) rfl
  exact ⟨_, reached, ne_nullNode_iff (by decide) reached (.writeToFile true false),
    (ne_nullNode_iff (by decide) reached .toString).mpr trivial⟩

/-- Four bytes fill a node of four. Behind them a read of no bytes, a positional read beyond
the data and a file use the null node, and so does an empty string that fills a node. -/
theorem nullNode_used :
    (∃ ba, Reachable 4 (fun _ => 0) ba ∧
      (ReadCall.read 0).fault ba = some .nullNode ∧
      (ReadCall.readAt 1 5).fault ba = some .nullNode ∧
      (ReadCall.writeToFile true false).fault ba = some .nullNode) ∧
    ∃ ba, Reachable 2 (fun _ => 0) ba ∧ ReadCall.readStringF16.fault ba = some .nullNode := by
  constructor
  · exact ⟨_, .returned .made (.write [1, 2, 3, 4]) rfl, by decide, by decide, by decide⟩
  · have written : Reachable 2 (fun _ => 0) (final (writeStringF16 [] (make 2 fun _ => 0))) :=
      .returned .made (.writeStringF16 []) rfl
    exact ⟨_, .returned written (.setPosition 0) rfl, by decide⟩

end Guards

end ByteArray

end Xten
