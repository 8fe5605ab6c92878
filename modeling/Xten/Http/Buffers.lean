import Xten.Http.Segments

/-!
# The buffers of `RecvRequest`

`RecvRequest` with the memory that it works in: the `buffer_size` bytes at `data`, of which the
first `offset` are what has been received, and the body, which is as long as it is going to be
from the start. A step that would leave one of the two has no result.
-/

namespace Xten.http

/-- `memcpy` or `memmove` of some bytes to `&dst[place]`. -/
def copy (dst : List Byte) (place : Nat) (src : List Byte) (count : Nat) : Option (List Byte) :=
  if place + count ≤ dst.length ∧ count ≤ src.length then
    some (dst.take place ++ src.take count ++ dst.drop (place + count))
  else
    none

/-- The generated code takes no more bytes than it is given, as it asserts. -/
def HttpParser.Bounded (machine : HttpParser) : Prop :=
  ∀ bytes state, (machine.execute bytes state).nread ≤ bytes.length

namespace HttpSession

variable {machine : HttpParser} (sizes : Sizes)

/-- `Read(data + offset, buffer_size - offset)`, with the offset behind what has come. -/
def receiveIn (buffer : List Byte) (offset : BitVec 32) (socket : Socket) :
    Option ((Int × List Byte × BitVec 32) × Socket) := do
  let room := (BitVec.ofNat 32 sizes.request - offset).toNat
  guard (offset.toNat + room ≤ buffer.length)
  let ((len, bytes), socket) := SocketStream.readBuffer room socket
  let buffer ← copy buffer offset.toNat bytes bytes.length
  return ((len, buffer, offset + BitVec.ofInt 32 len), socket)

/-- `Execute(data, len, std_len)` in the buffer, with the offset behind what it leaves. -/
def executeIn (buffer : List Byte) (len : BitVec 32) (stdLen : Nat)
    (parser : HttpRequestParser machine) :
    Option (List Byte × BitVec 32 × HttpRequestParser machine) := do
  guard (stdLen ≤ buffer.length)
  let executed := machine.execute (buffer.take stdLen) parser.parser
  let left := len.setWidth 64 - BitVec.ofNat 64 executed.nread
  let buffer ← copy buffer 0 (buffer.drop executed.nread) left.toNat
  return (buffer, left.setWidth 32, parser.after executed)

/-- `recvHeader` in the buffer. -/
def recvHeaderIn : Nat → List Byte → BitVec 32 → HttpRequestParser machine → Socket →
    Option (Option (List Byte × BitVec 32 × HttpRequestParser machine) × Socket)
  | 0, _, _, _, socket => some (none, close socket)
  | rounds + 1, buffer, offset, parser, socket => do
      let ((len, buffer, filled), socket) ← receiveIn sizes buffer offset socket
      if len ≤ 0 then
        return (none, close socket)
      else
        guard (filled.toNat ≤ buffer.length)
        match getLastRN (buffer.take filled.toNat) with
        | none => recvHeaderIn rounds buffer filled parser socket
        | some stdLen =>
            let (buffer, offset, parser) ← executeIn buffer filled stdLen parser
            if parser.hasError then
              return (none, close socket)
            else if BitVec.ofNat 32 sizes.request ≤ offset then
              return (none, close socket)
            else if parser.isFinished = 1 then
              return (some (buffer, offset, parser), socket)
            else
              recvHeaderIn rounds buffer offset parser socket

/-- `recvBody` in the buffer and the body. -/
def recvBodyIn (bodySize : BitVec 32) (buffer : List Byte) (offset : BitVec 32)
    (request : HttpRequest) (socket : Socket) : Option (Option HttpRequest × Socket) :=
  if 0 < bodySize then do
    let copied := if bodySize < offset then bodySize else offset
    let body ← copy (List.replicate bodySize.toNat 0) 0 buffer copied.toNat
    let left := bodySize - copied
    if 0 < left then
      guard (copied.toNat + left.toNat ≤ body.length)
      let ((ret, bytes), socket) := Stream.readFixBuffer sizes.stream left.toNat socket
      if ret ≤ 0 then
        return (none, close socket)
      else
        let body ← copy body copied.toNat bytes bytes.length
        return (some { request with body := body }, socket)
    else
      return (some { request with body := body }, socket)
  else
    some (some request, socket)

variable (machine)

/-- `RecvRequest()`, with the buffer as it is when it is new. -/
def recvRequestIn (buffer : List Byte) (socket : Socket) :
    Option (Option HttpRequest × Socket) := do
  let parser : HttpRequestParser machine := {}
  match ← recvHeaderIn sizes (socket.incoming.length + 1) buffer 0 parser socket with
  | (none, socket) => return (none, socket)
  | (some (buffer, offset, parser), socket) =>
      let bodySize := parser.getBodyLength.setWidth 32
      if sizes.requestBody < bodySize.toNat then
        return (none, close socket)
      else
        match sendContinue sizes parser.request socket with
        | (none, socket) => return (none, socket)
        | (some request, socket) =>
            let (request, socket) ← recvBodyIn sizes bodySize buffer offset request socket
            return (request.map fun request => request.init.initParam, socket)

end HttpSession

section Refinement

open HttpSession

variable {sizes : Sizes} {machine : HttpParser}

theorem copy_eq {dst src : List Byte} {place count : Nat} (fits : place + count ≤ dst.length)
    (there : count ≤ src.length) : copy dst place src count =
      some (dst.take place ++ src.take count ++ dst.drop (place + count)) :=
  if_pos ⟨fits, there⟩

theorem length_copied {dst src : List Byte} {place count : Nat}
    (fits : place + count ≤ dst.length) (there : count ≤ src.length) :
    (dst.take place ++ src.take count ++ dst.drop (place + count)).length = dst.length := by
  rw [List.length_append, List.length_append, List.length_take_of_le (by omega),
    List.length_take_of_le there, List.length_drop]
  omega

/-- The buffer starts with some data, as many bytes as the offset says. -/
structure Holds (sizes : Sizes) (buffer : List Byte) (offset : BitVec 32) (data : List Byte) :
    Prop where
  size : buffer.length = sizes.request
  offset : offset.toNat = data.length
  starts : data <+: buffer

variable {buffer data bytes : List Byte} {offset : BitVec 32}

theorem Holds.within (holds : Holds sizes buffer offset data) : data.length ≤ sizes.request :=
  holds.starts.length_le.trans_eq holds.size

theorem Holds.take (holds : Holds sizes buffer offset data) {count : Nat}
    (inside : count ≤ data.length) : buffer.take count = data.take count := by
  obtain ⟨rest, rfl⟩ := holds.starts
  exact List.take_append_of_le_length inside

theorem Holds.room (holds : Holds sizes buffer offset data) :
    (BitVec.ofNat 32 sizes.request - offset).toNat = sizes.request - data.length := by
  have within := holds.within
  have small := sizes.request_lt
  rw [BitVec.toNat_sub, BitVec.toNat_ofNat, holds.offset]
  omega

theorem Holds.full (holds : Holds sizes buffer offset data) :
    BitVec.ofNat 32 sizes.request ≤ offset ↔ sizes.request ≤ data.length := by
  have small := sizes.request_lt
  rw [BitVec.le_def, BitVec.toNat_ofNat, holds.offset, Nat.mod_eq_of_lt (by omega)]

/-- A receive puts its bytes behind the data. -/
theorem Holds.fill (holds : Holds sizes buffer offset data)
    (room : data.length + bytes.length ≤ sizes.request) :
    ∃ filled, copy buffer offset.toNat bytes bytes.length = some filled ∧
      Holds sizes filled (offset + BitVec.ofInt 32 bytes.length) (data ++ bytes) := by
  have small := sizes.request_lt
  have fits : offset.toNat + bytes.length ≤ buffer.length := by
    rw [holds.offset, holds.size]
    exact room
  refine ⟨_, copy_eq fits (Nat.le_refl _), ?_, ?_, ?_⟩
  · rw [length_copied fits (Nat.le_refl _), holds.size]
  · rw [BitVec.toNat_add, holds.offset, BitVec.toNat_ofInt, List.length_append]
    omega
  · rw [holds.offset, holds.take (Nat.le_refl _), List.take_length, List.take_length]
    exact List.prefix_append _ _

/-- What has not been parsed goes to the start of the buffer. -/
theorem Holds.shift (holds : Holds sizes buffer offset data) {nread : Nat}
    (inside : nread ≤ data.length) :
    let left := offset.setWidth 64 - BitVec.ofNat 64 nread
    ∃ shifted, copy buffer 0 (buffer.drop nread) left.toNat = some shifted ∧
      Holds sizes shifted (left.setWidth 32) (data.drop nread) := by
  have within := holds.within
  have small := sizes.request_lt
  have left : (offset.setWidth 64 - BitVec.ofNat 64 nread).toNat = data.length - nread := by
    rw [BitVec.toNat_sub, BitVec.toNat_setWidth, BitVec.toNat_ofNat, holds.offset]
    omega
  have size := holds.size
  have fits : 0 + (data.length - nread) ≤ buffer.length := by omega
  have there : data.length - nread ≤ (buffer.drop nread).length := by
    rw [List.length_drop]
    omega
  intro width
  rw [left]
  refine ⟨_, copy_eq fits there, ?_, ?_, ?_⟩
  · rw [length_copied fits there, size]
  · rw [BitVec.toNat_setWidth, left, List.length_drop]
    omega
  · rw [List.take_zero, List.nil_append]
    obtain ⟨rest, rfl⟩ := holds.starts
    rw [List.drop_append_of_le_length inside, ← List.length_drop, List.take_left]
    exact List.prefix_append _ _

variable {socket : Socket} {parser : HttpRequestParser machine}

/-- A receive brings no more than there is room for. -/
theorem readBuffer_length (room : Nat) :
    (SocketStream.readBuffer room socket).1.2.length ≤ room ∧
      (0 < (SocketStream.readBuffer room socket).1.1 →
        (SocketStream.readBuffer room socket).1.1 =
          (SocketStream.readBuffer room socket).1.2.length) := by
  by_cases connected : socket.connected = true
  · have comes := @Socket.delivery_le_incoming socket room
    rw [SocketStream.readBuffer_eq connected rfl]
    dsimp only
    rw [List.length_take_of_le comes]
    exact ⟨Socket.delivery_le, fun _ => rfl⟩
  · rw [SocketStream.readBuffer, if_neg connected]
    exact ⟨Nat.zero_le _, fun positive => absurd positive (by simp)⟩

theorem receiveIn_eq (holds : Holds sizes buffer offset data) {len : Int} {later : Socket}
    (read : SocketStream.readBuffer (sizes.request - data.length) socket = ((len, bytes), later)) :
    ∃ filled count, receiveIn sizes buffer offset socket = some ((len, filled, count), later) ∧
      (0 < len → Holds sizes filled count (data ++ bytes)) := by
  have inside : offset.toNat + (sizes.request - data.length) ≤ buffer.length := by
    rw [holds.offset, holds.size]
    exact Nat.le_of_eq (Nat.add_sub_of_le holds.within)
  obtain ⟨room, all⟩ := @readBuffer_length socket (sizes.request - data.length)
  rw [read] at room all
  dsimp only at room all
  have within := holds.within
  obtain ⟨filled, copied, fills⟩ := @Holds.fill _ _ _ bytes _ holds (by omega)
  refine ⟨filled, offset + BitVec.ofInt 32 len, ?_, fun some => ?_⟩
  case refine_2 =>
    rw [all some]
    exact fills
  rw [receiveIn, holds.room]
  simp only [inside, guard_true, read, copied]
  rfl

/-- The lines that are parsed are in the buffer, and what is left of it goes to its start. -/
theorem executeIn_eq (bounded : machine.Bounded) (holds : Holds sizes buffer offset data)
    {stdLen : Nat} (inside : stdLen ≤ data.length) : ∃ shifted left,
      executeIn buffer offset stdLen parser =
        some (shifted, left, (parser.execute data stdLen).2) ∧
      Holds sizes shifted left (parser.execute data stdLen).1.2 := by
  have nread := bounded (data.take stdLen) parser.parser
  rw [List.length_take_of_le inside] at nread
  obtain ⟨shifted, copied, shifts⟩ := holds.shift (nread.trans inside)
  refine ⟨shifted, _, ?_, shifts⟩
  have there : stdLen ≤ buffer.length := inside.trans holds.starts.length_le
  rw [executeIn, holds.take inside]
  simp only [there, guard_true, copied]
  rfl

/-- The loop stays in the buffer, and comes to the same. -/
theorem recvHeaderIn_eq (bounded : machine.Bounded) {rounds : Nat}
    (holds : Holds sizes buffer offset data) :
    ∃ result, recvHeaderIn sizes rounds buffer offset parser socket =
        some (result, (recvHeader sizes rounds data parser socket).2) ∧
      Option.Rel (fun one other => Holds sizes one.1 one.2.1 other.1 ∧ one.2.2 = other.2) result
        (recvHeader sizes rounds data parser socket).1 := by
  induction rounds generalizing buffer offset data parser socket with
  | zero => exact ⟨none, rfl, .none⟩
  | succ rounds ih =>
      rw [recvHeaderIn, recvHeader]
      obtain ⟨⟨⟨len, bytes⟩, later⟩, read⟩ : ∃ result,
        SocketStream.readBuffer (sizes.request - data.length) socket = result := ⟨_, rfl⟩
      obtain ⟨filled, count, received, fills⟩ := receiveIn_eq holds read
      simp only [read, received, Option.bind_eq_bind, Option.bind_some]
      by_cases none : len ≤ 0
      · rw [if_pos none, if_pos none]
        exact ⟨_, rfl, .none⟩
      · have fills := fills (Int.lt_of_not_ge none)
        have there := fills.starts.length_le
        simp only [if_neg none, fills.offset, fills.take (Nat.le_refl _), List.take_length, there,
          guard_true]
        cases found : getLastRN (data ++ bytes) with
        | none => exact ih fills
        | some stdLen =>
            obtain ⟨shifted, left, executed, shifts⟩ := @executeIn_eq _ _ _ _ _ parser bounded fills
              _ (getLastRN_some found).1
            simp only [executed, Option.bind_some, shifts.full]
            generalize parser.execute (data ++ bytes) stdLen = result at shifts ⊢
            split
            · exact ⟨_, rfl, .none⟩
            · split
              · exact ⟨_, rfl, .none⟩
              · split
                · exact ⟨_, rfl, .some ⟨shifts, rfl⟩⟩
                · exact ih shifts

/-- `ReadFixSize` brings all the bytes, or fails. -/
theorem readFixBuffer_length {left : Nat} (some : 0 < left)
    (got : 0 < (Stream.readFixBuffer sizes.stream left socket).1.1) :
    (Stream.readFixBuffer sizes.stream left socket).1.2.length = left := by
  have connected : socket.connected = true := by
    by_contra closed
    exact absurd (Stream.readFixBuffer_fails some (.inl (eq_false_of_ne_true closed)))
      (Int.not_le.mpr got)
  have enough : left ≤ socket.incoming.length := by
    by_contra short
    exact absurd (Stream.readFixBuffer_fails some (.inr (Nat.lt_of_not_le short)))
      (Int.not_le.mpr got)
  obtain ⟨later, takes⟩ := Socket.takes_buffer sizes.stream_pos 0 enough
  rw [Stream.readFixBuffer_eq takes connected]
  exact List.length_take_of_le enough

/-- What is copied of the buffer is as long as the data, or as the body. -/
theorem Holds.copied (holds : Holds sizes buffer offset data) (bodySize : BitVec 32) :
    let count := if bodySize < offset then bodySize else offset
    let part := if bodySize.toNat < data.length then data.take bodySize.toNat else data
    count.toNat = part.length ∧ part.length ≤ bodySize.toNat ∧
      buffer.take count.toNat = part ∧ count.toNat ≤ buffer.length := by
  have length := holds.starts.length_le
  intro count part
  have comes : count.toNat = part.length ∧ part.length ≤ bodySize.toNat ∧
      part = data.take count.toNat ∧ count.toNat ≤ data.length := by
    by_cases more : bodySize < offset
    · have longer : bodySize.toNat < data.length := holds.offset ▸ more
      simp only [count, part, if_pos more, if_pos longer]
      rw [List.length_take_of_le longer.le]
      exact ⟨rfl, Nat.le_refl _, trivial, longer.le⟩
    · have shorter : ¬ bodySize.toNat < data.length := holds.offset ▸ more
      simp only [count, part, if_neg more, if_neg shorter, holds.offset, List.take_length]
      exact ⟨trivial, Nat.le_of_not_lt shorter, trivial, Nat.le_refl _⟩
  exact ⟨comes.1, comes.2.1, (holds.take comes.2.2.2).trans comes.2.2.1.symm,
    comes.2.2.2.trans length⟩

/-- The copies stay in the buffer and the body, and come to the same. -/
theorem recvBodyIn_eq (holds : Holds sizes buffer offset data) (bodySize : BitVec 32)
    (request : HttpRequest) : recvBodyIn sizes bodySize buffer offset request socket =
      some (recvBody sizes bodySize.toNat data request socket) := by
  obtain ⟨count, fits, same, there⟩ := holds.copied bodySize
  rw [recvBodyIn, recvBody]
  by_cases some : 0 < bodySize
  · rw [if_pos some, if_pos (show 0 < bodySize.toNat from some)]
    dsimp only at count fits same there ⊢
    generalize (if bodySize < offset then bodySize else offset) = copied at *
    generalize (if bodySize.toNat < data.length then data.take bodySize.toNat else data) = part at *
    rw [count] at same there
    have first : copy (List.replicate bodySize.toNat 0) 0 buffer part.length =
        Option.some (part ++ List.replicate (bodySize.toNat - part.length) 0) := by
      rw [copy_eq (by rw [List.length_replicate]; omega) there, same, List.take_zero,
        List.nil_append, Nat.zero_add, List.drop_replicate]
    have left : (bodySize - copied).toNat = bodySize.toNat - part.length := by
      rw [BitVec.toNat_sub_of_le (by rw [BitVec.le_def]; omega), count]
    have remains : 0 < bodySize - copied ↔ 0 < bodySize.toNat - part.length := by
      rw [BitVec.lt_def, left]
      rfl
    simp only [count, first, Option.bind_eq_bind, Option.bind_some, remains, left]
    split
    case isTrue more =>
      have inside : part.length + (bodySize.toNat - part.length) ≤
          (part ++ List.replicate (bodySize.toNat - part.length) (0 : Byte)).length := by
        rw [List.length_append, List.length_replicate]
      simp only [inside, guard_true]
      have brings := @readFixBuffer_length sizes socket _ more
      generalize Stream.readFixBuffer sizes.stream (bodySize.toNat - part.length) socket = read at *
      obtain ⟨⟨ret, bytes⟩, later⟩ := read
      dsimp only at brings ⊢
      by_cases fails : ret ≤ 0
      · rw [if_pos fails, if_pos fails]
        rfl
      · rw [if_neg fails, if_neg fails]
        have length := brings (Int.lt_of_not_ge fails)
        have second : copy (part ++ List.replicate (bodySize.toNat - part.length) 0) part.length
            bytes bytes.length = Option.some (part ++ bytes) := by
          rw [copy_eq (length.symm ▸ inside) (Nat.le_refl _), List.take_left, List.take_length,
            List.drop_eq_nil_of_le, List.append_nil]
          rw [List.length_append, List.length_replicate, length]
        rw [second]
        rfl
    case isFalse all =>
      rw [Nat.eq_zero_of_not_pos all, List.replicate_zero, List.append_nil]
      rfl
  · rw [if_neg some, if_neg (show ¬ 0 < bodySize.toNat from some)]

variable (sizes) in
/-- `RecvRequest` leaves neither the buffer nor the body, whatever is in the buffer at first. -/
theorem recvRequestIn_eq (bounded : machine.Bounded) (size : buffer.length = sizes.request) :
    recvRequestIn machine sizes buffer socket = some (recvRequest machine sizes socket) := by
  have start : Holds sizes buffer 0 [] := ⟨size, rfl, List.nil_prefix⟩
  obtain ⟨result, header, same⟩ := @recvHeaderIn_eq _ _ _ _ _ socket {} bounded
    (socket.incoming.length + 1) start
  rw [recvRequestIn, recvRequest]
  generalize recvHeader sizes (socket.incoming.length + 1) [] ({} : HttpRequestParser machine)
    socket = read at *
  obtain ⟨read, later⟩ := read
  simp only [header, Option.bind_eq_bind, Option.bind_some]
  cases same with
  | none => rfl
  | @some one other both =>
      obtain ⟨buffer, offset, parser⟩ := one
      obtain ⟨data, also⟩ := other
      obtain ⟨holds, rfl⟩ : Holds sizes buffer offset data ∧ parser = also := both
      dsimp only
      split
      · rfl
      · obtain ⟨request, later⟩ := sendContinue sizes parser.request later
        cases request with
        | none => rfl
        | some request =>
            dsimp only
            rw [recvBodyIn_eq holds, Option.bind_some]
            obtain ⟨request, later⟩ := recvBody sizes _ data request later
            cases request with
            | none => rfl
            | some request => rfl

end Refinement

end Xten.http
