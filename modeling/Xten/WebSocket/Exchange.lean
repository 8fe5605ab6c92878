import Xten.WebSocket.Receiving

/-!
# Frames that are exchanged

What `WSSendMessage` writes for a payload below the length of 65535 is what the loop of
`WSRecvMessage` takes in one round. A longer payload ends the call: its length is not read.
-/

namespace Xten.http

open Std.IntegerCodec

section Masks

variable {mask data : List Byte}

@[simp] theorem length_applyMask : (applyMask mask data).length = data.length := by
  simp [applyMask]

/-- A mask that is applied twice is gone. -/
@[simp] theorem applyMask_applyMask : applyMask mask (applyMask mask data) = data := by
  apply List.ext_getElem
  · simp
  · intro index first second
    simp [applyMask, BitVec.xor_assoc]

end Masks

/-- A frame on its way, with the payload as it is sent. -/
structure Frame where
  head : WSFrameHead
  mask : BitVec 32
  payload : List Byte
deriving DecidableEq, Repr

namespace Frame

def extended (frame : Frame) : List Byte :=
  if frame.head.payload = 126 then memory 2 (byteSwap 2 (BitVec.ofNat 16 frame.payload.length))
  else if frame.head.payload = 127 then
    memory 8 (byteSwap 8 (BitVec.ofNat 64 frame.payload.length))
  else []

/-- The bytes behind the head. -/
def body (frame : Frame) : List Byte :=
  frame.extended ++ ((if frame.head.mask then memory 4 frame.mask else []) ++ frame.payload)

def bytes (frame : Frame) : List Byte := frame.head.bytes ++ frame.body

/-- The length in the head is that of the payload. -/
structure Valid (frame : Frame) : Prop where
  middle : frame.head.payload = 126 → frame.payload.length < 2 ^ 16
  long : frame.head.payload = 127 → frame.payload.length < 2 ^ 64
  short : frame.head.payload ≠ 126 → frame.head.payload ≠ 127 →
    frame.payload.length = frame.head.payload.toNat

/-- The length that a receiver believes in. -/
def length (frame : Frame) : Nat :=
  if frame.head.payload = 127 then 0 else frame.payload.length

/-- What a receiver makes of a data frame. -/
def outcome (frame : Frame) (maxSize : BitVec 32) (client : Bool) (self : Receiving) :
    Except Received Receiving :=
  if client = false ∧ frame.head.mask = false then .error .null
  else if maxSize ≤ self.curLen + BitVec.ofNat 32 frame.length then .error .null
  else if 2 ^ 63 ≤ (self.curLen.signExtend 64 + BitVec.ofNat 64 frame.length).toNat then
    .error .thrown
  else if frame.length = 0 then .error .null
  else
    let next := self.add frame.head (memory 4 frame.mask) frame.payload
    if frame.head.fin then .error (.message ⟨next.opcode, next.data⟩) else .ok next

end Frame

/-- What a side of a connection makes of the payload it sends. -/
def masked (client : Bool) (rand : BitVec 32) (data : List Byte) : List Byte :=
  if client then applyMask (memory 4 rand) data else data

/-- What stands before the payload of a frame. -/
def frameStart (opcode : Int) (rand : BitVec 32) (client fin : Bool) (length : Int) :
    List (List Byte) :=
  (sendHead opcode length client fin).bytes ::
    extendedLength (sendHead opcode length client fin) length ++
      if client then [memory 4 rand] else []

/-- The bytes of a frame. -/
def frameBytes (opcode : Int) (rand : BitVec 32) (client fin : Bool) (data : List Byte) : List Byte :=
  (frameStart opcode rand client fin data.length).flatten ++ masked client rand data

/-- A call reads the same whatever the bound on its rounds. -/
def receive (maxSize : BitVec 32) (client : Bool) (self : Receiving) (bytes : List Byte) :
    Received × List Byte :=
  wsRecvLoop bytesTransport maxSize client (bytes.length + 1) self bytes

section Sending

variable {bufferSize : Nat} {socket : Socket} {rand : BitVec 32} {client fin : Bool}
  {opcode : Int} {data : List Byte} {buffers : List (List Byte)}

/-- The writes of a frame go out one after the other. -/
theorem writeEach_eq (positive : 0 < bufferSize) (connected : socket.connected = true)
    (some : ∀ buffer ∈ buffers, buffer ≠ []) :
    ∃ later, writeEach (socketTransport bufferSize) buffers socket = (true, later) ∧
      later.connected = true ∧ later.outgoing = socket.outgoing ++ buffers.flatten := by
  induction buffers generalizing socket with
  | nil => exact ⟨socket, rfl, connected, by simp⟩
  | cons buffer buffers ih =>
      obtain ⟨middle, wrote, outgoing, still⟩ := Stream.writeFixBuffer_eq positive connected buffer
      obtain ⟨later, rest, last, whole⟩ := ih still fun other member =>
        some other (List.mem_cons_of_mem _ member)
      have length : 0 < buffer.length := List.length_pos_iff.mpr (some buffer List.mem_cons_self)
      refine ⟨later, ?_, last, ?_⟩
      · simp only [writeEach, socketTransport, wrote]
        rw [if_neg (by omega)]
        exact rest
      · rw [whole, outgoing, List.flatten_cons, List.append_assoc]

theorem extendedLength_ne_nil {head : WSFrameHead} {length : Int} {buffer : List Byte}
    (member : buffer ∈ extendedLength head length) : buffer ≠ [] := by
  unfold extendedLength at member
  split_ifs at member
  · rw [List.mem_singleton.mp member]
    exact List.cons_ne_nil _ _
  · rw [List.mem_singleton.mp member]
    exact List.cons_ne_nil _ _
  · cases member

/-- The length of a payload below 2 GiB is what it is as an `int`. -/
theorem toInt_length (small : data.length < 2 ^ 31) :
    (BitVec.ofNat 32 data.length).toInt = data.length := by
  rw [BitVec.toInt_eq_toNat_of_lt] <;> rw [BitVec.toNat_ofNat] <;> omega

theorem frameStart_ne_nil {length : Int} {buffer : List Byte}
    (member : buffer ∈ frameStart opcode rand client fin length) : buffer ≠ [] := by
  obtain inStart | isMask := List.mem_append.mp member
  · obtain rfl | extended := List.mem_cons.mp inStart
    · exact List.cons_ne_nil _ _
    · exact extendedLength_ne_nil extended
  · split_ifs at isMask
    · rw [List.mem_singleton.mp isMask]
      exact List.cons_ne_nil _ _
    · cases isMask

/-- `WSSendMessage` writes a frame. -/
theorem wsSendMessage_eq (positive : 0 < bufferSize) (connected : socket.connected = true)
    (notClose : opcode ≠ 8) (some : data ≠ []) (small : data.length < 2 ^ 31) :
    ∃ later, wsSendMessage (socketTransport bufferSize) rand ⟨opcode, data⟩ client fin socket =
        .some (data.length + 2, later) ∧
      later.connected = true ∧
      later.outgoing = socket.outgoing ++ frameBytes opcode rand client fin data := by
  have length : 0 < data.length := List.length_pos_iff.mpr some
  obtain ⟨middle, started, still, outgoing⟩ := writeEach_eq positive connected
    fun buffer member => @frameStart_ne_nil rand client fin opcode data.length buffer member
  have masks : (if client = true then applyMask (memory 4 rand) data else data) =
      masked client rand data := rfl
  have size : (masked client rand data).length = data.length := by
    rw [masked]
    split <;> simp
  obtain ⟨later, wrote, sent, last⟩ := Stream.writeFixBuffer_eq positive still
    (masked client rand data)
  have more : ¬ (data.length : Int) < 0 := by omega
  have written : ¬ (data.length : Int) ≤ 0 := by omega
  refine ⟨later, ?_, last, ?_⟩
  · unfold wsSendMessage
    simp only [if_neg notClose, toInt_length small]
    rw [frameStart] at started
    have sends : (socketTransport bufferSize).writeFixSize (masked client rand data) middle =
        (↑data.length, later) := by
      rw [← size]
      exact wrote
    simp only [started, if_neg more, masks, Int.toNat_natCast, List.take_of_length_le size.le,
      sends, if_neg written]
  · rw [sent, outgoing, List.append_assoc]
    rfl

/-- A length that is negative as an `int` makes `WSSendMessage` run past the data. -/
theorem wsSendMessage_overrun (positive : 0 < bufferSize) (connected : socket.connected = true)
    (notClose : opcode ≠ 8) (large : 2 ^ 31 ≤ data.length) (bound : data.length < 2 ^ 32) :
    wsSendMessage (socketTransport bufferSize) rand ⟨opcode, data⟩ client fin socket = none := by
  have negative : (BitVec.ofNat 32 data.length).toInt < 0 := by
    rw [BitVec.toInt_eq_toNat_cond, BitVec.toNat_ofNat]
    omega
  obtain ⟨middle, started, -, -⟩ := writeEach_eq positive connected
    fun buffer member => @frameStart_ne_nil rand client fin opcode
      (BitVec.ofNat 32 data.length).toInt buffer member
  rw [frameStart] at started
  unfold wsSendMessage
  simp only [if_neg notClose, started, if_pos negative]

/-- Nothing to send is taken for a failure. -/
theorem wsSendMessage_empty {ret : Int} {later : Socket} (notClose : opcode ≠ 8)
    (sent : wsSendMessage (socketTransport bufferSize) rand ⟨opcode, []⟩ client fin socket =
      some (ret, later)) : ret = -1 := by
  have nothing : (if client then applyMask (memory 4 rand) [] else []).take
      (BitVec.ofNat 32 ([] : List Byte).length).toInt.toNat = [] := by
    cases client <;> rfl
  unfold wsSendMessage at sent
  simp only [if_neg notClose] at sent
  split at sent
  case h_1 => cases sent; rfl
  case h_2 state started =>
    rw [nothing] at sent
    simp only [socketTransport, Stream.writeFixBuffer, Stream.writeBufferLoop] at sent
    simp at sent
    exact sent.1.symm

end Sending

section Receiving

variable {maxSize : BitVec 32} {client fin : Bool} {self : Receiving} {rounds : Nat}
  {head : WSFrameHead} {bytes rest : List Byte}

theorem readOr_append {buffer : List Byte} (some : buffer ≠ []) :
    readOr bytesTransport buffer.length (buffer ++ rest) = (.some buffer, rest) := by
  rw [readOr_some (List.length_pos_iff.mpr some) (by simp)]
  simp

/-- A round for a frame that is neither a `PING` nor a `PONG`. -/
theorem wsRecvLoop_frame (notPing : head.opcode ≠ WSFrameHead.PING)
    (notPong : head.opcode ≠ WSFrameHead.PONG) :
    wsRecvLoop bytesTransport maxSize client (rounds + 1) self (head.bytes ++ bytes) =
      match self.frame bytesTransport maxSize client head bytes with
      | (.ok next, state) => wsRecvLoop bytesTransport maxSize client rounds next state
      | (.error .null, state) => (.null, bytesTransport.close state)
      | (.error received, state) => (received, state) := by
  have read : readOr bytesTransport 2 (head.bytes ++ bytes) = (some head.bytes, bytes) :=
    @readOr_append bytes head.bytes (List.cons_ne_nil _ _)
  rw [wsRecvLoop, read]
  simp only [WSFrameHead.ofBytes_bytes, if_neg notPing, if_neg notPong]
  generalize self.frame bytesTransport maxSize client head bytes = result
  obtain ⟨received | next, state⟩ := result
  · cases received <;> rfl
  · rfl

/-- A `PING` or a `PONG` takes its head away. -/
theorem wsRecvLoop_control (control : head.opcode = WSFrameHead.PING ∨
    head.opcode = WSFrameHead.PONG) :
    wsRecvLoop bytesTransport maxSize client (rounds + 1) self (head.bytes ++ bytes) =
      wsRecvLoop bytesTransport maxSize client rounds self bytes := by
  have read : readOr bytesTransport 2 (head.bytes ++ bytes) = (some head.bytes, bytes) :=
    @readOr_append bytes head.bytes (List.cons_ne_nil _ _)
  rw [wsRecvLoop, read]
  simp only [WSFrameHead.ofBytes_bytes]
  split
  case isTrue => rfl
  case isFalse notPing => rw [if_pos (control.resolve_left notPing)]

section Frames

variable {frame : Frame}

theorem readLength_body (valid : frame.Valid) :
    readLength bytesTransport frame.head (frame.body ++ rest) = (some frame.length,
      if frame.head.payload = 127 then frame.body ++ rest
      else (if frame.head.mask then memory 4 frame.mask else []) ++ (frame.payload ++ rest)) := by
  unfold readLength Frame.body Frame.extended Frame.length
  by_cases short : frame.head.payload = 126
  · have other : ¬ frame.head.payload = 127 := by
      rw [short]
      decide
    have read := @readOr_append ((if frame.head.mask then memory 4 frame.mask else []) ++
      (frame.payload ++ rest)) (memory 2 (byteSwap 2 (BitVec.ofNat 16 frame.payload.length)))
      (List.cons_ne_nil _ _)
    rw [length_memory] at read
    simp only [if_pos short, if_neg other, List.append_assoc, read, Option.map_some]
    rw [@ofMemory_memory 2, byteSwap_byteSwap, BitVec.toNat_ofNat,
      Nat.mod_eq_of_lt (valid.middle short)]
  by_cases long : frame.head.payload = 127
  · simp only [if_neg short, if_pos long, bytesTransport, if_pos (Nat.zero_le _)]
    rfl
  · simp only [if_neg short, if_neg long, List.nil_append, List.append_assoc,
      valid.short short long]

/-- A frame is taken in whole, or ends the call. -/
theorem frame_body (valid : frame.Valid) :
    (self.frame bytesTransport maxSize client frame.head (frame.body ++ rest)).1 =
        frame.outcome maxSize client self ∧
      (Taken (frame.outcome maxSize client self) →
        (self.frame bytesTransport maxSize client frame.head (frame.body ++ rest)).2 = rest) := by
  unfold Receiving.frame Frame.outcome
  split
  case isTrue => exact ⟨rfl, False.elim⟩
  rw [readLength_body valid]
  simp only
  split
  case isTrue => exact ⟨rfl, False.elim⟩
  by_cases long : frame.head.payload = 127
  · -- The mask is taken from the bytes of the length, and there is no payload to read.
    have none : frame.length = 0 := if_pos long
    have enough : 4 ≤ (frame.body ++ rest).length := by
      have extended : frame.extended.length = 8 := by
        have other : ¬ frame.head.payload = 126 := by
          rw [long]
          decide
        rw [Frame.extended, if_neg other, if_pos long, length_memory]
      rw [List.length_append, Frame.body, List.length_append]
      omega
    have mask : ∃ mask state,
        readMask bytesTransport frame.head (frame.body ++ rest) = (some mask, state) := by
      unfold readMask
      split
      · exact ⟨_, _, readOr_some (by decide) enough⟩
      · exact ⟨_, _, rfl⟩
    obtain ⟨mask, state, read⟩ := mask
    rw [if_pos long, read, none]
    simp only
    split
    case isTrue => exact ⟨rfl, False.elim⟩
    rw [readOr_zero, if_pos trivial]
    exact ⟨rfl, False.elim⟩
  · have length : frame.length = frame.payload.length := if_neg long
    have mask : readMask bytesTransport frame.head
        ((if frame.head.mask then memory 4 frame.mask else []) ++ (frame.payload ++ rest)) =
          (some (if frame.head.mask then memory 4 frame.mask else []), frame.payload ++ rest) := by
      unfold readMask
      split
      · exact @readOr_append (frame.payload ++ rest) (memory 4 frame.mask) (List.cons_ne_nil _ _)
      · rfl
    rw [if_neg long, mask, length]
    simp only
    split
    case isTrue => exact ⟨rfl, False.elim⟩
    by_cases empty : frame.payload = []
    · rw [empty, List.length_nil, readOr_zero, if_pos rfl]
      exact ⟨rfl, False.elim⟩
    · have some : ¬ frame.payload.length = 0 := fun none =>
        empty (List.length_eq_zero_iff.mp none)
      have same : self.add frame.head (if frame.head.mask then memory 4 frame.mask else [])
          frame.payload = self.add frame.head (memory 4 frame.mask) frame.payload := by
        unfold Receiving.add
        cases frame.head.mask <;> rfl
      rw [readOr_append empty, if_neg some]
      simp only [same]
      exact ⟨trivial, fun _ => trivial⟩

end Frames

section Rounds

theorem readOr_shorter (len : Nat) :
    (readOr bytesTransport len bytes).2.length ≤ bytes.length := by
  simp only [readOr, bytesTransport]
  split
  · rw [List.length_drop]
    exact Nat.sub_le _ _
  · exact Nat.zero_le _

theorem readLength_shorter : (readLength bytesTransport head bytes).2.length ≤ bytes.length := by
  unfold readLength
  split
  · exact readOr_shorter 2
  · split
    · simp [bytesTransport]
    · exact Nat.le_refl _

theorem readMask_shorter : (readMask bytesTransport head bytes).2.length ≤ bytes.length := by
  unfold readMask
  split
  · exact readOr_shorter 4
  · exact Nat.le_refl _

/-- No bytes are made. -/
theorem Receiving.frame_shorter :
    (self.frame bytesTransport maxSize client head bytes).2.length ≤ bytes.length := by
  unfold Receiving.frame
  split
  · exact Nat.le_refl _
  have lengths := @readLength_shorter head bytes
  generalize readLength bytesTransport head bytes = read at lengths ⊢
  obtain ⟨_ | len, state⟩ := read
  · exact lengths
  simp only
  split
  · exact lengths
  have masks := (@readMask_shorter head state).trans lengths
  generalize readMask bytesTransport head state = read at masks ⊢
  obtain ⟨_ | mask, state⟩ := read
  · exact masks
  simp only
  split
  · exact masks
  have payloads := (@readOr_shorter state len).trans masks
  generalize readOr bytesTransport len state = read at payloads ⊢
  obtain ⟨_ | payload, state⟩ := read <;> exact payloads

theorem wsRecvLoop_rounds {others : Nat} (enough : bytes.length < rounds)
    (enough' : bytes.length < others) :
    wsRecvLoop bytesTransport maxSize client rounds self bytes =
      wsRecvLoop bytesTransport maxSize client others self bytes := by
  induction rounds generalizing self bytes others with
  | zero => cases enough
  | succ rounds ih =>
      obtain ⟨others, rfl⟩ := Nat.exists_eq_succ_of_ne_zero (Nat.ne_zero_of_lt enough')
      rw [wsRecvLoop, wsRecvLoop]
      rcases Nat.lt_or_ge bytes.length 2 with short | two
      · rw [readOr_short short]
      · rw [readOr_some (by decide) two]
        have shorter : (bytes.drop 2).length + 2 = bytes.length := by
          rw [List.length_drop]
          omega
        simp only [wsPong_bytes]
        split
        · exact ih (by omega) (by omega)
        split
        · exact ih (by omega) (by omega)
        have left := @Receiving.frame_shorter maxSize client self
          (WSFrameHead.ofBytes (bytes.take 2)) (bytes.drop 2)
        generalize self.frame bytesTransport maxSize client (WSFrameHead.ofBytes (bytes.take 2))
          (bytes.drop 2) = result at left ⊢
        obtain ⟨received | next, state⟩ := result
        · cases received <;> rfl
        · simp only at left
          exact ih (by omega) (by omega)

/-- A bound above the bytes does not matter. -/
theorem wsRecvLoop_receive (enough : bytes.length < rounds) :
    wsRecvLoop bytesTransport maxSize client rounds self bytes =
      receive maxSize client self bytes :=
  wsRecvLoop_rounds enough (Nat.lt_succ_self _)

/-- A data frame that comes first. -/
theorem receive_frame {frame : Frame} (valid : frame.Valid)
    (notPing : frame.head.opcode ≠ WSFrameHead.PING)
    (notPong : frame.head.opcode ≠ WSFrameHead.PONG) :
    match frame.outcome maxSize client self with
    | .ok next =>
        receive maxSize client self (frame.bytes ++ rest) = receive maxSize client next rest
    | .error received =>
        (receive maxSize client self (frame.bytes ++ rest)).1 = received ∧
          (received.IsMessage → (receive maxSize client self (frame.bytes ++ rest)).2 = rest) := by
  obtain ⟨result, left⟩ := @frame_body maxSize client self rest frame valid
  have round : receive maxSize client self (frame.bytes ++ rest) = _ :=
    (congrArg (wsRecvLoop bytesTransport maxSize client _ self) (List.append_assoc _ _ _)).trans
      (wsRecvLoop_frame notPing notPong)
  rw [round]
  have shorter := @Receiving.frame_shorter maxSize client self frame.head (frame.body ++ rest)
  generalize self.frame bytesTransport maxSize client frame.head (frame.body ++ rest) = taken at *
  obtain ⟨outcome, state⟩ := taken
  simp only at result
  subst result
  generalize frame.outcome maxSize client self = outcome at *
  cases outcome with
  | ok next =>
      obtain rfl := left trivial
      simp only
      refine wsRecvLoop_receive ?_
      simp only [Frame.bytes, List.length_append]
      have two : frame.head.bytes.length = 2 := rfl
      omega
  | error received =>
      cases received with
      | message msg => exact ⟨rfl, fun _ => left trivial⟩
      | null => exact ⟨rfl, False.elim⟩
      | thrown => exact ⟨rfl, False.elim⟩

/-- The head of a control frame that comes first. -/
theorem receive_control (control : head.opcode = WSFrameHead.PING ∨
    head.opcode = WSFrameHead.PONG) :
    receive maxSize client self (head.bytes ++ bytes) = receive maxSize client self bytes := by
  refine (wsRecvLoop_control control).trans (wsRecvLoop_receive ?_)
  rw [List.length_append]
  exact Nat.lt_add_of_pos_left (Nat.zero_lt_succ 1)

end Rounds

end Receiving

end Xten.http
