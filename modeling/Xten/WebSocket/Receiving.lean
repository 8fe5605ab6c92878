import Xten.WebSocket.Frames

/-!
# What a receiver makes of the bytes

`WSRecvMessage` on a socket comes to what it comes to on the bytes alone: how the reads of
the transport are split does not matter, nor the bound on its rounds.
-/

namespace Xten.http

open Std.IntegerCodec

/-- The bytes that come, on a connection that takes every answer. -/
def bytesTransport : Transport (List Byte) where
  readFixSize len bytes :=
    if len ≤ bytes.length then ((len, bytes.take len), bytes.drop len) else ((0, []), [])
  writeFixSize buffer bytes := (buffer.length, bytes)
  close := id

/-- The socket is open, and has these bytes to give. -/
def Shows (socket : Socket) (bytes : List Byte) : Prop :=
  socket.connected = true ∧ socket.incoming = bytes

/-- Two results are the same, and go on from the same bytes unless the call has failed. -/
def Agrees {α : Type} (succeeds : α → Prop) (first : α × Socket) (second : α × List Byte) : Prop :=
  first.1 = second.1 ∧ (succeeds second.1 → Shows first.2 second.2)

/-- A frame has been taken in. -/
def Taken : Except Received Receiving → Prop
  | .ok _ | .error (.message _) => True
  | _ => False

def Received.IsMessage : Received → Prop
  | .message _ => True
  | _ => False

section Simulation

variable {bufferSize len : Nat} {socket : Socket} {bytes : List Byte} {head : WSFrameHead}
  {self : Receiving} {maxSize : BitVec 32} {client : Bool}

theorem WSFrameHead.ofBytes_bytes (head : WSFrameHead) : WSFrameHead.ofBytes head.bytes = head := by
  have first : ∀ (fin rsv1 rsv2 rsv3 : Bool) (opcode : BitVec 4),
      let byte : Byte := BitVec.ofBool fin ++ BitVec.ofBool rsv1 ++ BitVec.ofBool rsv2 ++
        BitVec.ofBool rsv3 ++ opcode
      byte.setWidth 4 = opcode ∧ byte.getLsbD 4 = rsv3 ∧ byte.getLsbD 5 = rsv2 ∧
        byte.getLsbD 6 = rsv1 ∧ byte.getLsbD 7 = fin := by decide
  have second : ∀ (mask : Bool) (payload : BitVec 7),
      let byte : Byte := BitVec.ofBool mask ++ payload
      byte.setWidth 7 = payload ∧ byte.getLsbD 7 = mask := by decide
  obtain ⟨opcode, rsv3, rsv2, rsv1, fin, payload, mask⟩ := head
  obtain ⟨low, third, fourth, fifth, high⟩ := first fin rsv1 rsv2 rsv3 opcode
  obtain ⟨length, masked⟩ := second mask payload
  simp only [bytes, ofBytes, List.getD_cons_zero, List.getD_cons_succ, low, third, fourth, fifth,
    high, length, masked]

/-- `ReadFixSize` takes the next bytes of an open socket that has them. -/
theorem Shows.read (shows' : Shows socket bytes) (positive : 0 < bufferSize)
    (enough : len ≤ bytes.length) :
    ∃ later, Stream.readFixBuffer bufferSize len socket = (((len : Int), bytes.take len), later) ∧
      Shows later (bytes.drop len) := by
  obtain ⟨connected, rfl⟩ := shows'
  obtain ⟨later, takes⟩ := Socket.takes_buffer positive 0 enough
  refine ⟨later, Stream.readFixBuffer_eq takes connected, ?_, takes.incoming.2⟩
  rw [takes.kept.1, connected]

theorem readOr_zero : readOr bytesTransport 0 bytes = (none, bytes) := by
  simp [readOr, bytesTransport]

theorem readOr_some (some : 0 < len) (enough : len ≤ bytes.length) :
    readOr bytesTransport len bytes = (.some (bytes.take len), bytes.drop len) := by
  have positive : ¬ (len : Int) ≤ 0 := by omega
  simp only [readOr, bytesTransport, if_pos enough, if_neg positive]

theorem readOr_short (short : bytes.length < len) : readOr bytesTransport len bytes = (none, []) := by
  simp [readOr, bytesTransport, Nat.not_le.mpr short]

theorem readOr_agrees (shows' : Shows socket bytes) (positive : 0 < bufferSize) (len : Nat) :
    Agrees (fun bytes => bytes.isSome) (readOr (socketTransport bufferSize) len socket)
      (readOr bytesTransport len bytes) := by
  rcases Nat.lt_or_ge bytes.length len with short | enough
  · have fails := @Stream.readFixBuffer_fails bufferSize _ _ (Nat.zero_lt_of_lt short)
      (.inr (by rwa [shows'.2]) : socket.connected = false ∨ socket.incoming.length < len)
    rw [readOr_short short]
    refine ⟨?_, fun some => absurd some Bool.false_ne_true⟩
    simp only [readOr, socketTransport]
    exact if_pos fails
  · obtain ⟨later, read, next⟩ := shows'.read positive enough
    simp only [readOr, socketTransport, bytesTransport, read, if_pos enough]
    exact ⟨rfl, fun _ => next⟩

theorem readLength_agrees (shows' : Shows socket bytes) (positive : 0 < bufferSize) :
    Agrees (fun len => len.isSome) (readLength (socketTransport bufferSize) head socket)
      (readLength bytesTransport head bytes) := by
  unfold readLength
  split
  · obtain ⟨same, next⟩ := readOr_agrees shows' positive 2
    refine ⟨congrArg (Option.map _) same, fun some => next ?_⟩
    simpa using some
  · split
    · obtain ⟨later, read, next⟩ := shows'.read positive (Nat.zero_le bytes.length)
      simp only [socketTransport, bytesTransport, read, if_pos (Nat.zero_le bytes.length)]
      exact ⟨rfl, fun _ => next⟩
    · exact ⟨rfl, fun _ => shows'⟩

theorem readMask_agrees (shows' : Shows socket bytes) (positive : 0 < bufferSize) :
    Agrees (fun mask => mask.isSome) (readMask (socketTransport bufferSize) head socket)
      (readMask bytesTransport head bytes) := by
  unfold readMask
  split
  · exact readOr_agrees shows' positive 4
  · exact ⟨rfl, fun _ => shows'⟩

theorem Receiving.frame_agrees (shows' : Shows socket bytes) (positive : 0 < bufferSize) :
    Agrees Taken (self.frame (socketTransport bufferSize) maxSize client head socket)
      (self.frame bytesTransport maxSize client head bytes) := by
  have failed {first : Socket} {second : List Byte} {received : Received}
      (other : ¬ received.IsMessage) :
      Agrees Taken (.error received, first) (.error received, second) := by
    refine ⟨rfl, fun taken => ?_⟩
    cases received with
    | message msg => exact absurd trivial other
    | null | thrown => exact False.elim taken
  unfold Receiving.frame
  split
  · exact failed not_false
  have lengths := @readLength_agrees _ _ _ head shows' positive
  generalize readLength (socketTransport bufferSize) head socket = first at lengths ⊢
  generalize readLength bytesTransport head bytes = second at lengths ⊢
  obtain ⟨length, socket⟩ := first
  obtain ⟨length', bytes⟩ := second
  obtain ⟨rfl, next⟩ := lengths
  cases length with
  | none => exact failed not_false
  | some len =>
      replace next := next rfl
      simp only
      split
      · exact failed not_false
      have masks := @readMask_agrees _ _ _ head next positive
      generalize readMask (socketTransport bufferSize) head socket = first at masks ⊢
      generalize readMask bytesTransport head bytes = second at masks ⊢
      obtain ⟨mask, socket⟩ := first
      obtain ⟨mask', bytes⟩ := second
      obtain ⟨rfl, next⟩ := masks
      cases mask with
      | none => exact failed not_false
      | some mask =>
          replace next := next rfl
          simp only
          split
          · exact failed not_false
          have payloads := readOr_agrees next positive len
          generalize readOr (socketTransport bufferSize) len socket = first at payloads ⊢
          generalize readOr bytesTransport len bytes = second at payloads ⊢
          obtain ⟨payload, socket⟩ := first
          obtain ⟨payload', bytes⟩ := second
          obtain ⟨rfl, next⟩ := payloads
          cases payload with
          | none => exact failed not_false
          | some payload => exact ⟨rfl, fun _ => next rfl⟩

theorem wsPong_bytes : wsPong bytesTransport bytes = (2, bytes) :=
  rfl

/-- A `PONG` goes out through an open socket. -/
theorem Shows.pong (shows' : Shows socket bytes) (positive : 0 < bufferSize) :
    ∃ later, wsPong (socketTransport bufferSize) socket = (2, later) ∧ Shows later bytes := by
  obtain ⟨connected, rfl⟩ := shows'
  obtain ⟨later, wrote, -, still⟩ := Stream.writeFixBuffer_eq positive connected
    (WSFrameHead.bytes ⟨WSFrameHead.PONG, false, false, false, true, 0, false⟩)
  have incoming := congrArg (fun result => result.2.incoming) wrote
  rw [Stream.writeFixBuffer_incoming] at incoming
  refine ⟨later, ?_, still, incoming.symm⟩
  simp only [wsPong, socketTransport, wrote]
  exact if_neg (by decide)

/-- A receiver makes of a socket what it makes of the bytes that come. -/
theorem wsRecvLoop_agrees {rounds : Nat} (shows' : Shows socket bytes) (positive : 0 < bufferSize) :
    Agrees Received.IsMessage
      (wsRecvLoop (socketTransport bufferSize) maxSize client rounds self socket)
      (wsRecvLoop bytesTransport maxSize client rounds self bytes) := by
  induction rounds generalizing self socket bytes with
  | zero => exact ⟨rfl, False.elim⟩
  | succ rounds ih =>
      have heads := readOr_agrees shows' positive 2
      rw [wsRecvLoop, wsRecvLoop]
      generalize readOr (socketTransport bufferSize) 2 socket = first at heads ⊢
      generalize readOr bytesTransport 2 bytes = second at heads ⊢
      obtain ⟨read, socket⟩ := first
      obtain ⟨read', bytes⟩ := second
      obtain ⟨rfl, next⟩ := heads
      cases read with
      | none => exact ⟨rfl, False.elim⟩
      | some read =>
          replace next := next rfl
          simp only
          split
          · obtain ⟨later, ponged, next⟩ := next.pong positive
            rw [ponged, wsPong_bytes]
            exact ih next
          split
          · exact ih next
          have frames := @Receiving.frame_agrees _ _ _ (WSFrameHead.ofBytes read) self maxSize client
            next positive
          generalize self.frame (socketTransport bufferSize) maxSize client
            (WSFrameHead.ofBytes read) socket = first at frames ⊢
          generalize self.frame bytesTransport maxSize client
            (WSFrameHead.ofBytes read) bytes = second at frames ⊢
          obtain ⟨result, socket⟩ := first
          obtain ⟨result', bytes⟩ := second
          obtain ⟨rfl, next⟩ := frames
          cases result with
          | ok self => exact ih (next trivial)
          | error received =>
              cases received with
              | message msg => exact ⟨rfl, fun _ => next trivial⟩
              | null => exact ⟨rfl, False.elim⟩
              | thrown => exact ⟨rfl, False.elim⟩

end Simulation

end Xten.http
