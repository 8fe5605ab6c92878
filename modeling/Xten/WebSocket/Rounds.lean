import Xten.WebSocket.Control

/-!
# Hostile streams

The rounds of `WSRecvMessage`, one after the other, on any bytes. Whatever comes, a message is
shorter than the limit. The test of the opcode accepts every frame but a `PING` or a `PONG`, so
that a `CLOSE`, a reserved opcode, or a `CONTINUE` without a message before it is refused only
if something else is wrong with it.
-/

namespace Xten.http

open Std.IntegerCodec

section Rounds

variable (maxSize : BitVec 32) (client : Bool)

/-- Whether the head is of a `PING` or a `PONG`. -/
def WSFrameHead.IsControl (head : WSFrameHead) : Prop :=
  head.opcode = PING ∨ head.opcode = PONG

instance (head : WSFrameHead) : Decidable head.IsControl :=
  inferInstanceAs (Decidable (_ ∨ _))

/-- One round of the loop, on a connection that takes every answer. -/
def wsRecvRound (self : Receiving) (bytes : List Byte) : Except Received Receiving × List Byte :=
  match readOr bytesTransport 2 bytes with
  | (none, bytes) => (.error .null, bytes)
  | (some read, bytes) =>
      let head := WSFrameHead.ofBytes read
      if head.IsControl then (.ok self, bytes)
      else self.frame bytesTransport maxSize client head bytes

/-- The locals and the bytes that rounds lead to. -/
inductive Rounds (self : Receiving) (bytes : List Byte) : Receiving → List Byte → Prop where
  | refl : Rounds self bytes self bytes
  | tail {middle next : Receiving} {rest later : List Byte}
      (rounds : Rounds self bytes middle rest)
      (round : wsRecvRound maxSize client middle rest = (.ok next, later)) :
      Rounds self bytes next later

/-- The locals of a call that begins. -/
def Receiving.initial : Receiving :=
  ⟨[], 0, 0⟩

/-- The call gets to a round that reads this head, with these locals and these bytes behind it. -/
def Meets (bytes : List Byte) (self : Receiving) (head : WSFrameHead) (rest : List Byte) : Prop :=
  Rounds maxSize client .initial bytes self (head.bytes ++ rest)

/-- A `CLOSE`, a reserved opcode, or a `CONTINUE` with no message in progress. -/
def Unexpected (self : Receiving) (head : WSFrameHead) : Prop :=
  ¬ head.IsControl ∧ head.opcode ≠ WSFrameHead.TEXT_FRAME ∧
    head.opcode ≠ WSFrameHead.BIN_FRAME ∧
    (head.opcode = WSFrameHead.CONTINUE → self.data = [])

/-- The call returns a null pointer from this round, and has closed the stream. -/
structure Refused (bufferSize : Nat) (socket : Socket) (locals : Receiving) (head : WSFrameHead)
    (rest : List Byte) : Prop where
  round : (wsRecvRound maxSize client locals (head.bytes ++ rest)).1 = .error .null
  null : (wsRecvMessage maxSize client bufferSize socket).1 = .null
  closed : (wsRecvMessage maxSize client bufferSize socket).2.connected = false

/-- What is returned is a text or binary message, as the first frame has it, below the limit;
and what is unexpected is refused. -/
structure WellReceived (bufferSize : Nat) (socket : Socket) : Prop where
  opcode : ∀ msg, (wsRecvMessage maxSize client bufferSize socket).1 = .message msg →
    (msg.opcode = 1 ∨ msg.opcode = 2) ∧ ∃ head rest,
      Meets maxSize client socket.incoming .initial head rest ∧ ¬ head.IsControl ∧
        msg.opcode = head.opcode.toNat
  length : ∀ msg, (wsRecvMessage maxSize client bufferSize socket).1 = .message msg →
    msg.data.length < maxSize.toNat
  refused : ∀ self head rest, Meets maxSize client socket.incoming self head rest →
    Unexpected self head → Refused maxSize client bufferSize socket self head rest

/-- How many bytes the extended length takes. -/
def WSFrameHead.extended (head : WSFrameHead) : Nat :=
  if head.payload = 126 then 2 else 0

/-- The length that a receiver believes in. -/
def WSFrameHead.length (head : WSFrameHead) (rest : List Byte) : Nat :=
  if head.payload = 126 then (byteSwap 2 (ofMemory (rest.take 2) : BitVec 16)).toNat
  else if head.payload = 127 then 0
  else head.payload.toNat

/-- How many bytes come before the payload. -/
def WSFrameHead.before (head : WSFrameHead) : Nat :=
  head.extended + if head.mask then 4 else 0

/-- Something is wrong with a frame apart from its opcode: it comes to a server without a mask,
exceeds the limit, has no payload, or the bytes end within it; and where it is the payload that
fails, the data could be resized for it. -/
def Faulty (self : Receiving) (head : WSFrameHead) (rest : List Byte) : Prop :=
  client = false ∧ head.mask = false ∨
  rest.length < head.extended ∨
  maxSize ≤ self.curLen + BitVec.ofNat 32 (head.length rest) ∨
  rest.length < head.before ∨
  (self.curLen.signExtend 64 + BitVec.ofNat 64 (head.length rest)).toNat < 2 ^ 63 ∧
    (head.length rest = 0 ∨ rest.length < head.before + head.length rest)

end Rounds

section Frames

variable {maxSize : BitVec 32} {client : Bool} {self : Receiving} {head : WSFrameHead}
  {rest : List Byte}

theorem readLength_bytes : (rest.length < head.extended ∧
      (readLength bytesTransport head rest).1 = none) ∨
    (head.extended ≤ rest.length ∧ readLength bytesTransport head rest =
      (some (head.length rest), rest.drop head.extended)) := by
  unfold readLength WSFrameHead.extended WSFrameHead.length
  by_cases middle : head.payload = 126
  · simp only [if_pos middle]
    rcases Nat.lt_or_ge rest.length 2 with short | enough
    · exact .inl ⟨short, by rw [readOr_short short]; rfl⟩
    · exact .inr ⟨enough, by rw [readOr_some (by decide) enough]; rfl⟩
  · simp only [if_neg middle]
    refine .inr ⟨Nat.zero_le _, ?_⟩
    by_cases long : head.payload = 127
    · simp only [if_pos long, bytesTransport, if_pos (Nat.zero_le _)]
      rfl
    · simp only [if_neg long, List.drop_zero]

theorem readMask_bytes : (rest.length < (if head.mask then 4 else 0) ∧
      (readMask bytesTransport head rest).1 = none) ∨
    ((if head.mask then 4 else 0) ≤ rest.length ∧ ∃ mask,
      readMask bytesTransport head rest = (some mask, rest.drop (if head.mask then 4 else 0))) := by
  unfold readMask
  cases head.mask with
  | false => exact .inr ⟨Nat.zero_le _, [], rfl⟩
  | true =>
      rcases Nat.lt_or_ge rest.length 4 with short | enough
      · exact .inl ⟨short, by simp [readOr_short short]⟩
      · exact .inr ⟨enough, _, readOr_some (by decide) enough⟩

/-- What comes of a frame that is neither a `PING` nor a `PONG`: it is refused if it is faulty,
else the string cannot be resized, or the payload is taken. -/
theorem Receiving.frame_cases :
    (Faulty maxSize client self head rest ∧
      (self.frame bytesTransport maxSize client head rest).1 = .error .null) ∨
    (¬ Faulty maxSize client self head rest ∧
      2 ^ 63 ≤ (self.curLen.signExtend 64 + BitVec.ofNat 64 (head.length rest)).toNat ∧
      (self.frame bytesTransport maxSize client head rest).1 = .error .thrown) ∨
    (¬ Faulty maxSize client self head rest ∧
      (self.curLen.signExtend 64 + BitVec.ofNat 64 (head.length rest)).toNat < 2 ^ 63 ∧
      self.curLen + BitVec.ofNat 32 (head.length rest) < maxSize ∧
      ∃ mask payload, payload.length = head.length rest ∧ payload ≠ [] ∧
        (self.frame bytesTransport maxSize client head rest).1 =
          if head.fin then .error (.message ⟨(self.add head mask payload).opcode,
            (self.add head mask payload).data⟩)
          else .ok (self.add head mask payload)) := by
  unfold Receiving.frame
  by_cases unmasked : client = false ∧ head.mask = false
  · exact .inl ⟨.inl unmasked, by rw [if_pos unmasked]⟩
  rw [if_neg unmasked]
  obtain ⟨short, none⟩ | ⟨enough, some⟩ := @readLength_bytes head rest
  · refine .inl ⟨.inr (.inl short), ?_⟩
    generalize readLength bytesTransport head rest = read at none
    obtain ⟨length, state⟩ := read
    cases none
    rfl
  rw [some]
  simp only
  by_cases large : maxSize ≤ self.curLen + BitVec.ofNat 32 (head.length rest)
  · exact .inl ⟨.inr (.inr (.inl large)), by rw [if_pos large]⟩
  rw [if_neg large]
  have left : (rest.drop head.extended).length = rest.length - head.extended := List.length_drop
  obtain ⟨short, none⟩ | ⟨enoughMask, mask, some⟩ := @readMask_bytes head (rest.drop head.extended)
  · refine .inl ⟨.inr (.inr (.inr (.inl ?_))), ?_⟩
    · rw [left] at short
      unfold WSFrameHead.before
      omega
    · generalize readMask bytesTransport head (rest.drop head.extended) = read at none
      obtain ⟨mask, state⟩ := read
      cases none
      rfl
  rw [some]
  simp only
  rw [left] at enoughMask
  have before : head.before ≤ rest.length := by
    unfold WSFrameHead.before
    omega
  by_cases fits : 2 ^ 63 ≤
      (self.curLen.signExtend 64 + BitVec.ofNat 64 (head.length rest)).toNat
  · refine .inr (.inl ⟨?_, fits, by rw [if_pos fits]⟩)
    rintro (no | no | no | no | no)
    · exact unmasked no
    · omega
    · exact large no
    · omega
    · omega
  have body : (rest.drop head.extended).drop (if head.mask then 4 else 0) =
      rest.drop head.before := List.drop_drop
  have length : (rest.drop head.before).length = rest.length - head.before := List.length_drop
  rw [if_neg fits, body]
  by_cases nothing : head.length rest = 0
  · refine .inl ⟨.inr (.inr (.inr (.inr ⟨Nat.lt_of_not_le fits, .inl nothing⟩))), ?_⟩
    rw [nothing, readOr_zero]
  rcases Nat.lt_or_ge (rest.drop head.before).length (head.length rest) with short | enough
  · refine .inl ⟨.inr (.inr (.inr (.inr ⟨Nat.lt_of_not_le fits, .inr ?_⟩))), ?_⟩
    · omega
    · rw [readOr_short short]
  · have sized : ((rest.drop head.before).take (head.length rest)).length = head.length rest :=
      List.length_take_of_le enough
    refine .inr (.inr ⟨?_, Nat.lt_of_not_le fits, BitVec.not_le.mp large, mask,
      (rest.drop head.before).take (head.length rest), sized, ?_, ?_⟩)
    · rintro (no | no | no | no | no)
      · exact unmasked no
      · omega
      · exact large no
      · omega
      · omega
    · exact List.ne_nil_of_length_pos (by omega)
    · rw [readOr_some (Nat.pos_of_ne_zero nothing) enough]

/-- A frame is refused in its round if something is wrong with it, and only then. -/
theorem Receiving.frame_null :
    (self.frame bytesTransport maxSize client head rest).1 = .error .null ↔
      Faulty maxSize client self head rest := by
  obtain ⟨faulty, null⟩ | ⟨sound, -, thrown⟩ | ⟨sound, -, -, mask, payload, -, -, taken⟩ :=
    @frame_cases maxSize client self head rest
  · exact iff_of_true null faulty
  · exact iff_of_false (by rw [thrown]; simp) sound
  · refine iff_of_false ?_ sound
    rw [taken]
    split <;> simp

theorem wsRecvRound_head : wsRecvRound maxSize client self (head.bytes ++ rest) =
    if head.IsControl then (.ok self, rest)
    else self.frame bytesTransport maxSize client head rest := by
  have read : readOr bytesTransport 2 (head.bytes ++ rest) = (some head.bytes, rest) :=
    @readOr_append rest head.bytes (List.cons_ne_nil _ _)
  rw [wsRecvRound, read]
  simp only [WSFrameHead.ofBytes_bytes]

/-- There is a head to read, or the bytes end. -/
theorem head_cases (bytes : List Byte) :
    bytes.length < 2 ∨ ∃ head rest, bytes = WSFrameHead.bytes head ++ rest := by
  rcases bytes with - | ⟨first, - | ⟨second, rest⟩⟩
  · exact .inl (by decide)
  · exact .inl (by simp)
  · refine .inr ⟨WSFrameHead.ofBytes [first, second], rest, ?_⟩
    rw [WSFrameHead.bytes_ofBytes]
    rfl

theorem wsRecvRound_short {bytes : List Byte} (short : bytes.length < 2) :
    (wsRecvRound maxSize client self bytes).1 = .error .null := by
  rw [wsRecvRound, readOr_short short]

end Frames

section Calls

variable {maxSize : BitVec 32} {client : Bool} {self middle : Receiving} {bytes rest : List Byte}
  {bufferSize : Nat} {socket : Socket}

/-- The loop goes on with what a round leaves. -/
theorem receive_round : (receive maxSize client self bytes).1 =
    match wsRecvRound maxSize client self bytes with
    | (.ok next, later) => (receive maxSize client next later).1
    | (.error received, _) => received := by
  rcases head_cases bytes with short | ⟨head, rest, rfl⟩
  · rw [receive, wsRecvLoop, wsRecvRound, readOr_short short]
  · rw [wsRecvRound_head]
    by_cases control : head.IsControl
    · rw [if_pos control, receive_control control]
    · rw [if_neg control]
      obtain ⟨notPing, notPong⟩ := not_or.mp control
      have round : receive maxSize client self (head.bytes ++ rest) = _ :=
        wsRecvLoop_frame notPing notPong
      rw [round]
      have shorter := @Receiving.frame_shorter maxSize client self head rest
      generalize self.frame bytesTransport maxSize client head rest = taken at shorter
      obtain ⟨received | next, later⟩ := taken
      · cases received <;> rfl
      · refine congrArg Prod.fst (wsRecvLoop_receive ?_)
        have two : (head.bytes ++ rest).length = rest.length + 2 := rfl
        simp only at shorter
        omega

/-- Rounds do not change what the call comes to. -/
theorem Rounds.receive (rounds : Rounds maxSize client self bytes middle rest) :
    (receive maxSize client self bytes).1 = (receive maxSize client middle rest).1 := by
  induction rounds with
  | refl => rfl
  | tail _ round ih => rw [ih, receive_round, round]

theorem Rounds.trans {next : Receiving} {later : List Byte}
    (first : Rounds maxSize client self bytes middle rest)
    (second : Rounds maxSize client middle rest next later) :
    Rounds maxSize client self bytes next later := by
  induction second with
  | refl => exact first
  | tail _ round ih => exact ih.tail round

theorem wsRecvRound_shorter {next : Receiving} {later : List Byte}
    (round : wsRecvRound maxSize client self bytes = (.ok next, later)) :
    later.length < bytes.length := by
  rcases head_cases bytes with short | ⟨head, rest, rfl⟩
  · have null := @wsRecvRound_short maxSize client self bytes short
    rw [round] at null
    cases null
  · have two : (head.bytes ++ rest).length = rest.length + 2 := rfl
    rw [wsRecvRound_head] at round
    split at round
    · cases round
      omega
    · have shorter := @Receiving.frame_shorter maxSize client self head rest
      rw [round] at shorter
      simp only at shorter
      omega

/-- The call ends in some round. -/
theorem exists_last (maxSize : BitVec 32) (client : Bool) (self : Receiving) (bytes : List Byte) :
    ∃ middle rest, Rounds maxSize client self bytes middle rest ∧
      (wsRecvRound maxSize client middle rest).1 =
        .error (receive maxSize client self bytes).1 := by
  induction bytes using WellFounded.induction (measure List.length).wf generalizing self with
  | _ bytes ih =>
    cases round : wsRecvRound maxSize client self bytes with
    | mk result later =>
        have same := @receive_round maxSize client self bytes
        rw [round] at same
        cases result with
        | error received => exact ⟨self, bytes, .refl, by rw [round, same]⟩
        | ok next =>
            obtain ⟨middle, rest, rounds, last⟩ := ih later (wsRecvRound_shorter round) next
            have one : Rounds maxSize client self bytes next later := Rounds.refl.tail round
            exact ⟨middle, rest, one.trans rounds, by rw [last, same]⟩

/-- A null pointer is returned after the stream has been closed. -/
theorem wsRecvLoop_closed {rounds : Nat}
    (null : (wsRecvLoop (socketTransport bufferSize) maxSize client rounds self socket).1 = .null) :
    (wsRecvLoop (socketTransport bufferSize) maxSize client rounds self socket).2.connected =
      false := by
  induction rounds generalizing self socket with
  | zero => rfl
  | succ rounds ih =>
      rw [wsRecvLoop] at null ⊢
      generalize readOr (socketTransport bufferSize) 2 socket = read at null ⊢
      obtain ⟨_ | head, socket⟩ := read
      · rfl
      simp only at null ⊢
      split at null
      case isTrue ping =>
        rw [if_pos ping]
        split at null
        case isTrue fails => rw [if_pos fails]; rfl
        case isFalse wrote => rw [if_neg wrote]; exact ih null
      case isFalse notPing =>
        rw [if_neg notPing]
        split at null
        case isTrue pong => rw [if_pos pong]; exact ih null
        case isFalse notPong =>
          rw [if_neg notPong]
          generalize self.frame (socketTransport bufferSize) maxSize client
            (WSFrameHead.ofBytes head) socket = taken at null ⊢
          obtain ⟨received | next, socket⟩ := taken
          · cases received with
            | message msg => cases null
            | null => rfl
            | thrown => cases null
          · exact ih null

end Calls

section WellReceived

variable {maxSize : BitVec 32} {client : Bool} {self : Receiving} {bytes : List Byte}
  {bufferSize : Nat} {socket : Socket}

/-- What rounds lead to: nothing has been taken yet, or a part of a message that is below the
limit, with the opcode of its first frame. -/
structure Partial (maxSize : BitVec 32) (client : Bool) (bytes : List Byte) (taken : Receiving) :
    Prop where
  some : taken.data ≠ []
  length : taken.data.length < maxSize.toNat
  bound : taken.data.length < 2 ^ 31 + 2 ^ 16
  curLen : taken.curLen.toNat = taken.data.length
  opcode : taken.opcode = 1 ∨ taken.opcode = 2
  first : ∃ head rest, Meets maxSize client bytes .initial head rest ∧ ¬ head.IsControl ∧
    taken.opcode = head.opcode.toNat

theorem WSFrameHead.length_lt (head : WSFrameHead) (rest : List Byte) :
    head.length rest < 2 ^ 16 := by
  unfold WSFrameHead.length
  split
  · exact BitVec.isLt _
  · split
    · decide
    · exact head.payload.isLt.trans (by decide)

/-- Where the string can be resized and the sum of the lengths is below the limit, this is so
without a wrap. -/
theorem sum_lt {curLen : BitVec 32} {length : Nat} (short : length < 2 ^ 16)
    (bound : curLen.toNat < 2 ^ 31 + 2 ^ 16)
    (fits : (curLen.signExtend 64 + BitVec.ofNat 64 length).toNat < 2 ^ 63)
    (small : curLen + BitVec.ofNat 32 length < maxSize) :
    curLen.toNat < 2 ^ 31 ∧ (curLen + BitVec.ofNat 32 length).toNat = curLen.toNat + length ∧
      curLen.toNat + length < maxSize.toNat := by
  have low : curLen.toNat < 2 ^ 31 := by
    by_contra high
    have negative : curLen.msb = true := by
      rw [BitVec.msb_eq_decide, decide_eq_true_eq]
      omega
    rw [BitVec.toNat_add, BitVec.toNat_signExtend, negative, BitVec.toNat_setWidth,
      BitVec.toNat_ofNat] at fits
    simp only [if_true] at fits
    omega
  have sum : (curLen + BitVec.ofNat 32 length).toNat = curLen.toNat + length := by
    rw [BitVec.toNat_add, BitVec.toNat_ofNat]
    omega
  rw [BitVec.lt_def, sum] at small
  exact ⟨low, sum, small⟩

theorem expected_opcode {head : WSFrameHead} (data : ¬ head.IsControl)
    (expected : ¬ Unexpected self head) (nothing : self.data = []) :
    head.opcode ≠ WSFrameHead.CONTINUE ∧ ((head.opcode.toNat : Int) = 1 ∨
      (head.opcode.toNat : Int) = 2) := by
  have known : head.opcode = WSFrameHead.TEXT_FRAME ∨ head.opcode = WSFrameHead.BIN_FRAME := by
    by_contra other
    obtain ⟨notText, notBin⟩ := not_or.mp other
    exact expected ⟨data, notText, notBin, fun _ => nothing⟩
  obtain text | bin := known
  · rw [text]
    exact ⟨by decide, .inl rfl⟩
  · rw [bin]
    exact ⟨by decide, .inr rfl⟩

/-- A frame that is taken and is not unexpected adds to the message. -/
theorem Partial.add {head : WSFrameHead} {rest mask payload : List Byte}
    (was : self = .initial ∨ Partial maxSize client bytes self)
    (meets : Meets maxSize client bytes self head rest) (data : ¬ head.IsControl)
    (expected : ¬ Unexpected self head) (sized : payload.length = head.length rest)
    (some : payload ≠ [])
    (fits : (self.curLen.signExtend 64 + BitVec.ofNat 64 (head.length rest)).toNat < 2 ^ 63)
    (small : self.curLen + BitVec.ofNat 32 (head.length rest) < maxSize) :
    Partial maxSize client bytes (self.add head mask payload) := by
  have bound : self.curLen.toNat = self.data.length ∧ self.data.length < 2 ^ 31 + 2 ^ 16 := by
    obtain rfl | was := was
    · exact ⟨rfl, by decide⟩
    · exact ⟨was.curLen, was.bound⟩
  have short := head.length_lt rest
  obtain ⟨low, sum, less⟩ := sum_lt short (bound.1 ▸ bound.2) fits small
  have length : (self.add head mask payload).data.length = self.data.length + payload.length := by
    unfold Receiving.add
    split <;> simp
  have opcode : ((self.add head mask payload).opcode = 1 ∨
      (self.add head mask payload).opcode = 2) ∧ ∃ first rest,
        Meets maxSize client bytes .initial first rest ∧ ¬ first.IsControl ∧
          (self.add head mask payload).opcode = first.opcode.toNat := by
    obtain rfl | was := was
    · obtain ⟨notContinue, known⟩ := expected_opcode data expected rfl
      have taken : (Receiving.initial.add head mask payload).opcode = head.opcode.toNat :=
        if_pos ⟨rfl, notContinue⟩
      rw [taken]
      exact ⟨known, head, rest, meets, data, rfl⟩
    · have kept : (self.add head mask payload).opcode = self.opcode := by
        refine if_neg fun none => ?_
        have known := was.opcode
        omega
      rw [kept]
      exact ⟨was.opcode, was.first⟩
  refine ⟨?_, ?_, ?_, ?_, opcode.1, opcode.2⟩
  · refine List.ne_nil_of_length_pos ?_
    have positive := List.length_pos_iff.mpr some
    omega
  · omega
  · omega
  · rw [length, ← bound.1, sized, ← sum, ← sized]
    rfl

/-- What rounds lead to, if nothing unexpected is taken. -/
theorem Rounds.partial_of_faulty {rest : List Byte}
    (faulty : ∀ self head rest, Meets maxSize client bytes self head rest →
      Unexpected self head → Faulty maxSize client self head rest)
    (rounds : Rounds maxSize client .initial bytes self rest) :
    self = .initial ∨ Partial maxSize client bytes self := by
  induction rounds with
  | refl => exact .inl rfl
  | @tail middle next rest later rounds round ih =>
      rcases head_cases rest with short | ⟨head, rest, rfl⟩
      · have null := @wsRecvRound_short maxSize client middle rest short
        rw [round] at null
        cases null
      · rw [wsRecvRound_head] at round
        split at round
        case isTrue => cases round; exact ih
        case isFalse data =>
          have taken := congrArg Prod.fst round
          obtain ⟨-, null⟩ | ⟨-, -, thrown⟩ | ⟨sound, fits, small, mask, payload, sized, some, one⟩ :=
            @Receiving.frame_cases maxSize client middle head rest
          · cases null.symm.trans taken
          · cases thrown.symm.trans taken
          · rw [one] at taken
            split at taken
            · cases taken
            · cases taken
              exact .inr (.add ih rounds data
                (fun unexpected => sound (faulty _ _ _ rounds unexpected)) sized some fits small)

/-- A receiver does what is expected of it on a stream if and only if each unexpected frame that
it gets to is faulty for another reason. -/
theorem wellReceived_iff (positive : 0 < bufferSize) (connected : socket.connected = true) :
    WellReceived maxSize client bufferSize socket ↔
      ∀ self head rest, Meets maxSize client socket.incoming self head rest →
        Unexpected self head → Faulty maxSize client self head rest := by
  have same : (wsRecvMessage maxSize client bufferSize socket).1 =
      (receive maxSize client .initial socket.incoming).1 :=
    (wsRecvMessage_agrees ⟨connected, rfl⟩ positive).1
  constructor
  · intro well self head rest meets unexpected
    have round := (well.refused self head rest meets unexpected).round
    rw [wsRecvRound_head, if_neg unexpected.1] at round
    exact Receiving.frame_null.mp round
  · intro faulty
    have message : ∀ msg, (wsRecvMessage maxSize client bufferSize socket).1 = .message msg →
        ∃ self, Partial maxSize client socket.incoming self ∧ msg = ⟨self.opcode, self.data⟩ := by
      intro msg returned
      obtain ⟨middle, rest, rounds, last⟩ :=
        exists_last maxSize client .initial socket.incoming
      rw [← same, returned] at last
      rcases head_cases rest with short | ⟨head, rest, rfl⟩
      · cases (wsRecvRound_short short).symm.trans last
      · rw [wsRecvRound_head] at last
        split at last
        case isTrue => cases last
        case isFalse data =>
          obtain ⟨-, null⟩ | ⟨-, -, thrown⟩ | ⟨sound, fits, small, mask, payload, sized, some, one⟩ :=
            @Receiving.frame_cases maxSize client middle head rest
          · cases null.symm.trans last
          · cases thrown.symm.trans last
          · rw [one] at last
            split at last
            · cases last
              exact ⟨middle.add head mask payload, .add (rounds.partial_of_faulty faulty) rounds data
                (fun unexpected => sound (faulty _ _ _ rounds unexpected)) sized some fits small, rfl⟩
            · cases last
    refine ⟨fun msg returned => ?_, fun msg returned => ?_, fun self head rest meets unexpected => ?_⟩
    · obtain ⟨self, taken, rfl⟩ := message msg returned
      exact ⟨taken.opcode, taken.first⟩
    · obtain ⟨self, taken, rfl⟩ := message msg returned
      exact taken.length
    · have null := Receiving.frame_null.mpr (faulty self head rest meets unexpected)
      have round : (wsRecvRound maxSize client self (head.bytes ++ rest)).1 = .error .null := by
        rw [wsRecvRound_head, if_neg unexpected.1, null]
      have result : (wsRecvMessage maxSize client bufferSize socket).1 = .null := by
        rw [same, meets.receive, receive_round]
        generalize wsRecvRound maxSize client self (head.bytes ++ rest) = taken at round
        obtain ⟨result, later⟩ := taken
        cases round
        rfl
      exact ⟨round, result, wsRecvLoop_closed result⟩

/-- A round that ends the call is the last one. -/
theorem Rounds.last {middle : Receiving} {rest : List Byte}
    (last : ∀ next later, wsRecvRound maxSize client self bytes ≠ (.ok next, later))
    (rounds : Rounds maxSize client self bytes middle rest) : middle = self ∧ rest = bytes := by
  induction rounds with
  | refl => exact ⟨rfl, rfl⟩
  | tail _ round ih =>
      obtain ⟨rfl, rfl⟩ := ih
      exact absurd round (last _ _)

/-- A client's text is received. -/
theorem wellReceived_iff_text :
    WellReceived (32 * 1024 * 1024) false 16384 ⟨true, maskedText.bytes, [], fun _ => 1⟩ := by
  refine (wellReceived_iff (by decide) rfl).mpr fun self head rest meets unexpected => ?_
  have ends : ∀ next later, wsRecvRound (32 * 1024 * 1024) false .initial maskedText.bytes ≠
      (.ok next, later) := by
    intro next later ok
    have returned : (wsRecvRound (32 * 1024 * 1024) false .initial maskedText.bytes).1 =
        .error (.message ⟨1, [0x68, 0x69]⟩) := by decide
    rw [ok] at returned
    cases returned
  obtain ⟨-, whole⟩ := meets.last ends
  have isText : head = maskedText.head := by
    have split : head.bytes ++ rest = maskedText.head.bytes ++ maskedText.body := whole
    have heads : head.bytes = maskedText.head.bytes := List.append_inj_left split rfl
    rw [← head.ofBytes_bytes, heads, WSFrameHead.ofBytes_bytes]
  exact absurd (isText ▸ rfl) unexpected.2.1

/-- A masked `CLOSE` with a status code. -/
def maskedClose : Frame :=
  ⟨sendHead 8 2 true true, 0, [3, 232]⟩

/-- A `CLOSE` is returned as a message. -/
theorem not_wellReceived : ¬ ∀ (maxSize : BitVec 32) (client : Bool) (socket : Socket),
    socket.connected = true → WellReceived maxSize client 16384 socket := by
  intro claimed
  have well := claimed (32 * 1024 * 1024) false ⟨true, maskedClose.bytes, [], fun _ => 1⟩ rfl
  have returned : (wsRecvMessage (32 * 1024 * 1024) false 16384
      ⟨true, maskedClose.bytes, [], fun _ => 1⟩).1 = .message ⟨8, [3, 232]⟩ := by
    rw [(wsRecvMessage_agrees ⟨rfl, rfl⟩ (by decide)).1]
    decide
  obtain ⟨text | bin, -⟩ := well.opcode _ returned
  · cases text
  · cases bin

end WellReceived

end Xten.http
