import Xten.WebSocket.Exchange

/-!
# What is sent and what is received

A message that `WSSendMessage` writes in one frame comes back from `WSRecvMessage` exactly
if its length needs no 64 bits, and a message in fragments exactly if none of them is empty
and the length before the last is no negative `int`.
-/

namespace Xten.http

open Std.IntegerCodec

/-- The frame that `WSSendMessage` writes. -/
def sentFrame (opcode : Int) (rand : BitVec 32) (client fin : Bool) (data : List Byte) : Frame :=
  ⟨sendHead opcode data.length client fin, rand, masked client rand data⟩

/-- `WSRecvMessage` at the other end returns the message that was sent in one frame, and
leaves nothing of it. -/
def RoundTrips (bufferSize : Nat) (maxSize rand : BitVec 32) (client : Bool)
    (msg : WSFrameMessage) : Prop :=
  ∀ sender : Socket, sender.connected = true →
    ∃ ret later, wsSendMessage (socketTransport bufferSize) rand msg client true sender =
        some (ret, later) ∧
      ∀ receiver : Socket, receiver.connected = true →
        later.outgoing = sender.outgoing ++ receiver.incoming →
          ∃ last, wsRecvMessage maxSize (!client) bufferSize receiver = (.message msg, last) ∧
            last.incoming = []

/-- `WSSendMessage` for one fragment after the other, with the mask of each: the first
frame has the opcode of the message, and the last one `fin`. -/
def sendFragments (bufferSize : Nat) (client : Bool) :
    Int → List (BitVec 32 × List Byte) → Socket → Option (List Int × Socket)
  | _, [], socket => some ([], socket)
  | opcode, (rand, data) :: fragments, socket => do
      let (ret, socket) ← wsSendMessage (socketTransport bufferSize) rand ⟨opcode, data⟩ client
        fragments.isEmpty socket
      let (rets, socket) ← sendFragments bufferSize client 0 fragments socket
      return (ret :: rets, socket)

/-- Every call reports success, and `WSRecvMessage` at the other end puts the fragments
together again. -/
def Reassembles (bufferSize : Nat) (maxSize : BitVec 32) (client : Bool) (opcode : Int)
    (fragments : List (BitVec 32 × List Byte)) : Prop :=
  ∀ sender : Socket, sender.connected = true →
    ∃ rets later, sendFragments bufferSize client opcode fragments sender = some (rets, later) ∧
      (∀ ret ∈ rets, 0 < ret) ∧
        ∀ receiver : Socket, receiver.connected = true →
          later.outgoing = sender.outgoing ++ receiver.incoming →
            (wsRecvMessage maxSize (!client) bufferSize receiver).1 =
              .message ⟨opcode, fragments.flatMap Prod.snd⟩

section Single

variable {bufferSize : Nat} {maxSize rand : BitVec 32} {client fin : Bool} {opcode : Int}
  {data : List Byte} {socket : Socket} {bytes rest : List Byte} {self : Receiving}

@[simp] theorem length_masked : (masked client rand data).length = data.length := by
  unfold masked
  split <;> simp

theorem frameBytes_eq : frameBytes opcode rand client fin data =
    (sentFrame opcode rand client fin data).bytes := by
  have extended : (extendedLength (sendHead opcode data.length client fin) data.length).flatten =
      (sentFrame opcode rand client fin data).extended := by
    unfold extendedLength Frame.extended sentFrame
    simp only [length_masked, BitVec.ofInt_natCast]
    split_ifs <;> simp
  have masks : (if client then [memory 4 rand] else []).flatten =
      if client then memory 4 rand else [] := by
    cases client <;> simp
  rw [frameBytes, frameStart, List.flatten_append, List.flatten_cons, extended, masks,
    List.append_assoc, List.append_assoc]
  rfl

theorem sendHead_payload_short {length : Nat} (short : length < 126) :
    (sendHead opcode length client fin).payload.toNat = length := by
  have less : (length : Int) < 126 := by omega
  simp only [sendHead, if_pos less, BitVec.ofInt_natCast, BitVec.toNat_ofNat]
  omega

theorem sendHead_payload_middle {length : Nat} (long : 126 ≤ length) (short : length < 65535) :
    (sendHead opcode length client fin).payload = 126 := by
  have more : ¬ (length : Int) < 126 := by omega
  have less : (length : Int) < 65535 := by omega
  simp only [sendHead, if_neg more, if_pos less]

theorem sendHead_payload_long {length : Nat} (long : 65535 ≤ length) :
    (sendHead opcode length client fin).payload = 127 := by
  have more : ¬ (length : Int) < 126 := by omega
  have less : ¬ (length : Int) < 65535 := by omega
  simp only [sendHead, if_neg more, if_neg less]

/-- The three encodings of a length. -/
theorem sendHead_payload_cases (length : Nat) :
    (sendHead opcode length client fin).payload = 126 ∧ length < 65535 ∨
      (sendHead opcode length client fin).payload = 127 ∧ 65535 ≤ length ∨
        (sendHead opcode length client fin).payload ≠ 126 ∧
          (sendHead opcode length client fin).payload ≠ 127 ∧ length < 126 ∧
            (sendHead opcode length client fin).payload.toNat = length := by
  rcases Nat.lt_or_ge length 126 with short | long
  · have payload : (sendHead opcode length client fin).payload.toNat = length :=
      sendHead_payload_short short
    have other : ∀ value : BitVec 7, 126 ≤ value.toNat →
        (sendHead opcode length client fin).payload ≠ value := by
      rintro value large rfl
      omega
    exact .inr (.inr ⟨other 126 (by simp), other 127 (by simp), short, payload⟩)
  rcases Nat.lt_or_ge length 65535 with middle | longer
  · exact .inl ⟨sendHead_payload_middle long middle, middle⟩
  · exact .inr (.inl ⟨sendHead_payload_long longer, longer⟩)

theorem sentFrame_valid (small : data.length < 2 ^ 64) :
    (sentFrame opcode rand client fin data).Valid := by
  have kinds := @sendHead_payload_cases client fin opcode data.length
  have size : (sentFrame opcode rand client fin data).payload.length = data.length := length_masked
  have head : (sentFrame opcode rand client fin data).head.payload =
      (sendHead opcode data.length client fin).payload := rfl
  obtain ⟨payload, middle⟩ | ⟨payload, -⟩ | ⟨notShort, notLong, -, payload⟩ := kinds
  all_goals constructor <;> rw [head, size]
  · exact fun _ => by omega
  · exact fun _ => small
  · exact fun other => absurd payload other
  · exact fun short => absurd (payload.symm.trans short) (by decide)
  · exact fun _ => small
  · exact fun _ other => absurd payload other
  · exact fun short => absurd short notShort
  · exact fun _ => small
  · exact fun _ _ => payload.symm

/-- A receiver believes in the length of a payload that needs no 64 bits. -/
theorem sentFrame_length : (sentFrame opcode rand client fin data).length =
    if data.length < 65535 then data.length else 0 := by
  have kinds := @sendHead_payload_cases client fin opcode data.length
  unfold Frame.length sentFrame
  rw [length_masked]
  obtain ⟨payload, middle⟩ | ⟨payload, long⟩ | ⟨-, notLong, short, -⟩ := kinds
  · rw [payload, if_neg (by decide), if_pos middle]
  · rw [if_pos payload, if_neg (by omega)]
  · rw [if_neg notLong, if_pos (by omega)]

/-- The other side takes the mask away again. -/
theorem add_sentFrame :
    self.add (sentFrame opcode rand client fin data).head (memory 4 rand)
        (masked client rand data) =
      { data := self.data ++ data
        opcode :=
          if self.opcode = 0 ∧ BitVec.ofInt 4 opcode ≠ WSFrameHead.CONTINUE then
            (BitVec.ofInt 4 opcode).toNat
          else self.opcode
        curLen := self.curLen + BitVec.ofNat 32 data.length } := by
  simp only [Receiving.add, sentFrame, sendHead, length_masked]
  cases client <;> simp [masked]

/-- The locals behind a frame that was sent. -/
def Receiving.after (self : Receiving) (opcode : Int) (data : List Byte) : Receiving where
  data := self.data ++ data
  opcode :=
    if self.opcode = 0 ∧ BitVec.ofInt 4 opcode ≠ WSFrameHead.CONTINUE then
      (BitVec.ofInt 4 opcode).toNat
    else self.opcode
  curLen := self.curLen + BitVec.ofNat 32 data.length

/-- No receiver takes offence at the mask of the other side. -/
theorem sentFrame_mask :
    ¬ ((!client) = false ∧ (sentFrame opcode rand client fin data).head.mask = false) := by
  rintro ⟨server, plain⟩
  have server' : client = false := plain
  rw [server'] at server
  cases server

/-- A length within the maximum passes the check. -/
theorem not_maxSize_le {len : Nat} (fits : self.curLen.toNat + len < maxSize.toNat) :
    ¬ maxSize ≤ self.curLen + BitVec.ofNat 32 len := by
  have bound := maxSize.isLt
  rw [BitVec.le_def, BitVec.toNat_add, BitVec.toNat_ofNat]
  omega

/-- `cur_len` is a size as long as it is no negative `int`. -/
theorem resize_fits {len : Nat} (small : len < 2 ^ 32) :
    2 ^ 63 ≤ (self.curLen.signExtend 64 + BitVec.ofNat 64 len).toNat ↔
      2 ^ 31 ≤ self.curLen.toNat ∧ self.curLen.toNat + len < 2 ^ 32 := by
  have bound := self.curLen.isLt
  rw [BitVec.toNat_add, BitVec.toNat_signExtend, BitVec.toNat_ofNat, BitVec.toNat_setWidth,
    BitVec.msb_eq_decide]
  by_cases negative : 2 ^ 31 ≤ self.curLen.toNat
  · rw [if_pos (by simpa using negative)]
    omega
  · rw [if_neg (by simpa using negative)]
    omega

theorem outcome_sentFrame (some : data ≠ []) (short : data.length < 65535)
    (fits : self.curLen.toNat + data.length < maxSize.toNat) :
    (sentFrame opcode rand client fin data).outcome maxSize (!client) self =
      if 2 ^ 31 ≤ self.curLen.toNat then .error .thrown
      else if fin then .error (.message ⟨(self.after opcode data).opcode, self.data ++ data⟩)
      else .ok (self.after opcode data) := by
  have bound := maxSize.isLt
  have length : ¬ data.length = 0 := fun none => some (List.length_eq_zero_iff.mp none)
  have resize := @resize_fits self data.length (by omega)
  rw [Frame.outcome, if_neg sentFrame_mask, sentFrame_length, if_pos short,
    if_neg (not_maxSize_le fits)]
  by_cases negative : 2 ^ 31 ≤ self.curLen.toNat
  · rw [if_pos (resize.mpr ⟨negative, by omega⟩), if_pos negative]
  · rw [if_neg fun large => negative (resize.mp large).1, if_neg length, if_neg negative]
    have added : self.add (sentFrame opcode rand client fin data).head
        (memory 4 (sentFrame opcode rand client fin data).mask)
        (sentFrame opcode rand client fin data).payload = self.after opcode data := add_sentFrame
    simp only [added]
    rfl

/-- The length of a long payload is not read, and nothing of the payload. -/
theorem outcome_sentFrame_long (long : 65535 ≤ data.length) (start : self.curLen = 0)
    (room : 0 < maxSize.toNat) :
    (sentFrame opcode rand client fin data).outcome maxSize (!client) self = .error .null := by
  have resize := @resize_fits self 0 (by decide)
  have check : ¬ maxSize ≤ self.curLen + BitVec.ofNat 32 0 := not_maxSize_le (by simpa [start])
  rw [Frame.outcome, if_neg sentFrame_mask, sentFrame_length, if_neg (Nat.not_lt.mpr long),
    if_neg check, if_neg, if_pos rfl]
  rw [resize, start]
  exact fun negative => absurd negative.1 (by decide)

/-- What `WSRecvMessage` returns is what it makes of the bytes that come. -/
theorem wsRecvMessage_agrees (shows' : Shows socket bytes) (positive : 0 < bufferSize) :
    Agrees Received.IsMessage (wsRecvMessage maxSize client bufferSize socket)
      (receive maxSize client ⟨[], 0, 0⟩ bytes) := by
  rw [wsRecvMessage, receive, shows'.2]
  exact wsRecvLoop_agrees shows' positive

/-- A data frame has one of these opcodes. -/
def IsData (opcode : Int) : Prop := opcode = 0 ∨ opcode = 1 ∨ opcode = 2

theorem IsData.kinds (isData : IsData opcode) :
    opcode ≠ 8 ∧ BitVec.ofInt 4 opcode ≠ WSFrameHead.PING ∧
      BitVec.ofInt 4 opcode ≠ WSFrameHead.PONG ∧ ((BitVec.ofInt 4 opcode).toNat : Int) = opcode := by
  obtain rfl | rfl | rfl := isData <;> decide

/-- A frame that was sent comes first. -/
theorem receive_sentFrame (isData : IsData opcode) (small : data.length < 2 ^ 64) :
    match (sentFrame opcode rand client fin data).outcome maxSize (!client) self with
    | .ok next =>
        receive maxSize (!client) self ((sentFrame opcode rand client fin data).bytes ++ rest) =
          receive maxSize (!client) next rest
    | .error received =>
        (receive maxSize (!client) self
          ((sentFrame opcode rand client fin data).bytes ++ rest)).1 = received ∧
            (received.IsMessage → (receive maxSize (!client) self
              ((sentFrame opcode rand client fin data).bytes ++ rest)).2 = rest) := by
  obtain ⟨-, notPing, notPong, -⟩ := isData.kinds
  exact receive_frame (sentFrame_valid small) notPing notPong

theorem roundTrips_of_short (positive : 0 < bufferSize) (isData : opcode = 1 ∨ opcode = 2)
    (some : data ≠ []) (fits : data.length < maxSize.toNat) (short : data.length < 65535) :
    RoundTrips bufferSize maxSize rand client ⟨opcode, data⟩ := by
  obtain ⟨notClose, notPing, notPong, same⟩ := IsData.kinds (.inr isData)
  intro sender connected
  obtain ⟨later, sent, -, outgoing⟩ := @wsSendMessage_eq bufferSize sender rand client true opcode
    data positive connected notClose some (by omega)
  refine ⟨_, later, sent, fun receiver open' wire => ?_⟩
  have incoming : receiver.incoming = (sentFrame opcode rand client true data).bytes := by
    rw [outgoing, frameBytes_eq] at wire
    exact (List.append_cancel_left wire).symm
  have read := @receive_sentFrame maxSize rand client true opcode data [] ⟨[], 0, 0⟩ (.inr isData)
    (by omega)
  have start : ¬ 2 ^ 31 ≤ (0 : BitVec 32).toNat := by decide
  have text : BitVec.ofInt 4 opcode ≠ WSFrameHead.CONTINUE := by
    obtain rfl | rfl := isData <;> decide
  rw [outcome_sentFrame some short (by simpa using fits), if_neg start, if_pos rfl,
    List.append_nil] at read
  simp only [Receiving.after, List.nil_append, text, ne_eq, not_false_eq_true, and_self, if_true,
    same] at read
  obtain ⟨result, left⟩ := @wsRecvMessage_agrees _ maxSize (!client) _ _
    ⟨open', incoming⟩ positive
  rw [read.1] at result left
  refine ⟨_, Prod.ext result rfl, ?_⟩
  rw [(left trivial).2]
  exact read.2 trivial

theorem not_roundTrips_of_long (positive : 0 < bufferSize) (isData : opcode = 1 ∨ opcode = 2)
    (fits : data.length < maxSize.toNat) (long : 65535 ≤ data.length) :
    ¬ RoundTrips bufferSize maxSize rand client ⟨opcode, data⟩ := by
  obtain ⟨notClose, notPing, notPong, -⟩ := IsData.kinds (.inr isData)
  have bound := maxSize.isLt
  have some : data ≠ [] := by
    rintro rfl
    exact absurd long (by decide)
  intro trips
  obtain ⟨ret, later, sent, back⟩ := trips ⟨true, [], [], fun _ => 1⟩ rfl
  rcases Nat.lt_or_ge data.length (2 ^ 31) with small | large
  · obtain ⟨later', sent', -, outgoing⟩ := @wsSendMessage_eq bufferSize _ rand client true opcode
      data positive (rfl : (⟨true, [], [], fun _ => 1⟩ : Socket).connected = true) notClose some small
    obtain ⟨-, rfl⟩ := Prod.mk.inj (Option.some.inj (sent.symm.trans sent'))
    obtain ⟨last, received, -⟩ := back
      ⟨true, frameBytes opcode rand client true data, [], fun _ => 1⟩ rfl outgoing
    have read := @receive_sentFrame maxSize rand client true opcode data [] ⟨[], 0, 0⟩ (.inr isData)
      (by omega)
    rw [outcome_sentFrame_long long rfl (by omega), List.append_nil] at read
    obtain ⟨result, -⟩ := @wsRecvMessage_agrees _ maxSize (!client) _ _
      (⟨rfl, frameBytes_eq⟩ : Shows ⟨true, frameBytes opcode rand client true data, [], fun _ => 1⟩ _)
      positive
    rw [received, read.1] at result
    cases result
  · rw [wsSendMessage_overrun positive rfl notClose large (by omega)] at sent
    cases sent

end Single

section WebSocket

variable {bufferSize : Nat} {opcode : Int} {data : List Byte}

/-- A message in one frame comes back exactly if its length is below 65535. -/
theorem round_trip_iff (positive : 0 < bufferSize) (maxSize rand : BitVec 32) (client : Bool)
    (isData : opcode = 1 ∨ opcode = 2) (some : data ≠ []) (fits : data.length < maxSize.toNat) :
    RoundTrips bufferSize maxSize rand client ⟨opcode, data⟩ ↔ data.length < 65535 := by
  constructor
  · intro trips
    by_contra long
    exact not_roundTrips_of_long positive isData fits (Nat.not_lt.mp long) trips
  · exact roundTrips_of_short positive isData some fits

/-- Two bytes of text make the trip. -/
theorem round_trip_short :
    RoundTrips 16384 (32 * 1024 * 1024) 7 true ⟨1, [0x68, 0x69]⟩ ↔ 2 < 65535 :=
  round_trip_iff (by decide) _ _ _ (.inl rfl) (List.cons_ne_nil _ _) (by decide)

/-- A payload of 65535 bytes does not. -/
theorem not_round_trip :
    ¬ ∀ (maxSize rand : BitVec 32) (client : Bool) (opcode : Int) (data : List Byte),
      opcode = 1 ∨ opcode = 2 → data ≠ [] → data.length < maxSize.toNat →
        RoundTrips 16384 maxSize rand client ⟨opcode, data⟩ := by
  intro claim
  have length : (List.replicate 65535 (0 : Byte)).length = 65535 := List.length_replicate
  have fits : (List.replicate 65535 (0 : Byte)).length <
      (32 * 1024 * 1024 : BitVec 32).toNat := by
    rw [length]
    decide
  have some : List.replicate 65535 (0 : Byte) ≠ [] := by
    intro none
    rw [none] at length
    cases length
  exact not_roundTrips_of_long (by decide) (.inl rfl) fits length.ge
    (claim _ 0 false 1 _ (.inl rfl) some fits)

end WebSocket

end Xten.http
