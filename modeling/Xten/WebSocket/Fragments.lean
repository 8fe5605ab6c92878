import Xten.WebSocket.RoundTrip

/-!
# Messages in fragments

A message that is sent as one frame and its continuations. The loop of `WSRecvMessage`
keeps what it has of the message in `data`, `opcode` and `cur_len`.
-/

namespace Xten.http

open Std.IntegerCodec

/-- The bytes that `sendFragments` writes. -/
def wire (client : Bool) : Int → List (BitVec 32 × List Byte) → List Byte
  | _, [] => []
  | opcode, (rand, data) :: fragments =>
      frameBytes opcode rand client fragments.isEmpty data ++ wire client 0 fragments

/-- How many bytes fragments have together. -/
def total (fragments : List (BitVec 32 × List Byte)) : Nat :=
  (fragments.flatMap Prod.snd).length

/-- The fragments can be sent and received one by one. -/
def Plain (fragments : List (BitVec 32 × List Byte)) : Prop :=
  ∀ fragment ∈ fragments, fragment.2 ≠ []

section Fragments

variable {bufferSize : Nat} {client : Bool} {opcode : Int} {socket later : Socket}
  {maxSize : BitVec 32} {self : Receiving} {rets : List Int}
  {fragment : BitVec 32 × List Byte} {fragments : List (BitVec 32 × List Byte)}

theorem total_cons : total (fragment :: fragments) = fragment.2.length + total fragments := by
  simp [total]

theorem sendFragments_eq (positive : 0 < bufferSize) (connected : socket.connected = true)
    (isData : IsData opcode) (plain : Plain fragments)
    (short : ∀ fragment ∈ fragments, fragment.2.length < 65535) :
    ∃ rets later, sendFragments bufferSize client opcode fragments socket = some (rets, later) ∧
      (∀ ret ∈ rets, 0 < ret) ∧ later.outgoing = socket.outgoing ++ wire client opcode fragments := by
  induction fragments generalizing opcode socket with
  | nil => exact ⟨[], socket, rfl, by simp, by simp [wire]⟩
  | cons fragment fragments ih =>
      obtain ⟨rand, data⟩ := fragment
      have less : data.length < 65535 := short _ List.mem_cons_self
      obtain ⟨middle, sent, still, outgoing⟩ := @wsSendMessage_eq bufferSize socket rand client
        fragments.isEmpty opcode data positive connected isData.kinds.1
        (plain _ List.mem_cons_self) (by omega)
      obtain ⟨rets, later, rest, succeed, whole⟩ := ih still (.inl rfl)
        (fun other member => plain other (List.mem_cons_of_mem _ member))
        fun other member => short other (List.mem_cons_of_mem _ member)
      refine ⟨(data.length + 2) :: rets, later, by simp [sendFragments, sent, rest], ?_, ?_⟩
      · intro ret member
        obtain rfl | inRest := List.mem_cons.mp member
        · omega
        · exact succeed ret inRest
      · rw [whole, outgoing, wire, List.append_assoc]

/-- An empty fragment is reported as a failure. -/
theorem sendFragments_empty (isData : IsData opcode) (empty : ¬ Plain fragments)
    (sent : sendFragments bufferSize client opcode fragments socket = some (rets, later)) :
    ∃ ret ∈ rets, ret = -1 := by
  induction fragments generalizing opcode socket rets with
  | nil => exact absurd (fun _ member => absurd member List.not_mem_nil) empty
  | cons fragment fragments ih =>
      obtain ⟨rand, data⟩ := fragment
      rw [sendFragments] at sent
      obtain ⟨⟨ret, middle⟩, first, sent⟩ := Option.bind_eq_some_iff.mp sent
      obtain ⟨⟨others, last⟩, rest, sent⟩ := Option.bind_eq_some_iff.mp sent
      cases sent
      by_cases none : data = []
      · subst none
        exact ⟨ret, List.mem_cons_self, wsSendMessage_empty isData.kinds.1 first⟩
      · have emptyRest : ¬ Plain fragments := fun plain => empty fun other member => by
          obtain rfl | inRest := List.mem_cons.mp member
          · exact none
          · exact plain other inRest
        obtain ⟨failed, member, isFailed⟩ := ih (.inl rfl) emptyRest rest
        exact ⟨failed, List.mem_cons_of_mem _ member, isFailed⟩

/-- What the loop makes of a message whose fragments are not empty. -/
theorem receive_fragments {length : Nat} (isData : IsData opcode) (plain : Plain fragments)
    (short : ∀ fragment ∈ fragments, fragment.2.length < 65535) (some : fragments ≠ [])
    (start : self.curLen = BitVec.ofNat 32 length)
    (fits : length + total fragments < maxSize.toNat) :
    (receive maxSize (!client) self (wire client opcode fragments)).1 =
      if 2 ^ 31 ≤ length + total fragments.dropLast then .thrown
      else .message ⟨(self.after opcode []).opcode, self.data ++ fragments.flatMap Prod.snd⟩ := by
  have bound := maxSize.isLt
  induction fragments generalizing opcode self length with
  | nil => exact absurd rfl some
  | cons fragment fragments ih =>
      obtain ⟨rand, data⟩ := fragment
      have filled : data ≠ [] := plain _ List.mem_cons_self
      have less : data.length < 65535 := short _ List.mem_cons_self
      rw [total_cons] at fits
      simp only at fits
      have current : self.curLen.toNat = length := by
        rw [start, BitVec.toNat_ofNat]
        omega
      have read := @receive_sentFrame maxSize rand client fragments.isEmpty opcode data
        (wire client 0 fragments) self isData (by omega)
      rw [outcome_sentFrame filled less (by omega), current] at read
      rw [wire, frameBytes_eq]
      by_cases negative : 2 ^ 31 ≤ length
      · rw [if_pos negative] at read
        rw [read.1, if_pos (by omega)]
      rw [if_neg negative] at read
      cases fragments with
      | nil =>
          have none : total ([(rand, data)].dropLast) = 0 := rfl
          rw [List.isEmpty_nil, if_pos rfl] at read
          rw [none, if_neg (by omega)]
          simpa [Receiving.after] using read.1
      | cons second fragments =>
          rw [List.isEmpty_cons, if_neg Bool.false_ne_true] at read
          rw [List.isEmpty_cons, read]
          have rest := @ih 0 (self.after opcode data) (length + data.length) (.inl rfl)
            (fun other member => plain other (List.mem_cons_of_mem _ member))
            (fun other member => short other (List.mem_cons_of_mem _ member))
            (List.cons_ne_nil _ _)
            (by
              apply BitVec.eq_of_toNat_eq
              simp only [Receiving.after, BitVec.toNat_add, BitVec.toNat_ofNat, current]
              omega)
            (by omega)
          have before : total ((rand, data) :: second :: fragments).dropLast =
              data.length + total (second :: fragments).dropLast := by
            rw [List.dropLast_cons_cons, total_cons]
          have opcodes : ((self.after opcode data).after 0 []).opcode =
              (self.after opcode []).opcode := if_neg fun both => both.2 rfl
          rw [rest, before, opcodes, Nat.add_assoc]
          simp [Receiving.after]

/-- The receiver of a message in fragments, none of which is empty. -/
theorem wsRecvMessage_fragments (positive : 0 < bufferSize) (isData : opcode = 1 ∨ opcode = 2)
    (plain : Plain fragments) (short : ∀ fragment ∈ fragments, fragment.2.length < 65535)
    (some : fragments ≠ []) (fits : total fragments < maxSize.toNat)
    (shows' : Shows socket (wire client opcode fragments)) :
    (wsRecvMessage maxSize (!client) bufferSize socket).1 =
      if 2 ^ 31 ≤ total fragments.dropLast then .thrown
      else .message ⟨opcode, fragments.flatMap Prod.snd⟩ := by
  have received := @receive_fragments client opcode maxSize ⟨[], 0, 0⟩ fragments 0 (.inr isData) plain
    short some rfl (by omega)
  have opcodes : ((⟨[], 0, 0⟩ : Receiving).after opcode []).opcode = opcode := by
    obtain rfl | rfl := isData <;> rfl
  rw [opcodes, Nat.zero_add, List.nil_append] at received
  exact (wsRecvMessage_agrees shows' positive).1.trans received

theorem not_reassembles_of_empty (isData : opcode = 1 ∨ opcode = 2) (empty : ¬ Plain fragments) :
    ¬ Reassembles bufferSize maxSize client opcode fragments := by
  intro reassembles
  obtain ⟨rets, later, sent, succeed, -⟩ := reassembles ⟨true, [], [], fun _ => 1⟩ rfl
  obtain ⟨ret, member, rfl⟩ := sendFragments_empty (.inr isData) empty sent
  exact absurd (succeed _ member) (by decide)

end Fragments

section WebSocket

variable {bufferSize : Nat} {opcode : Int} {fragments : List (BitVec 32 × List Byte)}

/-- A message in fragments is put together again exactly if none of them is empty and the
length before the last one is no negative `int`. -/
theorem reassembles_iff (positive : 0 < bufferSize) (maxSize : BitVec 32) (client : Bool)
    (isData : opcode = 1 ∨ opcode = 2) (some : fragments ≠ [])
    (short : ∀ fragment ∈ fragments, fragment.2.length < 65535)
    (fits : total fragments < maxSize.toNat) :
    Reassembles bufferSize maxSize client opcode fragments ↔
      (∀ fragment ∈ fragments, fragment.2 ≠ []) ∧ total fragments.dropLast < 2 ^ 31 := by
  constructor
  · intro reassembles
    have plain : Plain fragments := by
      by_contra empty
      exact not_reassembles_of_empty isData empty reassembles
    refine ⟨plain, ?_⟩
    obtain ⟨rets, later, sent, -, back⟩ := reassembles ⟨true, [], [], fun _ => 1⟩ rfl
    obtain ⟨rets', later', sent', -, outgoing⟩ := @sendFragments_eq bufferSize client opcode
      ⟨true, [], [], fun _ => 1⟩ fragments positive rfl (.inr isData) plain short
    obtain ⟨-, rfl⟩ := Prod.mk.inj (Option.some.inj (sent.symm.trans sent'))
    have received := back ⟨true, wire client opcode fragments, [], fun _ => 1⟩ rfl outgoing
    rw [wsRecvMessage_fragments positive isData plain short some fits ⟨rfl, rfl⟩] at received
    by_contra negative
    rw [if_pos (Nat.not_lt.mp negative)] at received
    cases received
  · rintro ⟨plain, whole⟩ sender connected
    obtain ⟨rets, later, sent, succeed, outgoing⟩ := @sendFragments_eq _ client _ _ _
      positive connected (.inr isData) plain short
    refine ⟨rets, later, sent, succeed, fun receiver open' same => ?_⟩
    have incoming : receiver.incoming = wire client opcode fragments :=
      (List.append_cancel_left (outgoing.symm.trans same)).symm
    rw [wsRecvMessage_fragments positive isData plain short some fits ⟨open', incoming⟩,
      if_neg (Nat.not_le.mpr whole)]

/-- Two fragments make one message. -/
theorem reassembles_two :
    Reassembles 16384 (32 * 1024 * 1024) true 1 [(7, [0x68]), (8, [0x69])] ↔
      (∀ fragment ∈ [((7 : BitVec 32), [(0x68 : Byte)]), (8, [0x69])], fragment.2 ≠ []) ∧
        total [((7 : BitVec 32), [(0x68 : Byte)])] < 2 ^ 31 :=
  reassembles_iff (by decide) _ _ (.inl rfl) (List.cons_ne_nil _ _) (by decide) (by decide)

/-- An empty last fragment is neither sent nor received. -/
theorem not_reassembles : ¬ ∀ (maxSize : BitVec 32) (client : Bool) (opcode : Int)
    (fragments : List (BitVec 32 × List Byte)), opcode = 1 ∨ opcode = 2 → fragments ≠ [] →
      (∀ fragment ∈ fragments, fragment.2.length < 65535) → total fragments < maxSize.toNat →
        Reassembles 16384 maxSize client opcode fragments := by
  intro claim
  have empty : ¬ Plain [((0 : BitVec 32), [(0x68 : Byte)]), (0, [])] := fun plain =>
    plain (0, []) (by simp) rfl
  exact not_reassembles_of_empty (.inl rfl) empty
    (claim (32 * 1024 * 1024) false 1 _ (.inl rfl) (List.cons_ne_nil _ _) (by decide) (by decide))

end WebSocket

end Xten.http
