import Xten.Kcp.Messages
import Xten.Std.Delimiters
import Xten.Std.HexGroups

/-!
# Texts of endpoints

`IPv6Address::insert`, on a stream whose numbers are decimal, and `Address::toString`, by which the
KCP listener tells its sessions apart.
-/

namespace Xten

open Std.Delimiters Std.HexGroups Std.IntegerCodec Std.Numerals
open Xten.Kcp (htons htons_htons)

/-- `sockaddr_in6`, as far as it is read here. -/
@[ext]
structure IPv6Address where
  s6Addr : Fin 16 → Byte
  sin6Port : BitVec 16
deriving DecidableEq

namespace IPv6Address

/-- `IPv6Address(address, port)`. -/
def new (address : Fin 16 → Byte) (port : BitVec 16) : IPv6Address :=
  ⟨address, htons port⟩

/-- `(uint16_t *)m_addr.sin6_addr.s6_addr`. -/
def addr (address : IPv6Address) : List (BitVec 16) :=
  (List.finRange 8).map fun i =>
    ofMemory [address.s6Addr ⟨2 * i.val, by omega⟩, address.s6Addr ⟨2 * i.val + 1, by omega⟩]

/-- The loop of `insert`, behind the group `previous`: what it writes, and `used_zeros` after it. -/
def insertLoop (previous : Option (BitVec 16)) (usedZeros : Bool) :
    List (BitVec 16) → List Byte × Bool
  | [] => ([], usedZeros)
  | group :: rest =>
      if group = 0 ∧ usedZeros = false then
        insertLoop (some group) usedZeros rest
      else
        let skipped := previous = some 0 ∧ usedZeros = false
        let (text, used) := insertLoop (some group) (usedZeros || skipped) rest
        ((if skipped then [58] else []) ++ (if previous.isSome then [58] else []) ++
          numeral 16 (htons group).toNat ++ text, used)

/-- What `insert` writes between the brackets. -/
def insertGroups (address : IPv6Address) : List Byte :=
  let (text, usedZeros) := insertLoop none false address.addr
  text ++ if usedZeros = false ∧ address.addr.getLast? = some 0 then [58, 58] else []

/-- `toString`, by `insert`. -/
def toString (address : IPv6Address) : List Byte :=
  91 :: address.insertGroups ++ [93, 58] ++ numeral 10 (htons address.sin6Port).toNat

/-- The groups as numbers. -/
def groups (address : IPv6Address) : List (BitVec 16) :=
  address.addr.map htons

/-- The endpoint that a text names: an address within brackets, a colon and a port. -/
def ofText : List Byte → Option IPv6Address
  | [] => none
  | first :: rest =>
      let behind := rest.dropWhile (· ≠ 93)
      if first = 91 ∧ behind.take 2 = [93, 58] then
        (Std.HexGroups.ofText (rest.takeWhile (· ≠ 93))).bind fun groups =>
          (ofNumeral 10 (behind.drop 2)).bind fun port =>
            if port < 2 ^ 16 then
              some (new (fun i => ((groups.flatMap fun group => memory 2 (htons group))[i.val]?).getD 0)
                (BitVec.ofNat 16 port))
            else
              none
      else
        none

section Loop

variable {previous group : BitVec 16} {rest left right : List (BitVec 16)}

theorem htons_eq_zero_iff (group : BitVec 16) : htons group = 0 ↔ group = 0 :=
  @byteSwap_eq_zero_iff 2 group

/-- Behind the `::` every group is written. -/
theorem insertLoop_used (previous : BitVec 16) (rest : List (BitVec 16)) :
    insertLoop (some previous) true rest = (behind (rest.map htons), true) := by
  induction rest generalizing previous with
  | nil => rfl
  | cons group rest ih =>
      rw [insertLoop, if_neg fun skips => Bool.noConfusion skips.2]
      simp [ih, behind]

/-- A group that follows no zero is written behind a colon, but for the first one. -/
theorem insertLoop_plain {previous : Option (BitVec 16)} (follows : previous ≠ some 0)
    (nonzero : group ≠ 0) (rest : List (BitVec 16)) :
    insertLoop previous false (group :: rest) =
      ((if previous.isSome then [58] else []) ++ numeral 16 (htons group).toNat ++
        (insertLoop (some group) false rest).1, (insertLoop (some group) false rest).2) := by
  rw [insertLoop, if_neg fun skips => nonzero skips.1]
  simp only [follows, false_and, if_false, List.nil_append, decide_false, Bool.or_false]

/-- Zeros are skipped. -/
theorem insertLoop_zeros (previous : Option (BitVec 16)) (zeros : Nat) (rest : List (BitVec 16)) :
    insertLoop previous false (List.replicate (zeros + 1) 0 ++ rest) =
      insertLoop (some 0) false rest := by
  induction zeros generalizing previous with
  | zero => exact if_pos ⟨rfl, rfl⟩
  | succ zeros ih =>
      rw [List.replicate_succ, List.cons_append, insertLoop, if_pos ⟨rfl, rfl⟩, ih]

/-- The first group behind the zeros is written behind two colons, and no group is skipped from
there on. -/
theorem insertLoop_behind_zeros (nonzero : group ≠ 0) (rest : List (BitVec 16)) :
    insertLoop (some 0) false (group :: rest) =
      (58 :: 58 :: fields ((group :: rest).map htons), true) := by
  rw [insertLoop, if_neg fun skips => nonzero skips.1]
  simp [insertLoop_used, fields]

/-- The groups before the first zero are written, each behind a colon. -/
theorem insertLoop_behind (nonzero : previous ≠ 0) (absent : 0 ∉ left) :
    ∃ last, last ≠ 0 ∧ ∀ rest, insertLoop (some previous) false (left ++ rest) =
      (behind (left.map htons) ++ (insertLoop (some last) false rest).1,
        (insertLoop (some last) false rest).2) := by
  induction left generalizing previous with
  | nil => exact ⟨previous, nonzero, fun rest => rfl⟩
  | cons group left ih =>
      obtain ⟨other, absent⟩ := List.ne_and_not_mem_of_not_mem_cons absent
      obtain ⟨last, isLast, same⟩ := ih (Ne.symm other) absent
      refine ⟨last, isLast, fun rest => ?_⟩
      rw [List.cons_append, insertLoop_plain (by simpa using nonzero) (Ne.symm other), same]
      simp [behind]

/-- The groups before the first zero are written, with colons between them. -/
theorem insertLoop_fields (absent : 0 ∉ left) :
    ∃ previous, previous ≠ some 0 ∧ ∀ rest, insertLoop none false (left ++ rest) =
      (fields (left.map htons) ++ (insertLoop previous false rest).1,
        (insertLoop previous false rest).2) := by
  cases left with
  | nil => exact ⟨none, (Option.some_ne_none _).symm, fun rest => rfl⟩
  | cons group left =>
      obtain ⟨other, absent⟩ := List.ne_and_not_mem_of_not_mem_cons absent
      obtain ⟨last, isLast, same⟩ := insertLoop_behind (Ne.symm other) absent
      refine ⟨some last, by simpa using isLast, fun rest => ?_⟩
      rw [List.cons_append, insertLoop_plain (Option.some_ne_none _).symm (Ne.symm other), same]
      simp [fields]

theorem exists_zeros (rest : List (BitVec 16)) : ∃ zeros right,
    rest = List.replicate zeros 0 ++ right ∧ right.head? ≠ some 0 := by
  induction rest with
  | nil => exact ⟨0, [], rfl, (Option.some_ne_none _).symm⟩
  | cons group rest ih =>
      by_cases zero : group = 0
      · obtain ⟨zeros, right, rfl, nonzero⟩ := ih
        exact ⟨zeros + 1, right, by rw [zero, List.replicate_succ, List.cons_append], nonzero⟩
      · exact ⟨0, group :: rest, rfl, by simpa using zero⟩

end Loop

section Text

variable (address : IPv6Address)

/-- Either all groups are written, or a `::` in the place of the first zeros. -/
theorem insertGroups_eq : address.insertGroups = fields address.groups ∨
    ∃ left zeros right, address.addr = left ++ (List.replicate (zeros + 1) 0 ++ right) ∧
      address.insertGroups = fields (left.map htons) ++ 58 :: 58 :: fields (right.map htons) := by
  obtain absent | ⟨left, rest, absent, split⟩ := absent_or_split 0 address.addr
  · left
    obtain ⟨previous, -, written⟩ := insertLoop_fields absent
    have whole := written []
    rw [List.append_nil] at whole
    have last : address.addr.getLast? ≠ some 0 := fun zero =>
      absent (List.mem_of_getLast? zero)
    rw [insertGroups, whole]
    simpa [insertLoop, groups] using last
  · right
    obtain ⟨zeros, right, rfl, nonzero⟩ := exists_zeros rest
    obtain ⟨previous, -, written⟩ := insertLoop_fields absent
    have split : address.addr = left ++ (List.replicate (zeros + 1) 0 ++ right) := by
      rw [split, List.replicate_succ, List.cons_append]
    refine ⟨left, zeros, right, split, ?_⟩
    have whole := written (List.replicate (zeros + 1) 0 ++ right)
    rw [insertLoop_zeros, ← split] at whole
    rw [insertGroups, whole]
    cases right with
    | nil =>
        have last : address.addr.getLast? = some 0 := by
          rw [split, List.append_nil, List.replicate_succ', ← List.append_assoc,
            List.getLast?_concat]
        simp [last, insertLoop, fields]
    | cons group right =>
        rw [insertLoop_behind_zeros (by simpa using nonzero)]
        simp

theorem length_addr : address.addr.length = 8 := by
  rw [addr, List.length_map, List.length_finRange]

/-- The groups are read back, of a text that has at most one `::`. -/
theorem ofText_insertGroups : Std.HexGroups.ofText address.insertGroups = some address.groups ∧
    AtMostOnce address.insertGroups := by
  have eight := length_addr address
  obtain whole | ⟨left, zeros, right, split, whole⟩ := insertGroups_eq address
  · rw [whole]
    exact ⟨ofText_fields (by rw [groups, List.length_map, eight]),
      atMostOnce_of_none (cut_fields_none _)⟩
  · have same : address.groups =
        left.map htons ++ List.replicate (zeros + 1) 0 ++ right.map htons := by
      rw [groups, split, List.map_append, List.map_append, List.map_replicate, List.append_assoc,
        (htons_eq_zero_iff 0).mpr rfl]
    rw [whole, same]
    rw [split, List.length_append, List.length_append, List.length_replicate] at eight
    exact ⟨ofText_zeros (Nat.succ_pos zeros) (by rw [List.length_map, List.length_map]; omega),
      atMostOnce_of_some (cut_zeros _ _) (cut_colon_fields _)⟩

/-- The brackets are around letters that are none. -/
theorem bracket_not_mem : 93 ∉ address.insertGroups := by
  have absent : ∀ groups : List (BitVec 16), 93 ∉ fields groups :=
    not_mem_fields (by decide) (by decide)
  obtain whole | ⟨left, zeros, right, -, whole⟩ := insertGroups_eq address
  · rw [whole]
    exact absent _
  · rw [whole]
    intro member
    obtain inLeft | inRest := List.mem_append.mp member
    · exact absent _ inLeft
    · have inRight := ((List.mem_cons.mp inRest).resolve_left (by decide))
      exact absent _ ((List.mem_cons.mp inRight).resolve_left (by decide))

/-- The groups in network order are the bytes. -/
theorem flatMap_groups : (address.groups.flatMap fun group => memory 2 (htons group)) =
    List.ofFn address.s6Addr := by
  have bytes : ∀ first second : Byte, memory 2 (ofMemory [first, second] : BitVec 16) =
      [first, second] := fun first second => memory_ofMemory 16 [first, second] le_rfl
  rw [groups, addr, List.map_map, List.flatMap_map]
  simp only [Function.comp_apply, htons_htons, bytes]
  rfl

/-- The text is read as the endpoint. -/
theorem ofText_toString : ofText address.toString = some address := by
  have absent := bracket_not_mem address
  have split : address.toString = 91 :: (address.insertGroups ++
      93 :: 58 :: numeral 10 (htons address.sin6Port).toNat) := by
    rw [toString, List.cons_append, List.cons_append, List.append_assoc]
    rfl
  have bytes : new (fun i => ((List.ofFn address.s6Addr)[i.val]?).getD 0)
      (BitVec.ofNat 16 (htons address.sin6Port).toNat) = address := by
    refine IPv6Address.ext (funext fun i => ?_) ?_
    · simp only [new, List.getElem?_ofFn, i.isLt, dite_true, Option.getD_some]
    · rw [new, BitVec.ofNat_toNat, BitVec.setWidth_eq, htons_htons]
  rw [split, ofText, dropWhile_split absent, takeWhile_split absent, if_pos ⟨rfl, rfl⟩,
    (ofText_insertGroups address).1, Option.bind_some, flatMap_groups]
  have digits : (93 :: 58 :: numeral 10 (htons address.sin6Port).toNat).drop 2 =
      numeral 10 (htons address.sin6Port).toNat := rfl
  rw [digits, ofNumeral_numeral (by decide) (by decide), Option.bind_some, bytes,
    if_pos (htons address.sin6Port).isLt]

end Text

theorem toString_injective : Function.Injective toString := by
  intro first second same
  have read := ofText_toString first
  rw [same, ofText_toString] at read
  exact (Option.some.inj read).symm

/-- A session is found by the text as it would be by the endpoint. -/
theorem lookup_toString {Session : Type} (sessions : List (IPv6Address × Session))
    (remote : IPv6Address) :
    (sessions.map fun entry => (entry.1.toString, entry.2)).lookup remote.toString =
      sessions.lookup remote := by
  induction sessions with
  | nil => rfl
  | cons entry sessions ih =>
      rw [List.map_cons, List.lookup_cons, List.lookup_cons, ih]
      have same : (remote.toString == entry.1.toString) = (remote == entry.1) := by
        rw [Bool.eq_iff_iff, beq_iff_eq, beq_iff_eq]
        exact toString_injective.eq_iff
      rw [same]

/-- Between the brackets there is a text of the groups with at most one `::`, behind them the port,
and the whole is read as the endpoint. Two endpoints have two texts, which are keys as good as they
are. -/
theorem toString_faithful (Session : Type) :
    (∀ (bytes : Fin 16 → Byte) (port : BitVec 16),
      (∃ text, (new bytes port).toString = [91] ++ text ++ [93, 58] ++ numeral 10 port.toNat ∧
        Std.HexGroups.ofText text = some (new bytes port).groups ∧ AtMostOnce text) ∧
      ofText (new bytes port).toString = some (new bytes port)) ∧
    Function.Injective toString ∧
    ∀ (sessions : List (IPv6Address × Session)) (remote : IPv6Address),
      (sessions.map fun entry => (entry.1.toString, entry.2)).lookup remote.toString =
        sessions.lookup remote := by
  refine ⟨fun bytes port => ⟨?_, ofText_toString _⟩, toString_injective, lookup_toString⟩
  refine ⟨(new bytes port).insertGroups, ?_, ofText_insertGroups _⟩
  rw [toString, show htons (new bytes port).sin6Port = port from htons_htons port]
  rfl

end IPv6Address

end Xten
