import Mathlib.Data.BitVec
import Mathlib.Tactic

/-!
# Integers as bytes

Fixed-width integers in memory, least significant byte first, the reversal of their
bytes, integers cut into groups of seven bits, and the folding of signed integers
onto unsigned ones. Every encoding has its decoding and the round trip.
-/

namespace Xten.Std.IntegerCodec

variable {width : Nat}

section Memory

/-- The `count` low bytes of a value, least significant first. -/
def memory : Nat → BitVec width → List (BitVec 8)
  | 0, _ => []
  | count + 1, value => value.setWidth 8 :: memory count (value >>> 8)

/-- The value with the given bytes, least significant first. -/
def ofMemory : List (BitVec 8) → BitVec width
  | [] => 0
  | byte :: bytes => byte.setWidth width ||| (ofMemory bytes <<< 8)

@[simp] theorem length_memory (count : Nat) (value : BitVec width) :
    (memory count value).length = count := by
  induction count generalizing value with
  | zero => rfl
  | succ count ih => rw [memory, List.length_cons, ih]

/-- The low byte of a value and the bytes above it. -/
theorem lowByte_or_rest (value : BitVec width) :
    (value.setWidth 8).setWidth width ||| ((value >>> 8) <<< 8) = value := by
  ext index inside
  by_cases low : index < 8
  · simp [low, inside]
  · have shifted : 8 + (index - 8) = index := by omega
    simp [low, inside, shifted]

theorem ofMemory_memory_of_lt {count : Nat} {value : BitVec width}
    (fits : value.toNat < 2 ^ (8 * count)) : ofMemory (memory count value) = value := by
  induction count generalizing value with
  | zero =>
      have zero : value.toNat = 0 := by simpa using fits
      rw [memory, ofMemory]
      exact (BitVec.eq_of_toNat_eq (by rw [zero]; rfl)).symm
  | succ count ih =>
      have rest : (value >>> 8).toNat < 2 ^ (8 * count) := by
        rw [BitVec.toNat_ushiftRight, Nat.shiftRight_eq_div_pow]
        refine Nat.div_lt_of_lt_mul ?_
        rwa [← Nat.pow_add, Nat.add_comm, ← Nat.mul_succ]
      rw [memory, ofMemory, ih rest, lowByte_or_rest]

/-- A value of whole bytes is the one read back. -/
theorem ofMemory_memory {count : Nat} (value : BitVec (8 * count)) :
    ofMemory (memory count value) = value :=
  ofMemory_memory_of_lt value.isLt

theorem ofMemory_lt (width : Nat) (bytes : List (BitVec 8)) :
    (ofMemory bytes : BitVec width).toNat < 2 ^ (8 * bytes.length) := by
  induction bytes with
  | nil => simp [ofMemory]
  | cons byte bytes ih =>
      have bound : 2 ^ 8 ≤ 2 ^ (8 * (byte :: bytes).length) := by
        apply Nat.pow_le_pow_right (by decide)
        rw [List.length_cons]
        omega
      rw [ofMemory, BitVec.toNat_or]
      apply Nat.or_lt_two_pow
      · refine lt_of_le_of_lt ?_ (lt_of_lt_of_le byte.isLt bound)
        rw [BitVec.toNat_setWidth]
        exact Nat.mod_le _ _
      · rw [BitVec.toNat_shiftLeft, Nat.shiftLeft_eq, List.length_cons,
          Nat.mul_succ 8 bytes.length, Nat.pow_add 2 (8 * bytes.length) 8]
        exact (Nat.mod_le _ _).trans_lt (Nat.mul_lt_mul_of_pos_right ih (by decide))

/-- A byte put below a value that leaves room for it. -/
theorem lowByte_rest_or {value : BitVec width} (byte : BitVec 8) {count : Nat}
    (fits : value.toNat < 2 ^ (8 * count)) (room : 8 * count + 8 ≤ width) :
    (byte.setWidth width ||| (value <<< 8)).setWidth 8 = byte ∧
      (byte.setWidth width ||| (value <<< 8)) >>> 8 = value := by
  constructor
  · ext index inside
    have low : index < width := by omega
    simp [inside, low]
  · ext index inside
    simp only [BitVec.getElem_ushiftRight, BitVec.getLsbD_or, BitVec.getLsbD_setWidth,
      BitVec.getLsbD_shiftLeft]
    by_cases high : 8 + index < width
    · simp [high, BitVec.getLsbD_eq_getElem inside]
    · have none : value.getLsbD index = false := by
        refine Nat.testBit_lt_two_pow (fits.trans_le ?_)
        exact Nat.pow_le_pow_right (by decide) (by omega)
      rw [BitVec.getLsbD_eq_getElem inside] at none
      simp [high, none]

/-- The bytes of a value are those that gave it. -/
theorem memory_ofMemory (width : Nat) (bytes : List (BitVec 8)) (fits : 8 * bytes.length ≤ width) :
    memory bytes.length (ofMemory bytes : BitVec width) = bytes := by
  induction bytes with
  | nil => rfl
  | cons byte bytes ih =>
      rw [List.length_cons, Nat.mul_succ] at fits
      obtain ⟨low, rest⟩ := lowByte_rest_or byte (ofMemory_lt width bytes) fits
      rw [List.length_cons, ofMemory, memory, low, rest, ih (by omega)]

/-- The value with the bytes of another in the opposite order. -/
def byteSwap (count : Nat) (value : BitVec (8 * count)) : BitVec (8 * count) :=
  ofMemory (memory count value).reverse

theorem memory_byteSwap {count : Nat} (value : BitVec (8 * count)) :
    memory count (byteSwap count value) = (memory count value).reverse := by
  have length : (memory count value).reverse.length = count := by simp
  have back := memory_ofMemory (8 * count) (memory count value).reverse (by rw [length])
  rwa [length] at back

@[simp] theorem byteSwap_byteSwap {count : Nat} (value : BitVec (8 * count)) :
    byteSwap count (byteSwap count value) = value := by
  rw [byteSwap, memory_byteSwap, List.reverse_reverse, ofMemory_memory]

theorem memory_zero (count : Nat) : memory count (0 : BitVec width) = List.replicate count 0 := by
  induction count with
  | zero => rfl
  | succ count ih =>
      have shifted : (0 : BitVec width) >>> 8 = 0 := BitVec.zero_ushiftRight
      have low : (0 : BitVec width).setWidth 8 = 0 := BitVec.setWidth_zero _ _
      rw [memory, shifted, low, ih, List.replicate_succ]

/-- A value read from memory is zero if all its bytes are. -/
theorem ofMemory_eq_zero_iff {count : Nat} {bytes : List (BitVec 8)} (length : bytes.length = count) :
    (ofMemory bytes : BitVec (8 * count)) = 0 ↔ bytes = List.replicate count 0 := by
  subst length
  constructor
  · intro zero
    have back := memory_ofMemory (8 * bytes.length) bytes (Nat.le_refl _)
    rwa [zero, memory_zero, eq_comm] at back
  · intro zeros
    have back := ofMemory_memory (0 : BitVec (8 * bytes.length))
    rwa [memory_zero, ← zeros] at back

theorem byteSwap_eq_zero_iff {count : Nat} (value : BitVec (8 * count)) :
    byteSwap count value = 0 ↔ value = 0 := by
  have zero : byteSwap count 0 = 0 := by
    rw [byteSwap, memory_zero, List.reverse_replicate, ofMemory_eq_zero_iff List.length_replicate]
  constructor
  · intro swapped
    rw [← byteSwap_byteSwap value, swapped, zero]
  · rintro rfl
    exact zero

/-- A bit of a value is in the byte that its place says. -/
theorem getLsbD_memory {count place : Nat} (value : BitVec width) (inside : place < 8 * count) :
    (((memory count value)[place / 8]?).getD 0).getLsbD (place % 8) = value.getLsbD place := by
  induction count generalizing value place with
  | zero => omega
  | succ count ih =>
      rw [memory]
      by_cases low : place < 8
      · rw [Nat.div_eq_of_lt low, Nat.mod_eq_of_lt low, List.getElem?_cons_zero, Option.getD_some,
          BitVec.getLsbD_setWidth, decide_eq_true low, Bool.true_and]
      · obtain ⟨rest, rfl⟩ := Nat.exists_eq_add_of_le (Nat.le_of_not_lt low)
        rw [Nat.add_div_left rest (by decide), Nat.add_mod_left, List.getElem?_cons_succ,
          ih (value >>> 8) (by omega), BitVec.getLsbD_ushiftRight]

theorem getLsbD_ofMemory (bytes : List (BitVec 8)) {place : Nat} (inside : place < width) :
    (ofMemory bytes : BitVec width).getLsbD place =
      ((bytes[place / 8]?).getD 0).getLsbD (place % 8) := by
  induction bytes generalizing place with
  | nil => simp [ofMemory]
  | cons byte bytes ih =>
      rw [ofMemory, BitVec.getLsbD_or, BitVec.getLsbD_setWidth, BitVec.getLsbD_shiftLeft,
        decide_eq_true inside, Bool.true_and, Bool.true_and]
      by_cases low : place < 8
      · rw [Nat.div_eq_of_lt low, Nat.mod_eq_of_lt low, decide_eq_true low]
        simp
      · obtain ⟨rest, rfl⟩ := Nat.exists_eq_add_of_le (Nat.le_of_not_lt low)
        rw [Nat.add_div_left rest (by decide), Nat.add_mod_left, List.getElem?_cons_succ,
          BitVec.getLsbD_of_ge byte _ (by omega), decide_eq_false low, Nat.add_sub_cancel_left,
          ih (by omega)]
        simp

/-- The bits of a byte stay together. -/
theorem getLsbD_byteSwap {count place : Nat} (value : BitVec (8 * count))
    (inside : place < 8 * count) : (byteSwap count value).getLsbD place =
      value.getLsbD (8 * (count - 1 - place / 8) + place % 8) := by
  have byte : place / 8 < count := by omega
  have source : 8 * (count - 1 - place / 8) + place % 8 < 8 * count := by omega
  rw [byteSwap, getLsbD_ofMemory _ inside, List.getElem?_reverse (by rwa [length_memory]),
    length_memory, ← getLsbD_memory value source]
  have isByte : (8 * (count - 1 - place / 8) + place % 8) / 8 = count - 1 - place / 8 := by omega
  have isBit : (8 * (count - 1 - place / 8) + place % 8) % 8 = place % 8 := by omega
  rw [isByte, isBit]

theorem byteSwap_and {count : Nat} (first second : BitVec (8 * count)) :
    byteSwap count (first &&& second) = byteSwap count first &&& byteSwap count second := by
  refine BitVec.eq_of_getLsbD_eq fun place inside => ?_
  rw [BitVec.getLsbD_and, getLsbD_byteSwap _ inside, getLsbD_byteSwap _ inside,
    getLsbD_byteSwap _ inside, BitVec.getLsbD_and]

theorem byteSwap_or {count : Nat} (first second : BitVec (8 * count)) :
    byteSwap count (first ||| second) = byteSwap count first ||| byteSwap count second := by
  refine BitVec.eq_of_getLsbD_eq fun place inside => ?_
  rw [BitVec.getLsbD_or, getLsbD_byteSwap _ inside, getLsbD_byteSwap _ inside,
    getLsbD_byteSwap _ inside, BitVec.getLsbD_or]

theorem byteSwap_not {count : Nat} (value : BitVec (8 * count)) :
    byteSwap count (~~~value) = ~~~byteSwap count value := by
  refine BitVec.eq_of_getLsbD_eq fun place inside => ?_
  have source : 8 * (count - 1 - place / 8) + place % 8 < 8 * count := by omega
  rw [BitVec.getLsbD_not, getLsbD_byteSwap _ inside, getLsbD_byteSwap _ inside,
    BitVec.getLsbD_not, decide_eq_true inside, decide_eq_true source]

end Memory

section Groups

/-- A value in groups of seven bits, least significant first, each but the last with
the high bit set. There is room for so many groups; none if they are too few. -/
def groups : Nat → BitVec width → Option (List (BitVec 8))
  | 0, _ => none
  | room + 1, value =>
      if 0x80 ≤ value.toNat then
        (groups room (value >>> 7)).map ((value &&& 0x7F ||| 0x80).setWidth 8 :: ·)
      else
        some [value.setWidth 8]

/-- The value of a sequence of groups, put at an offset above the bits read so far,
and what follows the groups; none if the last one is missing or the offset leaves the
value. -/
def ofGroups : Nat → BitVec width → List (BitVec 8) → Option (BitVec width × List (BitVec 8))
  | _, _, [] => none
  | offset, value, group :: bytes =>
      if width ≤ offset then
        none
      else if group.toNat < 0x80 then
        some (value ||| (group.setWidth width <<< offset), bytes)
      else
        ofGroups (offset + 7) (value ||| ((group &&& 0x7F).setWidth width <<< offset)) bytes

/-- Enough room for the bits of a value is room for its groups. -/
theorem groups_isSome {room : Nat} {value : BitVec width} (some : 0 < room)
    (fits : value.toNat < 2 ^ (7 * room)) : ∃ bytes, groups room value = .some bytes := by
  induction room generalizing value with
  | zero => exact absurd some (lt_irrefl 0)
  | succ room ih =>
      rw [groups]
      by_cases large : 0x80 ≤ value.toNat
      · have rest : (value >>> 7).toNat < 2 ^ (7 * room) := by
          rw [BitVec.toNat_ushiftRight, Nat.shiftRight_eq_div_pow]
          refine Nat.div_lt_of_lt_mul ?_
          rwa [← Nat.pow_add, Nat.add_comm, ← Nat.mul_succ]
        have more : 0 < room := by
          refine Nat.pos_of_ne_zero fun none => ?_
          rw [none] at fits
          omega
        obtain ⟨bytes, same⟩ := ih more rest
        exact ⟨_, by rw [if_pos large, same]; rfl⟩
      · exact ⟨_, if_neg large⟩

/-- There is at least one group. -/
theorem groups_ne_nil {room : Nat} {value : BitVec width} {bytes : List (BitVec 8)}
    (same : groups room value = some bytes) : bytes ≠ [] := by
  cases room with
  | zero => cases same
  | succ room =>
      rw [groups] at same
      split at same
      · obtain ⟨later, -, rfl⟩ := Option.map_eq_some_iff.mp same
        exact List.cons_ne_nil _ _
      · cases same
        exact List.cons_ne_nil _ _

/-- There are no more groups than the bits of the value need. -/
theorem length_groups_le {room count : Nat} {value : BitVec width} {bytes : List (BitVec 8)}
    (same : groups room value = some bytes) (some : 0 < count)
    (fits : value.toNat < 2 ^ (7 * count)) : bytes.length ≤ count := by
  induction room generalizing count value bytes with
  | zero => cases same
  | succ room ih =>
      rw [groups] at same
      by_cases large : 0x80 ≤ value.toNat
      · rw [if_pos large] at same
        obtain ⟨later, tail, rfl⟩ := Option.map_eq_some_iff.mp same
        obtain ⟨count, rfl⟩ : ∃ fewer, count = fewer + 1 := Nat.exists_eq_add_one.mpr some
        have rest : (value >>> 7).toNat < 2 ^ (7 * count) := by
          rw [BitVec.toNat_ushiftRight, Nat.shiftRight_eq_div_pow]
          refine Nat.div_lt_of_lt_mul ?_
          rwa [← Nat.pow_add, Nat.add_comm, ← Nat.mul_succ]
        have more : 0 < count := by
          refine Nat.pos_of_ne_zero fun none => ?_
          rw [none] at fits
          omega
        rw [List.length_cons]
        exact Nat.succ_le_succ (ih tail more rest)
      · rw [if_neg large] at same
        cases same
        exact some

/-- A value without bits from some position on is zero there. -/
theorem clear_above (count : Nat) {value : BitVec width} {index : Nat} (fits : value.toNat < 2 ^ count)
    (above : count ≤ index) : value.getLsbD index = false :=
  Nat.testBit_lt_two_pow (fits.trans_le (Nat.pow_le_pow_right (by decide) above))

/-- The last group holds the whole value. -/
theorem lastGroup {value : BitVec width} (small : ¬ 0x80 ≤ value.toNat) :
    (value.setWidth 8).toNat < 0x80 ∧ (value.setWidth 8).setWidth width = value := by
  have fits : value.toNat < 2 ^ 7 := Nat.lt_of_not_le small
  constructor
  · rw [BitVec.toNat_setWidth]
    exact (Nat.mod_le _ _).trans_lt fits
  · ext index inside
    by_cases low : index < 8
    · simp [low, inside]
    · have none := clear_above 7 fits (show 7 ≤ index by omega)
      rw [BitVec.getLsbD_eq_getElem inside] at none
      simp [low, none]

theorem getLsbD_lowBits (index : Nat) :
    (BitVec.ofNat width 127).getLsbD index = (decide (index < width) && decide (index < 7)) := by
  rw [BitVec.getLsbD_ofNat]
  congr 1
  exact Nat.testBit_two_pow_sub_one 7 index

theorem getLsbD_highBit (index : Nat) :
    (BitVec.ofNat width 128).getLsbD index = (decide (index < width) && decide (7 = index)) := by
  rw [BitVec.getLsbD_ofNat, show 128 = 2 ^ 7 from rfl, Nat.testBit_two_pow]

/-- A group that is not the last has its high bit set. -/
theorem firstGroup_marked {value : BitVec width} (large : 0x80 ≤ value.toNat) :
    ¬ ((value &&& 0x7F ||| 0x80).setWidth 8).toNat < 0x80 := by
  have wide : 7 < width := by
    by_contra narrow
    have bound : 2 ^ width ≤ 2 ^ 7 := Nat.pow_le_pow_right (by decide) (by omega)
    have inside := value.isLt
    omega
  intro small
  have marked : ((value &&& 0x7F ||| 0x80).setWidth 8).getLsbD 7 = true := by
    simp [getLsbD_highBit, wide]
  rw [clear_above 7 small le_rfl] at marked
  cases marked

/-- A group and what is left above it make up the value. -/
theorem firstGroup_or_rest (value : BitVec width) (offset : Nat) :
    (((value &&& 0x7F ||| 0x80).setWidth 8 &&& 0x7F).setWidth width <<< offset) |||
      (value >>> 7 <<< (offset + 7)) = value <<< offset := by
  ext index inside
  simp only [BitVec.getElem_or, BitVec.getElem_shiftLeft, BitVec.getLsbD_setWidth,
    BitVec.getElem_setWidth, BitVec.getElem_ushiftRight, BitVec.getLsbD_and, BitVec.getLsbD_or,
    BitVec.ofNat_eq_ofNat, getLsbD_lowBits, getLsbD_highBit]
  by_cases below : index < offset
  · simp [below, show index < offset + 7 by omega]
  · by_cases within : index < offset + 7
    · have group : index - offset < 7 := by omega
      have byte : index - offset < 8 := by omega
      have held : index - offset < width := by omega
      simp [below, within, group, byte, held, group.ne']
    · have above : ¬ index - offset < 7 := by omega
      have same : 7 + (index - (offset + 7)) = index - offset := by omega
      have held : index - offset < width := by omega
      simp [below, within, above, same, held]

/-- What is left above a group that is not the last still fits. -/
theorem rest_fits {value : BitVec width} {offset : Nat} (large : 0x80 ≤ value.toNat)
    (fits : value.toNat < 2 ^ (width - offset)) :
    offset + 7 < width ∧ (value >>> 7).toNat < 2 ^ (width - (offset + 7)) := by
  have inside : offset + 7 < width := by
    by_contra narrow
    have bound : 2 ^ (width - offset) ≤ 2 ^ 7 := Nat.pow_le_pow_right (by decide) (by omega)
    omega
  refine ⟨inside, ?_⟩
  rw [BitVec.toNat_ushiftRight, Nat.shiftRight_eq_div_pow]
  refine Nat.div_lt_of_lt_mul ?_
  rwa [← Nat.pow_add, show 7 + (width - (offset + 7)) = width - offset by omega]

/-- Groups put above the bits read so far give the value they came from. -/
theorem ofGroups_groups {room : Nat} {value : BitVec width} {bytes : List (BitVec 8)}
    (same : groups room value = some bytes) {offset : Nat} (inside : offset < width)
    (fits : value.toNat < 2 ^ (width - offset)) (read : BitVec width)
    (rest : List (BitVec 8)) :
    ofGroups offset read (bytes ++ rest) = some (read ||| (value <<< offset), rest) := by
  induction room generalizing value bytes offset read with
  | zero => cases same
  | succ room ih =>
      rw [groups] at same
      by_cases large : 0x80 ≤ value.toNat
      · rw [if_pos large, Option.map_eq_some_iff] at same
        obtain ⟨later, tail, rfl⟩ := same
        obtain ⟨above, left⟩ := rest_fits large fits
        rw [List.cons_append, ofGroups, if_neg (Nat.not_le.mpr inside),
          if_neg (firstGroup_marked large), ih tail above left, BitVec.or_assoc,
          firstGroup_or_rest]
      · rw [if_neg large, Option.some.injEq] at same
        obtain ⟨small, whole⟩ := lastGroup large
        rw [← same, List.singleton_append, ofGroups, if_neg (Nat.not_le.mpr inside), if_pos small,
          whole]

/-- The number that groups stand for, least significant first. -/
def base128 : List (BitVec 8) → Nat
  | [] => 0
  | group :: groups => group.toNat % 0x80 + 0x80 * base128 groups

/-- A group put above the bits read so far: what lies above the width is lost. -/
theorem toNat_putGroup {value : BitVec width} (group : BitVec 8) {offset : Nat}
    (below : value.toNat < 2 ^ offset) (inside : offset ≤ width) :
    (value ||| (group.setWidth width <<< offset)).toNat =
      value.toNat + 2 ^ offset * (group.toNat % 2 ^ (width - offset)) := by
  have split : 2 ^ width = 2 ^ offset * 2 ^ (width - offset) := by
    rw [← Nat.pow_add, Nat.add_sub_cancel' inside]
  have low : group.toNat % 2 ^ width % 2 ^ (width - offset) = group.toNat % 2 ^ (width - offset) :=
    Nat.mod_mod_of_dvd _ (split ▸ Nat.dvd_mul_left _ _)
  rw [BitVec.toNat_or, BitVec.toNat_shiftLeft, BitVec.toNat_setWidth, Nat.shiftLeft_eq, Nat.or_comm,
    Nat.mul_comm, split, Nat.mul_mod_mul_left, ← split, low,
    ← Nat.two_pow_add_eq_or_of_lt below, Nat.add_comm]

theorem toNat_payload (group : BitVec 8) : (group &&& 0x7F).toNat = group.toNat % 0x80 := by
  have mask : (0x7F : BitVec 8).toNat = 2 ^ 7 - 1 := rfl
  rw [BitVec.toNat_and, mask, Nat.and_two_pow_sub_one_eq_mod]

end Groups

section Zigzag

/-- Signed values folded onto unsigned ones: `0, -1, 1, -2, …` become `0, 1, 2, 3, …`. -/
def encodeZigzag (value : BitVec width) : BitVec width :=
  if value.msb then -value * 2 - 1 else value * 2

def decodeZigzag (value : BitVec width) : BitVec width :=
  (value >>> 1) ^^^ -(value &&& 1)

theorem mul_two_eq (value : BitVec width) : value * (2 : BitVec width) = value <<< 1 := by
  apply BitVec.eq_of_toNat_eq
  rw [BitVec.toNat_mul, BitVec.toNat_shiftLeft, Nat.shiftLeft_eq]
  change value.toNat * (2 % 2 ^ width) % 2 ^ width = _
  rw [Nat.mul_mod_mod]

theorem lastBit_even (value : BitVec width) : value <<< 1 &&& BitVec.ofNat width 1 = BitVec.ofNat width 0 := by
  ext index inside
  cases index <;> simp

theorem lastBit_odd (value : BitVec width) :
    (value <<< 1 ||| BitVec.ofNat width 1) &&& BitVec.ofNat width 1 = BitVec.ofNat width 1 := by
  ext index inside
  cases index <;> simp

/-- A value without a sign bit comes back from a shift up by one. -/
theorem shift_back {value : BitVec width} (positive : value.msb = false) :
    value <<< 1 >>> 1 = value := by
  rw [BitVec.msb_eq_getLsbD_last] at positive
  ext index inside
  by_cases top : index = width - 1
  · have past : ¬ 1 + index < width := by omega
    have clear : value[index] = false := by
      rw [← BitVec.getLsbD_eq_getElem, top, positive]
    simp [past, clear]
  · have room : 1 + index < width := by omega
    simp [room]

theorem shift_odd (value : BitVec width) :
    (value <<< 1 ||| BitVec.ofNat width 1) >>> 1 = value <<< 1 >>> 1 := by
  ext index inside
  simp [BitVec.getLsbD_one]

/-- Twice the complement of a negative value, plus one. -/
theorem neg_fold (value : BitVec width) :
    -value * (2 : BitVec width) - (1 : BitVec width) = ~~~value <<< 1 ||| BitVec.ofNat width 1 := by
  have twice : -value * (2 : BitVec width) - (1 : BitVec width) =
      ~~~value * (2 : BitVec width) + 1 := by
    rw [BitVec.neg_eq_not_add]
    change (~~~value + 1) * 2 - 1 = _
    ring
  rw [twice, mul_two_eq]
  exact BitVec.add_eq_or_of_and_eq_zero _ _ (lastBit_even _)

/-- Unfolding gives back the folded value, the least one included. -/
theorem decodeZigzag_encodeZigzag (value : BitVec width) :
    decodeZigzag (encodeZigzag value) = value := by
  cases sign : value.msb with
  | false =>
      have folded : encodeZigzag value = value <<< 1 := by
        rw [encodeZigzag, sign, if_neg Bool.false_ne_true, mul_two_eq]
      have last : -(value <<< 1 &&& 1) = BitVec.ofNat width 0 := by
        rw [show value <<< 1 &&& 1 = BitVec.ofNat width 0 from lastBit_even value, BitVec.neg_zero]
      rw [decodeZigzag, folded, last, BitVec.xor_zero, shift_back sign]
  | true =>
      have folded : encodeZigzag value = ~~~value <<< 1 ||| BitVec.ofNat width 1 := by
        rw [encodeZigzag, sign, if_pos rfl, neg_fold]
      have last : -((~~~value <<< 1 ||| BitVec.ofNat width 1) &&& 1) = BitVec.allOnes width := by
        rw [show (~~~value <<< 1 ||| BitVec.ofNat width 1) &&& 1 = BitVec.ofNat width 1 from lastBit_odd _,
          BitVec.neg_one_eq_allOnes]
      have some : 0 < width := by
        by_contra none
        have empty : width = 0 := by omega
        subst empty
        simp [BitVec.msb] at sign
      have rest : (~~~value).msb = false := by
        rw [BitVec.msb_not, sign]
        simp [some]
      rw [decodeZigzag, folded, last, shift_odd, shift_back rest, BitVec.xor_allOnes,
        BitVec.not_not]

/-- Folding gives back the unfolded value: there are as many folded values as others. -/
theorem encodeZigzag_decodeZigzag (value : BitVec width) :
    encodeZigzag (decodeZigzag value) = value := by
  have finite : Finite (BitVec width) :=
    Finite.of_injective BitVec.toFin fun first second same =>
      BitVec.eq_of_toNat_eq (congrArg Fin.val same)
  have folds : Function.LeftInverse decodeZigzag (encodeZigzag : BitVec width → BitVec width) :=
    decodeZigzag_encodeZigzag
  have onto := Finite.surjective_of_injective folds.injective
  exact folds.rightInverse_of_surjective onto value

end Zigzag

end Xten.Std.IntegerCodec
