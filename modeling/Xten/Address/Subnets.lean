import Xten.Address.IPv6Address

/-!
# Subnets

The functions of `IPv4Address` and `IPv6Address` that take the length of a prefix. What shifts too
far or writes behind an array has no result.
-/

namespace Xten

open Std.IntegerCodec
open Xten.Kcp (htonl htonl_htonl)

/-- `CreateMask<T>(bits)`, for a `T` of some width. The shift and the subtraction are those of
`int`. -/
def createMask (width bits : Nat) : Option (BitVec width) :=
  if bits ≤ width ∧ width - bits < 32 then
    some (((1 : BitVec 32) <<< (width - bits) - 1).setWidth width)
  else
    none

/-- `sockaddr_in`, as far as it is read here. -/
structure IPv4Address where
  sAddr : BitVec 32
  sinPort : BitVec 16
deriving DecidableEq

namespace IPv4Address

variable (address : IPv4Address) (prefixLen : Nat)

/-- `broadcastAddress(prefix_len)`, or none for `nullptr`. -/
def broadcastAddress : Option (Option IPv4Address) :=
  if prefixLen > 32 then some none
  else (createMask 32 prefixLen).map fun mask =>
    some { address with sAddr := address.sAddr ||| htonl mask }

/-- `networdAddress(prefix_len)`, or none for `nullptr`. -/
def networdAddress : Option (Option IPv4Address) :=
  if prefixLen > 32 then some none
  else (createMask 32 prefixLen).map fun mask =>
    some { address with sAddr := address.sAddr &&& htonl mask }

/-- `subnetMask(prefix_len)`. -/
def subnetMask (prefixLen : Nat) : Option IPv4Address :=
  (createMask 32 prefixLen).map fun mask => ⟨~~~htonl mask, 0⟩

/-- The address as a number. -/
def number : BitVec 32 :=
  htonl address.sAddr

/-- The three functions have results that are what they should be. -/
def Subnetted : Prop :=
  ∃ mask network broadcast, subnetMask prefixLen = some mask ∧
    address.networdAddress prefixLen = some (some network) ∧
    address.broadcastAddress prefixLen = some (some broadcast) ∧
    (∀ place < 32, mask.number.getMsbD place = decide (place < prefixLen)) ∧
    network.number = address.number &&& mask.number ∧
    broadcast.number = network.number ||| ~~~mask.number

end IPv4Address

namespace IPv6Address

variable (address : IPv6Address) (prefixLen : Nat)

/-- `broadcastAddress(prefix_len)`. -/
def broadcastAddress : Option IPv6Address :=
  if prefixLen / 8 < 16 then
    (createMask 8 (prefixLen % 8)).map fun mask =>
      { address with s6Addr := fun i =>
        if i.val = prefixLen / 8 then address.s6Addr i ||| mask
        else if prefixLen / 8 + 1 ≤ i.val then 0xff
        else address.s6Addr i }
  else
    none

/-- `networdAddress(prefix_len)`. -/
def networdAddress : Option IPv6Address :=
  if prefixLen / 8 < 16 then
    (createMask 8 (prefixLen % 8)).map fun mask =>
      { address with s6Addr := fun i =>
        if i.val = prefixLen / 8 then address.s6Addr i &&& mask
        else if prefixLen / 8 + 1 ≤ i.val then 0x00
        else address.s6Addr i }
  else
    none

/-- `subnetMask(prefix_len)`. -/
def subnetMask (prefixLen : Nat) : Option IPv6Address :=
  if prefixLen / 8 < 16 then
    (createMask 8 (prefixLen % 8)).map fun mask =>
      { s6Addr := fun i =>
          if i.val < prefixLen / 8 then 0xff
          else if i.val = prefixLen / 8 then ~~~mask
          else 0
        sin6Port := 0 }
  else
    none

/-- The three functions have results that are what they should be. -/
def Subnetted : Prop :=
  ∃ mask network broadcast, subnetMask prefixLen = some mask ∧
    address.networdAddress prefixLen = some network ∧
    address.broadcastAddress prefixLen = some broadcast ∧
    (∀ i : Fin 16, ∀ place < 8,
      (mask.s6Addr i).getMsbD place = decide (8 * i.val + place < prefixLen)) ∧
    (∀ i, network.s6Addr i = address.s6Addr i &&& mask.s6Addr i) ∧
    ∀ i, broadcast.s6Addr i = network.s6Addr i ||| ~~~mask.s6Addr i

end IPv6Address

section Masks

variable {width bits : Nat} {mask address : BitVec width}

theorem createMask_eq_some : createMask width bits = some mask ↔
    (bits ≤ width ∧ width - bits < 32) ∧
      ((1 : BitVec 32) <<< (width - bits) - 1).setWidth width = mask := by
  rw [createMask, Option.ite_none_right_eq_some, Option.some_inj]

/-- A mask has the bits that are not in the prefix. -/
theorem getMsbD_createMask (made : createMask width bits = some mask) {place : Nat}
    (inside : place < width) : mask.getMsbD place = decide (bits ≤ place) := by
  obtain ⟨⟨within, narrow⟩, rfl⟩ := createMask_eq_some.mp made
  have power : (1 : BitVec 32) <<< (width - bits) - 1 = BitVec.ofNat 32 (2 ^ (width - bits) - 1) := by
    have small : 2 ^ (width - bits) < 2 ^ 32 := Nat.pow_lt_pow_right (by decide) narrow
    have positive : 0 < 2 ^ (width - bits) := Nat.two_pow_pos _
    have one : (1 : BitVec 32).toNat = 1 := rfl
    refine BitVec.eq_of_toNat_eq ?_
    rw [BitVec.toNat_sub, BitVec.toNat_shiftLeft, BitVec.toNat_ofNat, one, Nat.shiftLeft_eq]
    omega
  rw [power, BitVec.getMsbD_eq_getLsbD, decide_eq_true inside, Bool.true_and,
    BitVec.getLsbD_setWidth, BitVec.getLsbD_ofNat, Nat.testBit_two_pow_sub_one]
  simp only [← Bool.decide_and, decide_eq_decide]
  omega

/-- Nothing but zero has the same bits within a mask and outside of it. -/
theorem and_eq_and_not_iff : address &&& mask = address &&& ~~~mask ↔ address = 0 := by
  constructor
  · intro same
    refine BitVec.eq_of_getLsbD_eq fun place inside => ?_
    have bit := congrArg (fun value : BitVec width => value.getLsbD place) same
    simp only [BitVec.getLsbD_and, BitVec.getLsbD_not, decide_eq_true inside] at bit
    revert bit
    cases address.getLsbD place <;> cases mask.getLsbD place <;> simp
  · rintro rfl
    exact BitVec.zero_and.trans BitVec.zero_and.symm

end Masks

namespace IPv4Address

variable {address : IPv4Address} {prefixLen : Nat} {mask : BitVec 32}

theorem htonl_and (first second : BitVec 32) : htonl (first &&& second) = htonl first &&& htonl second :=
  @byteSwap_and 4 first second

theorem htonl_or (first second : BitVec 32) : htonl (first ||| second) = htonl first ||| htonl second :=
  @byteSwap_or 4 first second

theorem htonl_not (value : BitVec 32) : htonl (~~~value) = ~~~htonl value :=
  @byteSwap_not 4 value

/-- Behind a mask that can be made, only the network is not what it should be. -/
theorem subnetted_iff_of_some (short : prefixLen ≤ 32)
    (made : createMask 32 prefixLen = some mask) :
    address.Subnetted prefixLen ↔ address.number &&& mask = address.number &&& ~~~mask := by
  have notLong : ¬ prefixLen > 32 := Nat.not_lt.mpr short
  have bits : ∀ place < 32, (~~~mask).getMsbD place = decide (place < prefixLen) := by
    intro place inside
    rw [BitVec.getMsbD_not, getMsbD_createMask made inside, decide_eq_true inside, Bool.true_and,
      ← decide_not]
    exact decide_eq_decide.mpr Nat.not_le
  constructor
  · rintro ⟨_, network, _, isMask, isNetwork, -, -, right, -⟩
    rw [subnetMask, made, Option.map_some, Option.some_inj] at isMask
    rw [networdAddress, if_neg notLong, made, Option.map_some, Option.some_inj, Option.some_inj]
      at isNetwork
    subst isMask isNetwork
    rwa [number, number, number, htonl_and, htonl_htonl, htonl_not, htonl_htonl] at right
  · intro right
    refine ⟨_, _, _, by rw [subnetMask, made, Option.map_some],
      by rw [networdAddress, if_neg notLong, made, Option.map_some],
      by rw [broadcastAddress, if_neg notLong, made, Option.map_some], ?_, ?_, ?_⟩
    · simpa only [number, htonl_not, htonl_htonl] using bits
    · rw [number, number, number, htonl_and, htonl_htonl, htonl_not, htonl_htonl]
      exact right
    · rw [number, number, number, htonl_and, htonl_or, htonl_htonl, htonl_not, htonl_htonl,
        BitVec.not_not]
      refine BitVec.eq_of_getLsbD_eq fun place inside => ?_
      have bit := congrArg (fun value : BitVec 32 => value.getLsbD place) right
      simp only [number, BitVec.getLsbD_and, BitVec.getLsbD_or, BitVec.getLsbD_not,
        decide_eq_true inside] at bit ⊢
      revert bit
      cases (htonl address.sAddr).getLsbD place <;> cases mask.getLsbD place <;> simp

/-- The shift does not reach the width exactly if there is a prefix. -/
theorem createMask_isSome (short : prefixLen ≤ 32) :
    createMask 32 prefixLen = none ↔ prefixLen = 0 := by
  rw [createMask]
  split
  case isTrue fits => exact iff_of_false (Option.some_ne_none _) (by omega)
  case isFalse wide => exact iff_of_true rfl (by omega)

theorem subnetted_iff (address : IPv4Address) (short : prefixLen ≤ 32) :
    address.Subnetted prefixLen ↔ 0 < prefixLen ∧ address.number = 0 := by
  cases made : createMask 32 prefixLen with
  | none =>
      have zero := (createMask_isSome short).mp made
      refine iff_of_false ?_ (by omega)
      rintro ⟨_, _, _, isMask, -⟩
      rw [subnetMask, made] at isMask
      cases isMask
  | some mask =>
      have positive : prefixLen ≠ 0 := fun zero =>
        Option.some_ne_none mask (made.symm.trans ((createMask_isSome short).mpr zero))
      rw [subnetted_iff_of_some short made, and_eq_and_not_iff]
      exact (and_iff_right (Nat.pos_of_ne_zero positive)).symm

end IPv4Address

namespace IPv6Address

variable {address : IPv6Address} {prefixLen : Nat} {mask : Byte}

/-- The mask of a byte can always be made. -/
theorem exists_createMask (prefixLen : Nat) :
    ∃ mask, createMask 8 (prefixLen % 8) = some mask := by
  have fits : prefixLen % 8 ≤ 8 ∧ 8 - prefixLen % 8 < 32 := by omega
  rw [createMask, if_pos fits]
  exact ⟨_, rfl⟩

/-- Of a byte of the mask, by where the end of the prefix is. -/
theorem getMsbD_maskByte (made : createMask 8 (prefixLen % 8) = some mask) (i : Nat) {place : Nat}
    (inside : place < 8) :
    (if i < prefixLen / 8 then 0xff else if i = prefixLen / 8 then ~~~mask else 0 : Byte).getMsbD
      place = decide (8 * i + place < prefixLen) := by
  have ones : (0xff : Byte).getMsbD place = true := by
    interval_cases place <;> rfl
  split
  case isTrue before =>
    rw [ones, decide_eq_true]
    omega
  case isFalse notBefore =>
    split
    case isTrue here =>
      rw [BitVec.getMsbD_not, getMsbD_createMask made inside, decide_eq_true inside, Bool.true_and,
        ← decide_not]
      exact decide_eq_decide.mpr (by omega)
    case isFalse notHere =>
      rw [BitVec.ofNat_eq_ofNat, BitVec.getMsbD_zero, decide_eq_false]
      omega

/-- The network is what it should be exactly if the byte in which the prefix ends is zero. -/
theorem subnetted_iff_of_lt (within : prefixLen / 8 < 16) (address : IPv6Address) :
    address.Subnetted prefixLen ↔ address.s6Addr ⟨prefixLen / 8, within⟩ = 0 := by
  obtain ⟨mask, made⟩ := exists_createMask prefixLen
  constructor
  · rintro ⟨_, _, _, isMask, isNetwork, -, -, right, -⟩
    rw [subnetMask, if_pos within, made, Option.map_some, Option.some_inj] at isMask
    rw [networdAddress, if_pos within, made, Option.map_some, Option.some_inj] at isNetwork
    subst isMask isNetwork
    have byte := right ⟨prefixLen / 8, within⟩
    simp only [if_true, Nat.lt_irrefl, if_false] at byte
    exact and_eq_and_not_iff.mp byte
  · intro zero
    refine ⟨_, _, _, by rw [subnetMask, if_pos within, made, Option.map_some],
      by rw [networdAddress, if_pos within, made, Option.map_some],
      by rw [broadcastAddress, if_pos within, made, Option.map_some],
      ?_, fun i => ?_, fun i => ?_⟩
    · exact fun i place inside => getMsbD_maskByte made i.val inside
    · dsimp only
      obtain before | here | after := Nat.lt_trichotomy i.val (prefixLen / 8)
      · rw [if_neg (Nat.ne_of_lt before), if_neg (by omega), if_pos before]
        exact BitVec.and_allOnes.symm
      · have byte : address.s6Addr i = 0 := (congrArg address.s6Addr (Fin.ext here)).trans zero
        rw [if_pos here, if_neg (by omega), if_pos here, byte]
        exact and_eq_and_not_iff.mpr rfl
      · rw [if_neg (Nat.ne_of_gt after), if_pos (Nat.succ_le_of_lt after), if_neg (by omega),
          if_neg (Nat.ne_of_gt after)]
        exact BitVec.and_zero.symm
    · dsimp only
      obtain before | here | after := Nat.lt_trichotomy i.val (prefixLen / 8)
      · rw [if_neg (Nat.ne_of_lt before), if_neg (by omega), if_neg (Nat.ne_of_lt before),
          if_neg (by omega), if_pos before]
        exact BitVec.or_zero.symm
      · have byte : address.s6Addr i = 0 := (congrArg address.s6Addr (Fin.ext here)).trans zero
        rw [if_pos here, if_pos here, if_neg (by omega), if_pos here, byte, BitVec.not_not,
          show (0 : Byte) &&& mask = 0 from BitVec.zero_and]
      · rw [if_neg (Nat.ne_of_gt after), if_pos (Nat.succ_le_of_lt after),
          if_neg (Nat.ne_of_gt after), if_pos (Nat.succ_le_of_lt after),
          if_neg (by omega), if_neg (Nat.ne_of_gt after)]
        rfl

theorem subnetted_iff (address : IPv6Address) (prefixLen : Nat) :
    address.Subnetted prefixLen ↔
      ∃ within : prefixLen / 8 < 16, address.s6Addr ⟨prefixLen / 8, within⟩ = 0 := by
  by_cases within : prefixLen / 8 < 16
  · exact (subnetted_iff_of_lt within address).trans
      ⟨fun zero => ⟨within, zero⟩, fun holds => holds.2⟩
  · refine iff_of_false ?_ fun holds => within holds.1
    rintro ⟨_, _, _, isMask, -⟩
    rw [subnetMask, if_neg within] at isMask
    cases isMask

end IPv6Address

/-- For IPv4 the functions are right of the address zero and a prefix that is not empty, and for
IPv6 exactly if the byte in which the prefix ends is there and is zero. -/
theorem subnets_iff (address : IPv4Address) (prefixLen : Fin 33) (address' : IPv6Address)
    (prefixLen' : Fin 129) :
    (address.Subnetted prefixLen ↔ 0 < prefixLen.val ∧ address.number = 0) ∧
      (address'.Subnetted prefixLen' ↔
        ∃ within : prefixLen'.val / 8 < 16, address'.s6Addr ⟨prefixLen'.val / 8, within⟩ = 0) :=
  ⟨address.subnetted_iff (Nat.le_of_lt_succ prefixLen.isLt), address'.subnetted_iff prefixLen'⟩

/-- The network of 192.168.1.7 with a prefix of 24 bits is 0.0.0.7. -/
theorem not_subnetted :
    IPv4Address.networdAddress ⟨Kcp.htonl 0xC0A80107, 0⟩ 24 = some (some ⟨Kcp.htonl 7, 0⟩) ∧
      ¬ IPv4Address.Subnetted ⟨Kcp.htonl 0xC0A80107, 0⟩ 24 := by
  refine ⟨by decide, fun right => ?_⟩
  have zero := ((IPv4Address.subnetted_iff ⟨Kcp.htonl 0xC0A80107, 0⟩ (by decide)).mp right).2
  exact absurd zero (by decide)

end Xten
