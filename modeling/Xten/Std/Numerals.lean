import Mathlib.Data.BitVec
import Mathlib.Tactic

/-!
# Numerals

Numbers as the bytes of their digits, in any base up to sixteen, and what such bytes stand for.
-/

namespace Xten.Std.Numerals

/-- The digits of a number, the most significant one first. -/
def numeral (base number : Nat) : List (BitVec 8) :=
  (Nat.toDigits base number).map fun letter => BitVec.ofNat 8 letter.toNat

/-- What a letter stands for as a digit. Letters of both cases do. -/
def digitValue (letter : BitVec 8) : Option Nat :=
  if 48 ≤ letter.toNat ∧ letter.toNat ≤ 57 then some (letter.toNat - 48)
  else if 97 ≤ letter.toNat ∧ letter.toNat ≤ 102 then some (letter.toNat - 87)
  else if 65 ≤ letter.toNat ∧ letter.toNat ≤ 70 then some (letter.toNat - 55)
  else none

/-- The number before a digit, and with it. -/
def push (base number : Nat) (letter : BitVec 8) : Option Nat :=
  (digitValue letter).bind fun digit => if digit < base then some (number * base + digit) else none

/-- The number that a text of digits stands for. -/
def ofNumeral (base : Nat) (text : List (BitVec 8)) : Option Nat :=
  if text = [] then none else text.foldlM (push base) 0

section Digits

variable {base digit number count : Nat} {letter : BitVec 8}

theorem digitValue_digitChar (small : digit < 16) :
    digitValue (BitVec.ofNat 8 digit.digitChar.toNat) = some digit := by
  have all : ∀ digit : Fin 16, digitValue (BitVec.ofNat 8 digit.val.digitChar.toNat) =
      some digit.val := by decide
  exact all ⟨digit, small⟩

theorem push_digitChar (base_le : base ≤ 16) (small : digit < base) (number : Nat) :
    push base number (BitVec.ofNat 8 digit.digitChar.toNat) = some (number * base + digit) := by
  rw [push, digitValue_digitChar (Nat.lt_of_lt_of_le small base_le), Option.bind_some,
    if_pos small]

/-- The last digit is put behind the others. -/
theorem numeral_of_le (base_gt : 1 < base) (large : base ≤ number) :
    numeral base number =
      numeral base (number / base) ++ [BitVec.ofNat 8 (number % base).digitChar.toNat] := by
  rw [numeral, Nat.toDigits_of_base_le base_gt large, List.map_append]
  rfl

theorem numeral_of_lt (small : number < base) :
    numeral base number = [BitVec.ofNat 8 number.digitChar.toNat] := by
  rw [numeral, Nat.toDigits_of_lt_base small]
  rfl

theorem numeral_ne_nil (base number : Nat) : numeral base number ≠ [] := fun none =>
  Nat.toDigits_ne_nil (List.map_eq_nil_iff.mp none)

theorem length_numeral_le (base_gt : 1 < base) (positive : 0 < count)
    (small : number < base ^ count) : (numeral base number).length ≤ count := by
  rw [numeral, List.length_map]
  exact (Nat.length_toDigits_le_iff base_gt positive).mpr small

/-- Every letter of a numeral is a digit. -/
theorem digit_of_mem (base_gt : 1 < base) (base_le : base ≤ 16)
    (member : letter ∈ numeral base number) : (digitValue letter).isSome = true := by
  induction number using Nat.strongRecOn with
  | ind number ih =>
      obtain small | large := Nat.lt_or_ge number base
      · rw [numeral_of_lt small] at member
        rw [List.mem_singleton.mp member, digitValue_digitChar (Nat.lt_of_lt_of_le small base_le)]
        rfl
      · rw [numeral_of_le base_gt large, List.mem_append, List.mem_singleton] at member
        obtain before | rfl := member
        · exact ih _ (Nat.div_lt_self (by omega) base_gt) before
        · have below : number % base < base := Nat.mod_lt _ (by omega)
          rw [digitValue_digitChar (Nat.lt_of_lt_of_le below base_le)]
          rfl

theorem foldlM_numeral (base_gt : 1 < base) (base_le : base ≤ 16) (number : Nat) :
    (numeral base number).foldlM (push base) 0 = some number := by
  induction number using Nat.strongRecOn with
  | ind number ih =>
      obtain small | large := Nat.lt_or_ge number base
      · rw [numeral_of_lt small, List.foldlM_cons, push_digitChar base_le small, Nat.zero_mul,
          Nat.zero_add]
        rfl
      · have below : number % base < base := Nat.mod_lt _ (by omega)
        rw [numeral_of_le base_gt large, List.foldlM_append,
          ih _ (Nat.div_lt_self (by omega) base_gt), Option.bind_eq_bind, Option.bind_some,
          List.foldlM_cons, push_digitChar base_le below, Nat.div_add_mod']
        rfl

/-- The digits of a number stand for it. -/
theorem ofNumeral_numeral (base_gt : 1 < base) (base_le : base ≤ 16) (number : Nat) :
    ofNumeral base (numeral base number) = some number := by
  rw [ofNumeral, if_neg (numeral_ne_nil base number), foldlM_numeral base_gt base_le]

end Digits

end Xten.Std.Numerals
