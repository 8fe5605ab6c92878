import Xten.ByteArray.Typed

/-!
# Base64

`base64encode`, and the decoding that RFC 4648 describes, which takes four letters at a time.
-/

namespace Xten

section Decoding

/-- The letters of the standard alphabet in their order. Behind them there is the null of the
literal. -/
def Base64.letter (value : Nat) : Byte :=
  if value < 26 then 65 + BitVec.ofNat 8 value
  else if value < 52 then 97 + BitVec.ofNat 8 (value - 26)
  else if value < 62 then 48 + BitVec.ofNat 8 (value - 52)
  else if value = 62 then 43
  else if value = 63 then 47
  else 0

/-- What a letter of the alphabet stands for. -/
def Base64.value (letter : Byte) : Option Nat :=
  (List.range 64).find? fun value => Base64.letter value = letter

namespace Base64

/-- The bytes of one group of four letters. -/
def decodeGroup (first second third fourth : Byte) : Option (List Byte) := do
  let a ← value first
  let b ← value second
  if third = 61 ∧ fourth = 61 then
    return [BitVec.ofNat 8 (a * 4 + b / 16)]
  let c ← value third
  if fourth = 61 then
    return [BitVec.ofNat 8 (a * 4 + b / 16), BitVec.ofNat 8 (b % 16 * 16 + c / 4)]
  let d ← value fourth
  return [BitVec.ofNat 8 (a * 4 + b / 16), BitVec.ofNat 8 (b % 16 * 16 + c / 4),
    BitVec.ofNat 8 (c % 4 * 64 + d)]

/-- The bytes that a text encodes, or none. Only the last group can be padded. -/
def decode : List Byte → Option (List Byte)
  | [] => some []
  | first :: second :: third :: fourth :: rest => do
      let group ← decodeGroup first second third fourth
      if fourth = 61 ∧ rest ≠ [] then none
      return group ++ (← decode rest)
  | _ => none

end Base64

end Decoding

/-- The bytes of a group one behind the other. -/
def packed (group : List Byte) : BitVec 32 :=
  group.foldl (fun (packed : BitVec 32) (byte : Byte) => packed <<< 8 ||| byte.setWidth 32) 0

/-- What a round of the outer loop appends for its group, which has up to three bytes. -/
def encodeGroup (group : List Byte) : List Byte :=
  let i := group.length
  let append := if i = 1 then 2 else if i = 2 then 1 else 0
  let packed := packed group <<< (8 * (3 - i))
  [Base64.letter (packed >>> 18).toNat, Base64.letter ((packed >>> 12) &&& 0x3F).toNat] ++
    (if append ≠ 2 then [Base64.letter ((packed >>> 6) &&& 0x3F).toNat] else []) ++
    (if append = 0 then [Base64.letter (packed &&& 0x3F).toNat] else []) ++
    List.replicate append 61

/-- `base64encode`. -/
def base64encode : List Byte → List Byte
  | [] => []
  | first :: second :: third :: rest => encodeGroup [first, second, third] ++ base64encode rest
  | group => encodeGroup group

namespace Base64

theorem value_letter {number : Nat} (small : number < 64) : value (letter number) = some number := by
  have all : ∀ number : Fin 64, value (letter number) = some number.val := by decide
  exact all ⟨number, small⟩

/-- The padding is no letter. -/
theorem value_padding : value 61 = none := by
  decide

theorem letter_ne {number : Nat} (small : number < 64) : letter number ≠ 61 := by
  intro same
  have found := value_letter small
  rw [same, value_padding] at found
  cases found

section Packing

variable {bits : BitVec 32}

theorem toNat_push (small : bits.toNat < 2 ^ 24) (byte : Byte) :
    (bits <<< 8 ||| byte.setWidth 32).toNat = bits.toNat * 256 + byte.toNat := by
  have inside : byte.toNat < 2 ^ 8 := byte.isLt
  have shifted : (bits <<< 8).toNat = bits.toNat <<< 8 := by
    rw [BitVec.toNat_shiftLeft, Nat.shiftLeft_eq, Nat.mod_eq_of_lt (by omega)]
  have wide : (byte.setWidth 32).toNat = byte.toNat := by
    rw [BitVec.toNat_setWidth, Nat.mod_eq_of_lt (by omega)]
  rw [BitVec.toNat_or, shifted, wide, ← Nat.shiftLeft_add_eq_or_of_lt inside, Nat.shiftLeft_eq]

/-- The six bits that begin somewhere. -/
theorem toNat_sextet (bits : BitVec 32) (offset : Nat) :
    ((bits >>> offset) &&& 0x3F).toNat = bits.toNat / 2 ^ offset % 64 := by
  rw [BitVec.toNat_and, BitVec.toNat_ushiftRight, Nat.shiftRight_eq_div_pow]
  exact Nat.and_two_pow_sub_one_eq_mod _ 6

end Packing

section Groups

variable (first second third : Byte)

theorem toNat_packed_one : (packed [first]).toNat = first.toNat := by
  have one := @toNat_push 0 (by decide) first
  rw [BitVec.ofNat_eq_ofNat, BitVec.toNat_ofNat, Nat.zero_mod, Nat.zero_mul, Nat.zero_add] at one
  exact one

theorem toNat_packed_two : (packed [first, second]).toNat = first.toNat * 256 + second.toNat := by
  have one := toNat_packed_one first
  have two := @toNat_push (packed [first]) (by omega) second
  rwa [one] at two

theorem toNat_packed_three : (packed [first, second, third]).toNat =
    (first.toNat * 256 + second.toNat) * 256 + third.toNat := by
  have two := toNat_packed_two first second
  have three := @toNat_push (packed [first, second]) (by omega) third
  rwa [two] at three

/-- The letters of a group by the number that its bytes are shifted to. -/
theorem encodeGroup_eq {group : List Byte} {number : Nat}
    (shifted : (packed group <<< (8 * (3 - group.length))).toNat = number) :
    encodeGroup group =
      let append := if group.length = 1 then 2 else if group.length = 2 then 1 else 0
      [letter (number / 2 ^ 18), letter (number / 2 ^ 12 % 64)] ++
        (if append ≠ 2 then [letter (number / 2 ^ 6 % 64)] else []) ++
        (if append = 0 then [letter (number % 64)] else []) ++ List.replicate append 61 := by
  have last := toNat_sextet (packed group <<< (8 * (3 - group.length))) 0
  rw [BitVec.ushiftRight_zero, Nat.pow_zero, Nat.div_one] at last
  rw [encodeGroup]
  simp only [toNat_sextet, last, BitVec.toNat_ushiftRight, Nat.shiftRight_eq_div_pow, shifted]

theorem encodeGroup_one : encodeGroup [first] =
    [letter (first.toNat / 4), letter (first.toNat % 4 * 16), 61, 61] := by
  have shifted : (packed [first] <<< 16).toNat = first.toNat * 65536 := by
    rw [BitVec.toNat_shiftLeft, toNat_packed_one, Nat.shiftLeft_eq, Nat.mod_eq_of_lt (by omega)]
  have a : first.toNat * 65536 / 2 ^ 18 = first.toNat / 4 := by omega
  have b : first.toNat * 65536 / 2 ^ 12 % 64 = first.toNat % 4 * 16 := by omega
  rw [encodeGroup_eq shifted, ← a, ← b]
  rfl

theorem encodeGroup_two : encodeGroup [first, second] =
    [letter (first.toNat / 4), letter (first.toNat % 4 * 16 + second.toNat / 16),
      letter (second.toNat % 16 * 4), 61] := by
  have shifted : (packed [first, second] <<< 8).toNat =
      (first.toNat * 256 + second.toNat) * 256 := by
    rw [BitVec.toNat_shiftLeft, toNat_packed_two, Nat.shiftLeft_eq, Nat.mod_eq_of_lt (by omega)]
  have a : (first.toNat * 256 + second.toNat) * 256 / 2 ^ 18 = first.toNat / 4 := by omega
  have b : (first.toNat * 256 + second.toNat) * 256 / 2 ^ 12 % 64 =
      first.toNat % 4 * 16 + second.toNat / 16 := by omega
  have c : (first.toNat * 256 + second.toNat) * 256 / 2 ^ 6 % 64 = second.toNat % 16 * 4 := by
    omega
  rw [encodeGroup_eq shifted, ← a, ← b, ← c]
  rfl

theorem encodeGroup_three : encodeGroup [first, second, third] =
    [letter (first.toNat / 4), letter (first.toNat % 4 * 16 + second.toNat / 16),
      letter (second.toNat % 16 * 4 + third.toNat / 64), letter (third.toNat % 64)] := by
  have shifted : (packed [first, second, third] <<< 0).toNat =
      (first.toNat * 256 + second.toNat) * 256 + third.toNat := by
    rw [BitVec.shiftLeft_zero, toNat_packed_three]
  have a : ((first.toNat * 256 + second.toNat) * 256 + third.toNat) / 2 ^ 18 =
      first.toNat / 4 := by omega
  have b : ((first.toNat * 256 + second.toNat) * 256 + third.toNat) / 2 ^ 12 % 64 =
      first.toNat % 4 * 16 + second.toNat / 16 := by omega
  have c : ((first.toNat * 256 + second.toNat) * 256 + third.toNat) / 2 ^ 6 % 64 =
      second.toNat % 16 * 4 + third.toNat / 64 := by omega
  have d : ((first.toNat * 256 + second.toNat) * 256 + third.toNat) % 64 =
      third.toNat % 64 := by omega
  rw [encodeGroup_eq shifted, ← a, ← b, ← c, ← d]
  rfl

end Groups

section Reading

variable {first second third : Byte}

theorem ofNat_of_eq {byte : Byte} {number : Nat} (same : number = byte.toNat) :
    BitVec.ofNat 8 number = byte := by
  rw [same, BitVec.ofNat_toNat, BitVec.setWidth_eq]

theorem decodeGroup_one : decodeGroup (letter (first.toNat / 4)) (letter (first.toNat % 4 * 16))
    61 61 = some [first] := by
  rw [decodeGroup, value_letter (by omega), value_letter (by omega)]
  exact congrArg (fun byte => some [byte]) (ofNat_of_eq (by omega))

theorem decodeGroup_two : decodeGroup (letter (first.toNat / 4))
    (letter (first.toNat % 4 * 16 + second.toNat / 16)) (letter (second.toNat % 16 * 4)) 61 =
      some [first, second] := by
  rw [decodeGroup, value_letter (by omega), value_letter (by omega), value_letter (by omega)]
  have other := letter_ne (show second.toNat % 16 * 4 < 64 by omega)
  simp only [Option.bind_eq_bind, Option.bind_some, other, false_and, if_false, if_true]
  exact congrArg₂ (fun a b => some [a, b]) (ofNat_of_eq (by omega)) (ofNat_of_eq (by omega))

theorem decodeGroup_three : decodeGroup (letter (first.toNat / 4))
    (letter (first.toNat % 4 * 16 + second.toNat / 16))
    (letter (second.toNat % 16 * 4 + third.toNat / 64)) (letter (third.toNat % 64)) =
      some [first, second, third] := by
  rw [decodeGroup, value_letter (by omega), value_letter (by omega), value_letter (by omega),
    value_letter (by omega)]
  have other := letter_ne (show third.toNat % 64 < 64 by omega)
  simp only [Option.bind_eq_bind, Option.bind_some, other, and_false, if_false]
  have a : BitVec.ofNat 8 (first.toNat / 4 * 4 +
      (first.toNat % 4 * 16 + second.toNat / 16) / 16) = first := ofNat_of_eq (by omega)
  have b : BitVec.ofNat 8 ((first.toNat % 4 * 16 + second.toNat / 16) % 16 * 16 +
      (second.toNat % 16 * 4 + third.toNat / 64) / 4) = second := ofNat_of_eq (by omega)
  have c : BitVec.ofNat 8 ((second.toNat % 16 * 4 + third.toNat / 64) % 4 * 64 +
      third.toNat % 64) = third := ofNat_of_eq (by omega)
  rw [a, b, c]
  rfl

/-- A whole group in front of what can be read. -/
theorem decode_append {rest data : List Byte} (read : decode rest = some data) :
    decode (encodeGroup [first, second, third] ++ rest) =
      some (first :: second :: third :: data) := by
  have other := letter_ne (show third.toNat % 64 < 64 by omega)
  rw [encodeGroup_three, List.cons_append, List.cons_append, List.cons_append, List.cons_append,
    List.nil_append, decode, decodeGroup_three, read]
  simp only [Option.bind_eq_bind, Option.bind_some, other, false_and, if_false]
  rfl

theorem decode_one : decode (encodeGroup [first]) = some [first] := by
  rw [encodeGroup_one, decode, decodeGroup_one]
  rfl

theorem decode_two : decode (encodeGroup [first, second]) = some [first, second] := by
  rw [encodeGroup_two, decode, decodeGroup_two]
  rfl

end Reading

/-- The text is letters of the alphabet, and padding at the end of them. -/
def Padded (text : List Byte) (padding : Nat) : Prop :=
  ∃ numbers : List Nat, (∀ number ∈ numbers, number < 64) ∧
    text = numbers.map letter ++ List.replicate padding 61

section Texts

variable {text : List Byte} {padding : Nat}

theorem Padded.append (padded : Padded text padding) {numbers : List Nat}
    (small : ∀ number ∈ numbers, number < 64) : Padded (numbers.map letter ++ text) padding := by
  obtain ⟨more, others, rfl⟩ := padded
  refine ⟨numbers ++ more, fun number member => ?_, ?_⟩
  · exact (List.mem_append.mp member).elim (small number) (others number)
  · rw [List.map_append, List.append_assoc]

theorem padded_replicate (padding : Nat) : Padded (List.replicate padding 61) padding :=
  ⟨[], fun _ member => absurd member List.not_mem_nil, rfl⟩

end Texts

section Groups

variable (first second third : Byte)

theorem padded_one : Padded (encodeGroup [first]) 2 := by
  rw [encodeGroup_one]
  refine ⟨[first.toNat / 4, first.toNat % 4 * 16], ?_, rfl⟩
  simp only [List.forall_mem_cons, List.not_mem_nil, false_implies, implies_true, and_true]
  omega

theorem padded_two : Padded (encodeGroup [first, second]) 1 := by
  rw [encodeGroup_two]
  refine ⟨[first.toNat / 4, first.toNat % 4 * 16 + second.toNat / 16, second.toNat % 16 * 4], ?_,
    rfl⟩
  simp only [List.forall_mem_cons, List.not_mem_nil, false_implies, implies_true, and_true]
  omega

theorem Padded.three {text : List Byte} {padding : Nat} (padded : Padded text padding) :
    Padded (encodeGroup [first, second, third] ++ text) padding := by
  rw [encodeGroup_three]
  refine @Padded.append _ _ padded [first.toNat / 4, first.toNat % 4 * 16 + second.toNat / 16,
    second.toNat % 16 * 4 + third.toNat / 64, third.toNat % 64] ?_
  simp only [List.forall_mem_cons, List.not_mem_nil, false_implies, implies_true, and_true]
  omega

end Groups

end Base64

open Base64

/-- A group that is not whole is the last one. -/
theorem short_group {group : List Byte} (notNil : group ≠ [])
    (notWhole : ∀ first second third rest, group ≠ first :: second :: third :: rest) :
    ∃ first, group = [first] ∨ ∃ second, group = [first, second] := by
  match group with
  | [] => exact absurd rfl notNil
  | [first] => exact ⟨first, .inl rfl⟩
  | [first, second] => exact ⟨first, .inr ⟨second, rfl⟩⟩
  | first :: second :: third :: rest => exact absurd rfl (notWhole first second third rest)

/-- The last group is padded by what it has less than three bytes. -/
theorem padded_base64encode (data : List Byte) :
    Padded (base64encode data) ((3 - data.length % 3) % 3) := by
  fun_induction base64encode data with
  | case1 => exact padded_replicate 0
  | case2 first second third rest ih =>
      have same : (3 - (first :: second :: third :: rest).length % 3) % 3 =
          (3 - rest.length % 3) % 3 := by
        simp only [List.length_cons]
        omega
      rw [same]
      exact ih.three first second third
  | case3 group notNil notWhole =>
      obtain ⟨first, rfl | ⟨second, rfl⟩⟩ := short_group notNil notWhole
      · exact padded_one first
      · exact padded_two first second

theorem length_base64encode (data : List Byte) :
    (base64encode data).length = 4 * ((data.length + 2) / 3) := by
  fun_induction base64encode data with
  | case1 => rfl
  | case2 first second third rest ih =>
      rw [encodeGroup_three, List.length_append, ih]
      simp only [List.length_cons, List.length_nil]
      omega
  | case3 group notNil notWhole =>
      obtain ⟨first, rfl | ⟨second, rfl⟩⟩ := short_group notNil notWhole
      · simp [encodeGroup_one]
      · simp [encodeGroup_two]

theorem decode_base64encode (data : List Byte) : decode (base64encode data) = some data := by
  fun_induction base64encode data with
  | case1 => rfl
  | case2 first second third rest ih => exact decode_append ih
  | case3 group notNil notWhole =>
      obtain ⟨first, rfl | ⟨second, rfl⟩⟩ := short_group notNil notWhole
      · exact decode_one
      · exact decode_two

/-- The text has four letters for three bytes and for the rest of them, is padded by what is
missing, and is read as the bytes. -/
theorem base64encode_correct (data : List Byte) :
    (base64encode data).length = 4 * ((data.length + 2) / 3) ∧
      Padded (base64encode data) ((3 - data.length % 3) % 3) ∧
      decode (base64encode data) = some data :=
  ⟨length_base64encode data, padded_base64encode data, decode_base64encode data⟩

example : base64encode [77, 97] = [84, 87, 69, 61] := by
  decide

end Xten
