import Xten.Util.Strings

/-!
# URL coding

`UrlEncode` and `UrlDecode` as they build their results. Neither of them copies a string that it
returns as it is: `ss` is made of what has been read when the first letter changes.
-/

namespace Xten.StringUtil

/-- `CHAR_IS_UNRESERVED`, by the ones of `uri_chars`. One of them is at 61, which is `=`. -/
def charIsUnreserved (letter : Byte) : Bool :=
  letter = 45 ∨ letter = 46 ∨ isdigit letter ∨ letter = 61 ∨
    65 ≤ letter.toNat ∧ letter.toNat ≤ 90 ∨ letter = 95 ∨
    97 ≤ letter.toNat ∧ letter.toNat ≤ 122 ∨ letter = 126

/-- `hexdigits`. -/
def hexdigits (value : Byte) : Byte :=
  if value.toNat < 10 then 48 + value else 55 + value

/-- What `UrlEncode` appends for a letter that is encoded. -/
def escaped (spaceAsPlus : Bool) (letter : Byte) : List Byte :=
  if letter = 32 ∧ spaceAsPlus then [43]
  else [37, hexdigits (letter >>> 4), hexdigits (letter &&& 0xf)]

/-- The loop of `UrlEncode`: `read` is what is before `c`, and `ss` is the copy, if there is
one. -/
def urlEncodeLoop (spaceAsPlus : Bool) (read : List Byte) (ss : Option (List Byte)) :
    List Byte → List Byte
  | [] => ss.getD read
  | c :: rest =>
      if charIsUnreserved c then
        urlEncodeLoop spaceAsPlus (read ++ [c]) (ss.map (· ++ [c])) rest
      else
        urlEncodeLoop spaceAsPlus (read ++ [c]) (some (ss.getD read ++ escaped spaceAsPlus c)) rest

/-- `UrlEncode(str, space_as_plus)`. -/
def urlEncode (spaceAsPlus : Bool) (str : List Byte) : List Byte :=
  urlEncodeLoop spaceAsPlus [] none str

/-- The loop of `UrlDecode`. -/
def urlDecodeLoop (spaceAsPlus : Bool) (read : List Byte) (ss : Option (List Byte)) :
    List Byte → List Byte
  | [] => ss.getD read
  | c :: high :: low :: rest =>
      if c = 43 ∧ spaceAsPlus then
        urlDecodeLoop spaceAsPlus (read ++ [c]) (some (ss.getD read ++ [32])) (high :: low :: rest)
      else if c = 37 ∧ isxdigit high ∧ isxdigit low then
        urlDecodeLoop spaceAsPlus (read ++ [c, high, low])
          (some (ss.getD read ++ [xdigitChars high <<< 4 ||| xdigitChars low])) rest
      else
        urlDecodeLoop spaceAsPlus (read ++ [c]) (ss.map (· ++ [c])) (high :: low :: rest)
  | c :: rest =>
      if c = 43 ∧ spaceAsPlus then
        urlDecodeLoop spaceAsPlus (read ++ [c]) (some (ss.getD read ++ [32])) rest
      else
        urlDecodeLoop spaceAsPlus (read ++ [c]) (ss.map (· ++ [c])) rest

/-- `UrlDecode(str, space_as_plus)`, with the copy that it makes. -/
def urlDecodeCopying (spaceAsPlus : Bool) (str : List Byte) : List Byte :=
  urlDecodeLoop spaceAsPlus [] none str

section Loops

variable {spaceAsPlus : Bool} {read str : List Byte} {ss : Option (List Byte)}

/-- A letter that stays is behind what has been read, copied or not. -/
theorem getD_kept (c : Byte) : (ss.map (· ++ [c])).getD (read ++ [c]) = ss.getD read ++ [c] := by
  cases ss with
  | none => rfl
  | some copy => rfl

/-- What `UrlEncode` makes of a letter. -/
def encodedLetter (spaceAsPlus : Bool) (letter : Byte) : List Byte :=
  if charIsUnreserved letter then [letter] else escaped spaceAsPlus letter

theorem urlEncodeLoop_eq (read : List Byte) (ss : Option (List Byte)) (str : List Byte) :
    urlEncodeLoop spaceAsPlus read ss str =
      ss.getD read ++ str.flatMap (encodedLetter spaceAsPlus) := by
  induction str generalizing read ss with
  | nil => rw [urlEncodeLoop, List.flatMap_nil, List.append_nil]
  | cons c rest ih =>
      rw [urlEncodeLoop, List.flatMap_cons, encodedLetter]
      split
      case isTrue => rw [ih, getD_kept, List.append_assoc]
      case isFalse => rw [ih, Option.getD_some, List.append_assoc]

theorem urlEncode_eq (spaceAsPlus : Bool) (str : List Byte) :
    urlEncode spaceAsPlus str = str.flatMap (encodedLetter spaceAsPlus) :=
  urlEncodeLoop_eq [] none str

theorem urlDecodeLoop_eq (read : List Byte) (ss : Option (List Byte)) (str : List Byte) :
    urlDecodeLoop spaceAsPlus read ss str = ss.getD read ++ urlDecode spaceAsPlus str := by
  fun_induction urlDecode spaceAsPlus str generalizing read ss with
  | case1 => rw [urlDecodeLoop, List.append_nil]
  | case2 letter high low rest plus ih =>
      rw [urlDecodeLoop, if_pos plus, ih, Option.getD_some, List.append_assoc]
      rfl
  | case3 letter high low rest noPlus escape ih =>
      rw [urlDecodeLoop, if_neg noPlus, if_pos escape, ih, Option.getD_some, List.append_assoc]
      rfl
  | case4 letter high low rest noPlus noEscape ih =>
      rw [urlDecodeLoop, if_neg noPlus, if_neg noEscape, ih, getD_kept, List.append_assoc]
      rfl
  | case5 letter rest short ih =>
      rw [urlDecodeLoop.eq_3 _ _ _ _ _ short]
      split
      case isTrue plus => rw [ih, Option.getD_some, List.append_assoc]; rfl
      case isFalse noPlus => rw [ih, getD_kept, List.append_assoc]; rfl

/-- The copy is made of what has not changed, so that the result is that of the plain recursion. -/
theorem urlDecodeCopying_eq (spaceAsPlus : Bool) (str : List Byte) :
    urlDecodeCopying spaceAsPlus str = urlDecode spaceAsPlus str :=
  urlDecodeLoop_eq [] none str

end Loops

section Digits

variable {value : Byte}

theorem isxdigit_hexdigits (small : value.toNat < 16) : isxdigit (hexdigits value) = true := by
  have all : ∀ nibble : BitVec 4, isxdigit (hexdigits (nibble.setWidth 8)) = true := by decide
  have same := all (value.setWidth 4)
  rwa [show (value.setWidth 4).setWidth 8 = value from BitVec.eq_of_toNat_eq (by
    rw [BitVec.toNat_setWidth, BitVec.toNat_setWidth]
    omega)] at same

theorem xdigitChars_hexdigits (small : value.toNat < 16) : xdigitChars (hexdigits value) = value := by
  have all : ∀ nibble : BitVec 4,
      xdigitChars (hexdigits (nibble.setWidth 8)) = nibble.setWidth 8 := by decide
  have same := all (value.setWidth 4)
  rwa [show (value.setWidth 4).setWidth 8 = value from BitVec.eq_of_toNat_eq (by
    rw [BitVec.toNat_setWidth, BitVec.toNat_setWidth]
    omega)] at same

theorem high_small (letter : Byte) : (letter >>> 4).toNat < 16 := by
  rw [BitVec.toNat_ushiftRight, Nat.shiftRight_eq_div_pow]
  omega

theorem low_small (letter : Byte) : (letter &&& 0xf).toNat < 16 := by
  rw [BitVec.toNat_and]
  exact Nat.lt_of_le_of_lt Nat.and_le_right (by decide)

theorem high_or_low (letter : Byte) : letter >>> 4 <<< 4 ||| letter &&& 0xf = letter := by
  ext index inside
  interval_cases index <;> simp

end Digits

/-- The letters that need no encoding: `-`, `.`, the digits, the letters of the alphabet, `_` and
`~`. -/
def Unreserved (letter : Byte) : Prop :=
  letter = 45 ∨ letter = 46 ∨ isdigit letter ∨ 65 ≤ letter.toNat ∧ letter.toNat ≤ 90 ∨
    letter = 95 ∨ 97 ≤ letter.toNat ∧ letter.toNat ≤ 122 ∨ letter = 126

/-- A text spells some letters: each of them is itself and unreserved, or two digits behind a
percent sign, or a blank that is a plus sign. -/
inductive Spells (spaceAsPlus : Bool) : List Byte → List Byte → Prop where
  | nil : Spells spaceAsPlus [] []
  | unreserved {letter : Byte} {letters text : List Byte} (plain : Unreserved letter)
      (rest : Spells spaceAsPlus letters text) :
      Spells spaceAsPlus (letter :: letters) (letter :: text)
  | digits {letter high low : Byte} {letters text : List Byte} (first : isxdigit high)
      (second : isxdigit low) (rest : Spells spaceAsPlus letters text) :
      Spells spaceAsPlus (letter :: letters) (37 :: high :: low :: text)
  | plus {letters text : List Byte} (allowed : spaceAsPlus = true)
      (rest : Spells spaceAsPlus letters text) :
      Spells spaceAsPlus (32 :: letters) (43 :: text)

section Letters

variable {spaceAsPlus : Bool} {letter : Byte}

/-- The table has what needs no encoding, and one letter more. -/
theorem charIsUnreserved_iff : charIsUnreserved letter = true ↔ Unreserved letter ∨ letter = 61 := by
  rw [charIsUnreserved, Unreserved, decide_eq_true_iff]
  tauto

/-- Neither sign is in the table. -/
theorem not_sign (plain : charIsUnreserved letter = true) : letter ≠ 43 ∧ letter ≠ 37 := by
  constructor
  · rintro rfl
    revert plain
    decide
  · rintro rfl
    revert plain
    decide

theorem urlDecode_cons (noPlus : letter ≠ 43) (noPercent : letter ≠ 37) (rest : List Byte) :
    urlDecode spaceAsPlus (letter :: rest) = letter :: urlDecode spaceAsPlus rest := by
  match rest with
  | [] | [_] => simpa [urlDecode] using fun plus => absurd plus noPlus
  | high :: low :: rest =>
      rw [urlDecode, if_neg fun plus => noPlus plus.1, if_neg fun escape => noPercent escape.1]

/-- What is put for a letter is read as that letter, whatever is behind it. -/
theorem urlDecode_encodedLetter (spaceAsPlus : Bool) (letter : Byte) (rest : List Byte) :
    urlDecode spaceAsPlus (encodedLetter spaceAsPlus letter ++ rest) =
      letter :: urlDecode spaceAsPlus rest := by
  rw [encodedLetter]
  split
  case isTrue plain =>
    obtain ⟨noPlus, noPercent⟩ := not_sign plain
    exact urlDecode_cons noPlus noPercent rest
  case isFalse =>
    rw [escaped]
    split
    case isTrue blank =>
      obtain ⟨rfl, allowed⟩ := blank
      match rest with
      | [] | [_] => simp [urlDecode, allowed]
      | high :: low :: rest => simp [urlDecode, allowed]
    case isFalse =>
      have digits := And.intro (isxdigit_hexdigits (high_small letter))
        (isxdigit_hexdigits (low_small letter))
      rw [List.cons_append, List.cons_append, List.cons_append, List.nil_append, urlDecode,
        if_neg fun plus => absurd plus.1 (by decide), if_pos ⟨rfl, digits⟩,
        xdigitChars_hexdigits (high_small letter), xdigitChars_hexdigits (low_small letter),
        high_or_low]

theorem Spells.encodedLetter {letters text : List Byte} (rest : Spells spaceAsPlus letters text)
    (other : letter ≠ 61) :
    Spells spaceAsPlus (letter :: letters) (StringUtil.encodedLetter spaceAsPlus letter ++ text) := by
  rw [StringUtil.encodedLetter]
  split
  case isTrue plain =>
    exact .unreserved ((charIsUnreserved_iff.mp plain).resolve_right other) rest
  case isFalse =>
    rw [escaped]
    split
    case isTrue blank =>
      obtain ⟨rfl, allowed⟩ := blank
      exact .plus allowed rest
    case isFalse =>
      exact .digits (isxdigit_hexdigits (high_small letter)) (isxdigit_hexdigits (low_small letter))
        rest

/-- What is spelled has no `=`, whatever it spells. -/
theorem Spells.not_mem {letters text : List Byte} (spells : Spells spaceAsPlus letters text) :
    61 ∉ text := by
  induction spells with
  | nil => exact List.not_mem_nil
  | unreserved plain rest ih =>
      refine List.not_mem_cons_of_ne_of_not_mem ?_ ih
      rintro rfl
      revert plain
      simp [Unreserved, isdigit]
  | digits first second rest ih =>
      refine List.not_mem_cons_of_ne_of_not_mem (by decide)
        (List.not_mem_cons_of_ne_of_not_mem ?_ (List.not_mem_cons_of_ne_of_not_mem ?_ ih))
      · rintro rfl
        revert first
        decide
      · rintro rfl
        revert second
        decide
  | plus allowed rest ih => exact List.not_mem_cons_of_ne_of_not_mem (by decide) ih

end Letters

theorem urlDecode_flatMap (spaceAsPlus : Bool) (str : List Byte) :
    urlDecode spaceAsPlus (str.flatMap (encodedLetter spaceAsPlus)) = str := by
  induction str with
  | nil => rfl
  | cons letter rest ih => rw [List.flatMap_cons, urlDecode_encodedLetter, ih]

theorem spells_flatMap_iff (spaceAsPlus : Bool) (str : List Byte) :
    Spells spaceAsPlus str (str.flatMap (encodedLetter spaceAsPlus)) ↔ 61 ∉ str := by
  constructor
  · intro spells member
    exact spells.not_mem (List.mem_flatMap.mpr ⟨61, member, List.mem_cons_self⟩)
  · intro none
    induction str with
    | nil => exact .nil
    | cons letter rest ih =>
        obtain ⟨other, none⟩ := List.ne_and_not_mem_of_not_mem_cons none
        exact (ih none).encodedLetter (Ne.symm other)

/-- Every string comes back from its encoding. What is reserved has been encoded in it exactly if
there is no `=`. -/
theorem urlCoding_iff (spaceAsPlus : Bool) (str : List Byte) :
    (urlDecodeCopying spaceAsPlus (urlEncode spaceAsPlus str) = str ∧
      Spells spaceAsPlus str (urlEncode spaceAsPlus str)) ↔ 61 ∉ str := by
  rw [urlDecodeCopying_eq, urlEncode_eq, urlDecode_flatMap, spells_flatMap_iff]
  exact and_iff_right rfl

/-- `=` is left as it is. -/
theorem not_urlCoding : urlEncode false [61] = [61] ∧
    ¬ Spells false [61] (urlEncode false [61]) := by
  have same : urlEncode false [61] = [61] := by decide
  refine ⟨same, fun spells => ?_⟩
  rw [same] at spells
  exact spells.not_mem List.mem_cons_self

example : urlEncode true [97, 32, 43, 37, 229] =
    [97, 43, 37, 50, 66, 37, 50, 53, 37, 69, 53] := by
  decide

end Xten.StringUtil
