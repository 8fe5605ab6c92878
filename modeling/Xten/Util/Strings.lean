import Xten.ByteArray.Typed
import Mathlib.Data.List.Infix
import Mathlib.Data.List.DropRight

/-!
# Strings

The functions of the C library, of Boost and of `util.cpp` that the requests and responses of
HTTP are read with. A `std::string` is a list of bytes.
-/

namespace Xten

open Xten.ByteArray (cString)

/-- The bytes of an ASCII text. -/
def ascii (text : String) : List Byte :=
  text.toList.map fun letter => BitVec.ofNat 8 letter.toNat

/-- A literal is spelled by its letters, which is decided faster than what they are encoded as. -/
theorem ascii_ofList (letters : List Char) :
    ascii (String.ofList letters) = letters.map fun letter => BitVec.ofNat 8 letter.toNat := by
  rw [ascii, String.toList_ofList]

theorem not_mem_ascii {byte : Byte} (letters : List Char)
    (none : byte ∉ letters.map fun letter => BitVec.ofNat 8 letter.toNat) :
    byte ∉ ascii (String.ofList letters) := by
  rwa [ascii_ofList]

def toLower (letter : Byte) : Byte :=
  if 65 ≤ letter.toNat ∧ letter.toNat ≤ 90 then letter + 32 else letter

/-- What `strcasecmp` and its like compare of a string that they are given by `c_str()`. -/
def foldCase (str : List Byte) : List Byte :=
  (cString str).map toLower

/-- `strcasestr(haystack, needle) != nullptr`. -/
def strcasestr (haystack needle : List Byte) : Bool :=
  foldCase needle <:+: foldCase haystack

def isdigit (letter : Byte) : Bool :=
  48 ≤ letter.toNat ∧ letter.toNat ≤ 57

def isxdigit (letter : Byte) : Bool :=
  isdigit letter ∨ 65 ≤ letter.toNat ∧ letter.toNat ≤ 70 ∨ 97 ≤ letter.toNat ∧ letter.toNat ≤ 102

/-- `xdigit_chars`, which is zero for what is no digit. -/
def xdigitChars (letter : Byte) : Byte :=
  if isdigit letter then letter - 48
  else if 65 ≤ letter.toNat ∧ letter.toNat ≤ 70 then letter - 55
  else if 97 ≤ letter.toNat ∧ letter.toNat ≤ 102 then letter - 87
  else 0

/-- The number that some digits stand for, if it is a `size_t`. -/
def digitsValue (digits : List Byte) : Option (BitVec 64) :=
  if digits ≠ [] ∧ digits.all isdigit then
    let value := digits.foldl (fun value digit => value * 10 + (digit.toNat - 48)) 0
    if value < 2 ^ 64 then some (BitVec.ofNat 64 value) else none
  else
    none

/-- `boost::lexical_cast<size_t>(str)`, or none where it throws. A minus sign negates the
unsigned number. -/
def lexicalCast (str : List Byte) : Option (BitVec 64) :=
  match str with
  | [] => none
  | sign :: digits =>
      if sign = 45 then (digitsValue digits).map fun value => -value
      else if sign = 43 then digitsValue digits
      else digitsValue str

/-- `isspace` of the C locale. -/
def isspace (letter : Byte) : Bool :=
  letter = 32 ∨ 9 ≤ letter.toNat ∧ letter.toNat ≤ 13

/-- Whether there is a minus sign, and what comes behind the sign. -/
def signed : List Byte → Bool × List Byte
  | [] => (false, [])
  | sign :: rest =>
      if sign = 45 then (true, rest)
      else if sign = 43 then (false, rest)
      else (false, sign :: rest)

/-- `boost::lexical_cast<int>(str)`, or none where it throws. -/
def lexicalCastInt (str : List Byte) : Option Int :=
  let (minus, digits) := signed str
  if digits ≠ [] ∧ digits.all isdigit then
    let size : Nat := digits.foldl (fun value digit => value * 10 + (digit.toNat - 48)) 0
    let value : Int := if minus then -size else size
    if -2 ^ 31 ≤ value ∧ value < 2 ^ 31 then some value else none
  else
    none

/-- `strtoull(str.c_str(), nullptr, 10)`. A minus sign negates what is not too large. -/
def strtoull (str : List Byte) : BitVec 64 :=
  let (minus, rest) := signed ((cString str).dropWhile isspace)
  let digits := rest.takeWhile isdigit
  let value := digits.foldl (fun value digit => value * 10 + (digit.toNat - 48)) 0
  if 2 ^ 64 ≤ value then BitVec.allOnes 64
  else if minus then -BitVec.ofNat 64 value
  else BitVec.ofNat 64 value

/-- `TypeUtil::Atoi(str)`. -/
def TypeUtil.atoi (str : List Byte) : Int :=
  if str = [] then 0 else (strtoull str).toInt

namespace StringUtil

/-- `UrlDecode(str, space_as_plus)`. -/
def urlDecode (spaceAsPlus : Bool) : List Byte → List Byte
  | [] => []
  | letter :: high :: low :: rest =>
      if letter = 43 ∧ spaceAsPlus then
        32 :: urlDecode spaceAsPlus (high :: low :: rest)
      else if letter = 37 ∧ isxdigit high ∧ isxdigit low then
        (xdigitChars high <<< 4 ||| xdigitChars low) :: urlDecode spaceAsPlus rest
      else
        letter :: urlDecode spaceAsPlus (high :: low :: rest)
  | letter :: rest =>
      (if letter = 43 ∧ spaceAsPlus then 32 else letter) :: urlDecode spaceAsPlus rest

/-- `Trim(str)`, of blanks, tabs and line ends. -/
def trim (str : List Byte) : List Byte :=
  (str.dropWhile (· ∈ ascii " \t\r\n")).rdropWhile (· ∈ ascii " \t\r\n")

end StringUtil

end Xten
