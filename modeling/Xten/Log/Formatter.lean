import Xten.Log.LoggerDefine
import Xten.Std.Numerals

/-!
# The formatter

`Formatter::init` and `Formatter::format`. Where the source goes on at an index of the pattern,
there is what is behind it here. The texts that `strftime` makes of a time are those of the C
library.
-/

namespace Xten.Log

open Std.Numerals

/-- `LogEvent`, as far as the items read it. -/
structure LogEvent where
  loggerName : List Byte
  file : List Byte
  line : BitVec 32
  elapse : BitVec 32
  threadId : BitVec 32
  fiberId : BitVec 32
  time : BitVec 64
  threadName : List Byte
  content : List Byte
deriving DecidableEq, Repr

/-- What an event is formatted with besides it. -/
structure Setting where
  strftime : List Byte → BitVec 64 → List Byte
  level : LogLevel.Level

/-- `FormatterItem`. -/
inductive FormatterItem where
  | message
  | level
  | elapse
  | loggerName
  | threadId
  | newLine
  | dateTime (dateTimePattern : List Byte)
  | fileName
  | line
  | tab
  | fiberId
  | threadName
  | string (text : List Byte)
deriving DecidableEq, Repr

/-- `format` of an item. -/
def FormatterItem.format (setting : Setting) (ev : LogEvent) : FormatterItem → List Byte
  | .message => ev.content
  | .level => LogLevel.toString setting.level
  | .elapse => numeral 10 ev.elapse.toNat
  | .loggerName => ev.loggerName
  | .threadId => numeral 10 ev.threadId.toNat
  | .newLine => [10]
  | .dateTime pattern => setting.strftime pattern ev.time
  | .fileName => ev.file
  | .line => numeral 10 ev.line.toNat
  | .tab => [9]
  | .fiberId => numeral 10 ev.fiberId.toNat
  | .threadName => ev.threadName
  | .string text => text

/-- `item_map`, whose names are one letter each. -/
def itemMap : List (Byte × (List Byte → FormatterItem)) :=
  [(109, fun _ => .message), (112, fun _ => .level), (114, fun _ => .elapse),
    (99, fun _ => .loggerName), (116, fun _ => .threadId), (110, fun _ => .newLine),
    (100, fun fmt => .dateTime fmt), (102, fun _ => .fileName), (108, fun _ => .line),
    (84, fun _ => .tab), (70, fun _ => .fiberId), (78, fun _ => .threadName)]

/-- `item_map.find(str)`. -/
def findItem (str fmt : List Byte) : Option FormatterItem :=
  match str with
  | [letter] => (itemMap.lookup letter).map fun make => make fmt
  | _ => none

/-- `isalpha` of the C locale. -/
def isalpha (letter : Byte) : Bool :=
  65 ≤ letter.toNat ∧ letter.toNat ≤ 90 ∨ 97 ≤ letter.toNat ∧ letter.toNat ≤ 122

/-- The tuples of `vec`: common letters, or an item with its format. -/
inductive Parsed where
  | plain (nstr : List Byte)
  | item (str fmt : List Byte)
deriving DecidableEq, Repr

/-- The inner loop while `fmt_status` is 1: the format and what is behind the brace, or none if
there is no brace. -/
def scanFormat (fmt : List Byte) : List Byte → Option (List Byte × List Byte)
  | [] => none
  | letter :: rest =>
      if letter = 125 then some (fmt, rest) else scanFormat (fmt ++ [letter]) rest

/-- The inner loop while `fmt_status` is 0: the name and the format, and what is behind them. -/
def scanItem (str : List Byte) : List Byte → Option ((List Byte × List Byte) × List Byte)
  | [] => some ((str, []), [])
  | letter :: rest =>
      if isalpha letter = false ∧ letter ≠ 123 ∧ letter ≠ 125 then
        some ((str, []), letter :: rest)
      else if letter = 123 then
        (scanFormat [] rest).map fun scanned => ((str, scanned.1), scanned.2)
      else
        scanItem (str ++ [letter]) rest

theorem length_scanFormat {fmt text found behind : List Byte}
    (scanned : scanFormat fmt text = some (found, behind)) : behind.length ≤ text.length := by
  induction text generalizing fmt with
  | nil => cases scanned
  | cons letter rest ih =>
      rw [scanFormat] at scanned
      split at scanned
      case isTrue =>
        obtain ⟨-, rfl⟩ := Prod.mk.inj (Option.some.inj scanned)
        exact Nat.le_succ _
      case isFalse => exact Nat.le_succ_of_le (ih scanned)

theorem length_scanItem {str text behind : List Byte} {found : List Byte × List Byte}
    (scanned : scanItem str text = some (found, behind)) : behind.length ≤ text.length := by
  induction text generalizing str with
  | nil =>
      obtain ⟨-, rfl⟩ := Prod.mk.inj (Option.some.inj scanned)
      exact Nat.le_refl _
  | cons letter rest ih =>
      rw [scanItem] at scanned
      split at scanned
      case isTrue =>
        obtain ⟨-, rfl⟩ := Prod.mk.inj (Option.some.inj scanned)
        exact Nat.le_refl _
      case isFalse =>
        split at scanned
        case isTrue =>
          obtain ⟨⟨fmt, last⟩, format, same⟩ := Option.map_eq_some_iff.mp scanned
          obtain ⟨-, rfl⟩ := Prod.mk.inj same
          exact Nat.le_succ_of_le (length_scanFormat format)
        case isFalse => exact Nat.le_succ_of_le (ih scanned)

/-- `nstr` as a tuple, if it is not empty. -/
def flush (nstr : List Byte) : List Parsed :=
  if nstr = [] then [] else [.plain nstr]

/-- The outer loop of `init`: `vec` in the end, and whether there is an error. For a percent sign
that another one follows, `i` is increased once only. -/
def initLoop (vec : List Parsed) (nstr : List Byte) (error : Bool) (text : List Byte) :
    List Parsed × Bool :=
  match text with
  | [] => (vec ++ flush nstr, error)
  | letter :: rest =>
      if letter ≠ 37 then
        initLoop vec (nstr ++ [letter]) error rest
      else if rest.head? = some 37 then
        initLoop vec (nstr ++ [37]) error rest
      else
        match scanned : scanItem [] rest with
        | some ((str, fmt), behind) =>
            have := length_scanItem scanned
            initLoop (vec ++ flush nstr ++ [.item str fmt]) [] error behind
        | none => initLoop (vec ++ [.plain (ascii "<<pattern_error>>")]) nstr true rest
termination_by text.length

/-- The item of a tuple, and whether its name is known. -/
def Parsed.build : Parsed → FormatterItem × Bool
  | .plain nstr => (.string nstr, true)
  | .item str fmt =>
      match findItem str fmt with
      | some found => (found, true)
      | none => (.string (ascii "<<error_format %" ++ str ++ ascii " >>"), false)

structure Formatter where
  formatterStr : List Byte
  items : List FormatterItem
  bError : Bool
deriving DecidableEq, Repr

namespace Formatter

/-- `Formatter(fmt_str)`, by `init`. -/
def new (fmtStr : List Byte) : Formatter :=
  let (vec, error) := initLoop [] [] false fmtStr
  ⟨fmtStr, vec.map fun parsed => parsed.build.1, error || !vec.all fun parsed => parsed.build.2⟩

/-- `format`. -/
def format (formatter : Formatter) (setting : Setting) (ev : LogEvent) : List Byte :=
  formatter.items.flatMap (FormatterItem.format setting ev)

end Formatter

end Xten.Log
