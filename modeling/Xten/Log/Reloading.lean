import Xten.Config.Casts
import Xten.Log.Formatter

/-!
# Loggers and the configuration

`g_logs_defines`, the variable that holds the definitions of loggers, and the listener that makes
the loggers of the manager like them. What a logger is after any number of changes depends on the
last definition and the last formatter that it has been given.
-/

namespace Xten.Log

open Config (Sorted stringLess)

/-- The `_formatter` that a formatter is made with by default. -/
def Formatter.standard : Formatter :=
  .new (ascii "%d\x7b%Y-%m-%d %H:%M:%S\x7d%T%t%T%N%T%F%T[%p]%T[%c]%T%f:%l%T%m%n")

/-- A sinker. Its formatter is none as long as `_b_has_formatter` is false. -/
structure Logsinker where
  type : SinkType
  logFilename : List Byte
  levelLimit : LogLevel.Level
  formatter : Option Formatter
deriving DecidableEq, Repr

namespace Logsinker

def stdout : Logsinker :=
  ⟨.stdout, [], .debug, none⟩

def file (filename : List Byte) : Logsinker :=
  ⟨.file, filename, .debug, none⟩

def setFormatter (sinker : Logsinker) (formatter : Formatter) : Logsinker :=
  { sinker with formatter := some formatter }

/-- The sinker of a definition. A formatter with an error is left out. -/
def ofDefine (defined : LogSinkerDefine) : Logsinker :=
  let sinker := match defined.type with
    | .file => file defined.file
    | .stdout => stdout
  let sinker := { sinker with levelLimit := defined.levelLimit }
  let formatter := Formatter.new defined.formatter
  if defined.formatter ≠ [] ∧ formatter.bError = false then sinker.setFormatter formatter
  else sinker

end Logsinker

/-- `_sinkers` has the names of the sinkers. -/
structure Logger where
  name : List Byte
  levelLimit : LogLevel.Level
  sinkers : List (List Byte × Logsinker)
  formatter : Formatter
deriving DecidableEq, Repr

namespace Logger

def new (name : List Byte) : Logger :=
  ⟨name, .debug, [], .standard⟩

/-- `SetFormatter` of a C string. -/
def setFormatter (logger : Logger) (fmtStr : List Byte) : Logger :=
  let formatter := Formatter.new (fmtStr.takeWhile (· ≠ 0))
  { logger with
    formatter
    sinkers := logger.sinkers.map fun sink => (sink.1, sink.2.setFormatter formatter) }

def clearSinkers (logger : Logger) : Logger :=
  { logger with sinkers := [] }

/-- The `insert` of `AddSinkers`, which keeps a sinker that has the name already. -/
def addSinkers (logger : Logger) (sinkName : List Byte) (sinker : Logsinker) : Logger :=
  let sinker := if sinker.formatter.isSome then sinker else sinker.setFormatter logger.formatter
  if (logger.sinkers.lookup sinkName).isSome then logger
  else { logger with sinkers := logger.sinkers ++ [(sinkName, sinker)] }

/-- A daemon has no sinkers for the standard output. -/
def skips (daemon : Bool) (defined : LogSinkerDefine) : Bool :=
  daemon && defined.type = .stdout

/-- One sinker of a definition. -/
def addDefined (daemon : Bool) (logger : Logger) (defined : LogSinkerDefine) : Logger :=
  if skips daemon defined then logger
  else logger.addSinkers defined.name (.ofDefine defined)

/-- What the listener does with a logger that has been defined anew. -/
def configure (daemon : Bool) (logger : Logger) (defined : LoggerDefine) : Logger :=
  let logger := { logger with levelLimit := defined.levelLimit }
  let logger :=
    if defined.formatter ≠ [] then logger.setFormatter defined.formatter else logger
  defined.sinkers.foldl (addDefined daemon) logger.clearSinkers

/-- What it does with one that is not defined any more. -/
def remove (logger : Logger) : Logger :=
  { logger with levelLimit := .unknow }.clearSinkers

end Logger

/-- `_loggers_map`. -/
abbrev LoggerManager := List Byte → Option Logger

namespace LoggerManager

/-- `GetAndSetLogger`: the logger that there is, or a new one. -/
def getAndSetLogger (manager : LoggerManager) (name : List Byte) : Logger :=
  (manager name).getD ((Logger.new name).addSinkers (ascii "stdout") .stdout)

def change (manager : LoggerManager) (name : List Byte) (change : Logger → Logger) :
    LoggerManager :=
  Function.update manager name (some (change (manager.getAndSetLogger name)))

end LoggerManager

def nameLess (one other : LoggerDefine) : Bool :=
  stringLess one.name other.name

theorem nameLess_trans : Config.Transitive nameLess := by
  intro one other third first second
  rw [nameLess, stringLess, decide_eq_true_eq] at first second ⊢
  exact first.trans second

/-- `std::set<LoggerDefine>`. -/
abbrev LoggerDefines := Sorted nameLess

namespace LoggerDefines

/-- `find`, which compares names. -/
def find (defines : LoggerDefines) (name : List Byte) : Option LoggerDefine :=
  defines.1.find? fun defined => defined.name = name

end LoggerDefines

namespace Logs

end Logs

/-!
## What a logger has been told
-/

namespace Logger

/-- The sinker of a definition, for a logger that has a formatter. -/
def sinkerOf (formatter : Formatter) (defined : LogSinkerDefine) : Logsinker :=
  let sinker := Logsinker.ofDefine defined
  sinker.setFormatter (sinker.formatter.getD formatter)

/-- The first entry of each name. -/
def firsts {T : Type} : List (List Byte × T) → List (List Byte × T)
  | [] => []
  | entry :: entries => entry :: (firsts entries).filter fun other => other.1 ≠ entry.1

/-- The sinkers that the definitions come to. -/
def sinkersOf (daemon : Bool) (formatter : Formatter) (defined : List LogSinkerDefine) :
    List (List Byte × Logsinker) :=
  firsts ((defined.filter fun sinker => !skips daemon sinker).map fun sinker =>
    (sinker.name, sinkerOf formatter sinker))

/-- The formatter of a logger that had one before, after some definitions: that of the last that
has one. -/
def formatterOf (before : Formatter) (told : List (Option LoggerDefine)) : Formatter :=
  match ((told.filterMap id).filter fun defined => defined.formatter ≠ []).getLast? with
  | some defined => .new (defined.formatter.takeWhile (· ≠ 0))
  | none => before

/-- A logger that was some other before, if there was one, and that the values of the variable
have defined or not. -/
def shown (daemon : Bool) (name : List Byte) (before : Option Logger)
    (told : List (Option LoggerDefine)) : Option Logger :=
  let base := before.getD ((Logger.new name).addSinkers (ascii "stdout") .stdout)
  let formatter := formatterOf base.formatter told
  match told.getLast?.join with
  | some defined => some { base with
      levelLimit := defined.levelLimit
      sinkers := sinkersOf daemon formatter defined.sinkers
      formatter }
  | none =>
      if told.all Option.isNone then before
      else some { base with levelLimit := .unknow, sinkers := [], formatter }

end Logger

section Sinkers

variable {daemon : Bool} {T : Type}

theorem Logger.lookup_isSome_iff {entries : List (List Byte × T)} {name : List Byte} :
    (entries.lookup name).isSome = true ↔ name ∈ entries.map Prod.fst := by
  rw [List.lookup_isSome_iff, List.mem_map]
  simp only [beq_iff_eq]
  exact exists_congr fun entry => and_congr_right fun _ => eq_comm

end Sinkers

namespace Logs

section Loops

variable {items : List LoggerDefine} {name : List Byte} {daemon : Bool}

theorem LoggerDefines.apart (defines : LoggerDefines) :
    defines.1.Pairwise fun one other => one.name ≠ other.name := by
  refine defines.2.imp fun {one other} less same => ?_
  rw [nameLess, stringLess, decide_eq_true_eq, same] at less
  exact lt_irrefl _ less

end Loops

end Logs

namespace Logger

variable {before : Formatter} {told : List (Option LoggerDefine)} {defined : LoggerDefine}

end Logger

namespace Logs

end Logs

end Xten.Log
