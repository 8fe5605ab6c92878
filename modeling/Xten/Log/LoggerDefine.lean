import Xten.Util.Yaml

/-!
# LoggerDefine

The definition of a logger in the configuration, and the two functions that convert it to a text
and back.
-/

namespace Xten

open Yaml (Node Error)

namespace LogLevel

inductive Level where
  | unknow
  | debug
  | info
  | warn
  | error
  | fatal
deriving DecidableEq, Repr

def toString : Level → List Byte
  | .info => ascii "INFO"
  | .debug => ascii "DEBUG"
  | .warn => ascii "WARN"
  | .error => ascii "ERROR"
  | .fatal => ascii "FATAL"
  | .unknow => ascii "UNKNOW"

def toLevel (str : List Byte) : Level :=
  if str = ascii "info" then .info
  else if str = ascii "debug" then .debug
  else if str = ascii "warn" then .warn
  else if str = ascii "error" then .error
  else if str = ascii "fatal" then .fatal
  else if str = ascii "unknow" then .unknow
  else if str = ascii "INFO" then .info
  else if str = ascii "DEBUG" then .debug
  else if str = ascii "WARN" then .warn
  else if str = ascii "ERROR" then .error
  else if str = ascii "FATAL" then .fatal
  else .unknow

theorem toLevel_toString (level : Level) : toLevel (toString level) = level := by
  cases level <;> decide

end LogLevel

/-- `SinkType`. -/
inductive SinkType where
  | stdout
  | file
deriving DecidableEq, Repr

structure LogSinkerDefine where
  name : List Byte
  levelLimit : LogLevel.Level
  formatter : List Byte
  type : SinkType
  file : List Byte
deriving DecidableEq, Repr

structure LoggerDefine where
  name : List Byte
  levelLimit : LogLevel.Level
  sinkers : List LogSinkerDefine
  formatter : List Byte
deriving DecidableEq, Repr

namespace LogSinkerDefine

/-- What is read of a sinker whatever its type is. -/
def common (node : Node) (type : SinkType) (file : List Byte) : Except Error LogSinkerDefine := do
  let formatter ← node.text (ascii "formatter")
  let name ← node.text (ascii "name")
  let level ← node.text (ascii "level")
  pure
    { name := name.getD []
      levelLimit := (level.map LogLevel.toLevel).getD .unknow
      formatter := formatter.getD []
      type := type
      file := file }

/-- A sinker as it is read, or none if it is skipped. -/
def ofNode (node : Node) : Except Error (Option LogSinkerDefine) := do
  match ← node.text (ascii "type") with
  | none => pure none
  | some type =>
      if type = ascii "FileLogAppender" then
        match ← node.text (ascii "file") with
        | none => pure none
        | some file => some <$> common node .file file
      else if type = ascii "StdoutLogAppender" then
        some <$> common node .stdout []
      else
        pure none

/-- A sinker as it is written. -/
def toNode (sinker : LogSinkerDefine) : Node :=
  .map ((match sinker.type with
      | .file => [(ascii "type", .scalar (ascii "FileLogSinker")), (ascii "file", .scalar sinker.file)]
      | .stdout => [(ascii "type", .scalar (ascii "StdoutLogSinker"))]) ++
    (if sinker.levelLimit ≠ .unknow then
      [(ascii "level", .scalar (LogLevel.toString sinker.levelLimit))] else []) ++
    (if sinker.formatter ≠ [] then [(ascii "formatter", .scalar sinker.formatter)] else []) ++
    (if sinker.name ≠ [] then [(ascii "name", .scalar sinker.name)] else []))

end LogSinkerDefine

namespace LoggerDefine

/-- The sinker at an index. -/
def sinkerAt (node : Node) (index : Nat) : Except Error (Option LogSinkerDefine) := do
  match ← node.item index with
  | some item => LogSinkerDefine.ofNode item
  | none => pure none

/-- The sinkers from an index on, of which there are so many. -/
def sinkersFrom (node : Node) (index : Nat) : Nat → Except Error (List LogSinkerDefine)
  | 0 => pure []
  | count + 1 => do
      let sinker ← sinkerAt node index
      let rest ← sinkersFrom node (index + 1) count
      pure (sinker.toList ++ rest)

def sinkersOf : Option Node → Except Error (List LogSinkerDefine)
  | some sinkers => sinkersFrom sinkers 0 sinkers.size
  | none => pure []

def ofNode (node : Node) : Except Error LoggerDefine := do
  match ← node.text (ascii "name") with
  | none => throw (.logicError (ascii "log config name is null"))
  | some name =>
      let level ← node.text (ascii "level")
      let formatter ← node.text (ascii "formatter")
      let sinkers ← sinkersOf (← node.find (ascii "sinkers"))
      pure
        { name := name
          levelLimit := LogLevel.toLevel (level.getD [])
          sinkers := sinkers
          formatter := formatter.getD [] }

def toNode (logger : LoggerDefine) : Node :=
  .map ([(ascii "name", .scalar logger.name)] ++
    (if logger.levelLimit ≠ .unknow then
      [(ascii "level", .scalar (LogLevel.toString logger.levelLimit))] else []) ++
    (if logger.formatter ≠ [] then [(ascii "formatter", .scalar logger.formatter)] else []) ++
    (if logger.sinkers ≠ [] then
      [(ascii "sinkers", .sequence (logger.sinkers.map LogSinkerDefine.toNode))] else []))

/-- `lexicalCast<LoggerDefine, std::string>`. -/
def toYaml (emit : Node → List Byte) (logger : LoggerDefine) : List Byte :=
  emit logger.toNode

/-- `lexicalCast<std::string, LoggerDefine>`. -/
def ofYaml (load : List Byte → Node) (text : List Byte) : Except Error LoggerDefine :=
  ofNode (load text)

end LoggerDefine

section RoundTrip

variable {emit : Node → List Byte} {load : List Byte → Node} {logger : LoggerDefine}

/-- What is written as a sinker is not read as one: its type has another name. -/
theorem LogSinkerDefine.ofNode_toNode (sinker : LogSinkerDefine) :
    ofNode sinker.toNode = .ok none := by
  have written : sinker.toNode.text (ascii "type") =
      .ok (some (match sinker.type with
        | .file => ascii "FileLogSinker"
        | .stdout => ascii "StdoutLogSinker")) := by
    rw [toNode]
    cases sinker.type <;> rfl
  rw [ofNode, written]
  cases sinker.type <;> rfl

theorem LoggerDefine.sinkersFrom_skipped {items : List Node}
    (skipped : ∀ item ∈ items, LogSinkerDefine.ofNode item = .ok none) (index count : Nat) :
    sinkersFrom (.sequence items) index count = .ok [] := by
  induction count generalizing index with
  | zero => rfl
  | succ count ih =>
      have skips : sinkerAt (.sequence items) index = .ok none := by
        cases found : items[index]? with
        | none => simp [sinkerAt, Node.item, found, bind, Except.bind, pure, Except.pure]
        | some item =>
            simp [sinkerAt, Node.item, found, bind, Except.bind,
              skipped item (List.mem_of_getElem? found)]
      rw [sinkersFrom, ih, skips]
      rfl

/-- A logger is read as it was written, without its sinkers. -/
theorem LoggerDefine.ofNode_toNode (logger : LoggerDefine) :
    ofNode logger.toNode = .ok { logger with sinkers := [] } := by
  have name : logger.toNode.text (ascii "name") = .ok (some logger.name) := rfl
  have level : logger.toNode.text (ascii "level") = .ok
      (if logger.levelLimit ≠ .unknow then some (LogLevel.toString logger.levelLimit) else none) := by
    rw [toNode]
    split
    · rfl
    · split <;> split <;> rfl
  have formatter : logger.toNode.text (ascii "formatter") = .ok
      (if logger.formatter ≠ [] then some logger.formatter else none) := by
    rw [toNode]
    split <;> split
    · rfl
    · split <;> rfl
    · rfl
    · split <;> rfl
  have sinkers : logger.toNode.find (ascii "sinkers") = .ok
      (if logger.sinkers ≠ [] then
        some (.sequence (logger.sinkers.map LogSinkerDefine.toNode)) else none) := by
    rw [toNode]
    split <;> split <;> split <;> rfl
  have skipped : sinkersOf (if logger.sinkers ≠ [] then
      some (.sequence (logger.sinkers.map LogSinkerDefine.toNode)) else none) = .ok [] := by
    split
    · apply sinkersFrom_skipped
      intro item member
      obtain ⟨sinker, -, rfl⟩ := List.mem_map.mp member
      exact sinker.ofNode_toNode
    · rfl
  have levelBack : LogLevel.toLevel ((if logger.levelLimit ≠ .unknow then
      some (LogLevel.toString logger.levelLimit) else none).getD []) = logger.levelLimit := by
    split
    case isTrue => exact LogLevel.toLevel_toString logger.levelLimit
    case isFalse unknow =>
      rw [not_not.mp unknow]
      rfl
  have formatterBack : (if logger.formatter ≠ [] then some logger.formatter else none).getD [] =
      logger.formatter := by
    split
    case isTrue => rfl
    case isFalse empty => exact (not_not.mp empty).symm
  rw [ofNode, name]
  simp only [level, formatter, sinkers, bind, Except.bind, skipped, pure, Except.pure, levelBack,
    formatterBack]

/-- A logger is read as it was written if it has no sinkers, and only then. -/
theorem LoggerDefine.ofYaml_toYaml (loads : load (emit logger.toNode) = logger.toNode) :
    ofYaml load (toYaml emit logger) = .ok logger ↔ logger.sinkers = [] := by
  rw [ofYaml, toYaml, loads, ofNode_toNode]
  constructor
  · intro same
    exact (congrArg LoggerDefine.sinkers (Except.ok.inj same)).symm
  · intro none
    rw [← none]

/-- A map of plain scalars, one a line. -/
def emitPlain : Node → List Byte
  | .map ((key, .scalar text) :: entries) =>
      key ++ ascii ": " ++ text ++
        entries.flatMap fun
          | (key, .scalar text) => ascii "\n" ++ key ++ ascii ": " ++ text
          | _ => []
  | _ => []

def loadPlain (text : List Byte) : Node :=
  .map ((text.splitOn 10).map fun line =>
    (line.takeWhile (· ≠ 58), .scalar ((line.dropWhile (· ≠ 58)).drop 2)))

/-- A logger with the outputs of its parents only. -/
def rootLogger : LoggerDefine where
  name := ascii "root"
  levelLimit := .info
  sinkers := []
  formatter := []

theorem LoggerDefine.ofYaml_toYaml_root :
    ofYaml loadPlain (toYaml emitPlain rootLogger) = .ok rootLogger ↔ rootLogger.sinkers = [] :=
  ofYaml_toYaml (by rfl)

/-- A logger that writes to the standard output. -/
def shownLogger : LoggerDefine where
  name := ascii "root"
  levelLimit := .unknow
  sinkers := [⟨[], .unknow, [], .stdout, []⟩]
  formatter := []

/-- The output is lost on the way. -/
theorem LoggerDefine.not_ofYaml_toYaml : ¬ ∀ (emit : Node → List Byte) (load : List Byte → Node)
    (logger : LoggerDefine), load (emit logger.toNode) = logger.toNode →
      ofYaml load (toYaml emit logger) = .ok logger := by
  intro claim
  have same := claim (fun _ => ascii "name: root\nsinkers:\n  - type: StdoutLogSinker")
    (fun _ => shownLogger.toNode) shownLogger rfl
  rw [ofYaml, ofNode_toNode] at same
  exact absurd (congrArg LoggerDefine.sinkers (Except.ok.inj same)) (List.cons_ne_nil _ _).symm

end RoundTrip

end Xten
