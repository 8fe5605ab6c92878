import Xten.Util.Strings

/-!
# YAML

The nodes of yaml-cpp, as the configuration is read from them and written to them. The texts that
they are emitted as and loaded from are those of yaml-cpp.
-/

namespace Xten.Yaml

inductive Node where
  | null
  | scalar (text : List Byte)
  | sequence (items : List Node)
  | map (entries : List (List Byte × Node))

/-- What is thrown: by `operator[]`, by `as`, or as a `std::logic_error`. -/
inductive Error where
  | badSubscript
  | badConversion
  | logicError (what : List Byte)
deriving DecidableEq, Repr

namespace Node

/-- `node[key]`, or none if that is not defined. -/
def find (node : Node) (key : List Byte) : Except Error (Option Node) :=
  match node with
  | .map entries => .ok (entries.lookup key)
  | .scalar _ => .error .badSubscript
  | .null | .sequence _ => .ok none

def size : Node → Nat
  | .null | .scalar _ => 0
  | .sequence items => items.length
  | .map entries => entries.length

/-- `node[index]`, or none if that is not defined. -/
def item (node : Node) (index : Nat) : Except Error (Option Node) :=
  match node with
  | .sequence items => .ok items[index]?
  | .map entries => .ok (entries.lookup (ascii (toString index)))
  | .scalar _ => .error .badSubscript
  | .null => .ok none

/-- `node.as<std::string>()`. -/
def asString : Node → Except Error (List Byte)
  | .null => .ok (ascii "null")
  | .scalar text => .ok text
  | .sequence _ | .map _ => .error .badConversion

/-- What a key has as a string, if it is defined. -/
def text (node : Node) (key : List Byte) : Except Error (Option (List Byte)) := do
  match ← node.find key with
  | some value => some <$> value.asString
  | none => pure none

end Node

end Xten.Yaml
