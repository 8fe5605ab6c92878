import Xten.Util.Yaml

/-!
# Loading of the configuration

`LoadFromYaml` flattens the maps of a document, and calls `FromString` of the variables that are
registered under the names it finds. The texts of the nodes that are no scalars are those that
yaml-cpp emits.
-/

namespace Xten.Config

open Yaml

/-- `find_first_not_of` finds nothing in the name. -/
def validName (name : List Byte) : Bool :=
  name.all fun letter => letter ∈ ascii "abcdefghikjlmnopqrstuvwxyz._012345678"

/-- `GetDatas()`: the names of the variables and their types. -/
structure Registry (Kind : Type) where
  vars : List (List Byte × Kind)
  nodup : (vars.map Prod.fst).Nodup
  valid : ∀ name ∈ vars.map Prod.fst, validName name = true

namespace Registry

variable {Kind : Type}

def empty : Registry Kind where
  vars := []
  nodup := List.nodup_nil
  valid := by simp

def names (registry : Registry Kind) : List (List Byte) :=
  registry.vars.map Prod.fst

def lookUpBase (registry : Registry Kind) (name : List Byte) : Option Kind :=
  registry.vars.lookup name

theorem lookUpBase_isSome_iff (registry : Registry Kind) (name : List Byte) :
    (registry.lookUpBase name).isSome = true ↔ name ∈ registry.names := by
  rw [lookUpBase, List.lookup_isSome_iff, names, List.mem_map]
  simp only [beq_iff_eq]
  exact exists_congr fun entry => and_congr_right fun _ => eq_comm

/-- `LookUp(name, val, desc)` for a variable of some type, and whether there is one. -/
def lookUp [DecidableEq Kind] (registry : Registry Kind) (name : List Byte) (kind : Kind) :
    Registry Kind × Bool :=
  match found : registry.lookUpBase name with
  | some real => (registry, real = kind)
  | none =>
      if valid : validName name = true then
        ({ vars := (name, kind) :: registry.vars
           nodup := by
             refine List.nodup_cons.mpr ⟨fun mem => ?_, registry.nodup⟩
             rw [← names, ← lookUpBase_isSome_iff, found] at mem
             cases mem
           valid := List.forall_mem_cons.mpr ⟨valid, registry.valid⟩ }, true)
      else (registry, false)

end Registry

/-- The name of what is at a key of a map. -/
def childName (name key : List Byte) : List Byte :=
  if name.isEmpty then key else name ++ ascii "." ++ key

mutual

/-- A name that is not valid hides all that is below it. -/
def listAllMembers (name : List Byte) (node : Node) : List (List Byte × Node) :=
  if validName name then
    (name, node) :: match node with
      | .map entries => listEntries name entries
      | .null | .scalar _ | .sequence _ => []
  else []

/-- The loop over a map. A key that is no scalar is an empty text here. -/
def listEntries (name : List Byte) (entries : List (List Byte × Node)) :
    List (List Byte × Node) :=
  match entries with
  | [] => []
  | (key, value) :: rest => listAllMembers (childName name key) value ++ listEntries name rest

end

/-- What `FromString` is given, where `dump` is what yaml-cpp emits. -/
def nodeText (dump : Node → List Byte) (node : Node) : List Byte :=
  match node with
  | .scalar text => text
  | .null | .sequence _ | .map _ => dump node

/-- The calls of `FromString` for one of the members: the name of the variable and the text. -/
def loadMember {Kind : Type} (dump : Node → List Byte) (registry : Registry Kind)
    (name : List Byte) (node : Node) : List (List Byte × List Byte) :=
  if name.isEmpty then []
  else
    let key := name.map toLower
    if (registry.lookUpBase key).isSome then [(key, nodeText dump node)] else []

def loadFromYaml {Kind : Type} (dump : Node → List Byte) (registry : Registry Kind)
    (root : Node) : List (List Byte × List Byte) :=
  (listAllMembers [] root).flatMap fun member => loadMember dump registry member.1 member.2

section Paths

mutual

/-- The nodes of a document in their order, each with the keys that lead to it. -/
def members (node : Node) : List (List (List Byte) × Node) :=
  ([], node) :: match node with
    | .map entries => entriesMembers entries
    | .null | .scalar _ | .sequence _ => []

def entriesMembers (entries : List (List Byte × Node)) : List (List (List Byte) × Node) :=
  match entries with
  | [] => []
  | (key, value) :: rest =>
      (members value).map (fun (path, node) => (key :: path, node)) ++ entriesMembers rest

end

/-- The keys of a path, joined by dots from the first that is not empty on. -/
def dotted (path : List (List Byte)) : List Byte :=
  (ascii ".").intercalate (path.dropWhile List.isEmpty)

theorem foldl_childName_append (letter : Byte) (name : List Byte) (path : List (List Byte)) :
    path.foldl childName (letter :: name) =
      (ascii ".").intercalate ((letter :: name) :: path) := by
  induction path generalizing letter name with
  | nil => simp [List.intercalate]
  | cons key path ih =>
      rw [List.foldl_cons, childName, if_neg (by simp), List.append_assoc, List.cons_append, ih,
        List.intercalate_cons_cons]
      cases path with
      | nil => simp [List.intercalate]
      | cons next path => simp [List.intercalate_cons_cons]

theorem foldl_childName (path : List (List Byte)) : path.foldl childName [] = dotted path := by
  induction path with
  | nil => rfl
  | cons key path ih =>
      rw [List.foldl_cons, childName, if_pos List.isEmpty_nil, dotted]
      cases key with
      | nil => exact ih
      | cons letter key => exact foldl_childName_append letter key path

theorem validName_childName {name key : List Byte} (valid : validName (childName name key) = true) :
    validName name = true := by
  rw [childName] at valid
  split at valid
  case isTrue empty => rw [List.isEmpty_iff.mp empty]; rfl
  case isFalse =>
    rw [validName, List.all_append, List.all_append, Bool.and_eq_true, Bool.and_eq_true] at valid
    exact valid.1.1

theorem validName_foldl {name : List Byte} {path : List (List Byte)}
    (valid : validName (path.foldl childName name) = true) : validName name = true := by
  induction path generalizing name with
  | nil => exact valid
  | cons key path ih => exact validName_childName (ih valid)

/-- The members below a name, as they would be listed if all names were valid. -/
def below (name : List Byte) (nodes : List (List (List Byte) × Node)) :
    List (List Byte × Node) :=
  nodes.map fun member => (member.1.foldl childName name, member.2)

theorem below_append (name : List Byte) (first second : List (List (List Byte) × Node)) :
    below name (first ++ second) = below name first ++ below name second :=
  List.map_append

theorem filter_root {name : List Byte} (valid : validName name = true) (node : Node)
    (nodes : List (List (List Byte) × Node)) :
    (below name (([], node) :: nodes)).filter (fun member => validName member.1) =
      (name, node) :: (below name nodes).filter fun member => validName member.1 := by
  rw [below, List.map_cons, List.filter_cons]
  exact if_pos valid

theorem below_key (name key : List Byte) (nodes : List (List (List Byte) × Node)) :
    below name (nodes.map fun (path, node) => (key :: path, node)) =
      below (childName name key) nodes := by
  rw [below, List.map_map, below]
  rfl

/-- Nothing below an invalid name has a valid one. -/
theorem filter_below {name : List Byte} (invalid : ¬ validName name = true)
    (nodes : List (List (List Byte) × Node)) :
    (below name nodes).filter (fun member => validName member.1) = [] := by
  rw [List.filter_eq_nil_iff, below, List.forall_mem_map]
  exact fun member _ valid => invalid (validName_foldl valid)

mutual

theorem listAllMembers_eq (name : List Byte) (node : Node) : listAllMembers name node =
    (below name (members node)).filter fun member => validName member.1 := by
  by_cases valid : validName name = true
  · cases node with
    | map entries =>
        rw [listAllMembers, if_pos valid, members, filter_root valid,
          listEntries_eq name entries]
    | null | scalar | sequence =>
        rw [listAllMembers, if_pos valid, members, filter_root valid]
        rfl
  · rw [filter_below valid, listAllMembers.eq_def, if_neg valid]

theorem listEntries_eq (name : List Byte) (entries : List (List Byte × Node)) :
    listEntries name entries =
      (below name (entriesMembers entries)).filter fun member => validName member.1 := by
  match entries with
  | [] => rfl
  | (key, value) :: rest =>
      rw [listEntries, entriesMembers, below_append, below_key, List.filter_append,
        listAllMembers_eq (childName name key) value, listEntries_eq name rest]

end

end Paths

section Loading

variable {Kind : Type} (dump : Node → List Byte) (registry : Registry Kind) (root : Node)

/-- The variables whose names are the dotted paths of nodes but for the case of letters, each with
the text of its node. A node that no key with a letter leads to has no dotted path. -/
def assignments : List (List Byte × List Byte) :=
  (members root).flatMap fun (path, node) =>
    if dotted path = [] then []
    else
      (registry.names.filter fun name => name.map toLower = (dotted path).map toLower).map fun name =>
        (name, nodeText dump node)

theorem toLower_of_valid {name : List Byte} (valid : validName name = true) :
    name.map toLower = name := by
  have letters : ∀ letter ∈ ascii "abcdefghikjlmnopqrstuvwxyz._012345678",
      toLower letter = letter := by
    rw [ascii_ofList]
    decide
  rw [validName, List.all_eq_true] at valid
  exact (List.map_congr_left fun letter mem =>
    letters letter (of_decide_eq_true (valid letter mem))).trans (List.map_id' name)

variable {registry} in
theorem toLower_of_mem {name : List Byte} (mem : name ∈ registry.names) :
    name.map toLower = name :=
  toLower_of_valid (registry.valid name mem)

/-- At most one variable has a name. -/
theorem filter_names (key : List Byte) :
    (registry.names.filter fun name => name.map toLower = key) =
      if key ∈ registry.names then [key] else [] := by
  have plain : ∀ name ∈ registry.names, decide (name.map toLower = key) = (name == key) :=
    fun name mem => by rw [toLower_of_mem mem, Bool.beq_eq_decide_eq]
  rw [List.filter_congr plain, List.filter_beq, Registry.names, List.Nodup.count registry.nodup]
  split
  case isTrue => rfl
  case isFalse => rfl

/-- What is called for a node at a path. -/
def called (path : List (List Byte)) (node : Node) : List (List Byte × List Byte) :=
  if dotted path ≠ [] ∧ dotted path ∈ registry.names then [(dotted path, nodeText dump node)]
  else []

/-- What should be called for it. -/
def assigned (path : List (List Byte)) (node : Node) : List (List Byte × List Byte) :=
  if dotted path ≠ [] ∧ (dotted path).map toLower ∈ registry.names then
    [((dotted path).map toLower, nodeText dump node)]
  else []

theorem loadMember_of_valid {path : List (List Byte)} (valid : validName (dotted path) = true)
    (node : Node) : loadMember dump registry (dotted path) node = called dump registry path node := by
  simp only [loadMember, List.isEmpty_iff, toLower_of_valid valid,
    registry.lookUpBase_isSome_iff, called]
  by_cases empty : dotted path = [] <;> simp [empty]

theorem called_of_invalid {path : List (List Byte)} (invalid : ¬ validName (dotted path) = true)
    (node : Node) : called dump registry path node = [] :=
  if_neg fun known => invalid (registry.valid _ known.2)

theorem loadFromYaml_eq : loadFromYaml dump registry root =
    (members root).flatMap fun member => called dump registry member.1 member.2 := by
  rw [loadFromYaml, listAllMembers_eq, below]
  induction members root with
  | nil => rfl
  | cons member nodes ih =>
      rw [List.map_cons, List.filter_cons, List.flatMap_cons, ← ih]
      simp only [foldl_childName]
      by_cases valid : validName (dotted member.1) = true
      · rw [if_pos valid, List.flatMap_cons, loadMember_of_valid dump registry valid]
      · rw [if_neg valid, called_of_invalid dump registry valid, List.nil_append]

theorem assignments_eq : assignments dump registry root =
    (members root).flatMap fun member => assigned dump registry member.1 member.2 := by
  refine List.flatMap_congr fun (path, node) _ => ?_
  dsimp only
  rw [filter_names, assigned]
  by_cases empty : dotted path = []
  · rw [if_pos empty, if_neg fun known => known.1 empty]
  · rw [if_neg empty]
    by_cases known : (dotted path).map toLower ∈ registry.names
    · rw [if_pos known, if_pos ⟨empty, known⟩]
      rfl
    · rw [if_neg known, if_neg fun both => known both.2]
      rfl

theorem called_sublist (path : List (List Byte)) (node : Node) :
    (called dump registry path node).Sublist (assigned dump registry path node) := by
  rw [called]
  split
  case isTrue known =>
    rw [assigned, toLower_of_mem known.2, if_pos known]
  case isFalse => exact List.nil_sublist _

theorem called_eq_assigned_iff (path : List (List Byte)) (node : Node) :
    called dump registry path node = assigned dump registry path node ↔
      ((dotted path).map toLower ∈ registry.names → (dotted path).map toLower = dotted path) := by
  constructor
  · intro same known
    by_cases empty : dotted path = []
    · rw [empty, List.map_nil]
    · rw [assigned, if_pos ⟨empty, known⟩, called] at same
      split at same
      case isTrue real => exact toLower_of_mem real.2
      case isFalse => cases same
  · intro lower
    by_cases known : (dotted path).map toLower ∈ registry.names
    · rw [called, assigned, lower known]
    · rw [assigned, if_neg fun both => known both.2, called, if_neg]
      exact fun both => known (by rw [toLower_of_mem both.2]; exact both.2)

theorem flatMap_eq_iff {α β : Type} {first second : α → List β} {items : List α}
    (sublist : ∀ item ∈ items, (first item).Sublist (second item)) :
    items.flatMap first = items.flatMap second ↔ ∀ item ∈ items, first item = second item := by
  induction items with
  | nil => simp
  | cons item items ih =>
      rw [List.forall_mem_cons] at sublist ⊢
      rw [List.flatMap_cons, List.flatMap_cons, ← ih sublist.2]
      constructor
      · intro same
        have rest := (List.Sublist.flatMap_right items sublist.2).length_le
        have lengths := congrArg List.length same
        rw [List.length_append, List.length_append] at lengths
        have here := sublist.1.eq_of_length_le (by omega)
        rw [here] at same
        exact ⟨here, List.append_cancel_left same⟩
      · rintro ⟨here, rest⟩
        rw [here, rest]

/-- The variables are reached exactly if no node has a name that is one of theirs but for some
capital letter. -/
theorem loadFromYaml_eq_assignments_iff :
    loadFromYaml dump registry root = assignments dump registry root ↔
      ∀ member ∈ members root, (dotted member.1).map toLower ∈ registry.names →
        (dotted member.1).map toLower = dotted member.1 := by
  rw [loadFromYaml_eq, assignments_eq,
    flatMap_eq_iff fun member _ => called_sublist dump registry member.1 member.2]
  exact forall₂_congr fun member _ => called_eq_assigned_iff dump registry member.1 member.2

end Loading

/-- A variable `system`, and a document that sets `System`. -/
theorem not_loaded :
    let registry : Registry Unit := (Registry.empty.lookUp (ascii "system") ()).1
    let root := Node.map [(ascii "System", .scalar (ascii "x"))]
    registry.names = [ascii "system"] ∧
      assignments (fun _ => []) registry root = [(ascii "system", ascii "x")] ∧
      loadFromYaml (fun _ => []) registry root = [] := by
  decide

end Xten.Config
