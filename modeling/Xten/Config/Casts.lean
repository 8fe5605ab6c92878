import Xten.Config.Flattening
import Xten.Std.OrderedSet

/-!
# Casts of the configuration

`lexicalCast` between a text and the standard containers, nested in any way, and the two functions
of a `ConfigVar` that use it. The casts of scalars are boost's, and the texts of nodes are those of
yaml-cpp. None stands for an exception.
-/

namespace Xten.Config

open Std.OrderedSet
open Yaml (Node)

/-!
## Containers
-/

/-- A container that keeps its items in order. -/
abbrev Sorted {T : Type} (less : T → T → Bool) :=
  { items : List T // Ordered less items }

/-- `std::unordered_map<std::string, T>`, whatever order its entries are in. -/
abbrev UnorderedMap (T : Type) :=
  { entries : List (List Byte × T) // (entries.map Prod.fst).Nodup }

def Transitive {T : Type} (less : T → T → Bool) : Prop :=
  ∀ one other third, less one other = true → less other third = true → less one third = true

section Containers

variable {T : Type} {less : T → T → Bool} {items : List T} {item : T}

/-- What is found not to be in a container is less than what is behind its place. -/
theorem less_of_find (trans : Transitive less) (ordered : Ordered less items)
    (absent : find less items item = none) :
    ∀ other ∈ items.dropWhile (less · item), less item other = true := by
  have split : items.takeWhile (less · item) ++ items.dropWhile (less · item) = items :=
    List.takeWhile_append_dropWhile
  have next : items[lowerBound less items item]? = (items.dropWhile (less · item)).head? := by
    nth_rewrite 1 [← split]
    rw [lowerBound, List.getElem?_append_right le_rfl, Nat.sub_self, List.head?_eq_getElem?]
  rw [find, next] at absent
  rw [← split] at ordered
  have last := (List.pairwise_append.mp ordered).2.1
  cases rest : items.dropWhile (less · item) with
  | nil => simp
  | cons first rest =>
      rw [rest] at absent last
      have here : less item first = true := by
        by_contra notLess
        simp [notLess] at absent
      intro other isBehind
      obtain rfl | member := List.mem_cons.mp isBehind
      · exact here
      · exact trans _ _ _ here ((List.pairwise_cons.mp last).1 other member)

theorem ordered_insert (trans : Transitive less) (ordered : Ordered less items) (item : T) :
    Ordered less (insert less items item).1 := by
  have split : items.takeWhile (less · item) ++ items.dropWhile (less · item) = items :=
    List.takeWhile_append_dropWhile
  rw [Std.OrderedSet.insert]
  cases absent : find less items item with
  | some place => exact ordered
  | none =>
      have behind := less_of_find trans ordered absent
      have place : items.insertIdx (lowerBound less items item) item =
          items.takeWhile (less · item) ++ item :: items.dropWhile (less · item) := by
        nth_rewrite 1 [← split]
        exact insertIdx_split
      change Ordered less (items.insertIdx _ item)
      rw [place]
      rw [← split] at ordered
      obtain ⟨first, last, across⟩ := List.pairwise_append.mp ordered
      refine List.pairwise_append.mpr ⟨first, List.pairwise_cons.mpr ⟨behind, last⟩, ?_⟩
      intro one before other isBehind
      obtain rfl | member := List.mem_cons.mp isBehind
      · exact List.mem_takeWhile_imp (p := (less · other)) before
      · exact across one before other member

/-- What is more than all others is put behind them. -/
theorem insert_last (most : ∀ other ∈ items, less other item = true) :
    (insert less items item).1 = items ++ [item] := by
  have place : lowerBound less items item = items.length := by
    have none : ∀ other ∈ ([] : List T).head?, less other item = false := by simp
    simpa using lowerBound_eq most none
  have absent : find less items item = none := by
    rw [find, place]
    simp
  rw [Std.OrderedSet.insert, absent, place]
  simp

namespace Sorted

/-- `insert`, which keeps an item that is there. -/
def insert (trans : Transitive less) (values : Sorted less) (item : T) : Sorted less :=
  ⟨(Std.OrderedSet.insert less values.1 item).1, ordered_insert trans values.2 item⟩

def empty : Sorted less := ⟨[], List.Pairwise.nil⟩

/-- Some items are inserted one after the other. -/
def ofList (trans : Transitive less) (items : List T) : Sorted less :=
  items.foldl (insert trans) empty

theorem foldl_insert (trans : Transitive less) {done : Sorted less} {all : Sorted less}
    (split : all.1 = done.1 ++ items) : items.foldl (insert trans) done = all := by
  induction items generalizing done with
  | nil => exact (Subtype.ext (split.trans (List.append_nil _))).symm
  | cons item items ih =>
      have most : ∀ other ∈ done.1, less other item = true := by
        have ordered := split ▸ all.2
        exact fun other member =>
          (List.pairwise_append.mp ordered).2.2 other member item List.mem_cons_self
      refine ih ?_
      change all.1 = (Std.OrderedSet.insert less done.1 item).1 ++ items
      rw [insert_last most, split, List.append_assoc]
      rfl

/-- The items of a container, inserted in their order. -/
theorem ofList_val (trans : Transitive less) (values : Sorted less) :
    ofList trans values.1 = values :=
  foldl_insert trans rfl

theorem mem_insert (trans : Transitive less) {values : Sorted less} {other : T}
    (member : other ∈ (values.insert trans item).1) : other = item ∨ other ∈ values.1 := by
  change other ∈ (Std.OrderedSet.insert less values.1 item).1 at member
  rw [Std.OrderedSet.insert] at member
  split at member
  · exact .inr member
  · exact List.eq_or_mem_of_mem_insertIdx member

/-- Nothing but what is inserted gets into a container. -/
theorem mem_ofList (trans : Transitive less) (member : item ∈ (ofList trans items).1) :
    item ∈ items := by
  have inserted (done : Sorted less) : item ∈ (items.foldl (insert trans) done).1 →
      item ∈ items ∨ item ∈ done.1 := by
    clear member
    induction items generalizing done with
    | nil => exact .inr
    | cons first items ih =>
        intro member
        obtain early | late := ih _ member
        · exact .inl (List.mem_cons_of_mem _ early)
        · obtain rfl | before := mem_insert trans late
          · exact .inl List.mem_cons_self
          · exact .inr before
  exact (inserted empty member).resolve_right List.not_mem_nil

end Sorted

namespace UnorderedMap

variable {entries : List (List Byte × T)}

/-- Named once, for the tests of membership below. -/
theorem lawful_keys : LawfulBEq (List Byte) := inferInstance

attribute [local instance] lawful_keys

theorem nodup_empty : (([] : List (List Byte × T)).map Prod.fst).Nodup :=
  List.nodup_nil

/-- `insert`, which keeps an entry with the key. -/
def insert (map : UnorderedMap T) (entry : List Byte × T) : UnorderedMap T :=
  if absent : entry.1 ∈ map.1.map Prod.fst then map
  else ⟨map.1 ++ [entry], by
    rw [List.map_append]
    exact List.nodup_append.mpr ⟨map.2, List.nodup_singleton _, by
      rintro key isKey other isOther rfl
      exact absent (List.mem_singleton.mp isOther ▸ isKey)⟩⟩

def empty : UnorderedMap T := ⟨[], nodup_empty⟩

def ofList (entries : List (List Byte × T)) : UnorderedMap T :=
  entries.foldl insert empty

theorem foldl_insert {done all : UnorderedMap T} (split : all.1 = done.1 ++ entries) :
    entries.foldl insert done = all := by
  induction entries generalizing done with
  | nil => exact (Subtype.ext (split.trans (List.append_nil _))).symm
  | cons entry entries ih =>
      have absent : entry.1 ∉ done.1.map Prod.fst := by
        intro member
        have nodup := all.2
        rw [split, List.map_append, List.map_cons] at nodup
        exact (List.nodup_append.mp nodup).2.2 _ member _ List.mem_cons_self rfl
      refine ih ?_
      rw [insert, dif_neg absent, split, List.append_assoc]
      rfl

/-- The entries of a map, inserted in their order. -/
theorem ofList_val (map : UnorderedMap T) : ofList map.1 = map :=
  foldl_insert rfl

theorem mem_insert {map : UnorderedMap T} {entry other : List Byte × T}
    (member : other ∈ (map.insert entry).1) : other = entry ∨ other ∈ map.1 := by
  rw [insert] at member
  split at member
  · exact .inr member
  · exact (List.mem_append.mp member).symm.imp_left List.mem_singleton.mp

theorem mem_ofList {entry : List Byte × T} (member : entry ∈ (ofList entries).1) :
    entry ∈ entries := by
  have inserted (done : UnorderedMap T) : entry ∈ (entries.foldl insert done).1 →
      entry ∈ entries ∨ entry ∈ done.1 := by
    clear member
    induction entries generalizing done with
    | nil => exact .inr
    | cons first entries ih =>
        intro member
        obtain early | late := ih _ member
        · exact .inl (List.mem_cons_of_mem _ early)
        · obtain rfl | before := mem_insert late
          · exact .inl List.mem_cons_self
          · exact .inr before
  exact (inserted empty member).resolve_right List.not_mem_nil

end UnorderedMap

end Containers

/-!
## Casts
-/

/-- `YAML::Load`, and what `operator<<` puts into a stream. -/
structure YamlCpp where
  load : List Byte → Option Node
  dump : Node → List Byte

/-- `lexicalCast<T, std::string>` and `lexicalCast<std::string, T>`. -/
structure LexicalCast (T : Type) where
  toText : T → Option (List Byte)
  ofText : List Byte → Option T

/-- `std::less<std::string>`. -/
def stringLess (one other : List Byte) : Bool :=
  decide (one.map BitVec.toNat < other.map BitVec.toNat)

def entryLess {T : Type} (one other : List Byte × T) : Bool :=
  stringLess one.1 other.1

theorem entryLess_trans {T : Type} : Transitive (entryLess (T := T)) := by
  intro one other third first second
  rw [entryLess, stringLess, decide_eq_true_eq] at first second ⊢
  exact first.trans second

/-- `std::map<std::string, T>`. -/
abbrev StdMap (T : Type) :=
  Sorted (entryLess (T := T))

namespace LexicalCast

variable {T : Type} (yaml : YamlCpp) (cast : LexicalCast T)

/-- `YAML::Load(lexicalCast<T, std::string>()(ele))`. -/
def nodeOf (value : T) : Option Node :=
  (cast.toText value).bind yaml.load

/-- What the stream holds after `ss << node[i]`. -/
def itemText (node : Node) (index : Nat) : List Byte :=
  match node.item index with
  | .ok (some item) => yaml.dump item
  | .ok none | .error _ => []

/-- The loop over the items of a node. -/
def ofItems (text : List Byte) : Option (List T) := do
  let node ← yaml.load text
  ((List.range node.size).map (itemText yaml node)).mapM cast.ofText

/-- An empty vector is written as a node that has no type yet. -/
def vector : LexicalCast (List T) where
  toText values := (values.mapM (cast.nodeOf yaml)).map fun nodes =>
    yaml.dump (if nodes.isEmpty then .null else .sequence nodes)
  ofText := cast.ofItems yaml

def list : LexicalCast (List T) where
  toText values := (values.mapM (cast.nodeOf yaml)).map fun nodes => yaml.dump (.sequence nodes)
  ofText := cast.ofItems yaml

def set {less : T → T → Bool} (trans : Transitive less) : LexicalCast (Sorted less) where
  toText values := (values.1.mapM (cast.nodeOf yaml)).map fun nodes =>
    yaml.dump (.sequence nodes)
  ofText text := (cast.ofItems yaml text).map (Sorted.ofList trans)

/-- `node[i.first] = YAML::Load(...)` for some entries. -/
def entryNodes (entries : List (List Byte × T)) : Option (List (List Byte × Node)) :=
  entries.mapM fun entry => (cast.nodeOf yaml entry.2).map (entry.1, ·)

/-- The loop over the entries of a node. What a sequence is iterated over has no key. -/
def ofEntries (text : List Byte) : Option (List (List Byte × T)) := do
  match ← yaml.load text with
  | .null | .scalar _ => some []
  | .sequence items => if items.isEmpty then some [] else none
  | .map entries => entries.mapM fun entry => (cast.ofText (yaml.dump entry.2)).map (entry.1, ·)

def map : LexicalCast (StdMap T) where
  toText values := (cast.entryNodes yaml values.1).map fun nodes => yaml.dump (.map nodes)
  ofText text := (cast.ofEntries yaml text).map (Sorted.ofList entryLess_trans)

def unorderedMap : LexicalCast (UnorderedMap T) where
  toText values := (cast.entryNodes yaml values.1).map fun nodes => yaml.dump (.map nodes)
  ofText text := (cast.ofEntries yaml text).map UnorderedMap.ofList

/-- `ConfigVar::ToString`. -/
def toString (value : T) : List Byte :=
  (cast.toText value).getD []

/-- What `ConfigVar::FromString` gives to `SetValue`, if it returns true. -/
def fromString (text : List Byte) : Option T :=
  cast.ofText text

end LexicalCast

/-- A node is loaded as it was emitted. -/
def YamlCpp.Keeps (yaml : YamlCpp) (node : Node) : Prop :=
  yaml.load (yaml.dump node) = some node

namespace LexicalCast

section Nodes

variable {T : Type} (yaml : YamlCpp) (cast : LexicalCast T)

/-- A value is written as an item of a container, and read from there. -/
def through (value : T) : Option T :=
  (cast.nodeOf yaml value).bind fun node => cast.ofText (yaml.dump node)

/-- The node that items are written as is kept. -/
def KeepsItems (values : List T) : Prop :=
  ∀ nodes, values.mapM (cast.nodeOf yaml) = some nodes → yaml.Keeps (.sequence nodes)

def KeepsEntries (entries : List (List Byte × T)) : Prop :=
  ∀ nodes, cast.entryNodes yaml entries = some nodes → yaml.Keeps (.map nodes)

end Nodes

/-- A cast that may be nested in others, and whether it is of a container: for which values all
nodes that they are written as are kept, and which contain no scalars but those that come back
from being an item. -/
inductive Nested (yaml : YamlCpp) :
    Bool → {T : Type} → LexicalCast T → (T → Prop) → (T → Prop) → Prop
  | scalar {T : Type} (cast : LexicalCast T) :
      Nested yaml false cast (fun _ => True) fun value => cast.through yaml value = some value
  | vector {T : Type} {cast : LexicalCast T} {container : Bool} {kept plain : T → Prop}
      (nested : Nested yaml container cast kept plain) :
      Nested yaml true (cast.vector yaml)
        (fun values => (∀ value ∈ values, kept value) ∧ yaml.Keeps .null ∧
          cast.KeepsItems yaml values)
        fun values => ∀ value ∈ values, plain value
  | list {T : Type} {cast : LexicalCast T} {container : Bool} {kept plain : T → Prop}
      (nested : Nested yaml container cast kept plain) :
      Nested yaml true (cast.list yaml)
        (fun values => (∀ value ∈ values, kept value) ∧ cast.KeepsItems yaml values)
        fun values => ∀ value ∈ values, plain value
  | set {T : Type} {cast : LexicalCast T} {container : Bool} {kept plain : T → Prop}
      {less : T → T → Bool} (trans : Transitive less)
      (settles : ∀ one other, cast.through yaml one = some other →
        cast.through yaml other = some other)
      (nested : Nested yaml container cast kept plain) :
      Nested yaml true (cast.set yaml trans)
        (fun values => (∀ value ∈ values.1, kept value) ∧ cast.KeepsItems yaml values.1)
        fun values => ∀ value ∈ values.1, plain value
  | map {T : Type} {cast : LexicalCast T} {container : Bool} {kept plain : T → Prop}
      (nested : Nested yaml container cast kept plain) :
      Nested yaml true (cast.map yaml)
        (fun values => (∀ entry ∈ values.1, kept entry.2) ∧ cast.KeepsEntries yaml values.1)
        fun values => ∀ entry ∈ values.1, plain entry.2
  | unorderedMap {T : Type} {cast : LexicalCast T} {container : Bool} {kept plain : T → Prop}
      (nested : Nested yaml container cast kept plain) :
      Nested yaml true (cast.unorderedMap yaml)
        (fun values => (∀ entry ∈ values.1, kept entry.2) ∧ cast.KeepsEntries yaml values.1)
        fun values => ∀ entry ∈ values.1, plain entry.2

end LexicalCast

section Loops

variable {S T U : Type} {first : S → Option T} {second : T → Option U} {values : List S}
  {results : List T}

theorem mapM_bind (first : S → Option T) (second : T → Option U) (values : List S) :
    (values.mapM fun value => (first value).bind second) =
      (values.mapM first).bind fun results => results.mapM second := by
  induction values with
  | nil => rfl
  | cons value values ih =>
      rw [List.mapM_cons, List.mapM_cons, ih]
      cases first value with
      | none => rfl
      | some result =>
          cases values.mapM first with
          | none => cases here : second result <;> simp [here]
          | some results =>
              change _ = (result :: results).mapM second
              rw [List.mapM_cons]
              rfl

theorem mem_of_mapM (taken : values.mapM first = some results) :
    ∀ result ∈ results, ∃ value ∈ values, first value = some result := by
  induction values generalizing results with
  | nil =>
      cases taken
      simp
  | cons value values ih =>
      rw [List.mapM_cons] at taken
      obtain ⟨result, here, rest⟩ := Option.bind_eq_some_iff.mp taken
      obtain ⟨others, later, isAll⟩ := Option.bind_eq_some_iff.mp rest
      cases isAll
      intro other member
      obtain rfl | member := List.mem_cons.mp member
      · exact ⟨value, List.mem_cons_self, here⟩
      · obtain ⟨source, isSource, same⟩ := ih later other member
        exact ⟨source, List.mem_cons_of_mem _ isSource, same⟩

/-- Every item comes back if the list does. -/
theorem mapM_eq_self {first : S → Option S} :
    values.mapM first = some values ↔ ∀ value ∈ values, first value = some value := by
  induction values with
  | nil => simp
  | cons value values ih =>
      rw [List.mapM_cons, List.forall_mem_cons, ← ih]
      constructor
      · intro taken
        obtain ⟨result, here, rest⟩ := Option.bind_eq_some_iff.mp taken
        obtain ⟨others, later, isAll⟩ := Option.bind_eq_some_iff.mp rest
        cases isAll
        exact ⟨here, later⟩
      · rintro ⟨here, later⟩
        rw [here, later]
        rfl

/-- What keeps the key of an entry keeps those of a list. -/
theorem keys_mapM {K : Type} {step : K × S → Option (K × T)}
    (keeps : ∀ entry result, step entry = some result → result.1 = entry.1)
    {entries : List (K × S)} {results : List (K × T)} (taken : entries.mapM step = some results) :
    results.map Prod.fst = entries.map Prod.fst := by
  induction entries generalizing results with
  | nil =>
      cases taken
      rfl
  | cons entry entries ih =>
      rw [List.mapM_cons] at taken
      obtain ⟨result, here, rest⟩ := Option.bind_eq_some_iff.mp taken
      obtain ⟨others, later, isAll⟩ := Option.bind_eq_some_iff.mp rest
      cases isAll
      rw [List.map_cons, List.map_cons, ih later, keeps entry result here]

end Loops

namespace LexicalCast

variable {T : Type} {yaml : YamlCpp} {cast : LexicalCast T}

theorem ofItems_dump {nodes : List Node} (kept : yaml.Keeps (.sequence nodes)) :
    cast.ofItems yaml (yaml.dump (.sequence nodes)) =
      nodes.mapM fun node => cast.ofText (yaml.dump node) := by
  have texts : (List.range nodes.length).map (itemText yaml (.sequence nodes)) =
      nodes.map yaml.dump := by
    refine List.ext_getElem (by simp) fun index _ inside => ?_
    rw [List.length_map] at inside
    simp [itemText, Node.item, inside]
  rw [ofItems, kept]
  change ((List.range nodes.length).map (itemText yaml (.sequence nodes))).mapM cast.ofText = _
  rw [texts, List.mapM_map]
  rfl

/-- What a container is written as is the text of a node that is kept. -/
def Emits (yaml : YamlCpp) (cast : LexicalCast T) (value : T) : Prop :=
  ∀ text, cast.toText value = some text → ∃ node, yaml.Keeps node ∧ text = yaml.dump node

theorem through_of_emits {value : T} (emits : cast.Emits yaml value) :
    cast.through yaml value = (cast.toText value).bind cast.ofText := by
  rw [through, nodeOf]
  cases written : cast.toText value with
  | none => rfl
  | some text =>
      obtain ⟨node, kept, rfl⟩ := emits text written
      rw [YamlCpp.Keeps] at kept
      simp [kept]

/-- A container that cannot be written is not read as itself from the empty text. -/
theorem fromString_toString_iff_through {value : T} (emits : cast.Emits yaml value)
    (fails : cast.toText value = none → cast.ofText [] ≠ some value) :
    cast.fromString (cast.toString value) = some value ↔
      cast.through yaml value = some value := by
  rw [through_of_emits emits, fromString, toString]
  cases written : cast.toText value with
  | none => simpa using fails written
  | some text => simp

section Items

variable {values : List T} {less : T → T → Bool}

theorem vector_emits (null : yaml.Keeps .null) (kept : cast.KeepsItems yaml values) :
    (cast.vector yaml).Emits yaml values := by
  intro text written
  obtain ⟨nodes, isNodes, rfl⟩ := Option.map_eq_some_iff.mp written
  refine ⟨_, ?_, rfl⟩
  split
  · exact null
  · exact kept nodes isNodes

theorem list_emits (kept : cast.KeepsItems yaml values) : (cast.list yaml).Emits yaml values := by
  intro text written
  obtain ⟨nodes, isNodes, rfl⟩ := Option.map_eq_some_iff.mp written
  exact ⟨_, kept nodes isNodes, rfl⟩

theorem set_emits (trans : Transitive less) {values : Sorted less}
    (kept : cast.KeepsItems yaml values.1) : (cast.set yaml trans).Emits yaml values := by
  intro text written
  obtain ⟨nodes, isNodes, rfl⟩ := Option.map_eq_some_iff.mp written
  exact ⟨_, kept nodes isNodes, rfl⟩

/-- The items are read of the list of nodes that they have been written to. -/
theorem mapM_through (kept : cast.KeepsItems yaml values) :
    ((values.mapM (cast.nodeOf yaml)).map fun nodes => yaml.dump (.sequence nodes)).bind
        (cast.ofItems yaml) = values.mapM (cast.through yaml) := by
  change _ = values.mapM fun value => (cast.nodeOf yaml value).bind _
  rw [mapM_bind]
  cases written : values.mapM (cast.nodeOf yaml) with
  | none => rfl
  | some nodes => exact ofItems_dump (kept nodes written)

theorem list_through (kept : cast.KeepsItems yaml values) :
    (cast.list yaml).through yaml values = values.mapM (cast.through yaml) := by
  rw [through_of_emits (list_emits kept)]
  exact mapM_through kept

theorem vector_through (null : yaml.Keeps .null) (kept : cast.KeepsItems yaml values) :
    (cast.vector yaml).through yaml values = values.mapM (cast.through yaml) := by
  rw [through_of_emits (vector_emits null kept), ← mapM_through kept]
  simp only [vector]
  cases written : values.mapM (cast.nodeOf yaml) with
  | none => rfl
  | some nodes =>
      cases nodes with
      | nil =>
          change cast.ofItems yaml (yaml.dump .null) = cast.ofItems yaml (yaml.dump (.sequence []))
          rw [ofItems_dump (kept [] written), ofItems, null]
          rfl
      | cons node nodes => rfl

theorem set_through (trans : Transitive less) {values : Sorted less}
    (kept : cast.KeepsItems yaml values.1) : (cast.set yaml trans).through yaml values =
      (values.1.mapM (cast.through yaml)).map (Sorted.ofList trans) := by
  rw [through_of_emits (set_emits trans kept), ← mapM_through kept]
  simp only [set]
  cases values.1.mapM (cast.nodeOf yaml) <;> rfl

end Items

section Entries

variable {entries : List (List Byte × T)}

theorem map_emits {values : StdMap T} (kept : cast.KeepsEntries yaml values.1) :
    (cast.map yaml).Emits yaml values := by
  intro text written
  obtain ⟨nodes, isNodes, rfl⟩ := Option.map_eq_some_iff.mp written
  exact ⟨_, kept nodes isNodes, rfl⟩

theorem unorderedMap_emits {values : UnorderedMap T} (kept : cast.KeepsEntries yaml values.1) :
    (cast.unorderedMap yaml).Emits yaml values := by
  intro text written
  obtain ⟨nodes, isNodes, rfl⟩ := Option.map_eq_some_iff.mp written
  exact ⟨_, kept nodes isNodes, rfl⟩

/-- An entry comes back with its key if its value does. -/
def throughEntry (yaml : YamlCpp) (cast : LexicalCast T) (entry : List Byte × T) :
    Option (List Byte × T) :=
  (cast.through yaml entry.2).map (entry.1, ·)

theorem throughEntry_key {entry result : List Byte × T}
    (taken : cast.throughEntry yaml entry = some result) : result.1 = entry.1 := by
  obtain ⟨_, -, rfl⟩ := Option.map_eq_some_iff.mp taken
  rfl

theorem throughEntry_eq_self {entry : List Byte × T} :
    cast.throughEntry yaml entry = some entry ↔ cast.through yaml entry.2 = some entry.2 := by
  rw [throughEntry, Option.map_eq_some_iff]
  constructor
  · rintro ⟨value, taken, same⟩
    rw [taken, ← same]
  · intro taken
    exact ⟨entry.2, taken, rfl⟩

theorem mapM_throughEntry (kept : cast.KeepsEntries yaml entries) :
    ((cast.entryNodes yaml entries).map fun nodes => yaml.dump (.map nodes)).bind
        (cast.ofEntries yaml) = entries.mapM (cast.throughEntry yaml) := by
  have step : cast.throughEntry yaml = fun entry =>
      ((cast.nodeOf yaml entry.2).map (entry.1, ·)).bind fun node =>
        (cast.ofText (yaml.dump node.2)).map (node.1, ·) := by
    funext entry
    rw [throughEntry, through]
    cases cast.nodeOf yaml entry.2 <;> rfl
  rw [step, mapM_bind]
  change _ = (cast.entryNodes yaml entries).bind _
  cases written : cast.entryNodes yaml entries with
  | none => rfl
  | some nodes =>
      have kept := kept nodes written
      rw [YamlCpp.Keeps] at kept
      simp [ofEntries, kept]

theorem map_through {values : StdMap T} (kept : cast.KeepsEntries yaml values.1) :
    (cast.map yaml).through yaml values =
      (values.1.mapM (cast.throughEntry yaml)).map (Sorted.ofList entryLess_trans) := by
  rw [through_of_emits (map_emits kept), ← mapM_throughEntry kept]
  simp only [map]
  cases cast.entryNodes yaml values.1 <;> rfl

theorem unorderedMap_through {values : UnorderedMap T}
    (kept : cast.KeepsEntries yaml values.1) : (cast.unorderedMap yaml).through yaml values =
      (values.1.mapM (cast.throughEntry yaml)).map UnorderedMap.ofList := by
  rw [through_of_emits (unorderedMap_emits kept), ← mapM_throughEntry kept]
  simp only [unorderedMap]
  cases cast.entryNodes yaml values.1 <;> rfl

/-- A map comes back if its values do. -/
theorem map_through_iff {values : StdMap T} (kept : cast.KeepsEntries yaml values.1) :
    (cast.map yaml).through yaml values = some values ↔
      ∀ entry ∈ values.1, cast.through yaml entry.2 = some entry.2 := by
  rw [map_through kept]
  constructor
  · intro read
    obtain ⟨entries, taken, isValue⟩ := Option.map_eq_some_iff.mp read
    have sameKeys := keys_mapM (fun _ _ => throughEntry_key) taken
    have ordered : Ordered entryLess entries := by
      have known := values.2
      have onKeys (list : List (List Byte × T)) : Ordered entryLess list ↔
          (list.map Prod.fst).Pairwise (stringLess · · = true) := by
        rw [Ordered, List.pairwise_map]
        rfl
      rwa [onKeys, ← sameKeys, ← onKeys] at known
    have same := Sorted.ofList_val entryLess_trans ⟨entries, ordered⟩
    rw [isValue] at same
    have whole : entries = values.1 := (congrArg Subtype.val same).symm
    rw [whole] at taken
    exact fun entry member => throughEntry_eq_self.mp (mapM_eq_self.mp taken entry member)
  · intro all
    have back := mapM_eq_self.mpr fun entry member => throughEntry_eq_self.mpr (all entry member)
    rw [back]
    exact congrArg some (Sorted.ofList_val entryLess_trans values)

theorem unorderedMap_through_iff {values : UnorderedMap T}
    (kept : cast.KeepsEntries yaml values.1) :
    (cast.unorderedMap yaml).through yaml values = some values ↔
      ∀ entry ∈ values.1, cast.through yaml entry.2 = some entry.2 := by
  rw [unorderedMap_through kept]
  constructor
  · intro read
    obtain ⟨entries, taken, isValue⟩ := Option.map_eq_some_iff.mp read
    have nodup : (entries.map Prod.fst).Nodup := by
      rw [keys_mapM (fun _ _ => throughEntry_key) taken]
      exact values.2
    have same := UnorderedMap.ofList_val ⟨entries, nodup⟩
    rw [isValue] at same
    have whole : entries = values.1 := (congrArg Subtype.val same).symm
    rw [whole] at taken
    exact fun entry member => throughEntry_eq_self.mp (mapM_eq_self.mp taken entry member)
  · intro all
    have back := mapM_eq_self.mpr fun entry member => throughEntry_eq_self.mpr (all entry member)
    rw [back]
    exact congrArg some (UnorderedMap.ofList_val values)

end Entries

/-- A set comes back if its items do, as long as an item that is read comes back itself. -/
theorem set_through_iff {less : T → T → Bool} (trans : Transitive less)
    (settles : ∀ one other, cast.through yaml one = some other →
      cast.through yaml other = some other) {values : Sorted less}
    (kept : cast.KeepsItems yaml values.1) :
    (cast.set yaml trans).through yaml values = some values ↔
      ∀ value ∈ values.1, cast.through yaml value = some value := by
  rw [set_through trans kept]
  constructor
  · intro read one member
    obtain ⟨items, taken, rfl⟩ := Option.map_eq_some_iff.mp read
    obtain ⟨source, -, same⟩ := mem_of_mapM taken one (Sorted.mem_ofList trans member)
    exact settles source one same
  · intro all
    rw [mapM_eq_self.mpr all]
    exact congrArg some (Sorted.ofList_val trans values)

/-- What is nested in any way comes back exactly if its scalars do. -/
theorem Nested.through_iff {container : Bool} {kept plain : T → Prop}
    (nested : Nested yaml container cast kept plain) {value : T} (isKept : kept value) :
    cast.through yaml value = some value ↔ plain value := by
  induction nested with
  | scalar => rfl
  | vector _ ih =>
      rw [vector_through isKept.2.1 isKept.2.2, mapM_eq_self]
      exact forall₂_congr fun item member => ih (isKept.1 item member)
  | list _ ih =>
      rw [list_through isKept.2, mapM_eq_self]
      exact forall₂_congr fun item member => ih (isKept.1 item member)
  | set trans settles _ ih =>
      rw [set_through_iff trans settles isKept.2]
      exact forall₂_congr fun item member => ih (isKept.1 item member)
  | map _ ih =>
      rw [map_through_iff isKept.2]
      exact forall₂_congr fun entry member => ih (isKept.1 entry member)
  | unorderedMap _ ih =>
      rw [unorderedMap_through_iff isKept.2]
      exact forall₂_congr fun entry member => ih (isKept.1 entry member)

/-- Nothing is read of the empty text, which is given for what cannot be written. -/
theorem ofItems_empty (empty : yaml.load [] = some .null) :
    cast.ofItems yaml [] = some [] := by
  rw [ofItems, empty]
  rfl

theorem ofEntries_empty (empty : yaml.load [] = some .null) :
    cast.ofEntries yaml [] = some [] := by
  rw [ofEntries, empty]
  rfl

/-- A variable of any containers is read as it was written exactly if its scalars come back from
being items. -/
theorem fromString_toString_iff (empty : yaml.load [] = some .null) {kept plain : T → Prop}
    (nested : Nested yaml true cast kept plain) {value : T} (isKept : kept value) :
    cast.fromString (cast.toString value) = some value ↔ plain value := by
  rw [← nested.through_iff isKept]
  cases nested with
  | vector =>
      refine fromString_toString_iff_through (vector_emits isKept.2.1 isKept.2.2)
        fun fails read => ?_
      cases (ofItems_empty empty).symm.trans read
      cases fails
  | list =>
      refine fromString_toString_iff_through (list_emits isKept.2) fun fails read => ?_
      cases (ofItems_empty empty).symm.trans read
      cases fails
  | set trans =>
      refine fromString_toString_iff_through (set_emits trans isKept.2) fun fails read => ?_
      obtain ⟨items, isRead, rfl⟩ := Option.map_eq_some_iff.mp read
      rw [ofItems_empty empty] at isRead
      cases isRead
      cases fails
  | map =>
      refine fromString_toString_iff_through (map_emits isKept.2) fun fails read => ?_
      obtain ⟨entries, isRead, rfl⟩ := Option.map_eq_some_iff.mp read
      rw [ofEntries_empty empty] at isRead
      cases isRead
      cases fails
  | unorderedMap =>
      refine fromString_toString_iff_through (unorderedMap_emits isKept.2) fun fails read => ?_
      obtain ⟨entries, isRead, rfl⟩ := Option.map_eq_some_iff.mp read
      rw [ofEntries_empty empty] at isRead
      cases isRead
      cases fails

/-- `lexicalCast<std::string, std::string>`. -/
def string : LexicalCast (List Byte) where
  toText := some
  ofText := some

/-- A string comes back from being an item if it is emitted as it is loaded. -/
theorem string_through_iff {text : List Byte} :
    string.through yaml text = some text ↔ ∃ node, yaml.load text = some node ∧
      yaml.dump node = text := by
  simp [through, nodeOf, string, Option.bind_eq_some_iff]

/-- What yaml-cpp emits and loads of some plain strings, a list of them, and a map of the list. -/
def shownYaml : YamlCpp where
  load text :=
    [([], .null), (ascii "~", .null), (ascii "7", .scalar (ascii "7")),
      (ascii "8", .scalar (ascii "8")), (ascii "- 7\n- 8", shownItems),
      (ascii "a:\n  - 7\n  - 8", .map [(ascii "a", shownItems)])].lookup text
  dump
    | .null => ascii "~"
    | .scalar text => text
    | .sequence items => (ascii "\n").intercalate (items.map fun item => ascii "- " ++ line item)
    | .map entries => entries.flatMap fun entry => entry.1 ++ ascii ":" ++ lines entry.2
where
  shownItems : Node := .sequence [.scalar (ascii "7"), .scalar (ascii "8")]
  line : Node → List Byte
    | .scalar text => text
    | .null | .sequence _ | .map _ => []
  lines : Node → List Byte
    | .sequence items => items.flatMap fun item => ascii "\n  - " ++ line item
    | .null | .scalar _ | .map _ => []

/-- A map that holds a list of strings. -/
def shownMap : StdMap (List (List Byte)) :=
  ⟨[(ascii "a", [ascii "7", ascii "8"])], List.pairwise_singleton _ _⟩

theorem fromString_toString_iff_map :
    ((string.vector shownYaml).map shownYaml).fromString
      (((string.vector shownYaml).map shownYaml).toString shownMap) = some shownMap := by
  have strings : Nested shownYaml true (string.vector shownYaml) _ _ := .vector (.scalar string)
  have items : string.KeepsItems shownYaml [ascii "7", ascii "8"] := by
    rintro nodes ⟨⟩
    rfl
  have entries : (string.vector shownYaml).KeepsEntries shownYaml shownMap.1 := by
    rintro nodes ⟨⟩
    rfl
  refine (fromString_toString_iff rfl (.map strings) ⟨?_, entries⟩).mpr ?_
  · intro entry member
    obtain rfl := List.mem_singleton.mp member
    exact ⟨fun _ _ => trivial, rfl, items⟩
  · intro entry member text isText
    obtain rfl := List.mem_singleton.mp member
    obtain rfl | rfl : text = ascii "7" ∨ text = ascii "8" := by simpa using isText
    · rfl
    · rfl

end LexicalCast

end Xten.Config
