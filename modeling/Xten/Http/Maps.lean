import Xten.Http.Requests

/-!
# Maps whose keys have no case

What `std::map` with `CaseInsensitiveLess` keeps: the entries are in the order of their keys, and
there is one for each key.
-/

namespace Xten.http.MapType

variable {m : MapType} {key other third val : List Byte} {entry : List Byte × List Byte}
  {value : Option (List Byte) → List Byte}

theorem less_irrefl (same : foldCase key = foldCase other) : ¬ less key other := by
  rw [less, same]
  exact List.lt_irrefl _

theorem less_trans (first : less key other) (second : less other third) : less key third :=
  List.lt_trans first second

/-- Keys that are not in an order are one. -/
theorem foldCase_eq (notLess : ¬ less key other) (notMore : ¬ less other key) :
    foldCase key = foldCase other :=
  List.le_antisymm notMore notLess

/-- The entries are in the order of their keys. -/
def Ordered (m : MapType) : Prop :=
  m.Pairwise fun one other => less one.1 other.1

theorem mem_update (member : entry ∈ update key value m) :
    entry ∈ m ∨ entry = (key, value none) ∨
      ∃ first found, (first, found) ∈ m ∧ foldCase first = foldCase key ∧
        entry = (first, value (some found)) := by
  induction m with
  | nil => exact .inr (.inl (List.mem_singleton.mp member))
  | cons one rest ih =>
      obtain ⟨first, found⟩ := one
      rw [update] at member
      split at member
      case isTrue =>
        obtain rfl | member := List.mem_cons.mp member
        · exact .inr (.inl rfl)
        · exact .inl member
      case isFalse notLess =>
        split at member
        case isTrue =>
          obtain rfl | member := List.mem_cons.mp member
          · exact .inl List.mem_cons_self
          · obtain before | new | ⟨one, found, inside, same, rfl⟩ := ih member
            · exact .inl (List.mem_cons_of_mem _ before)
            · exact .inr (.inl new)
            · exact .inr (.inr ⟨one, found, List.mem_cons_of_mem _ inside, same, rfl⟩)
        case isFalse notMore =>
          obtain rfl | member := List.mem_cons.mp member
          · exact .inr (.inr ⟨first, found, List.mem_cons_self, foldCase_eq notMore notLess, rfl⟩)
          · exact .inl (List.mem_cons_of_mem _ member)

theorem Ordered.update (ordered : Ordered m) : Ordered (update key value m) := by
  induction m with
  | nil => exact List.pairwise_singleton _ _
  | cons one rest ih =>
      obtain ⟨first, found⟩ := one
      obtain ⟨before, others⟩ := List.pairwise_cons.mp ordered
      rw [MapType.update]
      split
      case isTrue sooner =>
        refine List.pairwise_cons.mpr ⟨fun entry member => ?_, ordered⟩
        obtain rfl | member := List.mem_cons.mp member
        · exact sooner
        · exact less_trans sooner (before entry member)
      case isFalse =>
        split
        case isTrue later =>
          refine List.pairwise_cons.mpr ⟨fun entry member => ?_, ih others⟩
          obtain inside | rfl | ⟨one, found, inside, -, rfl⟩ := mem_update member
          · exact before entry inside
          · exact later
          · exact before (one, found) inside
        case isFalse => exact List.pairwise_cons.mpr ⟨before, others⟩

theorem find_nil : find [] key = none :=
  rfl

theorem find_cons (first found : List Byte) : find ((first, found) :: m) key =
    if foldCase first = foldCase key then some found else m.find key := by
  rw [find, List.find?_cons]
  by_cases same : foldCase first = foldCase key
  · rw [if_pos same, decide_eq_true same]
    rfl
  · rw [if_neg same, decide_eq_false same]
    rfl

theorem find_none (apart : ∀ entry ∈ m, foldCase entry.1 ≠ foldCase key) : m.find key = none := by
  rw [find, List.find?_eq_none.mpr, Option.map_none]
  simpa using apart

/-- An entry is found by its key. -/
theorem Ordered.find_of_mem (ordered : Ordered m) (member : entry ∈ m) :
    m.find entry.1 = some entry.2 := by
  induction m with
  | nil => cases member
  | cons one rest ih =>
      obtain ⟨before, others⟩ := List.pairwise_cons.mp ordered
      rw [find_cons]
      obtain rfl | member := List.mem_cons.mp member
      · exact if_pos rfl
      · rw [if_neg, ih others member]
        exact fun same => less_irrefl same (before entry member)

/-- What is found in a map with a value put at a key. -/
theorem Ordered.find_update (ordered : Ordered m) :
    (MapType.update key value m).find other =
      if foldCase key = foldCase other then some (value (m.find key)) else m.find other := by
  induction m with
  | nil => exact find_cons _ _
  | cons one rest ih =>
      obtain ⟨first, found⟩ := one
      obtain ⟨before, others⟩ := List.pairwise_cons.mp ordered
      rw [MapType.update]
      split
      case isTrue sooner =>
        rw [find_cons, @find_none ((first, found) :: rest) key]
        intro entry member same
        obtain rfl | member := List.mem_cons.mp member
        · exact less_irrefl same.symm sooner
        · exact less_irrefl same.symm (less_trans sooner (before entry member))
      case isFalse notSooner =>
        split
        case isTrue later =>
          have apart : foldCase first ≠ foldCase key := fun same => less_irrefl same later
          rw [find_cons, ih others, find_cons, find_cons, if_neg apart]
          by_cases same : foldCase first = foldCase other
          · rw [if_pos same, if_pos same, if_neg fun also => apart (same.trans also.symm)]
          · rw [if_neg same, if_neg same]
        case isFalse notLater =>
          have same := foldCase_eq notLater notSooner
          rw [find_cons, find_cons, find_cons, if_pos same, same]
          by_cases here : foldCase key = foldCase other
          · rw [if_pos here, if_pos here]
          · rw [if_neg here, if_neg here, if_neg here]

/-- A key behind all others gets its place at the end. -/
theorem update_last (last : ∀ entry ∈ m, less entry.1 key) :
    update key value m = m ++ [(key, value none)] := by
  induction m with
  | nil => rfl
  | cons one rest ih =>
      obtain ⟨first, found⟩ := one
      have later := last (first, found) List.mem_cons_self
      have notSooner : ¬ less key first := fun sooner =>
        less_irrefl rfl (less_trans sooner later)
      rw [update, if_neg notSooner, if_pos later,
        ih fun entry member => last entry (List.mem_cons_of_mem _ member)]
      rfl

/-- The entries with a key are the one that is found. -/
theorem Ordered.filter_eq (ordered : Ordered m) (key : List Byte) :
    m.filter (fun entry => foldCase entry.1 = foldCase key) =
      (List.find? (fun entry => foldCase entry.1 = foldCase key) m).toList := by
  induction m with
  | nil => rfl
  | cons one rest ih =>
      obtain ⟨before, others⟩ := List.pairwise_cons.mp ordered
      rw [List.filter_cons, List.find?_cons]
      by_cases same : foldCase one.1 = foldCase key
      · simp only [same, decide_true, if_true, Option.toList_some]
        rw [List.filter_eq_nil_iff.mpr]
        intro entry member also
        exact less_irrefl (same.trans (of_decide_eq_true also).symm) (before entry member)
      · simp only [same, decide_false, Bool.false_eq_true, if_false]
        exact ih others

end Xten.http.MapType
