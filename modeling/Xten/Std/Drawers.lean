import Mathlib.Data.List.Basic
import Mathlib.Data.List.Perm.Basic

/-!
# Drawers

Maps from keys to lists of items, of which each key has an empty one unless others were put there.
Items that are taken out of a drawer or put into one are so of all of them.
-/

namespace Xten.Std

/-- The lists of items that some keys have. -/
abbrev Drawers (Key Item : Type) := List (Key × List Item)

namespace Drawers

variable {Key Item : Type}

/-- All items of all keys. -/
def all (drawers : Drawers Key Item) : List Item :=
  drawers.flatMap Prod.snd

/-- Only some items are left, of all keys. -/
def keep (keeps : Item → Bool) (drawers : Drawers Key Item) : Drawers Key Item :=
  drawers.map fun (key, items) => (key, items.filter keeps)

theorem all_keep (keeps : Item → Bool) (drawers : Drawers Key Item) :
    (keep keeps drawers).all = drawers.all.filter keeps := by
  rw [all, keep, List.flatMap_map, all, List.filter_flatMap]

variable [DecidableEq Key] {drawers : Drawers Key Item} {key other : Key}
  {item : Item}

/-- The items of a key. -/
def contents : Drawers Key Item → Key → List Item
  | [], _ => []
  | (other, items) :: drawers, key => if other = key then items else contents drawers key

/-- A key is given other items. -/
def put (key : Key) (new : List Item) : Drawers Key Item → Drawers Key Item
  | [] => [(key, new)]
  | (other, items) :: drawers =>
      if other = key then (key, new) :: drawers else (other, items) :: put key new drawers

@[simp] theorem contents_put_self (key : Key) (new : List Item) (drawers : Drawers Key Item) :
    (put key new drawers).contents key = new := by
  induction drawers with
  | nil => simp [put, contents]
  | cons drawer drawers ih =>
      rw [put]
      split
      case isTrue => simp [contents]
      case isFalse apart => rw [contents, if_neg apart, ih]

theorem contents_put_other (apart : other ≠ key) (new : List Item) (drawers : Drawers Key Item) :
    (put key new drawers).contents other = drawers.contents other := by
  induction drawers with
  | nil => simp [put, contents, Ne.symm apart]
  | cons drawer drawers ih =>
      rw [put]
      split
      case isTrue same => simp [contents, same, Ne.symm apart]
      case isFalse => rw [contents, contents, ih]

/-- The items of one key are exchanged for others. -/
theorem perm_put (key : Key) (new : List Item) (drawers : Drawers Key Item) :
    ((put key new drawers).all ++ drawers.contents key).Perm (new ++ drawers.all) := by
  induction drawers with
  | nil => simp [put, all, contents]
  | cons drawer drawers ih =>
      rw [put, contents]
      split
      case isTrue =>
        rw [all, all, List.flatMap_cons, List.flatMap_cons, List.append_assoc]
        exact List.perm_append_comm.append_left _
      case isFalse =>
        rw [all, all, List.flatMap_cons, List.flatMap_cons, List.append_assoc]
        apply (ih.append_left drawer.2).trans
        rw [← List.append_assoc, ← List.append_assoc]
        exact List.perm_append_comm.append_right _

theorem perm_pop {rest : List Item} (found : drawers.contents key = item :: rest) :
    (item :: (put key rest drawers).all).Perm drawers.all := by
  have parts := perm_put key rest drawers
  rw [found] at parts
  have swapped : (rest ++ (item :: (put key rest drawers).all)).Perm
      ((put key rest drawers).all ++ item :: rest) :=
    List.perm_append_comm.trans (List.perm_middle.symm)
  exact (List.perm_append_left_iff rest).mp (swapped.trans parts)

theorem perm_push (key : Key) (item : Item) (drawers : Drawers Key Item) :
    (put key (drawers.contents key ++ [item]) drawers).all.Perm (item :: drawers.all) := by
  have parts := perm_put key (drawers.contents key ++ [item]) drawers
  rw [List.append_assoc] at parts
  exact (List.perm_append_left_iff _).mp (List.perm_append_comm.trans parts)

/-- Only one key has other items than before. -/
theorem mem_put {new : List Item} (member : item ∈ (put key new drawers).contents other) :
    other = key ∧ item ∈ new ∨ item ∈ drawers.contents other := by
  by_cases same : other = key
  · subst same
    rw [contents_put_self] at member
    exact .inl ⟨rfl, member⟩
  · rw [contents_put_other same] at member
    exact .inr member

/-- What a key has is among all items. -/
theorem mem_all (member : item ∈ drawers.contents key) : item ∈ drawers.all := by
  induction drawers with
  | nil => exact absurd member List.not_mem_nil
  | cons drawer drawers ih =>
      rw [contents] at member
      rw [all, List.flatMap_cons, List.mem_append]
      split at member
      · exact .inl member
      · exact .inr (ih member)

theorem contents_keep (keeps : Item → Bool) (drawers : Drawers Key Item) (key : Key) :
    (keep keeps drawers).contents key = (drawers.contents key).filter keeps := by
  induction drawers with
  | nil => rfl
  | cons drawer drawers ih =>
      rw [keep, List.map_cons, contents, contents]
      split
      · rfl
      · exact ih

end Drawers

end Xten.Std
