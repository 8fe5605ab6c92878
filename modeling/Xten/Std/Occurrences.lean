import Mathlib.Data.List.Infix

/-!
# Occurrences of a pattern

Where a pattern first starts in a list, and the list with each leftmost occurrence of the pattern
replaced. The search goes on behind an occurrence, so that the occurrences do not overlap.
-/

namespace Xten.Std.Occurrences

variable {Item : Type} [DecidableEq Item] {pattern items before after : List Item}

/-- The first index at which the pattern starts. The empty pattern starts everywhere. -/
def firstIndex (pattern : List Item) : List Item → Option Nat
  | [] => if pattern = [] then some 0 else none
  | item :: rest =>
      if pattern <+: item :: rest then some 0
      else (firstIndex pattern rest).map (· + 1)

/-- The leftmost occurrences of a pattern that is not empty, replaced. -/
def leftmostReplaced (pattern put : List Item) : List Item → List Item
  | [] => []
  | item :: rest =>
      if pattern <+: item :: rest then
        put ++ leftmostReplaced pattern put (rest.drop (pattern.length - 1))
      else
        item :: leftmostReplaced pattern put rest
termination_by items => items.length

theorem firstIndex_of_empty (items : List Item) : firstIndex [] items = some 0 := by
  cases items with
  | nil => exact if_pos rfl
  | cons item rest => exact if_pos (List.nil_prefix)

/-- The pattern stands where it is found. -/
theorem split_of_firstIndex {index : Nat} (found : firstIndex pattern items = some index) :
    ∃ before after, before.length = index ∧ items = before ++ (pattern ++ after) := by
  induction items generalizing index with
  | nil =>
      rw [firstIndex] at found
      split at found
      case isTrue empty =>
        obtain rfl := Option.some.inj found
        exact ⟨[], [], rfl, by simp [empty]⟩
      case isFalse => cases found
  | cons item rest ih =>
      rw [firstIndex] at found
      split at found
      case isTrue starts =>
        obtain rfl := Option.some.inj found
        obtain ⟨after, same⟩ := starts
        exact ⟨[], after, rfl, same.symm⟩
      case isFalse =>
        obtain ⟨later, foundLater, rfl⟩ := Option.map_eq_some_iff.mp found
        obtain ⟨before, after, rfl, same⟩ := ih foundLater
        exact ⟨item :: before, after, rfl, by rw [same, List.cons_append]⟩

/-- A pattern that is nowhere is not replaced. -/
theorem leftmostReplaced_of_none (put : List Item) (absent : firstIndex pattern items = none) :
    leftmostReplaced pattern put items = items := by
  induction items with
  | nil => rw [leftmostReplaced]
  | cons item rest ih =>
      rw [firstIndex] at absent
      split at absent
      case isTrue => cases absent
      case isFalse notHere =>
        rw [leftmostReplaced, if_neg notHere, ih (Option.map_eq_none_iff.mp absent)]

/-- The first occurrence is replaced, and what is behind it in the same way. -/
theorem leftmostReplaced_of_some (put : List Item) (some : pattern ≠ [])
    (found : firstIndex pattern (before ++ (pattern ++ after)) = .some before.length) :
    leftmostReplaced pattern put (before ++ (pattern ++ after)) =
      before ++ (put ++ leftmostReplaced pattern put after) := by
  induction before with
  | nil =>
      cases pattern with
      | nil => exact absurd rfl some
      | cons item rest =>
          have starts : item :: rest <+: item :: (rest ++ after) := ⟨after, rfl⟩
          rw [List.nil_append, List.cons_append, leftmostReplaced, if_pos starts,
            List.length_cons, Nat.add_sub_cancel, List.drop_left, List.nil_append]
  | cons item before ih =>
      rw [List.cons_append, firstIndex] at found
      split at found
      case isTrue => cases found
      case isFalse notHere =>
        obtain ⟨later, foundLater, same⟩ := Option.map_eq_some_iff.mp found
        obtain rfl : later = before.length := Nat.succ.inj same
        rw [List.cons_append, leftmostReplaced, if_neg notHere, ih foundLater, List.cons_append]

end Xten.Std.Occurrences
