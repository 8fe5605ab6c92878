import Xten.Util.Strings
import Xten.Std.Occurrences
import Xten.Std.Rounds

/-!
# `replace`

The three versions of `replace` edit the string that they search, and go on behind what they have
put there. The empty pattern is found there again.
-/

namespace Xten

open StateTransition Std.Occurrences Std.Rounds

/-- `str.find(find, pos)`, or none for `npos`. -/
def stringFind (str find : List Byte) (pos : Nat) : Option Nat :=
  if pos ≤ str.length then (firstIndex find (str.drop pos)).map (pos + ·) else none

/-- One round of a loop that makes an edit at `index` and searches for `find` from `past` bytes
behind it on. -/
def replaceRound (find : List Byte) (edit : List Byte → Nat → List Byte) (past : Nat) :
    List Byte × Option Nat → Option (List Byte × Option Nat)
  | (_, none) => none
  | (str, some index) =>
      let str := edit str index
      some (str, stringFind str find (index + past))

/-- The string at the end of the loop, if it ends. -/
def replaceLoop (find : List Byte) (edit : List Byte → Nat → List Byte) (past : Nat)
    (str : List Byte) : Part (List Byte) :=
  (eval (replaceRound find edit past) (str, stringFind str find 0)).map Prod.fst

/-- `replace(str1, find, replaceWith)` of two characters. -/
def replaceChars (str1 : List Byte) (find replaceWith : Byte) : Part (List Byte) :=
  replaceLoop [find] (fun str index => str.set index replaceWith) 1 str1

/-- `replace(str1, find, replaceWith)` of a character by a string. -/
def replaceChar (str1 : List Byte) (find : Byte) (replaceWith : List Byte) : Part (List Byte) :=
  replaceLoop [find] (fun str index => str.take index ++ replaceWith ++ str.drop (index + 1))
    replaceWith.length str1

/-- `replace(str1, find, replaceWith)` of two strings. -/
def replace (str1 find replaceWith : List Byte) : Part (List Byte) :=
  replaceLoop find
    (fun str index => str.take index ++ replaceWith ++ str.drop (index + find.length))
    replaceWith.length str1

section Loop

variable {find put : List Byte} {edit : List Byte → Nat → List Byte}

theorem stringFind_append (done rest find : List Byte) :
    stringFind (done ++ rest) find done.length =
      (firstIndex find rest).map (done.length + ·) := by
  rw [stringFind, if_pos (by simp), List.drop_left]

/-- From where it searches on, the loop replaces the leftmost occurrences. What it has put is in
front of that. -/
theorem mem_eval_replaceRound (some : find ≠ [])
    (edits : ∀ before after, edit (before ++ (find ++ after)) before.length =
      before ++ (put ++ after)) (done rest : List Byte) :
    (done ++ leftmostReplaced find put rest, none) ∈
      eval (replaceRound find edit put.length)
        (done ++ rest, stringFind (done ++ rest) find done.length) := by
  obtain ⟨count, bound⟩ : ∃ count, rest.length < count := ⟨rest.length + 1, Nat.lt_succ_self _⟩
  induction count generalizing done rest with
  | zero => exact absurd bound (Nat.not_lt_zero _)
  | succ count ih =>
      rw [stringFind_append]
      cases found : firstIndex find rest with
      | none =>
          rw [leftmostReplaced_of_none put found]
          exact mem_eval_of_none rfl
      | some index =>
          obtain ⟨before, after, rfl, rfl⟩ := split_of_firstIndex found
          have shorter : after.length < count := by
            have positive := List.length_pos_iff.mpr some
            simp only [List.length_append] at bound
            omega
          have later := ih (done ++ before ++ put) after shorter
          have edited : edit (done ++ (before ++ (find ++ after))) (done.length + before.length) =
              done ++ before ++ put ++ after := by
            rw [← List.length_append, ← List.append_assoc, edits, List.append_assoc _ put]
          have round : replaceRound find edit put.length
              (done ++ (before ++ (find ++ after)), .some (done.length + before.length)) =
                .some (done ++ before ++ put ++ after,
                  stringFind (done ++ before ++ put ++ after) find
                    (done ++ before ++ put).length) := by
            rw [replaceRound, edited, List.length_append, List.length_append]
          have apart : done ++ (before ++ (put ++ leftmostReplaced find put after)) =
              done ++ before ++ put ++ leftmostReplaced find put after := by
            simp only [List.append_assoc]
          rw [leftmostReplaced_of_some put some found, apart]
          exact mem_eval_of_step round later

theorem leftmost_mem_replaceLoop (some : find ≠ [])
    (edits : ∀ before after, edit (before ++ (find ++ after)) before.length =
      before ++ (put ++ after)) (str : List Byte) :
    leftmostReplaced find put str ∈ replaceLoop find edit put.length str := by
  have ends := mem_eval_replaceRound some edits [] str
  rw [List.nil_append, List.nil_append] at ends
  exact Part.mem_map Prod.fst ends

/-- The edit with the pattern cut out by its length. -/
theorem cut_edit (find put before after : List Byte) :
    (before ++ (find ++ after)).take before.length ++ put ++
        (before ++ (find ++ after)).drop (before.length + find.length) =
      before ++ (put ++ after) := by
  rw [List.take_left, ← List.drop_drop, List.drop_left, List.drop_left, List.append_assoc]

theorem leftmost_mem_replaceChars (str1 : List Byte) (find replaceWith : Byte) :
    leftmostReplaced [find] [replaceWith] str1 ∈ replaceChars str1 find replaceWith := by
  refine @leftmost_mem_replaceLoop [find] [replaceWith] (fun str index => str.set index replaceWith)
    (List.cons_ne_nil _ _) (fun before after => ?_) str1
  rw [List.set_append_right _ _ (Nat.le_refl _), Nat.sub_self]
  rfl

theorem leftmost_mem_replaceChar (str1 : List Byte) (find : Byte) (replaceWith : List Byte) :
    leftmostReplaced [find] replaceWith str1 ∈ replaceChar str1 find replaceWith :=
  leftmost_mem_replaceLoop (List.cons_ne_nil _ _) (cut_edit [find] replaceWith) str1

theorem leftmost_mem_replace {find : List Byte} (some : find ≠ [])
    (str1 replaceWith : List Byte) :
    leftmostReplaced find replaceWith str1 ∈ replace str1 find replaceWith :=
  leftmost_mem_replaceLoop some (cut_edit find replaceWith) str1

/-- The empty pattern is found behind what has been put, round after round. -/
theorem replace_empty_not_dom (str1 replaceWith : List Byte) :
    ¬ (replace str1 [] replaceWith).Dom := by
  have foundAt : ∀ {str : List Byte} {pos : Nat}, pos ≤ str.length →
      stringFind str [] pos = .some pos := by
    intro str pos inside
    rw [stringFind, if_pos inside, firstIndex_of_empty]
    rfl
  rw [replace, replaceLoop, foundAt (Nat.zero_le _)]
  let standing : List Byte × Option Nat → Prop := fun state =>
    ∃ index, state.2 = some index ∧ index ≤ state.1.length
  refine @not_dom_of_rounds _ _ standing ?_ _ ⟨0, rfl, Nat.zero_le _⟩
  rintro ⟨str, -⟩ ⟨index, rfl, inside⟩
  change index ≤ str.length at inside
  have room : index + replaceWith.length ≤
      (str.take index ++ replaceWith ++ str.drop (index + 0)).length := by
    simp only [List.length_append, List.length_take, List.length_drop]
    omega
  exact ⟨_, .single rfl, index + replaceWith.length, foundAt room, room⟩

end Loop

/-- What is to be returned: an empty pattern leaves the string as it is. -/
def replaced (str1 find replaceWith : List Byte) : List Byte :=
  if find = [] then str1 else leftmostReplaced find replaceWith str1

/-- All versions end with the leftmost occurrences replaced, but the last one for no empty
pattern. -/
theorem replaced_mem_replace_iff (str1 find replaceWith : List Byte) (letter put : Byte) :
    replaced str1 [letter] [put] ∈ replaceChars str1 letter put ∧
      replaced str1 [letter] replaceWith ∈ replaceChar str1 letter replaceWith ∧
        (replaced str1 find replaceWith ∈ replace str1 find replaceWith ↔ find ≠ []) := by
  refine ⟨leftmost_mem_replaceChars str1 letter put,
    leftmost_mem_replaceChar str1 letter replaceWith, ?_⟩
  constructor
  · rintro ends rfl
    exact replace_empty_not_dom str1 replaceWith (Part.dom_iff_mem.mpr ⟨_, ends⟩)
  · intro some
    rw [replaced, if_neg some]
    exact leftmost_mem_replace some str1 replaceWith

/-- Not even nothing can be put for nothing. -/
theorem replace_nothing_by_nothing : ¬ (replace [97] [] []).Dom :=
  replace_empty_not_dom [97] []

end Xten
