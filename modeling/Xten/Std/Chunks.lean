import Mathlib.Data.List.Basic
import Mathlib.Tactic

/-!
# Storage in chunks of one width

A list of chunks, all of one width, holds the same elements as their
concatenation. This module has what a walk along the chunks needs: reading and
overwriting a region of the concatenation, cut at the end of the first chunk.
-/

namespace Xten.Std.Chunks

variable {α : Type} {width : Nat} {chunk rest list : List α} {chunks : List (List α)}

/-- `size` elements of a list, from a position on. -/
def slice (list : List α) (position size : Nat) : List α :=
  (list.drop position).take size

/-- A list with its elements from a position on replaced by `data`. -/
def overwrite (list : List α) (position : Nat) (data : List α) : List α :=
  list.take position ++ data ++ list.drop (position + data.length)

/-- Every chunk has the same width. -/
def Uniform (width : Nat) (chunks : List (List α)) : Prop :=
  ∀ chunk ∈ chunks, chunk.length = width

section Slice

@[simp] theorem slice_zero (list : List α) (position : Nat) : slice list position 0 = [] :=
  List.take_zero

/-- A region of the first chunk. -/
theorem slice_append_left {position size : Nat} (inside : position + size ≤ chunk.length) :
    slice (chunk ++ rest) position size = slice chunk position size := by
  rw [slice, slice, List.drop_append_of_le_length (by omega), List.take_append_of_le_length]
  rw [List.length_drop]
  omega

/-- A region that runs past the first chunk. -/
theorem slice_append_right {position size : Nat} (start : position ≤ chunk.length)
    (beyond : chunk.length - position ≤ size) :
    slice (chunk ++ rest) position size =
      slice chunk position (chunk.length - position) ++
        slice rest 0 (size - (chunk.length - position)) := by
  have whole : (chunk.drop position).length = chunk.length - position := List.length_drop
  rw [slice, slice, slice, List.drop_append_of_le_length start, List.take_append, whole,
    List.take_of_length_le (by rw [whole]; exact beyond), List.take_of_length_le whole.le,
    List.drop_zero]

/-- A region beyond a leading part. -/
theorem slice_append_shift (lead rest : List α) (position size : Nat) :
    slice (lead ++ rest) (lead.length + position) size = slice rest position size := by
  rw [slice, slice, List.drop_append, List.drop_of_length_le (Nat.le_add_right _ _),
    Nat.add_sub_cancel_left, List.nil_append]

end Slice

section Overwrite

variable {data more : List α}

theorem length_overwrite {position : Nat} (inside : position + data.length ≤ list.length) :
    (overwrite list position data).length = list.length := by
  simp only [overwrite, List.length_append, List.length_take, List.length_drop]
  omega

/-- Overwriting a region of the first chunk. -/
theorem overwrite_append_left {position : Nat} (inside : position + data.length ≤ chunk.length) :
    overwrite (chunk ++ rest) position data = overwrite chunk position data ++ rest := by
  rw [overwrite, overwrite, List.take_append_of_le_length (by omega),
    List.drop_append_of_le_length inside]
  simp only [List.append_assoc]

/-- Overwriting to the end of the first chunk and on into the next. -/
theorem overwrite_append_both {position : Nat} (fits : position + data.length = chunk.length) :
    overwrite (chunk ++ rest) position (data ++ more) =
      overwrite chunk position data ++ overwrite rest 0 more := by
  have past : position + (data ++ more).length = chunk.length + more.length := by
    rw [List.length_append]
    omega
  have lead : chunk.take position ++ data ++ chunk.drop (position + data.length) =
      chunk.take position ++ data := by
    rw [fits, List.drop_length, List.append_nil]
  rw [overwrite, overwrite, overwrite, lead, List.take_append_of_le_length (by omega), past,
    List.drop_append, List.drop_of_length_le (Nat.le_add_right _ _), Nat.add_sub_cancel_left]
  simp

/-- Overwriting beyond a leading part. -/
theorem overwrite_append_shift (lead rest : List α) (position : Nat) (data : List α) :
    overwrite (lead ++ rest) (lead.length + position) data =
      lead ++ overwrite rest position data := by
  have past : lead.length + position + data.length = lead.length + (position + data.length) := by
    omega
  rw [overwrite, overwrite, past, List.take_append, List.take_of_length_le (Nat.le_add_right _ _),
    List.drop_append, List.drop_of_length_le (Nat.le_add_right _ _), Nat.add_sub_cancel_left,
    Nat.add_sub_cancel_left]
  simp

end Overwrite

section Uniform

theorem Uniform.nil : Uniform width ([] : List (List α)) := by
  simp [Uniform]

theorem Uniform.cons (head : chunk.length = width) (tail : Uniform width chunks) :
    Uniform width (chunk :: chunks) := by
  intro other member
  cases member with
  | head => exact head
  | tail _ member => exact tail other member

theorem Uniform.uncons (uniform : Uniform width (chunk :: chunks)) :
    chunk.length = width ∧ Uniform width chunks :=
  ⟨uniform chunk List.mem_cons_self, fun other member =>
    uniform other (List.mem_cons_of_mem _ member)⟩

theorem Uniform.append {more : List (List α)} (left : Uniform width chunks)
    (right : Uniform width more) : Uniform width (chunks ++ more) := by
  intro chunk member
  rcases List.mem_append.mp member with member | member
  · exact left chunk member
  · exact right chunk member

theorem Uniform.take (uniform : Uniform width chunks) (count : Nat) :
    Uniform width (chunks.take count) :=
  fun chunk member => uniform chunk (List.mem_of_mem_take member)

theorem Uniform.drop (uniform : Uniform width chunks) (count : Nat) :
    Uniform width (chunks.drop count) :=
  fun chunk member => uniform chunk (List.mem_of_mem_drop member)

theorem Uniform.length_flatten (uniform : Uniform width chunks) :
    chunks.flatten.length = width * chunks.length := by
  induction chunks with
  | nil => rfl
  | cons chunk chunks ih =>
      obtain ⟨head, tail⟩ := uniform.uncons
      rw [List.flatten_cons, List.length_append, head, ih tail, List.length_cons, Nat.mul_succ,
        Nat.add_comm]

/-- The leading chunks hold the leading elements. -/
theorem Uniform.length_flatten_take (uniform : Uniform width chunks) {count : Nat}
    (inside : count ≤ chunks.length) : (chunks.take count).flatten.length = width * count := by
  rw [(uniform.take count).length_flatten, List.length_take_of_le inside]

end Uniform

end Xten.Std.Chunks
