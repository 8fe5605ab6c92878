import Xten.ByteArray.Flat

/-!
# Walks along the chain

What each loop over the nodes does to the concatenation of the nodes it walks, from
a cursor inside the first of them. In every case the number of nodes left behind is
the quotient of the distance by the node size.
-/

namespace Xten.ByteArray

open Std.Chunks

variable {width : Nat} {nodes : List (List Byte)}

/-- Passing the end of a node in the middle of a walk. -/
theorem div_past_node {npos size : Nat} (positive : 0 < width) (inside : npos < width)
    (beyond : width - npos < size) :
    (0 + (size - (width - npos))) / width + 1 = (npos + size) / width := by
  have split : npos + size = (0 + (size - (width - npos))) + width := by omega
  rw [split, Nat.add_div_right _ positive]

/-- Ending a walk within a node, or at its end. -/
theorem div_in_node {npos size : Nat} (positive : 0 < width) (inside : npos < width)
    (fits : size ≤ width - npos) :
    (if width - npos = size then 1 else 0) = (npos + size) / width := by
  split_ifs with full
  · rw [show npos + size = width by omega, Nat.div_self positive]
  · rw [Nat.div_eq_of_lt (by omega)]

/-- The loop of `Write` overwrites a region of the chain. -/
theorem writeLoop_eq (positive : 0 < width) {npos : Nat} {buf : List Byte}
    (uniform : Uniform width nodes) (inside : npos < width) (some : 0 < buf.length)
    (fits : npos + buf.length ≤ nodes.flatten.length) :
    ∃ written, writeLoop nodes npos buf = .some (written, (npos + buf.length) / width) ∧
      written.flatten = overwrite nodes.flatten npos buf ∧ Uniform width written ∧
      written.length = nodes.length := by
  induction nodes generalizing npos buf with
  | nil =>
      simp only [List.flatten_nil, List.length_nil] at fits
      omega
  | cons node rest ih =>
      obtain ⟨head, tail⟩ := uniform.uncons
      rw [List.flatten_cons, List.length_append, head] at fits
      simp only [writeLoop, head]
      by_cases last : buf.length ≤ width - npos
      · have region : npos + buf.length ≤ node.length := by omega
        rw [if_pos last, div_in_node positive inside last]
        refine ⟨_, rfl, ?_, Uniform.cons ?_ tail, rfl⟩
        · rw [List.flatten_cons, List.flatten_cons, overwrite_append_left region]
        · rw [length_overwrite region, head]
      · have filled : (buf.take (width - npos)).length = width - npos := by
          rw [List.length_take]
          omega
        have region : npos + (buf.take (width - npos)).length = node.length := by omega
        have remaining : 0 < (buf.drop (width - npos)).length := by
          rw [List.length_drop]
          omega
        have room : 0 + (buf.drop (width - npos)).length ≤ rest.flatten.length := by
          rw [List.length_drop]
          omega
        obtain ⟨written, walked, flat, again, length⟩ := ih tail positive remaining room
        rw [if_neg last, walked, List.length_drop, Option.map_some,
          div_past_node positive inside (by omega)]
        refine ⟨_, rfl, ?_, Uniform.cons ?_ again, by rw [List.length_cons, length, List.length_cons]⟩
        · rw [List.flatten_cons, List.flatten_cons, flat, ← overwrite_append_both region,
            List.take_append_drop]
        · rw [length_overwrite region.le, head]

/-- The loop of `Read` copies a region of the chain. -/
theorem readLoop_eq (positive : 0 < width) {npos size : Nat} (uniform : Uniform width nodes)
    (inside : npos < width) (some : 0 < size) (fits : npos + size ≤ nodes.flatten.length) :
    readLoop nodes npos size =
      .some (slice nodes.flatten npos size, (npos + size) / width) := by
  induction nodes generalizing npos size with
  | nil =>
      simp only [List.flatten_nil, List.length_nil] at fits
      omega
  | cons node rest ih =>
      obtain ⟨head, tail⟩ := uniform.uncons
      rw [List.flatten_cons, List.length_append, head] at fits
      simp only [readLoop, head, if_neg some.ne']
      by_cases last : size ≤ width - npos
      · have steps := div_in_node positive inside last
        rw [if_pos last, ← steps, List.flatten_cons, slice_append_left (by omega)]
        simp only [eq_comm]
      · rw [if_neg last, ih tail positive (by omega) (by omega), Option.map_some,
          div_past_node positive inside (by omega), List.flatten_cons,
          slice_append_right (by omega) (by omega), head]

/-- The regions pushed by `GetReadBuffers` hold a region of the chain. -/
theorem readBuffersLoop_eq {all : List (List Byte)} (positive : 0 < width) {index npos len : Nat}
    (uniform : Uniform width nodes) (from_ : all.drop index = nodes) (inside : npos < width)
    (some : 0 < len) (fits : npos + len ≤ nodes.flatten.length) :
    ∃ iovs, readBuffersLoop nodes index npos len = .some iovs ∧
      (iovs.flatMap fun iov => slice (all.getD iov.node []) iov.offset iov.len) =
        slice nodes.flatten npos len := by
  induction nodes generalizing index npos len with
  | nil =>
      simp only [List.flatten_nil, List.length_nil] at fits
      omega
  | cons node rest ih =>
      obtain ⟨head, tail⟩ := uniform.uncons
      have here : all.getD index [] = node := by
        rw [List.getD_eq_getElem?_getD, ← List.head?_drop, from_]
        rfl
      have after : all.drop (index + 1) = rest := by
        rw [← List.drop_drop, from_]
        rfl
      rw [List.flatten_cons, List.length_append, head] at fits
      simp only [readBuffersLoop, head]
      by_cases last : len ≤ width - npos
      · rw [if_pos last]
        refine ⟨_, rfl, ?_⟩
        rw [List.flatMap_singleton, here, List.flatten_cons, slice_append_left (by omega)]
      · have remaining : 0 < len - (width - npos) := by omega
        have room : 0 + (len - (width - npos)) ≤ rest.flatten.length := by omega
        obtain ⟨iovs, walked, contents⟩ := ih tail after positive remaining room
        rw [if_neg last, walked, Option.map_some]
        refine ⟨_, rfl, ?_⟩
        rw [List.flatMap_cons, here, contents, List.flatten_cons,
          slice_append_right (by omega) (by omega), head]

/-- The loop of `SetPosition` stops at the node that holds the position, or at the
end of the one before it. -/
theorem seek_eq (positive : 0 < width) {pos : Nat} (uniform : Uniform width nodes)
    (root : nodes ≠ []) (fits : pos ≤ nodes.flatten.length) :
    seek nodes pos = some (pos / width) := by
  induction nodes generalizing pos with
  | nil => exact absurd rfl root
  | cons node rest ih =>
      obtain ⟨head, tail⟩ := uniform.uncons
      rw [List.flatten_cons, List.length_append, head] at fits
      rw [seek, head]
      by_cases beyond : width < pos
      · have more : rest ≠ [] := by
          rintro rfl
          simp only [List.flatten_nil, List.length_nil] at fits
          omega
        rw [if_pos beyond, ih tail more (by omega), Option.map_some]
        conv_rhs => rw [show pos = pos - width + width by omega, Nat.add_div_right _ positive]
      · rw [if_neg beyond]
        have steps := div_in_node positive positive (show pos ≤ width - 0 by omega)
        rw [Nat.sub_zero, Nat.zero_add] at steps
        rw [← steps]
        simp only [eq_comm]

/-- `GetWriteBuffers` finds the nodes for a region of the chain. -/
theorem writeBuffersLoop_isSome (positive : 0 < width) (index : Nat) {npos len : Nat}
    (uniform : Uniform width nodes) (inside : npos < width) (some : 0 < len)
    (fits : npos + len ≤ nodes.flatten.length) :
    ∃ iovs, writeBuffersLoop nodes index npos len = .some iovs := by
  induction nodes generalizing index npos len with
  | nil =>
      simp only [List.flatten_nil, List.length_nil] at fits
      omega
  | cons node rest ih =>
      obtain ⟨head, tail⟩ := uniform.uncons
      rw [List.flatten_cons, List.length_append, head] at fits
      simp only [writeBuffersLoop, head]
      by_cases last : len ≤ width - npos
      · exact ⟨_, if_pos last⟩
      · have remaining : 0 < len - (width - npos) := by omega
        have room : 0 + (len - (width - npos)) ≤ rest.flatten.length := by omega
        obtain ⟨iovs, walked⟩ := ih (index + 1) tail positive remaining room
        exact ⟨_, by rw [if_neg last, walked, Option.map_some]⟩

end Xten.ByteArray
