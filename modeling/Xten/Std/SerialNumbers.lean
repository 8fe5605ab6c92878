import Mathlib.Data.BitVec
import Mathlib.Tactic

/-!
# Serial numbers

Numbers that count on from zero after the largest, compared by the sign of their difference.
The comparison is right for numbers that lie less than half of the range apart: how far a
number is from some base orders the numbers of a window, wherever the window begins.
-/

namespace Xten.Std.SerialNumbers

variable {width : Nat}

/-- How far one number is ahead of another, negative if it is behind. -/
def diff (later earlier : BitVec width) : Int :=
  (later - earlier).toInt

/-- How far a number is from a base, counted upwards. -/
def offset (base number : BitVec width) : Nat :=
  (number - base).toNat

theorem offset_lt (base number : BitVec width) : offset base number < 2 ^ width :=
  (number - base).isLt

@[simp] theorem offset_self (base : BitVec width) : offset base base = 0 := by
  simp [offset]

@[simp] theorem offset_zero (number : BitVec width) : offset 0 number = number.toNat := by
  simp [offset]

theorem offset_inj {base first second : BitVec width} :
    offset base first = offset base second ↔ first = second := by
  constructor
  · intro same
    have equal : first - base = second - base := BitVec.eq_of_toNat_eq same
    simpa using congrArg (· + base) equal
  · rintro rfl
    rfl

theorem offset_eq_zero {base number : BitVec width} : offset base number = 0 ↔ number = base := by
  rw [← offset_self base, offset_inj]

/-- The number at an offset. -/
theorem offset_add {base : BitVec width} {count : Nat} (small : count < 2 ^ width) :
    offset base (base + BitVec.ofNat width count) = count := by
  rw [offset, BitVec.add_comm, BitVec.add_sub_cancel, BitVec.toNat_ofNat, Nat.mod_eq_of_lt small]

theorem offset_add_self (base distance : BitVec width) :
    offset base (base + distance) = distance.toNat := by
  rw [offset, BitVec.add_comm, BitVec.add_sub_cancel]

theorem base_add_offset (base number : BitVec width) :
    base + BitVec.ofNat width (offset base number) = number := by
  rw [offset, BitVec.ofNat_toNat, BitVec.setWidth_eq, BitVec.add_comm, BitVec.sub_add_cancel]

/-- A base that is moved on to some number of the window. -/
theorem offset_rebase {base first number : BitVec width}
    (behind : offset base first ≤ offset base number) :
    offset first number = offset base number - offset base first := by
  have split : number - first = (number - base) - (first - base) :=
    (sub_sub_sub_cancel_right number first base).symm
  rw [offset, split, BitVec.toNat_sub_of_le]
  · rfl
  · exact behind

/-- Numbers of one window, no wider than half of the range, differ as their offsets do. -/
theorem diff_eq_offset {base first second : BitVec width} {half : Nat} (range : 2 * half = 2 ^ width)
    (firstIn : offset base first < half) (secondIn : offset base second < half) :
    diff first second = (offset base first : Int) - offset base second := by
  have split : first - second = (first - base) - (second - base) :=
    (sub_sub_sub_cancel_right first second base).symm
  rw [diff, split, BitVec.toInt_sub, BitVec.toInt_eq_toNat_of_lt, BitVec.toInt_eq_toNat_of_lt]
  · change Int.bmod ((offset base first : Int) - offset base second) (2 ^ width) = _
    rw [← range]
    apply Int.bmod_eq_of_le_mul_two <;> omega
  · change 2 * offset base second < _
    omega
  · change 2 * offset base first < _
    omega

/-- The sign of a difference tells the upper half of the range from the lower. -/
theorem diff_nonneg_iff {base number : BitVec width} {half : Nat} (range : 2 * half = 2 ^ width) :
    0 ≤ diff number base ↔ offset base number < half := by
  rw [diff, BitVec.toInt_pos_iff, ← range]
  change 2 * offset base number < _ ↔ _
  omega

/-- The next number is one further. -/
theorem offset_succ {base number : BitVec width} (small : offset base number + 1 < 2 ^ width) :
    offset base (number + 1) = offset base number + 1 := by
  have moved : number + 1 - base = (number - base) + 1 := add_sub_right_comm number 1 base
  have large : 1 < 2 ^ width := by omega
  have one : (1 : BitVec width).toNat = 1 := Nat.mod_eq_of_lt large
  rw [offset, moved, BitVec.toNat_add, one]
  exact Nat.mod_eq_of_lt small

theorem offset_succ_base {base number : BitVec width} (apart : 0 < offset base number) :
    offset (base + 1) number = offset base number - 1 := by
  have far := offset_lt base number
  have next : offset base (base + 1) = 1 := by
    rw [offset_succ] <;> rw [offset_self]
    omega
  rw [offset_rebase] <;> rw [next]
  exact apart

section Ahead

/-- Numbers in order, less than some bound ahead of a base. -/
structure Ahead (base : BitVec width) (bound : Nat) (numbers : List (BitVec width)) : Prop where
  sorted : numbers.Pairwise fun first second => offset base first < offset base second
  near : ∀ number ∈ numbers, offset base number < bound

variable {base number : BitVec width} {bound : Nat} {numbers front back : List (BitVec width)}

theorem Ahead.nil : Ahead base bound [] :=
  ⟨.nil, by simp⟩

/-- There are no more of them than the bound. -/
theorem Ahead.length_le (window : Ahead base bound numbers) : numbers.length ≤ bound := by
  have distinct : (numbers.map (offset base)).Nodup := by
    apply List.Pairwise.map _ _ window.sorted
    intro first second
    exact Nat.ne_of_lt
  have inside : numbers.map (offset base) ⊆ List.range bound := by
    intro place isPlace
    obtain ⟨number, isNumber, rfl⟩ := List.mem_map.mp isPlace
    exact List.mem_range.mpr (window.near number isNumber)
  simpa using (List.subperm_of_subset distinct inside).length_le

/-- The base itself is the first, and the base moves on. -/
theorem Ahead.advance (window : Ahead base bound (base :: numbers)) :
    Ahead (base + 1) bound numbers := by
  obtain ⟨first, sorted⟩ := List.pairwise_cons.mp window.sorted
  rw [offset_self] at first
  constructor
  · apply sorted.imp_of_mem
    intro one other isOne isOther before
    have := first one isOne
    rw [offset_succ_base (first one isOne), offset_succ_base (first other isOther)]
    omega
  · intro number isNumber
    have := window.near number (List.mem_cons_of_mem _ isNumber)
    rw [offset_succ_base (first number isNumber)]
    omega

theorem Ahead.insert (window : Ahead base bound (front ++ back)) (near : offset base number < bound)
    (before : ∀ other ∈ front, offset base other < offset base number)
    (behind : ∀ other ∈ back, offset base number < offset base other) :
    Ahead base bound (front ++ number :: back) := by
  obtain ⟨sortedFront, sortedBack, across⟩ := List.pairwise_append.mp window.sorted
  constructor
  · rw [List.pairwise_append, List.pairwise_cons]
    refine ⟨sortedFront, ⟨behind, sortedBack⟩, ?_⟩
    intro one isOne other isOther
    rcases List.mem_cons.mp isOther with rfl | isOther
    · exact before one isOne
    · exact across one isOne other isOther
  · intro other isOther
    rcases List.mem_append.mp isOther with isFront | isBack
    · exact window.near other (List.mem_append_left _ isFront)
    · rcases List.mem_cons.mp isBack with rfl | isBack
      · exact near
      · exact window.near other (List.mem_append_right _ isBack)

end Ahead

section Behind

/-- Numbers in order, at most some bound behind a next one. -/
structure Behind (next : BitVec width) (bound : Nat) (numbers : List (BitVec width)) : Prop where
  sorted : numbers.Pairwise fun first second => offset second next < offset first next
  near : ∀ number ∈ numbers, 0 < offset number next ∧ offset number next ≤ bound

variable {next : BitVec width} {bound : Nat} {numbers fewer : List (BitVec width)}

theorem Behind.nil : Behind next bound [] :=
  ⟨.nil, by simp⟩

theorem Behind.sublist (window : Behind next bound numbers) (sub : fewer.Sublist numbers) :
    Behind next bound fewer :=
  ⟨window.sorted.sublist sub, fun number isNumber => window.near number (sub.subset isNumber)⟩

theorem Behind.length_le (window : Behind next bound numbers) : numbers.length ≤ bound := by
  have distinct : (numbers.map (offset · next)).Nodup := by
    apply List.Pairwise.map _ _ window.sorted
    intro first second
    exact Nat.ne_of_gt
  have inside : numbers.map (offset · next) ⊆ (List.range bound).map (· + 1) := by
    intro place isPlace
    obtain ⟨number, isNumber, rfl⟩ := List.mem_map.mp isPlace
    have := window.near number isNumber
    refine List.mem_map.mpr ⟨offset number next - 1, List.mem_range.mpr ?_, ?_⟩ <;> omega
  simpa using (List.subperm_of_subset distinct inside).length_le

/-- The next number is taken, and there is another next one. -/
theorem Behind.push (window : Behind next bound numbers) (positive : 0 < bound)
    (small : bound < 2 ^ width) (room : ∀ number ∈ numbers, offset number next < bound) :
    Behind (next + 1) bound (numbers ++ [next]) := by
  have moved : ∀ number ∈ numbers, offset number (next + 1) = offset number next + 1 := by
    intro number isNumber
    have := room number isNumber
    exact offset_succ (by omega)
  have new : offset next (next + 1) = 1 := by
    rw [offset_succ] <;> rw [offset_self]
    omega
  constructor
  · rw [List.pairwise_append]
    refine ⟨?_, List.pairwise_singleton _ _, ?_⟩
    · apply window.sorted.imp_of_mem
      intro one other isOne isOther before
      rw [moved one isOne, moved other isOther]
      omega
    · intro one isOne other isOther
      rw [List.mem_singleton.mp isOther, new, moved one isOne]
      have := (window.near one isOne).1
      omega
  · intro number isNumber
    rcases List.mem_append.mp isNumber with isOld | isNew
    · have := room number isOld
      rw [moved number isOld]
      omega
    · rw [List.mem_singleton.mp isNew, new]
      omega

end Behind

end Xten.Std.SerialNumbers
