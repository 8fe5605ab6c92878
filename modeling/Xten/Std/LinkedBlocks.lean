import Xten.Std.IntegerCodec
import Mathlib.Data.List.GetD

/-!
# Blocks that link themselves

A memory of bytes, the words in it, and a list of blocks of one size of which each starts with the
address of the next. The list is as it was wherever nobody has written to its blocks.
-/

namespace Xten.Std.LinkedBlocks

open IntegerCodec (memory ofMemory)

/-- The bytes at all addresses. -/
abbrev Memory := Nat → BitVec 8

variable {mem other : Memory} {addr size word head block : Nat} {blocks : List Nat}

/-- The word that starts at an address. -/
def loadWord (mem : Memory) (addr : Nat) : Nat :=
  (ofMemory ((List.range 8).map fun index => mem (addr + index)) : BitVec 64).toNat

def storeWord (mem : Memory) (addr word : Nat) : Memory := fun place =>
  if addr ≤ place ∧ place < addr + 8 then (memory 8 (BitVec.ofNat 64 word)).getD (place - addr) 0
  else mem place

theorem loadWord_congr (same : ∀ place, addr ≤ place → place < addr + 8 → other place = mem place) :
    loadWord other addr = loadWord mem addr := by
  have bytes : (List.range 8).map (fun index => other (addr + index)) =
      (List.range 8).map fun index => mem (addr + index) := by
    refine List.map_congr_left fun index inside => same _ (Nat.le_add_right _ _) ?_
    have := List.mem_range.mp inside
    omega
  rw [loadWord, loadWord, bytes]

theorem loadWord_storeWord (mem : Memory) (addr : Nat) (fits : word < 2 ^ 64) :
    loadWord (storeWord mem addr word) addr = word := by
  have bytes : (List.range 8).map (fun index => storeWord mem addr word (addr + index)) =
      memory 8 (BitVec.ofNat 64 word) := by
    refine List.ext_getElem ?_ fun index lower inside => ?_
    · rw [List.length_map, List.length_range, IntegerCodec.length_memory]
    · rw [IntegerCodec.length_memory] at inside
      have within : addr ≤ addr + index ∧ addr + index < addr + 8 := by omega
      rw [List.getElem_map, List.getElem_range, storeWord, if_pos within, Nat.add_sub_cancel_left,
        List.getD_eq_getElem _ _ (by rwa [IntegerCodec.length_memory])]
  have back : (ofMemory (memory 8 (BitVec.ofNat 64 word)) : BitVec 64) = BitVec.ofNat 64 word :=
    IntegerCodec.ofMemory_memory (BitVec.ofNat (8 * 8) word)
  rw [loadWord, bytes, back, BitVec.toNat_ofNat, Nat.mod_eq_of_lt fits]

theorem storeWord_outside {place : Nat} (outside : place < addr ∨ addr + 8 ≤ place) :
    storeWord mem addr word place = mem place :=
  if_neg fun inside => by omega

/-- Two blocks have no byte in common. -/
def Apart (size one two : Nat) : Prop :=
  one + size ≤ two ∨ two + size ≤ one

theorem Apart.symm {one two : Nat} (apart : Apart size one two) : Apart size two one :=
  Or.symm apart

/-- The blocks from an address on, each of which starts with the address of the next. The last one
starts with zero. -/
inductive Linked (mem : Memory) : Nat → List Nat → Prop
  | nil : Linked mem 0 []
  | cons {block : Nat} {blocks : List Nat} (some : block ≠ 0)
      (rest : Linked mem (loadWord mem block) blocks) : Linked mem block (block :: blocks)

/-- The list is in the first words of its blocks. -/
theorem Linked.congr (linked : Linked mem head blocks)
    (same : ∀ block ∈ blocks, ∀ place, block ≤ place → place < block + 8 →
      other place = mem place) : Linked other head blocks := by
  induction linked with
  | nil => exact .nil
  | @cons block blocks some rest ih =>
      refine .cons some ?_
      rw [loadWord_congr (same block List.mem_cons_self)]
      exact ih fun later inside => same later (List.mem_cons_of_mem _ inside)

/-- A block that is apart from the others becomes the first one. -/
theorem Linked.push (linked : Linked mem head blocks) (fits : head < 2 ^ 64) (some : block ≠ 0)
    (room : 8 ≤ size) (apart : ∀ later ∈ blocks, Apart size block later) :
    Linked (storeWord mem block head) block (block :: blocks) := by
  refine .cons some ?_
  rw [loadWord_storeWord mem block fits]
  refine linked.congr fun later inside place lower upper => storeWord_outside ?_
  have far := apart later inside
  rw [Apart] at far
  omega

/-- The first block is taken from the list. -/
theorem Linked.pop (linked : Linked mem head blocks) (some : head ≠ 0) :
    ∃ rest, blocks = head :: rest ∧ Linked mem (loadWord mem head) rest := by
  cases linked with
  | nil => exact absurd rfl some
  | cons _ rest => exact ⟨_, rfl, rest⟩

theorem Linked.head_mem (linked : Linked mem head blocks) : head = 0 ∨ head ∈ blocks := by
  cases linked with
  | nil => exact .inl rfl
  | cons _ _ => exact .inr List.mem_cons_self

theorem Linked.eq_nil (linked : Linked mem 0 blocks) : blocks = [] := by
  cases linked with
  | nil => rfl
  | cons some _ => exact absurd rfl some

end Xten.Std.LinkedBlocks
