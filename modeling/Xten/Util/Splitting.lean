import Xten.Util.Strings
import Xten.Std.Delimiters

/-!
# `split`

The pieces of a string between some delimiters, in two versions: one delimiter, or those of a C
string. The limit on the number of pieces is counted down before it is compared.
-/

namespace Xten

open Xten.ByteArray (cString)
open Std.Delimiters

/-- `str.find(delim, pos)` and `str.find_first_of(delims, pos)`, by which bytes they look for. -/
def findWanted (wanted : Byte → Bool) (str : List Byte) (pos : Nat) : Option Nat :=
  ((str.drop pos).findIdx? wanted).map (pos + ·)

/-- A found delimiter is behind a piece without one. -/
theorem findWanted_spec {wanted : Byte → Bool} {str : List Byte} {last pos : Nat}
    (found : findWanted wanted str last = some pos) :
    ∃ piece delim, str.drop last = piece ++ delim :: str.drop (pos + 1) ∧
      pos = last + piece.length ∧ wanted delim = true ∧ ∀ byte ∈ piece, wanted byte = false := by
  obtain ⟨index, inDrop, rfl⟩ := Option.map_eq_some_iff.mp found
  obtain ⟨inside, isDelim, clean⟩ := List.findIdx?_eq_some_iff_getElem.mp inDrop
  refine ⟨(str.drop last).take index, (str.drop last)[index], ?_, ?_, isDelim, ?_⟩
  · rw [Nat.add_assoc, ← List.drop_drop, List.getElem_cons_drop, List.take_append_drop]
  · rw [List.length_take_of_le (by omega)]
  · intro byte inPiece
    obtain ⟨place, lower, rfl⟩ := List.getElem_of_mem inPiece
    rw [List.length_take_of_le (by omega)] at lower
    rw [List.getElem_take]
    exact eq_false_of_ne_true (clean place lower)

theorem findWanted_lt {wanted : Byte → Bool} {str : List Byte} {last pos : Nat}
    (found : findWanted wanted str last = some pos) : last ≤ pos ∧ pos < str.length := by
  obtain ⟨piece, delim, same, rfl, -⟩ := findWanted_spec found
  have sizes := congrArg List.length same
  rw [List.length_drop, List.length_append, List.length_cons] at sizes
  omega

/-- The loop of `split`, from the end of the last piece. -/
def splitLoop (wanted : Byte → Bool) (str : List Byte) (max : BitVec 64) (last : Nat)
    (result : List (List Byte)) : List (List Byte) :=
  match _found : findWanted wanted str last with
  | none => result ++ [str.drop last]
  | some pos =>
      if max - 1 = 1 then
        result ++ [(str.drop last).take (pos - last)] ++ [str.drop (pos + 1)]
      else
        splitLoop wanted str (max - 1) (pos + 1) (result ++ [(str.drop last).take (pos - last)])
termination_by str.length - last
decreasing_by
  have := findWanted_lt _found
  omega

/-- The body of both versions. -/
def splitBy (wanted : Byte → Bool) (str : List Byte) (max : BitVec 64) : List (List Byte) :=
  if str = [] then [] else splitLoop wanted str max 0 []

/-- `split(str, delim, max)`. -/
def split (str : List Byte) (delim : Byte) (max : BitVec 64 := BitVec.allOnes 64) :
    List (List Byte) :=
  splitBy (· = delim) str max

/-- `split(str, delims, max)` with the delimiters in a C string. -/
def splitAny (str : List Byte) (delims : List Byte) (max : BitVec 64 := BitVec.allOnes 64) :
    List (List Byte) :=
  splitBy (· ∈ cString delims) str max

/-- What `split` is to return: from one to `max` pieces, joined to the string by delimiters, and
none in a piece but in the last. -/
structure SplitUp (isDelim : Byte → Prop) (max : BitVec 64) (str : List Byte)
    (pieces : List (List Byte)) : Prop where
  one : 1 ≤ pieces.length
  limited : pieces.length ≤ max.toNat
  joined : JoinedBy isDelim pieces str
  clean : ∀ piece ∈ pieces.dropLast, ∀ byte ∈ piece, ¬ isDelim byte

section Loop

variable {wanted : Byte → Bool} {str : List Byte} {max : BitVec 64} {last : Nat}

theorem findWanted_none (absent : findWanted wanted str last = none) :
    ∀ byte ∈ str.drop last, ¬ wanted byte = true := by
  rw [findWanted, Option.map_eq_none_iff, List.findIdx?_eq_none_iff] at absent
  intro byte inside isDelim
  exact Bool.false_ne_true ((absent byte inside).symm.trans isDelim)

/-- The pieces that the loop adds, of the rest of the string. -/
structure Added (wanted : Byte → Bool) (max : BitVec 64) (rest : List Byte)
    (pieces : List (List Byte)) : Prop where
  joined : JoinedBy (wanted · = true) pieces rest
  clean : ∀ piece ∈ pieces.dropLast, ∀ byte ∈ piece, ¬ wanted byte = true
  limited : 2 ≤ max.toNat → pieces.length ≤ max.toNat
  uncut : (∀ byte ∈ rest, ¬ wanted byte = true) → pieces.length = 1
  cut : (∃ byte ∈ rest, wanted byte = true) → 2 ≤ pieces.length

theorem Added.whole (max : BitVec 64) {rest : List Byte}
    (none : ∀ byte ∈ rest, ¬ wanted byte = true) : Added wanted max rest [rest] where
  joined := .last rest
  clean := by
    intro piece inside
    cases inside
  limited := fun two => Nat.le_of_succ_le two
  uncut := fun _ => rfl
  cut := by
    rintro ⟨byte, inside, isDelim⟩
    exact absurd isDelim (none byte inside)

theorem Added.cons {piece rest : List Byte} {delim : Byte} {pieces : List (List Byte)}
    (isDelim : wanted delim = true) (clean : ∀ byte ∈ piece, wanted byte = false)
    (joined : JoinedBy (wanted · = true) pieces rest)
    (cleanRest : ∀ piece ∈ pieces.dropLast, ∀ byte ∈ piece, ¬ wanted byte = true)
    (limited : 2 ≤ max.toNat → pieces.length + 1 ≤ max.toNat) :
    Added wanted max (piece ++ delim :: rest) (piece :: pieces) where
  joined := .cons piece isDelim joined
  clean := by
    rw [List.dropLast_cons_of_ne_nil joined.ne_nil]
    rintro other (_ | ⟨_, inRest⟩) byte inside
    · exact Bool.eq_false_iff.mp (clean byte inside)
    · exact cleanRest other inRest byte inside
  limited := limited
  uncut := fun none => absurd isDelim (none delim (by simp))
  cut := fun _ => by
    have some : 0 < pieces.length := List.length_pos_iff.mpr joined.ne_nil
    rw [List.length_cons]
    omega

/-- What the loop adds to the pieces that there are. -/
theorem splitLoop_added (wanted : Byte → Bool) (str : List Byte) (max : BitVec 64) (last : Nat)
    (result : List (List Byte)) : ∃ pieces, splitLoop wanted str max last result = result ++ pieces ∧
      Added wanted max (str.drop last) pieces := by
  fun_induction splitLoop wanted str max last result with
  | case1 max last result absent =>
      exact ⟨_, rfl, .whole max (findWanted_none absent)⟩
  | case2 max last result pos found final =>
      obtain ⟨piece, delim, same, rfl, isDelim, clean⟩ := findWanted_spec found
      have two : max = 2 := by bv_omega
      refine ⟨[piece, str.drop (last + piece.length + 1)], ?_, ?_⟩
      · rw [same, Nat.add_sub_cancel_left, List.take_left, List.append_assoc]
        rfl
      · rw [same]
        refine .cons isDelim clean (.last _) ?_ fun _ => ?_
        · intro piece inside
          cases inside
        · rw [two]
          exact Nat.le_refl 2
  | case3 max last result pos found more ih =>
      obtain ⟨piece, delim, same, rfl, isDelim, clean⟩ := findWanted_spec found
      obtain ⟨pieces, ends, added⟩ := ih
      refine ⟨piece :: pieces, ?_, ?_⟩
      · rw [ends, same, Nat.add_sub_cancel_left, List.take_left, List.append_assoc]
        rfl
      · rw [same]
        refine .cons isDelim clean added.joined added.clean fun two => ?_
        have less : (max - 1).toNat = max.toNat - 1 := by bv_omega
        have still : 2 ≤ (max - 1).toNat := by bv_omega
        have := added.limited still
        omega

/-- Either version does it but where a limit of one meets a delimiter: the limit is counted down
past the one that it is compared with. -/
theorem splitBy_iff (some : str ≠ []) (positive : max ≠ 0) :
    SplitUp (wanted · = true) max str (splitBy wanted str max) ↔
      max ≠ 1 ∨ ∀ byte ∈ str, ¬ wanted byte = true := by
  obtain ⟨pieces, ends, added⟩ := splitLoop_added wanted str max 0 []
  rw [List.drop_zero] at added
  rw [splitBy, if_neg some, ends, List.nil_append]
  have one : 1 ≤ pieces.length := List.length_pos_iff.mpr added.joined.ne_nil
  constructor
  · intro well
    by_contra! fails
    obtain ⟨rfl, byte, inside, isDelim⟩ := fails
    have two : 2 ≤ pieces.length := added.cut ⟨byte, inside, isDelim⟩
    have limit : pieces.length ≤ 1 := well.limited
    omega
  · intro holds
    refine ⟨one, ?_, added.joined, added.clean⟩
    obtain large | none := holds
    · have two : 2 ≤ max.toNat := by bv_omega
      exact added.limited two
    · rw [added.uncut none]
      bv_omega

end Loop

/-- Both versions return from one to `max` pieces that join to the string, unless the limit is one
and the string has a delimiter. -/
theorem split_iff (str : List Byte) (delim : Byte) (delims : List Byte) (max : BitVec 64)
    (some : str ≠ []) (positive : max ≠ 0) :
    (SplitUp (· = delim) max str (split str delim max) ∧
        [delim].intercalate (split str delim max) = str ↔ max ≠ 1 ∨ delim ∉ str) ∧
      (SplitUp (· ∈ cString delims) max str (splitAny str delims max) ↔
        max ≠ 1 ∨ ∀ delim ∈ cString delims, delim ∉ str) := by
  constructor
  · have body := @splitBy_iff (· = delim) str max some positive
    simp only [decide_eq_true_eq] at body
    rw [split, and_iff_left_of_imp fun well => well.joined.intercalate, body]
    simp only [List.forall_mem_ne']
  · have body := @splitBy_iff (· ∈ cString delims) str max some positive
    simp only [decide_eq_true_eq] at body
    rw [splitAny, body]
    constructor <;> rintro (large | none)
    · exact .inl large
    · exact .inr fun delim isDelim inside => none delim inside isDelim
    · exact .inl large
    · exact .inr fun byte inside isDelim => none byte isDelim inside

theorem split_iff_two : [46].intercalate (split [97, 46, 98] 46 2) = [97, 46, 98] :=
  ((split_iff [97, 46, 98] 46 [46] 2 (by decide) (by decide)).1.mpr (.inl (by decide))).2

/-- With a limit of one, three pieces. -/
theorem split_one_unlimited :
    ¬ SplitUp (· = 46) 1 [97, 46, 98, 46, 99] (split [97, 46, 98, 46, 99] 46 1) := by
  intro well
  have body := @splitBy_iff (· = 46) [97, 46, 98, 46, 99] 1 (by decide) (by decide)
  simp only [decide_eq_true_eq] at body
  have fits := body.mp well
  revert fits
  decide

end Xten
