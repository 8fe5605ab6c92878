import Xten.Std.Numerals

/-!
# Texts of IPv6 addresses

The forms of RFC 4291 that are written without dots: eight groups of hexadecimal digits, or fewer
of them and one `::` in the place of those that are zero.
-/

namespace Xten.Std.HexGroups

open Numerals

/-- One to four digits. -/
def ofField (text : List (BitVec 8)) : Option (BitVec 16) :=
  if text.length ≤ 4 then (ofNumeral 16 text).map (BitVec.ofNat 16) else none

/-- Fields with colons between them, or nothing. -/
def ofFields (text : List (BitVec 8)) : Option (List (BitVec 16)) :=
  if text = [] then some [] else (text.splitOn 58).mapM ofField

/-- What is before the first `::` and what is behind it. -/
def cut : List (BitVec 8) → Option (List (BitVec 8) × List (BitVec 8))
  | [] => none
  | first :: rest =>
      if first = 58 ∧ rest.head? = some 58 then some ([], rest.tail)
      else (cut rest).map fun parts => (first :: parts.1, parts.2)

/-- The eight groups of a text. A `::` stands for one of them at least. -/
def ofText (text : List (BitVec 8)) : Option (List (BitVec 16)) :=
  match cut text with
  | none => (ofFields text).bind fun groups => if groups.length = 8 then some groups else none
  | some (before, after) =>
      (ofFields before).bind fun left => (ofFields after).bind fun right =>
        if left.length + right.length < 8 then
          some (left ++ List.replicate (8 - (left.length + right.length)) 0 ++ right)
        else
          none

/-- Nowhere but at one place is there a `::`. -/
def AtMostOnce (text : List (BitVec 8)) : Prop :=
  ∀ before after before' after', text = before ++ 58 :: 58 :: after →
    text = before' ++ 58 :: 58 :: after' → before = before'

/-- Each group behind a colon. -/
def behind (groups : List (BitVec 16)) : List (BitVec 8) :=
  groups.flatMap fun group => 58 :: numeral 16 group.toNat

/-- Groups with colons between them. -/
def fields : List (BitVec 16) → List (BitVec 8)
  | [] => []
  | group :: groups => numeral 16 group.toNat ++ behind groups

section Fields

variable {letter : BitVec 8} {group : BitVec 16} {groups : List (BitVec 16)}

theorem not_mem_numeral (other : digitValue letter = none) (number : Nat) :
    letter ∉ numeral 16 number := by
  intro member
  have digit := digit_of_mem (by decide) (by decide) member
  rw [other] at digit
  cases digit

/-- What is no digit and no colon is nowhere in the groups. -/
theorem not_mem_behind (other : digitValue letter = none) (notColon : letter ≠ 58)
    (groups : List (BitVec 16)) : letter ∉ behind groups := by
  intro member
  obtain ⟨group, -, inside⟩ := List.mem_flatMap.mp member
  exact not_mem_numeral other _ ((List.mem_cons.mp inside).resolve_left notColon)

theorem not_mem_fields (other : digitValue letter = none) (notColon : letter ≠ 58)
    (groups : List (BitVec 16)) : letter ∉ fields groups := by
  cases groups with
  | nil => exact List.not_mem_nil
  | cons group groups =>
      intro member
      exact (List.mem_append.mp member).elim (not_mem_numeral other _)
        (not_mem_behind other notColon groups)

theorem colon_not_mem (number : Nat) : 58 ∉ numeral 16 number :=
  not_mem_numeral (by decide) number

theorem ofField_numeral (group : BitVec 16) : ofField (numeral 16 group.toNat) = some group := by
  have short : (numeral 16 group.toNat).length ≤ 4 :=
    length_numeral_le (by decide) (by decide) group.isLt
  rw [ofField, if_pos short, ofNumeral_numeral (by decide) (by decide), Option.map_some,
    BitVec.ofNat_toNat, BitVec.setWidth_eq]

theorem intercalate_numerals (group : BitVec 16) (groups : List (BitVec 16)) :
    [58].intercalate ((group :: groups).map fun group => numeral 16 group.toNat) =
      fields (group :: groups) := by
  induction groups generalizing group with
  | nil => simp [fields, behind]
  | cons next groups ih =>
      have rest := ih next
      rw [List.map_cons] at rest
      rw [List.map_cons, List.map_cons, List.intercalate_cons_cons, rest]
      simp [fields, behind]

theorem mapM_ofField (groups : List (BitVec 16)) :
    (groups.map fun group => numeral 16 group.toNat).mapM ofField = some groups := by
  induction groups with
  | nil => rfl
  | cons group groups ih => rw [List.map_cons, List.mapM_cons, ofField_numeral, ih]; rfl

/-- Groups are read as they are written. -/
theorem ofFields_fields (groups : List (BitVec 16)) : ofFields (fields groups) = some groups := by
  cases groups with
  | nil => rfl
  | cons group groups =>
      have some : fields (group :: groups) ≠ [] := fun none =>
        numeral_ne_nil 16 group.toNat (List.append_eq_nil_iff.mp none).1
      rw [ofFields, if_neg some, ← intercalate_numerals, List.splitOn_intercalate]
      · exact mapM_ofField (group :: groups)
      · intro text member
        obtain ⟨field, -, rfl⟩ := List.mem_map.mp member
        exact colon_not_mem field.toNat
      · exact List.cons_ne_nil _ _

end Fields

section Cut

variable {first : BitVec 8} {word rest before after : List (BitVec 8)}

/-- There is no `::` where a text begins with some other letter. -/
theorem cut_cons (other : first ≠ 58 ∨ rest.head? ≠ some 58) :
    cut (first :: rest) = (cut rest).map fun parts => (first :: parts.1, parts.2) := by
  rw [cut, if_neg]
  exact fun both => other.elim (fun ne => ne both.1) (fun ne => ne both.2)

theorem cut_colons (rest : List (BitVec 8)) : cut (58 :: 58 :: rest) = some ([], rest) :=
  if_pos ⟨rfl, rfl⟩

theorem cut_word (none : 58 ∉ word) (rest : List (BitVec 8)) :
    cut (word ++ rest) = (cut rest).map fun parts => (word ++ parts.1, parts.2) := by
  induction word with
  | nil => simp
  | cons letter word ih =>
      obtain ⟨other, none⟩ := List.ne_and_not_mem_of_not_mem_cons none
      rw [List.cons_append, cut_cons (.inl (Ne.symm other)), ih none, Option.map_map]
      rfl

theorem cut_behind (groups : List (BitVec 16)) (rest : List (BitVec 8)) :
    cut (behind groups ++ rest) = (cut rest).map fun parts => (behind groups ++ parts.1, parts.2) := by
  induction groups with
  | nil => simp [behind]
  | cons group groups ih =>
      have digit : (numeral 16 group.toNat ++ (behind groups ++ rest)).head? ≠ some 58 := by
        obtain ⟨letter, others, same⟩ := List.exists_cons_of_ne_nil (numeral_ne_nil 16 group.toNat)
        intro colon
        rw [same, List.cons_append, List.head?_cons, Option.some_inj] at colon
        exact colon_not_mem group.toNat (by rw [same, colon]; exact List.mem_cons_self)
      have split : behind (group :: groups) ++ rest =
          58 :: (numeral 16 group.toNat ++ (behind groups ++ rest)) := by
        simp [behind]
      rw [split, cut_cons (.inr digit), cut_word (colon_not_mem _), ih, Option.map_map,
        Option.map_map]
      simp [behind, Function.comp_def]

theorem cut_fields (groups : List (BitVec 16)) (rest : List (BitVec 8)) :
    cut (fields groups ++ rest) = (cut rest).map fun parts => (fields groups ++ parts.1, parts.2) := by
  cases groups with
  | nil => simp [fields]
  | cons group groups =>
      rw [fields, List.append_assoc, cut_word (colon_not_mem _), cut_behind, Option.map_map]
      simp [Function.comp_def]

theorem cut_fields_none (groups : List (BitVec 16)) : cut (fields groups) = none := by
  have nothing := cut_fields groups []
  rwa [List.append_nil] at nothing

/-- Neither is there one if a colon is put in front of the groups. -/
theorem cut_colon_fields (groups : List (BitVec 16)) : cut (58 :: fields groups) = none := by
  cases groups with
  | nil => rfl
  | cons group groups =>
      have nothing := cut_behind (group :: groups) []
      rw [List.append_nil] at nothing
      rw [show 58 :: fields (group :: groups) = behind (group :: groups) by simp [fields, behind],
        nothing]
      rfl

theorem cut_occurs (before after : List (BitVec 8)) :
    cut (before ++ 58 :: 58 :: after) ≠ none := by
  induction before with
  | nil => rw [List.nil_append, cut_colons]; exact Option.some_ne_none _
  | cons first before ih =>
      rw [List.cons_append, cut]
      split
      case isTrue => exact Option.some_ne_none _
      case isFalse => exact fun none => ih (Option.map_eq_none_iff.mp none)

theorem atMostOnce_of_none {text : List (BitVec 8)} (none : cut text = none) : AtMostOnce text := by
  rintro before after - - rfl
  exact absurd none (cut_occurs before after)

/-- The `::` that is found is the only one if there is none behind it. -/
theorem eq_before {text : List (BitVec 8)} (found : cut text = some (before, after))
    (last : cut (58 :: after) = none) {other behind : List (BitVec 8)}
    (same : text = other ++ 58 :: 58 :: behind) : other = before := by
  induction other generalizing text before with
  | nil =>
      rw [same, List.nil_append, cut_colons] at found
      exact (Prod.mk.inj (Option.some.inj found)).1
  | cons first other ih =>
      rw [same, List.cons_append, cut] at found
      split at found
      case isTrue colons =>
        have further : other ++ 58 :: 58 :: behind = 58 :: after := by
          obtain ⟨tail, starts⟩ := List.head?_eq_some_iff.mp colons.2
          rw [starts, List.tail_cons] at found
          rw [starts, (Prod.mk.inj (Option.some.inj found)).2]
        rw [← further] at last
        exact absurd last (cut_occurs other behind)
      case isFalse =>
        obtain ⟨parts, rest, here⟩ := Option.map_eq_some_iff.mp found
        obtain ⟨rfl, rfl⟩ := Prod.mk.inj here
        exact congrArg (first :: ·) (ih rest rfl)

theorem atMostOnce_of_some {text : List (BitVec 8)} (found : cut text = some (before, after))
    (last : cut (58 :: after) = none) : AtMostOnce text := by
  intro one _ other _ isOne isOther
  rw [eq_before found last isOne, eq_before found last isOther]

end Cut

section Texts

variable {groups left right : List (BitVec 16)} {zeros : Nat}

/-- Eight groups are read as they are. -/
theorem ofText_fields (eight : groups.length = 8) : ofText (fields groups) = some groups := by
  rw [ofText, cut_fields_none]
  simp only [ofFields_fields, Option.bind_some, eight, if_true]

theorem cut_zeros (left right : List (BitVec 16)) :
    cut (fields left ++ 58 :: 58 :: fields right) = some (fields left, fields right) := by
  rw [cut_fields, cut_colons]
  simp

/-- A `::` is read as the zeros that are missing. -/
theorem ofText_zeros (positive : 0 < zeros) (eight : left.length + zeros + right.length = 8) :
    ofText (fields left ++ 58 :: 58 :: fields right) =
      some (left ++ List.replicate zeros 0 ++ right) := by
  rw [ofText, cut_zeros]
  simp only [ofFields_fields, Option.bind_some]
  rw [if_pos (by omega), show 8 - (left.length + right.length) = zeros by omega]

end Texts

end Xten.Std.HexGroups
