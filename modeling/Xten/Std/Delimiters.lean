import Mathlib.Data.List.TakeWhile

/-!
# Delimiters

A list up to a delimiter, and what stands behind it. Either the delimiter does not occur, or its
first occurrence splits the list in one way. Pieces are joined by delimiters between them.
-/

namespace Xten.Std.Delimiters

variable {Item : Type} {delimiter item : Item} {items before after start more : List Item}

theorem absent_append (notBefore : delimiter ∉ before) (differs : delimiter ≠ item)
    (notAfter : delimiter ∉ after) : delimiter ∉ before ++ item :: after := by
  simp [notBefore, differs, notAfter]

/-- What has no delimiter and starts a list ends before the delimiter there. -/
theorem prefix_of_absent (absent : delimiter ∉ start)
    (starts : start <+: before ++ delimiter :: after) : start <+: before := by
  obtain short | ⟨rest, rfl⟩ :=
    List.prefix_or_prefix_of_prefix starts (List.prefix_append before (delimiter :: after))
  · exact short
  · rw [List.prefix_append_right_inj] at starts
    cases rest with
    | nil => exact ⟨[], by rw [List.append_nil, List.append_nil]⟩
    | cons item rest =>
        obtain ⟨rfl, -⟩ := List.cons_prefix_cons.mp starts
        exact absurd (List.mem_append_right _ List.mem_cons_self) absent

/-- What has no delimiter and is inside a list is on one side of the delimiter there. -/
theorem infix_of_absent (absent : delimiter ∉ start)
    (inside : start <:+: before ++ delimiter :: after) : start <:+: before ∨ start <:+: after := by
  induction before with
  | nil =>
      obtain starts | later := List.infix_cons_iff.mp inside
      · have none : start <+: [] := prefix_of_absent absent starts
        exact .inl none.isInfix
      · exact .inr later
  | cons item before ih =>
      obtain starts | later := List.infix_cons_iff.mp inside
      · have short : start <+: item :: before := prefix_of_absent absent starts
        exact .inl short.isInfix
      · obtain left | right := ih later
        · exact .inl (List.infix_cons left)
        · exact .inr right

/-- The pieces with one of some delimiters between any two that stand side by side. -/
inductive JoinedBy (isDelim : Item → Prop) : List (List Item) → List Item → Prop
  | last (piece : List Item) : JoinedBy isDelim [piece] piece
  | cons (piece : List Item) {delim : Item} {pieces : List (List Item)} {items : List Item}
      (chosen : isDelim delim) (rest : JoinedBy isDelim pieces items) :
      JoinedBy isDelim (piece :: pieces) (piece ++ delim :: items)

theorem JoinedBy.ne_nil {isDelim : Item → Prop} {pieces : List (List Item)}
    (joined : JoinedBy isDelim pieces items) : pieces ≠ [] := by
  cases joined <;> exact List.cons_ne_nil _ _

/-- With one delimiter there is one list to join the pieces to. -/
theorem JoinedBy.intercalate {pieces : List (List Item)}
    (joined : JoinedBy (· = delimiter) pieces items) :
    [delimiter].intercalate pieces = items := by
  induction joined with
  | last piece => exact List.intercalate_singleton
  | cons piece chosen rest ih =>
      rw [List.intercalate_cons_of_ne_nil rest.ne_nil, ih, chosen, List.append_assoc,
        List.singleton_append]

variable [DecidableEq Item]

/-- A list has no delimiter, or is split by the first one. -/
theorem absent_or_split (delimiter : Item) (items : List Item) : delimiter ∉ items ∨
    ∃ before after, delimiter ∉ before ∧ items = before ++ delimiter :: after := by
  by_cases present : delimiter ∈ items
  · obtain ⟨before, after, split, absent⟩ := List.eq_append_cons_of_mem present
    exact .inr ⟨before, after, absent, split⟩
  · exact .inl present

theorem ne_of_absent (absent : delimiter ∉ items) :
    ∀ item ∈ items, decide (item ≠ delimiter) = true := by
  intro item inside
  refine decide_eq_true fun same => absent ?_
  rwa [← same]

theorem takeWhile_absent (absent : delimiter ∉ items) :
    items.takeWhile (· ≠ delimiter) = items :=
  List.takeWhile_eq_self_iff.mpr (ne_of_absent absent)

theorem dropWhile_absent (absent : delimiter ∉ items) : items.dropWhile (· ≠ delimiter) = [] :=
  List.dropWhile_eq_nil_iff.mpr (ne_of_absent absent)

theorem takeWhile_split (absent : delimiter ∉ before) :
    (before ++ delimiter :: after).takeWhile (· ≠ delimiter) = before := by
  rw [List.takeWhile_append_of_pos (ne_of_absent absent), List.takeWhile_cons_of_neg (by simp),
    List.append_nil]

theorem dropWhile_split (absent : delimiter ∉ before) :
    (before ++ delimiter :: after).dropWhile (· ≠ delimiter) = delimiter :: after := by
  rw [List.dropWhile_append_of_pos (ne_of_absent absent), List.dropWhile_cons_of_neg (by simp)]

/-- The first delimiters of a list and of its start are one. -/
theorem prefix_of_split (absent : delimiter ∉ before) (notStart : delimiter ∉ start)
    (starts : start ++ delimiter :: more <+: before ++ delimiter :: after) :
    start = before ∧ more <+: after := by
  obtain ⟨rest, same⟩ := starts
  rw [List.append_assoc, List.cons_append] at same
  have first : start = before := by
    rw [← @takeWhile_split _ _ start (more ++ rest) _ notStart, same, takeWhile_split absent]
  rw [first] at same
  exact ⟨first, rest, (List.cons.inj (List.append_cancel_left same)).2⟩

/-- What is kept whole has no delimiter. -/
theorem absent_of_takeWhile (whole : items.takeWhile (· ≠ delimiter) = items) :
    delimiter ∉ items := fun present =>
  absurd rfl (of_decide_eq_true (List.takeWhile_eq_self_iff.mp whole delimiter present))

theorem absent_takeWhile : delimiter ∉ items.takeWhile (· ≠ delimiter) := by
  intro present
  have differs := List.mem_takeWhile_imp present
  exact absurd rfl (of_decide_eq_true differs)

theorem findIdx?_absent (absent : delimiter ∉ items) :
    items.findIdx? (· = delimiter) = none := by
  rw [List.findIdx?_eq_none_iff]
  intro item inside
  refine decide_eq_false fun same => absent ?_
  rwa [← same]

theorem findIdx?_split (absent : delimiter ∉ before) :
    (before ++ delimiter :: after).findIdx? (· = delimiter) = some before.length := by
  rw [List.findIdx?_append, findIdx?_absent absent, List.findIdx?_cons]
  simp

end Xten.Std.Delimiters
