import Mathlib.Data.List.InsertIdx
import Mathlib.Data.List.Nodup

/-!
# Ordered sets

A set with a comparator as the list of its items in their order. An iterator is the place of an
item in the list, or the length of the list for the end. As long as the list is in order, an
item that is in it is found, and one that is not gets a place of its own.
-/

namespace Xten.Std.OrderedSet

variable {Item : Type} (less : Item → Item → Bool)

/-- The first place whose item is not less. -/
def lowerBound (items : List Item) (item : Item) : Nat :=
  (items.takeWhile (less · item)).length

/-- The place of an item, none for the end. -/
def find (items : List Item) (item : Item) : Option Nat :=
  let place := lowerBound less items item
  match items[place]? with
  | some other => if less item other then none else some place
  | none => none

/-- Put an item in its place, unless there is an equal one. -/
def insert (items : List Item) (item : Item) : List Item × Nat :=
  match find less items item with
  | some place => (items, place)
  | none =>
      let place := lowerBound less items item
      (items.insertIdx place item, place)

/-- A comparator of a strict order in which any two items can be compared. -/
structure Linear : Prop where
  irrefl : ∀ item, less item item = false
  trans : ∀ one other third, less one other = true → less other third = true →
    less one third = true
  connected : ∀ one other, one ≠ other → less one other = true ∨ less other one = true

/-- The items are in their order. -/
def Ordered (items : List Item) : Prop :=
  items.Pairwise (less · · = true)

variable {less} {items before after : List Item} {item : Item}

theorem Linear.asymm (linear : Linear less) {one other : Item} (lt : less one other = true) :
    less other one = false := by
  by_contra also
  have loop := linear.trans one other one lt (eq_true_of_ne_false also)
  rw [linear.irrefl] at loop
  exact Bool.noConfusion loop

theorem Ordered.nodup (linear : Linear less) (ordered : Ordered less items) : items.Nodup :=
  ordered.imp fun lt same => by
    rw [same, linear.irrefl] at lt
    exact Bool.noConfusion lt

/-- The order depends on how the items of the set compare. -/
theorem Ordered.congr {other : Item → Item → Bool} (ordered : Ordered less items)
    (same : ∀ one ∈ items, ∀ two ∈ items, other one two = less one two) : Ordered other items :=
  List.Pairwise.imp_of_mem (fun one two lt => (same _ one _ two).trans lt) ordered

/-- Where the items cease to be less. -/
theorem lowerBound_eq (early : ∀ other ∈ before, less other item = true)
    (late : ∀ other ∈ after.head?, less other item = false) :
    lowerBound less (before ++ after) item = before.length := by
  unfold lowerBound
  rw [List.takeWhile_append_of_pos early, List.length_append]
  cases after with
  | nil => rfl
  | cons other after =>
      have none : List.takeWhile (less · item) (other :: after) = [] :=
        List.takeWhile_cons_of_neg (ne_true_of_eq_false (late other rfl))
      rw [none]
      rfl

/-- An item of the set is found in its place. -/
theorem find_of_split (linear : Linear less) (ordered : Ordered less (before ++ item :: after)) :
    find less (before ++ item :: after) item = some before.length := by
  have early : ∀ other ∈ before, less other item = true := fun other member =>
    (List.pairwise_append.mp ordered).2.2 other member item List.mem_cons_self
  have late : ∀ other ∈ (item :: after).head?, less other item = false := by
    rintro other ⟨⟩
    exact linear.irrefl item
  simp only [find, lowerBound_eq early late, List.getElem?_append_right (Nat.le_refl _),
    Nat.sub_self, List.getElem?_cons_zero, linear.irrefl, Bool.false_eq_true, if_false]

/-- The items before and behind the place for one that is not in the set. -/
theorem exists_split (linear : Linear less) (ordered : Ordered less items)
    (absent : item ∉ items) : ∃ before after, items = before ++ after ∧
      (∀ other ∈ before, less other item = true) ∧ ∀ other ∈ after, less item other = true := by
  induction items with
  | nil => exact ⟨[], [], rfl, by simp, by simp⟩
  | cons first rest ih =>
      obtain ⟨least, later⟩ := List.pairwise_cons.mp ordered
      obtain ⟨apart, missing⟩ := List.ne_and_not_mem_of_not_mem_cons absent
      obtain ⟨before, after, rfl, early, late⟩ := ih later missing
      obtain lt | lt := linear.connected first item (Ne.symm apart)
      · refine ⟨first :: before, after, rfl, ?_, late⟩
        rintro other (- | ⟨-, member⟩)
        · exact lt
        · exact early other member
      · refine ⟨[], first :: (before ++ after), rfl, by simp, fun other member => ?_⟩
        obtain rfl | member := List.mem_cons.mp member
        · exact lt
        · exact linear.trans _ _ _ lt (least other member)

theorem insertIdx_split : (before ++ after).insertIdx before.length item = before ++ item :: after := by
  induction before with
  | nil => rfl
  | cons first before ih => exact congrArg (first :: ·) ih

/-- An item that is not in the set is put in its place, and the items stay in order. -/
theorem insert_absent (linear : Linear less) (ordered : Ordered less items)
    (absent : item ∉ items) : ∃ before after, items = before ++ after ∧
      insert less items item = (before ++ item :: after, before.length) ∧
      Ordered less (before ++ item :: after) := by
  obtain ⟨before, after, rfl, early, late⟩ := exists_split linear ordered absent
  have head : ∀ other ∈ after.head?, less other item = false := fun other member =>
    linear.asymm (late other (List.mem_of_mem_head? member))
  have place := lowerBound_eq early head
  have missing : find less (before ++ after) item = none := by
    simp only [find, place, List.getElem?_append_right (Nat.le_refl _), Nat.sub_self]
    cases after with
    | nil => rfl
    | cons other after =>
        simp [late other List.mem_cons_self]
  refine ⟨before, after, rfl, ?_, ?_⟩
  · simp only [insert, missing, place, insertIdx_split]
  · obtain ⟨first, last, across⟩ := List.pairwise_append.mp ordered
    refine List.pairwise_append.mpr ⟨first, List.pairwise_cons.mpr ⟨late, last⟩, ?_⟩
    rintro one inBefore other (- | ⟨-, member⟩)
    · exact early one inBefore
    · exact across one inBefore other member

/-- Whatever holds of an item whenever it holds of a later one holds of a first part. -/
theorem Ordered.takeWhile_eq_filter {early : Item → Bool} (ordered : Ordered less items)
    (closed : ∀ one other, less one other = true → early other = true → early one = true) :
    items.takeWhile early = items.filter early := by
  induction items with
  | nil => rfl
  | cons first rest ih =>
      obtain ⟨least, later⟩ := List.pairwise_cons.mp ordered
      by_cases holds : early first = true
      · rw [List.takeWhile_cons_of_pos holds, List.filter_cons_of_pos holds, ih later]
      · have none : rest.filter early = [] := List.filter_eq_nil_iff.mpr fun other member also =>
          holds (closed first other (least other member) also)
        rw [List.takeWhile_cons_of_neg holds, List.filter_cons_of_neg holds, none]

theorem takeWhile_congr {one other : Item → Bool} (same : ∀ item ∈ items, one item = other item) :
    items.takeWhile one = items.takeWhile other := by
  induction items with
  | nil => rfl
  | cons first rest ih =>
      rw [List.takeWhile_cons, List.takeWhile_cons, same first List.mem_cons_self,
        ih fun item member => same item (List.mem_cons_of_mem _ member)]

/-- The items that are less than an item, and the next ones that pass a test. -/
theorem Ordered.take_lowerBound (linear : Linear less) (ordered : Ordered less items)
    (test : Item → Bool) :
    items.take (lowerBound less items item +
        ((items.drop (lowerBound less items item)).takeWhile test).length) =
      items.takeWhile fun other => less other item || test other := by
  unfold lowerBound
  induction items with
  | nil => rfl
  | cons first rest ih =>
      obtain ⟨least, later⟩ := List.pairwise_cons.mp ordered
      by_cases before : less first item = true
      · have either : (less first item || test first) = true := by rw [before, Bool.true_or]
        rw [List.takeWhile_cons_of_pos (p := fun other => less other item || test other) either,
          List.takeWhile_cons_of_pos (p := (less · item)) before, ← ih later, List.length_cons,
          Nat.succ_add]
        rfl
      · have behind : ∀ other ∈ first :: rest, less other item = false := by
          intro other member
          by_contra also
          obtain rfl | member := List.mem_cons.mp member
          · exact also (eq_false_of_ne_true before)
          · exact before (linear.trans _ _ _ (least other member) (eq_true_of_ne_false also))
        have same : (first :: rest).takeWhile (fun other => less other item || test other) =
            (first :: rest).takeWhile test :=
          takeWhile_congr fun other member => by rw [behind other member, Bool.false_or]
        rw [List.takeWhile_cons_of_neg (p := (less · item)) before, same, List.length_nil,
          Nat.zero_add, List.drop_zero]
        exact (List.prefix_iff_eq_take.mp (List.takeWhile_prefix test)).symm

/-- Without an item the others stay in order. -/
theorem Ordered.erase (ordered : Ordered less (before ++ item :: after)) :
    Ordered less (before ++ after) :=
  ordered.sublist ((List.sublist_cons_self item after).append_left before)

theorem eraseIdx_split : (before ++ item :: after).eraseIdx before.length = before ++ after := by
  rw [List.eraseIdx_append_of_length_le (Nat.le_refl _), Nat.sub_self]
  rfl

end Xten.Std.OrderedSet
