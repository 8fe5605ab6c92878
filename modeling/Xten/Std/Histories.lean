import Mathlib.Data.List.Nodup
import Mathlib.Data.List.Sublists

/-!
# Histories

The order of events in a list that grows at its end. An event that never comes without another
one passes the order on to it.
-/

namespace Xten.Std.Histories

variable {Event : Type} {history later : List Event} {cause effect event first second : Event}

/-- One event comes before another. -/
def Before (history : List Event) (first second : Event) : Prop :=
  [first, second].Sublist history

instance [DecidableEq Event] : Decidable (Before history first second) :=
  inferInstanceAs (Decidable ([first, second].Sublist history))

theorem before_iff : Before history first second ↔
    ∃ earlier later, history = earlier ++ later ∧ first ∈ earlier ∧ second ∈ later := by
  simp only [Before, List.cons_sublist_iff, List.nil_sublist, and_true]
  constructor
  · rintro ⟨earlier, later, rfl, before, rest, last, rfl, inRest⟩
    exact ⟨earlier, rest ++ last, rfl, before, List.mem_append_left _ inRest⟩
  · rintro ⟨earlier, later, rfl, before, after⟩
    exact ⟨earlier, later, rfl, before, later, [], by simp, after⟩

theorem Before.mem_left (before : Before history first second) : first ∈ history :=
  before.subset List.mem_cons_self

theorem Before.mem_right (before : Before history first second) : second ∈ history :=
  before.subset (List.mem_cons_of_mem _ List.mem_cons_self)

/-- Of two events one comes before the other. -/
theorem before_or_before (inFirst : first ∈ history) (inSecond : second ∈ history)
    (apart : first ≠ second) : Before history first second ∨ Before history second first := by
  obtain ⟨earlier, later, rfl⟩ := List.append_of_mem inFirst
  obtain inEarlier | inLater := List.mem_append.mp inSecond
  · exact .inr (before_iff.mpr ⟨earlier, _, rfl, inEarlier, List.mem_cons_self⟩)
  · obtain rfl | inLater := List.mem_cons.mp inLater
    · exact absurd rfl apart
    · exact .inl (before_iff.mpr ⟨earlier ++ [first], later, by simp, by simp, inLater⟩)

/-- What is seen of two events comes in their order. -/
theorem Before.filterMap {Seen : Type} {see : Event → Option Seen} {one other : Seen}
    (before : Before history first second) (sees : see first = some one)
    (seen : see second = some other) : Before (history.filterMap see) one other := by
  have shown := List.Sublist.filterMap see before
  rwa [List.filterMap_cons_some sees, List.filterMap_cons_some seen] at shown

/-- A prefix that has the second event has the first one as well. -/
theorem Before.restrict (before : Before history first second) (unique : history.Nodup)
    (early : later <+: history) (reached : second ∈ later) : Before later first second := by
  obtain ⟨rest, rfl⟩ := early
  obtain ⟨one, other, split, inOne, inOther⟩ := before_iff.mp before
  obtain ⟨gap, rfl, rfl⟩ | ⟨gap, rfl, rfl⟩ := List.append_eq_append_iff.mp split.symm
  · refine before_iff.mpr ⟨one, gap, rfl, inOne, ?_⟩
    obtain inGap | inRest := List.mem_append.mp inOther
    · exact inGap
    · exact absurd inRest (List.disjoint_of_nodup_append unique reached)
  · exact absurd (List.mem_append_right _ inOther) (List.disjoint_of_nodup_append unique reached)

/-- An event does not come before another one has come. -/
def Preceded (history : List Event) (cause effect : Event) : Prop :=
  ∀ earlier later, history = earlier ++ effect :: later → cause ∈ earlier

theorem Preceded.nil : Preceded [] cause effect := fun _ _ split => by
  simp at split

/-- The order is kept by an event at the end, which has to be preceded as well. -/
theorem Preceded.append (preceded : Preceded history cause effect)
    (ready : event = effect → cause ∈ history) : Preceded (history ++ [event]) cause effect := by
  intro earlier later split
  rcases List.eq_nil_or_concat later with rfl | ⟨init, last, rfl⟩
  · obtain ⟨rfl, same⟩ := List.append_inj' split rfl
    exact ready (List.cons.inj same).1
  · rw [List.concat_eq_append, ← List.cons_append, ← List.append_assoc] at split
    exact preceded earlier init (List.append_inj' split rfl).1

/-- Other events may follow. -/
theorem Preceded.append_other {new : List Event} (preceded : Preceded history cause effect)
    (apart : effect ∉ new) : Preceded (history ++ new) cause effect := by
  intro earlier later split
  obtain ⟨gap, rfl, rest⟩ | ⟨gap, rfl, rest⟩ := List.append_eq_append_iff.mp split
  · exact absurd (rest ▸ List.mem_append_right _ List.mem_cons_self) apart
  · cases gap with
    | nil =>
        rw [List.nil_append] at rest
        exact absurd (rest ▸ List.mem_cons_self) apart
    | cons event gap =>
        obtain ⟨rfl, -⟩ := List.cons.inj rest
        exact preceded earlier gap rfl

theorem Preceded.before (preceded : Preceded history cause effect) (member : effect ∈ history) :
    Before history cause effect := by
  obtain ⟨earlier, later, rfl⟩ := List.append_of_mem member
  exact before_iff.mpr ⟨earlier, effect :: later, rfl, preceded _ _ rfl, List.mem_cons_self⟩

/-- What has caused an event comes before what a later one has caused. -/
theorem Before.of_causes {source target : Event} (before : Before history first second)
    (unique : history.Nodup) (caused : Preceded history source first)
    (causes : Preceded history second target) (member : target ∈ history) :
    Before history source target := by
  obtain ⟨one, other, rfl, inOne, inOther⟩ := before_iff.mp before
  obtain ⟨earlier, later, rfl⟩ := List.append_of_mem inOne
  have inEarlier : source ∈ earlier := caused earlier (later ++ other) (by simp)
  refine before_iff.mpr ⟨earlier ++ first :: later, other, rfl, ?_, ?_⟩
  · exact List.mem_append_left _ inEarlier
  · obtain inFirst | inSecond := List.mem_append.mp member
    · obtain ⟨front, back, split⟩ := List.append_of_mem inFirst
      have early : second ∈ front := causes front (back ++ other) (by simp [split])
      have again : second ∈ earlier ++ first :: later := by
        rw [split]
        exact List.mem_append_left _ early
      exact absurd inOther (List.disjoint_of_nodup_append unique again)
    · exact inSecond

section Admission

variable {admits : List Event → Event → Prop} {aside : Event → Prop}

/-- Each event is admitted by those before it. -/
def Admitted (admits : List Event → Event → Prop) (history : List Event) : Prop :=
  ∀ earlier event later, history = earlier ++ event :: later → admits earlier event

theorem Admitted.nil : Admitted admits [] := fun _ _ _ split => by
  simp at split

theorem admitted_concat :
    Admitted admits (history ++ [event]) ↔ Admitted admits history ∧ admits history event := by
  constructor
  · intro admitted
    exact ⟨fun earlier other later split =>
      admitted earlier other (later ++ [event]) (by rw [split]; simp), admitted history event [] rfl⟩
  · rintro ⟨admitted, last⟩ earlier other later split
    rcases List.eq_nil_or_concat later with rfl | ⟨init, final, rfl⟩
    · obtain ⟨rfl, same⟩ := List.append_inj' split rfl
      rw [← (List.cons.inj same).1]
      exact last
    · rw [List.concat_eq_append, ← List.cons_append, ← List.append_assoc] at split
      exact admitted earlier other init (List.append_inj' split rfl).1

/-- An event that is not admitted after another one never comes after it. -/
theorem Admitted.not_before (admitted : Admitted admits history)
    (bars : ∀ earlier, admits earlier second → first ∉ earlier) :
    ¬ Before history first second := by
  intro before
  obtain ⟨earlier, later, rfl, inEarlier, inLater⟩ := before_iff.mp before
  obtain ⟨front, back, rfl⟩ := List.append_of_mem inLater
  have absent := bars (earlier ++ front) (admitted _ _ back (by simp))
  exact absent (List.mem_append_left _ inEarlier)

/-- An event that is not admitted again comes once at most. -/
theorem Admitted.count_le_one [DecidableEq Event] (admitted : Admitted admits history)
    (bars : ∀ earlier, admits earlier event → event ∉ earlier) : history.count event ≤ 1 := by
  by_contra many
  have twice : (List.replicate 2 event).Sublist history :=
    List.replicate_sublist_iff.mpr (Nat.lt_of_not_le many)
  exact admitted.not_before bars twice

/-- Events that are admitted whatever has come of them already. -/
theorem Admitted.append {new : List Event} (admitted : Admitted admits history)
    (also : ∀ event ∈ new, ∀ earlier ⊆ history ++ new, admits earlier event) :
    Admitted admits (history ++ new) := by
  induction new using List.reverseRecOn with
  | nil => simpa using admitted
  | append_singleton new event ih =>
      rw [← List.append_assoc, admitted_concat]
      constructor
      · refine ih fun other member earlier within => ?_
        refine also other (List.mem_append_left _ member) earlier fun one inEarlier => ?_
        rw [← List.append_assoc]
        exact List.mem_append_left _ (within inEarlier)
      · refine also event (List.mem_append_right _ (List.mem_singleton_self _)) _ fun one early => ?_
        rw [← List.append_assoc]
        exact List.mem_append_left _ early

/-- A history goes on with events that are aside. -/
def Extended (aside : Event → Prop) (history later : List Event) : Prop :=
  ∃ new, later = history ++ new ∧ ∀ event ∈ new, aside event

theorem Extended.refl (history : List Event) : Extended aside history history :=
  ⟨[], (List.append_nil _).symm, by simp⟩

theorem Extended.trans {last : List Event} (first : Extended aside history later)
    (second : Extended aside later last) : Extended aside history last := by
  obtain ⟨one, rfl, free⟩ := first
  obtain ⟨other, rfl, free'⟩ := second
  refine ⟨one ++ other, List.append_assoc _ _ _, fun event member => ?_⟩
  obtain inOne | inOther := List.mem_append.mp member
  · exact free event inOne
  · exact free' event inOther

theorem Extended.one (free : aside event) : Extended aside history (history ++ [event]) :=
  ⟨[event], rfl, by simpa using free⟩

/-- An event that is not aside has come before. -/
theorem Extended.mem_iff (extended : Extended aside history later) (apart : ¬ aside event) :
    event ∈ later ↔ event ∈ history := by
  obtain ⟨new, rfl, free⟩ := extended
  rw [List.mem_append]
  exact or_iff_left fun member => apart (free event member)

theorem Extended.admitted (extended : Extended aside history later)
    (free : ∀ earlier event, aside event → admits earlier event)
    (admitted : Admitted admits history) : Admitted admits later := by
  obtain ⟨new, rfl, inNew⟩ := extended
  exact admitted.append fun event member earlier _ => free earlier event (inNew event member)

end Admission

end Xten.Std.Histories
