import Mathlib.Data.List.Infix
import Mathlib.Order.Filter.AtTopBot.Basic

/-!
# Codecs that are called again and again

A compressor or decompressor that takes, in each call, some of the input that is offered and
fills some of the room for output. A codec has one meaning: what it makes of an input that
ends there, however the input and the room are cut. Whoever calls it until it leaves room
has all that there is to come.
-/

namespace Xten.Std.StreamCodec

variable {State In Out Report : Type}

/-- What a call leaves: the input that it has not taken, its output and what it reports. -/
structure Answer (State In Out Report : Type) where
  state : State
  rest : List In
  output : List Out
  report : Report

/-- A call is told whether the input ends, and is given the input and the room for output. -/
abbrev Call (State In Out Report : Type) :=
  State → Bool → List In → Nat → Answer State In Out Report

/-- The contract of a codec: what it puts out is what its input means, and it leaves room
only when it has taken all of the input, or when nothing will ever come again. -/
structure Obeys (call : Call State In Out Report) (meaning : State → List In → List Out) :
    Prop where
  fits : ∀ state finish input room, (call state finish input room).output.length ≤ room
  /-- As long as the input goes on, whatever follows. -/
  goesOn : ∀ state input room more, meaning state (input ++ more) =
    (call state false input room).output ++
      meaning (call state false input room).state ((call state false input room).rest ++ more)
  finishes : ∀ state input room, meaning state input =
    (call state true input room).output ++
      meaning (call state true input room).state (call state true input room).rest
  drains : ∀ state finish input room, (call state finish input room).output.length < room →
    (call state finish input room).rest = [] ∧
        (finish = true → meaning (call state finish input room).state [] = []) ∨
      ∀ more, meaning (call state finish input room).state more = []

/-- One call with all of the input, and with no end of room, puts this out. -/
def RunsOnce (call : Call State In Out Report) (state : State) (input : List In)
    (output : List Out) : Prop :=
  ∀ᶠ room in Filter.atTop, (call state true input room).output = output

/-- A codec is called until it leaves room, with some room in each call: what it puts out on
the way and the state that it is in then. -/
inductive Drains (call : Call State In Out Report) (finish : Bool) :
    State → List In → List Out → State → Prop where
  | last {state : State} {input : List In} {room : Nat}
      (leaves : (call state finish input room).output.length < room) :
      Drains call finish state input (call state finish input room).output
        (call state finish input room).state
  | more {state after : State} {input : List In} {room : Nat} {output : List Out}
      (full : (call state finish input room).output.length = room)
      (again : Drains call finish (call state finish input room).state
        (call state finish input room).rest output after) :
      Drains call finish state input ((call state finish input room).output ++ output) after

/-- What does not change any more from some number on is one thing. -/
theorem eventually_unique {α : Type} {results : Nat → α} {one other : α}
    (first : ∀ᶠ count in Filter.atTop, results count = one)
    (second : ∀ᶠ count in Filter.atTop, results count = other) : one = other := by
  obtain ⟨count, here, there⟩ := (first.and second).exists
  exact here.symm.trans there

section Contract

variable {call : Call State In Out Report} {meaning : State → List In → List Out}
  {state after : State} {input : List In} {output other : List Out} {room : Nat} {finish : Bool}

theorem RunsOnce.unique (first : RunsOnce call state input output)
    (second : RunsOnce call state input other) : output = other :=
  eventually_unique first second

/-- Nothing of an input that ends there is lost in a call. -/
theorem Obeys.continues (obeys : Obeys call meaning) (state : State) (finish : Bool)
    (input : List In) (room : Nat) :
    meaning state input = (call state finish input room).output ++
      meaning (call state finish input room).state (call state finish input room).rest := by
  cases finish with
  | true => exact obeys.finishes state input room
  | false =>
      have whole := obeys.goesOn state input room []
      rwa [List.append_nil, List.append_nil] at whole

/-- A call that fills its room leaves less to come. -/
theorem Obeys.decreases (obeys : Obeys call meaning) (positive : 0 < room)
    (full : (call state finish input room).output.length = room) :
    (meaning (call state finish input room).state
      (call state finish input room).rest).length < (meaning state input).length := by
  rw [obeys.continues state finish input room, List.length_append]
  omega

/-- A call at the end of the input that leaves room has put out all there is. -/
theorem Obeys.complete (obeys : Obeys call meaning)
    (leaves : (call state true input room).output.length < room) :
    meaning state input = (call state true input room).output := by
  rw [obeys.finishes state input room]
  rcases obeys.drains state true input room leaves with ⟨taken, nothing⟩ | nothing
  · rw [taken, nothing rfl, List.append_nil]
  · rw [nothing, List.append_nil]

/-- With no end of room a codec puts out what its input means. -/
theorem Obeys.runsOnce (obeys : Obeys call meaning) (state : State) (input : List In) :
    RunsOnce call state input (meaning state input) := by
  filter_upwards [Filter.eventually_gt_atTop (meaning state input).length] with room enough
  apply Eq.symm
  apply obeys.complete
  have whole := congrArg List.length (obeys.finishes state input room)
  rw [List.length_append] at whole
  omega

/-- Where the input goes on, what is still to come is to come of what follows. -/
theorem Drains.goesOn (drains : Drains call false state input output after)
    (obeys : Obeys call meaning) (more : List In) :
    meaning state (input ++ more) = output ++ meaning after more := by
  induction drains with
  | @last state input room leaves =>
      rw [obeys.goesOn state input room more]
      rcases obeys.drains state false input room leaves with ⟨taken, -⟩ | nothing
      · rw [taken, List.nil_append]
      · rw [nothing, nothing]
  | @more state after input room output full again ih =>
      rw [obeys.goesOn state input room more, ih, List.append_assoc]

/-- Where the input ends, all has come. -/
theorem Drains.finishes (drains : Drains call true state input output after)
    (obeys : Obeys call meaning) : meaning state input = output := by
  induction drains with
  | last leaves => exact obeys.complete leaves
  | @more state after input room output full again ih =>
      rw [obeys.finishes state input room, ih]

end Contract

section Gradual

variable {produced : List In → List Out} {report : Bool → List In → Bool → Report}

/-- A codec that keeps its input and has put out so much of what the input produces. What it
reports is a matter of the input and of whether all is out. -/
def gradual (produced : List In → List Out) (report : Bool → List In → Bool → Report) :
    Call (List In × Nat) In Out Report := fun (seen, given) finish input room =>
  let all := seen ++ input
  let output := ((produced all).drop given).take room
  { state := (all, given + output.length)
    rest := []
    output := output
    report := report finish all ((produced all).length ≤ given + output.length) }

/-- What has been put out stays in front of what comes. -/
theorem gradual_split (grows : ∀ earlier later, produced earlier <+: produced (earlier ++ later))
    (all more : List In) (given room : Nat) :
    (produced (all ++ more)).drop given = ((produced all).drop given).take room ++
      (produced (all ++ more)).drop (given + (((produced all).drop given).take room).length) := by
  have front : ((produced all).drop given).take room <+: (produced (all ++ more)).drop given :=
    (List.take_prefix _ _).trans (List.IsPrefix.drop (grows all more) given)
  obtain ⟨later, whole⟩ := front
  rw [← List.drop_drop, ← whole, List.drop_left]

theorem gradual_obeys (grows : ∀ earlier later, produced earlier <+: produced (earlier ++ later)) :
    Obeys (gradual produced report) fun state more => (produced (state.1 ++ more)).drop state.2 where
  fits := fun _ _ _ _ => List.length_take_le _ _
  goesOn := by
    rintro ⟨seen, given⟩ input room more
    have split := gradual_split grows (seen ++ input) more given room
    rw [List.append_assoc] at split
    simpa only [gradual, List.nil_append, List.append_assoc] using split
  finishes := by
    rintro ⟨seen, given⟩ input room
    have split := gradual_split grows (seen ++ input) [] given room
    rw [List.append_nil] at split
    simpa only [gradual, List.append_nil] using split
  drains := by
    rintro ⟨seen, given⟩ finish input room leaves
    refine .inl ⟨rfl, fun _ => ?_⟩
    simp only [gradual, List.length_take, List.length_drop, List.append_nil] at leaves ⊢
    apply List.drop_eq_nil_of_le
    omega

end Gradual

end Xten.Std.StreamCodec
