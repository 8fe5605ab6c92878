import Mathlib.Computability.StateTransition

/-!
# Rounds that do not end

A loop is a step function that gives nothing at the end. It never gets there from a state from
which it always gets round to another such state.
-/

namespace Xten.Std.Rounds

open StateTransition

variable {State : Type} {step : State → Option State}

/-- What always gets round again does not end. -/
theorem not_dom_of_rounds {standing : State → Prop}
    (rounds : ∀ state, standing state → ∃ next, Reaches₁ step state next ∧ standing next)
    {start : State} (stands : standing start) : ¬ (eval step start).Dom := by
  intro dom
  obtain ⟨last, ends⟩ := Part.dom_iff_mem.mp dom
  have never : ¬ ∃ state, Reaches step start state ∧ standing state := by
    refine evalInduction ends fun here _ ih => ?_
    rintro ⟨state, reaches, stands⟩
    obtain rfl | ⟨next, one, later⟩ := Relation.ReflTransGen.cases_head reaches
    · obtain ⟨again, round, stands⟩ := rounds _ stands
      obtain ⟨next, one, later⟩ := Relation.TransGen.head'_iff.mp round
      exact ih next one ⟨again, later, stands⟩
    · exact ih next one ⟨state, later, stands⟩
  exact never ⟨start, .refl, stands⟩

/-- A loop ends where it ends after its first round. -/
theorem mem_eval_of_step {here next last : State} (one : step here = some next)
    (ends : last ∈ eval step next) : last ∈ eval step here := by
  have same : eval step here = eval step next := reaches_eval (.single one)
  rwa [same]

/-- A loop that does nothing has ended. -/
theorem mem_eval_of_none {last : State} (none : step last = .none) : last ∈ eval step last :=
  mem_eval.mpr ⟨.refl, none⟩

end Xten.Std.Rounds
