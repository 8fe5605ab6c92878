import Xten.Rock.Completion

/-!
# A completion under way is not given up

A thread that has taken a context to complete it either schedules the fiber or finds that
another thread has taken the scheduler. So a context that has been taken is in the hands
of some thread until it has been scheduled.
-/

namespace Xten.RockStream

open Std.Interleaving

/-- The contexts that a thread has taken to complete them. -/
def Thread.handles : Thread → List CtxId
  | .storingResult ctx _ | .storingText ctx _ | .storingRsp ctx _ | .marking ctx
  | .disarming ctx => [ctx]
  | .clearing rest _ | .draining rest _ => rest
  | .failing ctx rest _ | .loading ctx rest _ | .comparing ctx _ rest _ | .cancelling ctx rest _
  | .judging ctx rest _ | .judged ctx rest _ | .scheduling ctx rest _ => ctx :: rest
  | _ => []

/-- A context is being completed, or has been. -/
def Completing (state : State) (ctx : CtxId) : Prop :=
  ctx ∈ state.shared.scheduled ∨ ∃ thread, ctx ∈ (state.threads thread).handles

/-- Where the scheduler of a context went that no longer has one. -/
structure Driven (state : State) : Prop where
  taken : ∀ ctx < state.shared.made, (state.shared.ctxs ctx).scheduler = none →
    ctx ∈ state.shared.scheduled ∨ ∃ thread, (state.threads thread).wakes = some ctx
  compared : ∀ thread ctx sche rest after, state.threads thread = .comparing ctx sche rest after →
    (state.shared.ctxs ctx).scheduler = sche ∨ (state.shared.ctxs ctx).scheduler = none

section Driven

variable {first state later : State} {action : Action} {allowed : State → Action → Prop}
  {self : FiberId} {shared : Shared} {thread next : Thread} {ctx : CtxId}

theorem Thread.wakes_handles (wakes : thread.wakes = some ctx) : ctx ∈ thread.handles := by
  cases thread <;> simp_all [Thread.wakes, handles]

/-- A scheduler is the same after a move, unless the move makes the context or takes the
scheduler from it. -/
theorem Moves.scheduler_cases (moves : Moves self state.shared thread shared next)
    (made : ctx < state.shared.made) :
    (shared.ctxs ctx).scheduler = (state.shared.ctxs ctx).scheduler ∨
      (shared.ctxs ctx).scheduler = none ∧
        ∃ sche rest after, thread = .comparing ctx (some sche) rest after ∧
          next.wakes = some ctx := by
  cases moves with
  | making call =>
      have apart : ctx ≠ state.shared.made := Nat.ne_of_lt made
      exact .inl (by simp only [Shared.modify_other apart])
  | claimed other sche rest after _ =>
      by_cases same : ctx = other
      · subst same
        exact .inr ⟨by simp, sche, rest, after, rfl, rfl⟩
      · exact .inl (by rw [Shared.modify_other same])
  | absent other _ _ gone =>
      left
      by_cases same : ctx = other
      · subst same
        rw [Shared.modify_self, gone]
      · rw [Shared.modify_other same]
  | adding other timeout => exact .inl (by rw [Shared.addCtx_ctxs])
  | _ =>
      left
      first
        | rfl
        | exact Shared.modify_field Ctx.scheduler (by intro; rfl) ctx

theorem Moves.scheduler_none (moves : Moves self state.shared thread shared next)
    (made : ctx < state.shared.made) (gone : (state.shared.ctxs ctx).scheduler = none) :
    (shared.ctxs ctx).scheduler = none := by
  obtain same | ⟨none, _⟩ := moves.scheduler_cases made
  · rw [same, gone]
  · exact none

/-- A thread that has taken a scheduler keeps it until it schedules the fiber. -/
theorem Moves.wakes (moves : Moves self state.shared thread shared next)
    (wakes : thread.wakes = some ctx) : next.wakes = some ctx ∨ ctx ∈ shared.scheduled := by
  cases moves with
  | scheduling other rest after =>
      cases wakes
      exact .inr List.mem_cons_self
  | cancelling | timerless | judging | inTime | judged => exact .inl wakes
  | _ => cases wakes

theorem Driven.moved (orderly : Orderly state) (driven : Driven state)
    (asBefore : state.threads self = thread) (moves : Moves self state.shared thread shared next)
    (more : ∀ ctx ∈ state.shared.scheduled, ctx ∈ shared.scheduled) :
    Driven (state.put self shared next) := by
  have reaches : ∀ ctx, next.wakes = some ctx →
      ∃ other, ((state.put self shared next).threads other).wakes = some ctx :=
    fun ctx wakes => ⟨self, by rwa [Config.put_self]⟩
  constructor
  · intro ctx isMade gone
    obtain older | ⟨rfl, call, making⟩ := moves.made_cases isMade
    · obtain same | ⟨_, sche, rest, after, _, wakes⟩ := moves.scheduler_cases older
      · obtain there | ⟨other, wakes⟩ := driven.taken ctx older (same ▸ gone)
        · exact .inl (more ctx there)
        · obtain ⟨isSelf, _⟩ | ⟨_, now⟩ := Config.put_cases state self shared next other
          · rw [isSelf, asBefore] at wakes
            obtain still | there := moves.wakes wakes
            · exact .inr (reaches ctx still)
            · exact .inl there
          · exact .inr ⟨other, by rwa [now]⟩
      · exact .inr (reaches ctx wakes)
    · rw [making] at moves
      cases moves
      simp at gone
  · intro other ctx sche rest after comparing
    obtain ⟨_, now⟩ | ⟨_, now⟩ := Config.put_cases state self shared next other
    all_goals rw [now] at comparing
    · cases moves with
      | loading _ _ _ =>
          cases comparing
          exact .inl rfl
      | drained after => cases after <;> cases comparing
      | _ => cases comparing
    · have older : ctx < state.shared.made :=
        orderly.known.threads other ctx (by rw [comparing]; exact List.mem_cons_self)
      obtain same | ⟨gone, _⟩ := moves.scheduler_cases older
      · rw [Config.put_shared, same]
        exact driven.compared other ctx sche rest after comparing
      · exact .inr gone

theorem Driven.of_initial (start : Initial state) : Driven state := by
  constructor
  · simp [start.made]
  · simp [start.threads]

theorem Driven.step (orderly : Orderly state) (driven : Driven state)
    (taken : step state action = some later) : Driven later := by
  have more : ∀ ctx ∈ state.shared.scheduled, ctx ∈ later.shared.scheduled :=
    fun _ => scheduled_step taken
  revert more
  refine step_cases taken ?_ ?_ ?_
  · intro self thread shared next _ asBefore moves more
    exact driven.moved orderly asBefore moves more
  · exact fun _ => ⟨driven.taken, driven.compared⟩
  · exact fun _ _ => ⟨driven.taken, driven.compared⟩

theorem Driven.of_runs (start : Initial first) (run : Runs RockStream.step allowed first state) :
    Orderly state ∧ Driven state := by
  induction run with
  | refl => exact ⟨.of_initial start, .of_initial start⟩
  | tail _ _ taken ih => exact ⟨ih.1.step taken, ih.2.step ih.1 taken⟩

end Driven

section Completing

variable {state later : State} {action : Action} {self : FiberId} {shared : Shared}
  {thread next : Thread} {ctx : CtxId}

/-- A thread lets a context go where it has scheduled it, or has found no scheduler. -/
theorem Moves.handles (moves : Moves self state.shared thread shared next)
    (handles : ctx ∈ thread.handles) :
    ctx ∈ next.handles ∨ ctx ∈ shared.scheduled ∨
      ∃ sche rest after, thread = .comparing ctx sche rest after ∧
        ((state.shared.ctxs ctx).scheduler = none ∨ (state.shared.ctxs ctx).scheduler ≠ sche) := by
  cases moves with
  | scheduling other rest after =>
      obtain rfl | later := List.mem_cons.mp handles
      · exact .inr (.inl List.mem_cons_self)
      · exact .inl later
  | absent other rest after gone =>
      obtain rfl | later := List.mem_cons.mp handles
      · exact .inr (.inr ⟨_, rest, after, rfl, .inl gone⟩)
      · exact .inl later
  | lost other sche rest after changed =>
      obtain rfl | later := List.mem_cons.mp handles
      · exact .inr (.inr ⟨_, rest, after, rfl, .inr changed⟩)
      · exact .inl later
  | _ => exact .inl (by simp_all [Thread.handles])

theorem Completing.step (orderly : Orderly state) (driven : Driven state)
    (taken : step state action = some later) (completing : Completing state ctx) :
    Completing later ctx := by
  obtain there | ⟨other, handles⟩ := completing
  · exact .inl (scheduled_step taken there)
  have more : ctx ∈ state.shared.scheduled → ctx ∈ later.shared.scheduled := scheduled_step taken
  revert more
  refine step_cases taken ?_ ?_ ?_
  · intro self thread shared next _ asBefore moves more
    obtain ⟨rfl, now⟩ | ⟨_, now⟩ := Config.put_cases state self shared next other
    · subst asBefore
      obtain still | there | ⟨sche, rest, after, comparing, undecided⟩ := moves.handles handles
      · exact .inr ⟨other, by rwa [now]⟩
      · exact .inl there
      · have gone : (state.shared.ctxs ctx).scheduler = none :=
          (driven.compared other ctx sche rest after comparing).elim
            (fun same => undecided.elim id (absurd same)) id
        have isMade : ctx < state.shared.made :=
          orderly.known.threads other ctx (by rw [comparing]; exact List.mem_cons_self)
        obtain there | ⟨winner, wakes⟩ := driven.taken ctx isMade gone
        · exact .inl (more there)
        · have apart : winner ≠ other := by
            rintro rfl
            rw [comparing] at wakes
            cases wakes
          exact .inr ⟨winner, by rw [Config.put_other apart]; exact Thread.wakes_handles wakes⟩
    · exact .inr ⟨other, by rwa [now]⟩
  · exact fun _ => .inr ⟨other, handles⟩
  · exact fun _ _ => .inr ⟨other, handles⟩

end Completing

end Xten.RockStream
