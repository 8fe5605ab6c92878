import Xten.Rock.Steps

/-!
# A request is completed once

The pointer to the scheduler in a context is a token: `doRsp` schedules the fiber only
where it has taken the pointer away. The fiber of a context is in its `Request` until the
context is scheduled, so that no schedule is left over for a later request.
-/

namespace Xten.RockStream

open Std.Interleaving

/-- The context whose request a thread is making or waiting for. -/
def Thread.asks : Thread → Option CtxId
  | .adding ctx _ | .arming ctx _ | .armed ctx | .enqueueing ctx | .suspended ctx => some ctx
  | _ => none

/-- The context that a thread has taken the scheduler from. -/
def Thread.wakes : Thread → Option CtxId
  | .cancelling ctx _ _ | .judging ctx _ _ | .judged ctx _ _ | .scheduling ctx _ _ => some ctx
  | _ => none

/-- The context whose fiber has been resumed. -/
def Thread.woken : Thread → Option CtxId
  | .resumed ctx | .resumedRsp ctx _ | .resumedResult ctx _ _ => some ctx
  | _ => none

/-- Who may schedule a context. -/
structure Tokens (state : State) : Prop where
  spent : ∀ ctx ∈ state.shared.scheduled, (state.shared.ctxs ctx).scheduler = none
  held : ∀ thread ctx, (state.threads thread).wakes = some ctx →
    (state.shared.ctxs ctx).scheduler = none ∧ ctx ∉ state.shared.scheduled
  exclusive : state.Exclusive fun thread ctx => thread.wakes = some ctx
  nodup : state.shared.scheduled.Nodup

section Tokens

variable {state : State} {self : FiberId} {shared : Shared} {thread next : Thread} {ctx : CtxId}

theorem After.wakes_resume (after : After) : after.resume.wakes = none := by
  cases after <;> rfl

theorem Thread.wakes_mentions (wakes : thread.wakes = some ctx) : ctx ∈ thread.mentions := by
  cases thread <;> simp_all [Thread.wakes, mentions]

/-- A move that takes no scheduler and schedules nothing. -/
theorem Tokens.quiet (tokens : Tokens state) (asBefore : state.threads self = thread)
    (schedulers : ∀ ctx, (shared.ctxs ctx).scheduler = (state.shared.ctxs ctx).scheduler)
    (scheduled : shared.scheduled = state.shared.scheduled) (wakes : next.wakes = thread.wakes) :
    Tokens (state.put self shared next) := by
  subst asBefore
  have same := @Config.put_view _ _ state self shared next _ Thread.wakes wakes
  obtain ⟨spent, held, exclusive, nodup⟩ := tokens
  constructor
  · simpa only [Config.put_shared, schedulers, scheduled] using spent
  · simpa only [Config.put_shared, schedulers, scheduled, same] using held
  · simpa only [Config.Exclusive, same] using exclusive
  · simpa only [Config.put_shared, scheduled] using nodup

theorem Tokens.moved (known : Known state) (tokens : Tokens state)
    (asBefore : state.threads self = thread) (moves : Moves self state.shared thread shared next) :
    Tokens (state.put self shared next) := by
  obtain ⟨spent, held, exclusive, nodup⟩ := tokens
  cases moves with
  | making call =>
      have older : ∀ ctx < state.shared.made, ctx ≠ state.shared.made := fun _ => Nat.ne_of_lt
      constructor
      · intro ctx there
        have apart := older ctx (known.shared.scheduled ctx there)
        rw [Config.put_shared, Shared.modify_other apart]
        exact spent ctx there
      · intro other ctx wakes
        rw [Config.put_view Thread.wakes (by rw [asBefore]; rfl)] at wakes
        have apart := older ctx (known.threads other ctx (Thread.wakes_mentions wakes))
        rw [Config.put_shared, Shared.modify_other apart]
        exact held other ctx wakes
      · exact exclusive.put (fun _ shows => nomatch shows)
      · exact nodup
  | claimed ctx sche rest after same =>
      have cleared : ∀ other, (state.shared.ctxs other).scheduler = none →
          ((state.shared.modify ctx fun self => { self with scheduler := none }).ctxs
            other).scheduler = none := by
        intro other gone
        by_cases same : other = ctx
        · subst same
          rw [Shared.modify_self]
        · rwa [Shared.modify_other same]
      constructor
      · exact fun other there => cleared other (spent other there)
      · intro other taken wakes
        obtain ⟨_, now⟩ | ⟨_, now⟩ := Config.put_cases state self _ _ other
        all_goals rw [now] at wakes
        · cases wakes
          exact ⟨by simp, fun there => by simp [spent ctx there] at same⟩
        · obtain ⟨gone, unscheduled⟩ := held other taken wakes
          exact ⟨cleared taken gone, unscheduled⟩
      · apply exclusive.put
        rintro _ ⟨⟩ other _ wakes
        simp [(held other ctx wakes).1] at same
      · exact nodup
  | scheduling ctx rest after =>
      have wakes : (state.threads self).wakes = some ctx := by rw [asBefore]; rfl
      obtain ⟨gone, unscheduled⟩ := held self ctx wakes
      constructor
      · intro other there
        obtain rfl | older := List.mem_cons.mp there
        · exact gone
        · exact spent other older
      · intro other taken shows
        obtain ⟨_, now⟩ | ⟨apart, now⟩ := Config.put_cases state self _ _ other
        all_goals rw [now] at shows
        · cases shows
        · have fresh : taken ≠ ctx := fun same => apart (exclusive other self ctx (same ▸ shows) wakes)
          obtain ⟨takenGone, takenFresh⟩ := held other taken shows
          exact ⟨takenGone, List.not_mem_cons_of_ne_of_not_mem fresh takenFresh⟩
      · exact exclusive.put (fun _ shows => nomatch shows)
      · exact nodup.cons unscheduled
  | adding ctx timeout =>
      refine quiet ⟨spent, held, exclusive, nodup⟩ asBefore ?_ ?_ rfl
      all_goals simp
  | absent ctx rest after gone =>
      refine quiet ⟨spent, held, exclusive, nodup⟩ asBefore (fun other => ?_) rfl rfl
      by_cases same : other = ctx
      · subst same
        simp [gone]
      · rw [Shared.modify_other same]
  | drained after => exact quiet ⟨spent, held, exclusive, nodup⟩ asBefore (fun _ => rfl) rfl after.wakes_resume
  | _ =>
      refine quiet ⟨spent, held, exclusive, nodup⟩ asBefore ?_ rfl rfl
      first
        | exact fun _ => rfl
        | exact Shared.modify_field Ctx.scheduler fun _ => rfl

end Tokens

/-- Whose fibers may be resumed, and which have been. -/
structure Wakeups (state : State) : Prop where
  waiting : ∀ ctx < state.shared.made, ctx ∉ state.shared.scheduled →
    (state.threads (state.shared.ctxs ctx).fiber).asks = some ctx
  ready : ∀ fiber ∈ state.shared.ready, ∃ ctx ∈ state.shared.scheduled,
    (state.threads fiber).asks = some ctx
  readyNodup : state.shared.ready.Nodup
  woken : ∀ fiber ctx, (state.threads fiber).woken = some ctx → ctx ∈ state.shared.scheduled

section Wakeups

variable {state : State} {self : FiberId} {shared : Shared} {thread next : Thread} {ctx : CtxId}

theorem After.asks_resume (after : After) : after.resume.asks = none := by
  cases after <;> rfl

theorem After.woken_resume (after : After) : after.resume.woken = none := by
  cases after <;> rfl

/-- A move that makes, schedules and resumes nothing. -/
theorem Wakeups.quiet (wakeups : Wakeups state) (asBefore : state.threads self = thread)
    (fibers : ∀ ctx, (shared.ctxs ctx).fiber = (state.shared.ctxs ctx).fiber)
    (made : shared.made = state.shared.made) (scheduled : shared.scheduled = state.shared.scheduled)
    (ready : shared.ready = state.shared.ready) (asks : next.asks = thread.asks)
    (woken : ∀ ctx, next.woken = some ctx → thread.woken = some ctx) :
    Wakeups (state.put self shared next) := by
  subst asBefore
  have same := @Config.put_view _ _ state self shared next _ Thread.asks asks
  constructor
  · simpa only [Config.put_shared, fibers, made, scheduled, same] using wakeups.waiting
  · simpa only [Config.put_shared, ready, scheduled, same] using wakeups.ready
  · simpa only [Config.put_shared, ready] using wakeups.readyNodup
  · intro fiber ctx shows
    rw [Config.put_shared, scheduled]
    obtain ⟨rfl, now⟩ | ⟨_, now⟩ := Config.put_cases state self shared next fiber
    all_goals rw [now] at shows
    · exact wakeups.woken fiber ctx (woken ctx shows)
    · exact wakeups.woken fiber ctx shows

theorem Wakeups.moved (known : Known state) (tokens : Tokens state) (wakeups : Wakeups state)
    (asBefore : state.threads self = thread) (moves : Moves self state.shared thread shared next) :
    Wakeups (state.put self shared next) := by
  cases moves with
  | making call =>
      have elsewhere : ∀ fiber ctx, (state.threads fiber).asks = some ctx → fiber ≠ self := by
        rintro fiber ctx asks rfl
        rw [asBefore] at asks
        cases asks
      constructor
      · intro ctx isMade fresh
        by_cases new : ctx = state.shared.made
        · subst new
          simp [Thread.asks]
        · have older : ctx < state.shared.made := Nat.lt_of_le_of_ne (Nat.le_of_lt_succ isMade) new
          have asks := wakeups.waiting ctx older fresh
          rw [Config.put_shared, Shared.modify_other new, Config.put_other (elsewhere _ _ asks)]
          exact asks
      · intro fiber waits
        obtain ⟨ctx, there, asks⟩ := wakeups.ready fiber waits
        exact ⟨ctx, there, by rwa [Config.put_other (elsewhere _ _ asks)]⟩
      · exact wakeups.readyNodup
      · intro fiber ctx
        rw [Config.put_view Thread.woken (by rw [asBefore]; rfl)]
        exact wakeups.woken fiber ctx
  | suspended ctx waits =>
      obtain ⟨own, there, asks⟩ := wakeups.ready self waits
      obtain rfl : ctx = own := by simpa [asBefore, Thread.asks] using asks
      constructor
      · intro other isMade fresh
        have asks := wakeups.waiting other isMade fresh
        have apart : (state.shared.ctxs other).fiber ≠ self := by
          intro same
          rw [same, asBefore] at asks
          cases asks
          exact fresh there
        rwa [Config.put_shared, Config.put_other apart]
      · intro fiber waits
        have apart : fiber ≠ self := fun same =>
          List.Nodup.not_mem_erase wakeups.readyNodup (same ▸ waits)
        rw [Config.put_other apart]
        exact wakeups.ready fiber (List.mem_of_mem_erase waits)
      · exact wakeups.readyNodup.erase self
      · intro fiber other shows
        obtain ⟨_, now⟩ | ⟨_, now⟩ := Config.put_cases state self _ _ fiber
        all_goals rw [now] at shows
        · cases shows
          exact there
        · exact wakeups.woken fiber other shows
  | scheduling ctx rest after =>
      have wakes : (state.threads self).wakes = some ctx := by rw [asBefore]; rfl
      have isMade := known.threads self ctx (Thread.wakes_mentions wakes)
      have fresh := (tokens.held self ctx wakes).2
      constructor
      · intro other otherMade otherFresh
        rw [Config.put_view Thread.asks (by rw [asBefore]; rfl)]
        exact wakeups.waiting other otherMade (List.not_mem_of_not_mem_cons otherFresh)
      · intro fiber waits
        rw [Config.put_view Thread.asks (by rw [asBefore]; rfl)]
        obtain rfl | waited := List.mem_cons.mp waits
        · exact ⟨ctx, List.mem_cons_self, wakeups.waiting ctx isMade fresh⟩
        · obtain ⟨other, there, asks⟩ := wakeups.ready fiber waited
          exact ⟨other, List.mem_cons_of_mem ctx there, asks⟩
      · apply wakeups.readyNodup.cons
        intro waited
        obtain ⟨other, there, asks⟩ := wakeups.ready _ waited
        rw [wakeups.waiting ctx isMade fresh] at asks
        cases asks
        exact fresh there
      · intro fiber other
        rw [Config.put_view Thread.woken (by rw [asBefore]; rfl)]
        exact fun shows => List.mem_cons_of_mem ctx (wakeups.woken fiber other shows)
  | adding ctx timeout =>
      refine wakeups.quiet asBefore ?_ ?_ ?_ ?_ rfl fun _ => id
      all_goals simp
  | drained after =>
      refine wakeups.quiet asBefore (fun _ => rfl) rfl rfl rfl after.asks_resume ?_
      simp [After.woken_resume]
  | _ =>
      refine wakeups.quiet asBefore ?_ rfl rfl rfl rfl ?_
      · first
          | exact fun _ => rfl
          | exact Shared.modify_field Ctx.fiber fun _ => rfl
      · first
          | exact fun _ => id
          | exact fun _ shows => nomatch shows

end Wakeups

/-- What holds of the completion of requests wherever a run gets to. -/
structure Orderly (state : State) : Prop where
  known : Known state
  tokens : Tokens state
  wakeups : Wakeups state

section Runs

variable {first state later : State} {action : Action} {allowed : State → Action → Prop}
  {ctx : CtxId}

theorem Orderly.of_initial (start : Initial state) : Orderly state := by
  refine ⟨.of_initial start, ?_, ?_⟩
  · constructor <;> simp [Config.Exclusive, start.scheduled, start.threads, Thread.wakes]
  · constructor <;> simp [start.made, start.ready, start.threads, Thread.woken]

theorem Orderly.step (orderly : Orderly state) (taken : step state action = some later) :
    Orderly later := by
  have known := orderly.known.step taken
  obtain ⟨before, tokens, wakeups⟩ := orderly
  suffices kept : Tokens later ∧ Wakeups later from ⟨known, kept.1, kept.2⟩
  refine step_cases taken ?_ ?_ ?_
  · intro self thread shared next _ asBefore moves
    exact ⟨tokens.moved before asBefore moves, wakeups.moved before tokens asBefore moves⟩
  · exact ⟨⟨tokens.spent, tokens.held, tokens.exclusive, tokens.nodup⟩,
      ⟨wakeups.waiting, wakeups.ready, wakeups.readyNodup, wakeups.woken⟩⟩
  · intro _
    exact ⟨⟨tokens.spent, tokens.held, tokens.exclusive, tokens.nodup⟩,
      ⟨wakeups.waiting, wakeups.ready, wakeups.readyNodup, wakeups.woken⟩⟩

theorem Orderly.run (orderly : Orderly state) (run : Runs RockStream.step allowed state later) :
    Orderly later :=
  run.invariant (fun _ _ _ before _ taken => before.step taken) orderly

/-- A context that has been scheduled stays recorded. -/
theorem scheduled_step (taken : step state action = some later)
    (there : ctx ∈ state.shared.scheduled) : ctx ∈ later.shared.scheduled := by
  refine step_cases taken ?_ there fun _ => there
  intro self thread shared next _ _ moves
  cases moves with
  | adding other timeout =>
      rw [Config.put_shared, Shared.addCtx_scheduled]
      exact there
  | scheduling other rest after => exact List.mem_cons_of_mem other there
  | _ => exact there

theorem scheduled_run (run : Runs step allowed state later)
    (there : ctx ∈ state.shared.scheduled) : ctx ∈ later.shared.scheduled := by
  induction run with
  | refl => exact there
  | tail _ _ next ih => exact scheduled_step next ih

/-- However responses, timeouts and closes are interleaved, each context is scheduled at
most once, and from when its fiber has been resumed no thread is about to schedule it. -/
theorem scheduled_once (start : Initial first) (run : Runs step (fun _ _ => True) first state) :
    (∀ ctx, state.shared.scheduled.count ctx ≤ 1) ∧
      ∀ fiber ctx, (state.threads fiber).woken = some ctx →
        ∀ later, Runs step (fun _ _ => True) state later →
          later.shared.scheduled.count ctx = 1 ∧
            ∀ thread, (later.threads thread).wakes ≠ some ctx := by
  have orderly : Orderly state := (Orderly.of_initial start).run run
  refine ⟨List.nodup_iff_count_le_one.mp orderly.tokens.nodup, ?_⟩
  intro fiber ctx woken later further
  have there := scheduled_run further (orderly.wakeups.woken fiber ctx woken)
  have orderlyLater := orderly.run further
  refine ⟨List.count_eq_one_of_mem orderlyLater.tokens.nodup there, ?_⟩
  intro thread wakes
  exact (orderlyLater.tokens.held thread ctx wakes).2 there

/-- A request that is sent, answered and resumed. -/
def answeredRun : List Action :=
  [.startRead 0, .startWrite 1, .request 2 ⟨0, 1000, 9⟩] ++
    List.replicate 8 (.exec 2 .go) ++
    [.exec 1 .go, .exec 1 (.sent true), .exec 0 (.received (.response ⟨{ sn := 1 }, 0⟩))] ++
    List.replicate 9 (.exec 0 .go) ++ [.exec 2 .go]

/-- The state in which the answered request has been resumed. -/
def answered : State :=
  (replay step (fun _ _ => true) answeredRun (unstarted fun _ => 0)).get (by decide)

theorem scheduled_once_answered :
    answered.threads 2 = .resumed 0 ∧ answered.shared.scheduled.count 0 = 1 := by
  have resumed : answered.threads 2 = .resumed 0 := by decide
  have run : Runs step (fun _ _ => True) (unstarted fun _ => 0) answered :=
    .of_replay (fun _ _ _ => trivial) (Option.some_get _).symm
  have once := scheduled_once (initial_unstarted _) run
  exact ⟨resumed, (once.2 2 0 (by rw [resumed]; rfl) answered (.refl _)).1⟩

end Runs

end Xten.RockStream
