import Xten.Rock.Custody
import Xten.Rock.Progress

/-!
# The result of a request

Which results a resumed fiber can assemble from its context. The fields are written in
several steps by the thread that handles a response, by `innerClose` and in `doRsp`, and
read in several steps; every party has an assertion about the context that the steps of
the others keep.
-/

namespace Xten.RockStream

open Std.Interleaving

/-- One of the local outcomes, or what a response says. -/
inductive Coherent : Option Reply → BitVec 32 → List Byte → Prop where
  | timeout : Coherent none Error.timeout.code (bytesOf "timeout")
  | ioError : Coherent none Error.ioError.code (bytesOf "io_error")
  | answered (reply : Reply) :
      Coherent (some reply) reply.response.result reply.response.resultString

def RockResult.Coherent (result : RockResult) : Prop :=
  RockStream.Coherent result.response result.resultCode result.resultStr

def Ctx.Coherent (ctx : Ctx) : Prop :=
  RockStream.Coherent ctx.rsp ctx.result ctx.resultStr

/-- A fiber that has been resumed returns a result in its next step. -/
def Delivers (state : State) (result : RockResult) : Prop :=
  ∃ fiber ctx next, (state.threads fiber).woken = some ctx ∧
    step state (.exec fiber .go) = some next ∧ next.threads fiber = .returned result

/-- The test for a timeout leaves a coherent outcome. -/
structure Ctx.Judgeable (ctx : Ctx) : Prop where
  late : ctx.timed → ctx.rsp = none
  inTime : ¬ ctx.timed → ctx.Coherent

/-- No outcome has been stored. -/
structure Ctx.Fresh (ctx : Ctx) : Prop where
  rsp : ctx.rsp = none
  timed : ctx.timed = false
  scheduler : ctx.scheduler ≠ none

/-- Two contexts hold the same outcome. -/
structure Ctx.Agrees (ctx other : Ctx) : Prop where
  rsp : ctx.rsp = other.rsp
  result : ctx.result = other.result
  resultStr : ctx.resultStr = other.resultStr

/-- What a thread relies on in its context. -/
def Thread.stage (ctxs : CtxId → Ctx) : Thread → Prop
  | .storingText ctx reply => (ctxs ctx).result = reply.response.result
  | .storingRsp ctx reply => (ctxs ctx).result = reply.response.result ∧
      (ctxs ctx).resultStr = reply.response.resultString
  | .failing ctx _ _ => (ctxs ctx).result = Error.ioError.code
  | .marking ctx => (ctxs ctx).scheduler ≠ none → (ctxs ctx).rsp = none
  | .disarming ctx => (ctxs ctx).scheduler ≠ none → (ctxs ctx).rsp = none ∧ (ctxs ctx).timed
  | .loading ctx _ _ | .comparing ctx _ _ _ => (ctxs ctx).scheduler ≠ none → (ctxs ctx).Judgeable
  | .cancelling ctx _ _ | .judging ctx _ _ => (ctxs ctx).Judgeable
  | .judged ctx _ _ => (ctxs ctx).rsp = none ∧ (ctxs ctx).result = Error.timeout.code
  | .scheduling ctx _ _ => (ctxs ctx).Coherent
  | .resumedRsp ctx rsp => rsp = (ctxs ctx).rsp
  | .resumedResult ctx rsp result => rsp = (ctxs ctx).rsp ∧ result = (ctxs ctx).result
  | _ => True

/-- The assertions of all parties. -/
structure Sound (state : State) : Prop where
  held : ∀ thread, ∀ ctx ∈ (state.threads thread).holds, (state.shared.ctxs ctx).Fresh
  registered : ∀ sn ctx, (sn, ctx) ∈ state.shared.reqCtxs → (state.shared.ctxs ctx).Fresh
  stage : ∀ thread, (state.threads thread).stage state.shared.ctxs
  marking : ∀ thread other ctx, state.threads thread = .marking ctx →
    (state.threads other).decides = some ctx → (state.shared.ctxs ctx).rsp = none
  settled : ∀ ctx ∈ state.shared.scheduled, (state.shared.ctxs ctx).Coherent

section Frames

variable {state : State} {self : FiberId} {shared : Shared} {thread next : Thread} {ctx : CtxId}
  {before after : Ctx}

theorem Ctx.Agrees.coherent (agrees : Agrees after before) (coherent : before.Coherent) :
    after.Coherent := by
  obtain ⟨rsp, result, resultStr⟩ := agrees
  rwa [Ctx.Coherent, rsp, result, resultStr]

/-- Only the thread that holds a context or has its scheduler writes an outcome. -/
theorem Moves.agrees (moves : Moves self state.shared thread shared next)
    (made : ctx < state.shared.made) (unheld : ctx ∉ thread.holds)
    (unwaked : thread.wakes ≠ some ctx) :
    Ctx.Agrees (shared.ctxs ctx) (state.shared.ctxs ctx) := by
  have elsewhere : ∀ {other change}, ctx ≠ other →
      Ctx.Agrees ((state.shared.modify other change).ctxs ctx) (state.shared.ctxs ctx) := by
    intro other change apart
    rw [Shared.modify_other apart]
    exact ⟨rfl, rfl, rfl⟩
  cases moves with
  | making call =>
      rw [Shared.modify_other (Nat.ne_of_lt made)]
      exact ⟨rfl, rfl, rfl⟩
  | adding other timeout =>
      rw [Shared.addCtx_ctxs]
      exact ⟨rfl, rfl, rfl⟩
  | storingResult other reply | storingText other reply | storingRsp other reply =>
      exact elsewhere fun same => unheld (same ▸ List.mem_singleton_self _)
  | draining other rest after | failing other rest after =>
      exact elsewhere fun same => unheld (same ▸ List.mem_cons_self)
  | judging other rest after _ | judged other rest after =>
      exact elsewhere fun same => unwaked (same ▸ rfl)
  | _ =>
      first
        | exact ⟨rfl, rfl, rfl⟩
        | exact ⟨Shared.modify_field Ctx.rsp (by intro; rfl) ctx,
            Shared.modify_field Ctx.result (by intro; rfl) ctx,
            Shared.modify_field Ctx.resultStr (by intro; rfl) ctx⟩

/-- Only `onTimer` marks a context. -/
theorem Moves.timed_cases (moves : Moves self state.shared thread shared next)
    (made : ctx < state.shared.made) :
    (shared.ctxs ctx).timed = (state.shared.ctxs ctx).timed ∨
      thread = .marking ctx ∧ (shared.ctxs ctx).timed := by
  cases moves with
  | making call => exact .inl (by rw [Shared.modify_other (Nat.ne_of_lt made)])
  | adding other timeout => exact .inl (by rw [Shared.addCtx_ctxs])
  | marking other =>
      by_cases same : ctx = other
      · subst same
        exact .inr ⟨rfl, by simp⟩
      · exact .inl (by rw [Shared.modify_other same])
  | _ =>
      left
      first
        | rfl
        | exact Shared.modify_field Ctx.timed (by intro; rfl) ctx

end Frames

/-- What holds where `onTimer` disputes no context. -/
structure Settling (state : State) : Prop where
  orderly : Orderly state
  custody : Custody state
  sound : Sound state

section Others

variable {state : State} {self other : FiberId} {shared : Shared} {thread next : Thread}
  {ctx : CtxId} {action : Action}

theorem Thread.wakes_settles (wakes : thread.wakes = some ctx) : thread.settles = some ctx := by
  cases thread <;> simp_all [Thread.wakes, settles]

theorem Thread.decides_wakes (decides : thread.decides = some ctx) : thread.wakes = some ctx := by
  cases thread <;> simp_all [Thread.wakes, Thread.decides]

/-- A context that a thread holds is left alone by the others. -/
theorem Settling.held_other (settling : Settling state) (asBefore : state.threads self = thread)
    (moves : Moves self state.shared thread shared next) (apart : other ≠ self)
    (holds : ctx ∈ (state.threads other).holds) :
    Ctx.Agrees (shared.ctxs ctx) (state.shared.ctxs ctx) := by
  subst asBefore
  obtain ⟨orderly, custody, _⟩ := settling
  apply moves.agrees (orderly.known.threads other ctx (Thread.holds_mentions holds))
  · exact fun held => apart (custody.exclusive other self ctx holds held)
  · exact fun wakes => custody.settling self other ctx (Thread.wakes_settles wakes) holds

/-- A context that a thread completes keeps its outcome where it has a scheduler, or the
thread has taken it. -/
theorem Settling.settling_other (settling : Settling state) (asBefore : state.threads self = thread)
    (moves : Moves self state.shared thread shared next) (apart : other ≠ self)
    (settles : (state.threads other).settles = some ctx)
    (unspent : (shared.ctxs ctx).scheduler ≠ none ∨ (state.threads other).wakes = some ctx) :
    Ctx.Agrees (shared.ctxs ctx) (state.shared.ctxs ctx) := by
  subst asBefore
  obtain ⟨orderly, custody, _⟩ := settling
  have made := orderly.known.threads other ctx (Thread.settles_mentions settles)
  apply moves.agrees made
  · exact custody.settling other self ctx settles
  · intro wakes
    obtain present | also := unspent
    · exact present (moves.scheduler_none made (orderly.tokens.held self ctx wakes).1)
    · exact apart (orderly.tokens.exclusive other self ctx also wakes)

/-- A context that has been scheduled keeps its outcome. -/
theorem Settling.scheduled (settling : Settling state) (asBefore : state.threads self = thread)
    (moves : Moves self state.shared thread shared next) (there : ctx ∈ state.shared.scheduled) :
    Ctx.Agrees (shared.ctxs ctx) (state.shared.ctxs ctx) := by
  subst asBefore
  obtain ⟨orderly, _, sound⟩ := settling
  apply moves.agrees (orderly.known.shared.scheduled ctx there)
  · exact fun held => (sound.held self ctx held).scheduler (orderly.tokens.spent ctx there)
  · exact fun wakes => (orderly.tokens.held self ctx wakes).2 there

/-- A test for a timeout still leaves a coherent outcome after the moves of others. -/
theorem Settling.judgeable (settling : Settling state) (asBefore : state.threads self = thread)
    (moves : Moves self state.shared thread shared next) (apart : other ≠ self)
    (settles : (state.threads other).settles = some ctx)
    (unspent : (shared.ctxs ctx).scheduler ≠ none ∨ (state.threads other).decides = some ctx)
    (judgeable : (state.shared.ctxs ctx).Judgeable) : (shared.ctxs ctx).Judgeable := by
  have agrees := settling.settling_other asBefore moves apart settles
    (unspent.imp_right Thread.decides_wakes)
  subst asBefore
  obtain ⟨orderly, custody, sound⟩ := settling
  have made := orderly.known.threads other ctx (Thread.settles_mentions settles)
  obtain same | ⟨marking, timed⟩ := moves.timed_cases made
  · constructor
    · rw [same, agrees.rsp]
      exact judgeable.late
    · rw [same]
      exact fun inTime => agrees.coherent (judgeable.inTime inTime)
  · have none : (state.shared.ctxs ctx).rsp = none := by
      obtain present | decides := unspent
      · have stage := sound.stage self
        rw [marking] at stage
        exact stage fun gone => present (moves.scheduler_none made gone)
      · exact sound.marking self other ctx marking decides
    exact ⟨fun _ => agrees.rsp.trans none, fun inTime => absurd timed inTime⟩

/-- The moves of a thread keep the assertions of the others. -/
theorem Settling.stage_other (settling : Settling state) (asBefore : state.threads self = thread)
    (moves : Moves self state.shared thread shared next) (apart : other ≠ self) :
    (state.threads other).stage shared.ctxs := by
  have stage := settling.sound.stage other
  have held := fun ctx => @Settling.held_other _ _ other _ _ _ ctx settling asBefore moves apart
  have settled := fun ctx => @Settling.settling_other _ _ other _ _ _ ctx settling asBefore moves apart
  have judgeable := fun ctx => @Settling.judgeable _ _ other _ _ _ ctx settling asBefore moves apart
  have scheduled := fun ctx => @Settling.scheduled _ _ _ _ _ ctx settling asBefore moves
  have woken := settling.orderly.wakeups.woken other
  have made := settling.orderly.known.threads other
  have present : ∀ ctx < state.shared.made, (shared.ctxs ctx).scheduler ≠ none →
      (state.shared.ctxs ctx).scheduler ≠ none :=
    fun ctx isMade still gone => still (moves.scheduler_none isMade gone)
  generalize state.threads other = waiting at *
  cases waiting with
  | storingText ctx reply => exact (held ctx (List.mem_singleton_self ctx)).result.trans stage
  | storingRsp ctx reply =>
      have agrees := held ctx (List.mem_singleton_self ctx)
      exact ⟨agrees.result.trans stage.1, agrees.resultStr.trans stage.2⟩
  | failing ctx rest after => exact (held ctx List.mem_cons_self).result.trans stage
  | marking ctx =>
      intro still
      exact (settled ctx rfl (.inl still)).rsp.trans
        (stage (present ctx (made ctx (List.mem_singleton_self ctx)) still))
  | disarming ctx =>
      intro still
      have isMade := made ctx (List.mem_singleton_self ctx)
      obtain ⟨rsp, timed⟩ := stage (present ctx isMade still)
      refine ⟨(settled ctx rfl (.inl still)).rsp.trans rsp, ?_⟩
      obtain same | ⟨_, marked⟩ := moves.timed_cases isMade
      · rwa [same]
      · exact marked
  | loading ctx rest after =>
      intro still
      exact judgeable ctx rfl (.inl still) (stage (present ctx (made ctx List.mem_cons_self) still))
  | comparing ctx sche rest after =>
      intro still
      exact judgeable ctx rfl (.inl still) (stage (present ctx (made ctx List.mem_cons_self) still))
  | cancelling ctx rest after => exact judgeable ctx rfl (.inr rfl) stage
  | judging ctx rest after => exact judgeable ctx rfl (.inr rfl) stage
  | judged ctx rest after =>
      have agrees := settled ctx rfl (.inr rfl)
      exact ⟨agrees.rsp.trans stage.1, agrees.result.trans stage.2⟩
  | scheduling ctx rest after => exact (settled ctx rfl (.inr rfl)).coherent stage
  | resumedRsp ctx rsp =>
      have isRsp : rsp = (state.shared.ctxs ctx).rsp := stage
      exact isRsp.trans (scheduled ctx (woken ctx rfl)).rsp.symm
  | resumedResult ctx rsp result =>
      have agrees := scheduled ctx (woken ctx rfl)
      exact ⟨stage.1.trans agrees.rsp.symm, stage.2.trans agrees.result.symm⟩
  | _ => trivial

/-- A move establishes the assertion of the thread. -/
theorem Settling.stage_self (settling : Settling state) (undisputed : Undisputed state action)
    (acts : action.actor = some self) (asBefore : state.threads self = thread)
    (moves : Moves self state.shared thread shared next) : next.stage shared.ctxs := by
  have stage := settling.sound.stage self
  have held := settling.sound.held self
  rw [asBefore] at stage held
  cases moves with
  | resumed ctx => exact rfl
  | resumedRsp ctx rsp => exact ⟨stage, rfl⟩
  | storingResult ctx reply => simp [Thread.stage]
  | storingText ctx reply => simpa [Thread.stage] using stage
  | storingRsp ctx reply =>
      intro _
      obtain ⟨_, inTime, _⟩ := held ctx (List.mem_singleton_self ctx)
      obtain ⟨result, text⟩ := stage
      rw [Shared.modify_self]
      constructor
      · simp [inTime]
      · intro _
        simpa only [Ctx.Coherent, result, text] using Coherent.answered reply
  | erasing ctx =>
      intro present
      by_contra stored
      exact present ((undisputed self ctx acts asBefore).2 stored).1
  | marking ctx =>
      intro present
      rw [Shared.modify_self] at present ⊢
      exact ⟨stage present, rfl⟩
  | disarming ctx =>
      intro present
      rw [Shared.modify_self] at present ⊢
      obtain ⟨rsp, timed⟩ := stage present
      exact ⟨fun _ => rsp, fun inTime => absurd timed inTime⟩
  | draining ctx rest after => simp [Thread.stage]
  | failing ctx rest after =>
      intro _
      obtain ⟨noRsp, _, _⟩ := held ctx List.mem_cons_self
      have result : (state.shared.ctxs ctx).result = Error.ioError.code := stage
      rw [Shared.modify_self]
      constructor
      · exact fun _ => noRsp
      · intro _
        simpa only [Ctx.Coherent, result, noRsp] using Coherent.ioError
  | loading ctx rest after => exact stage
  | claimed ctx sche rest after same =>
      obtain ⟨late, inTime⟩ := stage (by simp [same])
      simp only [Thread.stage, Shared.modify_self]
      exact ⟨late, inTime⟩
  | cancelling ctx rest after _ =>
      obtain ⟨late, inTime⟩ := stage
      simp only [Thread.stage, Shared.modify_self]
      exact ⟨late, inTime⟩
  | timerless => exact stage
  | judging ctx rest after timed =>
      simp only [Thread.stage, Shared.modify_self]
      exact ⟨stage.late timed, trivial⟩
  | inTime ctx rest after timely => exact stage.inTime timely
  | judged ctx rest after =>
      obtain ⟨noRsp, result⟩ := stage
      simpa only [Thread.stage, Shared.modify_self, Ctx.Coherent, noRsp, result] using
        Coherent.timeout
  | drained after => cases after <;> trivial
  | _ => trivial

/-- A context in which no outcome has been stored stays so, unless its holder stores a
response or a thread completes it. -/
theorem Moves.fresh (moves : Moves self state.shared thread shared next)
    (made : ctx < state.shared.made) (fresh : (state.shared.ctxs ctx).Fresh)
    (unstored : ∀ reply, thread ≠ .storingRsp ctx reply) (unsettled : thread.settles ≠ some ctx) :
    (shared.ctxs ctx).Fresh := by
  obtain ⟨rsp, timed, scheduler⟩ := fresh
  constructor
  · rw [moves.rsp_eq made unstored, rsp]
  · obtain same | ⟨rfl, _⟩ := moves.timed_cases made
    · rw [same, timed]
    · exact absurd rfl unsettled
  · obtain same | ⟨_, sche, rest, after, rfl, _⟩ := moves.scheduler_cases made
    · rwa [same]
    · exact absurd rfl unsettled

/-- What a thread holds after a move has no outcome. -/
theorem Settling.fresh_self (settling : Settling state) (asBefore : state.threads self = thread)
    (moves : Moves self state.shared thread shared next) (holds : ctx ∈ next.holds) :
    (shared.ctxs ctx).Fresh := by
  obtain ⟨orderly, custody, sound⟩ := settling
  subst asBefore
  obtain held | ⟨rfl, call, making⟩ | ⟨sn, there, _⟩ := moves.holds holds
  · have made := orderly.known.threads self ctx (Thread.holds_mentions held)
    apply moves.fresh made (sound.held self ctx held)
    · intro reply storing
      rw [storing] at moves
      cases moves
      simp [Thread.holds] at holds
    · exact fun settles => custody.settling self self ctx settles held
  · rw [making] at moves
    cases moves
    exact ⟨by simp, by simp, by simp⟩
  · have made := orderly.known.shared.reqCtxs sn ctx there
    obtain ⟨unheld, unsettled⟩ := custody.registered sn ctx there self
    apply moves.fresh made (sound.registered sn ctx there) _ unsettled
    intro reply storing
    rw [storing] at unheld
    exact unheld (List.mem_singleton_self ctx)

/-- A context that is scheduled after a move was so before, or the thread has just
scheduled it. -/
theorem Moves.scheduled (moves : Moves self state.shared thread shared next)
    (there : ctx ∈ shared.scheduled) :
    ctx ∈ state.shared.scheduled ∨
      (∃ rest after, thread = .scheduling ctx rest after) ∧ shared.ctxs = state.shared.ctxs := by
  cases moves with
  | scheduling other rest after =>
      obtain rfl | older := List.mem_cons.mp there
      · exact .inr ⟨⟨rest, after, rfl⟩, rfl⟩
      · exact .inl older
  | adding other timeout => exact .inl (by simpa using there)
  | _ => exact .inl there

/-- A thread comes to mark a context from `erasing`, and to decide on it by taking its
scheduler. -/
theorem Moves.to_marking (moves : Moves self state.shared thread shared (.marking ctx)) :
    thread = .erasing ctx ∧ shared.ctxs = state.shared.ctxs := by
  generalize isNext : Thread.marking ctx = next at moves
  cases moves with
  | erasing other =>
      cases isNext
      exact ⟨rfl, rfl⟩
  | drained after => cases after <;> cases isNext
  | _ => cases isNext

theorem Moves.to_decide (moves : Moves self state.shared thread shared next)
    (decides : next.decides = some ctx) :
    thread.decides = some ctx ∨ (∃ sche rest after, thread = .comparing ctx sche rest after) ∧
      (state.shared.ctxs ctx).scheduler ≠ none := by
  cases moves with
  | claimed other sche rest after same =>
      cases decides
      exact .inr ⟨⟨_, rest, after, rfl⟩, by simp [same]⟩
  | cancelling | timerless => exact .inl decides
  | drained after => cases after <;> cases decides
  | _ => cases decides

theorem Settling.moved (settling : Settling state) (undisputed : Undisputed state action)
    (acts : action.actor = some self) (asBefore : state.threads self = thread)
    (moves : Moves self state.shared thread shared next) :
    Sound (state.put self shared next) := by
  have ⟨orderly, custody, sound⟩ := settling
  have heldMade := fun other ctx holds =>
    orderly.known.threads other ctx (Thread.holds_mentions holds)
  constructor
  case held =>
    intro other ctx holds
    obtain ⟨_, now⟩ | ⟨apart, now⟩ := Config.put_cases state self shared next other
    all_goals rw [now] at holds
    · exact settling.fresh_self asBefore moves holds
    · subst asBefore
      apply moves.fresh (heldMade other ctx holds) (sound.held other ctx holds)
      · intro reply storing
        apply apart (custody.exclusive other self ctx holds _)
        rw [storing]
        exact List.mem_singleton_self ctx
      · exact fun settles => custody.settling self other ctx settles holds
  case registered =>
    intro sn ctx there
    subst asBefore
    obtain older | ⟨timeout, adding, _⟩ := moves.registered there
    · obtain ⟨unheld, unsettled⟩ := custody.registered sn ctx older self
      apply moves.fresh (orderly.known.shared.reqCtxs sn ctx older)
        (sound.registered sn ctx older) _ unsettled
      intro reply storing
      rw [storing] at unheld
      exact unheld (List.mem_singleton_self ctx)
    · have held := Thread.holds_adding adding
      apply moves.fresh (heldMade self ctx held) (sound.held self ctx held)
      · intro reply storing
        rw [adding] at storing
        cases storing
      · exact fun settles => custody.settling self self ctx settles held
  case stage =>
    intro other
    obtain ⟨_, now⟩ | ⟨apart, now⟩ := Config.put_cases state self shared next other
    all_goals rw [now]
    · exact settling.stage_self undisputed acts asBefore moves
    · exact settling.stage_other asBefore moves apart
  case marking =>
    intro one other ctx marking decides
    subst asBefore
    have kept : state.threads one = .marking ctx →
        (shared.ctxs ctx).rsp = (state.shared.ctxs ctx).rsp := by
      intro before
      have settles : (state.threads one).settles = some ctx := by rw [before]; rfl
      apply moves.rsp_eq (orderly.known.threads one ctx (Thread.settles_mentions settles))
      intro reply storing
      apply custody.settling one self ctx settles
      rw [storing]
      exact List.mem_singleton_self ctx
    obtain ⟨isOne, nowOne⟩ | ⟨isNotOne, nowOne⟩ := Config.put_cases state self shared next one
    all_goals
      rw [nowOne] at marking
      obtain ⟨isOther, nowOther⟩ | ⟨isNotOther, nowOther⟩ :=
        Config.put_cases state self shared next other
      all_goals rw [nowOther] at decides
    · rw [marking] at decides
      cases decides
    · rw [marking] at moves
      obtain ⟨erasing, same⟩ := moves.to_marking
      rw [Config.put_shared, same]
      by_contra stored
      exact ((undisputed self ctx acts erasing).2 stored).2 other decides
    · rw [Config.put_shared, kept marking]
      obtain decided | ⟨_, present⟩ := moves.to_decide decides
      · exact sound.marking one self ctx marking decided
      · have stage := sound.stage one
        rw [marking] at stage
        exact stage present
    · rw [Config.put_shared, kept marking]
      exact sound.marking one other ctx marking decides
  case settled =>
    intro ctx there
    obtain older | ⟨⟨rest, after, scheduling⟩, same⟩ := moves.scheduled there
    · exact (settling.scheduled asBefore moves older).coherent (sound.settled ctx older)
    · have stage := sound.stage self
      rw [asBefore, scheduling] at stage
      rwa [Config.put_shared, same]

theorem Settling.of_initial (start : Initial state) : Settling state := by
  refine ⟨.of_initial start, .of_initial start, ?_⟩
  constructor
  all_goals
    simp [start.threads, start.reqCtxs, start.scheduled, Thread.holds, Thread.stage]

theorem Settling.step {later : State} (settling : Settling state)
    (undisputed : Undisputed state action) (taken : step state action = some later) :
    Settling later := by
  have orderly := settling.orderly.step taken
  have custody := settling.custody.step settling.orderly.known undisputed taken
  refine ⟨orderly, custody, ?_⟩
  have sound := settling.sound
  refine step_cases taken ?_ ?_ ?_
  · intro self thread shared next acts asBefore moves
    exact settling.moved undisputed acts asBefore moves
  all_goals
    intros
    exact ⟨sound.held, sound.registered, sound.stage, sound.marking, sound.settled⟩

end Others

section Results

variable {first state : State} {result : RockResult} {fiber : FiberId} {ctx : CtxId}
  {shared : Shared} {thread : Thread}

theorem Settling.of_runs (start : Initial first) (run : Runs RockStream.step Undisputed first state) :
    Settling state := by
  induction run with
  | refl => exact .of_initial start
  | tail _ undisputed taken ih => exact ih.step undisputed taken

theorem Moves.returned (moves : Moves fiber state.shared thread shared (.returned result))
    (woken : thread.woken = some ctx) :
    thread = .resumedResult ctx result.response result.resultCode ∧
      result.resultStr = (state.shared.ctxs ctx).resultStr := by
  generalize isNext : Thread.returned result = next at moves
  cases moves with
  | resumedResult other rsp code =>
      cases isNext
      cases woken
      exact ⟨rfl, rfl⟩
  | notConnected | drained => cases woken
  | _ => cases isNext

/-- A result that is delivered is read from the context, with the code and the response
that the fiber has read before. -/
theorem Delivers.read (delivers : Delivers state result) :
    ∃ fiber ctx, state.threads fiber = .resumedResult ctx result.response result.resultCode ∧
      result.resultStr = (state.shared.ctxs ctx).resultStr := by
  obtain ⟨fiber, ctx, next, woken, taken, returned⟩ := delivers
  obtain ⟨⟨shared, thread⟩, executed, rfl⟩ := Option.map_eq_some_iff.mp taken
  have moves : Moves fiber state.shared (state.threads fiber) shared thread := exec_moves executed
  rw [Config.put_self] at returned
  change thread = _ at returned
  rw [returned] at moves
  exact ⟨fiber, ctx, moves.returned woken⟩

/-- Where `onTimer` starts on no context that another thread is completing, every result
that a resumed fiber returns is coherent. -/
theorem results_coherent (start : Initial first) (run : Runs step Undisputed first state)
    (delivers : Delivers state result) : result.Coherent := by
  have settling := Settling.of_runs start run
  obtain ⟨fiber, ctx, reading, text⟩ := delivers.read
  have there : ctx ∈ state.shared.scheduled :=
    settling.orderly.wakeups.woken fiber ctx (by rw [reading]; rfl)
  have settled := settling.sound.settled ctx there
  have stage := settling.sound.stage fiber
  rw [reading] at stage
  obtain ⟨rsp, code⟩ := stage
  rw [RockResult.Coherent, rsp, code, text]
  exact settled

/-- No timer expires. -/
def untimed (state : State) (action : Action) : Bool :=
  match action.actor.map state.threads with
  | some (.erasing _) => false
  | _ => true

theorem undisputed_of_untimed {action : Action} (passes : untimed state action) :
    Undisputed state action := by
  intro self ctx acts erasing
  simp [untimed, acts, erasing] at passes

/-- The answered request, until its result has been read. -/
def readRun : List Action :=
  answeredRun ++ [.exec 2 .go, .exec 2 .go]

def resultRead : State := (replay step untimed readRun (unstarted fun _ => 0)).get (by decide)

theorem results_coherent_read : RockResult.Coherent ⟨0, some ⟨{ sn := 1 }, 0⟩, 404, bytesOf "unhandle"⟩ := by
  have run : Runs step Undisputed (unstarted fun _ => 0) resultRead :=
    .of_replay (fun _ _ => undisputed_of_untimed) (Option.some_get _).symm
  have delivers : Delivers resultRead ⟨0, some ⟨{ sn := 1 }, 0⟩, 404, bytesOf "unhandle"⟩ :=
    ⟨2, 0, (step resultRead (.exec 2 .go)).get (by decide), by decide, (Option.some_get _).symm, by decide⟩
  exact results_coherent (initial_unstarted _) run delivers

/-- A request whose timer expires when its response has been taken. -/
def disputedRun : List Action :=
  [.startRead 0, .startWrite 1, .request 2 ⟨0, 1000, 9⟩] ++
    List.replicate 8 (.exec 2 .go) ++
    [.exec 1 .go, .exec 1 (.sent true), .exec 0 (.received (.response ⟨{ sn := 1 }, 0⟩)),
      .exec 0 .go, .expire 3 0, .exec 3 .go, .exec 3 .go] ++
    List.replicate 9 (.exec 0 .go) ++ List.replicate 3 (.exec 2 .go)

def disputed : State :=
  (replay step (fun _ _ => true) disputedRun (unstarted fun _ => 0)).get (by decide)

theorem not_coherent : ¬ ∀ (first state : State) (result : RockResult), Initial first →
    Runs step (fun _ _ => True) first state → Delivers state result → result.Coherent := by
  intro claimed
  have run : Runs step (fun _ _ => True) (unstarted fun _ => 0) disputed :=
    .of_replay (fun _ _ _ => trivial) (Option.some_get _).symm
  have delivers : Delivers disputed
      ⟨0, some ⟨{ sn := 1 }, 0⟩, Error.timeout.code, bytesOf "timeout"⟩ :=
    ⟨2, 0, (step disputed (.exec 2 .go)).get (by decide), by decide, (Option.some_get _).symm,
      by decide⟩
  cases claimed _ _ _ (initial_unstarted _) run delivers

end Results

end Xten.RockStream
