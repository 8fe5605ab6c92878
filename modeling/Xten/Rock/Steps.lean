import Xten.Rock.Requests

/-!
# What a step can do

Every step of a stream and its callers, once and with its guards: a thread moves, or the
connection or the network changes by itself. The invariants of the requests go through
this list of moves, and never unfold `exec` or `step`.
-/

namespace Xten.RockStream

open Std.Interleaving

section Contexts

variable {shared : Shared} {ctx other : CtxId} {change : Ctx → Ctx}

@[simp] theorem Shared.modify_self : (shared.modify ctx change).ctxs ctx = change (shared.ctxs ctx) :=
  if_pos rfl

theorem Shared.modify_other (apart : other ≠ ctx) :
    (shared.modify ctx change).ctxs other = shared.ctxs other :=
  if_neg apart

/-- A field that a change leaves alone is the same in every context. -/
theorem Shared.modify_field {Value : Type} (field : Ctx → Value)
    (kept : ∀ ctx, field (change ctx) = field ctx) (other : CtxId) :
    field ((shared.modify ctx change).ctxs other) = field (shared.ctxs other) := by
  by_cases same : other = ctx
  · subst same
    rw [modify_self]
    exact kept _
  · rw [modify_other same]

/-- `addCtx` changes the map and nothing else. -/
theorem Shared.addCtx_eq (shared : Shared) (ctx : CtxId) :
    shared.addCtx ctx = { shared with reqCtxs := (shared.addCtx ctx).reqCtxs } := by
  rw [addCtx]
  split <;> rfl

@[simp] theorem Shared.addCtx_made : (shared.addCtx ctx).made = shared.made := by
  rw [addCtx_eq]

@[simp] theorem Shared.addCtx_ctxs : (shared.addCtx ctx).ctxs = shared.ctxs := by
  rw [addCtx_eq]

@[simp] theorem Shared.addCtx_scheduled : (shared.addCtx ctx).scheduled = shared.scheduled := by
  rw [addCtx_eq]

@[simp] theorem Shared.addCtx_timers : (shared.addCtx ctx).timers = shared.timers := by
  rw [addCtx_eq]

@[simp] theorem Shared.addCtx_sendCtxQue : (shared.addCtx ctx).sendCtxQue = shared.sendCtxQue := by
  rw [addCtx_eq]

@[simp] theorem Shared.addCtx_sent : (shared.addCtx ctx).sent = shared.sent := by
  rw [addCtx_eq]

@[simp] theorem Shared.addCtx_requests : (shared.addCtx ctx).requests = shared.requests := by
  rw [addCtx_eq]

@[simp] theorem Shared.addCtx_erased : (shared.addCtx ctx).erased = shared.erased := by
  rw [addCtx_eq]

@[simp] theorem Shared.addCtx_ready : (shared.addCtx ctx).ready = shared.ready := by
  rw [addCtx_eq]

end Contexts

/-- A thread moves. -/
inductive Moves (self : FiberId) (shared : Shared) : Thread → Shared → Thread → Prop where
  | request (call : Call) : Moves self shared .idle shared (.requesting call)
  | again (result : RockResult) (call : Call) :
      Moves self shared (.returned result) shared (.requesting call)
  | expire (ctx : CtxId) (running : ctx ∈ shared.timers) :
      Moves self shared .idle (shared.stopTimer ctx) (.erasing ctx)
  | startRead : Moves self shared .idle { shared with connected := true } .receiving
  | startWrite : Moves self shared .idle shared .writing
  | connected (call : Call) (up : shared.connected) :
      Moves self shared (.requesting call) shared (.testing call)
  | notConnected (call : Call) (down : ¬ shared.connected) :
      Moves self shared (.requesting call) shared
        (.returned ⟨call.req, none, Error.notConnect.code, bytesOf "not_connect"⟩)
  | unnumbered (call : Call) (zero : shared.requests call.req = 0) :
      Moves self shared (.testing call) shared (.numbering call)
  | numbered (call : Call) (preset : shared.requests call.req ≠ 0) :
      Moves self shared (.testing call) shared (.making call)
  | numbering (call : Call) :
      Moves self shared (.numbering call)
        { shared with
          sn := shared.sn + 1
          requests := fun req => if req = call.req then shared.sn + 1 else shared.requests req }
        (.making call)
  | making (call : Call) :
      Moves self shared (.making call)
        { shared.modify shared.made fun _ => {
            req := call.req
            sn := shared.requests call.req
            fiber := self
            scheduler := some call.scheduler } with
          made := shared.made + 1 }
        (.adding shared.made call.timeout)
  | adding (ctx : CtxId) (timeout : BitVec 64) :
      Moves self shared (.adding ctx timeout) (shared.addCtx ctx) (.arming ctx timeout)
  | arming (ctx : CtxId) (timeout : BitVec 64) (limited : 0 < timeout) :
      Moves self shared (.arming ctx timeout) { shared with timers := ctx :: shared.timers }
        (.armed ctx)
  | unlimited (ctx : CtxId) (timeout : BitVec 64) (never : ¬ 0 < timeout) :
      Moves self shared (.arming ctx timeout) shared (.enqueueing ctx)
  | armed (ctx : CtxId) :
      Moves self shared (.armed ctx) (shared.modify ctx fun self => { self with timer := true })
        (.enqueueing ctx)
  | enqueueing (ctx : CtxId) :
      Moves self shared (.enqueueing ctx)
        { shared with sendCtxQue := shared.sendCtxQue ++ [ctx] } (.suspended ctx)
  | suspended (ctx : CtxId) (ready : self ∈ shared.ready) :
      Moves self shared (.suspended ctx) { shared with ready := shared.ready.erase self }
        (.resumed ctx)
  | resumed (ctx : CtxId) :
      Moves self shared (.resumed ctx) shared (.resumedRsp ctx (shared.ctxs ctx).rsp)
  | resumedRsp (ctx : CtxId) (rsp : Option Reply) :
      Moves self shared (.resumedRsp ctx rsp) shared
        (.resumedResult ctx rsp (shared.ctxs ctx).result)
  | resumedResult (ctx : CtxId) (rsp : Option Reply) (result : BitVec 32) :
      Moves self shared (.resumedResult ctx rsp result) shared
        (.returned ⟨(shared.ctxs ctx).req, rsp, result, (shared.ctxs ctx).resultStr⟩)
  | disconnected (down : ¬ shared.connected) :
      Moves self shared .receiving shared (.closing .exit)
  | response (reply : Reply) (up : shared.connected)
      (sent : (reply.answers, reply.response.sn) ∈ shared.sent) :
      Moves self shared .receiving shared (.responding reply)
  | other (up : shared.connected) : Moves self shared .receiving shared .receiving
  | null (up : shared.connected) : Moves self shared .receiving shared (.closing .reader)
  | thrown (up : shared.connected) : Moves self shared .receiving shared (.closing .exit)
  | unknown (reply : Reply) (missing : shared.find reply.response.sn = none) :
      Moves self shared (.responding reply) shared .receiving
  | responding (reply : Reply) (ctx : CtxId) (found : shared.find reply.response.sn = some ctx) :
      Moves self shared (.responding reply) (shared.erase reply.response.sn)
        (.storingResult ctx reply)
  | storingResult (ctx : CtxId) (reply : Reply) :
      Moves self shared (.storingResult ctx reply)
        (shared.modify ctx fun self => { self with result := reply.response.result })
        (.storingText ctx reply)
  | storingText (ctx : CtxId) (reply : Reply) :
      Moves self shared (.storingText ctx reply)
        (shared.modify ctx fun self => { self with resultStr := reply.response.resultString })
        (.storingRsp ctx reply)
  | storingRsp (ctx : CtxId) (reply : Reply) :
      Moves self shared (.storingRsp ctx reply)
        (shared.modify ctx fun self => { self with rsp := some reply }) (.loading ctx [] .reader)
  | erasing (ctx : CtxId) :
      Moves self shared (.erasing ctx)
        { shared.erase (shared.ctxs ctx).sn with
          erased := ((shared.find (shared.ctxs ctx).sn).map (ctx, ·)).toList ++ shared.erased }
        (.marking ctx)
  | marking (ctx : CtxId) :
      Moves self shared (.marking ctx) (shared.modify ctx fun self => { self with timed := true })
        (.disarming ctx)
  | disarming (ctx : CtxId) :
      Moves self shared (.disarming ctx) (shared.modify ctx fun self => { self with timer := false })
        (.loading ctx [] .nowhere)
  | closing (next : After) :
      Moves self shared (.closing next) { shared with connected := false } (.swapping next)
  | swapping (next : After) :
      Moves self shared (.swapping next) { shared with reqCtxs := [] }
        (.clearing (shared.reqCtxs.map (·.2)) next)
  | clearing (rest : List CtxId) (next : After) :
      Moves self shared (.clearing rest next) { shared with sendCtxQue := [] }
        (.draining rest next)
  | drained (next : After) : Moves self shared (.draining [] next) shared next.resume
  | draining (ctx : CtxId) (rest : List CtxId) (next : After) :
      Moves self shared (.draining (ctx :: rest) next)
        (shared.modify ctx fun self => { self with result := Error.ioError.code })
        (.failing ctx rest next)
  | failing (ctx : CtxId) (rest : List CtxId) (next : After) :
      Moves self shared (.failing ctx rest next)
        (shared.modify ctx fun self => { self with resultStr := bytesOf "io_error" })
        (.loading ctx rest next)
  | loading (ctx : CtxId) (rest : List CtxId) (next : After) :
      Moves self shared (.loading ctx rest next) shared
        (.comparing ctx (shared.ctxs ctx).scheduler rest next)
  | claimed (ctx : CtxId) (sche : Nat) (rest : List CtxId) (next : After)
      (same : (shared.ctxs ctx).scheduler = some sche) :
      Moves self shared (.comparing ctx (some sche) rest next)
        (shared.modify ctx fun self => { self with scheduler := none }) (.cancelling ctx rest next)
  | absent (ctx : CtxId) (rest : List CtxId) (next : After)
      (gone : (shared.ctxs ctx).scheduler = none) :
      Moves self shared (.comparing ctx none rest next)
        (shared.modify ctx fun self => { self with scheduler := none }) (.draining rest next)
  | lost (ctx : CtxId) (sche : Option Nat) (rest : List CtxId) (next : After)
      (changed : (shared.ctxs ctx).scheduler ≠ sche) :
      Moves self shared (.comparing ctx sche rest next) shared (.draining rest next)
  | cancelling (ctx : CtxId) (rest : List CtxId) (next : After)
      (timer : (shared.ctxs ctx).timer) :
      Moves self shared (.cancelling ctx rest next)
        ((shared.stopTimer ctx).modify ctx fun self => { self with timer := false })
        (.judging ctx rest next)
  | timerless (ctx : CtxId) (rest : List CtxId) (next : After)
      (timerless : ¬ (shared.ctxs ctx).timer) :
      Moves self shared (.cancelling ctx rest next) shared (.judging ctx rest next)
  | judging (ctx : CtxId) (rest : List CtxId) (next : After) (timed : (shared.ctxs ctx).timed) :
      Moves self shared (.judging ctx rest next)
        (shared.modify ctx fun self => { self with result := Error.timeout.code })
        (.judged ctx rest next)
  | inTime (ctx : CtxId) (rest : List CtxId) (next : After) (timely : ¬ (shared.ctxs ctx).timed) :
      Moves self shared (.judging ctx rest next) shared (.scheduling ctx rest next)
  | judged (ctx : CtxId) (rest : List CtxId) (next : After) :
      Moves self shared (.judged ctx rest next)
        (shared.modify ctx fun self => { self with resultStr := bytesOf "timeout" })
        (.scheduling ctx rest next)
  | scheduling (ctx : CtxId) (rest : List CtxId) (next : After) :
      Moves self shared (.scheduling ctx rest next)
        { shared with
          ready := (shared.ctxs ctx).fiber :: shared.ready
          scheduled := ctx :: shared.scheduled }
        (.draining rest next)
  | writing (up : shared.connected) (waiting : shared.sendCtxQue ≠ []) :
      Moves self shared .writing { shared with sendCtxQue := [] } (.sending shared.sendCtxQue)
  | stopped (down : ¬ shared.connected) : Moves self shared .writing shared .leaving
  | allSent : Moves self shared (.sending []) shared .writing
  | sent (ctx : CtxId) (rest : List CtxId) :
      Moves self shared (.sending (ctx :: rest))
        { shared with sent := (ctx, shared.requests (shared.ctxs ctx).req) :: shared.sent }
        (.sending rest)
  | unsent (ctx : CtxId) (rest : List CtxId) :
      Moves self shared (.sending (ctx :: rest)) shared (.closing .writer)
  | leaving : Moves self shared .leaving { shared with sendCtxQue := [] } .idle

section Inversion

variable {self : FiberId} {shared : Shared} {thread : Thread} {choice : Choice}
  {next : Shared × Thread}

/-- What `exec` does is one of the moves. -/
theorem exec_moves (taken : exec self shared thread choice = some next) :
    Moves self shared thread next.1 next.2 := by
  revert taken
  fun_cases exec self shared thread choice <;> rintro ⟨⟩
  case case3 call =>
    split
    case isTrue zero => exact .unnumbered call zero
    case isFalse preset => exact .numbered call preset
  case case22 up => exact .thrown up
  case case39 ctx rest after =>
    cases same : (shared.ctxs ctx).scheduler with
    | none => exact .absent ctx rest after same
    | some sche => exact .claimed ctx sche rest after same
  all_goals constructor <;> assumption

/-- The thread that takes an action. -/
def Action.actor : Action → Option FiberId
  | .exec thread _ | .request thread _ | .expire thread _ | .startRead thread
  | .startWrite thread => some thread
  | .close | .forget _ => none

/-- What holds after every move of the thread that acts, and after what the connection and
the network do, holds after the step. -/
@[elab_as_elim]
theorem step_cases {state after : State} {action : Action} {motive : State → Prop}
    (taken : step state action = some after)
    (moved : ∀ self thread shared next, action.actor = some self → state.threads self = thread →
      Moves self state.shared thread shared next → motive (state.put self shared next))
    (closed : motive { state with shared := { state.shared with connected := false } })
    (forgot : ∀ ctx, motive { state with shared := { state.shared with
      sent := state.shared.sent.filter fun transmission => transmission.1 ≠ ctx } }) :
    motive after := by
  cases action with
  | exec thread choice =>
      obtain ⟨next, executed, rfl⟩ := Option.map_eq_some_iff.mp taken
      exact moved thread _ _ _ rfl rfl (exec_moves executed)
  | request thread call =>
      simp only [step] at taken
      split at taken
      case h_1 idle =>
          cases taken
          exact moved thread _ _ _ rfl idle (.request call)
      case h_2 result returned =>
          cases taken
          exact moved thread _ _ _ rfl returned (.again result call)
      case h_3 => cases taken
  | expire thread ctx =>
      obtain ⟨⟨idle, running⟩, rfl⟩ : (state.threads thread = .idle ∧ ctx ∈ state.shared.timers) ∧
          state.put thread (state.shared.stopTimer ctx) (.erasing ctx) = after := by
        simpa only [step, Option.ite_none_right_eq_some, Option.some.injEq] using taken
      exact moved thread _ _ _ rfl idle (.expire ctx running)
  | startRead thread =>
      obtain ⟨idle, rfl⟩ : state.threads thread = .idle ∧
          state.put thread { state.shared with connected := true } .receiving = after := by
        simpa only [step, Option.ite_none_right_eq_some, Option.some.injEq] using taken
      exact moved thread _ _ _ rfl idle .startRead
  | startWrite thread =>
      obtain ⟨idle, rfl⟩ : state.threads thread = .idle ∧
          state.put thread state.shared .writing = after := by
        simpa only [step, Option.ite_none_right_eq_some, Option.some.injEq] using taken
      exact moved thread _ _ _ rfl idle .startWrite
  | close =>
      cases taken
      exact closed
  | forget ctx =>
      cases taken
      exact forgot ctx

end Inversion

/-- A thread that takes no action is where it was. -/
theorem step_frame ⦃state : State⦄ ⦃action : Action⦄ ⦃after : State⦄ ⦃thread : FiberId⦄
    (taken : step state action = some after) (other : action.actor ≠ some thread) :
    after.threads thread = state.threads thread := by
  refine step_cases taken ?_ rfl fun _ => rfl
  intro self _ shared next acts _ _
  apply Config.put_other
  rintro rfl
  exact other acts

/-- The contexts that a thread goes on with. -/
def Thread.mentions : Thread → List CtxId
  | .adding ctx _ | .arming ctx _ | .armed ctx | .enqueueing ctx | .suspended ctx
  | .resumed ctx | .resumedRsp ctx _ | .resumedResult ctx _ _ => [ctx]
  | .responding reply => [reply.answers]
  | .storingResult ctx _ | .storingText ctx _ | .storingRsp ctx _ => [ctx]
  | .erasing ctx | .marking ctx | .disarming ctx => [ctx]
  | .clearing rest _ | .draining rest _ => rest
  | .failing ctx rest _ | .loading ctx rest _ | .comparing ctx _ rest _ | .cancelling ctx rest _
  | .judging ctx rest _ | .judged ctx rest _ | .scheduling ctx rest _ => ctx :: rest
  | .sending copyQue => copyQue
  | .idle | .requesting _ | .testing _ | .numbering _ | .making _ | .returned _ | .receiving
  | .closing _ | .swapping _ | .writing | .leaving => []

/-- Two contexts are of one request. -/
structure Ctx.Same (ctx other : Ctx) : Prop where
  req : ctx.req = other.req
  sn : ctx.sn = other.sn
  fiber : ctx.fiber = other.fiber

/-- Every context that is mentioned has been made. -/
structure Shared.Known (shared : Shared) : Prop where
  reqCtxs : ∀ sn ctx, (sn, ctx) ∈ shared.reqCtxs → ctx < shared.made
  sendCtxQue : ∀ ctx ∈ shared.sendCtxQue, ctx < shared.made
  timers : ∀ ctx ∈ shared.timers, ctx < shared.made
  sent : ∀ ctx sn, (ctx, sn) ∈ shared.sent → ctx < shared.made
  scheduled : ∀ ctx ∈ shared.scheduled, ctx < shared.made

structure Known (state : State) : Prop where
  shared : state.shared.Known
  threads : ∀ thread, ∀ ctx ∈ (state.threads thread).mentions, ctx < state.shared.made

section Known

variable {self : FiberId} {before shared : Shared} {thread next : Thread}
  {ctx : CtxId} {sn : BitVec 32} {entry : BitVec 32 × CtxId}

theorem Shared.find_mem (found : shared.find sn = some ctx) : (sn, ctx) ∈ shared.reqCtxs := by
  obtain ⟨entry, first, rfl⟩ := Option.map_eq_some_iff.mp found
  have key : entry.1 = sn := by simpa using List.find?_some first
  exact key ▸ List.mem_of_find?_eq_some first

theorem Shared.mem_addCtx (registered : entry ∈ (shared.addCtx ctx).reqCtxs) :
    entry ∈ shared.reqCtxs ∨
      shared.find (shared.ctxs ctx).sn = none ∧ entry = ((shared.ctxs ctx).sn, ctx) := by
  rw [addCtx] at registered
  split at registered
  case h_1 => exact .inl registered
  case h_2 missing =>
    obtain same | older := List.mem_cons.mp registered
    · exact .inr ⟨missing, same⟩
    · exact .inl older

theorem After.mentions_resume (after : After) : after.resume.mentions = [] := by
  cases after <;> rfl

/-- Entries of the map after a move were there, or are put in by it. -/
theorem Moves.registered (moves : Moves self before thread shared next)
    (there : (sn, ctx) ∈ shared.reqCtxs) :
    (sn, ctx) ∈ before.reqCtxs ∨
      ∃ timeout, thread = .adding ctx timeout ∧ next = .arming ctx timeout ∧
        sn = (before.ctxs ctx).sn ∧ before.find sn = none := by
  cases moves with
  | adding other timeout =>
      obtain older | ⟨missing, same⟩ := Shared.mem_addCtx there
      · exact .inl older
      · cases same
        exact .inr ⟨timeout, rfl, rfl, rfl, missing⟩
  | responding | erasing => exact .inl (List.mem_of_mem_filter there)
  | swapping => cases there
  | _ => exact .inl there

theorem Moves.made_le (moves : Moves self before thread shared next) :
    before.made ≤ shared.made := by
  cases moves with
  | making call => exact Nat.le_succ _
  | adding ctx timeout => simp
  | _ => exact Nat.le_refl _

/-- A context that is made after a move was made before, or is the one that it makes. -/
theorem Moves.made_cases (moves : Moves self before thread shared next) (made : ctx < shared.made) :
    ctx < before.made ∨ ctx = before.made ∧ ∃ call, thread = .making call := by
  cases moves with
  | making call =>
      obtain older | new := Nat.lt_succ_iff_lt_or_eq.mp made
      · exact .inl older
      · exact .inr ⟨new, call, rfl⟩
  | adding other timeout => exact .inl (by simpa using made)
  | _ => exact .inl made

/-- A context is given a response by the thread that stores it. -/
theorem Moves.rsp_eq (moves : Moves self before thread shared next)
    (made : ctx < before.made) (unstored : ∀ reply, thread ≠ .storingRsp ctx reply) :
    (shared.ctxs ctx).rsp = (before.ctxs ctx).rsp := by
  cases moves with
  | making call => rw [Shared.modify_other (Nat.ne_of_lt made)]
  | adding other timeout => rw [Shared.addCtx_ctxs]
  | storingRsp other reply =>
      have apart : ctx ≠ other := by
        rintro rfl
        exact unstored reply rfl
      rw [Shared.modify_other apart]
  | _ =>
      first
        | rfl
        | exact Shared.modify_field Ctx.rsp (by intro; rfl) ctx

/-- A context stays that of its request. -/
theorem Moves.same (moves : Moves self before thread shared next) (made : ctx < before.made) :
    Ctx.Same (shared.ctxs ctx) (before.ctxs ctx) := by
  cases moves with
  | making call =>
      rw [Shared.modify_other (Nat.ne_of_lt made)]
      exact ⟨rfl, rfl, rfl⟩
  | adding other timeout =>
      rw [Shared.addCtx_ctxs]
      exact ⟨rfl, rfl, rfl⟩
  | _ =>
      first
        | exact ⟨rfl, rfl, rfl⟩
        | exact ⟨Shared.modify_field Ctx.req (by intro; rfl) ctx,
            Shared.modify_field Ctx.sn (by intro; rfl) ctx,
            Shared.modify_field Ctx.fiber (by intro; rfl) ctx⟩

theorem Moves.mentions (known : before.Known) (mentioned : ∀ ctx ∈ thread.mentions, ctx < before.made)
    (moves : Moves self before thread shared next) :
    ∀ ctx ∈ next.mentions, ctx < shared.made := by
  cases moves with
  | making call => simp [Thread.mentions]
  | expire ctx running => simpa [Thread.mentions] using known.timers ctx running
  | response reply up sent => simpa [Thread.mentions] using known.sent _ _ sent
  | responding reply ctx found =>
      simpa [Thread.mentions] using known.reqCtxs _ _ (Shared.find_mem found)
  | swapping after =>
      intro ctx swapped
      obtain ⟨⟨sn, _⟩, registered, rfl⟩ := List.mem_map.mp swapped
      exact known.reqCtxs _ _ registered
  | drained after => simp [After.mentions_resume]
  | writing up waiting => exact known.sendCtxQue
  | _ => simp_all [Thread.mentions]

/-- A move mentions no context that was not there, except the one that it makes. -/
theorem Moves.known (known : before.Known) (mentioned : ∀ ctx ∈ thread.mentions, ctx < before.made)
    (moves : Moves self before thread shared next) : shared.Known := by
  obtain ⟨reqCtxs, sendCtxQue, timers, sent, scheduled⟩ := known
  cases moves with
  | making call =>
      constructor
      all_goals
        intros
        apply Nat.lt_succ_of_lt
        solve_by_elim
  | adding ctx timeout =>
      have made : ctx < before.made := mentioned ctx (List.mem_singleton_self ctx)
      have others := Shared.addCtx_eq before ctx
      constructor
      case reqCtxs =>
        intro sn other there
        obtain older | ⟨_, same⟩ := Shared.mem_addCtx there
        · simpa using reqCtxs sn other older
        · cases same
          simpa using made
      all_goals
        rw [others]
        assumption
  | arming ctx timeout limited | enqueueing ctx | sent ctx rest | scheduling ctx rest after =>
      have made : ctx < before.made := mentioned ctx (by simp [Thread.mentions])
      constructor <;> grind
  | swapping after | clearing rest after | writing up waiting | leaving =>
      constructor <;> grind
  | expire ctx running | cancelling ctx rest after timer =>
      exact ⟨reqCtxs, sendCtxQue, fun other there => timers other (List.mem_of_mem_filter there),
        sent, scheduled⟩
  | responding reply ctx found | erasing ctx =>
      exact ⟨fun sn other there => reqCtxs sn other (List.mem_of_mem_filter there), sendCtxQue,
        timers, sent, scheduled⟩
  | _ => exact ⟨reqCtxs, sendCtxQue, timers, sent, scheduled⟩

/-- Nothing is known of a stream that has made no contexts. -/
theorem Known.of_initial {state : State} (start : Initial state) : Known state := by
  constructor
  · constructor <;> simp [start.reqCtxs, start.sendCtxQue, start.timers, start.sent, start.scheduled]
  · simp [start.threads, Thread.mentions]

theorem Known.step {state after : State} {action : Action} (known : Known state)
    (taken : step state action = some after) : Known after := by
  obtain ⟨shared, threads⟩ := known
  refine step_cases taken ?_ ?_ ?_
  · rintro self _ changed next - rfl moves
    constructor
    · exact moves.known shared (threads self)
    · intro other ctx mentioned
      obtain ⟨rfl, now⟩ | ⟨apart, now⟩ := Config.put_cases state self changed next other
      · exact moves.mentions shared (threads other) ctx (now ▸ mentioned)
      · exact (threads other ctx (now ▸ mentioned)).trans_le moves.made_le
  · exact ⟨⟨shared.reqCtxs, shared.sendCtxQue, shared.timers, shared.sent, shared.scheduled⟩, threads⟩
  · intro ctx
    refine ⟨⟨shared.reqCtxs, shared.sendCtxQue, shared.timers, ?_, shared.scheduled⟩, threads⟩
    intro other sn there
    exact shared.sent other sn (List.mem_of_mem_filter there)

/-- In every state reached, each context that is mentioned has been made. -/
theorem Known.of_runs {first state : State} {allowed : State → Action → Prop}
    (start : Initial first) (run : Runs RockStream.step allowed first state) : Known state :=
  run.invariant (fun _ _ _ known _ taken => known.step taken) (of_initial start)

end Known

end Xten.RockStream
