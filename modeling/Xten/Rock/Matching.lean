import Xten.Rock.Progress

/-!
# Responses and requests

The map, the responses and the timers know a context by its sequence number alone. They
find the context meant where no two contexts that something still refers to have one
number, and a request object keeps its number until it has been sent.
-/

namespace Xten.RockStream

open Std.Interleaving

/-- The contexts whose numbers a thread goes on with, from when they are in the map. -/
def Thread.concerns : Thread → List CtxId
  | .arming ctx _ | .armed ctx | .enqueueing ctx | .erasing ctx => [ctx]
  | .responding reply => [reply.answers]
  | .sending copyQue => copyQue
  | _ => []

/-- The contexts whose request objects a thread has yet to send. -/
def Thread.unsent : Thread → List CtxId
  | .adding ctx _ | .arming ctx _ | .armed ctx | .enqueueing ctx => [ctx]
  | .sending copyQue => copyQue
  | _ => []

/-- The context that a thread waits for, or is about to, and that is in the map. -/
def Thread.awaits : Thread → Option CtxId
  | .arming ctx _ | .armed ctx | .enqueueing ctx | .suspended ctx => some ctx
  | _ => none

/-- The context in which a thread stores a response. -/
def Thread.stores : Thread → Option (CtxId × Reply)
  | .storingResult ctx reply | .storingText ctx reply | .storingRsp ctx reply => some (ctx, reply)
  | _ => none

/-- Something still refers to a context by its number. -/
inductive Live (state : State) (ctx : CtxId) : Prop where
  | thread (thread : FiberId) (concerns : ctx ∈ (state.threads thread).concerns)
  | queued (queued : ctx ∈ state.shared.sendCtxQue)
  | sent (sn : BitVec 32) (sent : (ctx, sn) ∈ state.shared.sent)
  | timer (running : ctx ∈ state.shared.timers)
  | registered (sn : BitVec 32) (there : (sn, ctx) ∈ state.shared.reqCtxs)

/-- The request object of a context has yet to be sent. -/
inductive Unsent (state : State) (ctx : CtxId) : Prop where
  | thread (thread : FiberId) (unsent : ctx ∈ (state.threads thread).unsent)
  | queued (queued : ctx ∈ state.shared.sendCtxQue)

/-- `addCtx` comes to a number that nothing else refers to, and a request object is given
its number while it is not yet to be sent. -/
structure Distinct (state : State) (action : Action) : Prop where
  adding : ∀ self ctx timeout, action.actor = some self → state.threads self = .adding ctx timeout →
    ∀ other, Live state other → (state.shared.ctxs other).sn = (state.shared.ctxs ctx).sn →
      other = ctx
  numbering : ∀ self call, action.actor = some self → state.threads self = .numbering call →
    ∀ ctx, Unsent state ctx → (state.shared.ctxs ctx).req ≠ call.req

/-- Suspended requests are found under their numbers until they are being completed, are
given the responses to themselves, and time out alone. -/
structure Matched (state : State) : Prop where
  waiting : ∀ fiber ctx, state.threads fiber = .suspended ctx →
    state.shared.find (state.shared.ctxs ctx).sn = some ctx ∨ Completing state ctx
  answered : ∀ ctx < state.shared.made, ∀ reply, (state.shared.ctxs ctx).rsp = some reply →
    reply.answers = ctx
  expired : ∀ ctx other, (ctx, other) ∈ state.shared.erased → other = ctx

/-- How numbers lead to contexts. -/
structure Matching (state : State) : Prop where
  keyed : ∀ sn ctx, (sn, ctx) ∈ state.shared.reqCtxs → sn = (state.shared.ctxs ctx).sn
  unique : ∀ ctx other, Live state ctx → Live state other →
    (state.shared.ctxs ctx).sn = (state.shared.ctxs other).sn → ctx = other
  unsent : ∀ ctx, Unsent state ctx →
    state.shared.requests (state.shared.ctxs ctx).req = (state.shared.ctxs ctx).sn
  sent : ∀ ctx sn, (ctx, sn) ∈ state.shared.sent → sn = (state.shared.ctxs ctx).sn
  responding : ∀ thread reply, state.threads thread = .responding reply →
    reply.response.sn = (state.shared.ctxs reply.answers).sn
  storing : ∀ thread ctx reply, (state.threads thread).stores = some (ctx, reply) →
    reply.answers = ctx

section Sources

variable {state : State} {self : FiberId} {shared : Shared} {thread next : Thread} {ctx : CtxId}
  {sn : BitVec 32} {reply : Reply}

theorem Moves.queued (moves : Moves self state.shared thread shared next)
    (there : ctx ∈ shared.sendCtxQue) :
    ctx ∈ state.shared.sendCtxQue ∨ thread = .enqueueing ctx := by
  cases moves with
  | adding other timeout => exact .inl (by simpa using there)
  | enqueueing other =>
      obtain older | new := List.mem_append.mp there
      · exact .inl older
      · rw [List.mem_singleton.mp new]
        exact .inr rfl
  | clearing | writing | leaving => cases there
  | _ => exact .inl there

theorem Moves.sent_mem (moves : Moves self state.shared thread shared next)
    (there : (ctx, sn) ∈ shared.sent) :
    (ctx, sn) ∈ state.shared.sent ∨
      sn = state.shared.requests (state.shared.ctxs ctx).req ∧
        ∃ rest, thread = .sending (ctx :: rest) := by
  cases moves with
  | adding other timeout => exact .inl (by simpa using there)
  | sent other rest =>
      obtain same | older := List.mem_cons.mp there
      · cases same
        exact .inr ⟨rfl, rest, rfl⟩
      · exact .inl older
  | _ => exact .inl there

theorem Moves.timers (moves : Moves self state.shared thread shared next)
    (there : ctx ∈ shared.timers) :
    ctx ∈ state.shared.timers ∨ ∃ timeout, thread = .arming ctx timeout := by
  cases moves with
  | adding other timeout => exact .inl (by simpa using there)
  | arming other timeout _ =>
      obtain rfl | older := List.mem_cons.mp there
      · exact .inr ⟨timeout, rfl⟩
      · exact .inl older
  | expire | cancelling => exact .inl (List.mem_of_mem_filter there)
  | _ => exact .inl there

theorem Moves.requests_cases (moves : Moves self state.shared thread shared next) :
    shared.requests = state.shared.requests ∨
      ∃ call, thread = .numbering call ∧
        ∀ req ≠ call.req, shared.requests req = state.shared.requests req := by
  cases moves with
  | adding other timeout => exact .inl (by simp)
  | numbering call => exact .inr ⟨call, rfl, fun req apart => if_neg apart⟩
  | _ => exact .inl rfl

theorem Thread.concerns_mentions (concerns : ctx ∈ thread.concerns) : ctx ∈ thread.mentions := by
  cases thread <;> simp_all [Thread.concerns, mentions]

theorem Thread.unsent_mentions (unsent : ctx ∈ thread.unsent) : ctx ∈ thread.mentions := by
  cases thread <;> simp_all [Thread.unsent, mentions]

theorem Thread.awaits_mentions (awaits : thread.awaits = some ctx) : ctx ∈ thread.mentions := by
  cases thread <;> simp_all [Thread.awaits, mentions]

theorem Live.made (known : Known state) (live : Live state ctx) : ctx < state.shared.made := by
  cases live with
  | thread thread concerns => exact known.threads thread ctx (Thread.concerns_mentions concerns)
  | queued queued => exact known.shared.sendCtxQue ctx queued
  | sent sn sent => exact known.shared.sent ctx sn sent
  | timer running => exact known.shared.timers ctx running
  | registered sn there => exact known.shared.reqCtxs sn ctx there

theorem Unsent.made (known : Known state) (unsent : Unsent state ctx) :
    ctx < state.shared.made := by
  cases unsent with
  | thread thread unsent => exact known.threads thread ctx (Thread.unsent_mentions unsent)
  | queued queued => exact known.shared.sendCtxQue ctx queued

/-- A thread comes to refer to a context that something refers to, or that it has put into
the map. -/
theorem Moves.concerns (moves : Moves self state.shared (state.threads self) shared next)
    (concerns : ctx ∈ next.concerns) :
    Live state ctx ∨ ∃ timeout, state.threads self = .adding ctx timeout := by
  have own : ∀ thread, state.threads self = thread → ctx ∈ thread.concerns → Live state ctx := by
    rintro _ rfl before
    exact .thread self before
  generalize asBefore : state.threads self = thread at moves
  cases moves with
  | expire other running =>
      rw [List.mem_singleton.mp concerns]
      exact .inl (.timer running)
  | adding other timeout =>
      rw [List.mem_singleton.mp concerns]
      exact .inr ⟨timeout, rfl⟩
  | response reply _ sent =>
      rw [List.mem_singleton.mp concerns]
      exact .inl (.sent _ sent)
  | writing => exact .inl (.queued concerns)
  | sent other rest => exact .inl (own _ asBefore (List.mem_cons_of_mem other concerns))
  | drained after => cases after <;> cases concerns
  | _ =>
      first
        | exact .inl (own _ asBefore concerns)
        | cases concerns

/-- What is referred to after a move was referred to, or has been put into the map. -/
theorem Live.before (moves : Moves self state.shared (state.threads self) shared next)
    (live : Live (state.put self shared next) ctx) :
    Live state ctx ∨ ∃ timeout, state.threads self = .adding ctx timeout := by
  cases live with
  | thread other concerns =>
      obtain ⟨_, now⟩ | ⟨_, now⟩ := Config.put_cases state self shared next other
      all_goals rw [now] at concerns
      · exact moves.concerns concerns
      · exact .inl (.thread other concerns)
  | queued queued =>
      left
      obtain older | enqueueing := moves.queued queued
      · exact .queued older
      · exact .thread self (by rw [enqueueing]; exact List.mem_singleton_self ctx)
  | sent sn sent =>
      left
      obtain older | ⟨_, rest, sending⟩ := moves.sent_mem sent
      · exact .sent sn older
      · exact .thread self (by rw [sending]; exact List.mem_cons_self)
  | timer running =>
      left
      obtain older | ⟨timeout, arming⟩ := moves.timers running
      · exact .timer older
      · exact .thread self (by rw [arming]; exact List.mem_singleton_self ctx)
  | registered sn there =>
      obtain older | ⟨timeout, adding, _⟩ := moves.registered there
      · exact .inl (.registered sn older)
      · exact .inr ⟨timeout, adding⟩

theorem Moves.unsent_mem (moves : Moves self state.shared (state.threads self) shared next)
    (unsent : ctx ∈ next.unsent) :
    Unsent state ctx ∨
      ctx = state.shared.made ∧ ∃ call, state.threads self = .making call := by
  have own : ∀ thread, state.threads self = thread → ctx ∈ thread.unsent → Unsent state ctx := by
    rintro _ rfl before
    exact .thread self before
  generalize asBefore : state.threads self = thread at moves
  cases moves with
  | making call => exact .inr ⟨List.mem_singleton.mp unsent, call, rfl⟩
  | writing => exact .inl (.queued unsent)
  | sent other rest => exact .inl (own _ asBefore (List.mem_cons_of_mem other unsent))
  | drained after => cases after <;> cases unsent
  | _ =>
      first
        | exact .inl (own _ asBefore unsent)
        | cases unsent

/-- A request that is to be sent after a move was to be sent, or has just been made. -/
theorem Unsent.before (moves : Moves self state.shared (state.threads self) shared next)
    (unsent : Unsent (state.put self shared next) ctx) :
    Unsent state ctx ∨
      ctx = state.shared.made ∧ ∃ call, state.threads self = .making call := by
  cases unsent with
  | thread other unsent =>
      obtain ⟨_, now⟩ | ⟨_, now⟩ := Config.put_cases state self shared next other
      all_goals rw [now] at unsent
      · exact moves.unsent_mem unsent
      · exact .inl (.thread other unsent)
  | queued queued =>
      left
      obtain older | enqueueing := moves.queued queued
      · exact .queued older
      · exact .thread self (by rw [enqueueing]; exact List.mem_singleton_self ctx)

end Sources

section Matching

variable {first state later : State} {self : FiberId} {shared : Shared} {next : Thread}
  {ctx : CtxId} {reply : Reply} {action : Action}

/-- A response that a thread handles goes to the context that it was found for. -/
theorem Matching.found (matching : Matching state)
    (responding : state.threads self = .responding reply)
    (found : state.shared.find reply.response.sn = some ctx) : reply.answers = ctx := by
  have there := Shared.find_mem found
  apply matching.unique
  · exact .thread self (by rw [responding]; exact List.mem_singleton_self _)
  · exact .registered _ there
  · rw [← matching.responding self reply responding, matching.keyed _ _ there]

theorem Moves.stores (moves : Moves self state.shared (state.threads self) shared next)
    (matching : Matching state) (stores : next.stores = some (ctx, reply)) :
    reply.answers = ctx := by
  have own := matching.storing self ctx reply
  generalize asBefore : state.threads self = thread at moves own
  cases moves with
  | responding other owner found =>
      cases stores
      exact matching.found asBefore found
  | storingResult | storingText => exact own stores
  | drained after => cases after <;> cases stores
  | _ => cases stores

theorem Moves.to_respond {thread : Thread}
    (moves : Moves self state.shared thread shared (.responding reply)) :
    (reply.answers, reply.response.sn) ∈ state.shared.sent ∧ shared = state.shared := by
  generalize isNext : Thread.responding reply = next at moves
  cases moves with
  | response other _ sent =>
      cases isNext
      exact ⟨sent, rfl⟩
  | drained after => cases after <;> cases isNext
  | _ => cases isNext

theorem Matching.moved (known : Known state) (matching : Matching state)
    (distinct : Distinct state action) (acts : action.actor = some self)
    (moves : Moves self state.shared (state.threads self) shared next) :
    Matching (state.put self shared next) := by
  constructor
  case keyed =>
    intro sn ctx there
    obtain older | ⟨timeout, adding, _, same, _⟩ := moves.registered there
    · rw [Config.put_shared, (moves.same (known.shared.reqCtxs sn ctx older)).sn]
      exact matching.keyed sn ctx older
    · have made := known.threads self ctx (by rw [adding]; exact List.mem_singleton_self ctx)
      rw [Config.put_shared, (moves.same made).sn]
      exact same
  case unique =>
    intro ctx other live otherLive same
    have made : ctx < state.shared.made := by
      obtain before | ⟨timeout, adding⟩ := live.before moves
      · exact before.made known
      · exact known.threads self ctx (by rw [adding]; exact List.mem_singleton_self ctx)
    have otherMade : other < state.shared.made := by
      obtain before | ⟨timeout, adding⟩ := otherLive.before moves
      · exact before.made known
      · exact known.threads self other (by rw [adding]; exact List.mem_singleton_self other)
    rw [Config.put_shared, (moves.same made).sn, (moves.same otherMade).sn] at same
    obtain before | ⟨timeout, adding⟩ := live.before moves
    all_goals obtain otherBefore | ⟨timeout, otherAdding⟩ := otherLive.before moves
    · exact matching.unique ctx other before otherBefore same
    · exact distinct.adding self other _ acts otherAdding ctx before same
    · exact (distinct.adding self ctx _ acts adding other otherBefore same.symm).symm
    · rw [adding] at otherAdding
      cases otherAdding
      rfl
  case unsent =>
    intro ctx unsent
    obtain before | ⟨rfl, call, making⟩ := unsent.before moves
    · have kept := moves.same (before.made known)
      rw [Config.put_shared, kept.req, kept.sn, ← matching.unsent ctx before]
      obtain same | ⟨call, numbering, others⟩ := moves.requests_cases
      · rw [same]
      · exact others _ (distinct.numbering self call acts numbering ctx before)
    · rw [making] at moves
      cases moves
      simp
  case sent =>
    intro ctx sn sent
    obtain older | ⟨rfl, rest, sending⟩ := moves.sent_mem sent
    · rw [Config.put_shared, (moves.same (known.shared.sent ctx sn older)).sn]
      exact matching.sent ctx sn older
    · have there : ctx ∈ (state.threads self).unsent := by
        rw [sending]
        exact List.mem_cons_self
      have unsent : Unsent state ctx := .thread self there
      rw [Config.put_shared, (moves.same (unsent.made known)).sn]
      exact matching.unsent ctx unsent
  case responding =>
    intro other reply responding
    obtain ⟨_, now⟩ | ⟨_, now⟩ := Config.put_cases state self shared next other
    all_goals rw [now] at responding
    · rw [responding] at moves
      obtain ⟨sent, rfl⟩ := moves.to_respond
      exact matching.sent _ _ sent
    · have made : reply.answers < state.shared.made :=
        known.threads other _ (by rw [responding]; exact List.mem_singleton_self _)
      rw [Config.put_shared, (moves.same made).sn]
      exact matching.responding other reply responding
  case storing =>
    intro other ctx reply stores
    obtain ⟨_, now⟩ | ⟨_, now⟩ := Config.put_cases state self shared next other
    all_goals rw [now] at stores
    · exact moves.stores matching stores
    · exact matching.storing other ctx reply stores

/-- What is referred to still was, where transmissions are forgotten. -/
theorem Live.of_fewer {fewer : Shared} (queue : fewer.sendCtxQue = state.shared.sendCtxQue)
    (timers : fewer.timers = state.shared.timers) (reqCtxs : fewer.reqCtxs = state.shared.reqCtxs)
    (sent : ∀ entry ∈ fewer.sent, entry ∈ state.shared.sent)
    (live : Live ⟨fewer, state.threads⟩ ctx) : Live state ctx := by
  cases live with
  | thread thread concerns => exact .thread thread concerns
  | queued queued => exact .queued (queue ▸ queued)
  | sent sn there => exact .sent sn (sent _ there)
  | timer running => exact .timer (timers ▸ running)
  | registered sn there => exact .registered sn (reqCtxs ▸ there)

theorem Matching.of_fewer {fewer : Shared} (queue : fewer.sendCtxQue = state.shared.sendCtxQue)
    (timers : fewer.timers = state.shared.timers) (reqCtxs : fewer.reqCtxs = state.shared.reqCtxs)
    (sent : ∀ entry ∈ fewer.sent, entry ∈ state.shared.sent)
    (ctxs : fewer.ctxs = state.shared.ctxs) (requests : fewer.requests = state.shared.requests)
    (matching : Matching state) : Matching ⟨fewer, state.threads⟩ := by
  have still : ∀ {ctx}, Live ⟨fewer, state.threads⟩ ctx → Live state ctx :=
    Live.of_fewer queue timers reqCtxs sent
  obtain ⟨keyed, unique, unsent, carried, responding, storing⟩ := matching
  constructor
  case keyed => simpa only [reqCtxs, ctxs] using keyed
  case unique =>
    intro ctx other live otherLive
    simpa only [ctxs] using unique ctx other (still live) (still otherLive)
  case unsent =>
    intro ctx waiting
    rw [requests, ctxs]
    cases waiting with
    | thread thread waiting => exact unsent ctx (.thread thread waiting)
    | queued queued => exact unsent ctx (.queued (queue ▸ queued))
  case sent =>
    intro ctx sn there
    rw [ctxs]
    exact carried ctx sn (sent _ there)
  case responding => simpa only [ctxs] using responding
  case storing => exact storing

theorem Matching.of_initial (start : Initial state) : Matching state := by
  have dead : ∀ ctx, ¬ Live state ctx := by
    intro ctx live
    cases live <;>
      simp_all [start.threads, start.sendCtxQue, start.sent, start.timers, start.reqCtxs,
        Thread.concerns]
  have idle : ∀ ctx, ¬ Unsent state ctx := by
    intro ctx unsent
    cases unsent <;> simp_all [start.threads, start.sendCtxQue, Thread.unsent]
  constructor
  case unique => exact fun ctx _ live => absurd live (dead ctx)
  case unsent => exact fun ctx unsent => absurd unsent (idle ctx)
  all_goals simp [start.threads, start.reqCtxs, start.sent, Thread.stores]

theorem Matching.step (known : Known state) (matching : Matching state)
    (distinct : Distinct state action) (taken : step state action = some later) :
    Matching later := by
  refine step_cases taken ?_ ?_ ?_
  · rintro self _ shared next acts rfl moves
    exact matching.moved known distinct acts moves
  · exact matching.of_fewer rfl rfl rfl (fun _ => id) rfl rfl
  · intro gone
    exact matching.of_fewer rfl rfl rfl (fun _ => List.mem_of_mem_filter) rfl rfl

/-- The context of a request that is being made or waited for is in the map, until it is
being completed. -/
def Registered (state : State) : Prop :=
  ∀ fiber ctx, (state.threads fiber).awaits = some ctx →
    ((state.shared.ctxs ctx).sn, ctx) ∈ state.shared.reqCtxs ∨ Completing state ctx

/-- The map has a context under its number until a thread takes it out. -/
theorem Moves.keeps (moves : Moves self state.shared (state.threads self) shared next)
    (matching : Matching state) (there : ((state.shared.ctxs ctx).sn, ctx) ∈ state.shared.reqCtxs) :
    ((state.shared.ctxs ctx).sn, ctx) ∈ shared.reqCtxs ∨ ctx ∈ next.handles := by
  generalize asBefore : state.threads self = thread at moves
  cases moves with
  | adding other timeout =>
      left
      rw [Shared.addCtx]
      split
      · exact there
      · exact List.mem_cons_of_mem _ there
  | responding reply other found =>
      by_cases taken : (state.shared.ctxs ctx).sn = reply.response.sn
      · right
        have key := matching.keyed _ _ (Shared.find_mem found)
        rw [matching.unique ctx other (.registered _ there) (.registered _ (Shared.find_mem found))
          (taken.trans key)]
        exact List.mem_singleton_self other
      · exact .inl (List.mem_filter.mpr ⟨there, by simpa using taken⟩)
  | erasing other =>
      by_cases taken : (state.shared.ctxs ctx).sn = (state.shared.ctxs other).sn
      · right
        have live : Live state other :=
          .thread self (by rw [asBefore]; exact List.mem_singleton_self other)
        rw [matching.unique ctx other (.registered _ there) live taken]
        exact List.mem_singleton_self other
      · exact .inl (List.mem_filter.mpr ⟨there, by simpa using taken⟩)
  | swapping after => exact .inr (List.mem_map.mpr ⟨_, there, rfl⟩)
  | _ => exact .inl there

/-- A thread comes to wait for a context by putting it into the map. -/
theorem Moves.awaits (moves : Moves self state.shared (state.threads self) shared next)
    (matching : Matching state) (distinct : Distinct state action)
    (acts : action.actor = some self) (awaits : next.awaits = some ctx) :
    (state.threads self).awaits = some ctx ∨
      (∃ timeout, state.threads self = .adding ctx timeout) ∧
        ((state.shared.ctxs ctx).sn, ctx) ∈ shared.reqCtxs := by
  generalize asBefore : state.threads self = thread at moves
  cases moves with
  | adding other timeout =>
      cases awaits
      refine .inr ⟨⟨timeout, rfl⟩, ?_⟩
      cases found : state.shared.find (state.shared.ctxs ctx).sn with
      | none => simp [Shared.addCtx, found]
      | some owner =>
          have there := Shared.find_mem found
          have same := distinct.adding self ctx timeout acts asBefore owner (.registered _ there)
            (matching.keyed _ _ there).symm
          subst same
          simpa [Shared.addCtx, found] using there
  | drained after => cases after <;> cases awaits
  | _ =>
      first
        | exact .inl awaits
        | cases awaits

theorem Registered.step (orderly : Orderly state) (driven : Driven state)
    (matching : Matching state) (registered : Registered state) (distinct : Distinct state action)
    (taken : step state action = some later) : Registered later := by
  have kept := fun ctx => @Completing.step state later action ctx orderly driven taken
  revert kept
  refine step_cases taken ?moved ?closed ?forgot
  case moved =>
    rintro self _ shared next acts rfl moves kept fiber ctx awaits
    have still : (state.threads fiber).awaits = some ctx →
        (((state.put self shared next).shared.ctxs ctx).sn, ctx) ∈
            (state.put self shared next).shared.reqCtxs ∨
          Completing (state.put self shared next) ctx := by
      intro before
      have made := orderly.known.threads fiber ctx (Thread.awaits_mentions before)
      rw [Config.put_shared, (moves.same made).sn]
      obtain there | completing := registered fiber ctx before
      · obtain there | handles := moves.keeps matching there
        · exact .inl there
        · exact .inr (.inr ⟨self, by rwa [Config.put_self]⟩)
      · exact .inr (kept ctx completing)
    obtain ⟨rfl, now⟩ | ⟨_, now⟩ := Config.put_cases state self shared next fiber
    all_goals rw [now] at awaits
    · obtain before | ⟨⟨timeout, adding⟩, there⟩ := moves.awaits matching distinct acts awaits
      · exact still before
      · have made := orderly.known.threads fiber ctx
          (by rw [adding]; exact List.mem_singleton_self ctx)
        rw [Config.put_shared, (moves.same made).sn]
        exact .inl there
    · exact still awaits
  case closed | forgot =>
    intros
    rename_i kept
    intro fiber ctx awaits
    exact (registered fiber ctx awaits).imp_right (kept ctx)

/-- The responses that contexts have been given, and the entries that their timers have
erased, are their own. -/
structure Own (state : State) : Prop where
  answered : ∀ ctx < state.shared.made, ∀ reply, (state.shared.ctxs ctx).rsp = some reply →
    reply.answers = ctx
  expired : ∀ ctx other, (ctx, other) ∈ state.shared.erased → other = ctx

theorem Moves.erased_cases (moves : Moves self state.shared (state.threads self) shared next)
    {other : CtxId} (gone : (ctx, other) ∈ shared.erased) :
    (ctx, other) ∈ state.shared.erased ∨
      state.threads self = .erasing ctx ∧
        ((state.shared.ctxs ctx).sn, other) ∈ state.shared.reqCtxs := by
  generalize state.threads self = thread at moves
  cases moves with
  | adding => exact .inl (by simpa using gone)
  | erasing own =>
      obtain new | older := List.mem_append.mp gone
      · obtain ⟨found, same⟩ := Option.map_eq_some_iff.mp (Option.mem_toList.mp new)
        cases same.2
        exact .inr ⟨rfl, Shared.find_mem same.1⟩
      · exact .inl older
  | _ => exact .inl gone

/-- A context has been given a response before, or is given it by the thread that stores it. -/
theorem Moves.rsp_cases (moves : Moves self state.shared (state.threads self) shared next)
    (isMade : ctx < shared.made) (given : (shared.ctxs ctx).rsp = some reply) :
    ctx < state.shared.made ∧ ((state.shared.ctxs ctx).rsp = some reply ∨
      state.threads self = .storingRsp ctx reply) := by
  obtain older | ⟨rfl, call, making⟩ := moves.made_cases isMade
  · refine ⟨older, ?_⟩
    by_cases storing : ∃ stored, state.threads self = .storingRsp ctx stored
    · obtain ⟨stored, storing⟩ := storing
      right
      rw [storing] at moves ⊢
      cases moves
      have same : stored = reply := by simpa using given
      rw [same]
    · left
      rwa [← moves.rsp_eq older (not_exists.mp storing)]
  · rw [making] at moves
    cases moves
    simp at given

theorem Own.step (matching : Matching state) (own : Own state)
    (taken : step state action = some later) : Own later := by
  refine step_cases taken ?_ ⟨own.answered, own.expired⟩ fun _ => ⟨own.answered, own.expired⟩
  rintro self _ shared next _ rfl moves
  constructor
  · intro ctx isMade reply given
    obtain ⟨older, before | storing⟩ := moves.rsp_cases isMade given
    · exact own.answered ctx older reply before
    · exact matching.storing self ctx reply (by rw [storing]; rfl)
  · intro ctx other gone
    obtain older | ⟨erasing, there⟩ := moves.erased_cases gone
    · exact own.expired ctx other older
    · apply matching.unique other ctx (.registered _ there)
      · exact .thread self (by rw [erasing]; exact List.mem_singleton_self ctx)
      · exact (matching.keyed _ _ there).symm

/-- A context in the map is found under its number. -/
theorem Matching.find_eq (matching : Matching state)
    (there : ((state.shared.ctxs ctx).sn, ctx) ∈ state.shared.reqCtxs) :
    state.shared.find (state.shared.ctxs ctx).sn = some ctx := by
  cases found : state.shared.find (state.shared.ctxs ctx).sn with
  | none =>
      have missing : ∀ entry ∈ state.shared.reqCtxs, entry.1 ≠ (state.shared.ctxs ctx).sn := by
        simpa [Shared.find] using found
      exact absurd rfl (missing _ there)
  | some other =>
      have entry := Shared.find_mem found
      rw [matching.unique other ctx (.registered _ entry) (.registered _ there)
        (matching.keyed _ _ entry).symm]

/-- What holds in every run in which numbers are distinct. -/
theorem Matching.of_runs (start : Initial first)
    (run : Runs RockStream.step Distinct first state) :
    Matching state ∧ Registered state ∧ Own state := by
  induction run with
  | refl =>
      refine ⟨.of_initial start, ?_, ?_⟩
      · simp [Registered, start.threads, Thread.awaits]
      · constructor <;> simp [start.made, start.erased]
  | tail run distinct taken ih =>
      obtain ⟨matching, registered, own⟩ := ih
      obtain ⟨orderly, driven⟩ := Driven.of_runs start run
      exact ⟨matching.step orderly.known distinct taken,
        registered.step orderly driven matching distinct taken,
        own.step matching taken⟩

/-- Where numbers are distinct, suspended requests are matched with their responses and
timers. -/
theorem matched (start : Initial first) (run : Runs step Distinct first state) :
    Matched state := by
  obtain ⟨matching, registered, own⟩ := Matching.of_runs start run
  constructor
  · intro fiber ctx suspended
    exact (registered fiber ctx (by rw [suspended]; rfl)).imp_left matching.find_eq
  · exact own.answered
  · exact own.expired

end Matching

section Runs

/-- No context is put into the map beside another that has been made, and no request
object is given a number. -/
def presets (state : State) (action : Action) : Bool :=
  match action.actor.map state.threads with
  | some (.adding _ _) => state.shared.made = 1
  | some (.numbering _) => false
  | _ => true

theorem distinct_of_presets {state : State} {action : Action} (known : Known state)
    (passes : presets state action) : Distinct state action := by
  constructor
  · intro self ctx timeout acts adding other live _
    have one : state.shared.made = 1 := by simpa [presets, acts, adding] using passes
    have made : ctx < state.shared.made :=
      known.threads self ctx (by rw [adding]; exact List.mem_singleton_self ctx)
    have otherMade := live.made known
    rw [one] at made otherMade
    rw [Nat.lt_one_iff.mp made, Nat.lt_one_iff.mp otherMade]
  · intro self call acts numbering
    simp [presets, acts, numbering] at passes

/-- A request whose caller has set its number, until it is suspended. -/
def presetRun : List Action :=
  [.startRead 0, .startWrite 1, .request 2 ⟨0, 1000, 9⟩] ++ List.replicate 7 (.exec 2 .go)

def preset : State := (replay step presets presetRun (unstarted fun _ => 7)).get (by decide)

theorem matched_preset : preset.threads 2 = .suspended 0 ∧
    (preset.shared.find 7 = some 0 ∨ Completing preset 0) := by
  have suspended : preset.threads 2 = .suspended 0 := by decide
  have passes : Runs step (fun state action => presets state action) (unstarted fun _ => 7) preset :=
    .of_replay (fun _ _ => id) (Option.some_get _).symm
  have run : Runs step Distinct (unstarted fun _ => 7) preset :=
    passes.weaken (fun _ => Known.of_runs (initial_unstarted _)) fun _ _ => distinct_of_presets
  exact ⟨suspended, (matched (initial_unstarted _) run).waiting 2 0 suspended⟩

/-- Two requests whose callers have set the same number. -/
def aliasedRun : List Action :=
  presetRun ++ [.request 3 ⟨1, 1000, 9⟩] ++ List.replicate 7 (.exec 3 .go)

def aliased : State :=
  (replay step (fun _ _ => true) aliasedRun (unstarted fun _ => 7)).get (by decide)

theorem not_matched : ¬ ∀ first state : State, Initial first →
    Runs step (fun _ _ => True) first state → Matched state := by
  intro claimed
  have run : Runs step (fun _ _ => True) (unstarted fun _ => 7) aliased :=
    .of_replay (fun _ _ _ => trivial) (Option.some_get _).symm
  obtain found | completing :=
    (claimed _ _ (initial_unstarted _) run).waiting 3 1 (by decide)
  · exact absurd found (by decide)
  · obtain there | ⟨thread, handles⟩ := completing
    · exact absurd there (by decide)
    · have none : ∀ thread, 1 ∉ (aliased.threads thread).handles :=
        replay_forall (motive := fun thread => 1 ∉ Thread.handles thread) step_frame 4
          (Option.some_get _).symm (by decide) (by decide) (fun _ _ => List.not_mem_nil)
      exact none thread handles

end Runs

end Xten.RockStream
