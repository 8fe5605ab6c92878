import Xten.Rock.Matching
import Xten.Std.Holdings

/-!
# What callers get

Whatever callers do, `doSend` is called once at most for each call of `Request`. What else
they get is a matter of their request objects: where every call is made with an object that
no other call has and that has no number yet, numbers are drawn from the counter alone, and
a caller that is given a response is given the one to its own request.
-/

namespace Xten.RockStream

open Std.Interleaving

/-!
## Transmissions
-/

/-- Each request object that is to be sent is in one place. -/
def Placed (state : State) : Prop :=
  state.Places Shared.sendCtxQue Thread.unsent (Unsent state)

section Transmissions

variable {first state next later : State} {self : FiberId} {shared : Shared} {thread : Thread}
  {action again : Action} {ctx : CtxId} {allowed : State → Action → Prop}

theorem unsent_iff : Unsent state ctx ↔
    ctx ∈ state.shared.sendCtxQue ∨ ∃ thread, ctx ∈ (state.threads thread).unsent := by
  constructor
  · rintro (⟨thread, unsent⟩ | queued)
    · exact .inr ⟨thread, unsent⟩
    · exact .inl queued
  · rintro (queued | ⟨thread, unsent⟩)
    · exact .queued queued
    · exact .thread thread unsent

theorem Placed.of_places {here : CtxId → Prop}
    (places : state.Places Shared.sendCtxQue Thread.unsent here) : Placed state :=
  ⟨places.exclusive, places.distinct, fun _ => unsent_iff⟩

theorem Placed.of_initial (start : Initial state) : Placed state :=
  .of_places (.initial start.sendCtxQue
    (fun thread => by rw [start.threads]; rfl) fun _ => id)

/-- A move passes objects on, makes a new one, or drops some. -/
theorem Moves.perm (moves : Moves self state.shared (state.threads self) shared thread) :
    ∃ new gone : List CtxId, (∀ ctx ∈ new, ctx = state.shared.made) ∧ new.Nodup ∧
      (gone ++ (shared.sendCtxQue ++ thread.unsent)).Perm
        (new ++ (state.shared.sendCtxQue ++ (state.threads self).unsent)) := by
  generalize state.threads self = before at moves
  cases moves with
  | making call =>
      exact ⟨[state.shared.made], [], by simp, List.nodup_singleton _, by simp [Thread.unsent]⟩
  | adding ctx timeout => exact ⟨[], [], by simp, .nil, by simp [Thread.unsent]⟩
  | enqueueing ctx => exact ⟨[], [], by simp, .nil, by simp [Thread.unsent]⟩
  | writing => exact ⟨[], [], by simp, .nil, by simp [Thread.unsent]⟩
  | sent ctx rest =>
      refine ⟨[], [ctx], by simp, .nil, ?_⟩
      exact (@List.perm_middle _ ctx state.shared.sendCtxQue rest).symm
  | unsent ctx rest =>
      refine ⟨[], ctx :: rest, by simp, .nil, ?_⟩
      simpa [Thread.unsent] using @List.perm_append_comm _ (ctx :: rest) state.shared.sendCtxQue
  | clearing | leaving =>
      exact ⟨[], state.shared.sendCtxQue, by simp, .nil, by simp [Thread.unsent]⟩
  | drained after => exact ⟨[], [], by simp, .nil, by cases after <;> exact .refl _⟩
  | _ => exact ⟨[], [], by simp, .nil, .refl _⟩

theorem Placed.step (known : Known state) (placed : Placed state)
    (taken : step state action = some later) : Placed later := by
  refine step_cases taken ?_ ?_ fun _ => ?_
  · rintro self _ shared thread _ rfl moves
    obtain ⟨new, gone, isNew, nodup, perm⟩ := moves.perm
    refine .of_places (Config.Places.put placed ?_ nodup perm fun _ => Iff.rfl)
    intro ctx member unsent
    exact (unsent.made known).ne (isNew ctx member)
  · exact .of_places ⟨placed.exclusive, placed.distinct, placed.complete⟩
  · exact .of_places ⟨placed.exclusive, placed.distinct, placed.complete⟩

theorem Placed.of_runs (start : Initial first) (run : Runs RockStream.step allowed first state) :
    Placed state := by
  induction run with
  | refl => exact .of_initial start
  | tail run _ taken ih => exact ih.step (.of_runs start run) taken

/-- A request, until the fiber that writes has taken it out of the queue. -/
def sendingRun : List Action :=
  [.startRead 0, .startWrite 1, .request 2 ⟨0, 1000, 9⟩] ++ List.replicate 8 (.exec 2 .go) ++
    [.exec 1 .go]

def sending : State :=
  (replay step (fun _ _ => true) sendingRun (unstarted fun _ => 0)).get (by decide)

def written : State := (step sending (.exec 1 (.sent true))).get (by decide)

end Transmissions

/-!
## Request objects without numbers
-/

/-- The call that a thread has no number for yet. -/
def Thread.unnumbered : Thread → Option Call
  | .requesting call | .testing call | .numbering call => some call
  | _ => none

/-- A call is made with an object that has no number and that no other call has, and the counter
does not come back to zero. -/
structure Fresh (state : State) (action : Action) : Prop where
  zero : ∀ self call, action = .request self call → state.shared.requests call.req = 0
  own : ∀ self call, action = .request self call → ∀ thread waiting,
    (state.threads thread).unnumbered = some waiting → waiting.req ≠ call.req
  counter : ∀ self call, action.actor = some self → state.threads self = .numbering call →
    state.shared.sn.toNat + 1 < 2 ^ 32

/-- Who has a request object: the thread of a call, or the context made in it. -/
inductive Holder where
  | nobody
  | call (thread : FiberId)
  | ctx (ctx : CtxId)

/-- Request objects are held by one call or context each, and have numbers of their own. -/
structure Numbered (holder : Nat → Holder) (state : State) : Prop where
  waiting : ∀ thread call, (state.threads thread).unnumbered = some call →
    holder call.req = .call thread ∧ state.shared.requests call.req = 0
  making : ∀ thread call, state.threads thread = .making call →
    holder call.req = .call thread ∧ state.shared.requests call.req ≠ 0
  made : ∀ ctx < state.shared.made, holder (state.shared.ctxs ctx).req = .ctx ctx ∧
    state.shared.requests (state.shared.ctxs ctx).req = (state.shared.ctxs ctx).sn ∧
    (state.shared.ctxs ctx).sn ≠ 0
  bounded : ∀ req, holder req ≠ .nobody →
    (state.shared.requests req).toNat ≤ state.shared.sn.toNat
  unique : ∀ req other, holder req ≠ .nobody → holder other ≠ .nobody →
    state.shared.requests req ≠ 0 →
    state.shared.requests req = state.shared.requests other → req = other

section Numbering

variable {state later : State} {self : FiberId} {shared : Shared} {next : Thread}
  {action : Action} {ctx other : CtxId} {holder : Nat → Holder}

theorem Numbered.of_initial (start : Initial state) : Numbered (fun _ => .nobody) state := by
  constructor <;> simp [start.threads, start.made, Thread.unnumbered]

theorem Numbered.eq_of_sn (numbered : Numbered holder state) (made : ctx < state.shared.made)
    (otherMade : other < state.shared.made)
    (same : (state.shared.ctxs ctx).sn = (state.shared.ctxs other).sn) : ctx = other := by
  obtain ⟨held, sn, some⟩ := numbered.made ctx made
  obtain ⟨otherHeld, otherSn, -⟩ := numbered.made other otherMade
  have req := numbered.unique (state.shared.ctxs ctx).req (state.shared.ctxs other).req
    (by simp [held]) (by simp [otherHeld]) (by rwa [sn]) (by rw [sn, otherSn, same])
  rw [req, otherHeld] at held
  exact (Holder.ctx.inj held).symm

/-- Calls with objects of their own have distinct numbers. -/
theorem Numbered.distinct (numbered : Numbered holder state) (known : Known state) :
    Distinct state action := by
  constructor
  · intro self ctx timeout acts adding other live same
    have made : ctx < state.shared.made :=
      known.threads self ctx (by rw [adding]; exact List.mem_singleton_self ctx)
    exact numbered.eq_of_sn (live.made known) made same
  · intro self call acts numbering ctx unsent same
    obtain ⟨-, sn, some⟩ := numbered.made ctx (unsent.made known)
    obtain ⟨-, zero⟩ := numbered.waiting self call (by rw [numbering]; rfl)
    rw [same, zero] at sn
    exact some sn.symm

/-- A move that draws no number and takes up no call. -/
theorem Numbered.quiet (numbered : Numbered holder state)
    (requests : shared.requests = state.shared.requests) (sn : shared.sn = state.shared.sn)
    (made : shared.made = state.shared.made)
    (same : ∀ ctx < state.shared.made, Ctx.Same (shared.ctxs ctx) (state.shared.ctxs ctx))
    (waiting : ∀ call, next.unnumbered = some call → (state.threads self).unnumbered = some call)
    (making : ∀ call, next ≠ .making call) : Numbered holder (state.put self shared next) := by
  constructor
  case waiting =>
    intro thread call isCall
    rw [Config.put_shared, requests]
    apply numbered.waiting
    obtain ⟨rfl, now⟩ | ⟨-, now⟩ := Config.put_cases state self shared next thread
    all_goals rw [now] at isCall
    · exact waiting call isCall
    · exact isCall
  case making =>
    intro thread call isCall
    rw [Config.put_shared, requests]
    apply numbered.making
    obtain ⟨rfl, now⟩ | ⟨-, now⟩ := Config.put_cases state self shared next thread
    all_goals rw [now] at isCall
    · exact absurd isCall (making call)
    · exact isCall
  case made =>
    intro ctx isMade
    rw [Config.put_shared, made] at isMade
    rw [Config.put_shared, requests, (same ctx isMade).req, (same ctx isMade).sn]
    exact numbered.made ctx isMade
  case bounded => simpa [requests, sn] using numbered.bounded
  case unique => simpa [requests] using numbered.unique

/-- The object of a call is held by its thread. -/
theorem Numbered.request (numbered : Numbered holder state) {call : Call}
    (zero : state.shared.requests call.req = 0)
    (own : ∀ thread waiting, (state.threads thread).unnumbered = some waiting →
      waiting.req ≠ call.req) :
    Numbered (Function.update holder call.req (.call self))
      (state.put self state.shared (.requesting call)) := by
  have apart : ∀ req, state.shared.requests req ≠ 0 →
      Function.update holder call.req (.call self) req = holder req := by
    intro req some
    apply Function.update_of_ne
    rintro rfl
    exact some zero
  constructor
  case waiting =>
    intro thread other isCall
    obtain ⟨rfl, now⟩ | ⟨-, now⟩ :=
      Config.put_cases state self state.shared (.requesting call) thread
    all_goals rw [now] at isCall
    · cases isCall
      exact ⟨Function.update_self _ _ _, zero⟩
    · rw [Function.update_of_ne (own thread other isCall)]
      exact numbered.waiting thread other isCall
  case making =>
    intro thread other isCall
    obtain ⟨rfl, now⟩ | ⟨-, now⟩ :=
      Config.put_cases state self state.shared (.requesting call) thread
    all_goals rw [now] at isCall
    · cases isCall
    · obtain ⟨held, some⟩ := numbered.making thread other isCall
      exact ⟨(apart _ some).trans held, some⟩
  case made =>
    intro ctx isMade
    obtain ⟨held, sn, some⟩ := numbered.made ctx isMade
    exact ⟨(apart _ (sn ▸ some)).trans held, sn, some⟩
  case bounded =>
    intro req held
    by_cases none : state.shared.requests req = 0
    · simp [none]
    · exact numbered.bounded req (apart req none ▸ held)
  case unique =>
    intro req other held otherHeld some same
    have otherSome : state.shared.requests other ≠ 0 := by
      intro none
      exact some (same.trans none)
    exact numbered.unique req other (apart req some ▸ held) (apart other otherSome ▸ otherHeld)
      some same

/-- A number is drawn. -/
theorem Numbered.number (numbered : Numbered holder state) {call : Call}
    (numbering : state.threads self = .numbering call) (few : state.shared.sn.toNat + 1 < 2 ^ 32)
    (sn : shared.sn = state.shared.sn + 1) (drawn : shared.requests call.req = shared.sn)
    (others : ∀ req ≠ call.req, shared.requests req = state.shared.requests req)
    (made : shared.made = state.shared.made) (ctxs : shared.ctxs = state.shared.ctxs) :
    Numbered holder (state.put self shared (.making call)) := by
  obtain ⟨held, zero⟩ := numbered.waiting self call (by rw [numbering]; rfl)
  have next : shared.sn.toNat = state.shared.sn.toNat + 1 := by
    rw [sn, BitVec.toNat_add]
    exact Nat.mod_eq_of_lt few
  have new : ∀ req, holder req ≠ .nobody → state.shared.requests req ≠ shared.sn := by
    intro req isHeld same
    have bounded := numbered.bounded req isHeld
    rw [same, next] at bounded
    omega
  have apart : ∀ {thread other}, thread ≠ self → holder other = .call thread →
      other ≠ call.req := by
    rintro thread _ different isHeld rfl
    exact different (Holder.call.inj (isHeld.symm.trans held))
  constructor
  case waiting =>
    intro thread other isCall
    obtain ⟨rfl, now⟩ | ⟨different, now⟩ :=
      Config.put_cases state self shared (.making call) thread
    all_goals rw [now] at isCall
    · cases isCall
    · obtain ⟨otherHeld, otherZero⟩ := numbered.waiting thread other isCall
      exact ⟨otherHeld, (others _ (apart different otherHeld)).trans otherZero⟩
  case making =>
    intro thread other isCall
    rw [Config.put_shared]
    obtain ⟨rfl, now⟩ | ⟨different, now⟩ :=
      Config.put_cases state self shared (.making call) thread
    all_goals rw [now] at isCall
    · cases isCall
      refine ⟨held, ?_⟩
      intro none
      rw [← drawn, none] at next
      simp at next
    · obtain ⟨otherHeld, some⟩ := numbered.making thread other isCall
      exact ⟨otherHeld, others _ (apart different otherHeld) ▸ some⟩
  case made =>
    intro ctx isMade
    rw [Config.put_shared, made] at isMade
    rw [Config.put_shared, ctxs]
    obtain ⟨otherHeld, isSn, some⟩ := numbered.made ctx isMade
    refine ⟨otherHeld, (others _ ?_).trans isSn, some⟩
    intro same
    rw [same, held] at otherHeld
    cases otherHeld
  case bounded =>
    intro req isHeld
    rw [Config.put_shared]
    by_cases same : req = call.req
    · rw [same, drawn]
    · rw [others req same, next]
      exact (numbered.bounded req isHeld).trans (Nat.le_succ _)
  case unique =>
    intro req other isHeld otherHeld some same
    rw [Config.put_shared] at some same
    by_cases isReq : req = call.req
    all_goals by_cases isOther : other = call.req
    · rw [isReq, isOther]
    · rw [isReq, drawn, others other isOther] at same
      exact absurd same.symm (new other otherHeld)
    · rw [isOther, drawn, others req isReq] at same
      exact absurd same (new req isHeld)
    · rw [others req isReq] at some same
      rw [others other isOther] at same
      exact numbered.unique req other isHeld otherHeld some same

/-- The context of a call is made, and holds the object from now on. -/
theorem Numbered.make (numbered : Numbered holder state) {call : Call}
    (making : state.threads self = .making call)
    (requests : shared.requests = state.shared.requests) (sn : shared.sn = state.shared.sn)
    (made : shared.made = state.shared.made + 1)
    (new : (shared.ctxs state.shared.made).req = call.req ∧
      (shared.ctxs state.shared.made).sn = state.shared.requests call.req)
    (old : ∀ ctx < state.shared.made, shared.ctxs ctx = state.shared.ctxs ctx)
    (waiting : next.unnumbered = none) (drawn : ∀ call, next ≠ .making call) :
    Numbered (Function.update holder call.req (.ctx state.shared.made))
      (state.put self shared next) := by
  obtain ⟨held, some⟩ := numbered.making self call making
  have apart : ∀ {req}, holder req ≠ .call self →
      Function.update holder call.req (.ctx state.shared.made) req = holder req := by
    intro req different
    apply Function.update_of_ne
    rintro rfl
    exact different held
  have still : ∀ req, Function.update holder call.req (.ctx state.shared.made) req ≠ .nobody →
      holder req ≠ .nobody := by
    intro req isHeld none
    rw [apart (by simp [none])] at isHeld
    exact isHeld none
  constructor
  case waiting =>
    intro thread other isCall
    rw [Config.put_shared, requests]
    obtain ⟨rfl, now⟩ | ⟨different, now⟩ := Config.put_cases state self shared next thread
    all_goals rw [now] at isCall
    · cases waiting.symm.trans isCall
    · obtain ⟨otherHeld, zero⟩ := numbered.waiting thread other isCall
      exact ⟨(apart (by simp [otherHeld, different])).trans otherHeld, zero⟩
  case making =>
    intro thread other isCall
    rw [Config.put_shared, requests]
    obtain ⟨rfl, now⟩ | ⟨different, now⟩ := Config.put_cases state self shared next thread
    all_goals rw [now] at isCall
    · exact absurd isCall (drawn other)
    · obtain ⟨otherHeld, otherSome⟩ := numbered.making thread other isCall
      exact ⟨(apart (by simp [otherHeld, different])).trans otherHeld, otherSome⟩
  case made =>
    intro other isMade
    rw [Config.put_shared, made] at isMade
    rw [Config.put_shared, requests]
    obtain older | rfl := Nat.lt_succ_iff_lt_or_eq.mp isMade
    · obtain ⟨otherHeld, isSn, otherSome⟩ := numbered.made other older
      rw [old other older]
      exact ⟨(apart (by simp [otherHeld])).trans otherHeld, isSn, otherSome⟩
    · rw [new.1, new.2]
      exact ⟨Function.update_self _ _ _, rfl, some⟩
  case bounded =>
    intro req isHeld
    rw [Config.put_shared, requests, sn]
    exact numbered.bounded req (still req isHeld)
  case unique =>
    intro req other isHeld otherHeld
    rw [Config.put_shared, requests]
    exact numbered.unique req other (still req isHeld) (still other otherHeld)

/-- Only a call makes a thread go on with `Request`. -/
theorem exec_ne_requesting {thread : Thread} {choice : Choice} {after : Shared × Thread}
    (taken : exec self shared thread choice = some after) (call : Call) :
    after.2 ≠ .requesting call := by
  revert taken
  fun_cases exec self shared thread choice <;> rintro ⟨⟩
  case case3 => split <;> simp
  case case35 after => cases after <;> simp [After.resume]
  case case39 => split <;> simp
  all_goals simp

theorem step_requesting (taken : step state action = some later)
    (acts : action.actor = some self) {call : Call}
    (requesting : later.threads self = .requesting call) : action = .request self call := by
  cases action with
  | exec thread choice =>
      cases acts
      obtain ⟨after, executed, rfl⟩ := Option.map_eq_some_iff.mp taken
      rw [Config.put_self] at requesting
      exact absurd requesting (exec_ne_requesting executed call)
  | request thread other =>
      cases acts
      simp only [step] at taken
      split at taken
      case h_3 => cases taken
      all_goals
        cases taken
        rw [Config.put_self] at requesting
        rw [Thread.requesting.inj requesting]
  | expire thread ctx | startRead thread | startWrite thread =>
      cases acts
      obtain ⟨-, same⟩ := Option.ite_none_right_eq_some.mp taken
      cases same
      simp at requesting
  | close | forget => cases acts

/-- Calls with objects of their own keep each object's number to it. -/
theorem Numbered.step (numbered : Numbered holder state) (fresh : Fresh state action)
    (taken : step state action = some later) : ∃ holder', Numbered holder' later := by
  have requested := fun self call acts => @step_requesting state later self action taken acts call
  revert requested
  refine step_cases taken ?_ (fun _ => ⟨holder, ?_⟩) (fun ctx _ => ⟨holder, ?_⟩)
  · rintro self _ shared next acts rfl moves requested
    have same := fun ctx => @Moves.same self state.shared shared _ next ctx moves
    generalize asBefore : state.threads self = thread at moves
    cases moves with
    | request call | again result call =>
        obtain rfl := requested self call acts (Config.put_self ..)
        exact ⟨_, numbered.request (fresh.zero _ _ rfl) (fresh.own _ _ rfl)⟩
    | numbered call preset =>
        exact absurd (numbered.waiting self call (by rw [asBefore]; rfl)).2 preset
    | numbering call =>
        refine ⟨holder, numbered.number asBefore (fresh.counter self call acts asBefore) rfl ?_ ?_
          rfl rfl⟩
        · exact if_pos rfl
        · exact fun req apart => if_neg apart
    | making call =>
        refine ⟨_, numbered.make asBefore rfl rfl rfl ?_ ?_ rfl (by simp)⟩
        · simp
        · intro ctx made
          rw [Shared.modify_other (Nat.ne_of_lt made)]
    | connected | unnumbered =>
        exact ⟨holder, numbered.quiet rfl rfl rfl same
          (by intro call isCall; rw [asBefore]; exact isCall) (by simp)⟩
    | adding ctx timeout =>
        exact ⟨holder, numbered.quiet (by simp) (by rw [Shared.addCtx_eq]) (by simp) same
          (by simp [Thread.unnumbered]) (by simp)⟩
    | drained after =>
        exact ⟨holder, numbered.quiet rfl rfl rfl same
          (by cases after <;> simp [Thread.unnumbered, After.resume])
          (by cases after <;> simp [After.resume])⟩
    | _ =>
        exact ⟨holder, numbered.quiet rfl rfl rfl same (by simp [Thread.unnumbered]) (by simp)⟩
  · exact ⟨numbered.waiting, numbered.making, numbered.made, numbered.bounded, numbered.unique⟩
  · exact ⟨numbered.waiting, numbered.making, numbered.made, numbered.bounded, numbered.unique⟩

end Numbering

/-!
## Responses on their way
-/

/-- The response that a thread has for a context, or has read from it. -/
def Thread.carries : Thread → Option (CtxId × Reply)
  | .storingResult ctx reply | .storingText ctx reply | .storingRsp ctx reply
  | .resumedRsp ctx (some reply) | .resumedResult ctx (some reply) _ => some (ctx, reply)
  | _ => none

/-- A response to the request of a context, with the number of the context. -/
structure Reply.Fits (ctxs : CtxId → Ctx) (ctx : CtxId) (reply : Reply) : Prop where
  answers : reply.answers = ctx
  sn : reply.response.sn = (ctxs ctx).sn

/-- Wherever a response is on its way to the caller, it is to the request of the caller. -/
structure Carried (state : State) : Prop where
  thread : ∀ thread ctx reply, (state.threads thread).carries = some (ctx, reply) →
    reply.Fits state.shared.ctxs ctx
  stored : ∀ ctx < state.shared.made, ∀ reply, (state.shared.ctxs ctx).rsp = some reply →
    reply.Fits state.shared.ctxs ctx
  returned : ∀ thread result reply, state.threads thread = .returned result →
    result.response = some reply → ∃ ctx < state.shared.made,
      reply.Fits state.shared.ctxs ctx ∧ (state.shared.ctxs ctx).req = result.request

section Carrying

variable {state later : State} {self : FiberId} {shared : Shared} {next : Thread}
  {action : Action} {ctx : CtxId} {reply : Reply} {result : RockResult}

theorem Thread.carries_mentions {thread : Thread} (carries : thread.carries = some (ctx, reply)) :
    ctx ∈ thread.mentions := by
  revert carries
  fun_cases Thread.carries thread <;> rintro ⟨⟩
  all_goals exact List.mem_singleton_self _

theorem Reply.Fits.after {ctxs ctxs' : CtxId → Ctx} (fits : reply.Fits ctxs ctx)
    (same : Ctx.Same (ctxs' ctx) (ctxs ctx)) : reply.Fits ctxs' ctx :=
  ⟨fits.answers, fits.sn.trans same.sn.symm⟩

/-- A thread has a response from the peer, by the number, or from the context it waited for. -/
theorem Moves.carries (moves : Moves self state.shared (state.threads self) shared next)
    (carries : next.carries = some (ctx, reply)) :
    (state.threads self).carries = some (ctx, reply) ∨
      (state.threads self = .responding reply ∧
        state.shared.find reply.response.sn = some ctx) ∨
      (state.threads self = .resumed ctx ∧ (state.shared.ctxs ctx).rsp = some reply) := by
  generalize state.threads self = thread at moves
  cases moves with
  | responding other owner found =>
      cases carries
      exact .inr (.inl ⟨rfl, found⟩)
  | resumed other =>
      cases given : (state.shared.ctxs other).rsp with
      | none => simp [given, Thread.carries] at carries
      | some stored =>
          rw [given] at carries
          cases carries
          exact .inr (.inr ⟨rfl, given⟩)
  | resumedRsp other rsp =>
      cases rsp with
      | none => cases carries
      | some stored => exact .inl carries
  | storingResult | storingText => exact .inl carries
  | drained after => cases after <;> cases carries
  | _ => cases carries

/-- A caller returns with a response that it has read. -/
theorem Moves.to_returned (moves : Moves self state.shared (state.threads self) shared next)
    (returned : next = .returned result) (isReply : result.response = some reply) :
    ∃ ctx, (state.threads self).carries = some (ctx, reply) ∧
      (state.shared.ctxs ctx).req = result.request := by
  generalize state.threads self = thread at moves
  cases moves with
  | resumedResult ctx rsp code =>
      cases returned
      cases isReply
      exact ⟨ctx, rfl, rfl⟩
  | notConnected =>
      cases returned
      cases isReply
  | drained after => cases after <;> cases returned
  | _ => cases returned

theorem Carried.of_initial (start : Initial state) : Carried state := by
  constructor <;> simp [start.threads, start.made, Thread.carries]

theorem Carried.moved (known : Known state) (matching : Matching state) (carried : Carried state)
    (moves : Moves self state.shared (state.threads self) shared next) :
    Carried (state.put self shared next) := by
  have later : ∀ ctx (reply : Reply), ctx < state.shared.made →
      reply.Fits state.shared.ctxs ctx → reply.Fits shared.ctxs ctx :=
    fun ctx reply made fits => fits.after (moves.same made)
  have made : ∀ thread ctx reply, (state.threads thread).carries = some (ctx, reply) →
      ctx < state.shared.made :=
    fun thread ctx reply carries => known.threads thread ctx (Thread.carries_mentions carries)
  constructor
  case thread =>
    intro thread ctx reply carries
    have still : (state.threads thread).carries = some (ctx, reply) →
        reply.Fits shared.ctxs ctx :=
      fun before => later ctx reply (made thread ctx reply before) (carried.thread _ _ _ before)
    obtain ⟨rfl, now⟩ | ⟨-, now⟩ := Config.put_cases state self shared next thread
    all_goals rw [now] at carries
    · obtain before | ⟨responding, found⟩ | ⟨resumed, given⟩ := moves.carries carries
      · exact still before
      · have there := Shared.find_mem found
        exact later ctx reply (known.shared.reqCtxs _ ctx there)
          ⟨matching.found responding found, matching.keyed _ _ there⟩
      · have isMade := known.threads _ ctx (by rw [resumed]; exact List.mem_singleton_self ctx)
        exact later ctx reply isMade (carried.stored ctx isMade reply given)
    · exact still carries
  case stored =>
    intro ctx isMade reply given
    obtain ⟨older, before | storing⟩ := moves.rsp_cases isMade given
    · exact later ctx reply older (carried.stored ctx older reply before)
    · exact later ctx reply older (carried.thread self ctx reply (by rw [storing]; rfl))
  case returned =>
    intro thread result reply returned isReply
    rw [Config.put_shared]
    obtain ⟨rfl, now⟩ | ⟨-, now⟩ := Config.put_cases state self shared next thread
    all_goals rw [now] at returned
    · obtain ⟨ctx, carries, req⟩ := moves.to_returned returned isReply
      have isMade := made _ ctx reply carries
      exact ⟨ctx, isMade.trans_le moves.made_le,
        later ctx reply isMade (carried.thread _ _ _ carries), (moves.same isMade).req.trans req⟩
    · obtain ⟨ctx, isMade, fits, req⟩ := carried.returned thread result reply returned isReply
      exact ⟨ctx, isMade.trans_le moves.made_le, later ctx reply isMade fits,
        (moves.same isMade).req.trans req⟩

theorem Carried.step (known : Known state) (matching : Matching state) (carried : Carried state)
    (taken : step state action = some later) : Carried later := by
  refine step_cases taken ?_ ?_ fun _ => ?_
  · rintro self _ shared next _ rfl moves
    exact carried.moved known matching moves
  · exact ⟨carried.thread, carried.stored, carried.returned⟩
  · exact ⟨carried.thread, carried.stored, carried.returned⟩

end Carrying

/-- Every caller that waits can be reached by its number, a caller that is given a response is
given the one to its request, with the number that its object has, and a timer only ever ends
the request it was set for. No two requests have one number. -/
structure Served (state : State) : Prop where
  waiting : ∀ fiber ctx, state.threads fiber = .suspended ctx →
    state.shared.find (state.shared.ctxs ctx).sn = some ctx ∨ Completing state ctx
  answered : ∀ thread result reply, state.threads thread = .returned result →
    result.response = some reply → (state.shared.ctxs reply.answers).req = result.request ∧
      reply.response.sn = state.shared.requests result.request
  expired : ∀ ctx other, (ctx, other) ∈ state.shared.erased → other = ctx
  numbers : ∀ ctx < state.shared.made, ∀ other < state.shared.made,
    (state.shared.ctxs ctx).sn = (state.shared.ctxs other).sn → ctx = other

section Runs

variable {first state : State}

/-- Every run of calls with objects of their own is one in which numbers are distinct. -/
theorem Numbered.of_runs (start : Initial first) (run : Runs RockStream.step Fresh first state) :
    ∃ holder, Numbered holder state := by
  induction run with
  | refl => exact ⟨_, .of_initial start⟩
  | tail _ fresh taken ih =>
      obtain ⟨holder, numbered⟩ := ih
      exact numbered.step fresh taken

theorem distinct_of_fresh (start : Initial first) (run : Runs step Fresh first state) :
    Runs step Distinct first state := by
  have always : ∀ ⦃state⦄, Runs step Fresh first state →
      Known state ∧ ∃ holder, Numbered holder state :=
    fun state run => ⟨.of_runs start run, Numbered.of_runs start run⟩
  refine run.weaken always ?_
  rintro state action ⟨known, holder, numbered⟩ -
  exact numbered.distinct known

theorem Carried.of_runs (start : Initial first) (run : Runs RockStream.step Distinct first state) :
    Carried state := by
  induction run with
  | refl => exact .of_initial start
  | tail run _ taken ih =>
      exact ih.step (.of_runs start run) (Matching.of_runs start run).1 taken

/-- Where every call has an object of its own, every request is served. -/
theorem served_fresh (start : Initial first) (run : Runs step Fresh first state) : Served state := by
  have distinct := distinct_of_fresh start run
  obtain ⟨holder, numbered⟩ := Numbered.of_runs start run
  obtain ⟨matching, registered, own⟩ := Matching.of_runs start distinct
  have carried := Carried.of_runs start distinct
  constructor
  case waiting =>
    intro fiber ctx suspended
    exact (registered fiber ctx (by rw [suspended]; rfl)).imp_left matching.find_eq
  case answered =>
    intro thread result reply returned isReply
    obtain ⟨ctx, made, fits, req⟩ := carried.returned thread result reply returned isReply
    obtain ⟨-, sn, -⟩ := numbered.made ctx made
    rw [fits.answers, fits.sn, ← sn, req]
    exact ⟨rfl, rfl⟩
  case expired => exact own.expired
  case numbers => exact fun ctx made other otherMade => numbered.eq_of_sn made otherMade

/-- A call may be made, as long as no other is without a number, and the counter is small. -/
def single (state : State) (action : Action) : Bool :=
  match action with
  | .request _ _ => false
  | _ => state.shared.sn < 7

theorem fresh_of_single {action : Action} (passes : single state action) : Fresh state action := by
  constructor
  · rintro self call rfl
    cases passes
  · rintro self call rfl
    cases passes
  · intro self call acts numbering
    have few : state.shared.sn < 7 := by
      cases action with
      | request => cases passes
      | _ => simpa [single] using passes
    have small : state.shared.sn.toNat < 7 := few
    omega

/-- A stream that has been started. -/
def opened : State :=
  (replay step single [.startRead 0, .startWrite 1] (unstarted fun _ => 0)).get (by decide)

/-- A call with an object that has no number. -/
def calling : State := opened.put 2 opened.shared (.requesting ⟨0, 1000, 9⟩)

/-- The request is sent and answered, and the call returns. -/
def returnedRun : List Action :=
  List.replicate 8 (.exec 2 .go) ++
    [.exec 1 .go, .exec 1 (.sent true), .exec 0 (.received (.response ⟨{ sn := 1 }, 0⟩))] ++
    List.replicate 9 (.exec 0 .go) ++ List.replicate 4 (.exec 2 .go)

def returned : State := (replay step single returnedRun calling).get (by decide)

theorem served_fresh_returned :
    returned.threads 2 = .returned ⟨0, some ⟨{ sn := 1 }, 0⟩, 404, bytesOf "unhandle"⟩ ∧
      Served returned := by
  have idle : opened.threads 2 = .idle := by decide
  have unnumbered : ∀ thread, (opened.threads thread).unnumbered = none :=
    replay_forall (motive := fun thread => Thread.unnumbered thread = none) step_frame 2
      (Option.some_get _).symm (by decide) (by decide) (fun _ _ => rfl)
  have fresh : Fresh opened (.request 2 ⟨0, 1000, 9⟩) := by
    constructor
    · rintro self call ⟨⟩
      decide
    · intro self call _ thread waiting isCall
      rw [unnumbered thread] at isCall
      cases isCall
    · rintro self call ⟨⟩ numbering
      rw [idle] at numbering
      cases numbering
  have taken : step opened (.request 2 ⟨0, 1000, 9⟩) = some calling := by
    simp only [step, idle, calling]
  have before : Runs step Fresh (unstarted fun _ => 0) opened :=
    .of_replay (fun _ _ => fresh_of_single) (Option.some_get _).symm
  have after : Runs step Fresh calling returned :=
    .of_replay (fun _ _ => fresh_of_single) (Option.some_get _).symm
  exact ⟨by decide, served_fresh (initial_unstarted _) ((before.tail fresh taken).trans after)⟩

end Runs

end Xten.RockStream
