import Xten.Rock.Messages
import Xten.Std.Interleaving

/-!
# Requests on a stream

`RockStream::Request` and the parties that complete a request: the response handling of
`doRecv`, `onTimer` and `innerClose`, each ending in `Ctx::doRsp`, with `doRead` and
`doWrite` around them. A thread runs one of these functions and takes a step for every
access to what the threads share; a section under `_ctxsMtx` or `_queMtx` is one step.

A context is named by the number of contexts made before it. `getAndDelCtx` reads the
entry it has erased through its iterator; the entry is taken to be still readable.
Messages of `sendMessage`, which carry no context, and requests and notifications that
are received are left out.
-/

namespace Xten.RockStream

open Std.Interleaving

abbrev CtxId := Nat

abbrev FiberId := Nat

/-- `AsyncSocketStream::ERROR`. -/
inductive Error where
  | ok | timeout | ioError | notConnect
deriving DecidableEq, Repr

/-- The value of an error in a `uint32_t`. -/
def Error.code : Error → BitVec 32
  | .ok => 0
  | .timeout => -1
  | .ioError => -2
  | .notConnect => -3

/-- A response that has come, and the context with whose request it was asked for. The
code does not see the latter. -/
structure Reply where
  response : RockResponse
  answers : CtxId
deriving DecidableEq, Repr

/-- `RockCtx`. `timer` says whether the pointer is set. -/
structure Ctx where
  req : Nat
  sn : BitVec 32
  fiber : FiberId
  scheduler : Option Nat
  timed : Bool := false
  timer : Bool := false
  result : BitVec 32 := Error.ok.code
  resultStr : List Byte := bytesOf "ok"
  rsp : Option Reply := none
deriving DecidableEq, Repr

/-- `RockResult`. -/
structure RockResult where
  request : Nat
  response : Option Reply
  resultCode : BitVec 32
  resultStr : List Byte
deriving DecidableEq, Repr

/-- What the threads of a stream share. `requests` gives the `sn` of the request objects
of the callers. `timers` are the timers that have not expired and are not cancelled,
`ready` the fibers scheduled and not yet resumed. `sent` are the transmissions that the
peer may still answer, with the `sn` they carry; `scheduled` and `erased` record the
contexts scheduled so far, and the entries that the timers of contexts erased. -/
structure Shared where
  connected : Bool
  sn : BitVec 32
  requests : Nat → BitVec 32
  made : Nat
  ctxs : CtxId → Ctx
  reqCtxs : List (BitVec 32 × CtxId)
  sendCtxQue : List CtxId
  timers : List CtxId
  ready : List FiberId
  sent : List (CtxId × BitVec 32)
  scheduled : List CtxId
  erased : List (CtxId × CtxId)

/-- The arguments of a call of `Request`, and the scheduler that it is made on. -/
structure Call where
  req : Nat
  timeout : BitVec 64
  scheduler : Nat
deriving DecidableEq, Repr

/-- Where a thread goes on after `innerClose` or `doRsp`: in the loop of `doRead`, after
that loop, in the loop of `doWrite`, or nowhere. -/
inductive After where
  | reader | exit | writer | nowhere
deriving DecidableEq, Repr

/-- What a thread does next. -/
inductive Thread where
  | idle
  /-- `if (IsConnected())` in `Request`. -/
  | requesting (call : Call)
  /-- `request->GetSn() == 0`. -/
  | testing (call : Call)
  /-- `request->SetSn(Atomic::addFetch(_sn, 1))`. -/
  | numbering (call : Call)
  /-- The context is made, with `request->GetSn()`. -/
  | making (call : Call)
  /-- `addCtx(reqctx)`. -/
  | adding (ctx : CtxId) (timeout : BitVec 64)
  /-- `addTimer`, if there is a timeout. -/
  | arming (ctx : CtxId) (timeout : BitVec 64)
  /-- `reqctx->timer` is assigned. -/
  | armed (ctx : CtxId)
  /-- `enqueue(reqctx)`. -/
  | enqueueing (ctx : CtxId)
  /-- `Fiber::YieldToHold()`. -/
  | suspended (ctx : CtxId)
  /-- `reqctx->rsp` is read. -/
  | resumed (ctx : CtxId)
  /-- `reqctx->result` is read. -/
  | resumedRsp (ctx : CtxId) (rsp : Option Reply)
  /-- `reqctx->resultStr` is read. -/
  | resumedResult (ctx : CtxId) (rsp : Option Reply) (result : BitVec 32)
  | returned (result : RockResult)
  /-- The loop of `doRead`, and `ParseFromStream` in `doRecv`. -/
  | receiving
  /-- `getAndDelCtxAs<RockCtx>(sn)`. -/
  | responding (reply : Reply)
  /-- `reqctx->result = rsp->GetResult()`. -/
  | storingResult (ctx : CtxId) (reply : Reply)
  /-- `reqctx->resultStr = rsp->GetResultStr()`. -/
  | storingText (ctx : CtxId) (reply : Reply)
  /-- `reqctx->rsp = rsp`. -/
  | storingRsp (ctx : CtxId) (reply : Reply)
  /-- `_reqCtxs.erase(ctx->sn)` in `onTimer`. -/
  | erasing (ctx : CtxId)
  /-- `ctx->timed = true`. -/
  | marking (ctx : CtxId)
  /-- `ctx->timer = nullptr`. -/
  | disarming (ctx : CtxId)
  /-- `SocketStream::Close()` in `innerClose`. -/
  | closing (after : After)
  /-- `_reqCtxs.swap(copyReqCtxs)`. -/
  | swapping (after : After)
  /-- `_sendCtxQue.clear()`, with the contexts to complete. -/
  | clearing (rest : List CtxId) (after : After)
  /-- The loop of `innerClose`, up to `result = ERROR::IO_ERROR`. -/
  | draining (rest : List CtxId) (after : After)
  /-- `resultStr = "io_error"`. -/
  | failing (ctx : CtxId) (rest : List CtxId) (after : After)
  /-- `Scheduler *sche = scheduler` in `doRsp`. -/
  | loading (ctx : CtxId) (rest : List CtxId) (after : After)
  /-- `Atomic::compareAndSwapBool(scheduler, sche, nullptr)`, and the test of `sche`. -/
  | comparing (ctx : CtxId) (sche : Option Nat) (rest : List CtxId) (after : After)
  /-- `timer->cancel()`. -/
  | cancelling (ctx : CtxId) (rest : List CtxId) (after : After)
  /-- `if (timed)`, up to `result = ERROR::TIMEOUT`. -/
  | judging (ctx : CtxId) (rest : List CtxId) (after : After)
  /-- `resultStr = "timeout"`. -/
  | judged (ctx : CtxId) (rest : List CtxId) (after : After)
  /-- `sche->Schedule(fiber)`. -/
  | scheduling (ctx : CtxId) (rest : List CtxId) (after : After)
  /-- The loop of `doWrite`, up to the swap of `_sendCtxQue`. -/
  | writing
  /-- `ctx->doSend` for the contexts swapped out. -/
  | sending (copyQue : List CtxId)
  /-- `_sendCtxQue.clear()` at the end of `doWrite`. -/
  | leaving
deriving DecidableEq, Repr

/-- What `ParseFromStream` ends with. -/
inductive Received where
  | response (reply : Reply)
  | other
  | null
  | thrown
deriving DecidableEq, Repr

/-- What is up to the connection in a step. -/
inductive Choice where
  | go
  | received (event : Received)
  | sent (ok : Bool)
deriving DecidableEq, Repr

namespace Shared

/-- Change one context. -/
@[simps connected sn requests made reqCtxs sendCtxQue timers ready sent scheduled erased]
def modify (shared : Shared) (ctx : CtxId) (change : Ctx → Ctx) : Shared :=
  { shared with
    ctxs := fun other => if other = ctx then change (shared.ctxs ctx) else shared.ctxs other }

/-- The context under an `sn`. -/
def find (shared : Shared) (sn : BitVec 32) : Option CtxId :=
  (shared.reqCtxs.find? fun entry => entry.1 = sn).map (·.2)

/-- `_reqCtxs.erase(sn)`. -/
@[simps]
def erase (shared : Shared) (sn : BitVec 32) : Shared :=
  { shared with reqCtxs := shared.reqCtxs.filter fun entry => entry.1 ≠ sn }

/-- `addCtx`: `insert` leaves an entry that is there. -/
def addCtx (shared : Shared) (ctx : CtxId) : Shared :=
  match shared.find (shared.ctxs ctx).sn with
  | some _ => shared
  | none => { shared with reqCtxs := ((shared.ctxs ctx).sn, ctx) :: shared.reqCtxs }

/-- `Timer::cancel`, or the expiry of a timer: it is no longer among those that run. -/
@[simps]
def stopTimer (shared : Shared) (ctx : CtxId) : Shared :=
  { shared with timers := shared.timers.filter (· ≠ ctx) }

end Shared

/-- The thread that goes on after `innerClose` or `doRsp`. -/
def After.resume : After → Thread
  | .reader => .receiving
  | .exit => .idle
  | .writer => .writing
  | .nowhere => .idle

/-- One step of a thread; none if it has to wait. -/
def exec (self : FiberId) (shared : Shared) : Thread → Choice → Option (Shared × Thread)
  | .requesting call, .go =>
      if shared.connected then
        some (shared, .testing call)
      else
        some (shared, .returned ⟨call.req, none, Error.notConnect.code, bytesOf "not_connect"⟩)
  | .testing call, .go =>
      some (shared, if shared.requests call.req = 0 then .numbering call else .making call)
  | .numbering call, .go =>
      some ({ shared with
        sn := shared.sn + 1
        requests := fun req => if req = call.req then shared.sn + 1 else shared.requests req },
        .making call)
  | .making call, .go =>
      some ({ shared.modify shared.made fun _ => {
          req := call.req
          sn := shared.requests call.req
          fiber := self
          scheduler := some call.scheduler } with
        made := shared.made + 1 },
        .adding shared.made call.timeout)
  | .adding ctx timeout, .go => some (shared.addCtx ctx, .arming ctx timeout)
  | .arming ctx timeout, .go =>
      if 0 < timeout then
        some ({ shared with timers := ctx :: shared.timers }, .armed ctx)
      else
        some (shared, .enqueueing ctx)
  | .armed ctx, .go =>
      some (shared.modify ctx fun self => { self with timer := true }, .enqueueing ctx)
  | .enqueueing ctx, .go =>
      some ({ shared with sendCtxQue := shared.sendCtxQue ++ [ctx] }, .suspended ctx)
  | .suspended ctx, .go =>
      if self ∈ shared.ready then
        some ({ shared with ready := shared.ready.erase self }, .resumed ctx)
      else
        none
  | .resumed ctx, .go => some (shared, .resumedRsp ctx (shared.ctxs ctx).rsp)
  | .resumedRsp ctx rsp, .go => some (shared, .resumedResult ctx rsp (shared.ctxs ctx).result)
  | .resumedResult ctx rsp result, .go =>
      some (shared, .returned ⟨(shared.ctxs ctx).req, rsp, result, (shared.ctxs ctx).resultStr⟩)
  | .receiving, .go => if shared.connected then none else some (shared, .closing .exit)
  | .receiving, .received event =>
      if shared.connected then
        match event with
        | .response reply =>
            if (reply.answers, reply.response.sn) ∈ shared.sent then
              some (shared, .responding reply)
            else
              none
        | .other => some (shared, .receiving)
        | .null => some (shared, .closing .reader)
        | .thrown => some (shared, .closing .exit)
      else
        none
  | .responding reply, .go =>
      match shared.find reply.response.sn with
      | none => some (shared, .receiving)
      | some ctx => some (shared.erase reply.response.sn, .storingResult ctx reply)
  | .storingResult ctx reply, .go =>
      some (shared.modify ctx fun self => { self with result := reply.response.result },
        .storingText ctx reply)
  | .storingText ctx reply, .go =>
      some (shared.modify ctx fun self => { self with resultStr := reply.response.resultString },
        .storingRsp ctx reply)
  | .storingRsp ctx reply, .go =>
      some (shared.modify ctx fun self => { self with rsp := some reply }, .loading ctx [] .reader)
  | .erasing ctx, .go =>
      let sn := (shared.ctxs ctx).sn
      some ({ shared.erase sn with
        erased := ((shared.find sn).map (ctx, ·)).toList ++ shared.erased }, .marking ctx)
  | .marking ctx, .go =>
      some (shared.modify ctx fun self => { self with timed := true }, .disarming ctx)
  | .disarming ctx, .go =>
      some (shared.modify ctx fun self => { self with timer := false }, .loading ctx [] .nowhere)
  | .closing after, .go => some ({ shared with connected := false }, .swapping after)
  | .swapping after, .go =>
      some ({ shared with reqCtxs := [] }, .clearing (shared.reqCtxs.map (·.2)) after)
  | .clearing rest after, .go => some ({ shared with sendCtxQue := [] }, .draining rest after)
  | .draining [] after, .go => some (shared, after.resume)
  | .draining (ctx :: rest) after, .go =>
      some (shared.modify ctx fun self => { self with result := Error.ioError.code },
        .failing ctx rest after)
  | .failing ctx rest after, .go =>
      some (shared.modify ctx fun self => { self with resultStr := bytesOf "io_error" },
        .loading ctx rest after)
  | .loading ctx rest after, .go =>
      some (shared, .comparing ctx (shared.ctxs ctx).scheduler rest after)
  | .comparing ctx sche rest after, .go =>
      if (shared.ctxs ctx).scheduler = sche then
        some (shared.modify ctx fun self => { self with scheduler := none },
          if sche = none then .draining rest after else .cancelling ctx rest after)
      else
        some (shared, .draining rest after)
  | .cancelling ctx rest after, .go =>
      if (shared.ctxs ctx).timer then
        some ((shared.stopTimer ctx).modify ctx fun self => { self with timer := false },
          .judging ctx rest after)
      else
        some (shared, .judging ctx rest after)
  | .judging ctx rest after, .go =>
      if (shared.ctxs ctx).timed then
        some (shared.modify ctx fun self => { self with result := Error.timeout.code },
          .judged ctx rest after)
      else
        some (shared, .scheduling ctx rest after)
  | .judged ctx rest after, .go =>
      some (shared.modify ctx fun self => { self with resultStr := bytesOf "timeout" },
        .scheduling ctx rest after)
  | .scheduling ctx rest after, .go =>
      some ({ shared with
        ready := (shared.ctxs ctx).fiber :: shared.ready
        scheduled := ctx :: shared.scheduled }, .draining rest after)
  | .writing, .go =>
      if shared.connected then
        if shared.sendCtxQue = [] then
          none
        else
          some ({ shared with sendCtxQue := [] }, .sending shared.sendCtxQue)
      else
        some (shared, .leaving)
  | .sending [], .go => some (shared, .writing)
  | .sending (ctx :: rest), .sent ok =>
      if ok then
        some ({ shared with
          sent := (ctx, shared.requests (shared.ctxs ctx).req) :: shared.sent }, .sending rest)
      else
        some (shared, .closing .writer)
  | .leaving, .go => some ({ shared with sendCtxQue := [] }, .idle)
  | _, _ => none

abbrev State := Config Shared Thread

/-- What happens next: a thread takes a step, a fiber calls `Request`, a timer expires
and its `onTimer` is run, `Start` connects and starts one of the two fibers, the stream
is closed from outside, or the peer and the network are done with a transmission. -/
inductive Action where
  | exec (thread : FiberId) (choice : Choice)
  | request (thread : FiberId) (call : Call)
  | expire (thread : FiberId) (ctx : CtxId)
  | startRead (thread : FiberId)
  | startWrite (thread : FiberId)
  | close
  | forget (ctx : CtxId)
deriving DecidableEq, Repr

/-- One step of a stream and its callers. -/
def step (state : State) : Action → Option State
  | .exec thread choice =>
      (exec thread state.shared (state.threads thread) choice).map fun next =>
        state.put thread next.1 next.2
  | .request thread call =>
      match state.threads thread with
      | .idle | .returned _ => some (state.put thread state.shared (.requesting call))
      | _ => none
  | .expire thread ctx =>
      if state.threads thread = .idle ∧ ctx ∈ state.shared.timers then
        some (state.put thread (state.shared.stopTimer ctx) (.erasing ctx))
      else
        none
  | .startRead thread =>
      if state.threads thread = .idle then
        some (state.put thread { state.shared with connected := true } .receiving)
      else
        none
  | .startWrite thread =>
      if state.threads thread = .idle then
        some (state.put thread state.shared .writing)
      else
        none
  | .close => some { state with shared := { state.shared with connected := false } }
  | .forget ctx =>
      some { state with shared := { state.shared with
        sent := state.shared.sent.filter fun transmission => transmission.1 ≠ ctx } }

/-- A stream before its first `Start`, with the request objects of its callers and a
counter. -/
structure Initial (state : State) : Prop where
  made : state.shared.made = 0
  reqCtxs : state.shared.reqCtxs = []
  sendCtxQue : state.shared.sendCtxQue = []
  timers : state.shared.timers = []
  ready : state.shared.ready = []
  sent : state.shared.sent = []
  scheduled : state.shared.scheduled = []
  erased : state.shared.erased = []
  threads : ∀ thread, state.threads thread = .idle

/-- A stream that nothing has been done with. -/
def unstarted (requests : Nat → BitVec 32) : State where
  shared := {
    connected := false, sn := 0, requests := requests, made := 0
    ctxs := fun _ => { req := 0, sn := 0, fiber := 0, scheduler := none }
    reqCtxs := [], sendCtxQue := [], timers := [], ready := [], sent := []
    scheduled := [], erased := [] }
  threads := fun _ => .idle

theorem initial_unstarted (requests : Nat → BitVec 32) : Initial (unstarted requests) := by
  constructor <;> simp [unstarted]

end Xten.RockStream
