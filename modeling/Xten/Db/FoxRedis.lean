import Xten.Std.Histories
import Xten.Std.Interleaving

/-!
# FoxRedis

The fibers that call `cmd`, and what the redis thread does for them. The callbacks and events of
the redis thread are one step each, as it runs them one after the other; what they do to memory
that can be gone is kept in the order in which they do it.

hiredis takes a command or refuses it, and calls the callback of one that it has taken once or
never. It frees a context right after the callback for a failed connect or for a disconnect.
-/

namespace Xten.FoxRedis

open Std.Interleaving

variable {Reply : Type}

inductive Status where
  | unconnected
  | connecting
  | connected
deriving DecidableEq, Repr

/-- What hiredis has made of a context. -/
inductive Stage where
  | none
  | connecting
  | connected
  | freed
deriving DecidableEq, Repr

/-- What `redisAsyncConnect` returns: null, a context with an error, or one without. -/
inductive Connect where
  | null
  | err
  | ok
deriving DecidableEq, Repr

/-- What the callback of a command is given: an error of the context, a null reply, an error as
the reply, or another reply. -/
inductive Answer (Reply : Type) where
  | err
  | null
  | errorReply
  | reply (reply : Reply)

/-- The request of a fiber, on its stack. -/
structure FCtx (Reply : Type) where
  cmd : List UInt8
  fiber : Option Nat
  rpy : Option Reply

/-- The request at the redis thread, on the heap. `ev` says that the timeout event is pending. -/
structure Ctx where
  address : Nat
  ev : Bool
  timeout : Bool
  cmd : List UInt8
  fctx : Nat
deriving DecidableEq

/-- What the redis thread does to memory, and what becomes of a call. -/
inductive Event where
  /-- A function of hiredis is called with a context. -/
  | hiredis (context : Option Nat)
  | freed (context : Nat)
  /-- An `FCtx` is read or written. -/
  | fctx (call : Nat)
  /-- A `Ctx` is read or written. -/
  | ctx (address : Nat)
  | deleted (address : Nat)
  /-- The callback of a command is called. -/
  | answered (call : Nat)
  /-- The timeout event occurs. -/
  | timedOut (call : Nat)
  | scheduled (call : Nat)
deriving DecidableEq, Repr

/-- The connection. `event` says that `m_event` is not null. Each call of `cmd` has an `FCtx`.
`ctxs` are those `Ctx` that have not been deleted, and `callbacks` the private data of the
commands whose callback may still be called. -/
structure Shared (Reply : Type) where
  passwd : List UInt8
  status : Status
  context : Option Nat
  event : Bool
  tasks : List Nat
  fctxs : Nat → FCtx Reply
  calls : Nat
  ctxs : List Ctx
  addresses : Nat
  callbacks : List (Option Nat)
  stages : Nat → Stage
  contexts : Nat
  ready : List Nat
  trace : List Event

namespace Shared

variable (shared : Shared Reply)

def note (event : Event) : Shared Reply :=
  { shared with trace := shared.trace ++ [event] }

/-- A command is given to hiredis with `m_context`, and private data for `CmdCb`. -/
def command (privdata : Option Nat) (accepts : Bool) : Shared Reply :=
  let shared := shared.note (.hiredis shared.context)
  if accepts then { shared with callbacks := shared.callbacks ++ [privdata] } else shared

/-- hiredis frees a context. -/
def free (context : Nat) : Shared Reply :=
  { shared with stages := Function.update shared.stages context .freed }.note (.freed context)

/-- `TimeCb`. -/
def timeCb (accepts : Bool) : Shared Reply :=
  shared.command none accepts

/-- `ConnectCb`. The callback of the command for the password uses nothing of it. -/
def connectCb (ok : Bool) : Shared Reply :=
  if ok then
    let shared := { shared with status := .connected }
    if shared.passwd ≠ [] then shared.note (.hiredis shared.context) else shared
  else
    { shared with status := .unconnected }

/-- `DisconnectCb`. -/
def disconnectCb : Shared Reply :=
  { shared with status := .unconnected }

def pinit (connect : Connect) (accepts : Bool) : Shared Reply :=
  if shared.status ≠ .unconnected then shared
  else
    match connect with
    | .null => shared
    | .err => { shared with contexts := shared.contexts + 1 }
    | .ok =>
        let ctx := shared.contexts
        let shared := { shared with
          contexts := ctx + 1
          stages := Function.update shared.stages ctx .connecting }
        -- `redisLibeventAttach`, and the two callbacks
        let shared := ((shared.note (.hiredis (some ctx))).note (.hiredis (some ctx))).note
          (.hiredis (some ctx))
        { shared with status := .connecting, context := some ctx, event := true }.timeCb accepts

/-- `if(fctx->fiber) fctx->scheduler->Schedule(...)`, with the fiber moved or copied. -/
def schedule (call : Nat) (moves : Bool) : Shared Reply :=
  let shared := shared.note (.fctx call)
  if (shared.fctxs call).fiber.isSome then
    let fctx := shared.fctxs call
    let shared := if moves then
        { shared with fctxs := Function.update shared.fctxs call { fctx with fiber := none } }
      else shared
    { shared with ready := shared.ready ++ [call] }.note (.scheduled call)
  else
    shared

/-- `delete ctx`. -/
def delete (ctx : Ctx) : Shared Reply :=
  { shared with ctxs := shared.ctxs.erase ctx }.note (.deleted ctx.address)

/-- `ctx->fctx->rpy` is set, if there is a fiber. -/
def setRpy (call : Nat) (reply : Reply) : Shared Reply :=
  let shared := shared.note (.fctx call)
  let fctx := shared.fctxs call
  if fctx.fiber.isSome then
    { shared with fctxs := Function.update shared.fctxs call { fctx with rpy := some reply } }
  else
    shared

/-- The `Ctx` at an address. -/
def find (address : Nat) : Option Ctx :=
  shared.ctxs.find? (·.address = address)

/-- `CmdCb` for a `Ctx`. -/
def complete (ctx : Ctx) (answer : Answer Reply) : Shared Reply :=
  let shared := shared.note (.answered ctx.fctx)
  if ctx.timeout then shared.delete ctx
  else
    match answer with
    | .err | .errorReply => (shared.schedule ctx.fctx true).delete ctx
    | .null => (shared.schedule ctx.fctx false).delete ctx
    | .reply reply => ((shared.setRpy ctx.fctx reply).schedule ctx.fctx true).delete ctx

/-- `CmdCb`. -/
def cmdCb (privdata : Option Nat) (answer : Answer Reply) : Shared Reply :=
  match privdata with
  | none => shared
  | some address =>
      let shared := shared.note (.ctx address)
      match shared.find address with
      | none => shared
      | some ctx => shared.complete ctx answer

/-- `Ctx::EventCb`. -/
def eventCb (ctx : Ctx) : Shared Reply :=
  let shared := (shared.note (.ctx ctx.address)).note (.timedOut ctx.fctx)
  let shared := { shared with
    ctxs := { ctx with ev := false, timeout := true } :: shared.ctxs.erase ctx }
  shared.schedule ctx.fctx true

/-- `pcmd`, with what `redisAsyncConnect` returns if it is called. -/
def pcmd (call : Nat) (connect : Connect) (accepts : Bool) : Shared Reply :=
  let shared := shared.note (.fctx call)
  if shared.status = .unconnected then
    (shared.pinit connect accepts).schedule call true
  else
    let address := shared.addresses
    let cmd := (shared.fctxs call).cmd
    let shared := { shared with
      addresses := address + 1
      ctxs := ⟨address, true, false, cmd, call⟩ :: shared.ctxs }
    if cmd ≠ [] then shared.command (some address) accepts else shared

end Shared

/-- Where a fiber is: outside of `cmd`; before `dispatch`; between it and the switch in
`YieldToHold`; or behind the switch. -/
inductive Fiber where
  | outside
  | calling (call : Nat)
  | leaving (call : Nat)
  | suspended (call : Nat)
deriving DecidableEq, Repr

inductive Action (Reply : Type) where
  /-- A fiber calls `cmd` with a command that can be formatted. -/
  | cmd (fiber : Nat) (cmd : List UInt8)
  | go (fiber : Nat)
  | init (connect : Connect) (accepts : Bool)
  | pcmd (connect : Connect) (accepts : Bool)
  /-- hiredis calls one of the callbacks. -/
  | answer (index : Nat) (answer : Answer Reply)
  | timeout (address : Nat)
  /-- The keep-alive event occurs. -/
  | tick (accepts : Bool)
  | connected (context : Nat) (ok : Bool)
  | disconnected (context : Nat)

abbrev State (Reply : Type) := Config (Shared Reply) Fiber

/-- The `FCtx` of a new call. -/
def Shared.makeFCtx (shared : Shared Reply) (fiber : Nat) (cmd : List UInt8) : Shared Reply :=
  { shared with
    calls := shared.calls + 1
    fctxs := Function.update shared.fctxs shared.calls ⟨cmd, some fiber, none⟩ }

/-- A fiber goes on with `cmd`. -/
def Shared.go (shared : Shared Reply) : Fiber → Option (Shared Reply × Fiber)
  | .outside => none
  | .calling call => some ({ shared with tasks := shared.tasks ++ [call] }, .leaving call)
  | .leaving call => some (shared, .suspended call)
  | .suspended call =>
      if call ∈ shared.ready then
        some ({ shared with ready := shared.ready.erase call }, .outside)
      else
        none

/-- A step of the redis thread. -/
def Shared.redis (shared : Shared Reply) : Action Reply → Option (Shared Reply)
  | .init connect accepts => some (shared.pinit connect accepts)
  | .pcmd connect accepts =>
      match shared.tasks with
      | [] => none
      | call :: rest => some ({ shared with tasks := rest }.pcmd call connect accepts)
  | .answer index answer =>
      shared.callbacks[index]?.map fun privdata =>
        { shared with callbacks := shared.callbacks.eraseIdx index }.cmdCb privdata answer
  | .timeout address =>
      match shared.find address with
      | none => none
      | some ctx => if ctx.ev then some (shared.eventCb ctx) else none
  | .tick accepts => if shared.event then some (shared.timeCb accepts) else none
  | .connected context ok =>
      if shared.stages context = .connecting then
        if ok then
          some ({ shared with
            stages := Function.update shared.stages context .connected }.connectCb true)
        else
          some ((shared.connectCb false).free context)
      else
        none
  | .disconnected context =>
      if shared.stages context = .connected then some (shared.disconnectCb.free context) else none
  | .cmd _ _ | .go _ => none

def step (state : State Reply) : Action Reply → Option (State Reply)
  | .cmd fiber cmd =>
      if state.threads fiber = .outside then
        some (state.put fiber (state.shared.makeFCtx fiber cmd) (.calling state.shared.calls))
      else
        none
  | .go fiber =>
      (state.shared.go (state.threads fiber)).map fun next => state.put fiber next.1 next.2
  | action => (state.shared.redis action).map fun shared => { state with shared := shared }

/-- A fiber begins a call or goes on with it, or the redis thread takes a step. -/
theorem step_cases {state next : State Reply} {action : Action Reply}
    (taken : step state action = some next) :
    (∃ fiber cmd, action = .cmd fiber cmd ∧ state.threads fiber = .outside ∧
      next = state.put fiber (state.shared.makeFCtx fiber cmd) (.calling state.shared.calls)) ∨
    (∃ fiber shared now, action = .go fiber ∧
      state.shared.go (state.threads fiber) = some (shared, now) ∧
      next = state.put fiber shared now) ∨
    ∃ shared, state.shared.redis action = some shared ∧ next = { state with shared := shared } := by
  cases action with
  | cmd fiber cmd =>
      rw [step] at taken
      split at taken
      case isTrue outside =>
        cases taken
        exact .inl ⟨fiber, cmd, rfl, outside, rfl⟩
      case isFalse => cases taken
  | go fiber =>
      obtain ⟨⟨shared, now⟩, gone, rfl⟩ := Option.map_eq_some_iff.mp taken
      exact .inr (.inl ⟨fiber, shared, now, rfl, gone, rfl⟩)
  | init | pcmd | answer | timeout | tick | connected | disconnected =>
      rw [step] at taken
      · obtain ⟨shared, redis, rfl⟩ := Option.map_eq_some_iff.mp taken
        exact .inr (.inr ⟨shared, redis, rfl⟩)
      all_goals nofun

/-- A new connection, with the password of its configuration. -/
def fresh (passwd : List UInt8) : State Reply where
  shared :=
    { passwd := passwd
      status := .unconnected
      context := none
      event := false
      tasks := []
      fctxs := fun _ => ⟨[], none, none⟩
      calls := 0
      ctxs := []
      addresses := 0
      callbacks := []
      stages := fun _ => .none
      contexts := 0
      ready := []
      trace := [] }
  threads := fun _ => .outside

end Xten.FoxRedis
