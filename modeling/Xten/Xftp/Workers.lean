import Xten.FoxThread.Dispatch
import Xten.Xftp.Messages

/-!
# Xftp requests on their worker threads

`handleClient` of any number of sessions, each with its calls of `DispatchReq2Worker` and
`XftpWorker::dispatch`, and the worker threads that these dispatch to. What `RecvRequest`
returns is an input, and so is what `IsConnected` does. The servlets are those that hand a
request to `DispatchReq2Worker`, as `TestServlet` does.
-/

namespace Xten

open Std.Interleaving

/-- What `FoxThreadManager::init` makes for a name: a thread, or a pool of `size` threads. -/
inductive IFoxThread where
  | thread
  | pool (size : BitVec 32) (many : 1 < size)

/-- The number of the thread that runs a callback given to `dispatch(id, cb)`. -/
def IFoxThread.index (id : BitVec 32) : IFoxThread → Nat
  | .thread => 0
  | .pool size _ => (id % size).toNat

/-- `uint32_from_string`, of a string that ends with its first null byte. -/
def uint32FromString (s : List Byte) : BitVec 32 :=
  let mix (h : BitVec 32) (p : Byte) : BitVec 32 := (h ^^^ p.setWidth 32) * 16777619#32
  let h := (s.takeWhile (· ≠ 0)).foldl mix 2166136261#32
  let h := h ^^^ h <<< 13
  let h := h ^^^ h >>> 17
  h ^^^ h <<< 5

namespace Xftp.Serving

/-- A request that has been received; `number` tells it from equal ones. -/
structure XftpTask where
  number : Nat
  req : XftpRequest
deriving DecidableEq, Repr

/-- The servlets of the dispatcher and the handlers of `XftpWorker` by their commands, and
`_workers[0]` and `_workers[1]`. -/
structure Server where
  servlets : BitVec 32 → Bool
  handles : BitVec 32 → Bool
  upload : IFoxThread
  download : IFoxThread

/-- A worker thread: `cmd % 2`, and which one of the pool. -/
abbrev WorkerId := BitVec 32 × Nat

/-- `_workers[cmd % 2]`. -/
def Server.workers (server : Server) (cmd : BitVec 32) : IFoxThread :=
  if cmd % 2 = 0 then server.upload else server.download

/-- The thread that `XftpWorker::dispatch` hands a task to. -/
def Server.worker (server : Server) (task : XftpTask) : WorkerId :=
  let index := uint32FromString task.req.name
  (task.req.cmd % 2, (server.workers task.req.cmd).index index)

/-- Where a session is in `handleClient`. `sending` is within `FoxThread::dispatch`. -/
inductive Session where
  | receiving
  | calling (task : XftpTask)
  | sending (task : XftpTask)
  | closed
deriving DecidableEq, Repr

/-- `called` and `returned` are of `DispatchReq2Worker`, `started` and `finished` of the
handler. -/
inductive Event where
  | called (task : XftpTask)
  | pushed (task : XftpTask)
  | returned (task : XftpTask)
  | started (task : XftpTask)
  | finished (task : XftpTask)
deriving DecidableEq, Repr

/-- The worker threads, how many requests have been received, and what has happened. -/
structure Shared where
  threads : WorkerId → FoxThread.Shared XftpTask
  received : Nat
  history : List Event

inductive Action where
  /-- `RecvRequest` returns. -/
  | receive (session : Nat) (req : Option XftpRequest)
  /-- The session goes on; `connected` is what `IsConnected` would return. -/
  | go (session : Nat) (connected : Bool)
  /-- The worker thread goes on; `size` is what `recv` returns. -/
  | work (worker : WorkerId) (size : Nat)

def Shared.put (shared : Shared) (worker : WorkerId) (thread : FoxThread.Shared XftpTask)
    (events : List Event) : Shared :=
  { shared with
    threads := Function.update shared.threads worker thread
    history := shared.history ++ events }

/-- The loop of `handleClient` goes on if there is a connection. -/
def Session.loop (connected : Bool) : Session :=
  if connected then .receiving else .closed

/-- What the history shows of a step of `read_cb`. -/
def events (before after : FoxThread.Worker XftpTask) : List Event :=
  match before, after with
  | .going _ _, .within task _ _ => [.started task]
  | .within task _ _, .going _ _ => [.finished task]
  | _, _ => []

abbrev State := Config Shared Session

section Step

variable (server : Server)

/-- One step of a session; none if it has to wait. -/
def exec (shared : Shared) : Session → Option (Option XftpRequest) → Bool →
    Option (Shared × Session)
  | .receiving, some (some req), _ =>
      let task : XftpTask := ⟨shared.received, req⟩
      let shared := { shared with received := shared.received + 1 }
      if server.servlets req.cmd then
        some ({ shared with history := shared.history ++ [.called task] }, .calling task)
      else
        some (shared, .closed)
  | .receiving, some none, _ => some (shared, .closed)
  | .calling task, none, connected =>
      let worker := server.worker task
      if server.handles task.req.cmd then
        some (shared.put worker ((shared.threads worker).push [some task]) [.pushed task],
          .sending task)
      else
        some ({ shared with history := shared.history ++ [.returned task] }, .loop connected)
  | .sending task, none, connected =>
      let worker := server.worker task
      some (shared.put worker ((shared.threads worker).send 1) [.returned task], .loop connected)
  | _, _, _ => none

/-- One step of a worker thread. -/
def Shared.work (shared : Shared) (worker : WorkerId) (size : Nat) : Option Shared :=
  ((shared.threads worker).readCb size).map fun thread =>
    shared.put worker thread (events (shared.threads worker).worker thread.worker)

def step (state : State) : Action → Option State
  | .receive session req =>
      (exec server state.shared (state.threads session) (some req) true).map fun next =>
        state.put session next.1 next.2
  | .go session connected =>
      (exec server state.shared (state.threads session) none connected).map fun next =>
        state.put session next.1 next.2
  | .work worker size =>
      (state.shared.work worker size).map fun shared => { state with shared := shared }

end Step

/-- The worker threads have been started. -/
def begun : State where
  shared := ⟨fun _ => FoxThread.started.shared, 0, []⟩
  threads := fun _ => .receiving

end Xftp.Serving

end Xten
