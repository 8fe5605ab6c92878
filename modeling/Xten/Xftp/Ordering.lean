import Xten.FoxThread.Order
import Xten.Std.Histories
import Xten.Xftp.Workers

/-!
# Chunks of one file are handled in order

What the sessions do with one worker thread is a run of that thread. The history tells what the
thread has been given and what it has executed.
-/

namespace Xten.Xftp.Serving

open Std.Interleaving Std.Histories

section Views

variable {server : Server} {state after : State} {worker : WorkerId}

/-- What a session is to a worker thread. -/
def Session.caller (server : Server) (worker : WorkerId) : Session → FoxThread.Caller
  | .sending task => if server.worker task = worker then .sending else .outside
  | _ => .outside

/-- One worker thread with its callers. -/
def view (server : Server) (worker : WorkerId) (state : State) : FoxThread.State XftpTask where
  shared := state.shared.threads worker
  threads := fun session => (state.threads session).caller server worker

theorem view_put (shared : Shared) (session : Nat) (next : Session) :
    view server worker (state.put session shared next) =
      (view server worker state).put session (shared.threads worker)
        (next.caller server worker) := by
  refine congrArg (Config.mk _) (funext fun other => ?_)
  simp only [view, Config.put]
  split <;> rfl

/-- A session that is nothing to a worker thread may become another such. -/
theorem view_put_same {shared : Shared} {session : Nat} {next : Session}
    (thread : shared.threads worker = state.shared.threads worker)
    (was : (state.threads session).caller server worker = next.caller server worker) :
    view server worker (state.put session shared next) = view server worker state := by
  rw [view_put, thread, ← was]
  refine congrArg (Config.mk _) (funext fun other => ?_)
  simp only [view]
  split
  case isTrue same => rw [same]
  case isFalse => rfl

@[simp] theorem Shared.put_self (shared : Shared) (thread : FoxThread.Shared XftpTask)
    (events : List Event) : (shared.put worker thread events).threads worker = thread :=
  Function.update_self _ _ _

theorem Shared.put_other {other : WorkerId} (shared : Shared)
    (thread : FoxThread.Shared XftpTask) (events : List Event) (apart : worker ≠ other) :
    (shared.put other thread events).threads worker = shared.threads worker :=
  Function.update_of_ne apart _ _

/-- What a thread shows is as before, if it is of the one that was replaced. -/
theorem Shared.put_view {Value : Type} {shared : Shared} {other : WorkerId}
    {thread : FoxThread.Shared XftpTask} {events : List Event}
    (shows : FoxThread.Shared XftpTask → Value)
    (same : shows thread = shows (shared.threads other)) (worker : WorkerId) :
    shows ((shared.put other thread events).threads worker) = shows (shared.threads worker) := by
  by_cases mine : worker = other
  · subst mine
    rw [put_self, same]
  · rw [put_other _ _ _ mine]

theorem sending_caller (task : XftpTask) :
    (Session.sending task).caller server (server.worker task) = .sending :=
  if_pos rfl

theorem sending_caller_other {task : XftpTask} (other : ¬ server.worker task = worker) :
    (Session.sending task).caller server worker = .outside :=
  if_neg other

theorem Session.caller_loop (connected : Bool) :
    (Session.loop connected).caller server worker = .outside := by
  cases connected <;> rfl

/-- Whether an action is a step of a worker thread. -/
def Action.worksOn (worker : WorkerId) : Action → Bool
  | .work other _ => decide (other = worker)
  | _ => false

/-- What a step can do. -/
theorem step_cases {motive : Action → State → Prop} {action : Action}
    (taken : step server state action = some after)
    (refused : ∀ session req received, state.threads session = .receiving →
      state.shared.received ≤ received → motive (.receive session req)
        (state.put session { state.shared with received := received } .closed))
    (called : ∀ session req, state.threads session = .receiving → server.servlets req.cmd = true →
      motive (.receive session (some req)) (state.put session
        { state.shared with
          received := state.shared.received + 1
          history := state.shared.history ++ [.called ⟨state.shared.received, req⟩] }
        (.calling ⟨state.shared.received, req⟩)))
    (pushed : ∀ session task connected, state.threads session = .calling task →
      server.handles task.req.cmd = true →
      motive (.go session connected) (state.put session
        (state.shared.put (server.worker task)
          ((state.shared.threads (server.worker task)).push [some task]) [.pushed task])
        (.sending task)))
    (unhandled : ∀ session task connected, state.threads session = .calling task →
      server.handles task.req.cmd = false →
      motive (.go session connected) (state.put session
        { state.shared with history := state.shared.history ++ [.returned task] }
        (.loop connected)))
    (returned : ∀ session task connected, state.threads session = .sending task →
      motive (.go session connected) (state.put session
        (state.shared.put (server.worker task)
          ((state.shared.threads (server.worker task)).send 1) [.returned task])
        (.loop connected)))
    (worked : ∀ worker size thread, (state.shared.threads worker).readCb size = some thread →
      motive (.work worker size) { state with
        shared := state.shared.put worker thread
          (events (state.shared.threads worker).worker thread.worker) }) :
    motive action after := by
  cases action with
  | receive session req =>
      obtain ⟨⟨shared, next⟩, moved, rfl⟩ := Option.map_eq_some_iff.mp taken
      cases was : state.threads session with
      | receiving =>
          rw [was] at moved
          cases req with
          | none =>
              cases moved
              exact refused session none state.shared.received was (Nat.le_refl _)
          | some req =>
              simp only [exec] at moved
              split at moved
              case isTrue known =>
                cases moved
                exact called session req was known
              case isFalse =>
                cases moved
                exact refused session (some req) (state.shared.received + 1) was (Nat.le_succ _)
      | calling task => rw [was] at moved; cases moved
      | sending task => rw [was] at moved; cases moved
      | closed => rw [was] at moved; cases moved
  | go session connected =>
      obtain ⟨⟨shared, next⟩, moved, rfl⟩ := Option.map_eq_some_iff.mp taken
      cases was : state.threads session with
      | receiving => rw [was] at moved; cases moved
      | closed => rw [was] at moved; cases moved
      | calling task =>
          rw [was] at moved
          simp only [exec] at moved
          split at moved
          case isTrue handled =>
            cases moved
            exact pushed session task connected was handled
          case isFalse missing =>
            cases moved
            exact unhandled session task connected was (Bool.eq_false_iff.mpr missing)
      | sending task =>
          rw [was] at moved
          cases moved
          exact returned session task connected was
  | work worker size =>
      obtain ⟨shared, moved, rfl⟩ := Option.map_eq_some_iff.mp taken
      obtain ⟨thread, read, rfl⟩ := Option.map_eq_some_iff.mp moved
      exact worked worker size thread read

/-- Some steps of a worker thread, so many of which are of `read_cb`. -/
def ViewRuns (before after : FoxThread.State XftpTask) (count : Nat) : Prop :=
  ∃ actions : List (FoxThread.Action XftpTask),
    replay FoxThread.step (fun _ _ => true) actions before = some after ∧
      actions.countP FoxThread.Action.isReadCb = count

theorem ViewRuns.still {before after : FoxThread.State XftpTask} (same : after = before) :
    ViewRuns before after 0 :=
  ⟨[], congrArg some same.symm, rfl⟩

theorem ViewRuns.trans {before middle after : FoxThread.State XftpTask} {first second : Nat}
    (early : ViewRuns before middle first) (late : ViewRuns middle after second) :
    ViewRuns before after (first + second) := by
  obtain ⟨one, replayed, counted⟩ := early
  obtain ⟨other, further, count⟩ := late
  exact ⟨one ++ other, replay_append replayed further, by rw [List.countP_append, counted, count]⟩

/-- A step of the server is a step of a worker thread, or nothing to it. -/
theorem view_step {action : Action} (taken : step server state action = some after)
    (worker : WorkerId) : ViewRuns (view server worker state) (view server worker after)
      (if action.worksOn worker then 1 else 0) := by
  refine step_cases (motive := fun action after => ViewRuns (view server worker state)
    (view server worker after) (if action.worksOn worker then 1 else 0)) taken
    ?refused ?called ?pushed ?unhandled ?returned ?worked
  case refused =>
    intro session req received was _
    exact .still (view_put_same rfl (by rw [was]; rfl))
  case called =>
    intro session req was known
    exact .still (view_put_same rfl (by rw [was]; rfl))
  case unhandled =>
    intro session task connected was missing
    exact .still (view_put_same rfl (by rw [was, Session.caller_loop]; rfl))
  case pushed =>
    intro session task connected was handled
    by_cases mine : server.worker task = worker
    · subst mine
      have outside : (view server (server.worker task) state).threads session = .outside :=
        congrArg (Session.caller server (server.worker task)) was
      refine ⟨[.caller session (.dispatch (some task))], replay_one rfl ?_, rfl⟩
      rw [view_put, Shared.put_self, sending_caller, FoxThread.step, outside]
      rfl
    · refine .still (view_put_same (Shared.put_other _ _ _ (Ne.symm mine)) ?_)
      rw [was, sending_caller_other mine]
      rfl
  case returned =>
    intro session task connected was
    by_cases mine : server.worker task = worker
    · subst mine
      have sending : (view server (server.worker task) state).threads session = .sending :=
        (congrArg (Session.caller server _) was).trans (sending_caller task)
      refine ⟨[.caller session .send], replay_one rfl ?_, rfl⟩
      rw [view_put, Shared.put_self, Session.caller_loop, FoxThread.step, sending]
      rfl
    · refine .still (view_put_same (Shared.put_other _ _ _ (Ne.symm mine)) ?_)
      rw [was, sending_caller_other mine, Session.caller_loop]
  case worked =>
    intro other size thread read
    by_cases mine : other = worker
    · subst mine
      refine ⟨[.readCb size], replay_one rfl ?_, by
        simp [Action.worksOn, FoxThread.Action.isReadCb]⟩
      simp [FoxThread.step, view, read]
    · rw [if_neg (by simp [Action.worksOn, mine])]
      refine .still (congrArg (Config.mk · _) ?_)
      exact Shared.put_other _ _ _ (Ne.symm mine)

/-- What the server does, as it looks to a worker thread. -/
theorem view_replay {actions : List Action}
    (taken : replay (step server) (fun _ _ => true) actions state = some after)
    (worker : WorkerId) : ViewRuns (view server worker state) (view server worker after)
      (actions.countP (Action.worksOn worker)) := by
  induction actions generalizing state with
  | nil =>
      cases taken
      exact .still rfl
  | cons action actions ih =>
      rw [replay, if_pos rfl] at taken
      obtain ⟨middle, one, later⟩ := Option.bind_eq_some_iff.mp taken
      rw [List.countP_cons, Nat.add_comm]
      exact (view_step one worker).trans (ih later)

/-- A step of the server keeps a worker thread in order. -/
theorem ordered_step {action : Action} (taken : step server state action = some after)
    (ordered : FoxThread.Ordered (view server worker state)) :
    FoxThread.Ordered (view server worker after) := by
  obtain ⟨actions, replayed, -⟩ := view_step taken worker
  have own : Runs FoxThread.step (fun _ _ => True) (view server worker state)
      (view server worker after) := Runs.of_replay (fun _ _ _ => trivial) replayed
  exact own.invariant (fun _ _ _ kept _ one => kept.preserved one) ordered

end Views

end Xten.Xftp.Serving
