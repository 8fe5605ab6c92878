import Xten.FoxThread.Order
import Xten.FoxThread.Pool

/-!
# The steps of a FoxThreadPool

What one step can do. Each thread of the pool is a FoxThread, whose callers are the threads in
`check`; as none is stopped, they have no null callbacks.
-/

namespace Xten.FoxThreadPool

open Std.Interleaving

variable {Task : Type}

/-!
## The threads
-/

/-- What the call is for the thread. -/
def Call.toward (thr : Nat) : Call Task → FoxThread.Caller
  | .sending _ other | .telling other => if other = thr then .sending else .outside
  | _ => .outside

/-- One of the threads, and who calls it. -/
def thread (state : State Task) (thr : Nat) : FoxThread.State (Callback Task) :=
  state.view (fun shared => shared.threads thr) (Call.toward thr)

section Threads

variable {state after : State Task} {thr : Nat}

/-- A thread that is neither changed nor told. -/
theorem thread_same {actor : Nat} {shared : Shared Task} {call : Call Task}
    (sameThread : shared.threads thr = state.shared.threads thr)
    (sameCall : call.toward thr = (state.threads actor).toward thr) :
    thread (state.put actor shared call) thr = thread state thr :=
  Config.view_put.trans ((Config.put_back sameCall).trans (congrArg (Config.mk · _) sameThread))

/-- A call of one of the threads is a step of this thread, and none of the others. -/
theorem thread_called {actor target : Nat} {shared : Shared Task} {was call : Call Task}
    {next : FoxThread.Shared (Callback Task)} (request : FoxThread.Call (Callback Task))
    (isWas : state.threads actor = was)
    (threads : shared.threads = Function.update state.shared.threads target next)
    (called : (state.shared.threads target).call (was.toward target) request =
      some (next, call.toward target))
    (others : ∀ other ≠ target, call.toward other = was.toward other) (thr : Nat) :
    thread (state.put actor shared call) thr = thread state thr ∨
      ∃ action, FoxThread.step (thread state thr) action =
        some (thread (state.put actor shared call) thr) := by
  by_cases same : thr = target
  · subst same isWas
    refine .inr ⟨.caller actor request, ?_⟩
    have updated : shared.threads thr = next := by rw [threads, Function.update_self]
    rw [thread, thread, Config.view_put, updated]
    exact congrArg (Option.map _) called
  · refine .inl (thread_same ?_ (by rw [others thr same, isWas]))
    rw [threads, Function.update_of_ne same]

/-- A step of `read_cb` in one of the threads is a step of this thread, and none of the others. -/
theorem thread_read {actor size : Nat} {shared : Shared Task}
    {next : FoxThread.Shared (Callback Task)} (isWas : state.threads actor = .outside)
    (threads : shared.threads = Function.update state.shared.threads actor next)
    (read : (state.shared.threads actor).readCb size = some next) (thr : Nat) :
    thread (state.put actor shared .outside) thr = thread state thr ∨
      ∃ action, FoxThread.step (thread state thr) action =
        some (thread (state.put actor shared .outside) thr) := by
  have still : (Call.outside : Call Task).toward thr = (state.threads actor).toward thr := by
    rw [isWas]
  by_cases same : thr = actor
  · subst same
    refine .inr ⟨.readCb size, ?_⟩
    have updated : shared.threads thr = next := by rw [threads, Function.update_self]
    rw [thread, thread, Config.view_put, updated, Config.put_back still]
    exact congrArg (Option.map _) read
  · refine .inl (thread_same ?_ still)
    rw [threads, Function.update_of_ne same]

end Threads

/-!
## The moves
-/

/-- What a thread can do in one step, unless it stops another. -/
inductive Move (shared : Shared Task) (actor : Nat) :
    Call Task → Shared Task → Call Task → Prop where
  | starts (off : shared.start = false) :
      Move shared actor .outside { shared with free := List.range shared.size, start := true }
        (.checking 0)
  | pushes (cbs : List Task) : Move shared actor .outside (shared.push cbs) (.checking 0)
  | directs (thr : Nat) (cb : Task) (total : UInt64) :
      Move shared actor .outside
        { shared.setThread thr ((shared.threads thr).push [some (.direct cb)]) with total := total }
        (.telling thr)
  | takes (below thr : Nat) (cb : Task) (free : List Nat) (callbacks : List Task)
      (on : shared.start = true) (isFree : shared.free = thr :: free)
      (queued : shared.callbacks = cb :: callbacks) :
      Move shared actor (.checking below)
        { shared with
          free := free
          callbacks := callbacks
          useCount := Function.update shared.useCount thr 1
          handed := shared.handed ++ [(thr, cb)] }
        (.handing below thr cb)
  | ends (below : Nat)
      (lacking : shared.start = false ∨ shared.free = [] ∨ shared.callbacks = []) :
      Move shared actor (.checking below) shared (Shared.back below)
  | hands (below thr : Nat) (cb : Task) (isStart : (shared.threads thr).start = true) :
      Move shared actor (.handing below thr cb)
        { shared.setThread thr ((shared.threads thr).push [some (.wrapcb thr cb)]) with
          useCount := Function.update shared.useCount thr (shared.useCount thr + 1) }
        (.sending below thr)
  | returns (below thr : Nat) (cb : Task) (ended : (shared.threads thr).start = false) :
      Move shared actor (.handing below thr cb)
        { shared with callbacks := cb :: shared.callbacks } (.leaving below thr)
  | sends (below thr : Nat) :
      Move shared actor (.sending below thr)
        (shared.setThread thr ((shared.threads thr).send 1)) (.leaving below thr)
  | leaves (below thr : Nat) {next : Shared Task} {now : Call Task}
      (gone : shared.drop thr (.releasing (below + 1) thr) (.checking below) = (next, now)) :
      Move shared actor (.leaving below thr) next now
  | releases (below thr : Nat) :
      Move shared actor (.releasing below thr) { shared with free := shared.free ++ [thr] }
        (.checking below)
  | tells (thr : Nat) :
      Move shared actor (.telling thr) (shared.setThread thr ((shared.threads thr).send 1)) .outside
  | destroys (callback : Option (Callback Task)) (rest : List (Option (Callback Task)))
      (inside : actor < shared.size) (on : shared.start = true)
      (list : shared.taken actor = callback :: rest)
      (done : (shared.threads actor).worker = .looping ∨
        ∃ left, (shared.threads actor).worker = .ended left)
      {next : Shared Task} {now : Call Task}
      (gone : { shared with taken := Function.update shared.taken actor rest }.destroy callback =
        (next, now)) :
      Move shared actor .outside next now
  | swaps (next : FoxThread.Shared (Callback Task)) (size : Nat)
      (received : (shared.threads actor).worker = .received)
      (read : (shared.threads actor).readCb size = some next) :
      Move shared actor .outside
        { shared.setThread actor next with
          taken := Function.update shared.taken actor (shared.threads actor).callbacks } .outside
  | reads (next : FoxThread.Shared (Callback Task)) (size : Nat)
      (away : (shared.threads actor).worker ≠ .received)
      (destroyed : (shared.threads actor).worker = .looping → shared.taken actor = [])
      (read : (shared.threads actor).readCb size = some next) :
      Move shared actor .outside (shared.setThread actor next) .outside

section Moves

variable {state after : State Task} {shared next : Shared Task} {actor : Nat} {now : Call Task}

/-- Only a callback of the pool has a pointer. -/
theorem destroy_cases {callback : Option (Callback Task)}
    (gone : shared.destroy callback = (next, now)) :
    (next = shared ∧ now = .outside ∧ ∀ thr cb, callback ≠ some (.wrapcb thr cb)) ∨
      ∃ thr cb, callback = some (.wrapcb thr cb) ∧
        shared.drop thr (.releasing 0 thr) .outside = (next, now) := by
  unfold Shared.destroy at gone
  split at gone
  case h_1 thr cb => exact .inr ⟨thr, cb, rfl, gone⟩
  case h_2 direct =>
    cases gone
    exact .inl ⟨rfl, rfl, direct⟩

/-- A request that stops no thread is one of the moves. -/
theorem Move.of_request {request : Request Task} (running : ∀ thr, request ≠ .stop thr)
    (taken : shared.request request = some (next, now)) : Move shared actor .outside next now := by
  cases request with
  | start =>
      rw [Shared.request, Option.ite_none_left_eq_some] at taken
      cases taken.2
      exact .starts (Bool.eq_false_of_not_eq_true taken.1)
  | dispatch cb =>
      cases taken
      exact .pushes [cb]
  | batchDispatch cbs =>
      cases taken
      exact .pushes cbs
  | dispatchTo id cb =>
      rw [Shared.request, Option.ite_none_right_eq_some] at taken
      cases taken.2
      exact .directs _ cb _
  | stop thr => exact absurd rfl (running thr)

/-- A step within a function of the pool is one of the moves. -/
theorem Move.of_go {call : Call Task} (taken : shared.go call = some (next, now)) :
    Move shared actor call next now := by
  cases call with
  | outside => cases taken
  | checking below =>
      have checked : shared.check below = (next, now) := Option.some.inj taken
      unfold Shared.check at checked
      split at checked
      case h_1 thr free cb callbacks on isFree queued =>
        cases checked
        exact .takes below thr cb free callbacks on isFree queued
      case h_2 lacking =>
        cases checked
        refine .ends below ?_
        by_contra full
        simp only [not_or, Bool.not_eq_false] at full
        obtain ⟨on, free, queued⟩ := full
        obtain ⟨thr, rest, free⟩ := List.exists_cons_of_ne_nil free
        obtain ⟨cb, callbacks, queued⟩ := List.exists_cons_of_ne_nil queued
        exact lacking thr rest cb callbacks on free queued
  | handing below thr cb =>
      rw [Shared.go] at taken
      split at taken
      case isTrue isStart =>
        cases taken
        exact .hands below thr cb isStart
      case isFalse ended =>
        cases taken
        exact .returns below thr cb (Bool.eq_false_of_not_eq_true ended)
  | sending below thr =>
      cases taken
      exact .sends below thr
  | leaving below thr =>
      exact .leaves below thr (Option.some.inj taken)
  | releasing below thr =>
      cases taken
      exact .releases below thr
  | telling thr =>
      cases taken
      exact .tells thr

/-- A step of `read_cb` is one of the moves. -/
theorem Move.of_readCb {size : Nat} (on : shared.start = true) (inside : actor < shared.size)
    (taken : shared.readCb actor size = some (next, now)) :
    Move shared actor .outside next now := by
  unfold Shared.readCb at taken
  split at taken
  case h_1 callback rest looping list =>
    exact .destroys callback rest inside on list (.inl looping) (Option.some.inj taken)
  case h_2 left callback rest ended list =>
    exact .destroys callback rest inside on list (.inr ⟨left, ended⟩) (Option.some.inj taken)
  case h_3 received =>
    obtain ⟨thread, read, moved⟩ := Option.map_eq_some_iff.mp taken
    cases moved
    exact .swaps thread size received read
  case h_4 away looping' ended =>
    obtain ⟨thread, read, moved⟩ := Option.map_eq_some_iff.mp taken
    cases moved
    refine .reads thread size away (fun looping => ?_) read
    by_contra left
    obtain ⟨callback, rest, list⟩ := List.exists_cons_of_ne_nil left
    exact looping' callback rest looping list

/-- Whatever a step does, it is one of the moves. -/
theorem Move.of_step {action : Action Task} (running : Unstopped state action)
    (taken : step state action = some after) :
    ∃ next now, Move state.shared action.thread (state.threads action.thread) next now ∧
      after = state.put action.thread next now := by
  obtain ⟨⟨next, now⟩, acted, rfl⟩ := Option.map_eq_some_iff.mp taken
  refine ⟨next, now, ?_, rfl⟩
  generalize state.threads action.thread = was at acted
  cases action with
  | call thread request =>
      cases was with
      | outside =>
          obtain ⟨-, acted⟩ := Option.ite_none_right_eq_some.mp acted
          exact .of_request (fun thr same => running thread thr (congrArg _ same)) acted
      | _ => cases acted
  | go thread => exact .of_go acted
  | readCb thread size =>
      cases was with
      | outside =>
          obtain ⟨⟨on, inside⟩, acted⟩ := Option.ite_none_right_eq_some.mp acted
          exact .of_readCb on inside acted
      | _ => cases acted

/-- Whatever the pool does is at most one step for each of its threads. -/
theorem Move.thread {was : Call Task} (move : Move state.shared actor was next now)
    (isWas : state.threads actor = was) (thr : Nat) :
    thread (state.put actor next now) thr = thread state thr ∨
      ∃ action, FoxThread.step (thread state thr) action =
        some (thread (state.put actor next now) thr) := by
  cases move with
  | starts | pushes | takes | returns | releases =>
      refine .inl (thread_same rfl ?_)
      rw [isWas]
      rfl
  | ends below =>
      refine .inl (thread_same rfl ?_)
      rw [isWas]
      cases below <;> rfl
  | directs target cb total =>
      exact thread_called (.dispatch (some (.direct cb))) isWas rfl
        (by simp [Call.toward, FoxThread.Shared.call]) (fun _ apart => by simp [Call.toward, apart.symm]) thr
  | hands below target cb =>
      exact thread_called (.dispatch (some (.wrapcb target cb))) isWas rfl
        (by simp [Call.toward, FoxThread.Shared.call]) (fun _ apart => by simp [Call.toward, apart.symm]) thr
  | sends below target =>
      exact thread_called .send isWas rfl (by simp [Call.toward, FoxThread.Shared.call])
        (fun _ apart => by simp [Call.toward, apart.symm]) thr
  | tells target =>
      exact thread_called .send isWas rfl (by simp [Call.toward, FoxThread.Shared.call])
        (fun _ apart => by simp [Call.toward, apart.symm]) thr
  | leaves below target gone =>
      cases gone
      refine .inl (thread_same rfl ?_)
      rw [isWas]
      split <;> rfl
  | destroys callback rest inside on list done gone =>
      obtain ⟨rfl, rfl, -⟩ | ⟨target, cb, -, gone⟩ := destroy_cases gone
      · refine .inl (thread_same rfl ?_)
        rw [isWas]
      · cases gone
        refine .inl (thread_same rfl ?_)
        rw [isWas]
        split <;> rfl
  | swaps next size received read => exact thread_read isWas rfl read thr
  | reads next size away destroyed read => exact thread_read isWas rfl read thr

end Moves

/-!
## The local lists
-/

/-- A callback that has been given to a thread. Those of the pool are bound to this thread, and
none is null. -/
def isFor (thr : Nat) : Option (Callback Task) → Prop
  | some (.wrapcb other _) => other = thr
  | some (.direct _) => True
  | none => False

/-- The local list of `read_cb` ends with what is still to be executed. -/
def Follows (taken : List (Option (Callback Task))) : FoxThread.Worker (Callback Task) → Prop
  | .received => taken = []
  | .going _ rest => rest <:+ taken
  | .within task _ rest => some task :: rest <:+ taken
  | _ => True

/-- A thread that has not been stopped, and its local list. -/
structure Listed (thr : Nat) (thread : FoxThread.Shared (Callback Task))
    (taken : List (Option (Callback Task))) : Prop where
  running : thread.start = true
  given : ∀ callback ∈ thread.pushed, isFor thr callback
  list : Follows taken thread.worker
  known : taken ⊆ thread.pushed
  last : ∀ task size rest, thread.worker = .within task size rest →
    ∃ done, thread.executed = done ++ [task]

namespace Listed

variable {thr : Nat} {thread next : FoxThread.Shared (Callback Task)}
  {taken : List (Option (Callback Task))}

theorem initial : Listed thr (FoxThread.started : FoxThread.State (Callback Task)).shared [] where
  running := rfl
  given := fun _ member => absurd member List.not_mem_nil
  list := trivial
  known := List.nil_subset _
  last := nofun

/-- Something is put into the queue of the thread. -/
theorem push (listed : Listed thr thread taken) {cbs : List (Option (Callback Task))}
    (fine : ∀ callback ∈ cbs, isFor thr callback) : Listed thr (thread.push cbs) taken where
  running := listed.running
  given := fun callback member =>
    (List.mem_append.mp member).elim (listed.given callback) (fine callback)
  list := listed.list
  known := fun _ member => List.mem_append_left _ (listed.known member)
  last := listed.last

theorem send (listed : Listed thr thread taken) (cmd : UInt8) :
    Listed thr (thread.send cmd) taken :=
  ⟨listed.running, listed.given, listed.list, listed.known, listed.last⟩

/-- What is still to be executed or in the queue has been pushed. -/
theorem mem_pushed (pushed : thread.pushed =
      thread.executed.map some ++ (thread.worker.batch ++ thread.callbacks))
    {callback : Option (Callback Task)}
    (member : callback ∈ thread.worker.batch ++ thread.callbacks) : callback ∈ thread.pushed := by
  rw [pushed]
  exact List.mem_append_right _ member

/-- `read_cb` swaps the queue into its local list. -/
theorem swap (listed : Listed thr thread taken) {size : Nat} (pushed : thread.pushed =
      thread.executed.map some ++ (thread.worker.batch ++ thread.callbacks))
    (received : thread.worker = .received) (read : thread.readCb size = some next) :
    Listed thr next thread.callbacks := by
  have known : thread.callbacks ⊆ thread.pushed := fun _ member =>
    mem_pushed pushed (List.mem_append_right _ member)
  rw [FoxThread.Shared.readCb, received] at read
  cases read
  refine ⟨listed.running, listed.given, List.suffix_rfl, known, ?_⟩
  rintro _ _ _ ⟨⟩

/-- `read_cb` goes on. -/
theorem read (listed : Listed thr thread taken) {size : Nat} (pushed : thread.pushed =
      thread.executed.map some ++ (thread.worker.batch ++ thread.callbacks))
    (away : thread.worker ≠ .received) (destroyed : thread.worker = .looping → taken = [])
    (read : thread.readCb size = some next) : Listed thr next taken := by
  have ⟨running, given, list, known, last⟩ := listed
  cases FoxThread.Shared.reads read with
  | receives looping => exact ⟨running, given, destroyed looping, known, nofun⟩
  | swaps received => exact absurd received away
  | calls going =>
      rw [going] at list
      exact ⟨running, given, list, known, fun other _ _ within => by cases within; exact ⟨_, rfl⟩⟩
  | breaks going =>
      have null : none ∈ thread.worker.batch ++ thread.callbacks := by
        rw [going]
        exact List.mem_cons_self
      exact absurd (given none (mem_pushed pushed null)) id
  | ends going => exact ⟨running, given, trivial, known, nofun⟩
  | returns within =>
      rw [within] at list
      exact ⟨running, given, (List.suffix_cons _ _).trans list, known, nofun⟩

/-- The first callback of the local list is destroyed. -/
theorem destroy {callback : Option (Callback Task)} (listed : Listed thr thread (callback :: taken))
    (done : thread.worker = .looping ∨ ∃ left, thread.worker = .ended left) :
    Listed thr thread taken where
  running := listed.running
  given := listed.given
  list := by
    obtain looping | ⟨left, ended⟩ := done
    · rw [looping]
      trivial
    · rw [ended]
      trivial
  known := fun callback member => listed.known (List.mem_cons_of_mem _ member)
  last := listed.last

/-- A thread that has not been stopped has not ended. -/
theorem not_ended (listed : Listed thr thread taken) (pushed : thread.pushed =
      thread.executed.map some ++ (thread.worker.batch ++ thread.callbacks))
    (left : List (Option (Callback Task))) : thread.worker ≠ .ended left := by
  intro ended
  have null : none ∈ thread.worker.batch ++ thread.callbacks := by
    rw [ended]
    exact List.mem_cons_self
  exact listed.given none (mem_pushed pushed null)

end Listed

/-- `read_cb` takes the queue once it has received, and leaves it alone else. -/
theorem readCb_callbacks {thread next : FoxThread.Shared (Callback Task)} {size : Nat}
    (read : thread.readCb size = some next) : next.pushed = thread.pushed ∧
      (thread.worker = .received → next.callbacks = []) ∧
      (thread.worker ≠ .received → next.callbacks = thread.callbacks) := by
  cases FoxThread.Shared.reads read with
  | receives here | swaps here | calls here | returns here => simp [here]
  | breaks here | ends here => simp [FoxThread.Shared.finish, here]

section Lists

variable {state : State Task} {shared next : Shared Task} {actor : Nat} {was now : Call Task}

/-- What has been given to a thread, executed and not. -/
theorem thread_pushed {thr : Nat} (ordered : FoxThread.Ordered (thread state thr)) :
    (state.shared.threads thr).pushed = (state.shared.threads thr).executed.map some ++
      ((state.shared.threads thr).worker.batch ++ (state.shared.threads thr).callbacks) :=
  ordered.pushed

/-- One of the threads changes. -/
theorem Listed.update {threads : Nat → FoxThread.Shared (Callback Task)}
    {taken : Nat → List (Option (Callback Task))} {target : Nat}
    {thread : FoxThread.Shared (Callback Task)} {list : List (Option (Callback Task))}
    (listed : ∀ thr, Listed thr (threads thr) (taken thr)) (changed : Listed target thread list)
    (thr : Nat) : Listed thr (Function.update threads target thread thr)
      (Function.update taken target list thr) := by
  by_cases same : thr = target
  · subst same
    rwa [Function.update_self, Function.update_self]
  · rw [Function.update_of_ne same, Function.update_of_ne same]
    exact listed thr

/-- One of the threads changes, and its local list does not. -/
theorem Listed.update_thread {threads : Nat → FoxThread.Shared (Callback Task)}
    {taken : Nat → List (Option (Callback Task))} {target : Nat}
    {thread : FoxThread.Shared (Callback Task)}
    (listed : ∀ thr, Listed thr (threads thr) (taken thr))
    (changed : Listed target thread (taken target)) (thr : Nat) :
    Listed thr (Function.update threads target thread thr) (taken thr) := by
  have both := Listed.update listed changed thr
  rwa [Function.update_eq_self] at both

/-- A step of the pool keeps the lists of each thread. -/
theorem Move.listed (move : Move state.shared actor was next now)
    (ordered : ∀ thr, FoxThread.Ordered (Xten.FoxThreadPool.thread state thr))
    (listed : ∀ thr, Listed thr (state.shared.threads thr) (state.shared.taken thr)) (thr : Nat) :
    Listed thr (next.threads thr) (next.taken thr) := by
  have pushed := thread_pushed (ordered actor)
  cases move with
  | starts | pushes | takes | ends | returns | releases => exact listed thr
  | directs target cb total =>
      exact Listed.update_thread listed ((listed target).push (by simp [isFor])) thr
  | hands below target cb =>
      exact Listed.update_thread listed ((listed target).push (by simp [isFor])) thr
  | sends below target | tells target =>
      exact Listed.update_thread listed ((listed target).send 1) thr
  | leaves below target gone =>
      cases gone
      exact listed thr
  | destroys callback rest inside on list done gone =>
      have changed : Listed actor (state.shared.threads actor) rest :=
        (list ▸ listed actor).destroy done
      have all := Listed.update listed changed thr
      rw [Function.update_eq_self] at all
      obtain ⟨rfl, rfl, -⟩ | ⟨target, cb, -, gone⟩ := destroy_cases gone
      · exact all
      · cases gone
        exact all
  | swaps thread size received read =>
      exact Listed.update listed ((listed actor).swap pushed received read) thr
  | reads thread size away destroyed read =>
      exact Listed.update_thread listed ((listed actor).read pushed away destroyed read) thr

end Lists

end Xten.FoxThreadPool
