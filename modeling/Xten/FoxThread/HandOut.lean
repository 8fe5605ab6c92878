import Xten.FoxThread.Leases

/-!
# What a FoxThreadPool makes of its callbacks

They are handed out first in, first out, and each is with the thread that it was handed to until
this thread has finished it. As long as callbacks wait and threads are free, a `check` is to come.
-/

namespace Xten.FoxThreadPool

open Std.Interleaving

variable {Task : Type}

/-- The callback that the thread is within. -/
def running : FoxThread.Worker (Callback Task) → List (Callback Task)
  | .within task _ _ => [task]
  | _ => []

namespace Shared

variable (shared : Shared Task) (thr : Nat)

/-- The callbacks of the pool that are queued on the thread or running. -/
def pending : List Task :=
  leases ((running (shared.threads thr).worker).map some ++
    ((shared.threads thr).worker.batch ++ (shared.threads thr).callbacks))

/-- The callbacks of the pool that the thread has finished. -/
def finished : List Task :=
  leases (((shared.threads thr).executed.take
    ((shared.threads thr).executed.length - (running (shared.threads thr).worker).length)).map some)

end Shared

/-- The call has taken the thread and the callback, and has not brought them together yet. -/
def Call.hands (thr : Nat) (cb : Task) : Call Task → Prop
  | .handing _ other task => other = thr ∧ task = cb
  | _ => False

/-- The call is in `check`, or on its way there. -/
def Call.checks : Call Task → Prop
  | .outside | .telling _ => False
  | _ => True

/-- The thread's callback is finished, and somebody has a pointer to it still, or is in
`releaseFoxThread`. -/
def Due (state : State Task) (thr : Nat) : Prop :=
  state.shared.pending thr = [] ∧ (∀ actor cb, ¬ (state.threads actor).hands thr cb) ∧
    ((∃ actor, (state.threads actor).refers thr) ∨ state.shared.copies thr ≠ [])

/-- Where a thread stands. -/
inductive Standing (state : State Task) (thr : Nat) : Prop where
  | free (once : state.shared.free.count thr = 1) (none : state.shared.pending thr = [])
      (nobody : ∀ actor, ¬ (state.threads actor).refers thr)
      (finished : state.shared.handedTo thr = state.shared.finished thr)
  | taken (notFree : thr ∉ state.shared.free) (none : state.shared.pending thr = [])
      (actor : Nat) (cb : Task) (hands : (state.threads actor).hands thr cb)
      (nobody : ∀ other ≠ actor, ¬ (state.threads other).refers thr)
      (finished : state.shared.handedTo thr = state.shared.finished thr ++ [cb])
  | holds (notFree : thr ∉ state.shared.free) (cb : Task) (one : state.shared.pending thr = [cb])
      (nobody : ∀ actor task, ¬ (state.threads actor).hands thr task)
      (finished : state.shared.handedTo thr = state.shared.finished thr ++ [cb])
  | due (notFree : thr ∉ state.shared.free) (due : Due state thr)
      (finished : state.shared.handedTo thr = state.shared.finished thr)

section Standing

variable {state : State Task} {thr : Nat}

/-- What a thread has been given, it has finished, or it is to be finished. -/
theorem given_eq (ordered : FoxThread.Ordered (thread state thr))
    (listed : Listed thr (state.shared.threads thr) (state.shared.taken thr)) :
    state.shared.given thr = state.shared.finished thr ++ state.shared.pending thr := by
  have executed : (state.shared.threads thr).executed =
      (state.shared.threads thr).executed.take ((state.shared.threads thr).executed.length -
        (running (state.shared.threads thr).worker).length) ++
        running (state.shared.threads thr).worker := by
    cases worker : (state.shared.threads thr).worker with
    | within task size rest =>
        obtain ⟨done, executed⟩ := listed.last task size rest worker
        simp [running, executed]
    | _ => simp [running]
  have all := congrArg (List.map some) executed
  rw [List.map_append] at all
  rw [Shared.given, thread_pushed ordered, all, List.append_assoc, leases_append]
  rfl

/-- What is to be finished has a pointer with it. -/
theorem pending_le (ordered : FoxThread.Ordered (thread state thr))
    (listed : Listed thr (state.shared.threads thr) (state.shared.taken thr)) :
    (state.shared.pending thr).length ≤ (state.shared.copies thr).length := by
  have suffix : (running (state.shared.threads thr).worker).map some ++
      (state.shared.threads thr).worker.batch <:+ state.shared.taken thr := by
    have list := listed.list
    cases worker : (state.shared.threads thr).worker with
    | ended left => exact absurd worker (listed.not_ended (thread_pushed ordered) left)
    | looping | received => exact List.nil_suffix
    | going size rest | within task size rest =>
        rw [worker] at list
        exact list
  rw [Shared.pending, Shared.copies, ← List.append_assoc]
  exact ((suffix.sublist.append_right _).filterMap lease).length_le

/-- A call that has taken a callback refers to its thread. -/
theorem Call.refers_of_hands {call : Call Task} {cb : Task} (hands : call.hands thr cb) :
    call.refers thr := by
  cases call with
  | handing below other task => exact hands.1
  | _ => exact absurd hands id

/-- A thread with one pointer at least, whose callback is queued, running or finished. -/
theorem Standing.of_pending (given : state.shared.given thr =
      state.shared.finished thr ++ state.shared.pending thr)
    (notFree : state.shared.free.count thr = 0) (few : (state.shared.pending thr).length ≤ 1)
    (nobody : ∀ actor task, ¬ (state.threads actor).hands thr task)
    (handed : state.shared.handedTo thr = state.shared.given thr)
    (pointer : (∃ actor, (state.threads actor).refers thr) ∨ state.shared.copies thr ≠ []) :
    Standing state thr := by
  rw [given] at handed
  have absent : thr ∉ state.shared.free := List.count_eq_zero.mp notFree
  match pending : state.shared.pending thr with
  | [] =>
      rw [pending, List.append_nil] at handed
      exact .due absent ⟨pending, nobody, pointer⟩ handed
  | [cb] => exact .holds absent cb pending nobody (pending ▸ handed)
  | one :: other :: rest =>
      rw [pending] at few
      exact absurd few (by simp)

/-- Where a thread stands follows from who refers to it. -/
theorem Standing.of_lent (ordered : FoxThread.Ordered (thread state thr))
    (listed : Listed thr (state.shared.threads thr) (state.shared.taken thr))
    (lent : Lent state thr) (on : state.shared.start = true) (inside : thr < state.shared.size) :
    Standing state thr := by
  have given := given_eq ordered listed
  have few := pending_le ordered listed
  have one : state.shared.lends thr = 1 := if_pos ⟨on, inside⟩
  have settled : state.shared.copies thr = [] → state.shared.pending thr = [] := fun none =>
    List.eq_nil_of_length_eq_zero (by rw [none] at few; exact Nat.le_zero.mp few)
  by_cases nobody : ∀ actor, ¬ (state.threads actor).refers thr
  · obtain ⟨count, used, handed⟩ := lent.alone nobody
    by_cases none : state.shared.copies thr = []
    · rw [none, List.length_nil] at count
      rw [given, settled none, List.append_nil] at handed
      exact .free (count.trans one) (settled none) nobody handed
    · have some := List.length_pos_of_ne_nil none
      exact .of_pending given (by omega) (by omega)
        (fun actor task hands => nobody actor (Call.refers_of_hands hands)) handed (.inr none)
  · obtain ⟨actor, refers⟩ := not_forall_not.mp nobody
    have shown := lent.held actor refers
    have only := lent.only refers
    cases call : state.threads actor with
    | handing below other cb =>
        rw [call] at shown refers
        obtain ⟨count, -, none, handed⟩ := shown
        rw [given, settled none, List.append_nil] at handed
        exact .taken (List.count_eq_zero.mp count) (settled none) actor cb
          (by rw [call]; exact ⟨refers, rfl⟩) only handed
    | sending below other | leaving below other =>
        rw [call] at shown
        obtain ⟨count, -, single, handed⟩ := shown
        refine .of_pending given count (few.trans single) (fun holder task hands => ?_) handed
          (.inl ⟨actor, refers⟩)
        obtain rfl := lent.unique holder actor (Call.refers_of_hands hands) refers
        rw [call] at hands
        exact hands
    | releasing below other =>
        rw [call] at shown
        obtain ⟨count, -, none, handed⟩ := shown
        refine .of_pending given count (by rw [settled none]; exact Nat.zero_le _)
          (fun holder task hands => ?_) handed (.inl ⟨actor, refers⟩)
        obtain rfl := lent.unique holder actor (Call.refers_of_hands hands) refers
        rw [call] at hands
        exact hands
    | _ =>
        rw [call] at refers
        exact absurd refers id

end Standing

/-- What holds between any two steps. -/
structure HandsOut (state : State Task) : Prop where
  ordered : ∀ thr, FoxThread.Ordered (thread state thr)
  listed : ∀ thr, Listed thr (state.shared.threads thr) (state.shared.taken thr)
  lent : ∀ thr, Lent state thr
  fifo : state.shared.passed = state.shared.handed.map Prod.snd ++ state.shared.callbacks
  real : ∀ entry ∈ state.shared.handed, entry.1 < state.shared.size
  early : state.shared.start = false → state.shared.free = []
  checked : state.shared.free ≠ [] → state.shared.callbacks ≠ [] →
    ∃ actor, (state.threads actor).checks

section Steps

variable {state after : State Task} {next : Shared Task} {actor : Nat} {was now : Call Task}

theorem HandsOut.initial (size : Nat) : HandsOut (constructed size : State Task) where
  ordered := fun _ => ⟨rfl, rfl, fun queued => absurd rfl queued⟩
  listed := fun _ => .initial
  lent := fun _ => ⟨fun _ _ refers => absurd refers id, fun _ refers => absurd refers id,
    fun _ => ⟨rfl, rfl, rfl⟩, fun _ refers => absurd refers id⟩
  fifo := rfl
  real := fun _ member => absurd member List.not_mem_nil
  early := fun _ => rfl
  checked := fun free => absurd rfl free

/-- A thread that is free is one of the pool. -/
theorem Lent.inside {thr : Nat} (lent : Lent state thr) (free : thr ∈ state.shared.free) :
    thr < state.shared.size := by
  have some : 0 < state.shared.free.count thr := List.count_pos_iff.mpr free
  by_cases nobody : ∀ holder, ¬ (state.threads holder).refers thr
  · obtain ⟨count, -⟩ := lent.alone nobody
    by_contra outside
    rw [Shared.lends, if_neg fun both => outside both.2] at count
    omega
  · obtain ⟨holder, refers⟩ := not_forall_not.mp nobody
    exact (lent.real holder refers).2

/-- What is handed out comes from the front. -/
theorem Move.in_order (move : Move state.shared actor was next now) (handsOut : HandsOut state)
    (isWas : state.threads actor = was) :
    next.passed = next.handed.map Prod.snd ++ next.callbacks ∧
      (∀ entry ∈ next.handed, entry.1 < next.size) ∧ (next.start = false → next.free = []) := by
  have ⟨_, listed, lent, fifo, real, early, _⟩ := handsOut
  cases move with
  | starts off => exact ⟨fifo, real, nofun⟩
  | pushes cbs =>
      refine ⟨?_, real, early⟩
      simp only [Shared.push, fifo, List.append_assoc]
  | takes below thr cb free callbacks on isFree queued =>
      refine ⟨?_, fun entry member => ?_, fun off => absurd (off.symm.trans on) Bool.false_ne_true⟩
      · simp [fifo, queued]
      · obtain old | new := List.mem_append.mp member
        · exact real entry old
        · rw [List.mem_singleton.mp new]
          exact (lent thr).inside (isFree ▸ List.mem_cons_self)
  | returns below thr cb ended =>
      exact absurd ((listed thr).running.symm.trans ended) Bool.noConfusion
  | leaves below thr gone =>
      cases gone
      exact ⟨fifo, real, early⟩
  | destroys callback rest inside on list done gone =>
      obtain ⟨rfl, rfl, -⟩ | ⟨thr, cb, -, gone⟩ := destroy_cases gone
      · exact ⟨fifo, real, early⟩
      · cases gone
        exact ⟨fifo, real, early⟩
  | releases below thr =>
      have refers : (state.threads actor).refers thr := by
        rw [isWas]
        rfl
      exact ⟨fifo, real, fun off =>
        absurd (off.symm.trans ((lent thr).real actor refers).1) Bool.false_ne_true⟩
  | _ => exact ⟨fifo, real, early⟩

/-- A `check` ends only if there is nothing to hand out, or nobody to hand it to. -/
theorem Move.checked (move : Move state.shared actor was next now) (handsOut : HandsOut state)
    (isWas : state.threads actor = was) (free : next.free ≠ []) (queued : next.callbacks ≠ []) :
    ∃ other, ((state.put actor next now).threads other).checks := by
  have itself : now.checks → ∃ other, ((state.put actor next now).threads other).checks :=
    fun checks => ⟨actor, by rwa [Config.put_self]⟩
  have others : ¬ was.checks → next.free = state.shared.free →
      next.callbacks = state.shared.callbacks →
      ∃ other, ((state.put actor next now).threads other).checks := by
    intro idle sameFree sameCallbacks
    rw [sameFree] at free
    rw [sameCallbacks] at queued
    exact Config.exists_put (handsOut.checked free queued) fun checks => absurd (isWas ▸ checks) idle
  cases move with
  | ends below lacking =>
      cases below with
      | succ below => exact itself trivial
      | zero =>
          obtain off | none | none := lacking
          · exact absurd (handsOut.early off) free
          · exact absurd none free
          · exact absurd none queued
  | leaves below thr gone =>
      cases gone
      refine itself ?_
      split <;> trivial
  | destroys callback rest inside on list done gone =>
      obtain ⟨rfl, rfl, -⟩ | ⟨thr, cb, -, gone⟩ := destroy_cases gone
      · exact others id rfl rfl
      · unfold Shared.drop at gone
        cases gone
        exact others id rfl rfl
  | directs | tells | swaps | reads => exact others id rfl rfl
  | _ => exact itself trivial

/-- A step of the pool keeps it all. -/
theorem HandsOut.preserved (handsOut : HandsOut state) {action : Action Task}
    (running : Unstopped state action) (taken : step state action = some after) :
    HandsOut after := by
  obtain ⟨next, now, move, rfl⟩ := Move.of_step running taken
  obtain ⟨fifo, real, early⟩ := move.in_order handsOut rfl
  exact {
    ordered := fun thr => by
      obtain same | ⟨call, called⟩ := move.thread rfl thr
      · rw [same]
        exact handsOut.ordered thr
      · exact (handsOut.ordered thr).preserved called
    listed := move.listed handsOut.ordered handsOut.listed
    lent := move.lent rfl handsOut.listed handsOut.lent
    fifo := fifo
    real := real
    early := early
    checked := move.checked handsOut rfl }

theorem HandsOut.of_runs {size : Nat} (run : Runs step Unstopped (constructed size) state) :
    HandsOut state :=
  run.invariant (fun _ _ _ handsOut running taken => handsOut.preserved running taken)
    (.initial size)

/-- The number of threads stays what it was. -/
theorem Move.size (move : Move state.shared actor was next now) :
    next.size = state.shared.size := by
  cases move with
  | leaves below thr gone =>
      cases gone
      rfl
  | destroys callback rest inside on list done gone =>
      obtain ⟨rfl, rfl, -⟩ | ⟨thr, cb, -, gone⟩ := destroy_cases gone
      · rfl
      · cases gone
        rfl
  | _ => rfl

theorem size_of_runs {size : Nat} (run : Runs step Unstopped (constructed size) state) :
    state.shared.size = size := by
  refine @Runs.invariant _ _ _ _ _ _ (fun state => state.shared.size = size) ?_ run rfl
  intro state action after same running taken
  obtain ⟨next, now, move, rfl⟩ := Move.of_step running taken
  exact move.size.trans same

/-- Every thread is free once, or it has one callback of the pool, or it is about to be released.
The callbacks are handed out in the order in which they have been passed, to one thread of the
pool each, and a `check` is to come as long as callbacks wait and threads are free. -/
theorem hands_out_one_at_a_time {size : Nat}
    (run : Runs step Unstopped (constructed size) state) :
    (state.shared.start = true → ∀ thr < size, Standing state thr) ∧
      state.shared.passed = state.shared.handed.map Prod.snd ++ state.shared.callbacks ∧
      (∀ entry ∈ state.shared.handed, entry.1 < size) ∧
      (state.shared.free ≠ [] → state.shared.callbacks ≠ [] →
        ∃ actor, (state.threads actor).checks) := by
  have handsOut := HandsOut.of_runs run
  obtain rfl := size_of_runs run
  refine ⟨fun on thr inside => ?_, handsOut.fifo, handsOut.real, handsOut.checked⟩
  exact .of_lent (handsOut.ordered thr) (handsOut.listed thr) (handsOut.lent thr) on inside

end Steps

/-- A pool of one thread, whose `check` has just taken the thread and a callback. -/
def takenRun : List (Action Unit) :=
  [.call 1 .start, .go 1, .call 1 (.dispatch ()), .go 1]

/-- Whether an action stops no thread. -/
def Action.running : Action Task → Bool
  | .call _ (.stop _) => false
  | _ => true

theorem Action.unstopped (state : State Task) (action : Action Task) (running : action.running) :
    Unstopped state action := by
  rintro thread thr rfl
  exact Bool.false_ne_true running

def takenState : State Unit :=
  (replay step (fun _ => Action.running) takenRun (constructed 1)).get (by decide)

theorem takenState_reached : Runs step Unstopped (constructed 1) takenState :=
  .of_replay Action.unstopped (Option.some_get _).symm

theorem hands_out_one_at_a_time_taken :
    (takenState.shared.start = true → ∀ thr < 1, Standing takenState thr) ∧
      takenState.shared.passed =
        takenState.shared.handed.map Prod.snd ++ takenState.shared.callbacks ∧
      (∀ entry ∈ takenState.shared.handed, entry.1 < 1) ∧
      (takenState.shared.free ≠ [] → takenState.shared.callbacks ≠ [] →
        ∃ actor, (takenState.threads actor).checks) :=
  hands_out_one_at_a_time takenState_reached

/-- A thread that has been taken is not free any more, nothing is queued on it or running, and it
is not about to be released. -/
theorem taken_stands_apart : ∃ state : State Unit, Runs step Unstopped (constructed 1) state ∧
    state.shared.start = true ∧ 0 ∉ state.shared.free ∧
      (∀ cb, state.shared.pending 0 ≠ [cb]) ∧ ¬ Due state 0 := by
  have hands : takenState.threads 1 = .handing 0 0 () := by decide
  have none : takenState.shared.pending 0 = [] := by decide
  refine ⟨takenState, takenState_reached, by decide, by decide, fun cb => ?_, fun due => ?_⟩
  · rw [none]
    exact (List.cons_ne_nil _ _).symm
  · refine due.2.1 1 () ?_
    rw [hands]
    exact ⟨rfl, rfl⟩

end Xten.FoxThreadPool
