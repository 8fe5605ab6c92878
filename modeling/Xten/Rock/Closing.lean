import Xten.Rock.Progress

/-!
# Requests that a close leaves behind

`innerClose` completes what is in the map when it swaps it out. A context that is put into
the map afterwards is completed by its timer, or by another `innerClose`. Where neither
is to come, the request hangs.
-/

namespace Xten.RockStream

open Std.Interleaving

/-- Threads that have an `innerClose` to come, up to its swap of the map. The fiber of
`doRead` ends with one. -/
def Thread.willClose : Thread → Bool
  | .receiving | .responding _ | .storingResult _ _ | .storingText _ _ | .storingRsp _ _
  | .closing _ | .swapping _ => true
  | .clearing _ after | .draining _ after | .failing _ _ after | .loading _ _ after
  | .comparing _ _ _ after | .cancelling _ _ after | .judging _ _ after | .judged _ _ after
  | .scheduling _ _ after => after = .reader
  | _ => false

/-- What completes a context: its timer, a completion that is under way or done, or an
`innerClose` to come. -/
inductive Attended (state : State) (ctx : CtxId) : Prop where
  | timer (running : ctx ∈ state.shared.timers)
  | expired (thread : FiberId) (expired : state.threads thread = .erasing ctx)
  | completing (completing : Completing state ctx)
  | closing (thread : FiberId) (willClose : (state.threads thread).willClose)

/-- No fiber is suspended whose context is in the map and unattended. -/
def Unstranded (state : State) : Prop :=
  ∀ fiber ctx sn, state.threads fiber = .suspended ctx → (sn, ctx) ∈ state.shared.reqCtxs →
    Attended state ctx

/-- A context that has no timeout is put into the map only where an `innerClose` is to
come. -/
def Watched (state : State) (action : Action) : Prop :=
  ∀ self ctx, action.actor = some self → state.threads self = .adding ctx 0 →
    state.shared.find (state.shared.ctxs ctx).sn = none →
      ∃ thread, (state.threads thread).willClose

section Closing

variable {first state later : State} {action : Action} {allowed : State → Action → Prop} {self : FiberId} {shared : Shared}
  {thread next : Thread} {ctx : CtxId}

/-- An `innerClose` that is to come stays so until it has swapped the map out. -/
theorem Moves.willClose (moves : Moves self state.shared thread shared next)
    (willClose : thread.willClose) : next.willClose ∨ shared.reqCtxs = [] := by
  cases moves with
  | swapping after => exact .inr rfl
  | drained after =>
      left
      cases after <;> simp_all [Thread.willClose, After.resume]
  | _ => simp_all [Thread.willClose]

/-- The thread that makes a request for a context is the fiber of the context. -/
def Owned (state : State) : Prop :=
  ∀ thread ctx, (state.threads thread).asks = some ctx → (state.shared.ctxs ctx).fiber = thread

theorem Owned.step (known : Known state) (owned : Owned state)
    (taken : step state action = some later) : Owned later := by
  refine step_cases taken ?_ owned fun _ => owned
  intro self thread shared next _ asBefore moves other ctx asks
  by_cases before : (state.threads other).asks = some ctx
  · have older : ctx < state.shared.made := by
      apply known.threads other ctx
      revert before
      cases state.threads other <;> simp_all [Thread.asks, Thread.mentions]
    rw [Config.put_shared, (moves.same older).fiber]
    exact owned other ctx before
  · obtain ⟨rfl, now⟩ | ⟨_, now⟩ := Config.put_cases state self shared next other
    all_goals rw [now] at asks
    · rw [asBefore] at before
      cases moves with
      | making call =>
          cases asks
          simp
      | drained after =>
          rw [After.asks_resume] at asks
          cases asks
      | _ =>
          first
            | exact absurd asks before
            | cases asks
    · exact absurd asks before

theorem Owned.of_runs (start : Initial first) (run : Runs RockStream.step allowed first state) :
    Owned state := by
  induction run with
  | refl => simp [Owned, start.threads, Thread.asks]
  | tail run _ taken ih => exact ih.step (Known.of_runs start run) taken

/-- A context in the map is attended, or is about to get its timer. -/
def Guarded (state : State) : Prop :=
  ∀ sn ctx, (sn, ctx) ∈ state.shared.reqCtxs →
    Attended state ctx ∨ ∃ thread timeout, state.threads thread = .arming ctx timeout ∧ 0 < timeout

theorem Attended.step (orderly : Orderly state) (driven : Driven state)
    (taken : step state action = some later) (attended : Attended state ctx) :
    Attended later ctx ∨ later.shared.reqCtxs = [] := by
  have kept := @Completing.step state later action ctx orderly driven taken
  cases attended with
  | completing completing => exact .inl (.completing (kept completing))
  | timer running =>
      left
      revert kept
      refine step_cases taken ?_ (fun _ => .timer running) fun _ _ => .timer running
      intro self thread shared next _ asBefore moves kept
      cases moves with
      | expire other _ =>
          by_cases same : other = ctx
          · exact .expired self (by rw [Config.put_self, same])
          · exact .timer (by simpa [running] using Ne.symm same)
      | cancelling other rest after _ =>
          by_cases same : other = ctx
          · apply Attended.completing
            apply kept
            exact .inr ⟨self, by rw [asBefore, same]; exact List.mem_cons_self⟩
          · exact .timer (by simpa [running] using Ne.symm same)
      | arming other timeout _ => exact .timer (List.mem_cons_of_mem other running)
      | adding other timeout => exact .timer (by simpa using running)
      | _ => exact .timer running
  | expired other expired =>
      left
      refine step_cases taken ?_ (.expired other expired) fun _ => .expired other expired
      intro self thread shared next _ asBefore moves
      obtain ⟨rfl, now⟩ | ⟨_, now⟩ := Config.put_cases state self shared next other
      · rw [expired] at asBefore
        subst asBefore
        cases moves
        exact .completing (.inr ⟨other, by rw [now]; exact List.mem_singleton_self ctx⟩)
      · exact .expired other (now.trans expired)
  | closing other willClose =>
      refine step_cases taken ?_ (.inl (.closing other willClose)) fun _ =>
        .inl (.closing other willClose)
      intro self thread shared next _ asBefore moves
      obtain ⟨rfl, now⟩ | ⟨_, now⟩ := Config.put_cases state self shared next other
      · subst asBefore
        obtain still | swapped := moves.willClose willClose
        · exact .inl (.closing other (by rwa [now]))
        · exact .inr swapped
      · exact .inl (.closing other (by rwa [now]))

theorem Guarded.step (orderly : Orderly state) (driven : Driven state) (guarded : Guarded state)
    (watched : Watched state action) (taken : step state action = some later) :
    Guarded later := by
  have kept := fun ctx => @Attended.step state later action ctx orderly driven taken
  revert kept
  refine step_cases taken ?moved ?closed ?forgot
  case moved =>
    intro self thread shared next acts asBefore moves kept sn ctx there
    by_cases registered : (sn, ctx) ∈ state.shared.reqCtxs
    · obtain attended | ⟨other, timeout, arming, limited⟩ := guarded sn ctx registered
      · exact .inl ((kept ctx attended).resolve_right (List.ne_nil_of_mem there))
      · obtain ⟨isSelf, _⟩ | ⟨_, now⟩ := Config.put_cases state self shared next other
        · rw [← isSelf, arming] at asBefore
          subst asBefore
          cases moves with
          | arming _ _ _ => exact .inl (.timer List.mem_cons_self)
          | unlimited _ _ never => exact absurd limited never
        · exact .inr ⟨other, timeout, now.trans arming, limited⟩
    · obtain older | ⟨timeout, adding, rfl, rfl, missing⟩ := moves.registered there
      · exact absurd older registered
      · rw [adding] at asBefore
        by_cases never : timeout = 0
        · subst never
          obtain ⟨closer, willClose⟩ := watched self ctx acts asBefore missing
          have apart : closer ≠ self := by
            rintro rfl
            rw [asBefore] at willClose
            cases willClose
          exact .inl (.closing closer (by rwa [Config.put_other apart]))
        · exact .inr ⟨self, timeout, Config.put_self, by bv_omega⟩
  case closed | forgot =>
    intros
    rename_i kept
    intro sn ctx registered
    obtain attended | arming := guarded sn ctx registered
    · exact .inl ((kept ctx attended).resolve_right (List.ne_nil_of_mem registered))
    · exact .inr arming

theorem unstranded_of_guarded (owned : Owned state)
    (guarded : Guarded state) : Unstranded state := by
  intro fiber ctx sn suspended registered
  obtain attended | ⟨other, timeout, arming, _⟩ := guarded sn ctx registered
  · exact attended
  · have same : fiber = other := by
      rw [← owned fiber ctx (by rw [suspended]; rfl), ← owned other ctx (by rw [arming]; rfl)]
    rw [same, arming] at suspended
    cases suspended

/-- Where no context without a timeout is put into the map after the last swap of it, no
request is left behind by a close. -/
theorem unstranded (start : Initial first) (run : Runs step Watched first state) :
    Unstranded state := by
  apply unstranded_of_guarded (Owned.of_runs start run)
  induction run with
  | refl => simp [Guarded, start.reqCtxs]
  | tail run watched taken ih =>
      obtain ⟨orderly, driven⟩ := Driven.of_runs start run
      exact ih.step orderly driven watched taken

/-- No context without a timeout is put into the map. -/
def limits (state : State) (action : Action) : Bool :=
  match action.actor.map state.threads with
  | some (.adding _ timeout) => 0 < timeout
  | _ => true

theorem watched_of_limits (passes : limits state action) : Watched state action := by
  intro self ctx acts adding _
  simp [limits, acts, adding] at passes

/-- A request with a timeout, until it is suspended. -/
def limitedRun : List Action :=
  [.startRead 0, .startWrite 1, .request 2 ⟨0, 1000, 9⟩] ++ List.replicate 8 (.exec 2 .go)

def limited : State := (replay step limits limitedRun (unstarted fun _ => 0)).get (by decide)

theorem unstranded_limited : limited.threads 2 = .suspended 0 ∧ Attended limited 0 := by
  have suspended : limited.threads 2 = .suspended 0 := by decide
  have run : Runs step Watched (unstarted fun _ => 0) limited :=
    .of_replay (fun _ _ => watched_of_limits) (Option.some_get _).symm
  exact ⟨suspended, unstranded (initial_unstarted _) run 2 0 1 suspended (by decide)⟩

/-- A request without a timeout, whose test of the connection comes before the close, and
whose context is put into the map when the fibers of the stream have left. -/
def strandedRun : List Action :=
  [.startRead 0, .startWrite 1, .request 2 ⟨0, 0, 9⟩, .exec 2 .go, .exec 0 (.received .null)] ++
    List.replicate 9 (.exec 0 .go) ++ List.replicate 2 (.exec 1 .go) ++
    List.replicate 6 (.exec 2 .go)

def stranded : State :=
  (replay step (fun _ _ => true) strandedRun (unstarted fun _ => 0)).get (by decide)

theorem stranded_threads (thread : FiberId) :
    stranded.threads thread = .suspended 0 ∨ stranded.threads thread = .idle := by
  have taken : replay step (fun _ _ => true) strandedRun (unstarted fun _ => 0) = some stranded :=
    (Option.some_get _).symm
  exact replay_forall (motive := fun thread : Thread => thread = .suspended 0 ∨ thread = .idle)
    step_frame 3 taken (by decide) (by decide) (fun _ _ => .inr rfl) thread

theorem not_unstranded : ¬ ∀ first state : State, Initial first →
    Runs step (fun _ _ => True) first state → Unstranded state := by
  intro claimed
  have run : Runs step (fun _ _ => True) (unstarted fun _ => 0) stranded :=
    .of_replay (fun _ _ _ => trivial) (Option.some_get _).symm
  have suspended : stranded.threads 2 = .suspended 0 := by decide
  have attended := claimed _ _ (initial_unstarted _) run 2 0 1 suspended (by decide)
  cases attended with
  | timer running => exact absurd running (by decide)
  | expired thread expired =>
      obtain now | now := stranded_threads thread <;> rw [now] at expired <;> cases expired
  | completing completing =>
      obtain there | ⟨thread, handles⟩ := completing
      · exact absurd there (by decide)
      · obtain now | now := stranded_threads thread <;> rw [now] at handles <;> cases handles
  | closing thread willClose =>
      obtain now | now := stranded_threads thread <;> rw [now] at willClose <;> cases willClose

end Closing

end Xten.RockStream
