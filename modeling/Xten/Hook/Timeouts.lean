import Xten.Std.Holdings
import Xten.Hook.DoIo

/-!
# A timed call is woken up

A call that is suspended with a timeout has its timer, or a callback that will cancel its
event, as long as no callback cancels before the event has been added.
-/

namespace Xten.Hook

open Std.Interleaving

/-- The conditions that a thread has in hand. -/
def Thread.uses (call : Call) : Thread → Nat
  | .inside other _ _ => if other = call then 1 else 0
  | .callback _ .expired => 0
  | .callback timer _ => if timer.call = call then 1 else 0
  | _ => 0

/-- A callback of the timer. -/
def Thread.Fires (timer : Timer) : Thread → Prop
  | .callback other _ => other = timer
  | _ => False

/-- A callback of the call that is about to cancel its event. -/
def Thread.Comes (call : Call) : Thread → Prop
  | .callback timer .cancelling => timer.call = call
  | _ => False

/-- A callback or a `close` that is going to cancel an event. -/
def Thread.Cancels (shared : Shared) (fd : Nat) (event : IOManager.Event) : Thread → Prop
  | .callback timer .expired =>
      timer.call.fd = fd ∧ timer.call.event = event ∧
        shared.useCount timer.call ≠ 0 ∧ shared.cancelled timer.call = false
  | .callback timer .testing =>
      timer.call.fd = fd ∧ timer.call.event = event ∧ shared.cancelled timer.call = false
  | .callback timer _ => timer.call.fd = fd ∧ timer.call.event = event
  | .closing other => other = fd
  | _ => False

/-- Before the event of the round has been added. -/
def Point.Early : Point → Prop
  | .trying | .arming | .adding => True
  | _ => False

/-- Behind that, up to the wake-up. -/
def Point.Parked : Point → Prop
  | .yielding | .suspended => True
  | _ => False

/-- The callback of a timer finds the event of its call added, and `epoll_ctl` lets it cancel
it. -/
def Timely (state : State) (action : FiberId × Action) : Prop :=
  ∀ timer reply, state.threads action.1 = .callback timer .cancelling → action.2 = .go reply →
    ∀ fiber round point, state.threads fiber = .inside timer.call round point →
      ¬ point.Early ∧ (state.shared.events timer.call.fd timer.call.event = some fiber →
        state.shared.ctl timer.call.fd reply)

/-- A fiber that is suspended with a timeout, whose timer is gone and whose event is still
registered, is going to have the event cancelled. -/
def Awakened (state : State) : Prop :=
  ∀ fiber call round, state.threads fiber = .inside call round .suspended →
    call.timeout ≠ noTimeOut → state.shared.events call.fd call.event = some fiber →
      ⟨call, round⟩ ∉ state.shared.timers →
        ∃ other, (state.threads other).Cancels state.shared call.fd call.event

section Sections

/-- Events are taken away, and what epoll watches and what is scheduled may change. -/
inductive Shared.Cleared (shared : Shared) : Shared → Prop where
  | intro (events : Nat → IOManager.Event → Option FiberId) (watched : Nat → IOManager.Events)
      (scheduled : List FiberId)
      (lost : ∀ fd event fiber, events fd event = some fiber →
        shared.events fd event = some fiber) :
      Cleared shared
        { shared with events := events, watched := watched, scheduled := scheduled }

variable {shared middle later : Shared}

theorem Shared.Cleared.refl (shared : Shared) : shared.Cleared shared :=
  .intro shared.events shared.watched shared.scheduled fun _ _ _ => id

theorem Shared.Cleared.trans (first : shared.Cleared middle) (second : middle.Cleared later) :
    shared.Cleared later := by
  obtain ⟨events, watched, scheduled, lost⟩ := first
  obtain ⟨events', watched', scheduled', lost'⟩ := second
  exact .intro events' watched' scheduled' fun fd event fiber kept =>
    lost fd event fiber (lost' fd event fiber kept)

theorem Shared.watch_cleared (shared : Shared) (fd : Nat) : shared.Cleared (shared.watch fd) :=
  .intro shared.events _ shared.scheduled fun _ _ _ => id

theorem Shared.triggerEvent_cleared (shared : Shared) (fd : Nat) (event : IOManager.Event) :
    shared.Cleared (shared.triggerEvent fd event) := by
  unfold triggerEvent
  split
  · exact .refl shared
  · refine .intro _ shared.watched _ fun otherFd other fiber kept => ?_
    dsimp only [setEvent] at kept
    split at kept
    · cases kept
    · exact kept

/-- The event is no longer registered. -/
theorem Shared.triggerEvent_self (shared : Shared) (fd : Nat) (event : IOManager.Event) :
    (shared.triggerEvent fd event).events fd event = none := by
  unfold triggerEvent
  split
  case h_1 none => exact none
  case h_2 => exact if_pos ⟨rfl, rfl⟩

theorem Shared.cancelEvent_cleared (shared : Shared) (fd : Nat) (event : IOManager.Event)
    (reply : Reply) : shared.Cleared (shared.cancelEvent fd event reply) := by
  unfold cancelEvent
  split
  · exact (shared.triggerEvent_cleared fd event).trans (Shared.watch_cleared _ fd)
  · exact .refl shared

/-- `CancelEvent` takes the event away, if it is let. -/
theorem Shared.cancelEvent_self {fd : Nat} {event : IOManager.Event} {reply : Reply}
    (let' : shared.mask fd event → shared.ctl fd reply) :
    (shared.cancelEvent fd event reply).events fd event = none := by
  unfold cancelEvent
  split
  case isTrue => exact shared.triggerEvent_self fd event
  case isFalse not =>
    rw [Bool.and_eq_true] at not
    exact Option.not_isSome_iff_eq_none.mp fun some => not ⟨some, let' some⟩

theorem Shared.cancelAll_cleared (shared : Shared) (fd : Nat) (reply : Reply) :
    shared.Cleared (shared.cancelAll fd reply) := by
  unfold cancelAll
  split
  · exact ((shared.triggerEvent_cleared fd .READ).trans
      (Shared.triggerEvent_cleared _ fd .WRITE)).trans (Shared.watch_cleared _ fd)
  · exact .refl shared

theorem Shared.dispatch_cleared (shared : Shared) (fd : Nat) (report : IOManager.Report)
    (reply : Reply) : shared.Cleared (shared.dispatch fd report reply) := by
  unfold dispatch
  dsimp only
  split
  case isTrue =>
    have read : shared.Cleared (if report.realEvent (shared.mask fd) .READ then
        shared.triggerEvent fd .READ else shared) := by
      split
      · exact shared.triggerEvent_cleared fd .READ
      · exact .refl shared
    refine .trans ?_ (Shared.watch_cleared _ fd)
    split
    · exact read.trans (Shared.triggerEvent_cleared _ fd .WRITE)
    · exact read
  case isFalse => exact .refl shared

end Sections

section Invariant

/-- Before the event is added, or as long as it is registered. -/
def Exposed (shared : Shared) (fiber : FiberId) (call : Call) (point : Point) : Prop :=
  point.Early ∨ point.Parked ∧ shared.events call.fd call.event = some fiber

/-- From when the timer is added, as long as it matters. -/
def Armed (shared : Shared) (fiber : FiberId) (call : Call) (point : Point) : Prop :=
  point = .adding ∨ point.Parked ∧ shared.events call.fd call.event = some fiber

/-- What wakes a call up. -/
structure Secured (state : State) (fiber : FiberId) (call : Call) (round : Nat) (point : Point) :
    Prop where
  own : call.fiber = fiber
  /-- A callback that has set `cancelled` is still to cancel the event. -/
  pending : Exposed state.shared fiber call point → state.shared.cancelled call →
    ∃ other, (state.threads other).Comes call
  /-- Before that, the timer is there or has a callback. -/
  sourced : Armed state.shared fiber call point → call.timeout ≠ noTimeOut →
    state.shared.cancelled call = false →
      ⟨call, round⟩ ∈ state.shared.timers ∨ ∃ other, (state.threads other).Fires ⟨call, round⟩

/-- The invariant. -/
structure Guarded (state : State) : Prop where
  fresh : ∀ call, state.shared.calls ≤ call.number → state.shared.useCount call = 0
  held : ∀ call, state.Sums (Thread.uses call) (state.shared.useCount call)
  secured : ∀ fiber call round point, state.threads fiber = .inside call round point →
    Secured state fiber call round point

variable {state later : State} {fiber other : FiberId} {shared : Shared} {next : Thread}
  {call : Call} {round : Nat} {point : Point}

/-- A call has its condition in hand. -/
theorem Guarded.alive (guarded : Guarded state)
    (inside : state.threads fiber = .inside call round point) : 0 < state.shared.useCount call := by
  have one := (guarded.held call).le fiber
  rw [inside, Thread.uses, if_pos rfl] at one
  exact one

/-- Somebody else takes a step. -/
theorem Secured.put (secured : Secured state other call round point)
    (lost : shared.events call.fd call.event = some other →
      state.shared.events call.fd call.event = some other)
    (cancelled : shared.cancelled call = state.shared.cancelled call)
    (timers : ⟨call, round⟩ ∈ state.shared.timers →
      ⟨call, round⟩ ∈ shared.timers ∨ next.Fires ⟨call, round⟩)
    (comes : (state.threads fiber).Comes call → next.Comes call)
    (fires : state.shared.cancelled call = false →
      (state.threads fiber).Fires ⟨call, round⟩ → next.Fires ⟨call, round⟩) :
    Secured (state.put fiber shared next) other call round point := by
  refine ⟨secured.own, fun exposed set => ?_, fun armed timed unset => ?_⟩
  · refine Config.exists_put (secured.pending ?_ (cancelled ▸ set)) comes
    exact exposed.imp_right fun parked => ⟨parked.1, lost parked.2⟩
  · rw [Config.put_shared, cancelled] at unset
    have before := secured.sourced (armed.imp_right fun parked => ⟨parked.1, lost parked.2⟩) timed
      unset
    obtain timer | callback := before
    · refine (timers timer).imp_right fun fires => ⟨fiber, ?_⟩
      rwa [Config.put_self]
    · exact .inr (Config.exists_put callback (fires unset))

/-- A thread that is neither a call nor a callback. -/
def Thread.Idle : Thread → Prop
  | .inside _ _ _ | .callback _ _ => False
  | _ => True

theorem Thread.Idle.uses {thread : Thread} (idle : thread.Idle) (call : Call) :
    thread.uses call = 0 := by
  cases thread <;> first | exact idle.elim | rfl

theorem Thread.Idle.not_comes {thread : Thread} (idle : thread.Idle) (call : Call) :
    ¬ thread.Comes call := by
  cases thread <;> first | exact idle.elim | exact not_false

theorem Thread.Idle.not_fires {thread : Thread} (idle : thread.Idle) (timer : Timer) :
    ¬ thread.Fires timer := by
  cases thread <;> first | exact idle.elim | exact not_false

/-- A thread that is neither a call nor a callback takes events away. -/
theorem Guarded.keep (guarded : Guarded state) (before : (state.threads fiber).Idle)
    (after : next.Idle)
    (lost : ∀ fd event other, shared.events fd event = some other →
      state.shared.events fd event = some other)
    (timers : shared.timers = state.shared.timers) (calls : shared.calls = state.shared.calls)
    (cancelled : shared.cancelled = state.shared.cancelled)
    (useCount : shared.useCount = state.shared.useCount) :
    Guarded (state.put fiber shared next) := by
  refine ⟨?_, fun call => ?_, fun other call round point now => ?_⟩
  · rw [Config.put_shared, calls, useCount]
    exact guarded.fresh
  · rw [Config.put_shared, useCount]
    exact (guarded.held call).keep ((after.uses call).trans (before.uses call).symm)
  · obtain ⟨-, current⟩ | ⟨-, current⟩ := state.put_cases fiber shared next other
    all_goals rw [current] at now
    · rw [now] at after
      exact after.elim
    · refine (guarded.secured other call round point now).put (lost _ _ _) (by rw [cancelled])
        (fun timer => .inl (by rwa [timers])) (fun comes => absurd comes (before.not_comes call))
        fun _ fires => absurd fires (before.not_fires _)

/-- A call goes on, or returns with its condition. -/
theorem Guarded.advance (guarded : Guarded state)
    (was : state.threads fiber = .inside call round point)
    (lost : ∀ fd event, ∀ other ≠ fiber, shared.events fd event = some other →
      state.shared.events fd event = some other)
    (timers : ∀ timer, timer.call ≠ call → timer ∈ state.shared.timers → timer ∈ shared.timers)
    (calls : shared.calls = state.shared.calls)
    (cancelled : shared.cancelled = state.shared.cancelled)
    (useCount : ∀ any, shared.useCount any + (state.threads fiber).uses any =
      state.shared.useCount any + next.uses any)
    (goes : next = .outside ∨ ∃ round' point', next = .inside call round' point' ∧
      Secured (state.put fiber shared next) fiber call round' point') :
    Guarded (state.put fiber shared next) := by
  have own := (guarded.secured fiber call round point was).own
  refine ⟨fun any late => ?_, fun any => (guarded.held any).put (useCount any),
    fun other any round' point' now => ?_⟩
  · rw [Config.put_shared, calls] at late
    have none := guarded.fresh any late
    have apart : call ≠ any := by
      rintro rfl
      exact absurd none (guarded.alive was).ne'
    have sum := useCount any
    rw [was, Thread.uses, if_neg apart, none] at sum
    obtain rfl | ⟨round', point', rfl, -⟩ := goes
    · exact sum
    · rw [Thread.uses, if_neg apart] at sum
      exact sum
  · obtain ⟨rfl, current⟩ | ⟨apart, current⟩ := state.put_cases fiber shared next other
    all_goals rw [current] at now
    · obtain rfl | ⟨round'', point'', rfl, secured⟩ := goes
      · cases now
      · cases now
        exact secured
    · have secured := guarded.secured other any round' point' now
      refine secured.put (lost _ _ other apart) (by rw [cancelled]) (fun timer => .inl ?_)
        (fun comes => ?_) (fun _ fires => ?_)
      · refine timers _ (fun same => apart ?_) timer
        rw [← secured.own, ← own, ← same]
      · rw [was] at comes
        exact comes.elim
      · rw [was] at fires
        exact fires.elim

/-- A call goes on to a point where nothing more is asked for than before. -/
theorem Guarded.go {round' : Nat} {point' : Point} (guarded : Guarded state)
    (was : state.threads fiber = .inside call round point)
    (lost : ∀ fd event, ∀ other ≠ fiber, shared.events fd event = some other →
      state.shared.events fd event = some other)
    (timers : ∀ timer, timer.call ≠ call → timer ∈ state.shared.timers → timer ∈ shared.timers)
    (calls : shared.calls = state.shared.calls)
    (cancelled : shared.cancelled = state.shared.cancelled)
    (useCount : shared.useCount = state.shared.useCount)
    (exposed : Exposed shared fiber call point' → state.shared.cancelled call →
      Exposed state.shared fiber call point)
    (armed : Armed shared fiber call point' → call.timeout ≠ noTimeOut →
      state.shared.cancelled call = false → ⟨call, round'⟩ ∈ shared.timers ∨
        Armed state.shared fiber call point ∧ round' = round ∧
          shared.timers = state.shared.timers) :
    Guarded (state.put fiber shared (.inside call round' point')) := by
  have secured := guarded.secured fiber call round point was
  refine guarded.advance was lost timers calls cancelled (fun any => ?_)
    (.inr ⟨round', point', rfl, secured.own, fun now set => ?_, fun now timed unset => ?_⟩)
  · rw [was, useCount]
    rfl
  · rw [Config.put_shared, cancelled] at set
    refine Config.exists_put (secured.pending (exposed now set) set) ?_
    rw [was]
    exact False.elim
  · rw [Config.put_shared, cancelled] at unset
    obtain timer | ⟨before, rfl, same⟩ := armed now timed unset
    · exact .inl timer
    · refine (secured.sourced before timed unset).imp (fun timer => ?_) fun callback => ?_
      · rwa [Config.put_shared, same]
      · refine Config.exists_put callback ?_
        rw [was]
        exact False.elim

/-- Whoever has the condition of a call in hand gives it back. -/
theorem Guarded.release (guarded : Guarded state)
    (holds : ∀ any, (state.threads fiber).uses any = if call = any then 1 else 0)
    (useCount : shared.useCount = state.shared.useCount) (any : Call) :
    (shared.release call).useCount any + (state.threads fiber).uses any =
      state.shared.useCount any := by
  have one := (guarded.held call).le fiber
  rw [holds, if_pos rfl] at one
  rw [holds]
  change (if any = call then shared.useCount call - 1 else shared.useCount any) + _ = _
  rw [useCount]
  by_cases same : any = call
  · subst same
    rw [if_pos rfl, if_pos rfl]
    omega
  · rw [if_neg same, if_neg fun same' => same same'.symm]
    rfl

theorem Guarded.release_zero {any : Call} (guarded : Guarded state)
    (holds : ∀ any, (state.threads fiber).uses any = if call = any then 1 else 0)
    (none : state.shared.useCount any = 0) : (state.shared.release call).useCount any = 0 := by
  have sum : (state.shared.release call).useCount any + (state.threads fiber).uses any = _ :=
    guarded.release holds rfl any
  omega

/-- A call returns. -/
theorem Guarded.finish (guarded : Guarded state)
    (was : state.threads fiber = .inside call round point)
    (events : shared.events = state.shared.events)
    (timers : ∀ timer, timer.call ≠ call → timer ∈ state.shared.timers → timer ∈ shared.timers)
    (calls : shared.calls = state.shared.calls)
    (cancelled : shared.cancelled = state.shared.cancelled)
    (useCount : shared.useCount = state.shared.useCount) :
    Guarded (state.put fiber (shared.finish call).1 (shared.finish call).2) := by
  refine guarded.advance was (fun fd event other _ kept => ?_) timers calls cancelled
    (guarded.release (fun any => ?_) useCount) (.inl rfl)
  · rwa [← events]
  · rw [was]
    rfl

/-- A call begins. -/
theorem Guarded.begin (guarded : Guarded state) (was : state.threads fiber = .outside)
    (own : call.fiber = fiber) (number : call.number = state.shared.calls) :
    Guarded (state.put fiber (state.shared.makeCondition call) (.inside call 0 .trying)) := by
  refine ⟨fun any late => ?_, fun any => (guarded.held any).put ?_,
    fun other any round point now => ?_⟩
  · change state.shared.calls + 1 ≤ any.number at late
    have apart : any ≠ call := by
      rintro rfl
      omega
    exact (if_neg apart).trans (guarded.fresh any (by omega))
  · rw [was]
    change (if any = call then 1 else state.shared.useCount any) + 0 =
      state.shared.useCount any + if call = any then 1 else 0
    by_cases same : any = call
    · subst same
      rw [if_pos rfl, if_pos rfl, guarded.fresh any number.ge]
    · rw [if_neg same, if_neg fun same' => same same'.symm]
  · obtain ⟨rfl, current⟩ | ⟨apart, current⟩ :=
      state.put_cases fiber (state.shared.makeCondition call) (.inside call 0 .trying) other
    all_goals rw [current] at now
    · cases now
      refine ⟨own, fun _ set => ?_, fun armed => ?_⟩
      · change (if call = call then false else _) = true at set
        rw [if_pos rfl] at set
        cases set
      · exact armed.elim nofun fun parked => parked.1.elim
    · have secured := guarded.secured other any round point now
      have distinct : any ≠ call := by
        rintro rfl
        exact apart (secured.own.symm.trans own)
      refine secured.put id (if_neg distinct) .inl (fun comes => ?_) (fun _ fires => ?_)
      · rw [was] at comes
        exact comes.elim
      · rw [was] at fires
        exact fires.elim

/-- A worker takes a timer that has expired. -/
theorem Guarded.expire {timer : Timer} (guarded : Guarded state)
    (was : state.threads fiber = .outside) :
    Guarded (state.put fiber (state.shared.cancelTimer timer) (.callback timer .expired)) := by
  refine ⟨guarded.fresh, fun any => (guarded.held any).keep (by rw [was]; rfl),
    fun other any round point now => ?_⟩
  obtain ⟨-, current⟩ | ⟨-, current⟩ :=
    state.put_cases fiber (state.shared.cancelTimer timer) (.callback timer .expired) other
  all_goals rw [current] at now
  · cases now
  · refine (guarded.secured other any round point now).put id rfl (fun member => ?_)
      (fun comes => ?_) (fun _ fires => ?_)
    · by_cases same : (⟨any, round⟩ : Timer) = timer
      · exact .inr same.symm
      · exact .inl (List.mem_filter.mpr ⟨member, by simpa using same⟩)
    · rw [was] at comes
      exact comes.elim
    · rw [was] at fires
      exact fires.elim

/-- A callback goes on or ends. -/
theorem Guarded.callback {timer : Timer} {stage : Stage} (guarded : Guarded state)
    (was : state.threads fiber = .callback timer stage)
    (goes : next = .outside ∨ ∃ stage', next = .callback timer stage')
    (lost : ∀ fd event other, shared.events fd event = some other →
      state.shared.events fd event = some other)
    (timers : shared.timers = state.shared.timers) (calls : shared.calls = state.shared.calls)
    (cancelled : ∀ any ≠ timer.call, shared.cancelled any = state.shared.cancelled any)
    (fresh : ∀ any, state.shared.useCount any = 0 → shared.useCount any = 0)
    (useCount : ∀ any, shared.useCount any + (state.threads fiber).uses any =
      state.shared.useCount any + next.uses any)
    (own : ∀ other round point, state.threads other = .inside timer.call round point →
      Secured state other timer.call round point →
        Secured (state.put fiber shared next) other timer.call round point) :
    Guarded (state.put fiber shared next) := by
  refine ⟨fun any late => ?_, fun any => (guarded.held any).put (useCount any),
    fun other any round point now => ?_⟩
  · rw [Config.put_shared, calls] at late
    exact fresh any (guarded.fresh any late)
  · obtain ⟨-, current⟩ | ⟨-, current⟩ := state.put_cases fiber shared next other
    all_goals rw [current] at now
    · obtain rfl | ⟨stage', rfl⟩ := goes <;> cases now
    · have secured := guarded.secured other any round point now
      by_cases same : any = timer.call
      · subst same
        exact own other round point now secured
      · refine secured.put (lost _ _ _) (cancelled any same) (fun member => .inl ?_)
          (fun comes => ?_) (fun _ fires => ?_)
        · rwa [timers]
        · rw [was] at comes
          cases stage <;> first | exact comes.elim | exact absurd comes.symm same
        · rw [was] at fires
          exact absurd (congrArg Timer.call fires).symm same

/-- A step of a callback. -/
theorem Guarded.fire {timer : Timer} {stage : Stage} {reply : Reply} (guarded : Guarded state)
    (was : state.threads fiber = .callback timer stage)
    (timely : Timely state (fiber, .go reply)) :
    Guarded (state.put fiber (state.shared.fire timer reply stage).1
      (state.shared.fire timer reply stage).2) := by
  cases stage with
  | expired =>
      rw [Shared.fire]
      split
      case isTrue dead =>
        refine guarded.callback was (.inl rfl) (fun _ _ _ => id) rfl rfl (fun _ _ => rfl)
          (fun _ => id) (fun any => by rw [was]; rfl) fun other round point inside => ?_
        exact absurd dead (guarded.alive inside).ne'
      case isFalse alive =>
        refine guarded.callback was (.inr ⟨.testing, rfl⟩) (fun _ _ _ => id) rfl rfl
          (fun _ _ => rfl) (fun any none => ?_) (fun any => ?_) fun other round point _ secured => ?_
        · refine (if_neg ?_).trans none
          rintro rfl
          exact alive none
        · rw [was]
          change (if any = timer.call then _ else _) + 0 = _ + if timer.call = any then 1 else 0
          by_cases same : any = timer.call
          · subst same
            rw [if_pos rfl, if_pos rfl]
          · rw [if_neg same, if_neg fun same' => same same'.symm]
        · refine secured.put id rfl .inl (fun comes => ?_) fun _ fires => ?_
          · rw [was] at comes
            exact comes.elim
          · rwa [was] at fires
  | testing =>
      rw [Shared.fire]
      split
      case isTrue set =>
        refine guarded.callback was (.inl rfl) (fun _ _ _ => id) rfl rfl (fun _ _ => rfl)
          (fun any none => ?_) (guarded.release (fun any => by rw [was]; rfl) rfl)
          fun other round point _ secured => ?_
        · exact guarded.release_zero (fun any => by rw [was]; rfl) none
        · refine secured.put id rfl .inl (fun comes => ?_) fun unset => ?_
          · rw [was] at comes
            exact comes.elim
          · cases set.symm.trans unset
      case isFalse =>
        refine guarded.callback was (.inr ⟨.setting, rfl⟩) (fun _ _ _ => id) rfl rfl
          (fun _ _ => rfl) (fun _ => id) (fun any => by rw [was]; rfl)
          fun other round point _ secured => ?_
        refine secured.put id rfl .inl (fun comes => ?_) fun _ fires => ?_
        · rw [was] at comes
          exact comes.elim
        · rwa [was] at fires
  | setting =>
      refine guarded.callback was (.inr ⟨.cancelling, rfl⟩) (fun _ _ _ => id) rfl rfl
        (fun _ apart => if_neg apart) (fun _ => id) (fun any => by rw [was]; rfl)
        fun other round point _ secured => ?_
      refine ⟨secured.own, fun _ _ => ⟨fiber, ?_⟩, fun _ _ unset => ?_⟩
      · rw [Config.put_self]
        rfl
      · cases (if_pos rfl : (if timer.call = timer.call then true else _) = true).symm.trans unset
  | cancelling =>
      have cleared := state.shared.cancelEvent_cleared timer.call.fd timer.call.event reply
      have gone := @Shared.cancelEvent_self state.shared timer.call.fd timer.call.event reply
      rw [Shared.fire]
      generalize state.shared.cancelEvent timer.call.fd timer.call.event reply = after at *
      obtain ⟨events, watched, scheduled, lost⟩ := cleared
      refine guarded.callback was (.inl rfl) lost rfl rfl (fun _ _ => rfl) (fun any none => ?_)
        (guarded.release (fun any => by rw [was]; rfl) rfl) fun other round point inside secured => ?_
      · exact guarded.release_zero (fun any => by rw [was]; rfl) none
      · obtain ⟨late, let'⟩ := timely timer reply was rfl other round point inside
        have unregistered : events timer.call.fd timer.call.event ≠ some other := by
          intro kept
          have none := gone fun _ => let' (lost _ _ _ kept)
          cases none.symm.trans kept
        refine ⟨secured.own, fun exposed => ?_, fun armed => ?_⟩
        · exact exposed.elim (fun early => absurd early late) fun parked => absurd parked.2 unregistered
        · refine armed.elim ?_ fun parked => absurd parked.2 unregistered
          rintro rfl
          exact absurd trivial late

/-- A step of a call. -/
theorem Guarded.run {reply : Reply} {result : Shared × Thread} (guarded : Guarded state)
    (was : state.threads fiber = .inside call round point)
    (taken : state.shared.advance call round reply point = some result) :
    Guarded (state.put fiber result.1 result.2) := by
  have own := (guarded.secured fiber call round point was).own
  cases point with
  | trying =>
      cases taken
      unfold Shared.attempt
      dsimp only
      split
      · exact guarded.go was (fun _ _ _ _ => id) (fun _ _ => id) rfl rfl rfl
          (fun _ _ => .inl trivial) fun armed => by
            obtain none | parked := armed
            · cases none
            · exact parked.1.elim
      · exact guarded.go was (fun _ _ _ _ => id) (fun _ _ => id) rfl rfl rfl
          (fun _ _ => .inl trivial) fun armed => by
            obtain none | parked := armed
            · cases none
            · exact parked.1.elim
      · exact guarded.finish was rfl (fun _ _ => id) rfl rfl rfl
  | arming =>
      cases taken
      unfold Shared.arm
      split
      case isTrue timeless =>
        exact guarded.go was (fun _ _ _ _ => id) (fun _ _ => id) rfl rfl rfl
          (fun _ _ => .inl trivial) fun _ timed => absurd timeless timed
      case isFalse =>
        exact guarded.go was (fun _ _ _ _ => id) (fun _ _ => List.mem_append_left _) rfl rfl rfl
          (fun _ _ => .inl trivial) fun _ _ _ =>
            .inl (List.mem_append_right _ List.mem_cons_self)
  | adding =>
      change state.shared.addEvent call round reply = some result at taken
      unfold Shared.addEvent at taken
      split at taken
      · cases taken
      · split at taken
        · cases taken
          refine guarded.go was (fun fd event other apart kept => ?_) (fun _ _ => id) rfl rfl rfl
            (fun _ _ => .inl trivial) fun _ _ _ => .inr ⟨.inl rfl, rfl, rfl⟩
          change (if fd = call.fd ∧ event = call.event then some call.fiber else _) = _ at kept
          split at kept
          · cases kept
            exact absurd own apart
          · exact kept
        · cases taken
          refine guarded.go was (fun _ _ _ _ => id) (fun _ _ => id) rfl rfl rfl
            (fun exposed => ?_) fun armed => ?_
          · exact exposed.elim False.elim fun parked => parked.1.elim
          · exact armed.elim nofun fun parked => parked.1.elim
  | failed =>
      cases taken
      refine guarded.finish was rfl (fun timer apart member => ?_) rfl rfl rfl
      refine List.mem_filter.mpr ⟨member, ?_⟩
      rw [decide_eq_true_eq]
      rintro rfl
      exact apart rfl
  | yielding =>
      cases taken
      exact guarded.go was (fun _ _ _ _ => id) (fun _ _ => id) rfl rfl rfl
        (fun exposed _ => .inr (exposed.resolve_left id))
        fun armed _ _ => .inr ⟨.inr (armed.resolve_left nofun), rfl, rfl⟩
  | suspended => cases taken
  | resumed =>
      cases taken
      refine guarded.go was (fun _ _ _ _ => id) (fun timer apart member => ?_) rfl rfl rfl
        (fun exposed => ?_) fun armed => ?_
      · refine List.mem_filter.mpr ⟨member, ?_⟩
        rw [decide_eq_true_eq]
        rintro rfl
        exact apart rfl
      · exact exposed.elim False.elim fun parked => parked.1.elim
      · exact armed.elim nofun fun parked => parked.1.elim
  | judging =>
      cases taken
      split
      case isTrue => exact guarded.finish was rfl (fun _ _ => id) rfl rfl rfl
      case isFalse unset =>
        refine guarded.go was (fun _ _ _ _ => id) (fun _ _ => id) rfl rfl rfl
          (fun _ set => absurd set unset) fun armed => ?_
        exact armed.elim nofun fun parked => parked.1.elim

/-- `do_io` returns at once, or begins. -/
theorem Guarded.doIo {hooked : Bool} {fd : Nat} {event : IOManager.Event}
    {timeoutType : TimeOutType} (guarded : Guarded state)
    (was : state.threads fiber = .outside) :
    Guarded (state.put fiber (state.shared.doIo fiber hooked fd event timeoutType).1
      (state.shared.doIo fiber hooked fd event timeoutType).2) := by
  have idle : (state.threads fiber).Idle := by
    rw [was]
    trivial
  unfold Shared.doIo
  split
  · exact guarded.keep idle trivial (fun _ _ _ => id) rfl rfl rfl rfl
  · split
    · exact guarded.keep idle trivial (fun _ _ _ => id) rfl rfl rfl rfl
    · split
      · exact guarded.keep idle trivial (fun _ _ _ => id) rfl rfl rfl rfl
      · exact guarded.begin was rfl rfl

theorem Guarded.step {action : FiberId × Action} (guarded : Guarded state)
    (timely : Timely state action) (taken : step state action = some later) : Guarded later := by
  obtain ⟨fiber, choice⟩ := action
  obtain ⟨result, executed, rfl⟩ := Option.map_eq_some_iff.mp taken
  change state.shared.exec fiber (state.threads fiber) choice = some result at executed
  clear taken
  generalize was : state.threads fiber = here at executed
  have idle : here.Idle → (state.threads fiber).Idle := fun idle => was ▸ idle
  revert executed
  fun_cases Shared.exec fiber state.shared here choice
  case case14 => exact fun executed => guarded.run was executed
  all_goals rintro ⟨⟩
  case case1 => exact guarded.doIo was
  case case8 => exact guarded.expire was
  case case12 =>
    exact guarded.go was (fun _ _ _ _ => id) (fun _ _ => id) rfl rfl rfl
      (fun exposed => exposed.elim False.elim fun parked => parked.1.elim)
      fun armed => armed.elim nofun fun parked => parked.1.elim
  case case15 => exact guarded.fire was timely
  case case7 fd event reply =>
    have cleared := state.shared.cancelEvent_cleared fd event reply
    generalize state.shared.cancelEvent fd event reply = after at *
    obtain ⟨events, watched, scheduled, lost⟩ := cleared
    exact guarded.keep (idle trivial) trivial lost rfl rfl rfl rfl
  case case16 fd report reply =>
    have cleared := state.shared.dispatch_cleared fd report reply
    generalize state.shared.dispatch fd report reply = after at *
    obtain ⟨events, watched, scheduled, lost⟩ := cleared
    exact guarded.keep (idle trivial) trivial lost rfl rfl rfl rfl
  case case17 fd reply =>
    have cleared := state.shared.cancelAll_cleared fd reply
    generalize state.shared.cancelAll fd reply = after at *
    obtain ⟨events, watched, scheduled, lost⟩ := cleared
    exact guarded.keep (idle trivial) trivial lost rfl rfl rfl rfl
  case case2 hooked fd =>
    refine guarded.keep (idle trivial) ?_ (fun _ _ _ => id) rfl rfl rfl rfl
    split <;> trivial
  all_goals exact guarded.keep (idle trivial) trivial (fun _ _ _ => id) rfl rfl rfl rfl

end Invariant

section Runs

/-- A timed call always has something that wakes it up. -/
theorem awakened {state : State} (run : Runs step Timely fresh state) : Awakened state := by
  suffices guarded : Guarded state by
    intro fiber call round suspended timed registered gone
    have secured := guarded.secured fiber call round .suspended suspended
    have alive := guarded.alive suspended
    cases set : state.shared.cancelled call with
    | true =>
        obtain ⟨other, comes⟩ := secured.pending (.inr ⟨trivial, registered⟩) set
        refine ⟨other, ?_⟩
        cases here : state.threads other with
        | callback timer stage =>
            rw [here] at comes
            cases stage with
            | cancelling =>
                cases (comes : timer.call = call)
                exact ⟨rfl, rfl⟩
            | expired | testing | setting => exact comes.elim
        | _ =>
            rw [here] at comes
            exact comes.elim
    | false =>
        have sourced := secured.sourced (.inr ⟨trivial, registered⟩) timed set
        obtain ⟨other, fires⟩ := sourced.resolve_left gone
        refine ⟨other, ?_⟩
        cases here : state.threads other with
        | callback timer stage =>
            rw [here] at fires
            cases (fires : timer = ⟨call, round⟩)
            cases stage with
            | expired => exact ⟨rfl, rfl, alive.ne', set⟩
            | testing => exact ⟨rfl, rfl, set⟩
            | setting | cancelling => exact ⟨rfl, rfl⟩
        | _ =>
            rw [here] at fires
            exact fires.elim
  refine run.invariant (fun _ _ _ guarded timely taken => guarded.step timely taken) ?_
  exact ⟨fun _ _ => rfl, fun _ => .zero fun _ => rfl, nofun⟩

/-- A read of a new socket with a timeout of 0. -/
def timedCall : Call :=
  ⟨0, 0, 5, .READ, 0, some 0⟩

/-- It finds nothing to read and adds its timer. -/
def armRun : List (FiberId × Action) :=
  [(1, .socket 5 true), (1, .go .success), (1, .setTimeOut 5 .SO_RCVTIMEO 0),
    (0, .doIo true 5 .READ .SO_RCVTIMEO), (0, .go .EAGAIN), (0, .go .success)]

/-- It suspends. -/
def suspendRun : List (FiberId × Action) :=
  List.replicate 2 (0, .go .success)

def expiresLate (state : State) (action : FiberId × Action) : Bool :=
  match state.threads action.1 with
  | .callback _ .cancelling => false
  | _ => true

theorem expiresLate_sound (state : State) (action : FiberId × Action)
    (passes : expiresLate state action) : Timely state action := by
  intro timer reply cancels
  simp [expiresLate, cancels] at passes

/-- The timer expires while the fiber is suspended. -/
def expired : State :=
  (replay step expiresLate (armRun ++ suspendRun ++ [(1, .expire ⟨timedCall, 0⟩)]) fresh).get
    (by decide)

theorem awakened_expired : expired.threads 0 = .inside timedCall 0 .suspended ∧
    expired.shared.timers = [] ∧ Awakened expired :=
  ⟨by decide, by decide, awakened (.of_replay expiresLate_sound (Option.some_get _).symm)⟩

/-- The timer expires, and its callback runs, before the event is added. -/
def hastyRun : List (FiberId × Action) :=
  armRun ++ (1, .expire ⟨timedCall, 0⟩) :: List.replicate 4 (1, .go .success) ++ suspendRun

def stuck : State := (replay step (fun _ _ => true) hastyRun fresh).get (by decide)

theorem step_frame ⦃state : State⦄ ⦃action : FiberId × Action⦄ ⦃next : State⦄ ⦃other : Nat⦄
    (taken : step state action = some next) (apart : some action.1 ≠ some other) :
    next.threads other = state.threads other :=
  Config.map_put_other taken apart

theorem not_awakened : ¬ ∀ state, Runs step (fun _ _ => True) fresh state → Awakened state := by
  intro claimed
  have run : replay step (fun _ _ => true) hastyRun fresh = some stuck := (Option.some_get _).symm
  have still : ∀ fiber, stuck.threads fiber = .outside ∨
      stuck.threads fiber = .inside timedCall 0 .suspended :=
    replay_forall (motive := fun thread : Thread => thread = .outside ∨
      thread = .inside timedCall 0 .suspended)
      step_frame 2 run (by decide) (by decide) fun _ _ => .inl rfl
  obtain ⟨fiber, cancels⟩ := claimed stuck (.of_replay (fun _ _ _ => trivial) run) 0 timedCall 0
    (by decide) (by decide) (by decide) (by decide)
  obtain outside | suspended := still fiber
  · rw [outside] at cancels
    exact cancels
  · rw [suspended] at cancels
    exact cancels

end Runs

end Xten.Hook
