import Xten.Hook.Timeouts

/-!
# No system call on another socket

A call that is tried again makes its system call on the socket it has begun on, as long as the
number of a socket is not given out again while a call on it is going to try.
-/

namespace Xten.Hook

open Std.Interleaving

/-- A call that is going to make its system call, unless its time is up before that. -/
def Thread.WillTry (shared : Shared) (call : Call) : Thread → Prop
  | .inside other _ .trying => other = call
  | .inside _ _ .failed => False
  | .inside other _ _ => other = call ∧ shared.cancelled call = false
  | _ => False

/-- A descriptor is given out when no call that has begun on its last socket is going to
try. -/
def Drained (state : State) (action : FiberId × Action) : Prop :=
  ∀ fd isSocket, action.2 = .socket fd isSocket →
    ∀ fiber call, (state.threads fiber).WillTry state.shared call → call.fd = fd →
      call.socket = none

/-- A descriptor denotes the socket of the call, or is closed. -/
def Call.Own (call : Call) (target : Option Nat) : Prop :=
  ∀ socket, call.socket = some socket → target = some socket ∨ target = none

/-- A call that is tried again after it has been suspended does not reach another socket. -/
def Uncrossed (state : State) : Prop :=
  ∀ syscall ∈ state.shared.syscalls, 0 < syscall.round → syscall.call.Own syscall.target

/-- The invariant. -/
structure Faithful (state : State) : Prop where
  own : ∀ fiber call round point, state.threads fiber = .inside call round point →
    call.fiber = fiber
  tries : ∀ fiber call, (state.threads fiber).WillTry state.shared call →
    call.Own (state.shared.descriptor call.fd)
  made : ∀ syscall ∈ state.shared.syscalls, syscall.call.Own syscall.target

section Steps

variable {state later : State} {fiber : FiberId} {shared : Shared} {next : Thread}
  {call : Call} {round : Nat} {point : Point}

theorem Faithful.fiber_of_willTry {other : FiberId} (faithful : Faithful state)
    (tries : (state.threads other).WillTry shared call) : call.fiber = other := by
  cases here : state.threads other with
  | inside any round point =>
      rw [here] at tries
      have own := faithful.own other any round point here
      cases point <;> first
        | exact tries.elim
        | exact (show any = call from tries) ▸ own
        | exact tries.1 ▸ own
  | _ =>
      rw [here] at tries
      exact tries.elim

/-- A thread changes nothing for the calls of others. -/
theorem Faithful.put (faithful : Faithful state)
    (descriptor : ∀ other ≠ fiber, ∀ call, (state.threads other).WillTry state.shared call →
      call.Own (state.shared.descriptor call.fd) → call.Own (shared.descriptor call.fd))
    (cancelled : ∀ call, call.fiber ≠ fiber → shared.cancelled call = false →
      state.shared.cancelled call = false)
    (own : ∀ call round point, next = .inside call round point → call.fiber = fiber)
    (tries : ∀ call, next.WillTry shared call → call.Own (shared.descriptor call.fd))
    (made : ∀ syscall ∈ shared.syscalls, syscall ∈ state.shared.syscalls ∨
      syscall.call.Own syscall.target) :
    Faithful (state.put fiber shared next) := by
  refine ⟨fun other any round point now => ?_, fun other any will => ?_, fun syscall member => ?_⟩
  · obtain ⟨rfl, current⟩ | ⟨-, current⟩ := state.put_cases fiber shared next other
    all_goals rw [current] at now
    · exact own any round point now
    · exact faithful.own other any round point now
  · obtain ⟨-, current⟩ | ⟨apart, current⟩ := state.put_cases fiber shared next other
    all_goals rw [current] at will
    · exact tries any will
    · have isOther := faithful.fiber_of_willTry will
      have before : (state.threads other).WillTry state.shared any := by
        cases here : state.threads other with
        | inside mine round point =>
            rw [here] at will
            cases point <;> first
              | exact will
              | exact ⟨will.1, cancelled any (isOther ▸ apart) will.2⟩
        | _ =>
            rw [here] at will
            exact will.elim
      exact descriptor other apart any before (faithful.tries other any before)
  · exact (made syscall member).elim (faithful.made syscall) id

/-- A step that opens and closes nothing, with no more calls that are going to try. -/
theorem Faithful.keep (faithful : Faithful state)
    (descriptor : shared.descriptor = state.shared.descriptor)
    (cancelled : ∀ call, shared.cancelled call = false → state.shared.cancelled call = false)
    (own : ∀ call round point, next = .inside call round point →
      ∃ round point, state.threads fiber = .inside call round point)
    (tries : ∀ call, next.WillTry shared call →
      (state.threads fiber).WillTry state.shared call)
    (syscalls : shared.syscalls = state.shared.syscalls) :
    Faithful (state.put fiber shared next) := by
  refine faithful.put (fun _ _ _ _ own => ?_) (fun any _ => cancelled any)
    (fun any round point same => ?_) (fun any will => ?_) fun syscall member => ?_
  · rwa [descriptor]
  · obtain ⟨round, point, inside⟩ := own any round point same
    exact faithful.own fiber any round point inside
  · rw [descriptor]
    exact faithful.tries fiber any (tries any will)
  · exact .inl (syscalls ▸ member)

/-- What takes events away opens and closes nothing. -/
theorem Faithful.cleared (faithful : Faithful state) (cleared : state.shared.Cleared shared)
    (after : next.Idle) : Faithful (state.put fiber shared next) := by
  obtain ⟨events, watched, scheduled, -⟩ := cleared
  refine faithful.keep rfl (fun _ => id) (fun call round point same => ?_) (fun call will => ?_) rfl
  · rw [same] at after
    exact after.elim
  · cases next <;> first | exact after.elim | exact will.elim

/-- A step of a call. -/
theorem Faithful.run {reply : Reply} {result : Shared × Thread} (faithful : Faithful state)
    (was : state.threads fiber = .inside call round point)
    (taken : state.shared.advance call round reply point = some result) :
    Faithful (state.put fiber result.1 result.2) := by
  have moves : ∀ {round' point'}, ∀ any round point,
      Thread.inside call round' point' = .inside any round point →
        ∃ round point, state.threads fiber = .inside any round point := by
    rintro _ _ any _ _ ⟨⟩
    exact ⟨round, point, was⟩
  cases point with
  | trying =>
      cases taken
      have own : call.Own (state.shared.descriptor call.fd) :=
        faithful.tries fiber call (by rw [was]; rfl)
      have mine := faithful.own fiber call round .trying was
      unfold Shared.attempt
      dsimp only
      have made : ∀ syscall ∈ state.shared.syscalls ++
          [⟨call, round, state.shared.descriptor call.fd⟩],
          syscall ∈ state.shared.syscalls ∨ syscall.call.Own syscall.target := by
        intro syscall member
        rw [List.mem_append, List.mem_singleton] at member
        refine member.imp_right ?_
        rintro rfl
        exact own
      split
      · refine faithful.put (fun _ _ _ _ => id) (fun _ _ => id) ?_ ?_ made
        · rintro any _ _ ⟨⟩
          exact mine
        · rintro any rfl
          exact own
      · refine faithful.put (fun _ _ _ _ => id) (fun _ _ => id) ?_ ?_ made
        · rintro any _ _ ⟨⟩
          exact mine
        · rintro any ⟨rfl, -⟩
          exact own
      · exact faithful.put (fun _ _ _ _ => id) (fun _ _ => id) nofun (fun _ => False.elim) made
  | arming =>
      cases taken
      unfold Shared.arm
      split
      all_goals
        refine faithful.keep rfl (fun _ => id) moves (fun any will => ?_) rfl
        rw [was]
        exact will
  | adding =>
      change state.shared.addEvent call round reply = some result at taken
      unfold Shared.addEvent at taken
      split at taken
      · cases taken
      · split at taken
        · cases taken
          refine faithful.keep rfl (fun _ => id) moves (fun any will => ?_) rfl
          rw [was]
          exact will
        · cases taken
          exact faithful.keep rfl (fun _ => id) moves (fun any => False.elim) rfl
  | failed =>
      cases taken
      exact faithful.keep rfl (fun _ => id) nofun (fun any => False.elim) rfl
  | yielding | resumed =>
      cases taken
      refine faithful.keep rfl (fun _ => id) moves (fun any will => ?_) rfl
      rw [was]
      exact will
  | suspended => cases taken
  | judging =>
      cases taken
      split
      case isTrue => exact faithful.keep rfl (fun _ => id) nofun (fun any => False.elim) rfl
      case isFalse unset =>
        refine faithful.keep rfl (fun _ => id) moves ?_ rfl
        rintro any rfl
        rw [was]
        exact ⟨rfl, Bool.eq_false_iff.mpr unset⟩

/-- A step of a callback. -/
theorem Faithful.fire {timer : Timer} {stage : Stage} {reply : Reply} (faithful : Faithful state)
    (was : state.threads fiber = .callback timer stage) :
    Faithful (state.put fiber (state.shared.fire timer reply stage).1
      (state.shared.fire timer reply stage).2) := by
  cases stage with
  | expired | testing =>
      rw [Shared.fire]
      split <;> exact faithful.keep rfl (fun _ => id) (by rintro _ _ _ ⟨⟩) (fun any => False.elim) rfl
  | setting =>
      refine faithful.keep rfl (fun any unset => ?_) (by rintro _ _ _ ⟨⟩) (fun any => False.elim) rfl
      change (if any = timer.call then true else state.shared.cancelled any) = false at unset
      split at unset
      · cases unset
      · exact unset
  | cancelling =>
      have cleared := state.shared.cancelEvent_cleared timer.call.fd timer.call.event reply
      rw [Shared.fire]
      generalize state.shared.cancelEvent timer.call.fd timer.call.event reply = after at *
      obtain ⟨events, watched, scheduled, -⟩ := cleared
      exact faithful.keep rfl (fun _ => id) (by rintro _ _ _ ⟨⟩) (fun any => False.elim) rfl

/-- `do_io` returns at once, or begins. -/
theorem Faithful.doIo {hooked : Bool} {fd : Nat} {event : IOManager.Event}
    {timeoutType : TimeOutType} (faithful : Faithful state) :
    Faithful (state.put fiber (state.shared.doIo fiber hooked fd event timeoutType).1
      (state.shared.doIo fiber hooked fd event timeoutType).2) := by
  unfold Shared.doIo
  split
  · exact faithful.keep rfl (fun _ => id) nofun (fun any => False.elim) rfl
  · split
    · exact faithful.keep rfl (fun _ => id) nofun (fun any => False.elim) rfl
    · split
      · exact faithful.keep rfl (fun _ => id) nofun (fun any => False.elim) rfl
      · refine faithful.put (fun _ _ _ _ => id) (fun any apart unset => ?_) ?_ ?_
          fun _ => .inl
        · refine (if_neg ?_).symm.trans unset
          rintro rfl
          exact apart rfl
        · rintro any _ _ ⟨⟩
          rfl
        · rintro any rfl socket same
          exact .inl same

theorem Faithful.step {action : FiberId × Action} (faithful : Faithful state)
    (drained : Drained state action) (taken : step state action = some later) :
    Faithful later := by
  obtain ⟨fiber, choice⟩ := action
  obtain ⟨result, executed, rfl⟩ := Option.map_eq_some_iff.mp taken
  change state.shared.exec fiber (state.threads fiber) choice = some result at executed
  clear taken
  unfold Drained at drained
  generalize was : state.threads fiber = here at executed
  revert executed
  fun_cases Shared.exec fiber state.shared here choice
  case case14 => exact fun executed => faithful.run was executed
  all_goals rintro ⟨⟩
  case case1 => exact faithful.doIo
  case case3 fd isSocket free =>
    refine faithful.put (fun other _ any will own => ?_) (fun _ _ => id) (by rintro _ _ _ ⟨⟩)
      (fun _ => False.elim) fun _ => .inl
    intro socket began
    change ite (any.fd = fd) _ _ = _ ∨ ite (any.fd = fd) _ _ = _
    by_cases same : any.fd = fd
    · cases (drained fd isSocket rfl other any will same).symm.trans began
    · rw [if_neg same]
      exact own socket began
  case case12 call round waits =>
    refine faithful.keep rfl (fun _ => id) ?_ (fun any will => ?_) rfl
    · rintro any _ _ ⟨⟩
      exact ⟨round, .suspended, was⟩
    · rw [was]
      exact will
  case case15 => exact faithful.fire was
  case case7 fd event reply =>
    exact faithful.cleared (state.shared.cancelEvent_cleared fd event reply) trivial
  case case16 fd report reply =>
    exact faithful.cleared (state.shared.dispatch_cleared fd report reply) trivial
  case case17 fd reply =>
    exact faithful.cleared (state.shared.cancelAll_cleared fd reply) trivial
  case case2 hooked fd =>
    exact faithful.cleared (.refl _) (by split <;> trivial)
  case case19 fd reply =>
    refine faithful.put (fun other _ any will own => ?_) (fun _ _ => id) (by rintro _ _ _ ⟨⟩)
      (fun _ => False.elim) fun _ => .inl
    intro socket began
    change ite (any.fd = fd) _ _ = _ ∨ ite (any.fd = fd) _ _ = _
    split
    · exact .inr rfl
    · exact own socket began
  all_goals exact faithful.keep rfl (fun _ => id) (by rintro _ _ _ ⟨⟩) (fun any => False.elim) rfl

end Steps

section Runs

/-- A call never reaches a socket other than its own. -/
theorem uncrossed {state : State} (run : Runs step Drained fresh state) : Uncrossed state := by
  have faithful : Faithful state := by
    refine run.invariant (fun _ _ _ faithful drained taken => faithful.step drained taken) ?_
    exact ⟨nofun, fun _ _ => False.elim, nofun⟩
  exact fun syscall member _ => faithful.made syscall member

/-- A read of a new socket. -/
def readCall : Call :=
  ⟨0, 0, 5, .READ, noTimeOut, some 0⟩

def socketMade : State := (step fresh (1, .socket 5 true)).get (by decide)

/-- The read suspends, and another fiber closes the socket. -/
def closeRun : List (FiberId × Action) :=
  [(1, .go .success), (0, .doIo true 5 .READ .SO_RCVTIMEO), (0, .go .EAGAIN), (0, .go .success),
    (0, .go .success), (0, .go .success), (1, .close true 5), (1, .go .success),
    (1, .go .success), (1, .go .success)]

/-- The read is tried again. -/
def retryRun : List (FiberId × Action) :=
  (0, .resume) :: List.replicate 3 (0, .go .success)

def opensNothing (_ : State) (action : FiberId × Action) : Bool :=
  match action.2 with
  | .socket _ _ => false
  | _ => true

theorem opensNothing_sound (state : State) (action : FiberId × Action)
    (passes : opensNothing state action) : Drained state action := by
  intro fd isSocket opens
  simp [opensNothing, opens] at passes

def retried : State := (replay step opensNothing (closeRun ++ retryRun) socketMade).get (by decide)

theorem uncrossed_retried :
    retried.shared.syscalls = [⟨readCall, 0, some 0⟩, ⟨readCall, 1, none⟩] ∧ Uncrossed retried := by
  have first : Runs step Drained fresh socketMade :=
    (Runs.refl _).tail (fun _ _ _ _ _ => False.elim) (Option.some_get _).symm
  exact ⟨by decide, uncrossed (first.trans (.of_replay opensNothing_sound (Option.some_get _).symm))⟩

/-- The descriptor is given out again before the read is tried again. -/
def reuseRun : List (FiberId × Action) :=
  (1, .socket 5 true) :: closeRun ++ (2, .socket 5 true) :: retryRun

def reused : State := (replay step (fun _ _ => true) reuseRun fresh).get (by decide)

theorem not_uncrossed : ¬ ∀ state, Runs step (fun _ _ => True) fresh state → Uncrossed state := by
  intro claimed
  have run : Runs step (fun _ _ => True) fresh reused :=
    .of_replay (fun _ _ _ => trivial) (Option.some_get _).symm
  have own := claimed reused run ⟨readCall, 1, some 1⟩ (by decide) Nat.one_pos 0 rfl
  exact own.elim nofun nofun

end Runs

end Xten.Hook
