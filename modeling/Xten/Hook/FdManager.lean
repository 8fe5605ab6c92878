import Xten.Hook.DoIo
import Xten.Std.Histories

/-!
# The manager of descriptors

`FdCtx` and `FdCtxMgr` of `fdmanager.cpp`. Each section under the lock of the manager is a step,
and so is the read of `_fds[fd]` behind the section in which `Get` creates a context. A context
is named by a number, which stands for its address. Descriptors are not negative; for -1 `Get`
returns a null pointer at once.
-/

namespace Xten

open Hook (TimeOutType noTimeOut)

/-- `FdCtx`, without its descriptor. -/
structure FdCtx where
  isInit : Bool
  isSocket : Bool
  isClose : Bool
  isUserSetNoBlock : Bool
  isSysSetNoBlock : Bool
  readTimeOut_ms : BitVec 64
  writeTimeOut_ms : BitVec 64
deriving DecidableEq, Repr

namespace FdCtx

/-- `FdCtx(fd)`, which calls `init()`; `stat` says whether `fstat` succeeds, and whether it finds
a socket. -/
def make (stat : Option Bool) : FdCtx where
  isInit := stat.isSome
  isSocket := stat.getD false
  isClose := false
  isUserSetNoBlock := false
  isSysSetNoBlock := stat.getD false
  readTimeOut_ms := noTimeOut
  writeTimeOut_ms := noTimeOut

def setUserNoBlock (ctx : FdCtx) (v : Bool) : FdCtx :=
  { ctx with isUserSetNoBlock := v }

def setTimeOut (ctx : FdCtx) (time_ms : BitVec 64) : TimeOutType → FdCtx
  | .SO_RCVTIMEO => { ctx with readTimeOut_ms := time_ms }
  | .SO_SNDTIMEO => { ctx with writeTimeOut_ms := time_ms }

/-- What `do_io` reads of a context. -/
def seen (ctx : FdCtx) : Hook.FdCtx :=
  ⟨ctx.isSocket, ctx.isClose, ctx.isUserSetNoBlock, ctx.readTimeOut_ms, ctx.writeTimeOut_ms⟩

theorem seen_make (stat : Option Bool) : (make stat).seen = Hook.FdCtx.init (stat.getD false) :=
  rfl

theorem seen_setTimeOut (ctx : FdCtx) (time_ms : BitVec 64) (type : TimeOutType) :
    (ctx.setTimeOut time_ms type).seen = ctx.seen.setTimeOut time_ms type := by
  cases type <;> rfl

end FdCtx

namespace FdCtxMgr

open Std.Interleaving
open Std.Histories (Admitted admitted_concat)

/-- What is told of the calls: a `Get` has returned a context, which shows its settings; settings
have been made through a context; a `Del` has deleted one. -/
inductive Event where
  | returned (fd ctx : Nat) (shown : FdCtx)
  | set (ctx : Nat) (settings : FdCtx)
  | deleted (fd : Nat)
deriving DecidableEq, Repr

/-- `FdCtxMgr`, and the contexts by their addresses. -/
structure Shared where
  fds : List (Option Nat)
  ctxs : Nat → FdCtx
  made : Nat
  history : List Event

/-- Where a thread is: outside, or in `Get` before it creates a context, or behind that. -/
inductive Thread where
  | outside
  | creating (fd : Nat)
  | created (fd : Nat)
deriving DecidableEq, Repr

/-- `SetUserNoBlock` and `SetTimeOut`, through a context that the caller has. -/
inductive Setting where
  | userNoBlock (v : Bool)
  | timeOut (type : TimeOutType) (time_ms : BitVec 64)
deriving DecidableEq, Repr

def Setting.apply (ctx : FdCtx) : Setting → FdCtx
  | .userNoBlock v => ctx.setUserNoBlock v
  | .timeOut type time_ms => ctx.setTimeOut time_ms type

inductive Action where
  | get (fd : Nat) (autoCreate : Bool)
  | del (fd : Nat)
  | set (ctx : Nat) (setting : Setting)
  | go (stat : Option Bool)
deriving DecidableEq, Repr

namespace Shared

variable (shared : Shared)

/-- `_fds[fd]`, or null where there is no such element. -/
def find (fd : Nat) : Option Nat :=
  shared.fds[fd]?.join

def tell (event : Event) : Shared :=
  { shared with history := shared.history ++ [event] }

/-- `Get` returns `_fds[fd]`. -/
def returns (fd : Nat) : Shared :=
  match shared.find fd with
  | some ctx => shared.tell (.returned fd ctx (shared.ctxs ctx))
  | none => shared

/-- The section of `Get` under the read lock. -/
def get (fd : Nat) (autoCreate : Bool) : Shared × Thread :=
  if shared.fds.length ≤ fd then
    if autoCreate then (shared, .creating fd) else (shared, .outside)
  else
    if (shared.find fd).isSome || !autoCreate then (shared.returns fd, .outside)
    else (shared, .creating fd)

/-- `_fds.resize(fd * 1.5)` where `_fds` is too short. -/
def resize (fd : Nat) : List (Option Nat) :=
  if shared.fds.length ≤ fd then
    shared.fds ++ List.replicate (fd * 3 / 2 - shared.fds.length) none
  else
    shared.fds

/-- The section of `Get` under the write lock. -/
def create (fd : Nat) (stat : Option Bool) : Shared where
  fds := (shared.resize fd).set fd (some shared.made)
  ctxs := Function.update shared.ctxs shared.made (.make stat)
  made := shared.made + 1
  history := shared.history

/-- `Del`. -/
def del (fd : Nat) : Shared :=
  { shared with fds := shared.fds.set fd none }.tell (.deleted fd)

def set (ctx : Nat) (setting : Setting) : Shared :=
  { shared with
    ctxs := Function.update shared.ctxs ctx (setting.apply (shared.ctxs ctx)) }.tell
      (.set ctx (setting.apply (shared.ctxs ctx)))

end Shared

/-- One step of a thread; none if the action is not open to it. -/
def exec (shared : Shared) : Thread → Action → Option (Shared × Thread)
  | .outside, .get fd autoCreate => some (shared.get fd autoCreate)
  | .outside, .del fd => some (shared.del fd, .outside)
  | .outside, .set ctx setting =>
      if ctx < shared.made then some (shared.set ctx setting, .outside) else none
  | .creating fd, .go stat => some (shared.create fd stat, .created fd)
  | .created fd, .go _ => some (shared.returns fd, .outside)
  | _, _ => none

abbrev State := Config Shared Thread

def step (state : State) (action : Nat × Action) : Option State :=
  (exec state.shared (state.threads action.1) action.2).map fun next =>
    state.put action.1 next.1 next.2

/-- `FdCtxMgr()`. -/
def fresh : State where
  shared := ⟨List.replicate 64 none, fun _ => .make none, 0, []⟩
  threads := fun _ => .outside

section Histories

/-- A `Get` has returned a context, and no `Del` of the descriptor has come since. -/
def Since (history : List Event) (fd ctx : Nat) (shown : FdCtx) (later : List Event) : Prop :=
  ∃ earlier, history = earlier ++ .returned fd ctx shown :: later ∧ .deleted fd ∉ later

/-- The settings of a context after some calls. -/
def latest (ctx : Nat) (shown : FdCtx) : List Event → FdCtx
  | [] => shown
  | .set other settings :: later => latest ctx (if other = ctx then settings else shown) later
  | _ :: later => latest ctx shown later

/-- What a `Get` returns is the context that has been returned since the last `Del`, with the
settings that have been made through it. -/
def Agrees (earlier : List Event) : Event → Prop
  | .returned fd ctx shown => ∀ one was later, Since earlier fd one was later →
      ctx = one ∧ shown = latest one was later
  | _ => True

/-- Between two `Del`s of a descriptor all `Get`s that return a context return the same one, and
no setting is lost. -/
def Stable (state : State) : Prop :=
  Admitted Agrees state.shared.history

variable {history later init : List Event} {event : Event} {fd ctx : Nat} {shown : FdCtx}

theorem since_concat (since : Since (history ++ [event]) fd ctx shown later) :
    event = .returned fd ctx shown ∧ later = [] ∨
      ∃ init, later = init ++ [event] ∧ event ≠ .deleted fd ∧ Since history fd ctx shown init := by
  obtain ⟨earlier, split, kept⟩ := since
  rcases List.eq_nil_or_concat later with rfl | ⟨init, last, rfl⟩
  · exact .inl ⟨(List.cons.inj (List.append_inj' split rfl).2).1, rfl⟩
  · rw [List.concat_eq_append, ← List.cons_append, ← List.append_assoc] at split
    obtain ⟨before, same⟩ := List.append_inj' split rfl
    obtain rfl := (List.cons.inj same).1
    rw [List.concat_eq_append, List.mem_append, List.mem_singleton, not_or] at kept
    exact .inr ⟨init, List.concat_eq_append, Ne.symm kept.2, earlier, before, kept.1⟩

theorem latest_concat : latest ctx shown (init ++ [event]) =
    match event with
    | .set other settings => if other = ctx then settings else latest ctx shown init
    | _ => latest ctx shown init := by
  induction init generalizing shown with
  | nil => cases event <;> rfl
  | cons first init ih => cases first <;> exact ih

end Histories

section Invariant

variable {shared : Shared} {fd ctx : Nat}

/-- What `_fds[fd]` has to do with what has been returned. -/
structure Kept (shared : Shared) : Prop where
  inside : ∀ fd ctx, shared.find fd = some ctx → ctx < shared.made
  current : ∀ fd ctx shown later, Since shared.history fd ctx shown later →
    shared.find fd = some ctx ∧ shared.ctxs ctx = latest ctx shown later
  stable : Admitted Agrees shared.history

/-- `_fds` grows with null pointers. -/
theorem find_resize (shared : Shared) (fd other : Nat) :
    (shared.resize fd)[other]?.join = shared.find other := by
  rw [Shared.resize]
  split
  · rw [Shared.find]
    obtain inside | outside := Nat.lt_or_ge other shared.fds.length
    · rw [List.getElem?_append_left inside]
    · rw [List.getElem?_append_right outside, List.getElem?_eq_none outside, List.getElem?_replicate]
      split <;> rfl
  · rfl

/-- A pointer that is stored is found there, if anything is. -/
theorem join_set {fds : List (Option Nat)} {new : Option Nat} {one : Nat}
    (now : (fds.set fd new)[fd]?.join = some one) : new = some one := by
  rw [List.getElem?_set_self'] at now
  cases there : fds[fd]? with
  | none =>
      rw [there] at now
      cases now
  | some _ =>
      rw [there] at now
      exact now

/-- `Get` returns what is there. -/
theorem Kept.returns (kept : Kept shared) (fd : Nat) : Kept (shared.returns fd) := by
  rw [Shared.returns]
  cases here : shared.find fd with
  | none => exact kept
  | some ctx =>
      refine ⟨kept.inside, fun other one shown later since => ?_, ?_⟩
      · obtain ⟨same, rfl⟩ | ⟨init, rfl, -, since⟩ := since_concat since
        · cases same
          exact ⟨here, rfl⟩
        · rw [latest_concat]
          exact kept.current other one shown init since
      · refine admitted_concat.mpr ⟨kept.stable, fun one shown later since => ?_⟩
        obtain ⟨now, settings⟩ := kept.current fd one shown later since
        obtain rfl := Option.some_inj.mp (here.symm.trans now)
        exact ⟨rfl, settings⟩

theorem Kept.get (kept : Kept shared) (fd : Nat) (autoCreate : Bool) :
    Kept (shared.get fd autoCreate).1 := by
  rw [Shared.get]
  split
  · split <;> exact kept
  · split
    · exact kept.returns fd
    · exact kept

/-- A context is created where none has been returned. -/
theorem Kept.create (kept : Kept shared)
    (free : ∀ ctx shown later, ¬ Since shared.history fd ctx shown later) (stat : Option Bool) :
    Kept (shared.create fd stat) := by
  have others {other : Nat} (apart : other ≠ fd) :
      (shared.create fd stat).find other = shared.find other := by
    rw [← find_resize shared fd other, Shared.find, Shared.create, List.getElem?_set_ne apart.symm]
  have mine {one : Nat} (now : (shared.create fd stat).find fd = some one) : one = shared.made :=
    (Option.some_inj.mp (join_set now)).symm
  refine ⟨fun other one now => ?_, fun other one shown later since => ?_, kept.stable⟩
  · by_cases same : other = fd
    · subst same
      rw [mine now]
      exact Nat.lt_succ_self _
    · rw [others same] at now
      exact (kept.inside other one now).trans (Nat.lt_succ_self _)
  · have apart : other ≠ fd := by
      rintro rfl
      exact free one shown later since
    obtain ⟨now, settings⟩ := kept.current other one shown later since
    refine ⟨(others apart).trans now, Eq.trans ?_ settings⟩
    exact Function.update_of_ne (kept.inside other one now).ne _ _

theorem Kept.del (kept : Kept shared) (fd : Nat) : Kept (shared.del fd) := by
  have others {other : Nat} (apart : other ≠ fd) : (shared.del fd).find other = shared.find other :=
    congrArg Option.join (List.getElem?_set_ne apart.symm)
  refine ⟨fun other one now => ?_, fun other one shown later since => ?_,
    admitted_concat.mpr ⟨kept.stable, trivial⟩⟩
  · by_cases same : other = fd
    · subst same
      cases join_set now
    · rw [others same] at now
      exact kept.inside other one now
  · obtain ⟨same, -⟩ | ⟨init, rfl, undeleted, since⟩ := since_concat since
    · cases same
    · have apart : other ≠ fd := by
        rintro rfl
        exact undeleted rfl
      rw [latest_concat, others apart]
      exact kept.current other one shown init since

/-- A setting is made through a context, which any descriptor may have. -/
theorem Kept.set (kept : Kept shared) (ctx : Nat) (setting : Setting) :
    Kept (shared.set ctx setting) := by
  refine ⟨kept.inside, fun fd one shown later since => ?_,
    admitted_concat.mpr ⟨kept.stable, trivial⟩⟩
  obtain ⟨same, -⟩ | ⟨init, rfl, -, since⟩ := since_concat since
  · cases same
  · obtain ⟨now, settings⟩ := kept.current fd one shown init since
    refine ⟨now, ?_⟩
    rw [latest_concat, ← settings]
    change Function.update shared.ctxs ctx _ one = _
    by_cases same : ctx = one
    · subst same
      rw [Function.update_self]
      exact (if_pos rfl).symm
    · rw [Function.update_of_ne (Ne.symm same)]
      exact (if_neg same).symm

/-- `Get` does not create a context where one has been returned since the last `Del`. -/
def Unreplaced (state : State) (action : Nat × Action) : Prop :=
  ∀ fd stat, state.threads action.1 = .creating fd → action.2 = .go stat →
    ∀ ctx shown later, ¬ Since state.shared.history fd ctx shown later

theorem Kept.step {state later : State} {action : Nat × Action} (kept : Kept state.shared)
    (unreplaced : Unreplaced state action) (taken : step state action = some later) :
    Kept later.shared := by
  obtain ⟨thread, action⟩ := action
  obtain ⟨next, executed, rfl⟩ := Option.map_eq_some_iff.mp taken
  change exec state.shared (state.threads thread) action = some next at executed
  change Kept next.1
  unfold Unreplaced at unreplaced
  generalize state.threads thread = here at executed unreplaced
  revert executed
  fun_cases exec state.shared here action
  all_goals rintro ⟨⟩
  case case1 fd autoCreate => exact kept.get fd autoCreate
  case case2 fd => exact kept.del fd
  case case3 ctx setting _ => exact kept.set ctx setting
  case case5 fd stat => exact kept.create (unreplaced fd stat rfl rfl) stat
  case case6 fd _ => exact kept.returns fd

end Invariant

section Runs

/-- `Get` is stable as long as it creates no context where one has been returned. -/
theorem stable {state : State} (run : Runs step Unreplaced fresh state) : Stable state := by
  have kept : Kept state.shared := by
    refine @Runs.invariant _ _ _ _ _ _ (fun state => Kept state.shared)
      (fun _ _ _ kept unreplaced taken => kept.step unreplaced taken) run ?_
    refine ⟨fun fd ctx now => ?_, fun fd ctx shown later since => ?_, .nil⟩
    · rw [fresh, Shared.find, List.getElem?_replicate] at now
      split at now <;> cases now
    · obtain ⟨earlier, split, -⟩ := since
      simp [fresh] at split
  exact kept.stable

/-- Contexts are created before any has been returned. -/
def createsFirst (state : State) (action : Nat × Action) : Bool :=
  match state.threads action.1 with
  | .creating _ => state.shared.history.isEmpty
  | _ => true

theorem createsFirst_sound (state : State) (action : Nat × Action)
    (passes : createsFirst state action) : Unreplaced state action := by
  rintro fd stat creates - ctx shown later ⟨earlier, split, -⟩
  rw [createsFirst, creates] at passes
  rw [List.isEmpty_iff.mp passes] at split
  simp at split

/-- A socket is managed, its user does not want to block, and another thread asks for it. -/
def managedRun : List (Nat × Action) :=
  [(0, .get 5 true), (0, .go (some true)), (0, .go none), (0, .set 0 (.userNoBlock true)),
    (1, .get 5 true)]

def managed : State := (replay step createsFirst managedRun fresh).get (by decide)

theorem stable_managed :
    managed.shared.history =
      [.returned 5 0 (.make (some true)), .set 0 ((FdCtx.make (some true)).setUserNoBlock true),
        .returned 5 0 ((FdCtx.make (some true)).setUserNoBlock true)] ∧ Stable managed :=
  ⟨by decide, stable (.of_replay createsFirst_sound (Option.some_get _).symm)⟩

/-- Two threads find no context under the read lock, and the second creates its own after the
first has returned and a setting has been made. -/
def replacedRun : List (Nat × Action) :=
  [(0, .get 5 true), (1, .get 5 true), (0, .go (some true)), (0, .go none),
    (0, .set 0 (.userNoBlock true)), (1, .go (some true)), (1, .go none)]

def replaced : State := (replay step (fun _ _ => true) replacedRun fresh).get (by decide)

theorem not_stable : ¬ ∀ state, Runs step (fun _ _ => True) fresh state → Stable state := by
  intro claimed
  have run : Runs step (fun _ _ => True) fresh replaced :=
    .of_replay (fun _ _ _ => trivial) (Option.some_get _).symm
  let changed : FdCtx := (FdCtx.make (some true)).setUserNoBlock true
  have agrees := claimed replaced run [.returned 5 0 (.make (some true)), .set 0 changed]
    (.returned 5 1 (.make (some true))) [] (by decide)
  have same := agrees 0 (.make (some true)) [.set 0 changed] ⟨[], rfl, by decide⟩
  exact absurd same.1 (by decide)

end Runs

end FdCtxMgr

end Xten
