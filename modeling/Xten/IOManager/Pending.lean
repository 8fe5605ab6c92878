import Xten.Std.Holdings
import Xten.IOManager.Sections

/-!
# Pending events

`_pendingEventNum` counts the events that are registered, as long as the dispatch of an
event gets past its check only if everything it is going to trigger is registered; and no
registration is scheduled twice.
-/

namespace Xten.IOManager

open Std.Interleaving

/-- A context has an event registered. -/
def Shared.Registered (shared : Shared) (slot : Nat × Event) : Prop :=
  (shared.contexts slot.1).events slot.2 = true

def Shared.Unlocked (shared : Shared) : Prop :=
  ∀ context, (shared.contexts context).mutex = none

/-- Where the dispatch of a reported event goes on to trigger events, all of them are
registered. -/
def Timely (state : State) (action : ThreadId × Action) : Prop :=
  ∀ context report, state.threads action.1 = .reported context report → action.2 = .go true →
    (∃ ev, report.realEvent (state.shared.contexts context).events ev ∧
      (state.shared.contexts context).events ev) →
    ∀ ev, report.realEvent (state.shared.contexts context).events ev →
      (state.shared.contexts context).events ev

section Registrations

/-- What has been scheduled or deleted, and what each context keeps. -/
def Shared.kept (shared : Shared) : Config (List Nat) (List Nat) where
  shared := shared.scheduled ++ shared.deleted
  threads := fun context => (shared.contexts context).registered

/-- What is being added is not registered yet. -/
def New (self : FdContext) : Thread → Prop
  | .counting _ adding | .entering _ adding => self.events adding.ev = false
  | _ => True

/-- Every registration is scheduled, deleted or with its context, and is there once. -/
structure Ledger (state : State) : Prop where
  vacant : ∀ context ev, (state.shared.contexts context).events ev = false →
    ((state.shared.contexts context).getEvContext ev).registered = []
  accounts : state.shared.kept.Accounts id id (List.range state.shared.registrations)
  new : Asserted state New

variable {state next : State} {action : ThreadId × Action} {shared : Shared} {context : Nat}
  {self value : FdContext} {ev : Event} {now : Thread}

theorem Shared.kept_write (contexts : shared.contexts = (state.shared.write context value).contexts) :
    shared.kept =
      state.shared.kept.put context (shared.scheduled ++ shared.deleted) value.registered := by
  unfold Shared.kept
  rw [contexts]
  exact congrArg (Config.mk _) (funext fun other => apply_ite FdContext.registered _ _ _)

/-- An event leaves its context. -/
theorem FdContext.registered_drop (self : FdContext) (ev : Event) :
    self.registered.Perm ((self.getEvContext ev).registered ++ (self.drop ev).registered) := by
  cases ev
  case READ => exact .refl _
  case WRITE =>
    have left : (self.drop .WRITE).registered = (self.getEvContext .READ).registered :=
      List.append_nil _
    rw [left]
    exact List.perm_append_comm

/-- An event comes to its context. -/
theorem FdContext.registered_setEvContext {entered : EventContext}
    (empty : (self.getEvContext ev).registered = []) :
    FdContext.registered { self with getEvContext := self.setEvContext ev entered } |>.Perm
      (entered.registered ++ self.registered) := by
  cases ev
  case READ =>
    rw [FdContext.registered, FdContext.registered, empty]
    exact .refl _
  case WRITE =>
    rw [FdContext.registered, FdContext.registered, empty, List.append_nil]
    exact List.perm_append_comm

theorem Ledger.initial : Ledger fresh := by
  refine ⟨fun _ _ _ => rfl, .initial rfl fun _ => rfl, nofun⟩

/-- The contexts keep what they have. -/
theorem Ledger.keep (ledger : Ledger state) (new : Asserted (state.put action.1 shared now) New)
    (kept : shared.kept = state.shared.kept)
    (issued : shared.registrations = state.shared.registrations)
    (vacant : ∀ context ev, (shared.contexts context).events ev = false →
      ((shared.contexts context).getEvContext ev).registered = []) :
    Ledger (state.put action.1 shared now) := by
  refine ⟨vacant, ?_, new⟩
  rw [Config.put_shared, kept, issued]
  exact ledger.accounts

theorem Ledger.vacant_write (ledger : Ledger state)
    (contexts : shared.contexts = (state.shared.write context value).contexts)
    (vacant : ∀ ev, value.events ev = false → (value.getEvContext ev).registered = [])
    (other : Nat) (ev : Event) (absent : (shared.contexts other).events ev = false) :
    ((shared.contexts other).getEvContext ev).registered = [] := by
  rw [contexts] at absent ⊢
  by_cases same : other = context
  · rw [same, Shared.write_self] at absent ⊢
    exact vacant ev absent
  · rw [Shared.write_other same] at absent ⊢
    exact ledger.vacant other ev absent

/-- One context is changed, but not in what it keeps. -/
theorem Ledger.rewrite (ledger : Ledger state)
    (new : Asserted (state.put action.1 shared now) New)
    (contexts : shared.contexts = (state.shared.write context value).contexts)
    (scheduled : shared.scheduled = state.shared.scheduled)
    (deleted : shared.deleted = state.shared.deleted)
    (issued : shared.registrations = state.shared.registrations)
    (events : value.events = (state.shared.contexts context).events)
    (evctx : value.getEvContext = (state.shared.contexts context).getEvContext) :
    Ledger (state.put action.1 shared now) := by
  refine ledger.keep new ?_ issued (ledger.vacant_write contexts ?_)
  · rw [Shared.kept_write contexts, scheduled, deleted, FdContext.registered, evctx]
    unfold Shared.kept Config.put
    exact congrArg (Config.mk _) (funext fun other => ite_eq_right_iff.mpr fun same => by
      rw [same]
      rfl)
  · rw [events, evctx]
    exact ledger.vacant context

/-- A registration leaves its context. -/
theorem Ledger.drop (ledger : Ledger state) (new : Asserted (state.put action.1 shared now) New)
    (contexts : shared.contexts = (state.shared.write context value).contexts)
    (issued : shared.registrations = state.shared.registrations)
    (events : value.events = (state.shared.contexts context).events.remove ev)
    (evctx : value.getEvContext = (state.shared.contexts context).setEvContext ev .reset)
    (taken : (shared.scheduled ++ shared.deleted).Perm
      ((state.shared.scheduled ++ state.shared.deleted) ++
        ((state.shared.contexts context).getEvContext ev).registered)) :
    Ledger (state.put action.1 shared now) := by
  have left : value.registered = ((state.shared.contexts context).drop ev).registered := by
    rw [FdContext.registered, evctx]
    rfl
  refine ⟨ledger.vacant_write contexts fun other absent => ?_, ?_, new⟩
  · rw [evctx, FdContext.setEvContext]
    rw [events, Events.remove] at absent
    split
    case isTrue => rfl
    case isFalse apart => exact ledger.vacant context other ((if_neg apart).symm.trans absent)
  · rw [Config.put_shared, Shared.kept_write contexts, issued]
    refine ledger.accounts.move ?_
    calc ((shared.scheduled ++ shared.deleted) ++ value.registered).Perm
          (((state.shared.scheduled ++ state.shared.deleted) ++
            ((state.shared.contexts context).getEvContext ev).registered) ++ value.registered) :=
          taken.append_right _
      List.Perm _ ((state.shared.scheduled ++ state.shared.deleted) ++
          (state.shared.contexts context).registered) := by
          rw [List.append_assoc, left]
          exact ((state.shared.contexts context).registered_drop ev).symm.append_left _

/-- A new registration comes to its context. -/
theorem Ledger.register {entered : EventContext} (ledger : Ledger state)
    (new : Asserted (state.put action.1 shared now) New)
    (contexts : shared.contexts = (state.shared.write context value).contexts)
    (scheduled : shared.scheduled = state.shared.scheduled)
    (deleted : shared.deleted = state.shared.deleted)
    (issued : shared.registrations = state.shared.registrations + 1)
    (events : value.events = (state.shared.contexts context).events.add ev)
    (evctx : value.getEvContext = (state.shared.contexts context).setEvContext ev entered)
    (absent : (state.shared.contexts context).events ev = false)
    (one : entered.registered = [state.shared.registrations]) :
    Ledger (state.put action.1 shared now) := by
  refine ⟨ledger.vacant_write contexts fun other unset => ?_, ?_, new⟩
  · rw [evctx, FdContext.setEvContext]
    rw [events, Events.add] at unset
    split
    case isTrue same => exact absurd ((if_pos same).symm.trans unset) nofun
    case isFalse apart => exact ledger.vacant context other ((if_neg apart).symm.trans unset)
  · have came := @FdContext.registered_setEvContext _ _ entered
      (ledger.vacant context ev absent)
    rw [one] at came
    rw [Config.put_shared, Shared.kept_write contexts, issued, scheduled, deleted, List.range_succ,
      FdContext.registered, evctx]
    refine ledger.accounts.put (by simp) (List.nodup_singleton _) ?_
    exact (came.append_left _).trans (List.perm_append_comm_assoc _ _ _)

/-- What is being added is not registered by anybody else in the meantime. -/
theorem New.step (new : Asserted state New) (sound : Sound state)
    (moves : Moves action.1 state.shared action.2 (state.threads action.1) shared now) :
    Asserted (state.put action.1 shared now) New := by
  refine new.put sound moves fun context holds => ?_
  have own := new action.1
  generalize state.threads action.1 = was at moves own
  cases moves with
  | stay _ is | resize is => exact absurd (is.symm.trans holds) nofun
  | abort | count => exact own context holds
  | add _ absent =>
      cases holds
      rw [Shared.write_self]
      exact absent
  | delete | start | trigger | log | skip | discount | next => trivial
  | register | finish => cases holds

/-- A table that is resized keeps what it has. -/
theorem Ledger.resize {resized : Shared} {size : BitVec 32} (ledger : Ledger state)
    (known : Known state) (new : Asserted (state.put action.1 resized now) New)
    (taken : state.shared.FdContextsResize size = some resized) :
    Ledger (state.put action.1 resized now) := by
  have same := known.same_or_new taken
  unfold Shared.FdContextsResize at taken
  split at taken
  · cases taken
  cases taken
  refine ledger.keep new ?_ rfl fun context ev absent => ?_
  · refine congrArg (Config.mk _) (funext fun context => ?_)
    obtain same | ⟨⟨_, made⟩, _, old⟩ := same context
    · exact congrArg FdContext.registered same
    · rw [made, old]
      rfl
  · obtain same | ⟨⟨_, made⟩, _⟩ := same context
    · rw [same] at absent ⊢
      exact ledger.vacant context ev absent
    · rw [made]
      rfl

theorem Ledger.step (ledger : Ledger state) (sound : Sound state)
    (taken : step state action = some next) : Ledger next := by
  refine step_cases taken fun shared now moves => ?_
  have new := New.step ledger.new sound moves
  have own := ledger.new action.1
  generalize state.threads action.1 = was at moves own
  cases moves with
  | stay | abort | count | log | skip | discount | next =>
      exact ledger.keep new rfl rfl ledger.vacant
  | resize _ taken => exact ledger.resize sound.known new taken
  | add | start | finish => exact ledger.rewrite new rfl rfl rfl rfl rfl rfl
  | register entered registered =>
      have absent := own _ rfl
      exact ledger.register new rfl rfl rfl rfl rfl rfl absent
        (registered (ledger.vacant _ _ absent))
  | delete => exact ledger.drop new rfl rfl rfl rfl (.of_eq (List.append_assoc _ _ _).symm)
  | trigger =>
      refine ledger.drop new rfl rfl rfl rfl ?_
      simp only [Shared.write, List.append_assoc]
      exact List.perm_append_comm.append_left _

end Registrations

section Count

/-- `_pendingEventNum` is one ahead of what is registered. -/
def Thread.Ahead : Thread → Prop
  | .entering _ _ | .discounting _ _ _ => True
  | _ => False

/-- What is to be triggered after a read event is registered. -/
def Pass.Rest (events : Events) (pass : Pass) : Prop :=
  ∀ realEvent, pass = .dispatch realEvent → realEvent .WRITE → events .WRITE

/-- What a thread is going to trigger is registered. -/
def Ready (self : FdContext) : Thread → Prop
  | .triggering _ pass ev =>
      (pass.triggers self.events ev → self.events ev) ∧ (ev = .READ → pass.Rest self.events)
  | .discounting _ pass ev | .passed _ pass ev => ev = .READ → pass.Rest self.events
  | _ => True

/-- The count of pending events is exact, but for the threads between the count and the
context. -/
structure Exact (state : State) : Prop where
  ready : Asserted state Ready
  counted : ∃ ahead, state.Counts Thread.Ahead ahead ∧
    Counted state.shared.Registered (state.shared.pendingEventNum - ahead)

variable {state next : State} {action : ThreadId × Action} {shared : Shared} {context : Nat}
  {value : FdContext} {ev : Event} {now : Thread} {count : Int}

theorem Exact.initial : Exact fresh :=
  ⟨nofun, 0, .zero fun _ => not_false, .zero fun _ => Bool.false_ne_true⟩

theorem Registered.write (contexts : shared.contexts = (state.shared.write context value).contexts)
    (slot : Nat × Event) : shared.Registered slot ↔
      if slot.1 = context then value.events slot.2 = true else state.shared.Registered slot := by
  unfold Shared.Registered
  rw [contexts]
  by_cases same : slot.1 = context
  · rw [if_pos same, same, Shared.write_self]
  · rw [if_neg same, Shared.write_other same]

theorem Registered.same (contexts : shared.contexts = (state.shared.write context value).contexts)
    (events : value.events = (state.shared.contexts context).events)
    (counted : Counted state.shared.Registered count) : Counted shared.Registered count := by
  refine counted.congr fun slot => (Registered.write contexts slot).trans ?_
  split
  case isTrue same =>
    rw [events, ← same]
    rfl
  case isFalse => rfl

theorem Registered.add (contexts : shared.contexts = (state.shared.write context value).contexts)
    (events : value.events = (state.shared.contexts context).events.add ev)
    (absent : (state.shared.contexts context).events ev = false)
    (counted : Counted state.shared.Registered count) : Counted shared.Registered (count + 1) := by
  refine @Counted.enter _ _ _ _ (context, ev) counted (Bool.eq_false_iff.mp absent) fun slot => ?_
  refine (Registered.write contexts slot).trans ?_
  rw [events, Events.add, Prod.ext_iff]
  by_cases same : slot.1 = context
  · by_cases isEv : slot.2 = ev
    · simp [same, isEv]
    · simp [same, isEv, Shared.Registered]
  · simp [same]

theorem Registered.remove (contexts : shared.contexts = (state.shared.write context value).contexts)
    (events : value.events = (state.shared.contexts context).events.remove ev)
    (present : (state.shared.contexts context).events ev)
    (counted : Counted state.shared.Registered count) : Counted shared.Registered (count - 1) := by
  refine @Counted.leave _ _ _ _ (context, ev) counted present fun slot => ?_
  refine (Registered.write contexts slot).trans ?_
  rw [events, Events.remove, ne_eq, Prod.ext_iff]
  by_cases same : slot.1 = context
  · by_cases isEv : slot.2 = ev
    · simp [same, isEv]
    · simp [same, isEv, Shared.Registered]
  · simp [same]

/-- A thread that triggers events finds them registered. -/
theorem Ready.step (ready : Asserted state Ready) (sound : Sound state)
    (timely : Timely state action)
    (moves : Moves action.1 state.shared action.2 (state.threads action.1) shared now) :
    Asserted (state.put action.1 shared now) Ready := by
  refine ready.put sound moves fun context holds => ?_
  have own := ready action.1
  unfold Timely at timely
  generalize state.threads action.1 = was at moves own timely
  cases moves with
  | stay _ is | resize is => exact absurd (is.symm.trans holds) nofun
  | abort => exact own context holds
  | add | count => trivial
  | delete =>
      cases holds
      intro _ realEvent same
      cases same
  | start free begins _ succeeds =>
      cases holds
      rw [Shared.write_self]
      cases begins with
      | cancelEvent registered => exact ⟨fun _ => registered, fun _ _ => nofun⟩
      | cancelAll => exact ⟨id, fun _ _ => nofun⟩
      | dispatch triggered registered =>
          have all := timely _ _ rfl succeeds ⟨_, triggered, registered⟩
          refine ⟨all .READ, fun _ realEvent same => ?_⟩
          cases same
          exact all .WRITE
  | register | finish => cases holds
  | trigger =>
      cases holds
      rw [Shared.write_self]
      rintro rfl realEvent same write
      exact (own _ rfl).2 rfl realEvent same write
  | log | skip => exact (own context holds).2
  | discount => exact own context holds
  | next isPass =>
      refine ⟨?_, nofun⟩
      obtain rfl | ⟨realEvent, rfl⟩ := isPass
      · exact id
      · exact own context holds rfl realEvent rfl

/-- The count of events and the events stay as they are. -/
theorem Exact.keep (exact' : Exact state) (ready : Asserted (state.put action.1 shared now) Ready)
    (same : now.Ahead ↔ (state.threads action.1).Ahead)
    (pending : shared.pendingEventNum = state.shared.pendingEventNum)
    (registered : ∀ count, Counted state.shared.Registered count →
      Counted shared.Registered count) : Exact (state.put action.1 shared now) := by
  obtain ⟨ahead, counts, counted⟩ := exact'.counted
  refine ⟨ready, ahead, counts.put same, ?_⟩
  rw [Config.put_shared, pending]
  exact registered _ counted

/-- The count goes ahead of the events, or the events fall behind it. -/
theorem Exact.ahead (exact' : Exact state) (ready : Asserted (state.put action.1 shared now) Ready)
    (was : ¬ (state.threads action.1).Ahead) (is : now.Ahead)
    (registered : ∀ count, Counted state.shared.Registered count →
      Counted shared.Registered (count + (shared.pendingEventNum - state.shared.pendingEventNum) - 1)) :
    Exact (state.put action.1 shared now) := by
  obtain ⟨ahead, counts, counted⟩ := exact'.counted
  refine ⟨ready, ahead + 1, counts.enter was is, ?_⟩
  have moved := registered _ counted
  rw [show state.shared.pendingEventNum - ahead +
    (shared.pendingEventNum - state.shared.pendingEventNum) - 1 =
      shared.pendingEventNum - (ahead + 1) by omega] at moved
  exact moved

/-- The events catch up with the count, or the count with the events. -/
theorem Exact.behind (exact' : Exact state) (ready : Asserted (state.put action.1 shared now) Ready)
    (was : (state.threads action.1).Ahead) (is : ¬ now.Ahead)
    (registered : ∀ count, Counted state.shared.Registered count →
      Counted shared.Registered (count + (shared.pendingEventNum - state.shared.pendingEventNum) + 1)) :
    Exact (state.put action.1 shared now) := by
  obtain ⟨ahead, counts, counted⟩ := exact'.counted
  refine ⟨ready, ahead - 1, counts.leave was is, ?_⟩
  have moved := registered _ counted
  rw [show state.shared.pendingEventNum - ahead +
    (shared.pendingEventNum - state.shared.pendingEventNum) + 1 =
      shared.pendingEventNum - (ahead - 1) by omega] at moved
  exact moved

theorem Exact.step (exact' : Exact state) (sound : Sound state) (ledger : Ledger state)
    (timely : Timely state action) (taken : step state action = some next) : Exact next := by
  refine step_cases taken fun shared now moves => ?_
  have ready := Ready.step exact'.ready sound timely moves
  have mine := exact'.ready action.1
  have new := ledger.new action.1
  have known := sound.known
  generalize before : state.threads action.1 = was at moves mine new
  have unlocked {thread : Thread} (free : thread.holding = none) : ¬ thread.Ahead := by
    cases thread <;> first | exact not_false | cases free
  cases moves with
  | stay was is =>
      refine exact'.keep ready ?_ rfl fun _ => id
      rw [before]
      exact iff_of_false (unlocked is) (unlocked was)
  | resize is taken =>
      refine exact'.keep ready ?_ ?_ fun count counted => counted.congr fun slot => ?_
      · rw [before]
        exact iff_of_false (unlocked is) not_false
      · unfold Shared.FdContextsResize at taken
        split at taken <;> cases taken
        rfl
      · unfold Shared.Registered
        obtain same | ⟨⟨_, made⟩, _, old⟩ := known.same_or_new taken slot.1
        · rw [same]
        · rw [made, old]
          rfl
  | abort => exact exact'.keep ready (by rw [before]) rfl fun _ => id
  | skip | next =>
      refine exact'.keep ready ?_ rfl fun _ => id
      rw [before]
      exact Iff.rfl
  | add | finish =>
      refine exact'.keep ready ?_ rfl fun _ counted => Registered.same rfl rfl counted
      rw [before]
      exact Iff.rfl
  | start free begins =>
      refine exact'.keep ready ?_ rfl fun _ counted => Registered.same rfl rfl counted
      rw [before]
      exact iff_of_false not_false (unlocked (by assumption))
  | count =>
      refine exact'.ahead ready ?_ trivial fun count counted => ?_
      · rw [before]
        exact not_false
      · rw [show count + (state.shared.pendingEventNum + 1 - state.shared.pendingEventNum) - 1 =
          count by omega]
        exact counted
  | discount =>
      refine exact'.behind ready ?_ not_false fun count counted => ?_
      · rw [before]
        trivial
      · rw [show count + (state.shared.pendingEventNum - 1 - state.shared.pendingEventNum) + 1 =
          count by omega]
        exact counted
  | delete _ registered | trigger _ registered =>
      refine exact'.ahead ready ?_ trivial fun count counted => ?_
      · rw [before]
        exact not_false
      · change Counted _ (count + (state.shared.pendingEventNum - state.shared.pendingEventNum) - 1)
        rw [sub_self, add_zero]
        exact Registered.remove rfl rfl registered counted
  | log triggers absent =>
      have present := (mine _ rfl).1 triggers
      rw [absent] at present
      cases present
  | register =>
      refine exact'.behind ready ?_ not_false fun count counted => ?_
      · rw [before]
        trivial
      · change Counted _ (count + (state.shared.pendingEventNum - state.shared.pendingEventNum) + 1)
        rw [sub_self, add_zero]
        exact Registered.add rfl rfl (new _ rfl) counted

end Count

section Runs

/-- The events that are registered are counted where nobody has the lock of a context, and
no registration is scheduled twice. -/
structure PendingExact (state : State) : Prop where
  pending : state.shared.Unlocked →
    Counted state.shared.Registered state.shared.pendingEventNum
  once : state.shared.scheduled.Nodup

variable {state : State}

theorem Ledger.of_runs {allowed : State → ThreadId × Action → Prop}
    (run : Runs IOManager.step allowed fresh state) : Ledger state := by
  refine (@Runs.invariant _ _ _ _ _ _ (fun state => Sound state ∧ Ledger state) ?_ run
    ⟨.initial, .initial⟩).2
  rintro before action after ⟨sound, ledger⟩ - taken
  exact ⟨sound.step taken, ledger.step sound taken⟩

theorem Exact.of_runs (run : Runs IOManager.step Timely fresh state) : Exact state := by
  refine (@Runs.invariant _ _ _ _ _ _ (fun state => (Sound state ∧ Ledger state) ∧ Exact state)
    ?_ run ⟨⟨.initial, .initial⟩, .initial⟩).2
  rintro before action after ⟨⟨sound, ledger⟩, exact'⟩ timely taken
  exact ⟨⟨sound.step taken, ledger.step sound taken⟩, exact'.step sound ledger timely taken⟩

/-- As long as the dispatch of an event goes on only where all that it triggers is
registered, the count of pending events is exact. -/
theorem pending_exact (run : Runs step Timely fresh state) : PendingExact state := by
  have sound := Sound.of_runs run
  have ledger := Ledger.of_runs run
  have exact' := Exact.of_runs run
  constructor
  · intro unlocked
    obtain ⟨ahead, counts, counted⟩ := exact'.counted
    have none : ∀ thread, ¬ (state.threads thread).Ahead := by
      intro thread isAhead
      have outside : (state.threads thread).holding = Option.none := by
        refine Option.eq_none_iff_forall_ne_some.mpr fun context holds => ?_
        cases (unlocked context).symm.trans ((sound.locked context thread).mpr holds)
      revert isAhead outside
      cases state.threads thread <;> first | exact False.elim | exact fun _ => nofun
    rw [(state.counts_iff.mp counts).eq_zero none, sub_zero] at counted
    exact counted
  · exact (ledger.accounts.distinct 0).of_append_left.of_append_left

/-- An event is registered and dispatched. -/
def oneEvent : List (ThreadId × Action) :=
  [(0, .call 5 (.addEvent ⟨.READ, false, some 0⟩)), (0, .go true), (0, .go true), (0, .go true),
    (1, .wait 5 ⟨true, false, false⟩), (1, .go true), (1, .go true), (1, .go true)]

/-- Every event that is reported is registered. -/
def timely (state : State) (action : ThreadId × Action) : Bool :=
  match state.threads action.1 with
  | .reported context report =>
      let events := (state.shared.contexts context).events
      (!report.realEvent events .READ || events .READ) &&
        (!report.realEvent events .WRITE || events .WRITE)
  | _ => true

theorem timely_sound (state : State) (action : ThreadId × Action) (passes : timely state action) :
    Timely state action := by
  intro context report reported _ _ ev triggered
  rw [timely, reported] at passes
  simp only [Bool.and_eq_true, Bool.or_eq_true, Bool.not_eq_true'] at passes
  cases ev
  · exact passes.1.resolve_left (ne_false_of_eq_true triggered)
  · exact passes.2.resolve_left (ne_false_of_eq_true triggered)

def oneEventRan : State := (replay step timely oneEvent fresh).get (by decide)

theorem pending_exact_oneEvent :
    oneEventRan.shared.scheduled = [0] ∧ PendingExact oneEventRan :=
  ⟨by decide, pending_exact (.of_replay timely_sound (Option.some_get _).symm)⟩

/-- Both events are reported, and one is deleted before the dispatch takes the lock. -/
def staleReport : List (ThreadId × Action) :=
  [(0, .call 5 (.addEvent ⟨.READ, false, some 0⟩)), (0, .go true), (0, .go true), (0, .go true),
    (0, .call 5 (.addEvent ⟨.WRITE, true, some 0⟩)), (0, .go true), (0, .go true), (0, .go true),
    (1, .wait 5 ⟨true, true, false⟩),
    (0, .call 5 (.delEvent .WRITE)), (0, .go true), (0, .go true), (0, .go true)] ++
    List.replicate 7 (1, .go true)

def staleReported : State :=
  (replay step (fun _ _ => true) staleReport fresh).get (by decide)

theorem not_pending_exact : ¬ ∀ state, Runs step (fun _ _ => True) fresh state →
    PendingExact state := by
  intro claimed
  have run : Runs step (fun _ _ => True) fresh staleReported :=
    .of_replay (fun _ _ _ => trivial) (Option.some_get _).symm
  have outside : ∀ thread, (staleReported.threads thread).holding = none :=
    replay_forall (motive := fun thread => Thread.holding thread = none) step_frame 2
      (Option.some_get _).symm (by decide) (by decide) fun _ _ => rfl
  have unlocked : staleReported.shared.Unlocked := by
    refine fun context => Option.eq_none_iff_forall_ne_some.mpr fun thread owned => ?_
    cases (outside thread).symm.trans (((Sound.of_runs run).locked context thread).mp owned)
  obtain ⟨slots, -, negative⟩ := (claimed _ run).pending unlocked
  have count : staleReported.shared.pendingEventNum = -1 := by decide
  omega

end Runs

end Xten.IOManager
