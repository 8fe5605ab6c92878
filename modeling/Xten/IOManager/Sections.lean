import Xten.IOManager.Calls

/-!
# Sections under the lock of a context

What one step can do, and that a thread in a section is the one that has the lock.
-/

namespace Xten.IOManager

open Std.Interleaving

/-- The context whose lock a thread has. -/
def Thread.holding : Thread → Option Nat
  | .counting context _ | .entering context _ | .triggering context _ _
  | .discounting context _ _ | .passed context _ _ => some context
  | _ => none

/-- The context that a thread has found, whether or not it has its lock. -/
def Thread.context : Thread → Option Nat
  | .outside _ | .growing _ _ => none
  | .found context _ | .reported context _ | .counting context _ | .entering context _
  | .triggering context _ _ | .discounting context _ _ | .passed context _ _ => some context

/-- What makes a thread go through the events of a context. -/
inductive Begins (context : Nat) (self : FdContext) : Thread → Pass → Event → Prop where
  | cancelEvent {ev : Event} (registered : self.events ev) :
      Begins context self (.found context (.cancelEvent ev)) .cancelEvent ev
  | cancelAll : Begins context self (.found context .cancelAll) .cancelAll .READ
  | dispatch {report : Report} {ev : Event}
      (triggered : report.realEvent self.events ev) (registered : self.events ev) :
      Begins context self (.reported context report)
        (.dispatch (report.realEvent self.events)) .READ

/-- What one step can do: what the thread was at, the shared state after it, and what the
thread is at then. -/
inductive Moves (thread : ThreadId) (shared : Shared) (action : Action) : Thread → Shared → Thread → Prop where
  | stay {now next : Thread} (was : now.holding = none) (is : next.holding = none)
      (known : ∀ context, next.context = some context →
        context ∈ shared.fdContexts ∨ context < shared.made) :
      Moves thread shared action now shared next
  | resize {fd : BitVec 32} {adding : Adding} {resized : Shared} {next : Thread}
      (is : next.holding = none) (taken : shared.FdContextsResize (fd * 2) = some resized)
      (known : ∀ context, next.context = some context → context ∈ resized.fdContexts) :
      Moves thread shared action (.growing fd adding) resized next
  | abort {now : Thread} : Moves thread shared action now shared.abort now
  | add {context : Nat} {adding : Adding} (free : (shared.contexts context).mutex = none)
      (new : (shared.contexts context).events adding.ev = false) (watched : Events) :
      Moves thread shared action (.found context (.addEvent adding))
        (shared.write context
          { (shared.contexts context).watch watched with mutex := some thread })
        (.counting context adding)
  | delete {context : Nat} {ev : Event} (free : (shared.contexts context).mutex = none)
      (registered : (shared.contexts context).events ev) (watched : Events) :
      Moves thread shared action (.found context (.delEvent ev))
        { shared.write context
            { ((shared.contexts context).drop ev).watch watched with mutex := some thread } with
          deleted := shared.deleted ++ ((shared.contexts context).getEvContext ev).registered }
        (.discounting context .delEvent ev)
  | start {now : Thread} {context : Nat} {pass : Pass} {ev : Event}
      (free : (shared.contexts context).mutex = none)
      (begins : Begins context (shared.contexts context) now pass ev) (was : now.holding = none)
      (succeeds : action = .go true) (watched : Events) :
      Moves thread shared action now
        (shared.write context
          { (shared.contexts context).watch watched with mutex := some thread })
        (.triggering context pass ev)
  | count {context : Nat} {adding : Adding} :
      Moves thread shared action (.counting context adding)
        { shared with pendingEventNum := shared.pendingEventNum + 1 } (.entering context adding)
  | register {context : Nat} {adding : Adding} (entered : EventContext)
      (registered : ((shared.contexts context).getEvContext adding.ev).registered = [] →
        entered.registered = [shared.registrations]) :
      Moves thread shared action (.entering context adding)
        { shared.write context { shared.contexts context with
            events := (shared.contexts context).events.add adding.ev
            getEvContext := (shared.contexts context).setEvContext adding.ev entered
            mutex := none } with
          registrations := shared.registrations + 1 } (.outside (some 0))
  | trigger {context : Nat} {pass : Pass} {ev : Event}
      (triggers : pass.triggers (shared.contexts context).events ev)
      (registered : (shared.contexts context).events ev) :
      Moves thread shared action (.triggering context pass ev)
        { shared.write context ((shared.contexts context).drop ev) with
          scheduled :=
            shared.scheduled ++ ((shared.contexts context).getEvContext ev).registered }
        (.discounting context pass ev)
  | log {context : Nat} {pass : Pass} {ev : Event}
      (triggers : pass.triggers (shared.contexts context).events ev)
      (new : (shared.contexts context).events ev = false) :
      Moves thread shared action (.triggering context pass ev) shared (.discounting context pass ev)
  | skip {context : Nat} {pass : Pass} {ev : Event} :
      Moves thread shared action (.triggering context pass ev) shared (.passed context pass ev)
  | discount {context : Nat} {pass : Pass} {ev : Event} :
      Moves thread shared action (.discounting context pass ev)
        { shared with pendingEventNum := shared.pendingEventNum - 1 } (.passed context pass ev)
  | next {context : Nat} {pass : Pass}
      (isPass : pass = .cancelAll ∨ ∃ realEvent, pass = .dispatch realEvent) :
      Moves thread shared action (.passed context pass .READ) shared (.triggering context pass .WRITE)
  | finish {context : Nat} {pass : Pass} {ev : Event} {ret : Option Int} :
      Moves thread shared action (.passed context pass ev) (shared.finish context ret).1 (.outside ret)

section Inversion

variable {thread : ThreadId} {shared : Shared} {now : Thread} {action : Action}
  {next : Shared × Thread}

theorem look_moves {ret : Option Int} {fd : BitVec 32} {call : Call} :
    Moves thread shared action (.outside ret) shared (shared.look fd call) := by
  unfold Shared.look
  split
  case h_1 context found =>
    refine .stay rfl rfl fun other same => ?_
    cases same
    unfold Shared.lookup at found
    split at found
    · cases found
    · exact .inl (List.mem_of_getElem? found)
  all_goals exact .stay rfl rfl nofun

theorem grow_moves {fd : BitVec 32} {adding : Adding} :
    Moves thread shared action (.growing fd adding) (shared.grow fd adding).1
      (shared.grow fd adding).2 := by
  unfold Shared.grow
  split
  case h_1 => exact .stay rfl rfl nofun
  case h_2 resized taken =>
    split
    case h_1 => exact .resize rfl taken nofun
    case h_2 context at' =>
      refine .resize rfl taken fun other same => ?_
      cases same
      exact List.mem_of_getElem? at'

theorem enter_nil {context : Nat} {value : FdContext} {after : Thread} :
    shared.enter thread context now (.entered value [] after) =
      (shared.write context { value with mutex := some thread }, after) := by
  simp only [Shared.enter, Shared.write, List.append_nil]

/-- A call takes the lock of its context. -/
theorem found_moves {context : Nat} {call : Call} {ctl : Bool}
    (free : (shared.contexts context).mutex = none) :
    Moves thread shared (.go ctl) (.found context call)
      (shared.enter thread context (.found context call)
        (call.enter context (shared.contexts context) ctl)).1
      (shared.enter thread context (.found context call)
        (call.enter context (shared.contexts context) ctl)).2 := by
  cases call
  case addEvent adding =>
    rw [Call.enter]
    split
    case isTrue => exact .abort
    case isFalse new =>
      split
      · rw [enter_nil]
        exact .add free (Bool.eq_false_of_not_eq_true new) _
      · exact .stay rfl rfl nofun
  case delEvent ev =>
    rw [Call.enter]
    split
    case isTrue both => exact .delete free (Bool.and_eq_true_iff.mp both).1 _
    case isFalse => exact .stay rfl rfl nofun
  case cancelEvent ev =>
    rw [Call.enter]
    split
    case isTrue both =>
      rw [enter_nil]
      exact .start free (.cancelEvent (Bool.and_eq_true_iff.mp both).1) rfl
        (congrArg Action.go (Bool.and_eq_true_iff.mp both).2) _
    case isFalse => exact .stay rfl rfl nofun
  case cancelAll =>
    rw [Call.enter]
    split
    case isTrue both =>
      rw [enter_nil]
      exact .start free .cancelAll rfl (congrArg Action.go (Bool.and_eq_true_iff.mp both).2) _
    case isFalse => exact .stay rfl rfl nofun

/-- A worker takes the lock of the context of an event that epoll has reported. -/
theorem reported_moves {context : Nat} {report : Report} {ctl : Bool}
    (free : (shared.contexts context).mutex = none) :
    Moves thread shared (.go ctl) (.reported context report)
      (shared.enter thread context (.reported context report)
        (report.enter context (shared.contexts context) ctl)).1
      (shared.enter thread context (.reported context report)
        (report.enter context (shared.contexts context) ctl)).2 := by
  rw [Report.enter]
  split
  case isTrue both =>
    have some : ∃ ev, report.realEvent (shared.contexts context).events ev ∧
        (shared.contexts context).events ev := by
      simp only [Bool.and_eq_true, Bool.or_eq_true] at both
      exact both.1.elim (⟨.READ, ·⟩) (⟨.WRITE, ·⟩)
    obtain ⟨ev, triggered, registered⟩ := some
    rw [enter_nil]
    exact .start free (.dispatch triggered registered) rfl
      (congrArg Action.go (Bool.and_eq_true_iff.mp both).2) _
  case isFalse => exact .stay rfl rfl nofun

theorem register_moves {context : Nat} {adding : Adding} :
    Moves thread shared action (.entering context adding) (shared.register context adding).1
      (shared.register context adding).2 := by
  unfold Shared.register
  simp only
  split
  · exact .abort
  · refine .register _ fun empty => ?_
    have nothing := List.append_eq_nil_iff.mp empty
    split
    · simp only [EventContext.registered, nothing.2]
      rfl
    · simp only [EventContext.registered, nothing.1]
      rfl

theorem trigger_moves {context : Nat} {pass : Pass} {ev : Event} :
    Moves thread shared action (.triggering context pass ev) (shared.trigger context pass ev).1
      (shared.trigger context pass ev).2 := by
  unfold Shared.trigger FdContext.triggerEvent
  simp only
  split
  case isTrue triggers =>
    by_cases registered : (shared.contexts context).events ev
    · rw [if_pos registered]
      cases ((shared.contexts context).getEvContext ev).scheduler with
      | none => exact .abort
      | some scheduler => exact .trigger triggers registered
    · have same : (shared.write context (shared.contexts context)).contexts = shared.contexts := by
        funext other
        exact (ite_eq_right_iff.mpr fun isContext => by rw [isContext])
      simp only [if_neg registered, List.append_nil, Shared.write] at same ⊢
      rw [same]
      exact .log triggers (Bool.eq_false_of_not_eq_true registered)
  case isFalse => exact .skip

theorem proceed_moves {context : Nat} {pass : Pass} {ev : Event} :
    Moves thread shared action (.passed context pass ev) (shared.proceed context pass ev).1
      (shared.proceed context pass ev).2 := by
  fun_cases Shared.proceed shared context pass ev
  case case3 => exact .next (.inl rfl)
  case case5 => exact .abort
  case case6 realEvent => exact .next (.inr ⟨realEvent, rfl⟩)
  all_goals exact .finish

theorem exec_moves (taken : shared.exec thread now action = some next) :
    Moves thread shared action now next.1 next.2 := by
  revert taken
  fun_cases Shared.exec thread shared now action
  all_goals
    intro taken
    cases taken
  case case1 => exact look_moves
  case case2 holds =>
    refine .stay rfl rfl fun other same => ?_
    cases same
    exact .inr holds.1
  case case4 => exact grow_moves
  case case5 free => exact found_moves (Option.isNone_iff_eq_none.mp free)
  case case7 free => exact reported_moves (Option.isNone_iff_eq_none.mp free)
  case case9 => exact .count
  case case10 => exact register_moves
  case case11 => exact trigger_moves
  case case12 => exact .discount
  case case13 => exact proceed_moves

end Inversion

/-- What every step keeps that moves so. -/
theorem step_cases {state next : State} {action : ThreadId × Action} {motive : State → Prop}
    (taken : step state action = some next)
    (moves : ∀ shared now, Moves action.1 state.shared action.2 (state.threads action.1) shared now →
      motive (state.put action.1 shared now)) : motive next := by
  unfold step at taken
  split at taken
  · cases taken
  · obtain ⟨result, executed, rfl⟩ := Option.map_eq_some_iff.mp taken
    exact moves _ _ (exec_moves executed)

theorem step_frame ⦃state : State⦄ ⦃action : ThreadId × Action⦄ ⦃next : State⦄ ⦃other : Nat⦄
    (taken : step state action = some next) (apart : some action.1 ≠ some other) :
    next.threads other = state.threads other :=
  step_cases (motive := fun next => next.threads other = state.threads other) taken
    fun _ _ _ => Config.put_other fun same => apart (congrArg some same.symm)

/-- The lock of a context is with the thread in a section on it. -/
def Locked (state : State) : Prop :=
  ∀ context thread, (state.shared.contexts context).mutex = some thread ↔
    (state.threads thread).holding = some context

section Locks

variable {state : State} {thread context : Nat} {shared : Shared} {next : Thread}

/-- Nothing is locked or given back. -/
theorem Locked.keep (locked : Locked state)
    (mutex : ∀ context, (shared.contexts context).mutex = (state.shared.contexts context).mutex)
    (same : next.holding = (state.threads thread).holding) :
    Locked (state.put thread shared next) := by
  intro context other
  rw [Config.put_shared, mutex, locked]
  exact iff_of_eq (congrArg (· = some context) (state.put_view Thread.holding same other).symm)

/-- A lock is taken by a thread that has none. -/
theorem Locked.take (locked : Locked state)
    (free : (state.shared.contexts context).mutex = none)
    (was : (state.threads thread).holding = none) (is : next.holding = some context)
    (mutex : ∀ other, (shared.contexts other).mutex =
      if other = context then some thread else (state.shared.contexts other).mutex) :
    Locked (state.put thread shared next) := by
  intro other owner
  rw [Config.put_shared, mutex]
  obtain ⟨rfl, current⟩ | ⟨apart, current⟩ := state.put_cases thread shared next owner
  all_goals rw [current]
  · rw [is]
    split
    case isTrue isContext => simp [isContext]
    case isFalse notContext =>
      rw [locked, was]
      simp [Ne.symm notContext]
  · rw [← locked]
    split
    case isTrue isContext => simp [isContext, free, Ne.symm apart]
    case isFalse => exact Iff.rfl

/-- A thread gives its lock back. -/
theorem Locked.give (locked : Locked state) (was : (state.threads thread).holding = some context)
    (is : next.holding = none)
    (mutex : ∀ other, (shared.contexts other).mutex =
      if other = context then none else (state.shared.contexts other).mutex) :
    Locked (state.put thread shared next) := by
  intro other owner
  have own := (locked context thread).mpr was
  rw [Config.put_shared, mutex]
  obtain ⟨rfl, current⟩ | ⟨apart, current⟩ := state.put_cases thread shared next owner
  all_goals rw [current]
  · rw [is]
    split
    case isTrue => simp
    case isFalse notContext =>
      rw [locked, was]
      simp [Ne.symm notContext]
  · split
    case isTrue isContext =>
      rw [isContext, ← locked, own]
      simp [Ne.symm apart]
    case isFalse => exact locked other owner

end Locks

/-- Nobody points beyond the contexts that have been made. -/
structure Known (state : State) : Prop where
  table : ∀ context ∈ state.shared.fdContexts, context < state.shared.made
  threads : ∀ thread context, (state.threads thread).context = some context →
    context < state.shared.made
  unmade : ∀ context, state.shared.made ≤ context →
    ∃ fd, state.shared.contexts context = .create fd

section Pointers

variable {state : State} {thread context : Nat} {shared resized : Shared} {next : Thread}
  {size : BitVec 32} {value : FdContext}

/-- The contexts up to a bound are known, and the thread points to one of them. -/
theorem Known.put (known : Known state) (made : state.shared.made ≤ shared.made)
    (table : ∀ context ∈ shared.fdContexts, context < shared.made)
    (points : ∀ context, next.context = some context → context < shared.made)
    (unmade : ∀ context, shared.made ≤ context → ∃ fd, shared.contexts context = .create fd) :
    Known (state.put thread shared next) := by
  refine ⟨table, fun other context same => ?_, unmade⟩
  rw [Config.put_shared]
  obtain ⟨-, current⟩ | ⟨-, current⟩ := state.put_cases thread shared next other
  all_goals rw [current] at same
  · exact points context same
  · exact (known.threads other context same).trans_le made

/-- A known context is changed. -/
theorem Known.write (known : Known state) (isContext : context < state.shared.made)
    (table : shared.fdContexts = state.shared.fdContexts) (made : shared.made = state.shared.made)
    (contexts : shared.contexts = (state.shared.write context value).contexts)
    (points : ∀ other, next.context = some other → other = context) :
    Known (state.put thread shared next) := by
  refine known.put (le_of_eq made.symm) ?_ ?_ ?_
  · rw [table, made]
    exact known.table
  · intro other same
    rw [made, points other same]
    exact isContext
  · intro other beyond
    rw [made] at beyond
    rw [contexts]
    obtain ⟨fd, created⟩ := known.unmade other beyond
    exact ⟨fd, (if_neg (ne_of_gt (isContext.trans_le beyond))).trans created⟩

/-- The contexts stay as they are. -/
theorem Known.stay (known : Known state) (table : shared.fdContexts = state.shared.fdContexts)
    (made : shared.made = state.shared.made) (contexts : shared.contexts = state.shared.contexts)
    (points : ∀ context, next.context = some context →
      context ∈ state.shared.fdContexts ∨ context < state.shared.made) :
    Known (state.put thread shared next) := by
  refine known.put (le_of_eq made.symm) ?_ (fun context same => ?_) ?_
  · rw [table, made]
    exact known.table
  · rw [made]
    exact (points context same).elim (known.table context) id
  · rw [made, contexts]
    exact known.unmade

theorem FdContextsResize_eq (taken : state.shared.FdContextsResize size = some resized) :
    ∃ more, resized.made = state.shared.made + more ∧
      resized.fdContexts =
        state.shared.fdContexts.take size.toNat ++ List.range' state.shared.made more ∧
      ∀ context, resized.contexts context = state.shared.contexts context ∨
        (∃ fd, resized.contexts context = .create fd) ∧ state.shared.made ≤ context := by
  unfold Shared.FdContextsResize at taken
  split at taken
  · cases taken
  · cases taken
    refine ⟨_, rfl, rfl, fun context => ?_⟩
    simp only
    split
    case isTrue between => exact .inr ⟨⟨_, rfl⟩, between.1⟩
    case isFalse => exact .inl rfl

/-- A context is as before, or was not yet made and is empty. -/
theorem Known.same_or_new (known : Known state)
    (taken : state.shared.FdContextsResize size = some resized) (context : Nat) :
    resized.contexts context = state.shared.contexts context ∨
      (∃ fd, resized.contexts context = .create fd) ∧
        ∃ fd, state.shared.contexts context = .create fd := by
  obtain ⟨more, -, -, contexts⟩ := FdContextsResize_eq taken
  exact (contexts context).imp_right fun ⟨created, unmade⟩ => ⟨created, known.unmade _ unmade⟩

theorem Known.resize (known : Known state)
    (taken : state.shared.FdContextsResize size = some resized)
    (points : ∀ context, next.context = some context → context ∈ resized.fdContexts) :
    Known (state.put thread resized next) := by
  obtain ⟨more, made, table, contexts⟩ := FdContextsResize_eq taken
  have bound : ∀ context ∈ resized.fdContexts, context < resized.made := by
    intro context member
    rw [table, List.mem_append, List.mem_range'_1] at member
    rw [made]
    obtain old | new := member
    · have := known.table context (List.mem_of_mem_take old)
      omega
    · exact new.2
  refine known.put (by omega) bound (fun context same => bound context (points context same))
    fun context beyond => ?_
  obtain same | ⟨created, -⟩ := contexts context
  · rw [same]
    exact known.unmade context (by omega)
  · exact created

end Pointers

/-- What holds in every state, whatever epoll reports. -/
structure Sound (state : State) : Prop where
  locked : Locked state
  known : Known state

section Steps

variable {state next : State} {action : ThreadId × Action}

theorem Sound.initial : Sound fresh := by
  constructor
  · intro context thread
    exact iff_of_false nofun nofun
  · exact ⟨fun context member => List.mem_range.mp member, nofun, fun context _ => ⟨context, rfl⟩⟩

theorem Locked.step (locked : Locked state) (known : Known state)
    (taken : step state action = some next) : Locked next := by
  refine step_cases taken fun shared now moves => ?_
  generalize before : state.threads action.1 = was at moves
  cases moves with
  | stay was is => exact locked.keep (fun _ => rfl) (by rw [before, was, is])
  | resize is taken =>
      refine locked.keep (fun context => ?_) (by rw [before, is]; rfl)
      obtain same | ⟨⟨_, new⟩, _, old⟩ := known.same_or_new taken context
      · rw [same]
      · rw [new, old]
        rfl
  | abort | count | log | skip | discount | next =>
      exact locked.keep (fun _ => rfl) (by rw [before]; try rfl)
  | trigger =>
      refine locked.keep (fun context => ?_) (by rw [before]; rfl)
      simp only [Shared.write]
      split
      case isTrue isContext =>
        rw [isContext]
        rfl
      case isFalse => rfl
  | add free | delete free | start free =>
      refine locked.take free (by rw [before]; first | rfl | assumption) rfl fun other => ?_
      simp only [Shared.write]
      split <;> rfl
  | register | finish =>
      refine locked.give (by rw [before]; rfl) rfl fun other => ?_
      simp only [Shared.finish, Shared.write]
      split <;> rfl

theorem Known.step (known : Known state) (taken : step state action = some next) :
    Known next := by
  refine step_cases taken fun shared now moves => ?_
  generalize before : state.threads action.1 = was at moves
  have own := known.threads action.1
  rw [before] at own
  cases moves with
  | stay _ _ points => exact known.stay rfl rfl rfl points
  | resize _ taken points => exact known.resize taken points
  | abort => exact known.stay rfl rfl rfl fun context same => .inr (own context same)
  | count | log | skip | discount | next =>
      exact known.stay rfl rfl rfl fun context same => .inr (own context same)
  | start free begins =>
      have isContext := own _ (by cases begins <;> rfl)
      exact known.write isContext rfl rfl rfl fun other same => (Option.some.inj same).symm
  | add | delete | trigger =>
      exact known.write (own _ rfl) rfl rfl rfl fun other same => (Option.some.inj same).symm
  | register | finish => exact known.write (own _ rfl) rfl rfl rfl nofun

theorem Sound.step (sound : Sound state) (taken : step state action = some next) : Sound next :=
  ⟨sound.locked.step sound.known taken, sound.known.step taken⟩

theorem Sound.of_runs {allowed : State → ThreadId × Action → Prop}
    (run : Runs IOManager.step allowed fresh state) : Sound state :=
  run.invariant (fun _ _ _ sound _ taken => sound.step taken) .initial

/-- A context that another thread has locked stays as it is. -/
theorem Sound.foreign {shared : Shared} {now : Thread} {thread owner context : Nat}
    (sound : Sound state) (moves : Moves thread state.shared action.2 (state.threads thread) shared now)
    (apart : owner ≠ thread) (owned : (state.shared.contexts context).mutex = some owner) :
    shared.contexts context = state.shared.contexts context := by
  have mine {own : Nat} (holds : (state.threads thread).holding = some own) : context ≠ own := by
    rintro rfl
    have locked := (sound.locked context thread).mpr holds
    exact apart (Option.some.inj (owned.symm.trans locked))
  have free {other : Nat} (free : (state.shared.contexts other).mutex = none) :
      context ≠ other := by
    rintro rfl
    cases owned.symm.trans free
  generalize before : state.threads thread = was at moves mine
  cases moves with
  | stay | abort | count | log | skip | discount | next => rfl
  | resize _ taken =>
      obtain same | ⟨-, _, old⟩ := sound.known.same_or_new taken context
      · exact same
      · rw [old] at owned
        cases owned
  | add unlocked | delete unlocked | start unlocked => exact if_neg (free unlocked)
  | register | trigger | finish => exact if_neg (mine rfl)

/-- An assertion of the thread in a section, about its context. -/
def Asserted (state : State) (asserts : FdContext → Thread → Prop) : Prop :=
  ∀ thread context, (state.threads thread).holding = some context →
    asserts (state.shared.contexts context) (state.threads thread)

/-- Only the thread that moves has to assert it anew. -/
theorem Asserted.put {asserts : FdContext → Thread → Prop} {shared : Shared} {now : Thread}
    {thread : ThreadId} (asserted : Asserted state asserts) (sound : Sound state)
    (moves : Moves thread state.shared action.2 (state.threads thread) shared now)
    (own : ∀ context, now.holding = some context → asserts (shared.contexts context) now) :
    Asserted (state.put thread shared now) asserts := by
  intro other context holds
  rw [Config.put_shared]
  obtain ⟨-, current⟩ | ⟨apart, current⟩ := state.put_cases thread shared now other
  all_goals rw [current] at holds ⊢
  · exact own context holds
  · rw [sound.foreign moves apart ((sound.locked context other).mpr holds)]
    exact asserted other context holds

end Steps

end Xten.IOManager
