import Xten.Db.FoxRedis

/-!
# The contexts of a FoxRedis

`m_status` tells whether `m_context` can still be used, and everybody but the keep-alive event
asks it first.
-/

namespace Xten.FoxRedis

open Std.Histories Std.Interleaving

variable {Reply : Type}

/-- hiredis is called with a context that it has not freed. -/
def usable (earlier : List Event) (event : Event) : Prop :=
  ∀ context, event = .hiredis context → ∃ id, context = some id ∧ .freed id ∉ earlier

/-- The keep-alive event does not occur while there is no connection. -/
def Connected (state : State Reply) : Action Reply → Prop
  | .tick _ => state.shared.status ≠ .unconnected
  | _ => True

instance (state : State Reply) (action : Action Reply) : Decidable (Connected state action) :=
  match action with
  | .tick _ => inferInstanceAs (Decidable (_ ≠ _))
  | .cmd _ _ | .go _ | .init _ _ | .pcmd _ _ | .answer _ _ | .timeout _ | .connected _ _
  | .disconnected _ => isTrue trivial

section Offline

/-- An event that is about no context. -/
def Event.offline : Event → Prop
  | .hiredis _ | .freed _ => False
  | _ => True

/-- The connection is left alone. -/
structure Shared.Offline (before after : Shared Reply) : Prop where
  status : after.status = before.status
  context : after.context = before.context
  event : after.event = before.event
  stages : after.stages = before.stages
  contexts : after.contexts = before.contexts
  trace : Extended Event.offline before.trace after.trace

namespace Shared.Offline

variable {before after last shared : Shared Reply}

theorem refl (shared : Shared Reply) : Offline shared shared :=
  ⟨rfl, rfl, rfl, rfl, rfl, .refl _⟩

theorem trans (first : Offline before after) (second : Offline after last) :
    Offline before last where
  status := second.status.trans first.status
  context := second.context.trans first.context
  event := second.event.trans first.event
  stages := second.stages.trans first.stages
  contexts := second.contexts.trans first.contexts
  trace := first.trace.trans second.trace

theorem note {event : Event} (free : event.offline) : Offline shared (shared.note event) :=
  ⟨rfl, rfl, rfl, rfl, rfl, .one free⟩

theorem delete (ctx : Ctx) : Offline shared (shared.delete ctx) :=
  ⟨rfl, rfl, rfl, rfl, rfl, .one trivial⟩

theorem setRpy (call : Nat) (reply : Reply) : Offline shared (shared.setRpy call reply) := by
  rw [Shared.setRpy]
  split
  · exact ⟨rfl, rfl, rfl, rfl, rfl, .one trivial⟩
  · exact note trivial

theorem schedule (call : Nat) (moves : Bool) : Offline shared (shared.schedule call moves) := by
  rw [Shared.schedule]
  split
  · have told : Offline shared (shared.note (.fctx call)) := note trivial
    cases moves
    all_goals exact told.trans ⟨rfl, rfl, rfl, rfl, rfl, .one trivial⟩
  · exact note trivial

theorem complete (ctx : Ctx) (answer : Answer Reply) :
    Offline shared (shared.complete ctx answer) := by
  have told : Offline shared (shared.note (.answered ctx.fctx)) := note trivial
  unfold Shared.complete
  dsimp only
  split
  · exact told.trans (delete ctx)
  · apply told.trans
    cases answer with
    | err | errorReply | null => exact (schedule _ _).trans (delete ctx)
    | reply reply => exact ((setRpy _ _).trans (schedule _ _)).trans (delete ctx)

theorem cmdCb (privdata : Option Nat) (answer : Answer Reply) :
    Offline shared (shared.cmdCb privdata answer) := by
  cases privdata with
  | none => exact refl shared
  | some address =>
      have told : Offline shared (shared.note (.ctx address)) := note trivial
      rw [Shared.cmdCb]
      split
      · exact told
      · exact told.trans (complete _ _)

theorem eventCb (ctx : Ctx) : Offline shared (shared.eventCb ctx) := by
  have used : Offline shared (shared.note (.ctx ctx.address)) := note trivial
  have told : Offline shared ((shared.note (.ctx ctx.address)).note (.timedOut ctx.fctx)) :=
    used.trans (note trivial)
  have marked : Offline shared { (shared.note (.ctx ctx.address)).note (.timedOut ctx.fctx) with
      ctxs := { ctx with ev := false, timeout := true } :: shared.ctxs.erase ctx } :=
    told.trans ⟨rfl, rfl, rfl, rfl, rfl, .refl _⟩
  exact marked.trans (schedule _ _)

end Shared.Offline

end Offline

/-- A context is at the stage that `m_status` tells. -/
def Lives (status : Status) (stage : Stage) : Prop :=
  status = .connecting ∧ stage = .connecting ∨ status = .connected ∧ stage = .connected

/-- `m_status` knows the one context that is alive, and no other is. -/
structure Tracked (shared : Shared Reply) : Prop where
  admitted : Admitted usable shared.trace
  current : shared.status ≠ .unconnected →
    ∃ id, shared.context = some id ∧ Lives shared.status (shared.stages id)
  only : ∀ id, shared.stages id = .connecting ∨ shared.stages id = .connected →
    shared.context = some id ∧ Lives shared.status (shared.stages id)
  freed : ∀ id, .freed id ∈ shared.trace ↔ shared.stages id = .freed
  ahead : ∀ id, shared.contexts ≤ id → shared.stages id = .none
  dead : shared.status = .unconnected → ∀ id, shared.context = some id → shared.stages id = .freed
  timer : shared.event = true → shared.context.isSome

section Steps

variable {shared after : Shared Reply} {id : Nat}

theorem Lives.not_freed {status : Status} {stage : Stage} (lives : Lives status stage) :
    stage ≠ .freed := by
  rintro rfl
  obtain ⟨-, same⟩ | ⟨-, same⟩ := lives <;> cases same

theorem Tracked.offline (tracked : Tracked shared) (offline : shared.Offline after) :
    Tracked after where
  admitted := offline.trace.admitted (fun _ event free context same => by
    subst same
    exact free.elim) tracked.admitted
  current := by
    rw [offline.status, offline.context, offline.stages]
    exact tracked.current
  only := by
    rw [offline.status, offline.context, offline.stages]
    exact tracked.only
  freed := fun id => by
    have apart : ¬ (Event.freed id).offline := fun free => free
    rw [offline.stages, offline.trace.mem_iff apart, tracked.freed]
  ahead := by
    rw [offline.contexts, offline.stages]
    exact tracked.ahead
  dead := by
    rw [offline.status, offline.context, offline.stages]
    exact tracked.dead
  timer := by
    rw [offline.event, offline.context]
    exact tracked.timer

/-- hiredis may be called with a context that is alive. -/
theorem Tracked.hiredis (tracked : Tracked shared) (alive : shared.stages id ≠ .freed) :
    Tracked (shared.note (.hiredis (some id))) where
  admitted := by
    refine admitted_concat.mpr ⟨tracked.admitted, ?_⟩
    rintro context ⟨⟩
    exact ⟨id, rfl, fun freed => alive ((tracked.freed id).mp freed)⟩
  current := tracked.current
  only := tracked.only
  freed := fun other => by
    have was := tracked.freed other
    simpa [Shared.note] using was
  ahead := tracked.ahead
  dead := tracked.dead
  timer := tracked.timer

/-- A command is given to hiredis while there is a connection. -/
theorem Tracked.command (tracked : Tracked shared) (busy : shared.status ≠ .unconnected)
    (privdata : Option Nat) (accepts : Bool) : Tracked (shared.command privdata accepts) := by
  obtain ⟨id, context, lives⟩ := tracked.current busy
  have told := tracked.hiredis lives.not_freed
  rw [Shared.command, context]
  split
  · exact told.offline ⟨rfl, rfl, rfl, rfl, rfl, .refl _⟩
  · exact told

/-- A context is freed when it was alive, and there is none then. -/
theorem Tracked.free (tracked : Tracked shared)
    (alive : shared.stages id = .connecting ∨ shared.stages id = .connected) :
    Tracked ({ shared with status := .unconnected }.free id) := by
  obtain ⟨context, -⟩ := tracked.only id alive
  have apart : shared.contexts ≤ id → False := fun ahead => by
    have none := tracked.ahead id ahead
    rw [none] at alive
    obtain same | same := alive <;> cases same
  constructor
  case admitted => exact admitted_concat.mpr ⟨tracked.admitted, nofun⟩
  case current => exact fun busy => absurd rfl busy
  case only =>
    intro other
    change Function.update shared.stages id .freed other = .connecting ∨
      Function.update shared.stages id .freed other = .connected → _
    by_cases same : other = id
    · subst same
      simp
    · rw [Function.update_of_ne same]
      intro alive'
      have also := (tracked.only other alive').1
      rw [context] at also
      exact absurd (Option.some.inj also).symm same
  case freed =>
    intro other
    have was := tracked.freed other
    by_cases same : other = id
    · subst same
      simp [Shared.free, Shared.note]
    · simpa [Shared.free, Shared.note, same] using was
  case ahead =>
    intro other ahead
    change Function.update shared.stages id .freed other = .none
    rw [Function.update_of_ne]
    · exact tracked.ahead other ahead
    · rintro rfl
      exact apart ahead
  case dead =>
    intro _ other same
    rw [show shared.context = some other from same] at context
    cases context
    exact Function.update_self _ _ _
  case timer => exact tracked.timer

/-- A context comes to a stage at which it is alive, and no other one is. -/
theorem Tracked.enter {stage : Stage} (tracked : Tracked shared) (was : shared.stages id ≠ .freed)
    (alone : ∀ other, shared.stages other = .connecting ∨ shared.stages other = .connected →
      other = id)
    (ahead : ∀ other, after.contexts ≤ other → shared.contexts ≤ other ∧ other ≠ id)
    (trace : after.trace = shared.trace) (context : after.context = some id)
    (lives : Lives after.status stage)
    (stages : after.stages = Function.update shared.stages id stage) : Tracked after := by
  have self : after.stages id = stage := by rw [stages, Function.update_self]
  have update : ∀ other ≠ id, after.stages other = shared.stages other := fun other apart => by
    rw [stages, Function.update_of_ne apart]
  constructor
  case admitted =>
    rw [trace]
    exact tracked.admitted
  case current => exact fun _ => ⟨id, context, self ▸ lives⟩
  case only =>
    intro other alive
    by_cases same : other = id
    · subst same
      exact ⟨context, self ▸ lives⟩
    · rw [update other same] at alive
      exact absurd (alone other alive) same
  case freed =>
    intro other
    rw [trace, tracked.freed]
    by_cases same : other = id
    · subst same
      rw [self]
      exact iff_of_false was lives.not_freed
    · rw [update other same]
  case ahead =>
    intro other later
    obtain ⟨early, apart⟩ := ahead other later
    rw [update other apart]
    exact tracked.ahead other early
  case dead =>
    intro idle
    rw [idle] at lives
    obtain ⟨same, -⟩ | ⟨same, -⟩ := lives <;> cases same
  case timer =>
    intro _
    rw [context]
    rfl

/-- A new connection is made when there is none. -/
theorem Tracked.pinit (tracked : Tracked shared) (connect : Connect) (accepts : Bool) :
    Tracked (shared.pinit connect accepts) := by
  unfold Shared.pinit
  split
  case isTrue => exact tracked
  case isFalse idle =>
    have unconnected : shared.status = .unconnected := not_not.mp idle
    cases connect with
    | null => exact tracked
    | err =>
        exact { tracked with ahead := fun id ahead => tracked.ahead id (Nat.le_of_lt ahead) }
    | ok =>
        let made : Shared Reply := { shared with
          contexts := shared.contexts + 1
          stages := Function.update shared.stages shared.contexts .connecting
          status := .connecting
          context := some shared.contexts
          event := true }
        have known : Tracked made := by
          refine tracked.enter ?_ ?_ ?_ rfl rfl (.inl ⟨rfl, rfl⟩) rfl
          · rw [tracked.ahead shared.contexts (Nat.le_refl _)]
            nofun
          · intro other alive
            obtain ⟨-, lives⟩ := tracked.only other alive
            rw [unconnected] at lives
            obtain ⟨same, -⟩ | ⟨same, -⟩ := lives <;> cases same
          · exact fun other later => ⟨Nat.le_of_lt later, Nat.ne_of_gt later⟩
        have alive : made.stages shared.contexts ≠ .freed := by
          rw [show made.stages shared.contexts = _ from Function.update_self _ _ _]
          nofun
        have attached : Tracked (((made.note (.hiredis (some shared.contexts))).note
            (.hiredis (some shared.contexts))).note (.hiredis (some shared.contexts))) :=
          ((known.hiredis alive).hiredis alive).hiredis alive
        exact attached.command (by nofun) none accepts

/-- `ConnectCb` for a connect that has succeeded. -/
theorem Tracked.connected (tracked : Tracked shared) (connecting : shared.stages id = .connecting) :
    Tracked ({ shared with
      stages := Function.update shared.stages id .connected }.connectCb true) := by
  obtain ⟨context, -⟩ := tracked.only id (.inl connecting)
  let made : Shared Reply := { shared with
    stages := Function.update shared.stages id .connected
    status := .connected }
  have known : Tracked made := by
    refine tracked.enter ?_ ?_ ?_ rfl context (.inr ⟨rfl, rfl⟩) rfl
    · rw [connecting]
      nofun
    · intro other alive
      have also := (tracked.only other alive).1
      rw [context] at also
      exact (Option.some.inj also).symm
    · rintro other later
      refine ⟨later, ?_⟩
      rintro rfl
      rw [tracked.ahead other later] at connecting
      cases connecting
  have self : made.stages id = .connected := Function.update_self _ _ _
  change Tracked (if made.passwd ≠ [] then made.note (.hiredis shared.context) else made)
  split
  · rw [context]
    exact known.hiredis (by rw [self]; nofun)
  · exact known

theorem Tracked.pcmd (tracked : Tracked shared) (call : Nat) (connect : Connect)
    (accepts : Bool) : Tracked (shared.pcmd call connect accepts) := by
  have told : Tracked (shared.note (.fctx call)) := tracked.offline (.note trivial)
  rw [Shared.pcmd]
  split
  · exact (told.pinit connect accepts).offline (.schedule call true)
  case isFalse busy =>
    have made : Tracked { shared.note (.fctx call) with
        addresses := shared.addresses + 1
        ctxs := ⟨shared.addresses, true, false, (shared.fctxs call).cmd, call⟩ :: shared.ctxs } :=
      told.offline ⟨rfl, rfl, rfl, rfl, rfl, .refl _⟩
    dsimp only
    split
    · exact made.command busy _ _
    · exact made

/-- The keep-alive event occurs after the context has been freed. -/
theorem Tracked.tick_dead (tracked : Tracked shared) (timer : shared.event = true)
    (idle : shared.status = .unconnected) (accepts : Bool) :
    ¬ Admitted usable (shared.timeCb accepts).trace := by
  obtain ⟨id, context⟩ := Option.isSome_iff_exists.mp (tracked.timer timer)
  have trace : (shared.timeCb accepts).trace = shared.trace ++ [.hiredis (some id)] := by
    rw [Shared.timeCb, Shared.command, context]
    cases accepts <;> rfl
  intro admitted
  rw [trace, admitted_concat] at admitted
  obtain ⟨other, same, alive⟩ := admitted.2 _ rfl
  cases same
  exact alive ((tracked.freed id).mpr (tracked.dead idle id context))

end Steps

section Runs

variable {state next : State Reply} {action : Action Reply}

theorem Tracked.fresh (passwd : List UInt8) :
    Tracked (fresh passwd : State Reply).shared where
  admitted := .nil
  current := fun busy => absurd rfl busy
  only := fun _ alive => by obtain same | same := alive <;> cases same
  freed := fun _ => iff_of_false List.not_mem_nil nofun
  ahead := fun _ _ => rfl
  dead := fun _ _ same => by cases same
  timer := nofun

theorem Tracked.redis {shared after : Shared Reply} (tracked : Tracked shared)
    (busy : ∀ accepts, action = .tick accepts → shared.status ≠ .unconnected)
    (taken : shared.redis action = some after) : Tracked after := by
  cases action with
  | cmd | go => cases taken
  | init connect accepts =>
      cases taken
      exact tracked.pinit connect accepts
  | pcmd connect accepts =>
      rw [Shared.redis] at taken
      split at taken
      · cases taken
      case h_2 call rest queue =>
        cases taken
        have rest : Tracked { shared with tasks := rest } :=
          tracked.offline ⟨rfl, rfl, rfl, rfl, rfl, .refl _⟩
        exact rest.pcmd call connect accepts
  | answer index answer =>
      obtain ⟨privdata, -, rfl⟩ := Option.map_eq_some_iff.mp taken
      have rest : Tracked { shared with callbacks := shared.callbacks.eraseIdx index } :=
        tracked.offline ⟨rfl, rfl, rfl, rfl, rfl, .refl _⟩
      exact rest.offline (.cmdCb privdata answer)
  | timeout address =>
      rw [Shared.redis] at taken
      split at taken
      · cases taken
      · split at taken
        · cases taken
          exact tracked.offline (.eventCb _)
        · cases taken
  | tick accepts =>
      rw [Shared.redis] at taken
      split at taken
      · cases taken
        exact tracked.command (busy accepts rfl) none accepts
      · cases taken
  | connected context ok =>
      rw [Shared.redis] at taken
      split at taken
      case isFalse => cases taken
      case isTrue connecting =>
        cases ok with
        | true =>
            cases taken
            exact tracked.connected connecting
        | false =>
            cases taken
            exact tracked.free (.inl connecting)
  | disconnected context =>
      rw [Shared.redis] at taken
      split at taken
      case isFalse => cases taken
      case isTrue connected =>
        cases taken
        exact tracked.free (.inr connected)

theorem go_offline {shared after : Shared Reply} {fiber now : Fiber}
    (taken : shared.go fiber = some (after, now)) : shared.Offline after := by
  cases fiber with
  | outside => cases taken
  | calling call | leaving call =>
      cases taken
      exact ⟨rfl, rfl, rfl, rfl, rfl, .refl _⟩
  | suspended call =>
      rw [Shared.go] at taken
      split at taken
      · cases taken
        exact ⟨rfl, rfl, rfl, rfl, rfl, .refl _⟩
      · cases taken

theorem Tracked.step (tracked : Tracked state.shared) (connected : Connected state action)
    (taken : step state action = some next) : Tracked next.shared := by
  obtain ⟨fiber, cmd, -, -, rfl⟩ | ⟨fiber, after, now, -, gone, rfl⟩ | ⟨after, redis, rfl⟩ :=
    step_cases taken
  · exact tracked.offline ⟨rfl, rfl, rfl, rfl, rfl, .refl _⟩
  · exact tracked.offline (go_offline gone)
  · refine tracked.redis (fun accepts same => ?_) redis
    subst same
    exact connected

/-- As long as the keep-alive event does not occur without a connection, hiredis is called with
contexts only that are alive. The first such event breaks this. -/
theorem contexts_alive {passwd : List UInt8} (run : Runs step Connected (fresh passwd) state) :
    Admitted usable state.shared.trace ∧ ∀ action next, step state action = some next →
      (Admitted usable next.shared.trace ↔ Connected state action) := by
  have tracked : Tracked state.shared :=
    @Runs.invariant _ _ _ _ _ _ (fun state : State Reply => Tracked state.shared)
      (fun _ _ _ tracked connected taken => tracked.step connected taken) run (.fresh passwd)
  refine ⟨tracked.admitted, fun action next taken => ⟨fun admitted => ?_, fun connected => ?_⟩⟩
  · cases action with
    | tick accepts =>
        intro idle
        obtain ⟨_, _, isOther, -⟩ | ⟨_, _, _, isOther, -⟩ | ⟨after, ticked, rfl⟩ := step_cases taken
        · cases isOther
        · cases isOther
        rw [Shared.redis] at ticked
        split at ticked
        case isFalse => cases ticked
        case isTrue timer =>
          cases ticked
          exact tracked.tick_dead timer idle accepts admitted
    | cmd | go | init | pcmd | answer | timeout | connected | disconnected => trivial
  · exact (tracked.step connected taken).admitted

/-- A connection is made, and is lost, and made again by a command. -/
def reconnected : State Nat :=
  (replay step (fun state action => decide (Connected state action))
    [.init .ok true, .connected 0 true, .tick true, .disconnected 0, .cmd 5 [112], .go 5,
      .pcmd .ok true] (fresh [1])).get (by decide)

theorem contexts_alive_reconnected : Admitted usable reconnected.shared.trace ∧
    ∀ action next, step reconnected action = some next →
      (Admitted usable next.shared.trace ↔ Connected reconnected action) :=
  contexts_alive (.of_replay (fun _ _ => of_decide_eq_true) (Option.some_get _).symm)

/-- The connect fails, and the keep-alive event occurs two minutes later. -/
def refused : State Nat :=
  (replay step (fun _ _ => true) [.init .ok true, .connected 0 false, .tick true]
    (fresh [])).get (by decide)

theorem not_contexts_alive : ¬ ∀ state : State Nat,
    Runs step (fun _ _ => True) (fresh []) state → Admitted usable state.shared.trace := by
  intro alive
  have run : Runs step (fun _ _ => True) (fresh []) refused :=
    .of_replay (fun _ _ _ => trivial) (Option.some_get _).symm
  obtain ⟨id, same, freed⟩ := alive refused run
    [.hiredis (some 0), .hiredis (some 0), .hiredis (some 0), .hiredis (some 0), .freed 0]
    (.hiredis (some 0)) [] (by decide) _ rfl
  cases same
  exact freed (by decide)

end Runs

end Xten.FoxRedis
