import Xten.Db.FoxRedis
import Xten.Std.Holdings

/-!
# The commands of a FoxRedis

A call of `cmd` is in the hands of its fiber, in the queue of the redis thread, or with a `Ctx`
that has not timed out, until its fiber is scheduled. Whoever schedules it forgets the call.
-/

namespace Xten.FoxRedis

open Std.Histories Std.Interleaving

variable {Reply : Type}

/-- An `FCtx` is used until its fiber is scheduled, which is scheduled once, and a `Ctx` until it
is deleted. -/
def proper (earlier : List Event) : Event → Prop
  | .fctx call | .scheduled call => .scheduled call ∉ earlier
  | .ctx address | .deleted address => .deleted address ∉ earlier
  | _ => True

section Aside

/-- An event that is about the connection. -/
def Event.aside : Event → Prop
  | .hiredis _ | .freed _ => True
  | _ => False

/-- The calls are left alone. -/
structure Shared.Aside (before after : Shared Reply) : Prop where
  tasks : after.tasks = before.tasks
  fctxs : after.fctxs = before.fctxs
  calls : after.calls = before.calls
  ctxs : after.ctxs = before.ctxs
  addresses : after.addresses = before.addresses
  callbacks : after.callbacks.filterMap id = before.callbacks.filterMap id
  trace : Extended Event.aside before.trace after.trace

namespace Shared.Aside

variable {before after last shared : Shared Reply}

theorem refl (shared : Shared Reply) : Aside shared shared :=
  ⟨rfl, rfl, rfl, rfl, rfl, rfl, .refl _⟩

theorem trans (first : Aside before after) (second : Aside after last) : Aside before last where
  tasks := second.tasks.trans first.tasks
  fctxs := second.fctxs.trans first.fctxs
  calls := second.calls.trans first.calls
  ctxs := second.ctxs.trans first.ctxs
  addresses := second.addresses.trans first.addresses
  callbacks := second.callbacks.trans first.callbacks
  trace := first.trace.trans second.trace

theorem note {event : Event} (free : event.aside) : Aside shared (shared.note event) :=
  ⟨rfl, rfl, rfl, rfl, rfl, rfl, .one free⟩

theorem timeCb (accepts : Bool) : Aside shared (shared.timeCb accepts) := by
  have told : Aside shared (shared.note (.hiredis shared.context)) := note trivial
  unfold Shared.timeCb Shared.command
  dsimp only
  split
  · refine told.trans ⟨rfl, rfl, rfl, rfl, rfl, ?_, .refl _⟩
    rw [List.filterMap_append]
    exact List.append_nil _
  · exact told

theorem pinit (connect : Connect) (accepts : Bool) : Aside shared (shared.pinit connect accepts) := by
  unfold Shared.pinit
  split
  · exact refl shared
  · cases connect with
    | null => exact refl shared
    | err => exact ⟨rfl, rfl, rfl, rfl, rfl, rfl, .refl _⟩
    | ok =>
        have told (shared : Shared Reply) (context : Option Nat) :
            Aside shared (shared.note (.hiredis context)) := note trivial
        let made : Shared Reply := { shared with
          contexts := shared.contexts + 1
          stages := Function.update shared.stages shared.contexts .connecting }
        have first : Aside shared made := ⟨rfl, rfl, rfl, rfl, rfl, rfl, .refl _⟩
        have attached := ((first.trans (told _ (some shared.contexts))).trans
          (told _ (some shared.contexts))).trans (told _ (some shared.contexts))
        dsimp only
        refine trans ?_ (timeCb accepts)
        exact attached.trans ⟨rfl, rfl, rfl, rfl, rfl, rfl, .refl _⟩

theorem connectCb (ok : Bool) : Aside shared (shared.connectCb ok) := by
  cases ok with
  | false => exact ⟨rfl, rfl, rfl, rfl, rfl, rfl, .refl _⟩
  | true =>
      change Aside shared (if shared.passwd ≠ [] then _ else _)
      split
      · exact ⟨rfl, rfl, rfl, rfl, rfl, rfl, .one trivial⟩
      · exact ⟨rfl, rfl, rfl, rfl, rfl, rfl, .refl _⟩

theorem free (context : Nat) : Aside shared (shared.free context) :=
  ⟨rfl, rfl, rfl, rfl, rfl, rfl, .one trivial⟩

end Shared.Aside

end Aside

/-- The calls whose `Ctx` has not timed out. -/
def flying (ctxs : List Ctx) : List Nat :=
  (ctxs.filter fun ctx => !ctx.timeout).map Ctx.fctx

/-- The calls that the redis thread has still to deal with. -/
def Shared.waiting (shared : Shared Reply) : List Nat :=
  shared.tasks ++ flying shared.ctxs

/-- The call that a fiber has not dispatched yet. -/
def Fiber.unsent : Fiber → List Nat
  | .calling call => [call]
  | .outside | .leaving _ | .suspended _ => []

/-- A call has been made, and its fiber has not been scheduled. -/
def Shared.Open (shared : Shared Reply) (call : Nat) : Prop :=
  call < shared.calls ∧ .scheduled call ∉ shared.trace

/-- Each open call is in one place, and has a fiber to be scheduled. -/
structure Calls (state : State Reply) : Prop where
  places : state.Places Shared.waiting Fiber.unsent state.shared.Open
  fibers : ∀ call, state.shared.Open call → (state.shared.fctxs call).fiber.isSome
  below : ∀ call, .scheduled call ∈ state.shared.trace → call < state.shared.calls
  settled : ∀ call, .answered call ∈ state.shared.trace ∨ .timedOut call ∈ state.shared.trace →
    .scheduled call ∈ state.shared.trace

/-- The `Ctx`s have addresses of their own, which the callbacks know. -/
structure Heap (shared : Shared Reply) : Prop where
  timed : ∀ ctx ∈ shared.ctxs, ctx.timeout = true → .scheduled ctx.fctx ∈ shared.trace
  pending : ∀ ctx ∈ shared.ctxs, ctx.ev = true → ctx.timeout = false
  unique : (shared.ctxs.map Ctx.address).Nodup
  below : ∀ ctx ∈ shared.ctxs, ctx.address < shared.addresses
  deleted : ∀ address, .deleted address ∈ shared.trace →
    address < shared.addresses ∧ address ∉ shared.ctxs.map Ctx.address
  known : ∀ address ∈ shared.callbacks.filterMap id, address ∈ shared.ctxs.map Ctx.address
  once : (shared.callbacks.filterMap id).Nodup

structure Sound (state : State Reply) : Prop where
  admitted : Admitted proper state.shared.trace
  calls : Calls state
  heap : Heap state.shared

section Parts

variable {state : State Reply} {shared after : Shared Reply} {call : Nat} {ctx : Ctx}

theorem flying_perm (member : ctx ∈ shared.ctxs) (untimed : ctx.timeout = false) :
    (ctx.fctx :: flying (shared.ctxs.erase ctx)).Perm (flying shared.ctxs) := by
  have split := ((List.perm_cons_erase member).filter fun ctx => !ctx.timeout).map Ctx.fctx
  rw [List.filter_cons_of_pos (by simp [untimed])] at split
  exact split.symm

theorem flying_erase (member : ctx ∈ shared.ctxs) (timed : ctx.timeout = true) :
    (flying (shared.ctxs.erase ctx)).Perm (flying shared.ctxs) := by
  have split := ((List.perm_cons_erase member).filter fun ctx => !ctx.timeout).map Ctx.fctx
  rw [List.filter_cons_of_neg (by simp [timed])] at split
  exact split.symm

/-- A call that flies is taken out of those that wait. -/
theorem waiting_perm (member : ctx ∈ shared.ctxs) (untimed : ctx.timeout = false) :
    (ctx.fctx :: (shared.tasks ++ flying (shared.ctxs.erase ctx))).Perm shared.waiting :=
  List.perm_middle.symm.trans ((flying_perm member untimed).append_left _)

theorem mem_flying (member : ctx ∈ shared.ctxs) (untimed : ctx.timeout = false) :
    ctx.fctx ∈ flying shared.ctxs :=
  (flying_perm member untimed).subset List.mem_cons_self

/-- A call that waits is open. -/
theorem Calls.waits (calls : Calls state) (member : call ∈ state.shared.waiting) :
    state.shared.Open call :=
  (calls.places.complete call).mpr (.inl member)

/-- Nothing happens to any call. -/
theorem Calls.same (calls : Calls state) (waiting : after.waiting.Perm state.shared.waiting)
    (fctxs : after.fctxs = state.shared.fctxs) (count : after.calls = state.shared.calls)
    (scheduled : ∀ call, .scheduled call ∈ after.trace ↔ .scheduled call ∈ state.shared.trace)
    (ended : ∀ call, .answered call ∈ after.trace ∨ .timedOut call ∈ after.trace →
      .scheduled call ∈ state.shared.trace) : Calls { state with shared := after } := by
  have same : ∀ call, after.Open call ↔ state.shared.Open call := fun call => by
    rw [Shared.Open, Shared.Open, count, scheduled]
  constructor
  case places =>
    refine @Config.Places.exchange _ _ _ _ _ _ _ _ _ [] [] calls.places ?_ .nil waiting ?_
    · exact fun _ member => absurd member List.not_mem_nil
    · intro item
      simpa using same item
  case fibers =>
    intro call isOpen
    rw [fctxs]
    exact calls.fibers call ((same call).mp isOpen)
  case below =>
    intro call member
    rw [count]
    exact calls.below call ((scheduled call).mp member)
  case settled => exact fun call end_ => (scheduled call).mpr (ended call end_)

/-- The fiber of a call that waits is scheduled, and the call does not wait any more. -/
theorem Calls.settle (calls : Calls state) (waiting : (call :: after.waiting).Perm state.shared.waiting)
    (fctxs : ∀ other ≠ call, after.fctxs other = state.shared.fctxs other)
    (count : after.calls = state.shared.calls)
    (scheduled : ∀ other, .scheduled other ∈ after.trace ↔
      other = call ∨ .scheduled other ∈ state.shared.trace)
    (ended : ∀ other ≠ call, .answered other ∈ after.trace ∨ .timedOut other ∈ after.trace →
      .scheduled other ∈ state.shared.trace) : Calls { state with shared := after } := by
  have own := calls.waits (waiting.subset List.mem_cons_self)
  have same : ∀ other, after.Open other ↔ state.shared.Open other ∧ other ≠ call := fun other => by
    rw [Shared.Open, Shared.Open, count, scheduled, not_or]
    tauto
  constructor
  case places =>
    refine @Config.Places.exchange _ _ _ _ _ _ _ _ _ [] [call] calls.places ?_ .nil waiting ?_
    · exact fun _ member => absurd member List.not_mem_nil
    · intro item
      simpa using same item
  case fibers =>
    intro other isOpen
    obtain ⟨was, apart⟩ := (same other).mp isOpen
    rw [fctxs other apart]
    exact calls.fibers other was
  case below =>
    intro other member
    rw [count]
    obtain rfl | before := (scheduled other).mp member
    · exact own.1
    · exact calls.below other before
  case settled =>
    intro other end_
    by_cases isCall : other = call
    · exact (scheduled other).mpr (.inl isCall)
    · exact (scheduled other).mpr (.inr (ended other isCall end_))

theorem Shared.find_mem {address : Nat} (known : address ∈ shared.ctxs.map Ctx.address) :
    ∃ ctx ∈ shared.ctxs, shared.find address = some ctx ∧ ctx.address = address := by
  cases found : shared.find address with
  | none =>
      obtain ⟨ctx, member, same⟩ := List.mem_map.mp known
      have not := List.find?_eq_none.mp found ctx member
      simp [same] at not
  | some ctx =>
      exact ⟨ctx, List.mem_of_find?_eq_some found, rfl, by simpa using List.find?_some found⟩

/-- The address of a `Ctx` that is taken out of the heap is not used by another one. -/
theorem Heap.erased (heap : Heap shared) (member : ctx ∈ shared.ctxs) :
    (ctx.address :: (shared.ctxs.erase ctx).map Ctx.address).Perm (shared.ctxs.map Ctx.address) ∧
      ctx.address ∉ (shared.ctxs.erase ctx).map Ctx.address := by
  have split : (ctx.address :: (shared.ctxs.erase ctx).map Ctx.address).Perm
      (shared.ctxs.map Ctx.address) := ((List.perm_cons_erase member).map Ctx.address).symm
  exact ⟨split, (List.nodup_cons.mp (split.nodup_iff.mpr heap.unique)).1⟩

/-- Callbacks may be taken, and calls go on. -/
theorem Heap.keep (heap : Heap shared) (ctxs : after.ctxs = shared.ctxs)
    (addresses : after.addresses = shared.addresses)
    (callbacks : (after.callbacks.filterMap id).Sublist (shared.callbacks.filterMap id))
    (scheduled : ∀ call, .scheduled call ∈ shared.trace → .scheduled call ∈ after.trace)
    (deleted : ∀ address, .deleted address ∈ after.trace → .deleted address ∈ shared.trace) :
    Heap after where
  timed := by
    rw [ctxs]
    exact fun ctx member timed => scheduled _ (heap.timed ctx member timed)
  pending := by
    rw [ctxs]
    exact heap.pending
  unique := by
    rw [ctxs]
    exact heap.unique
  below := by
    rw [ctxs, addresses]
    exact heap.below
  deleted := by
    rw [ctxs, addresses]
    exact fun address member => heap.deleted address (deleted address member)
  known := by
    rw [ctxs]
    exact fun address member => heap.known address (callbacks.subset member)
  once := heap.once.sublist callbacks

/-- A `Ctx` whose callback has been taken is deleted. -/
theorem Heap.drop (heap : Heap shared) (member : ctx ∈ shared.ctxs)
    (ctxs : after.ctxs = shared.ctxs.erase ctx)
    (addresses : after.addresses = shared.addresses)
    (callbacks : (ctx.address :: after.callbacks.filterMap id).Perm
      (shared.callbacks.filterMap id))
    (scheduled : ∀ call, .scheduled call ∈ shared.trace → .scheduled call ∈ after.trace)
    (deleted : ∀ address, .deleted address ∈ after.trace →
      address = ctx.address ∨ .deleted address ∈ shared.trace) : Heap after := by
  obtain ⟨split, absent⟩ := heap.erased member
  have kept : ∀ other ∈ shared.ctxs.erase ctx, other ∈ shared.ctxs := fun _ =>
    List.mem_of_mem_erase
  have unique := callbacks.nodup_iff.mpr heap.once
  obtain ⟨out, once⟩ := List.nodup_cons.mp unique
  constructor
  all_goals rw [ctxs] at *
  · exact fun other still timed => scheduled _ (heap.timed other (kept other still) timed)
  · exact fun other still => heap.pending other (kept other still)
  · exact (List.nodup_cons.mp (split.nodup_iff.mpr heap.unique)).2
  · rw [addresses]
    exact fun other still => heap.below other (kept other still)
  · intro address gone
    rw [addresses]
    obtain rfl | before := deleted address gone
    · exact ⟨heap.below ctx member, absent⟩
    · obtain ⟨below, free⟩ := heap.deleted address before
      exact ⟨below, fun still => free (split.subset (List.mem_cons_of_mem _ still))⟩
  · intro address waits
    have was := split.mem_iff.mpr
      (heap.known address (callbacks.subset (List.mem_cons_of_mem _ waits)))
    obtain rfl | still := List.mem_cons.mp was
    · exact absurd waits out
    · exact still
  · exact once

/-- A `Ctx` times out. -/
theorem Heap.mark (heap : Heap shared) (member : ctx ∈ shared.ctxs)
    (ctxs : after.ctxs = { ctx with ev := false, timeout := true } :: shared.ctxs.erase ctx)
    (addresses : after.addresses = shared.addresses)
    (callbacks : after.callbacks = shared.callbacks)
    (scheduled : ∀ call, .scheduled call ∈ shared.trace ∨ call = ctx.fctx →
      .scheduled call ∈ after.trace)
    (deleted : ∀ address, .deleted address ∈ after.trace → .deleted address ∈ shared.trace) :
    Heap after := by
  obtain ⟨split, absent⟩ := heap.erased member
  have kept : ∀ other ∈ shared.ctxs.erase ctx, other ∈ shared.ctxs := fun _ =>
    List.mem_of_mem_erase
  have same : (after.ctxs.map Ctx.address).Perm (shared.ctxs.map Ctx.address) := by
    rw [ctxs]
    exact split
  constructor
  case timed =>
    rw [ctxs]
    intro other still timed
    obtain rfl | still := List.mem_cons.mp still
    · exact scheduled _ (.inr rfl)
    · exact scheduled _ (.inl (heap.timed other (kept other still) timed))
  case pending =>
    rw [ctxs]
    intro other still event
    obtain rfl | still := List.mem_cons.mp still
    · cases event
    · exact heap.pending other (kept other still) event
  case unique => exact same.nodup_iff.mpr heap.unique
  case below =>
    rw [ctxs, addresses]
    intro other still
    obtain rfl | still := List.mem_cons.mp still
    · exact heap.below ctx member
    · exact heap.below other (kept other still)
  case deleted =>
    intro address gone
    rw [addresses, same.mem_iff]
    exact heap.deleted address (deleted address gone)
  case known =>
    intro address waits
    rw [callbacks] at waits
    rw [same.mem_iff]
    exact heap.known address waits
  case once =>
    rw [callbacks]
    exact heap.once

/-- A new `Ctx` is made, and hiredis takes its command or does not. -/
theorem Heap.make (heap : Heap shared) (address : ctx.address = shared.addresses)
    (untimed : ctx.timeout = false) (ctxs : after.ctxs = ctx :: shared.ctxs)
    (addresses : after.addresses = shared.addresses + 1)
    (callbacks : (after.callbacks.filterMap id).Sublist
      (shared.callbacks.filterMap id ++ [shared.addresses]))
    (scheduled : ∀ call, .scheduled call ∈ shared.trace → .scheduled call ∈ after.trace)
    (deleted : ∀ address, .deleted address ∈ after.trace → .deleted address ∈ shared.trace) :
    Heap after := by
  have new : shared.addresses ∉ shared.ctxs.map Ctx.address := fun member => by
    obtain ⟨other, still, same⟩ := List.mem_map.mp member
    exact absurd same (Nat.ne_of_lt (heap.below other still))
  constructor
  case timed =>
    rw [ctxs]
    intro other still timed
    obtain rfl | still := List.mem_cons.mp still
    · rw [untimed] at timed
      cases timed
    · exact scheduled _ (heap.timed other still timed)
  case pending =>
    rw [ctxs]
    intro other still event
    obtain rfl | still := List.mem_cons.mp still
    · exact untimed
    · exact heap.pending other still event
  case unique =>
    rw [ctxs, List.map_cons, address]
    exact List.nodup_cons.mpr ⟨new, heap.unique⟩
  case below =>
    rw [ctxs, addresses]
    intro other still
    obtain rfl | still := List.mem_cons.mp still
    · rw [address]
      exact Nat.lt_succ_self _
    · exact Nat.lt_succ_of_lt (heap.below other still)
  case deleted =>
    rw [ctxs, addresses, List.map_cons, address]
    intro other gone
    obtain ⟨below, free⟩ := heap.deleted other (deleted other gone)
    refine ⟨Nat.lt_succ_of_lt below, fun still => ?_⟩
    obtain rfl | still := List.mem_cons.mp still
    · exact Nat.lt_irrefl _ below
    · exact free still
  case known =>
    rw [ctxs, List.map_cons, address]
    intro other waits
    obtain before | isNew := List.mem_append.mp (callbacks.subset waits)
    · exact List.mem_cons_of_mem _ (heap.known other before)
    · rw [List.mem_singleton.mp isNew]
      exact List.mem_cons_self
  case once =>
    have all : (shared.callbacks.filterMap id ++ [shared.addresses]).Nodup := by
      refine List.nodup_append.mpr ⟨heap.once, List.nodup_singleton _, ?_⟩
      rintro other waits last isLast rfl
      rw [List.mem_singleton.mp isLast] at waits
      exact new (heap.known _ waits)
    exact all.sublist callbacks

end Parts

section Steps

variable {state next : State Reply} {shared after : Shared Reply} {call : Nat} {ctx : Ctx}

/-- A fiber that is there is scheduled. -/
theorem Shared.schedule_eq (fiber : (shared.fctxs call).fiber.isSome) (moves : Bool) :
    ∃ fctxs, shared.schedule call moves = { shared with
        fctxs := fctxs
        ready := shared.ready ++ [call]
        trace := shared.trace ++ [.fctx call] ++ [.scheduled call] } ∧
      ∀ other ≠ call, fctxs other = shared.fctxs other := by
  have present : ((shared.note (.fctx call)).fctxs call).fiber.isSome := fiber
  unfold Shared.schedule
  dsimp only
  rw [if_pos present]
  cases moves with
  | false => exact ⟨shared.fctxs, rfl, fun _ _ => rfl⟩
  | true => exact ⟨_, rfl, fun other apart => Function.update_of_ne apart _ _⟩

theorem Shared.setRpy_eq (fiber : (shared.fctxs call).fiber.isSome) (reply : Reply) :
    ∃ fctxs, shared.setRpy call reply =
        { shared with fctxs := fctxs, trace := shared.trace ++ [.fctx call] } ∧
      (fctxs call).fiber.isSome ∧ ∀ other ≠ call, fctxs other = shared.fctxs other := by
  have present : ((shared.note (.fctx call)).fctxs call).fiber.isSome := fiber
  unfold Shared.setRpy
  dsimp only
  rw [if_pos present]
  refine ⟨_, rfl, ?_, fun other apart => Function.update_of_ne apart _ _⟩
  rw [Function.update_self]
  exact fiber

/-- The callback for a `Ctx` that has not timed out schedules the fiber and deletes it. -/
theorem Shared.complete_eq (untimed : ctx.timeout = false)
    (fiber : (shared.fctxs ctx.fctx).fiber.isSome) (answer : Answer Reply) :
    ∃ fctxs uses, shared.complete ctx answer = { shared with
        fctxs := fctxs
        ready := shared.ready ++ [ctx.fctx]
        ctxs := shared.ctxs.erase ctx
        trace := shared.trace ++ [.answered ctx.fctx] ++ uses ++ [.scheduled ctx.fctx] ++
          [.deleted ctx.address] } ∧
      (∀ event ∈ uses, event = .fctx ctx.fctx) ∧
      ∀ other ≠ ctx.fctx, fctxs other = shared.fctxs other := by
  have present : ((shared.note (.answered ctx.fctx)).fctxs ctx.fctx).fiber.isSome := fiber
  have simple (moves : Bool) : ∃ fctxs uses,
      ((shared.note (.answered ctx.fctx)).schedule ctx.fctx moves).delete ctx = { shared with
        fctxs := fctxs
        ready := shared.ready ++ [ctx.fctx]
        ctxs := shared.ctxs.erase ctx
        trace := shared.trace ++ [.answered ctx.fctx] ++ uses ++ [.scheduled ctx.fctx] ++
          [.deleted ctx.address] } ∧
      (∀ event ∈ uses, event = .fctx ctx.fctx) ∧
      ∀ other ≠ ctx.fctx, fctxs other = shared.fctxs other := by
    obtain ⟨fctxs, scheduled, others⟩ := schedule_eq present moves
    rw [scheduled]
    exact ⟨fctxs, [.fctx ctx.fctx], rfl, by simp, others⟩
  unfold Shared.complete
  dsimp only
  rw [if_neg (by simp [untimed])]
  cases answer with
  | err | errorReply => exact simple true
  | null => exact simple false
  | reply reply =>
      obtain ⟨set, isSet, still, others⟩ := setRpy_eq present reply
      dsimp only
      rw [isSet]
      let replied : Shared Reply := { shared.note (.answered ctx.fctx) with
        fctxs := set
        trace := (shared.note (.answered ctx.fctx)).trace ++ [.fctx ctx.fctx] }
      have stays : (replied.fctxs ctx.fctx).fiber.isSome := still
      obtain ⟨fctxs, scheduled, others'⟩ := schedule_eq stays true
      change ∃ fctxs uses, (replied.schedule ctx.fctx true).delete ctx = _ ∧ _
      rw [scheduled]
      refine ⟨fctxs, [.fctx ctx.fctx, .fctx ctx.fctx], ?_, by simp, fun other apart =>
        (others' other apart).trans (others other apart)⟩
      simp [replied, Shared.delete, Shared.note]

/-- What is not of the connection has come before. -/
structure SameCalls (history later : List Event) : Prop where
  scheduled : ∀ call, .scheduled call ∈ later ↔ .scheduled call ∈ history
  deleted : ∀ address, .deleted address ∈ later ↔ .deleted address ∈ history
  answered : ∀ call, .answered call ∈ later ↔ .answered call ∈ history
  timedOut : ∀ call, .timedOut call ∈ later ↔ .timedOut call ∈ history

theorem sameCalls {history later : List Event} (extended : Extended Event.aside history later) :
    SameCalls history later :=
  ⟨fun _ => extended.mem_iff id, fun _ => extended.mem_iff id, fun _ => extended.mem_iff id,
    fun _ => extended.mem_iff id⟩

theorem proper_aside (earlier : List Event) (event : Event) (free : event.aside) :
    proper earlier event := by
  cases event <;> trivial

theorem Sound.aside (sound : Sound state) (aside : state.shared.Aside after) :
    Sound { state with shared := after } := by
  have same := sameCalls aside.trace
  constructor
  case admitted => exact aside.trace.admitted proper_aside sound.admitted
  case calls =>
    apply sound.calls.same
    case waiting =>
      rw [Shared.waiting, aside.tasks, aside.ctxs]
      rfl
    case fctxs => exact aside.fctxs
    case count => exact aside.calls
    case scheduled => exact same.scheduled
    case ended =>
      intro call ended
      rw [same.answered, same.timedOut] at ended
      exact sound.calls.settled call ended
  case heap =>
    apply sound.heap.keep aside.ctxs aside.addresses
    case callbacks => rw [aside.callbacks]
    case scheduled => exact fun call => (same.scheduled call).mpr
    case deleted => exact fun address => (same.deleted address).mp

/-- A call in the queue is open, so that its `FCtx` may be used. -/
theorem Sound.queued (sound : Sound state) {rest : List Nat}
    (tasks : state.shared.tasks = call :: rest) :
    state.shared.Open call ∧ Admitted proper (state.shared.trace ++ [.fctx call]) := by
  have waits : call ∈ state.shared.waiting := by simp [Shared.waiting, tasks]
  have isOpen := sound.calls.waits waits
  exact ⟨isOpen, admitted_concat.mpr ⟨sound.admitted, isOpen.2⟩⟩

/-- There is no connection for a call, whose fiber is scheduled. -/
theorem Sound.refuse (sound : Sound state) {rest : List Nat} {made : Shared Reply}
    (tasks : state.shared.tasks = call :: rest)
    (aside : Shared.Aside ({ state.shared with tasks := rest }.note (.fctx call)) made) :
    Sound { state with shared := made.schedule call true } := by
  obtain ⟨isOpen, used⟩ := sound.queued tasks
  have same := sameCalls aside.trace
  simp only [Shared.note] at same
  have fiber : (made.fctxs call).fiber.isSome := by
    rw [aside.fctxs]
    exact sound.calls.fibers call isOpen
  obtain ⟨fctxs, scheduled, others⟩ := Shared.schedule_eq fiber true
  rw [scheduled]
  have notYet : .scheduled call ∉ made.trace := by
    simpa [same.scheduled] using isOpen.2
  constructor
  case admitted =>
    have offline := aside.trace.admitted proper_aside used
    have again : Admitted proper (made.trace ++ [.fctx call]) :=
      admitted_concat.mpr ⟨offline, notYet⟩
    exact admitted_concat.mpr ⟨again, by simpa [proper] using notYet⟩
  case calls =>
    apply sound.calls.settle
    case waiting =>
      simp only [Shared.waiting, aside.tasks, aside.ctxs, tasks, List.cons_append]
      rfl
    case fctxs =>
      intro other apart
      exact (others other apart).trans (congrFun aside.fctxs other)
    case count => exact aside.calls
    case scheduled =>
      intro other
      simp [same.scheduled, or_comm]
    case ended =>
      intro other apart ended
      apply sound.calls.settled
      simpa [same.answered, same.timedOut] using ended
  case heap =>
    refine sound.heap.keep aside.ctxs aside.addresses ?_ ?_ ?_
    · change (made.callbacks.filterMap id).Sublist _
      rw [aside.callbacks]
      exact .refl _
    · intro other member
      simp [same.scheduled, member]
    · intro address member
      simpa [same.deleted] using member

/-- A call gets a `Ctx`, and hiredis takes its command or does not. -/
theorem Sound.issue (sound : Sound state) {rest : List Nat}
    (tasks : state.shared.tasks = call :: rest) (left : after.tasks = rest)
    (fctxs : after.fctxs = state.shared.fctxs) (count : after.calls = state.shared.calls)
    (ctxs : after.ctxs =
      ⟨state.shared.addresses, true, false, (state.shared.fctxs call).cmd, call⟩ ::
        state.shared.ctxs)
    (addresses : after.addresses = state.shared.addresses + 1)
    (callbacks : (after.callbacks.filterMap id).Sublist
      (state.shared.callbacks.filterMap id ++ [state.shared.addresses]))
    (trace : Extended Event.aside (state.shared.trace ++ [.fctx call]) after.trace) :
    Sound { state with shared := after } := by
  obtain ⟨-, used⟩ := sound.queued tasks
  have same := sameCalls trace
  constructor
  case admitted => exact trace.admitted proper_aside used
  case calls =>
    apply sound.calls.same
    case waiting =>
      simp only [Shared.waiting, left, ctxs, tasks, flying, List.cons_append]
      exact List.perm_middle
    case fctxs => exact fctxs
    case count => exact count
    case scheduled =>
      intro other
      simp [same.scheduled]
    case ended =>
      intro other ended
      apply sound.calls.settled
      simpa [same.answered, same.timedOut] using ended
  case heap =>
    apply sound.heap.make rfl rfl ctxs addresses callbacks
    case scheduled =>
      intro other member
      simp [same.scheduled, member]
    case deleted =>
      intro address member
      simpa [same.deleted] using member

/-- `pcmd` takes a call out of the queue. -/
theorem Sound.pcmd (sound : Sound state) {rest : List Nat} (tasks : state.shared.tasks = call :: rest)
    (connect : Connect) (accepts : Bool) :
    Sound { state with shared :=
      { state.shared with tasks := rest }.pcmd call connect accepts } := by
  unfold Shared.pcmd
  dsimp only
  split
  case isTrue => exact sound.refuse tasks (.pinit connect accepts)
  case isFalse =>
    split
    · cases accepts with
      | false =>
          refine sound.issue tasks rfl rfl rfl rfl rfl ?_ (.one trivial)
          exact List.sublist_append_left _ _
      | true =>
          refine sound.issue tasks rfl rfl rfl rfl rfl ?_ (.one trivial)
          simp [Shared.command, Shared.note]
    · refine sound.issue tasks rfl rfl rfl rfl rfl ?_ (.refl _)
      exact List.sublist_append_left _ _

/-- A `Ctx` in the heap may be used. -/
theorem Sound.alive (sound : Sound state) (member : ctx ∈ state.shared.ctxs) :
    .deleted ctx.address ∉ state.shared.trace := fun gone =>
  (sound.heap.deleted _ gone).2 (List.mem_map_of_mem member)

/-- The call of a `Ctx` that has not timed out is open. -/
theorem Sound.flies (sound : Sound state) (member : ctx ∈ state.shared.ctxs)
    (untimed : ctx.timeout = false) : state.shared.Open ctx.fctx :=
  sound.calls.waits (List.mem_append_right _ (mem_flying member untimed))

/-- What a callback does first. -/
def Shared.answered (shared : Shared Reply) (rest : List (Option Nat)) (ctx : Ctx) : Shared Reply :=
  { shared with callbacks := rest }.note (.ctx ctx.address)

theorem Sound.answered (sound : Sound state) (member : ctx ∈ state.shared.ctxs) :
    Admitted proper (state.shared.trace ++ [.ctx ctx.address] ++ [.answered ctx.fctx]) :=
  admitted_concat.mpr ⟨admitted_concat.mpr ⟨sound.admitted, sound.alive member⟩, trivial⟩

/-- A callback comes after the timeout, and deletes the `Ctx`. -/
theorem Sound.late (sound : Sound state) {rest : List (Option Nat)}
    (member : ctx ∈ state.shared.ctxs) (timed : ctx.timeout = true)
    (callbacks : (ctx.address :: rest.filterMap id).Perm (state.shared.callbacks.filterMap id))
    (answer : Answer Reply) :
    Sound { state with shared := (state.shared.answered rest ctx).complete ctx answer } := by
  have deletes : (state.shared.answered rest ctx).complete ctx answer =
      ((state.shared.answered rest ctx).note (.answered ctx.fctx)).delete ctx := by
    unfold Shared.complete
    exact if_pos timed
  rw [deletes]
  constructor
  case admitted =>
    have alive := sound.alive member
    exact admitted_concat.mpr ⟨sound.answered member, by
      simpa [proper, Shared.answered, Shared.note] using alive⟩
  case calls =>
    apply sound.calls.same
    case waiting => exact (flying_erase member timed).append_left _
    case fctxs => rfl
    case count => rfl
    case scheduled =>
      intro call
      simp [Shared.answered, Shared.delete, Shared.note]
    case ended =>
      intro call ended
      simp [Shared.answered, Shared.delete, Shared.note] at ended
      obtain (before | rfl) | before := ended
      · exact sound.calls.settled call (.inl before)
      · exact sound.heap.timed ctx member timed
      · exact sound.calls.settled call (.inr before)
  case heap =>
    refine sound.heap.drop member ?_ ?_ callbacks ?_ ?_
    · rfl
    · rfl
    · intro call before
      simp [Shared.answered, Shared.delete, Shared.note, before]
    · intro address gone
      simp [Shared.answered, Shared.delete, Shared.note] at gone
      exact gone.symm

/-- A callback comes before the timeout, and schedules the fiber. -/
theorem Sound.first (sound : Sound state) {rest : List (Option Nat)}
    (member : ctx ∈ state.shared.ctxs) (untimed : ctx.timeout = false)
    (callbacks : (ctx.address :: rest.filterMap id).Perm (state.shared.callbacks.filterMap id))
    (answer : Answer Reply) :
    Sound { state with shared := (state.shared.answered rest ctx).complete ctx answer } := by
  have isOpen := sound.flies member untimed
  have alive := sound.alive member
  have fiber : ((state.shared.answered rest ctx).fctxs ctx.fctx).fiber.isSome :=
    sound.calls.fibers _ isOpen
  obtain ⟨fctxs, uses, settles, uses', others⟩ := Shared.complete_eq untimed fiber answer
  have free : ∀ event, event ≠ .fctx ctx.fctx → event ∉ uses := fun event apart member =>
    apart (uses' event member)
  rw [settles]
  constructor
  case admitted =>
    have again : Admitted proper
        (state.shared.trace ++ [.ctx ctx.address] ++ [.answered ctx.fctx] ++ uses) :=
      (sound.answered member).append fun event member earlier within => by
        rw [uses' event member]
        intro early
        have was := within early
        simp [free, isOpen.2] at was
    have told : Admitted proper (state.shared.trace ++ [.ctx ctx.address] ++
        [.answered ctx.fctx] ++ uses ++ [.scheduled ctx.fctx]) :=
      admitted_concat.mpr ⟨again, by simp [proper, free, isOpen.2]⟩
    exact admitted_concat.mpr ⟨told, by simp [proper, Shared.answered, Shared.note, free, alive]⟩
  case calls =>
    apply sound.calls.settle
    case waiting => exact waiting_perm member untimed
    case fctxs => exact others
    case count => rfl
    case scheduled =>
      intro other
      simp [Shared.answered, Shared.note, free]
      tauto
    case ended =>
      intro other apart ended
      apply sound.calls.settled
      simpa [Shared.answered, Shared.note, free, apart] using ended
  case heap =>
    refine sound.heap.drop member ?_ ?_ callbacks ?_ ?_
    · rfl
    · rfl
    · intro call before
      simp [Shared.answered, Shared.note, before]
    · intro address gone
      simp [Shared.answered, Shared.note, free] at gone
      exact gone.symm

/-- hiredis calls a callback. -/
theorem Sound.answer (sound : Sound state) {index : Nat} {privdata : Option Nat}
    (waits : state.shared.callbacks[index]? = some privdata) (answer : Answer Reply) :
    Sound { state with shared :=
      ({ state.shared with
        callbacks := state.shared.callbacks.eraseIdx index }.cmdCb privdata answer) } := by
  obtain ⟨inside, here⟩ := List.getElem?_eq_some_iff.mp waits
  have taken : (privdata :: state.shared.callbacks.eraseIdx index).Perm state.shared.callbacks := by
    rw [← here]
    exact List.getElem_cons_eraseIdx_perm inside
  cases privdata with
  | none =>
      refine ⟨sound.admitted, ?_, ?_⟩
      · exact sound.calls.same (.refl _) rfl rfl (fun _ => Iff.rfl) sound.calls.settled
      · exact sound.heap.keep rfl rfl ((List.eraseIdx_sublist _ _).filterMap id) (fun _ => id)
          fun _ => id
  | some address =>
      have callbacks : (address :: (state.shared.callbacks.eraseIdx index).filterMap id).Perm
          (state.shared.callbacks.filterMap id) := taken.filterMap id
      obtain ⟨ctx, member, found, rfl⟩ := Shared.find_mem
        (sound.heap.known address (callbacks.subset List.mem_cons_self))
      have completes : { state.shared with
            callbacks := state.shared.callbacks.eraseIdx index }.cmdCb (some ctx.address) answer =
          (state.shared.answered (state.shared.callbacks.eraseIdx index) ctx).complete ctx answer := by
        have same : (state.shared.answered (state.shared.callbacks.eraseIdx index) ctx).find
            ctx.address = some ctx := found
        unfold Shared.answered at same ⊢
        unfold Shared.cmdCb
        dsimp only
        rw [same]
      rw [completes]
      cases timed : ctx.timeout with
      | true => exact sound.late member timed callbacks answer
      | false => exact sound.first member timed callbacks answer

/-- The timeout event of a `Ctx` occurs. -/
theorem Sound.timeout (sound : Sound state) (member : ctx ∈ state.shared.ctxs)
    (event : ctx.ev = true) :
    Sound { state with shared := state.shared.eventCb ctx } := by
  have untimed := sound.heap.pending ctx member event
  have isOpen := sound.flies member untimed
  let marked : Shared Reply := { state.shared with
    ctxs := { ctx with ev := false, timeout := true } :: state.shared.ctxs.erase ctx
    trace := state.shared.trace ++ [.ctx ctx.address] ++ [.timedOut ctx.fctx] }
  have used : Admitted proper marked.trace :=
    admitted_concat.mpr ⟨admitted_concat.mpr ⟨sound.admitted, sound.alive member⟩, trivial⟩
  have fiber : (marked.fctxs ctx.fctx).fiber.isSome := sound.calls.fibers _ isOpen
  obtain ⟨fctxs, scheduled, others⟩ := Shared.schedule_eq fiber true
  change Sound { state with shared := marked.schedule ctx.fctx true }
  rw [scheduled]
  constructor
  case admitted =>
    have again : Admitted proper (marked.trace ++ [.fctx ctx.fctx]) :=
      admitted_concat.mpr ⟨used, by simp [proper, marked, isOpen.2]⟩
    exact admitted_concat.mpr ⟨again, by simp [proper, marked, isOpen.2]⟩
  case calls =>
    apply sound.calls.settle
    case waiting => exact waiting_perm member untimed
    case fctxs => exact others
    case count => rfl
    case scheduled =>
      intro other
      simp [marked]
      tauto
    case ended =>
      intro other apart ended
      apply sound.calls.settled
      simpa [marked, apart] using ended
  case heap =>
    refine sound.heap.mark member ?_ ?_ ?_ ?_ ?_
    · rfl
    · rfl
    · rfl
    · intro other
      simp [marked]
    · intro address gone
      simpa [marked] using gone

end Steps

section Runs

variable {state next : State Reply} {action : Action Reply} {fiber : Nat}

theorem Sound.fresh (passwd : List UInt8) : Sound (fresh passwd : State Reply) where
  admitted := .nil
  calls :=
    { places := .initial rfl (fun _ => rfl) fun _ isOpen => Nat.not_lt_zero _ isOpen.1
      fibers := fun _ isOpen => absurd isOpen.1 (Nat.not_lt_zero _)
      below := fun _ member => absurd member List.not_mem_nil
      settled := fun _ ended => by obtain member | member := ended <;> cases member }
  heap :=
    { timed := fun _ member => absurd member List.not_mem_nil
      pending := fun _ member => absurd member List.not_mem_nil
      unique := .nil
      below := fun _ member => absurd member List.not_mem_nil
      deleted := fun _ member => absurd member List.not_mem_nil
      known := fun _ member => absurd member List.not_mem_nil
      once := .nil }

/-- A fiber begins a call. -/
theorem Sound.makeFCtx (sound : Sound state) (outside : state.threads fiber = .outside)
    (cmd : List UInt8) :
    Sound (state.put fiber (state.shared.makeFCtx fiber cmd) (.calling state.shared.calls)) where
  admitted := sound.admitted
  heap := sound.heap.keep rfl rfl (.refl _) (fun _ => id) fun _ => id
  calls := by
    have calls := sound.calls
    have isNew : .scheduled state.shared.calls ∉ state.shared.trace := fun member =>
      Nat.lt_irrefl _ (calls.below _ member)
    constructor
    case places =>
      refine @Config.Places.put _ _ _ _ _ _ _ _ _ _ _ [state.shared.calls] [] calls.places ?_
        (List.nodup_singleton _) ?_ ?_
      · intro call member isOpen
        rw [List.mem_singleton.mp member] at isOpen
        exact Nat.lt_irrefl _ isOpen.1
      · rw [outside]
        simp only [Fiber.unsent, List.append_nil, List.nil_append, List.singleton_append]
        exact List.perm_append_singleton _ _
      · intro call
        change call < state.shared.calls + 1 ∧ .scheduled call ∉ state.shared.trace ↔ _
        rw [Shared.Open, List.mem_singleton, Nat.lt_succ_iff_lt_or_eq]
        simp only [List.not_mem_nil, not_false_eq_true, and_true]
        by_cases same : call = state.shared.calls
        · subst same
          simp [isNew]
        · simp [same]
    case fibers =>
      rintro call ⟨below, unscheduled⟩
      change (Function.update state.shared.fctxs state.shared.calls _ call).fiber.isSome
      by_cases same : call = state.shared.calls
      · rw [same, Function.update_self]
        rfl
      · rw [Function.update_of_ne same]
        exact calls.fibers call ⟨Nat.lt_of_le_of_ne (Nat.lt_succ_iff.mp below) same, unscheduled⟩
    case below => exact fun call member => Nat.lt_succ_of_lt (calls.below call member)
    case settled => exact calls.settled

/-- A call passes from its fiber to the queue, or stays where it is. -/
theorem Sound.moved (sound : Sound state) {after : Shared Reply} {now : Fiber}
    (fields : after.fctxs = state.shared.fctxs ∧ after.calls = state.shared.calls ∧
      after.ctxs = state.shared.ctxs ∧ after.addresses = state.shared.addresses ∧
      after.callbacks = state.shared.callbacks ∧ after.trace = state.shared.trace)
    (perm : (after.waiting ++ now.unsent).Perm
      (state.shared.waiting ++ (state.threads fiber).unsent)) :
    Sound (state.put fiber after now) := by
  obtain ⟨fctxs, calls, ctxs, addresses, callbacks, trace⟩ := fields
  have same : ∀ call, after.Open call ↔ state.shared.Open call := fun call => by
    rw [Shared.Open, Shared.Open, calls, trace]
  constructor
  case admitted =>
    rw [Config.put_shared, trace]
    exact sound.admitted
  case heap =>
    rw [Config.put_shared]
    apply sound.heap.keep ctxs addresses
    · rw [callbacks]
    · rw [trace]
      exact fun _ => id
    · rw [trace]
      exact fun _ => id
  case calls =>
    constructor
    all_goals rw [Config.put_shared]
    · exact sound.calls.places.move perm same
    · intro call isOpen
      rw [fctxs]
      exact sound.calls.fibers call ((same call).mp isOpen)
    · rw [trace, calls]
      exact sound.calls.below
    · rw [trace]
      exact sound.calls.settled

/-- A fiber goes on with its call. -/
theorem Sound.go (sound : Sound state) {after : Shared Reply} {now : Fiber}
    (taken : state.shared.go (state.threads fiber) = some (after, now)) :
    Sound (state.put fiber after now) := by
  cases here : state.threads fiber with
  | outside =>
      rw [here] at taken
      cases taken
  | calling call =>
      rw [here] at taken
      cases taken
      refine sound.moved ⟨rfl, rfl, rfl, rfl, rfl, rfl⟩ ?_
      simp only [here, Shared.waiting, Fiber.unsent, List.append_nil, List.append_assoc]
      exact List.perm_append_comm.append_left _
  | leaving call =>
      rw [here] at taken
      cases taken
      refine sound.moved ⟨rfl, rfl, rfl, rfl, rfl, rfl⟩ ?_
      rw [here]
      exact .refl _
  | suspended call =>
      rw [here, Shared.go] at taken
      split at taken
      · cases taken
        refine sound.moved ⟨rfl, rfl, rfl, rfl, rfl, rfl⟩ ?_
        rw [here]
        exact .refl _
      · cases taken

theorem Sound.redis (sound : Sound state) {after : Shared Reply}
    (taken : state.shared.redis action = some after) : Sound { state with shared := after } := by
  cases action with
  | cmd | go => cases taken
  | init connect accepts =>
      cases taken
      exact sound.aside (.pinit connect accepts)
  | pcmd connect accepts =>
      rw [Shared.redis] at taken
      split at taken
      · cases taken
      case h_2 call rest tasks =>
        cases taken
        exact sound.pcmd tasks connect accepts
  | answer index answer =>
      obtain ⟨privdata, waits, rfl⟩ := Option.map_eq_some_iff.mp taken
      exact sound.answer waits answer
  | timeout address =>
      rw [Shared.redis] at taken
      split at taken
      · cases taken
      case h_2 ctx found =>
        split at taken
        case isTrue event =>
          cases taken
          exact sound.timeout (List.mem_of_find?_eq_some found) event
        case isFalse => cases taken
  | tick accepts =>
      rw [Shared.redis] at taken
      split at taken
      · cases taken
        exact sound.aside (.timeCb accepts)
      · cases taken
  | connected context ok =>
      rw [Shared.redis] at taken
      split at taken
      case isFalse => cases taken
      case isTrue =>
        cases ok with
        | true =>
            cases taken
            have marked : state.shared.Aside { state.shared with
                stages := Function.update state.shared.stages context .connected } :=
              ⟨rfl, rfl, rfl, rfl, rfl, rfl, .refl _⟩
            exact sound.aside (marked.trans (.connectCb true))
        | false =>
            cases taken
            exact sound.aside (Shared.Aside.trans (.connectCb false) (.free context))
  | disconnected context =>
      rw [Shared.redis] at taken
      split at taken
      case isFalse => cases taken
      case isTrue =>
        cases taken
        have told : state.shared.Aside state.shared.disconnectCb :=
          ⟨rfl, rfl, rfl, rfl, rfl, rfl, .refl _⟩
        exact sound.aside (told.trans (.free context))

theorem Sound.step (sound : Sound state) (taken : step state action = some next) : Sound next := by
  obtain ⟨fiber, cmd, -, outside, rfl⟩ | ⟨fiber, after, now, -, gone, rfl⟩ | ⟨after, redis, rfl⟩ :=
    step_cases taken
  · exact sound.makeFCtx outside cmd
  · exact sound.go gone
  · exact sound.redis redis

/-- The fiber of a call is scheduled once at most, and it is when the callback or the timeout
event has occurred. Its `FCtx` is not used afterwards, and no `Ctx` is that has been deleted. -/
theorem completes_once {passwd : List UInt8}
    (run : Runs step (fun _ _ => True) (fresh passwd) state) :
    (∀ call, state.shared.trace.count (.scheduled call) ≤ 1 ∧
      (.answered call ∈ state.shared.trace ∨ .timedOut call ∈ state.shared.trace →
        state.shared.trace.count (.scheduled call) = 1) ∧
      ¬ Before state.shared.trace (.scheduled call) (.fctx call)) ∧
    ∀ address, ¬ Before state.shared.trace (.deleted address) (.ctx address) ∧
      state.shared.trace.count (.deleted address) ≤ 1 := by
  have sound : Sound state := run.invariant (fun _ _ _ sound _ taken => sound.step taken)
    (.fresh passwd)
  constructor
  · intro call
    have once : state.shared.trace.count (.scheduled call) ≤ 1 :=
      sound.admitted.count_le_one fun _ => id
    refine ⟨once, fun ended => ?_, sound.admitted.not_before fun _ => id⟩
    exact Nat.le_antisymm once (List.one_le_count_iff.mpr (sound.calls.settled call ended))
  · intro address
    exact ⟨sound.admitted.not_before fun _ => id, sound.admitted.count_le_one fun _ => id⟩

/-- One command is answered, and another one times out and is answered then. -/
def twoCommands : State Nat :=
  (replay step (fun _ _ => true)
    [.init .ok true, .connected 0 true, .cmd 5 [112], .go 5, .cmd 6 [113], .go 6, .pcmd .ok true,
      .pcmd .ok true, .timeout 1, .answer 1 (.reply 3), .answer 1 .null, .go 5, .go 5, .go 6, .go 6]
    (fresh [])).get (by decide)

theorem completes_once_two :
    (∀ call, twoCommands.shared.trace.count (.scheduled call) ≤ 1 ∧
      (.answered call ∈ twoCommands.shared.trace ∨ .timedOut call ∈ twoCommands.shared.trace →
        twoCommands.shared.trace.count (.scheduled call) = 1) ∧
      ¬ Before twoCommands.shared.trace (.scheduled call) (.fctx call)) ∧
    ∀ address, ¬ Before twoCommands.shared.trace (.deleted address) (.ctx address) ∧
      twoCommands.shared.trace.count (.deleted address) ≤ 1 :=
  completes_once (.of_replay (fun _ _ _ => trivial) (Option.some_get _).symm)

end Runs

end Xten.FoxRedis
