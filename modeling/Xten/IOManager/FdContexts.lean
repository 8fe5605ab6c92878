import Xten.Std.Interleaving

/-!
# The fd table of an `IOManager`

`FdContext`, the table `_fdContexts` of pointers to them, and the two that the calls share:
`FdContextsResize` and `triggerEvent`. A pointer is the number of the context in the order
in which contexts are made. A callback or a fiber is named by the `AddEvent` call that
registers it.
-/

namespace Xten.IOManager

open Std.Interleaving

abbrev ThreadId := Nat

/-- `Event`, other than `NONE`. -/
inductive Event where
  | READ
  | WRITE
deriving DecidableEq, Repr

/-- A mask of events. -/
abbrev Events := Event → Bool

namespace Events

def none : Events :=
  fun _ => false

/-- `events | ev`. -/
def add (events : Events) (ev : Event) : Events :=
  fun other => if other = ev then true else events other

/-- `events & ~ev`. -/
def remove (events : Events) (ev : Event) : Events :=
  fun other => if other = ev then false else events other

/-- `!events`. -/
def isEmpty (events : Events) : Bool :=
  !events .READ && !events .WRITE

end Events

/-- What happens on an event: a callback or a fiber, and whose scheduler takes it. -/
structure EventContext where
  scheduler : Option Nat
  fiber : Option Nat
  cb : Option Nat

namespace EventContext

/-- `resetEvContext`. -/
def reset : EventContext :=
  ⟨none, none, none⟩

/-- The registrations that are kept. -/
def registered (evctx : EventContext) : List Nat :=
  evctx.cb.toList ++ evctx.fiber.toList

end EventContext

/-- An `FdContext`. `watched` is what epoll has last been told to watch. -/
structure FdContext where
  events : Events
  getEvContext : Event → EventContext
  fd : Nat
  mutex : Option ThreadId
  watched : Events

namespace FdContext

/-- `new FdContext()`. -/
def create (fd : Nat) : FdContext :=
  ⟨Events.none, fun _ => .reset, fd, none, Events.none⟩

/-- The context of one event is replaced. -/
def setEvContext (self : FdContext) (ev : Event) (evctx : EventContext) : Event → EventContext :=
  fun other => if other = ev then evctx else self.getEvContext other

/-- The event is no longer registered, and its context is empty. -/
def drop (self : FdContext) (ev : Event) : FdContext :=
  { self with
    events := self.events.remove ev
    getEvContext := self.setEvContext ev .reset }

/-- The registrations that are kept. -/
def registered (self : FdContext) : List Nat :=
  (self.getEvContext .READ).registered ++ (self.getEvContext .WRITE).registered

/-- `triggerEvent`: what is left, and what has been scheduled. An event that is not
registered is logged; none if the assertion on the scheduler fails. -/
def triggerEvent (self : FdContext) (ev : Event) : Option (FdContext × List Nat) :=
  if self.events ev then
    (self.getEvContext ev).scheduler.map fun _ =>
      (self.drop ev, (self.getEvContext ev).registered)
  else
    some (self, [])

end FdContext

/-- `scheduled` are the registrations whose callback or fiber has been scheduled, in order,
and `deleted` the ones that `DelEvent` has taken away. -/
structure Shared where
  fdContexts : List Nat
  contexts : Nat → FdContext
  made : Nat
  pendingEventNum : Int
  registrations : Nat
  scheduled : List Nat
  deleted : List Nat
  aborted : Bool

namespace Shared

/-- A context is changed. -/
def write (shared : Shared) (context : Nat) (value : FdContext) : Shared :=
  { shared with
    contexts := fun other => if other = context then value else shared.contexts other }

@[simp] theorem write_self {shared : Shared} {context : Nat} {value : FdContext} :
    (shared.write context value).contexts context = value :=
  if_pos rfl

theorem write_other {shared : Shared} {context other : Nat} {value : FdContext}
    (apart : other ≠ context) :
    (shared.write context value).contexts other = shared.contexts other :=
  if_neg apart

/-- `FdContextsResize`; none if `resize` throws, as it does on a size below zero. -/
def FdContextsResize (shared : Shared) (size : BitVec 32) : Option Shared :=
  if size.slt 0 then
    none
  else
    let kept := shared.fdContexts.take size.toNat
    let more := size.toNat - kept.length
    some { shared with
      fdContexts := kept ++ List.range' shared.made more
      contexts := fun context =>
        if shared.made ≤ context ∧ context < shared.made + more then
          .create (kept.length + (context - shared.made))
        else
          shared.contexts context
      made := shared.made + more }

end Shared

/-- A descriptor as an index into the table: an `int` that has become a `size_t`. -/
def index (fd : BitVec 32) : Nat :=
  (fd.signExtend 64).toNat

/-- `fd > _fdContexts.size() - 1`. -/
def overLast (fd : BitVec 32) (size : Nat) : Bool :=
  (BitVec.ofNat 64 size - 1).ult (fd.signExtend 64)

/-- `fd >= _fdContexts.size()`. -/
def overSize (fd : BitVec 32) (size : Nat) : Bool :=
  (BitVec.ofNat 64 size).ule (fd.signExtend 64)

section Sizes

variable {fd : BitVec 32} {size : Nat}

theorem overSize_iff (fits : size < 2 ^ 64) : overSize fd size ↔ size ≤ index fd := by
  unfold overSize index
  rw [BitVec.ule_eq_decide, decide_eq_true_eq, BitVec.toNat_ofNat, Nat.mod_eq_of_lt fits]

/-- The last index is below the size, as long as there is one. -/
theorem overLast_iff (some : 0 < size) (fits : size < 2 ^ 64) :
    overLast fd size ↔ size ≤ index fd := by
  have last : (BitVec.ofNat 64 size - 1).toNat = size - 1 := by
    have one : (1 : BitVec 64) ≤ BitVec.ofNat 64 size := by
      rw [BitVec.le_def, BitVec.toNat_ofNat, Nat.mod_eq_of_lt fits]
      exact some
    rw [BitVec.toNat_sub_of_le one, BitVec.toNat_ofNat, Nat.mod_eq_of_lt fits]
    rfl
  unfold overLast index
  rw [BitVec.ult_eq_decide, decide_eq_true_eq, last]
  omega

end Sizes

end Xten.IOManager
