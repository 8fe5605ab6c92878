import Xten.Timer.Manager

/-!
# The set of timers stays in order

Each timer with a callback is in the set once, and no other. While an operation has a timer in
its hands that it has taken out of the set, the invariant leaves this one out.
-/

namespace Xten.TimerManager

open Timer (Address)
open Std.OrderedSet (Linear Ordered)

variable {Callback : Type}

/-- The comparator compares `m_next` first and then the addresses. -/
theorem comparator_iff (lhs rhs : BitVec 64 × Nat) :
    Timer.comparator (some lhs) (some rhs) = true ↔
      lhs.1.toNat < rhs.1.toNat ∨ lhs.1.toNat = rhs.1.toNat ∧ lhs.2 < rhs.2 := by
  simp only [Timer.comparator, BitVec.lt_def]
  split
  case isTrue sooner => exact iff_of_true rfl (.inl sooner)
  case isFalse notSooner =>
    split
    case isTrue later =>
      exact iff_of_false Bool.false_ne_true (by omega)
    case isFalse notLater =>
      rw [decide_eq_true_eq]
      omega

theorem comparator_linear (key : Address → BitVec 64) : Linear fun lhs rhs =>
    Timer.comparator (some (key lhs, lhs)) (some (key rhs, rhs)) where
  irrefl := fun address => by simp [Timer.comparator]
  trans := by
    intro one other third first second
    rw [comparator_iff] at first second ⊢
    omega
  connected := by
    intro one other apart
    rw [comparator_iff, comparator_iff]
    obtain lt | same | lt := Nat.lt_trichotomy (key one).toNat (key other).toNat
    · exact .inl (.inl lt)
    · obtain before | before := Nat.lt_or_gt_of_ne apart
      · exact .inl (.inr ⟨same, before⟩)
      · exact .inr (.inr ⟨same.symm, before⟩)
    · exact .inr (.inl lt)

variable {self : TimerManager Callback}

theorem less_linear (self : TimerManager Callback) : Linear self.less :=
  comparator_linear fun address => (self.timer address).next

/-- What holds while an operation has the timers `held` in its hands. -/
structure Linked (manager : TimerManager Callback) (held : List Address) : Prop where
  members : ∀ address, address ∈ manager.timers ↔
    (manager.timer address).cb.isSome ∧ address ∉ held
  ordered : Ordered manager.less manager.timers

variable {held : List Address} {address : Address}

theorem Linked.nodup (linked : Linked self held) : self.timers.Nodup :=
  linked.ordered.nodup (less_linear self)

/-- How timers compare depends on their `m_next`. -/
theorem less_congr {other : TimerManager Callback} {lhs rhs : Address}
    (left : (other.timer lhs).next = (self.timer lhs).next)
    (right : (other.timer rhs).next = (self.timer rhs).next) :
    other.less lhs rhs = self.less lhs rhs := by
  rw [less, left, right]
  rfl

@[simp] theorem store_self (timer : Timer Callback) :
    (self.store address timer).timer address = timer :=
  Function.update_self _ _ _

theorem store_other {other : Address} (timer : Timer Callback) (apart : other ≠ address) :
    (self.store address timer).timer other = self.timer other :=
  Function.update_of_ne apart _ _

/-- A timer that is not in the set may be changed. -/
theorem Linked.ordered_store (linked : Linked self held) (timer : Timer Callback)
    (absent : address ∉ self.timers) :
    Ordered (self.store address timer).less self.timers := by
  have other : ∀ one ∈ self.timers, ((self.store address timer).timer one).next =
      (self.timer one).next := fun one member => by
    rw [store_other]
    rintro rfl
    exact absent member
  exact linked.ordered.congr fun one first two second =>
    less_congr (other one first) (other two second)

/-- A timer that is in the set is found where it is. -/
theorem Linked.find (linked : Linked self held) (member : address ∈ self.timers) :
    ∃ before after, self.timers = before ++ address :: after ∧
      self.find address = some before.length ∧
      self.timers.eraseIdx before.length = before ++ after := by
  obtain ⟨before, after, split⟩ := List.append_of_mem member
  refine ⟨before, after, split, ?_, ?_⟩
  · have found := Std.OrderedSet.find_of_split (less_linear self) (split ▸ linked.ordered)
    rw [← split] at found
    exact found
  · rw [split]
    exact Std.OrderedSet.eraseIdx_split

/-- A timer is taken out of the set. -/
theorem Linked.erase (linked : Linked self held) {before after : List Address}
    (split : self.timers = before ++ address :: after) :
    Linked { self with timers := before ++ after } (address :: held) where
  members := fun other => by
    have unique := split ▸ linked.nodup
    have out : address ∉ before ++ after := (List.nodup_middle.mp unique).notMem
    have was := linked.members other
    rw [split] at was
    constructor
    · intro member
      have apart : other ≠ address := fun same => out (same ▸ member)
      obtain ⟨callback, free⟩ := was.mp (by
        obtain early | late := List.mem_append.mp member
        · exact List.mem_append_left _ early
        · exact List.mem_append_right _ (List.mem_cons_of_mem _ late))
      exact ⟨callback, List.not_mem_cons_of_ne_of_not_mem apart free⟩
    · rintro ⟨callback, free⟩
      obtain ⟨apart, free⟩ := List.ne_and_not_mem_of_not_mem_cons free
      have member := was.mpr ⟨callback, free⟩
      simpa [apart] using member
  ordered := (split ▸ linked.ordered : Ordered self.less (before ++ address :: after)).erase

/-- A timer is put into the set. -/
theorem Linked.insert (linked : Linked self (address :: held)) (free : address ∉ held)
    (callback : (self.timer address).cb.isSome) : ∃ before after,
      self.timers = before ++ after ∧
      self.insert address =
        ({ self with timers := before ++ address :: after }, before.length) ∧
      Linked { self with timers := before ++ address :: after } held := by
  have absent : address ∉ self.timers := fun member =>
    ((linked.members address).mp member).2 List.mem_cons_self
  obtain ⟨before, after, split, inserted, ordered⟩ :=
    Std.OrderedSet.insert_absent (less_linear self) linked.ordered absent
  refine ⟨before, after, split, ?_, ?_, ordered⟩
  · rw [TimerManager.insert, inserted]
  · intro other
    have was := linked.members other
    rw [split] at was
    by_cases same : other = address
    · subst same
      simp [callback, free]
    · simpa [same] using was

/-- A timer in the hands of an operation may be changed. -/
theorem Linked.stored (linked : Linked self held) (inHands : address ∈ held)
    (timer : Timer Callback) : Linked (self.store address timer) held where
  members := fun other => by
    have absent : address ∉ self.timers := fun member =>
      ((linked.members address).mp member).2 inHands
    by_cases same : other = address
    · subst same
      exact iff_of_false absent fun free => free.2 inHands
    · rw [store_other _ same]
      exact linked.members other
  ordered := linked.ordered_store timer fun member =>
    ((linked.members address).mp member).2 inHands

/-- Its `m_next` may be written, as it is not in the set. -/
theorem Linked.setNext (linked : Linked self held) (inHands : address ∈ held)
    (next : BitVec 64) : self.setNext address next =
      .ok (self.store address { self.timer address with next := next }) :=
  if_neg fun member => ((linked.members address).mp member).2 inHands

/-- A timer in the hands of an operation loses its callback. -/
theorem Linked.drop (linked : Linked self (address :: held)) :
    Linked (self.store address { self.timer address with cb := none }) held where
  members := fun other => by
    have was := linked.members other
    by_cases same : other = address
    · subst same
      rw [store_self]
      simpa [store] using was
    · rw [store_other _ same]
      simpa [store, same] using was
  ordered := linked.ordered_store _ fun member =>
    ((linked.members address).mp member).2 List.mem_cons_self

/-- What is in the set afterwards has been moved there, or has been there with this `m_next`. -/
def Shifts (before after : TimerManager Callback) (moved : Address → BitVec 64 → Prop) : Prop :=
  ∀ address ∈ after.timers, moved address (after.timer address).next ∨
    address ∈ before.timers ∧ (after.timer address).next = (before.timer address).next

/-- A call of an operation that keeps the set, and what it moves. -/
structure Keeps (before after : TimerManager Callback) (moved : Address → BitVec 64 → Prop) :
    Prop where
  linked : Linked after []
  shifts : Shifts before after moved

theorem Keeps.same (linked : Linked self []) {moved : Address → BitVec 64 → Prop} :
    Keeps self self moved :=
  ⟨linked, fun _ member => .inr ⟨member, rfl⟩⟩

section Operations

/-- A timer with a callback is found. -/
theorem Linked.locate (linked : Linked self []) (callback : (self.timer address).cb.isSome) :
    ∃ before after, self.timers = before ++ address :: after ∧
      self.find address = some before.length ∧
      self.timers.eraseIdx before.length = before ++ after :=
  linked.find ((linked.members address).mpr ⟨callback, List.not_mem_nil⟩)

theorem next_store {timer : Timer Callback} (same : timer.next = (self.timer address).next)
    (other : Address) : ((self.store address timer).timer other).next = (self.timer other).next := by
  by_cases mine : other = address
  · rw [mine, store_self, same]
  · rw [store_other _ mine]

theorem mem_without {before after : List Address} {other : Address}
    (member : other ∈ before ++ after) : other ∈ before ++ address :: after :=
  ((List.sublist_cons_self address after).append_left before).subset member

/-- `cancel` finds the timer that it erases. -/
theorem Linked.cancel (linked : Linked self []) (address : Address) : ∃ after result,
    self.cancel address = .ok (after, result) ∧ after.tickled = self.tickled ∧
      Keeps self after fun _ _ => False := by
  by_cases callback : (self.timer address).cb.isSome
  · obtain ⟨before, after, split, found, erased⟩ := linked.locate callback
    let without : TimerManager Callback :=
      self.store address { self.timer address with cb := none }
    have next : ∀ other, (without.timer other).next = (self.timer other).next := next_store rfl
    have less : without.less = self.less :=
      funext fun lhs => funext fun rhs => less_congr (next lhs) (next rhs)
    have same : without.find address = some before.length :=
      (congrArg (Std.OrderedSet.find · self.timers address) less).trans found
    refine ⟨{ without with timers := before ++ after }, true, ?_, rfl,
      (linked.erase split).drop, fun other member => .inr ⟨split ▸ mem_without member, next other⟩⟩
    rw [TimerManager.cancel, if_pos callback]
    change (without.erase (without.find address) >>= fun self => pure (self, true)) = _
    rw [same]
    change Except.ok ({ without with timers := self.timers.eraseIdx before.length }, true) = _
    rw [erased]
  · exact ⟨self, false, if_neg callback, rfl, .same linked⟩

/-- A timer is taken out of the set, changed, and put back. -/
theorem Linked.move (linked : Linked self []) {before after : List Address}
    (split : self.timers = before ++ address :: after) {timer : Timer Callback}
    (callback : timer.cb.isSome) : ∃ early late,
      before ++ after = early ++ late ∧
      (({ self with timers := before ++ after } : TimerManager Callback).store address
          timer).insert address =
        ({ self.store address timer with timers := early ++ address :: late }, early.length) ∧
      Keeps self { self.store address timer with timers := early ++ address :: late }
        fun other next => other = address ∧ next = timer.next := by
  have changed := (linked.erase split).stored List.mem_cons_self timer
  obtain ⟨early, late, same, inserted, kept⟩ := changed.insert List.not_mem_nil
    (by rw [store_self]; exact callback)
  refine ⟨early, late, same, inserted, kept, fun other member => ?_⟩
  by_cases mine : other = address
  · subst mine
    exact .inl ⟨rfl, congrArg Timer.next (store_self timer)⟩
  · refine .inr ⟨?_, congrArg Timer.next (store_other timer mine)⟩
    have inRest : other ∈ early ++ late := by simpa [mine] using member
    rw [← show before ++ after = early ++ late from same] at inRest
    exact split ▸ mem_without inRest

theorem present (callback : (self.timer address).cb.isSome) :
    ¬ (self.timer address).cb.isNone = true := by
  rw [Option.isNone_iff_eq_none, ← ne_eq, Option.ne_none_iff_isSome]
  exact callback

/-- `refresh` moves a timer to the reading and its period. -/
theorem Linked.refresh (linked : Linked self []) (address : Address) (now : BitVec 64) :
    ∃ after result, self.refresh address now = .ok (after, result) ∧
      after.tickled = self.tickled ∧ Keeps self after fun other next =>
        other = address ∧ (self.timer address).cb.isSome ∧
          next = now + (self.timer address).ms := by
  by_cases callback : (self.timer address).cb.isSome
  · obtain ⟨before, after, split, found, erased⟩ := linked.locate callback
    let without : TimerManager Callback := { self with timers := before ++ after }
    let timer : Timer Callback :=
      { self.timer address with next := now + (self.timer address).ms }
    have changed : without.setNext address timer.next = .ok (without.store address timer) :=
      (linked.erase split).setNext List.mem_cons_self _
    obtain ⟨early, late, -, inserted, kept⟩ := linked.move split (show timer.cb.isSome from callback)
    refine ⟨_, true, ?_, ?_, kept.linked, fun other member => ?_⟩
    · rw [TimerManager.refresh, if_neg (present callback), found]
      change (Except.ok { self with timers := self.timers.eraseIdx before.length } >>= fun self =>
        self.setNext address (now + (self.timer address).ms) >>= fun self =>
          pure ((self.insert address).1, true)) = _
      rw [erased]
      change (without.setNext address timer.next >>= fun self =>
        pure ((self.insert address).1, true)) = _
      rw [changed]
      change Except.ok (((without.store address timer).insert address).1, true) = _
      rw [inserted]
    · rfl
    · exact (kept.shifts other member).imp_left fun moved => ⟨moved.1, callback, moved.2⟩
  · have none : (self.timer address).cb.isNone := by simpa using callback
    exact ⟨self, false, if_pos none, rfl, .same linked⟩

/-- Some timer of the set is not due later. -/
def Behind (manager : TimerManager Callback) (next : BitVec 64) : Prop :=
  ∃ other ∈ manager.timers, (manager.timer other).next ≤ next

/-- What `addTimer` under the lock does with a timer that it puts into the set: one in front is
announced, unless something has been. -/
theorem Linked.addTimerLocked {before : TimerManager Callback} (linked : Linked self [address])
    (callback : (self.timer address).cb.isSome) (members : ∀ other ∈ self.timers,
      other ∈ before.timers ∧ (self.timer other).next = (before.timer other).next) :
    ∃ after atFront, self.addTimerLocked address = (after, atFront) ∧
      after.tickled = (self.tickled || atFront) ∧ Keeps before after fun _ next =>
        atFront = true ∨ self.tickled = true ∨ Behind before next := by
  obtain ⟨early, late, split, inserted, kept⟩ := linked.insert List.not_mem_nil callback
  refine ⟨{ self with
    timers := early ++ address :: late
    tickled := self.tickled || (early.length == 0 && !self.tickled) }, _, ?_, rfl,
    ⟨kept.members, kept.ordered⟩, fun other member => ?_⟩
  · rw [TimerManager.addTimerLocked, inserted]
  · by_cases mine : other = address
    · subst mine
      cases early with
      | nil => cases self.tickled <;> simp
      | cons first early =>
          have inSelf : first ∈ self.timers := split ▸ List.mem_cons_self
          have lt : self.less first other = true :=
            (List.pairwise_cons.mp kept.ordered).1 other (by simp)
          have next : (self.timer first).next ≤ (self.timer other).next := by
            rw [less, comparator_iff] at lt
            rw [BitVec.le_def]
            simp only at lt
            omega
          refine .inl (.inr (.inr ⟨first, (members first inSelf).1, ?_⟩))
          rw [← (members first inSelf).2]
          exact next
    · have inSelf : other ∈ self.timers := by
        rw [split]
        simpa [mine] using member
      exact .inr (members other inSelf)

/-- `reset` moves a timer, and announces it if it is to. -/
theorem Linked.resetLocked (linked : Linked self []) (address : Address) (ms : BitVec 64)
    (fromNow : Bool) (now : BitVec 64) : ∃ after result atFront,
      self.resetLocked address ms fromNow now = .ok (after, result, atFront) ∧
      after.tickled = (self.tickled || atFront) ∧ Keeps self after fun _ next =>
        atFront = true ∨ self.tickled = true ∨ Behind self next := by
  by_cases callback : (self.timer address).cb.isSome
  · obtain ⟨before, after, split, found, erased⟩ := linked.locate callback
    let without : TimerManager Callback := { self with timers := before ++ after }
    let start := if fromNow then now else (self.timer address).next - (self.timer address).ms
    let middle := without.store address { self.timer address with ms := ms }
    let moved := middle.store address { middle.timer address with next := start + ms }
    have out : Linked middle [address] := (linked.erase split).stored List.mem_cons_self _
    have changed : middle.setNext address (start + ms) = .ok moved :=
      out.setNext List.mem_cons_self _
    have still : (moved.timer address).cb.isSome := by
      simp only [moved, middle, store_self]
      exact callback
    have members : ∀ other ∈ moved.timers,
        other ∈ self.timers ∧ (moved.timer other).next = (self.timer other).next := by
      intro other member
      have apart : other ≠ address := fun same =>
        ((out.members other).mp member).2 (List.mem_singleton.mpr same)
      refine ⟨split ▸ mem_without member, ?_⟩
      simp only [moved, middle, store_other _ apart]
      rfl
    obtain ⟨result, atFront, added, tickled, kept⟩ :=
      (out.stored List.mem_cons_self _).addTimerLocked still members
    refine ⟨result, true, atFront, ?_, tickled, kept⟩
    rw [TimerManager.resetLocked, if_neg (present callback), found]
    change (Except.ok { self with timers := self.timers.eraseIdx before.length } >>= fun next =>
      (next.store address { next.timer address with ms := ms }).setNext address
        ((if fromNow then now else (next.timer address).next - (next.timer address).ms) + ms) >>=
          fun self => pure ((self.addTimerLocked address).1, true,
            (self.addTimerLocked address).2)) = _
    rw [erased]
    change (middle.setNext address (start + ms) >>= fun self =>
      pure ((self.addTimerLocked address).1, true, (self.addTimerLocked address).2)) = _
    rw [changed]
    change Except.ok ((moved.addTimerLocked address).1, true,
      (moved.addTimerLocked address).2) = _
    rw [added]
  · have none : (self.timer address).cb.isNone := by simpa using callback
    exact ⟨self, false, false, if_pos none, (Bool.or_false _).symm, .same linked⟩

/-- `addTimer` gives a new timer a place, and announces it if it is to. -/
theorem Linked.addTimer (linked : Linked self []) (now ms : BitVec 64) (cb : Callback)
    (recurring : Bool) (free : (self.timer address).cb = none) : ∃ after atFront,
      self.addTimer now ms cb recurring address = (after, atFront) ∧
      after.tickled = (self.tickled || atFront) ∧ Keeps self after fun _ next =>
        atFront = true ∨ self.tickled = true ∨ Behind self next := by
  have absent : address ∉ self.timers := fun member => by
    have callback := ((linked.members address).mp member).1
    rw [free] at callback
    exact Bool.noConfusion callback
  have made : Linked (self.store address ⟨recurring, ms, now + ms, some cb⟩) [address] := by
    refine ⟨fun other => ?_, linked.ordered_store _ absent⟩
    by_cases same : other = address
    · subst same
      simp [store, absent]
    · rw [store_other _ same]
      simpa [same, store] using linked.members other
  refine made.addTimerLocked (by rw [store_self]; rfl) fun other member => ⟨member, ?_⟩
  have apart : other ≠ address := by
    rintro rfl
    exact absent member
  rw [store_other _ apart]

/-- One round of the loop moves a recurring timer, and ends another. -/
theorem Linked.expire (linked : Linked self (address :: held)) (free : address ∉ held)
    (callback : (self.timer address).cb.isSome) (now : BitVec 64) : ∃ after,
      self.expire now address = .ok after ∧ Linked after held ∧ after.tickled = self.tickled ∧
      (∀ other ≠ address, after.timer other = self.timer other) ∧
      Shifts self after fun other next => other = address ∧
        (self.timer address).recurring = true ∧ next = now + (self.timer address).ms := by
  by_cases recurring : (self.timer address).recurring = true
  · let timer : Timer Callback :=
      { self.timer address with next := now + (self.timer address).ms }
    have changed : self.setNext address timer.next = .ok (self.store address timer) :=
      linked.setNext List.mem_cons_self _
    obtain ⟨early, late, split, inserted, kept⟩ :=
      (linked.stored List.mem_cons_self timer).insert free (by rw [store_self]; exact callback)
    refine ⟨{ self.store address timer with timers := early ++ address :: late }, ?_, kept, rfl,
      fun other apart => store_other timer apart, fun other member => ?_⟩
    · rw [TimerManager.expire, if_pos recurring]
      change (self.setNext address timer.next >>= fun self =>
        pure (self.insert address).1) = _
      rw [changed]
      change Except.ok ((self.store address timer).insert address).1 = _
      rw [inserted]
    · by_cases mine : other = address
      · subst mine
        exact .inl ⟨rfl, recurring, congrArg Timer.next (store_self timer)⟩
      · have inSelf : other ∈ (self.store address timer).timers := by
          rw [split]
          simpa [mine] using member
        exact .inr ⟨inSelf, congrArg Timer.next (store_other timer mine)⟩
  · refine ⟨self.store address { self.timer address with cb := none }, if_neg recurring,
      linked.drop, rfl, fun other apart => store_other _ apart, fun other member => ?_⟩
    refine .inr ⟨member, next_store ?_ other⟩
    rfl

/-- The loop of `listExpiredCb` moves the recurring timers. -/
theorem Linked.expireAll {expired : List Address} (linked : Linked self expired)
    (unique : expired.Nodup) (callbacks : ∀ address ∈ expired, (self.timer address).cb.isSome)
    (now : BitVec 64) (cbs : List (Option Callback)) : ∃ after result,
      expireAll now self cbs expired = .ok (after, result) ∧ after.tickled = self.tickled ∧
      Keeps self after fun other next => other ∈ expired ∧
        (self.timer other).recurring = true ∧ next = now + (self.timer other).ms := by
  induction expired generalizing self cbs with
  | nil => exact ⟨self, cbs, rfl, rfl, .same linked⟩
  | cons address rest ih =>
      obtain ⟨free, unique⟩ := List.nodup_cons.mp unique
      obtain ⟨middle, one, linked, told, others, moved⟩ :=
        linked.expire free (callbacks address List.mem_cons_self) now
      have same : ∀ other ∈ rest, middle.timer other = self.timer other := fun other member =>
        others other fun isAddress => free (isAddress ▸ member)
      obtain ⟨after, result, all, told', kept⟩ := ih linked unique (fun other member => by
        rw [same other member]
        exact callbacks other (List.mem_cons_of_mem _ member)) (cbs ++ [(self.timer address).cb])
      refine ⟨after, result, ?_, told'.trans told, kept.linked, fun other member => ?_⟩
      · rw [TimerManager.expireAll, one]
        exact all
      · obtain ⟨inRest, recurring, next⟩ | ⟨inMiddle, next⟩ := kept.shifts other member
        · rw [same other inRest] at recurring next
          exact .inl ⟨List.mem_cons_of_mem _ inRest, recurring, next⟩
        · rw [next]
          obtain ⟨isAddress, recurring, next⟩ | before := moved other inMiddle
          · subst isAddress
            exact .inl ⟨List.mem_cons_self, recurring, next⟩
          · exact .inr before

/-- What `listExpiredCb` takes out of the set. -/
def expired (self : TimerManager Callback) (now : BitVec 64) (nowTimer : Address) : List Address :=
  match self.timers with
  | [] => []
  | front :: _ =>
      if (self.detectClockRollover now).2 then self.timers
      else if now < (self.timer front).next then []
      else self.timers.take (self.passed now nowTimer)

/-- The section of `listExpiredCb` goes on with the callbacks of the timers that it takes. -/
theorem listExpiredLocked_eq {front : Address} {rest : List Address} {now : BitVec 64}
    {nowTimer : Address} (timers : self.timers = front :: rest) :
    self.listExpiredLocked now nowTimer =
      if !(self.detectClockRollover now).2 && now < (self.timer front).next then
        .ok ((self.detectClockRollover now).1, [])
      else
        let it := if (self.detectClockRollover now).2 then self.timers.length
          else self.passed now nowTimer
        expireAll now { (self.detectClockRollover now).1 with timers := self.timers.drop it } []
          (self.timers.take it) := by
  rw [listExpiredLocked]
  split
  case h_1 none => cases timers.symm.trans none
  case h_2 head tail some =>
    obtain ⟨rfl, rfl⟩ := List.cons.inj (timers.symm.trans some)
    rfl

/-- `listExpiredCb` moves the recurring timers among those that have expired. -/
theorem Linked.listExpiredLocked (linked : Linked self []) (now : BitVec 64)
    (nowTimer : Address) : ∃ after result,
      self.listExpiredLocked now nowTimer = .ok (after, result) ∧
      after.tickled = self.tickled ∧
      Keeps self after fun other next => other ∈ self.expired now nowTimer ∧
        (self.timer other).recurring = true ∧ next = now + (self.timer other).ms := by
  have taken (it : Nat) : ∃ after result, TimerManager.expireAll now
      { (self.detectClockRollover now).1 with timers := self.timers.drop it } []
        (self.timers.take it) = .ok (after, result) ∧ after.tickled = self.tickled ∧
      Keeps self after fun other next => other ∈ self.timers.take it ∧
        (self.timer other).recurring = true ∧ next = now + (self.timer other).ms := by
    have unique := linked.nodup
    rw [← List.take_append_drop it self.timers] at unique
    have out : Linked { (self.detectClockRollover now).1 with timers := self.timers.drop it }
        (self.timers.take it) := by
      refine ⟨fun other => ?_, linked.ordered.sublist (List.drop_sublist it _)⟩
      have was := linked.members other
      rw [← List.take_append_drop it self.timers, List.mem_append] at was
      constructor
      · intro member
        exact ⟨(was.mp (.inr member)).1, fun early =>
          List.disjoint_of_nodup_append unique early member⟩
      · rintro ⟨callback, late⟩
        exact (was.mpr ⟨callback, List.not_mem_nil⟩).resolve_left late
    obtain ⟨after, result, all, told, kept⟩ := out.expireAll (unique.sublist
      (List.sublist_append_left _ _)) (fun other member =>
        ((linked.members other).mp (List.mem_of_mem_take member)).1) now []
    refine ⟨after, result, all, told, kept.linked, fun other member => ?_⟩
    exact (kept.shifts other member).imp_right fun before =>
      ⟨List.mem_of_mem_drop before.1, before.2⟩
  cases timers : self.timers with
  | nil => exact ⟨self, [], by rw [TimerManager.listExpiredLocked, timers]; rfl, rfl, .same linked⟩
  | cons front rest =>
      rw [listExpiredLocked_eq timers]
      have all : self.expired now nowTimer =
          if (self.detectClockRollover now).2 = true then self.timers.take self.timers.length
          else if now < (self.timer front).next then []
          else self.timers.take (self.passed now nowTimer) := by
        rw [TimerManager.expired, List.take_length, timers]
      rw [all]
      by_cases rollover : (self.detectClockRollover now).2 = true
      · rw [if_neg (by simp [rollover])]
        simp only [rollover, if_true]
        exact taken self.timers.length
      · rw [if_neg rollover]
        by_cases early : now < (self.timer front).next
        · rw [if_pos (by simp [rollover, early]), if_pos early]
          exact ⟨_, [], rfl, rfl, ⟨linked.members, linked.ordered⟩,
            fun other member => .inr ⟨member, rfl⟩⟩
        · rw [if_neg (by simp [early]), if_neg early]
          simp only [rollover]
          exact taken (self.passed now nowTimer)

end Operations

section Runs

open Std.Interleaving

/-- Every allowed call returns and keeps the set. -/
theorem Linked.call (linked : Linked self []) {op : Op Callback} (allowed : self.Allowed op) :
    ∃ after, self.call op = .ok after ∧ Linked after [] := by
  cases op with
  | addTimer now ms cb recurring address =>
      obtain ⟨after, atFront, added, -, kept⟩ := linked.addTimer now ms cb recurring allowed
      exact ⟨after, by rw [TimerManager.call, added]; rfl, kept.linked⟩
  | cancel address =>
      obtain ⟨after, result, cancelled, -, kept⟩ := linked.cancel address
      exact ⟨after, by rw [TimerManager.call, cancelled]; rfl, kept.linked⟩
  | refresh address now =>
      obtain ⟨after, result, refreshed, -, kept⟩ := linked.refresh address now
      exact ⟨after, by rw [TimerManager.call, refreshed]; rfl, kept.linked⟩
  | reset address ms fromNow now =>
      rw [TimerManager.call, TimerManager.reset]
      split
      · exact ⟨self, rfl, linked⟩
      · obtain ⟨after, result, atFront, moved, -, kept⟩ :=
          linked.resetLocked address ms fromNow now
        exact ⟨after, by rw [moved]; rfl, kept.linked⟩
  | listExpiredCb now nowTimer =>
      rw [TimerManager.call, TimerManager.listExpiredCb]
      split
      · exact ⟨self, rfl, linked⟩
      · obtain ⟨after, result, listed, -, kept⟩ := linked.listExpiredLocked now nowTimer
        exact ⟨after, by rw [listed]; rfl, kept.linked⟩
  | getNextTimer now => exact ⟨_, rfl, linked.members, linked.ordered⟩

theorem Linked.fresh (now : BitVec 64) : Linked (fresh now : TimerManager Callback) [] where
  members := fun address => by simp [TimerManager.fresh]
  ordered := .nil

theorem Linked.of_runs {now : BitVec 64} (run : Runs step Allowed (TimerManager.fresh now) self) :
    Linked self [] := by
  refine @Runs.invariant _ _ _ _ _ _ (fun state : TimerManager Callback => Linked state [])
    (fun state op next linked allowed taken => ?_) run (.fresh now)
  obtain ⟨after, called, kept⟩ := linked.call allowed
  rw [step, called] at taken
  cases taken
  exact kept

/-- Each timer with a callback is in the set once, and no other; the set is in order, and each
timer in it is found. -/
structure Represented (manager : TimerManager Callback) : Prop where
  once : ∀ address, manager.timers.count address =
    if (manager.timer address).cb.isSome then 1 else 0
  ordered : Ordered manager.less manager.timers
  located : ∀ address ∈ manager.timers, ∃ it, manager.find address = some it ∧
    manager.timers[it]? = some address

theorem Linked.represented (linked : Linked self []) : Represented self where
  once := fun address => by
    have member := linked.members address
    simp only [List.not_mem_nil, not_false_eq_true, and_true] at member
    rw [linked.nodup.count, if_congr member rfl rfl]
  ordered := linked.ordered
  located := fun address member => by
    obtain ⟨before, after, split, found, -⟩ := linked.find member
    refine ⟨before.length, found, ?_⟩
    rw [split, List.getElem?_append_right (Nat.le_refl _), Nat.sub_self]
    rfl

/-- After any calls the set is in order, and the next call neither erases the end of the set nor
writes the `m_next` of a timer in it. -/
theorem represented_and_safe {now : BitVec 64}
    (run : Runs step Allowed (TimerManager.fresh now) self) : Represented self ∧
      ∀ op, self.Allowed op → ∃ after, self.call op = .ok after :=
  ⟨(Linked.of_runs run).represented, fun _ allowed =>
    have ⟨after, called, _⟩ := (Linked.of_runs run).call allowed
    ⟨after, called⟩⟩

/-- Two timers with the same deadline, one of which is refreshed; the other one expires. -/
theorem represented_and_safe_two : ∃ self : TimerManager Nat,
    Runs step Allowed (TimerManager.fresh 5) self ∧ self.timers = [3] ∧
      (self.timer 3).next = 17 ∧ Represented self ∧
      ∀ op, self.Allowed op → ∃ after, self.call op = .ok after := by
  let ops : List (Op Nat) := [.addTimer 5 10 1 false 1, .addTimer 5 10 2 true 3, .refresh 3 7,
    .listExpiredCb 15 9]
  have reached : (replay step (fun self op => decide (self.Allowed op)) ops
      (TimerManager.fresh 5)).map (fun self => (self.timers, (self.timer 3).next)) =
      some ([3], 17) := by decide
  obtain ⟨self, taken, shown⟩ := Option.map_eq_some_iff.mp reached
  have run : Runs step Allowed (TimerManager.fresh 5) self :=
    Runs.of_replay (fun _ _ => of_decide_eq_true) taken
  obtain ⟨timers, next⟩ := Prod.ext_iff.mp shown
  exact ⟨self, run, timers, next, represented_and_safe run⟩

end Runs

end Xten.TimerManager
