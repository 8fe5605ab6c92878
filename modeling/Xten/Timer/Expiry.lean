import Xten.Timer.Representation

/-!
# The timers that `listExpiredCb` takes

Those that are due, or all of them once the clock has gone back, in the order of the set.
-/

namespace Xten.TimerManager

open Timer (Address)
open Std.OrderedSet (Linear Ordered)
open Std.Interleaving (Runs replay)

variable {Callback : Type} {self after : TimerManager Callback} {address nowTimer : Address}
  {now : BitVec 64}

/-- A timer is to be taken. -/
def isDue (self : TimerManager Callback) (now : BitVec 64) (address : Address) : Bool :=
  (self.detectClockRollover now).2 || (self.timer address).next ≤ now

/-- What becomes of a timer that is taken. -/
def renewed (now : BitVec 64) (timer : Timer Callback) : Timer Callback :=
  if timer.recurring then { timer with next := now + timer.ms } else { timer with cb := none }

/-- What `listExpiredCb` makes of the timers when it appends `cbs`. -/
structure TakesDue (before after : TimerManager Callback) (now : BitVec 64)
    (cbs : List (Option Callback)) : Prop where
  /-- The callbacks are those of the due timers, each once, by `m_next` and address. -/
  exact : ∃ due, (∀ address, address ∈ due ↔
      (before.timer address).cb.isSome ∧ before.isDue now address) ∧
    Ordered before.less due ∧ due.Nodup ∧ cbs = due.map fun address => (before.timer address).cb
  /-- The other timers are as before. -/
  untouched : ∀ address, ¬ (address ∈ before.timers ∧ before.isDue now address) →
    after.timer address = before.timer address ∧
      (address ∈ after.timers ↔ address ∈ before.timers)
  recurring : ∀ address ∈ before.timers, before.isDue now address →
    (before.timer address).recurring = true → address ∈ after.timers ∧
      after.timer address =
        { before.timer address with next := now + (before.timer address).ms }
  oneShot : ∀ address ∈ before.timers, before.isDue now address →
    (before.timer address).recurring = false → address ∉ after.timers ∧
      after.timer address = { before.timer address with cb := none }
  represented : Represented after

theorem Represented.linked (represented : Represented self) : Linked self [] where
  members := fun address => by
    have count := represented.once address
    rw [← List.count_pos_iff, count]
    split
    case isTrue some => simp [some]
    case isFalse none => simp [none]
  ordered := represented.ordered

section Places

/-- An earlier timer of the set is due whenever a later one is. -/
theorem isDue_closed (other third : Address) (sooner : self.less other third = true)
    (due : self.isDue now third = true) : self.isDue now other = true := by
  have compared : (self.timer other).next.toNat < (self.timer third).next.toNat ∨
      (self.timer other).next.toNat = (self.timer third).next.toNat ∧ other < third :=
    (comparator_iff _ _).mp sooner
  rw [isDue, Bool.or_eq_true, decide_eq_true_eq, BitVec.le_def] at due ⊢
  apply due.imp_right
  omega

/-- The scan behind `now_timer` ends where the due timers do. -/
theorem take_passed (linked : Linked self []) (free : (self.timer nowTimer).cb = none) :
    self.timers.take (self.passed now nowTimer) =
      self.timers.takeWhile fun other => (self.timer other).next ≤ now := by
  have absent : nowTimer ∉ self.timers := fun member => by
    have callback := ((linked.members nowTimer).mp member).1
    rw [free] at callback
    exact Bool.noConfusion callback
  have ordered := linked.ordered_store { next := now } absent
  refine Eq.trans (ordered.take_lowerBound (less_linear _) _) ?_
  apply Std.OrderedSet.takeWhile_congr
  intro other member
  have apart : other ≠ nowTimer := fun same => absent (same ▸ member)
  have sooner : (self.store nowTimer { next := now }).less other nowTimer = true ↔
      (self.timer other).next.toNat < now.toNat ∨
        (self.timer other).next.toNat = now.toNat ∧ other < nowTimer := by
    rw [less, comparator_iff, store_self, store_other _ apart]
  rw [Bool.eq_iff_iff, Bool.or_eq_true, sooner, decide_eq_true_eq, decide_eq_true_eq,
    BitVec.le_def, ← BitVec.toNat_inj]
  omega

/-- What is taken out of the set are the due timers. -/
theorem expired_eq (linked : Linked self []) (free : (self.timer nowTimer).cb = none) :
    self.expired now nowTimer = self.timers.filter (self.isDue now) := by
  rw [← linked.ordered.takeWhile_eq_filter isDue_closed, expired]
  cases timers : self.timers with
  | nil => rfl
  | cons front rest =>
      dsimp only
      by_cases rollover : (self.detectClockRollover now).2 = true
      · have all : self.isDue now = fun _ => true := funext fun other => by
          rw [isDue, rollover, Bool.true_or]
        rw [if_pos rollover, all]
        induction front :: rest with
        | nil => rfl
        | cons first later ih => exact congrArg (first :: ·) ih
      · have early : self.isDue now = fun other => decide ((self.timer other).next ≤ now) :=
          funext fun other => by rw [isDue, eq_false_of_ne_true rollover, Bool.false_or]
        rw [if_neg rollover, early]
        split
        case isTrue later =>
          rw [List.takeWhile_cons_of_neg]
          simpa using later
        case isFalse =>
          rw [← timers]
          exact take_passed linked free

end Places

section Loop

/-- One round of the loop writes the timer. -/
theorem expire_timer (expired : self.expire now address = .ok after) (other : Address) :
    after.timer other =
      if other = address then renewed now (self.timer address) else self.timer other := by
  have written (timer : Timer Callback) : (self.store address timer).timer other =
      if other = address then timer else self.timer other := by
    by_cases same : other = address
    · rw [if_pos same, same, store_self]
    · rw [if_neg same, store_other _ same]
  rw [expire] at expired
  rw [renewed]
  split at expired
  case isTrue recurring =>
    rw [if_pos recurring, ← written, setNext] at *
    split at expired
    · cases expired
    · cases expired
      rfl
  case isFalse once =>
    cases expired
    rw [if_neg once]
    exact written _

/-- The loop appends the callbacks and writes each of the timers once. -/
theorem expireAll_timer {expired : List Address} {cbs result : List (Option Callback)}
    (unique : expired.Nodup) (all : expireAll now self cbs expired = .ok (after, result)) :
    result = cbs ++ (expired.map fun address => (self.timer address).cb) ∧
      ∀ other, after.timer other =
        if other ∈ expired then renewed now (self.timer other) else self.timer other := by
  induction expired generalizing self cbs with
  | nil =>
      cases all
      exact ⟨(List.append_nil _).symm, fun _ => rfl⟩
  | cons address rest ih =>
      obtain ⟨free, unique⟩ := List.nodup_cons.mp unique
      rw [expireAll] at all
      cases one : self.expire now address with
      | error fault =>
          rw [one] at all
          cases all
      | ok middle =>
          rw [one] at all
          obtain ⟨told, written⟩ := ih unique all
          have timer := expire_timer one
          have same : ∀ other ∈ rest, middle.timer other = self.timer other :=
            fun other member => by
              rw [timer, if_neg]
              rintro rfl
              exact free member
          constructor
          · rw [told, List.append_assoc, List.map_cons]
            refine congrArg (fun later => cbs ++ (_ :: later)) (List.map_congr_left ?_)
            exact fun other member => congrArg Timer.cb (same other member)
          · intro other
            rw [written, timer]
            by_cases isAddress : other = address
            · subst isAddress
              simp [free]
            · simp [isAddress]

/-- The section of `listExpiredCb` appends the callbacks of what it takes out of the set, and
writes these timers. -/
theorem listExpiredLocked_timer {cbs : List (Option Callback)} (linked : Linked self [])
    (listed : self.listExpiredLocked now nowTimer = .ok (after, cbs)) :
    cbs = ((self.expired now nowTimer).map fun address => (self.timer address).cb) ∧
      ∀ other, after.timer other = if other ∈ self.expired now nowTimer
        then renewed now (self.timer other) else self.timer other := by
  have unique := linked.nodup
  cases timers : self.timers with
  | nil =>
      rw [listExpiredLocked, timers] at listed
      cases listed
      simp [expired, timers]
  | cons front rest =>
      rw [listExpiredLocked_eq timers] at listed
      have taken : self.expired now nowTimer =
          if (self.detectClockRollover now).2 = true then self.timers
          else if now < (self.timer front).next then []
          else self.timers.take (self.passed now nowTimer) := by
        rw [expired, timers]
      by_cases rollover : (self.detectClockRollover now).2 = true
      · rw [if_pos rollover] at taken
        simp only [rollover, Bool.not_true, Bool.false_and, Bool.false_eq_true, if_false, if_true,
          List.take_length] at listed
        rw [taken]
        exact expireAll_timer unique listed
      · rw [if_neg rollover] at taken
        simp only [rollover, Bool.not_false, Bool.true_and, decide_eq_true_eq,
          Bool.false_eq_true, if_false] at listed
        by_cases early : now < (self.timer front).next
        · rw [if_pos early] at listed taken
          rw [taken]
          cases listed
          exact ⟨rfl, fun _ => rfl⟩
        · rw [if_neg early] at listed taken
          rw [taken]
          exact expireAll_timer (unique.sublist (List.take_sublist _ _)) listed

end Loop

/-- `listExpiredCb` takes the timers that are due, or all of them after a rollover. -/
theorem takes_due (represented : Represented self) (free : (self.timer nowTimer).cb = none) :
    ∃ after cbs, self.listExpiredCb now nowTimer = .ok (after, cbs) ∧
      TakesDue self after now cbs := by
  have linked := represented.linked
  have listed : ∃ after cbs, self.listExpiredCb now nowTimer = .ok (after, cbs) ∧
      Linked after [] ∧
      cbs = ((self.expired now nowTimer).map fun address => (self.timer address).cb) ∧
      ∀ other, after.timer other = if other ∈ self.expired now nowTimer
        then renewed now (self.timer other) else self.timer other := by
    rw [listExpiredCb]
    split
    case isTrue none =>
      have timers := List.isEmpty_iff.mp none
      exact ⟨self, [], rfl, linked, by simp [expired, timers], by simp [expired, timers]⟩
    case isFalse =>
      obtain ⟨after, cbs, listed, -, kept⟩ := linked.listExpiredLocked now nowTimer
      exact ⟨after, cbs, listed, kept.linked, listExpiredLocked_timer linked listed⟩
  obtain ⟨after, cbs, listed, still, told, written⟩ := listed
  rw [expired_eq linked free] at told written
  have member : ∀ address, address ∈ self.timers ↔ (self.timer address).cb.isSome :=
    fun address => by simpa using linked.members address
  have memberAfter : ∀ address, address ∈ after.timers ↔ (after.timer address).cb.isSome :=
    fun address => by simpa using still.members address
  refine ⟨after, cbs, listed, ?_⟩
  constructor
  case exact =>
    refine ⟨_, fun address => ?_, linked.ordered.sublist List.filter_sublist,
      linked.nodup.sublist List.filter_sublist, told⟩
    rw [List.mem_filter, member]
  case untouched =>
    intro address late
    have same : after.timer address = self.timer address := by
      rw [written, if_neg fun taken => late (List.mem_filter.mp taken)]
    exact ⟨same, by rw [memberAfter, member, same]⟩
  case recurring =>
    intro address was due recurring
    have renews : after.timer address = renewed now (self.timer address) := by
      rw [written, if_pos (List.mem_filter.mpr ⟨was, due⟩)]
    rw [renewed, if_pos recurring] at renews
    rw [memberAfter, renews]
    exact ⟨(member address).mp was, rfl⟩
  case oneShot =>
    intro address was due once
    have renews : after.timer address = renewed now (self.timer address) := by
      rw [written, if_pos (List.mem_filter.mpr ⟨was, due⟩)]
    rw [renewed, if_neg (by rw [once]; exact Bool.false_ne_true)] at renews
    rw [memberAfter, renews]
    exact ⟨Bool.false_ne_true, rfl⟩
  case represented => exact still.represented

/-- Two timers with one deadline, the first of them recurring, and a later one. -/
def twoOfThree : TimerManager Nat :=
  (replay step (fun self op => decide (self.Allowed op))
    [.addTimer 5 10 1 true 1, .addTimer 5 10 2 false 3, .addTimer 5 30 3 false 2]
    (fresh 5)).get (by decide)

theorem takes_due_two : ∃ after cbs, twoOfThree.listExpiredCb 15 2000 = .ok (after, cbs) ∧
    TakesDue twoOfThree after 15 cbs := by
  have run : Runs step Allowed (fresh 5) twoOfThree :=
    .of_replay (fun _ _ => of_decide_eq_true) (Option.some_get _).symm
  exact takes_due (Linked.of_runs run).represented (by decide)

end Xten.TimerManager
