import Xten.Timer.Expiry

/-!
# Delays

When a timer has been started last, with which delay, and which timers `listExpiredCb` has
returned, is kept beside the manager. A start is the reading that `addTimer`, `refresh` or `reset`
counts from, or the one at which `listExpiredCb` puts a recurring timer back.
-/

namespace Xten.TimerManager

open Timer (Address)
open Std.Interleaving (Runs replay)

variable {Callback : Type} {self after : TimerManager Callback} {address other : Address}
  {now ms : BitVec 64}

section Timers

/-- What a call makes of a timer. -/
def written (self : TimerManager Callback) (op : Op Callback) (address : Address) :
    Timer Callback :=
  let timer := self.timer address
  match op with
  | .addTimer now ms cb recurring new =>
      if address = new then ⟨recurring, ms, now + ms, some cb⟩ else timer
  | .cancel old => if address = old then { timer with cb := none } else timer
  | .refresh old now =>
      if address = old ∧ timer.cb.isSome then { timer with next := now + timer.ms } else timer
  | .reset old ms fromNow now =>
      if address = old ∧ timer.cb.isSome then
        { timer with ms := ms, next := (if fromNow then now else timer.next - timer.ms) + ms }
      else
        timer
  | .listExpiredCb now nowTimer =>
      if address ∈ self.expired now nowTimer then renewed now timer else timer
  | .getNextTimer _ => timer

theorem store_timer (timer : Timer Callback) :
    (self.store address timer).timer other = if other = address then timer else self.timer other := by
  by_cases same : other = address
  · rw [if_pos same, same, store_self]
  · rw [if_neg same, store_other _ same]

theorem cancel_timer {result : Bool} (cancelled : self.cancel address = .ok (after, result)) :
    after.timer other = self.written (.cancel address) other := by
  rw [written]
  rw [cancel] at cancelled
  split at cancelled
  case isTrue =>
    dsimp only at cancelled
    generalize find _ address = it at cancelled
    cases it with
    | none => cases cancelled
    | some it =>
        cases cancelled
        refine (store_timer _).trans ?_
        split
        case isTrue same => rw [same]
        case isFalse => rfl
  case isFalse silent =>
    cases cancelled
    split
    case isTrue same =>
      have gone : (self.timer address).cb = none := by simpa using silent
      rw [same, ← gone]
    case isFalse => rfl

theorem setNext_timer {next : BitVec 64} (moved : self.setNext address next = .ok after) :
    after.timer other =
      if other = address then { self.timer address with next := next } else self.timer other := by
  rw [setNext] at moved
  split at moved
  · cases moved
  · cases moved
    exact store_timer _

theorem refresh_timer (linked : Linked self []) {result : Bool}
    (refreshed : self.refresh address now = .ok (after, result)) :
    after.timer other = self.written (.refresh address now) other := by
  rw [written]
  by_cases callback : (self.timer address).cb.isSome
  · obtain ⟨before, behind, -, found, -⟩ := linked.locate callback
    rw [refresh, if_neg (present callback), found] at refreshed
    cases moved : ({ self with timers := self.timers.eraseIdx before.length } :
        TimerManager Callback).setNext address (now + (self.timer address).ms) with
    | error fault =>
        change (setNext _ _ _ >>= _) = _ at refreshed
        rw [moved] at refreshed
        cases refreshed
    | ok middle =>
        change (setNext _ _ _ >>= _) = _ at refreshed
        rw [moved] at refreshed
        cases refreshed
        refine (setNext_timer moved).trans ?_
        by_cases same : other = address
        · rw [if_pos same, if_pos ⟨same, same ▸ callback⟩, same]
        · rw [if_neg same, if_neg fun both => same both.1]
  · rw [refresh, if_pos (by simpa using callback)] at refreshed
    cases refreshed
    rw [if_neg]
    rintro ⟨rfl, some⟩
    exact callback some

theorem resetLocked_timer (linked : Linked self []) {fromNow result atFront : Bool}
    (reset : self.resetLocked address ms fromNow now = .ok (after, result, atFront)) :
    after.timer other = self.written (.reset address ms fromNow now) other := by
  rw [written]
  by_cases callback : (self.timer address).cb.isSome
  · obtain ⟨before, behind, -, found, -⟩ := linked.locate callback
    let middle : TimerManager Callback :=
      { self with timers := self.timers.eraseIdx before.length }.store address
        { self.timer address with ms := ms }
    let start := if fromNow then now else (self.timer address).next - (self.timer address).ms
    rw [resetLocked, if_neg (present callback), found] at reset
    change (middle.setNext address (start + ms) >>= _) = _ at reset
    cases moved : middle.setNext address (start + ms) with
    | error fault =>
        rw [moved] at reset
        cases reset
    | ok last =>
        rw [moved] at reset
        cases reset
        refine (setNext_timer moved).trans ?_
        by_cases same : other = address
        · rw [if_pos same, if_pos ⟨same, same ▸ callback⟩, store_self, same]
        · rw [if_neg same, if_neg fun both => same both.1]
          exact store_other _ same
  · rw [resetLocked, if_pos (by simpa using callback)] at reset
    cases reset
    rw [if_neg]
    rintro ⟨rfl, some⟩
    exact callback some

/-- Where the period stays and the start too, nothing is written. -/
theorem written_reset_same {fromNow : Bool}
    (same : (decide (ms = (self.timer address).ms) && !fromNow) = true) :
    self.written (.reset address ms fromNow now) other = self.timer other := by
  rw [Bool.and_eq_true, decide_eq_true_eq, Bool.not_eq_true'] at same
  obtain ⟨rfl, rfl⟩ := same
  rw [written]
  split
  case isTrue both =>
    obtain ⟨rfl, -⟩ := both
    simp [BitVec.sub_add_cancel]
  case isFalse => rfl

/-- What a call leaves is what the operation leaves. -/
theorem of_called {Result : Type} {result : Except Fault (TimerManager Callback × Result)}
    (called : (do return (← result).1) = Except.ok after) : ∃ value, result = .ok (after, value) := by
  cases result with
  | error fault => cases called
  | ok result =>
      cases called
      exact ⟨result.2, rfl⟩

/-- What a call writes. -/
theorem call_timer (linked : Linked self []) {op : Op Callback}
    (called : self.call op = .ok after) (other : Address) :
    after.timer other = self.written op other := by
  cases op with
  | addTimer now ms cb recurring address =>
      cases called
      exact store_timer _
  | cancel address =>
      obtain ⟨result, cancelled⟩ := of_called called
      exact cancel_timer cancelled
  | refresh address now =>
      obtain ⟨result, refreshed⟩ := of_called called
      exact refresh_timer linked refreshed
  | reset address ms fromNow now =>
      obtain ⟨result, moved⟩ := of_called called
      rw [reset] at moved
      split at moved
      case isTrue same =>
        cases moved
        exact (written_reset_same same).symm
      case isFalse => exact resetLocked_timer linked moved
  | listExpiredCb now nowTimer =>
      obtain ⟨cbs, listed⟩ := of_called called
      rw [listExpiredCb] at listed
      split at listed
      case isTrue none =>
        cases listed
        rw [written, expired, List.isEmpty_iff.mp none]
        exact (if_neg List.not_mem_nil).symm
      case isFalse => exact (listExpiredLocked_timer linked listed).2 other
  | getNextTimer now =>
      cases called
      rfl

end Timers

/-- The reading at which a timer has been started, and its delay, in milliseconds. -/
structure Start where
  reading : Nat
  delay : Nat
deriving DecidableEq, Repr

/-- A timer that `listExpiredCb` has returned at a reading. -/
structure Return where
  address : Address
  now : Nat
  start : Start
deriving DecidableEq, Repr

/-- The manager, the last start of every timer, and what `listExpiredCb` has returned. -/
structure Watched (Callback : Type) where
  manager : TimerManager Callback
  started : Address → Start
  returned : List Return

namespace Watched

variable (watched : Watched Callback)

/-- The start of a timer by a call, if it starts it. -/
def restart (op : Op Callback) (address : Address) : Option Start :=
  let timer := watched.manager.timer address
  let start := watched.started address
  match op with
  | .addTimer now ms _ _ new => if address = new then some ⟨now.toNat, ms.toNat⟩ else none
  | .refresh old now =>
      if address = old ∧ timer.cb.isSome then some ⟨now.toNat, start.delay⟩ else none
  | .reset old ms fromNow now =>
      if address = old ∧ timer.cb.isSome then
        some ⟨if fromNow then now.toNat else start.reading, ms.toNat⟩
      else
        none
  | .listExpiredCb now nowTimer =>
      if address ∈ watched.manager.expired now nowTimer ∧ timer.recurring then
        some ⟨now.toNat, start.delay⟩
      else
        none
  | .cancel _ | .getNextTimer _ => none

/-- The timers whose callbacks a call returns. -/
def returns : Op Callback → List Return
  | .listExpiredCb now nowTimer => (watched.manager.expired now nowTimer).map fun address =>
      ⟨address, now.toNat, watched.started address⟩
  | _ => []

def step (op : Op Callback) : Option (Watched Callback) :=
  (watched.manager.call op).toOption.map fun after =>
    ⟨after, fun address => (watched.restart op address).getD (watched.started address),
      watched.returned ++ watched.returns op⟩

/-- `TimerManager()`. -/
def fresh (now : BitVec 64) : Watched Callback :=
  ⟨.fresh now, fun _ => ⟨0, 0⟩, []⟩

/-- No timer has been returned before its delay had passed. -/
def OnTime : Prop :=
  ∀ one ∈ watched.returned, one.start.reading + one.start.delay ≤ one.now

/-- Addresses are given out as they should be, and the clock does not jump back by more than an
hour from one `listExpiredCb` to the next. -/
def Steady (op : Op Callback) : Prop :=
  watched.manager.Allowed op ∧
    match op with
    | .listExpiredCb now _ => watched.manager.previouseTime.toNat ≤ now.toNat + 3600000
    | _ => True

instance (op : Op Callback) : Decidable (watched.Steady op) :=
  match op with
  | .listExpiredCb now _ =>
      inferInstanceAs (Decidable (_ ∧ watched.manager.previouseTime.toNat ≤ now.toNat + 3600000))
  | .addTimer _ _ _ _ _ | .cancel _ | .refresh _ _ | .reset _ _ _ _ | .getNextTimer _ =>
      inferInstanceAs (Decidable (_ ∧ True))

/-- No deadline is beyond 64 bits, and in the first hour of the clock it does not go back. -/
def Within (op : Op Callback) : Prop :=
  (∀ address start, watched.restart op address = some start →
    start.reading + start.delay < 2 ^ 64) ∧
  match op with
  | .listExpiredCb now _ => 3600000 ≤ watched.manager.previouseTime.toNat ∨
      watched.manager.previouseTime.toNat ≤ now.toNat
  | _ => True

end Watched

section Deadlines

variable {watched : Watched Callback}

/-- The deadlines are what has been asked for. -/
structure Kept (watched : Watched Callback) : Prop where
  linked : Linked watched.manager []
  next : ∀ address, (watched.manager.timer address).cb.isSome →
    (watched.manager.timer address).next.toNat =
      (watched.started address).reading + (watched.started address).delay
  ms : ∀ address, (watched.manager.timer address).cb.isSome →
    (watched.manager.timer address).ms.toNat = (watched.started address).delay
  onTime : watched.OnTime

/-- What is kept of a call of `listExpiredCb` are the timers whose callbacks it appends. -/
theorem callbacks_of_returns {nowTimer : Address} {cbs : List (Option Callback)}
    (linked : Linked watched.manager [])
    (listed : watched.manager.listExpiredCb now nowTimer = .ok (after, cbs)) :
    cbs = (watched.returns (.listExpiredCb now nowTimer)).map fun one =>
      (watched.manager.timer one.address).cb := by
  rw [Watched.returns, List.map_map]
  rw [listExpiredCb] at listed
  split at listed
  case isTrue none =>
    cases listed
    rw [expired, List.isEmpty_iff.mp none]
    rfl
  case isFalse => exact (listExpiredLocked_timer linked listed).1

theorem toNat_add {reading delay : BitVec 64} (within : reading.toNat + delay.toNat < 2 ^ 64) :
    (reading + delay).toNat = reading.toNat + delay.toNat := by
  rw [BitVec.toNat_add, Nat.mod_eq_of_lt within]

/-- A timer that `listExpiredCb` takes is due, if the clock has not gone back too far. -/
theorem due_of_expired {nowTimer : Address} (linked : Linked self [])
    (free : (self.timer nowTimer).cb = none)
    (steady : self.previouseTime.toNat ≤ now.toNat + 3600000)
    (forward : 3600000 ≤ self.previouseTime.toNat ∨ self.previouseTime.toNat ≤ now.toNat)
    (taken : address ∈ self.expired now nowTimer) :
    (self.timer address).cb.isSome ∧ (self.timer address).next.toNat ≤ now.toNat := by
  rw [expired_eq linked free, List.mem_filter] at taken
  refine ⟨((linked.members address).mp taken.1).1, ?_⟩
  have ahead : (self.detectClockRollover now).2 = false := by
    rw [detectClockRollover, Bool.and_eq_false_iff, decide_eq_false_iff_not,
      decide_eq_false_iff_not, BitVec.lt_def, BitVec.lt_def]
    have hour : (60 * 60 * 1000 : BitVec 64).toNat = 3600000 := by decide
    have := self.previouseTime.isLt
    rw [BitVec.toNat_sub, hour]
    omega
  have due := taken.2
  rwa [isDue, ahead, Bool.false_or, decide_eq_true_eq, BitVec.le_def] at due

/-- What is left with a callback has been started, or is as before. -/
theorem Kept.deadline (kept : Kept watched) {op : Op Callback} (within : watched.Within op)
    (address : Address) (callback : (watched.manager.written op address).cb.isSome) :
    let start := (watched.restart op address).getD (watched.started address)
    (watched.manager.written op address).next.toNat = start.reading + start.delay ∧
      (watched.manager.written op address).ms.toNat = start.delay := by
  have fits := within.1 address
  have next := kept.next address
  have ms := kept.ms address
  revert callback
  cases op with
  | addTimer now period cb recurring new =>
      by_cases same : address = new
      · simp only [written, Watched.restart, if_pos same] at fits ⊢
        exact fun _ => ⟨toNat_add (fits _ rfl), rfl⟩
      · simp only [written, Watched.restart, if_neg same]
        exact fun callback => ⟨next callback, ms callback⟩
  | cancel old =>
      rw [written]
      split
      case isTrue => rintro ⟨⟩
      case isFalse => exact fun callback => ⟨next callback, ms callback⟩
  | refresh old now =>
      by_cases starts : address = old ∧ (watched.manager.timer address).cb.isSome
      · simp only [written, Watched.restart, if_pos starts] at fits ⊢
        intro callback
        have fits := fits _ rfl
        rw [← ms callback] at fits
        exact ⟨(toNat_add fits).trans (by rw [ms callback]; rfl), ms callback⟩
      · simp only [written, Watched.restart, if_neg starts]
        exact fun callback => ⟨next callback, ms callback⟩
  | reset old period fromNow now =>
      by_cases starts : address = old ∧ (watched.manager.timer address).cb.isSome
      · simp only [written, Watched.restart, if_pos starts] at fits ⊢
        intro callback
        have fits := fits _ rfl
        have start : (if fromNow then now else (watched.manager.timer address).next -
            (watched.manager.timer address).ms).toNat =
            if fromNow then now.toNat else (watched.started address).reading := by
          split
          case isTrue => rfl
          case isFalse =>
            rw [BitVec.toNat_sub_of_le, next callback, ms callback, Nat.add_sub_cancel]
            rw [BitVec.le_def, next callback, ms callback]
            exact Nat.le_add_left _ _
        exact ⟨(toNat_add (start ▸ fits)).trans (by rw [start]; rfl), rfl⟩
      · simp only [written, Watched.restart, if_neg starts]
        exact fun callback => ⟨next callback, ms callback⟩
  | listExpiredCb now nowTimer =>
      by_cases taken : address ∈ watched.manager.expired now nowTimer
      · by_cases recurring : (watched.manager.timer address).recurring = true
        · simp only [written, Watched.restart, if_pos taken, renewed, if_pos recurring,
            if_pos (And.intro taken recurring)] at fits ⊢
          intro callback
          have fits := fits _ rfl
          rw [← ms callback] at fits
          exact ⟨(toNat_add fits).trans (by rw [ms callback]; rfl), ms callback⟩
        · simp only [written, if_pos taken, renewed, if_neg recurring]
          rintro ⟨⟩
      · simp only [written, Watched.restart, if_neg taken, if_neg fun both => taken (And.left both)]
        exact fun callback => ⟨next callback, ms callback⟩
  | getNextTimer now => exact fun callback => ⟨next callback, ms callback⟩

/-- What `listExpiredCb` returns has had its delay. -/
theorem Kept.returns (kept : Kept watched) {op : Op Callback} (steady : watched.Steady op)
    (within : watched.Within op) :
    ∀ one ∈ watched.returns op, one.start.reading + one.start.delay ≤ one.now := by
  intro one member
  cases op with
  | listExpiredCb now nowTimer =>
      obtain ⟨address, taken, rfl⟩ := List.mem_map.mp member
      have due := due_of_expired kept.linked steady.1 steady.2 within.2 taken
      rw [kept.next address due.1] at due
      exact due.2
  | addTimer | cancel | refresh | reset | getNextTimer => cases member

theorem Kept.step (kept : Kept watched) {op : Op Callback} {later : Watched Callback}
    (steady : watched.Steady op) (within : watched.Within op)
    (taken : watched.step op = some later) : Kept later := by
  obtain ⟨after, called, linked⟩ := kept.linked.call steady.1
  rw [Watched.step, called] at taken
  cases taken
  refine ⟨linked, fun address callback => ?_, fun address callback => ?_, fun one member => ?_⟩
  · rw [call_timer kept.linked called] at callback ⊢
    exact (kept.deadline within address callback).1
  · rw [call_timer kept.linked called] at callback ⊢
    exact (kept.deadline within address callback).2
  · obtain earlier | now := List.mem_append.mp member
    · exact kept.onTime one earlier
    · exact kept.returns steady within one now

/-- No timer fires before its delay while no deadline is beyond 64 bits. -/
theorem none_early {now : BitVec 64} {watched : Watched Callback}
    (run : Runs Watched.step (fun watched op => watched.Steady op ∧ watched.Within op)
      (Watched.fresh now) watched) : watched.OnTime := by
  refine (@Runs.invariant _ _ _ _ _ _ Kept
    (fun _ _ _ kept allowed taken => kept.step allowed.1 allowed.2 taken) run ?_).onTime
  exact ⟨.fresh now, nofun, nofun, nofun⟩

/-- Whether the addresses, the clock and the deadlines are as they should be. -/
def passes (watched : Watched Callback) (op : Op Callback) : Bool :=
  decide (watched.manager.Allowed op) &&
    match op with
    | .addTimer now ms _ _ _ => now.toNat + ms.toNat < 2 ^ 64
    | .refresh old now => now.toNat + (watched.started old).delay < 2 ^ 64
    | .reset old ms fromNow now =>
        (if fromNow then now.toNat else (watched.started old).reading) + ms.toNat < 2 ^ 64
    | .listExpiredCb now nowTimer =>
        watched.manager.previouseTime.toNat ≤ now.toNat &&
          (watched.manager.expired now nowTimer).all fun address =>
            now.toNat + (watched.started address).delay < 2 ^ 64
    | .cancel _ | .getNextTimer _ => true

theorem passes_sound (watched : Watched Callback) (op : Op Callback) (passes : passes watched op) :
    watched.Steady op ∧ watched.Within op := by
  obtain ⟨allowed, fits⟩ := Bool.and_eq_true_iff.mp passes
  have allowed := of_decide_eq_true allowed
  cases op with
  | addTimer now ms cb recurring new =>
      refine ⟨⟨allowed, trivial⟩, fun address start restart => ?_, trivial⟩
      rw [Watched.restart, Option.ite_none_right_eq_some] at restart
      obtain ⟨-, rfl⟩ := restart.imp_right Option.some_inj.mp
      exact of_decide_eq_true fits
  | cancel old => exact ⟨⟨allowed, trivial⟩, nofun, trivial⟩
  | refresh old now =>
      refine ⟨⟨allowed, trivial⟩, fun address start restart => ?_, trivial⟩
      rw [Watched.restart, Option.ite_none_right_eq_some] at restart
      obtain ⟨⟨rfl, -⟩, rfl⟩ := restart.imp_right Option.some_inj.mp
      exact of_decide_eq_true fits
  | reset old ms fromNow now =>
      refine ⟨⟨allowed, trivial⟩, fun address start restart => ?_, trivial⟩
      rw [Watched.restart, Option.ite_none_right_eq_some] at restart
      obtain ⟨⟨rfl, -⟩, rfl⟩ := restart.imp_right Option.some_inj.mp
      exact of_decide_eq_true fits
  | listExpiredCb now nowTimer =>
      obtain ⟨forward, fits⟩ := Bool.and_eq_true_iff.mp fits
      have forward := of_decide_eq_true forward
      refine ⟨⟨allowed, forward.trans (Nat.le_add_right _ _)⟩, fun address start restart => ?_,
        .inr forward⟩
      rw [Watched.restart, Option.ite_none_right_eq_some] at restart
      obtain ⟨⟨taken, -⟩, rfl⟩ := restart.imp_right Option.some_inj.mp
      exact of_decide_eq_true (List.all_eq_true.mp fits address taken)
  | getNextTimer now => exact ⟨⟨allowed, trivial⟩, nofun, trivial⟩

/-- A timer that is refreshed, and a recurring one that gets another delay. -/
def delayedRun : List (Op Nat) :=
  [.addTimer 1000 50 1 false 1, .addTimer 1000 20 2 true 2, .listExpiredCb 1020 9, .refresh 1 1030,
    .reset 2 100 false 1030, .listExpiredCb 1079 9, .listExpiredCb 1120 9]

def delayed : Watched Nat :=
  (replay Watched.step passes delayedRun (.fresh 1000)).get (by decide)

theorem none_early_delayed : delayed.returned =
      [⟨2, 1020, 1000, 20⟩, ⟨1, 1120, 1030, 50⟩, ⟨2, 1120, 1020, 100⟩] ∧ delayed.OnTime :=
  ⟨by decide, none_early (.of_replay passes_sound (Option.some_get _).symm)⟩

/-- A timer without a timeout, by the delay that stands for none elsewhere. -/
def endless : Watched Nat :=
  (replay Watched.step (fun watched op => decide (watched.Steady op))
    [.addTimer 1000 (-1) 1 false 1, .listExpiredCb 1000 9] (.fresh 1000)).get (by decide)

theorem not_none_early : ¬ ∀ (now : BitVec 64) (watched : Watched Nat),
    Runs Watched.step Watched.Steady (.fresh now) watched → watched.OnTime := by
  intro claimed
  have onTime := claimed 1000 endless
    (.of_replay (fun _ _ => of_decide_eq_true) (Option.some_get _).symm)
  have returned : endless.returned = [⟨1, 1000, 1000, 2 ^ 64 - 1⟩] := by decide
  rw [Watched.OnTime, returned] at onTime
  exact absurd (onTime _ (List.mem_singleton_self _)) (by decide)

end Deadlines

end Xten.TimerManager
