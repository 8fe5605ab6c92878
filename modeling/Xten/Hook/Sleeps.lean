import Xten.Timer.Delays

/-!
# Hooked sleeps

`sleep`, `usleep` and `nanosleep` of the hook layer, which add a timer of the `IOManager` and
suspend the fiber until its callback schedules it. The pointer to the timer is not kept, so that
nobody else cancels, refreshes or resets it.
-/

namespace Xten.Hook

open Std.Interleaving (Runs)
open Xten.Timer (Address)

inductive Sleep where
  | sleep (seconds : BitVec 32)
  | usleep (usec : BitVec 32)
  | nanosleep (tv_sec tv_nsec : BitVec 64)
deriving DecidableEq, Repr

namespace Sleep

/-- A `long`; the overflow of one is undefined. -/
def long (value : Int) : Option Int :=
  if -2 ^ 63 ≤ value ∧ value < 2 ^ 63 then some value else none

/-- The delay that `addTimer` gets. `nanosleep` keeps it in an `int` before. -/
def delay : Sleep → Option (BitVec 64)
  | .sleep seconds => some ((seconds * 1000).setWidth 64)
  | .usleep usec => some ((usec / 1000).setWidth 64)
  | .nanosleep tv_sec tv_nsec => do
      let seconds ← long (tv_sec.toInt * 1000)
      let timeout_ms ← long (seconds + (tv_nsec.toInt.tdiv 1000).tdiv 1000)
      return (BitVec.ofInt 32 timeout_ms).signExtend 64

/-- The duration that is asked for, in whole milliseconds, rounded up. -/
def requested : Sleep → Int
  | .sleep seconds => seconds.toNat * 1000
  | .usleep usec => (usec.toNat + 999) / 1000
  | .nanosleep tv_sec tv_nsec => tv_sec.toInt * 1000 - -tv_nsec.toInt / 1000000

/-- What the fiber's timer is left to until it is returned: the clock does not go back, and no
other timer gets its address. -/
def Undisturbed {Callback : Type} (address : Address) (self : TimerManager Callback) :
    TimerManager.Op Callback → Prop
  | .addTimer _ _ _ _ new => new ≠ address ∧ (self.timer new).cb = none
  | .cancel old | .refresh old _ | .reset old _ _ _ => old ≠ address
  | .listExpiredCb now nowTimer =>
      self.previouseTime.toNat ≤ now.toNat ∧ (self.timer nowTimer).cb = none
  | .getNextTimer _ => True

/-- The deadline of the timer, and when it is returned. -/
structure NeverEarly (now : BitVec 64) (call : Sleep) (delay : BitVec 64) : Prop where
  deadline : ∀ {Callback : Type} (self : TimerManager Callback) cb address,
    now.toNat + call.requested ≤
      ((self.addTimer now delay cb false address).1.timer address).next.toNat
  resumed : ∀ {Callback : Type} (start : BitVec 64) (self : TimerManager Callback) cb address,
    Runs TimerManager.step TimerManager.Allowed (TimerManager.fresh start) self →
    (self.timer address).cb = none → ∀ later,
    Runs TimerManager.step (Undisturbed address) (self.addTimer now delay cb false address).1
      later → ∀ reading nowTimer, Undisturbed address later (.listExpiredCb reading nowTimer) →
    address ∈ later.expired reading nowTimer → now.toNat + call.requested ≤ reading.toNat

/-- The product fits an `unsigned int`, nothing is cut off, the `int` holds the delay, and the
deadline is not beyond 64 bits. -/
def Fits (now : BitVec 64) : Sleep → Prop
  | .sleep seconds => seconds.toNat * 1000 < 2 ^ 32 ∧ now.toNat + seconds.toNat * 1000 < 2 ^ 64
  | .usleep usec => 1000 ∣ usec.toNat ∧ now.toNat + usec.toNat / 1000 < 2 ^ 64
  | .nanosleep tv_sec tv_nsec =>
      let whole := tv_sec.toInt * 1000 + tv_nsec.toInt.tdiv 1000000
      (-2 ^ 63 ≤ tv_sec.toInt * 1000 ∧ tv_sec.toInt * 1000 < 2 ^ 63) ∧
      (-2 ^ 63 ≤ whole ∧ whole < 2 ^ 63) ∧
      (now.toNat + whole.bmod (2 ^ 32) < 0 ∨
        now.toNat + whole.bmod (2 ^ 32) < 2 ^ 64 ∧
          (whole < -2 ^ 31 ∨ whole < 2 ^ 31 ∧ (tv_nsec.toInt ≤ 0 ∨ 1000000 ∣ tv_nsec.toInt)))

section Deadlines

variable {now : BitVec 64}

/-- A deadline by an `int`, which may be negative. -/
theorem toNat_deadline (now : BitVec 64) (timeout : BitVec 32) :
    ((now + timeout.signExtend 64).toNat : Int) = (now.toNat + timeout.toInt) % 2 ^ 64 := by
  rw [BitVec.toNat_add, BitVec.signExtend, BitVec.toNat_ofInt]
  omega

/-- Nanoseconds in milliseconds, rounded toward zero. -/
theorem tdiv_tdiv (nsec : Int) : (nsec.tdiv 1000).tdiv 1000 = nsec.tdiv 1000000 := by
  have cut (size : Nat) : ((size : Int).tdiv 1000).tdiv 1000 = (size : Int).tdiv 1000000 := by
    rw [Int.tdiv_eq_ediv_of_nonneg (Int.natCast_nonneg _),
      Int.tdiv_eq_ediv_of_nonneg (Int.natCast_nonneg _), Int.tdiv_eq_ediv_of_nonneg (by omega)]
    omega
  obtain ⟨size, rfl | rfl⟩ := Int.eq_nat_or_neg nsec
  · exact cut size
  · rw [Int.neg_tdiv, Int.neg_tdiv, Int.neg_tdiv, cut]

/-- Rounding toward zero cuts nothing off a multiple, and not below zero. -/
theorem rounded (nsec : Int) :
    -(-nsec / 1000000) = nsec.tdiv 1000000 +
      if nsec ≤ 0 ∨ 1000000 ∣ nsec then 0 else 1 := by
  obtain positive | negative := Int.le_total 0 nsec
  · rw [Int.tdiv_eq_ediv_of_nonneg positive]
    split <;> omega
  · rw [if_pos (.inl negative), ← Int.neg_neg nsec, Int.neg_tdiv,
      Int.tdiv_eq_ediv_of_nonneg (Int.neg_nonneg_of_nonpos negative)]
    omega

/-- The deadline of `nanosleep` by what the `int` is made of. -/
theorem late_nanosleep {whole nsec sec : Int} (sum : whole = sec * 1000 + nsec.tdiv 1000000)
    (fits : -2 ^ 63 ≤ whole ∧ whole < 2 ^ 63) :
    now.toNat + (sec * 1000 - -nsec / 1000000) ≤ (now.toNat + whole.bmod (2 ^ 32)) % 2 ^ 64 ↔
      now.toNat + whole.bmod (2 ^ 32) < 0 ∨ now.toNat + whole.bmod (2 ^ 32) < 2 ^ 64 ∧
        (whole < -2 ^ 31 ∨ whole < 2 ^ 31 ∧ (nsec ≤ 0 ∨ 1000000 ∣ nsec)) := by
  have reading := now.isLt
  have up := rounded nsec
  have low : -2 ^ 31 ≤ whole.bmod (2 ^ 32) := Int.le_bmod (by decide)
  have high : whole.bmod (2 ^ 32) < 2 ^ 31 := Int.bmod_lt (by decide)
  have within : -2 ^ 31 ≤ whole → whole < 2 ^ 31 → whole.bmod (2 ^ 32) = whole :=
    fun least most => Int.bmod_eq_of_le least most
  generalize whole.bmod (2 ^ 32) = offset at *
  generalize nsec.tdiv 1000000 = cut at *
  generalize -nsec / 1000000 = ceiling at *
  -- beyond an `int` the sleep is too short, and below one too long
  by_cases exact : nsec ≤ 0 ∨ 1000000 ∣ nsec
  · rw [if_pos exact] at up
    simp only [exact, and_true]
    omega
  · rw [if_neg exact] at up
    simp only [exact, and_false, or_false]
    omega

theorem long_eq_some {value result : Int} :
    long value = some result ↔ (-2 ^ 63 ≤ value ∧ value < 2 ^ 63) ∧ value = result := by
  rw [long, Option.ite_none_right_eq_some, Option.some_inj]

/-- The deadline is late enough exactly if the delay fits. -/
theorem late_iff (now : BitVec 64) (call : Sleep) :
    (∃ delay, call.delay = some delay ∧ now.toNat + call.requested ≤ (now + delay).toNat) ↔
      call.Fits now := by
  have reading := now.isLt
  cases call with
  | sleep seconds =>
      have product : (seconds * 1000).toNat = seconds.toNat * 1000 % 2 ^ 32 := BitVec.toNat_mul _ _
      have short : seconds.toNat * 1000 % 2 ^ 32 < 2 ^ 32 := Nat.mod_lt _ (by decide)
      have whole : seconds.toNat * 1000 < 2 ^ 32 →
        seconds.toNat * 1000 % 2 ^ 32 = seconds.toNat * 1000 := Nat.mod_eq_of_lt
      simp only [delay, Option.some_inj, exists_eq_left', requested, Fits, BitVec.toNat_add,
        BitVec.toNat_setWidth, product]
      generalize seconds.toNat * 1000 % 2 ^ 32 = cut at *
      omega
  | usleep usec =>
      have quotient : (usec / 1000).toNat = usec.toNat / 1000 := BitVec.toNat_udiv
      simp only [delay, Option.some_inj, exists_eq_left', requested, Fits, BitVec.toNat_add,
        BitVec.toNat_setWidth, quotient]
      omega
  | nanosleep tv_sec tv_nsec =>
      constructor
      · rintro ⟨delay, defined, late⟩
        obtain ⟨seconds, fits, rest⟩ := Option.bind_eq_some_iff.mp defined
        obtain ⟨whole, sum, conversion⟩ := Option.bind_eq_some_iff.mp rest
        obtain ⟨secondsFit, rfl⟩ := long_eq_some.mp fits
        obtain ⟨wholeFits, rfl⟩ := long_eq_some.mp sum
        rw [tdiv_tdiv] at wholeFits conversion
        rw [← Option.some_inj.mp conversion] at late
        refine ⟨secondsFit, wholeFits, ?_⟩
        rw [toNat_deadline, BitVec.toInt_ofInt] at late
        exact (late_nanosleep rfl wholeFits).mp late
      · rintro ⟨secondsFit, wholeFits, late⟩
        refine ⟨(BitVec.ofInt 32 (tv_sec.toInt * 1000 + tv_nsec.toInt.tdiv 1000000)).signExtend 64,
          ?_, ?_⟩
        · rw [delay, long_eq_some.mpr ⟨secondsFit, rfl⟩]
          change (long (_ + (tv_nsec.toInt.tdiv 1000).tdiv 1000) >>= _) = _
          rw [tdiv_tdiv, long_eq_some.mpr ⟨wholeFits, rfl⟩]
          rfl
        · rw [toNat_deadline, BitVec.toInt_ofInt]
          exact (late_nanosleep rfl wholeFits).mpr late

end Deadlines

section Resuming

variable {Callback : Type} {self later : TimerManager Callback} {address : Address}
  {timer : Xten.Timer Callback}

theorem Undisturbed.allowed {op : TimerManager.Op Callback} (calm : Undisturbed address self op) :
    self.Allowed op := by
  cases op with
  | addTimer | listExpiredCb => exact calm.2
  | cancel | refresh | reset | getNextTimer => trivial

/-- The timer of the fiber is as it was made, or has been returned. -/
def Left (address : Address) (timer : Xten.Timer Callback) (self : TimerManager Callback) : Prop :=
  self.timer address = timer ∨ (self.timer address).cb = none

theorem Left.step (left : Left address timer self) (once : timer.recurring = false)
    (linked : TimerManager.Linked self []) {op : TimerManager.Op Callback}
    (calm : Undisturbed address self op) (called : self.call op = .ok later) :
    Left address timer later := by
  rw [Left, TimerManager.call_timer linked called]
  cases op with
  | addTimer now ms cb recurring new =>
      rw [TimerManager.written, if_neg calm.1.symm]
      exact left
  | cancel old =>
      rw [TimerManager.written, if_neg (Ne.symm calm)]
      exact left
  | refresh old now | reset old ms fromNow now =>
      rw [TimerManager.written, if_neg fun both => calm both.1.symm]
      exact left
  | listExpiredCb now nowTimer =>
      rw [TimerManager.written]
      split
      case isTrue =>
        obtain same | silent := left
        · rw [same, TimerManager.renewed, if_neg (by rw [once]; exact Bool.false_ne_true)]
          exact .inr rfl
        · rw [TimerManager.renewed]
          split
          · exact .inr silent
          · exact .inr rfl
      case isFalse => exact left
  | getNextTimer now => exact left

theorem addTimer_timer (now delay : BitVec 64) (cb : Callback) :
    (self.addTimer now delay cb false address).1.timer address =
      ⟨false, delay, now + delay, some cb⟩ :=
  TimerManager.store_self _

/-- The timer of the fiber is returned at its deadline or later. -/
theorem returned_late {start now delay reading : BitVec 64} {cb : Callback} {nowTimer : Address}
    (before : Runs TimerManager.step TimerManager.Allowed (TimerManager.fresh start) self)
    (free : (self.timer address).cb = none)
    (run : Runs TimerManager.step (Undisturbed address)
      (self.addTimer now delay cb false address).1 later)
    (calm : Undisturbed address later (.listExpiredCb reading nowTimer))
    (taken : address ∈ later.expired reading nowTimer) : (now + delay).toNat ≤ reading.toNat := by
  let timer : Xten.Timer Callback := ⟨false, delay, now + delay, some cb⟩
  have added : Left address timer (self.addTimer now delay cb false address).1 :=
    .inl (addTimer_timer now delay cb)
  obtain ⟨_, _, made, -, kept⟩ :=
    (TimerManager.Linked.of_runs before).addTimer now delay cb false free
  obtain ⟨linked, left⟩ := @Runs.invariant _ _ _ _ _ _
    (fun self => TimerManager.Linked self [] ∧ Left address timer self)
    (fun self op next was calm taken => by
      obtain ⟨after, called, linked⟩ := was.1.call calm.allowed
      rw [TimerManager.step, called] at taken
      cases taken
      exact ⟨linked, was.2.step rfl was.1 calm called⟩) run
    ⟨made ▸ kept.linked, added⟩
  obtain ⟨callback, due⟩ := TimerManager.due_of_expired linked calm.2
    (calm.1.trans (Nat.le_add_right _ _)) (.inr calm.1) taken
  obtain same | silent := left
  · rwa [same] at due
  · rw [silent] at callback
    cases callback

/-- A sleep does not wake early exactly if its delay fits. -/
theorem neverEarly_iff (now : BitVec 64) (call : Sleep) :
    (∃ delay, call.delay = some delay ∧ NeverEarly now call delay) ↔ call.Fits now := by
  rw [← late_iff]
  refine exists_congr fun delay => and_congr_right fun _ => ⟨fun never => ?_, fun late => ?_⟩
  · exact never.deadline (TimerManager.fresh 0 : TimerManager Unit) () 0
  · constructor
    · intro _ self cb address
      rw [addTimer_timer]
      exact late
    · intro _ start self cb address before free later run reading nowTimer calm taken
      exact late.trans (Int.ofNat_le.mpr (returned_late before free run calm taken))

/-- What fits of the times that `nanosleep` is meant to get, once the clock shows 25 days. -/
theorem fits_nanosleep_iff {now tv_sec tv_nsec : BitVec 64} (clock : 2 ^ 31 ≤ now.toNat)
    (sec : 0 ≤ tv_sec.toInt) (nsec : 0 ≤ tv_nsec.toInt) :
    (nanosleep tv_sec tv_nsec).Fits now ↔ 1000000 ∣ tv_nsec.toInt ∧
      tv_sec.toInt * 1000 + tv_nsec.toInt / 1000000 < 2 ^ 31 ∧
      now.toNat + (tv_sec.toInt * 1000 + tv_nsec.toInt / 1000000) < 2 ^ 64 := by
  rw [Fits, Int.tdiv_eq_ediv_of_nonneg nsec]
  have cut : 0 ≤ tv_nsec.toInt / 1000000 := Int.ediv_nonneg nsec (by decide)
  have low := @Int.le_bmod (tv_sec.toInt * 1000 + tv_nsec.toInt / 1000000) (2 ^ 32) (by decide)
  have within : tv_sec.toInt * 1000 + tv_nsec.toInt / 1000000 < 2 ^ 31 →
      (tv_sec.toInt * 1000 + tv_nsec.toInt / 1000000).bmod (2 ^ 32) =
        tv_sec.toInt * 1000 + tv_nsec.toInt / 1000000 := fun small =>
    Int.bmod_eq_of_le (by omega) small
  generalize Int.bmod _ _ = offset at *
  omega

theorem not_neverEarly : ¬ ∀ (now : BitVec 64) (call : Sleep),
    ∃ delay, call.delay = some delay ∧ NeverEarly now call delay := by
  intro claimed
  -- seven weeks and a bit are 704 milliseconds
  obtain ⟨delay, defined, never⟩ := claimed 1000 (.sleep 4294968)
  obtain rfl := Option.some_inj.mp defined
  have deadline := never.deadline (TimerManager.fresh 0 : TimerManager Unit) () 0
  exact absurd deadline (by decide)

end Resuming

end Sleep

end Xten.Hook
