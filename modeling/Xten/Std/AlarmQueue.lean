import Mathlib.Data.Multiset.Bind
import Mathlib.Data.Multiset.Filter
import Mathlib.Tactic

/-!
# Queues of one-shot and recurring alarms

An `AlarmQueue` is a plain collection of pending alarms keyed by the tick at
which each is due. An alarm that is armed may be refused by the predicate
`admits`, so that the same queue describes both an ideal timer (`admits` always
true) and one that loses some of the alarms it is given. `rings` is the closed
form of what the queue does: it names the ticks of an alarm without running the
queue, and `run_rung` proves that a run rings exactly those.
-/

namespace Xten.Std

/-- What an alarm does once it is armed: it is due `period` ticks later, and, if
it recurs, is armed again whenever it rings. -/
structure Alarm (β : Type) where
  period : Nat
  recurring : Bool
  label : β

/-- The pending alarms with their due ticks, and the tick last processed. -/
structure AlarmQueue (β : Type) where
  now : Nat
  pending : Multiset (Nat × Alarm β)

/-- What is done to a queue: an alarm is set, or one tick passes. -/
inductive AlarmOp (β : Type) where
  | set (alarm : Alarm β)
  | tick

namespace AlarmQueue

variable {β : Type} (admits : Nat → Nat → Prop)

section Queue

variable [DecidableRel admits]

/-- The entry made by arming an alarm at `now`, if it is admitted. -/
def arm (now : Nat) (alarm : Alarm β) : Multiset (Nat × Alarm β) :=
  if admits now alarm.period then {(now + alarm.period, alarm)} else 0

/-- The alarms that ring at `now`. -/
def due (now : Nat) (pending : Multiset (Nat × Alarm β)) : Multiset (Alarm β) :=
  (pending.filter fun entry => entry.1 = now).map Prod.snd

/-- The entries left once the alarms due at `now` have rung. -/
def rest (now : Nat) (pending : Multiset (Nat × Alarm β)) : Multiset (Nat × Alarm β) :=
  pending.filter fun entry => entry.1 ≠ now

/-- The recurring alarms among `rung`, armed again at `now`. -/
def rearm (now : Nat) (rung : Multiset (Alarm β)) : Multiset (Nat × Alarm β) :=
  (rung.filter fun alarm => alarm.recurring = true).bind (arm admits now)

/-- The pending entries after the tick `now`. -/
def afterTick (now : Nat) (pending : Multiset (Nat × Alarm β)) : Multiset (Nat × Alarm β) :=
  rest now pending + rearm admits now (due now pending)

/-- One operation, with the labels of the alarms it rings. -/
def step (queue : AlarmQueue β) : AlarmOp β → AlarmQueue β × Option (Multiset β)
  | .set alarm => (⟨queue.now, arm admits queue.now alarm + queue.pending⟩, none)
  | .tick => (⟨queue.now + 1, afterTick admits (queue.now + 1) queue.pending⟩,
      some ((due (queue.now + 1) queue.pending).map Alarm.label))

/-- A sequence of operations, with what rang at each tick, in order. -/
def run (queue : AlarmQueue β) : List (AlarmOp β) → AlarmQueue β × List (Multiset β)
  | [] => (queue, [])
  | op :: ops =>
      let next := step admits queue op
      let done := run next.1 ops
      (done.1, next.2.toList ++ done.2)

/-- The alarms set by a sequence of operations begun at `now`, each with the
tick at which it is set. -/
def settings (now : Nat) : List (AlarmOp β) → Multiset (Nat × Alarm β)
  | [] => 0
  | .set alarm :: ops => (now, alarm) ::ₘ settings now ops
  | .tick :: ops => settings (now + 1) ops

/-- Number of ticks in a sequence of operations. -/
def ticks : List (AlarmOp β) → Nat
  | [] => 0
  | .set _ :: ops => ticks ops
  | .tick :: ops => ticks ops + 1

end Queue

/-- An alarm set at `setting.1` is meant to ring at `tick`. -/
def Due (setting : Nat × Alarm β) (tick : Nat) : Prop :=
  if setting.2.recurring then
    setting.1 < tick ∧ setting.2.period ∣ tick - setting.1
  else
    tick = setting.1 + setting.2.period

instance (setting : Nat × Alarm β) (tick : Nat) : Decidable (Due setting tick) :=
  inferInstanceAs (Decidable (if setting.2.recurring then _ else _))

/-- An alarm set at `setting.1` does ring at `tick`: it is due then, and was
admitted every time it was armed on the way. -/
def Rings (setting : Nat × Alarm β) (tick : Nat) : Prop :=
  Due setting tick ∧
    ∀ round < (tick - setting.1) / setting.2.period,
      admits (setting.1 + round * setting.2.period) setting.2.period

instance [DecidableRel admits] (setting : Nat × Alarm β) (tick : Nat) :
    Decidable (Rings admits setting tick) :=
  inferInstanceAs (Decidable (_ ∧ _))

/-- How often an alarm has been armed once the tick `now` is over. -/
def rounds (setting : Nat × Alarm β) (now : Nat) : Nat :=
  if setting.2.recurring then (now - setting.1) / setting.2.period + 1 else 1

/-- The tick for which the alarm was last armed. -/
def nextDue (setting : Nat × Alarm β) (now : Nat) : Nat :=
  setting.1 + rounds setting now * setting.2.period

/-- The alarm is still to ring once the tick `now` is over: it was admitted at
every round so far, and has a round left. -/
def Live (setting : Nat × Alarm β) (now : Nat) : Prop :=
  (setting.2.recurring = true ∨ now < setting.1 + setting.2.period) ∧
    ∀ round < rounds setting now,
      admits (setting.1 + round * setting.2.period) setting.2.period

instance [DecidableRel admits] (setting : Nat × Alarm β) (now : Nat) :
    Decidable (Live admits setting now) :=
  inferInstanceAs (Decidable (_ ∧ _))

/-- The entry an alarm has in the queue once the tick `now` is over. -/
def entryOf [DecidableRel admits] (now : Nat) (setting : Nat × Alarm β) : Multiset (Nat × Alarm β) :=
  if Live admits setting now then {(nextDue setting now, setting.2)} else 0

variable {admits}

section Rounds

variable {setting : Nat × Alarm β} {now : Nat}

/-- A recurring alarm is armed once more exactly at the ticks it is due. -/
theorem rounds_succ (recurs : setting.2.recurring = true) (armed : setting.1 ≤ now) :
    rounds setting (now + 1) =
      rounds setting now + if setting.2.period ∣ now + 1 - setting.1 then 1 else 0 := by
  have elapsed : now + 1 - setting.1 = now - setting.1 + 1 := by omega
  simp only [rounds, recurs, if_true, elapsed, Nat.succ_div]
  omega

/-- A recurring alarm's entry carries the next tick at which it is due. -/
theorem nextDue_eq_iff (recurs : setting.2.recurring = true) (armed : setting.1 ≤ now) :
    nextDue setting now = now + 1 ↔ setting.2.period ∣ now + 1 - setting.1 := by
  have elapsed : now + 1 - setting.1 = now - setting.1 + 1 := by omega
  simp only [nextDue, rounds, recurs, if_true]
  constructor
  · intro falls
    exact ⟨(now - setting.1) / setting.2.period + 1, by rw [Nat.mul_comm]; omega⟩
  · intro divides
    have quotient : (now - setting.1 + 1) / setting.2.period = _ := Nat.succ_div
    rw [← elapsed, if_pos divides] at quotient
    rw [← quotient, Nat.div_mul_cancel divides]
    omega

/-- An alarm set by `now` is due at the next tick exactly when its entry says so. -/
theorem due_succ_iff (armed : setting.1 ≤ now) :
    Due setting (now + 1) ↔ nextDue setting now = now + 1 := by
  by_cases recurs : setting.2.recurring = true
  · rw [nextDue_eq_iff recurs armed]
    simp [Due, recurs, Nat.lt_succ_of_le armed]
  · simp [Due, nextDue, rounds, recurs, eq_comm]

/-- At a tick where it is due, an alarm has been armed once for each period. -/
theorem rounds_of_due (armed : setting.1 ≤ now) (positive : 0 < setting.2.period)
    (due : nextDue setting now = now + 1) :
    (now + 1 - setting.1) / setting.2.period = rounds setting now := by
  have total : now + 1 - setting.1 = rounds setting now * setting.2.period := by
    simp only [nextDue] at due
    omega
  rw [total, Nat.mul_div_cancel _ positive]

theorem live_of_due (due : nextDue setting now = now + 1) :
    Live admits setting now ↔ ∀ round < rounds setting now,
      admits (setting.1 + round * setting.2.period) setting.2.period := by
  refine ⟨fun live => live.2, fun admitted => ⟨?_, admitted⟩⟩
  by_cases recurs : setting.2.recurring = true
  · exact .inl recurs
  · simp only [nextDue, rounds, recurs] at due
    exact .inr (by simp at due; omega)

theorem rings_iff (armed : setting.1 ≤ now) (positive : 0 < setting.2.period) :
    Rings admits setting (now + 1) ↔ Live admits setting now ∧ nextDue setting now = now + 1 := by
  rw [Rings, due_succ_iff armed]
  constructor
  · rintro ⟨due, admitted⟩
    rw [rounds_of_due armed positive due] at admitted
    exact ⟨(live_of_due due).mpr admitted, due⟩
  · rintro ⟨live, due⟩
    rw [rounds_of_due armed positive due]
    exact ⟨due, live.2⟩

theorem live_succ_of_due (admits : Nat → Nat → Prop) (armed : setting.1 ≤ now)
    (due : nextDue setting now = now + 1) :
    Live admits setting (now + 1) ↔
      setting.2.recurring = true ∧ Live admits setting now ∧
        admits (now + 1) setting.2.period := by
  by_cases recurs : setting.2.recurring = true
  · have advance := rounds_succ recurs armed
    rw [if_pos ((nextDue_eq_iff recurs armed).mp due)] at advance
    rw [live_of_due due]
    simp only [Live, recurs, advance, true_or, true_and, Nat.lt_succ_iff_lt_or_eq]
    constructor
    · intro admitted
      refine ⟨fun round bound => admitted round (.inl bound), ?_⟩
      have last := admitted (rounds setting now) (.inr rfl)
      simp only [nextDue] at due
      rwa [due] at last
    · rintro ⟨admitted, last⟩ round (bound | rfl)
      · exact admitted round bound
      · simp only [nextDue] at due
        rwa [due]
  · simp only [nextDue, rounds, recurs] at due
    simp only [Live, recurs, false_or, false_and, iff_false, not_and, Bool.false_eq_true]
    intro pending
    simp at due
    omega

theorem succ_of_not_due (admits : Nat → Nat → Prop) (armed : setting.1 ≤ now)
    (due : nextDue setting now ≠ now + 1) :
    nextDue setting (now + 1) = nextDue setting now ∧
      (Live admits setting (now + 1) ↔ Live admits setting now) := by
  by_cases recurs : setting.2.recurring = true
  · have advance := rounds_succ recurs armed
    rw [if_neg (mt (nextDue_eq_iff recurs armed).mpr due)] at advance
    simp [nextDue, Live, recurs, advance]
  · simp only [nextDue, rounds, recurs] at due
    simp only [nextDue, Live, rounds, recurs, false_or, if_false, Bool.false_eq_true]
    refine ⟨trivial, and_congr_left fun _ => ?_⟩
    simp at due
    omega

/-- An alarm is due only after the tick at which it is set. -/
theorem Due.later {tick : Nat} (due : Due setting tick)
    (positive : 0 < setting.2.period) : setting.1 < tick := by
  unfold Due at due
  split at due <;> omega

/-- The ticks at which an alarm is due, by the number of rounds behind them. -/
theorem due_iff {tick : Nat} (positive : 0 < setting.2.period) :
    Due setting tick ↔ ∃ round, tick = setting.1 + (round + 1) * setting.2.period ∧
      (setting.2.recurring = true ∨ round = 0) := by
  by_cases recurs : setting.2.recurring = true
  · simp only [Due, recurs, if_true, true_or, and_true]
    constructor
    · rintro ⟨later, quotient, total⟩
      obtain ⟨round, rfl⟩ : ∃ round, quotient = round + 1 :=
        Nat.exists_eq_succ_of_ne_zero (by rintro rfl; omega)
      exact ⟨round, by rw [Nat.mul_comm]; omega⟩
    · rintro ⟨round, rfl⟩
      have forward : 0 < (round + 1) * setting.2.period := Nat.mul_pos (Nat.succ_pos _) positive
      exact ⟨by omega, round + 1, by rw [Nat.add_sub_cancel_left, Nat.mul_comm]⟩
  · simp [Due, recurs]

/-- An alarm rings whenever it is due up to a given tick exactly when it is
admitted each time it is armed for such a tick. -/
theorem rings_all_iff {last : Nat} (positive : 0 < setting.2.period) :
    (∀ tick ≤ last, Due setting tick → Rings admits setting tick) ↔
      ∀ tick ≤ last, Due setting tick →
        admits (tick - setting.2.period) setting.2.period := by
  have elapsed : ∀ round, (setting.1 + (round + 1) * setting.2.period - setting.1) /
      setting.2.period = round + 1 := by
    intro round
    rw [Nat.add_sub_cancel_left, Nat.mul_div_cancel _ positive]
  have armed : ∀ round, setting.1 + (round + 1) * setting.2.period - setting.2.period =
      setting.1 + round * setting.2.period := by
    intro round
    rw [Nat.add_mul, Nat.one_mul]
    omega
  constructor
  · intro all tick bound due
    obtain ⟨round, rfl, _⟩ := (due_iff positive).mp due
    have rings := (all _ bound due).2 round (by rw [elapsed]; omega)
    rwa [armed]
  · intro all tick bound due
    refine ⟨due, ?_⟩
    obtain ⟨last, rfl, again⟩ := (due_iff positive).mp due
    intro round earlier
    rw [elapsed] at earlier
    have past : setting.1 + (round + 1) * setting.2.period ≤
        setting.1 + (last + 1) * setting.2.period :=
      Nat.add_le_add_left (Nat.mul_le_mul_right _ (by omega)) _
    have admitted := all _ (past.trans bound) ((due_iff positive).mpr
      ⟨round, rfl, again.imp_right fun once => by omega⟩)
    rwa [armed] at admitted

end Rounds

variable [DecidableRel admits]

@[simp] theorem due_zero (now : Nat) : due now (0 : Multiset (Nat × Alarm β)) = 0 := rfl

@[simp] theorem rest_zero (now : Nat) : rest now (0 : Multiset (Nat × Alarm β)) = 0 := rfl

@[simp] theorem rearm_zero (now : Nat) : rearm admits now (0 : Multiset (Alarm β)) = 0 := rfl

theorem due_add (now : Nat) (left right : Multiset (Nat × Alarm β)) :
    due now (left + right) = due now left + due now right := by
  simp [due]

theorem rest_add (now : Nat) (left right : Multiset (Nat × Alarm β)) :
    rest now (left + right) = rest now left + rest now right := by
  simp [rest]

theorem due_singleton (now tick : Nat) (alarm : Alarm β) :
    due now {(tick, alarm)} = if tick = now then {alarm} else 0 := by
  by_cases same : tick = now <;> simp [due, Multiset.filter_singleton, same]

theorem rest_singleton (now tick : Nat) (alarm : Alarm β) :
    rest now {(tick, alarm)} = if tick = now then 0 else {(tick, alarm)} := by
  by_cases same : tick = now <;> simp [rest, Multiset.filter_singleton, same]

theorem rearm_singleton (now : Nat) (alarm : Alarm β) :
    rearm admits now {alarm} = if alarm.recurring then arm admits now alarm else 0 := by
  by_cases recurs : alarm.recurring <;> simp [rearm, Multiset.filter_singleton, recurs]

theorem afterTick_add (now : Nat) (left right : Multiset (Nat × Alarm β)) :
    afterTick admits now (left + right) =
      afterTick admits now left + afterTick admits now right := by
  simp only [afterTick, rest, due, rearm, Multiset.filter_add, Multiset.map_add,
    Multiset.add_bind]
  exact add_add_add_comm _ _ _ _

/-- The queue treats its entries one by one, so a tick may be computed setting
by setting. -/
theorem afterTick_bind (now tick : Nat) (settings : Multiset (Nat × Alarm β)) :
    afterTick admits tick (settings.bind (entryOf admits now)) =
      settings.bind fun setting => afterTick admits tick (entryOf admits now setting) := by
  induction settings using Multiset.induction with
  | empty => rfl
  | cons setting settings ih =>
      rw [Multiset.cons_bind, Multiset.cons_bind, afterTick_add, ih]

theorem due_bind (now tick : Nat) (settings : Multiset (Nat × Alarm β)) :
    due tick (settings.bind (entryOf admits now)) =
      settings.bind fun setting => due tick (entryOf admits now setting) := by
  induction settings using Multiset.induction with
  | empty => rfl
  | cons setting settings ih =>
      rw [Multiset.cons_bind, Multiset.cons_bind, due_add, ih]

/-- Setting an alarm makes its first entry. -/
theorem entryOf_set (now : Nat) (alarm : Alarm β) (positive : 0 < alarm.period) :
    entryOf admits now (now, alarm) = arm admits now alarm := by
  have once : rounds (now, alarm) now = 1 := by
    simp [rounds]
  simp [entryOf, Live, nextDue, arm, once, positive]

section Tick

variable {setting : Nat × Alarm β} {now : Nat}

/-- What one alarm rings at the next tick. -/
theorem due_entryOf (armed : setting.1 ≤ now) (positive : 0 < setting.2.period) :
    due (now + 1) (entryOf admits now setting) =
      if Rings admits setting (now + 1) then {setting.2} else 0 := by
  simp only [rings_iff armed positive, entryOf]
  by_cases live : Live admits setting now
  · simp [live, due_singleton]
  · simp [live]

/-- A tick takes each alarm's entry to its next one. -/
theorem afterTick_entryOf (armed : setting.1 ≤ now) :
    afterTick admits (now + 1) (entryOf admits now setting) =
      entryOf admits (now + 1) setting := by
  by_cases due : nextDue setting now = now + 1
  · have again := live_succ_of_due admits armed due
    by_cases live : Live admits setting now
    · by_cases recurs : setting.2.recurring = true
      · have advance := rounds_succ recurs armed
        rw [if_pos ((nextDue_eq_iff recurs armed).mp due)] at advance
        have next : nextDue setting (now + 1) = now + 1 + setting.2.period := by
          simp only [nextDue, advance, Nat.add_mul, Nat.one_mul] at due ⊢
          omega
        simp [entryOf, afterTick, live, due, again, recurs, next, rest_singleton, due_singleton,
          rearm_singleton, arm]
      · simp [entryOf, afterTick, live, due, again, recurs, rest_singleton, due_singleton,
          rearm_singleton]
    · simp [entryOf, afterTick, live, again]
  · obtain ⟨next, same⟩ := succ_of_not_due admits armed due
    by_cases live : Live admits setting now
    · simp [entryOf, afterTick, live, same, next, due, rest_singleton, due_singleton]
    · simp [entryOf, afterTick, live, same]

end Tick

theorem settings_later (ops : List (AlarmOp β)) (now : Nat) :
    ∀ setting ∈ settings now ops, now ≤ setting.1 := by
  induction ops generalizing now with
  | nil => simp [settings]
  | cons op ops ih =>
      cases op with
      | set alarm => simpa [settings] using ih now
      | tick =>
          intro setting member
          exact Nat.le_of_succ_le (ih (now + 1) setting member)

/-- The labels that ring at `tick` among the given settings. -/
def ringing (admits : Nat → Nat → Prop) [DecidableRel admits] (tick : Nat)
    (settings : Multiset (Nat × Alarm β)) : Multiset β :=
  (settings.filter fun setting => Rings admits setting tick).map fun setting => setting.2.label

theorem ringing_add (tick : Nat) (left right : Multiset (Nat × Alarm β)) :
    ringing admits tick (left + right) =
      ringing admits tick left + ringing admits tick right := by
  simp [ringing]

theorem ringing_later {now : Nat} {ops : List (AlarmOp β)}
    (positive : ∀ setting ∈ settings (now + 1) ops, 0 < setting.2.period) :
    ringing admits (now + 1) (settings (now + 1) ops) = 0 := by
  have none : ∀ setting ∈ settings (now + 1) ops, ¬ Rings admits setting (now + 1) := by
    intro setting member rings
    exact absurd (rings.1.later (positive setting member))
      (Nat.not_lt.mpr (settings_later ops (now + 1) setting member))
  simpa [ringing, Multiset.filter_eq_nil] using none

/-- What rings at a tick, read off the queue built from earlier settings. -/
theorem due_labels {now : Nat} {earlier : Multiset (Nat × Alarm β)}
    (armed : ∀ setting ∈ earlier, setting.1 ≤ now ∧ 0 < setting.2.period) :
    (due (now + 1) (earlier.bind (entryOf admits now))).map Alarm.label =
      ringing admits (now + 1) earlier := by
  rw [due_bind]
  induction earlier using Multiset.induction with
  | empty => rfl
  | cons setting earlier ih =>
      obtain ⟨past, positive⟩ := armed setting (Multiset.mem_cons_self _ _)
      have tail := ih fun other member => armed other (Multiset.mem_cons_of_mem member)
      rw [Multiset.cons_bind, Multiset.map_add, tail, due_entryOf past positive]
      by_cases rings : Rings admits setting (now + 1) <;> simp [ringing, rings]

/-- A run that starts from a queue built from `earlier` rings, at each tick,
exactly the settings whose closed form says so. -/
theorem run_rung_from (ops : List (AlarmOp β)) (now : Nat)
    (earlier : Multiset (Nat × Alarm β))
    (armed : ∀ setting ∈ earlier, setting.1 ≤ now ∧ 0 < setting.2.period)
    (positive : ∀ setting ∈ settings now ops, 0 < setting.2.period) :
    (run admits ⟨now, earlier.bind (entryOf admits now)⟩ ops).2 =
      (List.range (ticks ops)).map fun index =>
        ringing admits (now + index + 1) (earlier + settings now ops) := by
  induction ops generalizing now earlier with
  | nil => rfl
  | cons op ops ih =>
      cases op with
      | set alarm =>
          have period : 0 < alarm.period := positive (now, alarm) (by simp [settings])
          have entries : arm admits now alarm + earlier.bind (entryOf admits now) =
              ((now, alarm) ::ₘ earlier).bind (entryOf admits now) := by
            rw [Multiset.cons_bind, entryOf_set now alarm period]
          have tail := ih now ((now, alarm) ::ₘ earlier)
            (by simpa [period] using armed)
            (fun setting member => positive setting (by simp [settings, member]))
          simp only [run, step, Option.toList_none, List.nil_append, entries, tail, ticks, settings,
            Multiset.cons_add, Multiset.add_cons]
      | tick =>
          have entries : afterTick admits (now + 1) (earlier.bind (entryOf admits now)) =
              earlier.bind (entryOf admits (now + 1)) := by
            rw [afterTick_bind]
            exact Multiset.bind_congr fun setting member =>
              afterTick_entryOf (armed setting member).1
          have tail := ih (now + 1) earlier
            (fun setting member => ⟨Nat.le_succ_of_le (armed setting member).1,
              (armed setting member).2⟩) positive
          simp only [run, step, entries, tail, ticks, settings, due_labels armed,
            List.range_succ_eq_map, List.map_cons, List.map_map, Option.toList_some,
            List.singleton_append]
          congr 1
          · rw [ringing_add, ringing_later positive, add_zero, Nat.add_zero]
          · refine List.map_congr_left fun index _ => ?_
            simp only [Function.comp_apply, Nat.succ_eq_add_one]
            rw [show now + 1 + index + 1 = now + (index + 1) + 1 by omega]

/-- A run from the empty queue rings exactly the settings whose closed form says so. -/
theorem run_rung (ops : List (AlarmOp β)) (now : Nat)
    (positive : ∀ setting ∈ settings now ops, 0 < setting.2.period) :
    (run admits ⟨now, 0⟩ ops).2 =
      (List.range (ticks ops)).map fun index =>
        ringing admits (now + index + 1) (settings now ops) := by
  simpa using run_rung_from ops now 0 (by simp) positive

/-- As many alarms ring at a tick as are due exactly when every alarm due rings. -/
theorem countP_rings_iff (settings : Multiset (Nat × Alarm β)) (tick : Nat) :
    (settings.countP fun setting => Rings admits setting tick) =
        (settings.countP fun setting => Due setting tick) ↔
      ∀ setting ∈ settings, Due setting tick → Rings admits setting tick := by
  have within : (settings.countP fun setting => Rings admits setting tick) =
      (settings.filter fun setting => Due setting tick).countP
        fun setting => Rings admits setting tick := by
    rw [Multiset.countP_filter]
    exact Multiset.countP_congr rfl fun setting _ =>
      propext ⟨fun rings => ⟨rings, rings.1⟩, fun rings => rings.1⟩
  rw [within, Multiset.countP_eq_card_filter (fun setting => Due setting tick) settings,
    Multiset.countP_eq_card]
  simp only [Multiset.mem_filter, and_imp]

end AlarmQueue
end Xten.Std
