import Xten.Timer.Wheel

/-!
# Where the wheel keeps a timer

The arithmetic of slots. `Placed` says what the position of a timer tells about
its remaining time, `placed_slotFor` that `addNode` establishes it, and
`fires_iff_due` that the slot moved down by a tick holds exactly the timers whose
remaining time has come down to their lower digits. Slot zero of the three lower
levels is left out: `timerShift` never moves it down.
-/

namespace Xten.TimerWheelManager

variable {β : Type}

/-- Number of bits below the digit of a level. -/
def levelShift (level : Fin 4) : Nat :=
  timeNearShift + level.val * timeLevelShift

local instance : NeZero 4 := ⟨by decide⟩

local instance : NeZero 64 := ⟨by decide⟩

/-- A slot that no tick moves down: the digit zero of a level whose carry goes on
to the next level. -/
def Slot.Dead : Slot → Prop
  | .near _ => False
  | .t level index => level ≠ 3 ∧ index = 0

instance : DecidablePred Slot.Dead := fun slot =>
  match slot with
  | .near _ => inferInstanceAs (Decidable False)
  | .t _ _ => inferInstanceAs (Decidable (_ ∧ _))

/-- Ticks until a timer expires. -/
def left (now expire : BitVec 32) : Nat := (expire - now).toNat

theorem left_eq (now expire : BitVec 32) :
    left now expire = (2 ^ 32 - now.toNat + expire.toNat) % 2 ^ 32 := by
  simp [left, BitVec.toNat_sub]

@[simp] theorem nearIndex_val (time : BitVec 32) : (nearIndex time).val = time.toNat % 256 := by
  have mask : timeNearMask = 255#32 := by decide
  have mod := Nat.and_two_pow_sub_one_eq_mod time.toNat 8
  simp only [nearIndex, mask, Fin.ofNat, BitVec.toNat_and, BitVec.toNat_ofNat]
  norm_num at mod ⊢
  omega

@[simp] theorem levelIndex_val (time : BitVec 32) : (levelIndex time).val = time.toNat % 64 := by
  have mask : timeLevelMask = 63#32 := by decide
  have mod := Nat.and_two_pow_sub_one_eq_mod time.toNat 6
  simp only [levelIndex, mask, Fin.ofNat, BitVec.toNat_and, BitVec.toNat_ofNat]
  norm_num at mod ⊢
  omega

/-- The digit of a time at a level. -/
def digit (level : Fin 4) (time : BitVec 32) : Fin 64 :=
  levelIndex (time >>> levelShift level)

@[simp] theorem digit_val (level : Fin 4) (time : BitVec 32) :
    (digit level time).val = time.toNat / 2 ^ levelShift level % 64 := by
  simp [digit, Nat.shiftRight_eq_div_pow]

/-- What the position of a timer says about its remaining time. -/
def Placed (now expire : BitVec 32) : Slot → Prop
  | .near index => nearIndex expire = index ∧ left now expire < 256
  | .t level index => digit level expire = index ∧
      expire.toNat % 2 ^ levelShift level < left now expire ∧
      left now expire < 2 ^ (levelShift level + timeLevelShift)

theorem slotFor_eq (now expire : BitVec 32) :
    slotFor now expire =
      if left now expire < 256 then .near (nearIndex expire)
      else if left now expire < 16384 then .t 0 (digit 0 expire)
      else if left now expire < 1048576 then .t 1 (digit 1 expire)
      else if left now expire < 67108864 then .t 2 (digit 2 expire)
      else .t 3 (digit 3 expire) := by
  simp only [slotFor, BitVec.lt_def]
  rfl

/-- The choice of `addNode`: the near wheel for a remaining time below 256, else
the level whose digit the remaining time reaches, at the digit of the expiry. -/
theorem slotFor_cases (now expire : BitVec 32) :
    (left now expire < 256 ∧ slotFor now expire = .near (nearIndex expire)) ∨
      ∃ level, slotFor now expire = .t level (digit level expire) ∧
        2 ^ levelShift level ≤ left now expire ∧
        left now expire < 2 ^ (levelShift level + timeLevelShift) := by
  have bound : left now expire < 2 ^ 32 := (expire - now).isLt
  rw [slotFor_eq]
  split_ifs with near first second third
  · exact .inl ⟨near, rfl⟩
  · exact .inr ⟨0, rfl, by change 256 ≤ _; omega, first⟩
  · exact .inr ⟨1, rfl, by change 16384 ≤ _; omega, second⟩
  · exact .inr ⟨2, rfl, by change 1048576 ≤ _; omega, third⟩
  · exact .inr ⟨3, rfl, by change 67108864 ≤ _; omega, by change _ < 4294967296; omega⟩

/-- `addNode` puts a timer where its position tells its remaining time. -/
theorem placed_slotFor (now expire : BitVec 32) :
    Placed now expire (slotFor now expire) := by
  rcases slotFor_cases now expire with ⟨near, slot⟩ | ⟨level, slot, low, high⟩
  · rw [slot]
    exact ⟨rfl, near⟩
  · rw [slot]
    exact ⟨rfl, (Nat.mod_lt _ (Nat.two_pow_pos _)).trans_le low, high⟩

/-- One tick takes one from every positive remaining time. -/
theorem left_succ {now expire : BitVec 32} (positive : 0 < left now expire) :
    left (now + 1) expire = left now expire - 1 := by
  have timeBound := now.isLt
  have expireBound := expire.isLt
  rw [left_eq] at positive ⊢
  rw [left_eq]
  have next : (now + 1).toNat = (now.toNat + 1) % 2 ^ 32 := by
    simp [BitVec.toNat_add]
  rw [next]
  omega

/-- A timer with nothing left expires now. -/
theorem expire_of_left_zero {now expire : BitVec 32} (none : left now expire = 0) :
    expire = now := by
  have zero : expire - now = 0 := BitVec.eq_of_toNat_eq (by simpa [left] using none)
  exact sub_eq_zero.mp zero

/-- The slot that the tick to `ct` moves down. -/
def Fires (ct : BitVec 32) (level : Fin 4) (index : Fin 64) : Prop :=
  ct.toNat % 2 ^ levelShift level = 0 ∧ digit level ct = index ∧ ¬ Slot.Dead (.t level index)

/-- A timer's level slot is moved down by the tick to `ct` exactly when the time
left to it has come down to the digits below that level. -/
theorem fires_iff_due {ct expire : BitVec 32} {level : Fin 4} {index : Fin 64}
    (live : ¬ Slot.Dead (.t level index)) (slot : digit level expire = index)
    (low : expire.toNat % 2 ^ levelShift level ≤ left ct expire)
    (high : left ct expire < 2 ^ (levelShift level + timeLevelShift)) :
    Fires ct level index ↔ left ct expire = expire.toNat % 2 ^ levelShift level := by
  have timeBound := ct.isLt
  have expireBound := expire.isLt
  have same : digit level ct = index ↔ (digit level ct).val = (digit level expire).val := by
    rw [← slot, Fin.ext_iff]
  rw [Fires, same, and_iff_left live, digit_val, digit_val]
  rw [left_eq] at low high ⊢
  match level with
  | 0 =>
    change _ % 256 ≤ _ at low
    change _ < 16384 at high
    change (_ % 256 = 0 ∧ _ / 256 % 64 = _ / 256 % 64) ↔ _ = _ % 256
    omega
  | 1 =>
    change _ % 16384 ≤ _ at low
    change _ < 1048576 at high
    change (_ % 16384 = 0 ∧ _ / 16384 % 64 = _ / 16384 % 64) ↔ _ = _ % 16384
    omega
  | 2 =>
    change _ % 1048576 ≤ _ at low
    change _ < 67108864 at high
    change (_ % 1048576 = 0 ∧ _ / 1048576 % 64 = _ / 1048576 % 64) ↔ _ = _ % 1048576
    omega
  | 3 =>
    change _ % 67108864 ≤ _ at low
    change _ < 4294967296 at high
    change (_ % 67108864 = 0 ∧ _ / 67108864 % 64 = _ / 67108864 % 64) ↔ _ = _ % 67108864
    omega

/-- A mask of the source, over natural numbers. -/
theorem and_lowMask (ct : BitVec 32) (bits : Nat) (within : bits < 32) :
    ct &&& BitVec.ofNat 32 (2 ^ bits - 1) = 0 ↔ ct.toNat % 2 ^ bits = 0 := by
  have small : 2 ^ bits - 1 < 2 ^ 32 := by
    have := Nat.pow_lt_pow_right (by decide : 1 < 2) within
    omega
  rw [← BitVec.toNat_inj, BitVec.toNat_and, BitVec.toNat_ofNat, Nat.mod_eq_of_lt small,
    Nat.and_two_pow_sub_one_eq_mod]
  rfl

/-- The loop of `timer_shift`, unrolled over the four levels. -/
theorem timerShift_eq (wheel : TimerWheelManager β) :
    wheel.timerShift =
      let ct := wheel.time + 1
      let wheel := { wheel with time := ct }
      if ct = 0 then wheel.moveList 3 0
      else if ct.toNat % 256 = 0 then
        if digit 0 ct ≠ 0 then wheel.moveList 0 (digit 0 ct)
        else if ct.toNat % 16384 = 0 then
          if digit 1 ct ≠ 0 then wheel.moveList 1 (digit 1 ct)
          else if ct.toNat % 1048576 = 0 then
            if digit 2 ct ≠ 0 then wheel.moveList 2 (digit 2 ct)
            else if ct.toNat % 67108864 = 0 then
              if digit 3 ct ≠ 0 then wheel.moveList 3 (digit 3 ct) else wheel
            else wheel
          else wheel
        else wheel
      else wheel := by
  have zeroth := and_lowMask (wheel.time + 1) 8 (by decide)
  have first := and_lowMask (wheel.time + 1) 14 (by decide)
  have second := and_lowMask (wheel.time + 1) 20 (by decide)
  have third := and_lowMask (wheel.time + 1) 26 (by decide)
  have digitOne : levelIndex ((wheel.time + 1) >>> 8 >>> 6) = digit 1 (wheel.time + 1) := by
    rw [← BitVec.shiftRight_add]
    rfl
  have digitTwo : levelIndex ((wheel.time + 1) >>> 8 >>> 6 >>> 6) = digit 2 (wheel.time + 1) := by
    rw [← BitVec.shiftRight_add, ← BitVec.shiftRight_add]
    rfl
  have digitThree :
      levelIndex ((wheel.time + 1) >>> 8 >>> 6 >>> 6 >>> 6) = digit 3 (wheel.time + 1) := by
    rw [← BitVec.shiftRight_add, ← BitVec.shiftRight_add, ← BitVec.shiftRight_add]
    rfl
  have masks : timeNear - 1 = BitVec.ofNat 32 (2 ^ 8 - 1) ∧
      (timeNear <<< 6) - 1 = BitVec.ofNat 32 (2 ^ 14 - 1) ∧
      (timeNear <<< 6 <<< 6) - 1 = BitVec.ofNat 32 (2 ^ 20 - 1) ∧
      (timeNear <<< 6 <<< 6 <<< 6) - 1 = BitVec.ofNat 32 (2 ^ 26 - 1) := by decide
  obtain ⟨maskZero, maskOne, maskTwo, maskThree⟩ := masks
  simp only [timerShift, shiftLoop, timeNearShift, timeLevelShift, maskZero, maskOne, maskTwo,
    maskThree, zeroth, first, second, third, digitOne, digitTwo, digitThree]
  rfl

/-- A time whose digits below a level are all zero has the digit zero at every
lower level. -/
theorem digit_zero_of_lower {ct : BitVec 32} {lower level : Fin 4} (below : lower < level)
    (zeros : ct.toNat % 2 ^ levelShift level = 0) : digit lower ct = 0 := by
  have wider : levelShift lower + timeLevelShift ≤ levelShift level := by
    simp only [levelShift, timeNearShift, timeLevelShift]
    omega
  obtain ⟨quotient, total⟩ := (Nat.pow_dvd_pow 2 wider).trans (Nat.dvd_of_mod_eq_zero zeros)
  apply Fin.ext
  rw [digit_val, total, Nat.pow_add, Nat.mul_assoc,
    Nat.mul_div_cancel_left _ (Nat.two_pow_pos _)]
  exact Nat.mul_mod_right 64 quotient

/-- At most one slot is moved down by a tick. -/
theorem Fires.unique {ct : BitVec 32} {level level' : Fin 4} {index index' : Fin 64}
    (fires : Fires ct level index) (fires' : Fires ct level' index') :
    level = level' ∧ index = index' := by
  have sameLevel : level = level' := by
    rcases lt_trichotomy level level' with below | same | below
    · have zero := digit_zero_of_lower below fires'.1
      exact absurd ⟨by omega, fires.2.1.symm.trans zero⟩ fires.2.2
    · exact same
    · have zero := digit_zero_of_lower below fires.1
      exact absurd ⟨by omega, fires'.2.1.symm.trans zero⟩ fires'.2.2
  subst sameLevel
  exact ⟨rfl, fires.2.1.symm.trans fires'.2.1⟩

/-- A zero digit above digits that are all zero leaves one more level of zeros. -/
theorem zeros_succ {ct : BitVec 32} (level : Fin 4)
    (zeros : ct.toNat % 2 ^ levelShift level = 0) (zeroDigit : digit level ct = 0) :
    ct.toNat % 2 ^ (levelShift level + timeLevelShift) = 0 := by
  have zero : ct.toNat / 2 ^ levelShift level % 2 ^ timeLevelShift = 0 := by
    rw [Fin.ext_iff, digit_val] at zeroDigit
    exact zeroDigit
  rw [Nat.pow_add, Nat.mod_mul, zeros, zero, Nat.mul_zero]

/-- `timer_shift` moves down the slot that fires, and only advances the time when
there is none. -/
theorem timerShift_cases (wheel : TimerWheelManager β) :
    (∃ level index, Fires (wheel.time + 1) level index ∧
      wheel.timerShift = { wheel with time := wheel.time + 1 }.moveList level index) ∨
    ((∀ level index, ¬ Fires (wheel.time + 1) level index) ∧
      wheel.timerShift = { wheel with time := wheel.time + 1 }) := by
  rw [timerShift_eq]
  generalize wheel.time + 1 = ct
  dsimp only
  by_cases wrapped : ct = 0
  · rw [if_pos wrapped, wrapped]
    exact .inl ⟨3, 0, ⟨rfl, rfl, by simp [Slot.Dead]⟩, rfl⟩
  rw [if_neg wrapped]
  by_cases zeroth : ct.toNat % 256 = 0
  swap
  · rw [if_neg zeroth]
    refine .inr ⟨?_, rfl⟩
    rintro level index ⟨zeros, -, -⟩
    have wider : 8 ≤ levelShift level := by simp [levelShift, timeNearShift]
    exact zeroth (Nat.mod_eq_zero_of_dvd
      ((Nat.pow_dvd_pow 2 wider).trans (Nat.dvd_of_mod_eq_zero zeros)))
  rw [if_pos zeroth]
  by_cases digitZero : digit 0 ct = 0
  swap
  · rw [if_pos digitZero]
    exact .inl ⟨0, _, ⟨zeroth, rfl, fun dead => digitZero dead.2⟩, rfl⟩
  have first : ct.toNat % 16384 = 0 := zeros_succ 0 zeroth digitZero
  rw [if_neg (not_not.mpr digitZero), if_pos first]
  by_cases digitOne : digit 1 ct = 0
  swap
  · rw [if_pos digitOne]
    exact .inl ⟨1, _, ⟨first, rfl, fun dead => digitOne dead.2⟩, rfl⟩
  have second : ct.toNat % 1048576 = 0 := zeros_succ 1 first digitOne
  rw [if_neg (not_not.mpr digitOne), if_pos second]
  by_cases digitTwo : digit 2 ct = 0
  swap
  · rw [if_pos digitTwo]
    exact .inl ⟨2, _, ⟨second, rfl, fun dead => digitTwo dead.2⟩, rfl⟩
  have third : ct.toNat % 67108864 = 0 := zeros_succ 2 second digitTwo
  rw [if_neg (not_not.mpr digitTwo), if_pos third]
  by_cases digitThree : digit 3 ct = 0
  · -- All the digits are zero, and the time is not.
    have all : ct.toNat % 4294967296 = 0 := zeros_succ 3 third digitThree
    have none : ct.toNat = 0 := by rwa [Nat.mod_eq_of_lt ct.isLt] at all
    exact absurd (BitVec.eq_of_toNat_eq none) wrapped
  · rw [if_pos digitThree]
    exact .inl ⟨3, _, ⟨third, rfl, by simp [Slot.Dead]⟩, rfl⟩

/-- Where timers are between ticks: nothing is due. -/
def Waiting (now expire : BitVec 32) (slot : Slot) : Prop :=
  Placed now expire slot ∧ 0 < left now expire

/-- Where timers are while a tick is under way: those of the slot about to move
down have only the digits below it left. -/
def Shifting (now expire : BitVec 32) : Slot → Prop
  | .near index => nearIndex expire = index ∧ left now expire < 256
  | .t level index => digit level expire = index ∧
      expire.toNat % 2 ^ levelShift level ≤ left now expire ∧
      left now expire < 2 ^ (levelShift level + timeLevelShift)

theorem Waiting.succ {now expire : BitVec 32} {slot : Slot} (waiting : Waiting now expire slot) :
    Shifting (now + 1) expire slot := by
  have next := left_succ waiting.2
  have positive := waiting.2
  match slot, waiting.1 with
  | .near _, ⟨same, near⟩ => exact ⟨same, by omega⟩
  | .t _ _, ⟨same, low, high⟩ => exact ⟨same, by omega, by omega⟩

/-- A timer whose slot does not fire is where its remaining time says. -/
theorem Shifting.placed {ct expire : BitVec 32} {slot : Slot} (shifting : Shifting ct expire slot)
    (moves : ¬ slot.Dead) (still : ∀ level index, slot = .t level index → ¬ Fires ct level index) :
    Placed ct expire slot := by
  match slot, shifting with
  | .near _, placed => exact placed
  | .t level index, ⟨same, low, high⟩ =>
      have notDue := mt (fires_iff_due moves same low high).mpr (still level index rfl)
      exact ⟨same, by omega, high⟩

/-- A timer with only the digits below a level left goes to a lower slot that
ticks do move down. -/
theorem slotFor_lower {ct expire : BitVec 32} {level : Fin 4} (index : Fin 64)
    (lower : left ct expire = expire.toNat % 2 ^ levelShift level) :
    ¬ (slotFor ct expire).Dead ∧ slotFor ct expire ≠ .t level index := by
  rcases slotFor_cases ct expire with ⟨_, slot⟩ | ⟨level', slot, low, high⟩
  · rw [slot]
    exact ⟨by simp [Slot.Dead], by simp⟩
  · have short : left ct expire < 2 ^ levelShift level := by
      rw [lower]
      exact Nat.mod_lt _ (Nat.two_pow_pos _)
    have below : levelShift level' < levelShift level :=
      (Nat.pow_lt_pow_iff_right (by decide : 1 < 2)).mp (low.trans_lt short)
    have wider : levelShift level' + timeLevelShift ≤ levelShift level := by
      simp only [levelShift, timeNearShift, timeLevelShift] at below ⊢
      omega
    rw [slot]
    constructor
    · rintro ⟨_, zero⟩
      have digits : expire.toNat / 2 ^ levelShift level' % 64 = 0 := by
        rw [← digit_val, zero]
        rfl
      have remaining : left ct expire = expire.toNat % 2 ^ levelShift level' := by
        have same : left ct expire % 2 ^ (levelShift level' + timeLevelShift) =
            expire.toNat % 2 ^ (levelShift level' + timeLevelShift) := by
          rw [lower, Nat.mod_mod_of_dvd _ (Nat.pow_dvd_pow 2 wider)]
        rw [Nat.mod_eq_of_lt high, Nat.pow_add, Nat.mod_mul] at same
        rw [same]
        change _ + _ * (expire.toNat / 2 ^ levelShift level' % 64) = _
        rw [digits, Nat.mul_zero, Nat.add_zero]
      have bound := Nat.mod_lt expire.toNat (Nat.two_pow_pos (levelShift level'))
      omega
    · intro same
      injection same with sameLevel
      rw [sameLevel] at below
      exact lt_irrefl _ below

end Xten.TimerWheelManager
