import TmsCores.Bus.Flat
import TmsCores.Proofs.Arithmetic.Mask
import TmsCores.Tms7000.Machine

namespace TmsCores.Tms7000

namespace Timer

def prescale (timer : Timer) : Nat :=
  (timer.control &&& prescaleMask).toNat

def period (timer : Timer) : Nat :=
  (timer.prescale + 1) * (timer.reload.toNat + 1)

/-- The clocks up to the next underflow, that clock included. -/
def remaining (timer : Timer) : Nat :=
  timer.prescaler.toNat + 1 + timer.decrementer.toNat * (timer.prescale + 1)

/-- What some clocks in a row tell of the decrementer, and the timer after them. -/
def clocks (timer : Timer) : Nat → List Bool × Timer
  | 0 => ([], timer)
  | count + 1 =>
      let (expired, next) := timer.clock
      let (rest, last) := next.clocks count
      (expired :: rest, last)

/-- The timer runs out at some clock, the first one being number 1. -/
def UnderflowsAt (timer : Timer) (number : Nat) : Prop :=
  ∃ rounds, number = timer.remaining + rounds * timer.period

def underflowCount (timer : Timer) (count : Nat) : Nat :=
  if count < timer.remaining then 0 else 1 + (count - timer.remaining) / timer.period

variable {timer : Timer}

theorem period_pos (timer : Timer) : 0 < timer.period :=
  Nat.mul_pos (Nat.succ_pos _) (Nat.succ_pos _)

theorem remaining_pos (timer : Timer) : 0 < timer.remaining :=
  Nat.add_pos_left (Nat.succ_pos _) _

/-- Bit 7 of the control register starts the timer, and bit 6 has it count an external clock. -/
theorem isRunning_iff : timer.isRunning = true ↔
    timer.control.toNat.testBit 7 = true ∧ timer.control.toNat.testBit 6 = false := by
  have hexternal : (timer.control &&& externalBit == 0) = !timer.control.toNat.testBit 6 := by
    have hbit : externalBit.toNat = 2 ^ 6 := rfl
    rw [← Word.byte_and_bit_ne_zero hbit, bne, Bool.not_not]
  rw [isRunning, Word.byte_and_bit_ne_zero (i := 7) rfl, hexternal, Bool.and_eq_true,
    Bool.not_eq_true']

theorem clock_of_stopped (h : timer.isRunning = false) : timer.clock = (false, timer) := by
  rw [clock, h]
  rfl

theorem toNat_sub_one {count : UInt8} (h : 0 < count) : (count - 1).toNat = count.toNat - 1 :=
  UInt8.toNat_sub_of_le _ _ (UInt8.le_iff_toNat_le.mpr (UInt8.lt_iff_toNat_lt.mp h))

/-- A clock of a running timer takes one of the clocks that remain, and the last one starts a new
period. -/
theorem clock_of_running (h : timer.isRunning = true) :
    timer.clock.1 = decide (timer.remaining = 1) ∧ timer.clock.2.isRunning = true ∧
      timer.clock.2.period = timer.period ∧ timer.clock.2.remaining =
        if timer.remaining = 1 then timer.period else timer.remaining - 1 := by
  have hzero {count : UInt8} (hcount : ¬count > 0) : count.toNat = 0 := by
    rw [gt_iff_lt, UInt8.lt_iff_toNat_lt] at hcount
    exact Nat.eq_zero_of_not_pos hcount
  rw [clock, h, Bool.not_true, if_neg Bool.false_ne_true]
  split
  · next hprescaler =>
      have hpos : 0 < timer.prescaler.toNat := UInt8.lt_iff_toNat_lt.mp hprescaler
      have hmore : timer.remaining ≠ 1 := by
        rw [remaining]
        omega
      refine ⟨(decide_eq_false hmore).symm, h, rfl, ?_⟩
      rw [if_neg hmore, remaining, remaining, toNat_sub_one hprescaler]
      change _ + timer.decrementer.toNat * (timer.prescale + 1) = _
      omega
  · next hprescaler =>
      have hprescaler := hzero hprescaler
      split
      -- The prescaler starts over, and the decrementer has one round less to go.
      · next hdecrementer =>
          have hpos : 0 < timer.decrementer.toNat := UInt8.lt_iff_toNat_lt.mp hdecrementer
          obtain ⟨left, hleft⟩ : ∃ left, timer.decrementer.toNat = left + 1 :=
            Nat.exists_eq_add_one_of_ne_zero (Nat.ne_of_gt hpos)
          have hremaining : timer.remaining =
              1 + (left * (timer.prescale + 1) + (timer.prescale + 1)) := by
            rw [remaining, hprescaler, hleft, Nat.succ_mul]
          have hmore : timer.remaining ≠ 1 := by omega
          refine ⟨(decide_eq_false hmore).symm, h, rfl, ?_⟩
          rw [if_neg hmore, hremaining, remaining, toNat_sub_one hdecrementer, hleft]
          change timer.prescale + 1 + (left + 1 - 1) * (timer.prescale + 1) = _
          rw [Nat.add_sub_cancel]
          omega
      · next hdecrementer =>
          have hlast : timer.remaining = 1 := by
            rw [remaining, hprescaler, hzero hdecrementer, Nat.zero_mul]
          refine ⟨(decide_eq_true hlast).symm, h, rfl, ?_⟩
          rw [if_pos hlast, period, Nat.mul_comm, Nat.succ_mul, Nat.add_comm]
          rfl

theorem clocks_of_stopped (h : timer.isRunning = false) (count : Nat) :
    timer.clocks count = (List.replicate count false, timer) := by
  induction count with
  | zero => rfl
  | succ count ih =>
      simp only [clocks, clock_of_stopped h, ih]
      rfl

theorem underflowsAt_clock (h : timer.isRunning = true) (number : Nat) :
    timer.clock.2.UnderflowsAt (number + 1) ↔ timer.UnderflowsAt (number + 2) := by
  obtain ⟨-, -, hperiod, hremaining⟩ := clock_of_running h
  have hpos := timer.remaining_pos
  simp only [UnderflowsAt, hperiod, hremaining]
  by_cases hlast : timer.remaining = 1
  · rw [if_pos hlast, hlast]
    constructor
    · rintro ⟨rounds, hnumber⟩
      refine ⟨rounds + 1, ?_⟩
      rw [Nat.succ_mul]
      omega
    · rintro ⟨rounds, hnumber⟩
      cases rounds with
      | zero => omega
      | succ rounds =>
          refine ⟨rounds, ?_⟩
          rw [Nat.succ_mul] at hnumber
          omega
  · rw [if_neg hlast]
    constructor
    · rintro ⟨rounds, hnumber⟩
      exact ⟨rounds, by omega⟩
    · rintro ⟨rounds, hnumber⟩
      exact ⟨rounds, by omega⟩

theorem underflowsAt_one_iff (timer : Timer) : timer.UnderflowsAt 1 ↔ timer.remaining = 1 := by
  have hpos := timer.remaining_pos
  constructor
  · rintro ⟨rounds, hnumber⟩
    omega
  · intro hlast
    exact ⟨0, by omega⟩

/-- The underflows of a running timer are one period apart. -/
theorem getElem?_clocks (h : timer.isRunning = true) {count index : Nat} (hindex : index < count) :
    (timer.clocks count).1[index]? = some true ↔ timer.UnderflowsAt (index + 1) := by
  induction count generalizing timer index with
  | zero => exact absurd hindex (Nat.not_lt_zero index)
  | succ count ih =>
      obtain ⟨hexpired, hrunning, -, -⟩ := clock_of_running h
      cases index with
      | zero =>
          rw [underflowsAt_one_iff]
          simp only [clocks, List.getElem?_cons_zero, Option.some.injEq, hexpired,
            decide_eq_true_eq]
      | succ index =>
          rw [← underflowsAt_clock h, ← ih hrunning (Nat.lt_of_succ_lt_succ hindex)]
          rfl

theorem underflowCount_succ (h : timer.isRunning = true) (count : Nat) :
    timer.underflowCount (count + 1) =
      timer.clock.2.underflowCount count + if timer.clock.1 = true then 1 else 0 := by
  obtain ⟨hexpired, -, hperiod, hremaining⟩ := clock_of_running h
  have hpos := timer.remaining_pos
  simp only [underflowCount, hperiod, hremaining, hexpired, decide_eq_true_eq]
  by_cases hlast : timer.remaining = 1
  · have hdiv := Nat.div_eq count timer.period
    simp only [hlast, if_true, Nat.add_sub_cancel, timer.period_pos, true_and] at hdiv ⊢
    rw [if_neg (by omega), hdiv]
    split
    · rw [if_neg (by omega)]
      omega
    · rw [if_pos (by omega)]
  · simp only [hlast, if_false]
    by_cases hmore : count < timer.remaining - 1
    · rw [if_pos hmore, if_pos (by omega)]
    · have hleft : count + 1 - timer.remaining = count - (timer.remaining - 1) := by omega
      rw [if_neg hmore, if_neg (by omega), hleft, Nat.add_zero]

theorem count_clocks (h : timer.isRunning = true) (count : Nat) :
    (timer.clocks count).1.count true = timer.underflowCount count := by
  induction count generalizing timer with
  | zero => exact (if_pos timer.remaining_pos).symm
  | succ count ih =>
      obtain ⟨-, hrunning, -, -⟩ := clock_of_running h
      rw [underflowCount_succ h, ← ih hrunning]
      simp only [clocks, List.count_cons, beq_iff_eq]

theorem length_clocks (timer : Timer) (count : Nat) : (timer.clocks count).1.length = count := by
  induction count generalizing timer with
  | zero => rfl
  | succ count ih => exact congrArg Nat.succ (ih _)

theorem getElem?_clocks_congr {other : Timer} (h : timer.isRunning = true)
    (hother : other.isRunning = true) {count index : Nat} (hindex : index < count)
    (hsame : timer.UnderflowsAt (index + 1) ↔ other.UnderflowsAt (index + 1)) :
    (timer.clocks count).1[index]? = (other.clocks count).1[index]? := by
  have htold : index < (timer.clocks count).1.length := by rwa [length_clocks]
  have hotherTold : index < (other.clocks count).1.length := by rwa [length_clocks]
  have hiff := ((getElem?_clocks h hindex).trans hsame).trans (getElem?_clocks hother hindex).symm
  rw [List.getElem?_eq_getElem htold, List.getElem?_eq_getElem hotherTold] at hiff ⊢
  simp only [Option.some.injEq] at hiff ⊢
  exact Bool.eq_iff_iff.mpr hiff

theorem underflowsAt_iff_of_le {number : Nat} (h : number ≤ timer.remaining) :
    timer.UnderflowsAt number ↔ number = timer.remaining := by
  constructor
  · rintro ⟨rounds, hnumber⟩
    omega
  · intro hnumber
    exact ⟨0, by omega⟩

section Start

variable {value : UInt8} (hstart : value &&& startBit ≠ 0)

include hstart

theorem isRunning_writeControl (hinternal : value &&& externalBit = 0) :
    (timer.writeControl value).isRunning = true := by
  rw [writeControl, if_neg hstart, isRunning, hinternal]
  exact Bool.and_eq_true_iff.mpr ⟨bne_iff_ne.mpr hstart, rfl⟩

theorem period_writeControl (timer : Timer) : (timer.writeControl value).period =
    ((value &&& prescaleMask).toNat + 1) * (timer.reload.toNat + 1) := by
  rw [writeControl, if_neg hstart]
  rfl

theorem remaining_writeControl (timer : Timer) :
    (timer.writeControl value).remaining = (timer.writeControl value).period := by
  rw [writeControl, if_neg hstart, period, Nat.mul_comm, Nat.succ_mul, Nat.add_comm]
  rfl

end Start

theorem underflowsAt_iff_dvd (h : timer.remaining = timer.period) {number : Nat}
    (hnumber : 0 < number) : timer.UnderflowsAt number ↔ timer.period ∣ number := by
  rw [UnderflowsAt, h]
  constructor
  · rintro ⟨rounds, rfl⟩
    exact Nat.dvd_add (Nat.dvd_refl _) (Nat.dvd_mul_left _ _)
  · rintro ⟨rounds, rfl⟩
    obtain ⟨earlier, rfl⟩ :=
      Nat.exists_eq_add_one_of_ne_zero (Nat.ne_of_gt (Nat.pos_of_mul_pos_left hnumber))
    exact ⟨earlier, by rw [Nat.mul_succ, Nat.mul_comm, Nat.add_comm]⟩

end Timer

open Timer in
/-- Timer 1 has a closed form.  A running timer runs out when the clocks that remain are over, and
then once in each period, whatever the clocks are counted from; a timer that is stopped or takes its
clocks from elsewhere stays as it is.  A start begins a whole period, and a new reload value counts
from the next underflow on. -/
theorem timer_underflows_periodically {β : Type} [Bus β] (machine : Machine β) :
    let timer := machine.cpu.peripherals.timer
    (timer.isRunning = true ↔
      timer.control.toNat.testBit 7 = true ∧ timer.control.toNat.testBit 6 = false) ∧
    (timer.isRunning = true → ∀ count,
      (timer.clocks count).1.count true = timer.underflowCount count ∧
      ∀ index < count,
        (timer.clocks count).1[index]? = some true ↔ timer.UnderflowsAt (index + 1)) ∧
    (timer.isRunning = false → ∀ count,
      timer.clocks count = (List.replicate count false, timer)) ∧
    (∀ value, value &&& startBit ≠ 0 → value &&& externalBit = 0 →
      let started := (Exec.writePeripheral 3 value machine).2.cpu.peripherals.timer
      ∀ count, ∀ index < count,
        (started.clocks count).1[index]? = some true ↔
          ((value &&& prescaleMask).toNat + 1) * (timer.reload.toNat + 1) ∣ index + 1) ∧
    (timer.isRunning = true → ∀ value,
      let reloaded := (Exec.writePeripheral 2 value machine).2.cpu.peripherals.timer
      ∀ count, ∀ index < count,
        (index < timer.remaining →
          (reloaded.clocks count).1[index]? = (timer.clocks count).1[index]?) ∧
        ((reloaded.clocks count).1[index]? = some true ↔
          ∃ rounds, index + 1 =
            timer.remaining + rounds * ((timer.prescale + 1) * (value.toNat + 1)))) := by
  intro timer
  refine ⟨isRunning_iff, ?_, clocks_of_stopped, ?_, ?_⟩
  · intro h count
    exact ⟨count_clocks h count, fun _ hindex => getElem?_clocks h hindex⟩
  · intro value hstart hinternal started count index hindex
    have hstarted : started = timer.writeControl value := rfl
    rw [hstarted, getElem?_clocks (isRunning_writeControl hstart hinternal) hindex,
      underflowsAt_iff_dvd (remaining_writeControl hstart timer) (Nat.succ_pos index),
      period_writeControl hstart]
  · intro h value reloaded count index hindex
    have hrunning : reloaded.isRunning = true := h
    constructor
    · intro hearly
      refine getElem?_clocks_congr hrunning h hindex ?_
      have hreloaded : reloaded.UnderflowsAt (index + 1) ↔ index + 1 = timer.remaining :=
        underflowsAt_iff_of_le hearly
      exact hreloaded.trans (underflowsAt_iff_of_le hearly).symm
    · exact getElem?_clocks hrunning hindex

/-- A timer in the middle of a period, with a prescaler of 5 and a reload value of 6. -/
def Machine.inPeriod : Machine FlatBus where
  cpu := { Cpu.ofConfig Variant.tms7000.config with
    peripherals.timer :=
      { reload := 6, control := 0x84, prescaler := 3, decrementer := 2 } }
  bus := {}

/-- A new timer that an external clock is selected for. -/
def Machine.clockedFromOutside : Machine FlatBus where
  cpu := { Cpu.ofConfig Variant.tms7000.config with
    peripherals.timer := { control := 0xC4, decrementer := 2 } }
  bus := {}

/-- With 14 clocks left of a period of 35, the timer runs out three times in 100 clocks.  A new
reload value of 1 leaves the first of them and lets the next come 10 clocks after it, and a start
makes the 35th clock the first.  A new timer does not run, and neither does one that was started on
an external clock. -/
theorem timer_underflows_periodically_in_period :
    let timer := Machine.inPeriod.cpu.peripherals.timer
    let started := (Exec.writePeripheral 3 0x84 Machine.inPeriod).2.cpu.peripherals.timer
    let reloaded := (Exec.writePeripheral 2 1 Machine.inPeriod).2.cpu.peripherals.timer
    let external := Machine.clockedFromOutside.cpu.peripherals.timer
    (timer.clocks 100).1.count true = 3 ∧
      (timer.clocks 100).1[48]? = some true ∧
      (started.clocks 100).1[34]? = some true ∧
      (reloaded.clocks 100).1[13]? = some true ∧
      (reloaded.clocks 100).1[23]? = some true ∧
      (Timer.clocks {} 9) = (List.replicate 9 false, {}) ∧
      external.clocks 9 = (List.replicate 9 false, external) := by
  intro timer started reloaded external
  obtain ⟨hiff, hrunning, -, hstarted, hreloaded⟩ := timer_underflows_periodically Machine.inPeriod
  let new : Machine FlatBus := { cpu := .ofConfig Variant.tms7000.config, bus := {} }
  obtain ⟨-, -, hstopped, -, -⟩ := timer_underflows_periodically new
  obtain ⟨hselected, -, hstill, -, -⟩ :=
    timer_underflows_periodically Machine.clockedFromOutside
  have hruns : timer.isRunning = true := hiff.mpr (by decide)
  have hrests : external.isRunning = false :=
    Bool.eq_false_iff.mpr (mt hselected.mp (by decide))
  obtain ⟨hcount, hunderflows⟩ := hrunning hruns 100
  have hfresh := hreloaded hruns 1 100
  have hbefore := (hfresh 13 (by decide)).1 (by decide)
  refine ⟨hcount, (hunderflows 48 (by decide)).mpr ⟨1, by decide⟩,
    (hstarted 0x84 (by decide) (by decide) 100 34 (by decide)).mpr (by decide), ?_,
    (hfresh 23 (by decide)).2.mpr ⟨1, by decide⟩, hstopped (by decide) 9, hstill hrests 9⟩
  rw [hbefore]
  exact (hunderflows 13 (by decide)).mpr ⟨0, by decide⟩

end TmsCores.Tms7000
