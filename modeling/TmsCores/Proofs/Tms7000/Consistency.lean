import TmsCores.Proofs.Clock
import TmsCores.Proofs.Interrupt.Controller
import TmsCores.Proofs.Tms7000.Stability

namespace TmsCores.Tms7000

/-- The interrupt lines that IOCNT0 has bits for. -/
def inputLines : List UInt8 :=
  [int1, int2, int3]

theorem mem_inputLines_iff {line : UInt8} : line ∈ inputLines ↔ line.toNat < 3 := by
  simp only [inputLines, int1, int2, int3, List.mem_cons, List.not_mem_nil, or_false,
    ← UInt8.toNat_inj, UInt8.reduceToNat]
  omega

/-- The prescaler fits the bits of the control register that reload it. -/
def Timer.IsConsistent (timer : Timer) : Prop :=
  timer.prescaler ≤ prescaleMask

namespace Timer

theorem and_prescaleMask_le (value : UInt8) : value &&& prescaleMask ≤ prescaleMask := by
  rw [UInt8.le_iff_toNat_le, UInt8.toNat_and]
  exact Nat.and_le_right

namespace IsConsistent

variable {timer : Timer}

theorem writeControl (h : timer.IsConsistent) (value : UInt8) :
    (timer.writeControl value).IsConsistent := by
  unfold Timer.writeControl
  split
  · exact h
  · exact and_prescaleMask_le value

theorem clock (h : timer.IsConsistent) : timer.clock.2.IsConsistent := by
  unfold Timer.clock
  split
  · exact h
  · split
    · next hprescaler =>
        have hless : (timer.prescaler - 1).toNat ≤ timer.prescaler.toNat := by
          have hone : (1 : UInt8) ≤ timer.prescaler := by
            rw [UInt8.le_iff_toNat_le]
            exact UInt8.lt_iff_toNat_lt.mp hprescaler
          rw [UInt8.toNat_sub_of_le _ _ hone]
          exact Nat.sub_le _ _
        exact UInt8.le_iff_toNat_le.mpr (Nat.le_trans hless (UInt8.le_iff_toNat_le.mp h))
    · split
      · exact and_prescaleMask_le timer.control
      · exact and_prescaleMask_le timer.control

end IsConsistent

end Timer

namespace Cpu

theorem isEnabled_syncEnables (peripherals : PeripheralFile) {interrupts : InterruptController}
    (hsize : interrupts.size = 3) {line : UInt8} (hline : line ∈ inputLines) :
    (syncEnables peripherals interrupts).isEnabled line = peripherals.isEnabled line := by
  simp only [inputLines, List.mem_cons, List.not_mem_nil, or_false] at hline
  simp only [syncEnables, List.foldl_cons, List.foldl_nil]
  rcases hline with rfl | rfl | rfl
  · simp [InterruptController.isEnabled_setEnabled, hsize, int1, int2, int3]
  · simp [InterruptController.isEnabled_setEnabled, hsize, int1, int2, int3]
  · simp [InterruptController.isEnabled_setEnabled, hsize, int1, int2, int3]

@[simp] theorem configs_syncEnables (peripherals : PeripheralFile)
    (interrupts : InterruptController) :
    (syncEnables peripherals interrupts).configs = interrupts.configs := by
  simp [syncEnables]

@[simp] theorem configs_clearLatch (value : UInt8) (interrupts : InterruptController)
    (line : UInt8) : (clearLatch value interrupts line).configs = interrupts.configs := by
  unfold clearLatch
  split
  · exact InterruptController.configs_setLatch interrupts line false
  · rfl

@[simp] theorem compare_clearLatch (value : UInt8) (interrupts : InterruptController)
    (line : UInt8) : (clearLatch value interrupts line).compare = interrupts.compare := by
  unfold clearLatch
  split
  · rfl
  · rfl

/-- What holds of every processor that was made for a configuration, at any time. -/
structure IsConsistent (config : Config) (cpu : Cpu) : Prop where
  config_eq : cpu.config = config.clamp
  file_size : cpu.file.size = config.clamp.registerCount.toNat
  st_stored : Status.IsStored cpu.st
  control_unflagged : cpu.peripherals.control &&& PeripheralFile.flagBits = 0
  enables_synced : ∀ line ∈ inputLines,
    cpu.interrupts.isEnabled line = cpu.peripherals.isEnabled line
  timer : cpu.peripherals.timer.IsConsistent
  divisor_eq : cpu.divider.divisor = (TickDivider.ofDivisor config.tickDivider).divisor
  inPhase : cpu.divider.InPhase
  configs_eq : cpu.interrupts.configs = lineConfigs
  compare_eq : cpu.interrupts.compare = .atOrBelow

theorem ofConfig_isConsistent (config : Config) : (ofConfig config).IsConsistent config where
  config_eq := rfl
  file_size := Array.size_replicate
  st_stored := by
    change Status.IsStored 0
    decide
  control_unflagged := UInt8.zero_and
  enables_synced _ hline := isEnabled_syncEnables _ rfl hline
  timer := UInt8.zero_le
  divisor_eq := rfl
  inPhase := TickDivider.ofDivisor_inPhase config.tickDivider
  configs_eq := (configs_syncEnables _ _).trans (InterruptController.configs_ofLines _ _)
  compare_eq := rfl

namespace IsConsistent

variable {config : Config} {cpu : Cpu}

theorem size_interrupts (h : cpu.IsConsistent config) : cpu.interrupts.size = 3 := by
  rw [← InterruptController.length_configs, h.configs_eq]
  rfl

theorem setLatch (h : cpu.IsConsistent config) (line : UInt8) (latched : Bool) :
    IsConsistent config { cpu with interrupts := cpu.interrupts.setLatch line latched } :=
  { h with
    enables_synced := fun other hother =>
      (InterruptController.isEnabled_setLatch _ line other latched).trans
        (h.enables_synced other hother)
    configs_eq := (InterruptController.configs_setLatch _ line latched).trans h.configs_eq }

theorem writeInterruptControl (h : cpu.IsConsistent config) (value : UInt8) :
    (cpu.writeInterruptControl value).IsConsistent config := by
  have hcleared : (inputLines.foldl (clearLatch value) cpu.interrupts).configs = lineConfigs := by
    simp [inputLines, h.configs_eq]
  have hsize : (inputLines.foldl (clearLatch value) cpu.interrupts).size = 3 := by
    rw [← InterruptController.length_configs, hcleared]
    rfl
  have hcompare : (inputLines.foldl (clearLatch value) cpu.interrupts).compare = .atOrBelow := by
    simp [inputLines, h.compare_eq]
  have hflags : (value &&& ~~~PeripheralFile.flagBits) &&& PeripheralFile.flagBits = 0 := by
    rw [UInt8.and_assoc, UInt8.not_and_self, UInt8.and_zero]
  exact
    { h with
      control_unflagged := hflags
      enables_synced := fun _ hline => isEnabled_syncEnables _ hsize hline
      configs_eq := (configs_syncEnables _ _).trans hcleared
      compare_eq := hcompare }

theorem clockTimer (h : cpu.IsConsistent config) : cpu.clockTimer.IsConsistent config := by
  have hcounted : IsConsistent config
      { cpu with peripherals.timer := cpu.peripherals.timer.clock.2 } :=
    { h with timer := h.timer.clock }
  unfold Cpu.clockTimer
  dsimp only
  split
  · exact hcounted.setLatch int2 true
  · exact hcounted

theorem drive (h : cpu.IsConsistent config) (line : UInt8) (state : LineState) :
    (cpu.drive line state).IsConsistent config := by
  have hdriven : IsConsistent config
      { cpu with interrupts := (cpu.interrupts.drive line state).2 } :=
    { h with
      enables_synced := fun other hother =>
        (InterruptController.isEnabled_drive _ line other state).trans
          (h.enables_synced other hother)
      configs_eq := (InterruptController.configs_drive _ line state).trans h.configs_eq }
  unfold Cpu.drive
  dsimp only
  split
  · exact { hdriven with }
  · exact hdriven

theorem powerUp (h : cpu.IsConsistent config) : cpu.powerUp.IsConsistent config := by
  have hreset : cpu.interrupts.reset.configs = lineConfigs :=
    (InterruptController.configs_reset _).trans h.configs_eq
  have hsize : cpu.interrupts.reset.size = 3 := by
    rw [← InterruptController.length_configs, hreset]
    rfl
  exact
    { h with
      st_stored := by
        change Status.IsStored 0
        decide
      control_unflagged := UInt8.zero_and
      enables_synced := fun _ hline => isEnabled_syncEnables _ hsize hline
      timer := UInt8.zero_le
      inPhase := h.inPhase.reset
      configs_eq := (configs_syncEnables _ _).trans hreset }

end IsConsistent

theorem isConsistent_stable (config : Config) : Stable (IsConsistent config) where
  setRegister h _ _ :=
    { h with
      file_size := by
        rw [file_setRegister, Array.size_setIfInBounds]
        exact h.file_size }
  writeInterruptControl := IsConsistent.writeInterruptControl
  setReload h _ := { h with timer := h.timer }
  writeTimerControl h value := { h with timer := h.timer.writeControl value }
  setPc h _ := { h with }
  setSp h _ := { h with }
  setSt h _ hst := { h with st_stored := hst }
  setIdle h _ := { h with }
  acknowledge h line :=
    { h with
      enables_synced := fun other hother =>
        (InterruptController.isEnabled_acknowledge _ line other).trans
          (h.enables_synced other hother)
      configs_eq := (InterruptController.configs_acknowledge _ line).trans h.configs_eq }
  clockTimer := IsConsistent.clockTimer
  advance h cycles := { h with inPhase := h.inPhase.advance cycles }
  drive := IsConsistent.drive
  powerUp := IsConsistent.powerUp

end Cpu

end TmsCores.Tms7000
