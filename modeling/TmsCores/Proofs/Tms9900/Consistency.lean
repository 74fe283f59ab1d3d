import TmsCores.Proofs.Clock
import TmsCores.Proofs.Interrupt.Controller
import TmsCores.Proofs.Tms9900.Stability

namespace TmsCores.Tms9900

namespace Decrementer

/-- The count is between one and the start value, or both are zero. -/
def IsConsistent (decrementer : Decrementer) : Prop :=
  decrementer.count ≤ decrementer.start ∧ (decrementer.count = 0 ↔ decrementer.start = 0)

theorem ofStart_isConsistent (value : UInt16) : (ofStart value).IsConsistent :=
  ⟨UInt16.le_refl value, Iff.rfl⟩

theorem IsConsistent.clock {decrementer : Decrementer} (h : decrementer.IsConsistent) :
    decrementer.clock.2.IsConsistent := by
  unfold Decrementer.clock
  split
  · exact h
  · next hstart =>
      split
      · exact ⟨UInt16.le_refl _, Iff.rfl⟩
      · next hcount =>
          have hle : decrementer.count.toNat ≤ decrementer.start.toNat :=
            UInt16.le_iff_toNat_le.mp h.1
          have hzero : decrementer.count.toNat = 0 ↔ decrementer.start.toNat = 0 := by
            simpa [← UInt16.toNat_inj] using h.2
          have hpositive : decrementer.start.toNat ≠ 0 := by
            simpa [← UInt16.toNat_inj] using hstart
          have hmore : decrementer.count.toNat ≠ 1 := by
            simpa [← UInt16.toNat_inj] using hcount
          have hone : (decrementer.count - 1).toNat = decrementer.count.toNat - 1 :=
            UInt16.toNat_sub_of_le _ _ (UInt16.le_iff_toNat_le.mpr (by simp; omega))
          constructor
          · exact UInt16.le_iff_toNat_le.mpr (by dsimp only; omega)
          · simp only [← UInt16.toNat_inj, hone, UInt16.toNat_zero]
            omega

end Decrementer

/-- The bits that a flag register never has of its own: they are interrupt latches. -/
def OnChip.latchBits : UInt16 :=
  0x001C

theorem flagNumber?_lt {bit number : UInt16} (h : flagNumber? bit = some number) :
    number.toNat < 16 := by
  unfold flagNumber? at h
  split at h
  · next hrange =>
      obtain rfl := Option.some.inj h
      simp only [Bool.and_eq_true, decide_eq_true_eq, UInt16.le_iff_toNat_le,
        UInt16.lt_iff_toNat_lt] at hrange
      have hbase : flagBase.toNat = 0x0F70 := rfl
      have hend : (flagBase + 16).toNat = 0x0F80 := rfl
      rw [UInt16.toNat_sub_of_le _ _ (UInt16.le_iff_toNat_le.mpr hrange.1)]
      omega
  · exact absurd h nofun

theorem flag_and_latchBits {bit number : UInt16} (hnumber : flagNumber? bit = some number)
    (hlatch : latchLine? number = none) : (1 <<< number) &&& OnChip.latchBits = 0 := by
  have hall : ∀ n < 16, latchLine? (UInt16.ofNat n) = none →
      (1 <<< UInt16.ofNat n) &&& OnChip.latchBits = 0 := by
    decide
  have hflag := hall number.toNat (flagNumber?_lt hnumber)
  rw [UInt16.ofNat_toNat] at hflag
  exact hflag hlatch

/-- What holds of every processor that was made for a configuration, at any time. -/
structure Cpu.IsConsistent (config : Config) (cpu : Cpu) : Prop where
  config_eq : cpu.config = config
  pc_even : cpu.pc.toNat % 2 = 0
  wp_even : cpu.wp.toNat % 2 = 0
  /-- The status register stays within its mask if instructions cannot leave the mask. -/
  st_masked : Status.writable &&& ~~~config.statusMask = 0 →
    cpu.st &&& ~~~config.statusMask = 0
  ram_size : cpu.chip.ram.size = 0x100
  flags_unlatched : cpu.chip.flags &&& OnChip.latchBits = 0
  decrementer : cpu.chip.decrementer.IsConsistent
  divisor_eq : cpu.divider.divisor = (TickDivider.ofDivisor config.tickDivider).divisor
  inPhase : cpu.divider.InPhase
  configs_eq : cpu.interrupts.configs = lineConfigs config
  allEnabled : cpu.interrupts.AllEnabled
  compare_eq : cpu.interrupts.compare = .atOrBelow

namespace Cpu

theorem ofConfig_isConsistent (config : Config) : (ofConfig config).IsConsistent config where
  config_eq := rfl
  pc_even := rfl
  wp_even := rfl
  st_masked _ := UInt16.zero_and
  ram_size := Array.size_replicate
  flags_unlatched := UInt16.zero_and
  decrementer := Decrementer.ofStart_isConsistent 0
  divisor_eq := rfl
  inPhase := TickDivider.ofDivisor_inPhase config.tickDivider
  configs_eq := InterruptController.configs_ofLines _ _
  allEnabled := InterruptController.ofLines_allEnabled _ _
  compare_eq := rfl

namespace IsConsistent

variable {config : Config} {cpu : Cpu}

theorem setLatch (h : cpu.IsConsistent config) (line : UInt8) (latched : Bool) :
    (cpu.setLatch line latched).IsConsistent config :=
  { h with
    configs_eq := (InterruptController.configs_setLatch _ line latched).trans h.configs_eq
    allEnabled := h.allEnabled.setLatch line latched }

theorem withSt (h : cpu.IsConsistent config) {st : UInt16}
    (hst : Status.writable &&& ~~~config.statusMask = 0 → st &&& ~~~config.statusMask = 0) :
    IsConsistent config { cpu with st := st } :=
  { h with st_masked := hst }

theorem modifySt (h : cpu.IsConsistent config) {change : UInt16 → UInt16}
    (hchange : Status.KeepsReserved change) :
    IsConsistent config { cpu with st := change cpu.st } := by
  refine h.withSt fun hmask => ?_
  have hreserved : Status.reserved &&& ~~~config.statusMask = ~~~config.statusMask :=
    Word.not_and_of_disjoint hmask
  rw [← hreserved, ← UInt16.and_assoc, hchange, UInt16.and_assoc, hreserved]
  exact h.st_masked hmask

theorem setInternalBit (h : cpu.IsConsistent config) {bit : UInt16} {value : Bool} {changed : Cpu}
    (hchanged : cpu.setInternalBit? bit value = some changed) : changed.IsConsistent config := by
  unfold setInternalBit? at hchanged
  split at hchanged
  · exact absurd hchanged nofun
  · split at hchanged
    · obtain rfl := Option.some.inj hchanged
      exact { h with }
    · obtain ⟨number, hnumber, rfl⟩ := Option.map_eq_some_iff.mp hchanged
      dsimp only
      split
      · exact h.setLatch _ value
      · next hlatch =>
          have hbit := flag_and_latchBits hnumber hlatch
          exact { h with flags_unlatched := (Word.withBit_and hbit _ value).trans h.flags_unlatched }

theorem clockDecrementer (h : cpu.IsConsistent config) :
    cpu.clockDecrementer.IsConsistent config := by
  have hcounted : IsConsistent config
      { cpu with chip.decrementer := cpu.chip.decrementer.clock.2 } :=
    { h with decrementer := h.decrementer.clock }
  unfold Cpu.clockDecrementer
  dsimp only
  split
  · exact hcounted.setLatch decrementerLine true
  · exact hcounted

theorem drive (h : cpu.IsConsistent config) (line : UInt8) (state : LineState) :
    (cpu.drive line state).IsConsistent config := by
  have hdriven (seen : Bool) : IsConsistent config
      { cpu with
        chip.int4Level := seen
        interrupts := (cpu.interrupts.drive line state).2 } :=
    { h with
      configs_eq := (InterruptController.configs_drive _ line state).trans h.configs_eq
      allEnabled := h.allEnabled.drive line state }
  have hseen : IsConsistent config { cpu with chip.int4Level := state.isActive } :=
    { h with }
  unfold Cpu.drive
  split
  · dsimp only
    split
    · split
      · exact hseen.clockDecrementer
      · exact hseen
    · exact hdriven state.isActive
  · exact hdriven cpu.chip.int4Level

theorem overflowTrap (h : cpu.IsConsistent config) : cpu.overflowTrap.IsConsistent config := by
  unfold Cpu.overflowTrap
  split
  · exact h.setLatch internalLine true
  · exact h

theorem illegalTrap (h : cpu.IsConsistent config) : cpu.illegalTrap.IsConsistent config := by
  have hnoted : IsConsistent config { cpu with chip.mid := true } := { h with }
  exact hnoted.setLatch internalLine true

theorem endReset (h : cpu.IsConsistent config) (wait : Nat) :
    (cpu.endReset wait).IsConsistent config := by
  have hcleared : IsConsistent config { cpu with st := 0 } := h.withSt fun _ => UInt16.zero_and
  exact { hcleared with }

theorem tick (h : cpu.IsConsistent config) : cpu.tick.IsConsistent config := by
  unfold Cpu.tick
  split
  · exact h.clockDecrementer
  · exact h

theorem setByte (h : cpu.IsConsistent config) (offset : Nat) (value : UInt8) :
    IsConsistent config { cpu with chip := cpu.chip.setByte offset value } :=
  { h with ram_size := (OnChip.size_setByte ..).trans h.ram_size }

theorem skip (h : cpu.IsConsistent config) (words : UInt16) :
    (cpu.skip words).IsConsistent config := by
  refine { h with pc_even := ?_ }
  have hpc := h.pc_even
  rw [Cpu.skip, UInt16.toNat_add, UInt16.toNat_mul]
  change (cpu.pc.toNat + 2 * words.toNat % 2 ^ 16) % 2 ^ 16 % 2 = 0
  omega

theorem powerUp (h : cpu.IsConsistent config) : cpu.powerUp.IsConsistent config :=
  { h with
    flags_unlatched := UInt16.zero_and
    decrementer := Decrementer.ofStart_isConsistent 0
    inPhase := h.inPhase.reset
    configs_eq := (InterruptController.configs_reset _).trans h.configs_eq
    allEnabled := InterruptController.reset_allEnabled _ }

theorem pending_level_le (h : cpu.IsConsistent config) {pending : PendingLine}
    (hpending : cpu.pending = some pending) :
    pending.level ≤ (cpu.st &&& Status.mask).toUInt8 := by
  have hlines : ∀ line ∈ cpu.interrupts.lines, line.maskable = false → line.level = 0 := by
    intro line hline hmaskable
    have hmem : line.toLineConfig ∈ lineConfigs config := by
      rw [← h.configs_eq]
      exact List.mem_map_of_mem hline
    rcases List.mem_append.mp hmem with hlevel | hload
    · obtain ⟨level, _, hlevel⟩ := List.mem_map.mp hlevel
      rw [← hlevel] at hmaskable
      exact absurd hmaskable nofun
    · rw [List.mem_singleton.mp hload]
  exact InterruptController.pending_level_le h.compare_eq hlines hpending

theorem pending_level_lt (h : cpu.IsConsistent config) {pending : PendingLine}
    (hpending : cpu.pending = some pending) : pending.level.toNat < 16 := by
  have hle := UInt8.le_iff_toNat_le.mp (h.pending_level_le hpending)
  have hmask : ((cpu.st &&& Status.mask).toUInt8).toNat < 16 := by
    rw [UInt16.toNat_toUInt8, UInt16.toNat_and]
    have hand : cpu.st.toNat &&& Status.mask.toNat ≤ 15 := Nat.and_le_right
    omega
  exact Nat.lt_of_le_of_lt hle hmask

theorem serviceStatus (h : cpu.IsConsistent config) {pending : PendingLine}
    (hpending : cpu.pending = some pending) :
    Status.KeepsReserved (Exec.serviceStatus cpu.config pending) := by
  have hall : ∀ level < 16, UInt16.ofNat (level - 1) &&& Status.reserved = 0 := by
    decide
  intro st
  unfold Exec.serviceStatus
  split
  · rfl
  · exact Status.KeepsReserved.withMask (hall _ (h.pending_level_lt hpending)) st

end IsConsistent

theorem isConsistent_hostStable (config : Config) : HostStable (IsConsistent config) where
  setByte := IsConsistent.setByte
  setDecrementer h value := { h with decrementer := Decrementer.ofStart_isConsistent value }
  setInternalBit h hchanged := h.setInternalBit hchanged
  skip := IsConsistent.skip
  setPc h pc := { h with pc_even := Word.toNat_even_mod_two pc }
  setWp h wp := { h with wp_even := Word.toNat_even_mod_two wp }
  setSt {cpu} h st := by
    refine h.withSt fun _ => ?_
    rw [← h.config_eq, UInt16.and_assoc, UInt16.and_not_self, UInt16.and_zero]
  modifySt hchange h := h.modifySt hchange
  overflowTrap := IsConsistent.overflowTrap
  illegalTrap := IsConsistent.illegalTrap
  release h := { h with }
  leaveIdle h := { h with }
  serviceStatus hbefore hpending h := h.modifySt (hbefore.serviceStatus hpending)
  acknowledge h line :=
    { h with
      configs_eq := (InterruptController.configs_acknowledge _ line).trans h.configs_eq
      allEnabled := h.allEnabled.acknowledge line }
  tick := IsConsistent.tick
  advance h cycles := { h with inPhase := h.inPhase.advance cycles }
  drive := IsConsistent.drive
  powerUp := IsConsistent.powerUp
  endReset := IsConsistent.endReset

end Cpu

end TmsCores.Tms9900
