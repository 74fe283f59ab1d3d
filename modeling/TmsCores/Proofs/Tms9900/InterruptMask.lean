import TmsCores.Proofs.Tms9900.Course
import TmsCores.Proofs.Tms9900.Eligibility

namespace TmsCores.Tms9900

namespace Status

theorem withMask_and_mask (st level : UInt16) : withMask st level &&& mask = level &&& mask := by
  rw [withMask, Word.or_and_distrib, UInt16.and_assoc, UInt16.not_and_self, UInt16.and_zero,
    UInt16.zero_or]

theorem KeepsControl.and_mask {change : UInt16 → UInt16} (h : KeepsControl change) (st : UInt16) :
    change st &&& mask = st &&& mask := by
  have hmask : control &&& mask = mask := by decide
  rw [← hmask, ← UInt16.and_assoc, h, UInt16.and_assoc]

end Status

namespace Cpu

theorem mask_of_core {cpu changed : Cpu} (h : changed.core = cpu.core) :
    changed.mask = cpu.mask :=
  eq_of_core (·.mask) (fun _ => rfl) h

/-- No line above a level is let through. -/
def MaskAtMost (level : UInt8) (cpu : Cpu) : Prop :=
  cpu.mask ≤ level

variable (level : UInt8)

theorem maskAtMost_flagStable : FlagStable (MaskAtMost level) where
  setByte h _ _ := h
  setDecrementer h _ := h
  setInternalBit h hchanged := by
    rw [MaskAtMost, mask_of_core (core_of_setInternalBit? hchanged)]
    exact h
  skip h _ := h
  setPc h _ := h
  setWp h _ := h
  setFlags hchange h := by
    rw [MaskAtMost, mask, hchange.and_mask]
    exact h
  clearMask _ := by
    rw [MaskAtMost, mask, Status.withMask_and_mask]
    exact UInt8.zero_le
  overflowTrap {cpu} h := by
    rw [MaskAtMost, mask_of_core cpu.core_overflowTrap]
    exact h
  illegalTrap h := h

theorem maskAtMost_clockStable : ClockStable (MaskAtMost level) where
  tick {cpu} h := by
    rw [MaskAtMost, mask_of_core cpu.core_tick]
    exact h
  advance h _ := h
  drive {cpu} h line state := by
    rw [MaskAtMost, mask_of_core (cpu.core_drive line state)]
    exact h

theorem mask_serviceStatus {config : Config} {pending : PendingLine}
    (hline : pending.line ≠ config.loadLine) (hlevel : pending.level.toNat < 16) (cpu : Cpu) :
    (mask { cpu with st := Exec.serviceStatus config pending cpu.st }).toNat =
      pending.level.toNat - 1 := by
  -- The mask has four bits, and no level needs more.
  have hall : ∀ level < 16,
      (UInt16.ofNat (level - 1) &&& Status.mask).toUInt8.toNat = level - 1 := by
    decide
  rw [mask, Exec.serviceStatus, if_neg hline, Status.withMask_and_mask]
  exact hall _ hlevel

end Cpu

variable {β : Type} [Bus β] {config : Config} {machine : Machine β}

theorem Exec.maskAtMost_serviceInterrupt {pending : PendingLine} {level after : UInt8}
    (hpending : machine.cpu.pending = some pending) (hlevel : pending.level.toNat < 16)
    (hload : pending.line = machine.cpu.config.loadLine → level ≤ after)
    (hlower : pending.line ≠ machine.cpu.config.loadLine →
      pending.level.toNat - 1 ≤ after.toNat)
    (hmask : machine.cpu.MaskAtMost level) :
    (serviceInterrupt machine).2.cpu.MaskAtMost after := by
  have hsimulation := (Cpu.maskAtMost_flagStable level).machine.simulation (β := β)
  have hswitch := corresponds_self_iff.mp
    (hsimulation.contextSwitch (interruptVector machine.cpu.config pending))
  have hstatus : Leads (Machine.Has (Cpu.MaskAtMost level))
      (Machine.Has (Cpu.MaskAtMost after) : Machine β → Prop)
      (modifySt (serviceStatus machine.cpu.config pending)) := by
    intro state hstate
    by_cases hline : pending.line = machine.cpu.config.loadLine
    · change (Cpu.mask { state.cpu with
        st := serviceStatus machine.cpu.config pending state.cpu.st }) ≤ after
      rw [serviceStatus, if_pos hline]
      exact UInt8.le_trans hstate (hload hline)
    · rw [Machine.Has, Cpu.MaskAtMost, UInt8.le_iff_toNat_le]
      exact Nat.le_trans (Nat.le_of_eq (Cpu.mask_serviceStatus hline hlevel state.cpu))
        (hlower hline)
  have hleave : Keeps (Machine.Has (Cpu.MaskAtMost after) : Machine β → Prop) (setIdle false) :=
    fun _ hstate => hstate
  rw [serviceInterrupt_snd hpending]
  exact wake_keeps hleave _ (hstatus _ (hswitch machine hmask))

namespace Machine

theorem mask_checked_le (h : machine.cpu.IsConsistent config) :
    machine.checked.cpu.mask ≤ machine.cpu.mask := by
  rw [checked_eq]
  split
  · exact UInt8.le_refl _
  · cases hpending : machine.cpu.pending with
    | none =>
        have hnone : machine.released.cpu.pending = none := hpending
        rw [Exec.serviceInterrupt_of_none hnone]
        exact UInt8.le_refl _
    | some pending =>
        have hle := UInt8.le_iff_toNat_le.mp (h.pending_level_le hpending)
        refine Exec.maskAtMost_serviceInterrupt hpending (h.pending_level_lt hpending)
          (fun _ => UInt8.le_refl _) (fun _ => ?_) (UInt8.le_refl machine.cpu.mask)
        exact Nat.le_trans (Nat.sub_le _ _) hle

/-- After the service of a line that can be masked the mask is below its level, unless that is
zero. -/
theorem mask_checked_le_of_pending (h : machine.cpu.IsConsistent config)
    (hsuppress : machine.cpu.suppress = false) {pending : PendingLine}
    (hpending : machine.cpu.pending = some pending) (hline : pending.line ≠ config.loadLine)
    {level : UInt8} (hlevel : pending.level.toNat - 1 ≤ level.toNat) :
    machine.checked.cpu.mask ≤ level := by
  rw [checked_eq, hsuppress, if_neg Bool.false_ne_true]
  have hreleased : machine.released.cpu.pending = some pending := hpending
  refine Exec.maskAtMost_serviceInterrupt hreleased
    (h.pending_level_lt hpending) (fun hload => ?_) (fun _ => hlevel)
    (UInt8.le_refl machine.cpu.mask)
  exact absurd (hload.trans (congrArg Config.loadLine h.config_eq)) hline

theorem mask_worked_le (hload : ∀ instruction ∈ machine.executes, ¬instruction.LoadsMask) :
    machine.worked.cpu.mask ≤ machine.checked.cpu.mask := by
  have hstable := (Cpu.maskAtMost_flagStable machine.checked.cpu.mask).machine (β := β)
  exact hstable.worked (fun _ _ _ => Exec.modifyCpu_keeps fun hcpu => hcpu)
    (fun _ _ hstate => hstate) (fun _ hexecutes hloads => absurd hloads (hload _ hexecutes))
    (UInt8.le_refl _)

theorem mask_iterate_le (limit : Nat)
    (hload : ∀ instruction ∈ machine.executes, ¬instruction.LoadsMask) :
    (Exec.iterate limit machine).2.cpu.mask ≤ machine.checked.cpu.mask := by
  have hclock := (Cpu.maskAtMost_clockStable machine.checked.cpu.mask).simulation (β := β)
  rw [iterate_snd]
  exact corresponds_self_iff.mp (hclock.account _) machine.worked (mask_worked_le hload)

end Machine

end TmsCores.Tms9900
