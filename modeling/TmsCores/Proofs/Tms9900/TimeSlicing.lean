import TmsCores.Proofs.RunLoop
import TmsCores.Proofs.Tms9900.Course
import TmsCores.Proofs.Tms9900.Reachability

namespace TmsCores.Tms9900

namespace Instruction

theorem wideCycles_dualOfOpcode (opcode : UInt16) : 0 < wideCycles (dualOfOpcode opcode) := by
  unfold dualOfOpcode
  dsimp only
  split <;> exact (by decide : (0 : UInt8) < 14)

theorem wideCycles_registerOfOpcode (opcode : UInt16) :
    0 < wideCycles (registerOfOpcode opcode) := by
  unfold registerOfOpcode
  split <;> decide

theorem wideCycles_displacementOfOpcode (opcode : UInt16) :
    0 < wideCycles (displacementOfOpcode opcode) := by
  unfold displacementOfOpcode
  split <;> decide

theorem wideCycles_shiftOfOpcode (opcode : UInt16) : 0 < wideCycles (shiftOfOpcode opcode) := by
  unfold shiftOfOpcode
  split <;> decide

theorem wideCycles_of_singleOfOpcode? {opcode : UInt16} {instruction : Instruction}
    (h : singleOfOpcode? opcode = some instruction) : 0 < wideCycles instruction := by
  unfold singleOfOpcode? at h
  split at h <;> cases h <;> decide

theorem wideCycles_of_controlOfOpcode? {opcode unused : UInt16} {instruction : Instruction}
    (h : controlOfOpcode? opcode = some (instruction, unused)) : 0 < wideCycles instruction := by
  unfold controlOfOpcode? at h
  split at h <;> cases h <;> decide

theorem narrowCycles_pos (instruction : Instruction) : 0 < narrowCycles instruction := by
  fun_cases narrowCycles instruction <;> decide

/-- No instruction is free.  The TMS9900 lacks those that have no cost of their own there. -/
theorem baseCycles_pos {set : InstructionSet} {opcode : UInt16} {instruction : Instruction}
    (h : ofOpcode? set opcode = some instruction) : 0 < (baseCycles set instruction).toNat := by
  rw [← UInt8.toNat_zero, ← UInt8.lt_iff_toNat_lt]
  cases set with
  | tms9995 => exact narrowCycles_pos instruction
  | tms9900 =>
      change 0 < wideCycles instruction
      revert h
      -- The instructions that are free in this table are never decoded.
      fun_cases ofOpcode? InstructionSet.tms9900 opcode with
      | case1 =>
          rintro ⟨⟩
          exact wideCycles_dualOfOpcode opcode
      | case2 =>
          rintro ⟨⟩
          exact wideCycles_registerOfOpcode opcode
      | case3 =>
          rintro ⟨⟩
          exact wideCycles_displacementOfOpcode opcode
      | case4 => rintro ⟨⟩
      | case5 =>
          rintro ⟨⟩
          exact wideCycles_shiftOfOpcode opcode
      | case6 => exact wideCycles_of_singleOfOpcode?
      | case7 =>
          intro h
          obtain ⟨⟨control, unused⟩, hcontrol, hinstruction⟩ := Option.bind_eq_some_iff.mp h
          dsimp only at hinstruction
          split at hinstruction
          · cases hinstruction
          · cases hinstruction
            exact wideCycles_of_controlOfOpcode? hcontrol
      | case8 _ _ _ _ _ _ _ hset => cases hset
      | case9 => rintro ⟨⟩

end Instruction

namespace Cpu

variable {cpu : Cpu}

/-- Idle, with no interrupt to wake the processor. -/
def Resting (cpu : Cpu) : Prop :=
  cpu.idle = true ∧ cpu.suppress = false ∧ cpu.pending = none

theorem advance_advance (h : cpu.divider.InPhase) {first : Nat}
    (hfirst : first < cpu.divider.untilNext) (second : Nat) :
    (cpu.advance first).2.advance second = cpu.advance (first + second) := by
  simp only [advance, h.advance_advance hfirst, CycleCount.advance_advance]

end Cpu

namespace Exec

open Cpu

variable {β : Type} {machine : Machine β}

theorem illegal_pos {config : Config} (hcost : config.illegal ≠ .ignore 0) :
    Yields (Machine.Has (·.IsConsistent config)) (0 < ·) (illegal (β := β)) := by
  intro machine hmachine
  rw [illegal, cpu_bind]
  rw [hmachine.config_eq]
  cases hillegal : config.illegal with
  | trap => exact (by decide : 0 < Instruction.illegalCycles.toNat)
  | ignore cycles => exact IllegalOpcode.ignore_pos hcost hillegal

variable [Bus β]

/-- What a machine that rests for some cycles turns into. -/
def pass (cycles : Nat) (machine : Machine β) : Machine β :=
  (account cycles (clearLeftovers machine).2).2

theorem pass_eq (h : machine.cpu.divider.InPhase) (cycles : Nat) :
    pass cycles machine =
      (ticks (machine.cpu.advance cycles).1
        { (clearLeftovers machine).2 with cpu := (machine.cpu.advance cycles).2 }).2 := by
  change (ticks (machine.cpu.advance cycles).1
    { (clearLeftovers machine).2 with
      cpu := (machine.cpu.advance cycles).2
      fault := !(machine.cpu.divider.divide? cycles).isSome || machine.fault }).2 = _
  rw [TickDivider.isSome_divide? h.divisor_ne_zero]
  rfl

theorem pass_of_lt (h : machine.cpu.divider.InPhase) {cycles : Nat}
    (hcycles : cycles < machine.cpu.divider.untilNext) :
    pass cycles machine =
      { (clearLeftovers machine).2 with cpu := (machine.cpu.advance cycles).2 } := by
  have hticks : (machine.cpu.advance cycles).1 = 0 := by
    simp only [advance, h.advance_of_lt hcycles]
  rw [pass_eq h, hticks]
  rfl

theorem pass_pass (h : machine.cpu.divider.InPhase) {first : Nat}
    (hfirst : first < machine.cpu.divider.untilNext) (second : Nat) :
    pass second (pass first machine) = pass (first + second) machine := by
  let passed : Machine β :=
    { (clearLeftovers machine).2 with cpu := (machine.cpu.advance first).2 }
  have hpassed : passed.cpu.divider.InPhase := h.advance first
  have hsum : passed.cpu.advance second = machine.cpu.advance (first + second) :=
    advance_advance h hfirst second
  rw [pass_of_lt h hfirst, pass_eq hpassed, pass_eq h, hsum]
  rfl

theorem wake_leads (P : Machine β → Prop) :
    Leads P (Machine.Has (·.idle = false)) (wake (β := β)) := by
  intro machine _
  rw [wake, cpu_bind]
  split
  · rfl
  · exact Bool.eq_false_iff.mpr ‹_›

theorem serviceInterrupt_leads (pending : PendingLine) :
    Leads (fun machine => machine.cpu.pending = some pending) (Machine.Has (·.idle = false))
      (serviceInterrupt (β := β)) := by
  intro machine h
  rw [serviceInterrupt_snd h]
  exact wake_leads (fun _ => True) _ trivial

theorem serviceUnlessSuppressed_of_resting (h : machine.cpu.Resting) :
    serviceUnlessSuppressed machine = (0, machine) := by
  obtain ⟨_, hsuppress, hpending⟩ := h
  have hsame : { machine.cpu with suppress := false } = machine.cpu := by
    rw [← hsuppress]
  have hreleased : (releaseInterrupts machine).2 = machine := by
    change { machine with cpu := { machine.cpu with suppress := false } } = machine
    rw [hsame]
  change (if machine.cpu.suppress then pure 0 else serviceInterrupt : Exec β Nat)
    (releaseInterrupts machine).2 = _
  rw [hreleased, hsuppress]
  exact serviceInterrupt_of_none hpending

theorem idle_serviceUnlessSuppressed (hwakeable : machine.cpu.Wakeable)
    (h : ¬machine.cpu.Resting) : (serviceUnlessSuppressed machine).2.cpu.idle = false := by
  change ((if machine.cpu.suppress then pure 0 else serviceInterrupt : Exec β Nat)
    (releaseInterrupts machine).2).2.cpu.idle = false
  split
  · next hsuppress => exact Bool.eq_false_iff.mpr fun hidle => hwakeable ⟨hidle, hsuppress⟩
  · next hsuppress =>
      cases hpending : (releaseInterrupts machine).2.cpu.pending with
      | some pending => exact serviceInterrupt_leads pending _ hpending
      | none =>
          rw [serviceInterrupt_of_none hpending]
          refine Bool.eq_false_iff.mpr fun hidle => h ⟨hidle, ?_, hpending⟩
          exact Bool.eq_false_iff.mpr hsuppress

theorem iterate_eq (limit : Nat) :
    iterate limit machine =
      (if (serviceUnlessSuppressed (clearLeftovers machine).2).2.cpu.idle then rest limit
        else work (serviceUnlessSuppressed (clearLeftovers machine).2).1 : Exec β Nat)
      (serviceUnlessSuppressed (clearLeftovers machine).2).2 :=
  rfl

theorem iterate_of_resting (h : machine.cpu.Resting) (limit : Nat) :
    iterate limit machine =
      (max 1 (min machine.cpu.divider.untilNext limit),
        pass (max 1 (min machine.cpu.divider.untilNext limit)) machine) := by
  have hcleared : (clearLeftovers machine).2.cpu.Resting := h
  rw [iterate_eq, serviceUnlessSuppressed_of_resting hcleared]
  dsimp only
  rw [if_pos hcleared.1]
  rfl

theorem iterate_of_not_resting (hwakeable : machine.cpu.Wakeable) (h : ¬machine.cpu.Resting)
    (limit : Nat) :
    iterate limit machine =
      work (serviceUnlessSuppressed (clearLeftovers machine).2).1
        (serviceUnlessSuppressed (clearLeftovers machine).2).2 := by
  have hawake : (serviceUnlessSuppressed (clearLeftovers machine).2).2.cpu.idle = false :=
    idle_serviceUnlessSuppressed hwakeable h
  rw [iterate_eq, hawake]
  rfl

theorem executeOpcode_pos {config : Config} (hcost : config.illegal ≠ .ignore 0) (depth : Nat)
    (opcode : UInt16) :
    Yields (Machine.Has (·.IsConsistent config)) (0 < ·)
      (executeOpcode (β := β) depth opcode) := by
  rw [executeOpcode.eq_def]
  refine Yields.bind cpu_keeps fun cpu => ?_
  dsimp only
  split
  · exact illegal_pos hcost
  · next hdecode =>
      have hbase := Instruction.baseCycles_pos hdecode
      refine Yields.after _ fun source => ?_
      split
      · exact .pure (Nat.add_pos_left hbase _)
      · refine Yields.after _ fun cost => ?_
        exact .pure (Nat.add_pos_left (Nat.add_pos_left hbase _) _)
  · next hdecode =>
      refine Yields.after _ fun extra => ?_
      exact .pure (Nat.add_pos_left (Instruction.baseCycles_pos hdecode) _)

theorem work_pos {config : Config} (hcost : config.illegal ≠ .ignore 0) (service : Nat) :
    Yields (Machine.Has (·.IsConsistent config)) (0 < ·) (work (β := β) service) := by
  intro machine hmachine
  have hfetch := corresponds_self_iff.mp
    ((isConsistent_hostStable config).toStable.simulation (β := β)).fetch machine hmachine
  have hexecute := executeOpcode_pos hcost maxExecuteDepth (fetch machine).1 _ hfetch
  exact Nat.add_pos_left (Nat.add_pos_right service hexecute) _

/-- A processor lets time pass while it rests, and otherwise takes no notice of the limit. -/
theorem iterate_quantised {config : Config} (hcost : config.illegal ≠ .ignore 0) :
    RunLoop.Quantised (iterate (β := β))
      (fun machine => machine.cpu.IsConsistent config ∧ machine.cpu.Wakeable)
      (·.cpu.Resting) (·.cpu.divider.untilNext) pass where
  keeps limit machine hmachine :=
    ⟨(isConsistent_hostStable config).iterate_keeps (fun h => { h with }) (fun h => { h with })
      limit machine hmachine.1, iterate_keeps_wakeable limit machine hmachine.2⟩
  rest limit machine _ hresting := iterate_of_resting hresting limit
  resume first machine hmachine hresting hfirst := by
    have hphase := hmachine.1.inPhase
    rw [pass_of_lt hphase hfirst]
    refine ⟨hresting, hphase.untilNext_advance hfirst, fun second => ?_⟩
    rw [← pass_of_lt hphase hfirst]
    exact pass_pass hphase hfirst second
  work limit machine hmachine hresting := by
    rw [iterate_of_not_resting hmachine.2 hresting]
    have hservice := corresponds_self_iff.mp
      ((isConsistent_hostStable config).hostSimulation (β := β)).serviceUnlessSuppressed
    exact work_pos hcost _ _ (hservice _ hmachine.1)
  unlimited limit other machine hmachine hresting := by
    rw [iterate_of_not_resting hmachine.2 hresting, iterate_of_not_resting hmachine.2 hresting]

end Exec

end TmsCores.Tms9900
