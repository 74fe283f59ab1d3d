import TmsCores.Proofs.Tms9900.Stability

namespace TmsCores.Tms9900

variable {β : Type} [Bus β]

namespace Exec

variable {machine : Machine β}

theorem serviceInterrupt_of_none (h : machine.cpu.pending = none) :
    serviceInterrupt machine = (0, machine) := by
  rw [serviceInterrupt, cpu_bind, h]
  rfl

theorem serviceInterrupt_snd {pending : PendingLine}
    (h : machine.cpu.pending = some pending) :
    (serviceInterrupt machine).2 =
      (wake (acknowledge pending.line (modifySt (serviceStatus machine.cpu.config pending)
        (contextSwitch (interruptVector machine.cpu.config pending) machine).2).2).2).2 := by
  rw [serviceInterrupt, cpu_bind, h]
  rfl

theorem wake_keeps {I : Machine β → Prop} (h : Keeps I (setIdle false)) : Keeps I wake := by
  refine cpu_keeps.bind fun cpu => ?_
  split
  · exact h
  · exact .pure ()

end Exec

namespace Machine

/-- The machine after the interrupt check at the start of an iteration. -/
def checked (machine : Machine β) : Machine β :=
  (Exec.serviceUnlessSuppressed (Exec.clearLeftovers machine).2).2

/-- The machine as the interrupt check finds it. -/
def released (machine : Machine β) : Machine β :=
  (Exec.releaseInterrupts (Exec.clearLeftovers machine).2).2

theorem checked_eq (machine : Machine β) :
    machine.checked =
      if machine.cpu.suppress then machine.released
      else (Exec.serviceInterrupt machine.released).2 := by
  change ((if machine.cpu.suppress then pure 0 else Exec.serviceInterrupt : Exec β Nat)
    machine.released).2 = _
  split
  · rfl
  · rfl

/-- What an iteration finds to execute once it has fetched its opcode, and the machine there. -/
def found (machine : Machine β) : ChainEnd × Machine β :=
  (do Exec.chase Exec.maxExecuteDepth (← Exec.fetch) : Exec β ChainEnd) machine.checked

/-- The instruction that an iteration executes.  There is none when the processor rests or meets an
illegal opcode. -/
def executes (machine : Machine β) : Option Instruction :=
  if machine.checked.cpu.idle then none else machine.found.1.instruction

/-- The machine at the end of an iteration, before the cycles are accounted for. -/
def worked (machine : Machine β) : Machine β :=
  if machine.checked.cpu.idle then machine.checked else (Exec.execute machine.checked).2

theorem worked_of_idle {machine : Machine β} (h : machine.checked.cpu.idle = true) :
    machine.worked = machine.checked := by
  rw [worked, if_pos h]

theorem worked_of_awake {machine : Machine β} (h : machine.checked.cpu.idle = false) :
    machine.worked = (Exec.conclude machine.found.1 machine.found.2).2 := by
  rw [worked, h, if_neg Bool.false_ne_true, Exec.execute]
  simp only [Exec.executeOpcode_eq]
  rfl

theorem executes_of_awake {machine : Machine β} (h : machine.checked.cpu.idle = false) :
    machine.executes = machine.found.1.instruction := by
  rw [executes, h, if_neg Bool.false_ne_true]

theorem awake_of_executes {machine : Machine β} {instruction : Instruction}
    (h : instruction ∈ machine.executes) : machine.checked.cpu.idle = false := by
  cases hidle : machine.checked.cpu.idle with
  | false => rfl
  | true =>
      rw [executes, if_pos hidle] at h
      exact absurd h nofun

theorem worked_of_executes {machine : Machine β} {instruction : Instruction}
    (h : machine.executes = some instruction) (hx : instruction ≠ .x) :
    machine.worked = (Exec.perform machine.found.1.opcode instruction machine.found.2).2 := by
  have hawake := awake_of_executes h
  rw [executes_of_awake hawake] at h
  rw [worked_of_awake hawake, Exec.conclude_snd h hx]

theorem execute_fst {machine : Machine β} {instruction : Instruction}
    (h : machine.executes = some instruction) (hx : instruction ≠ .x) :
    (Exec.execute machine.checked).1 = machine.found.1.cycles +
      ((Instruction.baseCycles machine.found.2.cpu.config.instructionSet instruction).toNat +
        (Exec.perform machine.found.1.opcode instruction machine.found.2).1) := by
  rw [executes_of_awake (awake_of_executes h)] at h
  rw [← Exec.conclude_fst h hx, Exec.execute]
  simp only [Exec.executeOpcode_eq]
  rfl

theorem rest_snd (limit : Nat) (machine : Machine β) :
    (Exec.rest limit machine).2 = (Exec.account (Exec.rest limit machine).1 machine).2 :=
  rfl

theorem work_snd (service : Nat) (machine : Machine β) :
    (Exec.work service machine).2 =
      (Exec.account (Exec.work service machine).1 (Exec.execute machine).2).2 := by
  rw [Exec.work]
  generalize (Exec.execute : Exec β Nat) = execute
  rfl

theorem iterate_snd (machine : Machine β) (limit : Nat) :
    (Exec.iterate limit machine).2 =
      (Exec.account (Exec.iterate limit machine).1 machine.worked).2 := by
  change ((if machine.checked.cpu.idle then Exec.rest limit
      else Exec.work (Exec.serviceUnlessSuppressed (Exec.clearLeftovers machine).2).1 : Exec β Nat)
      machine.checked).2 =
    (Exec.account ((if machine.checked.cpu.idle then Exec.rest limit
      else Exec.work (Exec.serviceUnlessSuppressed (Exec.clearLeftovers machine).2).1 : Exec β Nat)
      machine.checked).1 machine.worked).2
  rw [worked]
  split
  · exact rest_snd limit machine.checked
  · exact work_snd _ machine.checked

end Machine

theorem Cpu.ServiceStable.checked {P : Cpu → Prop} (h : ServiceStable P) {machine : Machine β}
    (hmachine : P machine.cpu) : P machine.checked.cpu :=
  corresponds_self_iff.mp h.simulation.serviceUnlessSuppressed
    (Exec.clearLeftovers machine).2 hmachine

namespace Machine.AccessStable

variable {I : Machine β → Prop} {machine : Machine β} (h : AccessStable I)

include h

theorem found (hchecked : I machine.checked) : I machine.found.2 := by
  have hfetch := corresponds_self_iff.mp h.transfers.operands.fetch
  refine (hfetch.bind fun opcode => ?_) machine.checked hchecked
  exact corresponds_self_iff.mp (h.transfers.operands.chase Exec.maxExecuteDepth opcode)

/-- What an iteration executes keeps what accesses keep, if its other effects do. -/
theorem worked (htrap : machine.executes = none → Keeps I (Exec.modifyCpu Cpu.illegalTrap))
    (heffects : ∀ instruction ∈ machine.executes,
      RespectsEffects (SameWith I) machine.found.1.opcode instruction)
    (hchecked : I machine.checked) : I machine.worked := by
  cases hawake : machine.checked.cpu.idle with
  | true =>
      rw [worked_of_idle hawake]
      exact hchecked
  | false =>
      rw [executes_of_awake hawake] at htrap heffects
      rw [worked_of_awake hawake]
      have hconclude := h.transfers.operands.conclude
        (fun hnone => corresponds_self_iff.mpr (htrap hnone)) heffects
      exact corresponds_self_iff.mp hconclude machine.found.2 (h.found hchecked)

end Machine.AccessStable

namespace Machine.FlagStable

variable {I : Machine β → Prop} {machine : Machine β} (h : FlagStable I)

include h

theorem worked (hhold : ∀ instruction ∈ machine.executes, instruction.HoldsInterrupts →
      Keeps I Exec.holdInterrupts)
    (hidle : machine.executes = some .idle → Keeps I (Exec.setIdle true))
    (hload : ∀ instruction ∈ machine.executes, instruction.LoadsMask → Simulation (SameWith I))
    (hchecked : I machine.checked) : I machine.worked := by
  have htrap := corresponds_self_iff.mp h.simulation.illegalTrap
  refine h.toAccessStable.worked (fun _ => htrap) (fun instruction hexecutes => ?_) hchecked
  refine h.simulation.effects (fun hholds => ?_) (fun hidles => ?_) (hload instruction hexecutes) _
  · exact corresponds_self_iff.mpr (hhold instruction hexecutes hholds)
  · rw [hidles] at hexecutes
    exact corresponds_self_iff.mpr (hidle hexecutes)

theorem reset (hwake : Keeps I Exec.wake)
    (hend : ∀ wait, Keeps I (Exec.modifyCpu (·.endReset wait)))
    (hmachine : I { machine with cpu := machine.cpu.powerUp, wait := 0, operandWord := none }) :
    I (Exec.reset machine).2 := by
  have hswitch := corresponds_self_iff.mp (h.simulation.contextSwitch 0)
  have hrest : Keeps I (do
      Exec.wake
      Exec.contextSwitch 0
      let wait := (← get).wait
      Exec.modifyCpu (·.endReset wait)) := by
    refine hwake.seq (hswitch.seq ?_)
    exact Keeps.inspect fun state hstate => hend state.wait state hstate
  exact hrest _ hmachine

end Machine.FlagStable

end TmsCores.Tms9900
