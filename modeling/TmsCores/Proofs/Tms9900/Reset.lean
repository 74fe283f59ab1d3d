import TmsCores.Proofs.Interrupt.State
import TmsCores.Proofs.Tms9900.BusAccess
import TmsCores.Proofs.Tms9900.Twins

namespace TmsCores.Tms9900

namespace Cpu

/-- Two processors agree in what a reset does not touch, and in what it saves. -/
structure AgreesAcrossReset (cpu other : Cpu) : Prop where
  cycles_eq : cpu.cycles = other.cycles
  state_eq : ∀ line, cpu.interrupts.state line = other.interrupts.state line
  ram_eq : cpu.chip.ram = other.chip.ram
  int4Level_eq : cpu.chip.int4Level = other.chip.int4Level
  wp_eq : cpu.wp = other.wp
  pc_eq : cpu.pc = other.pc
  st_eq : cpu.st = other.st

/-- A processor on its way through a reset, before the context switch. -/
def restarted (cpu : Cpu) : Cpu :=
  { cpu.powerUp with idle := false }

/-- What a context switch may make of a processor. -/
def Switches (cpu changed : Cpu) : Prop :=
  ∃ chip wp pc, changed = { cpu with chip := chip, wp := wp, pc := pc }

variable {config : Config} {cpu other : Cpu}

/-- Nothing else is left of the past. -/
theorem AgreesAcrossReset.restarted_eq (h : cpu.AgreesAcrossReset other)
    (hcpu : cpu.IsConsistent config) (hother : other.IsConsistent config) :
    cpu.restarted = other.restarted := by
  have hinterrupts : cpu.interrupts.reset = other.interrupts.reset :=
    InterruptController.reset_eq hcpu.size_interrupts_le
      (hcpu.configs_eq.trans hother.configs_eq.symm)
      (hcpu.compare_eq.trans hother.compare_eq.symm) h.state_eq
  have hdivider : cpu.divider.reset = other.divider.reset :=
    TickDivider.reset_eq (hcpu.divisor_eq.trans hother.divisor_eq.symm)
  have hchip : cpu.chip.reset = other.chip.reset := by
    rw [OnChip.reset, h.ram_eq, h.int4Level_eq, OnChip.reset]
  simp only [restarted, powerUp, hinterrupts, hdivider, hchip, h.cycles_eq, h.wp_eq, h.pc_eq,
    h.st_eq, hcpu.config_eq, hother.config_eq]

end Cpu

variable {β γ : Type} [Bus β] [Bus γ] {S : β → γ → Prop}

def Machine.restarted (machine : Machine β) : Machine β :=
  { machine with
    cpu := machine.cpu.restarted
    wait := 0
    operandWord := none
    bus := Bus.awakened machine.bus machine.cpu.idle }

namespace Exec

theorem wake_snd (machine : Machine β) :
    (wake machine).2 =
      { machine with
        cpu.idle := false
        bus := Bus.awakened machine.bus machine.cpu.idle } := by
  obtain ⟨⟨⟨cpu, fault⟩, wait, operandWord⟩, bus⟩ := machine
  obtain ⟨config, pc, wp, st, interrupts, chip, divider, idle, suppress, cycles⟩ := cpu
  cases idle with
  | false => rfl
  | true => rfl

def enterProgram : Exec β Unit := do
  contextSwitch 0x0000
  let wait := (← get).wait
  modifyCpu (·.endReset wait)

theorem reset_snd (machine : Machine β) :
    (reset machine).2 = (enterProgram machine.restarted).2 := by
  change (enterProgram (wake
    { machine with cpu := machine.cpu.powerUp, wait := 0, operandWord := none }).2).2 = _
  rw [wake_snd]
  rfl

theorem cpu_contextSwitch (vector : UInt16) (machine : Machine β) :
    machine.cpu.Switches (contextSwitch vector machine).2.cpu := by
  have hread (address : UInt16) :
      Keeps (Machine.Has machine.cpu.Switches) (readWord (β := β) address) := by
    intro next hnext
    rw [Machine.Has, cpu_readWord]
    exact hnext
  have hwrite (number value : UInt16) :
      Keeps (Machine.Has machine.cpu.Switches) (writeRegister (β := β) number value) := by
    rintro next ⟨_, wp, pc, hnext⟩
    obtain ⟨chip, hwritten⟩ := cpu_writeWord (next.cpu.registerAddress number) value next
    refine ⟨chip, wp, pc, hwritten.trans ?_⟩
    rw [hnext]
  have hwp (wp : UInt16) :
      Keeps (Machine.Has machine.cpu.Switches) (modifyCpu (β := β) (·.setWp wp)) := by
    rintro next ⟨chip, _, pc, hnext⟩
    exact ⟨chip, Word.even wp, pc, congrArg (·.setWp wp) hnext⟩
  have hpc (pc : UInt16) :
      Keeps (Machine.Has machine.cpu.Switches) (modifyCpu (β := β) (·.setPc pc)) := by
    rintro next ⟨chip, wp, _, hnext⟩
    exact ⟨chip, wp, Word.even pc, congrArg (·.setPc pc) hnext⟩
  have hswitch : Keeps (Machine.Has machine.cpu.Switches) (contextSwitch (β := β) vector) := by
    refine (hread vector).bind fun wp => ?_
    refine (hread (vector + 2)).bind fun pc => ?_
    refine cpu_keeps.bind fun old => ?_
    refine (hwp wp).seq ?_
    refine (hwrite 13 old.wp).seq ?_
    refine (hwrite 14 old.pc).seq ?_
    exact (hwrite 15 old.st).seq (hpc pc)
  exact hswitch machine ⟨_, _, _, rfl⟩

theorem cpu_reset (machine : Machine β) :
    ∃ chip wp pc wait, (reset machine).2.cpu =
      Cpu.endReset { machine.cpu.restarted with chip := chip, wp := wp, pc := pc } wait := by
  obtain ⟨chip, wp, pc, hswitch⟩ := cpu_contextSwitch 0 machine.restarted
  rw [reset_snd]
  exact ⟨chip, wp, pc, _, congrArg (Cpu.endReset · _) hswitch⟩

end Exec

namespace Machine

theorem twins_reset {config : Config} (hS : Bus.SameBehaviour S) {m : Machine β} {n : Machine γ}
    (hm : m.cpu.IsConsistent config) (hn : n.cpu.IsConsistent config)
    (hagrees : m.cpu.AgreesAcrossReset n.cpu)
    (hbus : S (Bus.awakened m.bus m.cpu.idle) (Bus.awakened n.bus n.cpu.idle)) :
    Twins S (Exec.reset m).2 (Exec.reset n).2 := by
  have hsimulation := Twins.hostSimulation hS
  have henter : Corresponds (Twins S) Exec.enterProgram Exec.enterProgram :=
    (hsimulation.contextSwitch 0).seq (hsimulation.inspectWait hsimulation.endReset)
  rw [Exec.reset_snd, Exec.reset_snd]
  exact (henter _ _ ⟨hagrees.restarted_eq hm hn, rfl, rfl, hbus⟩).2

theorem indistinguishable_reset {config : Config} (hS : Bus.SameBehaviour S)
    {m : Machine (RecordedBus β)} {n : Machine (RecordedBus γ)}
    (hm : m.cpu.IsConsistent config) (hn : n.cpu.IsConsistent config)
    (hagrees : m.cpu.AgreesAcrossReset n.cpu)
    (hinner : S (Bus.awakened m.bus.inner m.cpu.idle) (Bus.awakened n.bus.inner n.cpu.idle)) :
    (Exec.reset m).2.cpu = (Exec.reset n).2.cpu ∧
      Indistinguishable S (Exec.reset m).2 (Exec.reset n).2 := by
  have hrecord := RecordedBus.calledSame_sameBehaviour hS
    (Bus.awakened m.bus m.cpu.idle, Bus.awakened n.bus n.cpu.idle)
  have htwins := twins_reset hrecord hm hn hagrees (RecordedBus.calledSame_awakened hinner)
  exact ⟨htwins.cpu_eq, htwins.indistinguishable hS⟩

end Machine

end TmsCores.Tms9900
