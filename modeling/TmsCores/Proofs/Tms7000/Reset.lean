import TmsCores.Proofs.Interrupt.State
import TmsCores.Proofs.Tms7000.InterruptDiscipline
import TmsCores.Proofs.Tms7000.Twins

namespace TmsCores.Tms7000

namespace Cpu

/-- Two processors agree in what a reset does not touch. -/
structure AgreesAcrossReset (cpu other : Cpu) : Prop where
  cycles_eq : cpu.cycles = other.cycles
  state_eq : ∀ line, cpu.interrupts.state line = other.interrupts.state line
  file_eq : cpu.file = other.file

/-- A processor on its way through a reset, before it has loaded its program counter. -/
def restarted (cpu : Cpu) : Cpu :=
  { cpu.powerUp with idle := false }

theorem isLatched_syncEnables (peripherals : PeripheralFile) (interrupts : InterruptController)
    (line : UInt8) :
    (syncEnables peripherals interrupts).isLatched line = interrupts.isLatched line := by
  simp only [syncEnables, List.foldl_cons, List.foldl_nil,
    InterruptController.isLatched_setEnabled_eq]

theorem isLatched_restarted (cpu : Cpu) (line : UInt8) :
    cpu.restarted.interrupts.isLatched line = false :=
  (isLatched_syncEnables {} cpu.interrupts.reset line).trans (cpu.interrupts.isLatched_reset line)

variable {config : Config} {cpu other : Cpu}

/-- Of the past no more than the program counter is left, which comes next. -/
theorem AgreesAcrossReset.restarted_eq (h : cpu.AgreesAcrossReset other)
    (hcpu : cpu.IsConsistent config) (hother : other.IsConsistent config) (pc : UInt16) :
    cpu.restarted.setPc pc = other.restarted.setPc pc := by
  have hinterrupts : cpu.interrupts.reset = other.interrupts.reset :=
    InterruptController.reset_eq hcpu.size_interrupts_le
      (hcpu.configs_eq.trans hother.configs_eq.symm)
      (hcpu.compare_eq.trans hother.compare_eq.symm) h.state_eq
  have hdivider : cpu.divider.reset = other.divider.reset :=
    TickDivider.reset_eq (hcpu.divisor_eq.trans hother.divisor_eq.symm)
  simp only [restarted, powerUp, setPc, hinterrupts, hdivider, h.cycles_eq, h.file_eq,
    hcpu.config_eq, hother.config_eq]

end Cpu

variable {β γ : Type} [Bus β] [Bus γ] {S : β → γ → Prop}

def Machine.restarted (machine : Machine β) : Machine β :=
  { machine with
    cpu := machine.cpu.restarted
    wait := 0
    bus := Bus.awakened machine.bus machine.cpu.idle }

namespace Exec

theorem wake_snd (machine : Machine β) :
    (wake machine).2 =
      { machine with
        cpu.idle := false
        bus := Bus.awakened machine.bus machine.cpu.idle } := by
  rw [wake, cpu_bind]
  obtain ⟨⟨⟨cpu, fault⟩, wait⟩, bus⟩ := machine
  obtain ⟨config, pc, sp, st, file, peripherals, interrupts, divider, idle, cycles⟩ := cpu
  cases idle with
  | false => rfl
  | true => rfl

def loadPc : Exec β Unit := do
  setPc (← readWord 0xFFFE)

theorem reset_snd (machine : Machine β) : (reset machine).2 = (loadPc machine.restarted).2 := by
  change (loadPc (wake { machine with cpu := machine.cpu.powerUp, wait := 0 }).2).2 = _
  rw [wake_snd]
  rfl

theorem readAt_setPc (location : Location) (pc : UInt16) (machine : Machine β) :
    readAt location (setPc pc machine).2 =
      ((readAt location machine).1, (setPc pc (readAt location machine).2).2) := by
  cases location <;> rfl

theorem read_setPc (address pc : UInt16) (machine : Machine β) :
    read address (setPc pc machine).2 =
      ((read address machine).1, (setPc pc (read address machine).2).2) :=
  readAt_setPc _ pc machine

theorem loadPc_setPc (pc : UInt16) (machine : Machine β) :
    (loadPc (setPc pc machine).2).2 = (loadPc machine).2 := by
  have hhi := read_setPc 0xFFFE pc machine
  have hlo := read_setPc (0xFFFE + 1) pc (read 0xFFFE machine).2
  have hload (machine : Machine β) : (loadPc machine).2 =
      (setPc (Word.ofBytes (read 0xFFFE machine).1
        (read (0xFFFE + 1) (read 0xFFFE machine).2).1)
        (read (0xFFFE + 1) (read 0xFFFE machine).2).2).2 := rfl
  rw [hload, hload, hhi, hlo]
  rfl

theorem cpu_reset (machine : Machine β) :
    ∃ pc, (reset machine).2.cpu = machine.cpu.restarted.setPc pc := by
  rw [reset_snd]
  refine ⟨_, congrArg (Cpu.setPc · _) ?_⟩
  exact readWord_keeps (· = machine.cpu.restarted) 0xFFFE machine.restarted rfl

end Exec

namespace Machine

theorem twins_reset {config : Config} (hS : Bus.SameBehaviour S) {m : Machine β} {n : Machine γ}
    (hm : m.cpu.IsConsistent config) (hn : n.cpu.IsConsistent config)
    (hagrees : m.cpu.AgreesAcrossReset n.cpu)
    (hbus : S (Bus.awakened m.bus m.cpu.idle) (Bus.awakened n.bus n.cpu.idle)) :
    Twins S (Exec.reset m).2 (Exec.reset n).2 := by
  have hload : Corresponds (Twins S) Exec.loadPc Exec.loadPc :=
    ((Twins.hostSimulation hS).readWord 0xFFFE).bind (Twins.hostSimulation hS).setPc
  have hstart : Twins S (Exec.setPc 0 m.restarted).2 (Exec.setPc 0 n.restarted).2 :=
    ⟨hagrees.restarted_eq hm hn 0, rfl, hbus⟩
  have hend := (hload _ _ hstart).2
  rw [Exec.loadPc_setPc, Exec.loadPc_setPc] at hend
  rw [Exec.reset_snd, Exec.reset_snd]
  exact hend

theorem indistinguishable_reset {config : Config} (hS : Bus.SameBehaviour S)
    {m : Machine (RecordedBus β)} {n : Machine (RecordedBus γ)}
    (hm : m.cpu.IsConsistent config) (hn : n.cpu.IsConsistent config)
    (hagrees : m.cpu.AgreesAcrossReset n.cpu)
    (hinner : S (Bus.awakened m.bus.inner m.cpu.idle) (Bus.awakened n.bus.inner n.cpu.idle)) :
    (Exec.reset m).2.cpu = (Exec.reset n).2.cpu ∧
      Indistinguishable S (Exec.reset m).2 (Exec.reset n).2 := by
  have hrecord := RecordedBus.calledSame_sameBehaviour hS
    (Bus.awakened m.bus m.cpu.idle, Bus.awakened n.bus n.cpu.idle)
  have htwins := twins_reset hrecord hm hn hagrees (RecordedBus.calledSame_awakened hinner)
  exact ⟨htwins.cpu_eq, htwins.indistinguishable hS⟩

end Machine

variable {config : Config}

namespace Cpu

/-- IOCNT0 enables no line. -/
def NoneEnabled (cpu : Cpu) : Prop :=
  cpu.peripherals.control &&& PeripheralFile.enableBits = 0

theorem NoneEnabled.pending_eq {cpu : Cpu} (h : cpu.NoneEnabled)
    (hconsistent : cpu.IsConsistent config) : cpu.pending = none := by
  cases hpending : cpu.pending with
  | none => rfl
  | some pending =>
      obtain ⟨⟨⟨_, henabled, _⟩, _⟩, _⟩ := hconsistent.pending_eq_some_iff.mp hpending
      rw [PeripheralFile.isEnabled, h, UInt8.zero_and] at henabled
      exact absurd henabled nofun

theorem noneEnabled_serviceStable : ServiceStable NoneEnabled where
  setRegister h _ _ := h
  setPc h _ := h
  setSp h _ := h
  setFlags _ h := h
  clearSt h := h
  leaveIdle h := h
  acknowledge h _ := h

theorem noneEnabled_clockStable : ClockStable NoneEnabled where
  clockTimer h := h
  advance h _ := h
  drive {cpu} h line state := by
    unfold Cpu.drive
    dsimp only
    split
    · exact h
    · exact h

theorem NoneEnabled.writeInterruptControl (cpu : Cpu) {value : UInt8}
    (h : value &&& PeripheralFile.enableBits = 0) :
    (cpu.writeInterruptControl value).NoneEnabled := by
  change (value &&& ~~~PeripheralFile.flagBits) &&& PeripheralFile.enableBits = 0
  rw [UInt8.and_assoc, UInt8.and_comm (~~~PeripheralFile.flagBits), ← UInt8.and_assoc, h,
    UInt8.zero_and]

end Cpu

namespace Machine

theorem closed_reset (machine : Machine β) : (Exec.reset machine).2.cpu.Closed := by
  have hzero : Status.has 0 Status.interruptEnable = false := by decide
  obtain ⟨pc, hcpu⟩ := Exec.cpu_reset machine
  rw [hcpu]
  exact hzero

theorem noneEnabled_reset (machine : Machine β) : (Exec.reset machine).2.cpu.NoneEnabled := by
  obtain ⟨pc, hcpu⟩ := Exec.cpu_reset machine
  rw [hcpu]
  exact UInt8.zero_and

/-- A stage sets the bit I of the status register: an instruction loads it so, or the host. -/
def SetsInterruptEnable : Stage Register β → Machine (RecordedBus β) → Prop
  | .turn turn, machine => LoadsStatus turn machine ∧ ¬(take turn machine).2.cpu.Closed
  | .reset, _ => False

/-- In a stage the program writes a one to an enable bit in IOCNT0. -/
def WritesEnable : Stage Register β → Machine (RecordedBus β) → Prop
  | .turn (.iterate _), machine =>
      ∃ value, machine.stores = some (.interruptControl, value) ∧
        value &&& PeripheralFile.enableBits ≠ 0
  | _, _ => False

variable {machine : Machine (RecordedBus β)} {stage : Stage Register β}

theorem closed_pass (hset : ¬SetsInterruptEnable stage machine) (h : machine.cpu.Closed) :
    (pass stage machine).2.cpu.Closed := by
  cases stage with
  | turn turn =>
      by_cases hload : LoadsStatus turn machine
      · exact not_not.mp fun hopen => hset ⟨hload, hopen⟩
      · exact closed_take hload h
  | reset =>
      exact closed_reset machine

theorem noneEnabled_iterate {limit : Nat}
    (hwrite : ¬WritesEnable (.turn (.iterate limit)) machine) (h : machine.cpu.NoneEnabled) :
    (Exec.iterate limit machine).2.cpu.NoneEnabled := by
  have hstable := Cpu.noneEnabled_serviceStable
  have hworked : machine.worked.cpu.NoneEnabled := by
    refine hstable.toRegisterStable.machine.worked (fun _ _ hstate => hstate)
      (fun _ _ _ _ _ hstate => hstate) ?_ (hstable.checked h)
    rintro ⟨location, value⟩ hstores state hstate
    -- The enable bits have a single address.
    cases location with
    | interruptControl =>
        refine Cpu.NoneEnabled.writeInterruptControl state.cpu ?_
        exact not_not.mp fun hvalue => hwrite ⟨value, hstores, hvalue⟩
    | register | timerData | timerControl | port | memory => exact hstate
  rw [iterate_snd]
  exact corresponds_self_iff.mp (Cpu.noneEnabled_clockStable.simulation.account _) _ hworked

theorem noneEnabled_pass (hwrite : ¬WritesEnable stage machine) (h : machine.cpu.NoneEnabled) :
    (pass stage machine).2.cpu.NoneEnabled := by
  cases stage with
  | turn turn =>
      rcases turn.eq_iterate_or_isIntervention with ⟨limit, rfl⟩ | hturn
      · exact noneEnabled_iterate hwrite h
      · exact Cpu.noneEnabled_serviceStable.toRegisterStable.intervene
          Cpu.noneEnabled_clockStable.drive hturn (fun _ _ _ hcpu => hcpu) h
  | reset =>
      exact noneEnabled_reset machine

/-- Before an interrupt is serviced, the bit I has been set and the program has enabled a line. -/
theorem enabled_of_acknowledges (hmachine : machine.cpu.IsConsistent config)
    {stages : List (Stage Register β)} {limit : Nat} {line : UInt8}
    (h : ((Exec.reset machine).2.through stages).Acknowledges limit [line]) :
    History.Sometime pass SetsInterruptEnable stages (Exec.reset machine).2 ∧
      History.Sometime pass WritesEnable stages (Exec.reset machine).2 := by
  have hstart : (Exec.reset machine).2.cpu.IsConsistent config :=
    isConsistent_pass hmachine .reset
  obtain ⟨pending, hpending, _⟩ := acknowledged_eq_singleton_iff.mp (acknowledges_iff.mp h)
  constructor
  -- If nothing ever did, the processor would still be closed, as the reset has left it.
  · by_contra hnever
    have hclosed : ((Exec.reset machine).2.through stages).cpu.Closed := by
      exact (History.throughout_of_not_sometime hnever).keeps (I := Machine.Has Cpu.Closed)
        (fun _ _ => closed_pass) (closed_reset machine)
    exact absurd (hclosed.pending_eq.symm.trans hpending) nofun
  · by_contra hnever
    have hnone : ((Exec.reset machine).2.through stages).cpu.NoneEnabled := by
      exact (History.throughout_of_not_sometime hnever).keeps (I := Machine.Has Cpu.NoneEnabled)
        (fun _ _ => noneEnabled_pass) (noneEnabled_reset machine)
    exact absurd ((hnone.pending_eq (isConsistent_through hstart stages)).symm.trans hpending) nofun

end Machine

end TmsCores.Tms7000
