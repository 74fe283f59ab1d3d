import TmsCores.Proofs.Tms7000.AddressSpace
import TmsCores.Proofs.Tms7000.HostSimulation

namespace TmsCores.Tms7000

namespace Cpu

def setRegister (cpu : Cpu) (number : Nat) (value : UInt8) : Cpu :=
  { cpu with file := (cpu.setFile? number value).getD cpu.file }

/-- A property of processors that register writes do not destroy, nor moves of the program counter
and the stack pointer. -/
structure OperandStable (P : Cpu → Prop) : Prop where
  setRegister : ∀ {cpu}, P cpu → ∀ number value, P (cpu.setRegister number value)
  setPc : ∀ {cpu}, P cpu → ∀ pc, P (cpu.setPc pc)
  setSp : ∀ {cpu}, P cpu → ∀ sp, P { cpu with sp := sp }

/-- A property of processors that no part of an instruction destroys, except for stores to the
peripheral file, loads of the status register, and IDLE. -/
structure RegisterStable (P : Cpu → Prop) : Prop extends OperandStable P where
  setFlags : ∀ {cpu st}, Status.Follows cpu.st st → P cpu → P { cpu with st := st }
  clearSt : ∀ {cpu}, P cpu → P { cpu with st := 0 }

/-- A property of processors that stores to the peripheral file do not destroy either. -/
structure StoreStable (P : Cpu → Prop) : Prop extends RegisterStable P where
  writeInterruptControl : ∀ {cpu}, P cpu → ∀ value, P (cpu.writeInterruptControl value)
  setReload : ∀ {cpu}, P cpu → ∀ value, P { cpu with peripherals.timer.reload := value }
  writeTimerControl : ∀ {cpu}, P cpu → ∀ value,
    P { cpu with peripherals.timer := cpu.peripherals.timer.writeControl value }

/-- A property of processors that the interrupt check does not destroy. -/
structure ServiceStable (P : Cpu → Prop) : Prop extends RegisterStable P where
  leaveIdle : ∀ {cpu}, P cpu → P { cpu with idle := false }
  acknowledge : ∀ {cpu}, P cpu → ∀ line,
    P { cpu with interrupts := cpu.interrupts.acknowledge line }

/-- A property of processors that ticks of the peripheral clock do not destroy. -/
structure TickStable (P : Cpu → Prop) : Prop where
  clockTimer : ∀ {cpu}, P cpu → P cpu.clockTimer
  drive : ∀ {cpu}, P cpu → ∀ line state, P (cpu.drive line state)

/-- A property of processors that the accounts at the end of an iteration do not destroy. -/
structure ClockStable (P : Cpu → Prop) : Prop extends TickStable P where
  advance : ∀ {cpu}, P cpu → ∀ cycles, P (cpu.advance cycles).2

/-- A property of processors that nothing destroys but a restore. -/
structure Stable (P : Cpu → Prop) : Prop
    extends ServiceStable P, ClockStable P, StoreStable P where
  setSt : ∀ {cpu}, P cpu → ∀ {st}, Status.IsStored st → P { cpu with st := st }
  setIdle : ∀ {cpu}, P cpu → ∀ idle, P { cpu with idle := idle }
  powerUp : ∀ {cpu}, P cpu → P cpu.powerUp
  setFlags hst hcpu := setSt hcpu hst.isStored
  clearSt hcpu := setSt hcpu (by decide)
  leaveIdle hcpu := setIdle hcpu false

theorem clockStable_of_registers
    (Q : Bool → UInt16 → UInt8 → UInt8 → Array UInt8 → Prop) :
    ClockStable fun cpu => Q cpu.idle cpu.pc cpu.sp cpu.st cpu.file where
  clockTimer h := h
  advance h _ := h
  drive {cpu} h line state := by
    unfold Cpu.drive
    dsimp only
    split
    · exact h
    · exact h

/-- Register writes and moves lead from one processor to the other: what they do not destroy passes
on. -/
def Moves (cpu changed : Cpu) : Prop :=
  ∀ P, OperandStable P → P cpu → P changed

/-- Parts of an instruction lead from one processor to the other: what they do not destroy passes
on. -/
def Evolves (cpu changed : Cpu) : Prop :=
  ∀ P, RegisterStable P → P cpu → P changed

theorem file_setRegister (cpu : Cpu) (number : Nat) (value : UInt8) :
    (cpu.setRegister number value).file = cpu.file.setIfInBounds number value :=
  Storage.getD_set? cpu.file number value

/-- The register file is as long as the configuration says, and has both accumulators. -/
structure HasFile (cpu : Cpu) : Prop where
  size_eq : cpu.file.size = cpu.config.registerCount.toNat
  two_le_size : 2 ≤ cpu.file.size

namespace HasFile

variable {cpu : Cpu} (h : cpu.HasFile)

include h

theorem lt_of_reaches {number : Nat} (hreaches : cpu.config.Reaches (.register number)) :
    number < cpu.file.size := by
  rw [h.size_eq]
  generalize hlocation : Location.register number = location at hreaches
  cases hreaches with
  | address address => exact Location.lt_of_ofAddress_eq_register hlocation.symm
  | peripheral other => exact absurd hlocation.symm (Location.ofPeripheral_ne_register other number)

theorem isSome_register? {number : Nat} (hreaches : cpu.config.Reaches (.register number)) :
    (cpu.register? number).isSome = true :=
  Storage.isSome_getElem? (h.lt_of_reaches hreaches)

theorem accumulator_lt (accumulator : Accumulator) :
    accumulator.number.toNat < cpu.file.size := by
  refine Nat.lt_of_lt_of_le ?_ h.two_le_size
  cases accumulator with
  | a => decide
  | b => decide

end HasFile

end Cpu

variable {β : Type} {P : Cpu → Prop}

namespace Machine

def Has (P : Cpu → Prop) (machine : Machine β) : Prop :=
  P machine.cpu

/-- A property of machines that accesses do not destroy, nor register writes and moves. -/
structure OperandStable [Bus β] (I : Machine β → Prop) : Prop where
  access : ∀ {machine bus}, I machine →
    Bus.Accessed machine.cpu.config.bounds machine.bus bus → ∀ wait,
      I { machine with bus := bus, wait := wait }
  move : ∀ {machine cpu}, I machine → machine.cpu.Moves cpu → I { machine with cpu := cpu }
  /-- An access to the register file can only miss where the file is not what it should be. -/
  expect : ∀ {machine possible}, I machine → (machine.cpu.HasFile → possible = true) →
    I { machine with fault := !possible || machine.fault }

/-- A property of machines that no part of an instruction destroys, with the same exceptions as for
processors. -/
structure RegisterStable [Bus β] (I : Machine β → Prop) : Prop extends OperandStable I where
  evolve : ∀ {machine cpu}, I machine → machine.cpu.Evolves cpu → I { machine with cpu := cpu }
  move hmachine hmoves := evolve hmachine fun P hP hcpu => hmoves P hP.toOperandStable hcpu

end Machine

theorem Cpu.OperandStable.machine [Bus β] (h : OperandStable P) :
    Machine.OperandStable (Machine.Has P : Machine β → Prop) where
  access hmachine _ _ := hmachine
  move hmachine hmoves := hmoves P h hmachine
  expect hmachine _ := hmachine

theorem Cpu.RegisterStable.machine [Bus β] (h : RegisterStable P) :
    Machine.RegisterStable (Machine.Has P : Machine β → Prop) where
  access hmachine _ _ := hmachine
  evolve hmachine hevolves := hevolves P h hmachine
  expect hmachine _ := hmachine

namespace Exec

theorem modifyCpu_keeps {change : Cpu → Cpu} (h : ∀ {cpu}, P cpu → P (change cpu)) :
    Keeps (Machine.Has P : Machine β → Prop) (modifyCpu change) :=
  fun _ hmachine => h hmachine

theorem cpu_keeps {I : Machine β → Prop} : Keeps I cpu :=
  fun _ hmachine => hmachine

theorem inspect_keeps {α : Type} {I : Machine β → Prop} {f : Cpu → Exec β α}
    (hf : ∀ machine, I machine → I (f machine.cpu machine).2) : Keeps I (cpu >>= f) :=
  hf

theorem tickBus_of_quiet [Bus β] {machine : Machine β} {bus : β}
    (htick : Bus.tick machine.bus = (none, bus)) :
    tickBus machine = ((), { machine with bus := bus }) := by
  rw [tickBus, modify_apply, htick]

theorem tickBus_of_driven [Bus β] {machine : Machine β} {bus : β} {line : UInt8}
    {state : LineState} (htick : Bus.tick machine.bus = (some (line, state), bus)) :
    tickBus machine =
      ((), { machine with bus := bus, cpu := machine.cpu.drive line state }) := by
  rw [tickBus, modify_apply, htick]

end Exec

namespace Machine.OperandStable

open Exec

variable [Bus β] {I : Machine β → Prop} (h : OperandStable I)

include h

theorem modifyCpu_keeps {change : Cpu → Cpu} (hchange : ∀ cpu : Cpu, cpu.Moves (change cpu)) :
    Keeps I (modifyCpu change) :=
  fun machine hmachine => h.move hmachine (hchange machine.cpu)

theorem readAt {machine : Machine β} {location : Location} (hmachine : I machine)
    (hlocation : machine.cpu.config.Reaches location) : I (readAt location machine).2 := by
  cases location with
  | register => exact h.expect hmachine fun hfile => hfile.isSome_register? hlocation
  | interruptControl | timerData | timerControl => exact hmachine
  | port number => exact h.access hmachine (.ioRead _ ⟨number, hlocation, rfl⟩) _
  | memory address => exact h.access hmachine (.read _ ⟨address, hlocation, rfl⟩) _

theorem read_keeps (address : UInt16) : Keeps I (read address) :=
  inspect_keeps fun _ hmachine => h.readAt hmachine (.address address)

theorem readPeripheral_keeps (number : UInt8) : Keeps I (readPeripheral number) :=
  fun _ hmachine => h.readAt hmachine (.peripheral number)

theorem writeFile {machine : Machine β} {number : Nat} (value : UInt8) (hmachine : I machine)
    (hnumber : machine.cpu.HasFile → number < machine.cpu.file.size) :
    I (writeFile number value machine).2 :=
  h.move (h.expect hmachine fun hfile => Storage.isSome_set? (hnumber hfile) value)
    fun _ hP hcpu => hP.setRegister hcpu number value

theorem readAccumulator_keeps (accumulator : Accumulator) : Keeps I (readAccumulator accumulator) :=
  fun _ hmachine => h.expect hmachine fun hfile =>
    Storage.isSome_getElem? (hfile.accumulator_lt accumulator)

theorem writeAccumulator_keeps (accumulator : Accumulator) (value : UInt8) :
    Keeps I (writeAccumulator accumulator value) :=
  fun _ hmachine => h.writeFile value hmachine fun hfile => hfile.accumulator_lt accumulator

theorem writeRegister_keeps (number value : UInt8) : Keeps I (writeRegister number value) := by
  refine inspect_keeps fun machine hmachine => ?_
  have hreaches : machine.cpu.config.Reaches (.ofAddress machine.cpu.config number.toUInt16) :=
    .address number.toUInt16
  rcases Location.ofAddress_toUInt16 machine.cpu.config number with hlocation | hlocation
  · rw [hlocation] at hreaches ⊢
    exact h.writeFile value hmachine fun hfile => hfile.lt_of_reaches hreaches
  · rw [hlocation] at hreaches ⊢
    exact h.access hmachine (.write _ value ⟨_, hreaches, rfl⟩) _

theorem operands : OperandSimulation (SameWith I) where
  sameCpu := by
    rintro m _ ⟨rfl, _⟩
    rfl
  read address := corresponds_self_iff.mpr (h.read_keeps address)
  readPeripheral number := corresponds_self_iff.mpr (h.readPeripheral_keeps number)
  writeRegister number value := corresponds_self_iff.mpr (h.writeRegister_keeps number value)
  setPc pc := corresponds_self_iff.mpr (h.modifyCpu_keeps fun _ _ hP hcpu => hP.setPc hcpu pc)
  setSp sp := corresponds_self_iff.mpr (h.modifyCpu_keeps fun _ _ hP hcpu => hP.setSp hcpu sp)
  readAccumulator accumulator := corresponds_self_iff.mpr (h.readAccumulator_keeps accumulator)
  writeAccumulator accumulator value :=
    corresponds_self_iff.mpr (h.writeAccumulator_keeps accumulator value)

end Machine.OperandStable

theorem Machine.RegisterStable.simulation [Bus β] {I : Machine β → Prop} (h : RegisterStable I) :
    RegisterSimulation (SameWith I) where
  toOperandSimulation := h.toOperandStable.operands
  setFlags hchange := corresponds_self_iff.mpr fun _ hmachine =>
    h.evolve hmachine fun _ hP hcpu => hP.setFlags (hchange _) hcpu
  clearSt := corresponds_self_iff.mpr fun _ hmachine =>
    h.evolve hmachine fun _ hP hcpu => hP.clearSt hcpu

namespace Cpu

open Exec

theorem writeByte?_eq_setRegister {cpu changed : Cpu} {register : Register} {number : Nat}
    {value : UInt8} (hwrite : cpu.writeByte? register number value = .ok changed) :
    cpu.setRegister number value = changed := by
  unfold writeByte? at hwrite
  split at hwrite
  · next hfile =>
      rw [setRegister, hfile]
      exact Except.ok.inj hwrite
  · exact absurd hwrite nofun

namespace RegisterStable

variable (h : RegisterStable P) {register : Register} {value : UInt16}
  (hload : register = .st → ∀ {cpu}, P cpu → P { cpu with st := value.toUInt8 &&& Status.mask })

include h hload

theorem write?_ok {cpu changed : Cpu} (hcpu : P cpu)
    (hwrite : cpu.write? register value = .ok changed) : P changed := by
  cases register with
  | pc => exact Except.ok.inj hwrite ▸ h.setPc hcpu value
  | sp => exact Except.ok.inj hwrite ▸ h.setSp hcpu value.toUInt8
  | st => exact Except.ok.inj hwrite ▸ hload rfl hcpu
  | a | b | r => exact writeByte?_eq_setRegister hwrite ▸ h.setRegister hcpu _ _

theorem write?_keeps :
    Keeps (Machine.Has P : Machine β → Prop) (Machine.write? register value) := by
  intro machine hmachine
  unfold Machine.write?
  split
  · next hwrite => exact h.write?_ok hload hmachine hwrite
  · exact hmachine

end RegisterStable

variable [Bus β]

theorem StoreStable.writeAt_keeps (h : StoreStable P) (location : Location) (value : UInt8) :
    Keeps (Machine.Has P : Machine β → Prop) (writeAt location value) := by
  cases location with
  | register number => exact fun _ hmachine => h.setRegister hmachine number value
  | interruptControl => exact modifyCpu_keeps fun hcpu => h.writeInterruptControl hcpu value
  | timerData => exact modifyCpu_keeps fun hcpu => h.setReload hcpu value
  | timerControl => exact modifyCpu_keeps fun hcpu => h.writeTimerControl hcpu value
  | port | memory => exact fun _ hmachine => hmachine

theorem ServiceStable.simulation (h : ServiceStable P) :
    ServiceSimulation (SameWith (Machine.Has P : Machine β → Prop)) where
  toRegisterSimulation := h.toRegisterStable.machine.simulation
  clearLeftovers := corresponds_self_iff.mpr fun _ hmachine => hmachine
  interruptVector _ _ := corresponds_self_iff.mpr fun _ hmachine => hmachine
  leaveIdle := corresponds_self_iff.mpr fun _ hmachine => h.leaveIdle hmachine
  acknowledge line := corresponds_self_iff.mpr fun _ hmachine => h.acknowledge hmachine line

theorem ServiceStable.reset (h : ServiceStable P) {machine : Machine β}
    (hmachine : P machine.cpu.powerUp) : P (Exec.reset machine).2.cpu := by
  have hwake := corresponds_self_iff.mp (h.simulation (β := β)).wake
  have hread := corresponds_self_iff.mp ((h.simulation (β := β)).readWord 0xFFFE)
  have hrest : Keeps (Machine.Has P : Machine β → Prop) (do
      wake
      Exec.setPc (← Exec.readWord 0xFFFE)) := by
    refine hwake.seq (hread.bind fun pc => ?_)
    exact corresponds_self_iff.mp ((h.simulation (β := β)).setPc pc)
  exact hrest { machine with cpu := machine.cpu.powerUp, wait := 0 } hmachine

theorem TickStable.tickBus_keeps (h : TickStable P) :
    Keeps (Machine.Has P : Machine β → Prop) tickBus := by
  intro machine hmachine
  rcases htick : Bus.tick machine.bus with ⟨_ | ⟨line, state⟩, bus⟩
  · rw [tickBus_of_quiet htick]
    exact hmachine
  · rw [tickBus_of_driven htick]
    exact h.drive hmachine line state

theorem TickStable.ticks_keeps (h : TickStable P) (count : Nat) :
    Keeps (Machine.Has P : Machine β → Prop) (ticks count) := by
  induction count with
  | zero => exact .pure ()
  | succ count ih =>
      have hcpu : Keeps (Machine.Has P : Machine β → Prop) (modifyCpu Cpu.clockTimer) :=
        modifyCpu_keeps h.clockTimer
      exact (hcpu.seq h.tickBus_keeps).seq ih

theorem ClockStable.simulation (h : ClockStable P) :
    ClockSimulation (SameWith (Machine.Has P : Machine β → Prop)) where
  clockTimer := corresponds_self_iff.mpr (modifyCpu_keeps h.clockTimer)
  tickBus := corresponds_self_iff.mpr h.toTickStable.tickBus_keeps
  charge cycles := corresponds_self_iff.mpr fun _ hmachine => h.advance hmachine cycles

/-- The accounts also keep what ticks do not destroy on the bus. -/
theorem ClockStable.simulation_and (h : ClockStable P) {B : β → Prop}
    (htick : ∀ {bus}, B bus → B (Bus.tick bus).2) :
    ClockSimulation (SameWith fun machine : Machine β => P machine.cpu ∧ B machine.bus) where
  clockTimer := corresponds_self_iff.mpr fun _ hmachine => ⟨h.clockTimer hmachine.1, hmachine.2⟩
  tickBus := corresponds_self_iff.mpr fun machine hmachine => by
    have hbus := htick hmachine.2
    rcases hnext : Bus.tick machine.bus with ⟨_ | ⟨line, state⟩, bus⟩
    · rw [hnext] at hbus
      rw [tickBus_of_quiet hnext]
      exact ⟨hmachine.1, hbus⟩
    · rw [hnext] at hbus
      rw [tickBus_of_driven hnext]
      exact ⟨h.drive hmachine.1 line state, hbus⟩
  charge cycles := corresponds_self_iff.mpr fun _ hmachine =>
    ⟨h.advance hmachine.1 cycles, hmachine.2⟩

end Cpu

namespace Cpu.Stable

open Exec

variable (h : Stable P)

include h

variable [Bus β]

theorem hostSimulation : HostSimulation (SameWith (Machine.Has P : Machine β → Prop)) where
  toServiceSimulation := h.toServiceStable.simulation
  toClockSimulation := h.toClockStable.simulation
  write _ value := corresponds_self_iff.mpr
    (inspect_keeps fun _ hmachine => h.toStoreStable.writeAt_keeps _ value _ hmachine)
  writePeripheral _ value :=
    corresponds_self_iff.mpr (h.toStoreStable.writeAt_keeps _ value)
  modifySt hchange :=
    corresponds_self_iff.mpr (modifyCpu_keeps fun hcpu => h.setSt hcpu (hchange _))
  sameWait := by
    rintro m _ ⟨rfl, _⟩
    rfl
  setIdle idle := corresponds_self_iff.mpr fun _ hmachine => h.setIdle hmachine idle
  drive line state := corresponds_self_iff.mpr (modifyCpu_keeps fun hcpu => h.drive hcpu line state)
  powerUp := corresponds_self_iff.mpr (modifyCpu_keeps h.powerUp)
  write? register value := corresponds_self_iff.mpr
    (h.toRegisterStable.write?_keeps fun _ _ hcpu => h.setSt hcpu (.mask _))

theorem iterate_keeps (limit : Nat) :
    Keeps (Machine.Has P : Machine β → Prop) (Exec.iterate limit) :=
  corresponds_self_iff.mp (h.hostSimulation.iterate limit)

theorem perform {operation : Operation Register} (hrestore : ∀ bytes, operation ≠ .restore bytes)
    {machine : Machine β} (hmachine : P machine.cpu) {answer : Answer MissingRegister Config}
    {next : Machine β} (hperform : machine.perform operation = some (answer, next)) :
    P next.cpu := by
  by_cases hsave : operation = .save
  · subst hsave
    obtain ⟨_, rfl⟩ := Prod.mk.inj (Option.some.inj hperform)
    exact hmachine
  · have hsame := h.hostSimulation.perform hsave hrestore ⟨rfl, hmachine⟩
    rw [hperform] at hsame
    cases hsame with
    | some hresult => exact hresult.2.2

end Cpu.Stable

end TmsCores.Tms7000
